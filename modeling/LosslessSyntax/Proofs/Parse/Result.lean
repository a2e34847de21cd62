import LosslessSyntax.Parse.Program
import LosslessSyntax.Proofs.Parse.Spelling
import LosslessSyntax.Proofs.Parse.Triple
import LosslessSyntax.Proofs.Token.Orthography

/-! What rules come to. Tokens read off a text stay such tokens while rules take some of them away, so what is
known of the result of a rule on them can be carried from rule to rule without a word about the cursor. -/

namespace LosslessSyntax

/-- Whether all tokens from the next significant one on were read off a text. -/
def Cursor.IsRead (c : Cursor) : Prop := ∀ t ∈ c.ahead, t.IsRead

namespace Rule

variable {A B : Type} {p q : Kind → Prop} {Q Q' : A → Prop} {R : B → Prop}

theorem isRead_run (r : Rule A) {c : Cursor} (h : c.IsRead) : (r.run c).2.IsRead :=
  fun t ht => h t ((r.ahead_suffix c).subset ht)

/-- Whether the rule comes to a result with `Q` wherever the next kind is one in `p`. -/
def Gives (p : Kind → Prop) (r : Rule A) (Q : A → Prop) : Prop := ∀ c : Cursor, c.IsRead → p c.kind → Q (r.run c).1

/-- Whether the rule comes to a result with `Q` everywhere. -/
abbrev Always (r : Rule A) (Q : A → Prop) : Prop := r.Gives (fun _ => True) Q

namespace Gives

theorem pure {a : A} (h : Q a) : Gives p (pure a) Q := fun _ _ _ => h

theorem bind {r : Rule A} {f : A → Rule B} (hr : r.Gives p Q) (hf : ∀ a, Q a → (f a).Always R) :
    Gives p (r >>= f) R := fun c hc hk => hf _ (hr c hc hk) _ (r.isRead_run hc) trivial

theorem map {r : Rule A} {f : A → B} (h : r.Gives p fun a => R (f a)) : Gives p (f <$> r) R := h

theorem imp {r : Rule A} (h : r.Gives p Q) (hQ : ∀ a, Q a → Q' a) : r.Gives p Q' := fun c hc hk => hQ _ (h c hc hk)

theorem and {r : Rule A} (h : r.Gives p Q) (h' : r.Gives p Q') : r.Gives p fun a => Q a ∧ Q' a :=
  fun c hc hk => ⟨h c hc hk, h' c hc hk⟩

theorem on {r : Rule A} (h : r.Gives p Q) (hp : ∀ k, q k → p k) : r.Gives q Q := fun c hc hk => h c hc (hp _ hk)

theorem always_on {r : Rule A} (h : r.Always Q) : r.Gives p Q := h.on fun _ _ => trivial

/-- Where nothing is asked of its result, any rule will do. -/
theorem any (r : Rule A) : r.Gives p fun _ => True := fun _ _ _ => trivial

theorem any_bind {r : Rule A} {f : A → Rule B} (hf : ∀ a, (f a).Always R) : Gives p (r >>= f) R :=
  (any r).bind fun a _ => hf a

theorem kind_bind {f : Kind → Rule A} (h : ∀ k, p k → (f k).Gives (· = k) Q) : Gives p (kind >>= f) Q :=
  fun c hc hk => h c.kind hk c hc rfl

theorem look_bind {f : Cursor → B} {g : B → Rule A} (h : ∀ b, (g b).Gives p Q) : Gives p (look f >>= g) Q :=
  fun c hc hk => h _ c hc hk

/-- Reading trivia leaves the next kind as it is. -/
theorem takeTrivia_bind {f : List Node → Rule B} {T : List Node → Prop} (ht : takeTrivia.Gives p T)
    (hf : ∀ ns, T ns → (f ns).Gives p R) : Gives p (takeTrivia >>= f) R := by
  intro c hc hk
  have hkind : p c.takeTrivia.2.kind := by rwa [Cursor.kind_takeTrivia]
  exact hf _ (ht c hc hk) _ (takeTrivia.isRead_run hc) hkind

theorem ite {x : Prop} [Decidable x] {r s : Rule A} (hr : x → r.Gives p Q) (hs : ¬x → s.Gives p Q) :
    Gives p (if x then r else s) Q := by
  by_cases h : x
  · rw [if_pos h]
    exact hr h
  · rw [if_neg h]
    exact hs h

theorem collect {round : Rule (List A × Bool)} {hround : round.Advances}
    (h : round.Always fun s => ∀ a ∈ s.1, Q a) : (collect round hround).Always fun as => ∀ a ∈ as, Q a := by
  intro c hc _
  show ∀ a ∈ (collectFrom round hround c).1, Q a
  fun_induction collectFrom round hround c with
  | case1 c s more t ih =>
      have hround := h c hc trivial
      have hrest := ih (round.isRead_run hc)
      exact List.forall_mem_append.mpr ⟨hround, hrest⟩
  | case2 c s more => exact h c hc trivial

/-- A loop that collects pieces with `F` and a last one with `G`, if such pieces join to a list with `G`. -/
theorem collect_append {F G : List A → Prop} (happend : ∀ as bs, F as → G bs → G (as ++ bs))
    {round : Rule (List A × Bool)} {hround : round.Advances}
    (h : round.Always fun s => cond s.2 (F s.1) (G s.1)) : (Rule.collect round hround).Always G := by
  intro c hc _
  show G (collectFrom round hround c).1
  fun_induction collectFrom round hround c with
  | case1 c s more t ih =>
      have hpiece : cond s.1.2 (F s.1.1) (G s.1.1) := h c hc trivial
      rw [more] at hpiece
      exact happend _ _ hpiece (ih (round.isRead_run hc))
  | case2 c s more =>
      have hpiece : cond s.1.2 (F s.1.1) (G s.1.1) := h c hc trivial
      rwa [eq_false_of_ne_true more] at hpiece

theorem grow {round : A → Rule (A × Bool)} {hround : ∀ a, (round a).Advances}
    (h : ∀ a, Q a → (round a).Always fun s => Q s.1) {a : A} (ha : Q a) : (grow round hround a).Always Q := by
  intro c hc _
  show Q (growFrom round hround a c).1
  fun_induction growFrom round hround a c with
  | case1 a c s more ih => exact ih (h a ha c hc trivial) ((round a).isRead_run hc)
  | case2 a c s more => exact h a ha c hc trivial

theorem separated {item : Rule (Option A)} (h : item.Always fun a => ∀ b ∈ a, Q b) :
    (separated item).Always fun s => ∀ a ∈ s.1, Q a := by
  have hround : (separatedRound item).Always fun s => ∀ pair ∈ s.1, Q pair.1 := by
    refine h.bind fun a ha => ?_
    cases a with
    | none => exact pure fun pair hpair => absurd hpair List.not_mem_nil
    | some a =>
        refine any_bind fun comma => pure fun pair hpair => ?_
        rw [List.mem_singleton.mp hpair]
        exact ha a rfl
  refine (collect hround).bind fun pairs hpairs => pure fun a ha => ?_
  obtain ⟨pair, hpair, rfl⟩ := List.mem_map.mp ha
  exact hpairs pair hpair

end Gives

/-- A token of a kind that is spelled in one way becomes a lexeme with this text. -/
theorem gives_bump {k : Kind} {text : Text} (hk : k.text? = some text) : bump.Gives (· = k) (·.text = text) := by
  intro c hc hkind
  cases hahead : c.ahead with
  | nil =>
      have hend : c.kind = .endOfInput := by
        unfold Cursor.kind
        rw [hahead]
        split <;> rfl
      rw [← hkind, hend] at hk
      cases hk
  | cons t rest =>
      have hseen : c.kind = t.kind := by
        unfold Cursor.kind at hkind ⊢
        split at hkind
        · rw [← hkind] at hk
          cases hk
        · next hgiven => rw [if_neg hgiven, hahead]
      have ht : t.IsRead := hc t (by rw [hahead]; exact List.mem_cons_self)
      rw [run_bump, Cursor.bump, hahead]
      apply ht.text_eq
      rw [← hseen, hkind]
      exact hk

end Rule

/-- What is taken at the end as it stands is not read into anything. -/
theorem Cursor.forall_mem_salvage {P : Node → Prop} (hunparsed : ∀ lexemes, P (.unparsed lexemes))
    (htrivia : ∀ n, n.isTrivia = true → P n) (c : Cursor) : ∀ n ∈ c.salvage.1, P n := by
  unfold salvage
  by_cases hgiven : c.givenUp = true
  · rw [if_pos hgiven]
    generalize (Rule.lexemesUntil fun _ => false).run { c with givenUp := false } = s
    obtain ⟨lexemes, d⟩ := s
    refine List.forall_mem_append.mpr ⟨?_, fun n hn => htrivia n (Token.isTrivia_triviaNodes n hn)⟩
    split
    · exact nofun
    · exact List.forall_mem_singleton.mpr (hunparsed lexemes)
  · rw [if_neg hgiven]
    exact nofun

theorem Parser.isRead_ofSource (source : Text) (limit : Nat) : (ofSource source limit).cursor.IsRead := by
  intro t ht
  have hmem : t ∈ tokenize source := (List.dropWhile_sublist _).subset ht
  exact (cut_tokenize source).isRead hmem

end LosslessSyntax
