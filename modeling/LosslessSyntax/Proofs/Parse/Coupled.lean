import LosslessSyntax.Proofs.Parse.Climbing
import LosslessSyntax.Proofs.Parse.Matching
import LosslessSyntax.Proofs.Parse.Spelling
import LosslessSyntax.Proofs.Tree.Bare

/-! Two readings side by side. Coupled rules take matching cursors to results that look the same and to matching
cursors again. What of a result is looked at is told by a function, as a rule by one that takes the trivia away.
There is one law for every way in which rules are put together. -/

namespace LosslessSyntax.Rule

variable {A B C D : Type} {p q : Kind → Prop} {φ : A → C} {ψ : B → D}

/-- Whether the rules take matching cursors, where the next kind is one in `p`, to results that `φ` makes equal and
to matching cursors. -/
def Coupled (p : Kind → Prop) (φ : A → C) (r s : Rule A) : Prop :=
  ∀ c d : Cursor, c.Matches false d → p c.kind → φ (r.run c).1 = φ (s.run d).1 ∧ (r.run c).2.Matches false (s.run d).2

namespace Coupled

theorem pure {a b : A} (h : φ a = φ b) : Coupled p φ (pure a) (pure b) := fun _ _ hm _ => ⟨h, hm⟩

theorem bind {r s : Rule A} {f g : A → Rule B} (hr : Coupled p φ r s)
    (hf : ∀ a b, φ a = φ b → Coupled (fun _ => True) ψ (f a) (g b)) : Coupled p ψ (r >>= f) (s >>= g) := by
  intro c d hm hk
  obtain ⟨hresult, hm'⟩ := hr c d hm hk
  exact hf _ _ hresult _ _ hm' trivial

theorem map {r s : Rule A} {f : A → B} (h : Coupled p (fun a => ψ (f a)) r s) : Coupled p ψ (f <$> r) (f <$> s) := h

/-- Less of the results may be looked at. -/
theorem of_imp {χ : A → D} {r s : Rule A} (h : Coupled p φ r s) (hχ : ∀ a b, φ a = φ b → χ a = χ b) :
    Coupled p χ r s := fun c d hm hk => (h c d hm hk).imp_left (hχ _ _)

theorem on {r s : Rule A} (h : Coupled p φ r s) (hp : ∀ k, q k → p k) : Coupled q φ r s :=
  fun c d hm hk => h c d hm (hp _ hk)

theorem always_on {r s : Rule A} (h : Coupled (fun _ => True) φ r s) : Coupled p φ r s := h.on fun _ _ => trivial

theorem kind_bind {f g : Kind → Rule A} (h : ∀ k, p k → Coupled (· = k) φ (f k) (g k)) :
    Coupled p φ (kind >>= f) (kind >>= g) := by
  intro c d hm hk
  rw [run_bind, run_bind, run_kind, run_kind, ← hm.kind_eq]
  exact h c.kind hk c d hm rfl

theorem nextKind_bind {f g : Kind → Rule A} (h : ∀ k, Coupled p φ (f k) (g k)) :
    Coupled p φ (look Cursor.nextKind >>= f) (look Cursor.nextKind >>= g) := by
  intro c d hm hk
  rw [run_bind, run_bind, run_look, run_look, ← hm.nextKind_eq]
  exact h c.nextKind c d hm hk

/-- A rule may go by whether a line ends in front of an operator that may stand behind its operand. -/
theorem lineBreak_bind {f g : Bool → Rule A} {k : Kind} (hg : k.isPostfixOperator = false → ∀ b b', g b = g b')
    (h : ∀ b, Coupled (· = k) φ (f b) (g b)) :
    Coupled (· = k) φ (look Cursor.followsLineBreak >>= f) (look Cursor.followsLineBreak >>= g) := by
  intro c d hm hk
  rw [run_bind, run_bind, run_look, run_look]
  cases hmatters : k.isPostfixOperator with
  | false =>
      rw [hg hmatters d.followsLineBreak c.followsLineBreak]
      exact h _ c d hm hk
  | true =>
      have hend : c.kind ≠ .endOfInput := by
        rw [hk]
        rintro rfl
        cases hmatters
      rw [← hm.followsLineBreak_eq (.inr (hk ▸ hmatters)) hend]
      exact h _ c d hm hk

theorem ite {x : Prop} [Decidable x] {r s r' s' : Rule A} (hr : x → Coupled p φ r s) (hr' : ¬x → Coupled p φ r' s') :
    Coupled p φ (if x then r else r') (if x then s else s') := by
  by_cases h : x
  · rw [if_pos h, if_pos h]
    exact hr h
  · rw [if_neg h, if_neg h]
    exact hr' h

/-! ### Single steps -/

theorem bump_isMissing : Coupled p (fun l : Lexeme => (l.bare, l.isMissing)) bump bump :=
  fun _ _ hm _ => ⟨Prod.ext hm.lexeme_bump.1 hm.lexeme_bump.2, hm.bump⟩

theorem bump : Coupled p Lexeme.bare bump bump := fun _ _ hm _ => ⟨hm.lexeme_bump.1, hm.bump⟩

theorem report (m : Message) (args : List Text) : Coupled p id (report m args) (report m args) :=
  fun _ _ hm _ => ⟨rfl, hm.report m args⟩

theorem giveUp : Coupled p id giveUp giveUp := fun _ _ hm _ => ⟨rfl, hm.giveUp⟩

theorem takeTrivia : Coupled p Node.bareStatements takeTrivia takeTrivia := by
  intro c d hm _
  have hnone (c : Cursor) : Node.bareStatements c.takeTrivia.1 = [] :=
    Node.bareStatements_of_isTrivia Token.isTrivia_triviaNodes
  exact ⟨(hnone c).trans (hnone d).symm, hm.takeTrivia⟩

/-- What is taken in front of `else` goes into a closure and does not matter. -/
theorem takeTrailing : Coupled (· = .keyword .elseWord) (fun _ => ()) takeTrailing takeTrailing :=
  fun _ _ hm hk => ⟨rfl, hm.takeTrailing (by rw [hk]; decide) (by rw [hk]; rfl)⟩

/-- A rule may go by whether a line ends behind `return`. -/
theorem return_bind {f g : Lexeme → Kind → Bool → Rule A}
    (hg : ∀ a k, k.startsExpression = false → ∀ b b', g a k b = g a k b')
    (h : ∀ a a', a.bare = a'.bare → ∀ k b, Coupled (fun _ => True) φ (f a k b) (g a' k b)) :
    Coupled (· = .keyword .returnWord) φ
      (Rule.bump >>= fun a => kind >>= fun k => look Cursor.followsLineBreak >>= f a k)
      (Rule.bump >>= fun a => kind >>= fun k => look Cursor.followsLineBreak >>= g a k) := by
  intro c d hm hk
  have hbehind := hm.bump_returned hk
  have hrest (b : Bool) := h _ _ hm.lexeme_bump.1 c.bump.2.kind b _ _ hbehind.anywhere trivial
  simp only [run_bind, run_bump, run_kind, run_look]
  rw [← hbehind.kind_eq]
  cases hstarts : c.bump.2.kind.startsExpression with
  | false =>
      rw [hg _ _ hstarts d.bump.2.followsLineBreak c.bump.2.followsLineBreak]
      exact hrest _
  | true =>
      have hend : c.bump.2.kind ≠ .endOfInput := by
        intro hend
        rw [hend] at hstarts
        cases hstarts
      rw [← hbehind.followsLineBreak_eq (.inl rfl) hend]
      exact hrest _

theorem optional (k : Kind) : Coupled p (Option.map Lexeme.bare) (optional k) (optional k) :=
  kind_bind fun _ _ => ite (fun _ => bump.bind fun _ _ h => pure (congrArg some h)) fun _ => pure rfl

theorem expect_isMissing (k : Kind) : Coupled p (fun l : Lexeme => (l.bare, l.isMissing)) (expect k) (expect k) :=
  kind_bind fun _ _ => ite (fun _ => bump_isMissing) fun _ => (report _ _).bind fun _ _ _ => pure rfl

theorem expect (k : Kind) : Coupled p Lexeme.bare (expect k) (expect k) :=
  (expect_isMissing k).of_imp fun _ _ h => (Prod.mk.inj h).1

theorem expectIdentifier : Coupled p Lexeme.bare expectIdentifier expectIdentifier :=
  kind_bind fun _ _ => ite (fun _ => bump) fun _ => (report _ _).bind fun _ _ _ => pure rfl

/-! ### Loops -/

/-- A loop that collects, if lists look the same whenever their pieces do. -/
theorem collect {F : List A → C} (hF : ∀ {as as' bs bs'}, F as = F as' → F bs = F bs' → F (as ++ bs) = F (as' ++ bs'))
    {r s : Rule (List A × Bool)} {hr : r.Advances} {hs : s.Advances}
    (h : Coupled (fun _ => True) (fun t => (F t.1, t.2)) r s) :
    Coupled (fun _ => True) F (collect r hr) (collect s hs) := by
  intro c
  induction hn : c.left using Nat.strongRecOn generalizing c with
  | ind n ih =>
      intro d hm _
      obtain ⟨hround, hm'⟩ := h c d hm trivial
      obtain ⟨hfirst, hmore⟩ := Prod.mk.inj hround
      rw [collect_eq r, collect_eq s, run_bind, run_bind, run_ite, run_ite, ← hmore]
      by_cases hgoes : (r.run c).1.2 = true
      · obtain ⟨hrest, hm''⟩ := ih _ (hn ▸ hr c hgoes) _ rfl _ hm' trivial
        rw [if_pos hgoes, if_pos hgoes]
        exact ⟨hF hfirst hrest, hm''⟩
      · rw [if_neg hgoes, if_neg hgoes]
        exact ⟨hfirst, hm'⟩

/-- A loop that works on its own result. -/
theorem grow {r s : A → Rule (A × Bool)} {hr : ∀ a, (r a).Advances} {hs : ∀ a, (s a).Advances}
    (h : ∀ a b, φ a = φ b → Coupled (fun _ => True) (fun t => (φ t.1, t.2)) (r a) (s b)) {a b : A} (hab : φ a = φ b) :
    Coupled (fun _ => True) φ (grow r hr a) (grow s hs b) := by
  intro c
  induction hn : c.left using Nat.strongRecOn generalizing c a b with
  | ind n ih =>
      intro d hm _
      obtain ⟨hround, hm'⟩ := h a b hab c d hm trivial
      obtain ⟨hfirst, hmore⟩ := Prod.mk.inj hround
      rw [grow_eq r, grow_eq s, run_bind, run_bind, run_ite, run_ite, ← hmore]
      by_cases hgoes : ((r a).run c).1.2 = true
      · rw [if_pos hgoes, if_pos hgoes]
        exact ih _ (hn ▸ hr a c hgoes) hfirst _ rfl _ hm' trivial
      · rw [if_neg hgoes, if_neg hgoes]
        exact ⟨hfirst, hm'⟩

theorem collect_map {f : A → C} {r s : Rule (List A × Bool)} {hr : r.Advances} {hs : s.Advances}
    (h : Coupled (fun _ => True) (fun t => (t.1.map f, t.2)) r s) :
    Coupled (fun _ => True) (List.map f) (Rule.collect r hr) (Rule.collect s hs) :=
  collect (fun has hbs => by rw [List.map_append, List.map_append, has, hbs]) h

/-- Items with commas between them. -/
theorem separated {r s : Rule (Option A)} (h : Coupled (fun _ => True) (Option.map φ) r s) :
    Coupled (fun _ => True) (fun t => (t.1.map φ, t.2.map Lexeme.bare)) (separated r) (separated s) := by
  let f : A × Option Lexeme → C × Option Lexeme := fun pair => (φ pair.1, pair.2.map Lexeme.bare)
  have hround : Coupled (fun _ => True) (fun t => (t.1.map f, t.2)) (separatedRound r) (separatedRound s) := by
    refine h.bind fun a b hab => ?_
    cases a with
    | none =>
        cases b with
        | none => exact pure rfl
        | some b => cases hab
    | some a =>
        cases b with
        | none => cases hab
        | some b =>
            refine (optional _).bind fun l m hlm => pure ?_
            have hsome : l.isSome = m.isSome := by simpa using congrArg Option.isSome hlm
            simp [f, hsome, hlm, Option.some.inj hab]
  refine (collect_map hround).bind fun pairs pairs' hpairs => pure ?_
  have hitems (pairs : List (A × Option Lexeme)) : (pairs.map (·.1)).map φ = (pairs.map f).map (·.1) := by
    simp [f, Function.comp_def]
  have hcommas (pairs : List (A × Option Lexeme)) :
      (pairs.filterMap (·.2)).map Lexeme.bare = (pairs.map f).filterMap (·.2) := by
    simp [f, List.map_filterMap, List.filterMap_map]
  rw [hitems, hitems, hcommas, hcommas, hpairs]

theorem lexemesUntil (stops : Kind → Bool) :
    Coupled (fun _ => True) (List.map Lexeme.bare) (lexemesUntil stops) (lexemesUntil stops) :=
  collect_map (kind_bind fun _ _ => ite (fun _ => pure rfl) fun _ => bump.bind fun _ _ h => pure (by simp [h]))

end Coupled

end LosslessSyntax.Rule
