import LosslessSyntax.Proofs.Token.Longest
import LosslessSyntax.Proofs.Token.Orthography

/-! Symbols. Many symbols begin with others, and for each of them the scanner looks ahead in a way of its own. Where
any symbol fits, and neither a comment nor a number begins, it comes to the longest of those that do. -/

namespace LosslessSyntax

namespace Text

/-- Whether the text is how some symbol is spelled. -/
def IsSymbol (t : Text) : Prop := ∃ s : Symbol, s.text = t

/-- Whether a comment begins the text. -/
def BeginsComment (t : Text) : Prop := ['/', '/'] <+: t ∨ ['/', '*'] <+: t

/-- Whether a fraction without digits in front of it begins the text. -/
def BeginsFraction (t : Text) : Prop := ∃ d u, isDigit d = true ∧ t = '.' :: d :: u

end Text

theorem Symbol.isDigit_head (s : Symbol) : ∀ c ∈ s.text.head?, isDigit c = false := by
  cases s <;> simp only [Symbol.text, List.head?_cons, Option.mem_some_iff, forall_eq'] <;> decide

namespace Reading

open Text

/-- Where a symbol is in front, one is read. -/
theorem symbol?_append_ne_none (s : Symbol) (t : Text) : symbol? (s.text ++ t) ≠ none := by
  intro hnone
  generalize htext : s.text ++ t = u at hnone
  unfold symbol? at hnone
  split at hnone
  case h_35 =>
    -- no pattern fits, but that of the symbol does
    cases s
    all_goals
      simp only [Symbol.text, List.cons_append, List.nil_append] at htext
      subst htext
      first
      | exact ‹∀ v, _ :: t = _ :: v → False› t rfl
      | exact ‹∀ v, _ :: _ :: t = _ :: _ :: v → False› t rfl
      | exact ‹∀ v, _ :: _ :: _ :: t = _ :: _ :: _ :: v → False› t rfl
  all_goals cases hnone

/-- The symbols of two characters that begin others are read unless the third is behind them. -/
theorem symbol?_append_of_not_equals {s : Symbol} (hs : s = .equal ∨ s = .notEqual) {t : Text}
    (ht : ∀ u, t = '=' :: u → False) : symbol? (s.text ++ t) = some (s, 2) := by
  rcases hs with rfl | rfl
  all_goals simp only [Symbol.text, List.cons_append, List.nil_append, symbol?]

/-- The symbol that is read is as long at least as any that is in front. -/
theorem exists_symbol?_append (s : Symbol) (t : Text) :
    ∃ found n, symbol? (s.text ++ t) = some (found, n) ∧ s.text.length ≤ found.text.length := by
  cases s with
  | less | greater | assign | not | plus | minus | times | divide | remainder =>
      obtain ⟨⟨found, n⟩, hfound⟩ := Option.ne_none_iff_exists'.mp (symbol?_append_ne_none _ t)
      exact ⟨found, n, hfound, List.length_pos_iff.mpr found.text_ne_nil⟩
  | equal =>
      by_cases hmore : ∃ u, t = '=' :: u
      · obtain ⟨u, rfl⟩ := hmore
        exact ⟨.identical, 3, rfl, by decide⟩
      · exact ⟨.equal, 2, symbol?_append_of_not_equals (.inl rfl) (not_exists.mp hmore), Nat.le_refl _⟩
  | notEqual =>
      by_cases hmore : ∃ u, t = '=' :: u
      · obtain ⟨u, rfl⟩ := hmore
        exact ⟨.notIdentical, 3, rfl, by decide⟩
      · exact ⟨.notEqual, 2, symbol?_append_of_not_equals (.inr rfl) (not_exists.mp hmore), Nat.le_refl _⟩
  | _ => exact ⟨_, _, rfl, Nat.le_refl _⟩

/-- A symbol takes as many characters as its spelling has. -/
theorem length_of_symbol? {t : Text} {s : Symbol} {n : Nat} (h : symbol? t = some (s, n)) : n = s.text.length := by
  unfold symbol? at h
  split at h
  case h_35 => cases h
  all_goals cases h; rfl

/-- The symbol that is read is the longest that is in front. -/
theorem isLongest_symbol? {t : Text} {s : Symbol} {n : Nat} (h : symbol? t = some (s, n)) :
    IsLongest IsSymbol t s.text where
  isPrefix := take_of_symbol? h ▸ List.take_prefix n t
  holds := ⟨s, rfl⟩
  length_le := by
    rintro _ ⟨u, rfl⟩ ⟨other, rfl⟩
    obtain ⟨found, m, hfound, hlength⟩ := exists_symbol?_append other u
    obtain ⟨rfl, -⟩ := Prod.mk.inj (Option.some.inj (h.symm.trans hfound))
    exact hlength

theorem read_of_symbol? {c : Char} {t : Text} {s : Symbol} {n : Nat} (h : symbol? (c :: t) = some (s, n))
    (hcomment : ¬ BeginsComment (c :: t)) (hfraction : ¬ BeginsFraction (c :: t)) :
    read c t = ⟨.symbol s, (c :: t).take n, (c :: t).drop n, {}, []⟩ := by
  have hdigit : isDigit c = false := s.isDigit_head c (mem_head?_of_symbol? h)
  unfold read
  split
  · next hline =>
      obtain ⟨rfl, t, rfl⟩ := pair_iff.mp hline
      exact absurd (.inl (List.prefix_append ['/', '/'] t)) hcomment
  · split
    · next hblock =>
        obtain ⟨rfl, t, rfl⟩ := pair_iff.mp hblock
        exact absurd (.inr (List.prefix_append ['/', '*'] t)) hcomment
    · split
      · next hnumber =>
          simp only [hdigit, Bool.false_or, Bool.and_eq_true, decide_eq_true_eq, Option.any_eq_true] at hnumber
          obtain ⟨rfl, d, hhead, hd⟩ := hnumber
          obtain ⟨u, rfl⟩ := List.head?_eq_some_iff.mp hhead
          exact absurd ⟨d, u, hd, rfl⟩ hfraction
      · rw [h]

end Reading

/-- Where a symbol fits, and no comment or number begins, the token is the longest symbol that does; and the tokens of
a symbol or a keyword are spelled as it is. -/
theorem Token.isLongest_of_symbol (source : Text) :
    (∀ t rest, IsCutAt t source rest → (∃ s : Symbol, s.text <+: rest) → ¬ rest.BeginsComment →
      ¬ rest.BeginsFraction →
      ∃ s, t.kind = .symbol s ∧ t.text = s.text ∧ Text.IsLongest Text.IsSymbol rest s.text) ∧
    ∀ t ∈ tokenize source, (∀ s, t.kind = .symbol s → t.text = s.text) ∧ ∀ k, t.kind = .keyword k → t.text = k.text := by
  constructor
  · rintro t _ ht ⟨other, u, rfl⟩ hcomment hfraction
    obtain ⟨s, n, hsymbol, -⟩ := Reading.exists_symbol?_append other u
    obtain ⟨c, v, place, offset, hrest, htoken⟩ := ht.exists_read
    rw [hrest] at hsymbol hcomment hfraction ⊢
    rw [htoken, Reading.read_of_symbol? hsymbol hcomment hfraction]
    exact ⟨s, rfl, Reading.take_of_symbol? hsymbol, Reading.isLongest_symbol? hsymbol⟩
  · intro t ht
    have hread : t.IsRead := (cut_tokenize source).isRead ht
    exact ⟨fun s hs => hread.text_eq (congrArg Kind.text? hs), fun k hk => hread.text_eq (congrArg Kind.text? hk)⟩

/-- The second of two symbols that begin alike, in front of a letter of two bytes. -/
theorem Token.isLongest_of_symbol_equal :
    let source : Text := ['a', '!', '=', '=', '=', '=', 'é']
    let t : Token := ⟨.symbol .equal, ['=', '='], ⟨1, 5⟩, 4, {}⟩
    t.IsCutAt source (source.drop 4) ∧ Text.IsLongest Text.IsSymbol (source.drop 4) t.text := by
  intro source t
  have ht : t.IsCutAt source (source.drop 4) := ⟨(tokenize source).take 2, (tokenize source).drop 3, by decide +kernel, by decide +kernel⟩
  have hsymbol : ∃ s : Symbol, s.text <+: source.drop 4 := ⟨.assign, ['=', 'é'], rfl⟩
  have hcomment : ¬ Text.BeginsComment (source.drop 4) := by
    rintro (⟨u, hu⟩ | ⟨u, hu⟩) <;> cases hu
  have hfraction : ¬ Text.BeginsFraction (source.drop 4) := by
    rintro ⟨d, u, -, hu⟩
    cases hu
  obtain ⟨s, -, htext, hlongest⟩ := (isLongest_of_symbol source).1 t _ ht hsymbol hcomment hfraction
  exact ⟨ht, htext ▸ hlongest⟩

end LosslessSyntax
