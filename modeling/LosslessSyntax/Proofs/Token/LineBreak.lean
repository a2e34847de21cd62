import LosslessSyntax.Proofs.Text.LineCount
import LosslessSyntax.Proofs.Token.Cut

/-! Line breaks in tokens. A line break is a token of its own; apart from those, only strings and comments with
an end mark hold any. So a pair of characters that is one line break comes apart in one way only: a string takes
the carriage return along behind a backslash, and ends in front of the line feed. -/

namespace LosslessSyntax.Reading

open Text

/-- The characters that end a line. -/
def lineBreaks : List Char := ['\n', '\r', '\u2028', '\u2029']

/-- A class of characters without any of these has no character that ends a line. -/
theorem isLineBreak_eq_false_of {p : Char → Bool} (hp : lineBreaks.any p = false) {c : Char} (hc : p c = true) :
    isLineBreak c = false := by
  rw [← Bool.not_eq_true]
  intro hbreak
  simp only [isLineBreak, Bool.or_eq_true, decide_eq_true_eq] at hbreak
  refine List.any_eq_false.mp hp c ?_ hc
  rcases hbreak with ((rfl | rfl) | rfl) | rfl <;> decide

theorem hasLineBreak_eq_false_iff {t : Text} : t.hasLineBreak = false ↔ ∀ c ∈ t, isLineBreak c = false := by
  simp [hasLineBreak]

@[simp] theorem hasLineBreak_cons (c : Char) (t : Text) :
    hasLineBreak (c :: t) = (isLineBreak c || hasLineBreak t) := rfl

theorem hasLineBreak_run {p : Char → Bool} (hp : ∀ c, p c = true → isLineBreak c = false) (t : Text) :
    (run p t).1.hasLineBreak = false :=
  hasLineBreak_eq_false_iff.mpr fun c hc => hp c (List.all_eq_true.mp List.all_takeWhile c hc)

/-! ### Numbers -/

theorem hasLineBreak_digits {p : Char → Bool} (hp : lineBreaks.any p = false) (t : Text) :
    (digits p t).1.hasLineBreak = false := by
  refine hasLineBreak_run (fun c hc => ?_) t
  rw [Bool.or_eq_true, decide_eq_true_eq] at hc
  rcases hc with rfl | hc
  · rfl
  · exact isLineBreak_eq_false_of hp hc

theorem hasLineBreak_fraction (t : Text) : (fraction t).1.hasLineBreak = false := by
  cases t with
  | nil => rfl
  | cons c t =>
      rw [fraction]
      split
      · next hc =>
          subst hc
          exact hasLineBreak_digits (by decide) t
      · rfl

theorem hasLineBreak_sign (t : Text) : (sign t).1.hasLineBreak = false := by
  cases t with
  | nil => rfl
  | cons c t =>
      rw [sign]
      split
      · next hc =>
          simp only [Bool.or_eq_true, decide_eq_true_eq] at hc
          rcases hc with rfl | rfl <;> rfl
      · rfl

theorem hasLineBreak_exponent (t : Text) : (exponent t).1.hasLineBreak = false := by
  cases t with
  | nil => rfl
  | cons c t =>
      simp only [exponent]
      split
      · next hc =>
          simp only [Bool.and_eq_true, Bool.or_eq_true, decide_eq_true_eq] at hc
          have hletter : isLineBreak c = false := by rcases hc.1 with rfl | rfl <;> rfl
          rw [List.cons_append, hasLineBreak_cons, hletter, hasLineBreak_append, hasLineBreak_sign,
            hasLineBreak_digits (by decide)]
          rfl
      · rfl

theorem hasLineBreak_decimal (t : Text) : (decimal t).text.hasLineBreak = false := by
  simp only [decimal, hasLineBreak_append, hasLineBreak_digits (p := isDigit) (by decide), hasLineBreak_fraction,
    hasLineBreak_exponent, Bool.or_false]

theorem hasLineBreak_based {zero letter : Char} {p : Char → Bool} (hzero : isLineBreak zero = false)
    (hletter : isLineBreak letter = false) (hp : lineBreaks.any p = false) (flags : Flags)
    (t : Text) : (based zero letter p flags t).text.hasLineBreak = false := by
  simp only [based, hasLineBreak_cons, hzero, hletter, hasLineBreak_digits hp, Bool.or_false]

theorem hasLineBreak_number (t : Text) : (number t).text.hasLineBreak = false := by
  unfold number
  split
  · next c u =>
      split
      · next hc =>
          refine hasLineBreak_based rfl ?_ (by decide) _ _
          simp only [Bool.or_eq_true, decide_eq_true_eq] at hc
          rcases hc with rfl | rfl <;> rfl
      · split
        · next hc =>
            refine hasLineBreak_based rfl ?_ (by decide) _ _
            simp only [Bool.or_eq_true, decide_eq_true_eq] at hc
            rcases hc with rfl | rfl <;> rfl
        · split
          · next hc =>
              refine hasLineBreak_based rfl ?_ (by decide) _ _
              simp only [Bool.or_eq_true, decide_eq_true_eq] at hc
              rcases hc with rfl | rfl <;> rfl
          · exact hasLineBreak_decimal _
  · exact hasLineBreak_decimal _

/-! ### Strings and comments -/

theorem getLast?_throughCommentEnd_of_closed {t : Text} (h : (throughCommentEnd t).2.2 = true) :
    (throughCommentEnd t).1.getLast? = some '/' := by
  induction t with
  | nil => cases h
  | cons c t ih =>
      simp only [throughCommentEnd] at h ⊢
      split
      · next hmark =>
          obtain ⟨-, t, rfl⟩ := pair_iff.mp hmark
          rfl
      · next hmark =>
          rw [if_neg hmark] at h
          rw [List.getLast?_cons, ih h, Option.getD_some]

theorem getLast?_throughQuote_of_closed {quote : Char} {taken : Nat} {t : Text}
    (h : (throughQuote quote taken t).2.2 = []) : (throughQuote quote taken t).1.getLast? = some quote := by
  fun_induction throughQuote quote taken t with
  | case1 => cases h
  | case2 t => rfl
  | case3 => cases h
  | case4 taken e t body rest faults hread hquote ih =>
      rw [hread] at ih
      rw [List.getLast?_cons, List.getLast?_cons, ih h, Option.getD_some, Option.getD_some]
  | case5 => cases h
  | case6 taken c t hquote hescape hbreak body rest faults hread ih =>
      rw [hread] at ih
      rw [List.getLast?_cons, ih h, Option.getD_some]

/-- A string takes a character that ends a line along behind a backslash only. -/
theorem eq_concat_of_getLast?_throughQuote {quote : Char} {taken : Nat} {t : Text}
    (hquote : isLineBreak quote = false) {c : Char} (h : (throughQuote quote taken t).1.getLast? = some c)
    (hc : isLineBreak c = true) : ∃ front, (throughQuote quote taken t).1 = front ++ ['\\', c] := by
  fun_induction throughQuote quote taken t with
  | case1 => cases h
  | case2 t =>
      obtain rfl : quote = c := Option.some.inj h
      rw [hquote] at hc
      cases hc
  | case3 =>
      obtain rfl : '\\' = c := Option.some.inj h
      cases hc
  | case4 taken e t body rest faults hread _ ih =>
      rw [hread] at ih
      cases body with
      | nil =>
          obtain rfl : e = c := Option.some.inj h
          exact ⟨[], rfl⟩
      | cons d body =>
          obtain ⟨front, hfront⟩ := ih h
          exact ⟨'\\' :: e :: front, congrArg ('\\' :: e :: ·) hfront⟩
  | case5 => cases h
  | case6 taken d t _ _ hbreak body rest faults hread ih =>
      rw [hread] at ih
      cases body with
      | nil =>
          obtain rfl : d = c := Option.some.inj h
          exact absurd hc hbreak
      | cons e body =>
          obtain ⟨front, hfront⟩ := ih h
          exact ⟨d :: front, congrArg (d :: ·) hfront⟩

/-! ### All tokens -/

theorem read_of_isLineBreak {c : Char} (h : isLineBreak c = true) (t : Text) : read c t = lineBreak c t := by
  simp only [isLineBreak, Bool.or_eq_true, decide_eq_true_eq] at h
  rcases h with ((rfl | rfl) | rfl) | rfl <;> rfl

theorem text_name (c : Char) (t : Text) : (name c t).text = c :: (run isIdentifierPart t).1 := by
  simp only [name]
  split <;> rfl

/-- Apart from line breaks, only a string and a comment with an end mark can hold any. -/
theorem Reads.kind_of_hasLineBreak {c : Char} {t : Text} {r : Reading} (h : Reads c t r)
    (hc : isLineBreak c = false) (hr : r.text.hasLineBreak = true) : r.kind = .string ∨ r.kind = .blockComment := by
  cases h with
  | blockComment => exact .inr rfl
  | string => exact .inl rfl
  | lineBreak hbreak =>
      rw [hc] at hbreak
      cases hbreak
  | lineComment t =>
      rw [Reading.lineComment, hasLineBreak_cons, hasLineBreak_cons, hasLineBreak_run (by simp)] at hr
      cases hr
  | number =>
      rw [hasLineBreak_number] at hr
      cases hr
  | @symbol _ _ s =>
      have hsymbol : s.text.hasLineBreak = false := by cases s <;> rfl
      rw [hsymbol] at hr
      cases hr
  | blanks =>
      have hblank : ∀ c, isBlank c = true → isLineBreak c = false := fun _ => isLineBreak_eq_false_of (by decide)
      rw [Reading.blanks, hasLineBreak_cons, hc, hasLineBreak_run hblank] at hr
      cases hr
  | name =>
      have hpart : ∀ c, isIdentifierPart c = true → isLineBreak c = false :=
        fun _ => isLineBreak_eq_false_of (by decide +kernel)
      rw [text_name, hasLineBreak_cons, hc, hasLineBreak_run hpart] at hr
      cases hr
  | unknown =>
      rw [Reading.unknown, hasLineBreak_cons, hc] at hr
      cases hr

theorem Reads.eq_string {c : Char} {t : Text} {r : Reading} (h : Reads c t r) (hkind : r.kind = .string) :
    isLineBreak c = false ∧ r = Reading.string c t := by
  obtain ⟨hquote, hread⟩ := h.isOfKind hkind
  exact ⟨by rcases hquote with rfl | rfl <;> rfl, hread⟩

theorem Reads.exists_eq_blockComment {c : Char} {t : Text} {r : Reading} (h : Reads c t r)
    (hkind : r.kind = .blockComment) : ∃ u, r = Reading.blockComment u := by
  obtain ⟨u, -, -, hread⟩ := h.isOfKind hkind
  exact ⟨u, hread⟩

/-! ### Line breaks that come apart -/

theorem not_splitsLineBreak_lineBreak (c : Char) (t : Text) :
    ¬ SplitsLineBreak (lineBreak c t).text (lineBreak c t).rest := by
  rintro ⟨hlast, hhead⟩
  rcases lineBreak_cases c t with ⟨rfl, u, rfl, hread⟩ | ⟨hpair, hread⟩
  · rw [hread] at hlast
    cases hlast
  · rw [hread] at hlast hhead
    exact hpair ⟨Option.some.inj hlast, hhead⟩

theorem not_splitsLineBreak_blockComment (t : Text) :
    ¬ SplitsLineBreak (blockComment t).text (blockComment t).rest := by
  rintro ⟨hlast, hhead⟩
  simp only [blockComment, List.getLast?_cons] at hlast hhead
  cases hclosed : (throughCommentEnd t).2.2 with
  | true => simp [getLast?_throughCommentEnd_of_closed hclosed] at hlast
  | false => simp [rest_throughCommentEnd_of_not_closed hclosed] at hhead

theorem eq_concat_of_splitsLineBreak_string {quote : Char} (hquote : isLineBreak quote = false) {t : Text}
    (h : SplitsLineBreak (string quote t).text (string quote t).rest) :
    (string quote t).flags.unterminated = true ∧ ∃ front, (string quote t).text = front ++ ['\\', '\r'] := by
  have hlast : (throughQuote quote 1 t).1.getLast? = some '\r' := by
    have hlast := h.1
    simp only [string, List.getLast?_cons, Option.some.injEq] at hlast
    cases hbody : (throughQuote quote 1 t).1.getLast? with
    | none =>
        rw [hbody, Option.getD_none] at hlast
        subst hlast
        cases hquote
    | some c => rw [← hlast, hbody, Option.getD_some]
  obtain ⟨front, hfront⟩ := eq_concat_of_getLast?_throughQuote hquote hlast rfl
  refine ⟨?_, quote :: front, congrArg (quote :: ·) hfront⟩
  cases hfaults : (throughQuote quote 1 t).2.2 with
  | cons => simp [string, hfaults]
  | nil =>
      rw [getLast?_throughQuote_of_closed hfaults, Option.some.injEq] at hlast
      subst hlast
      cases hquote

/-- Only a string without its end mark can end inside a line break, and a backslash stands in front of the break. -/
theorem eq_string_of_splitsLineBreak {c : Char} {t : Text} (h : SplitsLineBreak (read c t).text (read c t).rest) :
    (read c t).kind = .string ∧ (read c t).flags.unterminated = true ∧
      ∃ front, (read c t).text = front ++ ['\\', '\r'] := by
  by_cases hbreak : isLineBreak c = true
  · rw [read_of_isLineBreak hbreak] at h
    exact absurd h (not_splitsLineBreak_lineBreak c t)
  have hreads := reads_read c t
  have hcontains : (read c t).text.hasLineBreak = true :=
    List.any_eq_true.mpr ⟨'\r', List.mem_of_getLast? h.1, rfl⟩
  rcases hreads.kind_of_hasLineBreak (by simpa using hbreak) hcontains with hkind | hkind
  · obtain ⟨hquote, hread⟩ := hreads.eq_string hkind
    refine ⟨hkind, ?_⟩
    rw [hread] at h ⊢
    exact eq_concat_of_splitsLineBreak_string hquote h
  · obtain ⟨u, hread⟩ := hreads.exists_eq_blockComment hkind
    rw [hread] at h
    exact absurd h (not_splitsLineBreak_blockComment u)

end LosslessSyntax.Reading
