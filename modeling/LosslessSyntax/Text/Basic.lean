/-! Texts and their line breaks. A text is the list of its characters: a source, a token and the
trivia in front of a token are all cut from one text, and what matters about them is how their
characters join. Bytes enter only as a measure, the length of the UTF-8 form. -/

namespace LosslessSyntax

/-- A piece of source text, character by character. -/
abbrev Text := List Char

/-- The four characters that end a line: line feed, carriage return, line and paragraph separator. -/
def isLineBreak (c : Char) : Bool :=
  c = '\n' || c = '\r' || c = '\u2028' || c = '\u2029'

/-- The characters that separate tokens without ending the line. -/
def isBlank (c : Char) : Bool :=
  c = ' ' || c = '\t' || c = '\x0b' || c = '\x0c' || c = '\u00a0' || c = '\u1680' ||
    ('\u2000' ≤ c && c ≤ '\u200a') || c = '\u202f' || c = '\u205f' || c = '\u3000' || c = '\ufeff'

/-- A character that ends a line is no blank. -/
theorem isBlank_eq_false_of_isLineBreak {c : Char} (h : isLineBreak c = true) : isBlank c = false := by
  simp only [isLineBreak, Bool.or_eq_true, decide_eq_true_eq] at h
  rcases h with ((rfl | rfl) | rfl) | rfl <;> decide

namespace Text

/-- Whether any line ends inside the text. -/
def hasLineBreak (t : Text) : Bool := t.any isLineBreak

/-- The number of bytes of the UTF-8 form. -/
def byteLength : Text → Nat
  | [] => 0
  | c :: t => c.utf8Size + byteLength t

@[simp] theorem hasLineBreak_nil : hasLineBreak [] = false := rfl

@[simp] theorem hasLineBreak_append (s t : Text) :
    hasLineBreak (s ++ t) = (hasLineBreak s || hasLineBreak t) := by
  simp [hasLineBreak]

/-- A test of a character and of the one behind it. -/
theorem pair_iff {c x y : Char} {t : Text} :
    (decide (c = x) && decide (t.head? = some y)) = true ↔ c = x ∧ ∃ u, t = y :: u := by
  rw [Bool.and_eq_true, decide_eq_true_eq, decide_eq_true_eq, List.head?_eq_some_iff]

@[simp] theorem byteLength_nil : byteLength [] = 0 := rfl

@[simp] theorem byteLength_cons (c : Char) (t : Text) :
    byteLength (c :: t) = c.utf8Size + byteLength t := rfl

@[simp] theorem byteLength_append (s t : Text) : byteLength (s ++ t) = byteLength s + byteLength t := by
  induction s with
  | nil => simp
  | cons c s ih => simp [ih, Nat.add_assoc]

/-- Every character takes at least one byte, so only the empty text takes none. -/
theorem byteLength_eq_zero_iff {t : Text} : byteLength t = 0 ↔ t = [] := by
  cases t with
  | nil => simp
  | cons c t =>
    have := c.utf8Size_pos
    simp only [byteLength_cons, reduceCtorEq, iff_false]
    omega

end Text

end LosslessSyntax
