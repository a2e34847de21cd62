import LosslessSyntax.Diagnostic.Catalogue
import LosslessSyntax.Parse.Trivia
import LosslessSyntax.Tree.Lexeme

/-! The cursor: how far the reading of a tree has come. It holds the source and the tokens of it that are left, the
trivia in front of the next significant token first. What stands between tokens is cut out of the source by their
offsets. Once reading has been given up, the cursor still holds what is left, but what is read sees only the end of
input, and nothing is noted any more. -/

namespace LosslessSyntax

/-- The source, its tokens not yet read, and what was noted on the way. `last` stands for the end of input. -/
structure Cursor where
  source : Text
  upcoming : List Token
  last : Token
  givenUp : Bool := false
  diagnostics : Diagnostics := []
  deriving Repr

namespace Cursor

/-- The trivia in front of the next significant token. -/
def trivia (c : Cursor) : List Token := c.upcoming.takeWhile Token.isTrivia

/-- The tokens from the next significant one on. -/
def ahead (c : Cursor) : List Token := c.upcoming.dropWhile Token.isTrivia

/-- The next significant token, or the end of input. -/
def current (c : Cursor) : Token := c.ahead.head?.getD c.last

/-- The kind of the next significant token, as reading sees it. -/
def kind (c : Cursor) : Kind :=
  if c.givenUp then .endOfInput
  else
    match c.ahead with
    | t :: _ => t.kind
    | [] => .endOfInput

/-- The kind of the significant token behind the next one. -/
def nextKind (c : Cursor) : Kind :=
  match (c.ahead.drop 1).dropWhile Token.isTrivia with
  | t :: _ => t.kind
  | [] => .endOfInput

/-- The number of tokens that reading still sees. -/
def left (c : Cursor) : Nat := if c.givenUp then 0 else c.ahead.length

/-- Whether a line ends in front of the next significant token. -/
def followsLineBreak (c : Cursor) : Bool := Token.hasLineBreak c.trivia

/-- Reads the next significant token with the trivia in front of it. At the end nothing is read, and the
lexeme is missing. -/
def bump (c : Cursor) : Lexeme × Cursor :=
  match c.ahead with
  | [] => (.missing, c)
  | t :: rest => (⟨c.source.cut (Token.offsetOf c.source c.upcoming) t.offset, t.text⟩, { c with upcoming := rest })

/-- Reads the trivia in front of the next significant token as nodes. -/
def takeTrivia (c : Cursor) : List Node × Cursor :=
  (Token.triviaNodes c.source (Token.offsetOf c.source c.ahead) none c.trivia, { c with upcoming := c.ahead })

/-- Reads the comments that begin on the line where the last token ended, as nodes. -/
def takeTrailing (c : Cursor) : List Node × Cursor :=
  let (trailing, others) := Token.splitTrailing c.trivia
  let rest := others ++ c.ahead
  (Token.triviaNodes c.source (Token.offsetOf c.source rest) none trailing, { c with upcoming := rest })

/-- Notes a message about the next significant token. -/
def report (c : Cursor) (m : Message) (args : List Text) : Cursor :=
  if c.givenUp then c
  else { c with diagnostics := c.diagnostics ++ [.of m args (some c.current.location)] }

/-- Gives up reading. -/
def giveUp (c : Cursor) : Cursor := { c with givenUp := true }

/-! ### What the operations do to the tokens that are left -/

theorem trivia_append_ahead (c : Cursor) : c.trivia ++ c.ahead = c.upcoming :=
  List.takeWhile_append_dropWhile

theorem isTrivia_of_mem_trivia {c : Cursor} {t : Token} (h : t ∈ c.trivia) : t.isTrivia = true :=
  List.all_eq_true.mp List.all_takeWhile t h

/-- The next significant token is none of the trivia. -/
theorem isTrivia_eq_false_of_ahead {c : Cursor} {t : Token} {ts : List Token} (h : c.ahead = t :: ts) :
    t.isTrivia = false := by
  have := List.head?_dropWhile_not Token.isTrivia c.upcoming
  simp only [ahead] at h
  simpa [h] using this

/-- Tokens of which the first is significant have no trivia in front. -/
theorem dropWhile_isTrivia_ahead (c : Cursor) : c.ahead.dropWhile Token.isTrivia = c.ahead := by
  cases h : c.ahead with
  | nil => rfl
  | cons t ts => rw [List.dropWhile_cons_of_neg (by simp [isTrivia_eq_false_of_ahead h])]

theorem left_le_length_ahead (c : Cursor) : c.left ≤ c.ahead.length := by
  unfold left
  split <;> omega

@[simp] theorem ahead_takeTrivia (c : Cursor) : c.takeTrivia.2.ahead = c.ahead :=
  dropWhile_isTrivia_ahead c

@[simp] theorem left_takeTrivia (c : Cursor) : c.takeTrivia.2.left = c.left := by
  simp only [left, ahead_takeTrivia]
  rfl

theorem upcoming_takeTrailing_suffix (c : Cursor) : c.takeTrailing.2.upcoming <:+ c.upcoming := by
  refine ⟨(Token.splitTrailing c.trivia).1, ?_⟩
  change _ ++ ((Token.splitTrailing c.trivia).2 ++ c.ahead) = c.upcoming
  rw [← List.append_assoc, Token.splitTrailing_append, c.trivia_append_ahead]

@[simp] theorem ahead_takeTrailing (c : Cursor) : c.takeTrailing.2.ahead = c.ahead := by
  have hothers : ∀ t ∈ (Token.splitTrailing c.trivia).2, t.isTrivia = true := fun t ht =>
    isTrivia_of_mem_trivia (Token.splitTrailing_append c.trivia ▸ List.mem_append_right _ ht)
  exact (List.dropWhile_append_of_pos hothers).trans (dropWhile_isTrivia_ahead c)

@[simp] theorem left_takeTrailing (c : Cursor) : c.takeTrailing.2.left = c.left := by
  simp only [left, ahead_takeTrailing]
  rfl

@[simp] theorem left_report (c : Cursor) (m : Message) (args : List Text) : (c.report m args).left = c.left := by
  unfold report
  split <;> rfl

@[simp] theorem kind_takeTrivia (c : Cursor) : c.takeTrivia.2.kind = c.kind := by
  simp only [kind, ahead_takeTrivia]
  rfl

@[simp] theorem kind_takeTrailing (c : Cursor) : c.takeTrailing.2.kind = c.kind := by
  simp only [kind, ahead_takeTrailing]
  rfl

@[simp] theorem kind_report (c : Cursor) (m : Message) (args : List Text) : (c.report m args).kind = c.kind := by
  unfold report
  split <;> rfl

@[simp] theorem left_giveUp (c : Cursor) : c.giveUp.left = 0 := rfl

/-- Whatever follows the next significant token, no more of it is seen than there is. -/
theorem length_dropWhile_le (ts : List Token) : (ts.dropWhile Token.isTrivia).length ≤ ts.length :=
  (List.dropWhile_sublist _).length_le

/-- Reading a token that is seen leaves fewer to see. -/
theorem left_bump_lt {c : Cursor} (h : c.kind ≠ .endOfInput) : c.bump.2.left < c.left := by
  unfold kind at h
  split at h
  · exact absurd rfl h
  · next hgiven =>
    cases hahead : c.ahead with
    | nil => simp [hahead] at h
    | cons t rest =>
      simp only [bump, left, hahead]
      rw [if_neg hgiven, if_neg hgiven, List.length_cons]
      exact Nat.lt_succ_of_le (length_dropWhile_le rest)

theorem left_bump_le (c : Cursor) : c.bump.2.left ≤ c.left := by
  cases hahead : c.ahead with
  | nil => simp [bump, hahead]
  | cons t rest =>
    simp only [bump, left, hahead]
    split
    · exact Nat.le_refl 0
    · rw [List.length_cons]
      exact Nat.le_succ_of_le (length_dropWhile_le rest)

/-- Where anything but the end of input is seen, a token is left. -/
theorem left_pos {c : Cursor} (h : c.kind ≠ .endOfInput) : 0 < c.left :=
  Nat.zero_lt_of_lt (left_bump_lt h)

end Cursor

end LosslessSyntax
