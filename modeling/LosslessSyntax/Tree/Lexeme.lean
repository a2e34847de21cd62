import LosslessSyntax.Text.Basic

/-! Lexemes: significant tokens as a tree keeps them, each together with the trivia in front of it. Where the
grammar demands a token that the source does not have, the tree holds a lexeme without any text. -/

namespace LosslessSyntax

/-- The text of a token behind the trivia that led to it. -/
structure Lexeme where
  leading : Text
  text : Text
  deriving DecidableEq, Repr, Inhabited

namespace Lexeme

/-- Stands for a token that is not there. -/
def missing : Lexeme := ⟨[], []⟩

def isMissing (l : Lexeme) : Bool := l.leading.isEmpty && l.text.isEmpty

/-- Whether a line ends in the trivia. -/
def followsLineBreak (l : Lexeme) : Bool := l.leading.hasLineBreak

/-- The source text that the lexeme stands for. -/
def restore (l : Lexeme) : Text := l.leading ++ l.text

theorem isMissing_iff {l : Lexeme} : l.isMissing = true ↔ l = missing := by
  cases l
  simp [isMissing, missing]

end Lexeme

end LosslessSyntax
