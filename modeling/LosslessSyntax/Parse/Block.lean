import LosslessSyntax.Parse.Level
import LosslessSyntax.Parse.Sequence
import LosslessSyntax.Tree.Closure

/-! Statement lists, blocks and functions: what stands between braces, and what a function has besides its
name. -/

namespace LosslessSyntax.Level

open Rule

/-- The trivia in front of the next statement and the statement, unless the list is over. A nested list ends
at a closing brace. -/
def statementsRound (l : Level) (nested : Bool) : Rule (List Node × Bool) := do
  let trivia ← takeTrivia
  let k ← kind
  if k = .endOfInput || nested && k = .symbol .closeBrace then return (trivia, false)
  else do
    let statement ← l.statement nested
    return (trivia ++ [statement], true)

theorem advances_statementsRound (l : Level) (nested : Bool) : (l.statementsRound nested).Advances := by
  intro c h
  simp only [statementsRound, run_bind, run_takeTrivia, run_kind, run_ite, run_pure] at h ⊢
  split at h
  · cases h
  · next hk =>
    rw [if_neg hk]
    simp only [Bool.or_eq_true, decide_eq_true_eq, not_or] at hk
    exact Nat.lt_of_lt_of_eq (l.consumes_statement nested _ hk.1) (Cursor.left_takeTrivia c)

/-- Statements, with the blanks and comments around them; the comments that trail a statement on its line
go with it. -/
def statements (l : Level) (nested : Bool) : Rule (List Node) := do
  let nodes ← collect (l.statementsRound nested) (l.advances_statementsRound nested)
  return Node.attachTrailing nodes

/-- Statements in braces. Without an opening brace there is nothing, not even a closing one. -/
def block (l : Level) : Rule (Block Node) := do
  let opening ← expect (.symbol .openBrace)
  if opening.isMissing then return ⟨some opening, [], some .missing, []⟩
  else do
    let statements ← l.statements true
    let closing ← expect (.symbol .closeBrace)
    return ⟨some opening, statements, some closing, []⟩

/-- The next parameter of a function; the list ends at anything but a name. -/
def parameter : Rule (Option Lexeme) := do
  let k ← kind
  if k = .identifier then some <$> bump
  else if k = .symbol .closeParen || k = .endOfInput then return none
  else do
    report .identifierExpected []
    return none

/-- The parameters in parentheses and the body of a function. -/
def function (l : Level) : Rule (Function Node) := do
  let opening ← expect (.symbol .openParen)
  let (parameters, commas) ← separated parameter
  let closing ← expect (.symbol .closeParen)
  let block ← l.block
  return ⟨opening, parameters, commas, closing, block⟩

end LosslessSyntax.Level
