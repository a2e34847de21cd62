import LosslessSyntax.Grammar.Classes
import LosslessSyntax.Parse.Rule

/-! Nesting levels. Statements, expressions and operands of prefix operators nest, and each of them counts as
one level; all other rules stay on the level on which they are used. A level is what the rules on it may ask
of the next one. -/

namespace LosslessSyntax

/-- The rules that lead one level deeper: a statement, within a nested list or not; an expression; and an
operator in front of its operand. Each reads something where it can begin, so lists of them end. -/
structure Level where
  statement : (nested : Bool) → Rule Node
  expression : Rule Node
  prefixed : Rule Node
  consumes_statement : ∀ nested, (statement nested).Consumes (· ≠ .endOfInput)
  consumes_expression : expression.Consumes (·.startsExpression = true)
  consumes_prefixed : prefixed.Consumes (·.isPrefixOperator = true)

end LosslessSyntax
