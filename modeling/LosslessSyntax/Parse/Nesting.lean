import LosslessSyntax.Parse.Statement

/-! The levels down to a limit. Above the limit every level is made of the one below it; beyond the limit
nothing is read any more. -/

namespace LosslessSyntax.Level

open Rule

/-- Gives up, because the limit is passed. -/
def refuse (limit : Nat) : Rule Node := do
  report .nestingTooDeep [Nat.toDigits 10 limit]
  giveUp
  return .unparsed []

theorem consumes_refuse (limit : Nat) : (refuse limit).Consumes (· ≠ .endOfInput) :=
  .report_bind (consumes_giveUp_bind _) _ _

/-- An operator in front of its operand, which may be another such operation. -/
def operation (l : Level) : Rule Node := do
  let symbol ← bump
  let operand ← l.unary
  return .operator none symbol (some operand)

theorem consumes_operation (l : Level) : l.operation.Consumes (·.isPrefixOperator = true) :=
  Consumes.bind (consumes_bump.imp (by rintro _ h rfl; cases h)) _

/-- The level below which `remaining` more are left, when the limit is `limit`. -/
def ofRemaining (limit : Nat) : (remaining : Nat) → Level
  | 0 =>
    { statement := fun _ => refuse limit
      expression := refuse limit
      prefixed := refuse limit
      consumes_statement := fun _ => consumes_refuse limit
      consumes_expression := (consumes_refuse limit).imp (by rintro _ h rfl; cases h)
      consumes_prefixed := (consumes_refuse limit).imp (by rintro _ h rfl; cases h) }
  | remaining + 1 =>
    { statement := fun nested => delay fun _ => (ofRemaining limit remaining).statementHere nested
      expression := delay fun _ => (ofRemaining limit remaining).assignment
      prefixed := delay fun _ => (ofRemaining limit remaining).operation
      consumes_statement := fun nested => consumes_statementHere _ nested
      consumes_expression := consumes_assignment _
      consumes_prefixed := consumes_operation _ }

/-- The outermost level, when `limit` levels are allowed. -/
def outermost (limit : Nat) : Level := ofRemaining limit limit

end LosslessSyntax.Level
