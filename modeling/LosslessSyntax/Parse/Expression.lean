import LosslessSyntax.Grammar.Tier
import LosslessSyntax.Parse.Block

/-! Expressions. From the inside out: a primary expression, the accesses, subscripts and calls behind it, an
operator behind that or in front of it, binary operators, and assignment. Binary operators are read by climbing:
a loop takes them as long as they bind tighter than a minimum, and reads the operand behind each with that
operator's own tier as the minimum. Where an expression must stand and none can begin, one token is taken as it
is, unless it ends a list or a statement. -/

namespace LosslessSyntax.Level

open Rule

/-- Expressions with commas between them, up to the closing bracket. -/
def expressions (l : Level) (closing : Symbol) : Rule (List Node × List Lexeme) :=
  separated do
    let k ← kind
    if k = .symbol closing || k = .endOfInput then return none
    else some <$> l.expression

/-- The name of a field. Where only the colon stands, the name is missing; without a colon there is no
field. -/
def fieldKey : Rule (Option Lexeme) := do
  let k ← kind
  if k.isPropertyName then some <$> bump
  else do
    report .propertyNameExpected []
    return if k = .symbol .colon then some .missing else none

/-- The next field of an object literal, unless the fields are over. -/
def field (l : Level) : Rule (Option (Field Node)) := do
  let k ← kind
  if k = .symbol .closeBrace || k = .endOfInput then return none
  else do
    match ← fieldKey with
    | none => return none
    | some key => do
      let colon ← expect (.symbol .colon)
      let value ← l.expression
      return some ⟨key, colon, value⟩

/-- Takes what stands where an expression is due: nothing if the token ends a list, else the token. -/
def missingExpression : Rule Node := do
  report .expressionExpected []
  let k ← kind
  if k.endsList then return .unparsed []
  else do
    let lexeme ← bump
    return .unparsed [lexeme]

/-- An expression that no operator takes apart. -/
def primary (l : Level) : Rule Node := do
  match ← kind with
  | .identifier | .keyword .thisWord => .identifier <$> bump
  | .number | .string | .keyword .trueWord | .keyword .falseWord | .keyword .nullWord => .literal <$> bump
  | .symbol .openParen => do
    let opening ← bump
    let inner ← l.expression
    let closing ← expect (.symbol .closeParen)
    return .parenthesized opening inner closing
  | .symbol .openBrace => do
    let opening ← bump
    let (fields, commas) ← separated l.field
    let closing ← expect (.symbol .closeBrace)
    return .object opening fields commas closing
  | .symbol .openBracket => do
    let opening ← bump
    let (elements, commas) ← l.expressions .closeBracket
    let closing ← expect (.symbol .closeBracket)
    return .array opening elements commas closing
  | .keyword .functionWord => do
    let keyword ← bump
    let name ← optional .identifier
    let body ← l.function
    return .functionExpression keyword name body
  | _ => missingExpression

/-- The name behind a dot; any keyword may be one. -/
def fieldName : Rule Lexeme := do
  let k ← kind
  if k = .identifier || k.isKeyword then bump
  else do
    report .identifierExpected []
    return .missing

/-- One access, subscript or call behind `base`, if one follows. -/
def suffixRound (l : Level) (base : Node) : Rule (Node × Bool) := do
  match ← kind with
  | .symbol .dot => do
    let dot ← bump
    let field ← fieldName
    return (.access base dot field, true)
  | .symbol .openBracket => do
    let opening ← bump
    let subscript ← l.expression
    let closing ← expect (.symbol .closeBracket)
    return (.index base opening subscript closing, true)
  | .symbol .openParen => do
    let opening ← bump
    let (arguments, commas) ← l.expressions .closeParen
    let closing ← expect (.symbol .closeParen)
    return (.invocation base opening arguments commas closing, true)
  | _ => return (base, false)

theorem advances_suffixRound (l : Level) (base : Node) : (l.suffixRound base).Advances := by
  intro c h
  have hc : c.kind = .symbol .dot ∨ c.kind = .symbol .openBracket ∨ c.kind = .symbol .openParen := by
    simp only [suffixRound, run_bind, run_kind] at h
    split at h <;> simp_all
  have hround : (l.suffixRound base).Consumes (· = c.kind) := by
    refine consumes_kind_bind fun k hk => ?_
    rw [← hk] at hc
    rcases hc with rfl | rfl | rfl <;> exact (consumes_bump_on (by decide)).bind _
  exact hround c rfl

/-- A primary expression and all that stands behind it without an operator. -/
def suffixed (l : Level) : Rule Node := do
  let base ← l.primary
  grow l.suffixRound l.advances_suffixRound base

/-- An expression and the operator behind it, which must stand on the same line. -/
def postfixed (l : Level) : Rule Node := do
  let operand ← l.suffixed
  let k ← kind
  let separate ← look Cursor.followsLineBreak
  if k.isPostfixOperator && !separate then do
    let symbol ← bump
    return .operator (some operand) symbol none
  else return operand

/-- An operand of a binary operator. -/
def unary (l : Level) : Rule Node := do
  let k ← kind
  if k.isPrefixOperator then l.prefixed else l.postfixed

/-- One operator that binds tighter than `minimum` behind `left` and the operand behind it, if one follows. What the
operand is depends on the tier of the operator. -/
def operationRound (minimum : Nat) (operand : (tier : Tier) → minimum < tier.toNat → Rule Node) (left : Node) :
    Rule (Node × Bool) := do
  match Tier.ofKind? (← kind) with
  | some tier =>
    if h : minimum < tier.toNat then do
      let symbol ← bump
      let right ← operand tier h
      return (.operator (some left) symbol (some right), true)
    else return (left, false)
  | none => return (left, false)

theorem advances_operationRound (minimum : Nat) (operand : (tier : Tier) → minimum < tier.toNat → Rule Node)
    (left : Node) : (operationRound minimum operand left).Advances := by
  intro c h
  cases hc : Tier.ofKind? c.kind with
  | none =>
    simp only [operationRound, run_bind, run_kind, hc] at h
    cases h
  | some tier =>
    simp only [operationRound, run_bind, run_kind, hc] at h ⊢
    split at h
    · next hlt =>
      rw [dif_pos hlt]
      exact (consumes_bump.bind _) c (by rintro hend; rw [hend] at hc; cases hc)
    · cases h

/-- Operands with operators between them that bind tighter than `minimum`. Operators of one tier group to the left,
and those of a tighter tier go with the operand behind. -/
def binary (l : Level) (minimum : Nat) : Rule Node := do
  let first ← l.unary
  let operand := fun tier (_ : minimum < Tier.toNat tier) => l.binary tier.toNat
  grow (operationRound minimum operand) (advances_operationRound minimum operand) first
termination_by 6 - minimum
decreasing_by
  have := tier.toNat_le
  omega

/-- An expression, or an assignment to it; assignments group to the right. -/
def assignment (l : Level) : Rule Node := do
  let target ← l.binary 0
  let k ← kind
  if k.isAssignment then do
    let operator ← bump
    let value ← l.expression
    return .assignment target operator value
  else return target

/-! ### Expressions read something -/

theorem consumes_primary (l : Level) :
    l.primary.Consumes fun k => k.startsExpression = true ∧ k.isPrefixOperator = false := by
  refine consumes_kind_bind fun k ⟨hstarts, hnot⟩ => ?_
  have hend : k ≠ .endOfInput := by rintro rfl; cases hstarts
  have hbump := consumes_bump_on hend
  unfold Kind.startsExpression at hstarts
  split at hstarts
  case h_12 => rw [hnot] at hstarts; cases hstarts
  case h_4 | h_5 | h_6 | h_11 => exact hbump.bind _
  all_goals exact hbump.map _

theorem consumes_postfixed (l : Level) :
    l.postfixed.Consumes fun k => k.startsExpression = true ∧ k.isPrefixOperator = false :=
  (l.consumes_primary.bind _).bind _

theorem consumes_unary (l : Level) : l.unary.Consumes (·.startsExpression = true) := by
  refine consumes_kind_bind fun k hstarts => ?_
  split
  · next h => exact l.consumes_prefixed.on h
  · next h => exact l.consumes_postfixed.on ⟨hstarts, by simpa using h⟩

theorem consumes_binary (l : Level) (minimum : Nat) : (l.binary minimum).Consumes (·.startsExpression = true) := by
  rw [binary]
  exact l.consumes_unary.bind _

theorem consumes_assignment (l : Level) : l.assignment.Consumes (·.startsExpression = true) :=
  (l.consumes_binary 0).bind _

end LosslessSyntax.Level
