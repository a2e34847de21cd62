import LosslessSyntax.Token.Kind

/-! Classes of token kinds that the grammar asks for: what may begin an expression or a statement, what may
name a property, and where a list must be over. -/

namespace LosslessSyntax.Kind

/-- The operators that stand in front of their operand. -/
def isPrefixOperator : Kind → Bool
  | .symbol .not | .symbol .plus | .symbol .minus | .symbol .increment | .symbol .decrement => true
  | _ => false

/-- The operators that stand behind their operand, on the same line. -/
def isPostfixOperator : Kind → Bool
  | .symbol .increment | .symbol .decrement => true
  | _ => false

/-- Whether an expression can begin with a token of the kind. -/
def startsExpression : Kind → Bool
  | .number | .string | .identifier => true
  | .symbol .openParen | .symbol .openBracket | .symbol .openBrace => true
  | .keyword .thisWord | .keyword .trueWord | .keyword .falseWord | .keyword .nullWord => true
  | .keyword .functionWord => true
  | k => k.isPrefixOperator

/-- Whether a statement can begin with a token of the kind. -/
def startsStatement : Kind → Bool
  | .keyword .varWord | .keyword .letWord | .keyword .constWord => true
  | .keyword .ifWord | .keyword .whileWord | .keyword .forWord | .keyword .returnWord => true
  | .symbol .semicolon => true
  | k => k.startsExpression

/-- Whether a token of the kind can name a field of an object literal. -/
def isPropertyName : Kind → Bool
  | .identifier | .string | .number => true
  | k => k.isKeyword

/-- Whether a token of the kind ends a list, so that no expression may swallow it. -/
def endsList : Kind → Bool
  | .symbol .semicolon | .symbol .comma | .endOfInput => true
  | k => k.isClosing

end LosslessSyntax.Kind
