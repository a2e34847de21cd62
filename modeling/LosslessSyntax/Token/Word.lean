import LosslessSyntax.Text.Basic

/-! The words and signs with a spelling of their own. A symbol is a bracket, a separator or an operator, a
keyword is a reserved name; both are listed in the order of their numbers. -/

namespace LosslessSyntax

/-- Brackets, separators and operators. -/
inductive Symbol where
  | openBrace | closeBrace | openParen | closeParen | openBracket | closeBracket | dot | semicolon
  | comma | colon | less | greater | lessEqual | greaterEqual | equal | notEqual | identical
  | notIdentical | plus | minus | times | divide | remainder | increment | decrement | not | both
  | either | assign | plusAssign | minusAssign | timesAssign | divideAssign | remainderAssign
  deriving DecidableEq, Repr

namespace Symbol

/-- All symbols, in the order of their numbers. -/
def all : List Symbol := [
  .openBrace, .closeBrace, .openParen, .closeParen, .openBracket, .closeBracket, .dot, .semicolon,
  .comma, .colon, .less, .greater, .lessEqual, .greaterEqual, .equal, .notEqual, .identical,
  .notIdentical, .plus, .minus, .times, .divide, .remainder, .increment, .decrement, .not, .both,
  .either, .assign, .plusAssign, .minusAssign, .timesAssign, .divideAssign, .remainderAssign]

/-- How the symbol is spelled. -/
def text : Symbol → Text
  | .openBrace => ['\x7b']
  | .closeBrace => ['\x7d']
  | .openParen => ['(']
  | .closeParen => [')']
  | .openBracket => ['[']
  | .closeBracket => [']']
  | .dot => ['.']
  | .semicolon => [';']
  | .comma => [',']
  | .colon => [':']
  | .less => ['<']
  | .greater => ['>']
  | .lessEqual => ['<', '=']
  | .greaterEqual => ['>', '=']
  | .equal => ['=', '=']
  | .notEqual => ['!', '=']
  | .identical => ['=', '=', '=']
  | .notIdentical => ['!', '=', '=']
  | .plus => ['+']
  | .minus => ['-']
  | .times => ['*']
  | .divide => ['/']
  | .remainder => ['%']
  | .increment => ['+', '+']
  | .decrement => ['-', '-']
  | .not => ['!']
  | .both => ['&', '&']
  | .either => ['|', '|']
  | .assign => ['=']
  | .plusAssign => ['+', '=']
  | .minusAssign => ['-', '=']
  | .timesAssign => ['*', '=']
  | .divideAssign => ['/', '=']
  | .remainderAssign => ['%', '=']

/-- The name under which the symbol is listed. -/
def name : Symbol → String
  | .openBrace => "OpenBraceToken"
  | .closeBrace => "CloseBraceToken"
  | .openParen => "OpenParenToken"
  | .closeParen => "CloseParenToken"
  | .openBracket => "OpenBracketToken"
  | .closeBracket => "CloseBracketToken"
  | .dot => "DotToken"
  | .semicolon => "SemicolonToken"
  | .comma => "CommaToken"
  | .colon => "ColonToken"
  | .less => "LessThanToken"
  | .greater => "GreaterThanToken"
  | .lessEqual => "LessThanEqualsToken"
  | .greaterEqual => "GreaterThanEqualsToken"
  | .equal => "EqualsEqualsToken"
  | .notEqual => "ExclamationEqualsToken"
  | .identical => "EqualsEqualsEqualsToken"
  | .notIdentical => "ExclamationEqualsEqualsToken"
  | .plus => "PlusToken"
  | .minus => "MinusToken"
  | .times => "AsteriskToken"
  | .divide => "SlashToken"
  | .remainder => "PercentToken"
  | .increment => "PlusPlusToken"
  | .decrement => "MinusMinusToken"
  | .not => "ExclamationToken"
  | .both => "AmpersandAmpersandToken"
  | .either => "BarBarToken"
  | .assign => "EqualsToken"
  | .plusAssign => "PlusEqualsToken"
  | .minusAssign => "MinusEqualsToken"
  | .timesAssign => "AsteriskEqualsToken"
  | .divideAssign => "SlashEqualsToken"
  | .remainderAssign => "PercentEqualsToken"

/-- Whether the symbol stores a value in the target on its left. -/
def assigns : Symbol → Bool
  | .assign | .plusAssign | .minusAssign | .timesAssign | .divideAssign | .remainderAssign => true
  | _ => false

/-- Whether the symbol closes a bracket. -/
def closes : Symbol → Bool
  | .closeBrace | .closeParen | .closeBracket => true
  | _ => false

theorem mem_all (s : Symbol) : s ∈ all := by cases s <;> decide

theorem text_ne_nil (s : Symbol) : s.text ≠ [] := by cases s <;> decide

end Symbol

/-- Reserved names. -/
inductive Keyword where
  | constWord | elseWord | falseWord | forWord | functionWord | ifWord | letWord | nullWord | returnWord
  | thisWord | trueWord | varWord | whileWord
  deriving DecidableEq, Repr

namespace Keyword

/-- All keywords, in the order of their numbers. -/
def all : List Keyword := [
  .constWord, .elseWord, .falseWord, .forWord, .functionWord, .ifWord, .letWord, .nullWord, .returnWord,
  .thisWord, .trueWord, .varWord, .whileWord]

/-- How the keyword is spelled. -/
def text : Keyword → Text
  | .constWord => ['c', 'o', 'n', 's', 't']
  | .elseWord => ['e', 'l', 's', 'e']
  | .falseWord => ['f', 'a', 'l', 's', 'e']
  | .forWord => ['f', 'o', 'r']
  | .functionWord => ['f', 'u', 'n', 'c', 't', 'i', 'o', 'n']
  | .ifWord => ['i', 'f']
  | .letWord => ['l', 'e', 't']
  | .nullWord => ['n', 'u', 'l', 'l']
  | .returnWord => ['r', 'e', 't', 'u', 'r', 'n']
  | .thisWord => ['t', 'h', 'i', 's']
  | .trueWord => ['t', 'r', 'u', 'e']
  | .varWord => ['v', 'a', 'r']
  | .whileWord => ['w', 'h', 'i', 'l', 'e']

/-- The name under which the keyword is listed. -/
def name : Keyword → String
  | .constWord => "ConstKeyword"
  | .elseWord => "ElseKeyword"
  | .falseWord => "FalseKeyword"
  | .forWord => "ForKeyword"
  | .functionWord => "FunctionKeyword"
  | .ifWord => "IfKeyword"
  | .letWord => "LetKeyword"
  | .nullWord => "NullKeyword"
  | .returnWord => "ReturnKeyword"
  | .thisWord => "ThisKeyword"
  | .trueWord => "TrueKeyword"
  | .varWord => "VarKeyword"
  | .whileWord => "WhileKeyword"

/-- The keyword that a name is, if it is one. -/
def ofText? : Text → Option Keyword
  | ['c', 'o', 'n', 's', 't'] => some .constWord
  | ['e', 'l', 's', 'e'] => some .elseWord
  | ['f', 'a', 'l', 's', 'e'] => some .falseWord
  | ['f', 'o', 'r'] => some .forWord
  | ['f', 'u', 'n', 'c', 't', 'i', 'o', 'n'] => some .functionWord
  | ['i', 'f'] => some .ifWord
  | ['l', 'e', 't'] => some .letWord
  | ['n', 'u', 'l', 'l'] => some .nullWord
  | ['r', 'e', 't', 'u', 'r', 'n'] => some .returnWord
  | ['t', 'h', 'i', 's'] => some .thisWord
  | ['t', 'r', 'u', 'e'] => some .trueWord
  | ['v', 'a', 'r'] => some .varWord
  | ['w', 'h', 'i', 'l', 'e'] => some .whileWord
  | _ => none

theorem mem_all (k : Keyword) : k ∈ all := by cases k <;> decide

/-- The table of names and that of spellings agree: a keyword is found by its spelling and by no other. -/
theorem ofText?_eq_some_iff {t : Text} {k : Keyword} : ofText? t = some k ↔ t = k.text := by
  constructor
  · intro h
    unfold ofText? at h
    split at h
    case h_14 => cases h
    all_goals cases h; rfl
  · rintro rfl
    cases k <;> rfl

end Keyword

end LosslessSyntax
