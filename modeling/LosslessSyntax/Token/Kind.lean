import LosslessSyntax.Token.Word

/-! The kinds of tokens. Blanks, line breaks and comments are tokens too; they are the trivia, and all other
tokens are significant. Every kind has a number, by which the kinds of one class stand together. -/

namespace LosslessSyntax

/-- What a token is. `unknown` is a character that starts no token, `endOfInput` the end of the text. -/
inductive Kind where
  | unknown | endOfInput | lineComment | blockComment | lineBreak | blank | number | string
  | symbol (s : Symbol)
  | identifier
  | keyword (k : Keyword)
  deriving DecidableEq, Repr

namespace Kind

/-- All kinds, in the order of their numbers. -/
def all : List Kind :=
  [.unknown, .endOfInput, .lineComment, .blockComment, .lineBreak, .blank, .number, .string] ++
    Symbol.all.map .symbol ++ [.identifier] ++ Keyword.all.map .keyword

/-- The number of a kind: its place in the list of all kinds. -/
def toNat (k : Kind) : Nat := all.idxOf k

/-- The name under which the kind is listed. -/
def name : Kind → String
  | .unknown => "Unknown"
  | .endOfInput => "EndOfFileToken"
  | .lineComment => "SingleLineCommentTrivia"
  | .blockComment => "MultiLineCommentTrivia"
  | .lineBreak => "NewLineTrivia"
  | .blank => "WhitespaceTrivia"
  | .number => "NumericLiteral"
  | .string => "StringLiteral"
  | .symbol s => s.name
  | .identifier => "Identifier"
  | .keyword k => k.name

/-- The kind listed under a name, if there is one. -/
def ofName? (name : String) : Option Kind := all.find? (·.name = name)

/-- The spelling that all tokens of the kind share, if they do. -/
def text? : Kind → Option Text
  | .symbol s => some s.text
  | .keyword k => some k.text
  | _ => none

def isComment : Kind → Bool
  | .lineComment | .blockComment => true
  | _ => false

/-- Whether tokens of the kind carry no meaning of their own. -/
def isTrivia : Kind → Bool
  | .lineComment | .blockComment | .lineBreak | .blank => true
  | _ => false

/-- Whether the kind is a number or a string; `true`, `false` and `null` are keywords. -/
def isLiteral : Kind → Bool
  | .number | .string => true
  | _ => false

def isSymbol : Kind → Bool
  | .symbol _ => true
  | _ => false

def isKeyword : Kind → Bool
  | .keyword _ => true
  | _ => false

/-- Whether the kind is an operator that stores a value in its left operand. -/
def isAssignment : Kind → Bool
  | .symbol s => s.assigns
  | _ => false

/-- Whether the kind is a closing bracket. -/
def isClosing : Kind → Bool
  | .symbol s => s.closes
  | _ => false

/-- Whether the kind is one of the words that declare variables. -/
def isDeclarator : Kind → Bool
  | .keyword .letWord | .keyword .constWord | .keyword .varWord => true
  | _ => false

/-- Every kind stands in the list of kinds at its number. -/
theorem getElem?_all (k : Kind) : all[k.toNat]? = some k := by
  cases k with
  | symbol s => cases s <;> decide
  | keyword k => cases k <;> decide
  | _ => decide

theorem mem_all (k : Kind) : k ∈ all := List.mem_of_getElem? (getElem?_all k)

theorem isComment_iff {k : Kind} : k.isComment = true ↔ k = .lineComment ∨ k = .blockComment := by
  cases k <;> simp [isComment]

end Kind

end LosslessSyntax
