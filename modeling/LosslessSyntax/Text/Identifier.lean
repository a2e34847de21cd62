import LosslessSyntax.Text.Basic
import LosslessSyntax.Text.IdentifierStart
import LosslessSyntax.Text.IdentifierContinue

/-! The character classes of names and numbers. Digits are ASCII digits. Names take the ASCII letters,
the underscore and the dollar sign, and beyond ASCII whatever Unicode 16.0 allows in identifiers. Whatever
may start a name may also continue it. -/

namespace LosslessSyntax

def isDigit (c : Char) : Bool := '0' ≤ c && c ≤ '9'

def isOctalDigit (c : Char) : Bool := '0' ≤ c && c ≤ '7'

def isBinaryDigit (c : Char) : Bool := c = '0' || c = '1'

def isHexDigit (c : Char) : Bool :=
  isDigit c || ('a' ≤ c && c ≤ 'f') || ('A' ≤ c && c ≤ 'F')

/-- The 52 letters of ASCII. -/
def isAsciiLetter (c : Char) : Bool := ('a' ≤ c && c ≤ 'z') || ('A' ≤ c && c ≤ 'Z')

/-- Whether an identifier may start with `c`. -/
def isIdentifierStart (c : Char) : Bool :=
  c = '_' || c = '$' || isAsciiLetter c || identifierStartRanges.contains c

/-- Whether `c` may stand in an identifier behind its start. -/
def isIdentifierPart (c : Char) : Bool :=
  isIdentifierStart c || isDigit c || identifierContinueRanges.contains c

theorem isIdentifierPart_of_isIdentifierStart {c : Char} (h : isIdentifierStart c = true) :
    isIdentifierPart c = true := by
  simp only [isIdentifierPart, h, Bool.true_or]

end LosslessSyntax
