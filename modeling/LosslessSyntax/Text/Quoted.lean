import LosslessSyntax.Text.Basic
import LosslessSyntax.Text.Unprinted

/-! Quoted text, for showing a piece of source on one line. Quotes and backslashes and the common
control characters have short escapes; every other character that would not be seen as it is stands as
its code point, in hexadecimal without leading zeros. -/

namespace LosslessSyntax.Text

/-- The digits of `n` in base sixteen, in lower case. -/
def hexDigits (n : Nat) : Text := Nat.toDigits 16 n

/-- How one character is written between the quotes. -/
def escape (c : Char) : Text :=
  match c with
  | '\x00' => ['\\', '0']
  | '\t' => ['\\', 't']
  | '\r' => ['\\', 'r']
  | '\n' => ['\\', 'n']
  | '\\' => ['\\', '\\']
  | '"' => ['\\', '"']
  | c => if unprintedRanges.contains c then ['\\', 'u', '\x7b'] ++ hexDigits c.toNat ++ ['\x7d'] else [c]

/-- The text between double quotes, with all that would break the line or the quotes escaped. -/
def quoted (t : Text) : Text := ['"'] ++ t.flatMap escape ++ ['"']

end LosslessSyntax.Text
