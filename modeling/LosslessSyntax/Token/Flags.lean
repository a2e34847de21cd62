/-! What is noted on a token besides its kind: whether its closing delimiter is missing, and in which
notation a number is written. -/

namespace LosslessSyntax

/-- The notes on one token. -/
structure Flags where
  unterminated : Bool := false
  scientific : Bool := false
  hex : Bool := false
  binary : Bool := false
  octal : Bool := false
  separated : Bool := false
  deriving DecidableEq, Repr, Inhabited

namespace Flags

/-- The flags as a number, one bit each, the missing delimiter first. -/
def toNat (f : Flags) : Nat :=
  f.unterminated.toNat + 2 * f.scientific.toNat + 4 * f.hex.toNat + 8 * f.binary.toNat +
    16 * f.octal.toNat + 32 * f.separated.toNat

/-- The flags whose bits are set in `n`; bits beyond the sixth mean nothing. -/
def ofNat (n : Nat) : Flags :=
  ⟨n.testBit 0, n.testBit 1, n.testBit 2, n.testBit 3, n.testBit 4, n.testBit 5⟩

/-- The flags that tell the notation of a number. -/
def ofNumber (f : Flags) : Flags := { f with unterminated := false }

theorem ofNat_toNat (f : Flags) : ofNat f.toNat = f := by
  obtain ⟨a, b, c, d, e, g⟩ := f
  cases a <;> cases b <;> cases c <;> cases d <;> cases e <;> cases g <;> decide

end Flags

end LosslessSyntax
