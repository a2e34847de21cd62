import LosslessSyntax.Text.Basic

/-! Places in a text. A position counts lines and columns from one, a span counts bytes from zero. Both
count in words of 32 bits, and what does not fit a word is cut off: behind the last word comes zero. The
texts whose bytes all have a word of their own are those shorter than 4 GiB, the addressable ones.
`Position.advance` carries a position over a piece of text; a carriage return that a line feed
follows in the same piece is passed over, so that the pair ends one line. -/

namespace LosslessSyntax

/-- The word of a number, which keeps the low 32 bits. -/
instance wordOfNat : Coe Nat UInt32 := ⟨Nat.toUInt32⟩

/-- The number that a word stands for. -/
instance natOfWord : Coe UInt32 Nat := ⟨UInt32.toNat⟩

/-- Whether the offset of every byte of the text, and that of its end, fits a word. -/
def Text.IsAddressable (t : Text) : Prop := t.byteLength < UInt32.size

instance (t : Text) : Decidable t.IsAddressable := inferInstanceAs (Decidable (t.byteLength < UInt32.size))

/-- A line and a column, both counted from one; a column counts characters. -/
structure Position where
  line : UInt32
  column : UInt32
  deriving DecidableEq, Repr

namespace Position

/-- Where every text begins. -/
def start : Position := ⟨1, 1⟩

instance : Inhabited Position := ⟨start⟩

/-- Earlier lines come first, and on one line smaller columns. -/
def le (p q : Position) : Bool :=
  p.line < q.line || (p.line = q.line && p.column ≤ q.column)

/-- The position behind `t` when `t` stands at `p`. -/
def advance (p : Position) : Text → Position
  | [] => p
  | c :: t =>
    if c = '\r' && t.head? = some '\n' then advance p t
    else if isLineBreak c then advance ⟨p.line + 1, 1⟩ t
    else advance ⟨p.line, p.column + 1⟩ t

/-- Written `line:column`. -/
def toText (p : Position) : String := s!"{p.line}:{p.column}"

@[simp] theorem advance_nil (p : Position) : p.advance [] = p := rfl

end Position

/-- The bytes from `start` on, `length` of them. -/
structure Span where
  start : UInt32 := 0
  length : UInt32 := 0
  deriving DecidableEq, Repr, Inhabited

namespace Span

/-- The span from `first` up to and without `last`. -/
def between (first last : UInt32) : Span := ⟨first, last - first⟩

/-- The span of no byte at `offset`. -/
def emptyAt (offset : UInt32) : Span := ⟨offset, 0⟩

/-- The offset behind the last byte. -/
def stop (s : Span) : UInt32 := s.start + s.length

def isEmpty (s : Span) : Bool := s.length = 0

/-- Whether the byte at `offset` lies in the span. -/
def contains (s : Span) (offset : Nat) : Bool := s.start.toNat ≤ offset && offset < s.stop.toNat

/-- Written as a half-open interval, `[start, stop)`. -/
def toText (s : Span) : String := s!"[{s.start}, {s.stop})"

/-- Written as a range, `start..stop`. -/
def toRangeText (s : Span) : String := s!"{s.start}..{s.stop}"

end Span

end LosslessSyntax
