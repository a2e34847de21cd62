import LosslessSyntax.Text.Lines
import LosslessSyntax.Text.Quoted

/-! The first difference of two texts, line by line. A line keeps the line feed that ends it, so texts
that differ only at their last line feed differ. -/

namespace LosslessSyntax

/-- What a text has instead of the lines expected of it. -/
inductive LineDiff where
  | same
  | changed (line : Nat) (expected actual : Text)
  | extra (count : Nat)
  | missing (count : Nat)
  deriving DecidableEq, Repr

namespace LineDiff

/-- Compares two lists of lines, of which the first pair has number `line`. -/
def ofLines (line : Nat) : List Text → List Text → LineDiff
  | [], [] => .same
  | es@(_ :: _), [] => .missing es.length
  | [], as@(_ :: _) => .extra as.length
  | e :: es, a :: as => if e = a then ofLines (line + 1) es as else .changed line e a

/-- The first line in which `actual` differs from `expected`, or how many lines it has too many or
too few. -/
def between (expected actual : Text) : LineDiff := ofLines 1 expected.lines actual.lines

def isSame (d : LineDiff) : Bool := d = .same

/-- The difference in words; changed lines are shown quoted. -/
def message : LineDiff → String
  | .same => "no differences"
  | .changed line expected actual =>
    s!"first difference at line {line}:\n  original: {String.ofList expected.quoted}\n" ++
      s!"  restored: {String.ofList actual.quoted}"
  | .extra count => s!"restored text has {count} extra line(s)"
  | .missing count => s!"restored text is missing {count} line(s)"

end LineDiff

end LosslessSyntax
