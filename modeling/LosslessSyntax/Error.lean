import LosslessSyntax.Text.Position

/-! Errors: why there is no result at all. Strict reading ends in one where tolerant reading would have noted
a diagnostic and gone on; a file that cannot be read is another. -/

namespace LosslessSyntax

/-- The causes for which no result is given. -/
inductive Error where
  | invalid (message : String) (found : Text) (position : Position)
  | tooDeep (limit : Nat) (position : Position)
  | unreadable (path : String)
  deriving DecidableEq, Repr

namespace Error

/-- The error in words. -/
def message : Error → String
  | .invalid message found position =>
    s!"syntax error at {position.toText}: {message} (found '" ++ String.ofList found ++ "')"
  | .tooDeep limit position => s!"nesting deeper than {limit} levels at {position.toText}"
  | .unreadable path => s!"cannot read '{path}'"

/-- Where in the source the error is, if it is about the source. -/
def position? : Error → Option Position
  | .invalid _ _ position | .tooDeep _ position => some position
  | .unreadable _ => none

end Error

end LosslessSyntax
