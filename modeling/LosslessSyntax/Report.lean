import LosslessSyntax.Diagnostic.Basic
import LosslessSyntax.Text.Lines

/-! Reports: diagnostics made ready to be shown, together with the source that they are about. How a report is
drawn is left to whoever shows it; the plain rendering here is the simplest one. -/

namespace LosslessSyntax

/-- How grave a report is. -/
inductive Severity where
  | error | warning | advice
  deriving DecidableEq, Repr

def Severity.name : Severity → String
  | .error => "Error"
  | .warning => "Warning"
  | .advice => "Advice"

def Severity.ofCategory : Category → Severity
  | .error => .error
  | .warning => .warning
  | .message => .advice

/-- A remark on a piece of the source. -/
structure Label where
  text : String
  span : Span
  deriving DecidableEq, Repr

/-- A diagnostic with its source. -/
structure Report where
  message : String
  code : String
  severity : Severity
  label : Option Label
  name : String
  source : Text
  deriving DecidableEq, Repr

namespace Report

/-- What the label of a location says: which text was found there, if any was. -/
def labelText (found : Text) : String :=
  if found.isEmpty then "end of input" else "found \x60" ++ String.ofList found ++ "\x60"

/-- The report of a diagnostic about the source called `name`. -/
def of (d : Diagnostic) (name : String) (source : Text) : Report where
  message := d.text
  code := d.codeName
  severity := .ofCategory d.category
  label := d.location.map fun l => ⟨labelText l.found, l.span⟩
  name := name
  source := source

/-- What the report is about: the name of the source and, where there is a label, its span and text. -/
def place (r : Report) : String :=
  match r.label with
  | some l => s!"{r.name} {l.span.toText}: {l.text}"
  | none => r.name

/-- The plain rendering, a few lines of text. Only the code stands at the margin, so a label of several lines
cannot be taken for a report of its own. -/
def plain (r : Report) : String :=
  let details := s!"{r.severity.name}: {r.message}\n{r.place}"
  s!"{r.code}\n" ++ String.ofList (Text.indented [' ', ' '] details.toList)

end Report

end LosslessSyntax
