import LosslessSyntax.Check

/-! The headlines among the lines that a check prints as notices: the codes of the reports, the number of
errors and the lines that name a failure. A headline is known by its form alone, so what a path holds behind a
line feed may be one too, and so may a line in the rendering of a report. -/

namespace LosslessSyntax.Check

/-- Whether a line is the code of a report and nothing else. -/
def isCodeLine : Text → Bool
  | 'V' :: 'B' :: number => !number.isEmpty && number.all isDigit
  | _ => false

/-- Whether a line says how many errors there are. -/
def isCountLine : Text → Bool
  | 'F' :: 'o' :: 'u' :: 'n' :: 'd' :: ' ' :: t =>
    let unit := t.dropWhile isDigit
    (t.head?.any isDigit) && (unit = " error.".toList || unit = " errors.".toList)
  | _ => false

/-- Whether a line begins with the name of a failure: of the whole check, or of the restoration. -/
def isFailureLine (line : Text) : Bool :=
  "error: ".toList.isPrefixOf line || "restoration failed".toList.isPrefixOf line

def isHeadline (line : Text) : Bool := isCodeLine line || isCountLine line || isFailureLine line

/-- The headlines among the lines of a text. -/
def headlinesIn (t : Text) : List Text := (t.lines.map Text.withoutBreak).filter isHeadline

/-- The headlines of a check whose reports are rendered so, in the order in which they are printed. -/
def Outcome.headlines (o : Outcome) (render : Report → String := Report.plain) : List Text :=
  headlinesIn (o.noticeText render).toList

end LosslessSyntax.Check
