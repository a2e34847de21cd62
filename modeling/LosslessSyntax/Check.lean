import LosslessSyntax.LineDiff
import LosslessSyntax.Parse.Program
import LosslessSyntax.Report
import LosslessSyntax.Text.Quoted
import LosslessSyntax.Tree.Shape

/-! The check of one file: it is cut into tokens and read into a tree, and both must restore it to the
character. What the check says is worked out here and only has to be printed; how a report is rendered is up to
the printer. -/

namespace LosslessSyntax

/-- Why there is no text to check. -/
inductive ReadFault where
  | missing
  | notText
  | other (reason : String)
  deriving DecidableEq, Repr

def ReadFault.message : ReadFault → String
  | .missing => "No such file or directory (os error 2)"
  | .notText => "stream did not contain valid UTF-8"
  | .other reason => reason

/-- The text that bytes are the UTF-8 form of. -/
def Text.ofBytes (bytes : ByteArray) : Except ReadFault Text :=
  match String.fromUTF8? bytes with
  | some s => .ok s.toList
  | none => .error .notText

namespace Check

/-- What to print besides the verdict, and how deep nesting may go. -/
structure Options where
  tokens : Bool := false
  shapes : Bool := false
  quiet : Bool := false
  limit : Nat := Parser.defaultLimit
  deriving DecidableEq, Repr

/-- How a check ends. -/
inductive Verdict where
  | restored | unreadable | failed
  deriving DecidableEq, Repr

def Verdict.exitCode : Verdict → Nat
  | .restored => 0
  | .unreadable => 1
  | .failed => 2

/-- What a check has to complain about. -/
inductive Notice where
  | report (r : Report)
  | errorCount (count : Nat)
  | unrestored (stage : String) (difference : LineDiff)
  | unreadable (path : String) (fault : ReadFault)
  deriving Repr

namespace Notice

/-- The notice as it is printed, with reports as they are rendered. -/
def text (render : Report → String) : Notice → String
  | .report r => render r
  | .errorCount count => s!"Found {count} error" ++ (if count = 1 then "." else "s.")
  | .unrestored stage difference => s!"restoration failed ({stage}): {difference.message}"
  | .unreadable path fault => s!"error: {(Error.unreadable path).message}: {fault.message}"

end Notice

/-- The verdict, the lines of output and the notices of a check. -/
structure Outcome where
  verdict : Verdict
  output : List String
  notices : List Notice
  deriving Repr

/-- The output as one text. -/
def Outcome.outputText (o : Outcome) : String := String.join (o.output.map (· ++ "\n"))

/-- The notices as one text. -/
def Outcome.noticeText (o : Outcome) (render : Report → String) : String :=
  String.join (o.notices.map (·.text render ++ "\n"))

/-- A token on one line: where it begins, its kind and its text. -/
def tokenLine (t : Token) : String :=
  s!"{t.position.toText} {t.kind.name} " ++ String.ofList t.text.quoted

/-- The notice that a stage does not restore the source, if it does not. -/
def restoration (stage : String) (source restored : Text) : List Notice :=
  let difference := LineDiff.between source restored
  if difference.isSame then [] else [.unrestored stage difference]

/-- Checks a source called `name`. -/
def ofSource (name : String) (source : Text) (o : Options) : Outcome :=
  let tokens := tokenize source
  let (program, parser) := (Parser.ofSource source o.limit).program
  let unrestored :=
    restoration "token" source (Token.restore tokens) ++ restoration "AST" source program.restore
  let shown := parser.diagnostics.filter fun d => d.isError || !o.quiet
  let reports := shown.map fun d => .report (.of d name source)
  let count := parser.diagnostics.errorCount
  let counts := if count = 0 then [] else [.errorCount count]
  let failed := !unrestored.isEmpty || count ≠ 0
  let lines :=
    (if o.tokens then tokens.map tokenLine else []) ++
      if o.shapes then program.declarations.map Node.shape else []
  let success := s!"{name}: restored {tokens.length} tokens and {program.declarations.length} declarations"
  { verdict := if failed then .failed else .restored
    output := lines ++ if failed || o.quiet then [] else [success]
    notices := unrestored ++ reports ++ counts }

/-- Checks what was read from the file at `path`. -/
def ofContent (path : String) (content : Except ReadFault Text) (o : Options) : Outcome :=
  match content with
  | .ok source => ofSource path source o
  | .error fault => ⟨.unreadable, [], [.unreadable path fault]⟩

end Check

end LosslessSyntax
