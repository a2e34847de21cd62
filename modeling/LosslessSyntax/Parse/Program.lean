import LosslessSyntax.Error
import LosslessSyntax.Parse.Nesting
import LosslessSyntax.Token.Scanner

/-! Programs: whole sources read into trees. Tolerant reading makes a tree of every source and notes
diagnostics; past the nesting limit it takes the rest of the source as it stands. Strict reading gives the
tree only if nothing is wrong. -/

namespace LosslessSyntax

/-- Takes what reading did not see after it was given up: the tokens as they stand, and the trivia at the
end. -/
def Cursor.salvage (c : Cursor) : List Node × Cursor :=
  if c.givenUp then
    let (lexemes, c) := (Rule.lexemesUntil fun _ => false).run { c with givenUp := false }
    let (trivia, c) := c.takeTrivia
    ((if lexemes.isEmpty then [] else [.unparsed lexemes]) ++ trivia, c)
  else ([], c)

/-- Reads all statements that are left. -/
def Cursor.program (limit : Nat) (c : Cursor) : Program × Cursor :=
  let (statements, c) := ((Level.outermost limit).statements false).run c
  let (rest, c) := c.salvage
  (⟨statements ++ rest⟩, c)

/-- The reading of one source: how far it has come, how deep nesting may go, and what is wrong with tokens. -/
structure Parser where
  cursor : Cursor
  limit : Nat
  tokenDiagnostics : Diagnostics
  deriving Repr

namespace Parser

/-- How deep nesting may go if nothing else is said. -/
def defaultLimit : Nat := 64

/-- A parser that has read nothing yet. -/
def ofSource (source : Text) (limit : Nat := defaultLimit) : Parser :=
  let (tokens, last) := (Scanner.ofText source).finish
  { cursor := { source, upcoming := tokens, last := last.token }, limit, tokenDiagnostics := last.diagnostics }

/-- Reads what is left of the source. -/
def program (p : Parser) : Program × Parser :=
  let (program, cursor) := p.cursor.program p.limit
  (program, { p with cursor })

/-- What was noted while the tokens were read into a tree. -/
def treeDiagnostics (p : Parser) : Diagnostics := p.cursor.diagnostics

/-- All that was noted, by its place in the source. -/
def diagnostics (p : Parser) : Diagnostics := (p.tokenDiagnostics ++ p.treeDiagnostics).sorted

end Parser

/-- The tree of a source, whatever is wrong with it. -/
def Program.ofSource (source : Text) (limit : Nat := Parser.defaultLimit) : Program :=
  (Parser.ofSource source limit).program.1

namespace Diagnostic

/-- Where the diagnostic is shown: at its location, or at the start for want of one. -/
def positionOrStart (d : Diagnostic) : Position := (d.location.map (·.position)).getD .start

/-- The source text that the diagnostic is about, empty for want of a location. -/
def found (d : Diagnostic) : Text := (d.location.map (·.found)).getD []

end Diagnostic

/-- The error that diagnostics amount to, if they amount to any: the passed limit before all others, else the
first one. -/
def Diagnostics.error? (ds : Diagnostics) (limit : Nat) : Option Error :=
  match ds.find? (·.code = Message.nestingTooDeep.code), ds.find? (·.isError) with
  | some d, _ => some (.tooDeep limit d.positionOrStart)
  | none, some d => some (.invalid d.text d.found d.positionOrStart)
  | none, none => none

/-- The tree of a source with nothing wrong in it. -/
def Program.ofValidSource (source : Text) (limit : Nat := Parser.defaultLimit) : Except Error Program :=
  let (program, p) := (Parser.ofSource source limit).program
  match p.diagnostics.error? limit with
  | some e => .error e
  | none => .ok program

end LosslessSyntax
