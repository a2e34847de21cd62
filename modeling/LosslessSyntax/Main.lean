import LosslessSyntax.Check

/-! The command that checks a file: it reads the arguments and the file, and prints what the check says. The
arguments are the options of the check, in any order, and the path of the file. -/

open LosslessSyntax

namespace LosslessSyntax.Check

/-- What is wrong with arguments. -/
inductive ArgumentFault where
  | unknownOption (argument : String)
  | limitExpected
  | limitInvalid (argument : String)
  | pathExpected
  | extraPath (argument : String)
  deriving DecidableEq, Repr

def ArgumentFault.message : ArgumentFault → String
  | .unknownOption argument => s!"unexpected argument '{argument}'"
  | .limitExpected => "a number is required behind '--max-depth'"
  | .limitInvalid argument => s!"invalid number '{argument}' behind '--max-depth'"
  | .pathExpected => "the path of a file is required"
  | .extraPath argument => s!"only one file is checked, but '{argument}' was given too"

/-- How the command is used. -/
def usage : String := "Usage: [--tokens] [--ast] [-q | --quiet] [--max-depth N] FILE"

/-- The least number of levels that is too large to ask for. -/
def limitBound : Nat := 4294967296

/-- A number of levels, in decimal digits and within the bound. -/
def limitOf? (t : Text) : Option Nat :=
  let n := t.foldl (fun n c => 10 * n + (c.toNat - '0'.toNat)) 0
  if !t.isEmpty && t.all Char.isDigit && n < limitBound then some n else none

/-- The options and the path in a list of arguments. `path` is the path met so far, and behind `--` there are
paths only. -/
def argumentsFrom (o : Options) (path : Option String) (pathsOnly : Bool) :
    List String → Except ArgumentFault (Options × String)
  | [] =>
    match path with
    | some path => .ok (o, path)
    | none => .error .pathExpected
  | argument :: rest =>
    let valued := "--max-depth=".toList
    if pathsOnly || argument.toList.head? ≠ some '-' || argument = "-" then
      match path with
      | some _ => .error (.extraPath argument)
      | none => argumentsFrom o (some argument) pathsOnly rest
    else if argument = "--" then argumentsFrom o path true rest
    else if argument = "--tokens" then argumentsFrom { o with tokens := true } path pathsOnly rest
    else if argument = "--ast" then argumentsFrom { o with shapes := true } path pathsOnly rest
    else if argument = "--quiet" || argument = "-q" then argumentsFrom { o with quiet := true } path pathsOnly rest
    else if argument = "--max-depth" then
      match rest with
      | [] => .error .limitExpected
      | value :: rest =>
        match limitOf? value.toList with
        | some limit => argumentsFrom { o with limit } path pathsOnly rest
        | none => .error (.limitInvalid value)
    else if valued.isPrefixOf argument.toList then
      let value := argument.toList.drop valued.length
      match limitOf? value with
      | some limit => argumentsFrom { o with limit } path pathsOnly rest
      | none => .error (.limitInvalid (String.ofList value))
    else .error (.unknownOption argument)

/-- The options and the path that the command is given. -/
def arguments (args : List String) : Except ArgumentFault (Options × String) := argumentsFrom {} none false args

end LosslessSyntax.Check

/-- The text in a file, or why there is none. -/
def LosslessSyntax.Text.read (path : String) : IO (Except ReadFault Text) := do
  try
    return Text.ofBytes (← IO.FS.readBinFile path)
  catch
    | .noFileOrDirectory .. => return .error .missing
    | e => return .error (.other (toString e))

def main (args : List String) : IO UInt32 := do
  match Check.arguments args with
  | .error fault =>
    IO.eprintln s!"error: {fault.message}\n\n{Check.usage}"
    return Check.Verdict.failed.exitCode.toUInt32
  | .ok (options, path) =>
    let outcome := Check.ofContent path (← Text.read path) options
    IO.print outcome.outputText
    IO.eprint (outcome.noticeText Report.plain)
    return outcome.verdict.exitCode.toUInt32
