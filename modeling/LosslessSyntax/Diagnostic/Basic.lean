import LosslessSyntax.Text.Position
import LosslessSyntax.Diagnostic.Template

/-! Diagnostics: what is wrong with a source, and where. Reading never stops at a fault; it notes a
diagnostic and goes on, and the caller decides how much to mind. -/

namespace LosslessSyntax

/-- How much a diagnostic matters. -/
inductive Category where
  | warning | error | message
  deriving DecidableEq, Repr

/-- How the category is written. -/
def Category.name : Category → String
  | .warning => "warning"
  | .error => "error"
  | .message => "message"

/-- One thing that can be wrong, with the template of its wording. -/
structure Message where
  code : Nat
  category : Category
  template : String
  deriving DecidableEq, Repr

/-- The piece of source that a diagnostic is about: its bytes, where it begins, and how it reads. -/
structure Location where
  span : Span
  position : Position
  found : Text
  deriving DecidableEq, Repr

/-- A fault found: its wording, and its file and location as far as they are known. -/
structure Diagnostic where
  code : Nat
  category : Category
  text : String
  location : Option Location := none
  file : Option String := none
  deriving DecidableEq, Repr

namespace Diagnostic

/-- The diagnostic that says `m` with the arguments put in. -/
def of (m : Message) (args : List Text) (location : Option Location) : Diagnostic :=
  ⟨m.code, m.category, String.ofList (Template.fill m.template.toList args), location, none⟩

/-- The diagnostic as one about `file`. -/
def inFile (d : Diagnostic) (file : String) : Diagnostic := { d with file := some file }

def isError (d : Diagnostic) : Bool := d.category = .error

/-- The code as it is shown, `VB` and the number. -/
def codeName (d : Diagnostic) : String := s!"VB{d.code}"

/-- The diagnostic in one line: the place stands with the file in front, or behind if no file is
known. -/
def line (d : Diagnostic) : String :=
  let body := s!"{d.category.name} {d.codeName}: {d.text}"
  match d.file, d.location with
  | some file, some l => s!"{file}({l.position.toText}): {body}"
  | some file, none => s!"{file}: {body}"
  | none, some l => s!"{body} ({l.position.toText})"
  | none, none => body

/-- What the order of diagnostics goes by: the start of the span, zero for want of one. -/
def startKey (d : Diagnostic) : UInt32 :=
  match d.location with
  | some l => l.span.start
  | none => 0

/-- Whether the diagnostic may stand in front of the other. -/
def le (d e : Diagnostic) : Bool := d.startKey ≤ e.startKey

theorem le_iff {d e : Diagnostic} : d.le e = true ↔ d.startKey ≤ e.startKey := decide_eq_true_iff

theorem le_trans (a b c : Diagnostic) (h : a.le b = true) (h' : b.le c = true) : a.le c = true :=
  le_iff.mpr (UInt32.le_trans (le_iff.mp h) (le_iff.mp h'))

theorem le_total (a b : Diagnostic) : (a.le b || b.le a) = true := by
  rw [Bool.or_eq_true, le_iff, le_iff]
  exact UInt32.le_total _ _

end Diagnostic

/-- Diagnostics in the order in which they were noted. -/
abbrev Diagnostics := List Diagnostic

namespace Diagnostics

def hasErrors (ds : Diagnostics) : Bool := ds.any Diagnostic.isError

def errorCount (ds : Diagnostics) : Nat := ds.countP Diagnostic.isError

/-- The diagnostics by the start of their spans; those that start together keep their order. -/
def sorted (ds : Diagnostics) : Diagnostics := ds.mergeSort Diagnostic.le

theorem hasErrors_iff {ds : Diagnostics} : ds.hasErrors = true ↔ 0 < ds.errorCount := by
  simp only [hasErrors, errorCount, List.any_eq_true, List.countP_pos_iff]

/-- Sorting neither loses nor adds a diagnostic. -/
theorem perm_sorted (ds : Diagnostics) : ds.sorted.Perm ds := List.mergeSort_perm ds _

/-- In sorted diagnostics the starts never decrease. -/
theorem pairwise_sorted (ds : Diagnostics) : ds.sorted.Pairwise fun d e => d.startKey ≤ e.startKey :=
  (List.pairwise_mergeSort Diagnostic.le_trans Diagnostic.le_total ds).imp Diagnostic.le_iff.mp

end Diagnostics

end LosslessSyntax
