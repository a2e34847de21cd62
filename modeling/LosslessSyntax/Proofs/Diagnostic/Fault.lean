import LosslessSyntax.Diagnostic.Catalogue

/-! Faults and warnings. All messages but one tell of a fault, which is an error; the one left warns of an
idle statement. How many of either there are does not depend on the order of the diagnostics. -/

namespace LosslessSyntax

/-- Whether the message tells of an error, and of no idle statement. -/
def Message.isFault (m : Message) : Bool := m.category = .error && m.code ≠ Message.emptyStatement.code

namespace Diagnostic

/-- Whether the diagnostic is an error, or warns of an idle statement. -/
def IsFaultOrIdle (d : Diagnostic) : Prop := d.isError = true ∨ d.code = Message.emptyStatement.code

variable {m : Message}

theorem isError_of (hm : m.isFault = true) (args : List Text) (location : Option Location) :
    (of m args location).isError = true := (Bool.and_eq_true_iff.mp hm).1

theorem code_of_ne (hm : m.isFault = true) (args : List Text) (location : Option Location) :
    (of m args location).code ≠ Message.emptyStatement.code :=
  of_decide_eq_true (Bool.and_eq_true_iff.mp hm).2

end Diagnostic

namespace Diagnostics

/-- The number of warnings about idle statements. -/
def idleCount (ds : Diagnostics) : Nat := ds.countP (·.code = Message.emptyStatement.code)

theorem hasErrors_append (ds es : Diagnostics) : hasErrors (ds ++ es) = (ds.hasErrors || es.hasErrors) :=
  List.any_append

theorem idleCount_append (ds es : Diagnostics) : idleCount (ds ++ es) = ds.idleCount + es.idleCount :=
  List.countP_append

theorem hasErrors_sorted (ds : Diagnostics) : ds.sorted.hasErrors = ds.hasErrors := (perm_sorted ds).any_eq

theorem idleCount_sorted (ds : Diagnostics) : ds.sorted.idleCount = ds.idleCount := (perm_sorted ds).countP_eq _

theorem hasErrors_fault {m : Message} (hm : m.isFault = true) (args : List Text) (location : Option Location) :
    hasErrors [.of m args location] = true := by
  rw [hasErrors, List.any_cons, Diagnostic.isError_of hm, Bool.true_or]

theorem idleCount_fault {m : Message} (hm : m.isFault = true) (args : List Text) (location : Option Location) :
    idleCount [.of m args location] = 0 := by
  rw [idleCount, List.countP_singleton, if_neg (by simpa using Diagnostic.code_of_ne hm args location)]

end Diagnostics

end LosslessSyntax
