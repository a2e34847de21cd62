import LosslessSyntax.Diagnostic.Catalogue
import LosslessSyntax.Proofs.Diagnostic.Order

/-! Sorted diagnostics of which not all have a location. The order goes by the start of the span, and a diagnostic
without one counts as if it began the source. So the unlocated ones come first, except that those which are noted
behind a diagnostic about the first byte stay behind it. -/

namespace LosslessSyntax

/-- Where the diagnostic's span starts, if the diagnostic has a location. -/
def Diagnostic.start? (d : Diagnostic) : Option UInt32 := d.location.map (·.span.start)

theorem Diagnostic.startKey_eq (d : Diagnostic) : d.startKey = d.start?.getD 0 := by
  unfold startKey start?
  cases d.location <;> rfl

namespace Diagnostics

/-- Whether no unlocated diagnostic stands behind a located one. -/
def UnlocatedFirst (ds : Diagnostics) : Prop := ds.Pairwise fun d e => e.start? = none → d.start? = none

/-- Of the diagnostics with one start, and of the unlocated ones, sorting changes nothing. -/
theorem filter_start?_sorted (ds : Diagnostics) (start : Option UInt32) :
    ds.sorted.filter (·.start? = start) = ds.filter (·.start? = start) := by
  have hpart (es : Diagnostics) : (es.filter (·.startKey = start.getD 0)).filter (·.start? = start) =
      es.filter (·.start? = start) := by
    rw [List.filter_filter]
    refine List.filter_congr fun d _ => ?_
    by_cases h : d.start? = start
    · simp [h, d.startKey_eq]
    · simp [h]
  rw [← hpart, filter_startKey_sorted, hpart]

theorem pairwise_start?_sorted (ds : Diagnostics) : (ds.sorted.filterMap Diagnostic.start?).Pairwise (· ≤ ·) := by
  refine List.pairwise_filterMap.mpr (ds.pairwise_sorted.imp fun {d e} hle start hd start' he => ?_)
  rw [d.startKey_eq, e.startKey_eq, hd, he] at hle
  exact hle

/-- What stands in front of an unlocated diagnostic is unlocated too, or about the beginning of the source. -/
theorem pairwise_unlocated_sorted (ds : Diagnostics) :
    ds.sorted.Pairwise fun d e => e.start? = none → d.start? = none ∨ d.start? = some 0 := by
  refine ds.pairwise_sorted.imp fun {d e} hle he => ?_
  rw [d.startKey_eq, e.startKey_eq, he, Option.getD_none, UInt32.le_zero_iff] at hle
  cases hstart : d.start? with
  | none => exact .inl rfl
  | some start =>
      rw [hstart] at hle
      exact .inr (congrArg some hle)

/-- Only diagnostics that count as the first of all tell whether an unlocated one stands behind one about the first
byte. -/
theorem pairwise_filter_startKey_iff (ds : Diagnostics) :
    (ds.filter (·.startKey = 0)).Pairwise (fun d e => e.start? = none → d.start? ≠ some 0) ↔
      ds.Pairwise fun d e => e.start? = none → d.start? ≠ some 0 := by
  rw [List.pairwise_filter]
  refine List.Pairwise.iff fun {d e} => ⟨fun h he hd => ?_, fun h _ _ => h⟩
  have hkeys : d.startKey = 0 ∧ e.startKey = 0 := by
    rw [d.startKey_eq, e.startKey_eq, hd, he]
    exact ⟨rfl, rfl⟩
  exact h (by simpa using hkeys.1) (by simpa using hkeys.2) he hd

/-- Sorting leaves an unlocated diagnostic behind a located one only where the located one is about the first byte and
was noted before it. -/
theorem unlocatedFirst_sorted_iff (ds : Diagnostics) :
    UnlocatedFirst ds.sorted ↔ ds.Pairwise fun d e => e.start? = none → d.start? ≠ some 0 := by
  rw [← pairwise_filter_startKey_iff ds, ← filter_startKey_sorted, pairwise_filter_startKey_iff]
  constructor
  · intro h
    refine h.imp fun {d e} hfirst he hd => ?_
    rw [hfirst he] at hd
    cases hd
  · intro h
    exact (h.and ds.pairwise_unlocated_sorted).imp fun {d e} hboth he => (hboth.2 he).resolve_right (hboth.1 he)

/-- Sorted diagnostics are those that were noted. The located ones are in the order of the source; those that start
together, and the unlocated ones, stay in the order in which they were noted. No unlocated one stands behind a located
one that starts behind the first byte; and none behind any located one, unless it was noted behind one that starts
with the first byte. -/
theorem sorted_unlocated (ds : Diagnostics) :
    ds.sorted.Perm ds ∧ (ds.sorted.filterMap Diagnostic.start?).Pairwise (· ≤ ·) ∧
      (∀ start, ds.sorted.filter (·.start? = start) = ds.filter (·.start? = start)) ∧
      (ds.sorted.Pairwise fun d e => e.start? = none → d.start? = none ∨ d.start? = some 0) ∧
      (UnlocatedFirst ds.sorted ↔ ds.Pairwise fun d e => e.start? = none → d.start? ≠ some 0) :=
  ⟨ds.perm_sorted, ds.pairwise_start?_sorted, ds.filter_start?_sorted, ds.pairwise_unlocated_sorted,
    ds.unlocatedFirst_sorted_iff⟩

/-- A diagnostic about the first byte and, noted behind it, one without a location: sorting leaves them so. -/
theorem not_unlocatedFirst_sorted :
    let located : Diagnostic := .of .invalidCharacter [] (some ⟨⟨0, 1⟩, .start, ['@']⟩)
    let unlocated : Diagnostic := .of .unexpectedToken [] none
    sorted [located, unlocated] = [located, unlocated] ∧ ¬ UnlocatedFirst (sorted [located, unlocated]) := by
  intro located unlocated
  have hsorted : sorted [located, unlocated] = [located, unlocated] :=
    List.mergeSort_of_pairwise (List.pairwise_pair.mpr rfl)
  refine ⟨hsorted, fun hfirst => ?_⟩
  rw [hsorted, UnlocatedFirst, List.pairwise_pair] at hfirst
  cases hfirst rfl

end Diagnostics

end LosslessSyntax
