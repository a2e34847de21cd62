import LosslessSyntax.Diagnostic.Basic

/-! The order of sorted diagnostics. Sorting is stable: diagnostics that start together stay in the order in which
they were, so those that are in order already are not mixed. The first of a sorted list with some property is the
first one of the smallest start that the list had before. -/

namespace LosslessSyntax.Diagnostics

variable {ds es : Diagnostics}

/-- Diagnostics that are in order stay so among others. -/
theorem sublist_sorted (hes : es.Pairwise fun d e => d.startKey ≤ e.startKey) (h : es.Sublist ds) :
    es.Sublist ds.sorted :=
  List.sublist_mergeSort Diagnostic.le_trans Diagnostic.le_total (hes.imp Diagnostic.le_iff.mpr) h

/-- Of the diagnostics with one start sorting changes nothing. -/
theorem filter_startKey_sorted (ds : Diagnostics) (start : UInt32) :
    ds.sorted.filter (·.startKey = start) = ds.filter (·.startKey = start) := by
  have hsame : (ds.filter (·.startKey = start)).Pairwise fun d e => d.startKey ≤ e.startKey := by
    refine List.pairwise_of_forall_mem_list fun d hd e he => ?_
    simp only [List.mem_filter, decide_eq_true_eq] at hd he
    exact UInt32.le_of_eq (hd.2.trans he.2.symm)
  have hkept := (sublist_sorted hsame List.filter_sublist).filter (·.startKey = start)
  rw [List.filter_filter] at hkept
  simp only [Bool.and_self] at hkept
  exact (hkept.eq_of_length ((perm_sorted ds).filter _).length_eq.symm).symm

/-- The first of sorted diagnostics with a property stood first among those of the smallest start. -/
theorem exists_of_find?_sorted {p : Diagnostic → Bool} {d : Diagnostic} (h : ds.sorted.find? p = some d) :
    ∃ before after, ds = before ++ d :: after ∧ p d = true ∧
      (∀ e ∈ before, p e = true → d.startKey < e.startKey) ∧ ∀ e ∈ after, p e = true → d.startKey ≤ e.startKey := by
  obtain ⟨hd, front, back, hsorted, hfront⟩ := List.find?_eq_some_iff_append.mp h
  have hpairwise := ds.pairwise_sorted
  rw [hsorted, List.pairwise_append] at hpairwise
  have hleast : ∀ e ∈ ds, p e = true → d.startKey ≤ e.startKey := by
    intro e he hp
    rw [← (perm_sorted ds).mem_iff, hsorted] at he
    rcases List.mem_append.mp he with he | he
    · have hnot := hfront e he
      rw [hp] at hnot
      cases hnot
    · rcases List.mem_cons.mp he with rfl | he
      · exact UInt32.le_refl _
      · exact List.rel_of_pairwise_cons hpairwise.2.1 he
  have hfilter (es : Diagnostics) : es.find? (fun e => p e && decide (e.startKey = d.startKey)) =
      (es.filter (·.startKey = d.startKey)).find? p := by
    rw [List.find?_filter]
    congr 1
    funext e
    simp [Bool.and_comm]
  have hfirst : ds.find? (fun e => p e && decide (e.startKey = d.startKey)) = some d := by
    rw [hfilter, ← filter_startKey_sorted, ← hfilter]
    refine List.find?_eq_some_iff_append.mpr ⟨by simp [hd], front, back, hsorted, fun e he => ?_⟩
    have hnot := hfront e he
    simp_all
  obtain ⟨-, before, after, hds, hbefore⟩ := List.find?_eq_some_iff_append.mp hfirst
  refine ⟨before, after, hds, hd, fun e he hp => ?_, fun e he hp => ?_⟩
  · have hle := hleast e (hds ▸ List.mem_append_left _ he) hp
    have hne : e.startKey ≠ d.startKey := by simpa [hp] using hbefore e he
    exact UInt32.lt_of_le_of_ne hle hne.symm
  · exact hleast e (hds ▸ List.mem_append_right _ (List.mem_cons_of_mem _ he)) hp

end LosslessSyntax.Diagnostics
