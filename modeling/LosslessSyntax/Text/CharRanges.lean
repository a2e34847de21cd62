/-! Sets of characters given by ranges of code points. The tables of this library list their ranges in
ascending order; membership does not depend on it. -/

namespace LosslessSyntax

/-- Ranges of code points, each with its first and its last member. -/
abbrev CharRanges := List (Nat × Nat)

namespace CharRanges

/-- Whether the code point of `c` lies in one of the ranges. -/
def contains (ranges : CharRanges) (c : Char) : Bool :=
  ranges.any fun (first, last) => first ≤ c.toNat && c.toNat ≤ last

/-- Membership, range by range. -/
theorem contains_eq_true_iff {ranges : CharRanges} {c : Char} :
    ranges.contains c = true ↔ ∃ r ∈ ranges, r.1 ≤ c.toNat ∧ c.toNat ≤ r.2 := by
  simp only [contains, List.any_eq_true, Bool.and_eq_true, decide_eq_true_eq]

end CharRanges

end LosslessSyntax
