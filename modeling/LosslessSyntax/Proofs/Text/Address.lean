import LosslessSyntax.Text.Position

/-! Offsets as words. An offset in an addressable text is the number that its word stands for, so that words are
added and compared as the numbers are. A difference of words is right even where offsets are cut off. -/

namespace LosslessSyntax

/-- A number that fits a word is what its word stands for. -/
theorem toNat_toUInt32 {n : Nat} (h : n < UInt32.size) : n.toUInt32.toNat = n := UInt32.toNat_ofNat_of_lt' h

theorem toUInt32_add_sub_cancel_left (m n : Nat) : (m + n).toUInt32 - m.toUInt32 = n.toUInt32 := by
  change UInt32.ofNat (m + n) - UInt32.ofNat m = UInt32.ofNat n
  rw [UInt32.ofNat_add, UInt32.add_comm, UInt32.add_sub_cancel]

theorem toNat_add_one {n : UInt32} (h : n.toNat + 1 < UInt32.size) : (n + 1).toNat = n.toNat + 1 := by
  rw [UInt32.toNat_add]
  exact Nat.mod_eq_of_lt h

/-- Counting one more does not begin again at zero as long as there is room for it. -/
theorem lt_add_one_of_toNat {n : UInt32} (h : n.toNat + 1 < UInt32.size) : n < n + 1 := by
  rw [UInt32.lt_iff_toNat_lt, toNat_add_one h]
  exact Nat.lt_succ_self _

namespace Text.IsAddressable

variable {front back : Text}

theorem of_append_left (h : IsAddressable (front ++ back)) : front.IsAddressable := by
  unfold IsAddressable at h ⊢
  rw [byteLength_append] at h
  omega

/-- Every boundary between characters of an addressable text has an offset of its own. -/
theorem toNat_byteLength (h : IsAddressable (front ++ back)) : front.byteLength.toUInt32.toNat = front.byteLength :=
  toNat_toUInt32 h.of_append_left

end Text.IsAddressable

end LosslessSyntax
