import LosslessSyntax.Proofs.Text.Address

/-! The order of positions: by lines first, and on one line by columns. Text moves a position forward, strictly
so if there is any text at all, as long as lines and columns have room to grow. -/

namespace LosslessSyntax.Position

instance : LT Position := ⟨fun p q => p.line < q.line ∨ p.line = q.line ∧ p.column < q.column⟩

theorem lt_iff {p q : Position} : p < q ↔ p.line < q.line ∨ p.line = q.line ∧ p.column < q.column := Iff.rfl

theorem lt_trans {p q r : Position} (hpq : p < q) (hqr : q < r) : p < r := by
  rw [lt_iff] at hpq hqr ⊢
  rcases hpq with hpq | ⟨hline, hpq⟩ <;> rcases hqr with hqr | ⟨hline', hqr⟩
  · exact .inl (UInt32.lt_trans hpq hqr)
  · exact .inl (hline' ▸ hpq)
  · exact .inl (hline ▸ hqr)
  · exact .inr ⟨hline.trans hline', UInt32.lt_trans hpq hqr⟩

instance : Trans (α := Position) (· < ·) (· < ·) (· < ·) := ⟨lt_trans⟩

/-- Whether line and column may both grow by `n` without beginning again at zero. -/
structure HasRoom (p : Position) (n : Nat) : Prop where
  line : p.line.toNat + n < UInt32.size
  column : p.column.toNat + n < UInt32.size

theorem hasRoom_start {n : Nat} (h : n + 1 < UInt32.size) : start.HasRoom n :=
  ⟨Nat.add_comm n 1 ▸ h, Nat.add_comm n 1 ▸ h⟩

namespace HasRoom

variable {p : Position} {m n : Nat}

theorem mono (h : p.HasRoom n) (hle : m ≤ n) : p.HasRoom m :=
  ⟨Nat.lt_of_le_of_lt (Nat.add_le_add_left hle _) h.line, Nat.lt_of_le_of_lt (Nat.add_le_add_left hle _) h.column⟩

/-- A new line takes of the room for lines; the column begins anew. -/
theorem nextLine (h : p.HasRoom (m + n)) (hm : 0 < m) : HasRoom ⟨p.line + 1, 1⟩ n := by
  have hline := h.line
  refine ⟨?_, ?_⟩
  · rw [toNat_add_one (by omega)]
    omega
  · change 1 + n < UInt32.size
    omega

theorem nextColumn (h : p.HasRoom (m + n)) (hm : 0 < m) : HasRoom ⟨p.line, p.column + 1⟩ n := by
  have hcolumn := h.column
  refine ⟨(h.mono (Nat.le_add_left n m)).line, ?_⟩
  rw [toNat_add_one (by omega)]
  omega

/-- Text takes at most as much room as it has bytes. -/
theorem advance {t : Text} (h : p.HasRoom (t.byteLength + n)) : (p.advance t).HasRoom n := by
  fun_induction Position.advance p t with
  | case1 p => exact h.mono (Nat.le_add_left n _)
  | case2 p c t hpair ih =>
      rw [Text.byteLength_cons] at h
      exact ih (h.mono (by omega))
  | case3 p c t hpair hbreak ih =>
      rw [Text.byteLength_cons, Nat.add_assoc] at h
      exact ih (h.nextLine c.utf8Size_pos)
  | case4 p c t hpair hbreak ih =>
      rw [Text.byteLength_cons, Nat.add_assoc] at h
      exact ih (h.nextColumn c.utf8Size_pos)

end HasRoom

variable {p q : Position} {t : Text}

theorem lt_nextLine (h : p.HasRoom 1) (column : UInt32) : p < ⟨p.line + 1, column⟩ :=
  lt_iff.mpr (.inl (lt_add_one_of_toNat h.line))

theorem lt_nextColumn (h : p.HasRoom 1) : p < ⟨p.line, p.column + 1⟩ :=
  lt_iff.mpr (.inr ⟨rfl, lt_add_one_of_toNat h.column⟩)

/-- No text moves a position back. -/
theorem lt_advance_of_lt (h : p < q) (hroom : q.HasRoom t.byteLength) : p < q.advance t := by
  fun_induction advance q t with
  | case1 q => exact h
  | case2 q c t hpair ih => exact ih h (hroom.mono (Nat.le_add_left _ _))
  | case3 q c t hpair hbreak ih =>
      have hone : q.HasRoom 1 := hroom.mono (Nat.le_trans c.utf8Size_pos (Nat.le_add_right _ _))
      exact ih (lt_trans h (lt_nextLine hone 1)) (hroom.nextLine c.utf8Size_pos)
  | case4 q c t hpair hbreak ih =>
      have hone : q.HasRoom 1 := hroom.mono (Nat.le_trans c.utf8Size_pos (Nat.le_add_right _ _))
      exact ih (lt_trans h (lt_nextColumn hone)) (hroom.nextColumn c.utf8Size_pos)

/-- A carriage return may leave a position where it is, but then a line feed follows that does not. -/
theorem lt_advance (hroom : p.HasRoom t.byteLength) (h : t ≠ []) : p < p.advance t := by
  fun_induction advance p t with
  | case1 p => exact absurd rfl h
  | case2 p c t hpair ih =>
      refine ih (hroom.mono (Nat.le_add_left _ _)) fun hnil => ?_
      rw [hnil] at hpair
      simp at hpair
  | case3 p c t hpair hbreak ih =>
      have hone : p.HasRoom 1 := hroom.mono (Nat.le_trans c.utf8Size_pos (Nat.le_add_right _ _))
      exact lt_advance_of_lt (lt_nextLine hone 1) (hroom.nextLine c.utf8Size_pos)
  | case4 p c t hpair hbreak ih =>
      have hone : p.HasRoom 1 := hroom.mono (Nat.le_trans c.utf8Size_pos (Nat.le_add_right _ _))
      exact lt_advance_of_lt (lt_nextColumn hone) (hroom.nextColumn c.utf8Size_pos)

end LosslessSyntax.Position
