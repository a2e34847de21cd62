import LosslessSyntax.Text.Basic

/-! Slices of a text by bytes. A text is a list of characters, but offsets count the bytes of its UTF-8
form, so a piece may be asked for that begins or ends inside a character or behind the end, or that ends
before it begins. There is no such piece. -/

namespace LosslessSyntax.Text

/-- Splits a text behind its first `n` bytes. There is no splitting inside a character or behind the end. -/
def splitBytes? : Nat → Text → Option (Text × Text)
  | 0, t => some ([], t)
  | _ + 1, [] => none
  | n + 1, c :: t =>
    if c.utf8Size ≤ n + 1 then
      (splitBytes? (n + 1 - c.utf8Size) t).map fun (front, back) => (c :: front, back)
    else none

/-- The text from the byte `start` up to the byte `stop`, if there is such a piece. -/
def between? (t : Text) (start stop : Nat) : Option Text :=
  if start ≤ stop then do
    let (_, behind) ← splitBytes? start t
    let (piece, _) ← splitBytes? (stop - start) behind
    return piece
  else none

/-- The text from the byte `start` up to the byte `stop`, and nothing if there is no such piece. -/
def cut (t : Text) (start stop : Nat) : Text := (t.between? start stop).getD []

theorem splitBytes?_byteLength (front back : Text) :
    splitBytes? front.byteLength (front ++ back) = some (front, back) := by
  induction front with
  | nil => rw [byteLength_nil, List.nil_append, splitBytes?]
  | cons c front ih =>
      have hpos := c.utf8Size_pos
      obtain ⟨n, hn⟩ : ∃ n, c.utf8Size + byteLength front = n + 1 :=
        ⟨c.utf8Size + byteLength front - 1, by omega⟩
      have hrest : n + 1 - c.utf8Size = byteLength front := by omega
      rw [byteLength_cons, hn, List.cons_append, splitBytes?, if_pos (by omega), hrest, ih]
      rfl

theorem append_of_splitBytes? {n : Nat} {t front back : Text} (h : splitBytes? n t = some (front, back)) :
    front ++ back = t ∧ front.byteLength = n := by
  fun_induction splitBytes? n t generalizing front back with
  | case1 t =>
      cases h
      exact ⟨rfl, rfl⟩
  | case2 => cases h
  | case3 n c t hle ih =>
      obtain ⟨⟨front', back'⟩, hsplit, heq⟩ := Option.map_eq_some_iff.mp h
      cases heq
      obtain ⟨happend, hlength⟩ := ih hsplit
      refine ⟨by rw [List.cons_append, happend], ?_⟩
      rw [byteLength_cons, hlength]
      omega
  | case4 => cases h

/-- A piece stands between two bytes exactly if the text in front of it takes the bytes before the first, and
with it the bytes before the second. -/
theorem between?_eq_some_iff {t piece : Text} {start stop : Nat} :
    t.between? start stop = some piece ↔ ∃ front back,
      t = front ++ piece ++ back ∧ front.byteLength = start ∧ (front ++ piece).byteLength = stop := by
  constructor
  · intro h
    unfold between? at h
    split at h
    · next hle =>
        obtain ⟨⟨front, behind⟩, hfront, h⟩ := Option.bind_eq_some_iff.mp h
        obtain ⟨⟨_, back⟩, hpiece, heq⟩ := Option.bind_eq_some_iff.mp h
        cases heq
        obtain ⟨rfl, hstart⟩ := append_of_splitBytes? hfront
        obtain ⟨rfl, hlength⟩ := append_of_splitBytes? hpiece
        refine ⟨front, back, (List.append_assoc ..).symm, hstart, ?_⟩
        rw [byteLength_append, hstart, hlength, Nat.add_sub_of_le hle]
    · cases h
  · rintro ⟨front, back, rfl, rfl, rfl⟩
    rw [between?, byteLength_append, if_pos (Nat.le_add_right _ _), Nat.add_sub_cancel_left, List.append_assoc,
      splitBytes?_byteLength]
    change (splitBytes? piece.byteLength (piece ++ back)).bind (fun x => some x.1) = some piece
    rw [splitBytes?_byteLength]
    rfl

theorem between?_byteLength (front piece back : Text) :
    (front ++ piece ++ back).between? front.byteLength (front ++ piece).byteLength = some piece :=
  between?_eq_some_iff.mpr ⟨front, back, rfl, rfl, rfl⟩

/-- Between two boundaries of characters the text is cut where they are. -/
theorem cut_byteLength (front piece back : Text) :
    (front ++ piece ++ back).cut front.byteLength (front ++ piece).byteLength = piece := by
  rw [cut, between?_byteLength, Option.getD_some]

/-- Nothing stands between a byte and itself. -/
@[simp] theorem cut_self (t : Text) (n : Nat) : t.cut n n = [] := by
  unfold cut
  cases h : t.between? n n with
  | none => rfl
  | some piece =>
      obtain ⟨front, back, -, hstart, hstop⟩ := between?_eq_some_iff.mp h
      have hempty : piece.byteLength = 0 := by
        rw [byteLength_append] at hstop
        omega
      exact byteLength_eq_zero_iff.mp hempty

end LosslessSyntax.Text
