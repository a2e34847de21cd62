import LosslessSyntax.Text.Position
import LosslessSyntax.Text.Slice

/-! Slices by spans, and slices as bytes. The bytes of a piece of a text are the bytes of the text that the span
tells. -/

namespace LosslessSyntax.Text

/-- The piece of a text that a span tells, if there is one. -/
def slice? (t : Text) (s : Span) : Option Text := t.between? s.start s.stop

theorem slice?_eq_some_iff {t piece : Text} {s : Span} : t.slice? s = some piece ↔ ∃ front back,
    t = front ++ piece ++ back ∧ front.byteLength = s.start.toNat ∧ (front ++ piece).byteLength = s.stop.toNat :=
  between?_eq_some_iff

theorem size_utf8Encode (t : Text) : t.utf8Encode.size = t.byteLength := by
  induction t with
  | nil => rfl
  | cons c t ih =>
      rw [List.utf8Encode_cons, List.utf8Encode_singleton, ByteArray.size_append, ih, byteLength_cons,
        List.size_toByteArray, String.length_utf8EncodeChar]

/-- The bytes of a slice are the bytes of the text within the span. -/
theorem extract_utf8Encode_of_slice? {t piece : Text} {s : Span} (h : t.slice? s = some piece) :
    t.utf8Encode.extract s.start.toNat s.stop.toNat = piece.utf8Encode := by
  obtain ⟨front, back, rfl, hstart, hstop⟩ := slice?_eq_some_iff.mp h
  have hfront : front.utf8Encode.size = s.start.toNat := (size_utf8Encode front).trans hstart
  have hpiece : s.stop.toNat = front.utf8Encode.size + piece.utf8Encode.size := by
    rw [← hstop, byteLength_append, size_utf8Encode, size_utf8Encode]
  rw [List.append_assoc, List.utf8Encode_append, List.utf8Encode_append, hpiece, ← hfront,
    ← Nat.add_zero front.utf8Encode.size, Nat.add_assoc, Nat.zero_add, ByteArray.extract_append_size_add]
  exact ByteArray.extract_append_eq_left rfl

end LosslessSyntax.Text
