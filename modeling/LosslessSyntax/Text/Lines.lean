import LosslessSyntax.Text.Basic

/-! The lines of a text. A line keeps the line feed that ends it, so a text is the concatenation of its lines;
other line breaks stay inside lines. -/

namespace LosslessSyntax.Text

/-- The lines of a text, each with the line feed that ends it. -/
def lines : Text → List Text
  | [] => []
  | c :: t =>
    if c = '\n' then [c] :: lines t
    else
      match lines t with
      | [] => [[c]]
      | l :: ls => (c :: l) :: ls

/-- A line without the line feed that ends it, and without a carriage return in front of that. -/
def withoutBreak (line : Text) : Text :=
  match line.reverse with
  | '\n' :: '\r' :: t => t.reverse
  | '\n' :: t => t.reverse
  | _ => line

/-- Every line of a text behind `margin`. -/
def indented (margin t : Text) : Text := t.lines.flatMap (margin ++ ·)

/-- No character is lost between the lines. -/
@[simp] theorem flatten_lines (t : Text) : t.lines.flatten = t := by
  induction t with
  | nil => rfl
  | cons c t ih =>
    simp only [lines]
    split
    · simp [ih]
    · split <;> simp_all

/-- A line feed is all that a line loses if no carriage return stands in front of it. -/
theorem withoutBreak_append_lineFeed {t : Text} (h : t.getLast? ≠ some '\r') :
    withoutBreak (t ++ ['\n']) = t := by
  rw [List.getLast?_eq_head?_reverse] at h
  simp only [withoutBreak, List.reverse_append, List.reverse_singleton, List.singleton_append]
  split
  · next s hs => simp [(List.cons.inj hs).2] at h
  · next s _ hs => rw [← (List.cons.inj hs).2, List.reverse_reverse]
  · next hs => exact absurd rfl (hs t.reverse)

end LosslessSyntax.Text
