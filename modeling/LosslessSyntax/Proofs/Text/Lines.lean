import LosslessSyntax.Text.Lines

/-! Lines of texts that are put together. A text without a line feed only makes the first line behind it longer, and
a line feed ends a line whatever follows. So texts that each end with a line feed have their lines one after
another, and a text behind a margin has no line of its own at the margin. -/

namespace LosslessSyntax.Text

theorem lines_lineFeed_cons (t : Text) : lines ('\n' :: t) = ['\n'] :: lines t := if_pos rfl

theorem lines_cons {c : Char} (hc : c ≠ '\n') {t line : Text} {ls : List Text} (h : lines t = line :: ls) :
    lines (c :: t) = (c :: line) :: ls := by
  rw [lines, if_neg hc, h]

/-- A text that ends with a line feed has lines. -/
theorem exists_lines_concat (t : Text) : ∃ line ls, lines (t ++ ['\n']) = line :: ls := by
  refine List.exists_cons_of_ne_nil fun hnone => ?_
  simpa [hnone] using flatten_lines (t ++ ['\n'])

/-- Text without a line feed goes to the line behind it. -/
theorem lines_append {s : Text} (hs : '\n' ∉ s) {t line : Text} {ls : List Text} (h : lines t = line :: ls) :
    lines (s ++ t) = (s ++ line) :: ls := by
  induction s with
  | nil => exact h
  | cons c s ih =>
      obtain ⟨hc, hs⟩ := not_or.mp (mt List.mem_cons.mpr hs)
      exact lines_cons (Ne.symm hc) (ih hs)

/-- A line feed ends a line, whatever follows. -/
theorem lines_append_lineFeed {s : Text} (hs : '\n' ∉ s) (t : Text) :
    lines (s ++ '\n' :: t) = (s ++ ['\n']) :: lines t := lines_append hs (lines_lineFeed_cons t)

theorem lines_append_of_ends (s t : Text) : lines (s ++ ['\n'] ++ t) = lines (s ++ ['\n']) ++ lines t := by
  induction s with
  | nil => exact lines_lineFeed_cons t
  | cons c s ih =>
      by_cases hc : c = '\n'
      · subst hc
        simp only [List.cons_append, lines_lineFeed_cons]
        exact congrArg (['\n'] :: ·) ih
      · obtain ⟨line, ls, hlines⟩ := exists_lines_concat s
        rw [hlines, List.cons_append] at ih
        rw [List.cons_append, List.cons_append, lines_cons hc ih, lines_cons hc hlines, List.cons_append]

/-- Texts that each end with a line feed have their lines one after another. -/
theorem lines_flatMap_lineFeed {A : Type} (f : A → Text) (as : List A) :
    lines (as.flatMap fun a => f a ++ ['\n']) = as.flatMap fun a => lines (f a ++ ['\n']) := by
  induction as with
  | nil => rfl
  | cons a as ih => rw [List.flatMap_cons, List.flatMap_cons, lines_append_of_ends, ih]

/-- A line holds a line feed at its end only, if at all. -/
theorem eq_concat_of_mem_lines {t line : Text} (h : line ∈ lines t) :
    '\n' ∉ line ∨ ∃ body, line = body ++ ['\n'] ∧ '\n' ∉ body := by
  induction t generalizing line with
  | nil => cases h
  | cons c t ih =>
      have hcons {body : Text} (hc : c ≠ '\n') (hbody : '\n' ∉ body) : '\n' ∉ c :: body :=
        mt List.mem_cons.mp (not_or.mpr ⟨Ne.symm hc, hbody⟩)
      by_cases hc : c = '\n'
      · subst hc
        rw [lines_lineFeed_cons] at h
        rcases List.mem_cons.mp h with rfl | h
        · exact .inr ⟨[], rfl, List.not_mem_nil⟩
        · exact ih h
      · cases hlines : lines t with
        | nil =>
            rw [lines, if_neg hc, hlines, List.mem_singleton] at h
            subst h
            exact .inl (hcons hc List.not_mem_nil)
        | cons first ls =>
            rw [lines_cons hc hlines] at h
            rcases List.mem_cons.mp h with rfl | h
            · refine (ih (hlines ▸ List.mem_cons_self)).imp (hcons hc) ?_
              rintro ⟨body, rfl, hnone⟩
              exact ⟨c :: body, rfl, hcons hc hnone⟩
            · exact ih (hlines ▸ List.mem_cons_of_mem _ h)

/-- Behind a margin no line begins at the margin, except for the line feed that is put at the end. -/
theorem margin_of_mem_lines_indented {margin : Text} (hmargin : '\n' ∉ margin) {t line : Text}
    (h : line ∈ lines (indented margin t ++ ['\n'])) : margin <+: line ∨ line = ['\n'] := by
  suffices hlines : ∀ ls : List Text, (∀ l ∈ ls, '\n' ∉ l ∨ ∃ body, l = body ++ ['\n'] ∧ '\n' ∉ body) →
      ∀ line ∈ lines (ls.flatMap (margin ++ ·) ++ ['\n']), margin <+: line ∨ line = ['\n'] from
    hlines t.lines (fun _ => eq_concat_of_mem_lines) line h
  intro ls hall
  induction ls with
  | nil => exact fun line h => .inr (List.mem_singleton.mp h)
  | cons l ls ih =>
      intro line h
      obtain ⟨hl, hls⟩ := List.forall_mem_cons.mp hall
      rw [List.flatMap_cons, List.append_assoc] at h
      rcases hl with hnone | ⟨body, rfl, hnone⟩
      · have hfront : '\n' ∉ margin ++ l := fun hm => (List.mem_append.mp hm).elim hmargin hnone
        obtain ⟨first, others, hrest⟩ := exists_lines_concat (ls.flatMap (margin ++ ·))
        rw [lines_append hfront hrest] at h
        rcases List.mem_cons.mp h with rfl | h
        · exact .inl ⟨l ++ first, (List.append_assoc ..).symm⟩
        · exact ih hls line (hrest ▸ List.mem_cons_of_mem _ h)
      · have hfront : '\n' ∉ margin ++ body := fun hm => (List.mem_append.mp hm).elim hmargin hnone
        have hsplit : margin ++ (body ++ ['\n']) ++ (ls.flatMap (margin ++ ·) ++ ['\n']) =
            margin ++ body ++ '\n' :: (ls.flatMap (margin ++ ·) ++ ['\n']) := by simp
        rw [hsplit, lines_append_lineFeed hfront] at h
        rcases List.mem_cons.mp h with rfl | h
        · exact .inl ⟨body ++ ['\n'], (List.append_assoc ..).symm⟩
        · exact ih hls line h

end LosslessSyntax.Text
