import LosslessSyntax.LineDiff

/-! What the comparison of two texts says. Lines keep the line feeds that end them, so texts with the same lines are
the same, and two texts have lines in common from the first on until they part: at a line in which they differ, or
where one of them ends. The comparison says which, and at which line, and nothing else that it could say is true. -/

namespace LosslessSyntax

theorem Text.eq_of_lines_eq {s t : Text} (h : s.lines = t.lines) : s = t := by
  rw [← flatten_lines s, h, flatten_lines]

namespace LineDiff

/-- What a difference says of two texts. A line that changed has the lines in front of it in common; lines that are
missing or extra are the last ones, and there is at least one. -/
def Describes (expected actual : Text) : LineDiff → Prop
  | .same => expected = actual
  | .changed line x y => ∃ front es as, expected.lines = front ++ x :: es ∧ actual.lines = front ++ y :: as ∧
      line = front.length + 1 ∧ x ≠ y
  | .extra count => 0 < count ∧ ∃ last, last.length = count ∧ actual.lines = expected.lines ++ last
  | .missing count => 0 < count ∧ ∃ last, last.length = count ∧ expected.lines = actual.lines ++ last

/-- The difference with the two texts exchanged. -/
def swap : LineDiff → LineDiff
  | .same => .same
  | .changed line x y => .changed line y x
  | .extra count => .missing count
  | .missing count => .extra count

variable {expected actual : Text} {d : LineDiff}

/-- Two lists of lines have a front in common, behind which they part. -/
theorem exists_common_front : ∀ es as : List Text,
    ∃ front es' as', es = front ++ es' ∧ as = front ++ as' ∧ ∀ x ∈ es'.head?, ∀ y ∈ as'.head?, x ≠ y
  | [], as => ⟨[], [], as, rfl, rfl, fun x hx => by cases hx⟩
  | e :: es, [] => ⟨[], e :: es, [], rfl, rfl, fun x _ y hy => by cases hy⟩
  | e :: es, a :: as => by
      by_cases hsame : e = a
      · obtain ⟨front, es', as', hes, has, hpart⟩ := exists_common_front es as
        exact ⟨e :: front, es', as', congrArg (e :: ·) hes, by rw [hsame, has, List.cons_append], hpart⟩
      · refine ⟨[], e :: es, a :: as, rfl, rfl, ?_⟩
        rintro x ⟨⟩ y ⟨⟩
        exact hsame

/-- Lines in common only move the place of the difference. -/
theorem ofLines_append (line : Nat) (front es as : List Text) :
    ofLines line (front ++ es) (front ++ as) = ofLines (line + front.length) es as := by
  induction front generalizing line with
  | nil => rfl
  | cons l front ih =>
      rw [List.cons_append, List.cons_append, ofLines, if_pos rfl, ih, List.length_cons, Nat.add_right_comm,
        Nat.add_assoc]

/-- What the comparison says is true. -/
theorem describes_between (expected actual : Text) : (between expected actual).Describes expected actual := by
  obtain ⟨front, es, as, hes, has, hpart⟩ := exists_common_front expected.lines actual.lines
  rw [between, hes, has, ofLines_append]
  cases es with
  | nil =>
      rw [List.append_nil] at hes
      cases as with
      | nil => exact Text.eq_of_lines_eq (by rw [hes, has, List.append_nil])
      | cons a as => exact ⟨Nat.succ_pos _, a :: as, rfl, by rw [hes, has]⟩
  | cons e es =>
      cases as with
      | nil =>
          rw [List.append_nil] at has
          exact ⟨Nat.succ_pos _, e :: es, rfl, by rw [hes, has]⟩
      | cons a as =>
          have hne : e ≠ a := hpart e rfl a rfl
          rw [ofLines, if_neg hne]
          exact ⟨front, es, as, hes, has, Nat.add_comm .., hne⟩

/-- What is true of two texts the comparison says. -/
theorem Describes.between_eq (h : d.Describes expected actual) : between expected actual = d := by
  cases d with
  | same =>
      have hsame := ofLines_append 1 expected.lines [] []
      rw [List.append_nil] at hsame
      rw [between, ← show expected = actual from h, hsame, ofLines]
  | changed line x y =>
      obtain ⟨front, es, as, hes, has, rfl, hne⟩ := h
      rw [between, hes, has, ofLines_append, ofLines, if_neg hne, Nat.add_comm]
  | extra count =>
      obtain ⟨hpos, last, rfl, has⟩ := h
      obtain ⟨a, last, rfl⟩ := List.exists_cons_of_length_pos hpos
      have hextra := ofLines_append 1 expected.lines [] (a :: last)
      rw [List.append_nil] at hextra
      rw [between, has, hextra, ofLines]
  | missing count =>
      obtain ⟨hpos, last, rfl, hes⟩ := h
      obtain ⟨e, last, rfl⟩ := List.exists_cons_of_length_pos hpos
      have hmissing := ofLines_append 1 actual.lines (e :: last) []
      rw [List.append_nil] at hmissing
      rw [between, hes, hmissing, ofLines]

theorem Describes.swap (h : d.Describes expected actual) : d.swap.Describes actual expected := by
  cases d with
  | same => exact h.symm
  | changed line x y =>
      obtain ⟨front, es, as, hes, has, hline, hne⟩ := h
      exact ⟨front, as, es, has, hes, hline, hne.symm⟩
  | extra count => exact h
  | missing count => exact h

/-- The comparison of two texts says what is true of them, and all of it; from the other side it says the same with
the two exchanged. -/
theorem between_eq_iff (expected actual : Text) :
    (∀ d, between expected actual = d ↔ d.Describes expected actual) ∧
      between actual expected = (between expected actual).swap := by
  have htrue := describes_between expected actual
  refine ⟨fun d => ⟨fun h => h ▸ htrue, Describes.between_eq⟩, htrue.swap.between_eq⟩

/-- Texts that differ in a line feed at the end differ in their last line. -/
example : between ['a', '\n', 'b'] ['a', '\n', 'b', '\n'] = .changed 2 ['b'] ['b', '\n'] := rfl

end LineDiff

end LosslessSyntax
