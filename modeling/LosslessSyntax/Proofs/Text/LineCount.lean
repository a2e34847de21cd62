import LosslessSyntax.Text.Slice
import LosslessSyntax.Proofs.Text.PositionOrder

/-! The place of a character in a text, counted from the text as a whole: its line from the line breaks in front
of it, its column from the last of them. A carriage return with a line feed behind it is one line break. Where
no pair of them is torn apart, moving a position over a piece of the text leads from the place of its first
character to the place behind its last one, as long as the position has room. -/

namespace LosslessSyntax

namespace Text

variable {t : Text} {n : Nat}

/-- Whether a line ends with the `n`th character: it is a line break, and not the first half of one. -/
def endsLine (t : Text) (n : Nat) : Bool :=
  t[n]?.any isLineBreak && !(t[n]? = some '\r' && t[n + 1]? = some '\n')

/-- Where the lines begin that follow a line break in front of the `n`th character. -/
def lineStarts (t : Text) (n : Nat) : List Nat := ((List.range n).filter t.endsLine).map (· + 1)

/-- Where the line of the `n`th character begins. -/
def lineStart (t : Text) (n : Nat) : Nat := (t.lineStarts n).getLast?.getD 0

/-- A line and a column of a text, both counted from one and without bound. -/
structure Place where
  line : Nat
  column : Nat
  deriving DecidableEq

/-- The place of the `n`th character: one line more than there are line breaks in front of it, and one column
more than there are characters between the last of them and it. -/
def placeOf (t : Text) (n : Nat) : Place := ⟨1 + (t.lineStarts n).length, 1 + (n - t.lineStart n)⟩

/-- The place of the character that begins at a byte, if one does, or of the end. -/
def placeAt? (t : Text) (offset : Nat) : Option Place :=
  (t.splitBytes? offset).map fun (front, _) => t.placeOf front.length

theorem placeAt?_byteLength (front back : Text) :
    placeAt? (front ++ back) front.byteLength = some (placeOf (front ++ back) front.length) := by
  rw [placeAt?, splitBytes?_byteLength, Option.map_some]

theorem lineStarts_succ (t : Text) (n : Nat) :
    t.lineStarts (n + 1) = t.lineStarts n ++ if t.endsLine n then [n + 1] else [] := by
  rw [lineStarts, List.range_succ, List.filter_append, List.map_append]
  cases h : t.endsLine n with
  | true => rw [List.filter_cons_of_pos h]; rfl
  | false => rw [List.filter_cons_of_neg (by simp [h])]; rfl

theorem lineStart_succ_of_endsLine (h : t.endsLine n = true) : t.lineStart (n + 1) = n + 1 := by
  rw [lineStart, lineStarts_succ, if_pos h, List.getLast?_concat, Option.getD_some]

theorem lineStart_succ_of_not_endsLine (h : t.endsLine n = false) : t.lineStart (n + 1) = t.lineStart n := by
  rw [lineStart, lineStarts_succ, h, if_neg Bool.false_ne_true, List.append_nil, lineStart]

/-- No line begins behind one of its characters. -/
theorem lineStart_le (t : Text) (n : Nat) : t.lineStart n ≤ n := by
  induction n with
  | zero => exact Nat.le_refl 0
  | succ n ih =>
      cases h : t.endsLine n with
      | true => exact Nat.le_of_eq (lineStart_succ_of_endsLine h)
      | false => exact Nat.le_trans (Nat.le_of_eq (lineStart_succ_of_not_endsLine h)) (Nat.le_succ_of_le ih)

/-- Behind a line break the next line begins. -/
theorem placeOf_succ_of_endsLine (h : t.endsLine n = true) :
    t.placeOf (n + 1) = ⟨(t.placeOf n).line + 1, 1⟩ := by
  simp only [placeOf, lineStart_succ_of_endsLine h, lineStarts_succ, if_pos h, List.length_append,
    List.length_singleton, Nat.sub_self, Nat.add_assoc]

/-- Any other character takes one column of its line. -/
theorem placeOf_succ_of_not_endsLine (h : t.endsLine n = false) :
    t.placeOf (n + 1) = ⟨(t.placeOf n).line, (t.placeOf n).column + 1⟩ := by
  have hle := t.lineStart_le n
  simp only [placeOf, lineStart_succ_of_not_endsLine h, lineStarts_succ, h, Bool.false_eq_true, if_false,
    List.append_nil, Place.mk.injEq, true_and]
  omega

/-- Whether a line break that is a pair of characters begins in one piece of text and ends in the next. -/
def SplitsLineBreak (piece next : Text) : Prop := piece.getLast? = some '\r' ∧ next.head? = some '\n'

theorem endsLine_append (front : Text) (c : Char) (back : Text) :
    endsLine (front ++ c :: back) front.length =
      (isLineBreak c && !(c = '\r' && back.head? = some '\n')) := by
  simp only [endsLine, List.getElem?_append_right (Nat.le_refl _), Nat.sub_self, List.getElem?_cons_zero,
    Option.any_some, List.getElem?_append_right (Nat.le_add_right _ 1), Nat.add_sub_cancel_left,
    List.getElem?_cons_succ, List.head?_eq_getElem?, Option.some.injEq]

/-- Whether a line ends inside a piece of text can be told from the piece alone, if it ends with no half of a
line break. -/
theorem endsLine_append_of_not_splitsLineBreak {c : Char} {piece back : Text}
    (h : ¬ SplitsLineBreak (c :: piece) back) (front : Text) :
    endsLine (front ++ c :: piece ++ back) front.length =
      (isLineBreak c && !(c = '\r' && piece.head? = some '\n')) := by
  rw [List.append_assoc, List.cons_append, endsLine_append]
  cases piece with
  | cons d piece => rfl
  | nil =>
      by_cases hc : c = '\r'
      · subst hc
        have hback : back.head? ≠ some '\n' := fun hhead => h ⟨rfl, hhead⟩
        simp [hback]
      · simp [hc]

/-- Between the halves of a line break no new line has begun. -/
theorem SplitsLineBreak.append_left {piece back : Text} (h : SplitsLineBreak piece back) (front : Text) :
    SplitsLineBreak (front ++ piece) back := by
  obtain ⟨body, rfl⟩ := List.getLast?_eq_some_iff.mp h.1
  exact ⟨by rw [← List.append_assoc, List.getLast?_concat], h.2⟩

theorem one_lt_column_of_splitsLineBreak {front back : Text} (h : SplitsLineBreak front back) :
    1 < ((front ++ back).placeOf front.length).column := by
  obtain ⟨hlast, hhead⟩ := h
  obtain ⟨front, rfl⟩ := List.getLast?_eq_some_iff.mp hlast
  have hends : endsLine (front ++ ['\r'] ++ back) front.length = false := by
    rw [List.append_assoc, List.singleton_append, endsLine_append, hhead]
    rfl
  rw [List.length_append, List.length_singleton, placeOf_succ_of_not_endsLine hends]
  simp only [placeOf]
  omega

end Text

namespace Position

/-- The place that a position tells. -/
def place (p : Position) : Text.Place := ⟨p.line.toNat, p.column.toNat⟩

/-- The second half of a line break goes by the line alone, so in front of it the column may be any. -/
private theorem place_advance_eq_placeOf {text front piece back : Text} {p : Position}
    (htext : front ++ piece ++ back = text) (hwhole : ¬ Text.SplitsLineBreak piece back)
    (hroom : p.HasRoom piece.byteLength) (hline : p.line.toNat = (text.placeOf front.length).line)
    (hcolumn : piece.head? = some '\n' ∨ p.column.toNat = (text.placeOf front.length).column) :
    (p.advance piece).place = text.placeOf (front ++ piece).length := by
  induction piece generalizing front p with
  | nil =>
      have hcolumn := hcolumn.resolve_left (by simp)
      rw [List.append_nil, advance_nil]
      exact Text.Place.mk.injEq .. ▸ ⟨hline, hcolumn⟩
  | cons c piece ih =>
      have hends := htext ▸ Text.endsLine_append_of_not_splitsLineBreak hwhole front
      have hnext : front ++ [c] ++ piece ++ back = text := by rw [← htext, List.append_cons front c piece]
      have hrest : ¬ Text.SplitsLineBreak piece back := fun ⟨hlast, hhead⟩ =>
        hwhole ⟨by rw [List.getLast?_cons, hlast, Option.getD_some], hhead⟩
      have hlength : (front ++ [c]).length = front.length + 1 := List.length_append
      have hone : p.HasRoom 1 := hroom.mono (Nat.le_add_right_of_le c.utf8Size_pos)
      rw [List.append_cons, advance]
      split
      · next hpair =>
          have hends : text.endsLine front.length = false := by rw [hends, hpair, Bool.not_true, Bool.and_false]
          refine ih hnext hrest (hroom.mono (Nat.le_add_left _ _)) ?_
            (.inl (by simpa using (Bool.and_eq_true_iff.mp hpair).2))
          rw [hlength, Text.placeOf_succ_of_not_endsLine hends, hline]
      · next hpair =>
          split
          · next hbreak =>
              have hends : text.endsLine front.length = true := by simp [hends, hbreak, hpair]
              have hplace := hlength ▸ Text.placeOf_succ_of_endsLine hends
              refine ih hnext hrest (hroom.nextLine c.utf8Size_pos) ?_ (.inr ?_)
              · rw [hplace, ← hline, toNat_add_one hone.line]
              · rw [hplace]
                rfl
          · next hbreak =>
              have hends : text.endsLine front.length = false := by simp [hends, hbreak]
              have hplace := hlength ▸ Text.placeOf_succ_of_not_endsLine hends
              have hcolumn := hcolumn.resolve_left fun hhead => hbreak (by cases hhead; rfl)
              refine ih hnext hrest (hroom.nextColumn c.utf8Size_pos) ?_ (.inr ?_)
              · rw [hplace, hline]
              · rw [hplace, ← hcolumn, toNat_add_one hone.column]

/-- The first half of a line break moves to a new line by itself. -/
theorem column_advance_concat (p : Position) (piece : Text) : (p.advance (piece ++ ['\r'])).column = 1 := by
  induction piece generalizing p with
  | nil => rfl
  | cons c piece ih =>
      rw [List.cons_append, advance]
      split
      · exact ih _
      · split <;> exact ih _

/-- Moving over a piece of a text leads from its place to the place behind it, unless a line break is torn apart
there, and only then. -/
theorem place_advance_eq_iff {front piece back : Text} {p : Position} (hroom : p.HasRoom piece.byteLength)
    (hplace : p.place = Text.placeOf (front ++ piece ++ back) front.length) :
    (p.advance piece).place = Text.placeOf (front ++ piece ++ back) (front ++ piece).length ↔
      ¬ Text.SplitsLineBreak piece back := by
  constructor
  · intro hbehind hsplit
    obtain ⟨body, rfl⟩ := List.getLast?_eq_some_iff.mp hsplit.1
    have hcolumn := congrArg Text.Place.column hbehind
    have hlater := Text.one_lt_column_of_splitsLineBreak (hsplit.append_left front)
    rw [place, column_advance_concat] at hcolumn
    exact absurd hcolumn (Nat.ne_of_lt hlater)
  · intro hwhole
    exact place_advance_eq_placeOf rfl hwhole hroom (congrArg Text.Place.line hplace)
      (.inr (congrArg Text.Place.column hplace))

end Position

end LosslessSyntax
