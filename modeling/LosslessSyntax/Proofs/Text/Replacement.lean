import LosslessSyntax.Diagnostic.Template

/-! Replacing a piece of text wherever it occurs. A piece whose first character does not come again in it cannot
overlap itself: its occurrences lie apart, and each of them is replaced. If a text differs from another only in that
some occurrences are replaced, replacing all of them leads to that text if and only if there are no more of them, or
the piece is replaced by itself. -/

namespace LosslessSyntax.Text

/-- At how many places of the text the piece occurs. -/
def occurrences (piece : Text) : Text → Nat
  | [] => 0
  | c :: t => occurrences piece t + if piece <+: c :: t then 1 else 0

/-- Whether the piece is not empty, and its first character does not come again in it. -/
def LiesApart (piece : Text) : Prop := ∃ c tail, piece = c :: tail ∧ c ∉ tail

/-- Whether `u` is `t` with `count` occurrences of the piece, one behind the other, exchanged for `value`. -/
inductive Exchanged (piece value : Text) : Nat → Text → Text → Prop where
  | none (t : Text) : Exchanged piece value 0 t t
  | next {count : Nat} {t u : Text} (s : Text) (h : Exchanged piece value count t u) :
      Exchanged piece value (count + 1) (s ++ piece ++ t) (s ++ value ++ u)

variable {piece value s t u : Text} {c : Char} {count : Nat}

/-- A text is built up from behind out of pieces of a sort, where one is in front, and out of characters, where none
is. -/
theorem induction_on_pieces {P : Text → Prop} {motive : Text → Prop} (hne : ∀ piece, P piece → piece ≠ [])
    (nil : motive []) (piece : ∀ piece t, P piece → motive t → motive (piece ++ t))
    (char : ∀ c t, (∀ piece, P piece → ¬ piece <+: c :: t) → motive t → motive (c :: t)) (t : Text) : motive t := by
  match t with
  | [] => exact nil
  | c :: t =>
      by_cases hfront : ∃ p, P p ∧ p <+: c :: t
      · obtain ⟨p, hp, u, hu⟩ := hfront
        have hpos := List.length_pos_iff.mpr (hne p hp)
        have hshort : p.length + u.length = (c :: t).length := by rw [← hu, List.length_append]
        exact hu ▸ piece p u hp (induction_on_pieces hne nil piece char u)
      · exact char c t (fun p hp hfront' => hfront ⟨p, hp, hfront'⟩) (induction_on_pieces hne nil piece char t)
termination_by t.length
decreasing_by all_goals simp only [List.length_cons] at *; omega

/-! ### Occurrences -/

namespace LiesApart

theorem ne_nil (h : LiesApart piece) : piece ≠ [] := by
  obtain ⟨c, tail, rfl, -⟩ := h
  exact List.cons_ne_nil c tail

/-- In front of an occurrence no other one begins that does not end there. -/
theorem isFront_append_iff (h : LiesApart piece) (hs : s ≠ []) (t : Text) :
    piece <+: s ++ (piece ++ t) ↔ piece <+: s := by
  refine ⟨fun hfront => ?_, fun hfront => hfront.trans (List.prefix_append s _)⟩
  obtain ⟨c, tail, rfl, hc⟩ := h
  rcases List.prefix_or_prefix_of_prefix hfront (List.prefix_append s _) with hshort | ⟨v, hv⟩
  · exact hshort
  · cases v with
    | nil => exact ⟨[], by rw [← hv, List.append_nil, List.append_nil]⟩
    | cons d v =>
        -- the occurrence in front goes on into the other one, so it has the first character of that one again
        exfalso
        have hover : d :: v <+: c :: tail ++ t := (List.prefix_append_right_inj s).mp (hv.symm ▸ hfront)
        obtain ⟨rfl, -⟩ := List.cons_prefix_cons.mp hover
        obtain ⟨e, s, rfl⟩ := List.exists_cons_of_ne_nil hs
        rw [List.cons_append] at hv
        exact hc ((List.cons.inj hv).2 ▸ List.mem_append_right s List.mem_cons_self)

end LiesApart

theorem occurrences_append_of_not_mem (hc : c ∉ s) (tail t : Text) :
    occurrences (c :: tail) (s ++ t) = occurrences (c :: tail) t := by
  induction s with
  | nil => rfl
  | cons d s ih =>
      obtain ⟨hne, hc⟩ := not_or.mp (mt List.mem_cons.mpr hc)
      have hnone : ¬ c :: tail <+: d :: (s ++ t) := fun h => hne (List.cons_prefix_cons.mp h).1
      rw [List.cons_append, occurrences, if_neg hnone, ih hc, Nat.add_zero]

theorem LiesApart.occurrences_piece_append (h : LiesApart piece) (t : Text) :
    occurrences piece (piece ++ t) = occurrences piece t + 1 := by
  obtain ⟨c, tail, rfl, hc⟩ := h
  have hfront : c :: tail <+: c :: (tail ++ t) := List.prefix_append (c :: tail) t
  rw [List.cons_append, occurrences, if_pos hfront, occurrences_append_of_not_mem hc]

theorem LiesApart.occurrences_append (h : LiesApart piece) (s t : Text) :
    occurrences piece (s ++ piece ++ t) = occurrences piece s + (occurrences piece t + 1) := by
  induction s with
  | nil => rw [List.nil_append, h.occurrences_piece_append, occurrences, Nat.zero_add]
  | cons c s ih =>
      rw [List.append_assoc] at ih
      have hfront := h.isFront_append_iff (List.cons_ne_nil c s) t
      rw [List.cons_append] at hfront
      rw [List.append_assoc, List.cons_append, occurrences, occurrences, ih]
      simp only [hfront]
      omega

/-! ### Replacing -/

theorem replaceAll_nil (piece value : Text) : replaceAll [] piece value = [] := by rw [replaceAll]

theorem replaceAll_piece_append (hne : piece ≠ []) (t : Text) :
    replaceAll (piece ++ t) piece value = value ++ replaceAll t piece value := by
  obtain ⟨c, tail, rfl⟩ := List.exists_cons_of_ne_nil hne
  have hfront : (c :: tail).isPrefixOf (c :: (tail ++ t)) = true :=
    List.isPrefixOf_iff_prefix.mpr (List.prefix_append (c :: tail) t)
  rw [List.cons_append, replaceAll, if_pos hfront]
  simp

theorem replaceAll_cons_of_not (h : ¬ piece <+: c :: t) :
    replaceAll (c :: t) piece value = c :: replaceAll t piece value := by
  rw [replaceAll, if_neg (mt List.isPrefixOf_iff_prefix.mp h)]

/-- Without an occurrence nothing is replaced. -/
theorem replaceAll_of_occurrences_eq_zero (h : occurrences piece t = 0) : replaceAll t piece value = t := by
  induction t with
  | nil => exact replaceAll_nil piece value
  | cons c t ih =>
      obtain ⟨ht, hhere⟩ := Nat.add_eq_zero_iff.mp h
      have hnone : ¬ piece <+: c :: t := fun hfront => by rw [if_pos hfront] at hhere; cases hhere
      rw [replaceAll_cons_of_not hnone, ih ht]

theorem replaceAll_self (hne : piece ≠ []) (t : Text) : replaceAll t piece piece = t := by
  induction t using induction_on_pieces (P := (· = piece)) with
  | hne p hp => exact hp ▸ hne
  | nil => exact replaceAll_nil piece piece
  | piece p t hp ih => subst hp; rw [replaceAll_piece_append hne, ih]
  | char c t hnone ih => rw [replaceAll_cons_of_not (hnone piece rfl), ih]

namespace LiesApart

theorem replaceAll_append (h : LiesApart piece) (s t : Text) :
    replaceAll (s ++ piece ++ t) piece value = replaceAll s piece value ++ value ++ replaceAll t piece value := by
  induction s using induction_on_pieces (P := (· = piece)) with
  | hne p hp => exact hp ▸ h.ne_nil
  | nil => rw [List.nil_append, replaceAll_piece_append h.ne_nil, replaceAll_nil, List.nil_append]
  | piece p s hp ih =>
      subst hp
      rw [List.append_assoc, List.append_assoc, replaceAll_piece_append h.ne_nil, ← List.append_assoc s, ih,
        replaceAll_piece_append h.ne_nil]
      simp only [List.append_assoc]
  | char c s hnone ih =>
      have hnone' : ¬ piece <+: c :: (s ++ piece ++ t) := fun hfront => hnone piece rfl <|
        (h.isFront_append_iff (List.cons_ne_nil c s) t).mp (by simpa using hfront)
      rw [List.cons_append, List.cons_append, replaceAll_cons_of_not hnone', ih,
        replaceAll_cons_of_not (hnone piece rfl)]
      rfl

theorem length_replaceAll (h : LiesApart piece) (value t : Text) :
    (replaceAll t piece value).length + occurrences piece t * piece.length =
      t.length + occurrences piece t * value.length := by
  induction t using induction_on_pieces (P := (· = piece)) with
  | hne p hp => exact hp ▸ h.ne_nil
  | nil => rw [replaceAll_nil, occurrences, Nat.zero_mul, Nat.zero_mul]
  | piece p t hp ih =>
      subst hp
      rw [replaceAll_piece_append h.ne_nil, h.occurrences_piece_append, Nat.succ_mul, Nat.succ_mul,
        List.length_append, List.length_append]
      omega
  | char c t hnone ih =>
      rw [replaceAll_cons_of_not (hnone piece rfl), occurrences, if_neg (hnone piece rfl), Nat.add_zero,
        List.length_cons, List.length_cons]
      omega

/-- Replacing leaves a text as it is only if there is nothing to replace, or it is replaced by itself. -/
theorem eq_or_occurrences_eq_zero (h : LiesApart piece) (hsame : replaceAll t piece value = t) :
    value = piece ∨ occurrences piece t = 0 := by
  induction t using induction_on_pieces (P := (· = piece)) with
  | hne p hp => exact hp ▸ h.ne_nil
  | nil => exact .inr rfl
  | piece p t hp ih =>
      subst hp
      have hlength := h.length_replaceAll value (p ++ t)
      rw [hsame, Nat.add_left_cancel_iff, h.occurrences_piece_append] at hlength
      rw [replaceAll_piece_append h.ne_nil] at hsame
      exact .inl (List.append_inj_left hsame (Nat.eq_of_mul_eq_mul_left (Nat.succ_pos _) hlength).symm)
  | char c t hnone ih =>
      rw [replaceAll_cons_of_not (hnone piece rfl)] at hsame
      rw [occurrences, if_neg (hnone piece rfl), Nat.add_zero]
      exact ih (List.cons.inj hsame).2

end LiesApart

/-! ### Some occurrences and all of them -/

namespace Exchanged

theorem prepend (h : Exchanged piece value count t u) (s : Text) :
    Exchanged piece value count (s ++ t) (s ++ u) := by
  cases h with
  | none t => exact .none (s ++ t)
  | next s' h => simpa only [List.append_assoc] using Exchanged.next (s ++ s') h

theorem piece_append (h : Exchanged piece value count t u) :
    Exchanged piece value (count + 1) (piece ++ t) (value ++ u) := .next [] h

/-- A piece exchanged for itself leaves the text as it is. -/
theorem eq_of_value_eq (h : Exchanged piece piece count t u) : t = u := by
  induction h with
  | none t => rfl
  | next s _ ih => rw [ih]

theorem length_eq (h : Exchanged piece value count t u) :
    u.length + count * piece.length = t.length + count * value.length := by
  induction h with
  | none t => simp only [Nat.zero_mul]
  | next s _ ih =>
      simp only [List.length_append, Nat.succ_mul]
      omega

theorem le_occurrences (hpiece : LiesApart piece) (h : Exchanged piece value count t u) :
    count ≤ occurrences piece t := by
  induction h with
  | none t => exact Nat.zero_le _
  | next s _ ih =>
      rw [hpiece.occurrences_append]
      omega

/-- If no occurrence is left out, all are replaced. -/
theorem replaceAll_eq (hpiece : LiesApart piece) (h : Exchanged piece value count t u)
    (hall : occurrences piece t = count) : replaceAll t piece value = u := by
  induction h with
  | none t => exact replaceAll_of_occurrences_eq_zero hall
  | next s h ih =>
      rw [hpiece.occurrences_append] at hall
      have hle := h.le_occurrences hpiece
      rw [hpiece.replaceAll_append, replaceAll_of_occurrences_eq_zero (t := s) (by omega), ih (by omega)]

/-- If replacing all occurrences leads to the same text as exchanging some, none is left out. -/
theorem eq_or_occurrences_eq (hpiece : LiesApart piece) (h : Exchanged piece value count t u)
    (hsame : replaceAll t piece value = u) : value = piece ∨ occurrences piece t = count := by
  by_cases hlength : value.length = piece.length
  · -- what stands between the exchanged occurrences keeps its length, so the two texts agree in each part
    induction h with
    | none t => exact hpiece.eq_or_occurrences_eq_zero hsame
    | next s h ih =>
        have hs := hpiece.length_replaceAll value s
        rw [hlength, Nat.add_right_cancel_iff] at hs
        rw [hpiece.replaceAll_append] at hsame
        obtain ⟨hfront, hback⟩ := List.append_inj hsame (by simp only [List.length_append, hs])
        have hhere := List.append_inj_left hfront hs
        rcases hpiece.eq_or_occurrences_eq_zero hhere with heq | hzero
        · exact .inl heq
        · refine (ih hback).imp_right fun hall => ?_
          rw [hpiece.occurrences_append, hzero, hall, Nat.zero_add]
  · refine .inr ?_
    have hall := hpiece.length_replaceAll value t
    have hsome := h.length_eq
    rw [hsame] at hall
    have hle := h.le_occurrences hpiece
    obtain ⟨left, hleft⟩ := Nat.exists_eq_add_of_le hle
    rw [hleft, Nat.add_mul, Nat.add_mul] at hall
    have hnone : left * piece.length = left * value.length := by omega
    rcases Nat.eq_zero_or_pos left with rfl | hpos
    · exact hleft
    · exact absurd (Nat.eq_of_mul_eq_mul_left hpos hnone).symm hlength

/-- Replacing all occurrences leads to the text with some of them exchanged if and only if these are all, or the piece
is replaced by itself. -/
theorem replaceAll_eq_iff (hpiece : LiesApart piece) (h : Exchanged piece value count t u) :
    replaceAll t piece value = u ↔ value = piece ∨ occurrences piece t = count := by
  refine ⟨h.eq_or_occurrences_eq hpiece, ?_⟩
  rintro (rfl | hall)
  · exact (replaceAll_self hpiece.ne_nil t).trans h.eq_of_value_eq
  · exact h.replaceAll_eq hpiece hall

end Exchanged

end LosslessSyntax.Text
