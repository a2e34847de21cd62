import LosslessSyntax.Proofs.Token.Cut

/-! Longest matches. A token is read off what is left of the source where it begins. Of the fronts of that text which
have the form of a token the scanner takes the longest; for a form made of two parts one behind the other that is the
longest front of the first form and behind it the longest of the second, as long as no shorter front of the first
form could be followed by anything of the second. -/

namespace LosslessSyntax

namespace Text

/-- Whether `p` is the longest front of the text that has a property. -/
structure IsLongest (P : Text → Prop) (t p : Text) : Prop where
  isPrefix : p <+: t
  holds : P p
  length_le : ∀ q, q <+: t → P q → q.length ≤ p.length

/-- Whether the text is a text of the first form with one of the second behind it. -/
def IsJoined (P Q : Text → Prop) (t : Text) : Prop := ∃ a b, P a ∧ Q b ∧ t = a ++ b

namespace IsLongest

variable {P Q : Text → Prop} {t p q rest : Text}

/-- Forms one behind the other: no text of the second may begin inside the longest of the first. -/
theorem append (hsplit : p ++ rest = t) (hp : IsLongest P t p) (hq : IsLongest Q rest q)
    (hapart : ∀ c ∈ p, ∀ w, ¬ Q (c :: w)) : IsLongest (IsJoined P Q) t (p ++ q) where
  isPrefix := hsplit ▸ (List.prefix_append_right_inj p).mpr hq.isPrefix
  holds := ⟨p, q, hp.holds, hq.holds, rfl⟩
  length_le := by
    subst hsplit
    rintro _ hjoined ⟨a, b, ha, hb, rfl⟩
    have hfront : a <+: p ++ rest := (List.prefix_append a b).trans hjoined
    obtain ⟨u, rfl⟩ := List.prefix_of_prefix_length_le hfront (List.prefix_append p rest) (hp.length_le a hfront ha)
    cases u with
    | nil =>
        rw [List.append_nil, List.prefix_append_right_inj] at hjoined
        rw [List.append_nil, List.length_append, List.length_append]
        exact Nat.add_le_add_left (hq.length_le b hjoined hb) _
    | cons c u =>
        -- the first form ends early, so the second begins with a character of its longest front
        cases b with
        | nil => simp
        | cons d w =>
            rw [List.append_assoc, List.prefix_append_right_inj, List.cons_append] at hjoined
            obtain ⟨rfl, -⟩ := List.cons_prefix_cons.mp hjoined
            exact absurd hb (hapart d (List.mem_append_right a List.mem_cons_self) w)

end IsLongest

/-- The characters up to the first that is not in a class are the longest front with characters of the class only. -/
theorem isLongest_takeWhile (p : Char → Bool) (t : Text) :
    IsLongest (fun w => ∀ c ∈ w, p c = true) t (t.takeWhile p) where
  isPrefix := List.takeWhile_prefix p
  holds := fun c hc => List.all_eq_true.mp List.all_takeWhile c hc
  length_le := by
    rintro w ⟨u, rfl⟩ hw
    rw [List.takeWhile_append_of_pos hw, List.length_append]
    exact Nat.le_add_right _ _

end Text

namespace Token

/-- Whether `t` is a token of the source, and `rest` what is left of the source where it begins. -/
def IsCutAt (t : Token) (source rest : Text) : Prop :=
  ∃ front back, tokenize source = front ++ t :: back ∧ restore front ++ rest = source

theorem IsCutAt.exists_read {t : Token} {source rest : Text} (h : t.IsCutAt source rest) :
    ∃ c u place offset, rest = c :: u ∧ t = ofReading (Reading.read c u) place offset := by
  obtain ⟨front, back, htokens, hsource⟩ := h
  obtain ⟨text, place, htext, hcut⟩ := (htokens ▸ cut_tokenize source).of_append
  obtain rfl := List.append_cancel_left (hsource.trans htext)
  generalize 0 + (restore front).byteLength = offset at hcut
  cases hcut with
  | @cons c u r _ _ _ hread _ => exact ⟨c, u, place, offset, rfl, by rw [hread]⟩

end Token

end LosslessSyntax
