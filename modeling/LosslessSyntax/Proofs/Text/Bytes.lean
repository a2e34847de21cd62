import LosslessSyntax.Proofs.Text.Slice

/-! The bytes of a text. The UTF-8 form shows where characters begin: no byte that comes later in a character can come
first in one. So the bytes of one text stand among those of another only where its characters do, and what is looked
for in the bytes is first found where it is first found in the characters. -/

namespace LosslessSyntax

/-- Whether `found` is the first number with a property, or no number because none has it. -/
def IsFirst (p : Nat → Prop) : Option Nat → Prop
  | some n => p n ∧ ∀ m < n, ¬ p m
  | none => ∀ n, ¬ p n

namespace IsFirst

variable {p : Nat → Prop} {found other : Option Nat}

theorem unique (h : IsFirst p found) (hother : IsFirst p other) : found = other := by
  cases found with
  | none =>
      cases other with
      | none => rfl
      | some n => exact absurd hother.1 (h n)
  | some n =>
      cases other with
      | none => exact absurd h.1 (hother n)
      | some m =>
          rcases Nat.lt_trichotomy n m with hlt | heq | hlt
          · exact absurd h.1 (hother.2 n hlt)
          · exact congrArg some heq
          · exact absurd hother.1 (h.2 m hlt)

/-- What has the property neither at first nor behind that before `found` has it at `found` first. -/
theorem shift {k : Nat} (hfront : ∀ m < k, ¬ p m) (h : IsFirst (fun n => p (k + n)) found) :
    IsFirst p (found.map (k + ·)) := by
  have hback : ∀ m, (∀ n, m = k + n → ¬ p (k + n)) → ¬ p m := fun m hm => by
    by_cases hlt : m < k
    · exact hfront m hlt
    · have heq : m = k + (m - k) := by omega
      rw [heq]
      exact hm _ heq
  cases found with
  | none => exact fun m => hback m fun n _ => h n
  | some n =>
      refine ⟨h.1, fun m hm => hback m fun l hl => h.2 l ?_⟩
      rw [hl] at hm
      exact Nat.lt_of_add_lt_add_left hm

end IsFirst

namespace Text

/-- The UTF-8 form of a text, byte by byte. -/
def bytes (t : Text) : List UInt8 := t.flatMap String.utf8EncodeChar

@[simp] theorem bytes_nil : bytes [] = [] := rfl

@[simp] theorem bytes_cons (c : Char) (t : Text) : bytes (c :: t) = String.utf8EncodeChar c ++ bytes t := rfl

@[simp] theorem bytes_append (s t : Text) : bytes (s ++ t) = bytes s ++ bytes t := List.flatMap_append

theorem utf8Encode_eq (t : Text) : t.utf8Encode = t.bytes.toByteArray := rfl

@[simp] theorem length_bytes (t : Text) : t.bytes.length = t.byteLength := by
  rw [← size_utf8Encode, utf8Encode_eq, List.size_toByteArray]

theorem drop_bytes_append (front back : Text) (n : Nat) :
    (bytes (front ++ back)).drop (front.byteLength + n) = (bytes back).drop n := by
  rw [bytes_append, ← length_bytes, List.drop_length_add_append]

/-- The bytes of a character tell it, whatever comes behind them. -/
theorem eq_of_utf8EncodeChar_append {c d : Char} {r s : List UInt8}
    (h : String.utf8EncodeChar c ++ r = String.utf8EncodeChar d ++ s) : c = d := by
  have hdecode := congrArg (fun l => ByteArray.utf8DecodeChar? l.toByteArray 0) h
  simpa only [List.toByteArray_append, ByteArray.utf8DecodeChar?_utf8EncodeChar_append, Option.some.injEq] using hdecode

theorem prefix_of_bytes_prefix {p t : Text} (h : p.bytes <+: t.bytes) : p <+: t := by
  induction p generalizing t with
  | nil => exact List.nil_prefix
  | cons c p ih =>
      obtain ⟨r, hr⟩ := h
      cases t with
      | nil => simp at hr
      | cons d t =>
          rw [bytes_cons, bytes_cons, List.append_assoc] at hr
          obtain rfl := eq_of_utf8EncodeChar_append hr
          exact List.cons_prefix_cons.mpr ⟨rfl, ih ⟨r, List.append_cancel_left hr⟩⟩

/-- The first byte of a character comes later in none. -/
theorem not_prefix_drop_utf8EncodeChar {c d : Char} {n : Nat} (hpos : 0 < n) (hn : n < c.utf8Size) (r s : List UInt8) :
    String.utf8EncodeChar d ++ r ≠ (String.utf8EncodeChar c).drop n ++ s := by
  intro h
  have hlength : n < (String.utf8EncodeChar c).length := by rwa [String.length_utf8EncodeChar]
  have hfirst : 0 < (String.utf8EncodeChar d).length := by
    rw [String.length_utf8EncodeChar]
    exact d.utf8Size_pos
  have hbyte : (String.utf8EncodeChar d)[0] = (String.utf8EncodeChar c)[n] := by
    have hhead := congrArg (·[0]?) h
    rwa [List.drop_eq_getElem_cons hlength, List.getElem?_append_left hfirst, List.getElem?_eq_getElem hfirst,
      List.cons_append, List.getElem?_cons_zero, Option.some.injEq] at hhead
  have hlead : (String.utf8EncodeChar c)[n].IsUTF8FirstByte := by
    rw [← hbyte]
    exact UInt8.isUTF8FirstByte_getElem_utf8EncodeChar.mpr rfl
  exact absurd (UInt8.isUTF8FirstByte_getElem_utf8EncodeChar.mp hlead) (Nat.ne_of_gt hpos)

/-- The bytes of a text stand in those of another where its characters do, and nowhere else. -/
theorem bytes_prefix_drop_iff {p t : Text} (hp : p ≠ []) {n : Nat} :
    p.bytes <+: t.bytes.drop n ↔ ∃ front back, front ++ back = t ∧ front.byteLength = n ∧ p <+: back := by
  constructor
  · intro h
    induction t generalizing n with
    | nil =>
        obtain ⟨c, u, rfl⟩ := List.exists_cons_of_ne_nil hp
        simp at h
    | cons c t ih =>
        by_cases hzero : n = 0
        · subst hzero
          exact ⟨[], c :: t, rfl, rfl, prefix_of_bytes_prefix h⟩
        by_cases hinside : n < c.utf8Size
        · obtain ⟨d, u, rfl⟩ := List.exists_cons_of_ne_nil hp
          obtain ⟨r, hr⟩ := h
          rw [bytes_cons, bytes_cons, List.append_assoc,
            List.drop_append_of_le_length (by rw [String.length_utf8EncodeChar]; omega)] at hr
          exact absurd hr (not_prefix_drop_utf8EncodeChar (Nat.pos_of_ne_zero hzero) hinside _ _)
        · obtain ⟨m, rfl⟩ : ∃ m, n = c.utf8Size + m := ⟨n - c.utf8Size, by omega⟩
          have hdrop : (bytes (c :: t)).drop (c.utf8Size + m) = (bytes t).drop m := by
            simpa using drop_bytes_append [c] t m
          rw [hdrop] at h
          obtain ⟨front, back, rfl, rfl, hback⟩ := ih h
          exact ⟨c :: front, back, rfl, rfl, hback⟩
  · rintro ⟨front, back, rfl, rfl, u, rfl⟩
    have hdrop := drop_bytes_append front (p ++ u) 0
    rw [Nat.add_zero, List.drop_zero] at hdrop
    rw [hdrop, bytes_append]
    exact List.prefix_append _ _

/-! ### First places -/

/-- Whether `found` splits the text at the first place where what is left has a property, or is nothing because there
is no such place. -/
def IsFirstSplit (p : Text → Prop) (t : Text) : Option (Text × Text) → Prop
  | some (front, back) => front ++ back = t ∧ p back ∧ ∀ f b, f ++ b = t → p b → front.length ≤ f.length
  | none => ∀ f b, f ++ b = t → ¬ p b

namespace IsFirstSplit

variable {p : Text → Prop} {t : Text} {found : Option (Text × Text)}

theorem nil (h : ¬ p []) : IsFirstSplit p [] none := by
  rintro f b hsplit
  rwa [(List.append_eq_nil_iff.mp hsplit).2]

theorem here (h : p t) : IsFirstSplit p t (some ([], t)) :=
  ⟨rfl, h, fun _ _ _ _ => Nat.zero_le _⟩

theorem cons {c : Char} (hc : ¬ p (c :: t)) (h : IsFirstSplit p t found) :
    IsFirstSplit p (c :: t) (found.map fun (front, back) => (c :: front, back)) := by
  have hback : ∀ f b, f ++ b = c :: t → p b → ∃ g, f = c :: g ∧ g ++ b = t := fun f b hsplit hb => by
    cases f with
    | nil =>
        rw [List.nil_append] at hsplit
        exact absurd (hsplit ▸ hb) hc
    | cons d g =>
        obtain ⟨rfl, hg⟩ := List.cons.inj hsplit
        exact ⟨g, rfl, hg⟩
  cases found with
  | none =>
      intro f b hsplit hb
      obtain ⟨g, -, hg⟩ := hback f b hsplit hb
      exact h g b hg hb
  | some split =>
      obtain ⟨hsplit, hholds, hfirst⟩ := h
      refine ⟨congrArg (c :: ·) hsplit, hholds, fun f b hsplit hb => ?_⟩
      obtain ⟨g, rfl, hg⟩ := hback f b hsplit hb
      exact Nat.succ_le_succ (hfirst g b hg hb)

/-- The first place in the characters is the first place in the bytes. -/
theorem isFirst (h : IsFirstSplit p t found) :
    IsFirst (fun n => ∃ front back, front ++ back = t ∧ front.byteLength = n ∧ p back)
      (found.map fun split => split.1.byteLength) := by
  cases found with
  | none =>
      rintro n ⟨front, back, hsplit, -, hback⟩
      exact h front back hsplit hback
  | some split =>
      obtain ⟨hsplit, hholds, hfirst⟩ := h
      refine ⟨⟨_, _, hsplit, rfl, hholds⟩, ?_⟩
      rintro m hm ⟨f, b, hother, rfl, hb⟩
      obtain ⟨u, rfl⟩ : split.1 <+: f :=
        List.prefix_of_prefix_length_le ⟨_, hsplit⟩ ⟨_, hother⟩ (hfirst f b hother hb)
      rw [byteLength_append] at hm
      exact absurd hm (Nat.not_lt.mpr (Nat.le_add_right _ _))

end IsFirstSplit

end Text

end LosslessSyntax
