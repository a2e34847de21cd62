import LosslessSyntax.Proofs.Token.Allowed
import LosslessSyntax.Proofs.Token.Longest

/-! Numbers. Where a digit stands, or a point with a digit behind it, the token is the longest front of what is left
that the grammar allows for a number. Digits, fraction and exponent are each read as far as they go, and none of them
can begin inside another, so together they go as far as a number can. The flags tell how the number is written. -/

namespace LosslessSyntax

namespace Text

/-- What a decimal number has in front of its exponent: digits, with a fraction or none, or only a fraction, whose
point a digit follows. -/
inductive IsMantissa : Text → Prop where
  | whole {d : Char} {ds fraction : Text} (hd : isDigit d = true) (hds : ds.IsDigits isDigit)
      (hfraction : fraction.IsFraction) : IsMantissa (d :: ds ++ fraction)
  | pointed {d : Char} {ds : Text} (hd : isDigit d = true) (hds : ds.IsDigits isDigit) : IsMantissa ('.' :: d :: ds)

/-- Whether the text is a decimal number. -/
def IsDecimal (t : Text) : Prop := IsJoined IsMantissa IsExponent t

/-- Whether a number begins the text: a digit stands there, or a point with a digit behind it. -/
inductive BeginsNumber : Text → Prop where
  | digit {d : Char} {t : Text} (hd : isDigit d = true) : BeginsNumber (d :: t)
  | point {d : Char} {t : Text} (hd : isDigit d = true) : BeginsNumber ('.' :: d :: t)

theorem allows_number_iff {t : Text} :
    Kind.number.Allows t ↔ t.IsDecimal ∨
      ∃ letter p ds, digitsOfBase? letter = some p ∧ IsDigits p ds ∧ t = '0' :: letter :: ds := by
  constructor
  · intro h
    cases h with
    | decimal hd hds hfraction hexponent => exact .inl ⟨_, _, .whole hd hds hfraction, hexponent, rfl⟩
    | pointed hd hds hexponent => exact .inl ⟨_, _, .pointed hd hds, hexponent, rfl⟩
    | based hp hds => exact .inr ⟨_, _, _, hp, hds, rfl⟩
  · rintro (⟨m, e, hm, he, rfl⟩ | ⟨letter, p, ds, hp, hds, rfl⟩)
    · cases hm with
      | whole hd hds hfraction => exact .decimal hd hds hfraction he
      | pointed hd hds => exact .pointed hd hds he
    · exact .based hp hds

/-- Behind a zero and the letter of a base a decimal number does not go on. -/
theorem IsDecimal.length_le_one {letter : Char} {p : Char → Bool} (hp : digitsOfBase? letter = some p) {t u : Text}
    (ht : t.IsDecimal) (hfront : t <+: '0' :: letter :: u) : t.length ≤ 1 := by
  obtain ⟨m, e, hm, he, rfl⟩ := ht
  cases hm with
  | pointed => exact absurd (List.cons_prefix_cons.mp hfront).1 (by decide)
  | @whole d ds fraction hd hds hfraction =>
      have hnothing : IsApart [] := fun c hc => by cases hc
      have hnone := Reading.digitsOfBase?_head hds hfraction he hnothing
      rw [List.append_nil] at hnone
      have hbehind : ds ++ fraction ++ e <+: letter :: u := (List.cons_prefix_cons.mp hfront).2
      cases htail : ds ++ fraction ++ e with
      | nil => exact Nat.succ_le_succ (Nat.le_of_eq (congrArg List.length htail))
      | cons c v =>
          rw [htail] at hnone hbehind
          obtain ⟨rfl, -⟩ := List.cons_prefix_cons.mp hbehind
          rw [hnone c rfl] at hp
          cases hp

end Text

namespace Reading

open Text

variable {t : Text}

/-! ### The parts of a number -/

theorem isLongest_digits (p : Char → Bool) (t : Text) : IsLongest (IsDigits p) t (digits p t).1 :=
  isLongest_takeWhile (fun c => c = '_' || p c) t

theorem digits_of_isDigit {d : Char} (hd : isDigit d = true) (t : Text) :
    digits isDigit (d :: t) = (d :: (digits isDigit t).1, (digits isDigit t).2) := by
  simp [digits, run, hd]

theorem isLongest_fraction (t : Text) : IsLongest IsFraction t (fraction t).1 := by
  cases t with
  | nil => exact ⟨List.prefix_rfl, .none, fun q hq _ => hq.length_le⟩
  | cons c t =>
      rw [fraction]
      split
      · next hc =>
          subst hc
          have hdigits := isLongest_digits isDigit t
          refine ⟨List.cons_prefix_cons.mpr ⟨rfl, hdigits.isPrefix⟩, .some hdigits.holds, ?_⟩
          rintro _ hfront (_ | hds)
          · exact Nat.zero_le _
          · exact Nat.succ_le_succ (hdigits.length_le _ (List.cons_prefix_cons.mp hfront).2 hds)
      · next hc =>
          refine ⟨List.nil_prefix, .none, ?_⟩
          rintro _ hfront (_ | _)
          · exact Nat.le_refl _
          · exact absurd (List.cons_prefix_cons.mp hfront).1.symm hc

theorem sign_cases (t : Text) : (sign t).1 = [] ∨ (sign t).1 = ['+'] ∨ (sign t).1 = ['-'] := by
  cases t with
  | nil => exact .inl rfl
  | cons c t =>
      rw [sign]
      split
      · next hc =>
          rw [Bool.or_eq_true, decide_eq_true_eq, decide_eq_true_eq] at hc
          rcases hc with rfl | rfl
          · exact .inr (.inl rfl)
          · exact .inr (.inr rfl)
      · exact .inl rfl

/-- An optional sign with a digit behind it is split off in front of that digit. -/
theorem sign_of_front {s ds : Text} {d : Char} (hs : s = [] ∨ s = ['+'] ∨ s = ['-']) (hd : isDigit d = true)
    (hfront : s ++ d :: ds <+: t) : (sign t).1 = s ∧ d :: ds <+: (sign t).2 := by
  obtain ⟨v, rfl⟩ := hfront
  rw [List.append_assoc, List.cons_append, sign_append_of_isDigit hs hd]
  exact ⟨rfl, List.prefix_append (d :: ds) v⟩

theorem isExponent_sign_digits {e : Char} (he : e = 'e' ∨ e = 'E') (hdigit : (sign t).2.head?.any isDigit = true) :
    IsExponent (e :: (sign t).1 ++ (digits isDigit (sign t).2).1) := by
  cases hbehind : (sign t).2 with
  | nil =>
      rw [hbehind] at hdigit
      cases hdigit
  | cons d v =>
      rw [hbehind] at hdigit
      rw [digits_of_isDigit hdigit]
      exact .some he (sign_cases t) hdigit (isLongest_digits isDigit v).holds

theorem isLongest_exponent (t : Text) : IsLongest IsExponent t (exponent t).1 := by
  cases t with
  | nil => exact ⟨List.prefix_rfl, .none, fun q hq _ => hq.length_le⟩
  | cons e t =>
      simp only [exponent]
      split
      · next h =>
          simp only [Bool.and_eq_true, Bool.or_eq_true, decide_eq_true_eq] at h
          obtain ⟨hletter, hdigit⟩ := h
          have hdigits := isLongest_digits isDigit (sign t).2
          refine ⟨List.cons_prefix_cons.mpr ⟨rfl, ?_⟩, isExponent_sign_digits hletter hdigit, ?_⟩
          · have happend := (List.prefix_append_right_inj (sign t).1).mpr hdigits.isPrefix
            rwa [sign_append] at happend
          · rintro _ hfront (_ | ⟨-, hs, hd, hds⟩)
            · exact Nat.zero_le _
            · obtain ⟨hsign, hbehind⟩ := sign_of_front hs hd (List.cons_prefix_cons.mp hfront).2
              have hle := hdigits.length_le _ hbehind (isDigits_cons hd hds)
              simp only [List.length_cons, List.length_append, hsign] at hle ⊢
              omega
      · next h =>
          refine ⟨List.nil_prefix, .none, ?_⟩
          rintro _ hfront (_ | ⟨hf, hs, hd, -⟩)
          · exact Nat.le_refl _
          · obtain ⟨rfl, hrest⟩ := List.cons_prefix_cons.mp hfront
            obtain ⟨-, v, hv⟩ := sign_of_front hs hd hrest
            refine absurd ?_ h
            rw [← hv]
            simpa [hd] using hf

/-! ### Decimal numbers -/

/-- The part of a decimal number in front of its exponent, as it is read. -/
def mantissa (t : Text) : Text := (digits isDigit t).1 ++ (fraction (digits isDigit t).2).1

/-- The exponent of a decimal number, as it is read. -/
def power (t : Text) : Text := (exponent (fraction (digits isDigit t).2).2).1

theorem text_decimal (t : Text) : (decimal t).text = mantissa t ++ power t := rfl

theorem flags_decimal (t : Text) :
    (decimal t).flags = { scientific := !(power t).isEmpty, separated := (decimal t).text.contains '_' } := rfl

theorem isExponent_power (t : Text) : IsExponent (power t) := (isLongest_exponent _).holds

theorem isMantissa_mantissa (h : t.BeginsNumber) : IsMantissa (mantissa t) := by
  cases h with
  | @digit d t hd =>
      rw [mantissa, digits_of_isDigit hd]
      exact .whole hd (isLongest_digits isDigit t).holds (isLongest_fraction _).holds
  | @point d t hd =>
      have hnone : digits isDigit ('.' :: d :: t) = ([], '.' :: d :: t) := by simp [digits, run, isDigit]
      rw [mantissa, hnone, fraction, if_pos rfl, digits_of_isDigit hd]
      exact .pointed hd (isLongest_digits isDigit t).holds

theorem mem_mantissa {c : Char} (hc : c ∈ mantissa t) : (c = '_' || isDigit c) = true ∨ c = '.' := by
  rcases List.mem_append.mp hc with hc | hc
  · exact .inl ((isLongest_digits isDigit t).holds c hc)
  · have hfraction := (isLongest_fraction (digits isDigit t).2).holds
    generalize (fraction (digits isDigit t).2).1 = part at hc hfraction
    cases hfraction with
    | none => cases hc
    | some hds =>
        rcases List.mem_cons.mp hc with hc | hc
        · exact .inr hc
        · exact .inl (hds c hc)

theorem not_isExponent_of_mem_mantissa {c : Char} (hc : c ∈ mantissa t) (u : Text) : ¬ IsExponent (c :: u) := by
  rintro (_ | ⟨he, -, -, -⟩)
  rcases mem_mantissa hc with hc | rfl
  · rcases he with rfl | rfl <;> cases hc
  · rcases he with he | he <;> cases he

/-- Digits, fraction and exponent go as far as any of their kinds do one behind the other. -/
theorem isLongest_decimal (t : Text) :
    IsLongest (IsJoined (IsJoined (IsDigits isDigit) IsFraction) IsExponent) t (decimal t).text := by
  have hmantissa : IsLongest (IsJoined (IsDigits isDigit) IsFraction) t (mantissa t) := by
    refine .append (digits_append isDigit t) (isLongest_digits isDigit t) (isLongest_fraction _) ?_
    rintro c hc w (_ | _)
    cases (isLongest_digits isDigit t).holds '.' hc
  refine .append ?_ hmantissa (isLongest_exponent _) fun c hc w => not_isExponent_of_mem_mantissa hc w
  show mantissa t ++ (fraction (digits isDigit t).2).2 = t
  rw [mantissa, List.append_assoc, fraction_append, digits_append]

theorem isJoined_of_isDecimal (h : t.IsDecimal) : IsJoined (IsJoined (IsDigits isDigit) IsFraction) IsExponent t := by
  obtain ⟨m, e, hm, he, rfl⟩ := h
  cases hm with
  | whole hd hds hfraction => exact ⟨_, e, ⟨_, _, isDigits_cons hd hds, hfraction, rfl⟩, he, rfl⟩
  | pointed hd hds => exact ⟨_, e, ⟨[], _, List.forall_mem_nil _, .some (isDigits_cons hd hds), rfl⟩, he, rfl⟩

/-! ### Numbers -/

/-- A number is written in a base, if a zero and its letter begin it, and else decimal. -/
theorem number_cases (t : Text) :
    (∃ letter p u, t = '0' :: letter :: u ∧ digitsOfBase? letter = some p ∧
      number t = based '0' letter p (.ofBase letter) u) ∨
    number t = decimal t ∧ ∀ letter u, t = '0' :: letter :: u → digitsOfBase? letter = none := by
  by_cases hbase : ∃ letter p u, t = '0' :: letter :: u ∧ digitsOfBase? letter = some p
  · obtain ⟨letter, p, u, rfl, hp⟩ := hbase
    exact .inl ⟨letter, p, u, rfl, hp, number_of_digitsOfBase? hp u⟩
  · have hnone : ∀ letter u, t = '0' :: letter :: u → digitsOfBase? letter = none := fun letter u heq =>
      Option.eq_none_iff_forall_ne_some.mpr fun p hp => hbase ⟨letter, p, u, heq, hp⟩
    exact .inr ⟨number_eq_decimal hnone, hnone⟩

/-- A number is read as far as the grammar allows. -/
theorem isLongest_number (h : t.BeginsNumber) : IsLongest Kind.number.Allows t (number t).text := by
  rcases number_cases t with ⟨letter, p, u, rfl, hp, hread⟩ | ⟨hread, hnone⟩
  · have hdigits := isLongest_digits p u
    rw [hread]
    refine ⟨?_, .based hp hdigits.holds, fun q hfront hq => ?_⟩
    · exact List.cons_prefix_cons.mpr ⟨rfl, List.cons_prefix_cons.mpr ⟨rfl, hdigits.isPrefix⟩⟩
    · rcases allows_number_iff.mp hq with hq | ⟨other, r, ds, hr, hds, rfl⟩
      · exact Nat.le_trans (hq.length_le_one hp hfront) (Nat.succ_le_succ (Nat.zero_le _))
      · obtain ⟨-, hbehind⟩ := List.cons_prefix_cons.mp hfront
        obtain ⟨rfl, hrest⟩ := List.cons_prefix_cons.mp hbehind
        obtain rfl : p = r := Option.some.inj (hp.symm.trans hr)
        exact Nat.succ_le_succ (Nat.succ_le_succ (hdigits.length_le ds hrest hds))
  · have hlongest := isLongest_decimal t
    rw [hread]
    refine ⟨hlongest.isPrefix, ?_, fun q hfront hq => ?_⟩
    · exact allows_number_iff.mpr (.inl ⟨_, _, isMantissa_mantissa h, isExponent_power t, rfl⟩)
    · rcases allows_number_iff.mp hq with hq | ⟨letter, p, ds, hp, -, rfl⟩
      · exact hlongest.length_le q hfront (isJoined_of_isDecimal hq)
      · obtain ⟨u, rfl⟩ := hfront
        rw [hnone letter (ds ++ u) rfl] at hp
        cases hp

end Reading

/-- Whether the text begins with a zero and one of the two letters of a base. -/
def Text.BeginsBase (lower upper : Char) (t : Text) : Prop := ['0', lower] <+: t ∨ ['0', upper] <+: t

open Text in
/-- Whether flags tell how a number is written: in which base, if not decimal, whether with an exponent, and whether
with underscores. -/
structure Flags.DescribesNumber (f : Flags) (t : Text) : Prop where
  hex : f.hex = true ↔ t.BeginsBase 'x' 'X'
  binary : f.binary = true ↔ t.BeginsBase 'b' 'B'
  octal : f.octal = true ↔ t.BeginsBase 'o' 'O'
  scientific : f.scientific = true ↔ ∃ m e, IsMantissa m ∧ IsExponent e ∧ e ≠ [] ∧ t = m ++ e
  separated : f.separated = true ↔ '_' ∈ t
  unterminated : f.unterminated = false

namespace Reading

open Text

variable {t : Text}

theorem beginsBase_cons {letter lower upper : Char} {u : Text} :
    BeginsBase lower upper ('0' :: letter :: u) ↔ letter = lower ∨ letter = upper := by
  simp [BeginsBase, List.cons_prefix_cons, eq_comm]

theorem describesNumber_based {letter : Char} {p : Char → Bool} (hp : digitsOfBase? letter = some p) {ds : Text} :
    Flags.DescribesNumber { Flags.ofBase letter with separated := ds.contains '_' } ('0' :: letter :: ds) where
  hex := by simp [Flags.ofBase, beginsBase_cons]
  binary := by simp [Flags.ofBase, beginsBase_cons]
  octal := by simp [Flags.ofBase, beginsBase_cons]
  scientific := by
    refine iff_of_false (fun h => by cases h) ?_
    rintro ⟨m, e, hm, he, -, heq⟩
    have hlength := IsDecimal.length_le_one (u := ds) hp ⟨m, e, hm, he, heq⟩ List.prefix_rfl
    simp at hlength
  separated := by
    have hletter : '_' ≠ letter := by
      rintro rfl
      cases hp
    simp [hletter]
  unterminated := rfl

/-- A decimal number has an exponent where one is read: none can stand inside what is in front of it. -/
theorem power_ne_nil_iff (h : t.BeginsNumber) :
    power t ≠ [] ↔ ∃ m e, IsMantissa m ∧ IsExponent e ∧ e ≠ [] ∧ (decimal t).text = m ++ e := by
  constructor
  · exact fun hpower => ⟨_, _, isMantissa_mantissa h, isExponent_power t, hpower, rfl⟩
  · rintro ⟨m, e, -, he, hne, heq⟩ hnone
    obtain ⟨c, u, rfl⟩ := List.exists_cons_of_ne_nil hne
    rw [text_decimal, hnone, List.append_nil] at heq
    have hc : c ∈ mantissa t := heq ▸ List.mem_append_right m List.mem_cons_self
    exact not_isExponent_of_mem_mantissa hc u he

theorem describesNumber_decimal (h : t.BeginsNumber)
    (hnone : ∀ letter u, t = '0' :: letter :: u → digitsOfBase? letter = none) :
    (decimal t).flags.DescribesNumber (decimal t).text := by
  have hbase : ∀ {lower upper : Char}, digitsOfBase? lower ≠ none → digitsOfBase? upper ≠ none →
      ¬ BeginsBase lower upper (decimal t).text := by
    rintro lower upper hlower hupper (hfront | hfront)
    all_goals
      obtain ⟨u, hu⟩ := hfront.trans (isLongest_decimal t).isPrefix
    · exact hlower (hnone lower u hu.symm)
    · exact hupper (hnone upper u hu.symm)
  rw [flags_decimal]
  refine ⟨?_, ?_, ?_, ?_, ?_, rfl⟩
  · exact iff_of_false (fun h => by cases h) (hbase (by decide) (by decide))
  · exact iff_of_false (fun h => by cases h) (hbase (by decide) (by decide))
  · exact iff_of_false (fun h => by cases h) (hbase (by decide) (by decide))
  · simpa using power_ne_nil_iff h
  · simp

theorem describesNumber_number (h : t.BeginsNumber) : (number t).flags.DescribesNumber (number t).text := by
  rcases number_cases t with ⟨letter, p, u, rfl, hp, hread⟩ | ⟨hread, hnone⟩
  · rw [hread]
    exact describesNumber_based hp
  · rw [hread]
    exact describesNumber_decimal h hnone

theorem read_of_beginsNumber {c : Char} {u : Text} (h : BeginsNumber (c :: u)) : read c u = number (c :: u) := by
  have hslash : c ≠ '/' := by
    rintro rfl
    cases h with
    | digit hd => cases hd
  have hnumber : (isDigit c || decide (c = '.') && u.head?.any isDigit) = true := by
    cases h with
    | digit hd => simp [hd]
    | point hd => simp [hd]
  simp [read, hslash, hnumber]

end Reading

/-- Where a number begins, the token is the longest front that is one, and its flags say how it is written. -/
theorem Token.isLongest_of_beginsNumber {source rest : Text} {t : Token} (ht : t.IsCutAt source rest)
    (hnumber : rest.BeginsNumber) :
    t.kind = .number ∧ Text.IsLongest Kind.number.Allows rest t.text ∧ t.flags.DescribesNumber t.text := by
  obtain ⟨c, u, place, offset, rfl, htoken⟩ := ht.exists_read
  rw [Reading.read_of_beginsNumber hnumber] at htoken
  rw [htoken]
  exact ⟨Reading.kind_number _, Reading.isLongest_number hnumber, Reading.describesNumber_number hnumber⟩

/-- A fraction that begins with an underscore, and one exponent: a second one does not belong to the number. -/
theorem Token.isLongest_of_beginsNumber_exponent :
    let source : Text := ['x', '=', '1', '.', '_', '5', 'e', '-', '3', '_', '0', 'e', '+', '0', 'x', '_']
    let t : Token := ⟨.number, ['1', '.', '_', '5', 'e', '-', '3', '_', '0'], ⟨1, 3⟩, 2,
      { scientific := true, separated := true }⟩
    t.IsCutAt source (source.drop 2) ∧ Text.BeginsNumber (source.drop 2) ∧
      Text.IsLongest Kind.number.Allows (source.drop 2) t.text ∧ t.flags.DescribesNumber t.text := by
  intro source t
  have ht : t.IsCutAt source (source.drop 2) := ⟨(tokenize source).take 2, (tokenize source).drop 3, by decide +kernel, by decide +kernel⟩
  have hnumber : Text.BeginsNumber (source.drop 2) := .digit rfl
  exact ⟨ht, hnumber, (isLongest_of_beginsNumber ht hnumber).2⟩

end LosslessSyntax
