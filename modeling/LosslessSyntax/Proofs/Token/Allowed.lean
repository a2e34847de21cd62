import LosslessSyntax.Proofs.Token.Orthography

/-! The texts that the grammar allows for tokens, kind by kind: symbols and keywords have one each, while names,
numbers and strings are described by what they are made of. Written with a blank or nothing behind it, every such
text is read as one token of its kind, and nothing of it is left over. -/

namespace LosslessSyntax

namespace Text

/-- Whether the text has digits only, and underscores to separate them. -/
def IsDigits (p : Char → Bool) (t : Text) : Prop := ∀ c ∈ t, (c = '_' || p c) = true

theorem isDigits_cons {p : Char → Bool} {d : Char} {ds : Text} (hd : p d = true) (hds : ds.IsDigits p) :
    IsDigits p (d :: ds) :=
  List.forall_mem_cons.mpr ⟨by rw [hd, Bool.or_true], hds⟩

/-- The fraction of a number: a point and digits, or nothing. -/
inductive IsFraction : Text → Prop where
  | none : IsFraction []
  | some {ds : Text} (hds : ds.IsDigits isDigit) : IsFraction ('.' :: ds)

/-- The exponent of a number: the letter, a sign or none, and digits; or nothing. -/
inductive IsExponent : Text → Prop where
  | none : IsExponent []
  | some {e d : Char} {sign ds : Text} (he : e = 'e' ∨ e = 'E') (hsign : sign = [] ∨ sign = ['+'] ∨ sign = ['-'])
      (hd : isDigit d = true) (hds : ds.IsDigits isDigit) : IsExponent (e :: (sign ++ d :: ds))

/-- What follows the opening quote of a string, up to the closing one. Behind a backslash anything may stand. -/
inductive IsQuoted (quote : Char) : Text → Prop where
  | close : IsQuoted quote [quote]
  | plain {c : Char} {t : Text} (hquote : c ≠ quote) (hescape : c ≠ '\\') (hbreak : isLineBreak c = false)
      (h : IsQuoted quote t) : IsQuoted quote (c :: t)
  | escape {c : Char} {t : Text} (h : IsQuoted quote t) : IsQuoted quote ('\\' :: c :: t)

/-- Whether the text is empty or begins with a blank. -/
def IsApart (t : Text) : Prop := ∀ c ∈ t.head?, c = ' '

end Text

/-- The digits of the base with this letter. -/
def digitsOfBase? (letter : Char) : Option (Char → Bool) :=
  if letter = 'x' || letter = 'X' then some isHexDigit
  else if letter = 'b' || letter = 'B' then some isBinaryDigit
  else if letter = 'o' || letter = 'O' then some isOctalDigit
  else none

/-- The note that a number is written in the base with this letter. -/
def Flags.ofBase (letter : Char) : Flags where
  hex := letter = 'x' || letter = 'X'
  binary := letter = 'b' || letter = 'B'
  octal := letter = 'o' || letter = 'O'

namespace Kind

/-- The texts that the grammar allows for a token of a kind. -/
inductive Allows : Kind → Text → Prop where
  | symbol (s : Symbol) : Allows (.symbol s) s.text
  | keyword (k : Keyword) : Allows (.keyword k) k.text
  | identifier {c : Char} {t : Text} (hc : isIdentifierStart c = true) (ht : ∀ d ∈ t, isIdentifierPart d = true)
      (hword : Keyword.ofText? (c :: t) = none) : Allows .identifier (c :: t)
  | string {quote : Char} {t : Text} (hquote : quote = '\'' ∨ quote = '"') (ht : t.IsQuoted quote) :
      Allows .string (quote :: t)
  | decimal {d : Char} {ds fraction exponent : Text} (hd : isDigit d = true) (hds : ds.IsDigits isDigit)
      (hfraction : fraction.IsFraction) (hexponent : exponent.IsExponent) :
      Allows .number (d :: ds ++ fraction ++ exponent)
  | pointed {d : Char} {ds exponent : Text} (hd : isDigit d = true) (hds : ds.IsDigits isDigit)
      (hexponent : exponent.IsExponent) : Allows .number ('.' :: d :: ds ++ exponent)
  | based {letter : Char} {p : Char → Bool} {ds : Text} (hp : digitsOfBase? letter = some p) (hds : ds.IsDigits p) :
      Allows .number ('0' :: letter :: ds)

/-- Of a kind with a spelling of its own only this spelling is allowed. -/
theorem Allows.text_eq {k : Kind} {t text : Text} (h : k.Allows t) (hk : k.text? = some text) : t = text := by
  cases h with
  | symbol | keyword => exact Option.some.inj hk
  | _ => cases hk

end Kind

/-! ### Names -/

theorem identifierStartRanges_apart : ∀ r ∈ identifierStartRanges, 0x80 ≤ r.1 ∧ (r.2 < 0x2000 ∨ 0x200a < r.1) := by
  decide +kernel

/-- An identifier may start with a few characters of ASCII, and beyond it with none of the narrow blanks. -/
theorem toNat_of_isIdentifierStart {c : Char} (h : isIdentifierStart c = true) :
    c = '_' ∨ c = '$' ∨ 0x41 ≤ c.toNat ∧ c.toNat < 0x2000 ∨ 0x200a < c.toNat := by
  simp only [isIdentifierStart, isAsciiLetter, Bool.or_eq_true, Bool.and_eq_true, decide_eq_true_eq, Char.le_def,
    UInt32.le_iff_toNat_le, CharRanges.contains_eq_true_iff] at h
  rcases h with ((h | h) | h) | ⟨r, hr, hfirst, hlast⟩
  · exact .inl h
  · exact .inr (.inl h)
  · have hbound : 0x41 ≤ c.val.toNat ∧ c.val.toNat ≤ 0x7a := by
      rcases h with ⟨hlow, hhigh⟩ | ⟨hlow, hhigh⟩
      · exact ⟨Nat.le_trans (by decide) hlow, hhigh⟩
      · exact ⟨hlow, Nat.le_trans hhigh (by decide)⟩
    refine .inr (.inr (.inl ?_))
    unfold Char.toNat
    omega
  · have := identifierStartRanges_apart r hr
    omega

theorem isDigit_iff {c : Char} : isDigit c = true ↔ 0x30 ≤ c.toNat ∧ c.toNat ≤ 0x39 := by
  simp only [isDigit, Bool.and_eq_true, decide_eq_true_eq, Char.le_def, UInt32.le_iff_toNat_le]
  rfl

variable {c : Char}

theorem isDigit_eq_false_of_isIdentifierStart (h : isIdentifierStart c = true) : isDigit c = false := by
  rw [← Bool.not_eq_true, isDigit_iff]
  intro hdigit
  rcases toNat_of_isIdentifierStart h with rfl | rfl | h | h
  · exact absurd hdigit (by decide)
  · exact absurd hdigit (by decide)
  · omega
  · omega

/-- The blanks apart from the run of narrow ones. -/
def scatteredBlanks : List Char :=
  [' ', '\t', '\x0b', '\x0c', '\u00a0', '\u1680', '\u202f', '\u205f', '\u3000', '\ufeff']

theorem mem_or_narrow_of_isBlank (h : isBlank c = true) :
    c ∈ scatteredBlanks ∨ 0x2000 ≤ c.toNat ∧ c.toNat ≤ 0x200a := by
  simp only [isBlank, Bool.or_eq_true, Bool.and_eq_true, decide_eq_true_eq, Char.le_def, UInt32.le_iff_toNat_le] at h
  simp only [scatteredBlanks, List.mem_cons, List.not_mem_nil, or_false]
  have hnarrow : '\u2000'.val.toNat = 0x2000 ∧ '\u200a'.val.toNat = 0x200a := ⟨rfl, rfl⟩
  rw [hnarrow.1, hnarrow.2] at h
  change _ ∨ 0x2000 ≤ c.val.toNat ∧ c.val.toNat ≤ 0x200a
  grind

/-- A class of characters without any of these has no blank. -/
theorem isBlank_eq_false_of {p : Char → Bool} (hscattered : scatteredBlanks.any p = false)
    (hnarrow : ∀ d : Char, 0x2000 ≤ d.toNat ∧ d.toNat ≤ 0x200a → ¬p d = true) (h : p c = true) :
    isBlank c = false := by
  rw [← Bool.not_eq_true]
  intro hblank
  exact (mem_or_narrow_of_isBlank hblank).elim (List.any_eq_false.mp hscattered c) (hnarrow c) h

theorem isBlank_eq_false_of_isIdentifierStart (h : isIdentifierStart c = true) : isBlank c = false := by
  refine isBlank_eq_false_of (by decide +kernel) (fun d hd hstart => ?_) h
  rcases toNat_of_isIdentifierStart hstart with rfl | rfl | hstart | hstart
  · exact absurd hd (by decide)
  · exact absurd hd (by decide)
  · omega
  · omega

theorem isBlank_eq_false_of_isDigit (h : isDigit c = true) : isBlank c = false := by
  refine isBlank_eq_false_of (by decide) (fun d hd => ?_) h
  rw [isDigit_iff]
  omega

theorem isLineBreak_eq_false_of_isIdentifierStart (h : isIdentifierStart c = true) : isLineBreak c = false := by
  rw [← Bool.not_eq_true]
  intro hbreak
  simp only [isLineBreak, Bool.or_eq_true, decide_eq_true_eq] at hbreak
  rcases hbreak with ((rfl | rfl) | rfl) | rfl
  all_goals exact absurd h (by decide +kernel)

theorem isIdentifierStart_of_isAsciiLetter (h : isAsciiLetter c = true) : isIdentifierStart c = true := by
  rw [isIdentifierStart, h, Bool.or_true, Bool.true_or]

/-- Keywords are spelled in letters of ASCII, so they have the form of names. -/
theorem Keyword.exists_text (w : Keyword) :
    ∃ c t, w.text = c :: t ∧ isIdentifierStart c = true ∧ ∀ d ∈ t, isIdentifierPart d = true := by
  have hletters : w.text.all isAsciiLetter = true := by cases w <;> decide
  have hne : w.text ≠ [] := by cases w <;> decide
  obtain ⟨c, t, htext⟩ := List.exists_cons_of_ne_nil hne
  rw [htext, List.all_eq_true] at hletters
  obtain ⟨hc, ht⟩ := List.forall_mem_cons.mp hletters
  exact ⟨c, t, htext, isIdentifierStart_of_isAsciiLetter hc, fun d hd =>
    isIdentifierPart_of_isIdentifierStart (isIdentifierStart_of_isAsciiLetter (ht d hd))⟩

theorem Symbol.isIdentifierStart_head (s : Symbol) : ∀ c ∈ s.text.head?, isIdentifierStart c = false := by
  cases s <;> simp only [Symbol.text, List.head?_cons, Option.mem_some_iff, forall_eq'] <;> decide +kernel

theorem Reading.symbol?_eq_none_of_isIdentifierStart (h : isIdentifierStart c = true) (t : Text) :
    symbol? (c :: t) = none := by
  cases hsymbol : symbol? (c :: t) with
  | none => rfl
  | some found =>
      obtain ⟨s, rest⟩ := found
      rw [s.isIdentifierStart_head c (mem_head?_of_symbol? hsymbol)] at h
      cases h

namespace Reading

variable {p : Char → Bool} {t u rest : Text}

/-! ### Runs of characters -/

theorem run_append_of_pos (ht : ∀ d ∈ t, p d = true) (hrest : ∀ d ∈ rest.head?, p d = false) :
    run p (t ++ rest) = (t, rest) := by
  rw [run, List.takeWhile_append_of_pos ht, List.dropWhile_append_of_pos ht]
  cases rest with
  | nil => simp
  | cons d rest => simp [hrest d rfl]

theorem digits_append_of_isDigits (ht : t.IsDigits p) (hrest : ∀ d ∈ rest.head?, (d = '_' || p d) = false) :
    digits p (t ++ rest) = (t, rest) := run_append_of_pos ht hrest

theorem throughQuote_append_of_isQuoted {quote : Char} (hquote : quote = '\'' ∨ quote = '"') (h : t.IsQuoted quote)
    (taken : Nat) : throughQuote quote taken (t ++ rest) = (t, rest, []) := by
  have hescape : '\\' ≠ quote := by rcases hquote with rfl | rfl <;> decide
  induction h generalizing taken with
  | close =>
      rw [List.singleton_append, throughQuote.eq_def]
      exact if_pos rfl
  | plain hc hnot hbreak _ ih =>
      rw [List.cons_append, throughQuote.eq_def]
      simp [hc, hnot, hbreak, ih]
  | escape _ ih => simp [throughQuote, hescape, ih]

/-! ### Numbers -/

/-- Whether digits and a fraction end in front of the text: at a blank or at an exponent. -/
def Stops (t : Text) : Prop := ∀ d ∈ t.head?, d ∈ [' ', 'e', 'E']

theorem Stops.digits (h : Stops t) : ∀ d ∈ t.head?, (d = '_' || isDigit d) = false := by
  intro d hd
  have hnone : [' ', 'e', 'E'].any (fun d => d = '_' || isDigit d) = false := by decide
  exact Bool.eq_false_iff.mpr (List.any_eq_false.mp hnone d (h d hd))

theorem stops_of_isApart (h : t.IsApart) : Stops t := fun d hd => h d hd ▸ List.mem_cons_self

theorem stops_exponent (h : t.IsExponent) (hrest : rest.IsApart) : Stops (t ++ rest) := by
  cases h with
  | none => exact stops_of_isApart hrest
  | some he =>
      intro d hd
      cases hd
      rcases he with rfl | rfl <;> decide

theorem fraction_append_of_isFraction (h : t.IsFraction) (hrest : Stops rest) : fraction (t ++ rest) = (t, rest) := by
  cases h with
  | none =>
      cases rest with
      | nil => rfl
      | cons d rest =>
          have hpoint : d ≠ '.' := by
            rintro rfl
            exact absurd (hrest '.' rfl) (by decide)
          simp [fraction, hpoint]
  | some hds => simp [fraction, digits_append_of_isDigits hds hrest.digits]

theorem digits_append_of_isFraction (ht : t.IsDigits isDigit) (hu : u.IsFraction) (hrest : Stops rest) :
    digits isDigit (t ++ (u ++ rest)) = (t, u ++ rest) := by
  refine digits_append_of_isDigits ht ?_
  cases hu with
  | none => exact hrest.digits
  | some =>
      intro d hd
      cases hd
      decide

/-- An optional sign in front of a digit is split off. -/
theorem sign_append_of_isDigit {s : Text} (hs : s = [] ∨ s = ['+'] ∨ s = ['-']) {d : Char} (hd : isDigit d = true)
    (t : Text) : sign (s ++ d :: t) = (s, d :: t) := by
  rcases hs with rfl | rfl | rfl
  · have hplus : d ≠ '+' := by rintro rfl; cases hd
    have hminus : d ≠ '-' := by rintro rfl; cases hd
    simp [sign, hplus, hminus]
  · rfl
  · rfl

theorem exponent_append_of_isExponent (h : t.IsExponent) (hrest : rest.IsApart) :
    exponent (t ++ rest) = (t, rest) := by
  cases h with
  | none =>
      cases rest with
      | nil => rfl
      | cons d rest =>
          cases hrest d rfl
          rfl
  | @some e d s ds he hsign hd hds =>
      have hpower : digits isDigit (d :: (ds ++ rest)) = (d :: ds, rest) :=
        digits_append_of_isDigits (Text.isDigits_cons hd hds) (stops_of_isApart hrest).digits
      have hletter : (decide (e = 'e') || decide (e = 'E')) = true := by simpa using he
      rw [List.cons_append, List.append_assoc, List.cons_append, exponent, sign_append_of_isDigit hsign hd]
      simp [hletter, hd, hpower]

/-- A decimal number is read up to the blank behind it. -/
theorem decimal_append {whole part power : Text} (hwhole : whole.IsDigits isDigit) (hpart : part.IsFraction)
    (hpower : power.IsExponent) (hrest : rest.IsApart) :
    ∃ flags, decimal (whole ++ part ++ power ++ rest) = ⟨.number, whole ++ part ++ power, rest, flags, []⟩ := by
  have hbehind : Stops (power ++ rest) := stops_exponent hpower hrest
  rw [List.append_assoc, List.append_assoc]
  simp only [decimal, digits_append_of_isFraction hwhole hpart hbehind, fraction_append_of_isFraction hpart hbehind,
    exponent_append_of_isExponent hpower hrest]
  exact ⟨_, rfl⟩

/-- Behind a zero the letter of a base decides on the digits. -/
theorem number_zero (letter : Char) (t : Text) :
    number ('0' :: letter :: t) =
      ((digitsOfBase? letter).map fun p => based '0' letter p (.ofBase letter) t).getD
        (decimal ('0' :: letter :: t)) := by
  simp only [number, digitsOfBase?]
  split
  · next h =>
      rw [Bool.or_eq_true, decide_eq_true_eq, decide_eq_true_eq] at h
      rcases h with rfl | rfl <;> rfl
  · split
    · next h =>
        rw [Bool.or_eq_true, decide_eq_true_eq, decide_eq_true_eq] at h
        rcases h with rfl | rfl <;> rfl
    · split
      · next h =>
          rw [Bool.or_eq_true, decide_eq_true_eq, decide_eq_true_eq] at h
          rcases h with rfl | rfl <;> rfl
      · rfl

theorem number_of_digitsOfBase? {letter : Char} (hp : digitsOfBase? letter = some p) (t : Text) :
    number ('0' :: letter :: t) = based '0' letter p (.ofBase letter) t := by
  rw [number_zero, hp]
  rfl

theorem number_eq_decimal (h : ∀ letter u, t = '0' :: letter :: u → digitsOfBase? letter = none) :
    number t = decimal t := by
  by_cases hzero : ∃ letter u, t = '0' :: letter :: u
  · obtain ⟨letter, u, rfl⟩ := hzero
    rw [number_zero, h letter u rfl]
    rfl
  · unfold number
    split
    · exact absurd ⟨_, _, rfl⟩ hzero
    · rfl

/-- Behind the first digit of a decimal number no letter of a base stands. -/
theorem digitsOfBase?_eq_none {d : Char} (h : (d = '_' || isDigit d) = true ∨ d ∈ [' ', 'e', 'E', '.']) :
    digitsOfBase? d = none := by
  rcases h with h | h
  · have hnone : ['x', 'X', 'b', 'B', 'o', 'O'].any (fun e => e = '_' || isDigit e) = false := by decide
    have hletter : ∀ e ∈ ['x', 'X', 'b', 'B', 'o', 'O'], d ≠ e := by
      rintro e he rfl
      exact List.any_eq_false.mp hnone d he h
    simp_all [digitsOfBase?]
  · have hnone : [' ', 'e', 'E', '.'].all (fun e => (digitsOfBase? e).isNone) = true := by decide
    exact Option.isNone_iff_eq_none.mp (List.all_eq_true.mp hnone d h)

/-- What comes second in a decimal number is a digit, the point, the letter of an exponent or the blank behind all. -/
theorem digitsOfBase?_head {ds part power : Text} (hds : ds.IsDigits isDigit) (hpart : part.IsFraction)
    (hpower : power.IsExponent) (hrest : rest.IsApart) :
    ∀ e ∈ (ds ++ part ++ power ++ rest).head?, digitsOfBase? e = none := by
  intro e he
  refine digitsOfBase?_eq_none ?_
  cases ds with
  | cons f ds =>
      cases he
      exact .inl (hds e List.mem_cons_self)
  | nil =>
      cases hpart with
      | none =>
          have := stops_exponent hpower hrest e he
          exact .inr (List.mem_append_left ['.'] this)
      | some =>
          cases he
          exact .inr (by decide)

theorem number_append_decimal {d : Char} {ds part power : Text} (hd : isDigit d = true) (hds : ds.IsDigits isDigit)
    (hpart : part.IsFraction) (hpower : power.IsExponent) (hrest : rest.IsApart) :
    ∃ flags, number (d :: ds ++ part ++ power ++ rest) = ⟨.number, d :: ds ++ part ++ power, rest, flags, []⟩ := by
  have hwhole : Text.IsDigits isDigit (d :: ds) := Text.isDigits_cons hd hds
  rw [number_eq_decimal]
  · exact decimal_append hwhole hpart hpower hrest
  · intro letter u heq
    have hbehind : ds ++ part ++ power ++ rest = letter :: u := (List.cons.inj heq).2
    exact digitsOfBase?_head hds hpart hpower hrest letter (by rw [hbehind]; rfl)

theorem number_append_pointed {d : Char} {ds power : Text} (hd : isDigit d = true) (hds : ds.IsDigits isDigit)
    (hpower : power.IsExponent) (hrest : rest.IsApart) :
    ∃ flags, number ('.' :: d :: ds ++ power ++ rest) = ⟨.number, '.' :: d :: ds ++ power, rest, flags, []⟩ := by
  have hpart : Text.IsFraction ('.' :: d :: ds) := .some (Text.isDigits_cons hd hds)
  rw [number_eq_decimal]
  · have hwhole : Text.IsDigits isDigit [] := List.forall_mem_nil _
    exact decimal_append hwhole hpart hpower hrest
  · rintro letter u ⟨⟩

theorem number_append_based {letter : Char} {ds : Text} (hp : digitsOfBase? letter = some p) (hds : ds.IsDigits p)
    (hrest : rest.IsApart) :
    ∃ flags, number ('0' :: letter :: ds ++ rest) = ⟨.number, '0' :: letter :: ds, rest, flags, []⟩ := by
  have hblank : (' ' = '_' || p ' ') = false := by
    unfold digitsOfBase? at hp
    repeat' split at hp
    all_goals cases hp
    all_goals decide
  have hstop : ∀ d ∈ rest.head?, (d = '_' || p d) = false := fun d hd => hrest d hd ▸ hblank
  rw [List.cons_append, List.cons_append, number_of_digitsOfBase? hp]
  simp only [based, digits_append_of_isDigits hds hstop]
  exact ⟨_, rfl⟩

/-! ### Tokens -/

/-- Whether the text, with `rest` behind it, is read as a token of the kind, of which nothing is wrong. -/
def IsWhole (k : Kind) (t rest : Text) : Prop :=
  ∃ c u flags, t = c :: u ∧ isBlank c = false ∧ flags.unterminated = false ∧
    read c (u ++ rest) = ⟨k, t, rest, flags, []⟩

theorem isWhole_number {d : Char} (hread : ∃ flags, number (d :: u ++ rest) = ⟨.number, d :: u, rest, flags, []⟩)
    (hd : isDigit d = true ∨ d = '.' ∧ u.head?.any isDigit = true) : IsWhole .number (d :: u) rest := by
  obtain ⟨flags, hnumber⟩ := hread
  have hend : flags.unterminated = false := by
    have := unterminated_number (d :: u ++ rest)
    rw [hnumber] at this
    exact this
  have hfirst : d ≠ '/' ∧ isBlank d = false := by
    rcases hd with hd | ⟨rfl, -⟩
    · have hslash : d ≠ '/' := by
        rintro rfl
        cases hd
      exact ⟨hslash, isBlank_eq_false_of_isDigit hd⟩
    · decide
  have hstart : (isDigit d || (d = '.' && (u ++ rest).head?.any isDigit)) = true := by
    rcases hd with hd | ⟨rfl, hu⟩
    · rw [hd]
      rfl
    · cases u with
      | nil => cases hu
      | cons e u => simpa using .inr hu
  refine ⟨d, u, flags, rfl, hfirst.2, hend, ?_⟩
  rw [read, hstart, ← hnumber]
  simp [hfirst.1]

theorem isWhole_name (hc : isIdentifierStart c = true) (ht : ∀ d ∈ t, isIdentifierPart d = true) (hrest : rest.IsApart)
    {k : Kind} (hk : (Keyword.ofText? (c :: t)).elim .identifier .keyword = k) : IsWhole k (c :: t) rest := by
  have hstop : ∀ d ∈ rest.head?, isIdentifierPart d = false := fun d hd => by
    rw [hrest d hd]
    decide +kernel
  have hslash : c ≠ '/' := by rintro rfl; exact absurd hc (by decide +kernel)
  have hpoint : c ≠ '.' := by rintro rfl; exact absurd hc (by decide +kernel)
  have hsign : c ≠ '&' ∧ c ≠ '|' := by
    constructor
    all_goals rintro rfl; exact absurd hc (by decide +kernel)
  have hquote : c ≠ '\'' ∧ c ≠ '"' := by
    constructor
    all_goals rintro rfl; exact absurd hc (by decide +kernel)
  refine ⟨c, t, {}, rfl, isBlank_eq_false_of_isIdentifierStart hc, rfl, ?_⟩
  rw [read]
  simp only [hslash, hpoint, isDigit_eq_false_of_isIdentifierStart hc, symbol?_eq_none_of_isIdentifierStart hc]
  simp only [word, hsign, hquote, isLineBreak_eq_false_of_isIdentifierStart hc,
    isBlank_eq_false_of_isIdentifierStart hc, hc, name, run_append_of_pos ht hstop, ← hk]
  cases Keyword.ofText? (c :: t) <;> rfl

theorem isWhole_string {quote : Char} (hquote : quote = '\'' ∨ quote = '"') (ht : t.IsQuoted quote) :
    IsWhole .string (quote :: t) rest := by
  refine ⟨quote, t, {}, rfl, ?_, rfl, ?_⟩
  · rcases hquote with rfl | rfl <;> decide
  · have hread : read quote (t ++ rest) = string quote (t ++ rest) := by
      rcases hquote with rfl | rfl <;> rfl
    rw [hread, string, throughQuote_append_of_isQuoted hquote ht]
    rfl

theorem isWhole_symbol (s : Symbol) (hrest : rest.IsApart) : IsWhole (.symbol s) s.text rest := by
  have hapart : rest = [] ∨ ∃ v, rest = ' ' :: v := by
    cases rest with
    | nil => exact .inl rfl
    | cons d v => exact .inr ⟨v, by rw [hrest d rfl]⟩
  -- A blank extends no symbol, so the longest one that fits is the symbol itself.
  cases s
  all_goals
    refine ⟨_, _, {}, rfl, by decide, rfl, ?_⟩
    rcases hapart with rfl | ⟨v, rfl⟩ <;> rfl

end Reading

/-- Every text allowed for a kind is read as a token of the kind, if a blank or nothing is behind it. -/
theorem Kind.Allows.isWhole {k : Kind} {t rest : Text} (h : k.Allows t) (hrest : rest.IsApart) :
    Reading.IsWhole k t rest := by
  cases h with
  | symbol s => exact Reading.isWhole_symbol s hrest
  | keyword w =>
      obtain ⟨c, t, htext, hc, ht⟩ := w.exists_text
      rw [htext]
      refine Reading.isWhole_name hc ht hrest ?_
      rw [← htext, Keyword.ofText?_eq_some_iff.mpr rfl]
      rfl
  | identifier hc ht hword =>
      refine Reading.isWhole_name hc ht hrest ?_
      rw [hword]
      rfl
  | string hquote ht => exact Reading.isWhole_string hquote ht
  | decimal hd hds hfraction hexponent =>
      exact Reading.isWhole_number (Reading.number_append_decimal hd hds hfraction hexponent hrest) (.inl hd)
  | pointed hd hds hexponent =>
      exact Reading.isWhole_number (Reading.number_append_pointed hd hds hexponent hrest) (.inr ⟨rfl, hd⟩)
  | based hp hds => exact Reading.isWhole_number (Reading.number_append_based hp hds hrest) (.inl rfl)

/-- The kind of the token that is read off the front of the text. -/
def Text.kind : Text → Kind
  | [] => .endOfInput
  | c :: t => (Reading.read c t).kind

theorem Kind.Allows.kind_eq {k : Kind} {t : Text} (h : k.Allows t) : t.kind = k := by
  have hnothing : Text.IsApart [] := fun c hc => by cases hc
  obtain ⟨c, u, flags, rfl, -, -, hread⟩ := h.isWhole hnothing
  rw [List.append_nil] at hread
  rw [Text.kind, hread]

end LosslessSyntax
