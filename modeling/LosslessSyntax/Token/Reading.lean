import LosslessSyntax.Diagnostic.Catalogue
import LosslessSyntax.Text.Identifier
import LosslessSyntax.Token.Kind
import LosslessSyntax.Token.Flags

/-! Reading one token off the front of a text. What a token is depends on its own characters and on the few
that follow it, never on what came before, so reading is a function of the text that is left. Every reader
splits that text: the part it takes and the part it leaves join to what it was given, and the part it takes
is not empty. A fault is noted where reading comes upon it, with the number of bytes taken by then. -/

namespace LosslessSyntax

/-- A fault met while a token is read, when `taken` bytes of the token have been passed. -/
structure Reading.Fault where
  message : Message
  taken : Nat
  deriving DecidableEq, Repr

/-- A token read off the front of a text: its kind, its flags, its own text, the text behind it, and the faults
met on the way. -/
structure Reading where
  kind : Kind
  text : Text
  rest : Text
  flags : Flags := {}
  faults : List Reading.Fault := []
  deriving DecidableEq, Repr

namespace Reading

/-- Splits a text before the first character that does not satisfy `p`. -/
def run (p : Char → Bool) (t : Text) : Text × Text := (t.takeWhile p, t.dropWhile p)

/-- Splits behind the first `*/`, and tells whether there is one. -/
def throughCommentEnd : Text → Text × Text × Bool
  | [] => ([], [], false)
  | c :: t =>
    if c = '*' && t.head? = some '/' then (c :: t.take 1, t.drop 1, true)
    else
      let (body, rest, closed) := throughCommentEnd t
      (c :: body, rest, closed)

/-- Splits behind the first `quote` that no backslash precedes, if there is one before the line ends, and else
where the line ends; that the quote is missing is noted there. A backslash takes the character behind it along,
whatever it is. `taken` bytes of the token have been passed already. -/
def throughQuote (quote : Char) : (taken : Nat) → Text → Text × Text × List Fault
  | taken, [] => ([], [], [⟨.unterminatedString, taken⟩])
  | taken, c :: t =>
    if c = quote then ([c], t, [])
    else if c = '\\' then
      match t with
      | [] => ([c], [], [⟨.unterminatedString, taken + 1⟩])
      | e :: t =>
        let (body, rest, faults) := throughQuote quote (taken + 1 + e.utf8Size) t
        (c :: e :: body, rest, faults)
    else if isLineBreak c then ([], c :: t, [⟨.unterminatedString, taken⟩])
    else
      let (body, rest, faults) := throughQuote quote (taken + c.utf8Size) t
      (c :: body, rest, faults)

/-- Splits behind the digits that satisfy `p`; underscores may separate them. -/
def digits (p : Char → Bool) (t : Text) : Text × Text := run (fun c => c = '_' || p c) t

/-- Splits behind an optional sign. -/
def sign : Text → Text × Text
  | [] => ([], [])
  | c :: t => if c = '+' || c = '-' then ([c], t) else ([], c :: t)

/-- Splits behind an exponent: the letter, a sign or none, and digits, the first of them no underscore. -/
def exponent : Text → Text × Text
  | [] => ([], [])
  | e :: t =>
    let (s, u) := sign t
    if (e = 'e' || e = 'E') && u.head?.any isDigit then
      let (ds, rest) := digits isDigit u
      (e :: s ++ ds, rest)
    else ([], e :: t)

/-- Splits behind a fraction: the point and its digits. -/
def fraction : Text → Text × Text
  | [] => ([], [])
  | c :: t =>
    if c = '.' then
      let (ds, rest) := digits isDigit t
      (c :: ds, rest)
    else ([], c :: t)

/-- Reads a number that begins with `0` and a letter for its base. -/
def based (zero letter : Char) (p : Char → Bool) (flags : Flags) (t : Text) : Reading :=
  let (ds, rest) := digits p t
  ⟨.number, zero :: letter :: ds, rest, { flags with separated := ds.contains '_' }, []⟩

/-- Reads a decimal number: digits, a fraction, an exponent, each of which may be missing. -/
def decimal (t : Text) : Reading :=
  let (whole, t₁) := digits isDigit t
  let (part, t₂) := fraction t₁
  let (power, rest) := exponent t₂
  let text := whole ++ part ++ power
  ⟨.number, text, rest, { scientific := !power.isEmpty, separated := text.contains '_' }, []⟩

/-- Reads a number. -/
def number (t : Text) : Reading :=
  match t with
  | '0' :: c :: u =>
    if c = 'x' || c = 'X' then based '0' c isHexDigit { hex := true } u
    else if c = 'b' || c = 'B' then based '0' c isBinaryDigit { binary := true } u
    else if c = 'o' || c = 'O' then based '0' c isOctalDigit { octal := true } u
    else decimal t
  | _ => decimal t

/-- The symbol in front and the number of its characters: of several that fit, the longest. -/
def symbol? : Text → Option (Symbol × Nat)
  | '\x7b' :: _ => some (.openBrace, 1)
  | '\x7d' :: _ => some (.closeBrace, 1)
  | '(' :: _ => some (.openParen, 1)
  | ')' :: _ => some (.closeParen, 1)
  | '[' :: _ => some (.openBracket, 1)
  | ']' :: _ => some (.closeBracket, 1)
  | '.' :: _ => some (.dot, 1)
  | ';' :: _ => some (.semicolon, 1)
  | ',' :: _ => some (.comma, 1)
  | ':' :: _ => some (.colon, 1)
  | '<' :: '=' :: _ => some (.lessEqual, 2)
  | '<' :: _ => some (.less, 1)
  | '>' :: '=' :: _ => some (.greaterEqual, 2)
  | '>' :: _ => some (.greater, 1)
  | '=' :: '=' :: '=' :: _ => some (.identical, 3)
  | '=' :: '=' :: _ => some (.equal, 2)
  | '=' :: _ => some (.assign, 1)
  | '!' :: '=' :: '=' :: _ => some (.notIdentical, 3)
  | '!' :: '=' :: _ => some (.notEqual, 2)
  | '!' :: _ => some (.not, 1)
  | '+' :: '+' :: _ => some (.increment, 2)
  | '+' :: '=' :: _ => some (.plusAssign, 2)
  | '+' :: _ => some (.plus, 1)
  | '-' :: '-' :: _ => some (.decrement, 2)
  | '-' :: '=' :: _ => some (.minusAssign, 2)
  | '-' :: _ => some (.minus, 1)
  | '*' :: '=' :: _ => some (.timesAssign, 2)
  | '*' :: _ => some (.times, 1)
  | '/' :: '=' :: _ => some (.divideAssign, 2)
  | '/' :: _ => some (.divide, 1)
  | '%' :: '=' :: _ => some (.remainderAssign, 2)
  | '%' :: _ => some (.remainder, 1)
  | '&' :: '&' :: _ => some (.both, 2)
  | '|' :: '|' :: _ => some (.either, 2)
  | _ => none

/-- Reads a comment that runs to the end of the line, given what follows the two slashes. -/
def lineComment (t : Text) : Reading :=
  let (body, rest) := run (fun c => !isLineBreak c) t
  ⟨.lineComment, '/' :: '/' :: body, rest, {}, []⟩

/-- Reads a comment that runs to its end mark, given what follows the opening one. If there is none, that is
noted at the end of input. -/
def blockComment (t : Text) : Reading :=
  let (body, rest, closed) := throughCommentEnd t
  let faults := if closed then [] else [⟨.commentEndExpected, 2 + t.byteLength⟩]
  ⟨.blockComment, '/' :: '*' :: body, rest, { unterminated := !closed }, faults⟩

/-- Reads a string, given its opening quote and what follows it. -/
def string (quote : Char) (t : Text) : Reading :=
  let (body, rest, faults) := throughQuote quote 1 t
  ⟨.string, quote :: body, rest, { unterminated := !faults.isEmpty }, faults⟩

/-- Reads a sign that would have to be doubled to be a symbol. -/
def loneSign (c : Char) (t : Text) : Reading := ⟨.unknown, [c], t, {}, [⟨.invalidCharacter, 1⟩]⟩

/-- Reads a character with which no token starts. -/
def unknown (c : Char) (t : Text) : Reading := ⟨.unknown, [c], t, {}, [⟨.invalidCharacter, c.utf8Size⟩]⟩

/-- Reads a line break; a carriage return takes a line feed behind it along. -/
def lineBreak (c : Char) (t : Text) : Reading :=
  if c = '\r' && t.head? = some '\n' then ⟨.lineBreak, c :: t.take 1, t.drop 1, {}, []⟩
  else ⟨.lineBreak, [c], t, {}, []⟩

/-- Reads a run of blanks. -/
def blanks (c : Char) (t : Text) : Reading :=
  let (more, rest) := run isBlank t
  ⟨.blank, c :: more, rest, {}, []⟩

/-- Reads a name, which is a keyword if it is spelled like one. -/
def name (c : Char) (t : Text) : Reading :=
  let (more, rest) := run isIdentifierPart t
  match Keyword.ofText? (c :: more) with
  | some k => ⟨.keyword k, c :: more, rest, {}, []⟩
  | none => ⟨.identifier, c :: more, rest, {}, []⟩

/-- Reads what is no comment, number or symbol, given its first character. -/
def word (c : Char) (t : Text) : Reading :=
  if c = '&' || c = '|' then loneSign c t
  else if c = '\'' || c = '"' then string c t
  else if isLineBreak c then lineBreak c t
  else if isBlank c then blanks c t
  else if isIdentifierStart c then name c t
  else unknown c t

/-- Reads one token off a text that begins with `c` and goes on with `t`. -/
def read (c : Char) (t : Text) : Reading :=
  if c = '/' && t.head? = some '/' then lineComment (t.drop 1)
  else if c = '/' && t.head? = some '*' then blockComment (t.drop 1)
  else if isDigit c || (c = '.' && t.head?.any isDigit) then number (c :: t)
  else
    match symbol? (c :: t) with
    | some (s, n) => ⟨.symbol s, (c :: t).take n, (c :: t).drop n, {}, []⟩
    | none => word c t

/-! ### Reading splits the text -/

theorem run_append (p : Char → Bool) (t : Text) : (run p t).1 ++ (run p t).2 = t :=
  List.takeWhile_append_dropWhile

theorem throughCommentEnd_append (t : Text) :
    (throughCommentEnd t).1 ++ (throughCommentEnd t).2.1 = t := by
  induction t with
  | nil => rfl
  | cons c t ih =>
    simp only [throughCommentEnd]
    split
    · exact congrArg (c :: ·) (List.take_append_drop 1 t)
    · exact congrArg (c :: ·) ih

theorem throughQuote_append (quote : Char) (taken : Nat) (t : Text) :
    (throughQuote quote taken t).1 ++ (throughQuote quote taken t).2.1 = t := by
  fun_induction throughQuote quote taken t <;> simp_all

theorem sign_append (t : Text) : (sign t).1 ++ (sign t).2 = t := by
  cases t with
  | nil => rfl
  | cons c t => simp only [sign]; split <;> rfl

theorem digits_append (p : Char → Bool) (t : Text) : (digits p t).1 ++ (digits p t).2 = t :=
  run_append _ t

theorem exponent_append (t : Text) : (exponent t).1 ++ (exponent t).2 = t := by
  cases t with
  | nil => rfl
  | cons e t =>
    simp only [exponent]
    split
    · rw [List.cons_append, List.cons_append, List.append_assoc, digits_append, sign_append]
    · rfl

theorem fraction_append (t : Text) : (fraction t).1 ++ (fraction t).2 = t := by
  cases t with
  | nil => rfl
  | cons c t =>
    simp only [fraction]
    split
    · rw [List.cons_append, digits_append]
    · rfl

theorem text_append_rest_based (zero letter : Char) (p : Char → Bool) (flags : Flags) (t : Text) :
    (based zero letter p flags t).text ++ (based zero letter p flags t).rest = zero :: letter :: t := by
  simp only [based, List.cons_append, digits_append]

theorem text_append_rest_decimal (t : Text) : (decimal t).text ++ (decimal t).rest = t := by
  simp only [decimal, List.append_assoc, exponent_append, fraction_append, digits_append]

theorem text_append_rest_number (t : Text) : (number t).text ++ (number t).rest = t := by
  unfold number
  split
  · split
    · exact text_append_rest_based ..
    · split
      · exact text_append_rest_based ..
      · split
        · exact text_append_rest_based ..
        · exact text_append_rest_decimal _
  · exact text_append_rest_decimal _

/-- The characters that a symbol takes are those of its spelling. -/
theorem take_of_symbol? {t : Text} {s : Symbol} {n : Nat} (h : symbol? t = some (s, n)) : t.take n = s.text := by
  unfold symbol? at h
  split at h
  case h_35 => cases h
  all_goals cases h; rfl

/-- A line break is a carriage return with the line feed behind it, or one character. -/
theorem lineBreak_cases (c : Char) (t : Text) :
    (c = '\r' ∧ ∃ u, t = '\n' :: u ∧ lineBreak c t = ⟨.lineBreak, ['\r', '\n'], u, {}, []⟩) ∨
      ¬(c = '\r' ∧ t.head? = some '\n') ∧ lineBreak c t = ⟨.lineBreak, [c], t, {}, []⟩ := by
  unfold lineBreak
  split
  · next h =>
    obtain ⟨rfl, u, rfl⟩ := Text.pair_iff.mp h
    exact .inl ⟨rfl, u, rfl, rfl⟩
  · next h => exact .inr ⟨by simpa using h, rfl⟩

theorem text_append_rest_word (c : Char) (t : Text) : (word c t).text ++ (word c t).rest = c :: t := by
  unfold word
  split
  · rfl
  · split
    · simp only [string, List.cons_append, throughQuote_append]
    · split
      · rcases lineBreak_cases c t with ⟨rfl, u, rfl, h⟩ | ⟨-, h⟩ <;> rw [h] <;> rfl
      · split
        · simp only [blanks, List.cons_append, run_append]
        · split
          · simp only [name]
            split <;> simp only [List.cons_append, run_append]
          · rfl

/-- The part taken and the part left join to the text read from. -/
theorem text_append_rest_read (c : Char) (t : Text) : (read c t).text ++ (read c t).rest = c :: t := by
  unfold read
  split
  · next h =>
    obtain ⟨rfl, t, rfl⟩ := Text.pair_iff.mp h
    simp only [lineComment, List.cons_append, List.drop_succ_cons, List.drop_zero, run_append]
  · split
    · next h =>
      obtain ⟨rfl, t, rfl⟩ := Text.pair_iff.mp h
      simp only [blockComment, List.cons_append, List.drop_succ_cons, List.drop_zero,
        throughCommentEnd_append]
    · split
      · exact text_append_rest_number _
      · split
        · exact List.take_append_drop _ _
        · exact text_append_rest_word c t

theorem digits_ne_nil {p : Char → Bool} {c : Char} (h : p c = true) (t : Text) :
    (digits p (c :: t)).1 ≠ [] := by
  simp [digits, run, h]

theorem text_decimal_ne_nil {c : Char} {t : Text} (h : isDigit c = true ∨ c = '.') :
    (decimal (c :: t)).text ≠ [] := by
  rcases h with h | rfl
  · have := digits_ne_nil h t
    simp only [decimal]
    intro hnil
    exact this (List.append_eq_nil_iff.mp (List.append_eq_nil_iff.mp hnil).1).1
  · have : digits isDigit ('.' :: t) = ([], '.' :: t) := by simp [digits, run, isDigit]
    simp [decimal, this, fraction]

theorem text_number_ne_nil {c : Char} {t : Text} (h : isDigit c = true ∨ c = '.') :
    (number (c :: t)).text ≠ [] := by
  unfold number
  split
  · split
    · exact List.cons_ne_nil _ _
    · split
      · exact List.cons_ne_nil _ _
      · split
        · exact List.cons_ne_nil _ _
        · exact text_decimal_ne_nil h
  · exact text_decimal_ne_nil h

theorem text_word_ne_nil (c : Char) (t : Text) : (word c t).text ≠ [] := by
  unfold word loneSign string lineBreak blanks name unknown
  repeat' split
  all_goals exact List.cons_ne_nil _ _

/-- The part taken is not empty. -/
theorem text_read_ne_nil (c : Char) (t : Text) : (read c t).text ≠ [] := by
  unfold read
  split
  · exact List.cons_ne_nil _ _
  · split
    · exact List.cons_ne_nil _ _
    · split
      · next h =>
        simp only [Bool.or_eq_true, Bool.and_eq_true, decide_eq_true_eq] at h
        exact text_number_ne_nil (h.imp_right And.left)
      · split
        · next s n h =>
          rw [take_of_symbol? h]
          exact s.text_ne_nil
        · exact text_word_ne_nil c t

/-- What is left is shorter than what was read from. -/
theorem length_rest_read_le (c : Char) (t : Text) : (read c t).rest.length ≤ t.length := by
  have happend := congrArg List.length (text_append_rest_read c t)
  have htext := List.length_pos_iff.mpr (text_read_ne_nil c t)
  simp only [List.length_append, List.length_cons] at happend
  omega

end Reading

end LosslessSyntax
