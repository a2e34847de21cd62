import LosslessSyntax.Text.Slice
import LosslessSyntax.Token.Basic
import LosslessSyntax.Token.Reading

/-! The scanner: a text cut into tokens from front to back. It carries the place reached, so that every
token knows where it stands, and notes the faults of tokens as it meets them. Each step takes one token;
once nothing is left, the token is the end of input, for ever. The place reached is a number without bound;
tokens and diagnostics hold the word of it. -/

namespace LosslessSyntax

/-- A text being cut into tokens: what is left of it, where that begins, the token taken last, and the
diagnostics noted so far. -/
structure Scanner where
  rest : Text
  offset : Nat
  position : Position
  token : Token
  diagnostics : Diagnostics
  deriving Repr

namespace Scanner

/-- A scanner that has taken no token yet. -/
def ofText (source : Text) : Scanner where
  rest := source
  offset := 0
  position := .start
  token := ⟨.unknown, [], .start, 0, {}⟩
  diagnostics := []

/-- The diagnostic of a fault in the next token: it is about what was taken of the token when the fault was
met. -/
def diagnostic (s : Scanner) (fault : Reading.Fault) : Diagnostic :=
  .of fault.message []
    (some ⟨.between s.offset ↑(s.offset + fault.taken), s.position, s.rest.cut 0 fault.taken⟩)

/-- Takes the next token. -/
def scan (s : Scanner) : Scanner :=
  match s.rest with
  | [] => { s with token := ⟨.endOfInput, [], s.position, s.offset, {}⟩ }
  | c :: t =>
    let r := Reading.read c t
    { rest := r.rest
      offset := s.offset + r.text.byteLength
      position := s.position.advance r.text
      token := ⟨r.kind, r.text, s.position, s.offset, r.flags⟩
      diagnostics := s.diagnostics ++ r.faults.map s.diagnostic }

/-- Takes the next token and hands it out, unless the end is reached. -/
def next (s : Scanner) : Option Token × Scanner :=
  match s.rest with
  | [] => (none, s.scan)
  | _ :: _ => (some s.scan.token, s.scan)

/-- The scanner without the diagnostics it held. -/
def withoutDiagnostics (s : Scanner) : Scanner := { s with diagnostics := [] }

theorem length_rest_scan_lt {s : Scanner} {c : Char} {t : Text} (h : s.rest = c :: t) :
    s.scan.rest.length < s.rest.length := by
  simp only [scan, h, List.length_cons]
  exact Nat.lt_succ_of_le (Reading.length_rest_read_le c t)

/-- Takes all tokens that are left. -/
def finish (s : Scanner) : List Token × Scanner :=
  match h : s.rest with
  | [] => ([], s.scan)
  | _ :: _ =>
    have := length_rest_scan_lt h
    let (ts, last) := s.scan.finish
    (s.scan.token :: ts, last)
termination_by s.rest.length

end Scanner

/-- The tokens of a source. -/
def tokenize (source : Text) : List Token := (Scanner.ofText source).finish.1

/-- The tokens of a source and the diagnostics about them. -/
def tokenizeWithDiagnostics (source : Text) : List Token × Diagnostics :=
  let (tokens, last) := (Scanner.ofText source).finish
  (tokens, last.diagnostics)

namespace Scanner

/-- No step loses a character: the texts of the tokens taken join to what was left. -/
theorem restore_finish (s : Scanner) : Token.restore s.finish.1 = s.rest := by
  fun_induction finish s with
  | case1 s h => simp [h]
  | case2 s c t h _ ts last heq ih =>
    rw [heq] at ih
    simp only [Token.restore_cons, ih]
    simp only [scan, h, Reading.text_append_rest_read]

end Scanner

/-- Cutting a source into tokens loses nothing. -/
theorem restore_tokenize (source : Text) : Token.restore (tokenize source) = source :=
  Scanner.restore_finish _

end LosslessSyntax
