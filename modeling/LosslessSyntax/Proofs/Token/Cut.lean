import LosslessSyntax.Proofs.Text.Address
import LosslessSyntax.Token.Scanner

/-! How a text is cut into tokens. `Reading.Reads` lists what may be read off the front of a text, form by
form, and `Token.Cut` what all tokens of a text are: every token is read where the one before ends, and
stands there. What holds of all tokens of a source follows by induction over its cut. -/

namespace LosslessSyntax

namespace Reading

/-- What may be read off a text that begins with a character and goes on with a text. -/
inductive Reads : Char → Text → Reading → Prop where
  | lineComment (t : Text) : Reads '/' ('/' :: t) (lineComment t)
  | blockComment (t : Text) : Reads '/' ('*' :: t) (blockComment t)
  | number {c : Char} {t : Text} (h : isDigit c = true ∨ c = '.' ∧ t.head?.any isDigit = true) :
      Reads c t (number (c :: t))
  | symbol {c : Char} {t : Text} {s : Symbol} {n : Nat} (h : symbol? (c :: t) = some (s, n)) :
      Reads c t ⟨.symbol s, s.text, (c :: t).drop n, {}, []⟩
  | string {c : Char} {t : Text} (h : c = '\'' ∨ c = '"') : Reads c t (string c t)
  | lineBreak {c : Char} {t : Text} (h : isLineBreak c = true) : Reads c t (lineBreak c t)
  | blanks {c : Char} {t : Text} (h : isBlank c = true) : Reads c t (blanks c t)
  | name {c : Char} {t : Text} (h : isIdentifierStart c = true) : Reads c t (name c t)
  | unknown (c : Char) (t : Text) : Reads c t (unknown c t)

/-- A sign that stands alone is read as any other character with which no token starts. -/
theorem loneSign_eq_unknown {c : Char} (h : c = '&' ∨ c = '|') (t : Text) : loneSign c t = unknown c t := by
  rcases h with rfl | rfl <;> rfl

theorem reads_word (c : Char) (t : Text) : Reads c t (word c t) := by
  unfold word
  split
  · next h =>
      rw [loneSign_eq_unknown (by simpa using h)]
      exact .unknown c t
  · split
    · next h => exact .string (by simpa using h)
    · split
      · next h => exact .lineBreak h
      · split
        · next h => exact .blanks h
        · split
          · next h => exact .name h
          · exact .unknown c t

theorem reads_read (c : Char) (t : Text) : Reads c t (read c t) := by
  unfold read
  split
  · next h =>
      obtain ⟨rfl, t, rfl⟩ := Text.pair_iff.mp h
      exact .lineComment t
  · split
    · next h =>
        obtain ⟨rfl, t, rfl⟩ := Text.pair_iff.mp h
        exact .blockComment t
    · split
      · next h => exact .number (by simpa using h)
      · split
        · next h =>
            rw [take_of_symbol? h]
            exact .symbol h
        · exact reads_word c t

theorem kind_number (t : Text) : (number t).kind = .number := by
  unfold number
  split
  · split
    · rfl
    · split
      · rfl
      · split <;> rfl
  · rfl

theorem unterminated_number (t : Text) : (number t).flags.unterminated = false := by
  unfold number
  split
  · split
    · rfl
    · split
      · rfl
      · split <;> rfl
  · rfl

theorem kind_name (c : Char) (t : Text) :
    (name c t).kind = .identifier ∨ ∃ k, (name c t).kind = .keyword k := by
  simp only [name]
  split
  · next k _ => exact .inr ⟨k, rfl⟩
  · exact .inl rfl

theorem unterminated_name (c : Char) (t : Text) : (name c t).flags.unterminated = false := by
  simp only [name]
  split <;> rfl

theorem kind_lineBreak (c : Char) (t : Text) : (lineBreak c t).kind = .lineBreak := by
  unfold lineBreak
  split <;> rfl

/-- Behind a line break a new line begins. -/
theorem column_advance_lineBreak {c : Char} (h : isLineBreak c = true) (t : Text) (p : Position) :
    (p.advance (lineBreak c t).text).column = 1 := by
  rcases lineBreak_cases c t with ⟨rfl, u, rfl, hread⟩ | ⟨-, hread⟩
  · rw [hread]
    rfl
  · rw [hread]
    simp [Position.advance, h]

/-- A comment that lacks its end mark takes all that is left. -/
theorem rest_throughCommentEnd_of_not_closed {t : Text} (h : (throughCommentEnd t).2.2 = false) :
    (throughCommentEnd t).2.1 = [] := by
  induction t with
  | nil => rfl
  | cons c t ih =>
      simp only [throughCommentEnd] at h ⊢
      split
      · next hmark =>
          rw [if_pos hmark] at h
          cases h
      · next hmark =>
          rw [if_neg hmark] at h
          exact ih h

/-- Only what has an end mark of its own can lack it. -/
theorem Reads.kind_of_unterminated {c : Char} {t : Text} {r : Reading} (h : Reads c t r)
    (hr : r.flags.unterminated = true) : r.kind = .string ∨ r.kind = .blockComment := by
  cases h with
  | blockComment => exact .inr rfl
  | string => exact .inl rfl
  | number => rw [unterminated_number] at hr; cases hr
  | name => rw [unterminated_name] at hr; cases hr
  | lineBreak =>
      unfold Reading.lineBreak at hr
      split at hr <;> cases hr
  | _ => cases hr

/-- How a reading of the kind was read; numbers, symbols and names are told by their readers. -/
def IsOfKind (c : Char) (t : Text) (r : Reading) : Kind → Prop
  | .lineComment => ∃ u, c = '/' ∧ t = '/' :: u ∧ r = lineComment u
  | .blockComment => ∃ u, c = '/' ∧ t = '*' :: u ∧ r = blockComment u
  | .string => (c = '\'' ∨ c = '"') ∧ r = string c t
  | .lineBreak => isLineBreak c = true ∧ r = lineBreak c t
  | .blank => isBlank c = true ∧ r = blanks c t
  | .unknown => r = unknown c t
  | .endOfInput => False
  | _ => True

/-- The kind of a reading tells how it was read. -/
theorem Reads.isOfKind {c : Char} {t : Text} {r : Reading} (h : Reads c t r) {k : Kind} (hkind : r.kind = k) :
    IsOfKind c t r k := by
  subst hkind
  cases h with
  | lineComment t => exact ⟨t, rfl, rfl, rfl⟩
  | blockComment t => exact ⟨t, rfl, rfl, rfl⟩
  | number => rw [kind_number]; trivial
  | symbol => trivial
  | string h => exact ⟨h, rfl⟩
  | lineBreak h => rw [kind_lineBreak]; exact ⟨h, rfl⟩
  | blanks h => exact ⟨h, rfl⟩
  | name => rcases kind_name c t with h | ⟨k, h⟩ <;> rw [h] <;> trivial
  | unknown => rfl

/-- The end of input is nothing to read. -/
theorem Reads.kind_ne_endOfInput {c : Char} {t : Text} {r : Reading} (h : Reads c t r) :
    r.kind ≠ .endOfInput := h.isOfKind

theorem Reads.column_advance_of_lineBreak {c : Char} {t : Text} {r : Reading} (h : Reads c t r)
    (hr : r.kind = .lineBreak) (p : Position) : (p.advance r.text).column = 1 := by
  obtain ⟨hbreak, rfl⟩ := h.isOfKind hr
  exact column_advance_lineBreak hbreak t p

end Reading

namespace Token

/-- The token that a reading makes at a place. -/
def ofReading (r : Reading) (position : Position) (offset : Nat) : Token :=
  ⟨r.kind, r.text, position, offset, r.flags⟩

/-- The tokens of a text that begins at `offset` and `position`. -/
inductive Cut : Text → Nat → Position → List Token → Prop where
  | nil (offset : Nat) (position : Position) : Cut [] offset position []
  | cons {c : Char} {t : Text} {r : Reading} {offset : Nat} {position : Position} {ts : List Token}
      (hread : Reading.read c t = r)
      (hrest : Cut r.rest (offset + r.text.byteLength) (position.advance r.text) ts) :
      Cut (c :: t) offset position (ofReading r position offset :: ts)

namespace Cut

variable {text : Text} {offset : Nat} {position : Position} {ts : List Token}

/-- Every token is read somewhere in the text, and stands as many bytes in as are in front of it. -/
theorem exists_read (h : Cut text offset position ts) {t : Token} (ht : t ∈ ts) :
    ∃ front c rest place, text = front ++ c :: rest ∧
      t = ofReading (Reading.read c rest) place (offset + Text.byteLength front) := by
  induction h with
  | nil => cases ht
  | @cons c u r offset position ts hread hrest ih =>
      rcases List.mem_cons.mp ht with rfl | ht
      · exact ⟨[], c, u, position, rfl, by rw [hread]; rfl⟩
      · obtain ⟨front, d, rest, place, heq, htoken⟩ := ih ht
        refine ⟨r.text ++ front, d, rest, place, ?_, ?_⟩
        · rw [← Reading.text_append_rest_read c u, hread, heq, List.append_assoc]
        · rw [htoken, Text.byteLength_append, Nat.add_assoc]

/-- The tokens of a text join to it. -/
theorem restore_eq (h : Cut text offset position ts) : restore ts = text := by
  induction h with
  | nil => rfl
  | @cons c u r offset position ts hread hrest ih =>
      rw [restore_cons, ih, ← Reading.text_append_rest_read c u, hread]
      rfl

/-- The tokens behind some of the tokens are those of the text behind them. -/
theorem of_append {front back : List Token} (h : Cut text offset position (front ++ back)) :
    ∃ rest place, text = restore front ++ rest ∧ Cut rest (offset + (restore front).byteLength) place back := by
  induction front generalizing text offset position with
  | nil => exact ⟨text, position, rfl, h⟩
  | cons u front ih =>
      rw [List.cons_append] at h
      cases h with
      | @cons c t r _ _ _ hread hrest =>
          obtain ⟨rest, place, htext, hcut⟩ := ih hrest
          refine ⟨rest, place, ?_, ?_⟩
          · rw [← Reading.text_append_rest_read c t, hread, htext, restore_cons, List.append_assoc]
            rfl
          · rw [restore_cons, Text.byteLength_append, ← Nat.add_assoc]
            exact hcut

/-- A token stands behind the texts of all tokens in front of it. -/
theorem offset_eq {front back : List Token} {t : Token} (h : Cut text offset position (front ++ t :: back)) :
    t.offset = (offset + (restore front).byteLength).toUInt32 := by
  obtain ⟨rest, place, -, hcut⟩ := h.of_append
  cases hcut
  rfl

/-- In a text whose bytes all have an offset, a token stands as many bytes in as are in front of it. -/
theorem toNat_offset {front back : List Token} {t : Token} (h : Cut text 0 position (front ++ t :: back))
    (htext : text.IsAddressable) : t.offset.toNat = (restore front).byteLength := by
  have hrestore := h.restore_eq
  rw [restore_append] at hrestore
  rw [h.offset_eq, Nat.zero_add]
  exact (hrestore ▸ htext).toNat_byteLength

theorem text_ne_nil (h : Cut text offset position ts) {t : Token} (ht : t ∈ ts) : t.text ≠ [] := by
  obtain ⟨front, c, rest, place, _, rfl⟩ := h.exists_read ht
  exact Reading.text_read_ne_nil c rest

theorem kind_ne_endOfInput (h : Cut text offset position ts) {t : Token} (ht : t ∈ ts) :
    t.kind ≠ .endOfInput := by
  obtain ⟨front, c, rest, place, _, rfl⟩ := h.exists_read ht
  exact (Reading.reads_read c rest).kind_ne_endOfInput

/-- Of a token only a string or a comment can lack its end. -/
theorem kind_of_isUnterminated (h : Cut text offset position ts) {t : Token} (ht : t ∈ ts)
    (hend : t.isUnterminated = true) : t.kind = .string ∨ t.kind = .blockComment := by
  obtain ⟨front, c, rest, place, _, rfl⟩ := h.exists_read ht
  exact (Reading.reads_read c rest).kind_of_unterminated hend

theorem unique (h : Cut text offset position ts) (h' : Cut text offset position us) : ts = us := by
  induction h generalizing us with
  | nil =>
      cases h'
      rfl
  | cons hread _ ih =>
      cases h' with
      | cons hread' hrest' =>
          subst hread hread'
          exact congrArg (ofReading _ _ _ :: ·) (ih hrest')

end Cut

end Token

/-- A scanner takes the tokens of what is left, from the place that it has reached. -/
theorem Scanner.cut_finish (s : Scanner) : Token.Cut s.rest s.offset s.position s.finish.1 := by
  fun_induction finish s with
  | case1 s h =>
      rw [h]
      exact .nil _ _
  | case2 s c t h _ ts last heq ih =>
      rw [heq] at ih
      have hscan : s.scan.token = .ofReading (Reading.read c t) s.position s.offset := by
        simp only [scan, h, Token.ofReading]
      rw [h, hscan]
      refine .cons rfl ?_
      simpa only [scan, h, Token.stop, Token.length] using ih

/-- The end of input has no text. -/
theorem Scanner.text_token_finish (s : Scanner) : s.finish.2.token.text = [] := by
  fun_induction finish s with
  | case1 s h => rw [scan, h]
  | case2 s c t h _ ts last heq ih =>
      rw [heq] at ih
      exact ih

/-- The end of input stands behind all that was left. -/
theorem Scanner.offset_token_finish (s : Scanner) :
    s.finish.2.token.offset = (s.offset + s.rest.byteLength).toUInt32 := by
  fun_induction finish s with
  | case1 s h => simp only [scan, h, Text.byteLength_nil, Nat.add_zero]
  | case2 s c t h _ ts last heq ih =>
      have happend := congrArg Text.byteLength (Reading.text_append_rest_read c t)
      rw [heq] at ih
      rw [ih, h, ← happend, Text.byteLength_append, ← Nat.add_assoc]
      simp only [scan, h]

theorem cut_tokenize (source : Text) : Token.Cut source 0 .start (tokenize source) :=
  Scanner.cut_finish (.ofText source)

theorem tokenize_eq_of_cut {source : Text} {ts : List Token} (h : Token.Cut source 0 .start ts) :
    tokenize source = ts :=
  (cut_tokenize source).unique h

end LosslessSyntax
