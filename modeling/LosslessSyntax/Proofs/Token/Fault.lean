import LosslessSyntax.Proofs.Diagnostic.Fault
import LosslessSyntax.Proofs.Token.Cut

/-! The faults of tokens. A token by itself can be wrong in three ways: it is a character that starts no token, or
a string or a comment whose end is missing. Which of them it is can be told from the finished token, and a scanner,
which notes faults while it reads, notes exactly that one, at the place of the token. All of them are errors. So
nothing is noted if no token of the source is unknown and none lacks its end. -/

namespace LosslessSyntax

namespace Token

/-- What is wrong with the token, if anything is. -/
def fault? (t : Token) : Option Message :=
  match t.kind with
  | .unknown => some .invalidCharacter
  | .string => if t.flags.unterminated then some .unterminatedString else none
  | .blockComment => if t.flags.unterminated then some .commentEndExpected else none
  | _ => none

/-- The diagnostics about the token itself: one if it is faulty, else none. -/
def diagnostics (t : Token) : Diagnostics :=
  t.fault?.toList.map fun m => .of m [] (some t.location)

end Token

namespace Reading

/-- Nothing is noted about a number. -/
theorem faults_number (t : Text) : (number t).faults = [] := by
  unfold number
  split
  · split
    · rfl
    · split
      · rfl
      · split <;> rfl
  · rfl

theorem faults_name (c : Char) (t : Text) : (name c t).faults = [] := by
  simp only [name]
  split <;> rfl

theorem faults_lineBreak (c : Char) (t : Text) : (lineBreak c t).faults = [] := by
  unfold lineBreak
  split <;> rfl

/-- That a quote is missing is noted once, behind all that the string takes. -/
theorem faults_throughQuote (quote : Char) (taken : Nat) (t : Text) :
    (throughQuote quote taken t).2.2 = [] ∨ (throughQuote quote taken t).2.2 =
      [⟨.unterminatedString, taken + (throughQuote quote taken t).1.byteLength⟩] := by
  fun_induction throughQuote quote taken t with
  | case1 => exact .inr rfl
  | case2 => exact .inl rfl
  | case3 => exact .inr rfl
  | case4 taken e t body rest faults hread _ ih =>
      rw [hread] at ih
      have hescape : ('\\').utf8Size = 1 := rfl
      rwa [Text.byteLength_cons, Text.byteLength_cons, hescape, ← Nat.add_assoc, ← Nat.add_assoc]
  | case5 => exact .inr rfl
  | case6 taken c t _ _ _ body rest faults hread ih =>
      rw [hread] at ih
      rwa [Text.byteLength_cons, ← Nat.add_assoc]

theorem faults_string {quote : Char} (h : quote = '\'' ∨ quote = '"') (t : Text) :
    (string quote t).faults = if (string quote t).flags.unterminated then
      [⟨.unterminatedString, (string quote t).text.byteLength⟩] else [] := by
  have hquote : quote.utf8Size = 1 := by rcases h with rfl | rfl <;> rfl
  rcases faults_throughQuote quote 1 t with hnone | hmissing
  · simp only [string, hnone, List.isEmpty_nil, Bool.not_true, Bool.false_eq_true, if_false]
  · simp only [string, hmissing, List.isEmpty_cons, Bool.not_false, if_true, Text.byteLength_cons, hquote]

theorem faults_blockComment (t : Text) :
    (blockComment t).faults = if (blockComment t).flags.unterminated then
      [⟨.commentEndExpected, (blockComment t).text.byteLength⟩] else [] := by
  cases hclosed : (throughCommentEnd t).2.2 with
  | true => simp only [blockComment, hclosed, Bool.not_true, Bool.false_eq_true, if_true, if_false]
  | false =>
      have happend := throughCommentEnd_append t
      rw [rest_throughCommentEnd_of_not_closed hclosed, List.append_nil] at happend
      simp only [blockComment, hclosed, happend, Bool.not_false, Bool.false_eq_true, if_true, if_false,
        Text.byteLength_cons, ← Nat.add_assoc]
      rfl

/-- What is noted while a token is read is what the finished token shows to be wrong, when all of it is taken. -/
theorem Reads.faults_eq {c : Char} {t : Text} {r : Reading} (h : Reads c t r) (position : Position) (offset : Nat) :
    r.faults = (Token.ofReading r position offset).fault?.toList.map fun m => ⟨m, r.text.byteLength⟩ := by
  cases h with
  | lineComment | symbol | blanks => rfl
  | blockComment t =>
      rw [faults_blockComment]
      simp only [Token.fault?, Token.ofReading, show (Reading.blockComment t).kind = .blockComment from rfl]
      split <;> rfl
  | number => rw [faults_number, Token.fault?, Token.ofReading, kind_number]; rfl
  | string h =>
      rw [faults_string h]
      simp only [Token.fault?, Token.ofReading, show (Reading.string c t).kind = .string from rfl]
      split <;> rfl
  | lineBreak => rw [faults_lineBreak, Token.fault?, Token.ofReading, kind_lineBreak]; rfl
  | name =>
      rw [faults_name, Token.fault?, Token.ofReading]
      rcases kind_name c t with hkind | ⟨k, hkind⟩ <;> rw [hkind] <;> rfl
  | unknown => rfl

end Reading

theorem Token.isFault_of_fault? {t : Token} {m : Message} (h : t.fault? = some m) : m.isFault = true := by
  unfold fault? at h
  split at h
  · cases h; rfl
  · split at h <;> cases h
    rfl
  · split at h <;> cases h
    rfl
  · cases h

namespace Scanner

/-- What a step notes is about the token that it takes: the span begins and ends with it, and nothing but its text
was found. -/
theorem diagnostics_scan (s : Scanner) (h : s.rest ≠ []) :
    s.scan.diagnostics = s.diagnostics ++ s.scan.token.diagnostics := by
  obtain ⟨c, t, hrest⟩ := List.exists_cons_of_ne_nil h
  have hread := Reading.reads_read c t
  have htoken : s.scan.token = .ofReading (Reading.read c t) s.position s.offset := by
    simp only [scan, hrest, Token.ofReading]
  have hspan : Span.between s.offset ↑(s.offset + (Reading.read c t).text.byteLength) = s.scan.token.span := by
    rw [Span.between, toUInt32_add_sub_cancel_left, htoken]
    rfl
  have hfound : s.rest.cut 0 (Reading.read c t).text.byteLength = s.scan.token.text := by
    rw [hrest, ← Reading.text_append_rest_read c t, htoken]
    exact Text.cut_byteLength [] _ _
  have hposition : s.position = s.scan.token.position := by rw [htoken]; rfl
  have hdiagnostics : s.scan.diagnostics = s.diagnostics ++ (Reading.read c t).faults.map s.diagnostic := by
    simp only [scan, hrest]
  rw [hdiagnostics, hread.faults_eq s.position s.offset, ← htoken, List.map_map, Token.diagnostics]
  simp only [Function.comp_def, diagnostic, hspan, hfound, hposition, Token.location]

theorem diagnostics_finish (s : Scanner) :
    s.finish.2.diagnostics = s.diagnostics ++ s.finish.1.flatMap Token.diagnostics := by
  fun_induction finish s with
  | case1 s h =>
      rw [scan, h, List.flatMap_nil, List.append_nil]
  | case2 s c t h _ ts last heq ih =>
      rw [heq] at ih
      rw [ih, s.diagnostics_scan (by simp [h]), List.flatMap_cons, List.append_assoc]

end Scanner

namespace Diagnostics

theorem hasErrors_tokens (ts : List Token) :
    hasErrors (ts.flatMap Token.diagnostics) = ts.any (·.fault?.isSome) := by
  induction ts with
  | nil => rfl
  | cons t ts ih =>
      rw [List.flatMap_cons, hasErrors_append, ih, List.any_cons, Token.diagnostics]
      cases h : t.fault? with
      | none => rfl
      | some m => exact congrArg (· || _) (hasErrors_fault (Token.isFault_of_fault? h) _ _)

theorem idleCount_tokens (ts : List Token) : idleCount (ts.flatMap Token.diagnostics) = 0 := by
  induction ts with
  | nil => rfl
  | cons t ts ih =>
      rw [List.flatMap_cons, idleCount_append, ih, Token.diagnostics]
      cases h : t.fault? with
      | none => rfl
      | some m => exact idleCount_fault (Token.isFault_of_fault? h) _ _

theorem isFaultOrIdle_of_mem_tokens {ts : List Token} {d : Diagnostic} (hd : d ∈ ts.flatMap Token.diagnostics) :
    d.IsFaultOrIdle := by
  obtain ⟨t, -, hd⟩ := List.mem_flatMap.mp hd
  obtain ⟨m, hm, rfl⟩ := List.mem_map.mp hd
  exact .inl (Diagnostic.isError_of (Token.isFault_of_fault? (Option.mem_toList.mp hm)) _ _)

end Diagnostics

/-- A token is faulty if it is unknown, or lacks its end. -/
theorem Token.Cut.isSome_fault? {text : Text} {offset : Nat} {position : Position} {ts : List Token}
    (h : Cut text offset position ts) {t : Token} (ht : t ∈ ts) :
    t.fault?.isSome = true ↔ t.kind = .unknown ∨ t.isUnterminated = true := by
  constructor
  · intro hfault
    unfold fault? at hfault
    split at hfault
    · next hkind => exact .inl hkind
    · split at hfault
      · next hend => exact .inr hend
      · cases hfault
    · split at hfault
      · next hend => exact .inr hend
      · cases hfault
    · cases hfault
  · rintro (hkind | hend)
    · rw [fault?, hkind]
      rfl
    · rcases h.kind_of_isUnterminated ht hend with hkind | hkind
      · rw [fault?, hkind]
        exact congrArg Option.isSome (if_pos hend)
      · rw [fault?, hkind]
        exact congrArg Option.isSome (if_pos hend)

end LosslessSyntax
