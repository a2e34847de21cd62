import Mathlib.Data.List.Forall2
import LosslessSyntax.Proofs.Token.Fault
import LosslessSyntax.Proofs.Token.LineBreak

/-! Faulty tokens and the diagnostics of a scan. A scan has one diagnostic for every faulty token and no other, in
the order of the tokens, and each tells the place of its token. A character that starts no token is a token by
itself; of all other kinds only strings and comments with an end mark can be faulty, by lacking that mark. A comment
that lacks it has taken all that was left, so it is the last token. -/

namespace LosslessSyntax

namespace Token

/-- Whether something is wrong with the token by itself: no token starts with its character, or its end mark is
missing. -/
def isFaulty (t : Token) : Bool :=
  t.kind = .unknown || (t.kind = .string || t.kind = .blockComment) && t.isUnterminated

/-- Whether `d` is the diagnostic that a faulty token deserves: an error with the code of its fault, at the place
of the token. -/
def Deserves (t : Token) (d : Diagnostic) : Prop :=
  d.isError = true ∧ d.location = some ⟨t.span, t.position, t.text⟩ ∧
    (t.kind = .unknown ∧ d.code = 1127 ∨
      t.kind = .string ∧ t.isUnterminated = true ∧ d.code = 1002 ∨
      t.kind = .blockComment ∧ t.isUnterminated = true ∧ d.code = 1010)

/-- Whether the token is a comment that lacks its end mark. -/
def isOpenComment (t : Token) : Bool := t.kind = .blockComment && t.isUnterminated

theorem diagnostics_of_isFaulty {t : Token} (h : t.isFaulty = true) : ∃ d, t.diagnostics = [d] ∧ t.Deserves d := by
  simp only [isFaulty, Bool.or_eq_true, Bool.and_eq_true, decide_eq_true_eq] at h
  rcases h with hkind | ⟨hkind | hkind, hend⟩
  · refine ⟨.of .invalidCharacter [] (some t.location), ?_, rfl, rfl, .inl ⟨hkind, rfl⟩⟩
    rw [diagnostics, fault?, hkind]
    rfl
  · refine ⟨.of .unterminatedString [] (some t.location), ?_, rfl, rfl, .inr (.inl ⟨hkind, hend, rfl⟩)⟩
    simp only [diagnostics, fault?, hkind, show t.flags.unterminated = true from hend]
    rfl
  · refine ⟨.of .commentEndExpected [] (some t.location), ?_, rfl, rfl, .inr (.inr ⟨hkind, hend, rfl⟩)⟩
    simp only [diagnostics, fault?, hkind, show t.flags.unterminated = true from hend]
    rfl

theorem diagnostics_of_not_isFaulty {t : Token} (h : t.isFaulty = false) : t.diagnostics = [] := by
  simp only [isFaulty, Bool.or_eq_false_iff, decide_eq_false_iff_not] at h
  obtain ⟨hunknown, hend⟩ := h
  rw [diagnostics, fault?]
  split
  · next hkind => exact absurd hkind hunknown
  · next hkind =>
      have hclosed : t.flags.unterminated = false := by simpa [hkind, isUnterminated] using hend
      rw [hclosed]
      rfl
  · next hkind =>
      have hclosed : t.flags.unterminated = false := by simpa [hkind, isUnterminated] using hend
      rw [hclosed]
      rfl
  · rfl

/-- Tokens have as many diagnostics as there are faulty ones among them, in the same order. -/
theorem forall₂_deserves (ts : List Token) :
    List.Forall₂ Deserves (ts.filter isFaulty) (ts.flatMap diagnostics) := by
  induction ts with
  | nil => exact .nil
  | cons t ts ih =>
      rw [List.flatMap_cons]
      cases h : t.isFaulty with
      | true =>
          obtain ⟨d, hd, hdeserves⟩ := diagnostics_of_isFaulty h
          rw [List.filter_cons_of_pos h, hd]
          exact .cons hdeserves ih
      | false =>
          rw [List.filter_cons_of_neg (by simp [h]), diagnostics_of_not_isFaulty h]
          exact ih

end Token

namespace Reading

variable {c : Char} {t : Text} {r : Reading}

theorem Reads.text_of_unknown (h : Reads c t r) (hkind : r.kind = .unknown) : r.text = [c] := by
  obtain rfl : r = Reading.unknown c t := h.isOfKind hkind
  rfl

theorem Reads.rest_of_open_comment (h : Reads c t r) (hkind : r.kind = .blockComment)
    (hend : r.flags.unterminated = true) : r.rest = [] := by
  obtain ⟨u, rfl⟩ := h.exists_eq_blockComment hkind
  have hclosed : (!(throughCommentEnd u).2.2) = true := hend
  exact rest_throughCommentEnd_of_not_closed (by simpa only [Bool.not_eq_true'] using hclosed)

end Reading

namespace Token.Cut

variable {text : Text} {offset : Nat} {position : Position} {ts front back : List Token} {t : Token}

theorem text_of_unknown (h : Cut text offset position ts) (ht : t ∈ ts) (hkind : t.kind = .unknown) :
    ∃ c, t.text = [c] := by
  obtain ⟨_, c, rest, _, -, rfl⟩ := h.exists_read ht
  exact ⟨c, (Reading.reads_read c rest).text_of_unknown hkind⟩

/-- No token follows a comment that lacks its end mark. -/
theorem eq_nil_of_isOpenComment (h : Cut text offset position ts) (hts : ts = front ++ t :: back)
    (ht : t.isOpenComment = true) : back = [] := by
  simp only [isOpenComment, Bool.and_eq_true, decide_eq_true_eq] at ht
  induction h generalizing front with
  | nil => simp at hts
  | @cons c rest r offset position ts hread hrest ih =>
      cases front with
      | cons u front => exact ih (List.cons.inj hts).2
      | nil =>
          obtain ⟨rfl, rfl⟩ := List.cons.inj hts
          have hnone := (hread ▸ Reading.reads_read c rest).rest_of_open_comment ht.1 ht.2
          rw [hnone] at hrest
          cases hrest
          rfl

theorem countP_isOpenComment_le (h : Cut text offset position ts) : ts.countP isOpenComment ≤ 1 := by
  induction h with
  | nil => exact Nat.zero_le 1
  | @cons c rest r offset position ts hread hrest ih =>
      by_cases hopen : (ofReading r position offset).isOpenComment = true
      · have hnone : ts = [] := (Cut.cons hread hrest).eq_nil_of_isOpenComment (List.nil_append _).symm hopen
        have hone : [ofReading r position offset].countP isOpenComment = 1 := by
          rw [List.countP_singleton, if_pos hopen]
        exact Nat.le_of_eq (hnone ▸ hone)
      · rwa [List.countP_cons_of_neg hopen]

end Token.Cut

/-- The diagnostics of a scan are those that the faulty tokens deserve, one by one and in order. An unknown token is
a single character, nothing but strings and comments with an end mark can lack it, and at most one comment does,
with no token behind it. -/
theorem diagnostics_tokenizeWithDiagnostics (source : Text) :
    let tokens := tokenize source
    (tokenizeWithDiagnostics source).1 = tokens ∧
      List.Forall₂ Token.Deserves (tokens.filter Token.isFaulty) (tokenizeWithDiagnostics source).2 ∧
      (∀ t ∈ tokens, t.kind = .unknown → ∃ c, t.text = [c]) ∧
      (∀ t ∈ tokens, t.isUnterminated = true → t.kind = .string ∨ t.kind = .blockComment) ∧
      tokens.countP Token.isOpenComment ≤ 1 ∧
      ∀ front t back, tokens = front ++ t :: back → t.isOpenComment = true → back = [] := by
  intro tokens
  have hcut := cut_tokenize source
  have hnoted : (tokenizeWithDiagnostics source).2 = tokens.flatMap Token.diagnostics :=
    Scanner.diagnostics_finish (.ofText source)
  refine ⟨rfl, ?_, fun t => hcut.text_of_unknown, fun t => hcut.kind_of_isUnterminated,
    hcut.countP_isOpenComment_le, fun front t back => hcut.eq_nil_of_isOpenComment⟩
  rw [hnoted]
  exact Token.forall₂_deserves tokens

end LosslessSyntax
