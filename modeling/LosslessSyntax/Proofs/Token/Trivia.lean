import LosslessSyntax.Parse.Trivia
import LosslessSyntax.Proofs.Token.LineBreak
import LosslessSyntax.Proofs.Token.Orthography

/-! The texts of blanks and line breaks. A token of blanks holds nothing else, and so does a line break; so of trivia
that are no comment only the line breaks end a line. -/

namespace LosslessSyntax

namespace Reading

variable {c : Char} {t : Text} {r : Reading}

theorem Reads.isBlank_of_mem (h : Reads c t r) (hkind : r.kind = .blank) : ∀ d ∈ r.text, isBlank d = true := by
  obtain ⟨hblank, rfl⟩ := h.isOfKind hkind
  intro d hd
  rcases List.mem_cons.mp hd with rfl | hd
  · exact hblank
  · exact List.all_eq_true.mp List.all_takeWhile d hd

theorem Reads.isLineBreak_of_mem (h : Reads c t r) (hkind : r.kind = .lineBreak) :
    ∀ d ∈ r.text, isLineBreak d = true := by
  obtain ⟨hbreak, rfl⟩ := h.isOfKind hkind
  rcases lineBreak_cases c t with ⟨rfl, u, rfl, hread⟩ | ⟨-, hread⟩
  · rw [hread]
    exact List.forall_mem_cons.mpr ⟨rfl, List.forall_mem_singleton.mpr rfl⟩
  · rw [hread]
    exact List.forall_mem_singleton.mpr hbreak

end Reading

namespace Token.IsRead

variable {t : Token}

theorem kind_ne_endOfInput (h : t.IsRead) : t.kind ≠ .endOfInput := by
  obtain ⟨c, rest, place, offset, rfl⟩ := h
  exact (Reading.reads_read c rest).kind_ne_endOfInput

theorem isBlank_of_mem (h : t.IsRead) (hkind : t.kind = .blank) : ∀ c ∈ t.text, isBlank c = true := by
  obtain ⟨c, rest, place, offset, rfl⟩ := h
  exact (Reading.reads_read c rest).isBlank_of_mem hkind

theorem isLineBreak_of_mem (h : t.IsRead) (hkind : t.kind = .lineBreak) : ∀ c ∈ t.text, isLineBreak c = true := by
  obtain ⟨c, rest, place, offset, rfl⟩ := h
  exact (Reading.reads_read c rest).isLineBreak_of_mem hkind

theorem hasLineBreak_of_lineBreak (h : t.IsRead) (hkind : t.kind = .lineBreak) : t.text.hasLineBreak = true := by
  obtain ⟨c, text, htext⟩ := List.exists_cons_of_ne_nil h.text_ne_nil
  have hbreak := h.isLineBreak_of_mem hkind c (htext ▸ List.mem_cons_self)
  rw [htext, Reading.hasLineBreak_cons, hbreak]
  rfl

theorem hasLineBreak_of_blank (h : t.IsRead) (hkind : t.kind = .blank) : t.text.hasLineBreak = false :=
  Reading.hasLineBreak_eq_false_iff.mpr fun c hc =>
    Bool.eq_false_iff.mpr fun hbreak => by
      have hblank := h.isBlank_of_mem hkind c hc
      rw [isBlank_eq_false_of_isLineBreak hbreak] at hblank
      cases hblank

theorem hasLineBreak_of_lineComment (h : t.IsRead) (hkind : t.kind = .lineComment) : t.text.hasLineBreak = false := by
  obtain ⟨c, rest, place, offset, rfl⟩ := h
  change (Reading.read c rest).kind = .lineComment at hkind
  refine eq_false_of_ne_true fun hbreak => ?_
  by_cases hc : isLineBreak c = true
  · rw [Reading.read_of_isLineBreak hc, Reading.kind_lineBreak] at hkind
    cases hkind
  · rcases (Reading.reads_read c rest).kind_of_hasLineBreak (eq_false_of_ne_true hc) hbreak with hother | hother
    all_goals
      rw [hkind] at hother
      cases hother

/-- The kind of a trivia token, and the text of a comment with an end mark, tell of line breaks what the characters
tell. -/
theorem hasLineBreak_eq (h : t.IsRead) (htrivia : t.isTrivia = true) :
    t.text.hasLineBreak = (t.kind = .lineBreak || t.kind = .blockComment && t.text.hasLineBreak) := by
  have hkind : t.kind = .blank ∨ t.kind = .lineBreak ∨ t.kind = .lineComment ∨ t.kind = .blockComment := by
    unfold Token.isTrivia Kind.isTrivia at htrivia
    cases hk : t.kind <;> simp [hk] at htrivia ⊢
  rcases hkind with hkind | hkind | hkind | hkind
  · simp [h.hasLineBreak_of_blank hkind, hkind]
  · simp [h.hasLineBreak_of_lineBreak hkind, hkind]
  · simp [h.hasLineBreak_of_lineComment hkind, hkind]
  · simp [hkind]

end Token.IsRead

/-- A line ends in trivia tokens that were read off a text if and only if one ends in what they spell. -/
theorem Token.hasLineBreak_restore {ts : List Token} (hread : ∀ t ∈ ts, t.IsRead)
    (htrivia : ∀ t ∈ ts, t.isTrivia = true) : (restore ts).hasLineBreak = hasLineBreak ts := by
  induction ts with
  | nil => rfl
  | cons t ts ih =>
      obtain ⟨ht, hts⟩ := List.forall_mem_cons.mp hread
      obtain ⟨ht', hts'⟩ := List.forall_mem_cons.mp htrivia
      rw [restore_cons, Text.hasLineBreak_append, ht.hasLineBreak_eq ht', ih hts hts']
      rfl

end LosslessSyntax
