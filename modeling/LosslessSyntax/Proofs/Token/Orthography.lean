import LosslessSyntax.Proofs.Token.Cut

/-! Tokens with a fixed spelling. A symbol or a keyword is spelled in one way only, and every token of its kind
that was read off a text has this spelling. So the kind of such a token can be told from its text. -/

namespace LosslessSyntax

/-- The symbol that is spelled so, if there is one. -/
def Symbol.ofText? (t : Text) : Option Symbol := all.find? (·.text = t)

theorem Symbol.ofText?_text (s : Symbol) : ofText? s.text = some s := by
  cases s <;> decide

namespace Reading

/-- A symbol begins with the character that was in front. -/
theorem mem_head?_of_symbol? {c : Char} {t : Text} {s : Symbol} {n : Nat} (h : symbol? (c :: t) = some (s, n)) :
    c ∈ s.text.head? := by
  have htake := take_of_symbol? h
  cases n with
  | zero => exact absurd htake.symm s.text_ne_nil
  | succ n =>
      rw [← htake]
      exact Option.mem_some_self c

theorem text_name_of_keyword {c : Char} {t text : Text} (h : (name c t).kind.text? = some text) :
    (name c t).text = text := by
  unfold name at h ⊢
  simp only at h ⊢
  split at h
  · next k hk =>
      have hspelled := Keyword.ofText?_eq_some_iff.mp hk
      exact hspelled.trans (Option.some.inj h)
  · cases h

theorem Reads.text_eq {c : Char} {t : Text} {r : Reading} (h : Reads c t r) {text : Text}
    (htext : r.kind.text? = some text) : r.text = text := by
  cases h with
  | symbol => exact Option.some.inj htext
  | name => exact text_name_of_keyword htext
  | number => rw [kind_number] at htext; cases htext
  | lineBreak => rw [kind_lineBreak] at htext; cases htext
  | _ => cases htext

end Reading

namespace Token

/-- Whether the token was read off some text, wherever it stands. -/
def IsRead (t : Token) : Prop := ∃ c rest place offset, t = ofReading (Reading.read c rest) place offset

theorem Cut.isRead {text : Text} {offset : Nat} {position : Position} {ts : List Token}
    (h : Cut text offset position ts) {t : Token} (ht : t ∈ ts) : t.IsRead := by
  obtain ⟨front, c, rest, place, -, rfl⟩ := h.exists_read ht
  exact ⟨c, rest, place, _, rfl⟩

variable {t : Token}

/-- A token has the text of its kind, if its kind has one. -/
theorem IsRead.text_eq (h : t.IsRead) {text : Text} (htext : t.kind.text? = some text) : t.text = text := by
  obtain ⟨c, rest, place, offset, rfl⟩ := h
  exact (Reading.reads_read c rest).text_eq htext

theorem IsRead.text_ne_nil (h : t.IsRead) : t.text ≠ [] := by
  obtain ⟨c, rest, place, offset, rfl⟩ := h
  exact Reading.text_read_ne_nil c rest

end Token

end LosslessSyntax
