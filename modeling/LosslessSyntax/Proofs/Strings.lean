import LosslessSyntax.Proofs.Token.Longest

/-! Strings. Behind its opening quote a string is read unit by unit: a backslash takes the character behind it along,
and every other character is a unit of its own. Where no unit ends the string may not end either, so a quote behind a
backslash does not close it, and a line break there does not cut it off. It ends where the closing quote stands
between two units, or without one in front of a line break or at the end of the source. -/

namespace LosslessSyntax

namespace Text

/-- Whether a text is made of whole units of a string in this quote, given what stands behind it. A backslash is a
unit alone only where nothing is left that it could take along. -/
inductive StringUnits (quote : Char) : Text → Text → Prop where
  | nil (behind : Text) : StringUnits quote [] behind
  | plain {c : Char} {body behind : Text} (hquote : c ≠ quote) (hescape : c ≠ '\\') (hbreak : isLineBreak c = false)
      (h : StringUnits quote body behind) : StringUnits quote (c :: body) behind
  | escape (c : Char) {body behind : Text} (h : StringUnits quote body behind) :
      StringUnits quote ('\\' :: c :: body) behind
  | last : StringUnits quote ['\\'] []

/-- Whether a string in this quote, of which `t` is what follows its opening quote, comes to its end behind `body`:
whole units make up `body`, and then comes the quote, a line break or the end of the text. -/
structure StringEnd (quote : Char) (t body behind : Text) : Prop where
  split : body ++ behind = t
  units : StringUnits quote body behind
  stop : ∀ c ∈ behind.head?, c = quote ∨ isLineBreak c = true

/-- There is a place where a string comes to its end. -/
theorem exists_stringEnd (quote : Char) : ∀ t : Text, ∃ body behind, StringEnd quote t body behind
  | [] => ⟨[], [], rfl, .nil [], fun c hc => by cases hc⟩
  | c :: t => by
      by_cases hstop : c = quote ∨ isLineBreak c = true
      · exact ⟨[], c :: t, rfl, .nil _, fun d hd => Option.some.inj hd ▸ hstop⟩
      · by_cases hescape : c = '\\'
        · subst hescape
          cases t with
          | nil => exact ⟨['\\'], [], rfl, .last, fun c hc => by cases hc⟩
          | cons e t =>
              obtain ⟨body, behind, hsplit, hunits, hend⟩ := exists_stringEnd quote t
              exact ⟨'\\' :: e :: body, behind, congrArg ('\\' :: e :: ·) hsplit, .escape e hunits, hend⟩
        · obtain ⟨hquote, hbreak⟩ := not_or.mp hstop
          obtain ⟨body, behind, hsplit, hunits, hend⟩ := exists_stringEnd quote t
          have hplain := hunits.plain hquote hescape (Bool.eq_false_iff.mpr hbreak)
          exact ⟨c :: body, behind, congrArg (c :: ·) hsplit, hplain, hend⟩

end Text

namespace Reading

open Text

variable {quote : Char} {t body behind : Text}

/-- Whole units are read over. -/
theorem throughQuote_append_of_units (hquote : quote ≠ '\\') (h : StringUnits quote body behind) (taken : Nat) :
    throughQuote quote taken (body ++ behind) =
      (body ++ (throughQuote quote (taken + body.byteLength) behind).1,
        (throughQuote quote (taken + body.byteLength) behind).2) := by
  induction h generalizing taken with
  | nil => rfl
  | @plain c _ _ hne hescape hbreak _ ih =>
      rw [List.cons_append, throughQuote.eq_def, byteLength_cons, ← Nat.add_assoc]
      simp [hne, hescape, hbreak, ih]
  | escape c _ ih =>
      have hone : ('\\').utf8Size = 1 := rfl
      rw [byteLength_cons, byteLength_cons, hone, ← Nat.add_assoc, ← Nat.add_assoc]
      simp [throughQuote, hquote.symm, ih]
  | last =>
      have hone : byteLength ['\\'] = 1 := rfl
      simp [throughQuote, hquote.symm, hone]

theorem throughQuote_quote (quote : Char) (taken : Nat) (t : Text) :
    throughQuote quote taken (quote :: t) = ([quote], t, []) := by
  rw [throughQuote.eq_def]
  exact if_pos rfl

theorem throughQuote_of_isLineBreak (hhead : ∀ c ∈ t.head?, c ≠ quote ∧ isLineBreak c = true) (taken : Nat) :
    throughQuote quote taken t = ([], t, [⟨.unterminatedString, taken⟩]) := by
  cases t with
  | nil => rfl
  | cons c t =>
      obtain ⟨hne, hbreak⟩ := hhead c rfl
      have hescape : c ≠ '\\' := by
        rintro rfl
        cases hbreak
      rw [throughQuote.eq_def]
      simp [hne, hescape, hbreak]

theorem throughQuote_of_stringEnd (hquote : quote ≠ '\\') (h : StringEnd quote t body behind) (taken : Nat) :
    behind.head? = some quote ∧ throughQuote quote taken t = (body ++ [quote], behind.tail, []) ∨
      behind.head? ≠ some quote ∧
        throughQuote quote taken t = (body, behind, [⟨.unterminatedString, taken + body.byteLength⟩]) := by
  rw [← h.split, throughQuote_append_of_units hquote h.units]
  by_cases hhead : behind.head? = some quote
  · obtain ⟨v, rfl⟩ := List.head?_eq_some_iff.mp hhead
    exact .inl ⟨hhead, by rw [throughQuote_quote]; rfl⟩
  · have hbreak : ∀ c ∈ behind.head?, c ≠ quote ∧ isLineBreak c = true := fun c hc =>
      have hne : c ≠ quote := fun heq => hhead (heq ▸ hc)
      ⟨hne, (h.stop c hc).resolve_left hne⟩
    exact .inr ⟨hhead, by rw [throughQuote_of_isLineBreak hbreak, List.append_nil]⟩

end Reading

/-- A string comes to an end, and wherever it may come to one, there the token ends: behind the closing quote, or in
front of what stands there instead, with the note that the quote is missing. -/
theorem Token.ends_of_string {source rest : Text} {quote : Char} {t : Token} (hquote : quote = '\'' ∨ quote = '"')
    (ht : t.IsCutAt source (quote :: rest)) :
    t.kind = .string ∧ (∃ body behind, Text.StringEnd quote rest body behind) ∧
      ∀ body behind, Text.StringEnd quote rest body behind →
        behind.head? = some quote ∧ t.text = quote :: body ++ [quote] ∧ t.flags = {} ∨
          behind.head? ≠ some quote ∧ t.text = quote :: body ∧ t.flags = { unterminated := true } := by
  obtain ⟨c, u, place, offset, hsplit, htoken⟩ := ht.exists_read
  obtain ⟨rfl, rfl⟩ := List.cons.inj hsplit
  have hread : Reading.read quote rest = Reading.string quote rest := by rcases hquote with rfl | rfl <;> rfl
  have hescape : quote ≠ '\\' := by rcases hquote with rfl | rfl <;> decide
  rw [htoken, hread]
  refine ⟨rfl, Text.exists_stringEnd quote rest, fun body behind hend => ?_⟩
  rw [ofReading, Reading.string]
  rcases Reading.throughQuote_of_stringEnd hescape hend 1 with ⟨hhead, hread⟩ | ⟨hhead, hread⟩
  · rw [hread]
    exact .inl ⟨hhead, rfl, rfl⟩
  · rw [hread]
    exact .inr ⟨hhead, rfl, rfl⟩

/-- A string with a quote and a line break behind backslashes and a quote of the other kind between them, and one
that the end of the source cuts off behind a backslash. -/
theorem Token.ends_of_string_escape :
    let source : Text := ['\'', '\\', '\'', '"', '\\', '\n', '\'', ' ', '"', '\\']
    let closed : Token := ⟨.string, ['\'', '\\', '\'', '"', '\\', '\n', '\''], ⟨1, 1⟩, 0, {}⟩
    let cut : Token := ⟨.string, ['"', '\\'], ⟨2, 3⟩, 8, { unterminated := true }⟩
    closed.IsCutAt source ('\'' :: source.drop 1) ∧ cut.IsCutAt source ('"' :: source.drop 9) ∧
      Text.StringEnd '\'' (source.drop 1) ['\\', '\'', '"', '\\', '\n'] (source.drop 6) ∧
      Text.StringEnd '"' (source.drop 9) ['\\'] [] ∧ closed.flags = {} ∧ cut.flags = { unterminated := true } := by
  intro source closed cut
  have hclosed : closed.IsCutAt source ('\'' :: source.drop 1) := ⟨[], (tokenize source).drop 1, by decide +kernel, rfl⟩
  have hcut : cut.IsCutAt source ('"' :: source.drop 9) := ⟨(tokenize source).take 2, [], by decide +kernel, by decide +kernel⟩
  have hquote : Text.StringEnd '\'' (source.drop 1) ['\\', '\'', '"', '\\', '\n'] (source.drop 6) := by
    refine ⟨rfl, .escape '\'' (.plain ?_ ?_ rfl (.escape '\n' (.nil _))), fun c hc => .inl (Option.some.inj hc).symm⟩
    · decide
    · decide
  have hnone : Text.StringEnd '"' (source.drop 9) ['\\'] [] := ⟨rfl, .last, fun c hc => by cases hc⟩
  have hends := (ends_of_string (.inl rfl) hclosed).2.2 _ _ hquote
  have hends' := (ends_of_string (.inr rfl) hcut).2.2 _ _ hnone
  refine ⟨hclosed, hcut, hquote, hnone, ?_, ?_⟩
  · exact (hends.resolve_right fun h => h.1 rfl).2.2
  · exact (hends'.resolve_left fun h => by cases h.1).2.2

end LosslessSyntax
