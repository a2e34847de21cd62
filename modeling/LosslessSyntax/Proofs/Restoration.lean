import LosslessSyntax.Proofs.Parse.Account.Program
import LosslessSyntax.Proofs.Token.Cover

/-! Nothing of a source is lost. Whatever the source and however deep nesting may go, the tree that is read
can be written back as the source, and its lexemes are the significant tokens of the source, in order. Both
follow from what a walk through the tree meets: it spells the tokens of the source. Trivia are cut out of the source
by offsets, which are words; so the source must be addressable, and beyond that text is lost. -/

namespace LosslessSyntax

namespace Parser

variable {source : Text}

/-- A walk through the tree of an addressable source meets all of its tokens, in order. -/
theorem spells_program (h : source.IsAddressable) (limit : Nat) :
    Event.Spells (ofSource source limit).program.1.events (tokenize source) := by
  obtain ⟨haccount, hrest⟩ := account_program source limit
  obtain ⟨taken, htokens, hspells, -⟩ := haccount.spelled
  have haddressed : Token.Addressed (ofSource source limit).program.2.cursor.source (tokenize source) := by
    rw [source_program]
    exact Token.addressed_tokenize h
  rw [hrest, List.append_nil] at htokens
  rw [List.flatMap_map] at hspells
  exact htokens.symm ▸ hspells haddressed

/-- A tree that spells the tokens of a source is written back as the source. -/
theorem restore_of_spells {p : Program} (h : Event.Spells p.events (tokenize source)) : p.restore = source := by
  calc p.restore
      = p.events.flatMap Event.text := List.flatMap_assoc.symm
    _ = Token.restore (tokenize source) := h.restore
    _ = source := restore_tokenize source

/-- The texts in a tree, joined, are the source, be it well formed or not, and however early reading was
given up. -/
theorem restore_program (h : source.IsAddressable) (limit : Nat) :
    (ofSource source limit).program.1.restore = source :=
  restore_of_spells (spells_program h limit)

/-- A source that goes over the limit and is not well formed is restored. -/
theorem restore_program_tooDeep :
    Text.IsAddressable ['-', '-', ' ', '(', '\n'] ∧
      (ofSource ['-', '-', ' ', '(', '\n'] 1).program.1.restore = ['-', '-', ' ', '(', '\n'] := by
  have haddress : Text.IsAddressable ['-', '-', ' ', '(', '\n'] := by decide
  exact ⟨haddress, restore_program haddress 1⟩

/-- The lexemes in a tree are the significant tokens of the source, one by one and in order; each is led by
the last of the trivia between its token and the significant token before. All other text in the tree is
that of trivia. -/
theorem lexemes_program (h : source.IsAddressable) (limit : Nat) :
    let events := (ofSource source limit).program.1.events
    (Event.lexemes events).map Lexeme.text = ((tokenize source).filter (!·.isTrivia)).map Token.text ∧
      List.Forall₂ Lexeme.Fits (Event.lexemes events) (Token.clusters (tokenize source)) ∧
      ∀ text, .trivia text ∈ events →
        ∃ run, run <:+: tokenize source ∧ (∀ t ∈ run, t.isTrivia = true) ∧ text = Token.restore run := by
  intro events
  have hspells := spells_program h limit
  have hfits : List.Forall₂ Lexeme.Fits (Event.lexemes events) (Token.clusters (tokenize source)) :=
    hspells.forall₂_clusters fun t ht => (cut_tokenize source).text_ne_nil ht
  refine ⟨?_, hfits, fun text htext => hspells.exists_run_of_trivia htext⟩
  rw [← Token.map_snd_clusters]
  exact Lexeme.map_text_of_fits hfits

/-- The lexemes of a sum are its three tokens. -/
theorem lexemes_program_sum :
    Text.IsAddressable ['a', ' ', '+', ' ', 'b'] ∧
      (Event.lexemes (ofSource ['a', ' ', '+', ' ', 'b'] 64).program.1.events).map Lexeme.text =
        ((tokenize ['a', ' ', '+', ' ', 'b']).filter (!·.isTrivia)).map Token.text := by
  have haddress : Text.IsAddressable ['a', ' ', '+', ' ', 'b'] := by decide
  exact ⟨haddress, (lexemes_program haddress 64).1⟩

/-! ### Beyond the last address -/

/-- A sign behind a token of blanks that has the same offset. -/
def atSign (source blanks : Text) (last : Token) : Cursor where
  source := source
  upcoming := [⟨.blank, blanks, .start, 0, {}⟩, ⟨.unknown, ['@'], .start, 0, {}⟩]
  last := last

/-- The blanks become a node without a text. No level is left to read the sign, so it is taken as it stands. -/
theorem program_atSign (source blanks : Text) (last : Token) : ((atSign source blanks last).program 0).1 =
    ⟨[.whitespace [], .unparsed [], .unparsed [⟨[], ['@']⟩]]⟩ := by
  let signed : Cursor := { atSign source blanks last with
    upcoming := [⟨.unknown, ['@'], .start, 0, {}⟩]
    diagnostics := [.of .nestingTooDeep [['0']] (some ⟨⟨0, 1⟩, .start, ['@']⟩)] }
  have hrefused : ((Level.outermost 0).statementsRound false).run (atSign source blanks last) =
      (([.whitespace (source.cut 0 0), .unparsed []], true), signed.giveUp) := rfl
  have hend : ((Level.outermost 0).statementsRound false).run signed.giveUp = (([], false), signed.giveUp) := rfl
  have hsign : signed.bump = (⟨source.cut 0 0, ['@']⟩, { signed with upcoming := [] }) := rfl
  rw [Text.cut_self] at hrefused hsign
  have hstatements : ((Level.outermost 0).statements false).run (atSign source blanks last) =
      ([.whitespace [], .unparsed []], signed.giveUp) := by
    rw [Level.statements, Rule.run_bind, Rule.run_collect_of_next hrefused (Rule.run_collect_of_last hend),
      Rule.run_pure]
    simp [Node.attachTrailing]
  have hkind : signed.kind = .unknown := rfl
  have hlexemes : (Rule.lexemesUntil fun _ => false).run signed = ([⟨[], ['@']⟩], { signed with upcoming := [] }) :=
    Cursor.run_lexemesUntil_of_ne_end (by rw [hkind]; decide) hsign (Cursor.run_lexemesUntil_of_end rfl)
  exact congrArg Prod.fst (Cursor.program_eq hstatements (Cursor.salvage_eq rfl hlexemes rfl))

/-- If the blanks are as many as there are words, they and the sign have the offset zero, and the blanks are lost. -/
theorem program_signBehindBlanks {n : Nat} (h : (n + 1).toUInt32 = 0) :
    (ofSource (Text.signBehindBlanks n) 0).program.1 = ⟨[.whitespace [], .unparsed [], .unparsed [⟨[], ['@']⟩]]⟩ := by
  have hcursor : (ofSource (Text.signBehindBlanks n) 0).cursor = atSign (Text.signBehindBlanks n)
      (List.replicate (n + 1) ' ') (ofSource (Text.signBehindBlanks n) 0).cursor.last :=
    congrArg (fun ts => Cursor.mk _ ts _ _ _) (tokenize_signBehindBlanks_of_word h)
  change ((ofSource _ 0).cursor.program 0).1 = _
  rw [hcursor, program_atSign]

/-- So there are sources that no tree restores, but none of them is addressable. -/
theorem exists_restore_program_ne : ∃ source, (ofSource source 0).program.1.restore ≠ source := by
  obtain ⟨n, hn⟩ := exists_word_eq_zero
  refine ⟨Text.signBehindBlanks n, ?_⟩
  have hsign : (ofSource (Text.signBehindBlanks n) 0).program.1.restore = ['@'] := by
    rw [program_signBehindBlanks hn]
    decide +kernel
  rw [hsign]
  exact fun h => absurd (congrArg List.length h) (by simp [Text.signBehindBlanks])

end Parser

end LosslessSyntax
