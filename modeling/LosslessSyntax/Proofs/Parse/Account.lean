import LosslessSyntax.Parse.Cursor
import LosslessSyntax.Proofs.Diagnostic.Fault
import LosslessSyntax.Proofs.Parse.Spelling
import LosslessSyntax.Proofs.Tree.Trailing

/-! The account of a reading. While tokens are read into a tree, the parts of the tree read so far spell the
tokens taken, an error was noted exactly if one of these parts is flawed, and as many idle statements were
warned of as there are. A fault may be noted before the part is finished that shows it; until then it is a
flaw still to be shown. Once reading is given up, something is flawed. -/

namespace LosslessSyntax

/-- Whether the grammar has a place for tokens of the kind. Where it has none, they are left unparsed. -/
def Kind.hasPlace : Kind → Bool
  | .unknown | .endOfInput => false
  | _ => true

/-- A kind has a place if it is one of those that the grammar asks for. -/
theorem Kind.hasPlace_of (p : Kind → Prop) {k : Kind} (hk : p k) (hunknown : ¬p .unknown)
    (hend : ¬p .endOfInput) : k.hasPlace = true := by
  cases k <;> first | rfl | contradiction

theorem Token.kind_ne_unknown_of_isTrivia {t : Token} (h : t.isTrivia = true) : t.kind ≠ .unknown := by
  intro hunknown
  rw [isTrivia, hunknown] at h
  exact Bool.false_ne_true h

theorem Cursor.ahead_of_hasPlace {c : Cursor} (h : c.kind.hasPlace = true) :
    c.givenUp = false ∧ ∃ t rest, c.ahead = t :: rest ∧ t.kind = c.kind := by
  unfold Cursor.kind at h ⊢
  by_cases hgiven : c.givenUp = true
  · rw [if_pos hgiven] at h
    cases h
  · rw [if_neg hgiven] at h ⊢
    refine ⟨eq_false_of_ne_true hgiven, ?_⟩
    rcases hahead : c.ahead with _ | ⟨t, rest⟩
    · rw [hahead] at h
      cases h
    · exact ⟨t, rest, rfl, rfl⟩

/-- Whether anything is flawed: one of the parts, or what is still to be shown. -/
def Part.flawedAmong (ps : List (Part Node)) (flaw : Bool) : Bool := flaw || ps.any Part.isFlawed

open LosslessSyntax.Part

theorem Part.flawedAmong_append (ps qs : List (Part Node)) (flaw : Bool) :
    flawedAmong (ps ++ qs) flaw = (flawedAmong ps flaw || qs.any isFlawed) := by
  rw [flawedAmong, flawedAmong, List.any_append, Bool.or_assoc]

theorem Part.flawedAmong_missing (ps : List (Part Node)) (flaw : Bool) :
    flawedAmong (ps ++ [.lexeme .missing]) flaw = true := by
  rw [flawedAmong_append]
  exact Bool.or_true _

/-- What is known where `c` is reached, when the parts `ps` have been read of `source`. With `flaw`, a fault
was noted that the parts need not show yet. What the parts spell is known where the tokens stand in the text of the
cursor as their offsets tell. -/
structure Account (source : List Token) (ps : List (Part Node)) (flaw : Bool) (c : Cursor) : Prop where
  text_ne_nil : ∀ t ∈ source, t.text ≠ []
  spelled : ∃ taken, source = taken ++ c.upcoming ∧
    (Token.Addressed c.source source → Event.Spells (ps.flatMap Part.events) taken) ∧
    (flawedAmong ps flaw = false → ∀ t ∈ taken, t.kind ≠ .unknown)
  hasErrors : c.diagnostics.hasErrors = flawedAmong ps flaw
  flawed_of_givenUp : c.givenUp = true → flawedAmong ps flaw = true
  idle : c.diagnostics.idleCount = Part.idleCount ps
  faultOrIdle : ∀ d ∈ c.diagnostics, d.IsFaultOrIdle

namespace Account

variable {source : List Token} {ps qs rs : List (Part Node)} {flaw flaw' : Bool} {c : Cursor}

/-- Before anything is read, there is nothing to account for. -/
theorem start {text : Text} {last : Token} (h : ∀ t ∈ source, t.text ≠ []) :
    Account source [] false { source := text, upcoming := source, last } where
  text_ne_nil := h
  spelled := ⟨[], rfl, fun _ => .nil, fun _ _ ht => absurd ht List.not_mem_nil⟩
  hasErrors := rfl
  flawed_of_givenUp h := absurd h Bool.false_ne_true
  idle := rfl
  faultOrIdle _ hd := absurd hd List.not_mem_nil

theorem mem_source (h : Account source ps flaw c) {t : Token} (ht : t ∈ c.upcoming) : t ∈ source := by
  obtain ⟨taken, hsource, -⟩ := h.spelled
  rw [hsource]
  exact List.mem_append_right _ ht

/-! ### The same content told in another way -/

/-- A flaw may be shown by a part or still be to be shown, as long as it is one or the other. -/
theorem of_flawedAmong_eq (h : Account source ps flaw c)
    (hevents : ps.flatMap Part.events = qs.flatMap Part.events)
    (hflawed : flawedAmong ps flaw = flawedAmong qs flaw')
    (hidle : Part.idleCount ps = Part.idleCount qs) : Account source qs flaw' c := by
  obtain ⟨taken, hsource, hspells, hknown⟩ := h.spelled
  exact {
    text_ne_nil := h.text_ne_nil
    spelled := ⟨taken, hsource, hevents ▸ hspells, hflawed ▸ hknown⟩
    hasErrors := hflawed ▸ h.hasErrors
    flawed_of_givenUp := hflawed ▸ h.flawed_of_givenUp
    idle := h.idle.trans hidle
    faultOrIdle := h.faultOrIdle }

theorem congr (h : Account source ps flaw c) (halike : Alike ps qs) : Account source qs flaw c :=
  h.of_flawedAmong_eq halike.events (congrArg (flaw || ·) halike.flawed) halike.idle

theorem congr_end (h : Account source (ps ++ qs) flaw c) (halike : Alike qs rs) :
    Account source (ps ++ rs) flaw c := h.congr ((Alike.refl ps).append halike)

theorem append_nil (h : Account source ps flaw c) : Account source (ps ++ []) flaw c := by
  rw [List.append_nil]
  exact h

/-- Where something is flawed already, a flaw still to be shown makes no difference. -/
theorem of_flawed (h : Account source ps flaw c) (hflawed : flawedAmong ps flaw = true)
    (hflawed' : flawedAmong ps flaw' = true) : Account source ps flaw' c :=
  h.of_flawedAmong_eq rfl (hflawed.trans hflawed'.symm) rfl

/-- The parts of a node become the node. What is wrong with the node itself need not be shown before. -/
theorem node {n : Node} (h : Account source (ps ++ n.parts) (flaw || n.isFlawedItself) c)
    (hidle : n.isIdle = false) : Account source (ps ++ [.node n]) flaw c := by
  refine h.of_flawedAmong_eq ?_ ?_ ?_
  · rw [List.flatMap_append, List.flatMap_append, List.flatMap_singleton, Part.events, Node.events_eq]
  · rw [flawedAmong, flawedAmong, List.any_append, List.any_append, List.any_cons, List.any_nil, isFlawed_node]
    ac_rfl
  · rw [idleCount_append, idleCount_append, idleCount_node, hidle]
    exact congrArg _ (Nat.zero_add _).symm

theorem sound_node {n : Node} (h : Account source (ps ++ n.parts) flaw c) (hflawed : n.isFlawedItself = false)
    (hidle : n.isIdle = false) : Account source (ps ++ [.node n]) flaw c := by
  apply node _ hidle
  rw [hflawed, Bool.or_false]
  exact h

/-- Lexemes that fit nowhere become a node that shows a flaw, so that nothing is left to show. -/
theorem unparsed {lexemes : List Lexeme} (h : Account source (ps ++ lexemes.map .lexeme) true c) :
    Account source (ps ++ [.node (.unparsed lexemes)]) flaw c := by
  apply node _ rfl
  show Account source (ps ++ lexemes.map .lexeme) (flaw || true) c
  rw [Bool.or_true]
  exact h

/-! ### Taking tokens -/

/-- Where the tokens of the source stand as their offsets tell, those that are left do. -/
theorem isAddressed (h : Account source ps flaw c) (haddressed : Token.Addressed c.source source) : c.IsAddressed := by
  obtain ⟨taken, hsource, -⟩ := h.spelled
  exact haddressed.of_suffix ⟨taken, hsource.symm⟩

/-- Tokens go from the cursor into sound parts that spell them. -/
theorem take {run rest : List Token} (h : Account source ps flaw c) (hrun : c.upcoming = run ++ rest)
    (hspells : c.IsAddressed → Event.Spells (qs.flatMap Part.events) run) (hsound : qs.any Part.isFlawed = false)
    (hidle : Part.idleCount qs = 0)
    (hknown : flawedAmong ps flaw = false → ∀ t ∈ run, t.kind ≠ .unknown) :
    Account source (ps ++ qs) flaw { c with upcoming := rest } := by
  have hflawed : flawedAmong (ps ++ qs) flaw = flawedAmong ps flaw := by
    rw [flawedAmong_append, hsound, Bool.or_false]
  obtain ⟨taken, hsource, htaken, hbefore⟩ := h.spelled
  refine ⟨h.text_ne_nil, ⟨taken ++ run, ?_, fun haddressed => ?_, ?_⟩, ?_, ?_, ?_, h.faultOrIdle⟩
  · rw [hsource, hrun, List.append_assoc]
  · rw [List.flatMap_append]
    exact (htaken haddressed).append (hspells (h.isAddressed haddressed))
  · intro hno t ht
    rw [hflawed] at hno
    exact (List.mem_append.mp ht).elim (hbefore hno t) (hknown hno t)
  · rw [hflawed]
    exact h.hasErrors
  · rw [hflawed]
    exact h.flawed_of_givenUp
  · rw [idleCount_append, hidle, Nat.add_zero]
    exact h.idle

theorem take_trivia {run rest : List Token} {nodes : List Node} (h : Account source ps flaw c)
    (hrun : c.upcoming = run ++ rest) (htrivia : ∀ t ∈ run, t.isTrivia = true)
    (hnodes : ∀ n ∈ nodes, n.isTrivia = true) (hjoined : c.IsAddressed → nodes = Token.joinedNodes run) :
    Account source (ps ++ nodes.map .node) flaw { c with upcoming := rest } := by
  obtain ⟨hsound, hidle⟩ := sound_trivia hnodes
  apply h.take hrun
  · intro haddressed
    rw [hjoined haddressed, List.flatMap_map]
    exact Token.spells_joinedNodes htrivia
  · exact hsound
  · exact hidle
  · intro _ t ht
    exact Token.kind_ne_unknown_of_isTrivia (htrivia t ht)

theorem takeTrivia (h : Account source ps flaw c) :
    Account source (ps ++ c.takeTrivia.1.map .node) flaw c.takeTrivia.2 :=
  h.take_trivia c.trivia_append_ahead.symm (fun _ => Cursor.isTrivia_of_mem_trivia)
    Token.isTrivia_triviaNodes Cursor.IsAddressed.takeTrivia_eq

theorem takeTrailing (h : Account source ps flaw c) :
    Account source (ps ++ c.takeTrailing.1.map .node) flaw c.takeTrailing.2 := by
  have hsplit := Token.splitTrailing_append c.trivia
  apply h.take_trivia
  · rw [← List.append_assoc, hsplit]
    exact c.trivia_append_ahead.symm
  · intro t ht
    exact Cursor.isTrivia_of_mem_trivia (hsplit ▸ List.mem_append_left _ ht)
  · exact Token.isTrivia_triviaNodes
  · exact Cursor.IsAddressed.takeTrailing_eq

/-- A missing lexeme shows that something is wrong, so that nothing is left to show. -/
theorem missing (h : Account source ps flaw c) (hflawed : flawedAmong ps flaw = true) :
    Account source (ps ++ [.lexeme .missing]) flaw' c := by
  have hmissing := flawedAmong_missing ps flaw'
  obtain ⟨taken, hsource, htaken, -⟩ := h.spelled
  refine ⟨h.text_ne_nil, ⟨taken, hsource, fun haddressed => ?_, ?_⟩, ?_, fun _ => hmissing, ?_, h.faultOrIdle⟩
  · rw [List.flatMap_append, ← List.append_nil taken]
    exact (htaken haddressed).append (.missing .nil)
  · intro hno
    rw [hmissing] at hno
    cases hno
  · rw [h.hasErrors, hflawed, hmissing]
  · rw [idleCount_append]
    exact h.idle

theorem take_lexeme {t : Token} {rest : List Token} (h : Account source ps flaw c)
    (hahead : c.ahead = t :: rest) (hknown : t.kind = .unknown → flawedAmong ps flaw = true) :
    Account source (ps ++ [.lexeme ⟨c.leading, t.text⟩]) flaw { c with upcoming := rest } := by
  have hupcoming : c.upcoming = (c.trivia ++ [t]) ++ rest := by
    rw [List.append_assoc, List.singleton_append, ← hahead, Cursor.trivia_append_ahead]
  have htext : t.text ≠ [] := by
    apply h.text_ne_nil t
    apply h.mem_source
    rw [hupcoming]
    simp
  have hlexeme (haddressed : c.IsAddressed) : Event.Spells [.lexeme ⟨c.leading, t.text⟩] (c.trivia ++ [t]) :=
    haddressed.leading_eq ▸
      .lexeme (fun _ => Cursor.isTrivia_of_mem_trivia) (Cursor.isTrivia_eq_false_of_ahead hahead) .nil
  apply h.take hupcoming
  · exact hlexeme
  · simp [Lexeme.isMissing, htext]
  · rfl
  · intro hno u hu
    rcases List.mem_append.mp hu with hu | hu
    · exact Token.kind_ne_unknown_of_isTrivia (Cursor.isTrivia_of_mem_trivia hu)
    · cases List.mem_singleton.mp hu
      intro hunknown
      rw [hknown hunknown] at hno
      cases hno

theorem bump (h : Account source ps flaw c) (hplace : c.kind.hasPlace = true) :
    Account source (ps ++ [.lexeme c.bump.1]) flaw c.bump.2 := by
  obtain ⟨-, t, rest, hahead, hkind⟩ := Cursor.ahead_of_hasPlace hplace
  rw [Cursor.bump_eq hahead]
  apply h.take_lexeme hahead
  intro hunknown
  rw [← hkind, hunknown] at hplace
  cases hplace

/-- In what is flawed anyway, any token becomes a lexeme, and the end of input a missing one. -/
theorem bump_flawed (h : Account source ps true c) :
    Account source (ps ++ [.lexeme c.bump.1]) true c.bump.2 := by
  cases hahead : c.ahead with
  | nil =>
      rw [Cursor.bump, hahead]
      exact h.missing rfl
  | cons t rest =>
      rw [Cursor.bump_eq hahead]
      exact h.take_lexeme hahead fun _ => rfl

/-! ### Noting diagnostics -/

/-- A fault is noted; it is a flaw still to be shown. -/
theorem report {m : Message} (hm : m.isFault = true) (args : List Text) (h : Account source ps flaw c) :
    Account source ps true (c.report m args) := by
  obtain ⟨taken, hsource, hspells, -⟩ := h.spelled
  unfold Cursor.report
  by_cases hgiven : c.givenUp = true
  · -- nothing is noted any more, but what made reading give up was
    rw [if_pos hgiven]
    exact h.of_flawed (h.flawed_of_givenUp hgiven) rfl
  · rw [if_neg hgiven]
    refine ⟨h.text_ne_nil, ⟨taken, hsource, hspells, nofun⟩, ?_, fun _ => rfl, ?_, fun d hd => ?_⟩
    · rw [Diagnostics.hasErrors_append, Diagnostics.hasErrors_fault hm, Bool.or_true]
      rfl
    · rw [Diagnostics.idleCount_append, Diagnostics.idleCount_fault hm]
      exact h.idle
    · rcases List.mem_append.mp hd with hd | hd
      · exact h.faultOrIdle d hd
      · rw [List.mem_singleton.mp hd]
        exact .inl (Diagnostic.isError_of hm _ _)

theorem giveUp (h : Account source ps true c) : Account source ps true c.giveUp :=
  ⟨h.text_ne_nil, h.spelled, h.hasErrors, fun _ => rfl, h.idle, h.faultOrIdle⟩

/-- A warning about an idle statement goes with the statement. -/
theorem warn {l : Lexeme} {d : Diagnostic} (h : Account source (ps ++ [.lexeme l]) flaw c)
    (herror : d.isError = false) (hcode : d.code = Message.emptyStatement.code) :
    Account source (ps ++ [.node (.command .empty (some l) [])]) flaw
      { c with diagnostics := c.diagnostics ++ [d] } := by
  have hevents : Part.events (.node (.command .empty (some l) [])) = [.lexeme l] := by
    simp [Part.events, Node.events_eq, Node.parts, Lexeme.optionalParts]
  have hflawed : isFlawed (.node (.command .empty (some l) [])) = isFlawed (.lexeme l) := by
    simp [isFlawed_node, Node.parts, Lexeme.optionalParts, Node.isFlawedItself, Node.isUnparsed, Node.blocks]
  have hidle : idleCount [.node (.command .empty (some l) [])] = 1 := by
    rw [idleCount_node]
    show 1 + idleCount ([.node .empty] ++ [.lexeme l]) = 1
    rw [idleCount_append, idleCount_node]
    rfl
  have hamong : flawedAmong (ps ++ [.node (.command .empty (some l) [])]) flaw =
      flawedAmong (ps ++ [.lexeme l]) flaw := by
    rw [flawedAmong_append, flawedAmong_append, List.any_cons, List.any_cons, hflawed]
  have hspelled := h.spelled
  rw [List.flatMap_append] at hspelled
  refine ⟨h.text_ne_nil, ?_, ?_, ?_, ?_, fun e he => ?_⟩
  · rw [List.flatMap_append, List.flatMap_singleton, hevents, hamong]
    exact hspelled
  · have hwarning : Diagnostics.hasErrors [d] = false := by
      rw [Diagnostics.hasErrors, List.any_cons, herror]
      rfl
    rw [hamong, Diagnostics.hasErrors_append, hwarning, Bool.or_false]
    exact h.hasErrors
  · rw [hamong]
    exact h.flawed_of_givenUp
  · have hbefore := h.idle
    rw [idleCount_append] at hbefore ⊢
    rw [Diagnostics.idleCount_append, hbefore, hidle, Diagnostics.idleCount, List.countP_singleton,
      if_pos (decide_eq_true hcode)]
    rfl
  · rcases List.mem_append.mp he with he | he
    · exact h.faultOrIdle e he
    · cases List.mem_singleton.mp he
      exact .inr hcode

theorem resume (h : Account source ps flaw c) : Account source ps flaw { c with givenUp := false } :=
  ⟨h.text_ne_nil, h.spelled, h.hasErrors, nofun, h.idle, h.faultOrIdle⟩

/-- The semicolon of an idle statement is read after the warning about it. -/
theorem idleStatement (h : Account source ps flaw c) (hk : c.kind = .symbol .semicolon) :
    Account source (ps ++ [.node (.command .empty (some (c.report .emptyStatement []).bump.1) [])]) flaw
      (c.report .emptyStatement []).bump.2 := by
  have hplace : c.kind.hasPlace = true := by rw [hk]; rfl
  obtain ⟨hgiven, t, rest, hahead, -⟩ := Cursor.ahead_of_hasPlace hplace
  have hreport : c.report .emptyStatement [] = { c with diagnostics := c.diagnostics ++ [_] } :=
    if_neg (by rw [hgiven]; exact Bool.false_ne_true)
  have hreported : (c.report .emptyStatement []).ahead = t :: rest := by rw [hreport]; exact hahead
  have hlexeme := h.bump hplace
  rw [Cursor.bump_eq hahead] at hlexeme
  rw [Cursor.bump_eq hreported, hreport]
  exact hlexeme.warn rfl rfl

end Account

end LosslessSyntax
