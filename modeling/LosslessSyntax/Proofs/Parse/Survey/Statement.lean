import LosslessSyntax.Proofs.Parse.Account.Statement
import LosslessSyntax.Proofs.Parse.ElseIf
import LosslessSyntax.Proofs.Parse.Survey.Expression

/-! The survey through statements, if the next level keeps it. A statement is read only where the place admits one, so
a run of tokens that begin none is met in lists alone. A chain of choices is surveyed as choices one inside the
other. -/

namespace LosslessSyntax

open Rule

theorem Control.spots_with_alternate {control : Control Node} (h : control.alternate = none) (a : Alternate Node) :
    Control.spots { control with alternate := some a } = control.spots ++ a.spots := by
  simp [Control.spots, Control.introduction, h]

namespace Level

variable {l : Level} {source : List Token} {ps : List Spot} {k : Kind}

/-- The survey behind what makes up a statement: not nothing, and no statement that a semicolon alone is. -/
def SurveyContent (source : List Token) (ps : List Spot) (n : Node) (c : Cursor) : Prop :=
  (n.isIdle = false ∧ n.isEmpty = false) ∧ Survey source (ps ++ [n.placed .within]) c

/-! ### Declarations -/

theorem surveys_declarator (hl : l.Surveys source) (form : DeclarationForm) (lead : Lexeme) :
    Triple (Survey source (ps ++ [Part.within (.lexeme lead)])) (l.declarator form lead)
      fun d c => d.additional = [] ∧ Survey source (ps ++ d.parts.map Part.within) c := by
  refine (surveys_expectIdentifier _).bind fun name => (surveys_optional _ _).bind fun
    | none => Triple.pure fun c h => ⟨rfl, ?_⟩
    | some equals => (hl.expression.surveys _).bind fun value => Triple.pure fun c h => ⟨rfl, ?_⟩
  · simpa [Declarator.parts, Declarator.chainParts, Lexeme.optionalParts] using h
  · simpa [Declarator.parts, Declarator.chainParts, Initializer.parts, Lexeme.optionalParts, Part.within,
      Node.placed] using h

theorem surveys_declaratorRound (hl : l.Surveys source) (form : DeclarationForm) (ds : List (Declarator Node)) :
    Triple (Survey source (ps ++ (Declarator.chainParts ds).map Part.within)) (l.declaratorRound form) fun s c =>
      cond s.2 (Survey source (ps ++ (Declarator.chainParts (ds ++ s.1)).map Part.within) c)
        (Survey source (ps ++ (Declarator.chainParts (ds ++ s.1)).map Part.within) c) := by
  refine (surveys_optional _ _).bind fun
    | none => Triple.pure fun c h => ?_
    | some lead => (surveys_declarator hl form lead).bind fun d => Triple.pure fun c h => ?_
  · simpa [Lexeme.optionalParts] using h
  · rw [List.append_assoc] at h
    rw [chainParts_append]
    simpa [Declarator.chainParts] using h.2

theorem surveys_declarators (hl : l.Surveys source) (form : DeclarationForm) :
    (collect (l.declaratorRound form) (l.advances_declaratorRound form)).Surveys source
      fun ds => (Declarator.chainParts ds).map Part.within := fun ps =>
  (Triple.collect (J := fun ds => Survey source (ps ++ (Declarator.chainParts ds).map Part.within))
    (surveys_declaratorRound hl form)).of_imp fun _ h => h.append_nil

theorem surveys_declaration (hl : l.Surveys source) (form : DeclarationForm) :
    Triple (Survey source ps) (l.declaration form) (SurveyContent source ps) := by
  refine (surveys_bump ps).bind fun keyword => (surveys_declarator hl form keyword).bind fun first =>
    Triple.of_and fun hfirst => (surveys_declarators hl form _).bind fun additional => Triple.pure fun c h =>
    ⟨⟨rfl, rfl⟩, Survey.node ?_ ⟨trivial, trivial, fun _ => trivial⟩⟩
  change Survey source (ps ++ (first.withAdditional additional).parts.map Part.within) c
  rw [parts_withAdditional hfirst, List.map_append, ← List.append_assoc]
  exact h

theorem surveys_functionDeclaration (hl : l.Surveys source) :
    Triple (Survey source ps) l.functionDeclaration (SurveyContent source ps) := by
  refine (surveys_bump ps).bind fun keyword => (surveys_expectIdentifier _).bind fun name =>
    (surveys_function hl _).bind fun body => Triple.pure fun c h =>
    ⟨⟨rfl, rfl⟩, Survey.node ?_ ⟨trivial, trivial, fun _ => trivial⟩⟩
  simpa [Node.spots] using h

/-! ### Control flow -/

/-- A body without braces holds a statement behind its trivia, or only trivia. -/
theorem surveys_body (hl : l.Surveys source) :
    Triple (Survey source ps) l.body fun b c => b.Fresh ∧ Survey source (ps ++ b.spots) c := by
  refine Triple.kind_bind fun k => Triple.ite (fun _ => (surveys_block hl).of_imp fun _ h => h.1) fun _ => ?_
  have htrivia : Triple (fun c => Survey source ps c ∧ c.kind = k) takeTrivia
      fun trivia c => Survey source (ps ++ trivia.map (Node.placed .single)) c ∧ c.kind = k :=
    fun c h => ⟨h.1.takeTrivia .single, c.kind_takeTrivia.trans h.2⟩
  refine htrivia.bind fun trivia => Triple.ite (fun hk => ?_) fun _ => ?_
  · refine ((hl.statement .single _).of_imp fun c (h : _ ∧ c.kind = k) => ⟨h.1, h.2 ▸ hk⟩).bind fun statement =>
      Triple.pure fun c h => ⟨⟨fun _ => rfl, rfl⟩, ?_⟩
    rw [Block.spots_single, List.map_append, ← List.append_assoc]
    exact h
  · refine ((surveys_report _ _).of_imp fun c h => h.1).bind fun _ => Triple.pure fun c h =>
      ⟨⟨fun _ => rfl, rfl⟩, ?_⟩
    rw [Block.spots_single]
    exact h

theorem surveys_clause (hl : l.Surveys source) (first : Bool) :
    (l.clause first).Surveys source fun n => [n.placed .within] := by
  intro ps
  refine Triple.kind_bind fun k => Triple.ite (fun _ => Triple.pure fun c h => ?_) fun _ => ?_
  · exact h.1.append_nil.node ⟨trivial, trivial, fun _ => trivial⟩
  · split
    · exact (surveys_declaration hl _).imp (fun _ h => h.1) fun _ _ h => h.2
    · exact (hl.expression.surveys ps).of_imp fun _ h => h.1

theorem surveys_header (hl : l.Surveys source) (form : ControlForm) :
    (l.header form).Surveys source fun s => (separatedParts ([.node ·]) s).map Part.within := by
  intro ps
  cases form with
  | forForm =>
      refine (surveys_clause hl true ps).bind fun initial => (surveys_expect _ _).bind fun first =>
        (surveys_clause hl false _).bind fun condition => (surveys_expect _ _).bind fun second =>
        (surveys_clause hl false _).bind fun step => Triple.pure fun c h => ?_
      simpa [separatedParts, Part.interleave, Part.within, Node.placed] using h
  | ifForm => exact (hl.expression.surveys ps).bind fun condition => Triple.pure fun c h => h
  | whileForm => exact (hl.expression.surveys ps).bind fun condition => Triple.pure fun c h => h

/-- The survey behind a choice or a loop that has no `else` yet. -/
def SurveyOpen (source : List Token) (ps : List Spot) (control : Control Node) (c : Cursor) : Prop :=
  control.alternate = none ∧ Survey source (ps ++ control.spots) c

theorem surveys_head (hl : l.Surveys source) (form : ControlForm) :
    Triple (Survey source ps) (l.head form) fun control c => control.body.Fresh ∧ SurveyOpen source ps control c := by
  refine (surveys_bump ps).bind fun keyword => (surveys_expect _ _).bind fun opening =>
    (surveys_header hl form _).bind fun (header, separators) => (surveys_expect _ _).bind fun closing =>
    (surveys_body hl).bind fun body => Triple.pure fun c ⟨hfresh, h⟩ => ⟨hfresh, rfl, ?_⟩
  simpa [Control.spots, Control.introduction, separatedParts] using h

/-- Comments in front of an `else` go to the body before it. -/
theorem SurveyOpen.attach {control : Control Node} {c : Cursor} (h : SurveyOpen source ps control c)
    (hfresh : control.body.Fresh) :
    SurveyOpen source ps { control with body := control.body.attach c.takeTrailing.1 } c.takeTrailing.2 := by
  refine ⟨h.1, ?_⟩
  have htrailing := h.2.takeTrailing
  have hcomments : ∀ n ∈ c.takeTrailing.1, n.isTrivia = true := Token.isTrivia_triviaNodes
  have hspots : control.spots = control.introduction.map Part.within ++ control.body.spots := by
    rw [Control.spots, h.1]
    exact List.append_nil _
  rw [hspots, ← List.append_assoc, List.append_assoc] at htrailing
  have hattached := htrailing.refine (Block.refines_attach hfresh hcomments)
  rw [List.append_assoc] at hattached
  simpa [Control.spots, Control.introduction, h.1] using hattached

/-- A choice with the word behind it, if that is an `else`. -/
theorem surveys_choice (hl : l.Surveys source) (form : ControlForm) {c d : Cursor} (h : Survey source ps c)
    {control : Control Node} {keyword : Option Lexeme} (hrun : (l.choice form).run c = ((control, keyword), d)) :
    control.alternate = none ∧
      Survey source (ps ++ control.spots ++ (Lexeme.optionalParts keyword).map Part.within) d := by
  obtain ⟨hfresh, hopen⟩ := surveys_head hl form c h
  rw [run_choice] at hrun
  generalize (l.head form).run c = head at hrun hfresh hopen
  by_cases hgoes : head.1.form = .ifForm ∧ head.2.kind = .keyword .elseWord
  · rw [if_pos hgoes] at hrun
    cases hrun
    have hattached := hopen.attach hfresh
    exact ⟨hattached.1, hattached.2.bump⟩
  · rw [if_neg hgoes] at hrun
    cases hrun
    exact ⟨hopen.1, hopen.2.append_nil⟩

/-- Choices one inside the other: the inner one becomes a statement behind the `else` of the outer one. -/
theorem surveys_nestedControl (hl : l.Surveys source) (form : ControlForm) (c : Cursor) : ∀ ps, Survey source ps c →
    Survey source (ps ++ (l.nestedControl form c).1.spots) (l.nestedControl form c).2 := by
  fun_induction nestedControl l form c with
  | case1 form c control d hrun =>
      intro ps h
      have hchoice := (surveys_choice hl form h hrun).2
      rw [List.append_assoc] at hchoice
      simpa [Lexeme.optionalParts] using hchoice
  | case2 form c control keyword d hrun hif inner ih =>
      intro ps h
      obtain ⟨hnone, hchoice⟩ := surveys_choice hl form h hrun
      have hinner := ih _ (hchoice.takeTrivia .single)
      have hcontrol : Survey source (_ ++ [Node.placed .within (.combinator inner.1)]) inner.2 :=
        Survey.node hinner ⟨trivial, trivial, fun _ => trivial⟩
      have hstatement : Survey source (_ ++ [Node.placed .single (.command (.combinator inner.1) none [])]) inner.2 :=
        Survey.node hcontrol (Node.suits_command (Node.anchorsCommand_none rfl rfl))
      rw [withInner, Control.spots_with_alternate hnone]
      simpa [Alternate.spots, Block.spots, Block.place, Block.isBraced, Lexeme.optionalParts] using hstatement
  | case3 form c control keyword d hrun hif body =>
      intro ps h
      obtain ⟨hnone, hchoice⟩ := surveys_choice hl form h hrun
      have hbody := (surveys_body hl d hchoice).2
      rw [Control.spots_with_alternate hnone]
      simpa [Alternate.spots, Lexeme.optionalParts] using hbody

theorem surveys_control (hl : l.Surveys source) (form : ControlForm) :
    Triple (Survey source ps) (Node.combinator <$> l.control form) (SurveyContent source ps) := by
  refine Triple.map fun c h => ⟨⟨rfl, rfl⟩, ?_⟩
  -- the links that the loop holds on its stack are parts of no tree yet; choices one inside the other are
  have hrun : (l.control form).run c = l.nestedControl form c := unwind_growFrom l form c []
  rw [hrun]
  exact Survey.node (n := .combinator _) (surveys_nestedControl hl form c ps h) ⟨trivial, trivial, fun _ => trivial⟩

/-! ### Statements -/

theorem surveys_whole {inner : Rule Node} (place : Place)
    (h : Triple (Survey source ps) inner (SurveyContent source ps)) :
    Triple (Survey source ps) (whole inner) fun n => Survey source (ps ++ [n.placed place]) := by
  refine h.bind fun n => Triple.pure fun c ⟨⟨hidle, hempty⟩, h⟩ =>
    Survey.node ?_ (Node.suits_command (Node.anchorsCommand_none hidle hempty))
  rw [Node.spots_command]
  exact h

/-- Where a semicolon ends a statement, its content read something, for reading was not given up. -/
theorem surveys_ended {inner : Rule Node} (place : Place) (hconsumes : inner.Consumes (· = k))
    (h : Triple (fun c => Survey source ps c ∧ c.kind = k) inner (SurveyContent source ps)) :
    Triple (fun c => Survey source ps c ∧ c.kind = k) (ended inner) fun n => Survey source (ps ++ [n.placed place]) := by
  intro c ⟨hc, hkind⟩
  have hless := hconsumes c hkind
  obtain ⟨⟨hidle, hempty⟩, hcontent⟩ := h c ⟨hc, hkind⟩
  simp only [ended, run_bind, run_pure]
  generalize inner.run c = s at hless hidle hempty hcontent
  have hlexemes : s.2.kind = .symbol .semicolon → s.1.lexemes ≠ [] := by
    intro hsemicolon
    -- after giving up the end of input is next, and no semicolon is
    refine (hc.lexemes_ne_nil hcontent hless).resolve_left fun hgiven => ?_
    rw [Cursor.kind, if_pos hgiven] at hsemicolon
    cases hsemicolon
  have hoptional := surveys_optional (.symbol .semicolon) _ s.2 hcontent
  refine Survey.node ?_ (Node.suits_command
    ⟨hidle, fun h => absurd h (hempty ▸ Bool.false_ne_true), fun _ => ?_, List.forall_mem_nil _⟩)
  · rw [Node.spots_command, List.map_nil, List.append_nil, ← List.singleton_append, ← List.append_assoc]
    exact hoptional
  · intro hsome
    refine hlexemes ?_
    by_contra hother
    simp [Rule.optional, hother] at hsome

theorem surveys_returning (hl : l.Surveys source) (hk : k ≠ .endOfInput) :
    Triple (fun c => Survey source ps c ∧ c.kind = k) l.returning (SurveyContent source ps) := by
  have hbump : Triple (fun c => Survey source ps c ∧ c.kind = k) bump fun keyword c =>
      Token.offersValue (Token.behind 1 (Spot.rest source ps)) = (c.kind.startsExpression && !c.followsLineBreak) ∧
        Survey source (ps ++ [Part.within (.lexeme keyword)]) c := by
    rintro c ⟨h, rfl⟩
    obtain ⟨hgiven, t, ts, hahead, -⟩ := Cursor.ahead_of_kind hk
    have hrest : Token.behind 1 (Spot.rest source ps) = c.bump.2.upcoming := by
      rw [Token.behind, Token.behind, ← h.ahead, hahead, Cursor.bump_eq hahead]
      rfl
    rw [run_bump, hrest]
    refine ⟨Cursor.offersValue_upcoming ?_, h.bump⟩
    rw [Cursor.bump_eq hahead]
    exact hgiven
  refine hbump.bind fun keyword => Triple.kind_bind fun k => Triple.look_bind fun separate =>
    Triple.ite (fun hvalue => ?_) fun hvalue => ?_
  · rintro c ⟨⟨⟨hoffers, h⟩, rfl⟩, rfl⟩
    rw [hvalue] at hoffers
    have hexpression := hl.expression.surveys _ c h
    refine ⟨⟨rfl, rfl⟩, Survey.node ?_ ⟨trivial, hoffers.symm, fun _ => trivial⟩⟩
    simpa [Node.spots, Node.parts, Part.within, Node.placed] using hexpression
  · rintro c ⟨⟨⟨hoffers, h⟩, rfl⟩, rfl⟩
    rw [eq_false_of_ne_true hvalue] at hoffers
    exact ⟨⟨rfl, rfl⟩, Survey.node h ⟨trivial, hoffers.symm, fun _ => trivial⟩⟩

/-- A semicolon alone stands behind nothing. -/
theorem surveys_emptyStatement (place : Place) :
    Triple (Survey source ps) emptyStatement fun n => Survey source (ps ++ [n.placed place]) := by
  have hempty (c : Cursor) (h : Survey source ps c) : Survey source (ps ++ [Node.placed .within .empty]) c :=
    h.append_nil.node ⟨trivial, trivial, fun _ => trivial⟩
  refine ((surveys_report _ _).of_imp hempty).bind fun _ => (surveys_bump _).bind fun semicolon =>
    Triple.pure fun c h => Survey.node ?_ (Node.suits_command
      ⟨rfl, fun _ => rfl, fun h => absurd h.symm Bool.false_ne_true, List.forall_mem_nil _⟩)
  rw [List.append_assoc] at h
  exact h

/-- A run of tokens that begin no statement is taken as far as it goes. -/
theorem surveys_unparsedStatement {nested : Bool} (hend : k ≠ .endOfInput) (hstops : k.endsRun nested = false) :
    Triple (fun c => Survey source ps c ∧ c.kind = k) (unparsedStatement nested)
      fun n => Survey source (ps ++ [n.placed (.listed nested)]) := by
  let run := (Place.listed nested).run (Spot.rest source ps)
  have hbump : Triple (fun c => Survey source ps c ∧ c.kind = k) bump fun first c =>
      run.map Token.text = first.text :: c.textsUntil (Kind.endsRun nested) ∧ c.givenUp = false ∧
        Survey source (ps ++ [Part.within (.lexeme first)]) c := by
    rintro c ⟨h, rfl⟩
    obtain ⟨hgiven, t, ts, hahead, -⟩ := Cursor.ahead_of_kind hend
    have htexts : run.map Token.text = c.textsUntil (Kind.endsRun nested) := by
      rw [Cursor.textsUntil, ← h.significant_rest]
      rfl
    refine ⟨htexts.trans (Cursor.textsUntil_bump hend hstops), ?_, h.bump⟩
    rw [run_bump, Cursor.bump_eq hahead]
    exact hgiven
  refine Triple.kind_bind fun _ => Triple.bind (Q := fun _ c => Survey source ps c ∧ c.kind = k) ?_ fun _ =>
    hbump.bind fun first => ?_
  · exact fun c h => ⟨h.1.1.report _ [], (c.kind_report _ []).trans h.1.2⟩
  rintro c ⟨htexts, hgiven, h⟩
  have hothers := texts_lexemesUntil (Kind.endsRun nested) _ c ⟨rfl, hgiven, h.isRead⟩
  have hafter := surveys_lexemesUntil (Kind.endsRun nested) _ c h
  rw [← hothers] at htexts
  rw [List.append_assoc] at hafter
  exact Survey.node hafter ⟨trivial, trivial, fun _ => ⟨htexts.symm, .inr (List.cons_ne_nil _ _)⟩⟩

theorem surveys_statementHere (hl : l.Surveys source) (place : Place) (ps : List Spot) :
    Triple (fun c => Survey source ps c ∧ place.admits c.kind = true) (l.statementHere place.isNested)
      fun n => Survey source (ps ++ [n.placed place]) := by
  refine Triple.kind_bind fun k => Triple.look_bind fun next => ?_
  have hstart (c : Cursor) (h : ((Survey source ps c ∧ place.admits c.kind = true) ∧ c.kind = k) ∧ c.nextKind = next) :
      place.admits k = true ∧ Survey source ps c ∧ c.kind = k := ⟨h.1.2 ▸ h.1.1.2, h.1.1.1, h.1.2⟩
  refine (Triple.of_and fun hadmits => ?_).of_imp hstart
  have hexpression (hk : k.startsExpression = true) : Triple (fun c => Survey source ps c ∧ c.kind = k)
      (ended l.expression) fun n => Survey source (ps ++ [n.placed place]) :=
    surveys_ended place (l.consumes_expression.on hk) ((hl.expression ps).imp (fun _ h => h.1) fun n c h =>
      ⟨⟨Node.isIdle_of_isExpression h.1.1, Node.isEmpty_of_isExpression h.1.1⟩, h.2⟩)
  have hbump (hk : k ≠ .endOfInput) : bump.Consumes (· = k) := consumes_bump_on hk
  split
  case h_1 | h_2 | h_3 =>
    exact surveys_ended place ((hbump nofun).bind _) ((surveys_declaration hl _).of_imp fun _ h => h.1)
  case h_4 =>
    refine Triple.ite (fun _ => ?_) fun _ => hexpression rfl
    exact (surveys_whole place (surveys_functionDeclaration hl)).of_imp fun _ h => h.1
  case h_5 | h_6 | h_7 => exact (surveys_whole place (surveys_control hl _)).of_imp fun _ h => h.1
  case h_8 => exact surveys_ended place ((hbump nofun).bind _) (surveys_returning hl nofun)
  case h_9 => exact (surveys_emptyStatement place).of_imp fun _ h => h.1
  case h_10 =>
    refine Triple.ite hexpression fun hk => ?_
    have hstarts : k.startsStatement = false := by
      unfold Kind.startsStatement
      split <;> first | contradiction | exact eq_false_of_ne_true hk
    cases place with
    | listed nested =>
        simp only [Place.admits, Bool.and_eq_true, decide_eq_true_eq, Bool.not_eq_true'] at hadmits
        have hstops : k.endsRun nested = false := Bool.or_eq_false_iff.mpr ⟨hstarts, hadmits.2⟩
        exact surveys_unparsedStatement hadmits.1 hstops
    | single => exact absurd (hstarts.symm.trans hadmits) Bool.false_ne_true
    | within => cases hadmits

end Level

end LosslessSyntax
