import LosslessSyntax.Parse.Nesting
import LosslessSyntax.Proofs.Parse.Climbing
import LosslessSyntax.Proofs.Parse.Survey

/-! The survey through statement lists, functions and expressions, if the next level keeps it. An expression without
any lexeme is read only where a list ends, so no operator, bracket or dot comes behind it. -/

namespace LosslessSyntax

open Rule

/-- Whether the node is an expression, and has a lexeme unless a list ends at the cursor behind it. -/
def Node.Solid (n : Node) (c : Cursor) : Prop :=
  n.isExpression = true ∧ (n.lexemes ≠ [] ∨ c.kind.endsList = true)

theorem Node.isIdle_of_isExpression {n : Node} (h : n.isExpression = true) : n.isIdle = false := by
  cases n <;> first | rfl | cases h

theorem Node.isEmpty_of_isExpression {n : Node} (h : n.isExpression = true) : n.isEmpty = false := by
  cases n <;> first | rfl | cases h

/-- An expression with a lexeme among its own parts may have anything behind it. -/
theorem Node.solid_of_mem {n : Node} {c : Cursor} (l : Lexeme) (hl : .lexeme l ∈ n.parts) (h : n.isExpression = true) :
    n.Solid c := ⟨h, .inl (lexemes_ne_nil_of_mem hl)⟩

theorem Node.Solid.leads {n : Node} {c : Cursor} {k : Kind} (h : n.Solid c) (hkind : c.kind = k)
    (hk : k.endsList = false) : n.Leads := by
  refine ⟨isIdle_of_isExpression h.1, h.2.resolve_right ?_⟩
  rw [hkind, hk]
  exact Bool.false_ne_true

/-- Whether the rule keeps the survey when the expression that it comes to is added. -/
def Rule.SurveysExpression (source : List Token) (r : Rule Node) : Prop :=
  ∀ ps, Triple (Survey source ps) r fun n c => n.Solid c ∧ Survey source (ps ++ [n.placed .within]) c

theorem Rule.SurveysExpression.surveys {source : List Token} {r : Rule Node} (h : r.SurveysExpression source) :
    r.Surveys source fun n => [n.placed .within] := fun ps => (h ps).to_imp fun _ _ h => h.2

namespace Level

/-- Whether all that may be asked of the level keeps the survey. A statement is asked for only where the place admits
one. -/
structure Surveys (l : Level) (source : List Token) : Prop where
  statement (place : Place) (ps : List Spot) :
    Triple (fun c => Survey source ps c ∧ place.admits c.kind = true) (l.statement place.isNested)
      fun n => Survey source (ps ++ [n.placed place])
  expression : l.expression.SurveysExpression source
  prefixed : l.prefixed.SurveysExpression source

variable {l : Level} {source : List Token} {ps : List Spot} {k : Kind}

/-! ### Statement lists, blocks and functions -/

theorem surveys_takeTrivia (place : Place) : takeTrivia.Surveys source fun ns => ns.map (Node.placed place) :=
  fun _ _ h => h.takeTrivia place

theorem surveys_statementsRound (hl : l.Surveys source) (nested : Bool) (nodes : List Node) :
    Triple (Survey source (ps ++ nodes.map (Node.placed (.listed nested)))) (l.statementsRound nested) fun s c =>
      cond s.2 (Survey source (ps ++ (nodes ++ s.1).map (Node.placed (.listed nested))) c)
        (Survey source (ps ++ (nodes ++ s.1).map (Node.placed (.listed nested))) c) := by
  refine (surveys_takeTrivia (.listed nested) _).bind fun trivia => Triple.kind_bind fun k =>
    Triple.ite (fun _ => Triple.pure fun c h => ?_) fun hk => ?_
  · rw [List.map_append, ← List.append_assoc]
    exact h.1
  · have hadmits : (Place.listed nested).admits k = true := by
      rw [Bool.not_eq_true, Bool.or_eq_false_iff] at hk
      simp [Place.admits, hk]
    have hstatement := hl.statement (.listed nested) (ps ++ nodes.map (Node.placed (.listed nested)) ++
      trivia.map (Node.placed (.listed nested)))
    refine (hstatement.of_imp fun c (h : _ ∧ c.kind = k) => ⟨h.1, h.2 ▸ hadmits⟩).bind fun statement =>
      Triple.pure fun c h => ?_
    rw [List.map_append, List.map_append, ← List.append_assoc, ← List.append_assoc]
    exact h

theorem surveys_statements (hl : l.Surveys source) (nested : Bool) :
    (l.statements nested).Surveys source fun ns => ns.map (Node.placed (.listed nested)) := by
  intro ps
  have hkept (nodes : List Node) (c : Cursor) (h : Survey source (ps ++ nodes.map (Node.placed (.listed nested))) c) :
      Survey source (ps ++ (Node.attachTrailing nodes).map (Node.placed (.listed nested))) c :=
    h.refine (Node.refines_attachTrailing _ nodes)
  refine (Triple.of_imp (P := Survey source (ps ++ [])) ?_ fun _ h => h.append_nil).bind fun nodes =>
    Triple.pure (hkept nodes)
  exact Triple.collect (J := fun nodes => Survey source (ps ++ nodes.map (Node.placed (.listed nested))))
    (surveys_statementsRound hl nested)

/-- A block in braces, however much of it is missing. -/
theorem surveys_block (hl : l.Surveys source) :
    Triple (Survey source ps) l.block fun b c => b.Fresh ∧ Survey source (ps ++ b.spots) c := by
  refine (surveys_expect _ ps).bind fun opening => Triple.ite (fun hmissing => ?_) fun _ => ?_
  · refine Triple.pure fun c h => ⟨Block.fresh_braces _ _ _, ?_⟩
    simpa [Block.spots, Lexeme.optionalParts] using h.missing
  · refine (surveys_statements hl true _).bind fun statements => (surveys_expect _ _).bind fun closing =>
      Triple.pure fun c h => ⟨Block.fresh_braces _ _ _, ?_⟩
    simpa [Block.spots, Block.place, Block.isBraced, Lexeme.optionalParts] using h

theorem surveysItem_parameter : parameter.SurveysItem source ([.lexeme ·]) := fun ps =>
  Triple.kind_bind fun _ => Triple.ite (fun _ => Triple.map ((surveys_bump ps).of_imp fun _ h => h.1)) fun _ =>
    Triple.ite (fun _ => Triple.pure fun _ h => h.1) fun _ =>
      ((surveys_report _ _).of_imp fun _ h => h.1).bind fun _ => Triple.pure fun _ h => h

theorem surveys_function (hl : l.Surveys source) : l.function.Surveys source Function.spots := by
  intro ps
  refine (surveys_expect _ ps).bind fun opening => (surveys_separated surveysItem_parameter _).bind
    fun (parameters, commas) => (surveys_expect _ _).bind fun closing => (surveys_block hl).bind fun block =>
    Triple.pure fun c h => ?_
  simpa [Function.spots, Function.signature, separatedParts] using h.2

/-! ### Lists of expressions and fields -/

theorem surveys_expressions (hl : l.Surveys source) (closing : Symbol) :
    (l.expressions closing).Surveys source fun s => (separatedParts ([.node ·]) s).map Part.within := by
  refine surveys_separated fun ps => ?_
  refine Triple.kind_bind fun k => Triple.ite (fun _ => Triple.pure fun c h => h.1) fun _ => ?_
  exact Triple.map ((hl.expression.surveys ps).of_imp fun _ h => h.1)

/-- The name of a field may be missing where a colon stands. -/
theorem surveysItem_fieldKey : fieldKey.SurveysItem source ([.lexeme ·]) := by
  refine fun ps => Triple.kind_bind fun k => Triple.ite (fun _ => ?_) fun _ => ?_
  · exact Triple.map ((surveys_bump ps).of_imp fun _ h => h.1)
  · refine ((surveys_report _ _).of_imp fun c h => h.1).bind fun _ => ?_
    by_cases hcolon : k = .symbol .colon
    · rw [if_pos hcolon]
      exact Triple.pure fun _ h => h.missing
    · rw [if_neg hcolon]
      exact Triple.pure fun _ h => h

theorem surveysItem_field (hl : l.Surveys source) : l.field.SurveysItem source Field.parts := by
  refine fun ps => Triple.kind_bind fun k => Triple.ite (fun _ => Triple.pure fun c h => h.1) fun _ => ?_
  refine ((surveysItem_fieldKey ps).of_imp fun c h => h.1).bind fun
    | none => Triple.pure fun c h => h
    | some key => (surveys_expect _ _).bind fun colon => (hl.expression.surveys _).bind fun value =>
        Triple.pure fun c h => ?_
  simpa [Field.parts, Part.within, Node.placed] using h

/-! ### Expressions -/

/-- What is taken where an expression is due: the next token, unless it ends a list. -/
theorem surveys_missingExpression : missingExpression.SurveysExpression source := by
  intro ps
  refine (surveys_report _ _).bind fun _ => Triple.kind_bind fun k => Triple.ite (fun hk => ?_) fun hk => ?_
  · -- a list ends here; the end of input is such an end, whether tokens are left or not
    refine Triple.pure fun c ⟨h, hkind⟩ => ⟨⟨rfl, .inr (hkind ▸ hk)⟩, h.append_nil.node ⟨trivial, trivial, ?_⟩⟩
    refine fun hgiven => ⟨?_, .inl rfl⟩
    rw [Place.run, h.significant_rest]
    cases hahead : c.ahead with
    | nil => rfl
    | cons t ts =>
        have ht : t.kind = k := by rw [← hkind, Cursor.kind, hgiven, hahead]; rfl
        have hsignificant : t.isTrivia = false := Cursor.isTrivia_eq_false_of_ahead hahead
        simp [Token.significant, hsignificant, ht, hk]
  · intro c ⟨h, hkind⟩
    have hend : c.kind ≠ .endOfInput := by
      rw [hkind]
      rintro rfl
      exact hk rfl
    obtain ⟨-, t, ts, hahead, ht⟩ := Cursor.ahead_of_kind hend
    refine ⟨Node.solid_of_mem c.bump.1 List.mem_cons_self rfl, h.bump.node ⟨trivial, trivial, fun _ => ⟨?_, .inl rfl⟩⟩⟩
    have hsignificant : t.isTrivia = false := Cursor.isTrivia_eq_false_of_ahead hahead
    rw [Place.run, h.significant_rest, hahead, run_bump, Cursor.bump_eq hahead]
    simp [Token.significant, hsignificant, ht, hkind, hk]

/-- A lexeme that is an expression by itself. -/
theorem surveys_leaf {f : Lexeme → Node} (hspots : ∀ l, (f l).spots = [Part.within (.lexeme l)])
    (hparts : ∀ l, .lexeme l ∈ (f l).parts) (hexpression : ∀ l, (f l).isExpression = true)
    (hsuits : ∀ l exact excused place ts, (f l).Suits exact excused place ts) :
    (f <$> bump).SurveysExpression source := by
  intro ps
  refine Triple.map ((surveys_bump ps).to_imp fun l c h => ⟨Node.solid_of_mem l (hparts l) (hexpression l), ?_⟩)
  exact Survey.node (hspots l ▸ h) (hsuits l _ _ _ _)

theorem surveys_primary (hl : l.Surveys source) : l.primary.SurveysExpression source := by
  intro ps
  refine Triple.kind_bind fun k => Triple.of_imp (P := Survey source ps) ?_ fun _ h => h.1
  split
  case h_1 | h_2 =>
    exact surveys_leaf (f := .identifier) (fun _ => rfl) (fun _ => List.mem_cons_self) (fun _ => rfl)
      (fun _ _ _ _ _ => ⟨trivial, trivial, fun _ => trivial⟩) ps
  case h_3 | h_4 | h_5 | h_6 | h_7 =>
    exact surveys_leaf (f := .literal) (fun _ => rfl) (fun _ => List.mem_cons_self) (fun _ => rfl)
      (fun _ _ _ _ _ => ⟨trivial, trivial, fun _ => trivial⟩) ps
  case h_8 =>
    -- an expression in parentheses
    refine (surveys_bump ps).bind fun opening => (hl.expression.surveys _).bind fun inner =>
      (surveys_expect _ _).bind fun closing => Triple.pure fun c h =>
      ⟨Node.solid_of_mem opening List.mem_cons_self rfl, Survey.node ?_ ⟨trivial, trivial, fun _ => trivial⟩⟩
    simpa [Node.spots, Node.parts, Part.within, Node.placed] using h
  case h_9 =>
    -- an object literal
    refine (surveys_bump ps).bind fun opening => (surveys_separated (surveysItem_field hl) _).bind fun s =>
      (surveys_expect _ _).bind fun closing => Triple.pure fun c h =>
      ⟨Node.solid_of_mem opening List.mem_cons_self rfl, Survey.node ?_ ⟨trivial, trivial, fun _ => trivial⟩⟩
    simpa [Node.spots, Node.parts, separatedParts] using h
  case h_10 =>
    -- an array literal
    refine (surveys_bump ps).bind fun opening => (surveys_expressions hl _ _).bind fun s =>
      (surveys_expect _ _).bind fun closing => Triple.pure fun c h =>
      ⟨Node.solid_of_mem opening List.mem_cons_self rfl, Survey.node ?_ ⟨trivial, trivial, fun _ => trivial⟩⟩
    simpa [Node.spots, Node.parts, separatedParts] using h
  case h_11 =>
    -- a function
    refine (surveys_bump ps).bind fun keyword => (surveys_optional _ _).bind fun name =>
      (surveys_function hl _).bind fun body => Triple.pure fun c h =>
      ⟨Node.solid_of_mem keyword List.mem_cons_self rfl, Survey.node ?_ ⟨trivial, trivial, fun _ => trivial⟩⟩
    simpa [Node.spots] using h
  case h_12 => exact surveys_missingExpression ps

theorem surveys_fieldName : fieldName.Surveys source fun l => [Part.within (.lexeme l)] := fun ps =>
  Triple.kind_bind fun _ => Triple.ite (fun _ => (surveys_bump ps).of_imp fun _ h => h.1)
    fun _ => (surveys_missing _ _ ps).of_imp fun _ h => h.1

/-- The survey where an expression has been read that may still grow. -/
def SurveyGrown (source : List Token) (ps : List Spot) (n : Node) (c : Cursor) : Prop :=
  n.Solid c ∧ Survey source (ps ++ [n.placed .within]) c

/-- In front of a token that ends no list there is a lexeme, so the expression may get that token behind it. -/
theorem surveyGrown_leads {A : Type} {base : Node} (hk : k.endsList = false) {r : Rule A} {Q : A → Cursor → Prop}
    (h : base.Leads → Triple (Survey source (ps ++ [base.placed .within])) r Q) :
    Triple (fun c => SurveyGrown source ps base c ∧ c.kind = k) r Q :=
  fun c hc => h (hc.1.1.leads hc.2 hk) c hc.1.2

/-- What begins a suffix ends no list. -/
theorem surveys_suffixRound (hl : l.Surveys source) (base : Node) :
    Triple (SurveyGrown source ps base) (l.suffixRound base) fun s c =>
      cond s.2 (SurveyGrown source ps s.1 c) (SurveyGrown source ps s.1 c) := by
  refine Triple.kind_bind fun k => ?_
  split
  case h_1 =>
    refine surveyGrown_leads rfl fun hbase => (surveys_bump _).bind fun dot => (surveys_fieldName _).bind fun field =>
      Triple.pure fun c h => ⟨Node.solid_of_mem dot (by simp [Node.parts]) rfl, Survey.node ?_ ?_⟩
    · simpa [Node.spots, Node.parts, Part.within, Node.placed] using h
    · exact ⟨hbase, trivial, fun _ => trivial⟩
  case h_2 =>
    refine surveyGrown_leads rfl fun hbase => (surveys_bump _).bind fun opening =>
      (hl.expression.surveys _).bind fun subscript => (surveys_expect _ _).bind fun closing => Triple.pure fun c h =>
      ⟨Node.solid_of_mem opening (by simp [Node.parts]) rfl, Survey.node ?_ ?_⟩
    · simpa [Node.spots, Node.parts, Part.within, Node.placed] using h
    · exact ⟨hbase, trivial, fun _ => trivial⟩
  case h_3 =>
    refine surveyGrown_leads rfl fun hbase => (surveys_bump _).bind fun opening =>
      (surveys_expressions hl _ _).bind fun s => (surveys_expect _ _).bind fun closing => Triple.pure fun c h =>
      ⟨Node.solid_of_mem opening (by simp [Node.parts]) rfl, Survey.node ?_ ?_⟩
    · simpa [Node.spots, Node.parts, Part.within, Node.placed, separatedParts] using h
    · exact ⟨hbase, trivial, fun _ => trivial⟩
  case h_4 => exact Triple.pure fun c h => h.1

theorem surveys_suffixed (hl : l.Surveys source) : l.suffixed.SurveysExpression source := fun ps =>
  (surveys_primary hl ps).bind (Triple.grow (J := SurveyGrown source ps) (surveys_suffixRound hl))

theorem surveys_postfixed (hl : l.Surveys source) : l.postfixed.SurveysExpression source := by
  intro ps
  refine (surveys_suffixed hl ps).bind fun operand => Triple.kind_bind fun k => Triple.look_bind fun separate =>
    Triple.ite (fun hk => ?_) fun _ => Triple.pure fun c h => h.1.1
  rw [Bool.and_eq_true] at hk
  rintro c ⟨⟨⟨hsolid, h⟩, hkind⟩, hseparate⟩
  have hplace : k.endsList = false ∧ k ≠ .endOfInput := by
    have hpostfix := hk.1
    unfold Kind.isPostfixOperator at hpostfix
    split at hpostfix <;> first | exact ⟨rfl, nofun⟩ | cases hpostfix
  obtain ⟨-, t, ts, hahead, -⟩ := Cursor.ahead_of_kind (hkind.trans_ne hplace.2)
  have hline (haddress : Token.Addressed c.bump.2.source source) : c.bump.1.followsLineBreak = false := by
    have hsource : c.bump.2.source = c.source := Rule.bump.source_run c
    rw [Cursor.followsLineBreak_bump (h.isAddressed (hsource ▸ haddress)) h.isRead hahead, hseparate]
    simpa using hk.2
  refine ⟨Node.solid_of_mem c.bump.1 (by simp [Node.parts]) rfl, Survey.node ?_ ?_⟩
  · simpa [Node.spots, Node.parts, Part.within, Node.placed] using h.bump
  · exact ⟨hsolid.leads hkind hplace.1, hline, fun _ => trivial⟩

theorem surveys_unary (hl : l.Surveys source) : l.unary.SurveysExpression source := fun ps =>
  Triple.kind_bind fun _ => Triple.ite (fun _ => (hl.prefixed ps).of_imp fun _ h => h.1)
    fun _ => (surveys_postfixed hl ps).of_imp fun _ h => h.1

/-- An operator ends no list. -/
theorem surveys_operationRound {minimum : Nat} {operand : (tier : Tier) → minimum < tier.toNat → Rule Node}
    (hoperand : ∀ tier h, (operand tier h).SurveysExpression source) (left : Node) :
    Triple (SurveyGrown source ps left) (operationRound minimum operand left) fun s c =>
      cond s.2 (SurveyGrown source ps s.1 c) (SurveyGrown source ps s.1 c) := by
  refine Triple.kind_bind fun k => ?_
  split
  · next tier hk =>
      split
      · next hlt =>
          have hlists : k.endsList = false := by
            cases k with
            | symbol s => cases s <;> first | rfl | cases hk
            | _ => cases hk
          refine surveyGrown_leads hlists fun hleft => ?_
          refine (surveys_bump _).bind fun symbol => ((hoperand tier hlt).surveys _).bind fun right =>
            Triple.pure fun c h => ⟨Node.solid_of_mem symbol (by simp [Node.parts]) rfl,
              Survey.node ?_ ⟨hleft, trivial, fun _ => trivial⟩⟩
          simpa [Node.spots, Node.parts, Part.within, Node.placed] using h
      · exact Triple.pure fun c h => h.1
  · exact Triple.pure fun c h => h.1

theorem surveys_binary (hl : l.Surveys source) (minimum : Nat) : (l.binary minimum).SurveysExpression source := by
  induction minimum using Tier.induction with
  | h minimum ih =>
      rw [binary_eq]
      exact fun ps =>
        (surveys_unary hl ps).bind (Triple.grow (J := SurveyGrown source ps) (surveys_operationRound ih))

theorem surveys_assignment (hl : l.Surveys source) : l.assignment.SurveysExpression source := by
  intro ps
  refine (surveys_binary hl 0 ps).bind fun target => Triple.kind_bind fun k => Triple.ite (fun hk => ?_)
    fun _ => Triple.pure fun c h => h.1
  have hlists : k.endsList = false := by
    cases k with
    | symbol s => cases s <;> first | rfl | cases hk
    | _ => cases hk
  refine surveyGrown_leads hlists fun htarget => ?_
  refine (surveys_bump _).bind fun operator => (hl.expression.surveys _).bind fun value => Triple.pure fun c h =>
    ⟨Node.solid_of_mem operator (by simp [Node.parts]) rfl, Survey.node ?_ ⟨htarget, trivial, fun _ => trivial⟩⟩
  simpa [Node.spots, Node.parts, Part.within, Node.placed] using h

/-- An operator in front of its operand. -/
theorem surveys_operation (hl : l.Surveys source) : l.operation.SurveysExpression source := by
  intro ps
  refine (surveys_bump ps).bind fun symbol => (surveys_unary hl).surveys _ |>.bind fun operand => Triple.pure fun c h =>
    ⟨Node.solid_of_mem symbol List.mem_cons_self rfl, Survey.node ?_ ⟨trivial, trivial, fun _ => trivial⟩⟩
  simpa [Node.spots, Node.parts, Part.within, Node.placed] using h

end Level

end LosslessSyntax
