import LosslessSyntax.Parse.Nesting
import LosslessSyntax.Proofs.Parse.Climbing

/-! Invariants of the cursor. What is kept by every single step that rules are built from is kept by all rules
of a level, if those of the next level keep it. Only giving up is left to the levels. -/

namespace LosslessSyntax

open Rule

/-- Whether no single step breaks `I`. Of messages only the one about the nesting limit may break it. -/
structure Cursor.Kept (I : Cursor → Prop) : Prop where
  bump : ∀ c, I c → I c.bump.2
  takeTrivia : ∀ c, I c → I c.takeTrivia.2
  takeTrailing : ∀ c, I c → I c.takeTrailing.2
  report : ∀ c m args, m.code ≠ Message.nestingTooDeep.code → I c → I (c.report m args)

namespace Rule

variable {A B : Type} {I : Cursor → Prop}

/-- Whether `I` holds behind the rule if it holds in front of it. -/
def Keeps (I : Cursor → Prop) (r : Rule A) : Prop := Triple I r fun _ => I

namespace Keeps

theorem pure (a : A) : Keeps I (pure a : Rule A) := fun _ h => h

theorem look (f : Cursor → A) : (look f).Keeps I := fun _ h => h

theorem bind {r : Rule A} {f : A → Rule B} (hr : r.Keeps I) (hf : ∀ a, (f a).Keeps I) : (r >>= f).Keeps I :=
  Triple.bind hr hf

theorem map {r : Rule A} {f : A → B} (h : r.Keeps I) : (f <$> r).Keeps I := Triple.map h

theorem ite {p : Prop} [Decidable p] {r s : Rule A} (hr : p → r.Keeps I) (hs : ¬p → s.Keeps I) :
    (if p then r else s).Keeps I := Triple.ite hr hs

theorem kind_bind {f : Kind → Rule A} (h : ∀ k, (f k).Keeps I) : (kind >>= f).Keeps I :=
  bind (look _) h

theorem collect {round : Rule (List A × Bool)} {hround : round.Advances} (h : round.Keeps I) :
    (collect round hround).Keeps I :=
  Triple.collect fun _ => h.to_imp fun s _ hc => by cases s.2 <;> exact hc

theorem grow {round : A → Rule (A × Bool)} {hround : ∀ a, (round a).Advances} (h : ∀ a, (round a).Keeps I)
    (a : A) : (grow round hround a).Keeps I :=
  Triple.grow (fun a => (h a).to_imp fun s _ hc => by cases s.2 <;> exact hc) a

end Keeps

end Rule

namespace Cursor.Kept

variable {A : Type} {I : Cursor → Prop} (h : Kept I)
include h

theorem bump_keeps : Rule.bump.Keeps I := h.bump

theorem takeTrivia_keeps : Rule.takeTrivia.Keeps I := h.takeTrivia

theorem takeTrailing_keeps : Rule.takeTrailing.Keeps I := h.takeTrailing

theorem report_keeps {m : Message} (hm : m.code ≠ Message.nestingTooDeep.code) (args : List Text) :
    (Rule.report m args).Keeps I := fun c hc => h.report c m args hm hc

theorem optional (k : Kind) : (optional k).Keeps I :=
  .kind_bind fun _ => .ite (fun _ => .bind h.bump_keeps fun _ => .pure _) fun _ => .pure _

theorem expect (k : Kind) : (expect k).Keeps I :=
  .kind_bind fun _ => .ite (fun _ => h.bump_keeps) fun _ =>
    .bind (h.report_keeps (by decide) _) fun _ => .pure _

theorem expectIdentifier : expectIdentifier.Keeps I :=
  .kind_bind fun _ => .ite (fun _ => h.bump_keeps) fun _ =>
    .bind (h.report_keeps (by decide) _) fun _ => .pure _

theorem separated {item : Rule (Option A)} (hitem : item.Keeps I) : (separated item).Keeps I := by
  have hround : (separatedRound item).Keeps I := hitem.bind fun
    | none => .pure _
    | some a => (h.optional _).bind fun _ => .pure _
  exact (Keeps.collect hround).bind fun _ => .pure _

theorem lexemesUntil (stops : Kind → Bool) : (lexemesUntil stops).Keeps I :=
  .collect (.kind_bind fun _ => .ite (fun _ => .pure _) fun _ => .bind h.bump_keeps fun _ => .pure _)

theorem fieldKey : Level.fieldKey.Keeps I :=
  .kind_bind fun _ => .ite (fun _ => .map h.bump_keeps) fun _ =>
    .bind (h.report_keeps (by decide) _) fun _ => .pure _

theorem fieldName : Level.fieldName.Keeps I :=
  .kind_bind fun _ => .ite (fun _ => h.bump_keeps) fun _ =>
    .bind (h.report_keeps (by decide) _) fun _ => .pure _

theorem parameter : Level.parameter.Keeps I :=
  .kind_bind fun _ => .ite (fun _ => .map h.bump_keeps) fun _ => .ite (fun _ => .pure _) fun _ =>
    .bind (h.report_keeps (by decide) _) fun _ => .pure _

theorem missingExpression : Level.missingExpression.Keeps I :=
  .bind (h.report_keeps (by decide) _) fun _ => .kind_bind fun _ =>
    .ite (fun _ => .pure _) fun _ => .bind h.bump_keeps fun _ => .pure _

theorem emptyStatement : Level.emptyStatement.Keeps I :=
  .bind (h.report_keeps (by decide) _) fun _ => .bind h.bump_keeps fun _ => .pure _

theorem unparsedStatement (nested : Bool) : (Level.unparsedStatement nested).Keeps I := by
  have hcode (k : Kind) : (if k.isClosing then Message.unexpectedToken else .statementExpected).code ≠
      Message.nestingTooDeep.code := by
    split <;> decide
  exact .kind_bind fun k => .bind (h.report_keeps (hcode k) _) fun _ => .bind h.bump_keeps fun _ =>
    .bind (h.lexemesUntil _) fun _ => .pure _

end Cursor.Kept

namespace Level

/-- Whether all that may be asked of the level keeps `I`. -/
structure Keeps (l : Level) (I : Cursor → Prop) : Prop where
  statement (nested : Bool) : (l.statement nested).Keeps I
  expression : l.expression.Keeps I
  prefixed : Triple (fun c => I c ∧ c.kind.isPrefixOperator = true) l.prefixed fun _ => I

variable {l : Level} {I : Cursor → Prop} (h : Cursor.Kept I) (hl : l.Keeps I)
include h hl

theorem keeps_statements (nested : Bool) : (l.statements nested).Keeps I := by
  have hround : (l.statementsRound nested).Keeps I := .bind h.takeTrivia_keeps fun _ => .kind_bind fun _ =>
    .ite (fun _ => .pure _) fun _ => (hl.statement nested).bind fun _ => .pure _
  exact (Keeps.collect hround).bind fun _ => .pure _

theorem keeps_block : l.block.Keeps I :=
  (h.expect _).bind fun _ => .ite (fun _ => .pure _) fun _ =>
    (keeps_statements h hl true).bind fun _ => (h.expect _).bind fun _ => .pure _

theorem keeps_function : l.function.Keeps I :=
  (h.expect _).bind fun _ => (h.separated h.parameter).bind fun _ => (h.expect _).bind fun _ =>
    (keeps_block h hl).bind fun _ => .pure _

theorem keeps_expressions (closing : Symbol) : (l.expressions closing).Keeps I :=
  h.separated (.kind_bind fun _ => .ite (fun _ => .pure _) fun _ => .map hl.expression)

theorem keeps_field : l.field.Keeps I :=
  .kind_bind fun _ => .ite (fun _ => .pure _) fun _ => h.fieldKey.bind fun
    | none => .pure _
    | some _ => (h.expect _).bind fun _ => hl.expression.bind fun _ => .pure _

theorem keeps_primary : l.primary.Keeps I := by
  refine .kind_bind fun k => ?_
  split
  case h_8 =>
    exact .bind h.bump_keeps fun _ => hl.expression.bind fun _ => (h.expect _).bind fun _ => .pure _
  case h_9 =>
    exact .bind h.bump_keeps fun _ => (h.separated (keeps_field h hl)).bind fun _ => (h.expect _).bind fun _ => .pure _
  case h_10 =>
    exact .bind h.bump_keeps fun _ => (keeps_expressions h hl _).bind fun _ => (h.expect _).bind fun _ => .pure _
  case h_11 =>
    exact .bind h.bump_keeps fun _ => (h.optional _).bind fun _ => (keeps_function h hl).bind fun _ => .pure _
  case h_12 => exact h.missingExpression
  all_goals exact .map h.bump_keeps

theorem keeps_suffixRound (base : Node) : (l.suffixRound base).Keeps I := by
  refine .kind_bind fun k => ?_
  split
  · exact .bind h.bump_keeps fun _ => h.fieldName.bind fun _ => .pure _
  · exact .bind h.bump_keeps fun _ => hl.expression.bind fun _ => (h.expect _).bind fun _ => .pure _
  · exact .bind h.bump_keeps fun _ => (keeps_expressions h hl _).bind fun _ => (h.expect _).bind fun _ => .pure _
  · exact .pure _

theorem keeps_postfixed : l.postfixed.Keeps I :=
  (Keeps.bind (keeps_primary h hl) (Keeps.grow (keeps_suffixRound h hl))).bind fun _ => .kind_bind fun _ =>
    .bind (.look _) fun _ => .ite (fun _ => .bind h.bump_keeps fun _ => .pure _) fun _ => .pure _

theorem keeps_unary : l.unary.Keeps I :=
  Triple.kind_bind fun _ => Triple.ite (fun hk => hl.prefixed.of_imp fun _ hc => ⟨hc.1, hc.2 ▸ hk⟩) fun _ =>
    (keeps_postfixed h hl).of_imp fun _ hc => hc.1

theorem keeps_binary (minimum : Nat) : (l.binary minimum).Keeps I := by
  induction minimum using Tier.induction with
  | h minimum ih =>
      rw [binary_eq]
      refine (keeps_unary h hl).bind (Keeps.grow fun left => .kind_bind fun k => ?_)
      split
      · next tier _ =>
          split
          · next hlt => exact .bind h.bump_keeps fun _ => (ih tier hlt).bind fun _ => .pure _
          · exact .pure _
      · exact .pure _

theorem keeps_assignment : l.assignment.Keeps I :=
  (keeps_binary h hl _).bind fun _ => .kind_bind fun _ => .ite (fun _ => .bind h.bump_keeps fun _ =>
    hl.expression.bind fun _ => .pure _) fun _ => .pure _

theorem keeps_operation : l.operation.Keeps I :=
  .bind h.bump_keeps fun _ => (keeps_unary h hl).bind fun _ => .pure _

theorem keeps_declarator (form : DeclarationForm) (lead : Lexeme) : (l.declarator form lead).Keeps I :=
  h.expectIdentifier.bind fun _ => (h.optional _).bind fun
    | none => .pure _
    | some _ => hl.expression.bind fun _ => .pure _

theorem keeps_declaration (form : DeclarationForm) : (l.declaration form).Keeps I := by
  have hround : (l.declaratorRound form).Keeps I := (h.optional _).bind fun
    | none => .pure _
    | some _ => (keeps_declarator h hl form _).bind fun _ => .pure _
  exact .bind h.bump_keeps fun _ => (keeps_declarator h hl form _).bind fun _ =>
    (Keeps.collect hround).bind fun _ => .pure _

theorem keeps_functionDeclaration : l.functionDeclaration.Keeps I :=
  .bind h.bump_keeps fun _ => h.expectIdentifier.bind fun _ => (keeps_function h hl).bind fun _ => .pure _

theorem keeps_body : l.body.Keeps I :=
  .kind_bind fun _ => .ite (fun _ => keeps_block h hl) fun _ => .bind h.takeTrivia_keeps fun _ =>
    .ite (fun _ => (hl.statement true).bind fun _ => .pure _) fun _ =>
      .bind (h.report_keeps (by decide) _) fun _ => .pure _

theorem keeps_clause (first : Bool) : (l.clause first).Keeps I := by
  refine .kind_bind fun k => .ite (fun _ => .pure _) fun _ => ?_
  split
  · exact keeps_declaration h hl _
  · exact hl.expression

theorem keeps_header (form : ControlForm) : (l.header form).Keeps I := by
  cases form with
  | forForm =>
      exact (keeps_clause h hl true).bind fun _ => (h.expect _).bind fun _ => (keeps_clause h hl false).bind fun _ =>
        (h.expect _).bind fun _ => (keeps_clause h hl false).bind fun _ => .pure _
  | _ => exact hl.expression.bind fun _ => .pure _

theorem keeps_head (form : ControlForm) : (l.head form).Keeps I :=
  .bind h.bump_keeps fun _ => (h.expect _).bind fun _ => (keeps_header h hl form).bind fun _ =>
    (h.expect _).bind fun _ => (keeps_body h hl).bind fun _ => .pure _

theorem keeps_linkRound (s : List Link × Control Node) : (l.linkRound s).Keeps I :=
  .kind_bind fun _ => .ite (fun _ => .bind h.takeTrailing_keeps fun _ => .bind h.bump_keeps fun _ =>
    .kind_bind fun _ => .ite (fun _ => .bind h.takeTrivia_keeps fun _ => (keeps_head h hl .ifForm).bind fun _ =>
      .pure _) fun _ => (keeps_body h hl).bind fun _ => .pure _) fun _ => .pure _

theorem keeps_control (form : ControlForm) : (l.control form).Keeps I :=
  (keeps_head h hl form).bind fun _ => (Keeps.grow (keeps_linkRound h hl) _).bind fun _ => .pure _

theorem keeps_returning : l.returning.Keeps I :=
  .bind h.bump_keeps fun _ => .kind_bind fun _ => .bind (.look _) fun _ =>
    .ite (fun _ => hl.expression.bind fun _ => .pure _) fun _ => .pure _

theorem keeps_statementHere (nested : Bool) : (l.statementHere nested).Keeps I := by
  have hwhole {inner : Rule Node} (hinner : inner.Keeps I) : (whole inner).Keeps I := hinner.bind fun _ => .pure _
  have hended {inner : Rule Node} (hinner : inner.Keeps I) : (ended inner).Keeps I :=
    hinner.bind fun _ => (h.optional _).bind fun _ => .pure _
  refine .kind_bind fun k => .bind (.look _) fun next => ?_
  split
  case h_1 | h_2 | h_3 => exact hended (keeps_declaration h hl _)
  case h_4 => exact .ite (fun _ => hwhole (keeps_functionDeclaration h hl)) fun _ => hended hl.expression
  case h_5 | h_6 | h_7 => exact hwhole (.map (keeps_control h hl _))
  case h_8 => exact hended (keeps_returning h hl)
  case h_9 => exact h.emptyStatement
  case h_10 => exact .ite (fun _ => hended hl.expression) fun _ => h.unparsedStatement nested

omit hl

/-- What giving up keeps as well is kept by all levels. -/
theorem keeps_ofRemaining (limit remaining : Nat) (hrefuse : (refuse limit).Keeps I) :
    (ofRemaining limit remaining).Keeps I := by
  induction remaining with
  | zero =>
      exact {
        statement := fun _ => hrefuse
        expression := hrefuse
        prefixed := hrefuse.of_imp fun _ hc => hc.1 }
  | succ remaining ih =>
      exact {
        statement := keeps_statementHere h ih
        expression := keeps_assignment h ih
        prefixed := (keeps_operation h ih).of_imp fun _ hc => hc.1 }

end Level

end LosslessSyntax
