import LosslessSyntax.Parse.Nesting
import LosslessSyntax.Proofs.Parse.Climbing

/-! Rules for every level. Statements, expressions and operations are put together in the same way on all levels,
from single steps and from what the level asks of the next one. What holds of the steps and of these questions, and
is kept by every way in which rules are put together, holds of all rules: that is shown here once. -/

namespace LosslessSyntax

/-- The rules that lead one level deeper. -/
inductive Level.Entry where
  | statement (nested : Bool)
  | expression
  | prefixed
  deriving DecidableEq, Repr

namespace Level.Entry

/-- What a level asks of the next one. -/
def outer : Entry → Level → Rule Node
  | statement nested, l => l.statement nested
  | expression, l => l.expression
  | prefixed, l => l.prefixed

/-- What the next level does when it is asked. -/
def inner : Entry → Level → Rule Node
  | statement nested, l => l.statementHere nested
  | expression, l => l.assignment
  | prefixed, l => l.operation

@[simp] theorem outer_zero (e : Entry) (limit : Nat) : e.outer (ofRemaining limit 0) = refuse limit := by
  cases e <;> rfl

@[simp] theorem outer_succ (e : Entry) (limit remaining : Nat) :
    e.outer (ofRemaining limit (remaining + 1)) = e.inner (ofRemaining limit remaining) := by
  cases e <;> rfl

end Level.Entry

/-- A property of rules for every level that no way of putting rules together breaks. Of messages only the one about
the nesting limit need not have it. -/
structure Rule.Closed (P : ∀ ⦃A : Type⦄, (Level → Rule A) → Prop) : Prop where
  pure {A : Type} (a : A) : P fun _ => pure a
  bind {A B : Type} {r : Level → Rule A} {f : A → Level → Rule B} (h : P r) (hf : ∀ a, P (f a)) :
    P fun l => r l >>= fun a => f a l
  kind : P fun _ => kind
  nextKind : P fun _ => look Cursor.nextKind
  followsLineBreak : P fun _ => look Cursor.followsLineBreak
  bump : P fun _ => bump
  takeTrivia : P fun _ => takeTrivia
  takeTrailing : P fun _ => takeTrailing
  report {m : Message} (hm : m.code ≠ Message.nestingTooDeep.code) (args : List Text) : P fun _ => report m args
  collect {A : Type} {r : Level → Rule (List A × Bool)} (hr : ∀ l, (r l).Advances) (h : P r) :
    P fun l => collect (r l) (hr l)
  grow {A : Type} {r : Level → A → Rule (A × Bool)} (hr : ∀ l a, (r l a).Advances) (h : ∀ a, P fun l => r l a) (a : A) :
    P fun l => grow (r l) (hr l) a
  enter (e : Level.Entry) : P e.outer

namespace Rule.Closed

variable {A B : Type} {P : ∀ ⦃A : Type⦄, (Level → Rule A) → Prop} (h : Closed P)
include h

theorem map {r : Level → Rule A} (hr : P r) (f : A → B) : P fun l => f <$> r l := h.bind hr fun a => h.pure (f a)

omit h in
theorem ite {p : Prop} [Decidable p] {r s : Level → Rule A} (hr : P r) (hs : P s) :
    P fun l => if p then r l else s l := by
  split
  · exact hr
  · exact hs

theorem kind_bind {f : Kind → Level → Rule A} (hf : ∀ k, P (f k)) : P fun l => Rule.kind >>= fun k => f k l :=
  h.bind h.kind hf

/-! ### Rules that belong to no level -/

theorem optional (k : Kind) : P fun _ => optional k :=
  h.kind_bind fun _ => ite (h.bind h.bump fun _ => h.pure _) (h.pure _)

theorem expect (k : Kind) : P fun _ => expect k :=
  h.kind_bind fun _ => ite h.bump (h.bind (h.report (by decide) _) fun _ => h.pure _)

theorem expectIdentifier : P fun _ => expectIdentifier :=
  h.kind_bind fun _ => ite h.bump (h.bind (h.report (by decide) _) fun _ => h.pure _)

theorem separated {r : Level → Rule (Option A)} (hr : P r) : P fun l => separated (r l) := by
  have hround : P fun l => separatedRound (r l) := h.bind hr fun
    | none => h.pure _
    | some a => h.bind (h.optional _) fun _ => h.pure _
  exact h.bind (h.collect (fun l => advances_separatedRound (r l)) hround) fun _ => h.pure _

theorem lexemesUntil (stops : Kind → Bool) : P fun _ => lexemesUntil stops :=
  h.collect (fun _ => advances_lexemesRound stops)
    (h.kind_bind fun _ => ite (h.pure _) (h.bind h.bump fun _ => h.pure _))

theorem fieldKey : P fun _ => Level.fieldKey :=
  h.kind_bind fun _ => ite (h.map h.bump _) (h.bind (h.report (by decide) _) fun _ => h.pure _)

theorem fieldName : P fun _ => Level.fieldName :=
  h.kind_bind fun _ => ite h.bump (h.bind (h.report (by decide) _) fun _ => h.pure _)

theorem parameter : P fun _ => Level.parameter :=
  h.kind_bind fun _ => ite (h.map h.bump _) (ite (h.pure _) (h.bind (h.report (by decide) _) fun _ => h.pure _))

theorem missingExpression : P fun _ => Level.missingExpression :=
  h.bind (h.report (by decide) _) fun _ => h.kind_bind fun _ => ite (h.pure _) (h.bind h.bump fun _ => h.pure _)

theorem emptyStatement : P fun _ => Level.emptyStatement :=
  h.bind (h.report (by decide) _) fun _ => h.bind h.bump fun _ => h.pure _

theorem unparsedStatement (nested : Bool) : P fun _ => Level.unparsedStatement nested := by
  have hcode (k : Kind) : (if k.isClosing then Message.unexpectedToken else .statementExpected).code ≠
      Message.nestingTooDeep.code := by
    split <;> decide
  exact h.kind_bind fun k => h.bind (h.report (hcode k) _) fun _ => h.bind h.bump fun _ =>
    h.bind (h.lexemesUntil _) fun _ => h.pure _

theorem whole {r : Level → Rule Node} (hr : P r) : P fun l => Level.whole (r l) := h.bind hr fun _ => h.pure _

theorem ended {r : Level → Rule Node} (hr : P r) : P fun l => Level.ended (r l) :=
  h.bind hr fun _ => h.bind (h.optional _) fun _ => h.pure _

/-! ### Rules of a level -/

theorem statement (nested : Bool) : P fun l => l.statement nested := h.enter (.statement nested)

theorem expression : P fun l => l.expression := h.enter .expression

theorem prefixed : P fun l => l.prefixed := h.enter .prefixed

theorem statements (nested : Bool) : P fun l => l.statements nested := by
  have hround : P fun l => l.statementsRound nested := h.bind h.takeTrivia fun _ =>
    h.kind_bind fun _ => ite (h.pure _) (h.bind (h.statement nested) fun _ => h.pure _)
  exact h.bind (h.collect (fun l => l.advances_statementsRound nested) hround) fun _ => h.pure _

theorem block : P fun l => l.block :=
  h.bind (h.expect _) fun _ => ite (h.pure _) <| h.bind (h.statements true) fun _ =>
    h.bind (h.expect _) fun _ => h.pure _

theorem function : P fun l => l.function :=
  h.bind (h.expect _) fun _ => h.bind (h.separated h.parameter) fun _ => h.bind (h.expect _) fun _ =>
    h.bind h.block fun _ => h.pure _

theorem expressions (closing : Symbol) : P fun l => l.expressions closing :=
  h.separated <| h.kind_bind fun _ => ite (h.pure _) (h.map h.expression _)

theorem field : P fun l => l.field :=
  h.kind_bind fun _ => ite (h.pure _) <| h.bind h.fieldKey fun
    | none => h.pure _
    | some _ => h.bind (h.expect _) fun _ => h.bind h.expression fun _ => h.pure _

theorem primary : P fun l => l.primary := by
  refine h.kind_bind fun k => ?_
  split
  case h_8 => exact h.bind h.bump fun _ => h.bind h.expression fun _ => h.bind (h.expect _) fun _ => h.pure _
  case h_9 =>
    exact h.bind h.bump fun _ => h.bind (h.separated h.field) fun _ => h.bind (h.expect _) fun _ => h.pure _
  case h_10 =>
    exact h.bind h.bump fun _ => h.bind (h.expressions _) fun _ => h.bind (h.expect _) fun _ => h.pure _
  case h_11 => exact h.bind h.bump fun _ => h.bind (h.optional _) fun _ => h.bind h.function fun _ => h.pure _
  case h_12 => exact h.missingExpression
  all_goals exact h.map h.bump _

theorem suffixRound (base : Node) : P fun l => l.suffixRound base := by
  refine h.kind_bind fun k => ?_
  split
  · exact h.bind h.bump fun _ => h.bind h.fieldName fun _ => h.pure _
  · exact h.bind h.bump fun _ => h.bind h.expression fun _ => h.bind (h.expect _) fun _ => h.pure _
  · exact h.bind h.bump fun _ => h.bind (h.expressions _) fun _ => h.bind (h.expect _) fun _ => h.pure _
  · exact h.pure _

theorem postfixed : P fun l => l.postfixed := by
  have hsuffixed : P fun l => l.suffixed := h.bind h.primary fun base =>
    h.grow (fun l => l.advances_suffixRound) h.suffixRound base
  exact h.bind hsuffixed fun _ => h.kind_bind fun _ => h.bind h.followsLineBreak fun _ =>
    ite (h.bind h.bump fun _ => h.pure _) (h.pure _)

theorem unary : P fun l => l.unary := h.kind_bind fun _ => ite h.prefixed h.postfixed

theorem operationRound {minimum : Nat} (hoperand : ∀ tier : Tier, minimum < tier.toNat → P fun l => l.binary tier.toNat)
    (left : Node) : P fun l => Level.operationRound minimum (fun tier _ => l.binary tier.toNat) left := by
  refine h.kind_bind fun k => ?_
  cases Tier.ofKind? k with
  | none => exact h.pure _
  | some tier =>
      by_cases hlt : minimum < tier.toNat
      · simp only [dif_pos hlt]
        exact h.bind h.bump fun _ => h.bind (hoperand tier hlt) fun _ => h.pure _
      · simp only [dif_neg hlt]
        exact h.pure _

theorem binary (minimum : Nat) : P fun l => l.binary minimum := by
  induction minimum using Tier.induction with
  | h minimum ih =>
      have hclimb : P fun l => l.unary >>= l.climb minimum := h.bind h.unary fun first =>
        h.grow (fun l => Level.advances_operationRound minimum fun tier _ => l.binary tier.toNat)
          (h.operationRound ih) first
      simpa only [Level.binary_eq] using hclimb

theorem assignment : P fun l => l.assignment :=
  h.bind (h.binary _) fun _ => h.kind_bind fun _ =>
    ite (h.bind h.bump fun _ => h.bind h.expression fun _ => h.pure _) (h.pure _)

theorem operation : P fun l => l.operation := h.bind h.bump fun _ => h.bind h.unary fun _ => h.pure _

theorem declarator (form : DeclarationForm) (lead : Lexeme) : P fun l => l.declarator form lead :=
  h.bind h.expectIdentifier fun _ => h.bind (h.optional _) fun
    | none => h.pure _
    | some _ => h.bind h.expression fun _ => h.pure _

theorem declaration (form : DeclarationForm) : P fun l => l.declaration form := by
  have hround : P fun l => l.declaratorRound form := h.bind (h.optional _) fun
    | none => h.pure _
    | some _ => h.bind (h.declarator form _) fun _ => h.pure _
  exact h.bind h.bump fun _ => h.bind (h.declarator form _) fun _ =>
    h.bind (h.collect (fun l => l.advances_declaratorRound form) hround) fun _ => h.pure _

theorem functionDeclaration : P fun l => l.functionDeclaration :=
  h.bind h.bump fun _ => h.bind h.expectIdentifier fun _ => h.bind h.function fun _ => h.pure _

theorem body : P fun l => l.body :=
  h.kind_bind fun _ => ite h.block <| h.bind h.takeTrivia fun _ =>
    ite (h.bind (h.statement true) fun _ => h.pure _) (h.bind (h.report (by decide) _) fun _ => h.pure _)

theorem clause (first : Bool) : P fun l => l.clause first := by
  refine h.kind_bind fun k => ite (h.pure _) ?_
  split
  · exact h.declaration _
  · exact h.expression

theorem header (form : ControlForm) : P fun l => l.header form := by
  cases form with
  | forForm =>
      exact h.bind (h.clause true) fun _ => h.bind (h.expect _) fun _ => h.bind (h.clause false) fun _ =>
        h.bind (h.expect _) fun _ => h.bind (h.clause false) fun _ => h.pure _
  | _ => exact h.bind h.expression fun _ => h.pure _

theorem head (form : ControlForm) : P fun l => l.head form :=
  h.bind h.bump fun _ => h.bind (h.expect _) fun _ => h.bind (h.header form) fun _ =>
    h.bind (h.expect _) fun _ => h.bind h.body fun _ => h.pure _

theorem linkRound (s : List Link × Control Node) : P fun l => l.linkRound s :=
  h.kind_bind fun _ => ite (h.bind h.takeTrailing fun _ => h.bind h.bump fun _ => h.kind_bind fun _ =>
    ite (h.bind h.takeTrivia fun _ => h.bind (h.head .ifForm) fun _ => h.pure _)
      (h.bind h.body fun _ => h.pure _)) (h.pure _)

theorem control (form : ControlForm) : P fun l => l.control form :=
  h.bind (h.head form) fun _ =>
    h.bind (h.grow (fun l => l.advances_linkRound) h.linkRound _) fun _ => h.pure _

theorem returning : P fun l => l.returning :=
  h.bind h.bump fun _ => h.kind_bind fun _ => h.bind h.followsLineBreak fun _ =>
    ite (h.bind h.expression fun _ => h.pure _) (h.pure _)

theorem statementHere (nested : Bool) : P fun l => l.statementHere nested := by
  refine h.kind_bind fun k => h.bind h.nextKind fun next => ?_
  split
  case h_1 | h_2 | h_3 => exact h.ended (h.declaration _)
  case h_4 => exact ite (h.whole h.functionDeclaration) (h.ended h.expression)
  case h_5 | h_6 | h_7 => exact h.whole (h.map (h.control _) _)
  case h_8 => exact h.ended h.returning
  case h_9 => exact h.emptyStatement
  case h_10 => exact ite (h.ended h.expression) (h.unparsedStatement nested)

/-- What the next level does when it is asked has the property as well. -/
theorem inner : (e : Level.Entry) → P e.inner
  | .statement nested => h.statementHere nested
  | .expression => h.assignment
  | .prefixed => h.operation

end Rule.Closed

end LosslessSyntax
