import LosslessSyntax.Parse.Nesting
import LosslessSyntax.Proofs.Parse.Scheme

/-! The loops of reading. Statements, tokens that are skipped, parameters, expressions in a list, fields, chained
declarators, suffixes, operations that bind tighter than a minimum and links of `else if` are each read by a round
that is repeated. A round that goes on leaves fewer tokens, although an expression in it may read nothing: what the
round asks for behind the expression is then what reads. -/

namespace LosslessSyntax

open Rule

/-- One expression of a list that ends at the closing bracket. -/
def Level.listed (l : Level) (closing : Symbol) : Rule (Option Node) := do
  let k ← kind
  if k = .symbol closing || k = .endOfInput then return none
  else some <$> l.expression

/-- The loops, each with what its rounds start from. -/
inductive Loop where
  | statements (nested : Bool)
  | skipped (stops : Kind → Bool)
  | parameters
  | expressions (closing : Symbol)
  | fields
  | declarators (form : DeclarationForm)
  | suffixes (base : Node)
  | operations (minimum : Nat) (left : Node)
  | links (chain : List Link × Control Node)

namespace Loop

/-- What a round of the loop comes to. -/
abbrev Result : Loop → Type
  | statements _ => List Node
  | skipped _ => List Lexeme
  | parameters => List (Lexeme × Option Lexeme)
  | expressions _ => List (Node × Option Lexeme)
  | fields => List (Field Node × Option Lexeme)
  | declarators _ => List (Declarator Node)
  | suffixes _ | operations .. => Node
  | links _ => List Link × Control Node

/-- A round of the loop, and whether the loop goes on behind it. -/
def round : (x : Loop) → Level → Rule (x.Result × Bool)
  | statements nested, l => l.statementsRound nested
  | skipped stops, _ => lexemesRound stops
  | parameters, _ => separatedRound Level.parameter
  | expressions closing, l => separatedRound (l.listed closing)
  | fields, l => separatedRound l.field
  | declarators form, l => l.declaratorRound form
  | suffixes base, l => l.suffixRound base
  | operations minimum left, l => Level.operationRound minimum (fun tier _ => l.binary tier.toNat) left
  | links chain, l => l.linkRound chain

/-- A round that is not the last leaves fewer tokens. -/
theorem advances : (x : Loop) → (l : Level) → (x.round l).Advances
  | statements nested, l => l.advances_statementsRound nested
  | skipped stops, _ => advances_lexemesRound stops
  | parameters, _ => advances_separatedRound _
  | expressions _, _ => advances_separatedRound _
  | fields, _ => advances_separatedRound _
  | declarators form, l => l.advances_declaratorRound form
  | suffixes base, l => l.advances_suffixRound base
  | operations minimum left, _ => Level.advances_operationRound minimum _ left
  | links chain, l => l.advances_linkRound chain

/-- The loop: its rounds, one after another. -/
def run : (x : Loop) → Level → Rule x.Result
  | statements nested, l => collect ((statements nested).round l) ((statements nested).advances l)
  | skipped stops, l => collect ((skipped stops).round l) ((skipped stops).advances l)
  | parameters, l => collect (parameters.round l) (parameters.advances l)
  | expressions closing, l => collect ((expressions closing).round l) ((expressions closing).advances l)
  | fields, l => collect (fields.round l) (fields.advances l)
  | declarators form, l => collect ((declarators form).round l) ((declarators form).advances l)
  | suffixes base, l => grow (fun n => (suffixes n).round l) (fun n => (suffixes n).advances l) base
  | operations minimum left, l =>
    grow (fun n => (operations minimum n).round l) (fun n => (operations minimum n).advances l) left
  | links chain, l => grow (fun s => (links s).round l) (fun s => (links s).advances l) chain

end Loop

namespace Level

/-- The rules that read lists and chains run these loops. -/
theorem loops (l : Level) :
    (∀ nested, l.statements nested = Node.attachTrailing <$> (Loop.statements nested).run l) ∧
    (∀ stops, lexemesUntil stops = (Loop.skipped stops).run l) ∧
    (separated parameter = (fun s => (s.map (·.1), s.filterMap (·.2))) <$> Loop.parameters.run l) ∧
    (∀ closing, l.expressions closing =
      (fun s => (s.map (·.1), s.filterMap (·.2))) <$> (Loop.expressions closing).run l) ∧
    (separated l.field = (fun s => (s.map (·.1), s.filterMap (·.2))) <$> Loop.fields.run l) ∧
    (∀ form, collect (l.declaratorRound form) (l.advances_declaratorRound form) = (Loop.declarators form).run l) ∧
    (l.suffixed = l.primary >>= fun base => (Loop.suffixes base).run l) ∧
    (∀ minimum, l.binary minimum = l.unary >>= fun first => (Loop.operations minimum first).run l) ∧
    ∀ form, l.control form = l.head form >>= fun first =>
      (fun s => s.1.foldl (fun inner link => link.close inner) s.2) <$> (Loop.links ([], first)).run l :=
  ⟨fun _ => rfl, fun _ => rfl, rfl, fun _ => rfl, rfl, fun _ => rfl, rfl, l.binary_eq, fun _ => rfl⟩

end Level

namespace Rule.Closed

variable {P : ∀ ⦃A : Type⦄, (Level → Rule A) → Prop} (h : Closed P)
include h

/-- A property of all rules is one of all rounds. -/
theorem round : (x : Loop) → P x.round := by
  have hseparated {A : Type} {r : Level → Rule (Option A)} (hr : P r) : P fun l => separatedRound (r l) :=
    h.bind hr fun
      | none => h.pure _
      | some _ => h.bind (h.optional _) fun _ => h.pure _
  intro x
  cases x with
  | statements nested =>
      exact h.bind h.takeTrivia fun _ => h.kind_bind fun _ => ite (h.pure _) <|
        h.bind (h.statement nested) fun _ => h.pure _
  | skipped stops => exact h.kind_bind fun _ => ite (h.pure _) (h.bind h.bump fun _ => h.pure _)
  | parameters => exact hseparated h.parameter
  | expressions closing => exact hseparated (h.kind_bind fun _ => ite (h.pure _) (h.map h.expression _))
  | fields => exact hseparated h.field
  | declarators form =>
      exact h.bind (h.optional _) fun
        | none => h.pure _
        | some _ => h.bind (h.declarator form _) fun _ => h.pure _
  | suffixes base => exact h.suffixRound base
  | operations minimum left => exact h.operationRound (fun tier _ => h.binary tier.toNat) left
  | links chain => exact h.linkRound chain

end Rule.Closed

/-! ### Recovery in a list of statements -/

namespace Level

/-- A round of a list of statements that guards against a statement which reads nothing: it then takes the next token
as it stands. -/
def guardedRound (l : Level) (nested : Bool) : Rule (List Node × Bool) := do
  let trivia ← takeTrivia
  let k ← kind
  if k = .endOfInput || nested && k = .symbol .closeBrace then return (trivia, false)
  else do
    let start ← look fun c => c.ahead.length
    let statement ← l.statement nested
    let stuck ← look fun c => c.ahead.length = start && !c.givenUp
    if stuck then do
      let lexeme ← bump
      return (trivia ++ [statement, .unparsed [lexeme]], true)
    else return (trivia ++ [statement], true)

/-- The guard never finds anything to take. -/
theorem guardedRound_eq (l : Level) (nested : Bool) : l.guardedRound nested = l.statementsRound nested := by
  refine Rule.ext fun c => ?_
  simp only [guardedRound, statementsRound, run_bind, run_takeTrivia, run_kind, run_ite, run_look, run_pure, run_bump]
  generalize c.takeTrivia.2 = d
  split
  · rfl
  · next hk =>
    simp only [Bool.or_eq_true, decide_eq_true_eq, not_or] at hk
    have hless := l.consumes_statement nested d hk.1
    generalize ((l.statement nested).run d).2 = e at hless
    -- were the statement to leave as many tokens without giving up, it would have taken none
    rw [if_neg]
    intro hstuck
    simp only [Bool.and_eq_true, decide_eq_true_eq, Bool.not_eq_true'] at hstuck
    obtain ⟨hlength, hgiven⟩ := hstuck
    have hleft : e.left = d.ahead.length := by rw [Cursor.left, hgiven, if_neg Bool.false_ne_true, hlength]
    have hle := d.left_le_length_ahead
    omega

/-- Statements, read with the guard in every round. -/
def guardedStatements (l : Level) (nested : Bool) : Rule (List Node) := do
  let nodes ← collect (l.guardedRound nested) ((l.guardedRound_eq nested).symm ▸ l.advances_statementsRound nested)
  return Node.attachTrailing nodes

/-- With the guard or without, the same statements are read. -/
theorem guardedStatements_eq (l : Level) (nested : Bool) : l.guardedStatements nested = l.statements nested := by
  unfold guardedStatements statements
  congr 1
  congr 1
  exact l.guardedRound_eq nested

end Level

end LosslessSyntax
