import LosslessSyntax.Parse.Nesting
import LosslessSyntax.Proofs.Parse.Climbing
import LosslessSyntax.Proofs.Parse.Result
import LosslessSyntax.Proofs.Parse.Spelling
import LosslessSyntax.Proofs.Tree.Nesting

/-! What sort of node rules come to: expressions where an expression is due, statements between blanks and
comments, and a choice only where its word is next. -/

namespace LosslessSyntax

open Rule Node

namespace Level

/-- Whether the level gives the sorts of nodes that it is asked for. -/
structure Sorted (l : Level) : Prop where
  isTrivia_statement (nested : Bool) : (l.statement nested).Always (·.isTrivia = false)
  isChoice_statement (nested : Bool) : (l.statement nested).Gives (· ≠ .keyword .ifWord) (·.isChoice = false)
  isExpression_expression : l.expression.Always (·.isExpression = true)
  isExpression_prefixed : l.prefixed.Always (·.isExpression = true)

theorem isTrivia_takeTrivia : takeTrivia.Always fun ns => ∀ n ∈ ns, n.isTrivia = true :=
  fun _ _ _ => Token.isTrivia_triviaNodes

variable {l : Level}

/-! ### Expressions -/

theorem isExpression_primary (l : Level) : l.primary.Always (·.isExpression = true) := by
  refine Gives.kind_bind fun k _ => ?_
  split
  case h_8 | h_11 => exact Gives.any_bind fun _ => Gives.any_bind fun _ => Gives.any_bind fun _ => Gives.pure rfl
  case h_9 | h_10 => exact Gives.any_bind fun _ => Gives.any_bind fun _ => Gives.any_bind fun _ => Gives.pure rfl
  case h_12 =>
    refine Gives.always_on (Gives.any_bind fun _ => Gives.kind_bind fun _ _ =>
      Gives.ite (fun _ => Gives.pure rfl) fun _ => Gives.any_bind fun _ => Gives.pure rfl)
  all_goals exact Gives.map ((Gives.any _).imp fun _ _ => rfl)

theorem isExpression_suffixRound (l : Level) {base : Node} (hbase : base.isExpression = true) :
    (l.suffixRound base).Always (·.1.isExpression = true) := by
  refine Gives.kind_bind fun k _ => ?_
  split
  · exact Gives.any_bind fun _ => Gives.any_bind fun _ => Gives.pure rfl
  · exact Gives.any_bind fun _ => Gives.any_bind fun _ => Gives.any_bind fun _ => Gives.pure rfl
  · exact Gives.any_bind fun _ => Gives.any_bind fun _ => Gives.any_bind fun _ => Gives.pure rfl
  · exact Gives.pure hbase

theorem isExpression_postfixed (l : Level) : l.postfixed.Always (·.isExpression = true) := by
  have hsuffixed : l.suffixed.Always (·.isExpression = true) :=
    (isExpression_primary l).bind fun _ hbase => Gives.grow (fun _ h => isExpression_suffixRound l h) hbase
  exact hsuffixed.bind fun _ h => Gives.kind_bind fun _ _ => Gives.look_bind fun _ =>
    Gives.ite (fun _ => Gives.any_bind fun _ => Gives.pure rfl) fun _ => Gives.pure h

theorem isExpression_unary (hl : l.Sorted) : l.unary.Always (·.isExpression = true) :=
  Gives.kind_bind fun _ _ => Gives.ite (fun _ => hl.isExpression_prefixed.always_on) fun _ =>
    (isExpression_postfixed l).always_on

/-- Whatever is read as operands, an operation is an expression. -/
theorem isExpression_binary (hl : l.Sorted) (minimum : Nat) : (l.binary minimum).Always (·.isExpression = true) := by
  rw [binary_eq]
  refine (isExpression_unary hl).bind fun first hfirst =>
    Gives.grow (fun left hleft => Gives.kind_bind fun k _ => ?_) hfirst
  split
  · split
    · exact Gives.any_bind fun _ => Gives.any_bind fun _ => Gives.pure rfl
    · exact Gives.pure hleft
  · exact Gives.pure hleft

theorem isExpression_assignment (hl : l.Sorted) : l.assignment.Always (·.isExpression = true) :=
  (isExpression_binary hl _).bind fun _ htarget => Gives.kind_bind fun _ _ =>
    Gives.ite (fun _ => Gives.any_bind fun _ => Gives.any_bind fun _ => Gives.pure rfl) fun _ =>
      Gives.pure htarget

theorem isExpression_operation (l : Level) : l.operation.Always (·.isExpression = true) :=
  Gives.any_bind fun _ => Gives.any_bind fun _ => Gives.pure rfl

/-! ### Declarations and control flow -/

/-- A declarator is read without those that may be chained to it. -/
theorem additional_declarator (l : Level) (form : DeclarationForm) (lead : Lexeme) :
    (l.declarator form lead).Always (·.additional = []) := by
  refine Gives.any_bind fun name => Gives.any_bind fun equals => ?_
  cases equals with
  | none => exact Gives.pure rfl
  | some equals => exact Gives.any_bind fun value => Gives.pure rfl

/-- The form of a choice or a loop is the one that its word opens, and its `else` is read later. -/
theorem form_head (l : Level) (form : ControlForm) :
    (l.head form).Always fun c => c.form = form ∧ c.alternate = none := by
  refine Gives.any_bind fun _ => Gives.any_bind fun _ => Gives.any_bind fun _ =>
    Gives.any_bind fun _ => Gives.any_bind fun _ => Gives.pure ⟨rfl, rfl⟩

theorem form_control {form : ControlForm} (l : Level) (h : form ≠ .ifForm) :
    (l.control form).Always (·.form = form) := by
  have hround (s : List Link × Control Node) (hs : s.1 = [] ∧ s.2.form = form) :
      (l.linkRound s).Always fun t => t.1.1 = [] ∧ t.1.2.form = form := by
    refine Gives.kind_bind fun k _ => Gives.ite (fun hk => ?_) fun _ => Gives.pure hs
    rw [hs.2, Bool.and_eq_true, decide_eq_true_eq] at hk
    exact absurd hk.1 h
  refine (form_head l form).bind fun first hfirst => (Gives.grow hround ⟨rfl, hfirst.1⟩).bind
    fun (links, last) ⟨hlinks, hlast⟩ => Gives.pure ?_
  rw [show links = [] from hlinks]
  exact hlast

theorem isChoice_of_isTrivia {n : Node} (h : n.isTrivia = true) : n.isChoice = false := by
  cases n <;> first | rfl | cases h

theorem isChoice_of_isExpression {n : Node} (h : n.isExpression = true) (semicolon : Option Lexeme)
    (closure : List Node) : (Node.command n semicolon closure).isChoice = false := by
  cases n <;> first | rfl | cases h

/-- A body that begins with anything but a choice is a block, or no choice stands in it. -/
theorem isChoice_body (hl : l.Sorted) :
    l.body.Gives (· ≠ .keyword .ifWord) fun b => b.isBraced = true ∨ ∀ n ∈ b.statements, n.isChoice = false := by
  refine Gives.kind_bind fun k hk => Gives.ite (fun _ => ?_) fun _ => ?_
  · exact Gives.always_on (Gives.any_bind fun _ => Gives.ite (fun _ => Gives.pure (.inl rfl)) fun _ =>
      Gives.any_bind fun _ => Gives.any_bind fun _ => Gives.pure (.inl rfl))
  · refine Gives.takeTrivia_bind isTrivia_takeTrivia.always_on fun trivia htrivia => ?_
    refine Gives.ite (fun _ => ?_) fun _ => Gives.any_bind fun _ => Gives.pure (.inr fun n hn => ?_)
    · refine ((hl.isChoice_statement true).on (q := (· = k)) fun j hj => hj ▸ hk).bind fun statement hstatement =>
        Gives.pure (.inr (List.forall_mem_append.mpr ⟨fun n hn => ?_, List.forall_mem_singleton.mpr hstatement⟩))
      exact isChoice_of_isTrivia (htrivia n hn)
    · exact isChoice_of_isTrivia (htrivia n hn)

/-! ### Statements -/

theorem isTrivia_statementHere (l : Level) (nested : Bool) : (l.statementHere nested).Always (·.isTrivia = false) := by
  have hended (inner : Rule Node) : (ended inner).Always (·.isTrivia = false) :=
    Gives.any_bind fun _ => Gives.any_bind fun _ => Gives.pure rfl
  have hwhole (inner : Rule Node) : (whole inner).Always (·.isTrivia = false) :=
    Gives.any_bind fun _ => Gives.pure rfl
  refine Gives.kind_bind fun k _ => Gives.look_bind fun next => Gives.always_on ?_
  split
  case h_4 => exact Gives.ite (fun _ => hwhole _) fun _ => hended _
  case h_5 | h_6 | h_7 => exact hwhole _
  case h_9 => exact Gives.any_bind fun _ => Gives.any_bind fun _ => Gives.pure rfl
  case h_10 =>
    refine Gives.ite (fun _ => hended _) fun _ => Gives.kind_bind fun _ _ => Gives.any_bind fun _ =>
      Gives.any_bind fun _ => Gives.any_bind fun _ => Gives.pure rfl
  all_goals exact hended _

/-- A statement is a choice only if the word for it is next. -/
theorem isChoice_statementHere (hl : l.Sorted) (nested : Bool) :
    (l.statementHere nested).Gives (· ≠ .keyword .ifWord) (·.isChoice = false) := by
  have hexpression : (ended l.expression).Always (·.isChoice = false) :=
    hl.isExpression_expression.bind fun _ h => Gives.any_bind fun _ => Gives.pure (isChoice_of_isExpression h _ _)
  have hdeclaration (form : DeclarationForm) : (ended (l.declaration form)).Always (·.isChoice = false) := by
    have hinner : (l.declaration form).Always fun n => ∀ semicolon, (Node.command n semicolon []).isChoice = false :=
      Gives.any_bind fun _ => Gives.any_bind fun _ => Gives.any_bind fun _ => Gives.pure fun _ => rfl
    exact hinner.bind fun _ h => Gives.any_bind fun _ => Gives.pure (h _)
  have hfunction : (whole l.functionDeclaration).Always (·.isChoice = false) := by
    have hinner : l.functionDeclaration.Always fun n => (Node.command n none []).isChoice = false :=
      Gives.any_bind fun _ => Gives.any_bind fun _ => Gives.any_bind fun _ => Gives.pure rfl
    exact hinner.bind fun _ h => Gives.pure h
  have hloop {form : ControlForm} (h : form ≠ .ifForm) :
      (whole (.combinator <$> l.control form)).Always (·.isChoice = false) := by
    refine Gives.bind (Gives.map ((form_control l h).imp fun c hc => ?_)) fun _ h => Gives.pure h
    show decide (c.form = .ifForm) = false
    rw [hc, decide_eq_false h]
  have hreturning : (ended l.returning).Always (·.isChoice = false) := by
    have hinner : l.returning.Always fun n => ∀ semicolon, (Node.command n semicolon []).isChoice = false :=
      Gives.any_bind fun _ => Gives.kind_bind fun _ _ => Gives.look_bind fun _ =>
        Gives.ite (fun _ => Gives.any_bind fun _ => Gives.pure fun _ => rfl) fun _ => Gives.pure fun _ => rfl
    exact hinner.bind fun _ h => Gives.any_bind fun _ => Gives.pure (h _)
  refine Gives.kind_bind fun k hk => Gives.look_bind fun next => Gives.always_on ?_
  split
  case h_1 | h_2 | h_3 => exact hdeclaration _
  case h_4 => exact Gives.ite (fun _ => hfunction) fun _ => hexpression
  case h_5 => exact absurd rfl hk
  case h_6 | h_7 => exact hloop (by decide)
  case h_8 => exact hreturning
  case h_9 => exact Gives.any_bind fun _ => Gives.any_bind fun _ => Gives.pure rfl
  case h_10 =>
    refine Gives.ite (fun _ => hexpression) fun _ => Gives.kind_bind fun _ _ => Gives.any_bind fun _ =>
      Gives.any_bind fun _ => Gives.any_bind fun _ => Gives.pure rfl

/-! ### All levels -/

theorem sorted_ofRemaining (limit remaining : Nat) : (ofRemaining limit remaining).Sorted := by
  induction remaining with
  | zero =>
      have hrefuse (Q : Node → Prop) (hQ : Q (.unparsed [])) : (refuse limit).Always Q :=
        Gives.any_bind fun _ => Gives.any_bind fun _ => Gives.pure hQ
      exact {
        isTrivia_statement := fun _ => hrefuse _ rfl
        isChoice_statement := fun _ => (hrefuse (·.isChoice = false) rfl).always_on
        isExpression_expression := hrefuse _ rfl
        isExpression_prefixed := hrefuse _ rfl }
  | succ remaining ih =>
      exact {
        isTrivia_statement := fun nested => isTrivia_statementHere _ nested
        isChoice_statement := fun nested => isChoice_statementHere ih nested
        isExpression_expression := isExpression_assignment ih
        isExpression_prefixed := isExpression_operation _ }

end Level

end LosslessSyntax
