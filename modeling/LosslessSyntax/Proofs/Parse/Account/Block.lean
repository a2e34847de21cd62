import LosslessSyntax.Parse.Block
import LosslessSyntax.Proofs.Parse.Account.Rule

/-! The account through statement lists, blocks and functions, if the next level keeps it. A statement is no
trivia and has no closure yet, so that what trails it can be attached to it. -/

namespace LosslessSyntax

open LosslessSyntax.Part Rule

/-- Whether the rule always comes to something, be it only to an unparsed node. -/
def Rule.NeverEmpty (r : Rule Node) : Prop := ∀ c, (r.run c).1.isEmpty = false

/-- Whether the node may be a statement to which nothing is attached yet. -/
def Node.isStatement (n : Node) : Bool := !n.isTrivia && n.isOpen

theorem Token.isOpen_triviaNodes {source : Text} {stop : Nat} {run : Option Nat} {ts : List Token} {n : Node}
    (h : n ∈ triviaNodes source stop run ts) : n.isOpen = true := Node.isOpen_of_isTrivia (isTrivia_triviaNodes n h)

namespace Level

/-- Whether all that may be asked of the level keeps the account of what was read. -/
structure Accounts (l : Level) (source : List Token) : Prop where
  statement (nested : Bool) (ps : List (Part Node)) (flaw : Bool) :
    Triple (Account source ps flaw) (l.statement nested)
      fun n c => n.isStatement = true ∧ Account source (ps ++ [.node n]) flaw c
  expression : l.expression.Accounts source ([.node ·])
  prefixed (ps : List (Part Node)) (flaw : Bool) :
    Triple (fun c => Account source ps flaw c ∧ c.kind.isPrefixOperator = true) l.prefixed
      fun n => Account source (ps ++ [.node n]) flaw
  neverEmpty_expression : l.expression.NeverEmpty
  neverEmpty_prefixed : l.prefixed.NeverEmpty

variable {l : Level} {source : List Token} {ps : List (Part Node)} {flaw : Bool}

/-- The account while statements are collected: trailing comments can still be attached to them. -/
def AccountOpen (source : List Token) (ps : List (Part Node)) (flaw : Bool) (nodes : List Node) (c : Cursor) :
    Prop := (∀ n ∈ nodes, n.isOpen = true) ∧ Account source (ps ++ nodes.map .node) flaw c

theorem AccountOpen.append {nodes others : List Node} {c : Cursor} (hnodes : ∀ n ∈ nodes, n.isOpen = true)
    (hothers : ∀ n ∈ others, n.isOpen = true)
    (h : Account source (ps ++ nodes.map .node ++ others.map .node) flaw c) :
    AccountOpen source ps flaw (nodes ++ others) c := by
  refine ⟨fun n hn => (List.mem_append.mp hn).elim (hnodes n) (hothers n), ?_⟩
  rw [List.map_append, ← List.append_assoc]
  exact h

theorem accounts_statementsRound (hl : l.Accounts source) (nested : Bool) (nodes : List Node) :
    Triple (AccountOpen source ps flaw nodes) (l.statementsRound nested) fun s c =>
      cond s.2 (AccountOpen source ps flaw (nodes ++ s.1) c) (AccountOpen source ps flaw (nodes ++ s.1) c) := by
  refine Triple.of_and fun hnodes => ?_
  have htrivia : Triple (Account source (ps ++ nodes.map .node) flaw) takeTrivia
      fun trivia c => (∀ n ∈ trivia, n.isOpen = true) ∧
        Account source (ps ++ nodes.map .node ++ trivia.map .node) flaw c :=
    fun c h => ⟨fun n hn => Token.isOpen_triviaNodes hn, h.takeTrivia⟩
  refine htrivia.bind fun trivia => Triple.of_and fun htrivia => Triple.kind_bind fun k => ?_
  refine Triple.ite (fun _ => Triple.pure fun c h => .append hnodes htrivia h.1) fun _ => ?_
  refine ((hl.statement nested _ _).of_imp fun _ h => h.1).bind fun statement =>
    Triple.of_and fun hstatement => Triple.pure fun c h => .append hnodes ?_ ?_
  · intro n hn
    rcases List.mem_append.mp hn with hn | hn
    · exact htrivia n hn
    · rw [List.mem_singleton.mp hn]
      exact (Bool.and_eq_true_iff.mp hstatement).2
  · rw [List.map_append, ← List.append_assoc]
    exact h

theorem accounts_statements (hl : l.Accounts source) (nested : Bool) :
    (l.statements nested).Accounts source (List.map .node) := by
  intro ps flaw
  have hstart (c : Cursor) (h : Account source ps flaw c) : AccountOpen source ps flaw [] c :=
    ⟨fun n hn => absurd hn List.not_mem_nil, h.append_nil⟩
  refine ((Triple.collect (accounts_statementsRound hl nested)).of_imp hstart).bind fun nodes => ?_
  exact Triple.pure fun c h => h.2.congr_end (.attachTrailing h.1)

/-- A block in braces, however much of it is missing. -/
theorem accounts_block (hl : l.Accounts source) :
    Triple (Account source ps flaw) l.block
      fun b c => (b.isBraced = true ∧ b.Fresh) ∧ Account source (ps ++ b.parts) flaw c := by
  refine (accounts_expect rfl ps flaw).bind fun opening => Triple.ite (fun hmissing => ?_) fun _ => ?_
  · cases Lexeme.isMissing_iff.mp hmissing
    -- the closing brace is missing with the opening one, without a message of its own
    refine Triple.pure fun c h => ⟨⟨rfl, Block.fresh_braces _ _ _⟩, ?_⟩
    have hclosing : Account source (ps ++ [.lexeme .missing] ++ [.lexeme .missing]) flaw c :=
      h.missing (flawedAmong_missing ps flaw)
    simpa [Block.parts, Lexeme.optionalParts] using hclosing
  · refine (accounts_statements hl true _ _).bind fun statements =>
      (accounts_expect rfl _ _).bind fun closing => Triple.pure fun c h => ⟨⟨rfl, Block.fresh_braces _ _ _⟩, ?_⟩
    simpa [Block.parts, Lexeme.optionalParts] using h

/-- A parameter is a name. What else stands there stands where the list must be closed. -/
theorem accounts_parameter : parameter.AccountsItem source (.symbol .closeParen) ([.lexeme ·]) := by
  intro ps flaw
  refine Triple.kind_bind fun k => Triple.ite (fun hk => ?_) fun _ => Triple.ite (fun _ => ?_) fun hk => ?_
  · cases hk
    exact accounts_bump_on rfl
  · exact Triple.pure fun c h => .inl h.1
  · refine (accounts_report_on rfl []).bind fun _ => Triple.pure fun c ⟨h, hkind⟩ => .inr ⟨h, ?_⟩
    intro hclosing
    rw [hclosing] at hkind
    simp [← hkind] at hk

theorem accounts_function (hl : l.Accounts source) :
    Triple (Account source ps flaw) l.function
      fun f c => f.block.isBraced = true ∧ Account source (ps ++ f.parts) flaw c := by
  refine (accounts_expect rfl ps flaw).bind fun opening =>
    (accounts_separated accounts_parameter).bind fun (parameters, commas) =>
    (accounts_expect_closing rfl).bind fun closing => (accounts_block hl).bind fun block => ?_
  refine Triple.of_and fun hblock => Triple.pure fun c h => ⟨hblock.1, ?_⟩
  simpa [Function.parts, separatedParts] using h

end Level

end LosslessSyntax
