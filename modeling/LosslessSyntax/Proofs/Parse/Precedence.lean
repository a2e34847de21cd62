import LosslessSyntax.Parse.Program
import LosslessSyntax.Proofs.Parse.Climbing
import LosslessSyntax.Proofs.Parse.Result
import LosslessSyntax.Proofs.Tree.Precedence

/-! Precedence in what is read. From the inside out every rule for expressions comes to a node that holds
together as tightly as the rules around it demand. The climbing loop reads what the tiers do, and there an operand of
a tier is an expression of the tighter tiers, and what a tier comes to grows to the left only. -/

namespace LosslessSyntax

open Rule Node

namespace Tier

theorem lt_bound {tier : Tier} {tighter : List Tier} (h : (tier :: tighter).Pairwise (·.toNat < ·.toNat)) :
    tier.toNat < bound tighter := by
  cases tighter with
  | nil => cases tier <;> decide
  | cons next _ => exact List.rel_of_pairwise_cons h List.mem_cons_self

theorem pairwise_all : all.Pairwise (·.toNat < ·.toNat) := by decide

end Tier

/-- Whether precedence is respected in the node and below it. -/
abbrev Node.IsOrdered (n : Node) : Prop := n.Everywhere RespectsPrecedence

theorem Node.isOrdered_of_isTrivia {n : Node} (h : n.isTrivia = true) : n.IsOrdered := by
  rw [IsOrdered, everywhere_leaf (children_of_isTrivia h)]
  cases n <;> trivial

namespace Level

/-- Whether precedence is respected in all that may be asked of the level. -/
structure Orders (l : Level) : Prop where
  statement (nested : Bool) : (l.statement nested).Always IsOrdered
  expression : l.expression.Always IsOrdered
  prefixed : l.prefixed.Always fun n => n.IsOrdered ∧ 7 ≤ n.tightness

variable {l : Level}

theorem orders_takeTrivia : takeTrivia.Always fun ns => ∀ n ∈ ns, n.IsOrdered :=
  fun _ _ _ n hn => isOrdered_of_isTrivia (Token.isTrivia_triviaNodes n hn)

theorem orders_takeTrailing : takeTrailing.Always fun ns => ∀ n ∈ ns, n.IsOrdered :=
  fun _ _ _ n hn => isOrdered_of_isTrivia (Token.isTrivia_triviaNodes n hn)

/-! ### Statement lists, blocks and functions -/

theorem orders_statements (hl : l.Orders) (nested : Bool) :
    (l.statements nested).Always fun ns => ∀ n ∈ ns, n.IsOrdered := by
  refine (Gives.collect (Q := IsOrdered) ?_).bind fun nodes hnodes =>
    Gives.pure (everywhere_attachTrailing (fun _ _ _ _ _ => trivial) hnodes)
  refine orders_takeTrivia.bind fun trivia htrivia => Gives.kind_bind fun k _ =>
    Gives.ite (fun _ => Gives.pure htrivia) fun _ => ?_
  refine (hl.statement nested).always_on.bind fun statement hstatement => Gives.pure ?_
  exact List.forall_mem_append.mpr ⟨htrivia, List.forall_mem_singleton.mpr hstatement⟩

theorem orders_block (hl : l.Orders) : l.block.Always fun b => ∀ n ∈ b.children, n.IsOrdered := by
  refine Gives.any_bind fun opening => Gives.ite (fun _ => Gives.pure ?_) fun _ => ?_
  · exact fun _ h => absurd h List.not_mem_nil
  · refine (orders_statements hl true).bind fun statements hstatements => Gives.any_bind fun closing =>
      Gives.pure ?_
    rw [Block.children, List.append_nil]
    exact hstatements

theorem orders_function (hl : l.Orders) :
    l.function.Always fun f => ∀ n ∈ f.block.children, n.IsOrdered := by
  refine Gives.any_bind fun opening => (Gives.any _).bind fun (parameters, commas) _ =>
    Gives.any_bind fun closing => (orders_block hl).bind fun block hblock => Gives.pure hblock

/-! ### Expressions -/

theorem orders_expressions (hl : l.Orders) (closing : Symbol) :
    (l.expressions closing).Always fun s => ∀ n ∈ s.1, n.IsOrdered := by
  refine Gives.separated (Gives.kind_bind fun k _ => Gives.ite (fun _ => Gives.pure nofun) fun _ => ?_)
  refine Gives.map (hl.expression.always_on.imp fun n hn m hm => ?_)
  cases hm
  exact hn

theorem orders_field (hl : l.Orders) : l.field.Always fun f => ∀ g ∈ f, g.value.IsOrdered := by
  refine Gives.kind_bind fun k _ => Gives.ite (fun _ => Gives.pure nofun) fun _ =>
    Gives.any_bind fun key => ?_
  cases key with
  | none => exact Gives.pure nofun
  | some key =>
      refine Gives.any_bind fun colon => hl.expression.bind fun value hvalue => Gives.pure fun g hg => ?_
      cases hg
      exact hvalue

theorem orders_leaf {f : Lexeme → Node} {p : Kind → Prop}
    (h : ∀ l, (f l).children = [] ∧ (f l).RespectsPrecedence ∧ (f l).tightness = 9) :
    (f <$> bump).Gives p fun n => n.IsOrdered ∧ n.tightness = 9 := by
  refine Gives.map ((Gives.any bump).imp fun lexeme _ => ?_)
  obtain ⟨hchildren, hself, htight⟩ := h lexeme
  exact ⟨(everywhere_leaf hchildren).mpr hself, htight⟩

theorem isOrdered_unparsed (lexemes : List Lexeme) : (Node.unparsed lexemes).IsOrdered :=
  (everywhere_leaf rfl).mpr trivial

theorem orders_missingExpression : missingExpression.Always fun n => n.IsOrdered ∧ n.tightness = 9 := by
  refine Gives.any_bind fun _ => Gives.kind_bind fun k _ =>
    Gives.ite (fun _ => Gives.pure ⟨isOrdered_unparsed [], rfl⟩) fun _ =>
      Gives.any_bind fun lexeme => Gives.pure ⟨isOrdered_unparsed [lexeme], rfl⟩

theorem orders_primary (hl : l.Orders) : l.primary.Always fun n => n.IsOrdered ∧ n.tightness = 9 := by
  refine Gives.kind_bind fun k _ => ?_
  split
  case h_1 | h_2 => exact orders_leaf fun _ => ⟨rfl, trivial, rfl⟩
  case h_3 | h_4 | h_5 | h_6 | h_7 => exact orders_leaf fun _ => ⟨rfl, trivial, rfl⟩
  case h_8 =>
    refine Gives.any_bind fun opening => hl.expression.bind fun inner hinner =>
      Gives.any_bind fun closing => Gives.pure ⟨everywhere_iff.mpr ⟨trivial, ?_⟩, rfl⟩
    exact List.forall_mem_singleton.mpr hinner
  case h_9 =>
    refine Gives.any_bind fun opening => (Gives.separated (orders_field hl)).bind fun (fields, _) hfields =>
      Gives.any_bind fun closing => Gives.pure ⟨everywhere_iff.mpr ⟨trivial, ?_⟩, rfl⟩
    exact List.forall_mem_map.mpr hfields
  case h_10 =>
    refine Gives.any_bind fun opening => (orders_expressions hl _).bind fun (elements, _) helements =>
      Gives.any_bind fun closing => Gives.pure ⟨everywhere_iff.mpr ⟨trivial, helements⟩, rfl⟩
  case h_11 =>
    refine Gives.any_bind fun keyword => Gives.any_bind fun name =>
      (orders_function hl).bind fun body hbody => Gives.pure ⟨everywhere_iff.mpr ⟨trivial, hbody⟩, rfl⟩
  case h_12 => exact orders_missingExpression.always_on

/-- Whatever stands behind a tight node without an operator makes another tight node of it. -/
theorem orders_suffixRound (hl : l.Orders) {base : Node} (hbase : base.IsOrdered ∧ base.tightness = 9) :
    (l.suffixRound base).Always fun s => s.1.IsOrdered ∧ s.1.tightness = 9 := by
  refine Gives.kind_bind fun k _ => ?_
  split
  · refine Gives.any_bind fun dot => Gives.any_bind fun field =>
      Gives.pure ⟨everywhere_iff.mpr ⟨hbase.2, ?_⟩, rfl⟩
    exact List.forall_mem_singleton.mpr hbase.1
  · refine Gives.any_bind fun opening => hl.expression.bind fun subscript hsubscript =>
      Gives.any_bind fun closing => Gives.pure ⟨everywhere_iff.mpr ⟨hbase.2, ?_⟩, rfl⟩
    exact List.forall_mem_cons.mpr ⟨hbase.1, List.forall_mem_singleton.mpr hsubscript⟩
  · refine Gives.any_bind fun opening => (orders_expressions hl _).bind fun (arguments, _) harguments =>
      Gives.any_bind fun closing => Gives.pure ⟨everywhere_iff.mpr ⟨hbase.2, ?_⟩, rfl⟩
    exact List.forall_mem_cons.mpr ⟨hbase.1, harguments⟩
  · exact Gives.pure hbase

theorem orders_suffixed (hl : l.Orders) : l.suffixed.Always fun n => n.IsOrdered ∧ n.tightness = 9 :=
  (orders_primary hl).bind fun _ hbase => Gives.grow (fun _ h => orders_suffixRound hl h) hbase

theorem orders_postfixed (hl : l.Orders) : l.postfixed.Always fun n => n.IsOrdered ∧ 8 ≤ n.tightness := by
  refine (orders_suffixed hl).bind fun operand ⟨hoperand, htight⟩ => Gives.kind_bind fun k _ =>
    Gives.look_bind fun separate => Gives.ite (fun _ => ?_) fun _ => Gives.pure ⟨hoperand, by omega⟩
  refine Gives.any_bind fun symbol => Gives.pure ⟨everywhere_iff.mpr ⟨htight, ?_⟩, Nat.le_refl 8⟩
  exact List.forall_mem_singleton.mpr hoperand

theorem orders_unary (hl : l.Orders) : l.unary.Always fun n => n.IsOrdered ∧ 7 ≤ n.tightness := by
  refine Gives.kind_bind fun k _ => Gives.ite (fun _ => hl.prefixed.always_on) fun _ => ?_
  exact (orders_postfixed hl).always_on.imp fun n ⟨hn, htight⟩ => ⟨hn, by omega⟩

/-- An operation of a tier has an operation of this tier at most on its left. -/
theorem orders_tierRound {tier : Tier} {operand : Rule Node}
    (hoperand : operand.Always fun n => n.IsOrdered ∧ tier.toNat < n.tightness) {left : Node}
    (hleft : left.IsOrdered ∧ tier.toNat ≤ left.tightness) :
    (tierRound tier operand left).Always fun s => s.1.IsOrdered ∧ tier.toNat ≤ s.1.tightness := by
  refine Gives.kind_bind fun k _ => Gives.ite (fun hk => ?_) fun _ => Gives.pure hleft
  obtain ⟨text, htext, htier⟩ := Tier.text?_of_ofKind? hk
  refine (gives_bump htext).bind fun symbol hsymbol => hoperand.bind fun right ⟨hright, htight⟩ => Gives.pure ?_
  rw [← hsymbol] at htier
  refine ⟨everywhere_iff.mpr ⟨⟨tier, htier, hleft.2, htight⟩, ?_⟩, Nat.le_of_eq (tightness_binary htier).symm⟩
  exact List.forall_mem_cons.mpr ⟨hleft.1, List.forall_mem_singleton.mpr hright⟩

theorem orders_tiered (hl : l.Orders) {tiers : List Tier} (h : tiers.Pairwise (·.toNat < ·.toNat)) :
    (l.tiered tiers).Always fun n => n.IsOrdered ∧ Tier.bound tiers ≤ n.tightness := by
  induction tiers with
  | nil => exact orders_unary hl
  | cons tier tighter ih =>
      have hlt : tier.toNat < Tier.bound tighter := Tier.lt_bound h
      have hoperand : (l.tiered tighter).Always fun n => n.IsOrdered ∧ tier.toNat < n.tightness :=
        (ih h.of_cons).imp fun n ⟨hn, htight⟩ => ⟨hn, by omega⟩
      refine hoperand.bind fun first ⟨hfirst, htight⟩ => ?_
      exact Gives.grow (fun _ hleft => orders_tierRound hoperand hleft) ⟨hfirst, by omega⟩

/-- What the climbing loop comes to holds together at least as tightly as the loosest binary operator. -/
theorem orders_binary (hl : l.Orders) : (l.binary 0).Always fun n => n.IsOrdered ∧ 1 ≤ n.tightness := by
  rw [binary_zero_eq_tiered]
  exact orders_tiered hl Tier.pairwise_all

theorem orders_assignment (hl : l.Orders) : l.assignment.Always IsOrdered := by
  refine (orders_binary hl).bind fun target ⟨htarget, htight⟩ => Gives.kind_bind fun k _ =>
    Gives.ite (fun _ => ?_) fun _ => Gives.pure htarget
  refine Gives.any_bind fun operator => hl.expression.bind fun value hvalue =>
    Gives.pure (everywhere_iff.mpr ⟨htight, ?_⟩)
  exact List.forall_mem_cons.mpr ⟨htarget, List.forall_mem_singleton.mpr hvalue⟩

/-! ### Declarations and control flow -/

theorem orders_declarator (hl : l.Orders) (form : DeclarationForm) (lead : Lexeme) :
    (l.declarator form lead).Always fun d => ∀ n ∈ d.children, n.IsOrdered := by
  refine Gives.any_bind fun name => Gives.any_bind fun equals => ?_
  cases equals with
  | none => exact Gives.pure fun _ h => absurd h List.not_mem_nil
  | some equals => exact hl.expression.bind fun value hvalue => Gives.pure (List.forall_mem_singleton.mpr hvalue)

theorem orders_declaration (hl : l.Orders) (form : DeclarationForm) :
    (l.declaration form).Always IsOrdered := by
  have hround : (l.declaratorRound form).Always fun s => ∀ d ∈ s.1, ∀ n ∈ d.children, n.IsOrdered := by
    refine Gives.any_bind fun lead => ?_
    cases lead with
    | none => exact Gives.pure fun _ h => absurd h List.not_mem_nil
    | some lead =>
        refine (orders_declarator hl form lead).bind fun d hd => Gives.pure ?_
        exact List.forall_mem_singleton.mpr hd
  refine Gives.any_bind fun keyword => (orders_declarator hl form keyword).bind fun first hfirst =>
    (Gives.collect hround).bind fun additional hadditional => Gives.pure (everywhere_iff.mpr ⟨trivial, ?_⟩)
  exact Declarator.forall_children_withAdditional hfirst hadditional

theorem orders_functionDeclaration (hl : l.Orders) : l.functionDeclaration.Always IsOrdered := by
  refine Gives.any_bind fun keyword => Gives.any_bind fun name =>
    (orders_function hl).bind fun body hbody => Gives.pure (everywhere_iff.mpr ⟨trivial, hbody⟩)

theorem orders_body (hl : l.Orders) : l.body.Always fun b => ∀ n ∈ b.children, n.IsOrdered := by
  refine Gives.kind_bind fun k _ => Gives.ite (fun _ => (orders_block hl).always_on) fun _ =>
    orders_takeTrivia.always_on.bind fun trivia htrivia => Gives.ite (fun _ => ?_) fun _ => ?_
  · refine (hl.statement true).bind fun statement hstatement => Gives.pure ?_
    rw [Block.children, List.append_nil]
    exact List.forall_mem_append.mpr ⟨htrivia, List.forall_mem_singleton.mpr hstatement⟩
  · refine Gives.any_bind fun _ => Gives.pure ?_
    rw [Block.children, List.append_nil]
    exact htrivia

theorem isOrdered_empty : Node.empty.IsOrdered := (everywhere_leaf rfl).mpr trivial

theorem orders_clause (hl : l.Orders) (first : Bool) : (l.clause first).Always IsOrdered := by
  refine Gives.kind_bind fun k _ => Gives.ite (fun _ => Gives.pure isOrdered_empty) fun _ => ?_
  split
  · exact (orders_declaration hl _).always_on
  · exact hl.expression.always_on

theorem orders_header (hl : l.Orders) (form : ControlForm) :
    (l.header form).Always fun s => ∀ n ∈ s.1, n.IsOrdered := by
  cases form with
  | forForm =>
      refine (orders_clause hl true).bind fun initial hinitial => Gives.any_bind fun first =>
        (orders_clause hl false).bind fun condition hcondition => Gives.any_bind fun second =>
        (orders_clause hl false).bind fun step hstep => Gives.pure ?_
      simpa using ⟨hinitial, hcondition, hstep⟩
  | _ => exact hl.expression.bind fun condition hcondition => Gives.pure (List.forall_mem_singleton.mpr hcondition)

theorem orders_head (hl : l.Orders) (form : ControlForm) :
    (l.head form).Always fun control => ∀ n ∈ control.children, n.IsOrdered := by
  refine Gives.any_bind fun keyword => Gives.any_bind fun opening => (orders_header hl form).bind ?_
  rintro ⟨header, separators⟩ hheader
  refine Gives.any_bind fun closing => (orders_body hl).bind fun body hbody => Gives.pure ?_
  rw [Control.children]
  exact List.forall_mem_append.mpr ⟨List.forall_mem_append.mpr ⟨hheader, hbody⟩, List.forall_mem_nil _⟩

end Level

/-- Whether precedence is respected in the choice of the link and in what leads on from it. -/
def Link.IsOrdered (link : Link) : Prop :=
  (∀ n ∈ link.control.children, n.IsOrdered) ∧ ∀ n ∈ link.leading, n.IsOrdered

theorem Link.isOrdered_close {link : Link} (hlink : link.IsOrdered) {inner : Control Node}
    (hinner : ∀ n ∈ inner.children, n.IsOrdered) : ∀ n ∈ (link.close inner).children, n.IsOrdered := by
  have hcommand : (Node.command (.combinator inner) none []).IsOrdered :=
    everywhere_command.mpr ⟨trivial, everywhere_iff.mpr ⟨trivial, hinner⟩, nofun⟩
  apply Control.everywhere_with_alternate hlink.1
  rw [Block.children, List.append_nil, List.forall_mem_append, List.forall_mem_singleton]
  exact ⟨hlink.2, hcommand⟩

theorem Link.isOrdered_chain {links : List Link} (hlinks : ∀ link ∈ links, link.IsOrdered) {last : Control Node}
    (hlast : ∀ n ∈ last.children, n.IsOrdered) :
    ∀ n ∈ (links.foldl (fun inner link => link.close inner) last).children, n.IsOrdered := by
  induction links generalizing last with
  | nil => exact hlast
  | cons link outer ih =>
      obtain ⟨hlink, houter⟩ := List.forall_mem_cons.mp hlinks
      exact ih houter (Link.isOrdered_close hlink hlast)

namespace Level

variable {l : Level}

theorem orders_linkRound (hl : l.Orders) {s : List Link × Control Node}
    (hs : (∀ link ∈ s.1, link.IsOrdered) ∧ ∀ n ∈ s.2.children, n.IsOrdered) :
    (l.linkRound s).Always fun t => (∀ link ∈ t.1.1, link.IsOrdered) ∧ ∀ n ∈ t.1.2.children, n.IsOrdered := by
  obtain ⟨hlinks, hlast⟩ := hs
  refine Gives.kind_bind fun k _ => Gives.ite (fun _ => ?_) fun _ => Gives.pure ⟨hlinks, hlast⟩
  refine orders_takeTrailing.always_on.bind fun comments hcomments => Gives.any_bind fun keyword =>
    Gives.kind_bind fun k _ => ?_
  have hattached := Control.everywhere_attach (fun _ _ _ _ _ => trivial) hlast hcomments
  refine Gives.ite (fun _ => ?_) fun _ => ?_
  · refine orders_takeTrivia.always_on.bind fun leading hleading => (orders_head hl .ifForm).bind fun next hnext =>
      Gives.pure ⟨?_, hnext⟩
    exact List.forall_mem_cons.mpr ⟨⟨hattached, hleading⟩, hlinks⟩
  · refine (orders_body hl).always_on.bind fun body hbody => Gives.pure ⟨hlinks, ?_⟩
    exact Control.everywhere_with_alternate hattached hbody

theorem orders_control (hl : l.Orders) (form : ControlForm) :
    (l.control form).Always fun control => ∀ n ∈ control.children, n.IsOrdered := by
  refine (orders_head hl form).bind fun first hfirst =>
    (Gives.grow (fun _ hs => orders_linkRound hl hs) ⟨fun _ h => absurd h List.not_mem_nil, hfirst⟩).bind
      fun (links, last) ⟨hlinks, hlast⟩ => Gives.pure (Link.isOrdered_chain hlinks hlast)

/-! ### Statements -/

theorem orders_returning (hl : l.Orders) : l.returning.Always IsOrdered := by
  refine Gives.any_bind fun keyword => Gives.kind_bind fun k _ => Gives.look_bind fun separate =>
    Gives.ite (fun _ => ?_) fun _ => Gives.pure ((everywhere_leaf rfl).mpr trivial)
  refine hl.expression.always_on.bind fun value hvalue => Gives.pure (everywhere_iff.mpr ⟨trivial, ?_⟩)
  exact List.forall_mem_singleton.mpr hvalue

theorem isOrdered_command {inner : Node} (h : inner.IsOrdered) (semicolon : Option Lexeme) :
    (Node.command inner semicolon []).IsOrdered :=
  everywhere_command.mpr ⟨trivial, h, nofun⟩

theorem orders_whole {inner : Rule Node} (h : inner.Always IsOrdered) : (whole inner).Always IsOrdered :=
  h.bind fun _ hinner => Gives.pure (isOrdered_command hinner none)

theorem orders_ended {inner : Rule Node} (h : inner.Always IsOrdered) : (ended inner).Always IsOrdered :=
  h.bind fun _ hinner => Gives.any_bind fun semicolon => Gives.pure (isOrdered_command hinner semicolon)

theorem orders_unparsedStatement (nested : Bool) : (unparsedStatement nested).Always IsOrdered := by
  refine Gives.kind_bind fun k _ => Gives.any_bind fun _ => Gives.any_bind fun first =>
    Gives.any_bind fun others => Gives.pure (isOrdered_unparsed _)

theorem orders_statementHere (hl : l.Orders) (nested : Bool) : (l.statementHere nested).Always IsOrdered := by
  have hcontrol (form : ControlForm) : (Node.combinator <$> l.control form).Always IsOrdered :=
    Gives.map ((orders_control hl form).imp fun _ h => everywhere_iff.mpr ⟨trivial, h⟩)
  refine Gives.kind_bind fun k _ => Gives.look_bind fun next => Gives.always_on ?_
  split
  case h_1 | h_2 | h_3 => exact orders_ended (orders_declaration hl _)
  case h_4 =>
    exact Gives.ite (fun _ => orders_whole (orders_functionDeclaration hl)) fun _ => orders_ended hl.expression
  case h_5 | h_6 | h_7 => exact orders_whole (hcontrol _)
  case h_8 => exact orders_ended (orders_returning hl)
  case h_9 =>
    refine Gives.any_bind fun _ => Gives.any_bind fun semicolon => Gives.pure ?_
    exact isOrdered_command isOrdered_empty _
  case h_10 => exact Gives.ite (fun _ => orders_ended hl.expression) fun _ => orders_unparsedStatement nested

/-! ### All levels -/

theorem orders_refuse (limit : Nat) : (refuse limit).Always fun n => n.IsOrdered ∧ 7 ≤ n.tightness := by
  refine Gives.any_bind fun _ => Gives.any_bind fun _ => Gives.pure ⟨isOrdered_unparsed [], ?_⟩
  show 7 ≤ 9
  omega

theorem orders_operation (hl : l.Orders) : l.operation.Always fun n => n.IsOrdered ∧ 7 ≤ n.tightness := by
  refine Gives.any_bind fun symbol => (orders_unary hl).bind fun operand ⟨hoperand, htight⟩ =>
    Gives.pure ⟨everywhere_iff.mpr ⟨htight, ?_⟩, Nat.le_refl 7⟩
  exact List.forall_mem_singleton.mpr hoperand

theorem orders_ofRemaining (limit remaining : Nat) : (ofRemaining limit remaining).Orders := by
  induction remaining with
  | zero =>
      exact {
        statement := fun _ => (orders_refuse limit).imp fun _ h => h.1
        expression := (orders_refuse limit).imp fun _ h => h.1
        prefixed := orders_refuse limit }
  | succ remaining ih =>
      exact {
        statement := fun nested => orders_statementHere ih nested
        expression := orders_assignment ih
        prefixed := orders_operation ih }

end Level

/-- In the tree of a source all operators stand where their precedence puts them, be the source well formed or
not. A binary operator has an operand at least as tight as itself on its left and a tighter one on its right;
operators in front of and behind an operand, accesses, subscripts and calls take nothing looser apart; and the
target of an assignment is no assignment. -/
theorem Program.everywhere_respectsPrecedence (source : Text) (limit : Nat) :
    (Program.ofSource source limit).Everywhere Node.RespectsPrecedence := by
  rw [Program.everywhere_iff]
  have hread := Parser.isRead_ofSource source limit
  have hstatements := Level.orders_statements (Level.orders_ofRemaining limit limit) false _ hread trivial
  have hrest := Cursor.forall_mem_salvage Level.isOrdered_unparsed (fun _ => isOrdered_of_isTrivia)
    (((Level.outermost limit).statements false).run (Parser.ofSource source limit).cursor).2
  exact List.forall_mem_append.mpr ⟨hstatements, hrest⟩

end LosslessSyntax
