import LosslessSyntax.Proofs.Parse.Account.Block
import LosslessSyntax.Proofs.Parse.Sort
import LosslessSyntax.Proofs.Parse.Triple
import LosslessSyntax.Proofs.Tree.Layout

/-! The layout of what is read. Rule by rule the nodes that are read are laid out as they should be, whatever is
missing in the source and wherever reading is given up. Only in front of an `else` it matters how the cursor stands:
there comments are attached to the body before, so that body must have somewhere to put them. -/

namespace LosslessSyntax

open Rule Node

namespace Cursor

/-- Behind the trivia there are none. -/
theorem trivia_takeTrivia (c : Cursor) : c.takeTrivia.2.trivia = [] := by
  have happend := c.takeTrivia.2.trivia_append_ahead
  rw [ahead_takeTrivia] at happend
  exact List.append_left_eq_self.mp happend

theorem takeTrailing_report_of_trivia_eq_nil {c : Cursor} (h : c.trivia = []) (m : Message) (args : List Text) :
    (c.report m args).takeTrailing.1 = [] := by
  have hreport : (c.report m args).trivia = [] := by
    unfold report
    split <;> exact h
  rw [takeTrailing, hreport]
  rfl

end Cursor

namespace Rule

variable {A : Type}

/-- What a rule comes to wherever it is run may be used next to what it does to the cursor. -/
theorem Gives.triple {r : Rule A} {Q : A → Prop} (h : r.Always Q) :
    Triple Cursor.IsRead r fun a c => Q a ∧ c.IsRead := fun c hc => ⟨h c hc trivial, r.isRead_run hc⟩

theorem isRead_triple (r : Rule A) : Triple Cursor.IsRead r fun _ => Cursor.IsRead := fun _ hc => r.isRead_run hc

/-- A list with commas has as many of them as items or one fewer. -/
theorem commasFit_separated (item : Rule (Option A)) :
    (separated item).Always fun s => CommasFit s.2.length s.1.length := by
  have happend (as bs : List (A × Option Lexeme)) (has : ∀ pair ∈ as, pair.2.isSome = true)
      (hbs : CommasFit (bs.filterMap (·.2)).length bs.length) :
      CommasFit ((as ++ bs).filterMap (·.2)).length (as ++ bs).length := by
    have hall : (as.filterMap (·.2)).length = as.length := by
      rw [List.length_filterMap_eq_countP, List.countP_eq_length]
      exact has
    rw [List.filterMap_append, List.length_append, List.length_append, hall]
    unfold CommasFit at *
    omega
  have hround : (separatedRound item).Always fun s =>
      cond s.2 (∀ pair ∈ s.1, pair.2.isSome = true) (CommasFit (s.1.filterMap (·.2)).length s.1.length) := by
    refine Gives.any_bind fun a => ?_
    cases a with
    | none => exact Gives.pure ⟨.inl rfl, fun _ => rfl⟩
    | some a =>
        refine Gives.any_bind fun comma => Gives.pure ?_
        cases comma with
        | none => exact ⟨.inr rfl, nofun⟩
        | some comma => exact List.forall_mem_singleton.mpr rfl
  refine (Gives.collect_append happend hround).bind fun pairs hpairs => Gives.pure ?_
  rwa [List.length_map]

end Rule

/-- Whether the choice of the link is laid out as it should be up to the choice behind its `else`. -/
def Link.IsLaidOut (link : Link) : Prop := link.control.AwaitsElse ∧ ∀ n ∈ link.leading, n.isTrivia = true

theorem Link.isArranged_close {link : Link} (hlink : link.IsLaidOut) {inner : Control Node}
    (hinner : (Node.combinator inner).IsArranged) : (Node.combinator (link.close inner)).IsArranged := by
  have hcommand : (Node.command (.combinator inner) none []).IsArranged :=
    everywhere_command.mpr ⟨isLaidOut_of_blocks rfl rfl, hinner, nofun⟩
  exact hlink.1.isArranged
    (Block.isArranged_bare hlink.2 (List.forall_mem_singleton.mpr ⟨⟨rfl, rfl⟩, hcommand⟩) (Nat.le_refl 1))

theorem Link.isArranged_chain {links : List Link} (hlinks : ∀ link ∈ links, link.IsLaidOut) {last : Control Node}
    (hlast : (Node.combinator last).IsArranged) :
    (Node.combinator (links.foldl (fun inner link => link.close inner) last)).IsArranged := by
  induction links generalizing last with
  | nil => exact hlast
  | cons link outer ih =>
      obtain ⟨hlink, houter⟩ := List.forall_mem_cons.mp hlinks
      exact ih houter (Link.isArranged_close hlink hlast)

namespace Level

/-- Whether the node is a statement with nothing attached to it yet, laid out as it should be. -/
structure IsArrangedStatement (n : Node) : Prop where
  arranged : n.IsArranged
  entry : n.isEntry = true
  statement : n.isStatement = true

/-- Whether all that may be asked of the level is laid out as it should be. Where a statement can begin one is read,
unless reading is given up. -/
structure Arranges (l : Level) : Prop where
  sorted : l.Sorted
  statement (nested : Bool) : (l.statement nested).Always IsArrangedStatement
  expression : l.expression.Always IsArranged
  prefixed : l.prefixed.Always IsArranged
  command (nested : Bool) : Triple (fun c => c.kind.startsStatement = true) (l.statement nested)
    fun n c => n.isCommand = true ∨ c.givenUp = true

variable {l : Level}

/-! ### Statement lists, blocks and functions -/

/-- Nothing is attached in the lists that are read, and no blanks stand next to other blanks in them. -/
theorem blanksApart_statementsRound (hl : l.Arranges) (nested : Bool) :
    (l.statementsRound nested).Always fun s =>
      cond s.2 (BlanksApart s.1 ∧ ∀ n ∈ s.1.getLast?, n.isWhitespace = false) (BlanksApart s.1) := by
  have htrivia : takeTrivia.Always BlanksApart := fun _ _ _ => blanksApart_triviaNodes _ _ _ _
  refine htrivia.bind fun trivia htrivia => Gives.kind_bind fun k _ =>
    Gives.ite (fun _ => Gives.pure htrivia) fun _ => ?_
  refine (hl.sorted.isTrivia_statement nested).always_on.bind fun statement hstatement => Gives.pure ?_
  have hspace : statement.isWhitespace = false := by
    cases statement with
    | whitespace => cases hstatement
    | _ => rfl
  refine ⟨List.isChain_append.mpr ⟨htrivia, .singleton _, fun m _ n hn => ?_⟩, ?_⟩
  · cases hn
    exact .inr hspace
  · rw [List.getLast?_concat]
    rintro n ⟨⟩
    exact hspace

theorem blanksApart_collect (hl : l.Arranges) (nested : Bool) :
    (collect (l.statementsRound nested) (l.advances_statementsRound nested)).Always BlanksApart :=
  Gives.collect_append (F := fun ns => BlanksApart ns ∧ ∀ n ∈ ns.getLast?, n.isWhitespace = false)
    (fun _ _ has hbs => has.1.append hbs has.2) (blanksApart_statementsRound hl nested)

theorem arranges_statements (hl : l.Arranges) (nested : Bool) :
    (l.statements nested).Always fun ns =>
      (∀ n ∈ ns, n.IsArranged) ∧ (∀ n ∈ ns, n.isEntry = true) ∧ PlacesComments ns := by
  have hround : (l.statementsRound nested).Always fun s =>
      ∀ n ∈ s.1, n.IsArranged ∧ n.isEntry = true ∧ n.isOpen = true := by
    have htrivia : takeTrivia.Always fun ns => ∀ n ∈ ns, n.IsArranged ∧ n.isEntry = true ∧ n.isOpen = true :=
      isTrivia_takeTrivia.imp fun _ hns n hn =>
        ⟨isArranged_of_isTrivia (hns n hn), isEntry_of_isTrivia (hns n hn), isOpen_of_isTrivia (hns n hn)⟩
    refine htrivia.bind fun trivia htrivia => Gives.kind_bind fun k _ =>
      Gives.ite (fun _ => Gives.pure htrivia) fun _ =>
        (hl.statement nested).always_on.bind fun statement h => Gives.pure ?_
    exact List.forall_mem_append.mpr
      ⟨htrivia, List.forall_mem_singleton.mpr ⟨h.arranged, h.entry, (Bool.and_eq_true_iff.mp h.statement).2⟩⟩
  refine ((Gives.collect hround).and (blanksApart_collect hl nested)).bind fun nodes ⟨hnodes, hapart⟩ => Gives.pure ?_
  refine ⟨everywhere_attachTrailing (fun _ _ _ _ h => h.with_closure _) fun n hn => (hnodes n hn).1,
    isEntry_attachTrailing fun n hn => (hnodes n hn).2.1, ?_⟩
  exact placesComments_attachTrailing (fun n hn => (hnodes n hn).2.2) hapart

/-- What a block in braces comes to. -/
theorem arranges_block (hl : l.Arranges) :
    l.block.Always fun b => b.isBraced = true ∧ b.IsArranged := by
  refine Gives.any_bind fun opening => Gives.ite (fun _ => Gives.pure ?_) fun _ => ?_
  · have hshaped : Block.IsShaped (⟨some opening, [], some .missing, []⟩ : Block Node) :=
      Block.isShaped_braced nofun rfl rfl
    exact ⟨rfl, ⟨hshaped, fun _ => placesComments_nil⟩, rfl, nofun⟩
  · refine (arranges_statements hl true).bind fun statements ⟨harranged, hentries, hcomments⟩ =>
      Gives.any_bind fun closing =>
        Gives.pure ⟨rfl, ⟨Block.isShaped_braced hentries rfl rfl, fun _ => hcomments⟩, rfl, ?_⟩
    rw [Block.children, List.append_nil]
    exact harranged

theorem arranges_function (hl : l.Arranges) :
    l.function.Always fun f => (CommasFit f.commas.length f.parameters.length ∧ f.block.closure = []) ∧
      (∀ b ∈ [f.block], b.IsLaidOut) ∧ ∀ n ∈ f.block.children, n.IsArranged := by
  refine Gives.any_bind fun opening => (commasFit_separated _).bind fun (parameters, commas) hcommas =>
    Gives.any_bind fun closing => (arranges_block hl).bind fun block ⟨_, hblock⟩ => Gives.pure ?_
  exact ⟨⟨hcommas, hblock.closure⟩, List.forall_mem_singleton.mpr hblock.laidOut, hblock.children⟩

/-! ### Expressions -/

theorem arranges_expressions (hl : l.Arranges) (closing : Symbol) :
    (l.expressions closing).Always fun s => (∀ n ∈ s.1, n.IsArranged) ∧ CommasFit s.2.length s.1.length := by
  refine (Gives.separated (Gives.kind_bind fun k _ => Gives.ite (fun _ => Gives.pure nofun) fun _ => ?_)).and
    (commasFit_separated _)
  refine Gives.map (hl.expression.always_on.imp fun n hn m hm => ?_)
  cases hm
  exact hn

theorem arranges_field (hl : l.Arranges) : l.field.Always fun f => ∀ g ∈ f, g.value.IsArranged := by
  refine Gives.kind_bind fun k _ => Gives.ite (fun _ => Gives.pure nofun) fun _ =>
    Gives.any_bind fun key => ?_
  cases key with
  | none => exact Gives.pure nofun
  | some key =>
      refine Gives.any_bind fun colon => hl.expression.bind fun value hvalue => Gives.pure fun g hg => ?_
      cases hg
      exact hvalue

theorem isArranged_unparsed (lexemes : List Lexeme) : (Node.unparsed lexemes).IsArranged :=
  isArranged_leaf rfl trivial rfl

theorem arranges_missingExpression : missingExpression.Always IsArranged := by
  refine Gives.any_bind fun _ => Gives.kind_bind fun k _ =>
    Gives.ite (fun _ => Gives.pure (isArranged_unparsed [])) fun _ =>
      Gives.any_bind fun lexeme => Gives.pure (isArranged_unparsed [lexeme])

theorem arranges_primary (hl : l.Arranges) : l.primary.Always IsArranged := by
  have hleaf {f : Lexeme → Node} {p : Kind → Prop}
      (h : ∀ lexeme, (f lexeme).IsArranged) : (f <$> bump).Gives p IsArranged :=
    Gives.map ((Gives.any bump).imp fun lexeme _ => h lexeme)
  refine Gives.kind_bind fun k _ => ?_
  split
  case h_1 | h_2 => exact hleaf fun _ => isArranged_leaf rfl trivial rfl
  case h_3 | h_4 | h_5 | h_6 | h_7 => exact hleaf fun _ => isArranged_leaf rfl trivial rfl
  case h_8 =>
    refine Gives.any_bind fun opening => hl.expression.bind fun inner hinner =>
      Gives.any_bind fun closing => Gives.pure (isArranged_of_children trivial rfl ?_)
    exact List.forall_mem_singleton.mpr hinner
  case h_9 =>
    refine Gives.any_bind fun opening => ((Gives.separated (arranges_field hl)).and (commasFit_separated _)).bind
      fun (fields, commas) ⟨hfields, hcommas⟩ => Gives.any_bind fun closing =>
        Gives.pure (isArranged_of_children hcommas rfl ?_)
    exact List.forall_mem_map.mpr hfields
  case h_10 =>
    refine Gives.any_bind fun opening => (arranges_expressions hl _).bind fun (elements, commas)
      ⟨helements, hcommas⟩ => Gives.any_bind fun closing => Gives.pure ?_
    exact isArranged_of_children hcommas rfl helements
  case h_11 =>
    refine Gives.any_bind fun keyword => Gives.any_bind fun name =>
      (arranges_function hl).bind fun body ⟨hparts, hblocks, hchildren⟩ => Gives.pure ?_
    exact everywhere_iff.mpr ⟨⟨hparts, hblocks⟩, hchildren⟩
  case h_12 => exact arranges_missingExpression.always_on

theorem arranges_suffixRound (hl : l.Arranges) {base : Node} (hbase : base.IsArranged) :
    (l.suffixRound base).Always fun s => s.1.IsArranged := by
  refine Gives.kind_bind fun k _ => ?_
  split
  · refine Gives.any_bind fun dot => Gives.any_bind fun field => Gives.pure (isArranged_of_children trivial rfl ?_)
    exact List.forall_mem_singleton.mpr hbase
  · refine Gives.any_bind fun opening => hl.expression.bind fun subscript hsubscript =>
      Gives.any_bind fun closing => Gives.pure (isArranged_of_children trivial rfl ?_)
    exact List.forall_mem_cons.mpr ⟨hbase, List.forall_mem_singleton.mpr hsubscript⟩
  · refine Gives.any_bind fun opening => (arranges_expressions hl _).bind fun (arguments, commas)
      ⟨harguments, hcommas⟩ => Gives.any_bind fun closing => Gives.pure (isArranged_of_children hcommas rfl ?_)
    exact List.forall_mem_cons.mpr ⟨hbase, harguments⟩
  · exact Gives.pure hbase

theorem arranges_postfixed (hl : l.Arranges) : l.postfixed.Always IsArranged := by
  have hsuffixed : l.suffixed.Always IsArranged :=
    (arranges_primary hl).bind fun _ hbase => Gives.grow (fun _ h => arranges_suffixRound hl h) hbase
  refine hsuffixed.bind fun operand hoperand => Gives.kind_bind fun k _ => Gives.look_bind fun separate =>
    Gives.ite (fun _ => Gives.any_bind fun symbol => Gives.pure ?_) fun _ => Gives.pure hoperand
  exact isArranged_of_children trivial rfl (List.forall_mem_singleton.mpr hoperand)

theorem arranges_unary (hl : l.Arranges) : l.unary.Always IsArranged :=
  Gives.kind_bind fun _ _ => Gives.ite (fun _ => hl.prefixed.always_on) fun _ => (arranges_postfixed hl).always_on

theorem arranges_binary (hl : l.Arranges) (minimum : Nat) : (l.binary minimum).Always IsArranged := by
  induction minimum using Tier.induction with
  | h minimum ih =>
      rw [binary_eq]
      refine (arranges_unary hl).bind fun first hfirst =>
        Gives.grow (fun left hleft => Gives.kind_bind fun k _ => ?_) hfirst
      split
      · next tier _ =>
          split
          · next hlt =>
              refine Gives.any_bind fun symbol => (ih tier hlt).bind fun right hright =>
                Gives.pure (isArranged_of_children trivial rfl ?_)
              exact List.forall_mem_cons.mpr ⟨hleft, List.forall_mem_singleton.mpr hright⟩
          · exact Gives.pure hleft
      · exact Gives.pure hleft

theorem arranges_assignment (hl : l.Arranges) : l.assignment.Always IsArranged := by
  refine (arranges_binary hl _).bind fun target htarget => Gives.kind_bind fun k _ =>
    Gives.ite (fun _ => ?_) fun _ => Gives.pure htarget
  refine Gives.any_bind fun operator => hl.expression.bind fun value hvalue =>
    Gives.pure (isArranged_of_children trivial rfl ?_)
  exact List.forall_mem_cons.mpr ⟨htarget, List.forall_mem_singleton.mpr hvalue⟩

theorem arranges_operation (hl : l.Arranges) : l.operation.Always IsArranged :=
  Gives.any_bind fun _ => (arranges_unary hl).bind fun _ hoperand =>
    Gives.pure (isArranged_of_children trivial rfl (List.forall_mem_singleton.mpr hoperand))

/-! ### Declarations -/

theorem arranges_declarator (hl : l.Arranges) (form : DeclarationForm) (lead : Lexeme) :
    (l.declarator form lead).Always fun d => ∀ n ∈ d.children, n.IsArranged := by
  refine Gives.any_bind fun name => Gives.any_bind fun equals => ?_
  cases equals with
  | none => exact Gives.pure nofun
  | some equals => exact hl.expression.bind fun value hvalue => Gives.pure (List.forall_mem_singleton.mpr hvalue)

theorem arranges_declaration (hl : l.Arranges) (form : DeclarationForm) :
    (l.declaration form).Always IsArranged := by
  have hdeclarator (lead : Lexeme) := (arranges_declarator hl form lead).and (additional_declarator l form lead)
  have hround : (l.declaratorRound form).Always fun s =>
      ∀ d ∈ s.1, (∀ n ∈ d.children, n.IsArranged) ∧ d.additional = [] := by
    refine Gives.any_bind fun lead => ?_
    cases lead with
    | none => exact Gives.pure nofun
    | some lead => exact (hdeclarator lead).bind fun d hd => Gives.pure (List.forall_mem_singleton.mpr hd)
  refine Gives.any_bind fun keyword => (hdeclarator keyword).bind fun first hfirst =>
    (Gives.collect hround).bind fun additional hadditional => Gives.pure ?_
  have hchain : (first.withAdditional additional).additional = additional := by
    cases first
    rfl
  refine isArranged_of_children ?_ rfl
    (Declarator.forall_children_withAdditional hfirst.1 fun d hd => (hadditional d hd).1)
  rw [HasParts, hchain]
  exact fun d hd => (hadditional d hd).2

theorem arranges_functionDeclaration (hl : l.Arranges) : l.functionDeclaration.Always IsArranged := by
  refine Gives.any_bind fun keyword => Gives.any_bind fun name =>
    (arranges_function hl).bind fun body ⟨hparts, hblocks, hchildren⟩ => Gives.pure ?_
  exact everywhere_iff.mpr ⟨⟨hparts, hblocks⟩, hchildren⟩

/-! ### Control flow -/

theorem isArranged_empty : Node.empty.IsArranged := isArranged_leaf rfl trivial rfl

theorem arranges_clause (hl : l.Arranges) (first : Bool) : (l.clause first).Always IsArranged := by
  refine Gives.kind_bind fun k _ => Gives.ite (fun _ => Gives.pure isArranged_empty) fun _ => ?_
  split
  · exact (arranges_declaration hl _).always_on
  · exact hl.expression.always_on

/-- A header has the clauses of its form. -/
theorem arranges_header (hl : l.Arranges) (form : ControlForm) :
    (l.header form).Always fun s => (∀ n ∈ s.1, n.IsArranged) ∧ s.1.length = form.clauses ∧
      s.2.length = if form = .forForm then 2 else 0 := by
  cases form with
  | forForm =>
      refine (arranges_clause hl true).bind fun initial hinitial => Gives.any_bind fun first =>
        (arranges_clause hl false).bind fun condition hcondition => Gives.any_bind fun second =>
        (arranges_clause hl false).bind fun step hstep => Gives.pure ⟨?_, rfl, rfl⟩
      simpa using ⟨hinitial, hcondition, hstep⟩
  | _ =>
      exact hl.expression.bind fun condition hcondition =>
        Gives.pure ⟨List.forall_mem_singleton.mpr hcondition, rfl, rfl⟩

/-- Whether comments in front of an `else` have somewhere to go when they are attached to the body before. -/
def AwaitsComments (b : Block Node) (c : Cursor) : Prop :=
  c.kind = .keyword .elseWord → b.HasRoomFor c.takeTrailing.1

/-- Once reading was given up no `else` is seen. -/
theorem AwaitsComments.of_givenUp {b : Block Node} {c : Cursor} (h : c.givenUp = true) : AwaitsComments b c := by
  intro hkind
  rw [Cursor.kind, if_pos h] at hkind
  cases hkind

theorem arranges_body (hl : l.Arranges) :
    Triple Cursor.IsRead l.body fun b c => (b.IsArranged ∧ AwaitsComments b c) ∧ c.IsRead := by
  refine Triple.kind_bind fun k => Triple.ite (fun _ => ?_) fun _ => ?_
  · exact (arranges_block hl).triple.imp (fun c hc => hc.1) fun b c ⟨⟨hbraced, hb⟩, hc⟩ =>
      ⟨⟨hb, fun _ => .inl hbraced⟩, hc⟩
  have htrivia : Triple (fun c => c.IsRead ∧ c.kind = k) takeTrivia fun ns c =>
      (∀ n ∈ ns, n.isTrivia = true) ∧ c.IsRead ∧ c.kind = k ∧ c.trivia = [] := fun c hc =>
    ⟨isTrivia_takeTrivia c hc.1 trivial, takeTrivia.isRead_run hc.1, c.kind_takeTrivia.trans hc.2, c.trivia_takeTrivia⟩
  refine htrivia.bind fun trivia => Triple.of_and fun htrivia => Triple.ite (fun hk => ?_) fun _ => ?_
  -- a body that could not be read is no statement, but then reading was given up
  · have hstatement : Triple (fun c => c.IsRead ∧ c.kind = k ∧ c.trivia = []) (l.statement true) fun n c =>
        IsArrangedStatement n ∧ (n.isCommand = true ∨ c.givenUp = true) ∧ c.IsRead := by
      intro c ⟨hread, hkind, _⟩
      have hstarts : c.kind.startsStatement = true := by rwa [hkind]
      exact ⟨hl.statement true c hread trivial, hl.command true c hstarts, (l.statement true).isRead_run hread⟩
    refine hstatement.bind fun statement => Triple.of_and fun hstatement =>
      Triple.pure fun c ⟨hcommand, hc⟩ => ⟨⟨?_, ?_⟩, hc⟩
    · have hother : statement.isTrivia = false := by
        simpa using (Bool.and_eq_true_iff.mp hstatement.statement).1
      exact Block.isArranged_bare htrivia
        (List.forall_mem_singleton.mpr ⟨⟨hstatement.entry, hother⟩, hstatement.arranged⟩) (Nat.le_refl 1)
    · rcases hcommand with hcommand | hgiven
      · exact fun _ => .inr (.inl ⟨statement, List.getLast?_concat, hcommand⟩)
      · exact .of_givenUp hgiven
  · have hreport : Triple (fun c => c.IsRead ∧ c.kind = k ∧ c.trivia = []) (report .statementExpected []) fun _ c =>
        c.takeTrailing.1 = [] ∧ c.IsRead := fun c hc =>
      ⟨c.takeTrailing_report_of_trivia_eq_nil hc.2.2 _ _, (report .statementExpected []).isRead_run hc.1⟩
    refine hreport.bind fun _ => Triple.pure fun c ⟨hnone, hc⟩ => ⟨⟨?_, fun _ => .inr (.inr hnone)⟩, hc⟩
    rw [← List.append_nil trivia]
    exact Block.isArranged_bare htrivia nofun (Nat.zero_le 1)

theorem arranges_head (hl : l.Arranges) (form : ControlForm) :
    Triple Cursor.IsRead (l.head form) fun control c =>
      (control.IsFresh ∧ control.form = form ∧ AwaitsComments control.body c) ∧ c.IsRead := by
  refine (isRead_triple _).bind fun keyword => (isRead_triple _).bind fun opening =>
    (arranges_header hl form).triple.bind fun (header, separators) =>
    Triple.of_and fun ⟨hclauses, hheader, hseparators⟩ => (isRead_triple _).bind fun closing =>
    (arranges_body hl).bind fun body => Triple.pure fun c ⟨⟨hbody, hawaits⟩, hc⟩ => ?_
  exact ⟨⟨⟨hheader, hseparators, rfl, hclauses, hbody⟩, rfl, hawaits⟩, hc⟩

/-- What was read of a chain of choices while it may go on: the links so far, and the last choice without its `else`. -/
def ChainGoesOn (s : List Link × Control Node) (c : Cursor) : Prop :=
  ((∀ link ∈ s.1, link.IsLaidOut) ∧ s.2.IsFresh ∧ AwaitsComments s.2.body c) ∧ c.IsRead

theorem arranges_linkRound (hl : l.Arranges) (s : List Link × Control Node) :
    Triple (ChainGoesOn s) (l.linkRound s) fun t c => cond t.2 (ChainGoesOn t.1 c)
      ((∀ link ∈ t.1.1, link.IsLaidOut) ∧ (Node.combinator t.1.2).IsArranged) := by
  refine Triple.kind_bind fun k => Triple.ite (fun hk => ?_) fun _ =>
    Triple.pure fun c ⟨⟨⟨hlinks, hlast, _⟩, _⟩, _⟩ => ⟨hlinks, hlast.isArranged⟩
  simp only [Bool.and_eq_true, decide_eq_true_eq] at hk
  have htrailing : Triple (fun c => ChainGoesOn s c ∧ c.kind = k) takeTrailing fun comments c =>
      ((∀ link ∈ s.1, link.IsLaidOut) ∧ Control.AwaitsElse { s.2 with body := s.2.body.attach comments }) ∧
        c.IsRead := by
    intro c ⟨⟨⟨hlinks, hlast, hawaits⟩, hread⟩, hkind⟩
    have htrivia : ∀ n ∈ c.takeTrailing.1, n.IsArranged := fun n hn =>
      isArranged_of_isTrivia (Token.isTrivia_triviaNodes n hn)
    exact ⟨⟨hlinks, hlast.attach hk.1 htrivia (hawaits (hkind.trans hk.2))⟩, takeTrailing.isRead_run hread⟩
  refine htrailing.bind fun comments => Triple.of_and fun ⟨hlinks, helse⟩ => (isRead_triple _).bind fun keyword =>
    Triple.kind_bind fun k => Triple.ite (fun _ => ?_) fun _ => ?_
  · refine (isTrivia_takeTrivia.triple.of_imp fun c hc => hc.1).bind fun leading => Triple.of_and fun hleading =>
      (arranges_head hl .ifForm).bind fun next => Triple.pure fun c ⟨⟨hnext, _, hawaits⟩, hread⟩ => ?_
    exact ⟨⟨List.forall_mem_cons.mpr ⟨⟨helse, hleading⟩, hlinks⟩, hnext, hawaits⟩, hread⟩
  · refine ((arranges_body hl).of_imp fun c hc => hc.1).bind fun body => Triple.pure fun c ⟨⟨hbody, _⟩, _⟩ => ?_
    exact ⟨hlinks, helse.isArranged hbody⟩

theorem arranges_control (hl : l.Arranges) (form : ControlForm) :
    (l.control form).Always fun control => (Node.combinator control).IsArranged := by
  have htriple : Triple Cursor.IsRead (l.control form) fun control _ => (Node.combinator control).IsArranged := by
    refine (arranges_head hl form).bind fun first => ?_
    have hgrow : Triple (ChainGoesOn ([], first)) (grow l.linkRound l.advances_linkRound ([], first)) fun t _ =>
        (∀ link ∈ t.1, link.IsLaidOut) ∧ (Node.combinator t.2).IsArranged :=
      Triple.grow (arranges_linkRound hl) ([], first)
    refine (hgrow.of_imp fun c ⟨⟨hfirst, _, hawaits⟩, hread⟩ => ⟨⟨nofun, hfirst, hawaits⟩, hread⟩).bind
      fun (links, last) => Triple.pure fun c ⟨hlinks, hlast⟩ => Link.isArranged_chain hlinks hlast
  exact fun c hc _ => htriple c hc

/-! ### Statements -/

theorem isArranged_command {inner : Node} (h : inner.IsArranged) {semicolon : Option Lexeme}
    (hend : inner.AllowsEnd semicolon) : IsArrangedStatement (.command inner semicolon []) where
  arranged := everywhere_command.mpr ⟨isLaidOut_of_blocks hend rfl, h, nofun⟩
  entry := rfl
  statement := rfl

theorem allowsEnd_of_isExpression {n : Node} (h : n.isExpression = true) (semicolon : Option Lexeme) :
    n.AllowsEnd semicolon := by
  cases n <;> trivial

theorem arranges_ended {inner : Rule Node}
    (h : inner.Always fun n => n.IsArranged ∧ ∀ semicolon, n.AllowsEnd semicolon) :
    (ended inner).Always IsArrangedStatement :=
  h.bind fun _ ⟨hinner, hend⟩ => Gives.any_bind fun semicolon =>
    Gives.pure (isArranged_command hinner (hend semicolon))

theorem arranges_whole {inner : Rule Node} (h : inner.Always fun n => n.IsArranged ∧ n.AllowsEnd none) :
    (whole inner).Always IsArrangedStatement :=
  h.bind fun _ ⟨hinner, hend⟩ => Gives.pure (isArranged_command hinner hend)

theorem arranges_returning (hl : l.Arranges) :
    l.returning.Always fun n => n.IsArranged ∧ ∀ semicolon, n.AllowsEnd semicolon := by
  refine Gives.any_bind fun keyword => Gives.kind_bind fun k _ => Gives.look_bind fun separate =>
    Gives.ite (fun _ => ?_) fun _ => Gives.pure ⟨isArranged_leaf rfl trivial rfl, fun _ => trivial⟩
  refine hl.expression.always_on.bind fun value hvalue => Gives.pure ⟨?_, fun _ => trivial⟩
  exact isArranged_of_children trivial rfl (List.forall_mem_singleton.mpr hvalue)

theorem arranges_statementHere (hl : l.Arranges) (nested : Bool) :
    (l.statementHere nested).Always IsArrangedStatement := by
  have hexpression : (ended l.expression).Always IsArrangedStatement :=
    arranges_ended ((hl.expression.and hl.sorted.isExpression_expression).imp
      fun n ⟨hn, hexpression⟩ => ⟨hn, allowsEnd_of_isExpression hexpression⟩)
  have hdeclaration (form : DeclarationForm) : (ended (l.declaration form)).Always IsArrangedStatement := by
    have hend : (l.declaration form).Always fun n => ∀ semicolon, n.AllowsEnd semicolon :=
      Gives.any_bind fun _ => Gives.any_bind fun _ => Gives.any_bind fun _ => Gives.pure fun _ => trivial
    exact arranges_ended ((arranges_declaration hl form).and hend)
  have hfunction : (whole l.functionDeclaration).Always IsArrangedStatement := by
    have hend : l.functionDeclaration.Always fun n => n.AllowsEnd none :=
      Gives.any_bind fun _ => Gives.any_bind fun _ => Gives.any_bind fun _ => Gives.pure rfl
    exact arranges_whole ((arranges_functionDeclaration hl).and hend)
  have hcontrol (form : ControlForm) : (whole (.combinator <$> l.control form)).Always IsArrangedStatement :=
    arranges_whole (Gives.map ((arranges_control hl form).imp fun _ h => ⟨h, rfl⟩))
  refine Gives.kind_bind fun k _ => Gives.look_bind fun next => Gives.always_on ?_
  split
  case h_1 | h_2 | h_3 => exact hdeclaration _
  case h_4 => exact Gives.ite (fun _ => hfunction) fun _ => hexpression
  case h_5 | h_6 | h_7 => exact hcontrol _
  case h_8 => exact arranges_ended (arranges_returning hl)
  case h_9 =>
    exact Gives.any_bind fun _ => Gives.any_bind fun semicolon =>
      Gives.pure (isArranged_command isArranged_empty rfl)
  case h_10 =>
    refine Gives.ite (fun _ => hexpression) fun _ => Gives.kind_bind fun k _ => Gives.any_bind fun _ =>
      Gives.any_bind fun first => Gives.any_bind fun others => Gives.pure ⟨isArranged_unparsed _, rfl, rfl⟩

/-- Where a statement can begin, a statement is read as one. -/
theorem command_statementHere (l : Level) (nested : Bool) :
    Triple (fun c => c.kind.startsStatement = true) (l.statementHere nested) fun n c =>
      n.isCommand = true ∨ c.givenUp = true := by
  refine Triple.kind_bind fun k => Triple.look_bind fun next => ?_
  split
  case h_4 => exact Triple.ite (fun _ _ _ => .inl rfl) fun _ _ _ => .inl rfl
  case h_10 =>
    refine Triple.ite (fun _ _ _ => .inl rfl) fun hk c ⟨⟨hstarts, hkind⟩, _⟩ => ?_
    rw [hkind, Kind.startsStatement.eq_def] at hstarts
    split at hstarts
    case h_9 => exact absurd hstarts hk
    all_goals contradiction
  all_goals exact fun _ _ => .inl rfl

/-! ### All levels -/

theorem arranges_ofRemaining (limit remaining : Nat) : (ofRemaining limit remaining).Arranges := by
  induction remaining with
  | zero =>
      have hrefuse : (refuse limit).Always IsArrangedStatement :=
        Gives.any_bind fun _ => Gives.any_bind fun _ => Gives.pure ⟨isArranged_unparsed [], rfl, rfl⟩
      exact {
        sorted := sorted_ofRemaining limit 0
        statement := fun _ => hrefuse
        expression := hrefuse.imp fun _ h => h.arranged
        prefixed := hrefuse.imp fun _ h => h.arranged
        command := fun _ _ _ => .inr rfl }
  | succ remaining ih =>
      exact {
        sorted := sorted_ofRemaining limit (remaining + 1)
        statement := arranges_statementHere ih
        expression := arranges_assignment ih
        prefixed := arranges_operation ih
        command := command_statementHere _ }

end Level

end LosslessSyntax
