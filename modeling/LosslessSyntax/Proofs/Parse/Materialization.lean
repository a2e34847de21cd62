import LosslessSyntax.Proofs.Parse.Account.Program
import LosslessSyntax.Proofs.Parse.ElseIf
import LosslessSyntax.Proofs.Parse.Indifference
import LosslessSyntax.Proofs.Parse.Layout
import LosslessSyntax.Proofs.Parse.Yield
import LosslessSyntax.Proofs.Tree.Materialized

/-! Trivia that are shown by what is read. Wherever a statement can begin, the trivia in front of it are taken as nodes
before it is read, so no lexeme of it is there to hide them in. Which tokens a statement takes does not depend on what
was noted before; so a statement read behind its trivia spells tokens that begin with a significant one. Rule by rule
all nodes that are read show their trivia, whatever is missing in the source and wherever reading is given up. -/

namespace LosslessSyntax

open Rule Node

namespace Cursor

/-- Whether all that is left to read, trivia included, is among the tokens, and stands where the offsets tell. -/
structure Holds (tokens : List Token) (c : Cursor) : Prop where
  addressed : c.IsAddressed
  upcoming : ∀ t ∈ c.upcoming, t ∈ tokens

variable {tokens : List Token} {c : Cursor}

theorem Holds.trivia (h : c.Holds tokens) : ∀ t ∈ c.trivia, t ∈ tokens :=
  fun t ht => h.upcoming t ((List.takeWhile_prefix _).subset ht)

/-- Reading leaves nothing that was not there. -/
theorem Holds.run {A : Type} (h : c.Holds tokens) (r : Rule A) : (r.run c).2.Holds tokens :=
  ⟨h.addressed.run r, fun t ht => h.upcoming t ((r.upcoming_suffix c).subset ht)⟩

theorem kept_holds (tokens : List Token) : Kept (Holds tokens) where
  bump _ h := h.run Rule.bump
  takeTrivia _ h := h.run Rule.takeTrivia
  takeTrailing _ h := h.run Rule.takeTrailing
  report _ m args _ h := h.run (Rule.report m args)

/-- Trivia that are taken as nodes are shown as what they are. -/
theorem Holds.areShownTrivia_takeTrivia (h : c.Holds tokens) (hread : ∀ t ∈ tokens, t.IsRead) :
    AreShownTrivia tokens c.takeTrivia.1 := by
  have haddressed := h.addressed
  rw [IsAddressed, ← c.trivia_append_ahead] at haddressed
  exact Token.areShownTrivia_triviaNodes haddressed hread h.trivia fun t => isTrivia_of_mem_trivia

theorem Holds.areShownTrivia_takeTrailing (h : c.Holds tokens) (hread : ∀ t ∈ tokens, t.IsRead) :
    AreShownTrivia tokens c.takeTrailing.1 := by
  have haddressed := h.addressed
  rw [IsAddressed, ← c.trivia_append_ahead, ← Token.splitTrailing_append c.trivia, List.append_assoc] at haddressed
  have hmem : ∀ t ∈ (Token.splitTrailing c.trivia).1, t ∈ c.trivia := fun t ht =>
    Token.splitTrailing_append c.trivia ▸ List.mem_append_left _ ht
  exact Token.areShownTrivia_triviaNodes haddressed hread (fun t ht => h.trivia t (hmem t ht)) fun t ht =>
    isTrivia_of_mem_trivia (hmem t ht)

/-- Behind trivia the next lexeme has none in front. -/
theorem leading_bump (h : c.trivia = []) : c.bump.1.leading = [] := by
  cases hahead : c.ahead with
  | nil =>
      rw [Cursor.bump, hahead]
      rfl
  | cons t rest =>
      have hupcoming : c.ahead = c.upcoming := by rw [← c.trivia_append_ahead, h, List.nil_append]
      rw [Cursor.bump_eq hahead, leading, hupcoming]
      exact Text.cut_self _ _

end Cursor

/-- Tokens that are taken as they stand, behind the trivia in front of them, begin with a lexeme without any. -/
theorem Rule.leading_lexemesUntil (stops : Kind → Bool) :
    Triple (fun c => c.trivia = []) (lexemesUntil stops) fun lexemes _ => ∀ l ∈ lexemes.head?, l.leading = [] := by
  have hlater (lexemes : List Lexeme) (c : Cursor) (hc : (lexemes = [] → c.trivia = []) ∧
      ∀ l ∈ lexemes.head?, l.leading = []) : ∀ l ∈ (lexemes ++ [c.bump.1]).head?, l.leading = [] := by
    cases lexemes with
    | nil => exact fun l hl => by cases hl; exact Cursor.leading_bump (hc.1 rfl)
    | cons => exact hc.2
  -- as long as nothing was taken, the trivia in front are still gone
  refine (Triple.collect
    (J := fun (lexemes : List Lexeme) c => (lexemes = [] → c.trivia = []) ∧ ∀ l ∈ lexemes.head?, l.leading = [])
    (Q := fun (lexemes : List Lexeme) _ => ∀ l ∈ lexemes.head?, l.leading = [])
    fun lexemes => ?_).of_imp fun c hc => ⟨fun _ => hc, nofun⟩
  refine Triple.kind_bind fun k => Triple.ite (fun _ => Triple.pure fun c hc => ?_) fun _ c hc => ?_
  · rw [List.append_nil]
    exact hc.1.2
  · exact ⟨fun hnone => by simp at hnone, hlater lexemes c hc.1⟩

/-- Whether the rule, wherever only tokens of these are left, reads a node that shows all trivia. -/
abbrev Rule.Shows (tokens : List Token) (r : Rule Node) : Prop := r.Yields (Cursor.Holds tokens) (ShowsAllTrivia tokens)

/-- Whether the cursor stands at a token that reading sees, with no trivia in front of it. -/
structure Cursor.IsAtToken (c : Cursor) : Prop where
  trivia : c.trivia = []
  seen : c.kind ≠ .endOfInput

theorem Cursor.IsAtToken.givenUp {c : Cursor} (h : c.IsAtToken) : c.givenUp = false := by
  by_contra hgiven
  refine h.seen ?_
  rw [kind, if_pos (eq_true_of_ne_false hgiven)]

theorem Cursor.IsAtToken.isTrivia_head {c : Cursor} (h : c.IsAtToken) : ∀ t ∈ c.upcoming.head?, t.isTrivia = false := by
  intro t ht
  have hupcoming : c.ahead = c.upcoming := by
    have happend := c.trivia_append_ahead
    rwa [h.trivia] at happend
  obtain ⟨rest, hrest⟩ := List.head?_eq_some_iff.mp ht
  exact c.isTrivia_eq_false_of_ahead (hupcoming.trans hrest)

namespace Level

variable {tokens : List Token} {l : Level}

/-- A statement that is read at a token begins with that token, so with a lexeme without trivia in front. -/
theorem begins_ofRemaining (hread : ∀ t ∈ tokens, t.IsRead) (limit remaining : Nat) (nested : Bool) :
    Triple (fun c => c.Holds tokens ∧ c.IsAtToken) ((ofRemaining limit remaining).statement nested)
      fun n _ => n.isStatement = true ∧ n.BeginsBare := by
  intro c ⟨hholds, hat⟩
  -- what a statement spells is accounted for from a cursor at which nothing was noted yet
  let fresh : Cursor := { source := c.source, upcoming := c.upcoming, last := c.last }
  have hfresh : fresh.noting c.diagnostics = c := by
    obtain ⟨source, upcoming, last, givenUp, diagnostics⟩ := c
    cases hat.givenUp
    rfl
  have hresult : (((ofRemaining limit remaining).statement nested).run c).1 =
      (((ofRemaining limit remaining).statement nested).run fresh).1 := by
    have hsame := (indifferent_ofRemaining limit remaining (.statement nested) fresh c.diagnostics).1
    rwa [hfresh] at hsame
  have htext : ∀ t ∈ c.upcoming, t.text ≠ [] := fun t ht => (hread t (hholds.upcoming t ht)).text_ne_nil
  obtain ⟨hstatement, haccount⟩ :=
    (accounts_ofRemaining limit remaining).statement nested [] false fresh (Account.start htext)
  obtain ⟨taken, hupcoming, hspells, -⟩ := haccount.spelled
  rw [hresult]
  have haddressed :
      Token.Addressed (((ofRemaining limit remaining).statement nested).run fresh).2.source c.upcoming := by
    rw [Rule.source_run]
    exact hholds.addressed
  have hnode : Event.Spells (((ofRemaining limit remaining).statement nested).run fresh).1.events taken := by
    simpa [Part.events] using hspells haddressed
  refine ⟨hstatement, beginsBare_of_spells hnode fun t ht => hat.isTrivia_head t ?_⟩
  rw [hupcoming, List.head?_append, ht]
  rfl

/-- Whether all that is asked of the level shows its trivia, and statements that are read at a token begin with it. -/
structure Shows (tokens : List Token) (l : Level) : Prop where
  read : ∀ t ∈ tokens, t.IsRead
  statement (nested : Bool) : (l.statement nested).Shows tokens
  begins (nested : Bool) : Triple (fun c => c.Holds tokens ∧ c.IsAtToken) (l.statement nested)
    fun n _ => n.isStatement = true ∧ n.BeginsBare
  expression : l.expression.Shows tokens
  prefixed : l.prefixed.Shows tokens

/-! ### Trivia and statements -/

/-- Trivia are taken as they are, and what comes next does not change. -/
theorem shows_takeTrivia (hread : ∀ t ∈ tokens, t.IsRead) (p : Kind → Prop) :
    Triple (fun c => c.Holds tokens ∧ p c.kind) takeTrivia fun trivia c =>
      AreShownTrivia tokens trivia ∧ (c.Holds tokens ∧ c.trivia = []) ∧ p c.kind := by
  intro c ⟨hholds, hkind⟩
  exact ⟨hholds.areShownTrivia_takeTrivia hread, ⟨hholds.run takeTrivia, c.trivia_takeTrivia⟩,
    c.kind_takeTrivia.symm ▸ hkind⟩

/-- Behind its trivia a statement is read, with which a list may go on. -/
theorem shows_statement (hl : l.Shows tokens) (nested : Bool) {k : Kind} (hk : k ≠ .endOfInput) {trivia : List Node}
    (htrivia : AreShownTrivia tokens trivia) :
    Triple (fun c => (c.Holds tokens ∧ c.trivia = []) ∧ c.kind = k) (l.statement nested) fun n c =>
      (n.isTrivia = false ∧ AreShown tokens (trivia ++ [n])) ∧ c.Holds tokens := by
  intro c ⟨⟨hholds, hnone⟩, hkind⟩
  obtain ⟨hstatement, hbare⟩ := hl.begins nested c ⟨hholds, hnone, hkind ▸ hk⟩
  obtain ⟨hshown, hafter⟩ := hl.statement nested c hholds
  obtain ⟨hother, hopen⟩ := Bool.and_eq_true_iff.mp hstatement
  have hother : ((l.statement nested).run c).1.isTrivia = false := by simpa using hother
  exact ⟨⟨hother, htrivia.areShown.concat hother hopen hbare hshown⟩, hafter⟩

/-! ### Statement lists, blocks and functions -/

/-- The statement of a list behind its trivia, or the trivia behind the last one. -/
theorem shows_statementsRound (hl : l.Shows tokens) (nested : Bool) :
    (l.statementsRound nested).Yields (Cursor.Holds tokens) fun s =>
      cond s.2 (AreShown tokens s.1 ∧ ∀ n ∈ s.1.getLast?, n.isWhitespace = false) (AreShown tokens s.1) := by
  have htrivia := (shows_takeTrivia hl.read fun _ => True).of_imp fun c hc => ⟨hc, trivial⟩
  refine Triple.bind htrivia fun trivia => Triple.of_and fun htrivia => Triple.kind_bind fun k =>
    Triple.ite (fun _ => Triple.pure fun c hc => ⟨htrivia.areShown, hc.1.1.1⟩) fun hk => ?_
  have hseen : k ≠ .endOfInput := by rintro rfl; exact hk rfl
  refine ((shows_statement hl nested hseen htrivia).of_imp fun c hc => ⟨hc.1.1, hc.2⟩).bind fun statement =>
    Triple.pure fun c ⟨⟨hother, hshown⟩, hholds⟩ => ⟨⟨hshown, ?_⟩, hholds⟩
  rw [List.getLast?_concat]
  rintro n ⟨⟩
  exact isWhitespace_of_isTrivia_eq_false hother

theorem shows_statements (hl : l.Shows tokens) (nested : Bool) :
    (l.statements nested).Yields (Cursor.Holds tokens) fun ns =>
      ShowTrivia ns ∧ ∀ n ∈ ns, n.ShowsAllTrivia tokens := by
  have hnodes : (collect (l.statementsRound nested) (l.advances_statementsRound nested)).Yields (Cursor.Holds tokens)
      (AreShown tokens) :=
    Yields.collect_append (F := fun ns => AreShown tokens ns ∧ ∀ n ∈ ns.getLast?, n.isWhitespace = false)
      (fun _ _ has hbs => has.1.append hbs has.2) (shows_statementsRound hl nested)
  exact hnodes.bind fun nodes h => Yields.pure ⟨h.toShowTrivia.attachTrailing h.opened,
    showsAllTrivia_attachTrailing h.shown h.apart h.opened⟩

theorem shows_block (hl : l.Shows tokens) :
    l.block.Yields (Cursor.Holds tokens) fun b => b.IsShown tokens ∧ b.IsOpen := by
  have hbraces (opening closing : Lexeme) (statements : List Node) :
      Block.IsOpen ⟨some opening, statements, some closing, []⟩ := ⟨rfl, fun hbraced => by cases hbraced⟩
  have hkept := Cursor.kept_holds tokens
  refine (hkept.expect _).yields_bind fun opening => Yields.ite (fun _ => Yields.pure ⟨?_, hbraces _ _ _⟩) fun _ => ?_
  · exact Block.isShown_of_statements showTrivia_nil (fun _ hn => absurd hn List.not_mem_nil) _ _
  · exact (shows_statements hl true).bind fun statements ⟨hshow, hshown⟩ =>
      (hkept.expect _).yields_bind fun closing =>
        Yields.pure ⟨Block.isShown_of_statements hshow hshown _ _, hbraces _ _ _⟩

theorem shows_function (hl : l.Shows tokens) :
    l.function.Yields (Cursor.Holds tokens) fun f => f.block.IsShown tokens := by
  have hkept := Cursor.kept_holds tokens
  exact (hkept.expect _).yields_bind fun _ => (hkept.separated hkept.parameter).yields_bind fun _ =>
    (hkept.expect _).yields_bind fun _ => (shows_block hl).bind fun block hblock => Yields.pure hblock.1

/-! ### Expressions -/

theorem shows_expressions (hl : l.Shows tokens) (closing : Symbol) :
    (l.expressions closing).Yields (Cursor.Holds tokens) fun s => ∀ n ∈ s.1, n.ShowsAllTrivia tokens := by
  refine Yields.separated (Cursor.kept_holds tokens) (Yields.kind_bind fun k =>
    Yields.ite (fun _ => Yields.pure nofun) fun _ => Yields.map (hl.expression.imp fun n hn m hm => ?_))
  cases hm
  exact hn

theorem shows_field (hl : l.Shows tokens) :
    l.field.Yields (Cursor.Holds tokens) fun f => ∀ g ∈ f, g.value.ShowsAllTrivia tokens := by
  have hkept := Cursor.kept_holds tokens
  refine Yields.kind_bind fun k => Yields.ite (fun _ => Yields.pure nofun) fun _ =>
    hkept.fieldKey.yields_bind fun key => ?_
  cases key with
  | none => exact Yields.pure nofun
  | some key =>
      refine (hkept.expect _).yields_bind fun colon => hl.expression.bind fun value hvalue =>
        Yields.pure fun g hg => ?_
      cases hg
      exact hvalue

theorem shows_missingExpression : missingExpression.Shows tokens := by
  have hunparsed (lexemes : List Lexeme) : (unparsed lexemes).ShowsAllTrivia tokens := showsAllTrivia_leaf rfl rfl
  have hkept := Cursor.kept_holds tokens
  exact (hkept.report_keeps (by decide) _).yields_bind fun _ => Yields.kind_bind fun k =>
    Yields.ite (fun _ => Yields.pure (hunparsed [])) fun _ =>
      hkept.bump_keeps.yields_bind fun lexeme => Yields.pure (hunparsed [lexeme])

theorem shows_primary (hl : l.Shows tokens) : l.primary.Shows tokens := by
  have hkept := Cursor.kept_holds tokens
  have hleaf {f : Lexeme → Node} (h : ∀ lexeme, (f lexeme).ShowsAllTrivia tokens) : (f <$> bump).Shows tokens :=
    Yields.map (hkept.bump_keeps.yields.imp fun lexeme _ => h lexeme)
  refine Yields.kind_bind fun k => ?_
  split
  case h_1 | h_2 => exact hleaf fun _ => showsAllTrivia_leaf rfl rfl
  case h_3 | h_4 | h_5 | h_6 | h_7 => exact hleaf fun _ => showsAllTrivia_leaf rfl rfl
  case h_8 =>
    refine hkept.bump_keeps.yields_bind fun opening => hl.expression.bind fun inner hinner =>
      (hkept.expect _).yields_bind fun closing => Yields.pure (showsAllTrivia_of_isPlain rfl ?_)
    exact List.forall_mem_singleton.mpr hinner
  case h_9 =>
    refine hkept.bump_keeps.yields_bind fun opening => (Yields.separated hkept (shows_field hl)).bind
      fun (fields, commas) hfields => (hkept.expect _).yields_bind fun closing =>
        Yields.pure (showsAllTrivia_of_isPlain rfl ?_)
    exact List.forall_mem_map.mpr hfields
  case h_10 =>
    refine hkept.bump_keeps.yields_bind fun opening => (shows_expressions hl _).bind fun (elements, commas)
      helements => (hkept.expect _).yields_bind fun closing => Yields.pure ?_
    exact showsAllTrivia_of_isPlain rfl helements
  case h_11 =>
    refine hkept.bump_keeps.yields_bind fun keyword => (hkept.optional _).yields_bind fun name =>
      (shows_function hl).bind fun body hbody => Yields.pure ?_
    exact showsAllTrivia_of_blocks rfl rfl (List.forall_mem_singleton.mpr hbody.toShowsTrivia) hbody.children
  case h_12 => exact shows_missingExpression

theorem shows_suffixRound (hl : l.Shows tokens) {base : Node} (hbase : base.ShowsAllTrivia tokens) :
    (l.suffixRound base).Yields (Cursor.Holds tokens) fun s => s.1.ShowsAllTrivia tokens := by
  have hkept := Cursor.kept_holds tokens
  refine Yields.kind_bind fun k => ?_
  split
  · refine hkept.bump_keeps.yields_bind fun dot => hkept.fieldName.yields_bind fun field =>
      Yields.pure (showsAllTrivia_of_isPlain rfl ?_)
    exact List.forall_mem_singleton.mpr hbase
  · refine hkept.bump_keeps.yields_bind fun opening => hl.expression.bind fun subscript hsubscript =>
      (hkept.expect _).yields_bind fun closing => Yields.pure (showsAllTrivia_of_isPlain rfl ?_)
    exact List.forall_mem_cons.mpr ⟨hbase, List.forall_mem_singleton.mpr hsubscript⟩
  · refine hkept.bump_keeps.yields_bind fun opening => (shows_expressions hl _).bind fun (arguments, commas)
      harguments => (hkept.expect _).yields_bind fun closing => Yields.pure (showsAllTrivia_of_isPlain rfl ?_)
    exact List.forall_mem_cons.mpr ⟨hbase, harguments⟩
  · exact Yields.pure hbase

theorem shows_postfixed (hl : l.Shows tokens) : l.postfixed.Shows tokens := by
  have hsuffixed : l.suffixed.Shows tokens :=
    (shows_primary hl).bind fun _ hbase => Yields.grow (fun _ h => shows_suffixRound hl h) hbase
  refine hsuffixed.bind fun operand hoperand => Yields.kind_bind fun k => Yields.look_bind fun separate =>
    Yields.ite (fun _ => (Cursor.kept_holds tokens).bump_keeps.yields_bind fun symbol => Yields.pure ?_) fun _ =>
      Yields.pure hoperand
  exact showsAllTrivia_of_isPlain rfl (List.forall_mem_singleton.mpr hoperand)

theorem shows_unary (hl : l.Shows tokens) : l.unary.Shows tokens :=
  Yields.kind_bind fun _ => Yields.ite (fun _ => hl.prefixed) fun _ => shows_postfixed hl

theorem shows_binary (hl : l.Shows tokens) (minimum : Nat) : (l.binary minimum).Shows tokens := by
  induction minimum using Tier.induction with
  | h minimum ih =>
      rw [binary_eq]
      refine (shows_unary hl).bind fun first hfirst =>
        Yields.grow (fun left hleft => Yields.kind_bind fun k => ?_) hfirst
      split
      · next tier _ =>
          split
          · next hlt =>
              refine (Cursor.kept_holds tokens).bump_keeps.yields_bind fun symbol =>
                (ih tier hlt).bind fun right hright => Yields.pure (showsAllTrivia_of_isPlain rfl ?_)
              exact List.forall_mem_cons.mpr ⟨hleft, List.forall_mem_singleton.mpr hright⟩
          · exact Yields.pure hleft
      · exact Yields.pure hleft

theorem shows_assignment (hl : l.Shows tokens) : l.assignment.Shows tokens := by
  refine (shows_binary hl _).bind fun target htarget => Yields.kind_bind fun k =>
    Yields.ite (fun _ => ?_) fun _ => Yields.pure htarget
  refine (Cursor.kept_holds tokens).bump_keeps.yields_bind fun operator => hl.expression.bind fun value hvalue =>
    Yields.pure (showsAllTrivia_of_isPlain rfl ?_)
  exact List.forall_mem_cons.mpr ⟨htarget, List.forall_mem_singleton.mpr hvalue⟩

theorem shows_operation (hl : l.Shows tokens) : l.operation.Shows tokens :=
  (Cursor.kept_holds tokens).bump_keeps.yields_bind fun _ => (shows_unary hl).bind fun _ hoperand =>
    Yields.pure (showsAllTrivia_of_isPlain rfl (List.forall_mem_singleton.mpr hoperand))

/-! ### Declarations -/

theorem shows_declarator (hl : l.Shows tokens) (form : DeclarationForm) (lead : Lexeme) :
    (l.declarator form lead).Yields (Cursor.Holds tokens) fun d => ∀ n ∈ d.children, n.ShowsAllTrivia tokens := by
  have hkept := Cursor.kept_holds tokens
  refine hkept.expectIdentifier.yields_bind fun name => (hkept.optional _).yields_bind fun equals => ?_
  cases equals with
  | none => exact Yields.pure nofun
  | some equals => exact hl.expression.bind fun value hvalue => Yields.pure (List.forall_mem_singleton.mpr hvalue)

theorem shows_declaration (hl : l.Shows tokens) (form : DeclarationForm) : (l.declaration form).Shows tokens := by
  have hkept := Cursor.kept_holds tokens
  have hround : (l.declaratorRound form).Yields (Cursor.Holds tokens) fun s =>
      ∀ d ∈ s.1, ∀ n ∈ d.children, n.ShowsAllTrivia tokens := by
    refine (hkept.optional _).yields_bind fun lead => ?_
    cases lead with
    | none => exact Yields.pure nofun
    | some lead =>
        exact (shows_declarator hl form lead).bind fun d hd => Yields.pure (List.forall_mem_singleton.mpr hd)
  refine hkept.bump_keeps.yields_bind fun keyword => (shows_declarator hl form keyword).bind fun first hfirst =>
    (Yields.collect hround).bind fun additional hadditional => Yields.pure (showsAllTrivia_of_isPlain rfl ?_)
  exact Declarator.forall_children_withAdditional hfirst hadditional

theorem shows_functionDeclaration (hl : l.Shows tokens) : l.functionDeclaration.Shows tokens := by
  have hkept := Cursor.kept_holds tokens
  refine hkept.bump_keeps.yields_bind fun keyword => hkept.expectIdentifier.yields_bind fun name =>
    (shows_function hl).bind fun body hbody => Yields.pure ?_
  exact showsAllTrivia_of_blocks rfl rfl (List.forall_mem_singleton.mpr hbody.toShowsTrivia) hbody.children

/-! ### Control flow -/

theorem shows_clause (hl : l.Shows tokens) (first : Bool) : (l.clause first).Shows tokens := by
  refine Yields.kind_bind fun k => Yields.ite (fun _ => Yields.pure (showsAllTrivia_leaf rfl rfl)) fun _ => ?_
  split
  · exact shows_declaration hl _
  · exact hl.expression

theorem shows_header (hl : l.Shows tokens) (form : ControlForm) :
    (l.header form).Yields (Cursor.Holds tokens) fun s => ∀ n ∈ s.1, n.ShowsAllTrivia tokens := by
  have hkept := Cursor.kept_holds tokens
  cases form with
  | forForm =>
      refine (shows_clause hl true).bind fun initial hinitial => (hkept.expect _).yields_bind fun first =>
        (shows_clause hl false).bind fun condition hcondition => (hkept.expect _).yields_bind fun second =>
        (shows_clause hl false).bind fun step hstep => Yields.pure ?_
      simpa using ⟨hinitial, hcondition, hstep⟩
  | _ =>
      exact hl.expression.bind fun condition hcondition => Yields.pure (List.forall_mem_singleton.mpr hcondition)

/-- A body is a block, or a statement behind its trivia, or where no statement can begin only trivia. -/
theorem shows_body (hl : l.Shows tokens) :
    l.body.Yields (Cursor.Holds tokens) fun b => b.IsShown tokens ∧ b.IsOpen := by
  refine Triple.kind_bind fun k => Triple.ite (fun _ => ?_) fun _ => ?_
  · exact (shows_block hl).of_imp fun c hc => hc.1
  · refine (shows_takeTrivia hl.read (· = k)).bind fun trivia => Triple.of_and fun htrivia =>
      Triple.ite (fun hk => ?_) fun _ => ?_
    · have hseen : k ≠ .endOfInput := by rintro rfl; cases hk
      exact (shows_statement hl true hseen htrivia).bind fun statement =>
        Triple.pure fun c ⟨⟨_, hshown⟩, hholds⟩ => ⟨Block.isShown_bare hshown, hholds⟩
    · have hreport := (Cursor.kept_holds tokens).report_keeps (m := .statementExpected) (by decide) []
      exact (hreport.of_imp fun c hc => hc.1.1).bind fun _ =>
        Triple.pure fun c hholds => ⟨Block.isShown_bare htrivia.areShown, hholds⟩

/-- A choice or loop up to the end of its body. -/
theorem shows_head (hl : l.Shows tokens) (form : ControlForm) :
    (l.head form).Yields (Cursor.Holds tokens) fun control => control.IsShown tokens ∧ control.body.IsOpen := by
  have hkept := Cursor.kept_holds tokens
  refine hkept.bump_keeps.yields_bind fun keyword => (hkept.expect _).yields_bind fun opening =>
    (shows_header hl form).bind fun (header, separators) hheader => (hkept.expect _).yields_bind fun closing =>
    (shows_body hl).bind fun body ⟨hbody, hopen⟩ => Yields.pure ⟨⟨hheader, hbody, nofun⟩, hopen⟩

/-- With the comments in front of its `else` a choice shows its trivia as before. -/
theorem shows_choice (hl : l.Shows tokens) (form : ControlForm) :
    (l.choice form).Yields (Cursor.Holds tokens) fun s => s.1.IsShown tokens := by
  have hkept := Cursor.kept_holds tokens
  have htrailing : takeTrailing.Yields (Cursor.Holds tokens) (AreShownTrivia tokens) := fun c hc =>
    ⟨hc.areShownTrivia_takeTrailing hl.read, hc.run takeTrailing⟩
  refine (shows_head hl form).bind fun control ⟨hcontrol, hopen⟩ =>
    Yields.ite (fun _ => Yields.pure hcontrol) fun _ => ?_
  have hattach : (attachBeforeElse control).Yields (Cursor.Holds tokens) fun control => control.IsShown tokens := by
    refine Yields.kind_bind fun k => Yields.ite (fun _ => ?_) fun _ => Yields.pure hcontrol
    exact htrailing.bind fun comments hcomments =>
      Yields.pure ⟨hcontrol.header, hcontrol.body.attach hopen hcomments, hcontrol.alternate⟩
  exact hattach.bind fun control hcontrol => (hkept.optional _).yields_bind fun keyword => Yields.pure hcontrol

/-- A choice begins with its keyword, whatever was attached to its body. -/
theorem keyword_choice (l : Level) (form : ControlForm) (c : Cursor) :
    ((l.choice form).run c).1.1.keyword = c.bump.1 := by
  have hhead : ((l.head form).run c).1.keyword = c.bump.1 := rfl
  simp only [run_choice]
  split <;> exact hhead

theorem shows_of_choice (hl : l.Shows tokens) {form : ControlForm} {c d : Cursor} (hc : c.Holds tokens)
    {control : Control Node} {keyword : Option Lexeme} (h : (l.choice form).run c = ((control, keyword), d)) :
    (control.IsShown tokens ∧ control.keyword = c.bump.1) ∧ d.Holds tokens := by
  obtain ⟨hcontrol, hd⟩ := shows_choice hl form c hc
  have hkeyword := keyword_choice l form c
  rw [h] at hcontrol hkeyword hd
  exact ⟨⟨hcontrol, hkeyword⟩, hd⟩

/-- Choices that stand one inside the other show all their trivia: behind an `else` an inner choice begins at its
keyword, for the trivia in front of it were taken as nodes. -/
theorem shows_nestedControl (hl : l.Shows tokens) (form : ControlForm) (c : Cursor) (hc : c.Holds tokens) :
    ((l.nestedControl form c).1.IsShown tokens ∧ (l.nestedControl form c).1.keyword = c.bump.1) ∧
      (l.nestedControl form c).2.Holds tokens := by
  fun_induction nestedControl l form c with
  | case1 form c control d h => exact shows_of_choice hl hc h
  | case2 form c control keyword d h hif inner ih =>
      obtain ⟨⟨hcontrol, hkeyword⟩, hd⟩ := shows_of_choice hl hc h
      obtain ⟨htrivia, ⟨hholds, hnone⟩, -⟩ := shows_takeTrivia hl.read (fun _ => True) d ⟨hd, trivial⟩
      obtain ⟨⟨hinner, hfirst⟩, hafter⟩ := ih hholds
      have hbare : (command (.combinator inner.1) none []).BeginsBare :=
        beginsBare_combinator (hfirst ▸ Cursor.leading_bump hnone)
      have hbranch := htrivia.areShown.concat rfl rfl hbare (showsAllTrivia_open hinner.node none)
      refine ⟨⟨⟨hcontrol.header, hcontrol.body, fun a ha => ?_⟩, hkeyword⟩, hafter⟩
      cases ha
      exact (Block.isShown_bare hbranch).1
  | case3 form c control keyword d h hif body =>
      obtain ⟨⟨hcontrol, hkeyword⟩, hd⟩ := shows_of_choice hl hc h
      obtain ⟨⟨hbody, -⟩, hafter⟩ := shows_body hl d hd
      refine ⟨⟨⟨hcontrol.header, hcontrol.body, fun a ha => ?_⟩, hkeyword⟩, hafter⟩
      cases ha
      exact hbody

theorem shows_control (hl : l.Shows tokens) (form : ControlForm) :
    (l.control form).Yields (Cursor.Holds tokens) fun control => control.IsShown tokens := by
  intro c hc
  have hrun : (l.control form).run c = l.nestedControl form c := unwind_growFrom l form c []
  rw [hrun]
  obtain ⟨⟨hcontrol, -⟩, hafter⟩ := shows_nestedControl hl form c hc
  exact ⟨hcontrol, hafter⟩

/-! ### Statements -/

theorem shows_whole {inner : Rule Node} (h : inner.Shows tokens) : (whole inner).Shows tokens :=
  h.bind fun _ hinner => Yields.pure (showsAllTrivia_open hinner _)

theorem shows_ended {inner : Rule Node} (h : inner.Shows tokens) : (ended inner).Shows tokens :=
  h.bind fun _ hinner => ((Cursor.kept_holds tokens).optional _).yields_bind fun _ =>
    Yields.pure (showsAllTrivia_open hinner _)

theorem shows_returning (hl : l.Shows tokens) : l.returning.Shows tokens := by
  refine (Cursor.kept_holds tokens).bump_keeps.yields_bind fun keyword => Yields.kind_bind fun k =>
    Yields.look_bind fun separate => Yields.ite (fun _ => ?_) fun _ => Yields.pure (showsAllTrivia_leaf rfl rfl)
  exact hl.expression.bind fun value hvalue =>
    Yields.pure (showsAllTrivia_of_isPlain rfl (List.forall_mem_singleton.mpr hvalue))

theorem shows_statementHere (hl : l.Shows tokens) (nested : Bool) : (l.statementHere nested).Shows tokens := by
  have hkept := Cursor.kept_holds tokens
  have hempty : Node.empty.ShowsAllTrivia tokens := showsAllTrivia_leaf rfl rfl
  have hcontrol (form : ControlForm) : (whole (.combinator <$> l.control form)).Shows tokens :=
    shows_whole (Yields.map ((shows_control hl form).imp fun _ h => h.node))
  refine Yields.kind_bind fun k => Yields.look_bind fun next => ?_
  split
  case h_1 | h_2 | h_3 => exact shows_ended (shows_declaration hl _)
  case h_4 =>
    exact Yields.ite (fun _ => shows_whole (shows_functionDeclaration hl)) fun _ => shows_ended hl.expression
  case h_5 | h_6 | h_7 => exact hcontrol _
  case h_8 => exact shows_ended (shows_returning hl)
  case h_9 =>
    exact (hkept.report_keeps (by decide) _).yields_bind fun _ => hkept.bump_keeps.yields_bind fun semicolon =>
      Yields.pure (showsAllTrivia_open hempty _)
  case h_10 =>
    refine Yields.ite (fun _ => shows_ended hl.expression) fun _ => ?_
    have hunparsed (lexemes : List Lexeme) : (unparsed lexemes).ShowsAllTrivia tokens := showsAllTrivia_leaf rfl rfl
    exact fun c hc => ⟨hunparsed _, hkept.unparsedStatement nested c hc⟩

/-! ### All levels -/

theorem shows_ofRemaining (hread : ∀ t ∈ tokens, t.IsRead) (limit remaining : Nat) :
    (ofRemaining limit remaining).Shows tokens := by
  induction remaining with
  | zero =>
      have hrefuse : (refuse limit).Shows tokens := fun c hc => ⟨showsAllTrivia_leaf rfl rfl, hc.run (refuse limit)⟩
      exact {
        read := hread
        statement := fun _ => hrefuse
        begins := begins_ofRemaining hread limit 0
        expression := hrefuse
        prefixed := hrefuse }
  | succ remaining ih =>
      exact {
        read := hread
        statement := shows_statementHere ih
        begins := begins_ofRemaining hread limit (remaining + 1)
        expression := shows_assignment ih
        prefixed := shows_operation ih }

end Level

end LosslessSyntax
