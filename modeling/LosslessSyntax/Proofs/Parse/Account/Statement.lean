import LosslessSyntax.Parse.Statement
import LosslessSyntax.Proofs.Parse.Account.Expression

/-! The account through statements, if the next level keeps it. A body without braces and without a statement
is a flaw of the node around it, so the flaw is still to be shown until that node is finished. In a chain of
`else if` the nodes are finished from the innermost to the outermost, when the whole chain has been read. -/

namespace LosslessSyntax

open LosslessSyntax.Part Rule

namespace Level

variable {l : Level} {source : List Token} {ps : List (Part Node)} {flaw : Bool} {k : Kind}

/-! ### Declarations -/

theorem accounts_declarator (hl : l.Accounts source) (form : DeclarationForm) (lead : Lexeme) :
    Triple (Account source (ps ++ [.lexeme lead]) flaw) (l.declarator form lead)
      fun d c => d.additional = [] ∧ Account source (ps ++ d.parts) flaw c := by
  refine (accounts_expectIdentifier _ _).bind fun name => (accounts_optional rfl _ _).bind fun
    | none => Triple.pure fun c h => ⟨rfl, ?_⟩
    | some equals => (hl.expression _ _).bind fun value => Triple.pure fun c h => ⟨rfl, ?_⟩
  · simpa [Declarator.parts, Declarator.chainParts, Lexeme.optionalParts] using h
  · simpa [Declarator.parts, Declarator.chainParts, Initializer.parts, Lexeme.optionalParts] using h

theorem chainParts_append {N : Type} (ds es : List (Declarator N)) :
    Declarator.chainParts (ds ++ es) = Declarator.chainParts ds ++ Declarator.chainParts es := by
  induction ds with
  | nil => rfl
  | cons d ds ih => rw [List.cons_append, Declarator.chainParts, Declarator.chainParts, ih, List.append_assoc]

theorem accounts_declaratorRound (hl : l.Accounts source) (form : DeclarationForm)
    (ds : List (Declarator Node)) :
    Triple (Account source (ps ++ Declarator.chainParts ds) flaw) (l.declaratorRound form) fun s c =>
      cond s.2 (Account source (ps ++ Declarator.chainParts (ds ++ s.1)) flaw c)
        (Account source (ps ++ Declarator.chainParts (ds ++ s.1)) flaw c) := by
  refine (accounts_optional rfl _ _).bind fun
    | none => Triple.pure fun c h => ?_
    | some lead => (accounts_declarator hl form lead).bind fun d => Triple.pure fun c h => ?_
  · simpa [Lexeme.optionalParts] using h
  · rw [List.append_assoc] at h
    rw [chainParts_append]
    simpa [Declarator.chainParts] using h.2

theorem accounts_declarators (hl : l.Accounts source) (form : DeclarationForm) :
    (collect (l.declaratorRound form) (l.advances_declaratorRound form)).Accounts source
      Declarator.chainParts := by
  intro ps flaw
  exact (Triple.collect (accounts_declaratorRound hl form)).of_imp fun c h => h.append_nil

theorem parts_withAdditional {N : Type} {d : Declarator N} (h : d.additional = []) (ds : List (Declarator N)) :
    (d.withAdditional ds).parts = d.parts ++ Declarator.chainParts ds := by
  obtain ⟨_, _, _, _, additional⟩ := d
  cases h
  simp [Declarator.withAdditional, Declarator.parts, Declarator.chainParts]

theorem accounts_declaration (hl : l.Accounts source) (hk : k.hasPlace = true) (form : DeclarationForm) :
    Triple (fun c => Account source ps flaw c ∧ c.kind = k) (l.declaration form)
      fun n => Account source (ps ++ [.node n]) flaw := by
  refine (accounts_bump_on hk).bind fun keyword => (accounts_declarator hl form keyword).bind fun first =>
    Triple.of_and fun hfirst => ?_
  refine (accounts_declarators hl form _ _).bind fun additional =>
    Triple.pure fun c h => ?_
  apply Account.sound_node _ rfl rfl
  rw [Node.parts, parts_withAdditional hfirst, ← List.append_assoc]
  exact h

theorem accounts_functionDeclaration (hl : l.Accounts source) (hk : k.hasPlace = true) :
    Triple (fun c => Account source ps flaw c ∧ c.kind = k) l.functionDeclaration
      fun n => Account source (ps ++ [.node n]) flaw := by
  refine (accounts_bump_on hk).bind fun keyword => (accounts_expectIdentifier _ _).bind fun name =>
    (accounts_function hl).bind fun body => Triple.of_and fun hbraced => Triple.pure fun c h => ?_
  apply Account.sound_node _ _ rfl
  · simpa [Node.parts] using h
  · rw [Node.isFlawedItself_eq_false_iff]
    exact ⟨rfl, by simpa [Node.blocks] using Block.isBodiless_of_isBraced hbraced⟩

/-! ### Control flow -/

/-- A body without braces shows that its statement is missing by having none. -/
theorem accounts_body (hl : l.Accounts source) :
    Triple (Account source ps flaw) l.body
      fun b c => b.Fresh ∧ Account source (ps ++ b.parts) (flaw || b.isBodiless) c := by
  refine Triple.kind_bind fun k => Triple.ite (fun _ => ?_) fun _ => ?_
  · refine ((accounts_block hl).imp (fun _ h => h.1)) fun b c ⟨⟨hbraced, hfresh⟩, h⟩ => ⟨hfresh, ?_⟩
    rw [Block.isBodiless_of_isBraced hbraced, Bool.or_false]
    exact h
  · have htrivia : Triple (fun c => Account source ps flaw c ∧ c.kind = k) takeTrivia
        fun trivia c => trivia.all Node.isTrivia = true ∧ Account source (ps ++ trivia.map .node) flaw c :=
      fun c h => ⟨List.all_eq_true.mpr Token.isTrivia_triviaNodes, h.1.takeTrivia⟩
    refine htrivia.bind fun trivia => Triple.of_and fun htrivia => Triple.ite (fun _ => ?_) fun _ => ?_
    · refine (hl.statement true _ _).bind fun statement => Triple.of_and fun hstatement =>
        Triple.pure fun c h => ⟨⟨fun _ => rfl, rfl⟩, ?_⟩
      have hbody : Block.isBodiless ⟨none, trivia ++ [statement], none, []⟩ = false := by
        have hnot : statement.isTrivia = false := by simpa using (Bool.and_eq_true_iff.mp hstatement).1
        simp [Block.isBodiless, hnot]
      rw [hbody, Bool.or_false]
      simpa [Block.parts, Lexeme.optionalParts] using h
    · refine (accounts_report rfl []).bind fun _ => Triple.pure fun c h => ⟨⟨fun _ => rfl, rfl⟩, ?_⟩
      have hbodiless : Block.isBodiless ⟨none, trivia, none, []⟩ = true := htrivia
      rw [hbodiless, Bool.or_true]
      simpa [Block.parts, Lexeme.optionalParts] using h

theorem accounts_clause (hl : l.Accounts source) (first : Bool) :
    (l.clause first).Accounts source ([.node ·]) := by
  intro ps flaw
  refine Triple.kind_bind fun k => Triple.ite (fun _ => Triple.pure fun c h => ?_) fun _ => ?_
  · apply Account.sound_node _ rfl rfl
    exact h.1.append_nil
  · split
    · next _ _ form hform =>
        have hplace : k.hasPlace = true :=
          Kind.hasPlace_of (DeclarationForm.ofKind? · = some form) hform nofun nofun
        exact accounts_declaration hl hplace form
    · exact (hl.expression ps flaw).of_imp fun _ h => h.1

theorem accounts_header (hl : l.Accounts source) (form : ControlForm) :
    (l.header form).Accounts source (separatedParts ([.node ·])) := by
  intro ps flaw
  cases form with
  | forForm =>
      refine (accounts_clause hl true _ _).bind fun initial => (accounts_expect rfl _ _).bind fun first =>
        (accounts_clause hl false _ _).bind fun condition => (accounts_expect rfl _ _).bind fun second =>
        (accounts_clause hl false _ _).bind fun step => Triple.pure fun c h => ?_
      simpa [separatedParts, interleave] using h
  | ifForm => exact (hl.expression ps flaw).bind fun condition => Triple.pure fun c h => h
  | whileForm => exact (hl.expression ps flaw).bind fun condition => Triple.pure fun c h => h

/-- Of a choice or a loop without any `else`, only the body may be to blame. -/
theorem accounts_head (hl : l.Accounts source) (hk : k.hasPlace = true) (form : ControlForm) :
    Triple (fun c => Account source ps flaw c ∧ c.kind = k) (l.head form) fun control c =>
      (control.alternate = none ∧ control.body.Fresh) ∧
        Account source (ps ++ control.parts) (flaw || control.body.isBodiless) c := by
  refine (accounts_bump_on hk).bind fun keyword => (accounts_expect rfl _ _).bind fun opening =>
    (accounts_header hl form _ _).bind fun (header, separators) =>
    (accounts_expect rfl _ _).bind fun closing => (accounts_body hl).bind fun body =>
    Triple.of_and fun hfresh => Triple.pure fun c h => ⟨⟨rfl, hfresh⟩, ?_⟩
  simpa [Control.parts, separatedParts] using h

end Level

/-! ### Chains of choices -/

namespace Control

variable {N : Type} {control : Control Node}

theorem parts_with_alternate {control : Control N} (h : control.alternate = none) (a : Alternate N) :
    Control.parts { control with alternate := some a } = control.parts ++ a.parts := by
  simp [parts, h]

theorem blocks_of_alternate_eq_none (h : control.alternate = none) : control.blocks = [control.body] := by
  rw [blocks, h]
  rfl

theorem alike_attach (h : control.alternate = none) (hfresh : control.body.Fresh) (comments : List Node) :
    Alike (control.parts ++ comments.map .node)
      (Control.parts { control with body := control.body.attach comments }) := by
  simp only [parts, h, Option.toList_none, List.flatMap_nil, List.append_nil, List.append_assoc]
  exact .append (.refl _) (.append (.refl _) (.append (.refl _) (Block.alike_attach hfresh comments)))

end Control

namespace Link

def parts (link : Link) : List (Part Node) :=
  link.control.parts ++ [.lexeme link.keyword] ++ link.leading.map .node

/-- The parts of links in the order of the source. The innermost link comes first in the list. -/
def chainParts : List Link → List (Part Node)
  | [] => []
  | link :: outer => chainParts outer ++ link.parts

/-- Whether the body of a link is to blame. -/
def isBodiless (link : Link) : Bool := link.control.body.isBodiless

theorem or_any_cons (flaw : Bool) (link : Link) (outer : List Link) :
    (flaw || (link :: outer).any isBodiless) = (flaw || outer.any isBodiless || link.isBodiless) := by
  rw [List.any_cons]
  ac_rfl

/-- A branch that holds another choice has a statement, so only the body of the link itself may lack one. -/
theorem any_blocks_close (link : Link) (inner : Control Node) :
    (link.close inner).blocks.any Block.isBodiless = link.isBodiless := by
  simp [close, Control.blocks, Block.isBodiless, Node.isTrivia, isBodiless]

end Link

namespace Account

variable {source : List Token} {ps : List (Part Node)} {flaw : Bool} {c : Cursor}

theorem combinator {control : Control Node}
    (h : Account source (ps ++ control.parts) (flaw || control.blocks.any Block.isBodiless) c) :
    Account source (ps ++ [.node (.combinator control)]) flaw c := node h rfl

theorem command {inner : Node} {semicolon : Option Lexeme} (hinner : inner.isEmpty = false)
    (h : Account source (ps ++ [.node inner] ++ Lexeme.optionalParts semicolon) flaw c) :
    Account source (ps ++ [.node (.command inner semicolon [])]) flaw c := by
  have hidle : (Node.command inner semicolon []).isIdle = false := hinner
  apply sound_node _ rfl hidle
  simpa [Node.parts] using h

/-- A link is closed over the choice that it leads to. -/
theorem close {link : Link} {inner : Control Node} (hlink : link.control.alternate = none)
    (h : Account source (ps ++ link.parts ++ inner.parts) (flaw || inner.blocks.any Block.isBodiless) c) :
    Account source (ps ++ (link.close inner).parts) flaw c := by
  have hinner := h.combinator
  have hcommand : Account source (ps ++ link.parts ++ [.node (.command (.combinator inner) none [])]) flaw c :=
    command rfl hinner.append_nil
  have hparts : (link.close inner).parts =
      link.parts ++ [.node (.command (.combinator inner) none [])] := by
    rw [Link.close, Control.parts_with_alternate hlink, Link.parts]
    simp [Alternate.parts, Block.parts, Lexeme.optionalParts]
  rw [hparts, ← List.append_assoc]
  exact hcommand

theorem close_chain {links : List Link} {last : Control Node}
    (hlinks : ∀ link ∈ links, link.control.alternate = none)
    (h : Account source (ps ++ Link.chainParts links ++ last.parts)
      (flaw || links.any Link.isBodiless || last.blocks.any Block.isBodiless) c) :
    Account source (ps ++ (links.foldl (fun inner link => link.close inner) last).parts)
      (flaw || (links.foldl (fun inner link => link.close inner) last).blocks.any Block.isBodiless) c := by
  -- the inner choice grows by a link in every step
  induction links generalizing last with
  | nil => simpa [Link.chainParts] using h
  | cons link outer ih =>
      have houter : ∀ other ∈ outer, other.control.alternate = none := fun other hother =>
        hlinks other (List.mem_cons_of_mem _ hother)
      rw [List.foldl_cons]
      apply ih houter
      apply close (hlinks link List.mem_cons_self)
      rw [Link.any_blocks_close, List.append_assoc ps, ← Link.or_any_cons]
      exact h

end Account

namespace Level

variable {l : Level} {source : List Token} {ps : List (Part Node)} {flaw : Bool} {k : Kind}

/-- The account while a chain of choices is read: none of them has its `else` branch yet. -/
def AccountChain (source : List Token) (ps : List (Part Node)) (flaw : Bool) (s : List Link × Control Node)
    (c : Cursor) : Prop :=
  ((∀ link ∈ s.1, link.control.alternate = none) ∧ s.2.alternate = none ∧ s.2.body.Fresh) ∧
    Account source (ps ++ Link.chainParts s.1 ++ s.2.parts)
      (flaw || s.1.any Link.isBodiless || s.2.body.isBodiless) c

/-- The account when a chain of choices has been read: the last one may have its `else` branch. -/
def AccountChained (source : List Token) (ps : List (Part Node)) (flaw : Bool) (s : List Link × Control Node)
    (c : Cursor) : Prop :=
  (∀ link ∈ s.1, link.control.alternate = none) ∧
    Account source (ps ++ Link.chainParts s.1 ++ s.2.parts)
      (flaw || s.1.any Link.isBodiless || s.2.blocks.any Block.isBodiless) c

theorem AccountChain.chained {s : List Link × Control Node} {c : Cursor} (h : AccountChain source ps flaw s c) :
    AccountChained source ps flaw s c := by
  refine ⟨h.1.1, ?_⟩
  rw [Control.blocks_of_alternate_eq_none h.1.2.1, List.any_cons, List.any_nil, Bool.or_false]
  exact h.2

/-- Comments in front of an `else` go into the body before it. -/
theorem accounts_attach {control : Control Node} (hcontrol : control.alternate = none)
    (hfresh : control.body.Fresh) (comments : List Node) {c : Cursor}
    (h : Account source (ps ++ control.parts ++ comments.map .node) (flaw || control.body.isBodiless) c) :
    Account source (ps ++ Control.parts { control with body := control.body.attach comments })
      (flaw || (control.body.attach comments).isBodiless) c := by
  rw [Block.isBodiless_attach]
  rw [List.append_assoc] at h
  exact h.congr_end (Control.alike_attach hcontrol hfresh comments)

theorem accounts_takeTrailing_chain (links : List Link) (control : Control Node) :
    Triple (fun c => AccountChain source ps flaw (links, control) c ∧ c.kind = k) takeTrailing
      fun comments c => ((∀ link ∈ links, link.control.alternate = none) ∧ control.alternate = none) ∧
        Account source
          (ps ++ Link.chainParts links ++ Control.parts { control with body := control.body.attach comments })
          (flaw || links.any Link.isBodiless || (control.body.attach comments).isBodiless) c ∧ c.kind = k := by
  intro c ⟨⟨⟨hlinks, hcontrol, hfresh⟩, h⟩, hkind⟩
  obtain ⟨htrailing, hkind⟩ := accounts_takeTrailing_on c ⟨h, hkind⟩
  exact ⟨⟨hlinks, hcontrol⟩, accounts_attach hcontrol hfresh _ htrailing, hkind⟩

/-- An `else` makes the choice before it a link, or closes it with its own branch. -/
theorem accounts_linkRound (hl : l.Accounts source) (s : List Link × Control Node) :
    Triple (AccountChain source ps flaw s) (l.linkRound s) fun t c =>
      cond t.2 (AccountChain source ps flaw t.1 c) (AccountChained source ps flaw t.1 c) := by
  obtain ⟨links, before⟩ := s
  refine Triple.kind_bind fun k => Triple.ite (fun hk => ?_) fun _ => Triple.pure fun c h => h.1.chained
  have helse : k = .keyword .elseWord := of_decide_eq_true (Bool.and_eq_true_iff.mp hk).2
  refine (accounts_takeTrailing_chain links before).bind fun comments =>
    Triple.of_and fun ⟨hlinks, hbefore⟩ => ?_
  -- from here on the choice is the one with the comments in its body
  generalize hcontrol : ({ before with body := before.body.attach comments } : Control Node) = control
  have hbody : before.body.attach comments = control.body := by rw [← hcontrol]
  have hnone : control.alternate = none := by rw [← hcontrol]; exact hbefore
  rw [hbody]
  refine (accounts_bump_on (by rw [helse]; rfl)).bind fun keyword => Triple.kind_bind fun k =>
    Triple.ite (fun hif => ?_) fun _ => ?_
  · refine accounts_takeTrivia_on.bind fun leading => (accounts_head hl (by rw [hif]; rfl) _).bind fun next =>
      Triple.of_and fun hnext => Triple.pure fun c h => ⟨⟨?_, hnext⟩, ?_⟩
    · intro link hlink
      rcases List.mem_cons.mp hlink with rfl | hlink
      · exact hnone
      · exact hlinks link hlink
    · rw [Link.or_any_cons, Link.isBodiless]
      simpa [Link.chainParts, Link.parts] using h
  · refine ((accounts_body hl).of_imp fun _ h => h.1).bind fun body => Triple.of_and fun _ =>
      Triple.pure fun c h => ⟨hlinks, ?_⟩
    rw [Control.parts_with_alternate hnone]
    simpa [Alternate.parts, Control.blocks, Bool.or_assoc] using h

theorem accounts_control (hl : l.Accounts source) (hk : k.hasPlace = true) (form : ControlForm) :
    Triple (fun c => Account source ps flaw c ∧ c.kind = k) (l.control form) fun control =>
      Account source (ps ++ control.parts) (flaw || control.blocks.any Block.isBodiless) := by
  have hstart (first : Control Node) (c : Cursor) (h : (first.alternate = none ∧ first.body.Fresh) ∧
      Account source (ps ++ first.parts) (flaw || first.body.isBodiless) c) :
      AccountChain source ps flaw ([], first) c := by
    refine ⟨⟨fun link hlink => absurd hlink List.not_mem_nil, h.1⟩, ?_⟩
    rw [Link.chainParts, List.append_nil, List.any_nil, Bool.or_false]
    exact h.2
  refine (accounts_head hl hk form).bind fun first =>
    ((Triple.grow (accounts_linkRound hl) ([], first)).of_imp (hstart first)).bind fun (links, last) =>
    Triple.pure fun c h => h.2.close_chain h.1

/-! ### Statements -/

theorem accounts_returning (hl : l.Accounts source) (hk : k.hasPlace = true) :
    Triple (fun c => Account source ps flaw c ∧ c.kind = k) l.returning
      fun n => Account source (ps ++ [.node n]) flaw := by
  refine (accounts_bump_on hk).bind fun keyword => Triple.kind_bind fun k =>
    Triple.look_bind fun separate => Triple.ite (fun _ => ?_) fun _ => Triple.pure fun c h => ?_
  · refine ((hl.expression _ _).of_imp fun _ h => h.1.1).bind fun value =>
      Triple.pure fun c h => ?_
    apply Account.sound_node _ rfl rfl
    simpa [Node.parts] using h
  · exact Account.sound_node h.1.1 rfl rfl

theorem neverEmpty_returning (l : Level) : l.returning.NeverEmpty := by
  intro c
  simp only [returning, run_bind, run_kind, run_look, run_ite]
  split <;> rfl

theorem accounts_whole {P : Cursor → Prop} {inner : Rule Node} (hinner : inner.NeverEmpty)
    (h : Triple P inner fun n => Account source (ps ++ [.node n]) flaw) :
    Triple P (whole inner) fun n c => n.isStatement = true ∧ Account source (ps ++ [.node n]) flaw c := by
  intro c hc
  exact ⟨rfl, Account.command (hinner c) (h c hc).append_nil⟩

theorem accounts_ended {P : Cursor → Prop} {inner : Rule Node} (hinner : inner.NeverEmpty)
    (h : Triple P inner fun n => Account source (ps ++ [.node n]) flaw) :
    Triple P (ended inner) fun n c => n.isStatement = true ∧ Account source (ps ++ [.node n]) flaw c :=
  fun c hc => ⟨rfl, Account.command (hinner c) (accounts_optional rfl _ _ _ (h c hc))⟩

theorem accounts_emptyStatement :
    Triple (fun c => Account source ps flaw c ∧ c.kind = .symbol .semicolon) emptyStatement
      fun n c => n.isStatement = true ∧ Account source (ps ++ [.node n]) flaw c :=
  fun _ h => ⟨rfl, h.1.idleStatement h.2⟩

theorem accounts_unparsedStatement (nested : Bool) :
    Triple (Account source ps flaw) (unparsedStatement nested)
      fun n c => n.isStatement = true ∧ Account source (ps ++ [.node n]) flaw c := by
  have hreport (k : Kind) :
      Message.isFault (if k.isClosing then .unexpectedToken else .statementExpected) = true := by
    split <;> rfl
  refine Triple.kind_bind fun k => ((accounts_report (hreport k) []).of_imp fun _ h => h.1).bind fun _ =>
    accounts_bump_flawed.bind fun first => (accounts_lexemesUntil _).bind fun others =>
    Triple.pure fun c h => ⟨rfl, Account.unparsed ?_⟩
  rw [List.append_assoc] at h
  exact h

theorem accounts_statementHere (hl : l.Accounts source) (nested : Bool) :
    Triple (Account source ps flaw) (l.statementHere nested)
      fun n c => n.isStatement = true ∧ Account source (ps ++ [.node n]) flaw c := by
  refine Triple.kind_bind fun k => Triple.look_bind fun next => Triple.of_imp (P := fun c =>
    Account source ps flaw c ∧ c.kind = k) ?_ fun _ h => h.1
  have hexpression : Triple (fun c => Account source ps flaw c ∧ c.kind = k) (ended l.expression)
      fun n c => n.isStatement = true ∧ Account source (ps ++ [.node n]) flaw c :=
    accounts_ended hl.neverEmpty_expression ((hl.expression ps flaw).of_imp fun _ h => h.1)
  have hcontrol (hk : k.hasPlace = true) (form : ControlForm) :
      Triple (fun c => Account source ps flaw c ∧ c.kind = k) (whole (.combinator <$> l.control form))
        fun n c => n.isStatement = true ∧ Account source (ps ++ [.node n]) flaw c :=
    accounts_whole (fun _ => rfl) ((accounts_control hl hk form).to_imp fun _ _ => Account.combinator).map
  split
  case h_1 | h_2 | h_3 => exact accounts_ended (fun _ => rfl) (accounts_declaration hl rfl _)
  case h_4 =>
    split
    · exact accounts_whole (fun _ => rfl) (accounts_functionDeclaration hl rfl)
    · exact hexpression
  case h_5 | h_6 | h_7 => exact hcontrol rfl _
  case h_8 => exact accounts_ended (neverEmpty_returning l) (accounts_returning hl rfl)
  case h_9 => exact accounts_emptyStatement
  case h_10 =>
    split
    · exact hexpression
    · exact (accounts_unparsedStatement nested).of_imp fun _ h => h.1

end Level

end LosslessSyntax
