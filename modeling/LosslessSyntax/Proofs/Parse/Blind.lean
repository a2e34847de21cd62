import LosslessSyntax.Proofs.Parse.Coupled

/-! No rule sees trivia. From matching cursors every rule comes to the same tree, apart from blanks, comments and
what stands in front of lexemes. Trivia are looked at in two places only: a line break in front of `++` or `--`
and one behind `return`; and there matching cursors agree. -/

namespace LosslessSyntax

open Rule

namespace Level

/-- Whether nothing that may be asked of the level depends on trivia. -/
structure Blind (l : Level) : Prop where
  statement (nested : Bool) : Coupled (fun _ => True) Node.bare (l.statement nested) (l.statement nested)
  expression : Coupled (fun _ => True) Node.bare l.expression l.expression
  prefixed : Coupled (fun _ => True) Node.bare l.prefixed l.prefixed

variable {l : Level} (hl : l.Blind)
include hl

/-! ### Statement lists, blocks and functions -/

theorem blind_statements (nested : Bool) :
    Coupled (fun _ => True) Node.bareStatements (l.statements nested) (l.statements nested) := by
  have hround : Coupled (fun _ => True) (fun t => (Node.bareStatements t.1, t.2)) (l.statementsRound nested)
      (l.statementsRound nested) := by
    refine Coupled.takeTrivia.bind fun trivia trivia' htrivia => Coupled.kind_bind fun k _ =>
      Coupled.ite (fun _ => .pure (by rw [htrivia])) fun _ => ?_
    refine (hl.statement nested).always_on.bind fun n m hnm => .pure ?_
    have hsort : n.isTrivia = m.isTrivia := by rw [← Node.isTrivia_bare, hnm, Node.isTrivia_bare]
    simp [htrivia, Node.bareStatements_cons, hsort, hnm]
  have hF {as as' bs bs' : List Node} (has : Node.bareStatements as = Node.bareStatements as')
      (hbs : Node.bareStatements bs = Node.bareStatements bs') :
      Node.bareStatements (as ++ bs) = Node.bareStatements (as' ++ bs') := by
    rw [Node.bareStatements_append, Node.bareStatements_append, has, hbs]
  refine (Coupled.collect hF hround).bind fun nodes nodes' hnodes => .pure ?_
  rw [Node.bareStatements_attachTrailing, Node.bareStatements_attachTrailing, hnodes]

theorem blind_block : Coupled (fun _ => True) Block.bare l.block l.block := by
  refine (Coupled.expect_isMissing _).bind fun opening opening' hopening => ?_
  obtain ⟨hbare, hmissing⟩ := Prod.mk.inj hopening
  rw [hmissing]
  refine Coupled.ite (fun _ => .pure (by simp [hbare])) fun _ => ?_
  refine (blind_statements hl true).bind fun statements statements' hstatements => (Coupled.expect _).bind
    fun closing closing' hclosing => .pure ?_
  have hlist : (Node.bareAll statements).filter (!·.isTrivia) = (Node.bareAll statements').filter (!·.isTrivia) :=
    hstatements
  simp [hbare, hlist, hclosing]

theorem blind_function : Coupled (fun _ => True) Function.bare l.function l.function := by
  have hparameter : Coupled (fun _ => True) (Option.map Lexeme.bare) parameter parameter :=
    Coupled.kind_bind fun _ _ => Coupled.ite (fun _ => .map (Coupled.bump.of_imp fun _ _ h => congrArg some h)) fun _ =>
      Coupled.ite (fun _ => .pure rfl) fun _ => (Coupled.report _ _).bind fun _ _ _ => .pure rfl
  refine (Coupled.expect _).bind fun opening opening' hopening => (Coupled.separated hparameter).bind
    fun (parameters, commas) (parameters', commas') hparameters => (Coupled.expect _).bind
      fun closing closing' hclosing => (blind_block hl).bind fun block block' hblock => .pure ?_
  obtain ⟨hnames, hcommas⟩ := Prod.mk.inj hparameters
  simp [hopening, hnames, hcommas, hclosing, hblock]

/-! ### Expressions -/

theorem blind_expressions (closing : Symbol) :
    Coupled (fun _ => True) (fun t => (t.1.map Node.bare, t.2.map Lexeme.bare)) (l.expressions closing)
      (l.expressions closing) := by
  refine Coupled.separated (Coupled.kind_bind fun k _ => Coupled.ite (fun _ => .pure rfl) fun _ => .map ?_)
  exact hl.expression.always_on.of_imp fun _ _ h => congrArg some h

theorem blind_field : Coupled (fun _ => True) (Option.map Field.bare) l.field l.field := by
  have hkey : Coupled (fun _ => True) (Option.map Lexeme.bare) fieldKey fieldKey :=
    Coupled.kind_bind fun _ _ => Coupled.ite (fun _ => .map (Coupled.bump.of_imp fun _ _ h => congrArg some h)) fun _ =>
      (Coupled.report _ _).bind fun _ _ _ => .pure rfl
  refine Coupled.kind_bind fun k _ => Coupled.ite (fun _ => .pure rfl) fun _ => hkey.always_on.bind
    fun key key' hkey => ?_
  cases key with
  | none =>
      cases key' with
      | none => exact .pure rfl
      | some key' => cases hkey
  | some key =>
      cases key' with
      | none => cases hkey
      | some key' =>
          refine (Coupled.expect _).bind fun colon colon' hcolon =>
            hl.expression.bind fun value value' hvalue => .pure ?_
          simp [Option.some.inj hkey, hcolon, hvalue]

theorem blind_primary : Coupled (fun _ => True) Node.bare l.primary l.primary := by
  refine Coupled.kind_bind fun k _ => ?_
  split
  case h_8 =>
    refine Coupled.bump.bind fun opening opening' hopening => hl.expression.bind fun inner inner' hinner =>
      (Coupled.expect _).bind fun closing closing' hclosing => .pure ?_
    simp [hopening, hinner, hclosing]
  case h_9 =>
    refine Coupled.bump.bind fun opening opening' hopening => (Coupled.separated (blind_field hl)).bind
      fun (fields, commas) (fields', commas') hfields =>
        (Coupled.expect _).bind fun closing closing' hclosing => .pure ?_
    obtain ⟨hfields, hcommas⟩ := Prod.mk.inj hfields
    simp [Field.bareAll_eq, hopening, hfields, hcommas, hclosing]
  case h_10 =>
    refine Coupled.bump.bind fun opening opening' hopening => (blind_expressions hl _).bind
      fun (elements, commas) (elements', commas') helements =>
        (Coupled.expect _).bind fun closing closing' hclosing => .pure ?_
    obtain ⟨helements, hcommas⟩ := Prod.mk.inj helements
    simp [Node.bareAll_eq, hopening, helements, hcommas, hclosing]
  case h_11 =>
    refine Coupled.bump.bind fun keyword keyword' hkeyword => (Coupled.optional _).bind fun name name' hname =>
      (blind_function hl).bind fun body body' hbody => .pure ?_
    simp [hkeyword, hname, hbody]
  case h_12 =>
    refine (Coupled.report _ _).bind fun _ _ _ => Coupled.kind_bind fun _ _ => Coupled.ite (fun _ => .pure rfl) fun _ =>
      Coupled.bump.bind fun lexeme lexeme' h => .pure (by simp [h])
  all_goals exact .map (Coupled.bump.of_imp fun _ _ h => by simp [h])

theorem blind_suffixRound {base base' : Node} (hbase : base.bare = base'.bare) :
    Coupled (fun _ => True) (fun t => (t.1.bare, t.2)) (l.suffixRound base) (l.suffixRound base') := by
  have hname : Coupled (fun _ => True) Lexeme.bare fieldName fieldName :=
    Coupled.kind_bind fun _ _ => Coupled.ite (fun _ => Coupled.bump) fun _ => (Coupled.report _ _).bind fun _ _ _ =>
      .pure rfl
  refine Coupled.kind_bind fun k _ => ?_
  split
  · refine Coupled.bump.bind fun dot dot' hdot => hname.bind fun field field' hfield => .pure ?_
    simp [hbase, hdot, hfield]
  · refine Coupled.bump.bind fun opening opening' hopening => hl.expression.bind fun subscript subscript' hsubscript =>
      (Coupled.expect _).bind fun closing closing' hclosing => .pure ?_
    simp [hbase, hopening, hsubscript, hclosing]
  · refine Coupled.bump.bind fun opening opening' hopening => (blind_expressions hl _).bind
      fun (arguments, commas) (arguments', commas') harguments =>
        (Coupled.expect _).bind fun closing closing' hclosing => .pure ?_
    obtain ⟨harguments, hcommas⟩ := Prod.mk.inj harguments
    simp [Node.bareAll_eq, hbase, hopening, harguments, hcommas, hclosing]
  · exact .pure (by rw [hbase])

theorem blind_postfixed : Coupled (fun _ => True) Node.bare l.postfixed l.postfixed := by
  have hsuffixed : Coupled (fun _ => True) Node.bare l.suffixed l.suffixed :=
    (blind_primary hl).bind fun _ _ hbase => Coupled.grow (fun _ _ h => blind_suffixRound hl h) hbase
  refine hsuffixed.bind fun operand operand' hoperand => Coupled.kind_bind fun k _ =>
    Coupled.lineBreak_bind (fun hk b b' => by simp [hk]) fun separate => ?_
  refine Coupled.ite (fun _ => Coupled.bump.bind fun symbol symbol' hsymbol => .pure ?_) fun _ => .pure hoperand
  simp [hoperand, hsymbol]

theorem blind_unary : Coupled (fun _ => True) Node.bare l.unary l.unary :=
  Coupled.kind_bind fun _ _ => Coupled.ite (fun _ => hl.prefixed.always_on) fun _ => (blind_postfixed hl).always_on

theorem blind_binary (minimum : Nat) :
    Coupled (fun _ => True) Node.bare (l.binary minimum) (l.binary minimum) := by
  induction minimum using Tier.induction with
  | h minimum ih =>
      rw [binary_eq]
      refine (blind_unary hl).bind fun first first' hfirst =>
        Coupled.grow (fun left left' hleft => Coupled.kind_bind fun k _ => ?_) hfirst
      split
      · next tier _ =>
          split
          · next hlt =>
              refine Coupled.bump.bind fun symbol symbol' hsymbol => (ih tier hlt).bind fun right right' hright =>
                .pure ?_
              simp [hleft, hsymbol, hright]
          · exact .pure (by rw [hleft])
      · exact .pure (by rw [hleft])

theorem blind_assignment : Coupled (fun _ => True) Node.bare l.assignment l.assignment := by
  refine (blind_binary hl _).bind fun target target' htarget => Coupled.kind_bind fun k _ =>
    Coupled.ite (fun _ => ?_) fun _ => .pure htarget
  refine Coupled.bump.bind fun operator operator' hoperator => hl.expression.bind fun value value' hvalue => .pure ?_
  simp [htarget, hoperator, hvalue]

theorem blind_operation : Coupled (fun _ => True) Node.bare l.operation l.operation := by
  refine Coupled.bump.bind fun symbol symbol' hsymbol => (blind_unary hl).bind fun operand operand' hoperand => .pure ?_
  simp [hsymbol, hoperand]

/-! ### Declarations -/

theorem blind_declarator (form : DeclarationForm) {lead lead' : Lexeme} (hlead : lead.bare = lead'.bare) :
    Coupled (fun _ => True) Declarator.bare (l.declarator form lead) (l.declarator form lead') := by
  refine Coupled.expectIdentifier.bind fun name name' hname =>
    (Coupled.optional _).bind fun equals equals' hequals => ?_
  cases equals with
  | none =>
      cases equals' with
      | none => exact .pure (by simp [Declarator.bareAll, hlead, hname])
      | some _ => cases hequals
  | some equals =>
      cases equals' with
      | none => cases hequals
      | some equals' =>
          refine hl.expression.bind fun value value' hvalue => .pure ?_
          simp [Declarator.bareAll, hlead, hname, Option.some.inj hequals, hvalue]

theorem blind_declaration (form : DeclarationForm) :
    Coupled (fun _ => True) Node.bare (l.declaration form) (l.declaration form) := by
  have hround : Coupled (fun _ => True) (fun t => (t.1.map Declarator.bare, t.2)) (l.declaratorRound form)
      (l.declaratorRound form) := by
    refine (Coupled.optional _).bind fun comma comma' hcomma => ?_
    cases comma with
    | none =>
        cases comma' with
        | none => exact .pure rfl
        | some _ => cases hcomma
    | some lead =>
        cases comma' with
        | none => cases hcomma
        | some lead' =>
            exact (blind_declarator hl form (Option.some.inj hcomma)).bind fun d d' hd => .pure (by simp [hd])
  refine Coupled.bump.bind fun keyword keyword' hkeyword => (blind_declarator hl form hkeyword).bind
    fun first first' hfirst => (Coupled.collect_map hround).bind fun additional additional' hadditional => .pure ?_
  rw [Node.bare, Node.bare, Declarator.bare_withAdditional, Declarator.bare_withAdditional, hfirst, hadditional]

theorem blind_functionDeclaration : Coupled (fun _ => True) Node.bare l.functionDeclaration l.functionDeclaration := by
  refine Coupled.bump.bind fun keyword keyword' hkeyword => Coupled.expectIdentifier.bind fun name name' hname =>
    (blind_function hl).bind fun body body' hbody => .pure ?_
  simp [hkeyword, hname, hbody]

/-! ### Control flow -/

theorem blind_body : Coupled (fun _ => True) Block.bare l.body l.body := by
  have hunbraced {statements statements' : List Node}
      (h : Node.bareStatements statements = Node.bareStatements statements') :
      Block.bare ⟨none, statements, none, []⟩ = Block.bare ⟨none, statements', none, []⟩ :=
    congrArg (Block.mk none · none []) h
  refine Coupled.kind_bind fun k _ => Coupled.ite (fun _ => (blind_block hl).always_on) fun _ =>
    Coupled.takeTrivia.bind fun trivia trivia' htrivia => Coupled.ite (fun _ => ?_) fun _ =>
      (Coupled.report _ _).bind fun _ _ _ => .pure (hunbraced htrivia)
  refine (hl.statement true).bind fun n m hnm => .pure (hunbraced ?_)
  have hsort : n.isTrivia = m.isTrivia := by rw [← Node.isTrivia_bare, hnm, Node.isTrivia_bare]
  simp [htrivia, Node.bareStatements_cons, hsort, hnm]

theorem blind_clause (first : Bool) : Coupled (fun _ => True) Node.bare (l.clause first) (l.clause first) := by
  refine Coupled.kind_bind fun k _ => Coupled.ite (fun _ => .pure rfl) fun _ => ?_
  split
  · exact (blind_declaration hl _).always_on
  · exact hl.expression.always_on

theorem blind_header (form : ControlForm) :
    Coupled (fun _ => True) (fun t => (t.1.map Node.bare, t.2.map Lexeme.bare)) (l.header form) (l.header form) := by
  cases form with
  | forForm =>
      refine (blind_clause hl true).bind fun initial initial' hinitial => (Coupled.expect _).bind
        fun first first' hfirst => (blind_clause hl false).bind fun condition condition' hcondition =>
          (Coupled.expect _).bind fun second second' hsecond => (blind_clause hl false).bind fun step step' hstep =>
            .pure ?_
      simp [hinitial, hfirst, hcondition, hsecond, hstep]
  | _ => exact hl.expression.bind fun condition condition' hcondition => .pure (by simp [hcondition])

theorem blind_head (form : ControlForm) : Coupled (fun _ => True) Control.bare (l.head form) (l.head form) := by
  refine Coupled.bump.bind fun keyword keyword' hkeyword => (Coupled.expect _).bind fun opening opening' hopening =>
    (blind_header hl form).bind fun (header, separators) (header', separators') hheader => (Coupled.expect _).bind
      fun closing closing' hclosing => (blind_body hl).bind fun body body' hbody => .pure ?_
  obtain ⟨hclauses, hseparators⟩ := Prod.mk.inj hheader
  simp [Control.bare, Node.bareAll_eq, hkeyword, hopening, hclauses, hseparators, hclosing, hbody]

omit hl

end Level

/-! ### Chains of choices -/

namespace Control

/-- Everything but the `else` branch of a choice stays when the choice gets another one. -/
theorem bare_with_alternate (c : Control Node) (comments : List Node) (a : Alternate Node) :
    Control.bare { c with body := c.body.attach comments, alternate := some a } =
      { c.bare with alternate := some ⟨a.keyword.bare, a.body.bare⟩ } := by
  obtain ⟨form, keyword, opening, header, separators, closing, body, alternate⟩ := c
  simp [bare, Block.bare_attach]

theorem bare_attach (c : Control Node) (comments : List Node) :
    Control.bare { c with body := c.body.attach comments } = c.bare := by
  obtain ⟨form, keyword, opening, header, separators, closing, body, alternate⟩ := c
  simp [bare, Block.bare_attach]

theorem form_bare (c : Control Node) : c.bare.form = c.form := by
  obtain ⟨form, keyword, opening, header, separators, closing, body, alternate⟩ := c
  rfl

end Control

/-- The link without trivia. -/
def Link.bare (link : Link) : Link := ⟨link.control.bare, link.keyword.bare, Node.bareStatements link.leading⟩

theorem Link.bare_close (link : Link) (inner : Control Node) :
    (link.close inner).bare = link.bare.close inner.bare := by
  obtain ⟨⟨form, keyword, opening, header, separators, closing, body, alternate⟩, word, leading⟩ := link
  have hbranch : (Node.bareAll (leading ++ [.command (.combinator inner) none []])).filter (!·.isTrivia) =
      Node.bareStatements leading ++ [.command (.combinator inner.bare) none []] :=
    Node.bareStatements_append leading [.command (.combinator inner) none []]
  simp [close, bare, Control.bare, hbranch]

theorem Link.bare_chain (links : List Link) (last : Control Node) :
    (links.foldl (fun inner link => link.close inner) last).bare =
      (links.map Link.bare).foldl (fun inner link => link.close inner) last.bare := by
  induction links generalizing last with
  | nil => rfl
  | cons link outer ih => rw [List.foldl_cons, ih, Link.bare_close, List.map_cons, List.foldl_cons]

namespace Level

variable {l : Level} (hl : l.Blind)
include hl

theorem blind_linkRound {s s' : List Link × Control Node}
    (hs : (s.1.map Link.bare, s.2.bare) = (s'.1.map Link.bare, s'.2.bare)) :
    Coupled (fun _ => True) (fun t => ((t.1.1.map Link.bare, t.1.2.bare), t.2)) (l.linkRound s) (l.linkRound s') := by
  obtain ⟨hlinks, hlast⟩ := Prod.mk.inj hs
  have hform : s.2.form = s'.2.form := by rw [← s.2.form_bare, hlast, s'.2.form_bare]
  refine Coupled.kind_bind fun k _ => ?_
  rw [hform]
  refine Coupled.ite (fun hk => ?_) fun _ => .pure (by rw [hlinks, hlast])
  -- The comments taken here go into a closure; that they end at `else` keeps the cursors matching.
  have helse : k = .keyword .elseWord := by simpa using (Bool.and_eq_true_iff.mp hk).2
  refine (Coupled.takeTrailing.on fun j hj => hj.trans helse).bind fun comments comments' _ => Coupled.bump.bind
    fun keyword keyword' hkeyword => Coupled.kind_bind fun k _ => Coupled.ite (fun _ => ?_) fun _ => ?_
  · refine Coupled.takeTrivia.bind fun leading leading' hleading => (blind_head hl .ifForm).bind
      fun next next' hnext => .pure ?_
    simp [Link.bare, Control.bare_attach, hlinks, hlast, hkeyword, hleading, hnext]
  · refine (blind_body hl).always_on.bind fun body body' hbody => .pure ?_
    simp only [Control.bare_with_alternate, hlinks, hlast, hkeyword, hbody]

theorem blind_control (form : ControlForm) :
    Coupled (fun _ => True) Control.bare (l.control form) (l.control form) := by
  refine (blind_head hl form).bind fun first first' hfirst => ?_
  refine (Coupled.grow (φ := fun s : List Link × Control Node => (s.1.map Link.bare, s.2.bare))
    (fun _ _ hs => blind_linkRound hl hs) (by rw [hfirst])).bind fun (links, last) (links', last') hchain => .pure ?_
  obtain ⟨hlinks, hlast⟩ := Prod.mk.inj hchain
  rw [Link.bare_chain, Link.bare_chain, hlinks, hlast]

/-! ### Statements -/

theorem blind_returning : Coupled (· = .keyword .returnWord) Node.bare l.returning l.returning := by
  refine Coupled.return_bind (fun _ k hk _ _ => by simp [hk]) fun keyword keyword' hkeyword k separate =>
    Coupled.ite (fun _ => hl.expression.bind fun value value' hvalue => .pure ?_) fun _ => .pure ?_
  · simp [hkeyword, hvalue]
  · simp [hkeyword]

theorem blind_statementHere (nested : Bool) :
    Coupled (fun _ => True) Node.bare (l.statementHere nested) (l.statementHere nested) := by
  have hended {p : Kind → Prop} {inner : Rule Node} (h : Coupled p Node.bare inner inner) :
      Coupled p Node.bare (ended inner) (ended inner) :=
    h.bind fun n n' hn => (Coupled.optional _).bind fun s s' hs => .pure (by simp [hn, hs])
  have hwhole {p : Kind → Prop} {inner : Rule Node} (h : Coupled p Node.bare inner inner) :
      Coupled p Node.bare (whole inner) (whole inner) :=
    h.bind fun n n' hn => .pure (by simp [hn])
  have hcontrol (form : ControlForm) : Coupled (fun _ => True) Node.bare (whole (.combinator <$> l.control form))
      (whole (.combinator <$> l.control form)) :=
    hwhole (.map ((blind_control hl form).of_imp fun _ _ h => by simp [h]))
  refine Coupled.kind_bind fun k _ => Coupled.nextKind_bind fun next => ?_
  split
  case h_1 | h_2 | h_3 => exact (hended (blind_declaration hl _)).always_on
  case h_4 =>
    exact Coupled.ite (fun _ => (hwhole (blind_functionDeclaration hl)).always_on) fun _ =>
      (hended hl.expression).always_on
  case h_5 | h_6 | h_7 => exact (hcontrol _).always_on
  case h_8 => exact hended (blind_returning hl)
  case h_9 =>
    refine (Coupled.report _ _).bind fun _ _ _ => Coupled.bump.bind fun semicolon semicolon' h => .pure ?_
    simp [h]
  case h_10 =>
    refine Coupled.ite (fun _ => (hended hl.expression).always_on) fun _ => Coupled.kind_bind fun k _ =>
      (Coupled.report _ _).bind fun _ _ _ => Coupled.bump.bind fun first first' hfirst =>
        (Coupled.lexemesUntil _).bind fun others others' hothers => .pure ?_
    simp [hfirst, hothers]

omit hl

/-! ### All levels -/

theorem blind_refuse (limit : Nat) : Coupled (fun _ => True) Node.bare (refuse limit) (refuse limit) :=
  (Coupled.report _ _).bind fun _ _ _ => Coupled.giveUp.bind fun _ _ _ => .pure rfl

theorem blind_ofRemaining (limit remaining : Nat) : (ofRemaining limit remaining).Blind := by
  induction remaining with
  | zero => exact ⟨fun _ => blind_refuse limit, blind_refuse limit, blind_refuse limit⟩
  | succ remaining ih => exact ⟨blind_statementHere ih, blind_assignment ih, blind_operation ih⟩

end Level

end LosslessSyntax
