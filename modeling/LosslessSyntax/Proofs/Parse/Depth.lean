import LosslessSyntax.Proofs.Parse.Chain
import LosslessSyntax.Proofs.Parse.Limited

/-! Limits on levels. With `r` more levels every rule does what it does without a limit, unless the node that it
comes to there nests deeper than `r`; and then it gives up. Comments between statements do not count, and neither
do those that move into closures on the way. -/

namespace LosslessSyntax

open Rule Node

/-- Whether no initial value of the declarator or of those chained to it nests too deep. -/
def Declarator.Fits (r : Nat) (d : Declarator Node) : Prop := Fit r (d.children.map (1, ·))

/-- Declarators that are chained to another one nest next to it. -/
theorem Declarator.fits_withAdditional {r : Nat} {d : Declarator Node} (hd : d.additional = [])
    {ds : List (Declarator Node)} : (d.withAdditional ds).Fits r ↔ d.Fits r ∧ ∀ e ∈ ds, e.Fits r := by
  obtain ⟨_, _, _, initializer, additional⟩ := d
  cases hd
  simp only [Fits, withAdditional, children, chainChildren_eq, List.flatMap_nil, List.append_nil, List.map_append,
    fit_append, fit_map, List.forall_mem_flatMap]

namespace Level

/-- Whether `l` does with `r` more levels what `L` does. -/
structure Limits (l L : Level) (r : Nat) : Prop where
  sorted : L.Sorted
  statement (nested : Bool) (fits : Prop) :
    Limited (fun _ => True) fits (l.statement nested) (L.statement nested) fun n => fits ∧ 1 + n.nesting ≤ r
  expression (fits : Prop) : Limited (fun _ => True) fits l.expression L.expression fun n => fits ∧ 1 + n.nesting ≤ r
  prefixed (fits : Prop) : Limited (fun _ => True) fits l.prefixed L.prefixed fun n => fits ∧ n.nesting ≤ r

variable {l L : Level} {r : Nat} {p : Kind → Prop} {fits : Prop} (h : l.Limits L r)
include h

/-! ### Statement lists, blocks and functions -/

theorem limited_statements (nested : Bool) (fits : Prop) :
    Limited (fun _ => True) fits (l.statements nested) (L.statements nested)
      fun ns => fits ∧ Fit r (ns.map entryStep) := by
  have hround (fits : Prop) : Limited (fun _ => True) fits (l.statementsRound nested) (L.statementsRound nested)
      fun t => fits ∧ Fit r (t.1.map entryStep) := by
    refine Limited.bind (.plain _) isTrivia_takeTrivia fun trivia htrivia => Limited.kind_bind fun k _ => ?_
    have hfit : Fit r (trivia.map entryStep) := fit_of_isTrivia htrivia fun _ => entryStep_of_isTrivia
    refine Limited.ite (fun _ => .pure (and_iff_left hfit)) fun _ => ?_
    refine (h.statement nested fits).always_on.bind (h.sorted.isTrivia_statement nested).always_on
      fun statement hstatement => Limited.pure ?_
    simp [hfit, entryStep, hstatement]
  refine (Limited.collect (F := fun ns => Fit r (ns.map entryStep)) (by simp) hround).bind_any fun nodes => .pure ?_
  rw [fit_attachTrailing]

theorem limited_block (fits : Prop) : Limited (fun _ => True) fits l.block L.block fun b => fits ∧ Fit r b.steps := by
  refine Limited.plain_bind fun opening => Limited.ite (fun _ => .pure (by simp [Block.steps])) fun _ => ?_
  exact (limited_statements h true fits).bind_any fun _ => Limited.plain_bind fun _ => .pure Iff.rfl

theorem limited_function (fits : Prop) :
    Limited (fun _ => True) fits l.function L.function fun f => fits ∧ Fit r f.block.steps :=
  Limited.plain_bind fun _ => Limited.plain_bind fun _ => Limited.plain_bind fun _ =>
    (limited_block h fits).bind_any fun _ => .pure Iff.rfl

/-! ### Expressions -/

theorem limited_expressions (closing : Symbol) (fits : Prop) :
    Limited (fun _ => True) fits (l.expressions closing) (L.expressions closing)
      fun t => fits ∧ Fit r (t.1.map (1, ·)) := by
  refine (Limited.separated (F := fun n => 1 + n.nesting ≤ r) fun fits => ?_).congr_any fun t => by rw [fit_map]
  refine Limited.kind_bind fun k _ => Limited.ite (fun _ => .pure (by simp)) fun _ => Limited.map ?_
  exact (h.expression fits).always_on.congr_any fun n => by simp

theorem limited_field (fits : Prop) :
    Limited (fun _ => True) fits l.field L.field fun o => fits ∧ ∀ f ∈ o, 1 + f.value.nesting ≤ r := by
  refine Limited.kind_bind fun k _ => Limited.ite (fun _ => .pure (by simp)) fun _ => Limited.plain_bind fun key => ?_
  cases key with
  | none => exact .pure (by simp)
  | some key =>
      exact Limited.plain_bind fun _ => (h.expression fits).bind_any fun _ => .pure (by simp)

theorem limited_primary (fits : Prop) :
    Limited (fun _ => True) fits l.primary L.primary fun n => fits ∧ n.nesting ≤ r := by
  have hleaf (n : Node) (hn : n.opens = 0 ∧ n.steps = []) : fits ∧ n.nesting ≤ r ↔ fits := by
    rw [nesting_le_iff hn.1, hn.2]
    simp
  refine Limited.kind_bind fun k _ => ?_
  split
  case h_8 =>
    refine Limited.plain_bind fun opening => (h.expression fits).bind_any fun inner =>
      Limited.plain_bind fun closing => .pure ?_
    rw [nesting_le_iff rfl]
    simp [steps]
  case h_9 =>
    refine Limited.plain_bind fun opening => (Limited.separated (limited_field h)).bind_any ?_
    rintro ⟨fields, commas⟩
    refine Limited.plain_bind fun closing => .pure ?_
    rw [nesting_le_iff rfl]
    simp [steps, fit_map]
  case h_10 =>
    refine Limited.plain_bind fun opening => (limited_expressions h _ fits).bind_any ?_
    rintro ⟨elements, commas⟩
    refine Limited.plain_bind fun closing => .pure ?_
    rw [nesting_le_iff rfl]
    simp [steps]
  case h_11 =>
    refine Limited.plain_bind fun _ => Limited.plain_bind fun _ =>
      (limited_function h fits).bind_any fun body => .pure ?_
    rw [nesting_le_iff rfl]
    simp [steps]
  case h_12 =>
    refine Limited.plain_bind fun _ => Limited.kind_bind fun _ _ => Limited.ite (fun _ => .pure (hleaf _ ⟨rfl, rfl⟩))
      fun _ => Limited.plain_bind fun _ => .pure (hleaf _ ⟨rfl, rfl⟩)
  all_goals exact Limited.map ((Limited.plain _).congr_any fun _ => hleaf _ ⟨rfl, rfl⟩)

theorem limited_suffixRound (base : Node) :
    Limited (fun _ => True) (fits ∧ base.nesting ≤ r) (l.suffixRound base) (L.suffixRound base)
      fun t => fits ∧ t.1.nesting ≤ r := by
  refine Limited.kind_bind fun k _ => ?_
  split
  · refine Limited.plain_bind fun dot => Limited.plain_bind fun field => .pure ?_
    rw [nesting_le_iff rfl]
    simp [steps]
  · refine Limited.plain_bind fun opening => (h.expression _).bind_any fun subscript =>
      Limited.plain_bind fun closing => .pure ?_
    rw [nesting_le_iff rfl]
    simp [steps, and_assoc]
  · refine Limited.plain_bind fun opening => (limited_expressions h _ _).bind_any ?_
    rintro ⟨arguments, commas⟩
    refine Limited.plain_bind fun closing => .pure ?_
    rw [nesting_le_iff rfl]
    simp [steps, and_assoc]
  · exact .pure Iff.rfl

theorem limited_postfixed (fits : Prop) :
    Limited (fun _ => True) fits l.postfixed L.postfixed fun n => fits ∧ n.nesting ≤ r := by
  have hsuffixed : Limited (fun _ => True) fits l.suffixed L.suffixed fun n => fits ∧ n.nesting ≤ r :=
    (limited_primary h fits).bind_any fun _ =>
      Limited.grow_any (F := fun n : Node => fits ∧ n.nesting ≤ r) (limited_suffixRound h) _
  refine hsuffixed.bind_any fun operand => Limited.kind_bind fun k _ => Limited.look_bind fun separate =>
    Limited.ite (fun _ => Limited.plain_bind fun symbol => .pure ?_) fun _ => .pure Iff.rfl
  rw [nesting_le_iff rfl]
  simp [steps]

theorem limited_unary (fits : Prop) :
    Limited (fun _ => True) fits l.unary L.unary fun n => fits ∧ n.nesting ≤ r :=
  Limited.kind_bind fun _ _ => Limited.ite (fun _ => (h.prefixed fits).always_on) fun _ =>
    (limited_postfixed h fits).always_on

theorem limited_binary (minimum : Nat) (fits : Prop) :
    Limited (fun _ => True) fits (l.binary minimum) (L.binary minimum) fun n => fits ∧ n.nesting ≤ r := by
  induction minimum using Tier.induction generalizing fits with
  | h minimum ih =>
      rw [binary_eq, binary_eq]
      refine (limited_unary h fits).bind_any fun first =>
        Limited.grow_any (F := fun n : Node => fits ∧ n.nesting ≤ r) (fun left => Limited.kind_bind fun k _ => ?_) first
      split
      · next tier _ =>
          split
          · next hlt =>
              refine Limited.plain_bind fun symbol => (ih tier hlt _).bind_any fun right => .pure ?_
              rw [nesting_le_iff rfl]
              simp [steps, and_assoc]
          · exact .pure Iff.rfl
      · exact .pure Iff.rfl

theorem limited_assignment (fits : Prop) :
    Limited (fun _ => True) fits l.assignment L.assignment fun n => fits ∧ n.nesting ≤ r := by
  refine (limited_binary h _ fits).bind_any fun target => Limited.kind_bind fun k _ =>
    Limited.ite (fun _ => Limited.plain_bind fun operator => (h.expression _).bind_any fun value => .pure ?_)
      fun _ => .pure Iff.rfl
  rw [nesting_le_iff rfl]
  simp [steps, and_assoc]

/-- An operator in front of its operand is a level of its own. -/
theorem limited_operation (fits : Prop) :
    Limited (fun _ => True) fits l.operation L.operation fun n => fits ∧ n.nesting ≤ r + 1 := by
  refine Limited.plain_bind fun symbol => (limited_unary h fits).bind_any fun operand => .pure ?_
  have hsteps : (Node.operator none symbol (some operand)).nesting = 1 + deepest [(0, operand)] := nesting_eq _
  rw [hsteps, Nat.add_comm, Nat.add_le_add_iff_right, deepest_le_iff]
  simp

/-! ### Declarations -/

theorem limited_declarator (form : DeclarationForm) (lead : Lexeme) (fits : Prop) :
    Limited (fun _ => True) fits (l.declarator form lead) (L.declarator form lead) fun d => fits ∧ d.Fits r := by
  refine Limited.plain_bind fun name => Limited.plain_bind fun equals => ?_
  cases equals with
  | none => exact .pure (by simp [Declarator.Fits, Declarator.children, Declarator.chainChildren])
  | some equals =>
      exact (h.expression fits).bind_any fun value =>
        .pure (by simp [Declarator.Fits, Declarator.children, Declarator.chainChildren])

theorem limited_declaration (form : DeclarationForm) (fits : Prop) :
    Limited (fun _ => True) fits (l.declaration form) (L.declaration form) fun n => fits ∧ Fit r [n.contentStep] := by
  have hround (fits : Prop) : Limited (fun _ => True) fits (l.declaratorRound form) (L.declaratorRound form)
      fun t => fits ∧ ∀ d ∈ t.1, d.Fits r := by
    refine Limited.plain_bind fun comma => ?_
    cases comma with
    | none => exact .pure (by simp)
    | some lead => exact (limited_declarator h form lead fits).bind_any fun d => .pure (by simp)
  refine Limited.plain_bind fun keyword => (limited_declarator h form keyword fits).bind
    (additional_declarator L form keyword) fun first hfirst => ?_
  refine (Limited.collect (F := fun ds => ∀ d ∈ ds, d.Fits r) (fun _ _ => List.forall_mem_append) hround).bind_any
    fun additional => .pure ?_
  rw [fit_contentStep_other rfl rfl, and_assoc]
  exact and_congr_right fun _ => Declarator.fits_withAdditional hfirst

theorem limited_functionDeclaration (fits : Prop) :
    Limited (fun _ => True) fits l.functionDeclaration L.functionDeclaration
      fun n => fits ∧ Fit r [n.contentStep] := by
  refine Limited.plain_bind fun _ => Limited.plain_bind fun _ =>
    (limited_function h fits).bind_any fun body => .pure ?_
  rw [fit_contentStep_other rfl rfl]
  rfl

/-! ### Control flow -/

theorem limited_body (fits : Prop) : Limited (fun _ => True) fits l.body L.body fun b => fits ∧ Fit r b.steps := by
  refine Limited.kind_bind fun k _ => Limited.ite (fun _ => (limited_block h fits).always_on) fun _ => ?_
  refine Limited.bind (.plain _) isTrivia_takeTrivia.always_on fun trivia htrivia => ?_
  have hfit : Fit r (trivia.map entryStep) := fit_of_isTrivia htrivia fun _ => entryStep_of_isTrivia
  refine Limited.ite (fun _ => ?_) fun _ => Limited.plain_bind fun _ => .pure (and_iff_left hfit)
  refine (h.statement true fits).bind (h.sorted.isTrivia_statement true) fun statement hstatement => .pure ?_
  simp [Block.steps, hfit, entryStep, hstatement]

theorem limited_clause (first : Bool) (fits : Prop) :
    Limited (fun _ => True) fits (l.clause first) (L.clause first) fun n => fits ∧ Fit r [n.contentStep] := by
  have hempty : Fit r [Node.empty.contentStep] := by
    rw [fit_cons, contentStep, nesting_eq]
    exact ⟨Nat.zero_le r, fit_nil⟩
  refine Limited.kind_bind fun k _ => Limited.ite (fun _ => .pure (and_iff_left hempty)) fun _ => ?_
  split
  · exact (limited_declaration h _ fits).always_on
  · exact (h.expression fits).always_on.congr h.sorted.isExpression_expression.always_on fun n hn => by
      rw [fit_contentStep_expression hn]

theorem limited_header (form : ControlForm) (fits : Prop) :
    Limited (fun _ => True) fits (l.header form) (L.header form) fun t => fits ∧ Fit r (t.1.map contentStep) := by
  cases form with
  | forForm =>
      refine (limited_clause h true fits).bind_any fun initial => Limited.plain_bind fun _ =>
        (limited_clause h false _).bind_any fun condition => Limited.plain_bind fun _ =>
          (limited_clause h false _).bind_any fun step => .pure ?_
      simp [and_assoc]
  | _ =>
      refine (h.expression fits).bind h.sorted.isExpression_expression fun condition hcondition => .pure ?_
      rw [List.map_singleton, fit_contentStep_expression hcondition]

theorem limited_head (form : ControlForm) (fits : Prop) :
    Limited (fun _ => True) fits (l.head form) (L.head form) fun c => fits ∧ Fit r c.ownSteps := by
  refine Limited.plain_bind fun _ => Limited.plain_bind fun _ => (limited_header h form fits).bind_any fun header =>
    Limited.plain_bind fun _ => (limited_body h _).bind_any fun body => .pure ?_
  rw [Control.ownSteps, fit_append, and_assoc]

theorem limited_linkRound {s : List Link × Control Node} (hs : s.2.alternate = none) (fits : Prop) :
    Limited (fun _ => True) (fits ∧ ChainFits r s) (l.linkRound s) (L.linkRound s) fun t => fits ∧ ChainFits r t.1 := by
  refine Limited.kind_bind fun k _ => Limited.ite (fun _ => ?_) fun _ => .pure Iff.rfl
  refine Limited.plain_bind fun comments => Limited.plain_bind fun keyword => Limited.kind_bind fun k _ =>
    Limited.ite (fun _ => ?_) fun hk => ?_
  · refine Limited.plain_bind fun leading => (limited_head h .ifForm _).bind (form_head L .ifForm) fun next hnext =>
      .pure ?_
    simp only [ChainFits, List.forall_mem_cons, Control.fit_ownSteps_attach, Control.steps_of_alternate_eq_none hs,
      Control.steps_of_alternate_eq_none hnext.2]
    tauto
  · have hbegin := (isChoice_body h.sorted).on (q := (· = k)) fun j hj => hj ▸ hk
    refine (limited_body h _).always_on.bind hbegin fun body hbody => .pure ?_
    have hbranch : Alternate.steps ⟨keyword, body⟩ = body.steps := Alternate.steps_eq hbody
    simp only [ChainFits, Control.fit_steps_else, hbranch, Control.steps_of_alternate_eq_none hs]
    tauto

theorem limited_control (form : ControlForm) (fits : Prop) :
    Limited (fun _ => True) fits (l.control form) (L.control form) fun c => fits ∧ Fit r c.steps := by
  refine (limited_head h form fits).bind (form_head L form) fun first hfirst => ?_
  have hstart : fits ∧ Fit r first.ownSteps ↔ fits ∧ ChainFits r ([], first) := by
    simp [ChainFits, Control.steps_of_alternate_eq_none hfirst.2]
  rw [propext hstart]
  have hchain : IsChain ([], first) := ⟨nofun, fun hne => absurd rfl hne⟩
  refine (Limited.grow (F := fun s => fits ∧ ChainFits r s) (K := fun s => s.2.alternate = none)
    (fun s hs => limited_linkRound h hs fits) (fun s _ => alternate_linkRound L s) hfirst.2).bind
      (Gives.grow (fun _ hs => isChain_linkRound L hs) hchain) fun (links, last) hlinks => .pure ?_
  rw [Link.fit_chain hlinks.links hlinks.last]
  rfl

theorem limited_returning (fits : Prop) :
    Limited (fun _ => True) fits l.returning L.returning fun n => fits ∧ Fit r [n.contentStep] := by
  refine Limited.plain_bind fun keyword => Limited.kind_bind fun k _ => Limited.look_bind fun separate =>
    Limited.ite (fun _ => ?_) fun _ => .pure ?_
  · refine (h.expression fits).always_on.bind_any fun value => .pure ?_
    rw [fit_contentStep_other rfl rfl]
    simp [steps]
  · rw [fit_contentStep_other rfl rfl]
    simp [steps]

/-! ### Statements -/

omit h in
theorem limited_whole {i I : Rule Node}
    (hinner : Limited (fun _ => True) fits i I fun n => fits ∧ Fit r [n.contentStep]) :
    Limited (fun _ => True) fits (whole i) (whole I) fun n => fits ∧ n.nesting ≤ r :=
  hinner.bind_any fun _ => .pure (by rw [nesting_command_le_iff])

omit h in
theorem limited_ended {i I : Rule Node}
    (hinner : Limited (fun _ => True) fits i I fun n => fits ∧ Fit r [n.contentStep]) :
    Limited (fun _ => True) fits (ended i) (ended I) fun n => fits ∧ n.nesting ≤ r :=
  hinner.bind_any fun _ => Limited.plain_bind fun _ => .pure (by rw [nesting_command_le_iff])

theorem limited_statementHere (nested : Bool) (fits : Prop) :
    Limited (fun _ => True) fits (l.statementHere nested) (L.statementHere nested)
      fun n => fits ∧ n.nesting ≤ r := by
  have hexpression : Limited (fun _ => True) fits (ended l.expression) (ended L.expression)
      fun n => fits ∧ n.nesting ≤ r :=
    limited_ended ((h.expression fits).congr h.sorted.isExpression_expression fun n hn => by
      rw [fit_contentStep_expression hn])
  have hcontrol (form : ControlForm) : Limited (fun _ => True) fits (whole (.combinator <$> l.control form))
      (whole (.combinator <$> L.control form)) fun n => fits ∧ n.nesting ≤ r :=
    limited_whole (Limited.map ((limited_control h form fits).congr_any fun c => by
      rw [fit_contentStep_other rfl rfl]
      rfl))
  refine Limited.kind_bind fun k _ => Limited.look_bind fun next => Limited.always_on ?_
  split
  case h_1 | h_2 | h_3 => exact limited_ended (limited_declaration h _ fits)
  case h_4 => exact Limited.ite (fun _ => limited_whole (limited_functionDeclaration h fits)) fun _ => hexpression
  case h_5 | h_6 | h_7 => exact hcontrol _
  case h_8 => exact limited_ended (limited_returning h fits)
  case h_9 =>
    refine Limited.plain_bind fun _ => Limited.plain_bind fun semicolon => .pure ?_
    rw [nesting_command_le_iff, fit_contentStep_other rfl rfl]
    exact and_iff_left fit_nil
  case h_10 =>
    refine Limited.ite (fun _ => hexpression) fun _ => Limited.kind_bind fun _ _ => Limited.plain_bind fun _ =>
      Limited.plain_bind fun first => Limited.plain_bind fun others => .pure ?_
    rw [nesting_le_iff rfl]
    exact and_iff_left fit_nil

omit h

/-! ### All levels -/

/-- A rule that gives up at once is right wherever nothing fits. -/
theorem limited_refuse (limit : Nat) {s : Rule Node} {fits' : Node → Prop} (hs : s.Always fun n => ¬fits' n) :
    Limited (fun _ => True) fits (refuse limit) s fun n => fits ∧ fits' n := by
  intro c hc hk _
  have hrefused : ((refuse limit).run c).2.givenUp = true := rfl
  rw [hrefused]
  exact ⟨⟨fun hn => absurd hn.2 (hs c hc hk), fun hn => absurd hn.2 Bool.noConfusion⟩, fun hn => Bool.noConfusion hn⟩

/-- A level with `r` more levels does what any level with more of them does, as long as what is read fits. -/
theorem limits_ofRemaining (d D : Nat) {r R : Nat} (hle : r ≤ R) : (ofRemaining d r).Limits (ofRemaining D R) r := by
  induction r generalizing R with
  | zero =>
      -- Without a level left all is refused, and nothing that could be read would fit.
      have hstatement (s : Rule Node) : s.Always fun n => ¬1 + n.nesting ≤ 0 := (Gives.any s).imp fun n _ => by omega
      refine {
        sorted := sorted_ofRemaining D R
        statement := fun nested fits => limited_refuse d (hstatement _)
        expression := fun fits => limited_refuse d (hstatement _)
        prefixed := fun fits => ?_ }
      cases R with
      | zero => exact fun c _ _ hgiven => Bool.noConfusion hgiven
      | succ R =>
          have hoperation : (ofRemaining D R).operation.Always fun n => ¬n.nesting ≤ 0 := by
            refine Gives.any_bind fun symbol => Gives.any_bind fun operand => Gives.pure ?_
            rw [nesting_eq, opens]
            omega
          exact limited_refuse d hoperation
  | succ r ih =>
      obtain ⟨R, rfl⟩ : ∃ R', R = R' + 1 := ⟨R - 1, by omega⟩
      have hbelow := ih (Nat.le_of_succ_le_succ hle)
      exact {
        sorted := sorted_ofRemaining D (R + 1)
        statement := fun nested fits => (limited_statementHere hbelow nested fits).congr_any fun n => by
          rw [Nat.add_comm, Nat.add_le_add_iff_right]
        expression := fun fits => (limited_assignment hbelow fits).congr_any fun n => by
          rw [Nat.add_comm, Nat.add_le_add_iff_right]
        prefixed := limited_operation hbelow }

end Level

end LosslessSyntax
