import LosslessSyntax.Parse.Program
import LosslessSyntax.Proofs.Parse.Account.Statement
import LosslessSyntax.Proofs.Token.Cut

/-! The account of a whole source. Every level keeps the account, by induction from the limit up to the
outermost one; so a list of statements does. Such a list ends at the end of input, and what reading did not
see after it was given up is taken as it stands, so that in the end no token is left. -/

namespace LosslessSyntax

open LosslessSyntax.Part Rule

namespace Level

variable {source : List Token} {ps : List (Part Node)} {flaw : Bool}

/-! ### All levels -/

theorem accounts_refuse (limit : Nat) : (refuse limit).Accounts source ([.node ·]) := by
  intro ps flaw
  have hgiveUp : Triple (Account source ps true) giveUp fun _ => Account source ps true := fun _ h => h.giveUp
  exact (accounts_report rfl _).bind fun _ => hgiveUp.bind fun _ => Triple.pure fun c h => h.append_nil.unparsed

theorem accounts_operation {l : Level} (hl : l.Accounts source) :
    Triple (fun c => Account source ps flaw c ∧ c.kind.isPrefixOperator = true) l.operation
      fun n => Account source (ps ++ [.node n]) flaw := by
  have hbump : Triple (fun c => Account source ps flaw c ∧ c.kind.isPrefixOperator = true) bump
      fun symbol => Account source (ps ++ [.lexeme symbol]) flaw := by
    intro c ⟨h, hkind⟩
    exact h.bump (Kind.hasPlace_of (·.isPrefixOperator = true) hkind nofun nofun)
  refine hbump.bind fun symbol => (accounts_unary hl _ _).bind fun operand => Triple.pure fun c h => ?_
  apply Account.sound_node _ rfl rfl
  simpa [Node.parts] using h

/-- Beyond the limit nothing is read, and a level keeps the account if the next one does. -/
theorem accounts_ofRemaining (limit remaining : Nat) : (ofRemaining limit remaining).Accounts source := by
  induction remaining with
  | zero =>
      exact {
        statement := fun nested ps flaw c h => ⟨rfl, accounts_refuse limit ps flaw c h⟩
        expression := accounts_refuse limit
        prefixed := fun ps flaw => (accounts_refuse limit ps flaw).of_imp fun _ h => h.1
        neverEmpty_expression := fun _ => rfl
        neverEmpty_prefixed := fun _ => rfl }
  | succ remaining ih =>
      exact {
        statement := fun nested ps flaw => accounts_statementHere ih nested
        expression := accounts_assignment ih
        prefixed := fun ps flaw => accounts_operation ih
        neverEmpty_expression := neverEmpty_assignment ih.neverEmpty_prefixed
        neverEmpty_prefixed := fun _ => rfl }

/-- A list of statements that no brace ends goes on to the end of input. -/
theorem statements_end (l : Level) :
    Triple (fun _ => True) (l.statements false) fun _ c => c.upcoming = c.ahead ∧ c.kind = .endOfInput := by
  refine Triple.bind (Q := fun _ c => c.upcoming = c.ahead ∧ c.kind = .endOfInput) ?_ fun _ =>
    Triple.pure fun _ h => h
  refine Triple.collect (J := fun _ _ => True) fun nodes => ?_
  have htrivia : Triple (fun _ => True) takeTrivia fun _ c => c.upcoming = c.ahead :=
    fun c _ => c.ahead_takeTrivia.symm
  refine htrivia.bind fun trivia => Triple.kind_bind fun k => Triple.ite (fun hk => ?_) fun _ => ?_
  · refine Triple.pure fun c h => ⟨h.1, h.2.trans ?_⟩
    simpa using hk
  · exact fun _ _ => trivial

end Level

/-! ### The end of input -/

namespace Cursor

variable {c d e : Cursor} {limit : Nat}

/-- A program is its statements and what is salvaged behind them. -/
theorem program_eq {nodes rest : List Node} (h : ((Level.outermost limit).statements false).run c = (nodes, d))
    (hrest : d.salvage = (rest, e)) : c.program limit = (⟨nodes ++ rest⟩, e) := by
  simp only [program, h, hrest]

theorem salvage_eq {lexemes : List Lexeme} {trivia : List Node} (h : c.givenUp = true)
    (hrest : (lexemesUntil fun _ => false).run { c with givenUp := false } = (lexemes, d))
    (htrivia : d.takeTrivia = (trivia, e)) :
    c.salvage = ((if lexemes.isEmpty then [] else [.unparsed lexemes]) ++ trivia, e) := by
  simp only [salvage, if_pos h, hrest, htrivia]

theorem run_lexemesUntil_of_end {stops : Kind → Bool} (h : c.kind = .endOfInput) :
    (lexemesUntil stops).run c = ([], c) := by
  refine run_collect_of_last ?_
  rw [lexemesRound, run_bind, run_kind, h]
  rfl

/-- If nothing stops a run of tokens, it takes a token wherever one is seen. -/
theorem run_lexemesUntil_of_ne_end {lexeme : Lexeme} {lexemes : List Lexeme} (h : c.kind ≠ .endOfInput)
    (hbump : c.bump = (lexeme, d)) (hrest : (lexemesUntil fun _ => false).run d = (lexemes, e)) :
    (lexemesUntil fun _ => false).run c = (lexeme :: lexemes, e) := by
  have hround : (lexemesRound fun _ => false).run c = (([lexeme], true), d) := by
    rw [lexemesRound, run_bind, run_kind, run_ite, if_neg (by simpa using h), run_bind, run_bump, hbump]
    rfl
  exact run_collect_of_next hround hrest

theorem source_salvage (c : Cursor) : c.salvage.2.source = c.source := by
  unfold salvage
  split
  · exact (lexemesUntil fun _ => false).source_run { c with givenUp := false }
  · rfl

/-- Where the end of input is seen, and reading was not given up, it is there. -/
theorem ahead_eq_nil {c : Cursor} (hkind : c.kind = .endOfInput) (hgiven : c.givenUp = false)
    (h : ∀ t ∈ c.upcoming, t.kind ≠ .endOfInput) : c.ahead = [] := by
  rw [kind, hgiven] at hkind
  cases hahead : c.ahead with
  | nil => rfl
  | cons t rest =>
      have ht : t ∈ c.upcoming := by
        rw [← c.trivia_append_ahead, hahead]
        exact List.mem_append_right _ List.mem_cons_self
      rw [hahead] at hkind
      exact absurd hkind (h t ht)

theorem lexemesUntil_end : Triple (fun c => c.givenUp = false) (lexemesUntil fun _ => false)
    fun _ c => c.givenUp = false ∧ c.kind = .endOfInput := by
  refine Triple.collect (J := fun _ c => c.givenUp = false) fun ls => ?_
  refine Triple.kind_bind fun k => Triple.ite (fun hk => ?_) fun _ => ?_
  · refine Triple.pure fun c h => ⟨h.1, h.2.trans ?_⟩
    simpa using hk
  · refine Triple.bind (Q := fun _ c => c.givenUp = false) (fun c h => ?_) fun _ => Triple.pure fun _ h => h
    rw [run_bump, bump]
    split <;> exact h.1

end Cursor

namespace Account

variable {source : List Token} {nodes : List Node} {c : Cursor}

/-- Tokens taken as they stand become an unparsed node, if there are any. -/
theorem unseen {lexemes : List Lexeme} (h : Account source (nodes.map .node ++ lexemes.map .lexeme) true c)
    (hflawed : flawedAmong (nodes.map .node) false = true) :
    Account source ((nodes ++ if lexemes.isEmpty then [] else [Node.unparsed lexemes]).map .node) false c := by
  rw [List.map_append]
  by_cases hnone : lexemes = []
  · rw [hnone, List.map_nil, List.append_nil] at h
    rw [if_pos (List.isEmpty_iff.mpr hnone)]
    exact (h.of_flawed rfl hflawed).append_nil
  · rw [if_neg fun hempty => hnone (List.isEmpty_iff.mp hempty)]
    exact h.unparsed

/-- At the end of input nothing is left, once the tokens that were not seen have been taken as they stand. -/
theorem salvage (h : Account source (nodes.map .node) false c) (htrivia : c.upcoming = c.ahead)
    (hkind : c.kind = .endOfInput) (hend : ∀ t ∈ source, t.kind ≠ .endOfInput) :
    Account source ((nodes ++ c.salvage.1).map .node) false c.salvage.2 ∧ c.salvage.2.upcoming = [] := by
  unfold Cursor.salvage
  by_cases hgiven : c.givenUp = true
  · rw [if_pos hgiven]
    have hflawed := h.flawed_of_givenUp hgiven
    have hresumed : Account source (nodes.map .node) true { c with givenUp := false } :=
      (h.of_flawed hflawed rfl).resume
    have hlexemes := accounts_lexemesUntil (fun _ => false) _ hresumed
    have hrest := Cursor.lexemesUntil_end { c with givenUp := false } rfl
    generalize (lexemesUntil fun _ => false).run { c with givenUp := false } = s at hlexemes hrest
    obtain ⟨lexemes, d⟩ := s
    show Account source ((nodes ++ ((if lexemes.isEmpty then [] else [Node.unparsed lexemes]) ++
      d.takeTrivia.1)).map .node) false d.takeTrivia.2 ∧ d.takeTrivia.2.upcoming = []
    constructor
    · rw [← List.append_assoc, List.map_append]
      exact (hlexemes.unseen hflawed).takeTrivia
    · exact Cursor.ahead_eq_nil hrest.2 hrest.1 fun t ht => hend t (hlexemes.mem_source ht)
  · rw [if_neg hgiven, List.append_nil]
    have hseen : c.ahead = [] :=
      Cursor.ahead_eq_nil hkind (eq_false_of_ne_true hgiven) fun t ht => hend t (h.mem_source ht)
    exact ⟨h, htrivia.trans hseen⟩

end Account

/-- What is read is the source from the first to the last. -/
theorem Parser.source_program (source : Text) (limit : Nat) :
    (Parser.ofSource source limit).program.2.cursor.source = source :=
  (Cursor.source_salvage _).trans (Rule.source_run _ _)

/-- Of a whole source the tree accounts for everything. -/
theorem Parser.account_program (source : Text) (limit : Nat) :
    let s := (Parser.ofSource source limit).program
    Account (tokenize source) (s.1.declarations.map .node) false s.2.cursor ∧ s.2.cursor.upcoming = [] := by
  have hcut := cut_tokenize source
  have hstart : Account (tokenize source) [] false (Parser.ofSource source limit).cursor :=
    .start fun t ht => hcut.text_ne_nil ht
  have hstatements := Level.accounts_statements (Level.accounts_ofRemaining limit limit) false _ _ _ hstart
  have hrest := Level.statements_end (Level.outermost limit) (Parser.ofSource source limit).cursor trivial
  exact hstatements.salvage hrest.1 hrest.2 fun t ht => hcut.kind_ne_endOfInput ht

end LosslessSyntax
