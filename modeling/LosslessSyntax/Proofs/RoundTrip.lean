import LosslessSyntax.Proofs.Parse.Completeness
import LosslessSyntax.Proofs.Token.Fault
import LosslessSyntax.Proofs.Strictness

/-! Reading undoes writing. A well-formed expression that is written out as the value of an assignment is cut into
the tokens that its lexemes stand for, and these are read into the same expression, without a word of complaint. -/

namespace LosslessSyntax

open Rule Node

/-! ### From lexemes to tokens -/

theorem Kind.Allows.isTrivia_eq_false {k : Kind} {t : Text} (h : k.Allows t) : k.isTrivia = false := by
  cases h <;> rfl

theorem Reading.read_blank {c : Char} (h : isBlank c = false) (t : Text) :
    read ' ' (c :: t) = ⟨.blank, [' '], c :: t, {}, []⟩ := by
  have hblank : read ' ' (c :: t) = blanks ' ' (c :: t) := rfl
  rw [hblank, blanks, run, List.takeWhile_cons_of_neg (by simp [h]), List.dropWhile_cons_of_neg (by simp [h])]

namespace Token

/-- A token of a text that the grammar allows can only lack its end. -/
theorem fault?_eq_none {t : Token} {k : Kind} {text : Text} (h : k.Allows text) (hk : t.kind = k)
    (hend : t.flags.unterminated = false) : t.fault? = none := by
  rw [fault?, hk]
  cases h <;> simp [hend]

/-- Whether the tokens are those of the lexemes, and nothing is wrong with them. -/
def CarryWell (ls : List Lexeme) (ts : List Token) : Prop := Carry ls ts ∧ ∀ t ∈ ts, t.fault? = none

namespace Cut

variable {t rest : Text} {k : Kind} {l : Lexeme} {ls : List Lexeme} {offset : Nat} {position : Position}
  {ts : List Token}

/-- Written out, a lexeme without anything in front is cut off as one token. -/
theorem carryWell_cons {blanks : List Token} (hblanks : ∀ b ∈ blanks, b.kind = .blank ∧ b.text ≠ [])
    (hl : k.Allows l.text) (hleading : l.leading = restore blanks) (hrest : rest.IsApart)
    (h : Cut (l.text ++ rest) offset position ts)
    (hbehind : ∀ offset position us, Cut rest offset position us → CarryWell ls us) :
    CarryWell (l :: ls) (blanks ++ ts) := by
  obtain ⟨c, u, flags, htext, -, hend, hread⟩ := hl.isWhole hrest
  obtain ⟨leading, text⟩ := l
  simp only at htext hleading hl h hread
  subst htext hleading
  rw [List.cons_append] at h
  cases h with
  | @cons _ _ r _ _ us hr hcut =>
      cases hread.symm.trans hr
      obtain ⟨hcarry, hfaults⟩ := hbehind _ _ us hcut
      have hblank : ∀ b ∈ blanks, b.fault? = none := fun b hb => by rw [fault?, (hblanks b hb).1]
      refine ⟨.cons hblanks rfl hl.kind_eq.symm hl.isTrivia_eq_false hcarry, ?_⟩
      exact List.forall_mem_append.mpr ⟨hblank, List.forall_mem_cons.mpr ⟨fault?_eq_none hl rfl hend, hfaults⟩⟩

theorem isApart_flatMap_restore (hls : ∀ l ∈ ls, ∃ k, l.Spells k) : Text.IsApart (ls.flatMap Lexeme.restore) := by
  intro c hc
  cases ls with
  | nil => cases hc
  | cons l ls =>
      obtain ⟨k, hl⟩ := hls l List.mem_cons_self
      rw [List.flatMap_cons, Lexeme.restore, hl.leading] at hc
      cases hc
      rfl

/-- Written out, lexemes behind single spaces are cut into the tokens that they stand for. -/
theorem carryWell (hls : ∀ l ∈ ls, ∃ k, l.Spells k) (h : Cut (ls.flatMap Lexeme.restore) offset position ts) :
    CarryWell ls ts := by
  induction ls generalizing offset position ts with
  | nil =>
      cases h
      exact ⟨.nil, List.forall_mem_nil _⟩
  | cons l ls ih =>
      obtain ⟨⟨k, hl⟩, hothers⟩ := List.forall_mem_cons.mp hls
      have hapart := isApart_flatMap_restore hothers
      obtain ⟨c, u, flags, htext, hblank, -, -⟩ := hl.text.isWhole hapart
      rw [List.flatMap_cons, Lexeme.restore, hl.leading, List.append_assoc, List.singleton_append, htext,
        List.cons_append] at h
      cases h with
      | @cons _ _ r _ _ us hr hcut =>
          cases (Reading.read_blank hblank _).symm.trans hr
          rw [← List.cons_append, ← htext] at hcut
          show CarryWell (l :: ls) ([_] ++ us)
          refine carryWell_cons ?_ hl.text hl.leading hapart hcut fun _ _ _ => ih hothers
          exact List.forall_mem_singleton.mpr ⟨rfl, List.cons_ne_nil _ _⟩

end Cut

end Token

/-! ### From tokens to the tree -/

namespace Level

variable {limit r : Nat} {x equals : Lexeme} {e : Node}

/-- An assignment of a well-formed expression is read back, whatever stands in front of its target. -/
theorem restores_assignment_identifier (hx : Kind.identifier.Allows x.text) (hequals : equals.Spells (.symbol .assign))
    (h : e.WellFormed) (hr : 1 + e.nesting ≤ r) :
    (ofRemaining limit r).Restores (.assignment (.identifier x) equals e) := by
  have hfront (ls : List Lexeme) : (Lexeme.front ((identifier x).lexemes ++ ls)).isPrefixOperator = false := by
    rw [lexemes_identifier, List.singleton_append, Lexeme.front, hx.kind_eq]
    rfl
  have htarget : (ofRemaining limit r).Restores (.identifier x) :=
    restores_of_grows hfront rfl (grows_primary fun _ => reads_identifier rfl hx)
  have hvalue := readsAt_expression (restores_ofRemaining limit h) hr
  exact restores_assignment htarget (by decide : 1 ≤ 9) rfl hequals hvalue

/-- An expression with nothing behind it, read as a statement. -/
theorem reads_statementHere {l : Level} {n : Node} (hread : l.expression.ReadsAt 0 n)
    (hfront : Lexeme.front n.lexemes = .identifier) (nested : Bool) :
    (l.statementHere nested).Reads n.lexemes [] (.command n none []) := by
  have hended : (ended l.expression).Reads n.lexemes [] (.command n none []) :=
    (hread _ (.of_endsList rfl)).bind_nil (Becomes.optional_bind_none (by decide) (.refl _ []))
  have hkind : Lexeme.front (n.lexemes ++ []) = .identifier := by rw [List.append_nil, hfront]
  exact Becomes.kind_bind hkind (Becomes.look_bind fun next => hended)

/-- A single statement without blanks and comments around it, read as a list. -/
theorem reads_statements {l : Level} {inner : Node} {ls : List Lexeme}
    (hread : (l.statement false).Reads ls [] (.command inner none [])) (hleading : ∀ x ∈ ls.head?, x.leading = [])
    (hfront : Lexeme.front ls ≠ .endOfInput) : (l.statements false).Reads ls [] [.command inner none []] := by
  have hstatement : (l.statementsRound false).Reads ls [] ([.command inner none []], true) := by
    refine Becomes.takeTrivia_bind (by rwa [List.append_nil]) (Becomes.kind_bind rfl ?_)
    rw [List.append_nil, if_neg (by simpa using hfront)]
    exact hread.bind_nil (.refl _ [])
  have hend : (l.statementsRound false).Reads [] [] ([], false) := by
    refine Becomes.takeTrivia_bind (fun x hx => ?_) (Becomes.kind_bind rfl (.refl _ []))
    cases hx
  have hloop : (collect (l.statementsRound false) (l.advances_statementsRound false)).Reads (ls ++ []) []
      ([.command inner none []] ++ []) := Becomes.collect_next hstatement (Becomes.collect_last hend)
  rw [List.append_nil] at hloop
  have hattach : attachTrailing ([.command inner none []] ++ []) = [.command inner none []] := by
    simp [attachTrailing, splitTrailing, closureWith]
  rw [← hattach]
  exact hloop.bind_nil (.refl _ [])

end Level

namespace Parser

variable {limit : Nat} {source : Text} {x : Lexeme} {ls : List Lexeme}

/-- Of lexemes that have been written out a parser faces these lexemes, and has nothing to say about their tokens. -/
theorem faces_ofSource (haddress : Text.IsAddressable ((x :: ls).flatMap Lexeme.restore))
    (hx : Kind.identifier.Allows x.text) (hleading : x.leading = []) (hls : ∀ l ∈ ls, ∃ k, l.Spells k) (limit : Nat) :
    (ofSource ((x :: ls).flatMap Lexeme.restore) limit).cursor.Faces (x :: ls) ∧
      (tokenize ((x :: ls).flatMap Lexeme.restore)).flatMap Token.diagnostics = [] := by
  have hcut := cut_tokenize ((x :: ls).flatMap Lexeme.restore)
  have haddressed := Token.addressed_tokenize haddress
  have htext : (x :: ls).flatMap Lexeme.restore = x.text ++ ls.flatMap Lexeme.restore := by
    rw [List.flatMap_cons, Lexeme.restore, hleading, List.nil_append]
  rw [htext] at hcut haddressed ⊢
  obtain ⟨hcarry, hfaults⟩ := Token.Cut.carryWell_cons (List.forall_mem_nil _) hx hleading
    (Token.Cut.isApart_flatMap_restore hls) hcut fun _ _ _ => Token.Cut.carryWell hls
  refine ⟨⟨haddressed, rfl, rfl, hcarry⟩, List.flatMap_eq_nil_iff.mpr fun t ht => ?_⟩
  rw [Token.diagnostics, hfaults t ht]
  rfl

/-- If all statements of a source are read without complaint, strict reading comes to them. -/
theorem ofValidSource_of_reads {nodes : List Node} (hfaces : (ofSource source limit).cursor.Faces ls)
    (htokens : (tokenize source).flatMap Token.diagnostics = [])
    (hread : ((Level.outermost limit).statements false).Reads ls [] nodes) :
    Program.ofValidSource source limit = .ok ⟨nodes⟩ := by
  rw [← List.append_nil ls] at hfaces
  obtain ⟨d, hd, hrun⟩ := hread _ hfaces
  have hprogram : (ofSource source limit).program = (⟨nodes⟩, { ofSource source limit with cursor := d }) := by
    have hstatements : ((Level.outermost limit).statements false).run (ofSource source limit).cursor = (nodes, d) :=
      hrun
    have hsalvage : d.salvage = ([], d) := by
      rw [Cursor.salvage, hd.givenUp]
      rfl
    have hnodes : (ofSource source limit).cursor.program limit = (⟨nodes ++ []⟩, d) := by
      rw [Cursor.program, hstatements]
      simp only [hsalvage]
    rw [List.append_nil] at hnodes
    rw [program]
    exact congrArg (fun s : Program × Cursor => (s.1, { ofSource source limit with cursor := s.2 })) hnodes
  have hdiagnostics : (ofSource source limit).program.2.diagnostics = [] := by
    rw [diagnostics_program, htokens, hprogram]
    show Diagnostics.sorted ([] ++ d.diagnostics) = []
    rw [hd.diagnostics]
    exact List.perm_nil.mp (Diagnostics.perm_sorted [])
  rw [Program.ofValidSource]
  rw [hprogram] at hdiagnostics ⊢
  simp only [hdiagnostics]
  rfl

end Parser

/-- Reading undoes writing. Take any well-formed expression, all of its lexemes behind single spaces, and write it out
behind `x =`, to an addressable text. If there is room for the levels that it opens, and three more for the statement,
the assignment and its value, then strict reading comes to a single statement, which assigns this very expression to
`x`. -/
theorem Program.ofValidSource_assignment_restore {e : Node} (h : e.WellFormed) {limit : Nat}
    (haddress : Text.IsAddressable (['x', ' ', '='] ++ e.restore)) (hlimit : e.nesting + 3 ≤ limit) :
    Program.ofValidSource (['x', ' ', '='] ++ e.restore) limit =
      .ok ⟨[.command (.assignment (.identifier ⟨[], ['x']⟩) ⟨[' '], ['=']⟩ e) none []]⟩ := by
  obtain ⟨r, rfl⟩ : ∃ r, limit = r + 2 := ⟨limit - 2, by omega⟩
  let x : Lexeme := ⟨[], ['x']⟩
  let equals : Lexeme := ⟨[' '], ['=']⟩
  have hx : Kind.identifier.Allows x.text := .identifier (by decide) (List.forall_mem_nil _) (by decide)
  have hequals : equals.Spells (.symbol .assign) := ⟨rfl, .symbol .assign⟩
  have hspells : ∀ l ∈ equals :: e.lexemes, ∃ k, l.Spells k :=
    List.forall_mem_cons.mpr ⟨⟨_, hequals⟩, h.exists_spells⟩
  have hsource : ['x', ' ', '='] ++ e.restore = (x :: equals :: e.lexemes).flatMap Lexeme.restore := by
    rw [h.restore_eq]
    rfl
  have hlexemes : (assignment (.identifier x) equals e).lexemes = x :: equals :: e.lexemes := by
    rw [lexemes_assignment, lexemes_identifier]
    rfl
  rw [hsource] at haddress ⊢
  obtain ⟨hfaces, htokens⟩ := Parser.faces_ofSource haddress hx rfl hspells (r + 2)
  refine Parser.ofValidSource_of_reads hfaces htokens (Level.reads_statements ?_ ?_ ?_)
  · have hread : (Level.ofRemaining (r + 2) (r + 1)).expression.ReadsAt 0 (.assignment (.identifier x) equals e) :=
      (Level.restores_assignment_identifier hx hequals h (by omega)).assignment
    rw [← hlexemes]
    exact Level.reads_statementHere hread (by rw [hlexemes, Lexeme.front, hx.kind_eq]) false
  · intro l hl
    cases hl
    rfl
  · rw [Lexeme.front, hx.kind_eq]
    decide

theorem Program.ofValidSource_assignment_call :
    let e : Node := .invocation (.identifier ⟨[' '], ['f']⟩) ⟨[' '], ['(']⟩
      [.operator none ⟨[' '], ['-']⟩ (some (.literal ⟨[' '], ['.', '5']⟩))] [⟨[' '], [',']⟩] ⟨[' '], [')']⟩
    e.WellFormed ∧ Text.IsAddressable (['x', ' ', '='] ++ e.restore) ∧ e.nesting + 3 ≤ 5 ∧
      Program.ofValidSource "x = f ( - .5 , )".toList 5 =
      .ok ⟨[.command (.assignment (.identifier ⟨[], ['x']⟩) ⟨[' '], ['=']⟩ e) none []]⟩ := by
  intro e
  have hnumber : Kind.Allows .number ['.', '5'] := .pointed (by decide) (List.forall_mem_nil _) .none
  have hname : Kind.Allows .identifier ['f'] := .identifier (by decide) (List.forall_mem_nil _) (by decide)
  have hoperand : WellFormed (.operator none ⟨[' '], ['-']⟩ (some (.literal ⟨[' '], ['.', '5']⟩))) :=
    .prefixed rfl ⟨rfl, .symbol .minus⟩ (.literal rfl ⟨rfl, hnumber⟩) (by decide : 7 ≤ 9)
  have hcommas : Lexeme.AreCommas [⟨[' '], [',']⟩] 1 :=
    ⟨List.forall_mem_singleton.mpr ⟨rfl, .symbol .comma⟩, .inl rfl⟩
  have hform : e.WellFormed := .invocation (.identifier rfl ⟨rfl, hname⟩) rfl ⟨rfl, .symbol .openParen⟩
    (List.forall_mem_singleton.mpr hoperand) hcommas ⟨rfl, .symbol .closeParen⟩
  have haddress : Text.IsAddressable (['x', ' ', '='] ++ e.restore) := by decide +kernel
  have hlimit : e.nesting + 3 ≤ 5 := by decide +kernel
  have hsource : ['x', ' ', '='] ++ e.restore = "x = f ( - .5 , )".toList := by decide +kernel
  rw [← hsource]
  exact ⟨hform, haddress, hlimit, Program.ofValidSource_assignment_restore hform haddress hlimit⟩

end LosslessSyntax
