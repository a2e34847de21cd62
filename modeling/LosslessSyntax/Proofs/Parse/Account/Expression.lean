import LosslessSyntax.Proofs.Parse.Climbing
import LosslessSyntax.Proofs.Parse.Account.Block

/-! The account through expressions, if the next level keeps it. Where no expression can begin, what stands
there is taken into an unparsed node; that node shows the flaw of which the message told before. -/

namespace LosslessSyntax.Level

open LosslessSyntax.Part Rule

variable {l : Level} {source : List Token} {ps : List (Part Node)} {flaw : Bool} {k : Kind}

theorem accounts_expressions (hl : l.Accounts source) {closing : Symbol} :
    Triple (Account source ps flaw) (l.expressions closing)
      fun s => Account.Until (.symbol closing) source (ps ++ separatedParts ([.node ·]) s) flaw := by
  refine accounts_separated fun ps flaw => ?_
  refine Triple.kind_bind fun k => Triple.ite (fun _ => Triple.pure fun c h => .inl h.1) fun _ => ?_
  exact ((hl.expression ps flaw).of_imp fun _ h => h.1).map

/-- Where no name of a field stands, a colon shows that it is missing; else the brace is not closed there. -/
theorem accounts_fieldKey (hk : k ≠ .symbol .closeBrace) :
    Triple (fun c => Account source ps flaw c ∧ c.kind = k) fieldKey fun
      | some key => Account source (ps ++ [.lexeme key]) flaw
      | none => Account.Until (.symbol .closeBrace) source ps flaw := by
  refine Triple.kind_bind fun k' => Triple.ite (fun hname => ?_) fun _ => ?_
  · have hplace : k'.hasPlace = true := Kind.hasPlace_of (·.isPropertyName = true) hname nofun nofun
    exact ((accounts_bump_on hplace).of_imp fun c h => ⟨h.1.1, h.2⟩).map
  · refine ((accounts_report_on rfl []).of_imp fun c h => h.1).bind fun _ => ?_
    by_cases hcolon : k' = .symbol .colon
    · rw [if_pos hcolon]
      exact Triple.pure fun c h => h.1.missing rfl
    · rw [if_neg hcolon]
      exact Triple.pure fun c h => .inr ⟨h.1, h.2 ▸ hk⟩

theorem accounts_field (hl : l.Accounts source) :
    l.field.AccountsItem source (.symbol .closeBrace) Field.parts := by
  intro ps flaw
  refine Triple.kind_bind fun k => Triple.ite (fun _ => Triple.pure fun c h => .inl h.1) fun hk => ?_
  have hclosing : k ≠ .symbol .closeBrace := by
    rintro rfl
    exact hk rfl
  refine (accounts_fieldKey hclosing).bind fun
    | none => Triple.pure fun c h => h
    | some key => (accounts_expect rfl _ _).bind fun colon => (hl.expression _ _).bind fun value =>
        Triple.pure fun c h => ?_
  simpa [Field.parts] using h

theorem accounts_missingExpression : missingExpression.Accounts source ([.node ·]) := by
  intro ps flaw
  refine (accounts_report rfl []).bind fun _ => Triple.kind_bind fun k =>
    Triple.ite (fun _ => Triple.pure fun c h => ?_) fun _ =>
      (accounts_bump_flawed.of_imp fun _ h => h.1).bind fun lexeme => Triple.pure fun c h => ?_
  · apply Account.unparsed
    exact h.1.append_nil
  · exact Account.unparsed h

/-- A lexeme that is an expression by itself. -/
theorem accounts_leaf {f : Lexeme → Node} (hk : k.hasPlace = true) (hparts : ∀ l, (f l).parts = [.lexeme l])
    (hflawed : ∀ l, (f l).isFlawedItself = false) (hidle : ∀ l, (f l).isIdle = false) :
    Triple (fun c => Account source ps flaw c ∧ c.kind = k) (f <$> bump)
      fun n => Account source (ps ++ [.node n]) flaw := by
  refine ((accounts_bump_on hk).to_imp fun lexeme c h => ?_).map
  apply Account.sound_node _ (hflawed lexeme) (hidle lexeme)
  rw [hparts]
  exact h

theorem accounts_primary (hl : l.Accounts source) : l.primary.Accounts source ([.node ·]) := by
  intro ps flaw
  refine Triple.kind_bind fun k => ?_
  split
  case h_1 | h_2 => exact accounts_leaf rfl (fun _ => rfl) (fun _ => rfl) fun _ => rfl
  case h_3 | h_4 | h_5 | h_6 | h_7 => exact accounts_leaf rfl (fun _ => rfl) (fun _ => rfl) fun _ => rfl
  case h_8 =>
    -- an expression in parentheses
    refine (accounts_bump_on rfl).bind fun opening => (hl.expression _ _).bind fun inner =>
      (accounts_expect rfl _ _).bind fun closing => Triple.pure fun c h => ?_
    apply Account.sound_node _ rfl rfl
    simpa [Node.parts] using h
  case h_9 =>
    -- an object literal
    refine (accounts_bump_on rfl).bind fun opening => (accounts_separated (accounts_field hl)).bind fun s =>
      (accounts_expect_closing rfl).bind fun closing => Triple.pure fun c h => ?_
    apply Account.sound_node _ rfl rfl
    simpa [Node.parts, separatedParts] using h
  case h_10 =>
    -- an array literal
    refine (accounts_bump_on rfl).bind fun opening => (accounts_expressions hl).bind fun s =>
      (accounts_expect_closing rfl).bind fun closing => Triple.pure fun c h => ?_
    apply Account.sound_node _ rfl rfl
    simpa [Node.parts, separatedParts] using h
  case h_11 =>
    -- a function
    refine (accounts_bump_on rfl).bind fun keyword => (accounts_optional rfl _ _).bind fun name =>
      (accounts_function hl).bind fun body => Triple.of_and fun hbraced => Triple.pure fun c h => ?_
    apply Account.sound_node _ _ rfl
    · simpa [Node.parts] using h
    · rw [Node.isFlawedItself_eq_false_iff]
      exact ⟨rfl, by simpa [Node.blocks] using Block.isBodiless_of_isBraced hbraced⟩
  case h_12 => exact (accounts_missingExpression ps flaw).of_imp fun _ h => h.1

theorem accounts_fieldName : fieldName.Accounts source ([.lexeme ·]) := by
  intro ps flaw
  refine Triple.kind_bind fun k => Triple.ite (fun hk => ?_) fun _ => ?_
  · have hplace : k.hasPlace = true :=
      Kind.hasPlace_of (fun k => (k = .identifier || k.isKeyword) = true) hk nofun nofun
    exact accounts_bump_on hplace
  · exact (accounts_missing rfl []).of_imp fun _ h => h.1

theorem accounts_suffixRound (hl : l.Accounts source) (base : Node) :
    Triple (Account source (ps ++ [.node base]) flaw) (l.suffixRound base) fun s c =>
      cond s.2 (Account source (ps ++ [.node s.1]) flaw c) (Account source (ps ++ [.node s.1]) flaw c) := by
  refine Triple.kind_bind fun k => ?_
  split
  case h_1 =>
    refine (accounts_bump_on rfl).bind fun dot => (accounts_fieldName _ _).bind fun field =>
      Triple.pure fun c h => ?_
    apply Account.sound_node _ rfl rfl
    simpa [Node.parts] using h
  case h_2 =>
    refine (accounts_bump_on rfl).bind fun opening => (hl.expression _ _).bind fun subscript =>
      (accounts_expect rfl _ _).bind fun closing => Triple.pure fun c h => ?_
    apply Account.sound_node _ rfl rfl
    simpa [Node.parts] using h
  case h_3 =>
    refine (accounts_bump_on rfl).bind fun opening => (accounts_expressions hl).bind fun s =>
      (accounts_expect_closing rfl).bind fun closing => Triple.pure fun c h => ?_
    apply Account.sound_node _ rfl rfl
    simpa [Node.parts, separatedParts] using h
  case h_4 => exact Triple.pure fun c h => h.1

theorem accounts_suffixed (hl : l.Accounts source) : l.suffixed.Accounts source ([.node ·]) := fun ps flaw =>
  (accounts_primary hl ps flaw).bind (Triple.grow (accounts_suffixRound hl))

theorem accounts_postfixed (hl : l.Accounts source) : l.postfixed.Accounts source ([.node ·]) := by
  intro ps flaw
  refine (accounts_suffixed hl ps flaw).bind fun operand => Triple.kind_bind fun k =>
    Triple.look_bind fun separate => Triple.ite (fun hk => ?_) fun _ => Triple.pure fun c h => h.1.1
  have hplace : k.hasPlace = true :=
    Kind.hasPlace_of (·.isPostfixOperator = true) (Bool.and_eq_true_iff.mp hk).1 nofun nofun
  refine ((accounts_bump_on hplace).of_imp fun _ h => h.1).bind fun symbol =>
    Triple.pure fun c h => ?_
  apply Account.sound_node _ rfl rfl
  simpa [Node.parts] using h

theorem accounts_unary (hl : l.Accounts source) : l.unary.Accounts source ([.node ·]) := by
  intro ps flaw
  refine Triple.kind_bind fun k => Triple.ite (fun hk => ?_) fun _ => ?_
  · exact (hl.prefixed ps flaw).of_imp fun c h => ⟨h.1, h.2 ▸ hk⟩
  · exact (accounts_postfixed hl ps flaw).of_imp fun _ h => h.1

theorem accounts_operationRound {minimum : Nat} {operand : (tier : Tier) → minimum < tier.toNat → Rule Node}
    (hoperand : ∀ tier h, (operand tier h).Accounts source ([.node ·])) (left : Node) :
    Triple (Account source (ps ++ [.node left]) flaw) (operationRound minimum operand left) fun s c =>
      cond s.2 (Account source (ps ++ [.node s.1]) flaw c) (Account source (ps ++ [.node s.1]) flaw c) := by
  refine Triple.kind_bind fun k => ?_
  split
  · next tier hk =>
      split
      · next hlt =>
          have hplace : k.hasPlace = true := Kind.hasPlace_of (Tier.ofKind? · = some tier) hk nofun nofun
          refine (accounts_bump_on hplace).bind fun symbol => (hoperand tier hlt _ _).bind fun right =>
            Triple.pure fun c h => ?_
          apply Account.sound_node _ rfl rfl
          simpa [Node.parts] using h
      · exact Triple.pure fun c h => h.1
  · exact Triple.pure fun c h => h.1

theorem accounts_binary (hl : l.Accounts source) (minimum : Nat) :
    (l.binary minimum).Accounts source ([.node ·]) := by
  induction minimum using Tier.induction with
  | h minimum ih =>
      rw [binary_eq]
      exact fun ps flaw => (accounts_unary hl ps flaw).bind (Triple.grow (accounts_operationRound ih))

theorem accounts_assignment (hl : l.Accounts source) : l.assignment.Accounts source ([.node ·]) := by
  intro ps flaw
  refine (accounts_binary hl 0 ps flaw).bind fun target => Triple.kind_bind fun k =>
    Triple.ite (fun hk => ?_) fun _ => Triple.pure fun c h => h.1
  have hplace : k.hasPlace = true := Kind.hasPlace_of (·.isAssignment = true) hk nofun nofun
  refine (accounts_bump_on hplace).bind fun operator => (hl.expression _ _).bind fun value =>
    Triple.pure fun c h => ?_
  apply Account.sound_node _ rfl rfl
  simpa [Node.parts] using h

/-! ### Expressions are no empty nodes -/

theorem neverEmpty_missingExpression : missingExpression.NeverEmpty := by
  intro c
  simp only [missingExpression, run_bind, run_report, run_kind, run_ite, run_bump, run_pure]
  split <;> rfl

theorem neverEmpty_primary (l : Level) : l.primary.NeverEmpty := by
  intro c
  simp only [primary, run_bind, run_kind]
  split
  case h_12 => exact neverEmpty_missingExpression c
  all_goals rfl

/-- A loop that starts with an expression ends with one, if every round makes one of another. -/
theorem neverEmpty_grow {first : Rule Node} {round : Node → Rule (Node × Bool)}
    {hround : ∀ n, (round n).Advances} (hfirst : first.NeverEmpty)
    (h : ∀ n, n.isEmpty = false → ∀ c, ((round n).run c).1.1.isEmpty = false) :
    (first >>= grow round hround).NeverEmpty := by
  have hkept (n : Node) : Triple (fun _ => n.isEmpty = false) (round n)
      fun s _ => cond s.2 (s.1.isEmpty = false) (s.1.isEmpty = false) := by
    intro c hn
    rw [Bool.cond_self]
    exact h n hn c
  have hloop (n : Node) : Triple (fun _ => n.isEmpty = false) (grow round hround n) fun m _ => m.isEmpty = false :=
    Triple.grow (J := fun n _ => n.isEmpty = false) (Q := fun n _ => n.isEmpty = false) hkept n
  exact fun c => hloop _ _ (hfirst c)

theorem neverEmpty_suffixed (l : Level) : l.suffixed.NeverEmpty := by
  refine neverEmpty_grow (neverEmpty_primary l) fun base hbase c => ?_
  simp only [suffixRound, run_bind, run_kind]
  split
  case h_4 => exact hbase
  all_goals rfl

theorem neverEmpty_postfixed (l : Level) : l.postfixed.NeverEmpty := by
  intro c
  simp only [postfixed, run_bind, run_kind, run_look, run_ite]
  split
  · rfl
  · exact neverEmpty_suffixed l c

theorem neverEmpty_unary (hl : l.prefixed.NeverEmpty) : l.unary.NeverEmpty := by
  intro c
  simp only [unary, run_bind, run_kind, run_ite]
  split
  · exact hl c
  · exact neverEmpty_postfixed l c

theorem neverEmpty_binary (hl : l.prefixed.NeverEmpty) (minimum : Nat) : (l.binary minimum).NeverEmpty := by
  rw [binary_eq]
  refine neverEmpty_grow (neverEmpty_unary hl) fun left hleft c => ?_
  rw [operationRound, run_bind, run_kind]
  dsimp only
  split
  · split
    · rfl
    · exact hleft
  · exact hleft

theorem neverEmpty_assignment (hl : l.prefixed.NeverEmpty) : l.assignment.NeverEmpty := by
  intro c
  simp only [assignment, run_bind, run_kind, run_ite]
  split
  · rfl
  · exact neverEmpty_binary hl 0 c

end LosslessSyntax.Level
