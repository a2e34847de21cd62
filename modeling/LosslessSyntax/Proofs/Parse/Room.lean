import LosslessSyntax.Proofs.Parse.Invariant

/-! Room enough. Between two tokens at most three levels are entered: a statement, its expression, and an operator
in front of an operand. So three levels for every token that is left, and three more for the end, are enough for
reading never to be given up. -/

namespace LosslessSyntax

open Rule

/-- Whether reading goes on and `room` levels are enough for what is left, with `k` more to spare. -/
structure Cursor.HasRoom (room k : Nat) (c : Cursor) : Prop where
  givenUp : c.givenUp = false
  enough : 3 * c.left + k ≤ room

namespace Cursor

theorem givenUp_bump (c : Cursor) : c.bump.2.givenUp = c.givenUp := by
  unfold bump
  split <;> rfl

theorem givenUp_report (c : Cursor) (m : Message) (args : List Text) : (c.report m args).givenUp = c.givenUp := by
  unfold report
  split <;> rfl

theorem kept_hasRoom (room k : Nat) : Kept (HasRoom room k) where
  bump c h := ⟨c.givenUp_bump.trans h.givenUp, by have := c.left_bump_le; have := h.enough; omega⟩
  takeTrivia c h := ⟨h.givenUp, c.left_takeTrivia ▸ h.enough⟩
  takeTrailing c h := ⟨h.givenUp, c.left_takeTrailing ▸ h.enough⟩
  report c m args _ h := ⟨(c.givenUp_report m args).trans h.givenUp, (c.left_report m args).symm ▸ h.enough⟩

theorem HasRoom.mono {room j k : Nat} {c : Cursor} (h : c.HasRoom room k) (hjk : j ≤ k) : c.HasRoom room j :=
  ⟨h.givenUp, Nat.le_trans (Nat.add_le_add_left hjk _) h.enough⟩

/-- Reading a token makes room for three more levels. -/
theorem HasRoom.bump {room k : Nat} {c : Cursor} (h : c.HasRoom room k) (hk : c.kind ≠ .endOfInput) :
    c.bump.2.HasRoom room 3 := by
  have hlt := left_bump_lt hk
  have henough := h.enough
  exact ⟨c.givenUp_bump.trans h.givenUp, by omega⟩

end Cursor

namespace Rule

variable {A : Type} {room j k : Nat}

/-- What is left never grows, so a rule that needs no more than there is leaves as much to spare. -/
theorem Keeps.more {r : Rule A} (h : r.Keeps (Cursor.HasRoom room j)) (hjk : j ≤ k) :
    r.Keeps (Cursor.HasRoom room k) := by
  intro c hc
  have hleft := r.left_le c
  have henough := hc.enough
  exact ⟨(h c (hc.mono hjk)).givenUp, by omega⟩

/-- Behind the first token there is room for whatever follows. -/
theorem room_bump_bind {f : Lexeme → Rule A} {kind : Kind} (hkind : kind ≠ .endOfInput)
    (hf : ∀ a, (f a).Keeps (Cursor.HasRoom room 3)) :
    Triple (fun c => c.HasRoom room k ∧ c.kind = kind) (bump >>= f) fun _ => Cursor.HasRoom room 3 :=
  fun _ hc => hf _ _ (hc.1.bump (hc.2 ▸ hkind))

theorem keeps_bump_bind {f : Lexeme → Rule A} {kind : Kind} (hkind : kind ≠ .endOfInput) (hk : k ≤ 3)
    (hf : ∀ a, (f a).Keeps (Cursor.HasRoom room 3)) :
    Triple (fun c => c.HasRoom room k ∧ c.kind = kind) (bump >>= f) fun _ => Cursor.HasRoom room k :=
  (room_bump_bind hkind hf).to_imp fun _ _ hc => hc.mono hk

end Rule

namespace Level

/-- Whether nothing that may be asked of the level is given up, as long as there is room. -/
structure Roomy (l : Level) (room : Nat) : Prop where
  statement (nested : Bool) : (l.statement nested).Keeps (Cursor.HasRoom room 3)
  expression : l.expression.Keeps (Cursor.HasRoom room 2)
  prefixed : Triple (fun c => c.HasRoom room 1 ∧ c.kind.isPrefixOperator = true) l.prefixed
    fun _ => Cursor.HasRoom room 1

variable {l : Level} {room : Nat} (h : l.Roomy room)
include h

/-- Behind a token everything that may be asked of the level can be read. -/
theorem Roomy.keeps : l.Keeps (Cursor.HasRoom room 3) where
  statement := h.statement
  expression := h.expression.more (Nat.le_succ 2)
  prefixed c hc := by
    have hleft := l.prefixed.left_le c
    have henough := hc.1.enough
    exact ⟨(h.prefixed c ⟨hc.1.mono (by omega), hc.2⟩).givenUp, by omega⟩

theorem keepsRoom_primary : l.primary.Keeps (Cursor.HasRoom room 1) := by
  have h1 := Cursor.kept_hasRoom room 1
  have h3 := Cursor.kept_hasRoom room 3
  have hexpression := h.keeps.expression
  refine Triple.kind_bind fun k => ?_
  split
  case h_8 =>
    exact keeps_bump_bind (by decide) (by omega) fun _ => hexpression.bind fun _ => (h3.expect _).bind fun _ => .pure _
  case h_9 =>
    exact keeps_bump_bind (by decide) (by omega) fun _ => (h3.separated (keeps_field h3 h.keeps)).bind fun _ =>
      (h3.expect _).bind fun _ => .pure _
  case h_10 =>
    exact keeps_bump_bind (by decide) (by omega) fun _ => (keeps_expressions h3 h.keeps _).bind fun _ =>
      (h3.expect _).bind fun _ => .pure _
  case h_11 =>
    exact keeps_bump_bind (by decide) (by omega) fun _ => (h3.optional _).bind fun _ =>
      (keeps_function h3 h.keeps).bind fun _ => .pure _
  case h_12 => exact h1.missingExpression.of_imp fun _ hc => hc.1
  all_goals exact (Keeps.map h1.bump_keeps).of_imp fun _ hc => hc.1

theorem keepsRoom_suffixRound (base : Node) : (l.suffixRound base).Keeps (Cursor.HasRoom room 1) := by
  have h3 := Cursor.kept_hasRoom room 3
  refine Triple.kind_bind fun k => ?_
  split
  · exact keeps_bump_bind (by decide) (by omega) fun _ => h3.fieldName.bind fun _ => .pure _
  · exact keeps_bump_bind (by decide) (by omega) fun _ => h.keeps.expression.bind fun _ =>
      (h3.expect _).bind fun _ => .pure _
  · exact keeps_bump_bind (by decide) (by omega) fun _ => (keeps_expressions h3 h.keeps _).bind fun _ =>
      (h3.expect _).bind fun _ => .pure _
  · exact Triple.pure fun _ hc => hc.1

theorem keepsRoom_unary : l.unary.Keeps (Cursor.HasRoom room 1) := by
  have h1 := Cursor.kept_hasRoom room 1
  have hpostfixed : l.postfixed.Keeps (Cursor.HasRoom room 1) :=
    (Keeps.bind (keepsRoom_primary h) (Keeps.grow (keepsRoom_suffixRound h))).bind fun _ => .kind_bind fun _ =>
      .bind (.look _) fun _ => .ite (fun _ => .bind h1.bump_keeps fun _ => .pure _) fun _ => .pure _
  exact Triple.kind_bind fun _ => Triple.ite (fun hk => h.prefixed.of_imp fun _ hc => ⟨hc.1, hc.2 ▸ hk⟩) fun _ =>
    hpostfixed.of_imp fun _ hc => hc.1

theorem keepsRoom_binary (minimum : Nat) : (l.binary minimum).Keeps (Cursor.HasRoom room 1) := by
  induction minimum using Tier.induction with
  | h minimum ih =>
      rw [binary_eq]
      refine (keepsRoom_unary h).bind (Keeps.grow fun left => .kind_bind fun k => ?_)
      split
      · next tier _ =>
          split
          · next hlt =>
              exact .bind (Cursor.kept_hasRoom room 1).bump_keeps fun _ => (ih tier hlt).bind fun _ => .pure _
          · exact .pure _
      · exact .pure _

theorem keepsRoom_assignment : l.assignment.Keeps (Cursor.HasRoom room 1) := by
  refine (keepsRoom_binary h _).bind fun target => Triple.kind_bind fun k => Triple.ite (fun hk => ?_) fun _ =>
    Triple.pure fun _ hc => hc.1
  have hend : k ≠ .endOfInput := by rintro rfl; cases hk
  exact keeps_bump_bind hend (by omega) fun _ => h.keeps.expression.bind fun _ => .pure _

theorem keepsRoom_operation :
    Triple (fun c => c.HasRoom room 0 ∧ c.kind.isPrefixOperator = true) l.operation fun _ => Cursor.HasRoom room 0 := by
  intro c hc
  have hend : c.kind ≠ .endOfInput := by
    intro hend
    rw [hend] at hc
    cases hc.2
  refine keeps_bump_bind hend (Nat.zero_le 3) (fun _ => ?_) c ⟨hc.1, rfl⟩
  exact (keeps_unary (Cursor.kept_hasRoom room 3) h.keeps).bind fun _ => .pure _

/-! ### Statements -/

theorem room_declaration {k : Nat} {kind : Kind} (hkind : kind ≠ .endOfInput) (form : DeclarationForm) :
    Triple (fun c => c.HasRoom room k ∧ c.kind = kind) (l.declaration form) fun _ => Cursor.HasRoom room 3 := by
  have h3 := Cursor.kept_hasRoom room 3
  have hround : (l.declaratorRound form).Keeps (Cursor.HasRoom room 3) := (h3.optional _).bind fun
    | none => .pure _
    | some _ => (keeps_declarator h3 h.keeps form _).bind fun _ => .pure _
  exact room_bump_bind hkind fun _ => (keeps_declarator h3 h.keeps form _).bind fun _ =>
    (Keeps.collect hround).bind fun _ => .pure _

theorem room_functionDeclaration {k : Nat} {kind : Kind} (hkind : kind ≠ .endOfInput) :
    Triple (fun c => c.HasRoom room k ∧ c.kind = kind) l.functionDeclaration fun _ => Cursor.HasRoom room 3 := by
  have h3 := Cursor.kept_hasRoom room 3
  exact room_bump_bind hkind fun _ => h3.expectIdentifier.bind fun _ =>
    (keeps_function h3 h.keeps).bind fun _ => .pure _

theorem room_control {k : Nat} {kind : Kind} (hkind : kind ≠ .endOfInput) (form : ControlForm) :
    Triple (fun c => c.HasRoom room k ∧ c.kind = kind) (l.control form) fun _ => Cursor.HasRoom room 3 := by
  have h3 := Cursor.kept_hasRoom room 3
  have hhead : Triple (fun c => c.HasRoom room k ∧ c.kind = kind) (l.head form) fun _ => Cursor.HasRoom room 3 :=
    room_bump_bind hkind fun _ => (h3.expect _).bind fun _ => (keeps_header h3 h.keeps form).bind fun _ =>
      (h3.expect _).bind fun _ => (keeps_body h3 h.keeps).bind fun _ => .pure _
  exact hhead.bind fun _ => (Keeps.grow (keeps_linkRound h3 h.keeps) _).bind fun _ => .pure _

theorem room_returning {k : Nat} {kind : Kind} (hkind : kind ≠ .endOfInput) :
    Triple (fun c => c.HasRoom room k ∧ c.kind = kind) l.returning fun _ => Cursor.HasRoom room 3 :=
  room_bump_bind hkind fun _ => .kind_bind fun _ => .bind (.look _) fun _ =>
    .ite (fun _ => h.keeps.expression.bind fun _ => .pure _) fun _ => .pure _

theorem keepsRoom_statementHere (nested : Bool) : (l.statementHere nested).Keeps (Cursor.HasRoom room 2) := by
  have h2 := Cursor.kept_hasRoom room 2
  have hended {P : Cursor → Prop} {inner : Rule Node} (hinner : Triple P inner fun _ => Cursor.HasRoom room 2) :
      Triple P (ended inner) fun _ => Cursor.HasRoom room 2 :=
    hinner.bind fun _ => (h2.optional _).bind fun _ => .pure _
  have hwhole {P : Cursor → Prop} {inner : Rule Node} (hinner : Triple P inner fun _ => Cursor.HasRoom room 2) :
      Triple P (whole inner) fun _ => Cursor.HasRoom room 2 := hinner.bind fun _ => Triple.pure fun _ => id
  have hexpression := hended h.expression
  refine Triple.kind_bind fun k => Triple.look_bind fun next =>
    Triple.of_imp (P := fun c => c.HasRoom room 2 ∧ c.kind = k) ?_ fun _ hc => hc.1
  have hless (n : Node) (c : Cursor) (hc : c.HasRoom room 3) : c.HasRoom room 2 := hc.mono (Nat.le_succ 2)
  split
  case h_1 | h_2 | h_3 => exact hended ((room_declaration h (by decide) _).to_imp hless)
  case h_4 =>
    exact Triple.ite (fun _ => hwhole ((room_functionDeclaration h (by decide)).to_imp hless)) fun _ =>
      hexpression.of_imp fun _ hc => hc.1
  case h_5 | h_6 | h_7 =>
    exact hwhole (Triple.map ((room_control h (by decide) _).to_imp fun _ _ hc => hc.mono (Nat.le_succ 2)))
  case h_8 => exact hended ((room_returning h (by decide)).to_imp hless)
  case h_9 => exact h2.emptyStatement.of_imp fun _ hc => hc.1
  case h_10 =>
    exact Triple.ite (fun _ => hexpression.of_imp fun _ hc => hc.1) fun _ =>
      (h2.unparsedStatement nested).of_imp fun _ hc => hc.1

omit h

/-! ### All levels -/

/-- A level that is entered takes one from the room. -/
theorem hasRoom_succ {k : Nat} {c : Cursor} : c.HasRoom (room + 1) (k + 1) ↔ c.HasRoom room k :=
  ⟨fun hc => ⟨hc.givenUp, Nat.le_of_succ_le_succ hc.enough⟩, fun hc => ⟨hc.givenUp, Nat.succ_le_succ hc.enough⟩⟩

theorem roomy_ofRemaining (limit room : Nat) : (ofRemaining limit room).Roomy room := by
  induction room with
  | zero =>
      have hnone {k : Nat} {c : Cursor} (hc : c.HasRoom 0 (k + 1)) : False := by
        have henough := hc.enough
        omega
      exact {
        statement := fun _ _ hc => (hnone hc).elim
        expression := fun _ hc => (hnone hc).elim
        prefixed := fun _ hc => (hnone hc.1).elim }
  | succ room ih =>
      exact {
        statement := fun nested =>
          (keepsRoom_statementHere ih nested).imp (fun _ => hasRoom_succ.mp) fun _ _ => hasRoom_succ.mpr
        expression := (keepsRoom_assignment ih).imp (fun _ => hasRoom_succ.mp) fun _ _ => hasRoom_succ.mpr
        prefixed :=
          (keepsRoom_operation ih).imp (fun _ hc => ⟨hasRoom_succ.mp hc.1, hc.2⟩) fun _ _ => hasRoom_succ.mpr }

end Level

end LosslessSyntax
