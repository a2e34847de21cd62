import Mathlib.Data.List.Infix
import LosslessSyntax.Proofs.Parse.Facing
import LosslessSyntax.Proofs.Parse.Precedence
import LosslessSyntax.Proofs.Tree.Nesting

/-! Completeness of the rules for expressions: every well-formed expression is read back from its own lexemes, unless
what follows takes hold of it. An expression read so far grows as long as the next token is one that takes hold of
it at least as tightly as the rule asks. So the left operand of an operation is no result of its own but what the
operation grows from, and the same holds of accesses, subscripts and calls. -/

namespace LosslessSyntax

open Rule Node

namespace Kind

/-- How tightly a token of the kind takes hold of an expression in front of it, if it does. -/
def grip? : Kind → Option Nat
  | .symbol .dot | .symbol .openBracket | .symbol .openParen => some 9
  | .symbol .increment | .symbol .decrement => some 8
  | k => if k.isAssignment then some 0 else (Tier.ofKind? k).map Tier.toNat

variable {k : Kind}

theorem grip?_of_isPostfixOperator (h : k.isPostfixOperator = true) : k.grip? = some 8 := by
  unfold isPostfixOperator at h
  split at h
  · rfl
  · rfl
  · cases h

theorem grip?_of_ofKind? {tier : Tier} (h : Tier.ofKind? k = some tier) : k.grip? = some tier.toNat := by
  unfold Tier.ofKind? at h
  split at h
  case h_16 => cases h
  all_goals cases h; rfl

theorem grip?_of_isAssignment (h : k.isAssignment = true) : k.grip? = some 0 := by
  cases k with
  | symbol s => cases s <;> first | rfl | cases h
  | _ => cases h

theorem grip?_of_endsList (h : k.endsList = true) : k.grip? = none := by
  cases k with
  | symbol s => cases s <;> first | rfl | cases h
  | endOfInput => rfl
  | _ => cases h

end Kind

theorem Lexeme.Spells.front_cons {l : Lexeme} {k : Kind} (h : l.Spells k) {ls : List Lexeme} : front (l :: ls) = k :=
  h.text.kind_eq

/-- Whether none of the lexemes takes hold of an expression in front of them as tightly as this, or more so. -/
def Lexeme.Release (tightness : Nat) (rest : List Lexeme) : Prop := ∀ grip ∈ (front rest).grip?, grip < tightness

namespace Lexeme.Release

variable {m n : Nat} {rest : List Lexeme}

theorem mono (h : Release m rest) (hle : m ≤ n) : Release n rest := fun g hg => Nat.lt_of_lt_of_le (h g hg) hle

theorem of_endsList (h : (front rest).endsList = true) : Release n rest := by
  intro g hg
  rw [Kind.grip?_of_endsList h] at hg
  cases hg

/-- In front of a lexeme it depends on this lexeme alone. -/
theorem of_grip {l : Lexeme} {k : Kind} (hl : l.Spells k) (hk : k.grip? = some m) (hlt : m < n) :
    Release n (l :: rest) := by
  intro g hg
  rw [front, hl.text.kind_eq, hk] at hg
  cases hg
  exact hlt

theorem of_closing {l : Lexeme} {k : Kind} (hl : l.Spells k) (hk : k.endsList = true) : Release n (l :: rest) :=
  of_endsList (by rw [hl.front_cons, hk])

theorem lt (h : Release n rest) (hm : (front rest).grip? = some m) : m < n := h m hm

end Lexeme.Release

open Lexeme (Release front)

theorem Node.WellFormed.front_operand {e : Node} (h : e.WellFormed) (htight : e.tightness = 9) (ls : List Lexeme) :
    (front (e.lexemes ++ ls)).isPrefixOperator = false := by
  obtain ⟨x, xs, hlexemes, -, hfront⟩ := h.begins
  rw [hlexemes]
  exact hfront (by omega)

/-- Whether the rule reads the expression wherever what follows does not take hold of it as tightly as this. -/
def Rule.ReadsAt (r : Rule Node) (tightness : Nat) (e : Node) : Prop :=
  ∀ rest, Release tightness rest → r.Reads e.lexemes rest e

namespace Level

variable {l : Level} {rest : List Lexeme}

/-! ### Where an expression ends -/

theorem suffixRound_last (base : Node) (h : Release 9 rest) : (l.suffixRound base).Reads [] rest (base, false) := by
  refine Becomes.kind_bind rfl ?_
  have hgrip : (front rest).grip? ≠ some 9 := fun hgrip => Nat.lt_irrefl 9 (h.lt hgrip)
  rw [List.nil_append]
  split
  case h_4 => exact .refl _ rest
  all_goals
    next hk =>
      rw [hk] at hgrip
      exact absurd rfl hgrip

theorem tierRound_last {tier : Tier} (operand : Rule Node) (left : Node) (h : Release tier.toNat rest) :
    (tierRound tier operand left).Reads [] rest (left, false) := by
  refine Becomes.kind_bind rfl ?_
  rw [List.nil_append, if_neg]
  · exact .refl _ rest
  · exact fun hk => Nat.lt_irrefl _ (h.lt (Kind.grip?_of_ofKind? hk))

/-! ### What a level reads back -/

/-- Whether the level comes from the lexemes of the expression to the loop in which accesses, subscripts and calls
are read. -/
def Grows (l : Level) (e : Node) : Prop :=
  ∀ rest, l.suffixed.Becomes e.lexemes rest (grow l.suffixRound l.advances_suffixRound e)

/-- Whether the level comes from the lexemes of the expression to the loop in which operators of a tier are read. -/
def GrowsAt (l : Level) (tier : Tier) (tighter : List Tier) (e : Node) : Prop :=
  ∀ rest, Release (Tier.bound tighter) rest → (l.tiered (tier :: tighter)).Becomes e.lexemes rest
    (operations tier (l.tiered tighter) e)

/-- Whether every rule of the level reads the expression, provided that it holds together as tightly as what the
rule reads. -/
structure Restores (l : Level) (e : Node) : Prop where
  suffixed : e.tightness = 9 → l.Grows e
  unary : 7 ≤ e.tightness → l.unary.ReadsAt 7 e
  operation : ∀ tier tighter, tier :: tighter <:+ Tier.all → tier.toNat ≤ e.tightness → l.GrowsAt tier tighter e
  assignment : l.assignment.ReadsAt 0 e

section Tiers

variable {e : Node} {tier : Tier} {tighter tiers : List Tier}

/-- An operand is complete if no operator of its tier follows. -/
theorem GrowsAt.readsAt (h : l.GrowsAt tier tighter e) (htiers : tier :: tighter <:+ Tier.all) :
    (l.tiered (tier :: tighter)).ReadsAt tier.toNat e := by
  intro rest hrest
  have hle : tier.toNat ≤ Tier.bound tighter := by
    rw [Tier.bound_eq htiers]
    exact Nat.le_succ _
  exact (h rest (hrest.mono hle)).trans_nil (Becomes.grow_last (tierRound_last _ e hrest))

/-- What the tighter tiers read is a first operand. -/
theorem growsAt_of_readsAt (h : (l.tiered tighter).ReadsAt (Tier.bound tighter) e) : l.GrowsAt tier tighter e := by
  intro rest hrest
  exact (h rest hrest).bind_nil (.refl _ rest)

theorem Restores.tiered (h : l.Restores e) (htiers : tiers <:+ Tier.all) (htight : Tier.bound tiers ≤ e.tightness) :
    (l.tiered tiers).ReadsAt (Tier.bound tiers) e := by
  cases tiers with
  | nil => exact h.unary htight
  | cons tier tighter => exact (h.operation tier tighter htiers htight).readsAt htiers

variable (hunary : 7 ≤ e.tightness → l.unary.ReadsAt 7 e)
  (hown : ∀ tier tighter, tier :: tighter <:+ Tier.all → tier.toNat = e.tightness → l.GrowsAt tier tighter e)
include hown

/-- At the tier of an operation its left operand grows; at a looser tier the operation is an operand. -/
theorem growsAt_of_le (htiers : tier :: tighter <:+ Tier.all) (htight : tier.toNat ≤ e.tightness)
    (h : Tier.bound tighter ≤ e.tightness → (l.tiered tighter).ReadsAt (Tier.bound tighter) e) :
    l.GrowsAt tier tighter e := by
  rcases Nat.eq_or_lt_of_le htight with heq | hlt
  · exact hown tier tighter htiers heq
  · refine growsAt_of_readsAt (h ?_)
    rw [Tier.bound_eq htiers]
    exact hlt

include hunary

theorem readsAt_tiered (htiers : tiers <:+ Tier.all) (htight : Tier.bound tiers ≤ e.tightness) :
    (l.tiered tiers).ReadsAt (Tier.bound tiers) e := by
  induction tiers with
  | nil => exact hunary htight
  | cons tier tighter ih =>
      have hoperand := ih ((List.suffix_cons tier tighter).trans htiers)
      exact (growsAt_of_le hown htiers htight hoperand).readsAt htiers

/-- An expression that is no assignment may stand where one may. -/
theorem readsAt_assignment (htight : 1 ≤ e.tightness) : l.assignment.ReadsAt 0 e := by
  intro rest hrest
  rw [Level.assignment, binary_zero_eq_tiered]
  have htarget := readsAt_tiered hunary hown List.suffix_rfl htight rest (hrest.mono (Nat.zero_le 1))
  refine htarget.bind_nil (Becomes.kind_bind rfl ?_)
  rw [List.nil_append, if_neg]
  · exact .refl _ rest
  · exact fun hk => Nat.lt_irrefl 0 (hrest.lt (Kind.grip?_of_isAssignment hk))

/-- What reads an expression at its own tightness passes it through all looser tiers. -/
theorem restores_of (htight : 1 ≤ e.tightness) (hsuffixed : e.tightness = 9 → l.Grows e) : l.Restores e where
  suffixed := hsuffixed
  unary := hunary
  operation _ _ htiers hle :=
    growsAt_of_le hown htiers hle (readsAt_tiered hunary hown ((List.suffix_cons _ _).trans htiers))
  assignment := readsAt_assignment hunary hown htight

end Tiers

/-! ### Primary expressions -/

section Primary

variable {x opening closing : Lexeme} {n : Node} {ns : List Node} {commas : List Lexeme} {k : Kind}

theorem reads_identifier (hk : k.isVariable = true) (hx : k.Allows x.text) :
    l.primary.Reads (identifier x).lexemes rest (.identifier x) := by
  rw [lexemes_identifier]
  have hfront : front ([x] ++ rest) = k := hx.kind_eq
  refine Becomes.kind_bind hfront ?_
  unfold Kind.isVariable at hk
  split at hk
  · exact (Becomes.reads_bump x rest).map _
  · exact (Becomes.reads_bump x rest).map _
  · cases hk

theorem reads_literal (hk : k.isConstant = true) (hx : x.Spells k) :
    l.primary.Reads (literal x).lexemes rest (.literal x) := by
  rw [lexemes_literal]
  refine Becomes.kind_bind hx.front_cons ?_
  unfold Kind.isConstant at hk
  split at hk
  case h_6 => cases hk
  all_goals exact (Becomes.reads_bump x rest).map _

theorem reads_parenthesized (hopening : opening.Spells (.symbol .openParen)) (hinner : l.expression.ReadsAt 0 n)
    (hclosing : closing.Spells (.symbol .closeParen)) :
    l.primary.Reads (parenthesized opening n closing).lexemes rest (.parenthesized opening n closing) := by
  rw [lexemes_parenthesized]
  refine Becomes.kind_bind hopening.front_cons (Becomes.bump_bind ?_)
  refine (hinner _ (.of_closing hclosing rfl)).bind ?_
  exact Becomes.expect_bind hclosing.text.kind_eq (.refl _ rest)

/-- Expressions in brackets are read up to the closing one. -/
theorem reads_expressions {bracket : Symbol} (hbracket : bracket.closes = true)
    (hclosing : closing.Spells (.symbol bracket)) (hns : ∀ n ∈ ns, n.WellFormed ∧ l.expression.ReadsAt 0 n)
    (hcommas : Lexeme.AreCommas commas ns.length) :
    (l.expressions bracket).Reads (Part.interleave (ns.map lexemes) commas) (closing :: rest) (ns, commas) := by
  refine Becomes.separated (fun n hn behind hbehind => ?_) ?_ ?_ ?_ hcommas
  · obtain ⟨hform, hread⟩ := hns n hn
    obtain ⟨y, ys, hlexemes, hstarts, -⟩ := hform.begins
    refine Becomes.kind_bind rfl ?_
    rw [if_neg]
    · exact (hread behind (.of_endsList hbehind)).map some
    · rw [hlexemes, List.cons_append, front, Bool.or_eq_true, decide_eq_true_eq, decide_eq_true_eq]
      rintro (hk | hk)
      · rw [hk] at hstarts
        cases bracket <;> cases hbracket <;> cases hstarts
      · rw [hk] at hstarts
        cases hstarts
  · refine Becomes.kind_bind hclosing.front_cons ?_
    rw [if_pos (by simp)]
    exact .refl _ _
  · rw [hclosing.front_cons]
    cases bracket <;> first | rfl | cases hbracket
  · rw [hclosing.front_cons]
    rintro ⟨⟩
    cases hbracket

theorem reads_array (hopening : opening.Spells (.symbol .openBracket))
    (hns : ∀ n ∈ ns, n.WellFormed ∧ l.expression.ReadsAt 0 n) (hcommas : Lexeme.AreCommas commas ns.length)
    (hclosing : closing.Spells (.symbol .closeBracket)) :
    l.primary.Reads (array opening ns commas closing).lexemes rest (.array opening ns commas closing) := by
  rw [lexemes_array]
  refine Becomes.kind_bind hopening.front_cons (Becomes.bump_bind ?_)
  refine (reads_expressions rfl hclosing hns hcommas).bind ?_
  exact Becomes.expect_bind hclosing.text.kind_eq (.refl _ rest)

/-- A field is read up to the comma or the brace behind its value. -/
theorem reads_field {f : Field Node} (hkey : ∃ k, Kind.isPropertyName k = true ∧ f.key.Spells k)
    (hcolon : f.colon.Spells (.symbol .colon)) (hvalue : l.expression.ReadsAt 0 f.value)
    (hrest : (front rest).endsList = true) :
    l.field.Reads (f.key :: f.colon :: f.value.lexemes) rest (some f) := by
  obtain ⟨k, hname, hkey⟩ := hkey
  refine Becomes.kind_bind hkey.front_cons ?_
  rw [if_neg]
  · have hread : fieldKey.Reads [f.key] (f.colon :: f.value.lexemes ++ rest) (some f.key) := by
      refine Becomes.kind_bind hkey.front_cons ?_
      rw [if_pos hname]
      exact (Becomes.reads_bump f.key _).map some
    refine hread.bind (Becomes.expect_bind hcolon.text.kind_eq ?_)
    exact (hvalue rest (.of_endsList hrest)).bind_nil (.refl _ rest)
  · rw [Bool.or_eq_true, decide_eq_true_eq, decide_eq_true_eq]
    rintro (rfl | rfl) <;> cases hname

theorem reads_object {fields : List (Field Node)} (hopening : opening.Spells (.symbol .openBrace))
    (hkeys : ∀ f ∈ fields, ∃ k, Kind.isPropertyName k = true ∧ f.key.Spells k)
    (hcolons : ∀ f ∈ fields, f.colon.Spells (.symbol .colon))
    (hvalues : ∀ f ∈ fields, l.expression.ReadsAt 0 f.value) (hcommas : Lexeme.AreCommas commas fields.length)
    (hclosing : closing.Spells (.symbol .closeBrace)) :
    l.primary.Reads (object opening fields commas closing).lexemes rest (.object opening fields commas closing) := by
  have hend : l.field.Reads [] (closing :: rest) none := by
    refine Becomes.kind_bind hclosing.front_cons ?_
    rw [if_pos (by simp)]
    exact .refl _ _
  have hfields := Becomes.separated
    (fun f hf behind hbehind => reads_field (hkeys f hf) (hcolons f hf) (hvalues f hf) hbehind) hend
    (by rw [hclosing.front_cons]; rfl) (by rw [hclosing.front_cons]; decide) hcommas
  rw [lexemes_object]
  refine Becomes.kind_bind hopening.front_cons (Becomes.bump_bind ?_)
  exact hfields.bind (Becomes.expect_bind hclosing.text.kind_eq (.refl _ rest))

end Primary

/-! ### Accesses, subscripts and calls -/

section Suffix

variable {dot field opening closing : Lexeme} {n base : Node} {ns : List Node} {commas : List Lexeme} {k : Kind}

theorem grows_primary {e : Node} (h : ∀ rest, l.primary.Reads e.lexemes rest e) : l.Grows e := by
  intro rest
  exact (h rest).bind_nil (.refl _ rest)

theorem grows_access (hbase : l.Grows base) (hdot : dot.Spells (.symbol .dot)) (hk : k.isFieldName = true)
    (hfield : field.Spells k) : l.Grows (.access base dot field) := by
  intro rest
  have hname : fieldName.Reads [field] rest field := by
    refine Becomes.kind_bind hfield.front_cons ?_
    rw [if_pos]
    · exact Becomes.reads_bump field rest
    · unfold Kind.isFieldName at hk
      split at hk
      · rfl
      · rw [hk, Bool.or_true]
  rw [lexemes_access]
  refine (hbase _).trans (Becomes.grow_next (Becomes.kind_bind hdot.front_cons (Becomes.bump_bind ?_)))
  exact hname.bind (.refl _ rest)

theorem grows_index (hbase : l.Grows base) (hopening : opening.Spells (.symbol .openBracket))
    (hsubscript : l.expression.ReadsAt 0 n) (hclosing : closing.Spells (.symbol .closeBracket)) :
    l.Grows (.index base opening n closing) := by
  intro rest
  rw [lexemes_index]
  refine (hbase _).trans (Becomes.grow_next (Becomes.kind_bind hopening.front_cons (Becomes.bump_bind ?_)))
  refine (hsubscript _ (.of_closing hclosing rfl)).bind ?_
  exact Becomes.expect_bind hclosing.text.kind_eq (.refl _ rest)

theorem grows_invocation (hcallee : l.Grows base) (hopening : opening.Spells (.symbol .openParen))
    (hns : ∀ n ∈ ns, n.WellFormed ∧ l.expression.ReadsAt 0 n) (hcommas : Lexeme.AreCommas commas ns.length)
    (hclosing : closing.Spells (.symbol .closeParen)) : l.Grows (.invocation base opening ns commas closing) := by
  intro rest
  rw [lexemes_invocation]
  refine (hcallee _).trans (Becomes.grow_next (Becomes.kind_bind hopening.front_cons (Becomes.bump_bind ?_)))
  refine (reads_expressions rfl hclosing hns hcommas).bind ?_
  exact Becomes.expect_bind hclosing.text.kind_eq (.refl _ rest)

end Suffix

/-! ### Operators -/

section Operators

variable {e operand left right target value : Node} {symbol : Lexeme} {k : Kind}

/-- An expression without an operator in front is an operand with or without one behind. -/
theorem unary_becomes (hfront : ∀ ls, (front (e.lexemes ++ ls)).isPrefixOperator = false) (hgrows : l.Grows e)
    {ls : List Lexeme} (hls : Release 9 (ls ++ rest)) {s : Rule Node}
    (h : Becomes (do
      let k ← kind
      let separate ← look Cursor.followsLineBreak
      if k.isPostfixOperator && !separate then do
        let symbol ← bump
        return .operator (some e) symbol none
      else return e) ls rest s) : l.unary.Becomes (e.lexemes ++ ls) rest s := by
  have hsuffixed : l.suffixed.Reads e.lexemes (ls ++ rest) e :=
    (hgrows _).trans_nil (Becomes.grow_last (suffixRound_last e hls))
  refine Becomes.kind_bind rfl ?_
  rw [List.append_assoc, hfront]
  exact hsuffixed.bind h

theorem readsAt_unary (hfront : ∀ ls, (front (e.lexemes ++ ls)).isPrefixOperator = false) (hgrows : l.Grows e) :
    l.unary.ReadsAt 7 e := by
  intro rest hrest
  rw [← List.append_nil e.lexemes]
  refine unary_becomes hfront hgrows (hrest.mono (by decide)) ?_
  refine Becomes.kind_bind rfl (Becomes.followsLineBreak_bind ?_)
  have hnone : (front rest).isPostfixOperator = false := by
    rw [← Bool.not_eq_true]
    exact fun hk => absurd (hrest.lt (Kind.grip?_of_isPostfixOperator hk)) (by decide)
  rw [List.nil_append, hnone]
  exact .refl _ rest

theorem readsAt_postfixed (hfront : ∀ ls, (front (operand.lexemes ++ ls)).isPrefixOperator = false)
    (hgrows : l.Grows operand) (hk : k.isPostfixOperator = true) (hsymbol : symbol.Spells k) :
    l.unary.ReadsAt 7 (.operator (some operand) symbol none) := by
  intro rest _
  rw [lexemes_postfixed]
  have hgrip : Release 9 ([symbol] ++ rest) := .of_grip hsymbol (Kind.grip?_of_isPostfixOperator hk) (by decide)
  refine unary_becomes hfront hgrows hgrip ?_
  refine Becomes.kind_bind hsymbol.front_cons (Becomes.followsLineBreak_bind ?_)
  rw [hk]
  exact Becomes.bump_bind (.refl _ rest)

/-- An operator in front of its operand leads to the next level. -/
theorem readsAt_prefixed {deeper : Level} (hdeeper : l.prefixed = deeper.operation)
    (hoperand : deeper.unary.ReadsAt 7 operand) (hk : k.isPrefixOperator = true) (hsymbol : symbol.Spells k) :
    l.unary.ReadsAt 7 (.operator none symbol (some operand)) := by
  intro rest hrest
  rw [lexemes_prefixed]
  refine Becomes.kind_bind hsymbol.front_cons ?_
  rw [if_pos hk, hdeeper]
  refine Becomes.bump_bind ?_
  exact (hoperand rest hrest).bind_nil (.refl _ rest)

/-- The left operand of an operation grows by the operator and the right one. -/
theorem growsAt_binary {tier : Tier} {tighter : List Tier} (htiers : tier :: tighter <:+ Tier.all)
    (hleft : l.GrowsAt tier tighter left) (hk : Tier.ofKind? k = some tier) (hsymbol : symbol.Spells k)
    (hright : (l.tiered tighter).ReadsAt (Tier.bound tighter) right) :
    l.GrowsAt tier tighter (.operator (some left) symbol (some right)) := by
  intro rest hrest
  have hgrip : Release (Tier.bound tighter) (symbol :: right.lexemes ++ rest) := by
    refine .of_grip hsymbol (Kind.grip?_of_ofKind? hk) ?_
    rw [Tier.bound_eq htiers]
    exact Nat.lt_succ_self _
  rw [lexemes_binary]
  refine (hleft _ hgrip).trans (Becomes.grow_next (Becomes.kind_bind hsymbol.front_cons ?_))
  rw [if_pos hk]
  refine Becomes.bump_bind ?_
  exact (hright rest hrest).bind_nil (.refl _ rest)

theorem readsAt_assignment_of (htarget : (l.tiered Tier.all).ReadsAt 1 target) (hk : k.isAssignment = true)
    (hsymbol : symbol.Spells k) (hvalue : l.expression.ReadsAt 0 value) :
    l.assignment.ReadsAt 0 (.assignment target symbol value) := by
  intro rest hrest
  have hgrip : Release 1 (symbol :: value.lexemes ++ rest) :=
    .of_grip hsymbol (Kind.grip?_of_isAssignment hk) (by decide)
  rw [lexemes_assignment, Level.assignment, binary_zero_eq_tiered]
  refine (htarget _ hgrip).bind (Becomes.kind_bind hsymbol.front_cons ?_)
  rw [if_pos hk]
  refine Becomes.bump_bind ?_
  exact (hvalue rest hrest).bind_nil (.refl _ rest)

end Operators

/-! ### All levels -/

/-- An expression that no binary operator made is none of the operations. -/
theorem restores_of_unary {e : Node} (htight : 7 ≤ e.tightness) (hunary : l.unary.ReadsAt 7 e)
    (hsuffixed : e.tightness = 9 → l.Grows e) : l.Restores e := by
  refine restores_of (fun _ => hunary) (fun tier _ _ heq => ?_) (by omega) hsuffixed
  have := tier.toNat_range
  omega

theorem restores_of_grows {e : Node} (hfront : ∀ ls, (front (e.lexemes ++ ls)).isPrefixOperator = false)
    (htight : e.tightness = 9) (hgrows : l.Grows e) : l.Restores e :=
  restores_of_unary (by omega) (readsAt_unary hfront hgrows) fun _ => hgrows

theorem restores_of_wellFormed {e : Node} (h : e.WellFormed) (htight : e.tightness = 9) (hgrows : l.Grows e) :
    l.Restores e := restores_of_grows (h.front_operand htight) htight hgrows

theorem restores_prefixed {limit : Nat} {symbol : Lexeme} {operand : Node} {k : Kind} (hk : k.isPrefixOperator = true)
    (hsymbol : symbol.Spells k) (htight : 7 ≤ operand.tightness)
    (ih : ∀ r, operand.nesting ≤ r → (ofRemaining limit r).Restores operand) {r : Nat}
    (hr : (operator none symbol (some operand)).nesting ≤ r) :
    (ofRemaining limit r).Restores (.operator none symbol (some operand)) := by
  have hnesting : (operator none symbol (some operand)).nesting = 1 + deepest [(0, operand)] := nesting_eq _
  rw [hnesting] at hr
  cases r with
  | zero => omega
  | succ r =>
      have hdeepest : deepest [(0, operand)] ≤ r := by omega
      rw [deepest_le_iff, fit_cons, Nat.zero_add] at hdeepest
      have hdeeper : (ofRemaining limit (r + 1)).prefixed = (ofRemaining limit r).operation := rfl
      have hread := readsAt_prefixed hdeeper ((ih r hdeepest.1).unary htight) hk hsymbol
      exact restores_of_unary (Nat.le_refl 7) hread fun heq => absurd heq (by decide : 7 ≠ 9)

theorem restores_binary {l : Level} {left right : Node} {symbol : Lexeme} {k : Kind} {tier : Tier}
    (hleftTight : tier.toNat ≤ left.tightness) (hleft : l.Restores left) (hk : Tier.ofKind? k = some tier)
    (hsymbol : symbol.Spells k) (hright : l.Restores right) (hrightTight : tier.toNat < right.tightness) :
    l.Restores (.operator (some left) symbol (some right)) := by
  have htight : (operator (some left) symbol (some right)).tightness = tier.toNat :=
    WellFormed.tightness_binary hk hsymbol
  have hrange := tier.toNat_range
  refine restores_of (fun h => by omega) (fun own tighter htiers heq => ?_) (by omega) fun h => by omega
  -- A level asks by tightness, but its loop is one of a tier.
  have hown : own = tier := Tier.toNat_injective (heq.trans htight)
  rw [hown] at htiers ⊢
  refine growsAt_binary htiers (hleft.operation tier tighter htiers hleftTight) hk hsymbol ?_
  refine hright.tiered ((List.suffix_cons tier tighter).trans htiers) ?_
  rw [Tier.bound_eq htiers]
  exact hrightTight

theorem restores_assignment {l : Level} {target value : Node} {symbol : Lexeme} {k : Kind}
    (htarget : l.Restores target) (htight : 1 ≤ target.tightness) (hk : k.isAssignment = true)
    (hsymbol : symbol.Spells k) (hvalue : l.expression.ReadsAt 0 value) :
    l.Restores (.assignment target symbol value) where
  suffixed h := absurd h (by decide : ¬0 = 9)
  unary h := absurd h (by decide : ¬7 ≤ 0)
  operation tier _ _ h := absurd (tier.toNat_range.1.trans h) (by decide : ¬1 ≤ 0)
  assignment := readsAt_assignment_of (htarget.tiered List.suffix_rfl htight) hk hsymbol hvalue

/-- A full expression takes one level more. -/
theorem readsAt_expression {limit : Nat} {n : Node} (h : ∀ r, n.nesting ≤ r → (ofRemaining limit r).Restores n)
    {r : Nat} (hr : 1 + n.nesting ≤ r) : (ofRemaining limit r).expression.ReadsAt 0 n := by
  cases r with
  | zero => omega
  | succ r => exact (h r (by omega)).assignment

/-- With as many levels as the expression opens, the expression is read back. -/
theorem restores_ofRemaining (limit : Nat) {e : Node} (h : e.WellFormed) :
    ∀ r, e.nesting ≤ r → (ofRemaining limit r).Restores e := by
  -- Operands, bases and callees are read at the level of the whole, full expressions one level further in.
  induction h with
  | identifier hk hl =>
      intro r _
      exact restores_of_wellFormed (.identifier hk hl) rfl (grows_primary fun _ => reads_identifier hk hl.text)
  | literal hk hl =>
      intro r _
      exact restores_of_wellFormed (.literal hk hl) rfl (grows_primary fun _ => reads_literal hk hl)
  | parenthesized hopening hinner hclosing ih =>
      intro r hr
      rw [nesting_le_iff rfl, steps, fit_cons] at hr
      refine restores_of_wellFormed (.parenthesized hopening hinner hclosing) rfl (grows_primary fun _ => ?_)
      exact reads_parenthesized hopening (readsAt_expression ih hr.1) hclosing
  | array hopening helements hcommas hclosing ih =>
      intro r hr
      rw [nesting_le_iff rfl, steps, fit_map] at hr
      have hread := fun n hn => And.intro (helements n hn) (readsAt_expression (ih n hn) (hr n hn))
      refine restores_of_wellFormed (.array hopening helements hcommas hclosing) rfl (grows_primary fun _ => ?_)
      exact reads_array hopening hread hcommas hclosing
  | object hopening hkeys hcolons hvalues hcommas hclosing ih =>
      intro r hr
      rw [nesting_le_iff rfl, steps, fit_map] at hr
      have hform := WellFormed.object hopening hkeys hcolons hvalues hcommas hclosing
      refine restores_of_wellFormed hform rfl (grows_primary fun _ => ?_)
      exact reads_object hopening hkeys hcolons (fun f hf => readsAt_expression (ih f hf) (hr f hf)) hcommas hclosing
  | access hbase htight hdot hk hfield ih =>
      intro r hr
      rw [nesting_le_iff rfl, steps, fit_cons, Nat.zero_add] at hr
      refine restores_of_wellFormed (.access hbase htight hdot hk hfield) rfl ?_
      exact grows_access ((ih r hr.1).suffixed htight) hdot hk hfield
  | index hbase htight hopening hsubscript hclosing ih ihsubscript =>
      intro r hr
      rw [nesting_le_iff rfl, steps, fit_cons, fit_cons, Nat.zero_add] at hr
      refine restores_of_wellFormed (.index hbase htight hopening hsubscript hclosing) rfl ?_
      exact grows_index ((ih r hr.1).suffixed htight) hopening (readsAt_expression ihsubscript hr.2.1) hclosing
  | invocation hcallee htight hopening harguments hcommas hclosing ih iharguments =>
      intro r hr
      rw [nesting_le_iff rfl, steps, fit_cons, fit_map, Nat.zero_add] at hr
      have hread := fun n hn => And.intro (harguments n hn) (readsAt_expression (iharguments n hn) (hr.2 n hn))
      refine restores_of_wellFormed (.invocation hcallee htight hopening harguments hcommas hclosing) rfl ?_
      exact grows_invocation ((ih r hr.1).suffixed htight) hopening hread hcommas hclosing
  | prefixed hk hsymbol hoperand htight ih => exact fun r hr => restores_prefixed hk hsymbol htight ih hr
  | postfixed hoperand htight hk hsymbol ih =>
      intro r hr
      rw [nesting_le_iff rfl] at hr
      simp only [steps, Option.toList_some, Option.toList_none, List.append_nil, List.map_cons, List.map_nil, fit_cons,
        Nat.zero_add] at hr
      have hgrows := (ih r hr.1).suffixed htight
      have hread := readsAt_postfixed (hoperand.front_operand htight) hgrows hk hsymbol
      exact restores_of_unary (by decide : 7 ≤ 8) hread fun heq => absurd heq (by decide : 8 ≠ 9)
  | binary hleft hleftTight hk hsymbol hright hrightTight ihleft ihright =>
      intro r hr
      rw [nesting_le_iff rfl] at hr
      simp only [steps, Option.toList_some, List.singleton_append, List.map_cons, List.map_nil, fit_cons,
        Nat.zero_add] at hr
      exact restores_binary hleftTight (ihleft r hr.1) hk hsymbol (ihright r hr.2.1) hrightTight
  | assignment htarget htight hk hoperator hvalue ihtarget ihvalue =>
      intro r hr
      rw [nesting_le_iff rfl, steps, fit_cons, fit_cons, Nat.zero_add] at hr
      exact restores_assignment (ihtarget r hr.1) htight hk hoperator (readsAt_expression ihvalue hr.2.1)

end Level

end LosslessSyntax
