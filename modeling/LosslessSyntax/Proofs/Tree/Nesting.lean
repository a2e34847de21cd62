import LosslessSyntax.Proofs.Tree.Everywhere

/-! How deep a tree nests. On the way from the root to a leaf, levels are opened by every statement of a list,
by every expression that stands where a whole expression is due, and by every operator in front of its operand.
A choice that is all of an `else` branch opens none. What a closure holds are blanks and comments, which open
no level, so closures do not count. -/

namespace LosslessSyntax

namespace Node

/-- Whether the node is an expression. Tokens that fit nowhere may stand for one. -/
def isExpression : Node → Bool
  | .whitespace _ | .comment _ | .declaration _ | .functionDeclaration .. | .combinator _ | .returning .. => false
  | .command .. | .empty => false
  | _ => true

/-- Whether the node is a choice, as a statement. -/
def isChoice : Node → Bool
  | .command (.combinator control) _ _ => control.form = .ifForm
  | _ => false

/-- A step down to a child, with the number of levels that the child opens by its place. -/
abbrev Step := Nat × Node

/-- To an entry of a statement list. -/
def entryStep (n : Node) : Step := (if n.isTrivia then 0 else 1, n)

/-- To the content of a statement or a clause of a header: declarations, control flow and so on are no
expressions, and may be omitted. -/
def contentStep (n : Node) : Step := (if n.isExpression then 1 else 0, n)

/-- To what stands behind `else` without braces. -/
def elseStep (n : Node) : Step := (if n.isTrivia || n.isChoice then 0 else 1, n)

end Node

open Node

def Block.steps (b : Block Node) : List Step := b.statements.map entryStep

def Alternate.steps (a : Alternate Node) : List Step :=
  if a.body.isBraced then a.body.steps else a.body.statements.map elseStep

/-- The steps of a choice or a loop without those of its `else` branch. -/
def Control.ownSteps (c : Control Node) : List Step := c.header.map contentStep ++ c.body.steps

def Control.steps (c : Control Node) : List Step := c.ownSteps ++ c.alternate.toList.flatMap Alternate.steps

namespace Node

/-- The number of levels that the node opens wherever it stands. -/
def opens : Node → Nat
  | .operator none _ _ => 1
  | _ => 0

/-- The steps to the children of the node. -/
def steps : Node → List Step
  | .whitespace _ | .comment _ | .identifier _ | .literal _ | .empty | .unparsed _ => []
  | .invocation callee _ arguments _ _ => (0, callee) :: arguments.map (1, ·)
  | .access base _ _ => [(0, base)]
  | .index base _ subscript _ => [(0, base), (1, subscript)]
  | .object _ fields _ _ => fields.map fun f => (1, f.value)
  | .array _ elements _ _ => elements.map (1, ·)
  | .declaration first => first.children.map (1, ·)
  | .assignment target _ value => [(0, target), (1, value)]
  | .functionDeclaration _ _ body | .functionExpression _ _ body => body.block.steps
  | .operator left _ right => (left.toList ++ right.toList).map (0, ·)
  | .parenthesized _ inner _ => [(1, inner)]
  | .combinator control => control.steps
  | .returning _ value => value.toList.map (1, ·)
  | .command inner _ _ => [inner.contentStep]

end Node

theorem Block.mem_children_of_mem_steps {b : Block Node} {s : Step} (h : s ∈ b.steps) : s.2 ∈ b.children := by
  obtain ⟨n, hn, rfl⟩ := List.mem_map.mp h
  exact List.mem_append_left _ hn

theorem Alternate.mem_children_of_mem_steps {a : Alternate Node} {s : Step} (h : s ∈ a.steps) :
    s.2 ∈ a.body.children := by
  unfold steps at h
  split at h
  · exact Block.mem_children_of_mem_steps h
  · obtain ⟨n, hn, rfl⟩ := List.mem_map.mp h
    exact List.mem_append_left _ hn

theorem Control.mem_children_of_mem_steps {c : Control Node} {s : Step} (h : s ∈ c.steps) : s.2 ∈ c.children := by
  rw [steps, ownSteps, List.mem_append, List.mem_append] at h
  rw [children, List.mem_append, List.mem_append]
  refine h.imp (Or.imp (fun h => ?_) Block.mem_children_of_mem_steps) fun h => ?_
  · obtain ⟨n, hn, rfl⟩ := List.mem_map.mp h
    exact hn
  · obtain ⟨a, ha, h⟩ := List.mem_flatMap.mp h
    exact List.mem_flatMap.mpr ⟨a, ha, Alternate.mem_children_of_mem_steps h⟩

namespace Node

/-- Every step leads to a child. -/
theorem mem_children_of_mem_steps {n : Node} {s : Step} (h : s ∈ n.steps) : s.2 ∈ n.children := by
  cases n with
  | combinator => exact Control.mem_children_of_mem_steps h
  | functionDeclaration | functionExpression => exact Block.mem_children_of_mem_steps h
  | command =>
      rw [List.mem_singleton.mp h]
      exact List.mem_cons_self
  | whitespace | comment | identifier | literal | empty | unparsed => exact absurd h List.not_mem_nil
  | _ =>
      simp only [steps, List.mem_cons, List.mem_map, List.not_mem_nil, or_false] at h
      grind [children]

/-- The largest number of levels opened on the way from the node down to a leaf. -/
def nesting (n : Node) : Nat := n.opens + (n.steps.attach.map fun s => s.1.1 + s.1.2.nesting).foldr max 0
termination_by sizeOf n
decreasing_by exact sizeOf_lt_of_mem_parts (node_mem_parts.mpr (mem_children_of_mem_steps s.2))

/-- The largest number of levels opened by one of the steps and below it. -/
def deepest (steps : List Step) : Nat := (steps.map fun s => s.1 + s.2.nesting).foldr max 0

theorem nesting_eq (n : Node) : n.nesting = n.opens + deepest n.steps := by
  rw [nesting, deepest]
  congr 2
  exact List.attach_map_val (f := fun s : Step => s.1 + s.2.nesting)

/-- Whether no step leads to more than `r` levels. -/
def Fit (r : Nat) (steps : List Step) : Prop := ∀ s ∈ steps, s.1 + s.2.nesting ≤ r

variable {r : Nat}

@[simp] theorem fit_nil : Fit r [] := List.forall_mem_nil _

@[simp] theorem fit_cons {s : Step} {steps : List Step} :
    Fit r (s :: steps) ↔ s.1 + s.2.nesting ≤ r ∧ Fit r steps := List.forall_mem_cons

@[simp] theorem fit_append {front back : List Step} : Fit r (front ++ back) ↔ Fit r front ∧ Fit r back :=
  List.forall_mem_append

theorem fit_map {A : Type} {f : A → Step} {as : List A} :
    Fit r (as.map f) ↔ ∀ a ∈ as, (f a).1 + (f a).2.nesting ≤ r := List.forall_mem_map

theorem deepest_le_iff {steps : List Step} : deepest steps ≤ r ↔ Fit r steps := by
  induction steps with
  | nil => simp [deepest]
  | cons s steps ih =>
      rw [fit_cons, ← ih]
      exact Nat.max_le

theorem nesting_le_iff {n : Node} (h : n.opens = 0) : n.nesting ≤ r ↔ Fit r n.steps := by
  rw [nesting_eq, h, Nat.zero_add, deepest_le_iff]

theorem nesting_of_isTrivia {n : Node} (h : n.isTrivia = true) : n.nesting = 0 := by
  rw [nesting_eq]
  cases n <;> first | rfl | cases h

/-- Blanks and comments always fit. -/
theorem fit_of_isTrivia {f : Node → Step} {nodes : List Node} (h : ∀ n ∈ nodes, n.isTrivia = true)
    (hf : ∀ n, n.isTrivia = true → f n = (0, n)) : Fit r (nodes.map f) := by
  rw [fit_map]
  intro n hn
  rw [hf n (h n hn), nesting_of_isTrivia (h n hn)]
  exact Nat.zero_le r

theorem entryStep_of_isTrivia {n : Node} (h : n.isTrivia = true) : n.entryStep = (0, n) := by
  rw [entryStep, if_pos h]

theorem elseStep_of_isTrivia {n : Node} (h : n.isTrivia = true) : n.elseStep = (0, n) := by
  rw [elseStep, h]
  rfl

theorem fit_contentStep_expression {n : Node} (h : n.isExpression = true) :
    Fit r [n.contentStep] ↔ 1 + n.nesting ≤ r := by
  rw [fit_cons, contentStep, if_pos h, and_iff_left fit_nil]

theorem fit_contentStep_other {n : Node} (h : n.isExpression = false) (hopens : n.opens = 0) :
    Fit r [n.contentStep] ↔ Fit r n.steps := by
  rw [fit_cons, contentStep, h, and_iff_left fit_nil, ← nesting_le_iff hopens]
  exact Iff.of_eq (congrArg (· ≤ r) (Nat.zero_add n.nesting))

theorem nesting_command_le_iff {inner : Node} {semicolon : Option Lexeme} {closure : List Node} :
    (command inner semicolon closure).nesting ≤ r ↔ Fit r [inner.contentStep] := nesting_le_iff rfl

/-- How deep a statement nests does not depend on the comments that trail it. -/
theorem nesting_command_closure (inner : Node) (semicolon : Option Lexeme) (closure closure' : List Node) :
    (command inner semicolon closure).nesting = (command inner semicolon closure').nesting := by
  rw [nesting_eq, nesting_eq]
  rfl

/-- Neither does how deep a list of statements nests. -/
theorem fit_attachTrailing {nodes : List Node} :
    Fit r ((attachTrailing nodes).map entryStep) ↔ Fit r (nodes.map entryStep) := by
  fun_induction attachTrailing nodes with
  | case1 => exact Iff.rfl
  | case2 inner semicolon closure rest ih =>
      have htrailing : Fit r ((splitTrailing rest).1.map entryStep) :=
        fit_of_isTrivia isTrivia_of_mem_splitTrailing fun _ => entryStep_of_isTrivia
      have hrest : Fit r (rest.map entryStep) ↔ Fit r ((splitTrailing rest).2.map entryStep) := by
        rw [← splitTrailing_append rest, List.map_append, fit_append, splitTrailing_append, and_iff_right htrailing]
      rw [List.map_cons, List.map_cons, fit_cons, fit_cons, ih, hrest]
      refine and_congr_left fun _ => ?_
      rw [entryStep, entryStep, nesting_command_closure inner semicolon _ closure]
      rfl
  | case3 n rest _ ih => rw [List.map_cons, List.map_cons, fit_cons, fit_cons, ih]

end Node

/-- Nor do the comments behind a body matter. -/
theorem Block.fit_steps_attach {b : Block Node} {comments : List Node} {r : Nat} :
    Fit r (b.attach comments).steps ↔ Fit r b.steps := by
  rcases b.attach_cases comments with ⟨-, h⟩ | ⟨front, inner, semicolon, closure, -, hfront, h⟩ | ⟨-, -, h⟩ <;> rw [h]
  · rw [steps, steps, hfront, List.map_append, List.map_append, fit_append, fit_append]
    refine and_congr_right fun _ => ?_
    rw [List.map_singleton, List.map_singleton, fit_cons, fit_cons, entryStep, entryStep,
      nesting_command_closure inner semicolon _ closure]
    rfl
  · rfl

/-- Where no choice stands behind `else`, its branch is like any other body. -/
theorem Alternate.steps_eq {a : Alternate Node}
    (h : a.body.isBraced = true ∨ ∀ n ∈ a.body.statements, n.isChoice = false) : a.steps = a.body.steps := by
  unfold steps
  split
  · rfl
  · next hbraced =>
      refine List.map_congr_left fun n hn => ?_
      rw [elseStep, h.resolve_left hbraced n hn, Bool.or_false]
      rfl

/-- The largest number of levels opened on the way from the root to a leaf. -/
def Program.nesting (p : Program) : Nat := deepest (p.declarations.map entryStep)

end LosslessSyntax
