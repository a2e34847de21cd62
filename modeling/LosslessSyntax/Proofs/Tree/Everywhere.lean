import LosslessSyntax.Proofs.Tree.Trailing

/-! Children, and properties of all nodes of a tree. The children of a node are the nodes among its parts. A
property of all nodes is kept when children are put together, and when comments move into closures, for what
a closure holds was in the tree before. -/

namespace LosslessSyntax

section Children

variable {N : Type}

def Block.children (b : Block N) : List N := b.statements ++ b.closure

mutual

def Declarator.children : Declarator N → List N
  | .mk _ _ _ initializer additional => initializer.toList.map (·.value) ++ Declarator.chainChildren additional

def Declarator.chainChildren : List (Declarator N) → List N
  | [] => []
  | d :: ds => d.children ++ Declarator.chainChildren ds

end

def Control.children (c : Control N) : List N :=
  c.header ++ c.body.children ++ c.alternate.toList.flatMap (·.body.children)

theorem Block.node_mem_parts {b : Block N} {n : N} : .node n ∈ b.parts ↔ n ∈ b.children := by
  simp [parts, children, Lexeme.node_mem_optionalParts]

theorem Function.node_mem_parts {f : Function N} {n : N} : .node n ∈ f.parts ↔ n ∈ f.block.children := by
  simp [parts, Part.node_mem_interleave, Block.node_mem_parts]

mutual

theorem Declarator.node_mem_parts {d : Declarator N} {n : N} : .node n ∈ d.parts ↔ n ∈ d.children := by
  obtain ⟨_, _, _, initializer, additional⟩ := d
  have hchain : .node n ∈ Declarator.chainParts additional ↔ n ∈ Declarator.chainChildren additional :=
    Declarator.node_mem_chainParts
  cases initializer <;> simp [Declarator.parts, Declarator.children, Initializer.parts, hchain]

theorem Declarator.node_mem_chainParts {ds : List (Declarator N)} {n : N} :
    .node n ∈ Declarator.chainParts ds ↔ n ∈ Declarator.chainChildren ds := by
  cases ds with
  | nil => simp [Declarator.chainParts, Declarator.chainChildren]
  | cons d ds =>
      rw [Declarator.chainParts, Declarator.chainChildren, List.mem_append, List.mem_append,
        Declarator.node_mem_parts, Declarator.node_mem_chainParts]

end

theorem Declarator.chainChildren_eq (ds : List (Declarator N)) :
    Declarator.chainChildren ds = ds.flatMap Declarator.children := by
  induction ds with
  | nil => rfl
  | cons d ds ih => rw [Declarator.chainChildren, List.flatMap_cons, ih]

/-- Declarators that are chained to another one bring their children along. -/
theorem Declarator.forall_children_withAdditional {P : N → Prop} {d : Declarator N} {ds : List (Declarator N)}
    (h : ∀ n ∈ d.children, P n) (hds : ∀ e ∈ ds, ∀ n ∈ e.children, P n) :
    ∀ n ∈ (d.withAdditional ds).children, P n := by
  obtain ⟨_, _, _, initializer, additional⟩ := d
  rw [Declarator.children, List.forall_mem_append] at h
  rw [Declarator.withAdditional, Declarator.children, List.forall_mem_append, Declarator.chainChildren_eq,
    List.forall_mem_flatMap]
  exact ⟨h.1, hds⟩

theorem Control.node_mem_parts {c : Control N} {n : N} : .node n ∈ c.parts ↔ n ∈ c.children := by
  simp [parts, children, Alternate.parts, Part.node_mem_interleave, Block.node_mem_parts]

end Children

namespace Node

/-- The nodes directly below the node, in the order of the source. -/
def children : Node → List Node
  | .whitespace _ | .comment _ | .identifier _ | .literal _ | .empty | .unparsed _ => []
  | .invocation callee _ arguments _ _ => callee :: arguments
  | .access base _ _ => [base]
  | .index base _ subscript _ => [base, subscript]
  | .object _ fields _ _ => fields.map (·.value)
  | .array _ elements _ _ => elements
  | .declaration first => first.children
  | .assignment target _ value => [target, value]
  | .functionDeclaration _ _ body | .functionExpression _ _ body => body.block.children
  | .operator left _ right => left.toList ++ right.toList
  | .parenthesized _ inner _ => [inner]
  | .combinator control => control.children
  | .returning _ value => value.toList
  | .command inner _ closure => inner :: closure

theorem node_mem_parts {n child : Node} : .node child ∈ n.parts ↔ child ∈ n.children := by
  cases n with
  | declaration => exact Declarator.node_mem_parts
  | combinator => exact Control.node_mem_parts
  | object =>
      simp [parts, children, Part.node_mem_interleave, Field.parts, eq_comm]
  | _ =>
      simp [parts, children, Part.node_mem_interleave, Lexeme.node_mem_optionalParts, Function.node_mem_parts]

/-- Whether the node and all nodes below it have the property. -/
def Everywhere (P : Node → Prop) (n : Node) : Prop := ∀ m ∈ n.descendants, P m

variable {P : Node → Prop}

theorem everywhere_iff {n : Node} : n.Everywhere P ↔ P n ∧ ∀ child ∈ n.children, child.Everywhere P := by
  rw [Everywhere, descendants_eq, List.forall_mem_cons, List.forall_mem_flatMap]
  refine and_congr_right fun _ => ⟨fun h child hchild => ?_, fun h p hp => ?_⟩
  · exact h (.node child) (node_mem_parts.mpr hchild)
  · cases p with
    | node child => exact h child (node_mem_parts.mp hp)
    | _ => exact fun _ hm => absurd hm List.not_mem_nil

/-- What holds of a node and all nodes below it holds of each of these and all below it. -/
theorem Everywhere.of_mem_descendants {n m : Node} (h : n.Everywhere P) (hm : m ∈ n.descendants) :
    m.Everywhere P := by
  induction n using inductionOnParts with
  | step n ih =>
      rw [descendants_eq] at hm
      rcases List.mem_cons.mp hm with rfl | hm
      · exact h
      · obtain ⟨p, hp, hm⟩ := List.mem_flatMap.mp hm
        cases p with
        | node child => exact ih child hp ((everywhere_iff.mp h).2 child (node_mem_parts.mp hp)) hm
        | _ => cases hm

theorem everywhere_leaf {n : Node} (h : n.children = []) : n.Everywhere P ↔ P n := by
  rw [everywhere_iff, h]
  simp

theorem children_of_isTrivia {n : Node} (h : n.isTrivia = true) : n.children = [] := by
  cases n <;> first | rfl | cases h

theorem everywhere_command {inner : Node} {semicolon : Option Lexeme} {closure : List Node} :
    (command inner semicolon closure).Everywhere P ↔
      P (.command inner semicolon closure) ∧ inner.Everywhere P ∧ ∀ n ∈ closure, n.Everywhere P := by
  rw [everywhere_iff, children, List.forall_mem_cons]

/-- Statements may get another closure if the property does not go by the closure. -/
theorem everywhere_attachTrailing
    (hP : ∀ inner semicolon closure closure', P (.command inner semicolon closure) →
      P (.command inner semicolon closure'))
    {nodes : List Node} (h : ∀ n ∈ nodes, n.Everywhere P) : ∀ n ∈ attachTrailing nodes, n.Everywhere P := by
  fun_induction attachTrailing nodes with
  | case1 => exact h
  | case2 inner semicolon closure rest ih =>
      obtain ⟨hstatement, hrest⟩ := List.forall_mem_cons.mp h
      obtain ⟨hself, hinner, hclosure⟩ := everywhere_command.mp hstatement
      rw [← splitTrailing_append rest, List.forall_mem_append] at hrest
      refine List.forall_mem_cons.mpr ⟨everywhere_command.mpr ⟨hP _ _ _ _ hself, hinner, ?_⟩, ih hrest.2⟩
      unfold closureWith
      split
      · exact hclosure
      · exact hrest.1
  | case3 n rest _ ih =>
      obtain ⟨hn, hrest⟩ := List.forall_mem_cons.mp h
      exact List.forall_mem_cons.mpr ⟨hn, ih hrest⟩

end Node

theorem Block.everywhere_attach {P : Node → Prop}
    (hP : ∀ inner semicolon closure closure', P (.command inner semicolon closure) →
      P (.command inner semicolon closure'))
    {b : Block Node} (h : ∀ n ∈ b.children, n.Everywhere P) {comments : List Node}
    (hcomments : ∀ n ∈ comments, n.Everywhere P) : ∀ n ∈ (b.attach comments).children, n.Everywhere P := by
  obtain ⟨hstatements, hclosure⟩ := List.forall_mem_append.mp h
  rcases b.attach_cases comments with ⟨-, hattach⟩ | ⟨front, inner, semicolon, closure, -, hfront, hattach⟩ |
      ⟨-, -, hattach⟩ <;> rw [hattach]
  · exact h
  · rw [hfront, List.forall_mem_append, List.forall_mem_singleton, Node.everywhere_command] at hstatements
    obtain ⟨hbefore, hself, hinner, hown⟩ := hstatements
    rw [children, List.forall_mem_append, List.forall_mem_append, List.forall_mem_singleton, Node.everywhere_command]
    exact ⟨⟨hbefore, hP _ _ _ _ hself, hinner, List.forall_mem_append.mpr ⟨hown, hcomments⟩⟩, hclosure⟩
  · exact List.forall_mem_append.mpr ⟨hstatements, hcomments⟩

theorem Control.everywhere_attach {P : Node → Prop}
    (hP : ∀ inner semicolon closure closure', P (.command inner semicolon closure) →
      P (.command inner semicolon closure'))
    {control : Control Node} (h : ∀ n ∈ control.children, n.Everywhere P) {comments : List Node}
    (hcomments : ∀ n ∈ comments, n.Everywhere P) :
    ∀ n ∈ children { control with body := control.body.attach comments }, n.Everywhere P := by
  rw [children, List.forall_mem_append, List.forall_mem_append] at h
  obtain ⟨⟨hheader, hbody⟩, halternate⟩ := h
  have hattached := Block.everywhere_attach hP hbody hcomments
  rw [children, List.forall_mem_append, List.forall_mem_append]
  exact ⟨⟨hheader, hattached⟩, halternate⟩

theorem Control.everywhere_with_alternate {P : Node → Prop} {control : Control Node}
    (h : ∀ n ∈ control.children, n.Everywhere P) {alternate : Alternate Node}
    (halternate : ∀ n ∈ alternate.body.children, n.Everywhere P) :
    ∀ n ∈ children { control with alternate := some alternate }, n.Everywhere P := by
  rw [children, List.forall_mem_append] at h
  simp only [children, List.forall_mem_append, Option.toList_some, List.flatMap_singleton]
  exact ⟨List.forall_mem_append.mp h.1, halternate⟩

/-- Whether all nodes of the tree have the property. -/
def Program.Everywhere (P : Node → Prop) (p : Program) : Prop := ∀ n ∈ p.descendants, P n

theorem Program.everywhere_iff {P : Node → Prop} {p : Program} :
    p.Everywhere P ↔ ∀ n ∈ p.declarations, n.Everywhere P := List.forall_mem_flatMap

end LosslessSyntax
