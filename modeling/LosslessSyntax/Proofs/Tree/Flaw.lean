import LosslessSyntax.Tree.Walk

/-! Flaws of trees. A tree shows what was wrong with its source: tokens that fit nowhere are unparsed, tokens
that were due but absent are missing lexemes, and a body without braces may lack its statement. A part is
flawed if one of these is met anywhere in it. A semicolon by itself is no flaw, but it is counted too. -/

namespace LosslessSyntax

/-- Whether a body stands there without braces and without a statement. -/
def Block.isBodiless (b : Block Node) : Bool := !b.isBraced && b.statements.all Node.isTrivia

theorem Block.isBodiless_of_isBraced {b : Block Node} (h : b.isBraced = true) : b.isBodiless = false := by
  rw [Block.isBodiless, h]
  rfl

theorem Block.isBodiless_eq_false_iff {b : Block Node} :
    b.isBodiless = false ↔ (b.isBraced = false → ∃ s ∈ b.statements, s.isTrivia = false) := by
  rw [Block.isBodiless, Bool.and_eq_false_imp, List.all_eq_false]
  simp

/-- The bodies of a control statement, one for each branch. -/
def Control.blocks (c : Control Node) : List (Block Node) := c.body :: c.alternate.toList.map (·.body)

namespace Node

/-- The blocks that belong to the node itself. -/
def blocks : Node → List (Block Node)
  | .functionDeclaration _ _ body | .functionExpression _ _ body => [body.block]
  | .combinator control => control.blocks
  | _ => []

def isUnparsed : Node → Bool
  | .unparsed _ => true
  | _ => false

def isEmpty : Node → Bool
  | .empty => true
  | _ => false

/-- Whether the node is a semicolon by itself, a statement that does nothing. -/
def isIdle : Node → Bool
  | .command inner _ _ => inner.isEmpty
  | _ => false

/-- Whether something is wrong with the node apart from its parts. -/
def isFlawedItself (n : Node) : Bool := n.isUnparsed || n.blocks.any Block.isBodiless

theorem isFlawedItself_eq_false_iff {n : Node} :
    n.isFlawedItself = false ↔ n.isUnparsed = false ∧ ∀ b ∈ n.blocks, b.isBodiless = false := by
  rw [isFlawedItself, Bool.or_eq_false_iff, List.any_eq_false]
  simp

end Node

/-- Whether the event is a lexeme that is missing. -/
def Event.isMissing : Event → Bool
  | .lexeme l => l.isMissing
  | .trivia _ => false

namespace Part

/-- Whether a flaw is met anywhere in the part. -/
def isFlawed (p : Part Node) : Bool := p.descendants.any Node.isFlawedItself || p.events.any Event.isMissing

/-- The number of idle statements in the parts. -/
def idleCount (ps : List (Part Node)) : Nat := (ps.flatMap descendants).countP Node.isIdle

@[simp] theorem isFlawed_lexeme (l : Lexeme) : isFlawed (.lexeme l) = l.isMissing := by
  simp [isFlawed, descendants, events, Event.isMissing]

@[simp] theorem isFlawed_trivia (text : Text) : isFlawed (.trivia text) = false := rfl

theorem idleCount_append (ps qs : List (Part Node)) :
    idleCount (ps ++ qs) = idleCount ps + idleCount qs := by
  rw [idleCount, List.flatMap_append, List.countP_append]
  rfl

/-- Parts are flawed if a node or a lexeme is, wherever it is met in them. -/
theorem any_isFlawed (ps : List (Part Node)) :
    ps.any isFlawed =
      ((ps.flatMap descendants).any Node.isFlawedItself || (ps.flatMap events).any Event.isMissing) := by
  induction ps with
  | nil => rfl
  | cons p ps ih =>
      rw [List.any_cons, ih, isFlawed, List.flatMap_cons, List.flatMap_cons, List.any_append, List.any_append]
      ac_rfl

theorem isFlawed_node (n : Node) : isFlawed (.node n) = (n.isFlawedItself || n.parts.any isFlawed) := by
  rw [any_isFlawed, isFlawed, descendants, events, Node.descendants_eq, Node.events_eq, List.any_cons,
    Bool.or_assoc]

theorem idleCount_node (n : Node) :
    idleCount [.node n] = (if n.isIdle then 1 else 0) + idleCount n.parts := by
  rw [idleCount, List.flatMap_singleton, descendants, Node.descendants_eq, List.countP_cons, Nat.add_comm]
  rfl

/-- Trivia are neither flawed nor idle. -/
theorem sound_trivia {nodes : List Node} (h : ∀ n ∈ nodes, n.isTrivia = true) :
    (nodes.map node).any isFlawed = false ∧ idleCount (nodes.map node) = 0 := by
  induction nodes with
  | nil => exact ⟨rfl, rfl⟩
  | cons n nodes ih =>
      obtain ⟨hflawed, hidle⟩ := ih fun m hm => h m (List.mem_cons_of_mem _ hm)
      have hn : n.isTrivia = true := h n List.mem_cons_self
      have hhead : isFlawed (.node n) = false ∧ idleCount [.node n] = 0 := by
        rw [isFlawed_node, idleCount_node]
        cases n <;> first | exact absurd hn Bool.false_ne_true | exact ⟨rfl, rfl⟩
      constructor
      · rw [List.map_cons, List.any_cons, hhead.1, hflawed]
        rfl
      · show idleCount ([.node n] ++ nodes.map node) = 0
        rw [idleCount_append, hhead.2, hidle]

end Part

/-! ### Whole trees -/

namespace Program

/-- Whether nothing is wrong anywhere in the tree. -/
structure Flawless (p : Program) : Prop where
  parsed : ∀ n ∈ p.descendants, n.isUnparsed = false
  present : ∀ l, .lexeme l ∈ p.events → l.isMissing = false
  bodied : ∀ n ∈ p.descendants, ∀ b ∈ n.blocks,
    b.isBraced = false → ∃ s ∈ b.statements, s.isTrivia = false

theorem descendants_eq (p : Program) :
    p.descendants = (p.declarations.map .node).flatMap Part.descendants := by
  rw [List.flatMap_map]
  rfl

theorem events_eq (p : Program) : p.events = (p.declarations.map .node).flatMap Part.events := by
  rw [List.flatMap_map]
  rfl

/-- Nothing is wrong in a tree if none of its parts is flawed. -/
theorem flawless_iff (p : Program) : p.Flawless ↔ (p.declarations.map .node).any Part.isFlawed = false := by
  rw [Part.any_isFlawed, ← descendants_eq, ← events_eq, Bool.or_eq_false_iff, List.any_eq_false,
    List.any_eq_false]
  simp only [Bool.not_eq_true, Node.isFlawedItself_eq_false_iff, Block.isBodiless_eq_false_iff]
  constructor
  · intro h
    refine ⟨fun n hn => ⟨h.parsed n hn, h.bodied n hn⟩, fun e he => ?_⟩
    cases e with
    | lexeme l => exact h.present l he
    | trivia text => rfl
  · intro ⟨hnodes, hevents⟩
    exact {
      parsed := fun n hn => (hnodes n hn).1
      present := fun l hl => hevents (.lexeme l) hl
      bodied := fun n hn => (hnodes n hn).2 }

theorem countP_isIdle (p : Program) :
    p.descendants.countP Node.isIdle = Part.idleCount (p.declarations.map .node) := by
  rw [descendants_eq]
  rfl

end Program

/-! ### Parts with the same content -/

/-- Parts in which a walk meets the same, with flaws in both or in neither, and as many idle statements. -/
structure Part.Alike (ps qs : List (Part Node)) : Prop where
  events : ps.flatMap Part.events = qs.flatMap Part.events
  flawed : ps.any Part.isFlawed = qs.any Part.isFlawed
  idle : idleCount ps = idleCount qs

namespace Part.Alike

variable {ps qs rs ps' qs' : List (Part Node)}

theorem refl (ps : List (Part Node)) : Alike ps ps := ⟨rfl, rfl, rfl⟩

theorem symm (h : Alike ps qs) : Alike qs ps := ⟨h.events.symm, h.flawed.symm, h.idle.symm⟩

theorem trans (h : Alike ps qs) (h' : Alike qs rs) : Alike ps rs :=
  ⟨h.events.trans h'.events, h.flawed.trans h'.flawed, h.idle.trans h'.idle⟩

theorem append (h : Alike ps qs) (h' : Alike ps' qs') : Alike (ps ++ ps') (qs ++ qs') where
  events := by rw [List.flatMap_append, List.flatMap_append, h.events, h'.events]
  flawed := by rw [List.any_append, List.any_append, h.flawed, h'.flawed]
  idle := by rw [idleCount_append, idleCount_append, h.idle, h'.idle]

/-- A node that is neither flawed nor idle by itself is like its parts. -/
theorem node {n : Node} (hflawed : n.isFlawedItself = false) (hidle : n.isIdle = false) :
    Alike [.node n] n.parts where
  events := by rw [List.flatMap_singleton, Part.events, Node.events_eq]
  flawed := by rw [List.any_cons, List.any_nil, Bool.or_false, isFlawed_node, hflawed, Bool.false_or]
  idle := by
    rw [idleCount_node, hidle]
    exact Nat.zero_add _

/-- The closure of a statement is like nodes behind it. -/
theorem command (inner : Node) (semicolon : Option Lexeme) (closure : List Node) :
    Alike [.node (.command inner semicolon closure)]
      (.node (.command inner semicolon []) :: closure.map .node) := by
  have hparts : (Node.command inner semicolon closure).parts =
      (Node.command inner semicolon []).parts ++ closure.map .node := by
    rw [Node.parts, Node.parts, List.map_nil, List.append_nil]
  refine ⟨?_, ?_, ?_⟩
  · rw [List.flatMap_singleton, List.flatMap_cons, Part.events, Part.events, Node.events_eq,
      Node.events_eq (.command inner semicolon []), hparts, List.flatMap_append]
  · rw [List.any_cons, List.any_cons, List.any_nil, Bool.or_false, isFlawed_node,
      isFlawed_node (.command inner semicolon []), hparts, List.any_append, ← Bool.or_assoc]
    rfl
  · show idleCount [.node (.command inner semicolon closure)] =
      idleCount ([.node (.command inner semicolon [])] ++ closure.map .node)
    rw [idleCount_append, idleCount_node, idleCount_node (.command inner semicolon []), hparts,
      idleCount_append, Nat.add_assoc]
    rfl

end Part.Alike

end LosslessSyntax
