import LosslessSyntax.Tree.Part

/-! Walks through a tree, front to back. The events of a walk are the lexemes and the trivia texts met, and
their texts joined are the source the tree was read from. The descendants of a node are the node itself and
all nodes below it, every node before its children. -/

namespace LosslessSyntax

/-- What a walk meets: a lexeme, also a missing one, or the text of blanks or of a comment. -/
inductive Event where
  | lexeme (l : Lexeme)
  | trivia (text : Text)
  deriving DecidableEq, Repr

/-- The source text behind an event. -/
def Event.text : Event → Text
  | .lexeme l => l.restore
  | .trivia text => text

/-- The lexeme that an event is about, if it is about one. -/
def Event.lexeme? : Event → Option Lexeme
  | .lexeme l => some l
  | .trivia _ => none

namespace Node

/-- What a walk through the node meets, in order. -/
def events (n : Node) : List Event :=
  n.parts.attach.flatMap fun
    | ⟨.lexeme l, _⟩ => [.lexeme l]
    | ⟨.trivia text, _⟩ => [.trivia text]
    | ⟨.node child, _⟩ => child.events
termination_by sizeOf n
decreasing_by exact sizeOf_lt_of_mem_parts (by assumption)

/-- The node and all nodes below it, each before its children. -/
def descendants (n : Node) : List Node :=
  n :: n.parts.attach.flatMap fun
    | ⟨.node child, _⟩ => child.descendants
    | _ => []
termination_by sizeOf n
decreasing_by exact sizeOf_lt_of_mem_parts (by assumption)

end Node

/-- What a walk meets in a part. -/
def Part.events : Part Node → List Event
  | .lexeme l => [.lexeme l]
  | .trivia text => [.trivia text]
  | .node n => n.events

/-- The nodes in a part, each before its children. -/
def Part.descendants : Part Node → List Node
  | .node n => n.descendants
  | _ => []

namespace Node

/-- A node is walked part by part. -/
theorem events_eq (n : Node) : n.events = n.parts.flatMap Part.events := by
  rw [events]
  refine (List.flatMap_subtype fun p _ => ?_).trans (congrArg _ List.unattach_attach)
  cases p <;> rfl

theorem descendants_eq (n : Node) : n.descendants = n :: n.parts.flatMap Part.descendants := by
  rw [descendants]
  refine congrArg _ ((List.flatMap_subtype fun p _ => ?_).trans (congrArg _ List.unattach_attach))
  cases p <;> rfl

/-- What holds of a node whenever it holds of its children holds of all nodes. -/
theorem inductionOnParts {P : Node → Prop} (step : ∀ n, (∀ child, .node child ∈ n.parts → P child) → P n)
    (n : Node) : P n :=
  step n fun child h =>
    have := sizeOf_lt_of_mem_parts h
    inductionOnParts step child
termination_by sizeOf n

/-- The source text of the node: the texts of all that a walk meets. -/
def restore (n : Node) : Text := n.events.flatMap Event.text

end Node

/-- What a walk through a list of nodes meets. -/
def Node.eventsOfList (nodes : List Node) : List Event := nodes.flatMap Node.events

/-- The source text of nodes that follow each other. -/
def Node.restoreList (nodes : List Node) : Text := nodes.flatMap Node.restore

namespace Part

/-- The source text of a part. -/
def restore (p : Part Node) : Text := p.events.flatMap Event.text

@[simp] theorem restore_lexeme (l : Lexeme) : restore (.lexeme l) = l.restore := by
  simp [restore, events, Event.text]

@[simp] theorem restore_trivia (text : Text) : restore (.trivia text) = text := by
  simp [restore, events, Event.text]

@[simp] theorem restore_node (n : Node) : restore (.node n) = n.restore := rfl

end Part

namespace Node

/-- A node is written back part by part. -/
theorem restore_eq (n : Node) : n.restore = n.parts.flatMap Part.restore := by
  rw [restore, events_eq, List.flatMap_assoc]
  rfl

@[simp] theorem restoreList_nil : restoreList [] = [] := rfl

@[simp] theorem restoreList_cons (n : Node) (ns : List Node) :
    restoreList (n :: ns) = n.restore ++ restoreList ns := rfl

@[simp] theorem restoreList_append (ms ns : List Node) :
    restoreList (ms ++ ns) = restoreList ms ++ restoreList ns := List.flatMap_append

end Node

namespace Program

def events (p : Program) : List Event := Node.eventsOfList p.declarations

def descendants (p : Program) : List Node := p.declarations.flatMap Node.descendants

def restore (p : Program) : Text := Node.restoreList p.declarations

end Program

end LosslessSyntax
