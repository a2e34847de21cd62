import LosslessSyntax.Proofs.Tree.Flaw
import LosslessSyntax.Tree.Closure

/-! Comments that move into closures. Whatever trails a statement moves from behind it to its end, so a walk
meets the same before and after. A list of statements whose closures are still empty can even be had back:
taking all closures apart again undoes the attachment. -/

namespace LosslessSyntax

namespace Node

/-- A statement and the nodes of its closure, taken apart. -/
def detach : Node → List Node
  | .command inner semicolon closure => .command inner semicolon [] :: closure
  | n => [n]

/-- Whether the node has no closure yet. -/
def isOpen : Node → Bool
  | .command _ _ closure => closure.isEmpty
  | _ => true

theorem isOpen_of_isTrivia {n : Node} (h : n.isTrivia = true) : n.isOpen = true := by
  cases n <;> first | rfl | cases h

/-- What trails a statement is blanks and comments. -/
theorem isTrivia_of_mem_splitTrailing {nodes : List Node} : ∀ n ∈ (splitTrailing nodes).1, n.isTrivia = true := by
  fun_induction splitTrailing nodes <;> simp_all [isTrivia]

theorem closureWith_nil (trailing : List Node) : closureWith trailing [] = trailing := by
  cases trailing <;> rfl

/-- Taking all closures apart gives the list back to which trailing comments were attached. -/
theorem flatMap_detach_attachTrailing {nodes : List Node} (h : ∀ n ∈ nodes, n.isOpen = true) :
    (attachTrailing nodes).flatMap detach = nodes := by
  fun_induction attachTrailing nodes with
  | case1 => rfl
  | case2 inner semicolon closure rest ih =>
      have hclosure : closure = [] := List.isEmpty_iff.mp (h _ List.mem_cons_self)
      have hrest : ∀ n ∈ (splitTrailing rest).2, n.isOpen = true := fun n hn =>
        h n (List.mem_cons_of_mem _ (splitTrailing_append rest ▸ List.mem_append_right _ hn))
      rw [List.flatMap_cons, ih hrest, hclosure, closureWith_nil, detach, List.cons_append,
        splitTrailing_append]
  | case3 n rest hn ih =>
      have hdetach : detach n = [n] := by
        unfold detach
        split
        · exact absurd rfl (hn _ _ _)
        · rfl
      rw [List.flatMap_cons, ih fun m hm => h m (List.mem_cons_of_mem _ hm), hdetach]
      rfl

end Node

open LosslessSyntax.Part

theorem Part.Alike.detach (nodes : List Node) :
    Alike (nodes.map .node) ((nodes.flatMap Node.detach).map .node) := by
  induction nodes with
  | nil => exact .refl []
  | cons n nodes ih =>
      rw [List.flatMap_cons, List.map_append]
      show Alike ([.node n] ++ nodes.map .node) _
      refine Alike.append ?_ ih
      unfold Node.detach
      split
      · exact .command _ _ _
      · exact .refl _

/-- A walk meets the same whether or not trailing comments are attached. -/
theorem Part.Alike.attachTrailing {nodes : List Node} (h : ∀ n ∈ nodes, n.isOpen = true) :
    Alike (nodes.map .node) ((Node.attachTrailing nodes).map .node) := by
  have hdetach := Alike.detach (Node.attachTrailing nodes)
  rw [Node.flatMap_detach_attachTrailing h] at hdetach
  exact hdetach.symm

namespace Block

/-- A block as it is before any comment is attached to it. -/
structure Fresh (b : Block Node) : Prop where
  closing_eq_none : b.opening = none → b.closing = none
  closure_eq_nil : b.closure = []

theorem fresh_braces (opening closing : Lexeme) (statements : List Node) :
    Fresh ⟨some opening, statements, some closing, []⟩ where
  closing_eq_none hopening := by cases hopening
  closure_eq_nil := rfl

/-- Comments go into the closure of the last statement of a fresh block, if it is one without braces around it, and
else to the block, which has none. -/
theorem Fresh.attach_cases {b : Block Node} (h : b.Fresh) (comments : List Node) :
    (∃ front inner semicolon closure, b = ⟨none, front ++ [.command inner semicolon closure], none, []⟩ ∧
        b.attach comments = ⟨none, front ++ [.command inner semicolon (closure ++ comments)], none, []⟩) ∨
      b.attach comments = { b with closure := comments } := by
  obtain ⟨opening, statements, closing, closure⟩ := b
  obtain ⟨hclosing, hclosure⟩ := h
  cases hclosure
  rcases Block.attach_cases ⟨opening, statements, closing, []⟩ comments with ⟨rfl, hattach⟩ |
      ⟨front, inner, semicolon, closure, hbraced, rfl, hattach⟩ | ⟨-, -, hattach⟩
  · exact .inr hattach
  · obtain rfl : opening = none := by simpa [isBraced] using hbraced
    obtain rfl : closing = none := hclosing rfl
    exact .inl ⟨front, inner, semicolon, closure, rfl, hattach⟩
  · exact .inr hattach

/-- Attached to a block without braces, comments go to the end of its last statement, where nothing follows. -/
theorem alike_attach {b : Block Node} (h : b.Fresh) (comments : List Node) :
    Alike (b.parts ++ comments.map .node) (b.attach comments).parts := by
  rcases h.attach_cases comments with ⟨front, inner, semicolon, closure, rfl, hattach⟩ | hattach <;> rw [hattach]
  · simp only [parts, Lexeme.optionalParts, Option.toList_none, List.map_nil, List.nil_append,
      List.append_nil, List.map_append, List.map_cons, List.append_assoc]
    refine .append (.refl _) ?_
    have hbefore := (Alike.command inner semicolon closure).append (.refl (comments.map .node))
    have hafter := (Alike.command inner semicolon (closure ++ comments)).symm
    rw [List.map_append] at hafter
    exact hbefore.trans hafter
  · simp only [parts, h.closure_eq_nil, List.map_nil, List.append_nil]
    exact .refl _

/-- A body with its comments has as much of a statement as it had without. -/
theorem isBodiless_attach (b : Block Node) (comments : List Node) :
    (b.attach comments).isBodiless = b.isBodiless := by
  rcases b.attach_cases comments with ⟨-, h⟩ | ⟨front, inner, semicolon, closure, -, hfront, h⟩ | ⟨-, -, h⟩ <;> rw [h]
  · simp only [isBodiless, hfront, List.all_append, List.all_cons, Node.isTrivia]
    rfl
  · rfl

end Block

end LosslessSyntax
