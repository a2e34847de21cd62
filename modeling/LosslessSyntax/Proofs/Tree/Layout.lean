import LosslessSyntax.Proofs.Tree.Everywhere
import LosslessSyntax.Proofs.Tree.Placement

/-! The layout of trees: how many commas, clauses and separators stand where, what may stand in a list of statements
and in a block without braces, and which statements end with a semicolon. Each node is judged by its own parts and by
the blocks that belong to it. -/

namespace LosslessSyntax

/-- Whether commas may stand between items: as many as there are items or one fewer, and none without items. -/
def CommasFit (commas items : Nat) : Prop := (commas = items ∨ commas + 1 = items) ∧ (items = 0 → commas = 0)

/-- Whether the node may stand in a list of statements. -/
def Node.isEntry : Node → Bool
  | .whitespace _ | .comment _ | .command .. | .unparsed _ => true
  | _ => false

/-- Whether the node is a statement that was read as one. -/
def Node.isCommand : Node → Bool
  | .command .. => true
  | _ => false

namespace Block

/-- Whether the braces are both there or both not, and without braces there is at most one statement, behind blanks
and comments. -/
structure IsShaped (b : Block Node) : Prop where
  entries : ∀ n ∈ b.statements, n.isEntry = true
  braces : b.opening.isSome = b.closing.isSome
  single : b.isBraced = false → ∃ trivia others, b.statements = trivia ++ others ∧
    (∀ n ∈ trivia, n.isTrivia = true) ∧ (∀ n ∈ others, n.isTrivia = false) ∧ others.length ≤ 1

/-- Whether the block is shaped as it should be, and within braces comments stand where they should. -/
structure IsLaidOut (b : Block Node) : Prop extends b.IsShaped where
  comments : b.isBraced = true → Node.PlacesComments b.statements

end Block

/-- Whether a choice or a loop has the clauses of its form, an `else` only if it is a choice, and comments behind the
braces of its body only in front of an `else`. -/
structure Control.HasParts (c : Control Node) : Prop where
  header : c.header.length = c.form.clauses
  separators : c.separators.length = if c.form = .forForm then 2 else 0
  alternate : c.alternate.isSome = true → c.form = .ifForm
  closure : c.body.closure ≠ [] → c.body.isBraced = true ∧ c.form = .ifForm ∧ c.alternate.isSome = true
  branch : ∀ a ∈ c.alternate, a.body.closure = []

namespace Node

/-- Whether a statement may end so: one that ends with its body has no semicolon, and an empty one has nothing else. -/
def AllowsEnd : Node → Option Lexeme → Prop
  | .functionDeclaration .., semicolon | .combinator _, semicolon => semicolon = none
  | .empty, semicolon => semicolon.isSome = true
  | _, _ => True

/-- Whether the node has as many parts of each sort as it should. -/
def HasParts : Node → Prop
  | .invocation _ _ arguments commas _ => CommasFit commas.length arguments.length
  | .array _ elements commas _ => CommasFit commas.length elements.length
  | .object _ fields commas _ => CommasFit commas.length fields.length
  | .functionDeclaration _ _ body | .functionExpression _ _ body =>
    CommasFit body.commas.length body.parameters.length ∧ body.block.closure = []
  | .combinator control => control.HasParts
  | .declaration first => ∀ d ∈ first.additional, d.additional = []
  | .command inner semicolon _ => inner.AllowsEnd semicolon
  | _ => True

/-- Whether the node has the parts and its blocks have the shape that they should have. -/
structure IsShaped (n : Node) : Prop where
  parts : n.HasParts
  blocks : ∀ b ∈ n.blocks, b.IsShaped

/-- Whether the node has the parts that it should have, and its blocks are laid out as they should be. -/
structure IsLaidOut (n : Node) : Prop where
  parts : n.HasParts
  blocks : ∀ b ∈ n.blocks, b.IsLaidOut

/-- Whether the node and all nodes below it are laid out as they should be. -/
abbrev IsArranged (n : Node) : Prop := n.Everywhere IsLaidOut

theorem IsLaidOut.isShaped {n : Node} (h : n.IsLaidOut) : n.IsShaped where
  parts := h.parts
  blocks b hb := (h.blocks b hb).toIsShaped

/-- How a statement is laid out does not depend on the comments that trail it. -/
theorem IsLaidOut.with_closure {inner : Node} {semicolon : Option Lexeme} {closure : List Node}
    (h : (command inner semicolon closure).IsLaidOut) (closure' : List Node) :
    (command inner semicolon closure').IsLaidOut := ⟨h.parts, nofun⟩

theorem isLaidOut_of_blocks {n : Node} (hparts : n.HasParts) (hblocks : n.blocks = []) : n.IsLaidOut where
  parts := hparts
  blocks := by rw [hblocks]; exact nofun

/-- A node without blocks of its own is arranged if its parts and its children are. -/
theorem isArranged_of_children {n : Node} (hparts : n.HasParts) (hblocks : n.blocks = [])
    (hchildren : ∀ child ∈ n.children, child.IsArranged) : n.IsArranged :=
  everywhere_iff.mpr ⟨isLaidOut_of_blocks hparts hblocks, hchildren⟩

theorem isArranged_leaf {n : Node} (hchildren : n.children = []) (hparts : n.HasParts) (hblocks : n.blocks = []) :
    n.IsArranged := (everywhere_leaf hchildren).mpr (isLaidOut_of_blocks hparts hblocks)

theorem isArranged_of_isTrivia {n : Node} (h : n.isTrivia = true) : n.IsArranged := by
  refine isArranged_leaf (children_of_isTrivia h) ?_ ?_
  · cases n <;> trivial
  · cases n <;> first | rfl | cases h

theorem isEntry_of_isTrivia {n : Node} (h : n.isTrivia = true) : n.isEntry = true := by
  cases n <;> first | rfl | cases h

/-- Attaching comments leaves a list of statements one. -/
theorem isEntry_attachTrailing {nodes : List Node} (h : ∀ n ∈ nodes, n.isEntry = true) :
    ∀ n ∈ attachTrailing nodes, n.isEntry = true := by
  fun_induction attachTrailing nodes with
  | case1 => exact h
  | case2 inner semicolon closure rest ih =>
      have hrest := (List.forall_mem_cons.mp h).2
      rw [← splitTrailing_append rest, List.forall_mem_append] at hrest
      exact List.forall_mem_cons.mpr ⟨rfl, ih hrest.2⟩
  | case3 n rest _ ih =>
      obtain ⟨hn, hrest⟩ := List.forall_mem_cons.mp h
      exact List.forall_mem_cons.mpr ⟨hn, ih hrest⟩

end Node

namespace Block

theorem isShaped_braced {b : Block Node} (hentries : ∀ n ∈ b.statements, n.isEntry = true)
    (hopening : b.opening.isSome = true) (hclosing : b.closing.isSome = true) : b.IsShaped where
  entries := hentries
  braces := hopening.trans hclosing.symm
  single hbraced := by
    rw [isBraced, hopening] at hbraced
    cases hbraced

/-- A single statement behind its blanks and comments, or none. -/
theorem isLaidOut_bare {trivia others : List Node} (htrivia : ∀ n ∈ trivia, n.isTrivia = true)
    (hothers : ∀ n ∈ others, n.isEntry = true ∧ n.isTrivia = false) (hlength : others.length ≤ 1)
    (closure : List Node) : IsLaidOut ⟨none, trivia ++ others, none, closure⟩ where
  entries := List.forall_mem_append.mpr
    ⟨fun n hn => Node.isEntry_of_isTrivia (htrivia n hn), fun n hn => (hothers n hn).1⟩
  braces := rfl
  single _ := ⟨trivia, others, rfl, htrivia, fun n hn => (hothers n hn).2, hlength⟩
  comments hbraced := by cases hbraced

/-- A block in braces does not change with the comments behind it. -/
theorem IsLaidOut.with_closure {b : Block Node} (h : b.IsLaidOut) (closure : List Node) :
    IsLaidOut { b with closure } := ⟨⟨h.entries, h.braces, h.single⟩, h.comments⟩

/-- In a block without braces that ends in a statement, nothing but blanks and comments stands in front of it. -/
theorem IsShaped.isTrivia_front {b : Block Node} (h : b.IsShaped) (hbraced : b.isBraced = false) {front : List Node}
    {n : Node} (hstatements : b.statements = front ++ [n]) (hn : n.isTrivia = false) :
    ∀ m ∈ front, m.isTrivia = true := by
  obtain ⟨trivia, others, heq, htrivia, hothers, hlength⟩ := h.single hbraced
  rw [hstatements] at heq
  match others with
  | [] =>
      rw [List.append_nil] at heq
      have := htrivia n (heq ▸ List.mem_append_right _ List.mem_cons_self)
      rw [hn] at this
      cases this
  | [m] =>
      obtain ⟨rfl, -⟩ := List.append_inj' heq rfl
      exact htrivia
  | _ :: _ :: _ => exact absurd hlength (by simp)

/-- Whether the block and the nodes in it are laid out as they should be, and nothing is attached to it yet. -/
structure IsArranged (b : Block Node) : Prop where
  laidOut : b.IsLaidOut
  closure : b.closure = []
  children : ∀ n ∈ b.children, n.IsArranged

theorem isArranged_bare {trivia others : List Node} (htrivia : ∀ n ∈ trivia, n.isTrivia = true)
    (hothers : ∀ n ∈ others, (n.isEntry = true ∧ n.isTrivia = false) ∧ n.IsArranged) (hlength : others.length ≤ 1) :
    IsArranged ⟨none, trivia ++ others, none, []⟩ where
  laidOut := isLaidOut_bare htrivia (fun n hn => (hothers n hn).1) hlength []
  closure := rfl
  children := by
    rw [Block.children, List.append_nil, List.forall_mem_append]
    exact ⟨fun n hn => Node.isArranged_of_isTrivia (htrivia n hn), fun n hn => (hothers n hn).2⟩

/-- Whether comments behind the block have somewhere to go: behind its braces, or into the closure of its statement. -/
def HasRoomFor (b : Block Node) (comments : List Node) : Prop :=
  b.isBraced = true ∨ (∃ n ∈ b.statements.getLast?, n.isCommand = true) ∨ comments = []

/-- With the comments behind it a block is laid out as before, and has a closure only if it has braces. -/
theorem IsLaidOut.attach {b : Block Node} (h : b.IsLaidOut) (hclosure : b.closure = []) {comments : List Node}
    (hroom : b.HasRoomFor comments) :
    (b.attach comments).IsLaidOut ∧ ((b.attach comments).closure ≠ [] → (b.attach comments).isBraced = true) := by
  rcases b.attach_cases comments with ⟨-, hattach⟩ | ⟨front, inner, semicolon, closure, hbraced, hfront, hattach⟩ |
      ⟨hplace, hcomments, hattach⟩ <;> rw [hattach]
  · exact ⟨h, fun hne => absurd hclosure hne⟩
  · have htrivia := h.isTrivia_front hbraced hfront rfl
    have hopening : b.opening = none := by simpa [isBraced] using hbraced
    have hclosing : b.closing = none := by simpa [hopening] using h.braces.symm
    rw [hopening, hclosing, hclosure]
    refine ⟨isLaidOut_bare htrivia (List.forall_mem_singleton.mpr ⟨rfl, rfl⟩) ?_ [], fun hne => absurd rfl hne⟩
    exact Nat.le_refl 1
  · refine ⟨h.with_closure comments, fun _ => ?_⟩
    rcases hroom with hbraced | ⟨n, hlast, hcommand⟩ | hnil
    · exact hbraced
    · cases n with
      | command inner semicolon closure => exact hplace.resolve_right fun hother => hother _ _ _ hlast
      | _ => cases hcommand
    · exact absurd hnil hcomments

end Block

namespace Control

/-- Whether a choice or a loop is laid out as it should be up to the end of its body, and nothing is attached yet. -/
structure IsFresh (c : Control Node) : Prop where
  header : c.header.length = c.form.clauses
  separators : c.separators.length = if c.form = .forForm then 2 else 0
  alternate : c.alternate = none
  clauses : ∀ n ∈ c.header, n.IsArranged
  body : c.body.IsArranged

/-- Whether a choice is laid out as it should be up to its `else`. -/
structure AwaitsElse (c : Control Node) : Prop where
  form : c.form = .ifForm
  header : c.header.length = c.form.clauses
  separators : c.separators.length = if c.form = .forForm then 2 else 0
  body : c.body.IsLaidOut
  closure : c.body.closure ≠ [] → c.body.isBraced = true
  children : ∀ n ∈ c.children, n.IsArranged

variable {c : Control Node}

theorem IsFresh.children (h : c.IsFresh) : ∀ n ∈ c.children, n.IsArranged := by
  rw [Control.children, h.alternate, List.forall_mem_append, List.forall_mem_append]
  exact ⟨⟨h.clauses, h.body.children⟩, fun _ hn => absurd hn List.not_mem_nil⟩

theorem IsFresh.isArranged (h : c.IsFresh) : (Node.combinator c).IsArranged := by
  have hparts : c.HasParts := {
    header := h.header
    separators := h.separators
    alternate := fun hsome => by rw [h.alternate] at hsome; cases hsome
    closure := fun hne => absurd h.body.closure hne
    branch := fun a ha => by rw [h.alternate] at ha; cases ha }
  refine Node.everywhere_iff.mpr ⟨⟨hparts, ?_⟩, h.children⟩
  rw [Node.blocks, blocks, h.alternate]
  exact List.forall_mem_singleton.mpr h.body.laidOut

/-- Comments in front of an `else` go behind the braces of the body or into the closure of its statement. -/
theorem IsFresh.attach (h : c.IsFresh) (hform : c.form = .ifForm) {comments : List Node}
    (hcomments : ∀ n ∈ comments, n.IsArranged) (hroom : c.body.HasRoomFor comments) :
    AwaitsElse { c with body := c.body.attach comments } where
  form := hform
  header := h.header
  separators := h.separators
  body := (h.body.laidOut.attach h.body.closure hroom).1
  closure := (h.body.laidOut.attach h.body.closure hroom).2
  children := everywhere_attach (fun _ _ _ _ h => h.with_closure _) h.children hcomments

theorem AwaitsElse.isArranged (h : c.AwaitsElse) {a : Alternate Node} (hbody : a.body.IsArranged) :
    (Node.combinator { c with alternate := some a }).IsArranged := by
  have hparts : HasParts { c with alternate := some a } := {
    header := h.header
    separators := h.separators
    alternate := fun _ => h.form
    closure := fun hne => ⟨h.closure hne, h.form, rfl⟩
    branch := fun b hb => by cases hb; exact hbody.closure }
  refine Node.everywhere_iff.mpr ⟨⟨hparts, ?_⟩, everywhere_with_alternate h.children hbody.children⟩
  exact List.forall_mem_cons.mpr ⟨h.body, List.forall_mem_singleton.mpr hbody.laidOut⟩

end Control

end LosslessSyntax
