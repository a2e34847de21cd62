import LosslessSyntax.Tree.Part

/-! The shape of a tree, written on one line. It shows the kinds of nodes and the texts that matter and leaves
out blanks and punctuation, so sources that differ only in their spacing have the same shape. Children stand
in angle brackets inside the outline of their node. -/

namespace LosslessSyntax

/-- One piece of an outline: text, or the place of a child. -/
inductive Piece where
  | text (s : String)
  | child (n : Node)

namespace Piece

/-- The text of a lexeme without its trivia. -/
def ofLexeme (l : Lexeme) : Piece := .text (String.ofList l.text)

/-- Items with a separator between them. -/
def separated (separator : String) : List (List Piece) → List Piece
  | [] => []
  | [item] => item
  | item :: items => item ++ .text separator :: separated separator items

theorem child_mem_separated {separator : String} {items : List (List Piece)} {n : Node} :
    .child n ∈ separated separator items ↔ ∃ item ∈ items, .child n ∈ item := by
  fun_induction separated separator items with
  | case1 => simp
  | case2 => simp
  | case3 item items _ ih => simp [ih]

/-- The children among separated pieces are those of the items. -/
theorem child_mem_separated_map {A : Type} {separator : String} {items : List A} {f : A → List Piece}
    {n : Node} : .child n ∈ separated separator (items.map f) ↔ ∃ item ∈ items, .child n ∈ f item := by
  simp only [child_mem_separated, List.mem_map]
  exact ⟨fun ⟨_, ⟨a, ha, h⟩, hn⟩ => ⟨a, ha, h ▸ hn⟩, fun ⟨a, ha, hn⟩ => ⟨f a, ⟨a, ha, rfl⟩, hn⟩⟩

theorem not_child_mem_lexemes {separator : String} {lexemes : List Lexeme} {n : Node} :
    ¬ .child n ∈ separated separator (lexemes.map ([.ofLexeme ·])) := by
  simp [child_mem_separated_map, ofLexeme]

end Piece

/-- The closure of a statement or a block: its comments, the blanks left out. -/
def Node.closureOutline (closure : List Node) : List Piece :=
  (closure.filter (!·.isWhitespace)).map .child

/-- Nodes with commas between them. -/
def Node.listOutline (nodes : List Node) : List Piece := Piece.separated "," (nodes.map ([.child ·]))

def Block.outline (b : Block Node) : List Piece :=
  [.text "\x7b"] ++ Node.listOutline b.statements ++ [.text "\x7d"] ++ Node.closureOutline b.closure

def Function.outline (f : Function Node) : List Piece :=
  [.text "("] ++ Piece.separated "," (f.parameters.map ([.ofLexeme ·])) ++ [.text ")"] ++ f.block.outline

def Field.outline (f : Field Node) : List Piece :=
  [.text "<Field-", .ofLexeme f.key, .text ":", .child f.value, .text ">"]

def Initializer.outline (i : Initializer Node) : List Piece := [.text "=", .child i.value]

mutual

def Declarator.outline : Declarator Node → List Piece
  | .mk _ _ name initializer additional =>
    .ofLexeme name :: initializer.toList.flatMap Initializer.outline ++ Declarator.chainOutline additional

/-- The outlines of chained declarators, each behind a comma. -/
def Declarator.chainOutline : List (Declarator Node) → List Piece
  | [] => []
  | d :: ds => .text "," :: d.outline ++ Declarator.chainOutline ds

end

def Alternate.outline (a : Alternate Node) : List Piece := .text "else" :: a.body.outline

def Control.outline (c : Control Node) : List Piece :=
  [.text c.form.name, .text "("] ++ Piece.separated ";" (c.header.map ([.child ·])) ++ [.text ")"] ++
    c.body.outline ++ c.alternate.toList.flatMap Alternate.outline

namespace Node

/-- What stands behind the kind of a node: its texts, and its children in their places. -/
def outline : Node → List Piece
  | .whitespace _ => []
  | .comment text => [.text "-", .text (String.ofList text)]
  | .identifier l | .literal l => [.text "-", .ofLexeme l]
  | .invocation callee _ arguments _ _ =>
    [.text "-", .child callee, .text "("] ++ listOutline arguments ++ [.text ")"]
  | .access base _ field => [.text "-", .child base, .text ".", .ofLexeme field]
  | .index base _ subscript _ => [.text "-", .child base, .text "[", .child subscript, .text "]"]
  | .object _ fields _ _ =>
    [.text "\x7b"] ++ Piece.separated "," (fields.map Field.outline) ++ [.text "\x7d"]
  | .array _ elements _ _ => [.text "["] ++ listOutline elements ++ [.text "]"]
  | .declaration first => [.text "-", .text first.form.name, .text "-"] ++ first.outline
  | .assignment target symbol value => [.text "-", .child target, .ofLexeme symbol, .child value]
  | .functionDeclaration _ name body => [.text "-", .ofLexeme name] ++ body.outline
  | .functionExpression _ name body => [.text "-"] ++ name.toList.map .ofLexeme ++ body.outline
  | .operator left symbol right =>
    [.text "-"] ++ left.toList.map .child ++ [.ofLexeme symbol] ++ right.toList.map .child
  | .parenthesized _ inner _ => [.text "-(", .child inner, .text ")"]
  | .combinator control => .text "-" :: control.outline
  | .returning _ value => value.toList.flatMap fun v => [.text "-", .child v]
  | .command inner _ closure => [.text "-", .child inner] ++ closureOutline closure
  | .empty => []
  | .unparsed lexemes => .text "-" :: Piece.separated " " (lexemes.map ([.ofLexeme ·]))

end Node

/-! ### Outlines show parts only -/

theorem Node.child_mem_listOutline {nodes : List Node} {n : Node} (h : .child n ∈ listOutline nodes) :
    n ∈ nodes := by
  simpa [listOutline, Piece.child_mem_separated_map] using h

theorem Node.child_mem_closureOutline {closure : List Node} {n : Node}
    (h : .child n ∈ closureOutline closure) : n ∈ closure := by
  simp only [closureOutline, List.mem_map, List.mem_filter, Piece.child.injEq, exists_eq_right] at h
  exact h.1

theorem Block.mem_parts_of_child_mem_outline {b : Block Node} {n : Node} (h : .child n ∈ b.outline) :
    .node n ∈ b.parts := by
  simp only [outline, List.mem_append, List.mem_singleton, reduceCtorEq, false_or, or_false] at h
  simp only [parts, List.mem_append, List.mem_map, Part.node.injEq, exists_eq_right]
  rcases h with h | h
  · exact .inl (.inl (.inr (Node.child_mem_listOutline h)))
  · exact .inr (Node.child_mem_closureOutline h)

theorem Function.mem_parts_of_child_mem_outline {f : Function Node} {n : Node}
    (h : .child n ∈ f.outline) : .node n ∈ f.parts := by
  simp only [outline, List.mem_append, List.mem_singleton, Piece.not_child_mem_lexemes, reduceCtorEq,
    false_or, or_false] at h
  exact List.mem_append_right _ (Block.mem_parts_of_child_mem_outline h)

theorem Field.mem_parts_of_child_mem_outline {f : Field Node} {n : Node} (h : .child n ∈ f.outline) :
    .node n ∈ f.parts := by
  simpa [outline, parts, Piece.ofLexeme] using h

theorem Initializer.mem_parts_of_child_mem_outline {i : Initializer Node} {n : Node}
    (h : .child n ∈ i.outline) : .node n ∈ i.parts := by
  simpa [outline, parts] using h

mutual

theorem Declarator.mem_parts_of_child_mem_outline {d : Declarator Node} {n : Node}
    (h : .child n ∈ d.outline) : .node n ∈ d.parts := by
  obtain ⟨_, _, _, initializer, additional⟩ := d
  simp only [Declarator.outline, Piece.ofLexeme, List.mem_cons, List.mem_append, reduceCtorEq,
    false_or] at h
  simp only [Declarator.parts, List.mem_append]
  rcases h with h | h
  · cases initializer with
    | none => simp at h
    | some i => exact .inl (.inr (by simpa using Initializer.mem_parts_of_child_mem_outline (by simpa using h)))
  · exact .inr (Declarator.mem_chainParts_of_child_mem_chainOutline h)

theorem Declarator.mem_chainParts_of_child_mem_chainOutline {ds : List (Declarator Node)} {n : Node}
    (h : .child n ∈ Declarator.chainOutline ds) : .node n ∈ Declarator.chainParts ds := by
  cases ds with
  | nil => simp [Declarator.chainOutline] at h
  | cons d ds =>
    simp only [Declarator.chainOutline, List.mem_cons, List.mem_append, reduceCtorEq, false_or] at h
    simp only [Declarator.chainParts, List.mem_append]
    exact h.imp Declarator.mem_parts_of_child_mem_outline
      Declarator.mem_chainParts_of_child_mem_chainOutline

end

theorem Alternate.mem_parts_of_child_mem_outline {a : Alternate Node} {n : Node}
    (h : .child n ∈ a.outline) : .node n ∈ a.parts := by
  simp only [outline, List.mem_cons, reduceCtorEq, false_or] at h
  exact List.mem_cons_of_mem _ (Block.mem_parts_of_child_mem_outline h)

theorem Control.mem_parts_of_child_mem_outline {c : Control Node} {n : Node} (h : .child n ∈ c.outline) :
    .node n ∈ c.parts := by
  simp only [outline, List.mem_cons, List.mem_append, Piece.child_mem_separated_map, List.not_mem_nil,
    reduceCtorEq, Piece.child.injEq, false_or, or_false] at h
  simp only [parts, List.mem_append, Part.node_mem_interleave, List.mem_singleton, Part.node.injEq]
  rcases h with (⟨m, hm, h⟩ | h) | h
  · exact .inl (.inl (.inl (.inr ⟨m, hm, h⟩)))
  · exact .inl (.inr (Block.mem_parts_of_child_mem_outline h))
  · cases halt : c.alternate with
    | none => simp [halt] at h
    | some a =>
      exact .inr (by simpa using Alternate.mem_parts_of_child_mem_outline (by simpa [halt] using h))

namespace Node

/-- A child that an outline shows is a child of the node. -/
theorem mem_parts_of_child_mem_outline {n child : Node} (h : .child child ∈ n.outline) :
    .node child ∈ n.parts := by
  cases n
  case object opening fields commas closing =>
    simp only [outline, List.mem_append, Piece.child_mem_separated_map, List.mem_singleton, reduceCtorEq,
      false_or, or_false] at h
    obtain ⟨f, hf, h⟩ := h
    simp only [parts, List.mem_append, Part.node_mem_interleave]
    exact .inl (.inr ⟨f, hf, Field.mem_parts_of_child_mem_outline h⟩)
  case declaration first =>
    exact Declarator.mem_parts_of_child_mem_outline (by simpa [outline] using h)
  case functionDeclaration keyword name body =>
    exact List.mem_append_right _
      (Function.mem_parts_of_child_mem_outline (by simpa [outline, Piece.ofLexeme] using h))
  case functionExpression keyword name body =>
    exact List.mem_append_right _
      (Function.mem_parts_of_child_mem_outline (by simpa [outline, Piece.ofLexeme] using h))
  case combinator control =>
    exact Control.mem_parts_of_child_mem_outline (by simpa [outline] using h)
  case invocation callee opening arguments commas closing =>
    simp only [outline, List.mem_append, List.mem_cons, List.not_mem_nil, Piece.child.injEq, reduceCtorEq,
      false_or, or_false] at h
    simp only [parts, List.mem_append, Part.node_mem_interleave, Part.node.injEq, List.mem_cons]
    exact .inl (h.imp .inl fun h => ⟨child, child_mem_listOutline h, .inl rfl⟩)
  case array opening elements commas closing =>
    simp only [outline, List.mem_append, List.mem_cons, List.not_mem_nil, reduceCtorEq, false_or,
      or_false] at h
    simp only [parts, List.mem_append, Part.node_mem_interleave, List.mem_singleton, Part.node.injEq]
    exact .inl (.inr ⟨child, child_mem_listOutline h, rfl⟩)
  case command inner semicolon closure =>
    simp only [outline, List.mem_append, List.mem_cons, List.not_mem_nil, Piece.child.injEq, reduceCtorEq,
      false_or, or_false] at h
    simp only [parts, List.mem_append, List.mem_singleton, Part.node.injEq, List.mem_map, exists_eq_right]
    exact h.imp .inl child_mem_closureOutline
  case unparsed lexemes => simp [outline, Piece.not_child_mem_lexemes] at h
  case returning keyword value => cases value <;> simp_all [outline, parts]
  case whitespace | comment | identifier | literal | empty => simp [outline, Piece.ofLexeme] at h
  all_goals simpa [outline, parts, Piece.ofLexeme] using h

/-- The shape of a node: its kind and its outline, with the shapes of the children in their places. -/
def shape (n : Node) : String :=
  n.kindName ++ String.join (n.outline.attach.map fun
    | ⟨.text s, _⟩ => s
    | ⟨.child child, _⟩ => "<" ++ child.shape ++ ">")
termination_by sizeOf n
decreasing_by exact sizeOf_lt_of_mem_parts (mem_parts_of_child_mem_outline (by assumption))

end Node

/-- What stands in the place of a piece. -/
def Piece.shape : Piece → String
  | .text s => s
  | .child n => "<" ++ n.shape ++ ">"

/-- A shape is the kind and the outline piece by piece. -/
theorem Node.shape_eq (n : Node) : n.shape = n.kindName ++ String.join (n.outline.map Piece.shape) := by
  rw [shape]
  refine congrArg _ (congrArg _ ((List.map_subtype fun p _ => ?_).trans (congrArg _ List.unattach_attach)))
  cases p <;> rfl

/-- The shape of a source: the shapes of its declarations. -/
def Program.shape (p : Program) : String :=
  "Program[" ++ String.join ((Node.listOutline p.declarations).map Piece.shape) ++ "]"

end LosslessSyntax
