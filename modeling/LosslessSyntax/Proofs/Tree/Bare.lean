import LosslessSyntax.Proofs.Tree.Trailing

/-! Trees without trivia: no blanks and comments between statements, nothing in closures, and nothing in front of
the texts of lexemes. What is left is the shape of the source. -/

namespace LosslessSyntax

/-- The lexeme without the trivia in front of it. -/
def Lexeme.bare (l : Lexeme) : Lexeme := ⟨[], l.text⟩

mutual

/-- The node without trivia. -/
def Node.bare : Node → Node
  | .whitespace run => .whitespace run
  | .comment text => .comment text
  | .identifier lexeme => .identifier lexeme.bare
  | .literal lexeme => .literal lexeme.bare
  | .invocation callee opening arguments commas closing =>
    .invocation callee.bare opening.bare (Node.bareAll arguments) (commas.map Lexeme.bare) closing.bare
  | .access base dot field => .access base.bare dot.bare field.bare
  | .index base opening subscript closing => .index base.bare opening.bare subscript.bare closing.bare
  | .object opening fields commas closing =>
    .object opening.bare (Field.bareAll fields) (commas.map Lexeme.bare) closing.bare
  | .array opening elements commas closing =>
    .array opening.bare (Node.bareAll elements) (commas.map Lexeme.bare) closing.bare
  | .declaration first => .declaration first.bare
  | .assignment target operator value => .assignment target.bare operator.bare value.bare
  | .functionDeclaration keyword name body => .functionDeclaration keyword.bare name.bare body.bare
  | .functionExpression keyword name body => .functionExpression keyword.bare (name.map Lexeme.bare) body.bare
  | .operator left symbol right => .operator (Node.bareOption left) symbol.bare (Node.bareOption right)
  | .parenthesized opening inner closing => .parenthesized opening.bare inner.bare closing.bare
  | .combinator control => .combinator control.bare
  | .returning keyword value => .returning keyword.bare (Node.bareOption value)
  | .command inner semicolon _ => .command inner.bare (semicolon.map Lexeme.bare) []
  | .empty => .empty
  | .unparsed lexemes => .unparsed (lexemes.map Lexeme.bare)

def Node.bareAll : List Node → List Node
  | [] => []
  | n :: ns => n.bare :: Node.bareAll ns

def Node.bareOption : Option Node → Option Node
  | none => none
  | some n => some n.bare

/-- The block without trivia: those between its statements, and what its closure holds. -/
def Block.bare : Block Node → Block Node
  | ⟨opening, statements, closing, _⟩ =>
    ⟨opening.map Lexeme.bare, (Node.bareAll statements).filter (!·.isTrivia), closing.map Lexeme.bare, []⟩

def Function.bare : Function Node → Function Node
  | ⟨opening, parameters, commas, closing, block⟩ =>
    ⟨opening.bare, parameters.map Lexeme.bare, commas.map Lexeme.bare, closing.bare, block.bare⟩

def Field.bare : Field Node → Field Node
  | ⟨key, colon, value⟩ => ⟨key.bare, colon.bare, value.bare⟩

def Field.bareAll : List (Field Node) → List (Field Node)
  | [] => []
  | f :: fs => f.bare :: Field.bareAll fs

def Initializer.bareOption : Option (Initializer Node) → Option (Initializer Node)
  | none => none
  | some ⟨equals, value⟩ => some ⟨equals.bare, value.bare⟩

def Declarator.bare : Declarator Node → Declarator Node
  | .mk form lead name initializer additional =>
    .mk form lead.bare name.bare (Initializer.bareOption initializer) (Declarator.bareAll additional)

def Declarator.bareAll : List (Declarator Node) → List (Declarator Node)
  | [] => []
  | d :: ds => d.bare :: Declarator.bareAll ds

def Alternate.bareOption : Option (Alternate Node) → Option (Alternate Node)
  | none => none
  | some ⟨keyword, body⟩ => some ⟨keyword.bare, body.bare⟩

def Control.bare : Control Node → Control Node
  | ⟨form, keyword, opening, header, separators, closing, body, alternate⟩ =>
    ⟨form, keyword.bare, opening.bare, Node.bareAll header, separators.map Lexeme.bare, closing.bare, body.bare,
      Alternate.bareOption alternate⟩

end

attribute [simp] Node.bare Node.bareOption Block.bare Function.bare Field.bare Initializer.bareOption Declarator.bare
  Alternate.bareOption

/-- A list of statements without trivia. -/
def Node.bareStatements (nodes : List Node) : List Node := (Node.bareAll nodes).filter (!·.isTrivia)

/-- The tree without trivia. -/
def Program.bare (p : Program) : Program := ⟨Node.bareStatements p.declarations⟩

theorem Node.bareAll_eq (nodes : List Node) : Node.bareAll nodes = nodes.map Node.bare := by
  induction nodes with
  | nil => rfl
  | cons n nodes ih => rw [Node.bareAll, ih, List.map_cons]

theorem Field.bareAll_eq (fields : List (Field Node)) : Field.bareAll fields = fields.map Field.bare := by
  induction fields with
  | nil => rfl
  | cons f fields ih => rw [Field.bareAll, ih, List.map_cons]

theorem Declarator.bareAll_eq (ds : List (Declarator Node)) : Declarator.bareAll ds = ds.map Declarator.bare := by
  induction ds with
  | nil => rfl
  | cons d ds ih => rw [Declarator.bareAll, ih, List.map_cons]

namespace Node

theorem isTrivia_bare (n : Node) : n.bare.isTrivia = n.isTrivia := by
  cases n <;> rfl

@[simp] theorem bareStatements_nil : bareStatements [] = [] := rfl

@[simp] theorem bareStatements_append (front back : List Node) :
    bareStatements (front ++ back) = bareStatements front ++ bareStatements back := by
  rw [bareStatements, bareAll_eq, List.map_append, List.filter_append, ← bareAll_eq, ← bareAll_eq]
  rfl

theorem bareStatements_cons (n : Node) (nodes : List Node) :
    bareStatements (n :: nodes) = if n.isTrivia then bareStatements nodes else n.bare :: bareStatements nodes := by
  rw [bareStatements, bareAll, List.filter_cons, isTrivia_bare]
  cases n.isTrivia <;> rfl

theorem bareStatements_of_isTrivia {nodes : List Node} (h : ∀ n ∈ nodes, n.isTrivia = true) :
    bareStatements nodes = [] := by
  rw [bareStatements, bareAll_eq, List.filter_eq_nil_iff, List.forall_mem_map]
  intro n hn
  simp [isTrivia_bare, h n hn]

/-- What moves into closures is trivia, so statements are the same without them. -/
theorem bareStatements_attachTrailing (nodes : List Node) :
    bareStatements (attachTrailing nodes) = bareStatements nodes := by
  fun_induction attachTrailing nodes with
  | case1 => rfl
  | case2 inner semicolon closure rest ih =>
      have hrest : bareStatements rest = bareStatements (splitTrailing rest).2 := by
        rw [← splitTrailing_append rest, bareStatements_append, splitTrailing_append,
          bareStatements_of_isTrivia isTrivia_of_mem_splitTrailing, List.nil_append]
      rw [bareStatements_cons, bareStatements_cons, ih, hrest]
      rfl
  | case3 n rest _ ih => rw [bareStatements_cons, bareStatements_cons, ih]

end Node

/-- Comments that are given to a body leave it as it is without trivia. -/
theorem Block.bare_attach (b : Block Node) (comments : List Node) : (b.attach comments).bare = b.bare := by
  rcases b.attach_cases comments with ⟨-, h⟩ | ⟨front, inner, semicolon, closure, -, hlast, h⟩ | ⟨-, -, h⟩ <;> rw [h]
  · obtain ⟨opening, statements, closing, own⟩ := b
    cases hlast
    have hstatements : Node.bareStatements (front ++ [.command inner semicolon (closure ++ comments)]) =
        Node.bareStatements (front ++ [.command inner semicolon closure]) := by
      rw [Node.bareStatements_append, Node.bareStatements_append]
      rfl
    rw [bare, bare]
    exact congrArg (Block.mk _ · _ _) hstatements
  · cases b
    rfl

/-- Declarators that are chained to another one lose their trivia with it. -/
theorem Declarator.bare_withAdditional (d : Declarator Node) (ds : List (Declarator Node)) :
    (d.withAdditional ds).bare = d.bare.withAdditional (ds.map Declarator.bare) := by
  obtain ⟨form, lead, name, initializer, additional⟩ := d
  rw [withAdditional, bare, bareAll_eq]
  rfl

end LosslessSyntax
