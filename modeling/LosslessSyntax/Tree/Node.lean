import LosslessSyntax.Grammar.Form
import LosslessSyntax.Tree.Lexeme

/-! Trees. A node keeps every token it was read from as a lexeme, in the order of the source, so that a tree
can be written back as it was. Statements stand in lists between nodes for the blanks and comments around
them; comments that trail a statement on its line are kept with it, as its closure. The parts that hold nodes
are described for any type `N` of nodes first, and `Node` ties them together. -/

namespace LosslessSyntax

/-- A list of statements, in braces or not. -/
structure Block (N : Type) where
  opening : Option Lexeme
  statements : List N
  closing : Option Lexeme
  closure : List N := []

/-- The parameters and the body of a function. -/
structure Function (N : Type) where
  opening : Lexeme
  parameters : List Lexeme
  commas : List Lexeme
  closing : Lexeme
  block : Block N

/-- One `key: value` of an object literal. -/
structure Field (N : Type) where
  key : Lexeme
  colon : Lexeme
  value : N

/-- The `= value` of a declarator. -/
structure Initializer (N : Type) where
  equals : Lexeme
  value : N

/-- A declared name. `lead` is the declaring word, or the comma behind the declarator before; further
declarators of the same declaration are chained to the first. -/
inductive Declarator (N : Type) where
  | mk (form : DeclarationForm) (lead name : Lexeme) (initializer : Option (Initializer N))
      (additional : List (Declarator N))

/-- The `else` branch of a choice. -/
structure Alternate (N : Type) where
  keyword : Lexeme
  body : Block N

/-- A choice or a loop: a header of one clause, or of three with separators, and a body. -/
structure Control (N : Type) where
  form : ControlForm
  keyword : Lexeme
  opening : Lexeme
  header : List N
  separators : List Lexeme
  closing : Lexeme
  body : Block N
  alternate : Option (Alternate N) := none

/-- A node of a tree. `empty` is an omitted clause, `unparsed` holds tokens that fit nowhere. An operator
has no left operand if it stands in front of its operand, and no right one if it stands behind. -/
inductive Node where
  | whitespace (run : Text)
  | comment (text : Text)
  | identifier (lexeme : Lexeme)
  | literal (lexeme : Lexeme)
  | invocation (callee : Node) (opening : Lexeme) (arguments : List Node) (commas : List Lexeme)
      (closing : Lexeme)
  | access (base : Node) (dot field : Lexeme)
  | index (base : Node) (opening : Lexeme) (subscript : Node) (closing : Lexeme)
  | object (opening : Lexeme) (fields : List (Field Node)) (commas : List Lexeme) (closing : Lexeme)
  | array (opening : Lexeme) (elements : List Node) (commas : List Lexeme) (closing : Lexeme)
  | declaration (first : Declarator Node)
  | assignment (target : Node) (operator : Lexeme) (value : Node)
  | functionDeclaration (keyword name : Lexeme) (body : Function Node)
  | functionExpression (keyword : Lexeme) (name : Option Lexeme) (body : Function Node)
  | operator (left : Option Node) (symbol : Lexeme) (right : Option Node)
  | parenthesized (opening : Lexeme) (inner : Node) (closing : Lexeme)
  | combinator (control : Control Node)
  | returning (keyword : Lexeme) (value : Option Node)
  | command (inner : Node) (semicolon : Option Lexeme) (closure : List Node)
  | empty
  | unparsed (lexemes : List Lexeme)

/-- A whole source: its statements between the blanks and comments around them. -/
structure Program where
  declarations : List Node

namespace Block

/-- Whether the statements stand in braces. -/
def isBraced {N : Type} (b : Block N) : Bool := b.opening.isSome

end Block

namespace Declarator

variable {N : Type}

def form : Declarator N → DeclarationForm
  | mk form _ _ _ _ => form

def lead : Declarator N → Lexeme
  | mk _ lead _ _ _ => lead

def name : Declarator N → Lexeme
  | mk _ _ name _ _ => name

def initializer : Declarator N → Option (Initializer N)
  | mk _ _ _ initializer _ => initializer

def additional : Declarator N → List (Declarator N)
  | mk _ _ _ _ additional => additional

/-- The declarator with others chained to it, instead of those it had. -/
def withAdditional : Declarator N → List (Declarator N) → Declarator N
  | mk form lead name initializer _, additional => mk form lead name initializer additional

/-- The names of the declarator and of those chained to it, in the order of the source. -/
def names (d : Declarator N) : List Text := d.name.text :: d.additional.map (·.name.text)

end Declarator

namespace Node

instance : Inhabited Node := ⟨.empty⟩

/-- The name under which a node is shown. -/
def kindName : Node → String
  | .whitespace _ => "Whitespace"
  | .comment _ => "Comment"
  | .identifier _ => "Identifier"
  | .literal _ => "Literal"
  | .invocation .. => "Invocation"
  | .access .. => "Access"
  | .index .. => "Index"
  | .object .. => "Object"
  | .array .. => "Array"
  | .declaration _ => "VariableDeclaration"
  | .assignment .. => "Assignment"
  | .functionDeclaration .. => "FunctionDeclaration"
  | .functionExpression .. => "FunctionExpression"
  | .operator .. => "Operator"
  | .parenthesized .. => "Parenthesized"
  | .combinator _ => "Combinator"
  | .returning .. => "Return"
  | .command .. => "Command"
  | .empty => "Empty"
  | .unparsed _ => "Unparsed"

/-- Whether the node stands for blanks or a comment between statements. -/
def isTrivia : Node → Bool
  | .whitespace _ | .comment _ => true
  | _ => false

/-- The text of a comment. -/
def comment? : Node → Option Text
  | .comment text => some text
  | _ => none

def isWhitespace : Node → Bool
  | .whitespace _ => true
  | _ => false

/-- The lexeme that a node begins with, found along the leftmost children. -/
def firstLexeme? : Node → Option Lexeme
  | .whitespace _ | .comment _ | .empty => none
  | .identifier l | .literal l => some l
  | .invocation callee .. => callee.firstLexeme?
  | .access base .. => base.firstLexeme?
  | .index base .. => base.firstLexeme?
  | .object opening .. | .array opening .. | .parenthesized opening .. => some opening
  | .declaration first => some first.lead
  | .assignment target .. => target.firstLexeme?
  | .functionDeclaration keyword .. | .functionExpression keyword .. => some keyword
  | .operator (some left) .. => left.firstLexeme?
  | .operator none symbol _ => some symbol
  | .combinator control => some control.keyword
  | .returning keyword _ => some keyword
  | .command inner .. => inner.firstLexeme?
  | .unparsed lexemes => lexemes.head?

end Node

namespace Program

/-- The statements alone, without blanks and comments between them. -/
def statements (p : Program) : List Node := p.declarations.filter (!·.isTrivia)

end Program

end LosslessSyntax
