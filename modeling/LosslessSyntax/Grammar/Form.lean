import LosslessSyntax.Token.Kind

/-! The words that open declarations and control flow, as the forms they open. -/

namespace LosslessSyntax

/-- The word that declares variables. -/
inductive DeclarationForm where
  | letForm | constForm | varForm
  deriving DecidableEq, Repr

namespace DeclarationForm

/-- The form that a token of the kind opens, if it opens one. -/
def ofKind? : Kind → Option DeclarationForm
  | .keyword .letWord => some .letForm
  | .keyword .constWord => some .constForm
  | .keyword .varWord => some .varForm
  | _ => none

def name : DeclarationForm → String
  | .letForm => "let"
  | .constForm => "const"
  | .varForm => "var"

end DeclarationForm

/-- The word that governs a body: a choice or one of two loops. -/
inductive ControlForm where
  | ifForm | whileForm | forForm
  deriving DecidableEq, Repr

namespace ControlForm

/-- The form that a token of the kind opens, if it opens one. -/
def ofKind? : Kind → Option ControlForm
  | .keyword .ifWord => some .ifForm
  | .keyword .whileWord => some .whileForm
  | .keyword .forWord => some .forForm
  | _ => none

def name : ControlForm → String
  | .ifForm => "if"
  | .whileForm => "while"
  | .forForm => "for"

/-- The number of clauses between the parentheses. -/
def clauses : ControlForm → Nat
  | .forForm => 3
  | .ifForm | .whileForm => 1

end ControlForm

end LosslessSyntax
