import LosslessSyntax.Diagnostic.Basic
import LosslessSyntax.Token.Kind
import LosslessSyntax.Token.Flags

/-! Tokens. A token is a piece of source with its kind and the place where it begins; the texts of all
tokens of a source, joined in order, are the source. -/

namespace LosslessSyntax

/-- A piece of source of one kind. `position` and `offset` tell where it begins. -/
structure Token where
  kind : Kind
  text : Text
  position : Position
  offset : UInt32
  flags : Flags := {}
  deriving DecidableEq, Repr

namespace Token

/-- The number of bytes of the token. -/
def length (t : Token) : UInt32 := t.text.byteLength

def isEmpty (t : Token) : Bool := t.text.isEmpty

/-- The offset behind the token. -/
def stop (t : Token) : UInt32 := t.offset + t.length

def span (t : Token) : Span := ⟨t.offset, t.length⟩

def isTrivia (t : Token) : Bool := t.kind.isTrivia

def isUnterminated (t : Token) : Bool := t.flags.unterminated

/-- The token as the place that a diagnostic is about. -/
def location (t : Token) : Location := ⟨t.span, t.position, t.text⟩

/-- The token in its structural form, the kind and the text. -/
def shape (t : Token) : String := s!"{t.kind.name}-{String.ofList t.text}"

@[simp] theorem start_span (t : Token) : t.span.start = t.offset := rfl

@[simp] theorem stop_span (t : Token) : t.span.stop = t.stop := rfl

/-- The joined texts of the tokens. -/
def restore (ts : List Token) : Text := ts.flatMap text

@[simp] theorem restore_nil : restore [] = [] := rfl

@[simp] theorem restore_cons (t : Token) (ts : List Token) : restore (t :: ts) = t.text ++ restore ts := rfl

@[simp] theorem restore_append (ts us : List Token) : restore (ts ++ us) = restore ts ++ restore us :=
  List.flatMap_append

end Token

end LosslessSyntax
