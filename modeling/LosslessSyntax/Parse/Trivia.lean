import LosslessSyntax.Text.Slice
import LosslessSyntax.Token.Basic
import LosslessSyntax.Tree.Node

/-! Trivia tokens between statements. They become nodes: every comment one of its own, and the blanks and
line breaks between two comments one node together, which is cut out of the source by the offsets of the tokens
around it. The comments on the line where the token before them ends can be split off first. -/

namespace LosslessSyntax.Token

/-- The offset of the first token, or of the end of the source if there is none. -/
def offsetOf (source : Text) (ts : List Token) : Nat := (ts.head?.map fun t => t.offset.toNat).getD source.byteLength

/-- The nodes that trivia tokens of a source become which end at the byte `stop`. If blanks in front of them are no
node yet, `run` is where those begin. -/
def triviaNodes (source : Text) (stop : Nat) : (run : Option Nat) → List Token → List Node
  | none, [] => []
  | some start, [] => [.whitespace (source.cut start stop)]
  | none, t :: ts =>
    if t.kind.isComment then .comment t.text :: triviaNodes source stop none ts
    else triviaNodes source stop (some t.offset) ts
  | some start, t :: ts =>
    if t.kind.isComment then
      .whitespace (source.cut start t.offset) :: .comment t.text :: triviaNodes source stop none ts
    else triviaNodes source stop (some start) ts

/-- Splits trivia tokens behind the last comment that begins on the line where they begin. A line break ends
the line, as a token of its own or inside a comment. -/
def splitTrailing : List Token → List Token × List Token
  | [] => ([], [])
  | t :: ts =>
    let split := splitTrailing ts
    if t.kind = .lineBreak then ([], t :: ts)
    else if t.kind.isComment then
      if t.text.hasLineBreak then ([t], ts) else (t :: split.1, split.2)
    else if split.1.isEmpty then ([], t :: ts)
    else (t :: split.1, split.2)

/-- Whether a line ends in trivia tokens: at a line break, or inside a comment of several lines. -/
def hasLineBreak (ts : List Token) : Bool :=
  ts.any fun t => t.kind = .lineBreak || t.kind = .blockComment && t.text.hasLineBreak

/-- Splitting loses nothing and keeps the order. -/
theorem splitTrailing_append (ts : List Token) : (splitTrailing ts).1 ++ (splitTrailing ts).2 = ts := by
  induction ts with
  | nil => rfl
  | cons t ts ih =>
    simp only [splitTrailing]
    repeat' split
    all_goals simp [ih]

end LosslessSyntax.Token
