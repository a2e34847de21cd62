import LosslessSyntax.Tree.Walk

/-! Trailing comments. A comment that begins on the line where a statement ends belongs to that statement: it
moves into the statement's closure, with the blanks in front of it. Further comments on the line follow. A
line break ends the run, be it between the comments or inside the last of them. -/

namespace LosslessSyntax.Node

/-- Splits what follows a statement into what trails it on its line and all the rest. -/
def splitTrailing : List Node → List Node × List Node
  | .comment text :: rest =>
    if text.hasLineBreak then ([.comment text], rest)
    else
      let (trailing, rest) := splitTrailing rest
      (.comment text :: trailing, rest)
  | .whitespace run :: .comment text :: rest =>
    if run.hasLineBreak then ([], .whitespace run :: .comment text :: rest)
    else if text.hasLineBreak then ([.whitespace run, .comment text], rest)
    else
      let (trailing, rest) := splitTrailing rest
      (.whitespace run :: .comment text :: trailing, rest)
  | rest => ([], rest)

/-- Splitting loses nothing and keeps the order. -/
theorem splitTrailing_append (nodes : List Node) :
    (splitTrailing nodes).1 ++ (splitTrailing nodes).2 = nodes := by
  fun_induction splitTrailing nodes <;> simp_all

theorem length_splitTrailing_le (nodes : List Node) :
    (splitTrailing nodes).2.length ≤ nodes.length := by
  have h := congrArg List.length (splitTrailing_append nodes)
  simp only [List.length_append] at h
  omega

/-- The closure of a statement that `trailing` follows: what it had already, if nothing follows it. -/
def closureWith (trailing closure : List Node) : List Node :=
  if trailing.isEmpty then closure else trailing

/-- Gives every statement of a list the comments that trail it. -/
def attachTrailing : List Node → List Node
  | [] => []
  | .command inner semicolon closure :: rest =>
    .command inner semicolon (closureWith (splitTrailing rest).1 closure) ::
      attachTrailing (splitTrailing rest).2
  | n :: rest => n :: attachTrailing rest
termination_by nodes => nodes.length
decreasing_by
  · exact Nat.lt_succ_of_le (length_splitTrailing_le rest)
  · exact Nat.lt_succ_self _

end LosslessSyntax.Node

/-- Gives a body the comments behind it. A single statement without braces takes them into its own closure. -/
def LosslessSyntax.Block.attach (b : Block Node) (comments : List Node) : Block Node :=
  if comments.isEmpty then b
  else
    match b.isBraced, b.statements.getLast? with
    | false, some (.command inner semicolon closure) =>
      { b with statements := b.statements.dropLast ++ [.command inner semicolon (closure ++ comments)] }
    | _, _ => { b with closure := comments }

/-- Comments go into the closure of the last statement, if it is one without braces around it, and else to the body. -/
theorem LosslessSyntax.Block.attach_cases (b : Block Node) (comments : List Node) :
    comments = [] ∧ b.attach comments = b ∨
      (∃ front inner semicolon closure, b.isBraced = false ∧
        b.statements = front ++ [.command inner semicolon closure] ∧
        b.attach comments = { b with statements := front ++ [.command inner semicolon (closure ++ comments)] }) ∨
      (b.isBraced = true ∨ ∀ inner semicolon closure, .command inner semicolon closure ∉ b.statements.getLast?) ∧
        comments ≠ [] ∧ b.attach comments = { b with closure := comments } := by
  unfold attach
  split
  · next hnil => exact .inl ⟨List.isEmpty_iff.mp hnil, rfl⟩
  · next hcomments =>
    split
    · next inner semicolon closure hbraced hlast =>
      obtain ⟨front, hfront⟩ := List.getLast?_eq_some_iff.mp hlast
      refine .inr (.inl ⟨front, inner, semicolon, closure, hbraced, hfront, ?_⟩)
      rw [hfront, List.dropLast_concat]
    · next hother =>
      refine .inr (.inr ⟨?_, mt List.isEmpty_iff.mpr hcomments, rfl⟩)
      cases hbraced : b.isBraced with
      | true => exact .inl rfl
      | false => exact .inr fun inner semicolon closure hlast => hother inner semicolon closure hbraced hlast
