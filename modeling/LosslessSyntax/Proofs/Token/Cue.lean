import LosslessSyntax.Grammar.Classes
import LosslessSyntax.Parse.Cursor

/-! What reading goes by. Of the significant tokens it sees the kinds and the texts; of the trivia between them
only whether a line ends there, and that only in front of `++` and `--`, which must stand on the line of their
operand, and behind `return`, whose value must begin on its line. -/

namespace LosslessSyntax

/-- A significant token as reading sees it. `broken` tells, where it matters, whether a line ends in front. -/
structure Cue where
  kind : Kind
  text : Text
  broken : Bool
  deriving DecidableEq

namespace Token

/-- What reading sees of tokens. `returned` tells whether they stand behind `return`, `broken` whether a line has
ended since the last significant token. -/
def cues (returned broken : Bool) : List Token → List Cue
  | [] => []
  | t :: ts =>
    if t.isTrivia then cues returned (broken || hasLineBreak [t]) ts
    else
      ⟨t.kind, t.text, (returned || t.kind.isPostfixOperator) && broken⟩ ::
        cues (t.kind = .keyword .returnWord) false ts

theorem cues_of_isTrivia {returned broken : Bool} {ts us : List Token} (h : ∀ t ∈ ts, t.isTrivia = true) :
    cues returned broken (ts ++ us) = cues returned (broken || hasLineBreak ts) us := by
  induction ts generalizing broken with
  | nil => simp [hasLineBreak]
  | cons t ts ih =>
      obtain ⟨ht, hts⟩ := List.forall_mem_cons.mp h
      rw [List.cons_append, cues, if_pos ht, ih hts]
      simp [hasLineBreak, Bool.or_assoc]

theorem cues_cons {returned broken : Bool} {t : Token} {ts : List Token} (h : t.isTrivia = false) :
    cues returned broken (t :: ts) = ⟨t.kind, t.text, (returned || t.kind.isPostfixOperator) && broken⟩ ::
      cues (t.kind = .keyword .returnWord) false ts := by
  rw [cues, h]
  rfl

end Token

namespace Cursor

/-- What reading sees from the cursor on. -/
def cues (returned : Bool) (c : Cursor) : List Cue := Token.cues returned false c.upcoming

variable {c : Cursor} {returned : Bool}

theorem cues_eq : c.cues returned = Token.cues returned c.followsLineBreak c.ahead := by
  rw [cues, ← trivia_append_ahead, Token.cues_of_isTrivia fun _ => isTrivia_of_mem_trivia, Bool.false_or]
  rfl

theorem cues_of_ahead_eq_nil (h : c.ahead = []) : c.cues returned = [] := by
  rw [cues_eq, h, Token.cues]

theorem cues_of_ahead_eq_cons {t : Token} {rest : List Token} (h : c.ahead = t :: rest) :
    c.cues returned = ⟨t.kind, t.text, (returned || t.kind.isPostfixOperator) && c.followsLineBreak⟩ ::
      Token.cues (t.kind = .keyword .returnWord) false rest := by
  rw [cues_eq, h, Token.cues_cons (isTrivia_eq_false_of_ahead h)]

end Cursor

end LosslessSyntax
