import LosslessSyntax.Parse.Rule
import LosslessSyntax.Proofs.Text.Address
import LosslessSyntax.Proofs.Token.Cut

/-! Slices between tokens. What stands between two tokens is cut out of the source by their offsets, and in an
addressable source that is what the tokens from the one up to the other spell. So there no slice is out of range, the
text in front of a lexeme is that of its trivia, and trivia become nodes that have their texts. All of this holds
where a suffix of the tokens of the source is left, and reading never leaves anything else. -/

namespace LosslessSyntax

namespace Token

/-- Whether the offsets of the tokens tell where they begin in the source, which ends with them. -/
def Addressed (source : Text) (ts : List Token) : Prop :=
  ∀ us, us <:+ ts → ∃ front, front ++ restore us = source ∧ offsetOf source us = front.byteLength

variable {source : Text} {ts us : List Token}

theorem Addressed.of_suffix (h : Addressed source ts) (hus : us <:+ ts) : Addressed source us :=
  fun vs hvs => h vs (hvs.trans hus)

/-- In an addressable source every token has the offset where it begins. -/
theorem addressed_tokenize (h : source.IsAddressable) : Addressed source (tokenize source) := by
  rintro us ⟨front, htokens⟩
  have hsource : restore front ++ restore us = source := by rw [← restore_append, htokens, restore_tokenize]
  refine ⟨restore front, hsource, ?_⟩
  cases us with
  | nil => exact congrArg Text.byteLength (hsource.symm.trans (List.append_nil _))
  | cons t us => exact (htokens ▸ cut_tokenize source).toNat_offset h

/-- The source between two tokens is what the tokens from the one up to the other spell. -/
theorem Addressed.between? (h : Addressed source (ts ++ us)) :
    source.between? (offsetOf source (ts ++ us)) (offsetOf source us) = some (restore ts) := by
  obtain ⟨front, hfront, hstart⟩ := h _ List.suffix_rfl
  obtain ⟨front', hfront', hstop⟩ := h us (List.suffix_append ts us)
  rw [restore_append, ← List.append_assoc] at hfront
  obtain rfl := List.append_cancel_right (hfront'.trans hfront.symm)
  rw [hstart, hstop, ← hfront]
  exact Text.between?_byteLength front (restore ts) (restore us)

theorem Addressed.cut (h : Addressed source (ts ++ us)) :
    source.cut (offsetOf source (ts ++ us)) (offsetOf source us) = restore ts := by
  rw [Text.cut, h.between?, Option.getD_some]

/-! ### Nodes of trivia -/

/-- Nodes of trivia with blanks in front of them. -/
def afterBlanks (blanks : Text) : List Node → List Node
  | .whitespace run :: nodes => .whitespace (blanks ++ run) :: nodes
  | nodes => .whitespace blanks :: nodes

/-- The nodes of trivia tokens, put together from the texts of the tokens. -/
def joinedNodes : List Token → List Node
  | [] => []
  | t :: ts => if t.kind.isComment then .comment t.text :: joinedNodes ts else afterBlanks t.text (joinedNodes ts)

theorem joinedNodes_cons_of_not_isComment {t : Token} (h : t.kind.isComment = false) (ts : List Token) :
    joinedNodes (t :: ts) = afterBlanks t.text (joinedNodes ts) := by
  rw [joinedNodes, if_neg (by simp [h])]

theorem afterBlanks_append (blanks more : Text) (nodes : List Node) :
    afterBlanks (blanks ++ more) nodes = afterBlanks blanks (afterBlanks more nodes) := by
  rcases nodes with _ | ⟨n, nodes⟩
  · rfl
  · cases n with
    | whitespace run => simp only [afterBlanks, List.append_assoc]
    | _ => rfl

/-- Slices of the source at the offsets of trivia are the texts of the trivia, of those in front of them as well. -/
theorem triviaNodes_eq (h : Addressed source (ts ++ us)) :
    triviaNodes source (offsetOf source us) none ts = joinedNodes ts ∧
      ∀ run, Addressed source (run ++ (ts ++ us)) →
        triviaNodes source (offsetOf source us) (some (offsetOf source (run ++ (ts ++ us)))) ts =
          afterBlanks (restore run) (joinedNodes ts) := by
  induction ts with
  | nil =>
      refine ⟨rfl, fun run hrun => ?_⟩
      rw [List.nil_append] at hrun ⊢
      rw [triviaNodes, hrun.cut]
      rfl
  | cons t ts ih =>
      obtain ⟨hnone, hsome⟩ := ih (h.of_suffix (List.suffix_cons t _))
      have hstart : offsetOf source (t :: (ts ++ us)) = t.offset.toNat := rfl
      rw [List.cons_append] at h ⊢
      rw [joinedNodes]
      split
      · next hcomment =>
          refine ⟨?_, fun run hrun => ?_⟩
          · rw [triviaNodes, if_pos hcomment, hnone]
          · rw [triviaNodes, if_pos hcomment, ← hstart, hrun.cut, hnone]
            rfl
      · next hcomment =>
          refine ⟨?_, fun run hrun => ?_⟩
          · rw [triviaNodes, if_neg hcomment, ← hstart]
            exact (hsome [t] h).trans (congrArg (afterBlanks · _) (List.append_nil _))
          · have hone : restore (run ++ [t]) = restore run ++ t.text := by
              rw [restore_append, restore_cons, restore_nil, List.append_nil]
            rw [List.append_cons] at hrun ⊢
            rw [triviaNodes, if_neg hcomment, hsome _ hrun, hone, afterBlanks_append]

theorem triviaNodes_eq_joinedNodes (h : Addressed source (ts ++ us)) :
    triviaNodes source (offsetOf source us) none ts = joinedNodes ts := (triviaNodes_eq h).1

end Token

namespace Cursor

variable {c : Cursor} {t : Token} {rest : List Token}

/-- Whether the tokens that are left stand where their offsets tell, at the end of the source. -/
def IsAddressed (c : Cursor) : Prop := Token.Addressed c.source c.upcoming

/-- The text that leads the next lexeme. -/
def leading (c : Cursor) : Text := c.source.cut (Token.offsetOf c.source c.upcoming) (Token.offsetOf c.source c.ahead)

theorem bump_eq (h : c.ahead = t :: rest) : c.bump = (⟨c.leading, t.text⟩, { c with upcoming := rest }) := by
  rw [bump, leading, h]
  rfl

namespace IsAddressed

/-- The text that leads the next lexeme is that of the trivia in front of it. -/
theorem leading_eq (h : c.IsAddressed) : c.leading = Token.restore c.trivia := by
  rw [IsAddressed, ← c.trivia_append_ahead] at h
  rw [leading, ← c.trivia_append_ahead]
  exact h.cut

theorem bump_eq (h : c.IsAddressed) (hahead : c.ahead = t :: rest) :
    c.bump = (⟨Token.restore c.trivia, t.text⟩, { c with upcoming := rest }) := by
  rw [Cursor.bump_eq hahead, h.leading_eq]

theorem takeTrivia_eq (h : c.IsAddressed) : c.takeTrivia.1 = Token.joinedNodes c.trivia := by
  rw [IsAddressed, ← c.trivia_append_ahead] at h
  exact Token.triviaNodes_eq_joinedNodes h

theorem takeTrailing_eq (h : c.IsAddressed) :
    c.takeTrailing.1 = Token.joinedNodes (Token.splitTrailing c.trivia).1 := by
  rw [IsAddressed, ← c.trivia_append_ahead, ← Token.splitTrailing_append c.trivia, List.append_assoc] at h
  exact Token.triviaNodes_eq_joinedNodes h

/-- Reading leaves a suffix of the tokens, so they still stand where their offsets tell. -/
theorem run {A : Type} (h : c.IsAddressed) (r : Rule A) : (r.run c).2.IsAddressed := by
  rw [IsAddressed, r.source_run]
  exact h.of_suffix (r.upcoming_suffix c)

end IsAddressed

end Cursor

end LosslessSyntax
