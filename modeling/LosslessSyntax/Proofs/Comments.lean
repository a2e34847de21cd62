import Mathlib.Data.List.Flatten
import LosslessSyntax.Proofs.Parse.Spelling
import LosslessSyntax.Proofs.Token.Trivia

/-! Comments and their tokens. What begins with the text of a comment is read as a comment that reaches at least as
far, so tokens that have such a text together are one token. Hence the comments of a tree belong to as many comment
tokens, in the order of the source. -/

namespace LosslessSyntax

namespace Reading

/-- The text of a comment up to its end mark is reached again, whatever is put behind it. -/
theorem throughCommentEnd_prefix (t more : Text) :
    (throughCommentEnd t).1 <+: (throughCommentEnd ((throughCommentEnd t).1 ++ more)).1 := by
  induction t with
  | nil => exact List.nil_prefix
  | cons c t ih =>
      have happend := throughCommentEnd_append t
      simp only [throughCommentEnd]
      split
      · next hmark =>
          obtain ⟨rfl, t, rfl⟩ := Text.pair_iff.mp hmark
          exact List.prefix_refl _
      · next hmark =>
          rw [List.cons_append, throughCommentEnd]
          cases hbody : (throughCommentEnd t).1 with
          | nil =>
              split
              · exact List.prefix_append [c] _
              · exact List.prefix_append [c] _
          | cons d body =>
              -- the character behind is the same as before, so the end mark is not here now either
              rw [hbody] at happend ih
              rw [← happend, List.cons_append, List.head?_cons] at hmark
              rw [List.cons_append, List.head?_cons, if_neg hmark]
              exact List.cons_prefix_cons.mpr ⟨rfl, ih⟩

/-- What begins with the text of a comment is read as a comment that reaches at least as far. -/
theorem Reads.prefix_text_read {c d : Char} {t rest more : Text} {r : Reading} (h : Reads c t r)
    (hkind : r.kind.isComment = true) (hrest : r.text ++ more = d :: rest) :
    (read d rest).kind.isComment = true ∧ r.text <+: (read d rest).text := by
  rcases Kind.isComment_iff.mp hkind with hkind | hkind
  · obtain ⟨t, rfl, rfl, rfl⟩ := h.isOfKind hkind
    obtain ⟨rfl, rfl⟩ := List.cons.inj hrest
    have hall : ∀ c ∈ t.takeWhile (!isLineBreak ·), (!isLineBreak c) = true :=
      fun c hc => List.all_eq_true.mp List.all_takeWhile c hc
    refine ⟨rfl, List.cons_prefix_cons.mpr ⟨rfl, List.cons_prefix_cons.mpr ⟨rfl, ?_⟩⟩⟩
    show t.takeWhile (!isLineBreak ·) <+: (t.takeWhile (!isLineBreak ·) ++ more).takeWhile (!isLineBreak ·)
    rw [List.takeWhile_append_of_pos hall]
    exact List.prefix_append _ _
  · obtain ⟨t, rfl, rfl, rfl⟩ := h.isOfKind hkind
    obtain ⟨rfl, rfl⟩ := List.cons.inj hrest
    refine ⟨rfl, List.cons_prefix_cons.mpr ⟨rfl, List.cons_prefix_cons.mpr ⟨rfl, ?_⟩⟩⟩
    exact throughCommentEnd_prefix t more

end Reading

namespace Token

variable {text : Text} {offset : Nat} {position : Position} {run ts : List Token}

/-- Tokens that have the text of a comment together are one comment. -/
theorem Cut.eq_singleton_of_comment (h : Cut text offset position (run ++ ts)) {t : Token} (ht : t.IsRead)
    (hcomment : t.kind.isComment = true) (hrun : restore run = t.text) :
    ∃ u, run = [u] ∧ u.kind.isComment = true := by
  have hwhole := h.restore_eq
  cases run with
  | nil => exact absurd hrun.symm ht.text_ne_nil
  | cons u run =>
      have hread : ∀ v ∈ run, v.IsRead := fun v hv =>
        h.isRead (List.mem_append_left ts (List.mem_cons_of_mem u hv))
      cases h with
      | @cons d rest r _ _ _ hr =>
          subst hr
          obtain ⟨c, t, _, _, rfl⟩ := ht
          rw [restore_append, hrun] at hwhole
          obtain ⟨hkind, hprefix⟩ := (Reading.reads_read c t).prefix_text_read hcomment hwhole
          refine ⟨_, congrArg _ ?_, hkind⟩
          -- the first token is no shorter than the comment, so nothing is left for others
          cases run with
          | nil => rfl
          | cons v run =>
              have hlength := congrArg List.length hrun
              have hv := List.length_pos_iff.mpr (hread v List.mem_cons_self).text_ne_nil
              have hle := hprefix.length_le
              simp only [restore_cons, List.length_append, ofReading] at hlength hle
              omega

end Token

/-- The text of the trivia that an event is about, if it is about any. -/
def Event.trivia? : Event → Option Text
  | .lexeme _ => none
  | .trivia text => some text

/-- Texts of comments among the events that spell tokens belong to as many comment tokens, in the same order. -/
theorem Event.Spells.sublist_comments {es : List Event} {ts : List Token} (h : Spells es ts)
    {text : Text} {offset : Nat} {position : Position} (hcut : Token.Cut text offset position ts) {texts : List Text}
    (htexts : ∀ text ∈ texts, ∃ t : Token, t.IsRead ∧ t.kind.isComment = true ∧ t.text = text)
    (hsub : texts.Sublist (es.filterMap trivia?)) :
    texts.Sublist ((ts.filter (·.kind.isComment)).map Token.text) := by
  induction h generalizing text offset position texts with
  | nil => exact hsub
  | missing _ ih => exact ih hcut htexts hsub
  | @lexeme leading t es ts _ _ _ ih =>
      rw [← List.singleton_append, ← List.append_assoc] at hcut ⊢
      obtain ⟨_, _, _, hcut⟩ := hcut.of_append
      rw [List.filter_append, List.map_append]
      exact (ih hcut htexts hsub).trans (List.sublist_append_right _ _)
  | @trivia run es ts _ _ ih =>
      obtain ⟨_, _, _, hbehind⟩ := hcut.of_append
      rw [List.filter_append, List.map_append]
      have htrivia : trivia? (.trivia (Token.restore run)) = some (Token.restore run) := rfl
      rw [List.filterMap_cons_some htrivia] at hsub
      cases hsub with
      | cons _ hsub => exact (ih hbehind htexts hsub).trans (List.sublist_append_right _ _)
      | cons_cons _ hsub =>
          obtain ⟨⟨t, hread, hkind, htext⟩, hothers⟩ := List.forall_mem_cons.mp htexts
          obtain ⟨u, rfl, hcomment⟩ := hcut.eq_singleton_of_comment hread hkind htext.symm
          have hone : [u].filter (·.kind.isComment) = [u] := List.filter_cons_of_pos hcomment
          rw [hone, Token.restore_singleton]
          exact (ih hbehind hothers hsub).cons_cons u.text

namespace Node

theorem eq_comment_of_comment? {n : Node} {text : Text} (h : n.comment? = some text) : n = .comment text := by
  cases n with
  | comment other => exact congrArg _ (Option.some.inj h)
  | _ => cases h

/-- The comments of a node are met in a walk through it, in the same order. -/
theorem sublist_comments (n : Node) :
    (n.descendants.filterMap comment?).Sublist (n.events.filterMap Event.trivia?) := by
  induction n using inductionOnParts with
  | step n ih =>
      have hparts : (n.parts.flatMap Part.descendants |>.filterMap comment?).Sublist
          (n.parts.flatMap Part.events |>.filterMap Event.trivia?) := by
        rw [List.filterMap_flatMap, List.filterMap_flatMap]
        refine List.Sublist.flatMap_right _ fun p hp => ?_
        cases p with
        | node child => exact ih child hp
        | _ => exact List.nil_sublist _
      rw [descendants_eq, events_eq]
      cases n with
      | comment text => exact List.Sublist.refl _
      | _ => exact hparts

end Node

/-- The comments of a tree are met in a walk through it, in the same order. -/
theorem Program.sublist_comments (p : Program) :
    (p.descendants.filterMap Node.comment?).Sublist (p.events.filterMap Event.trivia?) := by
  rw [descendants, events, Node.eventsOfList, List.filterMap_flatMap, List.filterMap_flatMap]
  exact List.Sublist.flatMap_right _ fun n _ => n.sublist_comments

end LosslessSyntax
