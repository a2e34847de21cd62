import LosslessSyntax.Parse.Program
import LosslessSyntax.Proofs.Parse.Result
import LosslessSyntax.Proofs.Token.Cue
import LosslessSyntax.Proofs.Tree.Bare

/-! Matching cursors: reading sees the same from both on, and the same was noted so far, whatever the trivia. Every
single step takes matching cursors to matching cursors again. -/

namespace LosslessSyntax

/-- What a diagnostic says, and about which text, wherever that stands. -/
def Diagnostic.gist (d : Diagnostic) : Nat × Category × String × Text := (d.code, d.category, d.text, d.found)

/-- Whether reading sees the same from both cursors on and noted the same so far. `returned` tells whether both
stand right behind `return`. -/
structure Cursor.Matches (returned : Bool) (c d : Cursor) : Prop where
  givenUp : c.givenUp = d.givenUp
  cues : c.cues returned = d.cues returned
  last : c.last.text = d.last.text
  gists : c.diagnostics.map Diagnostic.gist = d.diagnostics.map Diagnostic.gist
  isRead : c.IsRead ∧ d.IsRead

namespace Cursor.Matches

variable {returned : Bool} {c d : Cursor}

/-- What matching cursors see first: nothing, or tokens of one kind and text, with matching tokens behind them. -/
inductive Heads (returned : Bool) (c d : Cursor) : Prop
  | none (hc : c.ahead = []) (hd : d.ahead = [])
  | some (t u : Token) (ts us : List Token) (hc : c.ahead = t :: ts) (hd : d.ahead = u :: us)
    (kind : t.kind = u.kind) (text : t.text = u.text)
    (broken : ((returned || t.kind.isPostfixOperator) && c.followsLineBreak) =
      ((returned || t.kind.isPostfixOperator) && d.followsLineBreak))
    (rest : Token.cues (t.kind = .keyword .returnWord) false ts = Token.cues (t.kind = .keyword .returnWord) false us)

theorem heads (h : Matches returned c d) : Heads returned c d := by
  have hcues := h.cues
  cases hc : c.ahead with
  | nil =>
      cases hd : d.ahead with
      | nil => exact .none hc hd
      | cons u us =>
          rw [cues_of_ahead_eq_nil hc, cues_of_ahead_eq_cons hd] at hcues
          cases hcues
  | cons t ts =>
      cases hd : d.ahead with
      | nil =>
          rw [cues_of_ahead_eq_cons hc, cues_of_ahead_eq_nil hd] at hcues
          cases hcues
      | cons u us =>
          rw [cues_of_ahead_eq_cons hc, cues_of_ahead_eq_cons hd] at hcues
          obtain ⟨hhead, hrest⟩ := List.cons.inj hcues
          obtain ⟨hkind, htext, hbroken⟩ := Cue.mk.inj hhead
          rw [← hkind] at hbroken hrest
          exact .some t u ts us hc hd hkind htext hbroken hrest

theorem kind_of_ahead {t : Token} {ts : List Token} (hc : c.ahead = t :: ts) (hend : c.kind ≠ .endOfInput) :
    c.kind = t.kind := by
  unfold kind at hend ⊢
  split at hend
  · exact absurd rfl hend
  · next hgiven => rw [if_neg hgiven, hc]

theorem kind_eq (h : Matches returned c d) : c.kind = d.kind := by
  unfold kind
  rw [h.givenUp]
  cases h.heads with
  | none hc hd => rw [hc, hd]
  | some t u ts us hc hd hkind =>
      rw [hc, hd]
      exact congrArg (ite _ _ ·) hkind

theorem nextKind_eq (h : Matches returned c d) : c.nextKind = d.nextKind := by
  have hfirst (ts : List Token) (returned broken : Bool) :
      (ts.dropWhile Token.isTrivia).head?.map Token.kind = (Token.cues returned broken ts).head?.map Cue.kind := by
    induction ts generalizing broken with
    | nil => rfl
    | cons t ts ih =>
        rw [List.dropWhile_cons, Token.cues]
        split
        · exact ih _
        · rfl
  have hnext (c : Cursor) :
      c.nextKind = (((c.ahead.drop 1).dropWhile Token.isTrivia).head?.map Token.kind).getD .endOfInput := by
    unfold nextKind
    cases (c.ahead.drop 1).dropWhile Token.isTrivia <;> rfl
  rw [hnext, hnext]
  cases h.heads with
  | none hc hd => rw [hc, hd]
  | some t u ts us hc hd _ _ _ hrest =>
      rw [hc, hd, List.drop_one, List.drop_one, List.tail_cons, List.tail_cons, hfirst ts _ false, hrest, ← hfirst]

theorem text_current (h : Matches returned c d) : c.current.text = d.current.text := by
  unfold current
  cases h.heads with
  | none hc hd => rw [hc, hd]; exact h.last
  | some t u ts us hc hd _ htext => rw [hc, hd]; exact htext

/-- Behind `return`, and in front of an operator that may stand behind its operand, the same lines end. -/
theorem followsLineBreak_eq (h : Matches returned c d) (hmatters : returned = true ∨ c.kind.isPostfixOperator = true)
    (hend : c.kind ≠ .endOfInput) : c.followsLineBreak = d.followsLineBreak := by
  cases h.heads with
  | none hc hd =>
      have hnothing : c.kind = .endOfInput := by
        rw [kind, hc]
        split <;> rfl
      exact absurd hnothing hend
  | some t u ts us hc hd _ _ hbroken =>
      rw [← kind_of_ahead hc hend] at hbroken
      rcases hmatters with hr | hp
      · simpa [hr] using hbroken
      · simpa [hp] using hbroken

/-- What matches right behind `return` matches anywhere. -/
theorem anywhere (h : Matches returned c d) : Matches false c d := by
  refine { h with cues := ?_ }
  cases h.heads with
  | none hc hd => rw [cues_of_ahead_eq_nil hc, cues_of_ahead_eq_nil hd]
  | some t u ts us hc hd hkind htext hbroken hrest =>
      rw [cues_of_ahead_eq_cons hc, cues_of_ahead_eq_cons hd, ← hkind, htext, hrest]
      cases returned with
      | false => rw [hbroken]
      | true => rw [show c.followsLineBreak = d.followsLineBreak by simpa using hbroken]

/-- Other tokens may come in, as long as reading sees the same of them. -/
theorem with_upcoming (h : Matches returned c d) {later : Bool} {ts us : List Token}
    (hcues : Token.cues later false ts = Token.cues later false us)
    (hc : IsRead { c with upcoming := ts }) (hd : IsRead { d with upcoming := us }) :
    Matches later { c with upcoming := ts } { d with upcoming := us } :=
  ⟨h.givenUp, hcues, h.last, h.gists, hc, hd⟩

theorem bump_some (h : Matches returned c d) {later : Bool} {t u : Token} {ts us : List Token}
    (hc : c.ahead = t :: ts) (hd : d.ahead = u :: us) (hrest : Token.cues later false ts = Token.cues later false us) :
    Matches later c.bump.2 d.bump.2 := by
  have hcread := Rule.bump.isRead_run h.isRead.1
  have hdread := Rule.bump.isRead_run h.isRead.2
  rw [Rule.run_bump, Cursor.bump, hc] at hcread
  rw [Rule.run_bump, Cursor.bump, hd] at hdread
  rw [Cursor.bump, Cursor.bump, hc, hd]
  exact h.with_upcoming hrest hcread hdread

/-- Behind a token that is read on both sides the cursors match. -/
theorem bump (h : Matches returned c d) : Matches false c.bump.2 d.bump.2 := by
  cases h.heads with
  | none hc hd =>
      rw [Cursor.bump, Cursor.bump, hc, hd]
      exact h.anywhere
  | some t u ts us hc hd _ _ _ hrest => exact (h.bump_some hc hd hrest).anywhere

theorem bump_returned (h : Matches returned c d) (hkind : c.kind = .keyword .returnWord) :
    Matches true c.bump.2 d.bump.2 := by
  unfold kind at hkind
  split at hkind
  · cases hkind
  · cases h.heads with
    | none hc hd =>
        rw [hc] at hkind
        cases hkind
    | some t u ts us hc hd _ _ _ hrest =>
        rw [hc] at hkind
        rw [decide_eq_true (show t.kind = .keyword .returnWord from hkind)] at hrest
        exact h.bump_some hc hd hrest

/-- The lexemes read have the same text, and both or none of them are missing. -/
theorem lexeme_bump (h : Matches returned c d) :
    c.bump.1.bare = d.bump.1.bare ∧ c.bump.1.isMissing = d.bump.1.isMissing := by
  cases h.heads with
  | none hc hd =>
      rw [Cursor.bump, Cursor.bump, hc, hd]
      exact ⟨rfl, rfl⟩
  | some t u ts us hc hd _ htext =>
      have hne : t.text ≠ [] := (h.isRead.1 t (hc ▸ List.mem_cons_self)).text_ne_nil
      have hpresent (leading : Text) {text : Text} (htext : text ≠ []) :
          (Lexeme.mk leading text).isMissing = false := by
        simp [Lexeme.isMissing, htext]
      rw [Cursor.bump, Cursor.bump, hc, hd]
      exact ⟨congrArg (Lexeme.mk []) htext, (hpresent _ hne).trans (hpresent _ (htext ▸ hne)).symm⟩

theorem takeTrivia (h : Matches returned c d) : Matches false c.takeTrivia.2 d.takeTrivia.2 := by
  refine h.with_upcoming ?_ (Rule.takeTrivia.isRead_run h.isRead.1) (Rule.takeTrivia.isRead_run h.isRead.2)
  cases h.heads with
  | none hc hd => rw [hc, hd]
  | some t u ts us hc hd hkind htext _ hrest =>
      rw [hc, hd, Token.cues_cons (isTrivia_eq_false_of_ahead hc), Token.cues_cons (isTrivia_eq_false_of_ahead hd),
        ← hkind, htext, hrest, Bool.and_false]

/-- Comments may be taken away in front of a token for which it does not matter whether a line ends there. -/
theorem takeTrailing (h : Matches returned c d) (hend : c.kind ≠ .endOfInput)
    (hbehind : c.kind.isPostfixOperator = false) : Matches false c.takeTrailing.2 d.takeTrailing.2 := by
  refine h.with_upcoming ?_ (Rule.takeTrailing.isRead_run h.isRead.1) (Rule.takeTrailing.isRead_run h.isRead.2)
  have hothers (c : Cursor) : ∀ t ∈ (Token.splitTrailing c.trivia).2, t.isTrivia = true := fun t ht =>
    isTrivia_of_mem_trivia (Token.splitTrailing_append c.trivia ▸ List.mem_append_right _ ht)
  rw [Token.cues_of_isTrivia (hothers c), Token.cues_of_isTrivia (hothers d)]
  cases h.heads with
  | none hc hd =>
      rw [hc, hd]
      rfl
  | some t u ts us hc hd hkind htext _ hrest =>
      rw [kind_of_ahead hc hend] at hbehind
      rw [hc, hd, Token.cues_cons (isTrivia_eq_false_of_ahead hc), Token.cues_cons (isTrivia_eq_false_of_ahead hd),
        ← hkind, htext, hrest, hbehind]
      rfl

theorem report (h : Matches returned c d) (m : Message) (args : List Text) :
    Matches returned (c.report m args) (d.report m args) := by
  by_cases hgiven : c.givenUp = true
  · rw [Cursor.report, Cursor.report, if_pos hgiven, if_pos (h.givenUp ▸ hgiven)]
    exact h
  · rw [Cursor.report, Cursor.report, if_neg hgiven, if_neg (h.givenUp ▸ hgiven)]
    have hgist : (Diagnostic.of m args (some c.current.location)).gist =
        (Diagnostic.of m args (some d.current.location)).gist := by
      simp only [Diagnostic.gist, Diagnostic.of, Diagnostic.found, Token.location, Option.map_some, Option.getD_some,
        h.text_current]
    refine ⟨h.givenUp, h.cues, h.last, ?_, h.isRead⟩
    rw [List.map_append, List.map_append, h.gists, List.map_singleton, List.map_singleton, hgist]

theorem giveUp (h : Matches returned c d) : Matches returned c.giveUp d.giveUp := { h with givenUp := rfl }

end Cursor.Matches

end LosslessSyntax
