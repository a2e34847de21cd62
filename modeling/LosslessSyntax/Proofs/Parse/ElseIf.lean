import LosslessSyntax.Parse.Nesting
import LosslessSyntax.Proofs.Parse.Result

/-! Chains of choices, read one inside the other. What a chain is can be told without a loop: behind its `else` a
choice holds either a body or another choice, read in the same way. The loop that keeps the choices read so far as
links, and closes them at the end, comes to the same tree and to the same cursor, from wherever it begins. -/

namespace LosslessSyntax.Level

open Rule

/-- Gives the comments in front of an `else` to the body before it. -/
def attachBeforeElse (control : Control Node) : Rule (Control Node) := do
  if (← kind) = .keyword .elseWord then do
    let comments ← takeTrailing
    return { control with body := control.body.attach comments }
  else return control

/-- A loop, or a choice and the `else` behind it, if one follows. -/
def choice (l : Level) (form : ControlForm) : Rule (Control Node × Option Lexeme) := do
  let control ← l.head form
  if control.form ≠ .ifForm then return (control, none)
  else do
    let control ← attachBeforeElse control
    let keyword ← Rule.optional (.keyword .elseWord)
    return (control, keyword)

/-- The choice with `inner` behind its `else`, as a statement of its own behind the trivia between them. -/
def withInner (control : Control Node) (keyword : Lexeme) (leading : List Node) (inner : Control Node) : Control Node :=
  let statement : Node := .command (.combinator inner) none []
  { control with alternate := some ⟨keyword, ⟨none, leading ++ [statement], none, []⟩⟩ }

/-- What a choice takes behind its body, told at once: the comments and the `else`, if one follows. -/
theorem run_choice (l : Level) (form : ControlForm) (c : Cursor) : (l.choice form).run c =
    let head := (l.head form).run c
    let trailing := head.2.takeTrailing
    if head.1.form = .ifForm ∧ head.2.kind = .keyword .elseWord then
      (({ head.1 with body := head.1.body.attach trailing.1 }, some trailing.2.bump.1), trailing.2.bump.2)
    else ((head.1, none), head.2) := by
  simp only [choice, attachBeforeElse, Rule.optional, run_bind, run_ite, run_pure, run_kind, run_takeTrailing, run_bump]
  generalize (l.head form).run c = head
  by_cases hform : head.1.form = .ifForm
  · by_cases hkind : head.2.kind = .keyword .elseWord
    · simp [hform, hkind]
    · simp [hform, hkind]
  · simp [hform]

section Choice

variable {l : Level} {form : ControlForm} {control : Control Node} {keyword : Lexeme} {c d : Cursor}

theorem of_run_choice_none (h : (l.choice form).run c = ((control, none), d)) :
    let head := (l.head form).run c
    ¬(head.1.form = .ifForm ∧ head.2.kind = .keyword .elseWord) ∧ head = (control, d) := by
  intro head
  rw [run_choice] at h
  by_cases hgoes : head.1.form = .ifForm ∧ head.2.kind = .keyword .elseWord
  · rw [if_pos hgoes] at h
    cases congrArg (·.1.2) h
  · rw [if_neg hgoes] at h
    cases h
    exact ⟨hgoes, rfl⟩

theorem of_run_choice_some (h : (l.choice form).run c = ((control, some keyword), d)) :
    let head := (l.head form).run c
    (head.1.form = .ifForm ∧ head.2.kind = .keyword .elseWord) ∧
      control = { head.1 with body := head.1.body.attach head.2.takeTrailing.1 } ∧
      head.2.takeTrailing.2.bump = (keyword, d) := by
  intro head
  rw [run_choice] at h
  by_cases hgoes : head.1.form = .ifForm ∧ head.2.kind = .keyword .elseWord
  · rw [if_pos hgoes] at h
    cases h
    exact ⟨hgoes, rfl, rfl⟩
  · rw [if_neg hgoes] at h
    cases congrArg (·.1.2) h

theorem left_choice_lt (h : (l.choice form).run c = ((control, some keyword), d)) : d.left < c.left := by
  obtain ⟨hgoes, -, hbump⟩ := of_run_choice_some h
  have htoken : ((l.head form).run c).2.takeTrailing.2.kind ≠ .endOfInput := by simp [hgoes]
  have hless := Cursor.left_bump_lt htoken
  rw [hbump] at hless
  calc d.left
      < ((l.head form).run c).2.takeTrailing.2.left := hless
    _ = ((l.head form).run c).2.left := Cursor.left_takeTrailing _
    _ ≤ c.left := left_le (l.head form) c

end Choice

/-- Reads a loop, or a choice with all that its `else` leads to: another choice behind it is read in turn. -/
def nestedControl (l : Level) (form : ControlForm) (c : Cursor) : Control Node × Cursor :=
  match _h : (l.choice form).run c with
  | ((control, none), d) => (control, d)
  | ((control, some keyword), d) =>
    if d.kind = .keyword .ifWord then
      let inner := nestedControl l .ifForm d.takeTrivia.2
      (withInner control keyword d.takeTrivia.1 inner.1, inner.2)
    else
      let body := l.body.run d
      ({ control with alternate := some ⟨keyword, body.1⟩ }, body.2)
termination_by c.left
decreasing_by exact Nat.lt_of_le_of_lt (Nat.le_of_eq d.left_takeTrivia) (left_choice_lt _h)

/-! ### The loop over links -/

section Loop

variable {A : Type} {round : A → Rule (A × Bool)} {hround : ∀ a, (round a).Advances} {a b : A} {c d : Cursor}

theorem growFrom_of_more (h : (round a).run c = ((b, true), d)) :
    growFrom round hround a c = growFrom round hround b d := by
  rw [growFrom, h]
  rfl

theorem growFrom_of_end (h : (round a).run c = ((b, false), d)) : growFrom round hround a c = (b, d) := by
  rw [growFrom, h]
  rfl

end Loop

/-- What a loop over links comes to once the links are closed. -/
def unwind (s : (List Link × Control Node) × Cursor) : Control Node × Cursor :=
  (s.1.1.foldl (fun inner link => link.close inner) s.1.2, s.2)

section Round

variable {l : Level} {form : ControlForm} {links : List Link} {control : Control Node} {keyword : Lexeme} {c d : Cursor}

/-- Behind a choice without an `else`, or behind a loop, the loop over links ends. -/
theorem run_linkRound_of_none (h : (l.choice form).run c = ((control, none), d)) :
    (l.linkRound (links, ((l.head form).run c).1)).run ((l.head form).run c).2 = (((links, control), false), d) := by
  obtain ⟨hgoes, hhead⟩ := of_run_choice_none h
  rw [hhead] at hgoes ⊢
  simp [linkRound, hgoes]

/-- With another choice behind its `else` a choice becomes a link, and the loop goes on with the other one. -/
theorem run_linkRound_of_choice (h : (l.choice form).run c = ((control, some keyword), d))
    (hd : d.kind = .keyword .ifWord) :
    (l.linkRound (links, ((l.head form).run c).1)).run ((l.head form).run c).2 =
      (((⟨control, keyword, d.takeTrivia.1⟩ :: links, ((l.head .ifForm).run d.takeTrivia.2).1), true),
        ((l.head .ifForm).run d.takeTrivia.2).2) := by
  obtain ⟨hgoes, rfl, hbump⟩ := of_run_choice_some h
  simp [linkRound, hgoes, hbump, hd]

/-- With anything else behind its `else` that is the body, and the loop ends. -/
theorem run_linkRound_of_body (h : (l.choice form).run c = ((control, some keyword), d))
    (hd : d.kind ≠ .keyword .ifWord) :
    (l.linkRound (links, ((l.head form).run c).1)).run ((l.head form).run c).2 =
      (((links, { control with alternate := some ⟨keyword, (l.body.run d).1⟩ }), false), (l.body.run d).2) := by
  obtain ⟨hgoes, rfl, hbump⟩ := of_run_choice_some h
  simp [linkRound, hgoes, hbump, hd]

end Round

/-- Round by round the loop puts off what reading choices one inside the other does at once: closing the links of the
choices around. -/
theorem unwind_growFrom (l : Level) (form : ControlForm) (c : Cursor) (links : List Link) :
    unwind (growFrom l.linkRound l.advances_linkRound (links, ((l.head form).run c).1) ((l.head form).run c).2) =
      unwind ((links, (l.nestedControl form c).1), (l.nestedControl form c).2) := by
  fun_induction nestedControl l form c generalizing links with
  | case1 form c control d h => rw [growFrom_of_end (run_linkRound_of_none h)]
  | case2 form c control keyword d h hd inner ih =>
      rw [growFrom_of_more (run_linkRound_of_choice h hd), ih]
      rfl
  | case3 form c control keyword d h hd body => rw [growFrom_of_end (run_linkRound_of_body h hd)]

/-- The loop over links reads what reading choices one inside the other reads, and stops at the same cursor, with the
same tokens left and the same diagnostics noted, wherever it begins and whatever is missing in any of the choices. -/
theorem run_control_eq_nestedControl (l : Level) (form : ControlForm) (c : Cursor) :
    (l.control form).run c = l.nestedControl form c := unwind_growFrom l form c []

end LosslessSyntax.Level
