import LosslessSyntax.Proofs.Parse.ProgramRun

/-! The state of a reading. Whatever the source and the limit are, the machine that reads it never takes a step that
goes wrong: its two indices stay in order with nothing but trivia between them, and the levels that it enters it
leaves again. At the end of a program it stands behind the last token, on no level, and finds nothing more to read. -/

namespace LosslessSyntax

open Rule

namespace Machine

variable {source : Text} {limit : Nat} {m m' : Machine source limit} {moments : List (Machine source limit)}

/-- Whether no index goes wrong in a step that takes tokens or looks at them. -/
def IsInRange (m : Machine source limit) : Prop :=
  m.takeTrivia?.isSome = true ∧ m.takeTrailing?.isSome = true ∧ m.followsLineBreak?.isSome = true

/-- Whether no slice of the source goes wrong in a step that takes tokens: with checked slices the step is the same. -/
structure SlicesWell (m : Machine source limit) : Prop where
  bump : m.checkedBump? = some m.bump
  takeUntil : ∀ stop, m.pos ≤ stop → stop ≤ m.current → m.checkedTakeUntil? stop = m.takeUntil? stop

/-- Whether reading is over: no level is entered, nothing was given up, and no token is left. -/
structure IsDone (m : Machine source limit) : Prop where
  depth : m.depth = 0
  givenUp : m.givenUp = false
  pos : m.pos = (tokenize source).length
  current : m.current = (tokenize source).length

theorem Mirrors.isSome {A : Type} {step : Option (A × Machine source limit)} {read : A × Cursor}
    (h : m.Mirrors step read) : step.isSome = true := by
  obtain ⟨m', rfl, _⟩ := h
  rfl

theorem IsSound.isInRange (h : m.IsSound) : m.IsInRange :=
  ⟨h.mirrors_takeTrivia.isSome, h.mirrors_takeTrailing.isSome, by rw [h.followsLineBreak?, Option.isSome_some]⟩

theorem IsSound.slicesWell (h : m.IsSound) (haddress : source.IsAddressable) : m.SlicesWell :=
  ⟨h.checkedBump?_eq haddress, fun _ => h.checkedTakeUntil?_eq haddress⟩

/-- Where no token is left, both indices are behind the last one. -/
theorem IsSound.isDone (h : m.IsSound) (hdepth : m.depth = 0) (hgiven : m.givenUp = false)
    (hleft : m.cursor.upcoming = []) : m.IsDone := by
  have hpos : (tokenize source).length ≤ m.pos := List.drop_eq_nil_iff.mp hleft
  have hcurrent := h.current_le
  exact ⟨hdepth, hgiven, Nat.le_antisymm (h.pos_le.trans hcurrent) hpos,
    Nat.le_antisymm hcurrent (hpos.trans h.pos_le)⟩

/-- Behind the last token a program has no declarations, and the state stays as it is. -/
theorem RunsProgram.eq_of_isDone {program : Program} (h : RunsProgram m moments program m') (hm : m.IsSound)
    (hdone : m.IsDone) : program = ⟨[]⟩ ∧ m' = m ∧ ∀ s ∈ moments, s.IsSound := by
  obtain ⟨hrun, hsound, hmoments, hdepth, hgiven⟩ := h.follows hm hdone.depth
  have hleft : m.cursor.upcoming = [] := List.drop_eq_nil_of_le hdone.pos.ge
  rw [Cursor.program_of_upcoming_eq_nil limit hleft hdone.givenUp] at hrun
  obtain ⟨rfl, hcursor⟩ := Prod.mk.inj hrun
  have hdone' := hsound.isDone hdepth hgiven (hcursor ▸ hleft)
  refine ⟨rfl, ?_, hmoments⟩
  have hdiagnostics : m.diagnostics = m'.diagnostics := congrArg Cursor.diagnostics hcursor
  obtain ⟨pos, current, depth, givenUp, diagnostics⟩ := m
  obtain ⟨pos', current', depth', givenUp', diagnostics'⟩ := m'
  cases hdone.depth.trans hdone'.depth.symm
  cases hdone.givenUp.trans hdone'.givenUp.symm
  cases hdone.pos.trans hdone'.pos.symm
  cases hdone.current.trans hdone'.current.symm
  cases hdiagnostics
  rfl

/-- A program can be run on every source with every limit, and every such run is what is read: from the start to the
end, at each moment, the indices of the machine are in range and in order, all tokens between them are trivia, the
second is that of a significant token or behind the last one, and no step that can follow goes wrong in an index or, if
the source is addressable, in a slice; no more than one level beyond the limit is ever entered, and every rule leaves as
many levels entered as it finds. In the end no level is entered, nothing is given up and both indices are behind the
last token, so that all later runs give no declarations and leave everything as it is. -/
theorem runsProgram_start (source : Text) (limit : Nat) :
    (∃ moments program m, RunsProgram (start source limit) moments program m) ∧
      (∀ moments program m, RunsProgram (start source limit) moments program m →
        let s := (Parser.ofSource source limit).program
        program = s.1 ∧ m.cursor = s.2.cursor ∧
          (∀ s ∈ start source limit :: m :: moments,
            s.IsSound ∧ s.IsInRange ∧ (source.IsAddressable → s.SlicesWell)) ∧ m.IsDone ∧
          (∃ later, RunsProgram m later ⟨[]⟩ m) ∧
          (∀ later program' m', RunsProgram m later program' m' →
            program' = ⟨[]⟩ ∧ m' = m ∧
              ∀ s ∈ later, s.IsSound ∧ s.IsInRange ∧ (source.IsAddressable → s.SlicesWell)) ∧
          s.2.program = (⟨[]⟩, s.2)) ∧
      ∀ {A : Type} (r : Level → Rule A) (m m' : Machine source limit) (moments : List (Machine source limit)) (a : A),
        Runs r m moments a m' → m'.depth = m.depth := by
  have hstart := isSound_start source limit
  refine ⟨RunsProgram.exists_of_isSound hstart rfl, fun moments program m h => ?_, fun r m m' moments a h => h.depth_eq⟩
  intro s
  obtain ⟨hrun, hsound, hmoments, hdepth, hgiven⟩ := h.follows hstart rfl
  have hprogram : (Parser.ofSource source limit).cursor.program limit = (program, m.cursor) := hrun
  have hcursor : s.2.cursor = m.cursor := congrArg Prod.snd hprogram
  have hleft : s.2.cursor.upcoming = [] := (Parser.account_program source limit).2
  have hdone := hsound.isDone hdepth hgiven (hcursor ▸ hleft)
  have hwell (s : Machine source limit) (hs : s.IsSound) :
      s.IsSound ∧ s.IsInRange ∧ (source.IsAddressable → s.SlicesWell) := ⟨hs, hs.isInRange, hs.slicesWell⟩
  have hall := List.forall_mem_cons.mpr ⟨hstart, List.forall_mem_cons.mpr ⟨hsound, hmoments⟩⟩
  refine ⟨(congrArg Prod.fst hprogram).symm, hcursor.symm, fun s hs => hwell s (hall s hs), hdone, ?_,
    fun later program' m' hlater => ?_, ?_⟩
  · obtain ⟨later, program', m', hlater⟩ := RunsProgram.exists_of_isSound hsound hdepth
    obtain ⟨rfl, rfl, _⟩ := hlater.eq_of_isDone hsound hdone
    exact ⟨later, hlater⟩
  · obtain ⟨hprogram', hm', hlaterSound⟩ := hlater.eq_of_isDone hsound hdone
    exact ⟨hprogram', hm', fun s hs => hwell s (hlaterSound s hs)⟩
  · have hagain : s.2.cursor.program limit = (⟨[]⟩, s.2.cursor) :=
      Cursor.program_of_upcoming_eq_nil limit hleft (hcursor ▸ hgiven)
    change ((s.2.cursor.program limit).1, ({ s.2 with cursor := (s.2.cursor.program limit).2 } : Parser)) = _
    rw [hagain]

/-- No slice goes wrong where reading is given up at a comment. -/
theorem runsProgram_start_comment :
    let source : Text := "a /* */ (".toList
    source.IsAddressable ∧ ∃ moments program, ∃ m : Machine source 1,
      RunsProgram (start source 1) moments program m ∧ ∀ s ∈ moments, s.SlicesWell := by
  intro source
  have haddress : source.IsAddressable := by decide +kernel
  obtain ⟨⟨moments, program, m, hrun⟩, hall, -⟩ := runsProgram_start source 1
  have hstates := (hall moments program m hrun).2.2.1
  refine ⟨haddress, moments, program, m, hrun, fun s hs => ?_⟩
  exact (hstates s (List.mem_cons_of_mem _ (List.mem_cons_of_mem _ hs))).2.2 haddress

end Machine

end LosslessSyntax
