import LosslessSyntax.Proofs.Parse.Run

/-! Runs of whole programs. A machine runs through the statements of a program; if it gave up, it sees again what is
left and takes it token by token. So it comes to the program that is read from the cursor. -/

namespace LosslessSyntax

open Rule

namespace Cursor

variable {c d e : Cursor} {limit : Nat}

/-- Where no token is left, a program has no declarations, and nothing changes. -/
theorem program_of_upcoming_eq_nil (limit : Nat) (hleft : c.upcoming = []) (hgiven : c.givenUp = false) :
    c.program limit = (⟨[]⟩, c) := by
  obtain ⟨source, upcoming, last, givenUp, diagnostics⟩ := c
  cases hleft
  cases hgiven
  have hround : ((Level.outermost limit).statementsRound false).run ⟨source, [], last, false, diagnostics⟩ =
      (([], false), ⟨source, [], last, false, diagnostics⟩) := rfl
  have hstatements : ((Level.outermost limit).statements false).run ⟨source, [], last, false, diagnostics⟩ =
      ([], ⟨source, [], last, false, diagnostics⟩) := by
    rw [Level.statements, run_bind, run_collect_of_last hround, run_pure, Node.attachTrailing]
  exact program_eq hstatements rfl

end Cursor

namespace Machine

variable {source : Text} {limit : Nat} {m m' : Machine source limit} {moments : List (Machine source limit)}

/-- The runs that take tokens as long as any is seen. -/
inductive Salvages :
    Machine source limit → List (Machine source limit) → List Lexeme → Machine source limit → Prop where
  | done {m : Machine source limit} (h : m.kind = .endOfInput) : Salvages m [] [] m
  | next {m m' : Machine source limit} {t : List (Machine source limit)} {lexemes : List Lexeme}
      (h : m.kind ≠ .endOfInput) (hrest : Salvages m.bump.2 t lexemes m') :
      Salvages m (m.bump.2 :: t) (m.bump.1 :: lexemes) m'

/-- The runs of a whole program: its statements and, if reading was given up, what is left as it stands. -/
inductive RunsProgram : Machine source limit → List (Machine source limit) → Program → Machine source limit → Prop where
  | complete {m m' : Machine source limit} {t : List (Machine source limit)} {nodes : List Node}
      (h : Runs (fun l => l.statements false) m t nodes m') (hgiven : m'.givenUp = false) :
      RunsProgram m t ⟨nodes⟩ m'
  | salvaged {m m₁ m₂ m₃ : Machine source limit} {t u : List (Machine source limit)} {nodes trivia : List Node}
      {lexemes : List Lexeme} (h : Runs (fun l => l.statements false) m t nodes m₁) (hgiven : m₁.givenUp = true)
      (hrest : Salvages m₁.resume u lexemes m₂) (htrivia : m₂.takeTrivia? = some (trivia, m₃)) :
      RunsProgram m (t ++ (u ++ [m₃]))
        ⟨nodes ++ ((if lexemes.isEmpty then [] else [.unparsed lexemes]) ++ trivia)⟩ m₃

namespace Salvages

variable {lexemes : List Lexeme}

/-- Nothing but the indices changes. -/
theorem moves (h : Salvages m moments lexemes m') : m.Moves m' ∧ ∀ s ∈ moments, m.Moves s := by
  induction h with
  | done => exact ⟨⟨rfl, rfl, rfl, Nat.le_refl _⟩, List.forall_mem_nil _⟩
  | @next m _ _ _ _ _ ih =>
      have hfirst := m.moves_bump
      exact ⟨hfirst.trans ih.1, List.forall_mem_cons.mpr ⟨hfirst, fun s hs => hfirst.trans (ih.2 s hs)⟩⟩

theorem follows (h : Salvages m moments lexemes m') (hm : m.IsSound) :
    m.Follows (fun _ => lexemesUntil fun _ => false) moments lexemes m' := by
  induction h with
  | done h => exact ⟨Cursor.run_lexemesUntil_of_end (hm.kind ▸ h), hm, List.forall_mem_nil _⟩
  | @next m m' t lexemes h _ ih =>
      have hfirst : m.Follows (fun _ => Rule.bump) [m.bump.2] m.bump.1 m.bump.2 := hm.mirrors_bump.follows rfl
      obtain ⟨hrun, hsound, -⟩ := hfirst
      obtain ⟨hrun', hsound', hmoments'⟩ := ih hsound
      refine ⟨Cursor.run_lexemesUntil_of_ne_end (hm.kind ▸ h) hrun hrun', hsound', ?_⟩
      exact List.forall_mem_cons.mpr ⟨hsound, hmoments'⟩

theorem exists_of_isSound (hm : m.IsSound) : ∃ moments lexemes m', Salvages m moments lexemes m' := by
  induction hn : m.cursor.left using Nat.strongRecOn generalizing m with
  | ind n ih =>
      by_cases h : m.kind = .endOfInput
      · exact ⟨[], [], m, .done h⟩
      · obtain ⟨_, hbump, hcursor, hsound, _⟩ := hm.mirrors_bump
        obtain rfl := congrArg Prod.snd (Option.some.inj hbump)
        have hless : m.bump.2.cursor.left < n := by
          rw [hcursor, ← hn]
          exact Cursor.left_bump_lt (hm.kind ▸ h)
        obtain ⟨t, lexemes, m₂, hrest⟩ := ih _ hless hsound rfl
        exact ⟨m.bump.2 :: t, _, m₂, .next h hrest⟩

end Salvages

namespace RunsProgram

/-- From a sound state on no level a program runs. -/
theorem exists_of_isSound (h : m.IsSound) (hdepth : m.depth = 0) :
    ∃ moments program m', RunsProgram m moments program m' := by
  obtain ⟨t, nodes, m₁, hstatements⟩ := (CanRun.closed_of_le source (Nat.zero_le limit)).statements false m h hdepth
  have hsound := (hstatements.follows h (hdepth.trans_le (Nat.zero_le _))).isSound
  cases hgiven : m₁.givenUp with
  | false => exact ⟨t, _, m₁, .complete hstatements hgiven⟩
  | true =>
      obtain ⟨u, lexemes, m₂, hrest⟩ := Salvages.exists_of_isSound hsound.resume
      obtain ⟨m₃, htrivia, _⟩ := (hrest.follows hsound.resume).isSound.mirrors_takeTrivia
      exact ⟨_, _, m₃, .salvaged hstatements hgiven hrest htrivia⟩

/-- A program runs as it is read from the cursor, all states are sound, and at the end no level is entered and
nothing is given up. -/
theorem follows {program : Program} (h : RunsProgram m moments program m') (hm : m.IsSound) (hdepth : m.depth = 0) :
    m.cursor.program limit = (program, m'.cursor) ∧ m'.IsSound ∧ (∀ s ∈ moments, s.IsSound) ∧
      m'.depth = 0 ∧ m'.givenUp = false := by
  cases h with
  | complete hstatements hgiven =>
      obtain ⟨hrun, hsound, hmoments⟩ := hstatements.follows hm (hdepth.trans_le (Nat.zero_le _))
      rw [hdepth, Nat.sub_zero] at hrun
      refine ⟨?_, hsound, hmoments, hstatements.depth_eq.trans hdepth, hgiven⟩
      have hsalvage : m'.cursor.salvage = ([], m'.cursor) := if_neg (ne_true_of_eq_false hgiven)
      have hprogram := Cursor.program_eq hrun hsalvage
      rwa [List.append_nil] at hprogram
  | @salvaged m₁ m₂ _ t u nodes trivia lexemes hstatements hgiven hrest htrivia =>
      obtain ⟨hrun, hsound, hmoments⟩ := hstatements.follows hm (hdepth.trans_le (Nat.zero_le _))
      obtain ⟨hrun', hsound', hmoments'⟩ := hrest.follows hsound.resume
      have hlast : m₂.Follows (fun _ => Rule.takeTrivia) [m'] trivia m' := hsound'.mirrors_takeTrivia.follows htrivia
      obtain ⟨hrun'', hsound'', hmoments''⟩ := hlast
      rw [hdepth, Nat.sub_zero] at hrun
      have hmoves := hrest.moves.1.trans (moves_takeUntil? htrivia)
      refine ⟨Cursor.program_eq hrun (Cursor.salvage_eq hgiven hrun' hrun''), hsound'', ?_, ?_, hmoves.givenUp⟩
      · exact List.forall_mem_append.mpr ⟨hmoments, List.forall_mem_append.mpr ⟨hmoments', hmoments''⟩⟩
      · exact hmoves.depth.trans (hstatements.depth_eq.trans hdepth)

end RunsProgram

end Machine

end LosslessSyntax
