import LosslessSyntax.Proofs.Parse.Account.Program
import LosslessSyntax.Proofs.Parse.Machine
import LosslessSyntax.Proofs.Parse.Result
import LosslessSyntax.Proofs.Parse.Scheme

/-! Runs of a machine. A run follows a rule step by step, as the rule is put together for every level, and at every
step the machine goes on as it can; where a rule leads to the next level, the machine enters a level, does what the
next level does, and leaves it again, or it is refused. So a run is all that there is to see of a reading: each state
behind a step, the result, and the state at the end.

Runs of a sound machine keep it sound, end on the level where they began, and come to what the rule reads from the
cursor. There is always such a run: no step goes wrong. -/

namespace LosslessSyntax

open Rule

namespace Machine

variable {source : Text} {limit : Nat}

/-- The runs of a rule from one state to another, with the result that the rule comes to there and the states behind
all steps that take tokens, enter a level or leave one. -/
inductive Runs : {A : Type} → (Level → Rule A) → Machine source limit → List (Machine source limit) → A →
    Machine source limit → Prop where
  | pure {A : Type} (a : A) (m : Machine source limit) : Runs (fun _ => pure a) m [] a m
  | bind {A B : Type} {r : Level → Rule A} {f : A → Level → Rule B} {m m₁ m₂ : Machine source limit}
      {t u : List (Machine source limit)} {a : A} {b : B} (h : Runs r m t a m₁) (hf : Runs (f a) m₁ u b m₂) :
      Runs (fun l => r l >>= fun a => f a l) m (t ++ u) b m₂
  | kind (m : Machine source limit) : Runs (fun _ => Rule.kind) m [] m.kind m
  | nextKind (m : Machine source limit) : Runs (fun _ => look Cursor.nextKind) m [] m.nextKind m
  | followsLineBreak {m : Machine source limit} {b : Bool} (h : m.followsLineBreak? = some b) :
      Runs (fun _ => look Cursor.followsLineBreak) m [] b m
  | bump (m : Machine source limit) : Runs (fun _ => Rule.bump) m [m.bump.2] m.bump.1 m.bump.2
  | takeTrivia {m m' : Machine source limit} {nodes : List Node} (h : m.takeTrivia? = some (nodes, m')) :
      Runs (fun _ => Rule.takeTrivia) m [m'] nodes m'
  | takeTrailing {m m' : Machine source limit} {nodes : List Node} (h : m.takeTrailing? = some (nodes, m')) :
      Runs (fun _ => Rule.takeTrailing) m [m'] nodes m'
  | report (m : Machine source limit) {message : Message} (hmessage : message.code ≠ Message.nestingTooDeep.code)
      (args : List Text) : Runs (fun _ => Rule.report message args) m [] () (m.report message args)
  | collectLast {A : Type} {r : Level → Rule (List A × Bool)} (hr : ∀ l, (r l).Advances)
      {m m' : Machine source limit} {t : List (Machine source limit)} {as : List A} (h : Runs r m t (as, false) m') :
      Runs (fun l => collect (r l) (hr l)) m t as m'
  | collectNext {A : Type} {r : Level → Rule (List A × Bool)} (hr : ∀ l, (r l).Advances)
      {m m₁ m₂ : Machine source limit} {t u : List (Machine source limit)} {as bs : List A}
      (h : Runs r m t (as, true) m₁) (hnext : Runs (fun l => collect (r l) (hr l)) m₁ u bs m₂) :
      Runs (fun l => collect (r l) (hr l)) m (t ++ u) (as ++ bs) m₂
  | growLast {A : Type} {r : Level → A → Rule (A × Bool)} (hr : ∀ l a, (r l a).Advances)
      {m m' : Machine source limit} {t : List (Machine source limit)} {a b : A}
      (h : Runs (fun l => r l a) m t (b, false) m') : Runs (fun l => grow (r l) (hr l) a) m t b m'
  | growNext {A : Type} {r : Level → A → Rule (A × Bool)} (hr : ∀ l a, (r l a).Advances)
      {m m₁ m₂ : Machine source limit} {t u : List (Machine source limit)} {a b c : A}
      (h : Runs (fun l => r l a) m t (b, true) m₁) (hnext : Runs (fun l => grow (r l) (hr l) b) m₁ u c m₂) :
      Runs (fun l => grow (r l) (hr l) a) m (t ++ u) c m₂
  | entered (e : Level.Entry) {m m₁ m₂ m₃ : Machine source limit} {t : List (Machine source limit)} {node : Node}
      (henter : m.enter = (true, m₁)) (h : Runs e.inner m₁ t node m₂) (hleave : m₂.leave? = some m₃) :
      Runs e.outer m (m₁ :: (t ++ [m₃])) node m₃
  | refused (e : Level.Entry) {m m₁ m₂ : Machine source limit} (henter : m.enter = (false, m₁))
      (hleave : m₁.leave? = some m₂) : Runs e.outer m [m₁, m₂] (.unparsed []) m₂

variable {A : Type} {m m' : Machine source limit} {t : List (Machine source limit)}

/-! ### The level is left as it was found -/

theorem depth_report (m : Machine source limit) (message : Message) (args : List Text) :
    (m.report message args).depth = m.depth := by
  unfold Machine.report
  split <;> rfl

/-- The state behind a refusal: one level too deep, the limit is noted, and reading is given up. -/
def stopped (m : Machine source limit) : Machine source limit :=
  ((m.atDepth (m.depth + 1)).report .nestingTooDeep [Nat.toDigits 10 limit]).giveUp

theorem depth_stopped (m : Machine source limit) : m.stopped.depth = m.depth + 1 := depth_report _ _ _

/-- A level is entered as long as the limit allows it, and refused otherwise. -/
theorem enter_cases (m : Machine source limit) :
    m.depth < limit ∧ m.enter = (true, m.atDepth (m.depth + 1)) ∨ limit ≤ m.depth ∧ m.enter = (false, m.stopped) := by
  by_cases h : limit < m.depth + 1
  · exact .inr ⟨Nat.le_of_lt_succ h, if_pos h⟩
  · exact .inl ⟨Nat.lt_of_succ_le (Nat.le_of_not_lt h), if_neg h⟩

theorem of_enter_true (h : m.enter = (true, m')) : m.depth < limit ∧ m' = m.atDepth (m.depth + 1) := by
  rcases m.enter_cases with ⟨hlt, hentered⟩ | ⟨_, hrefused⟩
  · cases hentered.symm.trans h
    exact ⟨hlt, rfl⟩
  · cases hrefused.symm.trans h

theorem of_enter_false (h : m.enter = (false, m')) : limit ≤ m.depth ∧ m' = m.stopped := by
  rcases m.enter_cases with ⟨_, hentered⟩ | ⟨hle, hrefused⟩
  · cases hentered.symm.trans h
  · cases hrefused.symm.trans h
    exact ⟨hle, rfl⟩

theorem leave?_of_depth {d : Nat} (h : m.depth = d + 1) : m.leave? = some (m.atDepth d) := by rw [leave?, h]

theorem depth_of_leave? (h : m.leave? = some m') : m.depth = m'.depth + 1 := by
  unfold leave? at h
  split at h
  · cases h
  · next hdepth =>
      cases h
      exact hdepth

/-- Whether nothing but the indices may differ between two states, and the second index did not go back. -/
structure Moves (m m' : Machine source limit) : Prop where
  depth : m'.depth = m.depth
  givenUp : m'.givenUp = m.givenUp
  diagnostics : m'.diagnostics = m.diagnostics
  current_le : m.current ≤ m'.current

theorem Moves.trans {m₁ m₂ m₃ : Machine source limit} (h : m₁.Moves m₂) (h' : m₂.Moves m₃) : m₁.Moves m₃ :=
  ⟨h'.depth.trans h.depth, h'.givenUp.trans h.givenUp, h'.diagnostics.trans h.diagnostics,
    h.current_le.trans h'.current_le⟩

theorem moves_bump (m : Machine source limit) : m.Moves m.bump.2 := by
  unfold bump
  split
  · exact ⟨rfl, rfl, rfl, Nat.le_refl _⟩
  · next t ht =>
      have hnext := (Token.significantFrom_spec (List.getElem?_eq_some_iff.mp ht).1).1
      exact ⟨rfl, rfl, rfl, Nat.le_of_succ_le hnext⟩

theorem moves_takeUntil? {stop : Nat} {nodes : List Node} (h : m.takeUntil? stop = some (nodes, m')) : m.Moves m' := by
  obtain ⟨window, _, h⟩ := Option.bind_eq_some_iff.mp h
  cases h
  exact ⟨rfl, rfl, rfl, Nat.le_refl _⟩

theorem moves_takeTrailing? {nodes : List Node} (h : m.takeTrailing? = some (nodes, m')) : m.Moves m' := by
  obtain ⟨window, _, h⟩ := Option.bind_eq_some_iff.mp h
  exact moves_takeUntil? h

namespace Runs

/-- Every run of every rule ends on the level where it began. -/
theorem depth_eq {r : Level → Rule A} {a : A} (h : Runs r m t a m') : m'.depth = m.depth := by
  induction h with
  | pure | kind | nextKind | followsLineBreak => rfl
  | bind _ _ ih ihf => exact ihf.trans ih
  | bump m => exact m.moves_bump.depth
  | takeTrivia h => exact (moves_takeUntil? h).depth
  | takeTrailing h => exact (moves_takeTrailing? h).depth
  | report m _ args => exact m.depth_report _ args
  | collectLast _ _ ih | growLast _ _ ih => exact ih
  | collectNext _ _ _ ih ihnext | growNext _ _ _ ih ihnext => exact ihnext.trans ih
  | entered _ henter _ hleave ih =>
      obtain ⟨-, rfl⟩ := of_enter_true henter
      exact Nat.succ.inj ((depth_of_leave? hleave).symm.trans ih)
  | refused _ henter hleave =>
      obtain ⟨-, rfl⟩ := of_enter_false henter
      exact Nat.succ.inj ((depth_of_leave? hleave).symm.trans (depth_stopped _))

end Runs

/-! ### Runs come to what the rule reads -/

/-- Whether a run from `m` with result `a` to `m'` is sound throughout, and is what the rule `r` reads. -/
structure Follows (m : Machine source limit) (r : Level → Rule A) (t : List (Machine source limit)) (a : A)
    (m' : Machine source limit) : Prop where
  run : (r (.ofRemaining limit (limit - m.depth))).run m.cursor = (a, m'.cursor)
  isSound : m'.IsSound
  moments : ∀ s ∈ t, s.IsSound

theorem Mirrors.follows {step : Option (A × Machine source limit)} {read : Rule A} {a : A}
    (h : m.Mirrors step (read.run m.cursor)) (hstep : step = some (a, m')) : m.Follows (fun _ => read) [m'] a m' := by
  obtain ⟨next, hnext, hcursor, hsound, _⟩ := h
  cases hnext.symm.trans hstep
  exact ⟨by rw [hcursor], hsound, List.forall_mem_singleton.mpr hsound⟩

theorem IsSound.stopped (h : m.IsSound) (hdepth : m.depth ≤ limit) : m.stopped.IsSound :=
  ((h.atDepth (Nat.succ_le_succ hdepth)).report .nestingTooDeep _).giveUp

theorem IsSound.cursor_stopped (h : m.IsSound) (hdepth : m.depth ≤ limit) :
    m.stopped.cursor = (m.cursor.report .nestingTooDeep [Nat.toDigits 10 limit]).giveUp :=
  congrArg Cursor.giveUp ((h.atDepth (Nat.succ_le_succ hdepth)).cursor_report .nestingTooDeep _)

namespace Follows

variable {B C : Type} {r : Level → Rule A} {s : Level → Rule B} {q : Level → Rule C} {m₁ m₂ : Machine source limit}
  {u : List (Machine source limit)} {a : A} {b : B} {c : C}

/-- Another rule that reads the same steps. -/
theorem congr (h : m.Follows r t a m₁)
    (hrun : ∀ l, (r l).run m.cursor = (a, m₁.cursor) → (q l).run m.cursor = (c, m₁.cursor)) : m.Follows q t c m₁ :=
  ⟨hrun _ h.run, h.isSound, h.moments⟩

/-- One run behind another on the same level. -/
theorem andThen (h : m.Follows r t a m₁) (hdepth : m₁.depth = m.depth) (hnext : m₁.Follows s u b m₂)
    (hrun : ∀ l, (r l).run m.cursor = (a, m₁.cursor) → (s l).run m₁.cursor = (b, m₂.cursor) →
      (q l).run m.cursor = (c, m₂.cursor)) : m.Follows q (t ++ u) c m₂ :=
  ⟨hrun _ h.run (hdepth ▸ hnext.run), hnext.isSound, List.forall_mem_append.mpr ⟨h.moments, hnext.moments⟩⟩

/-- A run one level deeper, with the states where the level is entered and left. -/
theorem entered {e : Level.Entry} {node : Node} (hm : m.IsSound) (hlt : m.depth < limit)
    (h : (m.atDepth (m.depth + 1)).Follows e.inner t node m₁) :
    m.Follows e.outer (m.atDepth (m.depth + 1) :: (t ++ [m₁.atDepth m.depth])) node (m₁.atDepth m.depth) := by
  have hdeeper := hm.atDepth (Nat.succ_le_succ (Nat.le_of_lt hlt))
  have hleft := h.isSound.atDepth hm.depth_le
  refine ⟨?_, hleft, List.forall_mem_cons.mpr ⟨hdeeper, ?_⟩⟩
  · have hlevels : limit - m.depth = limit - (m.depth + 1) + 1 := by omega
    rw [hlevels, Level.Entry.outer_succ]
    exact h.run
  · exact List.forall_mem_append.mpr ⟨h.moments, List.forall_mem_singleton.mpr hleft⟩

theorem refused (e : Level.Entry) (hm : m.IsSound) (hdepth : m.depth = limit) :
    m.Follows e.outer [m.stopped, m.stopped.atDepth m.depth] (.unparsed []) (m.stopped.atDepth m.depth) := by
  have hstopped := hm.stopped hdepth.le
  have hleft := hstopped.atDepth hm.depth_le
  refine ⟨?_, hleft, List.forall_mem_cons.mpr ⟨hstopped, List.forall_mem_singleton.mpr hleft⟩⟩
  rw [Nat.sub_eq_zero_of_le hdepth.ge, Level.Entry.outer_zero]
  exact congrArg (Prod.mk (Node.unparsed [])) (hm.cursor_stopped hdepth.le).symm

end Follows

namespace Runs

/-- From a sound state within the limit a rule runs as it reads from the cursor, and all states are sound. -/
theorem follows {r : Level → Rule A} {a : A} (h : Runs r m t a m') (hm : m.IsSound) (hdepth : m.depth ≤ limit) :
    m.Follows r t a m' := by
  induction h with
  | pure a m => exact ⟨rfl, hm, List.forall_mem_nil _⟩
  | bind h _ ih ihf =>
      have hfirst := ih hm hdepth
      refine hfirst.andThen h.depth_eq (ihf hfirst.isSound (h.depth_eq.trans_le hdepth)) fun l hrun hrun' => ?_
      rw [run_bind, hrun, hrun']
  | kind m => exact ⟨by rw [run_kind, hm.kind], hm, List.forall_mem_nil _⟩
  | nextKind m => exact ⟨by rw [run_look, hm.nextKind], hm, List.forall_mem_nil _⟩
  | followsLineBreak h =>
      cases hm.followsLineBreak?.symm.trans h
      exact ⟨rfl, hm, List.forall_mem_nil _⟩
  | bump m => exact hm.mirrors_bump.follows rfl
  | takeTrivia h => exact hm.mirrors_takeTrivia.follows h
  | takeTrailing h => exact hm.mirrors_takeTrailing.follows h
  | report m _ args => exact ⟨by rw [run_report, hm.cursor_report], hm.report _ args, List.forall_mem_nil _⟩
  | collectLast _ _ ih =>
      exact (ih hm hdepth).congr fun l hrun => run_collect_of_last hrun
  | collectNext _ h _ ih ihnext =>
      have hfirst := ih hm hdepth
      exact hfirst.andThen h.depth_eq (ihnext hfirst.isSound (h.depth_eq.trans_le hdepth)) fun l hrun hrun' =>
        run_collect_of_next hrun hrun'
  | growLast _ _ ih =>
      exact (ih hm hdepth).congr fun l hrun => run_grow_of_last hrun
  | growNext _ h _ ih ihnext =>
      have hfirst := ih hm hdepth
      exact hfirst.andThen h.depth_eq (ihnext hfirst.isSound (h.depth_eq.trans_le hdepth)) fun l hrun hrun' =>
        (run_grow_of_next hrun).trans hrun'
  | entered e henter h hleave ih =>
      obtain ⟨hlt, rfl⟩ := of_enter_true henter
      cases (leave?_of_depth h.depth_eq).symm.trans hleave
      exact (ih (hm.atDepth (Nat.succ_le_succ hdepth)) hlt).entered hm hlt
  | refused e henter hleave =>
      obtain ⟨hle, rfl⟩ := of_enter_false henter
      cases (leave?_of_depth (depth_stopped _)).symm.trans hleave
      exact .refused e hm (Nat.le_antisymm hdepth hle)

end Runs

/-! ### There is a run -/

/-- Whether a rule runs from every sound state on the level `d`. -/
def CanRun (source : Text) (limit d : Nat) ⦃A : Type⦄ (r : Level → Rule A) : Prop :=
  ∀ m : Machine source limit, m.IsSound → m.depth = d → ∃ t a m', Runs r m t a m'

namespace CanRun

variable {d : Nat}

theorem bind {B : Type} {r : Level → Rule A} {f : A → Level → Rule B} (hd : d ≤ limit) (h : CanRun source limit d r)
    (hf : ∀ a, CanRun source limit d (f a)) : CanRun source limit d fun l => r l >>= fun a => f a l := by
  intro m hm hdepth
  obtain ⟨t, a, m₁, hrun⟩ := h m hm hdepth
  have hsound := (hrun.follows hm (hdepth.trans_le hd)).isSound
  obtain ⟨u, b, m₂, hnext⟩ := hf a m₁ hsound (hrun.depth_eq.trans hdepth)
  exact ⟨t ++ u, b, m₂, hrun.bind hnext⟩

theorem collect {r : Level → Rule (List A × Bool)} (hd : d ≤ limit) (hr : ∀ l, (r l).Advances)
    (h : CanRun source limit d r) : CanRun source limit d fun l => collect (r l) (hr l) := by
  intro m
  -- A round that goes on leaves less in front of the cursor.
  induction hn : m.cursor.left using Nat.strongRecOn generalizing m with
  | ind n ih =>
      intro hm hdepth
      obtain ⟨t, ⟨as, more⟩, m₁, hrun⟩ := h m hm hdepth
      obtain ⟨hread, hsound, _⟩ := hrun.follows hm (hdepth.trans_le hd)
      cases more with
      | false => exact ⟨t, as, m₁, .collectLast hr hrun⟩
      | true =>
          have hless := hr _ m.cursor (by rw [hread])
          rw [hread, hn] at hless
          obtain ⟨u, bs, m₂, hnext⟩ := ih _ hless m₁ rfl hsound (hrun.depth_eq.trans hdepth)
          exact ⟨t ++ u, as ++ bs, m₂, .collectNext hr hrun hnext⟩

theorem grow {r : Level → A → Rule (A × Bool)} (hd : d ≤ limit) (hr : ∀ l a, (r l a).Advances)
    (h : ∀ a, CanRun source limit d fun l => r l a) (a : A) :
    CanRun source limit d fun l => grow (r l) (hr l) a := by
  intro m
  induction hn : m.cursor.left using Nat.strongRecOn generalizing m a with
  | ind n ih =>
      intro hm hdepth
      obtain ⟨t, ⟨b, more⟩, m₁, hrun⟩ := h a m hm hdepth
      obtain ⟨hread, hsound, _⟩ := hrun.follows hm (hdepth.trans_le hd)
      cases more with
      | false => exact ⟨t, b, m₁, .growLast hr hrun⟩
      | true =>
          have hless := hr _ a m.cursor (by rw [hread])
          rw [hread, hn] at hless
          obtain ⟨u, c, m₂, hnext⟩ := ih _ hless b m₁ rfl hsound (hrun.depth_eq.trans hdepth)
          exact ⟨t ++ u, c, m₂, .growNext hr hrun hnext⟩

/-- Within the limit a level is entered if what happens there runs. -/
theorem entered (e : Level.Entry) (hd : d < limit) (h : CanRun source limit (d + 1) e.inner) :
    CanRun source limit d e.outer := by
  rintro m hm rfl
  rcases m.enter_cases with ⟨_, henter⟩ | ⟨hle, _⟩
  · obtain ⟨t, node, m₂, hrun⟩ := h _ (hm.atDepth (Nat.succ_le_succ (Nat.le_of_lt hd))) rfl
    exact ⟨_, node, _, .entered e henter hrun (leave?_of_depth hrun.depth_eq)⟩
  · exact absurd hd (Nat.not_lt_of_le hle)

theorem refused (e : Level.Entry) : CanRun source limit limit e.outer := by
  intro m hm hdepth
  rcases m.enter_cases with ⟨hlt, _⟩ | ⟨_, henter⟩
  · exact absurd hdepth (Nat.ne_of_lt hlt)
  · exact ⟨_, _, _, .refused e henter (leave?_of_depth m.depth_stopped)⟩

/-- No way of putting rules together makes a step go wrong, as long as none does one level deeper. -/
theorem closed (hd : d ≤ limit) (henter : ∀ e : Level.Entry, CanRun source limit d e.outer) :
    Closed (CanRun source limit d) where
  pure a m _ _ := ⟨[], a, m, .pure a m⟩
  bind := bind hd
  kind m _ _ := ⟨[], m.kind, m, .kind m⟩
  nextKind m _ _ := ⟨[], m.nextKind, m, .nextKind m⟩
  followsLineBreak m hm _ := ⟨[], _, m, .followsLineBreak hm.followsLineBreak?⟩
  bump m _ _ := ⟨[m.bump.2], m.bump.1, m.bump.2, .bump m⟩
  takeTrivia m hm _ := by
    obtain ⟨m', hstep, _⟩ := hm.mirrors_takeTrivia
    exact ⟨[m'], _, m', .takeTrivia hstep⟩
  takeTrailing m hm _ := by
    obtain ⟨m', hstep, _⟩ := hm.mirrors_takeTrailing
    exact ⟨[m'], _, m', .takeTrailing hstep⟩
  report hmessage args m _ _ := ⟨[], (), _, .report m hmessage args⟩
  collect := collect hd
  grow := grow hd
  enter := henter

/-- On every level within the limit all rules run, from the deepest one upwards. -/
theorem closed_of_le (source : Text) {d limit : Nat} (hd : d ≤ limit) : Closed (CanRun source limit d) := by
  induction hk : limit - d generalizing d with
  | zero =>
      cases Nat.le_antisymm hd (Nat.le_of_sub_eq_zero hk)
      exact closed hd refused
  | succ k ih =>
      have hlt : d < limit := by omega
      have hdeeper := ih (d := d + 1) hlt (by omega)
      exact closed hd fun e => entered e hlt (hdeeper.inner e)

end CanRun

end Machine

end LosslessSyntax
