import LosslessSyntax.Proofs.Parse.Loop
import LosslessSyntax.Proofs.Parse.ProgramRun

/-! Progress. Whatever the source and the limit are, a reading comes to an end, and every round of every loop in it
either is the last, or takes the significant token in front of it, or leads to where reading is given up. To say so,
the rules that are begun in the course of a run are told apart: those that the run is put together from. -/

namespace LosslessSyntax

open Rule

namespace Machine

variable {source : Text} {limit : Nat} {m m' : Machine source limit}

/-- Whether the rule `s` is begun in the state `m'` while the rule `r` runs from `m`. -/
inductive Begins : {A B : Type} → (r : Level → Rule A) → Machine source limit → (s : Level → Rule B) →
    Machine source limit → Prop where
  | self {A : Type} (r : Level → Rule A) (m : Machine source limit) : Begins r m r m
  | first {A B C : Type} {r : Level → Rule A} (f : A → Level → Rule B) {s : Level → Rule C}
      {m m' : Machine source limit} (h : Begins r m s m') : Begins (fun l => r l >>= fun a => f a l) m s m'
  | second {A B C : Type} {r : Level → Rule A} {f : A → Level → Rule B} {s : Level → Rule C}
      {m m₁ m' : Machine source limit} {t : List (Machine source limit)} {a : A} (hr : Runs r m t a m₁)
      (h : Begins (f a) m₁ s m') : Begins (fun l => r l >>= fun a => f a l) m s m'
  | collectRound {A C : Type} {r : Level → Rule (List A × Bool)} (hr : ∀ l, (r l).Advances) {s : Level → Rule C}
      {m m' : Machine source limit} (h : Begins r m s m') : Begins (fun l => collect (r l) (hr l)) m s m'
  | collectNext {A C : Type} {r : Level → Rule (List A × Bool)} (hr : ∀ l, (r l).Advances) {s : Level → Rule C}
      {m m₁ m' : Machine source limit} {t : List (Machine source limit)} {as : List A}
      (hround : Runs r m t (as, true) m₁) (h : Begins (fun l => collect (r l) (hr l)) m₁ s m') :
      Begins (fun l => collect (r l) (hr l)) m s m'
  | growRound {A C : Type} {r : Level → A → Rule (A × Bool)} (hr : ∀ l a, (r l a).Advances) {s : Level → Rule C}
      {m m' : Machine source limit} {a : A} (h : Begins (fun l => r l a) m s m') :
      Begins (fun l => grow (r l) (hr l) a) m s m'
  | growNext {A C : Type} {r : Level → A → Rule (A × Bool)} (hr : ∀ l a, (r l a).Advances) {s : Level → Rule C}
      {m m₁ m' : Machine source limit} {t : List (Machine source limit)} {a b : A}
      (hround : Runs (fun l => r l a) m t (b, true) m₁) (h : Begins (fun l => grow (r l) (hr l) b) m₁ s m') :
      Begins (fun l => grow (r l) (hr l) a) m s m'
  | entered (e : Level.Entry) {C : Type} {s : Level → Rule C} {m m₁ m' : Machine source limit}
      (henter : m.enter = (true, m₁)) (h : Begins e.inner m₁ s m') : Begins e.outer m s m'

/-- Whether a rule is begun in the state `m'` while a whole program runs from `m`: among its statements, or where it
takes what is left after reading was given up. -/
inductive BeginsInProgram {C : Type} (m : Machine source limit) (s : Level → Rule C) (m' : Machine source limit) :
    Prop where
  | statements (h : Begins (fun l => l.statements false) m s m')
  | rest {m₁ : Machine source limit} {t : List (Machine source limit)} {nodes : List Node}
      (hstatements : Runs (fun l => l.statements false) m t nodes m₁) (hgiven : m₁.givenUp = true)
      (h : Begins (fun _ => lexemesUntil fun _ => false) m₁.resume s m')

/-- Whether the significant token in front of `m` has been taken in `m'`. -/
def Takes (m m' : Machine source limit) : Prop :=
  ∃ t, (tokenize source)[m.current]? = some t ∧ t.isTrivia = false ∧ m.current < m'.pos

/-! ### Rules are begun in sound states -/

theorem Begins.isSound {A B : Type} {r : Level → Rule A} {s : Level → Rule B} (h : Begins r m s m')
    (hm : m.IsSound) (hdepth : m.depth ≤ limit) : m'.IsSound ∧ m'.depth ≤ limit := by
  induction h with
  | self => exact ⟨hm, hdepth⟩
  | first _ _ ih | collectRound _ _ ih | growRound _ _ ih => exact ih hm hdepth
  | second hr _ ih => exact ih (hr.follows hm hdepth).isSound (hr.depth_eq.trans_le hdepth)
  | collectNext _ hround _ ih | growNext _ hround _ ih =>
      exact ih (hround.follows hm hdepth).isSound (hround.depth_eq.trans_le hdepth)
  | entered _ henter _ ih =>
      obtain ⟨hlt, rfl⟩ := of_enter_true henter
      exact ih (hm.atDepth (Nat.succ_le_succ hdepth)) hlt

theorem BeginsInProgram.isSound {B : Type} {s : Level → Rule B} (h : BeginsInProgram (start source limit) s m') :
    m'.IsSound ∧ m'.depth ≤ limit := by
  have hstart := isSound_start source limit
  cases h with
  | statements h => exact h.isSound hstart (Nat.zero_le _)
  | rest hstatements _ h =>
      have hsound := (hstatements.follows hstart (Nat.zero_le _)).isSound
      exact h.isSound hsound.resume (hstatements.depth_eq.trans_le (Nat.zero_le _))

/-- A reading begins with a round of the list of all statements. -/
theorem beginsInProgram_start (source : Text) (limit : Nat) :
    BeginsInProgram (start source limit) (Loop.statements false).round (start source limit) :=
  .statements (.first _ (.collectRound _ (.self _ _)))

/-! ### What is left shrinks by the token in front -/

/-- Where fewer tokens are left, the one in front was taken, unless reading was given up. -/
theorem IsSound.takes_of_left_lt (hm : m.IsSound) (hm' : m'.IsSound) (h : m'.cursor.left < m.cursor.left) :
    m'.givenUp = true ∨ m.Takes m' := by
  by_cases hgiven' : m'.givenUp = true
  · exact .inl hgiven'
  · refine .inr ?_
    have hgiven : ¬m.givenUp = true := by
      intro hgiven
      rw [Cursor.left, Cursor.left, if_pos (show m.cursor.givenUp = true from hgiven)] at h
      exact Nat.not_lt_zero _ h
    rw [Cursor.left, Cursor.left, if_neg (show ¬m.cursor.givenUp = true from hgiven),
      if_neg (show ¬m'.cursor.givenUp = true from hgiven'), hm.ahead, hm'.ahead, List.length_drop,
      List.length_drop] at h
    have hlength : m'.current ≤ (tokenize source).length := hm'.current_le
    have hlt : m.current < m'.current := by omega
    have htoken : (tokenize source)[m.current]? = some (tokenize source)[m.current] :=
      List.getElem?_eq_getElem (by omega)
    have hsignificant := hm.significant _ htoken
    refine ⟨_, htoken, hsignificant, Nat.lt_of_not_le fun hle => ?_⟩
    -- between the indices of the later state there are only trivia
    have hbetween : (tokenize source)[m.current] ∈ ((tokenize source).take m'.current).drop m'.pos := by
      rw [List.mem_iff_getElem?]
      refine ⟨m.current - m'.pos, ?_⟩
      rw [List.getElem?_drop, Nat.add_sub_of_le hle, List.getElem?_take_of_lt hlt, htoken]
    rw [hm'.trivia _ hbetween] at hsignificant
    cases hsignificant

/-- A rule that leaves fewer tokens takes the one in front, or leads to where reading is given up. -/
theorem Runs.takes {A : Type} {r : Level → Rule A} {t : List (Machine source limit)} {a : A} (h : Runs r m t a m')
    (hm : m.IsSound) (hdepth : m.depth ≤ limit)
    (hless : ∀ l, (r l).run m.cursor = (a, m'.cursor) → ((r l).run m.cursor).2.left < m.cursor.left) :
    m'.givenUp = true ∨ m.Takes m' := by
  obtain ⟨hrun, hsound, _⟩ := h.follows hm hdepth
  have hleft := hless _ hrun
  rw [hrun] at hleft
  exact hm.takes_of_left_lt hsound hleft

/-- A round that is not the last takes a token, or leads to where reading is given up. -/
theorem Runs.takes_of_round {x : Loop} {t : List (Machine source limit)} {a : x.Result}
    (h : Runs x.round m t (a, true) m') (hm : m.IsSound) (hdepth : m.depth ≤ limit) :
    m'.givenUp = true ∨ m.Takes m' :=
  h.takes hm hdepth fun l hrun => x.advances l m.cursor (by rw [hrun])

/-- A statement takes a token wherever one is seen, or leads to where reading is given up. -/
theorem Runs.takes_of_statement {nested : Bool} {t : List (Machine source limit)} {node : Node}
    (h : Runs (fun l => l.statement nested) m t node m') (hm : m.IsSound) (hdepth : m.depth ≤ limit)
    (hkind : m.kind ≠ .endOfInput) : m'.givenUp = true ∨ m.Takes m' :=
  h.takes hm hdepth fun l _ => l.consumes_statement nested m.cursor (hm.kind ▸ hkind)

/-- Every reading of every source comes to an end, whatever the limit is. In its course every round of a loop comes to
an end, and a round that is not the last takes the significant token in front of it, unless reading is given up. So
does every statement that a list asks for; a list that would take the next token as it stands behind a statement
which took none never does so, and reads the same statements as one that would not. -/
theorem progress (source : Text) (limit : Nat) :
    (∃ moments program m, RunsProgram (start source limit) moments program m) ∧
      (∀ (x : Loop) (m : Machine source limit), BeginsInProgram (start source limit) x.round m →
        (∃ t result m', Runs x.round m t result m') ∧
          ∀ t a more m', Runs x.round m t (a, more) m' → more = false ∨ m'.givenUp = true ∨ m.Takes m') ∧
      (∀ nested (m m₁ : Machine source limit) trivia,
        BeginsInProgram (start source limit) (Loop.statements nested).round m →
          m.takeTrivia? = some (trivia, m₁) → m₁.kind ≠ .endOfInput →
            (∃ t node m', Runs (fun l => l.statement nested) m₁ t node m') ∧
              ∀ t node m', Runs (fun l => l.statement nested) m₁ t node m' → m'.givenUp = true ∨ m₁.Takes m') ∧
      ∀ (l : Level) nested, l.guardedRound nested = l.statementsRound nested ∧
        l.guardedStatements nested = l.statements nested := by
  refine ⟨RunsProgram.exists_of_isSound (isSound_start source limit) rfl, fun x m hbegins => ?_,
    fun nested m m₁ trivia hbegins htrivia hkind => ?_,
    fun l nested => ⟨l.guardedRound_eq nested, l.guardedStatements_eq nested⟩⟩
  · obtain ⟨hm, hdepth⟩ := hbegins.isSound
    refine ⟨(CanRun.closed_of_le source hdepth).round x m hm rfl, fun t a more m' h => ?_⟩
    cases more with
    | false => exact .inl rfl
    | true => exact .inr (h.takes_of_round hm hdepth)
  · obtain ⟨hm, hdepth⟩ := hbegins.isSound
    obtain ⟨_, hstep, _, hsound, hlevel⟩ := hm.mirrors_takeTrivia
    cases hstep.symm.trans htrivia
    have hdepth₁ := hlevel.trans_le hdepth
    exact ⟨(CanRun.closed_of_le source hdepth₁).statement nested m₁ hsound rfl,
      fun t node m' h => h.takes_of_statement hsound hdepth₁ hkind⟩

end Machine

end LosslessSyntax
