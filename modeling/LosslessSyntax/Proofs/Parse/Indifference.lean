import LosslessSyntax.Proofs.Parse.Result
import LosslessSyntax.Proofs.Parse.Scheme

/-! Diagnostics do not steer the reading. Whatever was noted before, a rule comes to the same result and takes the same
tokens; it only notes more. -/

namespace LosslessSyntax

/-- The cursor with other diagnostics. -/
def Cursor.noting (c : Cursor) (ds : Diagnostics) : Cursor := { c with diagnostics := ds }

namespace Rule

variable {A B : Type}

/-- Whether the rule comes to the same result, and up to diagnostics to the same cursor, whatever was noted before. -/
def Indifferent (r : Rule A) : Prop :=
  ∀ c ds, (r.run (c.noting ds)).1 = (r.run c).1 ∧ ∃ ds', (r.run (c.noting ds)).2 = (r.run c).2.noting ds'

namespace Indifferent

theorem pure (a : A) : Indifferent (pure a : Rule A) := fun _ ds => ⟨rfl, ds, rfl⟩

theorem bind {r : Rule A} {f : A → Rule B} (hr : r.Indifferent) (hf : ∀ a, (f a).Indifferent) :
    (r >>= f).Indifferent := by
  intro c ds
  obtain ⟨hresult, ds', hcursor⟩ := hr c ds
  rw [run_bind, run_bind, hresult, hcursor]
  exact hf _ _ ds'

/-- What a look tells must not depend on diagnostics. -/
theorem look {f : Cursor → A} (h : ∀ c ds, f (c.noting ds) = f c) : (look f).Indifferent :=
  fun c ds => ⟨h c ds, ds, rfl⟩

theorem bump : Rule.bump.Indifferent := by
  intro c ds
  rw [run_bump, run_bump, Cursor.bump, Cursor.bump, show (c.noting ds).ahead = c.ahead from rfl]
  split <;> exact ⟨rfl, ds, rfl⟩

theorem report (m : Message) (args : List Text) : (Rule.report m args).Indifferent := by
  intro c ds
  refine ⟨rfl, (((c.noting ds).report m args).diagnostics), ?_⟩
  rw [run_report, run_report]
  unfold Cursor.report
  split <;> simp_all [Cursor.noting]

theorem collect {round : Rule (List A × Bool)} {hround : round.Advances} (h : round.Indifferent) :
    (Rule.collect round hround).Indifferent := by
  intro c
  change ∀ ds, (collectFrom round hround (c.noting ds)).1 = (collectFrom round hround c).1 ∧
    ∃ ds', (collectFrom round hround (c.noting ds)).2 = (collectFrom round hround c).2.noting ds'
  fun_induction collectFrom round hround c with
  | case1 c s more t ih =>
      intro ds
      obtain ⟨hresult, ds', hcursor⟩ := h c ds
      obtain ⟨hrest, hend⟩ := ih ds'
      rw [collectFrom, hresult, hcursor, dif_pos more]
      exact ⟨congrArg (s.1.1 ++ ·) hrest, hend⟩
  | case2 c s more =>
      intro ds
      obtain ⟨hresult, hcursor⟩ := h c ds
      rw [collectFrom, hresult, dif_neg more]
      exact ⟨rfl, hcursor⟩

theorem grow {round : A → Rule (A × Bool)} {hround : ∀ a, (round a).Advances} (h : ∀ a, (round a).Indifferent) (a : A) :
    (Rule.grow round hround a).Indifferent := by
  intro c
  change ∀ ds, (growFrom round hround a (c.noting ds)).1 = (growFrom round hround a c).1 ∧
    ∃ ds', (growFrom round hround a (c.noting ds)).2 = (growFrom round hround a c).2.noting ds'
  fun_induction growFrom round hround a c with
  | case1 a c s more ih =>
      intro ds
      obtain ⟨hresult, ds', hcursor⟩ := h a c ds
      rw [growFrom, hresult, hcursor, dif_pos more]
      exact ih ds'
  | case2 a c s more =>
      intro ds
      obtain ⟨hresult, hcursor⟩ := h a c ds
      rw [growFrom, hresult, dif_neg more]
      exact ⟨rfl, hcursor⟩

/-- No way of putting rules together makes diagnostics count, if they do not count for what is asked of a level. -/
theorem closed {l : Level} (hl : ∀ e : Level.Entry, (e.outer l).Indifferent) : Closed fun _ r => (r l).Indifferent where
  pure := pure
  bind := bind
  kind := look fun _ _ => rfl
  nextKind := look fun _ _ => rfl
  followsLineBreak := look fun _ _ => rfl
  bump := bump
  takeTrivia := fun _ ds => ⟨rfl, ds, rfl⟩
  takeTrailing := fun _ ds => ⟨rfl, ds, rfl⟩
  report _ args := report _ args
  collect _ h := collect h
  grow _ h a := grow h a
  enter := hl

end Indifferent

end Rule

/-- On no level do diagnostics steer the reading. -/
theorem Level.indifferent_ofRemaining (limit remaining : Nat) (e : Entry) :
    (e.outer (ofRemaining limit remaining)).Indifferent := by
  induction remaining generalizing e with
  | zero =>
      rw [Entry.outer_zero]
      exact (Rule.Indifferent.report _ _).bind fun _ =>
        Rule.Indifferent.bind (fun _ ds => ⟨rfl, ds, rfl⟩) fun _ => .pure _
  | succ remaining ih =>
      rw [Entry.outer_succ]
      exact (Rule.Indifferent.closed ih).inner e

end LosslessSyntax
