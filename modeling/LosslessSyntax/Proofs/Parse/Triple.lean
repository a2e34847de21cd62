import LosslessSyntax.Parse.Sequence

/-! Triples for rules: what holds of the result and of the cursor behind a rule, if something holds of the
cursor in front of it. There is one law for every way in which rules are put together. A loop keeps what every
round keeps; what its last round establishes holds at the end. -/

namespace LosslessSyntax.Rule

variable {A B : Type} {P P' : Cursor → Prop} {Q Q' : A → Cursor → Prop} {R : B → Cursor → Prop}

/-- A loop is a round and, if that goes on, the loop once more. -/
theorem collect_eq (round : Rule (List A × Bool)) (h : round.Advances) :
    collect round h = (round >>= fun s => if s.2 then (s.1 ++ ·) <$> collect round h else pure s.1) := by
  refine Rule.ext fun c => ?_
  change collectFrom round h c = _
  rw [collectFrom, run_bind, run_ite]
  split <;> rfl

theorem grow_eq (round : A → Rule (A × Bool)) (h : ∀ a, (round a).Advances) (a : A) :
    grow round h a = (round a >>= fun s => if s.2 then grow round h s.1 else pure s.1) := by
  refine Rule.ext fun c => ?_
  change growFrom round h a c = _
  rw [growFrom, run_bind, run_ite]
  split <;> rfl

section Rounds

variable {c d e : Cursor}

theorem run_collect_of_last {round : Rule (List A × Bool)} {h : round.Advances} {as : List A}
    (hround : round.run c = ((as, false), d)) : (collect round h).run c = (as, d) := by
  rw [collect_eq, run_bind, hround]
  rfl

theorem run_collect_of_next {round : Rule (List A × Bool)} {h : round.Advances} {as bs : List A}
    (hround : round.run c = ((as, true), d)) (hrest : (collect round h).run d = (bs, e)) :
    (collect round h).run c = (as ++ bs, e) := by
  rw [collect_eq, run_bind, hround, if_pos rfl, run_map, hrest]

theorem run_grow_of_last {round : A → Rule (A × Bool)} {h : ∀ a, (round a).Advances} {a b : A}
    (hround : (round a).run c = ((b, false), d)) : (grow round h a).run c = (b, d) := by
  rw [grow_eq, run_bind, hround]
  rfl

theorem run_grow_of_next {round : A → Rule (A × Bool)} {h : ∀ a, (round a).Advances} {a b : A}
    (hround : (round a).run c = ((b, true), d)) : (grow round h a).run c = (grow round h b).run d := by
  rw [grow_eq, run_bind, hround]
  rfl

end Rounds

/-- From a cursor with `P` the rule comes to a result and a cursor with `Q`. -/
def Triple (P : Cursor → Prop) (r : Rule A) (Q : A → Cursor → Prop) : Prop :=
  ∀ c, P c → Q (r.run c).1 (r.run c).2

namespace Triple

theorem pure {a : A} (h : ∀ c, P c → Q a c) : Triple P (pure a : Rule A) Q := h

theorem bind {r : Rule A} {f : A → Rule B} (hr : Triple P r Q) (hf : ∀ a, Triple (Q a) (f a) R) :
    Triple P (r >>= f) R := fun c hc => hf _ _ (hr c hc)

theorem map {r : Rule A} {f : A → B} (h : Triple P r fun a => R (f a)) : Triple P (f <$> r) R := h

/-- A triple holds of less specific results and of more specific starts. -/
theorem imp {r : Rule A} (h : Triple P r Q) (hP : ∀ c, P' c → P c) (hQ : ∀ a c, Q a c → Q' a c) :
    Triple P' r Q' := fun c hc => hQ _ _ (h c (hP c hc))

theorem of_imp {r : Rule A} (h : Triple P r Q) (hP : ∀ c, P' c → P c) : Triple P' r Q :=
  h.imp hP fun _ _ => id

theorem to_imp {r : Rule A} (h : Triple P r Q) (hQ : ∀ a c, Q a c → Q' a c) : Triple P r Q' :=
  h.imp (fun _ => id) hQ

/-- What does not depend on the cursor may be assumed. -/
theorem of_and {p : Prop} {r : Rule A} (h : p → Triple P r Q) : Triple (fun c => p ∧ P c) r Q :=
  fun c hc => h hc.1 c hc.2

theorem ite {p : Prop} [Decidable p] {r s : Rule A} (hr : p → Triple P r Q) (hs : ¬p → Triple P s Q) :
    Triple P (if p then r else s) Q := by
  split
  · next h => exact hr h
  · next h => exact hs h

theorem look_bind {f : Cursor → A} {g : A → Rule B} (h : ∀ a, Triple (fun c => P c ∧ f c = a) (g a) R) :
    Triple P (look f >>= g) R := fun c hc => h (f c) c ⟨hc, rfl⟩

theorem kind_bind {g : Kind → Rule A} (h : ∀ k, Triple (fun c => P c ∧ c.kind = k) (g k) Q) :
    Triple P (kind >>= g) Q := look_bind h

/-- A loop that collects. `J` holds of what was collected while the loop goes on, `Q` of all at its end. -/
theorem collect {J Q : List A → Cursor → Prop} {round : Rule (List A × Bool)} {hround : round.Advances}
    (h : ∀ as, Triple (J as) round fun s c => cond s.2 (J (as ++ s.1) c) (Q (as ++ s.1) c)) :
    Triple (J []) (collect round hround) Q := by
  suffices hfrom : ∀ c as, J as c →
      Q (as ++ (collectFrom round hround c).1) (collectFrom round hround c).2 from fun c hc => hfrom c [] hc
  intro c
  fun_induction collectFrom round hround c with
  | case1 c s more t ih =>
      intro as hc
      have hs : cond s.1.2 (J (as ++ s.1.1) s.2) (Q (as ++ s.1.1) s.2) := h as c hc
      rw [more] at hs
      change Q (as ++ (s.1.1 ++ t.1)) t.2
      rw [← List.append_assoc]
      exact ih _ hs
  | case2 c s more =>
      intro as hc
      have hs : cond s.1.2 (J (as ++ s.1.1) s.2) (Q (as ++ s.1.1) s.2) := h as c hc
      rwa [eq_false_of_ne_true more] at hs

/-- A loop that works on its own result. `J` holds of it while the loop goes on, `Q` at its end. -/
theorem grow {J Q : A → Cursor → Prop} {round : A → Rule (A × Bool)} {hround : ∀ a, (round a).Advances}
    (h : ∀ a, Triple (J a) (round a) fun s c => cond s.2 (J s.1 c) (Q s.1 c)) (a : A) :
    Triple (J a) (grow round hround a) Q := by
  intro c
  change J a c → Q (growFrom round hround a c).1 (growFrom round hround a c).2
  fun_induction growFrom round hround a c with
  | case1 a c s more ih =>
      intro hc
      have hs : cond s.1.2 (J s.1.1 s.2) (Q s.1.1 s.2) := h a c hc
      rw [more] at hs
      exact ih hs
  | case2 a c s more =>
      intro hc
      have hs : cond s.1.2 (J s.1.1 s.2) (Q s.1.1 s.2) := h a c hc
      rwa [eq_false_of_ne_true more] at hs

end Triple

end LosslessSyntax.Rule
