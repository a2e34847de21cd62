import LosslessSyntax.Proofs.Parse.Invariant

/-! What rules yield under an invariant. Where an invariant of the cursor is kept by every step, a rule may be said to
yield results with a property, from wherever the invariant holds; such statements go from rule to rule like those about
results alone. Of a step whose result does not matter only the invariant has to be known. -/

namespace LosslessSyntax

namespace Rule

variable {A B : Type} {I : Cursor → Prop} {Q Q' : A → Prop} {R : B → Prop}

/-- Whether the rule, wherever `I` holds, comes to a result with `Q` and keeps `I`. -/
def Yields (I : Cursor → Prop) (r : Rule A) (Q : A → Prop) : Prop := Triple I r fun a c => Q a ∧ I c

theorem Keeps.yields {r : Rule A} (h : r.Keeps I) : r.Yields I fun _ => True := fun c hc => ⟨trivial, h c hc⟩

theorem Keeps.yields_bind {r : Rule A} {f : A → Rule B} (h : r.Keeps I) (hf : ∀ a, (f a).Yields I R) :
    (r >>= f).Yields I R := Triple.bind h hf

namespace Yields

theorem pure {a : A} (h : Q a) : Yields I (pure a) Q := fun _ hc => ⟨h, hc⟩

theorem bind {r : Rule A} {f : A → Rule B} (hr : r.Yields I Q) (hf : ∀ a, Q a → (f a).Yields I R) :
    (r >>= f).Yields I R := Triple.bind hr fun a => Triple.of_and (hf a)

theorem map {r : Rule A} {f : A → B} (h : r.Yields I fun a => R (f a)) : (f <$> r).Yields I R := h

theorem imp {r : Rule A} (h : r.Yields I Q) (hQ : ∀ a, Q a → Q' a) : r.Yields I Q' :=
  fun c hc => ⟨hQ _ (h c hc).1, (h c hc).2⟩

theorem kind_bind {f : Kind → Rule A} (h : ∀ k, (f k).Yields I Q) : (kind >>= f).Yields I Q :=
  fun c hc => h c.kind c hc

theorem look_bind {f : Cursor → B} {g : B → Rule A} (h : ∀ b, (g b).Yields I Q) : (look f >>= g).Yields I Q :=
  fun c hc => h (f c) c hc

theorem ite {p : Prop} [Decidable p] {r s : Rule A} (hr : p → r.Yields I Q) (hs : ¬p → s.Yields I Q) :
    (if p then r else s).Yields I Q := Triple.ite hr hs

/-- A loop that collects pieces with `F` and a last one with `G`, if such pieces join to a list with `G`. -/
theorem collect_append {F G : List A → Prop} (happend : ∀ as bs, F as → G bs → G (as ++ bs))
    {round : Rule (List A × Bool)} {hround : round.Advances}
    (h : round.Yields I fun s => cond s.2 (F s.1) (G s.1)) : (Rule.collect round hround).Yields I G := by
  intro c hc
  show G (collectFrom round hround c).1 ∧ I (collectFrom round hround c).2
  fun_induction collectFrom round hround c with
  | case1 c s more t ih =>
      obtain ⟨hpiece, hrest⟩ : cond s.1.2 (F s.1.1) (G s.1.1) ∧ I s.2 := h c hc
      rw [more] at hpiece
      exact ⟨happend _ _ hpiece (ih hrest).1, (ih hrest).2⟩
  | case2 c s more =>
      have hlast : cond s.1.2 (F s.1.1) (G s.1.1) ∧ I s.2 := h c hc
      rwa [eq_false_of_ne_true more] at hlast

theorem collect {round : Rule (List A × Bool)} {hround : round.Advances}
    (h : round.Yields I fun s => ∀ a ∈ s.1, Q a) : (Rule.collect round hround).Yields I fun as => ∀ a ∈ as, Q a :=
  collect_append (F := fun as => ∀ a ∈ as, Q a) (fun _ _ has hbs => List.forall_mem_append.mpr ⟨has, hbs⟩)
    (h.imp fun s hs => by cases s.2 <;> exact hs)

theorem grow {round : A → Rule (A × Bool)} {hround : ∀ a, (round a).Advances}
    (h : ∀ a, Q a → (round a).Yields I fun s => Q s.1) {a : A} (ha : Q a) : (Rule.grow round hround a).Yields I Q := by
  have hloop : Triple (fun c => Q a ∧ I c) (Rule.grow round hround a) fun b c => Q b ∧ I c :=
    Triple.grow (J := fun a c => Q a ∧ I c) (fun a => Triple.of_and fun ha =>
      (h a ha).to_imp fun s c hs => by cases s.2 <;> exact hs) a
  exact fun c hc => hloop c ⟨ha, hc⟩

theorem separated (hI : Cursor.Kept I) {item : Rule (Option A)} (h : item.Yields I fun a => ∀ b ∈ a, Q b) :
    (separated item).Yields I fun s => ∀ a ∈ s.1, Q a := by
  have hround : (separatedRound item).Yields I fun s => ∀ pair ∈ s.1, Q pair.1 := by
    refine h.bind fun a ha => ?_
    cases a with
    | none => exact pure nofun
    | some a =>
        exact (hI.optional _).yields_bind fun comma => pure (List.forall_mem_singleton.mpr (ha a rfl))
  exact (collect hround).bind fun pairs hpairs => pure (List.forall_mem_map.mpr hpairs)

end Yields

end Rule

end LosslessSyntax
