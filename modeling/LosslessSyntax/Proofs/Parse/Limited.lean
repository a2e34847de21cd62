import LosslessSyntax.Proofs.Parse.Climbing
import LosslessSyntax.Proofs.Parse.Result

/-! Rules with a limit next to the same rules without it. As long as what is read fits, both do the same; what
does not fit makes the one with the limit give up. Whether all that was read so far fits is carried along, so
that the laws tell what a whole comes to from what its pieces come to. -/

namespace LosslessSyntax.Rule

variable {A B : Type}

/-- Reading that was not given up behind a rule was not given up in front of it. -/
theorem givenUp_eq_false (r : Rule A) {c : Cursor} (h : (r.run c).2.givenUp = false) : c.givenUp = false := by
  cases hc : c.givenUp with
  | false => rfl
  | true =>
      rw [r.givenUp_run c hc] at h
      cases h

section Limit

variable {p q : Kind → Prop} {fits : Prop} {mid fits' K : A → Prop} {fitsAll : B → Prop} {c : Cursor}

/-- Whether `r` does what `s` does at `c` if the result fits, and gives up if not. `fits` tells whether what was
read before fits. Nothing is said if `s` gives up itself. -/
def LimitedAt (c : Cursor) (fits : Prop) (r s : Rule A) (fits' : A → Prop) : Prop :=
  (s.run c).2.givenUp = false →
    (fits' (s.run c).1 ↔ fits ∧ (r.run c).2.givenUp = false) ∧ ((r.run c).2.givenUp = false → r.run c = s.run c)

/-- Whether `r` does so wherever the next kind is one in `p`. -/
def Limited (p : Kind → Prop) (fits : Prop) (r s : Rule A) (fits' : A → Prop) : Prop :=
  ∀ c : Cursor, c.IsRead → p c.kind → LimitedAt c fits r s fits'

namespace LimitedAt

theorem plain (r : Rule A) : LimitedAt c fits r r fun _ => fits := by
  intro hr
  rw [hr]
  exact ⟨⟨fun h => ⟨h, rfl⟩, And.left⟩, fun _ => rfl⟩

/-- What the first rule came to fits if and only if the limit let it pass, and then the second one goes on from
the same place on both sides. -/
theorem bind {r s : Rule A} {f g : A → Rule B} (hr : LimitedAt c fits r s mid)
    (hf : LimitedAt (s.run c).2 (mid (s.run c).1) (f (s.run c).1) (g (s.run c).1) fitsAll) :
    LimitedAt c fits (r >>= f) (s >>= g) fitsAll := by
  intro hgiven
  obtain ⟨hfirst, hsame⟩ := hr ((g _).givenUp_eq_false hgiven)
  obtain ⟨hsecond, hsame'⟩ := hf hgiven
  rw [run_bind, run_bind, hsecond, hfirst]
  by_cases hpassed : (r.run c).2.givenUp = false
  · have heq := hsame hpassed
    rw [heq] at hpassed
    rw [heq, and_iff_left hpassed]
    exact ⟨Iff.rfl, hsame'⟩
  · have hlater : ((f (r.run c).1).run (r.run c).2).2.givenUp = true :=
      (f _).givenUp_run _ (eq_true_of_ne_false hpassed)
    simp [hpassed, hlater]

theorem map {r s : Rule A} {f : A → B} (h : LimitedAt c fits r s fun a => fitsAll (f a)) :
    LimitedAt c fits (f <$> r) (f <$> s) fitsAll := by
  intro hgiven
  obtain ⟨hfits, hsame⟩ := h hgiven
  refine ⟨hfits, fun hr => ?_⟩
  rw [run_map, run_map, hsame hr]

theorem ite {x : Prop} [Decidable x] {r s r' s' : Rule A} (hr : x → LimitedAt c fits r s fits')
    (hr' : ¬x → LimitedAt c fits r' s' fits') :
    LimitedAt c fits (if x then r else r') (if x then s else s') fits' := by
  by_cases h : x
  · rw [if_pos h, if_pos h]
    exact hr h
  · rw [if_neg h, if_neg h]
    exact hr' h

theorem congr {r s : Rule A} (h : LimitedAt c fits r s mid) (hmid : fits' (s.run c).1 ↔ mid (s.run c).1) :
    LimitedAt c fits r s fits' := by
  intro hgiven
  rw [hmid]
  exact h hgiven

end LimitedAt

namespace Limited

/-- A rule without any limit in it does the same as itself. -/
theorem plain (r : Rule A) : Limited p fits r r fun _ => fits := fun _ _ _ => .plain r

/-- Only results that the rule without the limit can come to matter. -/
theorem congr {r s : Rule A} (h : Limited p fits r s mid) (hs : s.Gives p K) (hmid : ∀ a, K a → (fits' a ↔ mid a)) :
    Limited p fits r s fits' := fun c hc hk => (h c hc hk).congr (hmid _ (hs c hc hk))

theorem congr_any {r s : Rule A} (h : Limited p fits r s mid) (hmid : ∀ a, fits' a ↔ mid a) :
    Limited p fits r s fits' := h.congr (Gives.any s) fun a _ => hmid a

theorem pure {a : A} (h : fits' a ↔ fits) : Limited p fits (pure a) (pure a) fits' :=
  fun _ _ _ => LimitedAt.congr (.plain _) h

theorem on {r s : Rule A} (h : Limited p fits r s fits') (hp : ∀ k, q k → p k) : Limited q fits r s fits' :=
  fun c hc hk => h c hc (hp _ hk)

theorem always_on {r s : Rule A} (h : Limited (fun _ => True) fits r s fits') : Limited p fits r s fits' :=
  h.on fun _ _ => trivial

theorem bind {r s : Rule A} {f g : A → Rule B} (hr : Limited p fits r s mid) (hs : s.Gives p K)
    (hf : ∀ a, K a → Limited (fun _ => True) (mid a) (f a) (g a) fitsAll) :
    Limited p fits (r >>= f) (s >>= g) fitsAll := fun c hc hk =>
  .bind (hr c hc hk) (hf _ (hs c hc hk) _ (s.isRead_run hc) trivial)

theorem bind_any {r s : Rule A} {f g : A → Rule B} (hr : Limited p fits r s mid)
    (hf : ∀ a, Limited (fun _ => True) (mid a) (f a) (g a) fitsAll) : Limited p fits (r >>= f) (s >>= g) fitsAll :=
  hr.bind (Gives.any s) fun a _ => hf a

theorem plain_bind {r : Rule A} {f g : A → Rule B} (hf : ∀ a, Limited (fun _ => True) fits (f a) (g a) fitsAll) :
    Limited p fits (r >>= f) (r >>= g) fitsAll := bind_any (plain r) hf

theorem kind_bind {f g : Kind → Rule A} (h : ∀ k, p k → Limited (· = k) fits (f k) (g k) fits') :
    Limited p fits (kind >>= f) (kind >>= g) fits' := fun c hc hk => h c.kind hk c hc rfl

theorem look_bind {f : Cursor → B} {g k : B → Rule A} (h : ∀ b, Limited p fits (g b) (k b) fits') :
    Limited p fits (look f >>= g) (look f >>= k) fits' := fun c hc hk => h _ c hc hk

theorem map {r s : Rule A} {f : A → B} (h : Limited p fits r s fun a => fitsAll (f a)) :
    Limited p fits (f <$> r) (f <$> s) fitsAll := fun c hc hk => (h c hc hk).map

theorem ite {x : Prop} [Decidable x] {r s r' s' : Rule A} (hr : x → Limited p fits r s fits')
    (hr' : ¬x → Limited p fits r' s' fits') : Limited p fits (if x then r else r') (if x then s else s') fits' :=
  fun c hc hk => .ite (fun h => hr h c hc hk) fun h => hr' h c hc hk

/-- A loop that collects, if its lists fit whenever all their pieces do. -/
theorem collect {F : List A → Prop} (hF : ∀ as bs, F (as ++ bs) ↔ F as ∧ F bs) {r s : Rule (List A × Bool)}
    {hr : r.Advances} {hs : s.Advances} (h : ∀ fits, Limited (fun _ => True) fits r s fun t => fits ∧ F t.1) :
    Limited (fun _ => True) fits (collect r hr) (collect s hs) fun as => fits ∧ F as := by
  intro c
  -- A round that goes on leaves less in front of the cursor, with a limit and without.
  induction hn : c.left using Nat.strongRecOn generalizing c fits with
  | ind n ih =>
      intro hc _
      rw [collect_eq r, collect_eq s]
      refine (h fits c hc trivial).bind (.ite (fun hmore => .map ?_) fun _ => .plain _)
      have hrest : LimitedAt (s.run c).2 (fits ∧ F (s.run c).1.1) (Rule.collect r hr) (Rule.collect s hs)
          fun as => (fits ∧ F (s.run c).1.1) ∧ F as := ih _ (hn ▸ hs c hmore) _ rfl (s.isRead_run hc) trivial
      exact hrest.congr (by rw [hF, and_assoc])

/-- A loop that works on its own result. `K` holds of it while the loop goes on. -/
theorem grow {F : A → Prop} {r s : A → Rule (A × Bool)} {hr : ∀ a, (r a).Advances} {hs : ∀ a, (s a).Advances}
    (h : ∀ a, K a → Limited (fun _ => True) (F a) (r a) (s a) fun t => F t.1)
    (hK : ∀ a, K a → (s a).Always fun t => t.2 = true → K t.1) {a : A} (ha : K a) :
    Limited (fun _ => True) (F a) (grow r hr a) (grow s hs a) F := by
  intro c
  induction hn : c.left using Nat.strongRecOn generalizing c a with
  | ind n ih =>
      intro hc _
      rw [grow_eq r, grow_eq s]
      refine (h a ha c hc trivial).bind (.ite (fun hmore => ?_) fun _ => .plain _)
      exact ih _ (hn ▸ hs a c hmore) (hK a ha c hc trivial hmore) _ rfl ((s a).isRead_run hc) trivial

theorem grow_any {F : A → Prop} {r s : A → Rule (A × Bool)} {hr : ∀ a, (r a).Advances} {hs : ∀ a, (s a).Advances}
    (h : ∀ a, Limited (fun _ => True) (F a) (r a) (s a) fun t => F t.1) (a : A) :
    Limited (fun _ => True) (F a) (Rule.grow r hr a) (Rule.grow s hs a) F :=
  grow (K := fun _ => True) (fun a _ => h a) (fun a _ => (Gives.any (s a)).imp fun _ _ _ => trivial) trivial

/-- Items that fit one by one, with commas between them. -/
theorem separated {F : A → Prop} {r s : Rule (Option A)}
    (h : ∀ fits, Limited (fun _ => True) fits r s fun o => fits ∧ ∀ a ∈ o, F a) :
    Limited (fun _ => True) fits (separated r) (separated s) fun t => fits ∧ ∀ a ∈ t.1, F a := by
  have hround (fits : Prop) : Limited (fun _ => True) fits (separatedRound r) (separatedRound s)
      fun t => fits ∧ ∀ pair ∈ t.1, F pair.1 := by
    refine (h fits).bind_any fun o => ?_
    cases o with
    | none => exact pure (by simp)
    | some a => exact plain_bind fun comma => pure (by simp)
  refine (collect (F := fun pairs : List (A × Option Lexeme) => ∀ pair ∈ pairs, F pair.1)
    (fun _ _ => List.forall_mem_append) hround).bind_any fun pairs => pure ?_
  rw [List.forall_mem_map]

end Limited

end Limit

end LosslessSyntax.Rule
