import Mathlib.Data.List.Infix
import LosslessSyntax.Parse.Expression
import LosslessSyntax.Proofs.Parse.Triple

/-! Climbing and tiers. Binary operators are read by one loop that takes them as long as they bind tighter than a
minimum, and an operand is read by the same loop with the tier of its operator as the minimum. A grammar has a rule
for each tier instead, made of operands of the tighter tiers with operators of the tier between them. Both read the
same: behind an operand no operator is left that binds tighter than the one in front of it, so the loop comes to the
operators of one tier only when those of the tighter tiers have been taken. -/

namespace LosslessSyntax

open Rule

namespace Tier

/-- What holds of a minimum if it holds of all tighter tiers holds of every minimum. -/
@[elab_as_elim]
theorem induction {P : Nat → Prop}
    (h : ∀ minimum, (∀ tier : Tier, minimum < tier.toNat → P tier.toNat) → P minimum) (minimum : Nat) : P minimum :=
  h minimum fun tier _ => induction h tier.toNat
termination_by 6 - minimum
decreasing_by
  have := tier.toNat_le
  omega

theorem toNat_range (tier : Tier) : 1 ≤ tier.toNat ∧ tier.toNat < 7 := by cases tier <;> decide

theorem toNat_injective : Function.Injective toNat := by
  intro tier tier'
  cases tier <;> cases tier' <;> decide

/-- The tightness that operations of these tiers have at least; without tiers, that of a prefix operation. -/
def bound : List Tier → Nat
  | [] => 7
  | tier :: _ => tier.toNat

/-- The tiers are numbered without gaps. -/
theorem bound_eq {tier : Tier} {tighter : List Tier} (h : tier :: tighter <:+ all) :
    bound tighter = tier.toNat + 1 := by
  have hall : ∀ tiers ∈ all.tails, ∀ tier ∈ tiers.head?, bound tiers.tail = tier.toNat + 1 := by decide
  exact hall _ ((List.mem_tails _ _).mpr h) tier rfl

end Tier

namespace Level

variable {l : Level} {minimum : Nat} {left : Node} {c : Cursor} {tier : Tier}

/-! ### The climbing loop -/

/-- The operators behind `left` that bind tighter than `minimum`, with their operands. -/
def climb (l : Level) (minimum : Nat) (left : Node) : Rule Node :=
  grow (operationRound minimum fun tier _ => l.binary tier.toNat) (advances_operationRound _ _) left

theorem binary_eq (l : Level) (minimum : Nat) : l.binary minimum = l.unary >>= l.climb minimum := by
  rw [binary]
  rfl

/-- The loop ends in front of an operator that binds no tighter than the minimum. -/
theorem run_climb_of_le (h : ∀ tier, Tier.ofKind? c.kind = some tier → tier.toNat ≤ minimum) :
    (l.climb minimum left).run c = (left, c) := by
  have hround : (operationRound minimum (fun tier _ => l.binary tier.toNat) left).run c = ((left, false), c) := by
    rw [operationRound, run_bind, run_kind]
    dsimp only
    split
    · next tier htier => rw [dif_neg (Nat.not_lt_of_le (h tier htier)), run_pure]
    · rfl
  exact run_grow_of_last hround

/-- The loop takes a tighter operator with the operand behind it, and goes on. -/
theorem run_climb_of_lt (htier : Tier.ofKind? c.kind = some tier) (h : minimum < tier.toNat) :
    (l.climb minimum left).run c =
      (bump >>= fun symbol => l.binary tier.toNat >>= fun right =>
        l.climb minimum (.operator (some left) symbol (some right))).run c := by
  have hround : (operationRound minimum (fun tier _ => l.binary tier.toNat) left).run c =
      (bump >>= fun symbol => l.binary tier.toNat >>= fun right =>
        pure (.operator (some left) symbol (some right), true)).run c := by
    rw [operationRound, run_bind, run_kind]
    dsimp only
    split
    · next found hfound =>
        cases htier.symm.trans hfound
        rw [dif_pos h]
    · next hnone => cases htier.symm.trans hnone
  rw [climb, grow_eq, run_bind, hround]
  rfl

/-- An operator with its operand leaves fewer tokens. -/
theorem left_operation_lt (htier : Tier.ofKind? c.kind = some tier) (r : Rule Node) :
    (r.run c.bump.2).2.left < c.left := by
  have hend : c.kind ≠ .endOfInput := fun hend => by
    rw [hend] at htier
    cases htier
  exact Nat.lt_of_le_of_lt (r.left_le _) (Cursor.left_bump_lt hend)

/-- Behind the loop no operator is left that binds tighter than the minimum. -/
theorem le_of_run_climb (l : Level) (minimum : Nat) (left : Node) (c : Cursor) :
    ∀ tier, Tier.ofKind? ((l.climb minimum left).run c).2.kind = some tier → tier.toNat ≤ minimum := by
  induction hn : c.left using Nat.strongRecOn generalizing left c with
  | ind n ih =>
      by_cases hstop : ∀ tier, Tier.ofKind? c.kind = some tier → tier.toNat ≤ minimum
      · rwa [run_climb_of_le hstop]
      · obtain ⟨tier, hgoes⟩ := not_forall.mp hstop
        obtain ⟨htier, hlt⟩ := Classical.not_imp.mp hgoes
        rw [run_climb_of_lt htier (Nat.lt_of_not_le hlt)]
        exact ih _ (hn ▸ left_operation_lt htier _) _ _ rfl

theorem le_of_run_binary (l : Level) (minimum : Nat) (c : Cursor) :
    ∀ tier, Tier.ofKind? ((l.binary minimum).run c).2.kind = some tier → tier.toNat ≤ minimum := by
  rw [binary_eq]
  exact le_of_run_climb l minimum _ _

/-! ### Tiers -/

/-- One operator of the tier behind `left` and the operand behind it, if one follows. -/
def tierRound (tier : Tier) (operand : Rule Node) (left : Node) : Rule (Node × Bool) := do
  if Tier.ofKind? (← kind) = some tier then do
    let symbol ← bump
    let right ← operand
    return (.operator (some left) symbol (some right), true)
  else return (left, false)

theorem advances_tierRound (tier : Tier) (operand : Rule Node) (left : Node) :
    (tierRound tier operand left).Advances := by
  intro c h
  simp only [tierRound, run_bind, run_kind, run_ite] at h ⊢
  split at h
  · next htier =>
    rw [if_pos htier]
    exact left_operation_lt htier operand
  · cases h

/-- The operators of one tier behind `left`, with their operands. -/
def operations (tier : Tier) (operand : Rule Node) (left : Node) : Rule Node :=
  grow (tierRound tier operand) (advances_tierRound tier operand) left

/-- Operands with operators of the tiers between them: the loosest first, which groups to the left, and as its
operands what the tighter tiers read. -/
def tiered (l : Level) : List Tier → Rule Node
  | [] => l.unary
  | tier :: tighter => do
    let first ← l.tiered tighter
    operations tier (l.tiered tighter) first

theorem run_operations_of_ne {operand : Rule Node} (h : Tier.ofKind? c.kind ≠ some tier) :
    (operations tier operand left).run c = (left, c) := by
  have hround : (tierRound tier operand left).run c = ((left, false), c) := by
    rw [tierRound, run_bind, run_kind, run_ite, if_neg h, run_pure]
  exact run_grow_of_last hround

theorem run_operations_of_eq {operand : Rule Node} (h : Tier.ofKind? c.kind = some tier) :
    (operations tier operand left).run c =
      (bump >>= fun symbol => operand >>= fun right =>
        operations tier operand (.operator (some left) symbol (some right))).run c := by
  have hround : (tierRound tier operand left).run c =
      (bump >>= fun symbol => operand >>= fun right =>
        pure (.operator (some left) symbol (some right), true)).run c := by
    rw [tierRound, run_bind, run_kind, run_ite, if_pos h]
  rw [operations, grow_eq, run_bind, hround]
  rfl

/-- To climb from below a tier is to climb from the tier, and then to take the operators of the tier. -/
theorem climb_eq (hminimum : minimum + 1 = tier.toNat) (left : Node) :
    l.climb minimum left = l.climb tier.toNat left >>= operations tier (l.binary tier.toNat) := by
  refine Rule.ext fun c => ?_
  rw [run_bind]
  induction hn : c.left using Nat.strongRecOn generalizing left c with
  | ind n ih =>
      cases hkind : Tier.ofKind? c.kind with
      | none =>
          rw [run_climb_of_le (by simp [hkind]), run_climb_of_le (by simp [hkind]),
            run_operations_of_ne (by simp [hkind])]
      | some next =>
          have hone : ∀ t, Tier.ofKind? c.kind = some t → t = next := fun t ht => Option.some.inj (ht.symm.trans hkind)
          have hless (r : Rule Node) : (r.run c.bump.2).2.left < n := hn ▸ left_operation_lt hkind r
          rcases Nat.lt_trichotomy next.toNat tier.toNat with hlt | heq | hgt
          · -- looser than the tier: neither loop takes it
            rw [run_climb_of_le fun t ht => by rw [hone t ht]; omega,
              run_climb_of_le fun t ht => by rw [hone t ht]; omega, run_operations_of_ne]
            intro htier
            rw [hone tier htier] at hlt
            exact Nat.lt_irrefl _ hlt
          · -- of the tier: behind its operand the inner loop has nothing to take
            obtain rfl := Tier.toNat_injective heq
            have hleast : ∀ t, Tier.ofKind? c.kind = some t → t.toNat ≤ next.toNat := fun t ht =>
              (congrArg _ (hone t ht)).le
            rw [run_climb_of_le hleast, run_climb_of_lt hkind (by omega), run_operations_of_eq hkind]
            simp only [run_bind, run_bump]
            rw [ih _ (hless _) _ _ rfl, run_climb_of_le (le_of_run_binary l _ _)]
          · -- tighter than the tier: both loops take it
            rw [run_climb_of_lt hkind (by omega), run_climb_of_lt hkind hgt]
            simp only [run_bind, run_bump]
            exact ih _ (hless _) _ _ rfl

/-- No operator binds tighter than the tightest. -/
theorem climb_six (left : Node) : l.climb 6 left = pure left :=
  Rule.ext fun _ => run_climb_of_le fun tier _ => tier.toNat_le

/-- The rule for tiers reads what climbing from below the loosest of them does. -/
theorem tiered_eq_binary (l : Level) {tiers : List Tier} (h : tiers <:+ Tier.all) :
    l.tiered tiers = l.binary (Tier.bound tiers - 1) := by
  induction tiers with
  | nil =>
      have hclimb : l.climb 6 = pure := funext climb_six
      rw [tiered, Tier.bound, binary_eq, hclimb, bind_pure]
  | cons tier tighter ih =>
      have hoperand : l.tiered tighter = l.binary tier.toNat := by
        rw [ih ((List.suffix_cons tier tighter).trans h), Tier.bound_eq h, Nat.add_sub_cancel]
      have hminimum : tier.toNat - 1 + 1 = tier.toNat := Nat.sub_add_cancel tier.toNat_range.1
      calc l.tiered (tier :: tighter)
          = l.binary tier.toNat >>= operations tier (l.binary tier.toNat) := by
            rw [tiered]
            simp only [hoperand]
        _ = (l.unary >>= l.climb tier.toNat) >>= operations tier (l.binary tier.toNat) :=
            congrArg (· >>= operations tier (l.binary tier.toNat)) (l.binary_eq tier.toNat)
        _ = l.unary >>= fun first => l.climb tier.toNat first >>= operations tier (l.binary tier.toNat) :=
            bind_assoc ..
        _ = l.unary >>= l.climb (tier.toNat - 1) :=
            congrArg (l.unary >>= ·) (funext fun first => (climb_eq hminimum first).symm)
        _ = l.binary (tier.toNat - 1) := (l.binary_eq _).symm

/-- Climbing from the start reads operands with the operators of all tiers between them. -/
theorem binary_zero_eq_tiered (l : Level) : l.binary 0 = l.tiered Tier.all :=
  (l.tiered_eq_binary List.suffix_rfl).symm

end Level

end LosslessSyntax
