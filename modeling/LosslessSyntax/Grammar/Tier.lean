import LosslessSyntax.Token.Kind

/-! Tiers of binary operators. Operators of one tier bind equally tightly and group to the left; the tiers
are listed from the loosest to the tightest. -/

namespace LosslessSyntax

/-- How tightly a binary operator binds. -/
inductive Tier where
  | either | both | equality | relational | additive | multiplicative
  deriving DecidableEq, Repr

namespace Tier

/-- All tiers, the loosest first. -/
def all : List Tier := [.either, .both, .equality, .relational, .additive, .multiplicative]

/-- The tiers numbered from one, so that assignment, which binds looser than all, has zero. -/
def toNat : Tier → Nat
  | .either => 1
  | .both => 2
  | .equality => 3
  | .relational => 4
  | .additive => 5
  | .multiplicative => 6

theorem toNat_le (t : Tier) : t.toNat ≤ 6 := by cases t <;> decide

/-- The tier of a binary operator; other kinds have none. -/
def ofKind? : Kind → Option Tier
  | .symbol .either => some .either
  | .symbol .both => some .both
  | .symbol .equal | .symbol .notEqual | .symbol .identical | .symbol .notIdentical => some .equality
  | .symbol .less | .symbol .greater | .symbol .lessEqual | .symbol .greaterEqual => some .relational
  | .symbol .plus | .symbol .minus => some .additive
  | .symbol .times | .symbol .divide | .symbol .remainder => some .multiplicative
  | _ => none

end Tier

end LosslessSyntax
