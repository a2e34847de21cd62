import LosslessSyntax.Grammar.Tier
import LosslessSyntax.Proofs.Token.Orthography
import LosslessSyntax.Proofs.Tree.Everywhere

/-! Precedence in trees. How tightly a node holds together can be told from the node alone, since a binary
operator is known by its spelling. A node that needs tight children does not get loose ones. -/

namespace LosslessSyntax

/-- The tier of the binary operator that is spelled so; other texts have none. -/
def Tier.ofText? (t : Text) : Option Tier := (Symbol.ofText? t).bind fun s => ofKind? (.symbol s)

theorem Tier.text?_of_ofKind? {k : Kind} {tier : Tier} (h : ofKind? k = some tier) :
    ∃ text, k.text? = some text ∧ ofText? text = some tier := by
  cases k with
  | symbol s =>
      refine ⟨s.text, rfl, ?_⟩
      rw [ofText?, Symbol.ofText?_text]
      exact h
  | _ => cases h

namespace Node

/-- How tightly the node holds together. Assignments hold loosest, then the binary operators tier by tier, then
operators in front of their operand and those behind it; nothing takes any other node apart. -/
def tightness : Node → Nat
  | .assignment .. => 0
  | .operator (some _) symbol (some _) => ((Tier.ofText? symbol.text).map Tier.toNat).getD 0
  | .operator none _ _ => 7
  | .operator (some _) _ none => 8
  | _ => 9

/-- Whether the children of the node hold together as tightly as their place demands. Of two operands of a
binary operator the left one may be of the same tier, so only assignments group to the right. -/
def RespectsPrecedence : Node → Prop
  | .operator (some left) symbol (some right) => ∃ tier, Tier.ofText? symbol.text = some tier ∧
      tier.toNat ≤ left.tightness ∧ tier.toNat < right.tightness
  | .operator none _ (some operand) => 7 ≤ operand.tightness
  | .operator (some operand) _ none => operand.tightness = 9
  | .operator none _ none => False
  | .access base _ _ | .index base _ _ _ | .invocation base _ _ _ _ => base.tightness = 9
  | .assignment target _ _ => 1 ≤ target.tightness
  | _ => True

theorem tightness_binary {left right : Node} {symbol : Lexeme} {tier : Tier}
    (h : Tier.ofText? symbol.text = some tier) :
    (operator (some left) symbol (some right)).tightness = tier.toNat := by
  rw [tightness, h]
  rfl

end Node

end LosslessSyntax
