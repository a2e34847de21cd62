import LosslessSyntax.Parse.Rule

/-! Sequences: items with commas between them, and runs of tokens that are taken as they come. -/

namespace LosslessSyntax.Rule

variable {A : Type}

/-- One item and the comma behind it. The sequence goes on if there is a comma. -/
def separatedRound (item : Rule (Option A)) : Rule (List (A × Option Lexeme) × Bool) := do
  match ← item with
  | none => return ([], false)
  | some a => do
    let comma ← optional (.symbol .comma)
    return ([(a, comma)], comma.isSome)

theorem advances_separatedRound (item : Rule (Option A)) : (separatedRound item).Advances := by
  intro c h
  cases hitem : (item.run c).1 with
  | none => simp [separatedRound, hitem] at h
  | some a =>
    simp only [separatedRound, run_bind, hitem, run_pure] at h ⊢
    exact Nat.lt_of_lt_of_le (left_optional_lt (by decide) h) (item.left_le c)

/-- Items with commas between them, as long as there are items; a comma may follow the last. -/
def separated (item : Rule (Option A)) : Rule (List A × List Lexeme) := do
  let pairs ← collect (separatedRound item) (advances_separatedRound item)
  return (pairs.map (·.1), pairs.filterMap (·.2))

/-- One token, unless the run is over. -/
def lexemesRound (stops : Kind → Bool) : Rule (List Lexeme × Bool) := do
  let k ← kind
  if k = .endOfInput || stops k then return ([], false)
  else do
    let lexeme ← bump
    return ([lexeme], true)

theorem advances_lexemesRound (stops : Kind → Bool) : (lexemesRound stops).Advances := by
  intro c h
  simp only [lexemesRound, run_bind, run_kind, run_ite] at h ⊢
  split at h
  · cases h
  · next hk =>
    rw [if_neg hk]
    simp only [Bool.or_eq_true, decide_eq_true_eq, not_or] at hk
    exact Cursor.left_bump_lt hk.1

/-- The tokens up to the end of input, or up to the first of a kind that stops the run. -/
def lexemesUntil (stops : Kind → Bool) : Rule (List Lexeme) :=
  collect (lexemesRound stops) (advances_lexemesRound stops)

end LosslessSyntax.Rule
