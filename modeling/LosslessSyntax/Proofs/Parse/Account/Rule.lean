import LosslessSyntax.Parse.Sequence
import LosslessSyntax.Proofs.Parse.Account
import LosslessSyntax.Proofs.Parse.Triple

/-! The account through single steps and sequences. Each rule tells which parts its result stands for, and
keeps the account when these are added. A list may end early, at something that is none of its items; then
its closing bracket is missing, and that shows the flaw. -/

namespace LosslessSyntax

open LosslessSyntax.Part

namespace Rule

variable {A : Type} {source : List Token} {ps : List (Part Node)} {flaw : Bool} {k : Kind}

/-- Whether the rule keeps the account of whatever was read before, when `parts` of its result are added. -/
def Accounts (source : List Token) (r : Rule A) (parts : A → List (Part Node)) : Prop :=
  ∀ ps flaw, Triple (Account source ps flaw) r fun a => Account source (ps ++ parts a) flaw

theorem accounts_bump_on (hk : k.hasPlace = true) :
    Triple (fun c => Account source ps flaw c ∧ c.kind = k) bump
      fun l => Account source (ps ++ [.lexeme l]) flaw := by
  intro c ⟨h, hkind⟩
  rw [← hkind] at hk
  exact h.bump hk

theorem accounts_bump_flawed :
    Triple (Account source ps true) bump fun l => Account source (ps ++ [.lexeme l]) true :=
  fun _ h => h.bump_flawed

theorem accounts_report {m : Message} (hm : m.isFault = true) (args : List Text) :
    Triple (Account source ps flaw) (report m args) fun _ => Account source ps true :=
  fun _ h => h.report hm args

theorem accounts_report_on {m : Message} (hm : m.isFault = true) (args : List Text) :
    Triple (fun c => Account source ps flaw c ∧ c.kind = k) (report m args)
      fun _ c => Account source ps true c ∧ c.kind = k :=
  fun c ⟨h, hkind⟩ => ⟨h.report hm args, (c.kind_report m args).trans hkind⟩

theorem accounts_takeTrivia_on :
    Triple (fun c => Account source ps flaw c ∧ c.kind = k) takeTrivia
      fun trivia c => Account source (ps ++ trivia.map .node) flaw c ∧ c.kind = k :=
  fun c ⟨h, hkind⟩ => ⟨h.takeTrivia, c.kind_takeTrivia.trans hkind⟩

theorem accounts_takeTrailing_on :
    Triple (fun c => Account source ps flaw c ∧ c.kind = k) takeTrailing
      fun trailing c => Account source (ps ++ trailing.map .node) flaw c ∧ c.kind = k :=
  fun c ⟨h, hkind⟩ => ⟨h.takeTrailing, c.kind_takeTrailing.trans hkind⟩

theorem accounts_missing {m : Message} (hm : m.isFault = true) (args : List Text) {flaw' : Bool} :
    Triple (Account source ps flaw') (do report m args; return Lexeme.missing)
      fun l => Account source (ps ++ [.lexeme l]) flaw :=
  (accounts_report hm args).bind fun _ => Triple.pure fun _ h => h.missing rfl

theorem accounts_optional (hk : k.hasPlace = true) : (optional k).Accounts source Lexeme.optionalParts := by
  intro ps flaw
  refine Triple.kind_bind fun k' => Triple.ite (fun heq => ?_) fun _ => ?_
  · cases heq
    exact (accounts_bump_on hk).bind fun _ => Triple.pure fun _ h => h
  · exact Triple.pure fun c h => h.1.append_nil

theorem accounts_expect (hk : k.hasPlace = true) : (expect k).Accounts source ([.lexeme ·]) := by
  intro ps flaw
  refine Triple.kind_bind fun k' => Triple.ite (fun heq => ?_) fun _ => ?_
  · cases heq
    exact accounts_bump_on hk
  · exact (accounts_missing rfl _).of_imp fun _ h => h.1

theorem accounts_expectIdentifier : expectIdentifier.Accounts source ([.lexeme ·]) := by
  intro ps flaw
  refine Triple.kind_bind fun k' => Triple.ite (fun heq => ?_) fun _ => ?_
  · cases heq
    exact accounts_bump_on rfl
  · exact (accounts_missing rfl _).of_imp fun _ h => h.1

end Rule

/-! ### Lists up to a closing bracket -/

/-- The account in front of a closing bracket: a flaw not shown yet is shown by the bracket, for it is not
there. -/
def Account.Until (closing : Kind) (source : List Token) (ps : List (Part Node)) (flaw : Bool) (c : Cursor) :
    Prop := Account source ps flaw c ∨ Account source ps true c ∧ c.kind ≠ closing

theorem Part.interleave_append {A : Type} {items items' : List (List A)} {separators separators' : List A}
    (h : items.length = separators.length) : interleave (items ++ items') (separators ++ separators') =
      interleave items separators ++ interleave items' separators' := by
  induction items generalizing separators with
  | nil =>
      rw [List.length_eq_zero_iff.mp h.symm]
      rfl
  | cons item items ih =>
      cases separators with
      | nil => cases h
      | cons s separators =>
          rw [List.cons_append, List.cons_append, interleave, interleave, ih (Nat.succ.inj h), List.append_assoc]
          rfl

namespace Rule

variable {A : Type} {source : List Token} {ps : List (Part Node)} {flaw : Bool} {closing : Kind}
  {item : Rule (Option A)} {parts : A → List (Part Node)}

/-- What an item of a list up to `closing` does. Where there is no more, the list is over. -/
def AccountsItem (source : List Token) (closing : Kind) (item : Rule (Option A)) (parts : A → List (Part Node)) :
    Prop :=
  ∀ ps flaw, Triple (Account source ps flaw) item fun
    | some a => Account source (ps ++ parts a) flaw
    | none => Account.Until closing source ps flaw

/-- The parts of items and the commas between them. -/
def separatedParts (parts : A → List (Part Node)) (s : List A × List Lexeme) : List (Part Node) :=
  interleave (s.1.map parts) (s.2.map .lexeme)

/-- Items with the commas behind them, taken apart. -/
def unpair (pairs : List (A × Option Lexeme)) : List A × List Lexeme :=
  (pairs.map (·.1), pairs.filterMap (·.2))

/-- Behind items that all have their commas another item follows, with a comma or without. -/
theorem separatedParts_concat {pairs : List (A × Option Lexeme)}
    (h : ∀ pair ∈ pairs, pair.2.isSome = true) (a : A) (comma : Option Lexeme) :
    separatedParts parts (unpair (pairs ++ [(a, comma)])) =
      separatedParts parts (unpair pairs) ++ (parts a ++ Lexeme.optionalParts comma) := by
  have hlength : (pairs.filterMap (·.2)).length = pairs.length := by
    rw [List.length_filterMap_eq_countP]
    exact List.countP_eq_length.mpr h
  simp only [separatedParts, unpair, List.map_append, List.filterMap_append]
  rw [interleave_append (by simpa using hlength.symm)]
  cases comma with
  | none => simp [interleave, Lexeme.optionalParts]
  | some comma => simp [interleave, Lexeme.optionalParts]

/-- The account while a list goes on: there is a comma behind every item. -/
def AccountBetween (source : List Token) (ps : List (Part Node)) (flaw : Bool) (parts : A → List (Part Node))
    (pairs : List (A × Option Lexeme)) (c : Cursor) : Prop :=
  (∀ pair ∈ pairs, pair.2.isSome = true) ∧ Account source (ps ++ separatedParts parts (unpair pairs)) flaw c

/-- One item keeps the account of a list: the list goes on behind its comma, or must be closed. -/
theorem accounts_separatedRound (h : item.AccountsItem source closing parts)
    (pairs : List (A × Option Lexeme)) :
    Triple (AccountBetween source ps flaw parts pairs) (separatedRound item) fun s c =>
      cond s.2 (AccountBetween source ps flaw parts (pairs ++ s.1) c)
        (Account.Until closing source (ps ++ separatedParts parts (unpair (pairs ++ s.1))) flaw c) := by
  refine Triple.of_and fun hcommas => (h _ _).bind fun
    | none => Triple.pure fun c hc => ?_
    | some a => (accounts_optional rfl _ _).bind fun comma => Triple.pure fun c hc => ?_
  · rw [List.append_nil]
    exact hc
  · rw [List.append_assoc, List.append_assoc, ← separatedParts_concat hcommas] at hc
    cases comma with
    | none => exact .inl hc
    | some comma =>
        refine ⟨fun pair hpair => ?_, hc⟩
        rcases List.mem_append.mp hpair with hpair | hpair
        · exact hcommas pair hpair
        · rw [List.mem_singleton.mp hpair]
          rfl

theorem accounts_separated (h : item.AccountsItem source closing parts) :
    Triple (Account source ps flaw) (separated item)
      fun s => Account.Until closing source (ps ++ separatedParts parts s) flaw := by
  have hstart (c : Cursor) (hc : Account source ps flaw c) : AccountBetween source ps flaw parts [] c :=
    ⟨fun pair hpair => absurd hpair List.not_mem_nil, hc.append_nil⟩
  exact ((Triple.collect (accounts_separatedRound h)).of_imp hstart).bind fun pairs => Triple.pure fun c hc => hc

theorem accounts_expect_closing (hk : closing.hasPlace = true) :
    Triple (Account.Until closing source ps flaw) (expect closing)
      fun l => Account source (ps ++ [.lexeme l]) flaw := by
  intro c hc
  rcases hc with h | ⟨h, hkind⟩
  · exact accounts_expect hk ps flaw c h
  · simp only [expect, run_bind, run_kind, if_neg hkind]
    exact accounts_missing rfl _ c h

theorem accounts_lexemesUntil (stops : Kind → Bool) :
    Triple (Account source ps true) (lexemesUntil stops)
      fun ls => Account source (ps ++ ls.map .lexeme) true := by
  refine (Triple.collect (J := fun ls => Account source (ps ++ ls.map .lexeme) true) fun ls => ?_).of_imp
    fun c hc => hc.append_nil
  refine Triple.kind_bind fun k => Triple.ite (fun _ => Triple.pure fun c hc => ?_) fun _ => ?_
  · rw [List.append_nil]
    exact hc.1
  · refine (accounts_bump_flawed.of_imp fun _ hc => hc.1).bind fun l => Triple.pure fun c hc => ?_
    rw [List.append_assoc] at hc
    rw [List.map_append]
    exact hc

end Rule

end LosslessSyntax
