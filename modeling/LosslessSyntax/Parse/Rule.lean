import LosslessSyntax.Parse.Cursor

/-! Rules: the steps from which the reading of a tree is built. A rule turns a cursor into a result and the
cursor behind it; it leaves the source as it is, takes tokens from the front only and never takes back that
reading was given up. So no rule makes more tokens seen, and a loop ends if every round that is not its last
leaves fewer. -/

namespace LosslessSyntax

/-- A step of reading with a result of type `A`. -/
structure Rule (A : Type) where
  run : Cursor → A × Cursor
  source_run : ∀ c, (run c).2.source = c.source
  upcoming_suffix : ∀ c, (run c).2.upcoming <:+ c.upcoming
  givenUp_run : ∀ c, c.givenUp = true → (run c).2.givenUp = true

namespace Rule

variable {A B : Type}

instance : Monad Rule where
  pure a := ⟨fun c => (a, c), fun _ => rfl, fun _ => List.suffix_rfl, fun _ => id⟩
  bind r f :=
    { run := fun c =>
        let s := r.run c
        (f s.1).run s.2
      source_run := fun c => ((f _).source_run _).trans (r.source_run c)
      upcoming_suffix := fun c => ((f _).upcoming_suffix _).trans (r.upcoming_suffix c)
      givenUp_run := fun c h => (f _).givenUp_run _ (r.givenUp_run c h) }

@[simp] theorem run_pure (a : A) (c : Cursor) : (pure a : Rule A).run c = (a, c) := (rfl)

@[simp] theorem run_bind (r : Rule A) (f : A → Rule B) (c : Cursor) :
    (r >>= f).run c = (f (r.run c).1).run (r.run c).2 := (rfl)

@[simp] theorem run_map (f : A → B) (r : Rule A) (c : Cursor) :
    (f <$> r).run c = (f (r.run c).1, (r.run c).2) := (rfl)

theorem run_ite {p : Prop} [Decidable p] (r s : Rule A) (c : Cursor) :
    (if p then r else s).run c = if p then r.run c else s.run c := by
  split <;> rfl

/-- Rules that do the same to every cursor are the same. -/
theorem ext {r s : Rule A} (h : ∀ c, r.run c = s.run c) : r = s := by
  obtain ⟨run, _, _, _⟩ := r
  obtain ⟨run', _, _, _⟩ := s
  have : run = run' := funext h
  subst this
  rfl

instance : LawfulMonad Rule := LawfulMonad.mk' Rule
  (fun _ => rfl) (fun _ _ => rfl) (fun _ _ _ => rfl)

/-- What a rule leaves of the tokens ahead is the end of them. -/
theorem ahead_suffix (r : Rule A) (c : Cursor) : (r.run c).2.ahead <:+ c.ahead := by
  obtain ⟨front, hfront⟩ := r.upcoming_suffix c
  simp only [Cursor.ahead, ← hfront, List.dropWhile_append]
  split
  · exact List.suffix_rfl
  · exact (List.dropWhile_suffix _).trans (List.suffix_append _ _)

/-- No rule makes more tokens seen. -/
theorem left_le (r : Rule A) (c : Cursor) : (r.run c).2.left ≤ c.left := by
  cases hc : c.givenUp with
  | true => simp [Cursor.left, r.givenUp_run c hc]
  | false =>
    have h := (r.ahead_suffix c).length_le
    simp only [Cursor.left, hc]
    split <;> simp_all

/-- A rule that is put together anew only when it is run. -/
def delay (r : Unit → Rule A) : Rule A where
  run c := (r ()).run c
  source_run := (r ()).source_run
  upcoming_suffix := (r ()).upcoming_suffix
  givenUp_run := (r ()).givenUp_run

@[simp] theorem delay_eq (r : Unit → Rule A) : delay r = r () := rfl

/-! ### Single steps -/

/-- Looks at the cursor. -/
def look (f : Cursor → A) : Rule A := ⟨fun c => (f c, c), fun _ => rfl, fun _ => List.suffix_rfl, fun _ => id⟩

@[simp] theorem run_look (f : Cursor → A) (c : Cursor) : (look f).run c = (f c, c) := (rfl)

/-- The kind of the next significant token. -/
def kind : Rule Kind := look Cursor.kind

@[simp] theorem run_kind (c : Cursor) : kind.run c = (c.kind, c) := (rfl)

/-- Reads the next significant token. -/
def bump : Rule Lexeme where
  run := Cursor.bump
  source_run c := by
    unfold Cursor.bump
    split <;> rfl
  upcoming_suffix c := by
    cases h : c.ahead with
    | nil => simp [Cursor.bump, h]
    | cons t rest =>
      simp only [Cursor.bump, h]
      exact (List.suffix_cons t rest).trans (h ▸ List.dropWhile_suffix _)
  givenUp_run c h := by
    unfold Cursor.bump
    split <;> exact h

@[simp] theorem run_bump (c : Cursor) : bump.run c = c.bump := (rfl)

/-- Notes a message about the next significant token. -/
def report (m : Message) (args : List Text) : Rule Unit where
  run c := ((), c.report m args)
  source_run c := by
    unfold Cursor.report
    split <;> rfl
  upcoming_suffix c := by
    unfold Cursor.report
    split <;> exact List.suffix_rfl
  givenUp_run c h := by simp [Cursor.report, h]

@[simp] theorem run_report (m : Message) (args : List Text) (c : Cursor) :
    (report m args).run c = ((), c.report m args) := (rfl)

/-- Gives up reading. -/
def giveUp : Rule Unit := ⟨fun c => ((), c.giveUp), fun _ => rfl, fun _ => List.suffix_rfl, fun _ _ => rfl⟩

@[simp] theorem run_giveUp (c : Cursor) : giveUp.run c = ((), c.giveUp) := (rfl)

/-- Reads the trivia in front of the next significant token. -/
def takeTrivia : Rule (List Node) where
  run := Cursor.takeTrivia
  source_run _ := rfl
  upcoming_suffix _ := List.dropWhile_suffix _
  givenUp_run _ := id

@[simp] theorem run_takeTrivia (c : Cursor) : takeTrivia.run c = c.takeTrivia := (rfl)

/-- Reads the comments that begin on the line where the last token ended. -/
def takeTrailing : Rule (List Node) where
  run := Cursor.takeTrailing
  source_run _ := rfl
  upcoming_suffix := Cursor.upcoming_takeTrailing_suffix
  givenUp_run _ := id

@[simp] theorem run_takeTrailing (c : Cursor) : takeTrailing.run c = c.takeTrailing := (rfl)

/-- Reads the next token if it is of kind `k`. -/
def optional (k : Kind) : Rule (Option Lexeme) := do
  if (← kind) = k then return some (← bump) else return none

/-- Reads a token that must be of kind `k`; if it is not, nothing is read and the lexeme is missing. -/
def expect (k : Kind) : Rule Lexeme := do
  if (← kind) = k then bump
  else
    report .tokenExpected [k.text?.getD ['t', 'o', 'k', 'e', 'n']]
    return .missing

/-- Reads a name that must be there; if it is not, nothing is read and the lexeme is missing. -/
def expectIdentifier : Rule Lexeme := do
  if (← kind) = .identifier then bump
  else
    report .identifierExpected []
    return .missing

/-- Where a token of a certain kind was read, fewer are left. -/
theorem left_optional_lt {k : Kind} (hk : k ≠ .endOfInput) {c : Cursor}
    (h : ((optional k).run c).1.isSome = true) : ((optional k).run c).2.left < c.left := by
  simp only [optional, run_bind, run_kind, run_ite] at h ⊢
  split at h
  · next heq =>
    rw [if_pos heq]
    exact Cursor.left_bump_lt (heq ▸ hk)
  · cases h

/-! ### Consuming rules -/

/-- Whether the rule leaves fewer tokens wherever the next one is of a kind in `p`. -/
def Consumes (r : Rule A) (p : Kind → Prop) : Prop := ∀ c, p c.kind → (r.run c).2.left < c.left

theorem Consumes.imp {r : Rule A} {p q : Kind → Prop} (h : r.Consumes p) (hq : ∀ k, q k → p k) :
    r.Consumes q := fun c hc => h c (hq _ hc)

theorem Consumes.on {r : Rule A} {p : Kind → Prop} (h : r.Consumes p) {k : Kind} (hk : p k) :
    r.Consumes (· = k) := fun c hc => h c (hc ▸ hk)

theorem Consumes.map {r : Rule A} {p : Kind → Prop} (h : r.Consumes p) (f : A → B) : (f <$> r).Consumes p := h

/-- What follows a rule that consumes cannot undo it. -/
theorem Consumes.bind {r : Rule A} {p : Kind → Prop} (h : r.Consumes p) (f : A → Rule B) :
    (r >>= f).Consumes p := fun c hc => Nat.lt_of_le_of_lt ((f _).left_le _) (h c hc)

/-- A rule that goes by the next kind consumes if it does so for every kind. -/
theorem consumes_kind_bind {f : Kind → Rule A} {p : Kind → Prop} (h : ∀ k, p k → (f k).Consumes (· = k)) :
    (kind >>= f).Consumes p := fun c hc => h c.kind hc c rfl

theorem consumes_bump : bump.Consumes (· ≠ .endOfInput) := fun _ hc => Cursor.left_bump_lt hc

theorem consumes_bump_on {k : Kind} (hk : k ≠ .endOfInput) : bump.Consumes (· = k) := consumes_bump.on hk

theorem Consumes.look_bind {f : Cursor → B} {r : B → Rule A} {p : Kind → Prop} (h : ∀ b, (r b).Consumes p) :
    (look f >>= r).Consumes p := fun c hc => h _ c hc

/-- A message changes neither what is next nor what is left. -/
theorem Consumes.report_bind {r : Unit → Rule A} {p : Kind → Prop} (h : (r ()).Consumes p) (m : Message)
    (args : List Text) : (report m args >>= r).Consumes p := fun c hc => by
  simp only [run_bind, run_report]
  exact Nat.lt_of_lt_of_eq (h _ (c.kind_report m args ▸ hc)) (c.left_report m args)

/-- Trivia are no part of what is left to see. -/
theorem Consumes.takeTrailing_bind {r : List Node → Rule A} {p : Kind → Prop} (h : ∀ ns, (r ns).Consumes p) :
    (takeTrailing >>= r).Consumes p := fun c hc => by
  simp only [run_bind, run_takeTrailing]
  exact Nat.lt_of_lt_of_eq (h _ _ (c.kind_takeTrailing ▸ hc)) c.left_takeTrailing

/-- A rule that gives up consumes whatever is there. -/
theorem consumes_giveUp_bind (f : Unit → Rule A) : (giveUp >>= f).Consumes (· ≠ .endOfInput) := fun c hc => by
  simp only [run_bind, run_giveUp]
  exact Nat.lt_of_le_of_lt ((f _).left_le _) (Cursor.left_pos hc)

/-! ### Loops -/

/-- Whether every round that goes on leaves fewer tokens. A round goes on if its second result says so. -/
def Advances (round : Rule (A × Bool)) : Prop :=
  ∀ c, (round.run c).1.2 = true → (round.run c).2.left < c.left

/-- Runs rounds from `c` until one does not go on, and joins what they give. -/
def collectFrom (round : Rule (List A × Bool)) (h : round.Advances) (c : Cursor) : List A × Cursor :=
  let s := round.run c
  if _ : s.1.2 = true then
    let t := collectFrom round h s.2
    (s.1.1 ++ t.1, t.2)
  else (s.1.1, s.2)
termination_by c.left
decreasing_by exact h c (by assumption)

theorem source_collectFrom (round : Rule (List A × Bool)) (h : round.Advances) (c : Cursor) :
    (collectFrom round h c).2.source = c.source := by
  fun_induction collectFrom round h c with
  | case1 c s more t ih => exact ih.trans (round.source_run c)
  | case2 c s more => exact round.source_run c

theorem upcoming_collectFrom_suffix (round : Rule (List A × Bool)) (h : round.Advances) (c : Cursor) :
    (collectFrom round h c).2.upcoming <:+ c.upcoming := by
  fun_induction collectFrom round h c with
  | case1 c s more t ih => exact ih.trans (round.upcoming_suffix c)
  | case2 c s more => exact round.upcoming_suffix c

theorem givenUp_collectFrom (round : Rule (List A × Bool)) (h : round.Advances) (c : Cursor)
    (hc : c.givenUp = true) : (collectFrom round h c).2.givenUp = true := by
  fun_induction collectFrom round h c with
  | case1 c s more t ih => exact ih (round.givenUp_run c hc)
  | case2 c s more => exact round.givenUp_run c hc

/-- Repeats a rule until a round does not go on, and joins what the rounds give. -/
def collect (round : Rule (List A × Bool)) (h : round.Advances) : Rule (List A) where
  run := collectFrom round h
  source_run := source_collectFrom round h
  upcoming_suffix := upcoming_collectFrom_suffix round h
  givenUp_run := givenUp_collectFrom round h

/-- Runs rounds from `c` until one does not go on, each on the result of the one before. -/
def growFrom (round : A → Rule (A × Bool)) (h : ∀ a, (round a).Advances) (a : A) (c : Cursor) : A × Cursor :=
  let s := (round a).run c
  if _ : s.1.2 = true then growFrom round h s.1.1 s.2 else (s.1.1, s.2)
termination_by c.left
decreasing_by exact h a c (by assumption)

theorem source_growFrom (round : A → Rule (A × Bool)) (h : ∀ a, (round a).Advances) (a : A) (c : Cursor) :
    (growFrom round h a c).2.source = c.source := by
  fun_induction growFrom round h a c with
  | case1 a c s more ih => exact ih.trans ((round a).source_run c)
  | case2 a c s more => exact (round a).source_run c

theorem upcoming_growFrom_suffix (round : A → Rule (A × Bool)) (h : ∀ a, (round a).Advances) (a : A)
    (c : Cursor) : (growFrom round h a c).2.upcoming <:+ c.upcoming := by
  fun_induction growFrom round h a c with
  | case1 a c s more ih => exact ih.trans ((round a).upcoming_suffix c)
  | case2 a c s more => exact (round a).upcoming_suffix c

theorem givenUp_growFrom (round : A → Rule (A × Bool)) (h : ∀ a, (round a).Advances) (a : A) (c : Cursor)
    (hc : c.givenUp = true) : (growFrom round h a c).2.givenUp = true := by
  fun_induction growFrom round h a c with
  | case1 a c s more ih => exact ih ((round a).givenUp_run c hc)
  | case2 a c s more => exact (round a).givenUp_run c hc

/-- Repeats a rule on its own result until a round does not go on. -/
def grow (round : A → Rule (A × Bool)) (h : ∀ a, (round a).Advances) (a : A) : Rule A where
  run := growFrom round h a
  source_run := source_growFrom round h a
  upcoming_suffix := upcoming_growFrom_suffix round h a
  givenUp_run := givenUp_growFrom round h a

end Rule

end LosslessSyntax
