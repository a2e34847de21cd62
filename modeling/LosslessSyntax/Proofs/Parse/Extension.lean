import LosslessSyntax.Proofs.NestingLimit
import LosslessSyntax.Proofs.Parse.Congruence

/-! A smaller limit next to a larger one. As long as the smaller one is not passed, both readings do the same. At
the step where it is passed the reading with the smaller limit notes that, and from there on nothing; the other one
goes on and adds to what was noted so far. -/

namespace LosslessSyntax

open Rule

namespace Cursor

/-- Whether reading goes on, and nothing was noted about the limit. -/
def GoesOn (c : Cursor) : Prop := c.givenUp = false ∧ c.diagnostics.mentionLimit = false

/-- Whether `c` stopped at the limit: that is noted last, once, and all that was noted before it came first in `d`. -/
def StoppedBefore (limit : Nat) (c d : Cursor) : Prop :=
  c.givenUp = true ∧ ∃ (noted : Diagnostics) (place : Location),
    c.diagnostics = noted ++ [.of .nestingTooDeep [Nat.toDigits 10 limit] (some place)] ∧
      noted.mentionLimit = false ∧ noted <+: d.diagnostics

theorem kept_goesOn : Kept GoesOn where
  bump c h := by rwa [GoesOn, diagnostics_bump, givenUp_bump]
  takeTrivia _ h := h
  takeTrailing _ h := h
  report c m args hm h := by rwa [GoesOn, mentionLimit_report hm, givenUp_report]

/-- Once reading was given up, nothing is noted. -/
theorem kept_diagnostics (noted : Diagnostics) : Kept fun c => c.givenUp = true ∧ c.diagnostics = noted where
  bump c h := by rwa [diagnostics_bump, givenUp_bump]
  takeTrivia _ h := h
  takeTrailing _ h := h
  report c m args _ h := by rwa [report, if_pos h.1]

theorem prefix_diagnostics_report (c : Cursor) (m : Message) (args : List Text) :
    c.diagnostics <+: (c.report m args).diagnostics := by
  unfold report
  split
  · exact List.prefix_rfl
  · exact List.prefix_append _ _

/-- Nothing that was noted is taken back. -/
theorem kept_prefix (noted : Diagnostics) : Kept fun c => noted <+: c.diagnostics where
  bump c h := by rwa [diagnostics_bump]
  takeTrivia _ h := h
  takeTrailing _ h := h
  report c m args _ h := h.trans (c.prefix_diagnostics_report m args)

end Cursor

namespace Rule

variable {A B : Type} {limit : Nat} {c d : Cursor}

/-- Whether the rule notes nothing once reading was given up. -/
def IsQuiet (r : Rule A) : Prop := ∀ noted, r.Keeps fun c => c.givenUp = true ∧ c.diagnostics = noted

/-- Whether the rule takes nothing back that was noted. -/
def Adds (r : Rule A) : Prop := ∀ noted, r.Keeps fun c => noted <+: c.diagnostics

/-- Whether `s` does what `r` does at `c`, or `r` stops at the limit there. -/
def ExtendsAt (limit : Nat) (c : Cursor) (r s : Rule A) : Prop :=
  (r.run c).2.GoesOn ∧ s.run c = r.run c ∨ (r.run c).2.StoppedBefore limit (s.run c).2

/-- Whether `s` does what `r` does up to where `r` stops at the limit. Behind that `r` notes nothing more, and `s`
adds to what was noted. -/
structure Extends (limit : Nat) ⦃A : Type⦄ (r s : Rule A) : Prop where
  quiet : r.IsQuiet
  adds : s.Adds
  run (c : Cursor) (h : c.GoesOn) : ExtendsAt limit c r s

/-- Who has stopped stays stopped. -/
theorem stoppedBefore_run {r : Rule A} {s : Rule B} (hr : r.IsQuiet) (hs : s.Adds) (hc : c.StoppedBefore limit d) :
    (r.run c).2.StoppedBefore limit (s.run d).2 := by
  obtain ⟨hgiven, noted, place, hnoted, hnone, hprefix⟩ := hc
  obtain ⟨hgiven', hsame⟩ := hr _ c ⟨hgiven, rfl⟩
  exact ⟨hgiven', noted, place, hsame.trans hnoted, hnone, hs noted d hprefix⟩

namespace ExtendsAt

/-- Behind a rule that both do alike, both go on from one place; behind a stop nothing matters any more. -/
theorem bind {r s : Rule A} {f g : A → Rule B} (h : ExtendsAt limit c r s) (hquiet : ∀ a, (f a).IsQuiet)
    (hadds : ∀ a, (g a).Adds)
    (hf : (r.run c).2.GoesOn → ExtendsAt limit (r.run c).2 (f (r.run c).1) (g (r.run c).1)) :
    ExtendsAt limit c (r >>= f) (s >>= g) := by
  rcases h with ⟨hgoes, hsame⟩ | hstopped
  · rw [ExtendsAt, run_bind, run_bind, hsame]
    exact hf hgoes
  · have hlater := stoppedBefore_run (hquiet (r.run c).1) (hadds (s.run c).1) hstopped
    exact .inr hlater

theorem map {r s : Rule A} (h : ExtendsAt limit c r s) (f : A → B) : ExtendsAt limit c (f <$> r) (f <$> s) :=
  h.imp_left fun ⟨hgoes, hsame⟩ => ⟨hgoes, by rw [run_map, run_map, hsame]⟩

end ExtendsAt

namespace Extends

/-- A rule extends itself, if it knows no limit. -/
theorem refl {r : Rule A} (hkeeps : ∀ {I : Cursor → Prop}, Cursor.Kept I → r.Keeps I) : Extends limit r r where
  quiet noted := hkeeps (Cursor.kept_diagnostics noted)
  adds noted := hkeeps (Cursor.kept_prefix noted)
  run c h := .inl ⟨hkeeps Cursor.kept_goesOn c h, rfl⟩

theorem bind {r s : Rule A} {f g : A → Rule B} (h : Extends limit r s) (hf : ∀ a, Extends limit (f a) (g a)) :
    Extends limit (r >>= f) (s >>= g) where
  quiet noted := (h.quiet noted).bind fun a => (hf a).quiet noted
  adds noted := (h.adds noted).bind fun a => (hf a).adds noted
  run c hc := (h.run c hc).bind (fun a => (hf a).quiet) (fun a => (hf a).adds) ((hf _).run _)

theorem collect {r s : Rule (List A × Bool)} {hr : r.Advances} {hs : s.Advances} (h : Extends limit r s) :
    Extends limit (collect r hr) (collect s hs) := by
  have hquiet : (Rule.collect r hr).IsQuiet := fun noted => .collect (h.quiet noted)
  have hadds : (Rule.collect s hs).Adds := fun noted => .collect (h.adds noted)
  refine ⟨hquiet, hadds, fun c => ?_⟩
  -- A round that goes on leaves less in front of the cursor.
  induction hn : c.left using Nat.strongRecOn generalizing c with
  | ind n ih =>
      intro hc
      rw [collect_eq r, collect_eq s]
      refine (h.run c hc).bind ?_ ?_ fun hgoes => ?_
      · exact fun t noted => .ite (fun _ => (hquiet noted).map) fun _ => .pure _
      · exact fun t noted => .ite (fun _ => (hadds noted).map) fun _ => .pure _
      · split
        · next hmore => exact (ih _ (hn ▸ hr c hmore) _ rfl hgoes).map _
        · exact .inl ⟨hgoes, rfl⟩

theorem grow {r s : A → Rule (A × Bool)} {hr : ∀ a, (r a).Advances} {hs : ∀ a, (s a).Advances}
    (h : ∀ a, Extends limit (r a) (s a)) (a : A) : Extends limit (grow r hr a) (grow s hs a) := by
  have hquiet (a : A) : (Rule.grow r hr a).IsQuiet := fun noted => .grow (fun a => (h a).quiet noted) a
  have hadds (a : A) : (Rule.grow s hs a).Adds := fun noted => .grow (fun a => (h a).adds noted) a
  refine ⟨hquiet a, hadds a, fun c => ?_⟩
  induction hn : c.left using Nat.strongRecOn generalizing c a with
  | ind n ih =>
      intro hc
      rw [grow_eq r, grow_eq s]
      refine ((h a).run c hc).bind ?_ ?_ fun hgoes => ?_
      · exact fun t noted => .ite (fun _ => hquiet _ noted) fun _ => .pure _
      · exact fun t noted => .ite (fun _ => hadds _ noted) fun _ => .pure _
      · split
        · next hmore => exact ih _ (hn ▸ hr a c hmore) _ _ rfl hgoes
        · exact .inl ⟨hgoes, rfl⟩

end Extends

theorem congruence_extends (limit : Nat) : Congruence (Extends limit) where
  pure a := .refl fun _ => .pure a
  bind := .bind
  look f := .refl fun _ => .look f
  bump := .refl fun h => h.bump_keeps
  takeTrivia := .refl fun h => h.takeTrivia_keeps
  takeTrailing := .refl fun h => h.takeTrailing_keeps
  report hm args := .refl fun h => h.report_keeps hm args
  collect := .collect
  grow := .grow

end Rule

namespace Level

theorem isQuiet_refuse (limit : Nat) : (refuse limit).IsQuiet := by
  rintro noted c ⟨hgiven, hnoted⟩
  refine ⟨rfl, ?_⟩
  simp only [refuse, run_bind, run_report, run_giveUp, run_pure, Cursor.giveUp, Cursor.report, if_pos hgiven]
  exact hnoted

theorem adds_refuse (limit : Nat) : (refuse limit).Adds :=
  fun _ c h => h.trans (c.prefix_diagnostics_report _ _)

theorem adds_ofRemaining (limit remaining : Nat) (noted : Diagnostics) :
    (ofRemaining limit remaining).Keeps fun c => noted <+: c.diagnostics :=
  keeps_ofRemaining (Cursor.kept_prefix noted) limit remaining (adds_refuse limit noted)

theorem adds_prefixed (limit remaining : Nat) : (ofRemaining limit remaining).prefixed.Adds := by
  cases remaining with
  | zero => exact adds_refuse limit
  | succ remaining =>
      exact fun noted => keeps_operation (Cursor.kept_prefix noted) (adds_ofRemaining limit remaining noted)

/-- Where the limit is passed, reading stops, whatever goes on otherwise. -/
theorem extends_refuse (limit : Nat) {s : Rule Node} (hs : s.Adds) : Extends limit (refuse limit) s where
  quiet := isQuiet_refuse limit
  adds := hs
  run c hc := by
    refine .inr ⟨rfl, c.diagnostics, c.current.location, ?_, hc.2, hs _ c List.prefix_rfl⟩
    simp only [refuse, run_bind, run_report, run_giveUp, run_pure, Cursor.giveUp, Cursor.report, hc.1,
      Bool.false_eq_true, if_false]

/-- A level with more levels below it extends one with fewer. -/
theorem extends_ofRemaining (limit larger : Nat) {remaining more : Nat} (h : remaining ≤ more) :
    (ofRemaining limit remaining).Related (Extends limit) (ofRemaining larger more) := by
  induction remaining generalizing more with
  | zero =>
      have hadds (noted : Diagnostics) := adds_ofRemaining larger more noted
      exact {
        statement := fun nested => extends_refuse limit fun noted => (hadds noted).statement nested
        expression := extends_refuse limit fun noted => (hadds noted).expression
        prefixed := extends_refuse limit (adds_prefixed larger more) }
  | succ remaining ih =>
      obtain ⟨more, rfl⟩ := Nat.exists_eq_add_of_le' (Nat.zero_lt_of_lt h)
      exact Related.succ (congruence_extends limit) (ih (Nat.le_of_succ_le_succ h))

end Level

end LosslessSyntax
