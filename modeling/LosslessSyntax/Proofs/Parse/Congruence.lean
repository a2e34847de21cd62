import LosslessSyntax.Proofs.Parse.Scheme

/-! Relations between rules. A congruence holds between every single step and itself, and is kept by every way in
which rules are put together. So it holds between the same rule on two levels if it holds between what the two
levels ask of the next one. Only giving up is left to the levels. -/

namespace LosslessSyntax

/-- A relation that no way of putting rules together breaks. Of messages only the one about the nesting limit need
not be related to itself. -/
structure Rule.Congruence (R : ∀ ⦃A : Type⦄, Rule A → Rule A → Prop) : Prop where
  pure {A : Type} (a : A) : R (pure a) (pure a)
  bind {A B : Type} {r s : Rule A} {f g : A → Rule B} (h : R r s) (hf : ∀ a, R (f a) (g a)) : R (r >>= f) (s >>= g)
  look {A : Type} (f : Cursor → A) : R (Rule.look f) (Rule.look f)
  bump : R bump bump
  takeTrivia : R takeTrivia takeTrivia
  takeTrailing : R takeTrailing takeTrailing
  report {m : Message} (hm : m.code ≠ Message.nestingTooDeep.code) (args : List Text) :
    R (Rule.report m args) (Rule.report m args)
  collect {A : Type} {r s : Rule (List A × Bool)} {hr : r.Advances} {hs : s.Advances} (h : R r s) :
    R (Rule.collect r hr) (Rule.collect s hs)
  grow {A : Type} {r s : A → Rule (A × Bool)} {hr : ∀ a, (r a).Advances} {hs : ∀ a, (s a).Advances}
    (h : ∀ a, R (r a) (s a)) (a : A) : R (Rule.grow r hr a) (Rule.grow s hs a)

/-- Whether all that may be asked of two levels is related. -/
structure Level.Related (R : ∀ ⦃A : Type⦄, Rule A → Rule A → Prop) (l L : Level) : Prop where
  statement (nested : Bool) : R (l.statement nested) (L.statement nested)
  expression : R l.expression L.expression
  prefixed : R l.prefixed L.prefixed

namespace Rule.Congruence

variable {R : ∀ ⦃A : Type⦄, Rule A → Rule A → Prop}

/-- To come out related on two related levels is a property of rules that no way of putting them together breaks. -/
theorem closed (h : Congruence R) {l L : Level} (hl : l.Related R L) : Closed fun _ r => R (r l) (r L) where
  pure := h.pure
  bind := h.bind
  kind := h.look _
  nextKind := h.look _
  followsLineBreak := h.look _
  bump := h.bump
  takeTrivia := h.takeTrivia
  takeTrailing := h.takeTrailing
  report := h.report
  collect _ := h.collect
  grow _ := h.grow
  enter
    | .statement nested => hl.statement nested
    | .expression => hl.expression
    | .prefixed => hl.prefixed

end Rule.Congruence

namespace Level.Related

variable {R : ∀ ⦃A : Type⦄, Rule A → Rule A → Prop} (h : Rule.Congruence R)
include h

theorem statements {l L : Level} (hl : l.Related R L) (nested : Bool) : R (l.statements nested) (L.statements nested) :=
  (h.closed hl).statements nested

/-- One level up, all that may be asked is related again, whatever the limits are. -/
theorem succ {limit larger remaining remaining' : Nat}
    (hl : (ofRemaining limit remaining).Related R (ofRemaining larger remaining')) :
    (ofRemaining limit (remaining + 1)).Related R (ofRemaining larger (remaining' + 1)) where
  statement := (h.closed hl).statementHere
  expression := (h.closed hl).assignment
  prefixed := (h.closed hl).operation

end Level.Related

end LosslessSyntax
