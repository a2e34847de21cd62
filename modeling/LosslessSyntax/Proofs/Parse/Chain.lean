import LosslessSyntax.Proofs.Parse.Sort

/-! Chains of choices. Behind an `else` another choice may follow, and a loop reads them one by one; closed from
the last to the first they become choices within choices. The levels that a choice opens are those of its own
header and body, so a chain nests no deeper than its deepest link, however long it is. -/

namespace LosslessSyntax

open Rule Node

namespace Control

variable {c : Control Node} {r : Nat}

theorem steps_of_alternate_eq_none (h : c.alternate = none) : c.steps = c.ownSteps := by
  rw [steps, h]
  exact List.append_nil _

/-- The comments in front of an `else` do not count. -/
theorem fit_ownSteps_attach (comments : List Node) :
    Fit r { c with body := c.body.attach comments }.ownSteps ↔ Fit r c.ownSteps := by
  rw [ownSteps, ownSteps, fit_append, fit_append, Block.fit_steps_attach]

theorem fit_steps_else {comments : List Node} {a : Alternate Node} :
    Fit r { c with body := c.body.attach comments, alternate := some a }.steps ↔ Fit r c.ownSteps ∧ Fit r a.steps := by
  rw [← fit_ownSteps_attach comments, steps, fit_append]
  simp [ownSteps]

end Control

/-- Whether the link is what a chain is made of: a choice, and nothing but blanks and comments behind its `else`. -/
structure Link.IsSound (link : Link) : Prop where
  form : link.control.form = .ifForm
  leading : ∀ n ∈ link.leading, n.isTrivia = true

/-- Closing a link makes a choice of it that nests as deep as its own header and body, or as the chain behind it. -/
theorem Link.fit_close {link : Link} (hlink : link.IsSound) {inner : Control Node} (hinner : inner.form = .ifForm)
    {r : Nat} : Fit r (link.close inner).steps ↔ Fit r link.control.ownSteps ∧ Fit r inner.steps := by
  have hleading : Fit r (link.leading.map elseStep) := fit_of_isTrivia hlink.leading fun _ => elseStep_of_isTrivia
  have hchoice : elseStep (.command (.combinator inner) none []) = (0, .command (.combinator inner) none []) := by
    simp [elseStep, isChoice, hinner]
  have hinside : (Node.command (.combinator inner) none []).nesting ≤ r ↔ Fit r inner.steps := by
    rw [nesting_command_le_iff, fit_contentStep_other rfl rfl]
    rfl
  have hbranch : (link.close inner).steps =
      link.control.ownSteps ++ (link.leading.map elseStep ++ [elseStep (.command (.combinator inner) none [])]) := by
    simp [Control.steps, Control.ownSteps, Link.close, Alternate.steps, Block.isBraced]
  rw [hbranch, fit_append, fit_append, and_iff_right hleading, hchoice, fit_cons, and_iff_left fit_nil, Nat.zero_add,
    hinside]

/-- However long a chain is, it nests no deeper than the deepest of its links. -/
theorem Link.fit_chain {links : List Link} (hlinks : ∀ link ∈ links, link.IsSound) {last : Control Node}
    (hlast : links ≠ [] → last.form = .ifForm) {r : Nat} :
    Fit r (links.foldl (fun inner link => link.close inner) last).steps ↔
      (∀ link ∈ links, Fit r link.control.ownSteps) ∧ Fit r last.steps := by
  induction links generalizing last with
  | nil => simp
  | cons link outer ih =>
      obtain ⟨hlink, houter⟩ := List.forall_mem_cons.mp hlinks
      have hclosed : (link.close last).form = .ifForm := hlink.form
      rw [List.foldl_cons, ih houter fun _ => hclosed, Link.fit_close hlink (hlast (List.cons_ne_nil _ _)),
        List.forall_mem_cons]
      exact ⟨fun ⟨ho, hl, hi⟩ => ⟨⟨hl, ho⟩, hi⟩, fun ⟨⟨hl, ho⟩, hi⟩ => ⟨ho, hl, hi⟩⟩

namespace Level

/-- The links of a chain are sound, and the chain goes on from a choice. -/
structure IsChain (s : List Link × Control Node) : Prop where
  links : ∀ link ∈ s.1, link.IsSound
  last : s.1 ≠ [] → s.2.form = .ifForm

theorem isChain_linkRound (l : Level) {s : List Link × Control Node} (hs : IsChain s) :
    (l.linkRound s).Always fun t => IsChain t.1 := by
  refine Gives.kind_bind fun k _ => Gives.ite (fun hk => ?_) fun _ => Gives.pure hs
  rw [Bool.and_eq_true, decide_eq_true_eq] at hk
  refine Gives.any_bind fun comments => Gives.any_bind fun keyword => Gives.kind_bind fun k _ =>
    Gives.ite (fun _ => ?_) fun _ => Gives.any_bind fun body => Gives.pure ⟨hs.links, hs.last⟩
  refine isTrivia_takeTrivia.always_on.bind fun leading hleading => (form_head l .ifForm).bind fun next hnext =>
    Gives.pure ⟨List.forall_mem_cons.mpr ⟨⟨hk.1, hleading⟩, hs.links⟩, fun _ => hnext.1⟩

/-- Where a chain goes on, its last choice has no `else` yet. -/
theorem alternate_linkRound (l : Level) (s : List Link × Control Node) :
    (l.linkRound s).Always fun t => t.2 = true → t.1.2.alternate = none := by
  refine Gives.kind_bind fun k _ => Gives.ite (fun _ => ?_) fun _ => Gives.pure nofun
  refine Gives.any_bind fun comments => Gives.any_bind fun keyword => Gives.kind_bind fun k _ =>
    Gives.ite (fun _ => ?_) fun _ => Gives.any_bind fun body => Gives.pure nofun
  exact Gives.any_bind fun leading => (form_head l .ifForm).bind fun next hnext => Gives.pure fun _ => hnext.2

/-- Whether all that was read of a chain nests at most `r` levels deep. -/
def ChainFits (r : Nat) (s : List Link × Control Node) : Prop :=
  (∀ link ∈ s.1, Fit r link.control.ownSteps) ∧ Fit r s.2.steps

end Level

end LosslessSyntax
