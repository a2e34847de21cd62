import LosslessSyntax.Proofs.Parse.Depth
import LosslessSyntax.Proofs.Parse.Room

/-! The nesting limit is exact. Reading is given up if and only if the tree that would be read without a limit
nests deeper than the limit allows; and whoever gives up says so. -/

namespace LosslessSyntax

open Rule

/-- Whether one of the diagnostics says that the nesting limit was passed. -/
def Diagnostics.mentionLimit (ds : Diagnostics) : Bool := ds.any (·.code = Message.nestingTooDeep.code)

namespace Cursor

theorem diagnostics_bump (c : Cursor) : c.bump.2.diagnostics = c.diagnostics := by
  unfold bump
  split <;> rfl

theorem mentionLimit_report {m : Message} (hm : m.code ≠ Message.nestingTooDeep.code) (c : Cursor) (args : List Text) :
    (c.report m args).diagnostics.mentionLimit = c.diagnostics.mentionLimit := by
  unfold report
  split
  · rfl
  · simp [Diagnostics.mentionLimit, Diagnostic.of, hm]

/-- Whether it was noted that the limit was passed, if it was. -/
def Admits (c : Cursor) : Prop := c.diagnostics.mentionLimit = c.givenUp

theorem kept_admits : Kept Admits where
  bump c h := by rw [Admits, diagnostics_bump, givenUp_bump, h]
  takeTrivia _ h := h
  takeTrailing _ h := h
  report c m args hm h := by rw [Admits, mentionLimit_report hm, givenUp_report, h]

/-- Once reading is over, no more is noted about the limit. -/
theorem kept_mentionLimit (b : Bool) : Kept fun c => c.diagnostics.mentionLimit = b where
  bump c h := by rw [diagnostics_bump, h]
  takeTrivia _ h := h
  takeTrailing _ h := h
  report c m args hm h := by rw [mentionLimit_report hm, h]

theorem admits_refuse (limit : Nat) : (Level.refuse limit).Keeps Admits := by
  intro c hc
  change ((c.report Message.nestingTooDeep [Nat.toDigits 10 limit]).diagnostics.mentionLimit) = true
  unfold report
  split
  · next hgiven => exact hc.trans hgiven
  · simp [Diagnostics.mentionLimit, Diagnostic.of]

theorem mentionLimit_salvage (c : Cursor) : c.salvage.2.diagnostics.mentionLimit = c.diagnostics.mentionLimit := by
  unfold salvage
  split
  · have hkept := kept_mentionLimit c.diagnostics.mentionLimit
    exact hkept.lexemesUntil (fun _ => false) { c with givenUp := false } rfl
  · rfl

end Cursor

namespace Parser

/-- Whether it was noted that the nesting limit was passed. -/
def isTooDeep (p : Parser) : Bool := p.treeDiagnostics.mentionLimit

/-- What the statements of a source come to, and where reading ends. -/
def statements (source : Text) (limit : Nat) : List Node × Cursor :=
  ((Level.outermost limit).statements false).run (ofSource source 0).cursor

/-- The limit was passed if and only if reading was given up. -/
theorem isTooDeep_program (source : Text) (limit : Nat) :
    (ofSource source limit).program.2.isTooDeep = (statements source limit).2.givenUp := by
  have hadmits : (statements source limit).2.Admits := by
    have hlevel := Level.keeps_ofRemaining Cursor.kept_admits limit limit (Cursor.admits_refuse limit)
    exact Level.keeps_statements Cursor.kept_admits hlevel false (ofSource source 0).cursor rfl
  exact (Cursor.mentionLimit_salvage _).trans hadmits

theorem ofSource_of_givenUp {source : Text} {limit : Nat} (h : (statements source limit).2.givenUp = false) :
    Program.ofSource source limit = ⟨(statements source limit).1⟩ := by
  have hsalvage : (statements source limit).2.salvage.1 = [] := by
    rw [Cursor.salvage, h]
    rfl
  change Program.mk ((statements source limit).1 ++ (statements source limit).2.salvage.1) = _
  rw [hsalvage, List.append_nil]

/-- With three levels for every token and three more, reading is not given up. -/
theorem givenUp_statements {source : Text} {limit : Nat} (h : 3 * (tokenize source).length + 3 ≤ limit) :
    (statements source limit).2.givenUp = false := by
  have hroom : (ofSource source 0).cursor.HasRoom limit 3 := by
    refine ⟨rfl, ?_⟩
    have hleft : (ofSource source 0).cursor.left ≤ (tokenize source).length :=
      (List.dropWhile_sublist Token.isTrivia).length_le
    omega
  have hlevel := Level.roomy_ofRemaining limit limit
  exact (Level.keeps_statements (Cursor.kept_hasRoom limit 3) hlevel.keeps false _ hroom).givenUp

/-- Next to a larger limit that lets everything pass, a limit does the same or what is read does not fit. -/
theorem statements_limited {source : Text} {limit larger : Nat} (hle : limit ≤ larger)
    (h : (statements source larger).2.givenUp = false) :
    (Node.Fit limit ((statements source larger).1.map Node.entryStep) ↔
      (statements source limit).2.givenUp = false) ∧
      ((statements source limit).2.givenUp = false → statements source limit = statements source larger) := by
  have hlimits := Level.limits_ofRemaining limit larger hle
  obtain ⟨hfit, hsame⟩ := Level.limited_statements hlimits false True _ (isRead_ofSource source 0) trivial h
  exact ⟨⟨fun hf => (hfit.mp ⟨trivial, hf⟩).2, fun hg => (hfit.mpr ⟨trivial, hg⟩).2⟩, hsame⟩

/-- The nesting limit is exact. Take the tree that is read with room for three levels for every token and three
more, where the limit is never passed. With any other limit, it is noted that the limit was passed if and only if
that tree nests deeper, and otherwise the same tree is read. How long a chain of choices is does not matter for
that: it nests as deep as its deepest link. -/
theorem isTooDeep_iff_lt_nesting (source : Text) :
    let enough := 3 * (tokenize source).length + 3
    let tree := Program.ofSource source enough
    (ofSource source enough).program.2.isTooDeep = false ∧
      (∀ limit, (ofSource source limit).program.2.isTooDeep = true ↔ limit < tree.nesting) ∧
      (∀ limit, tree.nesting ≤ limit → Program.ofSource source limit = tree) ∧
      ∀ (links : List Link) (last : Control Node), (∀ link ∈ links, link.IsSound) →
        (links ≠ [] → last.form = .ifForm) → ∀ r,
          ((Node.combinator (links.foldl (fun inner link => link.close inner) last)).nesting ≤ r ↔
            (∀ link ∈ links, Node.Fit r link.control.ownSteps) ∧ (Node.combinator last).nesting ≤ r) := by
  intro enough tree
  have henough : (statements source enough).2.givenUp = false := givenUp_statements (Nat.le_refl _)
  have htree : tree = ⟨(statements source enough).1⟩ := ofSource_of_givenUp henough
  have hpass (limit : Nat) : ((statements source limit).2.givenUp = false ↔ tree.nesting ≤ limit) ∧
      ((statements source limit).2.givenUp = false → statements source limit = statements source enough) := by
    have hlarger : (statements source (max limit enough)).2.givenUp = false := givenUp_statements (Nat.le_max_right _ _)
    have hsame := (statements_limited (Nat.le_max_right limit enough) hlarger).2 henough
    obtain ⟨hfit, hequal⟩ := statements_limited (Nat.le_max_left limit enough) hlarger
    rw [← hsame] at hfit hequal
    refine ⟨?_, hequal⟩
    rw [← hfit, htree, Program.nesting, Node.deepest_le_iff]
  refine ⟨(isTooDeep_program source enough).trans henough, fun limit => ?_, fun limit hlimit => ?_,
    fun links last hlinks hlast r => ?_⟩
  · rw [isTooDeep_program, ← Nat.not_le, ← (hpass limit).1, Bool.not_eq_false]
  · have hread := (hpass limit).1.mpr hlimit
    rw [ofSource_of_givenUp hread, (hpass limit).2 hread, htree]
  · rw [Node.nesting_le_iff rfl, Node.nesting_le_iff rfl]
    exact Link.fit_chain hlinks hlast

end Parser

end LosslessSyntax
