import LosslessSyntax.Proofs.Parse.Extension

/-! Larger limits. Raising the nesting limit only extends a reading: what is read and noted with a limit that is
not passed stays as it is, and what is noted up to where a limit is passed is noted with a larger one as well. -/

namespace LosslessSyntax

open Rule

/-- What is taken at the end as it stands is worth no note. -/
theorem Cursor.diagnostics_salvage (c : Cursor) : c.salvage.2.diagnostics = c.diagnostics := by
  unfold salvage
  split
  · have hround : (lexemesRound fun _ => false).Keeps fun d => d.diagnostics = c.diagnostics :=
      .kind_bind fun _ => .ite (fun _ => .pure _) fun _ =>
        .bind (fun d hd => (diagnostics_bump d).trans hd) fun _ => .pure _
    exact Keeps.collect hround { c with givenUp := false } rfl
  · rfl

namespace Parser

/-- The statements that are read with a larger limit are the same, or reading stops at the smaller one. -/
theorem extendsAt_statements (source : Text) {limit larger : Nat} (h : limit ≤ larger) :
    (statements source limit).2.GoesOn ∧ statements source larger = statements source limit ∨
      (statements source limit).2.StoppedBefore limit (statements source larger).2 := by
  have hlevels := Level.extends_ofRemaining limit larger h
  have hgoes : (ofSource source 0).cursor.GoesOn := ⟨rfl, rfl⟩
  exact (hlevels.statements (congruence_extends limit) false).run _ hgoes

/-- Apart from what is taken at the end as it stands, a reading is that of the statements. -/
theorem program_ofSource (source : Text) (limit : Nat) :
    (ofSource source limit).program.1 =
        ⟨(statements source limit).1 ++ (statements source limit).2.salvage.1⟩ ∧
      (ofSource source limit).program.2.treeDiagnostics = (statements source limit).2.diagnostics ∧
      (ofSource source limit).program.2.tokenDiagnostics = (tokenizeWithDiagnostics source).2 :=
  ⟨rfl, Cursor.diagnostics_salvage _, rfl⟩

/-- Raising the limit only extends a reading. If the limit is not passed, a larger one is not passed either, and
changes nothing. If it is passed, that is noted last, once; and what was noted before is noted first with the
larger limit, apart from a note that this one is passed. -/
theorem program_extends (source : Text) {limit larger : Nat} (h : limit ≤ larger) :
    let p := (ofSource source limit).program
    let q := (ofSource source larger).program
    ((statements source limit).2.givenUp = false →
      (statements source larger).2.givenUp = false ∧ q.1 = p.1 ∧ q.2.treeDiagnostics = p.2.treeDiagnostics ∧
        q.2.diagnostics = p.2.diagnostics) ∧
    ((statements source limit).2.givenUp = true →
      ∃ (noted : Diagnostics) (place : Location),
        p.2.treeDiagnostics = noted ++ [.of .nestingTooDeep [Nat.toDigits 10 limit] (some place)] ∧
          noted.mentionLimit = false ∧
          noted <+: q.2.treeDiagnostics.filter (·.code ≠ Message.nestingTooDeep.code)) := by
  intro p q
  obtain ⟨hp, hptree, hptokens⟩ := program_ofSource source limit
  obtain ⟨hq, hqtree, hqtokens⟩ := program_ofSource source larger
  rcases extendsAt_statements source h with ⟨⟨hgoes, -⟩, hsame⟩ | ⟨hstopped, noted, place, hnoted, hnone, hprefix⟩
  · refine ⟨fun _ => ?_, fun hgiven => ?_⟩
    · have hprogram : q.1 = p.1 := by rw [hp, hq, hsame]
      have htree : q.2.treeDiagnostics = p.2.treeDiagnostics := by rw [hptree, hqtree, hsame]
      refine ⟨hsame ▸ hgoes, hprogram, htree, ?_⟩
      rw [diagnostics, diagnostics, htree, hptokens, hqtokens]
    · rw [hgoes] at hgiven
      cases hgiven
  · refine ⟨fun hgiven => ?_, fun _ => ⟨noted, place, hptree.trans hnoted, hnone, ?_⟩⟩
    · rw [hstopped] at hgiven
      cases hgiven
    · have hkept : noted.filter (·.code ≠ Message.nestingTooDeep.code) = noted := by
        simpa [Diagnostics.mentionLimit] using hnone
      rw [hqtree, ← hkept]
      exact hprefix.filter _

/-- One level is enough for a semicolon, but not for a parenthesis. -/
theorem program_extends_of_semicolon :
    let source : Text := [';', '(']
    1 ≤ 2 ∧ (statements source 1).2.givenUp = true ∧
      ∃ (noted : Diagnostics) (place : Location),
        (ofSource source 1).program.2.treeDiagnostics =
            noted ++ [.of .nestingTooDeep [Nat.toDigits 10 1] (some place)] ∧
          noted.mentionLimit = false ∧
          noted <+: (ofSource source 2).program.2.treeDiagnostics.filter (·.code ≠ Message.nestingTooDeep.code) :=
  have hgiven : (statements [';', '('] 1).2.givenUp = true := by decide +kernel
  ⟨by decide, hgiven, (program_extends _ (by decide)).2 hgiven⟩

end Parser

end LosslessSyntax
