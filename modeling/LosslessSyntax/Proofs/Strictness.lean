import LosslessSyntax.Proofs.Parse.Account.Program
import LosslessSyntax.Proofs.Token.Fault

/-! Strict reading refuses a source if and only if something is wrong with it. A fault of a token is noted
when the token is taken, and a fault of the tree when it is met; the tree shows every fault that was noted,
and every flaw that it shows was noted. An unknown character needs no mention of its own, since the grammar
has no place for it. -/

namespace LosslessSyntax

/-- Diagnostics amount to no error if none of them is one. -/
theorem Diagnostics.error?_eq_none_iff {ds : Diagnostics} (h : ∀ d ∈ ds, d.IsFaultOrIdle) (limit : Nat) :
    ds.error? limit = none ↔ ds.hasErrors = false := by
  have herror {p : Diagnostic → Bool} {d : Diagnostic} (hd : ds.find? p = some d) (hp : d.isError = true) :
      ¬ds.hasErrors = false := by
    rw [Bool.not_eq_false]
    exact List.any_eq_true.mpr ⟨d, List.mem_of_find?_eq_some hd, hp⟩
  unfold error?
  cases hdeep : ds.find? (·.code = Message.nestingTooDeep.code) with
  | some d =>
      have hcode : d.code = Message.nestingTooDeep.code := by simpa using List.find?_some hdeep
      have hd : d.isError = true := by
        refine (h d (List.mem_of_find?_eq_some hdeep)).resolve_right fun hidle => ?_
        rw [hcode] at hidle
        cases hidle
      exact ⟨nofun, fun hno => absurd hno (herror hdeep hd)⟩
  | none =>
      cases hfirst : ds.find? (·.isError) with
      | some d => exact ⟨nofun, fun hno => absurd hno (herror hfirst (List.find?_some hfirst))⟩
      | none => exact ⟨fun _ => List.any_eq_false.mpr (List.find?_eq_none.mp hfirst), fun _ => rfl⟩

namespace Parser

/-- What a reading notes are the faults of the tokens and those of the tree. -/
theorem diagnostics_program (source : Text) (limit : Nat) :
    let p := (ofSource source limit).program.2
    p.diagnostics = Diagnostics.sorted ((tokenize source).flatMap Token.diagnostics ++ p.treeDiagnostics) := by
  have hscan : (ofSource source limit).tokenDiagnostics = (tokenize source).flatMap Token.diagnostics :=
    Scanner.diagnostics_finish (.ofText source)
  intro p
  rw [← hscan]
  rfl

/-- Errors are noted if the tree is flawed or a token lacks its end, and only then. -/
theorem hasErrors_diagnostics_program (source : Text) (limit : Nat) :
    (ofSource source limit).program.2.diagnostics.hasErrors = false ↔
      (ofSource source limit).program.1.Flawless ∧ ∀ t ∈ tokenize source, t.isUnterminated = false := by
  obtain ⟨haccount, hrest⟩ := account_program source limit
  have hcut := cut_tokenize source
  obtain ⟨taken, htokens, -, hknown⟩ := haccount.spelled
  rw [hrest, List.append_nil] at htokens
  have htree : (ofSource source limit).program.2.treeDiagnostics.hasErrors =
    ((ofSource source limit).program.1.declarations.map .node).any Part.isFlawed := haccount.hasErrors
  rw [diagnostics_program, Diagnostics.hasErrors_sorted, Diagnostics.hasErrors_append, Bool.or_eq_false_iff,
    Diagnostics.hasErrors_tokens, htree, ← Program.flawless_iff, List.any_eq_false, and_comm]
  refine and_congr_right fun hflawless => ?_
  have hunknown : ∀ t ∈ tokenize source, t.kind ≠ .unknown := by
    rw [htokens]
    exact hknown ((Program.flawless_iff _).mp hflawless)
  refine forall₂_congr fun t ht => ?_
  rw [hcut.isSome_fault? ht, not_or, Bool.not_eq_true]
  exact and_iff_right (hunknown t ht)

/-- Every diagnostic of a reading is an error or warns of an idle statement. -/
theorem isFaultOrIdle_of_mem_diagnostics (source : Text) (limit : Nat) :
    ∀ d ∈ (ofSource source limit).program.2.diagnostics, d.IsFaultOrIdle := by
  intro d hd
  rw [diagnostics_program, (Diagnostics.perm_sorted _).mem_iff] at hd
  rcases List.mem_append.mp hd with hd | hd
  · exact Diagnostics.isFaultOrIdle_of_mem_tokens hd
  · exact (account_program source limit).1.faultOrIdle d hd

end Parser

/-- Strict reading comes to a tree unless the diagnostics amount to an error. -/
theorem Program.exists_ofValidSource_iff (source : Text) (limit : Nat) :
    (∃ p, ofValidSource source limit = .ok p) ↔
      (Parser.ofSource source limit).program.2.diagnostics.error? limit = none := by
  unfold ofValidSource
  generalize (Parser.ofSource source limit).program = s
  obtain ⟨program, p⟩ := s
  simp only
  split
  · next e he =>
      rw [he]
      constructor
      · rintro ⟨q, hq⟩
        cases hq
      · intro h
        cases h
  · next hnone => exact ⟨fun _ => hnone, fun _ => ⟨program, rfl⟩⟩

/-- Strict reading comes to a tree if and only if the tree that tolerant reading makes of the source has no
flaw and no token of the source lacks its end. There are as many warnings of idle statements as there are
idle statements in the tree. -/
theorem ofValidSource_eq_ok_iff (source : Text) (limit : Nat) :
    ((∃ p, Program.ofValidSource source limit = .ok p) ↔
      (Program.ofSource source limit).Flawless ∧ ∀ t ∈ tokenize source, t.isUnterminated = false) ∧
    (Parser.ofSource source limit).program.2.diagnostics.countP (·.code = Message.emptyStatement.code) =
      (Program.ofSource source limit).descendants.countP Node.isIdle := by
  constructor
  · rw [Program.exists_ofValidSource_iff,
      Diagnostics.error?_eq_none_iff (Parser.isFaultOrIdle_of_mem_diagnostics source limit)]
    exact Parser.hasErrors_diagnostics_program source limit
  · show Diagnostics.idleCount _ = (Parser.ofSource source limit).program.1.descendants.countP Node.isIdle
    rw [Parser.diagnostics_program, Diagnostics.idleCount_sorted, Diagnostics.idleCount_append,
      Diagnostics.idleCount_tokens, Nat.zero_add, Program.countP_isIdle]
    exact (Parser.account_program source limit).1.idle

end LosslessSyntax
