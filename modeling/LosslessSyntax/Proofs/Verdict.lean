import LosslessSyntax.Proofs.Check.Headline
import LosslessSyntax.Proofs.LineDiff
import LosslessSyntax.Proofs.Restoration
import LosslessSyntax.Proofs.Strictness

/-! The verdict of a check. The tokens and the tree of an addressable source restore it, so a check fails if and only
if strict reading refuses the source, and it has nothing to say but what is wrong. What is printed besides does not
matter to the verdict. -/

namespace LosslessSyntax

theorem LineDiff.ofLines_self (line : Nat) (ls : List Text) : ofLines line ls ls = .same := by
  induction ls generalizing line with
  | nil => rfl
  | cons l ls ih =>
      rw [ofLines, if_pos rfl]
      exact ih (line + 1)

namespace Parser

/-- Strict reading refuses a source for the errors among the diagnostics. -/
theorem exists_ofValidSource_iff_errorCount (source : Text) (limit : Nat) :
    (∃ p, Program.ofValidSource source limit = .ok p) ↔
      (ofSource source limit).program.2.diagnostics.errorCount = 0 := by
  rw [Program.exists_ofValidSource_iff, Diagnostics.error?_eq_none_iff (isFaultOrIdle_of_mem_diagnostics source limit),
    ← Bool.not_eq_true, Diagnostics.hasErrors_iff, Nat.pos_iff_ne_zero, not_not]

end Parser

namespace Check

theorem restoration_self (stage : String) (source : Text) : restoration stage source source = [] := by
  rw [restoration, LineDiff.between, LineDiff.ofLines_self]
  rfl

/-- The notices that say how many errors there are: none if there is none. -/
def countNotices (ds : Diagnostics) : List Notice := if ds.errorCount = 0 then [] else [.errorCount ds.errorCount]

/-- The diagnostics that a check reports. -/
def reported (ds : Diagnostics) (quiet : Bool) : Diagnostics := ds.filter fun d => d.isError || !quiet

theorem length_reported (ds : Diagnostics) (quiet : Bool) :
    (reported ds quiet).length = ds.countP (·.isError) + if quiet then 0 else ds.countP fun d => !d.isError := by
  cases quiet with
  | true => simp [reported, List.countP_eq_length_filter]
  | false => simpa [reported] using List.length_eq_countP_add_countP Diagnostic.isError (l := ds)

section

variable (name : String) {source : Text} (h : source.IsAddressable) (o : Options)
include h

/-- The tokens and the tree of a source both restore it. -/
theorem restoration_ofSource :
    restoration "token" source (Token.restore (tokenize source)) ++
      restoration "AST" source (Parser.ofSource source o.limit).program.1.restore = [] := by
  rw [restore_tokenize, Parser.restore_of_spells (Parser.spells_program h o.limit), restoration_self, restoration_self,
    List.append_nil]

theorem notices_ofSource :
    let noted := (Parser.ofSource source o.limit).program.2.diagnostics
    (ofSource name source o).notices =
      (reported noted o.quiet).map (fun d => .report (.of d name source)) ++ countNotices noted := by
  intro noted
  change restoration "token" source (Token.restore (tokenize source)) ++
    restoration "AST" source (Parser.ofSource source o.limit).program.1.restore ++ _ ++ _ = _
  rw [restoration_ofSource h]
  rfl

theorem verdict_ofSource :
    (ofSource name source o).verdict =
      if (Parser.ofSource source o.limit).program.2.diagnostics.errorCount = 0 then .restored else .failed := by
  change (if (!(restoration "token" source (Token.restore (tokenize source)) ++
    restoration "AST" source (Parser.ofSource source o.limit).program.1.restore).isEmpty ||
      decide ((Parser.ofSource source o.limit).program.2.diagnostics.errorCount ≠ 0)) = true then _ else _) = _
  rw [restoration_ofSource h]
  split <;> simp_all

/-- The headlines of a check are the codes of what it reports and the number of errors, if reports are rendered so
that their codes are the only headlines in them. -/
theorem headlines_ofSource {render : Report → String}
    (hrender : ∀ d ∈ (Parser.ofSource source o.limit).program.2.diagnostics, ShowsCode render (.of d name source)) :
    let noted := (Parser.ofSource source o.limit).program.2.diagnostics
    (ofSource name source o).headlines render =
      (reported noted o.quiet).map (·.codeName.toList) ++ (countNotices noted).map (·.text render |>.toList) := by
  intro noted
  have hcount : (countNotices noted).flatMap (fun n => headlinesIn ((n.text render).toList ++ ['\n'])) =
      (countNotices noted).map (·.text render |>.toList) := by
    unfold countNotices
    split
    · rfl
    · exact (List.flatMap_singleton _ _).trans (headlinesIn_errorCount render _)
  have hreports :
      (reported noted o.quiet).flatMap (fun d => headlinesIn ((render (.of d name source)).toList ++ ['\n'])) =
        (reported noted o.quiet).map (·.codeName.toList) := by
    rw [List.map_eq_flatMap]
    exact List.flatMap_congr fun d hd => hrender d (List.mem_of_mem_filter hd)
  rw [Outcome.headlines_eq, notices_ofSource name h, List.flatMap_append, List.flatMap_map, hcount]
  exact congrArg (· ++ _) hreports

end

/-- The line that tells the number of errors: none if there is none. -/
def countText (total : Nat) : String :=
  if total = 0 then "" else "Found " ++ toString total ++ (if total = 1 then " error." else " errors.") ++ "\n"

theorem toList_countText (render : Report → String) (ds : Diagnostics) :
    (countText ds.errorCount).toList = (countNotices ds).flatMap fun n => (n.text render).toList ++ ['\n'] := by
  unfold countText countNotices
  split
  · rfl
  · rw [List.flatMap_singleton, text_errorCount]
    simp only [String.toList_append]
    rfl

/-- Reports and the number of errors as they are printed, each on lines of its own. -/
theorem noticeText_eq {o : Outcome} (render : Report → String) {rs : List Report} {ds : Diagnostics}
    (h : o.notices = rs.map .report ++ countNotices ds) :
    o.noticeText render = String.join (rs.map fun r => render r ++ "\n") ++ countText ds.errorCount := by
  apply String.toList_injective
  rw [o.toList_noticeText, h, List.flatMap_append, String.toList_append, toList_countText render, String.toList_join,
    List.flatMap_map, List.flatMap_map]
  simp only [String.toList_append]
  rfl

/-- A source that can be read, and whose bytes all have an offset, passes the check if and only if strict reading
accepts it, and fails it otherwise, whatever else is to be printed. Restoration never fails. Every error is reported,
and unless the check is quiet everything else as well, in the order of the diagnostics; behind that the number of
errors is told if there are any. Nothing else is printed, however reports are rendered. Of a file that cannot be read
nothing is told but why. -/
theorem exitCode_ofContent (path : String) (o : Options) :
    (∀ source : Text, source.IsAddressable →
      let outcome := ofContent path (.ok source) o
      let noted := (Parser.ofSource source o.limit).program.2.diagnostics
      let shown := noted.filter fun d => d.isError || !o.quiet
      let total := noted.countP (·.isError)
      (outcome.verdict.exitCode = 0 ↔ ∃ p, Program.ofValidSource source o.limit = .ok p) ∧
      (outcome.verdict.exitCode = 2 ↔ ¬∃ p, Program.ofValidSource source o.limit = .ok p) ∧
      (∀ tokens shapes quiet,
        (ofContent path (.ok source) ⟨tokens, shapes, quiet, o.limit⟩).verdict = outcome.verdict) ∧
      (∀ stage difference, .unrestored stage difference ∉ outcome.notices) ∧
      outcome.notices = shown.map (fun d => .report (.of d path source)) ++
        (if total = 0 then [] else [.errorCount total]) ∧
      shown.length = total + (if o.quiet then 0 else noted.countP fun d => !d.isError) ∧
      ∀ render, outcome.noticeText render = String.join (shown.map fun d => render (.of d path source) ++ "\n") ++
        if total = 0 then ""
        else "Found " ++ toString total ++ (if total = 1 then " error." else " errors.") ++ "\n") ∧
    ∀ fault : ReadFault,
      let outcome := ofContent path (.error fault) o
      outcome.verdict.exitCode = 1 ∧ outcome.outputText = "" ∧
        outcome.notices = [.unreadable path fault] ∧
        ∀ render, outcome.noticeText render = "error: cannot read '" ++ path ++ "': " ++ fault.message ++ "\n" := by
  refine ⟨fun source h => ?_, fun fault => ⟨rfl, rfl, rfl, fun render => ?_⟩⟩
  · intro outcome noted shown total
    have hverdict : outcome.verdict = if total = 0 then .restored else .failed := verdict_ofSource path h o
    have hnotices : outcome.notices = shown.map (fun d => .report (.of d path source)) ++
        (if total = 0 then [] else [.errorCount total]) := notices_ofSource path h o
    have haccepted : (∃ p, Program.ofValidSource source o.limit = .ok p) ↔ total = 0 :=
      Parser.exists_ofValidSource_iff_errorCount source o.limit
    refine ⟨?_, ?_, fun tokens shapes quiet => ?_, fun stage difference hmem => ?_, hnotices,
      length_reported noted o.quiet, fun render => ?_⟩
    · rw [haccepted, hverdict]
      by_cases htotal : total = 0 <;> simp [htotal, Verdict.exitCode]
    · rw [haccepted, hverdict]
      by_cases htotal : total = 0 <;> simp [htotal, Verdict.exitCode]
    · exact (verdict_ofSource path h _).trans hverdict.symm
    · rw [hnotices] at hmem
      split at hmem <;> simp at hmem
    · have hreports : outcome.notices =
          (shown.map fun d => Report.of d path source).map .report ++ countNotices noted :=
        hnotices.trans (congrArg (· ++ _) (List.map_map ..).symm)
      exact (noticeText_eq render hreports).trans (congrArg (String.join · ++ _) (List.map_map ..))
  · apply String.toList_injective
    change (String.join [toString "error: " ++ toString (toString "cannot read '" ++ toString path ++ toString "'") ++
      toString ": " ++ toString fault.message ++ "\n"]).toList = _
    simp [toString]

/-- A string that lacks its end fails the check, but not because it is not restored. -/
theorem exitCode_ofContent_open_string :
    let source : Text := ['"', 'a']
    let outcome := ofContent "open.txt" (.ok source) {}
    source.IsAddressable ∧ outcome.verdict.exitCode = 2 ∧
      ∀ stage difference, .unrestored stage difference ∉ outcome.notices := by
  intro source outcome
  have haddress : source.IsAddressable := by decide
  obtain ⟨-, hfails, -, hrestored, -⟩ := (exitCode_ofContent "open.txt" {}).1 source haddress
  refine ⟨haddress, hfails.mpr ?_, hrestored⟩
  have hopen : ¬∀ t ∈ tokenize source, t.isUnterminated = false := by decide +kernel
  rw [Program.exists_ofValidSource_iff, Diagnostics.error?_eq_none_iff (Parser.isFaultOrIdle_of_mem_diagnostics _ _),
    Parser.hasErrors_diagnostics_program]
  exact fun h => hopen h.2

/-- Beyond the last address restoration may fail. -/
theorem exists_unrestored (name : String) :
    ∃ source difference, .unrestored "AST" difference ∈ (ofSource name source { limit := 0 }).notices := by
  obtain ⟨source, hlost⟩ := Parser.exists_restore_program_ne
  have hdiffers : ¬(LineDiff.between source (Parser.ofSource source 0).program.1.restore).isSame = true := by
    intro hsame
    have hdescribed := LineDiff.describes_between source (Parser.ofSource source 0).program.1.restore
    rw [of_decide_eq_true hsame] at hdescribed
    exact hlost hdescribed.symm
  have hnoticed : restoration "AST" source (Parser.ofSource source 0).program.1.restore =
      [.unrestored "AST" (LineDiff.between source (Parser.ofSource source 0).program.1.restore)] := if_neg hdiffers
  refine ⟨source, LineDiff.between source (Parser.ofSource source 0).program.1.restore, ?_⟩
  change _ ∈ restoration "token" source (Token.restore (tokenize source)) ++
    restoration "AST" source (Parser.ofSource source 0).program.1.restore ++ _ ++ _
  rw [hnoticed]
  exact List.mem_append_left _ (List.mem_append_left _ (List.mem_append_right _ (List.mem_singleton_self _)))

end Check

end LosslessSyntax
