import LosslessSyntax.Check.Headline
import LosslessSyntax.Proofs.Text.Lines

/-! The headlines of notices. The headlines of a check are those of its notices, in order, however reports are
rendered; the number of errors is a headline of its own. A report that is rendered plainly has one headline, its
code, since all else in it stands behind a margin. -/

namespace LosslessSyntax

namespace Text

theorem withoutBreak_prefix (line : Text) : withoutBreak line <+: line := by
  unfold withoutBreak
  split
  · next t hline => exact ⟨['\r', '\n'], by rw [← List.reverse_reverse line, hline]; simp⟩
  · next t _ hline => exact ⟨['\n'], by rw [← List.reverse_reverse line, hline]; simp⟩
  · exact List.prefix_rfl

end Text

namespace Check

/-! ### Lines at the margin and behind it -/

/-- A headline stays one, whatever follows on the next lines. -/
theorem headlinesIn_append {line : Text} (hline : isHeadline line = true) (hfeed : '\n' ∉ line)
    (hreturn : '\r' ∉ line) (t : Text) : headlinesIn (line ++ '\n' :: t) = line :: headlinesIn t := by
  have hlast : line.getLast? ≠ some '\r' := fun h => hreturn (List.mem_of_getLast? h)
  rw [headlinesIn, Text.lines_append_lineFeed hfeed, List.map_cons, Text.withoutBreak_append_lineFeed hlast,
    List.filter_cons_of_pos hline]
  rfl

theorem isHeadline_blank_cons (t : Text) : isHeadline (' ' :: t) = false := by
  simp [isHeadline, isCodeLine, isCountLine, isFailureLine, List.isPrefixOf]

/-- Nothing that stands behind a margin is a headline. -/
theorem headlinesIn_indented (t : Text) : headlinesIn (Text.indented [' ', ' '] t ++ ['\n']) = [] := by
  refine List.filter_eq_nil_iff.mpr fun shown hshown => ?_
  obtain ⟨line, hmem, rfl⟩ := List.mem_map.mp hshown
  rw [Bool.not_eq_true]
  rcases Text.margin_of_mem_lines_indented (by decide) hmem with ⟨rest, rfl⟩ | rfl
  · cases hfront : Text.withoutBreak ([' ', ' '] ++ rest) with
    | nil => rfl
    | cons c front =>
        obtain ⟨back, hback⟩ := Text.withoutBreak_prefix ([' ', ' '] ++ rest)
        rw [hfront] at hback
        obtain ⟨rfl, -⟩ := List.cons.inj hback
        exact isHeadline_blank_cons front
  · rfl

/-! ### Codes and counts -/

theorem isDigit_of_mem_toDigits {n : Nat} {c : Char} (h : c ∈ Nat.toDigits 10 n) : isDigit c = true := by
  have hdigit := Nat.isDigit_of_mem_toDigits (by decide) (by decide) h
  simp only [Char.isDigit, Bool.and_eq_true, decide_eq_true_eq] at hdigit
  simp only [isDigit, Bool.and_eq_true, decide_eq_true_eq]
  exact hdigit

theorem not_mem_toDigits {n : Nat} {c : Char} (h : isDigit c = false) : c ∉ Nat.toDigits 10 n := by
  intro hmem
  rw [isDigit_of_mem_toDigits hmem] at h
  cases h

theorem isHeadline_code (n : Nat) : isHeadline ('V' :: 'B' :: Nat.toDigits 10 n) = true := by
  have hdigits : (Nat.toDigits 10 n).all isDigit = true := List.all_eq_true.mpr fun _ => isDigit_of_mem_toDigits
  simp [isHeadline, isCodeLine, hdigits, Nat.toDigits_ne_nil]

theorem isHeadline_count (n : Nat) {unit : Text} (hunit : unit = " error.".toList ∨ unit = " errors.".toList) :
    isHeadline ('F' :: 'o' :: 'u' :: 'n' :: 'd' :: ' ' :: (Nat.toDigits 10 n ++ unit)) = true := by
  have hblank : unit.dropWhile isDigit = unit := by rcases hunit with rfl | rfl <;> rfl
  have hrest : (Nat.toDigits 10 n ++ unit).dropWhile isDigit = unit :=
    (List.dropWhile_append_of_pos fun _ => isDigit_of_mem_toDigits).trans hblank
  obtain ⟨c, digits, hdigits⟩ := List.exists_cons_of_ne_nil (Nat.toDigits_ne_nil (n := n) (b := 10))
  have hhead : (Nat.toDigits 10 n ++ unit).head?.any isDigit = true := by
    rw [hdigits]
    exact isDigit_of_mem_toDigits (hdigits ▸ List.mem_cons_self)
  have hcount : isCountLine ('F' :: 'o' :: 'u' :: 'n' :: 'd' :: ' ' :: (Nat.toDigits 10 n ++ unit)) = true := by
    change ((Nat.toDigits 10 n ++ unit).head?.any isDigit &&
      (decide ((Nat.toDigits 10 n ++ unit).dropWhile isDigit = " error.".toList) ||
        decide ((Nat.toDigits 10 n ++ unit).dropWhile isDigit = " errors.".toList))) = true
    rw [hhead, hrest, Bool.true_and, Bool.or_eq_true, decide_eq_true_eq, decide_eq_true_eq]
    exact hunit
  rw [isHeadline, hcount, Bool.or_true, Bool.true_or]

/-! ### Notices -/

theorem toList_codeName (d : Diagnostic) : d.codeName.toList = 'V' :: 'B' :: Nat.toDigits 10 d.code := by
  simp [Diagnostic.codeName, toString]

theorem exists_toList_plain (d : Diagnostic) (name : String) (source : Text) : ∃ details : Text,
    (Report.of d name source).plain.toList = d.codeName.toList ++ '\n' :: Text.indented [' ', ' '] details := by
  have htext (details : String) : (toString d.codeName ++ toString "\n" ++
      String.ofList (Text.indented [' ', ' '] details.toList)).toList =
        d.codeName.toList ++ '\n' :: Text.indented [' ', ' '] details.toList := by
    simp [toString]
  exact ⟨_, htext _⟩

section

variable (render : Report → String)

theorem text_errorCount (n : Nat) :
    (Notice.errorCount n).text render = "Found " ++ toString n ++ if n = 1 then " error." else " errors." := by
  have hword (unit : String) : toString "Found " ++ toString n ++ toString " error" ++ unit =
      "Found " ++ toString n ++ (" error" ++ unit) := String.append_assoc
  by_cases h : n = 1
  · rw [if_pos h]
    exact (congrArg _ (if_pos h)).trans (hword _)
  · rw [if_neg h]
    exact (congrArg _ (if_neg h)).trans (hword _)

theorem exists_toList_text_errorCount (n : Nat) : ∃ unit : Text, (unit = " error.".toList ∨ unit = " errors.".toList) ∧
    ((Notice.errorCount n).text render).toList =
      'F' :: 'o' :: 'u' :: 'n' :: 'd' :: ' ' :: (Nat.toDigits 10 n ++ unit) := by
  rw [text_errorCount, String.toList_append, String.toList_append, Nat.toString_eq_repr, Nat.toList_repr]
  split
  · exact ⟨_, .inl rfl, rfl⟩
  · exact ⟨_, .inr rfl, rfl⟩

theorem headlinesIn_errorCount (n : Nat) :
    headlinesIn (((Notice.errorCount n).text render).toList ++ ['\n']) =
      [((Notice.errorCount n).text render).toList] := by
  obtain ⟨unit, hunit, htext⟩ := exists_toList_text_errorCount render n
  have hunit' : '\n' ∉ unit ∧ '\r' ∉ unit := by rcases hunit with rfl | rfl <;> decide
  have hplain {c : Char} (hdigit : isDigit c = false) (hletter : c ∉ ['F', 'o', 'u', 'n', 'd', ' ']) (hc : c ∉ unit) :
      c ∉ 'F' :: 'o' :: 'u' :: 'n' :: 'd' :: ' ' :: (Nat.toDigits 10 n ++ unit) := fun hmem =>
    (List.mem_append (s := ['F', 'o', 'u', 'n', 'd', ' ']).mp hmem).elim hletter fun hmem =>
      (List.mem_append.mp hmem).elim (not_mem_toDigits hdigit) hc
  rw [htext, headlinesIn_append (isHeadline_count n hunit) (hplain rfl (by decide) hunit'.1)
    (hplain rfl (by decide) hunit'.2)]
  rfl

/-- What is printed as notices is one notice after another, each on lines of its own. -/
theorem Outcome.toList_noticeText (o : Outcome) :
    (o.noticeText render).toList = o.notices.flatMap fun n => (n.text render).toList ++ ['\n'] := by
  rw [noticeText, String.toList_join, List.flatMap_map]
  simp only [String.toList_append]
  rfl

/-- The headlines of a check are those of its notices, one notice after another. -/
theorem Outcome.headlines_eq (o : Outcome) :
    o.headlines render = o.notices.flatMap fun n => headlinesIn ((n.text render).toList ++ ['\n']) := by
  rw [headlines, headlinesIn, o.toList_noticeText render, Text.lines_flatMap_lineFeed, List.map_flatMap,
    List.filter_flatMap]
  rfl

end

/-- Whether the only headline of a report is its code, when it is rendered so. -/
def ShowsCode (render : Report → String) (r : Report) : Prop :=
  headlinesIn ((render r).toList ++ ['\n']) = [r.code.toList]

theorem showsCode_plain (d : Diagnostic) (name : String) (source : Text) :
    ShowsCode Report.plain (.of d name source) := by
  obtain ⟨details, htext⟩ := exists_toList_plain d name source
  have hplain {c : Char} (hdigit : isDigit c = false) (hletter : c ∉ ['V', 'B']) :
      c ∉ 'V' :: 'B' :: Nat.toDigits 10 d.code := fun hmem =>
    (List.mem_append (s := ['V', 'B']).mp hmem).elim hletter (not_mem_toDigits hdigit)
  rw [ShowsCode, htext, List.append_assoc, List.cons_append, toList_codeName,
    headlinesIn_append (isHeadline_code d.code) (hplain rfl (by decide)) (hplain rfl (by decide)),
    headlinesIn_indented, Report.of, toList_codeName]

end Check

end LosslessSyntax
