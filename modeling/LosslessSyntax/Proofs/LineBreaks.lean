import LosslessSyntax.Proofs.Parse.ProgramRun
import LosslessSyntax.Proofs.Parse.Survey.Program

/-! Line breaks that end statements. In every state that a reading comes to, what the kinds of the trivia tokens tell of
line breaks in front of the next significant token is what the characters in front of its lexeme tell. So in every tree
an operator behind its operand stands on the same line, and the word for returning has a value if and only if one
begins on its line. -/

namespace LosslessSyntax

open Node

/-- Whether a value is offered tells what the next significant token is and what the trivia in front of it spell. -/
theorem Token.offersValue_iff {ts : List Token} (hread : ∀ t ∈ ts, t.IsRead) :
    offersValue ts = true ↔ ∃ trivia t rest, ts = trivia ++ t :: rest ∧ (∀ u ∈ trivia, u.isTrivia = true) ∧
      t.isTrivia = false ∧ t.kind.startsExpression = true ∧ (restore trivia).hasLineBreak = false := by
  have hvalue (trivia : List Token) (t : Token) (rest : List Token) (hts : ts = trivia ++ t :: rest)
      (htrivia : ∀ u ∈ trivia, u.isTrivia = true) (ht : t.isTrivia = false) : offersValue ts = true ↔
        t.kind.startsExpression = true ∧ (restore trivia).hasLineBreak = false := by
    have hnot : ¬ t.isTrivia = true := ht ▸ Bool.false_ne_true
    have hread' : ∀ u ∈ trivia, u.IsRead := fun u hu => hread u (hts ▸ List.mem_append_left _ hu)
    rw [offersValue, hts, List.dropWhile_append_of_pos htrivia, List.takeWhile_append_of_pos htrivia,
      List.dropWhile_cons_of_neg hnot, List.takeWhile_cons_of_neg hnot, List.append_nil,
      hasLineBreak_restore hread' htrivia, Bool.and_eq_true, Bool.not_eq_true']
  constructor
  · intro h
    have hts : ts.takeWhile isTrivia ++ ts.dropWhile isTrivia = ts := List.takeWhile_append_dropWhile
    cases hrest : ts.dropWhile isTrivia with
    | nil =>
        rw [offersValue, hrest] at h
        cases h
    | cons t rest =>
        have ht := isTrivia_eq_false_of_dropWhile hrest
        have htrivia : ∀ u ∈ ts.takeWhile isTrivia, u.isTrivia = true := List.all_eq_true.mp List.all_takeWhile
        rw [hrest] at hts
        exact ⟨_, t, rest, hts.symm, htrivia, ht, (hvalue _ t rest hts.symm htrivia ht).mp h⟩
  · rintro ⟨trivia, t, rest, hts, htrivia, ht, hoffered⟩
    exact (hvalue trivia t rest hts htrivia ht).mpr hoffered

namespace Machine

variable {source : Text} {limit : Nat}

/-- In a sound state the two ways of telling whether a line ends in front of the next significant token agree. -/
theorem IsSound.followsLineBreak_bump {m : Machine source limit} (h : m.IsSound) (haddress : source.IsAddressable)
    {t : Token} (ht : t ∈ (tokenize source)[m.current]?) :
    m.followsLineBreak? = some m.bump.1.followsLineBreak := by
  obtain ⟨m', hbump, -⟩ := h.mirrors_bump
  have hlexeme : m.bump.1 = m.cursor.bump.1 := congrArg Prod.fst (Option.some.inj hbump)
  have hread : ∀ t ∈ m.cursor.upcoming, t.IsRead :=
    fun t ht => (cut_tokenize source).isRead (List.mem_of_mem_drop ht)
  obtain ⟨ts, hahead⟩ : ∃ ts, m.cursor.ahead = t :: ts := List.head?_eq_some_iff.mp (h.head?_ahead.trans ht)
  rw [h.followsLineBreak?, hlexeme, Cursor.followsLineBreak_bump (isAddressed haddress m) hread hahead]

end Machine

/-- Line breaks tell the same to the reading and to the reader. A program can be run on every source with every limit,
and in every state that a run on an addressable source comes to, if a significant token is left, a line ends in the
trivia tokens in front of it if and only if the lexeme that it becomes next has a character in front that ends a line.
In the tree no operator behind its operand has such a character in front; and in the tree of any source the word for
returning has a value if and only if a significant token follows it that can begin an expression, without any such
character between them, in a comment or not. -/
theorem Program.respects_lineBreaks (source : Text) (limit : Nat) :
    let p := ofSource source limit
    (∃ moments program m, Machine.RunsProgram (.start source limit) moments program m) ∧
      (∀ moments program m, Machine.RunsProgram (.start source limit) moments program m →
        program = p ∧ (source.IsAddressable → ∀ s ∈ Machine.start source limit :: m :: moments,
          ∀ t ∈ (tokenize source)[s.current]?, s.followsLineBreak? = some s.bump.1.followsLineBreak)) ∧
      (source.IsAddressable →
        ∀ operand symbol, .operator (some operand) symbol none ∈ p.descendants → symbol.followsLineBreak = false) ∧
      ∀ place before keyword value, p.Occurs place before (.returning keyword value) →
        (value.isSome = true ↔ ∃ trivia t rest,
          Token.behind (Event.count before + 1) (tokenize source) = trivia ++ t :: rest ∧
            (∀ u ∈ trivia, u.isTrivia = true) ∧ t.isTrivia = false ∧ t.kind.startsExpression = true ∧
              (Token.restore trivia).hasLineBreak = false) := by
  intro p
  have hstart := Machine.isSound_start source limit
  have hall := all_suits source limit
  refine ⟨Machine.RunsProgram.exists_of_isSound hstart rfl, fun moments program m hrun => ?_,
    fun haddress operand symbol hn => ?_, fun place before keyword value hn => ?_⟩
  · obtain ⟨hprogram, hsound, hmoments, -⟩ := hrun.follows hstart rfl
    have hstates := List.forall_mem_cons.mpr ⟨hstart, List.forall_mem_cons.mpr ⟨hsound, hmoments⟩⟩
    exact ⟨(congrArg Prod.fst hprogram).symm,
      fun haddress s hs t ht => (hstates s hs).followsLineBreak_bump haddress ht⟩
  · obtain ⟨place, before, hoccurs⟩ := exists_occurs_iff.mpr hn
    exact (hall place before _ hoccurs).keepsLine (Token.addressed_tokenize haddress)
  · have hvalue : value.isSome = _ := (hall place before _ hn).keepsLine
    rw [hvalue, ← Token.behind_add]
    exact Token.offersValue_iff fun t ht => (cut_tokenize source).isRead (Token.mem_of_mem_behind ht)

/-- The operator on the first line goes with what is in front of it. -/
theorem Program.respects_lineBreaks_increment :
    let source : Text := "a ++\n++ b".toList
    source.IsAddressable ∧ ∀ operand symbol,
      .operator (some operand) symbol none ∈ (ofSource source 8).descendants → symbol.followsLineBreak = false := by
  intro source
  have haddress : source.IsAddressable := by decide +kernel
  exact ⟨haddress, (respects_lineBreaks source 8).2.2.1 haddress⟩

end LosslessSyntax
