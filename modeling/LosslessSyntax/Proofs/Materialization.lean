import LosslessSyntax.Proofs.Comments
import LosslessSyntax.Proofs.Layout
import LosslessSyntax.Proofs.Parse.Materialization
import LosslessSyntax.Proofs.Restoration

/-! Trivia that are shown in whole programs. Whatever the source is and wherever reading is given up, the blanks and
comments around the statements of every list are nodes of the list or of a closure, and no statement hides any in its
first lexeme; what is taken as it stands behind the place where reading was given up is no exception. -/

namespace LosslessSyntax

open Rule Node

namespace Program

/-- The lists of statements of a program: its declarations, and the statements of all blocks, within braces or not,
`else` branches included. -/
def entryLists (p : Program) : List (List Node) :=
  p.declarations :: p.descendants.flatMap fun n => n.blocks.map (·.statements)

end Program

/-- What is taken at the end as it stands shows its trivia, if none were left in front of it. -/
theorem Cursor.shows_salvage {tokens : List Token} (hread : ∀ t ∈ tokens, t.IsRead) {c : Cursor}
    (hholds : c.Holds tokens) (hnone : c.trivia = []) :
    ShowTrivia c.salvage.1 ∧ ∀ n ∈ c.salvage.1, n.ShowsAllTrivia tokens := by
  unfold salvage
  by_cases hgiven : c.givenUp = true
  · rw [if_pos hgiven]
    have hseen : Holds tokens { c with givenUp := false } := ⟨hholds.addressed, hholds.upcoming⟩
    have hafter := hseen.run (lexemesUntil fun _ => false)
    have hbare := leading_lexemesUntil (fun _ => false) { c with givenUp := false } hnone
    have htrivia := trivia_lexemesUntil (fun _ => false) { c with givenUp := false } hnone
    generalize (lexemesUntil fun _ => false).run { c with givenUp := false } = s at hafter hbare htrivia
    obtain ⟨lexemes, d⟩ := s
    have hrest := hafter.areShownTrivia_takeTrivia hread
    cases lexemes with
    | nil =>
        have hnothing : d.trivia = [] := htrivia rfl
        simp [takeTrivia, hnothing, Token.triviaNodes, showTrivia_nil]
    | cons lexeme lexemes =>
        have hunparsed : (unparsed (lexeme :: lexemes)).BeginsBare := beginsBare_unparsed hbare
        refine ⟨⟨List.forall_mem_cons.mpr ⟨fun _ => hunparsed, hrest.areShown.bare⟩, ?_⟩, ?_⟩
        · exact List.isChain_cons.mpr ⟨fun _ _ => .inl rfl, hrest.apart⟩
        · exact List.forall_mem_cons.mpr ⟨showsAllTrivia_leaf rfl rfl, hrest.shown⟩
  · rw [if_neg hgiven]
    exact ⟨showTrivia_nil, fun _ hn => absurd hn List.not_mem_nil⟩

theorem Cursor.isWhitespace_salvage {c : Cursor} (h : c.upcoming = c.ahead) :
    ∀ n ∈ c.salvage.1.head?, n.isWhitespace = false := by
  intro n hn
  obtain ⟨others, hothers⟩ := List.head?_eq_some_iff.mp hn
  have hfirst := takeWhile_salvage h
  rw [hothers] at hfirst
  cases n with
  | whitespace run => cases hfirst
  | _ => rfl

/-- The declarations of an addressable source show all trivia, down to the innermost node. -/
theorem Program.shows_ofSource {source : Text} (h : source.IsAddressable) (limit : Nat) :
    ShowTrivia (ofSource source limit).declarations ∧
      ∀ n ∈ (ofSource source limit).declarations, n.ShowsAllTrivia (tokenize source) := by
  have hread : ∀ t ∈ tokenize source, t.IsRead := fun t ht => (cut_tokenize source).isRead ht
  have hlevels := Level.shows_ofRemaining hread limit limit
  have hstart : (Parser.ofSource source limit).cursor.Holds (tokenize source) :=
    ⟨Token.addressed_tokenize h, fun _ => id⟩
  obtain ⟨⟨hshow, hshown⟩, hholds⟩ := Level.shows_statements hlevels false _ hstart
  have hend := (Level.statements_end (Level.outermost limit) (Parser.ofSource source limit).cursor trivial).1
  have hnone := List.append_left_eq_self.mp ((Cursor.trivia_append_ahead _).trans hend)
  obtain ⟨hrest, hrestShown⟩ := Cursor.shows_salvage hread hholds hnone
  have hfirst := Cursor.isWhitespace_salvage hend
  exact ⟨hshow.append hrest fun _ _ n hn => .inr (hfirst n hn), List.forall_mem_append.mpr ⟨hshown, hrestShown⟩⟩

/-- The trivia around statements are always nodes. In every list of statements of every tree of an addressable source,
in braces or not and behind every `else`, what is neither blanks nor a comment begins with a lexeme that has no trivia
in front, if it has any lexemes. A node of blanks is not empty and holds nothing but blanks and line breaks; a comment
is the text of one token, and of no token twice, for the comments are those of some comment tokens in their order; and
no two nodes of blanks stand next to each other, neither in a list of statements nor in the closure of a statement or a
block. -/
theorem Program.materializes_trivia {source : Text} (h : source.IsAddressable) (limit : Nat) :
    let p := ofSource source limit
    (∀ nodes ∈ p.entryLists, ∀ n ∈ nodes, n.isTrivia = false → ∀ l ∈ n.lexemes.head?, l.leading = []) ∧
      (∀ run, .whitespace run ∈ p.descendants → run ≠ [] ∧ ∀ c ∈ run, isBlank c = true ∨ isLineBreak c = true) ∧
      (∀ text, .comment text ∈ p.descendants → ∃ t ∈ tokenize source, t.kind.isComment = true ∧ t.text = text) ∧
      (p.descendants.filterMap comment?).Sublist (((tokenize source).filter (·.kind.isComment)).map Token.text) ∧
      (∀ nodes ∈ p.entryLists, BlanksApart nodes) ∧
      (∀ inner semicolon closure, .command inner semicolon closure ∈ p.descendants → BlanksApart closure) ∧
      ∀ n ∈ p.descendants, ∀ b ∈ n.blocks, BlanksApart b.closure := by
  intro p
  obtain ⟨hdeclarations, hshown⟩ := shows_ofSource h limit
  have hall : p.Everywhere (ShowsTrivia (tokenize source)) := everywhere_iff.mpr hshown
  have hlists : ∀ nodes ∈ p.entryLists, ShowTrivia nodes := by
    refine List.forall_mem_cons.mpr ⟨hdeclarations, List.forall_mem_flatMap.mpr fun n hn =>
      List.forall_mem_map.mpr fun b hb => ?_⟩
    exact ((hall n hn).blocks b hb).statements
  have hcomments : ∀ text ∈ p.descendants.filterMap comment?,
      ∃ t : Token, t.IsRead ∧ t.kind.isComment = true ∧ t.text = text := by
    intro text htext
    obtain ⟨n, hn, hcomment⟩ := List.mem_filterMap.mp htext
    obtain ⟨t, ht, hkind⟩ := (hall n hn).comment text (eq_comment_of_comment? hcomment)
    exact ⟨t, (cut_tokenize source).isRead ht, hkind⟩
  exact ⟨fun nodes hnodes => (hlists nodes hnodes).bare, fun run hrun => (hall _ hrun).blanks run rfl,
    fun text htext => (hall _ htext).comment text rfl,
    (Parser.spells_program h limit).sublist_comments (cut_tokenize source) hcomments p.sublist_comments,
    fun nodes hnodes => (hlists nodes hnodes).apart,
    fun inner semicolon closure hcommand => (hall _ hcommand).closure inner semicolon closure rfl,
    fun n hn b hb => ((hall n hn).blocks b hb).closure⟩

/-- Blanks and a comment in front of a choice, and blanks on the next line. -/
theorem Program.materializes_trivia_choice :
    let source : Text := "  /**/ if (a) b // c\n else d".toList
    source.IsAddressable ∧
      ∀ nodes ∈ (ofSource source 8).entryLists, ∀ n ∈ nodes, n.isTrivia = false →
        ∀ l ∈ n.lexemes.head?, l.leading = [] := by
  intro source
  have haddress : source.IsAddressable := by decide +kernel
  exact ⟨haddress, (materializes_trivia haddress 8).1⟩

/-- Beyond the last address blanks may become a node that is empty. -/
theorem Program.exists_empty_whitespace : ∃ source, .whitespace [] ∈ (ofSource source 0).descendants := by
  obtain ⟨n, hn⟩ := exists_word_eq_zero
  refine ⟨Text.signBehindBlanks n, ?_⟩
  rw [ofSource, Parser.program_signBehindBlanks hn, descendants, List.flatMap_cons, Node.descendants_eq]
  exact List.mem_append_left _ List.mem_cons_self

end LosslessSyntax
