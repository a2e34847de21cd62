import LosslessSyntax.Proofs.Parse.Account.Program
import LosslessSyntax.Proofs.Parse.Layout

/-! The layout of whole programs. Whatever the source is and wherever reading is given up, the tree has the shape that
the rest of the library relies on, and comments stand where one rule puts them: as much as trails a statement is in its
closure, and what is left between the statements stands on other lines. -/

namespace LosslessSyntax

open Rule Node

/-- The lists of statements of a program in which comments are attached: its declarations, and what stands between the
braces of its blocks. -/
def Program.statementLists (p : Program) : List (List Node) :=
  p.declarations :: p.descendants.flatMap fun n => (n.blocks.filter Block.isBraced).map (·.statements)

/-- Where no token is taken, none of the trivia in front of it are. -/
theorem Rule.trivia_lexemesUntil (stops : Kind → Bool) :
    Triple (fun c => c.trivia = []) (lexemesUntil stops) fun lexemes c => lexemes = [] → c.trivia = [] := by
  refine (Triple.collect (J := fun lexemes c => lexemes = [] → c.trivia = []) fun lexemes => ?_).of_imp fun _ hc _ => hc
  refine Triple.kind_bind fun k => Triple.ite (fun _ => Triple.pure fun c hc hnone => hc.1 ?_) fun _ c _ hsome => ?_
  · simpa using hnone
  · simp at hsome

/-- What is taken at the end as it stands begins with no blanks and no comments, if none were left. -/
theorem Cursor.takeWhile_salvage {c : Cursor} (h : c.upcoming = c.ahead) :
    c.salvage.1.takeWhile Node.isTrivia = [] := by
  have htrivia : c.trivia = [] := List.append_left_eq_self.mp (c.trivia_append_ahead.trans h)
  unfold salvage
  by_cases hgiven : c.givenUp = true
  · rw [if_pos hgiven]
    have hnone := trivia_lexemesUntil (fun _ => false) { c with givenUp := false } htrivia
    generalize (lexemesUntil fun _ => false).run { c with givenUp := false } = s at hnone
    obtain ⟨lexemes, d⟩ := s
    cases lexemes with
    | nil =>
        have : d.trivia = [] := hnone rfl
        simp [takeTrivia, this, Token.triviaNodes]
    | cons => rfl
  · rw [if_neg hgiven]
    rfl

/-- The declarations of a source are laid out as they should be, down to the innermost node. -/
theorem Program.arranges_ofSource (source : Text) (limit : Nat) :
    let declarations := (ofSource source limit).declarations
    (∀ n ∈ declarations, n.IsArranged) ∧ (∀ n ∈ declarations, n.isEntry = true) ∧ PlacesComments declarations := by
  have hread := Parser.isRead_ofSource source limit
  have hlevels := Level.arranges_ofRemaining limit limit
  obtain ⟨harranged, hentries, hcomments⟩ := Level.arranges_statements hlevels false _ hread trivial
  have hend := (Level.statements_end (Level.outermost limit) (Parser.ofSource source limit).cursor trivial).1
  have hrest {P : Node → Prop} := Cursor.forall_mem_salvage (P := P)
  intro declarations
  refine ⟨List.forall_mem_append.mpr ⟨harranged, hrest Level.isArranged_unparsed (fun _ => isArranged_of_isTrivia) _⟩,
    List.forall_mem_append.mpr ⟨hentries, hrest (fun _ => rfl) (fun _ => isEntry_of_isTrivia) _⟩,
    hcomments.append (placesComments_of_not_command fun inner semicolon closure hcommand => ?_)
      (Cursor.takeWhile_salvage hend)⟩
  have hother : Node.isCommand (.command inner semicolon closure) = false :=
    hrest (P := fun n => n.isCommand = false) (fun _ => rfl)
      (fun n hn => by cases n <;> first | rfl | cases hn) _ _ hcommand
  cases hother

/-- Every tree that is read has the shape that it should have, be the source well formed or not and be the limit passed
or not. In lists of statements there are only blanks, comments, statements and what could not be read; there are as many
commas as items or one fewer, as many clauses and separators as the form of a choice or a loop has, braces in pairs, and
nothing but a single statement without them; only in front of an `else` there are comments behind a body; and statements
that end with a body have no semicolon, where empty ones always have one. -/
theorem Program.everywhere_isShaped (source : Text) (limit : Nat) :
    (∀ n ∈ (ofSource source limit).declarations, n.isEntry = true) ∧
      (ofSource source limit).Everywhere Node.IsShaped := by
  obtain ⟨harranged, hentries, -⟩ := arranges_ofSource source limit
  exact ⟨hentries, fun n hn => (everywhere_iff.mpr harranged n hn).isShaped⟩

theorem Program.placesComments_of_mem_statementLists {source : Text} {limit : Nat} {nodes : List Node}
    (h : nodes ∈ (ofSource source limit).statementLists) : PlacesComments nodes := by
  obtain ⟨harranged, -, hcomments⟩ := arranges_ofSource source limit
  rcases List.mem_cons.mp h with rfl | h
  · exact hcomments
  · obtain ⟨n, hn, hnodes⟩ := List.mem_flatMap.mp h
    obtain ⟨b, hb, rfl⟩ := List.mem_map.mp hnodes
    obtain ⟨hb, hbraced⟩ := List.mem_filter.mp hb
    exact ((everywhere_iff.mpr harranged n hn).blocks b hb).comments hbraced

/-- In every list of statements of every tree that is read the closure of a statement is as much of the blanks and
comments behind it as trails it. So a comment that is left behind a statement stands on another line than its end; and a
closure ends in a comment, unless it is empty, with no line break in it but in that comment. -/
theorem Program.placesComments_statementLists (source : Text) (limit : Nat) :
    let lists := (ofSource source limit).statementLists
    (∀ nodes ∈ lists, PlacesComments nodes) ∧
      ∀ nodes ∈ lists, ∀ front inner semicolon closure behind,
        nodes = front ++ .command inner semicolon closure :: behind →
          (∀ mid text back, behind = mid ++ .comment text :: back → (∀ n ∈ mid, n.isTrivia = true) →
            (restoreList (closure ++ mid)).hasLineBreak = true) ∧
          (closure ≠ [] → ∃ init text, closure = init ++ [.comment text]) ∧
          (∀ blanks, .whitespace blanks ∈ closure → blanks.hasLineBreak = false) ∧
          ∀ n ∈ closure.dropLast, n.restore.hasLineBreak = false := by
  refine ⟨fun nodes => placesComments_of_mem_statementLists,
    fun nodes hnodes front inner semicolon closure behind heq => ?_⟩
  have h := placesComments_of_mem_statementLists hnodes
  have htrails : Trails closure := (h _ _ _ _ _ heq).1
  refine ⟨fun mid text back hbehind hmid => ?_, htrails.exists_eq_concat, fun _ => htrails.hasLineBreak_of_whitespace,
    htrails.hasLineBreak_of_mem_dropLast⟩
  rw [hbehind] at heq
  exact h.hasLineBreak_of_comment heq hmid

end LosslessSyntax
