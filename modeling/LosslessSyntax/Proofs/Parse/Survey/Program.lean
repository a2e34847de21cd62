import LosslessSyntax.Proofs.NestingLimit
import LosslessSyntax.Proofs.Parse.Survey.Statement

/-! The survey of whole sources. Every level keeps it, by induction from the limit up to the outermost one. So all nodes
of a program suit the tokens that they stand in front of; if reading was given up, only unparsed nodes may not. -/

namespace LosslessSyntax

open Rule

namespace Level

variable {source : List Token} {ps : List Spot}

/-- Where reading is given up, nothing is taken, and the end of input is next. -/
theorem surveys_refuse (limit : Nat) (place : Place) :
    Triple (Survey source ps) (refuse limit) fun n c => n.Solid c ∧ Survey source (ps ++ [n.placed place]) c := by
  have hgiveUp : Triple (Survey source ps) giveUp fun _ c => c.givenUp = true ∧ Survey source ps c :=
    fun c h => ⟨rfl, h.giveUp⟩
  refine (surveys_report _ _).bind fun _ => hgiveUp.bind fun _ => Triple.pure fun c ⟨hgiven, h⟩ => ⟨⟨rfl, .inr ?_⟩, ?_⟩
  · rw [Cursor.kind, if_pos hgiven]
    rfl
  · exact h.append_nil.node ⟨trivial, trivial, fun hexcused => absurd hgiven (hexcused ▸ Bool.false_ne_true)⟩

/-- Beyond the limit nothing is read, and a level keeps the survey if the next one does. -/
theorem surveys_ofRemaining (limit remaining : Nat) : (ofRemaining limit remaining).Surveys source := by
  induction remaining with
  | zero =>
      exact {
        statement := fun place ps => (surveys_refuse limit place).imp (fun _ h => h.1) fun _ _ h => h.2
        expression := fun ps => surveys_refuse limit .within
        prefixed := fun ps => surveys_refuse limit .within }
  | succ remaining ih =>
      exact {
        statement := surveys_statementHere ih
        expression := surveys_assignment ih
        prefixed := surveys_operation ih }

end Level

/-- What is taken as it stands after reading was given up holds no nodes but trivia and one that is excused. -/
theorem Cursor.all_salvage (c : Cursor) (exact : Prop) (ts : List Token) :
    Spot.All (Node.Suits exact c.givenUp) ts (c.salvage.1.map (Node.placed (.listed false))) := by
  unfold salvage
  by_cases hgiven : c.givenUp = true
  · rw [if_pos hgiven, hgiven]
    generalize (lexemesUntil fun _ => false).run { c with givenUp := false } = s
    change Spot.All _ ts (List.map _ ((if s.1.isEmpty then [] else [.unparsed s.1]) ++ s.2.takeTrivia.1))
    rw [List.map_append, Spot.all_append]
    refine ⟨?_, Spot.all_of_isTrivia Token.isTrivia_triviaNodes⟩
    split
    · exact Spot.all_nil
    · exact Spot.all_placed.mpr ⟨⟨trivial, trivial, nofun⟩, Spot.all_lexemes s.1⟩
  · rw [if_neg hgiven]
    exact Spot.all_nil

/-- All nodes of a program suit the tokens that they stand in front of. -/
theorem Program.all_suits (source : Text) (limit : Nat) :
    let exact := Token.Addressed source (tokenize source)
    Spot.All (Node.Suits exact (Parser.ofSource source limit).program.2.isTooDeep) (tokenize source)
      (Program.ofSource source limit).spots := by
  intro exact
  rw [Parser.isTooDeep_program]
  have hread : ∀ t ∈ tokenize source, t.IsRead := fun t ht => (cut_tokenize source).isRead ht
  have hstart : Survey (tokenize source) [] (Parser.ofSource source 0).cursor := .start hread
  have hstatements := Level.surveys_statements (Level.surveys_ofRemaining limit limit) false [] _ hstart
  change Spot.All _ (tokenize source) (List.map _ ((Parser.statements source limit).1 ++
    (Parser.statements source limit).2.salvage.1))
  rw [List.map_append, Spot.all_append]
  have hall := hstatements.all
  rw [Rule.source_run] at hall
  exact ⟨hall, Cursor.all_salvage _ _ _⟩

end LosslessSyntax
