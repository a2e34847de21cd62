import LosslessSyntax.Proofs.Parse.Blind

/-! Spacing does not matter. Sources of which reading sees the same come to the same tree, apart from the blanks and
comments in it, and the same is noted about them, only at other places. -/

namespace LosslessSyntax

open Rule

namespace Cursor.Matches

/-- Parsers of sources of which reading sees the same start out with matching cursors. -/
theorem ofSource {source source' : Text}
    (h : Token.cues false false (tokenize source) = Token.cues false false (tokenize source')) (limit : Nat) :
    Matches false (Parser.ofSource source limit).cursor (Parser.ofSource source' limit).cursor where
  givenUp := rfl
  cues := h
  last := (Scanner.text_token_finish _).trans (Scanner.text_token_finish _).symm
  gists := rfl
  isRead := ⟨Parser.isRead_ofSource source limit, Parser.isRead_ofSource source' limit⟩

/-- What is taken after reading was given up looks the same for matching cursors. -/
theorem salvage {c d : Cursor} (h : Matches false c d) :
    Node.bareStatements c.salvage.1 = Node.bareStatements d.salvage.1 ∧ Matches false c.salvage.2 d.salvage.2 := by
  have hread : Matches false { c with givenUp := false } { d with givenUp := false } := { h with givenUp := rfl }
  obtain ⟨hlexemes, hrest⟩ := Coupled.lexemesUntil (fun _ => false) _ _ hread trivial
  obtain ⟨htrivia, hend⟩ := Coupled.takeTrivia (p := fun _ => True) _ _ hrest trivial
  have hunparsed {ls ms : List Lexeme} (hls : ls.map Lexeme.bare = ms.map Lexeme.bare) :
      Node.bareStatements (if ls.isEmpty then [] else [.unparsed ls]) =
        Node.bareStatements (if ms.isEmpty then [] else [.unparsed ms]) := by
    have hempty : ls.isEmpty = ms.isEmpty := by simpa using congrArg List.isEmpty hls
    rw [hempty]
    split
    · rfl
    · simp [Node.bareStatements_cons, Node.isTrivia, hls]
  unfold Cursor.salvage
  by_cases hgiven : c.givenUp = true
  · rw [if_pos hgiven, if_pos (h.givenUp ▸ hgiven)]
    refine ⟨?_, hend⟩
    rw [Node.bareStatements_append, Node.bareStatements_append]
    exact congrArg₂ (· ++ ·) (hunparsed hlexemes) htrivia
  · rw [if_neg hgiven, if_neg (h.givenUp ▸ hgiven)]
    exact ⟨rfl, h⟩

end Cursor.Matches

/-- Trivia do not influence the shape of a tree. If the significant tokens of two sources agree in kind and text, and
in whether a line ends in front of every `++` and `--` and of every token behind `return`, then with any limit both
are read into the same tree, once blanks, comments and what stands in front of lexemes are taken away; and the same
messages are noted about the same texts in the same order. -/
theorem Program.bare_eq_of_cues {source source' : Text}
    (h : Token.cues false false (tokenize source) = Token.cues false false (tokenize source')) (limit : Nat) :
    (Program.ofSource source limit).bare = (Program.ofSource source' limit).bare ∧
      (Parser.ofSource source limit).program.2.treeDiagnostics.map Diagnostic.gist =
        (Parser.ofSource source' limit).program.2.treeDiagnostics.map Diagnostic.gist := by
  have hblind := Level.blind_statements (Level.blind_ofRemaining limit limit) false
  obtain ⟨hstatements, hbehind⟩ := hblind _ _ (Cursor.Matches.ofSource h limit) trivial
  obtain ⟨hrest, hend⟩ := hbehind.salvage
  refine ⟨congrArg Program.mk ?_, hend.gists⟩
  exact (Node.bareStatements_append _ _).trans ((congrArg₂ (· ++ ·) hstatements hrest).trans
    (Node.bareStatements_append _ _).symm)

theorem Program.bare_eq_spaced_return :
    Token.cues false false (tokenize "a++;return b".toList) =
        Token.cues false false (tokenize "// x\na ++;\n\n return /* y */ b ".toList) ∧
      (Program.ofSource "a++;return b".toList 64).bare =
          (Program.ofSource "// x\na ++;\n\n return /* y */ b ".toList 64).bare ∧
        (Parser.ofSource "a++;return b".toList 64).program.2.treeDiagnostics.map Diagnostic.gist =
          (Parser.ofSource "// x\na ++;\n\n return /* y */ b ".toList 64).program.2.treeDiagnostics.map
            Diagnostic.gist := by
  have h : Token.cues false false (tokenize "a++;return b".toList) =
      Token.cues false false (tokenize "// x\na ++;\n\n return /* y */ b ".toList) := by decide +kernel
  exact ⟨h, Program.bare_eq_of_cues h 64⟩

end LosslessSyntax
