import LosslessSyntax.Proofs.Parse.Survey.Program

/-! First lexemes. The lexeme that a node begins with is found along its leftmost children, and a walk through the node
meets it first. For that, no lexeme may stand behind a leftmost child that has none; the only such lexeme is the
semicolon of a statement that is nothing else. -/

namespace LosslessSyntax

namespace Node

variable {n child : Node} {ps : List (Part Node)}

theorem head?_lexemes_of_lexeme {l : Lexeme} (h : n.parts = .lexeme l :: ps) : n.lexemes.head? = some l := by
  rw [lexemes_eq, h]
  rfl

/-- With a lexeme in its first child a walk begins there. -/
theorem head?_lexemes_of_node (h : n.parts = .node child :: ps) (hchild : child.lexemes ≠ []) :
    n.lexemes.head? = child.lexemes.head? := by
  rw [lexemes_eq, h, List.flatMap_cons]
  exact List.head?_append_of_ne_nil _ hchild

/-- A walk meets no lexemes in a closure of trivia. -/
theorem lexemes_command_of_isTrivia {inner : Node} {semicolon : Option Lexeme} {closure : List Node}
    (h : ∀ n ∈ closure, n.isTrivia = true) :
    (command inner semicolon closure).lexemes = inner.lexemes ++ semicolon.toList := by
  have hclosure : closure.flatMap lexemes = [] := List.flatMap_eq_nil_iff.mpr fun n hn => lexemes_of_isTrivia (h n hn)
  rw [lexemes_command, hclosure, List.append_nil]

/-- Where all nodes are anchored, a node that is no semicolon alone has the lexeme first that is found along the
leftmost children. -/
theorem firstLexeme?_eq_of_isAnchored (n : Node) (h : n.Everywhere IsAnchored) (hidle : n.isIdle = false) :
    n.firstLexeme? = n.lexemes.head? := by
  induction n using inductionOnParts with
  | step n ih =>
      obtain ⟨hanchored, hchildren⟩ := everywhere_iff.mp h
      have hchild (child : Node) (hmem : .node child ∈ n.parts) (hidle : child.isIdle = false) :
          child.firstLexeme? = child.lexemes.head? := ih child hmem (hchildren child (node_mem_parts.mp hmem)) hidle
      have hleads (child : Node) {ps : List (Part Node)} (hparts : n.parts = .node child :: ps) (hleads : child.Leads) :
          child.firstLexeme? = n.lexemes.head? := by
        rw [head?_lexemes_of_node hparts hleads.2]
        exact hchild child (hparts ▸ List.mem_cons_self) hleads.1
      cases n with
      | whitespace | comment | empty => rw [lexemes_eq]; rfl
      | identifier | literal | object | array | parenthesized | returning | functionDeclaration | functionExpression
      | combinator => exact (head?_lexemes_of_lexeme rfl).symm
      | declaration first =>
          obtain ⟨_, _, _, _, _⟩ := first
          exact (head?_lexemes_of_lexeme rfl).symm
      | invocation callee => exact hleads callee rfl hanchored
      | access base | index base => exact hleads base rfl hanchored
      | assignment target => exact hleads target rfl hanchored
      | operator left symbol right =>
          cases left with
          | none => exact (head?_lexemes_of_lexeme rfl).symm
          | some left => exact hleads left rfl hanchored
      | command inner semicolon closure =>
          have hinner := hchild inner List.mem_cons_self hanchored.isIdle
          rw [lexemes_command_of_isTrivia hanchored.closure]
          -- the content of a statement may have no lexeme, but then no semicolon follows
          cases semicolon with
          | none =>
              rw [Option.toList_none, List.append_nil]
              exact hinner
          | some semicolon =>
              rw [List.head?_append_of_ne_nil _ (hanchored.lexemes hidle rfl)]
              exact hinner
      | unparsed lexemes =>
          rw [lexemes_unparsed]
          rfl

/-- A statement that is a semicolon alone has no lexeme along its leftmost children, but a walk meets the semicolon. -/
theorem firstLexeme?_of_isIdle (h : n.IsAnchored) (hidle : n.isIdle = true) :
    n.firstLexeme? = none ∧ ∃ semicolon, n.lexemes = [semicolon] := by
  cases n with
  | command inner semicolon closure =>
      have hempty : inner.isEmpty = true := hidle
      obtain ⟨semicolon, rfl⟩ := Option.isSome_iff_exists.mp (h.idle hempty)
      cases inner with
      | empty =>
          refine ⟨rfl, semicolon, ?_⟩
          rw [lexemes_command_of_isTrivia h.closure, lexemes_eq]
          rfl
      | _ => cases hempty
  | _ => cases hidle

end Node

/-- First lexemes of whole programs. For every node of every tree the lexeme found along the leftmost children is the
first one that a walk through the node meets, and none is found if a walk meets none. The only exceptions are the
statements that are a semicolon alone: a walk meets the semicolon, but none is found. -/
theorem Program.firstLexeme_descendants (source : Text) (limit : Nat) :
    let p := ofSource source limit
    (∀ n ∈ p.descendants, n.isIdle = false → n.firstLexeme? = n.lexemes.head?) ∧
      ∀ n ∈ p.descendants, n.isIdle = true → n.firstLexeme? = none ∧ ∃ semicolon, n.lexemes = [semicolon] := by
  intro p
  have hall : p.Everywhere Node.IsAnchored := by
    intro n hn
    obtain ⟨place, before, hoccurs⟩ := exists_occurs_iff.mpr hn
    exact (all_suits source limit place before n hoccurs).anchored
  refine ⟨fun n hn => ?_, fun n hn => Node.firstLexeme?_of_isIdle (hall n hn)⟩
  obtain ⟨declaration, hdeclaration, hbelow⟩ := List.mem_flatMap.mp hn
  exact Node.firstLexeme?_eq_of_isAnchored n ((everywhere_iff.mp hall declaration hdeclaration).of_mem_descendants hbelow)

/-- The statement that is a semicolon alone has none found, though a walk meets the semicolon. -/
theorem Program.firstLexeme_semicolon :
    ¬ ∀ n ∈ (ofSource [';']).descendants, n.firstLexeme? = n.lexemes.head? := by
  have hany : (ofSource [';']).descendants.any (fun n => n.firstLexeme? ≠ n.lexemes.head?) = true := by decide +kernel
  obtain ⟨n, hn, hother⟩ := List.any_eq_true.mp hany
  exact fun h => of_decide_eq_true hother (h n hn)

end LosslessSyntax
