import LosslessSyntax.Grammar.Classes
import LosslessSyntax.Proofs.Tree.Materialized
import LosslessSyntax.Proofs.Tree.Nesting
import LosslessSyntax.Proofs.Tree.Occurrence

/-! Nodes that suit the tokens they stand in front of. Three things can be said of a node there: tokens that fit
nowhere were taken as far as they had to be and no further; what must not be parted from its word or its operand by a
line break is not; and the first of its children holds a lexeme wherever one of the node itself comes behind it. -/

namespace LosslessSyntax

/-! ### Tokens that fit nowhere -/

/-- The tokens that are no trivia. -/
def Token.significant (ts : List Token) : List Token := ts.filter (!·.isTrivia)

/-- Trivia in front count for nothing. -/
theorem Token.significant_dropWhile (ts : List Token) : significant (ts.dropWhile isTrivia) = significant ts := by
  induction ts with
  | nil => rfl
  | cons t ts ih =>
      cases ht : t.isTrivia with
      | false => rw [List.dropWhile_cons_of_neg (ht ▸ Bool.false_ne_true)]
      | true =>
          rw [List.dropWhile_cons_of_pos ht, ih, significant, significant, List.filter_cons_of_neg]
          simp [ht]

/-- What is behind trivia begins with a significant token. -/
theorem Token.isTrivia_eq_false_of_dropWhile {ts us : List Token} {t : Token} (h : ts.dropWhile isTrivia = t :: us) :
    t.isTrivia = false := by
  have hhead := List.head?_dropWhile_not isTrivia ts
  rw [h] at hhead
  simpa using hhead

theorem Token.significant_cons {t : Token} (h : t.isTrivia = false) (ts : List Token) :
    significant (t :: ts) = t :: significant ts := List.filter_cons_of_pos (by simp [h])

/-- Behind so many significant tokens as many fewer follow. -/
theorem Token.significant_behind (k : Nat) (ts : List Token) : significant (behind k ts) = (significant ts).drop k := by
  induction k generalizing ts with
  | zero => rfl
  | succ k ih =>
      rw [behind, ih, ← significant_dropWhile ts]
      cases hrest : ts.dropWhile isTrivia with
      | nil => rw [List.drop_nil, significant, List.filter_nil, List.drop_nil, List.drop_nil]
      | cons t us =>
          rw [significant_cons (isTrivia_eq_false_of_dropWhile hrest)]
          rfl

/-- Whether a run of tokens that begin no statement is over at a token of the kind. -/
def Kind.endsRun (nested : Bool) (k : Kind) : Bool := k.startsStatement || nested && k = .symbol .closeBrace

/-- What is left unparsed at a place in front of the tokens `ts`: in a list of statements all up to one that ends the
run, within another node the next one unless it ends a list. A body without braces has nothing unparsed. -/
def Place.run : Place → List Token → List Token
  | .listed nested, ts => (Token.significant ts).takeWhile fun t => !t.kind.endsRun nested
  | .single, _ => []
  | .within, ts => ((Token.significant ts).take 1).filter fun t => !t.kind.endsList

/-- Whether a statement is read at the place if a token of the kind is next. -/
def Place.admits : Place → Kind → Bool
  | .listed nested, k => k ≠ .endOfInput && !(nested && k = .symbol .closeBrace)
  | .single, k => k.startsStatement
  | .within, _ => false

/-- Whether a statement at the place may be followed by a closing brace. -/
def Place.isNested : Place → Bool
  | .listed nested => nested
  | _ => true

namespace Node

/-- Whether an unparsed node holds the tokens that are left unparsed where it stands. Only within another node these
may be none. -/
def Recovers (place : Place) (ts : List Token) : Node → Prop
  | .unparsed lexemes =>
    lexemes.map Lexeme.text = (place.run ts).map Token.text ∧ (place = .within ∨ lexemes ≠ [])
  | _ => True

end Node

/-! ### Lines -/

/-- Whether a value follows on the line: the next significant token can begin an expression, and no line ends in the
trivia in front of it. -/
def Token.offersValue (ts : List Token) : Bool :=
  match ts.dropWhile isTrivia with
  | t :: _ => t.kind.startsExpression && !hasLineBreak (ts.takeWhile isTrivia)
  | [] => false

namespace Node

/-- Whether the word for returning has a value if one follows on its line, and an operator behind its operand stands on
the same line. The text in front of the operator tells that only if the slices of the source are exact. -/
def KeepsLine (exact : Prop) (ts : List Token) : Node → Prop
  | .returning _ value => value.isSome = Token.offersValue (Token.behind 1 ts)
  | .operator (some _) symbol none => exact → symbol.followsLineBreak = false
  | _ => True

/-! ### First lexemes -/

/-- Whether lexemes of a node around it may stand behind the node: it has one itself, and is no semicolon alone. -/
def Leads (n : Node) : Prop := n.isIdle = false ∧ n.lexemes ≠ []

/-- Whether the content of a statement has a lexeme if a semicolon follows, or is empty and a semicolon follows. -/
structure AnchorsCommand (inner : Node) (semicolon : Option Lexeme) (closure : List Node) : Prop where
  isIdle : inner.isIdle = false
  idle : inner.isEmpty = true → semicolon.isSome = true
  lexemes : inner.isEmpty = false → semicolon.isSome = true → inner.lexemes ≠ []
  closure : ∀ n ∈ closure, n.isTrivia = true

/-- Whether the first lexeme of the node is found along the first children. -/
def IsAnchored : Node → Prop
  | .invocation first .. | .access first .. | .index first .. | .assignment first .. => first.Leads
  | .operator (some first) .. => first.Leads
  | .command inner semicolon closure => AnchorsCommand inner semicolon closure
  | _ => True

/-- Whether the node suits its place in front of the tokens `ts`. If reading was given up, unparsed nodes are
excused. -/
structure Suits (exact : Prop) (excused : Bool) (place : Place) (ts : List Token) (n : Node) : Prop where
  anchored : n.IsAnchored
  keepsLine : n.KeepsLine exact ts
  recovers : excused = false → n.Recovers place ts

variable {exact : Prop} {excused : Bool} {place : Place} {ts : List Token} {n : Node}

/-- A statement without a semicolon may have any content but nothing. -/
theorem anchorsCommand_none (hidle : n.isIdle = false) (hempty : n.isEmpty = false) :
    AnchorsCommand n none [] where
  isIdle := hidle
  idle h := absurd h (hempty ▸ Bool.false_ne_true)
  lexemes _ h := absurd h Bool.false_ne_true
  closure := List.forall_mem_nil _

theorem Suits.excuse (h : n.Suits exact excused place ts) : n.Suits exact true place ts :=
  ⟨h.anchored, h.keepsLine, nofun⟩

theorem suits_of_isTrivia (h : n.isTrivia = true) : n.Suits exact excused place ts := by
  cases n <;> first | exact absurd h Bool.false_ne_true | exact ⟨trivial, trivial, fun _ => trivial⟩

theorem suits_command {inner : Node} {semicolon : Option Lexeme} {closure : List Node}
    (h : AnchorsCommand inner semicolon closure) : (command inner semicolon closure).Suits exact excused place ts :=
  ⟨h, trivial, fun _ => trivial⟩

theorem lexemes_ne_nil_of_mem {l : Lexeme} (h : .lexeme l ∈ n.parts) : n.lexemes ≠ [] := by
  rw [lexemes_eq]
  exact List.ne_nil_of_mem (List.mem_flatMap.mpr ⟨_, h, List.mem_cons_self⟩)

theorem lexemes_ne_nil_of_count (h : Event.count n.events ≠ 0) : n.lexemes ≠ [] := by
  intro hnone
  rw [Event.count, Event.lexemes, ← lexemes, hnone] at h
  exact h rfl

end Node

/-! ### Trivia that move -/

theorem Node.spots_command (inner : Node) (semicolon : Option Lexeme) (closure : List Node) :
    (command inner semicolon closure).spots =
      Part.within (.node inner) :: (Lexeme.optionalParts semicolon).map Part.within ++ closure.map (placed .within) := by
  change (Part.node inner :: Lexeme.optionalParts semicolon ++ closure.map Part.node).map Part.within = _
  rw [List.cons_append, List.map_cons, List.map_append, List.map_map]
  rfl

namespace Spot

variable {ps qs ps' qs' : List Spot} {exact : Prop} {excused : Bool} {place place' : Place} {ts : List Token}

/-- Whether the nodes in `qs` suit their places if those in `ps` do, and a walk meets as many lexemes. -/
def Refines (ps qs : List Spot) : Prop :=
  ∀ exact excused ts, All (Node.Suits exact excused) ts ps →
    All (Node.Suits exact excused) ts qs ∧ Event.count (events qs) = Event.count (events ps)

theorem Refines.refl (ps : List Spot) : Refines ps ps := fun _ _ _ h => ⟨h, rfl⟩

theorem Refines.append (h : Refines ps qs) (h' : Refines ps' qs') : Refines (ps ++ ps') (qs ++ qs') := by
  intro exact excused ts hall
  obtain ⟨hps, hps'⟩ := all_append.mp hall
  obtain ⟨hqs, hcount⟩ := h exact excused ts hps
  obtain ⟨hqs', hcount'⟩ := h' exact excused _ hps'
  refine ⟨all_append.mpr ⟨hqs, hcount ▸ hqs'⟩, ?_⟩
  rw [events_append, events_append, Event.count_append, Event.count_append, hcount, hcount']

/-- No lexeme is met in trivia. -/
theorem count_of_isTrivia {ns : List Node} (h : ∀ n ∈ ns, n.isTrivia = true) :
    Event.count (events (ns.map (Node.placed place))) = 0 := by
  induction ns with
  | nil => rfl
  | cons n ns ih =>
      obtain ⟨hn, hns⟩ := List.forall_mem_cons.mp h
      rw [List.map_cons, events_cons, Event.count_append, ih hns]
      exact Node.count_events_of_isTrivia hn

/-- Trivia suit every place. -/
theorem all_of_isTrivia {ns : List Node} (h : ∀ n ∈ ns, n.isTrivia = true) :
    All (Node.Suits exact excused) ts (ns.map (Node.placed place)) := by
  induction ns generalizing ts with
  | nil => exact all_nil
  | cons n ns ih =>
      obtain ⟨hn, hns⟩ := List.forall_mem_cons.mp h
      have hspots : All (Node.Suits exact excused) ts n.spots := by
        cases n <;> first | exact absurd hn Bool.false_ne_true | exact all_trivia _
      exact all_cons.mpr ⟨all_placed.mpr ⟨Node.suits_of_isTrivia hn, hspots⟩, ih hns⟩

/-- Trivia behind a statement may move into its closure. -/
theorem refines_command {inner : Node} {semicolon : Option Lexeme} {closure closure' trailing : List Node}
    (htrailing : ∀ n ∈ trailing, n.isTrivia = true)
    (hclosure : (∀ n ∈ closure, n.isTrivia = true) → ∀ n ∈ closure', n.isTrivia = true) :
    Refines ((Node.command inner semicolon closure).placed place :: trailing.map (Node.placed place'))
      [(Node.command inner semicolon closure').placed place] := by
  intro exact excused ts h
  obtain ⟨hcommand, -⟩ := all_cons.mp h
  obtain ⟨⟨hanchored, -, -⟩, hspots⟩ := all_placed.mp hcommand
  have hclosed := hclosure hanchored.closure
  rw [Node.spots_command, all_append] at hspots
  refine ⟨all_placed.mpr ⟨Node.suits_command ⟨hanchored.isIdle, hanchored.idle, hanchored.lexemes, hclosed⟩, ?_⟩, ?_⟩
  · rw [Node.spots_command, all_append]
    exact ⟨hspots.1, all_of_isTrivia hclosed⟩
  · -- trivia stand for no token, so they count for nothing wherever they are
    rw [events_cons, events_cons, events_nil, List.append_nil, Event.count_append, count_of_isTrivia htrailing,
      Nat.add_zero]
    change Event.count (Node.events _) = Event.count (Node.events _)
    rw [← events_spots, ← events_spots, Node.spots_command, Node.spots_command, events_append, events_append,
      Event.count_append, Event.count_append, count_of_isTrivia hclosed, count_of_isTrivia hanchored.closure]

end Spot

open Spot in
/-- Statements suit their places also with the comments that trail them. -/
theorem Node.refines_attachTrailing (place : Place) (nodes : List Node) :
    Refines (nodes.map (placed place)) ((attachTrailing nodes).map (placed place)) := by
  fun_induction attachTrailing nodes with
  | case1 => exact .refl _
  | case2 inner semicolon closure rest ih =>
      have hmoved : Refines ((command inner semicolon closure).placed place ::
          (splitTrailing rest).1.map (placed place))
          [(command inner semicolon (closureWith (splitTrailing rest).1 closure)).placed place] := by
        refine refines_command isTrivia_of_mem_splitTrailing fun hclosure => ?_
        unfold closureWith
        split
        · exact hclosure
        · exact isTrivia_of_mem_splitTrailing
      have hall := hmoved.append ih
      rwa [List.cons_append, ← List.map_append, splitTrailing_append, List.singleton_append] at hall
  | case3 n rest _ ih => exact (Refines.refl [n.placed place]).append ih

open Spot in
/-- A body suits its place also with the comments that stand behind it. -/
theorem Block.refines_attach {b : Block Node} (h : b.Fresh) {comments : List Node}
    (hcomments : ∀ n ∈ comments, n.isTrivia = true) :
    Refines (b.spots ++ comments.map (Node.placed .within)) (b.attach comments).spots := by
  rcases h.attach_cases comments with ⟨front, inner, semicolon, closure, rfl, hattach⟩ | hattach <;> rw [hattach]
  · rw [spots_single, spots_single, List.map_append, List.map_append, List.append_assoc]
    refine .append (.refl _) (refines_command hcomments fun hclosure => ?_)
    exact List.forall_mem_append.mpr ⟨hclosure, hcomments⟩
  · simp only [Block.spots, h.closure_eq_nil, List.map_nil, List.append_nil]
    exact .refl _

end LosslessSyntax
