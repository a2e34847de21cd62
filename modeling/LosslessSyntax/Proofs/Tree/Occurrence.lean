import LosslessSyntax.Proofs.Parse.Spelling
import LosslessSyntax.Proofs.Tree.Flaw

/-! Occurrences of nodes. A node occurs in a tree at a place, an entry of a list of statements or not, and behind what
a walk meets before it; the lexemes met tell how many significant tokens of the source stand in front of it. So what
holds of a node where it stands can be said in terms of the tokens from there on. -/

namespace LosslessSyntax

/-- Where a node stands: in a list of statements, by itself as the statement of a body without braces, or within
another node. A nested list stands in braces. -/
inductive Place where
  | listed (nested : Bool)
  | single
  | within
  deriving DecidableEq, Repr

/-- A part of a node and the place where it stands. -/
abbrev Spot := Place × Part Node

def Part.within (p : Part Node) : Spot := (.within, p)

def Node.placed (place : Place) (n : Node) : Spot := (place, .node n)

/-! ### Parts at their places -/

/-- The place of the statements of a block. -/
def Block.place (b : Block Node) : Place := if b.isBraced then .listed true else .single

def Block.spots (b : Block Node) : List Spot :=
  (Lexeme.optionalParts b.opening).map Part.within ++ b.statements.map (Node.placed b.place) ++
    (Lexeme.optionalParts b.closing).map Part.within ++ b.closure.map (Node.placed .within)

/-- A body without braces is nothing but its statements. -/
theorem Block.spots_single (statements : List Node) :
    spots ⟨none, statements, none, []⟩ = statements.map (Node.placed .single) := by
  simp [spots, Lexeme.optionalParts, place, isBraced]

/-- The parts of a function in front of its block. -/
def Function.signature (f : Function Node) : List (Part Node) :=
  [.lexeme f.opening] ++ Part.interleave (f.parameters.map ([.lexeme ·])) (f.commas.map .lexeme) ++ [.lexeme f.closing]

def Function.spots (f : Function Node) : List Spot := f.signature.map Part.within ++ f.block.spots

def Alternate.spots (a : Alternate Node) : List Spot := Part.within (.lexeme a.keyword) :: a.body.spots

/-- The parts of a choice or a loop in front of its body. -/
def Control.introduction (c : Control Node) : List (Part Node) :=
  [.lexeme c.keyword, .lexeme c.opening] ++
    Part.interleave (c.header.map ([.node ·])) (c.separators.map .lexeme) ++ [.lexeme c.closing]

def Control.spots (c : Control Node) : List Spot :=
  c.introduction.map Part.within ++ c.body.spots ++ c.alternate.toList.flatMap Alternate.spots

/-- What a node is made of, in the order of the source, each part at its place. -/
def Node.spots : Node → List Spot
  | .functionDeclaration keyword name body => [Part.within (.lexeme keyword), Part.within (.lexeme name)] ++ body.spots
  | .functionExpression keyword name body =>
    [Part.within (.lexeme keyword)] ++ (Lexeme.optionalParts name).map Part.within ++ body.spots
  | .combinator control => control.spots
  | n => n.parts.map Part.within

theorem map_snd_within (ps : List (Part Node)) : (ps.map Part.within).map Prod.snd = ps := by
  rw [List.map_map]
  exact List.map_id ps

theorem map_snd_placed (place : Place) (ns : List Node) :
    (ns.map (Node.placed place)).map Prod.snd = ns.map .node := by
  rw [List.map_map]
  rfl

theorem Block.map_snd_spots (b : Block Node) : b.spots.map Prod.snd = b.parts := by
  simp only [spots, parts, List.map_append, map_snd_within, map_snd_placed]

theorem Function.map_snd_spots (f : Function Node) : f.spots.map Prod.snd = f.parts := by
  rw [spots, List.map_append, map_snd_within, Block.map_snd_spots, signature, parts]

theorem Control.map_snd_spots (c : Control Node) : c.spots.map Prod.snd = c.parts := by
  have halternate (a : Alternate Node) : a.spots.map Prod.snd = a.parts := by
    rw [Alternate.spots, List.map_cons, Block.map_snd_spots]
    rfl
  simp only [spots, introduction, parts, List.map_append, map_snd_within, Block.map_snd_spots, List.map_flatMap,
    halternate]

/-- The parts are the same at their places as without. -/
theorem Node.map_snd_spots (n : Node) : n.spots.map Prod.snd = n.parts := by
  cases n with
  | functionDeclaration => simp [spots, parts, Part.within, Function.map_snd_spots]
  | functionExpression => simp [spots, parts, Part.within, Function.map_snd_spots, Function.comp_def]
  | combinator => exact Control.map_snd_spots _
  | _ => exact map_snd_within _

/-! ### What a walk meets -/

namespace Spot

/-- What a walk meets in parts that follow each other. -/
def events (ps : List Spot) : List Event := ps.flatMap (·.2.events)

@[simp] theorem events_nil : events [] = [] := rfl

@[simp] theorem events_cons (p : Spot) (ps : List Spot) : events (p :: ps) = p.2.events ++ events ps := rfl

@[simp] theorem events_append (ps qs : List Spot) : events (ps ++ qs) = events ps ++ events qs := List.flatMap_append

theorem events_spots (n : Node) : events n.spots = n.events := by
  rw [Node.events_eq, ← n.map_snd_spots, List.flatMap_map]
  rfl

end Spot

/-- The number of significant tokens that events stand for. -/
def Event.count (es : List Event) : Nat := (lexemes es).length

namespace Event

@[simp] theorem count_append (es fs : List Event) : count (es ++ fs) = count es + count fs := by
  rw [count, lexemes, List.filterMap_append, List.filter_append, List.length_append]
  rfl

theorem count_lexeme (l : Lexeme) : count [.lexeme l] = if l.isMissing then 0 else 1 := by
  cases h : l.isMissing <;> simp [count, lexemes, lexeme?, h]

end Event

/-- Trivia stand for no significant token. -/
theorem Node.count_events_of_isTrivia {n : Node} (h : n.isTrivia = true) : Event.count n.events = 0 := by
  rw [events_eq]
  cases n <;> first | exact absurd h Bool.false_ne_true | rfl

/-! ### Occurrences -/

/-- Whether a node occurs in parts at a place, and what a walk through the parts meets before it. -/
inductive Occurs : List Spot → Place → List Event → Node → Prop where
  | here (place : Place) (n : Node) (ps : List Spot) : Occurs (n.placed place :: ps) place [] n
  | inside {ps : List Spot} {place place' : Place} {before : List Event} {m n : Node}
      (h : Occurs m.spots place before n) : Occurs (m.placed place' :: ps) place before n
  | later {ps : List Spot} {place : Place} {before : List Event} {n : Node} (p : Spot) (h : Occurs ps place before n) :
      Occurs (p :: ps) place (p.2.events ++ before) n

namespace Occurs

variable {ps qs : List Spot} {place : Place} {before : List Event} {m n : Node}

theorem append_left (h : Occurs ps place before n) (qs : List Spot) : Occurs (ps ++ qs) place before n := by
  induction h with
  | here => exact .here ..
  | inside h => exact .inside h
  | later p _ ih => exact .later p ih

theorem append_right (ps : List Spot) (h : Occurs qs place before n) :
    Occurs (ps ++ qs) place (Spot.events ps ++ before) n := by
  induction ps with
  | nil => exact h
  | cons p ps ih =>
      rw [Spot.events_cons, List.append_assoc]
      exact .later p ih

theorem append_cases (h : Occurs (ps ++ qs) place before n) :
    Occurs ps place before n ∨ ∃ rest, before = Spot.events ps ++ rest ∧ Occurs qs place rest n := by
  induction ps generalizing before with
  | nil => exact .inr ⟨before, rfl, h⟩
  | cons p ps ih =>
      cases h with
      | here => exact .inl (.here ..)
      | inside h => exact .inl (.inside h)
      | later p h =>
          rcases ih h with hleft | ⟨rest, rfl, hright⟩
          · exact .inl (.later p hleft)
          · exact .inr ⟨rest, (List.append_assoc ..).symm, hright⟩

/-- What occurs in a node is the node itself or occurs in its parts. -/
theorem placed_cases {place' : Place} (h : Occurs [m.placed place'] place before n) :
    (place = place' ∧ before = [] ∧ n = m) ∨ Occurs m.spots place before n := by
  cases h with
  | here => exact .inl ⟨rfl, rfl, rfl⟩
  | inside h => exact .inr h
  | later _ h => cases h

/-- What occurs in the parts of a node that occurs, occurs there as well. -/
theorem trans {place' : Place} {before' : List Event} (h : Occurs ps place before m)
    (h' : Occurs m.spots place' before' n) : Occurs ps place' (before ++ before') n := by
  induction h with
  | here => exact .inside h'
  | inside _ ih => exact .inside (ih h')
  | later p _ ih =>
      rw [List.append_assoc]
      exact .later p (ih h')

/-- A walk meets what is before a node, then the node. -/
theorem events_eq (h : Occurs ps place before n) : ∃ after, Spot.events ps = before ++ n.events ++ after := by
  induction h with
  | here place n ps => exact ⟨Spot.events ps, rfl⟩
  | @inside ps _ _ before m n _ ih =>
      obtain ⟨after, hafter⟩ := ih
      refine ⟨after ++ Spot.events ps, ?_⟩
      rw [Spot.events_cons, ← List.append_assoc, ← hafter, Spot.events_spots]
      rfl
  | later p _ ih =>
      obtain ⟨after, hafter⟩ := ih
      exact ⟨after, by rw [Spot.events_cons, hafter, List.append_assoc, List.append_assoc, List.append_assoc]⟩

end Occurs

namespace Node

/-- A walk comes to every node that occurs. -/
theorem mem_descendants_of_occurs {ps : List Spot} {place : Place} {before : List Event} {n : Node}
    (h : Occurs ps place before n) : n ∈ ps.flatMap (·.2.descendants) := by
  induction h with
  | here _ n _ =>
      refine List.mem_append_left _ ?_
      change n ∈ n.descendants
      rw [descendants_eq]
      exact List.mem_cons_self
  | @inside ps _ _ _ m n _ ih =>
      refine List.mem_append_left _ ?_
      change n ∈ m.descendants
      rw [descendants_eq, ← m.map_snd_spots, List.flatMap_map]
      exact List.mem_cons_of_mem _ ih
  | later _ _ ih => exact List.mem_append_right _ ih

theorem exists_occurs_of_mem {ps : List Spot} {p : Spot} {n : Node} (hp : p ∈ ps)
    (h : ∃ place before, Occurs [p] place before n) : ∃ place before, Occurs ps place before n := by
  obtain ⟨front, back, rfl⟩ := List.append_of_mem hp
  obtain ⟨place, before, h⟩ := h
  exact ⟨place, _, .append_right front (h.append_left back)⟩

/-- Wherever a node stands, all nodes that a walk through it comes to occur there. -/
theorem exists_occurs_placed {m n : Node} (place : Place) (h : n ∈ m.descendants) :
    ∃ place' before, Occurs [m.placed place] place' before n := by
  -- where `m` itself stands tells nothing of what is below it, so the induction is over every place
  induction m using inductionOnParts generalizing place with
  | step m ih =>
      rw [descendants_eq, ← m.map_snd_spots, List.flatMap_map] at h
      rcases List.mem_cons.mp h with rfl | h
      · exact ⟨place, [], .here ..⟩
      · obtain ⟨⟨place', part⟩, hpart, hn⟩ := List.mem_flatMap.mp h
        cases part with
        | node child =>
            have hchild : .node child ∈ m.parts := m.map_snd_spots ▸ List.mem_map_of_mem hpart
            obtain ⟨place'', before, hbelow⟩ := exists_occurs_of_mem hpart (ih child hchild place' hn)
            exact ⟨place'', before, .inside hbelow⟩
        | _ => cases hn

/-- The nodes that occur are those that a walk comes to. -/
theorem exists_occurs_iff {ps : List Spot} {n : Node} :
    (∃ place before, Occurs ps place before n) ↔ n ∈ ps.flatMap (·.2.descendants) := by
  constructor
  · rintro ⟨place, before, h⟩
    exact mem_descendants_of_occurs h
  · intro h
    obtain ⟨⟨place, part⟩, hpart, hn⟩ := List.mem_flatMap.mp h
    cases part with
    | node m => exact exists_occurs_of_mem hpart (exists_occurs_placed place hn)
    | _ => cases hn

/-- The statements of its blocks are parts of a node, at the place of the block. -/
theorem exists_spots_eq {n : Node} {b : Block Node} (h : b ∈ n.blocks) :
    ∃ front back, n.spots = front ++ b.statements.map (placed b.place) ++ back := by
  have hblock (b : Block Node) (front back : List Spot) :
      ∃ front' back', front ++ b.spots ++ back = front' ++ b.statements.map (placed b.place) ++ back' := by
    refine ⟨front ++ (Lexeme.optionalParts b.opening).map Part.within,
      (Lexeme.optionalParts b.closing).map Part.within ++ b.closure.map (placed .within) ++ back, ?_⟩
    simp only [Block.spots, List.append_assoc]
  cases n with
  | functionDeclaration keyword name body =>
      cases List.mem_singleton.mp h
      rw [spots, Function.spots, ← List.append_assoc, ← List.append_nil (_ ++ body.block.spots)]
      exact hblock ..
  | functionExpression keyword name body =>
      cases List.mem_singleton.mp h
      rw [spots, Function.spots, ← List.append_assoc, ← List.append_nil (_ ++ body.block.spots)]
      exact hblock ..
  | combinator control =>
      rcases List.mem_cons.mp h with rfl | h
      · exact hblock ..
      · obtain ⟨alternate, halternate, rfl⟩ := List.mem_map.mp h
        have honly : control.alternate.toList.flatMap Alternate.spots =
            [Part.within (.lexeme alternate.keyword)] ++ alternate.body.spots := by
          rw [Option.mem_toList.mp halternate, Option.toList_some, List.flatMap_singleton]
          rfl
        rw [spots, Control.spots, honly, ← List.append_assoc, ← List.append_nil (_ ++ alternate.body.spots)]
        exact hblock ..
  | _ => cases h

end Node

/-! ### What holds of nodes where they stand -/

/-- The tokens behind so many significant ones. -/
def Token.behind : Nat → List Token → List Token
  | 0, ts => ts
  | k + 1, ts => behind k ((ts.dropWhile isTrivia).drop 1)

theorem Token.behind_add (j k : Nat) (ts : List Token) : behind (j + k) ts = behind k (behind j ts) := by
  induction j generalizing ts with
  | zero => rw [Nat.zero_add, behind]
  | succ j ih => rw [Nat.succ_add, behind, behind, ih]

theorem Token.mem_of_mem_behind {k : Nat} {t : Token} {ts : List Token} (h : t ∈ behind k ts) : t ∈ ts := by
  induction k generalizing ts with
  | zero => exact h
  | succ k ih => exact (List.dropWhile_sublist _).subset (List.mem_of_mem_drop (ih h))

/-- Whether `P` holds of every node in the parts, of its place and of the tokens from there on, if the first part
stands in front of the tokens `ts`. -/
def Spot.All (P : Place → List Token → Node → Prop) (ts : List Token) (ps : List Spot) : Prop :=
  ∀ place before n, Occurs ps place before n → P place (Token.behind (Event.count before) ts) n

namespace Spot

variable {P Q : Place → List Token → Node → Prop} {ts : List Token} {ps qs : List Spot}

theorem all_nil : All P ts [] := fun _ _ _ h => by cases h

theorem All.imp (h : All P ts ps) (hPQ : ∀ place us n, P place us n → Q place us n) : All Q ts ps :=
  fun place before n hn => hPQ _ _ _ (h place before n hn)

theorem all_append :
    All P ts (ps ++ qs) ↔ All P ts ps ∧ All P (Token.behind (Event.count (events ps)) ts) qs := by
  constructor
  · intro h
    refine ⟨fun place before n hn => h place before n (hn.append_left qs), fun place before n hn => ?_⟩
    have hbehind := h place _ n (hn.append_right ps)
    rwa [Event.count_append, Token.behind_add] at hbehind
  · rintro ⟨hps, hqs⟩ place before n hn
    rcases hn.append_cases with hleft | ⟨rest, rfl, hright⟩
    · exact hps place before n hleft
    · rw [Event.count_append, Token.behind_add]
      exact hqs place rest n hright

theorem all_cons {p : Spot} :
    All P ts (p :: ps) ↔ All P ts [p] ∧ All P (Token.behind (Event.count p.2.events) ts) ps := by
  have hone : events [p] = p.2.events := List.append_nil _
  rw [← hone, ← all_append, List.singleton_append]

theorem all_placed {place : Place} {n : Node} : All P ts [n.placed place] ↔ P place ts n ∧ All P ts n.spots := by
  constructor
  · intro h
    exact ⟨h place [] n (.here ..), fun place before m hm => h place before m (.inside hm)⟩
  · rintro ⟨hn, hspots⟩ place' before m hm
    rcases hm.placed_cases with ⟨rfl, rfl, rfl⟩ | hm
    · exact hn
    · exact hspots place' before m hm

/-- What holds of all nodes where they stand holds of those in the parts of one of them. -/
theorem All.of_occurs {place : Place} {before : List Event} {m : Node} (h : All P ts ps)
    (hm : Occurs ps place before m) : All P (Token.behind (Event.count before) ts) m.spots := by
  intro place' before' n hn
  have hall := h place' _ n (hm.trans hn)
  rwa [Event.count_append, Token.behind_add] at hall

theorem all_lexeme (l : Lexeme) : All P ts [Part.within (.lexeme l)] := fun _ _ _ h => by
  cases h with
  | later _ h => cases h

theorem all_trivia (text : Text) : All P ts [Part.within (.trivia text)] := fun _ _ _ h => by
  cases h with
  | later _ h => cases h

/-- No node is among lexemes. -/
theorem all_lexemes (ls : List Lexeme) : All P ts ((ls.map .lexeme).map Part.within) := by
  induction ls generalizing ts with
  | nil => exact all_nil
  | cons l ls ih => exact all_cons.mpr ⟨all_lexeme l, ih⟩

end Spot

/-! ### Whole programs -/

namespace Program

/-- The declarations of a program, each at its place. -/
def spots (p : Program) : List Spot := p.declarations.map (Node.placed (.listed false))

/-- Whether a node occurs in a program at a place, behind what a walk meets before it. -/
def Occurs (p : Program) (place : Place) (before : List Event) (n : Node) : Prop :=
  LosslessSyntax.Occurs p.spots place before n

theorem exists_occurs_iff {p : Program} {n : Node} :
    (∃ place before, p.Occurs place before n) ↔ n ∈ p.descendants := by
  have hdescendants : p.spots.flatMap (·.2.descendants) = p.descendants := by
    rw [spots, List.flatMap_map]
    rfl
  rw [← hdescendants]
  exact Node.exists_occurs_iff

theorem Occurs.events_eq {p : Program} {place : Place} {before : List Event} {n : Node} (h : p.Occurs place before n) :
    ∃ after, p.events = before ++ n.events ++ after := by
  have hevents : Spot.events p.spots = p.events := by
    rw [Spot.events, spots, List.flatMap_map]
    rfl
  rw [← hevents]
  exact LosslessSyntax.Occurs.events_eq h

end Program

end LosslessSyntax
