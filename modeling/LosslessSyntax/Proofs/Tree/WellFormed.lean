import LosslessSyntax.Grammar.Classes
import LosslessSyntax.Proofs.Token.Allowed
import LosslessSyntax.Proofs.Tree.Precedence

/-! Well-formed expressions, as a grammar that generates them. All lexemes are there, each of a kind that the
grammar asks for at its place and one space behind the lexeme before it; operators have operands that hold together
as tightly as precedence demands; and lists have their commas. -/

namespace LosslessSyntax

namespace Kind

/-- Whether a token of the kind is an identifier as an expression; `this` counts as one. -/
def isVariable : Kind → Bool
  | .identifier | .keyword .thisWord => true
  | _ => false

/-- Whether a token of the kind is a literal as an expression. -/
def isConstant : Kind → Bool
  | .number | .string | .keyword .trueWord | .keyword .falseWord | .keyword .nullWord => true
  | _ => false

theorem startsExpression_of_isVariable {k : Kind} (h : k.isVariable = true) :
    k.startsExpression = true ∧ k.isPrefixOperator = false := by
  unfold isVariable at h
  split at h
  · exact ⟨rfl, rfl⟩
  · exact ⟨rfl, rfl⟩
  · cases h

theorem startsExpression_of_isConstant {k : Kind} (h : k.isConstant = true) :
    k.startsExpression = true ∧ k.isPrefixOperator = false := by
  unfold isConstant at h
  split at h
  case h_6 => cases h
  all_goals exact ⟨rfl, rfl⟩

theorem startsExpression_of_isPrefixOperator {k : Kind} (h : k.isPrefixOperator = true) :
    k.startsExpression = true := by
  unfold startsExpression
  split
  case h_12 => exact h
  all_goals rfl

/-- Whether a token of the kind can name a field behind a dot. -/
def isFieldName : Kind → Bool
  | .identifier => true
  | k => k.isKeyword

end Kind

namespace Lexeme

/-- Whether the lexeme is of the kind and stands behind a single space. -/
structure Spells (l : Lexeme) (k : Kind) : Prop where
  leading : l.leading = [' ']
  text : k.Allows l.text

/-- Whether the lexemes are the commas of a list with so many items. Behind the last item a comma may be missing. -/
structure AreCommas (commas : List Lexeme) (count : Nat) : Prop where
  spells : ∀ comma ∈ commas, comma.Spells (.symbol .comma)
  length : commas.length = count ∨ commas.length + 1 = count

/-- Whether the lexemes begin as an expression of this tightness does: with a token that can begin one, and with an
operator only if the expression is an operation or begins with one. -/
def Begin (tightness : Nat) (ls : List Lexeme) : Prop :=
  ∃ l rest, ls = l :: rest ∧ l.text.kind.startsExpression = true ∧
    (8 ≤ tightness → l.text.kind.isPrefixOperator = false)

variable {l : Lexeme} {ls rest : List Lexeme} {k : Kind} {m n : Nat}

theorem begin_cons (hl : l.Spells k) (hk : k.startsExpression = true ∧ k.isPrefixOperator = false) :
    Begin n (l :: ls) := by
  rw [← hl.text.kind_eq] at hk
  exact ⟨l, ls, rfl, hk.1, fun _ => hk.2⟩

theorem Begin.append (h : Begin m ls) (hmn : 8 ≤ n → 8 ≤ m) : Begin n (ls ++ rest) := by
  obtain ⟨l, behind, hlexemes, hstarts, hoperand⟩ := h
  exact ⟨l, behind ++ rest, by rw [hlexemes, List.cons_append], hstarts, fun hn => hoperand (hmn hn)⟩

end Lexeme

namespace Node

/-- The trees of well-formed expressions; functions are not among them. -/
inductive WellFormed : Node → Prop where
  | identifier {l : Lexeme} {k : Kind} (hk : k.isVariable = true) (hl : l.Spells k) : WellFormed (.identifier l)
  | literal {l : Lexeme} {k : Kind} (hk : k.isConstant = true) (hl : l.Spells k) : WellFormed (.literal l)
  | parenthesized {opening closing : Lexeme} {inner : Node} (hopening : opening.Spells (.symbol .openParen))
      (hinner : WellFormed inner) (hclosing : closing.Spells (.symbol .closeParen)) :
      WellFormed (.parenthesized opening inner closing)
  | array {opening closing : Lexeme} {elements : List Node} {commas : List Lexeme}
      (hopening : opening.Spells (.symbol .openBracket)) (helements : ∀ n ∈ elements, WellFormed n)
      (hcommas : Lexeme.AreCommas commas elements.length) (hclosing : closing.Spells (.symbol .closeBracket)) :
      WellFormed (.array opening elements commas closing)
  | object {opening closing : Lexeme} {fields : List (Field Node)} {commas : List Lexeme}
      (hopening : opening.Spells (.symbol .openBrace))
      (hkeys : ∀ f ∈ fields, ∃ k, Kind.isPropertyName k = true ∧ f.key.Spells k)
      (hcolons : ∀ f ∈ fields, f.colon.Spells (.symbol .colon)) (hvalues : ∀ f ∈ fields, WellFormed f.value)
      (hcommas : Lexeme.AreCommas commas fields.length) (hclosing : closing.Spells (.symbol .closeBrace)) :
      WellFormed (.object opening fields commas closing)
  | access {base : Node} {dot field : Lexeme} {k : Kind} (hbase : WellFormed base) (htight : base.tightness = 9)
      (hdot : dot.Spells (.symbol .dot)) (hk : k.isFieldName = true) (hfield : field.Spells k) :
      WellFormed (.access base dot field)
  | index {base subscript : Node} {opening closing : Lexeme} (hbase : WellFormed base) (htight : base.tightness = 9)
      (hopening : opening.Spells (.symbol .openBracket)) (hsubscript : WellFormed subscript)
      (hclosing : closing.Spells (.symbol .closeBracket)) : WellFormed (.index base opening subscript closing)
  | invocation {callee : Node} {opening closing : Lexeme} {arguments : List Node} {commas : List Lexeme}
      (hcallee : WellFormed callee) (htight : callee.tightness = 9) (hopening : opening.Spells (.symbol .openParen))
      (harguments : ∀ n ∈ arguments, WellFormed n) (hcommas : Lexeme.AreCommas commas arguments.length)
      (hclosing : closing.Spells (.symbol .closeParen)) :
      WellFormed (.invocation callee opening arguments commas closing)
  | prefixed {symbol : Lexeme} {operand : Node} {k : Kind} (hk : k.isPrefixOperator = true) (hsymbol : symbol.Spells k)
      (hoperand : WellFormed operand) (htight : 7 ≤ operand.tightness) :
      WellFormed (.operator none symbol (some operand))
  | postfixed {symbol : Lexeme} {operand : Node} {k : Kind} (hoperand : WellFormed operand)
      (htight : operand.tightness = 9) (hk : k.isPostfixOperator = true) (hsymbol : symbol.Spells k) :
      WellFormed (.operator (some operand) symbol none)
  | binary {symbol : Lexeme} {left right : Node} {k : Kind} {tier : Tier} (hleft : WellFormed left)
      (hleftTight : tier.toNat ≤ left.tightness) (hk : Tier.ofKind? k = some tier) (hsymbol : symbol.Spells k)
      (hright : WellFormed right) (hrightTight : tier.toNat < right.tightness) :
      WellFormed (.operator (some left) symbol (some right))
  | assignment {operator : Lexeme} {target value : Node} {k : Kind} (htarget : WellFormed target)
      (htight : 1 ≤ target.tightness) (hk : k.isAssignment = true) (hoperator : operator.Spells k)
      (hvalue : WellFormed value) : WellFormed (.assignment target operator value)

/-- The lexemes of the node and of all nodes below it. -/
def lexemes (n : Node) : List Lexeme := n.events.filterMap Event.lexeme?

end Node

namespace Part

/-- The lexemes in a part. -/
def lexemes (p : Part Node) : List Lexeme := p.events.filterMap Event.lexeme?

@[simp] theorem lexemes_lexeme (l : Lexeme) : lexemes (.lexeme l) = [l] := rfl

@[simp] theorem lexemes_node (n : Node) : lexemes (.node n) = n.lexemes := rfl

/-- Interleaved parts have interleaved lexemes. -/
theorem flatMap_lexemes_interleave (items : List (List (Part Node))) (commas : List Lexeme) :
    (interleave items (commas.map .lexeme)).flatMap lexemes = interleave (items.map (·.flatMap lexemes)) commas := by
  induction items generalizing commas with
  | nil => simp [interleave, List.flatMap_map]
  | cons item items ih => cases commas <;> simp [interleave, ← ih, List.map_nil]

/-- Whether the part is a lexeme of some kind or a well-formed expression. -/
def IsSpelled : Part Node → Prop
  | .lexeme l => ∃ k, l.Spells k
  | .trivia _ => False
  | .node n => n.WellFormed

theorem isSpelled_cons {p : Part Node} {ps : List (Part Node)} (hp : p.IsSpelled) (hps : ∀ q ∈ ps, q.IsSpelled) :
    ∀ q ∈ p :: ps, q.IsSpelled := List.forall_mem_cons.mpr ⟨hp, hps⟩

theorem isSpelled_append {ps qs : List (Part Node)} (hps : ∀ p ∈ ps, p.IsSpelled) (hqs : ∀ q ∈ qs, q.IsSpelled) :
    ∀ p ∈ ps ++ qs, p.IsSpelled := List.forall_mem_append.mpr ⟨hps, hqs⟩

theorem isSpelled_interleave {A : Type} {items : List A} {f : A → List (Part Node)} {commas : List Lexeme}
    (hitems : ∀ a ∈ items, ∀ p ∈ f a, p.IsSpelled) (hcommas : Lexeme.AreCommas commas items.length) :
    ∀ p ∈ interleave (items.map f) (commas.map .lexeme), p.IsSpelled := by
  intro p hp
  rcases mem_interleave.mp hp with ⟨item, hitem, hp⟩ | hp
  · obtain ⟨a, ha, rfl⟩ := List.mem_map.mp hitem
    exact hitems a ha p hp
  · obtain ⟨comma, hcomma, rfl⟩ := List.mem_map.mp hp
    exact ⟨_, hcommas.spells comma hcomma⟩

end Part

namespace Node

/-- The lexemes of a node are those of its parts, in order. -/
theorem lexemes_eq (n : Node) : n.lexemes = n.parts.flatMap Part.lexemes := by
  rw [lexemes, events_eq, List.filterMap_flatMap]
  rfl

section Forms

variable (base n : Node) (l opening closing : Lexeme) (ns : List Node) (commas : List Lexeme)

theorem lexemes_identifier : (identifier l).lexemes = [l] := lexemes_eq _

theorem lexemes_literal : (literal l).lexemes = [l] := lexemes_eq _

theorem lexemes_parenthesized : (parenthesized opening n closing).lexemes = opening :: (n.lexemes ++ [closing]) :=
  lexemes_eq _

theorem lexemes_array : (array opening ns commas closing).lexemes =
    opening :: (Part.interleave (ns.map lexemes) commas ++ [closing]) := by
  rw [lexemes_eq]
  simp [parts, Part.flatMap_lexemes_interleave, Function.comp_def]

theorem lexemes_object (fields : List (Field Node)) : (object opening fields commas closing).lexemes =
    opening :: (Part.interleave (fields.map fun f => f.key :: f.colon :: f.value.lexemes) commas ++ [closing]) := by
  rw [lexemes_eq]
  simp [parts, Field.parts, Part.flatMap_lexemes_interleave, Function.comp_def]

theorem lexemes_access : (access base opening closing).lexemes = base.lexemes ++ [opening, closing] := lexemes_eq _

theorem lexemes_index : (index base opening n closing).lexemes = base.lexemes ++ opening :: (n.lexemes ++ [closing]) :=
  lexemes_eq _

theorem lexemes_invocation : (invocation base opening ns commas closing).lexemes =
    base.lexemes ++ opening :: (Part.interleave (ns.map lexemes) commas ++ [closing]) := by
  rw [lexemes_eq]
  simp [parts, Part.flatMap_lexemes_interleave, Function.comp_def]

theorem lexemes_prefixed : (operator none l (some n)).lexemes = l :: n.lexemes := by
  rw [lexemes_eq]
  simp [parts]

theorem lexemes_postfixed : (operator (some n) l none).lexemes = n.lexemes ++ [l] := by
  rw [lexemes_eq]
  simp [parts]

theorem lexemes_binary : (operator (some base) l (some n)).lexemes = base.lexemes ++ l :: n.lexemes := by
  rw [lexemes_eq]
  simp [parts]

theorem lexemes_assignment : (assignment base l n).lexemes = base.lexemes ++ l :: n.lexemes := by
  rw [lexemes_eq]
  simp [parts]

end Forms

namespace WellFormed

variable {e : Node}

/-- A well-formed expression is made of lexemes and of well-formed expressions. -/
theorem isSpelled_parts (h : e.WellFormed) : ∀ p ∈ e.parts, p.IsSpelled := by
  have hlexeme {l : Lexeme} {k : Kind} (hl : l.Spells k) : ∀ p ∈ [Part.lexeme l], p.IsSpelled :=
    List.forall_mem_singleton.mpr ⟨k, hl⟩
  have hnode {n : Node} (hn : n.WellFormed) : ∀ p ∈ [Part.node n], p.IsSpelled := List.forall_mem_singleton.mpr hn
  open LosslessSyntax.Part in
  cases h with
  | identifier _ hl | literal _ hl => exact hlexeme hl
  | parenthesized hopening hinner hclosing =>
      exact isSpelled_cons ⟨_, hopening⟩ (isSpelled_cons hinner (hlexeme hclosing))
  | array hopening helements hcommas hclosing =>
      have hlist := isSpelled_interleave (fun n hn => hnode (helements n hn)) hcommas
      exact isSpelled_append (isSpelled_append (hlexeme hopening) hlist) (hlexeme hclosing)
  | @object _ _ fields _ hopening hkeys hcolons hvalues hcommas hclosing =>
      have hfield (f : Field Node) (hf : f ∈ fields) : ∀ p ∈ f.parts, p.IsSpelled := by
        obtain ⟨k, -, hkey⟩ := hkeys f hf
        exact isSpelled_cons ⟨k, hkey⟩ (isSpelled_cons ⟨_, hcolons f hf⟩ (hnode (hvalues f hf)))
      have hlist := isSpelled_interleave hfield hcommas
      exact isSpelled_append (isSpelled_append (hlexeme hopening) hlist) (hlexeme hclosing)
  | access hbase _ hdot _ hfield => exact isSpelled_cons hbase (isSpelled_cons ⟨_, hdot⟩ (hlexeme hfield))
  | index hbase _ hopening hsubscript hclosing =>
      exact isSpelled_cons hbase (isSpelled_cons ⟨_, hopening⟩ (isSpelled_cons hsubscript (hlexeme hclosing)))
  | invocation hcallee _ hopening harguments hcommas hclosing =>
      have hlist := isSpelled_interleave (fun n hn => hnode (harguments n hn)) hcommas
      exact isSpelled_append (isSpelled_cons hcallee (isSpelled_cons ⟨_, hopening⟩ hlist)) (hlexeme hclosing)
  | prefixed _ hsymbol hoperand _ => exact isSpelled_cons ⟨_, hsymbol⟩ (hnode hoperand)
  | postfixed hoperand _ _ hsymbol => exact isSpelled_cons hoperand (hlexeme hsymbol)
  | binary hleft _ _ hsymbol hright _ => exact isSpelled_cons hleft (isSpelled_cons ⟨_, hsymbol⟩ (hnode hright))
  | assignment htarget _ _ hoperator hvalue =>
      exact isSpelled_cons htarget (isSpelled_cons ⟨_, hoperator⟩ (hnode hvalue))

/-- A walk through a well-formed expression meets lexemes only, and each is of some kind. -/
theorem mem_events (h : e.WellFormed) : ∀ event ∈ e.events, ∃ l k, event = .lexeme l ∧ l.Spells k := by
  induction e using inductionOnParts with
  | step e ih =>
      intro event hevent
      rw [events_eq] at hevent
      obtain ⟨p, hp, hevent⟩ := List.mem_flatMap.mp hevent
      have hspelled := h.isSpelled_parts p hp
      cases p with
      | lexeme l =>
          obtain ⟨k, hl⟩ := hspelled
          exact ⟨l, k, List.mem_singleton.mp hevent, hl⟩
      | trivia text => exact hspelled.elim
      | node n => exact ih n hp hspelled event hevent

theorem exists_spells (h : e.WellFormed) : ∀ l ∈ e.lexemes, ∃ k, l.Spells k := by
  intro l hl
  obtain ⟨event, hevent, hlexeme⟩ := List.mem_filterMap.mp hl
  obtain ⟨m, k, rfl, hm⟩ := h.mem_events event hevent
  cases hlexeme
  exact ⟨k, hm⟩

/-- A well-formed expression is written back lexeme by lexeme. -/
theorem restore_eq (h : e.WellFormed) : e.restore = e.lexemes.flatMap Lexeme.restore := by
  rw [Node.restore, lexemes]
  have hevents := h.mem_events
  generalize e.events = events at hevents ⊢
  induction events with
  | nil => rfl
  | cons event events ih =>
      obtain ⟨⟨l, k, rfl, -⟩, hrest⟩ := List.forall_mem_cons.mp hevents
      rw [List.flatMap_cons, ih hrest]
      rfl

/-- The tightness of a binary operation is the number of its tier. -/
theorem tightness_binary {left right : Node} {symbol : Lexeme} {k : Kind} {tier : Tier}
    (hk : Tier.ofKind? k = some tier) (hsymbol : symbol.Spells k) :
    (operator (some left) symbol (some right)).tightness = tier.toNat := by
  obtain ⟨text, htext, htier⟩ := Tier.text?_of_ofKind? hk
  rw [← hsymbol.text.text_eq htext] at htier
  exact Node.tightness_binary htier

/-- A well-formed expression has a lexeme of its own in front, or its first part is an expression. -/
theorem begins (h : e.WellFormed) : Lexeme.Begin e.tightness e.lexemes := by
  induction h with
  | identifier hk hl => exact lexemes_identifier _ ▸ Lexeme.begin_cons hl (Kind.startsExpression_of_isVariable hk)
  | literal hk hl => exact lexemes_literal _ ▸ Lexeme.begin_cons hl (Kind.startsExpression_of_isConstant hk)
  | parenthesized hopening => exact lexemes_parenthesized .. ▸ Lexeme.begin_cons hopening ⟨rfl, rfl⟩
  | array hopening => exact lexemes_array .. ▸ Lexeme.begin_cons hopening ⟨rfl, rfl⟩
  | object hopening => exact lexemes_object .. ▸ Lexeme.begin_cons hopening ⟨rfl, rfl⟩
  | access _ htight _ _ _ ih => exact lexemes_access .. ▸ ih.append fun _ => by omega
  | index _ htight _ _ _ ih => exact lexemes_index .. ▸ ih.append fun _ => by omega
  | invocation _ htight _ _ _ _ ih => exact lexemes_invocation .. ▸ ih.append fun _ => by omega
  | prefixed hk hsymbol =>
      refine ⟨_, _, lexemes_prefixed .., ?_, fun hn => absurd hn (by decide : ¬8 ≤ 7)⟩
      rw [hsymbol.text.kind_eq]
      exact Kind.startsExpression_of_isPrefixOperator hk
  | postfixed _ htight _ _ ih => exact lexemes_postfixed .. ▸ ih.append fun _ => by omega
  | binary _ htight hk hsymbol _ _ ih =>
      rw [lexemes_binary, tightness_binary hk hsymbol]
      exact ih.append fun hn => by omega
  | assignment _ _ _ _ _ ih =>
      exact lexemes_assignment .. ▸ ih.append fun hn => absurd hn (by decide : ¬8 ≤ 0)

end WellFormed

end Node

end LosslessSyntax
