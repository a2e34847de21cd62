import LosslessSyntax.Tree.Node

/-! The parts of a node: its own lexemes, its own trivia text and its children, in the order of the source.
Everything that walks a tree front to back goes by this one order. Chained declarators count as parts of the
declaration, not as nodes. Every child is smaller than its node, so walks end. -/

namespace LosslessSyntax

/-- One of the things a node is made of. -/
inductive Part (N : Type) where
  | lexeme (l : Lexeme)
  | trivia (text : Text)
  | node (n : N)

namespace Part

/-- Items with separators between them: item, separator, item, and so on; what is left of the longer list
follows. -/
def interleave {A : Type} : List (List A) → List A → List A
  | [], separators => separators
  | item :: items, [] => item ++ interleave items []
  | item :: items, s :: separators => item ++ s :: interleave items separators

theorem mem_interleave {A : Type} {items : List (List A)} {separators : List A} {a : A} :
    a ∈ interleave items separators ↔ (∃ item ∈ items, a ∈ item) ∨ a ∈ separators := by
  fun_induction interleave items separators with
  | case1 => simp
  | case2 item items ih => simp [ih]
  | case3 item items s separators ih =>
    simp only [List.mem_append, List.mem_cons, ih, exists_eq_or_imp]
    grind

variable {N : Type}

/-- The nodes among interleaved parts are those of the items. -/
theorem node_mem_interleave {A : Type} {n : N} {items : List A} {f : A → List (Part N)}
    {separators : List Lexeme} :
    .node n ∈ interleave (items.map f) (separators.map .lexeme) ↔ ∃ item ∈ items, .node n ∈ f item := by
  simp only [mem_interleave, List.mem_map, reduceCtorEq, and_false, exists_false, or_false]
  exact ⟨fun ⟨_, ⟨a, ha, h⟩, hn⟩ => ⟨a, ha, h ▸ hn⟩, fun ⟨a, ha, hn⟩ => ⟨f a, ⟨a, ha, rfl⟩, hn⟩⟩

end Part

variable {N : Type}

/-- The parts of an optional lexeme: itself, if it is there. -/
def Lexeme.optionalParts (l : Option Lexeme) : List (Part N) := l.toList.map .lexeme

def Block.parts (b : Block N) : List (Part N) :=
  Lexeme.optionalParts b.opening ++ b.statements.map .node ++ Lexeme.optionalParts b.closing ++
    b.closure.map .node

def Function.parts (f : Function N) : List (Part N) :=
  [.lexeme f.opening] ++ Part.interleave (f.parameters.map ([.lexeme ·])) (f.commas.map .lexeme) ++
    [.lexeme f.closing] ++ f.block.parts

def Field.parts (f : Field N) : List (Part N) := [.lexeme f.key, .lexeme f.colon, .node f.value]

def Initializer.parts (i : Initializer N) : List (Part N) := [.lexeme i.equals, .node i.value]

mutual

def Declarator.parts : Declarator N → List (Part N)
  | .mk _ lead name initializer additional =>
    [.lexeme lead, .lexeme name] ++ initializer.toList.flatMap Initializer.parts ++
      Declarator.chainParts additional

/-- The parts of chained declarators. -/
def Declarator.chainParts : List (Declarator N) → List (Part N)
  | [] => []
  | d :: ds => d.parts ++ Declarator.chainParts ds

end

def Alternate.parts (a : Alternate N) : List (Part N) := .lexeme a.keyword :: a.body.parts

def Control.parts (c : Control N) : List (Part N) :=
  [.lexeme c.keyword, .lexeme c.opening] ++
    Part.interleave (c.header.map ([.node ·])) (c.separators.map .lexeme) ++ [.lexeme c.closing] ++
    c.body.parts ++ c.alternate.toList.flatMap Alternate.parts

/-- What a node is made of, in the order of the source. -/
def Node.parts : Node → List (Part Node)
  | .whitespace text | .comment text => [.trivia text]
  | .identifier l | .literal l => [.lexeme l]
  | .invocation callee opening arguments commas closing =>
    [.node callee, .lexeme opening] ++
      Part.interleave (arguments.map ([.node ·])) (commas.map .lexeme) ++ [.lexeme closing]
  | .access base dot field => [.node base, .lexeme dot, .lexeme field]
  | .index base opening subscript closing =>
    [.node base, .lexeme opening, .node subscript, .lexeme closing]
  | .object opening fields commas closing =>
    [.lexeme opening] ++ Part.interleave (fields.map Field.parts) (commas.map .lexeme) ++ [.lexeme closing]
  | .array opening elements commas closing =>
    [.lexeme opening] ++ Part.interleave (elements.map ([.node ·])) (commas.map .lexeme) ++
      [.lexeme closing]
  | .declaration first => first.parts
  | .assignment target symbol value => [.node target, .lexeme symbol, .node value]
  | .functionDeclaration keyword name body => [.lexeme keyword, .lexeme name] ++ body.parts
  | .functionExpression keyword name body =>
    [.lexeme keyword] ++ Lexeme.optionalParts name ++ body.parts
  | .operator left symbol right => left.toList.map .node ++ [.lexeme symbol] ++ right.toList.map .node
  | .parenthesized opening inner closing => [.lexeme opening, .node inner, .lexeme closing]
  | .combinator control => control.parts
  | .returning keyword value => .lexeme keyword :: value.toList.map .node
  | .command inner semicolon closure =>
    [.node inner] ++ Lexeme.optionalParts semicolon ++ closure.map .node
  | .empty => []
  | .unparsed lexemes => lexemes.map .lexeme

/-! ### Children are smaller -/

theorem Lexeme.node_mem_optionalParts {l : Option Lexeme} {n : N} :
    Part.node n ∈ (Lexeme.optionalParts l : List (Part N)) ↔ False := by
  simp [optionalParts]

section Size

variable [SizeOf N] {n : N}

theorem Block.sizeOf_lt_of_mem_parts {b : Block N} (h : .node n ∈ b.parts) : sizeOf n < sizeOf b := by
  cases b
  simp only [parts, Lexeme.node_mem_optionalParts, List.mem_append, List.mem_map, Part.node.injEq,
    exists_eq_right, or_false, false_or] at h
  simp only [Block.mk.sizeOf_spec]
  rcases h with h | h <;> have := List.sizeOf_lt_of_mem h <;> omega

theorem Function.sizeOf_lt_of_mem_parts {f : Function N} (h : .node n ∈ f.parts) : sizeOf n < sizeOf f := by
  cases f
  simp only [parts, List.mem_append, List.mem_singleton, Part.node_mem_interleave, reduceCtorEq, and_false,
    exists_false, false_or] at h
  simp only [Function.mk.sizeOf_spec]
  have := Block.sizeOf_lt_of_mem_parts h
  omega

theorem Field.sizeOf_lt_of_mem_parts {f : Field N} (h : .node n ∈ f.parts) : sizeOf n < sizeOf f := by
  cases f
  simp only [parts, List.mem_cons, reduceCtorEq, Part.node.injEq, List.not_mem_nil, or_false, false_or] at h
  simp only [Field.mk.sizeOf_spec, h]
  omega

theorem Initializer.sizeOf_lt_of_mem_parts {i : Initializer N} (h : .node n ∈ i.parts) :
    sizeOf n < sizeOf i := by
  cases i
  simp only [parts, List.mem_cons, reduceCtorEq, Part.node.injEq, List.not_mem_nil, or_false, false_or] at h
  simp only [Initializer.mk.sizeOf_spec, h]
  omega

mutual

theorem Declarator.sizeOf_lt_of_mem_parts {d : Declarator N} (h : .node n ∈ d.parts) :
    sizeOf n < sizeOf d := by
  obtain ⟨_, _, _, initializer, additional⟩ := d
  simp only [Declarator.parts, List.mem_append, List.mem_cons, reduceCtorEq, List.not_mem_nil, or_false,
    false_or] at h
  simp only [Declarator.mk.sizeOf_spec]
  rcases h with h | h
  · cases initializer with
    | none => simp at h
    | some i =>
      have := Initializer.sizeOf_lt_of_mem_parts (by simpa using h)
      simp only [Option.some.sizeOf_spec]
      omega
  · have := Declarator.sizeOf_lt_of_mem_chainParts h
    omega

theorem Declarator.sizeOf_lt_of_mem_chainParts {ds : List (Declarator N)}
    (h : .node n ∈ Declarator.chainParts ds) : sizeOf n < sizeOf ds := by
  cases ds with
  | nil => simp [Declarator.chainParts] at h
  | cons d ds =>
    simp only [Declarator.chainParts, List.mem_append] at h
    simp only [List.cons.sizeOf_spec]
    rcases h with h | h
    · have := Declarator.sizeOf_lt_of_mem_parts h
      omega
    · have := Declarator.sizeOf_lt_of_mem_chainParts h
      omega

end

theorem Alternate.sizeOf_lt_of_mem_parts {a : Alternate N} (h : .node n ∈ a.parts) :
    sizeOf n < sizeOf a := by
  cases a
  simp only [parts, List.mem_cons, reduceCtorEq, false_or] at h
  simp only [Alternate.mk.sizeOf_spec]
  have := Block.sizeOf_lt_of_mem_parts h
  omega

theorem Control.sizeOf_lt_of_mem_parts {c : Control N} (h : .node n ∈ c.parts) : sizeOf n < sizeOf c := by
  obtain ⟨_, _, _, header, _, _, body, alternate⟩ := c
  simp only [parts, List.mem_append, List.mem_cons, Part.node_mem_interleave, reduceCtorEq,
    List.not_mem_nil, Part.node.injEq, or_false, false_or] at h
  simp only [Control.mk.sizeOf_spec]
  rcases h with (⟨item, hitem, rfl⟩ | h) | h
  · have := List.sizeOf_lt_of_mem hitem
    omega
  · have := Block.sizeOf_lt_of_mem_parts h
    omega
  · cases alternate with
    | none => simp at h
    | some a =>
      have := Alternate.sizeOf_lt_of_mem_parts (by simpa using h)
      simp only [Option.some.sizeOf_spec]
      omega

end Size

/-- A child is smaller than its node. -/
theorem Node.sizeOf_lt_of_mem_parts {n child : Node} (h : .node child ∈ n.parts) :
    sizeOf child < sizeOf n := by
  cases n
  all_goals
    simp only [parts, Lexeme.node_mem_optionalParts, Part.node_mem_interleave, List.mem_append,
      List.mem_cons, List.mem_map, List.not_mem_nil, Option.mem_toList, reduceCtorEq, Part.node.injEq,
      exists_eq_right, and_false, exists_false, or_false, false_or] at h
  case invocation =>
    rcases h with rfl | ⟨_, h, rfl⟩
    · simp only [invocation.sizeOf_spec]; omega
    · have := List.sizeOf_lt_of_mem h
      simp only [invocation.sizeOf_spec]; omega
  case access => subst h; simp only [access.sizeOf_spec]; omega
  case index =>
    rcases h with rfl | rfl <;> simp only [index.sizeOf_spec] <;> omega
  case object =>
    obtain ⟨_, hf, h⟩ := h
    have := List.sizeOf_lt_of_mem hf
    have := Field.sizeOf_lt_of_mem_parts h
    simp only [object.sizeOf_spec]; omega
  case array =>
    obtain ⟨_, h, rfl⟩ := h
    have := List.sizeOf_lt_of_mem h
    simp only [array.sizeOf_spec]; omega
  case declaration =>
    have := Declarator.sizeOf_lt_of_mem_parts h
    simp only [declaration.sizeOf_spec]; omega
  case assignment =>
    rcases h with rfl | rfl <;> simp only [assignment.sizeOf_spec] <;> omega
  case functionDeclaration =>
    have := Function.sizeOf_lt_of_mem_parts h
    simp only [functionDeclaration.sizeOf_spec]; omega
  case functionExpression =>
    have := Function.sizeOf_lt_of_mem_parts h
    simp only [functionExpression.sizeOf_spec]; omega
  case operator =>
    rcases h with rfl | rfl <;> simp only [operator.sizeOf_spec, Option.some.sizeOf_spec] <;> omega
  case parenthesized => subst h; simp only [parenthesized.sizeOf_spec]; omega
  case combinator =>
    have := Control.sizeOf_lt_of_mem_parts h
    simp only [combinator.sizeOf_spec]; omega
  case returning => subst h; simp only [returning.sizeOf_spec, Option.some.sizeOf_spec]; omega
  case command =>
    rcases h with rfl | h
    · simp only [command.sizeOf_spec]; omega
    · have := List.sizeOf_lt_of_mem h
      simp only [command.sizeOf_spec]; omega

end LosslessSyntax
