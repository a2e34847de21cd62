import LosslessSyntax.Parse.Expression

/-! Statements. What begins one is told by the next token, except that a function is declared only if a name
follows its word. Declarations with a body and control flow end with the body; every other statement may have
a semicolon. A chain of `else if` is read in a loop, so its length does not count as nesting. -/

namespace LosslessSyntax.Level

open Rule

/-! ### Declarations -/

/-- A name and its value. `lead` is what stands in front. -/
def declarator (l : Level) (form : DeclarationForm) (lead : Lexeme) : Rule (Declarator Node) := do
  let name ← expectIdentifier
  match ← optional (.symbol .assign) with
  | none => return .mk form lead name none []
  | some equals => do
    let value ← l.expression
    return .mk form lead name (some ⟨equals, value⟩) []

/-- A comma and the declarator behind it, if there is a comma. -/
def declaratorRound (l : Level) (form : DeclarationForm) : Rule (List (Declarator Node) × Bool) := do
  match ← optional (.symbol .comma) with
  | none => return ([], false)
  | some lead => do
    let declarator ← l.declarator form lead
    return ([declarator], true)

theorem advances_declaratorRound (l : Level) (form : DeclarationForm) :
    (l.declaratorRound form).Advances := by
  intro c h
  cases hcomma : ((optional (.symbol .comma)).run c).1 with
  | none => simp [declaratorRound, hcomma] at h
  | some lead =>
    simp only [declaratorRound, run_bind, hcomma, run_pure]
    exact Nat.lt_of_le_of_lt (left_le _ _) (left_optional_lt (by decide) (by simp [hcomma]))

/-- The word that declares and what it declares. -/
def declaration (l : Level) (form : DeclarationForm) : Rule Node := do
  let keyword ← bump
  let first ← l.declarator form keyword
  let additional ← collect (l.declaratorRound form) (l.advances_declaratorRound form)
  return .declaration (first.withAdditional additional)

def functionDeclaration (l : Level) : Rule Node := do
  let keyword ← bump
  let name ← expectIdentifier
  let body ← l.function
  return .functionDeclaration keyword name body

/-! ### Control flow -/

/-- What a word of control flow governs: a block, or a single statement behind its trivia. -/
def body (l : Level) : Rule (Block Node) := do
  let k ← kind
  if k = .symbol .openBrace then l.block
  else do
    let trivia ← takeTrivia
    if k.startsStatement then do
      let statement ← l.statement true
      return ⟨none, trivia ++ [statement], none, []⟩
    else do
      report .statementExpected []
      return ⟨none, trivia, none, []⟩

/-- A clause of a loop with three of them. It may be omitted; the first may declare variables. -/
def clause (l : Level) (first : Bool) : Rule Node := do
  let k ← kind
  if k = .symbol .semicolon || k = .symbol .closeParen then return .empty
  else
    match DeclarationForm.ofKind? k, first with
    | some form, true => l.declaration form
    | _, _ => l.expression

/-- The clauses between the parentheses, and the semicolons between the clauses. -/
def header (l : Level) : ControlForm → Rule (List Node × List Lexeme)
  | .forForm => do
    let initial ← l.clause true
    let first ← expect (.symbol .semicolon)
    let condition ← l.clause false
    let second ← expect (.symbol .semicolon)
    let step ← l.clause false
    return ([initial, condition, step], [first, second])
  | .ifForm | .whileForm => do
    let condition ← l.expression
    return ([condition], [])

/-- A choice or a loop up to the end of its body, without any `else`. -/
def head (l : Level) (form : ControlForm) : Rule (Control Node) := do
  let keyword ← bump
  let opening ← expect (.symbol .openParen)
  let (header, separators) ← l.header form
  let closing ← expect (.symbol .closeParen)
  let body ← l.body
  return { form, keyword, opening, header, separators, closing, body }

end Level

/-- A choice that goes on with another one behind its `else`, and the trivia between them. -/
structure Link where
  control : Control Node
  keyword : Lexeme
  leading : List Node

/-- The choice with `inner` as its `else` branch. -/
def Link.close (link : Link) (inner : Control Node) : Control Node :=
  let statements := link.leading ++ [.command (.combinator inner) none []]
  { link.control with alternate := some ⟨link.keyword, ⟨none, statements, none, []⟩⟩ }

namespace Level

open Rule

/-- An `else` behind the last choice read. If another choice follows, the first becomes a link to it, and the
links so far stand with the innermost first. -/
def linkRound (l : Level) (s : List Link × Control Node) : Rule ((List Link × Control Node) × Bool) := do
  let k ← kind
  if s.2.form = .ifForm && k = .keyword .elseWord then do
    let comments ← takeTrailing
    let control := { s.2 with body := s.2.body.attach comments }
    let keyword ← bump
    let k ← kind
    if k = .keyword .ifWord then do
      let leading ← takeTrivia
      let next ← l.head .ifForm
      return ((⟨control, keyword, leading⟩ :: s.1, next), true)
    else do
      let body ← l.body
      return ((s.1, { control with alternate := some ⟨keyword, body⟩ }), false)
  else return (s, false)

theorem advances_linkRound (l : Level) (s : List Link × Control Node) : (l.linkRound s).Advances := by
  intro c h
  have hc : s.2.form = .ifForm ∧ c.kind = .keyword .elseWord := by
    simp only [linkRound, run_bind, run_kind, run_ite] at h
    split at h
    · next hk => simpa using hk
    · cases h
  refine consumes_kind_bind (p := (· = .keyword .elseWord)) (fun k hk => ?_) c hc.2
  rw [if_pos (by simp [hc.1, hk])]
  exact .takeTrailing_bind fun _ => (consumes_bump_on (by simp [hk])).bind _

/-- A choice with all that its `else` leads to, or a loop. -/
def control (l : Level) (form : ControlForm) : Rule (Control Node) := do
  let first ← l.head form
  let (links, last) ← grow l.linkRound l.advances_linkRound ([], first)
  return links.foldl (fun inner link => link.close inner) last

/-! ### Statements -/

/-- The value must begin on the line of its word. -/
def returning (l : Level) : Rule Node := do
  let keyword ← bump
  let k ← kind
  let separate ← look Cursor.followsLineBreak
  if k.startsExpression && !separate then do
    let value ← l.expression
    return .returning keyword (some value)
  else return .returning keyword none

/-- A semicolon by itself is a statement, but worth a warning. -/
def emptyStatement : Rule Node := do
  report .emptyStatement []
  let semicolon ← bump
  return .command .empty (some semicolon) []

/-- Where no statement can begin, all tokens up to one that can begin a statement are taken as they are. In a
nested list the closing brace is left to the list. -/
def unparsedStatement (nested : Bool) : Rule Node := do
  let k ← kind
  report (if k.isClosing then .unexpectedToken else .statementExpected) []
  let first ← bump
  let others ← lexemesUntil fun k => k.startsStatement || nested && k = .symbol .closeBrace
  return .unparsed (first :: others)

/-- A statement that ends with its body. -/
def whole (inner : Rule Node) : Rule Node := do
  let inner ← inner
  return .command inner none []

/-- A statement that a semicolon may end. -/
def ended (inner : Rule Node) : Rule Node := do
  let inner ← inner
  let semicolon ← optional (.symbol .semicolon)
  return .command inner semicolon []

/-- A statement on the level itself. -/
def statementHere (l : Level) (nested : Bool) : Rule Node := do
  let k ← kind
  let next ← look Cursor.nextKind
  match k with
  | .keyword .letWord => ended (l.declaration .letForm)
  | .keyword .constWord => ended (l.declaration .constForm)
  | .keyword .varWord => ended (l.declaration .varForm)
  | .keyword .functionWord =>
    if next = .identifier then whole l.functionDeclaration else ended l.expression
  | .keyword .ifWord => whole (.combinator <$> l.control .ifForm)
  | .keyword .whileWord => whole (.combinator <$> l.control .whileForm)
  | .keyword .forWord => whole (.combinator <$> l.control .forForm)
  | .keyword .returnWord => ended l.returning
  | .symbol .semicolon => emptyStatement
  | k => if k.startsExpression then ended l.expression else unparsedStatement nested

/-! ### Statements read something -/

theorem consumes_control (l : Level) (form : ControlForm) : (l.control form).Consumes (· ≠ .endOfInput) :=
  (consumes_bump.bind _).bind _

theorem consumes_unparsedStatement (nested : Bool) :
    (unparsedStatement nested).Consumes (· ≠ .endOfInput) :=
  consumes_kind_bind fun _ hk => .report_bind ((consumes_bump_on hk).bind _) _ _

/-- Whatever the next token is, a statement reads something. -/
theorem consumes_statementHere (l : Level) (nested : Bool) :
    (l.statementHere nested).Consumes (· ≠ .endOfInput) := by
  refine consumes_kind_bind fun k hk => .look_bind fun next => ?_
  have hbump := consumes_bump_on hk
  have hexpression (h : k.startsExpression = true) : (ended l.expression).Consumes (· = k) :=
    (l.consumes_expression.on h).bind _
  split
  case h_4 =>
    split
    · exact (hbump.bind _).bind _
    · exact hexpression rfl
  case h_9 => exact .report_bind (hbump.bind _) _ _
  case h_10 =>
    split
    · next h => exact hexpression h
    · exact (consumes_unparsedStatement nested).on hk
  case h_5 | h_6 | h_7 => exact (((l.consumes_control _).on hk).map _).bind _
  all_goals exact (hbump.bind _).bind _

end LosslessSyntax.Level
