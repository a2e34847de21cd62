import LosslessSyntax.Proofs.Parse.Account.Rule
import LosslessSyntax.Proofs.Token.Trivia
import LosslessSyntax.Proofs.Tree.Suitability

/-! A survey of a reading. Behind parts of a tree that have been read, the cursor stands where as many significant
tokens have been taken as a walk through the parts meets lexemes; and all nodes in the parts suit the tokens that they
stand in front of. Every step keeps the survey when what it read is added to the parts. -/

namespace LosslessSyntax

open Rule

namespace Cursor

variable {c : Cursor}

/-- Where the end of input is not next, a token of the kind is ahead, and reading was not given up. -/
theorem ahead_of_kind (h : c.kind ≠ .endOfInput) :
    c.givenUp = false ∧ ∃ t ts, c.ahead = t :: ts ∧ t.kind = c.kind := by
  unfold kind at h ⊢
  by_cases hgiven : c.givenUp = true
  · rw [if_pos hgiven] at h
    exact absurd rfl h
  · rw [if_neg hgiven] at h ⊢
    refine ⟨eq_false_of_ne_true hgiven, ?_⟩
    cases hahead : c.ahead with
    | nil =>
        rw [hahead] at h
        exact absurd rfl h
    | cons t ts => exact ⟨t, ts, rfl, rfl⟩

theorem mem_upcoming_of_ahead {t : Token} {ts : List Token} (hahead : c.ahead = t :: ts) : t ∈ c.upcoming := by
  rw [← c.trivia_append_ahead, hahead]
  exact List.mem_append_right _ List.mem_cons_self

theorem mem_upcoming_of_bump {t : Token} (ht : t ∈ c.bump.2.upcoming) : t ∈ c.upcoming := by
  cases hahead : c.ahead with
  | nil => rwa [bump, hahead] at ht
  | cons u us =>
      rw [bump_eq hahead] at ht
      rw [← c.trivia_append_ahead, hahead]
      exact List.mem_append_right _ (List.mem_cons_of_mem _ ht)

/-- Where slices are exact, a line ends in front of the next significant token if and only if one ends in what is in
front of its lexeme. -/
theorem followsLineBreak_bump (haddress : c.IsAddressed) (hread : ∀ t ∈ c.upcoming, t.IsRead) {t : Token}
    {ts : List Token} (hahead : c.ahead = t :: ts) : c.bump.1.followsLineBreak = c.followsLineBreak := by
  rw [haddress.bump_eq hahead, Lexeme.followsLineBreak, Token.hasLineBreak_restore, followsLineBreak]
  · exact fun t ht => hread t (c.trivia_append_ahead ▸ List.mem_append_left _ ht)
  · exact fun t => isTrivia_of_mem_trivia

/-- Behind the word for returning a value follows on the line if the next token begins one. -/
theorem offersValue_upcoming (h : c.givenUp = false) :
    Token.offersValue c.upcoming = (c.kind.startsExpression && !c.followsLineBreak) := by
  unfold Token.offersValue kind followsLineBreak trivia ahead
  rw [h]
  cases c.upcoming.dropWhile Token.isTrivia <;> rfl

/-- The texts of the significant tokens ahead, up to one that stops the run. -/
def textsUntil (stops : Kind → Bool) (c : Cursor) : List Text :=
  ((Token.significant c.ahead).takeWhile fun t => !stops t.kind).map Token.text

theorem textsUntil_bump {stops : Kind → Bool} (hend : c.kind ≠ .endOfInput)
    (hstops : stops c.kind = false) : c.textsUntil stops = c.bump.1.text :: c.bump.2.textsUntil stops := by
  obtain ⟨-, t, ts, hahead, hkind⟩ := ahead_of_kind hend
  have hsignificant := isTrivia_eq_false_of_ahead hahead
  have hbehind : Token.significant c.bump.2.ahead = Token.significant ts := by
    rw [bump_eq hahead]
    exact Token.significant_dropWhile ts
  rw [textsUntil, textsUntil, hbehind, hahead, Token.significant_cons hsignificant, List.takeWhile_cons_of_pos,
    List.map_cons, bump_eq hahead]
  simp [hkind, hstops]

theorem textsUntil_of_stops {stops : Kind → Bool} (hgiven : c.givenUp = false)
    (hread : ∀ t ∈ c.upcoming, t.IsRead) (h : c.kind = .endOfInput ∨ stops c.kind = true) :
    c.textsUntil stops = [] := by
  rw [kind, hgiven] at h
  cases hahead : c.ahead with
  | nil => rw [textsUntil, hahead]; rfl
  | cons t ts =>
      have hmem : t ∈ c.upcoming := mem_upcoming_of_ahead hahead
      rw [hahead] at h
      have hstops : stops t.kind = true := h.resolve_left (hread t hmem).kind_ne_endOfInput
      rw [textsUntil, hahead, Token.significant_cons (isTrivia_eq_false_of_ahead hahead),
        List.takeWhile_cons_of_neg]
      · rfl
      · simp [hstops]

end Cursor

/-- The tokens behind parts that were read from the front of `source`. -/
def Spot.rest (source : List Token) (ps : List Spot) : List Token := Token.behind (Event.count (events ps)) source

/-- What is known where `c` is reached, when the parts `ps` have been read of `source`. -/
structure Survey (source : List Token) (ps : List Spot) (c : Cursor) : Prop where
  isRead : ∀ t ∈ c.upcoming, t.IsRead
  upcoming : c.upcoming <:+ source
  ahead : c.ahead = (Spot.rest source ps).dropWhile Token.isTrivia
  all : Spot.All (Node.Suits (Token.Addressed c.source source) c.givenUp) source ps

namespace Survey

variable {source : List Token} {ps qs rs : List Spot} {c d : Cursor} {place : Place} {n : Node}

theorem start {text : Text} {last : Token} (h : ∀ t ∈ source, t.IsRead) :
    Survey source [] { source := text, upcoming := source, last } := ⟨h, List.suffix_rfl, rfl, Spot.all_nil⟩

theorem isAddressed (h : Survey source ps c) (haddress : Token.Addressed c.source source) : c.IsAddressed :=
  haddress.of_suffix h.upcoming

/-! ### The same content told in another way -/

theorem append_nil (h : Survey source ps c) : Survey source (ps ++ []) c := by
  rw [List.append_nil]
  exact h

theorem refine (h : Survey source (ps ++ qs) c) (hrefines : Spot.Refines qs rs) : Survey source (ps ++ rs) c := by
  obtain ⟨hps, hqs⟩ := Spot.all_append.mp h.all
  obtain ⟨hrs, hcount⟩ := hrefines _ _ _ hqs
  refine ⟨h.isRead, h.upcoming, ?_, Spot.all_append.mpr ⟨hps, hrs⟩⟩
  have hahead := h.ahead
  rw [Spot.rest, Spot.events_append, Event.count_append] at hahead ⊢
  rw [hcount]
  exact hahead

/-- The parts of a node become the node, if it suits its place. -/
theorem node (h : Survey source (ps ++ n.spots) c) 
    (hn : n.Suits (Token.Addressed c.source source) c.givenUp place (Spot.rest source ps)) :
    Survey source (ps ++ [n.placed place]) c := by
  obtain ⟨hps, hspots⟩ := Spot.all_append.mp h.all
  refine ⟨h.isRead, h.upcoming, ?_, Spot.all_append.mpr ⟨hps, Spot.all_placed.mpr ⟨hn, hspots⟩⟩⟩
  have hone : Spot.events [n.placed place] = Spot.events n.spots := by
    rw [Spot.events_cons, Spot.events_spots, Spot.events_nil, List.append_nil]
    rfl
  have hahead := h.ahead
  rw [Spot.rest, Spot.events_append] at hahead ⊢
  rw [hone]
  exact hahead

/-! ### Steps -/

/-- Parts without lexemes are added where the next significant token stays the same. -/
theorem of_ahead (h : Survey source ps c) (hsource : d.source = c.source) (hahead : d.ahead = c.ahead)
    (hgiven : d.givenUp = c.givenUp) (hupcoming : d.upcoming <:+ c.upcoming)
    (hcount : Event.count (Spot.events qs) = 0)
    (hall : ∀ exact ts, Spot.All (Node.Suits exact c.givenUp) ts qs) : Survey source (ps ++ qs) d := by
  have hsuits : Spot.All (Node.Suits (Token.Addressed d.source source) d.givenUp) source (ps ++ qs) := by
    rw [hsource, hgiven]
    exact Spot.all_append.mpr ⟨h.all, hall _ _⟩
  refine ⟨fun t ht => h.isRead t (hupcoming.subset ht), hupcoming.trans h.upcoming, ?_, hsuits⟩
  rw [Spot.rest, Spot.events_append, Event.count_append, hcount, hahead]
  exact h.ahead

theorem takeTrivia (h : Survey source ps c) (place : Place) :
    Survey source (ps ++ c.takeTrivia.1.map (Node.placed place)) c.takeTrivia.2 := by
  have hnodes : ∀ n ∈ c.takeTrivia.1, n.isTrivia = true := Token.isTrivia_triviaNodes
  exact h.of_ahead rfl c.ahead_takeTrivia rfl (Rule.takeTrivia.upcoming_suffix c) (Spot.count_of_isTrivia hnodes)
    fun _ _ => Spot.all_of_isTrivia hnodes

theorem takeTrailing (h : Survey source ps c) :
    Survey source (ps ++ c.takeTrailing.1.map (Node.placed .within)) c.takeTrailing.2 := by
  have hnodes : ∀ n ∈ c.takeTrailing.1, n.isTrivia = true := Token.isTrivia_triviaNodes
  exact h.of_ahead rfl c.ahead_takeTrailing rfl c.upcoming_takeTrailing_suffix (Spot.count_of_isTrivia hnodes)
    fun _ _ => Spot.all_of_isTrivia hnodes

theorem report (h : Survey source ps c) (m : Message) (args : List Text) : Survey source ps (c.report m args) := by
  unfold Cursor.report
  split
  · exact h
  · exact ⟨h.isRead, h.upcoming, h.ahead, h.all⟩

theorem giveUp (h : Survey source ps c) : Survey source ps c.giveUp :=
  ⟨h.isRead, h.upcoming, h.ahead, h.all.imp fun _ _ _ => Node.Suits.excuse⟩

theorem missing (h : Survey source ps c) : Survey source (ps ++ [Part.within (.lexeme .missing)]) c :=
  h.of_ahead rfl rfl rfl List.suffix_rfl rfl fun _ _ => Spot.all_lexeme _

/-- Behind the lexeme of the next significant token the tokens behind it follow. -/
theorem rest_bump (h : Survey source ps c) {t : Token} {ts : List Token} (hahead : c.ahead = t :: ts) :
    Spot.rest source (ps ++ [Part.within (.lexeme c.bump.1)]) = ts := by
  have htext : t.text ≠ [] := (h.isRead t (Cursor.mem_upcoming_of_ahead hahead)).text_ne_nil
  have hone : Event.count [.lexeme c.bump.1] = 1 := by
    rw [Event.count_lexeme, Cursor.bump_eq hahead, if_neg]
    simp [Lexeme.isMissing, htext]
  have hbehind := h.ahead
  rw [hahead, Spot.rest] at hbehind
  have hevents : Spot.events [Part.within (.lexeme c.bump.1)] = [.lexeme c.bump.1] := rfl
  rw [Spot.rest, Spot.events_append, Event.count_append, hevents, hone, Token.behind_add, Token.behind, Token.behind,
    ← hbehind]
  rfl

/-- The next significant token becomes a lexeme, and the end of input a missing one. -/
theorem bump (h : Survey source ps c) : Survey source (ps ++ [Part.within (.lexeme c.bump.1)]) c.bump.2 := by
  cases hahead : c.ahead with
  | nil =>
      have hbump : c.bump = (.missing, c) := by rw [Cursor.bump, hahead]
      rw [hbump]
      exact h.missing
  | cons t ts =>
      have hrest := h.rest_bump hahead
      refine ⟨fun u hu => h.isRead u (Cursor.mem_upcoming_of_bump hu),
        (Rule.bump.upcoming_suffix c).trans h.upcoming, ?_, ?_⟩
      · rw [hrest, Cursor.bump_eq hahead]
        rfl
      · rw [Cursor.bump_eq hahead]
        exact Spot.all_append.mpr ⟨h.all, Spot.all_lexeme _⟩

/-! ### What is next -/

/-- The significant tokens behind the parts are those that the cursor has ahead. -/
theorem significant_rest (h : Survey source ps c) :
    Token.significant (Spot.rest source ps) = Token.significant c.ahead := by
  rw [h.ahead, Token.significant_dropWhile]

/-- A rule that leaves fewer tokens came to a node with lexemes, unless reading was given up. -/
theorem lexemes_ne_nil (h : Survey source ps c) (h' : Survey source (ps ++ [n.placed place]) d)
    (hless : d.left < c.left) : d.givenUp = true ∨ n.lexemes ≠ [] := by
  by_cases hgiven : d.givenUp = true
  · exact .inl hgiven
  · refine .inr (Node.lexemes_ne_nil_of_count fun hcount => ?_)
    have hone : Spot.events [n.placed place] = n.events := List.append_nil _
    -- what a walk meets tells what is ahead, so without lexemes nothing would have been taken
    have hahead : d.ahead = c.ahead := by
      rw [h'.ahead, h.ahead, Spot.rest, Spot.events_append, Event.count_append, hone, hcount]
      rfl
    have hle := c.left_le_length_ahead
    rw [Cursor.left, if_neg hgiven, hahead] at hless
    omega

end Survey

/-! ### Single steps and sequences -/

namespace Rule

variable {A B : Type} {source : List Token} {ps : List Spot} {k : Kind}

/-- Whether the rule keeps the survey of whatever was read before, when the parts of its result are added. -/
def Surveys (source : List Token) (r : Rule A) (spots : A → List Spot) : Prop :=
  ∀ ps, Triple (Survey source ps) r fun a => Survey source (ps ++ spots a)

theorem surveys_bump : bump.Surveys source fun l => [Part.within (.lexeme l)] := fun _ _ h => h.bump

theorem surveys_report (m : Message) (args : List Text) :
    Triple (Survey source ps) (report m args) fun _ => Survey source ps := fun _ h => h.report m args

theorem surveys_missing (m : Message) (args : List Text) :
    (do report m args; return Lexeme.missing : Rule Lexeme).Surveys source fun l => [Part.within (.lexeme l)] :=
  fun _ => (surveys_report m args).bind fun _ => Triple.pure fun _ h => h.missing

theorem surveys_expect (k : Kind) : (expect k).Surveys source fun l => [Part.within (.lexeme l)] := fun ps =>
  Triple.kind_bind fun _ => Triple.ite (fun _ => (surveys_bump ps).of_imp fun _ h => h.1)
    fun _ => (surveys_missing _ _ ps).of_imp fun _ h => h.1

theorem surveys_expectIdentifier : expectIdentifier.Surveys source fun l => [Part.within (.lexeme l)] := fun ps =>
  Triple.kind_bind fun _ => Triple.ite (fun _ => (surveys_bump ps).of_imp fun _ h => h.1)
    fun _ => (surveys_missing _ _ ps).of_imp fun _ h => h.1

theorem surveys_optional (k : Kind) :
    (optional k).Surveys source fun l => (Lexeme.optionalParts l).map Part.within := fun ps =>
  Triple.kind_bind fun _ => Triple.ite
    (fun _ => ((surveys_bump ps).of_imp fun _ h => h.1).bind fun _ => Triple.pure fun _ h => h)
    fun _ => Triple.pure fun _ h => h.1.append_nil

/-- What an item of a list does. Where there is no more, nothing is read. -/
def SurveysItem (source : List Token) (item : Rule (Option A)) (parts : A → List (Part Node)) : Prop :=
  ∀ ps, Triple (Survey source ps) item fun
    | some a => Survey source (ps ++ (parts a).map Part.within)
    | none => Survey source ps

variable {item : Rule (Option A)} {parts : A → List (Part Node)}

/-- The survey while a list goes on: there is a comma behind every item. -/
def SurveyBetween (source : List Token) (ps : List Spot) (parts : A → List (Part Node))
    (pairs : List (A × Option Lexeme)) (c : Cursor) : Prop :=
  (∀ pair ∈ pairs, pair.2.isSome = true) ∧
    Survey source (ps ++ (separatedParts parts (unpair pairs)).map Part.within) c

theorem surveys_separatedRound (h : item.SurveysItem source parts) (pairs : List (A × Option Lexeme)) :
    Triple (SurveyBetween source ps parts pairs) (separatedRound item) fun s c =>
      cond s.2 (SurveyBetween source ps parts (pairs ++ s.1) c)
        (Survey source (ps ++ (separatedParts parts (unpair (pairs ++ s.1))).map Part.within) c) := by
  refine Triple.of_and fun hcommas => (h _).bind fun
    | none => Triple.pure fun c hc => ?_
    | some a => (surveys_optional _ _).bind fun comma => Triple.pure fun c hc => ?_
  · rw [List.append_nil]
    exact hc
  · rw [List.append_assoc, List.append_assoc, ← List.map_append, ← List.map_append,
      ← separatedParts_concat hcommas] at hc
    cases comma with
    | none => exact hc
    | some comma =>
        refine ⟨List.forall_mem_append.mpr ⟨hcommas, List.forall_mem_singleton.mpr rfl⟩, hc⟩

theorem surveys_separated (h : item.SurveysItem source parts) :
    (separated item).Surveys source fun s => (separatedParts parts s).map Part.within := by
  intro ps
  have hstart (c : Cursor) (hc : Survey source ps c) : SurveyBetween source ps parts [] c :=
    ⟨fun pair hpair => absurd hpair List.not_mem_nil, hc.append_nil⟩
  exact ((Triple.collect (surveys_separatedRound h)).of_imp hstart).bind fun pairs => Triple.pure fun c hc => hc

/-- A run of tokens taken as they come. -/
theorem surveys_lexemesUntil (stops : Kind → Bool) :
    (lexemesUntil stops).Surveys source fun ls => (ls.map .lexeme).map Part.within := by
  intro ps
  refine (Triple.collect (J := fun ls => Survey source (ps ++ (ls.map .lexeme).map Part.within)) fun ls => ?_).of_imp
    fun c hc => hc.append_nil
  refine Triple.kind_bind fun k => Triple.ite (fun _ => Triple.pure fun c hc => ?_) fun _ => ?_
  · rw [List.append_nil]
    exact hc.1
  · refine ((surveys_bump _).of_imp fun _ hc => hc.1).bind fun l => Triple.pure fun c hc => ?_
    rw [List.append_assoc] at hc
    rw [List.map_append, List.map_append]
    exact hc

/-- A run is taken up to what stops it, and no further. -/
theorem texts_lexemesUntil (stops : Kind → Bool) (texts : List Text) :
    Triple (fun c => texts = c.textsUntil stops ∧ c.givenUp = false ∧ ∀ t ∈ c.upcoming, t.IsRead) (lexemesUntil stops)
      fun ls _ => ls.map Lexeme.text = texts := by
  refine (Triple.collect (J := fun ls c => texts = ls.map Lexeme.text ++ c.textsUntil stops ∧ c.givenUp = false ∧
    ∀ t ∈ c.upcoming, t.IsRead) fun ls => ?_)
  refine Triple.kind_bind fun k => Triple.ite (fun hk => Triple.pure fun c h => ?_) fun hk => ?_
  · obtain ⟨⟨htexts, hgiven, hread⟩, rfl⟩ := h
    rw [Cursor.textsUntil_of_stops hgiven hread (by simpa using hk), List.append_nil] at htexts
    rw [List.append_nil]
    exact htexts.symm
  · rintro c ⟨⟨htexts, hgiven, hread⟩, rfl⟩
    rw [Bool.not_eq_true, Bool.or_eq_false_iff, decide_eq_false_iff_not] at hk
    obtain ⟨-, t, ts, hahead, -⟩ := Cursor.ahead_of_kind hk.1
    rw [Cursor.textsUntil_bump hk.1 hk.2] at htexts
    refine ⟨?_, ?_, fun t ht => hread t (Cursor.mem_upcoming_of_bump ht)⟩
    · simpa using htexts
    · change c.bump.2.givenUp = false
      rw [Cursor.bump_eq hahead]
      exact hgiven

end Rule

end LosslessSyntax
