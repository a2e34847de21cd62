import LosslessSyntax.Proofs.Materialization
import LosslessSyntax.Proofs.Parse.Survey.Program

/-! The bounds of recovery. Tokens that fit nowhere are taken as unparsed nodes, and no other tokens are. Where an
expression is due at most one is taken, and none that ends a list or a statement. Between statements a whole run is
taken: no token of it can begin a statement, and the next one can, or closes the braces around the list. -/

namespace LosslessSyntax

open Node

/-! ### Bounds -/

namespace Token

/-- Whether `run` is all that is left out up to `rest` in a list of statements, within braces or not. -/
structure IsRun (nested : Bool) (run rest : List Token) : Prop where
  ne_nil : run ≠ []
  startsStatement : ∀ t ∈ run, t.kind.startsStatement = false
  closeBrace : nested = true → ∀ t ∈ run, t.kind ≠ .symbol .closeBrace
  isMaximal : ∀ t ∈ rest.head?, t.kind.startsStatement = true ∨ nested = true ∧ t.kind = .symbol .closeBrace

variable {nested : Bool} {ts : List Token}

theorem isRun_takeWhile (h : ts.takeWhile (fun t => !t.kind.endsRun nested) ≠ []) :
    IsRun nested (ts.takeWhile fun t => !t.kind.endsRun nested) (ts.dropWhile fun t => !t.kind.endsRun nested) := by
  have hends : ∀ t ∈ ts.takeWhile fun t => !t.kind.endsRun nested,
      t.kind.startsStatement = false ∧ (nested && t.kind = .symbol .closeBrace) = false := by
    intro t ht
    have hgoes := List.all_eq_true.mp List.all_takeWhile t ht
    rwa [Bool.not_eq_true', Kind.endsRun, Bool.or_eq_false_iff] at hgoes
  refine ⟨h, fun t ht => (hends t ht).1, fun hnested t ht => ?_, fun t ht => ?_⟩
  · have hbrace := (hends t ht).2
    rw [hnested] at hbrace
    simpa using hbrace
  · have hhead := List.head?_dropWhile_not (fun t : Token => !t.kind.endsRun nested) ts
    rw [Option.mem_def.mp ht] at hhead
    have hends : t.kind.endsRun nested = true := by simpa using hhead
    simpa [Kind.endsRun] using hends

/-- No other token is spelled like a symbol that ends a list. -/
theorem IsRead.kind_eq_of_text {t : Token} (h : t.IsRead) {s : Symbol} (hs : (Kind.symbol s).endsList = true)
    (htext : t.text = s.text) : t.kind = .symbol s := by
  obtain ⟨c, rest, place, offset, rfl⟩ := h
  have happend := Reading.text_append_rest_read c rest
  change (Reading.read c rest).text = s.text at htext
  rw [htext] at happend
  change (Reading.read c rest).kind = .symbol s
  cases s with
  | closeParen | closeBracket | closeBrace | semicolon | comma =>
      obtain ⟨rfl, -⟩ := List.cons.inj happend
      rfl
  | _ => cases hs

end Token

namespace Place

/-- What the lexemes of an unparsed node may be at a place in front of the tokens `ts`. A body without braces has no
such node. -/
def Bounds : Place → List Token → List Lexeme → Prop
  | .within, _, lexemes => lexemes.length ≤ 1 ∧ ∀ l ∈ lexemes,
    ∀ s ∈ [Symbol.closeParen, .closeBracket, .closeBrace, .semicolon, .comma], l.text ≠ s.text
  | .single, _, _ => False
  | .listed nested, ts, lexemes => ∃ run rest, Token.significant ts = run ++ rest ∧
    lexemes.map Lexeme.text = run.map Token.text ∧ Token.IsRun nested run rest

variable {place : Place} {ts : List Token} {lexemes : List Lexeme}

theorem run_ne_nil (h : (unparsed lexemes).Recovers place ts) (hplace : place ≠ .within) : place.run ts ≠ [] := by
  intro hrun
  have htexts := h.1
  rw [hrun] at htexts
  exact h.2.resolve_left hplace (List.map_eq_nil_iff.mp htexts)

theorem mem_of_mem_run {t : Token} (h : t ∈ place.run ts) : t ∈ ts := by
  cases place with
  | listed nested => exact (List.mem_filter.mp ((List.takeWhile_sublist _).subset h)).1
  | single => cases h
  | within => exact (List.mem_filter.mp (List.mem_of_mem_take (List.mem_filter.mp h).1)).1

/-- Behind a run nothing more is left unparsed. -/
theorem run_behind (hplace : place ≠ .within) (ts : List Token) :
    place.run (Token.behind (place.run ts).length ts) = [] := by
  cases place with
  | listed nested =>
      let goes (t : Token) : Bool := !t.kind.endsRun nested
      change (Token.significant (Token.behind ((Token.significant ts).takeWhile goes).length ts)).takeWhile goes = []
      rw [Token.significant_behind]
      generalize Token.significant ts = us
      have hdrop : us.drop (us.takeWhile goes).length = us.dropWhile goes :=
        (congrArg (List.drop _) List.takeWhile_append_dropWhile.symm).trans List.drop_left
      rw [hdrop]
      have hhead := List.head?_dropWhile_not goes us
      cases hrest : us.dropWhile goes with
      | nil => rfl
      | cons t us =>
          rw [hrest] at hhead
          exact List.takeWhile_cons_of_neg (by simpa using hhead)
  | single => rfl
  | within => exact absurd rfl hplace

theorem bounds_of_recovers (hread : ∀ t ∈ ts, t.IsRead) (h : (unparsed lexemes).Recovers place ts) :
    place.Bounds ts lexemes := by
  cases place with
  | within =>
      obtain ⟨htexts, -⟩ := h
      have hlength : lexemes.length ≤ 1 := by
        have hlengths := congrArg List.length htexts
        rw [List.length_map, List.length_map] at hlengths
        rw [hlengths]
        exact (List.length_filter_le _ _).trans (List.length_take_le 1 _)
      refine ⟨hlength, fun l hl s hs htext => ?_⟩
      have hends : (Kind.symbol s).endsList = true := by
        clear htext
        revert s
        decide
      obtain ⟨t, ht, hsame⟩ := List.mem_map.mp (htexts ▸ List.mem_map_of_mem hl)
      obtain ⟨hnext, hleft⟩ := List.mem_filter.mp ht
      have hmem : t ∈ ts := (List.mem_filter.mp (List.mem_of_mem_take hnext)).1
      rw [(hread t hmem).kind_eq_of_text hends (hsame.trans htext), hends] at hleft
      cases hleft
  | single => exact run_ne_nil h nofun rfl
  | listed nested =>
      exact ⟨_, _, List.takeWhile_append_dropWhile.symm, h.1, Token.isRun_takeWhile (run_ne_nil h nofun)⟩

end Place

/-! ### Entries of lists -/

namespace Spot

variable {P : Place → List Token → Node → Prop} {ts : List Token}

/-- What holds of the nodes of a program where they stand holds of the entries of its lists. -/
theorem All.of_entryLists {p : Program} (h : All P ts p.spots) {nodes : List Node} (hnodes : nodes ∈ p.entryLists) :
    ∃ place k, place ≠ .within ∧ All P (Token.behind k ts) (nodes.map (placed place)) := by
  rcases List.mem_cons.mp hnodes with rfl | hnodes
  · exact ⟨.listed false, 0, nofun, h⟩
  · obtain ⟨n, hn, hblock⟩ := List.mem_flatMap.mp hnodes
    obtain ⟨b, hb, rfl⟩ := List.mem_map.mp hblock
    obtain ⟨place, before, hoccurs⟩ := Program.exists_occurs_iff.mpr hn
    obtain ⟨front, back, hspots⟩ := exists_spots_eq hb
    have hparts := h.of_occurs hoccurs
    rw [hspots, List.append_assoc, all_append, all_append] at hparts
    have hstatements := hparts.2.1
    rw [← Token.behind_add] at hstatements
    refine ⟨b.place, _, ?_, hstatements⟩
    unfold Block.place
    split <;> exact nofun

/-- Of an unparsed node a walk meets as many significant tokens as it has lexemes, if these have texts. -/
theorem count_unparsed {lexemes : List Lexeme} (h : ∀ l ∈ lexemes, l.text ≠ []) :
    Event.count (unparsed lexemes).events = lexemes.length := by
  rw [events_eq, parts, List.flatMap_map]
  induction lexemes with
  | nil => rfl
  | cons l ls ih =>
      obtain ⟨hl, hls⟩ := List.forall_mem_cons.mp h
      have hone : Event.count (Part.events (.lexeme l)) = 1 := by
        rw [Part.events, Event.count_lexeme, if_neg]
        simp [Lexeme.isMissing, hl]
      rw [List.flatMap_cons, Event.count_append, hone, ih hls, List.length_cons, Nat.add_comm]

/-- Where an unparsed node stands among the entries of a list, and behind it only trivia and another unparsed node, the
run of the first one was not taken as far as it goes. -/
theorem All.exists_between {exact : Prop} {place : Place} (hplace : place ≠ .within) (hread : ∀ t ∈ ts, t.IsRead)
    {front between back : List Node} {lexemes others : List Lexeme}
    (h : All (Suits exact false) ts
      ((front ++ unparsed lexemes :: (between ++ unparsed others :: back)).map (placed place))) :
    ∃ n ∈ between, n.isTrivia = false := by
  -- otherwise the second node would stand right behind the run of the first, where nothing is left unparsed
  by_contra! htrivia
  have hbetween : ∀ n ∈ between, n.isTrivia = true := fun n hn => Bool.of_not_eq_false (htrivia n hn)
  rw [List.map_append] at h
  have hrest := (all_append.mp h).2
  generalize hus : Token.behind (Event.count (events (front.map (placed place)))) ts = us at hrest
  rw [List.map_cons, List.map_append] at hrest
  obtain ⟨hfirst, hbehind⟩ := all_cons.mp hrest
  have hrecovers := (all_placed.mp hfirst).1.recovers rfl
  have hlength : Event.count (unparsed lexemes).events = (place.run us).length := by
    have hread' : ∀ t ∈ us, t.IsRead := fun t ht => hread t (Token.mem_of_mem_behind (hus ▸ ht))
    have htexts : ∀ l ∈ lexemes, l.text ≠ [] := by
      intro l hl
      obtain ⟨t, ht, hsame⟩ := List.mem_map.mp (hrecovers.1 ▸ List.mem_map_of_mem hl)
      exact hsame ▸ (hread' t (Place.mem_of_mem_run ht)).text_ne_nil
    rw [count_unparsed htexts, ← List.length_map (f := Lexeme.text), hrecovers.1, List.length_map]
  change All _ (Token.behind (Event.count (unparsed lexemes).events) us) _ at hbehind
  rw [hlength, all_append, count_of_isTrivia hbetween] at hbehind
  have hsecond := (all_placed.mp (all_cons.mp hbehind.2).1).1.recovers rfl
  exact Place.run_ne_nil hsecond hplace (Place.run_behind hplace us)

end Spot

/-- Recovery stays within its bounds, for every source and every nesting limit that is not passed. Wherever an unparsed
node occurs, it holds what may be left unparsed there; and no two of them follow each other in a list of statements with
only trivia between them. -/
theorem Program.bounds_recovery (source : Text) (limit : Nat)
    (h : (Parser.ofSource source limit).program.2.isTooDeep = false) :
    let p := ofSource source limit
    (∀ place before lexemes, p.Occurs place before (.unparsed lexemes) →
      place.Bounds (Token.behind (Event.count before) (tokenize source)) lexemes) ∧
      ∀ nodes ∈ p.entryLists, ∀ front lexemes between others back,
        nodes = front ++ .unparsed lexemes :: (between ++ .unparsed others :: back) →
          ∃ n ∈ between, n.isTrivia = false := by
  intro p
  have hread : ∀ t ∈ tokenize source, t.IsRead := fun t ht => (cut_tokenize source).isRead ht
  have hall := all_suits source limit
  rw [h] at hall
  constructor
  · intro place before lexemes hoccurs
    exact Place.bounds_of_recovers (fun t ht => hread t (Token.mem_of_mem_behind ht))
      ((hall place before _ hoccurs).recovers rfl)
  · rintro nodes hnodes front lexemes between others back rfl
    obtain ⟨place, k, hplace, hentries⟩ := hall.of_entryLists hnodes
    exact hentries.exists_between hplace fun t ht => hread t (Token.mem_of_mem_behind ht)

/-- Between a closing parenthesis that opens nothing and a name there are two statements, and the first is unparsed. -/
theorem Program.bounds_recovery_closeParen :
    (Parser.ofSource [')', 'x'] 2).program.2.isTooDeep = false ∧
      ∃ place before lexemes, (ofSource [')', 'x'] 2).Occurs place before (.unparsed lexemes) ∧
        place.Bounds (Token.behind (Event.count before) (tokenize [')', 'x'])) lexemes := by
  have hgiven : (Parser.statements [')', 'x'] 2).2.givenUp = false := by decide +kernel
  have hlimit := (Parser.isTooDeep_program [')', 'x'] 2).trans hgiven
  have hany : (ofSource [')', 'x'] 2).descendants.any Node.isUnparsed = true := by decide +kernel
  obtain ⟨n, hn, hunparsed⟩ := List.any_eq_true.mp hany
  obtain ⟨place, before, hoccurs⟩ := exists_occurs_iff.mpr hn
  cases n with
  | unparsed lexemes => exact ⟨hlimit, place, before, lexemes, hoccurs, (bounds_recovery _ _ hlimit).1 _ _ _ hoccurs⟩
  | _ => cases hunparsed

end LosslessSyntax
