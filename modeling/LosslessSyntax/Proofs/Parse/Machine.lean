import LosslessSyntax.Parse.Program
import LosslessSyntax.Proofs.Parse.Slicing

/-! The reading of a source by indices. A `Machine` keeps all tokens of its source and moves two indices over them,
cuts every text that it needs out of the source by bytes, and counts the levels that it has entered. Each of these
steps can go wrong: an index may be out of range, a slice may begin behind its end or inside a character, the counter
may drop below zero. A step in which an index or the counter would go wrong has no result. As long as the two indices
are where they should be none does, and each does to the tokens that are left what a cursor does. If moreover the source
is addressable, no slice goes wrong either: a step that checks every slice has the same result. -/

namespace LosslessSyntax

namespace Token

/-- The nodes of trivia, as `triviaNodes` makes them, if every slice of the source that they take is one. -/
def triviaNodes? (source : Text) (stop : Nat) : (run : Option Nat) → List Token → Option (List Node)
  | none, [] => some []
  | some start, [] => do
    let blanks ← source.between? start stop
    return [.whitespace blanks]
  | none, t :: ts =>
    if t.kind.isComment then do
      let nodes ← triviaNodes? source stop none ts
      return .comment t.text :: nodes
    else triviaNodes? source stop (some t.offset) ts
  | some start, t :: ts =>
    if t.kind.isComment then do
      let blanks ← source.between? start t.offset
      let nodes ← triviaNodes? source stop none ts
      return .whitespace blanks :: .comment t.text :: nodes
    else triviaNodes? source stop (some start) ts

/-- The end of input, behind all tokens of the source. -/
def endOfSource (source : Text) : Token := (Scanner.ofText source).finish.2.token

/-- The token with an index, or the end of input behind the last one. -/
def tokenAt (source : Text) (i : Nat) : Token := (tokenize source)[i]?.getD (endOfSource source)

/-- The offset of the token with an index, or the length of the source behind the last one. -/
def offsetAt (source : Text) (i : Nat) : Nat :=
  ((tokenize source)[i]?.map fun t => t.offset.toNat).getD source.byteLength

/-- The index of the first significant token from the one with index `i` on, or the number of tokens. -/
def significantFrom (source : Text) (i : Nat) : Nat :=
  let tokens := tokenize source
  if i ≤ tokens.length then i + (tokens.drop i).findIdx fun t => !t.isTrivia else tokens.length

end Token

/-- A reading of `source` with at most `limit` levels: the index of the first token that was not taken, that of the
first significant one from there on, how many levels were entered and not left, whether reading was given up, and
what was noted. -/
structure Machine (source : Text) (limit : Nat) where
  pos : Nat
  current : Nat
  depth : Nat := 0
  givenUp : Bool := false
  diagnostics : Diagnostics := []

namespace Machine

variable {source : Text} {limit : Nat}

/-- Nothing has been read yet. -/
def start (source : Text) (limit : Nat) : Machine source limit where
  pos := 0
  current := Token.significantFrom source 0

/-- The next significant token, or the end of input. -/
def here (m : Machine source limit) : Token := Token.tokenAt source m.current

/-- The kind of the next significant token, as reading sees it. -/
def kind (m : Machine source limit) : Kind :=
  if m.givenUp then .endOfInput else ((tokenize source)[m.current]?.map Token.kind).getD .endOfInput

/-- The kind of the significant token behind the next one. -/
def nextKind (m : Machine source limit) : Kind :=
  ((tokenize source)[Token.significantFrom source (m.current + 1)]?.map Token.kind).getD .endOfInput

/-- The tokens from the first one not taken up to an index, if the indices are in order and in range. -/
def window? (m : Machine source limit) (stop : Nat) : Option (List Token) :=
  if m.pos ≤ stop ∧ stop ≤ (tokenize source).length then some (((tokenize source).take stop).drop m.pos) else none

/-- Whether a line ends in front of the next significant token. -/
def followsLineBreak? (m : Machine source limit) : Option Bool := do
  let window ← m.window? m.current
  return Token.hasLineBreak window

/-- The state behind the next significant token. -/
def behindCurrent (m : Machine source limit) : Machine source limit :=
  { m with pos := m.current + 1, current := Token.significantFrom source (m.current + 1) }

/-- Takes the next significant token with the trivia in front of it, if there is one. -/
def bump (m : Machine source limit) : Lexeme × Machine source limit :=
  match (tokenize source)[m.current]? with
  | none => (.missing, m)
  | some t => (⟨source.cut (Token.offsetAt source m.pos) t.offset, t.text⟩, m.behindCurrent)

/-- Takes the next significant token, if the slice in front of it is one. -/
def checkedBump? (m : Machine source limit) : Option (Lexeme × Machine source limit) :=
  match (tokenize source)[m.current]? with
  | none => some (.missing, m)
  | some t => do
    let leading ← source.between? (Token.offsetAt source m.pos) t.offset
    return (⟨leading, t.text⟩, m.behindCurrent)

/-- Takes the trivia up to an index as nodes. -/
def takeUntil? (m : Machine source limit) (stop : Nat) : Option (List Node × Machine source limit) := do
  let window ← m.window? stop
  return (Token.triviaNodes source (Token.offsetAt source stop) none window, { m with pos := stop })

/-- Takes the trivia up to an index as nodes, if every slice that these take is one. -/
def checkedTakeUntil? (m : Machine source limit) (stop : Nat) : Option (List Node × Machine source limit) := do
  let window ← m.window? stop
  let nodes ← Token.triviaNodes? source (Token.offsetAt source stop) none window
  return (nodes, { m with pos := stop })

/-- Takes the trivia in front of the next significant token. -/
def takeTrivia? (m : Machine source limit) : Option (List Node × Machine source limit) := m.takeUntil? m.current

/-- Takes the comments that begin on the line where the last token ended. -/
def takeTrailing? (m : Machine source limit) : Option (List Node × Machine source limit) := do
  let window ← m.window? m.current
  m.takeUntil? (m.pos + (Token.splitTrailing window).1.length)

/-- Notes a message about the next significant token, unless reading was given up. -/
def report (m : Machine source limit) (message : Message) (args : List Text) : Machine source limit :=
  if m.givenUp then m
  else { m with diagnostics := m.diagnostics ++ [.of message args (some m.here.location)] }

/-- Gives up reading. -/
def giveUp (m : Machine source limit) : Machine source limit := { m with givenUp := true }

/-- Sees again what is left. -/
def resume (m : Machine source limit) : Machine source limit := { m with givenUp := false }

def atDepth (m : Machine source limit) (depth : Nat) : Machine source limit := { m with depth }

/-- Enters a level and tells whether that is allowed. If it is not, this is noted and reading is given up. -/
def enter (m : Machine source limit) : Bool × Machine source limit :=
  let deeper := m.atDepth (m.depth + 1)
  if limit < deeper.depth then (false, (deeper.report .nestingTooDeep [Nat.toDigits 10 limit]).giveUp)
  else (true, deeper)

/-- Leaves a level, if one was entered. -/
def leave? (m : Machine source limit) : Option (Machine source limit) :=
  match m.depth with
  | 0 => none
  | depth + 1 => some (m.atDepth depth)

/-- The tokens that are left, as a cursor sees them. -/
def cursor (m : Machine source limit) : Cursor where
  source := source
  upcoming := (tokenize source).drop m.pos
  last := Token.endOfSource source
  givenUp := m.givenUp
  diagnostics := m.diagnostics

/-- Whether both indices are in range and in order, all tokens between them are trivia and the one that the second
tells is not, and no more levels were entered than the limit and the one that passes it. -/
structure IsSound (m : Machine source limit) : Prop where
  pos_le : m.pos ≤ m.current
  current_le : m.current ≤ (tokenize source).length
  trivia : ∀ t ∈ ((tokenize source).take m.current).drop m.pos, t.isTrivia = true
  significant : ∀ t ∈ (tokenize source)[m.current]?, t.isTrivia = false
  depth_le : m.depth ≤ limit + 1

end Machine

/-! ### Slices of the source -/

namespace Token

variable {source : Text} {ts us : List Token}

theorem offsetAt_eq (source : Text) (i : Nat) : offsetAt source i = offsetOf source ((tokenize source).drop i) := by
  rw [offsetAt, offsetOf, List.head?_drop]

/-- Where tokens stand as their offsets tell, every slice between two of them is one. -/
theorem Addressed.between?_eq_cut (h : Addressed source (ts ++ us)) :
    source.between? (offsetOf source (ts ++ us)) (offsetOf source us) =
      some (source.cut (offsetOf source (ts ++ us)) (offsetOf source us)) := by
  rw [h.cut, h.between?]

/-- So trivia become the same nodes if every slice is checked. -/
theorem triviaNodes?_eq (h : Addressed source (ts ++ us)) :
    triviaNodes? source (offsetOf source us) none ts = some (triviaNodes source (offsetOf source us) none ts) ∧
      ∀ run, Addressed source (run ++ (ts ++ us)) →
        triviaNodes? source (offsetOf source us) (some (offsetOf source (run ++ (ts ++ us)))) ts =
          some (triviaNodes source (offsetOf source us) (some (offsetOf source (run ++ (ts ++ us)))) ts) := by
  induction ts with
  | nil =>
      refine ⟨rfl, fun run hrun => ?_⟩
      rw [List.nil_append] at hrun ⊢
      rw [triviaNodes?, hrun.between?_eq_cut]
      rfl
  | cons t ts ih =>
      obtain ⟨hnone, hsome⟩ := ih (h.of_suffix (List.suffix_cons t _))
      have hstart : offsetOf source (t :: (ts ++ us)) = t.offset.toNat := rfl
      rw [List.cons_append] at h ⊢
      by_cases hcomment : t.kind.isComment = true
      · refine ⟨?_, fun run hrun => ?_⟩
        · rw [triviaNodes?, triviaNodes, if_pos hcomment, if_pos hcomment, hnone]
          rfl
        · rw [triviaNodes?, triviaNodes, if_pos hcomment, if_pos hcomment, ← hstart, hrun.between?_eq_cut, hnone]
          rfl
      · refine ⟨?_, fun run hrun => ?_⟩
        · rw [triviaNodes?, triviaNodes, if_neg hcomment, if_neg hcomment, ← hstart]
          exact hsome [t] h
        · rw [List.append_cons] at hrun ⊢
          rw [triviaNodes?, triviaNodes, if_neg hcomment, if_neg hcomment, hsome _ hrun]

/-- From an index in range on, the first significant token is found, or the end. -/
theorem significantFrom_spec {i : Nat} (h : i ≤ (tokenize source).length) :
    i ≤ significantFrom source i ∧ significantFrom source i ≤ (tokenize source).length ∧
      (∀ t ∈ ((tokenize source).take (significantFrom source i)).drop i, t.isTrivia = true) ∧
        ∀ t ∈ (tokenize source)[significantFrom source i]?, t.isTrivia = false := by
  have hindex : significantFrom source i = i + ((tokenize source).drop i).findIdx fun t => !t.isTrivia := if_pos h
  rw [hindex]
  refine ⟨Nat.le_add_right _ _, ?_, fun t ht => ?_, fun t ht => ?_⟩
  · have hle : ((tokenize source).drop i).findIdx (fun t => !t.isTrivia) ≤ ((tokenize source).drop i).length :=
      List.findIdx_le_length
    rw [List.length_drop] at hle
    omega
  · rw [List.drop_take, Nat.add_sub_cancel_left, ← List.takeWhile_eq_take_findIdx_not] at ht
    exact List.all_eq_true.mp List.all_takeWhile t ht
  · rw [← List.getElem?_drop] at ht
    obtain ⟨hlt, rfl⟩ := List.getElem?_eq_some_iff.mp ht
    simpa using List.findIdx_getElem (w := hlt)

/-- Behind an index, what is passed over up to the first significant token are trivia. -/
theorem drop_significantFrom (source : Text) (i : Nat) :
    (tokenize source).drop (significantFrom source i) = ((tokenize source).drop i).dropWhile isTrivia := by
  by_cases hi : i ≤ (tokenize source).length
  · have hindex : significantFrom source i = i + ((tokenize source).drop i).findIdx fun t => !t.isTrivia := if_pos hi
    rw [hindex, ← List.drop_drop, ← List.dropWhile_eq_drop_findIdx_not]
  · have hindex : significantFrom source i = (tokenize source).length := if_neg hi
    rw [hindex, List.drop_length, List.drop_eq_nil_of_le (Nat.le_of_not_le hi)]
    rfl

end Token

/-! ### What the steps do to the tokens that are left -/

namespace Machine

variable {A : Type} {source : Text} {limit : Nat} {m : Machine source limit}

theorem isSound_start (source : Text) (limit : Nat) : (start source limit).IsSound := by
  obtain ⟨hle, hlength, htrivia, hsignificant⟩ := Token.significantFrom_spec (Nat.zero_le (tokenize source).length)
  exact ⟨hle, hlength, htrivia, hsignificant, Nat.zero_le _⟩

/-- The tokens from the first one not taken up to an index, and those behind it. -/
theorem window_append_drop {stop : Nat} (hpos : m.pos ≤ stop) :
    ((tokenize source).take stop).drop m.pos ++ (tokenize source).drop stop = (tokenize source).drop m.pos := by
  have hstop : (tokenize source).drop stop = ((tokenize source).drop m.pos).drop (stop - m.pos) := by
    rw [List.drop_drop, Nat.add_sub_of_le hpos]
  rw [List.drop_take, hstop, List.take_append_drop]

namespace IsSound

theorem drop_pos (h : m.IsSound) : (tokenize source).drop m.pos =
    ((tokenize source).take m.current).drop m.pos ++ (tokenize source).drop m.current :=
  (window_append_drop h.pos_le).symm

theorem ahead (h : m.IsSound) : m.cursor.ahead = (tokenize source).drop m.current := by
  have hstop : ((tokenize source).drop m.current).dropWhile Token.isTrivia = (tokenize source).drop m.current := by
    cases hdrop : (tokenize source).drop m.current with
    | nil => rfl
    | cons t ts =>
        have ht : (tokenize source)[m.current]? = some t := by rw [← List.head?_drop, hdrop, List.head?_cons]
        rw [List.dropWhile_cons_of_neg (by simp [h.significant t ht])]
  rw [Cursor.ahead, cursor, h.drop_pos, List.dropWhile_append_of_pos h.trivia, hstop]

theorem cursor_trivia (h : m.IsSound) : m.cursor.trivia = ((tokenize source).take m.current).drop m.pos := by
  have happend := m.cursor.trivia_append_ahead
  rw [h.ahead] at happend
  exact List.append_cancel_right (happend.trans h.drop_pos)

theorem head?_ahead (h : m.IsSound) : m.cursor.ahead.head? = (tokenize source)[m.current]? := by
  rw [h.ahead, List.head?_drop]

theorem here (h : m.IsSound) : m.here = m.cursor.current := by
  rw [Machine.here, Token.tokenAt, Cursor.current, h.head?_ahead, cursor]

theorem kind (h : m.IsSound) : m.kind = m.cursor.kind := by
  rw [Machine.kind, Cursor.kind, ← h.head?_ahead]
  cases m.cursor.ahead <;> rfl

theorem nextKind (h : m.IsSound) : m.nextKind = m.cursor.nextKind := by
  rw [Machine.nextKind, Cursor.nextKind, h.ahead, List.drop_drop, ← Token.drop_significantFrom, ← List.head?_drop]
  cases (tokenize source).drop (Token.significantFrom source (m.current + 1)) <;> rfl

theorem window? (h : m.IsSound) {stop : Nat} (hpos : m.pos ≤ stop) (hstop : stop ≤ m.current) :
    m.window? stop = some (((tokenize source).take stop).drop m.pos) :=
  if_pos ⟨hpos, Nat.le_trans hstop h.current_le⟩

theorem followsLineBreak? (h : m.IsSound) : m.followsLineBreak? = some m.cursor.followsLineBreak := by
  rw [Machine.followsLineBreak?, h.window? h.pos_le (Nat.le_refl _), ← h.cursor_trivia]
  rfl

theorem giveUp (h : m.IsSound) : m.giveUp.IsSound :=
  ⟨h.pos_le, h.current_le, h.trivia, h.significant, h.depth_le⟩

theorem resume (h : m.IsSound) : m.resume.IsSound :=
  ⟨h.pos_le, h.current_le, h.trivia, h.significant, h.depth_le⟩

theorem atDepth (h : m.IsSound) {depth : Nat} (hdepth : depth ≤ limit + 1) : (m.atDepth depth).IsSound :=
  ⟨h.pos_le, h.current_le, h.trivia, h.significant, hdepth⟩

theorem report (h : m.IsSound) (message : Message) (args : List Text) : (m.report message args).IsSound := by
  unfold Machine.report
  split
  · exact h
  · exact ⟨h.pos_le, h.current_le, h.trivia, h.significant, h.depth_le⟩

theorem cursor_report (h : m.IsSound) (message : Message) (args : List Text) :
    (m.report message args).cursor = m.cursor.report message args := by
  rw [Machine.report, Cursor.report, ← h.here]
  change _ = if m.givenUp then _ else _
  split <;> rfl

end IsSound

/-- Whether a step of `m` has a result, the one that reading from the cursor has, and ends where that ends, as sound
as it began and on the same level. -/
def Mirrors (m : Machine source limit) (step : Option (A × Machine source limit)) (read : A × Cursor) : Prop :=
  ∃ m', step = some (read.1, m') ∧ m'.cursor = read.2 ∧ m'.IsSound ∧ m'.depth = m.depth

namespace IsSound

theorem behindCurrent (h : m.IsSound) (hlt : m.current < (tokenize source).length) : m.behindCurrent.IsSound := by
  obtain ⟨hle, hlength, htrivia, hsignificant⟩ := @Token.significantFrom_spec source (m.current + 1) hlt
  exact ⟨hle, hlength, htrivia, hsignificant, h.depth_le⟩

theorem mirrors_bump (h : m.IsSound) : m.Mirrors (some m.bump) m.cursor.bump := by
  have hhead := h.head?_ahead
  cases hahead : m.cursor.ahead with
  | nil =>
      rw [hahead] at hhead
      have hbump : m.bump = (.missing, m) := by rw [bump, ← hhead]; rfl
      rw [hbump, Cursor.bump, hahead]
      exact ⟨m, rfl, rfl, h, rfl⟩
  | cons t rest =>
      rw [hahead] at hhead
      have hlt : m.current < (tokenize source).length := (List.getElem?_eq_some_iff.mp hhead.symm).1
      have hbump : m.bump = (⟨source.cut (Token.offsetAt source m.pos) t.offset, t.text⟩, m.behindCurrent) := by
        rw [bump, ← hhead]
        rfl
      have hrest : rest = (tokenize source).drop (m.current + 1) := by
        rw [← List.drop_drop, ← h.ahead, hahead, List.drop_one, List.tail_cons]
      rw [hbump, Cursor.bump, hahead, Token.offsetAt_eq, hrest]
      exact ⟨m.behindCurrent, rfl, rfl, h.behindCurrent hlt, rfl⟩

/-- Up to an index between the two, taking trivia goes well. -/
theorem mirrors_takeUntil (h : m.IsSound) {stop : Nat} (hpos : m.pos ≤ stop) (hstop : stop ≤ m.current) :
    m.Mirrors (m.takeUntil? stop)
      (Token.triviaNodes source (Token.offsetAt source stop) none (((tokenize source).take stop).drop m.pos),
        { m.cursor with upcoming := (tokenize source).drop stop }) := by
  refine ⟨{ m with pos := stop }, ?_, rfl, ⟨hstop, h.current_le, fun t ht => ?_, h.significant, h.depth_le⟩, rfl⟩
  · rw [takeUntil?, h.window? hpos hstop]
    rfl
  · rw [← Nat.add_sub_of_le hpos, ← List.drop_drop] at ht
    exact h.trivia t (List.drop_subset _ _ ht)

theorem mirrors_takeTrivia (h : m.IsSound) : m.Mirrors m.takeTrivia? m.cursor.takeTrivia := by
  have htaken := h.mirrors_takeUntil h.pos_le (Nat.le_refl _)
  rwa [← h.cursor_trivia, Token.offsetAt_eq, ← h.ahead] at htaken

theorem mirrors_takeTrailing (h : m.IsSound) : m.Mirrors m.takeTrailing? m.cursor.takeTrailing := by
  have hsplit := Token.splitTrailing_append m.cursor.trivia
  have hwindow := h.window? h.pos_le (Nat.le_refl _)
  have hlength : (m.cursor.trivia).length = m.current - m.pos := by
    rw [h.cursor_trivia, List.length_drop, List.length_take, Nat.min_eq_left h.current_le]
  rw [← h.cursor_trivia] at hwindow
  rw [takeTrailing?, hwindow]
  change m.Mirrors (m.takeUntil? _)
    (Token.triviaNodes source (Token.offsetOf source ((Token.splitTrailing m.cursor.trivia).2 ++ m.cursor.ahead)) none
      (Token.splitTrailing m.cursor.trivia).1,
      { m.cursor with upcoming := (Token.splitTrailing m.cursor.trivia).2 ++ m.cursor.ahead })
  generalize Token.splitTrailing m.cursor.trivia = split at hsplit
  obtain ⟨trailing, others⟩ := split
  replace hsplit : trailing ++ others = m.cursor.trivia := hsplit
  have hdrop : (tokenize source).drop m.pos = trailing ++ (others ++ m.cursor.ahead) := by
    rw [← List.append_assoc, hsplit, m.cursor.trivia_append_ahead]
    rfl
  have hstop : m.pos + trailing.length ≤ m.current := by
    have hle := congrArg List.length hsplit
    rw [List.length_append, hlength] at hle
    have := h.pos_le
    omega
  have htaken := h.mirrors_takeUntil (Nat.le_add_right m.pos trailing.length) hstop
  rwa [List.drop_take, Nat.add_sub_cancel_left, Token.offsetAt_eq, ← List.drop_drop, hdrop, List.take_left,
    List.drop_left] at htaken

/-! ### Checked slices -/

theorem isAddressed (haddress : source.IsAddressable) (m : Machine source limit) : m.cursor.IsAddressed :=
  (Token.addressed_tokenize haddress).of_suffix (List.drop_suffix m.pos _)

/-- Of an addressable source the slice in front of the next significant token is one. -/
theorem checkedBump?_eq (h : m.IsSound) (haddress : source.IsAddressable) : m.checkedBump? = some m.bump := by
  have hhead := h.head?_ahead
  rw [checkedBump?, bump]
  cases htoken : (tokenize source)[m.current]? with
  | none => rfl
  | some t =>
      rw [htoken] at hhead
      obtain ⟨rest, hahead⟩ := List.head?_eq_some_iff.mp hhead
      have haddressed := isAddressed haddress m
      rw [Cursor.IsAddressed, ← m.cursor.trivia_append_ahead, hahead] at haddressed
      have hslice := haddressed.between?_eq_cut
      rw [← hahead, m.cursor.trivia_append_ahead, hahead] at hslice
      change (source.between? (Token.offsetAt source m.pos) t.offset).bind _ = _
      rw [Token.offsetAt_eq]
      exact congrArg (Option.bind · _) hslice

/-- So are the slices that trivia take, up to any index between the two. -/
theorem checkedTakeUntil?_eq (h : m.IsSound) (haddress : source.IsAddressable) {stop : Nat} (hpos : m.pos ≤ stop)
    (hstop : stop ≤ m.current) : m.checkedTakeUntil? stop = m.takeUntil? stop := by
  have haddressed : Token.Addressed source ((tokenize source).drop m.pos) := isAddressed haddress m
  rw [← window_append_drop hpos] at haddressed
  rw [checkedTakeUntil?, takeUntil?, h.window? hpos hstop, Token.offsetAt_eq]
  change (Token.triviaNodes? source _ none _).bind _ = _
  rw [(Token.triviaNodes?_eq haddressed).1]
  rfl

end IsSound

end Machine

end LosslessSyntax
