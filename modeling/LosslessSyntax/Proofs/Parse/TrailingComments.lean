import LosslessSyntax.Proofs.Parse.Spelling
import LosslessSyntax.Proofs.Token.Trivia
import LosslessSyntax.Proofs.Tree.Attachment

/-! Comments in front of an `else`. They are taken off the trivia tokens that are left, where all other comments are
attached to a statement once its list has been read, and its blanks have become nodes. Both go by one rule: of the same
trivia the same nodes come to stand in the closure, and the same text is left. -/

namespace LosslessSyntax

namespace Token

/-- The index behind the last comment that begins on the line. The tokens left begin with index `i`, and behind the
last comment found so far stands index `stop`. -/
def trailingStop (stop i : Nat) : List Token → Nat
  | [] => stop
  | t :: ts =>
    if t.kind = .lineBreak then stop
    else if t.kind.isComment then
      if t.text.hasLineBreak then i + 1 else trailingStop (i + 1) (i + 1) ts
    else trailingStop stop (i + 1) ts

theorem trailingStop_eq (stop i : Nat) (ts : List Token) : trailingStop stop i ts =
    if (splitTrailing ts).1.isEmpty then stop else i + (splitTrailing ts).1.length := by
  induction ts generalizing stop i with
  | nil => rfl
  | cons t ts ih =>
      rw [trailingStop, splitTrailing]
      by_cases hbreak : t.kind = .lineBreak
      · rw [if_pos hbreak, if_pos hbreak]
        rfl
      rw [if_neg hbreak, if_neg hbreak]
      by_cases hcomment : t.kind.isComment = true
      · rw [if_pos hcomment, if_pos hcomment]
        by_cases hlines : t.text.hasLineBreak = true
        · rw [if_pos hlines, if_pos hlines]
          rfl
        · rw [if_neg hlines, if_neg hlines, ih]
          by_cases hsplit : (splitTrailing ts).1 = []
          · simp [hsplit]
          · simp [hsplit]
            omega
      · rw [if_neg hcomment, if_neg hcomment, ih]
        by_cases hsplit : (splitTrailing ts).1 = []
        · simp [hsplit]
        · simp [hsplit]
          omega

/-- What is split off are the tokens up to that index. -/
theorem take_trailingStop (ts : List Token) : ts.take (trailingStop 0 0 ts) = (splitTrailing ts).1 := by
  have hstop : trailingStop 0 0 ts = (splitTrailing ts).1.length := by
    rw [trailingStop_eq]
    split
    · next hsplit => rw [List.isEmpty_iff.mp hsplit, List.length_nil]
    · exact Nat.zero_add _
  calc ts.take (trailingStop 0 0 ts)
      = ((splitTrailing ts).1 ++ (splitTrailing ts).2).take (splitTrailing ts).1.length := by
        rw [hstop, splitTrailing_append]
    _ = (splitTrailing ts).1 := List.take_left

/-! ### Splitting tokens and splitting nodes -/

variable {blanks : Text} {nodes behind : List Node} {ts : List Token}

theorem joinedNodes_eq_nil_iff : joinedNodes ts = [] ↔ ts = [] := by
  cases ts with
  | nil => simp [joinedNodes]
  | cons t ts =>
      rw [joinedNodes]
      split
      · simp
      · unfold afterBlanks
        split <;> simp

/-- Nodes that do not begin with blanks take none in. -/
theorem afterBlanks_of_head (h : ∀ n ∈ nodes.head?, n.isWhitespace = false) :
    afterBlanks blanks nodes = .whitespace blanks :: nodes := by
  unfold afterBlanks
  split
  · cases h _ rfl
  · rfl

theorem afterBlanks_append_right (hbehind : ∀ n ∈ behind.head?, n.isTrivia = false) :
    afterBlanks blanks (nodes ++ behind) = afterBlanks blanks nodes ++ behind := by
  rcases nodes with _ | ⟨n, nodes⟩
  · have hfirst : ∀ n ∈ behind.head?, n.isWhitespace = false := fun n hn =>
      Node.isWhitespace_of_isTrivia_eq_false (hbehind n hn)
    rw [List.nil_append, afterBlanks_of_head hfirst]
    rfl
  · cases n <;> rfl

/-- Blanks that end the line trail nothing, and so does all behind them. -/
theorem splitTrailing_afterBlanks_of_lineBreak (h : blanks.hasLineBreak = true) :
    Node.splitTrailing (afterBlanks blanks nodes) = ([], afterBlanks blanks nodes) := by
  unfold afterBlanks
  split
  · exact Attachment.splitTrailing_whitespace (.inl (by rw [Text.hasLineBreak_append, h]; rfl))
  · exact Attachment.splitTrailing_whitespace (.inl h)

/-- Blanks within the line trail as long as something behind them does. -/
theorem splitTrailing_afterBlanks (h : blanks.hasLineBreak = false) :
    Node.splitTrailing (afterBlanks blanks nodes) =
      if (Node.splitTrailing nodes).1.isEmpty then ([], afterBlanks blanks nodes)
      else (afterBlanks blanks (Node.splitTrailing nodes).1, (Node.splitTrailing nodes).2) := by
  have hrun (run : Text) : (blanks ++ run).hasLineBreak = run.hasLineBreak := by
    rw [Text.hasLineBreak_append, h, Bool.false_or]
  fun_cases Node.splitTrailing nodes with
  | case1 text rest hbreak => simp [afterBlanks, Node.splitTrailing, h, hbreak]
  | case2 text rest hbreak trailing others heq => simp [afterBlanks, Node.splitTrailing, h, hbreak, heq]
  | case3 run text rest hblanks => simp [afterBlanks, Node.splitTrailing, hrun, hblanks]
  | case4 run text rest hblanks hbreak => simp [afterBlanks, Node.splitTrailing, hrun, hblanks, hbreak]
  | case5 run text rest hblanks hbreak trailing others heq =>
      simp [afterBlanks, Node.splitTrailing, hrun, hblanks, hbreak, heq]
  | case6 _ hcomment hblanks =>
      show Node.splitTrailing (afterBlanks blanks nodes) = ([], afterBlanks blanks nodes)
      unfold afterBlanks
      split
      · exact Attachment.splitTrailing_whitespace (.inr fun text more hmore => hblanks _ text more (by rw [hmore]))
      · exact Attachment.splitTrailing_whitespace (.inr fun text more => hcomment text more)

/-- Tokens and the nodes that they become are split alike. -/
theorem splitTrailing_joinedNodes (hts : ∀ t ∈ ts, t.isTrivia = true ∧ t.IsRead)
    (hbehind : ∀ n ∈ behind.head?, n.isTrivia = false) : Node.splitTrailing (joinedNodes ts ++ behind) =
      (joinedNodes (splitTrailing ts).1, joinedNodes (splitTrailing ts).2 ++ behind) := by
  induction ts with
  | nil =>
      cases behind with
      | nil => exact Attachment.splitTrailing_nil
      | cons n behind => exact Attachment.splitTrailing_of_not_trivia (hbehind n rfl)
  | cons t ts ih =>
      obtain ⟨⟨htrivia, hread⟩, hts⟩ := List.forall_mem_cons.mp hts
      have hsplit := ih hts
      cases hcomment : t.kind.isComment with
      | true =>
          have hkind : t.kind ≠ .lineBreak := fun h => by rw [h] at hcomment; cases hcomment
          rw [joinedNodes, splitTrailing, if_pos hcomment, if_neg hkind, if_pos hcomment, List.cons_append,
            Node.splitTrailing, hsplit]
          split
          · simp [joinedNodes, hcomment]
          · simp [joinedNodes, hcomment]
      | false =>
          rw [joinedNodes_cons_of_not_isComment hcomment, ← afterBlanks_append_right hbehind, splitTrailing]
          by_cases hkind : t.kind = .lineBreak
          · rw [if_pos hkind, splitTrailing_afterBlanks_of_lineBreak (hread.hasLineBreak_of_lineBreak hkind),
              afterBlanks_append_right hbehind, joinedNodes_cons_of_not_isComment hcomment]
            rfl
          · have hblank : t.kind = .blank := by
              unfold isTrivia at htrivia
              cases hk : t.kind <;> simp_all [Kind.isTrivia, Kind.isComment]
            rw [if_neg hkind, if_neg (by simp [hcomment]),
              splitTrailing_afterBlanks (hread.hasLineBreak_of_blank hblank), hsplit]
            by_cases hempty : (splitTrailing ts).1 = []
            · rw [hempty, afterBlanks_append_right hbehind, ← joinedNodes_cons_of_not_isComment hcomment]
              rfl
            · have hnodes : joinedNodes (splitTrailing ts).1 ≠ [] := mt joinedNodes_eq_nil_iff.mp hempty
              rw [if_neg (by simpa using hnodes), if_neg (by simpa using hempty),
                joinedNodes_cons_of_not_isComment hcomment]

end Token

/-! ### Both paths -/

theorem Node.attachTrailing_append_of_isTrivia {nodes others : List Node} (h : ∀ n ∈ nodes, n.isTrivia = true) :
    attachTrailing (nodes ++ others) = nodes ++ attachTrailing others := by
  induction nodes with
  | nil => rfl
  | cons n nodes ih =>
      obtain ⟨hn, hnodes⟩ := List.forall_mem_cons.mp h
      have hcommand : n.isCommand = false := by cases n <;> first | rfl | cases hn
      rw [List.cons_append, Attachment.attachTrailing_cons hcommand, ih hnodes, List.cons_append]

theorem Token.restoreList_joinedNodes {ts : List Token} (h : ∀ t ∈ ts, t.isTrivia = true) :
    Node.restoreList (joinedNodes ts) = restore ts := by
  have hspells := (spells_joinedNodes h).restore
  rw [List.flatMap_assoc] at hspells
  exact hspells

namespace Cursor

variable {c : Cursor}

/-- Of the trivia that are left the comments that trail are gone. -/
theorem trivia_takeTrailing (c : Cursor) : c.takeTrailing.2.trivia = (Token.splitTrailing c.trivia).2 := by
  have happend := c.takeTrailing.2.trivia_append_ahead
  rw [ahead_takeTrailing] at happend
  exact List.append_cancel_right happend

/-- Whatever trivia stand behind a token of an addressable source, and whatever has been noted before: the comments that
are taken off them for the body in front of an `else` are those up to the last one that begins on the line, and they are
the closure that a statement gets in front of the nodes that the same trivia become. What is left of the trivia leads
the next lexeme, and is the text of the nodes that are left behind the statement. -/
theorem takeTrailing_eq_attachTrailing (haddress : c.source.IsAddressable) (h : c.upcoming <:+ tokenize c.source)
    (inner : Node) (semicolon : Option Lexeme) {behind : List Node} (hbehind : ∀ n ∈ behind.head?, n.isTrivia = false) :
    let trailing := c.takeTrailing.1
    let d := c.takeTrailing.2
    Node.attachTrailing (.command inner semicolon [] :: (c.takeTrivia.1 ++ behind)) =
        .command inner semicolon trailing :: (d.takeTrivia.1 ++ Node.attachTrailing behind) ∧
      trailing = Token.triviaNodes c.source (Token.offsetOf c.source d.upcoming) none
        (c.trivia.take (Token.trailingStop 0 0 c.trivia)) ∧
      Node.restoreList d.takeTrivia.1 = Token.restore d.trivia ∧
      ∀ t ∈ c.ahead.head?, d.bump.1 = ⟨Node.restoreList d.takeTrivia.1, t.text⟩ := by
  intro trailing d
  have haddressed : c.IsAddressed := (Token.addressed_tokenize haddress).of_suffix h
  have haddressed' : d.IsAddressed := haddressed.run Rule.takeTrailing
  have htrivia : ∀ t ∈ c.trivia, t.isTrivia = true ∧ t.IsRead := fun t ht => by
    refine ⟨isTrivia_of_mem_trivia ht, (cut_tokenize c.source).isRead (h.subset ?_)⟩
    rw [← c.trivia_append_ahead]
    exact List.mem_append_left _ ht
  have hleft : d.takeTrivia.1 = Token.joinedNodes (Token.splitTrailing c.trivia).2 :=
    haddressed'.takeTrivia_eq.trans (congrArg Token.joinedNodes c.trivia_takeTrailing)
  have hrestore : Node.restoreList d.takeTrivia.1 = Token.restore d.trivia := by
    rw [haddressed'.takeTrivia_eq]
    exact Token.restoreList_joinedNodes fun t ht => isTrivia_of_mem_trivia ht
  refine ⟨?_, ?_, hrestore, fun t ht => ?_⟩
  · calc Node.attachTrailing (.command inner semicolon [] :: (c.takeTrivia.1 ++ behind))
        = .command inner semicolon (Token.joinedNodes (Token.splitTrailing c.trivia).1) ::
            Node.attachTrailing (Token.joinedNodes (Token.splitTrailing c.trivia).2 ++ behind) := by
          rw [Node.attachTrailing, Node.closureWith_nil, haddressed.takeTrivia_eq,
            Token.splitTrailing_joinedNodes htrivia hbehind]
      _ = .command inner semicolon trailing :: (d.takeTrivia.1 ++ Node.attachTrailing behind) := by
          have hnodes : ∀ n ∈ d.takeTrivia.1, n.isTrivia = true := Token.isTrivia_triviaNodes
          rw [← hleft, ← haddressed.takeTrailing_eq, Node.attachTrailing_append_of_isTrivia hnodes]
  · rw [Token.take_trailingStop]
    rfl
  · obtain ⟨rest, hahead⟩ := List.head?_eq_some_iff.mp ht
    rw [hrestore, haddressed'.bump_eq (c.ahead_takeTrailing.trans hahead)]

theorem takeTrailing_eq_attachTrailing_comment :
    let source := "; //\n else".toList
    let c : Cursor :=
      { source, upcoming := (tokenize source).drop 1, last := (Scanner.ofText source).finish.2.token }
    c.source.IsAddressable ∧ c.upcoming <:+ tokenize c.source ∧
      Node.attachTrailing (.command .empty none [] :: (c.takeTrivia.1 ++ [])) =
        [.command .empty none [.whitespace [' '], .comment ['/', '/']], .whitespace ['\n', ' ']] ∧
      c.takeTrailing.2.bump.1 = ⟨['\n', ' '], "else".toList⟩ := by
  intro source c
  have haddress : c.source.IsAddressable := by decide +kernel
  have hsuffix : c.upcoming <:+ tokenize c.source := List.drop_suffix 1 _
  have hbehind : ∀ n ∈ ([] : List Node).head?, n.isTrivia = false := nofun
  obtain ⟨hattach, -, -, hbump⟩ := takeTrailing_eq_attachTrailing haddress hsuffix .empty none hbehind
  have htrivia : c.trivia = [⟨.blank, [' '], ⟨1, 2⟩, 1, {}⟩, ⟨.lineComment, ['/', '/'], ⟨1, 3⟩, 2, {}⟩,
    ⟨.lineBreak, ['\n'], ⟨1, 5⟩, 4, {}⟩, ⟨.blank, [' '], ⟨2, 1⟩, 5, {}⟩] := by decide +kernel
  have htrailing : c.takeTrailing.1 = [.whitespace [' '], .comment ['/', '/']] := by
    rw [takeTrailing, htrivia]
    rfl
  have hleft : c.takeTrailing.2.takeTrivia.1 = [.whitespace ['\n', ' ']] := by
    have haddressed : c.IsAddressed := (Token.addressed_tokenize haddress).of_suffix hsuffix
    have haddressed' : c.takeTrailing.2.IsAddressed := haddressed.run Rule.takeTrailing
    rw [haddressed'.takeTrivia_eq, trivia_takeTrailing, htrivia]
    rfl
  have hnext : c.ahead.head?.map Token.text = some "else".toList := by decide +kernel
  obtain ⟨t, ht, htext⟩ := Option.map_eq_some_iff.mp hnext
  refine ⟨haddress, hsuffix, ?_, ?_⟩
  · rw [hattach, htrailing, hleft, Attachment.attachTrailing_nil]
    rfl
  · rw [hbump t ht, hleft, htext]
    simp

end Cursor

end LosslessSyntax
