import Mathlib.Data.List.Chain
import LosslessSyntax.Proofs.Parse.Spelling
import LosslessSyntax.Proofs.Tree.Trailing

/-! Where comments stand. The blanks and comments behind a statement trail it up to the last comment that begins on
the line where the statement ends. Attaching comments puts into the closure of each statement as much as trails it,
and no less, so that each comment left between statements stands on a line of its own. -/

namespace LosslessSyntax.Node

/-- Whether a run of blanks and comments trails what stands in front of it: it ends in a comment, unless it is empty,
and no line ends in front of any of its comments. -/
structure Trails (run : List Node) : Prop where
  trivia : ∀ n ∈ run, n.isTrivia = true
  last : ∀ n ∈ run.getLast?, n.comment?.isSome = true
  line : ∀ front text back, run = front ++ .comment text :: back → (restoreList front).hasLineBreak = false

/-- Whether the closure of each statement in a list is as much of the blanks and comments behind it as trails it. -/
def PlacesComments (nodes : List Node) : Prop :=
  ∀ front inner semicolon closure back, nodes = front ++ .command inner semicolon closure :: back →
    Trails closure ∧ ∀ part, part <+: closure ++ back.takeWhile isTrivia → Trails part → part <+: closure

/-! ### Runs that trail -/

@[simp] theorem restore_whitespace (run : Text) : (whitespace run).restore = run := by
  rw [restore, Token.events_whitespace]
  exact List.append_nil run

@[simp] theorem restore_comment (text : Text) : (comment text).restore = text := by
  rw [restore, Token.events_comment]
  exact List.append_nil text

theorem trails_nil : Trails [] where
  trivia := nofun
  last := nofun
  line front text back h := by simp at h

theorem exists_eq_comment_of_isSome {n : Node} (h : n.comment?.isSome = true) : ∃ text, n = .comment text := by
  cases n with
  | comment text => exact ⟨text, rfl⟩
  | _ => cases h

theorem trails_singleton {n : Node} : Trails [n] ↔ ∃ text, n = .comment text := by
  constructor
  · intro h
    exact exists_eq_comment_of_isSome (h.last n rfl)
  · rintro ⟨text, rfl⟩
    refine ⟨by simp [isTrivia], by simp [comment?], fun front text back h => ?_⟩
    cases front with
    | nil => rfl
    | cons m front => simp at h

/-- A longer run trails if its rest does and no line ends in the first of it. -/
theorem trails_cons {n : Node} {run : List Node} (hrun : run ≠ []) :
    Trails (n :: run) ↔ n.isTrivia = true ∧ n.restore.hasLineBreak = false ∧ Trails run := by
  have hlast : (n :: run).getLast? = run.getLast? := by
    obtain ⟨m, run, rfl⟩ := List.exists_cons_of_ne_nil hrun
    rfl
  constructor
  · intro h
    have hline (front : List Node) (text : Text) (back : List Node) (heq : run = front ++ .comment text :: back) :
        n.restore.hasLineBreak = false ∧ (restoreList front).hasLineBreak = false := by
      have := h.line (n :: front) text back (by rw [heq, List.cons_append])
      simpa using this
    obtain ⟨htrivia, hrest⟩ := List.forall_mem_cons.mp h.trivia
    refine ⟨htrivia, ?_, hrest, fun m hm => h.last m (hlast.trans hm), fun front text back heq =>
      (hline front text back heq).2⟩
    -- the last of the rest is a comment, so the line must go on up to there
    obtain ⟨text, hcomment⟩ := exists_eq_comment_of_isSome (h.last _ (hlast.trans (List.getLast?_eq_some_getLast hrun)))
    have hend := List.dropLast_concat_getLast hrun
    rw [hcomment] at hend
    exact (hline _ text [] hend.symm).1
  · rintro ⟨htrivia, hbreak, h⟩
    refine ⟨List.forall_mem_cons.mpr ⟨htrivia, h.trivia⟩, fun m hm => h.last m (hlast.symm.trans hm),
      fun front text back heq => ?_⟩
    cases front with
    | nil => rfl
    | cons m front =>
        obtain ⟨rfl, hrest⟩ := List.cons.inj heq
        rw [restoreList_cons, Text.hasLineBreak_append, hbreak, h.line front text back hrest]
        rfl

theorem trails_comment {text : Text} {run : List Node} :
    Trails (.comment text :: run) ↔ run = [] ∨ text.hasLineBreak = false ∧ Trails run := by
  by_cases hrun : run = []
  · rw [hrun]
    exact iff_of_true (trails_singleton.mpr ⟨text, rfl⟩) (.inl rfl)
  · rw [trails_cons hrun, restore_comment, or_iff_right hrun]
    exact and_iff_right rfl

theorem trails_whitespace {blanks : Text} {run : List Node} :
    Trails (.whitespace blanks :: run) ↔ run ≠ [] ∧ blanks.hasLineBreak = false ∧ Trails run := by
  by_cases hrun : run = []
  · rw [hrun, trails_singleton]
    simp
  · rw [trails_cons hrun, restore_whitespace, and_iff_right hrun]
    exact and_iff_right rfl

/-- Up to a comment that begins on the line, all blanks and comments trail. -/
theorem trails_append_comment {run : List Node} (hrun : ∀ n ∈ run, n.isTrivia = true)
    (hline : (restoreList run).hasLineBreak = false) (text : Text) : Trails (run ++ [.comment text]) := by
  induction run with
  | nil => exact trails_singleton.mpr ⟨text, rfl⟩
  | cons n run ih =>
      obtain ⟨hn, hrun⟩ := List.forall_mem_cons.mp hrun
      rw [restoreList_cons, Text.hasLineBreak_append, Bool.or_eq_false_iff] at hline
      exact (trails_cons (by simp)).mpr ⟨hn, hline.1, ih hrun hline.2⟩

namespace Trails

variable {run : List Node}

/-- What trails ends in a comment. -/
theorem exists_eq_concat (h : Trails run) (hrun : run ≠ []) : ∃ front text, run = front ++ [.comment text] := by
  obtain ⟨text, hlast⟩ := exists_eq_comment_of_isSome (h.last _ (List.getLast?_eq_some_getLast hrun))
  exact ⟨run.dropLast, text, by rw [← hlast, List.dropLast_concat_getLast]⟩

/-- Of what trails, only the last one may end a line. -/
theorem hasLineBreak_of_mem_dropLast (h : Trails run) : ∀ n ∈ run.dropLast, n.restore.hasLineBreak = false := by
  induction run with
  | nil => exact nofun
  | cons m run ih =>
      by_cases hrun : run = []
      · rw [hrun]
        exact nofun
      · obtain ⟨-, hline, hrest⟩ := (trails_cons hrun).mp h
        rw [List.dropLast_cons_of_ne_nil hrun]
        exact List.forall_mem_cons.mpr ⟨hline, ih hrest⟩

/-- No blanks in what trails end a line. -/
theorem hasLineBreak_of_whitespace (h : Trails run) {blanks : Text} (hblanks : .whitespace blanks ∈ run) :
    blanks.hasLineBreak = false := by
  obtain ⟨front, text, rfl⟩ := h.exists_eq_concat (List.ne_nil_of_mem hblanks)
  have hfront := h.hasLineBreak_of_mem_dropLast
  rw [List.dropLast_concat] at hfront
  rcases List.mem_append.mp hblanks with hblanks | hblanks
  · exact (congrArg Text.hasLineBreak (restore_whitespace blanks)).symm.trans (hfront _ hblanks)
  · cases List.mem_singleton.mp hblanks

end Trails

/-! ### What is split off trails, and no more does -/

/-- Whether no blanks stand next to other blanks. -/
def BlanksApart (nodes : List Node) : Prop := nodes.IsChain fun m n => m.isWhitespace = false ∨ n.isWhitespace = false

theorem isWhitespace_of_isTrivia_eq_false {n : Node} (h : n.isTrivia = false) : n.isWhitespace = false := by
  cases n <;> first | rfl | cases h

theorem BlanksApart.of_cons {n : Node} {nodes : List Node} (h : BlanksApart (n :: nodes)) : BlanksApart nodes :=
  (List.isChain_cons.mp h).2

/-- Behind blanks only a comment goes on with the run. -/
theorem BlanksApart.takeWhile_eq_nil {blanks : Text} {nodes : List Node} (h : BlanksApart (.whitespace blanks :: nodes))
    (hcomment : ∀ text rest, nodes ≠ .comment text :: rest) : nodes.takeWhile isTrivia = [] := by
  cases nodes with
  | nil => rfl
  | cons n nodes =>
      have hspace := (List.isChain_cons_cons.mp h).1
      cases n with
      | comment text => exact absurd rfl (hcomment text nodes)
      | whitespace => exact absurd hspace (by simp [isWhitespace])
      | _ => rfl

theorem BlanksApart.append {nodes others : List Node} (h : BlanksApart nodes) (hothers : BlanksApart others)
    (hlast : ∀ n ∈ nodes.getLast?, n.isWhitespace = false) : BlanksApart (nodes ++ others) :=
  List.isChain_append.mpr ⟨h, hothers, fun m hm _ _ => .inl (hlast m hm)⟩

/-- Of trivia tokens the blanks and line breaks between two comments become one node. -/
theorem blanksApart_triviaNodes (source : Text) (stop : Nat) (run : Option Nat) (ts : List Token) :
    BlanksApart (Token.triviaNodes source stop run ts) := by
  fun_induction Token.triviaNodes source stop run ts with
  | case1 => exact .nil
  | case2 => exact .singleton _
  | case3 t ts _ ih => exact List.isChain_cons.mpr ⟨fun _ _ => .inl rfl, ih⟩
  | case5 start t ts _ ih => exact .cons_cons (.inr rfl) (List.isChain_cons.mpr ⟨fun _ _ => .inl rfl, ih⟩)
  | case4 _ _ _ ih | case6 _ _ _ _ ih => exact ih

theorem trails_splitTrailing (nodes : List Node) : Trails (splitTrailing nodes).1 := by
  fun_induction splitTrailing nodes with
  | case1 text rest hbreak => exact trails_comment.mpr (.inl rfl)
  | case2 text rest hbreak trailing others heq ih =>
      rw [heq] at ih
      exact trails_comment.mpr (.inr ⟨by simpa using hbreak, ih⟩)
  | case3 => exact trails_nil
  | case4 blanks text rest hblanks hbreak =>
      exact trails_whitespace.mpr ⟨List.cons_ne_nil _ _, by simpa using hblanks, trails_comment.mpr (.inl rfl)⟩
  | case5 blanks text rest hblanks hbreak trailing others heq ih =>
      rw [heq] at ih
      have hcomment := trails_comment.mpr (.inr ⟨by simpa using hbreak, ih⟩)
      exact trails_whitespace.mpr ⟨List.cons_ne_nil _ _, by simpa using hblanks, hcomment⟩
  | case6 => exact trails_nil

/-- What trails out of a run that begins with a comment. -/
theorem prefix_comment {part run : List Node} {text : Text} (h : Trails part) (hpart : part <+: .comment text :: run) :
    part = [] ∨ ∃ tail, part = .comment text :: tail ∧ tail <+: run ∧
      (tail = [] ∨ text.hasLineBreak = false ∧ Trails tail) := by
  cases part with
  | nil => exact .inl rfl
  | cons n tail =>
      obtain ⟨rfl, htail⟩ := List.cons_prefix_cons.mp hpart
      exact .inr ⟨tail, rfl, htail, trails_comment.mp h⟩

/-- What trails out of a run that begins with blanks. -/
theorem prefix_whitespace {part run : List Node} {blanks : Text} (h : Trails part)
    (hpart : part <+: .whitespace blanks :: run) :
    part = [] ∨ ∃ tail, part = .whitespace blanks :: tail ∧ tail <+: run ∧
      tail ≠ [] ∧ blanks.hasLineBreak = false ∧ Trails tail := by
  cases part with
  | nil => exact .inl rfl
  | cons n tail =>
      obtain ⟨rfl, htail⟩ := List.cons_prefix_cons.mp hpart
      exact .inr ⟨tail, rfl, htail, trails_whitespace.mp h⟩

/-- Of what follows a statement, no longer part trails it than is split off. -/
theorem prefix_splitTrailing {nodes part : List Node} (hnodes : BlanksApart nodes)
    (hpart : part <+: nodes.takeWhile isTrivia) (h : Trails part) : part <+: (splitTrailing nodes).1 := by
  fun_induction splitTrailing nodes generalizing part with
  | case1 text rest hbreak =>
      obtain rfl | ⟨tail, rfl, htail, rfl | ⟨hline, -⟩⟩ := prefix_comment h hpart
      · exact List.nil_prefix
      · exact List.prefix_rfl
      · rw [hbreak] at hline
        cases hline
  | case2 text rest hbreak trailing others heq ih =>
      rw [heq] at ih
      obtain rfl | ⟨tail, rfl, htail, rfl | ⟨-, h⟩⟩ := prefix_comment h hpart
      · exact List.nil_prefix
      · exact List.prefix_append [_] _
      · exact List.cons_prefix_cons.mpr ⟨rfl, ih hnodes.of_cons htail h⟩
  | case3 blanks text rest hblanks =>
      obtain rfl | ⟨tail, rfl, -, -, hline, -⟩ := prefix_whitespace h hpart
      · exact List.nil_prefix
      · rw [hblanks] at hline
        cases hline
  | case4 blanks text rest hblanks hbreak =>
      obtain rfl | ⟨tail, rfl, htail, -, -, h⟩ := prefix_whitespace h hpart
      · exact List.nil_prefix
      · obtain rfl | ⟨tail, rfl, -, rfl | ⟨hline, -⟩⟩ := prefix_comment h htail
        · exact List.prefix_append [_] _
        · exact List.prefix_rfl
        · rw [hbreak] at hline
          cases hline
  | case5 blanks text rest hblanks hbreak trailing others heq ih =>
      rw [heq] at ih
      obtain rfl | ⟨tail, rfl, htail, -, -, h⟩ := prefix_whitespace h hpart
      · exact List.nil_prefix
      · obtain rfl | ⟨tail, rfl, htail, rfl | ⟨-, h⟩⟩ := prefix_comment h htail
        · exact List.prefix_append [_] _
        · exact List.prefix_append [_, _] _
        · exact (List.prefix_append_right_inj [_, _]).mpr (ih hnodes.of_cons.of_cons htail h)
  | case6 nodes hcomment hblanks =>
      cases nodes with
      | nil => exact hpart
      | cons n nodes =>
          cases n with
          | comment text => exact absurd rfl (hcomment text nodes)
          | whitespace blanks =>
              have hnothing := hnodes.takeWhile_eq_nil fun text rest heq =>
                hblanks blanks text rest (congrArg (.whitespace blanks :: ·) heq)
              obtain rfl | ⟨tail, rfl, htail, hne, -⟩ := prefix_whitespace h hpart
              · exact List.nil_prefix
              · rw [hnothing] at htail
                exact absurd (List.prefix_nil.mp htail) hne
          | _ => exact hpart

/-! ### Attaching comments -/

/-- Attaching comments takes nothing but what is attached away from the front of a list. -/
theorem takeWhile_attachTrailing (nodes : List Node) :
    (attachTrailing nodes).takeWhile isTrivia = nodes.takeWhile isTrivia := by
  fun_induction attachTrailing nodes with
  | case1 => rfl
  | case2 inner semicolon closure rest ih => rfl
  | case3 n rest hn ih => rw [List.takeWhile_cons, List.takeWhile_cons, ih]

/-- Attaching comments gives each statement as much of what follows it as trails it. -/
theorem placesComments_attachTrailing {nodes : List Node} (hopen : ∀ n ∈ nodes, n.isOpen = true)
    (hnodes : BlanksApart nodes) : PlacesComments (attachTrailing nodes) := by
  fun_induction attachTrailing nodes with
  | case1 =>
      intro front inner semicolon closure back h
      simp at h
  | case2 inner semicolon closure rest ih =>
      have hsplit := splitTrailing_append rest
      have hclosure : closure = [] := List.isEmpty_iff.mp (hopen _ List.mem_cons_self)
      have hothers : ∀ n ∈ (splitTrailing rest).2, n.isOpen = true := fun n hn =>
        hopen n (List.mem_cons_of_mem _ (hsplit ▸ List.mem_append_right _ hn))
      have hapart : BlanksApart (splitTrailing rest).2 := (List.isChain_append.mp (hsplit.symm ▸ hnodes.of_cons)).2.1
      rw [hclosure, closureWith_nil]
      intro front inner' semicolon' closure' back h
      cases front with
      | nil =>
          obtain ⟨hcommand, hback⟩ := List.cons.inj h
          obtain ⟨-, -, hclosure⟩ := Node.command.inj hcommand
          have hrun : closure' ++ back.takeWhile isTrivia = rest.takeWhile isTrivia := by
            rw [← hback, ← hclosure, takeWhile_attachTrailing,
              ← List.takeWhile_append_of_pos isTrivia_of_mem_splitTrailing, hsplit]
          rw [hrun, ← hclosure]
          exact ⟨trails_splitTrailing rest, fun part hpart => prefix_splitTrailing hnodes.of_cons hpart⟩
      | cons m front => exact ih hothers hapart front inner' semicolon' closure' back (List.cons.inj h).2
  | case3 n rest hn ih =>
      intro front inner semicolon closure back h
      have hrest : ∀ m ∈ rest, m.isOpen = true := fun m hm => hopen m (List.mem_cons_of_mem _ hm)
      cases front with
      | nil => exact absurd (List.cons.inj h).1 (hn _ _ _)
      | cons m front => exact ih hrest hnodes.of_cons front inner semicolon closure back (List.cons.inj h).2

/-- Where no statement stands, none has a closure. -/
theorem placesComments_of_not_command {nodes : List Node} (h : ∀ inner semicolon closure,
    .command inner semicolon closure ∉ nodes) : PlacesComments nodes := by
  intro front inner semicolon closure back heq
  exact absurd (heq ▸ List.mem_append_right _ List.mem_cons_self) (h inner semicolon closure)

theorem placesComments_nil : PlacesComments [] := placesComments_of_not_command fun _ _ _ => List.not_mem_nil

/-- Where no blanks and no comment follow a list, other nodes may follow it. -/
theorem PlacesComments.append {nodes others : List Node} (h : PlacesComments nodes) (hothers : PlacesComments others)
    (hfirst : others.takeWhile isTrivia = []) : PlacesComments (nodes ++ others) := by
  intro front inner semicolon closure back heq
  rcases List.append_eq_append_iff.mp heq with ⟨_, -, hbehind⟩ | ⟨more, hnodes, hbehind⟩
  · exact hothers _ _ _ _ _ hbehind
  · cases more with
    | nil => exact hothers [] _ _ _ _ hbehind.symm
    | cons n more =>
        obtain ⟨rfl, hback⟩ := List.cons.inj hbehind
        have hrun : (more ++ others).takeWhile isTrivia = more.takeWhile isTrivia := by
          rw [List.takeWhile_append, hfirst, List.append_nil]
          split
          · next hall => exact ((List.takeWhile_prefix isTrivia).eq_of_length hall).symm
          · rfl
        rw [hback, List.append_eq, hrun]
        exact h _ _ _ _ _ hnodes

/-! ### What follows of where comments stand -/

namespace PlacesComments

variable {nodes front closure mid back : List Node} {inner : Node} {semicolon : Option Lexeme} {text : Text}

/-- A comment left behind a statement stands behind the end of the line on which the statement ends. -/
theorem hasLineBreak_of_comment (h : PlacesComments nodes)
    (hnodes : nodes = front ++ .command inner semicolon closure :: (mid ++ .comment text :: back))
    (hmid : ∀ n ∈ mid, n.isTrivia = true) : (restoreList (closure ++ mid)).hasLineBreak = true := by
  obtain ⟨hclosure, hlongest⟩ := h _ _ _ _ _ hnodes
  by_contra hline
  have htrivia : ∀ n ∈ closure ++ mid, n.isTrivia = true := List.forall_mem_append.mpr ⟨hclosure.trivia, hmid⟩
  have hlonger := trails_append_comment htrivia (by simpa using hline) text
  have hrun : closure ++ mid ++ [.comment text] <+: closure ++ (mid ++ .comment text :: back).takeWhile isTrivia := by
    rw [List.takeWhile_append_of_pos hmid, List.takeWhile_cons_of_pos rfl, List.append_assoc]
    exact (List.prefix_append_right_inj closure).mpr
      ((List.prefix_append_right_inj mid).mpr (List.prefix_append [Node.comment text] _))
  have hlength := (hlongest _ hrun hlonger).length_le
  simp only [List.length_append, List.length_singleton] at hlength
  omega

end PlacesComments

end LosslessSyntax.Node
