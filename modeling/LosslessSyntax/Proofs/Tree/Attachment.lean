import LosslessSyntax.Proofs.Tree.Layout

/-! The attachment of comments as a single pass. A pass keeps what it has placed so far, the statement that still takes
comments by its index in there, and blanks of which it is not known yet whether a comment follows them on the line.
Whatever the nodes are, the pass comes to the list that is described by splitting off what trails each statement; and
it loses nothing, repeats nothing and moves nothing but blanks and comments. -/

namespace LosslessSyntax

namespace Node

/-- The node with `comments` as its closure, if it is a statement and there are comments. -/
def giveComments (comments : List Node) : Node → Node
  | .command inner semicolon closure => .command inner semicolon (closureWith comments closure)
  | n => n

end Node

/-- A statement that still takes comments: where it is placed, and what it has taken. -/
structure Awaiting where
  index : Nat
  comments : List Node

/-- How far a pass has come. -/
structure Attachment where
  placed : List Node := []
  awaiting : Option Awaiting := none
  spacing : Option Node := none

namespace Attachment

open Node

/-- What is placed, once the open statement has been given its comments. -/
def closed (a : Attachment) : List Node :=
  match a.awaiting with
  | none => a.placed
  | some w => a.placed.modify w.index (giveComments w.comments)

/-- What is placed if no more comments follow: blanks without a comment behind them stay where they are. -/
def finish (a : Attachment) : List Node := a.closed ++ a.spacing.toList

/-- Places a node that belongs to no statement before it. -/
def place (a : Attachment) (n : Node) : Attachment where
  placed := a.finish ++ [n]
  awaiting := if n.isCommand then some ⟨a.finish.length, []⟩ else none

/-- Gives a comment, and the blanks in front of it, to the open statement. If the comment ends the line, the statement
takes no more. -/
def take (a : Attachment) (w : Awaiting) (text : Text) : Attachment :=
  let taken : Attachment :=
    { placed := a.placed, awaiting := some ⟨w.index, w.comments ++ a.spacing.toList ++ [.comment text]⟩ }
  if text.hasLineBreak then { placed := taken.closed } else taken

def step (a : Attachment) (n : Node) : Attachment :=
  match n, a.awaiting, a.spacing with
  | .whitespace run, some _, none =>
    if run.hasLineBreak then a.place n else { a with spacing := some n }
  | .comment text, some w, _ => a.take w text
  | _, _, _ => a.place n

/-- The pass over a whole list. -/
def pass (nodes : List Node) : List Node := (nodes.foldl step {}).finish

/-! ### What a pass comes to -/

/-- The list that a pass is to come to, when `rest` is still ahead. Blanks that are held back count as ahead. -/
inductive Promises : Attachment → List Node → List Node → Prop where
  | idle (placed rest : List Node) : Promises { placed } rest (placed ++ attachTrailing rest)
  | awaiting (front : List Node) (inner : Node) (semicolon : Option Lexeme) (closure comments rest : List Node) :
      Promises ⟨front ++ [.command inner semicolon closure], some ⟨front.length, comments⟩, none⟩ rest
        (front ++ .command inner semicolon (closureWith (comments ++ (splitTrailing rest).1) closure) ::
          attachTrailing (splitTrailing rest).2)
  | spaced {run : Text} (hrun : run.hasLineBreak = false) (front : List Node) (inner : Node)
      (semicolon : Option Lexeme) (closure comments rest : List Node) :
      Promises ⟨front ++ [.command inner semicolon closure], some ⟨front.length, comments⟩, some (.whitespace run)⟩ rest
        (front ++ .command inner semicolon
            (closureWith (comments ++ (splitTrailing (.whitespace run :: rest)).1) closure) ::
          attachTrailing (splitTrailing (.whitespace run :: rest)).2)

variable {front comments closure rest nodes : List Node} {inner n : Node} {semicolon : Option Lexeme}
  {spacing : Option Node} {run text : Text} {a : Attachment}

theorem closed_awaiting :
    closed ⟨front ++ [.command inner semicolon closure], some ⟨front.length, comments⟩, spacing⟩ =
      front ++ [.command inner semicolon (closureWith comments closure)] := by
  simp [closed, List.modify_eq_take_cons_drop, giveComments]

@[simp] theorem splitTrailing_nil : splitTrailing [] = ([], []) := by
  rw [splitTrailing] <;> exact nofun

@[simp] theorem attachTrailing_nil : attachTrailing [] = [] := by
  rw [attachTrailing]

theorem attachTrailing_cons (h : n.isCommand = false) : attachTrailing (n :: rest) = n :: attachTrailing rest := by
  rw [attachTrailing]
  rintro inner semicolon closure rfl
  cases h

theorem splitTrailing_of_not_trivia (h : n.isTrivia = false) : splitTrailing (n :: rest) = ([], n :: rest) := by
  rw [splitTrailing]
  · rintro text rest' ⟨⟩
    cases h
  · rintro run text rest' ⟨⟩
    cases h

/-- Blanks that end the line end what trails, and so do blanks with no comment behind them. -/
theorem splitTrailing_whitespace (h : run.hasLineBreak = true ∨ ∀ text more, rest ≠ .comment text :: more) :
    splitTrailing (.whitespace run :: rest) = ([], .whitespace run :: rest) := by
  unfold splitTrailing
  split
  · next heq => cases heq
  · next heq =>
      obtain ⟨hrun, rfl⟩ := List.cons.inj heq
      cases hrun
      rcases h with h | h
      · rw [if_pos h]
      · exact absurd rfl (h _ _)
  · rfl

/-- Placing a node keeps the promise if all that is held back stays where it is. -/
theorem promises_place (h : nodes = a.finish ++ attachTrailing (n :: rest)) : Promises (a.place n) rest nodes := by
  subst h
  cases hn : n.isCommand with
  | true =>
      cases n with
      | command inner semicolon closure =>
          rw [attachTrailing]
          exact .awaiting a.finish inner semicolon closure [] rest
      | _ => cases hn
  | false =>
      rw [attachTrailing_cons hn, List.append_cons]
      simp only [place, hn]
      exact .idle (a.finish ++ [n]) rest

/-- A comment on the line goes to the open statement, with the blanks in front of it. -/
theorem promises_take (h : nodes = front ++ .command inner semicolon (closureWith (comments ++ spacing.toList ++
      .comment text :: if text.hasLineBreak then [] else (splitTrailing rest).1) closure) ::
      attachTrailing (if text.hasLineBreak then rest else (splitTrailing rest).2)) :
    Promises (take ⟨front ++ [.command inner semicolon closure], some ⟨front.length, comments⟩, spacing⟩
      ⟨front.length, comments⟩ text) rest nodes := by
  subst h
  by_cases htext : text.hasLineBreak = true
  · rw [take, if_pos htext, if_pos htext, if_pos htext, closed_awaiting]
    have hidle := Promises.idle (front ++ [.command inner semicolon
      (closureWith (comments ++ spacing.toList ++ [.comment text]) closure)]) rest
    rw [List.append_assoc front] at hidle
    exact hidle
  · rw [take, if_neg htext, if_neg htext, if_neg htext]
    have hawaiting := Promises.awaiting front inner semicolon closure
      (comments ++ spacing.toList ++ [.comment text]) rest
    rw [List.append_assoc (comments ++ spacing.toList)] at hawaiting
    exact hawaiting

/-- Behind a statement that is open, all but comments, and blanks on its line, is placed. -/
theorem promises_place_awaiting
    (hsplit : splitTrailing (spacing.toList ++ n :: rest) = ([], spacing.toList ++ n :: rest))
    (hspacing : ∀ m ∈ spacing, m.isCommand = false) (h : nodes = front ++ .command inner semicolon
        (closureWith (comments ++ (splitTrailing (spacing.toList ++ n :: rest)).1) closure) ::
      attachTrailing (splitTrailing (spacing.toList ++ n :: rest)).2) :
    Promises (place ⟨front ++ [.command inner semicolon closure], some ⟨front.length, comments⟩, spacing⟩ n) rest
      nodes := by
  apply promises_place
  rw [h, hsplit, finish, closed_awaiting, List.append_nil]
  cases spacing with
  | none => simp
  | some m => simp [attachTrailing_cons (hspacing m rfl)]

theorem step_whitespace {w : Awaiting} {placed : List Node} :
    step ⟨placed, some w, none⟩ (.whitespace run) =
      if run.hasLineBreak then place ⟨placed, some w, none⟩ (.whitespace run)
      else ⟨placed, some w, some (.whitespace run)⟩ := rfl

/-- One step keeps the promise. -/
theorem Promises.step {nodes : List Node} (h : Promises a (n :: rest) nodes) : Promises (a.step n) rest nodes := by
  cases h with
  | idle placed =>
      have hplace : Attachment.step { placed } n = place { placed } n := by
        cases n <;> rfl
      rw [hplace]
      apply promises_place
      simp [finish, closed]
  | awaiting front inner semicolon closure comments =>
      cases n with
      | comment text =>
          apply promises_take
          rw [splitTrailing]
          split <;> simp
      | whitespace run =>
          by_cases hrun : run.hasLineBreak = true
          · rw [step_whitespace, if_pos hrun]
            exact promises_place_awaiting (splitTrailing_whitespace (.inl hrun)) nofun rfl
          · rw [step_whitespace, if_neg hrun]
            exact .spaced (by simpa using hrun) front inner semicolon closure comments rest
      | _ => exact promises_place_awaiting (splitTrailing_of_not_trivia rfl) nofun rfl
  | spaced hrun front inner semicolon closure comments =>
      cases n with
      | comment text =>
          apply promises_take
          rw [splitTrailing, if_neg (by simp [hrun])]
          split <;> simp
      | whitespace run =>
          exact promises_place_awaiting (splitTrailing_whitespace (.inr nofun)) (by simp [isCommand]) rfl
      | _ => exact promises_place_awaiting (splitTrailing_whitespace (.inr nofun)) (by simp [isCommand]) rfl

/-- At the end of the list the promise is kept. -/
theorem Promises.finish_eq (h : Promises a [] nodes) : a.finish = nodes := by
  cases h with
  | idle placed => simp [finish, closed]
  | awaiting front inner semicolon closure comments => simp [finish, closed_awaiting]
  | spaced hrun front inner semicolon closure comments =>
      rw [finish, closed_awaiting, splitTrailing_whitespace (.inr (by simp)), attachTrailing_cons rfl]
      simp

theorem Promises.finish_foldl (h : Promises a rest nodes) : (rest.foldl Attachment.step a).finish = nodes := by
  induction rest generalizing a with
  | nil => exact h.finish_eq
  | cons n rest ih => exact ih h.step

/-- The pass attaches to each statement what trails it, and leaves all else where it is. -/
theorem pass_eq_attachTrailing (nodes : List Node) : pass nodes = attachTrailing nodes :=
  (Promises.idle [] nodes).finish_foldl

end Attachment

/-! ### What a pass conserves -/

namespace Node

variable {nodes : List Node}

/-- The node with an empty closure, if it is a statement. -/
def opened : Node → Node
  | .command inner semicolon _ => .command inner semicolon []
  | n => n

theorem restoreList_attachTrailing (h : ∀ n ∈ nodes, n.isOpen = true) :
    restoreList (attachTrailing nodes) = restoreList nodes := by
  have hrestore (ns : List Node) : restoreList ns = ((ns.map Part.node).flatMap Part.events).flatMap Event.text := by
    rw [List.flatMap_map, List.flatMap_assoc]
    rfl
  rw [hrestore, hrestore, (Part.Alike.attachTrailing h).events]

/-- A closure that was empty takes nothing but blanks and comments. -/
theorem isTrivia_of_mem_closure (h : ∀ n ∈ nodes, n.isOpen = true) {inner : Node} {semicolon : Option Lexeme}
    {closure : List Node} (hcommand : .command inner semicolon closure ∈ attachTrailing nodes) :
    ∀ n ∈ closure, n.isTrivia = true := by
  fun_induction attachTrailing nodes with
  | case1 => cases hcommand
  | case2 inner' semicolon' closure' rest ih =>
      have hclosure' : closure' = [] := List.isEmpty_iff.mp (h _ List.mem_cons_self)
      rw [hclosure', closureWith_nil] at hcommand
      rcases List.mem_cons.mp hcommand with heq | hmem
      · cases heq
        exact isTrivia_of_mem_splitTrailing
      · have hrest : ∀ n ∈ (splitTrailing rest).2, n.isOpen = true := fun n hn =>
          h n (List.mem_cons_of_mem _ (splitTrailing_append rest ▸ List.mem_append_right _ hn))
        exact ih hrest hmem
  | case3 n rest hn ih =>
      rcases List.mem_cons.mp hcommand with heq | hmem
      · exact absurd heq.symm (hn _ _ _)
      · exact ih (fun m hm => h m (List.mem_cons_of_mem _ hm)) hmem

/-- What is neither blank nor comment stays in the list, in its order. -/
theorem filter_attachTrailing (h : ∀ n ∈ nodes, n.isOpen = true) :
    ((attachTrailing nodes).filter (!·.isTrivia)).map opened = nodes.filter (!·.isTrivia) := by
  have hdetach (n : Node) (hn : n ∈ attachTrailing nodes) :
      n.detach.filter (!·.isTrivia) = (if n.isTrivia then [] else [n.opened]) := by
    cases n with
    | command inner semicolon closure =>
        have hclosure : closure.filter (!·.isTrivia) = [] :=
          List.filter_eq_nil_iff.mpr fun m hm => by simp [isTrivia_of_mem_closure h hn m hm]
        rw [detach, List.filter_cons_of_pos rfl, hclosure]
        rfl
    | _ => rfl
  calc ((attachTrailing nodes).filter (!·.isTrivia)).map opened
      = (attachTrailing nodes).flatMap fun n => if n.isTrivia then [] else [n.opened] := by
        induction attachTrailing nodes with
        | nil => rfl
        | cons n ns ih => cases hn : n.isTrivia <;> simp [hn, ih]
    _ = (attachTrailing nodes).flatMap fun n => n.detach.filter (!·.isTrivia) :=
        (List.flatMap_congr hdetach).symm
    _ = ((attachTrailing nodes).flatMap detach).filter (!·.isTrivia) := List.filter_flatMap.symm
    _ = nodes.filter (!·.isTrivia) := by rw [flatMap_detach_attachTrailing h]

/-- Where no statement has a closure yet, the pass loses nothing, repeats nothing and reorders nothing: the text stays
the same, taking the closures apart again gives the list back, a closure takes nothing but blanks and comments, and all
else stays where it is. -/
theorem attachTrailing_conserves (h : ∀ n ∈ nodes, n.isOpen = true) :
    Attachment.pass nodes = attachTrailing nodes ∧
      restoreList (attachTrailing nodes) = restoreList nodes ∧
      (attachTrailing nodes).flatMap detach = nodes ∧
      (∀ inner semicolon closure, .command inner semicolon closure ∈ attachTrailing nodes →
        ∀ n ∈ closure, n.isTrivia = true) ∧
      ((attachTrailing nodes).filter (!·.isTrivia)).map opened = nodes.filter (!·.isTrivia) :=
  ⟨Attachment.pass_eq_attachTrailing nodes, restoreList_attachTrailing h, flatMap_detach_attachTrailing h,
    fun _ _ _ hcommand => isTrivia_of_mem_closure h hcommand, filter_attachTrailing h⟩

theorem attachTrailing_conserves_comment :
    let nodes : List Node := [.command .empty none [], .whitespace [' '], .comment ['/', '/'], .whitespace ['\n']]
    (∀ n ∈ nodes, n.isOpen = true) ∧ restoreList (attachTrailing nodes) = restoreList nodes ∧
      Attachment.pass nodes =
        [.command .empty none [.whitespace [' '], .comment ['/', '/']], .whitespace ['\n']] := by
  intro nodes
  have hopen : ∀ n ∈ nodes, n.isOpen = true := by simp [nodes, isOpen]
  obtain ⟨hpass, hrestore, -⟩ := attachTrailing_conserves hopen
  refine ⟨hopen, hrestore, hpass.trans ?_⟩
  have hblanks : Text.hasLineBreak [' '] = false := by decide
  have hcomment : Text.hasLineBreak ['/', '/'] = false := by decide
  simp [nodes, attachTrailing, splitTrailing, hblanks, hcomment, closureWith]

end Node

end LosslessSyntax
