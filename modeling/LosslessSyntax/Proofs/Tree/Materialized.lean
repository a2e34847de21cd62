import LosslessSyntax.Proofs.Token.Trivia
import LosslessSyntax.Proofs.Tree.Attachment
import LosslessSyntax.Proofs.Tree.WellFormed

/-! Trivia that are shown. The blanks and comments around a statement are nodes of their own, so no statement hides any
in front of its first lexeme; blanks next to each other are one node; and a node of blanks or a comment is what its
tokens are. Attaching comments keeps all that. -/

namespace LosslessSyntax

namespace Node

/-- Whether the first lexeme that a walk through the node meets, if it meets any, has no trivia in front. -/
def BeginsBare (n : Node) : Prop := ∀ l ∈ n.lexemes.head?, l.leading = []

/-- Whether all trivia around the statements of a list are nodes of the list, next to each other no two of blanks. -/
structure ShowTrivia (nodes : List Node) : Prop where
  bare : ∀ n ∈ nodes, n.isTrivia = false → n.BeginsBare
  apart : BlanksApart nodes

end Node

/-- Whether all trivia around the statements of a block are nodes, and so are those behind it. -/
structure Block.ShowsTrivia (b : Block Node) : Prop where
  statements : Node.ShowTrivia b.statements
  closure : Node.BlanksApart b.closure

namespace Node

/-- Whether the node shows the trivia that belong to it, and is what its tokens are if it stands for trivia. -/
structure ShowsTrivia (tokens : List Token) (n : Node) : Prop where
  blanks : ∀ run, n = .whitespace run → run ≠ [] ∧ ∀ c ∈ run, isBlank c = true ∨ isLineBreak c = true
  comment : ∀ text, n = .comment text → ∃ t ∈ tokens, t.kind.isComment = true ∧ t.text = text
  closure : ∀ inner semicolon closure, n = .command inner semicolon closure → BlanksApart closure
  blocks : ∀ b ∈ n.blocks, b.ShowsTrivia

/-- Whether the node and all nodes below it show the trivia that belong to them. -/
abbrev ShowsAllTrivia (tokens : List Token) (n : Node) : Prop := n.Everywhere (ShowsTrivia tokens)

/-- Whether the node is none that stands for trivia, and holds no list of its own in which trivia may stand. -/
def isPlain : Node → Bool
  | .whitespace _ | .comment _ | .command .. | .combinator _ => false
  | .functionDeclaration .. | .functionExpression .. => false
  | _ => true

variable {tokens : List Token} {n inner : Node} {nodes : List Node} {semicolon : Option Lexeme} {closure : List Node}

/-! ### First lexemes -/

/-- What spells tokens that begin with a significant one begins with a lexeme without trivia in front. -/
theorem beginsBare_of_spells {ts : List Token} (h : Event.Spells n.events ts)
    (hts : ∀ t ∈ ts.head?, t.isTrivia = false) : n.BeginsBare := by
  rw [BeginsBare, lexemes]
  generalize n.events = es at h
  induction h with
  | nil => simp
  | missing _ _ => exact fun l hl => by cases hl; rfl
  | @lexeme leading t es ts hleading _ _ _ =>
      cases leading with
      | nil => exact fun l hl => by cases hl; rfl
      | cons u leading =>
          have hu := hts u rfl
          rw [hleading u List.mem_cons_self] at hu
          cases hu
  | @trivia run es ts hrun _ ih =>
      cases run with
      | nil => exact ih hts
      | cons u run =>
          have hu := hts u rfl
          rw [hrun u List.mem_cons_self] at hu
          cases hu

theorem lexemes_of_isTrivia (h : n.isTrivia = true) : n.lexemes = [] := by
  cases n <;> first | exact lexemes_eq _ | cases h

theorem lexemes_command (inner : Node) (semicolon : Option Lexeme) (closure : List Node) :
    (command inner semicolon closure).lexemes = inner.lexemes ++ semicolon.toList ++ closure.flatMap lexemes := by
  rw [lexemes_eq]
  cases semicolon <;> simp [parts, Lexeme.optionalParts, List.flatMap_map]

/-- What a statement begins with does not depend on the comments that trail it. -/
theorem BeginsBare.with_closure (h : (command inner semicolon []).BeginsBare)
    (hclosure : ∀ n ∈ closure, n.isTrivia = true) : (command inner semicolon closure).BeginsBare := by
  have hnone : closure.flatMap lexemes = [] :=
    List.flatMap_eq_nil_iff.mpr fun n hn => lexemes_of_isTrivia (hclosure n hn)
  rw [BeginsBare, lexemes_command, hnone]
  rwa [BeginsBare, lexemes_command] at h

theorem lexemes_unparsed (lexemes : List Lexeme) : (unparsed lexemes).lexemes = lexemes := by
  rw [lexemes_eq, parts, List.flatMap_map]
  exact List.flatMap_singleton' lexemes

theorem beginsBare_unparsed {lexemes : List Lexeme} (h : ∀ l ∈ lexemes.head?, l.leading = []) :
    (unparsed lexemes).BeginsBare := by
  rwa [BeginsBare, lexemes_unparsed]

theorem beginsBare_combinator {control : Control Node} (h : control.keyword.leading = []) :
    (command (.combinator control) none []).BeginsBare := by
  intro l hl
  rw [lexemes_command, lexemes_eq] at hl
  cases hl
  exact h

/-! ### Lists -/

theorem showTrivia_of_isTrivia (h : ∀ n ∈ nodes, n.isTrivia = true) (hapart : BlanksApart nodes) :
    ShowTrivia nodes where
  bare n hn htrivia := by
    rw [h n hn] at htrivia
    cases htrivia
  apart := hapart

theorem showTrivia_nil : ShowTrivia [] := showTrivia_of_isTrivia (by simp) .nil

/-- Behind its trivia a statement that begins bare may follow. -/
theorem ShowTrivia.concat (h : ShowTrivia nodes) (hn : n.isTrivia = false) (hbare : n.BeginsBare) :
    ShowTrivia (nodes ++ [n]) where
  bare := List.forall_mem_append.mpr ⟨h.bare, List.forall_mem_singleton.mpr fun _ => hbare⟩
  apart := List.isChain_append.mpr ⟨h.apart, .singleton _, fun _ _ m hm => by
    cases hm
    exact .inr (isWhitespace_of_isTrivia_eq_false hn)⟩

theorem ShowTrivia.append {others : List Node} (h : ShowTrivia nodes) (hothers : ShowTrivia others)
    (hmiddle : ∀ m ∈ nodes.getLast?, ∀ n ∈ others.head?, m.isWhitespace = false ∨ n.isWhitespace = false) :
    ShowTrivia (nodes ++ others) where
  bare := List.forall_mem_append.mpr ⟨h.bare, hothers.bare⟩
  apart := List.isChain_append.mpr ⟨h.apart, hothers.apart, hmiddle⟩

/-- Attaching comments puts no blanks next to others: at the front of what is left the list is as it was. -/
theorem BlanksApart.attachTrailing (h : BlanksApart nodes) : BlanksApart (attachTrailing nodes) := by
  fun_induction Node.attachTrailing nodes with
  | case1 => exact h
  | case2 inner semicolon closure rest ih =>
      have hothers : BlanksApart (splitTrailing rest).2 :=
        (List.isChain_append.mp ((splitTrailing_append rest).symm ▸ h.of_cons)).2.1
      exact List.isChain_cons.mpr ⟨fun _ _ => .inl rfl, ih hothers⟩
  | case3 n rest _ ih =>
      refine List.isChain_cons.mpr ⟨fun m hm => ?_, ih h.of_cons⟩
      cases hspace : m.isWhitespace with
      | false => exact .inr rfl
      | true =>
          have htrivia : m.isTrivia = true := by cases m <;> first | rfl | cases hspace
          have hfront : m ∈ (rest.takeWhile isTrivia).head? := by
            rw [← takeWhile_attachTrailing, List.head?_takeWhile, hm]
            simp [htrivia]
          rw [List.head?_takeWhile] at hfront
          have hrest : m ∈ rest.head? := (Option.mem_filter_iff.mp hfront).1
          rw [← hspace]
          exact (List.isChain_cons.mp h).1 m hrest

/-- Attaching comments leaves the trivia that are left in the list nodes of the list. -/
theorem ShowTrivia.attachTrailing (h : ShowTrivia nodes) (hopen : ∀ n ∈ nodes, n.isOpen = true) :
    ShowTrivia (Node.attachTrailing nodes) := by
  refine ⟨?_, h.apart.attachTrailing⟩
  replace h := h.bare
  fun_induction Node.attachTrailing nodes with
  | case1 => exact h
  | case2 inner semicolon closure rest ih =>
      obtain ⟨hfirst, hrest⟩ := List.forall_mem_cons.mp h
      obtain ⟨hclosure, hopen⟩ := List.forall_mem_cons.mp hopen
      rw [← splitTrailing_append rest, List.forall_mem_append] at hrest hopen
      rw [List.isEmpty_iff.mp hclosure] at hfirst ⊢
      rw [closureWith_nil]
      exact List.forall_mem_cons.mpr
        ⟨fun hn => (hfirst hn).with_closure isTrivia_of_mem_splitTrailing, ih hopen.2 hrest.2⟩
  | case3 n rest _ ih =>
      obtain ⟨hn, hrest⟩ := List.forall_mem_cons.mp h
      obtain ⟨-, hopen⟩ := List.forall_mem_cons.mp hopen
      exact List.forall_mem_cons.mpr ⟨hn, ih hopen hrest⟩

/-! ### All nodes -/

/-- A node that is neither trivia nor a statement shows all trivia if its blocks and its children do. -/
theorem showsAllTrivia_of_blocks (htrivia : n.isTrivia = false) (hcommand : n.isCommand = false)
    (hblocks : ∀ b ∈ n.blocks, b.ShowsTrivia) (hchildren : ∀ child ∈ n.children, child.ShowsAllTrivia tokens) :
    n.ShowsAllTrivia tokens := by
  refine everywhere_iff.mpr ⟨⟨?_, ?_, ?_, hblocks⟩, hchildren⟩
  · rintro run rfl
    cases htrivia
  · rintro text rfl
    cases htrivia
  · rintro inner semicolon closure rfl
    cases hcommand

theorem showsAllTrivia_of_isPlain (hplain : n.isPlain = true)
    (hchildren : ∀ child ∈ n.children, child.ShowsAllTrivia tokens) : n.ShowsAllTrivia tokens := by
  have hblocks : n.blocks = [] := by cases n <;> first | rfl | cases hplain
  refine showsAllTrivia_of_blocks ?_ ?_ ?_ hchildren
  · cases n <;> first | rfl | cases hplain
  · cases n <;> first | rfl | cases hplain
  · rw [hblocks]
    exact nofun

theorem showsAllTrivia_leaf (hplain : n.isPlain = true) (hchildren : n.children = []) : n.ShowsAllTrivia tokens :=
  showsAllTrivia_of_isPlain hplain (by rw [hchildren]; exact nofun)

theorem showsAllTrivia_command (hinner : inner.ShowsAllTrivia tokens)
    (hclosure : ∀ n ∈ closure, n.ShowsAllTrivia tokens) (hapart : BlanksApart closure) :
    (command inner semicolon closure).ShowsAllTrivia tokens := by
  have hself : (command inner semicolon closure).ShowsTrivia tokens := {
    blanks := nofun
    comment := nofun
    closure := fun _ _ _ heq => by cases heq; exact hapart
    blocks := nofun }
  exact everywhere_command.mpr ⟨hself, hinner, hclosure⟩

/-- A statement to which nothing is attached yet shows its trivia if what it holds does. -/
theorem showsAllTrivia_open (h : inner.ShowsAllTrivia tokens) (semicolon : Option Lexeme) :
    (command inner semicolon []).ShowsAllTrivia tokens :=
  showsAllTrivia_command h (fun _ hn => absurd hn List.not_mem_nil) .nil

/-- Attaching comments gives statements closures in which the blanks stand apart. -/
theorem showsAllTrivia_attachTrailing (h : ∀ n ∈ nodes, n.ShowsAllTrivia tokens) (hapart : BlanksApart nodes)
    (hopen : ∀ n ∈ nodes, n.isOpen = true) : ∀ n ∈ attachTrailing nodes, n.ShowsAllTrivia tokens := by
  fun_induction attachTrailing nodes with
  | case1 => exact h
  | case2 inner semicolon closure rest ih =>
      obtain ⟨hfirst, hrest⟩ := List.forall_mem_cons.mp h
      obtain ⟨hclosure, hopen⟩ := List.forall_mem_cons.mp hopen
      rw [← splitTrailing_append rest, List.forall_mem_append] at hrest hopen
      obtain ⟨htrailing, hothers, -⟩ := List.isChain_append.mp ((splitTrailing_append rest).symm ▸ hapart.of_cons)
      rw [List.isEmpty_iff.mp hclosure, closureWith_nil]
      exact List.forall_mem_cons.mpr
        ⟨showsAllTrivia_command (everywhere_command.mp hfirst).2.1 hrest.1 htrailing, ih hrest.2 hothers hopen.2⟩
  | case3 n rest _ ih =>
      obtain ⟨hn, hrest⟩ := List.forall_mem_cons.mp h
      obtain ⟨-, hopen⟩ := List.forall_mem_cons.mp hopen
      exact List.forall_mem_cons.mpr ⟨hn, ih hrest hapart.of_cons hopen⟩

/-! ### Runs of trivia -/

/-- Whether the nodes are those of a run of trivia tokens: blanks and comments, with no blanks next to others. -/
structure AreShownTrivia (tokens : List Token) (nodes : List Node) : Prop where
  trivia : ∀ n ∈ nodes, n.isTrivia = true
  shown : ∀ n ∈ nodes, n.ShowsAllTrivia tokens
  apart : BlanksApart nodes

/-- Whether the nodes are the entries of a list to which nothing is attached yet, and show all trivia. -/
structure AreShown (tokens : List Token) (nodes : List Node) : Prop extends ShowTrivia nodes where
  shown : ∀ n ∈ nodes, n.ShowsAllTrivia tokens
  opened : ∀ n ∈ nodes, n.isOpen = true

theorem AreShownTrivia.areShown (h : AreShownTrivia tokens nodes) : AreShown tokens nodes where
  toShowTrivia := showTrivia_of_isTrivia h.trivia h.apart
  shown := h.shown
  opened n hn := isOpen_of_isTrivia (h.trivia n hn)

namespace AreShown

/-- Behind its trivia a statement may follow that begins with a lexeme without trivia. -/
theorem concat (h : AreShown tokens nodes) (htrivia : n.isTrivia = false) (hopen : n.isOpen = true)
    (hbare : n.BeginsBare) (hn : n.ShowsAllTrivia tokens) : AreShown tokens (nodes ++ [n]) where
  toShowTrivia := h.toShowTrivia.concat htrivia hbare
  shown := List.forall_mem_append.mpr ⟨h.shown, List.forall_mem_singleton.mpr hn⟩
  opened := List.forall_mem_append.mpr ⟨h.opened, List.forall_mem_singleton.mpr hopen⟩

/-- Behind a list that does not end in blanks another one may follow. -/
theorem append {others : List Node} (h : AreShown tokens nodes) (hothers : AreShown tokens others)
    (hlast : ∀ m ∈ nodes.getLast?, m.isWhitespace = false) : AreShown tokens (nodes ++ others) where
  toShowTrivia := h.toShowTrivia.append hothers.toShowTrivia fun m hm _ _ => .inl (hlast m hm)
  shown := List.forall_mem_append.mpr ⟨h.shown, hothers.shown⟩
  opened := List.forall_mem_append.mpr ⟨h.opened, hothers.opened⟩

end AreShown

theorem showsTrivia_comment {t : Token} (ht : t ∈ tokens) (hkind : t.kind.isComment = true) :
    (comment t.text).ShowsTrivia tokens where
  blanks := nofun
  comment _ heq := ⟨t, ht, hkind, Node.comment.inj heq⟩
  closure := nofun
  blocks := nofun

theorem showsTrivia_whitespace {run : Text} (hne : run ≠ [])
    (hrun : ∀ c ∈ run, isBlank c = true ∨ isLineBreak c = true) : (whitespace run).ShowsTrivia tokens where
  blanks _ heq := by cases heq; exact ⟨hne, hrun⟩
  comment := nofun
  closure := nofun
  blocks := nofun

end Node

namespace Token

variable {tokens : List Token}

/-- Trivia that are no comment are made of blanks and line breaks. -/
theorem IsRead.isBlank_or_isLineBreak {t : Token} (h : t.IsRead) (htrivia : t.isTrivia = true)
    (hkind : ¬t.kind.isComment = true) : ∀ c ∈ t.text, isBlank c = true ∨ isLineBreak c = true := by
  intro c hc
  cases hk : t.kind with
  | blank => exact .inl (h.isBlank_of_mem hk c hc)
  | lineBreak => exact .inr (h.isLineBreak_of_mem hk c hc)
  | lineComment | blockComment => exact absurd (by rw [hk]; rfl) hkind
  | _ =>
      rw [isTrivia, hk] at htrivia
      cases htrivia

theorem showsTrivia_joinedNodes {ts : List Token} (hread : ∀ t ∈ tokens, t.IsRead) (hts : ∀ t ∈ ts, t ∈ tokens)
    (htrivia : ∀ t ∈ ts, t.isTrivia = true) : ∀ n ∈ joinedNodes ts, n.ShowsTrivia tokens := by
  induction ts with
  | nil => exact List.forall_mem_nil _
  | cons t ts ih =>
      obtain ⟨ht, hts⟩ := List.forall_mem_cons.mp hts
      obtain ⟨htrivia, hothers⟩ := List.forall_mem_cons.mp htrivia
      have hrest := ih hts hothers
      by_cases hkind : t.kind.isComment = true
      · rw [joinedNodes, if_pos hkind]
        exact List.forall_mem_cons.mpr ⟨Node.showsTrivia_comment ht hkind, hrest⟩
      · have htext := (hread t ht).isBlank_or_isLineBreak htrivia hkind
        rw [joinedNodes, if_neg hkind]
        generalize joinedNodes ts = nodes at hrest ⊢
        unfold afterBlanks
        split
        · next run nodes =>
            obtain ⟨hrun, hnodes⟩ := List.forall_mem_cons.mp hrest
            refine List.forall_mem_cons.mpr ⟨Node.showsTrivia_whitespace ?_ ?_, hnodes⟩
            · exact List.append_ne_nil_of_left_ne_nil (hread t ht).text_ne_nil run
            · exact List.forall_mem_append.mpr ⟨htext, (hrun.blanks run rfl).2⟩
        · exact List.forall_mem_cons.mpr ⟨Node.showsTrivia_whitespace (hread t ht).text_ne_nil htext, hrest⟩

/-- A run of trivia tokens becomes nodes that are what the tokens are. -/
theorem areShownTrivia_triviaNodes {source : Text} {ts us : List Token} (haddress : Addressed source (ts ++ us))
    (hread : ∀ t ∈ tokens, t.IsRead) (hts : ∀ t ∈ ts, t ∈ tokens) (htrivia : ∀ t ∈ ts, t.isTrivia = true) :
    Node.AreShownTrivia tokens (triviaNodes source (offsetOf source us) none ts) where
  trivia := isTrivia_triviaNodes
  apart := Node.blanksApart_triviaNodes ..
  shown n hn := by
    have hleaf := Node.children_of_isTrivia (isTrivia_triviaNodes n hn)
    rw [triviaNodes_eq_joinedNodes haddress] at hn
    exact (Node.everywhere_leaf hleaf).mpr (showsTrivia_joinedNodes hread hts htrivia n hn)

end Token

/-! ### Blocks and choices -/

namespace Block

/-- Whether the block and all nodes in it show the trivia that belong to them. -/
structure IsShown (tokens : List Token) (b : Block Node) : Prop extends b.ShowsTrivia where
  children : ∀ n ∈ b.children, n.ShowsAllTrivia tokens

/-- Whether nothing is attached yet, neither to the block nor, without braces, to its statements. -/
structure IsOpen (b : Block Node) : Prop where
  closure : b.closure = []
  statements : b.isBraced = false → ∀ n ∈ b.statements, n.isOpen = true

variable {tokens : List Token} {b : Block Node} {comments : List Node}

theorem isShown_of_statements {statements : List Node} (hstatements : Node.ShowTrivia statements)
    (hchildren : ∀ n ∈ statements, n.ShowsAllTrivia tokens) (opening closing : Option Lexeme) :
    IsShown tokens ⟨opening, statements, closing, []⟩ where
  statements := hstatements
  closure := .nil
  children := by rwa [children, List.append_nil]

/-- A block without braces to which nothing is attached yet. -/
theorem isShown_bare {statements : List Node} (h : Node.AreShown tokens statements) :
    IsShown tokens ⟨none, statements, none, []⟩ ∧ IsOpen ⟨none, statements, none, []⟩ :=
  ⟨isShown_of_statements h.toShowTrivia h.shown none none, rfl, fun _ => h.opened⟩

/-- Comments behind a body are shown there or behind its statement, wherever they go. -/
theorem IsShown.attach (h : b.IsShown tokens) (hopen : b.IsOpen) (hcomments : Node.AreShownTrivia tokens comments) :
    (b.attach comments).IsShown tokens := by
  obtain ⟨hstatements, hclosure⟩ := List.forall_mem_append.mp h.children
  rcases b.attach_cases comments with ⟨-, hattach⟩ | ⟨front, inner, semicolon, closure, hbraced, hfront, hattach⟩ |
      ⟨-, -, hattach⟩ <;> rw [hattach]
  · exact h
  · have hmem : .command inner semicolon closure ∈ b.statements := hfront ▸ List.mem_concat_self
    have hnone : closure = [] := List.isEmpty_iff.mp (hopen.statements hbraced _ hmem)
    have hshow := h.statements
    rw [hfront, hnone] at hshow hstatements
    obtain ⟨hbare, hstatement⟩ := List.forall_mem_append.mp hshow.bare
    obtain ⟨hbefore, hlast⟩ := List.forall_mem_append.mp hstatements
    have hinner := (Node.everywhere_command.mp (List.forall_mem_singleton.mp hlast)).2.1
    rw [hnone, List.nil_append]
    have hcommand := (List.forall_mem_singleton.mp hstatement rfl).with_closure hcomments.trivia
    have hfronts : Node.ShowTrivia front := ⟨hbare, (List.isChain_append.mp hshow.apart).1⟩
    exact {
      statements := hfronts.concat rfl hcommand
      closure := h.closure
      children := List.forall_mem_append.mpr ⟨List.forall_mem_append.mpr ⟨hbefore, List.forall_mem_singleton.mpr
        (Node.showsAllTrivia_command hinner hcomments.shown hcomments.apart)⟩, hclosure⟩ }
  · exact {
      statements := h.statements
      closure := hcomments.apart
      children := List.forall_mem_append.mpr ⟨hstatements, hcomments.shown⟩ }

end Block

namespace Control

/-- Whether the choice or loop and all nodes in it show the trivia that belong to them. -/
structure IsShown (tokens : List Token) (control : Control Node) : Prop where
  header : ∀ n ∈ control.header, n.ShowsAllTrivia tokens
  body : control.body.IsShown tokens
  alternate : ∀ a ∈ control.alternate, a.body.IsShown tokens

theorem IsShown.node {tokens : List Token} {control : Control Node} (h : control.IsShown tokens) :
    (Node.combinator control).ShowsAllTrivia tokens := by
  refine Node.showsAllTrivia_of_blocks rfl rfl ?_ ?_
  · refine List.forall_mem_cons.mpr ⟨h.body.toShowsTrivia, List.forall_mem_map.mpr fun a ha => ?_⟩
    exact (h.alternate a (Option.mem_toList.mp ha)).toShowsTrivia
  · refine List.forall_mem_append.mpr ⟨List.forall_mem_append.mpr ⟨h.header, h.body.children⟩,
      List.forall_mem_flatMap.mpr fun a ha => ?_⟩
    exact (h.alternate a (Option.mem_toList.mp ha)).children

end Control

end LosslessSyntax
