import LosslessSyntax.Grammar.Classes
import LosslessSyntax.Parse.Sequence
import LosslessSyntax.Proofs.Parse.Result
import LosslessSyntax.Proofs.Tree.WellFormed

/-! Rules on tokens that are known in advance. Where a cursor faces certain lexemes, a rule takes some of them and
becomes what is left of it to run; once all that is left is a result, the rule has read the lexemes. One law for each
way of putting rules together carries this from lexeme to lexeme. -/

namespace LosslessSyntax

/-- Whether the tokens are those of the lexemes. Every lexeme is one token behind the blanks that lead it, of the kind
as which its text is read. -/
inductive Token.Carry : List Lexeme → List Token → Prop where
  | nil : Carry [] []
  | cons {l : Lexeme} {ls : List Lexeme} {blanks : List Token} {t : Token} {ts : List Token}
      (hblanks : ∀ b ∈ blanks, b.kind = .blank ∧ b.text ≠ []) (hlexeme : l = ⟨restore blanks, t.text⟩)
      (hkind : t.kind = t.text.kind) (htrivia : t.isTrivia = false) (hrest : Carry ls ts) :
      Carry (l :: ls) (blanks ++ t :: ts)

/-- The kind of the first of the lexemes, or the end of input. -/
def Lexeme.front : List Lexeme → Kind
  | [] => .endOfInput
  | l :: _ => l.text.kind

namespace Cursor

/-- Whether these lexemes, and nothing behind them, are in front of the cursor, and all has gone well so far. -/
structure Faces (c : Cursor) (ls : List Lexeme) : Prop where
  addressed : c.IsAddressed
  givenUp : c.givenUp = false
  diagnostics : c.diagnostics = []
  upcoming : Token.Carry ls c.upcoming

namespace Faces

variable {c : Cursor} {l : Lexeme} {ls : List Lexeme}

theorem upcoming_eq_nil (h : c.Faces []) : c.upcoming = [] := by
  have hupcoming := h.upcoming
  generalize c.upcoming = ts at hupcoming ⊢
  cases hupcoming
  rfl

/-- What a cursor has in front that faces a lexeme. -/
theorem exists_ahead (h : c.Faces (l :: ls)) : ∃ t ts, c.ahead = t :: ts ∧ l = ⟨Token.restore c.trivia, t.text⟩ ∧
    (∀ b ∈ c.trivia, b.kind = .blank ∧ b.text ≠ []) ∧ t.kind = l.text.kind ∧ Token.Carry ls ts := by
  have hupcoming := h.upcoming
  rw [ahead, trivia]
  generalize c.upcoming = us at hupcoming ⊢
  cases hupcoming with
  | @cons _ _ blanks t ts hblanks hlexeme hkind htrivia hrest =>
      have hrun : ∀ b ∈ blanks, b.isTrivia = true := fun b hb => by
        rw [Token.isTrivia, (hblanks b hb).1]
        rfl
      have hstop : ¬t.isTrivia = true := by rw [htrivia]; decide
      rw [List.dropWhile_append_of_pos hrun, List.takeWhile_append_of_pos hrun, List.dropWhile_cons_of_neg hstop,
        List.takeWhile_cons_of_neg hstop, List.append_nil]
      exact ⟨t, ts, rfl, hlexeme, hblanks, by rw [hlexeme]; exact hkind, hrest⟩

theorem kind_eq (h : c.Faces ls) : c.kind = Lexeme.front ls := by
  rw [Cursor.kind, h.givenUp]
  cases ls with
  | nil =>
      rw [ahead, h.upcoming_eq_nil]
      rfl
  | cons l ls =>
      obtain ⟨t, ts, hahead, -, -, hkind, -⟩ := h.exists_ahead
      rw [hahead]
      exact hkind

theorem bump_eq (h : c.Faces (l :: ls)) : c.bump.1 = l ∧ c.bump.2.Faces ls := by
  obtain ⟨t, ts, hahead, hlexeme, -, -, hrest⟩ := h.exists_ahead
  have haddressed := h.addressed.run Rule.bump
  rw [Rule.run_bump] at haddressed
  rw [h.addressed.bump_eq hahead] at haddressed ⊢
  exact ⟨hlexeme.symm, haddressed, h.givenUp, h.diagnostics, hrest⟩

/-- Blanks end no line. -/
theorem followsLineBreak_eq_false (h : c.Faces ls) : c.followsLineBreak = false := by
  cases ls with
  | nil =>
      rw [followsLineBreak, trivia, h.upcoming_eq_nil]
      rfl
  | cons l ls =>
      obtain ⟨-, -, -, -, hblanks, -, -⟩ := h.exists_ahead
      refine List.any_eq_false.mpr fun b hb => ?_
      simp [(hblanks b hb).1]

/-- Where nothing stands in front of the next lexeme, no trivia are taken. -/
theorem takeTrivia_eq (h : c.Faces ls) (hleading : ∀ l ∈ ls.head?, l.leading = []) :
    c.takeTrivia.1 = [] ∧ c.takeTrivia.2.Faces ls := by
  have hnone : c.trivia = [] := by
    cases ls with
    | nil =>
        rw [trivia, h.upcoming_eq_nil]
        rfl
    | cons l ls =>
        obtain ⟨t, ts, -, hlexeme, hblanks, -, -⟩ := h.exists_ahead
        have hl := hleading l rfl
        rw [hlexeme] at hl
        cases htrivia : c.trivia with
        | nil => rfl
        | cons b blanks =>
            rw [htrivia] at hl hblanks
            exact absurd (List.append_eq_nil_iff.mp hl).1 (hblanks b List.mem_cons_self).2
  have hall : c.ahead = c.upcoming := by
    rw [← trivia_append_ahead, hnone]
    rfl
  refine ⟨?_, h.addressed.run Rule.takeTrivia, h.givenUp, h.diagnostics, ?_⟩
  · rw [takeTrivia, hnone]
    rfl
  · rw [takeTrivia, hall]
    exact h.upcoming

end Faces

end Cursor

namespace Rule

variable {A B : Type} {a : A} {r s t : Rule A} {f : A → Rule B} {ls ms rest : List Lexeme} {q : Rule B}

/-- Whether the rule takes the lexemes `ls` in front of `rest` and then goes on as `s`. -/
def Becomes (r : Rule A) (ls rest : List Lexeme) (s : Rule A) : Prop :=
  ∀ c : Cursor, c.Faces (ls ++ rest) → ∃ d : Cursor, d.Faces rest ∧ r.run c = s.run d

/-- Whether the rule takes the lexemes `ls` in front of `rest` and comes to `a`. -/
abbrev Reads (r : Rule A) (ls rest : List Lexeme) (a : A) : Prop := r.Becomes ls rest (pure a)

namespace Becomes

theorem refl (r : Rule A) (rest : List Lexeme) : r.Becomes [] rest r := fun c hc => ⟨c, hc, rfl⟩

theorem trans (h : r.Becomes ls (ms ++ rest) s) (h' : s.Becomes ms rest t) : r.Becomes (ls ++ ms) rest t := by
  intro c hc
  rw [List.append_assoc] at hc
  obtain ⟨d, hd, hrun⟩ := h c hc
  obtain ⟨e, he, hrun'⟩ := h' d hd
  exact ⟨e, he, hrun.trans hrun'⟩

theorem bind (h : r.Reads ls (ms ++ rest) a) (hf : (f a).Becomes ms rest q) :
    (r >>= f).Becomes (ls ++ ms) rest q := by
  intro c hc
  rw [List.append_assoc] at hc
  obtain ⟨d, hd, hrun⟩ := h c hc
  obtain ⟨e, he, hrun'⟩ := hf d hd
  refine ⟨e, he, ?_⟩
  rw [run_bind, hrun]
  exact hrun'

/-- Nothing more is taken. -/
theorem trans_nil (h : r.Becomes ls rest s) (h' : s.Becomes [] rest t) : r.Becomes ls rest t := by
  rw [← List.append_nil ls]
  exact h.trans h'

theorem bind_nil (h : r.Reads ls rest a) (hf : (f a).Becomes [] rest q) : (r >>= f).Becomes ls rest q := by
  rw [← List.append_nil ls]
  exact h.bind hf

theorem map (g : A → B) (h : r.Reads ls rest a) : (g <$> r).Reads ls rest (g a) := by
  intro c hc
  obtain ⟨d, hd, hrun⟩ := h c hc
  exact ⟨d, hd, by rw [run_map, hrun]; rfl⟩

theorem kind_bind {k : Kind} {f : Kind → Rule B} (hk : Lexeme.front (ls ++ rest) = k) (h : (f k).Becomes ls rest q) :
    (kind >>= f).Becomes ls rest q := by
  intro c hc
  rw [run_bind, run_kind, hc.kind_eq, hk]
  exact h c hc

theorem look_bind {g : Cursor → A} (h : ∀ a, (f a).Becomes ls rest q) : (look g >>= f).Becomes ls rest q :=
  fun c hc => h _ c hc

theorem followsLineBreak_bind {f : Bool → Rule B} (h : (f false).Becomes ls rest q) :
    (look Cursor.followsLineBreak >>= f).Becomes ls rest q := by
  intro c hc
  rw [run_bind, run_look, hc.followsLineBreak_eq_false]
  exact h c hc

theorem bump_bind {l : Lexeme} {f : Lexeme → Rule B} (h : (f l).Becomes ls rest q) :
    (bump >>= f).Becomes (l :: ls) rest q := by
  intro c hc
  obtain ⟨hlexeme, hbehind⟩ := hc.bump_eq
  rw [run_bind, run_bump, hlexeme]
  exact h _ hbehind

theorem reads_bump (l : Lexeme) (rest : List Lexeme) : bump.Reads [l] rest l := by
  rw [← bind_pure bump]
  exact bump_bind (.refl _ rest)

theorem expect_bind {l : Lexeme} {k : Kind} {f : Lexeme → Rule B} (hk : l.text.kind = k) (h : (f l).Becomes ls rest q) :
    (expect k >>= f).Becomes (l :: ls) rest q := by
  have hexpect : (expect k).Reads [l] (ls ++ rest) l := by
    refine kind_bind (k := k) hk ?_
    rw [if_pos rfl]
    exact reads_bump l _
  exact hexpect.bind h

theorem optional_bind_some {l : Lexeme} {k : Kind} {f : Option Lexeme → Rule B} (hk : l.text.kind = k)
    (h : (f (some l)).Becomes ls rest q) : (optional k >>= f).Becomes (l :: ls) rest q := by
  have hoptional : (optional k).Reads [l] (ls ++ rest) (some l) := by
    refine kind_bind (k := k) hk ?_
    rw [if_pos rfl]
    exact bump_bind (.refl _ _)
  exact hoptional.bind h

theorem optional_bind_none {k : Kind} {f : Option Lexeme → Rule B} (hk : Lexeme.front (ls ++ rest) ≠ k)
    (h : (f none).Becomes ls rest q) : (optional k >>= f).Becomes ls rest q := by
  have hoptional : (optional k).Reads [] (ls ++ rest) none := by
    refine kind_bind rfl ?_
    rw [List.nil_append, if_neg hk]
    exact .refl _ _
  exact hoptional.bind h

theorem takeTrivia_bind {f : List Node → Rule B} (hleading : ∀ l ∈ (ls ++ rest).head?, l.leading = [])
    (h : (f []).Becomes ls rest q) : (takeTrivia >>= f).Becomes ls rest q := by
  intro c hc
  obtain ⟨hnone, hsame⟩ := hc.takeTrivia_eq hleading
  rw [run_bind, run_takeTrivia, hnone]
  exact h _ hsame

/-! ### Loops -/

theorem grow_next {round : A → Rule (A × Bool)} {hround : ∀ a, (round a).Advances} {b : A}
    (h : (round a).Reads ls rest (b, true)) : (grow round hround a).Becomes ls rest (grow round hround b) := by
  rw [grow_eq round hround a]
  exact h.bind_nil (.refl _ rest)

theorem grow_last {round : A → Rule (A × Bool)} {hround : ∀ a, (round a).Advances}
    (h : (round a).Reads [] rest (a, false)) : (grow round hround a).Reads [] rest a := by
  rw [grow_eq]
  exact h.bind_nil (.refl _ rest)

theorem collect_next {round : Rule (List A × Bool)} {hround : round.Advances} {as bs : List A}
    (h : round.Reads ls (ms ++ rest) (as, true)) (hloop : (collect round hround).Reads ms rest bs) :
    (collect round hround).Reads (ls ++ ms) rest (as ++ bs) := by
  rw [collect_eq]
  refine h.bind ?_
  exact hloop.map (as ++ ·)

theorem collect_last {round : Rule (List A × Bool)} {hround : round.Advances} {as : List A}
    (h : round.Reads ls rest (as, false)) : (collect round hround).Reads ls rest as := by
  rw [collect_eq]
  exact h.bind_nil (.refl _ rest)

/-- The rounds of a list whose items have been read, with the commas behind them. -/
theorem exists_collect_separated {item : Rule (Option A)} {words : A → List Lexeme} {items : List A}
    {commas : List Lexeme}
    (hitem : ∀ a ∈ items, ∀ behind, (Lexeme.front behind).endsList = true → item.Reads (words a) behind (some a))
    (hend : item.Reads [] rest none) (hrest : (Lexeme.front rest).endsList = true)
    (hcomma : Lexeme.front rest ≠ .symbol .comma) (hcommas : Lexeme.AreCommas commas items.length) :
    ∃ pairs, (collect (separatedRound item) (advances_separatedRound item)).Reads
        (Part.interleave (items.map words) commas) rest pairs ∧
      pairs.map (·.1) = items ∧ pairs.filterMap (·.2) = commas := by
  induction items generalizing commas with
  | nil =>
      have hnone : commas = [] := by
        have := hcommas.length
        exact List.length_eq_zero_iff.mp (by simpa using this)
      rw [hnone]
      exact ⟨[], collect_last (hend.bind_nil (.refl _ rest)), rfl, rfl⟩
  | cons a items ih =>
      obtain ⟨ha, hitems⟩ := List.forall_mem_cons.mp hitem
      cases commas with
      | nil =>
          -- Only the last item may lack its comma.
          have hlast : items = [] := by
            have := hcommas.length
            exact List.length_eq_zero_iff.mp (by simpa using this)
          rw [hlast]
          have hround : (separatedRound item).Reads (words a) rest ([(a, none)], false) :=
            (ha rest hrest).bind_nil (optional_bind_none hcomma (.refl _ rest))
          have hwords : Part.interleave ([a].map words) [] = words a := List.append_nil _
          rw [hwords]
          exact ⟨[(a, none)], collect_last hround, rfl, rfl⟩
      | cons comma commas =>
          obtain ⟨hfirst, hothers⟩ := List.forall_mem_cons.mp hcommas.spells
          have hkind : comma.text.kind = .symbol .comma := hfirst.text.kind_eq
          have hlength : Lexeme.AreCommas commas items.length := ⟨hothers, by simpa using hcommas.length⟩
          obtain ⟨pairs, hpairs, hvalues, hseparators⟩ := ih hitems hlength
          refine ⟨(a, some comma) :: pairs, ?_, by rw [List.map_cons, hvalues], by simp [hseparators]⟩
          have hround : (separatedRound item).Reads (words a ++ [comma])
              (Part.interleave (items.map words) commas ++ rest) ([(a, some comma)], true) := by
            refine (ha _ ?_).bind (optional_bind_some hkind (.refl _ _))
            rw [List.singleton_append, Lexeme.front, hkind]
            rfl
          have hloop := collect_next hround hpairs
          rw [List.append_assoc] at hloop
          exact hloop

/-- A list is read with its commas, up to what ends it. -/
theorem separated {item : Rule (Option A)} {words : A → List Lexeme} {items : List A} {commas : List Lexeme}
    (hitem : ∀ a ∈ items, ∀ behind, (Lexeme.front behind).endsList = true → item.Reads (words a) behind (some a))
    (hend : item.Reads [] rest none) (hrest : (Lexeme.front rest).endsList = true)
    (hcomma : Lexeme.front rest ≠ .symbol .comma) (hcommas : Lexeme.AreCommas commas items.length) :
    (Rule.separated item).Reads (Part.interleave (items.map words) commas) rest (items, commas) := by
  obtain ⟨pairs, hpairs, hvalues, hseparators⟩ := exists_collect_separated hitem hend hrest hcomma hcommas
  refine hpairs.bind_nil ?_
  rw [hvalues, hseparators]
  exact .refl _ rest

end Becomes

end Rule

end LosslessSyntax
