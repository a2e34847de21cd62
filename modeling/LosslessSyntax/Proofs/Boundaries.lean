import LosslessSyntax.Proofs.Comments
import LosslessSyntax.Proofs.Numbers
import LosslessSyntax.Proofs.Strings
import LosslessSyntax.Proofs.Symbols
import LosslessSyntax.Proofs.Token.Fault

/-! Cutting a source between two tokens. A token ends because of what stands behind it, and where nothing stands it
ends as well. So what is read off the front of a text is read again off every shorter text that has it in front: with
its kind, its text and its flags. Hence the tokens of a source up to one of them are those of the text up to there,
the tokens behind are those of the text behind, wherever that stands, and every token alone is read as itself. -/

namespace LosslessSyntax

namespace Text

variable {P : Text → Prop} {t u p q : Text}

/-- The longest front of a text is that of a shorter text too, if it is a front of it. -/
theorem IsLongest.of_front (h : IsLongest P t p) (hp : p <+: u) (hu : u <+: t) : IsLongest P u p where
  isPrefix := hp
  holds := h.holds
  length_le := fun w hw => h.length_le w (hw.trans hu)

theorem IsLongest.unique (h : IsLongest P t p) (h' : IsLongest P t q) : p = q := by
  have hle := h'.length_le p h.isPrefix h.holds
  have hge := h.length_le q h'.isPrefix h'.holds
  exact (List.prefix_of_prefix_length_le h.isPrefix h'.isPrefix hle).eq_of_length (Nat.le_antisymm hle hge)

theorem mem_head?_of_front (hu : u <+: t) : ∀ c ∈ u.head?, c ∈ t.head? := by
  obtain ⟨v, rfl⟩ := hu
  intro c hc
  exact List.mem_head?_append_of_mem_head? hc

theorem BeginsComment.of_front (h : u.BeginsComment) (hu : u <+: t) : t.BeginsComment :=
  h.imp (·.trans hu) (·.trans hu)

theorem BeginsNumber.of_front (h : u.BeginsNumber) (hu : u <+: t) : t.BeginsNumber := by
  obtain ⟨v, rfl⟩ := hu
  cases h with
  | digit hd => exact .digit hd
  | point hd => exact .point hd

/-- Units of a string are whole whatever stands behind them, as long as something does not come to stand there. -/
theorem StringUnits.of_front {quote : Char} {body behind w : Text} (h : StringUnits quote body behind)
    (hw : w <+: behind) : StringUnits quote body w := by
  induction h with
  | nil => exact .nil w
  | plain hquote hescape hbreak _ ih => exact (ih hw).plain hquote hescape hbreak
  | escape c _ ih => exact .escape c (ih hw)
  | last =>
      rw [List.prefix_nil.mp hw]
      exact .last

end Text

theorem Kind.Allows.beginsNumber {t : Text} (h : Kind.number.Allows t) : t.BeginsNumber := by
  cases h with
  | decimal hd => exact .digit hd
  | pointed hd => exact .point hd
  | based => exact .digit rfl

/-- A text leaves no choice of flags that tell how a number is written. -/
theorem Flags.DescribesNumber.unique {f g : Flags} {t : Text} (hf : f.DescribesNumber t) (hg : g.DescribesNumber t) :
    f = g := by
  have hhex : f.hex = g.hex := Bool.eq_iff_iff.mpr (hf.hex.trans hg.hex.symm)
  have hbinary : f.binary = g.binary := Bool.eq_iff_iff.mpr (hf.binary.trans hg.binary.symm)
  have hoctal : f.octal = g.octal := Bool.eq_iff_iff.mpr (hf.octal.trans hg.octal.symm)
  have hscientific : f.scientific = g.scientific := Bool.eq_iff_iff.mpr (hf.scientific.trans hg.scientific.symm)
  have hseparated : f.separated = g.separated := Bool.eq_iff_iff.mpr (hf.separated.trans hg.separated.symm)
  have hunterminated : f.unterminated = g.unterminated := hf.unterminated.trans hg.unterminated.symm
  cases f
  cases g
  simp_all only

namespace Reading

open Text

variable {c : Char} {t u w : Text}

/-! ### Readers stop again where they stopped -/

theorem run_append_of_front {p : Char → Bool} (hw : w <+: (run p t).2) :
    run p ((run p t).1 ++ w) = ((run p t).1, w) := by
  refine run_append_of_pos (fun d hd => List.all_eq_true.mp List.all_takeWhile d hd) fun d hd => ?_
  have hstop := List.head?_dropWhile_not p t
  rwa [show (t.dropWhile p).head? = some d from mem_head?_of_front hw d hd] at hstop

theorem throughCommentEnd_append_of_front (hw : w <+: (throughCommentEnd t).2.1) :
    throughCommentEnd ((throughCommentEnd t).1 ++ w) = ((throughCommentEnd t).1, w, (throughCommentEnd t).2.2) := by
  induction t with
  | nil =>
      rw [List.prefix_nil.mp hw]
      rfl
  | cons c t ih =>
      simp only [throughCommentEnd] at hw ⊢
      split at hw
      · next hmark =>
          obtain ⟨rfl, t, rfl⟩ := pair_iff.mp hmark
          rfl
      · next hmark =>
          have hfront : (throughCommentEnd t).1 ++ w <+: t := by
            have happend := (List.prefix_append_right_inj (throughCommentEnd t).1).mpr hw
            rwa [throughCommentEnd_append] at happend
          have hnone : ¬(decide (c = '*') && decide (((throughCommentEnd t).1 ++ w).head? = some '/')) = true := by
            simp only [Bool.and_eq_true, decide_eq_true_eq] at hmark ⊢
            exact fun h => hmark ⟨h.1, mem_head?_of_front hfront '/' h.2⟩
          rw [if_neg hmark, List.cons_append, throughCommentEnd, if_neg hnone, ih hw]

theorem throughQuote_append_of_front {quote : Char} {taken : Nat} (hquote : quote ≠ '\\')
    (hw : w <+: (throughQuote quote taken t).2.1) :
    throughQuote quote taken ((throughQuote quote taken t).1 ++ w) =
      ((throughQuote quote taken t).1, w, (throughQuote quote taken t).2.2) := by
  obtain ⟨body, behind, hend⟩ := exists_stringEnd quote t
  rcases throughQuote_of_stringEnd hquote hend taken with ⟨hhead, hread⟩ | ⟨hhead, hread⟩
  · obtain ⟨v, rfl⟩ := List.head?_eq_some_iff.mp hhead
    rw [hread] at hw ⊢
    have hunits : StringUnits quote body (quote :: w) :=
      hend.units.of_front (List.cons_prefix_cons.mpr ⟨rfl, hw⟩)
    have hagain : StringEnd quote (body ++ [quote] ++ w) body (quote :: w) :=
      ⟨by simp, hunits, fun c hc => .inl (Option.some.inj hc).symm⟩
    exact ((throughQuote_of_stringEnd hquote hagain taken).resolve_right fun h => h.1 rfl).2
  · rw [hread] at hw ⊢
    have hagain : StringEnd quote (body ++ w) body w :=
      ⟨rfl, hend.units.of_front hw, fun c hc => hend.stop c (mem_head?_of_front hw c hc)⟩
    refine ((throughQuote_of_stringEnd hquote hagain taken).resolve_left fun h => hhead ?_).2
    exact mem_head?_of_front hw quote h.1

/-! ### Readings of a shorter text -/

/-- Whether what a reader takes off a text that begins with `c` is read again, whatever is left behind it of what was
there. -/
def Rereads (c : Char) (f : Text → Reading) : Prop :=
  ∀ t u w, (f t).text ++ w = c :: u → w <+: (f t).rest → f u = { f t with rest := w }

theorem rereads_string {quote : Char} (hquote : quote ≠ '\\') : Rereads quote (string quote) := by
  intro t u w hu hw
  obtain rfl : (throughQuote quote 1 t).1 ++ w = u := (List.cons.inj hu).2
  rw [string, throughQuote_append_of_front hquote hw]
  rfl

theorem rereads_lineBreak (c : Char) : Rereads c (lineBreak c) := by
  intro t u w hu hw
  rcases lineBreak_cases c t with ⟨rfl, v, rfl, hread⟩ | ⟨hpair, hread⟩
  · rw [hread] at hu ⊢
    obtain rfl : '\n' :: w = u := (List.cons.inj hu).2
    rfl
  · rw [hread] at hu hw ⊢
    obtain rfl : w = u := (List.cons.inj hu).2
    rcases lineBreak_cases c w with ⟨rfl, v, rfl, -⟩ | ⟨-, hagain⟩
    · exact absurd ⟨rfl, mem_head?_of_front hw '\n' rfl⟩ hpair
    · exact hagain

theorem rereads_blanks (c : Char) : Rereads c (blanks c) := by
  intro t u w hu hw
  obtain rfl : (run isBlank t).1 ++ w = u := (List.cons.inj hu).2
  rw [blanks, run_append_of_front hw]
  rfl

theorem name_eq (c : Char) (t : Text) :
    name c t = ⟨((Keyword.ofText? (c :: (run isIdentifierPart t).1)).elim .identifier .keyword),
      c :: (run isIdentifierPart t).1, (run isIdentifierPart t).2, {}, []⟩ := by
  simp only [name]
  cases Keyword.ofText? (c :: (run isIdentifierPart t).1) <;> rfl

theorem rereads_name (c : Char) : Rereads c (name c) := by
  intro t u w hu hw
  rw [name_eq] at hu hw
  obtain rfl : (run isIdentifierPart t).1 ++ w = u := (List.cons.inj hu).2
  rw [name_eq, name_eq, run_append_of_front hw]

theorem rereads_unknown (c : Char) : Rereads c (unknown c) := by
  intro t u w hu hw
  obtain rfl : w = u := (List.cons.inj hu).2
  rfl

/-- Which of the other readers goes on is told by the first character. -/
theorem word_cases (c : Char) :
    (c = '\'' ∨ c = '"') ∧ word c = string c ∨ word c = lineBreak c ∨ word c = blanks c ∨ word c = name c ∨
      word c = unknown c := by
  by_cases hsign : c = '&' ∨ c = '|'
  · refine .inr (.inr (.inr (.inr (funext fun t => ?_))))
    rw [word, if_pos (by simpa using hsign), loneSign_eq_unknown hsign]
  by_cases hquote : c = '\'' ∨ c = '"'
  · exact .inl ⟨hquote, funext fun t => by simp [word, hsign, hquote]⟩
  by_cases hbreak : isLineBreak c = true
  · exact .inr (.inl (funext fun t => by simp [word, hsign, hquote, hbreak]))
  by_cases hblank : isBlank c = true
  · exact .inr (.inr (.inl (funext fun t => by simp [word, hsign, hquote, hbreak, hblank])))
  by_cases hstart : isIdentifierStart c = true
  · exact .inr (.inr (.inr (.inl (funext fun t => by simp [word, hsign, hquote, hbreak, hblank, hstart]))))
  · exact .inr (.inr (.inr (.inr (funext fun t => by simp [word, hsign, hquote, hbreak, hblank, hstart]))))

theorem rereads_word (c : Char) : Rereads c (word c) := by
  rcases word_cases c with ⟨hquote, h⟩ | h | h | h | h
  · have hescape : c ≠ '\\' := by rcases hquote with rfl | rfl <;> decide
    exact h ▸ rereads_string hescape
  · exact h ▸ rereads_lineBreak c
  · exact h ▸ rereads_blanks c
  · exact h ▸ rereads_name c
  · exact h ▸ rereads_unknown c

/-- A number is read again: it is the longest in front of the shorter text too, and its flags go by its text. -/
theorem number_of_front (h : t.BeginsNumber) (hu : (number t).text ++ w = u) (hw : w <+: (number t).rest) :
    number u = { number t with rest := w } := by
  have hlongest := isLongest_number h
  have hfront : (number t).text <+: u := hu ▸ List.prefix_append _ w
  have hshort : u <+: t := by
    have happend := (List.prefix_append_right_inj (number t).text).mpr hw
    rwa [hu, text_append_rest_number] at happend
  have hagain : u.BeginsNumber := hlongest.holds.beginsNumber.of_front hfront
  have htext : (number u).text = (number t).text :=
    (isLongest_number hagain).unique (hlongest.of_front hfront hshort)
  have hrest : (number u).rest = w := by
    have hsplit := text_append_rest_number u
    rw [htext] at hsplit
    exact List.append_cancel_left (hsplit.trans hu.symm)
  have hflags : (number u).flags = (number t).flags :=
    (htext ▸ describesNumber_number hagain).unique (describesNumber_number h)
  have hkind : (number u).kind = (number t).kind := (kind_number u).trans (kind_number t).symm
  have hfaults : (number u).faults = (number t).faults := (faults_number u).trans (faults_number t).symm
  calc number u = ⟨(number u).kind, (number u).text, (number u).rest, (number u).flags, (number u).faults⟩ := rfl
    _ = { number t with rest := w } := by rw [hkind, htext, hrest, hflags, hfaults]

/-- The longest symbol in front of a text is that of a shorter text too. -/
theorem symbol?_of_front {s : Symbol} {n : Nat} (h : symbol? t = some (s, n)) (hw : w <+: t.drop n) :
    symbol? (s.text ++ w) = some (s, n) := by
  have hshort : s.text ++ w <+: t := by
    have happend := (List.prefix_append_right_inj s.text).mpr hw
    rwa [← take_of_symbol? h, List.take_append_drop, take_of_symbol? h] at happend
  obtain ⟨found, m, hfound, -⟩ := exists_symbol?_append s w
  have htext : found.text = s.text :=
    (isLongest_symbol? hfound).unique ((isLongest_symbol? h).of_front (List.prefix_append _ w) hshort)
  have hsame : found = s := by
    have hspelled := found.ofText?_text
    rw [htext, s.ofText?_text] at hspelled
    exact (Option.some.inj hspelled).symm
  rw [hfound, hsame, length_of_symbol? hfound, length_of_symbol? h, htext]

theorem lineComment_of_front (hw : w <+: (lineComment t).rest) :
    lineComment ((run (!isLineBreak ·) t).1 ++ w) = { lineComment t with rest := w } := by
  rw [lineComment, run_append_of_front hw]
  rfl

theorem blockComment_of_front (hw : w <+: (blockComment t).rest) :
    blockComment ((throughCommentEnd t).1 ++ w) = { blockComment t with rest := w } := by
  rw [blockComment, throughCommentEnd_append_of_front hw]
  cases hclosed : (throughCommentEnd t).2.2 with
  | true => simp only [blockComment, hclosed, if_true]
  | false =>
      -- no end mark is missed in front of the end of the text: nothing was left
      have hrest := rest_throughCommentEnd_of_not_closed hclosed
      have happend := throughCommentEnd_append t
      rw [hrest, List.append_nil] at happend
      obtain rfl : w = [] := List.prefix_nil.mp (hrest ▸ hw)
      simp only [blockComment, hclosed, happend, List.append_nil, Bool.false_eq_true, if_false]

theorem read_of_not_begins {c : Char} {t : Text} (hcomment : ¬ BeginsComment (c :: t))
    (hnumber : ¬ BeginsNumber (c :: t)) :
    read c t = ((symbol? (c :: t)).map fun found =>
      ⟨.symbol found.1, (c :: t).take found.2, (c :: t).drop found.2, {}, []⟩).getD (word c t) := by
  have hcomments : ∀ d ∈ ['/', '*'], ¬(decide (c = '/') && decide (t.head? = some d)) = true := by
    simp only [Bool.and_eq_true, decide_eq_true_eq]
    rintro d hd ⟨rfl, hhead⟩
    obtain ⟨t, rfl⟩ := List.head?_eq_some_iff.mp hhead
    rcases List.mem_pair.mp hd with rfl | rfl
    · exact hcomment (.inl (List.prefix_append ['/', '/'] t))
    · exact hcomment (.inr (List.prefix_append ['/', '*'] t))
  have hnone : ¬(isDigit c || decide (c = '.') && t.head?.any isDigit) = true := by
    simp only [Bool.or_eq_true, Bool.and_eq_true, decide_eq_true_eq, Option.any_eq_true]
    rintro (hd | ⟨rfl, d, hhead, hd⟩)
    · exact hnumber (.digit hd)
    · obtain ⟨t, rfl⟩ := List.head?_eq_some_iff.mp hhead
      exact hnumber (.point hd)
  rw [read, if_neg (hcomments '/' (by decide)), if_neg (hcomments '*' (by decide)), if_neg hnone]
  cases symbol? (c :: t) <;> rfl

/-- What is read off a text is read again off every shorter text that has it in front. -/
theorem rereads_read (c : Char) : Rereads c (read c) := by
  intro t u w hu hw
  have hshort : c :: u <+: c :: t := by
    have happend := (List.prefix_append_right_inj (read c t).text).mpr hw
    rwa [hu, text_append_rest_read] at happend
  by_cases hcomment : BeginsComment (c :: t)
  · rcases hcomment with ⟨v, hv⟩ | ⟨v, hv⟩
    · obtain ⟨rfl, rfl⟩ := List.cons.inj hv
      obtain rfl : '/' :: ((run (!isLineBreak ·) v).1 ++ w) = u := (List.cons.inj hu).2
      exact lineComment_of_front hw
    · obtain ⟨rfl, rfl⟩ := List.cons.inj hv
      obtain rfl : '*' :: ((throughCommentEnd v).1 ++ w) = u := (List.cons.inj hu).2
      exact blockComment_of_front hw
  by_cases hnumber : BeginsNumber (c :: t)
  · rw [read_of_beginsNumber hnumber] at hu hw ⊢
    have hagain : BeginsNumber (c :: u) :=
      (isLongest_number hnumber).holds.beginsNumber.of_front (hu ▸ List.prefix_append _ w)
    rw [read_of_beginsNumber hagain, number_of_front hnumber hu hw]
  have hcomment' : ¬ BeginsComment (c :: u) := fun h => hcomment (h.of_front hshort)
  have hnumber' : ¬ BeginsNumber (c :: u) := fun h => hnumber (h.of_front hshort)
  rw [read_of_not_begins hcomment hnumber] at hu hw ⊢
  rw [read_of_not_begins hcomment' hnumber']
  cases hsymbol : symbol? (c :: t) with
  | some found =>
      obtain ⟨s, n⟩ := found
      rw [hsymbol] at hu hw
      have htext := take_of_symbol? hsymbol
      have hsplit : s.text ++ w = c :: u := htext ▸ hu
      have hagain : symbol? (c :: u) = some (s, n) := hsplit ▸ symbol?_of_front hsymbol hw
      have hrest : (c :: u).drop n = w := by
        rw [← hsplit, length_of_symbol? hsymbol, List.drop_left]
      rw [hagain]
      exact congrArg₂ (Reading.mk _ · · _ _) ((take_of_symbol? hagain).trans htext.symm) hrest
  | none =>
      have hnone : symbol? (c :: u) = none := by
        refine Option.eq_none_iff_forall_ne_some.mpr fun ⟨s, n⟩ hfound => ?_
        obtain ⟨v, hv⟩ := hshort
        rw [← hv, ← List.take_append_drop n (c :: u), take_of_symbol? hfound, List.append_assoc] at hsymbol
        exact symbol?_append_ne_none s _ hsymbol
      rw [hsymbol] at hu hw
      rw [hnone]
      exact rereads_word c t u w hu hw

/-- What is read begins as the text does. -/
theorem exists_text_read (c : Char) (t : Text) : ∃ u, (read c t).text = c :: u := by
  obtain ⟨d, u, hu⟩ := List.exists_cons_of_ne_nil (text_read_ne_nil c t)
  have happend := text_append_rest_read c t
  rw [hu] at happend
  exact ⟨u, by rw [hu, (List.cons.inj happend).1]⟩

end Reading

namespace Token

/-- The token as the first one of a text. -/
def atStart (t : Token) : Token := { t with position := .start, offset := 0 }

namespace Cut

variable {text : Text} {offset offset' : Nat} {position position' : Position} {front back ts us : List Token}

/-- Where a text begins makes no difference to its tokens but for their places. -/
theorem map_atStart_eq (h : Cut text offset position ts) (h' : Cut text offset' position' us) :
    ts.map atStart = us.map atStart := by
  induction h generalizing offset' position' us with
  | nil =>
      cases h'
      rfl
  | cons hread _ ih =>
      cases h' with
      | cons hread' hrest' =>
          subst hread hread'
          exact congrArg (atStart (ofReading _ _ _) :: ·) (ih hrest')

/-- The tokens up to one of them are those of the text up to there. -/
theorem of_append_left (h : Cut text offset position (front ++ back)) : Cut (restore front) offset position front := by
  induction front generalizing text offset position with
  | nil => exact .nil offset position
  | cons t front ih =>
      rw [List.cons_append] at h
      cases h with
      | @cons c u r _ _ _ hread hrest =>
          have hw : restore front <+: r.rest := by
            rw [← hrest.restore_eq, restore_append]
            exact List.prefix_append _ _
          subst hread
          obtain ⟨v, hv⟩ := Reading.exists_text_read c u
          have htext : restore (ofReading (Reading.read c u) position offset :: front) = c :: (v ++ restore front) := by
            rw [restore_cons, ofReading, hv, List.cons_append]
          have hagain := Reading.rereads_read c u (v ++ restore front) (restore front) (by rw [hv]; rfl) hw
          rw [htext]
          exact .cons (r := { Reading.read c u with rest := restore front }) hagain (ih hrest)

end Cut

/-- Cutting a source between two tokens changes neither those in front of the cut nor, apart from their places, those
behind it; and the text of a token is that token again. -/
theorem isSelfContained_tokenize (source : Text) :
    (∀ t ∈ tokenize source, tokenize t.text = [t.atStart]) ∧
      ∀ front back, tokenize source = front ++ back →
        tokenize (restore front) = front ∧ (tokenize (restore back)).map atStart = back.map atStart := by
  have hcut := cut_tokenize source
  constructor
  · intro t ht
    obtain ⟨front, c, rest, place, -, rfl⟩ := hcut.exists_read ht
    obtain ⟨u, hu⟩ := Reading.exists_text_read c rest
    have hagain := Reading.rereads_read c rest u [] (by rw [List.append_nil, hu]) List.nil_prefix
    have hsingle : Cut (c :: u) 0 .start [ofReading (Reading.read c rest) .start 0] :=
      .cons (r := { Reading.read c rest with rest := [] }) hagain (.nil _ _)
    rw [show (ofReading (Reading.read c rest) place _).text = c :: u from hu]
    exact tokenize_eq_of_cut hsingle
  · intro front back hsplit
    rw [hsplit] at hcut
    refine ⟨tokenize_eq_of_cut hcut.of_append_left, ?_⟩
    obtain ⟨text, position, -, hbehind⟩ := hcut.of_append
    rw [hbehind.restore_eq]
    exact (cut_tokenize text).map_atStart_eq hbehind

end Token

end LosslessSyntax
