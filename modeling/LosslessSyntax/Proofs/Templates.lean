import Mathlib.Data.List.GetD
import LosslessSyntax.Proofs.Check.Headline
import LosslessSyntax.Proofs.Text.Replacement

/-! What filling a template makes of it. The places of a template are told apart by their numbers, and no two of them
overlap, so there is one text with all arguments at their places. Filling puts in one argument after another, and
leads to that text after each of them if and only if the arguments before it, among what stands around them, make no
place of its number that the template does not have. -/

namespace LosslessSyntax.Template

open Text

variable {template t : Text} {args : List Text} {a : Text} {c : Char} {i n : Nat}

/-- The number of the place that stands in front of a text, if one does. -/
def place? (t : Text) : Option Nat :=
  let i := Nat.ofDigitChars 10 ((t.drop 1).takeWhile isDigit) 0
  if hole i <+: t then some i else none

/-- The template with all arguments at their places, numbered from zero. What an argument says is not looked at, and a
place without an argument stays as it is. -/
def substitute (args : List Text) : Text → Text
  | [] => []
  | c :: t =>
    match place? (c :: t) with
    | some i => args.getD i (hole i) ++ substitute args (t.drop ((hole i).length - 1))
    | none => c :: substitute args t
termination_by t => t.length
decreasing_by all_goals simp only [List.length_cons, List.length_drop]; omega

/-! ### Places -/

theorem hole_eq (i : Nat) : hole i = '\x7b' :: (Nat.toDigits 10 i ++ ['\x7d']) := rfl

/-- Two places do not overlap. -/
theorem not_mem_tail_hole (i : Nat) : '\x7b' ∉ Nat.toDigits 10 i ++ ['\x7d'] := by
  rw [List.mem_append, List.mem_singleton, not_or]
  exact ⟨Check.not_mem_toDigits rfl, by decide⟩

theorem liesApart_hole (i : Nat) : LiesApart (hole i) := ⟨'\x7b', _, rfl, not_mem_tail_hole i⟩

theorem place?_hole_append (i : Nat) (t : Text) : place? (hole i ++ t) = some i := by
  have hdigits : ((hole i ++ t).drop 1).takeWhile isDigit = Nat.toDigits 10 i := by
    rw [hole_eq, List.cons_append, List.drop_one, List.tail_cons, List.append_assoc,
      List.takeWhile_append_of_pos fun _ => Check.isDigit_of_mem_toDigits, List.singleton_append,
      List.takeWhile_cons_of_neg (by decide), List.append_nil]
  simp only [place?, hdigits, Nat.ofDigitChars_ten_toDigits]
  exact if_pos (List.prefix_append _ t)

theorem place?_eq_some_iff : place? t = some i ↔ hole i <+: t := by
  constructor
  · intro h
    simp only [place?] at h
    split at h
    · next hfront => exact Option.some.inj h ▸ hfront
    · cases h
  · rintro ⟨t, rfl⟩
    exact place?_hole_append i t

theorem place?_eq_none (h : ∀ piece, (∃ i, piece = hole i) → ¬ piece <+: t) : place? t = none := by
  cases hplace : place? t with
  | none => rfl
  | some i => exact absurd (place?_eq_some_iff.mp hplace) (h _ ⟨i, rfl⟩)

/-- A template is built up from behind out of places and single characters. -/
theorem induction_on_places {motive : Text → Prop} (nil : motive [])
    (place : ∀ i t, motive t → motive (hole i ++ t))
    (char : ∀ c t, place? (c :: t) = none → motive t → motive (c :: t)) (t : Text) : motive t :=
  induction_on_pieces (P := fun piece => ∃ i, piece = hole i)
    (by rintro _ ⟨i, rfl⟩; exact (liesApart_hole i).ne_nil)
    nil
    (by rintro _ t ⟨i, rfl⟩ ht; exact place i t ht)
    (fun c t hnone ht => char c t (place?_eq_none hnone) ht) t

theorem occurrences_hole_append_of_ne (h : i ≠ n) (t : Text) :
    occurrences (hole n) (hole i ++ t) = occurrences (hole n) t := by
  have hnone : ¬ hole n <+: hole i ++ t := fun hfront =>
    h (Option.some.inj ((place?_hole_append i t).symm.trans (place?_eq_some_iff.mpr hfront)))
  rw [hole_eq i, List.cons_append] at hnone ⊢
  rw [occurrences, if_neg hnone, Nat.add_zero]
  exact occurrences_append_of_not_mem (not_mem_tail_hole i) _ t

theorem occurrences_hole_cons (h : place? (c :: t) = none) :
    occurrences (hole n) (c :: t) = occurrences (hole n) t := by
  have hnone : ¬ hole n <+: c :: t := fun hfront => by
    rw [place?_eq_some_iff.mpr hfront] at h
    cases h
  rw [occurrences, if_neg hnone, Nat.add_zero]

/-! ### Arguments at their places -/

@[simp] theorem substitute_text_nil (args : List Text) : substitute args [] = [] := by rw [substitute]

theorem substitute_hole_append (args : List Text) (i : Nat) (t : Text) :
    substitute args (hole i ++ t) = args.getD i (hole i) ++ substitute args t := by
  have hplace := place?_hole_append i t
  rw [hole_eq, List.cons_append] at hplace ⊢
  rw [substitute, hplace]
  simp [hole_eq]

theorem substitute_cons (h : place? (c :: t) = none) : substitute args (c :: t) = c :: substitute args t := by
  rw [substitute, h]

/-- Without arguments a template stands for itself. -/
@[simp] theorem substitute_nil (template : Text) : substitute [] template = template := by
  induction template using induction_on_places with
  | nil => exact substitute_text_nil []
  | place i t ih => rw [substitute_hole_append, List.getD_nil, ih]
  | char c t hnone ih => rw [substitute_cons hnone, ih]

theorem getD_append_singleton_of_ne (h : i ≠ args.length) (a default : Text) :
    (args ++ [a]).getD i default = args.getD i default := by
  rcases Nat.lt_or_gt_of_ne h with hlt | hgt
  · exact List.getD_append args [a] default i hlt
  · have hbehind : args.length ≤ i := Nat.le_of_lt hgt
    rw [List.getD_append_right args [a] default i hbehind, List.getD_eq_default args default hbehind]
    exact List.getD_eq_default [a] default (Nat.le_sub_of_add_le' hgt)

/-- With one more argument, the text changes at the places of the template that have its number. -/
theorem exchanged_substitute (args : List Text) (a template : Text) :
    Exchanged (hole args.length) a (occurrences (hole args.length) template) (substitute args template)
      (substitute (args ++ [a]) template) := by
  induction template using induction_on_places with
  | nil => rw [substitute_text_nil, substitute_text_nil]; exact .none []
  | place i t ih =>
      rw [substitute_hole_append, substitute_hole_append]
      by_cases hi : i = args.length
      · subst hi
        rw [(liesApart_hole _).occurrences_piece_append, List.getD_eq_default _ _ (Nat.le_refl _),
          List.getD_append_right _ _ _ _ (Nat.le_refl _), Nat.sub_self, List.getD_cons_zero]
        exact ih.piece_append
      · rw [occurrences_hole_append_of_ne hi, getD_append_singleton_of_ne hi]
        exact ih.prepend _
  | char c t hnone ih =>
      rw [occurrences_hole_cons hnone, substitute_cons hnone, substitute_cons hnone]
      exact ih.prepend [c]

/-! ### One argument after another -/

theorem fillFrom_append_singleton (i : Nat) (template : Text) (args : List Text) (a : Text) :
    fillFrom i template (args ++ [a]) = (fillFrom i template args).replaceAll (hole (i + args.length)) a := by
  induction args generalizing i template with
  | nil => rfl
  | cons b args ih =>
      rw [List.cons_append, fillFrom, ih, fillFrom, List.length_cons, Nat.add_right_comm, Nat.add_assoc]

theorem fill_append_singleton (template : Text) (args : List Text) (a : Text) :
    fill template (args ++ [a]) = (fill template args).replaceAll (hole args.length) a := by
  rw [fill, fillFrom_append_singleton, Nat.zero_add, fill]

/-- Whether the arguments at their places make no place `n`, by what they say or by what stands around them, that is
none of the template's. -/
def MakesNoPlace (template : Text) (args : List Text) (n : Nat) : Prop :=
  occurrences (hole n) (substitute args template) = occurrences (hole n) template

/-- Putting in one more argument. -/
theorem fill_append_singleton_eq_iff (h : fill template args = substitute args template) :
    fill template (args ++ [a]) = substitute (args ++ [a]) template ↔
      a = hole args.length ∨ MakesNoPlace template args args.length := by
  rw [fill_append_singleton, h]
  exact (exchanged_substitute args a template).replaceAll_eq_iff (liesApart_hole _)

/-- A single argument stands at its places as it is, whatever it says. -/
theorem fill_singleton (template a : Text) : fill template [a] = substitute [a] template := by
  have hempty : fill template [] = substitute [] template := (substitute_nil template).symm
  have hplaces : MakesNoPlace template [] 0 := by rw [MakesNoPlace, substitute_nil]
  exact (fill_append_singleton_eq_iff hempty).mpr (.inr hplaces)

/-- If no argument makes a place for a later one, all stand at their places as they are, as far as they are put in. -/
theorem fill_take_eq_substitute
    (h : ∀ n a, args[n]? = some a → a = hole n ∨ MakesNoPlace template (args.take n) n) (n : Nat) :
    fill template (args.take n) = substitute (args.take n) template := by
  induction n with
  | zero => rw [List.take_zero, fill_nil, substitute_nil]
  | succ n ih =>
      by_cases hn : n < args.length
      · have hlength := List.length_take_of_le (Nat.le_of_lt hn)
        rw [List.take_succ_eq_append_getElem hn, fill_append_singleton_eq_iff ih, hlength]
        exact h n _ (List.getElem?_eq_getElem hn)
      · rw [List.take_of_length_le (by omega)] at ih ⊢
        exact ih

/-- Filling keeps all arguments as they are, as far as they are put in, if and only if for each of them the ones before
it make no place of its number; or it is that place itself, so that it does not matter. -/
theorem fill_eq_substitute_iff (template : Text) (args : List Text) :
    (∀ n, fill template (args.take n) = substitute (args.take n) template) ↔
      ∀ n a, args[n]? = some a → a = hole n ∨ MakesNoPlace template (args.take n) n := by
  refine ⟨fun h n a ha => ?_, fill_take_eq_substitute⟩
  obtain ⟨hn, rfl⟩ := List.getElem?_eq_some_iff.mp ha
  have hnext := h (n + 1)
  rw [List.take_succ_eq_append_getElem hn, fill_append_singleton_eq_iff (h n),
    List.length_take_of_le (Nat.le_of_lt hn)] at hnext
  exact hnext

/-- An argument that looks like a place is filled with the next one, and so is one that becomes a place by the braces
around it. -/
theorem fill_place_as_argument :
    (fill (hole 0) [hole 1, ['x']] = ['x'] ∧ substitute [hole 1, ['x']] (hole 0) = ['\x7b', '1', '\x7d']) ∧
      fill ('\x7b' :: hole 0 ++ ['\x7d']) [['1'], ['x']] = ['x'] ∧
      substitute [['1'], ['x']] ('\x7b' :: hole 0 ++ ['\x7d']) = ['\x7b', '1', '\x7d'] := by
  refine ⟨⟨?_, ?_⟩, ?_, ?_⟩ <;> cbv

/-! ### Arguments that make no places -/

/-- Whether the argument can be no part of a place: it has no brace, and is not a number or empty. -/
def StandsApart (a : Text) : Prop := '\x7b' ∉ a ∧ '\x7d' ∉ a ∧ ∃ c ∈ a, isDigit c = false

/-- A number and a closing brace do not stand in front of a text whose first character that is no digit is another. -/
theorem not_closing_isFront {digits u : Text} (hdigits : ∀ c ∈ digits, isDigit c = true) (hmem : c ∈ u)
    (hc : isDigit c = false) (hbrace : '\x7d' ∉ u) (v : Text) : ¬ digits ++ ['\x7d'] <+: u ++ v := by
  intro hfront
  rcases List.prefix_or_prefix_of_prefix hfront (List.prefix_append u v) with hshort | hlong
  · exact hbrace (hshort.mem (List.mem_append_right digits List.mem_cons_self))
  · rcases List.mem_append.mp (hlong.mem hmem) with hdigit | hlast
    · rw [hdigits c hdigit] at hc
      cases hc
    · exact hbrace (List.mem_singleton.mp hlast ▸ hmem)

/-- A number and a closing brace in front of the filled text stand in front of the template. -/
theorem closing_isFront {digits : Text} (hargs : ∀ a ∈ args, StandsApart a) (hdigits : ∀ c ∈ digits, isDigit c = true)
    (h : digits ++ ['\x7d'] <+: substitute args t) : digits ++ ['\x7d'] <+: t := by
  induction t using induction_on_places generalizing digits with
  | nil => rwa [substitute_text_nil] at h
  | place i t ih =>
      exfalso
      rw [substitute_hole_append] at h
      by_cases hi : i < args.length
      · obtain ⟨-, hbrace, c, hmem, hc⟩ := hargs _ (List.getElem_mem hi)
        rw [List.getD_eq_getElem _ _ hi] at h
        exact not_closing_isFront hdigits hmem hc hbrace _ h
      · rw [List.getD_eq_default _ _ (Nat.le_of_not_lt hi), hole_eq, List.cons_append] at h
        exact not_closing_isFront (u := ['\x7b']) hdigits List.mem_cons_self (by decide) (by decide) _ h
  | char c t hnone ih =>
      rw [substitute_cons hnone] at h
      cases digits with
      | nil => exact List.cons_prefix_cons.mpr ⟨(List.cons_prefix_cons.mp h).1, List.nil_prefix⟩
      | cons d digits =>
          obtain ⟨hd, hrest⟩ := List.cons_prefix_cons.mp h
          exact List.cons_prefix_cons.mpr ⟨hd, ih (fun c hc => hdigits c (List.mem_cons_of_mem d hc)) hrest⟩

theorem makesNoPlace_of_standsApart (hargs : ∀ a ∈ args, StandsApart a) (hn : args.length ≤ n) (template : Text) :
    MakesNoPlace template args n := by
  induction template using induction_on_places with
  | nil => rw [MakesNoPlace, substitute_text_nil]
  | place i t ih =>
      rw [MakesNoPlace, substitute_hole_append]
      by_cases hi : i < args.length
      · have hne : i ≠ n := Nat.ne_of_lt (Nat.lt_of_lt_of_le hi hn)
        rw [List.getD_eq_getElem _ _ hi, occurrences_hole_append_of_ne hne]
        exact (occurrences_append_of_not_mem (hargs _ (List.getElem_mem hi)).1 _ _).trans ih
      · rw [List.getD_eq_default _ _ (Nat.le_of_not_lt hi)]
        by_cases hne : i = n
        · rw [hne, (liesApart_hole n).occurrences_piece_append, (liesApart_hole n).occurrences_piece_append, ih]
        · rw [occurrences_hole_append_of_ne hne, occurrences_hole_append_of_ne hne, ih]
  | char c t hnone ih =>
      have hnone' : ¬ hole n <+: c :: substitute args t := fun hfront => by
        obtain ⟨hc, hrest⟩ := List.cons_prefix_cons.mp hfront
        have hdigits : ∀ c ∈ Nat.toDigits 10 n, isDigit c = true := fun _ => Check.isDigit_of_mem_toDigits
        have hplace : hole n <+: c :: t := List.cons_prefix_cons.mpr ⟨hc, closing_isFront hargs hdigits hrest⟩
        rw [place?_eq_some_iff.mpr hplace] at hnone
        cases hnone
      rw [MakesNoPlace, substitute_cons hnone, occurrences, if_neg hnone', occurrences_hole_cons hnone]
      exact ih

/-- Words and symbols stand at their places as they are, however many there are. -/
theorem fill_eq_substitute_of_standsApart (hargs : ∀ a ∈ args, StandsApart a) (template : Text) :
    fill template args = substitute args template := by
  have hmakes : ∀ n a, args[n]? = some a → a = hole n ∨ MakesNoPlace template (args.take n) n := fun n a _ =>
    .inr <| makesNoPlace_of_standsApart (fun b hb => hargs b (List.mem_of_mem_take hb)) (List.length_take_le n args)
      template
  have hall := fill_take_eq_substitute hmakes args.length
  rwa [List.take_length] at hall

end LosslessSyntax.Template
