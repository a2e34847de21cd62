import Mathlib.Data.List.Chain
import LosslessSyntax.Proofs.Text.PositionOrder
import LosslessSyntax.Proofs.Text.Slice
import LosslessSyntax.Proofs.Token.Cut

/-! The tokens of a source cover it: their texts are slices of it that touch each other, from its first byte
to its last, and their positions only ever grow. Offsets, lines and columns are words, so of a source that is not
addressable they tell less: behind 4 GiB of blanks they begin again. -/

namespace LosslessSyntax

namespace Token.Cut

variable {text : Text} {offset : Nat} {position : Position} {ts : List Token}

/-- A token of an addressable text is a slice of it. -/
theorem slice?_span (h : Cut text 0 position ts) (htext : text.IsAddressable) {t : Token} (ht : t ∈ ts) :
    text.slice? t.span = some t.text := by
  obtain ⟨front, back, rfl⟩ := List.append_of_mem ht
  have hsplit : text = restore front ++ t.text ++ restore back := by
    rw [← h.restore_eq, restore_append, restore_cons, List.append_assoc]
  have hstop : t.stop = (restore front ++ t.text).byteLength.toUInt32 := by
    rw [Token.stop, Token.length, h.offset_eq, Nat.zero_add, Text.byteLength_append]
    exact (UInt32.ofNat_add ..).symm
  refine Text.slice?_eq_some_iff.mpr ⟨restore front, restore back, hsplit, (h.toNat_offset htext).symm, ?_⟩
  refine Eq.symm ((congrArg UInt32.toNat hstop).trans ?_)
  exact (hsplit ▸ htext).toNat_byteLength

/-- The first token stands where the text begins. -/
theorem place_of_mem_head? (h : Cut text offset position ts) {t : Token} (ht : t ∈ ts.head?) :
    t.offset = offset ∧ t.position = position := by
  cases h with
  | nil => cases ht
  | cons => cases ht; exact ⟨rfl, rfl⟩

/-- What holds between a token read and whatever stands right behind it holds of all neighbours. -/
theorem isChain {R : Token → Token → Prop} (h : Cut text offset position ts)
    (hR : ∀ c rest place start, ∀ u : Token,
      let t := ofReading (Reading.read c rest) place start
      u.offset = t.stop → u.position = t.position.advance t.text → R t u) :
    ts.IsChain R := by
  induction h with
  | nil => exact .nil
  | @cons c u r offset position ts hread hrest ih =>
      cases hts : ts with
      | nil => exact .singleton _
      | cons v vs =>
          obtain ⟨hoffset, hposition⟩ := hrest.place_of_mem_head? (t := v) (by rw [hts]; rfl)
          rw [hts] at ih
          rw [← hread] at hoffset hposition ⊢
          exact .cons_cons (hR c u position offset v (hoffset.trans (UInt32.ofNat_add ..)) hposition) ih

/-- Every token begins where the one before it ends. -/
theorem isChain_stop (h : Cut text offset position ts) : ts.IsChain fun t u => u.offset = t.stop :=
  h.isChain fun _ _ _ _ _ hoffset _ => hoffset

theorem isChain_offset (h : Cut text 0 position ts) (htext : text.IsAddressable) :
    ts.IsChain fun t u => u.offset.toNat = t.offset.toNat + t.text.byteLength := by
  refine List.isChain_iff_forall_rel_of_append_cons_cons.mpr fun t u front back hts => ?_
  subst hts
  have hmoved : front ++ t :: u :: back = (front ++ [t]) ++ u :: back := (List.append_assoc front [t] _).symm
  have hnext := h
  rw [hmoved] at hnext
  rw [hnext.toNat_offset htext, h.toNat_offset htext, restore_append, restore_cons, restore_nil, List.append_nil,
    Text.byteLength_append]

/-- As long as there is room for the text, positions grow from token to token. -/
theorem pairwise_position (h : Cut text offset position ts) (hroom : ∀ n < text.byteLength, position.HasRoom n) :
    ts.Pairwise fun t u => t.position < u.position := by
  have hchain : (ts.map Token.position).IsChain (· < ·) := by
    rw [List.isChain_map]
    induction h with
    | nil => exact .nil
    | @cons c u r offset position ts hread hrest ih =>
        have hlength : Text.byteLength (c :: u) = r.text.byteLength + r.rest.byteLength := by
          rw [← Reading.text_append_rest_read c u, hread, Text.byteLength_append]
        have hnext := ih fun n hn => Position.HasRoom.advance (hroom _ (by omega))
        cases hts : ts with
        | nil => exact .singleton _
        | cons v vs =>
            obtain ⟨-, hposition⟩ := hrest.place_of_mem_head? (t := v) (by rw [hts]; rfl)
            rw [hts] at hrest hnext
            have hpos : 0 < r.rest.byteLength := by
              refine Nat.pos_of_ne_zero fun hzero => ?_
              rw [Text.byteLength_eq_zero_iff] at hzero
              rw [hzero] at hrest
              cases hrest
            refine .cons_cons ?_ hnext
            rw [hposition]
            exact Position.lt_advance (hroom _ (by omega)) (hread ▸ Reading.text_read_ne_nil c u)
  exact List.pairwise_map.mp hchain.pairwise

theorem isChain_column (h : Cut text offset position ts) :
    ts.IsChain fun t u => t.kind = .lineBreak → u.position.column = 1 :=
  h.isChain fun c rest place start u _ hu hkind => by
    rw [hu]
    exact (Reading.reads_read c rest).column_advance_of_lineBreak hkind _

end Token.Cut

/-- The tokens of a source join to it without gaps or overlaps: none is empty, the first stands at the start and
every other one where the one before it ends, in the first column if that is a line break. As long as the source is
addressable, their offsets count its bytes, each of them is a piece of it between boundaries of characters, its bytes
are those that its span tells, and positions grow from token to token. -/
theorem tokenize_covers (source : Text) :
    Token.restore (tokenize source) = source ∧
      (∀ t ∈ (tokenize source).head?, t.offset = 0) ∧
      (∀ t ∈ tokenize source, t.text ≠ []) ∧
      ((tokenize source).IsChain fun t u => u.offset = t.stop) ∧
      ((tokenize source).IsChain fun t u => t.kind = .lineBreak → u.position.column = 1) ∧
      (source.IsAddressable →
        ((tokenize source).IsChain fun t u => u.offset.toNat = t.offset.toNat + t.text.byteLength) ∧
        (∀ t ∈ tokenize source, source.slice? t.span = some t.text ∧
          source.utf8Encode.extract t.offset.toNat t.stop.toNat = t.text.utf8Encode) ∧
        (tokenize source).Pairwise fun t u => t.position < u.position) := by
  have hcut := cut_tokenize source
  refine ⟨restore_tokenize source, fun t ht => (hcut.place_of_mem_head? ht).1, fun t => hcut.text_ne_nil,
    hcut.isChain_stop, hcut.isChain_column, fun htext => ⟨hcut.isChain_offset htext, fun t ht => ?_, ?_⟩⟩
  · have hslice := hcut.slice?_span htext ht
    have hbytes := Text.extract_utf8Encode_of_slice? hslice
    rw [Token.start_span, Token.stop_span] at hbytes
    exact ⟨hslice, hbytes⟩
  · have hlength : source.byteLength < UInt32.size := htext
    exact hcut.pairwise_position fun n hn => Position.hasRoom_start (by omega)

/-- The tokens of a source of two lines, one character of which takes two bytes. -/
theorem tokenize_covers_twoLines :
    let source := ['é', '\r', '\n', ' ', 'x']
    Text.IsAddressable source ∧ (tokenize source).Pairwise fun t u => t.position < u.position := by
  have haddress : Text.IsAddressable ['é', '\r', '\n', ' ', 'x'] := by decide
  exact ⟨haddress, ((tokenize_covers _).2.2.2.2.2 haddress).2.2⟩

/-! ### Beyond the last address -/

/-- Blanks, and behind them a sign with which no token starts. Their number is one more than `n`. -/
def Text.signBehindBlanks (n : Nat) : Text := List.replicate (n + 1) ' ' ++ ['@']

theorem Position.advance_replicate_blank (p : Position) (n : Nat) :
    p.advance (List.replicate n ' ') = ⟨p.line, p.column + n.toUInt32⟩ := by
  induction n generalizing p with
  | zero => simp
  | succ n ih =>
      rw [List.replicate_succ, advance, if_neg (by simp), if_neg (by decide), ih, UInt32.add_assoc]
      change _ = Position.mk p.line (p.column + UInt32.ofNat (n + 1))
      rw [UInt32.ofNat_add, UInt32.add_comm (UInt32.ofNat n)]
      rfl

theorem Reading.read_blanks (n : Nat) :
    read ' ' (List.replicate n ' ' ++ ['@']) = ⟨.blank, List.replicate (n + 1) ' ', ['@'], {}, []⟩ := by
  have hblank : ∀ c ∈ List.replicate n ' ', isBlank c = true := fun c hc => by
    rw [List.eq_of_mem_replicate hc]
    rfl
  have hrun : run isBlank (List.replicate n ' ' ++ ['@']) = (List.replicate n ' ', ['@']) := by
    rw [run, List.takeWhile_append_of_pos hblank, List.dropWhile_append_of_pos hblank]
    simp [isBlank]
  change blanks ' ' _ = _
  rw [blanks, hrun, List.replicate_succ]

theorem Text.byteLength_replicate_blank (n : Nat) : byteLength (List.replicate n ' ') = n := by
  induction n with
  | zero => rfl
  | succ n ih =>
      rw [List.replicate_succ, byteLength_cons, ih, Nat.add_comm]
      rfl

theorem tokenize_signBehindBlanks (n : Nat) : tokenize (Text.signBehindBlanks n) =
    [⟨.blank, List.replicate (n + 1) ' ', .start, 0, {}⟩,
      ⟨.unknown, ['@'], ⟨1, 1 + (n + 1).toUInt32⟩, (n + 1).toUInt32, {}⟩] := by
  have hsign : Token.Cut ['@'] (n + 1) ⟨1, 1 + (n + 1).toUInt32⟩
      [⟨.unknown, ['@'], ⟨1, 1 + (n + 1).toUInt32⟩, (n + 1).toUInt32, {}⟩] :=
    .cons (r := Reading.unknown '@' []) (by decide +kernel) (.nil _ _)
  refine tokenize_eq_of_cut (.cons (Reading.read_blanks n) ?_)
  rw [Text.byteLength_replicate_blank, Position.advance_replicate_blank, Nat.zero_add]
  exact hsign

/-- Behind as many blanks as there are words, the sign has the offset and the column of the first blank. -/
theorem tokenize_signBehindBlanks_of_word {n : Nat} (h : (n + 1).toUInt32 = 0) :
    tokenize (Text.signBehindBlanks n) =
      [⟨.blank, List.replicate (n + 1) ' ', .start, 0, {}⟩, ⟨.unknown, ['@'], .start, 0, {}⟩] := by
  rw [tokenize_signBehindBlanks, h]
  rfl

/-- The offsets of such a source do not count its bytes, and its positions do not grow. -/
theorem not_covers_signBehindBlanks {n : Nat} (h : (n + 1).toUInt32 = 0) :
    ¬(tokenize (Text.signBehindBlanks n)).IsChain (fun t u => u.offset.toNat = t.offset.toNat + t.text.byteLength) ∧
      ¬(tokenize (Text.signBehindBlanks n)).Pairwise fun t u => t.position < u.position := by
  rw [tokenize_signBehindBlanks_of_word h]
  refine ⟨fun hchain => ?_, fun hpositions => ?_⟩
  · have hoffset := (List.isChain_cons_cons.mp hchain).1
    rw [Text.byteLength_replicate_blank] at hoffset
    cases hoffset
  · have hposition : Position.start < Position.start :=
      (List.pairwise_cons.mp hpositions).1 _ (List.mem_singleton_self _)
    rw [Position.lt_iff] at hposition
    exact absurd hposition (by decide)

/-- With 4 GiB of blanks there are as many. -/
theorem exists_word_eq_zero : ∃ n : Nat, (n + 1).toUInt32 = 0 := ⟨UInt32.size - 1, by decide⟩

end LosslessSyntax
