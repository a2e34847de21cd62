import LosslessSyntax.Parse.Program
import LosslessSyntax.Proofs.Token.Cover
import LosslessSyntax.Proofs.Token.LineBreak

/-! Positions against the text. The scanner carries a position from token to token, and sees of a line break only
what stands in one token. So tokens stand at the places that the text gives them as long as no line break comes
apart between two tokens. One does come apart where a string takes the carriage return of a pair along behind a
backslash: then the pair counts as two line breaks. -/

namespace LosslessSyntax

namespace Token

/-- Whether `u` stands where `t` ends. -/
def IsBehind (u t : Token) : Prop := u.offset = t.stop ∧ u.position = t.position.advance t.text

/-- Whether a line break begins in `t` and ends in `u`. -/
def SplitsLineBreak (t u : Token) : Prop := Text.SplitsLineBreak t.text u.text

instance (t u : Token) : Decidable (t.SplitsLineBreak u) := inferInstanceAs (Decidable (_ ∧ _))

theorem head?_restore {ts : List Token} (hne : ∀ t ∈ ts, t.text ≠ []) :
    (restore ts).head? = ts.head?.bind fun t => t.text.head? := by
  cases ts with
  | nil => rfl
  | cons t ts =>
      obtain ⟨c, text, htext⟩ := List.exists_cons_of_ne_nil (hne t List.mem_cons_self)
      simp [htext]

end Token

namespace Scanner

theorem place_scan {s : Scanner} {c : Char} {t : Text} (h : s.rest = c :: t) :
    s.scan.offset.toUInt32 = s.scan.token.stop ∧
      s.scan.position = s.scan.token.position.advance s.scan.token.text := by
  simp only [scan, h, and_true]
  exact UInt32.ofNat_add _ _

/-- Every token of a scan stands behind the one before, the end of input behind the last. -/
theorem isChain_finish (s : Scanner) :
    (∀ t ∈ (s.finish.1 ++ [s.finish.2.token]).head?, t.offset = s.offset.toUInt32 ∧ t.position = s.position) ∧
      (s.finish.1 ++ [s.finish.2.token]).IsChain fun t u => u.IsBehind t := by
  fun_induction finish s with
  | case1 s h =>
      refine ⟨fun t ht => ?_, .singleton _⟩
      cases ht
      simp only [scan, h, and_self]
  | case2 s c t h _ ts last heq ih =>
      rw [heq] at ih
      refine ⟨fun u hu => ?_, List.isChain_cons.mpr ⟨fun u hu => ?_, ih.2⟩⟩
      · cases hu
        simp only [scan, h, and_self]
      · obtain ⟨hoffset, hposition⟩ := place_scan h
        exact ⟨(ih.1 u hu).1.trans hoffset, (ih.1 u hu).2.trans hposition⟩

end Scanner

namespace Token

/-- A line break comes apart behind a token if the text of all tokens behind it goes on with the second half. -/
theorem splitsLineBreak_head?_iff {t : Token} {ts : List Token} (hne : ∀ u ∈ ts, u.text ≠ []) :
    (∀ u ∈ ts.head?, ¬ t.SplitsLineBreak u) ↔ ¬ Text.SplitsLineBreak t.text (restore ts) := by
  rw [Text.SplitsLineBreak, head?_restore hne]
  cases ts with
  | nil => simp
  | cons u us => simp [SplitsLineBreak, Text.SplitsLineBreak]

/-- Tokens that stand behind one another stand at the places of the text if the first does and no line break
comes apart between them, and only then. -/
theorem positions_iff_of_isChain {text : Text} {ts : List Token} {last : Token} (front : Text)
    (haddressable : text.IsAddressable) (htext : front ++ restore ts = text) (hne : ∀ t ∈ ts, t.text ≠ [])
    (hfirst : ∀ t ∈ (ts ++ [last]).head?, t.offset = front.byteLength.toUInt32 ∧
      t.position.HasRoom (restore ts).byteLength ∧ t.position.place = text.placeOf front.length)
    (hchain : (ts ++ [last]).IsChain fun t u => u.IsBehind t) :
    (∀ t ∈ ts ++ [last], text.placeAt? t.offset = some t.position.place) ↔
      ts.IsChain fun t u => ¬ t.SplitsLineBreak u := by
  have hoffset : front.byteLength.toUInt32.toNat = front.byteLength := (htext ▸ haddressable).toNat_byteLength
  induction ts generalizing front with
  | nil =>
      obtain ⟨hstart, -, hplace⟩ := hfirst last rfl
      have hlast : text.placeAt? last.offset = some last.position.place := by
        rw [hstart, hoffset, hplace, ← htext]
        exact Text.placeAt?_byteLength front []
      simp [hlast]
  | cons t ts ih =>
      rw [List.cons_append, List.isChain_cons] at hchain
      obtain ⟨hnext, hchain⟩ := hchain
      obtain ⟨hstart, hroom, hplace⟩ := hfirst t rfl
      obtain ⟨hne, hnes⟩ := List.forall_mem_cons.mp hne
      have htext' : front ++ t.text ++ restore ts = text := by rw [← htext, List.append_assoc, restore_cons]
      have hthis : text.placeAt? t.offset = some t.position.place := by
        rw [hstart, hoffset, hplace, ← htext]
        exact Text.placeAt?_byteLength front _
      rw [List.cons_append, List.forall_mem_cons, List.isChain_cons, splitsLineBreak_head?_iff hnes,
        and_iff_right hthis]
      rw [restore_cons, Text.byteLength_append] at hroom
      have hmoved : ∀ u ∈ (ts ++ [last]).head?, u.offset = (front ++ t.text).byteLength.toUInt32 ∧
          u.position = t.position.advance t.text := fun u hu => by
        obtain ⟨hstop, hadvance⟩ := hnext u hu
        refine ⟨?_, hadvance⟩
        rw [hstop, stop, hstart, Text.byteLength_append]
        exact (UInt32.ofNat_add _ _).symm
      have hoffset' : (front ++ t.text).byteLength.toUInt32.toNat = (front ++ t.text).byteLength :=
        (htext' ▸ haddressable).toNat_byteLength
      have hwhole := Position.place_advance_eq_iff (hroom.mono (Nat.le_add_right _ _)) (htext' ▸ hplace)
      rw [htext'] at hwhole
      by_cases hsplit : Text.SplitsLineBreak t.text (restore ts)
      · refine iff_of_false (fun hplaces => ?_) fun hkept => hkept.1 hsplit
        obtain ⟨u, hu⟩ : ∃ u, u ∈ (ts ++ [last]).head? := ⟨_, List.head_mem_head? (by simp)⟩
        obtain ⟨hstop, hadvance⟩ := hmoved u hu
        have hbehind := hplaces u (List.mem_of_mem_head? hu)
        rw [hstop, hoffset', hadvance, ← htext', Text.placeAt?_byteLength, htext', Option.some.injEq] at hbehind
        exact hwhole.mp hbehind.symm hsplit
      · rw [and_iff_right hsplit]
        refine ih (front ++ t.text) htext' hnes (fun u hu => ?_) hchain hoffset'
        obtain ⟨hstop, hadvance⟩ := hmoved u hu
        exact ⟨hstop, hadvance ▸ hroom.advance, hadvance ▸ hwhole.mpr hsplit⟩

namespace Cut

variable {text : Text} {offset : Nat} {position : Position} {ts : List Token}

/-- What is cut off first begins as the text does. -/
theorem head?_text (h : Cut text offset position ts) {t : Token} (ht : t ∈ ts.head?) :
    t.text.head? = text.head? := by
  cases h with
  | nil => cases ht
  | @cons c u r _ _ ts hread hrest =>
      cases ht
      have happend := Reading.text_append_rest_read c u
      obtain ⟨d, body, hbody⟩ := List.exists_cons_of_ne_nil (Reading.text_read_ne_nil c u)
      rw [hread] at happend hbody
      rw [← happend, ofReading, hbody]
      rfl

/-- Where a line break comes apart, a string ends that lacks its end mark, behind a backslash and the first half. -/
theorem isChain_splitsLineBreak (h : Cut text offset position ts) :
    ts.IsChain fun t u => t.SplitsLineBreak u →
      t.kind = .string ∧ t.isUnterminated = true ∧ ∃ front, t.text = front ++ ['\\', '\r'] := by
  induction h with
  | nil => exact .nil
  | @cons c rest r offset position ts hread hrest ih =>
      refine List.isChain_cons.mpr ⟨fun u hu hsplit => ?_, ih⟩
      have hsplit : Text.SplitsLineBreak r.text r.rest := ⟨hsplit.1, (hrest.head?_text hu).symm.trans hsplit.2⟩
      rw [← hread] at hsplit ⊢
      exact Reading.eq_string_of_splitsLineBreak hsplit

end Cut

end Token

/-- The tokens of a source and the end of input stand at the places that the source gives them if no line break
comes apart between two tokens, and only then, as long as lines and columns fit a word. One comes apart only behind
a string that lacks its end mark and ends in a backslash and a carriage return. -/
theorem Parser.positions_ofSource_iff (source : Text) (limit : Nat) :
    (source.byteLength + 1 < UInt32.size →
      (((∀ t ∈ tokenize source, source.placeAt? t.offset = some t.position.place) ∧
        source.placeAt? source.byteLength = some (ofSource source limit).cursor.last.position.place) ↔
          (tokenize source).IsChain fun t u => ¬ t.SplitsLineBreak u)) ∧
    (tokenize source).IsChain fun t u => t.SplitsLineBreak u →
      t.kind = .string ∧ t.isUnterminated = true ∧ ∃ front, t.text = front ++ ['\\', '\r'] := by
  have hcut := cut_tokenize source
  refine ⟨fun hbytes => ?_, hcut.isChain_splitsLineBreak⟩
  have haddressable : source.IsAddressable := Nat.lt_of_succ_lt hbytes
  have hoffset : (Scanner.ofText source).finish.2.token.offset.toNat = source.byteLength := by
    rw [Scanner.offset_token_finish]
    exact (congrArg _ (congrArg _ (Nat.zero_add _))).trans (toNat_toUInt32 haddressable)
  obtain ⟨hfirst, hchain⟩ := (Scanner.ofText source).isChain_finish
  have hroom : Position.start.HasRoom (Token.restore (tokenize source)).byteLength := by
    rw [restore_tokenize]
    exact Position.hasRoom_start hbytes
  have hplaces := Token.positions_iff_of_isChain [] haddressable (restore_tokenize source)
    (fun t ht => hcut.text_ne_nil ht)
    (fun t ht => ⟨(hfirst t ht).1, (hfirst t ht).2 ▸ hroom, (hfirst t ht).2 ▸ rfl⟩) hchain
  rw [← hplaces, List.forall_mem_append, List.forall_mem_singleton, hoffset]
  rfl

/-- Two tokens with a line break between them. -/
theorem positions_of_twoLines :
    let source : Text := ['a', '\n', 'b']
    source.byteLength + 1 < UInt32.size ∧
      (∀ t ∈ tokenize source, source.placeAt? t.offset = some t.position.place) ∧
      source.placeAt? source.byteLength = some (Parser.ofSource source 1).cursor.last.position.place := by
  intro source
  have hbytes : source.byteLength + 1 < UInt32.size := by decide
  exact ⟨hbytes, ((Parser.positions_ofSource_iff source 1).1 hbytes).mpr (by decide +kernel)⟩

/-- A string with a backslash in front of the line break: the token behind it is taken to be on the next line, and
all that follow are one line further down than they are. -/
theorem positions_of_escaped_lineBreak :
    let source : Text := ['"', '\\', '\r', '\n', 'b']
    (tokenize source).map Token.position = [⟨1, 1⟩, ⟨2, 1⟩, ⟨3, 1⟩] ∧
      (tokenize source).map (source.placeAt? ·.offset) = [some ⟨1, 1⟩, some ⟨1, 4⟩, some ⟨2, 1⟩] := by
  decide +kernel

end LosslessSyntax
