import LosslessSyntax.Proofs.Token.ByteSearch
import LosslessSyntax.Proofs.Token.Longest

/-! Where comments end. A comment behind two slashes ends in front of the first character that ends the line, and one
with an end mark behind the first mark that follows the opening one; both go on to the end of the source if there is
none. The search for these ends in the bytes of the source, whatever characters stand there, tells the same. -/

namespace LosslessSyntax

namespace Text

/-- Whether the text begins with a line break. -/
def BeginsLineBreak (t : Text) : Prop := t.head?.any isLineBreak = true

/-- Whether the text begins with the end mark of a comment. -/
def BeginsEndMark (t : Text) : Prop := ['*', '/'] <+: t

theorem breaksLine_drop_iff {t : Text} {n : Nat} :
    ByteSearch.BreaksLine (t.bytes.drop n) ↔
      ∃ front back, front ++ back = t ∧ front.byteLength = n ∧ back.BeginsLineBreak := by
  constructor
  · rintro ⟨c, hc, hfront⟩
    have hchar : bytes [c] <+: t.bytes.drop n := by rwa [bytes_cons, bytes_nil, List.append_nil]
    obtain ⟨front, back, hsplit, hlength, u, rfl⟩ := (bytes_prefix_drop_iff (List.cons_ne_nil c [])).mp hchar
    exact ⟨front, _, hsplit, hlength, hc⟩
  · rintro ⟨front, back, hsplit, hlength, hbreak⟩
    cases back with
    | nil => cases hbreak
    | cons c back =>
        have hchar := (bytes_prefix_drop_iff (p := [c]) (List.cons_ne_nil c [])).mpr
          ⟨front, c :: back, hsplit, hlength, List.prefix_append [c] back⟩
        rw [bytes_cons, bytes_nil, List.append_nil] at hchar
        exact ⟨c, hbreak, hchar⟩

theorem endMark_drop_iff {t : Text} {n : Nat} :
    [0x2a, 0x2f] <+: t.bytes.drop n ↔
      ∃ front back, front ++ back = t ∧ front.byteLength = n ∧ back.BeginsEndMark :=
  bytes_prefix_drop_iff (p := ['*', '/']) (List.cons_ne_nil _ _)

end Text

namespace Reading

open Text

theorem exists_isFirstSplit_run (t : Text) :
    ∃ found, IsFirstSplit BeginsLineBreak t found ∧ (run (!isLineBreak ·) t).1 = found.elim t Prod.fst := by
  induction t with
  | nil => exact ⟨none, .nil (by simp [BeginsLineBreak]), rfl⟩
  | cons c t ih =>
      cases hc : isLineBreak c with
      | true => exact ⟨_, .here hc, by simp [run, hc]⟩
      | false =>
          obtain ⟨found, hfound, hrun⟩ := ih
          refine ⟨_, hfound.cons (by simp [BeginsLineBreak, hc]), ?_⟩
          have hcons : (run (!isLineBreak ·) (c :: t)).1 = c :: (run (!isLineBreak ·) t).1 := by simp [run, hc]
          rw [hcons, hrun]
          cases found <;> rfl

theorem exists_isFirstSplit_throughCommentEnd (t : Text) :
    ∃ found, IsFirstSplit BeginsEndMark t found ∧ (throughCommentEnd t).2.2 = found.isSome ∧
      (throughCommentEnd t).1 = found.elim t fun split => split.1 ++ ['*', '/'] := by
  induction t with
  | nil => exact ⟨none, .nil (by simp [BeginsEndMark]), rfl, rfl⟩
  | cons c t ih =>
      simp only [throughCommentEnd]
      split
      · next hmark =>
          obtain ⟨rfl, t, rfl⟩ := pair_iff.mp hmark
          exact ⟨_, .here (List.prefix_append ['*', '/'] t), rfl, rfl⟩
      · next hmark =>
          obtain ⟨found, hfound, hclosed, hbody⟩ := ih
          refine ⟨_, hfound.cons ?_, ?_, ?_⟩
          · rintro ⟨u, hu⟩
            obtain ⟨rfl, rfl⟩ := List.cons.inj hu
            exact hmark rfl
          · rw [hclosed, Option.isSome_map]
          · rw [hbody]
            cases found <;> rfl

end Reading

namespace ByteSearch

open Text

variable {anyOf : UInt8 → UInt8 → UInt8 → List UInt8 → Option Nat} {run : List UInt8 → List UInt8 → Option Nat}
  {front behind : Text} {found : Option (Text × Text)}

theorem byteLength_opening (mark : Text) (hmark : mark.byteLength = 2) (front body : Text) :
    front.byteLength + byteLength (mark ++ body) = front.byteLength + 2 + body.byteLength := by
  rw [byteLength_append, hmark, Nat.add_assoc]

theorem drop_bytes_opening (mark : Text) (hmark : mark.byteLength = 2) (front behind : Text) (n : Nat) :
    (bytes (front ++ (mark ++ behind))).drop (front.byteLength + 2 + n) = behind.bytes.drop n := by
  rw [← hmark, ← byteLength_append, ← List.append_assoc, drop_bytes_append]

theorem length_bytes_opening (mark : Text) (hmark : mark.byteLength = 2) (front behind : Text) :
    (bytes (front ++ (mark ++ behind))).length = front.byteLength + 2 + behind.byteLength := by
  rw [length_bytes, byteLength_append, byteLength_opening mark hmark]

/-- The search in the bytes comes to the line break that is first in the characters. -/
theorem lineCommentEnd?_eq (hanyOf : FindsAnyOf anyOf) (hfound : IsFirstSplit BeginsLineBreak behind found) :
    lineCommentEnd? anyOf (bytes (front ++ '/' :: '/' :: behind)) front.byteLength =
      some (front.byteLength + byteLength ('/' :: '/' :: found.elim behind Prod.fst)) := by
  have hdrop : ∀ n, (bytes (front ++ '/' :: '/' :: behind)).drop (front.byteLength + 2 + n) = behind.bytes.drop n :=
    drop_bytes_opening ['/', '/'] rfl front behind
  have hlength : (bytes (front ++ '/' :: '/' :: behind)).length = front.byteLength + 2 + behind.byteLength :=
    length_bytes_opening ['/', '/'] rfl front behind
  have htext : ∀ body : Text,
      front.byteLength + byteLength ('/' :: '/' :: body) = front.byteLength + 2 + body.byteLength :=
    byteLength_opening ['/', '/'] rfl front
  have hopening : front.byteLength + 2 ≤ (bytes (front ++ '/' :: '/' :: behind)).length := by omega
  obtain ⟨place, hplace, hend⟩ := exists_isFirst_lineEnd? hanyOf _ hopening
  simp only [hdrop, breaksLine_drop_iff] at hplace
  rw [lineCommentEnd?, hend, hplace.unique hfound.isFirst, hlength, htext]
  cases found <;> rfl

/-- The search in the bytes comes to the end mark that is first in the characters. -/
theorem blockCommentEnd?_eq (hrun : FindsRun run) (hfound : IsFirstSplit BeginsEndMark behind found) :
    blockCommentEnd? run (bytes (front ++ '/' :: '*' :: behind)) front.byteLength =
      some (front.byteLength + byteLength ('/' :: '*' :: found.elim behind fun split => split.1 ++ ['*', '/']),
        found.isNone) := by
  have hdrop : (bytes (front ++ '/' :: '*' :: behind)).drop (front.byteLength + 2) = behind.bytes :=
    drop_bytes_opening ['/', '*'] rfl front behind 0
  have hlength : (bytes (front ++ '/' :: '*' :: behind)).length = front.byteLength + 2 + behind.byteLength :=
    length_bytes_opening ['/', '*'] rfl front behind
  have htext : ∀ body : Text,
      front.byteLength + byteLength ('/' :: '*' :: body) = front.byteLength + 2 + body.byteLength :=
    byteLength_opening ['/', '*'] rfl front
  have hplace := hrun behind.bytes [0x2a, 0x2f]
  simp only [endMark_drop_iff] at hplace
  rw [blockCommentEnd?, if_pos (by omega), hdrop, hplace.unique hfound.isFirst, hlength, htext]
  cases found with
  | none => rfl
  | some split =>
      rw [Option.elim_some, byteLength_append, ← Nat.add_assoc]
      rfl

end ByteSearch

open ByteSearch Text in
/-- Where a comment ends, in the characters and in the bytes. A comment behind two slashes takes all in front of the
first line break; one with an end mark goes on behind the first mark that follows the opening one, and lacks it if
there is none. -/
theorem Token.ends_of_comment {anyOf : UInt8 → UInt8 → UInt8 → List UInt8 → Option Nat}
    {run : List UInt8 → List UInt8 → Option Nat} (hanyOf : FindsAnyOf anyOf) (hrun : FindsRun run)
    {source rest : Text} {t : Token} (ht : t.IsCutAt source rest) :
    let start := source.byteLength - rest.byteLength
    let stop := start + t.text.byteLength
    t.offset = start.toUInt32 ∧ t.stop = stop.toUInt32 ∧
    (∀ behind, rest = '/' :: '/' :: behind →
      t.kind = .lineComment ∧ t.flags = {} ∧
      lineCommentEnd? anyOf source.bytes start = some stop ∧
      ∃ found, IsFirstSplit BeginsLineBreak behind found ∧
        t.text = '/' :: '/' :: found.elim behind Prod.fst) ∧
    ∀ behind, rest = '/' :: '*' :: behind →
      t.kind = .blockComment ∧ t.flags = { unterminated := t.isUnterminated } ∧
      blockCommentEnd? run source.bytes start = some (stop, t.isUnterminated) ∧
      ∃ found, IsFirstSplit BeginsEndMark behind found ∧ t.isUnterminated = found.isNone ∧
        t.text = '/' :: '*' :: found.elim behind fun split => split.1 ++ ['*', '/'] := by
  obtain ⟨c, u, place, offset, hrest, htoken⟩ := ht.exists_read
  obtain ⟨front, back, htokens, hsource⟩ := ht
  have hstart : source.byteLength - rest.byteLength = (restore front).byteLength := by
    rw [← hsource, byteLength_append, Nat.add_sub_cancel]
  have hcut := cut_tokenize source
  rw [htokens] at hcut
  have hoffset : t.offset = (restore front).byteLength.toUInt32 := by rw [hcut.offset_eq, Nat.zero_add]
  dsimp only
  rw [hstart]
  refine ⟨hoffset, ?_, ?_, ?_⟩
  · rw [Token.stop, hoffset, Token.length]
    exact (UInt32.ofNat_add _ _).symm
  · intro behind hbehind
    obtain ⟨rfl, rfl⟩ := List.cons.inj (hrest.symm.trans hbehind)
    obtain ⟨found, hfound, hbody⟩ := Reading.exists_isFirstSplit_run behind
    have hread : t = .ofReading (Reading.lineComment behind) place offset := htoken
    have htext : t.text = '/' :: '/' :: found.elim behind Prod.fst := by
      rw [hread, ← hbody]
      rfl
    refine ⟨by rw [hread]; rfl, by rw [hread]; rfl, ?_, found, hfound, htext⟩
    rw [← hsource, hrest, lineCommentEnd?_eq hanyOf hfound, htext]
  · intro behind hbehind
    obtain ⟨rfl, rfl⟩ := List.cons.inj (hrest.symm.trans hbehind)
    obtain ⟨found, hfound, hclosed, hbody⟩ := Reading.exists_isFirstSplit_throughCommentEnd behind
    have hread : t = .ofReading (Reading.blockComment behind) place offset := htoken
    have htext : t.text = '/' :: '*' :: found.elim behind fun split => split.1 ++ ['*', '/'] := by
      rw [hread, ← hbody]
      rfl
    have hend : t.isUnterminated = found.isNone := by
      rw [← Option.not_isSome, ← hclosed, hread]
      rfl
    refine ⟨by rw [hread]; rfl, by rw [hread]; rfl, ?_, found, hfound, hend, htext⟩
    rw [← hsource, hrest, blockCommentEnd?_eq hrun hfound, htext, hend]

open ByteSearch in
/-- A comment that ends at a separator of lines behind a character whose first two bytes are those of the separator,
and one whose opening mark has the first half of its end mark in it. -/
theorem Token.ends_of_comment_separator :
    let source : Text := ['x', '/', '/', '…', '\u2028', '/', '*', '/', ' ', '*', '/', 'y']
    let line : Token := ⟨.lineComment, ['/', '/', '…'], ⟨1, 2⟩, 1, {}⟩
    let block : Token := ⟨.blockComment, ['/', '*', '/', ' ', '*', '/'], ⟨2, 1⟩, 9, {}⟩
    line.IsCutAt source (source.drop 1) ∧ block.IsCutAt source (source.drop 5) ∧
      lineCommentEnd? firstAnyOf source.bytes 1 = some 6 ∧
      blockCommentEnd? firstRun source.bytes 9 = some (15, false) := by
  intro source line block
  have hline : line.IsCutAt source (source.drop 1) :=
    ⟨(tokenize source).take 1, (tokenize source).drop 2, by decide +kernel, by decide +kernel⟩
  have hblock : block.IsCutAt source (source.drop 5) :=
    ⟨(tokenize source).take 3, (tokenize source).drop 4, by decide +kernel, by decide +kernel⟩
  obtain ⟨-, -, hlineEnd, -⟩ := (ends_of_comment findsAnyOf_firstAnyOf findsRun_firstRun hline).2.2.1 _ rfl
  obtain ⟨-, -, hblockEnd, -⟩ := (ends_of_comment findsAnyOf_firstAnyOf findsRun_firstRun hblock).2.2.2 _ rfl
  exact ⟨hline, hblock, hlineEnd, hblockEnd⟩

end LosslessSyntax
