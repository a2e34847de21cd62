import LosslessSyntax.Proofs.NestingLimit
import LosslessSyntax.Proofs.Parse.ProgramRun

/-! What a machine notes. Messages are about the token that is next, and the machine never goes back; so they are
noted in the order of the tokens, which in an addressable source is that of their offsets. That the limit was passed
is noted at the first moment when it is, about the token that is next then, and never again. -/

namespace LosslessSyntax

open Rule

namespace Token

/-- The offset of an index is the word of the bytes of the tokens in front of it. -/
theorem offset_tokenAt (source : Text) (i : Nat) :
    (tokenAt source i).offset = (restore ((tokenize source).take i)).byteLength.toUInt32 := by
  by_cases hi : i < (tokenize source).length
  · have hsplit :
        (tokenize source).take i ++ (tokenize source)[i] :: (tokenize source).drop (i + 1) = tokenize source := by
      rw [List.getElem_cons_drop, List.take_append_drop]
    have hcut := hsplit.symm ▸ cut_tokenize source
    rw [tokenAt, List.getElem?_eq_getElem hi, Option.getD_some, hcut.offset_eq, Nat.zero_add]
  · have hle := Nat.le_of_not_lt hi
    rw [tokenAt, List.getElem?_eq_none hle, Option.getD_none, List.take_of_length_le hle, restore_tokenize]
    exact (Scanner.offset_token_finish (.ofText source)).trans (congrArg _ (Nat.zero_add _))

/-- In an addressable source the offsets of tokens grow with their indices. -/
theorem offset_tokenAt_le {source : Text} (h : source.IsAddressable) {i j : Nat} (hij : i ≤ j) :
    (tokenAt source i).offset ≤ (tokenAt source j).offset := by
  have hnumber (k : Nat) : (tokenAt source k).offset.toNat = (restore ((tokenize source).take k)).byteLength := by
    have hsplit : restore ((tokenize source).take k) ++ restore ((tokenize source).drop k) = source := by
      rw [← restore_append, List.take_append_drop, restore_tokenize]
    rw [offset_tokenAt]
    exact (hsplit.symm ▸ h).toNat_byteLength
  rw [UInt32.le_iff_toNat_le, hnumber, hnumber, ← Nat.add_sub_of_le hij, List.take_add, restore_append,
    Text.byteLength_append]
  exact Nat.le_add_right _ _

end Token

namespace Machine

variable {A : Type} {source : Text} {limit : Nat} {m m' : Machine source limit}
  {moments later : List (Machine source limit)}

theorem report_of_givenUp (h : m.givenUp = true) (message : Message) (args : List Text) : m.report message args = m :=
  if_pos h

theorem report_of_not_givenUp (h : m.givenUp = false) (message : Message) (args : List Text) :
    m.report message args = { m with diagnostics := m.diagnostics ++ [.of message args (some m.here.location)] } :=
  if_neg (ne_true_of_eq_false h)

/-! ### Notes are in order -/

/-- Whether all notes are about tokens up to the next one, or the end, and in the order of the tokens. -/
structure NotesInOrder (m : Machine source limit) : Prop where
  located : ∀ d ∈ m.diagnostics, ∃ i ≤ m.current, d.location = some (Token.tokenAt source i).location
  ordered : m.diagnostics.Pairwise fun d e => ∃ i j, i ≤ j ∧
    d.location = some (Token.tokenAt source i).location ∧ e.location = some (Token.tokenAt source j).location

theorem startKey_of_location {d : Diagnostic} {i : Nat} (h : d.location = some (Token.tokenAt source i).location) :
    d.startKey = (Token.tokenAt source i).offset := by
  rw [Diagnostic.startKey, h]
  rfl

namespace NotesInOrder

/-- In an addressable source the order of the tokens is that of the starts. -/
theorem pairwise_startKey (h : m.NotesInOrder) (haddress : source.IsAddressable) :
    m.diagnostics.Pairwise fun d e => d.startKey ≤ e.startKey := by
  refine h.ordered.imp ?_
  rintro d e ⟨i, j, hij, hd, he⟩
  rw [startKey_of_location hd, startKey_of_location he]
  exact Token.offset_tokenAt_le haddress hij

theorem moves (h : m.NotesInOrder) (hmoves : m.Moves m') : m'.NotesInOrder := by
  refine ⟨fun d hd => ?_, hmoves.diagnostics ▸ h.ordered⟩
  obtain ⟨i, hi, hd⟩ := h.located d (hmoves.diagnostics ▸ hd)
  exact ⟨i, hi.trans hmoves.current_le, hd⟩

theorem atDepth (h : m.NotesInOrder) (depth : Nat) : (m.atDepth depth).NotesInOrder := ⟨h.located, h.ordered⟩

theorem giveUp (h : m.NotesInOrder) : m.giveUp.NotesInOrder := ⟨h.located, h.ordered⟩

theorem report (h : m.NotesInOrder) (message : Message) (args : List Text) : (m.report message args).NotesInOrder := by
  cases hgiven : m.givenUp with
  | true => rwa [report_of_givenUp hgiven]
  | false =>
      rw [report_of_not_givenUp hgiven]
      refine ⟨fun d hd => ?_, ?_⟩
      · rcases List.mem_append.mp hd with hd | hd
        · exact h.located d hd
        · rw [List.mem_singleton.mp hd]
          exact ⟨m.current, Nat.le_refl _, rfl⟩
      · refine List.pairwise_append.mpr ⟨h.ordered, List.pairwise_singleton _ _, fun d hd e he => ?_⟩
        obtain ⟨i, hi, hlocation⟩ := h.located d hd
        rw [List.mem_singleton.mp he]
        exact ⟨i, m.current, hi, hlocation, rfl⟩

theorem leave (h : m.NotesInOrder) (hleave : m.leave? = some m') : m'.NotesInOrder := by
  have hleft := leave?_of_depth (depth_of_leave? hleave)
  rw [Option.some.inj (hleave.symm.trans hleft)]
  exact h.atDepth _

theorem stopped (h : m.NotesInOrder) : m.stopped.NotesInOrder := ((h.atDepth _).report _ _).giveUp

end NotesInOrder

theorem Runs.notesInOrder {r : Level → Rule A} {a : A} (h : Runs r m moments a m') (hm : m.NotesInOrder) :
    m'.NotesInOrder := by
  induction h with
  | pure | kind | nextKind | followsLineBreak => exact hm
  | bind _ _ ih ihf => exact ihf (ih hm)
  | bump m => exact hm.moves m.moves_bump
  | takeTrivia h => exact hm.moves (moves_takeUntil? h)
  | takeTrailing h => exact hm.moves (moves_takeTrailing? h)
  | report m _ args => exact hm.report _ args
  | collectLast _ _ ih | growLast _ _ ih => exact ih hm
  | collectNext _ _ _ ih ihnext | growNext _ _ _ ih ihnext => exact ihnext (ih hm)
  | entered _ henter _ hleave ih =>
      obtain ⟨-, rfl⟩ := of_enter_true henter
      exact (ih (hm.atDepth _)).leave hleave
  | refused _ henter hleave =>
      obtain ⟨-, rfl⟩ := of_enter_false henter
      exact hm.stopped.leave hleave

/-! ### The limit is noted where it is passed -/

/-- The first moment at which more levels are entered than the limit allows. -/
def refusal? (moments : List (Machine source limit)) : Option (Machine source limit) :=
  moments.find? (limit < ·.depth)

theorem refusal?_append_of_le (h : ∀ s ∈ later, s.depth ≤ limit) : refusal? (moments ++ later) = refusal? moments := by
  have hnone : later.find? (limit < ·.depth) = none :=
    List.find?_eq_none.mpr fun s hs => by simpa using h s hs
  rw [refusal?, List.find?_append, hnone, Option.or_none]
  rfl

theorem refusal?_append_of_lt {s : Machine source limit} (h : limit < s.depth) :
    refusal? (moments ++ [s]) = (refusal? moments).or (some s) := by
  rw [refusal?, List.find?_append, List.find?_cons_of_pos (by simpa using h)]
  rfl

/-- Whether a state knows where the limit was passed first, if it was: reading is given up and the limit is noted if it
was passed, and only then, and the note is about the token that was next at that moment. -/
structure TracksLimit (refused : Option (Machine source limit)) (m : Machine source limit) : Prop where
  givenUp : m.givenUp = refused.isSome
  noted : m.diagnostics.mentionLimit = refused.isSome
  place : ∀ d ∈ m.diagnostics, d.code = Message.nestingTooDeep.code →
    ∃ s ∈ refused, d.location = some s.here.location

namespace TracksLimit

variable {refused : Option (Machine source limit)}

theorem of_eq (h : TracksLimit refused m) (hgiven : m'.givenUp = m.givenUp)
    (hdiagnostics : m'.diagnostics = m.diagnostics) : TracksLimit refused m' :=
  ⟨hgiven.trans h.givenUp, hdiagnostics ▸ h.noted, hdiagnostics ▸ h.place⟩

theorem report (h : TracksLimit refused m) {message : Message} (hmessage : message.code ≠ Message.nestingTooDeep.code)
    (args : List Text) : TracksLimit refused (m.report message args) := by
  cases hgiven : m.givenUp with
  | true => rwa [report_of_givenUp hgiven]
  | false =>
      rw [report_of_not_givenUp hgiven]
      refine ⟨h.givenUp, ?_, fun d hd hcode => ?_⟩
      · rw [← h.noted]
        simp [Diagnostics.mentionLimit, Diagnostic.of, hmessage]
      · rcases List.mem_append.mp hd with hd | hd
        · exact h.place d hd hcode
        · rw [List.mem_singleton.mp hd] at hcode
          exact absurd hcode hmessage

/-- Whoever is refused has given up, and noted the limit about the token that is next unless it was passed before. -/
theorem refuse (h : TracksLimit refused m) (args : List Text) :
    TracksLimit (refused.or (some (m.report .nestingTooDeep args).giveUp)) (m.report .nestingTooDeep args).giveUp := by
  cases refused with
  | some s =>
      rw [report_of_givenUp h.givenUp]
      exact ⟨rfl, h.noted, h.place⟩
  | none =>
      rw [report_of_not_givenUp h.givenUp]
      refine ⟨rfl, ?_, fun d hd hcode => ⟨_, rfl, ?_⟩⟩
      · simp [giveUp, Diagnostics.mentionLimit, Diagnostic.of]
      · rcases List.mem_append.mp hd with hd | hd
        · obtain ⟨s, hs, -⟩ := h.place d hd hcode
          cases hs
        · rw [List.mem_singleton.mp hd]
          rfl

/-- A moment within the limit at which nothing is noted. -/
theorem within (h : TracksLimit (refusal? moments) m) (hdepth : m'.depth ≤ limit) (hgiven : m'.givenUp = m.givenUp)
    (hdiagnostics : m'.diagnostics = m.diagnostics) : TracksLimit (refusal? (moments ++ [m'])) m' := by
  rw [refusal?_append_of_le (List.forall_mem_singleton.mpr hdepth)]
  exact h.of_eq hgiven hdiagnostics

theorem moves (h : TracksLimit (refusal? moments) m) (hdepth : m.depth ≤ limit) (hmoves : m.Moves m') :
    TracksLimit (refusal? (moments ++ [m'])) m' :=
  h.within (hmoves.depth.trans_le hdepth) hmoves.givenUp hmoves.diagnostics

theorem stopped (h : TracksLimit (refusal? moments) m) (hdepth : limit ≤ m.depth) :
    TracksLimit (refusal? (moments ++ [m.stopped])) m.stopped := by
  have hdeeper : TracksLimit (refusal? moments) (m.atDepth (m.depth + 1)) := h.of_eq rfl rfl
  rw [refusal?_append_of_lt ((Nat.lt_succ_of_le hdepth).trans_eq m.depth_stopped.symm)]
  exact hdeeper.refuse [Nat.toDigits 10 limit]

end TracksLimit

/-- A run of a rule within the limit goes on to know where the limit was passed first. -/
theorem Runs.tracksLimit {r : Level → Rule A} {a : A} (h : Runs r m later a m') (hdepth : m.depth ≤ limit)
    (hm : TracksLimit (refusal? moments) m) : TracksLimit (refusal? (moments ++ later)) m' := by
  induction h generalizing moments with
  | pure | kind | nextKind | followsLineBreak => rwa [List.append_nil]
  | bind h _ ih ihf =>
      rw [← List.append_assoc]
      exact ihf (h.depth_eq.trans_le hdepth) (ih hdepth hm)
  | bump m => exact hm.moves hdepth m.moves_bump
  | takeTrivia h => exact hm.moves hdepth (moves_takeUntil? h)
  | takeTrailing h => exact hm.moves hdepth (moves_takeTrailing? h)
  | report m hmessage args =>
      rw [List.append_nil]
      exact hm.report hmessage args
  | collectLast _ _ ih | growLast _ _ ih => exact ih hdepth hm
  | collectNext _ h _ ih ihnext | growNext _ h _ ih ihnext =>
      rw [← List.append_assoc]
      exact ihnext (h.depth_eq.trans_le hdepth) (ih hdepth hm)
  | entered _ henter h hleave ih =>
      obtain ⟨hlt, rfl⟩ := of_enter_true henter
      cases (leave?_of_depth h.depth_eq).symm.trans hleave
      rw [← List.singleton_append, ← List.append_assoc, ← List.append_assoc]
      exact (ih hlt (hm.within hlt rfl rfl)).within hdepth rfl rfl
  | refused _ henter hleave =>
      obtain ⟨hle, rfl⟩ := of_enter_false henter
      cases (leave?_of_depth (depth_stopped _)).symm.trans hleave
      rw [← List.singleton_append, ← List.append_assoc]
      exact (hm.stopped hle).within hdepth rfl rfl

/-- Behind a whole program the limit is noted if it was passed, and only then, and about the token that was next when
it was passed first. -/
theorem RunsProgram.noted {program : Program} (h : RunsProgram m moments program m') (hdepth : m.depth = 0)
    (hgiven : m.givenUp = false) (hnone : m.diagnostics = []) :
    m'.NotesInOrder ∧ m'.diagnostics.mentionLimit = (refusal? moments).isSome ∧
      ∀ d ∈ m'.diagnostics, d.code = Message.nestingTooDeep.code →
        ∃ s ∈ refusal? moments, d.location = some s.here.location := by
  have hstart : m.NotesInOrder := ⟨by simp [hnone], by simp [hnone]⟩
  have hfresh : TracksLimit (refusal? []) m := ⟨hgiven, by rw [hnone]; rfl, by simp [hnone]⟩
  have hle : m.depth ≤ limit := hdepth.trans_le (Nat.zero_le _)
  cases h with
  | complete hstatements _ =>
      have htracks := hstatements.tracksLimit hle hfresh
      exact ⟨hstatements.notesInOrder hstart, htracks.noted, htracks.place⟩
  | @salvaged m₁ m₂ _ t u nodes trivia lexemes hstatements _ hrest htrivia =>
      have htracks := hstatements.tracksLimit hle hfresh
      obtain ⟨hmoves, hmoments⟩ := hrest.moves
      have hlast := moves_takeUntil? htrivia
      have hshallow : m₁.depth ≤ limit := hstatements.depth_eq.trans_le hle
      have hlater : ∀ s ∈ u ++ [m'], s.depth ≤ limit := by
        refine List.forall_mem_append.mpr ⟨fun s hs => (hmoments s hs).depth.trans_le hshallow, ?_⟩
        exact List.forall_mem_singleton.mpr ((hmoves.trans hlast).depth.trans_le hshallow)
      have hsame : m'.diagnostics = m₁.diagnostics := (hmoves.trans hlast).diagnostics
      have hresumed : m₁.resume.NotesInOrder := by
        have hordered := hstatements.notesInOrder hstart
        exact ⟨hordered.located, hordered.ordered⟩
      rw [refusal?_append_of_le hlater, hsame]
      exact ⟨hresumed.moves (hmoves.trans hlast), htracks.noted, htracks.place⟩

end Machine

end LosslessSyntax
