import LosslessSyntax.Proofs.Text.Bytes

/-! The end of a comment looked for in the bytes of the source. Two ways to search bytes are taken as given: for the
first byte that is one of three, and for the first place where some bytes stand together. A line ends at a line feed
or a carriage return, which are bytes of their own, or at one of two separators of three bytes; of these the search
asks for the first byte only, so it goes on behind it where the other two do not follow. -/

namespace LosslessSyntax.ByteSearch

/-- Whether `find` tells the first place of a byte that is one of three. -/
def FindsAnyOf (find : UInt8 → UInt8 → UInt8 → List UInt8 → Option Nat) : Prop :=
  ∀ a b c bytes, IsFirst (fun n => ∃ x ∈ bytes[n]?, x = a ∨ x = b ∨ x = c) (find a b c bytes)

/-- Whether `find` tells the first place where a run of bytes stands among others. -/
def FindsRun (find : List UInt8 → List UInt8 → Option Nat) : Prop :=
  ∀ bytes run, IsFirst (fun n => run <+: bytes.drop n) (find bytes run)

/-- Whether bytes go on as a separator of lines does behind its first byte. -/
def continuesSeparator (bytes : List UInt8) : Bool := bytes.take 2 = [0x80, 0xa8] || bytes.take 2 = [0x80, 0xa9]

/-- Where the line ends that goes on at `start`: at the first line break, or behind all bytes. Nothing is told if a
place outside of the bytes is looked at. -/
def lineEnd? (anyOf : UInt8 → UInt8 → UInt8 → List UInt8 → Option Nat) (bytes : List UInt8) (start : Nat) :
    Option Nat :=
  if start ≤ bytes.length then
    match anyOf 0x0a 0x0d 0xe2 (bytes.drop start) with
    | none => some bytes.length
    | some n =>
      if h : start + n < bytes.length then
        if bytes[start + n] ≠ 0xe2 ∨ continuesSeparator (bytes.drop (start + n + 1)) = true then some (start + n)
        else lineEnd? anyOf bytes (start + n + 1)
      else none
  else none
termination_by bytes.length - start

/-- Where a comment ends that begins at `start` and runs to the end of the line. -/
def lineCommentEnd? (anyOf : UInt8 → UInt8 → UInt8 → List UInt8 → Option Nat) (bytes : List UInt8) (start : Nat) :
    Option Nat := lineEnd? anyOf bytes (start + 2)

/-- Where a comment ends that begins at `start` and runs to its end mark, and whether the mark is missing. -/
def blockCommentEnd? (run : List UInt8 → List UInt8 → Option Nat) (bytes : List UInt8) (start : Nat) :
    Option (Nat × Bool) :=
  if start + 2 ≤ bytes.length then
    match run (bytes.drop (start + 2)) [0x2a, 0x2f] with
    | some n => some (start + 2 + n + 2, false)
    | none => some (bytes.length, true)
  else none

/-! ### Line breaks among bytes -/

/-- Whether bytes begin with those of a character that ends a line. -/
def BreaksLine (bytes : List UInt8) : Prop := ∃ c, isLineBreak c = true ∧ String.utf8EncodeChar c <+: bytes

/-- What the search asks of the bytes at a place is that a line break begins there. -/
theorem breaksLine_cons_iff {x : UInt8} {bytes : List UInt8} :
    BreaksLine (x :: bytes) ↔ (x = 0x0a ∨ x = 0x0d ∨ x = 0xe2) ∧ (x ≠ 0xe2 ∨ continuesSeparator bytes = true) := by
  constructor
  · rintro ⟨c, hc, r, hr⟩
    simp only [isLineBreak, Bool.or_eq_true, decide_eq_true_eq] at hc
    rcases hc with ((rfl | rfl) | rfl) | rfl
    all_goals
      cases hr
      exact ⟨by decide, by simp [continuesSeparator]⟩
  · rintro ⟨hx, hcontinues⟩
    by_cases hlead : x = 0xe2
    · have hrest : bytes.take 2 = [0x80, 0xa8] ∨ bytes.take 2 = [0x80, 0xa9] := by
        simpa [continuesSeparator, hlead] using hcontinues
      rw [hlead, ← List.take_append_drop 2 bytes]
      rcases hrest with hrest | hrest
      · exact ⟨'\u2028', rfl, bytes.drop 2, by rw [hrest]; rfl⟩
      · exact ⟨'\u2029', rfl, bytes.drop 2, by rw [hrest]; rfl⟩
    · rcases hx with rfl | rfl | rfl
      · exact ⟨'\n', rfl, bytes, rfl⟩
      · exact ⟨'\r', rfl, bytes, rfl⟩
      · exact absurd rfl hlead

theorem not_breaksLine_nil : ¬ BreaksLine [] := by
  rintro ⟨c, -, h⟩
  exact String.utf8EncodeChar_ne_nil (List.prefix_nil.mp h)

theorem exists_mem_getElem?_of_breaksLine {bytes : List UInt8} {n : Nat} (h : BreaksLine (bytes.drop n)) :
    ∃ x ∈ bytes[n]?, x = 0x0a ∨ x = 0x0d ∨ x = 0xe2 := by
  cases hdrop : bytes.drop n with
  | nil =>
      rw [hdrop] at h
      exact absurd h not_breaksLine_nil
  | cons x rest =>
      rw [hdrop] at h
      have hx := congrArg List.head? hdrop
      rw [List.head?_drop] at hx
      exact ⟨x, hx, (breaksLine_cons_iff.mp h).1⟩

/-- The search tells the first place of a line break, or the end of all bytes if there is none. -/
theorem exists_isFirst_lineEnd? {anyOf : UInt8 → UInt8 → UInt8 → List UInt8 → Option Nat} (hanyOf : FindsAnyOf anyOf)
    (bytes : List UInt8) {start : Nat} (hstart : start ≤ bytes.length) :
    ∃ found, IsFirst (fun n => BreaksLine (bytes.drop (start + n))) found ∧
      lineEnd? anyOf bytes start = some (found.elim bytes.length (start + ·)) := by
  have hfirst := hanyOf 0x0a 0x0d 0xe2 (bytes.drop start)
  have hsound : ∀ n, BreaksLine (bytes.drop (start + n)) →
      ∃ x ∈ (bytes.drop start)[n]?, x = 0x0a ∨ x = 0x0d ∨ x = 0xe2 := fun n hn =>
    exists_mem_getElem?_of_breaksLine (by rwa [List.drop_drop])
  rw [lineEnd?, if_pos hstart]
  cases hfind : anyOf 0x0a 0x0d 0xe2 (bytes.drop start) with
  | none =>
      rw [hfind] at hfirst
      exact ⟨none, fun n hn => hfirst n (hsound n hn), rfl⟩
  | some n =>
      rw [hfind] at hfirst
      obtain ⟨⟨x, hx, hbyte⟩, hnone⟩ := hfirst
      rw [List.getElem?_drop] at hx
      obtain ⟨hlt, rfl⟩ := List.getElem?_eq_some_iff.mp hx
      have hdrop : bytes.drop (start + n) = bytes[start + n] :: bytes.drop (start + n + 1) :=
        List.drop_eq_getElem_cons hlt
      simp only [dif_pos hlt]
      by_cases hstop : bytes[start + n] ≠ 0xe2 ∨ continuesSeparator (bytes.drop (start + n + 1)) = true
      · refine ⟨some n, ⟨?_, fun m hm hbreak => hnone m hm (hsound m hbreak)⟩, by rw [if_pos hstop]; rfl⟩
        show BreaksLine (bytes.drop (start + n))
        rw [hdrop]
        exact breaksLine_cons_iff.mpr ⟨hbyte, hstop⟩
      · have hhere : ¬ BreaksLine (bytes.drop (start + n)) := by
          rw [hdrop, breaksLine_cons_iff]
          exact fun h => hstop h.2
        have hnext : start + n + 1 ≤ bytes.length := hlt
        obtain ⟨found, hfound, hend⟩ := exists_isFirst_lineEnd? hanyOf bytes hnext
        refine ⟨found.map (n + 1 + ·), .shift (fun m hm hbreak => ?_) ?_, ?_⟩
        · rcases Nat.lt_succ_iff_lt_or_eq.mp hm with hm | rfl
          · exact hnone m hm (hsound m hbreak)
          · exact hhere hbreak
        · simpa only [Nat.add_assoc] using hfound
        · rw [if_neg hstop, hend]
          cases found with
          | none => rfl
          | some m => exact congrArg some (by simp only [Option.map_some, Option.elim_some]; omega)
termination_by bytes.length - start

/-! ### Searches from front to back -/

/-- The first place from which on the bytes pass a test. -/
def firstPlace (test : List UInt8 → Bool) : List UInt8 → Option Nat
  | [] => if test [] then some 0 else none
  | x :: bytes => if test (x :: bytes) then some 0 else (firstPlace test bytes).map (1 + ·)

theorem isFirst_firstPlace (test : List UInt8 → Bool) (bytes : List UInt8) :
    IsFirst (fun n => test (bytes.drop n) = true) (firstPlace test bytes) := by
  induction bytes with
  | nil =>
      rw [firstPlace]
      split
      · next h => exact ⟨h, fun m hm => absurd hm (Nat.not_lt_zero m)⟩
      · next h => exact fun n hn => h (List.drop_nil ▸ hn)
  | cons x bytes ih =>
      rw [firstPlace]
      split
      · next h => exact ⟨h, fun m hm => absurd hm (Nat.not_lt_zero m)⟩
      · next h =>
          refine .shift (fun m hm => ?_) (by simpa only [Nat.add_comm 1, List.drop_succ_cons] using ih)
          obtain rfl := Nat.lt_one_iff.mp hm
          exact h

/-- The first place of a byte that is one of three. -/
def firstAnyOf (a b c : UInt8) (bytes : List UInt8) : Option Nat :=
  firstPlace (·.head?.any fun x => x = a || x = b || x = c) bytes

/-- The first place where a run of bytes stands. -/
def firstRun (bytes run : List UInt8) : Option Nat := firstPlace run.isPrefixOf bytes

theorem findsAnyOf_firstAnyOf : FindsAnyOf firstAnyOf := by
  intro a b c bytes
  have hplace := isFirst_firstPlace (·.head?.any fun x => x = a || x = b || x = c) bytes
  simpa [firstAnyOf, Option.any_eq_true, or_assoc] using hplace

theorem findsRun_firstRun : FindsRun firstRun := by
  intro bytes run
  have hplace := isFirst_firstPlace run.isPrefixOf bytes
  simpa only [firstRun, List.isPrefixOf_iff_prefix] using hplace

end LosslessSyntax.ByteSearch
