import LosslessSyntax.Proofs.Diagnostic.Order
import LosslessSyntax.Proofs.Parse.Notes
import LosslessSyntax.Proofs.Strictness
import LosslessSyntax.Proofs.Token.Cover

/-! What a reading says is wrong. Its diagnostics are those of the tokens and those of the tree, each in the order of
the source, and sorting puts them together by their place: every one of them shows a token of the source or its end.
So the error of strict reading is the passed limit, at the token where it was passed first, or else the error that
comes first in the source. -/

namespace LosslessSyntax

/-- Whether a diagnostic has the place and the text of a token of the source, or those of its end. -/
def Diagnostic.IsAbout (source : Text) (d : Diagnostic) : Prop :=
  ∃ l, d.location = some l ∧
    ((∃ t ∈ tokenize source, l.span = t.span ∧ l.position = t.position ∧ l.found = t.text) ∨
      l.span = .emptyAt source.byteLength ∧ l.found = [] ∧ l.position = (Token.endOfSource source).position)

/-- Whether a diagnostic shows the text that stands in the source where it says. -/
def Diagnostic.ShowsSlice (source : Text) (d : Diagnostic) : Prop :=
  ∃ l, d.location = some l ∧ source.slice? l.span = some l.found

/-- Whether `d` is the error that comes first by its place, and by the order in which it was noted. -/
def Diagnostics.IsFirstError (ds : Diagnostics) (d : Diagnostic) : Prop :=
  ∃ before after, ds = before ++ d :: after ∧ d.isError = true ∧
    (∀ e ∈ before, e.isError = true → d.startKey < e.startKey) ∧
      ∀ e ∈ after, e.isError = true → d.startKey ≤ e.startKey

/-! ### Every diagnostic shows a token or the end -/

namespace Token

variable {source : Text} {d : Diagnostic}

theorem location_of_mem_diagnostics {t : Token} (h : d ∈ t.diagnostics) : d.location = some t.location := by
  obtain ⟨m, -, rfl⟩ := List.mem_map.mp h
  rfl

/-- No token is at fault for the nesting of others. -/
theorem code_of_mem_diagnostics {t : Token} (h : d ∈ t.diagnostics) : d.code ≠ Message.nestingTooDeep.code := by
  obtain ⟨m, hm, rfl⟩ := List.mem_map.mp h
  replace hm := Option.mem_toList.mp hm
  change m.code ≠ Message.nestingTooDeep.code
  unfold fault? at hm
  split at hm
  · cases hm
    decide
  · split at hm <;> cases hm
    decide
  · split at hm <;> cases hm
    decide
  · cases hm

theorem isAbout_of_mem {t : Token} (ht : t ∈ tokenize source) (h : d.location = some t.location) :
    d.IsAbout source :=
  ⟨t.location, h, .inl ⟨t, ht, rfl, rfl, rfl⟩⟩

theorem isAbout_of_tokenAt {i : Nat} (h : d.location = some (tokenAt source i).location) : d.IsAbout source := by
  rw [tokenAt] at h
  cases htoken : (tokenize source)[i]? with
  | some t =>
      rw [htoken] at h
      exact isAbout_of_mem (List.mem_of_getElem? htoken) h
  | none =>
      rw [htoken] at h
      have htext : (endOfSource source).text = [] := Scanner.text_token_finish _
      have hspan : (endOfSource source).span = .emptyAt source.byteLength := by
        rw [span, length, htext, endOfSource, Scanner.offset_token_finish, Scanner.ofText, Nat.zero_add]
        rfl
      exact ⟨_, h, .inr ⟨hspan, htext, rfl⟩⟩

end Token

/-- In an addressable source the text of a diagnostic stands where the diagnostic says. -/
theorem Diagnostic.IsAbout.showsSlice {source : Text} {d : Diagnostic} (h : d.IsAbout source)
    (haddress : source.IsAddressable) : d.ShowsSlice source := by
  obtain ⟨l, hlocation, ⟨t, ht, hspan, -, hfound⟩ | ⟨hspan, hfound, -⟩⟩ := h
  · refine ⟨l, hlocation, ?_⟩
    rw [hspan, hfound]
    exact (cut_tokenize source).slice?_span haddress ht
  · refine ⟨l, hlocation, ?_⟩
    have hend : (Span.emptyAt source.byteLength).start.toNat = source.byteLength := toNat_toUInt32 haddress
    rw [hspan, hfound]
    refine Text.slice?_eq_some_iff.mpr ⟨source, [], by simp, hend.symm, ?_⟩
    rw [Span.stop, List.append_nil, show (Span.emptyAt source.byteLength).length = 0 from rfl, UInt32.add_zero, hend]

namespace Token

variable {source : Text}

/-- The diagnostics of tokens are in the order of the tokens. -/
theorem pairwise_startKey_tokens (haddress : source.IsAddressable) :
    ((tokenize source).flatMap diagnostics).Pairwise fun d e => d.startKey ≤ e.startKey := by
  have hkey {t : Token} {d : Diagnostic} (hd : d ∈ t.diagnostics) : d.startKey = t.offset := by
    rw [Diagnostic.startKey, location_of_mem_diagnostics hd]
    rfl
  have hoffsets : (tokenize source).Pairwise fun t u => t.offset ≤ u.offset := by
    have hchain : ((tokenize source).map offset).IsChain (· ≤ ·) := by
      rw [List.isChain_map]
      refine ((cut_tokenize source).isChain_offset haddress).imp ?_
      rintro t u h
      rw [UInt32.le_iff_toNat_le, h]
      exact Nat.le_add_right _ _
    have : IsTrans UInt32 (· ≤ ·) := ⟨fun _ _ _ => UInt32.le_trans⟩
    exact List.pairwise_map.mp hchain.pairwise
  refine List.pairwise_flatMap.mpr ⟨fun t _ => ?_, hoffsets.imp fun hle d hd e he => ?_⟩
  · exact List.pairwise_of_forall_mem_list fun d hd e he => UInt32.le_of_eq ((hkey hd).trans (hkey he).symm)
  · rw [hkey hd, hkey he]
    exact hle

end Token

/-! ### The error of strict reading -/

namespace Diagnostics

variable {ds : Diagnostics} {limit : Nat}

theorem error?_of_find?_limit {d : Diagnostic} (h : ds.find? (·.code = Message.nestingTooDeep.code) = some d) :
    ds.error? limit = some (.tooDeep limit d.positionOrStart) := by
  rw [error?, h]

theorem error?_of_find?_error (hlimit : ds.find? (·.code = Message.nestingTooDeep.code) = none) :
    ds.error? limit = (ds.find? (·.isError)).map fun d => .invalid d.text d.found d.positionOrStart := by
  rw [error?, hlimit]
  cases ds.find? (·.isError) <;> rfl

end Diagnostics

theorem Program.ofValidSource_of_error? {source : Text} {limit : Nat} {e : Error}
    (h : (Parser.ofSource source limit).program.2.diagnostics.error? limit = some e) :
    ofValidSource source limit = .error e := by
  unfold ofValidSource
  generalize (Parser.ofSource source limit).program = s at h
  obtain ⟨program, p⟩ := s
  simp only [h]

theorem Program.ofValidSource_of_error?_eq_none {source : Text} {limit : Nat}
    (h : (Parser.ofSource source limit).program.2.diagnostics.error? limit = none) :
    ofValidSource source limit = .ok (ofSource source limit) := by
  unfold ofValidSource ofSource
  generalize (Parser.ofSource source limit).program = s at h
  obtain ⟨program, p⟩ := s
  simp only [h]

namespace Parser

/-- What is known of the diagnostics of the tree: they are about tokens, in order, and if the limit was passed in a
run, one of them tells where. -/
theorem treeDiagnostics_program {source : Text} {limit : Nat} {moments : List (Machine source limit)}
    {program : Program} {m : Machine source limit} (h : Machine.RunsProgram (.start source limit) moments program m) :
    let ds := (ofSource source limit).program.2.treeDiagnostics
    (∀ d ∈ ds, d.IsAbout source) ∧
      (source.IsAddressable → ds.Pairwise fun d e => d.startKey ≤ e.startKey) ∧
      ds.mentionLimit = (Machine.refusal? moments).isSome ∧
        ∀ d ∈ ds, d.code = Message.nestingTooDeep.code →
          ∃ s ∈ Machine.refusal? moments, d.location = some s.here.location := by
  have hrun := (h.follows (Machine.isSound_start source limit) rfl).1
  have hsame : (ofSource source limit).program.2.treeDiagnostics = m.diagnostics :=
    congrArg (fun s : Program × Cursor => s.2.diagnostics) hrun
  obtain ⟨hordered, hnoted, hplace⟩ := h.noted rfl rfl rfl
  intro ds
  rw [show ds = m.diagnostics from hsame]
  refine ⟨fun d hd => ?_, hordered.pairwise_startKey, hnoted, hplace⟩
  obtain ⟨i, -, hlocation⟩ := hordered.located d hd
  exact Token.isAbout_of_tokenAt hlocation

/-- Of all diagnostics only those of the tree tell of the limit. -/
theorem find?_limit_diagnostics_program (source : Text) (limit : Nat) {d : Diagnostic}
    (h : (ofSource source limit).program.2.diagnostics.find? (·.code = Message.nestingTooDeep.code) = some d) :
    d ∈ (ofSource source limit).program.2.treeDiagnostics ∧ d.code = Message.nestingTooDeep.code := by
  have hcode : d.code = Message.nestingTooDeep.code := by simpa using List.find?_some h
  have hmem := List.mem_of_find?_eq_some h
  rw [diagnostics_program, (Diagnostics.perm_sorted _).mem_iff] at hmem
  refine ⟨(List.mem_append.mp hmem).resolve_left fun htoken => ?_, hcode⟩
  obtain ⟨t, -, hd⟩ := List.mem_flatMap.mp htoken
  exact Token.code_of_mem_diagnostics hd hcode

/-- If the limit is passed in a run, strict reading fails at the token where it is passed first. -/
theorem ofValidSource_of_refusal {source : Text} {limit : Nat} {moments : List (Machine source limit)}
    {program : Program} {m s : Machine source limit} (h : Machine.RunsProgram (.start source limit) moments program m)
    (hs : Machine.refusal? moments = some s) :
    Program.ofValidSource source limit = .error (.tooDeep limit s.here.position) := by
  obtain ⟨-, -, hnoted, hplace⟩ := treeDiagnostics_program h
  rw [hs, Option.isSome_some] at hnoted
  have hfind : ((ofSource source limit).program.2.diagnostics.find?
      (·.code = Message.nestingTooDeep.code)).isSome = true := by
    obtain ⟨d, hd, hcode⟩ := List.any_eq_true.mp hnoted
    refine List.find?_isSome.mpr ⟨d, ?_, hcode⟩
    rw [diagnostics_program, (Diagnostics.perm_sorted _).mem_iff]
    exact List.mem_append_right _ hd
  obtain ⟨d, hfind⟩ := Option.isSome_iff_exists.mp hfind
  obtain ⟨hd, hcode⟩ := find?_limit_diagnostics_program source limit hfind
  obtain ⟨s', hs', hlocation⟩ := hplace d hd hcode
  rw [hs] at hs'
  cases hs'
  have hposition : d.positionOrStart = s.here.position := by
    rw [Diagnostic.positionOrStart, hlocation]
    rfl
  rw [← hposition]
  exact Program.ofValidSource_of_error? (Diagnostics.error?_of_find?_limit hfind)

/-- If the limit is not passed in a run, strict reading goes by the first error. -/
theorem ofValidSource_of_no_refusal {source : Text} {limit : Nat} {moments : List (Machine source limit)}
    {program : Program} {m : Machine source limit} (h : Machine.RunsProgram (.start source limit) moments program m)
    (hnone : Machine.refusal? moments = none) :
    let p := (ofSource source limit).program.2
    (p.diagnostics.hasErrors = false →
        Program.ofValidSource source limit = .ok (Program.ofSource source limit)) ∧
      ∀ d l, p.diagnostics.find? (·.isError) = some d → d.location = some l →
        Program.ofValidSource source limit = .error (.invalid d.text l.found l.position) := by
  intro p
  obtain ⟨-, -, -, hplace⟩ := treeDiagnostics_program h
  have hlimit : p.diagnostics.find? (·.code = Message.nestingTooDeep.code) = none := by
    by_contra hfound
    obtain ⟨d, hfind⟩ := Option.ne_none_iff_exists'.mp hfound
    obtain ⟨hd, hcode⟩ := find?_limit_diagnostics_program source limit hfind
    obtain ⟨s, hs, -⟩ := hplace d hd hcode
    rw [hnone] at hs
    cases hs
  have herror : p.diagnostics.error? limit = _ := Diagnostics.error?_of_find?_error hlimit
  refine ⟨fun hno => Program.ofValidSource_of_error?_eq_none (herror.trans ?_), fun d l hfind hlocation => ?_⟩
  · rw [List.find?_eq_none.mpr (List.any_eq_false.mp hno)]
    rfl
  · refine Program.ofValidSource_of_error? (herror.trans ?_)
    rw [hfind, Option.map_some, Diagnostic.found, Diagnostic.positionOrStart, hlocation]
    rfl

/-- The diagnostics of a reading are those of the scan and those of the tree, by where they start; of those that start
together, the ones of the scan come first, and all are in the order in which they were noted. Each has the place and
the text of a token of the source, or those of its end. In an addressable source the scan and the tree each note what
they note in the order of the starts, so each keeps its order, and the text of a diagnostic is what stands in the
source where it says. If the limit is passed, strict reading fails at the token where it is passed first, or at the
end if none is left, whatever else is wrong; otherwise it fails with the error that comes first, if there is one. -/
theorem diagnostics_ofSource (source : Text) (limit : Nat) :
    let p := (ofSource source limit).program.2
    let scanned := (tokenizeWithDiagnostics source).2
    let strict := Program.ofValidSource source limit
    p.diagnostics.Perm (scanned ++ p.treeDiagnostics) ∧
      (p.diagnostics.Pairwise fun d e => d.startKey ≤ e.startKey) ∧
      (∀ start, p.diagnostics.filter (·.startKey = start) =
        scanned.filter (·.startKey = start) ++ p.treeDiagnostics.filter (·.startKey = start)) ∧
      (∀ d ∈ p.diagnostics, d.IsAbout source) ∧
      (source.IsAddressable →
        (scanned.Pairwise fun d e => d.startKey ≤ e.startKey) ∧
        (p.treeDiagnostics.Pairwise fun d e => d.startKey ≤ e.startKey) ∧
        scanned.Sublist p.diagnostics ∧ p.treeDiagnostics.Sublist p.diagnostics ∧
        ∀ d ∈ p.diagnostics, d.ShowsSlice source) ∧
      (∃ moments program m, Machine.RunsProgram (.start source limit) moments program m) ∧
      ∀ moments program m, Machine.RunsProgram (.start source limit) moments program m →
        (∀ s, Machine.refusal? moments = some s → strict = .error (.tooDeep limit s.here.position)) ∧
          (Machine.refusal? moments = none →
            (p.diagnostics.hasErrors = false → strict = .ok (Program.ofSource source limit)) ∧
              (p.diagnostics.hasErrors = true → ∃ d l, (scanned ++ p.treeDiagnostics).IsFirstError d ∧
                d.location = some l ∧ strict = .error (.invalid d.text l.found l.position))) := by
  intro p scanned strict
  have hscanned : scanned = (tokenize source).flatMap Token.diagnostics := Scanner.diagnostics_finish (.ofText source)
  have hsorted : p.diagnostics = Diagnostics.sorted (scanned ++ p.treeDiagnostics) :=
    (diagnostics_program source limit).trans (by rw [hscanned])
  have hexists := Machine.RunsProgram.exists_of_isSound (Machine.isSound_start source limit) rfl
  obtain ⟨moments, program, m, hrun⟩ := id hexists
  obtain ⟨habout, hordered, -, -⟩ := treeDiagnostics_program hrun
  have hall : ∀ d ∈ p.diagnostics, d.IsAbout source := by
    intro d hd
    rw [hsorted, (Diagnostics.perm_sorted _).mem_iff, hscanned] at hd
    rcases List.mem_append.mp hd with hd | hd
    · obtain ⟨t, ht, hd⟩ := List.mem_flatMap.mp hd
      exact Token.isAbout_of_mem ht (Token.location_of_mem_diagnostics hd)
    · exact habout d hd
  refine ⟨hsorted ▸ Diagnostics.perm_sorted _, hsorted ▸ Diagnostics.pairwise_sorted _, fun start => ?_, hall,
    fun haddress => ?_, hexists, fun moments program m hrun => ?_⟩
  · rw [hsorted, Diagnostics.filter_startKey_sorted, List.filter_append]
  · have htokens : scanned.Pairwise fun d e => d.startKey ≤ e.startKey :=
      hscanned ▸ Token.pairwise_startKey_tokens haddress
    exact ⟨htokens, hordered haddress, hsorted ▸ Diagnostics.sublist_sorted htokens (List.sublist_append_left _ _),
      hsorted ▸ Diagnostics.sublist_sorted (hordered haddress) (List.sublist_append_right _ _),
      fun d hd => (hall d hd).showsSlice haddress⟩
  · refine ⟨fun s hrefused => ofValidSource_of_refusal hrun hrefused, fun hnone => ?_⟩
    obtain ⟨hvalid, hinvalid⟩ := ofValidSource_of_no_refusal hrun hnone
    refine ⟨hvalid, fun herrors => ?_⟩
    obtain ⟨d, hfind⟩ := Option.isSome_iff_exists.mp (List.find?_isSome.mpr (List.any_eq_true.mp herrors))
    obtain ⟨l, hlocation, -⟩ := hall d (List.mem_of_find?_eq_some hfind)
    exact ⟨d, l, Diagnostics.exists_of_find?_sorted (hsorted ▸ hfind), hlocation, hinvalid d l hfind hlocation⟩

/-- Two characters that start no token, the first of which takes two bytes. -/
theorem diagnostics_ofSource_unknown :
    let source : Text := ['§', ' ', '+', ' ', '@']
    Text.IsAddressable source ∧ (tokenizeWithDiagnostics source).2.length = 2 ∧
      (∀ d ∈ (ofSource source 9).program.2.diagnostics, d.ShowsSlice source) := by
  have haddress : Text.IsAddressable ['§', ' ', '+', ' ', '@'] := by decide
  exact ⟨haddress, by decide +kernel, ((diagnostics_ofSource _ 9).2.2.2.2.1 haddress).2.2.2.2⟩

/-- Beyond the last address a diagnostic may show another text than stands where it says. -/
theorem exists_not_showsSlice (limit : Nat) :
    ∃ source, ∃ d ∈ (ofSource source limit).program.2.diagnostics, ¬d.ShowsSlice source := by
  obtain ⟨n, hn⟩ := exists_word_eq_zero
  let d : Diagnostic := .of .invalidCharacter [] (some ⟨⟨0, 1⟩, .start, ['@']⟩)
  refine ⟨Text.signBehindBlanks n, d, ?_, ?_⟩
  · rw [diagnostics_program, (Diagnostics.perm_sorted _).mem_iff, tokenize_signBehindBlanks_of_word hn]
    exact List.mem_append_left _ (List.mem_singleton_self d)
  · rintro ⟨l, hlocation, hslice⟩
    cases hlocation
    have hblank : (Text.signBehindBlanks n).slice? ⟨0, 1⟩ = some [' '] :=
      Text.slice?_eq_some_iff.mpr ⟨[], List.replicate n ' ' ++ ['@'], rfl, rfl, rfl⟩
    rw [hblank] at hslice
    cases hslice

end Parser

end LosslessSyntax
