import P101Report.Model.Reader
import P101Report.Reading.Sites

/-!
# What parsing one line does

The outcomes of the two parsers (`parseResourceLine_cases`, `parseCallLine_cases`), and from them
what each leaves alone and what it hands over: an accepted line becomes the event of its record, any
other line changes the stream health and the run model at most.
-/

set_option autoImplicit false

namespace P101Report

variable {lib : ToolEventLib}

/-! ## Resource lines -/

/-- The stream health of the resource log after a record. -/
def State.observeResource (record : ToolEventRecord) (st : State lib) : State lib :=
  { st with
    model := { st.model with
      resourceStreamHealth := lib.healthObserve st.model.resourceStreamHealth record } }

/-- The outcomes for a resource line: refused by the library's parser, a completion, a call record,
refused by the run model, or copied. -/
theorem parseResourceLine_cases (line : List UInt8) (sequence : Nat) (st : State lib) :
    let record := (lib.parseLine line).2
    let observed := st.observeResource record
    let offered := ingestRunModel record observed
    let copied := copyRecord record (copyResourceMetadata record sequence) offered.2
    (∃ status, status ≠ .ok ∧ parseResourceLine line sequence st = (status, {}, st)) ∨
      (∃ status, status ≠ .ok ∧ parseResourceLine line sequence st = (status, {}, observed)) ∨
      parseResourceLine line sequence st = (.malformed, {}, offered.2) ∨
      (record.recordKind ≠ .call ∧ record.recordKind ≠ .complete) ∧
        parseResourceLine line sequence st =
          (if copied.2.err.error then .malformed else .ok, copied.1, copied.2) := by
  dsimp only
  rw [parseResourceLine]
  generalize lib.parseLine line = parsed
  obtain ⟨status, record⟩ := parsed
  dsimp only
  split
  · rename_i hstatus
    by_cases hcomplete : record.recordKind = .complete
    · rw [if_pos hcomplete]
      exact Or.inr (Or.inl ⟨.complete, by simp, rfl⟩)
    · rw [if_neg hcomplete]
      by_cases hcall : record.recordKind = .call
      · rw [if_pos hcall]
        exact Or.inr (Or.inl ⟨.other, by simp, rfl⟩)
      · rw [if_neg hcall]
        refine Or.inr (Or.inr ?_)
        simp only [State.observeResource]
        split
        · exact Or.inl rfl
        · exact Or.inr ⟨⟨hcall, hcomplete⟩, rfl⟩
  · rename_i hstatus
    exact Or.inl ⟨_, hstatus, rfl⟩

/-- Offering a record to the run model changes the run model at most. -/
theorem ingestRunModel_frame (record : ToolEventRecord) (st : State lib) :
    let st' := (ingestRunModel record st).2
    st'.model = { st.model with runModel := st'.model.runModel } ∧
      (st'.err.error = false → st.err.error = false) := by
  dsimp only
  rw [ingestRunModel]
  split
  · exact ⟨rfl, fun h => h⟩
  · exact ⟨rfl, fun h => after_ok h⟩

/-- Copying a record writes the site table at most. -/
theorem copyRecord_frame (record : ToolEventRecord) (event : ResourceEvent) (st : State lib) :
    let st' := (copyRecord record event st).2
    st'.model = { st.model with sites := st'.model.sites } ∧
      (st'.err.error = false → st.err.error = false) := by
  have hsite := fun st : State lib =>
    internSite_frame record.fileName record.functionName record.lineNumber st
  dsimp only at hsite ⊢
  rw [copyRecord]
  cases record.recordKind with
  | fd => exact ⟨hsite st, State.recordSite_ok⟩
  | alloc =>
    exact ⟨hsite _, fun h => (State.dup_ok (State.dup_ok (State.recordSite_ok h)).1).1⟩
  | fork => exact ⟨hsite st, State.recordSite_ok⟩
  | spawn => exact ⟨hsite _, fun h => (State.dup_ok (State.recordSite_ok h)).1⟩
  | exec => exact ⟨hsite _, fun h => (State.dup_ok (State.recordSite_ok h)).1⟩
  | execFail => exact ⟨hsite _, fun h => (State.dup_ok (State.recordSite_ok h)).1⟩
  | resource =>
    dsimp only
    cases record.relatedId with
    | none =>
      refine ⟨hsite _, fun h => ?_⟩
      have hmetadata := (State.dup_ok (State.recordSite_ok h)).1
      exact (State.dup_ok (State.dup_ok hmetadata).1).1
    | some id =>
      refine ⟨hsite _, fun h => ?_⟩
      have hmetadata := (State.dup_ok (State.recordSite_ok h)).1
      exact (State.dup_ok (State.dup_ok (State.dup_ok hmetadata).1).1).1
  | call => exact ⟨rfl, fun h => h⟩
  | complete => exact ⟨rfl, fun h => h⟩

/-- Parsing a resource line writes the site table, the stream health and the run model at most, and
needs a state without an error to end without one. -/
theorem parseResourceLine_frame (line : List UInt8) (sequence : Nat) (st : State lib) :
    let st' := (parseResourceLine line sequence st).2.2
    st'.model = { st.model with
        sites := st'.model.sites, resourceStreamHealth := st'.model.resourceStreamHealth
        runModel := st'.model.runModel } ∧
      (st'.err.error = false → st.err.error = false) := by
  obtain ⟨hoffered, hofferedErr⟩ := ingestRunModel_frame (lib.parseLine line).2
    (st.observeResource (lib.parseLine line).2)
  dsimp only at hoffered hofferedErr ⊢
  obtain ⟨status, -, heq⟩ | ⟨status, -, heq⟩ | heq | ⟨-, heq⟩ :=
    parseResourceLine_cases line sequence st
  · rw [heq]
    exact ⟨rfl, fun h => h⟩
  · rw [heq]
    exact ⟨rfl, fun h => h⟩
  · rw [heq]
    refine ⟨?_, hofferedErr⟩
    dsimp only
    rw [hoffered]
    rfl
  · obtain ⟨hcopied, hcopiedErr⟩ := copyRecord_frame (lib.parseLine line).2
      (copyResourceMetadata (lib.parseLine line).2 sequence)
      (ingestRunModel (lib.parseLine line).2 (st.observeResource (lib.parseLine line).2)).2
    rw [heq]
    refine ⟨?_, fun h => hofferedErr (hcopiedErr h)⟩
    dsimp only at hcopied ⊢
    rw [hcopied, hoffered]
    rfl

/-- **Resource lines.** Without an error the site table has grown; an accepted line becomes the
event of its record, whose site its index denotes. -/
theorem parseResourceLine_ok {line : List UInt8} {sequence : Nat} {st : State lib}
    (hnamed : SitesNamed st.model)
    (h : (parseResourceLine line sequence st).2.2.err.error = false) :
    let parsed := parseResourceLine line sequence st
    SitesGrow st.model parsed.2.2.model ∧
      (parsed.1 = .ok → ∃ site, parsed.2.1 = .ofRecord (lib.parseLine line).2 sequence site ∧
        parsed.2.2.model.sites.items[site]? = some (lib.parseLine line).2.site) := by
  obtain ⟨hoffered, -⟩ := ingestRunModel_frame (lib.parseLine line).2
    (st.observeResource (lib.parseLine line).2)
  dsimp only at hoffered ⊢
  have hsites : (ingestRunModel (lib.parseLine line).2
      (st.observeResource (lib.parseLine line).2)).2.model.sites = st.model.sites := by
    rw [hoffered]
    rfl
  obtain ⟨status, hne, heq⟩ | ⟨status, hne, heq⟩ | heq | ⟨hkind, heq⟩ :=
    parseResourceLine_cases line sequence st
  · rw [heq]
    exact ⟨.refl hnamed, fun hok => absurd hok hne⟩
  · rw [heq]
    exact ⟨.of_eq hnamed rfl, fun hok => absurd hok hne⟩
  · rw [heq]
    exact ⟨.of_eq hnamed hsites, fun hok => by cases hok⟩
  · rw [heq] at h ⊢
    have hstart : SitesGrow st.model (ingestRunModel (lib.parseLine line).2
        (st.observeResource (lib.parseLine line).2)).2.model := .of_eq hnamed hsites
    obtain ⟨hgrow, hcopied⟩ := copyRecord_ok hkind hstart.named h
    exact ⟨hstart.trans hgrow, fun _ => hcopied⟩

/-- An accepted line leaves no error behind. -/
theorem parseResourceLine_error {line : List UInt8} {sequence : Nat} {st : State lib}
    (h : (parseResourceLine line sequence st).1 = .ok) :
    (parseResourceLine line sequence st).2.2.err.error = false := by
  obtain ⟨status, hne, heq⟩ | ⟨status, hne, heq⟩ | heq | ⟨-, heq⟩ :=
    parseResourceLine_cases line sequence st
  · rw [heq] at h
    exact absurd h hne
  · rw [heq] at h
    exact absurd h hne
  · rw [heq] at h
    cases h
  · rw [heq] at h ⊢
    dsimp only at h ⊢
    by_contra herror
    rw [if_pos (by simpa using herror)] at h
    cases h

/-! ## Call lines -/

/-- The stream health of the call log after a record. -/
def State.observeCall (record : ToolEventRecord) (st : State lib) : State lib :=
  { st with
    model := { st.model with
      callStreamHealth := lib.healthObserve st.model.callStreamHealth record } }

/-- The event of a call record: its metadata, its kind and line, and a copy of each text. -/
def CallEvent.ofRecord (record : ToolEventRecord) (sequence : Nat) : CallEvent :=
  let copy (text : Option Text) : Option Text := some (text.getD (lit ""))
  { copyCallMetadata record sequence with
    kind := if record.callKind = .enter then .enter else .exit
    lineNumber := record.lineNumber
    functionName := copy record.functionName
    callName := copy record.callName
    arguments := copy record.arguments
    result := copy record.result
    fileName := copy record.fileName }

@[simp] theorem CallEvent.ofRecord_sequence (record : ToolEventRecord) (sequence : Nat) :
    (CallEvent.ofRecord record sequence).sequence = sequence := rfl

/-- Copying a call record consumes allocations; the event is that of the record. -/
theorem copyCall_ok {record : ToolEventRecord} {sequence : Nat} {st : State lib} :
    let copied := copyCall record (copyCallMetadata record sequence) st
    copied.2.model = st.model ∧ (copied.2.err.error = false →
      st.err.error = false ∧ copied.1 = .ofRecord record sequence) := by
  refine ⟨rfl, fun h => ?_⟩
  dsimp only [copyCall] at h ⊢
  -- from the last copy back to the first
  have hresult := (State.dup_ok h).1
  have harguments := (State.dup_ok hresult).1
  have hcall := (State.dup_ok harguments).1
  have hfunction := (State.dup_ok hcall).1
  refine ⟨(State.dup_ok hfunction).1, ?_⟩
  rw [State.dup_value h, State.dup_value hresult, State.dup_value harguments,
    State.dup_value hcall, State.dup_value hfunction]
  rfl

/-- The outcomes for a call line, as for a resource line. -/
theorem parseCallLine_cases (line : List UInt8) (sequence : Nat) (st : State lib) :
    let record := (lib.parseLine line).2
    let observed := st.observeCall record
    let offered := ingestRunModel record observed
    let copied := copyCall record (copyCallMetadata record sequence) offered.2
    (∃ status, status ≠ .ok ∧ parseCallLine line sequence st = (status, {}, st)) ∨
      (∃ status, status ≠ .ok ∧ parseCallLine line sequence st = (status, {}, observed)) ∨
      parseCallLine line sequence st = (.malformed, {}, offered.2) ∨
      parseCallLine line sequence st =
        (if copied.2.err.error then .malformed else .ok, copied.1, copied.2) := by
  dsimp only
  rw [parseCallLine]
  generalize lib.parseLine line = parsed
  obtain ⟨status, record⟩ := parsed
  dsimp only
  split
  · by_cases hcomplete : record.recordKind = .complete
    · rw [if_pos hcomplete]
      exact Or.inr (Or.inl ⟨.complete, by simp, rfl⟩)
    · rw [if_neg hcomplete]
      by_cases hcall : record.recordKind ≠ .call
      · rw [if_pos hcall]
        exact Or.inr (Or.inl ⟨.other, by simp, rfl⟩)
      · rw [if_neg hcall]
        refine Or.inr (Or.inr ?_)
        simp only [State.observeCall]
        split
        · exact Or.inl rfl
        · exact Or.inr rfl
  · rename_i hstatus
    exact Or.inl ⟨_, hstatus, rfl⟩

/-- **Call lines.** Parsing one writes the stream health and the run model at most; without an error
an accepted line becomes the event of its record. -/
theorem parseCallLine_ok (line : List UInt8) (sequence : Nat) (st : State lib) :
    let parsed := parseCallLine line sequence st
    parsed.2.2.model = { st.model with
        callStreamHealth := parsed.2.2.model.callStreamHealth
        runModel := parsed.2.2.model.runModel } ∧
      (parsed.2.2.err.error = false → st.err.error = false) ∧
      (parsed.1 = .ok → parsed.2.2.err.error = false ∧
        parsed.2.1 = .ofRecord (lib.parseLine line).2 sequence) := by
  obtain ⟨hoffered, hofferedErr⟩ := ingestRunModel_frame (lib.parseLine line).2
    (st.observeCall (lib.parseLine line).2)
  dsimp only at hoffered hofferedErr ⊢
  obtain ⟨status, hne, heq⟩ | ⟨status, hne, heq⟩ | heq | heq :=
    parseCallLine_cases line sequence st
  · rw [heq]
    exact ⟨rfl, fun h => h, fun hok => absurd hok hne⟩
  · rw [heq]
    exact ⟨rfl, fun h => h, fun hok => absurd hok hne⟩
  · rw [heq]
    refine ⟨?_, hofferedErr, fun hok => by cases hok⟩
    dsimp only
    rw [hoffered]
    rfl
  · obtain ⟨hcopied, hcopiedOk⟩ := @copyCall_ok lib (lib.parseLine line).2 sequence
      (ingestRunModel (lib.parseLine line).2 (st.observeCall (lib.parseLine line).2)).2
    rw [heq]
    refine ⟨?_, fun h => hofferedErr (hcopiedOk h).1, fun hok => ?_⟩
    · dsimp only at hcopied ⊢
      rw [hcopied, hoffered]
      rfl
    · -- the status is `LINE_OK` only when the copies were made
      have herror : (copyCall (lib.parseLine line).2
          (copyCallMetadata (lib.parseLine line).2 sequence) (ingestRunModel (lib.parseLine line).2
            (st.observeCall (lib.parseLine line).2)).2).2.err.error = false := by
        by_contra herror
        dsimp only at hok
        rw [if_pos (by simpa using herror)] at hok
        cases hok
      exact ⟨herror, (hcopiedOk herror).2⟩

end P101Report
