import P101Report.Memory.Replay
import P101Report.Reading.Readers

/-!
# Reading the logs in memory

The parser copies the texts of a record (`parseResourceLine_represents`,
`parseCallLine_represents`), the replay copies those it keeps, and the reader frees the first copies
behind the record. So a line of the resource log changes what the tables own and nothing else
(`readResourceLine_represents`).
-/

set_option autoImplicit false

namespace P101Report

open Ownership

variable {lib : ToolEventLib} {α : Type} [DecidableEq α] {own : Multiset α}
  {m m' start : Memory lib α} {st : State lib} {model : ReportModel lib} {err : ErrState}
  {ps : List (Option α)} {copies : List (Option Text)}

/-! ## The copies of a record -/

/-- One more text of the line is copied. -/
theorem Copied.dup (h : Copied own start m model err ps copies) {text : Option Text}
    {p : Option α} (hdup : m.dup text = (p, m')) :
    ∃ copy err', State.dup text (⟨model, err⟩ : State lib) = (copy, ⟨model, err'⟩) ∧
      Copied own start m' model err' (ps ++ [p]) (copies ++ [copy]) := by
  obtain ⟨copy, err', hcopy, hnext⟩ := h.dupText (CharPtr.reads_outside _ text) hdup
  refine ⟨copy, err', ?_, hnext⟩
  simp only [State.dup, hcopy]

/-- The site of the record is interned behind its copies. -/
theorem Copied.recordSite (h : Copied own start m model err ps copies) {record : ToolEventRecord}
    {site : Nat} (hsite : m.recordSite record = (site, m')) :
    ∃ st', State.recordSite record ⟨model, err⟩ = (site, st') ∧
      Represents (blocks ps + own) m' st' ∧ ps.map (Option.map m'.heap.content) = copies := by
  obtain ⟨st', hintern, hext, hnext⟩ := internSite_represents h.represents hsite
  refine ⟨st', hintern, hnext, ?_⟩
  rw [← h.values]
  apply List.map_congr_left
  apply map_congr_blocks
  intro a ha
  apply hext.content a
  exact h.represents.mem_live.2 (Or.inr (Multiset.mem_add.2 (Or.inl ha)))

/-- The records of a process with a target: one text is copied, and the site interned. -/
theorem Copied.targetSite (h : Copied own m m model err [] []) {text : Option Text} {p : Option α}
    {m₁ : Memory lib α} (hdup : m.dup text = (p, m₁)) {record : ToolEventRecord} {site : Nat}
    (hsite : m₁.recordSite record = (site, m')) :
    ∃ err₁ st', State.dup text (⟨model, err⟩ : State lib) =
        (p.map m'.heap.content, ⟨model, err₁⟩) ∧
      State.recordSite record ⟨model, err₁⟩ = (site, st') ∧
      Represents (block p + own) m' st' := by
  obtain ⟨copy, err₁, hcopy, h₁⟩ := h.dup hdup
  obtain ⟨st', hintern, hrep, hcopies⟩ := h₁.recordSite hsite
  obtain rfl : p.map m'.heap.content = copy := by simpa using hcopies
  exact ⟨err₁, st', hcopy, hintern, by simpa using hrep⟩

/-- What the parser has made of a record: the running function owns the texts of the event. -/
structure Parsed {κ ν : Type} (L : Layout α Text κ ν) (own : Multiset α) (m : Memory lib α)
    (event : κ) (value : ν) (st : State lib) : Prop where
  represents : Represents (blocks (L.pointers event) + own) m st
  read : L.value m.heap.content event = value

omit [DecidableEq α] in
/-- The status of a record that has been copied. -/
theorem Parsed.status {κ ν : Type} {L : Layout α Text κ ν} {copied : κ × Memory lib α} {event : κ}
    {value : ν} {status : LineStatus} (h : Parsed L own copied.2 copied.1 value st)
    (hcopy : (if copied.2.rest.err.error then LineStatus.malformed else .ok, copied) =
      (status, event, m')) :
    (if st.err.error then LineStatus.malformed else .ok) = status ∧
      Parsed L own m' event value st := by
  rw [h.represents.err] at hcopy
  cases hcopy
  exact ⟨rfl, h⟩

/-- **The copies of a resource record** belong to the parser. -/
theorem copyRecord_represents (h : Represents own m st) (record : ToolEventRecord)
    (sequence : Nat) {event : EventCell α}
    (hcopy : m.copyRecord record (copyResourceMetadata record sequence) = (event, m')) :
    ∃ value st', copyRecord record (copyResourceMetadata record sequence) st = (value, st') ∧
      Parsed eventLayout own m' event value st' := by
  obtain ⟨model, err⟩ := st
  have hnil : Copied own m m model err [] [] := Copied.nil h
  cases hkind : record.recordKind with
  | fd | fork =>
    rcases hsite : m.recordSite record with ⟨site, m₁⟩
    simp only [Memory.copyRecord, hkind, hsite, Prod.mk.injEq] at hcopy
    obtain ⟨rfl, rfl⟩ := hcopy
    obtain ⟨st₁, hsite', hrep, -⟩ := hnil.recordSite hsite
    refine ⟨_, st₁, ?_, hrep, rfl⟩
    simp only [copyRecord, hkind, hsite']
    rfl
  | alloc =>
    rcases hptr : m.dup record.ptr with ⟨p₁, m₁⟩
    rcases hnew : m₁.dup (some (record.newPtr.getD dash)) with ⟨p₂, m₂⟩
    rcases hsite : m₂.recordSite record with ⟨site, m₃⟩
    simp only [Memory.copyRecord, hkind, hptr, hnew, hsite, Prod.mk.injEq] at hcopy
    obtain ⟨rfl, rfl⟩ := hcopy
    obtain ⟨c₁, err₁, hc₁, h₁⟩ := hnil.dup hptr
    obtain ⟨c₂, err₂, hc₂, h₂⟩ := h₁.dup hnew
    obtain ⟨st₃, hsite', hrep, hcopies⟩ := h₂.recordSite hsite
    obtain ⟨rfl, rfl⟩ : p₁.map m₃.heap.content = c₁ ∧ p₂.map m₃.heap.content = c₂ := by
      simpa using hcopies
    refine ⟨_, st₃, ?_, ?_, rfl⟩
    · simp only [copyRecord, hkind, hc₁, hc₂, hsite']
      rfl
    · simpa [eventLayout, EventCell.pointers] using hrep
  | spawn | exec | execFail =>
    rcases htarget : m.dup record.target with ⟨p, m₁⟩
    rcases hsite : m₁.recordSite record with ⟨site, m₂⟩
    simp only [Memory.copyRecord, hkind, htarget, hsite, Prod.mk.injEq] at hcopy
    obtain ⟨rfl, rfl⟩ := hcopy
    obtain ⟨err₁, st₂, hcopy', hsite', hrep⟩ := hnil.targetSite htarget hsite
    refine ⟨_, st₂, ?_, by simpa [eventLayout, EventCell.pointers] using hrep, rfl⟩
    simp only [copyRecord, hkind, hcopy', hsite']
    rfl
  | resource =>
    rcases hclass : m.dup record.resourceClass with ⟨p₁, m₁⟩
    rcases hid : m₁.dup record.resourceId with ⟨p₂, m₂⟩
    rcases hrelated : m₂.dupField (.outside record.relatedId) with ⟨p₃, m₃⟩
    rcases hmetadata : m₃.dup record.metadata with ⟨p₄, m₄⟩
    rcases hsite : m₄.recordSite record with ⟨site, m₅⟩
    simp only [Memory.copyRecord, hkind, hclass, hid, hrelated, hmetadata, hsite,
      Prod.mk.injEq] at hcopy
    obtain ⟨rfl, rfl⟩ := hcopy
    obtain ⟨c₁, err₁, hc₁, h₁⟩ := hnil.dup hclass
    obtain ⟨c₂, err₂, hc₂, h₂⟩ := h₁.dup hid
    obtain ⟨c₃, err₃, hc₃, h₃⟩ := h₂.dupField (CharPtr.reads_outside _ record.relatedId) hrelated
    obtain ⟨c₄, err₄, hc₄, h₄⟩ := h₃.dup hmetadata
    obtain ⟨st₅, hsite', hrep, hcopies⟩ := h₄.recordSite hsite
    obtain ⟨rfl, rfl, rfl, rfl⟩ : p₁.map m₅.heap.content = c₁ ∧ p₂.map m₅.heap.content = c₂ ∧
        p₃.map m₅.heap.content = c₃ ∧ p₄.map m₅.heap.content = c₄ := by
      simpa using hcopies
    refine ⟨_, st₅, ?_, by simpa [eventLayout, EventCell.pointers, add_assoc] using hrep, rfl⟩
    simp only [copyRecord, hkind, hc₁, hc₂]
    cases hsome : record.relatedId with
    | none =>
      rw [hsome] at hc₃
      obtain ⟨hnone, rfl⟩ := Prod.mk.inj hc₃
      obtain rfl := Option.map_eq_none_iff.1 hnone.symm
      simp only [hc₄, hsite']
      rfl
    | some id =>
      rw [hsome, dupField] at hc₃
      have hc₃' : State.dup (some id) (⟨model, err₂⟩ : State lib) =
          (p₃.map m₅.heap.content, ⟨model, err₃⟩) := by
        simp only [State.dup, hc₃]
      simp only [hc₃', hc₄, hsite']
      rfl
  | call | complete =>
    simp only [Memory.copyRecord, hkind, Prod.mk.injEq] at hcopy
    obtain ⟨rfl, rfl⟩ := hcopy
    refine ⟨_, ⟨model, err⟩, ?_, hnil.represents, rfl⟩
    simp only [copyRecord, hkind]
    rfl

/-! ## Lines of the resource log -/

omit [DecidableEq α] in
/-- A line without an event: the parser has copied nothing. -/
theorem Parsed.noEvent (h : Represents own m st) :
    Parsed eventLayout own m {} {} st where
  represents := by
    simpa [eventLayout, EventCell.pointers] using h
  read := rfl

theorem keepsTexts_ingestRunModel (record : ToolEventRecord) :
    KeepsTexts fun st : State lib => (ingestRunModel record st).2 := by
  intro st
  dsimp only
  rw [ingestRunModel]
  split <;> rfl

omit [DecidableEq α] in
/-- The run model sees the record, and none of the texts. -/
theorem ingestRunModel_represents (h : Represents own m st) (record : ToolEventRecord) :
    (m.ingestRunModel record).1 = (ingestRunModel record st).1 ∧
      Represents own (m.ingestRunModel record).2 (ingestRunModel record st).2 := by
  refine ⟨?_, h.step (keepsTexts_ingestRunModel record)⟩
  rw [← h.state]
  rfl

theorem parseResourceLine_represents (h : Represents own m st) {line : List UInt8}
    {sequence : Nat} {status : LineStatus} {event : EventCell α}
    (hparse : m.parseResourceLine line sequence = (status, event, m')) :
    ∃ value st', parseResourceLine line sequence st = (status, value, st') ∧
      Parsed eventLayout own m' event value st' := by
  rcases hline : lib.parseLine line with ⟨parsed, record⟩
  rw [Memory.parseResourceLine, hline] at hparse
  rw [parseResourceLine, hline]
  dsimp only at hparse ⊢
  generalize mapParseStatus parsed = mapped at hparse ⊢
  -- both sides take the same way to the copies
  have hobserved := h.step (f := fun st : State lib => { st with
    model := { st.model with
      resourceStreamHealth := lib.healthObserve st.model.resourceStreamHealth record } })
    fun _ => rfl
  obtain ⟨haccepted, hoffered⟩ := ingestRunModel_represents hobserved record
  cases mapped with
  | ok =>
    dsimp only at hparse ⊢
    by_cases hcomplete : record.recordKind = .complete
    · rw [if_pos hcomplete] at hparse ⊢
      cases hparse
      exact ⟨_, _, rfl, .noEvent hobserved⟩
    · rw [if_neg hcomplete] at hparse ⊢
      by_cases hcall : record.recordKind = .call
      · rw [if_pos hcall] at hparse ⊢
        cases hparse
        exact ⟨_, _, rfl, .noEvent hobserved⟩
      · rw [if_neg hcall] at hparse ⊢
        rw [haccepted] at hparse
        split at hparse <;> rename_i hrefused
        · rw [if_pos hrefused]
          cases hparse
          exact ⟨_, _, rfl, .noEvent hoffered⟩
        · rw [if_neg hrefused]
          obtain ⟨value, st', hcopy, hcopied⟩ :=
            copyRecord_represents hoffered record sequence Prod.mk.eta.symm
          obtain ⟨rfl, hevent⟩ := hcopied.status hparse
          rw [hcopy]
          exact ⟨value, st', rfl, hevent⟩
  | _ =>
    cases hparse
    exact ⟨_, _, rfl, .noEvent h⟩

omit [DecidableEq α] in
/-- What an event stands for stays, as long as the running function owns it. -/
theorem Parsed.heldBy {event : EventCell α} {value : ResourceEvent}
    (h : Parsed eventLayout own m event value st) :
    event.HeldBy (blocks event.pointers + own) m value where
  owned _ ha := Multiset.mem_add.2 (Or.inl ha)
  read := h.read

theorem countResource_represents {status : LineStatus} {event : EventCell α}
    {value : ResourceEvent} (h : Parsed eventLayout own m event value st) :
    Represents (blocks event.pointers + own) (m.countResource status event)
      (countResource status value st) := by
  cases status with
  | ok =>
    have hcounted := Follows.step (f := fun st : State lib => { st with
      model := { st.model with resourceRecords := st.model.resourceRecords + 1 } })
      (fun _ => rfl) h.represents
    exact (ingestResource_represents hcounted.represents (h.heldBy.follows hcounted)).represents
  | other => exact h.represents.step (f := countResource .other {}) fun _ => rfl
  | complete => exact h.represents.step (f := countResource .complete {}) fun _ => rfl
  | malformed => exact h.represents.step (f := countResource .malformed {}) fun _ => rfl
  | badVersion => exact h.represents.step (f := countResource .badVersion {}) fun _ => rfl

/-- **A line of the resource log**: what the parser has copied is freed behind it. -/
theorem readResourceLine_represents (h : Represents own m st) (text : List UInt8) :
    Represents own (m.readResourceLine text) (readResourceLine text st) := by
  have hcount : m.rest.model.resourceRecords = st.model.resourceRecords := by
    rw [← h.state]
    rfl
  -- the running function owns the event while it is replayed
  rcases hparse : m.parseResourceLine text (m.rest.model.resourceRecords + 1) with
    ⟨status, event, m'⟩
  obtain ⟨value, st', hstate, hparsed⟩ := parseResourceLine_represents h hparse
  rw [Memory.readResourceLine, hparse, readResourceLine, ← hcount, hstate]
  exact (countResource_represents hparsed).freeAll

/-! ## Lines of the call log -/

theorem copyCall_represents (h : Represents own m st) (record : ToolEventRecord) (sequence : Nat)
    {event : CallCell α}
    (hcopy : m.copyCall record (copyCallMetadata record sequence) = (event, m')) :
    ∃ value st', copyCall record (copyCallMetadata record sequence) st = (value, st') ∧
      Parsed callLayout own m' event value st' := by
  obtain ⟨model, err⟩ := st
  rcases hfunction : m.dup record.functionName with ⟨p₁, m₁⟩
  rcases hcall : m₁.dup record.callName with ⟨p₂, m₂⟩
  rcases harguments : m₂.dup record.arguments with ⟨p₃, m₃⟩
  rcases hresult : m₃.dup record.result with ⟨p₄, m₄⟩
  rcases hfile : m₄.dup record.fileName with ⟨p₅, m₅⟩
  simp only [Memory.copyCall, hfunction, hcall, harguments, hresult, hfile,
    Prod.mk.injEq] at hcopy
  obtain ⟨rfl, rfl⟩ := hcopy
  obtain ⟨c₁, err₁, hc₁, h₁⟩ := (Copied.nil h).dup hfunction
  obtain ⟨c₂, err₂, hc₂, h₂⟩ := h₁.dup hcall
  obtain ⟨c₃, err₃, hc₃, h₃⟩ := h₂.dup harguments
  obtain ⟨c₄, err₄, hc₄, h₄⟩ := h₃.dup hresult
  obtain ⟨c₅, err₅, hc₅, h₅⟩ := h₄.dup hfile
  have hcopies : [p₁, p₂, p₃, p₄, p₅].map (Option.map m₅.heap.content) = [c₁, c₂, c₃, c₄, c₅] :=
    h₅.values
  obtain ⟨rfl, rfl, rfl, rfl, rfl⟩ : p₁.map m₅.heap.content = c₁ ∧
      p₂.map m₅.heap.content = c₂ ∧ p₃.map m₅.heap.content = c₃ ∧
      p₄.map m₅.heap.content = c₄ ∧ p₅.map m₅.heap.content = c₅ := by
    simpa using hcopies
  refine ⟨_, ⟨model, err₅⟩, ?_, h₅.represents, rfl⟩
  simp only [copyCall, hc₁, hc₂, hc₃, hc₄, hc₅]
  rfl

omit [DecidableEq α] in
/-- A line without a call: the parser has copied nothing. -/
theorem Parsed.noCall (h : Represents own m st) : Parsed callLayout own m {} {} st where
  represents := by
    simpa [callLayout, CallCell.pointers] using h
  read := rfl

theorem parseCallLine_represents (h : Represents own m st) {line : List UInt8} {sequence : Nat}
    {status : LineStatus} {event : CallCell α}
    (hparse : m.parseCallLine line sequence = (status, event, m')) :
    ∃ value st', parseCallLine line sequence st = (status, value, st') ∧
      Parsed callLayout own m' event value st' := by
  rcases hline : lib.parseLine line with ⟨parsed, record⟩
  rw [Memory.parseCallLine, hline] at hparse
  rw [parseCallLine, hline]
  dsimp only at hparse ⊢
  generalize mapParseStatus parsed = mapped at hparse ⊢
  have hobserved := h.step (f := fun st : State lib => { st with
    model := { st.model with
      callStreamHealth := lib.healthObserve st.model.callStreamHealth record } })
    fun _ => rfl
  obtain ⟨haccepted, hoffered⟩ := ingestRunModel_represents hobserved record
  cases mapped with
  | ok =>
    dsimp only at hparse ⊢
    by_cases hcomplete : record.recordKind = .complete
    · rw [if_pos hcomplete] at hparse ⊢
      cases hparse
      exact ⟨_, _, rfl, .noCall hobserved⟩
    · rw [if_neg hcomplete] at hparse ⊢
      by_cases hcall : record.recordKind ≠ .call
      · rw [if_pos hcall] at hparse ⊢
        cases hparse
        exact ⟨_, _, rfl, .noCall hobserved⟩
      · rw [if_neg hcall] at hparse ⊢
        rw [haccepted] at hparse
        split at hparse <;> rename_i hrefused
        · rw [if_pos hrefused]
          cases hparse
          exact ⟨_, _, rfl, .noCall hoffered⟩
        · rw [if_neg hrefused]
          obtain ⟨value, st', hcopy, hcopied⟩ :=
            copyCall_represents hoffered record sequence Prod.mk.eta.symm
          obtain ⟨rfl, hevent⟩ := hcopied.status hparse
          rw [hcopy]
          exact ⟨value, st', rfl, hevent⟩
  | _ =>
    cases hparse
    exact ⟨_, _, rfl, .noCall h⟩

end P101Report
