import P101Report.Reading.SiteSafety

/-!
# What forwarding keeps of a record

An accepted record goes through a stored event and the site table before
`p101_report_ingest_generic` rebuilds it for the lifecycle library. Every field of its kind arrives
(`ForwardsAs`), with two deliberate exceptions: a missing second pointer arrives as `"-"`, the text
of a null pointer in the log, and any other missing text but `related_id` arrives as the empty text
(`resourceLog_forwards`).
-/

set_option autoImplicit false

namespace P101Report

open Runs

variable {lib : ToolEventLib}

/-- `rebuilt` agrees with `record` on the fields that its kind has. `copied` is what becomes of a
text, and `pointer` what becomes of the second pointer. -/
structure ForwardsAs (copied pointer : Option Text → Option Text)
    (record rebuilt : ToolEventRecord) : Prop where
  recordKind : rebuilt.recordKind = record.recordKind
  pid : rebuilt.pid = record.pid
  contextId : rebuilt.contextId = record.contextId
  sequence : rebuilt.sequence = record.sequence
  monotonicNs : rebuilt.monotonicNs = record.monotonicNs
  monotonicNsAvailable : rebuilt.monotonicNsAvailable = record.monotonicNsAvailable
  wallUnixNs : rebuilt.wallUnixNs = record.wallUnixNs
  wallUnixNsAvailable : rebuilt.wallUnixNsAvailable = record.wallUnixNsAvailable
  fileName : rebuilt.fileName = copied record.fileName
  functionName : rebuilt.functionName = copied record.functionName
  lineNumber : rebuilt.lineNumber = record.lineNumber
  fdKind : record.recordKind = .fd → rebuilt.fdKind = record.fdKind
  fd : record.recordKind = .fd ∨ record.recordKind = .exec → rebuilt.fd = record.fd
  allocKind : record.recordKind = .alloc → rebuilt.allocKind = record.allocKind
  ptr : record.recordKind = .alloc → rebuilt.ptr = copied record.ptr
  newPtr : record.recordKind = .alloc → rebuilt.newPtr = pointer record.newPtr
  size : record.recordKind = .alloc ∨ record.recordKind = .resource → rebuilt.size = record.size
  childPid : record.recordKind = .fork → rebuilt.childPid = record.childPid
  cloexec : record.recordKind = .exec → rebuilt.cloexec = record.cloexec
  target : record.recordKind = .exec ∨ record.recordKind = .execFail →
    rebuilt.target = copied record.target
  resourceKind : record.recordKind = .resource → rebuilt.resourceKind = record.resourceKind
  resourceClass : record.recordKind = .resource →
    rebuilt.resourceClass = copied record.resourceClass
  resourceId : record.recordKind = .resource → rebuilt.resourceId = copied record.resourceId
  relatedId : record.recordKind = .resource → rebuilt.relatedId = record.relatedId
  metadata : record.recordKind = .resource → rebuilt.metadata = copied record.metadata

/-- A text that is missing becomes `missing`. -/
def orText (missing : Text) (text : Option Text) : Option Text := some (text.getD missing)

/-- The kinds of records that become events of a forwarded kind. -/
def forwardedRecord : RecordKind → Bool
  | .fd | .alloc | .fork | .exec | .execFail | .resource => true
  | .spawn | .call | .complete => false

/-- The record rebuilt from the event of a record. -/
theorem lifecycleRecord_forwards {model : ReportModel lib} {record : ToolEventRecord}
    {sequence site : Nat} (hsite : model.sites.items[site]? = some record.site)
    (hkind : forwardedRecord record.recordKind = true) :
    ForwardsAs (orText (lit "")) (orText dash) record
      (lifecycleRecord model (.ofRecord record sequence site)) := by
  have hnames : model.sites.items[(ResourceEvent.ofRecord record sequence site).site]? =
      some record.site := by
    rw [ResourceEvent.ofRecord_site, hsite]
  rw [lifecycleRecord, hnames]
  rw [ResourceEvent.ofRecord]
  cases hrecord : record.recordKind with
  | fd =>
    cases hfd : record.fdKind with
    | opened => constructor <;> simp [hrecord, hfd] <;> rfl
    | closed => constructor <;> simp [hrecord, hfd] <;> rfl
  | alloc =>
    cases halloc : record.allocKind with
    | alloc => constructor <;> simp [hrecord, halloc] <;> rfl
    | free => constructor <;> simp [hrecord, halloc] <;> rfl
    | realloc => constructor <;> simp [hrecord, halloc] <;> rfl
  | fork => constructor <;> simp [hrecord] <;> rfl
  | exec => constructor <;> simp [hrecord] <;> rfl
  | execFail => constructor <;> simp [hrecord] <;> rfl
  | resource => constructor <;> simp [hrecord] <;> rfl
  | spawn | call | complete =>
    rw [hrecord] at hkind
    cases hkind

/-! ## The record handed over -/

/-- The library raises an error when it cannot create a lifecycle model. -/
def CreatesOrRaises (lib : ToolEventLib) : Prop :=
  ∀ allocations, (lib.lifecycleCreate allocations).value = none →
    (lib.lifecycleCreate allocations).raised = true

/-- The lifecycle model of `st'` is that of `st`, created when there is none, after the library has
ingested `record`. -/
def HandsOver (st st' : State lib) (record : ToolEventRecord) : Prop :=
  ∃ lifecycle,
    (st.model.genericLifecycle = some lifecycle ∨ st.model.genericLifecycle = none ∧
      ∃ allocations, (lib.lifecycleCreate allocations).value = some lifecycle) ∧
    ∃ allocations, st'.model.genericLifecycle =
      some (lib.lifecycleIngest lifecycle record allocations).value

theorem HandsOver.of_eq {st st₁ st₂ st' : State lib} {record : ToolEventRecord}
    (h : HandsOver st₁ st₂ record) (hstart : st₁.model.genericLifecycle = st.model.genericLifecycle)
    (hend : st'.model.genericLifecycle = st₂.model.genericLifecycle) :
    HandsOver st st' record := by
  rwa [HandsOver, hend, ← hstart]

theorem ingestGeneric_handsOver (hcreates : CreatesOrRaises lib) {event : ResourceEvent}
    {st : State lib} (h : (ingestGeneric event st).err.error = false) :
    HandsOver st (ingestGeneric event st) (lifecycleRecord st.model event) := by
  rw [ingestGeneric] at h ⊢
  cases hlifecycle : st.model.genericLifecycle with
  | some lifecycle => exact ⟨lifecycle, Or.inl hlifecycle, _, rfl⟩
  | none =>
    simp only [hlifecycle] at h ⊢
    cases hcreated : (lib.lifecycleCreate st.err.allocations).value with
    | none =>
      -- the library has raised an error
      rw [hcreated] at h
      have hraised := hcreates _ hcreated
      simp [ErrState.after, hraised] at h
    | some lifecycle => exact ⟨lifecycle, Or.inr ⟨hlifecycle, _, hcreated⟩, _, rfl⟩

/-- Committing and storing leave the lifecycle model alone. -/
theorem forwardState_lifecycle (event : ResourceEvent) (st : State lib) :
    (forwardState event st).model.genericLifecycle = st.model.genericLifecycle := by
  have hcommit := commitExec_keeps lifecycle_ignoresTables event st
  dsimp only at hcommit
  rw [forwardState, ← hcommit]
  generalize (if event.kind ≠ .exec ∧ event.kind ≠ .execFail then finishExec event.pid false st
    else st) = committed
  have hstored := addResourceEvent_keeps event committed
  simp only [Prod.mk.injEq] at hstored
  exact hstored.2.2

/-- An event of a forwarded kind reaches the library. -/
theorem ingestResource_handsOver (hcreates : CreatesOrRaises lib) {event : ResourceEvent}
    {st : State lib} (hkind : forwarded event.kind = true)
    (h : (ingestResource st event).err.error = false) :
    HandsOver st (ingestResource st event)
      (lifecycleRecord (forwardState event st).model event) := by
  rw [ingestResource_eq, if_pos hkind] at h ⊢
  split at h
  · rename_i herror
    rw [herror] at h
    cases h
  · rename_i herror
    rw [if_neg herror]
    -- the event has been stored, so that the rollback of an `EXECFAIL` finds a record
    have hstored : (ingestGeneric event (forwardState event st)).model.resources.items ≠ [] := by
      have htables := (addResourceEvent_tables event _ (Bool.eq_false_iff.2 herror)).2
      have hresources := congrArg Tables.resources
        ((ingestGeneric_tables event (forwardState event st)).1.trans htables)
      simp only [ReportModel.tables] at hresources
      simp [hresources, Tables.store]
    obtain ⟨hforward, -⟩ := ingestKind_tables event _ hstored h
    apply (ingestGeneric_handsOver hcreates hforward).of_eq (forwardState_lifecycle event st)
    exact ingestKind_keeps lifecycle_ignoresTables event _

/-! ## Lines -/

/-- The record rebuilt from an accepted line, in the state in which its event is forwarded. -/
def rebuiltRecord (st : State lib) (text : List UInt8) : ToolEventRecord :=
  let (_, event, st) := parseResourceLine text (st.model.resourceRecords + 1) st
  let model := st.model
  let counted : State lib :=
    { st with model := { model with resourceRecords := model.resourceRecords + 1 } }
  lifecycleRecord (forwardState event counted).model event

/-- What forwarding keeps of the record of a line: without an error, an accepted record of a
forwarded kind is handed to the library with every field of its kind. -/
def ForwardsRecord (st : State lib) (read : LineRead) : Prop :=
  ∀ text, read.status = .line text → resourceStatus st read = .ok →
    (resourceStep st read).err.error = false →
    forwardedRecord (lib.parseLine text).2.recordKind = true →
    HandsOver st (resourceStep st read) (rebuiltRecord st text) ∧
      ForwardsAs (orText (lit "")) (orText dash) (lib.parseLine text).2 (rebuiltRecord st text)

theorem forwarded_ofRecord (record : ToolEventRecord) (sequence site : Nat)
    (h : forwardedRecord record.recordKind = true) :
    forwarded (ResourceEvent.ofRecord record sequence site).kind = true := by
  rw [ResourceEvent.ofRecord]
  cases hrecord : record.recordKind with
  | fd => cases record.fdKind <;> rfl
  | alloc => cases record.allocKind <;> rfl
  | fork | exec | execFail | resource => rfl
  | spawn | call | complete =>
    rw [hrecord] at h
    cases h

/-- **An accepted line.** -/
theorem readResourceLine_forwards (hcreates : CreatesOrRaises lib) {text : List UInt8}
    {st : State lib} (hnamed : SitesNamed st.model)
    (hok : (parseResourceLine text (st.model.resourceRecords + 1) st).1 = .ok)
    (h : (readResourceLine text st).err.error = false)
    (hkind : forwardedRecord (lib.parseLine text).2.recordKind = true) :
    HandsOver st (readResourceLine text st) (rebuiltRecord st text) ∧
      ForwardsAs (orText (lit "")) (orText dash) (lib.parseLine text).2
        (rebuiltRecord st text) := by
  obtain ⟨hframe, -⟩ := parseResourceLine_frame text (st.model.resourceRecords + 1) st
  obtain ⟨-, hevent⟩ := parseResourceLine_ok hnamed (parseResourceLine_error hok)
  rw [readResourceLine] at h ⊢
  rw [rebuiltRecord]
  generalize parseResourceLine text (st.model.resourceRecords + 1) st = parsed
    at hok h hframe hevent ⊢
  obtain ⟨status, event, st'⟩ := parsed
  dsimp only at hok h hframe hevent ⊢
  obtain ⟨site, rfl, hsite⟩ := hevent hok
  subst hok
  rw [countResource] at h ⊢
  constructor
  · apply (ingestResource_handsOver hcreates (forwarded_ofRecord _ _ _ hkind) h).of_eq _ rfl
    -- parsing and counting do not touch the lifecycle model
    rw [hframe]
  · apply lifecycleRecord_forwards _ hkind
    rw [forwardState_sites]
    exact hsite

/-- A line that is not accepted, or read with an error, is no record to forward. -/
theorem resourceStep_forwards (hcreates : CreatesOrRaises lib) {st : State lib} (read : LineRead)
    (hnamed : st.err.error = false → SitesNamed st.model) : ForwardsRecord st read := by
  intro text hstatus hok h hkind
  have hstart := resourceStep_sticky read st h
  have hraised := readStep_raised (countResource_sticky _ _) readResourceLine_sticky h
  rw [resourceStatus, hstatus] at hok
  rw [resourceStep, readStep] at h ⊢
  simp only [hstatus, hraised] at hok h ⊢
  exact readResourceLine_forwards hcreates (hnamed hstart) hok h hkind

/-- Without an error the site table keeps its names along the lines of a log. -/
theorem resourceStep_named {st : State lib} {read : LineRead}
    (hnamed : st.err.error = false → SitesNamed st.model)
    (h : (resourceStep st read).err.error = false) : SitesNamed (resourceStep st read).model := by
  have hsites := hnamed (resourceStep_sticky read st h)
  have hraised := readStep_raised (countResource_sticky _ _) readResourceLine_sticky h
  rw [resourceStep, readStep] at h ⊢
  rw [hraised] at h ⊢
  cases hstatus : read.status with
  | error => exact hsites
  | malformed => exact hsites
  | line text =>
    simp only [hstatus] at h ⊢
    have hparse := countResource_sticky _ _ _ h
    obtain ⟨hgrow, -⟩ := parseResourceLine_ok hsites hparse
    obtain ⟨hcounted, -⟩ := countResource_stores h
    exact (hgrow.trans (.of_eq hgrow.named hcounted)).named

/-- **What forwarding keeps.** Along the lines of any log, each accepted record of a forwarded kind
is handed to the library with every field of its kind, as long as no error has been raised. -/
theorem resourceLog_forwards (hcreates : CreatesOrRaises lib) (health : lib.HealthInner)
    (runModel : Option lib.RunModel) (err : ErrState) (reads : List LineRead) :
    EveryStep resourceStep ForwardsRecord (startState health runModel err) reads := by
  let inv : State lib → Prop := fun st => st.err.error = false → SitesNamed st.model
  have hstep : ∀ (st : State lib) (read : LineRead), True → inv st → inv (resourceStep st read) :=
    fun st read _ hnamed h => resourceStep_named hnamed h
  have hstart : inv (startState health runModel err) :=
    fun _ site hsite => absurd hsite List.not_mem_nil
  have hevery : EveryStep resourceStep (fun _ _ => True) (startState health runModel err) reads :=
    .of_forall_mem (fun _ _ => trivial) _
  apply (hevery.strengthen hstep hstart).imp
  exact fun st read h => resourceStep_forwards hcreates read h.2

/-! ## Records without texts -/

def nullLine : List UInt8 :=
  ascii "P101ALLOC\t5\ttest-run\t123\t7\t1\t100\t200\tALLOC\t-\t-\t0\t10\tmain\tfixture.c"

def mappingLine : List UInt8 :=
  ascii "P101RESOURCE\t5\ttest-run\t123\t7\t2\t110\t210\tACQUIRE\tmapping\tm1\t-\t4096\t-" ++
    ascii "\t11\tmain\tfixture.c"

/-- A library that reads a `"-"` of these lines as a missing text. -/
def nullLib : ToolEventLib := logLib [
  (nullLine, fixtureRecord .alloc 1 100 10),
  (mappingLine,
    { fixtureRecord .resource 2 110 11 with
      resourceClass := some (lit "mapping"), resourceId := some (lit "m1"), size := 4096 })]

def nullStart : State nullLib := startState () none ⟨false, []⟩

def nullReads : List LineRead := [⟨.line nullLine, false⟩, ⟨.line mappingLine, false⟩]

/-- Both records are forwarded. -/
theorem resourceLog_forwards_null :
    (accepted resourceStatus resourceStep nullStart nullReads).length = 2 ∧
      (nullReads.foldl resourceStep nullStart).err.error = false ∧
      EveryStep resourceStep ForwardsRecord nullStart nullReads := by
  refine ⟨by decide, by decide, ?_⟩
  apply resourceLog_forwards
  intro allocations h
  cases h

/-- Missing texts do not stay missing: the pointers of the allocation arrive as `""` and `"-"`, the
metadata of the mapping as `""`. -/
theorem resourceLog_forwards_absent :
    let mapped := resourceStep nullStart ⟨.line nullLine, false⟩
    ((nullLib.parseLine nullLine).2.ptr, (nullLib.parseLine nullLine).2.newPtr) = (none, none) ∧
      ((rebuiltRecord nullStart nullLine).ptr, (rebuiltRecord nullStart nullLine).newPtr) =
        (some (lit ""), some dash) ∧
      ¬ ForwardsAs id id (nullLib.parseLine nullLine).2 (rebuiltRecord nullStart nullLine) ∧
      (nullLib.parseLine mappingLine).2.metadata = none ∧
      (rebuiltRecord mapped mappingLine).metadata = some (lit "") ∧
      ¬ ForwardsAs id id (nullLib.parseLine mappingLine).2 (rebuiltRecord mapped mappingLine) := by
  intro mapped
  have hpointers : (rebuiltRecord nullStart nullLine).newPtr = some dash := by decide
  have hmetadata : (rebuiltRecord mapped mappingLine).metadata = some (lit "") := by decide
  refine ⟨by decide, by decide, ?_, by decide, hmetadata, ?_⟩
  · intro h
    have hnewPtr := h.newPtr (by decide)
    rw [hpointers] at hnewPtr
    exact absurd hnewPtr (by decide)
  · intro h
    have hcopied := h.metadata (by decide)
    rw [hmetadata] at hcopied
    exact absurd hcopied (by decide)

end P101Report
