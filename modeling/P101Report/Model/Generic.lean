import P101Report.Model.Support

/-!
# The lifecycle library behind the report

`src/model_generic.c`: the record rebuilt for the lifecycle library, and the findings the library
returns mapped to report findings.
-/

set_option autoImplicit false

namespace P101Report

variable {lib : ToolEventLib}

/-- The record `p101_report_ingest_generic` hands to the lifecycle library. -/
def lifecycleRecord (model : ReportModel lib) (event : ResourceEvent) : ToolEventRecord :=
  let site := model.sites.items[event.site]?
  let runId := model.resourceStreamHealth.runId
  let record : ToolEventRecord :=
    { version := lib.logVersion
      runId := some (if runId = lit "" then lit "p101-report-internal" else runId)
      recordKind := .resource
      pid := event.pid
      contextId := event.contextId
      sequence := event.eventSequence
      monotonicNs := event.monotonicNs
      monotonicNsAvailable := event.monotonicNsAvailable
      wallUnixNs := event.wallUnixNs
      wallUnixNsAvailable := event.wallUnixNsAvailable
      lineNumber := (site.map (·.lineNumber)).getD 0
      functionName := site.bind (·.functionName)
      fileName := site.bind (·.fileName) }
  match event.kind with
  | .fdOpen => { record with recordKind := .fd, fdKind := .opened, fd := event.fd }
  | .fdClose => { record with recordKind := .fd, fdKind := .closed, fd := event.fd }
  | .alloc =>
    { record with
      recordKind := .alloc, allocKind := .alloc, ptr := event.ptr, newPtr := event.newPtr
      size := event.size }
  | .free =>
    { record with
      recordKind := .alloc, allocKind := .free, ptr := event.ptr, newPtr := event.newPtr
      size := event.size }
  | .realloc =>
    { record with
      recordKind := .alloc, allocKind := .realloc, ptr := event.ptr, newPtr := event.newPtr
      size := event.size }
  | .exec =>
    { record with
      recordKind := .exec, fd := event.fd, cloexec := event.cloexec, target := event.target }
  | .execFail =>
    { record with
      recordKind := .execFail, fd := event.fd, cloexec := event.cloexec, target := event.target }
  | .fork => { record with recordKind := .fork, childPid := event.childPid }
  | .spawn | .generic =>
    { record with
      resourceKind := event.genericKind, resourceClass := event.resourceClass
      resourceId := event.resourceId, relatedId := event.relatedId, metadata := event.metadata
      size := event.size }

/-- `p101_report_ingest_generic`: the lifecycle model is created on first use. -/
def ingestGeneric (event : ResourceEvent) (st : State lib) : State lib :=
  let created : Option lib.Lifecycle × ErrState :=
    match st.model.genericLifecycle with
    | some lifecycle => (some lifecycle, st.err)
    | none =>
      let result := lib.lifecycleCreate st.err.allocations
      (result.value, st.err.after result)
  match created with
  | (none, err) => { st with err }
  | (some lifecycle, err) =>
    let result := lib.lifecycleIngest lifecycle (lifecycleRecord st.model event) err.allocations
    { model := { st.model with genericLifecycle := some result.value }, err := err.after result }

/-- `p101_report_generic_finding_kind`. -/
def genericFindingKind (finding : LifecycleFinding) : FindingKind :=
  if finding.resourceClass = some (lit "fd") then
    match finding.kind with
    | .leak => .fdLeak
    | .duplicateAcquire => .resourceDuplicateAcquire
    | .doubleRelease => .doubleClose
    | .strayRelease | .badReplace => .strayClose
  else if finding.resourceClass = some (lit "allocation") then
    match finding.kind with
    | .leak => .allocLeak
    | .badReplace => .badRealloc
    | .duplicateAcquire => .resourceDuplicateAcquire
    | .doubleRelease => .doubleFree
    | .strayRelease => .strayFree
  else
    match finding.kind with
    | .leak => .resourceLeak
    | .doubleRelease => .resourceDoubleRelease
    | .strayRelease => .resourceStrayRelease
    | .badReplace => .resourceBadReplace
    | .duplicateAcquire => .resourceDuplicateAcquire

/-- Whether a stored event is of a finding's class: its own class, or the class its kind stands
for. -/
def eventOfClass (event : ResourceEvent) (resourceClass : Option Text) : Bool :=
  match event.resourceClass with
  | some own => some own == resourceClass
  | none =>
    if event.kind = .fdOpen ∨ event.kind = .fdClose then resourceClass == some (lit "fd")
    else resourceClass == some (lit "allocation")

/-- `p101_report_find_generic_sequence`. -/
def findGenericSequence (resources : List ResourceEvent) (finding : LifecycleFinding)
    (previous : Bool) : Nat :=
  let contextId := if previous then finding.previousContextId else finding.contextId
  let eventSequence := if previous then finding.previousSequence else finding.sequence
  let found := resources.find? fun event =>
    event.pid == finding.pid && event.eventSequence == eventSequence &&
      event.contextId == contextId && eventOfClass event finding.resourceClass
  match found with
  | some event => event.sequence
  | none => eventSequence

/-- `p101_report_find_lifecycle_event`. -/
def findLifecycleEvent (resources : List ResourceEvent) (finding : LifecycleFinding) :
    Option ResourceEvent :=
  resources.find? fun event =>
    event.pid == finding.pid && event.contextId == finding.contextId &&
      event.eventSequence == finding.sequence

/-- The loop body of `p101_report_finalize_generic` for one lifecycle finding. -/
def finalizeFinding (source : LifecycleFinding) (st : State lib) : State lib :=
  let (site, st) := internSite source.fileName source.functionName source.lineNumber st
  let finding : Finding :=
    { kind := genericFindingKind source
      pid := source.pid
      resourceClass := source.resourceClass
      resourceId := source.resourceId
      contextId := source.contextId
      eventSequence := source.sequence
      site := site
      sequence := findGenericSequence st.model.resources.items source false }
  let finding : Finding :=
    match findLifecycleEvent st.model.resources.items source with
    | some event => { finding with fd := event.fd, ptr := event.ptr, size := event.size }
    | none => finding
  if source.previousSequence ≠ 0 then
    let (previousSite, st) :=
      internSite source.previousFileName source.previousFunctionName source.previousLineNumber st
    let previousSequence := findGenericSequence st.model.resources.items source true
    addFindingInternal { finding with previousSite, previousSequence } st
  else addFindingInternal finding st

/-- The loop of `p101_report_finalize_generic`; it stops at the first error, and a null pointer
raises one. -/
def finalizeFindings : List (Option LifecycleFinding) → State lib → State lib
  | [], st => st
  | none :: _, st => if st.err.error then st else { st with err := st.err.raise }
  | some source :: rest, st =>
    if st.err.error then st else finalizeFindings rest (finalizeFinding source st)

/-- The loop ends with an error where the library has no finding to give. -/
theorem finalizeFindings_null (rest : List (Option LifecycleFinding)) (st : State lib) :
    (finalizeFindings (none :: rest) st).err.error = true := by
  rw [finalizeFindings]
  split
  · assumption
  · rfl

/-- A step of the loop. -/
theorem finalizeFindings_some {st : State lib} (h : st.err.error = false)
    (source : LifecycleFinding) (rest : List (Option LifecycleFinding)) :
    finalizeFindings (some source :: rest) st = finalizeFindings rest (finalizeFinding source st) :=
  if_neg (by rw [h]; exact Bool.false_ne_true)

/-- The comparisons of the loop body: the class of the finding is compared, and its sites are
searched for. Once the class has been compared, so can it be in `findGenericSequence`. -/
def finalizeFindingFaults (source : LifecycleFinding) (st : State lib) : Bool :=
  source.resourceClass.isNone ||
    internSiteFaults source.fileName source.functionName source.lineNumber
      st.model.sites.items ||
    (source.previousSequence != 0 &&
      internSiteFaults source.previousFileName source.previousFunctionName
        source.previousLineNumber
        (internSite source.fileName source.functionName source.lineNumber
          st).2.model.sites.items)

/-- The comparisons of the loop. -/
def finalizeFindingsFault : List (Option LifecycleFinding) → State lib → Bool
  | some source :: rest, st =>
    !st.err.error &&
      (finalizeFindingFaults source st || finalizeFindingsFault rest (finalizeFinding source st))
  | _, _ => false

/-- The findings that such a loop reads: those before the first null pointer. -/
def readFindings : List (Option LifecycleFinding) → List LifecycleFinding
  | some source :: rest => source :: readFindings rest
  | _ => []

/-- The findings of a lifecycle model. -/
def ToolEventLib.lifecycleFindings (lib : ToolEventLib) (lifecycle : lib.Lifecycle) :
    List LifecycleFinding :=
  readFindings (lib.lifecycleFindingAt lifecycle)

/-- Without a null pointer the loop reads all of them. -/
@[simp] theorem readFindings_map_some (sources : List LifecycleFinding) :
    readFindings (sources.map some) = sources := by
  induction sources with
  | nil => rfl
  | cons source rest ih => rw [List.map_cons, readFindings, ih]

/-- `p101_report_finalize_generic`. -/
def finalizeGeneric (st : State lib) : State lib :=
  match st.model.genericLifecycle with
  | none => st
  | some lifecycle =>
    if st.model.genericFinalized then st
    else
      let result := lib.lifecycleFinish lifecycle st.err.allocations
      let (lifecycle, failed) := result.value
      let st : State lib :=
        { model := { st.model with genericLifecycle := some lifecycle }
          err := st.err.after result }
      if failed then st
      else
        let st := finalizeFindings (lib.lifecycleFindingAt lifecycle) st
        if st.err.error then st
        else { st with model := { st.model with genericFinalized := true } }

/-- The comparisons of `finalizeGeneric`. -/
def finalizeGenericFaults (st : State lib) : Bool :=
  match st.model.genericLifecycle with
  | none => false
  | some lifecycle =>
    let result := lib.lifecycleFinish lifecycle st.err.allocations
    let (lifecycle, failed) := result.value
    let looped : State lib :=
      { model := { st.model with genericLifecycle := some lifecycle }
        err := st.err.after result }
    !st.model.genericFinalized && !failed &&
      finalizeFindingsFault (lib.lifecycleFindingAt lifecycle) looped

end P101Report
