import P101Report.Model.Memory

/-!
# A run on its memory

The replay of `src/model.c`, the parser of `src/parse.c`, the readers of `src/reader.c` and the run
of `src/runner.c` on the memory of `Model/Memory.lean`. The readers free the copies of each record
behind it, and the run frees its model at the end.
-/

set_option autoImplicit false

namespace P101Report

open Ownership SwapTable

variable {lib : ToolEventLib} {α : Type} [DecidableEq α]

namespace Memory

/-! ## The replay -/

/-- `p101_report_add_resource_event`. -/
def addResourceEvent (event : EventCell α) (m : Memory lib α) : Memory lib α :=
  match growTable lib lib.sizeofResourceEvent m.resources m.rest.err with
  | (false, resources, err) => { m.setErr err with resources }
  | (true, resources, err) =>
    let (ptr, m) := ({ m.setErr err with resources } : Memory lib α).dupField (.inside event.ptr)
    let (newPtr, m) := m.dupField (.inside event.newPtr)
    let (target, m) := m.dupField (.inside event.target)
    let (resourceClass, m) := m.dupField (.inside event.resourceClass)
    let (resourceId, m) := m.dupField (.inside event.resourceId)
    let (relatedId, m) := m.dupField (.inside event.relatedId)
    let (metadata, m) := m.dupField (.inside event.metadata)
    let copy : EventCell α :=
      { fields := event.fields
        ptr, newPtr, target, resourceClass, resourceId, relatedId, metadata }
    if m.rest.err.error then m.freeAll copy.pointers
    else { m with resources := m.resources.push copy }

/-- `allocs[alloc_count] = entry; alloc_count++;` when there is room. -/
def pushLiveAlloc (pid : Int) (ptr : Option α) (event : EventCell α) (m : Memory lib α) :
    Memory lib α :=
  match growTable lib lib.sizeofLiveAlloc m.allocs m.rest.err with
  | (false, allocs, err) => { m.setErr err with allocs }
  | (true, allocs, err) =>
    let (copy, m) := ({ m.setErr err with allocs } : Memory lib α).dupText (.inside ptr)
    { m with
      allocs := m.allocs.push
        ⟨pid, copy, event.fields.size, event.fields.site, event.fields.sequence⟩ }

/-- The same for `freed_allocs`. -/
def pushFreedAlloc (event : EventCell α) (m : Memory lib α) : Memory lib α :=
  match growTable lib lib.sizeofFreedAlloc m.freedAllocs m.rest.err with
  | (false, freedAllocs, err) => { m.setErr err with freedAllocs }
  | (true, freedAllocs, err) =>
    let (copy, m) := ({ m.setErr err with freedAllocs } : Memory lib α).dupText (.inside event.ptr)
    { m with
      freedAllocs := m.freedAllocs.push
        ⟨event.fields.pid, copy, event.fields.site, event.fields.sequence⟩ }

/-- The search for a live allocation: `alloc.pid == pid && strcmp(alloc.ptr, ptr) == 0`. -/
def findAlloc (pid : Int) (ptr : Option α) (m : Memory lib α) : Option Nat × Memory lib α :=
  let m := m.touch (ptr :: m.allocs.items.map AllocCell.ptr)
  (m.allocs.items.findIdx? fun alloc =>
    LiveAlloc.isFor pid (ptr.map m.heap.content) (alloc.read m.heap.content), m)

/-- An allocation leaves the table: its text is freed, and the last entry takes its place. -/
def dropAlloc (index : Nat) (m : Memory lib α) : Memory lib α :=
  let m := m.free (m.allocs.items[index]?.bind AllocCell.ptr)
  { m with allocs := { m.allocs with items := swapRemove m.allocs.items index } }

/-- `RESOURCE_ALLOC`. -/
def ingestAlloc (event : EventCell α) (m : Memory lib α) : Memory lib α :=
  let m := m.touch [event.ptr]
  if event.ptr.isSome ∧ event.ptr.map m.heap.content ≠ some dash then
    m.pushLiveAlloc event.fields.pid event.ptr event
  else m

/-- `RESOURCE_FREE`. -/
def ingestFree (event : EventCell α) (m : Memory lib α) : Memory lib α :=
  match m.findAlloc event.fields.pid event.ptr with
  | (none, m) => m
  | (some index, m) => (m.pushFreedAlloc event).dropAlloc index

/-- The first half of `RESOURCE_REALLOC`: the old pointer leaves the table. -/
def dropSource (event : EventCell α) (m : Memory lib α) : Memory lib α :=
  let m := m.touch [event.ptr]
  if event.ptr.isNone ∨ event.ptr.map m.heap.content = some dash then m
  else
    match m.findAlloc event.fields.pid event.ptr with
    | (none, m) => m
    | (some index, m) => m.dropAlloc index

/-- `RESOURCE_REALLOC`. -/
def ingestRealloc (event : EventCell α) (m : Memory lib α) : Memory lib α :=
  let m := (m.dropSource event).touch [event.newPtr]
  if event.newPtr.isSome ∧ event.newPtr.map m.heap.content ≠ some dash then
    m.pushLiveAlloc event.fields.pid event.newPtr event
  else m

/-- `RESOURCE_EXEC`: the text of the finding belongs to the event. -/
def ingestExec (event : EventCell α) (m : Memory lib α) : Memory lib α :=
  match m.rest.model.fds.items.find? (LiveFd.isFor event.fields.pid event.fields.fd) with
  | none => m
  | some fd =>
    let m := m.step fun st =>
      st.setFds (modifyFirst (LiveFd.isFor event.fields.pid event.fields.fd)
        (LiveFd.mark event.fields) st.model.fds.items)
    if lib.execInherits (event.fields.cloexec ≠ 0) then
      m.addFindingInternal
        { fields := Finding.ofExec event.fields fd, ptr := .inside event.target }
    else m

/-- The last loop of the rollback: the texts of the findings of the attempt are freed. -/
def compactFindings (event : EventCell α) (firstSequence : Nat) :
    List (FindingCell α) → Memory lib α → List (FindingCell α) × Memory lib α
  | [], m => ([], m)
  | finding :: rest, m =>
    let m := m.touch [finding.ptr, event.target]
    if execFindingMatches (finding.read m.heap.content) (event.read m.heap.content)
        firstSequence then
      compactFindings event firstSequence rest (m.free finding.ptr)
    else
      let (kept, m) := compactFindings event firstSequence rest m
      (finding :: kept, m)

/-- `p101_report_rollback_failed_exec`. -/
def rollbackFailedExec (event : EventCell α) (m : Memory lib α) : Memory lib α :=
  if m.resources.items.isEmpty then m
  else
    let m := m.step fun st => st.setFds (clearPending event.fields.pid st.model.fds.items)
    let m := m.touch (event.target :: m.resources.items.map EventCell.target)
    let firstSequence := firstSequenceOf (event.read m.heap.content)
      (m.resources.items.map (EventCell.read m.heap.content))
    let (items, m) := compactFindings event firstSequence m.findings.items m
    { m with findings := { m.findings with items } }

/-- The `switch` of `p101_report_ingest_resource`. -/
def ingestKind (event : EventCell α) (m : Memory lib α) : Memory lib α :=
  match event.fields.kind with
  | .fdOpen => m.step (pushLiveFd (LiveFd.ofOpen event.fields))
  | .fdClose => m.step (ingestFdClose event.fields)
  | .alloc => m.ingestAlloc event
  | .free => m.ingestFree event
  | .realloc => m.ingestRealloc event
  | .fork => m.step (ingestFork event.fields)
  | .spawn => m
  | .exec => m.ingestExec event
  | .execFail => m.rollbackFailedExec event
  | .generic => m

/-- `p101_report_ingest_resource`. -/
def ingestResource (m : Memory lib α) (event : EventCell α) : Memory lib α :=
  let m :=
    if event.fields.kind ≠ .exec ∧ event.fields.kind ≠ .execFail then
      m.step (finishExec event.fields.pid false)
    else m
  let m := m.addResourceEvent event
  if m.rest.err.error then m
  else
    let m := if forwarded event.fields.kind then m.ingestGeneric event else m
    m.ingestKind event

/-- `p101_report_finalize_leaks`. -/
def finalizeLeaks (m : Memory lib α) : Memory lib α :=
  (m.step fun st => finishPending st.model.fds.items.length st).finalizeGeneric

/-! ## Parsing -/

/-- `p101_report_intern_site` for the site of a record, whose texts are in the line buffer. -/
def recordSite (record : ToolEventRecord) (m : Memory lib α) : Nat × Memory lib α :=
  m.internSite record.fileName record.functionName record.lineNumber

/-- A copy of a text of the line buffer. -/
def dup (text : Option Text) (m : Memory lib α) : Option α × Memory lib α :=
  m.dupText (.outside text)

/-- The `switch` of `p101_report_parse_resource_line`. -/
def copyRecord (record : ToolEventRecord) (fields : ResourceEvent) (m : Memory lib α) :
    EventCell α × Memory lib α :=
  match record.recordKind with
  | .fd =>
    let kind := if record.fdKind = .opened then ResourceKind.fdOpen else ResourceKind.fdClose
    let (site, m) := m.recordSite record
    ({ fields := { fields with kind, fd := record.fd, site } }, m)
  | .alloc =>
    let kind : ResourceKind :=
      match record.allocKind with
      | .alloc => .alloc
      | .free => .free
      | .realloc => .realloc
    let (ptr, m) := m.dup record.ptr
    let (newPtr, m) := m.dup (some (record.newPtr.getD dash))
    let (site, m) := m.recordSite record
    ({ fields := { fields with kind, size := record.size, site }, ptr, newPtr }, m)
  | .fork =>
    let (site, m) := m.recordSite record
    ({ fields := { fields with kind := .fork, childPid := record.childPid, site } }, m)
  | .spawn =>
    let (target, m) := m.dup record.target
    let (site, m) := m.recordSite record
    ({ fields := { fields with kind := .spawn, childPid := record.childPid, site }, target }, m)
  | .exec =>
    let (target, m) := m.dup record.target
    let (site, m) := m.recordSite record
    ({ fields := { fields with kind := .exec, fd := record.fd, cloexec := record.cloexec, site }
       target }, m)
  | .execFail =>
    let (target, m) := m.dup record.target
    let (site, m) := m.recordSite record
    ({ fields := { fields with kind := .execFail, site }, target }, m)
  | .resource =>
    let (resourceClass, m) := m.dup record.resourceClass
    let (resourceId, m) := m.dup record.resourceId
    let (relatedId, m) := m.dupField (.outside record.relatedId)
    let (metadata, m) := m.dup record.metadata
    let (site, m) := m.recordSite record
    ({ fields := { fields with
        kind := .generic, genericKind := record.resourceKind, size := record.size, site }
       resourceClass, resourceId, relatedId, metadata }, m)
  | .call | .complete => ({ fields }, m)

/-- The record handed to the run model. -/
def ingestRunModel (record : ToolEventRecord) (m : Memory lib α) : Bool × Memory lib α :=
  ((P101Report.ingestRunModel record m.state).1,
    m.step fun st => (P101Report.ingestRunModel record st).2)

/-- `p101_report_parse_resource_line`. -/
def parseResourceLine (line : List UInt8) (sequence : Nat) (m : Memory lib α) :
    LineStatus × EventCell α × Memory lib α :=
  let (parsed, record) := lib.parseLine line
  match mapParseStatus parsed with
  | .ok =>
    let m := m.step fun st => { st with
      model := { st.model with
        resourceStreamHealth := lib.healthObserve st.model.resourceStreamHealth record } }
    if record.recordKind = .complete then (.complete, {}, m)
    else if record.recordKind = .call then (.other, {}, m)
    else
      let (accepted, m) := m.ingestRunModel record
      if !accepted then (.malformed, {}, m)
      else
        let (event, m) := m.copyRecord record (copyResourceMetadata record sequence)
        (if m.rest.err.error then .malformed else .ok, event, m)
  | status => (status, {}, m)

/-- The fields that `p101_report_parse_call_line` copies. -/
def copyCall (record : ToolEventRecord) (fields : CallEvent) (m : Memory lib α) :
    CallCell α × Memory lib α :=
  let kind := if record.callKind = .enter then CallKind.enter else CallKind.exit
  let (functionName, m) := m.dup record.functionName
  let (callName, m) := m.dup record.callName
  let (arguments, m) := m.dup record.arguments
  let (result, m) := m.dup record.result
  let (fileName, m) := m.dup record.fileName
  ({ fields := { fields with kind, lineNumber := record.lineNumber }
     functionName, callName, arguments, result, fileName }, m)

/-- `p101_report_parse_call_line`. -/
def parseCallLine (line : List UInt8) (sequence : Nat) (m : Memory lib α) :
    LineStatus × CallCell α × Memory lib α :=
  let (parsed, record) := lib.parseLine line
  match mapParseStatus parsed with
  | .ok =>
    let m := m.step fun st => { st with
      model := { st.model with
        callStreamHealth := lib.healthObserve st.model.callStreamHealth record } }
    if record.recordKind = .complete then (.complete, {}, m)
    else if record.recordKind ≠ .call then (.other, {}, m)
    else
      let (accepted, m) := m.ingestRunModel record
      if !accepted then (.malformed, {}, m)
      else
        let (event, m) := m.copyCall record (copyCallMetadata record sequence)
        (if m.rest.err.error then .malformed else .ok, event, m)
  | status => (status, {}, m)

/-! ## Reading the logs -/

/-- The `switch` of `p101_report_read_resources`. -/
def countResource (status : LineStatus) (event : EventCell α) (m : Memory lib α) : Memory lib α :=
  match status with
  | .ok =>
    (m.step fun st => { st with
      model := { st.model with resourceRecords := st.model.resourceRecords + 1 } }).ingestResource
        event
  | status => m.step (P101Report.countResource status {})

/-- The body of the loop of `p101_report_read_resources` for a line; the event is freed behind it.
-/
def readResourceLine (text : List UInt8) (m : Memory lib α) : Memory lib α :=
  let (status, event, m) := m.parseResourceLine text (m.rest.model.resourceRecords + 1)
  (m.countResource status event).freeAll event.pointers

/-- The loop of `p101_report_read_resources`. -/
def readResourcesLoop : List LineRead → Memory lib α → Memory lib α
  | [], m => m
  | read :: rest, m =>
    if m.rest.err.error then m
    else
      let m := m.step (State.raiseIf read.raised)
      match read.status with
      | .error => m
      | .malformed => readResourcesLoop rest (m.step (P101Report.countResource .malformed {}))
      | .line text => readResourcesLoop rest (m.readResourceLine text)

/-- `p101_report_read_resources`. -/
def readResources (path : Option Text) (log : LogFile) (m : Memory lib α) : Memory lib α :=
  ((m.step (openInput path log)).readResourcesLoop log.reads).step (closeIfOwned path log)

/-- The `switch` of `p101_report_read_calls`, and the event behind it: that of an accepted record is
zeroed. -/
def countCall (status : LineStatus) (event : CallCell α) (m : Memory lib α) :
    CallCell α × Memory lib α :=
  match status with
  | .ok =>
    ({}, (m.step fun st => { st with
      model := { st.model with callRecords := st.model.callRecords + 1 } }).addCall event)
  | status => (event, m.step (P101Report.countCall status {}))

/-- The body of the loop of `p101_report_read_calls` for a line. -/
def readCallLine (text : List UInt8) (m : Memory lib α) : Memory lib α :=
  let (status, event, m) := m.parseCallLine text (m.rest.model.callRecords + 1)
  let (event, m) := m.countCall status event
  m.freeAll event.pointers

/-- The loop of `p101_report_read_calls`. -/
def readCallsLoop : List LineRead → Memory lib α → Memory lib α
  | [], m => m
  | read :: rest, m =>
    if m.rest.err.error then m
    else
      let m := m.step (State.raiseIf read.raised)
      match read.status with
      | .error => m
      | .malformed => readCallsLoop rest (m.step (P101Report.countCall .malformed {}))
      | .line text => readCallsLoop rest (m.readCallLine text)

/-- `p101_report_read_calls`. -/
def readCalls (path : Option Text) (log : LogFile) (m : Memory lib α) : Memory lib α :=
  ((m.step (openInput path log)).readCallsLoop log.reads).step (closeIfOwned path log)

/-! ## The run -/

/-- The texts of the model. -/
def pointers (m : Memory lib α) : List (Option α) :=
  m.sites.items.flatMap SiteCell.pointers ++ m.resources.items.flatMap EventCell.pointers ++
    m.calls.items.flatMap CallCell.pointers ++ m.allocs.items.map AllocCell.ptr ++
    m.freedAllocs.items.map FreedCell.ptr ++ m.findings.items.flatMap FindingCell.pointers

/-- `p101_report_free_model`. -/
def freeModel (m : Memory lib α) : Heap α Text := m.heap.freeAll m.pointers

/-- The zeroed model with its run model. -/
def createModel (run : RunModelLib lib) (input : RunInput lib) (allocator : Allocator α) :
    Memory lib α where
  rest := P101Report.createModel run input
  heap := .empty allocator fun _ => lit ""

/-- `p101_report_run` up to the output step; `.error` where it gives up. -/
def prepareReport (run : RunModelLib lib) (args : RunArguments) (input : RunInput lib)
    (allocator : Allocator α) : Except (Memory lib α) (Memory lib α) :=
  let m := createModel run input allocator
  if m.rest.model.runModel.isNone then .error m
  else
    let m := m.readResources args.resourceLog input.resourceLog
    let m := m.readCalls args.callLog input.callLog
    if m.rest.err.error then .error m
    else
      match m.rest.model.runModel with
      | none => .error m
      | some runModel =>
        let result := run.modelFinish runModel m.rest.err.allocations
        let (runModel, failed) := result.value
        let m := m.step fun st =>
          { model := { st.model with runModel := some runModel }, err := st.err.after result }
        if failed then .error m
        else
          let m := m.finalizeLeaks
          if m.rest.err.error then .error m else .ok m

end Memory

/-- What a run leaves behind, and the heap when its model has been freed. -/
structure MemoryResult (lib : ToolEventLib) (α : Type) where
  result : RunResult lib
  heap : Heap α Text

/-- `p101_report_run`: the printers read the texts of the model, and every path frees it. -/
def Memory.reportRun (run : RunModelLib lib) (args : RunArguments) (input : RunInput lib)
    (allocator : Allocator α) : MemoryResult lib α :=
  match Memory.prepareReport run args input allocator with
  | .error m => ⟨⟨exitTrouble, m.state, some []⟩, m.freeModel⟩
  | .ok m =>
    let m := (m.step (State.raiseIf (outputRaises args input))).touch m.pointers
    if m.rest.err.error then ⟨⟨exitTrouble, m.state, none⟩, m.freeModel⟩
    else
      ⟨⟨exitStatus m.state.model, m.state, some (outputTexts run args m.state.model)⟩, m.freeModel⟩

end P101Report
