import P101Report.Library.Decimal
import P101Report.Model.Ingest

/-!
# A lifecycle library

The report is generic in `ToolEventLib`. This module gives one executable instance: a lifecycle
model that replays descriptor, allocation and generic resource records by process, class and
identifier, reports releases of resources that are not live and duplicate acquisitions, and at the
end one leak for every resource still live. A resource of class `fd` is identified by its decimal
descriptor, one of class `allocation` by its pointer text.

It also fixes the zeroed report model with which every run begins.
-/

set_option autoImplicit false

namespace P101Report

open Decimal

/-- A descriptor number as text. -/
def decimal (i : Int) : Text := ⟨decimalInt i, decimalInt_noNul i⟩

/-! ## The lifecycle model -/

/-- A live or released resource: its owner, its identity, and the record that made it so. -/
structure OwnedResource where
  pid : Int
  resourceClass : Option Text
  resourceId : Option Text
  contextId : Nat
  sequence : Nat
  fileName : Option Text
  functionName : Option Text
  lineNumber : Int
  /-- The close-on-exec flag of a pending exec snapshot. -/
  pendingExec : Option Int := none
  deriving DecidableEq

structure LifecycleModel where
  live : List OwnedResource := []
  released : List OwnedResource := []
  findings : List LifecycleFinding := []
  deriving DecidableEq

/-- The resource a record is about, owned by `pid`. -/
def OwnedResource.ofRecord (record : ToolEventRecord) (pid : Int)
    (resourceClass resourceId : Option Text) : OwnedResource :=
  { pid
    resourceClass
    resourceId
    contextId := record.contextId
    sequence := record.sequence
    fileName := record.fileName
    functionName := record.functionName
    lineNumber := record.lineNumber }

/-- Whether two resources are the same resource of the same process. -/
def OwnedResource.same (a b : OwnedResource) : Bool :=
  a.pid == b.pid && a.resourceClass == b.resourceClass && a.resourceId == b.resourceId

/-- A finding about a resource, with the earlier record it refers to. -/
def LifecycleFinding.about (kind : LifecycleFindingKind) (resource : OwnedResource)
    (previous : Option OwnedResource) : LifecycleFinding :=
  let finding : LifecycleFinding :=
    { kind
      pid := resource.pid
      contextId := resource.contextId
      sequence := resource.sequence
      resourceClass := resource.resourceClass
      resourceId := resource.resourceId
      fileName := resource.fileName
      functionName := resource.functionName
      lineNumber := resource.lineNumber }
  match previous with
  | none => finding
  | some previous =>
    { finding with
      previousContextId := previous.contextId
      previousSequence := previous.sequence
      previousFileName := previous.fileName
      previousFunctionName := previous.functionName
      previousLineNumber := previous.lineNumber }

namespace LifecycleModel

/-- A resource becomes live; it is reported when it is live already. -/
def acquire (resource : OwnedResource) (m : LifecycleModel) : LifecycleModel :=
  match m.live.find? resource.same with
  | some previous =>
    { m with findings := m.findings ++ [.about .duplicateAcquire resource (some previous)] }
  | none => { m with live := m.live ++ [resource] }

/-- A resource is released; `stray` is how a resource that never was live is reported. -/
def release (stray : LifecycleFindingKind) (resource : OwnedResource) (m : LifecycleModel) :
    LifecycleModel :=
  if m.live.any resource.same then
    { m with
      live := m.live.eraseP resource.same
      released := m.released.eraseP resource.same ++ [resource] }
  else
    match m.released.find? resource.same with
    | some previous =>
      { m with findings := m.findings ++ [.about .doubleRelease resource (some previous)] }
    | none => { m with findings := m.findings ++ [.about stray resource none] }

/-- The descriptors of the parent become live in the child, by the `FORK` record. -/
def inherit (record : ToolEventRecord) (m : LifecycleModel) : LifecycleModel :=
  let parents := m.live.filter fun resource =>
    resource.pid == record.pid && resource.resourceClass == some (lit "fd")
  parents.foldl (fun m parent =>
    let child :=
      OwnedResource.ofRecord record record.childPid parent.resourceClass parent.resourceId
    if m.live.any child.same || m.released.any child.same then m
    else { m with live := m.live ++ [child] }) m

/-- A pending exec of `pid` has succeeded: its close-on-exec descriptors are released. -/
def commitExec (pid : Int) (m : LifecycleModel) : LifecycleModel :=
  let closes (resource : OwnedResource) : Bool :=
    resource.pid == pid && resource.pendingExec.any (· ≠ 0)
  { m with
    live := (m.live.filter fun resource => !closes resource).map fun resource =>
      if resource.pid = pid then { resource with pendingExec := none } else resource
    released := m.released ++ m.live.filter closes }

/-- What an exec leaves pending on a descriptor. -/
def setPending (pid : Int) (fd : Option Text) (pending : Option Int) (m : LifecycleModel) :
    LifecycleModel :=
  { m with
    live := m.live.map fun resource =>
      if resource.pid = pid ∧ resource.resourceClass = some (lit "fd") ∧
          (fd.isNone ∨ resource.resourceId = fd) then
        { resource with pendingExec := pending }
      else resource }

/-- `"-"` and `NULL` name no memory. -/
def pointer (ptr : Option Text) : Option Text := if ptr = some dash then none else ptr

/-- One record of the log. -/
def ingest (m : LifecycleModel) (record : ToolEventRecord) : LifecycleModel :=
  let about := OwnedResource.ofRecord record record.pid
  let m := if record.recordKind = .exec ∨ record.recordKind = .execFail then m
    else m.commitExec record.pid
  match record.recordKind with
  | .fd =>
    let resource := about (some (lit "fd")) (some (decimal record.fd))
    match record.fdKind with
    | .opened => m.acquire resource
    | .closed => m.release .strayRelease resource
  | .alloc =>
    let resource (ptr : Option Text) := about (some (lit "allocation")) ptr
    match record.allocKind, pointer record.ptr, pointer record.newPtr with
    | .alloc, some ptr, _ => m.acquire (resource (some ptr))
    | .free, some ptr, _ => m.release .strayRelease (resource (some ptr))
    | .realloc, some ptr, some newPtr =>
      (m.release .badReplace (resource (some ptr))).acquire (resource (some newPtr))
    | .realloc, some ptr, none => m.release .badReplace (resource (some ptr))
    | .realloc, none, some newPtr => m.acquire (resource (some newPtr))
    | _, none, _ => m
  | .fork => m.inherit record
  | .exec => m.setPending record.pid (some (decimal record.fd)) (some record.cloexec)
  | .execFail => m.setPending record.pid none none
  | .resource =>
    let resource := about record.resourceClass record.resourceId
    let related := about record.resourceClass record.relatedId
    match record.resourceKind with
    | .acquire => m.acquire resource
    | .release => m.release .strayRelease resource
    | .replace | .transfer =>
      if record.relatedId.isSome then (m.release .badReplace resource).acquire related
      else m.release .badReplace resource
  | .call | .spawn | .complete => m

/-- The end of the log: what is still live and not handed to a new image has leaked. -/
def finish (m : LifecycleModel) : LifecycleModel :=
  { m with
    findings := m.findings ++
      (m.live.filter fun resource => resource.pendingExec.isNone).map fun resource =>
        .about .leak resource none }

end LifecycleModel

/-- The library with this lifecycle model, on a 64-bit platform: no call of it fails. -/
def replayLib : ToolEventLib where
  HealthInner := Unit
  Lifecycle := LifecycleModel
  RunModel := Unit
  schemaName := lit "p101-tool-event"
  logVersion := 3
  execInherits := fun cloexec => !cloexec
  parseLine := fun _ => (.other, {})
  healthObserve := fun health _ => health
  healthIsComplete := fun health => decide (health.completionRecords = health.producerCount)
  healthIncompleteProducers := fun health => health.producerCount - health.completionRecords
  modelIngest := fun model _ allocations => ⟨(model, true), allocations, false⟩
  lifecycleCreate := fun allocations => ⟨some {}, allocations, false⟩
  lifecycleIngest := fun m record allocations => ⟨m.ingest record, allocations, false⟩
  lifecycleFinish := fun m allocations => ⟨(m.finish, false), allocations, false⟩
  lifecycleFindingAt := fun m => m.findings.map some
  sizeMax := 18446744073709551615
  sizeofSite := 24
  sizeofResourceEvent := 160
  sizeofCallEvent := 112
  sizeofLiveFd := 56
  sizeofClosedFd := 32
  sizeofLiveAlloc := 40
  sizeofFreedAlloc := 32
  sizeofFinding := 104

/-- The library above with the lines of a log: each accepted line with the record it stands for. -/
def logLib (lines : List (List UInt8 × ToolEventRecord)) : ToolEventLib :=
  { replayLib with
    logVersion := 5
    parseLine := fun line =>
      match lines.find? fun entry => entry.1 == line with
      | some (_, record) => (.ok, record)
      | none => (.other, {}) }

/-- What the records of one process have in common. -/
def fixtureRecord (recordKind : RecordKind) (sequence monotonicNs : Nat) (lineNumber : Int) :
    ToolEventRecord :=
  { version := 5
    runId := some (lit "test-run")
    recordKind
    pid := 123
    contextId := 7
    sequence
    monotonicNs
    monotonicNsAvailable := 1
    wallUnixNs := monotonicNs + 100
    wallUnixNsAvailable := 1
    lineNumber
    functionName := some (lit "main")
    fileName := some (lit "fixture.c") }

def openLine : List UInt8 :=
  ascii "P101FD\t5\ttest-run\t123\t7\t1\t100\t200\tOPEN\t3\t10\tmain\tfixture.c"

def closeLine : List UInt8 :=
  ascii "P101FD\t5\ttest-run\t123\t7\t2\t110\t210\tCLOSE\t3\t11\tmain\tfixture.c"

def enterLine : List UInt8 :=
  ascii "P101CALL\t5\ttest-run\t123\t7\t1\t100\t200\tENTER\t10\tmain\tp101_open" ++
    ascii "\tpath=x\t-\tfixture.c"

/-- The library for logs of these lines. -/
def fixtureLib : ToolEventLib := logLib [
  (openLine, { fixtureRecord .fd 1 100 10 with fd := 3 }),
  (closeLine, { fixtureRecord .fd 2 110 11 with fdKind := .closed, fd := 3 }),
  (enterLine,
    { fixtureRecord .call 1 100 10 with
      callName := some (lit "p101_open"), arguments := some (lit "path=x"), result := some dash })]

/-! ## The zeroed model -/

/-- A zeroed `struct p101_tool_event_stream_health`. -/
def StreamHealth.zeroed {inner : Type} (state : inner) : StreamHealth inner :=
  ⟨lit "", 0, 0, 0, 0, 0, state⟩

/-- A zeroed `struct report_model`. -/
def ReportModel.zeroed (lib : ToolEventLib) (state : lib.HealthInner) : ReportModel lib where
  sites := {}
  resources := {}
  calls := {}
  fds := {}
  closedFds := {}
  allocs := {}
  freedAllocs := {}
  findings := {}
  genericLifecycle := none
  runModel := none
  genericFinalized := false
  resourceRecords := 0
  callRecords := 0
  resourceSkipped := 0
  callSkipped := 0
  resourceMalformed := 0
  callMalformed := 0
  resourceBadVersion := 0
  callBadVersion := 0
  resourceStreamHealth := .zeroed state
  callStreamHealth := .zeroed state

/-- The first state of a run with the library above: one interned site, no error, and memory that
never runs out. -/
def State.zeroed : State replayLib :=
  (internSite (some (lit "main.c")) (some (lit "main")) 1
    ⟨ReportModel.zeroed replayLib (), ⟨false, []⟩⟩).2

/-! ## Records of one site -/

def openRecord (pid fd : Int) : ResourceEvent := { kind := .fdOpen, pid, fd }

def closeRecord (pid fd : Int) : ResourceEvent := { kind := .fdClose, pid, fd }

def forkRecord (pid childPid : Int) : ResourceEvent := { kind := .fork, pid, childPid }

def spawnRecord (pid : Int) : ResourceEvent := { kind := .spawn, pid }

def execRecord (pid fd cloexec : Int) : ResourceEvent :=
  { kind := .exec, pid, fd, cloexec, target := some (lit "/bin/sh") }

def execFailRecord (pid : Int) : ResourceEvent :=
  { kind := .execFail, pid, target := some (lit "/bin/sh") }

def allocRecord (pid : Int) (ptr : Text) : ResourceEvent :=
  { kind := .alloc, pid, ptr := some ptr, newPtr := some dash }

def freeRecord (pid : Int) (ptr : Text) : ResourceEvent :=
  { kind := .free, pid, ptr := some ptr, newPtr := some dash }

def reallocRecord (pid : Int) (ptr newPtr : Text) : ResourceEvent :=
  { kind := .realloc, pid, ptr := some ptr, newPtr := some newPtr }

end P101Report
