import Mathlib

/-!
# Data model of the report

The records of `include/types.h`: stored resource and call events, the live and closed tables,
findings, and the report model that holds them. A `char *` is an `Option Text`, with `none` for
`NULL`; `long` and `int` are integers, `size_t` is a natural number.

Everything the report links from outside the repository is a field of `ToolEventLib`: the line
parser, the stream-health observer, the lifecycle library and the run model. The report never looks
inside their states.
-/

set_option autoImplicit false

namespace P101Report

/-- A C string: the bytes before the terminating NUL. -/
structure Text where
  bytes : List UInt8
  noNul : (0 : UInt8) ∉ bytes
  deriving DecidableEq

/-- The bytes of an ASCII string literal of the source. -/
def ascii (s : String) : List UInt8 := s.toList.map fun c => UInt8.ofNat c.toNat

/-- A string literal of the source: as a C string, it ends at its first NUL. -/
def lit (s : String) : Text where
  bytes := (ascii s).takeWhile fun b => b ≠ 0
  noNul := by
    intro h
    simpa using List.mem_takeWhile_imp h

/-- `"-"`, the text of a null pointer in the log. -/
def dash : Text := lit "-"

/-! ## Records of the event protocol -/

inductive RecordKind
  | call | fd | alloc | fork | spawn | exec | execFail | resource | complete
  deriving DecidableEq

inductive ToolFdKind
  | opened | closed
  deriving DecidableEq

inductive ToolAllocKind
  | alloc | free | realloc
  deriving DecidableEq

inductive CallKind
  | enter | exit
  deriving DecidableEq

/-- `p101_tool_event_resource_kind`: the operation of a generic resource record. -/
inductive GenericKind
  | acquire | release | replace | transfer
  deriving DecidableEq

/-- `p101_tool_event_parse_status`. -/
inductive ParseStatus
  | other | ok | badVersion | malformed
  deriving DecidableEq

/-- The fields of `struct p101_tool_event_record` that the report reads or writes. The defaults are
those of a zeroed record. -/
structure ToolEventRecord where
  version : Nat := 0
  runId : Option Text := none
  recordKind : RecordKind := .call
  pid : Int := 0
  contextId : Nat := 0
  sequence : Nat := 0
  monotonicNs : Nat := 0
  monotonicNsAvailable : Int := 0
  wallUnixNs : Nat := 0
  wallUnixNsAvailable : Int := 0
  fdKind : ToolFdKind := .opened
  fd : Int := 0
  allocKind : ToolAllocKind := .alloc
  ptr : Option Text := none
  newPtr : Option Text := none
  size : Nat := 0
  cloexec : Int := 0
  target : Option Text := none
  childPid : Int := 0
  resourceKind : GenericKind := .acquire
  resourceClass : Option Text := none
  resourceId : Option Text := none
  relatedId : Option Text := none
  metadata : Option Text := none
  lineNumber : Int := 0
  functionName : Option Text := none
  fileName : Option Text := none
  callKind : CallKind := .enter
  callName : Option Text := none
  arguments : Option Text := none
  result : Option Text := none
  deriving DecidableEq

/-! ## Stored events and tables -/

/-- `enum resource_kind`. -/
inductive ResourceKind
  | fdOpen | fdClose | alloc | free | realloc | fork | spawn | exec | execFail | generic
  deriving DecidableEq

/-- `enum finding_kind`. -/
inductive FindingKind
  | fdLeak | allocLeak | doubleClose | strayClose | doubleFree | strayFree | badRealloc
  | execInherit | resourceLeak | resourceDoubleRelease | resourceStrayRelease | resourceBadReplace
  | resourceDuplicateAcquire
  deriving DecidableEq

structure SourceSite where
  fileName : Option Text
  functionName : Option Text
  lineNumber : Int
  deriving DecidableEq

/-- `struct resource_event`; the defaults are those of a zeroed event. -/
structure ResourceEvent where
  kind : ResourceKind := .fdOpen
  pid : Int := 0
  childPid : Int := 0
  fd : Int := 0
  cloexec : Int := 0
  ptr : Option Text := none
  newPtr : Option Text := none
  target : Option Text := none
  resourceClass : Option Text := none
  resourceId : Option Text := none
  relatedId : Option Text := none
  metadata : Option Text := none
  genericKind : GenericKind := .acquire
  size : Nat := 0
  site : Nat := 0
  sequence : Nat := 0
  contextId : Nat := 0
  eventSequence : Nat := 0
  monotonicNs : Nat := 0
  wallUnixNs : Nat := 0
  monotonicNsAvailable : Int := 0
  wallUnixNsAvailable : Int := 0
  deriving DecidableEq

structure CallEvent where
  kind : CallKind := .enter
  pid : Int := 0
  contextId : Nat := 0
  lineNumber : Int := 0
  functionName : Option Text := none
  callName : Option Text := none
  arguments : Option Text := none
  result : Option Text := none
  fileName : Option Text := none
  sequence : Nat := 0
  eventSequence : Nat := 0
  monotonicNs : Nat := 0
  wallUnixNs : Nat := 0
  monotonicNsAvailable : Int := 0
  wallUnixNsAvailable : Int := 0
  deriving DecidableEq

structure LiveFd where
  pid : Int
  fd : Int
  site : Nat
  sequence : Nat
  execPending : Int := 0
  execCloexec : Int := 0
  execSite : Nat := 0
  execSequence : Nat := 0
  deriving DecidableEq

structure ClosedFd where
  pid : Int
  fd : Int
  site : Nat
  sequence : Nat
  deriving DecidableEq

structure LiveAlloc where
  pid : Int
  ptr : Option Text
  size : Nat
  site : Nat
  sequence : Nat
  deriving DecidableEq

structure FreedAlloc where
  pid : Int
  ptr : Option Text
  site : Nat
  sequence : Nat
  deriving DecidableEq

/-- `struct finding`; the defaults are those of a zeroed finding. -/
structure Finding where
  kind : FindingKind := .fdLeak
  pid : Int := 0
  fd : Int := 0
  ptr : Option Text := none
  resourceClass : Option Text := none
  resourceId : Option Text := none
  size : Nat := 0
  site : Nat := 0
  sequence : Nat := 0
  eventSequence : Nat := 0
  contextId : Nat := 0
  previousSite : Nat := 0
  previousSequence : Nat := 0
  deriving DecidableEq

/-! ## The linked libraries -/

/-- `p101_tool_event_lifecycle_finding_kind`. -/
inductive LifecycleFindingKind
  | leak | doubleRelease | strayRelease | badReplace | duplicateAcquire
  deriving DecidableEq

/-- `struct p101_tool_event_lifecycle_finding`. -/
structure LifecycleFinding where
  kind : LifecycleFindingKind
  pid : Int
  contextId : Nat
  sequence : Nat
  resourceClass : Option Text
  resourceId : Option Text
  fileName : Option Text
  functionName : Option Text
  lineNumber : Int
  previousContextId : Nat := 0
  previousSequence : Nat := 0
  previousFileName : Option Text := none
  previousFunctionName : Option Text := none
  previousLineNumber : Int := 0
  deriving DecidableEq

/-- `struct p101_tool_event_stream_health`; `inner` is what only the library reads. -/
structure StreamHealth (inner : Type) where
  runId : Text
  producerCount : Nat
  completionRecords : Nat
  producerWriteFailures : Nat
  duplicateSequences : Nat
  recordsAfterCompletion : Nat
  state : inner

/-- What a library call returns: its value, the outcomes left for later allocations, and whether it
raised an error. -/
structure LibResult (α : Type) where
  value : α
  allocations : List Bool
  raised : Bool

/-- The functions and constants of `lib_tool_event` that the report uses, and the item sizes of its
tables on the platform it is compiled for. Every call that can raise an error is given the outcomes
of the allocations still to come. -/
structure ToolEventLib where
  HealthInner : Type
  Lifecycle : Type
  RunModel : Type
  schemaName : Text
  logVersion : Nat
  /-- `p101_tool_event_ownership_exec_inherits(LIVE, cloexec)`. -/
  execInherits : Bool → Bool
  parseLine : List UInt8 → ParseStatus × ToolEventRecord
  healthObserve : StreamHealth HealthInner → ToolEventRecord → StreamHealth HealthInner
  healthIsComplete : StreamHealth HealthInner → Bool
  healthIncompleteProducers : StreamHealth HealthInner → Nat
  modelIngest : RunModel → ToolEventRecord → List Bool → LibResult (RunModel × Bool)
  lifecycleCreate : List Bool → LibResult (Option Lifecycle)
  lifecycleIngest : Lifecycle → ToolEventRecord → List Bool → LibResult Lifecycle
  lifecycleFinish : Lifecycle → List Bool → LibResult (Lifecycle × Bool)
  /-- `p101_tool_event_lifecycle_finding_at` of each index below
  `p101_tool_event_lifecycle_finding_count`. -/
  lifecycleFindingAt : Lifecycle → List (Option LifecycleFinding)
  sizeMax : Nat
  sizeofSite : Nat
  sizeofResourceEvent : Nat
  sizeofCallEvent : Nat
  sizeofLiveFd : Nat
  sizeofClosedFd : Nat
  sizeofLiveAlloc : Nat
  sizeofFreedAlloc : Nat
  sizeofFinding : Nat

/-! ## The report model -/

/-- A growable array: the entries in use and the capacity of its allocation. -/
structure Table (α : Type) where
  items : List α := []
  capacity : Nat := 0
  deriving DecidableEq

/-- The next entry is written behind the last one and counted. -/
def Table.push {α : Type} (t : Table α) (x : α) : Table α := { t with items := t.items ++ [x] }

@[simp] theorem Table.push_items {α : Type} (t : Table α) (x : α) :
    (t.push x).items = t.items ++ [x] := rfl

variable (lib : ToolEventLib)

/-- `struct report_model`. -/
structure ReportModel where
  sites : Table SourceSite
  resources : Table ResourceEvent
  calls : Table CallEvent
  fds : Table LiveFd
  closedFds : Table ClosedFd
  allocs : Table LiveAlloc
  freedAllocs : Table FreedAlloc
  findings : Table Finding
  genericLifecycle : Option lib.Lifecycle
  runModel : Option lib.RunModel
  genericFinalized : Bool
  resourceRecords : Nat
  callRecords : Nat
  resourceSkipped : Nat
  callSkipped : Nat
  resourceMalformed : Nat
  callMalformed : Nat
  resourceBadVersion : Nat
  callBadVersion : Nat
  resourceStreamHealth : StreamHealth lib.HealthInner
  callStreamHealth : StreamHealth lib.HealthInner

/-- The error object and the memory behind it: whether an error has been raised, and for every
allocation still to come whether it fails (`true`). Past the end of the list allocations succeed. -/
structure ErrState where
  error : Bool
  allocations : List Bool
  deriving DecidableEq

/-- The report model together with the error object its functions share. -/
structure State where
  model : ReportModel lib
  err : ErrState

end P101Report
