import P101Report.Model.Ingest

/-!
# Parsing lines

`src/parse.c`: a line of the resource stream accepted by the library becomes a resource event that
owns copies of its texts, a line of the call stream a call event. The event starts zeroed, as the
reader hands it over.
-/

set_option autoImplicit false

namespace P101Report

/-- `enum line_status`. -/
inductive LineStatus
  | other | ok | complete | malformed | badVersion
  deriving DecidableEq

variable {lib : ToolEventLib}

/-- `map_parse_status`. -/
def mapParseStatus : ParseStatus → LineStatus
  | .other => .other
  | .ok => .ok
  | .badVersion => .badVersion
  | .malformed => .malformed

/-- `copy_resource_metadata` into a zeroed event. -/
def copyResourceMetadata (record : ToolEventRecord) (sequence : Nat) : ResourceEvent :=
  { pid := record.pid
    childPid := -1
    sequence
    contextId := record.contextId
    eventSequence := record.sequence
    monotonicNs := record.monotonicNs
    wallUnixNs := record.wallUnixNs
    monotonicNsAvailable := record.monotonicNsAvailable
    wallUnixNsAvailable := record.wallUnixNsAvailable }

/-- `p101_report_dup_text` on the shared state. -/
def State.dup (text : Option Text) (st : State lib) : Option Text × State lib :=
  let (copy, err) := dupText text st.err
  (copy, { st with err })

/-- `p101_report_intern_site` for the site of a record. -/
def State.recordSite (record : ToolEventRecord) (st : State lib) : Nat × State lib :=
  internSite record.fileName record.functionName record.lineNumber st

/-- The `switch` of `p101_report_parse_resource_line`: the fields of each record kind, and its
site. -/
def copyRecord (record : ToolEventRecord) (event : ResourceEvent) (st : State lib) :
    ResourceEvent × State lib :=
  match record.recordKind with
  | .fd =>
    let kind := if record.fdKind = .opened then ResourceKind.fdOpen else ResourceKind.fdClose
    let (site, st) := st.recordSite record
    ({ event with kind, fd := record.fd, site }, st)
  | .alloc =>
    let kind : ResourceKind :=
      match record.allocKind with
      | .alloc => .alloc
      | .free => .free
      | .realloc => .realloc
    let (ptr, st) := st.dup record.ptr
    let (newPtr, st) := st.dup (some (record.newPtr.getD dash))
    let (site, st) := st.recordSite record
    ({ event with kind, ptr, newPtr, size := record.size, site }, st)
  | .fork =>
    let (site, st) := st.recordSite record
    ({ event with kind := .fork, childPid := record.childPid, site }, st)
  | .spawn =>
    let (target, st) := st.dup record.target
    let (site, st) := st.recordSite record
    ({ event with kind := .spawn, childPid := record.childPid, target, site }, st)
  | .exec =>
    let (target, st) := st.dup record.target
    let (site, st) := st.recordSite record
    ({ event with kind := .exec, fd := record.fd, cloexec := record.cloexec, target, site }, st)
  | .execFail =>
    let (target, st) := st.dup record.target
    let (site, st) := st.recordSite record
    ({ event with kind := .execFail, target, site }, st)
  | .resource =>
    let (resourceClass, st) := st.dup record.resourceClass
    let (resourceId, st) := st.dup record.resourceId
    let (relatedId, st) :=
      match record.relatedId with
      | none => (none, st)
      | some id => st.dup (some id)
    let (metadata, st) := st.dup record.metadata
    let (site, st) := st.recordSite record
    ({ event with
        kind := .generic, genericKind := record.resourceKind, resourceClass, resourceId, relatedId
        metadata, size := record.size, site }, st)
  | .call | .complete => (event, st)

/-- The record handed to the run model, when there is one: whether it accepted the record. -/
def ingestRunModel (record : ToolEventRecord) (st : State lib) : Bool × State lib :=
  match st.model.runModel with
  | none => (true, st)
  | some runModel =>
    let result := lib.modelIngest runModel record st.err.allocations
    (result.value.2,
      { model := { st.model with runModel := some result.value.1 }
        err := st.err.after result })

/-- `p101_report_parse_resource_line`. -/
def parseResourceLine (line : List UInt8) (sequence : Nat) (st : State lib) :
    LineStatus × ResourceEvent × State lib :=
  let (parsed, record) := lib.parseLine line
  match mapParseStatus parsed with
  | .ok =>
    let health := lib.healthObserve st.model.resourceStreamHealth record
    let st : State lib := { st with model := { st.model with resourceStreamHealth := health } }
    if record.recordKind = .complete then (.complete, {}, st)
    else if record.recordKind = .call then (.other, {}, st)
    else
      let (accepted, st) := ingestRunModel record st
      -- the run model refuses the record: nothing is copied
      if !accepted then (.malformed, {}, st)
      else
        let (event, st) := copyRecord record (copyResourceMetadata record sequence) st
        (if st.err.error then .malformed else .ok, event, st)
  | status => (status, {}, st)

/-- The comparisons of `parseResourceLine`: an accepted record has its site searched for. -/
def parseResourceLineFaults (line : List UInt8) (st : State lib) : Bool :=
  let (parsed, record) := lib.parseLine line
  match mapParseStatus parsed with
  | .ok =>
    if record.recordKind = .complete ∨ record.recordKind = .call then false
    else
      (ingestRunModel record st).1 &&
        internSiteFaults record.fileName record.functionName record.lineNumber
          st.model.sites.items
  | _ => false

/-! ## Call lines -/

/-- `copy_call_metadata` into a zeroed event. -/
def copyCallMetadata (record : ToolEventRecord) (sequence : Nat) : CallEvent :=
  { pid := record.pid
    contextId := record.contextId
    sequence
    eventSequence := record.sequence
    monotonicNs := record.monotonicNs
    wallUnixNs := record.wallUnixNs
    monotonicNsAvailable := record.monotonicNsAvailable
    wallUnixNsAvailable := record.wallUnixNsAvailable }

/-- The fields that `p101_report_parse_call_line` copies from a `CALL` record. -/
def copyCall (record : ToolEventRecord) (event : CallEvent) (st : State lib) :
    CallEvent × State lib :=
  let kind := if record.callKind = .enter then CallKind.enter else CallKind.exit
  let (functionName, st) := st.dup record.functionName
  let (callName, st) := st.dup record.callName
  let (arguments, st) := st.dup record.arguments
  let (result, st) := st.dup record.result
  let (fileName, st) := st.dup record.fileName
  ({ event with
      kind, lineNumber := record.lineNumber, functionName, callName, arguments, result, fileName },
    st)

/-- `p101_report_parse_call_line`. -/
def parseCallLine (line : List UInt8) (sequence : Nat) (st : State lib) :
    LineStatus × CallEvent × State lib :=
  let (parsed, record) := lib.parseLine line
  match mapParseStatus parsed with
  | .ok =>
    let health := lib.healthObserve st.model.callStreamHealth record
    let st : State lib := { st with model := { st.model with callStreamHealth := health } }
    if record.recordKind = .complete then (.complete, {}, st)
    else if record.recordKind ≠ .call then (.other, {}, st)
    else
      let (accepted, st) := ingestRunModel record st
      if !accepted then (.malformed, {}, st)
      else
        let (event, st) := copyCall record (copyCallMetadata record sequence) st
        (if st.err.error then .malformed else .ok, event, st)
  | status => (status, {}, st)

end P101Report
