import P101Report.Library.SwapTable
import P101Report.Model.Generic

/-!
# Ingestion of resource events

`src/model.c`: the incremental replay. One call of `ingestResource` stores the event, forwards it to
the lifecycle library and updates the live tables; descriptors snapshotted by `EXEC` records stay
marked until the process writes another record (`finishExec`), an `EXECFAIL` record
(`rollbackFailedExec`) or the log ends (`finalizeLeaks`).
-/

set_option autoImplicit false

namespace P101Report

open SwapTable

variable {lib : ToolEventLib}

/-! ## Entries and findings built from an event -/

/-- The entry of an `OPEN` record. -/
def LiveFd.ofOpen (event : ResourceEvent) : LiveFd :=
  { pid := event.pid, fd := event.fd, site := event.site, sequence := event.sequence }

/-- The entry of a `CLOSE` record. -/
def ClosedFd.ofClose (event : ResourceEvent) : ClosedFd :=
  { pid := event.pid, fd := event.fd, site := event.site, sequence := event.sequence }

/-- The closed entry of a descriptor whose pending exec has succeeded. -/
def ClosedFd.ofExec (fd : LiveFd) : ClosedFd :=
  { pid := fd.pid, fd := fd.fd, site := fd.execSite, sequence := fd.execSequence }

/-- The child's entry for a descriptor of the parent. -/
def LiveFd.ofFork (event : ResourceEvent) (fd : LiveFd) : LiveFd :=
  { pid := event.childPid, fd := fd.fd, site := fd.site, sequence := event.sequence }

/-- The marks an `EXEC` record leaves on a descriptor. -/
def LiveFd.mark (event : ResourceEvent) (fd : LiveFd) : LiveFd :=
  { fd with
    execPending := 1, execCloexec := event.cloexec, execSite := event.site
    execSequence := event.sequence }

/-- The marks cleared. -/
def LiveFd.clear (fd : LiveFd) : LiveFd :=
  { fd with execPending := 0, execCloexec := 0, execSite := 0, execSequence := 0 }

/-- `pid == event->pid && fd == event->fd`. -/
def LiveFd.isFor (pid fd : Int) (entry : LiveFd) : Bool := entry.pid == pid && entry.fd == fd

/-- `closed.pid == pid && closed.fd == fd`. -/
def ClosedFd.isFor (pid fd : Int) (entry : ClosedFd) : Bool := entry.pid == pid && entry.fd == fd

/-- `alloc.pid == pid && strcmp(alloc.ptr, ptr) == 0`; no answer where `isForFaults` holds. -/
def LiveAlloc.isFor (pid : Int) (ptr : Option Text) (entry : LiveAlloc) : Bool :=
  entry.pid == pid && entry.ptr == ptr

/-- The comparison of that condition. -/
def LiveAlloc.isForFaults (pid : Int) (ptr : Option Text) (entry : LiveAlloc) : Bool :=
  entry.pid == pid && strcmpFaults entry.ptr ptr

/-- The finding an `EXEC` record raises about an inherited descriptor. -/
def Finding.ofExec (event : ResourceEvent) (fd : LiveFd) : Finding :=
  { kind := .execInherit
    pid := event.pid
    fd := event.fd
    ptr := event.target
    site := event.site
    sequence := event.sequence
    eventSequence := event.eventSequence
    contextId := event.contextId
    previousSite := fd.site
    previousSequence := fd.sequence }

/-! ## Storing the event -/

/-- `p101_report_add_resource_event`: a copy that owns its texts. When an error is raised the slot
is zeroed and not counted. -/
def addResourceEvent (event : ResourceEvent) (st : State lib) : State lib :=
  match growTable lib lib.sizeofResourceEvent st.model.resources st.err with
  | (false, resources, err) => { model := { st.model with resources }, err }
  | (true, resources, err) =>
    let (ptr, err) := dupField event.ptr err
    let (newPtr, err) := dupField event.newPtr err
    let (target, err) := dupField event.target err
    let (resourceClass, err) := dupField event.resourceClass err
    let (resourceId, err) := dupField event.resourceId err
    let (relatedId, err) := dupField event.relatedId err
    let (metadata, err) := dupField event.metadata err
    let copy : ResourceEvent :=
      { event with ptr, newPtr, target, resourceClass, resourceId, relatedId, metadata }
    if err.error then { model := { st.model with resources }, err }
    else { model := { st.model with resources := resources.push copy }, err }

/-! ## Appending to a table -/

/-- `if(p101_report_grow_array_internal(...)) { fds[fd_count] = entry; fd_count++; }`. -/
def pushLiveFd (entry : LiveFd) (st : State lib) : State lib :=
  match growTable lib lib.sizeofLiveFd st.model.fds st.err with
  | (false, fds, err) => { model := { st.model with fds }, err }
  | (true, fds, err) => { model := { st.model with fds := fds.push entry }, err }

/-- The same for `closed_fds`. -/
def pushClosedFd (entry : ClosedFd) (st : State lib) : State lib :=
  match growTable lib lib.sizeofClosedFd st.model.closedFds st.err with
  | (false, closedFds, err) => { model := { st.model with closedFds }, err }
  | (true, closedFds, err) =>
    { model := { st.model with closedFds := closedFds.push entry }, err }

/-- The same for `allocs`; the entry is counted even when its text could not be copied. -/
def pushLiveAlloc (pid : Int) (ptr : Option Text) (event : ResourceEvent) (st : State lib) :
    State lib :=
  match growTable lib lib.sizeofLiveAlloc st.model.allocs st.err with
  | (false, allocs, err) => { model := { st.model with allocs }, err }
  | (true, allocs, err) =>
    let (copy, err) := dupText ptr err
    let entry : LiveAlloc := ⟨pid, copy, event.size, event.site, event.sequence⟩
    { model := { st.model with allocs := allocs.push entry }, err }

/-- The same for `freed_allocs`. -/
def pushFreedAlloc (event : ResourceEvent) (st : State lib) : State lib :=
  match growTable lib lib.sizeofFreedAlloc st.model.freedAllocs st.err with
  | (false, freedAllocs, err) => { model := { st.model with freedAllocs }, err }
  | (true, freedAllocs, err) =>
    let (copy, err) := dupText event.ptr err
    let entry : FreedAlloc := ⟨event.pid, copy, event.site, event.sequence⟩
    { model := { st.model with freedAllocs := freedAllocs.push entry }, err }

/-- The live descriptors replaced, their allocation kept. -/
def State.setFds (st : State lib) (items : List LiveFd) : State lib :=
  { st with model := { st.model with fds := { st.model.fds with items } } }

/-- The live allocations replaced, their allocation kept. -/
def State.setAllocs (st : State lib) (items : List LiveAlloc) : State lib :=
  { st with model := { st.model with allocs := { st.model.allocs with items } } }

/-! ## Pending execs -/

/-- The loop of `p101_report_finish_exec` with `remaining` entries not yet visited. -/
def finishExecLoop (pid : Int) (endOfInput : Bool) : Nat → State lib → State lib
  | 0, st => st
  | remaining + 1, st =>
    if st.err.error then st
    else
      let fds := st.model.fds.items
      let index := fds.length - (remaining + 1)
      match fds[index]? with
      | none => st
      | some fd =>
        if fd.pid ≠ pid ∨ fd.execPending = 0 then finishExecLoop pid endOfInput remaining st
        -- the exec has closed the descriptor; the last entry takes its place
        else if fd.execCloexec ≠ 0 then
          let st := pushClosedFd (ClosedFd.ofExec fd) st
          finishExecLoop pid endOfInput remaining (st.setFds (swapRemove fds index))
        -- at the end of input an inherited descriptor leaves the table without a closing
        else if endOfInput then
          finishExecLoop pid endOfInput remaining (st.setFds (swapRemove fds index))
        else finishExecLoop pid endOfInput remaining (st.setFds (fds.set index fd.clear))

/-- `p101_report_finish_exec`. -/
def finishExec (pid : Int) (endOfInput : Bool) (st : State lib) : State lib :=
  finishExecLoop pid endOfInput st.model.fds.items.length st

/-- `p101_report_exec_attempt_matches`. -/
def execAttemptMatches (candidate event : ResourceEvent) : Bool :=
  candidate.kind == .exec && candidate.pid == event.pid && candidate.site == event.site &&
    candidate.target.isSome && event.target.isSome && candidate.target == event.target

/-- `p101_report_exec_finding_matches`. -/
def execFindingMatches (finding : Finding) (event : ResourceEvent) (firstSequence : Nat) : Bool :=
  finding.kind == .execInherit && finding.pid == event.pid &&
    decide (firstSequence ≤ finding.sequence) &&
    finding.ptr.isSome && event.target.isSome && finding.ptr == event.target

/-- The backward walk of `p101_report_rollback_failed_exec` over the records before the last one,
latest first: the sequence of the earliest record of the contiguous attempt. -/
def attemptWalk (event : ResourceEvent) : List ResourceEvent → Nat → Nat
  | [], firstSequence => firstSequence
  | candidate :: earlier, firstSequence =>
    if execAttemptMatches candidate event then attemptWalk event earlier candidate.sequence
    else firstSequence

/-- `first_sequence` after the walk. -/
def firstSequenceOf (event : ResourceEvent) (resources : List ResourceEvent) : Nat :=
  attemptWalk event resources.dropLast.reverse event.sequence

/-- The first loop of the rollback: the marks of the process are cleared. -/
def clearPending (pid : Int) (fds : List LiveFd) : List LiveFd :=
  fds.map fun fd => if fd.pid = pid ∧ fd.execPending ≠ 0 then fd.clear else fd

/-- The last loop of the rollback: the findings of the attempt are compacted away. -/
def dropAttemptFindings (event : ResourceEvent) (firstSequence : Nat) (findings : List Finding) :
    List Finding :=
  findings.filter fun finding => !execFindingMatches finding event firstSequence

/-- `p101_report_rollback_failed_exec`. -/
def rollbackFailedExec (event : ResourceEvent) (st : State lib) : State lib :=
  if st.model.resources.items.isEmpty then st
  else
    let st := st.setFds (clearPending event.pid st.model.fds.items)
    let firstSequence := firstSequenceOf event st.model.resources.items
    let items := dropAttemptFindings event firstSequence st.model.findings.items
    { st with model := { st.model with findings := { st.model.findings with items } } }

/-! ## One record -/

/-- `RESOURCE_FD_CLOSE`. -/
def ingestFdClose (event : ResourceEvent) (st : State lib) : State lib :=
  match st.model.fds.items.findIdx? (LiveFd.isFor event.pid event.fd) with
  | none => st
  | some index =>
    let st := pushClosedFd (ClosedFd.ofClose event) st
    st.setFds (swapRemove st.model.fds.items index)

/-- `RESOURCE_ALLOC`. -/
def ingestAlloc (event : ResourceEvent) (st : State lib) : State lib :=
  if event.ptr.isSome ∧ event.ptr ≠ some dash then pushLiveAlloc event.pid event.ptr event st
  else st

/-- `RESOURCE_FREE`. -/
def ingestFree (event : ResourceEvent) (st : State lib) : State lib :=
  match st.model.allocs.items.findIdx? (LiveAlloc.isFor event.pid event.ptr) with
  | none => st
  | some index =>
    let st := pushFreedAlloc event st
    st.setAllocs (swapRemove st.model.allocs.items index)

/-- `RESOURCE_REALLOC`: the old pointer leaves the table, the new one enters it. -/
def ingestRealloc (event : ResourceEvent) (st : State lib) : State lib :=
  let sourceIsNull := event.ptr.isNone ∨ event.ptr = some dash
  let st : State lib :=
    if sourceIsNull then st
    else st.setAllocs (removeFirst (LiveAlloc.isFor event.pid event.ptr) st.model.allocs.items)
  if event.newPtr.isSome ∧ event.newPtr ≠ some dash then
    pushLiveAlloc event.pid event.newPtr event st
  else st

/-- The body of the `RESOURCE_FORK` loop at `index`. -/
def forkStep (event : ResourceEvent) (st : State lib) (index : Nat) : State lib :=
  if st.err.error then st
  else
    match st.model.fds.items[index]? with
    | none => st
    | some fd =>
      if fd.pid ≠ event.pid then st
      else
        let childHasLiveFd := st.model.fds.items.any (LiveFd.isFor event.childPid fd.fd)
        let childClosedFd := st.model.closedFds.items.any (ClosedFd.isFor event.childPid fd.fd)
        if !childHasLiveFd && !childClosedFd then pushLiveFd (LiveFd.ofFork event fd) st else st

/-- `RESOURCE_FORK`: only the entries present before the loop are visited. -/
def ingestFork (event : ResourceEvent) (st : State lib) : State lib :=
  (List.range st.model.fds.items.length).foldl (forkStep event) st

/-- `RESOURCE_EXEC`: the first entry of the descriptor is marked, and reported when it would be
inherited. -/
def ingestExec (event : ResourceEvent) (st : State lib) : State lib :=
  match st.model.fds.items.find? (LiveFd.isFor event.pid event.fd) with
  | none => st
  | some fd =>
    let st := st.setFds (modifyFirst (LiveFd.isFor event.pid event.fd) (LiveFd.mark event)
      st.model.fds.items)
    if lib.execInherits (event.cloexec ≠ 0) then addFindingInternal (Finding.ofExec event fd) st
    else st

/-- The kinds forwarded to the lifecycle library: all but `RESOURCE_SPAWN`. -/
def forwarded : ResourceKind → Bool
  | .fdOpen | .fdClose | .alloc | .free | .realloc | .fork | .exec | .execFail | .generic => true
  | .spawn => false

/-- The `switch` of `p101_report_ingest_resource`. -/
def ingestKind (event : ResourceEvent) (st : State lib) : State lib :=
  match event.kind with
  | .fdOpen => pushLiveFd (LiveFd.ofOpen event) st
  | .fdClose => ingestFdClose event st
  | .alloc => ingestAlloc event st
  | .free => ingestFree event st
  | .realloc => ingestRealloc event st
  | .fork => ingestFork event st
  | .spawn => st
  | .exec => ingestExec event st
  | .execFail => rollbackFailedExec event st
  | .generic => st

/-- `p101_report_ingest_resource`. -/
def ingestResource (st : State lib) (event : ResourceEvent) : State lib :=
  let st :=
    if event.kind ≠ .exec ∧ event.kind ≠ .execFail then finishExec event.pid false st else st
  let st := addResourceEvent event st
  if st.err.error then st
  else
    let st := if forwarded event.kind then ingestGeneric event st else st
    ingestKind event st

/-- The search for the allocation that a `FREE` or `REALLOC` record releases. The texts of the other
records are compared with `"-"` only, after a test for `NULL`. -/
def ingestKindFaults (event : ResourceEvent) (allocs : List LiveAlloc) : Bool :=
  let searched := searchFaults (LiveAlloc.isForFaults event.pid event.ptr)
    (LiveAlloc.isFor event.pid event.ptr) allocs
  match event.kind with
  | .free => searched
  | .realloc => event.ptr.isSome && event.ptr != some dash && searched
  | _ => false

/-- The comparisons of `ingestResource`; the `switch` is not reached when the record could not be
stored. -/
def ingestFaults (st : State lib) (event : ResourceEvent) : Bool :=
  let st :=
    if event.kind ≠ .exec ∧ event.kind ≠ .execFail then finishExec event.pid false st else st
  let st := addResourceEvent event st
  !st.err.error && ingestKindFaults event st.model.allocs.items

/-! ## End of the log -/

/-- The restart loop of `p101_report_finalize_leaks`: the first pending entry found commits its
process, and the scan starts again. `fuel` bounds the number of restarts. -/
def finishPending : Nat → State lib → State lib
  | 0, st => st
  | fuel + 1, st =>
    if st.err.error then st
    else
      match st.model.fds.items.find? fun fd => fd.execPending ≠ 0 with
      | none => st
      | some fd => finishPending fuel (finishExec fd.pid true st)

/-- `p101_report_finalize_leaks`: every restart settles at least one entry, so the number of entries
bounds the restarts. -/
def finalizeLeaks (st : State lib) : State lib :=
  finalizeGeneric (finishPending st.model.fds.items.length st)

/-- The comparisons of `finalizeLeaks`. -/
def finalizeLeaksFaults (st : State lib) : Bool :=
  finalizeGenericFaults (finishPending st.model.fds.items.length st)

end P101Report
