import P101Report.Model.Ingest

/-!
# The replay without errors

When no error is raised, ingestion acts on six lists: the stored events, the live and closed
descriptors, the live and freed allocations, and the findings. `Tables` is that view of the report
model, and `Tables.ingest` what one record does to it. `ReplayRefinement` shows that an error-free
`ingestResource` is exactly `Tables.ingest` on the view.

The parameter `inherits` is the library's ownership predicate.
-/

set_option autoImplicit false

namespace P101Report

open SwapTable

/-- The tables of the report that ingestion reads and writes. -/
structure Tables where
  resources : List ResourceEvent
  fds : List LiveFd
  closedFds : List ClosedFd
  allocs : List LiveAlloc
  freedAllocs : List FreedAlloc
  findings : List Finding
  deriving DecidableEq

/-- The view of a report model. -/
def ReportModel.tables {lib : ToolEventLib} (model : ReportModel lib) : Tables :=
  { resources := model.resources.items
    fds := model.fds.items
    closedFds := model.closedFds.items
    allocs := model.allocs.items
    freedAllocs := model.freedAllocs.items
    findings := model.findings.items }

namespace Tables

/-- The tables of a zeroed report model. -/
def empty : Tables := ⟨[], [], [], [], [], []⟩

/-- What the commit of `pid` does to one entry: kept, its marks cleared, or removed. -/
def finishVerdict (pid : Int) (endOfInput : Bool) (fd : LiveFd) : Option LiveFd :=
  if fd.pid ≠ pid ∨ fd.execPending = 0 then some fd
  else if fd.execCloexec ≠ 0 then none
  else if endOfInput then none
  else some fd.clear

/-- The closed entries of the descriptors a commit removed: those that were close-on-exec. -/
def closedByExec (removed : List LiveFd) : List ClosedFd :=
  (removed.filter fun fd => fd.execCloexec ≠ 0).map ClosedFd.ofExec

/-- The commit of `pid` with `remaining` entries not yet visited. -/
def finishExecLoop (pid : Int) (endOfInput : Bool) (remaining : Nat) (t : Tables) : Tables :=
  let swept := sweep (finishVerdict pid endOfInput) remaining t.fds
  { t with fds := swept.1, closedFds := t.closedFds ++ closedByExec swept.2 }

/-- The commit of `pid`. -/
def finishExec (pid : Int) (endOfInput : Bool) (t : Tables) : Tables :=
  t.finishExecLoop pid endOfInput t.fds.length

/-- The commit before a record: none before the records of an exec attempt. -/
def commitBefore (event : ResourceEvent) (t : Tables) : Tables :=
  if event.kind ≠ .exec ∧ event.kind ≠ .execFail then t.finishExec event.pid false else t

/-- The event stored. -/
def store (event : ResourceEvent) (t : Tables) : Tables :=
  { t with resources := t.resources ++ [event] }

def ingestFdOpen (event : ResourceEvent) (t : Tables) : Tables :=
  { t with fds := t.fds ++ [LiveFd.ofOpen event] }

def ingestFdClose (event : ResourceEvent) (t : Tables) : Tables :=
  if t.fds.any (LiveFd.isFor event.pid event.fd) then
    { t with
      fds := removeFirst (LiveFd.isFor event.pid event.fd) t.fds
      closedFds := t.closedFds ++ [ClosedFd.ofClose event] }
  else t

/-- The entry of an allocation. -/
def liveAlloc (ptr : Option Text) (event : ResourceEvent) : LiveAlloc :=
  ⟨event.pid, ptr, event.size, event.site, event.sequence⟩

/-- A pointer that names memory: a text other than `"-"`. -/
def isPointer (ptr : Option Text) : Bool := ptr.isSome && ptr != some dash

def ingestAlloc (event : ResourceEvent) (t : Tables) : Tables :=
  if isPointer event.ptr then { t with allocs := t.allocs ++ [liveAlloc event.ptr event] } else t

def ingestFree (event : ResourceEvent) (t : Tables) : Tables :=
  if t.allocs.any (LiveAlloc.isFor event.pid event.ptr) then
    { t with
      allocs := removeFirst (LiveAlloc.isFor event.pid event.ptr) t.allocs
      freedAllocs := t.freedAllocs ++
        [⟨event.pid, some (event.ptr.getD (lit "")), event.site, event.sequence⟩] }
  else t

/-- The live allocations after the old pointer of a `REALLOC` has left them. -/
def reallocSource (event : ResourceEvent) (allocs : List LiveAlloc) : List LiveAlloc :=
  if isPointer event.ptr then removeFirst (LiveAlloc.isFor event.pid event.ptr) allocs else allocs

def ingestRealloc (event : ResourceEvent) (t : Tables) : Tables :=
  { t with
    allocs := reallocSource event t.allocs ++
      if isPointer event.newPtr then [liveAlloc event.newPtr event] else [] }

/-- What one entry of the parent adds for the child. -/
def forkEntry (event : ResourceEvent) (closedFds : List ClosedFd) (fds : List LiveFd)
    (fd : LiveFd) : List LiveFd :=
  if fd.pid = event.pid ∧ ¬ fds.any (LiveFd.isFor event.childPid fd.fd) ∧
      ¬ closedFds.any (ClosedFd.isFor event.childPid fd.fd) then
    fds ++ [LiveFd.ofFork event fd]
  else fds

def ingestFork (event : ResourceEvent) (t : Tables) : Tables :=
  { t with fds := t.fds.foldl (forkEntry event t.closedFds) t.fds }

def ingestExec (inherits : Bool → Bool) (event : ResourceEvent) (t : Tables) : Tables :=
  match t.fds.find? (LiveFd.isFor event.pid event.fd) with
  | none => t
  | some fd =>
    { t with
      fds := modifyFirst (LiveFd.isFor event.pid event.fd) (LiveFd.mark event) t.fds
      findings := t.findings ++
        if inherits (event.cloexec ≠ 0) then [Finding.ofExec event fd] else [] }

def ingestExecFail (event : ResourceEvent) (t : Tables) : Tables :=
  { t with
    fds := clearPending event.pid t.fds
    findings := dropAttemptFindings event (firstSequenceOf event t.resources) t.findings }

/-- What the record itself does, after the commit and the storing. -/
def ingestKind (inherits : Bool → Bool) (event : ResourceEvent) (t : Tables) : Tables :=
  match event.kind with
  | .fdOpen => t.ingestFdOpen event
  | .fdClose => t.ingestFdClose event
  | .alloc => t.ingestAlloc event
  | .free => t.ingestFree event
  | .realloc => t.ingestRealloc event
  | .fork => t.ingestFork event
  | .exec => t.ingestExec inherits event
  | .execFail => t.ingestExecFail event
  | .spawn | .generic => t

/-- One record. -/
def ingest (inherits : Bool → Bool) (t : Tables) (event : ResourceEvent) : Tables :=
  ((t.commitBefore event).store event).ingestKind inherits event

/-- A whole log. -/
def run (inherits : Bool → Bool) (t : Tables) (log : List ResourceEvent) : Tables :=
  log.foldl (ingest inherits) t

/-- The restart loop at the end of the log. -/
def finishPending : Nat → Tables → Tables
  | 0, t => t
  | fuel + 1, t =>
    match t.fds.find? fun fd => fd.execPending ≠ 0 with
    | none => t
    | some fd => finishPending fuel (t.finishExec fd.pid true)

/-- The pending execs settled at the end of the log. -/
def settle (t : Tables) : Tables := finishPending t.fds.length t

@[simp] theorem run_nil (inherits : Bool → Bool) (t : Tables) : run inherits t [] = t := rfl

@[simp] theorem run_cons (inherits : Bool → Bool) (t : Tables) (event : ResourceEvent)
    (log : List ResourceEvent) :
    run inherits t (event :: log) = run inherits (t.ingest inherits event) log := rfl

@[simp] theorem run_append (inherits : Bool → Bool) (t : Tables) (pre post : List ResourceEvent) :
    run inherits t (pre ++ post) = run inherits (run inherits t pre) post :=
  List.foldl_append

end Tables

end P101Report
