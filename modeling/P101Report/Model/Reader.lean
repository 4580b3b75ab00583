import P101Report.Model.Parse
import P101Report.Model.Ingest

/-!
# Reading the logs

`src/reader.c` and the input half of `src/io.c`. A log is what the line reader of the library
returns on it, call after call. The loops stop at the end of the log, at a failed read, or as soon
as an error has been raised; every line is counted by the status its parser gives it, and an
accepted record is stored.
-/

set_option autoImplicit false

namespace P101Report

variable {lib : ToolEventLib}

/-- What `p101_tool_event_read_line` returns before the end of the log: a line, or one of
`P101_TOOL_EVENT_LINE_MALFORMED` and `P101_TOOL_EVENT_LINE_ERROR`. -/
inductive ReadStatus
  | line (text : List UInt8)
  | malformed
  | error
  deriving DecidableEq

/-- One call of `p101_tool_event_read_line`: its result, and whether it raised an error. -/
structure LineRead where
  status : ReadStatus
  raised : Bool := false
  deriving DecidableEq

/-- A log file: whether it cannot be opened or closed, and the reads before its end. -/
structure LogFile where
  openFails : Bool := false
  reads : List LineRead
  closeFails : Bool := false
  deriving DecidableEq

/-- An error raised by a call that changes nothing else. -/
def State.raiseIf (raised : Bool) (st : State lib) : State lib :=
  { st with err := { st.err with error := st.err.error || raised } }

/-- `p101_report_open_input`: `"-"` is the standard input, which is open. -/
def openInput (path : Option Text) (log : LogFile) (st : State lib) : State lib :=
  st.raiseIf (path ≠ some dash ∧ log.openFails)

/-- `p101_report_close_if_owned`: only a file that was opened is closed. -/
def closeIfOwned (path : Option Text) (log : LogFile) (st : State lib) : State lib :=
  st.raiseIf (path ≠ some dash ∧ !log.openFails ∧ log.closeFails)

/-! ## The resource log -/

/-- The `switch` of `p101_report_read_resources` on the status of a parsed line. -/
def countResource (status : LineStatus) (event : ResourceEvent) (st : State lib) : State lib :=
  let model := st.model
  match status with
  | .other => { st with model := { model with resourceSkipped := model.resourceSkipped + 1 } }
  | .ok =>
    ingestResource
      { st with model := { model with resourceRecords := model.resourceRecords + 1 } } event
  | .complete => st
  | .malformed =>
    { st with model := { model with resourceMalformed := model.resourceMalformed + 1 } }
  | .badVersion =>
    { st with model := { model with resourceBadVersion := model.resourceBadVersion + 1 } }

/-- The body of the loop of `p101_report_read_resources` for a line. -/
def readResourceLine (text : List UInt8) (st : State lib) : State lib :=
  let (status, event, st) := parseResourceLine text (st.model.resourceRecords + 1) st
  countResource status event st

/-- The loop of `p101_report_read_resources`. -/
def readResourcesLoop : List LineRead → State lib → State lib
  | [], st => st
  | read :: rest, st =>
    if st.err.error then st
    else
      let st := st.raiseIf read.raised
      match read.status with
      | .error => st
      | .malformed => readResourcesLoop rest (countResource .malformed {} st)
      | .line text => readResourcesLoop rest (readResourceLine text st)

/-- `p101_report_read_resources`. -/
def readResources (path : Option Text) (log : LogFile) (st : State lib) : State lib :=
  closeIfOwned path log (readResourcesLoop log.reads (openInput path log st))

/-- The comparisons of `readResourceLine`. -/
def readResourceLineFaults (text : List UInt8) (st : State lib) : Bool :=
  let (status, event, parsed) := parseResourceLine text (st.model.resourceRecords + 1) st
  parseResourceLineFaults text st || (status == .ok && ingestFaults parsed event)

/-- The comparisons of the loop of `p101_report_read_resources`. -/
def readResourcesFaults : List LineRead → State lib → Bool
  | [], _ => false
  | read :: rest, st =>
    if st.err.error then false
    else
      let st := st.raiseIf read.raised
      match read.status with
      | .error => false
      | .malformed => readResourcesFaults rest (countResource .malformed {} st)
      | .line text =>
        readResourceLineFaults text st || readResourcesFaults rest (readResourceLine text st)

/-! ## The call log -/

/-- The `switch` of `p101_report_read_calls` on the status of a parsed line. -/
def countCall (status : LineStatus) (event : CallEvent) (st : State lib) : State lib :=
  let model := st.model
  match status with
  | .other => { st with model := { model with callSkipped := model.callSkipped + 1 } }
  | .ok => addCall event { st with model := { model with callRecords := model.callRecords + 1 } }
  | .complete => st
  | .malformed => { st with model := { model with callMalformed := model.callMalformed + 1 } }
  | .badVersion => { st with model := { model with callBadVersion := model.callBadVersion + 1 } }

/-- The body of the loop of `p101_report_read_calls` for a line. -/
def readCallLine (text : List UInt8) (st : State lib) : State lib :=
  let (status, event, st) := parseCallLine text (st.model.callRecords + 1) st
  countCall status event st

/-- The loop of `p101_report_read_calls`. -/
def readCallsLoop : List LineRead → State lib → State lib
  | [], st => st
  | read :: rest, st =>
    if st.err.error then st
    else
      let st := st.raiseIf read.raised
      match read.status with
      | .error => st
      | .malformed => readCallsLoop rest (countCall .malformed {} st)
      | .line text => readCallsLoop rest (readCallLine text st)

/-- `p101_report_read_calls`. -/
def readCalls (path : Option Text) (log : LogFile) (st : State lib) : State lib :=
  closeIfOwned path log (readCallsLoop log.reads (openInput path log st))

end P101Report
