import P101Report.Model.Mermaid
import P101Report.Model.Lifecycle
import P101Report.Model.Reader

/-!
# A run of the report

`src/runner.c` and the path half of `src/io.c`. A run creates the model, reads both logs, finalizes
and writes the reports; it gives up with `EXIT_TROUBLE` at the first error. What the environment
decides is an input of the run: the allocations up to the output step, the two logs, and whether a
call of the output step fails. What a failing output step leaves behind is not said here; the calls
of `src/bundle.c` are followed one by one in `Model/Bundle`.
-/

set_option autoImplicit false

namespace P101Report

variable {lib : ToolEventLib}

/-- The functions of the run model of `lib_tool_event` that only the runner calls. -/
structure RunModelLib (lib : ToolEventLib) where
  modelCreate : List Bool → LibResult (Option lib.RunModel)
  /-- `p101_tool_model_finish`; the flag is a result other than `0`. -/
  modelFinish : lib.RunModel → List Bool → LibResult (lib.RunModel × Bool)
  modelWriteJson : lib.RunModel → List UInt8

/-- `enum report_format`. -/
inductive ReportFormat
  | text | json | mermaid
  deriving DecidableEq

/-- `struct arguments`, as far as a run reads it. -/
structure RunArguments extends Arguments where
  format : ReportFormat
  bundleOutputDir : Option Text

/-- What a run finds in its environment. -/
structure RunInput (lib : ToolEventLib) where
  health : lib.HealthInner
  /-- Which allocations fail, in the order in which they are made before the output step. -/
  allocations : List Bool
  resourceLog : LogFile
  callLog : LogFile
  /-- Whether a call of the output step raises an error, for want of memory (as `p101_fopen` and
  `p101_tool_model_write_json` may) or for another reason. -/
  outputFails : Bool

/-! ## Exit status -/

/-- `EXIT_CLEAN`. -/
def exitClean : Nat := 0

/-- `EXIT_FINDINGS`. -/
def exitFindings : Nat := 1

/-- `EXIT_TROUBLE`. -/
def exitTrouble : Nat := 2

/-! ## Output -/

/-- `p101_report_print_report`. -/
def printReport (args : Arguments) (format : ReportFormat) (model : ReportModel lib) :
    Option (List UInt8) :=
  match format with
  | .text => printTextReport args model
  | .json => printJsonReport args model
  | .mermaid => some (printMermaidReport model)

/-- `PATH_MAX_BYTES`. -/
def pathMaxBytes : Nat := 4096

/-- `p101_report_join_path`: no path when it does not fit. -/
def joinPath (dir leaf : List UInt8) : Option (List UInt8) :=
  let path := if dir.getLast? = some 0x2f then dir ++ leaf else dir ++ ascii "/" ++ leaf
  if pathMaxBytes ≤ path.length then none else some path

/-- The files of `p101_report_write_bundle`, with the report of each. -/
def bundleReports : List (List UInt8 × ReportFormat) :=
  [(ascii "correlated-report.txt", .text), (ascii "correlated-report.json", .json),
    (ascii "resource-lifetimes.md", .mermaid)]

/-- The last file of the bundle. -/
def runModelFile : List UInt8 := ascii "run-model.json"

/-- Whether `p101_report_write_bundle` raises an error on a path. -/
def bundlePathTooLong (dir : Text) : Bool :=
  (bundleReports.map Prod.fst ++ [runModelFile]).any fun leaf => (joinPath dir.bytes leaf).isNone

/-- What the output step raises. -/
def outputRaises (args : RunArguments) (input : RunInput lib) : Bool :=
  match args.bundleOutputDir with
  | none => input.outputFails
  | some dir => input.outputFails || bundlePathTooLong dir

/-- What an output step without error writes: the report to the standard output, or the files of the
bundle. -/
def outputTexts (run : RunModelLib lib) (args : RunArguments) (model : ReportModel lib) :
    List (Option (List UInt8)) :=
  match args.bundleOutputDir with
  | none => [printReport args.toArguments args.format model]
  | some _ =>
    (bundleReports.map fun file => printReport args.toArguments file.2 model) ++
      [model.runModel.map run.modelWriteJson]

/-! ## The run -/

/-- The zeroed model with its run model. -/
def createModel (run : RunModelLib lib) (input : RunInput lib) : State lib :=
  let created := run.modelCreate input.allocations
  { model := { ReportModel.zeroed lib input.health with runModel := created.value }
    err := ErrState.after ⟨false, input.allocations⟩ created }

/-- `p101_report_run` up to the output step; `.error` where it gives up. -/
def prepareReport (run : RunModelLib lib) (args : RunArguments) (input : RunInput lib) :
    Except (State lib) (State lib) :=
  let st := createModel run input
  if st.model.runModel.isNone then .error st
  else
    let st := readResources args.resourceLog input.resourceLog st
    let st := readCalls args.callLog input.callLog st
    if st.err.error then .error st
    else
      match st.model.runModel with
      | none => .error st
      | some runModel =>
        let result := run.modelFinish runModel st.err.allocations
        let (runModel, failed) := result.value
        let st : State lib :=
          { model := { st.model with runModel := some runModel }, err := st.err.after result }
        if failed then .error st
        else
          let st := finalizeLeaks st
          if st.err.error then .error st else .ok st

/-- The comparisons of `prepareReport`; a call log is read without any. -/
def prepareFaults (run : RunModelLib lib) (args : RunArguments) (input : RunInput lib) : Bool :=
  let st := createModel run input
  if st.model.runModel.isNone then false
  else
    let reading := readResourcesFaults input.resourceLog.reads
      (openInput args.resourceLog input.resourceLog st)
    let st := readResources args.resourceLog input.resourceLog st
    let st := readCalls args.callLog input.callLog st
    let finishing :=
      match st.model.runModel with
      | none => false
      | some runModel =>
        let result := run.modelFinish runModel st.err.allocations
        let (runModel, failed) := result.value
        !failed && finalizeLeaksFaults
          { model := { st.model with runModel := some runModel }, err := st.err.after result }
    reading || (!st.err.error && finishing)

/-- The last decision of `p101_report_run`. -/
def exitStatus (model : ReportModel lib) : Nat :=
  if model.resourceMalformed ≠ 0 ∨ model.callMalformed ≠ 0 ∨ model.resourceBadVersion ≠ 0 ∨
      model.callBadVersion ≠ 0 ∨ !lib.healthIsComplete model.resourceStreamHealth ∨
      !lib.healthIsComplete model.callStreamHealth then exitTrouble
  else if model.findings.items.length = 0 then exitClean
  else exitFindings

/-- What a run leaves behind: its exit status, the last state, and the texts it has written, in
order. A run whose output step fails may have written a part of them and has no value here. -/
structure RunResult (lib : ToolEventLib) where
  status : Nat
  state : State lib
  written : Option (List (Option (List UInt8)))

/-- `p101_report_run`. -/
def reportRun (run : RunModelLib lib) (args : RunArguments) (input : RunInput lib) :
    RunResult lib :=
  match prepareReport run args input with
  -- the output step was not reached
  | .error st => ⟨exitTrouble, st, some []⟩
  | .ok st =>
    let st := st.raiseIf (outputRaises args input)
    -- some of the files may have been written
    if st.err.error then ⟨exitTrouble, st, none⟩
    else ⟨exitStatus st.model, st, some (outputTexts run args st.model)⟩

end P101Report
