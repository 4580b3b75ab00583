import P101Report.Library.Runs
import P101Report.Model.Runner
import P101Report.Reading.Lines

/-!
# Runs of calls into the model

Every write to a report model is one of the calls below, or the assignment of something that is kept
beside the tables. A run is a list of them from the zeroed model. Each call comes with an error
object of its own: the caller may have reset the errors of earlier calls or not, and any allocation
may fail. What the program does between the creation of the model and the end of a run is such a run
(`reachable_reportRun`).
-/

set_option autoImplicit false

namespace P101Report

variable {lib : ToolEventLib}

/-- What the readers keep beside the tables is written. -/
def ReportModel.keepRecords (records : Records lib) (model : ReportModel lib) : ReportModel lib :=
  { model with
    runModel := records.runModel
    resourceRecords := records.resourceRecords
    callRecords := records.callRecords
    resourceSkipped := records.resourceSkipped
    callSkipped := records.callSkipped
    resourceMalformed := records.resourceMalformed
    callMalformed := records.callMalformed
    resourceBadVersion := records.resourceBadVersion
    callBadVersion := records.callBadVersion
    resourceStreamHealth := records.resourceStreamHealth
    callStreamHealth := records.callStreamHealth }

/-- A call that writes the model. -/
inductive ModelCall (lib : ToolEventLib)
  /-- The counters, the stream healths and the run model, by the readers. -/
  | keepRecords (records : Records lib)
  /-- `p101_report_intern_site`. -/
  | internSite (fileName functionName : Option Text) (lineNumber : Int)
  /-- `p101_report_add_call`. -/
  | addCall (event : CallEvent)
  /-- `p101_report_add_finding_internal`. -/
  | addFinding (finding : Finding)
  /-- `p101_report_ingest_resource`. -/
  | ingestResource (event : ResourceEvent)
  /-- `p101_report_finalize_leaks`. -/
  | finalizeLeaks

/-- The state that a call leaves behind. -/
def ModelCall.perform : ModelCall lib → State lib → State lib
  | .keepRecords records, st => { st with model := st.model.keepRecords records }
  | .internSite fileName functionName lineNumber, st =>
    (P101Report.internSite fileName functionName lineNumber st).2
  | .addCall event, st => P101Report.addCall event st
  | .addFinding finding, st => addFindingInternal finding st
  | .ingestResource event, st => P101Report.ingestResource st event
  | .finalizeLeaks, st => P101Report.finalizeLeaks st

/-- One call of a run, with the error object that it is given. -/
structure RunCall (lib : ToolEventLib) where
  err : ErrState
  call : ModelCall lib

/-- The state that the call leaves behind. -/
def RunCall.state (model : ReportModel lib) (c : RunCall lib) : State lib :=
  c.call.perform ⟨model, c.err⟩

/-- The model that the call leaves behind. -/
def RunCall.step (model : ReportModel lib) (c : RunCall lib) : ReportModel lib :=
  (c.state model).model

/-- The model after a list of calls. -/
def runCalls (model : ReportModel lib) (calls : List (RunCall lib)) : ReportModel lib :=
  calls.foldl RunCall.step model

@[simp] theorem runCalls_nil (model : ReportModel lib) : runCalls model [] = model := rfl

@[simp] theorem runCalls_cons (model : ReportModel lib) (c : RunCall lib)
    (calls : List (RunCall lib)) :
    runCalls model (c :: calls) = runCalls (c.step model) calls := rfl

theorem runCalls_append (model : ReportModel lib) (calls later : List (RunCall lib)) :
    runCalls model (calls ++ later) = runCalls (runCalls model calls) later :=
  List.foldl_append

/-- What every call keeps holds after every run. -/
theorem runCalls_invariant {inv : ReportModel lib → Prop}
    (hstep : ∀ (c : ModelCall lib) (st : State lib), inv st.model → inv (c.perform st).model)
    {model : ReportModel lib} (hstart : inv model) (calls : List (RunCall lib)) :
    inv (runCalls model calls) := by
  induction calls generalizing model with
  | nil => exact hstart
  | cons c calls ih => exact ih (hstep c.call ⟨model, c.err⟩ hstart)

/-! ## What the program does -/

/-- A run leads from one model to another. -/
def Reachable (model model' : ReportModel lib) : Prop := ∃ calls, runCalls model calls = model'

namespace Reachable

variable {model model' model'' : ReportModel lib}

theorem refl (model : ReportModel lib) : Reachable model model := ⟨[], rfl⟩

theorem trans (h : Reachable model model') (h' : Reachable model' model'') :
    Reachable model model'' := by
  obtain ⟨calls, rfl⟩ := h
  obtain ⟨later, rfl⟩ := h'
  exact ⟨calls ++ later, runCalls_append model calls later⟩

/-- One call. -/
theorem call (c : ModelCall lib) (st : State lib) : Reachable st.model (c.perform st).model :=
  ⟨[⟨st.err, c⟩], rfl⟩

/-- A model that differs in what is kept beside the tables. -/
theorem of_records (h : model' = model.keepRecords model'.records) : Reachable model model' :=
  ⟨[⟨⟨false, []⟩, .keepRecords model'.records⟩], h.symm⟩

end Reachable

theorem reachable_ingestRunModel (record : ToolEventRecord) (st : State lib) :
    Reachable st.model (ingestRunModel record st).2.model := by
  rw [ingestRunModel]
  split
  · exact .refl _
  · exact .of_records rfl

/-- Copying a record copies its texts and then interns its site. -/
theorem copyRecord_interns {record : ToolEventRecord} (event : ResourceEvent) (st : State lib)
    (hkind : record.recordKind ≠ .call ∧ record.recordKind ≠ .complete) :
    ∃ st' : State lib, st'.model = st.model ∧
      (copyRecord record event st).2 = (st'.recordSite record).2 ∧
      (copyRecord record event st).1.site = (st'.recordSite record).1 := by
  rw [copyRecord]
  cases hrecord : record.recordKind with
  | fd | fork => exact ⟨st, rfl, rfl, rfl⟩
  | alloc => exact ⟨((st.dup record.ptr).2.dup (some (record.newPtr.getD dash))).2, rfl, rfl, rfl⟩
  | spawn | exec | execFail => exact ⟨(st.dup record.target).2, rfl, rfl, rfl⟩
  | resource =>
    cases record.relatedId with
    | none =>
      exact ⟨(((st.dup record.resourceClass).2.dup record.resourceId).2.dup record.metadata).2,
        rfl, rfl, rfl⟩
    | some id =>
      exact ⟨((((st.dup record.resourceClass).2.dup record.resourceId).2.dup (some id)).2.dup
        record.metadata).2, rfl, rfl, rfl⟩
  | call => exact absurd hrecord hkind.1
  | complete => exact absurd hrecord hkind.2

theorem reachable_copyRecord {record : ToolEventRecord} (event : ResourceEvent) (st : State lib)
    (hkind : record.recordKind ≠ .call ∧ record.recordKind ≠ .complete) :
    Reachable st.model (copyRecord record event st).2.model := by
  obtain ⟨st', hmodel, heq, -⟩ := copyRecord_interns event st hkind
  rw [heq, ← hmodel]
  exact .call (.internSite record.fileName record.functionName record.lineNumber) st'

theorem reachable_parseResourceLine (text : List UInt8) (sequence : Nat) (st : State lib) :
    Reachable st.model (parseResourceLine text sequence st).2.2.model := by
  have hobserved : Reachable st.model (st.observeResource (lib.parseLine text).2).model :=
    .of_records rfl
  have hoffered := hobserved.trans (reachable_ingestRunModel (lib.parseLine text).2 _)
  obtain ⟨status, -, heq⟩ | ⟨status, -, heq⟩ | heq | ⟨hkind, heq⟩ :=
    parseResourceLine_cases text sequence st
  · rw [heq]
    exact .refl _
  · rw [heq]
    exact hobserved
  · rw [heq]
    exact hoffered
  · rw [heq]
    exact hoffered.trans (reachable_copyRecord _ _ hkind)

theorem reachable_countResource (status : LineStatus) (event : ResourceEvent) (st : State lib) :
    Reachable st.model (countResource status event st).model := by
  cases status with
  | ok =>
    let counted : State lib :=
      { st with model := { st.model with resourceRecords := st.model.resourceRecords + 1 } }
    have hcounted : Reachable st.model counted.model := .of_records rfl
    exact hcounted.trans (.call (.ingestResource event) counted)
  | complete => exact .refl _
  | other | malformed | badVersion => exact .of_records rfl

theorem reachable_readResourceLine (text : List UInt8) (st : State lib) :
    Reachable st.model (readResourceLine text st).model :=
  (reachable_parseResourceLine text (st.model.resourceRecords + 1) st).trans
    (reachable_countResource _ _ _)

theorem reachable_readResourcesLoop (reads : List LineRead) (st : State lib) :
    Reachable st.model (readResourcesLoop reads st).model := by
  induction reads generalizing st with
  | nil => exact .refl _
  | cons read rest ih =>
    rw [readResourcesLoop]
    split
    · exact .refl _
    · dsimp only
      split
      · exact .refl _
      · exact (reachable_countResource .malformed {} (st.raiseIf read.raised)).trans (ih _)
      · exact (reachable_readResourceLine _ (st.raiseIf read.raised)).trans (ih _)

/-- **The resource reader** makes a run of calls, however it ends. -/
theorem reachable_readResources (path : Option Text) (log : LogFile) (st : State lib) :
    Reachable st.model (readResources path log st).model :=
  reachable_readResourcesLoop log.reads (openInput path log st)

theorem reachable_parseCallLine (text : List UInt8) (sequence : Nat) (st : State lib) :
    Reachable st.model (parseCallLine text sequence st).2.2.model := by
  obtain ⟨hframe, -⟩ := parseCallLine_ok text sequence st
  rw [hframe]
  exact .of_records rfl

theorem reachable_countCall (status : LineStatus) (event : CallEvent) (st : State lib) :
    Reachable st.model (countCall status event st).model := by
  cases status with
  | ok =>
    let counted : State lib :=
      { st with model := { st.model with callRecords := st.model.callRecords + 1 } }
    have hcounted : Reachable st.model counted.model := .of_records rfl
    exact hcounted.trans (.call (.addCall event) counted)
  | complete => exact .refl _
  | other | malformed | badVersion => exact .of_records rfl

theorem reachable_readCallLine (text : List UInt8) (st : State lib) :
    Reachable st.model (readCallLine text st).model :=
  (reachable_parseCallLine text (st.model.callRecords + 1) st).trans (reachable_countCall _ _ _)

theorem reachable_readCallsLoop (reads : List LineRead) (st : State lib) :
    Reachable st.model (readCallsLoop reads st).model := by
  induction reads generalizing st with
  | nil => exact .refl _
  | cons read rest ih =>
    rw [readCallsLoop]
    split
    · exact .refl _
    · dsimp only
      split
      · exact .refl _
      · exact (reachable_countCall .malformed {} (st.raiseIf read.raised)).trans (ih _)
      · exact (reachable_readCallLine _ (st.raiseIf read.raised)).trans (ih _)

/-- **The call reader** makes a run of calls, however it ends. -/
theorem reachable_readCalls (path : Option Text) (log : LogFile) (st : State lib) :
    Reachable st.model (readCalls path log st).model :=
  reachable_readCallsLoop log.reads (openInput path log st)

/-- Up to the output step. -/
theorem reachable_prepareReport (run : RunModelLib lib) (args : RunArguments)
    (input : RunInput lib) :
    ∃ st, (prepareReport run args input = .error st ∨ prepareReport run args input = .ok st) ∧
      Reachable (ReportModel.zeroed lib input.health) st.model := by
  have hcreated : Reachable (ReportModel.zeroed lib input.health)
      (createModel run input).model := .of_records rfl
  have hresources := hcreated.trans
    (reachable_readResources args.resourceLog input.resourceLog _)
  have hread := hresources.trans (reachable_readCalls args.callLog input.callLog _)
  rw [prepareReport]
  dsimp only
  split
  · exact ⟨_, Or.inl rfl, hcreated⟩
  · split
    · exact ⟨_, Or.inl rfl, hread⟩
    · split
      · exact ⟨_, Or.inl rfl, hread⟩
      · rename_i runModel _
        -- the run model is finished before the lifecycle
        let finished : State lib :=
          let read := readCalls args.callLog input.callLog
            (readResources args.resourceLog input.resourceLog (createModel run input))
          let result := run.modelFinish runModel read.err.allocations
          { model := { read.model with runModel := some result.value.1 }
            err := read.err.after result }
        have hfinished : Reachable (ReportModel.zeroed lib input.health) finished.model :=
          hread.trans (.of_records rfl)
        split
        · exact ⟨finished, Or.inl rfl, hfinished⟩
        · have hfinal := hfinished.trans (.call .finalizeLeaks finished)
          split
          · exact ⟨_, Or.inl rfl, hfinal⟩
          · exact ⟨_, Or.inr rfl, hfinal⟩

/-- **The program.** The model that a run of the report leaves behind is reached by calls from the
zeroed model, also when it gives up. -/
theorem reachable_reportRun (run : RunModelLib lib) (args : RunArguments) (input : RunInput lib) :
    Reachable (ReportModel.zeroed lib input.health) (reportRun run args input).state.model := by
  obtain ⟨st, hst | hst, hreached⟩ := reachable_prepareReport run args input
  · rw [reportRun, hst]
    exact hreached
  · rw [reportRun, hst]
    dsimp only
    split <;> exact hreached

end P101Report
