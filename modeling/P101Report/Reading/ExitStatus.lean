import P101Report.Reading.Preparation

/-!
# The exit status

A reader ends without an error exactly when its log could be opened, read and closed and none of its
lines has raised one (`readLog_iff`); so a run reaches its last decision exactly when there has been
no trouble (`noTrouble_iff`). The counters that decide it are the numbers of lines of each status
(`reportRun_status`).
-/

set_option autoImplicit false

namespace P101Report

open Runs

variable {lib : ToolEventLib}

/-! ## A log without trouble -/

/-- A log that could be opened, read to its end and closed. -/
structure LogOk (path : Option Text) (log : LogFile) : Prop where
  opened : path ≠ some dash → log.openFails = false
  closed : path ≠ some dash → log.closeFails = false
  reads : ∀ read ∈ log.reads, read.status ≠ .error ∧ read.raised = false

/-- No line of a log raises an error. -/
def LinesOk (step : State lib → LineRead → State lib) (st : State lib) (reads : List LineRead) :
    Prop :=
  EveryStep step (fun st read => (step st read).err.error = false) st reads

/-- The line reader raises an error when it fails. -/
def RaisesErrors (reads : List LineRead) : Prop :=
  ∀ read ∈ reads, read.status = .error → read.raised = true

theorem error_raiseIf {raised : Bool} {st : State lib} :
    (st.raiseIf raised).err.error = false ↔ st.err.error = false ∧ raised = false := by
  simp [State.raiseIf]

/-- Lines that raise no error end without one. -/
theorem error_of_linesOk {step : State lib → LineRead → State lib} {st : State lib}
    {reads : List LineRead} (hstart : st.err.error = false) (h : LinesOk step st reads) :
    (reads.foldl step st).err.error = false := by
  induction reads generalizing st with
  | nil => exact hstart
  | cons read rest ih => exact ih h.1 h.2

theorem readLines_of_ok {reads : List LineRead} (h : ∀ read ∈ reads, read.status ≠ .error) :
    readLines reads = reads := by
  rw [readLines, List.takeWhile_eq_self_iff]
  intro read hread
  exact decide_eq_true (h read hread)

section Loop

variable {onMalformed : State lib → State lib} {onLine : List UInt8 → State lib → State lib}
  (hmalformed : Sticky onMalformed) (hline : ∀ text, Sticky (onLine text))

include hmalformed hline in
/-- A loop that ends without an error has not met a read that failed or raised one. -/
theorem reads_of_readLoop_ok {reads : List LineRead} {st : State lib} (hraises : RaisesErrors reads)
    (h : (readLoop onMalformed onLine reads st).err.error = false) :
    ∀ read ∈ reads, read.status ≠ .error ∧ read.raised = false := by
  induction reads generalizing st with
  | nil => exact fun read hread => absurd hread List.not_mem_nil
  | cons read rest ih =>
    have hrest : RaisesErrors rest :=
      fun read hread => hraises read (List.mem_cons_of_mem _ hread)
    rw [readLoop] at h
    split at h
    · rename_i herror
      rw [herror] at h
      cases h
    · have hone : read.status ≠ .error ∧ read.raised = false ∧
          (readLoop onMalformed onLine rest
            (readStep onMalformed onLine st read)).err.error = false := by
        cases hstatus : read.status with
        | error =>
          -- a failed read raises an error, with which the loop would have ended
          have hraised := hraises read List.mem_cons_self hstatus
          simp only [hstatus, readStep, hraised] at h
          exact absurd (error_raiseIf.1 h).2 (by simp)
        | malformed =>
          simp only [hstatus] at h
          have hstep := readStep_sticky hmalformed hline read st (readLoop_ok h).1
          have hraised := readStep_raised hmalformed hline (readLoop_ok h).1
          exact ⟨by simp, (error_raiseIf.1 (hraised.symm ▸ hstep)).2, h⟩
        | line text =>
          simp only [hstatus] at h
          have hstep := readStep_sticky hmalformed hline read st (readLoop_ok h).1
          have hraised := readStep_raised hmalformed hline (readLoop_ok h).1
          exact ⟨by simp, (error_raiseIf.1 (hraised.symm ▸ hstep)).2, h⟩
      intro later hlater
      rcases List.mem_cons.1 hlater with rfl | hlater
      · exact ⟨hone.1, hone.2.1⟩
      · exact ih hrest hone.2.2 later hlater

/-- Lines that raise no error are all read. -/
theorem readLoop_of_linesOk {reads : List LineRead} {st : State lib}
    (hreads : ∀ read ∈ reads, read.status ≠ .error) (hstart : st.err.error = false)
    (h : LinesOk (readStep onMalformed onLine) st reads) :
    readLoop onMalformed onLine reads st = reads.foldl (readStep onMalformed onLine) st := by
  induction reads generalizing st with
  | nil => rfl
  | cons read rest ih =>
    have hread := hreads read List.mem_cons_self
    rw [readLoop, if_neg (by simp [hstart])]
    cases hstatus : read.status with
    | error => exact absurd hstatus hread
    | malformed => exact ih (fun read hread => hreads read (List.mem_cons_of_mem _ hread)) h.1 h.2
    | line text => exact ih (fun read hread => hreads read (List.mem_cons_of_mem _ hread)) h.1 h.2

include hmalformed hline in
/-- **A log read without an error.** -/
theorem readLog_iff {path : Option Text} {log : LogFile} {st : State lib}
    (hraises : RaisesErrors log.reads) :
    (closeIfOwned path log
        (readLoop onMalformed onLine log.reads (openInput path log st))).err.error = false ↔
      st.err.error = false ∧ LogOk path log ∧
        LinesOk (readStep onMalformed onLine) st log.reads := by
  rw [closeIfOwned, openInput, error_raiseIf]
  constructor
  · rintro ⟨hloop, hclose⟩
    have hreads := reads_of_readLoop_ok hmalformed hline hraises hloop
    obtain ⟨hopen, hfold⟩ := readLoop_ok hloop
    obtain ⟨hstart, hopened⟩ := error_raiseIf.1 hopen
    rw [hfold, hopened, raiseIf_false, readLines_of_ok fun read hread => (hreads read hread).1]
      at hloop
    obtain ⟨-, hevery⟩ := everyStep_of_ok (readStep_sticky hmalformed hline) hloop
    simp only [decide_eq_false_iff_not, not_and, Bool.not_eq_true] at hopened hclose
    refine ⟨hstart, ⟨hopened, fun hpath => hclose hpath ?_, hreads⟩, hevery⟩
    rw [hopened hpath]
    rfl
  · rintro ⟨hstart, ⟨hopened, hclosed, hreads⟩, hlines⟩
    have hopen : decide (path ≠ some dash ∧ log.openFails = true) = false := by
      simp only [decide_eq_false_iff_not, not_and, Bool.not_eq_true]
      exact hopened
    rw [hopen, raiseIf_false,
      readLoop_of_linesOk (fun read hread => (hreads read hread).1) hstart hlines]
    refine ⟨error_of_linesOk hstart hlines, ?_⟩
    simp only [decide_eq_false_iff_not, not_and, Bool.not_eq_true]
    exact fun hpath _ => hclosed hpath

end Loop

theorem readResources_iff {path : Option Text} {log : LogFile} {st : State lib}
    (hraises : RaisesErrors log.reads) :
    (readResources path log st).err.error = false ↔
      st.err.error = false ∧ LogOk path log ∧ LinesOk resourceStep st log.reads := by
  rw [readResources, readResourcesLoop_eq]
  exact readLog_iff (countResource_sticky _ _) readResourceLine_sticky hraises

theorem readCalls_iff {path : Option Text} {log : LogFile} {st : State lib}
    (hraises : RaisesErrors log.reads) :
    (readCalls path log st).err.error = false ↔
      st.err.error = false ∧ LogOk path log ∧ LinesOk callStep st log.reads := by
  rw [readCalls, readCallsLoop_eq]
  exact readLog_iff (countCall_sticky _ _) readCallLine_sticky hraises

/-! ## A run without trouble -/

/-- No I/O or memory error in a run: the run model is created and finished, both logs are opened,
read and closed, and neither a line, nor finalization, nor the output raises an error. -/
structure NoTrouble (run : RunModelLib lib) (args : RunArguments) (input : RunInput lib) :
    Prop where
  created : (run.modelCreate input.allocations).value.isSome = true ∧
    (run.modelCreate input.allocations).raised = false
  resourceLog : LogOk args.resourceLog input.resourceLog
  callLog : LogOk args.callLog input.callLog
  resourceLines : LinesOk resourceStep (createModel run input) input.resourceLog.reads
  callLines : LinesOk callStep
    (readResources args.resourceLog input.resourceLog (createModel run input)) input.callLog.reads
  finished : ∃ runModel, (readLogs run args input).model.runModel = some runModel ∧
    (run.modelFinish runModel (readLogs run args input).err.allocations).value.2 = false ∧
    (finalizeLeaks (finishModel run runModel (readLogs run args input))).err.error = false
  written : outputRaises args input = false

/-- A run reaches its last decision exactly when there has been no trouble. -/
theorem noTrouble_iff {run : RunModelLib lib} {args : RunArguments} {input : RunInput lib}
    (hresources : RaisesErrors input.resourceLog.reads)
    (hcalls : RaisesErrors input.callLog.reads) :
    NoTrouble run args input ↔
      ∃ st, prepareReport run args input = .ok st ∧ outputRaises args input = false := by
  have hcreated : (createModel run input).err.error =
      (run.modelCreate input.allocations).raised := by
    simp [createModel, ErrState.after]
  have hlogs : (readLogs run args input).err.error = false ↔
      (run.modelCreate input.allocations).raised = false ∧
        (LogOk args.resourceLog input.resourceLog ∧
          LinesOk resourceStep (createModel run input) input.resourceLog.reads) ∧
        LogOk args.callLog input.callLog ∧ LinesOk callStep
          (readResources args.resourceLog input.resourceLog (createModel run input))
          input.callLog.reads := by
    rw [readLogs, readCalls_iff hcalls, readResources_iff hresources, hcreated, and_assoc]
  constructor
  · rintro ⟨⟨hmodel, hraised⟩, hlog, hlog', hlines, hlines', ⟨runModel, hsome, hfinish, hfinal⟩,
      hwritten⟩
    have hread := hlogs.2 ⟨hraised, ⟨hlog, hlines⟩, hlog', hlines'⟩
    exact ⟨_, prepareReport_eq_ok.2 ⟨hmodel, hread, runModel, hsome, hfinish, rfl, hfinal⟩,
      hwritten⟩
  · rintro ⟨st, hst, hwritten⟩
    obtain ⟨hmodel, hread, runModel, hsome, hfinish, rfl, hfinal⟩ := prepareReport_eq_ok.1 hst
    obtain ⟨hraised, ⟨hlog, hlines⟩, hlog', hlines'⟩ := hlogs.1 hread
    exact ⟨⟨hmodel, hraised⟩, hlog, hlog', hlines, hlines', ⟨runModel, hsome, hfinish, hfinal⟩,
      hwritten⟩

theorem reportRun_of_trouble {run : RunModelLib lib} {args : RunArguments} {input : RunInput lib}
    (h : ¬ ∃ st, prepareReport run args input = .ok st ∧ outputRaises args input = false) :
    (reportRun run args input).status = exitTrouble := by
  rw [reportRun]
  cases hprepare : prepareReport run args input with
  | error stopped => rfl
  | ok st =>
    dsimp only
    have hraises : outputRaises args input = true := by
      by_contra hwritten
      exact h ⟨st, hprepare, by simpa using hwritten⟩
    rw [if_pos (by simp [State.raiseIf, hraises])]

/-! ## The last decision -/

/-- The counters of a stream are the numbers of its lines of each status. -/
def CountsLines (counts : Counts) (lines : List LineStatus) : Prop :=
  counts.records = lines.count .ok ∧ counts.skipped = lines.count .other ∧
    counts.malformed = lines.count .malformed ∧ counts.badVersion = lines.count .badVersion ∧
    lines.length = counts.records + counts.skipped + counts.malformed + counts.badVersion +
      lines.count .complete

theorem countsLines_addAll {counts : Counts} {lines : List LineStatus}
    (h : counts = Counts.addAll ⟨0, 0, 0, 0⟩ lines) : CountsLines counts lines := by
  rw [Counts.addAll_eq] at h
  subst h
  simp only [CountsLines, Nat.zero_add, true_and]
  exact length_eq_count lines

/-- The evidence of a run is complete: no line is malformed or of an unsupported version, and both
streams have all their completions. -/
def CompleteEvidence (model : ReportModel lib) (lines : List LineStatus) : Prop :=
  (∀ status ∈ lines, status ≠ .malformed ∧ status ≠ .badVersion) ∧
    lib.healthIsComplete model.resourceStreamHealth = true ∧
    lib.healthIsComplete model.callStreamHealth = true

theorem count_eq_zero_of_ok {lines : List LineStatus} :
    (∀ status ∈ lines, status ≠ .malformed ∧ status ≠ .badVersion) ↔
      lines.count .malformed = 0 ∧ lines.count .badVersion = 0 := by
  simp only [List.count_eq_zero]
  constructor
  · exact fun h => ⟨fun hmem => (h _ hmem).1 rfl, fun hmem => (h _ hmem).2 rfl⟩
  · rintro ⟨hmalformed, hversion⟩ status hstatus
    constructor
    · rintro rfl
      exact hmalformed hstatus
    · rintro rfl
      exact hversion hstatus

/-- The last decision, by the lines of both logs. -/
theorem exitStatus_cases {model : ReportModel lib} {lines callLines : List LineStatus}
    (hcounts : CountsLines model.records.resourceCounts lines)
    (hcalls : CountsLines model.records.callCounts callLines) :
    (¬ CompleteEvidence model (lines ++ callLines) ∧ exitStatus model = exitTrouble) ∨
      CompleteEvidence model (lines ++ callLines) ∧
        (model.findings.items = [] ∧ exitStatus model = exitClean ∨
          model.findings.items ≠ [] ∧ exitStatus model = exitFindings) := by
  obtain ⟨-, -, hmalformed, hversion, -⟩ := hcounts
  obtain ⟨-, -, hmalformed', hversion', -⟩ := hcalls
  have hevidence : CompleteEvidence model (lines ++ callLines) ↔
      ¬ (model.resourceMalformed ≠ 0 ∨ model.callMalformed ≠ 0 ∨ model.resourceBadVersion ≠ 0 ∨
        model.callBadVersion ≠ 0 ∨ (!lib.healthIsComplete model.resourceStreamHealth) = true ∨
        (!lib.healthIsComplete model.callStreamHealth) = true) := by
    change model.resourceMalformed = _ at hmalformed
    change model.resourceBadVersion = _ at hversion
    change model.callMalformed = _ at hmalformed'
    change model.callBadVersion = _ at hversion'
    rw [CompleteEvidence, count_eq_zero_of_ok, List.count_append, List.count_append, hmalformed,
      hversion, hmalformed', hversion']
    simp only [not_or, not_not, Bool.not_eq_true', Bool.not_eq_false, Nat.add_eq_zero_iff]
    tauto
  rw [hevidence, exitStatus]
  split
  · rename_i hbad
    exact Or.inl ⟨not_not.2 hbad, rfl⟩
  · rename_i hgood
    refine Or.inr ⟨hgood, ?_⟩
    split
    · rename_i hnone
      exact Or.inl ⟨List.length_eq_zero_iff.1 hnone, rfl⟩
    · rename_i hsome
      exact Or.inr ⟨fun hnone => hsome (by rw [hnone]; rfl), rfl⟩

/-- The counters of a run that reaches its last decision. -/
theorem prepareReport_counts {run : RunModelLib lib} {args : RunArguments} {input : RunInput lib}
    {st : State lib} (h : prepareReport run args input = .ok st)
    (hresources : RaisesErrors input.resourceLog.reads)
    (hcalls : RaisesErrors input.callLog.reads) :
    let start := createModel run input
    let between := readResources args.resourceLog input.resourceLog start
    CountsLines st.model.records.resourceCounts
        (statuses resourceStatus resourceStep start input.resourceLog.reads) ∧
      CountsLines st.model.records.callCounts
        (statuses callStatus callStep between input.callLog.reads) := by
  intro start between
  obtain ⟨hread, -, runModel, err, rfl⟩ := prepareReport_ok h
  obtain ⟨hbetween, hcallLog, -⟩ := (readCalls_iff hcalls).1 hread
  obtain ⟨-, hlog, -⟩ := (readResources_iff hresources).1 hbetween
  obtain ⟨-, heq⟩ := readCalls_ok hread
  obtain ⟨-, heq'⟩ := readResources_ok hbetween
  rw [readLines_of_ok fun read hread => (hcallLog.reads read hread).1] at heq
  rw [readLines_of_ok fun read hread => (hlog.reads read hread).1] at heq'
  obtain ⟨hresource, hcall, -⟩ :=
    resourceRun_counts start fun read hread => (hlog.reads read hread).1
  obtain ⟨hcall', hresource', -⟩ :=
    callRun_counts between fun read hread => (hcallLog.reads read hread).1
  rw [← heq'] at hresource hcall
  rw [← heq] at hcall' hresource'
  -- neither `p101_tool_model_finish` nor finalization counts a line
  obtain ⟨-, hrecords, -⟩ := finalizeLeaks_onlyInterns
    ⟨{ (readLogs run args input).model with runModel := runModel }, err⟩
  rw [hrecords]
  have hzero : between.model.records.callCounts = ⟨0, 0, 0, 0⟩ := hcall
  rw [hzero] at hcall'
  exact ⟨countsLines_addAll (hresource'.trans hresource), countsLines_addAll hcall'⟩

/-- **The exit status.** With any trouble the result is `EXIT_TROUBLE`. Without, the counters of
each log are the numbers of its lines of each status, and the result is `EXIT_CLEAN` or
`EXIT_FINDINGS` exactly when the evidence is complete, by whether there is a finding. -/
theorem reportRun_status (run : RunModelLib lib) (args : RunArguments) (input : RunInput lib)
    (hresources : RaisesErrors input.resourceLog.reads)
    (hcalls : RaisesErrors input.callLog.reads) :
    let result := reportRun run args input
    let start := createModel run input
    let between := readResources args.resourceLog input.resourceLog start
    let lines := statuses resourceStatus resourceStep start input.resourceLog.reads
    let callLines := statuses callStatus callStep between input.callLog.reads
    let complete := CompleteEvidence result.state.model (lines ++ callLines)
    let findings := result.state.model.findings.items
    (¬ NoTrouble run args input → result.status = exitTrouble) ∧
      (NoTrouble run args input →
        CountsLines result.state.model.records.resourceCounts lines ∧
        CountsLines result.state.model.records.callCounts callLines ∧
        (result.status = exitClean ↔ complete ∧ findings = []) ∧
        (result.status = exitFindings ↔ complete ∧ findings ≠ []) ∧
        (result.status = exitTrouble ↔ ¬ complete)) := by
  intro result start between lines callLines complete findings
  rw [noTrouble_iff hresources hcalls]
  refine ⟨reportRun_of_trouble, ?_⟩
  rintro ⟨st, hst, hwritten⟩
  obtain ⟨hstate, hstatus, -⟩ := reportRun_of_ok hst hwritten
  obtain ⟨hcounts, hcallCounts⟩ := prepareReport_counts hst hresources hcalls
  have hdecision := exitStatus_cases hcounts hcallCounts
  rw [← hstatus, ← hstate] at hdecision
  change result.state = st at hstate
  rw [← hstate] at hcounts hcallCounts
  refine ⟨hcounts, hcallCounts, ?_⟩
  -- the three results are different numbers
  have hne : exitClean ≠ exitFindings ∧ exitClean ≠ exitTrouble ∧ exitFindings ≠ exitTrouble := by
    decide
  obtain ⟨hfindings, htrouble, htrouble'⟩ := hne
  change ¬ complete ∧ result.status = exitTrouble ∨
    complete ∧ (findings = [] ∧ result.status = exitClean ∨
      findings ≠ [] ∧ result.status = exitFindings) at hdecision
  obtain ⟨hbad, heq⟩ | ⟨hgood, ⟨hnone, heq⟩ | ⟨hsome, heq⟩⟩ := hdecision
  · rw [heq]
    exact ⟨iff_of_false htrouble.symm fun h => hbad h.1,
      iff_of_false htrouble'.symm fun h => hbad h.1, iff_of_true rfl hbad⟩
  · rw [heq]
    exact ⟨iff_of_true rfl ⟨hgood, hnone⟩, iff_of_false hfindings fun h => h.2 hnone,
      iff_of_false htrouble fun h => h hgood⟩
  · rw [heq]
    exact ⟨iff_of_false hfindings.symm fun h => hsome h.2, iff_of_true rfl ⟨hgood, hsome⟩,
      iff_of_false htrouble' fun h => h hgood⟩

theorem leakInput_raises : RaisesErrors leakInput.resourceLog.reads ∧
    RaisesErrors leakInput.callLog.reads := by
  constructor
  · intro read hread herror
    rw [List.mem_singleton.1 hread] at herror
    cases herror
  · intro read hread herror
    rw [List.mem_singleton.1 hread] at herror
    cases herror

theorem leakInput_noTrouble : NoTrouble fixtureRun fixtureArguments leakInput := by
  apply (noTrouble_iff leakInput_raises.1 leakInput_raises.2).2
  obtain ⟨st, h⟩ := leakInput_ok
  exact ⟨st, h, rfl⟩

/-- A run without trouble. -/
theorem reportRun_status_leak :
    let result := reportRun fixtureRun fixtureArguments leakInput
    let start := createModel fixtureRun leakInput
    let between := readResources fixtureArguments.resourceLog leakInput.resourceLog start
    let lines := statuses resourceStatus resourceStep start leakInput.resourceLog.reads
    let callLines := statuses callStatus callStep between leakInput.callLog.reads
    let complete := CompleteEvidence result.state.model (lines ++ callLines)
    let findings := result.state.model.findings.items
    NoTrouble fixtureRun fixtureArguments leakInput ∧
      CountsLines result.state.model.records.resourceCounts lines ∧
      CountsLines result.state.model.records.callCounts callLines ∧
      (result.status = exitClean ↔ complete ∧ findings = []) ∧
      (result.status = exitFindings ↔ complete ∧ findings ≠ []) ∧
      (result.status = exitTrouble ↔ ¬ complete) :=
  ⟨leakInput_noTrouble, (reportRun_status fixtureRun fixtureArguments leakInput leakInput_raises.1
    leakInput_raises.2).2 leakInput_noTrouble⟩

end P101Report
