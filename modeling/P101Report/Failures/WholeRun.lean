import P101Report.Failures.Comparisons
import P101Report.Reading.Preparation

/-!
# Allocation failures in a whole run

Parsing, both readers and the preparation of the report are built from the operations of the model,
so they do not fail in silence either (`readResources_transparent`, `readCalls_transparent`,
`prepareFrom_transparent`). A run therefore has two outcomes only, whatever allocations fail: it
gives up with `EXIT_TROUBLE` and writes nothing, or it ends with the model, the exit status and the
output of the run in which no allocation fails (`reportRun_transparent`). A run that compares a null
pointer, which may end the program there, is among those that give up.
-/

set_option autoImplicit false

namespace P101Report

open Faults

variable {lib : ToolEventLib}

/-! ## Parsing -/

theorem dup_transparent (text : Option Text) :
    Transparent (stateWorld lib) ((stateWorld lib).returning (Option Text)) (State.dup text) :=
  ofModel_transparent fun model =>
    (dupText_transparent text).bind fun copy => (withModel_transparent model).returning copy

theorem recordSite_transparent (record : ToolEventRecord) :
    Transparent (stateWorld lib) ((stateWorld lib).returning Nat) (State.recordSite record) :=
  internSite_transparent record.fileName record.functionName record.lineNumber

/-- The copies of a record are made one after the other, whatever its kind. -/
theorem copyRecord_transparent (record : ToolEventRecord) (event : ResourceEvent) :
    Transparent (stateWorld lib) ((stateWorld lib).returning ResourceEvent)
      (copyRecord record event) := by
  have hsite := @recordSite_transparent lib record
  unfold copyRecord
  cases record.recordKind with
  | fd =>
    exact hsite.map fun site =>
      { event with
        kind := if record.fdKind = ToolFdKind.opened then .fdOpen else .fdClose
        fd := record.fd, site }
  | alloc =>
    have hevent (kind : ResourceKind) := (dup_transparent record.ptr).bind fun ptr =>
      (dup_transparent (some (record.newPtr.getD dash))).bind fun newPtr =>
        hsite.map fun site => { event with kind, ptr, newPtr, size := record.size, site }
    exact hevent _
  | fork =>
    exact hsite.map fun site => { event with kind := .fork, childPid := record.childPid, site }
  | spawn =>
    exact (dup_transparent record.target).bind fun target =>
      hsite.map fun site =>
        { event with kind := .spawn, childPid := record.childPid, target, site }
  | exec =>
    exact (dup_transparent record.target).bind fun target =>
      hsite.map fun site =>
        { event with kind := .exec, fd := record.fd, cloexec := record.cloexec, target, site }
  | execFail =>
    exact (dup_transparent record.target).bind fun target =>
      hsite.map fun site => { event with kind := .execFail, target, site }
  | resource =>
    have hcopies (resourceClass resourceId relatedId : Option Text) :=
      (dup_transparent record.metadata).bind fun metadata =>
        hsite.map fun site =>
          { event with
            kind := .generic, genericKind := record.resourceKind, resourceClass, resourceId
            relatedId, metadata, size := record.size, site }
    cases record.relatedId with
    | none =>
      exact (dup_transparent record.resourceClass).bind fun resourceClass =>
        (dup_transparent record.resourceId).bind fun resourceId =>
          hcopies resourceClass resourceId none
    | some id =>
      exact (dup_transparent record.resourceClass).bind fun resourceClass =>
        (dup_transparent record.resourceId).bind fun resourceId =>
          (dup_transparent (some id)).bind fun relatedId =>
            hcopies resourceClass resourceId relatedId
  | call => exact Transparent.id.returning event
  | complete => exact Transparent.id.returning event

/-- The copies of a call record, likewise. -/
theorem copyCall_transparent (record : ToolEventRecord) (event : CallEvent) :
    Transparent (stateWorld lib) ((stateWorld lib).returning CallEvent) (copyCall record event) :=
  (dup_transparent record.functionName).bind fun functionName =>
    (dup_transparent record.callName).bind fun callName =>
      (dup_transparent record.arguments).bind fun arguments =>
        (dup_transparent record.result).bind fun result =>
          (dup_transparent record.fileName).map fun fileName =>
            { event with
              kind := if record.callKind = CallKind.enter then .enter else .exit
              lineNumber := record.lineNumber, functionName, callName, arguments, result, fileName }

/-- The calls into the libraries that a run makes are honest. -/
structure HonestLibrary (lib : ToolEventLib) (run : RunModelLib lib) : Prop where
  lifecycle : HonestLifecycle lib
  modelIngest : ∀ runModel record, Honest (lib.modelIngest runModel record)
  modelCreate : Honest run.modelCreate
  modelFinish : ∀ runModel, Honest (run.modelFinish runModel)

/-- The run model sees the same record, and without one every record is accepted. -/
theorem ingestRunModel_transparent
    (hingest : ∀ runModel record, Honest (lib.modelIngest runModel record))
    (record : ToolEventRecord) :
    Transparent (stateWorld lib) ((stateWorld lib).returning Bool) (ingestRunModel record) := by
  refine ofModel_transparent fun model => ?_
  cases hrunModel : model.runModel with
  | none =>
    simp only [ingestRunModel, hrunModel]
    exact (withModel_transparent model).returning true
  | some runModel =>
    simp only [ingestRunModel, hrunModel]
    exact (honest_transparent (hingest runModel record)).bind fun value =>
      (withModel_transparent { model with runModel := some value.1 }).returning value.2

/-- A record that the run model has accepted is copied; an error makes the line malformed. -/
theorem accepting_transparent {α : Type}
    (hingest : ∀ runModel record, Honest (lib.modelIngest runModel record))
    (record : ToolEventRecord) (zeroed : α) {copy : State lib → α × State lib}
    (hcopy : Transparent (stateWorld lib) ((stateWorld lib).returning α) copy) :
    Transparent (stateWorld lib) (((stateWorld lib).returning α).returning LineStatus) fun st =>
      let (accepted, st) := ingestRunModel record st
      if !accepted then (.malformed, zeroed, st)
      else
        let (event, st) := copy st
        (if st.err.error then .malformed else .ok, event, st) := by
  have hstatus (event : α) :
      Transparent (stateWorld lib) (((stateWorld lib).returning α).returning LineStatus)
        fun st => (if st.err.error then LineStatus.malformed else .ok, event, st) := by
    refine (Transparent.ifFailed (f := fun st => (LineStatus.malformed, event, st))
      (fun _ h => h) ((Transparent.id.returning event).returning LineStatus.ok)).congr fun st => ?_
    exact apply_ite (fun status => (status, event, st)) _ _ _
  have haccepted (accepted : Bool) :
      Transparent (stateWorld lib) (((stateWorld lib).returning α).returning LineStatus) fun st =>
        if !accepted then (.malformed, zeroed, st)
        else (if (copy st).2.err.error then .malformed else .ok, (copy st).1, (copy st).2) := by
    cases accepted with
    | true => exact hcopy.bind hstatus
    | false => exact (Transparent.id.returning zeroed).returning LineStatus.malformed
  exact (ingestRunModel_transparent hingest record).bind haccepted

/-- What the library parses from a line does not depend on allocations. -/
theorem parseResourceLine_transparent
    (hingest : ∀ runModel record, Honest (lib.modelIngest runModel record))
    (line : List UInt8) (sequence : Nat) :
    Transparent (stateWorld lib) (((stateWorld lib).returning ResourceEvent).returning LineStatus)
      (parseResourceLine line sequence) := by
  rcases hparse : lib.parseLine line with ⟨parsed, record⟩
  have hhealth := @model_transparent lib fun model =>
    { model with
      resourceStreamHealth := lib.healthObserve model.resourceStreamHealth record }
  have hstatus (status : LineStatus) := ((@Transparent.id _ (stateWorld lib)).returning
    ({} : ResourceEvent)).returning status
  unfold parseResourceLine
  cases hmapped : mapParseStatus parsed with
  | ok =>
    simp only [hparse, hmapped]
    split_ifs
    · exact hhealth.comp (hstatus .complete)
    · exact hhealth.comp (hstatus .other)
    · exact hhealth.comp (accepting_transparent hingest record {}
        (copyRecord_transparent record (copyResourceMetadata record sequence)))
  | other | complete | malformed | badVersion =>
    simp only [hparse, hmapped]
    exact hstatus _

/-- The call log is parsed alike. -/
theorem parseCallLine_transparent
    (hingest : ∀ runModel record, Honest (lib.modelIngest runModel record))
    (line : List UInt8) (sequence : Nat) :
    Transparent (stateWorld lib) (((stateWorld lib).returning CallEvent).returning LineStatus)
      (parseCallLine line sequence) := by
  rcases hparse : lib.parseLine line with ⟨parsed, record⟩
  have hhealth := @model_transparent lib fun model =>
    { model with callStreamHealth := lib.healthObserve model.callStreamHealth record }
  have hstatus (status : LineStatus) := ((@Transparent.id _ (stateWorld lib)).returning
    ({} : CallEvent)).returning status
  unfold parseCallLine
  cases hmapped : mapParseStatus parsed with
  | ok =>
    simp only [hparse, hmapped]
    split_ifs
    · exact hhealth.comp (hstatus .complete)
    · exact hhealth.comp (hstatus .other)
    · exact hhealth.comp (accepting_transparent hingest record {}
        (copyCall_transparent record (copyCallMetadata record sequence)))
  | other | complete | malformed | badVersion =>
    simp only [hparse, hmapped]
    exact hstatus _

/-! ## Reading -/

theorem raiseIf_transparent (raised : Bool) :
    FailureTransparent fun st : State lib => st.raiseIf raised := by
  intro st h
  refine ⟨fun herror => h ?_, rfl⟩
  exact Bool.or_eq_true_iff.2 (Or.inl herror)

/-- Counting a line, and ingesting the record of a good one. -/
theorem countResource_transparent (hlib : HonestLifecycle lib) (status : LineStatus)
    (event : ResourceEvent) :
    FailureTransparent (countResource status event : State lib → State lib) := by
  cases status with
  | other =>
    exact model_transparent fun model => { model with resourceSkipped := model.resourceSkipped + 1 }
  | ok =>
    exact (model_transparent fun model =>
      { model with resourceRecords := model.resourceRecords + 1 }).comp
        (ingestResource_transparent hlib event)
  | complete => exact Transparent.id
  | malformed =>
    exact model_transparent fun model =>
      { model with resourceMalformed := model.resourceMalformed + 1 }
  | badVersion =>
    exact model_transparent fun model =>
      { model with resourceBadVersion := model.resourceBadVersion + 1 }

/-- Counting a line of the call log, and storing the call of a good one. -/
theorem countCall_transparent (status : LineStatus) (event : CallEvent) :
    FailureTransparent (countCall status event : State lib → State lib) := by
  cases status with
  | other =>
    exact model_transparent fun model => { model with callSkipped := model.callSkipped + 1 }
  | ok =>
    exact (model_transparent fun model => { model with callRecords := model.callRecords + 1 }).comp
      (addCall_transparent event)
  | complete => exact Transparent.id
  | malformed =>
    exact model_transparent fun model => { model with callMalformed := model.callMalformed + 1 }
  | badVersion =>
    exact model_transparent fun model => { model with callBadVersion := model.callBadVersion + 1 }

/-- A line is parsed, and what it holds is counted. -/
theorem readResourceLine_transparent {run : RunModelLib lib} (hlib : HonestLibrary lib run)
    (text : List UInt8) :
    FailureTransparent (readResourceLine text : State lib → State lib) := by
  intro st h
  exact ((parseResourceLine_transparent hlib.modelIngest text (st.model.resourceRecords + 1)).bind
    fun status => Transparent.given fun event =>
      countResource_transparent hlib.lifecycle status event) st h

theorem readCallLine_transparent {run : RunModelLib lib} (hlib : HonestLibrary lib run)
    (text : List UInt8) :
    FailureTransparent (readCallLine text : State lib → State lib) := by
  intro st h
  exact ((parseCallLine_transparent hlib.modelIngest text (st.model.callRecords + 1)).bind
    fun status => Transparent.given fun event => countCall_transparent status event) st h

/-- The loop of a reader, which stops at the first error. -/
theorem readLoop_transparent {onMalformed : State lib → State lib}
    {onLine : List UInt8 → State lib → State lib} (hmalformed : FailureTransparent onMalformed)
    (hline : ∀ text, FailureTransparent (onLine text)) (reads : List LineRead) :
    FailureTransparent (readLoop onMalformed onLine reads) := by
  induction reads with
  | nil => exact Transparent.id
  | cons read rest ih =>
    have hstep : FailureTransparent fun st => readStep onMalformed onLine st read := by
      unfold readStep
      cases read.status with
      | error => exact raiseIf_transparent read.raised
      | malformed => exact (raiseIf_transparent read.raised).comp hmalformed
      | line text => exact (raiseIf_transparent read.raised).comp (hline text)
    cases hstatus : read.status with
    | error => exact hstep.unlessFailed.congr fun st => by simp only [readLoop, hstatus]; rfl
    | malformed =>
      exact (hstep.comp ih).unlessFailed.congr fun st => by simp only [readLoop, hstatus]; rfl
    | line text =>
      exact (hstep.comp ih).unlessFailed.congr fun st => by simp only [readLoop, hstatus]; rfl

/-- **The resource log.** -/
theorem readResources_transparent {run : RunModelLib lib} (hlib : HonestLibrary lib run)
    (path : Option Text) (log : LogFile) :
    FailureTransparent (readResources path log : State lib → State lib) := by
  have hloop := (readLoop_transparent (countResource_transparent hlib.lifecycle .malformed {})
    (readResourceLine_transparent hlib) log.reads).congr (readResourcesLoop_eq log.reads)
  exact ((raiseIf_transparent _).comp hloop).comp (raiseIf_transparent _)

/-- **The call log.** -/
theorem readCalls_transparent {run : RunModelLib lib} (hlib : HonestLibrary lib run)
    (path : Option Text) (log : LogFile) :
    FailureTransparent (readCalls path log : State lib → State lib) := by
  have hloop := (readLoop_transparent (countCall_transparent .malformed {})
    (readCallLine_transparent hlib) log.reads).congr (readCallsLoop_eq log.reads)
  exact ((raiseIf_transparent _).comp hloop).comp (raiseIf_transparent _)

/-! ## The run -/

/-- The result of a run up to its output. -/
def endWorld (lib : ToolEventLib) : World (Except (State lib) (State lib)) where
  calm
    | .error st => .error ((stateWorld lib).calm st)
    | .ok st => .ok ((stateWorld lib).calm st)
  failed
    | .error st | .ok st => st.err.error = true
  failed_calm
    | .error _ | .ok _ => Iff.rfl

theorem error_transparent :
    Transparent (stateWorld lib) (endWorld lib) fun st => .error st := fun _ h => ⟨h, rfl⟩

theorem ok_transparent :
    Transparent (stateWorld lib) (endWorld lib) fun st => .ok st := fun _ h => ⟨h, rfl⟩

/-- What `prepareReport` does with the created model. -/
def prepareFrom (run : RunModelLib lib) (args : RunArguments) (resourceLog callLog : LogFile)
    (st : State lib) : Except (State lib) (State lib) :=
  if st.model.runModel.isNone then .error st
  else
    let st := readResources args.resourceLog resourceLog st
    let st := readCalls args.callLog callLog st
    if st.err.error then .error st
    else
      match st.model.runModel with
      | none => .error st
      | some runModel =>
        let result := run.modelFinish runModel st.err.allocations
        let (runModel, failed) := result.value
        let st : State lib :=
          { model := { st.model with runModel := some runModel }, err := st.err.after result }
        if failed then .error st
        else
          let st := finalizeLeaks st
          if st.err.error then .error st else .ok st

/-- Preparation begins with the created model. -/
theorem prepareReport_eq (run : RunModelLib lib) (args : RunArguments) (input : RunInput lib) :
    prepareReport run args input =
      prepareFrom run args input.resourceLog input.callLog (createModel run input) := rfl

/-- **Preparation.** Everything from the created model up to the output. -/
theorem prepareFrom_transparent {run : RunModelLib lib} (hlib : HonestLibrary lib run)
    (args : RunArguments) (resourceLog callLog : LogFile) :
    Transparent (stateWorld lib) (endWorld lib) (prepareFrom run args resourceLog callLog) := by
  have hend : Transparent (stateWorld lib) (endWorld lib) fun st =>
      let st := finalizeLeaks st
      if st.err.error then .error st else .ok st :=
    (finalizeLeaks_transparent hlib.lifecycle).comp
      (Transparent.ifFailed (f := @Except.error (State lib) (State lib)) (fun _ h => h)
        ok_transparent)
  -- behind the logs, the run model decides
  have hfinish : Transparent (stateWorld lib) (endWorld lib) fun st =>
      match st.model.runModel with
      | none => .error st
      | some runModel =>
        let result := run.modelFinish runModel st.err.allocations
        let (runModel, failed) := result.value
        let st : State lib :=
          { model := { st.model with runModel := some runModel }, err := st.err.after result }
        if failed then .error st
        else
          let st := finalizeLeaks st
          if st.err.error then .error st else .ok st := by
    refine ofModel_transparent fun model => ?_
    have hdecide (value : lib.RunModel × Bool) : Transparent errWorld (endWorld lib) fun err =>
        let st : State lib := { model := { model with runModel := some value.1 }, err }
        if value.2 then .error st
        else
          let st := finalizeLeaks st
          if st.err.error then .error st else .ok st := by
      obtain ⟨runModel, failed⟩ := value
      cases failed with
      | true => exact (withModel_transparent _).comp error_transparent
      | false => exact (withModel_transparent _).comp hend
    cases hrunModel : model.runModel with
    | none =>
      simp only [hrunModel]
      exact (withModel_transparent model).comp error_transparent
    | some runModel =>
      simp only [hrunModel]
      exact (honest_transparent (hlib.modelFinish runModel)).bind hdecide
  have hlogs := ((readResources_transparent hlib args.resourceLog resourceLog).comp
    (readCalls_transparent hlib args.callLog callLog)).comp
      (Transparent.ifFailed (f := @Except.error (State lib) (State lib)) (fun _ h => h) hfinish)
  intro st h
  cases hcreated : st.model.runModel.isNone with
  | true =>
    simp only [prepareFrom, calm_model, hcreated, if_true] at h ⊢
    exact ⟨h, rfl⟩
  | false =>
    simp only [prepareFrom, calm_model, hcreated, Bool.false_eq_true, if_false] at h ⊢
    exact hlogs st h

/-- A model created without an error is the one created when nothing fails. -/
theorem createModel_calm {run : RunModelLib lib} (hlib : HonestLibrary lib run)
    {input : RunInput lib} (h : (createModel run input).err.error ≠ true) :
    createModel run { input with allocations := [] } =
      (stateWorld lib).calm (createModel run input) := by
  obtain ⟨-, hvalue, hafter⟩ := hlib.modelCreate.calm h
  have herr : ErrState.after ⟨false, []⟩ (run.modelCreate []) =
      errWorld.calm (ErrState.after ⟨false, input.allocations⟩
        (run.modelCreate input.allocations)) := hafter
  simp only [createModel, hvalue, herr]
  rfl

/-- A run that reaches its end without an error reaches it when no allocation fails. -/
theorem prepareReport_calm {run : RunModelLib lib} (hlib : HonestLibrary lib run)
    {args : RunArguments} {input : RunInput lib}
    (h : ¬ (endWorld lib).failed (prepareReport run args input)) :
    prepareReport run args { input with allocations := [] } =
      (endWorld lib).calm (prepareReport run args input) := by
  rw [prepareReport_eq] at h ⊢
  obtain ⟨hcreated, heq⟩ := prepareFrom_transparent hlib args input.resourceLog input.callLog
    (createModel run input) h
  rw [prepareReport_eq, createModel_calm hlib hcreated]
  exact heq

/-- The comparisons that a run may make with a null pointer are those of its finalization. -/
theorem prepareFaults_finalizes (hrecords : NamesRecords lib) {run : RunModelLib lib}
    {args : RunArguments} {input : RunInput lib} (h : prepareFaults run args input = true) :
    (createModel run input).model.runModel.isNone = false ∧
      (readLogs run args input).err.error = false ∧
      ∃ runModel, (readLogs run args input).model.runModel = some runModel ∧
        (run.modelFinish runModel (readLogs run args input).err.allocations).value.2 = false ∧
        finalizeLeaksFaults (finishModel run runModel (readLogs run args input)) = true := by
  have hstart : TextsThere (createModel run input).model :=
    ⟨by simp [SitesNamed, createModel, ReportModel.zeroed],
      by simp [ReportModel.tables, createModel, ReportModel.zeroed],
      by simp [ReportModel.tables, createModel, ReportModel.zeroed]⟩
  have hreading := @readResources_compares lib hrecords input.resourceLog.reads
    (openInput args.resourceLog input.resourceLog (createModel run input)) fun _ => hstart
  have hlogs : readCalls args.callLog input.callLog
      (readResources args.resourceLog input.resourceLog (createModel run input)) =
        readLogs run args input := rfl
  rw [prepareFaults] at h
  simp only [hlogs, hreading, Bool.false_or] at h
  generalize readLogs run args input = read at h ⊢
  cases hcreated : (createModel run input).model.runModel.isNone with
  | true =>
    rw [hcreated] at h
    cases h
  | false =>
    rw [hcreated, if_neg Bool.false_ne_true, Bool.and_eq_true, Bool.not_eq_true'] at h
    obtain ⟨hread, hfinishing⟩ := h
    cases hmodel : read.model.runModel with
    | none =>
      rw [hmodel] at hfinishing
      cases hfinishing
    | some runModel =>
      rw [hmodel] at hfinishing
      obtain ⟨hfinished, hfaults⟩ := Bool.and_eq_true_iff.1 hfinishing
      exact ⟨rfl, hread, runModel, rfl, Bool.not_eq_eq_eq_not.1 hfinished, hfaults⟩

/-- Both logs leave the site table with its names. -/
theorem readLogs_named {run : RunModelLib lib} {args : RunArguments} {input : RunInput lib}
    (h : (readLogs run args input).err.error = false) :
    SitesNamed (readLogs run args input).model := by
  rw [readLogs, createModel_eq] at h ⊢
  exact (readers_store h).1

/-- A run that compares a null pointer gives up in its finalization. -/
theorem prepareReport_compares (hrecords : NamesRecords lib) (hfindings : NamesFindings lib)
    {run : RunModelLib lib} {args : RunArguments} {input : RunInput lib}
    (h : prepareFaults run args input = true) :
    ∃ st, prepareReport run args input = .error st ∧ st.err.error = true := by
  obtain ⟨hcreated, hread, runModel, hmodel, hfinished, hfaults⟩ :=
    prepareFaults_finalizes hrecords h
  have hnamed : SitesNamed (finishModel run runModel (readLogs run args input)).model :=
    readLogs_named hread
  have hfails : (finalizeLeaks (finishModel run runModel
      (readLogs run args input))).err.error = true := by
    by_contra hok
    rw [finalizeLeaks_compares hfindings hnamed (Bool.eq_false_iff.2 hok)] at hfaults
    cases hfaults
  have hlogs : readCalls args.callLog input.callLog
      (readResources args.resourceLog input.resourceLog (createModel run input)) =
        readLogs run args input := rfl
  refine ⟨finalizeLeaks (finishModel run runModel (readLogs run args input)), ?_, hfails⟩
  rw [prepareReport]
  simp only [hlogs, hcreated, hread, hmodel, Bool.false_eq_true, if_false]
  change (if (run.modelFinish runModel (readLogs run args input).err.allocations).value.2 then _
    else if (finalizeLeaks (finishModel run runModel (readLogs run args input))).err.error then
      Except.error (finalizeLeaks (finishModel run runModel (readLogs run args input)))
    else _) = _
  rw [hfinished, if_neg Bool.false_ne_true, if_pos hfails]

/-- A run in which no allocation fails compares no null pointer. -/
theorem prepareFaults_calm {run : RunModelLib lib} (hlib : HonestLibrary lib run)
    (hrecords : NamesRecords lib) (hfindings : NamesFindings lib) {args : RunArguments}
    {input : RunInput lib} (hcalm : input.allocations = []) :
    prepareFaults run args input = false := by
  by_contra hfault
  obtain ⟨-, hread, runModel, -, -, hfaults⟩ :=
    prepareFaults_finalizes hrecords (Bool.eq_true_of_not_eq_false hfault)
  have hnamed : SitesNamed (finishModel run runModel (readLogs run args input)).model :=
    readLogs_named hread
  -- the logs are read without an error, so they leave the state calm
  have hlogs := (readResources_transparent hlib args.resourceLog input.resourceLog).comp
    (readCalls_transparent hlib args.callLog input.callLog)
  obtain ⟨hcreated, -⟩ := hlogs (createModel run input) (Bool.eq_false_iff.1 hread)
  have hstart : (createModel run input).err.allocations = [] := by
    have hraised : (run.modelCreate input.allocations).raised = false :=
      Bool.eq_false_iff.2 hcreated
    rw [hcalm] at hraised
    rw [createModel, ErrState.after, hcalm, hlib.modelCreate [] hraised]
  have hstays := hlogs.stays_calm (calm_of_allocations hstart) (Bool.eq_false_iff.1 hread)
  have hallocations : (readLogs run args input).err.allocations = [] :=
    allocations_of_calm hstays
  have hfinish : (finishModel run runModel (readLogs run args input)).err.error = false →
      (finishModel run runModel (readLogs run args input)).err.allocations = [] := by
    intro hok
    obtain ⟨-, hraised⟩ := Bool.or_eq_false_iff.1 hok
    rw [finishModel, ErrState.after]
    rw [hallocations] at hraised ⊢
    rw [hlib.modelFinish runModel [] hraised]
  rw [finalizeLeaks_compares_calm hlib.lifecycle hfindings hfinish hnamed] at hfaults
  cases hfaults

/-- A run that has raised an error before its output step, ended with `EXIT_TROUBLE` and written
nothing. -/
structure RunResult.GaveUp (result : RunResult lib) : Prop where
  error : result.state.err.error = true
  status : result.status = exitTrouble
  written : result.written = some []

/-- Two results that differ at most in the allocations still to come. -/
structure RunResult.Agrees (result other : RunResult lib) : Prop where
  model : result.state.model = other.state.model
  error : result.state.err.error = other.state.err.error
  status : result.status = other.status
  written : result.written = other.written

theorem reportRun_gaveUp {run : RunModelLib lib} {args : RunArguments} {input : RunInput lib}
    {st : State lib} (h : prepareReport run args input = .error st) (herror : st.err.error = true) :
    (reportRun run args input).GaveUp := by
  rw [reportRun, h]
  exact ⟨herror, rfl, rfl⟩

/-- **Memory failures change no report in silence.** A run in which no allocation fails compares no
null pointer. Whatever allocations fail before the output step, the run either gives up there with
an error and writes nothing, or has compared no null pointer either and ends with the model, the
exit status and, where the output step succeeds, the texts of the run in which none fails. (A run
that does compare one may be ended by that.) -/
theorem reportRun_transparent {run : RunModelLib lib} (hlib : HonestLibrary lib run)
    (hrecords : NamesRecords lib) (hfindings : NamesFindings lib) (args : RunArguments)
    (input : RunInput lib) :
    let calm : RunInput lib := { input with allocations := [] }
    prepareFaults run args calm = false ∧
      ((reportRun run args input).GaveUp ∨
        prepareFaults run args input = false ∧
          (reportRun run args input).Agrees (reportRun run args calm)) := by
  intro calm
  refine ⟨prepareFaults_calm hlib hrecords hfindings rfl, ?_⟩
  have hraises : outputRaises args calm = outputRaises args input := rfl
  by_cases hfailed : (endWorld lib).failed (prepareReport run args input)
  · left
    cases hprepared : prepareReport run args input with
    | error st =>
      rw [hprepared] at hfailed
      exact reportRun_gaveUp hprepared hfailed
    | ok st =>
      rw [hprepared] at hfailed
      exact absurd hfailed (Bool.eq_false_iff.1 (prepareReport_ok hprepared).2.1)
  · right
    constructor
    · by_contra hfault
      obtain ⟨st, hprepared, herror⟩ :=
        prepareReport_compares hrecords hfindings (Bool.eq_true_of_not_eq_false hfault)
      rw [hprepared] at hfailed
      exact hfailed herror
    · have hcalm := prepareReport_calm hlib hfailed
      unfold reportRun
      rw [hcalm, hraises]
      cases hprepared : prepareReport run args input with
      | error st => exact ⟨rfl, rfl, rfl, rfl⟩
      | ok st =>
        -- both runs make the same last decision
        have hsame : (((stateWorld lib).calm st).raiseIf (outputRaises args input)).err.error =
            (st.raiseIf (outputRaises args input)).err.error := rfl
        cases herror : (st.raiseIf (outputRaises args input)).err.error with
        | true =>
          rw [herror] at hsame
          simp only [endWorld, herror, hsame, if_true]
          exact ⟨rfl, hsame.trans herror.symm |>.symm, rfl, rfl⟩
        | false =>
          rw [herror] at hsame
          simp only [endWorld, herror, hsame, Bool.false_eq_true, if_false]
          exact ⟨rfl, hsame.trans herror.symm |>.symm, rfl, rfl⟩

/-- The library of the log above, whose findings have their class and the names of their sites. -/
def namingLib : ToolEventLib :=
  { fixtureLib with
    lifecycleFindingAt := fun m => (m.findings.filter LifecycleFinding.named).map some }

/-- The records of a log that all name their sites. -/
theorem namesRecords_logLib {lines : List (List UInt8 × ToolEventRecord)}
    (hlines : ∀ entry ∈ lines,
      entry.2.fileName.isSome = true ∧ entry.2.functionName.isSome = true) :
    NamesRecords (logLib lines) := by
  intro line hok _
  simp only [logLib] at hok ⊢
  cases hfind : lines.find? fun entry => entry.1 == line with
  | none =>
    rw [hfind] at hok
    cases hok
  | some entry => exact hlines entry (List.mem_of_find?_eq_some hfind)

theorem namingLib_records : NamesRecords namingLib :=
  (namesRecords_logLib (by simp [fixtureRecord]) : NamesRecords fixtureLib)

theorem namingLib_findings : NamesFindings namingLib := by
  intro lifecycle source hsource
  have hmem : source ∈ readFindings
      ((lifecycle.findings.filter LifecycleFinding.named).map some) := hsource
  rw [readFindings_map_some] at hmem
  exact (List.mem_filter.1 hmem).2

def namingRun : RunModelLib namingLib where
  modelCreate := fun allocations => ⟨some (), allocations, false⟩
  modelFinish := fun model allocations => ⟨(model, false), allocations, false⟩
  modelWriteJson := fun _ => []

theorem namingRun_honest : HonestLibrary namingLib namingRun where
  lifecycle := ⟨fun _ _ => rfl, fun _ _ _ _ => rfl, fun _ _ _ => rfl⟩
  modelIngest _ _ _ _ := rfl
  modelCreate _ _ := rfl
  modelFinish _ _ _ := rfl

/-- A run over a log with a leak, whose third allocation fails. -/
theorem reportRun_transparent_leak :
    let input : RunInput namingLib :=
      { health := (), allocations := [false, false, true], outputFails := false
        resourceLog := { reads := [⟨.line openLine, false⟩] }, callLog := enterLog }
    let calm : RunInput namingLib := { input with allocations := [] }
    prepareFaults namingRun fixtureArguments calm = false ∧
      ((reportRun namingRun fixtureArguments input).GaveUp ∨
        prepareFaults namingRun fixtureArguments input = false ∧
          (reportRun namingRun fixtureArguments input).Agrees
            (reportRun namingRun fixtureArguments calm)) :=
  reportRun_transparent namingRun_honest namingLib_records namingLib_findings fixtureArguments _

end P101Report
