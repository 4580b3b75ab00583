import P101Report.Model.Runner
import P101Report.Reading.StoredRecords
import P101Report.Replay.Origins

/-!
# A run up to its output

A run that reaches the output step has raised no error so far (`prepareReport_ok`), so every site
that it has interned is in the table: those of the stored events, of all entries copied from them,
and of the findings, in which each index denotes the file, the function and the line it was interned
for (`prepareReport_sites`). No lookup of the forwarding or of a printer leaves the table.
-/

set_option autoImplicit false

namespace P101Report

open Runs

variable {lib : ToolEventLib}

/-! ## The steps of a run -/

theorem createModel_eq (run : RunModelLib lib) (input : RunInput lib) :
    createModel run input = startState input.health (run.modelCreate input.allocations).value
      (ErrState.after ⟨false, input.allocations⟩ (run.modelCreate input.allocations)) := rfl

/-- The state after both logs. -/
def readLogs (run : RunModelLib lib) (args : RunArguments) (input : RunInput lib) : State lib :=
  readCalls args.callLog input.callLog
    (readResources args.resourceLog input.resourceLog (createModel run input))

/-- The state after `p101_tool_model_finish`. -/
def finishModel (run : RunModelLib lib) (runModel : lib.RunModel) (st : State lib) : State lib :=
  let finished := run.modelFinish runModel st.err.allocations
  ⟨{ st.model with runModel := some finished.value.1 }, st.err.after finished⟩

/-- A run reaches the output step exactly when it has a run model, both logs are read without an
error, the run model can be finished and finalization raises no error. -/
theorem prepareReport_eq_ok {run : RunModelLib lib} {args : RunArguments} {input : RunInput lib}
    {st : State lib} :
    prepareReport run args input = .ok st ↔
      (createModel run input).model.runModel.isSome = true ∧
      (readLogs run args input).err.error = false ∧
      ∃ runModel, (readLogs run args input).model.runModel = some runModel ∧
        (run.modelFinish runModel (readLogs run args input).err.allocations).value.2 = false ∧
        st = finalizeLeaks (finishModel run runModel (readLogs run args input)) ∧
        st.err.error = false := by
  have hlogs : readCalls args.callLog input.callLog
      (readResources args.resourceLog input.resourceLog (createModel run input)) =
        readLogs run args input := rfl
  rw [prepareReport]
  simp only [hlogs]
  generalize readLogs run args input = read
  -- every branch but the last gives up
  cases hcreated : (createModel run input).model.runModel with
  | none => simp
  | some created =>
    cases hread : read.err.error with
    | true => simp
    | false =>
      cases hmodel : read.model.runModel with
      | none => simp
      | some runModel =>
        change (if (run.modelFinish runModel read.err.allocations).value.2 then
              .error (finishModel run runModel read)
            else if (finalizeLeaks (finishModel run runModel read)).err.error then
              .error (finalizeLeaks (finishModel run runModel read))
            else .ok (finalizeLeaks (finishModel run runModel read))) = Except.ok st ↔ _
        cases hfinish : (run.modelFinish runModel read.err.allocations).value.2 with
        | true => simp [hfinish]
        | false =>
          cases hfinal : (finalizeLeaks (finishModel run runModel read)).err.error with
          | true => simp +contextual [hfinish, hfinal]
          | false =>
            simp only [Option.isSome_some, Bool.false_eq_true, if_false, Except.ok.injEq,
              Option.some.injEq, true_and]
            constructor
            · rintro rfl
              exact ⟨runModel, rfl, hfinish, rfl, hfinal⟩
            · rintro ⟨_, rfl, -, rfl, -⟩
              rfl

/-- A run that reaches the output step has read both logs and finalized without an error. -/
theorem prepareReport_ok {run : RunModelLib lib} {args : RunArguments} {input : RunInput lib}
    {st : State lib} (h : prepareReport run args input = .ok st) :
    (readLogs run args input).err.error = false ∧ st.err.error = false ∧
      ∃ runModel err,
        st = finalizeLeaks ⟨{ (readLogs run args input).model with runModel }, err⟩ := by
  obtain ⟨-, hread, runModel, -, -, hst, hok⟩ := prepareReport_eq_ok.1 h
  exact ⟨hread, hok, _, _, hst⟩

theorem raiseIf_false (st : State lib) : st.raiseIf false = st := by
  simp [State.raiseIf]

/-- What a run leaves behind when its output step ends without an error. -/
theorem reportRun_of_ok {run : RunModelLib lib} {args : RunArguments} {input : RunInput lib}
    {st : State lib} (h : prepareReport run args input = .ok st)
    (hwritten : outputRaises args input = false) :
    (reportRun run args input).state = st ∧
      (reportRun run args input).status = exitStatus st.model ∧
      (reportRun run args input).written = some (outputTexts run args st.model) := by
  obtain ⟨-, hok, -⟩ := prepareReport_ok h
  rw [reportRun, h]
  dsimp only
  rw [hwritten, raiseIf_false, if_neg (by simp [hok])]
  exact ⟨rfl, rfl, rfl⟩

/-- A result that is no failure. -/
theorem exists_ok {ε α : Type} {result : Except ε α} (h : result.toOption.isSome = true) :
    ∃ a, result = .ok a := by
  cases result with
  | error stopped => cases h
  | ok a => exact ⟨a, rfl⟩

/-- A run model that no call fails for. -/
def fixtureRun : RunModelLib fixtureLib where
  modelCreate := fun allocations => ⟨some (), allocations, false⟩
  modelFinish := fun model allocations => ⟨(model, false), allocations, false⟩
  modelWriteJson := fun _ => []

def fixtureArguments : RunArguments where
  resourceLog := some (lit "resources.log")
  callLog := some (lit "calls.log")
  format := .text
  bundleOutputDir := none

/-- A run over two logs. -/
def fixtureInput (log callLog : LogFile) : RunInput fixtureLib where
  health := ()
  allocations := []
  resourceLog := log
  callLog := callLog
  outputFails := false

/-- A run over a log that opens a descriptor and does not close it. -/
def leakInput : RunInput fixtureLib := fixtureInput { reads := [⟨.line openLine, false⟩] } enterLog

theorem leakInput_ok : ∃ st, prepareReport fixtureRun fixtureArguments leakInput = .ok st :=
  exists_ok (by decide)

/-! ## The tables along the logs -/

/-- A property of the tables that an ingested record keeps. -/
def KeptByIngest (lib : ToolEventLib) (P : Tables → Prop) : Prop :=
  ∀ (t : Tables) (event : ResourceEvent), P t → P (t.ingest lib.execInherits event)

/-- The reader's `switch` keeps it, whatever the status of the line. -/
theorem countResource_keeps {P : Tables → Prop} (hkept : KeptByIngest lib P)
    {status : LineStatus} {event : ResourceEvent} {st : State lib}
    (h : (countResource status event st).err.error = false)
    (hstart : P st.model.tables) :
    P (countResource status event st).model.tables := by
  cases status with
  | ok =>
    rw [countResource] at h ⊢
    obtain ⟨-, htables⟩ := ingestResource_tables event _ h
    rw [htables]
    exact hkept _ event hstart
  | other | complete | malformed | badVersion => exact hstart

/-- So does a read of the resource log that raises no error. -/
theorem resourceStep_keeps {P : Tables → Prop} (hkept : KeptByIngest lib P)
    {st : State lib} {read : LineRead}
    (h : (resourceStep st read).err.error = false) (hstart : P st.model.tables) :
    P (resourceStep st read).model.tables := by
  rw [resourceStep, readStep] at h ⊢
  cases hstatus : read.status with
  | error => exact hstart
  | malformed =>
    simp only [hstatus] at h ⊢
    exact countResource_keeps hkept h hstart
  | line text =>
    simp only [hstatus, readResourceLine] at h ⊢
    apply countResource_keeps hkept h
    -- parsing leaves the tables alone
    obtain ⟨hframe, -⟩ := parseResourceLine_frame text
      ((st.raiseIf read.raised).model.resourceRecords + 1) (st.raiseIf read.raised)
    dsimp only at hframe
    rw [hframe]
    exact hstart

theorem resourceRun_origins {st : State lib} {reads : List LineRead}
    (h : (reads.foldl resourceStep st).err.error = false) (horigins : st.model.tables.Origins) :
    (reads.foldl resourceStep st).model.tables.Origins := by
  obtain ⟨-, hevery⟩ := everyStep_of_ok resourceStep_sticky h
  have hkept : KeptByIngest lib Tables.Origins :=
    fun _ event ht => Tables.origins_ingest _ ht event
  have hstep : ∀ (st : State lib) (read : LineRead), (resourceStep st read).err.error = false →
      st.model.tables.Origins → (resourceStep st read).model.tables.Origins :=
    fun _ _ hok hstart => resourceStep_keeps hkept hok hstart
  exact hevery.invariant hstep horigins

theorem countCall_tables (status : LineStatus) (event : CallEvent) (st : State lib) :
    (countCall status event st).model.tables = st.model.tables := by
  cases status with
  | ok =>
    rw [countCall, addCall]
    split <;> rfl
  | _ => rfl

theorem callStep_tables (st : State lib) (read : LineRead) :
    (callStep st read).model.tables = st.model.tables := by
  rw [callStep, readStep]
  cases read.status with
  | error => rfl
  | malformed => exact countCall_tables .malformed {} (st.raiseIf read.raised)
  | line text =>
    dsimp only [readCallLine]
    obtain ⟨hframe, -, -⟩ := parseCallLine_ok text
      ((st.raiseIf read.raised).model.callRecords + 1) (st.raiseIf read.raised)
    dsimp only at hframe
    rw [countCall_tables, hframe]
    rfl

theorem callRun_tables (st : State lib) (reads : List LineRead) :
    (reads.foldl callStep st).model.tables = st.model.tables := by
  induction reads generalizing st with
  | nil => rfl
  | cons read rest ih =>
    rw [List.foldl_cons, ih]
    exact callStep_tables st read

/-! ## Finalization -/

/-- The sites of a finding denote those of the library's finding it was made from. -/
structure FindingSites (sites : List SourceSite) (source : LifecycleFinding) (finding : Finding) :
    Prop where
  site : sites[finding.site]? =
    some (.of source.fileName source.functionName source.lineNumber)
  previous : finding.previousSequence ≠ 0 → sites[finding.previousSite]? = some
    (.of source.previousFileName source.previousFunctionName source.previousLineNumber)

theorem FindingSites.grown {sites sites' : List SourceSite} {source : LifecycleFinding}
    {finding : Finding} (hgrown : sites <+: sites') (h : FindingSites sites source finding) :
    FindingSites sites' source finding :=
  ⟨getElem?_of_grown hgrown h.site,
    fun hprevious => getElem?_of_grown hgrown (h.previous hprevious)⟩

theorem addFindingInternal_sites {finding : Finding} {st : State lib}
    (h : (addFindingInternal finding st).err.error = false) :
    st.err.error = false ∧ (addFindingInternal finding st).model.sites = st.model.sites ∧
      (addFindingInternal finding st).model.findings.items =
        st.model.findings.items ++ [finding] := by
  obtain ⟨hstart, htables⟩ := addFindingInternal_tables finding st h
  exact ⟨hstart, congrArg Prod.fst (addFindingInternal_keeps readPart_ignoresTables finding st),
    congrArg Tables.findings htables⟩

theorem finalizeFinding_sites {source : LifecycleFinding} {st : State lib}
    (hnamed : SitesNamed st.model) (h : (finalizeFinding source st).err.error = false) :
    SitesGrow st.model (finalizeFinding source st).model ∧
      ∃ finding, FindingSites (finalizeFinding source st).model.sites.items source finding ∧
        (finalizeFinding source st).model.findings.items =
          st.model.findings.items ++ [finding] := by
  have hframe := internSite_frame source.fileName source.functionName source.lineNumber st
  rw [finalizeFinding] at h ⊢
  have hinterned := @internSite_ok lib source.fileName source.functionName source.lineNumber st
    hnamed
  generalize internSite source.fileName source.functionName source.lineNumber st = interned
    at h hinterned hframe ⊢
  obtain ⟨site, st₁⟩ := interned
  dsimp only at h hinterned hframe ⊢
  have hfindings : st₁.model.findings = st.model.findings := by rw [hframe]
  by_cases hprevious : source.previousSequence ≠ 0
  · -- the site of the earlier record is interned behind the other
    rw [if_pos hprevious] at h ⊢
    have hframe' := internSite_frame source.previousFileName source.previousFunctionName
      source.previousLineNumber st₁
    have hinterned' := @internSite_ok lib source.previousFileName source.previousFunctionName
      source.previousLineNumber st₁
    have hstart := (internSite_tables source.previousFileName source.previousFunctionName
      source.previousLineNumber st₁).2
    generalize internSite source.previousFileName source.previousFunctionName
      source.previousLineNumber st₁ = interned at h hinterned' hframe' hstart ⊢
    obtain ⟨previousSite, st₂⟩ := interned
    dsimp only at h hinterned' hframe' hstart ⊢
    obtain ⟨hok, hsites, hadded⟩ := addFindingInternal_sites h
    obtain ⟨hgrow, hsite⟩ := hinterned (hstart hok)
    obtain ⟨hgrow', hsite'⟩ := hinterned' hgrow.named hok
    have hfindings' : st₂.model.findings = st.model.findings := by rw [hframe', hfindings]
    refine ⟨(hgrow.trans hgrow').trans (.of_eq hgrow'.named hsites), _, ?_, by
      rw [hadded, hfindings']⟩
    rw [hsites]
    refine ⟨?_, fun _ => hsite'⟩
    have hsite'' := getElem?_of_grown hgrow'.grown hsite
    cases findLifecycleEvent st₁.model.resources.items source <;> exact hsite''
  · rw [if_neg hprevious] at h ⊢
    obtain ⟨hok, hsites, hadded⟩ := addFindingInternal_sites h
    obtain ⟨hgrow, hsite⟩ := hinterned hok
    refine ⟨hgrow.trans (.of_eq hgrow.named hsites), _, ?_, by rw [hadded, hfindings]⟩
    rw [hsites]
    cases findLifecycleEvent st₁.model.resources.items source <;>
      exact ⟨hsite, fun hzero => absurd rfl hzero⟩

/-- **The findings of finalization.** Without an error each has the sites of its source. -/
theorem finalizeFindings_sites {sources : List (Option LifecycleFinding)} {st : State lib}
    (hnamed : SitesNamed st.model) (h : (finalizeFindings sources st).err.error = false) :
    SitesGrow st.model (finalizeFindings sources st).model ∧
      ∃ added, List.Forall₂ (FindingSites (finalizeFindings sources st).model.sites.items)
          (readFindings sources) added ∧
        (finalizeFindings sources st).model.findings.items =
          st.model.findings.items ++ added := by
  induction sources generalizing st with
  | nil => exact ⟨.refl hnamed, [], .nil, (List.append_nil _).symm⟩
  | cons source rest ih =>
    cases source with
    | none => exact absurd (finalizeFindings_null rest st) (by simp [h])
    | some source =>
      have hstart := finalizeFindings_ok h
      rw [finalizeFindings_some hstart] at h ⊢
      obtain ⟨hgrow, finding, hsites, hadded⟩ :=
        finalizeFinding_sites hnamed (finalizeFindings_ok h)
      obtain ⟨hgrow', added, hrest, hall⟩ := ih hgrow.named h
      refine ⟨hgrow.trans hgrow', finding :: added, .cons (hsites.grown hgrow'.grown) hrest, ?_⟩
      rw [hall, hadded, List.append_assoc, List.singleton_append]

theorem finalizeGeneric_sites {st : State lib} (hnamed : SitesNamed st.model)
    (h : (finalizeGeneric st).err.error = false) :
    SitesGrow st.model (finalizeGeneric st).model ∧
      ∃ added, List.Forall₂ (FindingSites (finalizeGeneric st).model.sites.items)
          (returnedFindings st) added ∧
        (finalizeGeneric st).model.findings.items = st.model.findings.items ++ added := by
  have hnone : st.model.findings.items = st.model.findings.items ++ [] := by
    rw [List.append_nil]
  rcases finalizeGeneric_cases st with
    ⟨hreturned, heq⟩ | ⟨lifecycle, ⟨hreturned, heq⟩ | ⟨hreturned, ⟨herror, heq⟩ | ⟨hok, heq⟩⟩⟩
  · rw [hreturned, heq]
    exact ⟨.refl hnamed, [], .nil, hnone⟩
  · rw [hreturned, heq]
    exact ⟨.of_eq hnamed rfl, [], .nil, hnone⟩
  · rw [heq, herror] at h
    cases h
  · have hgrow : SitesGrow st.model (loopStart lifecycle st).model := .of_eq hnamed rfl
    obtain ⟨hgrow', hadded⟩ := finalizeFindings_sites hgrow.named hok
    rw [hreturned, heq]
    exact ⟨hgrow.trans ⟨hgrow'.named, hgrow'.grown⟩, hadded⟩

end P101Report
