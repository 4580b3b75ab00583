import P101Report.Calls.Demands
import P101Report.Calls.Interning
import P101Report.Library.Runs

/-!
# Finalization tried again

`p101_report_finalize_generic` stores the findings of the lifecycle library one by one, and notes
that it is done after the last one. A call that fails leaves behind what it has stored, and the next
one begins with the first finding again; and a name that it could not copy stays in the site table
as `NULL`, where the next call hands it to `p101_strcmp`. So the findings are reported once exactly
when no failing call can store the first finding, and no search comes to such a name
(`finalizeLeaks_retried_iff`). Both are said of the model before a call, the outcomes of its
allocations and what the library returns.
-/

set_option autoImplicit false

namespace P101Report

open Runs

variable {lib : ToolEventLib}

/-- A call of `p101_report_finalize_leaks` after the error has been reset. -/
def finalizeAttempt (model : ReportModel lib) (allocations : List Bool) : State lib :=
  finalizeLeaks ⟨model, ⟨false, allocations⟩⟩

/-- The model after the call. -/
def attemptStep (model : ReportModel lib) (allocations : List Bool) : ReportModel lib :=
  (finalizeAttempt model allocations).model

/-- The findings of the lifecycle library. -/
def ReportModel.lifecycleFindings (model : ReportModel lib) : List LifecycleFinding :=
  match model.genericLifecycle with
  | none => []
  | some lifecycle => lib.lifecycleFindings lifecycle

/-- The first finding that a call comes to, and the outcomes that the library leaves for it: the
pending execs can be settled, the library finishes, and it has a finding to give. -/
def firstFinding (model : ReportModel lib) (outcomes : List Bool) :
    Option (LifecycleFinding × List Bool) :=
  match model.genericLifecycle with
  | none => none
  | some lifecycle =>
    let finished := lib.lifecycleFinish lifecycle (leftOver (settleDemand model) outcomes)
    if model.genericFinalized = true ∨ ¬ Granted (settleDemand model) outcomes ∨
        finished.value.2 = true ∨ finished.raised = true then none
    else
      (lib.lifecycleFindings finished.value.1).head?.map fun first => (first, finished.allocations)

/-- The call can store the first finding. -/
def StoresFirst (model : ReportModel lib) (outcomes : List Bool) : Prop :=
  ∃ first left, firstFinding model outcomes = some (first, left) ∧
    Granted (findingDemand first model) left

/-- A search for a site of the finding comes to a name that is `NULL`: for its own site in the
entries `before` it, for the earlier one in those with its own. -/
def SearchesNull (source : LifecycleFinding) (before withOwn : List SourceSite) : Prop :=
  internSiteFaults source.fileName source.functionName source.lineNumber before = true ∨
    source.previousSequence ≠ 0 ∧
      internSiteFaults source.previousFileName source.previousFunctionName
        source.previousLineNumber withOwn = true

/-- So it is with the first finding of a call, whose own names may not all be copied. -/
def FirstSearchesNull (model : ReportModel lib) (outcomes : List Bool) : Prop :=
  ∃ first left, firstFinding model outcomes = some (first, left) ∧
    SearchesNull first model.sites.items
      (sitesLeft lib first.fileName first.functionName first.lineNumber model.sites left)

/-- The findings that a call which succeeds goes through. -/
def findingsAsked (model : ReportModel lib) (outcomes : List Bool) : List LifecycleFinding :=
  match model.genericLifecycle with
  | none => []
  | some lifecycle =>
    if model.genericFinalized = true then []
    else lib.lifecycleFindings
      (lib.lifecycleFinish lifecycle (leftOver (settleDemand model) outcomes)).value.1

/-- So it is with a finding of a call that succeeds: what it adds to the table has its names. -/
def AnySearchesNull (model : ReportModel lib) (outcomes : List Bool) : Prop :=
  ∃ source ∈ findingsAsked model outcomes,
    SearchesNull source model.sites.items model.sites.items

/-- The call hands no null pointer to `p101_strcmp`. -/
def ComparesNames (model : ReportModel lib) (outcomes : List Bool) : Prop :=
  finalizeLeaksFaults (⟨model, ⟨false, outcomes⟩⟩ : State lib) = false

/-! ## The loop -/

/-- Storing a finding writes the site table and the findings at most, also when it fails. -/
theorem finalizeFinding_writes (source : LifecycleFinding) (st : State lib) :
    ∃ sites findings, (finalizeFinding source st).model = { st.model with sites, findings } := by
  have hstored (finding : Finding) (st : State lib) :
      ∃ findings, (addFindingInternal finding st).model = { st.model with findings } := by
    rw [addFindingInternal]
    split
    · exact ⟨_, rfl⟩
    · dsimp only
      split <;> exact ⟨_, rfl⟩
  have hsite := internSite_frame source.fileName source.functionName source.lineNumber st
  rw [finalizeFinding]
  dsimp only
  split
  · have hprevious := internSite_frame source.previousFileName source.previousFunctionName
      source.previousLineNumber
      (internSite source.fileName source.functionName source.lineNumber st).2
    obtain ⟨findings, hfinding⟩ := hstored _ _
    rw [hfinding, hprevious, hsite]
    exact ⟨_, findings, rfl⟩
  · obtain ⟨findings, hfinding⟩ := hstored _ _
    rw [hfinding, hsite]
    exact ⟨_, findings, rfl⟩

theorem finalizeFindings_writes (sources : List (Option LifecycleFinding)) (st : State lib) :
    ∃ sites findings, (finalizeFindings sources st).model = { st.model with sites, findings } := by
  induction sources generalizing st with
  | nil => exact ⟨_, _, rfl⟩
  | cons source rest ih =>
    cases source with
    | none =>
      rw [finalizeFindings]
      split <;> exact ⟨_, _, rfl⟩
    | some source =>
      rw [finalizeFindings]
      split
      · exact ⟨_, _, rfl⟩
      · obtain ⟨sites, findings, hstep⟩ := finalizeFinding_writes source st
        obtain ⟨sites', findings', hrest⟩ := ih (finalizeFinding source st)
        rw [hrest, hstep]
        exact ⟨sites', findings', rfl⟩

/-- A loop that begins with a finding stores nothing when it cannot store that one, and something
when it can. -/
theorem finalizeFindings_first {start : State lib} (hstart : start.err.error = false)
    (first : LifecycleFinding) (rest : List (Option LifecycleFinding)) :
    let looped := finalizeFindings (some first :: rest) start
    ((finalizeFinding first start).err.error = true →
        looped.model.findings.items = start.model.findings.items) ∧
      ((finalizeFinding first start).err.error = false →
        start.model.findings.items.length < looped.model.findings.items.length) := by
  dsimp only
  rw [finalizeFindings_some hstart]
  constructor
  · intro hfailed
    rw [finalizeFindings_stopped hfailed]
    exact congrArg Tables.findings (finalizeFinding_error first start hfailed)
  · intro hstored
    obtain ⟨-, finding, -, htables⟩ := finalizeFinding_tables first start hstored
    obtain ⟨-, added, -, -, -, hrest⟩ :=
      finalizeFindings_prefix rest (finalizeFinding first start)
    have hone : (finalizeFinding first start).model.tables.findings = _ :=
      congrArg Tables.findings htables
    have hfindings :
        (finalizeFindings rest (finalizeFinding first start)).model.findings.items =
          start.model.findings.items ++ [finding] ++ added :=
      (congrArg Tables.findings hrest).trans (congrArg (· ++ added) hone)
    rw [hfindings]
    simp only [List.length_append, List.length_singleton]
    omega

/-- The sites of a finding are searched for in the table before it and in the one with its own. -/
theorem finalizeFindingFaults_iff {source : LifecycleFinding} (hnamed : source.named = true)
    {st : State lib} (hok : st.err.error = false) :
    finalizeFindingFaults source st = true ↔
      SearchesNull source st.model.sites.items
        (sitesLeft lib source.fileName source.functionName source.lineNumber st.model.sites
          st.err.allocations) := by
  have hleft := (internSite_spends source.fileName source.functionName source.lineNumber st).2.2 hok
  have hclass : source.resourceClass.isNone = false := by
    simp only [LifecycleFinding.named, Bool.and_eq_true] at hnamed
    simpa using hnamed.1.1.1
  rw [finalizeFindingFaults, SearchesNull, hclass, hleft]
  simp only [Bool.false_or, Bool.or_eq_true, Bool.and_eq_true, bne_iff_ne]

/-! ## One call -/

/-- What the call for the descriptors leaves for the lifecycle half. -/
theorem finishPending_attempt (model : ReportModel lib) (allocations : List Bool) :
    let settled := finishPending model.fds.items.length ⟨model, ⟨false, allocations⟩⟩
    settled.model.findings = model.findings ∧ settled.model.resources = model.resources ∧
      settled.model.genericLifecycle = model.genericLifecycle ∧
      settled.model.genericFinalized = model.genericFinalized := by
  dsimp only
  obtain ⟨fds, closedFds, hsettled⟩ :=
    finishPending_writes model.fds.items.length ⟨model, ⟨false, allocations⟩⟩
  rw [hsettled]
  exact ⟨rfl, rfl, rfl, rfl⟩

/-- The descriptors are settled when the closings have what they ask for. -/
theorem finishPending_granted (model : ReportModel lib) (outcomes : List Bool) :
    let settled := finishPending model.fds.items.length ⟨model, ⟨false, outcomes⟩⟩
    (¬ Granted (settleDemand model) outcomes → settled.err.error = true) ∧
      (Granted (settleDemand model) outcomes →
        settled.err = ⟨false, leftOver (settleDemand model) outcomes⟩) := by
  dsimp only
  have hspends := finishPending_spends (⟨model, ⟨false, outcomes⟩⟩ : State lib)
  dsimp only at hspends
  generalize finishPending model.fds.items.length ⟨model, ⟨false, outcomes⟩⟩ = settled
    at hspends ⊢
  constructor
  · intro hrefused
    by_contra hok
    exact hrefused (hspends.ok.1 (Bool.eq_false_iff.2 hok)).2
  · intro hgranted
    have hok := hspends.ok.2 ⟨rfl, hgranted⟩
    rw [← hok, ← hspends.left hok]

/-- The comparisons of a finalization that has nothing to do, and of one that has. -/
theorem finalizeGenericFaults_idle {st : State lib}
    (h : st.model.genericLifecycle = none ∨ st.model.genericFinalized = true) :
    finalizeGenericFaults st = false := by
  rw [finalizeGenericFaults]
  rcases h with hnone | hdone
  · rw [hnone]
  · rw [hdone]
    cases st.model.genericLifecycle <;> rfl

theorem finalizeGenericFaults_runs {st : State lib} {lifecycle : lib.Lifecycle}
    (hlifecycle : st.model.genericLifecycle = some lifecycle)
    (hfinalized : st.model.genericFinalized = false) :
    let finished := (lib.lifecycleFinish lifecycle st.err.allocations).value
    finalizeGenericFaults st = (!finished.2 &&
      finalizeFindingsFault (lib.lifecycleFindingAt finished.1) (loopStart lifecycle st)) := by
  dsimp only
  rw [finalizeGenericFaults, hlifecycle, hfinalized]
  rfl

/-- After an error nothing is compared. -/
theorem finalizeFindingsFault_stopped {st : State lib} (h : st.err.error = true)
    (sources : List (Option LifecycleFinding)) : finalizeFindingsFault sources st = false := by
  cases sources with
  | nil => rfl
  | cons source rest => cases source <;> simp [finalizeFindingsFault, h]

/-- A call that comes to no finding stores none, and compares nothing. -/
theorem attempt_none {model : ReportModel lib} {outcomes : List Bool}
    (h : firstFinding model outcomes = none) :
    (attemptStep model outcomes).findings.items = model.findings.items ∧
      ComparesNames model outcomes := by
  obtain ⟨hfindings, -, hlifecycle, hfinalized⟩ := finishPending_attempt model outcomes
  obtain ⟨hrefused, hgranted⟩ := finishPending_granted model outcomes
  rw [attemptStep, finalizeAttempt, finalizeLeaks, ComparesNames, finalizeLeaksFaults]
  generalize finishPending model.fds.items.length ⟨model, ⟨false, outcomes⟩⟩ = settled
    at hfindings hlifecycle hfinalized hrefused hgranted ⊢
  rw [firstFinding] at h
  rw [← hfindings]
  rw [← hlifecycle, ← hfinalized] at h
  by_cases hidle : settled.model.genericLifecycle = none ∨ settled.model.genericFinalized = true
  · rw [finalizeGeneric_idle hidle]
    exact ⟨rfl, finalizeGenericFaults_idle hidle⟩
  · rw [not_or, ← ne_eq, Option.ne_none_iff_exists', Bool.not_eq_true] at hidle
    obtain ⟨⟨lifecycle, hsome⟩, hnot⟩ := hidle
    have hfaults := finalizeGenericFaults_runs hsome hnot
    rw [hsome] at h
    dsimp only at h hfaults
    rw [hfaults]
    -- the loop finds an error raised, or no finding
    have hloop : (lib.lifecycleFinish lifecycle settled.err.allocations).value.2 = false →
        (finalizeFindings (lib.lifecycleFindingAt
            (lib.lifecycleFinish lifecycle settled.err.allocations).value.1)
            (loopStart lifecycle settled)).model.findings.items = settled.model.findings.items ∧
          finalizeFindingsFault (lib.lifecycleFindingAt
            (lib.lifecycleFinish lifecycle settled.err.allocations).value.1)
            (loopStart lifecycle settled) = false := by
      intro hdone
      by_cases herror : (loopStart lifecycle settled).err.error = true
      · rw [finalizeFindings_stopped herror]
        exact ⟨rfl, finalizeFindingsFault_stopped herror _⟩
      · have hsettled : Granted (settleDemand model) outcomes := by
          by_contra hnone
          exact herror (by simp [loopStart, ErrState.after, hrefused hnone])
        have herr := hgranted hsettled
        rw [herr] at hdone ⊢
        dsimp only at hdone ⊢
        rw [loopStart, herr] at herror
        have hraised : (lib.lifecycleFinish lifecycle
            (leftOver (settleDemand model) outcomes)).raised = false := by
          simpa [ErrState.after] using herror
        rw [if_neg (by simp [hnot, hsettled, hdone, hraised]), Option.map_eq_none_iff,
          List.head?_eq_none_iff, ToolEventLib.lifecycleFindings] at h
        cases hsources : lib.lifecycleFindingAt
          (lib.lifecycleFinish lifecycle (leftOver (settleDemand model) outcomes)).value.1 with
        | nil => exact ⟨rfl, rfl⟩
        | cons source rest =>
          cases source with
          | none =>
            refine ⟨?_, rfl⟩
            rw [finalizeFindings]
            split <;> rfl
          | some source =>
            rw [hsources, readFindings] at h
            cases h
    rcases finalizeGeneric_runs hsome hnot with
      ⟨hfailed, heq⟩ | ⟨hdone, ⟨herror, heq⟩ | ⟨herror, heq⟩⟩
    · rw [heq, hfailed]
      exact ⟨rfl, by simp⟩
    · obtain ⟨hfindings, hnone⟩ := hloop hdone
      rw [heq, hdone, hnone]
      exact ⟨hfindings, rfl⟩
    · obtain ⟨hfindings, hnone⟩ := hloop hdone
      rw [heq, hdone, hnone]
      exact ⟨hfindings, rfl⟩

/-- A call that comes to a finding runs the loop from it. -/
theorem attempt_some {model : ReportModel lib} {outcomes left : List Bool}
    {first : LifecycleFinding} (h : firstFinding model outcomes = some (first, left)) :
    ∃ (start : State lib) (rest : List (Option LifecycleFinding)),
      start.err = ⟨false, left⟩ ∧ start.model.sites = model.sites ∧
      start.model.resources = model.resources ∧ start.model.findings = model.findings ∧
      findingsAsked model outcomes = readFindings (some first :: rest) ∧
      (attemptStep model outcomes).findings =
        (finalizeFindings (some first :: rest) start).model.findings ∧
      (finalizeAttempt model outcomes).err = (finalizeFindings (some first :: rest) start).err ∧
      finalizeLeaksFaults (⟨model, ⟨false, outcomes⟩⟩ : State lib) =
        finalizeFindingsFault (some first :: rest) start := by
  obtain ⟨hfindings, hresources, hlifecycle, hfinalized⟩ := finishPending_attempt model outcomes
  obtain ⟨fds, closedFds, hwrites⟩ :=
    finishPending_writes model.fds.items.length (⟨model, ⟨false, outcomes⟩⟩ : State lib)
  have hsites := congrArg ReportModel.sites hwrites
  obtain ⟨-, hgranted⟩ := finishPending_granted model outcomes
  dsimp only at hfindings hresources hlifecycle hfinalized hgranted hsites
  rw [attemptStep, finalizeAttempt, finalizeLeaks, finalizeLeaksFaults, findingsAsked]
  dsimp only
  rw [firstFinding] at h
  generalize finishPending model.fds.items.length ⟨model, ⟨false, outcomes⟩⟩ = settled
    at hfindings hresources hlifecycle hfinalized hgranted hsites ⊢
  rw [← hlifecycle, ← hfinalized] at h ⊢
  cases hsome : settled.model.genericLifecycle with
  | none =>
    rw [hsome] at h
    cases h
  | some lifecycle =>
    rw [hsome] at h
    dsimp only at h ⊢
    by_cases hstops : settled.model.genericFinalized = true ∨
        ¬ Granted (settleDemand model) outcomes ∨
        (lib.lifecycleFinish lifecycle (leftOver (settleDemand model) outcomes)).value.2 = true ∨
        (lib.lifecycleFinish lifecycle (leftOver (settleDemand model) outcomes)).raised = true
    · rw [if_pos hstops] at h
      cases h
    · rw [if_neg hstops] at h
      rw [not_or, not_or, not_or, not_not, Bool.not_eq_true, Bool.not_eq_true,
        Bool.not_eq_true] at hstops
      obtain ⟨hnot, hsettled, hdone, hraised⟩ := hstops
      have herr := hgranted hsettled
      -- the library has a first finding
      obtain ⟨found, hhead, hfound⟩ := Option.map_eq_some_iff.1 h
      obtain ⟨rfl, rfl⟩ := Prod.mk.inj hfound
      have hstart : (loopStart lifecycle settled).err = ⟨false, (lib.lifecycleFinish lifecycle
          (leftOver (settleDemand model) outcomes)).allocations⟩ := by
        rw [loopStart, herr]
        simp [ErrState.after, hraised]
      have hruns := finalizeGeneric_runs hsome hnot
      have hfaults := finalizeGenericFaults_runs hsome hnot
      rw [herr] at hruns hfaults
      dsimp only at hruns hfaults
      rw [ToolEventLib.lifecycleFindings] at hhead
      rw [hfaults, hnot, hdone, ToolEventLib.lifecycleFindings]
      cases hsources : lib.lifecycleFindingAt
        (lib.lifecycleFinish lifecycle (leftOver (settleDemand model) outcomes)).value.1 with
      | nil =>
        rw [hsources] at hhead
        cases hhead
      | cons source rest =>
        rw [hsources] at hhead hruns
        cases source with
        | none => cases hhead
        | some source =>
          obtain rfl : source = found := by simpa [readFindings] using hhead
          refine ⟨loopStart lifecycle settled, rest, hstart, hsites, hresources, hfindings, ?_⟩
          refine ⟨rfl, ?_⟩
          rcases hruns with ⟨hfailed, -⟩ | ⟨-, ⟨-, heq⟩ | ⟨-, heq⟩⟩
          · rw [hdone] at hfailed
            cases hfailed
          · rw [heq]
            exact ⟨rfl, rfl, rfl⟩
          · rw [heq]
            exact ⟨rfl, rfl, rfl⟩

theorem firstFinding_named (hnames : NamesFindings lib) {model : ReportModel lib}
    {outcomes left : List Bool} {first : LifecycleFinding}
    (h : firstFinding model outcomes = some (first, left)) : first.named = true := by
  rw [firstFinding] at h
  split at h
  · cases h
  · rename_i lifecycle hlifecycle
    dsimp only at h
    split at h
    · cases h
    · obtain ⟨found, hhead, hfound⟩ := Option.map_eq_some_iff.1 h
      obtain ⟨rfl, -⟩ := Prod.mk.inj hfound
      exact hnames _ found (List.mem_of_mem_head? hhead)

/-- **The first finding decides.** A call that cannot store it leaves the findings alone, and
compares a null pointer exactly when a search for its sites does; a call that can adds to them. -/
theorem attempt_stores (hnames : NamesFindings lib) (model : ReportModel lib)
    (outcomes : List Bool) :
    (¬StoresFirst model outcomes →
        (attemptStep model outcomes).findings.items = model.findings.items ∧
          (ComparesNames model outcomes ↔ ¬FirstSearchesNull model outcomes)) ∧
      (StoresFirst model outcomes → model.findings.items.length <
        (attemptStep model outcomes).findings.items.length) := by
  cases hfirst : firstFinding model outcomes with
  | none =>
    obtain ⟨hsame, hcompares⟩ := attempt_none hfirst
    refine ⟨fun _ => ⟨hsame, iff_of_true hcompares ?_⟩, ?_⟩
    · rintro ⟨first, left, hsome, -⟩
      rw [hfirst] at hsome
      cases hsome
    · rintro ⟨first, left, hsome, -⟩
      rw [hfirst] at hsome
      cases hsome
  | some found =>
    obtain ⟨first, left⟩ := found
    obtain ⟨start, rest, herr, hsites, hresources, hfindings, hasked, hlooped, -, hfaults⟩ :=
      attempt_some hfirst
    have hstart : start.err.error = false := by rw [herr]
    have hnamed : first.named = true := firstFinding_named hnames hfirst
    -- the finding asks for the same in the model before the call
    have hdemand : findingDemand first start.model = findingDemand first model := by
      rw [findingDemand, findingDemand, addDemand, addDemand, hsites, hresources, hfindings]
    have hstored : (finalizeFinding first start).err.error = false ↔
        StoresFirst model outcomes := by
      rw [(finalizeFinding_spends first start).1.ok, hdemand, herr, StoresFirst, hfirst]
      constructor
      · exact fun h => ⟨first, left, rfl, h.2⟩
      · rintro ⟨_, _, heq, hgranted⟩
        obtain ⟨rfl, rfl⟩ := Prod.mk.inj (Option.some.inj heq)
        exact ⟨rfl, hgranted⟩
    have hsearches : finalizeFindingFaults first start = true ↔
        FirstSearchesNull model outcomes := by
      rw [finalizeFindingFaults_iff hnamed hstart, hsites, herr, FirstSearchesNull, hfirst]
      constructor
      · exact fun h => ⟨first, left, rfl, h⟩
      · rintro ⟨_, _, heq, hnull⟩
        obtain ⟨rfl, rfl⟩ := Prod.mk.inj (Option.some.inj heq)
        exact hnull
    obtain ⟨hfails, hadds⟩ := finalizeFindings_first hstart first rest
    rw [hlooped, ← hfindings]
    refine ⟨fun hcannot => ?_, fun hcan => hadds (hstored.2 hcan)⟩
    have hstopped : (finalizeFinding first start).err.error = true :=
      Bool.eq_true_of_not_eq_false (mt hstored.1 hcannot)
    refine ⟨hfails hstopped, ?_⟩
    rw [ComparesNames, hfaults, finalizeFindingsFault, hstart, ← hsearches]
    -- after the error the loop compares nothing
    have hrest : finalizeFindingsFault rest (finalizeFinding first start) = false :=
      finalizeFindingsFault_stopped hstopped rest
    rw [hrest]
    simp

/-- The library raises an error when it cannot finish. -/
def FinishRaises (lib : ToolEventLib) : Prop :=
  ∀ (lifecycle : lib.Lifecycle) (allocations : List Bool),
    (lib.lifecycleFinish lifecycle allocations).value.2 = true →
      (lib.lifecycleFinish lifecycle allocations).raised = true

/-- The findings `before` the first call are followed by one for each finding of the library, unless
a finalization had succeeded before. -/
def ReportsEach (before after : ReportModel lib) : Prop :=
  ∃ added, List.Forall₂ (MapsTo before.resources.items after.sites.items)
      (if before.genericFinalized then [] else after.lifecycleFindings) added ∧
    after.findings.items = before.findings.items ++ added

/-- No pending exec is left, and the lifecycle half has nothing to do. -/
structure Finalized (model : ReportModel lib) : Prop where
  settled : ∀ fd ∈ model.fds.items, fd.execPending = 0
  done : model.genericLifecycle = none ∨ model.genericFinalized = true

/-- Then a call changes nothing, and raises no error. -/
theorem Finalized.idle {model : ReportModel lib} (h : Finalized model) (allocations : List Bool) :
    finalizeAttempt model allocations = ⟨model, ⟨false, allocations⟩⟩ := by
  have hsettled := @finishPending_idle lib model.fds.items.length ⟨model, ⟨false, allocations⟩⟩
    h.settled
  have hgeneric := @finalizeGeneric_idle lib ⟨model, ⟨false, allocations⟩⟩ h.done
  rw [finalizeAttempt, finalizeLeaks]
  exact (congrArg finalizeGeneric hsettled).trans hgeneric

/-- A call that succeeds reports each finding of the library, whatever the calls before it have
stored, and leaves nothing to do. -/
theorem attempt_succeeded (hfinish : FinishRaises lib) {model : ReportModel lib}
    {allocations : List Bool} (h : (finalizeAttempt model allocations).err.error = false) :
    ReportsEach model (attemptStep model allocations) ∧
      Finalized (attemptStep model allocations) := by
  obtain ⟨hfindings, hresources, hlifecycle, hfinalized⟩ :=
    finishPending_attempt model allocations
  have hpending := @finishPending_none lib ⟨model, ⟨false, allocations⟩⟩
  dsimp only at hfindings hresources hlifecycle hfinalized hpending
  rw [attemptStep, ReportsEach]
  rw [finalizeAttempt, finalizeLeaks] at h ⊢
  dsimp only at h ⊢
  generalize finishPending model.fds.items.length ⟨model, ⟨false, allocations⟩⟩ = settled
    at h hfindings hresources hlifecycle hfinalized hpending ⊢
  rw [← hfindings, ← hresources, ← hfinalized]
  have hok := finalizeGeneric_ok h
  have hnone : ∀ fd ∈ (finalizeGeneric settled).model.fds.items, fd.execPending = 0 := by
    rw [(finalizeGeneric_descriptors settled).1]
    exact hpending hok
  obtain ⟨stored, added, -, hall, hmaps, htables⟩ := finalizeGeneric_prefix settled
  have hadded : (finalizeGeneric settled).model.findings.items =
      settled.model.findings.items ++ added := congrArg Tables.findings htables
  rw [hall h] at hmaps
  by_cases hidle : settled.model.genericLifecycle = none ∨ settled.model.genericFinalized = true
  · have hreturned : returnedFindings settled =
        if settled.model.genericFinalized then [] else settled.model.lifecycleFindings := by
      rw [returnedFindings, ReportModel.lifecycleFindings]
      rcases hidle with hnone | hdone
      · simp [hnone]
      · cases hsome : settled.model.genericLifecycle <;> simp [hdone]
    rw [hreturned] at hmaps
    rw [finalizeGeneric_idle hidle] at hmaps hadded hnone ⊢
    exact ⟨⟨added, hmaps, hadded⟩, hnone, hidle⟩
  · rw [not_or, ← ne_eq, Option.ne_none_iff_exists', Bool.not_eq_true] at hidle
    obtain ⟨⟨lifecycle, hsome⟩, hnot⟩ := hidle
    obtain ⟨sites, findings, hwrites⟩ := finalizeFindings_writes
      (lib.lifecycleFindingAt (lib.lifecycleFinish lifecycle settled.err.allocations).value.1)
      (loopStart lifecycle settled)
    rcases finalizeGeneric_runs hsome hnot with
      ⟨hfailed, heq⟩ | ⟨hdone, ⟨herror, heq⟩ | ⟨herror, heq⟩⟩
    · -- the library could not finish, and has raised an error
      rw [heq, loopStart] at h
      simp only [ErrState.after, hfinish _ _ hfailed, Bool.or_true] at h
      cases h
    · rw [heq, herror] at h
      cases h
    · have hreturned : returnedFindings settled =
          lib.lifecycleFindings
            (lib.lifecycleFinish lifecycle settled.err.allocations).value.1 := by
        rw [returnedFindings, hsome]
        simp [hnot, hdone]
      have hlast : (finalizeGeneric settled).model.lifecycleFindings = lib.lifecycleFindings
          (lib.lifecycleFinish lifecycle settled.err.allocations).value.1 := by
        rw [heq, ReportModel.lifecycleFindings, hwrites]
        rfl
      have hflag : (finalizeGeneric settled).model.genericFinalized = true := by
        rw [heq]
      rw [hreturned, ← hlast] at hmaps
      rw [hnot]
      exact ⟨⟨added, hmaps, hadded⟩, hnone, Or.inr hflag⟩

/-! ## The comparisons of a call that succeeds -/

/-- What an interning that succeeds adds to the table has its names. -/
theorem internedSites_named (fileName functionName : Option Text) (lineNumber : Int)
    (sites : Table SourceSite) :
    ∃ added, (internedSites lib fileName functionName lineNumber sites).items =
        sites.items ++ added ∧
      ∀ site ∈ added, site.fileName.isSome = true ∧ site.functionName.isSome = true := by
  rw [internedSites]
  split
  · exact ⟨[], (List.append_nil _).symm, by simp⟩
  · exact ⟨_, rfl, by simp⟩

/-- Entries with names do not change whether a search by names comes to a null pointer. -/
theorem internSiteFaults_append {fileName functionName : Option Text}
    (hfile : fileName.isSome = true) (hfunction : functionName.isSome = true) (lineNumber : Int)
    {added : List SourceSite}
    (hadded : ∀ site ∈ added, site.fileName.isSome = true ∧ site.functionName.isSome = true)
    (before : List SourceSite) :
    internSiteFaults fileName functionName lineNumber (before ++ added) =
      internSiteFaults fileName functionName lineNumber before := by
  refine searchFaults_append_of_none (fun site hsite => ?_) before
  obtain ⟨hsiteFile, hsiteFunction⟩ := hadded site hsite
  have hfileSome : fileName.isNone = false := by simpa using hfile
  have hfunctionSome : functionName.isNone = false := by simpa using hfunction
  have hsiteFileSome : site.fileName.isNone = false := by simpa using hsiteFile
  have hsiteFunctionSome : site.functionName.isNone = false := by simpa using hsiteFunction
  simp only [SourceSite.isAtFaults, strcmpFaults, hfileSome, hfunctionSome, hsiteFileSome,
    hsiteFunctionSome, Bool.or_self, Bool.and_false]

/-- A finding that is stored has the table searched as it was before the loop, and adds entries with
names. -/
theorem finalizeFinding_searches {source : LifecycleFinding} (hnamed : source.named = true)
    {st : State lib} {before added : List SourceSite}
    (hsites : st.model.sites.items = before ++ added)
    (hadded : ∀ site ∈ added, site.fileName.isSome = true ∧ site.functionName.isSome = true)
    (hok : (finalizeFinding source st).err.error = false) :
    (finalizeFindingFaults source st = true ↔ SearchesNull source before before) ∧
      ∃ added', (finalizeFinding source st).model.sites.items = before ++ added' ∧
        ∀ site ∈ added', site.fileName.isSome = true ∧ site.functionName.isSome = true := by
  obtain ⟨hspends, hleaves⟩ := finalizeFinding_spends source st
  obtain ⟨hstart, hgranted⟩ := hspends.ok.1 hok
  have hown := (granted_demandSum.1 (granted_demandSum.1 hgranted).1).1
  obtain ⟨hinterns, hinterned, -⟩ :=
    internSite_spends source.fileName source.functionName source.lineNumber st
  have hthen := hinterned (hinterns.ok.2 ⟨hstart, hown⟩)
  simp only [LifecycleFinding.named, Bool.and_eq_true, Bool.or_eq_true, beq_iff_eq] at hnamed
  obtain ⟨⟨⟨hclass, hfile⟩, hfunction⟩, hprevious⟩ := hnamed
  obtain ⟨own, hitems, hownNamed⟩ := @internedSites_named lib source.fileName
    source.functionName source.lineNumber st.model.sites
  rw [hsites, List.append_assoc] at hitems
  have hboth := List.forall_mem_append.2 ⟨hadded, hownNamed⟩
  constructor
  · have hclassSome : source.resourceClass.isNone = false := by simpa using hclass
    rw [finalizeFindingFaults, SearchesNull, hclassSome, hthen, hitems, hsites,
      internSiteFaults_append hfile hfunction _ hadded]
    simp only [Bool.false_or, Bool.or_eq_true, Bool.and_eq_true, bne_iff_ne]
    refine or_congr_right (and_congr_right fun hnonzero => ?_)
    obtain ⟨hpreviousFile, hpreviousFunction⟩ := hprevious.resolve_left hnonzero
    rw [internSiteFaults_append hpreviousFile hpreviousFunction _ hboth]
  · rw [hleaves hok, findingSites]
    split
    · obtain ⟨previous, hitems', hpreviousNamed⟩ := @internedSites_named lib
        source.previousFileName source.previousFunctionName source.previousLineNumber
        (internedSites lib source.fileName source.functionName source.lineNumber st.model.sites)
      rw [hitems', hitems, List.append_assoc]
      exact ⟨_, rfl, List.forall_mem_append.2 ⟨hboth, hpreviousNamed⟩⟩
    · exact ⟨_, hitems, hboth⟩

/-- A loop that succeeds compares a null pointer exactly when one of its searches does in the table
before it. -/
theorem finalizeFindingsFault_iff {sources : List (Option LifecycleFinding)} {st : State lib}
    {before added : List SourceSite}
    (hnamed : ∀ source ∈ readFindings sources, source.named = true)
    (hsites : st.model.sites.items = before ++ added)
    (hadded : ∀ site ∈ added, site.fileName.isSome = true ∧ site.functionName.isSome = true)
    (hok : (finalizeFindings sources st).err.error = false) :
    finalizeFindingsFault sources st = true ↔
      ∃ source ∈ readFindings sources, SearchesNull source before before := by
  induction sources generalizing st added with
  | nil => simp [finalizeFindingsFault, readFindings]
  | cons source rest ih =>
    cases source with
    | none => exact absurd (finalizeFindings_null rest st) (by simp [hok])
    | some source =>
      have hstart := finalizeFindings_ok hok
      rw [finalizeFindings_some hstart] at hok
      obtain ⟨hsource, hrest⟩ := List.forall_mem_cons.1 hnamed
      obtain ⟨hfaults, added', hsites', hadded'⟩ :=
        finalizeFinding_searches hsource hsites hadded (finalizeFindings_ok hok)
      rw [finalizeFindingsFault, hstart, readFindings, Bool.not_false, Bool.true_and,
        Bool.or_eq_true, hfaults, ih hrest hsites' hadded' hok]
      simp only [List.mem_cons, exists_eq_or_imp]

theorem findingsAsked_named (hnames : NamesFindings lib) (model : ReportModel lib)
    (outcomes : List Bool) : ∀ source ∈ findingsAsked model outcomes, source.named = true := by
  rw [findingsAsked]
  split
  · simp
  · split
    · simp
    · exact hnames _

/-- A call that succeeds without coming to a finding has none to come to. -/
theorem findingsAsked_eq_nil (hfinish : FinishRaises lib) {model : ReportModel lib}
    {outcomes : List Bool} (h : (finalizeAttempt model outcomes).err.error = false)
    (hfirst : firstFinding model outcomes = none) : findingsAsked model outcomes = [] := by
  obtain ⟨-, -, hlifecycle, hfinalized⟩ := finishPending_attempt model outcomes
  obtain ⟨hrefused, hgranted⟩ := finishPending_granted model outcomes
  rw [finalizeAttempt, finalizeLeaks] at h
  dsimp only at h
  generalize finishPending model.fds.items.length ⟨model, ⟨false, outcomes⟩⟩ = settled
    at h hlifecycle hfinalized hrefused hgranted
  rw [firstFinding, ← hlifecycle, ← hfinalized] at hfirst
  rw [findingsAsked, ← hlifecycle, ← hfinalized]
  cases hsome : settled.model.genericLifecycle with
  | none => rfl
  | some lifecycle =>
    rw [hsome] at hfirst
    dsimp only at hfirst ⊢
    cases hnot : settled.model.genericFinalized with
    | true => rfl
    | false =>
      have hsettled : Granted (settleDemand model) outcomes := by
        by_contra hnone
        have hstop := hrefused hnone
        rw [finalizeGeneric_ok h] at hstop
        cases hstop
      have hruns := finalizeGeneric_runs hsome hnot
      rw [hgranted hsettled] at hruns
      dsimp only at hruns
      -- the library has finished without an error
      have hraised : (lib.lifecycleFinish lifecycle
          (leftOver (settleDemand model) outcomes)).raised = false := by
        have hstart : (loopStart lifecycle settled).err.error = false := by
          rcases hruns with ⟨-, heq⟩ | ⟨-, ⟨herror, heq⟩ | ⟨hok, -⟩⟩
          · rwa [heq] at h
          · rw [heq, herror] at h
            cases h
          · exact finalizeFindings_ok hok
        simpa [loopStart, hgranted hsettled, ErrState.after] using hstart
      have hdone : (lib.lifecycleFinish lifecycle
          (leftOver (settleDemand model) outcomes)).value.2 = false := by
        by_contra hfailed
        rw [hfinish _ _ (Bool.eq_true_of_not_eq_false hfailed)] at hraised
        cases hraised
      rw [if_neg (by simp [hnot, hsettled, hdone, hraised]), Option.map_eq_none_iff,
        List.head?_eq_none_iff] at hfirst
      rw [if_neg Bool.false_ne_true, hfirst]

/-- **The comparisons of the last call.** -/
theorem attempt_compares (hfinish : FinishRaises lib) (hnames : NamesFindings lib)
    {model : ReportModel lib} {outcomes : List Bool}
    (h : (finalizeAttempt model outcomes).err.error = false) :
    ComparesNames model outcomes ↔ ¬AnySearchesNull model outcomes := by
  cases hfirst : firstFinding model outcomes with
  | none =>
    refine iff_of_true (attempt_none hfirst).2 ?_
    rw [AnySearchesNull, findingsAsked_eq_nil hfinish h hfirst]
    simp
  | some found =>
    obtain ⟨first, left⟩ := found
    obtain ⟨start, rest, -, hsites, -, -, hasked, -, herr, hfaults⟩ := attempt_some hfirst
    have hnamed : ∀ source ∈ readFindings (some first :: rest), source.named = true :=
      hasked ▸ findingsAsked_named hnames model outcomes
    have hnone : start.model.sites.items = model.sites.items ++ [] := by
      rw [hsites, List.append_nil]
    have hiff := finalizeFindingsFault_iff hnamed hnone (by simp) (herr ▸ h)
    rw [ComparesNames, hfaults, AnySearchesNull, hasked, ← hiff, Bool.not_eq_true]

/-! ## Runs of calls -/

/-- A call that fails keeps the flag and the records. -/
theorem attempt_keeps {model : ReportModel lib} {outcomes : List Bool}
    (h : (finalizeAttempt model outcomes).err.error = true) :
    let after := attemptStep model outcomes
    after.resources = model.resources ∧ after.genericFinalized = model.genericFinalized := by
  obtain ⟨-, hresources, -, hfinalized⟩ := finishPending_attempt model outcomes
  dsimp only at hresources hfinalized ⊢
  rw [attemptStep]
  rw [finalizeAttempt, finalizeLeaks] at h ⊢
  dsimp only at h ⊢
  generalize finishPending model.fds.items.length ⟨model, ⟨false, outcomes⟩⟩ = settled
    at h hresources hfinalized ⊢
  rw [← hresources, ← hfinalized]
  by_cases hidle : settled.model.genericLifecycle = none ∨ settled.model.genericFinalized = true
  · rw [finalizeGeneric_idle hidle]
    exact ⟨rfl, rfl⟩
  · rw [not_or, ← ne_eq, Option.ne_none_iff_exists', Bool.not_eq_true] at hidle
    obtain ⟨⟨lifecycle, hsome⟩, hnot⟩ := hidle
    obtain ⟨sites, findings, hwrites⟩ := finalizeFindings_writes
      (lib.lifecycleFindingAt (lib.lifecycleFinish lifecycle settled.err.allocations).value.1)
      (loopStart lifecycle settled)
    rcases finalizeGeneric_runs hsome hnot with
      ⟨-, heq⟩ | ⟨-, ⟨-, heq⟩ | ⟨herror, heq⟩⟩
    · rw [heq]
      exact ⟨rfl, rfl⟩
    · rw [heq, hwrites]
      exact ⟨rfl, rfl⟩
    · rw [heq] at h
      exact absurd h (by simp [herror])

/-- A run of failing calls has stored a finding exactly when one of them could store the first. -/
theorem attempts_failed (hnames : NamesFindings lib) {model : ReportModel lib}
    {failing : List (List Bool)}
    (h : EveryStep attemptStep
      (fun model outcomes => (finalizeAttempt model outcomes).err.error = true) model failing) :
    let after := failing.foldl attemptStep model
    after.resources = model.resources ∧ after.genericFinalized = model.genericFinalized ∧
      model.findings.items.length ≤ after.findings.items.length ∧
      (EveryStep attemptStep (fun model outcomes => ¬StoresFirst model outcomes) model failing ↔
        after.findings.items = model.findings.items) := by
  induction failing generalizing model with
  | nil => exact ⟨rfl, rfl, Nat.le_refl _, fun _ => rfl, fun _ => trivial⟩
  | cons outcomes rest ih =>
    obtain ⟨hresources, hfinalized⟩ := attempt_keeps h.1
    obtain ⟨hcannot, hcan⟩ := attempt_stores hnames model outcomes
    obtain ⟨hresources', hfinalized', hle, hrest⟩ := ih h.2
    dsimp only at hresources hfinalized hresources' hfinalized' hle hrest ⊢
    rw [List.foldl_cons, EveryStep.cons]
    refine ⟨hresources'.trans hresources, hfinalized'.trans hfinalized, ?_⟩
    by_cases hstores : StoresFirst model outcomes
    · have hmore := hcan hstores
      refine ⟨by omega, fun hall => absurd hstores hall.1, fun heq => ?_⟩
      rw [heq] at hle
      omega
    · obtain ⟨hsame, -⟩ := hcannot hstores
      rw [hsame] at hle hrest
      exact ⟨hle, by rw [hrest]; exact and_iff_right hstores⟩

/-- Calls that cannot store the first finding compare null pointers exactly when their first
searches do. -/
theorem attempts_compare (hnames : NamesFindings lib) {model : ReportModel lib}
    {failing : List (List Bool)}
    (h : EveryStep attemptStep (fun model outcomes => ¬StoresFirst model outcomes) model failing) :
    EveryStep attemptStep ComparesNames model failing ↔
      EveryStep attemptStep (fun model outcomes => ¬FirstSearchesNull model outcomes)
        model failing := by
  induction failing generalizing model with
  | nil => exact Iff.rfl
  | cons outcomes rest ih =>
    rw [EveryStep.cons, EveryStep.cons, ih h.2]
    exact and_congr_left fun _ => ((attempt_stores hnames model outcomes).1 h.1).2

/-- **Reported once.** Calls that fail are followed by one that succeeds. Then the findings are
those before the first call and one for each finding of the library, in its order, and stay so over
any later calls, and no call hands a null pointer to `p101_strcmp`, exactly when no failing call can
store the first finding of the library, and no search that comes before it or in the last call
comes to a name that an earlier call could not copy. -/
theorem finalizeLeaks_retried_iff (hfinish : FinishRaises lib) (hnames : NamesFindings lib)
    (model : ReportModel lib) (failing : List (List Bool)) (last : List Bool)
    (hfailing : EveryStep attemptStep
      (fun model outcomes => (finalizeAttempt model outcomes).err.error = true) model failing)
    (hlast : (finalizeAttempt (failing.foldl attemptStep model) last).err.error = false) :
    let before := failing.foldl attemptStep model
    let reported := attemptStep before last
    ((EveryStep attemptStep ComparesNames model (failing ++ [last]) ∧
        ReportsEach model reported ∧
        ∀ later : List (List Bool), later.foldl attemptStep reported = reported) ↔
      EveryStep attemptStep (fun model outcomes =>
          ¬StoresFirst model outcomes ∧ ¬FirstSearchesNull model outcomes) model failing ∧
        ¬AnySearchesNull before last) := by
  obtain ⟨hresources, hfinalized, -, hwhole⟩ := attempts_failed hnames hfailing
  obtain ⟨⟨added, hmaps, hadded⟩, hdone⟩ := attempt_succeeded hfinish hlast
  have hcompares := attempt_compares hfinish hnames hlast
  dsimp only at hresources hfinalized hwhole ⊢
  rw [hresources, hfinalized] at hmaps
  have hidle (later : List (List Bool)) :
      later.foldl attemptStep (attemptStep (failing.foldl attemptStep model) last) =
        attemptStep (failing.foldl attemptStep model) last := by
    induction later with
    | nil => rfl
    | cons outcomes rest ih =>
      rw [List.foldl_cons, attemptStep, hdone.idle]
      exact ih
  rw [EveryStep.append, EveryStep.cons, EveryStep.nil, and_true, hcompares]
  constructor
  · rintro ⟨⟨hnulls, hlastNull⟩, ⟨expected, hexpected, hreported⟩, -⟩
    -- both lists have one finding for each of the library
    rw [hadded] at hreported
    have hlength : added.length = expected.length :=
      hmaps.length_eq.symm.trans hexpected.length_eq
    have hstores := hwhole.2 (List.append_inj' hreported hlength).1
    exact ⟨hstores.and ((attempts_compare hnames hstores).1 hnulls), hlastNull⟩
  · rintro ⟨hall, hlastNull⟩
    have hstores := hall.imp fun _ _ h => h.1
    have hnulls := (attempts_compare hnames hstores).2 (hall.imp fun _ _ h => h.2)
    rw [hwhole.1 hstores] at hadded
    exact ⟨⟨hnulls, hlastNull⟩, ⟨added, hmaps, hadded⟩, hidle⟩

/-- The lifecycle library, with a `finish` that reports a leak once only, and without findings that
lack a class or a name. -/
def repeatableLib : ToolEventLib :=
  { replayLib with
    lifecycleFinish := fun m allocations =>
      ⟨({ m.finish with live := [] }, false), allocations, false⟩
    lifecycleFindingAt := fun m => (m.findings.filter LifecycleFinding.named).map some }

theorem repeatableLib_names : NamesFindings repeatableLib := by
  intro lifecycle source hsource
  have hmem : source ∈ readFindings
      ((lifecycle.findings.filter LifecycleFinding.named).map some) := hsource
  rw [readFindings_map_some] at hmem
  exact (List.mem_filter.1 hmem).2

/-- A model in which two descriptors have been opened and not closed. -/
def leakedModel : ReportModel repeatableLib :=
  let st := (internSite (some (lit "main.c")) (some (lit "main")) 1
    ⟨ReportModel.zeroed repeatableLib (), ⟨false, []⟩⟩).2
  let st := ingestResource st { openRecord 1 3 with sequence := 1, eventSequence := 1 }
  (ingestResource st { openRecord 1 4 with sequence := 2, eventSequence := 2 }).model

/-- The first call cannot grow the table of findings. -/
theorem finalizeLeaks_retried_early :
    let before := attemptStep leakedModel [true]
    let reported := attemptStep before []
    ((EveryStep attemptStep ComparesNames leakedModel [[true], []] ∧
        ReportsEach leakedModel reported ∧
        ∀ later : List (List Bool), later.foldl attemptStep reported = reported) ↔
      EveryStep attemptStep (fun model outcomes =>
          ¬StoresFirst model outcomes ∧ ¬FirstSearchesNull model outcomes)
          leakedModel [[true]] ∧
        ¬AnySearchesNull before []) := by
  have hfinish : FinishRaises repeatableLib := fun _ _ hfailed => by cases hfailed
  have hfailing : (finalizeAttempt leakedModel [true]).err.error = true := by decide
  exact finalizeLeaks_retried_iff hfinish repeatableLib_names leakedModel [[true]] []
    ⟨hfailing, trivial⟩ (by decide)

/-- The first call stores the first leak and cannot copy a text of the second one: the first leak is
reported twice. -/
theorem finalizeLeaks_retried_halfway :
    let failed := finalizeAttempt leakedModel [false, false, false, true]
    let reported := finalizeAttempt failed.model []
    (∀ (lifecycle : LifecycleModel) (allocations allocations' : List Bool),
      let finished := (repeatableLib.lifecycleFinish lifecycle allocations).value.1
      repeatableLib.lifecycleFindings
          (repeatableLib.lifecycleFinish finished allocations').value.1 =
        repeatableLib.lifecycleFindings finished) ∧
    leakedModel.findings.items = [] ∧ failed.err.error = true ∧ reported.err.error = false ∧
      reported.model.lifecycleFindings.map (·.resourceId) = [some (lit "3"), some (lit "4")] ∧
      reported.model.findings.items.map (·.fd) = [3, 3, 4] ∧
      ¬ReportsEach leakedModel reported.model := by
  refine ⟨?_, by decide, by decide, by decide, by decide, by decide, ?_⟩
  · intro lifecycle allocations allocations'
    simp [repeatableLib, replayLib, LifecycleModel.finish]
  · rintro ⟨added, hmaps, hadded⟩
    have hlength := hmaps.length_eq
    have htotal := congrArg List.length hadded
    rw [List.length_append, ← hlength] at htotal
    exact absurd htotal (by decide)

end P101Report
