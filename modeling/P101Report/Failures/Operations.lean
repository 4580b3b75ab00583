import P101Report.Library.Faults
import P101Report.Model.Ingest

/-!
# Allocation failures in the operations of the model

An operation of the report model that ends without an error did what it does when no allocation
fails: the table growth, the text copies, site interning and findings (`internSite_transparent`,
`addFindingInternal_transparent`), one ingested record (`ingestResource_transparent`) and the end of
the log (`finalizeLeaks_transparent`). The calls into the lifecycle library are assumed to be
honest: one that raises no error has met no failed allocation.
-/

set_option autoImplicit false

namespace P101Report

open Faults

/-! ## The two worlds -/

/-- The error object, with the allocations still to come. -/
def errWorld : World ErrState where
  calm err := ⟨err.error, []⟩
  failed err := err.error = true
  failed_calm _ := Iff.rfl

/-- The model with its error object. -/
def stateWorld (lib : ToolEventLib) : World (State lib) where
  calm st := { st with err := errWorld.calm st.err }
  failed st := st.err.error = true
  failed_calm _ := Iff.rfl

instance : DecidablePred errWorld.failed :=
  fun err => inferInstanceAs (Decidable (err.error = true))

instance (lib : ToolEventLib) : DecidablePred (stateWorld lib).failed :=
  fun st => inferInstanceAs (Decidable (st.err.error = true))

variable {lib : ToolEventLib} {α β : Type}

@[simp] theorem calm_model (st : State lib) : ((stateWorld lib).calm st).model = st.model := rfl

@[simp] theorem calm_error (st : State lib) :
    ((stateWorld lib).calm st).err.error = st.err.error := rfl

@[simp] theorem calm_allocations (err : ErrState) : (errWorld.calm err).allocations = [] := rfl

/-- A state is calm when no failures are to come. -/
theorem calm_of_allocations {st : State lib} (h : st.err.allocations = []) :
    (stateWorld lib).calm st = st := by
  obtain ⟨model, error, allocations⟩ := st
  obtain rfl : allocations = [] := h
  rfl

theorem allocations_of_calm {st : State lib} (h : (stateWorld lib).calm st = st) :
    st.err.allocations = [] := by
  rw [← h]
  rfl

/-- A step of the model does not fail in silence. -/
abbrev FailureTransparent (f : State lib → State lib) : Prop :=
  Transparent (stateWorld lib) (stateWorld lib) f

/-- The model is put back beside the error object. -/
theorem withModel_transparent (model : ReportModel lib) :
    Transparent errWorld (stateWorld lib) fun err => ⟨model, err⟩ := fun _ h => ⟨h, rfl⟩

/-- The model does not change when the failures are taken away. -/
theorem ofModel_transparent {τ : Type} {V : World τ} {f : State lib → τ}
    (hf : ∀ model, Transparent errWorld V fun err => f ⟨model, err⟩) :
    Transparent (stateWorld lib) V f :=
  fun st h => hf st.model st.err h

/-- A step that changes the model alone. -/
theorem model_transparent (f : ReportModel lib → ReportModel lib) :
    FailureTransparent fun st : State lib => { st with model := f st.model } :=
  fun _ h => ⟨h, rfl⟩

/-! ## Library calls -/

/-- A call that raises no error returns what it returns when no allocation fails. -/
def Honest (call : List Bool → LibResult α) : Prop :=
  ∀ allocations, (call allocations).raised = false →
    call [] = ⟨(call allocations).value, [], false⟩

/-- What an honest call that has raised no error does when no allocation fails. -/
theorem Honest.calm {call : List Bool → LibResult α} (hcall : Honest call) {err : ErrState}
    (h : (err.after (call err.allocations)).error ≠ true) :
    err.error ≠ true ∧ (call []).value = (call err.allocations).value ∧
      (errWorld.calm err).after (call []) = errWorld.calm (err.after (call err.allocations)) := by
  obtain ⟨herror, hraised⟩ := Bool.or_eq_false_iff.1 (Bool.eq_false_iff.2 h)
  have hcalm := hcall err.allocations hraised
  refine ⟨Bool.eq_false_iff.1 herror, by rw [hcalm], ?_⟩
  simp only [errWorld, ErrState.after, hcalm, hraised]

/-- An honest call, with the error object it leaves. -/
theorem honest_transparent {call : List Bool → LibResult α} (hcall : Honest call) :
    Transparent errWorld (errWorld.returning α) fun err =>
      ((call err.allocations).value, err.after (call err.allocations)) := by
  intro err h
  obtain ⟨hstart, hvalue, hafter⟩ := hcall.calm h
  exact ⟨hstart, Prod.ext hvalue hafter⟩

/-! ## Memory -/

/-- An allocation that fails raises an error. -/
theorem allocate_transparent :
    Transparent errWorld (errWorld.returning Bool) ErrState.allocate := by
  rintro ⟨error, _ | ⟨_ | _, rest⟩⟩ h
  · exact ⟨h, rfl⟩
  · exact ⟨h, rfl⟩
  · exact absurd rfl h

/-- A growth that is refused for its size raises an error too. -/
theorem growArrayInternal_transparent (itemSize count capacity : Nat) :
    Transparent errWorld ((errWorld.returning Nat).returning Bool)
      (growArrayInternal lib itemSize count capacity) := by
  unfold growArrayInternal
  split_ifs with hroom hwraps
  · exact (Transparent.id.returning capacity).returning true
  · exact fun err h => absurd rfl h
  · intro err h
    rcases hget : err.allocate with ⟨_ | _, rest⟩ <;> simp only [hget] at h ⊢
    all_goals
      obtain ⟨hstart, hcalm⟩ := allocate_transparent.of_eq hget h
      exact ⟨hstart, by rw [hcalm]; rfl⟩

theorem growTable_transparent (itemSize : Nat) (t : Table α) :
    Transparent errWorld ((errWorld.returning (Table α)).returning Bool)
      (growTable lib itemSize t) :=
  ((growArrayInternal_transparent itemSize t.items.length t.capacity).bind fun ok =>
    Transparent.given fun capacity =>
      (Transparent.id.returning { t with capacity }).returning ok).congr fun _ => rfl

/-- A text copy. -/
theorem dupText_transparent (text : Option Text) :
    Transparent errWorld (errWorld.returning (Option Text)) (dupText text) := by
  intro err h
  rcases hget : err.allocate with ⟨_ | _, rest⟩ <;> simp only [dupText, hget] at h ⊢
  all_goals
    obtain ⟨hstart, hcalm⟩ := allocate_transparent.of_eq hget h
    exact ⟨hstart, by rw [hcalm]; rfl⟩

theorem dupField_transparent (text : Option Text) :
    Transparent errWorld (errWorld.returning (Option Text)) (dupField text) := by
  cases text with
  | none => exact Transparent.id.returning none
  | some text => exact dupText_transparent (some text)

/-! ## Appending to a table -/

/-- A computation that makes room in a table and goes on with it. -/
theorem growing_transparent (lib : ToolEventLib) (itemSize : Nat) (t : Table α)
    (use : Bool → Table α → ErrState → β) {V : World β} {f : ErrState → β}
    (hf : ∀ {err ok t' err'}, growTable lib itemSize t err = (ok, t', err') →
      f err = use ok t' err')
    (huse : ∀ ok t', Transparent errWorld V (use ok t')) : Transparent errWorld V f := by
  intro err h
  -- from the end back: what follows the growth has raised nothing, so neither has the growth
  rcases hget : growTable lib itemSize t err with ⟨ok, t', err'⟩
  rw [hf hget] at h ⊢
  obtain ⟨hmid, heq⟩ := huse ok t' err' h
  obtain ⟨hstart, hcalm⟩ := (growTable_transparent itemSize t).of_eq hget hmid
  refine ⟨hstart, ?_⟩
  rw [← heq]
  exact hf hcalm

/-- A step that makes room in a table and appends an entry to it. -/
theorem appending_transparent (itemSize : Nat) (get : ReportModel lib → Table α)
    (set : ReportModel lib → Table α → ReportModel lib) {entry : ErrState → α × ErrState}
    (hentry : Transparent errWorld (errWorld.returning α) entry) {f : State lib → State lib}
    (hf : ∀ {model err ok t err'}, growTable lib itemSize (get model) err = (ok, t, err') →
      f ⟨model, err⟩ = if ok then ⟨set model (t.push (entry err').1), (entry err').2⟩
        else ⟨set model t, err'⟩) :
    FailureTransparent f := by
  refine ofModel_transparent fun model => growing_transparent lib itemSize (get model)
    (fun ok t err => if ok then ⟨set model (t.push (entry err).1), (entry err).2⟩
      else ⟨set model t, err⟩) hf ?_
  rintro (_ | _) t
  · exact withModel_transparent (set model t)
  · exact hentry.bind fun a => withModel_transparent (set model (t.push a))

/-- An entry of the descriptor tables holds no text. -/
theorem pushLiveFd_transparent (entry : LiveFd) :
    FailureTransparent (pushLiveFd entry : State lib → State lib) := by
  refine appending_transparent lib.sizeofLiveFd (·.fds) (fun model fds => { model with fds })
    (Transparent.id.returning entry) fun {model err ok fds err'} hget => ?_
  cases ok <;> simp only [pushLiveFd, hget] <;> rfl

theorem pushClosedFd_transparent (entry : ClosedFd) :
    FailureTransparent (pushClosedFd entry : State lib → State lib) := by
  refine appending_transparent lib.sizeofClosedFd (·.closedFds)
    (fun model closedFds => { model with closedFds }) (Transparent.id.returning entry)
    fun {model err ok closedFds err'} hget => ?_
  cases ok <;> simp only [pushClosedFd, hget] <;> rfl

/-- An entry of the allocation tables holds a copy of its pointer text. -/
theorem pushLiveAlloc_transparent (pid : Int) (ptr : Option Text) (event : ResourceEvent) :
    FailureTransparent (pushLiveAlloc pid ptr event : State lib → State lib) := by
  refine appending_transparent lib.sizeofLiveAlloc (·.allocs)
    (fun model allocs => { model with allocs })
    ((dupText_transparent ptr).map fun copy =>
      (⟨pid, copy, event.size, event.site, event.sequence⟩ : LiveAlloc))
    fun {model err ok allocs err'} hget => ?_
  cases ok <;> simp only [pushLiveAlloc, hget] <;> rfl

theorem pushFreedAlloc_transparent (event : ResourceEvent) :
    FailureTransparent (pushFreedAlloc event : State lib → State lib) := by
  refine appending_transparent lib.sizeofFreedAlloc (·.freedAllocs)
    (fun model freedAllocs => { model with freedAllocs })
    ((dupText_transparent event.ptr).map fun copy =>
      (⟨event.pid, copy, event.site, event.sequence⟩ : FreedAlloc))
    fun {model err ok freedAllocs err'} hget => ?_
  cases ok <;> simp only [pushFreedAlloc, hget] <;> rfl

/-- A call record is stored as it is. -/
theorem addCall_transparent (event : CallEvent) :
    FailureTransparent (addCall event : State lib → State lib) := by
  refine appending_transparent lib.sizeofCallEvent (·.calls)
    (fun model calls => { model with calls }) (Transparent.id.returning event)
    fun {model err ok calls err'} hget => ?_
  cases ok <;> simp only [addCall, hget] <;> rfl

/-- A step that makes room in a table and appends a copy that it undoes after an error. -/
theorem storing_transparent (itemSize : Nat) (get : ReportModel lib → Table α)
    (set : ReportModel lib → Table α → ReportModel lib) {copy : ErrState → α × ErrState}
    (hcopy : Transparent errWorld (errWorld.returning α) copy) {f : State lib → State lib}
    (hf : ∀ {model err ok t err'}, growTable lib itemSize (get model) err = (ok, t, err') →
      f ⟨model, err⟩ =
        if ok then
          if (copy err').2.error then ⟨set model t, (copy err').2⟩
          else ⟨set model (t.push (copy err').1), (copy err').2⟩
        else ⟨set model t, err'⟩) :
    FailureTransparent f := by
  -- the undo runs after an error only, so a run without one does not see it
  refine ofModel_transparent fun model => growing_transparent lib itemSize (get model)
    (fun ok t err =>
      if ok then
        if (copy err).2.error then ⟨set model t, (copy err).2⟩
        else ⟨set model (t.push (copy err).1), (copy err).2⟩
      else ⟨set model t, err⟩) hf ?_
  rintro (_ | _) t
  · exact withModel_transparent (set model t)
  · exact hcopy.bind fun a =>
      Transparent.ifFailed (f := fun err => (⟨set model t, err⟩ : State lib)) (fun _ h => h)
        (withModel_transparent (set model (t.push a)))

/-- A finding is copied with its three texts, or not stored. -/
theorem addFindingInternal_transparent (finding : Finding) :
    FailureTransparent (addFindingInternal finding : State lib → State lib) := by
  refine storing_transparent lib.sizeofFinding (·.findings)
    (fun model findings => { model with findings })
    ((dupField_transparent finding.ptr).bind fun ptr =>
      (dupField_transparent finding.resourceClass).bind fun resourceClass =>
        (dupField_transparent finding.resourceId).map fun resourceId =>
          { finding with ptr, resourceClass, resourceId })
    fun {model err ok findings err'} hget => ?_
  cases ok <;> simp only [addFindingInternal, hget] <;> rfl

/-- A record is copied with its seven texts, or not stored. -/
theorem addResourceEvent_transparent (event : ResourceEvent) :
    FailureTransparent (addResourceEvent event : State lib → State lib) := by
  refine storing_transparent lib.sizeofResourceEvent (·.resources)
    (fun model resources => { model with resources })
    ((dupField_transparent event.ptr).bind fun ptr =>
      (dupField_transparent event.newPtr).bind fun newPtr =>
      (dupField_transparent event.target).bind fun target =>
      (dupField_transparent event.resourceClass).bind fun resourceClass =>
      (dupField_transparent event.resourceId).bind fun resourceId =>
      (dupField_transparent event.relatedId).bind fun relatedId =>
      (dupField_transparent event.metadata).map fun metadata =>
        { event with ptr, newPtr, target, resourceClass, resourceId, relatedId, metadata })
    fun {model err ok resources err'} hget => ?_
  cases ok <;> simp only [addResourceEvent, hget] <;> rfl

/-! ## Sites -/

/-- A site that is known needs no allocation; a new one is added with both names. -/
theorem internSite_transparent (fileName functionName : Option Text) (lineNumber : Int) :
    Transparent (stateWorld lib) ((stateWorld lib).returning Nat)
      (internSite fileName functionName lineNumber) := by
  refine ofModel_transparent fun model => ?_
  cases hknown : model.sites.items.findIdx?
      (SourceSite.isAt fileName functionName lineNumber) with
  | some index =>
    simp only [internSite, hknown]
    exact (withModel_transparent model).returning index
  | none =>
    -- for a new site the growth decides, then the two copies
    refine growing_transparent lib lib.sizeofSite model.sites (fun ok sites err =>
      if ok then
        (model.sites.items.length,
          ⟨{ model with
              sites := sites.push
                ⟨(dupText fileName err).1, (dupText functionName (dupText fileName err).2).1,
                  lineNumber⟩ },
            (dupText functionName (dupText fileName err).2).2⟩)
      else (0, ⟨{ model with sites }, err⟩)) (fun {err ok sites err'} hget => ?_) ?_
    · cases ok <;> simp only [internSite, hknown, hget] <;> rfl
    · rintro (_ | _) sites
      · exact (withModel_transparent { model with sites }).returning 0
      · exact (dupText_transparent fileName).bind fun fileCopy =>
          (dupText_transparent functionName).bind fun functionCopy =>
            (withModel_transparent { model with
              sites := sites.push ⟨fileCopy, functionCopy, lineNumber⟩ }).returning
                model.sites.items.length

/-! ## One record -/

/-- The calls into the lifecycle library that a run of the model makes are honest. -/
structure HonestLifecycle (lib : ToolEventLib) : Prop where
  create : Honest lib.lifecycleCreate
  ingest : ∀ lifecycle record, Honest (lib.lifecycleIngest lifecycle record)
  finish : ∀ lifecycle, Honest (lib.lifecycleFinish lifecycle)

/-- Forwarding a record: the library is created on first use. -/
theorem ingestGeneric_transparent (hlib : HonestLifecycle lib) (event : ResourceEvent) :
    FailureTransparent (ingestGeneric event : State lib → State lib) := by
  refine ofModel_transparent fun model => ?_
  have hingest (lifecycle : lib.Lifecycle) :
      Transparent errWorld (stateWorld lib) fun err =>
        let result := lib.lifecycleIngest lifecycle (lifecycleRecord model event) err.allocations
        ⟨{ model with genericLifecycle := some result.value }, err.after result⟩ :=
    (honest_transparent (hlib.ingest lifecycle (lifecycleRecord model event))).bind
      fun lifecycle => withModel_transparent { model with genericLifecycle := some lifecycle }
  cases hlifecycle : model.genericLifecycle with
  | some lifecycle =>
    simp only [ingestGeneric, hlifecycle]
    exact hingest lifecycle
  | none =>
    -- created on first use, and then as above
    intro err h
    cases hvalue : (lib.lifecycleCreate err.allocations).value with
    | none =>
      simp only [ingestGeneric, hlifecycle, hvalue] at h ⊢
      obtain ⟨hstart, hcreated, hafter⟩ := hlib.create.calm h
      refine ⟨hstart, ?_⟩
      rw [hvalue] at hcreated
      simp only [calm_allocations, hcreated, hafter]
      rfl
    | some lifecycle =>
      simp only [ingestGeneric, hlifecycle, hvalue] at h ⊢
      obtain ⟨hmid, heq⟩ := hingest lifecycle _ h
      obtain ⟨hstart, hcreated, hafter⟩ := hlib.create.calm hmid
      refine ⟨hstart, ?_⟩
      rw [hvalue] at hcreated
      simp only [calm_allocations, hcreated, hafter]
      exact heq

theorem setFds_transparent (f : List LiveFd → List LiveFd) :
    FailureTransparent fun st : State lib => st.setFds (f st.model.fds.items) :=
  model_transparent fun model => { model with fds := { model.fds with items := f model.fds.items } }

theorem setAllocs_transparent (f : List LiveAlloc → List LiveAlloc) :
    FailureTransparent fun st : State lib => st.setAllocs (f st.model.allocs.items) :=
  model_transparent fun model =>
    { model with allocs := { model.allocs with items := f model.allocs.items } }

/-- The loop stops at the first closing that fails. -/
theorem finishExecLoop_transparent (pid : Int) (endOfInput : Bool) (remaining : Nat) :
    FailureTransparent (finishExecLoop pid endOfInput remaining : State lib → State lib) := by
  induction remaining with
  | zero => exact Transparent.id
  | succ remaining ih =>
    intro st h
    by_cases herror : st.err.error = true
    · rw [finishExecLoop, if_pos herror] at h
      exact absurd herror h
    · refine ⟨herror, ?_⟩
      rw [Bool.not_eq_true] at herror
      simp only [finishExecLoop, calm_model, calm_error, herror, Bool.false_eq_true,
        if_false] at h ⊢
      cases hfd : st.model.fds.items[st.model.fds.items.length - (remaining + 1)]? with
      | none => rfl
      | some fd =>
        simp only [hfd] at h ⊢
        split_ifs at h ⊢
        · exact (ih st h).2
        · exact (((pushClosedFd_transparent (ClosedFd.ofExec fd)).comp
            (setFds_transparent fun _ => _)).comp ih st h).2
        · exact ((setFds_transparent fun _ => _).comp ih st h).2
        · exact ((setFds_transparent fun _ => _).comp ih st h).2

theorem finishExec_transparent (pid : Int) (endOfInput : Bool) :
    FailureTransparent (finishExec pid endOfInput : State lib → State lib) :=
  fun st h => finishExecLoop_transparent pid endOfInput st.model.fds.items.length st h

/-- `CLOSE` goes on to take the entry out after a failure, which has raised an error by then. -/
theorem ingestFdClose_transparent (event : ResourceEvent) :
    FailureTransparent (ingestFdClose event : State lib → State lib) := by
  intro st h
  simp only [ingestFdClose, calm_model] at h ⊢
  cases hindex : st.model.fds.items.findIdx? (LiveFd.isFor event.pid event.fd) with
  | none =>
    simp only [hindex] at h
    exact ⟨h, rfl⟩
  | some index =>
    simp only [hindex] at h ⊢
    exact ((pushClosedFd_transparent (ClosedFd.ofClose event)).comp
      (setFds_transparent fun fds => SwapTable.swapRemove fds index)) st h

theorem ingestAlloc_transparent (event : ResourceEvent) :
    FailureTransparent (ingestAlloc event : State lib → State lib) := by
  unfold ingestAlloc
  split_ifs
  · exact pushLiveAlloc_transparent event.pid event.ptr event
  · exact Transparent.id

theorem ingestFree_transparent (event : ResourceEvent) :
    FailureTransparent (ingestFree event : State lib → State lib) := by
  intro st h
  simp only [ingestFree, calm_model] at h ⊢
  cases hindex : st.model.allocs.items.findIdx? (LiveAlloc.isFor event.pid event.ptr) with
  | none =>
    simp only [hindex] at h
    exact ⟨h, rfl⟩
  | some index =>
    simp only [hindex] at h ⊢
    exact ((pushFreedAlloc_transparent event).comp
      (setAllocs_transparent fun allocs => SwapTable.swapRemove allocs index)) st h

/-- `REALLOC` takes its source out without an allocation. -/
theorem ingestRealloc_transparent (event : ResourceEvent) :
    FailureTransparent (ingestRealloc event : State lib → State lib) := by
  have hremove := @setAllocs_transparent lib
    (SwapTable.removeFirst (LiveAlloc.isFor event.pid event.ptr))
  have hpush := @pushLiveAlloc_transparent lib event.pid event.newPtr event
  unfold ingestRealloc
  dsimp only
  split_ifs
  · exact hpush
  · exact hremove.comp hpush
  · exact Transparent.id
  · exact hremove

/-- A pass of the `FORK` loop. -/
theorem forkStep_transparent (event : ResourceEvent) (index : Nat) :
    FailureTransparent fun st : State lib => forkStep event st index := by
  intro st h
  by_cases herror : st.err.error = true
  · simp only [forkStep, if_pos herror] at h
    exact absurd herror h
  · refine ⟨herror, ?_⟩
    rw [Bool.not_eq_true] at herror
    simp only [forkStep, calm_model, calm_error, herror, Bool.false_eq_true, if_false] at h ⊢
    cases hfd : st.model.fds.items[index]? with
    | none => rfl
    | some fd =>
      simp only [hfd] at h ⊢
      by_cases hpid : fd.pid = event.pid
      · by_cases hnew : (!st.model.fds.items.any (LiveFd.isFor event.childPid fd.fd) &&
            !st.model.closedFds.items.any (ClosedFd.isFor event.childPid fd.fd)) = true
        · simp only [hpid, hnew, ne_eq, not_true_eq_false, if_false, if_true] at h ⊢
          exact (pushLiveFd_transparent (LiveFd.ofFork event fd) st h).2
        · simp only [hpid, hnew, ne_eq, not_true_eq_false, Bool.false_eq_true, if_false]
      · simp only [hpid, ne_eq, not_false_eq_true, if_true]

theorem ingestFork_transparent (event : ResourceEvent) :
    FailureTransparent (ingestFork event : State lib → State lib) :=
  fun st h => Transparent.foldl (forkStep_transparent event)
    (List.range st.model.fds.items.length) st h

/-- `EXEC` marks the descriptor and raises a finding when it is passed on. -/
theorem ingestExec_transparent (event : ResourceEvent) :
    FailureTransparent (ingestExec event : State lib → State lib) := by
  have hmark := @setFds_transparent lib
    (SwapTable.modifyFirst (LiveFd.isFor event.pid event.fd) (LiveFd.mark event))
  intro st h
  simp only [ingestExec, calm_model] at h ⊢
  cases hfd : st.model.fds.items.find? (LiveFd.isFor event.pid event.fd) with
  | none =>
    simp only [hfd] at h
    exact ⟨h, rfl⟩
  | some fd =>
    simp only [hfd] at h ⊢
    split_ifs at h ⊢
    · exact (hmark.comp (addFindingInternal_transparent (Finding.ofExec event fd))) st h
    · exact hmark st h

/-- `EXECFAIL` makes no allocation. -/
theorem rollbackFailedExec_transparent (event : ResourceEvent) :
    FailureTransparent (rollbackFailedExec event : State lib → State lib) := by
  intro st h
  simp only [rollbackFailedExec, calm_model] at h ⊢
  by_cases hempty : st.model.resources.items.isEmpty = true
  · simp only [hempty, if_true] at h ⊢
    exact ⟨h, trivial⟩
  · simp only [hempty, Bool.false_eq_true, if_false] at h ⊢
    exact ⟨h, rfl⟩

/-- The `switch` on the kind of a record. -/
theorem ingestKind_transparent (event : ResourceEvent) :
    FailureTransparent (ingestKind event : State lib → State lib) := by
  unfold ingestKind
  cases event.kind with
  | fdOpen => exact pushLiveFd_transparent (LiveFd.ofOpen event)
  | fdClose => exact ingestFdClose_transparent event
  | alloc => exact ingestAlloc_transparent event
  | free => exact ingestFree_transparent event
  | realloc => exact ingestRealloc_transparent event
  | fork => exact ingestFork_transparent event
  | spawn => exact Transparent.id
  | exec => exact ingestExec_transparent event
  | execFail => exact rollbackFailedExec_transparent event
  | generic => exact Transparent.id

/-- **One record.** An ingested record that raises no error does what it does when no allocation
fails. -/
theorem ingestResource_transparent (hlib : HonestLifecycle lib) (event : ResourceEvent) :
    FailureTransparent fun st : State lib => ingestResource st event := by
  have hforward : FailureTransparent fun st : State lib =>
      ingestKind event (if forwarded event.kind then ingestGeneric event st else st) := by
    cases forwarded event.kind with
    | true => exact (ingestGeneric_transparent hlib event).comp (ingestKind_transparent event)
    | false => exact ingestKind_transparent event
  have hstore := (@addResourceEvent_transparent lib event).comp hforward.unlessFailed
  by_cases hfinish : event.kind ≠ .exec ∧ event.kind ≠ .execFail
  · simp only [ingestResource, if_pos hfinish]
    exact (finishExec_transparent event.pid false).comp hstore
  · simp only [ingestResource, if_neg hfinish]
    exact hstore

/-! ## End of the log -/

/-- The restart loop over pending execs. -/
theorem finishPending_transparent (fuel : Nat) :
    FailureTransparent (finishPending fuel : State lib → State lib) := by
  induction fuel with
  | zero => exact Transparent.id
  | succ fuel ih =>
    intro st h
    by_cases herror : st.err.error = true
    · simp only [finishPending, if_pos herror] at h
      exact absurd herror h
    · refine ⟨herror, ?_⟩
      rw [Bool.not_eq_true] at herror
      simp only [finishPending, calm_model, calm_error, herror, Bool.false_eq_true,
        if_false] at h ⊢
      cases hpending : st.model.fds.items.find? fun fd => fd.execPending ≠ 0 with
      | none => rfl
      | some fd =>
        simp only [hpending] at h ⊢
        exact ((finishExec_transparent fd.pid true).comp ih st h).2

/-- A finding of the library: one or two sites, then the copy. -/
theorem finalizeFinding_transparent (source : LifecycleFinding) :
    FailureTransparent (finalizeFinding source : State lib → State lib) := by
  intro st h
  rcases hsite : internSite source.fileName source.functionName source.lineNumber st with
    ⟨site, st₁⟩
  simp only [finalizeFinding, hsite] at h ⊢
  by_cases hprevious : source.previousSequence ≠ 0
  · rcases hsite₂ : internSite source.previousFileName source.previousFunctionName
      source.previousLineNumber st₁ with ⟨previousSite, st₂⟩
    simp only [hprevious, hsite₂, ne_eq, not_false_eq_true, if_true] at h ⊢
    obtain ⟨hmid₂, heq⟩ := addFindingInternal_transparent _ st₂ h
    obtain ⟨hmid₁, hcalm₂⟩ := (internSite_transparent _ _ _).of_eq hsite₂ hmid₂
    obtain ⟨hstart, hcalm₁⟩ := (internSite_transparent _ _ _).of_eq hsite hmid₁
    refine ⟨hstart, ?_⟩
    simp only [hcalm₁, hcalm₂, calm_model]
    exact heq
  · rw [ne_eq, not_not] at hprevious
    simp only [hprevious, ne_eq, not_true_eq_false, if_false] at h ⊢
    obtain ⟨hmid₁, heq⟩ := addFindingInternal_transparent _ st₁ h
    obtain ⟨hstart, hcalm₁⟩ := (internSite_transparent _ _ _).of_eq hsite hmid₁
    refine ⟨hstart, ?_⟩
    simp only [hcalm₁, calm_model]
    exact heq

/-- A null pointer among the library's findings is a failure, not an outcome of the loop. -/
theorem finalizeFindings_transparent (sources : List (Option LifecycleFinding)) :
    FailureTransparent (finalizeFindings sources : State lib → State lib) := by
  induction sources with
  | nil => exact Transparent.id
  | cons source rest ih =>
    cases source with
    | none =>
      intro st h
      exact absurd (finalizeFindings_null rest st) h
    | some source => exact ((finalizeFinding_transparent source).comp ih).unlessFailed

/-- The flag is set only after a loop without an error. -/
theorem finalizeGeneric_transparent (hlib : HonestLifecycle lib) :
    FailureTransparent (finalizeGeneric : State lib → State lib) := by
  refine ofModel_transparent fun model => ?_
  have hmapped (lifecycle : lib.Lifecycle) :=
    (@finalizeFindings_transparent lib (lib.lifecycleFindingAt lifecycle)).comp
      (model_transparent fun model => { model with genericFinalized := true }).unlessFailed
  have hfinished (value : lib.Lifecycle × Bool) : Transparent errWorld (stateWorld lib) fun err =>
      let st : State lib := ⟨{ model with genericLifecycle := some value.1 }, err⟩
      if value.2 then st
      else
        let st := finalizeFindings (lib.lifecycleFindingAt value.1) st
        if st.err.error then st
        else { st with model := { st.model with genericFinalized := true } } := by
    obtain ⟨lifecycle, failed⟩ := value
    cases failed with
    | true => exact withModel_transparent _
    | false => exact (withModel_transparent _).comp (hmapped lifecycle)
  cases hlifecycle : model.genericLifecycle with
  | none =>
    simp only [finalizeGeneric, hlifecycle]
    exact withModel_transparent model
  | some lifecycle =>
    cases hfinalized : model.genericFinalized with
    | true =>
      simp only [finalizeGeneric, hlifecycle, hfinalized, if_true]
      exact withModel_transparent model
    | false =>
      simp only [finalizeGeneric, hlifecycle, hfinalized, Bool.false_eq_true, if_false]
      rw [hfinalized] at hfinished
      exact (honest_transparent (hlib.finish lifecycle)).bind hfinished

/-- **The end of the log.** -/
theorem finalizeLeaks_transparent (hlib : HonestLifecycle lib) :
    FailureTransparent (finalizeLeaks : State lib → State lib) :=
  fun st h => (finishPending_transparent st.model.fds.items.length).comp
    (finalizeGeneric_transparent hlib) st h

end P101Report
