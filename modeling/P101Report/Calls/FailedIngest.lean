import P101Report.Calls.Demands
import P101Report.Calls.ModelCalls
import P101Report.Model.Lifecycle

/-!
# Ingestion that fails

`p101_report_ingest_resource` commits a pending exec before it stores the record, and goes on after
a failure of the lifecycle library, of a growth or of a text copy. `FailsHarmlessly` says of the
model before a call, the outcomes of its allocations and the answer of the library when a failing
call nevertheless leaves the four tables alone: it has nothing to commit, and either the record
cannot be stored, or the step of the record has nothing to write or stops at its first growth. In a
run whose failed calls are all of this kind the tables stay whole, and no comparison is handed a
null pointer (`failedIngest_whole`).
-/

set_option autoImplicit false

namespace P101Report

open Runs SwapTable

variable {lib : ToolEventLib}

/-- The tables in which a record takes effect. -/
def ReportModel.ownedPart (model : ReportModel lib) :
    Table LiveFd × Table ClosedFd × Table LiveAlloc × Table FreedAlloc :=
  (model.fds, model.closedFds, model.allocs, model.freedAllocs)

/-- No entry of the allocation tables has `NULL` for its pointer text. -/
structure Tables.PointersNamed (t : Tables) : Prop where
  allocs : ∀ alloc ∈ t.allocs, alloc.ptr.isSome
  freedAllocs : ∀ alloc ∈ t.freedAllocs, alloc.ptr.isSome

/-! ## When a call leaves the tables alone -/

/-- No exec of the process is pending. -/
def NothingPending (pid : Int) (model : ReportModel lib) : Prop :=
  ∀ fd ∈ model.fds.items, fd.pid = pid → fd.execPending = 0

/-- The table cannot grow by one entry. -/
def GrowthFails {α : Type} (lib : ToolEventLib) (itemSize : Nat) (t : Table α)
    (outcomes : List Bool) : Prop :=
  ¬ Granted (t.demand lib itemSize) outcomes

/-- A descriptor of the parent that the child neither has nor has closed. -/
def SomethingInherited (event : ResourceEvent) (model : ReportModel lib) : Prop :=
  ∃ fd ∈ model.fds.items, fd.pid = event.pid ∧
    model.fds.items.any (LiveFd.isFor event.childPid fd.fd) = false ∧
    model.closedFds.items.any (ClosedFd.isFor event.childPid fd.fd) = false

/-- The `switch` writes none of the four tables: there is nothing to write, or the table that it
writes first cannot grow. `err` is what the library leaves to it. -/
def SwitchKeeps (event : ResourceEvent) (model : ReportModel lib) (err : ErrState) : Prop :=
  match event.kind with
  | .fdOpen => GrowthFails lib lib.sizeofLiveFd model.fds err.allocations
  | .fdClose => model.fds.items.findIdx? (LiveFd.isFor event.pid event.fd) = none
  | .alloc =>
    Tables.isPointer event.ptr = false ∨
      GrowthFails lib lib.sizeofLiveAlloc model.allocs err.allocations
  | .free => model.allocs.items.findIdx? (LiveAlloc.isFor event.pid event.ptr) = none
  | .realloc =>
    (Tables.isPointer event.ptr = false ∨
        model.allocs.items.findIdx? (LiveAlloc.isFor event.pid event.ptr) = none) ∧
      (Tables.isPointer event.newPtr = false ∨
        GrowthFails lib lib.sizeofLiveAlloc model.allocs err.allocations)
  | .fork =>
    err.error = true ∨ ¬SomethingInherited event model ∨
      GrowthFails lib lib.sizeofLiveFd model.fds err.allocations
  | .exec =>
    -- the descriptor is not live, or bears the same marks already
    ∀ fd, model.fds.items.find? (LiveFd.isFor event.pid event.fd) = some fd → fd.mark event = fd
  | .execFail => NothingPending event.pid model
  | .spawn | .generic => True

/-- The library's answer to the record: the outcomes that it leaves, and whether it raises an error.
Its state is created on first use. -/
def libraryAnswer (event : ResourceEvent) (model : ReportModel lib) (outcomes : List Bool) :
    ErrState :=
  let forward (lifecycle : lib.Lifecycle) (err : ErrState) : ErrState :=
    err.after (lib.lifecycleIngest lifecycle (lifecycleRecord model event) err.allocations)
  if forwarded event.kind then
    match model.genericLifecycle with
    | some lifecycle => forward lifecycle ⟨false, outcomes⟩
    | none =>
      let created := lib.lifecycleCreate outcomes
      match created.value with
      | none => ErrState.after ⟨false, outcomes⟩ created
      | some lifecycle => forward lifecycle (ErrState.after ⟨false, outcomes⟩ created)
  else ⟨false, outcomes⟩

/-- A failure of the call leaves the four tables alone: an error was raised before it, or it has
nothing to commit and fails before the record takes effect. -/
def FailsHarmlessly (event : ResourceEvent) (model : ReportModel lib) (err : ErrState) : Prop :=
  err.error = true ∨
    ((event.kind ≠ .exec ∧ event.kind ≠ .execFail → NothingPending event.pid model) ∧
      (Granted (storeDemand event model) err.allocations →
        SwitchKeeps event model
          (libraryAnswer event model (leftOver (storeDemand event model) err.allocations))))

/-- A `FREE` record compares a pointer text with those of the allocations of its process: it has
one, or there are none, or the record cannot be stored. -/
def FreesByName (event : ResourceEvent) (model : ReportModel lib) (err : ErrState) : Prop :=
  event.kind = .free → event.ptr.isSome = true ∨
    (∀ alloc ∈ model.allocs.items, alloc.pid ≠ event.pid) ∨ err.error = true ∨
    ¬ Granted (demandSum (commitDemand event.pid model) (storeDemand event model)) err.allocations

/-! ## One call -/

theorem growTable_fails {α : Type} {itemSize : Nat} {t : Table α} {err : ErrState}
    (h : GrowthFails lib itemSize t err.allocations) :
    ∃ err', growTable lib itemSize t err = (false, t, err') ∧ err'.error = true :=
  growTable_failed (Bool.eq_false_iff.2 fun hgrown =>
    h ((growTable_spends itemSize t err).2.1.1 hgrown))

theorem pushLiveFd_failed {entry : LiveFd} {st : State lib}
    (h : GrowthFails lib lib.sizeofLiveFd st.model.fds st.err.allocations) :
    ∃ err, pushLiveFd entry st = ⟨st.model, err⟩ ∧ err.error = true := by
  obtain ⟨err, hgrown, herror⟩ := growTable_fails h
  rw [pushLiveFd, hgrown]
  exact ⟨err, rfl, herror⟩

theorem pushLiveAlloc_failed {pid : Int} {ptr : Option Text} {event : ResourceEvent}
    {st : State lib} (h : GrowthFails lib lib.sizeofLiveAlloc st.model.allocs st.err.allocations) :
    (pushLiveAlloc pid ptr event st).model = st.model := by
  obtain ⟨err, hgrown, -⟩ := growTable_fails h
  rw [pushLiveAlloc, hgrown]

/-- A commit with nothing to do, or after an error. -/
theorem finishExecLoop_skips {pid : Int} {endOfInput : Bool} {st : State lib}
    (h : st.err.error = true ∨ NothingPending pid st.model) (remaining : Nat) :
    finishExecLoop pid endOfInput remaining st = st := by
  induction remaining with
  | zero => rfl
  | succ n ih =>
    rw [finishExecLoop]
    split
    · rfl
    · rename_i hnone
      have hidle := h.resolve_left hnone
      dsimp only
      split
      · rfl
      · rename_i fd hget
        have hskip : fd.pid ≠ pid ∨ fd.execPending = 0 := by
          by_cases hpid : fd.pid = pid
          · exact Or.inr (hidle fd (List.mem_of_getElem? hget) hpid)
          · exact Or.inl hpid
        rw [if_pos hskip]
        exact ih

theorem addResourceEvent_ownedPart (event : ResourceEvent) :
    Keeps lib ReportModel.ownedPart (addResourceEvent event) := by
  intro st
  rw [addResourceEvent]
  split
  · rfl
  · dsimp only
    split <;> rfl

theorem ingestGeneric_ownedPart (event : ResourceEvent) :
    Keeps lib ReportModel.ownedPart (ingestGeneric event) := by
  intro st
  rw [ingestGeneric]
  dsimp only
  split <;> rfl

theorem addFindingInternal_ownedPart (finding : Finding) :
    Keeps lib ReportModel.ownedPart (addFindingInternal finding) := by
  intro st
  rw [addFindingInternal]
  split
  · rfl
  · dsimp only
    split <;> rfl

/-- A pass of the `FORK` loop that has nothing to add, or whose growth fails. -/
theorem forkStep_keeps_model {event : ResourceEvent} {st : State lib}
    (h : st.err.error = true ∨ ¬SomethingInherited event st.model ∨
      GrowthFails lib lib.sizeofLiveFd st.model.fds st.err.allocations) (index : Nat) :
    (forkStep event st index).model = st.model ∧
      ((forkStep event st index).err.error = true ∨ forkStep event st index = st) := by
  rw [forkStep]
  split
  · exact ⟨rfl, Or.inr rfl⟩
  · rename_i hnone
    split
    · exact ⟨rfl, Or.inr rfl⟩
    · rename_i fd hget
      split
      · exact ⟨rfl, Or.inr rfl⟩
      · rename_i hpid
        dsimp only
        split
        · -- the descriptor is inherited, so it is the growth that fails
          rename_i hnew
          rw [Bool.and_eq_true, Bool.not_eq_true', Bool.not_eq_true'] at hnew
          have hinherited : SomethingInherited event st.model :=
            ⟨fd, List.mem_of_getElem? hget, not_not.1 hpid, hnew.1, hnew.2⟩
          have hfails := (h.resolve_left hnone).resolve_left (not_not.2 hinherited)
          obtain ⟨err, hpush, herror⟩ := pushLiveFd_failed hfails
          rw [hpush]
          exact ⟨rfl, Or.inl herror⟩
        · exact ⟨rfl, Or.inr rfl⟩

/-- After a pass that fails the loop stops, and one that adds nothing leaves the next in the same
place. -/
theorem forkLoop_keeps_model {event : ResourceEvent} {st : State lib} (indices : List Nat)
    (h : st.err.error = true ∨ ¬SomethingInherited event st.model ∨
      GrowthFails lib lib.sizeofLiveFd st.model.fds st.err.allocations) :
    (indices.foldl (forkStep event) st).model = st.model := by
  induction indices generalizing st with
  | nil => rfl
  | cons index rest ih =>
    rw [List.foldl_cons]
    obtain ⟨hmodel, herror | hsame⟩ := forkStep_keeps_model h index
    · exact (ih (Or.inl herror)).trans hmodel
    · rw [hsame]
      exact ih h

theorem isPointer_eq_false {ptr : Option Text} :
    Tables.isPointer ptr = false ↔ ¬(ptr.isSome = true ∧ ptr ≠ some dash) := by
  simp [Tables.isPointer, Bool.and_eq_false_imp]

/-- An entry for a new pointer that is none, or that does not fit. -/
theorem pushLiveAlloc_skips {ptr : Option Text} {event : ResourceEvent} {st : State lib}
    (h : Tables.isPointer ptr = false ∨
      GrowthFails lib lib.sizeofLiveAlloc st.model.allocs st.err.allocations) :
    (if ptr.isSome = true ∧ ptr ≠ some dash then pushLiveAlloc event.pid ptr event st
      else st).model = st.model := by
  split
  · rename_i hsome
    exact pushLiveAlloc_failed (h.resolve_left fun hnone => isPointer_eq_false.1 hnone hsome)
  · rfl

/-- An old pointer that is none, or that no entry has. -/
theorem removeSource_skips {event : ResourceEvent} {st : State lib}
    (h : Tables.isPointer event.ptr = false ∨
      st.model.allocs.items.findIdx? (LiveAlloc.isFor event.pid event.ptr) = none) :
    (if event.ptr.isNone = true ∨ event.ptr = some dash then st else st.setAllocs
      (removeFirst (LiveAlloc.isFor event.pid event.ptr) st.model.allocs.items)) = st := by
  split
  · rfl
  · rename_i hsome
    rw [not_or, Option.isNone_iff_eq_none, ← ne_eq, ← Option.isSome_iff_ne_none] at hsome
    have habsent := h.resolve_left fun hnone => isPointer_eq_false.1 hnone hsome
    rw [removeFirst, habsent]
    rfl

/-- The condition reads the four tables only. -/
theorem SwitchKeeps.of_ownedPart {event : ResourceEvent} {model model' : ReportModel lib}
    {err : ErrState} (h : SwitchKeeps event model err)
    (hpart : model'.ownedPart = model.ownedPart) : SwitchKeeps event model' err := by
  simp only [ReportModel.ownedPart, Prod.mk.injEq] at hpart
  obtain ⟨hfds, hclosed, hallocs, -⟩ := hpart
  rw [SwitchKeeps] at h ⊢
  rw [SomethingInherited, NothingPending] at h ⊢
  rwa [hfds, hclosed, hallocs]

/-- The `switch` on a state in which it writes none of the tables. -/
theorem ingestKind_ownedPart {event : ResourceEvent} {st : State lib}
    (h : SwitchKeeps event st.model st.err) :
    (ingestKind event st).model.ownedPart = st.model.ownedPart := by
  rw [ingestKind]
  rw [SwitchKeeps] at h
  cases hkind : event.kind with
  | fdOpen =>
    simp only [hkind] at h ⊢
    obtain ⟨err, hpush, -⟩ := @pushLiveFd_failed lib (LiveFd.ofOpen event) st h
    rw [hpush]
  | fdClose =>
    simp only [hkind] at h ⊢
    rw [ingestFdClose, h]
  | alloc =>
    simp only [hkind] at h ⊢
    rw [ingestAlloc, pushLiveAlloc_skips h]
  | free =>
    simp only [hkind] at h ⊢
    rw [ingestFree, h]
  | realloc =>
    simp only [hkind] at h ⊢
    rw [ingestRealloc, removeSource_skips h.1, pushLiveAlloc_skips h.2]
  | fork =>
    simp only [hkind] at h ⊢
    rw [ingestFork, forkLoop_keeps_model _ h]
  | spawn => rfl
  | exec =>
    simp only [hkind] at h ⊢
    rw [ingestExec]
    split
    · rfl
    · rw [modifyFirst_of_fixed h]
      split
      · exact addFindingInternal_ownedPart _ _
      · rfl
  | execFail =>
    simp only [hkind] at h ⊢
    rw [rollbackFailedExec]
    split
    · rfl
    · rw [Tables.clearPending_of_idle h]
      rfl
  | generic => rfl

theorem addResourceEvent_writes (event : ResourceEvent) (st : State lib) :
    ∃ resources, (addResourceEvent event st).model = { st.model with resources } := by
  rw [addResourceEvent]
  split
  · exact ⟨_, rfl⟩
  · dsimp only
    split <;> exact ⟨_, rfl⟩

/-- The error state in which a record that has been stored is forwarded. -/
theorem ingestGeneric_answer (event : ResourceEvent) {st : State lib}
    (h : st.err.error = false) (hforwarded : forwarded event.kind = true) :
    (ingestGeneric event st).err = libraryAnswer event st.model st.err.allocations := by
  obtain ⟨model, ⟨error, outcomes⟩⟩ := st
  obtain rfl : error = false := h
  rw [ingestGeneric, libraryAnswer, if_pos hforwarded]
  dsimp only
  cases model.genericLifecycle with
  | some lifecycle => rfl
  | none =>
    dsimp only
    cases (lib.lifecycleCreate outcomes).value <;> rfl

/-- A call that fails harmlessly leaves the four tables as they were. -/
theorem ingestResource_ownedPart {event : ResourceEvent} {model : ReportModel lib} {err : ErrState}
    (h : FailsHarmlessly event model err) :
    (ingestResource ⟨model, err⟩ event).model.ownedPart = model.ownedPart := by
  have hstored := @addResourceEvent_ownedPart lib event ⟨model, err⟩
  have hspends := addResourceEvent_spends event ⟨model, err⟩
  obtain ⟨resources, hmodel⟩ := addResourceEvent_writes event ⟨model, err⟩
  -- there is nothing to commit
  have hcommit : (if event.kind ≠ .exec ∧ event.kind ≠ .execFail then
      finishExec event.pid false ⟨model, err⟩ else ⟨model, err⟩) = ⟨model, err⟩ := by
    split
    · rename_i hkind
      have hidle : err.error = true ∨ NothingPending event.pid model :=
        h.imp_right fun hrest => hrest.1 hkind
      exact @finishExecLoop_skips lib event.pid false ⟨model, err⟩ hidle _
    · rfl
  dsimp only [ingestResource]
  rw [hcommit]
  split
  · exact hstored
  · rename_i hgoes
    rw [Bool.not_eq_true] at hgoes
    obtain ⟨hstart, hgranted⟩ := hspends.ok.1 hgoes
    have hkeeps := (h.resolve_left (Bool.eq_false_iff.1 hstart)).2 hgranted
    rw [← hspends.left hgoes] at hkeeps
    generalize addResourceEvent event ⟨model, err⟩ = stored at hstored hmodel hgoes hkeeps ⊢
    -- storing changes neither the tables nor the record that the library is given
    have hanswer : libraryAnswer event model stored.err.allocations =
        libraryAnswer event stored.model stored.err.allocations := by
      rw [hmodel]
      rfl
    rw [hanswer] at hkeeps
    refine (ingestKind_ownedPart ?_).trans ?_
    · split
      · rename_i hforwarded
        rw [ingestGeneric_answer event hgoes hforwarded]
        exact hkeeps.of_ownedPart ((ingestGeneric_ownedPart event stored).trans hstored)
      · rename_i hforwarded
        rw [libraryAnswer, if_neg hforwarded] at hkeeps
        have herr : stored.err = ⟨false, stored.err.allocations⟩ := by rw [← hgoes]
        rw [herr]
        exact hkeeps.of_ownedPart hstored
    · split
      · exact (ingestGeneric_ownedPart event _).trans hstored
      · exact hstored

/-! ## Pointer texts -/

namespace Tables

/-- A record of an error-free replay stores the pointers that it names. -/
theorem PointersNamed.ingest {t : Tables} (h : t.PointersNamed) (inherits : Bool → Bool)
    (event : ResourceEvent) : (t.ingest inherits event).PointersNamed := by
  have hstored : ((t.commitBefore event).store event).PointersNamed := by
    rw [commitBefore]
    split <;> exact ⟨h.allocs, h.freedAllocs⟩
  have hkept {allocs : List LiveAlloc} {p : LiveAlloc → Bool}
      (hallocs : ∀ alloc ∈ allocs, alloc.ptr.isSome) :
      ∀ alloc ∈ removeFirst p allocs, alloc.ptr.isSome :=
    fun alloc halloc => hallocs alloc (mem_of_mem_removeFirst halloc)
  have hnamed {ptr : Option Text} (hptr : isPointer ptr = true) :
      (liveAlloc ptr event).ptr.isSome := (Bool.and_eq_true_iff.1 hptr).1
  rw [Tables.ingest]
  generalize (t.commitBefore event).store event = stored at hstored ⊢
  rw [ingestKind]
  cases event.kind with
  | alloc =>
    dsimp only
    rw [ingestAlloc]
    split
    · rename_i hptr
      refine ⟨?_, hstored.freedAllocs⟩
      exact List.forall_mem_append.2 ⟨hstored.allocs, by simpa using hnamed hptr⟩
    · exact hstored
  | free =>
    dsimp only
    rw [ingestFree]
    split
    · exact ⟨hkept hstored.allocs,
        List.forall_mem_append.2 ⟨hstored.freedAllocs, by simp⟩⟩
    · exact hstored
  | realloc =>
    dsimp only
    rw [ingestRealloc]
    refine ⟨List.forall_mem_append.2 ⟨?_, ?_⟩, hstored.freedAllocs⟩
    · rw [reallocSource]
      split
      · exact hkept hstored.allocs
      · exact hstored.allocs
    · split
      · rename_i hptr
        simpa using hnamed hptr
      · simp
  | fdClose =>
    dsimp only
    rw [ingestFdClose]
    split <;> exact ⟨hstored.allocs, hstored.freedAllocs⟩
  | exec =>
    dsimp only
    rw [ingestExec]
    split <;> exact ⟨hstored.allocs, hstored.freedAllocs⟩
  | fdOpen | fork | execFail | spawn | generic => exact ⟨hstored.allocs, hstored.freedAllocs⟩

end Tables

/-- A model whose allocation tables are the same. -/
theorem Tables.PointersNamed.of_eq {t t' : Tables} (h : t.PointersNamed)
    (hallocs : t'.allocs = t.allocs) (hfreed : t'.freedAllocs = t.freedAllocs) :
    t'.PointersNamed :=
  ⟨hallocs ▸ h.allocs, hfreed ▸ h.freedAllocs⟩

theorem Tables.PointersNamed.of_ownedPart {model model' : ReportModel lib}
    (h : model.tables.PointersNamed) (hpart : model'.ownedPart = model.ownedPart) :
    model'.tables.PointersNamed :=
  h.of_eq (congrArg (fun part => part.2.2.1.items) hpart)
    (congrArg (fun part => part.2.2.2.items) hpart)

/-- Finalization leaves the allocation tables alone, also when it fails. -/
theorem finalizeLeaks_allocations (st : State lib) :
    (finalizeLeaks st).model.tables.allocs = st.model.tables.allocs ∧
      (finalizeLeaks st).model.tables.freedAllocs = st.model.tables.freedAllocs := by
  obtain ⟨fds, closedFds, hsettled⟩ := finishPending_writes st.model.fds.items.length st
  obtain ⟨-, added, -, -, -, htables⟩ :=
    finalizeGeneric_prefix (finishPending st.model.fds.items.length st)
  rw [finalizeLeaks, htables, hsettled]
  exact ⟨rfl, rfl⟩

/-- A record other than an `EXEC` or `EXECFAIL` is stored when the commit before it and the storing
have what they ask for. -/
theorem stored_ok_iff (event : ResourceEvent) (st : State lib) :
    (addResourceEvent event (finishExec event.pid false st)).err.error = false ↔
      st.err.error = false ∧
        Granted (demandSum (commitDemand event.pid st.model) (storeDemand event st.model))
          st.err.allocations := by
  have hstores := addResourceEvent_spends event (finishExec event.pid false st)
  obtain ⟨fds, closedFds, hcommitted⟩ :=
    finishExecLoop_writes event.pid false st.model.fds.items.length st
  have hsame : storeDemand event (finishExec event.pid false st).model =
      storeDemand event st.model := by
    rw [finishExec, hcommitted]
    rfl
  rw [hsame] at hstores
  exact ((finishExec_spends event.pid st).and_then hstores).ok

/-- Neither the commit nor the storing touches the allocations. -/
theorem stored_allocs (event : ResourceEvent) (st : State lib) :
    (addResourceEvent event (finishExec event.pid false st)).model.allocs = st.model.allocs := by
  obtain ⟨resources, hstored⟩ := addResourceEvent_writes event (finishExec event.pid false st)
  obtain ⟨fds, closedFds, hcommitted⟩ :=
    finishExecLoop_writes event.pid false st.model.fds.items.length st
  rw [hstored, finishExec, hcommitted]

/-- Among entries with a pointer text, a search compares a null pointer when it is for one. -/
theorem allocSearch_faults {allocs : List LiveAlloc} (hnamed : ∀ alloc ∈ allocs, alloc.ptr.isSome)
    (pid : Int) (ptr : Option Text) :
    searchFaults (LiveAlloc.isForFaults pid ptr) (LiveAlloc.isFor pid ptr) allocs = false ↔
      ptr.isSome = true ∨ ∀ alloc ∈ allocs, alloc.pid ≠ pid := by
  cases ptr with
  | some text =>
    rw [searchFaults_of_none]
    · simp
    · intro alloc halloc
      simp [LiveAlloc.isForFaults, strcmpFaults, hnamed alloc halloc]
  | none =>
    rw [searchFaults_of_unfound]
    · simp [LiveAlloc.isForFaults, strcmpFaults]
    · intro alloc halloc
      simp [LiveAlloc.isFor, hnamed alloc halloc]

/-- **Comparisons.** When all allocations have a pointer text, an ingestion hands no null pointer to
`p101_strcmp` exactly when a `FREE` record is freed by name. -/
theorem ingestFaults_eq_false_iff {model : ReportModel lib} (hnamed : model.tables.PointersNamed)
    (event : ResourceEvent) (err : ErrState) :
    ingestFaults ⟨model, err⟩ event = false ↔ FreesByName event model err := by
  have hsearch := @allocSearch_faults model.allocs.items hnamed.allocs event.pid event.ptr
  by_cases hkind : event.kind = .free
  · have hcommits : event.kind ≠ .exec ∧ event.kind ≠ .execFail := by simp [hkind]
    have hstored := stored_ok_iff event ⟨model, err⟩
    have hcompares : ingestFaults ⟨model, err⟩ event = false ↔
        ((addResourceEvent event (finishExec event.pid false ⟨model, err⟩)).err.error = false →
          searchFaults (LiveAlloc.isForFaults event.pid event.ptr)
            (LiveAlloc.isFor event.pid event.ptr) model.allocs.items = false) := by
      rw [ingestFaults, if_pos hcommits, stored_allocs, ingestKindFaults, hkind]
      cases (addResourceEvent event (finishExec event.pid false ⟨model, err⟩)).err.error <;> simp
    rw [hcompares, hstored, hsearch, FreesByName]
    simp only [hkind, forall_const]
    rw [← or_assoc, ← Bool.not_eq_false err.error, ← not_and_or]
    exact imp_iff_not_or.trans or_comm
  · refine iff_of_true ?_ fun hfree => absurd hfree hkind
    -- a `REALLOC` record searches with a pointer text only, the others do not search
    by_cases hrealloc : event.kind = .realloc
    · have hcommits : event.kind ≠ .exec ∧ event.kind ≠ .execFail := by simp [hrealloc]
      rw [ingestFaults, if_pos hcommits, stored_allocs, ingestKindFaults, hrealloc]
      cases hptr : event.ptr with
      | none => simp
      | some text =>
        rw [hptr] at hsearch
        simp [hsearch.2 (Or.inl rfl)]
    · rw [ingestFaults, ingestKindFaults]
      cases hother : event.kind <;> simp_all

/-- A call of a run names every pointer that it stores, if it does not end with an error or leaves
the tables alone. -/
theorem pointersNamed_step {model : ReportModel lib} (h : model.tables.PointersNamed)
    (c : RunCall lib)
    (hkept : ∀ event, c.call = .ingestResource event → (c.state model).err.error = true →
      (c.step model).ownedPart = model.ownedPart) :
    (c.step model).tables.PointersNamed := by
  obtain ⟨err, call⟩ := c
  cases call with
  | keepRecords records => exact ⟨h.allocs, h.freedAllocs⟩
  | internSite fileName functionName lineNumber =>
    obtain ⟨htables, -⟩ := internSite_tables fileName functionName lineNumber ⟨model, err⟩
    exact h.of_eq (congrArg Tables.allocs htables) (congrArg Tables.freedAllocs htables)
  | addCall event =>
    apply h.of_ownedPart
    rw [RunCall.step, RunCall.state, ModelCall.perform, addCall]
    split <;> rfl
  | addFinding finding =>
    apply h.of_ownedPart
    exact addFindingInternal_ownedPart finding ⟨model, err⟩
  | ingestResource event =>
    cases herror : (ingestResource ⟨model, err⟩ event).err.error with
    | true =>
      apply h.of_ownedPart
      exact hkept event rfl herror
    | false =>
      obtain ⟨-, htables⟩ := ingestResource_tables event ⟨model, err⟩ herror
      have hnamed := h.ingest lib.execInherits event
      exact hnamed.of_eq (congrArg Tables.allocs htables) (congrArg Tables.freedAllocs htables)
  | finalizeLeaks =>
    obtain ⟨hallocs, hfreed⟩ := finalizeLeaks_allocations ⟨model, err⟩
    exact h.of_eq hallocs hfreed

/-! ## Runs of calls -/

/-- The call is an ingestion of the record that ends with an error. -/
def RunCall.FailsOn (event : ResourceEvent) (model : ReportModel lib) (c : RunCall lib) : Prop :=
  c.call = .ingestResource event ∧ (c.state model).err.error = true

/-- An ingestion compares pointer texts only, and when it ends with an error it fails harmlessly. -/
def IngestsHarmlessly (model : ReportModel lib) (c : RunCall lib) : Prop :=
  ∀ event, c.call = .ingestResource event → FreesByName event model c.err ∧
    ((c.state model).err.error = true → FailsHarmlessly event model c.err)

/-- What every call of a run finds and leaves: an ingestion that ends with an error keeps the four
tables, all allocations have a pointer text, and no ingestion hands a null pointer to
`p101_strcmp`. -/
def TablesWhole (model : ReportModel lib) (c : RunCall lib) : Prop :=
  (∀ event, c.FailsOn event model → (c.step model).ownedPart = model.ownedPart) ∧
    model.tables.PointersNamed ∧
    ∀ event, c.call = .ingestResource event → ingestFaults ⟨model, c.err⟩ event = false

/-- **Failed ingestion.** In a run from the zeroed model whose failed ingestions are all harmless,
each of them leaves the descriptor and allocation tables as they were before the call, before every
call and after the last one all allocations have a pointer text, and no ingestion compares a null
pointer. -/
theorem failedIngest_whole (health : lib.HealthInner) (calls : List (RunCall lib))
    (h : EveryStep RunCall.step IngestsHarmlessly (ReportModel.zeroed lib health) calls) :
    EveryStep RunCall.step TablesWhole (ReportModel.zeroed lib health) calls ∧
      (runCalls (ReportModel.zeroed lib health) calls).tables.PointersNamed := by
  have hzeroed : (ReportModel.zeroed lib health).tables.PointersNamed :=
    ⟨by simp [ReportModel.tables, ReportModel.zeroed],
      by simp [ReportModel.tables, ReportModel.zeroed]⟩
  have hkept (model : ReportModel lib) (c : RunCall lib) (hharmless : IngestsHarmlessly model c)
      (event : ResourceEvent) (hfails : c.FailsOn event model) :
      (c.step model).ownedPart = model.ownedPart := by
    have hsame := ingestResource_ownedPart ((hharmless event hfails.1).2 hfails.2)
    have hstep : c.step model = (ingestResource ⟨model, c.err⟩ event).model := by
      rw [RunCall.step, RunCall.state, hfails.1]
      rfl
    exact (congrArg ReportModel.ownedPart hstep).trans hsame
  have hnamed (model : ReportModel lib) (c : RunCall lib) (hharmless : IngestsHarmlessly model c)
      (hstart : model.tables.PointersNamed) : (c.step model).tables.PointersNamed :=
    pointersNamed_step hstart c fun event hcall herror =>
      hkept model c hharmless event ⟨hcall, herror⟩
  refine ⟨?_, h.invariant hnamed hzeroed⟩
  apply (h.strengthen hnamed hzeroed).imp
  intro model c hboth
  obtain ⟨hharmless, hstart⟩ := hboth
  exact ⟨hkept model c hharmless, hstart, fun event hcall =>
    (ingestFaults_eq_false_iff hstart event c.err).2 (hharmless event hcall).1⟩

/-- A call of the library above, with the outcomes of its allocations. -/
def replayCall (allocations : List Bool) (call : ModelCall replayLib) : RunCall replayLib :=
  ⟨⟨false, allocations⟩, call⟩

/-- The site of the records, and a descriptor that is opened when `fds` can grow. -/
def openCalls (allocations : List Bool) : List (RunCall replayLib) :=
  [replayCall [] (.internSite (some (lit "main.c")) (some (lit "main")) 1),
    replayCall allocations (.ingestResource (openRecord 1 3))]

/-- The first `OPEN` cannot grow `fds`, and is read again. -/
theorem failedIngest_whole_reopened :
    let calls := openCalls [false, true] ++ [replayCall [] (.ingestResource (openRecord 1 3))]
    EveryStep RunCall.step TablesWhole (ReportModel.zeroed replayLib ()) calls ∧
      (runCalls (ReportModel.zeroed replayLib ()) calls).tables.PointersNamed := by
  refine @failedIngest_whole replayLib () _ ⟨?_, ?_, ?_, trivial⟩
  · intro event hcall
    cases hcall
  · intro event hcall
    obtain rfl : openRecord 1 3 = event := by simpa [replayCall] using hcall
    refine ⟨fun hkind => (by cases hkind), fun _ => Or.inr ⟨fun _ fd hfd => ?_, fun _ => ?_⟩⟩
    · -- the table is empty
      exact absurd hfd List.not_mem_nil
    · change ¬ Granted _ _
      decide
  · intro event hcall
    obtain rfl : openRecord 1 3 = event := by simpa [replayCall] using hcall
    refine ⟨fun hkind => (by cases hkind), fun herror => ?_⟩
    exact absurd herror (by decide)

/-- With a live descriptor, a `CLOSE` that cannot grow `closed_fds` loses the descriptor, an `ALLOC`
that cannot copy its text stores an entry without one, which the next `FREE` hands to `p101_strcmp`,
and with an exec pending, a record that cannot be stored has committed it. -/
theorem failedIngest_torn :
    let opened := runCalls (ReportModel.zeroed replayLib ()) (openCalls [])
    let closing := replayCall [true] (.ingestResource (closeRecord 1 3))
    let allocating := replayCall [false, false, false, true]
      (.ingestResource (allocRecord 1 (lit "0x1")))
    let pending := (replayCall [] (.ingestResource (execRecord 1 3 0))).step opened
    let storing := replayCall [true] (.ingestResource (allocRecord 1 (lit "0x1")))
    (closing.FailsOn (closeRecord 1 3) opened ∧ opened.fds.items.map (·.fd) = [3] ∧
        (closing.step opened).fds.items = [] ∧ (closing.step opened).closedFds.items = []) ∧
      (allocating.FailsOn (allocRecord 1 (lit "0x1")) opened ∧
        (allocating.step opened).allocs.items.map (·.ptr) = [none] ∧
        ingestFaults ⟨allocating.step opened, ⟨false, []⟩⟩ (freeRecord 1 (lit "0x1")) = true) ∧
      (storing.FailsOn (allocRecord 1 (lit "0x1")) pending ∧
        pending.fds.items.map (·.execPending) = [1] ∧
        (storing.step pending).fds.items.map (·.execPending) = [0]) ∧
      ¬EveryStep RunCall.step TablesWhole (ReportModel.zeroed replayLib ())
        (openCalls [] ++ [closing]) := by
  refine ⟨⟨⟨rfl, by decide⟩, by decide, by decide, by decide⟩,
    ⟨⟨rfl, by decide⟩, by decide, by decide⟩, ⟨⟨rfl, by decide⟩, by decide, by decide⟩, ?_⟩
  rw [EveryStep.append]
  rintro ⟨-, ⟨hwhole, -⟩, -⟩
  have hkept := hwhole (closeRecord 1 3) ⟨rfl, by decide⟩
  have hfds := congrArg (fun part => part.1.items.length) hkept
  exact absurd hfds (by decide)

end P101Report
