import P101Report.Lifetime.Parsed
import P101Report.Model.Lifecycle
import P101Report.Model.Lifetimes
import P101Report.Replay.Steps

/-!
# Allocation lifetimes and the live allocations

A history of allocation records has one meaning, the allocations live after it (`liveAfter`): a
record ends the allocation it releases and then starts its own. The scan of the reports over the
stored records computes it (`stillLive_log`), and so does the incremental table, up to order, as
long as no `ALLOC` record reports a failed allocation (`allocs_run`). A failed allocation is a birth
for the scan and nothing for the table, so that the two agree exactly on the logs without one
(`allocationLifetimes_agree_iff`).
-/

set_option autoImplicit false

namespace P101Report

open SwapTable Runs

/-! ## Live allocations -/

/-- An allocation: its process, its pointer and the position of the record that started it. -/
structure Allocation where
  pid : Int
  ptr : Option Text
  sequence : Nat
  deriving DecidableEq

/-- The allocation of a birth. -/
def Allocation.ofBirth (birth : ResourceEvent) : Allocation :=
  ⟨birth.pid, allocBirthPtr birth, birth.sequence⟩

/-- The allocation of an entry of the table. -/
def Allocation.ofEntry (entry : LiveAlloc) : Allocation := ⟨entry.pid, entry.ptr, entry.sequence⟩

/-- Whether a record releases an allocation. -/
def Allocation.releasedBy (event : ResourceEvent) (allocation : Allocation) : Bool :=
  (event.kind == .free || event.kind == .realloc) && allocation.pid == event.pid &&
    allocation.ptr == event.ptr

/-- The allocation a record starts. -/
def bornBy (event : ResourceEvent) : List Allocation :=
  if isAllocBirth event then [.ofBirth event] else []

/-- The live allocations after one more record. -/
def liveAfter (live : List Allocation) (event : ResourceEvent) : List Allocation :=
  live.filter (fun allocation => !allocation.releasedBy event) ++ bornBy event

/-- The order of the live allocations does not matter. -/
theorem liveAfter_perm {live live' : List Allocation} (h : live.Perm live')
    (event : ResourceEvent) :
    (liveAfter live event).Perm (liveAfter live' event) :=
  (h.filter _).append_right _

/-! ## The scan -/

/-- The births that the reports render as still live. -/
def stillLive (resources : List ResourceEvent) : List ResourceEvent :=
  resources.filter fun birth =>
    isAllocBirth birth && (findAllocLifetimeEnd resources birth).isNone

/-- One more record ends the births whose allocation it releases. -/
theorem findAllocLifetimeEnd_concat {resources : List ResourceEvent} {event birth : ResourceEvent}
    (hparsed : event.Parsed) (hlater : birth.sequence < event.sequence) :
    (findAllocLifetimeEnd (resources ++ [event]) birth).isNone =
      ((findAllocLifetimeEnd resources birth).isNone &&
        !(Allocation.ofBirth birth).releasedBy event) := by
  -- the scan skips records without a pointer; a parsed `FREE` or `REALLOC` has one
  have hptr : event.kind = .free ∨ event.kind = .realloc → event.ptr.isSome = true := by
    intro hkind
    refine (hparsed.pointers ?_).1
    rcases hkind with hkind | hkind <;> simp [hkind]
  rw [findAllocLifetimeEnd, findAllocLifetimeEnd, List.find?_append, Option.isNone_or]
  -- what is left is whether the scan would stop at the new record
  congr 1
  rw [Bool.eq_iff_iff]
  simp only [List.find?_singleton, Allocation.releasedBy, Allocation.ofBirth, Bool.not_eq_true',
    Option.isNone_iff_eq_none, ite_eq_right_iff, reduceCtorEq, imp_false, Bool.not_eq_true]
  rw [← Bool.not_eq_true, ← Bool.not_eq_true, not_iff_not]
  simp only [Bool.and_eq_true, Bool.or_eq_true, decide_eq_true_eq, beq_iff_eq]
  constructor
  · rintro ⟨⟨⟨⟨⟨-, hpid⟩, -⟩, hkind⟩, -⟩, heq⟩
    exact ⟨⟨hkind, hpid.symm⟩, heq.symm⟩
  · rintro ⟨⟨hkind, hpid⟩, heq⟩
    exact ⟨⟨⟨⟨⟨hlater, hpid.symm⟩, by rw [heq]; exact hptr hkind⟩, hkind⟩, hptr hkind⟩, heq.symm⟩

/-- A record ends no birth at its own position. -/
theorem findAllocLifetimeEnd_last {resources : List ResourceEvent} {event : ResourceEvent}
    (hlast : ∀ record ∈ resources, record.sequence < event.sequence) :
    findAllocLifetimeEnd (resources ++ [event]) event = none := by
  rw [findAllocLifetimeEnd, List.find?_eq_none]
  intro record hrecord
  have hle : record.sequence ≤ event.sequence := by
    rcases List.mem_append.1 hrecord with hold | hown
    · exact Nat.le_of_lt (hlast record hold)
    · rw [List.mem_singleton.1 hown]
  simp [Nat.not_lt.2 hle]

/-- One record: the scan renders what `liveAfter` leaves. -/
theorem stillLive_concat {resources : List ResourceEvent} {event : ResourceEvent}
    (hparsed : event.Parsed) (hlast : ∀ record ∈ resources, record.sequence < event.sequence) :
    (stillLive (resources ++ [event])).map Allocation.ofBirth =
      liveAfter ((stillLive resources).map Allocation.ofBirth) event := by
  rw [stillLive, List.filter_append, List.map_append, liveAfter]
  congr 1
  · -- the births before the record, less those that it ends
    rw [stillLive, List.filter_map, List.filter_filter]
    congr 1
    apply List.filter_congr
    intro birth hbirth
    rw [findAllocLifetimeEnd_concat hparsed (hlast birth hbirth)]
    simp only [Function.comp_apply]
    rw [← Bool.and_assoc, Bool.and_comm]
  · -- the birth of the record itself
    rw [bornBy, List.filter_singleton, findAllocLifetimeEnd_last hlast]
    by_cases hborn : isAllocBirth event = true
    · simp [hborn]
    · simp [hborn]

/-- The scan over a whole log renders the live allocations. -/
theorem stillLive_log {log : List ResourceEvent}
    (hsorted : log.Pairwise fun a b => a.sequence < b.sequence)
    (hparsed : ∀ event ∈ log, event.Parsed) :
    (stillLive log).map Allocation.ofBirth = log.foldl liveAfter [] := by
  induction log using List.reverseRecOn with
  | nil => rfl
  | append_singleton log event ih =>
    obtain ⟨hsortedLog, -, hlast⟩ := List.pairwise_append.1 hsorted
    rw [stillLive_concat (hparsed event (by simp))
      (fun record hrecord => hlast record hrecord event (by simp)),
      ih hsortedLog (fun record hrecord => hparsed record (by simp [hrecord])), List.foldl_append]
    rfl

/-! ## The table -/

/-- What an entry of the live allocations is looked up by. -/
def LiveAlloc.key (entry : LiveAlloc) : Int × Option Text := (entry.pid, entry.ptr)

theorem LiveAlloc.isFor_iff {pid : Int} {ptr : Option Text} {entry : LiveAlloc} :
    LiveAlloc.isFor pid ptr entry = true ↔ entry.key = (pid, ptr) := by
  simp [LiveAlloc.isFor, LiveAlloc.key]

namespace Tables

variable {inherits : Bool → Bool} {t : Tables} {event : ResourceEvent}

/-- The live allocations have distinct keys, and all name memory. -/
structure AllocInv (allocs : List LiveAlloc) : Prop where
  keys : (allocs.map LiveAlloc.key).Nodup
  pointers : ∀ entry ∈ allocs, isPointer entry.ptr = true

/-- The pointer that a record yields is not live for the process, once the old pointer of a
`REALLOC` is out of the way. -/
def YieldsFresh (t : Tables) (event : ResourceEvent) : Prop :=
  (event.kind = .alloc → isPointer event.ptr = true →
    ∀ entry ∈ t.allocs, LiveAlloc.isFor event.pid event.ptr entry = false) ∧
  (event.kind = .realloc → isPointer event.newPtr = true →
    ∀ entry ∈ reallocSource event t.allocs, LiveAlloc.isFor event.pid event.newPtr entry = false)

instance (t : Tables) (event : ResourceEvent) : Decidable (YieldsFresh t event) :=
  inferInstanceAs (Decidable ((_ → _ → ∀ _ ∈ _, _) ∧ (_ → _ → ∀ _ ∈ _, _)))

/-- A record of a failed allocation. -/
def FailedAlloc (event : ResourceEvent) : Prop := event.kind = .alloc ∧ event.ptr = some dash

instance (event : ResourceEvent) : Decidable (FailedAlloc event) :=
  inferInstanceAs (Decidable (_ ∧ _))

@[simp] theorem commitBefore_allocs (event : ResourceEvent) (t : Tables) :
    (t.commitBefore event).allocs = t.allocs := by
  rw [commitBefore]
  split <;> rfl

theorem ingest_allocs_alloc (hkind : event.kind = .alloc) :
    (t.ingest inherits event).allocs =
      t.allocs ++ if isPointer event.ptr then [liveAlloc event.ptr event] else [] := by
  simp only [ingest, ingestKind, hkind, ingestAlloc]
  split <;> simp [store]

theorem ingest_allocs_free (hkind : event.kind = .free) :
    (t.ingest inherits event).allocs =
      removeFirst (LiveAlloc.isFor event.pid event.ptr) t.allocs := by
  simp only [ingest, ingestKind, hkind, ingestFree]
  split
  · simp [store]
  · -- a `FREE` of a pointer that is not live
    rename_i hnone
    symm
    simpa [store] using removeFirst_of_none (by simpa [store] using hnone)

theorem ingest_allocs_realloc (hkind : event.kind = .realloc) :
    (t.ingest inherits event).allocs =
      reallocSource event t.allocs ++
        if isPointer event.newPtr then [liveAlloc event.newPtr event] else [] := by
  simp only [ingest, ingestKind, hkind, ingestRealloc]
  simp [store]

/-- The other kinds leave the live allocations. -/
theorem ingest_allocs_other (hkind : event.kind ∉ [.alloc, .free, .realloc]) :
    (t.ingest inherits event).allocs = t.allocs := by
  simp only [ingest, ingestKind]
  cases h : event.kind with
  | alloc | free | realloc => simp [h] at hkind
  | fdClose => simp only [ingestFdClose]; split <;> simp [store]
  | exec => simp only [ingestExec]; split <;> simp [store]
  | _ => simp [ingestFdOpen, ingestFork, ingestExecFail, store]

/-- The old pointer of a record leaves the table, if it is there. -/
theorem release_perm {allocs : List LiveAlloc} (hinv : AllocInv allocs) (pid : Int)
    (ptr : Option Text) :
    (removeFirst (LiveAlloc.isFor pid ptr) allocs).Perm
      (allocs.filter fun entry => !LiveAlloc.isFor pid ptr entry) :=
  removeFirst_perm_filter hinv.keys fun _ _ ha hb =>
    (LiveAlloc.isFor_iff.1 ha).trans (LiveAlloc.isFor_iff.1 hb).symm

theorem reallocSource_perm {allocs : List LiveAlloc} (hinv : AllocInv allocs)
    (event : ResourceEvent) :
    (reallocSource event allocs).Perm
      (allocs.filter fun entry => !LiveAlloc.isFor event.pid event.ptr entry) := by
  rw [reallocSource]
  split
  · exact release_perm hinv event.pid event.ptr
  · rename_i hnull
    -- no entry is for the null pointer
    have hnone : ∀ entry ∈ allocs, LiveAlloc.isFor event.pid event.ptr entry = false := by
      intro entry hentry
      apply Bool.eq_false_iff.2
      intro hfor
      have hptr : entry.ptr = event.ptr := congrArg Prod.snd (LiveAlloc.isFor_iff.1 hfor)
      exact hnull (hptr ▸ hinv.pointers entry hentry)
    rw [List.filter_eq_self.2 fun entry hentry => by rw [hnone entry hentry]; rfl]

theorem AllocInv.filter {allocs : List LiveAlloc} (hinv : AllocInv allocs) (p : LiveAlloc → Bool) :
    AllocInv (allocs.filter p) where
  keys := hinv.keys.sublist (List.filter_sublist.map LiveAlloc.key)
  pointers entry hentry := hinv.pointers entry (List.mem_of_mem_filter hentry)

theorem AllocInv.perm {allocs allocs' : List LiveAlloc} (hinv : AllocInv allocs)
    (h : allocs'.Perm allocs) : AllocInv allocs' where
  keys := (h.map LiveAlloc.key).nodup_iff.2 hinv.keys
  pointers entry hentry := hinv.pointers entry (h.mem_iff.1 hentry)

/-- A fresh pointer joins the table. -/
theorem AllocInv.append {allocs : List LiveAlloc} (hinv : AllocInv allocs) {ptr : Option Text}
    (hptr : isPointer ptr = true)
    (hfresh : ∀ entry ∈ allocs, LiveAlloc.isFor event.pid ptr entry = false) :
    AllocInv (allocs ++ [liveAlloc ptr event]) where
  keys := by
    rw [List.map_append, List.nodup_append]
    refine ⟨hinv.keys, List.nodup_singleton _, ?_⟩
    rintro key hkey added hadded rfl
    obtain ⟨entry, hentry, hentryKey⟩ := List.mem_map.1 hkey
    rw [List.mem_singleton.1 hadded] at hentryKey
    have hfor : LiveAlloc.isFor event.pid ptr entry = true := LiveAlloc.isFor_iff.2 hentryKey
    rw [hfresh entry hentry] at hfor
    cases hfor
  pointers entry hentry := by
    rcases List.mem_append.1 hentry with hold | hnew
    · exact hinv.pointers entry hold
    · rw [List.mem_singleton.1 hnew]
      exact hptr

/-- What a record that releases nothing leaves. -/
theorem filter_releasedBy_of_kind (hfree : event.kind ≠ .free) (hrealloc : event.kind ≠ .realloc)
    (live : List Allocation) :
    (live.filter fun allocation => !allocation.releasedBy event) = live := by
  apply List.filter_eq_self.2
  intro allocation _
  simp [Allocation.releasedBy, hfree, hrealloc]

theorem map_filter_releasedBy (hkind : event.kind = .free ∨ event.kind = .realloc)
    (allocs : List LiveAlloc) :
    (allocs.filter fun entry => !LiveAlloc.isFor event.pid event.ptr entry).map
        Allocation.ofEntry =
      (allocs.map Allocation.ofEntry).filter fun allocation => !allocation.releasedBy event := by
  rw [List.filter_map]
  congr 1
  apply List.filter_congr
  intro entry _
  rcases hkind with hkind | hkind <;>
    simp [Allocation.releasedBy, Allocation.ofEntry, LiveAlloc.isFor, hkind]

/-- A birth that names memory has its allocation in the table. -/
theorem bornBy_eq {ptr : Option Text} (hptr : allocBirthPtr event = ptr)
    (hbirth : isAllocBirth event = isPointer ptr) :
    bornBy event =
      (if isPointer ptr then [liveAlloc ptr event] else []).map Allocation.ofEntry := by
  rw [bornBy, hbirth]
  split
  · rw [Allocation.ofBirth, hptr]
    rfl
  · rfl

/-- **One record**: the table follows the live allocations, unless the record is that of a failed
allocation. -/
theorem allocs_ingest (hinv : AllocInv t.allocs) (hparsed : event.Parsed)
    (hfailed : ¬ FailedAlloc event) (hfresh : YieldsFresh t event) :
    ((t.ingest inherits event).allocs.map Allocation.ofEntry).Perm
        (liveAfter (t.allocs.map Allocation.ofEntry) event) ∧
      AllocInv (t.ingest inherits event).allocs := by
  cases hkind : event.kind with
  | alloc =>
    -- the table skips a null pointer and the scan does not, so a failed `ALLOC` would differ here
    have hptr : isPointer event.ptr = true := by
      have hsome := (hparsed.pointers (by simp [hkind])).1
      have hdash : event.ptr ≠ some dash := fun h => hfailed ⟨hkind, h⟩
      simp [isPointer, hsome, hdash]
    rw [ingest_allocs_alloc hkind, liveAfter,
      filter_releasedBy_of_kind (by simp [hkind]) (by simp [hkind]),
      @bornBy_eq event event.ptr (by simp [allocBirthPtr, hkind]) (by
        simp [isAllocBirth, hkind, hptr]), List.map_append, if_pos hptr]
    exact ⟨.refl _, hinv.append hptr (hfresh.1 hkind hptr)⟩
  | free =>
    have hnone : bornBy event = [] := by simp [bornBy, isAllocBirth, hkind]
    have hrelease := release_perm hinv event.pid event.ptr
    rw [ingest_allocs_free hkind, liveAfter, hnone, List.append_nil,
      ← map_filter_releasedBy (Or.inl hkind)]
    exact ⟨hrelease.map _, (hinv.filter _).perm hrelease⟩
  | realloc =>
    have hrelease := reallocSource_perm hinv event
    rw [ingest_allocs_realloc hkind, liveAfter, ← map_filter_releasedBy (Or.inr hkind),
      @bornBy_eq event event.newPtr (by simp [allocBirthPtr, hkind]) (by
        simp [isAllocBirth, hkind, isPointer, bne]), List.map_append]
    refine ⟨(hrelease.map _).append_right _, ?_⟩
    -- a `REALLOC` to the null pointer releases the old one and yields none
    by_cases hptr : isPointer event.newPtr = true
    · rw [if_pos hptr]
      exact ((hinv.filter _).perm hrelease).append hptr (hfresh.2 hkind hptr)
    · rw [if_neg hptr, List.append_nil]
      exact (hinv.filter _).perm hrelease
  | _ =>
    have hnone : bornBy event = [] := by simp [bornBy, isAllocBirth, hkind]
    rw [ingest_allocs_other (by simp [hkind]), liveAfter, hnone, List.append_nil,
      filter_releasedBy_of_kind (by simp [hkind]) (by simp [hkind])]
    exact ⟨.refl _, hinv⟩

/-- Along a run without failed allocations the table holds the live allocations, up to order. -/
theorem allocs_run {log : List ResourceEvent} (hinv : AllocInv t.allocs)
    (hparsed : ∀ event ∈ log, event.Parsed) (hfailed : ∀ event ∈ log, ¬ FailedAlloc event)
    (hfresh : EveryStep (ingest inherits) YieldsFresh t log) :
    ((t.run inherits log).allocs.map Allocation.ofEntry).Perm
      (log.foldl liveAfter (t.allocs.map Allocation.ofEntry)) := by
  -- the table and the history list the allocations in different orders, so carry any reordering
  suffices h : ∀ live : List Allocation, (t.allocs.map Allocation.ofEntry).Perm live →
      ((t.run inherits log).allocs.map Allocation.ofEntry).Perm (log.foldl liveAfter live) from
    h _ (.refl _)
  induction log generalizing t with
  | nil => exact fun live hlive => hlive
  | cons event rest ih =>
    intro live hlive
    obtain ⟨hstep, hnext⟩ := @allocs_ingest inherits t event hinv (hparsed event (by simp))
      (hfailed event (by simp)) hfresh.1
    rw [run_cons, List.foldl_cons]
    exact ih hnext (fun later hlater => hparsed later (by simp [hlater]))
      (fun later hlater => hfailed later (by simp [hlater])) hfresh.2 _
      (hstep.trans (liveAfter_perm hlive event))

end Tables

/-! ## The scan and the table -/

/-- The births rendered as still live are the entries of the table, one to one, by process, pointer
and position. -/
def AllocationsAgree (resources : List ResourceEvent) (allocs : List LiveAlloc) : Prop :=
  ((stillLive resources).map Allocation.ofBirth).Perm (allocs.map Allocation.ofEntry)

/-- The null pointer starts and ends nothing: no rendered lifetime is one of `"-"`, and no record on
`"-"` is the end of one. -/
def NullPointerIdle (resources : List ResourceEvent) : Prop :=
  (∀ birth ∈ resources, isAllocBirth birth = true → allocBirthPtr birth ≠ some dash) ∧
    ∀ event ∈ resources, event.ptr = some dash → ∀ birth ∈ resources, isAllocBirth birth = true →
      findAllocLifetimeEnd resources birth ≠ some event

instance (resources : List ResourceEvent) (allocs : List LiveAlloc) :
    Decidable (AllocationsAgree resources allocs) :=
  inferInstanceAs (Decidable (List.Perm _ _))

/-- Without failed allocations the null pointer is idle. -/
theorem nullPointerIdle_of_not_failed {resources : List ResourceEvent}
    (hfailed : ∀ event ∈ resources, ¬ Tables.FailedAlloc event) : NullPointerIdle resources := by
  have hstarts : ∀ birth ∈ resources, isAllocBirth birth = true →
      allocBirthPtr birth ≠ some dash := by
    intro birth hbirth hborn hdash
    rw [allocBirthPtr] at hdash
    split at hdash
    · rename_i hkind
      exact hfailed birth hbirth ⟨hkind, hdash⟩
    · rename_i hkind
      simp [isAllocBirth, hkind, hdash] at hborn
  refine ⟨hstarts, ?_⟩
  intro event _ hdash birth hbirth hborn hend
  have hmatch := List.find?_some hend
  simp only [Bool.and_eq_true, beq_iff_eq] at hmatch
  exact hstarts birth hbirth hborn (hmatch.2.symm.trans hdash)

/-- **When allocation lifetimes agree with the live allocations.** Over an error-free log of parsed
records in which no record yields a pointer already live, the births rendered as still live are the
live allocations and the null pointer starts and ends no lifetime, exactly when no `ALLOC` record
reports a failed allocation. -/
theorem allocationLifetimes_agree_iff {lib : ToolEventLib} (st : State lib)
    (hfresh : st.model.tables = Tables.empty) (log : List ResourceEvent)
    (hparsed : ∀ event ∈ log, event.Parsed)
    (hok : (finalizeLeaks (ingestLog st (number log))).err.error = false)
    (hyields : EveryStep ingestResource
      (fun st event => Tables.YieldsFresh st.model.tables event) st (number log)) :
    (AllocationsAgree (finalizeLeaks (ingestLog st (number log))).model.resources.items
        (finalizeLeaks (ingestLog st (number log))).model.allocs.items ∧
      NullPointerIdle (finalizeLeaks (ingestLog st (number log))).model.resources.items) ↔
      ∀ event ∈ log, ¬ Tables.FailedAlloc event := by
  obtain ⟨hingest, hresources, -, hallocs⟩ := finalizeLeaks_of_fresh hfresh hok
  rw [everyStep_tables hingest, hfresh] at hyields
  rw [hresources, hallocs]
  constructor
  · -- a failed `ALLOC` is rendered as a birth of the null pointer
    rintro ⟨-, hstarts, -⟩ event hevent ⟨hkind, hdash⟩
    obtain ⟨position, hmem⟩ := exists_mem_numberFrom 0 hevent
    refine hstarts _ hmem ?_ ?_
    · simp [isAllocBirth, hkind]
    · simp [allocBirthPtr, hkind, hdash]
  · intro hfailed
    have hfailedNumber : ∀ event ∈ number log, ¬ Tables.FailedAlloc event :=
      forall_numberFrom (fun _ _ h => h) 0 hfailed
    have hparsedNumber : ∀ event ∈ number log, event.Parsed :=
      forall_numberFrom (fun _ _ h => ⟨h.1, h.2, h.3⟩) 0 hparsed
    refine ⟨?_, nullPointerIdle_of_not_failed hfailedNumber⟩
    rw [AllocationsAgree, stillLive_log (number_pairwise log) hparsedNumber]
    have hempty : Tables.AllocInv Tables.empty.allocs := ⟨List.nodup_nil, by simp [Tables.empty]⟩
    exact (Tables.allocs_run hempty hparsedNumber hfailedNumber hyields).symm

/-- A pointer freed and used again, moved, and resized in place, and one from the null pointer. -/
theorem allocationLifetimes_agree_reused :
    let log := [allocRecord 1 (lit "0xa"), freeRecord 1 (lit "0xa"), allocRecord 1 (lit "0xa"),
      reallocRecord 1 (lit "0xa") (lit "0xb"), reallocRecord 1 (lit "0xb") (lit "0xb"),
      reallocRecord 1 dash (lit "0xc"), reallocRecord 1 (lit "0xc") dash]
    AllocationsAgree (finalizeLeaks (ingestLog State.zeroed (number log))).model.resources.items
      (finalizeLeaks (ingestLog State.zeroed (number log))).model.allocs.items := by
  intro log
  have hparsed : ∀ event ∈ log, event.Parsed := by decide
  have hyields : EveryStep ingestResource
      (fun st event => Tables.YieldsFresh st.model.tables event) State.zeroed (number log) := by
    decide
  exact ((allocationLifetimes_agree_iff State.zeroed (by decide) log hparsed (by decide)
    hyields).2 (by decide)).1

/-- A failed allocation alone: the table stays empty, and the scan shows a lifetime still live. -/
theorem allocationLifetimes_disagree :
    let log := [allocRecord 1 dash]
    (∀ event ∈ log, event.Parsed) ∧
      EveryStep ingestResource (fun st event => Tables.YieldsFresh st.model.tables event)
        State.zeroed (number log) ∧
      (finalizeLeaks (ingestLog State.zeroed (number log))).err.error = false ∧
      (finalizeLeaks (ingestLog State.zeroed (number log))).model.allocs.items = [] ∧
      ¬ AllocationsAgree
        (finalizeLeaks (ingestLog State.zeroed (number log))).model.resources.items
        (finalizeLeaks (ingestLog State.zeroed (number log))).model.allocs.items := by
  decide

end P101Report
