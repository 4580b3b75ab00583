import P101Report.Calls.ModelCalls

/-!
# The growth of the tables

`p101_report_grow_array_internal` computes a new capacity and a size in bytes in `size_t`. Its two
guards cover both operations: a capacity that it leaves has room for the next item, is not below the
old one, and its size in bytes has not wrapped. From this every table of a model has its entries
within its allocation, over every run of calls (`growth_cannot_wrap`).
-/

set_option autoImplicit false

namespace P101Report

open SwapTable

variable {lib : ToolEventLib}

/-! ## One growth -/

/-- A doubled capacity that has not wrapped is larger. -/
theorem lt_newCapacity {capacity : Nat} (h : ¬newCapacity lib capacity < capacity) :
    capacity < newCapacity lib capacity := by
  rw [newCapacity] at h ⊢
  split
  · rename_i hzero
    subst hzero
    decide
  · rename_i hpos
    rw [if_neg hpos] at h
    rcases Nat.lt_or_ge (capacity * 2) (lib.sizeMax + 1) with hlt | hge
    · rw [Nat.mod_eq_of_lt hlt]
      omega
    · -- a wrapped capacity is below the old one, unless the old one was out of range
      have hmod := Nat.mod_lt (capacity * 2) (Nat.succ_pos lib.sizeMax)
      have hdiv := Nat.div_add_mod (capacity * 2) (lib.sizeMax + 1)
      by_contra hle
      have heq : capacity * 2 % (lib.sizeMax + 1) = capacity := by omega
      rw [heq] at hmod hdiv
      have hquotient : (lib.sizeMax + 1) * (capacity * 2 / (lib.sizeMax + 1)) = capacity := by omega
      have hone : 0 < capacity * 2 / (lib.sizeMax + 1) := Nat.div_pos hge (Nat.succ_pos _)
      have hle := Nat.le_mul_of_pos_right (lib.sizeMax + 1) hone
      omega

/-- What a growth leaves of a capacity. -/
structure Grown (lib : ToolEventLib) (itemSize count capacity capacity' : Nat) : Prop where
  room : count < capacity'
  le : capacity ≤ capacity'
  kept : count < capacity → capacity' = capacity
  bytes : capacity ≤ count → capacity' * itemSize ≤ lib.sizeMax

/-- The outcomes of `p101_report_grow_array_internal`. -/
theorem growArrayInternal_cases (lib : ToolEventLib) (itemSize : Nat) {count capacity : Nat}
    (err : ErrState) (hcount : count ≤ capacity) :
    (∃ capacity' err', growArrayInternal lib itemSize count capacity err =
        (true, capacity', err') ∧ Grown lib itemSize count capacity capacity') ∨
      ∃ err', growArrayInternal lib itemSize count capacity err = (false, capacity, err') ∧
        err'.error = true := by
  rw [growArrayInternal]
  split
  · -- there is room already
    rename_i hroom
    exact Or.inl ⟨capacity, err, rfl, hroom, Nat.le_refl _, fun _ => rfl,
      fun h => absurd hroom (Nat.not_lt.2 h)⟩
  · rename_i hfull
    split
    · exact Or.inr ⟨err.raise, rfl, rfl⟩
    · rename_i hguards
      rw [not_or, not_and_or, not_lt, not_not] at hguards
      obtain ⟨hdouble, hbytes⟩ := hguards
      -- past the two guards the doubling has not wrapped and the size in bytes fits
      have hlt := lt_newCapacity (Nat.not_lt.2 hdouble)
      have hsize : newCapacity lib capacity * itemSize ≤ lib.sizeMax := by
        rcases hbytes with rfl | hbytes
        · exact Nat.zero_le _
        · exact (Nat.mul_le_mul_right itemSize (Nat.not_lt.1 hbytes)).trans
            (Nat.div_mul_le_self _ _)
      cases halloc : err.allocate with
      | mk success err' =>
        cases success with
        | true =>
          exact Or.inl ⟨_, err', rfl, Nat.lt_of_le_of_lt hcount hlt, hlt.le,
            fun h => absurd h hfull, fun _ => hsize⟩
        | false =>
          refine Or.inr ⟨err', rfl, ?_⟩
          -- an allocation that fails has raised an error
          by_contra herror
          have hok : err.error = false ∧ err.allocate.1 = true :=
            allocate_ok (by rw [halloc]; simpa using herror)
          rw [halloc] at hok
          cases hok.2

/-! ## Tables -/

/-- The entries in use are within the allocation, and its size in bytes is a `size_t`. -/
structure Table.Fits {α : Type} (lib : ToolEventLib) (itemSize : Nat) (t : Table α) : Prop where
  count : t.items.length ≤ t.capacity
  bytes : t.capacity * itemSize ≤ lib.sizeMax

section Table

variable {α : Type} {itemSize : Nat} {t t' : Table α} {err err' : ErrState}

/-- Growing a table that fits: the items stay, and a successful growth leaves room for one more. -/
theorem Table.Fits.grow (h : t.Fits lib itemSize) {ok : Bool}
    (hgrown : growTable lib itemSize t err = (ok, t', err')) :
    t'.Fits lib itemSize ∧ t'.items = t.items ∧ (ok = true → t'.items.length < t'.capacity) ∧
      (ok = false → t' = t ∧ err'.error = true) := by
  rw [growTable] at hgrown
  rcases growArrayInternal_cases lib itemSize err h.count with
    ⟨capacity', err'', heq, hcapacity⟩ | ⟨err'', heq, herror⟩
  · rw [heq] at hgrown
    obtain ⟨rfl, rfl, rfl⟩ : true = ok ∧ { t with capacity := capacity' } = t' ∧ err'' = err' := by
      simpa using hgrown
    refine ⟨⟨h.count.trans hcapacity.le, ?_⟩, rfl, fun _ => hcapacity.room, by simp⟩
    rcases Nat.lt_or_ge t.items.length t.capacity with hlt | hge
    · rw [hcapacity.kept hlt]
      exact h.bytes
    · exact hcapacity.bytes hge
  · rw [heq] at hgrown
    obtain ⟨rfl, rfl, rfl⟩ : false = ok ∧ t = t' ∧ err'' = err' := by
      simpa using hgrown
    exact ⟨h, rfl, by simp, fun _ => ⟨rfl, herror⟩⟩

/-- An entry for which there is room. -/
theorem Table.Fits.push (h : t.Fits lib itemSize) (hroom : t.items.length < t.capacity) (x : α) :
    (t.push x).Fits lib itemSize := by
  refine ⟨?_, h.bytes⟩
  rw [Table.push_items, List.length_append, List.length_singleton]
  exact hroom

/-- An entry appended after a successful growth. -/
theorem Table.Fits.append (h : t.Fits lib itemSize)
    (hgrown : growTable lib itemSize t err = (true, t', err')) (x : α) :
    (t'.push x).Fits lib itemSize := by
  obtain ⟨hfits, -, hroom, -⟩ := h.grow hgrown
  exact hfits.push (hroom rfl) x

/-- Entries removed or overwritten. -/
theorem Table.Fits.set (h : t.Fits lib itemSize) {items : List α}
    (hle : items.length ≤ t.items.length) : Table.Fits lib itemSize { t with items } :=
  ⟨hle.trans h.count, h.bytes⟩

end Table

/-! ## The tables of a model -/

/-- Every table of the model fits its allocation. -/
structure ReportModel.Fits (model : ReportModel lib) : Prop where
  sites : model.sites.Fits lib lib.sizeofSite
  resources : model.resources.Fits lib lib.sizeofResourceEvent
  calls : model.calls.Fits lib lib.sizeofCallEvent
  fds : model.fds.Fits lib lib.sizeofLiveFd
  closedFds : model.closedFds.Fits lib lib.sizeofClosedFd
  allocs : model.allocs.Fits lib lib.sizeofLiveAlloc
  freedAllocs : model.freedAllocs.Fits lib lib.sizeofFreedAlloc
  findings : model.findings.Fits lib lib.sizeofFinding

/-- A run begins with empty tables. -/
theorem fits_zeroed (health : lib.HealthInner) : (ReportModel.zeroed lib health).Fits := by
  have hempty {α : Type} (itemSize : Nat) : Table.Fits lib itemSize ({} : Table α) :=
    ⟨Nat.le_refl _, by rw [Nat.zero_mul]; exact Nat.zero_le _⟩
  exact ⟨hempty _, hempty _, hempty _, hempty _, hempty _, hempty _, hempty _, hempty _⟩

section Steps

variable {st : State lib}

/-- The three tables that only grow: sites, findings and calls. -/
theorem fits_internSite (h : st.model.Fits) (fileName functionName : Option Text)
    (lineNumber : Int) : (internSite fileName functionName lineNumber st).2.model.Fits := by
  rw [internSite]
  dsimp only
  split
  · exact h
  · split
    · exact { h with sites := (h.sites.grow ‹_›).1 }
    · exact { h with sites := h.sites.append ‹_› _ }

theorem fits_addFindingInternal (h : st.model.Fits) (finding : Finding) :
    (addFindingInternal finding st).model.Fits := by
  rw [addFindingInternal]
  split
  · exact { h with findings := (h.findings.grow ‹_›).1 }
  · dsimp only
    split
    · exact { h with findings := (h.findings.grow ‹_›).1 }
    · exact { h with findings := h.findings.append ‹_› _ }

theorem fits_addCall (h : st.model.Fits) (event : CallEvent) : (addCall event st).model.Fits := by
  rw [addCall]
  split
  · exact { h with calls := (h.calls.grow ‹_›).1 }
  · exact { h with calls := h.calls.append ‹_› _ }

/-- So does that of the records; a copy that fails gives its entry back. -/
theorem fits_addResourceEvent (h : st.model.Fits) (event : ResourceEvent) :
    (addResourceEvent event st).model.Fits := by
  rw [addResourceEvent]
  split
  · exact { h with resources := (h.resources.grow ‹_›).1 }
  · dsimp only
    split
    · exact { h with resources := (h.resources.grow ‹_›).1 }
    · exact { h with resources := h.resources.append ‹_› _ }

/-- The tables of descriptors and allocations grow by an entry at a time. -/
theorem fits_pushLiveFd (h : st.model.Fits) (entry : LiveFd) :
    (pushLiveFd entry st).model.Fits := by
  rw [pushLiveFd]
  split
  · exact { h with fds := (h.fds.grow ‹_›).1 }
  · exact { h with fds := h.fds.append ‹_› _ }

theorem fits_pushClosedFd (h : st.model.Fits) (entry : ClosedFd) :
    (pushClosedFd entry st).model.Fits := by
  rw [pushClosedFd]
  split
  · exact { h with closedFds := (h.closedFds.grow ‹_›).1 }
  · exact { h with closedFds := h.closedFds.append ‹_› _ }

@[simp] theorem pushClosedFd_fds (entry : ClosedFd) (st : State lib) :
    (pushClosedFd entry st).model.fds = st.model.fds := by
  rw [pushClosedFd]
  split <;> rfl

theorem fits_pushLiveAlloc (h : st.model.Fits) (pid : Int) (ptr : Option Text)
    (event : ResourceEvent) : (pushLiveAlloc pid ptr event st).model.Fits := by
  rw [pushLiveAlloc]
  split
  · exact { h with allocs := (h.allocs.grow ‹_›).1 }
  · exact { h with allocs := h.allocs.append ‹_› _ }

theorem fits_pushFreedAlloc (h : st.model.Fits) (event : ResourceEvent) :
    (pushFreedAlloc event st).model.Fits := by
  rw [pushFreedAlloc]
  split
  · exact { h with freedAllocs := (h.freedAllocs.grow ‹_›).1 }
  · exact { h with freedAllocs := h.freedAllocs.append ‹_› _ }

theorem fits_setFds (h : st.model.Fits) {items : List LiveFd}
    (hle : items.length ≤ st.model.fds.items.length) : (st.setFds items).model.Fits :=
  { h with fds := h.fds.set hle }

theorem fits_setAllocs (h : st.model.Fits) {items : List LiveAlloc}
    (hle : items.length ≤ st.model.allocs.items.length) : (st.setAllocs items).model.Fits :=
  { h with allocs := h.allocs.set hle }

/-- Taking an entry out makes no table longer. -/
theorem length_swapRemove_le {α : Type} (l : List α) (index : Nat) :
    (swapRemove l index).length ≤ l.length := by
  rw [swapRemove_length]
  exact Nat.sub_le _ _

/-- A commit grows the closed descriptors by what it takes out of the live ones. -/
theorem fits_finishExecLoop (h : st.model.Fits) (pid : Int) (endOfInput : Bool)
    (remaining : Nat) : (finishExecLoop pid endOfInput remaining st).model.Fits := by
  induction remaining generalizing st with
  | zero => exact h
  | succ n ih =>
    rw [finishExecLoop]
    split
    · exact h
    · dsimp only
      split
      · exact h
      · rename_i fd _
        split
        · exact ih h
        · split
          · -- closed by the exec: the closed descriptors may grow, the live ones shrink
            refine ih (fits_setFds (fits_pushClosedFd h (ClosedFd.ofExec fd)) ?_)
            rw [pushClosedFd_fds]
            exact length_swapRemove_le _ _
          · split
            · exact ih (fits_setFds h (length_swapRemove_le _ _))
            · exact ih (fits_setFds h (by rw [List.length_set]))

/-- The library has memory of its own. -/
theorem fits_ingestGeneric (h : st.model.Fits) (event : ResourceEvent) :
    (ingestGeneric event st).model.Fits := by
  rw [ingestGeneric]
  dsimp only
  split
  · exact h
  · exact ⟨h.sites, h.resources, h.calls, h.fds, h.closedFds, h.allocs, h.freedAllocs, h.findings⟩

/-- `FORK` adds the descriptors of the child one by one. -/
theorem fits_forkStep (h : st.model.Fits) (event : ResourceEvent) (index : Nat) :
    (forkStep event st index).model.Fits := by
  rw [forkStep]
  split
  · exact h
  · split
    · exact h
    · split
      · exact h
      · dsimp only
        split
        · exact fits_pushLiveFd h _
        · exact h

theorem fits_ingestFork (h : st.model.Fits) (event : ResourceEvent) :
    (ingestFork event st).model.Fits := by
  rw [ingestFork]
  -- the bound of the loop was read before it, so any list of indices will do
  generalize List.range st.model.fds.items.length = indices
  induction indices generalizing st with
  | nil => exact h
  | cons index rest ih => exact ih (fits_forkStep h event index)

/-- A rollback takes findings out. -/
theorem fits_rollbackFailedExec (h : st.model.Fits) (event : ResourceEvent) :
    (rollbackFailedExec event st).model.Fits := by
  rw [rollbackFailedExec]
  split
  · exact h
  · have hcleared : (clearPending event.pid st.model.fds.items).length ≤
        st.model.fds.items.length := by
      rw [clearPending, List.length_map]
    exact { fits_setFds h hcleared with findings := h.findings.set (List.length_filter_le _ _) }

/-- `CLOSE` grows the closed descriptors, then takes the live entry out. -/
theorem fits_ingestFdClose (h : st.model.Fits) (event : ResourceEvent) :
    (ingestFdClose event st).model.Fits := by
  rw [ingestFdClose]
  split
  · exact h
  · exact fits_setFds (fits_pushClosedFd h _) (length_swapRemove_le _ _)

theorem fits_ingestAlloc (h : st.model.Fits) (event : ResourceEvent) :
    (ingestAlloc event st).model.Fits := by
  rw [ingestAlloc]
  split
  · exact fits_pushLiveAlloc h _ _ _
  · exact h

/-- `FREE` does so with the allocations. -/
theorem fits_ingestFree (h : st.model.Fits) (event : ResourceEvent) :
    (ingestFree event st).model.Fits := by
  rw [ingestFree]
  split
  · exact h
  · exact fits_setAllocs (fits_pushFreedAlloc h _) (length_swapRemove_le _ _)

theorem fits_ingestRealloc (h : st.model.Fits) (event : ResourceEvent) :
    (ingestRealloc event st).model.Fits := by
  have hsource := fits_setAllocs h (removeFirst_length_le
    (LiveAlloc.isFor event.pid event.ptr) st.model.allocs.items)
  rw [ingestRealloc]
  split <;> split
  · exact fits_pushLiveAlloc h _ _ _
  · exact fits_pushLiveAlloc hsource _ _ _
  · exact h
  · exact hsource

/-- `EXEC` writes an entry in place. -/
theorem fits_ingestExec (h : st.model.Fits) (event : ResourceEvent) :
    (ingestExec event st).model.Fits := by
  have hmarked := fits_setFds h (modifyFirst_length (LiveFd.isFor event.pid event.fd)
    (LiveFd.mark event) st.model.fds.items).le
  rw [ingestExec]
  split
  · exact h
  · dsimp only
    split
    · exact fits_addFindingInternal hmarked _
    · exact hmarked

/-- The `switch` on the kind of a record. -/
theorem fits_ingestKind (h : st.model.Fits) (event : ResourceEvent) :
    (ingestKind event st).model.Fits := by
  rw [ingestKind]
  cases event.kind with
  | fdOpen => exact fits_pushLiveFd h _
  | fdClose => exact fits_ingestFdClose h event
  | alloc => exact fits_ingestAlloc h event
  | free => exact fits_ingestFree h event
  | realloc => exact fits_ingestRealloc h event
  | fork => exact fits_ingestFork h event
  | spawn | generic => exact h
  | exec => exact fits_ingestExec h event
  | execFail => exact fits_rollbackFailedExec h event

/-- **One record.** Whatever fails, it leaves tables that fit. -/
theorem fits_ingestResource (h : st.model.Fits) (event : ResourceEvent) :
    (ingestResource st event).model.Fits := by
  have hcommitted : (if event.kind ≠ .exec ∧ event.kind ≠ .execFail then
      finishExec event.pid false st else st).model.Fits := by
    split
    · exact fits_finishExecLoop h event.pid false _
    · exact h
  rw [ingestResource]
  generalize (if event.kind ≠ .exec ∧ event.kind ≠ .execFail then
      finishExec event.pid false st else st) = committed at hcommitted ⊢
  have hstored := fits_addResourceEvent hcommitted event
  dsimp only
  split
  · exact hstored
  · split
    · exact fits_ingestKind (fits_ingestGeneric hstored event) event
    · exact fits_ingestKind hstored event

/-- Every restart is a commit. -/
theorem fits_finishPending (h : st.model.Fits) (fuel : Nat) :
    (finishPending fuel st).model.Fits := by
  induction fuel generalizing st with
  | zero => exact h
  | succ n ih =>
    rw [finishPending]
    split
    · exact h
    · split
      · exact h
      · exact ih (fits_finishExecLoop h _ true _)

/-- A finding of the library: its sites, then its copy. -/
theorem fits_finalizeFinding (h : st.model.Fits) (source : LifecycleFinding) :
    (finalizeFinding source st).model.Fits := by
  have hsite := fits_internSite h source.fileName source.functionName source.lineNumber
  rw [finalizeFinding]
  dsimp only
  split
  · exact fits_addFindingInternal (fits_internSite hsite _ _ _) _
  · exact fits_addFindingInternal hsite _

theorem fits_finalizeFindings (h : st.model.Fits) (sources : List (Option LifecycleFinding)) :
    (finalizeFindings sources st).model.Fits := by
  induction sources generalizing st with
  | nil => exact h
  | cons source rest ih =>
    cases source with
    | none =>
      rw [finalizeFindings]
      split <;> exact h
    | some source =>
      rw [finalizeFindings]
      split
      · exact h
      · exact ih (fits_finalizeFinding h source)

/-- A model with the same tables. -/
theorem ReportModel.Fits.lifecycle {model : ReportModel lib} (h : model.Fits)
    (genericLifecycle : Option lib.Lifecycle) (genericFinalized : Bool) :
    ReportModel.Fits { model with genericLifecycle, genericFinalized } :=
  ⟨h.sites, h.resources, h.calls, h.fds, h.closedFds, h.allocs, h.freedAllocs, h.findings⟩

/-- The flags and the state of the library are in no table. -/
theorem fits_finalizeGeneric (h : st.model.Fits) : (finalizeGeneric st).model.Fits := by
  have hstart (lifecycle : lib.Lifecycle) : (loopStart lifecycle st).model.Fits :=
    h.lifecycle (some _) st.model.genericFinalized
  rcases finalizeGeneric_cases st with
    ⟨-, heq⟩ | ⟨lifecycle, ⟨-, heq⟩ | ⟨-, ⟨-, heq⟩ | ⟨-, heq⟩⟩⟩
  · rwa [heq]
  · rw [heq]
    exact hstart lifecycle
  · rw [heq]
    exact fits_finalizeFindings (hstart lifecycle) _
  · rw [heq]
    exact (fits_finalizeFindings (hstart lifecycle) _).lifecycle _ true

/-- **The end of the log.** -/
theorem fits_finalizeLeaks (h : st.model.Fits) : (finalizeLeaks st).model.Fits :=
  fits_finalizeGeneric (fits_finishPending h _)

/-- One call, whatever fails in it. -/
theorem fits_perform (h : st.model.Fits) (c : ModelCall lib) : (c.perform st).model.Fits := by
  cases c with
  | keepRecords records =>
    exact ⟨h.sites, h.resources, h.calls, h.fds, h.closedFds, h.allocs, h.freedAllocs, h.findings⟩
  | internSite fileName functionName lineNumber =>
    exact fits_internSite h fileName functionName lineNumber
  | addCall event => exact fits_addCall h event
  | addFinding finding => exact fits_addFindingInternal h finding
  | ingestResource event => exact fits_ingestResource h event
  | finalizeLeaks => exact fits_finalizeLeaks h

end Steps

/-- Every table fits after every run of calls. -/
theorem fits_runCalls {model : ReportModel lib} (h : model.Fits) (calls : List (RunCall lib)) :
    (runCalls model calls).Fits :=
  runCalls_invariant (fun c _ hfits => fits_perform hfits c) h calls

/-- **Growth.** In a `size_t` of `w` bits, `p101_report_grow_array_internal` leaves a capacity with
room for one more item, not below the old one, and with a size in bytes below `2 ^ w` when the array
was reallocated, or it leaves the table as it was and raises an error. Over every run of calls, with
any failures and any resets of the error, each table keeps its entries within its allocation. -/
theorem growth_cannot_wrap {w : Nat} (hw : lib.sizeMax + 1 = 2 ^ w) :
    (∀ (itemSize count capacity : Nat) (err : ErrState), 0 < itemSize → count ≤ capacity →
      let grown := growArrayInternal lib itemSize count capacity err
      (grown.1 = true → count < grown.2.1 ∧ capacity ≤ grown.2.1 ∧
        (capacity ≤ count → grown.2.1 * itemSize < 2 ^ w)) ∧
      (grown.1 = false → grown.2.1 = capacity ∧ grown.2.2.error = true)) ∧
    (∀ {α : Type} (itemSize : Nat) (t : Table α) (err : ErrState),
      let grown := growTable lib itemSize t err
      grown.2.1.items = t.items ∧
        (t.items.length ≤ t.capacity → grown.1 = false →
          grown.2.1 = t ∧ grown.2.2.error = true)) ∧
    ∀ (health : lib.HealthInner) (calls : List (RunCall lib)),
      (runCalls (ReportModel.zeroed lib health) calls).Fits := by
  refine ⟨?_, ?_, fun health calls => fits_runCalls (fits_zeroed health) calls⟩
  · intro itemSize count capacity err _ hcount
    dsimp only
    rcases growArrayInternal_cases lib itemSize err hcount with
      ⟨capacity', err', heq, hgrown⟩ | ⟨err', heq, herror⟩
    · rw [heq]
      refine ⟨fun _ => ⟨hgrown.room, hgrown.le, fun hfull => ?_⟩, by simp⟩
      have hbytes := hgrown.bytes hfull
      dsimp only
      omega
    · rw [heq]
      exact ⟨by simp, fun _ => ⟨rfl, herror⟩⟩
  · intro α itemSize t err
    refine ⟨rfl, fun hcount hfailed => ?_⟩
    rcases growArrayInternal_cases lib itemSize err hcount with
      ⟨capacity', err', heq, hgrown⟩ | ⟨err', heq, herror⟩
    · rw [growTable, heq] at hfailed
      cases hfailed
    · rw [growTable, heq]
      exact ⟨rfl, herror⟩

/-- On a 64-bit platform, with a full table of the largest capacity that can be doubled. -/
theorem growth_cannot_wrap_large :
    let grown := growArrayInternal replayLib 1 (2 ^ 62) (2 ^ 62) ⟨false, []⟩
    grown.1 = true → 2 ^ 62 < grown.2.1 ∧ 2 ^ 62 ≤ grown.2.1 ∧
      (2 ^ 62 ≤ 2 ^ 62 → grown.2.1 * 1 < 2 ^ 64) := by
  have hw : replayLib.sizeMax + 1 = 2 ^ 64 := rfl
  exact ((growth_cannot_wrap hw).1 1 (2 ^ 62) (2 ^ 62) ⟨false, []⟩ Nat.one_pos (Nat.le_refl _)).1

end P101Report
