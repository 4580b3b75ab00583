import P101Report.Replay.Tables

/-!
# The replay refines the source when no error is raised

Errors are sticky: no function of the report clears one, so a call that ends without an error began
without one and every growth and copy inside it succeeded. Under that hypothesis each function of
`src/model.c` acts on the tables as its counterpart in `Tables` (`ingestResource_tables`,
`ingestLog_tables`), and finalization settles the pending execs and appends one mapped finding for
each lifecycle finding (`finalizeLeaks_tables`).
-/

set_option autoImplicit false

namespace P101Report

open SwapTable

variable {lib : ToolEventLib}

/-! ## Allocation -/

/-- An allocation that leaves no error has succeeded. -/
theorem allocate_ok {err : ErrState} (h : err.allocate.2.error = false) :
    err.error = false ∧ err.allocate.1 = true := by
  rw [ErrState.allocate] at h ⊢
  cases halloc : err.allocations with
  | nil => simpa [halloc] using h
  | cons fails rest =>
    cases fails with
    | true => simp [halloc] at h
    | false => simpa [halloc] using h

/-- A growth that leaves no error has made room. -/
theorem growArrayInternal_ok {itemSize count capacity : Nat} {err : ErrState}
    (h : (growArrayInternal lib itemSize count capacity err).2.2.error = false) :
    err.error = false ∧ (growArrayInternal lib itemSize count capacity err).1 = true := by
  rw [growArrayInternal] at h ⊢
  split at h
  · -- there is room
    exact ⟨h, by simp [*]⟩
  · rw [if_neg ‹_›]
    split at h
    · -- the new size is out of range, which raises an error
      simp [ErrState.raise] at h
    · rw [if_neg ‹_›]
      -- the reallocation decides
      have halloc := @allocate_ok err
      generalize err.allocate = outcome at h halloc ⊢
      obtain ⟨_ | _, err'⟩ := outcome
      · exact absurd (halloc h).2 (by simp)
      · exact ⟨(halloc h).1, rfl⟩

/-- Growing a table keeps its items; it fails only with an error, and needs a state without one. -/
theorem growTable_cases {α : Type} (itemSize : Nat) (t : Table α) (err : ErrState) :
    ∃ table err', table.items = t.items ∧
      (growTable lib itemSize t err = (false, table, err') ∧ err'.error = true ∨
        growTable lib itemSize t err = (true, table, err') ∧
          (err'.error = false → err.error = false)) := by
  have hok := @growArrayInternal_ok lib itemSize t.items.length t.capacity err
  rw [growTable]
  generalize growArrayInternal lib itemSize t.items.length t.capacity err = grown at hok ⊢
  obtain ⟨success, capacity, err'⟩ := grown
  refine ⟨{ t with capacity }, err', rfl, ?_⟩
  cases success with
  | true => exact Or.inr ⟨rfl, fun h => (hok h).1⟩
  | false =>
    refine Or.inl ⟨rfl, ?_⟩
    by_contra herror
    exact absurd (hok (Bool.eq_false_iff.2 herror)).2 (by simp)

/-- A growth that makes no room keeps the capacity. -/
theorem growArrayInternal_failed {itemSize count capacity : Nat} {err : ErrState}
    (h : (growArrayInternal lib itemSize count capacity err).1 = false) :
    (growArrayInternal lib itemSize count capacity err).2.1 = capacity := by
  rw [growArrayInternal] at h ⊢
  split at h
  · cases h
  · rw [if_neg ‹_›]
    split at h
    · rw [if_pos ‹_›]
    · rw [if_neg ‹_›]
      generalize err.allocate = outcome at h ⊢
      obtain ⟨_ | _, err'⟩ := outcome
      · rfl
      · cases h

/-- A failed growth leaves the table as it is. -/
theorem growTable_failed {α : Type} {itemSize : Nat} {t : Table α} {err : ErrState}
    (h : (growTable lib itemSize t err).1 = false) :
    ∃ err', growTable lib itemSize t err = (false, t, err') ∧ err'.error = true := by
  have hcapacity := @growArrayInternal_failed lib itemSize t.items.length t.capacity err h
  have htable : (growTable lib itemSize t err).2.1 = t :=
    congrArg (fun capacity => { t with capacity }) hcapacity
  obtain ⟨table, err', -, ⟨hgrown, herror⟩ | ⟨hgrown, -⟩⟩ := growTable_cases itemSize t err
  · rw [hgrown] at htable
    obtain rfl : table = t := htable
    exact ⟨err', hgrown, herror⟩
  · rw [hgrown] at h
    cases h

/-- A copy without an error is the text, the empty one for `NULL`. -/
theorem dupText_ok {text : Option Text} {err : ErrState} (h : (dupText text err).2.error = false) :
    err.error = false ∧ (dupText text err).1 = some (text.getD (lit "")) := by
  rw [dupText] at h ⊢
  have halloc := @allocate_ok err
  generalize err.allocate = outcome at h halloc ⊢
  obtain ⟨_ | _, err'⟩ := outcome
  · exact absurd (halloc h).2 (by simp)
  · exact ⟨(halloc h).1, rfl⟩

/-- A copy without an error is the text, and `NULL` stays `NULL`. -/
theorem dupField_ok {text : Option Text} {err : ErrState}
    (h : (dupField text err).2.error = false) :
    err.error = false ∧ (dupField text err).1 = text := by
  cases text with
  | none => exact ⟨h, rfl⟩
  | some t => exact dupText_ok h

/-- A call into the library clears no error. -/
theorem after_ok {α : Type} {err : ErrState} {result : LibResult α}
    (h : (err.after result).error = false) : err.error = false := by
  simp only [ErrState.after, Bool.or_eq_false_iff] at h
  exact h.1

/-! ## Appending -/

/-- `f` is error-free only from an error-free state, and then acts on the tables as `g`. -/
def ActsAs (lib : ToolEventLib) (f : State lib → State lib) (g : Tables → Tables) : Prop :=
  ∀ st, (f st).err.error = false →
    st.err.error = false ∧ (f st).model.tables = g st.model.tables

/-- Two functions, one after the other. -/
theorem ActsAs.comp {f f' : State lib → State lib} {g g' : Tables → Tables}
    (hf' : ActsAs lib f' g') (hf : ActsAs lib f g) :
    ActsAs lib (fun st => f' (f st)) fun t => g' (g t) := by
  intro st h
  obtain ⟨hmid, htables'⟩ := hf' (f st) h
  obtain ⟨hstart, htables⟩ := hf st hmid
  exact ⟨hstart, by rw [htables', htables]⟩

theorem ActsAs.id : ActsAs lib (fun st : State lib => st) fun t => t := fun _ h => ⟨h, rfl⟩

/-- A test that both levels make alike. -/
theorem ActsAs.ite {f f' : State lib → State lib} {g g' : Tables → Tables} (c : Prop) [Decidable c]
    (hf : ActsAs lib f g) (hf' : ActsAs lib f' g') :
    ActsAs lib (fun st => if c then f st else f' st) fun t => if c then g t else g' t := by
  by_cases hc : c
  · simpa only [if_pos hc] using hf
  · simpa only [if_neg hc] using hf'

theorem pushLiveFd_tables (entry : LiveFd) :
    ActsAs lib (pushLiveFd entry) fun t => { t with fds := t.fds ++ [entry] } := by
  intro st h
  rw [pushLiveFd] at h ⊢
  obtain ⟨table, err, hitems, ⟨hgrown, herror⟩ | ⟨hgrown, hstart⟩⟩ :=
    @growTable_cases lib _ lib.sizeofLiveFd st.model.fds st.err
  · rw [hgrown] at h
    exact absurd h (by simp [herror])
  · rw [hgrown] at h ⊢
    exact ⟨hstart h, by simp [ReportModel.tables, hitems]⟩

theorem pushClosedFd_tables (entry : ClosedFd) :
    ActsAs lib (pushClosedFd entry)
      fun t => { t with closedFds := t.closedFds ++ [entry] } := by
  intro st h
  rw [pushClosedFd] at h ⊢
  obtain ⟨table, err, hitems, ⟨hgrown, herror⟩ | ⟨hgrown, hstart⟩⟩ :=
    @growTable_cases lib _ lib.sizeofClosedFd st.model.closedFds st.err
  · rw [hgrown] at h
    exact absurd h (by simp [herror])
  · rw [hgrown] at h ⊢
    exact ⟨hstart h, by simp [ReportModel.tables, hitems]⟩

/-- Without an error the pointer text of the new entry is there. -/
theorem pushLiveAlloc_tables (ptr : Option Text) (event : ResourceEvent)
    (hptr : ptr.isSome = true) :
    ActsAs lib (pushLiveAlloc event.pid ptr event)
      fun t => { t with allocs := t.allocs ++ [Tables.liveAlloc ptr event] } := by
  intro st h
  obtain ⟨text, rfl⟩ := Option.isSome_iff_exists.1 hptr
  rw [pushLiveAlloc] at h ⊢
  obtain ⟨table, err, hitems, ⟨hgrown, herror⟩ | ⟨hgrown, hstart⟩⟩ :=
    @growTable_cases lib _ lib.sizeofLiveAlloc st.model.allocs st.err
  · rw [hgrown] at h
    exact absurd h (by simp [herror])
  · rw [hgrown] at h ⊢
    obtain ⟨herr, hcopy⟩ := dupText_ok h
    exact ⟨hstart herr, by simp [ReportModel.tables, Tables.liveAlloc, hcopy, hitems]⟩

theorem pushFreedAlloc_tables (event : ResourceEvent) :
    ActsAs lib (pushFreedAlloc event) fun t => { t with
      freedAllocs := t.freedAllocs ++
        [⟨event.pid, some (event.ptr.getD (lit "")), event.site, event.sequence⟩] } := by
  intro st h
  rw [pushFreedAlloc] at h ⊢
  obtain ⟨table, err, hitems, ⟨hgrown, herror⟩ | ⟨hgrown, hstart⟩⟩ :=
    @growTable_cases lib _ lib.sizeofFreedAlloc st.model.freedAllocs st.err
  · rw [hgrown] at h
    exact absurd h (by simp [herror])
  · rw [hgrown] at h ⊢
    obtain ⟨herr, hcopy⟩ := dupText_ok h
    exact ⟨hstart herr, by simp [ReportModel.tables, hcopy, hitems]⟩

/-- Without an error the stored finding has its three texts. -/
theorem addFindingInternal_tables (finding : Finding) :
    ActsAs lib (addFindingInternal finding)
      fun t => { t with findings := t.findings ++ [finding] } := by
  intro st h
  rw [addFindingInternal] at h ⊢
  obtain ⟨table, err, hitems, ⟨hgrown, herror⟩ | ⟨hgrown, hstart⟩⟩ :=
    @growTable_cases lib _ lib.sizeofFinding st.model.findings st.err
  · rw [hgrown] at h
    exact absurd h (by simp [herror])
  · rw [hgrown] at h ⊢
    dsimp only at h ⊢
    split at h
    · rename_i herror
      exact absurd h (by simp [herror])
    · rw [if_neg ‹_›]
      -- the three copies are made in this order, and the last one is without error
      obtain ⟨h₂, hid⟩ := dupField_ok h
      obtain ⟨h₁, hclass⟩ := dupField_ok h₂
      obtain ⟨h₀, hptr⟩ := dupField_ok h₁
      exact ⟨hstart h₀, by simp [ReportModel.tables, hid, hclass, hptr, hitems]⟩

/-- Without an error the stored record has its seven texts. -/
theorem addResourceEvent_tables (event : ResourceEvent) :
    ActsAs lib (addResourceEvent event) (Tables.store event) := by
  intro st h
  rw [addResourceEvent] at h ⊢
  obtain ⟨table, err, hitems, ⟨hgrown, herror⟩ | ⟨hgrown, hstart⟩⟩ :=
    @growTable_cases lib _ lib.sizeofResourceEvent st.model.resources st.err
  · rw [hgrown] at h
    exact absurd h (by simp [herror])
  · rw [hgrown] at h ⊢
    dsimp only at h ⊢
    split at h
    · rename_i herror
      exact absurd h (by simp [herror])
    · rw [if_neg ‹_›]
      -- from the last copy back to the first
      obtain ⟨h₆, hmetadata⟩ := dupField_ok h
      obtain ⟨h₅, hrelated⟩ := dupField_ok h₆
      obtain ⟨h₄, hid⟩ := dupField_ok h₅
      obtain ⟨h₃, hclass⟩ := dupField_ok h₄
      obtain ⟨h₂, htarget⟩ := dupField_ok h₃
      obtain ⟨h₁, hnew⟩ := dupField_ok h₂
      obtain ⟨h₀, hptr⟩ := dupField_ok h₁
      refine ⟨hstart h₀, ?_⟩
      simp [ReportModel.tables, Tables.store, hmetadata, hrelated, hid, hclass, htarget, hnew, hptr,
        hitems]

/-! ## Commit, rollback and the other record kinds -/

theorem setFds_tables (st : State lib) (items : List LiveFd) :
    (st.setFds items).model.tables = { st.model.tables with fds := items } := rfl

/-- The commit loop is the sweep of the live table by `finishVerdict`. -/
theorem finishExecLoop_tables (pid : Int) (endOfInput : Bool) (remaining : Nat) :
    ActsAs lib (finishExecLoop pid endOfInput remaining)
      (Tables.finishExecLoop pid endOfInput remaining) := by
  induction remaining with
  | zero =>
    intro st h
    exact ⟨h, by simp [finishExecLoop, Tables.finishExecLoop, sweep, Tables.closedByExec,
      ReportModel.tables]⟩
  | succ n ih =>
    intro st h
    rw [finishExecLoop] at h ⊢
    split at h
    · rename_i herror
      exact absurd h (by simp [herror])
    · rename_i herror
      rw [if_neg herror]
      have hstart : st.err.error = false := by simpa using herror
      dsimp only at h ⊢
      have hview : st.model.tables.fds = st.model.fds.items := rfl
      cases hget : st.model.fds.items[st.model.fds.items.length - (n + 1)]? with
      | none =>
        simp only [hget] at h ⊢
        refine ⟨h, ?_⟩
        simp only [Tables.finishExecLoop, sweep, hview, hget, Tables.closedByExec, List.filter_nil,
          List.map_nil, List.append_nil]
        rfl
      | some fd =>
        simp only [hget] at h ⊢
        -- the four outcomes for one entry: not concerned, closed, inherited at the end, cleared
        by_cases hskip : fd.pid ≠ pid ∨ fd.execPending = 0
        · rw [if_pos hskip] at h ⊢
          obtain ⟨-, htables⟩ := ih st h
          refine ⟨hstart, ?_⟩
          obtain ⟨hlt, hfd⟩ := List.getElem?_eq_some_iff.1 hget
          have hset : st.model.fds.items.set (st.model.fds.items.length - (n + 1)) fd =
              st.model.fds.items := by rw [← hfd, List.set_getElem_self]
          rw [htables]
          simp only [Tables.finishExecLoop, sweep, hview, hget, Tables.finishVerdict, if_pos hskip,
            hset]
        · rw [if_neg hskip] at h ⊢
          by_cases hcloexec : fd.execCloexec ≠ 0
          · rw [if_pos hcloexec] at h ⊢
            obtain ⟨hpush, htables⟩ := ih _ h
            obtain ⟨-, hclosed⟩ := pushClosedFd_tables (ClosedFd.ofExec fd) st hpush
            refine ⟨hstart, ?_⟩
            rw [htables, setFds_tables, hclosed]
            simp [Tables.finishExecLoop, sweep, hview, hget, Tables.finishVerdict, if_neg hskip,
              hcloexec, Tables.closedByExec]
          · rw [if_neg hcloexec] at h ⊢
            cases endOfInput with
            | true =>
              simp only [if_true] at h ⊢
              obtain ⟨-, htables⟩ := ih _ h
              refine ⟨hstart, ?_⟩
              rw [htables, setFds_tables]
              simp [Tables.finishExecLoop, sweep, hview, hget, Tables.finishVerdict, if_neg hskip,
                hcloexec, Tables.closedByExec]
            | false =>
              simp only [Bool.false_eq_true, if_false] at h ⊢
              obtain ⟨-, htables⟩ := ih _ h
              refine ⟨hstart, ?_⟩
              rw [htables, setFds_tables]
              simp [Tables.finishExecLoop, sweep, hview, hget, Tables.finishVerdict, if_neg hskip,
                hcloexec]

theorem finishExec_tables (pid : Int) (endOfInput : Bool) :
    ActsAs lib (finishExec pid endOfInput) (Tables.finishExec pid endOfInput) :=
  fun st h => finishExecLoop_tables pid endOfInput st.model.fds.items.length st h

theorem findIdx?_isSome_any {α : Type} (p : α → Bool) (l : List α) :
    (l.findIdx? p).isSome = l.any p := by
  rw [List.findIdx?_isSome]

/-- A `CLOSE` moves the first live entry of its descriptor to the closed ones. -/
theorem ingestFdClose_tables (event : ResourceEvent) :
    ActsAs lib (ingestFdClose event) (Tables.ingestFdClose event) := by
  intro st h
  rw [ingestFdClose] at h ⊢
  have hany := findIdx?_isSome_any (LiveFd.isFor event.pid event.fd) st.model.fds.items
  have hview : st.model.tables.fds = st.model.fds.items := rfl
  cases hidx : st.model.fds.items.findIdx? (LiveFd.isFor event.pid event.fd) with
  | none =>
    -- a `CLOSE` of no live descriptor leaves the tables alone
    simp only [hidx, Option.isSome_none] at h hany ⊢
    exact ⟨h, by simp [Tables.ingestFdClose, hview, ← hany]⟩
  | some index =>
    -- the closed entry is written first, so the live table is still the one of the start
    simp only [hidx, Option.isSome_some] at h hany ⊢
    obtain ⟨hstart, hclosed⟩ := pushClosedFd_tables (ClosedFd.ofClose event) st h
    have hfds : (pushClosedFd (ClosedFd.ofClose event) st).model.fds.items =
        st.model.fds.items := congrArg Tables.fds hclosed
    refine ⟨hstart, ?_⟩
    rw [setFds_tables, hclosed, hfds]
    simp [Tables.ingestFdClose, hview, ← hany, removeFirst, hidx]

/-- An `ALLOC` without a pointer writes nothing. -/
theorem ingestAlloc_tables (event : ResourceEvent) :
    ActsAs lib (ingestAlloc event) (Tables.ingestAlloc event) := by
  intro st h
  rw [ingestAlloc] at h ⊢
  by_cases hptr : event.ptr.isSome = true ∧ event.ptr ≠ some dash
  · rw [if_pos hptr] at h ⊢
    obtain ⟨hstart, htables⟩ := pushLiveAlloc_tables event.ptr event hptr.1 st h
    refine ⟨hstart, ?_⟩
    rw [htables]
    simp [Tables.ingestAlloc, Tables.isPointer, hptr]
  · rw [if_neg hptr] at h ⊢
    have hnot : Tables.isPointer event.ptr = false := by
      simpa [Tables.isPointer] using hptr
    exact ⟨h, by simp [Tables.ingestAlloc, hnot]⟩

theorem setAllocs_tables (st : State lib) (items : List LiveAlloc) :
    (st.setAllocs items).model.tables = { st.model.tables with allocs := items } := rfl

/-- A `FREE` moves the first live entry of its pointer to the freed ones. -/
theorem ingestFree_tables (event : ResourceEvent) :
    ActsAs lib (ingestFree event) (Tables.ingestFree event) := by
  intro st h
  rw [ingestFree] at h ⊢
  have hany := findIdx?_isSome_any (LiveAlloc.isFor event.pid event.ptr) st.model.allocs.items
  have hview : st.model.tables.allocs = st.model.allocs.items := rfl
  cases hidx : st.model.allocs.items.findIdx? (LiveAlloc.isFor event.pid event.ptr) with
  | none =>
    simp only [hidx, Option.isSome_none] at h hany ⊢
    exact ⟨h, by simp [Tables.ingestFree, hview, ← hany]⟩
  | some index =>
    simp only [hidx, Option.isSome_some] at h hany ⊢
    obtain ⟨hstart, hfreed⟩ := pushFreedAlloc_tables event st h
    have hallocs : (pushFreedAlloc event st).model.allocs.items = st.model.allocs.items :=
      congrArg Tables.allocs hfreed
    refine ⟨hstart, ?_⟩
    rw [setAllocs_tables, hfreed, hallocs]
    simp [Tables.ingestFree, hview, ← hany, removeFirst, hidx]

/-- A `REALLOC` drops the old pointer and stores the new one, each when it is there. -/
theorem ingestRealloc_tables (event : ResourceEvent) :
    ActsAs lib (ingestRealloc event) (Tables.ingestRealloc event) := by
  -- the old pointer is dropped first, whatever the new one is
  have hsource : ActsAs lib
      (fun st => if event.ptr.isNone ∨ event.ptr = some dash then st else
        st.setAllocs (removeFirst (LiveAlloc.isFor event.pid event.ptr) st.model.allocs.items))
      (fun t => { t with allocs := Tables.reallocSource event t.allocs }) := by
    intro st h
    dsimp only at h ⊢
    by_cases hnull : event.ptr.isNone ∨ event.ptr = some dash
    · rw [if_pos hnull] at h ⊢
      have hnot : Tables.isPointer event.ptr = false := by
        rcases hnull with hnull | hnull <;> simp_all [Tables.isPointer]
      exact ⟨h, by simp [Tables.reallocSource, hnot]⟩
    · rw [if_neg hnull] at h ⊢
      have hpointer : Tables.isPointer event.ptr = true := by
        cases hptr : event.ptr <;> simp_all [Tables.isPointer]
      refine ⟨h, ?_⟩
      rw [setAllocs_tables]
      simp [Tables.reallocSource, hpointer, ReportModel.tables]
  intro st h
  rw [ingestRealloc] at h ⊢
  -- without a new pointer the record only frees
  by_cases hnew : event.newPtr.isSome = true ∧ event.newPtr ≠ some dash
  · rw [if_pos hnew] at h ⊢
    obtain ⟨hmid, htables⟩ := pushLiveAlloc_tables event.newPtr event hnew.1 _ h
    obtain ⟨hstart, hfirst⟩ := hsource st hmid
    refine ⟨hstart, ?_⟩
    rw [htables, hfirst]
    simp [Tables.ingestRealloc, Tables.isPointer, hnew]
  · rw [if_neg hnew] at h ⊢
    have hnot : Tables.isPointer event.newPtr = false := by
      simpa [Tables.isPointer] using hnew
    obtain ⟨hstart, hfirst⟩ := hsource st h
    refine ⟨hstart, ?_⟩
    rw [hfirst]
    simp [Tables.ingestRealloc, hnot]

/-- The entries of the table stay in front while a `FORK` record adds the child's. -/
theorem forkEntries_append (event : ResourceEvent) (closedFds : List ClosedFd)
    (parents fds : List LiveFd) :
    ∃ added, parents.foldl (Tables.forkEntry event closedFds) fds = fds ++ added := by
  induction parents generalizing fds with
  | nil => exact ⟨[], by simp⟩
  | cons fd rest ih =>
    rw [List.foldl_cons]
    -- the child gets the entry unless it has the descriptor already or has closed it
    by_cases hadd : fd.pid = event.pid ∧ ¬ fds.any (LiveFd.isFor event.childPid fd.fd) ∧
        ¬ closedFds.any (ClosedFd.isFor event.childPid fd.fd)
    · obtain ⟨added, heq⟩ := ih (fds ++ [LiveFd.ofFork event fd])
      exact ⟨LiveFd.ofFork event fd :: added, by
        rw [Tables.forkEntry, if_pos hadd, heq, List.append_assoc, List.singleton_append]⟩
    · obtain ⟨added, heq⟩ := ih fds
      exact ⟨added, by rw [Tables.forkEntry, if_neg hadd, heq]⟩

/-- One pass of the loop, at an entry that was there before it. -/
theorem forkStep_tables (event : ResourceEvent) (index : Nat) (fd : LiveFd) (st : State lib)
    (hget : st.model.fds.items[index]? = some fd)
    (h : (forkStep event st index).err.error = false) :
    st.err.error = false ∧
      (forkStep event st index).model.tables =
        { st.model.tables with
          fds := Tables.forkEntry event st.model.tables.closedFds st.model.tables.fds fd } := by
  have hfds : st.model.tables.fds = st.model.fds.items := rfl
  have hclosed : st.model.tables.closedFds = st.model.closedFds.items := rfl
  rw [forkStep] at h ⊢
  cases herror : st.err.error with
  | true => exact absurd h (by simp [herror])
  | false =>
    refine ⟨rfl, ?_⟩
    simp only [herror, Bool.false_eq_true, if_false, hget] at h ⊢
    by_cases hpid : fd.pid = event.pid
    · rw [if_neg (not_not.2 hpid)] at h ⊢
      by_cases hadd : (!st.model.fds.items.any (LiveFd.isFor event.childPid fd.fd) &&
          !st.model.closedFds.items.any (ClosedFd.isFor event.childPid fd.fd)) = true
      · rw [if_pos hadd] at h ⊢
        rw [(pushLiveFd_tables _ st h).2, Tables.forkEntry, if_pos]
        simpa [hpid, hfds, hclosed] using hadd
      · rw [if_neg hadd, Tables.forkEntry, if_neg]
        simpa [hpid, hfds, hclosed] using hadd
    · rw [if_pos hpid, Tables.forkEntry, if_neg (by simp [hpid])]

/-- A `FORK` copies the inherited entries of the parent to the child. -/
theorem ingestFork_tables (event : ResourceEvent) :
    ActsAs lib (ingestFork event) (Tables.ingestFork event) := by
  -- only the entries present before the loop are visited, so the loop folds over them
  have hloop : ∀ (st : State lib) (k : Nat), k ≤ st.model.fds.items.length →
      ((List.range k).foldl (forkStep event) st).err.error = false →
      st.err.error = false ∧ ((List.range k).foldl (forkStep event) st).model.tables =
        { st.model.tables with
          fds := (st.model.fds.items.take k).foldl
            (Tables.forkEntry event st.model.tables.closedFds) st.model.fds.items } := by
    intro st k
    induction k with
    | zero => exact fun _ h => ⟨h, rfl⟩
    | succ k ih =>
      intro hk h
      rw [List.range_succ, List.foldl_append, List.foldl_cons, List.foldl_nil] at h ⊢
      -- what the loop adds stands behind the entries that it still visits
      have hfront : ∀ st' : State lib, st'.model.tables =
          { st.model.tables with
            fds := (st.model.fds.items.take k).foldl
              (Tables.forkEntry event st.model.tables.closedFds) st.model.fds.items } →
          st'.model.fds.items[k]? = some st.model.fds.items[k] := by
        intro st' htables
        obtain ⟨added, heq⟩ := forkEntries_append event st.model.tables.closedFds
          (st.model.fds.items.take k) st.model.fds.items
        have hitems : st'.model.fds.items = st.model.fds.items ++ added :=
          (congrArg Tables.fds htables).trans heq
        rw [hitems, List.getElem?_append_left (by omega), List.getElem?_eq_getElem]
      -- a step after an error does nothing, so there was none before the last step
      have hbefore : ((List.range k).foldl (forkStep event) st).err.error = false := by
        by_contra herror
        rw [forkStep, if_pos (by simpa using herror)] at h
        exact herror h
      obtain ⟨hstart, htables⟩ := ih (by omega) hbefore
      obtain ⟨-, hstep⟩ := forkStep_tables event k _ _ (hfront _ htables) h
      refine ⟨hstart, ?_⟩
      rw [hstep, htables, List.take_succ_eq_append_getElem (by omega), List.foldl_append]
      rfl
  intro st h
  obtain ⟨hstart, htables⟩ := hloop st _ le_rfl h
  refine ⟨hstart, ?_⟩
  rw [ingestFork, htables, List.take_length]
  rfl

/-- An `EXEC` marks the live entry and may raise a finding about it. -/
theorem ingestExec_tables (event : ResourceEvent) :
    ActsAs lib (ingestExec event) (Tables.ingestExec lib.execInherits event) := by
  intro st h
  rw [ingestExec] at h ⊢
  have hview : st.model.tables.fds = st.model.fds.items := rfl
  cases hfind : st.model.fds.items.find? (LiveFd.isFor event.pid event.fd) with
  | none =>
    simp only [hfind] at h ⊢
    exact ⟨h, by simp [Tables.ingestExec, hview, hfind]⟩
  | some fd =>
    simp only [hfind] at h ⊢
    -- the entry is marked in any case; the finding depends on whether the exec inherits it
    have hreport := ActsAs.ite (lib.execInherits (event.cloexec ≠ 0) = true)
      (@addFindingInternal_tables lib (Finding.ofExec event fd)) ActsAs.id
    obtain ⟨hstart, htables⟩ := hreport _ h
    refine ⟨hstart, htables.trans ?_⟩
    rw [setFds_tables]
    simp only [Tables.ingestExec, hview, hfind]
    split <;> simp

/-- The rollback raises no error; the record itself has been stored before it. -/
theorem rollbackFailedExec_tables (event : ResourceEvent) (st : State lib)
    (hstored : st.model.resources.items ≠ []) :
    (rollbackFailedExec event st).err = st.err ∧
      (rollbackFailedExec event st).model.tables = st.model.tables.ingestExecFail event := by
  rw [rollbackFailedExec]
  rw [if_neg (by simpa using hstored)]
  exact ⟨rfl, rfl⟩

/-- Forwarding a record to the lifecycle library leaves the tables alone. -/
theorem ingestGeneric_tables (event : ResourceEvent) (st : State lib) :
    (ingestGeneric event st).model.tables = st.model.tables ∧
      ((ingestGeneric event st).err.error = false → st.err.error = false) := by
  rw [ingestGeneric]
  cases hcreated : st.model.genericLifecycle with
  | some lifecycle => exact ⟨rfl, fun h => after_ok h⟩
  | none =>
    -- the first forwarded record creates the library's state
    generalize hresult : lib.lifecycleCreate st.err.allocations = created
    obtain ⟨_ | lifecycle, allocations, raised⟩ := created
    · exact ⟨rfl, fun h => after_ok h⟩
    · exact ⟨rfl, fun h => after_ok (after_ok h)⟩

/-- The step of a kind, behind the storing of the record. -/
theorem ingestKind_tables (event : ResourceEvent) (st : State lib)
    (hstored : st.model.resources.items ≠ [])
    (h : (ingestKind event st).err.error = false) :
    st.err.error = false ∧
      (ingestKind event st).model.tables =
        st.model.tables.ingestKind lib.execInherits event := by
  unfold ingestKind Tables.ingestKind at *
  cases hkind : event.kind with
  | fdOpen => simp only [hkind] at h ⊢; exact pushLiveFd_tables _ st h
  | fdClose => simp only [hkind] at h ⊢; exact ingestFdClose_tables event st h
  | alloc => simp only [hkind] at h ⊢; exact ingestAlloc_tables event st h
  | free => simp only [hkind] at h ⊢; exact ingestFree_tables event st h
  | realloc => simp only [hkind] at h ⊢; exact ingestRealloc_tables event st h
  | fork => simp only [hkind] at h ⊢; exact ingestFork_tables event st h
  | exec => simp only [hkind] at h ⊢; exact ingestExec_tables event st h
  | execFail =>
    simp only [hkind] at h ⊢
    obtain ⟨herr, htables⟩ := rollbackFailedExec_tables event st hstored
    exact ⟨herr ▸ h, htables⟩
  | spawn => simp only [hkind] at h ⊢; exact ⟨h, trivial⟩
  | generic => simp only [hkind] at h ⊢; exact ⟨h, trivial⟩

/-- An error-free record acts on the tables as `Tables.ingest`. -/
theorem ingestResource_tables (event : ResourceEvent) :
    ActsAs lib (fun st : State lib => ingestResource st event)
      fun t => t.ingest lib.execInherits event := by
  -- the commit of the pending exec comes first, then the record is stored, forwarded and replayed
  have hcommit : ActsAs lib
      (fun st => if event.kind ≠ .exec ∧ event.kind ≠ .execFail then finishExec event.pid false st
        else st) (Tables.commitBefore event) :=
    ActsAs.ite _ (finishExec_tables event.pid false) ActsAs.id
  have hstore := (@addResourceEvent_tables lib event).comp hcommit
  have hforward : ∀ st : State lib,
      (if forwarded event.kind then ingestGeneric event st else st).model.tables =
          st.model.tables ∧
        ((if forwarded event.kind then ingestGeneric event st else st).err.error = false →
          st.err.error = false) := by
    intro st
    split
    · exact ingestGeneric_tables event st
    · exact ⟨rfl, fun h => h⟩
  intro st h
  dsimp only [ingestResource] at h ⊢
  generalize hstored : addResourceEvent event
    (if event.kind ≠ .exec ∧ event.kind ≠ .execFail then finishExec event.pid false st else st) =
      stored at h ⊢
  split at h
  · rename_i herror
    exact absurd h (by simp [herror])
  · rename_i herror
    rw [if_neg herror]
    obtain ⟨hstart, htables⟩ := hstore st (by simpa [hstored] using herror)
    simp only [hstored] at htables
    obtain ⟨hframe, -⟩ := hforward stored
    -- the rollback of an `EXEC_FAIL` looks behind the stored records, of which there is one
    have hnonempty : (if forwarded event.kind then ingestGeneric event stored
        else stored).model.resources.items ≠ [] := by
      have hview := congrArg Tables.resources (hframe.trans htables)
      simp only [ReportModel.tables] at hview
      simp [hview, Tables.store]
    obtain ⟨-, hresult⟩ := ingestKind_tables event _ hnonempty h
    exact ⟨hstart, by rw [hresult, hframe, htables]; rfl⟩

/-- A log ingested record by record. -/
def ingestLog (st : State lib) (log : List ResourceEvent) : State lib :=
  log.foldl ingestResource st

@[simp] theorem ingestLog_nil (st : State lib) : ingestLog st [] = st := rfl

@[simp] theorem ingestLog_cons (st : State lib) (event : ResourceEvent)
    (log : List ResourceEvent) :
    ingestLog st (event :: log) = ingestLog (ingestResource st event) log := rfl

/-- A log in two parts. -/
theorem ingestLog_append (st : State lib) (pre post : List ResourceEvent) :
    ingestLog st (pre ++ post) = ingestLog (ingestLog st pre) post := List.foldl_append

/-- An error-free log acts on the tables as `Tables.run`. -/
theorem ingestLog_tables (log : List ResourceEvent) :
    ActsAs lib (fun st : State lib => ingestLog st log) fun t => t.run lib.execInherits log := by
  induction log with
  | nil => exact ActsAs.id
  | cons event rest ih => exact ih.comp (ingestResource_tables event)

/-! ## What ingestion never touches -/

/-- What the reader writes outside the tables: the call events, the run model, the counters and the
stream healths. -/
structure Records (lib : ToolEventLib) where
  calls : Table CallEvent
  runModel : Option lib.RunModel
  resourceRecords : Nat
  callRecords : Nat
  resourceSkipped : Nat
  callSkipped : Nat
  resourceMalformed : Nat
  callMalformed : Nat
  resourceBadVersion : Nat
  callBadVersion : Nat
  resourceStreamHealth : StreamHealth lib.HealthInner
  callStreamHealth : StreamHealth lib.HealthInner

/-- What `Records` holds of a model. -/
def ReportModel.records (model : ReportModel lib) : Records lib where
  calls := model.calls
  runModel := model.runModel
  resourceRecords := model.resourceRecords
  callRecords := model.callRecords
  resourceSkipped := model.resourceSkipped
  callSkipped := model.callSkipped
  resourceMalformed := model.resourceMalformed
  callMalformed := model.callMalformed
  resourceBadVersion := model.resourceBadVersion
  callBadVersion := model.callBadVersion
  resourceStreamHealth := model.resourceStreamHealth
  callStreamHealth := model.callStreamHealth

/-- `f` leaves a part of the model alone, also when it raises an error. -/
def Keeps {β : Type} (lib : ToolEventLib) (part : ReportModel lib → β)
    (f : State lib → State lib) : Prop :=
  ∀ st, part (f st).model = part st.model

/-- Two functions that leave the part alone, one after the other. -/
theorem Keeps.comp {β : Type} {part : ReportModel lib → β} {f f' : State lib → State lib}
    (hf' : Keeps lib part f') (hf : Keeps lib part f) : Keeps lib part fun st => f' (f st) :=
  fun st => (hf' (f st)).trans (hf st)

theorem Keeps.id {β : Type} {part : ReportModel lib → β} : Keeps lib part fun st => st :=
  fun _ => rfl

/-- The part that only the reader, the interning and the storing of events write. -/
def ReportModel.readPart (model : ReportModel lib) :
    Table SourceSite × Table ResourceEvent × Records lib :=
  (model.sites, model.resources, model.records)

/-- `part` does not look at the live and closed tables or at the findings. -/
def IgnoresTables {β : Type} (part : ReportModel lib → β) : Prop :=
  ∀ (model : ReportModel lib) fds closedFds allocs freedAllocs findings,
    part { model with fds, closedFds, allocs, freedAllocs, findings } = part model

/-- What the reader writes is outside the tables. -/
theorem readPart_ignoresTables : @IgnoresTables lib _ ReportModel.readPart :=
  fun _ _ _ _ _ _ => rfl

/-- So is the object of the lifecycle library. -/
theorem lifecycle_ignoresTables : @IgnoresTables lib _ ReportModel.genericLifecycle :=
  fun _ _ _ _ _ _ => rfl

section TableWrites

variable {β : Type} {part : ReportModel lib → β}

theorem pushLiveFd_keeps (hpart : IgnoresTables part) (entry : LiveFd) :
    Keeps lib part (pushLiveFd entry) := by
  intro st
  rw [pushLiveFd]
  split <;> exact hpart st.model _ _ _ _ _

theorem pushClosedFd_keeps (hpart : IgnoresTables part) (entry : ClosedFd) :
    Keeps lib part (pushClosedFd entry) := by
  intro st
  rw [pushClosedFd]
  split <;> exact hpart st.model _ _ _ _ _

theorem pushLiveAlloc_keeps (hpart : IgnoresTables part) (pid : Int) (ptr : Option Text)
    (event : ResourceEvent) : Keeps lib part (pushLiveAlloc pid ptr event) := by
  intro st
  rw [pushLiveAlloc]
  split <;> exact hpart st.model _ _ _ _ _

theorem pushFreedAlloc_keeps (hpart : IgnoresTables part) (event : ResourceEvent) :
    Keeps lib part (pushFreedAlloc event) := by
  intro st
  rw [pushFreedAlloc]
  split <;> exact hpart st.model _ _ _ _ _

theorem addFindingInternal_keeps (hpart : IgnoresTables part) (finding : Finding) :
    Keeps lib part (addFindingInternal finding) := by
  intro st
  rw [addFindingInternal]
  split
  · exact hpart st.model _ _ _ _ _
  · dsimp only
    split <;> exact hpart st.model _ _ _ _ _

theorem setFds_keeps (hpart : IgnoresTables part) (items : List LiveFd) :
    Keeps lib part fun st => st.setFds items :=
  fun st => hpart st.model _ _ _ _ _

theorem setAllocs_keeps (hpart : IgnoresTables part) (items : List LiveAlloc) :
    Keeps lib part fun st => st.setAllocs items :=
  fun st => hpart st.model _ _ _ _ _

theorem finishExecLoop_keeps (hpart : IgnoresTables part) (pid : Int) (endOfInput : Bool)
    (remaining : Nat) : Keeps lib part (finishExecLoop pid endOfInput remaining) := by
  induction remaining with
  | zero => exact Keeps.id
  | succ n ih =>
    intro st
    rw [finishExecLoop]
    split
    · rfl
    · dsimp only
      split
      · rfl
      · rename_i fd _
        split
        · exact ih st
        · split
          · apply (ih.comp (setFds_keeps hpart _) _).trans
            exact pushClosedFd_keeps hpart (ClosedFd.ofExec fd) st
          · split
            · exact ih.comp (setFds_keeps hpart _) st
            · exact ih.comp (setFds_keeps hpart _) st

theorem forkLoop_keeps (hpart : IgnoresTables part) (event : ResourceEvent) (indices : List Nat) :
    Keeps lib part fun st => indices.foldl (forkStep event) st := by
  induction indices with
  | nil => exact Keeps.id
  | cons index rest ih =>
    apply ih.comp
    intro st
    dsimp only [forkStep]
    split
    · rfl
    · split
      · rfl
      · split
        · rfl
        · split
          · exact pushLiveFd_keeps hpart _ st
          · rfl

theorem rollbackFailedExec_keeps (hpart : IgnoresTables part) (event : ResourceEvent) :
    Keeps lib part (rollbackFailedExec event) := by
  intro st
  rw [rollbackFailedExec]
  split
  · rfl
  · exact hpart st.model _ _ _ _ _

/-- No kind of record writes outside the tables. -/
theorem ingestKind_keeps (hpart : IgnoresTables part) (event : ResourceEvent) :
    Keeps lib part (ingestKind event) := by
  intro st
  rw [ingestKind]
  split
  · -- `OPEN`
    exact pushLiveFd_keeps hpart _ st
  · -- `CLOSE`
    rw [ingestFdClose]
    split
    · rfl
    · apply (setFds_keeps hpart _ _).trans
      exact pushClosedFd_keeps hpart _ st
  · -- `ALLOC`
    rw [ingestAlloc]
    split
    · exact pushLiveAlloc_keeps hpart _ _ _ st
    · rfl
  · -- `FREE`
    rw [ingestFree]
    split
    · rfl
    · apply (setAllocs_keeps hpart _ _).trans
      exact pushFreedAlloc_keeps hpart _ st
  · -- `REALLOC`: the old pointer, then the new one
    dsimp only [ingestRealloc]
    split <;> split
    · exact pushLiveAlloc_keeps hpart _ _ _ _
    · apply (pushLiveAlloc_keeps hpart _ _ _ _).trans
      exact setAllocs_keeps hpart _ st
    · rfl
    · exact setAllocs_keeps hpart _ st
  · -- `FORK`
    exact forkLoop_keeps hpart event _ st
  · -- `SPAWN`
    rfl
  · -- `EXEC`
    rw [ingestExec]
    split
    · rfl
    · dsimp only
      split
      · apply (addFindingInternal_keeps hpart _ _).trans
        exact setFds_keeps hpart _ st
      · exact setFds_keeps hpart _ st
  · exact rollbackFailedExec_keeps hpart event st
  · -- a generic record
    rfl

/-- Committing the pending execs before a record. -/
theorem commitExec_keeps (hpart : IgnoresTables part) (event : ResourceEvent) :
    Keeps lib part fun st =>
      if event.kind ≠ .exec ∧ event.kind ≠ .execFail then finishExec event.pid false st
      else st := by
  intro st
  dsimp only
  split
  · exact finishExecLoop_keeps hpart _ _ _ st
  · rfl

end TableWrites

/-- Storing an event writes the stored events only. -/
theorem addResourceEvent_keeps (event : ResourceEvent) :
    Keeps lib (fun model => (model.sites, model.records, model.genericLifecycle))
      (addResourceEvent event) := by
  intro st
  rw [addResourceEvent]
  split
  · rfl
  · dsimp only
    split <;> rfl

/-- Forwarding writes the object of the library only. -/
theorem ingestGeneric_keeps (event : ResourceEvent) :
    Keeps lib ReportModel.readPart (ingestGeneric event) := by
  intro st
  rw [ingestGeneric]
  dsimp only
  split <;> rfl

/-- A record interns no site and leaves what the reader writes alone. -/
theorem ingestResource_keeps (event : ResourceEvent) :
    Keeps lib (fun model => (model.sites, model.records)) fun st => ingestResource st event := by
  have hread : ∀ {m m' : ReportModel lib}, m.readPart = m'.readPart →
      (m.sites, m.records) = (m'.sites, m'.records) := by
    intro m m' h
    have hsites : m.sites = m'.sites := congrArg (fun part => part.1) h
    have hrecords : m.records = m'.records := congrArg (fun part => part.2.2) h
    rw [hsites, hrecords]
  have hadd : Keeps lib (fun model => (model.sites, model.records)) (addResourceEvent event) :=
    fun st => congrArg (fun part => (part.1, part.2.1)) (addResourceEvent_keeps event st)
  intro st
  have hstored := hadd.comp
    (fun st => hread (commitExec_keeps readPart_ignoresTables event st)) st
  dsimp only [ingestResource] at hstored ⊢
  generalize addResourceEvent event _ = stored at hstored ⊢
  split
  · exact hstored
  · apply (hread (ingestKind_keeps readPart_ignoresTables event _)).trans
    split
    · exact (hread (ingestGeneric_keeps event _)).trans hstored
    · exact hstored

theorem ingestResource_frame (st : State lib) (event : ResourceEvent) :
    (ingestResource st event).model.sites = st.model.sites ∧
      (ingestResource st event).model.records = st.model.records := by
  have hkeeps := ingestResource_keeps event st
  exact ⟨congrArg Prod.fst hkeeps, congrArg Prod.snd hkeeps⟩

/-- `f` leaves the interned sites and the call events alone. -/
def KeepsSources (lib : ToolEventLib) (f : State lib → State lib) : Prop :=
  ∀ st, (f st).model.sites = st.model.sites ∧ (f st).model.calls = st.model.calls

/-- Ingestion interns no site and adds no call event. -/
theorem ingestLog_sources (log : List ResourceEvent) :
    KeepsSources lib fun st => ingestLog st log := by
  have hlog : Keeps lib (fun model => (model.sites, model.records))
      fun st => ingestLog st log := by
    induction log with
    | nil => exact Keeps.id
    | cons event rest ih => exact ih.comp (ingestResource_keeps event)
  intro st
  exact ⟨congrArg Prod.fst (hlog st), congrArg (fun part => part.2.calls) (hlog st)⟩

/-! ## Finalization -/

/-- The restart loop settles the pending execs as `Tables.finishPending`. -/
theorem finishPending_tables (fuel : Nat) :
    ActsAs lib (finishPending fuel) (Tables.finishPending fuel) := by
  induction fuel with
  | zero => exact ActsAs.id
  | succ fuel ih =>
    intro st h
    rw [finishPending] at h ⊢
    split at h
    · rename_i herror
      exact absurd h (by simp [herror])
    · rename_i herror
      rw [if_neg herror]
      have hview : st.model.tables.fds = st.model.fds.items := rfl
      rw [Tables.finishPending, hview]
      cases hfind : st.model.fds.items.find? fun fd => fd.execPending ≠ 0 with
      | none =>
        simp only [hfind] at h ⊢
        exact ⟨h, trivial⟩
      | some fd =>
        simp only [hfind] at h ⊢
        exact ih.comp (finishExec_tables fd.pid true) st h

/-- Interning leaves the tables alone and clears no error. -/
theorem internSite_tables (fileName functionName : Option Text) (lineNumber : Int)
    (st : State lib) :
    (internSite fileName functionName lineNumber st).2.model.tables = st.model.tables ∧
      ((internSite fileName functionName lineNumber st).2.err.error = false →
        st.err.error = false) := by
  rw [internSite]
  dsimp only
  split
  · exact ⟨rfl, fun h => h⟩
  · obtain ⟨table, err, hitems, ⟨hgrown, herror⟩ | ⟨hgrown, hstart⟩⟩ :=
      @growTable_cases lib _ lib.sizeofSite st.model.sites st.err
    · rw [hgrown]
      exact ⟨rfl, fun h => absurd h (by simp [herror])⟩
    · rw [hgrown]
      exact ⟨rfl, fun h => hstart (dupText_ok (dupText_ok h).1).1⟩

/-- The entry at an index of the site table has these names, `NULL` as the empty text. -/
def DenotesSite (sites : List SourceSite) (index : Nat) (fileName functionName : Option Text)
    (lineNumber : Int) : Prop :=
  ∃ site, sites[index]? = some site ∧ site.lineNumber = lineNumber ∧
    site.fileName.getD (lit "") = fileName.getD (lit "") ∧
    site.functionName.getD (lit "") = functionName.getD (lit "")

/-- An index denotes the same site in a later table. -/
theorem DenotesSite.grown {sites sites' : List SourceSite} {index : Nat}
    {fileName functionName : Option Text} {lineNumber : Int} (hgrown : sites <+: sites')
    (h : DenotesSite sites index fileName functionName lineNumber) :
    DenotesSite sites' index fileName functionName lineNumber := by
  obtain ⟨site, hget, hnames⟩ := h
  obtain ⟨added, rfl⟩ := hgrown
  obtain ⟨hlt, -⟩ := List.getElem?_eq_some_iff.1 hget
  exact ⟨site, by rw [List.getElem?_append_left hlt, hget], hnames⟩

/-- The site table only grows, also when interning fails. -/
theorem internSite_grown (fileName functionName : Option Text) (lineNumber : Int)
    (st : State lib) :
    st.model.sites.items <+:
      (internSite fileName functionName lineNumber st).2.model.sites.items := by
  rw [internSite]
  dsimp only
  split
  · exact List.prefix_rfl
  · obtain ⟨table, err, hitems, ⟨hgrown, -⟩ | ⟨hgrown, -⟩⟩ :=
      @growTable_cases lib _ lib.sizeofSite st.model.sites st.err
    · rw [hgrown]
      simp [hitems]
    · rw [hgrown]
      simp [hitems]

/-- Without an error the index is that of the site. -/
theorem internSite_denotes {fileName functionName : Option Text} {lineNumber : Int}
    {st : State lib}
    (h : (internSite fileName functionName lineNumber st).2.err.error = false) :
    let interned := internSite fileName functionName lineNumber st
    DenotesSite interned.2.model.sites.items interned.1 fileName functionName lineNumber := by
  dsimp only
  rw [internSite] at h ⊢
  dsimp only at h ⊢
  split
  · rename_i index hknown
    obtain ⟨hlt, hsite, -⟩ := List.findIdx?_eq_some_iff_getElem.1 hknown
    obtain ⟨⟨hline, hfile⟩, hfunction⟩ := SourceSite.isAt_iff.1 hsite
    exact ⟨_, List.getElem?_eq_getElem hlt, hline, by rw [hfile], by rw [hfunction]⟩
  · rename_i hknown
    rw [hknown] at h
    dsimp only at h
    obtain ⟨table, err, hitems, ⟨hgrown, herror⟩ | ⟨hgrown, -⟩⟩ :=
      @growTable_cases lib _ lib.sizeofSite st.model.sites st.err
    · rw [hgrown] at h
      exact absurd h (by simp [herror])
    · rw [hgrown] at h ⊢
      dsimp only at h ⊢
      obtain ⟨hfile, hfunctionCopy⟩ := dupText_ok h
      obtain ⟨-, hfileCopy⟩ := dupText_ok hfile
      rw [hfileCopy, hfunctionCopy]
      refine ⟨.mk (some (fileName.getD (lit ""))) (some (functionName.getD (lit ""))) lineNumber,
        ?_, rfl, rfl, rfl⟩
      simp only [Table.push_items, hitems, List.getElem?_concat_length]

/-- The report finding that `finalizeFinding` adds for a lifecycle finding. -/
structure MapsTo (resources : List ResourceEvent) (sites : List SourceSite)
    (source : LifecycleFinding) (finding : Finding) : Prop where
  kind : finding.kind = genericFindingKind source
  pid : finding.pid = source.pid
  resourceClass : finding.resourceClass = source.resourceClass
  resourceId : finding.resourceId = source.resourceId
  contextId : finding.contextId = source.contextId
  eventSequence : finding.eventSequence = source.sequence
  sequence : finding.sequence = findGenericSequence resources source false
  fd : finding.fd = ((findLifecycleEvent resources source).map (·.fd)).getD 0
  ptr : finding.ptr = (findLifecycleEvent resources source).bind (·.ptr)
  size : finding.size = ((findLifecycleEvent resources source).map (·.size)).getD 0
  previousSequence : finding.previousSequence =
    if source.previousSequence ≠ 0 then findGenericSequence resources source true else 0
  site : DenotesSite sites finding.site source.fileName source.functionName source.lineNumber
  previousSite : source.previousSequence ≠ 0 → DenotesSite sites finding.previousSite
    source.previousFileName source.previousFunctionName source.previousLineNumber

/-- A later site table. -/
theorem MapsTo.grown {resources : List ResourceEvent} {sites sites' : List SourceSite}
    {source : LifecycleFinding} {finding : Finding} (hgrown : sites <+: sites')
    (h : MapsTo resources sites source finding) : MapsTo resources sites' source finding :=
  { h with
    site := h.site.grown hgrown
    previousSite := fun hprevious => (h.previousSite hprevious).grown hgrown }

/-- What a finding takes over leaves the site table to the interning. -/
theorem addFindingInternal_siteTable (finding : Finding) (st : State lib) :
    (addFindingInternal finding st).model.sites = st.model.sites := by
  rw [addFindingInternal]
  split
  · rfl
  · dsimp only
    split <;> rfl

/-- A lifecycle finding only adds sites. -/
theorem finalizeFinding_grown (source : LifecycleFinding) (st : State lib) :
    st.model.sites.items <+: (finalizeFinding source st).model.sites.items := by
  have hsite := internSite_grown source.fileName source.functionName source.lineNumber st
  rw [finalizeFinding]
  dsimp only
  split
  · rw [addFindingInternal_siteTable]
    exact hsite.trans (internSite_grown ..)
  · rw [addFindingInternal_siteTable]
    exact hsite

/-- Without an error one finding is appended, the mapped one. -/
theorem finalizeFinding_tables (source : LifecycleFinding) (st : State lib)
    (h : (finalizeFinding source st).err.error = false) :
    st.err.error = false ∧
      ∃ finding, MapsTo st.model.resources.items (finalizeFinding source st).model.sites.items
          source finding ∧
        (finalizeFinding source st).model.tables =
          { st.model.tables with findings := st.model.tables.findings ++ [finding] } := by
  rw [finalizeFinding] at h ⊢
  obtain ⟨htables₁, herr₁⟩ :=
    internSite_tables source.fileName source.functionName source.lineNumber st
  have hsite := @internSite_denotes lib source.fileName source.functionName source.lineNumber st
  generalize internSite source.fileName source.functionName source.lineNumber st = interned
    at h htables₁ herr₁ hsite ⊢
  obtain ⟨site, st₁⟩ := interned
  dsimp only at h htables₁ herr₁ hsite ⊢
  have hresources : st₁.model.resources.items = st.model.resources.items :=
    congrArg Tables.resources htables₁
  rw [hresources] at h ⊢
  -- the site of the earlier record is interned only when there is one
  by_cases hprevious : source.previousSequence ≠ 0
  · rw [if_pos hprevious] at h ⊢
    obtain ⟨htables₂, herr₂⟩ := internSite_tables source.previousFileName
      source.previousFunctionName source.previousLineNumber st₁
    have hgrown := internSite_grown source.previousFileName source.previousFunctionName
      source.previousLineNumber st₁
    have hsite' := @internSite_denotes lib source.previousFileName source.previousFunctionName
      source.previousLineNumber st₁
    generalize internSite source.previousFileName source.previousFunctionName
      source.previousLineNumber st₁ = interned at h htables₂ herr₂ hgrown hsite' ⊢
    obtain ⟨previousSite, st₂⟩ := interned
    dsimp only at h htables₂ herr₂ hgrown hsite' ⊢
    obtain ⟨hmid, htables⟩ := addFindingInternal_tables _ st₂ h
    refine ⟨herr₁ (herr₂ hmid), _, ?_, by rw [htables, htables₂, htables₁]⟩
    have hresources' : st₂.model.resources.items = st.model.resources.items :=
      (congrArg Tables.resources htables₂).trans hresources
    rw [addFindingInternal_siteTable, hresources']
    have hdenotes := (hsite (herr₂ hmid)).grown hgrown
    have hdenotes' := hsite' hmid
    cases hfind : findLifecycleEvent st.model.resources.items source <;> constructor <;>
      simp only [hfind, if_pos hprevious, hdenotes, hdenotes', implies_true] <;> rfl
  · rw [if_neg hprevious] at h ⊢
    obtain ⟨hmid, htables⟩ := addFindingInternal_tables _ st₁ h
    refine ⟨herr₁ hmid, _, ?_, by rw [htables, htables₁]⟩
    rw [addFindingInternal_siteTable]
    have hdenotes := hsite hmid
    cases hfind : findLifecycleEvent st.model.resources.items source <;> constructor <;>
      simp only [hfind, hprevious, hdenotes, false_implies] <;> rfl

/-- A finding that could not be stored leaves the tables as they were. -/
theorem addFindingInternal_error (finding : Finding) (st : State lib)
    (h : (addFindingInternal finding st).err.error = true) :
    (addFindingInternal finding st).model.tables = st.model.tables := by
  rw [addFindingInternal] at h ⊢
  obtain ⟨table, err, hitems, ⟨hgrown, -⟩ | ⟨hgrown, -⟩⟩ :=
    @growTable_cases lib _ lib.sizeofFinding st.model.findings st.err
  · rw [hgrown]
    simp [ReportModel.tables, hitems]
  · rw [hgrown] at h ⊢
    dsimp only at h ⊢
    split at h
    · rename_i herror
      rw [if_pos herror]
      simp [ReportModel.tables, hitems]
    · rename_i herror
      exact absurd h herror

/-- With an error none is appended. -/
theorem finalizeFinding_error (source : LifecycleFinding) (st : State lib)
    (h : (finalizeFinding source st).err.error = true) :
    (finalizeFinding source st).model.tables = st.model.tables := by
  rw [finalizeFinding] at h ⊢
  have htables := (internSite_tables source.fileName source.functionName source.lineNumber st).1
  generalize internSite source.fileName source.functionName source.lineNumber st = interned
    at h htables ⊢
  obtain ⟨site, st₁⟩ := interned
  dsimp only at h htables ⊢
  split at h
  · rename_i hprevious
    rw [if_pos hprevious]
    have htables₂ := (internSite_tables source.previousFileName source.previousFunctionName
      source.previousLineNumber st₁).1
    exact (addFindingInternal_error _ _ h).trans (htables₂.trans htables)
  · rename_i hprevious
    rw [if_neg hprevious]
    exact (addFindingInternal_error _ _ h).trans htables

/-- After an error the loop does nothing. -/
theorem finalizeFindings_stopped {st : State lib} (h : st.err.error = true)
    (sources : List (Option LifecycleFinding)) : finalizeFindings sources st = st := by
  cases sources with
  | nil => rfl
  | cons source rest => cases source <;> rw [finalizeFindings, if_pos h]

/-- The loop only adds sites. -/
theorem finalizeFindings_grown (sources : List (Option LifecycleFinding)) (st : State lib) :
    st.model.sites.items <+: (finalizeFindings sources st).model.sites.items := by
  induction sources generalizing st with
  | nil => exact List.prefix_rfl
  | cons source rest ih =>
    cases source with
    | none =>
      rw [finalizeFindings]
      split <;> exact List.prefix_rfl
    | some source =>
      rw [finalizeFindings]
      split
      · exact List.prefix_rfl
      · exact (finalizeFinding_grown source st).trans (ih _)

/-- The loop stores a mapped finding for each finding of the library, up to the first error. -/
theorem finalizeFindings_prefix (sources : List (Option LifecycleFinding)) (st : State lib) :
    ∃ stored added, stored <+: readFindings sources ∧
      ((finalizeFindings sources st).err.error = false → stored = readFindings sources) ∧
      List.Forall₂ (MapsTo st.model.resources.items
        (finalizeFindings sources st).model.sites.items) stored added ∧
      (finalizeFindings sources st).model.tables =
        { st.model.tables with findings := st.model.tables.findings ++ added } := by
  have hnone : st.model.tables =
      { st.model.tables with findings := st.model.tables.findings ++ [] } := by
    rw [List.append_nil]
  induction sources generalizing st with
  | nil => exact ⟨[], [], List.nil_prefix, fun _ => rfl, .nil, hnone⟩
  | cons source rest ih =>
    by_cases herror : st.err.error = true
    · rw [finalizeFindings_stopped herror]
      exact ⟨[], [], List.nil_prefix, by simp [herror], .nil, hnone⟩
    · cases source with
      | none =>
        rw [finalizeFindings, if_neg herror]
        exact ⟨[], [], List.nil_prefix, fun hok => by simp [ErrState.raise] at hok,
          List.Forall₂.nil, hnone⟩
      | some source =>
        rw [finalizeFindings, if_neg herror]
        obtain ⟨stored, added, hprefix, hall, hadded, htables⟩ :=
          ih (finalizeFinding source st) (by rw [List.append_nil])
        by_cases hstep : (finalizeFinding source st).err.error = true
        · -- the loop stops here: the finding is not stored
          rw [finalizeFindings_stopped hstep]
          refine ⟨[], [], List.nil_prefix, by simp [hstep], .nil, ?_⟩
          rw [finalizeFinding_error source st hstep]
          exact hnone
        · obtain ⟨-, finding, hmaps, hfinding⟩ :=
            finalizeFinding_tables source st (Bool.eq_false_iff.2 hstep)
          have hresources : (finalizeFinding source st).model.resources.items =
              st.model.resources.items := congrArg Tables.resources hfinding
          rw [hresources] at hadded
          refine ⟨source :: stored, finding :: added, List.cons_prefix_cons.2 ⟨rfl, hprefix⟩, ?_,
            .cons (hmaps.grown (finalizeFindings_grown rest _)) hadded, ?_⟩
          · intro hok
            rw [hall hok, readFindings]
          · rw [htables, hfinding]
            simp

/-- The findings the library returns when the report finalizes it for the first time. -/
def returnedFindings (st : State lib) : List LifecycleFinding :=
  match st.model.genericLifecycle with
  | none => []
  | some lifecycle =>
    let finished := (lib.lifecycleFinish lifecycle st.err.allocations).value
    if st.model.genericFinalized ∨ finished.2 then [] else lib.lifecycleFindings finished.1

/-- The state in which the loop of `p101_report_finalize_generic` starts. -/
def loopStart (lifecycle : lib.Lifecycle) (st : State lib) : State lib :=
  let result := lib.lifecycleFinish lifecycle st.err.allocations
  { model := { st.model with genericLifecycle := some result.value.1 }
    err := st.err.after result }

/-- A second finalization, or one without a record, does nothing. -/
theorem finalizeGeneric_idle {st : State lib}
    (h : st.model.genericLifecycle = none ∨ st.model.genericFinalized = true) :
    finalizeGeneric st = st := by
  rw [finalizeGeneric]
  split
  · rfl
  · rename_i lifecycle hlifecycle
    rcases h with hnone | hfinalized
    · rw [hlifecycle] at hnone
      cases hnone
    · rw [if_pos hfinalized]

/-- A call that gets past the flag: the library cannot finish, or the loop runs, and sets the flag
when it has not failed. -/
theorem finalizeGeneric_runs {st : State lib} {lifecycle : lib.Lifecycle}
    (hlifecycle : st.model.genericLifecycle = some lifecycle)
    (hfinalized : st.model.genericFinalized = false) :
    let finished := (lib.lifecycleFinish lifecycle st.err.allocations).value
    let looped := finalizeFindings (lib.lifecycleFindingAt finished.1) (loopStart lifecycle st)
    (finished.2 = true ∧ finalizeGeneric st = loopStart lifecycle st) ∨
      (finished.2 = false ∧ (looped.err.error = true ∧ finalizeGeneric st = looped ∨
        looped.err.error = false ∧ finalizeGeneric st =
          { looped with model := { looped.model with genericFinalized := true } })) := by
  dsimp only
  rw [finalizeGeneric, hlifecycle]
  dsimp only
  rw [if_neg (by simp [hfinalized])]
  by_cases hfailed : (lib.lifecycleFinish lifecycle st.err.allocations).value.2 = true
  · rw [if_pos hfailed]
    exact Or.inl ⟨hfailed, rfl⟩
  · rw [if_neg hfailed]
    refine Or.inr ⟨by simpa using hfailed, ?_⟩
    split
    · exact Or.inl ⟨‹_›, rfl⟩
    · exact Or.inr ⟨by simpa using ‹¬_ = true›, rfl⟩

/-- What finalization does, and which findings of the library it means to store. -/
theorem finalizeGeneric_cases (st : State lib) :
    (returnedFindings st = [] ∧ finalizeGeneric st = st) ∨
      ∃ lifecycle,
        let finished := (lib.lifecycleFinish lifecycle st.err.allocations).value
        let looped := finalizeFindings (lib.lifecycleFindingAt finished.1) (loopStart lifecycle st)
        (returnedFindings st = [] ∧ finalizeGeneric st = loopStart lifecycle st) ∨
          (returnedFindings st = lib.lifecycleFindings finished.1 ∧
            (looped.err.error = true ∧ finalizeGeneric st = looped ∨
              looped.err.error = false ∧ finalizeGeneric st =
                { looped with model := { looped.model with genericFinalized := true } })) := by
  cases hlifecycle : st.model.genericLifecycle with
  | none =>
    refine Or.inl ⟨?_, finalizeGeneric_idle (Or.inl hlifecycle)⟩
    rw [returnedFindings, hlifecycle]
  | some lifecycle =>
    cases hfinalized : st.model.genericFinalized with
    | true =>
      refine Or.inl ⟨?_, finalizeGeneric_idle (Or.inr hfinalized)⟩
      rw [returnedFindings, hlifecycle]
      exact if_pos (Or.inl hfinalized)
    | false =>
      refine Or.inr ⟨lifecycle, ?_⟩
      rcases finalizeGeneric_runs hlifecycle hfinalized with ⟨hfailed, heq⟩ | ⟨hdone, heq⟩
      · refine Or.inl ⟨?_, heq⟩
        rw [returnedFindings, hlifecycle]
        exact if_pos (Or.inr hfailed)
      · refine Or.inr ⟨?_, heq⟩
        rw [returnedFindings, hlifecycle]
        exact if_neg (by simp [hfinalized, hdone])

theorem finalizeGeneric_prefix (st : State lib) :
    ∃ stored added, stored <+: returnedFindings st ∧
      ((finalizeGeneric st).err.error = false → stored = returnedFindings st) ∧
      List.Forall₂ (MapsTo st.model.resources.items (finalizeGeneric st).model.sites.items) stored
        added ∧
      (finalizeGeneric st).model.tables =
        { st.model.tables with findings := st.model.tables.findings ++ added } := by
  have hnone : st.model.tables =
      { st.model.tables with findings := st.model.tables.findings ++ [] } := by
    rw [List.append_nil]
  rcases finalizeGeneric_cases st with
    ⟨hreturned, heq⟩ | ⟨lifecycle, ⟨hreturned, heq⟩ | ⟨hreturned, hlooped⟩⟩
  · rw [hreturned, heq]
    exact ⟨[], [], List.nil_prefix, fun _ => rfl, .nil, hnone⟩
  · rw [hreturned, heq]
    exact ⟨[], [], List.nil_prefix, fun _ => rfl, .nil, hnone⟩
  · obtain ⟨stored, added, hprefix, hall, hadded, hfinal⟩ := finalizeFindings_prefix
      (lib.lifecycleFindingAt (lib.lifecycleFinish lifecycle st.err.allocations).value.1)
      (loopStart lifecycle st)
    rw [hreturned]
    -- the library's state and the flag of a finished finalization are no tables
    rcases hlooped with ⟨-, heq⟩ | ⟨-, heq⟩
    · rw [heq]
      exact ⟨stored, added, hprefix, hall, hadded, hfinal⟩
    · rw [heq]
      exact ⟨stored, added, hprefix, hall, hadded, hfinal⟩

theorem finalizeFindings_ok {sources : List (Option LifecycleFinding)} {st : State lib}
    (h : (finalizeFindings sources st).err.error = false) : st.err.error = false := by
  cases sources with
  | nil => exact h
  | cons source rest =>
    by_contra herror
    rw [finalizeFindings_stopped (Bool.eq_true_of_not_eq_false herror)] at h
    exact herror h

theorem finalizeGeneric_ok {st : State lib} (h : (finalizeGeneric st).err.error = false) :
    st.err.error = false := by
  rcases finalizeGeneric_cases st with
    ⟨-, heq⟩ | ⟨lifecycle, ⟨-, heq⟩ | ⟨-, ⟨herror, heq⟩ | ⟨hok, heq⟩⟩⟩
  · rwa [heq] at h
  · rw [heq] at h
    exact after_ok h
  · rw [heq, herror] at h
    cases h
  · exact after_ok (finalizeFindings_ok hok)

/-- An error-free finalization settles the pending execs and appends the mapped findings. -/
theorem finalizeLeaks_tables (st : State lib) (h : (finalizeLeaks st).err.error = false) :
    st.err.error = false ∧
      ∃ sources added, List.Forall₂ (MapsTo st.model.tables.settle.resources
          (finalizeLeaks st).model.sites.items) sources added ∧
        (finalizeLeaks st).model.tables =
          { st.model.tables.settle with
            findings := st.model.tables.settle.findings ++ added } := by
  rw [finalizeLeaks] at h ⊢
  obtain ⟨sources, added, -, -, hadded, htables⟩ :=
    finalizeGeneric_prefix (finishPending st.model.fds.items.length st)
  obtain ⟨hstart, hsettled⟩ := finishPending_tables _ st (finalizeGeneric_ok h)
  have hresources : (finishPending st.model.fds.items.length st).model.resources.items =
      st.model.tables.settle.resources := congrArg Tables.resources hsettled
  refine ⟨hstart, sources, added, hresources ▸ hadded, ?_⟩
  rw [htables, hsettled]
  rfl

end P101Report
