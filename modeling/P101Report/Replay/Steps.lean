import P101Report.Library.Runs
import P101Report.Replay.Refinement

/-!
# What one record does to the tables

Step lemmas for `Tables.ingest`: which tables a record can change, what the commit of a process does
to the live table up to order, and the numbering of a log by its positions.
-/

set_option autoImplicit false

namespace P101Report

open SwapTable Runs

/-! ## Numbered logs -/

/-- The records numbered from `n + 1` on, as the reader numbers them. -/
def numberFrom (n : Nat) : List ResourceEvent → List ResourceEvent
  | [] => []
  | event :: rest => { event with sequence := n + 1 } :: numberFrom (n + 1) rest

/-- The log as the reader ingests it: every record carries its 1-based position. -/
def number (log : List ResourceEvent) : List ResourceEvent := numberFrom 0 log

@[simp] theorem numberFrom_length (n : Nat) (log : List ResourceEvent) :
    (numberFrom n log).length = log.length := by
  induction log generalizing n with
  | nil => rfl
  | cons event rest ih => simp [numberFrom, ih]

@[simp] theorem number_length (log : List ResourceEvent) : (number log).length = log.length :=
  numberFrom_length 0 log

theorem numberFrom_append (n : Nat) (pre post : List ResourceEvent) :
    numberFrom n (pre ++ post) = numberFrom n pre ++ numberFrom (n + pre.length) post := by
  induction pre generalizing n with
  | nil => rfl
  | cons event rest ih =>
    simp only [List.cons_append, numberFrom, ih, List.length_cons]
    rw [Nat.add_assoc, Nat.add_comm 1]

theorem number_append (pre post : List ResourceEvent) :
    number (pre ++ post) = number pre ++ numberFrom pre.length post := by
  rw [number, numberFrom_append, Nat.zero_add]
  rfl

theorem numberFrom_concat (n : Nat) (log : List ResourceEvent) (last : ResourceEvent) :
    numberFrom n (log ++ [last]) =
      numberFrom n log ++ [{ last with sequence := n + log.length + 1 }] :=
  numberFrom_append n log [last]

/-- A numbered record is a record of the log with its position. -/
theorem mem_numberFrom {n : Nat} {log : List ResourceEvent} {event : ResourceEvent}
    (h : event ∈ numberFrom n log) :
    (n < event.sequence ∧ event.sequence ≤ n + log.length) ∧
      ∃ record ∈ log, event = { record with sequence := event.sequence } := by
  induction log generalizing n with
  | nil => exact absurd h (by simp [numberFrom])
  | cons record rest ih =>
    rw [numberFrom, List.mem_cons] at h
    rcases h with rfl | h
    · -- the head has the next position
      exact ⟨⟨by simp, by simp⟩, record, by simp, rfl⟩
    · obtain ⟨⟨hlow, hhigh⟩, found, hfound, heq⟩ := ih h
      refine ⟨⟨by omega, ?_⟩, found, by simp [hfound], heq⟩
      simp only [List.length_cons]
      omega

/-- What holds of the records of a log, whatever their positions, holds of the numbered ones. -/
theorem forall_numberFrom {p : ResourceEvent → Prop}
    (hp : ∀ event position, p event → p { event with sequence := position }) (n : Nat)
    {log : List ResourceEvent} (h : ∀ event ∈ log, p event) :
    ∀ event ∈ numberFrom n log, p event := by
  intro event hevent
  obtain ⟨-, record, hrecord, heq⟩ := mem_numberFrom hevent
  rw [heq]
  exact hp record event.sequence (h record hrecord)

/-- The sequences of a numbered log increase strictly. -/
theorem numberFrom_pairwise (n : Nat) (log : List ResourceEvent) :
    (numberFrom n log).Pairwise fun a b => a.sequence < b.sequence := by
  induction log generalizing n with
  | nil => exact .nil
  | cons event rest ih =>
    refine .cons ?_ (ih (n + 1))
    intro later hlater
    exact (mem_numberFrom hlater).1.1

theorem number_pairwise (log : List ResourceEvent) :
    (number log).Pairwise fun a b => a.sequence < b.sequence :=
  numberFrom_pairwise 0 log

/-- Every record of the log is among the numbered ones. -/
theorem exists_mem_numberFrom (n : Nat) {log : List ResourceEvent} {record : ResourceEvent}
    (h : record ∈ log) : ∃ position, { record with sequence := position } ∈ numberFrom n log := by
  induction log generalizing n with
  | nil => cases h
  | cons first rest ih =>
    rcases List.mem_cons.1 h with rfl | hrest
    · exact ⟨n + 1, by simp [numberFrom]⟩
    · obtain ⟨position, hposition⟩ := ih (n + 1) hrest
      exact ⟨position, List.mem_cons_of_mem _ hposition⟩

theorem mem_number {log : List ResourceEvent} {event : ResourceEvent} (h : event ∈ number log) :
    (0 < event.sequence ∧ event.sequence ≤ log.length) ∧
      ∃ record ∈ log, event = { record with sequence := event.sequence } := by
  simpa using mem_numberFrom h

/-- A position of a sorted list is that of one record. -/
theorem eq_of_sequence_eq {resources : List ResourceEvent}
    (hsorted : resources.Pairwise fun a b => a.sequence < b.sequence) {x y : ResourceEvent}
    (hx : x ∈ resources) (hy : y ∈ resources) (h : x.sequence = y.sequence) : x = y := by
  have hdistinct : resources.Pairwise fun a b => a.sequence ≠ b.sequence :=
    hsorted.imp fun h => Nat.ne_of_lt h
  have : Std.Symm fun a b : ResourceEvent => a.sequence ≠ b.sequence := ⟨fun _ _ h => h.symm⟩
  by_contra hne
  exact hdistinct.forall hx hy hne h

/-! ## Error-free runs from empty tables -/

section Fresh

variable {lib : ToolEventLib} {st : State lib}

theorem tables_of_fresh (hfresh : st.model.tables = Tables.empty) {log : List ResourceEvent}
    (hok : (ingestLog st (number log)).err.error = false) :
    (ingestLog st (number log)).model.tables =
      Tables.empty.run lib.execInherits (number log) := by
  rw [← hfresh]
  exact (ingestLog_tables (number log) st hok).2

/-- An error-free log has error-free beginnings. -/
theorem ok_of_append {pre post : List ResourceEvent}
    (hok : (ingestLog st (number (pre ++ post))).err.error = false) :
    (ingestLog st (number pre)).err.error = false := by
  rw [number_append, ingestLog_append] at hok
  exact (ingestLog_tables _ _ hok).1

/-- An error-free log has the replayed tables after each of its beginnings. -/
theorem tables_of_beginning (hfresh : st.model.tables = Tables.empty)
    {log pre post : List ResourceEvent} (hok : (ingestLog st log).err.error = false)
    (hsplit : log = pre ++ post) :
    (ingestLog st pre).model.tables = Tables.empty.run lib.execInherits pre := by
  rw [hsplit, ingestLog_append] at hok
  obtain ⟨hpre, -⟩ := ingestLog_tables post _ hok
  rw [← hfresh]
  exact (ingestLog_tables pre st hpre).2

/-- The states before and after one record of an error-free run. -/
theorem tables_at_record (hfresh : st.model.tables = Tables.empty)
    {log pre post : List ResourceEvent} {event : ResourceEvent}
    (hok : (ingestLog st (number log)).err.error = false)
    (hsplit : number log = pre ++ event :: post) :
    (ingestLog st pre).model.tables = Tables.empty.run lib.execInherits pre ∧
      (ingestLog st (pre ++ [event])).model.tables =
        (Tables.empty.run lib.execInherits pre).ingest lib.execInherits event ∧
      (pre ++ [event]).Pairwise fun a b => a.sequence < b.sequence := by
  have hlog : number log = (pre ++ [event]) ++ post := by rw [hsplit, List.append_cons]
  refine ⟨tables_of_beginning hfresh hok hsplit, ?_, ?_⟩
  · apply (tables_of_beginning hfresh hok hlog).trans
    exact Tables.run_append lib.execInherits Tables.empty pre [event]
  · have hsorted := number_pairwise log
    rw [hlog] at hsorted
    exact (List.pairwise_append.1 hsorted).1

end Fresh

/-- Settling the pending execs changes the descriptors only. -/
theorem Tables.finishPending_frame (fuel : Nat) (t : Tables) :
    ∃ fds closedFds, t.finishPending fuel = { t with fds, closedFds } := by
  induction fuel generalizing t with
  | zero => exact ⟨t.fds, t.closedFds, rfl⟩
  | succ fuel ih =>
    rw [finishPending]
    split
    · exact ⟨t.fds, t.closedFds, rfl⟩
    · obtain ⟨fds, closedFds, heq⟩ := ih (t.finishExec _ true)
      exact ⟨fds, closedFds, heq⟩

@[simp] theorem Tables.settle_resources (t : Tables) : t.settle.resources = t.resources := by
  obtain ⟨_, _, heq⟩ := finishPending_frame t.fds.length t
  rw [settle, heq]

@[simp] theorem Tables.settle_findings (t : Tables) : t.settle.findings = t.findings := by
  obtain ⟨_, _, heq⟩ := finishPending_frame t.fds.length t
  rw [settle, heq]

@[simp] theorem Tables.settle_allocs (t : Tables) : t.settle.allocs = t.allocs := by
  obtain ⟨_, _, heq⟩ := finishPending_frame t.fds.length t
  rw [settle, heq]

namespace Tables

variable (inherits : Bool → Bool)

/-! ## The stored events -/

@[simp] theorem commitBefore_resources (event : ResourceEvent) (t : Tables) :
    (t.commitBefore event).resources = t.resources := by
  rw [commitBefore]
  split <;> rfl

@[simp] theorem ingestKind_resources (event : ResourceEvent) (t : Tables) :
    (t.ingestKind inherits event).resources = t.resources := by
  rw [ingestKind]
  cases event.kind with
  | fdClose => simp only [ingestFdClose]; split <;> rfl
  | alloc => simp only [ingestAlloc]; split <;> rfl
  | free => simp only [ingestFree]; split <;> rfl
  | exec => simp only [ingestExec]; split <;> rfl
  | _ => rfl

@[simp] theorem ingest_resources (t : Tables) (event : ResourceEvent) :
    (t.ingest inherits event).resources = t.resources ++ [event] := by
  simp [ingest, store]

@[simp] theorem run_resources (t : Tables) (log : List ResourceEvent) :
    (t.run inherits log).resources = t.resources ++ log := by
  induction log generalizing t with
  | nil => simp
  | cons event rest ih => simp [ih]

/-- After a numbered log the stored events are the log. -/
theorem run_number_resources (log : List ResourceEvent) :
    (empty.run inherits (number log)).resources = number log := by
  simp [empty]

/-! ## The commit of a process -/

@[simp] theorem finishExec_resources (pid : Int) (endOfInput : Bool) (t : Tables) :
    (t.finishExec pid endOfInput).resources = t.resources := rfl

@[simp] theorem finishExec_findings (pid : Int) (endOfInput : Bool) (t : Tables) :
    (t.finishExec pid endOfInput).findings = t.findings := rfl

@[simp] theorem finishExec_allocs (pid : Int) (endOfInput : Bool) (t : Tables) :
    (t.finishExec pid endOfInput).allocs = t.allocs := rfl

@[simp] theorem finishExec_freedAllocs (pid : Int) (endOfInput : Bool) (t : Tables) :
    (t.finishExec pid endOfInput).freedAllocs = t.freedAllocs := rfl

theorem finishExec_fds_perm (pid : Int) (endOfInput : Bool) (t : Tables) :
    (t.finishExec pid endOfInput).fds.Perm (t.fds.filterMap (finishVerdict pid endOfInput)) :=
  (sweep_perm _ _).1

/-- The entries after a commit are those that it has kept or cleared. -/
theorem mem_finishExec {pid : Int} {endOfInput : Bool} {t : Tables} {kept : LiveFd} :
    kept ∈ (t.finishExec pid endOfInput).fds ↔
      ∃ fd ∈ t.fds, finishVerdict pid endOfInput fd = some kept := by
  rw [(finishExec_fds_perm pid endOfInput t).mem_iff, List.mem_filterMap]

/-- The descriptors a commit closes, up to order. -/
theorem finishExec_closedFds (pid : Int) (endOfInput : Bool) (t : Tables) :
    ∃ removed, removed.Perm (t.fds.filter fun fd => (finishVerdict pid endOfInput fd).isNone) ∧
      (t.finishExec pid endOfInput).closedFds = t.closedFds ++ closedByExec removed :=
  ⟨_, (sweep_perm _ _).2, rfl⟩

theorem finishVerdict_other {pid : Int} {endOfInput : Bool} {fd : LiveFd} (h : fd.pid ≠ pid) :
    finishVerdict pid endOfInput fd = some fd := by
  simp [finishVerdict, h]

/-- An entry that a commit keeps is the entry itself or the entry with its marks cleared. -/
theorem finishVerdict_some {pid : Int} {endOfInput : Bool} {fd kept : LiveFd}
    (h : finishVerdict pid endOfInput fd = some kept) : kept = fd ∨ kept = fd.clear := by
  rw [finishVerdict] at h
  split at h
  · exact Or.inl (Option.some.inj h).symm
  · split at h
    · cases h
    · split at h
      · cases h
      · exact Or.inr (Option.some.inj h).symm

/-- What the marks of an entry cleared for one process look like. -/
def clearFor (pid : Int) (fd : LiveFd) : LiveFd :=
  if fd.pid = pid ∧ fd.execPending ≠ 0 then fd.clear else fd

theorem clearFor_clear (pid : Int) (fd : LiveFd) : (clearFor pid fd).clear = fd.clear := by
  rw [clearFor]
  split <;> rfl

theorem clearPending_eq_map (pid : Int) (fds : List LiveFd) :
    clearPending pid fds = fds.map (clearFor pid) := rfl

theorem clearPending_of_idle {pid : Int} {fds : List LiveFd}
    (hidle : ∀ fd ∈ fds, fd.pid = pid → fd.execPending = 0) : clearPending pid fds = fds := by
  rw [clearPending_eq_map]
  apply (List.map_congr_left ?_).trans (List.map_id fds)
  intro fd hfd
  rw [clearFor, if_neg]
  · rfl
  · rintro ⟨hpid, hpending⟩
    exact hpending (hidle fd hfd hpid)

/-- A commit with no close-on-exec descriptor pending only clears marks. -/
theorem finishExec_of_no_cloexec (pid : Int) (t : Tables)
    (h : ∀ fd ∈ t.fds, fd.pid = pid → fd.execPending ≠ 0 → fd.execCloexec = 0) :
    t.finishExec pid false = { t with fds := clearPending pid t.fds } := by
  have hverdict : ∀ fd ∈ t.fds, finishVerdict pid false fd = some (clearFor pid fd) := by
    intro fd hfd
    unfold finishVerdict clearFor
    -- the hypothesis excludes the one verdict that removes an entry
    by_cases hpid : fd.pid = pid
    · by_cases hpending : fd.execPending = 0
      · simp [hpending]
      · simp [hpid, hpending, h fd hfd hpid hpending]
    · simp [hpid]
  have hsweep := sweep_of_some [] t.fds hverdict
  simp only [List.nil_append] at hsweep
  simp only [finishExec, finishExecLoop, hsweep, closedByExec, List.filter_nil, List.map_nil,
    List.append_nil, clearPending_eq_map]

/-! ## One record, by kind -/

/-- The finding an `EXEC` record raises on a live table, if any. -/
def raised (event : ResourceEvent) (fds : List LiveFd) : List Finding :=
  match fds.find? (LiveFd.isFor event.pid event.fd) with
  | none => []
  | some fd => if inherits (event.cloexec ≠ 0) then [Finding.ofExec event fd] else []

theorem mem_raised {event : ResourceEvent} {fds : List LiveFd} {finding : Finding}
    (h : finding ∈ raised inherits event fds) :
    ∃ fd ∈ fds, LiveFd.isFor event.pid event.fd fd = true ∧ finding = Finding.ofExec event fd := by
  rw [raised] at h
  split at h
  · cases h
  · rename_i fd hfind
    split at h
    · exact ⟨fd, List.mem_of_find?_eq_some hfind, List.find?_some hfind, List.mem_singleton.1 h⟩
    · cases h

/-- An `EXEC` record marks the first entry of its descriptor. -/
theorem ingest_exec {event : ResourceEvent} (hkind : event.kind = .exec) (t : Tables) :
    t.ingest inherits event =
      { t with
        resources := t.resources ++ [event]
        fds := modifyFirst (LiveFd.isFor event.pid event.fd) (LiveFd.mark event) t.fds
        findings := t.findings ++ raised inherits event t.fds } := by
  -- an `EXEC` record commits nothing, for it may belong to the pending attempt
  have hcommit : t.commitBefore event = t := by simp [commitBefore, hkind]
  simp only [ingest, ingestKind, hkind, hcommit, ingestExec, store, raised]
  cases hfind : t.fds.find? (LiveFd.isFor event.pid event.fd) with
  | none =>
    have hnone : ∀ fd ∈ t.fds, LiveFd.isFor event.pid event.fd fd = false := by
      simpa using List.find?_eq_none.1 hfind
    simp [modifyFirst_of_none hnone]
  | some fd => rfl

/-- An `EXECFAIL` record clears the marks of its process and drops the findings of its attempt. -/
theorem ingest_execFail {event : ResourceEvent} (hkind : event.kind = .execFail) (t : Tables) :
    t.ingest inherits event =
      { t with
        resources := t.resources ++ [event]
        fds := clearPending event.pid t.fds
        findings := dropAttemptFindings event
          (attemptWalk event t.resources.reverse event.sequence) t.findings } := by
  -- the walk starts behind the record itself, which is stored already
  have hcommit : t.commitBefore event = t := by simp [commitBefore, hkind]
  simp only [ingest, ingestKind, hkind, hcommit, ingestExecFail, store, firstSequenceOf,
    List.dropLast_concat]

/-- A `SPAWN` record only commits its process. -/
theorem ingest_spawn {event : ResourceEvent} (hkind : event.kind = .spawn) (t : Tables) :
    t.ingest inherits event = (t.finishExec event.pid false).store event := by
  simp [ingest, ingestKind, hkind, commitBefore]

/-- An `OPEN` record adds an entry, whatever is live. -/
theorem ingest_fdOpen {event : ResourceEvent} (hkind : event.kind = .fdOpen) (t : Tables) :
    t.ingest inherits event =
      { t.finishExec event.pid false with
        resources := t.resources ++ [event]
        fds := (t.finishExec event.pid false).fds ++ [LiveFd.ofOpen event] } := by
  simp [ingest, ingestKind, hkind, commitBefore, ingestFdOpen, store]

/-- A `CLOSE` record removes the first entry of its descriptor, if any. -/
theorem ingest_fdClose {event : ResourceEvent} (hkind : event.kind = .fdClose) (t : Tables) :
    t.ingest inherits event =
      { t.finishExec event.pid false with
        resources := t.resources ++ [event]
        fds := removeFirst (LiveFd.isFor event.pid event.fd) (t.finishExec event.pid false).fds
        closedFds := (t.finishExec event.pid false).closedFds ++
          if (t.finishExec event.pid false).fds.any (LiveFd.isFor event.pid event.fd) then
            [ClosedFd.ofClose event]
          else [] } := by
  simp only [ingest, ingestKind, hkind, commitBefore, ne_eq, reduceCtorEq, not_false_eq_true,
    and_self, if_true, ingestFdClose, store]
  split
  · rfl
  · -- no live entry: the `CLOSE` only becomes a stored record
    rename_i hnone
    have hsame : removeFirst (LiveFd.isFor event.pid event.fd) (t.finishExec event.pid false).fds =
        (t.finishExec event.pid false).fds := by
      apply removeFirst_of_none
      simpa using hnone
    rw [hsame, List.append_nil]
    rfl

/-- The other kinds but `FORK` leave the descriptors as the commit left them. -/
theorem ingest_of_memory (event : ResourceEvent)
    (hkind : event.kind ∈ [.alloc, .free, .realloc, .spawn, .generic]) (t : Tables) :
    ∃ allocs freedAllocs, t.ingest inherits event =
      { t.finishExec event.pid false with
        resources := t.resources ++ [event], allocs, freedAllocs } := by
  simp only [List.mem_cons, List.not_mem_nil, or_false] at hkind
  -- `ALLOC` and `FREE` branch on the pointer, the other three do not
  rcases hkind with hkind | hkind | hkind | hkind | hkind <;>
    simp only [ingest, ingestKind, hkind, commitBefore, ne_eq, reduceCtorEq, not_false_eq_true,
      and_self, if_true, ingestAlloc, ingestFree, ingestRealloc]
  · split <;> exact ⟨_, _, rfl⟩
  · split <;> exact ⟨_, _, rfl⟩
  all_goals exact ⟨_, _, rfl⟩

/-- A `FORK` record adds entries of the child for the descriptors of the parent. -/
theorem ingest_fork {event : ResourceEvent} (hkind : event.kind = .fork) (t : Tables) :
    t.ingest inherits event =
      { t.finishExec event.pid false with
        resources := t.resources ++ [event]
        fds := (t.finishExec event.pid false).fds.foldl
          (forkEntry event (t.finishExec event.pid false).closedFds)
          (t.finishExec event.pid false).fds } := by
  simp [ingest, ingestKind, hkind, commitBefore, ingestFork, store]

end Tables

/-! ## Conditions on every step -/

/-- Along an error-free run, a condition on the tables before each step can be read off the replay
of the tables. -/
theorem everyStep_tables {lib : ToolEventLib} {ok : Tables → ResourceEvent → Prop}
    {st : State lib} {log : List ResourceEvent} (hok : (ingestLog st log).err.error = false) :
    EveryStep ingestResource (fun st event => ok st.model.tables event) st log ↔
      EveryStep (Tables.ingest lib.execInherits) ok st.model.tables log := by
  induction log generalizing st with
  | nil => rfl
  | cons event rest ih =>
    obtain ⟨hstep, -⟩ := ingestLog_tables rest (ingestResource st event) hok
    obtain ⟨-, htables⟩ := ingestResource_tables event st hstep
    rw [EveryStep.cons, EveryStep.cons, ih hok, htables]

/-- Along a numbered log every record is numbered behind the stored ones. -/
theorem everyStep_numberFrom (inherits : Bool → Bool) {t : Tables} {n : Nat}
    (hn : ∀ record ∈ t.resources, record.sequence ≤ n) (log : List ResourceEvent) :
    EveryStep (Tables.ingest inherits)
      (fun t event => ∀ record ∈ t.resources, record.sequence < event.sequence) t
      (numberFrom n log) := by
  induction log generalizing t n with
  | nil => trivial
  | cons event rest ih =>
    refine ⟨fun record hrecord => Nat.lt_succ_of_le (hn record hrecord), ih ?_⟩
    intro record hrecord
    rw [Tables.ingest_resources, List.mem_append, List.mem_singleton] at hrecord
    rcases hrecord with h | rfl
    · exact Nat.le_succ_of_le (hn record h)
    · exact le_rfl

theorem everyStep_number (inherits : Bool → Bool) (log : List ResourceEvent) :
    EveryStep (Tables.ingest inherits)
      (fun t event => ∀ record ∈ t.resources, record.sequence < event.sequence) Tables.empty
      (number log) :=
  everyStep_numberFrom inherits (by simp [Tables.empty]) log

/-- After a log finalized without error the stored events are the log, and the live tables are those
of the replay with its pending execs settled. -/
theorem finalizeLeaks_of_fresh {lib : ToolEventLib} {st : State lib}
    (hfresh : st.model.tables = Tables.empty) {log : List ResourceEvent}
    (hok : (finalizeLeaks (ingestLog st (number log))).err.error = false) :
    (ingestLog st (number log)).err.error = false ∧
      (finalizeLeaks (ingestLog st (number log))).model.resources.items = number log ∧
      (finalizeLeaks (ingestLog st (number log))).model.fds.items =
        (Tables.empty.run lib.execInherits (number log)).settle.fds ∧
      (finalizeLeaks (ingestLog st (number log))).model.allocs.items =
        (Tables.empty.run lib.execInherits (number log)).allocs := by
  obtain ⟨hingest, _, added, -, hfinal⟩ := finalizeLeaks_tables _ hok
  rw [tables_of_fresh hfresh hingest] at hfinal
  refine ⟨hingest, ?_, congrArg Tables.fds hfinal, ?_⟩
  · apply (congrArg Tables.resources hfinal).trans
    exact (Tables.settle_resources _).trans (Tables.run_number_resources lib.execInherits log)
  · apply (congrArg Tables.allocs hfinal).trans
    exact Tables.settle_allocs _

end P101Report
