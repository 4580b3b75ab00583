import P101Report.Replay.Steps

/-!
# Pending marks, exec findings and the rollback walk

`ExecInv` relates the three things a failed exec attempt has to undo: the marks on live descriptors,
the findings already raised, and the stored records the backward walk reads. Its last clause is the
key one: a finding whose process has written only `EXEC` records since still has a descriptor of
that process pending. The invariant holds after every log with increasing sequences
(`execInv_run`), and the walk reaches a record exactly when it and all later records belong to the
attempt (`attemptWalk_le_iff`).
-/

set_option autoImplicit false

namespace P101Report

open SwapTable

/-! ## The backward walk -/

/-- The walk goes back from where it starts. -/
theorem attemptWalk_le (event : ResourceEvent) {earlier : List ResourceEvent} {start : Nat}
    (h : ∀ record ∈ earlier, record.sequence < start)
    (hsorted : earlier.Pairwise fun a b => b.sequence < a.sequence) :
    attemptWalk event earlier start ≤ start := by
  induction earlier generalizing start with
  | nil => exact le_rfl
  | cons candidate rest ih =>
    rw [attemptWalk]
    split
    · have hcandidate := h candidate (by simp)
      have hrest := ih (fun _ h => List.rel_of_pairwise_cons hsorted h) hsorted.of_cons
      omega
    · exact le_rfl

/-- The walk reaches a stored record exactly when that record and all later ones belong to the
attempt. -/
theorem attemptWalk_le_iff (event : ResourceEvent) {earlier : List ResourceEvent} {start q : Nat}
    (hstart : ∀ record ∈ earlier, record.sequence < start)
    (hsorted : earlier.Pairwise fun a b => b.sequence < a.sequence)
    (hq : ∃ record ∈ earlier, record.sequence = q) :
    attemptWalk event earlier start ≤ q ↔
      ∀ record ∈ earlier, q ≤ record.sequence → execAttemptMatches record event = true := by
  induction earlier generalizing start with
  | nil => exact absurd hq (by simp)
  | cons candidate rest ih =>
    have hlater : ∀ record ∈ rest, record.sequence < candidate.sequence :=
      fun _ h => List.rel_of_pairwise_cons hsorted h
    -- the records are read backwards, so the candidate is the latest of them
    have hqle : q ≤ candidate.sequence := by
      obtain ⟨record, hmem, rfl⟩ := hq
      rcases List.mem_cons.1 hmem with rfl | hrest
      · exact le_rfl
      · exact Nat.le_of_lt (hlater _ hrest)
    rw [attemptWalk]
    cases hmatch : execAttemptMatches candidate event with
    | false =>
      -- the walk stops in front of the candidate
      have hcandidate := hstart candidate (by simp)
      simp only [Bool.false_eq_true, if_false]
      constructor
      · intro h
        omega
      · intro h
        exact absurd (h candidate (by simp) hqle) (by simp [hmatch])
    | true =>
      rw [if_pos rfl]
      -- the walk goes on; either `q` is further back, or it is the candidate's position
      by_cases hrest : ∃ record ∈ rest, record.sequence = q
      · rw [ih hlater hsorted.of_cons hrest]
        simp [hmatch]
      · have hqeq : q = candidate.sequence := by
          obtain ⟨record, hmem, rfl⟩ := hq
          rcases List.mem_cons.1 hmem with rfl | hmem
          · rfl
          · exact absurd ⟨record, hmem, rfl⟩ hrest
        constructor
        · intro _ record hmem hle
          rcases List.mem_cons.1 hmem with rfl | hmem
          · exact hmatch
          · have := hlater record hmem
            omega
        · intro _
          rw [hqeq]
          exact attemptWalk_le event hlater hsorted.of_cons

namespace Tables

variable (inherits : Bool → Bool)

/-! ## The invariant -/

/-- The invariant of the exec bookkeeping. -/
structure ExecInv (t : Tables) : Prop where
  idle : ∀ fd ∈ t.fds, fd.execPending = 0 → fd.clear = fd
  sorted : t.resources.Pairwise fun a b => a.sequence < b.sequence
  raisedBy : ∀ finding ∈ t.findings, ∃ record ∈ t.resources, ∃ fd,
    finding = Finding.ofExec record fd
  pending : ∀ finding ∈ t.findings,
    (∀ record ∈ t.resources, finding.sequence < record.sequence → record.pid = finding.pid →
      record.kind = .exec) →
    ∃ fd ∈ t.fds, fd.pid = finding.pid ∧ fd.execPending ≠ 0

/-- The invariant holds of empty tables. -/
theorem execInv_empty : ExecInv empty where
  idle := by simp [empty]
  sorted := .nil
  raisedBy := by simp [empty]
  pending := by simp [empty]

theorem clear_of_clear (fd : LiveFd) : fd.clear.clear = fd.clear := rfl

/-- Whether a record lets the marks of a process stand: every record of another process does, and of
its own records only `EXEC`. -/
def KeepsMarks (pid : Int) (event : ResourceEvent) : Prop := event.pid = pid → event.kind = .exec

/-- The commit before such a record takes no entry of the process. -/
theorem mem_commitBefore_of_keepsMarks {t : Tables} {event : ResourceEvent} {fd : LiveFd}
    (hkeeps : KeepsMarks fd.pid event) (hfd : fd ∈ t.fds) : fd ∈ (t.commitBefore event).fds := by
  rw [commitBefore]
  split
  · rename_i hkind
    have hpid : fd.pid ≠ event.pid := fun h => hkind.1 (hkeeps h.symm)
    exact mem_finishExec.2 ⟨fd, hfd, finishVerdict_other hpid⟩
  · exact hfd

/-- The loop of a `FORK` record takes no entry away. -/
theorem mem_forkEntries {event : ResourceEvent} {closedFds : List ClosedFd}
    {parents fds : List LiveFd} {fd : LiveFd} (h : fd ∈ fds) :
    fd ∈ parents.foldl (forkEntry event closedFds) fds := by
  obtain ⟨added, heq⟩ := forkEntries_append event closedFds parents fds
  rw [heq]
  exact List.mem_append_left added h

/-- An entry after the loop of a `FORK` record is an older one or the child's copy of one. -/
theorem mem_forkEntries_cases {event : ResourceEvent} {closedFds : List ClosedFd}
    {parents fds : List LiveFd} {fd : LiveFd}
    (h : fd ∈ parents.foldl (forkEntry event closedFds) fds) :
    fd ∈ fds ∨ ∃ parent ∈ parents, fd = LiveFd.ofFork event parent := by
  induction parents generalizing fds with
  | nil => exact Or.inl h
  | cons parent rest ih =>
    rw [List.foldl_cons] at h
    rcases ih h with hfd | hcopy
    · rw [forkEntry] at hfd
      split at hfd
      · rcases List.mem_append.1 hfd with hold | hnew
        · exact Or.inl hold
        · exact Or.inr ⟨parent, List.mem_cons_self, List.mem_singleton.1 hnew⟩
      · exact Or.inl hfd
    · obtain ⟨copied, hcopied, heq⟩ := hcopy
      exact Or.inr ⟨copied, List.mem_cons_of_mem parent hcopied, heq⟩

/-- A pending descriptor stays pending under a record that lets the marks of its process stand. -/
theorem pending_ingestKind {t : Tables} {event : ResourceEvent} {fd : LiveFd}
    (hkeeps : KeepsMarks fd.pid event) (hfd : fd ∈ t.fds) (hpending : fd.execPending ≠ 0) :
    ∃ fd' ∈ (t.ingestKind inherits event).fds, fd'.pid = fd.pid ∧ fd'.execPending ≠ 0 := by
  have hsame : ∀ t' : Tables, fd ∈ t'.fds → ∃ fd' ∈ t'.fds, fd'.pid = fd.pid ∧
      fd'.execPending ≠ 0 := fun t' h => ⟨fd, h, rfl, hpending⟩
  rw [ingestKind]
  cases hkind : event.kind with
  | fdOpen => exact hsame _ (List.mem_append_left _ hfd)
  | fdClose =>
    -- a `CLOSE` of the process itself would have committed the exec
    have hpid : event.pid ≠ fd.pid := fun h => by simpa [hkind] using hkeeps h
    simp only [ingestFdClose]
    split
    · exact hsame _ (mem_removeFirst_of_neg hfd (by simp [LiveFd.isFor, Ne.symm hpid]))
    · exact hsame _ hfd
  | alloc => simp only [ingestAlloc]; split <;> exact hsame _ hfd
  | free => simp only [ingestFree]; split <;> exact hsame _ hfd
  | realloc => exact hsame _ hfd
  | fork => exact hsame _ (mem_forkEntries hfd)
  | spawn => exact hsame _ hfd
  | generic => exact hsame _ hfd
  | exec =>
    simp only [ingestExec]
    split
    · exact hsame _ hfd
    · cases hmatch : LiveFd.isFor event.pid event.fd fd with
      | false => exact hsame _ (mem_modifyFirst_of_neg hfd hmatch)
      | true =>
        -- the marked entry is pending whichever entry of the descriptor it is
        rcases modifyFirst_cases (LiveFd.isFor event.pid event.fd) (LiveFd.mark event) t.fds with
          ⟨hnone, -⟩ | ⟨pre, marked, post, -, hmarked, -, heq⟩
        · exact absurd (hnone fd hfd) (by simp [hmatch])
        · refine ⟨marked.mark event, by simp [heq], ?_, by simp [LiveFd.mark]⟩
          simp only [LiveFd.isFor, Bool.and_eq_true, beq_iff_eq] at hmatch hmarked
          simp [LiveFd.mark, hmatch.1, hmarked.1]
  | execFail =>
    have hpid : event.pid ≠ fd.pid := fun h => by simpa [hkind] using hkeeps h
    refine hsame _ (List.mem_map.2 ⟨fd, hfd, ?_⟩)
    rw [if_neg (by simp [Ne.symm hpid])]

/-- The same for the whole ingest of the record. -/
theorem pending_ingest {t : Tables} {event : ResourceEvent} {fd : LiveFd}
    (hkeeps : KeepsMarks fd.pid event) (hfd : fd ∈ t.fds) (hpending : fd.execPending ≠ 0) :
    ∃ fd' ∈ (t.ingest inherits event).fds, fd'.pid = fd.pid ∧ fd'.execPending ≠ 0 :=
  @pending_ingestKind inherits ((t.commitBefore event).store event) event fd hkeeps
    (mem_commitBefore_of_keepsMarks hkeeps hfd) hpending

/-- An entry that a commit leaves idle carries no marks. -/
theorem idle_finishExec {pid : Int} {endOfInput : Bool} {t : Tables}
    (h : ∀ fd ∈ t.fds, fd.execPending = 0 → fd.clear = fd) :
    ∀ fd ∈ (t.finishExec pid endOfInput).fds, fd.execPending = 0 → fd.clear = fd := by
  intro kept hkept hpending
  obtain ⟨fd, hfd, hverdict⟩ := mem_finishExec.1 hkept
  rcases finishVerdict_some hverdict with rfl | rfl
  · exact h kept hfd hpending
  · exact clear_of_clear fd

/-- Nor does one that the step of a kind leaves idle. -/
theorem idle_ingestKind {event : ResourceEvent} {t : Tables}
    (h : ∀ fd ∈ t.fds, fd.execPending = 0 → fd.clear = fd) :
    ∀ fd ∈ (t.ingestKind inherits event).fds, fd.execPending = 0 → fd.clear = fd := by
  rw [ingestKind]
  cases event.kind with
  | fdOpen =>
    intro fd hfd hpending
    rcases List.mem_append.1 hfd with hfd | hfd
    · exact h fd hfd hpending
    · -- a new entry carries no marks
      obtain rfl := List.mem_singleton.1 hfd
      rfl
  | fdClose =>
    simp only [ingestFdClose]
    split
    · exact fun fd hfd => h fd (mem_of_mem_removeFirst hfd)
    · exact h
  | alloc => simp only [ingestAlloc]; split <;> exact h
  | free => simp only [ingestFree]; split <;> exact h
  | realloc => exact h
  | fork =>
    intro fd hfd hpending
    rcases mem_forkEntries_cases hfd with hold | ⟨parent, -, rfl⟩
    · exact h fd hold hpending
    · rfl
  | spawn => exact h
  | generic => exact h
  | exec =>
    simp only [ingestExec]
    split
    · exact h
    · intro fd hfd hpending
      rcases mem_modifyFirst hfd with hfd | ⟨marked, -, -, rfl⟩
      · exact h fd hfd hpending
      · -- the marked entry is pending
        exact absurd hpending (by simp [LiveFd.mark])
  | execFail =>
    intro fd hfd hpending
    obtain ⟨old, hold, rfl⟩ := List.mem_map.1 hfd
    split
    · exact clear_of_clear old
    · rename_i hnot
      rw [if_neg hnot] at hpending
      exact h old hold hpending

/-- The findings after a record: those kept, and the one an `EXEC` record may raise about a
descriptor it has just marked. -/
theorem mem_findings_ingest {t : Tables} {event : ResourceEvent} {finding : Finding}
    (h : finding ∈ (t.ingest inherits event).findings) :
    finding ∈ t.findings ∨
      (event.kind = .exec ∧ ∃ fd ∈ t.fds, LiveFd.isFor event.pid event.fd fd = true ∧
        finding = Finding.ofExec event fd ∧ inherits (event.cloexec ≠ 0) = true ∧
        ∃ fd' ∈ (t.ingest inherits event).fds, fd'.pid = event.pid ∧ fd'.execPending ≠ 0) := by
  -- neither the commit nor the storing raises a finding
  have hbefore : ((t.commitBefore event).store event).findings = t.findings := by
    unfold commitBefore store
    split <;> rfl
  rw [ingest, ingestKind] at h ⊢
  cases hkind : event.kind with
  | fdClose =>
    simp only [hkind, ingestFdClose] at h
    split at h <;> exact Or.inl (hbefore ▸ h)
  | alloc =>
    simp only [hkind, ingestAlloc] at h
    split at h <;> exact Or.inl (hbefore ▸ h)
  | free =>
    simp only [hkind, ingestFree] at h
    split at h <;> exact Or.inl (hbefore ▸ h)
  | fdOpen => simp only [hkind, ingestFdOpen] at h; exact Or.inl (hbefore ▸ h)
  | realloc => simp only [hkind, ingestRealloc] at h; exact Or.inl (hbefore ▸ h)
  | fork => simp only [hkind, ingestFork] at h; exact Or.inl (hbefore ▸ h)
  | spawn => simp only [hkind] at h; exact Or.inl (hbefore ▸ h)
  | generic => simp only [hkind] at h; exact Or.inl (hbefore ▸ h)
  | execFail =>
    simp only [hkind, ingestExecFail, dropAttemptFindings] at h
    exact Or.inl (hbefore ▸ (List.mem_filter.1 h).1)
  | exec =>
    have hcommit : t.commitBefore event = t := by simp [commitBefore, hkind]
    simp only [hkind, hcommit, ingestExec, store] at h ⊢
    cases hfind : t.fds.find? (LiveFd.isFor event.pid event.fd) with
    | none =>
      simp only [hfind] at h
      exact Or.inl h
    | some fd =>
      simp only [hfind] at h ⊢
      rcases List.mem_append.1 h with h | h
      · exact Or.inl h
      · split at h
        · -- the finding is about the entry that the record has marked
          rename_i hinherits
          have hmem := List.mem_of_find?_eq_some hfind
          have hfor := List.find?_some hfind
          refine Or.inr ⟨trivial, fd, hmem, hfor, List.mem_singleton.1 h, hinherits, ?_⟩
          rcases modifyFirst_cases (LiveFd.isFor event.pid event.fd) (LiveFd.mark event) t.fds with
            ⟨hnone, -⟩ | ⟨pre, marked, post, -, hmarked, -, heq⟩
          · exact absurd (hnone fd hmem) (by simp [hfor])
          · refine ⟨marked.mark event, by simp [heq], ?_, by simp [LiveFd.mark]⟩
            simp only [LiveFd.isFor, Bool.and_eq_true, beq_iff_eq] at hmarked
            simp [LiveFd.mark, hmarked.1]
        · exact absurd h (by simp)

/-- Idle entries carry no marks after a record, when they carried none before it. -/
theorem idle_ingest {event : ResourceEvent} {t : Tables}
    (h : ∀ fd ∈ t.fds, fd.execPending = 0 → fd.clear = fd) :
    ∀ fd ∈ (t.ingest inherits event).fds, fd.execPending = 0 → fd.clear = fd := by
  apply idle_ingestKind
  unfold commitBefore store
  split
  · exact idle_finishExec h
  · exact h

/-- One record keeps the invariant. -/
theorem execInv_ingest {t : Tables} {event : ResourceEvent} (hinv : ExecInv t)
    (hnext : ∀ record ∈ t.resources, record.sequence < event.sequence) :
    ExecInv (t.ingest inherits event) where
  idle := idle_ingest inherits hinv.idle
  sorted := by
    rw [ingest_resources, List.pairwise_append]
    exact ⟨hinv.sorted, List.pairwise_singleton _ _, by simpa using hnext⟩
  raisedBy := by
    intro finding hfinding
    rw [ingest_resources]
    rcases mem_findings_ingest inherits hfinding with hold | ⟨-, fd, -, -, rfl, -⟩
    · obtain ⟨record, hrecord, hraised⟩ := hinv.raisedBy finding hold
      exact ⟨record, by simp [hrecord], hraised⟩
    · exact ⟨event, by simp, fd, rfl⟩
  pending := by
    intro finding hfinding honly
    rw [ingest_resources] at honly
    rcases mem_findings_ingest inherits hfinding with hold | ⟨-, fd, -, -, rfl, -, hpending⟩
    · -- an older finding: its pending entry survives, for the record is an `EXEC` or of another
      -- process
      have hlater : finding.sequence < event.sequence := by
        obtain ⟨record, hrecord, fd, rfl⟩ := hinv.raisedBy finding hold
        exact hnext record hrecord
      obtain ⟨fd, hfd, hpid, hfdpending⟩ :=
        hinv.pending finding hold fun r hr => honly r (by simp [hr])
      have hkeeps : KeepsMarks fd.pid event := fun h =>
        honly event (by simp) hlater (h.trans hpid)
      obtain ⟨fd', hfd', hpid', hpending'⟩ := pending_ingest inherits hkeeps hfd hfdpending
      exact ⟨fd', hfd', hpid'.trans hpid, hpending'⟩
    · exact hpending

/-- The invariant holds after every log with increasing sequences. -/
theorem execInv_run {t : Tables} {log : List ResourceEvent} (hinv : ExecInv t)
    (hsorted : (t.resources ++ log).Pairwise fun a b => a.sequence < b.sequence) :
    ExecInv (t.run inherits log) := by
  induction log generalizing t with
  | nil => exact hinv
  | cons event rest ih =>
    rw [run_cons]
    apply ih
    · apply execInv_ingest inherits hinv
      intro record hrecord
      exact (List.pairwise_append.1 hsorted).2.2 record hrecord event (by simp)
    · simpa using hsorted

theorem execInv_number (log : List ResourceEvent) : ExecInv (empty.run inherits (number log)) :=
  execInv_run inherits execInv_empty (by simpa [empty] using number_pairwise log)

end Tables

end P101Report
