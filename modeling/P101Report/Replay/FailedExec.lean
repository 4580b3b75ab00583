import P101Report.Model.Lifecycle
import P101Report.Replay.ExecMarks

/-!
# Failed exec attempts

`failedAttempt` computes what an attempt and its `EXECFAIL` record do together: the marks of the
process are cleared, the findings whose process has written nothing but this attempt since are
dropped, and every other table is left alone. From a state in which the process has nothing pending
this is no change at all. An earlier attempt that succeeded is committed only by a record between
the two attempts, so without one the `EXECFAIL` record undoes its marks as well, and its findings
when they belong to the same contiguous run.
-/

set_option autoImplicit false

namespace P101Report

open SwapTable

/-! ## Attempts -/

/-- The snapshot records of the exec attempt that a record reports as failed. -/
def IsAttempt (fail : ResourceEvent) (attempt : List ResourceEvent) : Prop :=
  ∀ event ∈ attempt, event.kind = .exec ∧ event.pid = fail.pid ∧ event.site = fail.site ∧
    event.target = fail.target

instance (fail : ResourceEvent) (attempt : List ResourceEvent) :
    Decidable (IsAttempt fail attempt) := inferInstanceAs (Decidable (∀ _ ∈ _, _))

theorem execAttemptMatches_iff {candidate event : ResourceEvent} :
    execAttemptMatches candidate event = true ↔
      (candidate.kind = .exec ∧ candidate.pid = event.pid ∧ candidate.site = event.site ∧
        candidate.target = event.target) ∧ event.target.isSome = true := by
  simp only [execAttemptMatches, Bool.and_eq_true, beq_iff_eq]
  constructor
  · rintro ⟨⟨⟨⟨⟨hkind, hpid⟩, hsite⟩, -⟩, hsome⟩, htarget⟩
    exact ⟨⟨hkind, hpid, hsite, htarget⟩, hsome⟩
  · rintro ⟨⟨hkind, hpid, hsite, htarget⟩, hsome⟩
    exact ⟨⟨⟨⟨⟨hkind, hpid⟩, hsite⟩, htarget ▸ hsome⟩, hsome⟩, htarget⟩

/-- The records of an attempt keep matching its failure under any numbering. -/
theorem IsAttempt.numberFrom {fail : ResourceEvent} {attempt : List ResourceEvent}
    (h : IsAttempt fail attempt) (n m : Nat) :
    IsAttempt { fail with sequence := m } (numberFrom n attempt) :=
  forall_numberFrom (fun _ _ h => h) n h

namespace Tables

variable (inherits : Bool → Bool)

/-! ## The findings that a failure drops -/

/-- Whether every record stored since a finding was raised belongs to the failed attempt. -/
def inAttempt (fail : ResourceEvent) (resources : List ResourceEvent) (finding : Finding) : Bool :=
  resources.all fun record =>
    decide (finding.sequence ≤ record.sequence → execAttemptMatches record fail = true)

theorem inAttempt_iff {fail : ResourceEvent} {resources : List ResourceEvent} {finding : Finding} :
    inAttempt fail resources finding = true ↔
      ∀ record ∈ resources, finding.sequence ≤ record.sequence →
        execAttemptMatches record fail = true := by
  simp only [inAttempt, List.all_eq_true, decide_eq_true_eq]

/-- The sequence and target tests of the rollback select the findings of the attempt. -/
theorem execFindingMatches_eq_inAttempt {t : Tables} {fail : ResourceEvent} (hinv : ExecInv t)
    (hnext : ∀ record ∈ t.resources, record.sequence < fail.sequence) {finding : Finding}
    (hfinding : finding ∈ t.findings) :
    execFindingMatches finding fail (attemptWalk fail t.resources.reverse fail.sequence) =
      inAttempt fail t.resources finding := by
  obtain ⟨raiser, hraiser, fd, heq⟩ := hinv.raisedBy finding hfinding
  -- the walk reaches the raising record exactly when all records since belong to the attempt
  have hwalk := attemptWalk_le_iff fail (by simpa using hnext)
    (List.pairwise_reverse.2 hinv.sorted)
    ⟨raiser, List.mem_reverse.2 hraiser, (congrArg Finding.sequence heq).symm⟩
  simp only [List.mem_reverse] at hwalk
  rw [Bool.eq_iff_iff, inAttempt_iff, ← hwalk]
  constructor
  · intro h
    simp only [execFindingMatches, Bool.and_eq_true, decide_eq_true_eq] at h
    exact h.1.1.1.2
  · intro h
    -- the raising record belongs to the attempt, so the finding names its process and target
    have hmatch := hwalk.1 h raiser hraiser (by rw [heq]; exact le_rfl)
    obtain ⟨⟨-, hpid, -, htarget⟩, hsome⟩ := execAttemptMatches_iff.1 hmatch
    simp only [execFindingMatches, Bool.and_eq_true, decide_eq_true_eq]
    subst heq
    simp only [Finding.ofExec] at h ⊢
    simp [hpid, htarget, hsome, h]

theorem dropAttemptFindings_eq {t : Tables} {fail : ResourceEvent} (hinv : ExecInv t)
    (hnext : ∀ record ∈ t.resources, record.sequence < fail.sequence) :
    dropAttemptFindings fail (attemptWalk fail t.resources.reverse fail.sequence) t.findings =
      t.findings.filter fun finding => !inAttempt fail t.resources finding := by
  apply List.filter_congr
  intro finding hfinding
  rw [execFindingMatches_eq_inAttempt hinv hnext hfinding]

/-! ## The attempt as a whole -/

/-- Marking an entry and clearing it again restores an entry without marks. -/
theorem clearPending_mark {event : ResourceEvent} {fds : List LiveFd}
    (hidle : ∀ fd ∈ fds, fd.execPending = 0 → fd.clear = fd) :
    clearPending event.pid
        (modifyFirst (LiveFd.isFor event.pid event.fd) (LiveFd.mark event) fds) =
      clearPending event.pid fds := by
  rw [clearPending_eq_map, clearPending_eq_map]
  apply modifyFirst_map
  intro fd hfd hfor
  have hpid : fd.pid = event.pid := by
    simp only [LiveFd.isFor, Bool.and_eq_true, beq_iff_eq] at hfor
    exact hfor.1
  -- marking is undone by clearing, and an entry that was not pending was clear before
  have hmarked : clearFor event.pid (fd.mark event) = fd.clear := by
    rw [clearFor, if_pos ⟨hpid, by simp [LiveFd.mark]⟩]
    rfl
  rw [hmarked, clearFor]
  split
  · rfl
  · rename_i hnot
    apply hidle fd hfd
    by_contra hpending
    exact hnot ⟨hpid, hpending⟩

/-- The snapshot records of an attempt only mark entries of their process and raise findings of
their own. -/
theorem run_attempt {fail : ResourceEvent} {attempt : List ResourceEvent} {t : Tables}
    (hattempt : IsAttempt fail attempt)
    (hidle : ∀ fd ∈ t.fds, fd.execPending = 0 → fd.clear = fd) :
    ∃ marked own, t.run inherits attempt =
        { t with
          resources := t.resources ++ attempt, fds := marked, findings := t.findings ++ own } ∧
      clearPending fail.pid marked = clearPending fail.pid t.fds ∧
      ∀ finding ∈ own, ∃ event ∈ attempt, ∃ fd, finding = Finding.ofExec event fd := by
  induction attempt generalizing t with
  | nil => exact ⟨t.fds, [], by simp, rfl, by simp⟩
  | cons event rest ih =>
    obtain ⟨hkind, hpid, -⟩ := hattempt event (by simp)
    have hrest : IsAttempt fail rest := fun e he => hattempt e (by simp [he])
    obtain ⟨marked, own, hrun, hclear, hown⟩ := ih hrest (idle_ingest inherits hidle)
    -- the finding of this record stands in front of those of the later ones
    rw [ingest_exec inherits hkind] at hrun hclear
    refine ⟨marked, raised inherits event t.fds ++ own, ?_, ?_, ?_⟩
    · rw [run_cons, ingest_exec inherits hkind, hrun]
      simp
    · rw [hclear, ← hpid]
      exact clearPending_mark hidle
    · intro finding hfinding
      rcases List.mem_append.1 hfinding with h | h
      · obtain ⟨fd, -, -, rfl⟩ := mem_raised inherits h
        exact ⟨event, by simp, fd, rfl⟩
      · obtain ⟨e, he, hraised⟩ := hown finding h
        exact ⟨e, by simp [he], hraised⟩

/-- A failed attempt clears the marks of its process, drops the findings of the contiguous run that
ends with it, and changes nothing else but the stored records. -/
theorem failedAttempt {fail : ResourceEvent} {attempt : List ResourceEvent} {t : Tables}
    (hinv : ExecInv t) (hfail : fail.kind = .execFail) (htarget : fail.target.isSome = true)
    (hattempt : IsAttempt fail attempt)
    (hsorted : (t.resources ++ (attempt ++ [fail])).Pairwise
      fun a b => a.sequence < b.sequence) :
    t.run inherits (attempt ++ [fail]) =
      { t with
        resources := t.resources ++ (attempt ++ [fail])
        fds := clearPending fail.pid t.fds
        findings := t.findings.filter fun finding => !inAttempt fail t.resources finding } := by
  rw [← List.append_assoc, List.pairwise_append] at hsorted
  obtain ⟨hbefore, -, hlast⟩ := hsorted
  have hinv' : ExecInv (t.run inherits attempt) := execInv_run inherits hinv hbefore
  have hmatches : ∀ event ∈ attempt, execAttemptMatches event fail = true :=
    fun event hevent => execAttemptMatches_iff.2 ⟨hattempt event hevent, htarget⟩
  obtain ⟨marked, own, hrun, hclear, hown⟩ := run_attempt inherits hattempt hinv.idle
  have hnext : ∀ record ∈ (t.run inherits attempt).resources, record.sequence < fail.sequence := by
    intro record hrecord
    rw [run_resources] at hrecord
    exact hlast record hrecord fail (by simp)
  rw [run_append, run_cons, run_nil, ingest_execFail inherits hfail,
    dropAttemptFindings_eq hinv' hnext, hrun, hclear, List.append_assoc]
  congr 1
  rw [List.filter_append]
  -- the attempt's own findings all go
  have hdropped : own.filter
      (fun finding => !inAttempt fail (t.resources ++ attempt) finding) = [] := by
    rw [List.filter_eq_nil_iff]
    intro finding hfinding
    obtain ⟨event, hevent, fd, rfl⟩ := hown finding hfinding
    simp only [Bool.not_eq_true, Bool.not_eq_false']
    rw [inAttempt_iff]
    intro record hrecord hle
    rcases List.mem_append.1 hrecord with hold | hnew
    · have hlt := (List.pairwise_append.1 hbefore).2.2 record hold event hevent
      exact absurd hle (Nat.not_le.2 hlt)
    · exact hmatches record hnew
  rw [hdropped, List.append_nil]
  -- whether an earlier one goes depends on the stored records alone, for the attempt's all match
  apply List.filter_congr
  intro finding _
  rw [Bool.not_inj_iff, Bool.eq_iff_iff, inAttempt_iff, inAttempt_iff]
  constructor
  · intro h record hrecord
    exact h record (List.mem_append_left _ hrecord)
  · intro h record hrecord hle
    rcases List.mem_append.1 hrecord with hold | hnew
    · exact h record hold hle
    · exact hmatches record hnew

/-- The same for an attempt numbered behind the stored records. -/
theorem failedAttempt_numbered {fail : ResourceEvent} {attempt : List ResourceEvent} {t : Tables}
    (hinv : ExecInv t) (hfail : fail.kind = .execFail) (htarget : fail.target.isSome = true)
    (hattempt : IsAttempt fail attempt) {n : Nat}
    (hn : ∀ record ∈ t.resources, record.sequence ≤ n) :
    t.run inherits (numberFrom n (attempt ++ [fail])) =
      { t with
        resources := t.resources ++ numberFrom n (attempt ++ [fail])
        fds := clearPending fail.pid t.fds
        findings := t.findings.filter fun finding => !inAttempt fail t.resources finding } := by
  have hsorted : (t.resources ++ numberFrom n (attempt ++ [fail])).Pairwise
      fun a b => a.sequence < b.sequence := by
    refine List.pairwise_append.2 ⟨hinv.sorted, numberFrom_pairwise _ _, ?_⟩
    intro record hrecord later hlater
    exact Nat.lt_of_le_of_lt (hn record hrecord) (mem_numberFrom hlater).1.1
  rw [numberFrom_concat] at hsorted ⊢
  exact @failedAttempt inherits { fail with sequence := n + attempt.length + 1 } _ _ hinv hfail
    htarget (hattempt.numberFrom n _) hsorted

/-- With nothing pending for the process, no earlier finding belongs to the attempt. -/
theorem not_inAttempt_of_idle {fail : ResourceEvent} {t : Tables} (hinv : ExecInv t)
    (hidle : ∀ fd ∈ t.fds, fd.pid = fail.pid → fd.execPending = 0) {finding : Finding}
    (hfinding : finding ∈ t.findings) : inAttempt fail t.resources finding = false := by
  by_contra h
  have hall := inAttempt_iff.1 (Bool.eq_true_of_not_eq_false h)
  obtain ⟨raiser, hraiser, _, rfl⟩ := hinv.raisedBy finding hfinding
  have hpid : raiser.pid = fail.pid :=
    (execAttemptMatches_iff.1 (hall raiser hraiser le_rfl)).1.2.1
  -- its process has written only `EXEC` records since, so the invariant has a pending descriptor
  obtain ⟨fd, hfd, hfdpid, hpending⟩ := hinv.pending _ hfinding fun record hrecord hlt _ =>
    (execAttemptMatches_iff.1 (hall record hrecord (Nat.le_of_lt hlt))).1.1
  exact hpending (hidle fd hfd (hfdpid.trans hpid))

/-- A failed attempt is no change when its process had nothing pending. -/
theorem failedAttempt_of_idle {fail : ResourceEvent} {attempt : List ResourceEvent} {t : Tables}
    (hinv : ExecInv t) (hfail : fail.kind = .execFail) (htarget : fail.target.isSome = true)
    (hattempt : IsAttempt fail attempt) {n : Nat}
    (hn : ∀ record ∈ t.resources, record.sequence ≤ n)
    (hidle : ∀ fd ∈ t.fds, fd.pid = fail.pid → fd.execPending = 0) :
    t.run inherits (numberFrom n (attempt ++ [fail])) =
      { t with resources := t.resources ++ numberFrom n (attempt ++ [fail]) } := by
  rw [failedAttempt_numbered inherits hinv hfail htarget hattempt hn, clearPending_of_idle hidle]
  congr 1
  apply List.filter_eq_self.2
  intro finding hfinding
  rw [not_inAttempt_of_idle hinv hidle hfinding]
  rfl

end Tables

/-! ## The no-op -/

/-- **A failed exec attempt is a no-op.** When the process has nothing pending, its snapshot records
and the `EXECFAIL` record that follows them leave every table of the report as it was; only the
stored records grow, by those of the attempt. -/
theorem failedExec_noop {lib : ToolEventLib} (st : State lib)
    (hfresh : st.model.tables = Tables.empty) (history attempt : List ResourceEvent)
    (fail : ResourceEvent) (hfail : fail.kind = .execFail) (htarget : fail.target.isSome = true)
    (hattempt : IsAttempt fail attempt)
    (hidle : ∀ fd ∈ (ingestLog st (number history)).model.fds.items,
      fd.pid = fail.pid → fd.execPending = 0)
    (hok : (ingestLog st (number (history ++ (attempt ++ [fail])))).err.error = false) :
    let before := (ingestLog st (number history)).model
    let after := (ingestLog st (number (history ++ (attempt ++ [fail])))).model
    after.tables = { before.tables with
        resources := before.resources.items ++ numberFrom history.length (attempt ++ [fail]) } ∧
      after.resources.items.length = before.resources.items.length + (attempt.length + 1) ∧
      after.sites = before.sites ∧ after.calls = before.calls := by
  intro before after
  have hbefore : before.tables = Tables.empty.run lib.execInherits (number history) :=
    tables_of_fresh hfresh (ok_of_append hok)
  have hafter : after.tables = before.tables.run lib.execInherits
      (numberFrom history.length (attempt ++ [fail])) := by
    rw [hbefore, ← Tables.run_append, ← number_append]
    exact tables_of_fresh hfresh hok
  have htables : after.tables = { before.tables with
      resources := before.resources.items ++ numberFrom history.length (attempt ++ [fail]) } := by
    rw [hafter]
    apply Tables.failedAttempt_of_idle lib.execInherits _ hfail htarget hattempt _ hidle
    · rw [hbefore]
      exact Tables.execInv_number lib.execInherits history
    · rw [hbefore, Tables.run_number_resources]
      exact fun record hrecord => (mem_number hrecord).1.2
  refine ⟨htables, ?_, ?_, ?_⟩
  · have hlength := congrArg (fun t => t.resources.length) htables
    simpa [ReportModel.tables] using hlength
  · exact (ingestLog_sources _ st).1.trans (ingestLog_sources _ st).1.symm
  · exact (ingestLog_sources _ st).2.trans (ingestLog_sources _ st).2.symm

/-- An attempt with a repeated and an untracked descriptor, while another process is mid-exec. -/
theorem failedExec_noop_shared_log :
    let before := (ingestLog State.zeroed
      (number [openRecord 1 3, openRecord 2 3, execRecord 2 3 0])).model
    let after := (ingestLog State.zeroed (number ([openRecord 1 3, openRecord 2 3,
      execRecord 2 3 0] ++ ([execRecord 1 3 0, execRecord 1 9 0, execRecord 1 3 1] ++
        [execFailRecord 1])))).model
    after.fds = before.fds ∧ after.findings.items = before.findings.items ∧
      after.tables = { before.tables with
        resources := before.resources.items ++ numberFrom 3
          [execRecord 1 3 0, execRecord 1 9 0, execRecord 1 3 1, execFailRecord 1] } :=
  ⟨by decide, by decide, (failedExec_noop State.zeroed (by decide)
    [openRecord 1 3, openRecord 2 3, execRecord 2 3 0]
    [execRecord 1 3 0, execRecord 1 9 0, execRecord 1 3 1] (execFailRecord 1) rfl rfl (by decide)
    (by decide) (by decide)).1⟩

/-! ## An earlier attempt that succeeded -/

namespace Tables

/-- A live entry without the positions of the records it refers to. -/
def unsequencedFd (fd : LiveFd) : LiveFd := { fd with sequence := 0, execSequence := 0 }

def unsequencedClosed (fd : ClosedFd) : ClosedFd := { fd with sequence := 0 }

def unsequencedFinding (finding : Finding) : Finding :=
  { finding with sequence := 0, previousSequence := 0 }

/-- The descriptors and findings of two states are the same up to sequence numbers. -/
def SameUpToSequence (t t' : Tables) : Prop :=
  t.fds.map unsequencedFd = t'.fds.map unsequencedFd ∧
    t.closedFds.map unsequencedClosed = t'.closedFds.map unsequencedClosed ∧
    t.findings.map unsequencedFinding = t'.findings.map unsequencedFinding

instance (t t' : Tables) : Decidable (SameUpToSequence t t') :=
  inferInstanceAs (Decidable (_ ∧ _ ∧ _))

/-- The earlier exec of a process left no descriptor to close, and none of its findings on the
target of the failure ends the log with records of the failed run only. -/
def NothingToUndo (fail : ResourceEvent) (t : Tables) : Prop :=
  (∀ fd ∈ t.fds, fd.pid = fail.pid → fd.execPending ≠ 0 → fd.execCloexec = 0) ∧
    ∀ finding ∈ t.findings, finding.kind = .execInherit → finding.pid = fail.pid →
      finding.ptr = fail.target → ∃ record ∈ t.resources,
        finding.sequence ≤ record.sequence ∧ execAttemptMatches record fail = false

variable (inherits : Bool → Bool)

/-- Under `NothingToUndo` the failure drops no finding, and conversely. -/
theorem nothingToUndo_findings {fail : ResourceEvent} {t : Tables} (hinv : ExecInv t) :
    (∀ finding ∈ t.findings, finding.kind = .execInherit → finding.pid = fail.pid →
      finding.ptr = fail.target → ∃ record ∈ t.resources,
        finding.sequence ≤ record.sequence ∧ execAttemptMatches record fail = false) ↔
    ∀ finding ∈ t.findings, inAttempt fail t.resources finding = false := by
  -- the last condition says that the finding is outside the attempt; the first three are implied
  have hnot : ∀ finding, inAttempt fail t.resources finding = false ↔
      ∃ record ∈ t.resources, finding.sequence ≤ record.sequence ∧
        execAttemptMatches record fail = false := by
    intro finding
    rw [← Bool.not_eq_true, inAttempt_iff]
    push Not
    simp only [Bool.not_eq_true]
  constructor
  · intro h finding hfinding
    by_contra hin
    have hall := inAttempt_iff.1 (Bool.eq_true_of_not_eq_false hin)
    obtain ⟨raiser, hraiser, fd, rfl⟩ := hinv.raisedBy finding hfinding
    obtain ⟨⟨-, hpid, -, htarget⟩, -⟩ := execAttemptMatches_iff.1 (hall raiser hraiser le_rfl)
    exact hin ((hnot _).2 (h _ hfinding rfl hpid htarget))
  · intro h finding hfinding _ _ _
    exact (hnot finding).1 (h finding hfinding)

/-- A commit that closes as many descriptors as it finds pending: none exactly when no
close-on-exec descriptor is pending. -/
theorem finishExec_closes_none_iff (pid : Int) (t : Tables) :
    (t.finishExec pid false).closedFds.length = t.closedFds.length ↔
      ∀ fd ∈ t.fds, fd.pid = pid → fd.execPending ≠ 0 → fd.execCloexec = 0 := by
  obtain ⟨removed, hperm, hclosed⟩ := finishExec_closedFds pid false t
  have hnone : closedByExec removed = [] ↔
      ∀ fd ∈ t.fds, fd.pid = pid → fd.execPending ≠ 0 → fd.execCloexec = 0 := by
    rw [closedByExec, List.map_eq_nil_iff, List.filter_eq_nil_iff]
    constructor
    · intro h fd hfd hpid hpending
      by_contra hcloexec
      have hremoved : fd ∈ removed :=
        hperm.mem_iff.2 (List.mem_filter.2 ⟨hfd, by simp [finishVerdict, hpid, hpending, hcloexec]⟩)
      exact h fd hremoved (by simpa using hcloexec)
    · -- what a commit within the log removes is pending and close-on-exec
      intro h fd hfd hcloexec
      obtain ⟨hmem, hverdict⟩ := List.mem_filter.1 (hperm.mem_iff.1 hfd)
      by_cases hpid : fd.pid = pid
      · by_cases hpending : fd.execPending = 0
        · simp [finishVerdict, hpending] at hverdict
        · exact absurd (h fd hmem hpid hpending) (by simpa using hcloexec)
      · simp [finishVerdict, hpid] at hverdict
  rw [hclosed, List.length_append, ← hnone, ← List.length_eq_zero_iff]
  omega

/-- After a commit nothing of the process is pending. -/
theorem finishExec_idle (pid : Int) (endOfInput : Bool) (t : Tables) :
    ∀ fd ∈ (t.finishExec pid endOfInput).fds, fd.pid = pid → fd.execPending = 0 := by
  intro kept hkept hpid
  obtain ⟨fd, -, hverdict⟩ := mem_finishExec.1 hkept
  by_contra hpending
  rcases finishVerdict_some hverdict with rfl | rfl
  · -- a pending entry of the process is never kept as it is
    simp only [finishVerdict, hpid, hpending, ne_eq, not_true_eq_false, or_self,
      if_false] at hverdict
    split at hverdict
    · cases hverdict
    · split at hverdict
      · cases hverdict
      · have := congrArg LiveFd.execPending (Option.some.inj hverdict)
        exact hpending this.symm
  · exact hpending rfl

/-- The failed attempt after a `SPAWN` record: the commit stands. -/
theorem failedAttempt_after_spawn {spawn fail : ResourceEvent} {attempt : List ResourceEvent}
    {t : Tables} (hinv : ExecInv t) (hspawn : spawn.kind = .spawn) (hpid : spawn.pid = fail.pid)
    (hfail : fail.kind = .execFail) (htarget : fail.target.isSome = true)
    (hattempt : IsAttempt fail attempt) {n : Nat}
    (hn : ∀ record ∈ t.resources, record.sequence ≤ n) :
    t.run inherits (numberFrom n ([spawn] ++ attempt ++ [fail])) =
      { t.finishExec fail.pid false with
        resources := t.resources ++ numberFrom n ([spawn] ++ attempt ++ [fail]) } := by
  have hstep : t.ingest inherits { spawn with sequence := n + 1 } =
      (t.finishExec fail.pid false).store { spawn with sequence := n + 1 } := by
    rw [← hpid]
    exact @ingest_spawn inherits { spawn with sequence := n + 1 } hspawn t
  have hinv' : ExecInv (t.ingest inherits { spawn with sequence := n + 1 }) :=
    execInv_ingest inherits hinv fun record hrecord => Nat.lt_succ_of_le (hn record hrecord)
  have hlog : numberFrom n ([spawn] ++ attempt ++ [fail]) =
      { spawn with sequence := n + 1 } :: numberFrom (n + 1) (attempt ++ [fail]) := rfl
  rw [hlog, run_cons, failedAttempt_of_idle inherits hinv' hfail htarget hattempt ?_ ?_, hstep]
  · simp [store]
  · rw [ingest_resources]
    intro record hrecord
    rcases List.mem_append.1 hrecord with h | h
    · exact Nat.le_succ_of_le (hn record h)
    · rw [List.mem_singleton.1 h]
  · rw [hstep]
    exact finishExec_idle fail.pid false t

/-- The failure of the next attempt undoes nothing of the earlier one exactly when there is nothing
to undo. -/
theorem failedAttempt_same_iff {spawn fail : ResourceEvent} {attempt : List ResourceEvent}
    {t : Tables} (hinv : ExecInv t) (hspawn : spawn.kind = .spawn) (hpid : spawn.pid = fail.pid)
    (hfail : fail.kind = .execFail) (htarget : fail.target.isSome = true)
    (hattempt : IsAttempt fail attempt) {n : Nat}
    (hn : ∀ record ∈ t.resources, record.sequence ≤ n) :
    SameUpToSequence (t.run inherits (numberFrom n (attempt ++ [fail])))
        (t.run inherits (numberFrom n ([spawn] ++ attempt ++ [fail]))) ↔
      NothingToUndo fail t := by
  rw [failedAttempt_numbered inherits hinv hfail htarget hattempt hn,
    failedAttempt_after_spawn inherits hinv hspawn hpid hfail htarget hattempt hn, NothingToUndo,
    nothingToUndo_findings hinv]
  constructor
  · -- the two runs agree: counting shows that the commit closed none and the failure dropped none
    rintro ⟨-, hclosed, hfindings⟩
    have hclosedLength := congrArg List.length hclosed
    have hfindingsLength := congrArg List.length hfindings
    simp only [List.length_map, finishExec_findings] at hclosedLength hfindingsLength
    refine ⟨(finishExec_closes_none_iff fail.pid t).1 hclosedLength.symm, ?_⟩
    intro finding hfinding
    simpa using List.length_filter_eq_length_iff.1 hfindingsLength finding hfinding
  · -- nothing to undo: both runs only clear the marks of the process
    rintro ⟨hcloexec, hfindings⟩
    have hkept : t.findings.filter (fun finding => !inAttempt fail t.resources finding) =
        t.findings := List.filter_eq_self.2 fun finding h => by simp [hfindings finding h]
    rw [finishExec_of_no_cloexec fail.pid t hcloexec]
    exact ⟨rfl, rfl, congrArg _ hkept⟩

end Tables

/-- **When the failure of an attempt leaves the attempt before it alone.** The log `history` may end
with an attempt that has succeeded. The next attempt and its `EXECFAIL` give the same descriptors
and findings as with a `SPAWN` record in between, which commits the earlier attempt, exactly when
no close-on-exec descriptor of the process is still pending and no finding of the same target was
raised within the contiguous run of matching records before the failure. -/
theorem failedExec_keeps_earlier_iff {lib : ToolEventLib} (st : State lib)
    (hfresh : st.model.tables = Tables.empty) (history attempt : List ResourceEvent)
    (spawn fail : ResourceEvent) (hspawn : spawn.kind = .spawn) (hpid : spawn.pid = fail.pid)
    (hfail : fail.kind = .execFail) (htarget : fail.target.isSome = true)
    (hattempt : IsAttempt fail attempt)
    (hok : (ingestLog st (number (history ++ (attempt ++ [fail])))).err.error = false)
    (hok' : (ingestLog st (number (history ++ ([spawn] ++ attempt ++ [fail])))).err.error =
      false) :
    Tables.SameUpToSequence
        (ingestLog st (number (history ++ (attempt ++ [fail])))).model.tables
        (ingestLog st (number (history ++ ([spawn] ++ attempt ++ [fail])))).model.tables ↔
      Tables.NothingToUndo fail (ingestLog st (number history)).model.tables := by
  rw [tables_of_fresh hfresh hok, tables_of_fresh hfresh hok',
    tables_of_fresh hfresh (ok_of_append hok), number_append, number_append, Tables.run_append,
    Tables.run_append]
  apply Tables.failedAttempt_same_iff lib.execInherits
    (Tables.execInv_number lib.execInherits history) hspawn hpid hfail htarget hattempt
  rw [Tables.run_number_resources]
  exact fun record hrecord => (mem_number hrecord).1.2

/-- A failed attempt on another target after an attempt without close-on-exec descriptors. -/
theorem failedExec_keeps_earlier_other_target :
    Tables.SameUpToSequence
        (ingestLog State.zeroed (number ([openRecord 1 3, { execRecord 1 3 0 with
          target := some (lit "/bin/ls") }] ++ ([execRecord 1 3 0] ++
            [execFailRecord 1])))).model.tables
        (ingestLog State.zeroed (number ([openRecord 1 3, { execRecord 1 3 0 with
          target := some (lit "/bin/ls") }] ++ ([spawnRecord 1] ++ [execRecord 1 3 0] ++
            [execFailRecord 1])))).model.tables :=
  (failedExec_keeps_earlier_iff State.zeroed (by decide) [openRecord 1 3, { execRecord 1 3 0 with
    target := some (lit "/bin/ls") }] [execRecord 1 3 0] (spawnRecord 1) (execFailRecord 1) rfl rfl
    rfl rfl (by decide) (by decide) (by decide)).2 ⟨by decide, by decide⟩

/-- A program that executes the same target twice: the failure of the second attempt removes the
finding of the first. -/
theorem failedExec_undoes_earlier :
    (ingestLog State.zeroed (number ([openRecord 1 3, execRecord 1 3 0] ++ ([execRecord 1 3 0] ++
        [execFailRecord 1])))).err.error = false ∧
      IsAttempt (execFailRecord 1) [execRecord 1 3 0] ∧
      ¬ Tables.SameUpToSequence
        (ingestLog State.zeroed (number ([openRecord 1 3, execRecord 1 3 0] ++
          ([execRecord 1 3 0] ++ [execFailRecord 1])))).model.tables
        (ingestLog State.zeroed (number ([openRecord 1 3, execRecord 1 3 0] ++
          ([spawnRecord 1] ++ [execRecord 1 3 0] ++ [execFailRecord 1])))).model.tables := by
  decide

end P101Report
