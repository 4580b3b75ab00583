import P101Report.Replay.FailedExec

/-!
# What one process sees of a shared log

`ProcessView` is the replay of one process on its own: its descriptors with their exec marks, and
its exec findings, each with the process's own records since. `ProcessView.step` reads only the
process's own records and no position numbers. The shared replay follows it, whatever the other
processes write in between (`follows_ingest_own`, `follows_ingest_other`), when two things hold at
the steps of the process:

* an `EXEC` record never finds a descriptor that is open twice with different marks, since the
  entry that is marked then depends on the order of the shared table;
* at an `EXECFAIL` record no other process has written since a finding of the attempt was raised,
  since the rollback walks back over adjacent records only.

Two logs with the same records of the process then give the same findings.
-/

set_option autoImplicit false

namespace P101Report

open SwapTable Runs

/-! ## The view -/

/-- A live descriptor of the process. -/
structure OwnFd where
  fd : Int
  pending : Int
  cloexec : Int
  deriving DecidableEq

/-- A finding without positions and without the entry it was found on. -/
def Finding.unplaced (finding : Finding) : Finding :=
  { finding with sequence := 0, previousSite := 0, previousSequence := 0 }

/-- A record without its position. -/
def ResourceEvent.unplaced (event : ResourceEvent) : ResourceEvent := { event with sequence := 0 }

/-- The finding an `EXEC` record raises, without positions. -/
def Finding.ofSnapshot (event : ResourceEvent) : Finding :=
  { kind := .execInherit
    pid := event.pid
    fd := event.fd
    ptr := event.target
    site := event.site
    eventSequence := event.eventSequence
    contextId := event.contextId }

theorem unplaced_ofExec (event : ResourceEvent) (fd : LiveFd) :
    (Finding.ofExec event fd).unplaced = Finding.ofSnapshot event := rfl

/-- A finding of the process and the process's own records from the one that raised it on. -/
structure OwnFinding where
  finding : Finding
  since : List ResourceEvent
  deriving DecidableEq

structure ProcessView where
  fds : List OwnFd
  findings : List OwnFinding
  deriving DecidableEq

namespace ProcessView

def empty : ProcessView := ⟨[], []⟩

/-- What a record other than `EXEC` and `EXECFAIL` does to one descriptor first. -/
def verdict (fd : OwnFd) : Option OwnFd :=
  if fd.pending = 0 then some fd
  else if fd.cloexec ≠ 0 then none
  else some { fd with pending := 0, cloexec := 0 }

/-- The descriptors after the process has written a record other than `EXEC` and `EXECFAIL`. -/
def commit (fds : List OwnFd) : List OwnFd := fds.filterMap verdict

/-- The descriptors after a failed exec. -/
def rollback (fds : List OwnFd) : List OwnFd :=
  fds.map fun fd => if fd.pending ≠ 0 then { fd with pending := 0, cloexec := 0 } else fd

/-- The descriptors after a record of the process. -/
def stepFds (event : ResourceEvent) (fds : List OwnFd) : List OwnFd :=
  match event.kind with
  | .exec =>
    if fds.any (·.fd == event.fd) then
      ⟨event.fd, 1, event.cloexec⟩ :: fds.eraseP (·.fd == event.fd)
    else fds
  | .execFail => rollback fds
  | .fdOpen => commit fds ++ [⟨event.fd, 0, 0⟩]
  | .fdClose => (commit fds).eraseP (·.fd == event.fd)
  | .alloc | .free | .realloc | .fork | .spawn | .generic => commit fds

/-- A finding once the process has written another record. -/
def recordAfter (event : ResourceEvent) (finding : OwnFinding) : OwnFinding :=
  { finding with since := finding.since ++ [event.unplaced] }

/-- The findings after a record of the process. -/
def stepFindings (inherits : Bool → Bool) (event : ResourceEvent) (v : ProcessView) :
    List OwnFinding :=
  match event.kind with
  | .exec =>
    v.findings.map (recordAfter event) ++
      if v.fds.any (·.fd == event.fd) && inherits (event.cloexec ≠ 0) then
        [⟨Finding.ofSnapshot event, [event.unplaced]⟩]
      else []
  | .execFail =>
    (v.findings.filter fun finding =>
      !finding.since.all (execAttemptMatches · event)).map (recordAfter event)
  | _ => v.findings.map (recordAfter event)

/-- A record of the process. -/
def step (inherits : Bool → Bool) (v : ProcessView) (event : ResourceEvent) : ProcessView :=
  ⟨stepFds event v.fds, stepFindings inherits event v⟩

/-- The view never reads a position. -/
theorem run_unplaced (inherits : Bool → Bool) (v : ProcessView) (log : List ResourceEvent) :
    (log.map ResourceEvent.unplaced).foldl (step inherits) v = log.foldl (step inherits) v := by
  rw [List.foldl_map]
  rfl

end ProcessView

/-- An entry of the shared table as its process sees it. -/
def OwnFd.of (fd : LiveFd) : OwnFd := ⟨fd.fd, fd.execPending, fd.execCloexec⟩

/-- The live descriptors of the process in the shared table. -/
def ownFds (pid : Int) (fds : List LiveFd) : List OwnFd :=
  (fds.filter fun fd => fd.pid = pid).map OwnFd.of

/-- The process's own records from a position on. -/
def ownSince (pid : Int) (resources : List ResourceEvent) (position : Nat) : List ResourceEvent :=
  (resources.filter fun record => record.pid = pid ∧ position ≤ record.sequence).map
    ResourceEvent.unplaced

/-- The findings of the process in the shared list. -/
def ownFindings (pid : Int) (resources : List ResourceEvent) (findings : List Finding) :
    List OwnFinding :=
  (findings.filter fun finding => finding.pid = pid).map fun finding =>
    ⟨finding.unplaced, ownSince pid resources finding.sequence⟩

/-! ## The descriptors of the process -/

section OwnFds

variable {pid : Int} {fds fds' : List LiveFd}

theorem ownFds_perm (h : fds.Perm fds') : (ownFds pid fds).Perm (ownFds pid fds') :=
  (h.filter _).map _

theorem ownFds_append : ownFds pid (fds ++ fds') = ownFds pid fds ++ ownFds pid fds' := by
  simp [ownFds]

theorem ownFds_cons_own {fd : LiveFd} (h : fd.pid = pid) :
    ownFds pid (fd :: fds) = OwnFd.of fd :: ownFds pid fds := by
  simp [ownFds, h]

theorem ownFds_cons_other {fd : LiveFd} (h : fd.pid ≠ pid) :
    ownFds pid (fd :: fds) = ownFds pid fds := by
  simp [ownFds, h]

theorem any_ownFds (fd : Int) :
    (ownFds pid fds).any (·.fd == fd) = fds.any (LiveFd.isFor pid fd) := by
  rw [Bool.eq_iff_iff]
  simp [ownFds, LiveFd.isFor, OwnFd.of]

theorem verdict_of {fd : LiveFd} (hpid : fd.pid = pid) :
    (Tables.finishVerdict pid false fd).map OwnFd.of = ProcessView.verdict (OwnFd.of fd) := by
  rw [Tables.finishVerdict, ProcessView.verdict]
  by_cases hpending : fd.execPending = 0
  · simp [OwnFd.of, hpending]
  · by_cases hcloexec : fd.execCloexec = 0
    · simp [OwnFd.of, LiveFd.clear, hpid, hpending, hcloexec]
    · simp [OwnFd.of, hpid, hpending, hcloexec]

/-- A commit of the process. -/
theorem ownFds_finishVerdict :
    ownFds pid (fds.filterMap (Tables.finishVerdict pid false)) =
      ProcessView.commit (ownFds pid fds) := by
  induction fds with
  | nil => rfl
  | cons fd rest ih =>
    by_cases hpid : fd.pid = pid
    · have hverdict := verdict_of hpid
      rw [ownFds_cons_own hpid, ProcessView.commit]
      cases hkept : Tables.finishVerdict pid false fd with
      | none =>
        rw [hkept] at hverdict
        rw [List.filterMap_cons_none hkept, List.filterMap_cons_none hverdict.symm, ih]
        rfl
      | some kept =>
        rw [hkept] at hverdict
        -- a kept entry stays with its process
        have hkeptPid : kept.pid = pid := by
          rcases Tables.finishVerdict_some hkept with rfl | rfl <;> exact hpid
        rw [List.filterMap_cons_some hkept, List.filterMap_cons_some hverdict.symm,
          ownFds_cons_own hkeptPid, ih]
        rfl
    · rw [List.filterMap_cons_some (Tables.finishVerdict_other hpid), ownFds_cons_other hpid,
        ownFds_cons_other hpid, ih]

/-- A commit of another process. -/
theorem ownFds_finishVerdict_other {other : Int} {endOfInput : Bool} (h : other ≠ pid) :
    ownFds pid (fds.filterMap (Tables.finishVerdict other endOfInput)) = ownFds pid fds := by
  induction fds with
  | nil => rfl
  | cons fd rest ih =>
    by_cases hpid : fd.pid = pid
    · rw [List.filterMap_cons_some (Tables.finishVerdict_other fun heq => h (heq.symm.trans hpid)),
        ownFds_cons_own hpid, ownFds_cons_own hpid, ih]
    · rw [ownFds_cons_other hpid]
      cases hverdict : Tables.finishVerdict other endOfInput fd with
      | none => rw [List.filterMap_cons_none hverdict, ih]
      | some kept =>
        have hkept : kept.pid ≠ pid := by
          rcases Tables.finishVerdict_some hverdict with rfl | rfl <;> exact hpid
        rw [List.filterMap_cons_some hverdict, ownFds_cons_other hkept, ih]

theorem ownFds_eraseP (fd : Int) :
    ownFds pid (fds.eraseP (LiveFd.isFor pid fd)) = (ownFds pid fds).eraseP (·.fd == fd) := by
  induction fds with
  | nil => rfl
  | cons entry rest ih =>
    by_cases hpid : entry.pid = pid
    · rw [ownFds_cons_own hpid]
      by_cases hfd : entry.fd = fd
      · rw [List.eraseP_cons_of_pos (by simp [LiveFd.isFor, hpid, hfd]),
          List.eraseP_cons_of_pos (by simp [OwnFd.of, hfd])]
      · rw [List.eraseP_cons_of_neg (by simp [LiveFd.isFor, hfd]), ownFds_cons_own hpid, ih,
          List.eraseP_cons_of_neg (by simp [OwnFd.of, hfd])]
    · rw [List.eraseP_cons_of_neg (by simp [LiveFd.isFor, hpid]), ownFds_cons_other hpid,
        ownFds_cons_other hpid, ih]

theorem ownFds_eraseP_other {other : Int} (h : other ≠ pid) (fd : Int) :
    ownFds pid (fds.eraseP (LiveFd.isFor other fd)) = ownFds pid fds := by
  induction fds with
  | nil => rfl
  | cons entry rest ih =>
    by_cases hfor : LiveFd.isFor other fd entry = true
    · -- the entry that goes belongs to the other process
      have hpid : entry.pid ≠ pid := by
        simp only [LiveFd.isFor, Bool.and_eq_true, beq_iff_eq] at hfor
        rw [hfor.1]
        exact h
      rw [List.eraseP_cons_of_pos hfor, ownFds_cons_other hpid]
    · rw [List.eraseP_cons_of_neg hfor]
      by_cases hpid : entry.pid = pid
      · rw [ownFds_cons_own hpid, ownFds_cons_own hpid, ih]
      · rw [ownFds_cons_other hpid, ownFds_cons_other hpid, ih]

theorem ownFds_mark {event : ResourceEvent}
    (hany : fds.any (LiveFd.isFor pid event.fd) = true) :
    (ownFds pid (modifyFirst (LiveFd.isFor pid event.fd) (LiveFd.mark event) fds)).Perm
      (⟨event.fd, 1, event.cloexec⟩ :: (ownFds pid fds).eraseP (·.fd == event.fd)) := by
  rcases modifyFirst_cases (LiveFd.isFor pid event.fd) (LiveFd.mark event) fds with
    ⟨hnone, -⟩ | ⟨pre, entry, post, rfl, hfor, hpre, heq⟩
  · obtain ⟨entry, hentry, hfor⟩ := List.any_eq_true.1 hany
    exact absurd hfor (by simp [hnone entry hentry])
  · -- marking in place is erasing the entry and adding the marked one, up to order
    have herase : (pre ++ entry :: post).eraseP (LiveFd.isFor pid event.fd) = pre ++ post := by
      rw [List.eraseP_append_right _ (by simpa using hpre), List.eraseP_cons_of_pos hfor]
    rw [heq, ← ownFds_eraseP, herase]
    simp only [LiveFd.isFor, Bool.and_eq_true, beq_iff_eq] at hfor
    rw [ownFds_append, ownFds_append, ownFds_cons_own (by simpa [LiveFd.mark] using hfor.1)]
    have hmarked : OwnFd.of (entry.mark event) = ⟨event.fd, 1, event.cloexec⟩ := by
      rw [← hfor.2]
      rfl
    rw [hmarked]
    exact List.perm_middle

theorem ownFds_mark_other {event : ResourceEvent} (hpid : event.pid ≠ pid) :
    ownFds pid (modifyFirst (LiveFd.isFor event.pid event.fd) (LiveFd.mark event) fds) =
      ownFds pid fds := by
  rcases modifyFirst_cases (LiveFd.isFor event.pid event.fd) (LiveFd.mark event) fds with
    ⟨-, heq⟩ | ⟨pre, entry, post, rfl, hfor, -, heq⟩
  · rw [heq]
  · have hentry : entry.pid ≠ pid := by
      simp only [LiveFd.isFor, Bool.and_eq_true, beq_iff_eq] at hfor
      rw [hfor.1]
      exact hpid
    rw [heq, ownFds_append, ownFds_append, ownFds_cons_other hentry,
      ownFds_cons_other (by simpa [LiveFd.mark] using hentry)]

theorem ownFds_clearPending :
    ownFds pid (clearPending pid fds) = ProcessView.rollback (ownFds pid fds) := by
  induction fds with
  | nil => rfl
  | cons fd rest ih =>
    rw [Tables.clearPending_eq_map] at ih ⊢
    rw [List.map_cons]
    by_cases hpid : fd.pid = pid
    · rw [ownFds_cons_own hpid, ProcessView.rollback, List.map_cons, ← ProcessView.rollback, ← ih]
      by_cases hpending : fd.execPending = 0
      · rw [Tables.clearFor, if_neg (by simp [hpending]), ownFds_cons_own hpid]
        simp [OwnFd.of, hpending]
      · rw [Tables.clearFor, if_pos ⟨hpid, hpending⟩, ownFds_cons_own (by simpa [LiveFd.clear])]
        simp [OwnFd.of, hpending, LiveFd.clear]
    · rw [Tables.clearFor, if_neg (by simp [hpid]), ownFds_cons_other hpid, ih,
        ownFds_cons_other hpid]

theorem ownFds_clearPending_other {other : Int} (h : other ≠ pid) :
    ownFds pid (clearPending other fds) = ownFds pid fds := by
  induction fds with
  | nil => rfl
  | cons fd rest ih =>
    rw [Tables.clearPending_eq_map] at ih ⊢
    rw [List.map_cons]
    by_cases hpid : fd.pid = pid
    · have hother : ¬ (fd.pid = other ∧ fd.execPending ≠ 0) :=
        fun hboth => h (hboth.1.symm.trans hpid)
      rw [Tables.clearFor, if_neg hother, ownFds_cons_own hpid, ownFds_cons_own hpid, ih]
    · have hcleared : (Tables.clearFor other fd).pid ≠ pid := by
        rw [Tables.clearFor]
        split <;> exact hpid
      rw [ownFds_cons_other hcleared, ownFds_cons_other hpid, ih]

end OwnFds

/-! ## The findings of the process -/

section OwnFindings

variable {pid : Int} {resources : List ResourceEvent} {findings : List Finding}
  {event : ResourceEvent}

theorem ownSince_own {position : Nat} (hpid : event.pid = pid)
    (hposition : position ≤ event.sequence) :
    ownSince pid (resources ++ [event]) position =
      ownSince pid resources position ++ [event.unplaced] := by
  simp [ownSince, hpid, hposition]

theorem ownSince_other {position : Nat} (hpid : event.pid ≠ pid) :
    ownSince pid (resources ++ [event]) position = ownSince pid resources position := by
  simp [ownSince, hpid]

theorem ownFindings_append (findings' : List Finding) :
    ownFindings pid resources (findings ++ findings') =
      ownFindings pid resources findings ++ ownFindings pid resources findings' := by
  simp [ownFindings]

theorem ownFindings_own (hpid : event.pid = pid)
    (hnext : ∀ finding ∈ findings, finding.sequence ≤ event.sequence) :
    ownFindings pid (resources ++ [event]) findings =
      (ownFindings pid resources findings).map (ProcessView.recordAfter event) := by
  rw [ownFindings, ownFindings, List.map_map]
  apply List.map_congr_left
  intro finding hfinding
  rw [ownSince_own hpid (hnext finding (List.mem_filter.1 hfinding).1)]
  rfl

theorem ownFindings_other (hpid : event.pid ≠ pid) :
    ownFindings pid (resources ++ [event]) findings = ownFindings pid resources findings := by
  simp only [ownFindings, ownSince_other hpid]

/-- The findings of other processes are dropped from the view. -/
theorem ownFindings_of_other (h : ∀ finding ∈ findings, finding.pid ≠ pid) :
    ownFindings pid resources findings = [] := by
  rw [ownFindings, List.map_eq_nil_iff, List.filter_eq_nil_iff]
  intro finding hfinding
  simpa using h finding hfinding

/-- Dropping findings of other processes leaves the view alone. -/
theorem ownFindings_filter_other {p : Finding → Bool}
    (h : ∀ finding ∈ findings, finding.pid = pid → p finding = true) :
    ownFindings pid resources (findings.filter p) = ownFindings pid resources findings := by
  rw [ownFindings, ownFindings, List.filter_filter]
  congr 1
  apply List.filter_congr
  intro finding hfinding
  by_cases hpid : finding.pid = pid
  · simp [hpid, h finding hfinding hpid]
  · simp [hpid]

end OwnFindings

/-! ## The steps of the process -/

namespace Tables

/-- Whether a finding was raised within the failed attempt: its process has written only matching
records since. -/
def OwnAttempt (event : ResourceEvent) (resources : List ResourceEvent) (finding : Finding) :
    Prop :=
  finding.pid = event.pid ∧ ∀ record ∈ resources, record.pid = event.pid →
    finding.sequence ≤ record.sequence → execAttemptMatches record event = true

instance (event : ResourceEvent) (resources : List ResourceEvent) (finding : Finding) :
    Decidable (OwnAttempt event resources finding) := inferInstanceAs (Decidable (_ ∧ ∀ _ ∈ _, _))

/-- No other process has written since a finding of the failed attempt was raised. -/
def Uncut (event : ResourceEvent) (t : Tables) : Prop :=
  ∀ finding ∈ t.findings, OwnAttempt event t.resources finding →
    ∀ record ∈ t.resources, finding.sequence ≤ record.sequence → record.pid = event.pid

instance (event : ResourceEvent) (t : Tables) : Decidable (Uncut event t) :=
  inferInstanceAs (Decidable (∀ _ ∈ _, _ → ∀ _ ∈ _, _))

/-- The entries of the descriptor, if there are several, carry the same marks. -/
def SameMarks (event : ResourceEvent) (t : Tables) : Prop :=
  ∀ fd ∈ t.fds, ∀ fd' ∈ t.fds, LiveFd.isFor event.pid event.fd fd = true →
    LiveFd.isFor event.pid event.fd fd' = true → OwnFd.of fd = OwnFd.of fd'

instance (event : ResourceEvent) (t : Tables) : Decidable (SameMarks event t) :=
  inferInstanceAs (Decidable (∀ _ ∈ _, ∀ _ ∈ _, _))

/-- At a record of the process the outcome depends on the process's own records only. -/
def Independent (pid : Int) (t : Tables) (event : ResourceEvent) : Prop :=
  event.pid = pid →
    (event.kind = .exec → SameMarks event t) ∧ (event.kind = .execFail → Uncut event t)

instance (pid : Int) (t : Tables) (event : ResourceEvent) : Decidable (Independent pid t event) :=
  inferInstanceAs (Decidable (_ → _ ∧ _))

variable {inherits : Bool → Bool} {t : Tables} {event : ResourceEvent}

/-- Where no other process has written, the backward walk sees the whole attempt. -/
theorem inAttempt_eq_since (huncut : Uncut event t) {finding : Finding}
    (hfinding : finding ∈ t.findings) (hpid : finding.pid = event.pid) :
    inAttempt event t.resources finding =
      (ownSince event.pid t.resources finding.sequence).all (execAttemptMatches · event) := by
  have hsince : (ownSince event.pid t.resources finding.sequence).all
      (execAttemptMatches · event) = true ↔ OwnAttempt event t.resources finding := by
    simp only [ownSince, List.all_map, List.all_eq_true, List.mem_filter, decide_eq_true_eq,
      OwnAttempt, hpid, true_and, and_imp]
    rfl
  rw [Bool.eq_iff_iff, hsince, inAttempt_iff]
  -- the walk reads all records and the view the process's own: the same where no other has written
  constructor
  · intro h
    exact ⟨hpid, fun record hrecord _ hle => h record hrecord hle⟩
  · intro hown record hrecord hle
    exact hown.2 record hrecord (huncut finding hfinding hown record hrecord hle) hle

/-- The shared tables seen by the process. -/
structure Follows (pid : Int) (t : Tables) (v : ProcessView) : Prop where
  inv : ExecInv t
  fds : (ownFds pid t.fds).Perm v.fds
  findings : ownFindings pid t.resources t.findings = v.findings

theorem follows_empty (pid : Int) : Follows pid empty ProcessView.empty :=
  ⟨execInv_empty, List.Perm.refl _, rfl⟩

/-- What a record of another process can reach: none of this process's entries. -/
theorem ownFds_ingest_other {pid : Int} (hpid : event.pid ≠ pid) (hfork : event.kind ≠ .fork) :
    (ownFds pid (t.ingest inherits event).fds).Perm (ownFds pid t.fds) := by
  have hcommit : (ownFds pid (t.finishExec event.pid false).fds).Perm (ownFds pid t.fds) := by
    refine (ownFds_perm (finishExec_fds_perm event.pid false t)).trans ?_
    rw [ownFds_finishVerdict_other hpid]
  cases hkind : event.kind with
  | fdOpen =>
    rw [ingest_fdOpen inherits hkind, ownFds_append]
    -- the new entry is that of the other process
    have hnew : ownFds pid [LiveFd.ofOpen event] = [] := ownFds_cons_other hpid
    rw [hnew, List.append_nil]
    exact hcommit
  | fdClose =>
    rw [ingest_fdClose inherits hkind]
    refine (ownFds_perm (removeFirst_perm _ _)).trans ?_
    rw [ownFds_eraseP_other hpid]
    exact hcommit
  | fork => exact absurd hkind hfork
  | exec =>
    rw [ingest_exec inherits hkind, ownFds_mark_other hpid]
  | execFail =>
    rw [ingest_execFail inherits hkind, ownFds_clearPending_other hpid]
  | alloc | free | realloc | spawn | generic =>
    obtain ⟨allocs, freedAllocs, heq⟩ := ingest_of_memory inherits event (by simp [hkind]) t
    rw [heq]
    exact hcommit

theorem ownFindings_ingest_other {pid : Int} (hpid : event.pid ≠ pid) (hfork : event.kind ≠ .fork) :
    ownFindings pid (t.ingest inherits event).resources (t.ingest inherits event).findings =
      ownFindings pid t.resources t.findings := by
  rw [ingest_resources, ownFindings_other hpid]
  cases hkind : event.kind with
  | fdOpen => rw [ingest_fdOpen inherits hkind, finishExec_findings]
  | fdClose => rw [ingest_fdClose inherits hkind, finishExec_findings]
  | fork => exact absurd hkind hfork
  | exec =>
    -- the finding it may raise is one of the other process
    have hraised : ownFindings pid t.resources (raised inherits event t.fds) = [] := by
      apply ownFindings_of_other
      intro finding hfinding
      obtain ⟨fd, -, -, rfl⟩ := mem_raised inherits hfinding
      exact hpid
    rw [ingest_exec inherits hkind, ownFindings_append, hraised, List.append_nil]
  | execFail =>
    -- a rollback drops findings of its own process only
    rw [ingest_execFail inherits hkind]
    apply ownFindings_filter_other
    intro finding _ hown
    simp [execFindingMatches, hown, Ne.symm hpid]
  | alloc | free | realloc | spawn | generic =>
    obtain ⟨allocs, freedAllocs, heq⟩ := ingest_of_memory inherits event (by simp [hkind]) t
    rw [heq, finishExec_findings]

/-- A record of the process acts on its descriptors as in its own replay. -/
theorem ownFds_ingest_own {pid : Int} {fds : List OwnFd} (hinv : ExecInv t)
    (hpid : event.pid = pid) (hfork : event.kind ≠ .fork) (hindep : Independent pid t event)
    (hfds : (ownFds pid t.fds).Perm fds) :
    (ownFds pid (t.ingest inherits event).fds).Perm (ProcessView.stepFds event fds) := by
  subst hpid
  have hcommit : (ownFds event.pid (t.finishExec event.pid false).fds).Perm
      (ProcessView.commit fds) := by
    refine (ownFds_perm (finishExec_fds_perm event.pid false t)).trans ?_
    rw [ownFds_finishVerdict]
    exact hfds.filterMap _
  rw [ProcessView.stepFds]
  cases hkind : event.kind with
  | fdOpen =>
    rw [ingest_fdOpen inherits hkind, ownFds_append]
    have hnew : ownFds event.pid [LiveFd.ofOpen event] = [⟨event.fd, 0, 0⟩] :=
      ownFds_cons_own rfl
    rw [hnew]
    exact hcommit.append_right _
  | fdClose =>
    rw [ingest_fdClose inherits hkind]
    refine (ownFds_perm (removeFirst_perm _ _)).trans ?_
    rw [ownFds_eraseP]
    apply eraseP_perm hcommit
    -- after the commit no entry of the process carries marks
    have hclean : ∀ own ∈ ownFds event.pid (t.finishExec event.pid false).fds,
        own.pending = 0 ∧ own.cloexec = 0 := by
      intro own hown
      obtain ⟨fd, hfd, rfl⟩ := List.mem_map.1 hown
      obtain ⟨hmem, hpid⟩ := List.mem_filter.1 hfd
      have hpending := finishExec_idle event.pid false t fd hmem (by simpa using hpid)
      have hclear := idle_finishExec hinv.idle fd hmem hpending
      exact ⟨hpending, (congrArg LiveFd.execCloexec hclear).symm⟩
    rintro ⟨fd, pending, cloexec⟩ hx ⟨fd', pending', cloexec'⟩ hy hfd hfd'
    obtain ⟨rfl, rfl⟩ := hclean _ hx
    obtain ⟨rfl, rfl⟩ := hclean _ hy
    simp only [beq_iff_eq] at hfd hfd'
    rw [hfd, hfd']
  | fork => exact absurd hkind hfork
  | exec =>
    have hany : fds.any (·.fd == event.fd) = t.fds.any (LiveFd.isFor event.pid event.fd) := by
      rw [← any_ownFds]
      exact (hfds.any_eq).symm
    simp only [hany]
    rw [ingest_exec inherits hkind]
    by_cases hfound : t.fds.any (LiveFd.isFor event.pid event.fd) = true
    · rw [if_pos hfound]
      -- the two list the entries in different orders, so it must not matter which one is marked
      refine (ownFds_mark hfound).trans (List.Perm.cons _ (eraseP_perm hfds ?_))
      intro own hown own' hown' hfd hfd'
      obtain ⟨a, ha, rfl⟩ := List.mem_map.1 hown
      obtain ⟨b, hb, rfl⟩ := List.mem_map.1 hown'
      simp only [List.mem_filter, decide_eq_true_eq] at ha hb
      exact (hindep rfl).1 hkind a ha.1 b hb.1
        (by simpa [LiveFd.isFor, OwnFd.of, ha.2] using hfd)
        (by simpa [LiveFd.isFor, OwnFd.of, hb.2] using hfd')
    · rw [if_neg hfound, modifyFirst_of_none (by simpa using hfound)]
      exact hfds
  | execFail =>
    rw [ingest_execFail inherits hkind, ownFds_clearPending]
    exact hfds.map _
  | alloc | free | realloc | spawn | generic =>
    obtain ⟨allocs, freedAllocs, heq⟩ := ingest_of_memory inherits event (by simp [hkind]) t
    rw [heq]
    exact hcommit

/-- The finding an `EXEC` record of the process raises, as the process sees it. -/
theorem ownFindings_raised (hnext : ∀ record ∈ t.resources, record.sequence < event.sequence) :
    ownFindings event.pid (t.resources ++ [event]) (raised inherits event t.fds) =
      if t.fds.any (LiveFd.isFor event.pid event.fd) && inherits (event.cloexec ≠ 0) then
        [⟨Finding.ofSnapshot event, [event.unplaced]⟩]
      else [] := by
  -- of the stored records only the raising one is not older than the finding
  have hsince : ownSince event.pid (t.resources ++ [event]) event.sequence = [event.unplaced] := by
    have hold : ownSince event.pid t.resources event.sequence = [] := by
      rw [ownSince, List.map_eq_nil_iff, List.filter_eq_nil_iff]
      intro record hrecord
      have := hnext record hrecord
      simp only [decide_eq_true_eq, not_and]
      omega
    rw [ownSince_own rfl le_rfl, hold, List.nil_append]
  rw [raised]
  cases hfind : t.fds.find? (LiveFd.isFor event.pid event.fd) with
  | none =>
    have hnone : t.fds.any (LiveFd.isFor event.pid event.fd) = false := by
      simpa using List.find?_eq_none.1 hfind
    rw [hnone]
    rfl
  | some fd =>
    have hfound : t.fds.any (LiveFd.isFor event.pid event.fd) = true :=
      List.any_eq_true.2 ⟨fd, List.mem_of_find?_eq_some hfind, List.find?_some hfind⟩
    rw [hfound, Bool.true_and]
    by_cases hinherits : inherits (event.cloexec ≠ 0) = true
    · simp only [if_pos hinherits]
      have hview : ownFindings event.pid (t.resources ++ [event]) [Finding.ofExec event fd] =
          [⟨(Finding.ofExec event fd).unplaced,
            ownSince event.pid (t.resources ++ [event]) event.sequence⟩] := by
        simp [ownFindings, Finding.ofExec]
      rw [hview, hsince, unplaced_ofExec]
    · simp only [if_neg hinherits]
      rfl

/-- A record of the process acts on its findings as in its own replay. -/
theorem ownFindings_ingest_own {pid : Int} {v : ProcessView} (hinv : ExecInv t)
    (hnext : ∀ record ∈ t.resources, record.sequence < event.sequence) (hpid : event.pid = pid)
    (hfork : event.kind ≠ .fork) (hindep : Independent pid t event)
    (hfds : (ownFds pid t.fds).Perm v.fds)
    (hfindings : ownFindings pid t.resources t.findings = v.findings) :
    ownFindings pid (t.ingest inherits event).resources (t.ingest inherits event).findings =
      ProcessView.stepFindings inherits event v := by
  subst hpid
  have hlater : ∀ finding ∈ t.findings, finding.sequence ≤ event.sequence := by
    intro finding hfinding
    obtain ⟨raiser, hraiser, fd, rfl⟩ := hinv.raisedBy finding hfinding
    exact Nat.le_of_lt (hnext raiser hraiser)
  have hstored : ownFindings event.pid (t.resources ++ [event]) t.findings =
      v.findings.map (ProcessView.recordAfter event) := by
    rw [ownFindings_own rfl hlater, hfindings]
  rw [ingest_resources, ProcessView.stepFindings]
  cases hkind : event.kind with
  | fdOpen => rw [ingest_fdOpen inherits hkind, finishExec_findings]; exact hstored
  | fdClose => rw [ingest_fdClose inherits hkind, finishExec_findings]; exact hstored
  | fork => exact absurd hkind hfork
  | exec =>
    rw [ingest_exec inherits hkind, ownFindings_append, hstored]
    rw [← hfds.any_eq, any_ownFds, ownFindings_raised hnext]
  | execFail =>
    -- both sides filter the process's findings, by the walk and by the view's own records
    have hdrop := dropAttemptFindings_eq hinv hnext
    rw [ingest_execFail inherits hkind]
    simp only [hdrop]
    rw [ownFindings_own rfl fun finding h => hlater finding (List.mem_filter.1 h).1, ← hfindings]
    congr 1
    rw [ownFindings, ownFindings, List.filter_map, List.filter_filter, List.filter_filter]
    congr 1
    apply List.filter_congr
    intro finding hfinding
    by_cases hown : finding.pid = event.pid
    · rw [inAttempt_eq_since ((hindep rfl).2 hkind) hfinding hown, Bool.and_comm]
      rfl
    · simp [hown]
  | alloc | free | realloc | spawn | generic =>
    obtain ⟨allocs, freedAllocs, heq⟩ := ingest_of_memory inherits event (by simp [hkind]) t
    rw [heq, finishExec_findings]
    exact hstored

/-- The shared replay follows the process's own replay. -/
theorem follows_run {pid : Int} {log : List ResourceEvent}
    (hfork : ∀ event ∈ log, event.kind ≠ .fork)
    (hindep : EveryStep (ingest inherits) (Independent pid) empty (number log)) :
    Follows pid (empty.run inherits (number log))
      (((number log).filter fun event => event.pid = pid).foldl (ProcessView.step inherits)
        ProcessView.empty) := by
  have hkinds : ∀ event ∈ number log, event.kind ≠ .fork :=
    forall_numberFrom (fun _ _ h => h) 0 hfork
  have hsteps := ((everyStep_number inherits log).and
    (EveryStep.of_forall_mem hkinds empty)).and hindep
  refine EveryStep.filter_simulation ?_ ?_ (follows_empty pid) hsteps
  · -- a record of the process: both replays step
    rintro t v event hown ⟨⟨hnext, hkind⟩, hstep⟩ ⟨hinv, hfds, hfindings⟩
    have hpid : event.pid = pid := by simpa using hown
    exact ⟨execInv_ingest inherits hinv hnext, ownFds_ingest_own hinv hpid hkind hstep hfds,
      ownFindings_ingest_own hinv hnext hpid hkind hstep hfds hfindings⟩
  · -- a record of another process: the view stutters
    rintro t v event hother ⟨⟨hnext, hkind⟩, -⟩ ⟨hinv, hfds, hfindings⟩
    have hpid : event.pid ≠ pid := by simpa using hother
    exact ⟨execInv_ingest inherits hinv hnext, (ownFds_ingest_other hpid hkind).trans hfds,
      (ownFindings_ingest_other hpid hkind).trans hfindings⟩

/-- A failure removes all findings of its attempt exactly when no other process cut it short. -/
theorem attempt_removed_iff (hinv : ExecInv t) (hkind : event.kind = .execFail)
    (hnext : ∀ record ∈ t.resources, record.sequence < event.sequence) :
    (∀ finding ∈ t.findings, OwnAttempt event t.resources finding →
      finding ∉ (t.ingest inherits event).findings) ↔ Uncut event t := by
  have hmem : ∀ finding ∈ t.findings, finding ∉ (t.ingest inherits event).findings ↔
      inAttempt event t.resources finding = true := by
    intro finding hfinding
    rw [ingest_execFail inherits hkind]
    simp only [dropAttemptFindings_eq hinv hnext]
    simp [hfinding]
  constructor
  · -- the walk has passed every record since the finding, and it passes own records only
    intro h finding hfinding hown record hrecord hle
    have hin := inAttempt_iff.1 ((hmem finding hfinding).1 (h finding hfinding hown))
    exact (execAttemptMatches_iff.1 (hin record hrecord hle)).1.2.1
  · intro huncut finding hfinding hown
    rw [hmem finding hfinding, inAttempt_iff]
    intro record hrecord hle
    exact hown.2 record hrecord (huncut finding hfinding hown record hrecord hle) hle

end Tables

/-! ## Two logs with the same records of a process -/

/-- The records of a process keep their order, and their texts but for the position. -/
theorem filter_numberFrom_unplaced (pid : Int) (n : Nat) (log : List ResourceEvent) :
    ((numberFrom n log).filter fun event => event.pid = pid).map ResourceEvent.unplaced =
      (log.filter fun event => event.pid = pid).map ResourceEvent.unplaced := by
  induction log generalizing n with
  | nil => rfl
  | cons event rest ih =>
    rw [numberFrom]
    by_cases hpid : event.pid = pid
    · rw [List.filter_cons_of_pos (by simpa using hpid), List.filter_cons_of_pos (by simpa),
        List.map_cons, List.map_cons, ih]
      rfl
    · rw [List.filter_cons_of_neg (by simpa using hpid), List.filter_cons_of_neg (by simpa), ih]

/-- The exec findings of a process, without positions. -/
def execFindings (pid : Int) (findings : List Finding) : List Finding :=
  (findings.filter fun finding => finding.kind = .execInherit ∧ finding.pid = pid).map
    Finding.unplaced

theorem execFindings_eq_own {t : Tables} (hinv : Tables.ExecInv t) (pid : Int) :
    execFindings pid t.findings =
      (ownFindings pid t.resources t.findings).map OwnFinding.finding := by
  rw [execFindings, ownFindings, List.map_map]
  have hkind : ∀ finding ∈ t.findings, finding.kind = .execInherit := by
    intro finding hfinding
    obtain ⟨_, -, _, rfl⟩ := hinv.raisedBy finding hfinding
    rfl
  congr 1
  apply List.filter_congr
  intro finding hfinding
  simp [hkind finding hfinding]

theorem exists_source_of_mem {resources : List ResourceEvent} {sites : List SourceSite}
    {sources : List LifecycleFinding} {added : List Finding}
    (h : List.Forall₂ (MapsTo resources sites) sources added) {finding : Finding}
    (hfinding : finding ∈ added) : ∃ source ∈ sources, MapsTo resources sites source finding := by
  induction h with
  | nil => exact absurd hfinding (by simp)
  | @cons source first _ _ hfirst _ ih =>
    rcases List.mem_cons.1 hfinding with rfl | hrest
    · exact ⟨source, by simp, hfirst⟩
    · obtain ⟨found, hmem, hmaps⟩ := ih hrest
      exact ⟨found, by simp [hmem], hmaps⟩

/-- No finding of the lifecycle library becomes an exec finding. -/
theorem genericFindingKind_ne_execInherit (source : LifecycleFinding) :
    genericFindingKind source ≠ .execInherit := by
  rw [genericFindingKind]
  cases source.kind <;> split <;> first | decide | (split <;> decide)

/-- Finalization neither adds nor removes exec findings. -/
theorem execFindings_finalizeLeaks {lib : ToolEventLib} (st : State lib)
    (hok : (finalizeLeaks st).err.error = false) (pid : Int) :
    execFindings pid (finalizeLeaks st).model.findings.items =
      execFindings pid st.model.findings.items := by
  obtain ⟨-, sources, added, hadded, htables⟩ := finalizeLeaks_tables st hok
  have hfindings : (finalizeLeaks st).model.findings.items =
      st.model.findings.items ++ added := by
    refine (congrArg Tables.findings htables).trans ?_
    rw [Tables.settle_findings]
    rfl
  have hnone : (added.filter fun finding =>
      finding.kind = .execInherit ∧ finding.pid = pid) = [] := by
    rw [List.filter_eq_nil_iff]
    intro finding hfinding
    obtain ⟨source, -, hmaps⟩ := exists_source_of_mem hadded hfinding
    have := genericFindingKind_ne_execInherit source
    simp [hmaps.kind, this]
  rw [hfindings, execFindings, List.filter_append, hnone, List.append_nil, execFindings]

/-- The findings of a process after finalization are those of its own replay. -/
theorem execFindings_eq_view {lib : ToolEventLib} {st : State lib}
    (hfresh : st.model.tables = Tables.empty) {pid : Int} {log : List ResourceEvent}
    (hfork : ∀ event ∈ log, event.kind ≠ .fork)
    (hok : (finalizeLeaks (ingestLog st (number log))).err.error = false)
    (hindep : EveryStep ingestResource
      (fun st event => Tables.Independent pid st.model.tables event) st (number log)) :
    execFindings pid (finalizeLeaks (ingestLog st (number log))).model.findings.items =
      ((((log.filter fun event => event.pid = pid).map ResourceEvent.unplaced).foldl
        (ProcessView.step lib.execInherits) ProcessView.empty).findings).map
          OwnFinding.finding := by
  obtain ⟨hrun, -⟩ := finalizeLeaks_tables _ hok
  rw [everyStep_tables hrun, hfresh] at hindep
  obtain ⟨hinv, -, hfindings⟩ := Tables.follows_run hfork hindep
  have htables := tables_of_fresh hfresh hrun
  rw [execFindings_finalizeLeaks _ hok, ← filter_numberFrom_unplaced pid 0 log,
    ProcessView.run_unplaced, ← number, ← hfindings, ← execFindings_eq_own hinv, ← htables]
  rfl

/-- **Interleaving independence of exec findings.** Take a log without `FORK` records in which, at
every record of the process, the outcome depends on the process's own records only. Then any other
such log with the same records of the process gives the same exec findings of that process, in the
same order and up to positions. And at every `EXECFAIL` record, whatever was written in between, no
finding of the failed attempt survives exactly when no other process has written since one was
raised. -/
theorem execFindings_interleaving {lib : ToolEventLib} (st : State lib)
    (hfresh : st.model.tables = Tables.empty) (log : List ResourceEvent)
    (hfork : ∀ event ∈ log, event.kind ≠ .fork)
    (hok : (finalizeLeaks (ingestLog st (number log))).err.error = false) :
    (∀ (st' : State lib) (log' : List ResourceEvent) (pid : Int),
      st'.model.tables = Tables.empty → (∀ event ∈ log', event.kind ≠ .fork) →
      (finalizeLeaks (ingestLog st' (number log'))).err.error = false →
      (log.filter fun event => event.pid = pid) = (log'.filter fun event => event.pid = pid) →
      EveryStep ingestResource (fun st event => Tables.Independent pid st.model.tables event) st
        (number log) →
      EveryStep ingestResource (fun st event => Tables.Independent pid st.model.tables event) st'
        (number log') →
      execFindings pid (finalizeLeaks (ingestLog st (number log))).model.findings.items =
        execFindings pid (finalizeLeaks (ingestLog st' (number log'))).model.findings.items) ∧
    ∀ pre fail post, number log = pre ++ fail :: post → fail.kind = .execFail →
      ((∀ finding ∈ (ingestLog st pre).model.findings.items,
          Tables.OwnAttempt fail (ingestLog st pre).model.resources.items finding →
          finding ∉ (ingestLog st (pre ++ [fail])).model.findings.items) ↔
        Tables.Uncut fail (ingestLog st pre).model.tables) := by
  constructor
  · -- both logs give the findings of the process's own replay
    intro st' log' pid hfresh' hfork' hok' hown hindep hindep'
    rw [execFindings_eq_view hfresh hfork hok hindep,
      execFindings_eq_view hfresh' hfork' hok' hindep', hown]
  · intro pre fail post hsplit hkind
    obtain ⟨hend, -⟩ := finalizeLeaks_tables _ hok
    obtain ⟨hbefore, hafter, hsorted⟩ := tables_at_record hfresh hend hsplit
    obtain ⟨hpre, -, hlast⟩ := List.pairwise_append.1 hsorted
    have hinv : Tables.ExecInv (ingestLog st pre).model.tables := by
      rw [hbefore]
      exact Tables.execInv_run lib.execInherits Tables.execInv_empty hpre
    have hnext : ∀ record ∈ (ingestLog st pre).model.tables.resources,
        record.sequence < fail.sequence := by
      rw [hbefore, Tables.run_resources]
      exact fun record hrecord => hlast record hrecord fail (by simp)
    rw [← hbefore] at hafter
    rw [← @Tables.attempt_removed_iff lib.execInherits _ _ hinv hkind hnext, ← hafter]
    rfl

/-- A failed exec in a log shared with a second process that writes before and after the attempt. -/
theorem execFindings_interleaving_shared_log :
    execFindings 1 (finalizeLeaks (ingestLog State.zeroed (number [openRecord 1 3, openRecord 2 4,
        execRecord 1 3 0, execFailRecord 1]))).model.findings.items =
      execFindings 1 (finalizeLeaks (ingestLog State.zeroed (number [openRecord 1 3,
        execRecord 1 3 0, execFailRecord 1, openRecord 2 4]))).model.findings.items :=
  (execFindings_interleaving State.zeroed (by decide)
    [openRecord 1 3, openRecord 2 4, execRecord 1 3 0, execFailRecord 1] (by decide)
    (by decide)).1 State.zeroed [openRecord 1 3, execRecord 1 3 0, execFailRecord 1,
      openRecord 2 4] 1 (by decide) (by decide) (by decide) (by decide) (by decide) (by decide)

/-- A record of a second process between the snapshot and its `EXECFAIL` keeps the finding of the
failed attempt. -/
theorem execFindings_depend_on_interleaving :
    (∀ pid : Int, ([openRecord 1 3, execRecord 1 3 0, openRecord 2 4, execFailRecord 1].filter
        fun event => event.pid = pid) =
      [openRecord 1 3, execRecord 1 3 0, execFailRecord 1, openRecord 2 4].filter
        fun event => event.pid = pid) ∧
    (finalizeLeaks (ingestLog State.zeroed (number [openRecord 1 3, execRecord 1 3 0,
      openRecord 2 4, execFailRecord 1]))).err.error = false ∧
    execFindings 1 (finalizeLeaks (ingestLog State.zeroed (number [openRecord 1 3,
        execRecord 1 3 0, openRecord 2 4, execFailRecord 1]))).model.findings.items ≠
      execFindings 1 (finalizeLeaks (ingestLog State.zeroed (number [openRecord 1 3,
        execRecord 1 3 0, execFailRecord 1, openRecord 2 4]))).model.findings.items := by
  refine ⟨?_, by decide, by decide⟩
  -- the records of process 1, those of process 2, and none of any other
  intro pid
  by_cases hone : (1 : Int) = pid
  · subst hone
    decide
  · by_cases htwo : (2 : Int) = pid
    · subst htwo
      decide
    · simp [openRecord, execRecord, execFailRecord, hone, htwo]

end P101Report
