import P101Report.Model.Lifetimes
import P101Report.Replay.LiveTable

/-!
# Descriptor lifetimes and the live table

The reports end the lifetime of an `OPEN` record at the next `CLOSE` of its descriptor, by a scan
over the stored records. The replay ends the entry of the record at that `CLOSE`, or earlier: when
an exec with the close-on-exec flag succeeds. The scan does not see such an exec. It agrees with the
table exactly when every descriptor closed by an exec is closed by a `CLOSE` record as well
(`descriptorLifetimes_agree_iff`).
-/

set_option autoImplicit false

namespace P101Report

open SwapTable Runs

/-- The entry of an `OPEN` record: its process, its descriptor and its position. -/
def LiveFd.EntryOf (opened : ResourceEvent) (fd : LiveFd) : Prop :=
  fd.pid = opened.pid ∧ fd.fd = opened.fd ∧ fd.sequence = opened.sequence

instance (opened : ResourceEvent) (fd : LiveFd) : Decidable (fd.EntryOf opened) :=
  inferInstanceAs (Decidable (_ ∧ _ ∧ _))

/-- A descriptor that the success of the pending exec will close. -/
def LiveFd.ClosesOnExec (fd : LiveFd) : Prop := fd.execPending ≠ 0 ∧ fd.execCloexec ≠ 0

instance (fd : LiveFd) : Decidable fd.ClosesOnExec := inferInstanceAs (Decidable (_ ∧ _))

/-- What is left of the log begins with the success of a pending exec of `pid`: with a record of the
process that belongs to no exec attempt, or with the end of the log. -/
def SucceedsNow (pid : Int) : List ResourceEvent → Prop
  | [] => True
  | event :: _ => event.kind ≠ .exec ∧ event.kind ≠ .execFail ∧ event.pid = pid

instance (pid : Int) : (rest : List ResourceEvent) → Decidable (SucceedsNow pid rest)
  | [] => inferInstanceAs (Decidable True)
  | _ :: _ => inferInstanceAs (Decidable (_ ∧ _ ∧ _))

/-- A `CLOSE` record of a descriptor. -/
def ResourceEvent.Closes (pid fd : Int) (event : ResourceEvent) : Prop :=
  event.kind = .fdClose ∧ event.pid = pid ∧ event.fd = fd

instance (pid fd : Int) (event : ResourceEvent) : Decidable (event.Closes pid fd) :=
  inferInstanceAs (Decidable (_ ∧ _ ∧ _))

theorem LiveFd.EntryOf.congr {opened : ResourceEvent} {fd fd' : LiveFd} (h : fd.EntryOf opened)
    (hclear : fd'.clear = fd.clear) : fd'.EntryOf opened := by
  obtain ⟨hpid, hfd, -, hsequence⟩ := LiveFd.core_of_clear hclear
  rw [LiveFd.EntryOf, hpid, hfd, hsequence]
  exact h

namespace Tables

variable {inherits : Bool → Bool} {t : Tables} {event : ResourceEvent}

/-! ## Entries along one record -/

/-- The record lets an entry stand: the commit before it does not close it, and it is no `CLOSE` of
the descriptor. -/
def LetsStand (fd : LiveFd) (event : ResourceEvent) : Prop :=
  (SucceedsNow fd.pid [event] → ¬ fd.ClosesOnExec) ∧ ¬ event.Closes fd.pid fd.fd

/-- An entry stays, up to its marks, under a record that lets it stand. -/
theorem mem_ingest_of_mem {fd : LiveFd} (hfd : fd ∈ t.fds) (hstand : LetsStand fd event) :
    ∃ kept ∈ (t.ingest inherits event).fds, kept.clear = fd.clear := by
  have hcommit : event.kind ≠ .exec → event.kind ≠ .execFail →
      ∃ kept ∈ (t.finishExec event.pid false).fds, kept.clear = fd.clear := by
    intro hexec hfail
    apply mem_finishExec_of_mem hfd
    rintro ⟨hpid, hcloses⟩
    exact hstand.1 ⟨hexec, hfail, hpid.symm⟩ hcloses
  cases hkind : event.kind with
  | fdOpen =>
    obtain ⟨kept, hkept, hclear⟩ := hcommit (by simp [hkind]) (by simp [hkind])
    rw [ingest_fdOpen inherits hkind]
    exact ⟨kept, List.mem_append_left _ hkept, hclear⟩
  | fdClose =>
    obtain ⟨kept, hkept, hclear⟩ := hcommit (by simp [hkind]) (by simp [hkind])
    rw [ingest_fdClose inherits hkind]
    refine ⟨kept, mem_removeFirst_of_neg hkept ?_, hclear⟩
    -- the `CLOSE` is of another descriptor
    apply Bool.eq_false_iff.2
    intro hfor
    have hkey := (LiveFd.key_of_clear hclear).symm.trans (LiveFd.isFor_iff.1 hfor)
    obtain ⟨hpid, hfdEq⟩ := Prod.mk.inj hkey
    exact hstand.2 ⟨hkind, hpid.symm, hfdEq.symm⟩
  | fork =>
    obtain ⟨kept, hkept, hclear⟩ := hcommit (by simp [hkind]) (by simp [hkind])
    rw [ingest_fork inherits hkind]
    exact ⟨kept, mem_forkEntries hkept, hclear⟩
  | exec =>
    rw [ingest_exec inherits hkind]
    -- up to marks the table is the same
    have hviews := modifyFirst_map (LiveFd.isFor event.pid event.fd) (LiveFd.mark event)
      LiveFd.clear t.fds fun _ _ _ => rfl
    have hmem : fd.clear ∈ t.fds.map LiveFd.clear := List.mem_map.2 ⟨fd, hfd, rfl⟩
    rw [← hviews] at hmem
    exact List.mem_map.1 hmem
  | execFail =>
    rw [ingest_execFail inherits hkind]
    exact ⟨clearFor event.pid fd, List.mem_map.2 ⟨fd, hfd, rfl⟩, clearFor_clear event.pid fd⟩
  | alloc | free | realloc | spawn | generic =>
    obtain ⟨kept, hkept, hclear⟩ := hcommit (by simp [hkind]) (by simp [hkind])
    obtain ⟨allocs, freedAllocs, heq⟩ := ingest_of_memory inherits event (by simp [hkind]) t
    rw [heq]
    exact ⟨kept, hkept, hclear⟩

/-- An entry after a record is one the commit has left, up to its marks, or the record's own. -/
theorem mem_of_mem_ingest {fd : LiveFd} (hfd : fd ∈ (t.ingest inherits event).fds) :
    fd.sequence = event.sequence ∨
      ∃ old ∈ t.fds, fd.clear = old.clear ∧ ¬ (SucceedsNow old.pid [event] ∧ old.ClosesOnExec) := by
  have hcommit : ∀ kept ∈ (t.finishExec event.pid false).fds,
      ∃ old ∈ t.fds, kept.clear = old.clear ∧
        ¬ (SucceedsNow old.pid [event] ∧ old.ClosesOnExec) := by
    intro kept hkept
    obtain ⟨old, hold, hverdict⟩ := mem_finishExec.1 hkept
    refine ⟨old, hold, finishVerdict_clear hverdict, ?_⟩
    rintro ⟨⟨-, -, hpid⟩, hpending, hcloexec⟩
    simp [finishVerdict, hpid, hpending, hcloexec] at hverdict
  cases hkind : event.kind with
  | fdOpen =>
    rw [ingest_fdOpen inherits hkind] at hfd
    rcases List.mem_append.1 hfd with hold | hnew
    · exact Or.inr (hcommit fd hold)
    · rw [List.mem_singleton.1 hnew]
      exact Or.inl rfl
  | fdClose =>
    rw [ingest_fdClose inherits hkind] at hfd
    exact Or.inr (hcommit fd (mem_of_mem_removeFirst hfd))
  | fork =>
    rw [ingest_fork inherits hkind] at hfd
    rcases mem_forkEntries_cases hfd with hold | ⟨parent, -, rfl⟩
    · exact Or.inr (hcommit fd hold)
    · exact Or.inl rfl
  | exec =>
    -- an `EXEC` record is no success of an earlier exec
    have hidle : ∀ old : LiveFd, ¬ (SucceedsNow old.pid [event] ∧ old.ClosesOnExec) :=
      fun old h => h.1.1 hkind
    rw [ingest_exec inherits hkind] at hfd
    rcases mem_modifyFirst hfd with hold | ⟨old, hold, -, rfl⟩
    · exact Or.inr ⟨fd, hold, rfl, hidle fd⟩
    · exact Or.inr ⟨old, hold, rfl, hidle old⟩
  | execFail =>
    -- nor is its failure
    have hidle : ∀ old : LiveFd, ¬ (SucceedsNow old.pid [event] ∧ old.ClosesOnExec) :=
      fun old h => h.1.2.1 hkind
    rw [ingest_execFail inherits hkind] at hfd
    obtain ⟨old, hold, rfl⟩ := List.mem_map.1 hfd
    exact Or.inr ⟨old, hold, clearFor_clear event.pid old, hidle old⟩
  | alloc | free | realloc | spawn | generic =>
    obtain ⟨allocs, freedAllocs, heq⟩ := ingest_of_memory inherits event (by simp [hkind]) t
    rw [heq] at hfd
    exact Or.inr (hcommit fd hfd)

/-! ## The end of the log -/

/-- What the end of the log does to the entries of a process: the pending ones leave. -/
theorem finishVerdict_endOfInput (pid : Int) (fd : LiveFd) :
    finishVerdict pid true fd = if fd.pid = pid ∧ fd.execPending ≠ 0 then none else some fd := by
  rw [finishVerdict]
  by_cases hpid : fd.pid = pid
  · by_cases hpending : fd.execPending = 0
    · simp [hpending]
    · simp [hpid, hpending]
  · simp [hpid]

theorem mem_finishExec_endOfInput {pid : Int} {fd : LiveFd} :
    fd ∈ (t.finishExec pid true).fds ↔ fd ∈ t.fds ∧ ¬ (fd.pid = pid ∧ fd.execPending ≠ 0) := by
  rw [mem_finishExec]
  simp only [finishVerdict_endOfInput]
  constructor
  · rintro ⟨old, hold, hverdict⟩
    split at hverdict
    · cases hverdict
    · obtain rfl := Option.some.inj hverdict
      exact ⟨hold, by assumption⟩
  · rintro ⟨hfd, hkept⟩
    exact ⟨fd, hfd, if_neg hkept⟩

/-- Each restart of the final loop settles at least the entry it has found. -/
theorem length_finishExec_lt {fd : LiveFd} (hfd : fd ∈ t.fds) (hpending : fd.execPending ≠ 0) :
    (t.finishExec fd.pid true).fds.length < t.fds.length := by
  rw [(finishExec_fds_perm fd.pid true t).length_eq]
  apply List.length_filterMap_lt_length_iff_exists.2
  refine ⟨fd, hfd, ?_⟩
  rw [finishVerdict_endOfInput, if_pos ⟨rfl, hpending⟩]

/-- After the log the live descriptors are those that no exec had marked. -/
theorem mem_settle_fds {fd : LiveFd} : fd ∈ t.settle.fds ↔ fd ∈ t.fds ∧ fd.execPending = 0 := by
  -- each restart shortens the table, so the number of entries is enough fuel
  have hsettle : ∀ (fuel : Nat) (t : Tables), t.fds.length ≤ fuel →
      (fd ∈ (t.finishPending fuel).fds ↔ fd ∈ t.fds ∧ fd.execPending = 0) := by
    intro fuel
    induction fuel with
    | zero =>
      intro t hlength
      have hempty := List.length_eq_zero_iff.1 (Nat.le_zero.1 hlength)
      simp [finishPending, hempty]
    | succ fuel ih =>
      intro t hlength
      rw [finishPending]
      split
      · -- the loop stops when nothing is pending
        rename_i hnone
        have hidle := List.find?_eq_none.1 hnone
        refine ⟨fun hfd => ⟨hfd, ?_⟩, fun hfd => hfd.1⟩
        simpa using hidle fd hfd
      · rename_i found hfound
        have hpending : found.execPending ≠ 0 := by simpa using List.find?_some hfound
        have hless := length_finishExec_lt (List.mem_of_find?_eq_some hfound) hpending
        rw [ih _ (by omega), mem_finishExec_endOfInput]
        constructor
        · rintro ⟨⟨hfd, -⟩, hidle⟩
          exact ⟨hfd, hidle⟩
        · rintro ⟨hfd, hidle⟩
          exact ⟨⟨hfd, fun h => h.2 hidle⟩, hidle⟩
  exact hsettle t.fds.length t le_rfl

/-! ## A descriptor along a run -/

/-- The entry of an `OPEN` record stays in the table while every record lets it stand. -/
theorem entryOf_run {opened : ResourceEvent} (hkind : opened.kind = .fdOpen)
    {rest : List ResourceEvent}
    (hstand : EveryStep (ingest inherits)
      (fun t event => ∀ fd ∈ t.fds, fd.EntryOf opened → LetsStand fd event)
      (t.ingest inherits opened) rest) :
    ∃ fd ∈ (t.run inherits (opened :: rest)).fds, fd.EntryOf opened := by
  rw [run_cons]
  apply @EveryStep.invariant _ _ _ _ (fun t : Tables => ∃ fd ∈ t.fds, fd.EntryOf opened) ?_ _ _ ?_
    hstand
  · -- the entry may change its marks along the way
    rintro t event hok ⟨fd, hfd, hentry⟩
    obtain ⟨kept, hkept, hclear⟩ := @mem_ingest_of_mem inherits _ _ _ hfd (hok fd hfd hentry)
    exact ⟨kept, hkept, hentry.congr hclear⟩
  · rw [ingest_fdOpen inherits hkind]
    exact ⟨LiveFd.ofOpen opened, by simp, rfl, rfl, rfl⟩

/-- A position that has left the table does not come back. -/
theorem sequence_gone_run {position : Nat} {rest : List ResourceEvent}
    (hrest : ∀ event ∈ rest, event.sequence ≠ position)
    (hgone : ∀ fd ∈ t.fds, fd.sequence ≠ position) :
    ∀ fd ∈ (t.run inherits rest).fds, fd.sequence ≠ position := by
  apply @EveryStep.invariant _ _ _ _ (fun t : Tables => ∀ fd ∈ t.fds, fd.sequence ≠ position) ?_ _ _
    hgone (EveryStep.of_forall_mem hrest t)
  intro t event hevent hgone fd hfd
  rcases mem_of_mem_ingest hfd with hnew | ⟨old, hold, hclear, -⟩
  · rw [hnew]
    exact hevent
  · rw [(LiveFd.core_of_clear hclear).2.2.2]
    exact hgone old hold

end Tables

theorem mem_of_latestRecord {pid fd : Int} {resources : List ResourceEvent} {event : ResourceEvent}
    (h : latestRecord pid fd resources = some event) :
    event ∈ resources ∧ event.touches pid fd = true :=
  List.mem_filter.1 (List.mem_of_getLast? h)

/-- No `OPEN` or `CLOSE` of the descriptor lies behind the latest one. -/
theorem le_of_latestRecord {pid fd : Int} {resources : List ResourceEvent}
    (hsorted : resources.Pairwise fun a b => a.sequence < b.sequence) {latest event : ResourceEvent}
    (h : latestRecord pid fd resources = some latest) (hmem : event ∈ resources)
    (htouches : event.touches pid fd = true) : event.sequence ≤ latest.sequence := by
  obtain ⟨earlier, heq⟩ := List.getLast?_eq_some_iff.1 h
  have hfiltered := hsorted.filter (ResourceEvent.touches pid fd)
  have hmem' : event ∈ resources.filter (ResourceEvent.touches pid fd) :=
    List.mem_filter.2 ⟨hmem, htouches⟩
  rw [heq] at hfiltered hmem'
  rcases List.mem_append.1 hmem' with hearlier | hlast
  · exact Nat.le_of_lt ((List.pairwise_append.1 hfiltered).2.2 event hearlier latest (by simp))
  · rw [List.mem_singleton.1 hlast]

namespace Tables

variable {inherits : Bool → Bool} {t : Tables}

/-- An entry with the position of an `OPEN` record is that of the latest record of its descriptor.
-/
theorem latestRecord_of_sequence (hinv : OpenInv t)
    (hsorted : t.resources.Pairwise fun a b => a.sequence < b.sequence) {fd : LiveFd}
    (hfd : fd ∈ t.fds) {opened : ResourceEvent} (hopened : opened ∈ t.resources)
    (hkind : opened.kind = .fdOpen) (hsequence : opened.sequence = fd.sequence) :
    latestRecord fd.pid fd.fd t.resources = some opened := by
  rcases hinv.origin fd hfd with ⟨latest, hlatest, -, -, hsame⟩ | ⟨fork, hfork, hforkKind, -, hsame⟩
  · obtain rfl := eq_of_sequence_eq hsorted hopened (mem_of_latestRecord hlatest).1
      (hsequence.trans hsame.symm)
    exact hlatest
  · -- an inherited entry has the position of a `FORK`, not of an `OPEN`
    obtain rfl := eq_of_sequence_eq hsorted hopened hfork (hsequence.trans hsame.symm)
    rw [hkind] at hforkKind
    cases hforkKind

theorem entryOf_of_sequence (hinv : OpenInv t)
    (hsorted : t.resources.Pairwise fun a b => a.sequence < b.sequence) {fd : LiveFd}
    (hfd : fd ∈ t.fds) {opened : ResourceEvent} (hopened : opened ∈ t.resources)
    (hkind : opened.kind = .fdOpen) (hsequence : opened.sequence = fd.sequence) :
    fd.EntryOf opened := by
  have hlatest := latestRecord_of_sequence hinv hsorted hfd hopened hkind hsequence
  have htouches := (mem_of_latestRecord hlatest).2
  simp only [ResourceEvent.touches, Bool.and_eq_true, beq_iff_eq] at htouches
  exact ⟨htouches.1.2.symm, htouches.2.symm, hsequence.symm⟩

/-- Entries with the position of one `OPEN` record are one entry. -/
theorem eq_of_entryOf (hinv : OpenInv t) {fd fd' : LiveFd} (hfd : fd ∈ t.fds) (hfd' : fd' ∈ t.fds)
    {opened : ResourceEvent} (h : fd.EntryOf opened) (h' : fd'.EntryOf opened) : fd = fd' := by
  apply List.inj_on_of_nodup_map hinv.keys hfd hfd'
  rw [LiveFd.key, LiveFd.key, h.1, h.2.1, h'.1, h'.2.1]

end Tables

/-! ## The scan and the table -/

/-- The scan finds nothing when no `CLOSE` of the descriptor lies behind the `OPEN`. -/
theorem findFdLifetimeEnd_eq_none {resources : List ResourceEvent} {birth : ResourceEvent} :
    findFdLifetimeEnd resources birth = none ↔
      ∀ event ∈ resources, birth.sequence < event.sequence → ¬ event.Closes birth.pid birth.fd := by
  simp only [findFdLifetimeEnd, List.find?_eq_none, Bool.and_eq_true, decide_eq_true_eq, beq_iff_eq,
    ResourceEvent.Closes]
  constructor
  · rintro h event hevent hlater ⟨hkind, hpid, hfd⟩
    exact h event hevent ⟨⟨⟨hlater, hkind⟩, hpid⟩, hfd⟩
  · rintro h event hevent ⟨⟨⟨hlater, hkind⟩, hpid⟩, hfd⟩
    exact h event hevent hlater ⟨hkind, hpid, hfd⟩

/-- The condition on a log, given the live descriptors after each of its beginnings: a descriptor of
an `OPEN` record that the success of an exec closes is closed by a `CLOSE` record from there on. -/
def ExecCloseRecorded (fdsAfter : List ResourceEvent → List LiveFd) (log : List ResourceEvent) :
    Prop :=
  ∀ n ≤ log.length, ∀ fd ∈ fdsAfter (log.take n), SucceedsNow fd.pid (log.drop n) →
    fd.ClosesOnExec → (∃ opened ∈ log.take n, opened.kind = .fdOpen ∧
      opened.sequence = fd.sequence) →
    ∃ closing ∈ log.drop n, closing.Closes fd.pid fd.fd

instance (fdsAfter : List ResourceEvent → List LiveFd) (log : List ResourceEvent) :
    Decidable (ExecCloseRecorded fdsAfter log) :=
  inferInstanceAs (Decidable (∀ n ≤ _, ∀ _ ∈ _, _ → _ → (∃ _ ∈ _, _ ∧ _) → ∃ _ ∈ _, _))

theorem execCloseRecorded_iff {fdsAfter : List ResourceEvent → List LiveFd}
    {log : List ResourceEvent} :
    ExecCloseRecorded fdsAfter log ↔
      ∀ pre post, log = pre ++ post → ∀ fd ∈ fdsAfter pre, SucceedsNow fd.pid post →
        fd.ClosesOnExec → (∃ opened ∈ pre, opened.kind = .fdOpen ∧
          opened.sequence = fd.sequence) →
        ∃ closing ∈ post, closing.Closes fd.pid fd.fd := by
  constructor
  · rintro h pre post rfl
    simpa using h pre.length (by simp)
  · intro h n _
    exact h _ _ (List.take_append_drop n log).symm

namespace Tables

variable {inherits : Bool → Bool}

/-- If the scan ends no lifetime too few, every descriptor closed by an exec is closed by a record.
-/
theorem execCloseRecorded_of_agree {log : List ResourceEvent}
    (hsorted : log.Pairwise fun a b => a.sequence < b.sequence)
    (hanew : EveryStep (ingest inherits) OpensAnew empty log)
    (hagree : ∀ opened ∈ log, opened.kind = .fdOpen → findFdLifetimeEnd log opened = none →
      ∃ fd ∈ (empty.run inherits log).fds, fd.EntryOf opened ∧ ¬ fd.ClosesOnExec) :
    ExecCloseRecorded (fun pre => (empty.run inherits pre).fds) log := by
  rw [execCloseRecorded_iff]
  rintro pre post rfl fd hfd hsucceeds hcloses ⟨opened, hopened, hkind, hsequence⟩
  by_contra hnone
  obtain ⟨hsortedPre, hsortedPost, hbefore⟩ := List.pairwise_append.1 hsorted
  have hinv : OpenInv (empty.run inherits pre) :=
    openInv_run ((EveryStep.append _ _ _).1 hanew).1
  have hresources : (empty.run inherits pre).resources = pre := by simp [empty]
  have hlatest : latestRecord fd.pid fd.fd pre = some opened := by
    have h := latestRecord_of_sequence hinv (hresources.symm ▸ hsortedPre) hfd
      (hresources.symm ▸ hopened) hkind hsequence
    rwa [hresources] at h
  have hentry : fd.EntryOf opened := entryOf_of_sequence hinv (hresources.symm ▸ hsortedPre) hfd
    (hresources.symm ▸ hopened) hkind hsequence
  -- neither a record before the exec succeeds nor one from there on ends the lifetime
  have hend : findFdLifetimeEnd (pre ++ post) opened = none := by
    rw [findFdLifetimeEnd_eq_none, ← hentry.1, ← hentry.2.1]
    intro event hevent hlater hclosing
    rcases List.mem_append.1 hevent with hpre | hpost
    · have htouches : event.touches fd.pid fd.fd = true := by
        simp [ResourceEvent.touches, hclosing.1, hclosing.2.1, hclosing.2.2]
      have hle := le_of_latestRecord hsortedPre hlatest hpre htouches
      omega
    · exact hnone ⟨event, hpost, hclosing⟩
  obtain ⟨left, hleft, hleftEntry, hstays⟩ :=
    hagree opened (List.mem_append_left _ hopened) hkind hend
  cases post with
  | nil =>
    -- the exec succeeds with the end of the log, and the entry itself is the one to close
    rw [List.append_nil] at hleft
    obtain rfl := eq_of_entryOf hinv hleft hfd hleftEntry hentry
    exact hstays hcloses
  | cons event rest =>
    rw [run_append, run_cons] at hleft
    -- the next record of the process closes the entry, and its position never comes back
    have hgone : ∀ entry ∈ ((empty.run inherits pre).ingest inherits event).fds,
        entry.sequence ≠ opened.sequence := by
      intro entry hmem heq
      rcases mem_of_mem_ingest hmem with hnew | ⟨old, hold, hclear, hkept⟩
      · have hlt := hbefore opened hopened event (by simp)
        omega
      · have holdSequence : opened.sequence = old.sequence := by
          rw [← heq, (LiveFd.core_of_clear hclear).2.2.2]
        have holdEntry := entryOf_of_sequence hinv (hresources.symm ▸ hsortedPre) hold
          (hresources.symm ▸ hopened) hkind holdSequence
        obtain rfl := eq_of_entryOf hinv hold hfd holdEntry hentry
        exact hkept ⟨hsucceeds, hcloses⟩
    refine sequence_gone_run ?_ hgone left hleft hleftEntry.2.2
    intro later hlater
    have hlt := hbefore opened hopened later (by simp [hlater])
    omega

/-- Under the condition an `OPEN` record without an end has its entry still in the table. -/
theorem agree_of_execCloseRecorded {log : List ResourceEvent}
    (hsorted : log.Pairwise fun a b => a.sequence < b.sequence)
    (hrecorded : ExecCloseRecorded (fun pre => (empty.run inherits pre).fds) log)
    {opened : ResourceEvent} (hmem : opened ∈ log) (hkind : opened.kind = .fdOpen)
    (hend : findFdLifetimeEnd log opened = none) :
    ∃ fd ∈ (empty.run inherits log).fds, fd.EntryOf opened ∧ ¬ fd.ClosesOnExec := by
  rw [execCloseRecorded_iff] at hrecorded
  rw [findFdLifetimeEnd_eq_none] at hend
  obtain ⟨pre, post, rfl⟩ := List.append_of_mem hmem
  obtain ⟨-, hsortedPost, -⟩ := List.pairwise_append.1 hsorted
  -- at every position behind the `OPEN`, an exec that closes its entry would leave a `CLOSE` record
  have hkeeps : ∀ mid rest, post = mid ++ rest →
      ∀ fd ∈ (empty.run inherits (pre ++ opened :: mid)).fds, fd.EntryOf opened →
        SucceedsNow fd.pid rest → ¬ fd.ClosesOnExec := by
    rintro mid rest rfl fd hfd hentry hsucceeds hcloses
    obtain ⟨closing, hclosing, hclosesFd⟩ := hrecorded (pre ++ opened :: mid) rest (by simp) fd hfd
      hsucceeds hcloses ⟨opened, by simp, hkind, hentry.2.2.symm⟩
    rw [hentry.1, hentry.2.1] at hclosesFd
    have hlater := List.rel_of_pairwise_cons hsortedPost (List.mem_append_right mid hclosing)
    exact hend closing (by simp [hclosing]) hlater hclosesFd
  have hstand : EveryStep (ingest inherits)
      (fun t event => ∀ fd ∈ t.fds, fd.EntryOf opened → LetsStand fd event)
      ((empty.run inherits pre).ingest inherits opened) post := by
    rw [EveryStep.iff_splits]
    rintro mid event rest rfl fd hfd hentry
    have hrun : fd ∈ (empty.run inherits (pre ++ opened :: mid)).fds := by
      rw [run_append]
      exact hfd
    refine ⟨fun hsucceeds => hkeeps mid (event :: rest) rfl fd hrun hentry hsucceeds, ?_⟩
    rw [hentry.1, hentry.2.1]
    have hlater := List.rel_of_pairwise_cons hsortedPost
      (show event ∈ mid ++ event :: rest by simp)
    exact hend event (by simp) hlater
  obtain ⟨fd, hfd, hentry⟩ := entryOf_run hkind hstand
  rw [← run_append] at hfd
  exact ⟨fd, hfd, hentry, hkeeps post [] (by simp) fd hfd hentry trivial⟩

end Tables

/-- **When descriptor lifetimes agree with the live table.** Over an error-free log that opens no
live descriptor, every `OPEN` record that the scan leaves without an end has its entry still live
after the log, or handed to the image of a last exec, exactly when every descriptor of an `OPEN`
record that the success of an exec closes is closed by a `CLOSE` record from there on. -/
theorem descriptorLifetimes_agree_iff {lib : ToolEventLib} (st : State lib)
    (hfresh : st.model.tables = Tables.empty) (log : List ResourceEvent)
    (hok : (finalizeLeaks (ingestLog st (number log))).err.error = false)
    (hanew : EveryStep ingestResource (fun st event => Tables.OpensAnew st.model.tables event) st
      (number log)) :
    (∀ opened ∈ (finalizeLeaks (ingestLog st (number log))).model.resources.items,
      opened.kind = .fdOpen →
      findFdLifetimeEnd (finalizeLeaks (ingestLog st (number log))).model.resources.items opened =
        none →
      (∃ fd ∈ (finalizeLeaks (ingestLog st (number log))).model.fds.items, fd.EntryOf opened) ∨
        ∃ fd ∈ (ingestLog st (number log)).model.fds.items, fd.EntryOf opened ∧
          fd.execPending ≠ 0 ∧ fd.execCloexec = 0) ↔
      ExecCloseRecorded (fun pre => (ingestLog st pre).model.fds.items) (number log) := by
  obtain ⟨hingest, hresources, hfds, -⟩ := finalizeLeaks_of_fresh hfresh hok
  have hlive : (ingestLog st (number log)).model.fds.items =
      (Tables.empty.run lib.execInherits (number log)).fds :=
    congrArg Tables.fds (tables_of_fresh hfresh hingest)
  have hcondition : ExecCloseRecorded (fun pre => (ingestLog st pre).model.fds.items) (number log) ↔
      ExecCloseRecorded (fun pre => (Tables.empty.run lib.execInherits pre).fds) (number log) := by
    have hbegin : ∀ n, (ingestLog st ((number log).take n)).model.fds.items =
        (Tables.empty.run lib.execInherits ((number log).take n)).fds := fun n =>
      congrArg Tables.fds (tables_of_beginning hfresh hingest (List.take_append_drop n _).symm)
    simp only [ExecCloseRecorded, hbegin]
  rw [everyStep_tables hingest, hfresh] at hanew
  rw [hcondition, hresources, hfds, hlive]
  -- an entry is settled as live or as inherited exactly when no exec closes it at the end
  have hoption : ∀ opened : ResourceEvent,
      ((∃ fd ∈ (Tables.empty.run lib.execInherits (number log)).settle.fds, fd.EntryOf opened) ∨
        ∃ fd ∈ (Tables.empty.run lib.execInherits (number log)).fds, fd.EntryOf opened ∧
          fd.execPending ≠ 0 ∧ fd.execCloexec = 0) ↔
      ∃ fd ∈ (Tables.empty.run lib.execInherits (number log)).fds,
        fd.EntryOf opened ∧ ¬ fd.ClosesOnExec := by
    intro opened
    simp only [Tables.mem_settle_fds, LiveFd.ClosesOnExec]
    constructor
    · rintro (⟨fd, ⟨hfd, hidle⟩, hentry⟩ | ⟨fd, hfd, hentry, -, hcloexec⟩)
      · exact ⟨fd, hfd, hentry, fun h => h.1 hidle⟩
      · exact ⟨fd, hfd, hentry, fun h => h.2 hcloexec⟩
    · rintro ⟨fd, hfd, hentry, hstays⟩
      by_cases hidle : fd.execPending = 0
      · exact Or.inl ⟨fd, ⟨hfd, hidle⟩, hentry⟩
      · refine Or.inr ⟨fd, hfd, hentry, hidle, ?_⟩
        by_contra hcloexec
        exact hstays ⟨hidle, hcloexec⟩
  simp only [hoption]
  constructor
  · intro hagree
    exact Tables.execCloseRecorded_of_agree (number_pairwise log) hanew hagree
  · intro hrecorded opened hmem hkind hend
    exact Tables.agree_of_execCloseRecorded (number_pairwise log) hrecorded hmem hkind hend

/-- A failed exec, then a successful one whose closed descriptor is closed by a record as well. -/
theorem descriptorLifetimes_agree_recorded :
    let log := [openRecord 1 3, execRecord 1 3 1, execFailRecord 1, openRecord 1 4,
      execRecord 1 4 1, closeRecord 1 4]
    ∀ opened ∈ (finalizeLeaks (ingestLog State.zeroed (number log))).model.resources.items,
      opened.kind = .fdOpen →
      findFdLifetimeEnd
        (finalizeLeaks (ingestLog State.zeroed (number log))).model.resources.items opened = none →
      (∃ fd ∈ (finalizeLeaks (ingestLog State.zeroed (number log))).model.fds.items,
        fd.EntryOf opened) ∨
        ∃ fd ∈ (ingestLog State.zeroed (number log)).model.fds.items, fd.EntryOf opened ∧
          fd.execPending ≠ 0 ∧ fd.execCloexec = 0 := by
  intro log
  exact (descriptorLifetimes_agree_iff State.zeroed (by decide) log (by decide) (by decide)).2
    (by decide)

/-- A descriptor closed by a successful exec: its entry has moved to the closed ones, and the scan
shows its lifetime as still live. -/
theorem descriptorLifetimes_disagree :
    let log := [openRecord 1 3, execRecord 1 3 1, spawnRecord 1]
    let last := ingestLog State.zeroed (number log)
    EveryStep ingestResource (fun st event => Tables.OpensAnew st.model.tables event) State.zeroed
        (number log) ∧
      (finalizeLeaks last).err.error = false ∧
      (finalizeLeaks last).model.closedFds.items.map (fun closed => (closed.pid, closed.fd)) =
        [(1, 3)] ∧
      ¬ ∀ opened ∈ (finalizeLeaks last).model.resources.items, opened.kind = .fdOpen →
        findFdLifetimeEnd (finalizeLeaks last).model.resources.items opened = none →
        (∃ fd ∈ (finalizeLeaks last).model.fds.items, fd.EntryOf opened) ∨
          ∃ fd ∈ last.model.fds.items, fd.EntryOf opened ∧ fd.execPending ≠ 0 ∧
            fd.execCloexec = 0 := by
  decide

end P101Report
