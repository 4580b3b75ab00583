import P101Report.Library.OpenClose
import P101Report.Replay.Interleaving

/-!
# A FORK record and the records of the child

Parent and child write to one log, so the `FORK` record of the parent may come before or after the
child's first `OPEN` and `CLOSE` records. For one descriptor number the child's table is a count of
entries and a note that a close was seen (`Tables.tally`), and its records act on it as openings and
closings (`tally_run`). Ingested first, the `FORK` record starts the count at one for a descriptor
of the parent; ingested last, it adds an entry when there is none and no close was noted. The two
agree on every descriptor but those whose records are a single `CLOSE`, or start with an `OPEN` and
have as many of either kind.
-/

set_option autoImplicit false

namespace P101Report

open SwapTable Runs OpenClose

/-- `OPEN` and `CLOSE` records of one process. -/
def DescriptorRecords (pid : Int) (records : List ResourceEvent) : Prop :=
  ∀ event ∈ records, (event.kind = .fdOpen ∨ event.kind = .fdClose) ∧ event.pid = pid

instance (pid : Int) (records : List ResourceEvent) : Decidable (DescriptorRecords pid records) :=
  inferInstanceAs (Decidable (∀ _ ∈ _, _))

/-- Each `CLOSE` names a descriptor that is open at that point. -/
def ClosesOpen : (Int → Bool) → List ResourceEvent → Prop
  | _, [] => True
  | isOpen, event :: rest =>
    (event.kind = .fdClose → isOpen event.fd = true) ∧
      ClosesOpen (Function.update isOpen event.fd (event.kind == .fdOpen)) rest

/-- The openings and closings of one descriptor number. -/
def lettersOf (fd : Int) (records : List ResourceEvent) : List Bool :=
  (records.filter fun event => event.fd = fd).map fun event => event.kind == .fdOpen

theorem lettersOf_numberFrom (fd : Int) (n : Nat) (records : List ResourceEvent) :
    lettersOf fd (numberFrom n records) = lettersOf fd records := by
  induction records generalizing n with
  | nil => rfl
  | cons event rest ih =>
    have hrest := ih (n + 1)
    rw [lettersOf, lettersOf] at hrest
    rw [numberFrom, lettersOf, lettersOf]
    by_cases hfd : event.fd = fd
    · rw [List.filter_cons_of_pos (by simpa using hfd), List.filter_cons_of_pos (by simpa),
        List.map_cons, List.map_cons, hrest]
    · rw [List.filter_cons_of_neg (by simpa using hfd), List.filter_cons_of_neg (by simpa), hrest]

theorem DescriptorRecords.numberFrom {pid : Int} {records : List ResourceEvent}
    (h : DescriptorRecords pid records) (n : Nat) :
    DescriptorRecords pid (numberFrom n records) :=
  forall_numberFrom (fun _ _ h => h) n h

theorem closesOpen_numberFrom (isOpen : Int → Bool) (n : Nat) (records : List ResourceEvent) :
    ClosesOpen isOpen (numberFrom n records) ↔ ClosesOpen isOpen records := by
  induction records generalizing isOpen n with
  | nil => rfl
  | cons event rest ih =>
    rw [numberFrom, ClosesOpen, ClosesOpen, ih]

/-- The records of one descriptor number are a valid word. -/
theorem valid_lettersOf {pid fd : Int} {isOpen : Int → Bool} {records : List ResourceEvent}
    (hrecords : DescriptorRecords pid records) (hcloses : ClosesOpen isOpen records) :
    Valid (isOpen fd) (lettersOf fd records) := by
  induction records generalizing isOpen with
  | nil => trivial
  | cons event rest ih =>
    obtain ⟨hevent, hrest⟩ := hcloses
    have hvalid := ih (fun e he => hrecords e (by simp [he])) hrest
    rw [lettersOf] at hvalid ⊢
    by_cases hfd : event.fd = fd
    · rw [List.filter_cons_of_pos (by simpa using hfd), List.map_cons]
      subst hfd
      rw [Function.update_self] at hvalid
      refine ⟨?_, hvalid⟩
      -- a letter `false` is a `CLOSE`
      intro hletter
      rcases (hrecords event (by simp)).1 with hkind | hkind
      · simp [hkind] at hletter
      · exact hevent hkind
    · rw [List.filter_cons_of_neg (by simpa using hfd)]
      rw [Function.update_of_ne (Ne.symm hfd)] at hvalid
      exact hvalid

namespace Tables

/-! ## Counting the entries of one descriptor -/

/-- The entries of a descriptor, and whether a close of it was noted. -/
def tally (pid fd : Int) (t : Tables) : Tally :=
  ⟨t.fds.countP (LiveFd.isFor pid fd), t.closedFds.any (ClosedFd.isFor pid fd)⟩

/-- Nothing of the process is pending. -/
def Idle (pid : Int) (t : Tables) : Prop := ∀ fd ∈ t.fds, fd.pid = pid → fd.execPending = 0

variable {inherits : Bool → Bool} {t : Tables} {event : ResourceEvent} {pid : Int}

theorem finishExec_of_idle (hidle : Idle pid t) : t.finishExec pid false = t := by
  have hcloexec : ∀ fd ∈ t.fds, fd.pid = pid → fd.execPending ≠ 0 → fd.execCloexec = 0 :=
    fun fd hfd hpid hpending => absurd (hidle fd hfd hpid) hpending
  rw [finishExec_of_no_cloexec pid t hcloexec, clearPending_of_idle hidle]

theorem isFor_other {pid pid' fd fd' : Int} {entry : LiveFd} (hne : (pid, fd) ≠ (pid', fd'))
    (h : LiveFd.isFor pid fd entry = true) : LiveFd.isFor pid' fd' entry = false := by
  by_contra hother
  simp only [LiveFd.isFor, Bool.and_eq_true, beq_iff_eq, Bool.not_eq_false] at h hother
  exact hne (by rw [← h.1, ← h.2, ← hother.1, ← hother.2])

/-- A record of the process opens or closes one of its descriptors. -/
theorem tally_ingest {fd : Int} (hidle : Idle pid t)
    (hkind : event.kind = .fdOpen ∨ event.kind = .fdClose) (hpid : event.pid = pid) :
    tally pid fd (t.ingest inherits event) =
      if event.fd = fd then (tally pid fd t).step (event.kind == .fdOpen) else tally pid fd t := by
  subst hpid
  have hcommit := finishExec_of_idle hidle
  rcases hkind with hkind | hkind
  · rw [ingest_fdOpen inherits hkind, hcommit, tally, List.countP_append]
    by_cases hfd : event.fd = fd
    · simp [hfd, hkind, tally, Tally.step, LiveFd.ofOpen, LiveFd.isFor]
    · simp [hfd, tally, LiveFd.ofOpen, LiveFd.isFor]
  · rw [ingest_fdClose inherits hkind, hcommit, tally]
    dsimp only
    have hletter : (ResourceKind.fdClose == ResourceKind.fdOpen) = false := by decide
    rw [List.any_append]
    by_cases hfd : event.fd = fd
    · subst hfd
      rw [if_pos rfl, countP_removeFirst_self, hkind, hletter, tally]
      -- only a `CLOSE` that finds an entry is noted among the closed descriptors
      by_cases hnone : t.fds.countP (LiveFd.isFor event.pid event.fd) = 0
      · have hany : t.fds.any (LiveFd.isFor event.pid event.fd) = false := by
          simpa using List.countP_eq_zero.1 hnone
        simp [hnone, hany, Tally.step]
      · have hany : t.fds.any (LiveFd.isFor event.pid event.fd) = true := by
          obtain ⟨x, hx, hfor⟩ := List.countP_pos_iff.1 (Nat.pos_of_ne_zero hnone)
          exact List.any_eq_true.2 ⟨x, hx, hfor⟩
        simp [hnone, hany, Tally.step, ClosedFd.isFor, ClosedFd.ofClose]
    · rw [if_neg hfd, countP_removeFirst_other, tally]
      · congr 1
        split <;> simp [ClosedFd.isFor, ClosedFd.ofClose, hfd]
      · intro entry hentry
        exact isFor_other (fun h => hfd (congrArg Prod.snd h)) hentry

theorem idle_ingest_record (hidle : Idle pid t)
    (hkind : event.kind = .fdOpen ∨ event.kind = .fdClose) (hpid : event.pid = pid) :
    Idle pid (t.ingest inherits event) := by
  have hcommit := finishExec_of_idle (hpid.symm ▸ hidle)
  intro fd hfd hfdPid
  rcases hkind with hkind | hkind
  · rw [ingest_fdOpen inherits hkind, hcommit] at hfd
    rcases List.mem_append.1 hfd with hfd | hfd
    · exact hidle fd hfd hfdPid
    · rw [List.mem_singleton.1 hfd]
      rfl
  · rw [ingest_fdClose inherits hkind, hcommit] at hfd
    exact hidle fd (mem_of_mem_removeFirst hfd) hfdPid

/-- The records of the process act on one descriptor as its openings and closings. -/
theorem tally_run {records : List ResourceEvent} (fd : Int) (hidle : Idle pid t)
    (hrecords : DescriptorRecords pid records) :
    tally pid fd (t.run inherits records) =
      (lettersOf fd records).foldl Tally.step (tally pid fd t) := by
  induction records generalizing t with
  | nil => rfl
  | cons event rest ih =>
    obtain ⟨hkind, hpid⟩ := hrecords event (by simp)
    have hrest : DescriptorRecords pid rest := fun e he => hrecords e (by simp [he])
    rw [run_cons, ih (idle_ingest_record hidle hkind hpid) hrest, tally_ingest hidle hkind hpid,
      lettersOf, lettersOf]
    by_cases hfd : event.fd = fd
    · rw [if_pos hfd, List.filter_cons_of_pos (by simpa using hfd), List.map_cons, List.foldl_cons]
    · rw [if_neg hfd, List.filter_cons_of_neg (by simpa using hfd)]

/-! ## The FORK record -/

/-- A descriptor of the process that its next record finds live. -/
def liveAfterCommit (pid : Int) (t : Tables) (fd : Int) : Bool :=
  (t.finishExec pid false).fds.any (LiveFd.isFor pid fd)

theorem liveAfterCommit_eq (pid : Int) (t : Tables) (fd : Int) :
    liveAfterCommit pid t fd = (ProcessView.commit (ownFds pid t.fds)).any (·.fd == fd) := by
  rw [liveAfterCommit, ← any_ownFds, ← ownFds_finishVerdict]
  exact (ownFds_perm (finishExec_fds_perm pid false t)).any_eq

theorem countP_isFor (pid fd : Int) (fds : List LiveFd) :
    fds.countP (LiveFd.isFor pid fd) = (ownFds pid fds).countP (·.fd == fd) := by
  rw [ownFds, List.countP_map, List.countP_filter]
  apply List.countP_congr
  intro entry _
  simp [LiveFd.isFor, OwnFd.of, and_comm]

/-- The commit of another process leaves the count and the note alone. -/
theorem tally_finishExec_other {other : Int} (fd : Int) (h : other ≠ pid) :
    tally pid fd (t.finishExec other false) = tally pid fd t := by
  obtain ⟨removed, hperm, hclosed⟩ := finishExec_closedFds other false t
  -- what the commit removes belongs to the other process
  have hnone : (closedByExec removed).any (ClosedFd.isFor pid fd) = false := by
    rw [List.any_eq_false]
    intro closed hmem
    obtain ⟨entry, hentry, rfl⟩ := List.mem_map.1 hmem
    have hverdict := (List.mem_filter.1 (hperm.mem_iff.1 (List.mem_filter.1 hentry).1)).2
    have hpid : entry.pid = other := by
      by_contra hne
      rw [finishVerdict_other hne] at hverdict
      cases hverdict
    simp [ClosedFd.isFor, ClosedFd.ofExec, hpid, h]
  rw [tally, tally, hclosed, List.any_append, hnone, Bool.or_false, countP_isFor, countP_isFor,
    (ownFds_perm (finishExec_fds_perm other false t)).countP_eq, ownFds_finishVerdict_other h]

/-- The loop of the `FORK` branch adds at most one entry for each descriptor number. -/
theorem countP_forkEntries (closedFds : List ClosedFd) (parents fds : List LiveFd) (fd : Int) :
    (parents.foldl (forkEntry event closedFds) fds).countP (LiveFd.isFor event.childPid fd) =
      if fds.countP (LiveFd.isFor event.childPid fd) = 0 ∧
          parents.any (LiveFd.isFor event.pid fd) = true ∧
          closedFds.any (ClosedFd.isFor event.childPid fd) = false then 1
      else fds.countP (LiveFd.isFor event.childPid fd) := by
  induction parents generalizing fds with
  | nil => simp
  | cons parent rest ih =>
    rw [List.foldl_cons, ih, List.any_cons]
    by_cases hfd : parent.fd = fd
    · subst hfd
      by_cases hadd : parent.pid = event.pid ∧
          ¬ fds.any (LiveFd.isFor event.childPid parent.fd) = true ∧
          ¬ closedFds.any (ClosedFd.isFor event.childPid parent.fd) = true
      · -- the entry is added, and the rest of the loop finds it
        have hzero : fds.countP (LiveFd.isFor event.childPid parent.fd) = 0 := by
          rw [List.countP_eq_zero]
          intro entry hentry hfor
          exact hadd.2.1 (List.any_eq_true.2 ⟨entry, hentry, hfor⟩)
        have hfor : LiveFd.isFor event.pid parent.fd parent = true := by
          simp [LiveFd.isFor, hadd.1]
        have hnew : LiveFd.isFor event.childPid parent.fd (LiveFd.ofFork event parent) = true := by
          simp [LiveFd.isFor, LiveFd.ofFork]
        rw [forkEntry, if_pos hadd, List.countP_append, hzero, List.countP_singleton, hnew, hfor]
        simp [hadd.2.2]
      · -- not added: the child has it, the child has closed it, or it is not the parent's
        rw [forkEntry, if_neg hadd]
        by_cases hpid : parent.pid = event.pid
        · by_cases hlive : fds.any (LiveFd.isFor event.childPid parent.fd) = true
          · have hpos : fds.countP (LiveFd.isFor event.childPid parent.fd) ≠ 0 := by
              obtain ⟨entry, hentry, hfor⟩ := List.any_eq_true.1 hlive
              exact Nat.pos_iff_ne_zero.1 (List.countP_pos_iff.2 ⟨entry, hentry, hfor⟩)
            simp [hpos]
          · have hclosed : closedFds.any (ClosedFd.isFor event.childPid parent.fd) = true := by
              by_contra hnone
              exact hadd ⟨hpid, hlive, hnone⟩
            rw [hclosed]
            simp
        · have hother : LiveFd.isFor event.pid parent.fd parent = false := by
            simp [LiveFd.isFor, hpid]
          rw [hother, Bool.false_or]
    · -- an entry of another number changes nothing for this one
      have hother : LiveFd.isFor event.pid fd parent = false := by
        simp [LiveFd.isFor, hfd]
      have hcount : (forkEntry event closedFds fds parent).countP
          (LiveFd.isFor event.childPid fd) = fds.countP (LiveFd.isFor event.childPid fd) := by
        rw [forkEntry]
        split
        · simp [LiveFd.ofFork, LiveFd.isFor, hfd]
        · rfl
      rw [hother, Bool.false_or, hcount]

/-- What a `FORK` record does to one descriptor of the child. -/
theorem tally_fork (hkind : event.kind = .fork) (hne : event.pid ≠ event.childPid) (fd : Int) :
    tally event.childPid fd (t.ingest inherits event) =
      ⟨if (tally event.childPid fd t).live = 0 ∧ liveAfterCommit event.pid t fd = true ∧
          (tally event.childPid fd t).closed = false then 1 else (tally event.childPid fd t).live,
        (tally event.childPid fd t).closed⟩ := by
  have hcommit := tally_finishExec_other (t := t) fd hne
  rw [← hcommit, ingest_fork inherits hkind]
  simp only [tally, countP_forkEntries, liveAfterCommit]
  rfl

theorem idle_fork (hkind : event.kind = .fork)
    (hidle : Idle event.childPid t) : Idle event.childPid (t.ingest inherits event) := by
  intro fd hfd hpid
  rw [ingest_fork inherits hkind] at hfd
  rcases mem_forkEntries_cases hfd with hold | ⟨parent, -, rfl⟩
  · obtain ⟨old, hmem, hverdict⟩ := mem_finishExec.1 hold
    rcases finishVerdict_some hverdict with rfl | rfl
    · exact hidle fd hmem hpid
    · rfl
  · -- the child's copies carry no marks
    rfl

/-- The child's records leave the parent's descriptors alone. -/
theorem liveAfterCommit_run {parent : Int} {records : List ResourceEvent} (hne : parent ≠ pid)
    (hrecords : DescriptorRecords pid records) (fd : Int) :
    liveAfterCommit parent (t.run inherits records) fd = liveAfterCommit parent t fd := by
  -- for the parent they are records of another process
  have hperm : (ownFds parent (t.run inherits records).fds).Perm (ownFds parent t.fds) := by
    induction records generalizing t with
    | nil => exact List.Perm.refl _
    | cons event rest ih =>
      obtain ⟨hkind, hpid⟩ := hrecords event (by simp)
      rw [run_cons]
      refine (ih fun e he => hrecords e (by simp [he])).trans (ownFds_ingest_other ?_ ?_)
      · rw [hpid]
        exact hne.symm
      · rcases hkind with hkind | hkind <;> simp [hkind]
  rw [liveAfterCommit_eq, liveAfterCommit_eq]
  exact (hperm.filterMap _).any_eq

/-- Whether the child has a live entry for a descriptor number. -/
def hasLive (pid : Int) (t : Tables) (fd : Int) : Bool := t.fds.any (LiveFd.isFor pid fd)

theorem hasLive_iff (pid : Int) (t : Tables) (fd : Int) :
    hasLive pid t fd = true ↔ 0 < (tally pid fd t).live := by
  rw [hasLive, tally, List.countP_pos_iff, List.any_eq_true]

/-- The words on which the two orders agree. -/
def OrderFree (word : List Bool) : Prop :=
  word ≠ [false] ∧ ¬ (word.head? = some true ∧ word.count true = word.count false)

instance (word : List Bool) : Decidable (OrderFree word) := inferInstanceAs (Decidable (_ ∧ ¬ _))

/-- Both orders give the child the same live descriptors exactly when the records of every
descriptor of the parent are order free. -/
theorem fork_order_iff {fork fork' : ResourceEvent} {records records' : List ResourceEvent}
    (hkind : fork.kind = .fork) (hkind' : fork'.kind = .fork) (hpid : fork'.pid = fork.pid)
    (hchild : fork'.childPid = fork.childPid) (hne : fork.pid ≠ fork.childPid)
    (hfds : ∀ fd ∈ t.fds, fd.pid ≠ fork.childPid)
    (hclosed : ∀ fd ∈ t.closedFds, fd.pid ≠ fork.childPid)
    (hrecords : DescriptorRecords fork.childPid records)
    (hrecords' : DescriptorRecords fork.childPid records')
    (hsame : ∀ fd, lettersOf fd records = lettersOf fd records')
    (hcloses : ClosesOpen (liveAfterCommit fork.pid t) records) :
    (∀ fd, hasLive fork.childPid ((t.ingest inherits fork).run inherits records) fd =
        hasLive fork.childPid ((t.run inherits records').ingest inherits fork') fd) ↔
      ∀ fd, liveAfterCommit fork.pid t fd = true → OrderFree (lettersOf fd records) := by
  have hidle : Idle fork.childPid t := fun fd hfd heq => absurd heq (hfds fd hfd)
  have hstart : ∀ fd, tally fork.childPid fd t = ⟨0, false⟩ := by
    intro fd
    have hcount : t.fds.countP (LiveFd.isFor fork.childPid fd) = 0 := by
      rw [List.countP_eq_zero]
      intro entry hentry hfor
      simp only [LiveFd.isFor, Bool.and_eq_true, beq_iff_eq] at hfor
      exact hfds entry hentry hfor.1
    have hnote : t.closedFds.any (ClosedFd.isFor fork.childPid fd) = false := by
      rw [List.any_eq_false]
      intro entry hentry
      simp [ClosedFd.isFor, hclosed entry hentry]
    rw [tally, hcount, hnote]
  -- one descriptor number at a time
  apply forall_congr'
  intro fd
  -- with the `FORK` first the child starts with the inherited entry
  have hfirst : tally fork.childPid fd ((t.ingest inherits fork).run inherits records) =
      (lettersOf fd records).foldl Tally.step
        ⟨if liveAfterCommit fork.pid t fd = true then 1 else 0, false⟩ := by
    rw [tally_run fd (idle_fork hkind hidle) hrecords, tally_fork hkind hne, hstart]
    simp
  -- with the `FORK` last it starts with none, and inherits unless it has an entry or a note
  have hlast : (tally fork.childPid fd ((t.run inherits records').ingest inherits fork')).live =
      if ((lettersOf fd records).foldl Tally.step ⟨0, false⟩).live = 0 ∧
          liveAfterCommit fork.pid t fd = true ∧
          ((lettersOf fd records).foldl Tally.step ⟨0, false⟩).closed = false then 1
      else ((lettersOf fd records).foldl Tally.step ⟨0, false⟩).live := by
    rw [← hchild, tally_fork hkind' (by rw [hpid, hchild]; exact hne), hchild, hpid,
      tally_run fd hidle hrecords', hstart, liveAfterCommit_run hne hrecords', hsame]
  rw [Bool.eq_iff_iff, hasLive_iff, hasLive_iff, hfirst, hlast]
  by_cases hlive : liveAfterCommit fork.pid t fd = true
  · have hvalid := @valid_lettersOf _ fd _ _ hrecords hcloses
    rw [hlive] at hvalid
    rw [if_pos hlive, OrderFree, ← live_iff hvalid]
    simp only [hlive, true_and, true_implies]
    generalize (lettersOf fd records).foldl Tally.step ⟨0, false⟩ = late
    have hlate : (0 < if late.live = 0 ∧ late.closed = false then 1 else late.live) ↔
        0 < late.live ∨ late.closed = false := by
      by_cases hzero : late.live = 0
      · by_cases hnote : late.closed = false
        · simp [hzero, hnote]
        · simp [hzero, hnote]
      · simp [hzero, Nat.pos_of_ne_zero hzero]
    rw [hlate]
  · simp [hlive]

end Tables

/-- **When a late FORK record commutes with the child's records.** From any reachable state in which
the child has no live and no closed descriptor, and for any `OPEN` and `CLOSE` records of the child
whose `CLOSE`s name open descriptors, the child has the same live descriptors whether the `FORK`
record comes before or after them exactly when, for every descriptor live in the parent at the fork,
the child's records on it are not a single `CLOSE` and do not start with an `OPEN` with as many
`CLOSE`s as `OPEN`s. -/
theorem fork_commutes_iff {lib : ToolEventLib} (st : State lib)
    (hfresh : st.model.tables = Tables.empty) (history records : List ResourceEvent)
    (fork : ResourceEvent) (hkind : fork.kind = .fork) (hne : fork.pid ≠ fork.childPid)
    (hfds : ∀ fd ∈ (ingestLog st (number history)).model.fds.items, fd.pid ≠ fork.childPid)
    (hclosed : ∀ fd ∈ (ingestLog st (number history)).model.closedFds.items,
      fd.pid ≠ fork.childPid)
    (hrecords : DescriptorRecords fork.childPid records)
    (hcloses : ClosesOpen
      (Tables.liveAfterCommit fork.pid (ingestLog st (number history)).model.tables) records)
    (hok : (ingestLog st (number (history ++ (fork :: records)))).err.error = false)
    (hok' : (ingestLog st (number (history ++ (records ++ [fork])))).err.error = false) :
    (∀ fd, Tables.hasLive fork.childPid
          (ingestLog st (number (history ++ (fork :: records)))).model.tables fd =
        Tables.hasLive fork.childPid
          (ingestLog st (number (history ++ (records ++ [fork])))).model.tables fd) ↔
      ∀ fd, Tables.liveAfterCommit fork.pid (ingestLog st (number history)).model.tables fd =
          true → Tables.OrderFree (lettersOf fd records) := by
  have hbefore := tables_of_fresh hfresh (ok_of_append hok)
  rw [tables_of_fresh hfresh hok, tables_of_fresh hfresh hok', number_append, number_append,
    Tables.run_append, Tables.run_append, ← hbefore, numberFrom_concat, numberFrom,
    Tables.run_cons, Tables.run_append, Tables.run_cons, Tables.run_nil]
  refine Iff.trans (@Tables.fork_order_iff lib.execInherits _
    { fork with sequence := history.length + 1 }
    { fork with sequence := history.length + records.length + 1 } _ _ hkind hkind rfl rfl hne hfds
    hclosed (hrecords.numberFrom _) (hrecords.numberFrom _) ?_ ?_) ?_
  · intro fd
    rw [lettersOf_numberFrom, lettersOf_numberFrom]
  · exact (closesOpen_numberFrom _ _ records).2 hcloses
  · apply forall_congr'
    intro fd
    rw [lettersOf_numberFrom]

/-- The child closes one inherited descriptor and opens another number. -/
theorem fork_commutes_reopened :
    (ingestLog State.zeroed (number ([openRecord 1 3, openRecord 1 4] ++
        ([closeRecord 2 3, openRecord 2 3, openRecord 2 5] ++ [forkRecord 1 2])))).err.error =
      false ∧
    ∀ fd,
      Tables.hasLive 2 (ingestLog State.zeroed (number ([openRecord 1 3, openRecord 1 4] ++
          (forkRecord 1 2 :: [closeRecord 2 3, openRecord 2 3, openRecord 2 5])))).model.tables fd =
      Tables.hasLive 2 (ingestLog State.zeroed (number ([openRecord 1 3, openRecord 1 4] ++
          ([closeRecord 2 3, openRecord 2 3, openRecord 2 5] ++ [forkRecord 1 2])))).model.tables
            fd := by
  refine ⟨by decide, ?_⟩
  refine (fork_commutes_iff State.zeroed (by decide) [openRecord 1 3, openRecord 1 4]
    [closeRecord 2 3, openRecord 2 3, openRecord 2 5] (forkRecord 1 2) rfl (by decide) (by decide)
    (by decide) (by decide) ?_ (by decide) (by decide)).2 ?_
  · refine ⟨fun _ => by decide, ?_, ?_, trivial⟩
    · exact fun h => absurd h (by decide)
    · exact fun h => absurd h (by decide)
  · intro fd hlive
    have hfds : (Tables.finishExec 1 false (ingestLog State.zeroed
        (number [openRecord 1 3, openRecord 1 4])).model.tables).fds.map (·.fd) = [3, 4] := by
      decide
    obtain ⟨entry, hentry, hfor⟩ := List.any_eq_true.1 hlive
    have hmem : fd ∈ [(3 : Int), 4] := by
      rw [← hfds]
      simp only [LiveFd.isFor, Bool.and_eq_true, beq_iff_eq] at hfor
      exact List.mem_map.2 ⟨entry, hentry, hfor.2⟩
    have hfd : fd = 3 ∨ fd = 4 := by simpa using hmem
    rcases hfd with rfl | rfl <;> decide

/-- A child that closes an inherited descriptor: after a late `FORK` record it is live again. -/
theorem fork_revives_closed :
    ClosesOpen (Tables.liveAfterCommit 1
        (ingestLog State.zeroed (number [openRecord 1 3])).model.tables) [closeRecord 2 3] ∧
      (ingestLog State.zeroed (number ([openRecord 1 3] ++
        ([closeRecord 2 3] ++ [forkRecord 1 2])))).err.error = false ∧
      Tables.hasLive 2 (ingestLog State.zeroed (number ([openRecord 1 3] ++
        (forkRecord 1 2 :: [closeRecord 2 3])))).model.tables 3 = false ∧
      Tables.hasLive 2 (ingestLog State.zeroed (number ([openRecord 1 3] ++
        ([closeRecord 2 3] ++ [forkRecord 1 2])))).model.tables 3 = true :=
  ⟨⟨fun _ => by decide, trivial⟩, by decide, by decide, by decide⟩

end P101Report
