import P101Report.Replay.ExecMarks

/-!
# Where the entries of the tables come from

Every site index in the tables was copied from a stored event: the site of a live descriptor from an
`OPEN` record of its number, its pending site from an `EXEC` record of its process, the site of a
closed descriptor from the `CLOSE` or the `EXEC` record that closed it, and likewise for allocations
and exec findings (`Origins`). A record keeps this, whatever it copies, swaps or compacts
(`origins_ingest`).
-/

set_option autoImplicit false

namespace P101Report

open SwapTable

/-- The record that has made descriptor `fd` of a process live: the `OPEN` record, or the `FORK`
record of which the process is the child. -/
def ResourceEvent.MakesLive (pid fd : Int) (event : ResourceEvent) : Prop :=
  event.kind = .fdOpen ∧ event.pid = pid ∧ event.fd = fd ∨
    event.kind = .fork ∧ event.childPid = pid

/-- The records that a live descriptor holds the sites and the numbers of. -/
structure FdOrigin (events : List ResourceEvent) (fd : LiveFd) : Prop where
  numbered : ∃ event ∈ events, event.MakesLive fd.pid fd.fd ∧ event.sequence = fd.sequence
  opened : ∃ event ∈ events, event.kind = .fdOpen ∧ event.fd = fd.fd ∧ event.site = fd.site
  pending : fd.execPending ≠ 0 → ∃ event ∈ events, event.kind = .exec ∧ event.pid = fd.pid ∧
    event.fd = fd.fd ∧ event.sequence = fd.execSequence ∧ event.site = fd.execSite

/-- The record that has closed a descriptor. -/
def ClosedOrigin (events : List ResourceEvent) (fd : ClosedFd) : Prop :=
  ∃ event ∈ events, (event.kind = .fdClose ∨ event.kind = .exec) ∧ event.pid = fd.pid ∧
    event.fd = fd.fd ∧ event.sequence = fd.sequence ∧ event.site = fd.site

/-- The record that has made an allocation. -/
def AllocOrigin (events : List ResourceEvent) (alloc : LiveAlloc) : Prop :=
  ∃ event ∈ events, (event.kind = .alloc ∨ event.kind = .realloc) ∧ event.pid = alloc.pid ∧
    event.sequence = alloc.sequence ∧ event.site = alloc.site

/-- The record that has freed an allocation. -/
def FreedOrigin (events : List ResourceEvent) (freed : FreedAlloc) : Prop :=
  ∃ event ∈ events, event.kind = .free ∧ event.pid = freed.pid ∧
    event.sequence = freed.sequence ∧ event.site = freed.site

/-- The records of a finding about an inherited descriptor: the `EXEC` record, the record that has
made the descriptor live, and its `OPEN` record. -/
structure ExecOrigin (events : List ResourceEvent) (finding : Finding) : Prop where
  exec : ∃ event ∈ events, event.kind = .exec ∧ event.pid = finding.pid ∧
    event.fd = finding.fd ∧ event.sequence = finding.sequence ∧ event.site = finding.site
  numbered : ∃ event ∈ events, event.MakesLive finding.pid finding.fd ∧
    event.sequence = finding.previousSequence
  opened : ∃ event ∈ events, event.kind = .fdOpen ∧ event.fd = finding.fd ∧
    event.site = finding.previousSite

/-! ## Entries -/

section Entries

variable {events events' : List ResourceEvent}

/-- A property of a stored event stays that of a stored event. -/
theorem exists_mono {p : ResourceEvent → Prop} (hsub : events ⊆ events')
    (h : ∃ event ∈ events, p event) : ∃ event ∈ events', p event := by
  obtain ⟨event, hmem, hp⟩ := h
  exact ⟨event, hsub hmem, hp⟩

theorem FdOrigin.mono {fd : LiveFd} (hsub : events ⊆ events') (h : FdOrigin events fd) :
    FdOrigin events' fd :=
  ⟨exists_mono hsub h.numbered, exists_mono hsub h.opened,
    fun hpending => exists_mono hsub (h.pending hpending)⟩

/-- Cleared marks need no record. -/
theorem FdOrigin.clear {fd : LiveFd} (h : FdOrigin events fd) : FdOrigin events fd.clear :=
  ⟨h.numbered, h.opened, fun hpending => absurd rfl hpending⟩

/-- A descriptor that its pending exec has closed. -/
theorem FdOrigin.closed {fd : LiveFd} (h : FdOrigin events fd) (hpending : fd.execPending ≠ 0) :
    ClosedOrigin events (ClosedFd.ofExec fd) := by
  obtain ⟨event, hmem, hkind, hpid, hfd, hsequence, hsite⟩ := h.pending hpending
  exact ⟨event, hmem, Or.inr hkind, hpid, hfd, hsequence, hsite⟩

/-- The marks of an `EXEC` record are those of a stored event. -/
theorem FdOrigin.mark {fd : LiveFd} {event : ResourceEvent} (h : FdOrigin events fd)
    (hmem : event ∈ events) (hkind : event.kind = .exec)
    (hfor : LiveFd.isFor event.pid event.fd fd = true) :
    FdOrigin events (LiveFd.mark event fd) := by
  simp only [LiveFd.isFor, Bool.and_eq_true, beq_iff_eq] at hfor
  exact ⟨h.numbered, h.opened, fun _ => ⟨event, hmem, hkind, hfor.1.symm, hfor.2.symm, rfl, rfl⟩⟩

/-- A child's entry keeps the site of its parent's, and has the number of the `FORK` record. -/
theorem FdOrigin.fork {fd : LiveFd} {event : ResourceEvent} (h : FdOrigin events fd)
    (hmem : event ∈ events) (hkind : event.kind = .fork) :
    FdOrigin events (LiveFd.ofFork event fd) :=
  ⟨⟨event, hmem, Or.inr ⟨hkind, rfl⟩, rfl⟩, h.opened, fun hpending => absurd rfl hpending⟩

end Entries

namespace Tables

variable (inherits : Bool → Bool)

/-- Every entry of the tables has the sites of stored events. -/
structure Origins (t : Tables) : Prop where
  fds : ∀ fd ∈ t.fds, FdOrigin t.resources fd
  closedFds : ∀ fd ∈ t.closedFds, ClosedOrigin t.resources fd
  allocs : ∀ alloc ∈ t.allocs, AllocOrigin t.resources alloc
  freedAllocs : ∀ freed ∈ t.freedAllocs, FreedOrigin t.resources freed
  findings : ∀ finding ∈ t.findings, ExecOrigin t.resources finding

theorem origins_empty : Origins empty := by
  constructor <;> simp [empty]

/-! ## Records -/

/-- Storing an event keeps all origins. -/
theorem origins_store {t : Tables} (h : Origins t) (event : ResourceEvent) :
    Origins (t.store event) := by
  have hsub : t.resources ⊆ (t.store event).resources := List.subset_append_left _ _
  constructor
  · exact fun fd hfd => (h.fds fd hfd).mono hsub
  · exact fun fd hfd => exists_mono hsub (h.closedFds fd hfd)
  · exact fun alloc halloc => exists_mono hsub (h.allocs alloc halloc)
  · exact fun freed hfreed => exists_mono hsub (h.freedAllocs freed hfreed)
  · intro finding hfinding
    obtain ⟨hexec, hnumbered, hopened⟩ := h.findings finding hfinding
    exact ⟨exists_mono hsub hexec, exists_mono hsub hnumbered, exists_mono hsub hopened⟩

/-- A commit keeps or clears entries, and closes descriptors that are pending. -/
theorem origins_finishExec {t : Tables} (h : Origins t) (pid : Int) (endOfInput : Bool) :
    Origins (t.finishExec pid endOfInput) := by
  obtain ⟨removed, hperm, hclosed⟩ := finishExec_closedFds pid endOfInput t
  constructor
  · intro kept hkept
    obtain ⟨fd, hfd, hverdict⟩ := mem_finishExec.1 hkept
    rcases finishVerdict_some hverdict with rfl | rfl
    · exact h.fds _ hfd
    · exact (h.fds fd hfd).clear
  · intro fd hfd
    rw [hclosed, List.mem_append] at hfd
    rcases hfd with hfd | hfd
    · exact h.closedFds fd hfd
    · -- an entry is removed only while its exec is pending
      obtain ⟨old, hold, rfl⟩ := List.mem_map.1 hfd
      obtain ⟨hmem, hnone⟩ := List.mem_filter.1 (hperm.mem_iff.1 (List.mem_filter.1 hold).1)
      apply (h.fds old hmem).closed
      intro hpending
      simp [finishVerdict, hpending] at hnone
  · exact h.allocs
  · exact h.freedAllocs
  · exact h.findings

theorem origins_commitBefore {t : Tables} (h : Origins t) (event : ResourceEvent) :
    Origins (t.commitBefore event) := by
  rw [commitBefore]
  split
  · exact origins_finishExec h event.pid false
  · exact h

section Kinds

variable {t : Tables} {event : ResourceEvent}

theorem origins_fdOpen (h : Origins t) (hmem : event ∈ t.resources) (hkind : event.kind = .fdOpen) :
    Origins (t.ingestFdOpen event) := by
  refine { h with fds := fun fd hfd => ?_ }
  rcases List.mem_append.1 hfd with hfd | hfd
  · exact h.fds fd hfd
  · obtain rfl := List.mem_singleton.1 hfd
    exact ⟨⟨event, hmem, Or.inl ⟨hkind, rfl, rfl⟩, rfl⟩, ⟨event, hmem, hkind, rfl, rfl⟩,
      fun hpending => absurd rfl hpending⟩

theorem origins_fdClose (h : Origins t) (hmem : event ∈ t.resources)
    (hkind : event.kind = .fdClose) : Origins (t.ingestFdClose event) := by
  rw [ingestFdClose]
  split
  · refine { h with fds := fun fd hfd => ?_, closedFds := fun fd hfd => ?_ }
    · exact h.fds fd (mem_of_mem_removeFirst hfd)
    · rcases List.mem_append.1 hfd with hfd | hfd
      · exact h.closedFds fd hfd
      · obtain rfl := List.mem_singleton.1 hfd
        exact ⟨event, hmem, Or.inl hkind, rfl, rfl, rfl, rfl⟩
  · exact h

/-- The entry of an allocation record. -/
theorem allocOrigin_liveAlloc (hmem : event ∈ t.resources)
    (hkind : event.kind = .alloc ∨ event.kind = .realloc) (ptr : Option Text) :
    AllocOrigin t.resources (liveAlloc ptr event) :=
  ⟨event, hmem, hkind, rfl, rfl, rfl⟩

theorem origins_alloc (h : Origins t) (hmem : event ∈ t.resources) (hkind : event.kind = .alloc) :
    Origins (t.ingestAlloc event) := by
  rw [ingestAlloc]
  split
  · refine { h with allocs := fun alloc halloc => ?_ }
    rcases List.mem_append.1 halloc with halloc | halloc
    · exact h.allocs alloc halloc
    · obtain rfl := List.mem_singleton.1 halloc
      exact allocOrigin_liveAlloc hmem (Or.inl hkind) _
  · exact h

theorem origins_free (h : Origins t) (hmem : event ∈ t.resources) (hkind : event.kind = .free) :
    Origins (t.ingestFree event) := by
  rw [ingestFree]
  split
  · refine { h with allocs := fun alloc halloc => ?_, freedAllocs := fun freed hfreed => ?_ }
    · exact h.allocs alloc (mem_of_mem_removeFirst halloc)
    · rcases List.mem_append.1 hfreed with hfreed | hfreed
      · exact h.freedAllocs freed hfreed
      · obtain rfl := List.mem_singleton.1 hfreed
        exact ⟨event, hmem, hkind, rfl, rfl, rfl⟩
  · exact h

theorem origins_realloc (h : Origins t) (hmem : event ∈ t.resources)
    (hkind : event.kind = .realloc) : Origins (t.ingestRealloc event) := by
  refine { h with allocs := fun alloc halloc => ?_ }
  rcases List.mem_append.1 halloc with halloc | halloc
  · -- the old pointer may have left the table
    rw [reallocSource] at halloc
    split at halloc
    · exact h.allocs alloc (mem_of_mem_removeFirst halloc)
    · exact h.allocs alloc halloc
  · split at halloc
    · obtain rfl := List.mem_singleton.1 halloc
      exact allocOrigin_liveAlloc hmem (Or.inr hkind) _
    · exact absurd halloc List.not_mem_nil

theorem origins_fork (h : Origins t) (hmem : event ∈ t.resources) (hkind : event.kind = .fork) :
    Origins (t.ingestFork event) := by
  refine { h with fds := fun fd hfd => ?_ }
  -- an entry was there before, or is a copy of one of the parent's
  rcases mem_forkEntries_cases hfd with hfd | ⟨parent, hparent, rfl⟩
  · exact h.fds fd hfd
  · exact (h.fds parent hparent).fork hmem hkind

theorem origins_exec (h : Origins t) (hmem : event ∈ t.resources) (hkind : event.kind = .exec) :
    Origins (t.ingestExec inherits event) := by
  rw [ingestExec]
  split
  · exact h
  · rename_i fd hfind
    have hfd := List.mem_of_find?_eq_some hfind
    have hfor := List.find?_some hfind
    refine { h with fds := fun marked hmarked => ?_, findings := fun finding hfinding => ?_ }
    · rcases mem_modifyFirst hmarked with hold | ⟨old, hold, hold', rfl⟩
      · exact h.fds marked hold
      · exact (h.fds old hold).mark hmem hkind hold'
    · rcases List.mem_append.1 hfinding with hfinding | hfinding
      · exact h.findings finding hfinding
      · split at hfinding
        · obtain rfl := List.mem_singleton.1 hfinding
          simp only [LiveFd.isFor, Bool.and_eq_true, beq_iff_eq] at hfor
          obtain ⟨hpid, hnumber⟩ := hfor
          -- the finding names the record that made the entry live, and the site of its `OPEN`
          have horigin := h.fds fd hfd
          obtain ⟨opened, hopened, hopen, hfd', hsite⟩ := horigin.opened
          obtain ⟨made, hmade, hlive, hsequence⟩ := horigin.numbered
          rw [hpid, hnumber] at hlive
          exact ⟨⟨event, hmem, hkind, rfl, rfl, rfl, rfl⟩, ⟨made, hmade, hlive, hsequence⟩,
            ⟨opened, hopened, hopen, hfd'.trans hnumber, hsite⟩⟩
        · exact absurd hfinding List.not_mem_nil

theorem origins_execFail (h : Origins t) : Origins (t.ingestExecFail event) := by
  refine { h with fds := fun fd hfd => ?_, findings := fun finding hfinding => ?_ }
  · obtain ⟨old, hold, rfl⟩ := List.mem_map.1 hfd
    split
    · exact (h.fds old hold).clear
    · exact h.fds old hold
  · exact h.findings finding (List.mem_filter.1 hfinding).1

theorem origins_ingestKind (h : Origins t) (hmem : event ∈ t.resources) :
    Origins (t.ingestKind inherits event) := by
  rw [ingestKind]
  cases hkind : event.kind with
  | fdOpen => exact origins_fdOpen h hmem hkind
  | fdClose => exact origins_fdClose h hmem hkind
  | alloc => exact origins_alloc h hmem hkind
  | free => exact origins_free h hmem hkind
  | realloc => exact origins_realloc h hmem hkind
  | fork => exact origins_fork h hmem hkind
  | exec => exact origins_exec inherits h hmem hkind
  | execFail => exact origins_execFail h
  | spawn => exact h
  | generic => exact h

/-- **One record.** -/
theorem origins_ingest (h : Origins t) (event : ResourceEvent) :
    Origins (t.ingest inherits event) := by
  apply origins_ingestKind
  · exact origins_store (origins_commitBefore h event) event
  · exact List.mem_append_right _ (List.mem_singleton_self event)

end Kinds

/-- The restart loop at the end of the log. -/
theorem origins_settle {t : Tables} (h : Origins t) : Origins t.settle := by
  have hloop : ∀ (fuel : Nat) (t : Tables), Origins t → Origins (t.finishPending fuel) := by
    intro fuel
    induction fuel with
    | zero => exact fun _ h => h
    | succ fuel ih =>
      intro t h
      rw [finishPending]
      split
      · exact h
      · exact ih _ (origins_finishExec h _ true)
  exact hloop _ t h

end Tables

end P101Report
