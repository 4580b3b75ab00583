import P101Report.Model.Lifecycle
import P101Report.Replay.FailedExec

/-!
# The live-descriptor table

An entry of the live table comes from the latest `OPEN` or `CLOSE` record of its descriptor, which
is an `OPEN`, or was inherited through a `FORK` record (`OpenInv`). The invariant needs one
condition: an `OPEN` record never finds its descriptor live, since it appends an entry without
looking for one already there. The condition is exact: the table holds at most one entry for each
descriptor in every reachable state only if every `OPEN` record meets it.
-/

set_option autoImplicit false

namespace P101Report

open SwapTable Runs

/-- The descriptor an entry is for. -/
def LiveFd.key (fd : LiveFd) : Int × Int := (fd.pid, fd.fd)

theorem LiveFd.isFor_iff {pid fd : Int} {entry : LiveFd} :
    LiveFd.isFor pid fd entry = true ↔ entry.key = (pid, fd) := by
  simp [LiveFd.isFor, LiveFd.key]

/-- Entries that agree but for their marks are for the same descriptor, from the same record. -/
theorem LiveFd.core_of_clear {fd fd' : LiveFd} (h : fd'.clear = fd.clear) :
    fd'.pid = fd.pid ∧ fd'.fd = fd.fd ∧ fd'.site = fd.site ∧ fd'.sequence = fd.sequence := by
  simpa [LiveFd.clear] using h

theorem LiveFd.key_of_clear {fd fd' : LiveFd} (h : fd'.clear = fd.clear) : fd'.key = fd.key := by
  obtain ⟨hpid, hfd, -, -⟩ := LiveFd.core_of_clear h
  rw [LiveFd.key, LiveFd.key, hpid, hfd]

/-- Whether a record opens or closes a descriptor. -/
def ResourceEvent.touches (pid fd : Int) (event : ResourceEvent) : Bool :=
  (event.kind == .fdOpen || event.kind == .fdClose) && event.pid == pid && event.fd == fd

/-- The latest `OPEN` or `CLOSE` record of a descriptor. -/
def latestRecord (pid fd : Int) (resources : List ResourceEvent) : Option ResourceEvent :=
  (resources.filter (ResourceEvent.touches pid fd)).getLast?

theorem latestRecord_touching {pid fd : Int} {resources : List ResourceEvent}
    {event : ResourceEvent} (h : event.touches pid fd = true) :
    latestRecord pid fd (resources ++ [event]) = some event := by
  simp [latestRecord, h]

theorem latestRecord_other {pid fd : Int} {resources : List ResourceEvent}
    {event : ResourceEvent} (h : event.touches pid fd = false) :
    latestRecord pid fd (resources ++ [event]) = latestRecord pid fd resources := by
  simp [latestRecord, h]

/-- A record of another kind, or of another descriptor, does not touch the descriptor. -/
theorem touches_eq_false {pid fd : Int} {event : ResourceEvent}
    (h : event.kind = .fdOpen ∨ event.kind = .fdClose → (event.pid, event.fd) ≠ (pid, fd)) :
    event.touches pid fd = false := by
  rw [ResourceEvent.touches]
  by_cases hkind : event.kind = .fdOpen ∨ event.kind = .fdClose
  · have := h hkind
    simp only [ne_eq, Prod.mk.injEq, not_and] at this
    by_cases hpid : event.pid = pid
    · simp [this hpid]
    · simp [hpid]
  · simp only [not_or] at hkind
    simp [hkind]

namespace Tables

/-! ## The invariant -/

/-- The entry of the latest record of its descriptor, an `OPEN`. -/
def OpenedBy (resources : List ResourceEvent) (fd : LiveFd) : Prop :=
  ∃ opened, latestRecord fd.pid fd.fd resources = some opened ∧ opened.kind = .fdOpen ∧
    opened.site = fd.site ∧ opened.sequence = fd.sequence

/-- An entry of a child for a descriptor of its parent. -/
def InheritedBy (resources : List ResourceEvent) (fd : LiveFd) : Prop :=
  ∃ fork ∈ resources, fork.kind = .fork ∧ fork.childPid = fd.pid ∧ fork.sequence = fd.sequence

/-- The invariant of the live table. -/
structure OpenInv (t : Tables) : Prop where
  keys : (t.fds.map LiveFd.key).Nodup
  origin : ∀ fd ∈ t.fds, OpenedBy t.resources fd ∨ InheritedBy t.resources fd

theorem openInv_empty : OpenInv empty := ⟨List.nodup_nil, by simp [empty]⟩

/-- The descriptor of an `OPEN` record is not live, or the commit just before closes it. -/
def OpensAnew (t : Tables) (event : ResourceEvent) : Prop :=
  event.kind = .fdOpen → ∀ fd ∈ t.fds, LiveFd.isFor event.pid event.fd fd = true →
    fd.execPending ≠ 0 ∧ fd.execCloexec ≠ 0

instance (t : Tables) (event : ResourceEvent) : Decidable (OpensAnew t event) :=
  inferInstanceAs (Decidable (_ → ∀ _ ∈ _, _))

variable {inherits : Bool → Bool} {t : Tables} {event : ResourceEvent}

/-- Where entries come from depends on their descriptor, site and sequence only. -/
theorem origin_of_core {resources : List ResourceEvent} {fd fd' : LiveFd}
    (hclear : fd'.clear = fd.clear) (h : OpenedBy resources fd ∨ InheritedBy resources fd) :
    OpenedBy resources fd' ∨ InheritedBy resources fd' := by
  obtain ⟨hpid, hfd, hsite, hsequence⟩ := LiveFd.core_of_clear hclear
  rw [OpenedBy, InheritedBy, hpid, hfd, hsite, hsequence]
  exact h

/-- A record that does not touch the descriptor of an entry leaves its origin. -/
theorem origin_store {resources : List ResourceEvent} {fd : LiveFd}
    (htouches : event.touches fd.pid fd.fd = false)
    (h : OpenedBy resources fd ∨ InheritedBy resources fd) :
    OpenedBy (resources ++ [event]) fd ∨ InheritedBy (resources ++ [event]) fd := by
  rcases h with ⟨opened, hlatest, hopened⟩ | ⟨fork, hfork, hinherited⟩
  · exact Or.inl ⟨opened, (latestRecord_other htouches).trans hlatest, hopened⟩
  · exact Or.inr ⟨fork, by simp [hfork], hinherited⟩

theorem finishVerdict_clear {pid : Int} {endOfInput : Bool} {fd kept : LiveFd}
    (h : finishVerdict pid endOfInput fd = some kept) : kept.clear = fd.clear := by
  rcases finishVerdict_some h with rfl | rfl
  · rfl
  · exact clear_of_clear fd

/-- A commit keeps the invariant. -/
theorem openInv_finishExec (hinv : OpenInv t) (pid : Int) (endOfInput : Bool) :
    OpenInv (t.finishExec pid endOfInput) where
  keys := by
    have hperm := (finishExec_fds_perm pid endOfInput t).map LiveFd.key
    refine hperm.nodup_iff.2 (filterMap_keys_nodup ?_ hinv.keys)
    intro fd kept hkept
    exact LiveFd.key_of_clear (finishVerdict_clear hkept)
  origin := by
    intro kept hkept
    obtain ⟨fd, hfd, hverdict⟩ := mem_finishExec.1 hkept
    exact origin_of_core (finishVerdict_clear hverdict) (hinv.origin fd hfd)

/-- The entry of a descriptor that a commit leaves was no pending close-on-exec descriptor of the
process. -/
theorem not_closed_of_mem_finishExec {pid : Int} {fd : LiveFd}
    (h : fd ∈ (t.finishExec pid false).fds) (hpid : fd.pid = pid) :
    ∃ old ∈ t.fds, fd.clear = old.clear ∧ ¬ (old.execPending ≠ 0 ∧ old.execCloexec ≠ 0) := by
  obtain ⟨old, hold, hverdict⟩ := mem_finishExec.1 h
  have hclear := finishVerdict_clear hverdict
  refine ⟨old, hold, hclear, ?_⟩
  rintro ⟨hpending, hcloexec⟩
  have holdPid : old.pid = pid := (LiveFd.core_of_clear hclear).1.symm.trans hpid
  simp [finishVerdict, holdPid, hpending, hcloexec] at hverdict

/-- A commit keeps every entry but the close-on-exec ones of the process. -/
theorem mem_finishExec_of_mem {pid : Int} {fd : LiveFd} (hfd : fd ∈ t.fds)
    (hkept : ¬ (fd.pid = pid ∧ fd.execPending ≠ 0 ∧ fd.execCloexec ≠ 0)) :
    ∃ kept ∈ (t.finishExec pid false).fds, kept.clear = fd.clear := by
  obtain ⟨kept, hverdict⟩ : ∃ kept, finishVerdict pid false fd = some kept := by
    rw [finishVerdict]
    split
    · exact ⟨fd, rfl⟩
    · rename_i hpending
      simp only [not_or, not_not] at hpending
      have hcloexec : fd.execCloexec = 0 := by
        by_contra hcloexec
        exact hkept ⟨hpending.1, hpending.2, hcloexec⟩
      exact ⟨fd.clear, by simp [hcloexec]⟩
  exact ⟨kept, mem_finishExec.2 ⟨fd, hfd, hverdict⟩, finishVerdict_clear hverdict⟩

/-- Under the condition an `OPEN` record finds no entry of its descriptor once the process has
committed. -/
theorem key_fresh_of_opensAnew (hanew : OpensAnew t event) (hkind : event.kind = .fdOpen) :
    (event.pid, event.fd) ∉ (t.finishExec event.pid false).fds.map LiveFd.key := by
  intro hmem
  obtain ⟨fd, hfd, hkey⟩ := List.mem_map.1 hmem
  have hpid : fd.pid = event.pid := congrArg Prod.fst hkey
  obtain ⟨old, hold, hclear, hkept⟩ := not_closed_of_mem_finishExec hfd hpid
  have holdKey : old.key = (event.pid, event.fd) := (LiveFd.key_of_clear hclear).symm.trans hkey
  exact hkept (hanew hkind old hold (LiveFd.isFor_iff.2 holdKey))

/-- The entries a `FORK` record adds have fresh keys. -/
theorem forkEntries_keys_nodup {closedFds : List ClosedFd} {parents fds : List LiveFd}
    (hkeys : (fds.map LiveFd.key).Nodup) :
    ((parents.foldl (forkEntry event closedFds) fds).map LiveFd.key).Nodup := by
  induction parents generalizing fds with
  | nil => exact hkeys
  | cons parent rest ih =>
    rw [List.foldl_cons]
    apply ih
    rw [forkEntry]
    split
    · rename_i hadd
      rw [List.map_append, List.nodup_append]
      refine ⟨hkeys, List.nodup_singleton _, ?_⟩
      -- an entry with the key of the copy would have kept the loop from adding it
      intro key hkey added hadded heq
      obtain ⟨fd, hfd, rfl⟩ := List.mem_map.1 hkey
      obtain rfl := List.mem_singleton.1 hadded
      apply hadd.2.1
      exact List.any_eq_true.2 ⟨fd, hfd, LiveFd.isFor_iff.2 heq⟩
    · exact hkeys

/-- One record keeps the invariant when it opens no live descriptor. -/
theorem openInv_ingest (hinv : OpenInv t) (hanew : OpensAnew t event) :
    OpenInv (t.ingest inherits event) := by
  have hcommit := openInv_finishExec hinv event.pid false
  have hstored : ∀ fd ∈ (t.finishExec event.pid false).fds,
      event.touches fd.pid fd.fd = false → OpenedBy (t.resources ++ [event]) fd ∨
        InheritedBy (t.resources ++ [event]) fd :=
    fun fd hfd htouches => origin_store htouches (hcommit.origin fd hfd)
  cases hkind : event.kind with
  | fdOpen =>
    -- the new key is fresh, and the record touches no other entry
    have hfresh := key_fresh_of_opensAnew hanew hkind
    rw [ingest_fdOpen inherits hkind]
    constructor
    · rw [List.map_append, List.nodup_append]
      refine ⟨hcommit.keys, List.nodup_singleton _, ?_⟩
      rintro key hkey added hadded rfl
      rw [List.mem_singleton.1 hadded] at hkey
      exact hfresh hkey
    · intro fd hfd
      rcases List.mem_append.1 hfd with hfd | hfd
      · apply hstored fd hfd
        apply touches_eq_false
        rintro - heq
        exact hfresh (List.mem_map.2 ⟨fd, hfd, heq.symm⟩)
      · obtain rfl := List.mem_singleton.1 hfd
        exact Or.inl ⟨event, latestRecord_touching (by
          simp [ResourceEvent.touches, LiveFd.ofOpen, hkind]), hkind, rfl, rfl⟩
  | fdClose =>
    rw [ingest_fdClose inherits hkind]
    -- with distinct keys, removing the first entry of the descriptor removes all of them
    have hremoved := @removeFirst_perm_filter LiveFd (Int × Int)
      (LiveFd.isFor event.pid event.fd) LiveFd.key (t.finishExec event.pid false).fds
      hcommit.keys fun a b ha hb => (LiveFd.isFor_iff.1 ha).trans (LiveFd.isFor_iff.1 hb).symm
    constructor
    · exact removeFirst_keys_nodup hcommit.keys
    · intro fd hfd
      obtain ⟨hmem, hother⟩ := List.mem_filter.1 (hremoved.mem_iff.1 hfd)
      apply hstored fd hmem
      apply touches_eq_false
      rintro - heq
      have hfor := LiveFd.isFor_iff.2 (show fd.key = (event.pid, event.fd) from heq.symm)
      simp [hfor] at hother
  | fork =>
    rw [ingest_fork inherits hkind]
    constructor
    · exact forkEntries_keys_nodup hcommit.keys
    · intro fd hfd
      rcases mem_forkEntries_cases hfd with hold | ⟨parent, -, rfl⟩
      · exact hstored fd hold (touches_eq_false (by simp [hkind]))
      · exact Or.inr ⟨event, by simp, hkind, rfl, rfl⟩
  | exec =>
    rw [ingest_exec inherits hkind]
    constructor
    · -- marks are not part of the key
      have hkeys := modifyFirst_map (LiveFd.isFor event.pid event.fd) (LiveFd.mark event)
        LiveFd.key t.fds fun fd _ _ => rfl
      exact hkeys.symm ▸ hinv.keys
    · intro fd hfd
      have hold : ∃ old ∈ t.fds, fd.clear = old.clear := by
        rcases mem_modifyFirst hfd with h | ⟨old, hold, -, rfl⟩
        · exact ⟨fd, h, rfl⟩
        · exact ⟨old, hold, rfl⟩
      obtain ⟨old, hold, hclear⟩ := hold
      refine origin_of_core hclear (origin_store ?_ (hinv.origin old hold))
      exact touches_eq_false (by simp [hkind])
  | execFail =>
    rw [ingest_execFail inherits hkind]
    constructor
    · rw [clearPending_eq_map, List.map_map]
      have hkeys : t.fds.map (LiveFd.key ∘ clearFor event.pid) = t.fds.map LiveFd.key :=
        List.map_congr_left fun fd _ => LiveFd.key_of_clear (clearFor_clear event.pid fd)
      rw [hkeys]
      exact hinv.keys
    · intro fd hfd
      obtain ⟨old, hold, rfl⟩ := List.mem_map.1 hfd
      refine origin_of_core (clearFor_clear event.pid old) (origin_store ?_ (hinv.origin old hold))
      exact touches_eq_false (by simp [hkind])
  | alloc | free | realloc | spawn | generic =>
    obtain ⟨allocs, freedAllocs, heq⟩ := ingest_of_memory inherits event (by simp [hkind]) t
    rw [heq]
    exact ⟨hcommit.keys, fun fd hfd => hstored fd hfd (touches_eq_false (by simp [hkind]))⟩

/-- The invariant holds after every run that opens no live descriptor. -/
theorem openInv_run {log : List ResourceEvent}
    (hanew : EveryStep (ingest inherits) OpensAnew empty log) :
    OpenInv (empty.run inherits log) :=
  hanew.invariant (fun _ _ hstep hinv => openInv_ingest hinv hstep) openInv_empty

/-! ## Soundness of the table -/

/-- At most one entry for each descriptor, and none after a `CLOSE`. -/
def TableSound (t : Tables) : Prop :=
  (∀ pid fd, (t.fds.filter (LiveFd.isFor pid fd)).length ≤ 1) ∧
    ∀ pid fd record, latestRecord pid fd t.resources = some record → record.kind = .fdClose →
      ∀ entry ∈ t.fds, LiveFd.isFor pid fd entry = false

/-- Without `FORK` records every entry is that of its latest `OPEN`. -/
theorem openedBy_of_openInv (hinv : OpenInv t) (hfork : ∀ record ∈ t.resources, record.kind ≠ .fork)
    {fd : LiveFd} (hfd : fd ∈ t.fds) : OpenedBy t.resources fd := by
  rcases hinv.origin fd hfd with h | ⟨fork, hmem, hkind, -⟩
  · exact h
  · exact absurd hkind (hfork fork hmem)

theorem filter_length_le_one (hkeys : (t.fds.map LiveFd.key).Nodup) (pid fd : Int) :
    (t.fds.filter (LiveFd.isFor pid fd)).length ≤ 1 := by
  have hnodup := hkeys.sublist ((@List.filter_sublist _ (LiveFd.isFor pid fd) t.fds).map LiveFd.key)
  have hfor : ∀ entry ∈ t.fds.filter (LiveFd.isFor pid fd), entry.key = (pid, fd) :=
    fun entry hentry => LiveFd.isFor_iff.1 (List.mem_filter.1 hentry).2
  -- two entries of one descriptor would have one key
  generalize t.fds.filter (LiveFd.isFor pid fd) = found at hnodup hfor
  match found with
  | [] => exact Nat.zero_le 1
  | [_] => exact le_rfl
  | first :: second :: _ =>
    have hne : first.key ≠ second.key := by
      rw [List.map_cons, List.nodup_cons] at hnodup
      intro heq
      exact hnodup.1 (by simp [heq])
    exact absurd ((hfor first (by simp)).trans (hfor second (by simp)).symm) hne

theorem tableSound_of_openInv (hinv : OpenInv t)
    (hfork : ∀ record ∈ t.resources, record.kind ≠ .fork) : TableSound t := by
  refine ⟨filter_length_le_one hinv.keys, ?_⟩
  intro pid fd record hlatest hclose entry hentry
  by_contra hfor
  have hkey := LiveFd.isFor_iff.1 (Bool.eq_true_of_not_eq_false hfor)
  have hpid : entry.pid = pid := congrArg Prod.fst hkey
  have hfd : entry.fd = fd := congrArg Prod.snd hkey
  obtain ⟨opened, hopened, hkind, -⟩ := openedBy_of_openInv hinv hfork hentry
  -- the latest record of its descriptor would be an `OPEN` and a `CLOSE`
  rw [hpid, hfd, hlatest] at hopened
  obtain rfl := Option.some.inj hopened
  rw [hclose] at hkind
  cases hkind

/-- If the table is sound after an `OPEN` record, the record found its descriptor not live. -/
theorem opensAnew_of_tableSound (hsound : TableSound (t.ingest inherits event)) :
    OpensAnew t event := by
  intro hkind fd hfd hfor
  have hlength := hsound.1 event.pid event.fd
  rw [ingest_fdOpen inherits hkind, List.filter_append, List.length_append] at hlength
  have hnew : ([LiveFd.ofOpen event].filter (LiveFd.isFor event.pid event.fd)).length = 1 := by
    simp [LiveFd.ofOpen, LiveFd.isFor]
  have hnone : (t.finishExec event.pid false).fds.filter
      (LiveFd.isFor event.pid event.fd) = [] := by
    apply List.length_eq_zero_iff.1
    omega
  by_contra hkept
  -- an entry that the commit keeps would be found next to the new one
  obtain ⟨kept, hmem, hclear⟩ :=
    @mem_finishExec_of_mem _ event.pid _ hfd fun h => hkept h.2
  have hkeptFor : LiveFd.isFor event.pid event.fd kept = true := by
    rw [LiveFd.isFor_iff, LiveFd.key_of_clear hclear]
    exact LiveFd.isFor_iff.1 hfor
  exact List.not_mem_nil (hnone ▸ List.mem_filter.2 ⟨hmem, hkeptFor⟩)

/-- A finding that an `EXEC` record raises names the latest `OPEN` of its descriptor. -/
theorem previous_of_raised (hinv : OpenInv t)
    (hfork : ∀ record ∈ t.resources, record.kind ≠ .fork) (hkind : event.kind = .exec)
    {finding : Finding} (hafter : finding ∈ (t.ingest inherits event).findings)
    (hbefore : finding ∉ t.findings) :
    ∃ opened, latestRecord event.pid event.fd t.resources = some opened ∧
      opened.kind = .fdOpen ∧ finding.previousSite = opened.site ∧
      finding.previousSequence = opened.sequence := by
  rw [ingest_exec inherits hkind] at hafter
  -- the finding is new, so it is about an entry that was live before the record
  rcases List.mem_append.1 hafter with hold | hnew
  · exact absurd hold hbefore
  · obtain ⟨fd, hfd, hfor, rfl⟩ := mem_raised inherits hnew
    have hkey := LiveFd.isFor_iff.1 hfor
    have hpid : fd.pid = event.pid := congrArg Prod.fst hkey
    have hfdEq : fd.fd = event.fd := congrArg Prod.snd hkey
    obtain ⟨opened, hlatest, hopened, hsite, hsequence⟩ := openedBy_of_openInv hinv hfork hfd
    rw [hpid, hfdEq] at hlatest
    exact ⟨opened, hlatest, hopened, hsite.symm, hsequence.symm⟩

end Tables

/-- **When the live-descriptor table is sound.** Over a log without `FORK` records, every reachable
state holds at most one entry for each descriptor and none after its `CLOSE`, and every finding of
an `EXEC` record names the latest `OPEN` of its descriptor, exactly when no `OPEN` record finds its
descriptor live. -/
theorem liveTable_sound_iff {lib : ToolEventLib} (st : State lib)
    (hfresh : st.model.tables = Tables.empty) (log : List ResourceEvent)
    (hfork : ∀ event ∈ log, event.kind ≠ .fork)
    (hok : (ingestLog st (number log)).err.error = false) :
    ((∀ pre post, number log = pre ++ post → Tables.TableSound (ingestLog st pre).model.tables) ∧
      ∀ pre event post, number log = pre ++ event :: post → event.kind = .exec →
        ∀ finding ∈ (ingestLog st (pre ++ [event])).model.findings.items,
          finding ∉ (ingestLog st pre).model.findings.items →
          ∃ opened, latestRecord event.pid event.fd (ingestLog st pre).model.resources.items =
              some opened ∧ opened.kind = .fdOpen ∧ finding.previousSite = opened.site ∧
            finding.previousSequence = opened.sequence) ↔
      EveryStep ingestResource (fun st event => Tables.OpensAnew st.model.tables event) st
        (number log) := by
  rw [everyStep_tables hok, hfresh]
  have hstate : ∀ pre post, number log = pre ++ post →
      (ingestLog st pre).model.tables = Tables.empty.run lib.execInherits pre ∧
        ∀ record ∈ (ingestLog st pre).model.tables.resources, record.kind ≠ .fork := by
    intro pre post hsplit
    have htables := tables_of_beginning hfresh hok hsplit
    refine ⟨htables, ?_⟩
    intro record hrecord
    rw [htables, Tables.run_resources] at hrecord
    have hmem : record ∈ number log := by
      rw [hsplit]
      exact List.mem_append_left _ (by simpa [Tables.empty] using hrecord)
    exact forall_numberFrom (fun _ _ h => h) 0 hfork record hmem
  constructor
  · -- an `OPEN` of a live descriptor leaves two entries of it
    rintro ⟨hsound, -⟩
    rw [EveryStep.iff_splits]
    intro pre event post hsplit
    obtain ⟨-, hafter, -⟩ := tables_at_record hfresh hok hsplit
    have hsound' := hsound (pre ++ [event]) post (by rw [hsplit, List.append_cons])
    rw [hafter] at hsound'
    exact Tables.opensAnew_of_tableSound hsound'
  · -- the invariant holds after every beginning of the log
    intro hanew
    have hinv : ∀ pre post, number log = pre ++ post →
        Tables.OpenInv (ingestLog st pre).model.tables := by
      intro pre post hsplit
      rw [(hstate pre post hsplit).1]
      rw [hsplit] at hanew
      exact Tables.openInv_run ((EveryStep.append _ _ _).1 hanew).1
    constructor
    · intro pre post hsplit
      exact Tables.tableSound_of_openInv (hinv pre post hsplit) (hstate pre post hsplit).2
    · intro pre event post hsplit hkind finding hafter hbefore
      obtain ⟨htables, hstep, -⟩ := tables_at_record hfresh hok hsplit
      rw [← htables] at hstep
      have hmem : finding ∈ ((ingestLog st pre).model.tables.ingest lib.execInherits
          event).findings := by
        rw [← hstep]
        exact hafter
      exact Tables.previous_of_raised (hinv pre (event :: post) hsplit)
        (hstate pre (event :: post) hsplit).2 hkind hmem hbefore

/-- A descriptor closed, opened again and closed by a successful exec before it is opened a third
time. -/
theorem liveTable_sound_reopened :
    EveryStep ingestResource (fun st event => Tables.OpensAnew st.model.tables event) State.zeroed
        (number [openRecord 1 3, closeRecord 1 3, openRecord 1 3, execRecord 1 3 1,
          openRecord 1 3]) ∧
      Tables.TableSound (ingestLog State.zeroed (number [openRecord 1 3, closeRecord 1 3,
        openRecord 1 3, execRecord 1 3 1, openRecord 1 3])).model.tables :=
  ⟨by decide, ((liveTable_sound_iff State.zeroed (by decide) [openRecord 1 3, closeRecord 1 3,
    openRecord 1 3, execRecord 1 3 1, openRecord 1 3] (by decide) (by decide)).2
      (by decide)).1 _ [] (List.append_nil _).symm⟩

/-- A descriptor opened twice and closed once: an entry stays although the latest record is the
`CLOSE`, and the next `EXEC` reports the closed descriptor as inherited. -/
theorem liveTable_unsound :
    (ingestLog State.zeroed (number [openRecord 1 3, openRecord 1 3, closeRecord 1 3,
        execRecord 1 3 0])).err.error = false ∧
      ¬ Tables.TableSound (ingestLog State.zeroed (number [openRecord 1 3, openRecord 1 3,
        closeRecord 1 3])).model.tables ∧
      (ingestLog State.zeroed (number [openRecord 1 3, openRecord 1 3, closeRecord 1 3,
        execRecord 1 3 0])).model.findings.items.map (·.kind) = [.execInherit] := by
  refine ⟨by decide, ?_, by decide⟩
  rintro ⟨-, hclosed⟩
  exact absurd (hclosed 1 3 { closeRecord 1 3 with sequence := 3 } (by decide) rfl
    { LiveFd.ofOpen (openRecord 1 3) with sequence := 2 } (by decide)) (by decide)

end P101Report
