import P101Report.Replay.LiveTable

/-!
# What a child inherits

The loop of a `FORK` record appends to the table it scans and looks for the child's descriptors
among the entries it has already added. What it leaves behind is nevertheless a function of the
table at the start: one entry for each descriptor of the parent that the child neither has nor has
closed, made from the parent's first entry for it (`Inherited`, `forkInheritance_exact`).
-/

set_option autoImplicit false

namespace P101Report

open SwapTable

variable {lib : ToolEventLib}

/-- What the entries `parents` of the table have added to `fds` for the child of a `FORK` record. -/
structure Inherited (event : ResourceEvent) (closedFds : List ClosedFd) (fds : List LiveFd)
    (parents added : List LiveFd) : Prop where
  /-- An added entry is made from the parent's first one for its descriptor, which the child neither
  had nor has closed. -/
  origin : ∀ entry ∈ added,
    (∃ parent, parents.find? (LiveFd.isFor event.pid entry.fd) = some parent ∧
      entry = LiveFd.ofFork event parent) ∧
    fds.any (LiveFd.isFor event.childPid entry.fd) = false ∧
    closedFds.any (ClosedFd.isFor event.childPid entry.fd) = false
  distinct : (added.map LiveFd.fd).Nodup
  /-- Every descriptor that the child can inherit has been added. -/
  complete : ∀ fd, parents.any (LiveFd.isFor event.pid fd) = true →
    fds.any (LiveFd.isFor event.childPid fd) = false →
    closedFds.any (ClosedFd.isFor event.childPid fd) = false → ∃ entry ∈ added, entry.fd = fd

section Loop

variable {event : ResourceEvent} {closedFds : List ClosedFd} {fds : List LiveFd}
  {parents added : List LiveFd}

theorem Inherited.nil : Inherited event closedFds fds [] [] where
  origin := by simp
  distinct := List.nodup_nil
  complete := by simp

/-- A first match stays the first one when the list grows. -/
theorem find?_concat {α : Type} {p : α → Bool} {l : List α} {x : α} (y : α)
    (h : l.find? p = some x) : (l ++ [y]).find? p = some x := by
  rw [List.find?_append, h]
  rfl

/-- What the child has of a descriptor after some of the loop. -/
theorem Inherited.any_live (h : Inherited event closedFds fds parents added) (fd : Int) :
    (fds ++ added).any (LiveFd.isFor event.childPid fd) = true ↔
      fds.any (LiveFd.isFor event.childPid fd) = true ∨ ∃ entry ∈ added, entry.fd = fd := by
  rw [List.any_append, Bool.or_eq_true]
  apply or_congr_right
  rw [List.any_eq_true]
  constructor
  · rintro ⟨entry, hentry, hfor⟩
    exact ⟨entry, hentry, congrArg Prod.snd (LiveFd.isFor_iff.1 hfor)⟩
  · rintro ⟨entry, hentry, rfl⟩
    obtain ⟨⟨parent, -, rfl⟩, -, -⟩ := h.origin entry hentry
    exact ⟨_, hentry, LiveFd.isFor_iff.2 rfl⟩

/-- One more entry of the table. -/
theorem Inherited.step (h : Inherited event closedFds fds parents added) (fd : LiveFd) :
    ∃ added', Tables.forkEntry event closedFds (fds ++ added) fd = fds ++ added' ∧
      Inherited event closedFds fds (parents ++ [fd]) added' := by
  rw [Tables.forkEntry]
  by_cases hadd : fd.pid = event.pid ∧
      ¬ (fds ++ added).any (LiveFd.isFor event.childPid fd.fd) = true ∧
      ¬ closedFds.any (ClosedFd.isFor event.childPid fd.fd) = true
  · rw [if_pos hadd]
    obtain ⟨hpid, hlive, hclosed⟩ := hadd
    rw [h.any_live, not_or] at hlive
    obtain ⟨hlive, hnew⟩ := hlive
    rw [Bool.not_eq_true] at hlive hclosed
    have hfor : LiveFd.isFor event.pid fd.fd fd = true := LiveFd.isFor_iff.2 (by
      rw [← hpid]
      rfl)
    -- an earlier entry of the parent for this descriptor would have been copied
    have hfirst : parents.find? (LiveFd.isFor event.pid fd.fd) = none := by
      rw [List.find?_eq_none]
      intro parent hparent hearlier
      exact hnew (h.complete fd.fd (List.any_eq_true.2 ⟨parent, hparent, hearlier⟩) hlive hclosed)
    refine ⟨added ++ [LiveFd.ofFork event fd], List.append_assoc .., ?_, ?_, ?_⟩
    · intro entry hentry
      rcases List.mem_append.1 hentry with hold | hlast
      · obtain ⟨⟨parent, hparent, rfl⟩, hrest⟩ := h.origin entry hold
        exact ⟨⟨parent, find?_concat fd hparent, rfl⟩, hrest⟩
      · obtain rfl := List.mem_singleton.1 hlast
        refine ⟨⟨fd, ?_, rfl⟩, hlive, hclosed⟩
        rw [List.find?_append, show (LiveFd.ofFork event fd).fd = fd.fd from rfl, hfirst]
        simp [hfor]
    · rw [List.map_append, List.nodup_append]
      refine ⟨h.distinct, List.nodup_singleton _, ?_⟩
      rintro number hnumber other hother rfl
      obtain ⟨entry, hentry, heq⟩ := List.mem_map.1 hnumber
      obtain rfl := List.mem_singleton.1 hother
      exact hnew ⟨entry, hentry, heq⟩
    · intro number hparents hnotLive hnotClosed
      rw [List.any_append, Bool.or_eq_true] at hparents
      rcases hparents with hparents | hlast
      · obtain ⟨entry, hentry, heq⟩ := h.complete number hparents hnotLive hnotClosed
        exact ⟨entry, List.mem_append_left _ hentry, heq⟩
      · refine ⟨LiveFd.ofFork event fd, by simp, ?_⟩
        have hsame : LiveFd.isFor event.pid number fd = true := by simpa using hlast
        exact congrArg Prod.snd (LiveFd.isFor_iff.1 hsame)
  · rw [if_neg hadd]
    refine ⟨added, rfl, ?_, h.distinct, ?_⟩
    · intro entry hentry
      obtain ⟨⟨parent, hparent, rfl⟩, hrest⟩ := h.origin entry hentry
      exact ⟨⟨parent, find?_concat fd hparent, rfl⟩, hrest⟩
    · intro number hparents hnotLive hnotClosed
      rw [List.any_append, Bool.or_eq_true] at hparents
      rcases hparents with hparents | hlast
      · exact h.complete number hparents hnotLive hnotClosed
      · -- the entry is of the parent, so one of the two probes has found the child's
        have hsame : LiveFd.isFor event.pid number fd = true := by simpa using hlast
        obtain ⟨hpid, rfl⟩ := Prod.mk.inj (LiveFd.isFor_iff.1 hsame)
        have hprobe : (fds ++ added).any (LiveFd.isFor event.childPid fd.fd) = true := by
          by_contra hlive
          exact hadd ⟨hpid, hlive, by simp [hnotClosed]⟩
        rw [h.any_live, hnotLive] at hprobe
        simpa using hprobe

/-- The whole loop. -/
theorem inherited_foldl (rest : List LiveFd) (h : Inherited event closedFds fds parents added) :
    ∃ added', rest.foldl (Tables.forkEntry event closedFds) (fds ++ added) = fds ++ added' ∧
      Inherited event closedFds fds (parents ++ rest) added' := by
  induction rest generalizing parents added with
  | nil => exact ⟨added, rfl, by simpa using h⟩
  | cons fd rest ih =>
    obtain ⟨added₁, heq, h₁⟩ := h.step fd
    obtain ⟨added₂, heq₂, h₂⟩ := ih h₁
    exact ⟨added₂, by rw [List.foldl_cons, heq, heq₂], by simpa using h₂⟩

end Loop

/-- A record ingested without an error has committed its process without one. -/
theorem finishExec_ok_of_ingestResource {st : State lib} {event : ResourceEvent}
    (hkind : event.kind ≠ .exec ∧ event.kind ≠ .execFail)
    (hok : (ingestResource st event).err.error = false) :
    (finishExec event.pid false st).err.error = false := by
  rw [ingestResource, if_pos hkind] at hok
  dsimp only at hok
  split at hok
  · rename_i herror
    exact absurd hok (by simp [herror])
  · rename_i herror
    exact (addResourceEvent_tables event _ (Bool.eq_false_iff.2 herror)).1

/-- **Fork inheritance is exact.** After a `FORK` record ingested without an error the live table is
that of the parent's commit with new entries behind it. The child has a live entry for a descriptor
exactly when it had one, or the parent has one and the child has not closed it. A new entry has the
site of the parent's first one, the sequence of the record and no exec marks; no two are for one
descriptor; and the closed table and the findings are as the commit left them. -/
theorem forkInheritance_exact (st : State lib) (event : ResourceEvent) (hkind : event.kind = .fork)
    (hok : (ingestResource st event).err.error = false) :
    let before := (finishExec event.pid false st).model
    let after := (ingestResource st event).model
    ∃ added, after.fds.items = before.fds.items ++ added ∧
      (∀ fd, after.fds.items.any (LiveFd.isFor event.childPid fd) = true ↔
        before.fds.items.any (LiveFd.isFor event.childPid fd) = true ∨
          (before.fds.items.any (LiveFd.isFor event.pid fd) = true ∧
            before.closedFds.items.any (ClosedFd.isFor event.childPid fd) = false)) ∧
      (∀ entry ∈ added, ∃ parent,
        before.fds.items.find? (LiveFd.isFor event.pid entry.fd) = some parent ∧
        entry = { pid := event.childPid, fd := entry.fd, site := parent.site,
                  sequence := event.sequence, execPending := 0, execCloexec := 0, execSite := 0,
                  execSequence := 0 }) ∧
      (added.map LiveFd.fd).Nodup ∧
      after.closedFds.items = before.closedFds.items ∧
      after.findings.items = before.findings.items := by
  have hcommitted := finishExec_ok_of_ingestResource (by simp [hkind]) hok
  obtain ⟨-, hbefore⟩ := finishExec_tables event.pid false st hcommitted
  obtain ⟨-, hafter⟩ := ingestResource_tables event st hok
  dsimp only at hafter
  rw [Tables.ingest_fork lib.execInherits hkind, ← hbefore] at hafter
  have hstart : Inherited event (finishExec event.pid false st).model.closedFds.items
      (finishExec event.pid false st).model.fds.items [] [] := Inherited.nil
  obtain ⟨added, hfds, hinherited⟩ :=
    inherited_foldl (finishExec event.pid false st).model.fds.items hstart
  rw [List.append_nil] at hfds
  rw [List.nil_append] at hinherited
  have hitems : (ingestResource st event).model.fds.items =
      (finishExec event.pid false st).model.fds.items ++ added :=
    (congrArg Tables.fds hafter).trans hfds
  refine ⟨added, hitems, ?_, ?_, hinherited.distinct, congrArg Tables.closedFds hafter,
    congrArg Tables.findings hafter⟩
  · intro fd
    rw [hitems, hinherited.any_live]
    constructor
    · rintro (hlive | ⟨entry, hentry, rfl⟩)
      · exact Or.inl hlive
      · obtain ⟨⟨parent, hparent, -⟩, -, hclosed⟩ := hinherited.origin entry hentry
        exact Or.inr ⟨List.any_eq_true.2 ⟨parent, List.mem_of_find?_eq_some hparent,
          List.find?_some hparent⟩, hclosed⟩
    · rintro (hlive | ⟨hparent, hclosed⟩)
      · exact Or.inl hlive
      · -- the child has it already, or the loop has added it
        cases hlive : (finishExec event.pid false st).model.fds.items.any
            (LiveFd.isFor event.childPid fd) with
        | true => exact Or.inl rfl
        | false => exact Or.inr (hinherited.complete fd hparent hlive hclosed)
  · intro entry hentry
    obtain ⟨⟨parent, hparent, heq⟩, -⟩ := hinherited.origin entry hentry
    refine ⟨parent, hparent, ?_⟩
    rw [heq]
    rfl

/-- A fork while one descriptor of the parent is pending close-on-exec, another is open twice and a
third has been closed by the child. -/
theorem forkInheritance_exact_pending :
    let st := ingestLog State.zeroed (number [openRecord 1 3, openRecord 1 4, openRecord 1 4,
      openRecord 1 5, openRecord 2 5, closeRecord 2 5, execRecord 1 3 1])
    let fork := { forkRecord 1 2 with sequence := 8 }
    ((ingestResource st fork).model.fds.items.filter fun fd => fd.pid == 2) =
        [{ pid := 2, fd := 4, site := 0, sequence := 8 }] ∧
      ∃ added, (ingestResource st fork).model.fds.items =
        (finishExec 1 false st).model.fds.items ++ added ∧ (added.map LiveFd.fd).Nodup := by
  intro st fork
  obtain ⟨added, hfds, -, -, hdistinct, -⟩ := forkInheritance_exact st fork rfl (by decide)
  exact ⟨by decide, added, hfds, hdistinct⟩

end P101Report
