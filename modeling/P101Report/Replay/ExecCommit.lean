import P101Report.Library.Loops
import P101Report.Model.Lifecycle
import P101Report.Replay.Steps

/-!
# What the commit of an exec moves

`p101_report_finish_exec` walks over the live table while it swap-removes entries of it, and
`p101_report_finalize_leaks` starts its own walk again after every commit. Both loops are given here
pass by pass, with the index of the source: they stop without reading outside the table, and leave
what `finishExec` and `finishPending` compute (`finishExec_halts`, `finishPending_halts`).

Without a failed allocation a commit moves each pending close-on-exec descriptor of its process to
the closed table, clears the marks of the others and leaves every other entry as it was
(`finishExec_moves`), and finalization settles all pending execs at once (`finalizeLeaks_settles`).
-/

set_option autoImplicit false

namespace P101Report

open SwapTable Loops

variable {lib : ToolEventLib}

/-! ## The loops of the source -/

/-- One pass of the loop of `p101_report_finish_exec` at `index`. -/
def finishExecPass (pid : Int) (endOfInput : Bool) : Nat × State lib → Pass (Nat × State lib)
  | (index, st) =>
    let fds := st.model.fds.items
    if index < fds.length ∧ st.err.error = false then
      match fds[index]? with
      | none => .fault
      | some fd =>
        if fd.pid ≠ pid ∨ fd.execPending = 0 then .next (index + 1, st)
        else if fd.execCloexec ≠ 0 then
          let st := pushClosedFd (ClosedFd.ofExec fd) st
          .next (index, st.setFds (swapRemove fds index))
        else if endOfInput then .next (index, st.setFds (swapRemove fds index))
        else .next (index + 1, st.setFds (fds.set index fd.clear))
    else .stop

/-- One pass of the restart loop of `p101_report_finalize_leaks` at `index`. -/
def settlePass : Nat × State lib → Pass (Nat × State lib)
  | (index, st) =>
    let fds := st.model.fds.items
    if index < fds.length ∧ st.err.error = false then
      match fds[index]? with
      | none => .fault
      | some fd =>
        if fd.execPending ≠ 0 then .next (0, finishExec fd.pid true st) else .next (index + 1, st)
    else .stop

/-- The commit loop from `index` on: it stops, with the result of `finishExecLoop` on the entries
not yet visited. -/
theorem finishExecLoop_halts (pid : Int) (endOfInput : Bool) (remaining : Nat) {index : Nat}
    {st : State lib} (hindex : index + remaining = st.model.fds.items.length) :
    ∃ last, Halts (finishExecPass pid endOfInput) (index, st)
      (last, finishExecLoop pid endOfInput remaining st) := by
  induction remaining generalizing index st with
  | zero =>
    refine ⟨index, .stop ?_⟩
    rw [finishExecPass]
    exact if_neg (by omega)
  | succ n ih =>
    rw [finishExecLoop]
    by_cases herror : st.err.error = true
    · rw [if_pos herror]
      refine ⟨index, .stop ?_⟩
      rw [finishExecPass]
      exact if_neg (by simp [herror])
    · rw [if_neg herror]
      have hguard : index < st.model.fds.items.length ∧ st.err.error = false :=
        ⟨by omega, by simpa using herror⟩
      have hat : st.model.fds.items.length - (n + 1) = index := by omega
      obtain ⟨fd, hget⟩ : ∃ fd, st.model.fds.items[index]? = some fd :=
        ⟨_, List.getElem?_eq_getElem hguard.1⟩
      have hremoved : index + n = (swapRemove st.model.fds.items index).length := by
        rw [swapRemove_length]
        omega
      -- one pass, then the loop from where it leads
      have hpass : ∀ next, finishExecPass pid endOfInput (index, st) = .next next →
          next.1 + n = next.2.model.fds.items.length →
          ∃ last, Halts (finishExecPass pid endOfInput) (index, st)
            (last, finishExecLoop pid endOfInput n next.2) := by
        rintro ⟨index', st'⟩ hnext hindex'
        obtain ⟨last, hrest⟩ := ih hindex'
        exact ⟨last, .next hnext hrest⟩
      dsimp only
      rw [hat, hget]
      dsimp only
      rw [finishExecPass] at hpass
      simp only [if_pos hguard, hget] at hpass
      by_cases hskip : fd.pid ≠ pid ∨ fd.execPending = 0
      · rw [if_pos hskip] at hpass ⊢
        exact hpass _ rfl (by simp only; omega)
      · rw [if_neg hskip] at hpass ⊢
        by_cases hcloexec : fd.execCloexec ≠ 0
        · rw [if_pos hcloexec] at hpass ⊢
          exact hpass _ rfl hremoved
        · rw [if_neg hcloexec] at hpass ⊢
          cases endOfInput with
          | true => exact hpass _ rfl hremoved
          | false =>
            refine hpass _ rfl ?_
            simp only [State.setFds, List.length_set]
            omega

/-- **The commit loop terminates.** It stops with the result of `finishExec` and reads no entry
outside the table. -/
theorem finishExec_halts (pid : Int) (endOfInput : Bool) (st : State lib) :
    ∃ last, Halts (finishExecPass pid endOfInput) (0, st) (last, finishExec pid endOfInput st) :=
  finishExecLoop_halts pid endOfInput _ (Nat.zero_add _)

/-- The rest of a loop that never adds entries, after an entry has been swap-removed. -/
theorem length_lt_of_swapRemove {f : State lib → State lib}
    (hle : ∀ st, (f st).model.fds.items.length ≤ st.model.fds.items.length) {fds : List LiveFd}
    {index : Nat} (hindex : index < fds.length) (st : State lib) :
    (f (st.setFds (swapRemove fds index))).model.fds.items.length < fds.length := by
  have hlength := swapRemove_length fds index
  have hrest : (f (st.setFds (swapRemove fds index))).model.fds.items.length ≤
      (swapRemove fds index).length := hle _
  omega

/-- A commit at the end of the log only removes entries. -/
theorem finishExecLoop_length_le (pid : Int) (remaining : Nat) (st : State lib) :
    (finishExecLoop pid true remaining st).model.fds.items.length ≤
      st.model.fds.items.length := by
  induction remaining generalizing st with
  | zero => exact le_rfl
  | succ n ih =>
    rw [finishExecLoop]
    split
    · exact le_rfl
    · dsimp only
      split
      · exact le_rfl
      · rename_i fd hget
        obtain ⟨hlt, -⟩ := List.getElem?_eq_some_iff.1 hget
        split
        · exact ih st
        · split
          · exact (length_lt_of_swapRemove ih hlt _).le
          · exact (length_lt_of_swapRemove ih hlt st).le

/-- It removes the first pending entry of its process, whether or not the entry can be recorded. -/
theorem finishExecLoop_length_lt (pid : Int) (remaining : Nat) {index : Nat} {st : State lib}
    {fd : LiveFd} (herror : st.err.error = false)
    (hindex : st.model.fds.items.length - remaining ≤ index)
    (hget : st.model.fds.items[index]? = some fd) (hpid : fd.pid = pid)
    (hpending : fd.execPending ≠ 0) :
    (finishExecLoop pid true remaining st).model.fds.items.length <
      st.model.fds.items.length := by
  obtain ⟨hlt, -⟩ := List.getElem?_eq_some_iff.1 hget
  induction remaining with
  | zero => omega
  | succ n ih =>
    have hle := @finishExecLoop_length_le lib pid n
    rw [finishExecLoop, if_neg (by simp [herror])]
    dsimp only
    by_cases hhere : st.model.fds.items.length - (n + 1) = index
    · -- the entry is at hand: both ways of handling it remove it
      rw [hhere, hget]
      dsimp only
      rw [if_neg (by simp [hpid, hpending])]
      split
      · exact length_lt_of_swapRemove hle hlt _
      · exact length_lt_of_swapRemove hle hlt st
    · have hbefore : st.model.fds.items.length - (n + 1) < st.model.fds.items.length := by omega
      rw [List.getElem?_eq_getElem hbefore]
      dsimp only
      split
      · exact ih (by omega)
      · split
        · exact length_lt_of_swapRemove hle hbefore _
        · exact length_lt_of_swapRemove hle hbefore st

/-- A commit for a pending entry shortens the table. -/
theorem finishExec_length_lt {st : State lib} {fd : LiveFd} (herror : st.err.error = false)
    (hfd : fd ∈ st.model.fds.items) (hpending : fd.execPending ≠ 0) :
    (finishExec fd.pid true st).model.fds.items.length < st.model.fds.items.length := by
  obtain ⟨index, hget⟩ := List.getElem?_of_mem hfd
  exact finishExecLoop_length_lt fd.pid _ herror (by omega) hget rfl hpending

/-- The restart loop on its way to the first pending entry. -/
theorem settle_scan {index : Nat} {st : State lib} {fd : LiveFd} (herror : st.err.error = false)
    (hfind : (st.model.fds.items.drop index).find? (fun fd => fd.execPending ≠ 0) = some fd)
    {r : Nat × State lib} (hrest : Halts settlePass (0, finishExec fd.pid true st) r) :
    Halts settlePass (index, st) r := by
  induction hn : st.model.fds.items.length - index generalizing index with
  | zero =>
    rw [List.drop_eq_nil_of_le (by omega)] at hfind
    cases hfind
  | succ n ih =>
    have hlt : index < st.model.fds.items.length := by omega
    rw [List.drop_eq_getElem_cons hlt, List.find?_cons] at hfind
    by_cases hpending : (st.model.fds.items[index]).execPending ≠ 0
    · rw [decide_eq_true hpending] at hfind
      obtain rfl := Option.some.inj hfind
      refine .next ?_ hrest
      simp only [settlePass, hlt, herror, and_self, if_true, List.getElem?_eq_getElem hlt]
      rw [if_pos hpending]
    · rw [decide_eq_false hpending] at hfind
      refine .next ?_ (ih hfind (by omega))
      simp only [settlePass, hlt, herror, and_self, if_true, List.getElem?_eq_getElem hlt]
      rw [if_neg hpending]

/-- The restart loop over a table without a pending entry. -/
theorem settle_idle {index : Nat} {st : State lib}
    (hnone : ∀ fd ∈ st.model.fds.items, fd.execPending = 0) :
    ∃ last, Halts settlePass (index, st) (last, st) := by
  induction hn : st.model.fds.items.length - index generalizing index with
  | zero =>
    refine ⟨index, .stop ?_⟩
    rw [settlePass]
    exact if_neg (by omega)
  | succ n ih =>
    by_cases herror : st.err.error = true
    · refine ⟨index, .stop ?_⟩
      rw [settlePass]
      exact if_neg (by simp [herror])
    · have hlt : index < st.model.fds.items.length := by omega
      obtain ⟨last, hrest⟩ := @ih (index + 1) (by omega)
      refine ⟨last, .next ?_ hrest⟩
      simp only [settlePass, hlt, Bool.eq_false_iff.2 herror, and_self, if_true,
        List.getElem?_eq_getElem hlt]
      rw [if_neg (not_not.2 (hnone _ (List.getElem_mem hlt)))]

/-- The restart loop with as many restarts allowed as there are entries: it stops, with the result
of `finishPending`. -/
theorem finishPending_halts_of_le {fuel : Nat} {st : State lib}
    (hfuel : st.model.fds.items.length ≤ fuel) :
    ∃ last, Halts settlePass (0, st) (last, finishPending fuel st) := by
  induction fuel generalizing st with
  | zero =>
    refine ⟨0, .stop ?_⟩
    rw [settlePass]
    exact if_neg (by omega)
  | succ fuel ih =>
    rw [finishPending]
    by_cases herror : st.err.error = true
    · rw [if_pos herror]
      refine ⟨0, .stop ?_⟩
      rw [settlePass]
      exact if_neg (by simp [herror])
    · rw [if_neg herror]
      cases hfind : st.model.fds.items.find? fun fd => fd.execPending ≠ 0 with
      | none => exact settle_idle (by simpa using List.find?_eq_none.1 hfind)
      | some fd =>
        -- every restart shortens the table
        have hlt := finishExec_length_lt (Bool.eq_false_iff.2 herror)
          (List.mem_of_find?_eq_some hfind) (by simpa using List.find?_some hfind)
        obtain ⟨last, hrest⟩ := @ih (finishExec fd.pid true st) (by omega)
        exact ⟨last, settle_scan (Bool.eq_false_iff.2 herror) (by rwa [List.drop_zero]) hrest⟩

/-- **The restart loop terminates.** It stops with the result of `finishPending`. -/
theorem finishPending_halts (st : State lib) :
    ∃ last, Halts settlePass (0, st) (last, finishPending st.model.fds.items.length st) :=
  finishPending_halts_of_le le_rfl

/-! ## What a commit moves -/

/-- An entry of a process that an `EXEC` record has marked. -/
def LiveFd.pendingOf (pid : Int) (fd : LiveFd) : Bool := fd.pid == pid && fd.execPending != 0

/-- The mark of an entry that the exec would close. -/
def LiveFd.closesOnExec (fd : LiveFd) : Bool := fd.execCloexec != 0

namespace Tables

theorem finishVerdict_idle {pid : Int} {endOfInput : Bool} {fd : LiveFd}
    (h : fd.pendingOf pid = false) : finishVerdict pid endOfInput fd = some fd := by
  have hskip : fd.pid ≠ pid ∨ fd.execPending = 0 := by
    by_cases hpid : fd.pid = pid
    · exact Or.inr (by simpa [LiveFd.pendingOf, hpid] using h)
    · exact Or.inl hpid
  rw [finishVerdict, if_pos hskip]

theorem finishVerdict_pending {pid : Int} {endOfInput : Bool} {fd : LiveFd}
    (h : fd.pendingOf pid = true) :
    finishVerdict pid endOfInput fd =
      if fd.closesOnExec || endOfInput then none else some fd.clear := by
  simp only [LiveFd.pendingOf, Bool.and_eq_true, beq_iff_eq, bne_iff_ne, ne_eq] at h
  rw [finishVerdict, if_neg (by simp [h.1, h.2])]
  by_cases hcloexec : fd.execCloexec = 0
  · simp [LiveFd.closesOnExec, hcloexec]
  · simp [LiveFd.closesOnExec, hcloexec]

/-- The entries a commit leaves: those it does not concern, and the inherited ones with their marks
cleared. -/
theorem filterMap_finishVerdict_perm (pid : Int) (fds : List LiveFd) :
    (fds.filterMap (finishVerdict pid false)).Perm
      ((fds.filter fun fd => !fd.pendingOf pid) ++
        (fds.filter fun fd => fd.pendingOf pid && !fd.closesOnExec).map LiveFd.clear) := by
  induction fds with
  | nil => exact List.Perm.refl _
  | cons fd rest ih =>
    cases hpending : fd.pendingOf pid with
    | false =>
      rw [List.filterMap_cons_some (finishVerdict_idle hpending),
        List.filter_cons_of_pos (by simp [hpending]), List.filter_cons_of_neg (by simp [hpending]),
        List.cons_append]
      exact ih.cons fd
    | true =>
      have hverdict := @finishVerdict_pending pid false fd hpending
      rw [List.filter_cons_of_neg (by simp [hpending])]
      cases hcloses : fd.closesOnExec with
      | true =>
        rw [hcloses] at hverdict
        rw [List.filterMap_cons_none (by simpa using hverdict),
          List.filter_cons_of_neg (by simp [hcloses])]
        exact ih
      | false =>
        rw [hcloses] at hverdict
        rw [List.filterMap_cons_some (by simpa using hverdict),
          List.filter_cons_of_pos (by simp [hpending, hcloses]), List.map_cons]
        exact (ih.cons fd.clear).trans List.perm_middle.symm

/-- At the end of the log a commit leaves the entries it does not concern. -/
theorem filterMap_finishVerdict_end (pid : Int) (fds : List LiveFd) :
    fds.filterMap (finishVerdict pid true) = fds.filter fun fd => !fd.pendingOf pid := by
  induction fds with
  | nil => rfl
  | cons fd rest ih =>
    cases hpending : fd.pendingOf pid with
    | false =>
      rw [List.filterMap_cons_some (finishVerdict_idle hpending),
        List.filter_cons_of_pos (by simp [hpending]), ih]
    | true =>
      have hnone : finishVerdict pid true fd = none := by
        rw [finishVerdict_pending hpending, Bool.or_true]
        rfl
      rw [List.filterMap_cons_none hnone, List.filter_cons_of_neg (by simp [hpending]), ih]

/-- Whatever becomes of the inherited ones, a commit closes the pending close-on-exec entries. -/
theorem finishExec_closes (pid : Int) (endOfInput : Bool) (t : Tables) :
    ∃ added, (t.finishExec pid endOfInput).closedFds = t.closedFds ++ added ∧
      added.Perm ((t.fds.filter fun fd => fd.pendingOf pid && fd.closesOnExec).map
        ClosedFd.ofExec) := by
  obtain ⟨removed, hremoved, hclosed⟩ := finishExec_closedFds pid endOfInput t
  refine ⟨_, hclosed, ?_⟩
  refine ((hremoved.filter _).map ClosedFd.ofExec).trans (List.Perm.of_eq ?_)
  rw [List.filter_filter]
  congr 1
  apply List.filter_congr
  intro fd _
  cases hpending : fd.pendingOf pid with
  | false => simp [finishVerdict_idle hpending]
  | true =>
    rw [finishVerdict_pending hpending]
    by_cases hcloexec : fd.execCloexec = 0
    · simp [LiveFd.closesOnExec, hcloexec]
    · simp [LiveFd.closesOnExec, hcloexec]

end Tables

/-- **A commit moves exactly the pending descriptors of its process.** Without a failed allocation
no entry of the process stays pending, the close-on-exec ones are in the closed table with the site
and sequence of their `EXEC` record, the others have their marks cleared, and every entry that was
not pending, or is of another process, is there as often as before. -/
theorem finishExec_moves (pid : Int) (st : State lib)
    (hok : (finishExec pid false st).err.error = false) :
    let before := st.model
    let after := (finishExec pid false st).model
    (∃ last, Halts (finishExecPass pid false) (0, st) (last, finishExec pid false st)) ∧
      (∀ fd ∈ after.fds.items, fd.pendingOf pid = false) ∧
      after.fds.items.Perm
        ((before.fds.items.filter fun fd => !fd.pendingOf pid) ++
          (before.fds.items.filter fun fd => fd.pendingOf pid && !fd.closesOnExec).map
            LiveFd.clear) ∧
      ∃ added, after.closedFds.items = before.closedFds.items ++ added ∧
        added.Perm ((before.fds.items.filter fun fd => fd.pendingOf pid && fd.closesOnExec).map
          ClosedFd.ofExec) := by
  obtain ⟨-, htables⟩ := finishExec_tables pid false st hok
  have hfds : (finishExec pid false st).model.fds.items =
      (st.model.tables.finishExec pid false).fds := congrArg Tables.fds htables
  have hclosed : (finishExec pid false st).model.closedFds.items =
      (st.model.tables.finishExec pid false).closedFds := congrArg Tables.closedFds htables
  have hperm := (Tables.finishExec_fds_perm pid false st.model.tables).trans
    (Tables.filterMap_finishVerdict_perm pid st.model.fds.items)
  dsimp only
  refine ⟨finishExec_halts pid false st, ?_, hfds ▸ hperm, ?_⟩
  · intro fd hfd
    rw [hfds, hperm.mem_iff, List.mem_append, List.mem_filter, List.mem_map] at hfd
    rcases hfd with ⟨-, hidle⟩ | ⟨old, -, rfl⟩
    · simpa using hidle
    · simp [LiveFd.pendingOf, LiveFd.clear]
  · obtain ⟨added, heq, hadded⟩ := Tables.finishExec_closes pid false st.model.tables
    exact ⟨added, hclosed.trans heq, hadded⟩

/-- Two pending descriptors of a process, one of them close-on-exec, and one of another process. -/
def pendingTable : List ResourceEvent :=
  number [openRecord 1 3, openRecord 1 4, openRecord 2 3, execRecord 1 3 1, execRecord 1 4 0]

theorem finishExec_moves_pending :
    let st := ingestLog State.zeroed pendingTable
    (finishExec 1 false st).model.fds.items.Perm
        ((st.model.fds.items.filter fun fd => !fd.pendingOf 1) ++
          (st.model.fds.items.filter fun fd => fd.pendingOf 1 && !fd.closesOnExec).map
            LiveFd.clear) ∧
      (finishExec 1 false st).model.closedFds.items = [⟨1, 3, 0, 4⟩] := by
  refine ⟨(finishExec_moves 1 (ingestLog State.zeroed pendingTable) (by decide)).2.2.1, by decide⟩

/-! ## The end of the log -/

namespace Tables

/-- Any pending entry, of whichever process. -/
def isPending (fd : LiveFd) : Bool := fd.execPending != 0

theorem isPending_iff {fd : LiveFd} : isPending fd = true ↔ fd.execPending ≠ 0 := by
  simp [isPending]

/-- An entry that is not pending is not pending of any process. -/
theorem pendingOf_of_idle {pid : Int} {fd : LiveFd} (h : isPending fd = false) :
    fd.pendingOf pid = false := by
  have hidle : fd.execPending = 0 := by simpa [isPending] using h
  simp [LiveFd.pendingOf, hidle]

/-- The entries a commit at the end of the log leaves, and those it closes. -/
theorem finishExec_end (pid : Int) (t : Tables) :
    (t.finishExec pid true).fds.Perm (t.fds.filter fun fd => !fd.pendingOf pid) ∧
      ∃ added, (t.finishExec pid true).closedFds = t.closedFds ++ added ∧
        added.Perm ((t.fds.filter fun fd => fd.pendingOf pid && fd.closesOnExec).map
          ClosedFd.ofExec) := by
  refine ⟨?_, finishExec_closes pid true t⟩
  rw [← filterMap_finishVerdict_end]
  exact finishExec_fds_perm pid true t

/-- The restart loop with a restart for every pending entry. -/
theorem finishPending_settles {fuel : Nat} {t : Tables} (hfuel : t.fds.countP isPending ≤ fuel) :
    (t.finishPending fuel).fds.Perm (t.fds.filter fun fd => !isPending fd) ∧
      ∃ added, (t.finishPending fuel).closedFds = t.closedFds ++ added ∧
        added.Perm ((t.fds.filter fun fd => isPending fd && fd.closesOnExec).map
          ClosedFd.ofExec) := by
  have hidle : ∀ t : Tables, (∀ fd ∈ t.fds, isPending fd = false) →
      t.fds.Perm (t.fds.filter fun fd => !isPending fd) ∧
        ∃ added, t.closedFds = t.closedFds ++ added ∧
          added.Perm ((t.fds.filter fun fd => isPending fd && fd.closesOnExec).map
            ClosedFd.ofExec) := by
    intro t hnone
    refine ⟨List.Perm.of_eq (List.filter_eq_self.2 fun fd hfd => ?_).symm, [], by simp, ?_⟩
    · rw [hnone fd hfd]
      rfl
    · rw [List.filter_eq_nil_iff.2 fun fd hfd => by simp [hnone fd hfd], List.map_nil]
  induction fuel generalizing t with
  | zero =>
    have hnone := List.countP_eq_zero.1 (Nat.le_zero.1 hfuel)
    exact hidle t fun fd hfd => by simpa using hnone fd hfd
  | succ fuel ih =>
    rw [finishPending]
    cases hfind : t.fds.find? fun fd => fd.execPending ≠ 0 with
    | none =>
      refine hidle t fun fd hfd => ?_
      simpa [isPending] using List.find?_eq_none.1 hfind fd hfd
    | some fd =>
      have hmem := List.mem_of_find?_eq_some hfind
      have hpending : fd.execPending ≠ 0 := by simpa using List.find?_some hfind
      obtain ⟨hfds, added, hclosed, hadded⟩ := finishExec_end fd.pid t
      -- the commit takes the pending entries of this process, and at least `fd`
      have hsplit : ∀ p : LiveFd → Bool, ((t.finishExec fd.pid true).fds.filter p).Perm
          (t.fds.filter fun entry => p entry && !entry.pendingOf fd.pid) := by
        intro p
        refine (hfds.filter p).trans (List.Perm.of_eq ?_)
        rw [List.filter_filter]
      have hless : (t.finishExec fd.pid true).fds.countP isPending ≤ fuel := by
        rw [List.countP_eq_length_filter, (hsplit isPending).length_eq,
          ← List.countP_eq_length_filter]
        have hlt : (t.fds.countP fun entry => isPending entry && !entry.pendingOf fd.pid) <
            t.fds.countP isPending := by
          simp only [Bool.and_comm (isPending _)]
          rw [List.countP_eq_length_filter, List.countP_eq_length_filter, ← List.filter_filter,
            List.length_filter_lt_length_iff_exists]
          exact ⟨fd, List.mem_filter.2 ⟨hmem, isPending_iff.2 hpending⟩,
            by simp [LiveFd.pendingOf, hpending]⟩
        omega
      obtain ⟨hfds', added', hclosed', hadded'⟩ := ih hless
      refine ⟨?_, added ++ added', ?_, ?_⟩
      · refine hfds'.trans ((hsplit _).trans (List.Perm.of_eq ?_))
        apply List.filter_congr
        intro entry _
        cases hentry : isPending entry with
        | true => rfl
        | false => simp [pendingOf_of_idle hentry]
      · rw [hclosed', hclosed, List.append_assoc]
      · refine (hadded.append hadded').trans ?_
        rw [← List.map_append]
        apply List.Perm.map
        have hparts := List.filter_append_perm (LiveFd.pendingOf fd.pid)
          (t.fds.filter fun entry => isPending entry && entry.closesOnExec)
        rw [List.filter_filter, List.filter_filter] at hparts
        refine (List.Perm.append (List.Perm.of_eq ?_) ((hsplit _).trans
          (List.Perm.of_eq ?_))).trans hparts
        · apply List.filter_congr
          intro entry _
          cases hentry : isPending entry with
          | true => simp
          | false => simp [pendingOf_of_idle hentry]
        · simp only [Bool.and_comm]

end Tables

/-! ## What the loops write -/

/-- A commit writes the live and the closed table at most, also when it fails. -/
theorem finishExecLoop_writes (pid : Int) (endOfInput : Bool) (remaining : Nat) (st : State lib) :
    ∃ fds closedFds,
      (finishExecLoop pid endOfInput remaining st).model = { st.model with fds, closedFds } := by
  have hclosed (entry : ClosedFd) (st : State lib) :
      ∃ closedFds, (pushClosedFd entry st).model = { st.model with closedFds } := by
    rw [pushClosedFd]
    split <;> exact ⟨_, rfl⟩
  induction remaining generalizing st with
  | zero => exact ⟨_, _, rfl⟩
  | succ n ih =>
    rw [finishExecLoop]
    split
    · exact ⟨_, _, rfl⟩
    · dsimp only
      split
      · exact ⟨_, _, rfl⟩
      · rename_i fd _
        split
        · exact ih st
        · split
          · obtain ⟨pushed, hpushed⟩ := hclosed (ClosedFd.ofExec fd) st
            obtain ⟨fds, closedFds, hrest⟩ := ih ((pushClosedFd (ClosedFd.ofExec fd) st).setFds
              (swapRemove st.model.fds.items (st.model.fds.items.length - (n + 1))))
            rw [hrest, State.setFds, hpushed]
            exact ⟨fds, closedFds, rfl⟩
          · split
            · exact ih (st.setFds _)
            · exact ih (st.setFds _)

theorem finishPending_writes (fuel : Nat) (st : State lib) :
    ∃ fds closedFds, (finishPending fuel st).model = { st.model with fds, closedFds } := by
  induction fuel generalizing st with
  | zero => exact ⟨_, _, rfl⟩
  | succ fuel ih =>
    rw [finishPending]
    split
    · exact ⟨_, _, rfl⟩
    · split
      · exact ⟨_, _, rfl⟩
      · rename_i fd _
        obtain ⟨fds, closedFds, hcommit⟩ :=
          finishExecLoop_writes fd.pid true st.model.fds.items.length st
        obtain ⟨fds', closedFds', hrest⟩ := ih (finishExec fd.pid true st)
        rw [hrest, finishExec, hcommit]
        exact ⟨fds', closedFds', rfl⟩

/-- Without a pending entry the restart loop does nothing. -/
theorem finishPending_idle {fuel : Nat} {st : State lib}
    (hnone : ∀ fd ∈ st.model.fds.items, fd.execPending = 0) : finishPending fuel st = st := by
  cases fuel with
  | zero => rfl
  | succ fuel =>
    have hfind : st.model.fds.items.find? (fun fd => fd.execPending ≠ 0) = none := by
      simpa using hnone
    rw [finishPending, hfind]
    exact ite_self st

/-- The restart loop leaves no pending entry when no allocation has failed in it. -/
theorem finishPending_none {st : State lib}
    (hok : (finishPending st.model.fds.items.length st).err.error = false) :
    ∀ fd ∈ (finishPending st.model.fds.items.length st).model.fds.items, fd.execPending = 0 := by
  obtain ⟨-, htables⟩ := finishPending_tables st.model.fds.items.length st hok
  obtain ⟨hfds, -⟩ := @Tables.finishPending_settles _ st.model.tables List.countP_le_length
  intro fd hfd
  have hmem : fd ∈ (Tables.finishPending st.model.fds.items.length st.model.tables).fds :=
    congrArg Tables.fds htables ▸ hfd
  have hidle := (List.mem_filter.1 (hfds.mem_iff.1 hmem)).2
  simpa [Tables.isPending] using hidle

/-- The lifecycle half of finalization does not look at the descriptors. -/
theorem finalizeGeneric_descriptors (st : State lib) :
    (finalizeGeneric st).model.fds.items = st.model.fds.items ∧
      (finalizeGeneric st).model.closedFds.items = st.model.closedFds.items := by
  obtain ⟨-, added, -, -, -, htables⟩ := finalizeGeneric_prefix st
  exact ⟨congrArg Tables.fds htables, congrArg Tables.closedFds htables⟩

/-- **Finalization settles every pending exec.** The restart loop stops on every table. When no
allocation has failed in it, the live table holds the entries that were not pending, the closed
table has one entry more for each pending close-on-exec descriptor, and another finalization leaves
both tables alone, whatever the errors and allocations it starts with. -/
theorem finalizeLeaks_settles (st : State lib) :
    ∃ last settled, Halts settlePass (0, st) (last, settled) ∧
      finalizeLeaks st = finalizeGeneric settled ∧
      (settled.err.error = false →
        (finalizeLeaks st).model.fds.items.Perm
            (st.model.fds.items.filter fun fd => fd.execPending == 0) ∧
          (∃ added, (finalizeLeaks st).model.closedFds.items =
              st.model.closedFds.items ++ added ∧
            added.Perm ((st.model.fds.items.filter fun fd =>
              fd.execPending != 0 && fd.closesOnExec).map ClosedFd.ofExec)) ∧
          ∀ err, (finalizeLeaks { finalizeLeaks st with err }).model.fds.items =
              (finalizeLeaks st).model.fds.items ∧
            (finalizeLeaks { finalizeLeaks st with err }).model.closedFds.items =
              (finalizeLeaks st).model.closedFds.items) := by
  obtain ⟨last, hhalts⟩ := finishPending_halts st
  refine ⟨last, _, hhalts, rfl, ?_⟩
  intro hok
  obtain ⟨-, htables⟩ := finishPending_tables st.model.fds.items.length st hok
  obtain ⟨hfds, added, hclosed, hadded⟩ :=
    @Tables.finishPending_settles _ st.model.tables List.countP_le_length
  obtain ⟨hkeepFds, hkeepClosed⟩ :=
    finalizeGeneric_descriptors (finishPending st.model.fds.items.length st)
  have hperm : (finalizeLeaks st).model.fds.items.Perm
      (st.model.fds.items.filter fun fd => fd.execPending == 0) := by
    rw [finalizeLeaks, hkeepFds, show (finishPending _ st).model.fds.items = _ from
      congrArg Tables.fds htables]
    refine hfds.trans (List.Perm.of_eq (List.filter_congr fun fd _ => ?_))
    rw [Tables.isPending, bne, Bool.not_not]
  refine ⟨hperm, ⟨added, ?_, hadded⟩, ?_⟩
  · rw [finalizeLeaks, hkeepClosed]
    exact (congrArg Tables.closedFds htables).trans hclosed
  · intro err
    have hnone : ∀ fd ∈ (finalizeLeaks st).model.fds.items, fd.execPending = 0 := by
      intro fd hfd
      simpa using (List.mem_filter.1 (hperm.mem_iff.1 hfd)).2
    have hidle := @finishPending_idle lib (finalizeLeaks st).model.fds.items.length
      { finalizeLeaks st with err } hnone
    have hagain : finalizeLeaks { finalizeLeaks st with err } =
        finalizeGeneric { finalizeLeaks st with err } := congrArg finalizeGeneric hidle
    rw [hagain]
    exact finalizeGeneric_descriptors _

/-- The table above at the end of the log. -/
theorem finalizeLeaks_settles_pending :
    (finalizeLeaks (ingestLog State.zeroed pendingTable)).model.fds.items.Perm
        ((ingestLog State.zeroed pendingTable).model.fds.items.filter
          fun fd => fd.execPending == 0) ∧
      (finalizeLeaks (ingestLog State.zeroed pendingTable)).model.closedFds.items =
        [⟨1, 3, 0, 4⟩] := by
  obtain ⟨last, settled, hhalts, -, hsettles⟩ :=
    finalizeLeaks_settles (ingestLog State.zeroed pendingTable)
  obtain ⟨last', hhalts'⟩ := finishPending_halts (ingestLog State.zeroed pendingTable)
  obtain rfl := (Prod.mk.inj (hhalts.unique hhalts')).2
  exact ⟨(hsettles (by decide)).1, by decide⟩

end P101Report
