import P101Report.Reading.Sites
import P101Report.Replay.ExecCommit
import P101Report.Replay.FailedExec

/-!
# The allocations that a call asks for

Which allocations a call makes is decided by the model before it: a growth makes one where its array
is full and none elsewhere, and is refused where the new size does not fit; every text that is there
is copied once. So it can be told beforehand whether a call succeeds: it does when no error has been
raised, nothing is refused, and the next outcomes are successes, as many as its demand
(`Spends`). A demand is a number of allocations, or `none` for a call that is refused whatever they
do; the demands of calls made one after another add up (`Spends.trans`).
-/

set_option autoImplicit false

namespace P101Report

open SwapTable

variable {lib : ToolEventLib}

/-! ## Demands -/

/-- The demand of two calls, one after the other. -/
def demandSum (first second : Option Nat) : Option Nat :=
  first.bind fun n => second.map fun m => n + m

/-- The demand is not refused, and as many of the next outcomes are successes. -/
def Granted (demand : Option Nat) (outcomes : List Bool) : Prop :=
  ∃ n, demand = some n ∧ ∀ fails ∈ outcomes.take n, fails = false

/-- What is left of the outcomes for the next call. -/
def leftOver (demand : Option Nat) (outcomes : List Bool) : List Bool :=
  outcomes.drop (demand.getD 0)

theorem granted_some {n : Nat} {outcomes : List Bool} :
    Granted (some n) outcomes ↔ ∀ fails ∈ outcomes.take n, fails = false := by
  simp [Granted]

theorem not_granted_none {outcomes : List Bool} : ¬ Granted none outcomes := by
  rintro ⟨n, h, -⟩
  cases h

instance (demand : Option Nat) (outcomes : List Bool) : Decidable (Granted demand outcomes) :=
  match demand with
  | none => isFalse not_granted_none
  | some _ => decidable_of_iff _ granted_some.symm

theorem granted_zero (outcomes : List Bool) : Granted (some 0) outcomes := by
  simp [granted_some]

theorem demandSum_assoc (a b c : Option Nat) :
    demandSum (demandSum a b) c = demandSum a (demandSum b c) := by
  cases a <;> cases b <;> cases c <;> simp [demandSum, Nat.add_assoc]

@[simp] theorem demandSum_zero (a : Option Nat) : demandSum a (some 0) = a := by
  cases a <;> simp [demandSum]

@[simp] theorem zero_demandSum (a : Option Nat) : demandSum (some 0) a = a := by
  cases a <;> simp [demandSum]

/-- The second of two calls has what the first one has left. -/
theorem granted_demandSum {first second : Option Nat} {outcomes : List Bool} :
    Granted (demandSum first second) outcomes ↔
      Granted first outcomes ∧ Granted second (leftOver first outcomes) := by
  cases first with
  | none => simp [demandSum, not_granted_none]
  | some n =>
    cases second with
    | none => simp [demandSum, not_granted_none]
    | some m =>
      have hsum : demandSum (some n) (some m) = some (n + m) := rfl
      rw [hsum, granted_some, granted_some, granted_some, leftOver, List.take_add,
        List.forall_mem_append]
      rfl

theorem leftOver_demandSum {first second : Option Nat} {outcomes : List Bool}
    (h : Granted (demandSum first second) outcomes) :
    leftOver (demandSum first second) outcomes =
      leftOver second (leftOver first outcomes) := by
  cases first with
  | none => exact absurd h not_granted_none
  | some n =>
    cases second with
    | none => exact absurd h not_granted_none
    | some m =>
      have hsum : demandSum (some n) (some m) = some (n + m) := rfl
      rw [hsum]
      simp only [leftOver, Option.getD_some, List.drop_drop]

/-- A call from one error state to another: it succeeds exactly when no error has been raised before
and its demand is granted, and then it has used up as many outcomes. -/
structure Spends (demand : Option Nat) (before after : ErrState) : Prop where
  ok : after.error = false ↔ before.error = false ∧ Granted demand before.allocations
  left : after.error = false → after.allocations = leftOver demand before.allocations

namespace Spends

variable {demand demand' : Option Nat} {a b c : ErrState}

theorem refl (err : ErrState) : Spends (some 0) err err :=
  ⟨(and_iff_left (granted_zero _)).symm, fun _ => rfl⟩

/-- Two calls, of which the second does not undo an error of the first. -/
theorem trans (h : Spends demand a b) (hstop : b.error = true → c.error = true)
    (h' : b.error = false → Spends demand' b c) : Spends (demandSum demand demand') a c := by
  have hok : c.error = false ↔
      a.error = false ∧ Granted (demandSum demand demand') a.allocations := by
    rw [granted_demandSum, ← and_assoc, ← h.ok]
    constructor
    · intro hc
      have hb : b.error = false := by
        by_contra herror
        rw [hstop (Bool.eq_true_of_not_eq_false herror)] at hc
        cases hc
      obtain ⟨-, hgranted⟩ := (h' hb).ok.1 hc
      exact ⟨hb, h.left hb ▸ hgranted⟩
    · rintro ⟨hb, hgranted⟩
      exact (h' hb).ok.2 ⟨hb, h.left hb ▸ hgranted⟩
  refine ⟨hok, fun hc => ?_⟩
  obtain ⟨ha, hgranted⟩ := hok.1 hc
  have hb := h.ok.2 ⟨ha, (granted_demandSum.1 hgranted).1⟩
  rw [leftOver_demandSum hgranted, (h' hb).left hc, h.left hb]

/-- An error stays raised. -/
theorem stops (h : Spends demand a b) (ha : a.error = true) : b.error = true := by
  by_contra hb
  rw [(h.ok.1 (Bool.eq_false_iff.2 hb)).1] at ha
  cases ha

/-- Two calls that are made in any case. -/
theorem and_then (h : Spends demand a b) (h' : Spends demand' b c) :
    Spends (demandSum demand demand') a c :=
  h.trans h'.stops fun _ => h'

/-- When the demand of the first call is not granted, the second one need not be made. -/
theorem refused (h : Spends demand a b) (hrefused : ¬ Granted demand a.allocations)
    (demand' : Option Nat) : Spends (demandSum demand demand') a b := by
  have herror : b.error = true := by
    by_contra hnone
    exact hrefused (h.ok.1 (Bool.eq_false_iff.2 hnone)).2
  refine ⟨⟨fun hok => ?_, fun hok => ?_⟩, fun hok => ?_⟩
  · exact absurd hok (by simp [herror])
  · exact absurd (granted_demandSum.1 hok.2).1 hrefused
  · exact absurd hok (by simp [herror])

end Spends

/-! ## Growth and copies -/

/-- The demand of `p101_report_grow_array_internal`. -/
def growthDemand (lib : ToolEventLib) (itemSize count capacity : Nat) : Option Nat :=
  if count < capacity then some 0
  else if newCapacity lib capacity < capacity ∨
      (itemSize ≠ 0 ∧ newCapacity lib capacity > lib.sizeMax / itemSize) then none
  else some 1

/-- The capacity that a growth which succeeds leaves behind. -/
def grownCapacity (lib : ToolEventLib) (count capacity : Nat) : Nat :=
  if count < capacity then capacity else newCapacity lib capacity

/-- The demand of a growth of a table. -/
def Table.demand {α : Type} (lib : ToolEventLib) (itemSize : Nat) (t : Table α) : Option Nat :=
  growthDemand lib itemSize t.items.length t.capacity

/-- The demand of copying the texts that are there. -/
def textsDemand (texts : List (Option Text)) : Option Nat :=
  some (texts.countP Option.isSome)

theorem allocate_spends (err : ErrState) : Spends (some 1) err err.allocate.2 ∧
    (err.allocate.1 = true ↔ Granted (some 1) err.allocations) := by
  obtain ⟨error, allocations⟩ := err
  rw [ErrState.allocate, granted_some]
  cases allocations with
  | nil => exact ⟨⟨by simp [granted_some], by simp [leftOver]⟩, by simp⟩
  | cons fails rest =>
    cases fails with
    | true => exact ⟨⟨by simp [granted_some], by simp⟩, by simp⟩
    | false => exact ⟨⟨by simp [granted_some], by simp [leftOver]⟩, by simp⟩

/-- A growth, and when it returns `true`. -/
theorem growTable_spends {α : Type} (itemSize : Nat) (t : Table α) (err : ErrState) :
    Spends (t.demand lib itemSize) err (growTable lib itemSize t err).2.2 ∧
      ((growTable lib itemSize t err).1 = true ↔
        Granted (t.demand lib itemSize) err.allocations) ∧
      (Granted (t.demand lib itemSize) err.allocations → (growTable lib itemSize t err).2.1 =
        { t with capacity := grownCapacity lib t.items.length t.capacity }) := by
  rw [growTable, growArrayInternal, Table.demand, growthDemand, grownCapacity]
  by_cases hroom : t.items.length < t.capacity
  · simp only [if_pos hroom]
    exact ⟨.refl err, by simp [granted_zero], fun _ => trivial⟩
  · simp only [if_neg hroom]
    split
    · -- the new size does not fit
      refine ⟨⟨?_, ?_⟩, ?_, ?_⟩ <;> simp [not_granted_none, ErrState.raise]
    · obtain ⟨hspends, hallocated⟩ := allocate_spends err
      generalize err.allocate = outcome at hspends hallocated
      obtain ⟨_ | _, err'⟩ := outcome
      · exact ⟨hspends, hallocated, fun hgranted => absurd (hallocated.2 hgranted) (by simp)⟩
      · exact ⟨hspends, hallocated, fun _ => rfl⟩

theorem dupText_spends (text : Option Text) (err : ErrState) :
    Spends (some 1) err (dupText text err).2 := by
  have hspends := (allocate_spends err).1
  rw [dupText]
  generalize err.allocate = outcome at hspends
  obtain ⟨_ | _, err'⟩ := outcome <;> exact hspends

theorem dupField_spends (text : Option Text) (err : ErrState) :
    Spends (textsDemand [text]) err (dupField text err).2 := by
  cases text with
  | none => exact .refl err
  | some text => exact dupText_spends (some text) err

theorem textsDemand_cons (text : Option Text) (texts : List (Option Text)) :
    textsDemand (text :: texts) = demandSum (textsDemand [text]) (textsDemand texts) := by
  cases text <;> simp [textsDemand, demandSum, Nat.add_comm]

/-- The copies of several texts, one after the other. -/
theorem dupFields_spends (texts : List (Option Text)) (err : ErrState) :
    Spends (textsDemand texts) err
      (texts.foldl (fun err text => (dupField text err).2) err) := by
  induction texts generalizing err with
  | nil => exact .refl err
  | cons text rest ih =>
    rw [textsDemand_cons]
    exact (dupField_spends text err).and_then (ih _)

/-! ## Storing a record -/

/-- The texts of a record. -/
def ResourceEvent.texts (event : ResourceEvent) : List (Option Text) :=
  [event.ptr, event.newPtr, event.target, event.resourceClass, event.resourceId, event.relatedId,
    event.metadata]

/-- The demand of `p101_report_add_resource_event`. -/
def storeDemand (event : ResourceEvent) (model : ReportModel lib) : Option Nat :=
  demandSum (model.resources.demand lib lib.sizeofResourceEvent) (textsDemand event.texts)

theorem addResourceEvent_spends (event : ResourceEvent) (st : State lib) :
    Spends (storeDemand event st.model) st.err (addResourceEvent event st).err := by
  obtain ⟨hgrowth, hgrown, -⟩ :=
    @growTable_spends lib _ lib.sizeofResourceEvent st.model.resources st.err
  rw [addResourceEvent, storeDemand]
  generalize growTable lib lib.sizeofResourceEvent st.model.resources st.err = grown
    at hgrowth hgrown ⊢
  obtain ⟨success, resources, err⟩ := grown
  cases success with
  | false => exact hgrowth.refused (fun hgranted => by simpa using hgrown.2 hgranted) _
  | true =>
    have hspends := hgrowth.and_then (dupFields_spends event.texts err)
    dsimp only
    -- a slot with a missing text is given back, and the error stays
    split <;> exact hspends

/-! ## Pending execs -/

/-- The demand of growing an array for one item after another. -/
def growthsDemand (lib : ToolEventLib) (itemSize : Nat) : Nat → Nat → Nat → Option Nat
  | 0, _, _ => some 0
  | items + 1, count, capacity =>
    demandSum (growthDemand lib itemSize count capacity)
      (growthsDemand lib itemSize items (count + 1) (grownCapacity lib count capacity))

/-- The demand of moving to `closed_fds` the live descriptors that are selected. -/
def closingsDemand (selected : LiveFd → Bool) (model : ReportModel lib) : Option Nat :=
  growthsDemand lib lib.sizeofClosedFd (model.fds.items.countP selected)
    model.closedFds.items.length model.closedFds.capacity

/-- The demand of `p101_report_finish_exec` for a process. -/
def commitDemand (pid : Int) (model : ReportModel lib) : Option Nat :=
  closingsDemand (fun fd => fd.pendingOf pid && fd.closesOnExec) model

/-- The demand of the restart loop of `p101_report_finalize_leaks`. -/
def settleDemand (model : ReportModel lib) : Option Nat :=
  closingsDemand (fun fd => Tables.isPending fd && fd.closesOnExec) model

theorem pushClosedFd_spends (entry : ClosedFd) (st : State lib) :
    Spends (st.model.closedFds.demand lib lib.sizeofClosedFd) st.err (pushClosedFd entry st).err ∧
      ((pushClosedFd entry st).err.error = false →
        (pushClosedFd entry st).model.closedFds =
          ⟨st.model.closedFds.items ++ [entry],
            grownCapacity lib st.model.closedFds.items.length st.model.closedFds.capacity⟩) := by
  obtain ⟨hspends, hgrown, htable⟩ :=
    @growTable_spends lib _ lib.sizeofClosedFd st.model.closedFds st.err
  rw [pushClosedFd]
  generalize growTable lib lib.sizeofClosedFd st.model.closedFds st.err = grown
    at hspends hgrown htable ⊢
  obtain ⟨success, closedFds, err⟩ := grown
  cases success with
  | false =>
    refine ⟨hspends, fun hok => ?_⟩
    exact absurd (hgrown.2 (hspends.ok.1 hok).2) (by simp)
  | true =>
    refine ⟨hspends, fun _ => ?_⟩
    have hcapacity := htable (hgrown.1 rfl)
    dsimp only at hcapacity ⊢
    rw [hcapacity]
    rfl

/-- The selected entries but for one that is removed. -/
theorem countP_swapRemove {α : Type} {selected : α → Bool} {l : List α} {index : Nat} {a : α}
    (h : l[index]? = some a) :
    l.countP selected =
      (swapRemove l index).countP selected + (if selected a = true then 1 else 0) := by
  obtain ⟨hlt, rfl⟩ := List.getElem?_eq_some_iff.1 h
  have hsplit : l = l.take index ++ l[index] :: l.drop (index + 1) := by
    rw [List.getElem_cons_drop, List.take_append_drop]
  have hperm := swapRemove_perm (l.take index) l[index] (l.drop (index + 1))
  rw [← hsplit, List.length_take, Nat.min_eq_left hlt.le] at hperm
  rw [hperm.countP_eq]
  conv_lhs => rw [hsplit]
  rw [List.countP_append, List.countP_append, List.countP_cons, Nat.add_assoc]

/-- An entry that is replaced, when neither is selected. -/
theorem countP_set_of_neg {α : Type} {selected : α → Bool} {l : List α} {index : Nat} {a b : α}
    (h : l[index]? = some a) (ha : selected a = false) (hb : selected b = false) :
    (l.set index b).countP selected = l.countP selected := by
  obtain ⟨hlt, rfl⟩ := List.getElem?_eq_some_iff.1 h
  simp [List.countP_set hlt, ha, hb]

/-- After an error neither loop does anything. -/
theorem finishExecLoop_stopped {pid : Int} {endOfInput : Bool} {remaining : Nat} {st : State lib}
    (h : st.err.error = true) : finishExecLoop pid endOfInput remaining st = st := by
  cases remaining with
  | zero => rfl
  | succ n => rw [finishExecLoop, if_pos h]

theorem finishPending_stopped {fuel : Nat} {st : State lib} (h : st.err.error = true) :
    finishPending fuel st = st := by
  cases fuel with
  | zero => rfl
  | succ fuel => rw [finishPending, if_pos h]

/-- What a part of a commit has spent is a part of what the closings ask for, and the closings that
are left ask for the rest. -/
structure Settles (selected : LiveFd → Bool) (st st' : State lib) : Prop where
  parts : ∃ spent rest, closingsDemand selected st.model = demandSum spent rest ∧
    Spends spent st.err st'.err ∧
    (st'.err.error = false → rest = closingsDemand selected st'.model)

namespace Settles

variable {selected : LiveFd → Bool} {st st' st'' : State lib}

theorem refl (st : State lib) : Settles selected st st :=
  ⟨some 0, _, (zero_demandSum _).symm, .refl _, fun _ => rfl⟩

theorem trans (h : Settles selected st st')
    (hstop : st'.err.error = true → st''.err.error = true)
    (h' : st'.err.error = false → Settles selected st' st'') : Settles selected st st'' := by
  obtain ⟨spent, rest, hparts, hspends, hrest⟩ := h.parts
  cases herror : st'.err.error with
  | true =>
    -- the first part has failed, so its demand is not granted
    have hfails : ¬ (st.err.error = false ∧ Granted spent st.err.allocations) := fun hgranted => by
      rw [hspends.ok.2 hgranted] at herror
      cases herror
    have hlast := hstop herror
    refine ⟨spent, rest, hparts, ⟨⟨fun hok => ?_, fun hgranted => absurd hgranted hfails⟩, ?_⟩, ?_⟩
    all_goals intros; simp_all
  | false =>
    obtain ⟨spent', rest', hparts', hspends', hrest'⟩ := (h' herror).parts
    refine ⟨demandSum spent spent', rest', ?_, hspends.and_then hspends', hrest'⟩
    rw [hparts, hrest herror, hparts', demandSum_assoc]

/-- A part after which nothing is left to close, unless it fails. -/
theorem spends (h : Settles selected st st')
    (hnone : st'.err.error = false → st'.model.fds.items.countP selected = 0) :
    Spends (closingsDemand selected st.model) st.err st'.err := by
  obtain ⟨spent, rest, hparts, hspends, hrest⟩ := h.parts
  rw [hparts]
  refine hspends.trans id fun hok => ?_
  rw [hrest hok, closingsDemand, hnone hok]
  exact .refl _

/-- A live descriptor is moved to `closed_fds`. -/
theorem close {index : Nat} {fd : LiveFd} (hget : st.model.fds.items[index]? = some fd)
    (hselected : selected fd = true) (entry : ClosedFd) :
    Settles selected st
      ((pushClosedFd entry st).setFds (swapRemove st.model.fds.items index)) := by
  obtain ⟨hspends, hclosed⟩ := pushClosedFd_spends entry st
  have hcount : st.model.fds.items.countP selected =
      (swapRemove st.model.fds.items index).countP selected + 1 := by
    rw [countP_swapRemove hget, if_pos hselected]
  refine ⟨_, growthsDemand lib lib.sizeofClosedFd
    ((swapRemove st.model.fds.items index).countP selected)
    (st.model.closedFds.items.length + 1)
    (grownCapacity lib st.model.closedFds.items.length st.model.closedFds.capacity), ?_, hspends,
    fun hok => ?_⟩
  · rw [closingsDemand, hcount]
    rfl
  · have htable : ((pushClosedFd entry st).setFds
        (swapRemove st.model.fds.items index)).model.closedFds = _ := hclosed hok
    rw [closingsDemand, htable, List.length_append]
    rfl

/-- A change of the live descriptors that closes none of the selected. -/
theorem setFds {items : List LiveFd}
    (h : items.countP selected = st.model.fds.items.countP selected) :
    Settles selected st (st.setFds items) := by
  refine ⟨some 0, _, (zero_demandSum _).symm, .refl _, fun _ => ?_⟩
  rw [closingsDemand, closingsDemand]
  exact congrArg (fun count => growthsDemand lib _ count _ _) h.symm

end Settles

/-- The loop of a commit, with the entries selected that it closes. -/
theorem finishExecLoop_settles {selected : LiveFd → Bool} {pid : Int} (endOfInput : Bool)
    (hclosed : ∀ fd : LiveFd, fd.pendingOf pid = true → fd.closesOnExec = true →
      selected fd = true)
    (hkept : ∀ fd : LiveFd, fd.closesOnExec = false → selected fd = false)
    (remaining : Nat) (st : State lib) :
    Settles selected st (finishExecLoop pid endOfInput remaining st) := by
  induction remaining generalizing st with
  | zero => exact .refl st
  | succ n ih =>
    have hstop : ∀ st' : State lib, st'.err.error = true →
        (finishExecLoop pid endOfInput n st').err.error = true := by
      intro st' herror
      rwa [finishExecLoop_stopped herror]
    rw [finishExecLoop]
    split
    · exact .refl st
    · dsimp only
      split
      · exact .refl st
      · rename_i fd hget
        have hcount := @countP_swapRemove _ selected _ _ _ hget
        split
        · exact ih st
        · rename_i hpending
          rw [not_or, not_not] at hpending
          have hof : fd.pendingOf pid = true := by
            simpa [LiveFd.pendingOf] using hpending
          split
          · rename_i hcloexec
            have hcloses : fd.closesOnExec = true := by
              simpa [LiveFd.closesOnExec] using hcloexec
            exact (Settles.close hget (hclosed fd hof hcloses) _).trans (hstop _) fun _ => ih _
          · rename_i hcloexec
            have hstays : selected fd = false :=
              hkept fd (by simpa [LiveFd.closesOnExec] using hcloexec)
            rw [hstays] at hcount
            split
            · exact (Settles.setFds hcount.symm).trans (hstop _) fun _ => ih _
            · have hclear : selected fd.clear = false := hkept fd.clear rfl
              refine (Settles.setFds ?_).trans (hstop _) fun _ => ih _
              exact countP_set_of_neg hget hstays hclear

/-- **The demand of a commit.** -/
theorem finishExec_spends (pid : Int) (st : State lib) :
    Spends (commitDemand pid st.model) st.err (finishExec pid false st).err := by
  have hsettles := @finishExecLoop_settles lib (fun fd => fd.pendingOf pid && fd.closesOnExec)
    pid false (fun fd hof hcloses => by simp [hof, hcloses]) (fun fd hkept => by simp [hkept])
    st.model.fds.items.length st
  refine hsettles.spends fun hok => List.countP_eq_zero.2 fun fd hfd => ?_
  -- no entry of the process is pending any more
  obtain ⟨-, htables⟩ := finishExec_tables pid false st hok
  have hmem : fd ∈ (st.model.tables.finishExec pid false).fds :=
    congrArg Tables.fds htables ▸ hfd
  have hidle := Tables.finishExec_idle pid false st.model.tables fd hmem
  intro hselected
  simp only [LiveFd.pendingOf, Bool.and_eq_true, beq_iff_eq, bne_iff_ne] at hselected
  exact hselected.1.2 (hidle hselected.1.1)

/-- **The demand of the restart loop.** -/
theorem finishPending_spends (st : State lib) :
    Spends (settleDemand st.model) st.err
      (finishPending st.model.fds.items.length st).err := by
  have hloop : ∀ (fuel : Nat) (st : State lib),
      Settles (fun fd => Tables.isPending fd && fd.closesOnExec) st (finishPending fuel st) := by
    intro fuel
    induction fuel with
    | zero => exact .refl
    | succ fuel ih =>
      intro st
      rw [finishPending]
      split
      · exact .refl st
      · split
        · exact .refl st
        · rename_i fd hfind
          have hfirst : Settles (fun fd => Tables.isPending fd && fd.closesOnExec) st
              (finishExec fd.pid true st) := by
            refine finishExecLoop_settles true (fun fd hof hcloses => ?_)
              (fun fd hkept => by simp [hkept]) _ st
            simp only [LiveFd.pendingOf, Bool.and_eq_true] at hof
            simp [Tables.isPending, hof.2, hcloses]
          refine hfirst.trans (fun herror => ?_) fun _ => ih _
          rwa [finishPending_stopped herror]
  refine (hloop _ st).spends fun hok => List.countP_eq_zero.2 fun fd hfd => ?_
  simp [Tables.isPending, finishPending_none hok fd hfd]

/-! ## Sites and findings -/

/-- The demand of `p101_report_intern_site`: the table grows for a new site, and its two names are
copied. -/
def internDemand (lib : ToolEventLib) (fileName functionName : Option Text) (lineNumber : Int)
    (sites : Table SourceSite) : Option Nat :=
  if sites.items.any (SourceSite.isAt fileName functionName lineNumber) then some 0
  else demandSum (sites.demand lib lib.sizeofSite) (some 2)

/-- The table that an interning which succeeds leaves behind. -/
def internedSites (lib : ToolEventLib) (fileName functionName : Option Text) (lineNumber : Int)
    (sites : Table SourceSite) : Table SourceSite :=
  if sites.items.any (SourceSite.isAt fileName functionName lineNumber) then sites
  else
    ⟨sites.items ++
        [⟨some (fileName.getD (lit "")), some (functionName.getD (lit "")), lineNumber⟩],
      grownCapacity lib sites.items.length sites.capacity⟩

/-- The entries that an interning leaves behind, whether it succeeds or not: a name whose copy fails
is `NULL`. -/
def sitesLeft (lib : ToolEventLib) (fileName functionName : Option Text) (lineNumber : Int)
    (sites : Table SourceSite) (outcomes : List Bool) : List SourceSite :=
  let copies := leftOver (sites.demand lib lib.sizeofSite) outcomes
  let copy (fails : Bool) (name : Option Text) : Option Text :=
    if fails then none else some (name.getD (lit ""))
  if sites.items.any (SourceSite.isAt fileName functionName lineNumber) ∨
      ¬ Granted (sites.demand lib lib.sizeofSite) outcomes then sites.items
  else
    sites.items ++
      [⟨copy (copies.getD 0 false) fileName, copy (copies.getD 1 false) functionName, lineNumber⟩]

/-- A copy takes the next outcome. -/
theorem dupText_outcome (text : Option Text) (err : ErrState) :
    (dupText text err).1 =
        (if err.allocations.getD 0 false then none else some (text.getD (lit ""))) ∧
      (dupText text err).2.allocations = err.allocations.drop 1 := by
  obtain ⟨error, outcomes⟩ := err
  cases outcomes with
  | nil => exact ⟨rfl, rfl⟩
  | cons fails rest => cases fails <;> exact ⟨rfl, rfl⟩

/-- The search of an interning ends without a match. -/
theorem findIdx?_none_of_any {α : Type} {found : α → Bool} {l : List α} (h : l.any found = false) :
    l.findIdx? found = none :=
  List.findIdx?_eq_none_iff.2 fun entry hentry => by
    simpa using List.any_eq_false.1 h entry hentry

theorem internSite_spends (fileName functionName : Option Text) (lineNumber : Int)
    (st : State lib) :
    let interned := (internSite fileName functionName lineNumber st).2
    Spends (internDemand lib fileName functionName lineNumber st.model.sites) st.err
        interned.err ∧
      (interned.err.error = false →
        interned.model.sites = internedSites lib fileName functionName lineNumber st.model.sites) ∧
      (st.err.error = false → interned.model.sites.items =
        sitesLeft lib fileName functionName lineNumber st.model.sites st.err.allocations) := by
  dsimp only
  rw [internSite, internDemand, internedSites, sitesLeft]
  cases hknown : st.model.sites.items.any (SourceSite.isAt fileName functionName lineNumber) with
  | true =>
    obtain ⟨index, hindex⟩ := Option.isSome_iff_exists.1
      (List.findIdx?_isSome.trans hknown)
    simp only [hindex, if_true, true_or]
    exact ⟨.refl _, fun _ => trivial, fun _ => trivial⟩
  | false =>
    simp only [findIdx?_none_of_any hknown, Bool.false_eq_true, if_false, false_or]
    obtain ⟨hspends, hgrown, htable⟩ :=
      @growTable_spends lib _ lib.sizeofSite st.model.sites st.err
    have hfailed := @growTable_failed lib _ lib.sizeofSite st.model.sites st.err
    generalize growTable lib lib.sizeofSite st.model.sites st.err = grown
      at hspends hgrown htable hfailed
    obtain ⟨success, sites, err⟩ := grown
    cases success with
    | false =>
      -- the table cannot grow, and nothing is copied
      have hrefused : ¬ Granted (st.model.sites.demand lib lib.sizeofSite) st.err.allocations :=
        fun hgranted => by simpa using hgrown.2 hgranted
      obtain ⟨err', heq, herror⟩ := hfailed rfl
      obtain ⟨hsites, rfl⟩ : sites = st.model.sites ∧ err = err' := by simpa using heq
      dsimp only
      refine ⟨⟨⟨fun hok => ?_, fun hok => ?_⟩, fun hok => ?_⟩, fun hok => ?_, fun _ => ?_⟩
      · exact absurd hok (by simp [herror])
      · exact absurd (granted_demandSum.1 hok.2).1 hrefused
      · exact absurd hok (by simp [herror])
      · exact absurd hok (by simp [herror])
      · rw [if_pos hrefused, hsites]
    | true =>
      have hgranted := hgrown.1 rfl
      have hsites : sites = _ := htable hgranted
      have hfile := dupText_spends fileName err
      have hfunction := dupText_spends functionName (dupText fileName err).2
      refine ⟨hspends.and_then (hfile.and_then hfunction), fun hok => ?_, fun hstart => ?_⟩
      · obtain ⟨hmid, hfunctionCopy⟩ := dupText_ok hok
        obtain ⟨-, hfileCopy⟩ := dupText_ok hmid
        dsimp only
        rw [hsites, hfileCopy, hfunctionCopy]
        rfl
      · -- the copies take the outcomes behind those of the growth
        have hleft := hspends.left (hspends.ok.2 ⟨hstart, hgranted⟩)
        obtain ⟨hfileCopy, hrest⟩ := dupText_outcome fileName err
        obtain ⟨hfunctionCopy, -⟩ := dupText_outcome functionName (dupText fileName err).2
        rw [if_neg (not_not.2 hgranted), Table.push_items, hsites, hfileCopy, hfunctionCopy, hrest]
        dsimp only at hleft ⊢
        rw [hleft]
        simp [List.getD_eq_getElem?_getD]

/-- The demand of `p101_report_add_finding_internal` for a finding with these texts. -/
def addDemand (texts : List (Option Text)) (model : ReportModel lib) : Option Nat :=
  demandSum (model.findings.demand lib lib.sizeofFinding) (textsDemand texts)

theorem addFindingInternal_spends (finding : Finding) (st : State lib) :
    Spends (addDemand [finding.ptr, finding.resourceClass, finding.resourceId] st.model) st.err
      (addFindingInternal finding st).err := by
  obtain ⟨hgrowth, hgrown, -⟩ :=
    @growTable_spends lib _ lib.sizeofFinding st.model.findings st.err
  rw [addFindingInternal, addDemand]
  generalize growTable lib lib.sizeofFinding st.model.findings st.err = grown
    at hgrowth hgrown ⊢
  obtain ⟨success, findings, err⟩ := grown
  cases success with
  | false => exact hgrowth.refused (fun hgranted => by simpa using hgrown.2 hgranted) _
  | true =>
    have hspends := hgrowth.and_then (dupFields_spends
      [finding.ptr, finding.resourceClass, finding.resourceId] err)
    dsimp only
    split <;> exact hspends

/-- The demand of the loop body of `p101_report_finalize_generic`. -/
def findingDemand (source : LifecycleFinding) (model : ReportModel lib) : Option Nat :=
  let sites := internedSites lib source.fileName source.functionName source.lineNumber model.sites
  let own := internDemand lib source.fileName source.functionName source.lineNumber model.sites
  let previous :=
    if source.previousSequence ≠ 0 then
      internDemand lib source.previousFileName source.previousFunctionName
        source.previousLineNumber sites
    else some 0
  let ptr := (findLifecycleEvent model.resources.items source).bind (·.ptr)
  demandSum (demandSum own previous)
    (addDemand [ptr, source.resourceClass, source.resourceId] model)

/-- The site table behind the loop body, when it succeeds. -/
def findingSites (source : LifecycleFinding) (model : ReportModel lib) : Table SourceSite :=
  let sites := internedSites lib source.fileName source.functionName source.lineNumber model.sites
  if source.previousSequence ≠ 0 then
    internedSites lib source.previousFileName source.previousFunctionName
      source.previousLineNumber sites
  else sites

/-- **The demand of a finding.** -/
theorem finalizeFinding_spends (source : LifecycleFinding) (st : State lib) :
    Spends (findingDemand source st.model) st.err (finalizeFinding source st).err ∧
      ((finalizeFinding source st).err.error = false →
        (finalizeFinding source st).model.sites = findingSites source st.model) := by
  have hadd (finding : Finding) (st' : State lib)
      (hfindings : st'.model.findings = st.model.findings)
      (hptr : finding.ptr =
        (findLifecycleEvent st.model.resources.items source).bind (·.ptr))
      (hclass : finding.resourceClass = source.resourceClass)
      (hid : finding.resourceId = source.resourceId) :
      Spends (addDemand [(findLifecycleEvent st.model.resources.items source).bind (·.ptr),
        source.resourceClass, source.resourceId] st.model) st'.err
        (addFindingInternal finding st').err := by
    have hspends := addFindingInternal_spends finding st'
    rw [hptr, hclass, hid] at hspends
    rwa [addDemand, hfindings] at hspends
  -- interning leaves the records and the findings alone
  have hframe := internSite_frame source.fileName source.functionName source.lineNumber st
  obtain ⟨hown, hownSites, -⟩ :=
    internSite_spends source.fileName source.functionName source.lineNumber st
  rw [finalizeFinding, findingDemand, findingSites]
  generalize internSite source.fileName source.functionName source.lineNumber st = interned
    at hframe hown hownSites ⊢
  obtain ⟨site, st₁⟩ := interned
  dsimp only at hframe hown hownSites ⊢
  have hresources : st₁.model.resources = st.model.resources := by rw [hframe]
  have hfindings : st₁.model.findings = st.model.findings := by rw [hframe]
  rw [hresources]
  by_cases hprevious : source.previousSequence ≠ 0
  · rw [if_pos hprevious, if_pos hprevious, if_pos hprevious]
    have hframe' := internSite_frame source.previousFileName source.previousFunctionName
      source.previousLineNumber st₁
    obtain ⟨hthen, hthenSites, -⟩ := internSite_spends source.previousFileName
      source.previousFunctionName source.previousLineNumber st₁
    generalize internSite source.previousFileName source.previousFunctionName
      source.previousLineNumber st₁ = interned at hframe' hthen hthenSites ⊢
    obtain ⟨previousSite, st₂⟩ := interned
    dsimp only at hframe' hthen hthenSites ⊢
    have hfindings' : st₂.model.findings = st.model.findings := by
      rw [hframe', hfindings]
    rw [addFindingInternal_siteTable]
    have hboth := hown.trans hthen.stops fun hok => hownSites hok ▸ hthen
    have hlast (finding : Finding) (hptr hclass hid) :=
      hadd finding st₂ hfindings' hptr hclass hid
    have hok {finding : Finding} (hptr hclass hid)
        (hok : (addFindingInternal finding st₂).err.error = false) :=
      ((hlast finding hptr hclass hid).ok.1 hok).1
    constructor
    · refine hboth.and_then (hlast _ ?_ ?_ ?_) <;>
        cases findLifecycleEvent st.model.resources.items source <;> rfl
    · intro hstored
      have hmid : st₂.err.error = false := by
        refine hok ?_ ?_ ?_ hstored <;>
          cases findLifecycleEvent st.model.resources.items source <;> rfl
      rw [hthenSites hmid, hownSites (hthen.ok.1 hmid).1]
  · rw [if_neg hprevious, if_neg hprevious, if_neg hprevious]
    rw [addFindingInternal_siteTable, demandSum_zero]
    have hlast (finding : Finding) (hptr hclass hid) :=
      hadd finding st₁ hfindings hptr hclass hid
    have hok {finding : Finding} (hptr hclass hid)
        (hok : (addFindingInternal finding st₁).err.error = false) :=
      ((hlast finding hptr hclass hid).ok.1 hok).1
    constructor
    · refine hown.and_then (hlast _ ?_ ?_ ?_) <;>
        cases findLifecycleEvent st.model.resources.items source <;> rfl
    · intro hstored
      refine hownSites (hok ?_ ?_ ?_ hstored) <;>
        cases findLifecycleEvent st.model.resources.items source <;> rfl

end P101Report
