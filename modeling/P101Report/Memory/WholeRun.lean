import P101Report.Memory.Reading
import P101Report.Reading.Preparation

/-!
# The memory of a whole run

A run on memory computes what the run of the model computes, frees each text once and reads none
that has been freed. It frees every text of its tables. What is left is at most one call: the reader
of the call log zeroes an accepted record also when the table had no room for it, so the five texts
of that record have no owner any more (`Lost`).
-/

set_option autoImplicit false

namespace P101Report

open Ownership

variable {lib : ToolEventLib} {α : Type} {own lost : Multiset α} {m m' : Memory lib α}
  {st st' : State lib}

/-! ## Lost texts -/

/-- What has no owner any more: the five texts of each call record that is counted and not stored.
There is one at most, since it has raised an error. -/
structure Lost (lost : Multiset α) (st : State lib) : Prop where
  count : lost.card + 5 * st.model.calls.items.length = 5 * st.model.callRecords
  error : lost ≠ 0 → st.err.error = true
  once : lost.card ≤ 5

/-- The memory stands for the state, and every live block is owned by a table or is lost. -/
def Accounted (m : Memory lib α) (st : State lib) : Prop :=
  ∃ lost, Represents lost m st ∧ Lost lost st

/-- Nothing is lost before an error has been raised. -/
theorem Lost.eq_zero (h : Lost lost st) (hok : st.err.error = false) : lost = 0 := by
  by_contra hlost
  rw [h.error hlost] at hok
  cases hok

theorem Lost.of_eq (h : Lost lost st) (hcounter : st'.model.callRecords = st.model.callRecords)
    (hcalls : st'.model.calls = st.model.calls)
    (hsticky : st'.err.error = false → st.err.error = false) : Lost lost st' where
  count := by
    rw [hcounter, hcalls]
    exact h.count
  error hlost := by
    by_contra hok
    rw [Bool.not_eq_true] at hok
    exact hlost (h.eq_zero (hsticky hok))
  once := h.once

/-- A state without an error in which every call record is stored has lost nothing. -/
theorem Lost.none (hcalls : st.model.calls.items.length = st.model.callRecords) :
    Lost (0 : Multiset α) st where
  count := by
    rw [hcalls, Multiset.card_zero, zero_add]
  error hlost := absurd rfl hlost
  once := by
    rw [Multiset.card_zero]
    exact Nat.zero_le 5

theorem Accounted.state (h : Accounted m st) : m.state = st := by
  obtain ⟨lost, hrep, -⟩ := h
  exact hrep.state

theorem Accounted.err (h : Accounted m st) : m.rest.err = st.err := by
  rw [← h.state]
  rfl

theorem Accounted.runModel (h : Accounted m st) : m.rest.model.runModel = st.model.runModel := by
  rw [← h.state]
  rfl

/-- A step that keeps the texts and the call records keeps the account. -/
theorem Accounted.step {f : State lib → State lib} (hf : KeepsTexts f)
    (hcounter : ∀ st, (f st).model.callRecords = st.model.callRecords) (hsticky : Sticky f)
    (h : Accounted m st) : Accounted (m.step f) (f st) := by
  obtain ⟨lost, hrep, hlost⟩ := h
  have hcalls : (f st).model.calls = st.model.calls := congrArg (fun texts => texts.2.2.1) (hf st)
  exact ⟨lost, hrep.step hf, hlost.of_eq (hcounter st) hcalls (hsticky st)⟩

theorem Accounted.raiseIf (raised : Bool) (h : Accounted m st) :
    Accounted (m.step (State.raiseIf raised)) (st.raiseIf raised) :=
  h.step (fun _ => rfl) (fun _ => rfl) (raiseIf_sticky raised)

/-! ## The readers -/

section Readers

variable [DecidableEq α]

theorem Accounted.readResourceLine (h : Accounted m st) (text : List UInt8) :
    Accounted (m.readResourceLine text) (readResourceLine text st) := by
  obtain ⟨lost, hrep, hlost⟩ := h
  refine ⟨lost, readResourceLine_represents hrep text, ?_⟩
  obtain ⟨hframe, -⟩ := parseResourceLine_frame text (st.model.resourceRecords + 1) st
  have hsticky := readResourceLine_sticky text st
  rw [P101Report.readResourceLine] at hsticky ⊢
  generalize parseResourceLine text (st.model.resourceRecords + 1) st = parsed at hframe hsticky ⊢
  obtain ⟨status, event, st'⟩ := parsed
  dsimp only at hframe hsticky ⊢
  obtain ⟨-, hcounts, hcalls⟩ := countResource_counts status event st'
  have hcounter := congrArg Counts.records hcounts
  refine hlost.of_eq (hcounter.trans ?_) (hcalls.trans ?_) hsticky
  · rw [hframe]
    rfl
  · rw [hframe]

omit [DecidableEq α] in
/-- An accepted call record has five texts. -/
theorem card_pointers_of_read {event : CallCell α} {record : ToolEventRecord} {sequence : Nat}
    {content : α → Text} (hread : event.read content = .ofRecord record sequence) :
    (blocks event.pointers).card = 5 := by
  have hfunction := congrArg CallEvent.functionName hread
  have hcall := congrArg CallEvent.callName hread
  have harguments := congrArg CallEvent.arguments hread
  have hresult := congrArg CallEvent.result hread
  have hfile := congrArg CallEvent.fileName hread
  obtain ⟨function, hfunction, -⟩ := Option.map_eq_some_iff.1 hfunction
  obtain ⟨call, hcall, -⟩ := Option.map_eq_some_iff.1 hcall
  obtain ⟨arguments, harguments, -⟩ := Option.map_eq_some_iff.1 harguments
  obtain ⟨result, hresult, -⟩ := Option.map_eq_some_iff.1 hresult
  obtain ⟨file, hfile, -⟩ := Option.map_eq_some_iff.1 hfile
  simp [CallCell.pointers, hfunction, hcall, harguments, hresult, hfile]

omit [DecidableEq α] in
/-- **An accepted call record** is stored with its texts, or they are lost. -/
theorem Accounted.storeCall {event : CallCell α} {record : ToolEventRecord} {sequence : Nat}
    (h : Parsed callLayout lost m event (.ofRecord record sequence) st) (hlost : Lost lost st)
    (hok : st.err.error = false) :
    Accounted (m.countCall .ok event).2 (countCall .ok (.ofRecord record sequence) st) := by
  obtain rfl := hlost.eq_zero hok
  have hcard := card_pointers_of_read h.read
  have hcounted := h.represents.step (f := fun st : State lib => { st with
    model := { st.model with callRecords := st.model.callRecords + 1 } }) fun _ => rfl
  have hbefore := hlost.count
  have hcounter : (countCall .ok (.ofRecord record sequence) st).model.callRecords =
      st.model.callRecords + 1 :=
    congrArg Counts.records (countCall_counts .ok (.ofRecord record sequence) st).1
  rw [Multiset.card_zero, zero_add] at hbefore
  rcases addCall_represents hcounted h.read with ⟨hlength, hstored⟩ | ⟨hlength, herror, hkept⟩
  · -- the table owns the texts
    have hcalls : (countCall .ok (.ofRecord record sequence) st).model.calls.items.length =
        st.model.calls.items.length + 1 := hlength
    exact ⟨0, hstored, .none (by omega)⟩
  · -- no room: the five texts are all that is lost, since nothing was before
    have hcalls : (countCall .ok (.ofRecord record sequence) st).model.calls.items.length =
        st.model.calls.items.length := hlength
    refine ⟨blocks event.pointers + 0, hkept, ?_, fun _ => herror, ?_⟩
    · rw [add_zero, hcard]
      omega
    · rw [add_zero, hcard]

/-- Any other line stores nothing, and what the parser has copied is freed. -/
theorem Accounted.skipCall {status : LineStatus} (hstatus : status ≠ .ok) {event : CallCell α}
    {value : CallEvent} (h : Parsed callLayout lost m event value st) (hlost : Lost lost st) :
    Accounted ((m.countCall status event).2.freeAll (m.countCall status event).1.pointers)
      (countCall status value st) := by
  cases status with
  | ok => exact absurd rfl hstatus
  | other =>
    exact ⟨lost, (h.represents.step (f := countCall .other {}) fun _ => rfl).freeAll,
      hlost.of_eq rfl rfl id⟩
  | complete =>
    exact ⟨lost, (h.represents.step (f := countCall .complete {}) fun _ => rfl).freeAll,
      hlost.of_eq rfl rfl id⟩
  | malformed =>
    exact ⟨lost, (h.represents.step (f := countCall .malformed {}) fun _ => rfl).freeAll,
      hlost.of_eq rfl rfl id⟩
  | badVersion =>
    exact ⟨lost, (h.represents.step (f := countCall .badVersion {}) fun _ => rfl).freeAll,
      hlost.of_eq rfl rfl id⟩

theorem Accounted.readCallLine (h : Accounted m st) (text : List UInt8) :
    Accounted (m.readCallLine text) (readCallLine text st) := by
  obtain ⟨lost, hrep, hlost⟩ := h
  have hcount : m.rest.model.callRecords = st.model.callRecords := by
    rw [← hrep.state]
    rfl
  rcases hparse : m.parseCallLine text (m.rest.model.callRecords + 1) with ⟨status, event, m'⟩
  obtain ⟨value, st', hstate, hparsed⟩ := parseCallLine_represents hrep hparse
  obtain ⟨hframe, hsticky, hevent⟩ := parseCallLine_ok text (m.rest.model.callRecords + 1) st
  rw [hstate] at hframe hsticky hevent
  rw [Memory.readCallLine, hparse, P101Report.readCallLine, ← hcount, hstate]
  dsimp only at hframe hsticky hevent ⊢
  have hlost' : Lost lost st' := by
    refine hlost.of_eq ?_ ?_ hsticky
    · rw [hframe]
    · rw [hframe]
  by_cases hok : status = .ok
  · -- the event is zeroed, so nothing is freed behind the record
    subst hok
    obtain ⟨herror, rfl⟩ := hevent rfl
    exact Accounted.storeCall hparsed hlost' herror
  · exact Accounted.skipCall hok hparsed hlost'

/-- **The resource log.** -/
theorem Accounted.readResourcesLoop (h : Accounted m st) (reads : List LineRead) :
    Accounted (m.readResourcesLoop reads) (readResourcesLoop reads st) := by
  induction reads generalizing m st with
  | nil => exact h
  | cons read rest ih =>
    rw [Memory.readResourcesLoop, P101Report.readResourcesLoop, h.err]
    split
    · exact h
    · have hraised := h.raiseIf read.raised
      dsimp only
      cases read.status with
      | error => exact hraised
      | malformed =>
        exact ih (hraised.step (f := countResource .malformed {}) (fun _ => rfl) (fun _ => rfl)
          (countResource_sticky _ _))
      | line text => exact ih (hraised.readResourceLine text)

/-- **The call log.** -/
theorem Accounted.readCallsLoop (h : Accounted m st) (reads : List LineRead) :
    Accounted (m.readCallsLoop reads) (readCallsLoop reads st) := by
  induction reads generalizing m st with
  | nil => exact h
  | cons read rest ih =>
    rw [Memory.readCallsLoop, P101Report.readCallsLoop, h.err]
    split
    · exact h
    · have hraised := h.raiseIf read.raised
      dsimp only
      cases read.status with
      | error => exact hraised
      | malformed =>
        exact ih (hraised.step (f := countCall .malformed {}) (fun _ => rfl) (fun _ => rfl)
          (countCall_sticky _ _))
      | line text => exact ih (hraised.readCallLine text)

theorem Accounted.readResources (h : Accounted m st) (path : Option Text) (log : LogFile) :
    Accounted (m.readResources path log) (readResources path log st) :=
  ((h.raiseIf _).readResourcesLoop log.reads).raiseIf _

theorem Accounted.readCalls (h : Accounted m st) (path : Option Text) (log : LogFile) :
    Accounted (m.readCalls path log) (readCalls path log st) :=
  ((h.raiseIf _).readCallsLoop log.reads).raiseIf _

/-- **The end of both logs** stores no call record. -/
theorem Accounted.finalizeLeaks (h : Represents 0 m st)
    (hcalls : st.model.calls.items.length = st.model.callRecords) :
    Accounted m.finalizeLeaks (finalizeLeaks st) := by
  obtain ⟨-, hrecords, -⟩ := finalizeLeaks_onlyInterns st
  have hcounter := congrArg Records.callRecords hrecords
  have hsame := congrArg (fun records => records.calls.items.length) hrecords
  exact ⟨0, (finalizeLeaks_represents h).represents,
    .none (hsame.trans (hcalls.trans hcounter.symm))⟩

end Readers

/-! ## The run -/

section Run

variable [DecidableEq α]

omit [DecidableEq α] in
theorem Accounted.createModel (run : RunModelLib lib) (input : RunInput lib)
    (allocator : Allocator α) :
    Accounted (Memory.createModel run input allocator) (createModel run input) :=
  ⟨0, ⟨Heap.owns_empty allocator _, rfl, fun _ hfinding => absurd hfinding List.not_mem_nil⟩,
    .none rfl⟩

/-- **Up to the output step** the run on memory goes the way of the run. -/
theorem prepareReport_accounted (run : RunModelLib lib) (args : RunArguments)
    (input : RunInput lib) (allocator : Allocator α) :
    (∃ m st, Memory.prepareReport run args input allocator = .error m ∧
        prepareReport run args input = .error st ∧ Accounted m st) ∨
      ∃ m st, Memory.prepareReport run args input allocator = .ok m ∧
        prepareReport run args input = .ok st ∧ Accounted m st := by
  have hcreated := Accounted.createModel run input allocator
  have hread := (hcreated.readResources args.resourceLog input.resourceLog).readCalls args.callLog
    input.callLog
  dsimp only [Memory.prepareReport, prepareReport]
  rw [hcreated.runModel, hread.err, hread.runModel]
  by_cases hnone : (createModel run input).model.runModel.isNone = true
  · rw [if_pos hnone, if_pos hnone]
    exact Or.inl ⟨_, _, rfl, rfl, hcreated⟩
  rw [if_neg hnone, if_neg hnone]
  generalize readCalls args.callLog input.callLog
    (readResources args.resourceLog input.resourceLog (createModel run input)) = st at hread ⊢
  by_cases herror : st.err.error = true
  · rw [if_pos herror, if_pos herror]
    exact Or.inl ⟨_, _, rfl, rfl, hread⟩
  rw [if_neg herror, if_neg herror]
  cases hrun : st.model.runModel with
  | none => exact Or.inl ⟨_, _, rfl, rfl, hread⟩
  | some runModel =>
    -- no error so far, so nothing has been lost
    obtain ⟨lost, hrep, hlost⟩ := hread
    obtain rfl := hlost.eq_zero (by simpa using herror)
    have hcount := hlost.count
    rw [Multiset.card_zero, zero_add] at hcount
    have hcalls : st.model.calls.items.length = st.model.callRecords := by omega
    have hfinished := hrep.step (f := fun after : State lib =>
      { model := { after.model with
          runModel := some (run.modelFinish runModel st.err.allocations).value.1 }
        err := after.err.after (run.modelFinish runModel st.err.allocations) }) fun _ => rfl
    have hfinalized := Accounted.finalizeLeaks hfinished hcalls
    dsimp only
    by_cases hfailed : (run.modelFinish runModel st.err.allocations).value.2 = true
    · rw [if_pos hfailed, if_pos hfailed]
      exact Or.inl ⟨_, _, rfl, rfl, 0, hfinished, .none hcalls⟩
    rw [if_neg hfailed, if_neg hfailed, hfinalized.err]
    split
    · exact Or.inl ⟨_, _, rfl, rfl, hfinalized⟩
    · exact Or.inr ⟨_, _, rfl, rfl, hfinalized⟩

omit [DecidableEq α] in
/-- The texts of the model are what its tables own. -/
theorem Memory.blocks_pointers (m : Memory lib α) : blocks m.pointers = m.owned := by
  have hallocs : m.allocs.items.map AllocCell.ptr =
      m.allocs.items.flatMap allocLayout.pointers := List.map_eq_flatMap
  have hfreed : m.freedAllocs.items.map FreedCell.ptr =
      m.freedAllocs.items.flatMap freedLayout.pointers := List.map_eq_flatMap
  simp only [Memory.pointers, hallocs, hfreed, blocks_append]
  rfl

/-- **The model is freed**, and what is left is what has been lost. -/
theorem Represents.freeModel (h : Represents lost m st) : m.freeModel.Owns lost := by
  have howns := h.owns
  rw [← Memory.blocks_pointers] at howns
  exact howns.freeAll

/-- A run on memory computes what the run does, and leaves what is lost. -/
theorem reportRun_accounted (run : RunModelLib lib) (args : RunArguments) (input : RunInput lib)
    (allocator : Allocator α) :
    (Memory.reportRun run args input allocator).result = reportRun run args input ∧
      ∃ lost, (Memory.reportRun run args input allocator).heap.Owns lost ∧
        Lost lost (reportRun run args input).state ∧
        (lost ≠ 0 → (reportRun run args input).status = exitTrouble) := by
  rw [Memory.reportRun, reportRun]
  obtain ⟨m, st, hm, hst, haccount⟩ | ⟨m, st, hm, hst, haccount⟩ :=
    prepareReport_accounted run args input allocator
  · rw [hm, hst]
    obtain ⟨lost, hrep, hlost⟩ := haccount
    obtain rfl := hrep.state
    exact ⟨rfl, lost, hrep.freeModel, hlost, fun _ => rfl⟩
  · rw [hm, hst]
    obtain ⟨lost, hrep, hlost⟩ := haccount.raiseIf (outputRaises args input)
    -- the printers read what the tables own
    have htouch : (m.step (State.raiseIf (outputRaises args input))).touch m.pointers =
        m.step (State.raiseIf (outputRaises args input)) := by
      apply hrep.touch
      intro a ha
      rw [Memory.blocks_pointers] at ha
      exact Or.inl ha
    dsimp only
    rw [htouch, hrep.err, hrep.state]
    split
    · exact ⟨rfl, lost, hrep.freeModel, hlost, fun _ => rfl⟩
    · rename_i hok
      exact ⟨rfl, lost, hrep.freeModel, hlost, fun hne => absurd (hlost.error hne) hok⟩

/-- **Memory safety of a run.** Wherever the allocator puts its blocks, and whichever allocations
fail, the run on memory ends as the run of the model; it frees no block twice, and reads none that
has been freed. -/
theorem reportRun_memorySafe (run : RunModelLib lib) (args : RunArguments) (input : RunInput lib)
    (allocator : Allocator α) :
    let memory := Memory.reportRun run args input allocator
    memory.result = reportRun run args input ∧ memory.heap.misused = false := by
  intro memory
  obtain ⟨hresult, lost, howns, -⟩ := reportRun_accounted run args input allocator
  exact ⟨hresult, howns.sound⟩

/-- **What a run leaks.** When the model has been freed, the live blocks are the five texts of each
call record that was counted and not stored: none, or those of one record of a run that ends in
trouble. -/
theorem reportRun_leaks (run : RunModelLib lib) (args : RunArguments) (input : RunInput lib)
    (allocator : Allocator α) :
    let memory := Memory.reportRun run args input allocator
    let model := memory.result.state.model
    memory.heap.live.card = 5 * (model.callRecords - model.calls.items.length) ∧
      (memory.heap.live = ∅ ∨
        memory.heap.live.card = 5 ∧ memory.result.status = exitTrouble) := by
  intro memory model
  obtain ⟨hresult, lost, howns, hlost, hstatus⟩ := reportRun_accounted run args input allocator
  have hmodel : model = (reportRun run args input).state.model :=
    congrArg (fun result => result.state.model) hresult
  have hcard : memory.heap.live.card = lost.card := congrArg Multiset.card howns.live
  have hcount := hlost.count
  have honce := hlost.once
  rw [← hmodel] at hcount
  refine ⟨by omega, ?_⟩
  by_cases hzero : lost = 0
  · left
    rw [← Finset.card_eq_zero, hcard, hzero, Multiset.card_zero]
  · right
    have hpositive := Multiset.card_pos.2 hzero
    refine ⟨by omega, ?_⟩
    exact (congrArg RunResult.status hresult).trans (hstatus hzero)

/-- The eleventh allocation of this run is that of the table of calls. -/
example :
    (Memory.reportRun fixtureRun fixtureArguments
      { leakInput with allocations := List.replicate 10 false ++ [true] }
      Allocator.above).heap.live.card = 5 := by
  decide

end Run

end P101Report
