import P101Report.Library.Runs
import P101Report.Reading.Lines

/-!
# Reading a log is a run over its lines

Both readers are one loop over a log (`readLoop`). Errors are sticky, so a loop that ends without an
error has read every line of the log up to a failed read, and is the fold of what it does with one
line (`readLoop_ok`). What a step keeps then holds after the log and before each of its lines.
-/

set_option autoImplicit false

namespace P101Report

open Runs

variable {lib : ToolEventLib}

/-! ## The loop of a reader -/

/-- What a reader does with one read that has not failed. -/
def readStep (onMalformed : State lib → State lib) (onLine : List UInt8 → State lib → State lib)
    (st : State lib) (read : LineRead) : State lib :=
  let st := st.raiseIf read.raised
  match read.status with
  | .error => st
  | .malformed => onMalformed st
  | .line text => onLine text st

/-- The loop of both readers. -/
def readLoop (onMalformed : State lib → State lib) (onLine : List UInt8 → State lib → State lib) :
    List LineRead → State lib → State lib
  | [], st => st
  | read :: rest, st =>
    if st.err.error then st
    else
      match read.status with
      | .error => readStep onMalformed onLine st read
      | _ => readLoop onMalformed onLine rest (readStep onMalformed onLine st read)

/-- The lines of a log: its reads up to one that fails. -/
def readLines (reads : List LineRead) : List LineRead :=
  reads.takeWhile fun read => read.status ≠ .error

/-- The loop of the resource reader, as an instance. -/
theorem readResourcesLoop_eq (reads : List LineRead) (st : State lib) :
    readResourcesLoop reads st =
      readLoop (countResource .malformed {}) readResourceLine reads st := by
  induction reads generalizing st with
  | nil => rfl
  | cons read rest ih =>
    rw [readResourcesLoop, readLoop]
    split
    · rfl
    · dsimp only
      cases hstatus : read.status with
      | error => simp only [readStep, hstatus]
      | malformed => simp only [readStep, hstatus, ih]
      | line text => simp only [readStep, hstatus, ih]

/-- The loop of the call reader, as an instance. -/
theorem readCallsLoop_eq (reads : List LineRead) (st : State lib) :
    readCallsLoop reads st = readLoop (countCall .malformed {}) readCallLine reads st := by
  induction reads generalizing st with
  | nil => rfl
  | cons read rest ih =>
    rw [readCallsLoop, readLoop]
    split
    · rfl
    · dsimp only
      cases hstatus : read.status with
      | error => simp only [readStep, hstatus]
      | malformed => simp only [readStep, hstatus, ih]
      | line text => simp only [readStep, hstatus, ih]

/-- `f` ends without an error only when it began without one. -/
def Sticky (f : State lib → State lib) : Prop :=
  ∀ st, (f st).err.error = false → st.err.error = false

theorem raiseIf_sticky (raised : Bool) : Sticky fun st : State lib => st.raiseIf raised := by
  intro st h
  simp only [State.raiseIf, Bool.or_eq_false_iff] at h
  exact h.1

/-- Without an error nothing was raised, and the state is the same. -/
theorem raiseIf_ok {raised : Bool} {st : State lib} (h : (st.raiseIf raised).err.error = false) :
    raised = false ∧ st.raiseIf raised = st := by
  simp only [State.raiseIf, Bool.or_eq_false_iff] at h
  obtain ⟨herror, rfl⟩ := h
  refine ⟨rfl, ?_⟩
  simp [State.raiseIf]

section Loop

variable {onMalformed : State lib → State lib} {onLine : List UInt8 → State lib → State lib}

/-- A line clears no error when what it calls clears none. -/
theorem readStep_sticky (hmalformed : Sticky onMalformed) (hline : ∀ text, Sticky (onLine text))
    (read : LineRead) : Sticky fun st => readStep onMalformed onLine st read := by
  intro st h
  dsimp only [readStep] at h
  apply raiseIf_sticky read.raised st
  cases hstatus : read.status with
  | error => simpa only [hstatus] using h
  | malformed =>
    simp only [hstatus] at h
    exact hmalformed _ h
  | line text =>
    simp only [hstatus] at h
    exact hline text _ h

/-- A run over steps without errors has no error before or after any of them. -/
theorem everyStep_of_ok {α : Type} {step : State lib → α → State lib}
    (hstep : ∀ a, Sticky fun st => step st a) {log : List α} {st : State lib}
    (h : (log.foldl step st).err.error = false) :
    st.err.error = false ∧
      EveryStep step (fun st a => (step st a).err.error = false) st log := by
  induction log generalizing st with
  | nil => exact ⟨h, trivial⟩
  | cons a rest ih =>
    obtain ⟨herror, hrest⟩ := ih h
    exact ⟨hstep a st herror, herror, hrest⟩

/-- **Reading without an error.** A loop that ends without an error began without one and has done
its step for every line of the log. -/
theorem readLoop_ok {reads : List LineRead} {st : State lib}
    (h : (readLoop onMalformed onLine reads st).err.error = false) :
    st.err.error = false ∧
      readLoop onMalformed onLine reads st =
        (readLines reads).foldl (readStep onMalformed onLine) st := by
  induction reads generalizing st with
  | nil => exact ⟨h, rfl⟩
  | cons read rest ih =>
    rw [readLoop] at h ⊢
    by_cases herror : st.err.error = true
    · rw [if_pos herror, herror] at h
      cases h
    · rw [if_neg herror] at h ⊢
      refine ⟨by simpa using herror, ?_⟩
      cases hstatus : read.status with
      | error =>
        -- the loop stops here; nothing was raised, so nothing has changed
        simp only [hstatus, readStep] at h ⊢
        simp [readLines, hstatus, (raiseIf_ok h).2]
      | malformed =>
        simp only [hstatus] at h ⊢
        simpa [readLines, hstatus] using (ih h).2
      | line text =>
        simp only [hstatus] at h ⊢
        simpa [readLines, hstatus] using (ih h).2

end Loop

/-! ## Errors -/

theorem ingestResource_sticky (event : ResourceEvent) :
    Sticky fun st : State lib => ingestResource st event :=
  fun st h => (ingestResource_tables event st h).1

theorem countResource_sticky (status : LineStatus) (event : ResourceEvent) :
    Sticky (countResource status event : State lib → State lib) := by
  intro st h
  cases status with
  | ok =>
    rw [countResource] at h
    exact ingestResource_sticky event
      { st with model := { st.model with resourceRecords := st.model.resourceRecords + 1 } } h
  | _ => exact h

theorem readResourceLine_sticky (text : List UInt8) :
    Sticky (readResourceLine text : State lib → State lib) := by
  intro st h
  obtain ⟨-, hparse⟩ := parseResourceLine_frame text (st.model.resourceRecords + 1) st
  exact hparse (countResource_sticky _ _ _ h)

theorem addCall_ok (event : CallEvent) {st : State lib} (h : (addCall event st).err.error = false) :
    st.err.error = false ∧ (addCall event st).model =
      { st.model with calls := (addCall event st).model.calls } ∧
      (addCall event st).model.calls.items = st.model.calls.items ++ [event] := by
  rw [addCall] at h ⊢
  obtain ⟨table, err, hitems, ⟨hgrown, herror⟩ | ⟨hgrown, hstart⟩⟩ :=
    @growTable_cases lib _ lib.sizeofCallEvent st.model.calls st.err
  · rw [hgrown] at h
    exact absurd h (by simp [herror])
  · rw [hgrown] at h ⊢
    exact ⟨hstart h, rfl, by simp [hitems]⟩

theorem countCall_sticky (status : LineStatus) (event : CallEvent) :
    Sticky (countCall status event : State lib → State lib) := by
  intro st h
  cases status with
  | ok =>
    rw [countCall] at h
    have hstep := (addCall_ok event h).1
    exact hstep
  | _ => exact h

theorem readCallLine_sticky (text : List UInt8) :
    Sticky (readCallLine text : State lib → State lib) := by
  intro st h
  obtain ⟨-, hparse, -⟩ := parseCallLine_ok text (st.model.callRecords + 1) st
  exact hparse (countCall_sticky _ _ _ h)

/-! ## The two readers -/

/-- What `p101_report_read_resources` does with one line. -/
def resourceStep (st : State lib) (read : LineRead) : State lib :=
  readStep (countResource .malformed {}) readResourceLine st read

/-- What `p101_report_read_calls` does with one line. -/
def callStep (st : State lib) (read : LineRead) : State lib :=
  readStep (countCall .malformed {}) readCallLine st read

theorem resourceStep_sticky (read : LineRead) :
    Sticky fun st : State lib => resourceStep st read :=
  readStep_sticky (countResource_sticky _ _) readResourceLine_sticky read

theorem callStep_sticky (read : LineRead) : Sticky fun st : State lib => callStep st read :=
  readStep_sticky (countCall_sticky _ _) readCallLine_sticky read

/-- A resource log read without an error. -/
theorem readResources_ok {path : Option Text} {log : LogFile} {st : State lib}
    (h : (readResources path log st).err.error = false) :
    st.err.error = false ∧
      readResources path log st = (readLines log.reads).foldl resourceStep st := by
  rw [readResources, closeIfOwned] at h ⊢
  obtain ⟨-, hclose⟩ := raiseIf_ok h
  rw [hclose] at h ⊢
  rw [readResourcesLoop_eq] at h ⊢
  obtain ⟨hopen, hloop⟩ := readLoop_ok h
  rw [openInput] at hopen hloop
  obtain ⟨-, hstart⟩ := raiseIf_ok hopen
  rw [openInput, hloop, hstart]
  exact ⟨raiseIf_sticky _ st hopen, rfl⟩

/-- A call log read without an error. -/
theorem readCalls_ok {path : Option Text} {log : LogFile} {st : State lib}
    (h : (readCalls path log st).err.error = false) :
    st.err.error = false ∧
      readCalls path log st = (readLines log.reads).foldl callStep st := by
  rw [readCalls, closeIfOwned] at h ⊢
  obtain ⟨-, hclose⟩ := raiseIf_ok h
  rw [hclose] at h ⊢
  rw [readCallsLoop_eq] at h ⊢
  obtain ⟨hopen, hloop⟩ := readLoop_ok h
  rw [openInput] at hopen hloop
  obtain ⟨-, hstart⟩ := raiseIf_ok hopen
  rw [openInput, hloop, hstart]
  exact ⟨raiseIf_sticky _ st hopen, rfl⟩

end P101Report
