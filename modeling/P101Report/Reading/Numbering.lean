import P101Report.Reading.Readers

/-!
# Counters

Every line that a reader reads is counted by one status (`resourceStep_counts`, `callStep_counts`);
after a log the counters are the numbers of its lines of each status (`resourceRun_counts`,
`callRun_counts`).
-/

set_option autoImplicit false

namespace P101Report

open Runs

variable {lib : ToolEventLib}

/-! ## Counters -/

/-- The counters of one stream. -/
structure Counts where
  records : Nat
  skipped : Nat
  malformed : Nat
  badVersion : Nat
  deriving DecidableEq

def Records.resourceCounts (records : Records lib) : Counts :=
  ⟨records.resourceRecords, records.resourceSkipped, records.resourceMalformed,
    records.resourceBadVersion⟩

def Records.callCounts (records : Records lib) : Counts :=
  ⟨records.callRecords, records.callSkipped, records.callMalformed, records.callBadVersion⟩

/-- One more line of a status; a completion is not counted. -/
def Counts.add (counts : Counts) : LineStatus → Counts
  | .other => { counts with skipped := counts.skipped + 1 }
  | .ok => { counts with records := counts.records + 1 }
  | .complete => counts
  | .malformed => { counts with malformed := counts.malformed + 1 }
  | .badVersion => { counts with badVersion := counts.badVersion + 1 }

/-- The lines of a log, counted. -/
def Counts.addAll (counts : Counts) (statuses : List LineStatus) : Counts :=
  statuses.foldl Counts.add counts

/-- Each counter is the number of lines of its status. -/
theorem Counts.addAll_eq (counts : Counts) (statuses : List LineStatus) :
    counts.addAll statuses =
      { records := counts.records + statuses.count .ok
        skipped := counts.skipped + statuses.count .other
        malformed := counts.malformed + statuses.count .malformed
        badVersion := counts.badVersion + statuses.count .badVersion } := by
  induction statuses generalizing counts with
  | nil => rfl
  | cons status rest ih =>
    have hcons : counts.addAll (status :: rest) = (counts.add status).addAll rest := rfl
    rw [hcons, ih]
    cases status <;> simp [add, Nat.add_assoc, Nat.add_comm 1]

/-- A line has one status. -/
theorem length_eq_count (statuses : List LineStatus) :
    statuses.length = statuses.count .ok + statuses.count .other + statuses.count .malformed +
      statuses.count .badVersion + statuses.count .complete := by
  induction statuses with
  | nil => rfl
  | cons status rest ih =>
    rw [List.length_cons, ih]
    cases status <;> simp <;> omega

/-! ## The status of a line -/

/-- The status by which the reader of the resource log counts a line. -/
def resourceStatus (st : State lib) (read : LineRead) : LineStatus :=
  match read.status with
  | .line text =>
    (parseResourceLine text (st.model.resourceRecords + 1) (st.raiseIf read.raised)).1
  | _ => .malformed

/-- The status by which the reader of the call log counts a line. -/
def callStatus (st : State lib) (read : LineRead) : LineStatus :=
  match read.status with
  | .line text => (parseCallLine text (st.model.callRecords + 1) (st.raiseIf read.raised)).1
  | _ => .malformed

/-- The statuses of the lines of a log, each in the state in which it is read. -/
def statuses (status : State lib → LineRead → LineStatus)
    (step : State lib → LineRead → State lib) :
    State lib → List LineRead → List LineStatus
  | _, [] => []
  | st, read :: rest => status st read :: statuses status step (step st read) rest

@[simp] theorem statuses_length (status : State lib → LineRead → LineStatus)
    (step : State lib → LineRead → State lib) (st : State lib) (reads : List LineRead) :
    (statuses status step st reads).length = reads.length := by
  induction reads generalizing st with
  | nil => rfl
  | cons read rest ih => simp [statuses, ih]

/-- Counting a resource line of any status; an accepted record is also stored and replayed. -/
theorem countResource_counts (status : LineStatus) (event : ResourceEvent) (st : State lib) :
    (countResource status event st).model.records.resourceCounts =
        st.model.records.resourceCounts.add status ∧
      (countResource status event st).model.records.callCounts = st.model.records.callCounts ∧
      (countResource status event st).model.calls = st.model.calls := by
  cases status with
  | ok =>
    rw [countResource]
    obtain ⟨-, hrecords⟩ := ingestResource_frame
      { st with model := { st.model with resourceRecords := st.model.resourceRecords + 1 } } event
    have hresource := congrArg Records.resourceCounts hrecords
    have hcall := congrArg Records.callCounts hrecords
    have hcalls := congrArg Records.calls hrecords
    exact ⟨hresource, hcall, hcalls⟩
  | _ => exact ⟨rfl, rfl, rfl⟩

/-- **Resource lines are counted once.** -/
theorem resourceStep_counts (st : State lib) {read : LineRead} (hread : read.status ≠ .error) :
    (resourceStep st read).model.records.resourceCounts =
        st.model.records.resourceCounts.add (resourceStatus st read) ∧
      (resourceStep st read).model.records.callCounts = st.model.records.callCounts ∧
      (resourceStep st read).model.calls = st.model.calls := by
  rw [resourceStep, readStep, resourceStatus]
  cases hstatus : read.status with
  | error => exact absurd hstatus hread
  | malformed => exact countResource_counts .malformed {} (st.raiseIf read.raised)
  | line text =>
    dsimp only
    obtain ⟨hframe, -⟩ := parseResourceLine_frame text (st.model.resourceRecords + 1)
      (st.raiseIf read.raised)
    have hsame : (st.raiseIf read.raised).model = st.model := rfl
    rw [readResourceLine, hsame]
    generalize parseResourceLine text (st.model.resourceRecords + 1) (st.raiseIf read.raised) =
      parsed at hframe ⊢
    obtain ⟨status, event, st'⟩ := parsed
    -- parsing leaves the counters alone
    obtain ⟨hresource, hcall, hcalls⟩ := countResource_counts status event st'
    dsimp only at hframe ⊢
    rw [hresource, hcall, hcalls, hframe]
    exact ⟨rfl, rfl, rfl⟩

/-- Counting a call line of any status; an accepted record is also stored. -/
theorem countCall_counts (status : LineStatus) (event : CallEvent) (st : State lib) :
    (countCall status event st).model.records.callCounts =
        st.model.records.callCounts.add status ∧
      (countCall status event st).model.records.resourceCounts =
        st.model.records.resourceCounts ∧
      (countCall status event st).model.readPart.1 = st.model.sites ∧
      (countCall status event st).model.resources = st.model.resources := by
  cases status with
  | ok =>
    rw [countCall, addCall]
    split <;> exact ⟨rfl, rfl, rfl, rfl⟩
  | _ => exact ⟨rfl, rfl, rfl, rfl⟩

/-- **Call lines are counted once.** -/
theorem callStep_counts (st : State lib) {read : LineRead} (hread : read.status ≠ .error) :
    (callStep st read).model.records.callCounts =
        st.model.records.callCounts.add (callStatus st read) ∧
      (callStep st read).model.records.resourceCounts = st.model.records.resourceCounts ∧
      (callStep st read).model.sites = st.model.sites ∧
      (callStep st read).model.resources = st.model.resources := by
  rw [callStep, readStep, callStatus]
  cases hstatus : read.status with
  | error => exact absurd hstatus hread
  | malformed => exact countCall_counts .malformed {} (st.raiseIf read.raised)
  | line text =>
    dsimp only
    obtain ⟨hframe, -, -⟩ := parseCallLine_ok text (st.model.callRecords + 1)
      (st.raiseIf read.raised)
    have hsame : (st.raiseIf read.raised).model = st.model := rfl
    rw [readCallLine, hsame]
    generalize parseCallLine text (st.model.callRecords + 1) (st.raiseIf read.raised) =
      parsed at hframe ⊢
    obtain ⟨status, event, st'⟩ := parsed
    obtain ⟨hcall, hresource, hsites, hresources⟩ := countCall_counts status event st'
    dsimp only [ReportModel.readPart] at hframe hsites ⊢
    rw [hcall, hresource, hsites, hresources, hframe]
    exact ⟨rfl, rfl, rfl, rfl⟩

/-! ## The counters after a log -/

theorem resourceRun_counts (st : State lib) {reads : List LineRead}
    (hreads : ∀ read ∈ reads, read.status ≠ .error) :
    (reads.foldl resourceStep st).model.records.resourceCounts =
        st.model.records.resourceCounts.addAll (statuses resourceStatus resourceStep st reads) ∧
      (reads.foldl resourceStep st).model.records.callCounts = st.model.records.callCounts ∧
      (reads.foldl resourceStep st).model.calls = st.model.calls := by
  induction reads generalizing st with
  | nil => exact ⟨rfl, rfl, rfl⟩
  | cons read rest ih =>
    obtain ⟨hresource, hcall, hcalls⟩ := resourceStep_counts st (hreads read (by simp))
    obtain ⟨hresource', hcall', hcalls'⟩ := ih (resourceStep st read)
      (fun read hread => hreads read (by simp [hread]))
    rw [List.foldl_cons, hresource', hcall', hcalls', hresource, hcall, hcalls]
    exact ⟨rfl, rfl, rfl⟩

theorem callRun_counts (st : State lib) {reads : List LineRead}
    (hreads : ∀ read ∈ reads, read.status ≠ .error) :
    (reads.foldl callStep st).model.records.callCounts =
        st.model.records.callCounts.addAll (statuses callStatus callStep st reads) ∧
      (reads.foldl callStep st).model.records.resourceCounts =
        st.model.records.resourceCounts ∧
      (reads.foldl callStep st).model.sites = st.model.sites ∧
      (reads.foldl callStep st).model.resources = st.model.resources := by
  induction reads generalizing st with
  | nil => exact ⟨rfl, rfl, rfl, rfl⟩
  | cons read rest ih =>
    obtain ⟨hcall, hresource, hsites, hresources⟩ :=
      callStep_counts st (hreads read (by simp))
    obtain ⟨hcall', hresource', hsites', hresources'⟩ := ih (callStep st read)
      (fun read hread => hreads read (by simp [hread]))
    rw [List.foldl_cons, hcall', hresource', hsites', hresources', hcall, hresource, hsites,
      hresources]
    exact ⟨rfl, rfl, rfl, rfl⟩

/-- The lines of a log have not failed. -/
theorem readLines_not_error {reads : List LineRead} :
    ∀ read ∈ readLines reads, read.status ≠ .error := by
  intro read hread
  simpa using List.mem_takeWhile_imp hread

end P101Report
