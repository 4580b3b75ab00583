import P101Report.Library.Nesting
import P101Report.Model.Text
import P101Report.Output.JsonReport

/-!
# The trace of a finding

`p101_report_trace_bounds` selects the call record with which the trace of a finding begins and
finds its end by counting the records of that call name. When the records of the process and context
are well nested, the end is the `EXIT` of the selected call, and both reports print the same records
of the window (`traceWindow_spec`). The selection looks at `ENTER` records only, so that a nested
call which has returned can be preferred to an outer one still in progress;
`traceBounds_inProgress_iff` says when.
-/

set_option autoImplicit false

namespace P101Report

open Nesting

variable {lib : ToolEventLib}

/-! ## Call records as brackets -/

/-- A call record among those of the process and context of a finding. -/
def callLetter (finding : Finding) (call : CallEvent) : Letter (Option Text) :=
  if call.pid ≠ finding.pid ∨ call.contextId ≠ finding.contextId then .other
  else if call.kind = .enter then .opens call.callName
  else .closes call.callName

/-- The records of the process and context of a finding are well nested: each `EXIT` closes the most
recent open `ENTER` and has its call name. -/
def WellNestedCalls (finding : Finding) (calls : List CallEvent) : Prop :=
  WellNested (calls.map (callLetter finding))

instance (finding : Finding) (calls : List CallEvent) : Decidable (WellNestedCalls finding calls) :=
  inferInstanceAs (Decidable (WellNested _))

/-- The record at `j` is the `EXIT` of the `ENTER` at `i`. -/
def ClosesCall (finding : Finding) (calls : List CallEvent) (i j : Nat) : Prop :=
  Closes (calls.map (callLetter finding)) i j

/-- An `ENTER` record that matches the site of a finding, at or before its event. -/
structure IsSiteEntry (site : SourceSite) (finding : Finding) (call : CallEvent) : Prop where
  enter : call.kind = .enter
  before : call.eventSequence ≤ finding.eventSequence
  matches_site : siteMatchesCall site call finding.pid finding.contextId = true

/-- The record at `first` is the last of these with the greatest sequence. -/
structure LatestEntry (site : SourceSite) (finding : Finding) (calls : List CallEvent)
    (first : Nat) (call : CallEvent) : Prop where
  get : calls[first]? = some call
  entry : IsSiteEntry site finding call
  latest : ∀ {i : Nat} {other : CallEvent}, calls[i]? = some other →
    IsSiteEntry site finding other → other.eventSequence < call.eventSequence ∨
      other.eventSequence = call.eventSequence ∧ i ≤ first

/-! ## The beginning -/

/-- What the first loop of `p101_report_trace_bounds` has selected among the records it has read. -/
def Selected (site : SourceSite) (finding : Finding) (calls : List CallEvent) :
    Option Nat → Nat → Prop
  | none, bestSequence => bestSequence = 0 ∧ ∀ call ∈ calls, ¬ IsSiteEntry site finding call
  | some first, bestSequence =>
    ∃ call, LatestEntry site finding calls first call ∧ bestSequence = call.eventSequence

section Begin

variable {site : SourceSite} {finding : Finding} {calls : List CallEvent} {call : CallEvent}
  {first : Option Nat} {bestSequence : Nat}

/-- A record that is no candidate, or has a smaller sequence, leaves the selection. -/
theorem Selected.skip (h : Selected site finding calls first bestSequence)
    (hcall : IsSiteEntry site finding call → call.eventSequence < bestSequence) :
    Selected site finding (calls ++ [call]) first bestSequence := by
  cases first with
  | none =>
    obtain ⟨rfl, hnone⟩ := h
    refine ⟨rfl, ?_⟩
    intro other hother
    rcases List.mem_append.1 hother with hother | hother
    · exact hnone other hother
    · obtain rfl := List.mem_singleton.1 hother
      intro hentry
      exact absurd (hcall hentry) (Nat.not_lt_zero _)
  | some first =>
    obtain ⟨best, hbest, rfl⟩ := h
    have hlt : first < calls.length := (List.getElem?_eq_some_iff.1 hbest.get).1
    refine ⟨best, ⟨?_, hbest.entry, ?_⟩, rfl⟩
    · rw [List.getElem?_append_left hlt, hbest.get]
    · intro i other hother hentry
      rcases Nat.lt_or_ge i calls.length with hi | hi
      · rw [List.getElem?_append_left hi] at hother
        exact hbest.latest hother hentry
      · rw [List.getElem?_append_right hi, List.getElem?_singleton] at hother
        split at hother
        · obtain rfl := Option.some.inj hother
          exact Or.inl (hcall hentry)
        · cases hother

/-- A candidate with at least the greatest sequence so far is selected. -/
theorem Selected.take (h : Selected site finding calls first bestSequence)
    (hentry : IsSiteEntry site finding call) (hbest : bestSequence ≤ call.eventSequence) :
    Selected site finding (calls ++ [call]) (some calls.length) call.eventSequence := by
  refine ⟨call, ⟨List.getElem?_concat_length, hentry, ?_⟩, rfl⟩
  intro i other hother hcandidate
  rcases Nat.lt_or_ge i calls.length with hi | hi
  · rw [List.getElem?_append_left hi] at hother
    cases first with
    | none => exact absurd hcandidate (h.2 other (List.mem_of_getElem? hother))
    | some first =>
      obtain ⟨best, hlatest, rfl⟩ := h
      rcases hlatest.latest hother hcandidate with hlt | ⟨heq, -⟩
      · exact Or.inl (by omega)
      · rcases Nat.lt_or_ge other.eventSequence call.eventSequence with hlt | hge
        · exact Or.inl hlt
        · exact Or.inr ⟨by omega, by omega⟩
  · have hlt := (List.getElem?_eq_some_iff.1 hother).1
    rw [List.length_append, List.length_singleton] at hlt
    obtain rfl : i = calls.length := by omega
    rw [List.getElem?_concat_length, Option.some.injEq] at hother
    subst hother
    exact Or.inr ⟨rfl, Nat.le_refl _⟩

/-- The loop selects among all records. -/
theorem traceBegin_selected (rest : List CallEvent)
    (h : Selected site finding calls first bestSequence) :
    ∃ bestSequence', Selected site finding (calls ++ rest)
      (traceBegin site finding rest calls.length first bestSequence) bestSequence' := by
  induction rest generalizing calls first bestSequence with
  | nil =>
    rw [List.append_nil]
    exact ⟨bestSequence, h⟩
  | cons call rest ih =>
    have hlength : (calls ++ [call]).length = calls.length + 1 := by
      rw [List.length_append, List.length_singleton]
    rw [traceBegin, ← hlength, List.append_cons]
    -- the test of the loop is that of `IsSiteEntry`, and `>=` on the best sequence so far
    split
    · rename_i hcandidate
      obtain ⟨henter, hbefore, hbest, hsite⟩ := hcandidate
      exact ih (h.take ⟨henter, hbefore, hsite⟩ hbest)
    · rename_i hcandidate
      apply ih
      apply h.skip
      intro hentry
      by_contra hbest
      exact hcandidate ⟨hentry.enter, hentry.before, by omega, hentry.matches_site⟩

end Begin

/-! ## The end -/

/-- The second loop of `p101_report_trace_bounds` counts the brackets with the call name. -/
theorem traceEnd_eq_scan (finding : Finding) (callName : Option Text) (calls : List CallEvent)
    (index depth : Nat) :
    traceEnd finding callName calls index depth =
      scan callName (calls.map (callLetter finding)) index depth := by
  induction calls generalizing index depth with
  | nil => rfl
  | cons call rest ih =>
    rw [traceEnd, List.map_cons, callLetter]
    by_cases hother : call.pid ≠ finding.pid ∨ call.contextId ≠ finding.contextId
    · rw [if_pos hother, if_pos (by tauto), scan]
      exact ih (index + 1) depth
    · rw [if_neg hother]
      by_cases hname : call.callName = callName
      · rw [if_neg (by tauto)]
        by_cases henter : call.kind = .enter
        · rw [if_pos henter, if_pos henter, scan, if_pos hname]
          exact ih (index + 1) (depth + 1)
        · rw [if_neg henter, if_neg henter, scan, if_pos hname]
          split
          · rfl
          · exact ih (index + 1) (depth - 1)
      · -- a call of another name is skipped
        rw [if_pos (by tauto)]
        split
        · rw [scan, if_neg hname]
          exact ih (index + 1) depth
        · rw [scan, if_neg hname]
          exact ih (index + 1) depth

/-- The letter of a candidate. -/
theorem IsSiteEntry.letter {site : SourceSite} {finding : Finding} {call : CallEvent}
    (h : IsSiteEntry site finding call) : callLetter finding call = .opens call.callName := by
  have hsite := h.matches_site
  rw [siteMatchesCall] at hsite
  by_cases hother : call.pid ≠ finding.pid ∨ call.contextId ≠ finding.contextId
  · rw [if_pos hother] at hsite
    cases hsite
  · rw [callLetter, if_neg hother, if_pos h.enter]

/-! ## The records printed -/

/-- The records of the process and context of a finding. -/
def ownCalls (finding : Finding) (calls : List CallEvent) : List CallEvent :=
  calls.filter fun call => call.pid = finding.pid ∧ call.contextId = finding.contextId

/-- The records from `first` to `last`. -/
def window (calls : List CallEvent) (first last : Nat) : List CallEvent :=
  (calls.take (last + 1)).drop first

theorem printTraceLoop_eq (finding : Finding) (calls : List CallEvent) (printed : Nat) :
    let listed := (ownCalls finding calls).take (traceContextLimit - printed)
    printTraceLoop finding calls printed =
      ((listed.map printTextCall).flatten, printed + listed.length) := by
  induction calls generalizing printed with
  | nil => simp [printTraceLoop, ownCalls]
  | cons call rest ih =>
    dsimp only at ih ⊢
    rw [printTraceLoop]
    by_cases hlimit : printed < traceContextLimit
    · rw [if_pos hlimit]
      by_cases hown : call.pid = finding.pid ∧ call.contextId = finding.contextId
      · -- a listed record takes one of the records still allowed
        have hleft : traceContextLimit - printed = traceContextLimit - (printed + 1) + 1 := by
          omega
        rw [if_pos hown, ih (printed + 1), ownCalls, ownCalls,
          List.filter_cons_of_pos (by simpa using hown), hleft, List.take_succ_cons]
        simp only [List.map_cons, List.flatten_cons, List.length_cons, Prod.mk.injEq, true_and]
        omega
      · rw [if_neg hown, ih printed, ownCalls, ownCalls,
          List.filter_cons_of_neg (by simpa using hown)]
    · rw [if_neg hlimit, Nat.sub_eq_zero_of_le (Nat.not_lt.1 hlimit)]
      rfl

/-- Behind the first record of a JSON trace each one follows a comma. -/
theorem printJsonTraceLoop_later (finding : Finding) (calls : List CallEvent) {printed : Nat}
    (hprinted : 0 < printed) :
    printJsonTraceLoop finding calls printed =
      (((ownCalls finding calls).take (traceContextLimit - printed)).map fun call =>
        ascii ", " ++ printJsonCall call).flatten := by
  induction calls generalizing printed with
  | nil => simp [printJsonTraceLoop, ownCalls]
  | cons call rest ih =>
    rw [printJsonTraceLoop]
    by_cases hlimit : printed < traceContextLimit
    · rw [if_pos hlimit]
      by_cases hown : call.pid = finding.pid ∧ call.contextId = finding.contextId
      · have hleft : traceContextLimit - printed = traceContextLimit - (printed + 1) + 1 := by
          omega
        rw [if_neg (by tauto), if_pos hprinted, ih (Nat.succ_pos printed), ownCalls, ownCalls,
          List.filter_cons_of_pos (by simpa using hown), hleft, List.take_succ_cons]
        simp only [List.map_cons, List.flatten_cons, List.flatten_nil, List.append_nil,
          List.append_assoc]
      · rw [if_pos (by tauto), ih hprinted, ownCalls, ownCalls,
          List.filter_cons_of_neg (by simpa using hown)]
    · rw [if_neg hlimit, Nat.sub_eq_zero_of_le (Nat.not_lt.1 hlimit)]
      rfl

theorem intercalate_cons_eq {α : Type} (separator head : List α) (later : List (List α)) :
    separator.intercalate (head :: later) =
      head ++ (later.map fun item => separator ++ item).flatten := by
  induction later generalizing head with
  | nil => simp
  | cons item later ih =>
    rw [List.intercalate_cons_cons, ih item]
    simp only [List.map_cons, List.flatten_cons, List.append_assoc]

theorem printJsonTraceLoop_eq (finding : Finding) (calls : List CallEvent) :
    printJsonTraceLoop finding calls 0 =
      (ascii ", ").intercalate
        (((ownCalls finding calls).take traceContextLimit).map printJsonCall) := by
  induction calls with
  | nil => rfl
  | cons call rest ih =>
    rw [printJsonTraceLoop, if_pos (by decide)]
    by_cases hown : call.pid = finding.pid ∧ call.contextId = finding.contextId
    · have hlimit : traceContextLimit = traceContextLimit - 1 + 1 := rfl
      rw [if_neg (by tauto), if_neg (Nat.lt_irrefl 0), printJsonTraceLoop_later _ _ Nat.zero_lt_one,
        ownCalls, ownCalls, List.filter_cons_of_pos (by simpa using hown), hlimit,
        List.take_succ_cons, List.map_cons, intercalate_cons_eq, List.map_map]
      simp only [List.flatten_cons, List.flatten_nil, List.append_nil, List.nil_append,
        Nat.add_sub_cancel]
      rfl
    · rw [if_pos (by tauto), ih, ownCalls, ownCalls,
        List.filter_cons_of_neg (by simpa using hown)]

/-- Both reports list these records as the trace of a finding. -/
structure ListsCalls (model : ReportModel lib) (site : SourceSite) (finding : Finding)
    (listed : List CallEvent) : Prop where
  text : printTraceContext model site finding =
    List.flatten [
      ascii "   trace:\n", (listed.map printTextCall).flatten,
      if listed = [] then ascii "     no matching call records for this source site\n" else []]
  json : printJsonTraceContext model site finding =
    (ascii ", ").intercalate (listed.map printJsonCall)

theorem listsCalls_of_bounds {model : ReportModel lib} {site : SourceSite} {finding : Finding}
    {first last : Nat} (h : traceBounds model site finding = some (first, last)) :
    ListsCalls model site finding
      ((ownCalls finding (window model.calls.items first last)).take traceContextLimit) := by
  constructor
  · rw [printTraceContext, h]
    dsimp only
    rw [printTraceLoop_eq, Nat.sub_zero, Nat.zero_add]
    dsimp only
    rw [window]
    simp only [List.length_eq_zero_iff]
  · rw [printJsonTraceContext, h]
    exact printJsonTraceLoop_eq finding _

theorem listsCalls_nil {model : ReportModel lib} {site : SourceSite} {finding : Finding}
    (h : traceBounds model site finding = none) : ListsCalls model site finding [] := by
  constructor
  · rw [printTraceContext, h]
    rfl
  · rw [printJsonTraceContext, h]
    rfl

/-! ## The window -/

/-- The selection of `p101_report_trace_bounds`. -/
theorem traceBounds_eq (model : ReportModel lib) (site : SourceSite) (finding : Finding) :
    (traceBounds model site finding = none ∧
      ∀ call ∈ model.calls.items, ¬ IsSiteEntry site finding call) ∨
    ∃ first last call, traceBounds model site finding = some (first, last) ∧
      LatestEntry site finding model.calls.items first call ∧
      last = (traceEnd finding call.callName (model.calls.items.drop first) first 0).getD
        (model.calls.items.length - 1) := by
  have hstart : Selected site finding [] none 0 := ⟨rfl, fun call hcall => by cases hcall⟩
  obtain ⟨bestSequence, hselected⟩ := traceBegin_selected model.calls.items hstart
  rw [List.nil_append, List.length_nil] at hselected
  rw [traceBounds]
  cases hbegin : traceBegin site finding model.calls.items 0 none 0 with
  | none =>
    rw [hbegin] at hselected
    exact Or.inl ⟨rfl, hselected.2⟩
  | some first =>
    rw [hbegin] at hselected
    obtain ⟨call, hlatest, -⟩ := hselected
    refine Or.inr ⟨first, _, call, ?_, hlatest, rfl⟩
    rw [Option.bind_eq_bind, Option.bind_some, hlatest.get]
    rfl

/-- The call records that the finding's trace begins and ends with, and what the reports list. -/
structure TraceWindow (model : ReportModel lib) (site : SourceSite) (finding : Finding)
    (first last : Nat) : Prop where
  bounds : traceBounds model site finding = some (first, last)
  begins : ∃ call, LatestEntry site finding model.calls.items first call
  ends : ∀ j, ClosesCall finding model.calls.items first j → last = j
  open_end : (∀ j, ¬ ClosesCall finding model.calls.items first j) →
    last = model.calls.items.length - 1
  lists : ListsCalls model site finding
    ((ownCalls finding (window model.calls.items first last)).take traceContextLimit)

/-- The trace of a finding when the records of its process and context are well nested. -/
theorem traceWindow_cases {model : ReportModel lib} {site : SourceSite} {finding : Finding}
    (hwell : WellNestedCalls finding model.calls.items) :
    (traceBounds model site finding = none ∧
      ∀ call ∈ model.calls.items, ¬ IsSiteEntry site finding call) ∨
    ∃ first last, TraceWindow model site finding first last := by
  rcases traceBounds_eq model site finding with
    hnone | ⟨first, last, call, hbounds, hlatest, hlast⟩
  · exact Or.inl hnone
  · refine Or.inr ⟨first, last, ?_⟩
    -- the records counted are the brackets of the call name
    have hletter : (model.calls.items.map (callLetter finding))[first]? =
        some (.opens call.callName) := by
      rw [List.getElem?_map, hlatest.get, Option.map_some, hlatest.entry.letter]
    have hcloses := scan_eq_some_iff hwell hletter
    rw [← List.map_drop] at hcloses
    rw [traceEnd_eq_scan] at hlast
    refine ⟨hbounds, ⟨call, hlatest⟩, ?_, ?_, listsCalls_of_bounds hbounds⟩
    · intro j hj
      rw [hlast, (hcloses j).2 hj, Option.getD_some]
    · intro hopen
      cases hscan : scan call.callName ((model.calls.items.drop first).map (callLetter finding))
          first 0 with
      | none => rw [hlast, hscan, Option.getD_none]
      | some j => exact absurd ((hcloses j).1 hscan) (hopen j)

/-- **The window of a trace.** When the records of the finding's process and context are well
nested, among any others, the trace begins with the last matching `ENTER` of greatest sequence and
ends with its `EXIT`, or with the last record when there is none; without a matching `ENTER` nothing
is listed. -/
theorem traceWindow_spec (model : ReportModel lib) (site : SourceSite) (finding : Finding)
    (hwell : WellNestedCalls finding model.calls.items) :
    ((∃ call ∈ model.calls.items, IsSiteEntry site finding call) →
      ∃ first last, TraceWindow model site finding first last) ∧
    ((¬ ∃ call ∈ model.calls.items, IsSiteEntry site finding call) →
      traceBounds model site finding = none ∧ ListsCalls model site finding []) := by
  rcases traceWindow_cases hwell with ⟨hnone, hno⟩ | ⟨first, last, hwindow⟩
  · refine ⟨?_, fun _ => ⟨hnone, listsCalls_nil hnone⟩⟩
    rintro ⟨call, hcall, hentry⟩
    exact absurd hentry (hno call hcall)
  · refine ⟨fun _ => ⟨first, last, hwindow⟩, ?_⟩
    intro hno
    obtain ⟨call, hlatest⟩ := hwindow.begins
    exact absurd ⟨call, List.mem_of_getElem? hlatest.get, hlatest.entry⟩ hno

/-- A call record of `fixture.c`. -/
def callRecord (kind : CallKind) (pid : Int) (eventSequence : Nat) (callName : Text) : CallEvent :=
  { kind, pid, eventSequence
    contextId := 7
    callName := some callName
    functionName := some (lit "main")
    fileName := some (lit "fixture.c") }

def fixtureSite : SourceSite := ⟨some (lit "fixture.c"), some (lit "main"), 1⟩

/-- A model with these call records. -/
def callModel (calls : List CallEvent) : ReportModel replayLib :=
  { ReportModel.zeroed replayLib () with calls := ⟨calls, 8⟩ }

/-- A call that calls itself, with a call of another process in between; the outer one does not
return. -/
def recursiveCalls : List CallEvent := [
  callRecord .enter 1 1 (lit "walk"), callRecord .enter 2 1 (lit "walk"),
  callRecord .enter 1 2 (lit "walk"), callRecord .exit 1 3 (lit "walk"),
  callRecord .enter 1 4 (lit "p101_open")]

/-- The trace begins at the inner call. -/
theorem traceWindow_spec_recursive :
    let finding : Finding := { pid := 1, contextId := 7, eventSequence := 3 }
    WellNestedCalls finding recursiveCalls ∧
      traceBounds (callModel recursiveCalls) fixtureSite finding = some (2, 3) ∧
      ((∃ call ∈ recursiveCalls, IsSiteEntry fixtureSite finding call) →
        ∃ first last, TraceWindow (callModel recursiveCalls) fixtureSite finding first last) ∧
      ((¬ ∃ call ∈ recursiveCalls, IsSiteEntry fixtureSite finding call) →
        traceBounds (callModel recursiveCalls) fixtureSite finding = none ∧
          ListsCalls (callModel recursiveCalls) fixtureSite finding []) := by
  intro finding
  have hwell : WellNestedCalls finding recursiveCalls := by decide
  refine ⟨hwell, by decide, ?_⟩
  exact traceWindow_spec (callModel recursiveCalls) fixtureSite finding hwell

/-! ## Calls in progress -/

/-- The sequences of the records of the finding's process and context do not fall. -/
def InOrder (finding : Finding) (calls : List CallEvent) : Prop :=
  (ownCalls finding calls).Pairwise fun call later => call.eventSequence ≤ later.eventSequence

instance (finding : Finding) (calls : List CallEvent) : Decidable (InOrder finding calls) :=
  inferInstanceAs (Decidable (List.Pairwise _ _))

/-- A matching call that was in progress at the event of the finding: its `EXIT` is missing or not
before the event. -/
structure InProgress (site : SourceSite) (finding : Finding) (calls : List CallEvent) (i : Nat) :
    Prop where
  entry : ∃ call, calls[i]? = some call ∧ IsSiteEntry site finding call
  not_returned : ∀ {j : Nat} {exit : CallEvent}, ClosesCall finding calls i j →
    calls[j]? = some exit → finding.eventSequence ≤ exit.eventSequence

/-- A matching call that had returned before the event of the finding. -/
structure HadReturned (site : SourceSite) (finding : Finding) (calls : List CallEvent) (i : Nat) :
    Prop where
  entry : ∃ call, calls[i]? = some call ∧ IsSiteEntry site finding call
  returned : ∃ (j : Nat) (exit : CallEvent), ClosesCall finding calls i j ∧
    calls[j]? = some exit ∧ exit.eventSequence < finding.eventSequence

section Progress

variable {site : SourceSite} {finding : Finding} {calls : List CallEvent}

/-- A matching call is in progress or has returned. -/
theorem inProgress_or_hadReturned {i : Nat} {call : CallEvent} (hget : calls[i]? = some call)
    (hentry : IsSiteEntry site finding call) :
    InProgress site finding calls i ∨ HadReturned site finding calls i := by
  by_cases h : ∃ (j : Nat) (exit : CallEvent), ClosesCall finding calls i j ∧
      calls[j]? = some exit ∧ exit.eventSequence < finding.eventSequence
  · exact Or.inr ⟨⟨call, hget, hentry⟩, h⟩
  · refine Or.inl ⟨⟨call, hget, hentry⟩, ?_⟩
    intro j exit hcloses hexit
    by_contra hbefore
    exact h ⟨j, exit, hcloses, hexit, by omega⟩

theorem InProgress.not_hadReturned {i : Nat} (h : InProgress site finding calls i)
    (h' : HadReturned site finding calls i) : False := by
  obtain ⟨j, exit, hcloses, hexit, hbefore⟩ := h'.returned
  have hafter := h.not_returned hcloses hexit
  omega

theorem own_of_letter {call : CallEvent} (h : callLetter finding call ≠ .other) :
    call.pid = finding.pid ∧ call.contextId = finding.contextId := by
  by_contra hother
  apply h
  rw [callLetter, if_pos (by tauto)]

/-- An `EXIT` that closes a call is a record of the process and context. -/
theorem own_of_closesCall {i j : Nat} {exit : CallEvent} (h : ClosesCall finding calls i j)
    (hexit : calls[j]? = some exit) : callLetter finding exit ≠ .other := by
  obtain ⟨label, below, hletter, -⟩ := h
  rw [List.getElem?_map, hexit, Option.map_some, Option.some.injEq] at hletter
  rw [hletter]
  exact nofun

theorem own_of_entry {call : CallEvent} (h : IsSiteEntry site finding call) :
    callLetter finding call ≠ .other := by
  rw [h.letter]
  exact nofun

/-- The records of the process and context are in the order of their sequences. -/
theorem InOrder.lt_of_lt (h : InOrder finding calls) {i j : Nat} {call later : CallEvent}
    (hcall : calls[i]? = some call) (hlater : calls[j]? = some later)
    (hown : callLetter finding call ≠ .other) (hown' : callLetter finding later ≠ .other)
    (hlt : call.eventSequence < later.eventSequence) : i < j := by
  rw [InOrder, ownCalls, List.pairwise_filter, List.pairwise_iff_getElem] at h
  obtain ⟨hi, rfl⟩ := List.getElem?_eq_some_iff.1 hcall
  obtain ⟨hj, rfl⟩ := List.getElem?_eq_some_iff.1 hlater
  rcases Nat.lt_trichotomy i j with hij | rfl | hij
  · exact hij
  · exact absurd hlt (Nat.lt_irrefl _)
  · have hle := h j i hj hi hij (decide_eq_true (own_of_letter hown'))
      (decide_eq_true (own_of_letter hown))
    omega

/-- A matching call other than the selected one was entered before it. -/
theorem LatestEntry.lt_of_ne {first i : Nat} {latest call : CallEvent}
    (h : LatestEntry site finding calls first latest) (horder : InOrder finding calls)
    (hget : calls[i]? = some call) (hentry : IsSiteEntry site finding call) (hne : i ≠ first) :
    i < first := by
  rcases h.latest hget hentry with hlt | ⟨-, hle⟩
  · exact horder.lt_of_lt hget h.get (own_of_entry hentry) (own_of_entry h.entry) hlt
  · omega

end Progress

/-- The call with which the trace begins had returned: it was entered and left within each matching
call that was still in progress, and the trace is over before the event. -/
structure InnerReturned (model : ReportModel lib) (site : SourceSite) (finding : Finding)
    (first last : Nat) : Prop where
  returned : HadReturned site finding model.calls.items first
  ended : ∃ exit, model.calls.items[last]? = some exit ∧
    exit.eventSequence < finding.eventSequence
  inner : ∀ i, InProgress site finding model.calls.items i →
    i < first ∧ ∀ j, ClosesCall finding model.calls.items i j → last < j

/-- **The call with which a trace begins.** When some matching call was in progress at the event,
the selected one was in progress as well exactly when each matching call that had returned was
entered before one in progress. Otherwise the selected one was called and had returned within all of
those. -/
theorem traceBounds_inProgress_iff (model : ReportModel lib) (site : SourceSite)
    (finding : Finding) (hwell : WellNestedCalls finding model.calls.items)
    (horder : InOrder finding model.calls.items)
    (hprogress : ∃ i, InProgress site finding model.calls.items i) :
    ∃ first last, traceBounds model site finding = some (first, last) ∧
      (InProgress site finding model.calls.items first ↔
        ∀ k, HadReturned site finding model.calls.items k →
          ∃ i, InProgress site finding model.calls.items i ∧ k < i) ∧
      (¬ InProgress site finding model.calls.items first →
        InnerReturned model site finding first last) := by
  obtain ⟨i, hi⟩ := hprogress
  obtain ⟨call, hget, hentry⟩ := hi.entry
  rcases traceWindow_cases hwell with ⟨-, hno⟩ | ⟨first, last, hwindow⟩
  · exact absurd hentry (hno call (List.mem_of_getElem? hget))
  · obtain ⟨latest, hlatest⟩ := hwindow.begins
    have hcase := inProgress_or_hadReturned hlatest.get hlatest.entry
    refine ⟨first, last, hwindow.bounds, ⟨?_, ?_⟩, ?_⟩
    · intro hfirst k hk
      obtain ⟨other, hget', hentry'⟩ := hk.entry
      refine ⟨first, hfirst, hlatest.lt_of_ne horder hget' hentry' ?_⟩
      rintro rfl
      exact hfirst.not_hadReturned hk
    · intro hcovered
      rcases hcase with hfirst | hreturned
      · exact hfirst
      · -- the selected call would have been entered before another matching one
        obtain ⟨k, hk, hlt⟩ := hcovered first hreturned
        obtain ⟨other, hget', hentry'⟩ := hk.entry
        have hle := hlatest.lt_of_ne horder hget' hentry' (by omega)
        omega
    · intro hfirst
      have hreturned := hcase.resolve_left hfirst
      obtain ⟨j, exit, hcloses, hexit, hbefore⟩ := id hreturned.returned
      obtain rfl := hwindow.ends j hcloses
      refine ⟨hreturned, ⟨exit, hexit, hbefore⟩, ?_⟩
      intro i hi
      obtain ⟨other, hget', hentry'⟩ := hi.entry
      refine ⟨hlatest.lt_of_ne horder hget' hentry' ?_, ?_⟩
      · rintro rfl
        exact hfirst hi
      · intro j' hcloses'
        have hlt : j' < model.calls.items.length := by
          obtain ⟨label, below, hletter, -⟩ := id hcloses'
          rw [List.getElem?_map] at hletter
          obtain ⟨outer, houter, -⟩ := Option.map_eq_some_iff.1 hletter
          exact (List.getElem?_eq_some_iff.1 houter).1
        have houter := List.getElem?_eq_getElem hlt
        have hafter := hi.not_returned hcloses' houter
        exact horder.lt_of_lt hexit houter (own_of_closesCall hcloses hexit)
          (own_of_closesCall hcloses' houter) (by omega)

/-- A call with a nested one of the same function, which returns at sequence 3. -/
def nestedCalls : List CallEvent := [
  callRecord .enter 1 1 (lit "p101_open"), callRecord .enter 1 2 (lit "nested"),
  callRecord .exit 1 3 (lit "nested")]

/-- A finding about an event behind the nested call. -/
def nestedFinding : Finding := { pid := 1, contextId := 7, eventSequence := 4 }

theorem nestedCalls_wellNested : WellNestedCalls nestedFinding nestedCalls := by decide

/-- The outer call is still open. -/
theorem nestedCalls_inProgress : InProgress fixtureSite nestedFinding nestedCalls 0 := by
  refine ⟨⟨_, rfl, ⟨rfl, by decide, by decide⟩⟩, ?_⟩
  intro j exit hcloses _
  have hletter : (nestedCalls.map (callLetter nestedFinding))[0]? =
      some (.opens (some (lit "p101_open"))) := by decide
  have hscan := (scan_eq_some_iff nestedCalls_wellNested hletter j).2 hcloses
  have hnone : scan (some (lit "p101_open")) ((nestedCalls.map (callLetter nestedFinding)).drop 0)
      0 0 = none := by decide
  rw [hnone] at hscan
  cases hscan

/-- The trace begins at the nested call. -/
theorem traceBounds_inProgress_nested :
    ∃ first last, traceBounds (callModel nestedCalls) fixtureSite nestedFinding =
        some (first, last) ∧
      (InProgress fixtureSite nestedFinding nestedCalls first ↔
        ∀ k, HadReturned fixtureSite nestedFinding nestedCalls k →
          ∃ i, InProgress fixtureSite nestedFinding nestedCalls i ∧ k < i) ∧
      (¬ InProgress fixtureSite nestedFinding nestedCalls first →
        InnerReturned (callModel nestedCalls) fixtureSite nestedFinding first last) := by
  have horder : InOrder nestedFinding nestedCalls := by decide
  exact traceBounds_inProgress_iff (callModel nestedCalls) fixtureSite nestedFinding
    nestedCalls_wellNested horder ⟨0, nestedCalls_inProgress⟩

/-- It had returned, while the outer one was in progress. -/
theorem traceBounds_returned_nested :
    WellNestedCalls nestedFinding nestedCalls ∧
      (∀ call ∈ nestedCalls, call.pid = 1 ∧ call.contextId = 7) ∧
      nestedCalls.Pairwise (fun call later => call.eventSequence < later.eventSequence) ∧
      InProgress fixtureSite nestedFinding nestedCalls 0 ∧
      traceBounds (callModel nestedCalls) fixtureSite nestedFinding = some (1, 2) ∧
      ¬ InProgress fixtureSite nestedFinding nestedCalls 1 := by
  refine ⟨nestedCalls_wellNested, by decide, by decide, nestedCalls_inProgress, by decide, ?_⟩
  intro h
  have hletter : (nestedCalls.map (callLetter nestedFinding))[1]? =
      some (.opens (some (lit "nested"))) := by decide
  have hcloses : ClosesCall nestedFinding nestedCalls 1 2 :=
    (scan_eq_some_iff nestedCalls_wellNested hletter 2).1 (by decide)
  have hafter := h.not_returned hcloses rfl
  exact absurd hafter (by decide)

end P101Report
