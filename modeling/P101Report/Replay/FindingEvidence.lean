import P101Report.Replay.FindingNames

/-!
# The stored event behind a finding

A finding of the lifecycle library takes its number from the first stored event with its process,
context and position that passes for one of its class, and its descriptor, pointer and size from the
first one of any class. The search by class takes every event without a class that is no `OPEN` or
`CLOSE` for an allocation, an `EXEC` or a `FORK` too. The two are one event of the class exactly
when the first event with these identifiers is of the class (`finalizeGeneric_evidence_iff`).
-/

set_option autoImplicit false

namespace P101Report

variable {lib : ToolEventLib}

/-- The class of the resource an event is about: the one it names, or that of the records that tell
of descriptors and allocations. The records of forks, spawns and execs have none. -/
def ResourceEvent.ownClass (event : ResourceEvent) : Option Text :=
  match event.resourceClass with
  | some own => some own
  | none =>
    match event.kind with
    | .fdOpen | .fdClose => some (lit "fd")
    | .alloc | .free | .realloc => some (lit "allocation")
    | .fork | .spawn | .exec | .execFail | .generic => none

/-- What the search of `p101_report_find_lifecycle_event` asks of an event. -/
def isAtFinding (source : LifecycleFinding) (event : ResourceEvent) : Bool :=
  event.pid == source.pid && event.contextId == source.contextId &&
    event.eventSequence == source.sequence

/-- What the search of `p101_report_find_generic_sequence` asks of an event. -/
def passesForFinding (source : LifecycleFinding) (event : ResourceEvent) : Bool :=
  isAtFinding source event && eventOfClass event source.resourceClass

/-- The event has the identifiers and the class of the finding. -/
def isOfFinding (source : LifecycleFinding) (event : ResourceEvent) : Bool :=
  isAtFinding source event && event.ownClass.isSome && event.ownClass == source.resourceClass

/-- Both searches stop at one stored event of the finding's class, from which the finding has its
number, its descriptor, its pointer and its size. -/
def EvidenceIsOneEvent (resources : List ResourceEvent) (source : LifecycleFinding)
    (finding : Finding) : Prop :=
  ∃ (i : Nat) (event : ResourceEvent), resources[i]? = some event ∧
    isOfFinding source event = true ∧
    resources.findIdx? (passesForFinding source) = some i ∧
    resources.findIdx? (isAtFinding source) = some i ∧
    finding.sequence = event.sequence ∧ finding.fd = event.fd ∧ finding.ptr = event.ptr ∧
    finding.size = event.size

/-- No stored event of another class, or of none, with the identifiers of a finding comes before the
first one of its class. -/
def ClassComesFirst (resources : List ResourceEvent) (source : LifecycleFinding) : Prop :=
  ∀ (i : Nat) (event : ResourceEvent), resources[i]? = some event →
    isAtFinding source event = true → isOfFinding source event = false →
    ∃ (j : Nat) (earlier : ResourceEvent), j < i ∧ resources[j]? = some earlier ∧
      isOfFinding source earlier = true

/-! ## The two searches -/

/-- A search by value and the search for its position find one event. -/
theorem find?_of_findIdx? {α : Type} {p : α → Bool} {l : List α} {i : Nat}
    (h : l.findIdx? p = some i) : ∃ a, l[i]? = some a ∧ p a = true ∧ l.find? p = some a := by
  obtain ⟨hlt, hp, hbefore⟩ := List.findIdx?_eq_some_iff_getElem.1 h
  refine ⟨l[i], List.getElem?_eq_getElem hlt, hp, ?_⟩
  rw [List.find?_eq_some_iff_getElem]
  exact ⟨hp, i, hlt, rfl, fun j hj => by simpa using hbefore j hj⟩

theorem findIdx?_le {α : Type} {p : α → Bool} {l : List α} {i j : Nat} {a : α}
    (h : l.findIdx? p = some i) (hget : l[j]? = some a) (ha : p a = true) : i ≤ j := by
  obtain ⟨hlt, rfl⟩ := List.getElem?_eq_some_iff.1 hget
  obtain ⟨_, -, hbefore⟩ := List.findIdx?_eq_some_iff_getElem.1 h
  by_contra hlater
  exact hbefore j (by omega) ha

/-- An event of the class passes for one: the code asks no more of it. -/
theorem passes_of_isOf {source : LifecycleFinding} {event : ResourceEvent}
    (h : isOfFinding source event = true) :
    isAtFinding source event = true ∧ passesForFinding source event = true := by
  simp only [isOfFinding, Bool.and_eq_true, beq_iff_eq] at h
  obtain ⟨⟨hat, hsome⟩, hclass⟩ := h
  refine ⟨hat, ?_⟩
  rw [passesForFinding, hat, Bool.true_and, ← hclass, eventOfClass]
  cases hown : event.resourceClass with
  | some own => simp [ResourceEvent.ownClass, hown]
  | none =>
    cases hkind : event.kind <;> simp [ResourceEvent.ownClass, hown, hkind] at hsome ⊢

theorem isAt_of_passes {source : LifecycleFinding} {event : ResourceEvent}
    (h : passesForFinding source event = true) : isAtFinding source event = true :=
  (Bool.and_eq_true_iff.1 h).1

/-- The number of the event at which the search stops, or the producer's number. -/
theorem findGenericSequence_search (resources : List ResourceEvent) (source : LifecycleFinding) :
    findGenericSequence resources source false =
      ((resources.find? (passesForFinding source)).map (·.sequence)).getD source.sequence := by
  have hsame : (fun event : ResourceEvent => event.pid == source.pid &&
      event.eventSequence == source.sequence && event.contextId == source.contextId &&
      eventOfClass event source.resourceClass) = passesForFinding source := by
    funext event
    rw [passesForFinding, isAtFinding, Bool.and_right_comm (event.pid == source.pid)]
  simp only [findGenericSequence, Bool.false_eq_true, if_false]
  rw [hsame]
  cases resources.find? (passesForFinding source) <;> rfl

theorem findGenericSequence_eq {resources : List ResourceEvent} {source : LifecycleFinding}
    {event : ResourceEvent} (h : resources.find? (passesForFinding source) = some event) :
    findGenericSequence resources source false = event.sequence := by
  rw [findGenericSequence_search, h]
  rfl

/-- Both positions, when there is an event of the finding. -/
theorem searches_of_stored {resources : List ResourceEvent} {source : LifecycleFinding}
    (hstored : ∃ event ∈ resources, isOfFinding source event = true) :
    ∃ i j, resources.findIdx? (passesForFinding source) = some i ∧
      resources.findIdx? (isAtFinding source) = some j ∧ j ≤ i := by
  obtain ⟨event, hmem, hevent⟩ := hstored
  obtain ⟨hatEvent, hpasses⟩ := passes_of_isOf hevent
  have hof : (resources.findIdx? (passesForFinding source)).isSome = true := by
    rw [List.findIdx?_isSome, List.any_eq_true]
    exact ⟨event, hmem, hpasses⟩
  have hat : (resources.findIdx? (isAtFinding source)).isSome = true := by
    rw [List.findIdx?_isSome, List.any_eq_true]
    exact ⟨event, hmem, hatEvent⟩
  obtain ⟨i, hi⟩ := Option.isSome_iff_exists.1 hof
  obtain ⟨j, hj⟩ := Option.isSome_iff_exists.1 hat
  obtain ⟨first, hget, hfirst, -⟩ := find?_of_findIdx? hi
  exact ⟨i, j, hi, hj, findIdx?_le hj hget (isAt_of_passes hfirst)⟩

/-- The first event with the identifiers is of the class, and both searches stop at it, exactly when
no event of another class comes first. -/
theorem firstIsOf_iff {resources : List ResourceEvent} {source : LifecycleFinding} {i j : Nat}
    (hi : resources.findIdx? (passesForFinding source) = some i)
    (hj : resources.findIdx? (isAtFinding source) = some j) (hle : j ≤ i) :
    (∃ event, resources[j]? = some event ∧ isOfFinding source event = true ∧ j = i) ↔
      ClassComesFirst resources source := by
  constructor
  · rintro ⟨event, hget, hof, -⟩ k other hother hat hclass
    -- the event is behind the one at which both searches stop
    have hbehind := findIdx?_le hj hother hat
    have hne : k ≠ j := by
      rintro rfl
      rw [hother, Option.some.injEq] at hget
      rw [hget, hof] at hclass
      cases hclass
    exact ⟨j, event, by omega, hget, hof⟩
  · intro hfirst
    obtain ⟨found, hget, hfound, -⟩ := find?_of_findIdx? hj
    cases hclass : isOfFinding source found with
    | true =>
      have hle' := findIdx?_le hi hget (passes_of_isOf hclass).2
      exact ⟨found, hget, hclass, by omega⟩
    | false =>
      obtain ⟨k, earlier, hlt, hearlier, hof⟩ := hfirst j found hget hfound hclass
      have hle' := findIdx?_le hj hearlier (passes_of_isOf hof).1
      omega

/-- **The evidence of a mapped finding.** -/
theorem evidenceIsOneEvent_iff {resources : List ResourceEvent} {sites : List SourceSite}
    {source : LifecycleFinding} {finding : Finding} (hmaps : MapsTo resources sites source finding)
    (hstored : ∃ event ∈ resources, isOfFinding source event = true) :
    EvidenceIsOneEvent resources source finding ↔ ClassComesFirst resources source := by
  obtain ⟨i, j, hi, hj, hle⟩ := searches_of_stored hstored
  rw [← firstIsOf_iff hi hj hle]
  constructor
  · rintro ⟨k, event, hget, hof, hk, hk', -⟩
    rw [hi, Option.some.injEq] at hk
    rw [hj, Option.some.injEq] at hk'
    subst hk'
    exact ⟨event, hget, hof, hk.symm⟩
  · rintro ⟨event, hget, hof, rfl⟩
    obtain ⟨numbered, hget', -, hnumber⟩ := find?_of_findIdx? hi
    obtain ⟨found, hget'', -, hfound⟩ := find?_of_findIdx? hj
    rw [hget, Option.some.injEq] at hget' hget''
    subst hget' hget''
    have hevent : findLifecycleEvent resources source = some event := hfound
    refine ⟨j, event, hget, hof, hi, hj, ?_, ?_, ?_, ?_⟩
    · rw [hmaps.sequence, findGenericSequence_eq hnumber]
    · rw [hmaps.fd, hevent]
      rfl
    · rw [hmaps.ptr, hevent]
      rfl
    · rw [hmaps.size, hevent]
      rfl

/-! ## Finalization -/

/-- **When the evidence of a finding is one event.** For each finding that finalization adds for a
finding of the library, when a stored event has its identifiers and its class. -/
theorem finalizeGeneric_evidence_iff (st : State lib) {k : Nat} {source : LifecycleFinding}
    {finding : Finding} (hsource : (returnedFindings st)[k]? = some source)
    (hfinding : (finalizeGeneric st).model.findings.items[st.model.findings.items.length + k]? =
      some finding)
    (hstored : ∃ event ∈ st.model.resources.items, isOfFinding source event = true) :
    EvidenceIsOneEvent st.model.resources.items source finding ↔
      ClassComesFirst st.model.resources.items source := by
  obtain ⟨stored, added, hprefix, -, hmaps, htables⟩ := finalizeGeneric_prefix st
  have hitems : (finalizeGeneric st).model.findings.items =
      st.model.findings.items ++ added := congrArg Tables.findings htables
  rw [hitems, List.getElem?_append_right (by omega), Nat.add_sub_cancel_left] at hfinding
  -- the finding at this place was made from the source at the same place
  obtain ⟨hlt, rfl⟩ := List.getElem?_eq_some_iff.1 hfinding
  have hlt' : k < stored.length := by
    rw [hmaps.length_eq]
    exact hlt
  obtain ⟨later, heq⟩ := hprefix
  rw [← heq, List.getElem?_append_left hlt', List.getElem?_eq_getElem hlt',
    Option.some.injEq] at hsource
  subst hsource
  exact evidenceIsOneEvent_iff (hmaps.get hlt' hlt) hstored

/-- A record that acquires a mapping. -/
def mappingRecord : ResourceEvent :=
  { kind := .generic, pid := 1, contextId := 2, eventSequence := 3
    resourceClass := some (lit "mapping"), resourceId := some (lit "m1"), size := 4096 }

/-- Whether an event of a library finding is stored. -/
def hasEventOf (resources : List ResourceEvent) (source : LifecycleFinding) : Bool :=
  resources.any (isOfFinding source)

theorem stored_of_hasEventOf {resources : List ResourceEvent} {found : Option LifecycleFinding}
    {source : LifecycleFinding} (h : found.any (hasEventOf resources) = true)
    (hsource : found = some source) : ∃ event ∈ resources, isOfFinding source event = true := by
  subst hsource
  rwa [Option.any_some, hasEventOf, List.any_eq_true] at h

/-- The leak of a mapping whose record is alone at its position. -/
theorem finalizeGeneric_evidence_mapping :
    let st := ingestLog State.zeroed (number [mappingRecord])
    ∃ source finding, (returnedFindings st)[0]? = some source ∧
      (finalizeGeneric st).model.findings.items[st.model.findings.items.length + 0]? =
        some finding ∧
      (∃ event ∈ st.model.resources.items, isOfFinding source event = true) ∧
      (EvidenceIsOneEvent st.model.resources.items source finding ↔
        ClassComesFirst st.model.resources.items source) := by
  intro st
  obtain ⟨source, hsource⟩ := Option.isSome_iff_exists.1
    (show ((returnedFindings st)[0]?).isSome = true by decide)
  obtain ⟨finding, hfinding⟩ := Option.isSome_iff_exists.1
    (show ((finalizeGeneric st).model.findings.items[st.model.findings.items.length + 0]?).isSome =
      true by decide)
  have hstored := stored_of_hasEventOf
    (show ((returnedFindings st)[0]?).any (hasEventOf st.model.resources.items) = true by decide)
    hsource
  refine ⟨source, finding, hsource, hfinding, hstored, ?_⟩
  exact finalizeGeneric_evidence_iff st hsource hfinding hstored

/-- An `OPEN` record with the position of `mappingRecord`, then that record. -/
def sharedPosition : List ResourceEvent :=
  number [{ openRecord 1 3 with contextId := 2, eventSequence := 3 }, mappingRecord]

/-- The same leak behind an `OPEN` record with its position: the number is that of the mapping,
descriptor and size are those of the `OPEN`. -/
theorem finalizeGeneric_evidence_split :
    let st := ingestLog State.zeroed sharedPosition
    ∃ source finding, (returnedFindings st)[1]? = some source ∧
      (finalizeGeneric st).model.findings.items[st.model.findings.items.length + 1]? =
        some finding ∧
      (∃ event ∈ st.model.resources.items, isOfFinding source event = true) ∧
      (finding.sequence, finding.fd, finding.size) = (2, 3, 0) ∧
      ¬ EvidenceIsOneEvent st.model.resources.items source finding := by
  intro st
  obtain ⟨source, hsource⟩ := Option.isSome_iff_exists.1
    (show ((returnedFindings st)[1]?).isSome = true by decide)
  obtain ⟨finding, hfinding⟩ := Option.isSome_iff_exists.1
    (show ((finalizeGeneric st).model.findings.items[st.model.findings.items.length + 1]?).isSome =
      true by decide)
  have hstored := stored_of_hasEventOf
    (show ((returnedFindings st)[1]?).any (hasEventOf st.model.resources.items) = true by decide)
    hsource
  have hvalues : (finding.sequence, finding.fd, finding.size) = (2, 3, 0) := by
    have h : (finalizeGeneric st).model.findings.items[st.model.findings.items.length + 1]?.map
        (fun f => (f.sequence, f.fd, f.size)) = some (2, 3, 0) := by decide
    rwa [hfinding, Option.map_some, Option.some.injEq] at h
  refine ⟨source, finding, hsource, hfinding, hstored, hvalues, ?_⟩
  -- the search by class stops at the second event, the other one at the first
  rintro ⟨i, event, -, -, hof, hat, -⟩
  have hsplit : ((returnedFindings st)[1]?).map (fun source =>
      (st.model.resources.items.findIdx? (passesForFinding source),
        st.model.resources.items.findIdx? (isAtFinding source))) = some (some 1, some 0) := by
    decide
  rw [hsource, Option.map_some, Option.some.injEq, hof, hat, Prod.mk.injEq] at hsplit
  have hi := Option.some.inj hsplit.1
  have hi' := Option.some.inj hsplit.2
  omega

end P101Report
