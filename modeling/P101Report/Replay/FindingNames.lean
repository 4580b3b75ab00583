import P101Report.Model.Lifecycle
import P101Report.Replay.Steps

/-!
# The resource a finding names

A finding of the lifecycle library names its resource by an identifier. The reports print the
descriptor or pointer of the report finding instead, and that is copied from the first stored record
with the process, context and position of the library's finding. The two agree exactly when that
record is one on the resource (`findings_named_iff`). It is not when a `REALLOC` from another
pointer made the resource live, when a child has inherited it, or when a generic record did
(`leak_recordNames_iff`).
-/

set_option autoImplicit false

namespace P101Report

variable {lib : ToolEventLib}

/-! ## Names -/

/-- The findings printed with a pointer. -/
def isAllocationKind : FindingKind → Bool
  | .allocLeak | .doubleFree | .strayFree | .badRealloc => true
  | _ => false

/-- The findings of the library printed with a descriptor. -/
def isDescriptorKind : FindingKind → Bool
  | .fdLeak | .doubleClose | .strayClose => true
  | _ => false

/-- What a report finding is printed with is the identifier of the library's finding. -/
def NamesResource (source : LifecycleFinding) (finding : Finding) : Prop :=
  (isAllocationKind finding.kind = true →
    source.resourceId.isSome = true ∧ finding.ptr = source.resourceId) ∧
  (isDescriptorKind finding.kind = true → source.resourceId = some (decimal finding.fd))

instance (source : LifecycleFinding) (finding : Finding) :
    Decidable (NamesResource source finding) :=
  inferInstanceAs (Decidable ((_ → _ ∧ _) ∧ (_ → _)))

/-- The record has the process, context and position of a finding. -/
def ResourceEvent.IsAt (source : LifecycleFinding) (record : ResourceEvent) : Prop :=
  record.pid = source.pid ∧ record.contextId = source.contextId ∧
    record.eventSequence = source.sequence

/-- The first record with the process, context and position of a finding. -/
def FirstAt (resources : List ResourceEvent) (source : LifecycleFinding) (record : ResourceEvent) :
    Prop :=
  ∃ pre post, resources = pre ++ record :: post ∧ record.IsAt source ∧
    ∀ earlier ∈ pre, ¬ earlier.IsAt source

/-- The first record at the position of a finding is one on the pointer or descriptor that the
finding is about. Without such a record only descriptor `0` is named. -/
def RecordNames (resources : List ResourceEvent) (source : LifecycleFinding) : Prop :=
  (isAllocationKind (genericFindingKind source) = true →
    ∃ record, FirstAt resources source record ∧ source.resourceId.isSome = true ∧
      record.ptr = source.resourceId) ∧
  (isDescriptorKind (genericFindingKind source) = true →
    (∃ record, FirstAt resources source record ∧
      source.resourceId = some (decimal record.fd)) ∨
      (∀ record ∈ resources, ¬ record.IsAt source) ∧ source.resourceId = some (decimal 0))

theorem isAt_iff {source : LifecycleFinding} {record : ResourceEvent} :
    (record.pid == source.pid && record.contextId == source.contextId &&
      record.eventSequence == source.sequence) = true ↔ record.IsAt source := by
  simp [ResourceEvent.IsAt, and_assoc]

theorem findLifecycleEvent_eq_some {resources : List ResourceEvent} {source : LifecycleFinding}
    {record : ResourceEvent} :
    findLifecycleEvent resources source = some record ↔ FirstAt resources source record := by
  rw [findLifecycleEvent, List.find?_eq_some_iff_append]
  simp only [isAt_iff, Bool.not_eq_true', FirstAt]
  constructor
  · rintro ⟨hat, pre, post, heq, hbefore⟩
    refine ⟨pre, post, heq, hat, fun earlier hearlier => ?_⟩
    rw [← isAt_iff, hbefore earlier hearlier]
    exact Bool.false_ne_true
  · rintro ⟨pre, post, heq, hat, hbefore⟩
    refine ⟨hat, pre, post, heq, fun earlier hearlier => ?_⟩
    apply Bool.eq_false_iff.2
    rw [ne_eq, isAt_iff]
    exact hbefore earlier hearlier

theorem findLifecycleEvent_eq_none {resources : List ResourceEvent} {source : LifecycleFinding} :
    findLifecycleEvent resources source = none ↔ ∀ record ∈ resources, ¬ record.IsAt source := by
  rw [findLifecycleEvent, List.find?_eq_none]
  simp only [isAt_iff]

/-- A mapped finding names its resource exactly when the record it was copied from does. -/
theorem namesResource_iff {resources : List ResourceEvent} {sites : List SourceSite}
    {source : LifecycleFinding} {finding : Finding}
    (hmaps : MapsTo resources sites source finding) :
    NamesResource source finding ↔ RecordNames resources source := by
  rw [NamesResource, RecordNames, hmaps.kind, hmaps.ptr, hmaps.fd]
  cases hfind : findLifecycleEvent resources source with
  | none =>
    -- nothing is copied: the pointer is `NULL` and the descriptor `0`
    have hnone := findLifecycleEvent_eq_none.1 hfind
    have hfirst : ∀ record, ¬ FirstAt resources source record := by
      intro record hrecord
      rw [← findLifecycleEvent_eq_some, hfind] at hrecord
      cases hrecord
    refine and_congr (imp_congr_right fun _ => ?_) (imp_congr_right fun _ => ?_)
    · constructor
      · rintro ⟨hsome, heq⟩
        rw [← heq] at hsome
        cases hsome
      · rintro ⟨record, hrecord, -⟩
        exact absurd hrecord (hfirst record)
    · constructor
      · intro heq
        exact Or.inr ⟨hnone, heq⟩
      · rintro (⟨record, hrecord, -⟩ | ⟨-, heq⟩)
        · exact absurd hrecord (hfirst record)
        · exact heq
  | some found =>
    -- pointer and descriptor are those of the first record at the position
    have hfound := findLifecycleEvent_eq_some.1 hfind
    have hsame : ∀ record, FirstAt resources source record → record = found := by
      intro record hrecord
      rw [← findLifecycleEvent_eq_some, hfind] at hrecord
      exact (Option.some.inj hrecord).symm
    refine and_congr (imp_congr_right fun _ => ?_) (imp_congr_right fun _ => ?_)
    · constructor
      · rintro ⟨hsome, heq⟩
        exact ⟨found, hfound, hsome, heq⟩
      · rintro ⟨record, hrecord, hsome, heq⟩
        obtain rfl := hsame record hrecord
        exact ⟨hsome, heq⟩
    · constructor
      · intro heq
        exact Or.inl ⟨found, hfound, heq⟩
      · rintro (⟨record, hrecord, heq⟩ | ⟨hnone, -⟩)
        · obtain rfl := hsame record hrecord
          exact heq
        · rw [← findLifecycleEvent_eq_none, hfind] at hnone
          cases hnone

/-- **When findings name their resource.** Finalization stores a finding for each finding of the
library, all of them when no error is raised; each is printed with the identifier of its resource
exactly when the first record at its position is one on that resource. -/
theorem findings_named_iff (st : State lib) :
    ∃ stored added, stored <+: returnedFindings st ∧
      ((finalizeGeneric st).err.error = false → stored = returnedFindings st) ∧
      (finalizeGeneric st).model.findings.items = st.model.findings.items ++ added ∧
      added.map (·.kind) = stored.map genericFindingKind ∧
      ((∀ pair ∈ stored.zip added, NamesResource pair.1 pair.2) ↔
        ∀ source ∈ stored, RecordNames st.model.resources.items source) := by
  obtain ⟨stored, added, hprefix, hall, hadded, htables⟩ := finalizeGeneric_prefix st
  refine ⟨stored, added, hprefix, hall, congrArg Tables.findings htables, ?_, ?_⟩
  · clear hprefix hall htables
    induction hadded with
    | nil => rfl
    | cons hmaps _ ih => simp [hmaps.kind, ih]
  · clear hprefix hall htables
    induction hadded with
    | nil => simp
    | cons hmaps _ ih =>
      simp only [List.zip_cons_cons, List.forall_mem_cons]
      rw [namesResource_iff hmaps, ih]

/-- A leaked allocation that a `REALLOC` from another pointer made live is printed with the old
pointer, and a descriptor that a child has inherited as descriptor `0`. -/
theorem findings_misnamed :
    let st := ingestLog State.zeroed (number [
      { allocRecord 1 (lit "0xa") with eventSequence := 1 },
      { reallocRecord 1 (lit "0xa") (lit "0xb") with eventSequence := 2 },
      { openRecord 1 3 with eventSequence := 3 },
      { forkRecord 1 2 with eventSequence := 4 },
      { closeRecord 1 3 with eventSequence := 5 }])
    (finalizeGeneric st).err.error = false ∧
      (finalizeGeneric st).model.findings.items.map (fun finding =>
        (finding.kind, finding.pid, finding.ptr, finding.fd, finding.resourceId)) =
        [(.allocLeak, 1, some (lit "0xa"), 0, some (lit "0xb")),
          (.fdLeak, 2, none, 0, some (decimal 3))] ∧
      ¬ ∀ pair ∈ (returnedFindings st).zip (finalizeGeneric st).model.findings.items,
        NamesResource pair.1 pair.2 := by
  decide

/-! ## Leaks -/

/-- The record that made the resource of a leak live, alone at its position in the log. -/
structure MadeLive (resources : List ResourceEvent) (source : LifecycleFinding)
    (record : ResourceEvent) : Prop where
  mem : record ∈ resources
  context : record.contextId = source.contextId
  position : record.eventSequence = source.sequence
  alone : ∀ other ∈ resources, other.contextId = source.contextId →
    other.eventSequence = source.sequence → other = record

/-- What the record that made it live says about a leak: its process and its identifier. -/
def LeakOf (record : ResourceEvent) (source : LifecycleFinding) : Prop :=
  source.kind = .leak ∧
    match record.kind with
    | .fdOpen => record.pid = source.pid ∧ source.resourceClass = some (lit "fd") ∧
        source.resourceId = some (decimal record.fd)
    | .alloc => record.pid = source.pid ∧ source.resourceClass = some (lit "allocation") ∧
        source.resourceId.isSome = true ∧ source.resourceId = record.ptr
    | .realloc => record.pid = source.pid ∧ source.resourceClass = some (lit "allocation") ∧
        source.resourceId.isSome = true ∧ source.resourceId = record.newPtr
    | .fork => record.pid ≠ source.pid ∧ record.childPid = source.pid ∧
        source.resourceClass = some (lit "fd")
    | _ => False

theorem genericFindingKind_fdLeak {source : LifecycleFinding} (hkind : source.kind = .leak)
    (hclass : source.resourceClass = some (lit "fd")) : genericFindingKind source = .fdLeak := by
  rw [genericFindingKind, if_pos hclass, hkind]

theorem genericFindingKind_allocLeak {source : LifecycleFinding} (hkind : source.kind = .leak)
    (hclass : source.resourceClass = some (lit "allocation")) :
    genericFindingKind source = .allocLeak := by
  have hother : source.resourceClass ≠ some (lit "fd") := by
    rw [hclass]
    decide
  rw [genericFindingKind, if_neg hother, if_pos hclass, hkind]

theorem firstAt_iff_of_madeLive {resources : List ResourceEvent} {source : LifecycleFinding}
    {record : ResourceEvent} (hlive : MadeLive resources source record) {found : ResourceEvent} :
    FirstAt resources source found ↔ found = record ∧ record.pid = source.pid := by
  constructor
  · rintro ⟨pre, post, heq, ⟨hpid, hcontext, hposition⟩, -⟩
    obtain rfl := hlive.alone found (by simp [heq]) hcontext hposition
    exact ⟨rfl, hpid⟩
  · rintro ⟨rfl, hpid⟩
    rw [← findLifecycleEvent_eq_some]
    have hat : found.IsAt source := ⟨hpid, hlive.context, hlive.position⟩
    cases hfind : findLifecycleEvent resources source with
    | none => exact absurd hat (findLifecycleEvent_eq_none.1 hfind found hlive.mem)
    | some other =>
      obtain ⟨pre, post, heq, ⟨-, hcontext, hposition⟩, -⟩ := findLifecycleEvent_eq_some.1 hfind
      rw [hlive.alone other (by simp [heq]) hcontext hposition]

/-- **Which leaks are named.** A leak that an `OPEN` or `ALLOC` record made live is; one that a
`REALLOC` made live only when the old pointer is the new one; an inherited descriptor only when it
is descriptor `0`. -/
theorem leak_recordNames_iff {resources : List ResourceEvent} {source : LifecycleFinding}
    {record : ResourceEvent} (hlive : MadeLive resources source record)
    (hleak : LeakOf record source) :
    RecordNames resources source ↔
      (record.kind = .realloc → record.ptr = record.newPtr) ∧
        (record.kind = .fork → source.resourceId = some (decimal 0)) := by
  obtain ⟨hkind, hleak⟩ := hleak
  simp only [RecordNames, firstAt_iff_of_madeLive hlive]
  cases hrecord : record.kind with
  | fdOpen =>
    simp only [hrecord] at hleak
    obtain ⟨hpid, hclass, hid⟩ := hleak
    have hmapped := genericFindingKind_fdLeak hkind hclass
    simp [hmapped, isAllocationKind, isDescriptorKind, hpid, hid]
  | alloc =>
    simp only [hrecord] at hleak
    obtain ⟨hpid, hclass, hsome, hid⟩ := hleak
    have hmapped := genericFindingKind_allocLeak hkind hclass
    rw [hid] at hsome
    simp [hmapped, isAllocationKind, isDescriptorKind, hpid, hid, hsome]
  | realloc =>
    simp only [hrecord] at hleak
    obtain ⟨hpid, hclass, hsome, hid⟩ := hleak
    have hmapped := genericFindingKind_allocLeak hkind hclass
    rw [hid] at hsome
    simp [hmapped, isAllocationKind, isDescriptorKind, hpid, hid, hsome]
  | fork =>
    simp only [hrecord] at hleak
    obtain ⟨hpid, -, hclass⟩ := hleak
    -- the record is one of the parent, so the search for the child finds none
    have hmapped := genericFindingKind_fdLeak hkind hclass
    have hnone : ∀ other ∈ resources, ¬ other.IsAt source := by
      rintro other hother ⟨hotherPid, hcontext, hposition⟩
      rw [hlive.alone other hother hcontext hposition] at hotherPid
      exact hpid hotherPid
    simp only [hmapped, isAllocationKind, isDescriptorKind, hpid]
    simp only [Bool.false_eq_true, false_implies, true_and, true_implies, and_false, false_and,
      exists_false, false_or, reduceCtorEq]
    exact and_iff_right hnone
  | _ => simp [hrecord] at hleak

end P101Report
