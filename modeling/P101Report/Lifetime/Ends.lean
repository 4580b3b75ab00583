import P101Report.Lifetime.Parsed
import P101Report.Model.Lifecycle
import P101Report.Model.Lifetimes
import P101Report.Replay.Steps

/-!
# A release and the lifetimes it ends

A birth and a release are matched by key: a process with a descriptor, a pointer or a generic
identifier. For parsed records the three scans are one: the end of a birth is the first release of
its key behind it (`findLifetimeEnd_eq`). Two births of one key therefore share their end exactly
when no release of the key lies between them and one lies behind both.
-/

set_option autoImplicit false

namespace P101Report

/-! ## Keys -/

/-- What a lifetime is about. -/
inductive ResourceKey
  | fd (pid fd : Int)
  | allocation (pid : Int) (ptr : Text)
  | generic (pid : Int) (resourceClass resourceId : Text)
  deriving DecidableEq

/-- The key of a generic record for one of its identifiers. -/
def genericKey (event : ResourceEvent) (id : Option Text) : Option ResourceKey :=
  event.resourceClass.bind fun resourceClass =>
    id.map fun resourceId => .generic event.pid resourceClass resourceId

/-- What a record gives birth to. -/
def birthKey (event : ResourceEvent) : Option ResourceKey :=
  match event.kind with
  | .fdOpen => some (.fd event.pid event.fd)
  | .alloc | .realloc => (allocBirthPtr event).map (.allocation event.pid)
  | .generic => genericKey event (genericBirthId event)
  | _ => none

/-- What a record releases. -/
def releaseKey (event : ResourceEvent) : Option ResourceKey :=
  match event.kind with
  | .fdClose => some (.fd event.pid event.fd)
  | .free | .realloc => event.ptr.map (.allocation event.pid)
  | .generic => if isGenericRelease event then genericKey event event.resourceId else none
  | _ => none

/-- The first release of a key behind a position. -/
def firstRelease (resources : List ResourceEvent) (position : Nat) (key : ResourceKey) :
    Option ResourceEvent :=
  resources.find? fun event =>
    decide (position < event.sequence) && releaseKey event == some key

theorem genericKey_eq_some {event : ResourceEvent} {id : Option Text} {key : ResourceKey} :
    genericKey event id = some key ↔ ∃ resourceClass resourceId,
      event.resourceClass = some resourceClass ∧ id = some resourceId ∧
        .generic event.pid resourceClass resourceId = key := by
  simp only [genericKey, Option.bind_eq_some_iff, Option.map_eq_some_iff]
  constructor
  · rintro ⟨resourceClass, hclass, resourceId, hid, hkey⟩
    exact ⟨resourceClass, resourceId, hclass, hid, hkey⟩
  · rintro ⟨resourceClass, resourceId, hclass, hid, hkey⟩
    exact ⟨resourceClass, hclass, resourceId, hid, hkey⟩

/-- A release of a descriptor is a `CLOSE` of it. -/
theorem releaseKey_eq_fd {event : ResourceEvent} {pid fd : Int} :
    releaseKey event = some (.fd pid fd) ↔
      event.kind = .fdClose ∧ event.pid = pid ∧ event.fd = fd := by
  rw [releaseKey]
  cases hkind : event.kind with
  | generic =>
    -- the keys of generic records are generic
    have hgeneric : genericKey event event.resourceId ≠ some (.fd pid fd) := by
      intro h
      obtain ⟨_, _, -, -, hkey⟩ := genericKey_eq_some.1 h
      cases hkey
    simp only [reduceCtorEq, false_and, iff_false]
    split
    · exact hgeneric
    · simp
  | _ => simp

/-- A release of an allocation is a `FREE` or `REALLOC` of its pointer. -/
theorem releaseKey_eq_allocation {event : ResourceEvent} {pid : Int} {ptr : Text} :
    releaseKey event = some (.allocation pid ptr) ↔
      (event.kind = .free ∨ event.kind = .realloc) ∧ event.pid = pid ∧ event.ptr = some ptr := by
  rw [releaseKey]
  cases hkind : event.kind with
  | generic =>
    have hgeneric : genericKey event event.resourceId ≠ some (.allocation pid ptr) := by
      intro h
      obtain ⟨_, _, -, -, hkey⟩ := genericKey_eq_some.1 h
      cases hkey
    simp only [reduceCtorEq, or_self, false_and, iff_false]
    split
    · exact hgeneric
    · simp
  | free | realloc =>
    simp only [Option.map_eq_some_iff, ResourceKey.allocation.injEq, or_true, true_or, true_and]
    constructor
    · rintro ⟨own, hptr, hpid, rfl⟩
      exact ⟨hpid, hptr⟩
    · rintro ⟨hpid, hptr⟩
      exact ⟨ptr, hptr, hpid, rfl⟩
  | _ => simp

theorem releaseKey_eq_generic {event : ResourceEvent} {pid : Int}
    {resourceClass resourceId : Text} :
    releaseKey event = some (.generic pid resourceClass resourceId) ↔
      event.kind = .generic ∧ isGenericRelease event = true ∧ event.pid = pid ∧
        event.resourceClass = some resourceClass ∧ event.resourceId = some resourceId := by
  rw [releaseKey]
  cases hkind : event.kind with
  | generic =>
    by_cases hrelease : isGenericRelease event = true
    · rw [if_pos hrelease, genericKey_eq_some]
      simp only [hrelease, true_and]
      constructor
      · rintro ⟨_, _, hclass, hid, hkey⟩
        obtain ⟨rfl, rfl, rfl⟩ := ResourceKey.generic.inj hkey
        exact ⟨rfl, hclass, hid⟩
      · rintro ⟨rfl, hclass, hid⟩
        exact ⟨_, _, hclass, hid, rfl⟩
    · simp [hrelease]
  | _ => simp

/-! ## The scans as one -/

/-- A birth that the reports render has a key, and its end is the first release of that key behind
it. -/
theorem findLifetimeEnd_eq {birth : ResourceEvent} (hparsed : birth.Parsed)
    (hbirth : isBirth birth = true) :
    ∃ key, birthKey birth = some key ∧
      ∀ resources, findLifetimeEnd resources birth = firstRelease resources birth.sequence key := by
  -- the scans need the texts of the birth, which the parser guarantees
  have hallocation : birth.kind = .alloc ∨ birth.kind = .realloc →
      ∃ ptr, allocBirthPtr birth = some ptr := by
    intro hkind
    have hmem : birth.kind ∈ [ResourceKind.alloc, .free, .realloc] := by
      rcases hkind with hkind | hkind <;> simp [hkind]
    obtain ⟨hptr, hnewPtr⟩ := hparsed.pointers hmem
    rw [allocBirthPtr]
    split
    · exact Option.isSome_iff_exists.1 hptr
    · exact Option.isSome_iff_exists.1 hnewPtr
  rw [birthKey]
  cases hkind : birth.kind with
  | fdOpen =>
    refine ⟨_, rfl, fun resources => ?_⟩
    rw [findLifetimeEnd, if_pos hkind, findFdLifetimeEnd, firstRelease]
    congr 1
    funext event
    rw [Bool.eq_iff_iff]
    simp only [Bool.and_eq_true, decide_eq_true_eq, beq_iff_eq, releaseKey_eq_fd]
    tauto
  | alloc | realloc =>
    obtain ⟨ptr, hptr⟩ := hallocation (by simp [hkind])
    refine ⟨.allocation birth.pid ptr, by rw [hptr]; rfl, fun resources => ?_⟩
    rw [findLifetimeEnd, if_neg (by simp [hkind]), if_pos (by simp [hkind]), findAllocLifetimeEnd,
      firstRelease]
    congr 1
    funext event
    rw [Bool.eq_iff_iff]
    simp only [Bool.and_eq_true, Bool.or_eq_true, decide_eq_true_eq, beq_iff_eq, hptr,
      Option.isSome_some, releaseKey_eq_allocation]
    constructor
    · rintro ⟨⟨⟨⟨⟨hseq, hpid⟩, -⟩, hfree⟩, -⟩, heq⟩
      exact ⟨hseq, hfree, hpid, heq⟩
    · rintro ⟨hseq, hfree, hpid, heq⟩
      exact ⟨⟨⟨⟨⟨hseq, hpid⟩, trivial⟩, hfree⟩, by rw [heq]; rfl⟩, heq⟩
  | generic =>
    obtain ⟨hclass, hid⟩ := hparsed.identity hkind
    obtain ⟨resourceClass, hclass⟩ := Option.isSome_iff_exists.1 hclass
    have hbirthId : ∃ resourceId, genericBirthId birth = some resourceId := by
      rw [genericBirthId]
      by_cases hacquire : birth.genericKind = .acquire
      · rw [if_pos hacquire]
        exact Option.isSome_iff_exists.1 hid
      · rw [if_neg hacquire]
        -- a `REPLACE` or `TRANSFER` is rendered as a birth only with a related id
        have hrelated : birth.relatedId.isSome = true := by
          simp only [isBirth, isAllocBirth, isGenericBirth, hkind] at hbirth
          simp at hbirth
          exact (hbirth.resolve_left hacquire).2
        exact Option.isSome_iff_exists.1 hrelated
    obtain ⟨resourceId, hbirthId⟩ := hbirthId
    refine ⟨.generic birth.pid resourceClass resourceId, ?_, fun resources => ?_⟩
    · exact genericKey_eq_some.2 ⟨resourceClass, resourceId, hclass, hbirthId, rfl⟩
    · rw [findLifetimeEnd, if_neg (by simp [hkind]), if_neg (by simp [hkind]),
        findGenericLifetimeEnd, firstRelease]
      simp only [hbirthId]
      congr 1
      funext event
      rw [Bool.eq_iff_iff]
      simp only [Bool.and_eq_true, decide_eq_true_eq, beq_iff_eq, hclass, releaseKey_eq_generic]
      constructor
      · rintro ⟨⟨⟨⟨⟨⟨⟨hseq, hgeneric⟩, hpid⟩, -⟩, -⟩, hrelease⟩, heq⟩, heqId⟩
        exact ⟨hseq, hgeneric, hrelease, hpid, heq, heqId⟩
      · rintro ⟨hseq, hgeneric, hrelease, hpid, heq, heqId⟩
        exact ⟨⟨⟨⟨⟨⟨⟨hseq, hgeneric⟩, hpid⟩, by rw [heq]; rfl⟩, by rw [heqId]; rfl⟩, hrelease⟩,
          heq⟩, heqId⟩
  | _ => simp [isBirth, isAllocBirth, isGenericBirth, hkind] at hbirth

/-! ## First releases in a sorted list -/

section Sorted

variable {resources : List ResourceEvent} {position : Nat} {key : ResourceKey}
  {event : ResourceEvent}

theorem firstRelease_spec (h : firstRelease resources position key = some event) :
    event ∈ resources ∧ position < event.sequence ∧ releaseKey event = some key := by
  have hpred := List.find?_some h
  simp only [Bool.and_eq_true, decide_eq_true_eq, beq_iff_eq] at hpred
  exact ⟨List.mem_of_find?_eq_some h, hpred⟩

/-- There is a first release when there is one at all. -/
theorem exists_firstRelease (hmem : event ∈ resources) (hposition : position < event.sequence)
    (hkey : releaseKey event = some key) :
    ∃ first, firstRelease resources position key = some first := by
  rw [← Option.isSome_iff_exists, firstRelease, List.find?_isSome]
  exact ⟨event, hmem, by simp [hposition, hkey]⟩

/-- The first release lies before every other one. -/
theorem firstRelease_le (hsorted : resources.Pairwise fun a b => a.sequence < b.sequence)
    {first : ResourceEvent} (hfirst : firstRelease resources position key = some first)
    (hmem : event ∈ resources) (hposition : position < event.sequence)
    (hkey : releaseKey event = some key) : first.sequence ≤ event.sequence := by
  obtain ⟨-, pre, post, rfl, hbefore⟩ := List.find?_eq_some_iff_append.1 hfirst
  rcases List.mem_append.1 hmem with hpre | hpost
  · -- the scan would have stopped at an earlier release
    exact absurd (hbefore event hpre) (by simp [hposition, hkey])
  · rcases List.mem_cons.1 hpost with rfl | hlater
    · exact le_rfl
    · have hsorted' := (List.pairwise_append.1 hsorted).2.1
      exact Nat.le_of_lt (List.rel_of_pairwise_cons hsorted' hlater)

/-- Positions with no release between them have the same first release. -/
theorem firstRelease_congr {position' : Nat} (hle : position ≤ position')
    (hnone : ∀ event ∈ resources, position < event.sequence → event.sequence ≤ position' →
      releaseKey event ≠ some key) :
    firstRelease resources position key = firstRelease resources position' key := by
  apply List.find?_congr
  intro event hevent
  rw [Bool.eq_iff_iff]
  simp only [Bool.and_eq_true, decide_eq_true_eq, beq_iff_eq]
  constructor
  · rintro ⟨hposition, hkey⟩
    refine ⟨?_, hkey⟩
    by_contra hbetween
    exact hnone event hevent hposition (by omega) hkey
  · rintro ⟨hposition, hkey⟩
    exact ⟨by omega, hkey⟩

end Sorted

/-! ## Shared ends -/

/-- Between two births of one key that has a release behind both, a release of the key stands. -/
def ReleasedBetween (resources : List ResourceEvent) : Prop :=
  ∀ x ∈ resources, ∀ y ∈ resources, isBirth x = true → isBirth y = true →
    birthKey x = birthKey y → x.sequence < y.sequence →
    (∃ release ∈ resources, y.sequence < release.sequence ∧ releaseKey release = birthKey y) →
    ∃ release ∈ resources, x.sequence < release.sequence ∧ release.sequence ≤ y.sequence ∧
      releaseKey release = birthKey x

instance (resources : List ResourceEvent) : Decidable (ReleasedBetween resources) :=
  inferInstanceAs (Decidable (∀ _ ∈ _, ∀ _ ∈ _, _ → _ → _ → _ → (∃ _ ∈ _, _ ∧ _) →
    ∃ _ ∈ _, _ ∧ _ ∧ _))

/-- Under `ReleasedBetween` the earlier of two ended lifetimes of one key is over when the later one
starts. -/
theorem end_le_of_releasedBetween {resources : List ResourceEvent}
    (hsorted : resources.Pairwise fun a b => a.sequence < b.sequence)
    (hparsed : ∀ event ∈ resources, event.Parsed) (hbetween : ReleasedBetween resources)
    {x y : ResourceEvent} (hx : x ∈ resources) (hy : y ∈ resources) (hbirthX : isBirth x = true)
    (hbirthY : isBirth y = true) (hsame : birthKey x = birthKey y)
    (hlt : x.sequence < y.sequence) {endX endY : ResourceEvent}
    (hendX : findLifetimeEnd resources x = some endX)
    (hendY : findLifetimeEnd resources y = some endY) :
    endX.sequence ≤ y.sequence ∧ y.sequence < endY.sequence := by
  obtain ⟨keyX, hkeyX, heqX⟩ := findLifetimeEnd_eq (hparsed x hx) hbirthX
  obtain ⟨keyY, hkeyY, heqY⟩ := findLifetimeEnd_eq (hparsed y hy) hbirthY
  rw [heqX] at hendX
  rw [heqY] at hendY
  obtain ⟨hmemY, hafterY, hreleaseY⟩ := firstRelease_spec hendY
  obtain ⟨release, hrelease, hlow, hhigh, hkey⟩ := hbetween x hx y hy hbirthX hbirthY hsame hlt
    ⟨endY, hmemY, hafterY, hreleaseY.trans hkeyY.symm⟩
  have hfirst := firstRelease_le hsorted hendX hrelease hlow (hkey.trans hkeyX)
  exact ⟨hfirst.trans hhigh, hafterY⟩

/-- **When a release ends at most one lifetime.** For parsed records in order, two distinct births
never share their end, and the ended lifetimes of one key never overlap, exactly when no key is born
twice without a release in between and then released. -/
theorem lifetimeEnds_distinct_iff (resources : List ResourceEvent)
    (hsorted : resources.Pairwise fun a b => a.sequence < b.sequence)
    (hparsed : ∀ event ∈ resources, event.Parsed) :
    ((∀ x ∈ resources, ∀ y ∈ resources, isBirth x = true → isBirth y = true → x ≠ y →
        ∀ endX endY, findLifetimeEnd resources x = some endX →
          findLifetimeEnd resources y = some endY → endX ≠ endY) ∧
      ∀ x ∈ resources, ∀ y ∈ resources, isBirth x = true → isBirth y = true →
        birthKey x = birthKey y → x.sequence < y.sequence →
        ∀ endX endY, findLifetimeEnd resources x = some endX →
          findLifetimeEnd resources y = some endY → endX.sequence ≤ y.sequence) ↔
      ReleasedBetween resources := by
  constructor
  · rintro ⟨hdistinct, -⟩ x hx y hy hbirthX hbirthY hsame hlt ⟨last, hlast, hafter, hlastKey⟩
    by_contra hnone
    obtain ⟨keyX, hkeyX, heqX⟩ := findLifetimeEnd_eq (hparsed x hx) hbirthX
    obtain ⟨keyY, hkeyY, heqY⟩ := findLifetimeEnd_eq (hparsed y hy) hbirthY
    obtain rfl : keyX = keyY := by
      rw [hkeyX, hkeyY] at hsame
      exact Option.some.inj hsame
    obtain ⟨shared, hshared⟩ := exists_firstRelease hlast hafter (hlastKey.trans hkeyY)
    -- with no release in between, both scans stop at the same record
    have hsameEnd : firstRelease resources x.sequence keyX =
        firstRelease resources y.sequence keyX := by
      apply firstRelease_congr (Nat.le_of_lt hlt)
      intro release hrelease hlow hhigh hkey
      exact hnone ⟨release, hrelease, hlow, hhigh, hkey.trans hkeyX.symm⟩
    have hne : x ≠ y := by
      rintro rfl
      exact Nat.lt_irrefl _ hlt
    exact hdistinct x hx y hy hbirthX hbirthY hne shared shared
      (by rw [heqX, hsameEnd, hshared]) (by rw [heqY, hshared]) rfl
  · intro hbetween
    have hearlier : ∀ x ∈ resources, ∀ y ∈ resources, isBirth x = true → isBirth y = true →
        x.sequence < y.sequence → ∀ endX endY, findLifetimeEnd resources x = some endX →
          findLifetimeEnd resources y = some endY → endX ≠ endY := by
      intro x hx y hy hbirthX hbirthY hlt endX endY hendX hendY heq
      by_cases hsame : birthKey x = birthKey y
      · -- of one key: the earlier lifetime is over before the later one starts
        obtain ⟨hbefore, hafter⟩ := end_le_of_releasedBetween hsorted hparsed hbetween hx hy hbirthX
          hbirthY hsame hlt hendX hendY
        rw [heq] at hbefore
        omega
      · -- of two keys: one record releases one key
        obtain ⟨keyX, hkeyX, heqX⟩ := findLifetimeEnd_eq (hparsed x hx) hbirthX
        obtain ⟨keyY, hkeyY, heqY⟩ := findLifetimeEnd_eq (hparsed y hy) hbirthY
        rw [heqX] at hendX
        rw [heqY] at hendY
        have hreleaseX := (firstRelease_spec hendX).2.2
        have hreleaseY := (firstRelease_spec hendY).2.2
        rw [heq, hreleaseY] at hreleaseX
        exact hsame (by rw [hkeyX, hkeyY, hreleaseX])
    constructor
    · intro x hx y hy hbirthX hbirthY hne endX endY hendX hendY
      have hsequence : x.sequence ≠ y.sequence := fun h => hne (eq_of_sequence_eq hsorted hx hy h)
      rcases Nat.lt_or_gt_of_ne hsequence with hlt | hlt
      · exact hearlier x hx y hy hbirthX hbirthY hlt endX endY hendX hendY
      · exact (hearlier y hy x hx hbirthY hbirthX hlt endY endX hendY hendX).symm
    · intro x hx y hy hbirthX hbirthY hsame hlt endX endY hendX hendY
      exact (end_le_of_releasedBetween hsorted hparsed hbetween hx hy hbirthX hbirthY hsame hlt
        hendX hendY).1

/-- A descriptor reused after its `CLOSE`, and a pointer reallocated in place. -/
theorem lifetimeEnds_distinct_reused :
    let resources := number [openRecord 1 3, closeRecord 1 3, openRecord 1 3,
      allocRecord 1 (lit "0x1"), reallocRecord 1 (lit "0x1") (lit "0x1"), freeRecord 1 (lit "0x1"),
      closeRecord 1 3]
    ReleasedBetween resources ∧
      ∀ x ∈ resources, ∀ y ∈ resources, isBirth x = true → isBirth y = true → x ≠ y →
        ∀ endX endY, findLifetimeEnd resources x = some endX →
          findLifetimeEnd resources y = some endY → endX ≠ endY := by
  intro resources
  have hbetween : ReleasedBetween resources := by decide +kernel
  have hparsed : ∀ event ∈ resources, event.Parsed := by decide
  exact ⟨hbetween, ((lifetimeEnds_distinct_iff resources (number_pairwise _) hparsed).2 hbetween).1⟩

/-- A descriptor opened twice and closed once: both lifetimes end at the one `CLOSE`. -/
theorem lifetimeEnds_shared :
    let resources := number [openRecord 1 3, openRecord 1 3, closeRecord 1 3]
    (∀ event ∈ resources, event.Parsed) ∧
      ¬ ∀ x ∈ resources, ∀ y ∈ resources, isBirth x = true → isBirth y = true → x ≠ y →
        ∀ endX endY, findLifetimeEnd resources x = some endX →
          findLifetimeEnd resources y = some endY → endX ≠ endY := by
  intro resources
  refine ⟨by decide, fun hdistinct => ?_⟩
  exact hdistinct { openRecord 1 3 with sequence := 1 } (by decide)
    { openRecord 1 3 with sequence := 2 } (by decide) rfl rfl (by decide)
    { closeRecord 1 3 with sequence := 3 } { closeRecord 1 3 with sequence := 3 } rfl rfl rfl

end P101Report
