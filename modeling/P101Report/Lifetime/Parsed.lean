import P101Report.Model.Parse
import P101Report.Replay.Refinement

/-!
# Parsed records

An event that the parser hands over with status `LINE_OK` owns the texts its kind requires: both
pointers of an allocation record, the target of an exec or spawn record, the class and identifier of
a generic record (`parseResourceLine_parsed`).
-/

set_option autoImplicit false

namespace P101Report

variable {lib : ToolEventLib}

/-- The texts a parsed event owns. -/
structure ResourceEvent.Parsed (event : ResourceEvent) : Prop where
  pointers : event.kind ∈ [.alloc, .free, .realloc] →
    event.ptr.isSome = true ∧ event.newPtr.isSome = true
  target : event.kind ∈ [.spawn, .exec, .execFail] → event.target.isSome = true
  identity : event.kind = .generic →
    event.resourceClass.isSome = true ∧ event.resourceId.isSome = true

instance (event : ResourceEvent) : Decidable event.Parsed :=
  decidable_of_iff
    ((event.kind ∈ [.alloc, .free, .realloc] →
        event.ptr.isSome = true ∧ event.newPtr.isSome = true) ∧
      (event.kind ∈ [.spawn, .exec, .execFail] → event.target.isSome = true) ∧
      (event.kind = .generic → event.resourceClass.isSome = true ∧ event.resourceId.isSome = true))
    ⟨fun h => ⟨h.1, h.2.1, h.2.2⟩, fun h => ⟨h.pointers, h.target, h.identity⟩⟩

theorem State.dup_ok {text : Option Text} {st : State lib} (h : (st.dup text).2.err.error = false) :
    st.err.error = false ∧ (st.dup text).1.isSome = true := by
  obtain ⟨hstart, hcopy⟩ := @dupText_ok text st.err h
  refine ⟨hstart, ?_⟩
  have hvalue : (st.dup text).1 = some (text.getD (lit "")) := hcopy
  rw [hvalue]
  rfl

theorem State.recordSite_ok {record : ToolEventRecord} {st : State lib}
    (h : (st.recordSite record).2.err.error = false) : st.err.error = false :=
  (internSite_tables record.fileName record.functionName record.lineNumber st).2 h

/-- A copied record owns its texts when no error was raised. -/
theorem copyRecord_parsed {record : ToolEventRecord} {event : ResourceEvent} {st : State lib}
    (hkind : record.recordKind ≠ .call ∧ record.recordKind ≠ .complete)
    (h : (copyRecord record event st).2.err.error = false) :
    (copyRecord record event st).1.Parsed := by
  rw [copyRecord] at h ⊢
  cases hrecord : record.recordKind with
  | fd =>
    dsimp only
    constructor <;> intro hmem <;> split at hmem <;> simp at hmem
  | alloc =>
    simp only [hrecord] at h ⊢
    obtain ⟨hnew, hnewPtr⟩ := State.dup_ok (State.recordSite_ok h)
    obtain ⟨-, hptr⟩ := State.dup_ok hnew
    constructor
    · exact fun _ => ⟨hptr, hnewPtr⟩
    · intro hmem
      cases hkind : record.allocKind <;> simp [hkind] at hmem
    · intro hmem
      cases hkind : record.allocKind <;> simp [hkind] at hmem
  | fork =>
    dsimp only
    constructor <;> intro hmem <;> simp at hmem
  | spawn =>
    simp only [hrecord] at h ⊢
    obtain ⟨-, htarget⟩ := State.dup_ok (State.recordSite_ok h)
    exact ⟨fun hmem => by simp at hmem, fun _ => htarget, fun hmem => by simp at hmem⟩
  | exec =>
    simp only [hrecord] at h ⊢
    obtain ⟨-, htarget⟩ := State.dup_ok (State.recordSite_ok h)
    exact ⟨fun hmem => by simp at hmem, fun _ => htarget, fun hmem => by simp at hmem⟩
  | execFail =>
    simp only [hrecord] at h ⊢
    obtain ⟨-, htarget⟩ := State.dup_ok (State.recordSite_ok h)
    exact ⟨fun hmem => by simp at hmem, fun _ => htarget, fun hmem => by simp at hmem⟩
  | resource =>
    simp only [hrecord] at h ⊢
    obtain ⟨hrelated, -⟩ := State.dup_ok (State.recordSite_ok h)
    have hid : ((st.dup record.resourceClass).2.dup record.resourceId).2.err.error = false := by
      cases hsome : record.relatedId with
      | none => simpa only [hsome] using hrelated
      | some id =>
        simp only [hsome] at hrelated
        exact (State.dup_ok hrelated).1
    obtain ⟨hclassOk, hidSome⟩ := State.dup_ok hid
    obtain ⟨-, hclass⟩ := State.dup_ok hclassOk
    exact ⟨fun hmem => by simp at hmem, fun hmem => by simp at hmem, fun _ => ⟨hclass, hidSome⟩⟩
  | call => exact absurd hrecord hkind.1
  | complete => exact absurd hrecord hkind.2

/-- Every event the parser accepts owns its texts. -/
theorem parseResourceLine_parsed (line : List UInt8) (sequence : Nat) (st : State lib)
    (h : (parseResourceLine line sequence st).1 = .ok) :
    (parseResourceLine line sequence st).2.1.Parsed := by
  rw [parseResourceLine] at h ⊢
  generalize lib.parseLine line = parsed at h ⊢
  obtain ⟨status, record⟩ := parsed
  dsimp only at h ⊢
  split at h
  · by_cases hcomplete : record.recordKind = .complete
    · rw [if_pos hcomplete] at h
      cases h
    · by_cases hcall : record.recordKind = .call
      · rw [if_neg hcomplete, if_pos hcall] at h
        cases h
      · rw [if_neg hcomplete, if_neg hcall] at h
        simp only [if_neg hcomplete, if_neg hcall]
        split at h
        · cases h
        · rename_i haccepted
          rw [if_neg haccepted]
          apply copyRecord_parsed ⟨hcall, hcomplete⟩
          by_contra herror
          rw [if_pos (by simpa using herror)] at h
          cases h
  · rename_i hstatus
    exact absurd h hstatus

end P101Report
