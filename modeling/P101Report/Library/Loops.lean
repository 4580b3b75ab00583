import Mathlib

/-!
# Loops of passes

A `while` loop over a state is a function that says what the next pass does: the loop stops, the
pass faults (it reads outside an array, or counts below zero), or it goes on with a new state.
`Halts pass s r` is a run of the loop from `s` that stops at `r`, with no bound on the number of
passes and without a faulting one. A loop is deterministic, so there is one such `r`
(`Halts.unique`), and a loop whose passes keep an invariant and lower a measure has one
(`exists_halts`).
-/

set_option autoImplicit false

namespace Loops

universe u

variable {σ : Type u}

/-- What a loop does next. -/
inductive Pass (σ : Type u)
  | stop
  | fault
  | next (s : σ)

/-- The loop started at `s` stops at `r`. -/
inductive Halts (pass : σ → Pass σ) : σ → σ → Prop
  | stop {s : σ} (h : pass s = .stop) : Halts pass s s
  | next {s s' r : σ} (h : pass s = .next s') (rest : Halts pass s' r) : Halts pass s r

variable {pass : σ → Pass σ} {s r : σ}

namespace Halts

theorem unique {r' : σ} (h : Halts pass s r) (h' : Halts pass s r') : r = r' := by
  induction h with
  | stop h =>
    cases h' with
    | stop _ => rfl
    | next hnext _ =>
      rw [h] at hnext
      cases hnext
  | next h _ ih =>
    cases h' with
    | stop hstop =>
      rw [h] at hstop
      cases hstop
    | next hnext rest' =>
      rw [h, Pass.next.injEq] at hnext
      subst hnext
      exact ih rest'

end Halts

/-- **Termination.** A loop whose passes keep an invariant, lower a measure and do not fault stops,
and the invariant holds there. -/
theorem exists_halts {inv : σ → Prop} (measure : σ → Nat)
    (hfault : ∀ s, inv s → pass s ≠ .fault)
    (hpass : ∀ s s', inv s → pass s = .next s' → inv s' ∧ measure s' < measure s)
    (hstart : inv s) : ∃ r, Halts pass s r ∧ inv r := by
  induction hn : measure s using Nat.strong_induction_on generalizing s with
  | h n ih =>
    cases hs : pass s with
    | stop => exact ⟨s, .stop hs, hstart⟩
    | fault => exact absurd hs (hfault s hstart)
    | next s' =>
      obtain ⟨hinv, hlt⟩ := hpass s s' hstart hs
      obtain ⟨r, hrest, hr⟩ := ih (measure s') (hn ▸ hlt) hinv rfl
      exact ⟨r, .next hs hrest, hr⟩

end Loops
