import Mathlib

/-!
# Runs of a step function

A log is folded over a state by a step function. `EveryStep` is a condition on each step of the run:
it sees the state before the step and the record. Two rules follow from what one step does: an
invariant kept by every step that meets the condition holds before every step and after the run
(`EveryStep.invariant`, `EveryStep.strengthen`), and a state in which only some records matter
follows a run over those records alone (`EveryStep.filter_simulation`).
-/

set_option autoImplicit false

namespace Runs

universe u v w

variable {σ : Type u} {τ : Type w} {α : Type v}

/-- `ok` holds of the state before each step and of the record of the step. -/
def EveryStep (step : σ → α → σ) (ok : σ → α → Prop) : σ → List α → Prop
  | _, [] => True
  | s, a :: log => ok s a ∧ EveryStep step ok (step s a) log

namespace EveryStep

/-- The condition can be checked along the run. -/
def check (step : σ → α → σ) (ok : σ → α → Prop) [∀ s a, Decidable (ok s a)] :
    (s : σ) → (log : List α) → Decidable (EveryStep step ok s log)
  | _, [] => inferInstanceAs (Decidable True)
  | s, a :: log =>
    have := check step ok (step s a) log
    inferInstanceAs (Decidable (_ ∧ _))

instance {step : σ → α → σ} {ok : σ → α → Prop} [∀ s a, Decidable (ok s a)] (s : σ)
    (log : List α) : Decidable (EveryStep step ok s log) := check step ok s log

variable {step : σ → α → σ} {ok : σ → α → Prop}

@[simp] theorem nil (s : σ) : EveryStep step ok s [] ↔ True := Iff.rfl

@[simp] theorem cons (s : σ) (a : α) (log : List α) :
    EveryStep step ok s (a :: log) ↔ ok s a ∧ EveryStep step ok (step s a) log := Iff.rfl

theorem append (s : σ) (pre post : List α) :
    EveryStep step ok s (pre ++ post) ↔
      EveryStep step ok s pre ∧ EveryStep step ok (pre.foldl step s) post := by
  induction pre generalizing s with
  | nil => simp
  | cons a rest ih => simp [ih, and_assoc]

/-- Every step is a step after some beginning of the log. -/
theorem iff_splits (s : σ) (log : List α) :
    EveryStep step ok s log ↔
      ∀ pre a post, log = pre ++ a :: post → ok (pre.foldl step s) a := by
  induction log generalizing s with
  | nil => simp
  | cons b rest ih =>
    rw [cons, ih]
    constructor
    · rintro ⟨hfirst, hrest⟩ pre a post heq
      cases pre with
      | nil =>
        obtain ⟨rfl, rfl⟩ := List.cons.inj heq
        exact hfirst
      | cons c pre =>
        obtain ⟨rfl, rfl⟩ := List.cons.inj heq
        exact hrest pre a post rfl
    · intro h
      refine ⟨h [] b rest rfl, ?_⟩
      intro pre a post heq
      exact h (b :: pre) a post (by rw [heq, List.cons_append])

theorem and {ok' : σ → α → Prop} {s : σ} {log : List α} (h : EveryStep step ok s log)
    (h' : EveryStep step ok' s log) : EveryStep step (fun s a => ok s a ∧ ok' s a) s log := by
  induction log generalizing s with
  | nil => trivial
  | cons a rest ih => exact ⟨⟨h.1, h'.1⟩, ih h.2 h'.2⟩

theorem imp {ok' : σ → α → Prop} (himp : ∀ s a, ok s a → ok' s a) {s : σ} {log : List α}
    (h : EveryStep step ok s log) : EveryStep step ok' s log := by
  induction log generalizing s with
  | nil => trivial
  | cons a rest ih => exact ⟨himp s a h.1, ih h.2⟩

theorem of_forall_mem {p : α → Prop} {log : List α} (h : ∀ a ∈ log, p a) (s : σ) :
    EveryStep step (fun _ a => p a) s log := by
  induction log generalizing s with
  | nil => trivial
  | cons a rest ih => exact ⟨h a (by simp), ih (fun b hb => h b (by simp [hb])) (step s a)⟩

/-- A step that keeps an invariant under the condition keeps it along the run. -/
theorem invariant {inv : σ → Prop} (hstep : ∀ s a, ok s a → inv s → inv (step s a)) {s : σ}
    {log : List α} (hstart : inv s) (h : EveryStep step ok s log) : inv (log.foldl step s) := by
  induction log generalizing s with
  | nil => exact hstart
  | cons a rest ih => exact ih (hstep s a h.1 hstart) h.2

/-- The invariant holds before every step. -/
theorem strengthen {inv : σ → Prop} (hstep : ∀ s a, ok s a → inv s → inv (step s a)) {s : σ}
    {log : List α} (hstart : inv s) (h : EveryStep step ok s log) :
    EveryStep step (fun s a => ok s a ∧ inv s) s log := by
  induction log generalizing s with
  | nil => trivial
  | cons a rest ih => exact ⟨⟨h.1, hstart⟩, ih (hstep s a h.1 hstart) h.2⟩

/-- When the other records stutter, a run is simulated by a run over the selected records. -/
theorem filter_simulation {R : σ → τ → Prop} {step' : τ → α → τ} {own : α → Bool}
    (hown : ∀ s t a, own a = true → ok s a → R s t → R (step s a) (step' t a))
    (hother : ∀ s t a, own a = false → ok s a → R s t → R (step s a) t)
    {s : σ} {t : τ} {log : List α} (hstart : R s t) (h : EveryStep step ok s log) :
    R (log.foldl step s) ((log.filter own).foldl step' t) := by
  induction log generalizing s t with
  | nil => exact hstart
  | cons a rest ih =>
    cases ha : own a with
    | true =>
      rw [List.filter_cons_of_pos ha]
      exact ih (hown s t a ha h.1 hstart) h.2
    | false =>
      rw [List.filter_cons_of_neg (by simp [ha])]
      exact ih (hother s t a ha h.1 hstart) h.2

end EveryStep

end Runs
