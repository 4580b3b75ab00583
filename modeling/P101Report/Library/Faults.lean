import Mathlib

/-!
# Computations that report their faults

A world decides beforehand which of its operations fail. Calming a world takes the faults still to
come away. A computation from one world to another is transparent when, having ended without a
report, it did what it does in the calm world: no fault changes a result in silence. A world with a
value beside it is a world again (`World.returning`), so that one notion covers computations with
and without a result.

Transparent computations compose (`Transparent.comp`, `Transparent.bind`), stop at the first report
(`Transparent.unlessFailed`) and fold over a list (`Transparent.foldl`).
-/

set_option autoImplicit false

namespace Faults

universe u v w x

/-- How faults are taken away, and when one has been reported. -/
structure World (σ : Type u) where
  calm : σ → σ
  failed : σ → Prop
  failed_calm : ∀ s, failed (calm s) ↔ failed s

variable {σ : Type u} {τ : Type v} {υ : Type w} {α : Type x}

/-- A value beside a world. -/
def World.returning (W : World σ) (α : Type x) : World (α × σ) where
  calm r := (r.1, W.calm r.2)
  failed r := W.failed r.2
  failed_calm r := W.failed_calm r.2

/-- A computation that ends without a report began without one, and does what it does in the calm
world. -/
def Transparent (W : World σ) (V : World τ) (f : σ → τ) : Prop :=
  ∀ s, ¬ V.failed (f s) → ¬ W.failed s ∧ f (W.calm s) = V.calm (f s)

namespace Transparent

variable {W : World σ} {V : World τ} {U : World υ}

theorem id : Transparent W W fun s => s := fun _ h => ⟨h, rfl⟩

/-- One computation after another. -/
theorem comp {f : σ → τ} {g : τ → υ} (hf : Transparent W V f) (hg : Transparent V U g) :
    Transparent W U fun s => g (f s) := by
  intro s h
  obtain ⟨hmid, heqg⟩ := hg (f s) h
  obtain ⟨hstart, heqf⟩ := hf s hmid
  refine ⟨hstart, ?_⟩
  dsimp only
  rw [heqf, heqg]

/-- What begins in a calm world and reports nothing ends in one. -/
theorem stays_calm {f : σ → τ} (hf : Transparent W V f) {s : σ} (hcalm : W.calm s = s)
    (h : ¬ V.failed (f s)) : V.calm (f s) = f s := by
  rw [← (hf s h).2, hcalm]

theorem congr {f g : σ → τ} (hg : Transparent W V g) (heq : ∀ s, f s = g s) :
    Transparent W V f := by
  rw [funext heq]
  exact hg

/-- A computation that begins with a value beside its world. -/
theorem given {k : α → σ → τ} (hk : ∀ a, Transparent W V (k a)) :
    Transparent (W.returning α) V fun r => k r.1 r.2 :=
  fun r h => hk r.1 r.2 h

/-- A computation that uses what an earlier one has returned. -/
theorem bind {m : σ → α × τ} {k : α → τ → υ} (hm : Transparent W (V.returning α) m)
    (hk : ∀ a, Transparent V U (k a)) : Transparent W U fun s => k (m s).1 (m s).2 :=
  hm.comp (given hk)

/-- What a computation that ended without a report does in the calm world. -/
theorem of_eq {m : σ → α × τ} (hm : Transparent W (V.returning α) m) {s : σ} {a : α} {t : τ}
    (heq : m s = (a, t)) (h : ¬ V.failed t) : ¬ W.failed s ∧ m (W.calm s) = (a, V.calm t) := by
  have hresult := hm s (by rw [heq]; exact h)
  rw [heq] at hresult
  exact hresult

/-- A computation that also returns a value the faults do not change. -/
theorem returning {f : σ → τ} (hf : Transparent W V f) (a : α) :
    Transparent W (V.returning α) fun s => (a, f s) := by
  intro s h
  obtain ⟨hstart, heq⟩ := hf s h
  refine ⟨hstart, ?_⟩
  dsimp only
  rw [heq]
  rfl

/-- What a computation has returned, made into another value. -/
theorem map {β : Type x} {m : σ → α × τ} (hm : Transparent W (V.returning α) m) (g : α → β) :
    Transparent W (V.returning β) fun s => (g (m s).1, (m s).2) :=
  hm.bind fun a => id.returning (g a)

/-- A computation that only fails once a fault has been reported. -/
theorem ifFailed [DecidablePred W.failed] {f g : σ → τ} (hf : ∀ s, W.failed s → V.failed (f s))
    (hg : Transparent W V g) : Transparent W V fun s => if W.failed s then f s else g s := by
  intro s h
  dsimp only at h ⊢
  by_cases hfailed : W.failed s
  · rw [if_pos hfailed] at h
    exact absurd (hf s hfailed) h
  · have hcalm : ¬ W.failed (W.calm s) := fun hc => hfailed ((W.failed_calm s).1 hc)
    rw [if_neg hfailed] at h
    rw [if_neg hcalm, if_neg hfailed]
    exact hg s h

/-- A step that is not done once a fault has been reported. -/
theorem unlessFailed [DecidablePred W.failed] {f : σ → σ} (hf : Transparent W W f) :
    Transparent W W fun s => if W.failed s then s else f s :=
  ifFailed (fun _ h => h) hf

/-- A step for each element of a list. -/
theorem foldl {step : σ → α → σ} (hstep : ∀ a, Transparent W W fun s => step s a)
    (l : List α) : Transparent W W fun s => l.foldl step s := by
  induction l with
  | nil => exact id
  | cons a rest ih => exact (hstep a).comp ih

end Transparent

end Faults
