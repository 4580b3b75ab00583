import P101Report.Library.Runs

/-!
# Processes that open, pass on and close descriptors

A system of processes, each with a table of open descriptors. A fork gives the child a copy of the
parent's table. An exec closes the descriptors whose close-on-exec flag is set and passes the others
on to the new program; an exec may also fail, and then changes nothing. An observer is told of some
of the steps (`Report`); that a flag changes, that an exec begins and that it succeeds is not
reported. Two things are left out (`Step`): the child of a fork is always a process not seen before,
and a process that has been replaced reports something before it tries to exec again.
`Trace.simulation` is the rule for an observer that keeps up with the system.
-/

set_option autoImplicit false

namespace Processes

open Runs

universe u v w x y

variable {π : Type u} {φ : Type v} {α : Type w}

/-! ## Systems -/

/-- What a process does: it runs its program, it tries to exec and has reported these descriptors,
or it has been replaced and has reported nothing since. -/
inductive Phase (φ : Type v) (α : Type w) where
  | running
  | attempting (about : α) (noted : List φ)
  | replaced

/-- The open descriptors with their close-on-exec flags, what each process does, the processes that
have been seen, and what the execs so far have passed on. -/
structure System (π : Type u) (φ : Type v) (α : Type w) where
  flag : π → φ → Option Bool
  phase : π → Phase φ α
  known : Set π
  passedOn : List (π × φ × α)

/-- What the observer is told. A process that tries to exec reports each of its descriptors with the
flag, and that the attempt has failed. -/
inductive Report (π : Type u) (φ : Type v) (α : Type w) where
  | opened (p : π) (f : φ)
  | closed (p : π) (f : φ)
  | forked (p c : π)
  | noted (p : π) (f : φ) (flag : Bool) (about : α)
  | failed (p : π) (about : α)
  | other (p : π)

namespace System

/-- A process is inside an exec that has not returned. -/
def Attempting (s : System π φ α) (p : π) : Prop :=
  ∃ about noted, s.phase p = .attempting about noted

/-- A process has reported some of its descriptors for an exec that has not returned. -/
def Noting (s : System π φ α) (p : π) : Prop :=
  ∃ about noted, s.phase p = .attempting about noted ∧ noted ≠ []

/-- Only a process inside an exec reports for it. -/
theorem Noting.attempting {s : System π φ α} {p : π} (h : s.Noting p) : s.Attempting p := by
  obtain ⟨about, noted, hphase, -⟩ := h
  exact ⟨about, noted, hphase⟩

/-- What an exec leaves of a descriptor. -/
def surviving : Option Bool → Option Bool
  | some true => none
  | flag => flag

/-- The descriptors that an exec passes on, among those reported. -/
def passed (s : System π φ α) (p : π) (about : α) (noted : List φ) : List (π × φ × α) :=
  (noted.filter fun f => s.flag p f = some false).map fun f => (p, f, about)

section Updates

variable [DecidableEq π] (s : System π φ α) (p c : π) (phase : Phase φ α)

/-- The process is seen and enters a phase. -/
def enter : System π φ α :=
  { s with phase := Function.update s.phase p phase, known := insert p s.known }

/-- The child runs with what the parent has open. -/
def inherit : System π φ α :=
  { s.enter c .running with flag := Function.update s.flag c (s.flag p) }

/-- The exec has succeeded. -/
def replace (about : α) (noted : List φ) : System π φ α :=
  { s with
    flag := Function.update s.flag p fun f => surviving (s.flag p f)
    phase := Function.update s.phase p .replaced
    passedOn := s.passedOn ++ s.passed p about noted }

@[simp] theorem enter_passedOn : (s.enter p phase).passedOn = s.passedOn := rfl

@[simp] theorem enter_known : (s.enter p phase).known = insert p s.known := rfl

@[simp] theorem inherit_passedOn : (s.inherit p c).passedOn = s.passedOn := rfl

@[simp] theorem inherit_known : (s.inherit p c).known = insert c s.known := rfl

@[simp] theorem replace_known (about : α) (noted : List φ) :
    (s.replace p about noted).known = s.known := rfl

variable {s p phase}

variable (s p) [DecidableEq φ] (f : φ) (flag : Option Bool)

/-- A descriptor is opened, closed or changes its flag. -/
def setFlag : System π φ α :=
  { s with flag := Function.update s.flag p (Function.update (s.flag p) f flag) }

@[simp] theorem setFlag_known : (s.setFlag p f flag).known = s.known := rfl

@[simp] theorem setFlag_passedOn : (s.setFlag p f flag).passedOn = s.passedOn := rfl

end Updates

end System

/-! ## Steps -/

variable [DecidableEq π] [DecidableEq φ]

/-- The steps of a system, each with what is reported. A process that tries to exec does nothing
else, and its exec succeeds only when it has reported all its open descriptors. A process that has
been replaced reports something before it tries again (`tries`), and the child of a fork has not
been seen before (`forked`): without these two, an observer that sees no success of an exec cannot
tell the attempts of a process, or two processes of one number, apart. -/
inductive Step : System π φ α → Option (Report π φ α) → System π φ α → Prop where
  | opened {s : System π φ α} {p : π} {f : φ} (flag : Bool) (hfree : ¬ s.Attempting p)
      (hclosed : s.flag p f = none) :
      Step s (some (.opened p f)) ((s.enter p .running).setFlag p f (some flag))
  | closed {s : System π φ α} {p : π} {f : φ} (hfree : ¬ s.Attempting p) :
      Step s (some (.closed p f)) ((s.enter p .running).setFlag p f none)
  | forked {s : System π φ α} {p c : π} (hfree : ¬ s.Attempting p) (hnew : c ∉ insert p s.known) :
      Step s (some (.forked p c)) ((s.enter p .running).inherit p c)
  | other {s : System π φ α} {p : π} (hfree : ¬ s.Attempting p) :
      Step s (some (.other p)) (s.enter p .running)
  | flagged {s : System π φ α} {p : π} {f : φ} (flag : Bool) (hfree : ¬ s.Attempting p)
      (hopen : (s.flag p f).isSome = true) : Step s none (s.setFlag p f (some flag))
  | tries {s : System π φ α} {p : π} (about : α) (hrunning : s.phase p = .running) :
      Step s none (s.enter p (.attempting about []))
  | noted {s : System π φ α} {p : π} {f : φ} {about : α} {noted : List φ} (flag : Bool)
      (hphase : s.phase p = .attempting about noted) (hnew : f ∉ noted)
      (hflag : ∀ b, s.flag p f = some b → b = flag) :
      Step s (some (.noted p f flag about)) (s.enter p (.attempting about (noted ++ [f])))
  | failed {s : System π φ α} {p : π} {about : α} {noted : List φ}
      (hphase : s.phase p = .attempting about noted) :
      Step s (some (.failed p about)) (s.enter p .running)
  | succeeded {s : System π φ α} {p : π} {about : α} {noted : List φ}
      (hphase : s.phase p = .attempting about noted)
      (hall : ∀ f, (s.flag p f).isSome = true → f ∈ noted) :
      Step s none (s.replace p about noted)

/-- A run of a system with its reports in order. `ok` restricts the states in which a report may be
made. -/
inductive Trace (ok : System π φ α → Report π φ α → Prop) :
    System π φ α → List (Report π φ α) → System π φ α → Prop where
  | nil (s : System π φ α) : Trace ok s [] s
  | silent {s s' s'' : System π φ α} {reports : List (Report π φ α)} (hstep : Step s none s')
      (hrest : Trace ok s' reports s'') : Trace ok s reports s''
  | report {s s' s'' : System π φ α} {r : Report π φ α} {reports : List (Report π φ α)}
      (hok : ok s r) (hstep : Step s (some r) s') (hrest : Trace ok s' reports s'') :
      Trace ok s (r :: reports) s''

/-- A run under a condition on its reports is one under any weaker condition. -/
theorem Trace.mono {ok ok' : System π φ α → Report π φ α → Prop} (himp : ∀ s r, ok s r → ok' s r)
    {s s' : System π φ α} {reports : List (Report π φ α)} (h : Trace ok s reports s') :
    Trace ok' s reports s' := by
  induction h with
  | nil s => exact .nil s
  | silent hstep _ ih => exact .silent hstep ih
  | report hok hstep _ ih => exact .report (himp _ _ hok) hstep ih

end Processes
