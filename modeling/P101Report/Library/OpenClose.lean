import Mathlib

/-!
# Words of openings and closings

A word of openings (`true`) and closings (`false`) of one resource, read in two ways. As a set, the
resource is open or not, and a word is valid when each closing finds it open (`Valid`). As a count
(`Tally`), each opening adds one and each closing takes one away unless there is none, and is noted
only when it took one away. On valid words the counts never stop at zero, so the final count is that
of the openings less that of the closings (`live_add_count`). `live_iff` compares counting from an
open resource with counting from nothing and adding the resource at the end unless a closing was
noted.
-/

set_option autoImplicit false

namespace OpenClose

/-- How often the resource is live, and whether a closing was noted. -/
structure Tally where
  live : Nat
  closed : Bool
  deriving DecidableEq

/-- One opening or closing. -/
def Tally.step (s : Tally) : Bool → Tally
  | true => { s with live := s.live + 1 }
  | false => if s.live = 0 then s else ⟨s.live - 1, true⟩

/-- Each closing finds the resource open. -/
def Valid : Bool → List Bool → Prop
  | _, [] => True
  | isOpen, letter :: word => (letter = false → isOpen = true) ∧ Valid letter word

variable {isOpen : Bool} {s : Tally} {word : List Bool}

/-- On a valid word every closing takes one away. -/
theorem live_add_count (hvalid : Valid isOpen word) (hopen : isOpen = true → 0 < s.live) :
    (word.foldl Tally.step s).live + word.count false = s.live + word.count true := by
  induction word generalizing isOpen s with
  | nil => rfl
  | cons letter rest ih =>
    obtain ⟨hletter, hrest⟩ := hvalid
    rw [List.foldl_cons]
    cases letter with
    | true =>
      have hcount := @ih true (s.step true) hrest fun _ => Nat.succ_pos _
      simp only [Tally.step] at hcount
      simp only [List.count_cons, Tally.step]
      simp
      omega
    | false =>
      have hlive := hopen (hletter rfl)
      have hstep : s.step false = ⟨s.live - 1, true⟩ := by
        rw [Tally.step, if_neg (by omega)]
      have hcount := @ih false (s.step false) hrest fun h => absurd h (by simp)
      rw [hstep] at hcount ⊢
      simp only [List.count_cons]
      simp at hcount ⊢
      omega

/-- On a valid word every closing is noted. -/
theorem closed_iff (hvalid : Valid isOpen word) (hopen : isOpen = true → 0 < s.live) :
    (word.foldl Tally.step s).closed = true ↔ s.closed = true ∨ 0 < word.count false := by
  induction word generalizing isOpen s with
  | nil => simp
  | cons letter rest ih =>
    obtain ⟨hletter, hrest⟩ := hvalid
    rw [List.foldl_cons]
    cases letter with
    | true =>
      rw [@ih true (s.step true) hrest fun _ => Nat.succ_pos _]
      simp [Tally.step]
    | false =>
      have hlive := hopen (hletter rfl)
      have hstep : s.step false = ⟨s.live - 1, true⟩ := by
        rw [Tally.step, if_neg (by omega)]
      rw [@ih false (s.step false) hrest fun h => absurd h (by simp), hstep]
      simp

/-- A valid word from a closed resource starts with an opening. -/
theorem count_true_pos (hvalid : Valid false word) (hne : word ≠ []) : 0 < word.count true := by
  cases word with
  | nil => exact absurd rfl hne
  | cons letter rest =>
    cases letter with
    | true => simp
    | false => exact absurd (hvalid.1 rfl) (by simp)

/-- Counting from an open resource and counting from nothing with the resource added at the end
agree except on two kinds of words: a single closing, and a word that starts with an opening and has
as many closings as openings. -/
theorem live_iff (hvalid : Valid true word) :
    (0 < (word.foldl Tally.step ⟨1, false⟩).live ↔
      0 < (word.foldl Tally.step ⟨0, false⟩).live ∨
        (word.foldl Tally.step ⟨0, false⟩).closed = false) ↔
      word ≠ [false] ∧ ¬ (word.head? = some true ∧ word.count true = word.count false) := by
  have hfirst := @live_add_count true ⟨1, false⟩ word hvalid fun _ => Nat.one_pos
  cases word with
  | nil => simp
  | cons letter rest =>
    obtain ⟨-, hrest⟩ := hvalid
    cases letter with
    | true =>
      have hcount := @live_add_count true ⟨1, false⟩ rest hrest fun _ => Nat.one_pos
      have hclosed := @closed_iff true ⟨1, false⟩ rest hrest fun _ => Nat.one_pos
      have hafter : (true :: rest).foldl Tally.step ⟨0, false⟩ = rest.foldl Tally.step ⟨1, false⟩ :=
        rfl
      have htrue : (true :: rest).count true = rest.count true + 1 := List.count_cons_self
      have hfalse : (true :: rest).count false = rest.count false :=
        List.count_cons_of_ne (by decide)
      have hshape : (true :: rest) ≠ [false] ∧ (true :: rest).head? = some true := by simp
      rw [htrue, hfalse] at hfirst
      rw [← Bool.not_eq_true, hafter, hclosed, htrue, hfalse]
      simp only [hshape, ne_eq, not_false_eq_true, true_and, Bool.false_eq_true, false_or]
      dsimp only at hfirst hcount
      omega
    | false =>
      have hcount := @live_add_count false ⟨0, false⟩ rest hrest fun h => absurd h (by simp)
      have hclosed := @closed_iff false ⟨0, false⟩ rest hrest fun h => absurd h (by simp)
      have hafter : (false :: rest).foldl Tally.step ⟨0, false⟩ =
          rest.foldl Tally.step ⟨0, false⟩ := rfl
      have htrue : (false :: rest).count true = rest.count true :=
        List.count_cons_of_ne (by decide)
      have hfalse : (false :: rest).count false = rest.count false + 1 := List.count_cons_self
      have hhead : (false :: rest).head? ≠ some true := by simp
      rw [htrue, hfalse] at hfirst
      rw [← Bool.not_eq_true, hafter, hclosed, htrue, hfalse]
      simp only [hhead, ne_eq, false_and, not_false_eq_true, and_true, Bool.false_eq_true,
        false_or]
      dsimp only at hfirst hcount
      by_cases hnil : rest = []
      · subst hnil
        simp only [List.count_nil] at hfirst hcount ⊢
        simp only [not_true_eq_false, iff_false]
        omega
      · have hpos := count_true_pos hrest hnil
        have hshape : ¬ (false :: rest) = [false] := by simpa using hnil
        simp only [hshape, not_false_eq_true, iff_true]
        omega

end OpenClose
