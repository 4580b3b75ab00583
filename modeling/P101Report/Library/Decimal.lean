import Mathlib

/-!
# Decimal numbers

The bytes of a number in decimal: digits without a leading zero, behind a minus sign when the number
is negative.
-/

set_option autoImplicit false

namespace Decimal

/-- The decimal digits of a natural number, as `%zu` prints them. -/
def decimalNat (n : Nat) : List UInt8 := (Nat.toDigits 10 n).map fun c => UInt8.ofNat c.toNat

/-- An integer in decimal, as `%ld` prints it. -/
def decimalInt (i : Int) : List UInt8 :=
  if i < 0 then 45 :: decimalNat i.natAbs else decimalNat i.natAbs

/-- The byte of a digit is a digit. -/
theorem digit_of_isDigit {c : Char} (h : c.isDigit = true) :
    (UInt8.ofNat c.toNat).toNat = c.toNat ∧ 48 ≤ c.toNat ∧ c.toNat ≤ 57 := by
  simp only [Char.isDigit, Bool.and_eq_true, decide_eq_true_eq] at h
  obtain ⟨hlow, hhigh⟩ := h
  have hlow' : 48 ≤ c.toNat := hlow
  have hhigh' : c.toNat ≤ 57 := hhigh
  refine ⟨?_, hlow', hhigh'⟩
  rw [UInt8.toNat_ofNat', Nat.mod_eq_of_lt (by omega)]

/-- The bytes of a decimal are digits. -/
theorem decimalNat_digit {n : Nat} {b : UInt8} (h : b ∈ decimalNat n) : 48 ≤ b ∧ b ≤ 57 := by
  obtain ⟨c, hc, rfl⟩ := List.mem_map.1 h
  obtain ⟨heq, hlow, hhigh⟩ :=
    digit_of_isDigit (Nat.isDigit_of_mem_toDigits (by decide) (by decide) hc)
  rw [UInt8.le_iff_toNat_le, UInt8.le_iff_toNat_le, heq]
  exact ⟨hlow, hhigh⟩

theorem decimalNat_zero : decimalNat 0 = [48] := rfl

/-- One digit more for each power of ten. -/
theorem decimalNat_of_ten_le {n : Nat} (h : 10 ≤ n) :
    decimalNat n = decimalNat (n / 10) ++ decimalNat (n % 10) := by
  have hlast : n % 10 < 10 := Nat.mod_lt n (by decide)
  rw [decimalNat, decimalNat, decimalNat, Nat.toDigits_of_base_le (by decide) h, List.map_append,
    Nat.toDigits_of_lt_base hlast]

/-- A positive number does not begin with `0`. -/
theorem decimalNat_head {n : Nat} (hn : 0 < n) :
    ∃ first rest, decimalNat n = first :: rest ∧ 49 ≤ first ∧ first ≤ 57 := by
  induction n using Nat.strong_induction_on with
  | _ n ih =>
    by_cases hsmall : n < 10
    · rw [decimalNat, Nat.toDigits_of_lt_base hsmall]
      refine ⟨_, [], rfl, ?_⟩
      interval_cases n <;> decide
    · obtain ⟨first, rest, heq, hfirst⟩ := ih (n / 10) (by omega) (by omega)
      rw [decimalNat_of_ten_le (by omega), heq]
      exact ⟨first, rest ++ decimalNat (n % 10), rfl, hfirst⟩

/-- The number that digits stand for. -/
def readNat (digits : List UInt8) : Nat := digits.foldl (fun n b => 10 * n + (b.toNat - 48)) 0

theorem readNat_decimalNat (n : Nat) : readNat (decimalNat n) = n := by
  have hdigits := @Nat.ofDigitChars_ten_toDigits n
  rw [Nat.ofDigitChars_eq_foldl] at hdigits
  rw [readNat, decimalNat, List.foldl_map]
  refine (List.foldl_ext _ _ 0 ?_).trans hdigits
  intro sofar c hc
  -- a digit and its byte have the same code
  rw [(digit_of_isDigit (Nat.isDigit_of_mem_toDigits (by decide) (by decide) hc)).1]
  rfl

/-- Different numbers have different digits. -/
theorem decimalNat_injective : Function.Injective decimalNat := by
  intro m n h
  rw [← readNat_decimalNat m, h, readNat_decimalNat]

theorem decimalInt_noNul (i : Int) : (0 : UInt8) ∉ decimalInt i := by
  have hnat : (0 : UInt8) ∉ decimalNat i.natAbs := by
    intro h
    exact absurd (decimalNat_digit h).1 (by decide)
  rw [decimalInt]
  split
  · rw [List.mem_cons]
    rintro (h | h)
    · exact absurd h (by decide)
    · exact hnat h
  · exact hnat

end Decimal
