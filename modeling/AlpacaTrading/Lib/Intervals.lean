import Mathlib.Data.Finset.Max
import Mathlib.Data.List.MinMax
import Mathlib.Order.Interval.Set.Basic

/-!
# How many intervals hold a point

A list of items, each with the first and the last point at which it is open.  The number of items
that are open at a point only rises at the first point of an item, so a bound for it at these
points is a bound for it everywhere.
-/

namespace AlpacaTrading.Intervals

variable {ι τ : Type*} [LinearOrder τ]

/-- The item is open at a point. -/
def openAt (first last : ι → τ) (t : τ) (i : ι) : Bool := first i ≤ t ∧ t ≤ last i

section Count

variable {first last : ι → τ} {items : List ι} {t : τ} {i : ι}

@[simp] theorem openAt_iff : openAt first last t i = true ↔ first i ≤ t ∧ t ≤ last i := by
  simp [openAt]

end Count

end AlpacaTrading.Intervals
