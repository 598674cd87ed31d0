import Mathlib.Algebra.Order.Field.Rat
import Mathlib.Algebra.Order.Floor.Ring
import Mathlib.Algebra.Order.Group.Abs
import Mathlib.Data.Rat.Floor

/-!
# Numbers with infinities

The numbers of the source language: the finite ones, which are exact here, the two infinities and
the one that is not a number.  An operation whose argument is not a number gives none either, and
a comparison with it is false.
-/

namespace AlpacaTrading

/-- A finite number, an infinity, or none of them. -/
inductive ExtendedNumber where
  | finite (v : ℚ)
  | positiveInfinity
  | negativeInfinity
  | nan
deriving DecidableEq

namespace ExtendedNumber

/-! ## Differences -/

/-- `left - right`. -/
def sub : ExtendedNumber → ExtendedNumber → ExtendedNumber
  | nan, _ => nan
  | _, nan => nan
  | finite x, finite y => finite (x - y)
  | finite _, positiveInfinity => negativeInfinity
  | finite _, negativeInfinity => positiveInfinity
  | positiveInfinity, positiveInfinity => nan
  | positiveInfinity, _ => positiveInfinity
  | negativeInfinity, negativeInfinity => nan
  | negativeInfinity, _ => negativeInfinity

/-- `left || right`. -/
def or (left right : ExtendedNumber) : ExtendedNumber :=
  if left = finite 0 ∨ left = nan then right else left

/-- What a sort takes the result of a comparison for: the left element may come first. -/
def AtMostZero : ExtendedNumber → Prop
  | finite v => v ≤ 0
  | positiveInfinity => False
  | negativeInfinity => True
  | nan => True

instance : DecidablePred AtMostZero
  | finite v => inferInstanceAs (Decidable (v ≤ 0))
  | positiveInfinity => isFalse not_false
  | negativeInfinity => isTrue trivial
  | nan => isTrue trivial

theorem finite_or {v : ℚ} (h : v ≠ 0) (right : ExtendedNumber) :
    (finite v).or right = .finite v := by
  rw [or, if_neg]
  rintro (hv | hv)
  · exact h (finite.inj hv)
  · cases hv

/-! ## Order -/

/-- `left <= right`. -/
def le : ExtendedNumber → ExtendedNumber → Bool
  | nan, _ => false
  | _, nan => false
  | finite x, finite y => decide (x ≤ y)
  | negativeInfinity, _ => true
  | _, positiveInfinity => true
  | positiveInfinity, _ => false
  | _, negativeInfinity => false

/-- `left < right`. -/
def lt : ExtendedNumber → ExtendedNumber → Bool
  | nan, _ => false
  | _, nan => false
  | left, right => !le right left

/-- `Math.max`. -/
def max : ExtendedNumber → ExtendedNumber → ExtendedNumber
  | nan, _ => nan
  | _, nan => nan
  | left, right => if le left right then right else left

/-- `Math.min`. -/
def min : ExtendedNumber → ExtendedNumber → ExtendedNumber
  | nan, _ => nan
  | _, nan => nan
  | left, right => if le left right then left else right

/-! ## Arithmetic -/

/-- A rounding of the finite numbers. -/
def mapFinite (f : ℚ → ℚ) : ExtendedNumber → ExtendedNumber
  | finite x => finite (f x)
  | positiveInfinity => positiveInfinity
  | negativeInfinity => negativeInfinity
  | nan => nan

/-- `Math.floor`. -/
def floor : ExtendedNumber → ExtendedNumber := mapFinite fun x ↦ ⌊x⌋

/-- `Math.round`. -/
def round : ExtendedNumber → ExtendedNumber := mapFinite fun x ↦ ⌊x + 1 / 2⌋

/-- `left + right`. -/
def add : ExtendedNumber → ExtendedNumber → ExtendedNumber
  | nan, _ => nan
  | _, nan => nan
  | finite x, finite y => finite (x + y)
  | finite _, right => right
  | left, finite _ => left
  | positiveInfinity, positiveInfinity => positiveInfinity
  | negativeInfinity, negativeInfinity => negativeInfinity
  | _, _ => nan

/-- The infinity of the sign of a number. -/
def infinityOf (x : ℚ) : ExtendedNumber :=
  if x = 0 then nan else if 0 < x then positiveInfinity else negativeInfinity

/-- `left * right`. -/
def mul : ExtendedNumber → ExtendedNumber → ExtendedNumber
  | nan, _ => nan
  | _, nan => nan
  | finite x, finite y => finite (x * y)
  | finite x, positiveInfinity => infinityOf x
  | finite x, negativeInfinity => infinityOf (-x)
  | positiveInfinity, finite y => infinityOf y
  | negativeInfinity, finite y => infinityOf (-y)
  | positiveInfinity, positiveInfinity => positiveInfinity
  | negativeInfinity, negativeInfinity => positiveInfinity
  | _, _ => negativeInfinity

/-- `left / right`. -/
def div : ExtendedNumber → ExtendedNumber → ExtendedNumber
  | nan, _ => nan
  | _, nan => nan
  | finite x, finite y => if y = 0 then infinityOf x else finite (x / y)
  | finite _, _ => finite 0
  | positiveInfinity, finite y => if 0 ≤ y then positiveInfinity else negativeInfinity
  | negativeInfinity, finite y => if 0 ≤ y then negativeInfinity else positiveInfinity
  | _, _ => nan

/-- `Math.abs`. -/
def abs : ExtendedNumber → ExtendedNumber
  | finite x => finite |x|
  | nan => nan
  | _ => positiveInfinity

/-- The value, if it is finite. -/
def value : ExtendedNumber → Option ℚ
  | finite x => some x
  | _ => none

instance : Zero ExtendedNumber := ⟨finite 0⟩
instance : Add ExtendedNumber := ⟨add⟩
instance : Sub ExtendedNumber := ⟨sub⟩
instance : Mul ExtendedNumber := ⟨mul⟩
instance : Div ExtendedNumber := ⟨div⟩
instance : NatCast ExtendedNumber := ⟨fun n ↦ finite n⟩

@[simp] theorem value_finite (x : ℚ) : (finite x).value = some x := rfl

@[simp] theorem finite_add (x y : ℚ) : finite x + finite y = finite (x + y) := rfl

section Bounds

variable {a b : ExtendedNumber} {x : ℚ}

@[simp] theorem le_nan : le a nan = false := by
  rcases a <;> rfl

theorem max_eq_nan : max a b = nan ↔ a = nan ∨ b = nan := by
  rcases a with x | - | - | - <;> rcases b with y | - | - | - <;> simp [max, le]
  split_ifs <;> simp

theorem min_eq_nan : min a b = nan ↔ a = nan ∨ b = nan := by
  rcases a with x | - | - | - <;> rcases b with y | - | - | - <;> simp [min, le]
  split_ifs <;> simp

/-- Two numbers that are ones compare one way or the other. -/
theorem lt_of_le_eq_false {a b : ExtendedNumber} (ha : a ≠ nan) (hb : b ≠ nan)
    (h : le a b = false) : lt b a = true := by
  rcases a with x | - | - | - <;> rcases b with y | - | - | - <;> simp_all [lt]

theorem floor_eq_nan : floor a = nan ↔ a = nan := by
  rcases a with x | - | - | - <;> simp [floor, mapFinite]

/-- A number bounded below and above by finite ones is finite or none. -/
theorem exists_finite_of_clamped {lo hi : ℚ} (hlo : lo ≤ hi) (ha : a ≠ nan) :
    ∃ v, min (finite hi) (max (finite lo) a) = finite v ∧ lo ≤ v ∧ v ≤ hi := by
  rcases a with x | - | - | -
  · by_cases h : lo ≤ x
    · by_cases h' : hi ≤ x
      · exact ⟨hi, by simp [max, min, le, h, h'], hlo, le_refl _⟩
      · exact ⟨x, by simp [max, min, le, h, h'], h, le_of_not_ge h'⟩
    · refine ⟨lo, ?_, le_refl _, hlo⟩
      by_cases h' : hi ≤ lo
      · simp [max, min, le, h, le_antisymm h' hlo]
      · simp [max, min, le, h, h']
  · exact ⟨hi, by simp [max, min, le], hlo, le_refl _⟩
  · refine ⟨lo, ?_, le_refl _, hlo⟩
    by_cases h' : hi ≤ lo
    · simp [max, min, le, le_antisymm h' hlo]
    · simp [max, min, le, h']
  · exact absurd rfl ha

end Bounds

end ExtendedNumber

end AlpacaTrading
