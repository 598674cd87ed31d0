import Mathlib.Algebra.Order.Group.Defs
import Mathlib.Order.Bounds.Basic
import Mathlib.Algebra.Order.Group.Basic

/-!
# Moves of a path

A path is a family of values over ordered indices.  A move is what the value changes by from one
index to a later one, so the greatest move is the largest rise of the path, and the least move its
largest fall.  No move is larger than the distance from the bottom of the path to its top, and one
is as large only if the path goes from the bottom to the top in that order.
-/

namespace AlpacaTrading.Path

variable {ι α : Type*} [Preorder ι]

/-! ## Paths between their extremes -/

/-- The path goes from a least value to a greatest one, and from a greatest value to a least one. -/
def RunsBothWays [LE α] (r : ι → α) : Prop :=
  (∃ i j, i ≤ j ∧ (∀ k, r i ≤ r k) ∧ ∀ k, r k ≤ r j) ∧
    ∃ i j, i ≤ j ∧ (∀ k, r k ≤ r i) ∧ ∀ k, r j ≤ r k

section Order

variable {β : Type*} [LE α] [LE β] {r : ι → α} {s : ι → β}

/-- Only the order of the values counts. -/
theorem runsBothWays_congr (h : ∀ i j, r i ≤ r j ↔ s i ≤ s j) :
    RunsBothWays r ↔ RunsBothWays s := by
  rw [RunsBothWays, RunsBothWays]
  simp only [h]

/-- The reverse order does as well. -/
theorem runsBothWays_congr_reverse (h : ∀ i j, r i ≤ r j ↔ s j ≤ s i) :
    RunsBothWays r ↔ RunsBothWays s := by
  rw [RunsBothWays, RunsBothWays]
  simp only [h]
  exact and_comm

end Order

/-! ## Moves -/

variable [AddCommGroup α] [LinearOrder α]

/-- The differences between a value and an earlier one. -/
def moves (r : ι → α) : Set α := {x | ∃ i j, i ≤ j ∧ x = r j - r i}

/-- The first index with a value. -/
def FirstAt (r : ι → α) (v : α) (i : ι) : Prop := r i = v ∧ ∀ j, j < i → r j ≠ v

section Range

variable [IsOrderedAddMonoid α] {r : ι → α} {top bottom : α}

theorem moves_le (htop : ∀ i, r i ≤ top) (hbottom : ∀ i, bottom ≤ r i) {x : α}
    (h : x ∈ moves r) : bottom - top ≤ x ∧ x ≤ top - bottom := by
  obtain ⟨i, j, -, rfl⟩ := h
  exact ⟨sub_le_sub (hbottom j) (htop i), sub_le_sub (htop j) (hbottom i)⟩

/-- Two values as far apart as the bottom and the top are the bottom and the top. -/
theorem sub_eq_range_iff {a b : α} (ha : bottom ≤ a) (hb : b ≤ top) :
    b - a = top - bottom ↔ a = bottom ∧ b = top := by
  constructor
  · intro h
    rw [sub_eq_sub_iff_add_eq_add] at h
    obtain ⟨hb, ha⟩ := (add_eq_add_iff_eq_and_eq hb ha).1 h
    exact ⟨ha.symm, hb⟩
  · rintro ⟨rfl, rfl⟩
    rfl

/-- **The largest rise is the range exactly when the path rises from the bottom to the top.** -/
theorem isGreatest_moves_iff (htop : ∀ i, r i ≤ top) (hbottom : ∀ i, bottom ≤ r i) :
    IsGreatest (moves r) (top - bottom) ↔ ∃ i j, i ≤ j ∧ r i = bottom ∧ r j = top := by
  constructor
  · rintro ⟨⟨i, j, hij, h⟩, -⟩
    exact ⟨i, j, hij, (sub_eq_range_iff (hbottom i) (htop j)).1 h.symm⟩
  · rintro ⟨i, j, hij, h⟩
    exact ⟨⟨i, j, hij, ((sub_eq_range_iff (hbottom i) (htop j)).2 h).symm⟩,
      fun x hx ↦ (moves_le htop hbottom hx).2⟩

/-- **The largest fall is the range exactly when the path falls from the top to the bottom.** -/
theorem isLeast_moves_iff (htop : ∀ i, r i ≤ top) (hbottom : ∀ i, bottom ≤ r i) :
    IsLeast (moves r) (bottom - top) ↔ ∃ i j, i ≤ j ∧ r i = top ∧ r j = bottom := by
  have hflip : ∀ i j, bottom - top = r j - r i ↔ r i - r j = top - bottom := by
    intro i j
    rw [← neg_sub top bottom, ← neg_sub (r i) (r j), neg_inj, eq_comm]
  constructor
  · rintro ⟨⟨i, j, hij, h⟩, -⟩
    exact ⟨i, j, hij, ((sub_eq_range_iff (hbottom j) (htop i)).1 ((hflip i j).1 h)).symm⟩
  · rintro ⟨i, j, hij, h⟩
    exact ⟨⟨i, j, hij, (hflip i j).2 ((sub_eq_range_iff (hbottom j) (htop i)).2 h.symm)⟩,
      fun x hx ↦ (moves_le htop hbottom hx).1⟩

end Range

section RunsBothWays

variable {r : ι → α}

/-- **The range is the largest rise and the largest fall exactly when the path runs both ways.** -/
theorem runsBothWays_iff [IsOrderedAddMonoid α] {top bottom : α}
    (htop : IsGreatest (Set.range r) top) (hbottom : IsLeast (Set.range r) bottom) :
    RunsBothWays r ↔
      IsGreatest (moves r) (top - bottom) ∧ IsLeast (moves r) (bottom - top) := by
  have hle : ∀ i, r i ≤ top := fun i ↦ htop.2 ⟨i, rfl⟩
  have hge : ∀ i, bottom ≤ r i := fun i ↦ hbottom.2 ⟨i, rfl⟩
  have hgreatest : ∀ i, (∀ k, r k ≤ r i) ↔ r i = top := by
    intro i
    constructor
    · intro h
      obtain ⟨k, hk⟩ := htop.1
      exact le_antisymm (hle i) (hk ▸ h k)
    · intro h k
      exact h ▸ hle k
  have hleast : ∀ i, (∀ k, r i ≤ r k) ↔ r i = bottom := by
    intro i
    constructor
    · intro h
      obtain ⟨k, hk⟩ := hbottom.1
      exact le_antisymm (hk ▸ h k) (hge i)
    · intro h k
      exact h ▸ hge k
  rw [isGreatest_moves_iff hle hge, isLeast_moves_iff hle hge, RunsBothWays]
  simp only [hgreatest, hleast]

end RunsBothWays

end AlpacaTrading.Path
