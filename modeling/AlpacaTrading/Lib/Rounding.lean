import Mathlib.Data.Rat.Floor
import Mathlib.Algebra.Order.Floor.Ring
import Mathlib.Algebra.Order.BigOperators.Group.List
import Mathlib.Tactic.Linarith
import Mathlib.Tactic.Positivity
import Mathlib.Tactic.FieldSimp

/-!
# Rounding to a grid

Programs that count money round binary fractions to a fixed number of decimals, after a nudge that
makes up for the representation error.  Here the numbers are exact.  On a grid that is fine enough
for the nudge, rounding down never rounds up, and rounding to the nearest point of the grid keeps
its points and never passes one.
-/

namespace AlpacaTrading.Rounding

/-- The points of the grid with `n` points to the unit. -/
def OnGrid (n : ℕ) (q : ℚ) : Prop := ∃ k : ℤ, q = k / n

/-- Down to a multiple of `1 / n`, after the nudge. -/
def down (n : ℕ) (nudge q : ℚ) : ℚ := ⌊(q + nudge) * n⌋ / n

/-- To the nearest multiple of `1 / n`, halves up, after the nudge. -/
def nearest (n : ℕ) (nudge q : ℚ) : ℚ := ⌊(q + nudge) * n + 1 / 2⌋ / n

section Grid

variable {n : ℕ} {a b : ℚ}

theorem OnGrid.zero : OnGrid n 0 := ⟨0, by simp⟩

theorem OnGrid.add (ha : OnGrid n a) (hb : OnGrid n b) : OnGrid n (a + b) := by
  obtain ⟨k, rfl⟩ := ha
  obtain ⟨l, rfl⟩ := hb
  exact ⟨k + l, by rw [Int.cast_add, add_div]⟩

theorem OnGrid.sub (ha : OnGrid n a) (hb : OnGrid n b) : OnGrid n (a - b) := by
  obtain ⟨k, rfl⟩ := ha
  obtain ⟨l, rfl⟩ := hb
  exact ⟨k - l, by rw [Int.cast_sub, sub_div]⟩

theorem OnGrid.min (ha : OnGrid n a) (hb : OnGrid n b) : OnGrid n (min a b) := by
  rcases min_choice a b with h | h
  · rwa [h]
  · rwa [h]

theorem OnGrid.max (ha : OnGrid n a) (hb : OnGrid n b) : OnGrid n (max a b) := by
  rcases max_choice a b with h | h
  · rwa [h]
  · rwa [h]

theorem OnGrid.sum {l : List ℚ} (h : ∀ q ∈ l, OnGrid n q) : OnGrid n l.sum := by
  induction l with
  | nil => exact .zero
  | cons q l ih =>
    rw [List.sum_cons]
    exact (h q List.mem_cons_self).add (ih fun r hr ↦ h r (List.mem_cons_of_mem q hr))

/-- A coarser grid is part of a finer one. -/
theorem OnGrid.refine {d : ℕ} (hd : 0 < d) (ha : OnGrid n a) : OnGrid (n * d) a := by
  obtain ⟨k, rfl⟩ := ha
  have hd' : (d : ℚ) ≠ 0 := by exact_mod_cast hd.ne'
  refine ⟨k * d, ?_⟩
  rw [Int.cast_mul, Int.cast_natCast, Nat.cast_mul, mul_div_mul_right _ _ hd']

end Grid

section Rounding

variable {n : ℕ} {nudge q : ℚ}

theorem down_onGrid : OnGrid n (down n nudge q) := ⟨_, rfl⟩

theorem nearest_onGrid : OnGrid n (nearest n nudge q) := ⟨_, rfl⟩

theorem down_mono {r : ℚ} (h : q ≤ r) : down n nudge q ≤ down n nudge r := by
  have hn : (0 : ℚ) ≤ n := Nat.cast_nonneg n
  have hscaled : (q + nudge) * n ≤ (r + nudge) * n :=
    mul_le_mul_of_nonneg_right (by linarith) hn
  exact div_le_div_of_nonneg_right (by exact_mod_cast Int.floor_mono hscaled) hn

theorem down_nonneg (hq : 0 ≤ q) (hnudge : 0 ≤ nudge) : 0 ≤ down n nudge q := by
  have hfloor : 0 ≤ ⌊(q + nudge) * n⌋ := Int.floor_nonneg.2 (by positivity)
  exact div_nonneg (by exact_mod_cast hfloor) (Nat.cast_nonneg n)

/-- **Rounding down never rounds up** on a grid as fine as the nudge. -/
theorem down_le {d : ℕ} (hn : 0 < n) (hd : 0 < d) (hq : OnGrid (n * d) q)
    (hnudge : nudge * (n * d : ℕ) < 1) : down n nudge q ≤ q := by
  obtain ⟨k, rfl⟩ := hq
  have hn' : (0 : ℚ) < n := by exact_mod_cast hn
  have hd' : (0 : ℚ) < d := by exact_mod_cast hd
  rw [Nat.cast_mul] at hnudge ⊢
  -- The floor, in points of the fine grid, is below `k + 1`, hence at most `k`.
  have hfloor := Int.floor_le ((k / (n * d : ℚ) + nudge) * n)
  have hbelow : (⌊(k / (n * d : ℚ) + nudge) * n⌋ : ℚ) * d < k + 1 :=
    calc (⌊(k / (n * d : ℚ) + nudge) * n⌋ : ℚ) * d
      _ ≤ (k / (n * d : ℚ) + nudge) * n * d := mul_le_mul_of_nonneg_right hfloor hd'.le
      _ = k + nudge * (n * d) := by field_simp
      _ < k + 1 := by linarith
  have hle : ⌊(k / (n * d : ℚ) + nudge) * n⌋ * d ≤ k := by
    have hlt : ⌊(k / (n * d : ℚ) + nudge) * n⌋ * d < k + 1 := by exact_mod_cast hbelow
    exact Int.lt_add_one_iff.1 hlt
  have hle' : (⌊(k / (n * d : ℚ) + nudge) * n⌋ : ℚ) * d ≤ k := by exact_mod_cast hle
  rw [down, div_le_div_iff₀ hn' (by positivity)]
  nlinarith

/-- A number within a nudge of a point of the grid is not rounded beyond it. -/
theorem nearest_le {b : ℚ} (hn : 0 < n) (hb : OnGrid n b) (hq : q ≤ b + nudge)
    (hnudge : 2 * nudge * n < 1 / 2) : nearest n nudge q ≤ b := by
  obtain ⟨k, rfl⟩ := hb
  have hn' : (0 : ℚ) < n := by exact_mod_cast hn
  have hbelow : (q + nudge) * n + 1 / 2 < k + 1 :=
    calc (q + nudge) * n + 1 / 2
      _ ≤ (k / n + nudge + nudge) * n + 1 / 2 := by
        have := mul_le_mul_of_nonneg_right hq hn'.le
        linarith
      _ = k + 2 * nudge * n + 1 / 2 := by
        field_simp
        ring
      _ < k + 1 := by linarith
  have hfloor : ⌊(q + nudge) * n + 1 / 2⌋ ≤ k :=
    Int.lt_add_one_iff.1 (Int.floor_lt.2 (by exact_mod_cast hbelow))
  exact div_le_div_of_nonneg_right (by exact_mod_cast hfloor) hn'.le

/-- **Rounding to the nearest keeps the points of its grid.** -/
theorem nearest_eq (hn : 0 < n) (hq : OnGrid n q) (hnonneg : 0 ≤ nudge)
    (hnudge : nudge * n < 1 / 2) : nearest n nudge q = q := by
  obtain ⟨k, rfl⟩ := hq
  have hn' : (n : ℚ) ≠ 0 := by exact_mod_cast hn.ne'
  have hscaled : ((k / n : ℚ) + nudge) * n + 1 / 2 = k + (nudge * n + 1 / 2) := by
    field_simp
    ring
  have hzero : ⌊nudge * n + 1 / 2⌋ = 0 := by
    rw [Int.floor_eq_zero_iff]
    exact ⟨by positivity, by linarith⟩
  rw [nearest, hscaled, Int.floor_intCast_add, hzero, add_zero]

end Rounding

end AlpacaTrading.Rounding
