import Mathlib.Algebra.Order.Floor.Div
import Mathlib.Data.List.Sort
import Mathlib.Tactic.Linarith
import Mathlib.Tactic.Ring

/-!
# Windows that rotate

A list of `n` places is visited window by window: a turn that starts at a place visits the `L`
places from it on, as far as there are any, and the next turn starts behind them, or at the front
when the list is exhausted.

## Two measures

`turns` is the number of turns before the one that visits a given place.  A turn that does not
visit the place lowers it by one, and it is at most `n ⌈/⌉ L`.

When a turn serves only some of the places it visits, a place may have to be visited more than
once.  After the first wrap the windows start at multiples of `L`, so the place then shares its
window with the same others in every round.  `rounds` is the number of turns that suffice when `r`
visits of that window do: a turn that visits it lowers `r` by one, and any other turn lowers the
measure without touching `r`.
-/

namespace AlpacaTrading

namespace Rotation

variable {n L pos q r : ℕ}

/-- The start of the next window. -/
def next (n L pos : ℕ) : ℕ := if pos + L < n then pos + L else 0

/-! ## Ceilings -/

theorem ceilDiv_eq_one {m : ℕ} (hm : 0 < m) (h : m ≤ L) : m ⌈/⌉ L = 1 := by
  rw [Nat.ceilDiv_eq_add_pred_div]
  exact Nat.div_eq_of_lt_le (by omega) (by omega)

theorem ceilDiv_eq_succ {m : ℕ} (hL : 0 < L) (h : L < m) : m ⌈/⌉ L = (m - L) ⌈/⌉ L + 1 := by
  rw [Nat.ceilDiv_eq_add_pred_div, Nat.ceilDiv_eq_add_pred_div,
    show m + L - 1 = (m - L + L - 1) + L by omega, Nat.add_div_right _ hL]

/-- The last place is in the last window. -/
theorem div_lt_ceilDiv (hL : 0 < L) (hq : q < n) : q / L < n ⌈/⌉ L := by
  rw [Nat.ceilDiv_eq_add_pred_div, Nat.div_lt_iff_lt_mul hL]
  have hceil := Nat.div_add_mod (n + L - 1) L
  have hmod := Nat.mod_lt (n + L - 1) hL
  rw [Nat.mul_comm]
  omega

theorem ceilDiv_le_ceilDiv {m : ℕ} (h : m ≤ n) : m ⌈/⌉ L ≤ n ⌈/⌉ L := by
  rw [Nat.ceilDiv_eq_add_pred_div, Nat.ceilDiv_eq_add_pred_div]
  exact Nat.div_le_div_right (by omega)

/-- The windows before a place and behind it, one of them shared. -/
theorem ceilDiv_sub_add_div_le (hL : 0 < L) (hpos : pos < n) (hq : q < pos) :
    (n - pos) ⌈/⌉ L + q / L ≤ n ⌈/⌉ L := by
  have hmul : (n - pos) ⌈/⌉ L + q / L ≤ (n - pos + q / L * L) ⌈/⌉ L := by
    rw [Nat.ceilDiv_eq_add_pred_div, Nat.ceilDiv_eq_add_pred_div,
      show n - pos + q / L * L + L - 1 = (n - pos + L - 1) + q / L * L by omega,
      Nat.add_mul_div_right _ _ hL]
  have hdiv := Nat.div_mul_le_self q L
  exact hmul.trans (ceilDiv_le_ceilDiv (by omega))

/-! ## Until a place is visited -/

/-- The turns before the one that visits a place. -/
def turns (n L pos q : ℕ) : ℕ :=
  if pos ≤ q then (q - pos) / L else (n - pos) ⌈/⌉ L + q / L

theorem turns_le (hL : 0 < L) (hpos : pos < n) (hq : q < n) : turns n L pos q ≤ n ⌈/⌉ L := by
  rw [turns]
  split_ifs with h
  · exact (Nat.div_le_div_right (Nat.sub_le q pos)).trans (div_lt_ceilDiv hL hq).le
  · exact ceilDiv_sub_add_div_le hL hpos (not_le.1 h)

/-- A turn that does not visit the place brings its visit nearer. -/
theorem turns_next (hL : 0 < L) (hpos : pos < n) (hq : q < n)
    (h : ¬ (pos ≤ q ∧ q < pos + L)) : turns n L (next n L pos) q + 1 = turns n L pos q := by
  rw [turns, turns, next]
  rcases lt_or_ge q pos with hbefore | hbehind
  · -- the rest of the list comes first
    rw [if_neg (not_le.2 hbefore)]
    by_cases hend : pos + L < n
    · rw [if_pos hend, if_neg (by omega), ceilDiv_eq_succ hL (by omega : L < n - pos),
        Nat.sub_sub]
      omega
    · rw [if_neg hend, if_pos (Nat.zero_le q), ceilDiv_eq_one (by omega) (by omega)]
      simp only [Nat.sub_zero]
      omega
  · have hfar : pos + L ≤ q := by omega
    rw [if_pos hbehind, if_pos (show pos + L < n by omega), if_pos hfar,
      show q - pos = (q - (pos + L)) + L by omega, Nat.add_div_right _ hL]

/-! ## Until its window is visited often enough -/

/-- A window start of a round from the front, not behind the window of the place. -/
def Aligned (L pos q : ℕ) : Prop := L ∣ pos ∧ pos ≤ L * (q / L)

instance : Decidable (Aligned L pos q) := inferInstanceAs (Decidable (_ ∧ _))

/-- The turns that suffice for `r` visits of the window of a place. -/
def rounds (n L pos q r : ℕ) : ℕ :=
  (if Aligned L pos q then q / L - pos / L else (n - pos) ⌈/⌉ L + q / L) +
    (r - 1) * (n ⌈/⌉ L) + 1

theorem rounds_mono {r' : ℕ} (h : r ≤ r') : rounds n L pos q r ≤ rounds n L pos q r' := by
  rw [rounds, rounds]
  have hmul := Nat.mul_le_mul_right (n ⌈/⌉ L) (Nat.sub_le_sub_right h 1)
  omega

theorem rounds_le (hL : 0 < L) (hq : q < n) (hr : 0 < r) :
    rounds n L pos q r ≤ n ⌈/⌉ L + r * (n ⌈/⌉ L) := by
  have hlast := div_lt_ceilDiv hL hq
  have hrest : (n - pos) ⌈/⌉ L ≤ n ⌈/⌉ L := ceilDiv_le_ceilDiv (Nat.sub_le n pos)
  have hmul : r * (n ⌈/⌉ L) = (r - 1) * (n ⌈/⌉ L) + n ⌈/⌉ L := by
    rw [← Nat.succ_mul, Nat.succ_eq_add_one, Nat.sub_add_cancel hr]
  have hbehind := Nat.sub_le (q / L) (pos / L)
  rw [rounds]
  split_ifs <;> omega

/-- At the front a round begins. -/
theorem rounds_zero : rounds n L 0 q r = q / L + (r - 1) * (n ⌈/⌉ L) + 1 := by
  rw [rounds, if_pos ⟨dvd_zero L, Nat.zero_le _⟩, Nat.zero_div, Nat.sub_zero]

/-- A turn elsewhere brings the window nearer. -/
theorem rounds_next (hL : 0 < L) (hpos : pos < n) (hq : q < n) (h : pos ≠ L * (q / L)) :
    rounds n L (next n L pos) q r + 1 = rounds n L pos q r := by
  have hwindow := Nat.mul_div_le q L
  by_cases haligned : Aligned L pos q
  · obtain ⟨⟨i, rfl⟩, hle⟩ := haligned
    have hlt : i < q / L := by
      refine lt_of_le_of_ne (Nat.le_of_mul_le_mul_left hle hL) fun heq ↦ h (by rw [heq])
    have hnext : L * (i + 1) ≤ L * (q / L) := Nat.mul_le_mul_left L hlt
    have hmul : L * (i + 1) = L * i + L := Nat.mul_succ L i
    rw [next, if_pos (by omega), ← hmul, rounds, rounds, if_pos ⟨⟨i + 1, rfl⟩, hnext⟩,
      if_pos ⟨⟨i, rfl⟩, hle⟩, Nat.mul_div_cancel_left _ hL, Nat.mul_div_cancel_left _ hL]
    omega
  · by_cases hend : pos + L < n
    · have haligned' : ¬ Aligned L (pos + L) q := fun ⟨hdvd, hle⟩ ↦
        haligned ⟨(Nat.dvd_add_left dvd_rfl).1 hdvd, by omega⟩
      rw [next, if_pos hend, rounds, rounds, if_neg haligned, if_neg haligned',
        ceilDiv_eq_succ hL (by omega : L < n - pos), Nat.sub_sub]
      omega
    · have hone : (n - pos) ⌈/⌉ L = 1 := ceilDiv_eq_one (by omega) (by omega)
      rw [next, if_neg hend, rounds_zero, rounds, if_neg haligned, hone]
      omega

/-- A turn at the window leaves one visit less. -/
theorem rounds_next_of_window (hL : 0 < L) (hq : q < n) (h : pos = L * (q / L)) (hr : 1 < r) :
    rounds n L (next n L pos) q (r - 1) + 1 = rounds n L pos q r := by
  have hlast := div_lt_ceilDiv hL hq
  have hwindow := Nat.mul_div_le q L
  have hmul : (r - 1) * (n ⌈/⌉ L) = (r - 1 - 1) * (n ⌈/⌉ L) + n ⌈/⌉ L := by
    rw [← Nat.succ_mul, Nat.succ_eq_add_one, Nat.sub_add_cancel (by omega)]
  have hbefore : rounds n L pos q r = (r - 1) * (n ⌈/⌉ L) + 1 := by
    rw [rounds, if_pos ⟨⟨q / L, h⟩, h.le⟩, h, Nat.mul_div_cancel_left _ hL]
    omega
  rw [hbefore, hmul]
  have hceil : n ⌈/⌉ L = (n - pos) ⌈/⌉ L + q / L := by
    rw [Nat.ceilDiv_eq_add_pred_div, Nat.ceilDiv_eq_add_pred_div,
      ← Nat.add_mul_div_left _ _ hL, ← h]
    congr 1
    omega
  by_cases hend : pos + L < n
  · have haligned : ¬ Aligned L (pos + L) q := fun ⟨_, hle⟩ ↦ by omega
    have hrest : (n - pos) ⌈/⌉ L = (n - (pos + L)) ⌈/⌉ L + 1 := by
      rw [ceilDiv_eq_succ hL (by omega), Nat.sub_sub]
    rw [next, if_pos hend, rounds, if_neg haligned]
    omega
  · rw [next, if_neg hend, rounds_zero]
    have hone : (n - pos) ⌈/⌉ L = 1 := ceilDiv_eq_one (by omega) (by omega)
    omega

/-! ## Places in a sorted list -/

section Cursor

variable {α : Type*} [LinearOrder α] {l : List α} {cursor : Option α}

/-- How many elements are not behind a cursor. -/
def passed (l : List α) (cursor : Option α) : ℕ := l.countP fun a ↦ ∃ c ∈ cursor, a ≤ c

/-- The place behind a cursor, or the front if it is behind all of them. -/
def place (l : List α) (cursor : Option α) : ℕ :=
  if passed l cursor < l.length then passed l cursor else 0

theorem place_lt (cursor : Option α) (hl : l ≠ []) : place l cursor < l.length := by
  rw [place]
  split_ifs with h
  · exact h
  · exact List.length_pos_iff.2 hl

theorem filter_lt_eq_drop (h : l.Pairwise (· < ·)) (c : α) :
    (l.filter fun a ↦ c < a) = l.drop (passed l (some c)) := by
  induction l with
  | nil => rfl
  | cons a l ih =>
    obtain ⟨ha, hl⟩ := List.pairwise_cons.1 h
    by_cases hc : c < a
    · -- nothing is passed, since what follows is larger still
      have hpassed : passed (a :: l) (some c) = 0 := by
        refine List.countP_eq_zero.2 fun b hb ↦ ?_
        rcases List.mem_cons.1 hb with rfl | hb
        · simpa using hc
        · simpa using hc.trans (ha b hb)
      rw [hpassed, List.drop_zero, List.filter_eq_self]
      intro b hb
      rcases List.mem_cons.1 hb with rfl | hb
      · simpa using hc
      · simpa using hc.trans (ha b hb)
    · have hpassed : passed (a :: l) (some c) = passed l (some c) + 1 := by
        rw [passed, List.countP_cons_of_pos (by simpa using hc)]
        rfl
      rw [hpassed, List.drop_succ_cons, ← ih hl, List.filter_cons_of_neg (by simpa using hc)]

/-- An element of the list as a cursor. -/
theorem passed_getElem (h : l.Pairwise (· < ·)) {i : ℕ} (hi : i < l.length) :
    passed l (some l[i]) = i + 1 := by
  induction l generalizing i with
  | nil => exact absurd hi (Nat.not_lt_zero i)
  | cons a l ih =>
    obtain ⟨ha, hl⟩ := List.pairwise_cons.1 h
    rcases i with - | i
    · have hzero : l.countP (fun b ↦ ∃ c ∈ some a, b ≤ c) = 0 :=
        List.countP_eq_zero.2 fun b hb ↦ by simpa using ha b hb
      rw [passed, List.getElem_cons_zero, List.countP_cons_of_pos (by simp), hzero]
    · have hi' : i < l.length := Nat.lt_of_succ_lt_succ hi
      rw [List.getElem_cons_succ, ← ih hl hi', passed,
        List.countP_cons_of_pos (by simpa using (ha _ (List.getElem_mem hi')).le)]
      rfl

theorem passed_none : passed l none = 0 := List.countP_eq_zero.2 (by simp)

/-- The window of `L` places from the place behind a cursor. -/
def window (l : List α) (L : ℕ) (cursor : Option α) : List α := (l.drop (place l cursor)).take L

theorem mem_of_mem_window {a : α} {L : ℕ} (h : a ∈ window l L cursor) : a ∈ l :=
  List.mem_of_mem_drop (List.mem_of_mem_take h)

/-- **The last element of a window as the next cursor.** -/
theorem place_getLast? (h : l.Pairwise (· < ·)) (hl : l ≠ []) {L : ℕ} (hL : 0 < L) :
    ∃ c, (window l L cursor).getLast? = some c ∧
      place l (some c) = next l.length L (place l cursor) := by
  have hplace := place_lt cursor hl
  have hlength : (window l L cursor).length = min L (l.length - place l cursor) := by
    rw [window, List.length_take, List.length_drop]
  have hpos : 0 < (window l L cursor).length := by omega
  have hi : place l cursor + ((window l L cursor).length - 1) < l.length := by omega
  refine ⟨l[place l cursor + ((window l L cursor).length - 1)], ?_, ?_⟩
  · have hwindow : ∀ i < L, (window l L cursor)[i]? = l[place l cursor + i]? := fun i hi ↦ by
      rw [window, List.getElem?_take_of_lt hi, List.getElem?_drop]
    rw [List.getLast?_eq_getElem?, hwindow _ (by omega), List.getElem?_eq_getElem hi]
  · rw [place, passed_getElem h hi, next, hlength]
    split_ifs <;> omega

theorem getElem_mem_window {q L : ℕ} (hq : q < l.length) :
    (place l cursor ≤ q ∧ q < place l cursor + L) → l[q] ∈ window l L cursor := by
  rintro ⟨hle, hlt⟩
  rw [window, List.mem_take_iff_getElem]
  refine ⟨q - place l cursor, by rw [List.length_drop]; omega, ?_⟩
  rw [List.getElem_drop]
  congr 1
  omega

end Cursor

/-! ## Serving a window -/

section Serve

variable {α : Type*} {p p' : α → Bool} {l rest : List α} {m : ℕ}

/-- Of the first `m` that wait in a window, an element that waits in its first part is one, or all
of them are in that part. -/
theorem served (himp : ∀ a ∈ l, p' a = true → p a = true)
    (hserved : ∀ a ∈ ((l ++ rest).filter p).take m, p' a = false) :
    (∀ a ∈ l, p' a = false) ∨
      m < (l.filter p).length ∧ (l.filter p').length ≤ (l.filter p).length - m := by
  have hsub : l.filter p' = (l.filter p).filter p' := by
    rw [List.filter_filter]
    refine List.filter_congr fun a ha ↦ ?_
    by_cases h : p' a = true
    · simp [h, himp a ha h]
    · simp [h]
  rw [List.filter_append] at hserved
  rcases le_or_gt (l.filter p).length m with hle | hlt
  · refine .inl fun a ha ↦ ?_
    by_contra hwaits
    have hp : p a = true := himp a ha (by simpa using hwaits)
    refine hwaits (hserved a ?_)
    rw [List.take_append, List.take_of_length_le hle]
    exact List.mem_append_left _ (List.mem_filter.2 ⟨ha, hp⟩)
  · refine .inr ⟨hlt, ?_⟩
    rw [List.take_append_of_le_length hlt.le] at hserved
    have hnone : ((l.filter p).take m).filter p' = [] :=
      List.filter_eq_nil_iff.2 fun a ha ↦ by simp [hserved a ha]
    calc (l.filter p').length
        = (((l.filter p).take m ++ (l.filter p).drop m).filter p').length := by
          rw [List.take_append_drop, hsub]
      _ = (((l.filter p).drop m).filter p').length := by
          rw [List.filter_append, hnone, List.nil_append]
      _ ≤ ((l.filter p).drop m).length := List.length_filter_le _ _
      _ = (l.filter p).length - m := List.length_drop

end Serve

end Rotation

end AlpacaTrading
