import Mathlib.Algebra.Order.Field.Basic
import Mathlib.Tactic.FieldSimp
import Mathlib.Tactic.Linarith
import Mathlib.Tactic.Ring

/-!
# Settling in proportion

An amount stands behind a total `q`, of which a growing part is done.  The part done is read from
time to time.  A reading may be settled: of the amount only the share of what is still open is
kept.  Or it is merely noted, and the next settlement counts from it.

If every progress is settled by the reading that first shows it, what is kept depends on the last
reading only, and not on the readings before it.  Progress that is noted and not settled is never
made up for: more is kept than the share of what is still open.  `keptAfter_eq_iff` says that this
is the only way to miss the share.
-/

namespace AlpacaTrading

/-- A reading of the part done so far. -/
structure Reading (K : Type*) where
  /-- Whether it is settled or only noted. -/
  settled : Bool
  done : K
deriving DecidableEq

section Readings

variable {K : Type*}

/-- The part done according to the last reading. -/
def lastDone : K → List (Reading K) → K
  | p, [] => p
  | _, r :: rest => lastDone r.done rest

/-- A reading that is only noted shows no progress. -/
def ProgressSettled : K → List (Reading K) → Prop
  | _, [] => True
  | p, r :: rest => (r.settled = false → r.done = p) ∧ ProgressSettled r.done rest

@[simp] theorem lastDone_nil (p : K) : lastDone p [] = p := rfl

@[simp] theorem lastDone_append_singleton (p : K) (l : List (Reading K)) (r : Reading K) :
    lastDone p (l ++ [r]) = r.done := by
  induction l generalizing p with
  | nil => rfl
  | cons x l ih => exact ih x.done

/-- The readings never go back and never pass the total; what is settled is not all of it. -/
def Cumulative [LinearOrder K] (q : K) : K → List (Reading K) → Prop
  | p, [] => p ≤ q
  | p, r :: rest => p ≤ r.done ∧ (r.settled = true → r.done < q) ∧ Cumulative q r.done rest

theorem Cumulative.le_lastDone [LinearOrder K] {q p : K} {l : List (Reading K)}
    (h : Cumulative q p l) : p ≤ lastDone p l := by
  induction l generalizing p with
  | nil => exact le_rfl
  | cons r l ih => exact h.1.trans (ih h.2.2)

theorem progressSettled_of_forall {p : K} {l : List (Reading K)}
    (h : ∀ r ∈ l, r.settled = true) : ProgressSettled p l := by
  induction l generalizing p with
  | nil => trivial
  | cons r l ih =>
    rw [List.forall_mem_cons] at h
    exact ⟨by simp [h.1], ih h.2⟩

end Readings

section Kept

variable {K : Type*} [Field K]

/-- What a settlement keeps of the amount, when the part done grows from `p` to `f`. -/
def kept (q p f amount : K) : K := amount * ((q - f) / (q - p))

/-- What is kept of the amount after a list of readings, the first of which counts from `p`. -/
def keptAfter (q : K) : K → K → List (Reading K) → K
  | _, amount, [] => amount
  | p, amount, r :: rest =>
    keptAfter q r.done (if r.settled then kept q p r.done amount else amount) rest

@[simp] theorem keptAfter_nil (q p amount : K) : keptAfter q p amount [] = amount := rfl

/-- A last reading that is only noted keeps what was kept before it. -/
theorem keptAfter_append_noted (q p amount : K) (l : List (Reading K)) (r : Reading K)
    (h : r.settled = false) : keptAfter q p amount (l ++ [r]) = keptAfter q p amount l := by
  induction l generalizing p amount with
  | nil => simp [keptAfter, h]
  | cons x l ih => exact ih x.done _

theorem kept_mul {q p f amount : K} (h : q - p ≠ 0) :
    kept q p f amount * (q - p) = amount * (q - f) := by
  unfold kept
  field_simp

variable [LinearOrder K] [IsStrictOrderedRing K]

theorem kept_pos {q p f amount : K} (hpos : 0 < amount) (hp : p < q) (hf : f < q) :
    0 < kept q p f amount :=
  mul_pos hpos (div_pos (sub_pos.2 hf) (sub_pos.2 hp))

theorem keptAfter_pos {q p amount : K} {l : List (Reading K)} (hpos : 0 < amount)
    (h : Cumulative q p l) : 0 < keptAfter q p amount l := by
  induction l generalizing p amount with
  | nil => exact hpos
  | cons r l ih =>
    obtain ⟨hp, hq, hrest⟩ := h
    rw [keptAfter]
    refine ih ?_ hrest
    split
    · next hs => exact kept_pos hpos (hp.trans_lt (hq hs)) (hq hs)
    · exact hpos

/-- **At least the share of what is open is kept**, and exactly that when all progress was
settled. -/
theorem keptAfter_mul {q p amount : K} {l : List (Reading K)} (hpos : 0 < amount)
    (h : Cumulative q p l) :
    amount * (q - lastDone p l) ≤ keptAfter q p amount l * (q - p) ∧
      (keptAfter q p amount l * (q - p) = amount * (q - lastDone p l) ↔ ProgressSettled p l) := by
  induction l generalizing p amount with
  | nil =>
    refine ⟨le_rfl, fun _ ↦ trivial, fun _ ↦ rfl⟩
  | cons r l ih =>
    obtain ⟨hp, hq, hrest⟩ := h
    have hall : Cumulative q p (r :: l) := ⟨hp, hq, hrest⟩
    have hkept := keptAfter_pos hpos hall
    rw [keptAfter] at hkept ⊢
    rw [lastDone, ProgressSettled]
    cases hs : r.settled with
    | true =>
      -- The settlement scales both sides by the same share.
      simp only [hs, if_true] at hkept ⊢
      have hr : 0 < q - r.done := sub_pos.2 (hq hs)
      have hpq : 0 < q - p := hr.trans_le (sub_le_sub_left hp q)
      obtain ⟨hle, hiff⟩ := ih (kept_pos hpos (sub_pos.1 hpq) (sub_pos.1 hr)) hrest
      set kept' := keptAfter q r.done (kept q p r.done amount) l with hkept'
      have hscale : kept q p r.done amount * (q - lastDone r.done l) * (q - p) =
          amount * (q - lastDone r.done l) * (q - r.done) := by
        rw [mul_right_comm, kept_mul hpq.ne']
        ring
      have hcross : kept' * (q - r.done) * (q - p) = kept' * (q - p) * (q - r.done) := by ring
      refine ⟨?_, ?_⟩
      · refine le_of_mul_le_mul_right ?_ hr
        rw [← hscale, ← hcross]
        exact mul_le_mul_of_nonneg_right hle hpq.le
      · rw [← mul_left_inj' hr.ne', ← hscale, ← hcross, mul_left_inj' hpq.ne', hiff]
        simp
    | false =>
      simp only [hs, Bool.false_eq_true, if_false, forall_const] at hkept ⊢
      obtain ⟨hle, hiff⟩ := ih hpos hrest
      set kept' := keptAfter q r.done amount l with hkept'
      have hstep : kept' * (q - r.done) ≤ kept' * (q - p) :=
        mul_le_mul_of_nonneg_left (sub_le_sub_left hp q) hkept.le
      refine ⟨hle.trans hstep, fun heq ↦ ?_, ?_⟩
      · -- No progress can have been noted, since the left side would have grown.
        have hback : kept' * (q - p) ≤ kept' * (q - r.done) := heq.le.trans hle
        have hdone : r.done = p :=
          le_antisymm (sub_le_sub_iff_left q |>.1 (le_of_mul_le_mul_left hback hkept)) hp
        refine ⟨hdone, hiff.1 ?_⟩
        calc kept' * (q - r.done) = kept' * (q - p) := congrArg (fun x ↦ kept' * (q - x)) hdone
          _ = amount * (q - lastDone r.done l) := heq
      · rintro ⟨hdone, hsettled⟩
        rw [← hdone]
        exact hiff.2 hsettled

/-- **The share is kept exactly when all progress was settled**, by whichever readings. -/
theorem keptAfter_eq_iff {q amount : K} {l : List (Reading K)} (hpos : 0 < amount)
    (hq : 0 < q) (h : Cumulative q 0 l) :
    keptAfter q 0 amount l = amount * ((q - lastDone 0 l) / q) ↔ ProgressSettled 0 l := by
  rw [← (keptAfter_mul hpos h).2, sub_zero, ← mul_div_assoc, eq_div_iff hq.ne']

end Kept

end AlpacaTrading
