import Mathlib.Data.List.Nodup
import Mathlib.Data.List.Range

/-!
# Greedy passes

A list is walked once, and each element is either taken or skipped for a reason that may depend on
what was taken before.  `verdicts` keeps the list and says at each element what became of it.

## Numbering

The taken elements are numbered among themselves and a skipped one gets its place in the list.  The
two numberings only fit together if nothing is taken after something was skipped.
-/

namespace AlpacaTrading.Greedy

variable {α ρ : Type*}

/-! ## The pass -/

/-- What becomes of each element; `skip taken a` is the reason to skip `a`, if there is one. -/
def verdicts (skip : List α → α → Option ρ) : List α → List α → List (α × Option ρ)
  | _, [] => []
  | taken, a :: rest =>
    match skip taken a with
    | none => (a, none) :: verdicts skip (taken ++ [a]) rest
    | some reason => (a, some reason) :: verdicts skip taken rest

/-- The elements that were taken. -/
def takenOf (vs : List (α × Option ρ)) : List α := (vs.filter (·.2.isNone)).map (·.1)

section Pass

variable {skip : List α → α → Option ρ} {taken l : List α} {a : α}

@[simp] theorem verdicts_nil : verdicts skip taken [] = [] := rfl

theorem verdicts_cons_none (h : skip taken a = none) :
    verdicts skip taken (a :: l) = (a, none) :: verdicts skip (taken ++ [a]) l := by
  rw [verdicts, h]

theorem verdicts_cons_some {reason : ρ} (h : skip taken a = some reason) :
    verdicts skip taken (a :: l) = (a, some reason) :: verdicts skip taken l := by
  rw [verdicts, h]

@[simp] theorem takenOf_nil : takenOf ([] : List (α × Option ρ)) = [] := rfl

@[simp] theorem takenOf_cons_none (vs : List (α × Option ρ)) :
    takenOf ((a, none) :: vs) = a :: takenOf vs := rfl

@[simp] theorem takenOf_cons_some (reason : ρ) (vs : List (α × Option ρ)) :
    takenOf ((a, some reason) :: vs) = takenOf vs := rfl

@[simp] theorem takenOf_append (vs ws : List (α × Option ρ)) :
    takenOf (vs ++ ws) = takenOf vs ++ takenOf ws := by
  simp [takenOf]

theorem map_fst_verdicts : (verdicts skip taken l).map Prod.fst = l := by
  induction l generalizing taken with
  | nil => rfl
  | cons a l ih =>
    rcases h : skip taken a with - | reason
    · rw [verdicts_cons_none h, List.map_cons, ih]
    · rw [verdicts_cons_some h, List.map_cons, ih]

theorem takenOf_sublist (vs : List (α × Option ρ)) : (takenOf vs).Sublist (vs.map (·.1)) :=
  List.filter_sublist.map _

/-- Each verdict is the one the rule gives after what was taken before it. -/
theorem verdict_at {vs ws : List (α × Option ρ)} {v : Option ρ}
    (h : verdicts skip taken l = vs ++ (a, v) :: ws) : v = skip (taken ++ takenOf vs) a := by
  induction l generalizing taken vs with
  | nil => simp at h
  | cons b l ih =>
    rcases hb : skip taken b with - | reason
    · rw [verdicts_cons_none hb] at h
      rcases vs with - | ⟨x, vs⟩
      · obtain ⟨⟨rfl, rfl⟩, -⟩ := by simpa using h
        simpa using hb.symm
      · obtain ⟨rfl, hrest⟩ := by simpa using h
        simpa [List.append_assoc] using ih hrest
    · rw [verdicts_cons_some hb] at h
      rcases vs with - | ⟨x, vs⟩
      · obtain ⟨⟨rfl, rfl⟩, -⟩ := by simpa using h
        simpa using hb.symm
      · obtain ⟨rfl, hrest⟩ := by simpa using h
        simpa using ih hrest

/-- A property of the taken elements that each step keeps holds at the end. -/
theorem takenOf_invariant {P : List α → Prop} (hstart : P taken)
    (hstep : ∀ taken a, P taken → skip taken a = none → P (taken ++ [a])) :
    P (taken ++ takenOf (verdicts skip taken l)) := by
  induction l generalizing taken with
  | nil => simpa using hstart
  | cons a l ih =>
    rcases h : skip taken a with - | reason
    · rw [verdicts_cons_none h]
      simpa [List.append_assoc] using ih (hstep taken a hstart h)
    · rw [verdicts_cons_some h]
      simpa using ih hstart

theorem exists_split_of_lt {n : ℕ} {vs : List (α × Option ρ)} (h : n < vs.length) :
    ∃ xs a v ys, vs = xs ++ (a, v) :: ys ∧ xs.length = n :=
  ⟨vs.take n, vs[n].1, vs[n].2, vs.drop (n + 1),
    ((congrArg _ (List.getElem_cons_drop h)).trans (List.take_append_drop _ _)).symm,
    List.length_take_of_le h.le⟩

end Pass

/-! ## Caps -/

/-- No key occurs more often than the cap if each element found its key below the cap. -/
theorem capped_iff {κ : Type*} [DecidableEq κ] {key : α → κ} {cap : ℕ} {xs : List α} :
    (∀ pre a post, xs = pre ++ a :: post → pre.countP (key · = key a) < cap) ↔
      ∀ x, xs.countP (key · = x) ≤ cap := by
  constructor
  · intro h x
    induction xs using List.reverseRecOn with
    | nil => simp
    | append_singleton pre a ih =>
      rw [List.countP_append, List.countP_singleton]
      have hpre := ih fun p b q hsplit ↦ h p b (q ++ [a]) (by simp [hsplit])
      split
      · next hx =>
        have := h pre a [] rfl
        obtain rfl := of_decide_eq_true hx
        omega
      · omega
  · rintro h pre a post rfl
    have := h (key a)
    rw [List.countP_append, List.countP_cons, if_pos (by simp)] at this
    omega

/-! ## Taking first -/

/-- Whatever is taken comes before whatever is skipped. -/
def TakesFirst (vs : List (α × Option ρ)) : Prop :=
  ∃ xs ys, vs = xs ++ ys ∧ (∀ v ∈ xs, v.2 = none) ∧ ∀ v ∈ ys, v.2 ≠ none

section TakesFirst

variable {skip : List α → α → Option ρ} {taken l : List α} {a : α} {vs : List (α × Option ρ)}

theorem TakesFirst.of_skipped (h : ∀ v ∈ vs, v.2 ≠ none) : TakesFirst vs :=
  ⟨[], vs, rfl, by simp, h⟩

theorem takesFirst_cons_none : TakesFirst ((a, none) :: vs) ↔ TakesFirst vs := by
  constructor
  · rintro ⟨xs, ys, heq, hxs, hys⟩
    rcases xs with - | ⟨x, xs⟩
    · subst heq
      exact absurd rfl (hys (a, none) List.mem_cons_self)
    · obtain ⟨rfl, rfl⟩ := List.cons_eq_cons.1 heq
      exact ⟨xs, ys, rfl, fun v hv ↦ hxs v (List.mem_cons_of_mem _ hv), hys⟩
  · rintro ⟨xs, ys, rfl, hxs, hys⟩
    refine ⟨(a, none) :: xs, ys, rfl, fun v hv ↦ ?_, hys⟩
    rcases List.mem_cons.1 hv with rfl | hv
    · rfl
    · exact hxs v hv

theorem takesFirst_cons_some {reason : ρ} :
    TakesFirst ((a, some reason) :: vs) ↔ ∀ v ∈ vs, v.2 ≠ none := by
  constructor
  · rintro ⟨xs, ys, heq, hxs, hys⟩
    rcases xs with - | ⟨x, xs⟩
    · subst heq
      exact fun v hv ↦ hys v (List.mem_cons_of_mem _ hv)
    · obtain ⟨rfl, rfl⟩ := List.cons_eq_cons.1 heq
      exact absurd (hxs _ List.mem_cons_self) (Option.some_ne_none _)
  · intro h
    refine .of_skipped fun v hv ↦ ?_
    rcases List.mem_cons.1 hv with rfl | hv
    · exact Option.some_ne_none _
    · exact h v hv

/-- Nothing more is taken exactly when the rule skips every element after what was taken. -/
theorem verdicts_skipped_iff :
    (∀ v ∈ verdicts skip taken l, v.2 ≠ none) ↔ ∀ a ∈ l, skip taken a ≠ none := by
  induction l with
  | nil => simp
  | cons a l ih =>
    rcases h : skip taken a with - | reason
    · simp [verdicts_cons_none h, h]
    · rw [verdicts_cons_some h, List.forall_mem_cons, List.forall_mem_cons, ih, h]

/-- A pass takes first exactly when the list splits into a part in which nothing is skipped and a
part in which everything is, by the rule after the whole first part. -/
theorem takesFirst_iff : TakesFirst (verdicts skip taken l) ↔
    ∃ xs ys, l = xs ++ ys ∧ (∀ pre a post, xs = pre ++ a :: post → skip (taken ++ pre) a = none) ∧
      ∀ a ∈ ys, skip (taken ++ xs) a ≠ none := by
  induction l generalizing taken with
  | nil =>
    refine iff_of_true (.of_skipped (by simp)) ⟨[], [], rfl, by simp, by simp⟩
  | cons a l ih =>
    rcases h : skip taken a with - | reason
    · rw [verdicts_cons_none h, takesFirst_cons_none, ih]
      constructor
      · rintro ⟨xs, ys, rfl, hxs, hys⟩
        refine ⟨a :: xs, ys, rfl, fun pre b post hsplit ↦ ?_, by simpa using hys⟩
        rcases pre with - | ⟨c, pre⟩
        · obtain ⟨rfl, -⟩ := List.cons_eq_cons.1 hsplit
          simpa using h
        · obtain ⟨rfl, rfl⟩ := List.cons_eq_cons.1 hsplit
          simpa using hxs pre b post rfl
      · rintro ⟨xs, ys, heq, hxs, hys⟩
        rcases xs with - | ⟨x, xs⟩
        · subst heq
          exact absurd (by simpa using h) (hys a List.mem_cons_self)
        · obtain ⟨rfl, rfl⟩ := List.cons_eq_cons.1 heq
          refine ⟨xs, ys, rfl, fun pre b post hsplit ↦ ?_, by simpa using hys⟩
          simpa using hxs (a :: pre) b post (by rw [hsplit, List.cons_append])
    · rw [verdicts_cons_some h, takesFirst_cons_some, verdicts_skipped_iff]
      constructor
      · intro hl
        refine ⟨[], a :: l, rfl, by simp, fun b hb ↦ ?_⟩
        rcases List.mem_cons.1 hb with rfl | hb
        · simp [h]
        · simpa using hl b hb
      · rintro ⟨xs, ys, heq, hxs, hys⟩
        rcases xs with - | ⟨x, xs⟩
        · subst heq
          exact fun b hb ↦ by simpa using hys b (List.mem_cons_of_mem _ hb)
        · obtain ⟨rfl, -⟩ := List.cons_eq_cons.1 heq
          have := hxs [] a xs rfl
          rw [List.append_nil, h] at this
          exact absurd this (Option.some_ne_none _)

end TakesFirst

/-! ## Numbering -/

/-- The number of each element, after `k` taken ones among the first `i`. -/
def ranks : ℕ → ℕ → List (α × Option ρ) → List ℕ
  | _, _, [] => []
  | k, i, (_, none) :: vs => (k + 1) :: ranks (k + 1) (i + 1) vs
  | k, i, (_, some _) :: vs => (i + 1) :: ranks k (i + 1) vs

section Ranks

variable {vs : List (α × Option ρ)} {k i : ℕ}

theorem lt_of_mem_ranks (hk : k ≤ i) {r : ℕ} (hr : r ∈ ranks k i vs) : k < r := by
  induction vs generalizing k i with
  | nil => cases hr
  | cons v vs ih =>
    obtain ⟨a, - | reason⟩ := v
    · rcases List.mem_cons.1 hr with rfl | hr
      · omega
      · have := ih (Nat.succ_le_succ hk) hr
        omega
    · rcases List.mem_cons.1 hr with rfl | hr
      · omega
      · exact ih (by omega) hr

/-- The next number among the taken ones is given if anything more is taken. -/
theorem succ_mem_ranks (h : ∃ v ∈ vs, v.2 = none) : k + 1 ∈ ranks k i vs := by
  induction vs generalizing i with
  | nil => simp at h
  | cons v vs ih =>
    obtain ⟨a, - | reason⟩ := v
    · exact List.mem_cons_self
    · obtain ⟨v, hv, hnone⟩ := h
      rcases List.mem_cons.1 hv with rfl | hv
      · cases hnone
      · exact List.mem_cons_of_mem _ (ih ⟨v, hv, hnone⟩)

theorem ranks_of_skipped (h : ∀ v ∈ vs, v.2 ≠ none) :
    ranks k i vs = List.range' (i + 1) vs.length := by
  induction vs generalizing i with
  | nil => rfl
  | cons v vs ih =>
    rw [List.forall_mem_cons] at h
    obtain ⟨a, - | reason⟩ := v
    · exact absurd rfl h.1
    · rw [ranks, ih h.2, List.length_cons, List.range'_succ]

theorem nodup_ranks_iff : (ranks k k vs).Nodup ↔ TakesFirst vs := by
  induction vs generalizing k with
  | nil => exact iff_of_true List.nodup_nil (.of_skipped (by simp))
  | cons v vs ih =>
    obtain ⟨a, - | reason⟩ := v
    · rw [ranks, List.nodup_cons, ih, takesFirst_cons_none, and_iff_right]
      exact fun hmem ↦ lt_irrefl _ (lt_of_mem_ranks le_rfl hmem)
    · rw [ranks, List.nodup_cons, takesFirst_cons_some]
      constructor
      · rintro ⟨hmem, -⟩ v hv hnone
        exact hmem (succ_mem_ranks ⟨v, hv, hnone⟩)
      · intro h
        rw [ranks_of_skipped h, List.mem_range'_1]
        exact ⟨by omega, List.nodup_range'⟩

end Ranks

end AlpacaTrading.Greedy
