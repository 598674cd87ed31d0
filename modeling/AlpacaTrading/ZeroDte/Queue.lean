import Mathlib.Data.List.Nodup
import Mathlib.Data.List.Pairwise
import Mathlib.Data.Rat.Init
import Mathlib.Data.String.Basic
import Mathlib.Algebra.Order.Field.Rat
import AlpacaTrading.Lib.Criteria
import AlpacaTrading.Lib.Extended
import AlpacaTrading.Lib.Ranking
import AlpacaTrading.ZeroDte.Store

/-!
# The queue of zero-DTE candidates

`rankZeroDteQueue` sorts the candidates on eligibility, five scores and the identifier, and
`selectZeroDteQueue` cuts the queue and the candidates for execution from the ranking.

The scores are compared by a subtraction, with an infinity for a missing one.  The difference of
two infinities is not a number, which is not zero: two missing values end the comparison, and the
candidates stay in the order in which they came.  The comparison is consistent all the same, but
the ranking depends on the order of the input exactly where two candidates share a gap.

The finite numbers are exact, and the identifiers are compared by their characters.
-/

namespace AlpacaTrading

namespace ZeroDte

/-! ## Candidates -/

/-- `ZeroDteQueueCandidate`.  A field that holds no number is missing. -/
structure ZeroDteQueueCandidate (Rest : Type) where
  candidateId : String
  eligible : Option Bool := none
  executable : Option Bool := none
  totalScore : Option JsNumber := none
  score : Option JsNumber := none
  shortSlope : Option JsNumber := none
  signalSlope : Option JsNumber := none
  liquidityScore : Option JsNumber := none
  liquidity : Option JsNumber := none
  freshnessScore : Option JsNumber := none
  freshness : Option JsNumber := none
  spreadPct : Option JsNumber := none
  spread : Option JsNumber := none
  rank : Option ℕ := none
  rest : Rest

variable {Rest : Type}

/-- `readFiniteNumber`: the first of the fields that is a finite number. -/
def readFiniteNumber (fields : List (Option JsNumber)) : Option ℚ :=
  fields.findSome? fun field ↦ field.bind JsNumber.value

/-- `isEligible`. -/
def isEligible (candidate : ZeroDteQueueCandidate Rest) : Bool :=
  if candidate.eligible = some false ∨ candidate.executable = some false then false
  else candidate.eligible = some true ∨ candidate.executable = some true

/-- `value ?? missing`. -/
def numberOr (value : Option ℚ) (missing : ExtendedNumber) : ExtendedNumber :=
  (value.map ExtendedNumber.finite).getD missing

/-- `compareDescending`. -/
def compareDescending (left right : Option ℚ) : ExtendedNumber :=
  (numberOr right .negativeInfinity).sub (numberOr left .negativeInfinity)

/-- `compareAscending`. -/
def compareAscending (left right : Option ℚ) : ExtendedNumber :=
  (numberOr left .positiveInfinity).sub (numberOr right .positiveInfinity)

/-- `compareCandidateIds`. -/
def compareCandidateIds (left right : ZeroDteQueueCandidate Rest) : ExtendedNumber :=
  if left.candidateId < right.candidateId then .finite (-1)
  else if left.candidateId > right.candidateId then .finite 1
  else .finite 0

/-- `Number(flag)`. -/
def numberOf (flag : Bool) : ℚ := if flag then 1 else 0

/-- `compareQueueCandidates`. -/
def compareQueueCandidates (left right : ZeroDteQueueCandidate Rest) : ExtendedNumber :=
  let eligibilityDifference :=
    ExtendedNumber.finite (numberOf (isEligible right) - numberOf (isEligible left))
  if eligibilityDifference ≠ .finite 0 then eligibilityDifference
  else
    let scoreDifference := compareDescending
      (readFiniteNumber [left.totalScore, left.score])
      (readFiniteNumber [right.totalScore, right.score])
    if scoreDifference ≠ .finite 0 then scoreDifference
    else
      let slopeDifference := compareDescending
        (readFiniteNumber [left.shortSlope, left.signalSlope])
        (readFiniteNumber [right.shortSlope, right.signalSlope])
      if slopeDifference ≠ .finite 0 then slopeDifference
      else
        let liquidityDifference := compareDescending
          (readFiniteNumber [left.liquidityScore, left.liquidity])
          (readFiniteNumber [right.liquidityScore, right.liquidity])
        if liquidityDifference ≠ .finite 0 then liquidityDifference
        else
          let freshnessDifference := compareDescending
            (readFiniteNumber [left.freshnessScore, left.freshness])
            (readFiniteNumber [right.freshnessScore, right.freshness])
          if freshnessDifference ≠ .finite 0 then freshnessDifference
          else
            let spreadDifference := compareAscending
              (readFiniteNumber [left.spreadPct, left.spread])
              (readFiniteNumber [right.spreadPct, right.spread])
            if spreadDifference ≠ .finite 0 then spreadDifference
            else compareCandidateIds left right

/-- A candidate with its index in the input. -/
abbrev Decorated (Rest : Type) := ZeroDteQueueCandidate Rest × ℕ

/-- The comparison `rankZeroDteQueue` sorts by. -/
def compareDecorated (left right : Decorated Rest) : ExtendedNumber :=
  (compareQueueCandidates left.1 right.1).or (.finite (left.2 - right.2))

/-- `left` may come before `right`. -/
def RanksNoLater (left right : Decorated Rest) : Prop :=
  (compareDecorated left right).AtMostZero

instance : DecidableRel (@RanksNoLater Rest) := fun left right ↦
  inferInstanceAs (Decidable (compareDecorated left right).AtMostZero)

/-- `rankZeroDteQueue`. -/
def rankZeroDteQueue (candidates : List (ZeroDteQueueCandidate Rest)) :
    List (ZeroDteQueueCandidate Rest) :=
  (candidates.zipIdx.insertionSort RanksNoLater).mapIdx fun index decorated ↦
    { decorated.1 with rank := some (index + 1) }

/-- `ZeroDteQueueSliceOptions`. -/
structure ZeroDteQueueSliceOptions where
  queueTopN : Option JsNumber := none
  executionTopN : Option JsNumber := none

/-- `ZeroDteQueueSlices`. -/
structure ZeroDteQueueSlices (Rest : Type) where
  queue : List (ZeroDteQueueCandidate Rest)
  execution : List (ZeroDteQueueCandidate Rest)

/-- `normalizeLimit`. -/
def normalizeLimit (value : Option JsNumber) (fallback : ℕ) : Except String ℕ :=
  match value.getD (.finite fallback) with
  | .finite limit =>
    if limit.den = 1 ∧ 0 ≤ limit then .ok limit.num.toNat
    else .error "0DTE queue limits must be non-negative integers"
  | .notFinite => .error "0DTE queue limits must be non-negative integers"

/-- `selectZeroDteQueue`. -/
def selectZeroDteQueue (candidates : List (ZeroDteQueueCandidate Rest))
    (options : ZeroDteQueueSliceOptions) : Except String (ZeroDteQueueSlices Rest) := do
  let ranked := rankZeroDteQueue candidates
  let queueTopN ← normalizeLimit options.queueTopN 20
  let executionTopN ← normalizeLimit options.executionTopN 3
  return { queue := ranked.take queueTopN
           execution := (ranked.filter isEligible).take executionTopN }

/-! ## The comparison -/

/-- The criteria, each as a value of which more is better. -/
def criteria : List (ZeroDteQueueCandidate Rest → Option ℚ) :=
  [fun c ↦ some (numberOf (isEligible c)),
    fun c ↦ readFiniteNumber [c.totalScore, c.score],
    fun c ↦ readFiniteNumber [c.shortSlope, c.signalSlope],
    fun c ↦ readFiniteNumber [c.liquidityScore, c.liquidity],
    fun c ↦ readFiniteNumber [c.freshnessScore, c.freshness],
    fun c ↦ (readFiniteNumber [c.spreadPct, c.spread]).map (- ·)]

/-- The criteria of a decorated candidate. -/
def decoratedCriteria : List (Decorated Rest → Option ℚ) :=
  criteria.map fun f d ↦ f d.1

/-- The order of the input. -/
def CameNoLater (left right : Decorated Rest) : Prop := left.2 ≤ right.2

/-- The order of the identifiers, and of the input for one identifier. -/
def IdNoLater (left right : Decorated Rest) : Prop :=
  left.1.candidateId < right.1.candidateId ∨
    left.1.candidateId = right.1.candidateId ∧ left.2 ≤ right.2

theorem compareAscending_eq (left right : Option ℚ) :
    compareAscending left right = compareDescending (left.map (- ·)) (right.map (- ·)) := by
  rcases left with - | x <;> rcases right with - | y
  · rfl
  · rfl
  · rfl
  · change ExtendedNumber.finite (x - y) = ExtendedNumber.finite (-y - -x)
    rw [sub_neg_eq_add, neg_add_eq_sub]

/-- One criterion of the comparison: the difference decides, unless it is zero. -/
theorem atMostZero_criterion {left right : Decorated Rest} {next : ExtendedNumber}
    (f : Decorated Rest → Option ℚ) {fs : List (Decorated Rest → Option ℚ)}
    (hnext : (next.or (.finite (left.2 - right.2))).AtMostZero ↔
      Criteria.le CameNoLater IdNoLater fs left right) :
    ((if compareDescending (f left) (f right) ≠ .finite 0 then
        compareDescending (f left) (f right) else next).or
          (.finite (left.2 - right.2))).AtMostZero ↔
      Criteria.le CameNoLater IdNoLater (f :: fs) left right := by
  rw [Criteria.le_cons, ← hnext]
  rcases f left with - | x <;> rcases f right with - | y
  · -- The difference of the infinities is not a number, so that the indices decide.
    change ((left.2 : ℚ) - right.2) ≤ 0 ↔ left.2 ≤ right.2
    rw [sub_nonpos, Nat.cast_le]
  · exact Iff.rfl
  · exact Iff.rfl
  · change ((if ExtendedNumber.finite (y - x) ≠ .finite 0 then ExtendedNumber.finite (y - x)
      else next).or _).AtMostZero ↔ _
    by_cases hxy : x = y
    · rw [if_neg (by rw [hxy, sub_self]; exact not_not_intro rfl)]
      exact ⟨fun h ↦ Or.inr ⟨hxy, h⟩, fun h ↦ h.elim (fun h ↦ absurd h (hxy ▸ lt_irrefl _)) And.right⟩
    · have hne : y - x ≠ 0 := sub_ne_zero.2 (Ne.symm hxy)
      rw [if_pos fun h ↦ hne (ExtendedNumber.finite.inj h), ExtendedNumber.finite_or hne]
      change y - x ≤ 0 ↔ _
      rw [sub_nonpos]
      constructor
      · intro h
        exact Or.inl (lt_of_le_of_ne h (Ne.symm hxy))
      · rintro (h | ⟨h, -⟩)
        · exact h.le
        · exact absurd h hxy

/-- The end of the comparison. -/
theorem atMostZero_candidateIds (left right : Decorated Rest) :
    ((compareCandidateIds left.1 right.1).or (.finite (left.2 - right.2))).AtMostZero ↔
      IdNoLater left right := by
  rw [compareCandidateIds, IdNoLater]
  by_cases hlt : left.1.candidateId < right.1.candidateId
  · rw [if_pos hlt, ExtendedNumber.finite_or (by decide)]
    exact ⟨fun _ ↦ Or.inl hlt, fun _ ↦ by decide⟩
  · rw [if_neg hlt]
    by_cases hgt : left.1.candidateId > right.1.candidateId
    · rw [if_pos hgt, ExtendedNumber.finite_or one_ne_zero]
      refine ⟨fun h ↦ absurd h (by decide), ?_⟩
      rintro (h | ⟨h, -⟩)
      · exact absurd h hlt
      · exact absurd hgt (h ▸ lt_irrefl _)
    · rw [if_neg hgt]
      have heq : left.1.candidateId = right.1.candidateId :=
        le_antisymm (not_lt.1 hgt) (not_lt.1 hlt)
      change ((left.2 : ℚ) - right.2) ≤ 0 ↔ _
      rw [sub_nonpos, Nat.cast_le]
      exact ⟨fun h ↦ Or.inr ⟨heq, h⟩, fun h ↦ h.elim (fun h ↦ absurd h hlt) And.right⟩

/-- **The comparison is one by criteria with gaps.** -/
theorem ranksNoLater_iff (left right : Decorated Rest) :
    RanksNoLater left right ↔
      Criteria.le CameNoLater IdNoLater decoratedCriteria left right := by
  rw [RanksNoLater, compareDecorated, compareQueueCandidates]
  simp only [compareAscending_eq]
  refine atMostZero_criterion (fun d ↦ some (numberOf (isEligible d.1))) ?_
  refine atMostZero_criterion (fun d ↦ readFiniteNumber [d.1.totalScore, d.1.score]) ?_
  refine atMostZero_criterion (fun d ↦ readFiniteNumber [d.1.shortSlope, d.1.signalSlope]) ?_
  refine atMostZero_criterion (fun d ↦ readFiniteNumber [d.1.liquidityScore, d.1.liquidity]) ?_
  refine atMostZero_criterion (fun d ↦ readFiniteNumber [d.1.freshnessScore, d.1.freshness]) ?_
  refine atMostZero_criterion
    (fun d ↦ (readFiniteNumber [d.1.spreadPct, d.1.spread]).map (- ·)) ?_
  exact atMostZero_candidateIds left right

instance : Std.Total (@RanksNoLater Rest) where
  total left right := by
    rw [ranksNoLater_iff, ranksNoLater_iff]
    refine Criteria.le_total (fun a b ↦ Nat.le_total a.2 b.2) (fun a b ↦ ?_) left right
    rcases lt_trichotomy a.1.candidateId b.1.candidateId with h | h | h
    · exact Or.inl (Or.inl h)
    · exact (Nat.le_total a.2 b.2).imp (fun hle ↦ Or.inr ⟨h, hle⟩) fun hle ↦ Or.inr ⟨h.symm, hle⟩
    · exact Or.inr (Or.inl h)

/-- The comparison is consistent, whatever is missing. -/
instance : IsTrans (Decorated Rest) RanksNoLater where
  trans a b c := by
    rw [ranksNoLater_iff, ranksNoLater_iff, ranksNoLater_iff]
    refine Criteria.le_trans (fun _ _ _ ↦ Nat.le_trans) fun a b c hab hbc ↦ ?_
    rcases hab with hab | ⟨hab, hle⟩
    · rcases hbc with hbc | ⟨hbc, -⟩
      · exact Or.inl (hab.trans hbc)
      · exact Or.inl (hbc ▸ hab)
    · rcases hbc with hbc | ⟨hbc, hle'⟩
      · exact Or.inl (hab ▸ hbc)
      · exact Or.inr ⟨hab.trans hbc, hle.trans hle'⟩

/-! ## The ranking -/

/-- The candidates in the order of their ranks. -/
def rankingOrder (candidates : List (ZeroDteQueueCandidate Rest)) :
    List (ZeroDteQueueCandidate Rest) :=
  (candidates.zipIdx.insertionSort RanksNoLater).map Prod.fst

theorem rankZeroDteQueue_eq (candidates : List (ZeroDteQueueCandidate Rest)) :
    rankZeroDteQueue candidates =
      (rankingOrder candidates).mapIdx fun index c ↦ { c with rank := some (index + 1) } := by
  rw [rankZeroDteQueue, rankingOrder, List.mapIdx_eq_zipIdx_map, List.mapIdx_eq_zipIdx_map,
    List.zipIdx_map, List.map_map]
  rfl

theorem rankingOrder_perm (candidates : List (ZeroDteQueueCandidate Rest)) :
    (rankingOrder candidates).Perm candidates := by
  have hperm := (List.perm_insertionSort RanksNoLater candidates.zipIdx).map Prod.fst
  rwa [List.zipIdx_map_fst] at hperm

/-- What the comparison gives for the pairs of the input holds along the ranking. -/
theorem rankingOrder_pairwise {candidates : List (ZeroDteQueueCandidate Rest)}
    {R : ZeroDteQueueCandidate Rest → ZeroDteQueueCandidate Rest → Prop}
    (h : ∀ a i b j, candidates[i]? = some a → candidates[j]? = some b →
      RanksNoLater (a, i) (b, j) → R a b) :
    (rankingOrder candidates).Pairwise R := by
  refine List.pairwise_map.2 ((List.pairwise_insertionSort RanksNoLater _).imp_of_mem ?_)
  rintro ⟨a, i⟩ ⟨b, j⟩ ha hb hle
  refine h a i b j ?_ ?_ hle
  · exact List.mk_mem_zipIdx_iff_getElem?.1 ((List.mem_insertionSort _).1 ha)
  · exact List.mk_mem_zipIdx_iff_getElem?.1 ((List.mem_insertionSort _).1 hb)

/-- Two candidates are equal up to a criterion for which both have no value. -/
def SharesGap (left right : ZeroDteQueueCandidate Rest) : Prop :=
  Criteria.SharesGap criteria left right

/-- On the first criterion on which they differ, `left` has a value and `right` has none. -/
def Supplies (left right : ZeroDteQueueCandidate Rest) : Prop :=
  Criteria.Supplies criteria left right

/-- What a ranking of the queue is to be. -/
structure QueueRanked (candidates : List (ZeroDteQueueCandidate Rest)) : Prop where
  /-- The order of the input does not matter. -/
  ranking : ∀ permuted, candidates.Perm permuted →
    rankZeroDteQueue permuted = rankZeroDteQueue candidates
  slices : ∀ permuted options, candidates.Perm permuted →
    selectZeroDteQueue permuted options = selectZeroDteQueue candidates options
  ranks : (rankZeroDteQueue candidates).map (·.rank) =
    (List.range candidates.length).map fun i ↦ some (i + 1)
  eligibleFirst : (rankZeroDteQueue candidates).Pairwise fun left right ↦
    isEligible right → isEligible left
  valueFirst : (rankZeroDteQueue candidates).Pairwise fun left right ↦ ¬ Supplies right left

theorem ranks_eq (candidates : List (ZeroDteQueueCandidate Rest)) :
    (rankZeroDteQueue candidates).map (·.rank) =
      (List.range candidates.length).map fun i ↦ some (i + 1) := by
  rw [rankZeroDteQueue_eq, List.mapIdx_eq_zipIdx_map, List.map_map,
    ← (rankingOrder_perm candidates).length_eq, List.range_eq_range', ← List.zipIdx_map_snd,
    List.map_map]
  rfl

/-- A rank changes nothing that is compared. -/
theorem ranking_pairwise {candidates : List (ZeroDteQueueCandidate Rest)}
    {R : ZeroDteQueueCandidate Rest → ZeroDteQueueCandidate Rest → Prop}
    (hrank : ∀ a b i j, R a b → R { a with rank := some i } { b with rank := some j })
    (h : (rankingOrder candidates).Pairwise R) : (rankZeroDteQueue candidates).Pairwise R := by
  rw [rankZeroDteQueue_eq, List.mapIdx_eq_zipIdx_map]
  refine List.pairwise_map.2 ?_
  rw [← List.zipIdx_map_fst 0 (rankingOrder candidates)] at h
  exact (List.pairwise_map.1 h).imp fun hR ↦ hrank _ _ _ _ hR

theorem eligible_of_ranksNoLater {left right : Decorated Rest} (h : RanksNoLater left right)
    (hright : isEligible right.1) : isEligible left.1 := by
  have hle := (ranksNoLater_iff left right).1 h
  rcases hleft : isEligible left.1 with - | -
  · change numberOf (isEligible right.1) < numberOf (isEligible left.1) ∨
      numberOf (isEligible left.1) = numberOf (isEligible right.1) ∧ _ at hle
    rw [hleft, hright] at hle
    rcases hle with hle | ⟨hle, -⟩
    · exact absurd hle (by decide)
    · exact absurd hle (by decide)
  · rfl

/-- No two candidates share a gap. -/
def NoSharedGap (candidates : List (ZeroDteQueueCandidate Rest)) : Prop :=
  ∀ a ∈ candidates, ∀ b ∈ candidates, a.candidateId ≠ b.candidateId → ¬ SharesGap a b

section Order

variable {candidates permuted : List (ZeroDteQueueCandidate Rest)}

theorem eq_of_candidateId (hnodup : (candidates.map (·.candidateId)).Nodup)
    {a b : ZeroDteQueueCandidate Rest} {i j : ℕ} (ha : candidates[i]? = some a)
    (hb : candidates[j]? = some b) (h : a.candidateId = b.candidateId) : i = j ∧ a = b := by
  have hids : (candidates.map (·.candidateId))[i]? = (candidates.map (·.candidateId))[j]? := by
    rw [List.getElem?_map, List.getElem?_map, ha, hb, Option.map_some, Option.map_some, h]
  have hi : i < (candidates.map (·.candidateId)).length := by
    rw [List.length_map]
    exact (List.getElem?_eq_some_iff.1 ha).1
  obtain rfl := (List.getElem?_inj hi hnodup).1 hids
  exact ⟨rfl, Option.some_inj.1 (ha.symm.trans hb)⟩

/-- The comparison of two candidates that share no gap does not see their indices. -/
theorem le_of_ranksNoLater {left right : Decorated Rest} (h : RanksNoLater left right)
    (hne : left.1.candidateId ≠ right.1.candidateId) (hgap : ¬ SharesGap left.1 right.1) :
    Criteria.le (fun _ _ ↦ True) (fun a b ↦ a.candidateId < b.candidateId) criteria
      left.1 right.1 :=
  Criteria.le_of_le (g := Prod.fst) hgap (fun hlast ↦ hlast.resolve_right fun h ↦ hne h.1)
    ((ranksNoLater_iff left right).1 h)

/-- Candidates that share a gap stay in the order of the input. -/
theorem rankingOrder_of_sharesGap (hnodup : (candidates.map (·.candidateId)).Nodup)
    {a b : ZeroDteQueueCandidate Rest} {i j : ℕ} (ha : candidates[i]? = some a)
    (hb : candidates[j]? = some b) (hij : i < j) (hgap : SharesGap a b) :
    ((rankingOrder candidates).map (·.candidateId)).Pairwise fun x y ↦
      ¬ (x = b.candidateId ∧ y = a.candidateId) := by
  refine List.pairwise_map.2 (rankingOrder_pairwise fun x k y l hx hy hle hids ↦ ?_)
  obtain ⟨rfl, rfl⟩ := eq_of_candidateId hnodup hx hb hids.1
  obtain ⟨rfl, rfl⟩ := eq_of_candidateId hnodup hy ha hids.2
  have hshared : Criteria.SharesGap decoratedCriteria (x, k) (y, l) :=
    Criteria.sharesGap_map.2 (Criteria.SharesGap.symm hgap)
  rw [ranksNoLater_iff, Criteria.le_iff_gap hshared] at hle
  exact absurd hij (Nat.not_lt.2 hle)

/-- **Without shared gaps the order of the input does not matter.** -/
theorem rankingOrder_eq_of_perm (hnodup : (candidates.map (·.candidateId)).Nodup)
    (hgaps : NoSharedGap candidates) (hperm : candidates.Perm permuted) :
    rankingOrder permuted = rankingOrder candidates := by
  -- Along either ranking, candidates are in the order that does not see indices.
  have hordered : ∀ input, candidates.Perm input → (rankingOrder input).Pairwise fun a b ↦
      a.candidateId ≠ b.candidateId → Criteria.le (fun _ _ ↦ True)
        (fun a b ↦ a.candidateId < b.candidateId) criteria a b := by
    intro input hinput
    refine rankingOrder_pairwise fun a i b j ha hb hle hne ↦ ?_
    have hgap := hgaps a (hinput.mem_iff.2 (List.mem_of_getElem? ha)) b
      (hinput.mem_iff.2 (List.mem_of_getElem? hb)) hne
    -- The pairs come from `hle`; the goal does not show them.
    have hindexed := le_of_ranksNoLater hle hne hgap
    exact hindexed
  refine List.Perm.eq_of_pairwise (fun a b ha hb hab hba ↦ ?_) (hordered _ hperm)
    (hordered _ (List.Perm.refl _))
    (((rankingOrder_perm _).trans hperm.symm).trans (rankingOrder_perm _).symm)
  have hamem := hperm.mem_iff.2 ((rankingOrder_perm _).mem_iff.1 ha)
  have hbmem := (rankingOrder_perm _).mem_iff.1 hb
  obtain ⟨i, hi⟩ := List.mem_iff_getElem?.1 hamem
  obtain ⟨j, hj⟩ := List.mem_iff_getElem?.1 hbmem
  by_cases hid : a.candidateId = b.candidateId
  · exact (eq_of_candidateId hnodup hi hj hid).2
  · have hgap := hgaps a hamem b hbmem hid
    have hlt := Criteria.last_of_le_of_le hgap (hab hid) (hba (Ne.symm hid))
    have hgt := Criteria.last_of_le_of_le (fun h ↦ hgap (Criteria.SharesGap.symm h))
      (hba (Ne.symm hid)) (hab hid)
    exact absurd hgt hlt.asymm

/-- **With a shared gap it does.** -/
theorem noSharedGap_of_ranking (hnodup : (candidates.map (·.candidateId)).Nodup)
    (hranking : ∀ permuted, candidates.Perm permuted →
      rankZeroDteQueue permuted = rankZeroDteQueue candidates) : NoSharedGap candidates := by
  intro a ha b hb hne hgap
  -- The two candidates come first, in either order.
  obtain ⟨s, t, rfl⟩ := List.append_of_mem ha
  have hfirst : (s ++ a :: t).Perm (a :: (s ++ t)) := List.perm_middle
  have hb' : b ∈ s ++ t := (List.mem_cons.1 (hfirst.mem_iff.1 hb)).resolve_left
    fun h ↦ hne (congrArg _ h.symm)
  obtain ⟨u, v, huv⟩ := List.append_of_mem hb'
  have hab : (s ++ a :: t).Perm (a :: b :: (u ++ v)) := by
    refine hfirst.trans (List.Perm.cons a ?_)
    rw [huv]
    exact List.perm_middle
  have hba := hab.trans (List.Perm.swap b a (u ++ v))
  have hnodup' : ∀ {permuted}, (s ++ a :: t).Perm permuted →
      (permuted.map (·.candidateId)).Nodup := fun h ↦ (h.map _).nodup_iff.1 hnodup
  have hids : ∀ input : List (ZeroDteQueueCandidate Rest),
      (rankZeroDteQueue input).map (·.candidateId) =
        (rankingOrder input).map (·.candidateId) := by
    intro input
    rw [rankZeroDteQueue_eq, List.mapIdx_eq_zipIdx_map, List.map_map]
    conv_rhs => rw [← List.zipIdx_map_fst 0 (rankingOrder input), List.map_map]
    rfl
  have hsame : (rankingOrder (a :: b :: (u ++ v))).map (·.candidateId) =
      (rankingOrder (b :: a :: (u ++ v))).map (·.candidateId) := by
    rw [← hids, ← hids, hranking _ hab, hranking _ hba]
  have hnotba := rankingOrder_of_sharesGap (hnodup' hab) (i := 0) (j := 1) rfl rfl
    Nat.zero_lt_one hgap
  have hnotab := rankingOrder_of_sharesGap (hnodup' hba) (i := 0) (j := 1) rfl rfl
    Nat.zero_lt_one (Criteria.SharesGap.symm hgap)
  rw [← hsame] at hnotab
  have hmem : ∀ c ∈ a :: b :: (u ++ v), c.candidateId ∈
      (rankingOrder (a :: b :: (u ++ v))).map (·.candidateId) := fun c hc ↦
    List.mem_map_of_mem ((rankingOrder_perm _).mem_iff.2 hc)
  have hsymm : Std.Symm fun x y : String ↦ ¬ (x = b.candidateId ∧ y = a.candidateId) ∧
      ¬ (x = a.candidateId ∧ y = b.candidateId) :=
    ⟨fun x y h ↦ ⟨fun hids ↦ h.2 hids.symm, fun hids ↦ h.1 hids.symm⟩⟩
  have hboth := (hnotba.and hnotab).forall (hmem a List.mem_cons_self)
    (hmem b (List.mem_cons_of_mem a List.mem_cons_self)) hne
  exact hboth.2 ⟨rfl, rfl⟩

end Order

/-- **Exactly when the order of the input does not matter.**  The ranking of distinct candidates is
what it is to be if and only if no two of them share a gap. -/
theorem queueRanked_iff (candidates : List (ZeroDteQueueCandidate Rest))
    (hnodup : (candidates.map (·.candidateId)).Nodup) :
    QueueRanked candidates ↔ NoSharedGap candidates := by
  refine ⟨fun h ↦ noSharedGap_of_ranking hnodup h.ranking, fun hgaps ↦ ?_⟩
  have hranking : ∀ permuted, candidates.Perm permuted →
      rankZeroDteQueue permuted = rankZeroDteQueue candidates := by
    intro permuted hperm
    rw [rankZeroDteQueue_eq, rankZeroDteQueue_eq, rankingOrder_eq_of_perm hnodup hgaps hperm]
  refine ⟨hranking, fun permuted options hperm ↦ ?_, ranks_eq candidates, ?_, ?_⟩
  · rw [selectZeroDteQueue, selectZeroDteQueue, hranking permuted hperm]
  · refine ranking_pairwise (fun _ _ _ _ h ↦ h) (rankingOrder_pairwise ?_)
    exact fun a i b j _ _ hle ↦ eligible_of_ranksNoLater hle
  · refine ranking_pairwise (fun _ _ _ _ h ↦ h) (rankingOrder_pairwise ?_)
    intro a i b j ha hb hle hsupplies
    by_cases hid : a.candidateId = b.candidateId
    · obtain ⟨-, rfl⟩ := eq_of_candidateId hnodup ha hb hid
      exact Criteria.not_supplies_self hsupplies
    · have hgap := hgaps a (List.mem_of_getElem? ha) b (List.mem_of_getElem? hb) hid
      have hindexed := le_of_ranksNoLater hle hid hgap
      exact Criteria.not_le_of_supplies (fun h ↦ hgap (Criteria.SharesGap.symm h)) hsupplies
        hindexed

/-! ## Runs -/

/-- Two candidates with different scores. -/
def scored : List (ZeroDteQueueCandidate Unit) :=
  [{ candidateId := "zdt_a", eligible := some true, totalScore := some (.finite 50), rest := () },
    { candidateId := "zdt_b", eligible := some true, totalScore := some (.finite 60), rest := () }]

theorem queueRanked_iff_scored : (scored.map (·.candidateId)).Nodup ∧
    (QueueRanked scored ↔ NoSharedGap scored) :=
  ⟨by decide, queueRanked_iff scored (by decide)⟩

/-- Two candidates with one score and no slope. -/
def slopeless : List (ZeroDteQueueCandidate Unit) :=
  [{ candidateId := "zdt_b", eligible := some true, totalScore := some (.finite 50), rest := () },
    { candidateId := "zdt_a", eligible := some true, totalScore := some (.finite 50), rest := () }]

/-- The candidates stay in the order of the input, not in that of their identifiers. -/
theorem ranking_depends_on_input : (slopeless.map (·.candidateId)).Nodup ∧
    (rankZeroDteQueue slopeless).map (·.candidateId) = ["zdt_b", "zdt_a"] ∧
    (rankZeroDteQueue slopeless.reverse).map (·.candidateId) = ["zdt_a", "zdt_b"] ∧
    ¬ QueueRanked slopeless := by
  refine ⟨by decide, by decide +kernel, by decide +kernel, fun h ↦ ?_⟩
  have hsame := congrArg (List.map (·.candidateId)) (h.ranking slopeless.reverse
    (List.reverse_perm _).symm)
  exact absurd hsame (by decide +kernel)

end ZeroDte

end AlpacaTrading
