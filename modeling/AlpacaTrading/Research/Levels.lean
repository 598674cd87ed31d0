import AlpacaTrading.Research.Selection

/-!
# Stops, targets and what they cost

Target generation places the stop and the take-profit level of a share target on the sides its
direction asks for.  Two services turn these levels into a maximal loss and a maximal profit.  The
PostgreSQL store takes the distances as they are, and the ranking exchanges them for a short
target, as if the levels had not been placed by direction already.
-/

namespace AlpacaTrading.CandidateRanking

/-! ## Target generation -/

/-- The features of a symbol that target generation reads; a value of another type is missing. -/
structure TargetFeatures where
  trend : Option String := none
  rsi14 : Option ℚ := none
  ema9 : Option ℚ := none
  ema21 : Option ℚ := none
  macdHistogram : Option ℚ := none
  relativeVolume : Option ℚ := none
  atmImpliedVol : Option ℚ := none
  atr14 : Option ℚ := none
  close : Option ℚ := none

/-- `Math.sign`. -/
def sign (x : ℚ) : ℚ := if 0 < x then 1 else if x < 0 then -1 else 0

/-- The result of `parseFeature`. -/
structure ParsedFeature where
  directionScore : ℚ
  volatilityAdjusted : ℚ
  atr : Option ℚ
  close : ℚ

/-- `parseFeature`. -/
def parseFeature (f : TargetFeatures) : ParsedFeature where
  directionScore :=
    (if f.trend = some "bullish" then 1 else if f.trend = some "bearish" then -1 else 0) +
    (f.rsi14.map fun rsi ↦ (rsi - 50) / 100).getD 0 +
    (match f.ema9, f.ema21 with
      | some ema9, some ema21 => (ema9 - ema21) / (if ema21 = 0 then 1 else ema21)
      | _, _ => 0) +
    (f.macdHistogram.map fun macd ↦ sign macd * (2 / 10)).getD 0 +
    (f.relativeVolume.map fun volume ↦ 2 / 10 * (volume - 1)).getD 0
  volatilityAdjusted := max 0 (min 2 (1 + f.atmImpliedVol.getD (2 / 10)))
  atr := f.atr14
  close := f.close.getD 0

/-- The direction of a score. -/
def directionOf (directionScore : ℚ) : CandidateDirection :=
  if directionScore < -(1 / 4) then .short
  else if 1 / 4 < directionScore then .long
  else .neutral

/-- The levels around an entry price: `upsideTarget`, `downsideRisk`, `stopLoss` and
`takeProfit`. -/
structure Levels where
  upsideTarget : ℚ
  downsideRisk : ℚ
  stopLoss : ℚ
  takeProfit : ℚ
deriving DecidableEq

/-- The levels of a direction at a price with an average true range. -/
def levelsOf (direction : CandidateDirection) (entryReference : ℚ) (atr : Option ℚ) : Levels :=
  let stopLossDist := (atr.map (· * (3 / 2))).getD 0
  let takeProfitDist := (atr.map (· * 3)).getD 0
  { upsideTarget := entryReference + takeProfitDist
    downsideRisk := entryReference - stopLossDist
    stopLoss := if direction = .long then entryReference - stopLossDist
      else entryReference + stopLossDist
    takeProfit := if direction = .long then entryReference + takeProfitDist
      else entryReference - takeProfitDist }

/-- A row of `generateTargets`.  The accuracy of the last learning run and the expression, which
`selectExpression` picks, are arguments. -/
def generateTarget (symbol asOf : String) (f : TargetFeatures) (accuracy : Option ℚ)
    (profile : Option RiskProfile) (expression : PreferredExpression) : TargetSnapshotRow :=
  let parsed := parseFeature f
  let learningBoost := max 0 (min 1 (accuracy.getD (1 / 2) - 1 / 2))
  let confidence := min 1 (max 0 (|parsed.directionScore| / 2 + learningBoost * (2 / 10)))
  let direction := directionOf parsed.directionScore
  let levels := levelsOf direction parsed.close parsed.atr
  { symbol
    asOf
    direction
    entryReference := parsed.close
    upsideTarget := levels.upsideTarget
    downsideRisk := levels.downsideRisk
    stopLoss := some levels.stopLoss
    takeProfit := some levels.takeProfit
    confidence
    expectedReturn := some (parsed.directionScore *
      (if parsed.volatilityAdjusted = 0 then 1 else parsed.volatilityAdjusted))
    volatilityAdjustedScore := some parsed.volatilityAdjusted
    riskProfile := profile.getD
      (if 7 / 10 < |parsed.directionScore| ∧ 3 / 4 < confidence then .aggressive
      else if confidence < 45 / 100 ∨ parsed.atr.any (6 / 100 < ·) then .conservative
      else .moderate)
    preferredExpression := expression }

/-! ## What a share loses and gains -/

/-- What a share of a position loses when the price moves from one to another. -/
def lossPerShare (direction : CandidateDirection) (entry price : ℚ) : ℚ :=
  if direction = .short then price - entry else entry - price

/-- What it gains. -/
def gainPerShare (direction : CandidateDirection) (entry price : ℚ) : ℚ :=
  -lossPerShare direction entry price

/-- The recorded pair is the loss at the stop and the gain at the take-profit level. -/
def RecordsLevels (t : TargetSnapshotRow) (loss profit : Option ℚ) : Prop :=
  loss = t.stopLoss.map (lossPerShare t.direction t.entryReference) ∧
    profit = t.takeProfit.map (gainPerShare t.direction t.entryReference)

/-- The target has the direction and the levels of a row. -/
structure SameLevels (target : ResearchTarget) (t : TargetSnapshotRow) : Prop where
  direction : target.direction = t.direction
  entryReference : target.entryReference = t.entryReference
  stopLoss : target.stopLoss = t.stopLoss
  takeProfit : target.takeProfit = t.takeProfit

/-- A share target that target generation built with a direction and a positive range. -/
structure GeneratedShares (t : TargetSnapshotRow) : Prop where
  built : ∃ symbol asOf f accuracy profile, t = generateTarget symbol asOf f accuracy profile .shares ∧
    ∃ atr, f.atr14 = some atr ∧ 0 < atr
  directed : t.direction = .long ∨ t.direction = .short

section Levels

variable {t : TargetSnapshotRow}

/-- The levels lie on the sides the direction asks for, the target twice as far as the stop. -/
theorem GeneratedShares.levels (h : GeneratedShares t) : t.preferredExpression = .shares ∧
    ∃ distance > 0,
      (t.direction = .long ∧ t.stopLoss = some (t.entryReference - distance) ∧
        t.takeProfit = some (t.entryReference + 2 * distance)) ∨
      (t.direction = .short ∧ t.stopLoss = some (t.entryReference + distance) ∧
        t.takeProfit = some (t.entryReference - 2 * distance)) := by
  obtain ⟨symbol, asOf, f, accuracy, profile, rfl, atr, hatr, hpos⟩ := h.built
  refine ⟨rfl, atr * (3 / 2), by positivity, ?_⟩
  have hparsed : (parseFeature f).atr = some atr := hatr
  have hdouble : 2 * (atr * (3 / 2)) = atr * 3 := by ring
  rcases h.directed with hdir | hdir
  · refine Or.inl ⟨hdir, ?_, ?_⟩
    all_goals simp only [generateTarget] at hdir
    all_goals simp only [generateTarget, levelsOf, hparsed, hdir, hdouble, Option.map_some,
      Option.getD_some, if_true]
  · refine Or.inr ⟨hdir, ?_, ?_⟩
    all_goals simp only [generateTarget] at hdir
    all_goals simp only [generateTarget, levelsOf, hparsed, hdir, hdouble, Option.map_some,
      Option.getD_some, reduceCtorEq, if_false]

/-- The PostgreSQL store records the distances, and they are the loss and the gain. -/
theorem stored_levels [Hashing] (h : GeneratedShares t) {d : ResearchDecision}
    (hd : SameLevels d.target t) (input : PersistCandidatesInput) :
    RecordsLevels t (d.candidate input).estimatedMaxLoss (d.candidate input).estimatedMaxProfit := by
  obtain ⟨-, distance, hpos, ⟨hdir, hstop, htake⟩ | ⟨hdir, hstop, htake⟩⟩ := h.levels
  · constructor <;>
      simp only [ResearchDecision.candidate, hd.entryReference, hd.stopLoss, hd.takeProfit, hstop,
        htake, hdir, lossPerShare, gainPerShare, Option.map_some, reduceCtorEq, if_false]
    · rw [sub_sub_cancel, abs_of_pos hpos]
    · rw [add_sub_cancel_left, abs_of_pos (by positivity)]
      ring_nf
  · constructor <;>
      simp only [ResearchDecision.candidate, hd.entryReference, hd.stopLoss, hd.takeProfit, hstop,
        htake, hdir, lossPerShare, gainPerShare, Option.map_some, if_true]
    · rw [sub_add_cancel_left, abs_neg, abs_of_pos hpos, add_sub_cancel_left]
    · rw [sub_sub_cancel_left, abs_neg, abs_of_pos (by positivity), neg_neg]

/-- The estimate of the ranking is the pair of a long target, and exchanged for a short one. -/
theorem estimate_levels_iff (h : GeneratedShares t) (symbol : String)
    (option : Option CandidateOptionsCandidate) :
    RecordsLevels t
        (estimateCandidatePnlRange t.direction { t with symbol := symbol } option).1
        (estimateCandidatePnlRange t.direction { t with symbol := symbol } option).2 ↔
      t.direction = .long := by
  obtain ⟨hshares, distance, hpos, ⟨hdir, hstop, htake⟩ | ⟨hdir, hstop, htake⟩⟩ := h.levels
  · refine iff_of_true ?_ hdir
    constructor <;>
      simp only [estimateCandidatePnlRange, hshares, true_or, if_true, hstop, htake, hdir,
        lossPerShare, gainPerShare, Option.map_some, reduceCtorEq, if_false]
    · rw [sub_sub_cancel, abs_of_pos hpos]
    · rw [add_sub_cancel_left, abs_of_pos (by positivity)]
      ring_nf
  · refine iff_of_false ?_ (by simp [hdir])
    rintro ⟨hloss, -⟩
    simp only [estimateCandidatePnlRange, hshares, true_or, if_true, hstop, htake, hdir,
      lossPerShare, Option.map_some, Option.some.injEq] at hloss
    rw [sub_sub_cancel_left, abs_neg, abs_of_pos (by positivity), add_sub_cancel_left] at hloss
    linarith

/-- A decision carries a sorted candidate, up to the number. -/
theorem exists_sorted {e : Evidence} {input : CandidateRankingInput}
    {d : CandidateDecisionRecord} (hd : d ∈ (rankResearchCandidates e input).decisions) :
    ∃ c ∈ sorted e input, d.candidate.unranked = c := by
  obtain ⟨n, hn, rfl⟩ := List.mem_mapIdx.1 hd
  refine ⟨_, List.getElem_mem hn, ?_⟩
  rw [← unranked_scored _ (List.getElem_mem hn), decisionFor]
  split <;> rfl

/-- A decision carries the candidate of the target at its place. -/
theorem decision_candidate {e : Evidence} {input : CandidateRankingInput}
    {d : CandidateDecisionRecord} (hd : d ∈ (rankResearchCandidates e input).decisions)
    {row : TargetSnapshotRow}
    (hrow : (sourceFromTargets input.targets)[d.candidate.id]? = some row) :
    d.candidate.unranked = scoredCandidate e input d.candidate.id row := by
  obtain ⟨c, hc, hunranked⟩ := exists_sorted hd
  obtain ⟨i, hi, hrecord⟩ := List.mem_mapIdx.1 ((sorted_perm e input).mem_iff.1 hc)
  have hid : d.candidate.id = i :=
    congrArg RankedCandidate.id (hunranked.trans hrecord.symm)
  rw [hid, List.getElem?_eq_getElem hi] at hrow
  rw [hunranked, ← hrecord, hid, Option.some.inj hrow]

/-- **The records follow the levels** exactly for a long target: for a short one the ranking takes
the stop for the profit and the target for the loss, while the store has them right. -/
theorem records_levels_iff [Hashing] (h : GeneratedShares t) {e : Evidence}
    {input : CandidateRankingInput} {d : CandidateDecisionRecord}
    (hd : d ∈ (rankResearchCandidates e input).decisions)
    (ht : (sourceFromTargets input.targets)[d.candidate.id]? =
      some { t with symbol := normalizeSymbol t.symbol })
    {stored : ResearchDecision} (hstored : SameLevels stored.target t)
    (persisted : PersistCandidatesInput) :
    (RecordsLevels t d.candidate.estimatedMaxLoss d.candidate.estimatedMaxProfit ∧
      RecordsLevels t (stored.candidate persisted).estimatedMaxLoss
        (stored.candidate persisted).estimatedMaxProfit) ↔ t.direction = .long := by
  rw [and_iff_left (stored_levels h hstored persisted)]
  have hd' := decision_candidate hd ht
  have hloss : d.candidate.unranked.estimatedMaxLoss = _ :=
    congrArg RankedCandidate.estimatedMaxLoss hd'
  have hprofit : d.candidate.unranked.estimatedMaxProfit = _ :=
    congrArg RankedCandidate.estimatedMaxProfit hd'
  rw [show d.candidate.estimatedMaxLoss = d.candidate.unranked.estimatedMaxLoss from rfl,
    show d.candidate.estimatedMaxProfit = d.candidate.unranked.estimatedMaxProfit from rfl]
  rw [hloss, hprofit]
  exact estimate_levels_iff h _ _

end Levels

namespace Specimen

/-- The features of a symbol at 100 with a range of 2. -/
def trending (trend : String) : TargetFeatures :=
  { trend := some trend, atr14 := some 2, close := some 100 }

/-- The share target of these features. -/
def trendTarget (trend : String) : TargetSnapshotRow :=
  generateTarget "XYZ" "2026-01-05T15:00:00.000Z" (trending trend) none none .shares

/-- A ranking of that target alone. -/
def trendInput (trend : String) : CandidateRankingInput where
  riskProfile := .moderate
  optionsEnabled := false
  targets := [trendTarget trend]
  maxCandidates := 5
  maxPerSymbol := 5
  maxPerDirection := 5
  maxPerExpression := 5

/-- The decision of the store about the same target. -/
def storedDecision (trend : String) : ResearchDecision where
  target :=
    { symbol := "XYZ", sourceFingerprint := "", asOf := 0, preferredExpression := .shares
      direction := (trendTarget trend).direction
      entryReference := (trendTarget trend).entryReference
      stopLoss := (trendTarget trend).stopLoss
      takeProfit := (trendTarget trend).takeProfit
      confidence := (trendTarget trend).confidence }
  family := .equity
  score := 0
  rank := 1
  selected := true
  reasons := ["RANKED_SELECTED"]

/-- A run of the store. -/
def storeInput : PersistCandidatesInput where
  researchRunId := "run"
  optionsEnabled := false
  targets := []
  maxCandidates := 1
  now := 0
  leapsPolicy := ⟨180, 800⟩
  scoreAdjustment := fun _ _ ↦ 0

theorem trendTarget_generated {trend : String}
    (h : (trendTarget trend).direction = .long ∨ (trendTarget trend).direction = .short) :
    GeneratedShares (trendTarget trend) :=
  ⟨⟨_, _, _, _, _, rfl, 2, rfl, by norm_num⟩, h⟩

theorem trendInput_row {trend : String} {d : CandidateDecisionRecord}
    (hids : (rankResearchCandidates {} (trendInput trend)).decisions.map (·.candidate.id) = [0])
    (hd : d ∈ (rankResearchCandidates {} (trendInput trend)).decisions) :
    (sourceFromTargets (trendInput trend).targets)[d.candidate.id]? =
      some { trendTarget trend with symbol := normalizeSymbol (trendTarget trend).symbol } := by
  have hid : d.candidate.id ∈ [0] := hids ▸ List.mem_map_of_mem hd
  rw [List.mem_singleton.1 hid]
  rfl

end Specimen

/-- The loss and the gain of a long target are recorded as they are. -/
theorem specimen_long_levels :
    let _ := AlpacaTrading.Specimen.hashing
    let result := rankResearchCandidates {} (Specimen.trendInput "bullish")
    let stored := (Specimen.storedDecision "bullish").candidate Specimen.storeInput
    result.decisions.length = 1 ∧ ∀ d ∈ result.decisions,
      RecordsLevels (Specimen.trendTarget "bullish") d.candidate.estimatedMaxLoss
          d.candidate.estimatedMaxProfit ∧
        RecordsLevels (Specimen.trendTarget "bullish") stored.estimatedMaxLoss
          stored.estimatedMaxProfit := by
  intro _ result stored
  have hdir : (Specimen.trendTarget "bullish").direction = .long := by decide +kernel
  refine ⟨by decide +kernel, fun d hd ↦ ?_⟩
  exact (records_levels_iff (Specimen.trendTarget_generated (Or.inl hdir)) hd
    (Specimen.trendInput_row (by decide +kernel) hd) ⟨rfl, rfl, rfl, rfl⟩ _).2 hdir

/-- A short target at 100 with its stop at 103 and its goal at 94: the ranking records a loss of 6
and a profit of 3. -/
theorem short_levels_exchanged :
    ¬ ∀ (_ : Hashing) t, GeneratedShares t → ∀ e input,
      ∀ d ∈ (rankResearchCandidates e input).decisions,
        (sourceFromTargets input.targets)[d.candidate.id]? =
            some { t with symbol := normalizeSymbol t.symbol } →
          ∀ (stored : ResearchDecision) persisted, SameLevels stored.target t →
            RecordsLevels t d.candidate.estimatedMaxLoss d.candidate.estimatedMaxProfit ∧
              RecordsLevels t (stored.candidate persisted).estimatedMaxLoss
                (stored.candidate persisted).estimatedMaxProfit := by
  intro h
  have hdir : (Specimen.trendTarget "bearish").direction = .short := by decide +kernel
  have hlosses : (rankResearchCandidates {} (Specimen.trendInput "bearish")).decisions.map
      (·.candidate.estimatedMaxLoss) = [some 6] := by decide +kernel
  obtain ⟨d, hd, hloss⟩ := List.mem_map.1 (hlosses ▸ List.mem_singleton_self (some (6 : ℚ)))
  have hlevels := (h AlpacaTrading.Specimen.hashing _
    (Specimen.trendTarget_generated (Or.inr hdir)) {} _ d hd
    (Specimen.trendInput_row (by decide +kernel) hd) (Specimen.storedDecision "bearish")
    Specimen.storeInput ⟨rfl, rfl, rfl, rfl⟩).1.1
  rw [hloss] at hlevels
  revert hlevels
  decide +kernel

end AlpacaTrading.CandidateRanking
