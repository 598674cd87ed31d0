import AlpacaTrading.Lib.Text
import AlpacaTrading.Research.Candidates

/-!
# Ranking of research candidates

`rankResearchCandidates` scores the targets of a research run, takes the best of them as long as
the caps allow it and decides about every one.  What it reads from the database and the clock is an
argument here: the learning summary, the last backtest, the learning governance, and for a symbol
and a time the option of the strategy and the liquidity feature.

The texts of the rationale and the warnings are left out.
-/

namespace AlpacaTrading.CandidateRanking

/-! ## What is read -/

/-- `TargetSnapshotRow`. -/
structure TargetSnapshotRow where
  symbol : String
  asOf : String
  direction : CandidateDirection
  entryReference : ℚ
  upsideTarget : ℚ
  downsideRisk : ℚ
  stopLoss : Option ℚ
  takeProfit : Option ℚ
  confidence : ℚ
  expectedReturn : Option ℚ := none
  volatilityAdjustedScore : Option ℚ := none
  riskProfile : RiskProfile
  preferredExpression : PreferredExpression
deriving DecidableEq

/-- `CandidateOptionsCandidate`. -/
structure CandidateOptionsCandidate where
  optionSymbol : Option String := none
  strike : Option ℚ := none
  shortStrike : Option ℚ := none
  maxLoss : Option ℚ := none
  maxProfit : Option ℚ := none
  liquidityScore : Option ℚ := none

/-- `LearningSnapshot`. -/
structure LearningSnapshot where
  directionalAccuracy : Option ℚ := none
  optionOutperformanceAccuracy : Option ℚ := none

/-- What the last backtest says about one expression. -/
structure StrategyPerformance where
  winRate : ℚ
  avgReturn : ℚ
  setups : ℕ

/-- `BacktestPerf`. -/
structure BacktestPerf where
  runId : String
  maxDrawdown : Option ℚ
  byExpression : PreferredExpression → Option StrategyPerformance

/-- `PaperLearningGovernanceScope`. -/
inductive GovernanceScope where
  | strategyFamily | symbol
deriving DecidableEq, Repr

/-- `PaperLearningGovernanceState`. -/
inductive GovernanceState where
  | observe | prioritized | suspended
deriving DecidableEq, Repr

/-- `CurrentPaperLearningGovernanceDecision`. -/
structure GovernanceDecision where
  scopeType : GovernanceScope
  scopeKey : String
  state : GovernanceState
  priorityMultiplier : ℚ
deriving DecidableEq

/-- What the ranking reads besides its input. -/
structure Evidence where
  learning : LearningSnapshot := {}
  backtest : Option BacktestPerf := none
  governance : List GovernanceDecision := []
  /-- `getOptionCandidate`. -/
  optionCandidate : String → String → Option CandidateOptionsCandidate := fun _ _ ↦ none
  /-- The `preferredContractLiquidityScore` of `getLatestFeatureSnapshot`. -/
  liquidityFeature : String → String → Option ℚ := fun _ _ ↦ none
  /-- The instant a text stands for. -/
  instant : String → Option Time := fun _ ↦ none
  now : Time := 0

/-- `CandidateRankingInput`. -/
structure CandidateRankingInput where
  riskProfile : RiskProfile
  optionsEnabled : Bool
  targets : List TargetSnapshotRow
  maxCandidates : ℕ
  maxPerSymbol : ℕ
  maxPerDirection : ℕ
  maxPerExpression : ℕ

/-! ## Governance -/

/-- `normalizeSymbol`. -/
def normalizeSymbol (symbol : String) : String := Text.toUpperCase (Text.trim symbol)

/-- `CandidateLearningGovernance`. -/
structure CandidateLearningGovernance where
  suspended : Bool
  priorityMultiplier : ℚ
deriving DecidableEq

/-- `resolveCandidateLearningGovernance`. -/
def resolveCandidateLearningGovernance (symbol strategyFamily : String)
    (decisions : List GovernanceDecision) : CandidateLearningGovernance :=
  let relevant := decisions.filter fun d ↦
    (d.scopeType = .strategyFamily ∧ d.scopeKey = Text.toLowerCase (Text.trim strategyFamily)) ∨
      (d.scopeType = .symbol ∧ d.scopeKey = normalizeSymbol symbol)
  let suspended := relevant.any (·.state = .suspended)
  { suspended
    priorityMultiplier :=
      if suspended then 0
      else min (5 / 4) (relevant.foldl (fun multiplier d ↦ multiplier * d.priorityMultiplier) 1) }

/-! ## Scores -/

/-- `isLeveragedCandidate`. -/
def isLeveragedCandidate (symbol : String) : Bool :=
  Text.toUpperCase symbol ∈ ["TQQQ", "SQQQ", "SOXL", "SOXS", "FAS", "FAZ", "TNA", "TZA", "UPRO",
    "SPXU", "SPXL"]

/-- `calculateFreshnessPenalty`. -/
def calculateFreshnessPenalty (e : Evidence) (asOf : String) : ℚ :=
  match e.instant asOf with
  | none => 0
  | some asOfMs =>
    let ageDays : ℚ := ((e.now - asOfMs : ℤ) : ℚ) / (24 * 60 * 60 * 1000)
    if 0 < ageDays then clamp (ageDays * (8 / 10)) 0 15 else 0

/-- `asymmetrySignal`. -/
def asymmetrySignal (direction : CandidateDirection) (expression : PreferredExpression) : ℚ :=
  if expression ∈ [.callSpread, .putSpread, .collar, .protectivePut, .cashSecuredPut] then
    if direction = .long then 7 else 6
  else if expression ∈ [.longCall, .longPut] then 3
  else 0

/-- `estimateCandidatePnlRange`: the maximal loss and the maximal profit. -/
def estimateCandidatePnlRange (direction : CandidateDirection) (row : TargetSnapshotRow)
    (optionCandidate : Option CandidateOptionsCandidate) : Option ℚ × Option ℚ :=
  if row.preferredExpression = .shares ∨ row.preferredExpression = .none then
    let stopLoss := row.stopLoss.map fun stop ↦ |row.entryReference - stop|
    let takeProfit := row.takeProfit.map fun take ↦ |take - row.entryReference|
    if direction = .short then (takeProfit, stopLoss) else (stopLoss, takeProfit)
  else (optionCandidate.bind (·.maxLoss), optionCandidate.bind (·.maxProfit))

/-- The score of `computeScore`. -/
def computeScore (e : Evidence) (input : CandidateRankingInput) (row : TargetSnapshotRow)
    (optionsCandidate : Option CandidateOptionsCandidate) (freshnessPenalty : ℚ) : ℚ :=
  let expression := row.preferredExpression
  let optionLiquidity := ((optionsCandidate.bind (·.liquidityScore)).or
    (e.liquidityFeature row.symbol row.asOf)).getD 0
  let falsePositiveRate := match e.learning.directionalAccuracy with
    | some accuracy => max 0 (1 - accuracy)
    | none => 0
  let learned := fun accuracy : Option ℚ ↦ accuracy.any (55 / 100 < ·)
  let score := row.confidence * 42
    + clamp (row.expectedReturn.getD 0 * 100) (-10) 20 * (17 / 10)
    + clamp (row.volatilityAdjustedScore.getD 1 * 3) (-4) 8
    + (if expression ≠ .shares then
        clamp (optionLiquidity * 18) 0 18 + (if input.optionsEnabled then 4 else -2)
      else 0)
    + asymmetrySignal row.direction expression
    + clamp (15 - freshnessPenalty) 0 15
    + (if learned e.learning.directionalAccuracy then 5 else 0)
    + (if learned e.learning.optionOutperformanceAccuracy ∧ expression ≠ .shares then 5 else 0)
    - (if 6 / 10 < falsePositiveRate then 8 else 0)
    + (match e.backtest.bind (·.byExpression expression) with
      | some performance =>
        (if 2 ≤ performance.setups then 3 else 0) +
          (if 55 / 100 ≤ performance.winRate then (performance.winRate - 55 / 100) * 12
          else if 1 < performance.setups then -4 else 0)
      | none => 0)
    + (if input.riskProfile = .aggressive ∧ row.riskProfile = .aggressive then 6 else 0)
    + (if input.riskProfile = .aggressive ∧ isLeveragedCandidate row.symbol then 3 else 0)
    - (if input.riskProfile = .aggressive ∧ expression = .shares then 1 else 0)
    - (if input.riskProfile = .conservative ∧ 45 / 100 ≤ row.confidence then 2 else 0)
  clamp score 0 100

/-! ## Candidates -/

/-- `RankedCandidate`.  The random identifiers are the places of the targets. -/
structure RankedCandidate where
  id : ℕ
  symbol : String
  asOf : String
  rank : ℕ
  direction : CandidateDirection
  riskProfile : RiskProfile
  preferredExpression : PreferredExpression
  score : ℚ
  confidence : ℚ
  expectedReturn : Option ℚ
  estimatedMaxLoss : Option ℚ
  estimatedMaxProfit : Option ℚ
  relevantBacktestRunId : Option String
  historicalWinRate : Option ℚ
  historicalAvgReturn : Option ℚ
  historicalMaxDrawdown : Option ℚ
  similarSetupCount : Option ℕ
  optionLiquidityScore : ℚ
  volatilityAdjustedScore : Option ℚ
  signalFreshnessDays : ℤ
  recentLearningAdjustment : ℚ
  directionalAccuracy : Option ℚ
  optionOutperformanceAccuracy : Option ℚ
  optionSymbol : Option String
  strike : Option ℚ
  shortStrike : Option ℚ
deriving DecidableEq

/-- `sourceFromTargets`. -/
def sourceFromTargets (targets : List TargetSnapshotRow) : List TargetSnapshotRow :=
  (targets.filter (·.preferredExpression ≠ .none)).map fun target ↦
    { target with symbol := normalizeSymbol target.symbol }

/-- The governance of an expression of a symbol. -/
def governanceOf (e : Evidence) (symbol : String) (expression : PreferredExpression) :
    CandidateLearningGovernance :=
  resolveCandidateLearningGovernance symbol
    (if expression = .shares then "equity" else "standard_option") e.governance

/-- The candidate of a target. -/
def scoredCandidate (e : Evidence) (input : CandidateRankingInput) (id : ℕ)
    (target : TargetSnapshotRow) : RankedCandidate :=
  let options := e.optionCandidate target.symbol target.asOf
  let freshnessPenalty := calculateFreshnessPenalty e target.asOf
  let pnl := estimateCandidatePnlRange target.direction target options
  let performance := e.backtest.bind (·.byExpression target.preferredExpression)
  { id
    symbol := target.symbol
    asOf := target.asOf
    rank := 0
    direction := target.direction
    riskProfile := input.riskProfile
    preferredExpression := target.preferredExpression
    score := clamp (computeScore e input target options freshnessPenalty *
      (governanceOf e target.symbol target.preferredExpression).priorityMultiplier) 0 100
    confidence := target.confidence
    expectedReturn := target.expectedReturn
    estimatedMaxLoss := pnl.1
    estimatedMaxProfit := pnl.2
    relevantBacktestRunId := e.backtest.map (·.runId)
    historicalWinRate := performance.map (·.winRate)
    historicalAvgReturn := performance.map (·.avgReturn)
    historicalMaxDrawdown := e.backtest.bind (·.maxDrawdown)
    similarSetupCount := performance.map (·.setups)
    optionLiquidityScore := ((options.bind (·.liquidityScore)).or
      (e.liquidityFeature target.symbol target.asOf)).getD 0
    volatilityAdjustedScore := target.volatilityAdjustedScore
    signalFreshnessDays :=
      if 0 < freshnessPenalty then ⌊freshnessPenalty / (8 / 10) + 1 / 2⌋ else 0
    recentLearningAdjustment :=
      if e.learning.directionalAccuracy.any (55 / 100 < ·) then 5 else 0
    directionalAccuracy := e.learning.directionalAccuracy
    optionOutperformanceAccuracy := e.learning.optionOutperformanceAccuracy
    optionSymbol := options.bind (·.optionSymbol)
    strike := options.bind (·.strike)
    shortStrike := options.bind (·.shortStrike) }

/-- `scored`. -/
def scored (e : Evidence) (input : CandidateRankingInput) : List RankedCandidate :=
  (sourceFromTargets input.targets).mapIdx (scoredCandidate e input)

/-- `sorted`: by descending score, ties in the order of the targets. -/
def sorted (e : Evidence) (input : CandidateRankingInput) : List RankedCandidate :=
  (scored e input).insertionSort fun left right ↦ right.score ≤ left.score

/-! ## Selection -/

/-- `pickRiskProfileDefaults`: the caps for a symbol, a direction and an expression. -/
def pickRiskProfileDefaults : RiskProfile → ℕ × ℕ × ℕ
  | .aggressive => (3, 8, 6)
  | .conservative => (1, 3, 2)
  | .moderate => (2, 5, 4)

/-- `value || fallback`. -/
def orDefault (value fallback : ℕ) : ℕ := if value = 0 then fallback else value

namespace CandidateRankingInput

/-- The cap for a symbol. -/
def symbolCap (input : CandidateRankingInput) : ℕ :=
  orDefault input.maxPerSymbol (pickRiskProfileDefaults input.riskProfile).1

/-- The cap for a direction. -/
def directionCap (input : CandidateRankingInput) : ℕ :=
  orDefault input.maxPerDirection (pickRiskProfileDefaults input.riskProfile).2.1

/-- The cap for an expression. -/
def expressionCap (input : CandidateRankingInput) : ℕ :=
  orDefault input.maxPerExpression (pickRiskProfileDefaults input.riskProfile).2.2

end CandidateRankingInput

/-- The candidate is suspended by the learning governance. -/
def suspended (e : Evidence) (c : RankedCandidate) : Bool :=
  (governanceOf e c.symbol c.preferredExpression).suspended

/-- The variables of the selection loop. -/
structure Selection where
  bySymbol : String → ℕ := fun _ ↦ 0
  byDirection : CandidateDirection → ℕ := fun _ ↦ 0
  byExpression : PreferredExpression → ℕ := fun _ ↦ 0
  skippedReasons : ℕ → Option String := fun _ ↦ none
  selected : List RankedCandidate := []

/-- `skippedReasons.set`. -/
def Selection.skip (s : Selection) (c : RankedCandidate) (reason : String) : Selection :=
  { s with skippedReasons := Function.update s.skippedReasons c.id (some reason) }

/-- The candidate is selected and counted. -/
def Selection.select (s : Selection) (c : RankedCandidate) : Selection :=
  { s with
    bySymbol := Function.update s.bySymbol c.symbol (s.bySymbol c.symbol + 1)
    byDirection := Function.update s.byDirection c.direction (s.byDirection c.direction + 1)
    byExpression :=
      Function.update s.byExpression c.preferredExpression (s.byExpression c.preferredExpression + 1)
    selected := s.selected ++ [c] }

/-- One round of the selection loop. -/
def selectStep (e : Evidence) (input : CandidateRankingInput) (s : Selection)
    (c : RankedCandidate) : Selection :=
  if suspended e c then s.skip c "LEARNING_GOVERNANCE_SUSPENDED"
  else if input.maxCandidates ≤ s.selected.length then s.skip c "MAX_CANDIDATES_REACHED"
  else if input.symbolCap ≤ s.bySymbol c.symbol then s.skip c "MAX_PER_SYMBOL_REACHED"
  else if input.directionCap ≤ s.byDirection c.direction then
    s.skip c "MAX_PER_DIRECTION_REACHED"
  else if input.expressionCap ≤ s.byExpression c.preferredExpression then
    s.skip c "MAX_PER_EXPRESSION_REACHED"
  else s.select c

/-- The selection loop. -/
def selectLoop (e : Evidence) (input : CandidateRankingInput) (candidates : List RankedCandidate) :
    Selection :=
  candidates.foldl (selectStep e input) {}

/-- The aggressive profile drops the caps when they left nothing. -/
def Selection.relax (s : Selection) (e : Evidence) (input : CandidateRankingInput)
    (candidates : List RankedCandidate) : Selection :=
  let eligibleForFallback := candidates.filter fun c ↦ !suspended e c
  if s.selected = [] ∧ eligibleForFallback ≠ [] ∧ input.riskProfile = .aggressive then
    let chosen := eligibleForFallback.take input.maxCandidates
    { s with
      selected := chosen
      skippedReasons := fun id ↦ if id ∈ chosen.map (·.id) then none else s.skippedReasons id }
  else s

/-! ## Decisions -/

/-- `CandidateDecisionRecord`. -/
structure CandidateDecisionRecord where
  candidate : RankedCandidate
  decision : CandidateDecision
  decisionReason : String
  strategyFamily : PreferredExpression

/-- `CandidateRankingResult`. -/
structure CandidateRankingResult where
  candidates : List RankedCandidate
  decisions : List CandidateDecisionRecord

/-- The selected candidates with their ranks. -/
def withRanks (selected : List RankedCandidate) : List RankedCandidate :=
  selected.mapIdx fun index c ↦ { c with rank := index + 1 }

/-- The decision about the candidate at a place of the sorted list. -/
def decisionFor (s : Selection) (index : ℕ) (c : RankedCandidate) : CandidateDecisionRecord :=
  match (withRanks s.selected).find? (·.id = c.id) with
  | some chosen =>
    { candidate := { c with rank := chosen.rank }
      decision := .selected
      decisionReason := "RANKED_SELECTED"
      strategyFamily := c.preferredExpression }
  | none =>
    { candidate := { c with rank := index + 1 }
      decision := .skipped
      decisionReason := (s.skippedReasons c.id).getD "RANKING_CONSTRAINT"
      strategyFamily := c.preferredExpression }

/-- `rankResearchCandidates`. -/
def rankResearchCandidates (e : Evidence) (input : CandidateRankingInput) :
    CandidateRankingResult :=
  let candidates := sorted e input
  let selection := (selectLoop e input candidates).relax e input candidates
  { candidates := withRanks selection.selected
    decisions := candidates.mapIdx (decisionFor selection) }

end AlpacaTrading.CandidateRanking
