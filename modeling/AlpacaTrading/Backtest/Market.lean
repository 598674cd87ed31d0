import Mathlib.Data.List.MinMax
import Mathlib.Data.List.Sort
import Mathlib.Data.String.Basic
import AlpacaTrading.Lib.Extended
import AlpacaTrading.Market.Option
import AlpacaTrading.Research.Candidates

/-!
# What a backtest reads

The bars of a symbol, the features of its days and the contracts and quotes of its options, and
the choice of an expression for a direction.

The features of a symbol are those of its latest snapshot only: `getLatestFeatures` keeps one row
for a symbol.  So a backtest, which looks for the features of each bar among them, finds the
features of one bar of a symbol at most (`getFeatureForDate_unique`).
-/

namespace AlpacaTrading

namespace Backtest

open ExtendedNumber

/-! ## Tables -/

/-- A value of the JSON record of features: a text or a number. -/
inductive FeatureValue where
  | text (s : String)
  | number (v : ℚ)
deriving DecidableEq

/-- Whether `value || …` stops at the value. -/
def FeatureValue.truthy : FeatureValue → Bool
  | text s => s ≠ ""
  | number v => v ≠ 0

/-- `Number` of a text. -/
class TextNumber where
  numberOfText : String → ExtendedNumber

/-- `Number` of a value. -/
def FeatureValue.toNumber [TextNumber] : FeatureValue → ExtendedNumber
  | text s => TextNumber.numberOfText s
  | number v => finite v

/-- The value, `if typeof value === "number"`. -/
def FeatureValue.number? : FeatureValue → Option ℚ
  | text _ => none
  | number v => some v

/-- The features of a day that a backtest reads. -/
structure Features where
  trend : Option FeatureValue := none
  direction : Option FeatureValue := none
  atr14 : Option FeatureValue := none
  atmImpliedVol : Option FeatureValue := none
  preferredContractLiquidityScore : Option FeatureValue := none
  estimatedBidAskSpreadPct : Option FeatureValue := none
  callLiquidityAvailable : Option FeatureValue := none
  putLiquidityAvailable : Option FeatureValue := none

/-- A row of `feature_snapshots`. -/
structure FeatureRow where
  symbol : String
  timestamp : String
  features : Features

/-- A row of `market_bars`. -/
structure BarRow where
  symbol : String
  timeframe : String := "1Day"
  timestamp : String
  opening : ℚ
  close : ℚ

/-- A row of `option_contracts`. -/
structure ContractRow where
  underlyingSymbol : String
  optionSymbol : String
  type : OptionType
  expirationDate : String
  strike : ℚ
  tradable : Bool

/-- A row of `option_snapshots`. -/
structure SnapshotRow where
  optionSymbol : String
  timestamp : String
  bid : Option ℚ := none
  ask : Option ℚ := none
  midpoint : Option ℚ := none
  last : Option ℚ := none

/-- What a backtest finds: the active symbols of the universe, in the order of `getActiveSymbols`,
and the tables of market data.  The keys of the tables are unique. -/
structure ResearchData where
  symbols : List String
  bars : List BarRow := []
  features : List FeatureRow := []
  contracts : List ContractRow := []
  snapshots : List SnapshotRow := []
  symbols_nodup : symbols.Nodup
  bars_nodup : (bars.map fun b ↦ (b.symbol, b.timeframe, b.timestamp)).Nodup
  features_nodup : (features.map fun f ↦ (f.symbol, f.timestamp)).Nodup

namespace ResearchData

variable (data : ResearchData)

/-- `getBars(symbol, "1Day", startDate, endDate)`. -/
def getBars (startDate endDate : Option String) (symbol : String) : List BarRow :=
  (data.bars.filter fun bar ↦ bar.symbol = symbol ∧ bar.timeframe = "1Day" ∧
      startDate.all (· ≤ bar.timestamp) ∧ endDate.all (bar.timestamp ≤ ·)).insertionSort
    (·.timestamp ≤ ·.timestamp)

/-- `getLatestFeatures`. -/
def getLatestFeatures : List FeatureRow :=
  data.features.filter fun f ↦
    data.features.all fun g ↦ g.symbol = f.symbol → g.timestamp ≤ f.timestamp

/-- `getFeatureForDate`.  The rows of a symbol are one at most, so that there is no order to put
them in. -/
def getFeatureForDate (symbol timestamp : String) : Option FeatureRow :=
  (data.getLatestFeatures.filter (·.symbol = symbol)).find? (·.timestamp = timestamp)

/-- `optionContractsForUnderlying`: the tradable contract of a type whose strike is nearest. -/
def optionContractsForUnderlying (symbol : String) (type : OptionType) (price : ℚ) :
    Option ContractRow :=
  (data.contracts.filter fun row ↦
    row.underlyingSymbol = symbol ∧ row.type = type ∧ row.tradable).argmin (|·.strike - price|)

/-- `optionSnapshotForSymbol`. -/
def optionSnapshotForSymbol (optionSymbol : String) : Option SnapshotRow :=
  (data.snapshots.filter (·.optionSymbol = optionSymbol)).argmax (·.timestamp)

end ResearchData

section Reads

variable {data : ResearchData} {startDate endDate : Option String} {symbol : String}

/-- The bars of a symbol are in the order of their times, no two at one time. -/
theorem getBars_sorted :
    (data.getBars startDate endDate symbol).Pairwise (·.timestamp < ·.timestamp) := by
  have : Std.Total (fun a b : BarRow ↦ a.timestamp ≤ b.timestamp) := ⟨fun a b ↦ le_total _ _⟩
  have : IsTrans BarRow (fun a b ↦ a.timestamp ≤ b.timestamp) := ⟨fun a b c ↦ le_trans⟩
  let kept := data.bars.filter fun bar ↦ bar.symbol = symbol ∧ bar.timeframe = "1Day" ∧
    startDate.all (· ≤ bar.timestamp) ∧ endDate.all (bar.timestamp ≤ ·)
  have hperm : (data.getBars startDate endDate symbol).Perm kept := List.perm_insertionSort _ _
  have hsorted : (data.getBars startDate endDate symbol).Pairwise (·.timestamp ≤ ·.timestamp) :=
    List.pairwise_insertionSort _ _
  -- The rows that are kept agree in symbol and time frame, so their times differ.
  have hne : kept.Pairwise (·.timestamp ≠ ·.timestamp) := by
    refine ((List.pairwise_map.1 data.bars_nodup).filter _).imp_of_mem fun ha hb hab heq ↦ hab ?_
    have hkey : ∀ {c : BarRow}, c ∈ kept → c.symbol = symbol ∧ c.timeframe = "1Day" := fun hc ↦
      (of_decide_eq_true (List.mem_filter.1 hc).2).imp_right And.left
    rw [(hkey ha).1, (hkey ha).2, (hkey hb).1, (hkey hb).2, heq]
  have hne' := hne.perm hperm.symm fun h ↦ h.symm
  exact hsorted.imp₂ (fun _ _ hle hne ↦ lt_of_le_of_ne hle hne) hne'

/-- **The features of a symbol are found at one time at most.** -/
theorem getFeatureForDate_unique {t u : String} {f g : FeatureRow}
    (hf : data.getFeatureForDate symbol t = some f)
    (hg : data.getFeatureForDate symbol u = some g) : t = u := by
  have hlatest : ∀ {v : String} {h : FeatureRow}, data.getFeatureForDate symbol v = some h →
      h ∈ data.features ∧ h.symbol = symbol ∧ h.timestamp = v ∧
        ∀ g ∈ data.features, g.symbol = h.symbol → g.timestamp ≤ h.timestamp := by
    intro v h hh
    obtain ⟨hmem, hsymbol⟩ := List.mem_filter.1 (List.mem_of_find?_eq_some hh)
    obtain ⟨hin, hall⟩ := List.mem_filter.1 hmem
    have htime : decide (h.timestamp = v) = true :=
      List.find?_some (p := fun f : FeatureRow ↦ f.timestamp = v) hh
    refine ⟨hin, of_decide_eq_true hsymbol, of_decide_eq_true htime, ?_⟩
    intro g hg
    exact of_decide_eq_true (List.all_eq_true.1 hall g hg)
  obtain ⟨hfmem, hfs, rfl, hfmax⟩ := hlatest hf
  obtain ⟨hgmem, hgs, rfl, hgmax⟩ := hlatest hg
  exact le_antisymm (hgmax f hfmem (hfs.trans hgs.symm)) (hfmax g hgmem (hgs.trans hfs.symm))

end Reads

/-! ## The choice of an expression -/

/-- `StrategySelectionInput`. -/
structure StrategySelectionInput where
  direction : CandidateDirection
  confidence : ℚ
  expectedReturn : Option ℚ
  atr : Option ℚ
  iv : Option ExtendedNumber
  liquidityScore : ℚ
  spreadPct : Option ℚ
  hasOptionsData : Bool

/-- `StrategySelectionThresholds`; the values are those of `BASELINE_DECISION_THRESHOLDS`. -/
structure StrategySelectionThresholds where
  minimumDirectionalConfidence : ℚ := 35 / 100
  minimumOptionLiquidityScore : ℚ := 1 / 2
  maximumOptionSpreadPct : ℚ := 8 / 100
  minimumLongOptionConfidence : ℚ := 1 / 2
  minimumAggressiveOptionConfidence : ℚ := 7 / 10
  minimumDefinedRiskConfidence : ℚ := 8 / 10
  minimumOptionExpectedReturnPct : ℚ := 1
  minimumDefinedRiskExpectedReturnPct : ℚ := 3 / 2

/-- `StrategySelectorResult`, as far as a backtest reads it. -/
structure StrategySelectorResult where
  direction : CandidateDirection
  preferredExpression : PreferredExpression
deriving DecidableEq

/-- `percent`. -/
def percent (num den : ℚ) : ℚ := if den = 0 then 0 else num / den * 100

section Selection

variable (input : StrategySelectionInput) (isAggressiveAllowed : Bool)
  (thresholds : StrategySelectionThresholds)

/-- The expression that a confident direction with liquid options gets. -/
def convexExpression : PreferredExpression :=
  let hasGoodSpread := input.spreadPct.all (· ≤ thresholds.maximumOptionSpreadPct)
  let expectedMagnitude := input.expectedReturn.getD 0 * 100
  let iv := input.iv.getD (finite 0)
  if input.direction = .long ∧ thresholds.minimumLongOptionConfidence ≤ input.confidence ∧
      thresholds.minimumOptionExpectedReturnPct ≤ expectedMagnitude then
    if isAggressiveAllowed ∧ lt (finite (1 / 4)) iv ∧ hasGoodSpread ∧
        thresholds.minimumAggressiveOptionConfidence < input.confidence then .longCall
    else .shares
  else if input.direction = .short ∧
      expectedMagnitude ≤ -thresholds.minimumOptionExpectedReturnPct ∧ isAggressiveAllowed ∧
      thresholds.minimumAggressiveOptionConfidence < input.confidence then
    if lt (finite (22 / 100)) iv ∧ hasGoodSpread then .longPut else .shares
  else .shares

/-- The expression that a very confident direction gets in its place. -/
def definedRiskExpression (preferred : PreferredExpression) : PreferredExpression :=
  let expectedMagnitude := input.expectedReturn.getD 0 * 100
  if thresholds.minimumDefinedRiskConfidence ≤ |input.confidence| ∧
      0 < percent (input.atr.getD 0) (input.atr.getD 0) then
    if input.direction = .long ∧
        thresholds.minimumDefinedRiskExpectedReturnPct ≤ expectedMagnitude then .callSpread
    else if input.direction = .short ∧
        expectedMagnitude ≤ -thresholds.minimumDefinedRiskExpectedReturnPct then .putSpread
    else preferred
  else preferred

/-- `selectExpressionWithPolicy`. -/
def selectExpressionWithPolicy : StrategySelectorResult :=
  if input.direction = .neutral ∨ input.confidence < thresholds.minimumDirectionalConfidence then
    { direction := input.direction, preferredExpression := .none }
  else
    let hasLiquidOptions := input.hasOptionsData ∧
      thresholds.minimumOptionLiquidityScore ≤ input.liquidityScore
    let convex := if hasLiquidOptions then convexExpression input isAggressiveAllowed thresholds
      else .shares
    { direction := input.direction
      preferredExpression :=
        if hasLiquidOptions ∧ isAggressiveAllowed then
          definedRiskExpression input thresholds convex
        else convex }

/-- `selectExpression`. -/
def selectExpression : StrategySelectorResult :=
  selectExpressionWithPolicy input isAggressiveAllowed {}

variable {input isAggressiveAllowed thresholds}

/-- The choice keeps the direction. -/
@[simp] theorem selectExpressionWithPolicy_direction :
    (selectExpressionWithPolicy input isAggressiveAllowed thresholds).direction =
      input.direction := by
  rw [selectExpressionWithPolicy]
  split_ifs <;> rfl

end Selection

end Backtest

end AlpacaTrading
