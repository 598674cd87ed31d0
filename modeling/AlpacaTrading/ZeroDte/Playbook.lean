import AlpacaTrading.ZeroDte.Market

/-!
# The zero-DTE playbooks

The five evaluators and the `finalize` they share.  An evaluator reads the derived numbers, gives
points to each of its components, and collects on the way the signals for and against the setup,
its blockers and the inputs it misses; the collector is the state of the evaluator.  `finalize`
adds the points up.
-/

namespace AlpacaTrading

namespace ZeroDte

/-! ## Evaluations -/

/-- `SignalEvidenceValue`. -/
inductive SignalValue where
  | null
  | flag (b : Bool)
  | number (x : ExtendedNumber)
deriving DecidableEq

/-- `SignalEvidence`. -/
structure SignalEvidence where
  code : String
  description : String
  value : SignalValue
  direction : Option Direction := none
  contribution : Option ExtendedNumber := none
deriving DecidableEq

/-- `PlaybookEvaluationStatus`. -/
inductive EvaluationStatus where
  | ready | blocked | insufficientData
deriving DecidableEq, Repr

/-- The points of the components, by their names. -/
abbrev Components (α : Type) := List (String × α)

/-- The points alone. -/
def Components.values {α : Type} (components : Components α) : List α := components.map (·.2)

/-- `PlaybookEvaluation`. -/
structure PlaybookEvaluation where
  playbook : Playbook
  score : ℚ
  confidence : ℚ
  direction : Direction
  eligible : Bool
  status : EvaluationStatus
  supportingSignals : List SignalEvidence
  opposingSignals : List SignalEvidence
  blockers : List String
  missingInputs : List String
  componentContributions : Components ℚ
  metadata : List (String × Bool)
deriving DecidableEq

/-! ## The collector -/

/-- `SignalCollector`. -/
structure SignalCollector where
  supportingSignals : List SignalEvidence := []
  opposingSignals : List SignalEvidence := []
  blockers : List String := []
  missingInputs : List String := []

/-- A computation that writes to the collector. -/
abbrev Collect := StateM SignalCollector

def addMissing (input : String) : Collect Unit := modify fun collector ↦
  if input ∈ collector.missingInputs then collector
  else { collector with missingInputs := collector.missingInputs ++ [input] }

def addBlocker (blocker : String) : Collect Unit := modify fun collector ↦
  if blocker ∈ collector.blockers then collector
  else { collector with blockers := collector.blockers ++ [blocker] }

/-- `supportingSignals.push`. -/
def addSupporting (evidence : SignalEvidence) : Collect Unit := modify fun collector ↦
  { collector with supportingSignals := collector.supportingSignals ++ [evidence] }

/-- `opposingSignals.push`. -/
def addOpposing (evidence : SignalEvidence) : Collect Unit := modify fun collector ↦
  { collector with opposingSignals := collector.opposingSignals ++ [evidence] }

/-- `if (p) action`. -/
def onlyIf (p : Prop) [Decidable p] (action : Collect Unit) : Collect Unit :=
  if p then action else pure ()

/-- `clamp`. -/
def clamp (value lo hi : ℚ) : ℚ := max lo (min hi value)

/-- `clamp` of a number that may be infinite or none. -/
def clampNumber (value : ExtendedNumber) (lo hi : ℚ) : ExtendedNumber :=
  .max (.finite lo) (.min (.finite hi) value)

/-- `directionSign`. -/
def Direction.sign : Direction → ℚ
  | .bullish => 1
  | .bearish => -1
  | .neutral => 0

/-- What a signal is called when its input is missing, supports the setup or opposes it. -/
structure SignalTexts where
  missingInput : String
  supportingCode : String
  opposingCode : String
  supportingDescription : String
  opposingDescription : String

/-- `addDirectionalMagnitude`. -/
def addDirectionalMagnitude (value : Option ℚ) (scale maxPoints : ℚ) (direction : Direction)
    (texts : SignalTexts) : Collect ℚ := do
  match value.filter fun _ ↦ 0 < scale with
  | none =>
    addMissing texts.missingInput
    return 0
  | some value =>
    let magnitude := clamp (|value| / scale) 0 1
    let aligned := if direction.sign = 0 then value ≠ 0 else value * direction.sign > 0
    let contribution := magnitude * maxPoints
    if aligned ∧ 0 < contribution then
      addSupporting
        { code := texts.supportingCode
          description := texts.supportingDescription
          value := .number (.finite value)
          direction := some direction
          contribution := some (.finite contribution) }
      return contribution
    onlyIf (value ≠ 0) do
      addOpposing
        { code := texts.opposingCode
          description := texts.opposingDescription
          value := .number (.finite value)
          direction := some direction }
    return 0

/-- What `addPositiveSignal` is given: a number or a flag. -/
inductive Reading where
  | flag (b : Bool)
  | number (x : ℚ)

/-- A flag counts as one or zero. -/
def Reading.numeric : Reading → ℚ
  | flag b => if b then 1 else 0
  | number x => x

def Reading.value : Reading → SignalValue
  | flag b => .flag b
  | number x => .number (.finite x)

/-- `addPositiveSignal`. -/
def addPositiveSignal (value : Option Reading) (maxPoints scale : ℚ) (texts : SignalTexts)
    (direction : Option Direction := none) : Collect ℚ := do
  match value with
  | none =>
    addMissing texts.missingInput
    return 0
  | some value =>
    let numeric := value.numeric
    let contribution := if 0 < numeric then maxPoints * clamp (numeric / scale) 0 1 else 0
    if 0 < numeric then
      addSupporting
        { code := texts.supportingCode
          description := texts.supportingDescription
          value := value.value
          direction
          contribution := some (.finite contribution) }
    else
      addOpposing
        { code := texts.opposingCode
          description := texts.opposingDescription
          value := value.value
          direction }
    return contribution

/-- `addBooleanSignal`. -/
def addBooleanSignal (value : Option Bool) (maxPoints : ℚ) (texts : SignalTexts)
    (direction : Option Direction := none) : Collect ℚ :=
  addPositiveSignal (value.map .flag) maxPoints 1 texts direction

/-- `addLiquiditySignal`. -/
def addLiquiditySignal (liquidityScore : Option ℚ) (maxPoints : ℚ) (direction : Direction) :
    Collect ℚ := do
  match liquidityScore with
  | none =>
    addMissing "optionLiquidity"
    return 0
  | some liquidityScore =>
    let contribution := clamp (liquidityScore / 100) 0 1 * maxPoints
    if 50 ≤ liquidityScore then
      addSupporting
        { code := "LIQUIDITY_SUPPORT"
          description := "Option quote liquidity supports the setup"
          value := .number (.finite liquidityScore)
          direction := some direction
          contribution := some (.finite contribution) }
    else
      addOpposing
        { code := "LIQUIDITY_CONSTRAINT"
          description := "Option quote liquidity is below the preferred level"
          value := .number (.finite liquidityScore)
          direction := some direction }
    return contribution

/-- `addTimeframeSignal`. -/
def addTimeframeSignal (directions : List Direction) (direction : Direction) (maxPoints : ℚ) :
    Collect ℚ := do
  if directions = [] then
    addMissing "multiTimeframeDirection"
    return 0
  let target := (directions.filter fun value ↦ value = direction).length
  let opposing := (directions.filter fun value ↦
    direction ≠ .neutral ∧ value ≠ direction ∧ value ≠ .neutral).length
  onlyIf (0 < opposing) do
    addOpposing
      { code := "MULTI_TIMEFRAME_OPPOSITION"
        description := "At least one supplied timeframe opposes the evaluated direction"
        value := .number (.finite opposing)
        direction := some direction }
  if target ≤ 0 then
    return 0
  let contribution := (target / directions.length : ℚ) * maxPoints
  addSupporting
    { code := "MULTI_TIMEFRAME_ALIGNMENT"
      description := "Multiple timeframes align with the evaluated direction"
      value := .number (.finite target)
      direction := some direction
      contribution := some (.finite contribution) }
  return contribution

/-- `coreCollector`. -/
def coreCollector (derived : DerivedMarketContext) : Collect Unit := do
  onlyIf (derived.price = none) do
    addMissing "price"
    addBlocker "MISSING_PRICE"
  onlyIf (derived.bars.length < 2) do
    addMissing "bars"
    addBlocker "INSUFFICIENT_BARS"

/-- `optionLiquidityScore`. -/
def optionLiquidityScore (context : PlaybookContext) : Collect (Option ℚ) := do
  let quote := context.option
  let quoteStatus := readString quote ["quoteStatus", "quote_status", "status"]
  let executable := readBoolean quote ["executable"]
  let bid := finite (quote.get "bid")
  let ask := finite (quote.get "ask")
  if let some status := quoteStatus then
    if Text.toLowerCase status ≠ "valid" then
      addBlocker ("OPTION_QUOTE_" ++ Text.toUpperCase status)
      return none
  if executable = some false then
    addBlocker "OPTION_QUOTE_NOT_EXECUTABLE"
    return none
  if ∃ b ∈ bid, ∃ a ∈ ask, a < b then
    addBlocker "OPTION_QUOTE_CROSSED"
    return none
  if let some configured :=
      readNumber context.indicators ["liquidityScore", "optionLiquidityScore"] then
    return some (clamp configured 0 100)
  let midpoint := (finite (quote.get "midpoint")).or
    (bid.bind fun bid ↦ ask.map fun ask ↦ (bid + ask) / 2)
  let spreadPct := (finite (quote.get "spreadPct")).or
    (bid.bind fun bid ↦ ask.bind fun ask ↦ (midpoint.filter (0 < ·)).map fun midpoint ↦
      ((ask - bid) / midpoint) * 100)
  let volume := finite (quote.get "volume")
  let openInterest := readNumber quote ["openInterest", "open_interest", "oi"]
  if spreadPct = none ∧ volume = none ∧ openInterest = none then
    return none
  let spreadScore := (spreadPct.map fun spreadPct ↦ clamp (100 - spreadPct * 4) 0 100).getD 50
  let volumeScore := (volume.map fun volume ↦ clamp (volume / 1000 * 100) 0 100).getD 50
  let openInterestScore :=
    (openInterest.map fun openInterest ↦ clamp (openInterest / 5000 * 100) 0 100).getD 50
  return some (clamp ((spreadScore + volumeScore + openInterestScore) / 3) 0 100)

/-! ## The common end -/

/-- `FinalizeInput`, but for the collector. -/
structure FinalizeInput where
  playbook : Playbook
  direction : Direction
  components : Components ExtendedNumber
  scoreAdjustment : Option ExtendedNumber := none
  confidence : ℚ
  threshold : ℚ
  status : Option EvaluationStatus := none
  metadata : List (String × Bool) := []

/-- `unique`. -/
def unique (values : List String) : List String :=
  values.foldl (fun seen value ↦ if value ∈ seen then seen else seen ++ [value]) []

/-- `finalize`. -/
def finalize (input : FinalizeInput) (collector : SignalCollector) : PlaybookEvaluation :=
  let componentContributions : Components ℚ :=
    input.components.map fun component ↦ (component.1, component.2.value.getD 0)
  let rawScore := .finite (total componentContributions.values) +
    input.scoreAdjustment.getD (.finite 0)
  let score := clamp (rawScore.value.getD 0) 0 100
  let blockers := unique (collector.blockers ++
    if input.direction = .neutral then ["NEUTRAL_DIRECTION_NOT_EXECUTABLE"] else [])
  { playbook := input.playbook
    score
    confidence := clamp input.confidence 0 100
    direction := input.direction
    eligible := blockers = [] ∧ input.threshold ≤ score
    status := input.status.getD (if blockers = [] then .ready else .blocked)
    supportingSignals := collector.supportingSignals
    opposingSignals := collector.opposingSignals
    blockers
    missingInputs := unique collector.missingInputs
    componentContributions
    metadata := input.metadata }

/-- An evaluator, run from an empty collector. -/
def Collect.evaluate (playbook : Collect FinalizeInput) : PlaybookEvaluation :=
  finalize (playbook.run {}).1 (playbook.run {}).2

/-- How many of the components have points. -/
def Components.available (components : Components ExtendedNumber) : ℕ :=
  (components.filter fun component ↦ ExtendedNumber.lt (.finite 0) component.2).length

/-! ## Trend continuation -/

/-- `evaluateTrendContinuation`. -/
def evaluateTrendContinuation (context : PlaybookContext) (direction : Direction)
    (derived : DerivedMarketContext) : Collect FinalizeInput := do
  coreCollector derived
  let liquidity ← optionLiquidityScore context
  let vwapDistance ← addDirectionalMagnitude
    (derived.price.bind fun price ↦ derived.vwap.map fun vwap ↦ price - vwap)
    (max (max (derived.atr.getD 0 * 2) (|derived.price.getD 0| * (2 / 1000))) (1 / 100))
    20 direction
    { missingInput := "vwap"
      supportingCode := "VWAP_DIRECTIONAL_DISTANCE"
      opposingCode := "VWAP_OPPOSES_DIRECTION"
      supportingDescription := "Price is displaced from VWAP in the evaluated direction"
      opposingDescription := "Price is displaced from VWAP against the evaluated direction" }
  let emaAlignment ← addDirectionalMagnitude
    (derived.emaFast.bind fun fast ↦ derived.emaSlow.map fun slow ↦ fast - slow)
    (max (max (derived.atr.getD 0 * (3 / 2)) (|derived.emaSlow.getD 0| * (5 / 1000))) (1 / 100))
    20 direction
    { missingInput := "emaAlignment"
      supportingCode := "EMA_ALIGNMENT"
      opposingCode := "EMA_OPPOSITION"
      supportingDescription := "Fast and slow EMA alignment supports the evaluated direction"
      opposingDescription := "Fast and slow EMA alignment opposes the evaluated direction" }
  let multiTimeframeAlignment ← addTimeframeSignal derived.timeframeDirections direction 20
  let relativeVolume ← addPositiveSignal
    (derived.relativeVolume.map fun volume ↦ .number (volume - 1)) 15 1
    { missingInput := "relativeVolume"
      supportingCode := "RELATIVE_VOLUME_SUPPORT"
      opposingCode := "RELATIVE_VOLUME_CONSTRAINT"
      supportingDescription := "Relative volume confirms participation in the move"
      opposingDescription := "Relative volume does not confirm participation" }
  let atrNormalizedDisplacement ← addDirectionalMagnitude
    (derived.previousClose.bind fun previousClose ↦ derived.price.bind fun price ↦
      (derived.atr.filter (0 < ·)).map fun atr ↦ (price - previousClose) / atr)
    (3 / 2) 15 direction
    { missingInput := "atrNormalizedDisplacement"
      supportingCode := "ATR_NORMALIZED_DISPLACEMENT"
      opposingCode := "ATR_DISPLACEMENT_OPPOSITION"
      supportingDescription := "Recent displacement persists in the evaluated direction"
      opposingDescription := "Recent displacement opposes the evaluated direction" }
  let liquidity ← addLiquiditySignal liquidity 10 direction
  let components : Components ExtendedNumber :=
    [("vwapDistance", .finite vwapDistance), ("emaAlignment", .finite emaAlignment),
      ("multiTimeframeAlignment", .finite multiTimeframeAlignment),
      ("relativeVolume", .finite relativeVolume),
      ("atrNormalizedDisplacement", .finite atrNormalizedDisplacement),
      ("liquidity", .finite liquidity)]
  return {
    playbook := .trendContinuation
    direction
    components
    confidence := clamp ((components.available / components.length : ℚ) * 100) 0 100
    threshold := 55 }

/-! ## Reversal -/

/-- `booleanOrDirectional`. -/
def booleanOrDirectional (source : Fields) (names : List String) (direction : Direction) :
    Option Bool :=
  let given := (names.map source.get).find? fun candidate ↦
    match candidate with
    | .undefined => false
    | .null => false
    | _ => true
  match given.getD .undefined with
  | .bool b => some b
  | value => (normalizeDirection value).map fun configured ↦ configured = direction

/-- The direction of the move before a reversal. -/
def priorDirection (indicators : Fields) (derived : DerivedMarketContext) : Option Direction :=
  ((readString indicators
    ["lastMoveDirection", "priorDirection", "momentumDirection"]).bind directionOfText).or <|
    derived.previousClose.bind fun previousClose ↦ derived.price.bind fun price ↦
      if previousClose < price then some .bullish
      else if price < previousClose then some .bearish
      else none

/-- The exhaustion signal, from a number or a flag. -/
def addExhaustionSignal (indicators : Fields) (direction : Direction) : Collect ℚ :=
  let texts (opposingDescription : String) : SignalTexts :=
    { missingInput := "exhaustion"
      supportingCode := "EXHAUSTION_CONFIRMATION"
      opposingCode := "EXHAUSTION_NOT_CONFIRMED"
      supportingDescription := "Exhaustion evidence supports a reversal setup"
      opposingDescription }
  match readNumber indicators ["exhaustion", "exhaustionScore"] with
  | some exhaustion =>
    addPositiveSignal (some (.number exhaustion)) 15 1
      (texts "Exhaustion evidence is below the reversal threshold") (some direction)
  | none =>
    addBooleanSignal (readBoolean indicators ["exhaustion"]) 15
      (texts "Exhaustion evidence is not confirmed") (some direction)

/-- `evaluateReversal`. -/
def evaluateReversal (context : PlaybookContext) (direction : Direction)
    (derived : DerivedMarketContext) : Collect FinalizeInput := do
  coreCollector derived
  let liquidity ← optionLiquidityScore context
  let indicators := context.indicators
  let oppositeDirection := if direction = .bullish then .bearish else Direction.bullish
  let extension := derived.price.bind fun price ↦ derived.vwap.bind fun vwap ↦
    (derived.atr.filter (0 < ·)).map fun atr ↦ |price - vwap| / atr
  let extensionSupport : Option Bool :=
    (priorDirection indicators derived).map fun prior ↦ prior = oppositeDirection
  let exhaustion := readNumber indicators ["exhaustion", "exhaustionScore"]
  let exhaustionSignal ← addExhaustionSignal indicators direction
  let failedBreak :=
    booleanOrDirectional indicators ["failedBreak", "failedBreakDirection"] direction
  let reversalCandle :=
    booleanOrDirectional indicators ["reversalCandle", "reversalCandleDirection"] direction
  let volumeClimax := (readBoolean indicators ["volumeClimax"]).or
    (derived.relativeVolume.map fun volume ↦ 2 ≤ volume)
  let divergence :=
    booleanOrDirectional indicators ["supportedDivergence", "divergenceDirection"] direction
  let vwapAtrExtension ← addPositiveSignal
    (extension.map fun extension ↦ .number (extension - 3 / 4)) 20 (5 / 4)
    { missingInput := "vwapAtrExtension"
      supportingCode := "VWAP_ATR_EXTENSION"
      opposingCode := "VWAP_ATR_EXTENSION_WEAK"
      supportingDescription := "VWAP/ATR extension provides a reversal location"
      opposingDescription := "VWAP/ATR extension is too small for a reversal location" }
    (some direction)
  let priorMoveOpposesDirection ← addBooleanSignal extensionSupport 15
    { missingInput := "priorMoveDirection"
      supportingCode := "PRIOR_MOVE_EXHAUSTED"
      opposingCode := "PRIOR_MOVE_SUPPORTS_CONTINUATION"
      supportingDescription := "The prior move is opposite the evaluated reversal direction"
      opposingDescription := "The prior move does not support reversal direction" }
    (some direction)
  let failedBreakSignal ← addBooleanSignal failedBreak 15
    { missingInput := "failedBreak"
      supportingCode := "FAILED_BREAK_CONFIRMATION"
      opposingCode := "FAILED_BREAK_UNCONFIRMED"
      supportingDescription := "A failed break confirms reversal risk"
      opposingDescription := "A failed break is not confirmed" }
    (some direction)
  let reversalCandleSignal ← addBooleanSignal reversalCandle 15
    { missingInput := "reversalCandle"
      supportingCode := "REVERSAL_CANDLE_CONFIRMATION"
      opposingCode := "REVERSAL_CANDLE_UNCONFIRMED"
      supportingDescription := "The latest candle confirms the evaluated reversal direction"
      opposingDescription := "The latest candle does not confirm reversal direction" }
    (some direction)
  let volumeClimaxSignal ← addBooleanSignal volumeClimax 10
    { missingInput := "volumeClimax"
      supportingCode := "VOLUME_CLIMAX_CONFIRMATION"
      opposingCode := "VOLUME_CLIMAX_UNCONFIRMED"
      supportingDescription := "Volume climax supports reversal confirmation"
      opposingDescription := "Volume climax is not confirmed" }
    (some direction)
  let supportedDivergence ← addBooleanSignal divergence 10
    { missingInput := "supportedDivergence"
      supportingCode := "SUPPORTED_DIVERGENCE"
      opposingCode := "DIVERGENCE_UNSUPPORTED"
      supportingDescription := "Supported divergence confirms the reversal thesis"
      opposingDescription := "Supported divergence is not confirmed" }
    (some direction)
  let liquiditySignal ← addLiquiditySignal liquidity 10 direction
  let confirmationCount := ([extension.any (1 ≤ ·), decide (extensionSupport = some true),
    match exhaustion with
    | some exhaustion => decide (6 / 10 ≤ exhaustion)
    | none => decide (readBoolean indicators ["exhaustion"] = some true),
    decide (failedBreak = some true), decide (reversalCandle = some true),
    decide (volumeClimax = some true), decide (divergence = some true)].filter id).length
  onlyIf (confirmationCount < 4) do
    addBlocker "INSUFFICIENT_REVERSAL_CONFIRMATION"
  return {
    playbook := .reversal
    direction
    components :=
      [("vwapAtrExtension", .finite vwapAtrExtension),
        ("priorMoveOpposesDirection", .finite priorMoveOpposesDirection),
        ("exhaustion", .finite exhaustionSignal), ("failedBreak", .finite failedBreakSignal),
        ("reversalCandle", .finite reversalCandleSignal),
        ("volumeClimax", .finite volumeClimaxSignal),
        ("supportedDivergence", .finite supportedDivergence),
        ("liquidity", .finite liquiditySignal)]
    confidence := clamp ((confirmationCount / 7 : ℚ) * 100) 0 100
    threshold := 65 }

/-! ## Breakout -/

/-- The two sides of an opening range. -/
structure OpeningRange where
  high : ℚ
  low : ℚ

/-- `validOpeningRange`. -/
def validOpeningRange (value : Option ContextRange) : Option OpeningRange := do
  let range ← value
  let high ← range.high.value
  let low ← range.low.value
  if low < high then some { high, low } else none

/-- The range of some bars, if there are any. -/
def rangeOfBars (bars : List Bar) : Option OpeningRange := do
  let high ← (bars.map (·.high)).max?
  let low ← (bars.map (·.low)).min?
  some { high, low }

/-- `deriveOpeningRange`. -/
def deriveOpeningRange [Runtime] (context : PlaybookContext) (primary : List Bar) :
    Option OpeningRange :=
  let indicators := context.indicators
  let indicated : Option OpeningRange := do
    let high ← finite (indicators.get "openingRangeHigh")
    let low ← finite (indicators.get "openingRangeLow")
    if low < high then some { high, low } else none
  let observed := (List.find? (fun entry ↦ includes (plainKey entry.1) "openingrange")
    context.barsByTimeframe).bind fun entry ↦ rangeOfBars (orderedBars entry.2)
  let configured : Option OpeningRange := do
    let minutes ← (context.openingRangeMinutes.bind (·.value)).or
      (finite (indicators.get "openingRangeMinutes"))
    if 0 < minutes ∧ ⌈minutes⌉ ≤ primary.length then
      rangeOfBars (primary.take ⌈minutes⌉.toNat)
    else none
  (validOpeningRange context.openingRange).or (indicated.or (observed.or configured))

/-- How far the price is beyond the opening range in a direction. -/
def breakoutDistance (direction : Direction) (openingRange : Option OpeningRange)
    (price : Option ℚ) : Option ℚ := do
  let range ← openingRange
  let price ← price
  some (match direction with
    | .bullish => price - range.high
    | .bearish => range.low - price
    | .neutral => max (price - range.high) (range.low - price))

/-- Whether a range is compressed: as it is said, or within two per cent of the price. -/
def compressionOf (indicators : Fields) (openingRange : Option OpeningRange) (price : Option ℚ) :
    Option Bool :=
  (readBoolean indicators ["compression", "rangeCompression", "consolidation"]).or <|
    openingRange.bind fun range ↦ price.map fun price ↦
      ExtendedNumber.le (.finite (range.high - range.low) / .finite price) (.finite (2 / 100))

/-- `evaluateBreakout`. -/
def evaluateBreakout [Runtime] (context : PlaybookContext) (direction : Direction)
    (derived : DerivedMarketContext) : Collect FinalizeInput := do
  coreCollector derived
  let openingRange := deriveOpeningRange context derived.bars
  onlyIf openingRange.isNone do
    addMissing "openingRange"
    addBlocker "MISSING_OPENING_RANGE_EVIDENCE"
  let distance := breakoutDistance direction openingRange derived.price
  onlyIf (distance.any (· ≤ 0)) do
    addBlocker "OPENING_RANGE_NOT_BROKEN"
  let rangeWidth := (openingRange.map fun range ↦ range.high - range.low).getD 0
  let compression := compressionOf context.indicators openingRange derived.price
  let retest := readBoolean context.indicators ["retestConfirmed", "breakoutRetest"]
  let falseBreakRisk := readNumber context.indicators falseBreakNames
  let openingRangeBreak ← addPositiveSignal (distance.map .number) 25
    (max (max (derived.atr.getD 0) (rangeWidth * (1 / 4))) (1 / 100))
    { missingInput := "openingRangeBreak"
      supportingCode := "OPENING_RANGE_BREAK"
      opposingCode := "OPENING_RANGE_NOT_BROKEN"
      supportingDescription :=
        "Price has broken the supplied opening range in the evaluated direction"
      opposingDescription :=
        "Price has not broken the supplied opening range in the evaluated direction" }
    (some direction)
  let compressionSignal ← addBooleanSignal compression 15
    { missingInput := "compression"
      supportingCode := "PRE_BREAK_COMPRESSION"
      opposingCode := "NO_PRE_BREAK_COMPRESSION"
      supportingDescription := "Compression or consolidation preceded the breakout"
      opposingDescription := "Compression or consolidation is not confirmed" }
    (some direction)
  let volumeExpansion ← addPositiveSignal
    (derived.relativeVolume.map fun volume ↦ .number (volume - 1)) 15 1
    { missingInput := "relativeVolume"
      supportingCode := "BREAKOUT_VOLUME_EXPANSION"
      opposingCode := "BREAKOUT_VOLUME_UNCONFIRMED"
      supportingDescription := "Relative volume expands with the breakout"
      opposingDescription := "Relative volume does not expand with the breakout" }
    (some direction)
  let retestSignal ← addBooleanSignal retest 15
    { missingInput := "retestConfirmed"
      supportingCode := "BREAKOUT_RETEST"
      opposingCode := "BREAKOUT_RETEST_UNCONFIRMED"
      supportingDescription := "The opening-range break held on retest"
      opposingDescription := "A confirming retest is not available" }
    (some direction)
  let timeframeAlignment ← addTimeframeSignal derived.timeframeDirections direction 15
  let liquidityScore ← optionLiquidityScore context
  let liquidity ← addLiquiditySignal liquidityScore 10 direction
  let risk := (falseBreakRisk.map fun risk ↦ clamp risk 0 1 * 10).getD 0
  let positive : Components ExtendedNumber :=
    [("openingRangeBreak", .finite openingRangeBreak),
      ("compression", .finite compressionSignal), ("volumeExpansion", .finite volumeExpansion),
      ("retest", .finite retestSignal), ("timeframeAlignment", .finite timeframeAlignment),
      ("liquidity", .finite liquidity)]
  onlyIf (falseBreakRisk.any (1 / 2 < ·)) do
    addOpposing
      { code := "FALSE_BREAK_RISK"
        description := "False-break risk reduces breakout confidence"
        value := .number (.finite (falseBreakRisk.getD 0))
        direction := some direction }
  -- the risk counts as available whatever it is
  let available := positive.available + 1
  return {
    playbook := .breakout
    direction
    components := positive ++ [("falseBreakRisk", .finite risk)]
    scoreAdjustment := some (.finite (-risk))
    confidence := clamp ((available / 7 : ℚ) * 100) 0 100
    threshold := 60 }

/-! ## Gamma proxy -/

/-- `evaluateGammaProxy`. -/
def evaluateGammaProxy [Elementary] (context : PlaybookContext) (direction : Direction) :
    Collect FinalizeInput := do
  let option := context.option
  let greeks := asRecord (option.get "greeks")
  let gammaNames := ["gamma", "gammaValue", "gammaProxy"]
  let openInterestNames := ["openInterest", "open_interest", "oi"]
  let gamma := (readNumber option gammaNames).or
    ((readNumber greeks ["gamma"]).or (readNumber context.indicators gammaNames))
  let openInterest := (readNumber option openInterestNames).or
    (readNumber context.indicators openInterestNames)
  let metadata := [("proxyMetric", true), ("dealerPositioningClaim", false)]
  onlyIf gamma.isNone do
    addMissing "gamma"
  onlyIf openInterest.isNone do
    addMissing "openInterest"
  match gamma, openInterest with
  | some gamma, some openInterest =>
    let liquidity ← optionLiquidityScore context
    let gammaMagnitude := clamp (|gamma| * 1000) 0 50
    let openInterestDepth := clampNumber
      (Elementary.log10 (.finite (openInterest + 1)) / .finite 4 * .finite 30) 0 30
    let components : Components ExtendedNumber :=
      [("gammaMagnitude", .finite gammaMagnitude), ("openInterestDepth", openInterestDepth),
        ("liquidity",
          .finite ((liquidity.map fun liquidity ↦ clamp (liquidity / 100) 0 1 * 20).getD 0))]
    onlyIf (0 < gammaMagnitude ∧ ExtendedNumber.lt (.finite 0) openInterestDepth) do
      addSupporting
        { code := "DATA_BACKED_GAMMA_PROXY"
          description := "Observed option gamma and open interest form a bounded proxy metric; " ++
            "no dealer-positioning claim is made"
          value := .number (.finite (|gamma| * openInterest))
          direction := some direction
          contribution := some (.finite gammaMagnitude + openInterestDepth) }
    onlyIf (gamma = 0) do
      addOpposing
        { code := "ZERO_GAMMA_PROXY"
          description := "Observed gamma contributes no proxy magnitude"
          value := .number (.finite gamma)
          direction := some direction }
    return {
      playbook := .gammaProxy
      direction
      components
      confidence := clamp ((components.available / 3 : ℚ) * 100) 0 100
      threshold := 55
      metadata }
  | _, _ =>
    addBlocker "MISSING_GAMMA_PROXY_INPUTS"
    return {
      playbook := .gammaProxy
      direction
      components := [("gammaMagnitude", .finite 0), ("openInterestDepth", .finite 0),
        ("liquidity", .finite 0)]
      confidence := 0
      threshold := 55
      status := some .insufficientData
      metadata }

/-! ## Volatility expansion -/

/-- The points of a number, in proportion to its size up to a scale. -/
def magnitudePoints (value : Option ℚ) (scale maxPoints : ℚ) : ℚ :=
  (value.map fun value ↦ clamp (|value| / scale) 0 1 * maxPoints).getD 0

/-- What realized volatility says for or against an expansion. -/
def addRealizedVolatility (derived : DerivedMarketContext) (realizedRatio : Option ExtendedNumber)
    (realizedVolatility : ExtendedNumber) (direction : Direction) : Collect Unit :=
  if derived.realizedVolatility.isNone ∨ derived.realizedVolatilityBaseline.isNone then
    addMissing "realizedVolatility"
  else if realizedRatio.any (ExtendedNumber.lt (.finite 1) ·) then
    addSupporting
      { code := "REALIZED_VOLATILITY_EXPANSION"
        description := "Realized volatility is above its baseline"
        value := (realizedRatio.map .number).getD .null
        direction := some direction
        contribution := some realizedVolatility }
  else
    addOpposing
      { code := "REALIZED_VOLATILITY_NOT_EXPANDING"
        description := "Realized volatility is not above its baseline"
        value := (realizedRatio.map .number).getD .null
        direction := some direction }

/-- `evaluateVolatilityExpansion`. -/
def evaluateVolatilityExpansion (context : PlaybookContext) (direction : Direction)
    (derived : DerivedMarketContext) : Collect FinalizeInput := do
  coreCollector derived
  let realizedRatio := derived.realizedVolatility.bind fun volatility ↦
    (derived.realizedVolatilityBaseline.filter (ExtendedNumber.lt (.finite 0) ·)).map
      fun baseline ↦ volatility / baseline
  let iv := derived.impliedVolatility
  let realizedVolatility := (realizedRatio.map fun ratio ↦
    clampNumber ((ratio - .finite 1) / .finite (3 / 2)) 0 1 * .finite 18).getD (.finite 0)
  let liquidityScore ← optionLiquidityScore context
  let liquidity ← addLiquiditySignal liquidityScore 7 direction
  let components : Components ExtendedNumber :=
    [("realizedVolatility", realizedVolatility),
      ("atrAcceleration", .finite ((derived.atrAcceleration.map fun acceleration ↦
        clamp ((acceleration - 1) / (3 / 2)) 0 1 * 15).getD 0)),
      ("rangeBreak", .finite (if derived.rangeBreak = some true then 14 else 0)),
      ("volatilityIndexMovement",
        .finite (magnitudePoints derived.volatilityIndexMovement 10 10)),
      ("impliedVolatility",
        .finite ((iv.map fun iv ↦ clamp (iv / (1 / 2)) 0 1 * 10).getD 0)),
      ("velocity", .finite (magnitudePoints derived.velocity 1 10)),
      ("breadth", .finite (magnitudePoints derived.breadth 1 8)),
      ("crossIndexConfirmation",
        .finite (if derived.crossIndexConfirmation = some true then 8 else 0)),
      ("liquidity", .finite liquidity)]
  addRealizedVolatility derived realizedRatio realizedVolatility direction
  onlyIf derived.atrAcceleration.isNone do
    addMissing "atrAcceleration"
  onlyIf derived.rangeBreak.isNone do
    addMissing "rangeBreak"
  onlyIf derived.volatilityIndexMovement.isNone do
    addMissing "volatilityIndexMovement"
  onlyIf iv.isNone do
    addMissing "impliedVolatility"
  onlyIf derived.velocity.isNone do
    addMissing "velocity"
  onlyIf derived.breadth.isNone do
    addMissing "breadth"
  onlyIf derived.crossIndexConfirmation.isNone do
    addMissing "crossIndexConfirmation"
  let active := components.available
  onlyIf (active < 3) do
    addBlocker "INSUFFICIENT_VOLATILITY_EXPANSION_INPUTS"
  return {
    playbook := .volatilityExpansion
    direction
    components
    confidence := clamp ((active / components.length : ℚ) * 100) 0 100
    threshold := 55 }

/-! ## All of them -/

section Evaluate

variable [Runtime] [Elementary]

/-- The evaluator of a playbook. -/
def evaluator (playbook : Playbook) (context : PlaybookContext) (direction : Direction)
    (derived : DerivedMarketContext) : Collect FinalizeInput :=
  match playbook with
  | .trendContinuation => evaluateTrendContinuation context direction derived
  | .reversal => evaluateReversal context direction derived
  | .breakout => evaluateBreakout context direction derived
  | .gammaProxy => evaluateGammaProxy context direction
  | .volatilityExpansion => evaluateVolatilityExpansion context direction derived

/-- A playbook, evaluated in a direction. -/
def evaluate (playbook : Playbook) (context : PlaybookContext) (direction : Direction) :
    PlaybookEvaluation :=
  (evaluator playbook context direction (deriveMarketContext context)).evaluate

/-- `resolveDirections`. -/
def resolveDirections (context : PlaybookContext) : List Direction :=
  let side := (readString context.option ["side", "optionType", "type"]).map Text.toLowerCase
  match context.direction.or (normalizeDirection (context.option.get "direction")) with
  | some direction => [direction]
  | none =>
    if side ∈ [some "call", some "c"] then [.bullish]
    else if side ∈ [some "put", some "p"] then [.bearish]
    else [.bullish, .bearish]

/-- `evaluateZeroDtePlaybooks`. -/
def evaluateZeroDtePlaybooks (context : PlaybookContext) : List PlaybookEvaluation :=
  (resolveDirections context).flatMap fun direction ↦
    [evaluate .trendContinuation context direction, evaluate .reversal context direction,
      evaluate .breakout context direction, evaluate .gammaProxy context direction,
      evaluate .volatilityExpansion context direction]

end Evaluate

end ZeroDte

end AlpacaTrading
