import AlpacaTrading.Backtest.Market
import AlpacaTrading.Lib.Units

/-!
# The backtest

`runBacktest` simulates the active symbols one after another.  For a symbol it walks through the
bars: it closes a position that has reached one of its levels or its number of days, and such an
iteration ends there; it closes a position that the direction of the day speaks against, and such
an iteration goes on; and without a position it may open one, of shares at the open of the bar or
of options at its close.  What is open after the last bar is closed at its close.

A position and the trades of its kind are a `Book`.  The loop has one of shares and one of options,
with the same order of exits.
-/

namespace AlpacaTrading

namespace Backtest

open ExtendedNumber

/-! ## Configuration -/

/-- `BacktestConfig`. -/
structure BacktestConfig where
  startDate : Option String := none
  endDate : Option String := none
  initialCapital : Option ExtendedNumber := none
  maxPositions : Option ExtendedNumber := none
  positionSize : Option ExtendedNumber := none
  holdingPeriod : Option ExtendedNumber := none
  longEnabled : Option Bool := none
  shortEnabled : Option Bool := none
  optionsEnabled : Option Bool := none
  aggressiveMode : Option Bool := none
  stopLoss : Option ExtendedNumber := none
  takeProfit : Option ExtendedNumber := none
  trailingStop : Option ExtendedNumber := none
  maxLossPerTrade : Option ExtendedNumber := none
  maxNotionalPerTrade : Option ExtendedNumber := none

/-- `cfg`. -/
structure Settings where
  startDate : Option String
  endDate : Option String
  initialCapital : ExtendedNumber
  maxPositions : ExtendedNumber
  positionSize : ExtendedNumber
  holdingPeriod : ExtendedNumber
  longEnabled : Bool
  shortEnabled : Bool
  optionsEnabled : Bool
  aggressiveMode : Bool
  stopLoss : ExtendedNumber
  takeProfit : ExtendedNumber
  trailingStop : ExtendedNumber
  maxLossPerTrade : ExtendedNumber
  maxNotionalPerTrade : ExtendedNumber

/-- `value || fallback`. -/
def orElse (value : Option ExtendedNumber) (fallback : ExtendedNumber) : ExtendedNumber :=
  (value.map (·.or fallback)).getD fallback

/-- The configuration with its defaults. -/
def BacktestConfig.settings (input : BacktestConfig) : Settings where
  startDate := input.startDate
  endDate := input.endDate
  initialCapital := orElse input.initialCapital (finite 100000)
  maxPositions := orElse input.maxPositions (finite 2)
  positionSize := orElse input.positionSize (finite (2 / 10))
  holdingPeriod := orElse input.holdingPeriod (finite 5)
  longEnabled := input.longEnabled.getD true
  shortEnabled := input.shortEnabled.getD true
  optionsEnabled := input.optionsEnabled.getD false
  aggressiveMode := input.aggressiveMode.getD false
  stopLoss := input.stopLoss.getD (finite (5 / 100))
  takeProfit := input.takeProfit.getD (finite (1 / 10))
  trailingStop := input.trailingStop.getD (finite (3 / 100))
  maxLossPerTrade := orElse input.maxLossPerTrade (finite 2000)
  maxNotionalPerTrade := orElse input.maxNotionalPerTrade (finite 10000)

/-- `notional`: what a trade may cost. -/
def Settings.notional (cfg : Settings) : ExtendedNumber :=
  cfg.maxNotionalPerTrade.min (cfg.initialCapital * cfg.positionSize)

/-- The members of `config` that are read. -/
structure Platform where
  safeMode : Bool := true
  enableAggressivePaperStrategies : Bool := false

/-! ## Positions and trades -/

inductive Side where
  | long | short
deriving DecidableEq, Repr

inductive ExitReason where
  | stopLoss | takeProfit | timeExit | signalExit | trailingStop
deriving DecidableEq, Repr

/-- `Position`. -/
structure Position where
  symbol : String
  side : Side
  entryDate : String
  entryPrice : ℚ
  quantity : ExtendedNumber
  stopLoss : Option ExtendedNumber
  takeProfit : Option ExtendedNumber
  trailingStop : Option ExtendedNumber
  holdDays : ℕ := 0
  expression : PreferredExpression

/-- `ShareTrade`. -/
structure ShareTrade where
  symbol : String
  entryDate : String
  exitDate : String
  entryPrice : ℚ
  exitPrice : ℚ
  side : Side
  quantity : ExtendedNumber
  pnl : ExtendedNumber
  returnPct : ExtendedNumber
  exitReason : ExitReason

inductive OptionStrategy where
  | longCall | longPut | callSpread | putSpread | coveredCall | cashSecuredPut | protectivePut
  | collar
deriving DecidableEq, Repr

/-- `OptionPosition`. -/
structure OptionPosition where
  symbol : String
  optionSymbol : String
  side : Side
  strategy : OptionStrategy
  entryDate : String
  entryPremium : ℚ
  contracts : ExtendedNumber
  strike : ℚ
  shortStrike : Option ℚ
  expirationDate : Option String
  stopLoss : Option ExtendedNumber
  takeProfit : Option ExtendedNumber
  trailingStop : Option ExtendedNumber
  holdDays : ℕ := 0
  maxLoss : Option ExtendedNumber
  maxProfit : Option ExtendedNumber

/-- `OptionTrade`. -/
structure OptionTrade where
  underlyingSymbol : String
  optionSymbol : String
  strategy : OptionStrategy
  entryDate : String
  exitDate : String
  expirationDate : Option String
  strike : ℚ
  shortStrike : Option ℚ
  entryPremium : ℚ
  exitPremium : ℚ
  contracts : ExtendedNumber
  estimatedMaxLoss : Option ExtendedNumber
  estimatedMaxProfit : Option ExtendedNumber
  pnl : ExtendedNumber
  returnPct : ExtendedNumber
  exitReason : ExitReason

/-- `closeSharePosition`. -/
def closeSharePosition (position : Position) (exitPrice : ℚ) (exitReason : ExitReason)
    (exitDate : String) : ShareTrade :=
  let priceMove := match position.side with
    | .long => exitPrice - position.entryPrice
    | .short => position.entryPrice - exitPrice
  let pnl := finite priceMove * position.quantity
  { symbol := position.symbol
    entryDate := position.entryDate
    exitDate
    entryPrice := position.entryPrice
    exitPrice
    side := position.side
    quantity := position.quantity
    pnl
    returnPct := if 0 < position.entryPrice then
        pnl / (finite position.entryPrice * position.quantity) * finite 100
      else finite 0
    exitReason }

/-- `closeOptionPosition`. -/
def closeOptionPosition (position : OptionPosition) (exitPremium : ℚ) (exitReason : ExitReason)
    (exitDate : String) : OptionTrade :=
  { underlyingSymbol := position.symbol
    optionSymbol := position.optionSymbol
    strategy := position.strategy
    entryDate := position.entryDate
    exitDate
    expirationDate := position.expirationDate
    strike := position.strike
    shortStrike := position.shortStrike
    entryPremium := position.entryPremium
    exitPremium
    contracts := position.contracts
    estimatedMaxLoss := position.maxLoss
    estimatedMaxProfit := position.maxProfit
    pnl := finite (exitPremium - position.entryPremium) * (position.contracts * finite 100)
    returnPct := if 0 < position.entryPremium then
        finite ((exitPremium - position.entryPremium) / position.entryPremium * 100)
      else finite 0
    exitReason }

/-- `estimateOptionPremium`. -/
def estimateOptionPremium (strategy : OptionStrategy) (currentClose strike : ℚ)
    (shortStrike : Option ℚ) (snapshot : Option SnapshotRow) : ℚ :=
  let fallback := match strategy with
    | .callSpread =>
      let longCall := max 0 (currentClose - strike)
      let shortCall := max 0 (currentClose - shortStrike.getD (strike + 1))
      max (1 / 100) (longCall - shortCall + 1 / 10)
    | .putSpread =>
      let longPut := max 0 (shortStrike.getD strike - currentClose)
      let shortPut := max 0 (shortStrike.getD (strike - 1) - currentClose)
      max (1 / 100) (longPut - shortPut + 1 / 10)
    | .longCall => max (1 / 100) (max 0 (currentClose - strike) + 1 / 2)
    | _ => max (1 / 100) (max 0 (strike - currentClose) + 1 / 2)
  (snapshot.bind fun s ↦ s.ask <|> s.midpoint <|> s.last <|> s.bid).getD fallback

/-! ## Books -/

/-- The position of a kind, if there is one, and the trades of that kind. -/
structure Book (P T : Type) where
  held : Option P := none
  trades : List T := []

/-- The exits of an iteration, and whether it goes on: it ends with an exit that `exit` gives, and
goes on after an exit on a signal. -/
def Book.settle {P T : Type} (age : P → P) (exit : P → Option ExitReason) (signal : P → Bool)
    (close : P → ExitReason → T) (book : Book P T) : Book P T × Bool :=
  match book.held with
  | none => (book, true)
  | some position =>
    let active := age position
    match exit active with
    | some reason => ({ held := none, trades := book.trades ++ [close active reason] }, false)
    | none =>
      if signal active then
        ({ held := none, trades := book.trades ++ [close active .signalExit] }, true)
      else ({ book with held := some active }, true)

/-- The final close. -/
def Book.finish {P T : Type} (close : P → ExitReason → T) (book : Book P T) : Book P T :=
  match book.held with
  | none => book
  | some active => { held := none, trades := book.trades ++ [close active .timeExit] }

/-- `position`, `optionPosition` and the trades of a symbol. -/
structure Loop where
  shares : Book Position ShareTrade := {}
  options : Book OptionPosition OptionTrade := {}

/-- A position of either kind. -/
inductive Holding where
  | share (position : Position)
  | option (position : OptionPosition)

/-- The position, where there is one, becomes the open one of its kind. -/
def Loop.enter (loop : Loop) : Option Holding → Loop
  | none => loop
  | some (.share position) => { loop with shares := { loop.shares with held := some position } }
  | some (.option position) => { loop with options := { loop.options with held := some position } }

/-! ## The features of a bar -/

/-- `direction`. -/
inductive Trend where
  | bullish | bearish | neutral
deriving DecidableEq, Repr

/-- The direction that the expression is chosen for. -/
def Trend.direction : Trend → CandidateDirection
  | bullish => .long
  | bearish => .short
  | neutral => .neutral

/-- The sign of the direction. -/
def Trend.sign : Trend → ℚ
  | bullish => 1
  | bearish => -1
  | neutral => 0

/-- `direction` of `String(trend || direction || "neutral")`; a number is neither of the words. -/
def Features.trendOf (f : Features) : Trend :=
  let trend := ((f.trend.filter (·.truthy)) <|> (f.direction.filter (·.truthy))).getD
    (.text "neutral")
  if trend = .text "bullish" then .bullish
  else if trend = .text "bearish" then .bearish
  else .neutral

/-- `Number(value || 0) > 0`. -/
def positive [TextNumber] (value : Option FeatureValue) : Bool :=
  (value.filter (·.truthy)).any fun v ↦ lt (finite 0) v.toNumber

section Simulation

variable [TextNumber] (platform : Platform) (data : ResearchData) (cfg : Settings)
  (symbol : String)

/-- `featureData`. -/
def featureData (bar : BarRow) : Features :=
  ((data.getFeatureForDate symbol bar.timestamp).map (·.features)).getD {}

/-- `direction`. -/
def trendAt (bar : BarRow) : Trend := (featureData data symbol bar).trendOf

/-- `selector`. -/
def selectorAt (bar : BarRow) : StrategySelectorResult :=
  let f := featureData data symbol bar
  let trend := f.trendOf
  selectExpression
    { direction := trend.direction
      confidence := min 1 |trend.sign * (1 / 2)|
      expectedReturn := some (trend.sign * (1 / 100))
      atr := some ((f.atr14.bind (·.number?)).getD (bar.close * (1 / 100)))
      iv := (f.atmImpliedVol.filter (·.truthy)).map (·.toNumber)
      liquidityScore := (f.preferredContractLiquidityScore.bind (·.number?)).getD 0
      spreadPct := f.estimatedBidAskSpreadPct.bind (·.number?)
      hasOptionsData := positive f.callLiquidityAvailable || positive f.putLiquidityAvailable }
    platform.enableAggressivePaperStrategies

/-! ## Exits -/

/-- The exit of a side on a signal for the other one. -/
def signalExit (side : Side) (direction : CandidateDirection) : Bool :=
  (side = .long ∧ direction = .short ∧ cfg.shortEnabled) ∨
    (side = .short ∧ direction = .long ∧ cfg.longEnabled)

/-- The exit of a share position that ends an iteration. -/
def shareExit (bar : BarRow) (active : Position) : Option ExitReason :=
  let close := finite bar.close
  let below (level : ExtendedNumber) := match active.side with
    | .long => le close level
    | .short => le level close
  let above (level : ExtendedNumber) := match active.side with
    | .long => le level close
    | .short => le close level
  if active.stopLoss.any below then some .stopLoss
  else if active.takeProfit.any above then some .takeProfit
  else if active.trailingStop.any below then some .trailingStop
  else if le cfg.holdingPeriod (active.holdDays : ExtendedNumber) then some .timeExit
  else none

/-- The premium of an open option position. -/
def premiumAt (bar : BarRow) (active : OptionPosition) : ℚ :=
  estimateOptionPremium active.strategy bar.close active.strike active.shortStrike
    (data.optionSnapshotForSymbol active.optionSymbol)

/-- The exit of an option position that ends an iteration. -/
def optionExit (bar : BarRow) (active : OptionPosition) : Option ExitReason :=
  let premium := finite (premiumAt data bar active)
  if active.stopLoss.any (le premium ·) then some .stopLoss
  else if active.takeProfit.any (le · premium) then some .takeProfit
  else if active.trailingStop.any (le premium ·) then some .trailingStop
  else if le cfg.holdingPeriod (active.holdDays : ExtendedNumber) then some .timeExit
  else none

/-- `active.holdDays += 1`. -/
def Position.age (position : Position) : Position :=
  { position with holdDays := position.holdDays + 1 }

/-- `active.holdDays += 1`. -/
def OptionPosition.age (position : OptionPosition) : OptionPosition :=
  { position with holdDays := position.holdDays + 1 }

/-- The trade that closes a share position at a bar. -/
def closeShare (bar : BarRow) (active : Position) (reason : ExitReason) : ShareTrade :=
  closeSharePosition active bar.close reason bar.timestamp

/-- The trade that closes an option position at a bar. -/
def closeOption (bar : BarRow) (active : OptionPosition) (reason : ExitReason) : OptionTrade :=
  closeOptionPosition active (premiumAt data bar active) reason bar.timestamp

/-- The exits of an iteration, first those of shares, and whether it goes on. -/
def exits (loop : Loop) (bar : BarRow) : Loop × Bool :=
  let direction := (selectorAt platform data symbol bar).direction
  let shares := loop.shares.settle Position.age (shareExit cfg bar)
    (signalExit cfg ·.side direction) (closeShare bar)
  if shares.2 then
    let options := loop.options.settle OptionPosition.age (optionExit data cfg bar)
      (signalExit cfg ·.side direction) (closeOption data bar)
    ({ shares := shares.1, options := options.1 }, options.2)
  else ({ loop with shares := shares.1 }, false)

/-! ## Entries -/

/-- `buildOptionPosition`. -/
def buildOptionPosition (asOf : String) (closePrice : ℚ) (strategy : OptionStrategy) :
    OptionPosition :=
  let normalizedStrategy : Side :=
    if strategy = .longCall ∨ strategy = .callSpread ∨ strategy = .coveredCall then .long
    else .short
  let row := data.optionContractsForUnderlying symbol
    (if normalizedStrategy = .long then .call else .put) closePrice
  let optionSymbol := (row.map (·.optionSymbol)).getD
    (symbol ++ "_" ++ (if normalizedStrategy = .long then "long" else "short") ++ "_ATM")
  let strike := (row.map (·.strike)).getD closePrice
  let shortStrike := if strategy = .callSpread then some (strike * (102 / 100))
    else if strategy = .putSpread then some (strike * (98 / 100)) else none
  let snapshot := data.optionSnapshotForSymbol optionSymbol
  let entryPremium := estimateOptionPremium strategy closePrice strike shortStrike snapshot
  let premiumPerContract : ℚ := Max.max (1 / 100) (entryPremium * 100)
  let contracts := units cfg.notional (finite premiumPerContract)
  let spreadWidth := (shortStrike.map fun short ↦ |short - strike|).getD 0
  { symbol
    optionSymbol
    side := normalizedStrategy
    strategy
    entryDate := asOf
    entryPremium
    contracts
    strike
    shortStrike
    expirationDate := row.map (·.expirationDate)
    stopLoss := some (finite entryPremium * (finite 1 - cfg.stopLoss))
    takeProfit := some (finite entryPremium * (finite 1 + cfg.takeProfit))
    trailingStop := some (finite entryPremium * (finite 1 - cfg.trailingStop))
    maxLoss := some (finite entryPremium * contracts * finite 100)
    maxProfit := if strategy = .callSpread ∨ strategy = .putSpread then
        some (finite (spreadWidth * 100 - entryPremium) * contracts)
      else none }

/-- What the cost of a share is multiplied with: `Math.max(positionNotional, 1)`. -/
def Settings.shareDivisor (cfg : Settings) : ExtendedNumber :=
  let positionNotional := (finite 1).max (cfg.positionSize * cfg.notional)
  positionNotional.max (finite 1)

/-- The share position that is opened at a bar. -/
def sharePosition (side : Side) (expression : PreferredExpression) (bar : BarRow) : Position :=
  let entryPrice := finite bar.opening
  { symbol
    side
    entryDate := bar.timestamp
    entryPrice := bar.opening
    quantity := units cfg.notional (entryPrice * cfg.shareDivisor)
    stopLoss := some (match side with
      | .long => entryPrice * (finite 1 - cfg.stopLoss)
      | .short => entryPrice * (finite 1 + cfg.stopLoss))
    takeProfit := some (match side with
      | .long => entryPrice * (finite 1 + cfg.takeProfit)
      | .short => entryPrice * (finite 1 - cfg.takeProfit))
    trailingStop := some (match side with
      | .long => entryPrice * (finite 1 - cfg.trailingStop)
      | .short => entryPrice * (finite 1 + cfg.trailingStop))
    expression }

/-- `optionStrategy`. -/
def optionStrategyOf (preferred : PreferredExpression) (side : Side) : OptionStrategy :=
  if preferred = .callSpread then .callSpread
  else if preferred = .putSpread then .putSpread
  else if preferred = .longCall ∨ side = .long then .longCall
  else .longPut

/-- `shouldEnter`, and that there is an expression. -/
def shouldEnter (selector : StrategySelectorResult) (trend : Trend) : Bool :=
  ((selector.direction = .long ∧ cfg.longEnabled ∧ trend = .bullish) ∨
    (selector.direction = .short ∧ cfg.shortEnabled ∧ trend = .bearish)) ∧
    selector.preferredExpression ≠ .none

/-- The position that an iteration which comes to its entry opens. -/
def entry (bar : BarRow) : Option Holding :=
  let selector := selectorAt platform data symbol bar
  if shouldEnter cfg selector (trendAt data symbol bar) then
    let side : Side := if selector.direction = .long then .long else .short
    if cfg.optionsEnabled ∧ cfg.aggressiveMode ∧ platform.enableAggressivePaperStrategies then
      some (.option (buildOptionPosition data cfg symbol bar.timestamp bar.close
        (optionStrategyOf selector.preferredExpression side)))
    else some (.share (sharePosition cfg symbol side selector.preferredExpression bar))
  else none

/-! ## The loop -/

/-- The position that an iteration opens: it comes to its entry unless an exit has ended it or a
position is still open. -/
def opens (loop : Loop) (bar : BarRow) : Option Holding :=
  let left := exits platform data cfg symbol loop bar
  if left.2 ∧ left.1.shares.held.isNone ∧ left.1.options.held.isNone then
    entry platform data cfg symbol bar
  else none

/-- An iteration. -/
def step (loop : Loop) (bar : BarRow) : Loop :=
  (exits platform data cfg symbol loop bar).1.enter (opens platform data cfg symbol loop bar)

/-- The bars of a symbol, in order. -/
def parsedBars : List BarRow := data.getBars cfg.startDate cfg.endDate symbol

/-- The loop of a symbol with its final close. -/
def simulateSymbol : Loop :=
  let bars := parsedBars data cfg symbol
  let loop := bars.foldl (step platform data cfg symbol) {}
  match bars.getLast? with
  | none => loop
  | some finalBar =>
    { shares := loop.shares.finish (closeShare finalBar)
      options := loop.options.finish (closeOption data finalBar) }

end Simulation

/-- The trades that `runBacktest` returns. -/
structure BacktestResult where
  trades : List ShareTrade
  optionTrades : List OptionTrade

/-- `runBacktest`. -/
def runBacktest [TextNumber] (platform : Platform) (data : ResearchData) (input : BacktestConfig) :
    Except String BacktestResult :=
  if platform.safeMode then
    let simulated := simulateSymbol platform data input.settings
    .ok
      { trades := data.symbols.flatMap (simulated · |>.shares.trades)
        optionTrades := data.symbols.flatMap (simulated · |>.options.trades) }
  else .error "Live execution disabled by platform policy in this phase."

end Backtest

end AlpacaTrading
