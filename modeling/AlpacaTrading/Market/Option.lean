import AlpacaTrading.Lib.Text
import AlpacaTrading.Store.Schema
import Mathlib.Data.List.Sort

/-!
# Market data and option evidence

The rows of the market data tables that reviews read, the OCC symbols of options, and the checks
of the evidence for an option that entry and exit reviews share.

## Columns by name

The source passes the rows of its queries on as untyped records, and the checks read columns of
them by name.  A column that a query does not select is missing there, whatever its table holds.
`OptionColumns` is such a record: every column may be missing.

## Calendar

Dates are those of the proleptic Gregorian calendar.  New York time follows the rule in force since
2007: daylight time from the second Sunday of March to the first Sunday of November.
-/

namespace AlpacaTrading

/-! ## Calendar -/

/-- The number of days from 1970-01-01 to a date. -/
def daysFromCivil (year month day : Int) : Int :=
  let y := if month ≤ 2 then year - 1 else year
  let era := y / 400
  let yearOfEra := y - era * 400
  let dayOfYear := (153 * (if 2 < month then month - 3 else month + 9) + 2) / 5 + day - 1
  let dayOfEra := yearOfEra * 365 + yearOfEra / 4 - yearOfEra / 100 + dayOfYear
  era * 146097 + dayOfEra - 719468

/-- The year, month and day of a day number. -/
def civilFromDays (days : Int) : Int × Int × Int :=
  let z := days + 719468
  let era := z / 146097
  let dayOfEra := z - era * 146097
  let yearOfEra := (dayOfEra - dayOfEra / 1460 + dayOfEra / 36524 - dayOfEra / 146096) / 365
  let dayOfYear := dayOfEra - (365 * yearOfEra + yearOfEra / 4 - yearOfEra / 100)
  let shifted := (5 * dayOfYear + 2) / 153
  let day := dayOfYear - (153 * shifted + 2) / 5 + 1
  let month := if shifted < 10 then shifted + 3 else shifted - 9
  (yearOfEra + era * 400 + (if month ≤ 2 then 1 else 0), month, day)

/-- The milliseconds of a day. -/
def dayMs : Int := 86400000

/-- The first Sunday of a month, as a day number. -/
def firstSunday (year month : Int) : Int :=
  let first := daysFromCivil year month 1
  first + (7 - (first + 4) % 7) % 7

/-- The offset of New York time at an instant. -/
def newYorkOffset (t : Time) : Int :=
  let (year, _, _) := civilFromDays (t / dayMs)
  let start := (firstSunday year 3 + 7) * dayMs + 7 * 3600000
  let stop := firstSunday year 11 * dayMs + 6 * 3600000
  if start ≤ t ∧ t < stop then -4 * 3600000 else -5 * 3600000

/-- `newYorkParts`: the date in New York and the minutes since its midnight. -/
structure NewYorkParts where
  year : Int
  month : Int
  day : Int
  minutes : Int
deriving DecidableEq

/-- `newYorkParts`. -/
def newYorkParts (t : Time) : NewYorkParts :=
  let here := t + newYorkOffset t
  let (year, month, day) := civilFromDays (here / dayMs)
  { year, month, day, minutes := here % dayMs / 60000 }

/-- A number below a hundred with two digits. -/
def twoDigits (n : Int) : String := (if n < 10 then "0" else "") ++ toString n

/-- `newYorkTradingDate`. -/
def newYorkTradingDate (t : Time) : String :=
  let parts := newYorkParts t
  toString parts.year ++ "-" ++ twoDigits parts.month ++ "-" ++ twoDigits parts.day

example : newYorkTradingDate 1767225599000 = "2025-12-31" := by decide +kernel

/-! ## OCC symbols -/

inductive OptionType where
  | call | put
deriving DecidableEq, Repr

/-- What an OCC symbol says. -/
structure OptionSymbol where
  occRoot : String
  /-- The date as `YYYY-MM-DD`, and its day number. -/
  expirationDate : String
  expirationDay : Int
  optionType : OptionType
  strikeMilliunits : Nat
deriving DecidableEq

/-- `parseOptionSymbol`, without the message of a failure: a root of one to six characters, a real
date, a side and a strike. -/
def parseOptionSymbol (input : String) : Option OptionSymbol :=
  let text := ((Text.toUpperCase (Text.trim input)).toList).filter (!Text.isSpace ·)
  let root := text.take (text.length - 15)
  let rest := text.drop (text.length - 15)
  if 16 ≤ text.length ∧ text.length ≤ 21 ∧ root.all (fun c ↦ c.isUpper || c.isDigit) then do
    let year ← Text.digits? (rest.take 2)
    let month ← Text.digits? ((rest.drop 2).take 2)
    let day ← Text.digits? ((rest.drop 4).take 2)
    let optionType ← match rest[6]? with
      | some 'C' => some OptionType.call
      | some 'P' => some .put
      | _ => none
    let strikeMilliunits ← Text.digits? (rest.drop 7)
    let expirationDay := daysFromCivil (2000 + year) month day
    -- `validUtcDate`: the date survives the way to a day number and back.
    if civilFromDays expirationDay = (2000 + (year : Int), (month : Int), (day : Int)) then
      some {
        occRoot := String.ofList root
        expirationDate := toString (2000 + year) ++ "-" ++
          String.ofList ((rest.drop 2).take 2) ++ "-" ++ String.ofList ((rest.drop 4).take 2)
        expirationDay
        optionType
        strikeMilliunits }
    else none
  else none

example : (parseOptionSymbol "spy260116C00600000").map (·.expirationDate) = some "2026-01-16" := by
  decide +kernel

/-- `optionDaysToExpiration`. -/
def optionDaysToExpiration (symbol : OptionSymbol) (now : Time) : Int :=
  symbol.expirationDay - now / dayMs

/-- `isFinalThirtyMinutesForZeroDte`. -/
def isFinalThirtyMinutesForZeroDte (optionSymbol : String) (now : Time) : Bool :=
  (parseOptionSymbol optionSymbol).any fun parsed ↦
    let minutes := (newYorkParts now).minutes
    parsed.expirationDate = newYorkTradingDate now ∧ 15 * 60 + 30 ≤ minutes ∧ minutes ≤ 16 * 60

/-! ## Market tables -/

/-- A row of `option_contracts`. -/
structure OptionContract where
  optionSymbol : String
  underlyingSymbol : String
  type : OptionType
  expirationDate : String
  multiplier : ℚ
  tradable : Bool
  source : String
  observedAt : Time
  contractId : Option String := none
  status : Option String := none
deriving DecidableEq

/-- A row of `option_snapshots`, with the members of its evidence document that are read. -/
structure OptionSnapshot where
  optionSymbol : String
  observedAt : Time
  quoteTimestamp : Option Time := none
  tradeTimestamp : Option Time := none
  snapshotTimestamp : Option Time := none
  bid : Option ℚ := none
  ask : Option ℚ := none
  midpoint : Option ℚ := none
  last : Option ℚ := none
  volume : Option ℚ := none
  openInterest : Option ℚ := none
  source : String
  requestedFeed : Option String := none
  effectiveFeed : Option String := none
  spreadPct : Option ℚ := none
deriving DecidableEq

/-- A row of `stock_snapshots`, with the prices of its evidence document. -/
structure StockSnapshot where
  id : String
  symbol : String
  observedAt : Time
  sourceTimestamp : Option Time := none
  requestedFeed : String
  effectiveFeed : String
  source : String
  midpoint : Option ℚ := none
  latestTradePrice : Option ℚ := none
  currentTradablePrice : Option ℚ := none
  marketReferencePrice : Option ℚ := none
  minuteClose : Option ℚ := none
  dailyClose : Option ℚ := none
deriving DecidableEq

/-- A row of `market_bars`. -/
structure MarketBar where
  symbol : String
  timeframe : String
  observedAt : Time
  close : ℚ
deriving DecidableEq

/-- The market data. -/
structure Market where
  contracts : List OptionContract := []
  optionSnapshots : List OptionSnapshot := []
  stockSnapshots : List StockSnapshot := []
  bars : List MarketBar := []

/-- The latest snapshot of a stock. -/
def Market.stock (market : Market) (symbol : String) : Option StockSnapshot :=
  firstBy (fun a b ↦ b.observedAt < a.observedAt ∨ (a.observedAt = b.observedAt ∧ b.id < a.id))
    (market.stockSnapshots.filter (·.symbol = symbol))

/-- The latest snapshot of an option. -/
def Market.option (market : Market) (optionSymbol : String) : Option OptionSnapshot :=
  firstBy (fun a b ↦ b.observedAt < a.observedAt)
    (market.optionSnapshots.filter (·.optionSymbol = optionSymbol))

/-- The daily bars of a stock, the latest first. -/
def Market.daily (market : Market) (symbol : String) : List MarketBar :=
  (market.bars.filter fun b ↦ b.symbol = symbol ∧ b.timeframe = "1Day").insertionSort
    fun a b ↦ b.observedAt ≤ a.observedAt

/-! ## Evidence of options -/

/-- The members of a market evidence document that decide about an option quote. -/
structure OptionQuote where
  bid : Option ℚ := none
  ask : Option ℚ := none
  spreadPct : Option ℚ := none
  volume : Option ℚ := none
  openInterest : Option ℚ := none
  requestedFeed : Option String := none
  effectiveFeed : Option String := none
  provider : Option String := none
deriving DecidableEq

/-- A text as the checks compare it; a missing one is empty. -/
def lowered (text : Option String) : String := Text.toLowerCase (Text.trim (text.getD ""))

/-- A symbol as the checks compare it; a missing one is empty. -/
def raised (text : Option String) : String := Text.toUpperCase (Text.trim (text.getD ""))

/-- `executableOptionEvidence`. -/
def executableOptionEvidence (quote : OptionQuote) (maximumSpreadPct : ℚ)
    (underlyingPrice : Option ℚ) : Bool :=
  quote.bid.any (0 < ·) && quote.ask.any (0 < ·) &&
  decide (quote.bid.getD 0 ≤ quote.ask.getD 0) &&
  quote.spreadPct.any (fun s ↦ 0 ≤ s ∧ s ≤ maximumSpreadPct) && underlyingPrice.any (0 < ·) &&
  quote.volume.any (0 ≤ ·) && quote.openInterest.any (0 ≤ ·) &&
  decide (0 < quote.volume.getD 0 + quote.openInterest.getD 0) &&
  decide (lowered quote.requestedFeed = "opra" ∧ lowered quote.effectiveFeed = "opra" ∧
    lowered quote.provider = "alpaca")

/-- The columns about an option that the checks read from a row. -/
structure OptionColumns where
  symbol : String
  /-- `option_symbol`, else `order_symbol`. -/
  optionSymbol : String
  contractId : Option String := none
  contractOptionSymbol : Option String := none
  contractUnderlyingSymbol : Option String := none
  contractType : Option OptionType := none
  contractExpirationDate : Option String := none
  contractTradable : Option Bool := none
  contractStatus : Option String := none
  contractSource : Option String := none
  contractMultiplier : Option ℚ := none
  contractObservedAt : Option Time := none
  sipUnderlyingSymbol : Option String := none
  sipMarketPrice : Option ℚ := none
  sipMarketTimestamp : Option Time := none
  sipRequestedFeed : Option String := none
  sipEffectiveFeed : Option String := none
  sipProvider : Option String := none
deriving DecidableEq

/-- `AUTONOMOUS_MARKET_DATA_FRESHNESS_SECONDS`. -/
def autonomousMarketDataFreshnessSeconds : ℚ := 30 * 60

/-- The instant lies at most a minute ahead and at most the given seconds back. -/
def freshWithin (now at' : Time) (seconds : ℚ) : Bool :=
  decide (-60000 ≤ now - at' ∧ ((now - at' : Int) : ℚ) ≤ seconds * 1000)

/-- The identity checks of `assertFreshAlpacaSipUnderlying`. -/
def sipIdentity (columns : OptionColumns) : Bool :=
  decide (raised (some columns.symbol) ≠ "" ∧ raised (some columns.optionSymbol) ≠ "" ∧
    raised columns.contractUnderlyingSymbol = raised (some columns.symbol) ∧
    raised columns.sipUnderlyingSymbol = raised (some columns.symbol)) &&
  columns.sipMarketPrice.any (0 < ·) &&
  decide (lowered columns.sipRequestedFeed = "sip" ∧ lowered columns.sipEffectiveFeed = "sip" ∧
    lowered columns.sipProvider = "alpaca") &&
  columns.sipMarketTimestamp.isSome

/-- `assertFreshAlpacaSipUnderlying` of an option row. -/
def assertFreshAlpacaSipUnderlying (scope : String) (columns : OptionColumns) (now : Time)
    (maxAgeSeconds : ℚ) : Except String Unit := do
  let name := raised (some columns.optionSymbol)
  require (sipIdentity columns) ("POSTGRES_" ++ scope ++ "_OPTION_UNDERLYING_SIP_INVALID:" ++
    (if name = "" then raised (some columns.symbol) else name))
  require (columns.sipMarketTimestamp.any fun at' ↦ freshWithin now at'
      (min maxAgeSeconds autonomousMarketDataFreshnessSeconds))
    ("POSTGRES_" ++ scope ++ "_OPTION_UNDERLYING_SIP_STALE:" ++ name)

/-- `LEAPS_CONTRACT_MULTIPLIER`. -/
def leapsContractMultiplier : ℚ := 100

/-- The conditions of `assertObservedOptionContract` but the one on the multiplier. -/
def contractIdentity (columns : OptionColumns) : Bool :=
  (parseOptionSymbol (raised (some columns.optionSymbol))).any (fun parsed ↦
    decide (columns.contractExpirationDate.getD "" = parsed.expirationDate ∧
      columns.contractType = some parsed.optionType)) &&
  decide (Text.trim (columns.contractId.getD "") ≠ "" ∧
    raised columns.contractOptionSymbol = raised (some columns.optionSymbol) ∧
    raised columns.contractUnderlyingSymbol = raised (some columns.symbol) ∧
    columns.contractTradable = some true ∧ lowered columns.contractStatus = "active" ∧
    lowered columns.contractSource = "alpaca" ∧ columns.contractObservedAt.isSome)

/-- `assertObservedOptionContract` of an option row. -/
def assertObservedOptionContract (columns : OptionColumns) : Except String Unit :=
  let name := raised (some columns.optionSymbol)
  require (contractIdentity columns &&
      decide (columns.contractMultiplier = some leapsContractMultiplier))
    ("POSTGRES_REVIEW_OPTION_CONTRACT_INVALID:" ++ (if name = "" then columns.symbol else name))

end AlpacaTrading
