import Mathlib.Algebra.Order.Floor.Ring
import Mathlib.Data.List.DropRight
import Mathlib.Data.List.Sort
import AlpacaTrading.Lib.Extended
import AlpacaTrading.ZeroDte.Quote

/-!
# The market context of the zero-DTE playbooks

The context a playbook is evaluated in, and what `deriveMarketContext` computes from it once for
all of them: averages, ranges and ratios, each of them missing when its inputs are.

The indicators are a record of which nothing is known, so every reading of one goes through
`readNumber`, `readBoolean` or `readString`, which take the first of several names that holds a
value of the right kind.  Quotients of closing prices may be infinite, the rest of the derived
numbers are finite.
-/

namespace AlpacaTrading

namespace ZeroDte

/-! ## Reading records -/

/-- `finite`. -/
def finite : JsValue → Option ℚ
  | .number n => n.value
  | _ => none

/-- `readNumber`. -/
def readNumber (source : Fields) (names : List String) : Option ℚ :=
  names.findSome? fun name ↦ finite (source.get name)

/-- What `readBoolean` takes a value for. -/
def booleanOf : JsValue → Option Bool
  | .bool b => some b
  | .text s =>
    if Text.toLowerCase (Text.trim s) = "true" then some true
    else if Text.toLowerCase (Text.trim s) = "false" then some false
    else none
  | .number (.finite x) => if x = 0 ∨ x = 1 then some (x = 1) else none
  | _ => none

/-- `readBoolean`. -/
def readBoolean (source : Fields) (names : List String) : Option Bool :=
  names.findSome? fun name ↦ booleanOf (source.get name)

/-- `readString`. -/
def readString (source : Fields) (names : List String) : Option String :=
  names.findSome? fun name ↦ ((source.get name).text?.map Text.trim).filter (· ≠ "")

/-- `normalizeDirection` of a text. -/
def directionOfText (text : String) : Option Direction :=
  let name := Text.toLowerCase (Text.trim text)
  if name ∈ ["bullish", "up", "long"] then some .bullish
  else if name ∈ ["bearish", "down", "short"] then some .bearish
  else if name ∈ ["neutral", "flat"] then some .neutral
  else none

/-- `normalizeDirection`. -/
def normalizeDirection (value : JsValue) : Option Direction := value.text?.bind directionOfText

/-! ## The context -/

/-- `ZeroDteBar` as a context holds it. -/
structure ContextBar where
  timestamp : String
  opening : JsNumber
  high : JsNumber
  low : JsNumber
  close : JsNumber
  volume : JsValue
  vwap : JsValue

/-- A bar whose four prices are finite. -/
structure Bar where
  timestamp : String
  opening : ℚ
  high : ℚ
  low : ℚ
  close : ℚ
  volume : JsValue
  vwap : JsValue

/-- `ZeroDteOpeningRange`. -/
structure ContextRange where
  high : JsNumber
  low : JsNumber

/-- `ZeroDtePlaybookContext`. -/
structure PlaybookContext where
  price : JsNumber
  barsByTimeframe : List (String × List ContextBar)
  option : Fields
  indicators : Fields
  direction : Option Direction := none
  openingRange : Option ContextRange := none
  openingRangeMinutes : Option JsNumber := none

/-- The functions of `Math` that have no exact value. -/
class Elementary where
  sqrt : ExtendedNumber → ExtendedNumber
  log10 : ExtendedNumber → ExtendedNumber

/-! ## Bars -/

section Bars

variable [Runtime]

/-- The prices of a bar, if they are finite. -/
def ContextBar.read (bar : ContextBar) : Option Bar := do
  let opening ← bar.opening.value
  let high ← bar.high.value
  let low ← bar.low.value
  let close ← bar.close.value
  some { timestamp := bar.timestamp, opening, high, low, close, volume := bar.volume,
         vwap := bar.vwap }

/-- The comparison of `orderedBars`: a time that does not parse is as early as any other. -/
def NotLater (left right : Bar) : Prop :=
  ∀ t ∈ Runtime.dateParse left.timestamp, ∀ t' ∈ Runtime.dateParse right.timestamp, t ≤ t'

instance : DecidableRel NotLater := fun left right ↦ by unfold NotLater; infer_instance

/-- `orderedBars`. -/
def orderedBars (bars : List ContextBar) : List Bar :=
  (bars.filterMap ContextBar.read).insertionSort NotLater

/-- The name of a time frame without what is neither a letter nor a digit. -/
def plainKey (key : String) : String :=
  String.ofList ((Text.toLowerCase key).toList.filter
    fun c ↦ ('a' ≤ c && c ≤ 'z') || ('0' ≤ c && c ≤ '9'))

/-- `text.includes(part)`. -/
def includes (text part : String) : Bool := decide (part.toList <:+: text.toList)

/-- `primaryBars`. -/
def primaryBars (context : PlaybookContext) : List Bar :=
  let entries := context.barsByTimeframe
  let preferred := ["1min", "1m", "5min", "5m", "15min", "15m"]
  let found := preferred.findSome? fun name ↦
    List.find? (fun entry ↦ plainKey entry.1 = name) entries
  let fallback := List.find? (fun entry ↦ !includes (Text.toLowerCase entry.1) "opening") entries
  orderedBars (((found.or fallback).map (·.2)).getD [])

end Bars

/-! ## Indicators -/

section Averages

variable {α : Type*} [Zero α] [Add α] [Div α] [NatCast α]

/-- The sum of some numbers, from the first one on. -/
def total (values : List α) : α := values.foldl (· + ·) 0

/-- `mean`. -/
def mean (values : List α) : Option α :=
  if values = [] then none else some (total values / (values.length : α))

end Averages

/-- `ema`. -/
def ema (values : List ℚ) (period : ℕ) : Option ℚ :=
  if values.length < period then none
  else
    let k : ℚ := 2 / (period + 1)
    some ((values.drop period).foldl (fun current value ↦ value * k + current * (1 - k))
      (total (values.take period) / period))

/-- The true range of a bar after another one. -/
def trueRange (previous bar : Bar) : ℚ :=
  max (max (bar.high - bar.low) |bar.high - previous.close|) |bar.low - previous.close|

/-- `atr` of the prices of some bars. -/
def atr (bars : List Bar) (period : ℕ) : Option ℚ :=
  if bars.length < period + 1 then none
  else some (total ((List.zipWith trueRange bars bars.tail).rtake period) / period)

/-- `rollingStd`. -/
def rollingStd [Elementary] (values : List ExtendedNumber) (period : ℕ) : Option ExtendedNumber :=
  if values.length < period then none
  else
    let window := values.rtake period
    let avg := total window / (period : ExtendedNumber)
    some (Elementary.sqrt
      (total (window.map fun value ↦ (value - avg) * (value - avg)) / (period : ExtendedNumber)))

/-! ## Derived numbers -/

/-- `deriveVwap`. -/
def deriveVwap (indicators : Fields) (bars : List Bar) : Option ℚ :=
  let volumeRows := bars.filterMap fun bar ↦
    ((finite bar.volume).filter (0 < ·)).map fun volume ↦
      (volume, (bar.high + bar.low + bar.close) / 3)
  let totalVolume := total (volumeRows.map (·.1))
  ((readNumber indicators ["vwap", "sessionVwap"]).or
    (bars.getLast?.bind fun bar ↦ finite bar.vwap)).or
    (if 0 < totalVolume then
      some (total (volumeRows.map fun row ↦ row.2 * row.1) / totalVolume)
    else mean (bars.map (·.close)))

/-- `deriveAtr`. -/
def deriveAtr (indicators : Fields) (bars : List Bar) : Option ℚ :=
  (((readNumber indicators ["atr", "atr14", "atrValue"]).filter (0 < ·)).or
    ((atr bars 14).filter (0 < ·))).or (mean (bars.map fun bar ↦ bar.high - bar.low))

/-- `deriveRelativeVolume`. -/
def deriveRelativeVolume (indicators : Fields) (bars : List Bar) : Option ℚ :=
  (readNumber indicators ["relativeVolume", "rvol"]).or do
    let lastVolume ← bars.getLast?.bind fun bar ↦ finite bar.volume
    let baseline ← mean
      (((bars.dropLast.filterMap fun bar ↦ finite bar.volume).filter (0 < ·)).rtake 20)
    if 0 < baseline then some (lastVolume / baseline) else none

/-- The direction of a change. -/
def directionOfChange (change : ℚ) : Direction :=
  if 0 < change then .bullish else if change < 0 then .bearish else .neutral

/-- `deriveTimeframeDirections`. -/
def deriveTimeframeDirections [Runtime] (context : PlaybookContext) : List Direction :=
  let configured := (asRecord (context.indicators.get "multiTimeframeDirection")).filterMap
    fun field ↦ normalizeDirection field.2
  if configured ≠ [] then configured
  else
    let frames := context.barsByTimeframe.filter
      fun entry ↦ !includes (Text.toLowerCase entry.1) "opening"
    frames.filterMap fun entry ↦
      match orderedBars entry.2 with
      | first :: second :: rest =>
        some (directionOfChange (((second :: rest).getLast (by simp)).close - first.close))
      | _ => none

/-- `deriveRangeBreak`. -/
def deriveRangeBreak (indicators : Fields) (bars : List Bar) : Option Bool :=
  (readBoolean indicators ["rangeBreak", "breakoutConfirmed"]).or do
    let current ← bars.getLast?
    let previous := (bars.drop (bars.length - 11)).dropLast
    let priorHigh ← (previous.map (·.high)).max?
    let priorLow ← (previous.map (·.low)).min?
    some (current.close > priorHigh || current.close < priorLow)

/-- `deriveAtrAcceleration`. -/
def deriveAtrAcceleration (indicators : Fields) (bars : List Bar) (currentAtr : Option ℚ) :
    Option ℚ :=
  let baseline := (readNumber indicators ["atrBaseline", "baselineAtr"]).filter (0 < ·)
  (readNumber indicators ["atrAcceleration", "atrRatio", "atrExpansion"]).or <|
    (currentAtr.bind fun current ↦ baseline.map fun b ↦ current / b).or <|
      if bars.length < 4 then none
      else do
        let last ← bars.getLast?
        let baselineRange ← mean ((bars.dropLast.rtake 10).map fun bar ↦ bar.high - bar.low)
        if 0 < baselineRange then some ((last.high - last.low) / baselineRange) else none

/-- `deriveVelocity`. -/
def deriveVelocity (indicators : Fields) (bars : List Bar) (currentAtr : Option ℚ) : Option ℚ :=
  (readNumber indicators ["velocity", "priceVelocity"]).or do
    let last ← bars.getLast?
    let previous ← bars.dropLast.getLast?
    let current ← currentAtr
    if current ≤ 0 then none else some ((last.close - previous.close) / current)

/-- `DerivedMarketContext`. -/
structure DerivedMarketContext where
  bars : List Bar
  price : Option ℚ
  previousClose : Option ℚ
  vwap : Option ℚ
  emaFast : Option ℚ
  emaSlow : Option ℚ
  atr : Option ℚ
  relativeVolume : Option ℚ
  realizedVolatility : Option ExtendedNumber
  realizedVolatilityBaseline : Option ExtendedNumber
  atrAcceleration : Option ℚ
  rangeBreak : Option Bool
  volatilityIndexMovement : Option ℚ
  impliedVolatility : Option ℚ
  velocity : Option ℚ
  breadth : Option ℚ
  crossIndexConfirmation : Option Bool
  timeframeDirections : List Direction

/-- The return of a bar after another one. -/
def returnOf (previous close : ℚ) : ExtendedNumber :=
  .finite close / .finite previous - .finite 1

/-- `deriveMarketContext`. -/
def deriveMarketContext [Runtime] [Elementary] (context : PlaybookContext) :
    DerivedMarketContext :=
  let indicators := context.indicators
  let bars := primaryBars context
  let closes := bars.map (·.close)
  let currentAtr := deriveAtr indicators bars
  let returns := List.zipWith returnOf closes closes.tail
  let volatility := readNumber indicators ["realizedVolatility", "realizedVolatility20"]
  let baseline :=
    readNumber indicators ["realizedVolatilityBaseline", "realizedVolatilityBaseline20"]
  { bars
    price := context.price.value.or closes.getLast?
    previousClose := closes.dropLast.getLast?
    vwap := deriveVwap indicators bars
    emaFast := (readNumber indicators ["emaFast", "emaShort", "ema9"]).or (ema closes 9)
    emaSlow := (readNumber indicators ["emaSlow", "emaLong", "ema20", "ema50"]).or (ema closes 20)
    atr := currentAtr
    relativeVolume := deriveRelativeVolume indicators bars
    realizedVolatility := (volatility.map .finite).or
      (if 2 ≤ returns.length then rollingStd returns (min 20 returns.length) else none)
    realizedVolatilityBaseline :=
      (baseline.map .finite).or (mean ((returns.rdrop 5).map .abs))
    atrAcceleration := deriveAtrAcceleration indicators bars currentAtr
    rangeBreak := deriveRangeBreak indicators bars
    volatilityIndexMovement := readNumber indicators
      ["volatilityIndexChangePct", "volatilityProxyChangePct", "vixChangePct"]
    impliedVolatility := (finite (context.option.get "impliedVolatility")).or
      (readNumber indicators ["impliedVolatility", "iv"])
    velocity := deriveVelocity indicators bars currentAtr
    breadth := readNumber indicators ["breadth", "marketBreadth"]
    crossIndexConfirmation :=
      readBoolean indicators ["crossIndexConfirmation", "crossMarketConfirmation"]
    timeframeDirections := deriveTimeframeDirections context }

/-! ## Contexts that differ in one indicator -/

/-- The two names under which the risk of a false break is read. -/
def falseBreakNames : List String := ["falseBreakRisk", "falseBreakProbability"]

/-- The second context is the first one but for the risk of a false break, which is `r₁` in the
first and `r₂` in the second. -/
structure DifferInFalseBreakRisk (context₁ context₂ : PlaybookContext) (r₁ r₂ : ℚ) : Prop where
  price : context₁.price = context₂.price
  bars : context₁.barsByTimeframe = context₂.barsByTimeframe
  option : context₁.option = context₂.option
  direction : context₁.direction = context₂.direction
  openingRange : context₁.openingRange = context₂.openingRange
  openingRangeMinutes : context₁.openingRangeMinutes = context₂.openingRangeMinutes
  indicators : ∀ name ∉ falseBreakNames,
    context₁.indicators.get name = context₂.indicators.get name
  risk₁ : readNumber context₁.indicators falseBreakNames = some r₁
  risk₂ : readNumber context₂.indicators falseBreakNames = some r₂

/-- What the names are read as decides what the first of them is read as. -/
theorem findSome?_congr {α β : Type*} {f g : α → Option β} {l : List α}
    (h : ∀ a ∈ l, f a = g a) : l.findSome? f = l.findSome? g := by
  induction l with
  | nil => rfl
  | cons a l ih =>
    rw [List.findSome?_cons, List.findSome?_cons, h a List.mem_cons_self,
      ih fun b hb ↦ h b (List.mem_cons_of_mem a hb)]

namespace DifferInFalseBreakRisk

variable {context₁ context₂ : PlaybookContext} {r₁ r₂ : ℚ}

theorem readNumber (h : DifferInFalseBreakRisk context₁ context₂ r₁ r₂) {names : List String}
    (hnames : ∀ name ∈ names, name ∉ falseBreakNames) :
    ZeroDte.readNumber context₁.indicators names = ZeroDte.readNumber context₂.indicators names :=
  findSome?_congr fun name hname ↦ by rw [h.indicators name (hnames name hname)]

theorem readBoolean (h : DifferInFalseBreakRisk context₁ context₂ r₁ r₂) {names : List String}
    (hnames : ∀ name ∈ names, name ∉ falseBreakNames) :
    ZeroDte.readBoolean context₁.indicators names =
      ZeroDte.readBoolean context₂.indicators names :=
  findSome?_congr fun name hname ↦ by rw [h.indicators name (hnames name hname)]

variable [Runtime] [Elementary] in
/-- Nothing that is derived depends on the risk of a false break. -/
theorem derive (h : DifferInFalseBreakRisk context₁ context₂ r₁ r₂) :
    deriveMarketContext context₁ = deriveMarketContext context₂ := by
  have hbars : primaryBars context₁ = primaryBars context₂ := by
    rw [primaryBars, primaryBars, h.bars]
  have hframes : deriveTimeframeDirections context₁ = deriveTimeframeDirections context₂ := by
    rw [deriveTimeframeDirections, deriveTimeframeDirections, h.bars,
      h.indicators "multiTimeframeDirection" (by decide)]
  have hatr : ∀ bars, deriveAtr context₁.indicators bars = deriveAtr context₂.indicators bars :=
    fun bars ↦ by rw [deriveAtr, deriveAtr, h.readNumber (by decide)]
  simp (disch := decide) only [deriveMarketContext, hbars, hframes, hatr, h.price, h.option,
    deriveVwap, deriveRelativeVolume, deriveRangeBreak, deriveAtrAcceleration, deriveVelocity,
    h.readNumber, h.readBoolean]

end DifferInFalseBreakRisk

end ZeroDte

end AlpacaTrading
