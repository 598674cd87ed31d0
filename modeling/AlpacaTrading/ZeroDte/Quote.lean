import AlpacaTrading.ZeroDte.Lifecycle

/-!
# Quotes of the zero-DTE services

Quotes reach the shadow trades and the forward outcomes as records of which nothing is known:
numbers may be texts, a field may have other names, be nested or be missing.
`normalizeZeroDteShadowQuote` reads one, and says whether it is valid.

The fields of an object stand for its own enumerable ones; the first of a name counts.
-/

namespace AlpacaTrading

namespace ZeroDte

/-! ## Values -/

/-- A value of the language, as far as quotes hold them. -/
inductive JsValue where
  | undefined
  | null
  | bool (b : Bool)
  | number (n : JsNumber)
  | text (s : String)
  | array (elements : List JsValue)
  | object (fields : List (String × JsValue))

/-- `Number` of a text and of an array. -/
class Conversion where
  numberOfText : String → JsNumber
  numberOfArray : List JsValue → JsNumber

namespace JsValue

/-- `Number(value)`. -/
def toNumber [Conversion] : JsValue → JsNumber
  | undefined => .notFinite
  | null => .finite 0
  | bool b => .finite (if b then 1 else 0)
  | number n => n
  | text s => Conversion.numberOfText s
  | array elements => Conversion.numberOfArray elements
  | object _ => .notFinite

/-- `left ?? right`. -/
def orElse : JsValue → JsValue → JsValue
  | undefined, right => right
  | null, right => right
  | left, _ => left

/-- Whether `if (value)` takes the branch. -/
def truthy : JsValue → Bool
  | undefined => false
  | null => false
  | bool b => b
  | number (.finite x) => x ≠ 0
  | number .notFinite => false
  | text s => s ≠ ""
  | array _ => true
  | object _ => true

/-- `typeof value === "string"`. -/
def text? : JsValue → Option String
  | text s => some s
  | _ => none

end JsValue

/-- A record. -/
abbrev Fields := List (String × JsValue)

/-- `asRecord`. -/
def asRecord : JsValue → Fields
  | .object fields => fields
  | _ => []

/-- `record[key]`. -/
def Fields.get (fields : Fields) (key : String) : JsValue :=
  ((List.find? (fun f ↦ f.1 = key) fields).map (·.2)).getD .undefined

/-! ## Reading a quote -/

/-- `readZeroDteShadowAssumptions`. -/
structure ShadowAssumptions where
  slippage : ℚ
  feePerContract : ℚ
  maxQuoteAgeMs : ℤ

/-- `ZeroDteShadowQuoteStatus`. -/
inductive QuoteStatus where
  | valid | missing | invalid | stale
deriving DecidableEq, Repr

/-- `ZeroDteNormalizedShadowQuote`. -/
structure NormalizedShadowQuote where
  bid : Option ℚ
  ask : Option ℚ
  midpoint : Option ℚ
  quoteTimestamp : Option Time
  status : QuoteStatus
  reasonCode : Option String
deriving DecidableEq

/-- `MAX_FUTURE_QUOTE_MS`. -/
def maxFutureQuoteMs : ℤ := 5000

section Read

variable [Conversion]

/-- `finiteNumber`. -/
def finiteNumber (value : JsValue) : Option ℚ := value.toNumber.value

/-- `readQuoteField`. -/
def readQuoteField (quote : Fields) (key : String) (alternateKey : Option String := none) :
    Option ℚ :=
  finiteNumber ((quote.get key).orElse ((alternateKey.map quote.get).getD .undefined))

variable [Runtime]

/-- A text that `Date.parse` reads. -/
def timestampOf (value : JsValue) : Option Time := value.text?.bind Runtime.dateParse

/-- `normalizeZeroDteShadowQuote`. -/
def normalizeZeroDteShadowQuote (assumptions : ShadowAssumptions) (input : JsValue) (asOf : Time) :
    NormalizedShadowQuote :=
  let quote := asRecord input
  let latestQuote := asRecord (quote.get "latestQuote")
  let quoteTimestamp := timestampOf (((quote.get "quoteTimestamp").orElse
    (quote.get "snapshotTimestamp")).orElse (latestQuote.get "timestamp"))
  if !input.truthy then
    { bid := none, ask := none, midpoint := none, quoteTimestamp, status := .missing,
      reasonCode := some "QUOTE_MISSING" }
  else
    let bid := (readQuoteField quote "bid" (some "bidPrice")).or
      (finiteNumber (latestQuote.get "bidPrice"))
    let ask := (readQuoteField quote "ask" (some "askPrice")).or
      (finiteNumber (latestQuote.get "askPrice"))
    let suppliedMidpoint := readQuoteField quote "midpoint"
    match bid, ask with
    | some b, some a =>
      if b ≤ 0 ∨ a ≤ 0 ∨ a < b then
        { bid, ask, midpoint := suppliedMidpoint, quoteTimestamp, status := .invalid,
          reasonCode := some (if a < b then "CROSSED_QUOTE" else "INVALID_QUOTE") }
      else
        let midpoint := suppliedMidpoint.getD ((b + a) / 2)
        if midpoint ≤ 0 ∨ midpoint < b ∨ a < midpoint then
          { bid, ask, midpoint := some midpoint, quoteTimestamp, status := .invalid,
            reasonCode := some "INVALID_QUOTE" }
        -- A quote without a time is not stale.
        else if quoteTimestamp.any fun t ↦
            assumptions.maxQuoteAgeMs < asOf - t ∨ asOf - t < -maxFutureQuoteMs then
          { bid, ask, midpoint := some midpoint, quoteTimestamp, status := .stale,
            reasonCode := some "STALE_QUOTE" }
        else
          { bid, ask, midpoint := some midpoint, quoteTimestamp, status := .valid,
            reasonCode := none }
    | _, _ =>
      { bid, ask, midpoint := suppliedMidpoint, quoteTimestamp, status := .missing,
        reasonCode := some "QUOTE_MISSING" }

/-- **What a valid quote is.** -/
structure NormalizedShadowQuote.WellFormed (quote : NormalizedShadowQuote)
    (assumptions : ShadowAssumptions) (asOf : Time) : Prop where
  prices : ∃ b m a, quote.bid = some b ∧ quote.midpoint = some m ∧ quote.ask = some a ∧
    0 < b ∧ b ≤ m ∧ m ≤ a
  fresh : ∀ t, quote.quoteTimestamp = some t →
    -maxFutureQuoteMs ≤ asOf - t ∧ asOf - t ≤ assumptions.maxQuoteAgeMs
  reasonCode : quote.reasonCode = none

theorem wellFormed_of_valid {assumptions : ShadowAssumptions} {input : JsValue} {asOf : Time}
    (h : (normalizeZeroDteShadowQuote assumptions input asOf).status = .valid) :
    (normalizeZeroDteShadowQuote assumptions input asOf).WellFormed assumptions asOf := by
  revert h
  rw [normalizeZeroDteShadowQuote]
  dsimp only
  split
  · exact nofun
  · split
    · next b a hb ha =>
      split
      · exact nofun
      · next hprices =>
        split
        · exact nofun
        · next hmidpoint =>
          split
          · exact nofun
          · next hstale =>
            intro _
            refine ⟨⟨b, _, a, hb, rfl, ha, ?_, ?_, ?_⟩, fun t ht ↦ ?_, rfl⟩
            · exact lt_of_not_ge fun hle ↦ hprices (Or.inl hle)
            · exact le_of_not_gt fun hlt ↦ hmidpoint (Or.inr (Or.inl hlt))
            · exact le_of_not_gt fun hlt ↦ hmidpoint (Or.inr (Or.inr hlt))
            · dsimp only at ht
              rw [ht, Option.any_some, decide_eq_true_iff, not_or] at hstale
              exact ⟨le_of_not_gt hstale.2, le_of_not_gt hstale.1⟩
    · exact nofun

end Read

end ZeroDte

end AlpacaTrading
