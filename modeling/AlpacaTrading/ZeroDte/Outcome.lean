import AlpacaTrading.Lib.Finality
import AlpacaTrading.Lib.Run
import AlpacaTrading.ZeroDte.ShadowRun

/-!
# Forward outcomes

`captureZeroDteOutcomes` records what a candidate that was not traded would have earned at each
horizon.  A horizon is complete once its time has come and a valid quote for it is found; until then
its row says why not.

## The quote of a horizon

A run is given one record of quotes.  The quote of a horizon is looked up under four spellings of
the symbol with the horizon, then within the quote of the symbol, and last that quote itself is
taken.  The time of a quote is its `quoteTimestamp` or its `snapshotTimestamp`.  A quote without
either is taken as one of the horizon, so that nothing is said of when it was made.

## Main results

* `captureHorizon_finalizes`: one horizon, where every new complete row has a causal quote.
* `outcomes_final`: along every run, complete rows are final, an incomplete row only becomes
  complete, and every complete row has a causal quote.
-/

namespace AlpacaTrading

namespace ZeroDte

/-! ## Rows -/

/-- `completeness_status`. -/
inductive Completeness where
  | complete | incomplete
deriving DecidableEq, Repr

/-- `evidence_json` of an outcome. -/
structure ForwardEvidence where
  source : String := "zero_dte_forward_outcome"
  optionSymbol : String
  originalDirection : Direction
  directionalCorrect : Option Bool
  entryPremium : Option ℚ
  entrySource : String
  exitPremium : Option ℚ
  quoteStatus : QuoteStatus
  quoteReasonCode : Option String
  quoteTimestamp : Option Time
  targetAt : Time
  slippagePerContract : ℚ
  feePerContract : ℚ
  fees : ℚ
  incompleteReasonCode : Option String
deriving DecidableEq

/-- `OUTCOME_TYPE`. -/
def missedOpportunity : String := "missed_opportunity"

/-- A row of `zero_dte_terminal_outcomes` without a trade. -/
structure ForwardOutcomeRow where
  outcomeId : String
  candidateId : String
  tradingDate : String
  outcomeType : String := missedOpportunity
  horizonMinutes : ℤ
  terminalState : String
  terminalPrice : Option ℚ
  mfe : Option ℚ
  mae : Option ℚ
  realizedPnl : Option ℚ
  returnPct : Option ℚ
  holdingMinutes : ℤ
  exitReasonCode : String
  completenessStatus : Completeness
  evaluatedAt : Time
  evidence : ForwardEvidence
  createdAt : Time
deriving DecidableEq

instance : Row ForwardOutcomeRow String where
  key := (·.outcomeId)
  clash a b := a.outcomeId = b.outcomeId ∨ a.candidateId = b.candidateId ∧
    a.outcomeType = b.outcomeType ∧ a.horizonMinutes = b.horizonMinutes
  dec _ _ := inferInstanceAs (Decidable (_ ∨ _))
  symm h := h.imp Eq.symm fun h ↦ ⟨h.1.symm, h.2.1.symm, h.2.2.symm⟩
  clash_of_key h := Or.inl h

/-- The outcomes, and the store of the candidates and the shadow trades. -/
structure OutcomeDb where
  shadow : ShadowDb
  outcomes : Table ForwardOutcomeRow := .empty

/-! ## Quotes -/

/-- `asQuote`.  A number is a quote of its own. -/
def asQuote : JsValue → Option Fields
  | .number (.finite x) =>
    let value := JsValue.number (.finite x)
    some [("bid", value), ("ask", value), ("midpoint", value)]
  | .object fields => some fields
  | _ => none

/-- `horizonKeys`. -/
def horizonKeys (horizonMinutes : ℤ) : List String :=
  let h := toString horizonMinutes
  [h, h ++ "m", "horizon_" ++ h, "horizon" ++ h]

/-- The fields in which the quote of a symbol may hold those of its horizons. -/
def nestedFields : List String := ["horizonQuotes", "forwardQuotes", "marks", "outcomes"]

/-- `resolveNestedHorizonQuote`. -/
def resolveNestedHorizonQuote (base : Fields) (horizonMinutes : ℤ) : Option Fields :=
  nestedFields.findSome? fun field ↦
    (horizonKeys horizonMinutes).findSome? fun key ↦
      asQuote (Fields.get (asRecord (base.get field)) key)

/-- The spellings of a symbol with a horizon. -/
def horizonSpellings (symbol : String) (horizonMinutes : ℤ) : List String :=
  let h := toString horizonMinutes
  [symbol ++ ":" ++ h, symbol ++ "@" ++ h, symbol ++ "#" ++ h, symbol ++ "[" ++ h ++ "]"]

/-- `resolveHorizonQuote`. -/
def resolveHorizonQuote (symbol : String) (horizonMinutes : ℤ) (quotes : Fields) :
    Option Fields :=
  match (horizonSpellings symbol horizonMinutes).findSome? fun key ↦ asQuote (quotes.get key) with
  | some quote => some quote
  | none => (asQuote (quotes.get symbol)).map fun base ↦
    (resolveNestedHorizonQuote base horizonMinutes).getD base

/-- A quote of a symbol at a horizon, wherever it stands. -/
inductive QuoteOf (symbol : String) (horizonMinutes : ℤ) (quotes : Fields) : Fields → Prop where
  | spelled {key : String} {quote : Fields} (hkey : key ∈ horizonSpellings symbol horizonMinutes)
      (hquote : asQuote (quotes.get key) = some quote) : QuoteOf symbol horizonMinutes quotes quote
  | nested {base quote : Fields} {field key : String}
      (hbase : asQuote (quotes.get symbol) = some base) (hfield : field ∈ nestedFields)
      (hkey : key ∈ horizonKeys horizonMinutes)
      (hquote : asQuote (Fields.get (asRecord (base.get field)) key) = some quote) :
      QuoteOf symbol horizonMinutes quotes quote
  | plain {quote : Fields} (hquote : asQuote (quotes.get symbol) = some quote) :
      QuoteOf symbol horizonMinutes quotes quote

/-- The quote that is found is one of the symbol. -/
theorem quoteOf_of_resolve {symbol : String} {horizonMinutes : ℤ} {quotes quote : Fields}
    (h : resolveHorizonQuote symbol horizonMinutes quotes = some quote) :
    QuoteOf symbol horizonMinutes quotes quote := by
  rw [resolveHorizonQuote] at h
  split at h
  · next found hfound =>
    obtain rfl := Option.some_inj.1 h
    obtain ⟨key, hkey, hquote⟩ := List.exists_of_findSome?_eq_some hfound
    exact QuoteOf.spelled hkey hquote
  · obtain ⟨base, hbase, rfl⟩ := Option.map_eq_some_iff.1 h
    rcases hnested : resolveNestedHorizonQuote base horizonMinutes with - | nested
    · exact QuoteOf.plain hbase
    · obtain ⟨field, hfield, hinner⟩ := List.exists_of_findSome?_eq_some hnested
      obtain ⟨key, hkey, hquote⟩ := List.exists_of_findSome?_eq_some hinner
      exact QuoteOf.nested hbase hfield hkey hquote

/-- The fields of a missed candidate that are read. -/
structure MissedCandidate where
  candidateId : String
  tradingDate : String
  optionSymbol : String
  direction : Direction
  entryPremium : JsValue := .undefined
  entryPrice : JsValue := .undefined
  observedAt : JsValue := .undefined
  marketTimestamp : JsValue := .undefined
  lastSeenAt : JsValue := .undefined
  asOf : JsValue := .undefined
  quote : JsValue := .undefined
  quantity : JsValue := .undefined

/-- `ZeroDteMissedCandidate`'s entry: the premium and where it comes from. -/
structure EntryPremium where
  premium : Option ℚ
  source : String
deriving DecidableEq

section Capture

variable [Runtime]

/-- `referenceTimestamp`. -/
def referenceTimestamp (candidate : MissedCandidate) (fallback : Time) : Time :=
  ([candidate.observedAt, candidate.marketTimestamp, candidate.lastSeenAt,
    candidate.asOf].findSome? timestampOf).getD fallback

/-- `quoteTimestamp`. -/
def outcomeQuoteTimestamp (quote : Option Fields) : Option Time :=
  let row := quote.getD []
  timestampOf ((row.get "quoteTimestamp").orElse (row.get "snapshotTimestamp"))

/-- The quote as it is passed on. -/
def quoteValue (quote : Option Fields) : JsValue := (quote.map JsValue.object).getD .null

variable [Conversion]

/-- `resolveEntryPremium`. -/
def resolveEntryPremium (assumptions : ShadowAssumptions) (candidate : MissedCandidate)
    (reference : Time) : EntryPremium :=
  match (finiteNumber (candidate.entryPremium.orElse candidate.entryPrice)).filter (0 < ·) with
  | some premium => { premium := some premium, source := "candidate_entry" }
  | none =>
    let normalized := normalizeZeroDteShadowQuote assumptions
      (quoteValue (asQuote candidate.quote)) reference
    match normalized.status, normalized.ask with
    | .valid, some ask =>
      { premium := some (roundMoney (ask + assumptions.slippage))
        source := "candidate_ask_plus_slippage" }
    | _, _ =>
      { premium := none, source := normalized.reasonCode.getD "ENTRY_QUOTE_UNAVAILABLE" }

/-- Why an outcome is incomplete, if it is. -/
def incompleteReason (normalized : NormalizedShadowQuote) (sourceTimestamp : Option Time)
    (evaluatedAt targetAt : Time) (entry : EntryPremium) : Option String :=
  if evaluatedAt < targetAt then some "HORIZON_NOT_REACHED"
  else if sourceTimestamp.any (· < targetAt) then some "QUOTE_BEFORE_HORIZON"
  else if sourceTimestamp.any (evaluatedAt < ·) then some "QUOTE_AFTER_AS_OF"
  else if entry.premium = none then some entry.source
  else if normalized.status ≠ .valid ∨ normalized.bid = none then
    some (normalized.reasonCode.getD "QUOTE_UNAVAILABLE")
  else none

/-- Whether the option bets on the direction. -/
def thesisAligned (direction : Direction) (optionSymbol : String) : Bool :=
  (parseOptionSymbol optionSymbol).any fun option ↦
    (direction = .bullish && option.optionType = .call) ||
      (direction = .bearish && option.optionType = .put)

/-- `outcomeId`. -/
def outcomeId [Hashing] (candidateId : String) (horizonMinutes : ℤ) : String :=
  "zout_" ++ String.ofList ((Hashing.canonicalJsonHash
    [("candidateId", candidateId), ("outcomeType", missedOpportunity),
      ("horizonMinutes", toString horizonMinutes)]).toList.take 40)

/-- `requiredText` of the outcome service. -/
def requiredOutcomeText (value field : String) : Except Error String :=
  if Text.trim value = "" then .error (.message ("0DTE outcome " ++ field ++ " is required"))
  else .ok (Text.trim value)

/-- The outcome of a candidate at a horizon, as a row. -/
def outcomeRow [Hashing] (assumptions : ShadowAssumptions) (candidate : MissedCandidate)
    (candidateId tradingDate optionSymbol : String) (horizonMinutes : ℤ)
    (evaluatedAt targetAt : Time) (quote : Option Fields) (entry : EntryPremium) :
    ForwardOutcomeRow :=
  let sourceTimestamp := outcomeQuoteTimestamp quote
  let normalized := normalizeZeroDteShadowQuote assumptions (quoteValue quote)
    (sourceTimestamp.getD targetAt)
  let reasonCode := incompleteReason normalized sourceTimestamp evaluatedAt targetAt entry
  let completenessStatus : Completeness := if reasonCode = none then .complete else .incomplete
  let exitPremium := if completenessStatus = .complete then
      normalized.bid.map fun bid ↦ roundMoney (max 0 (bid - assumptions.slippage))
    else none
  let quantity := shadowQuantity candidate.quantity
  let fees := roundMoney (assumptions.feePerContract * quantity)
  let realizedPnl := calculatePnl entry.premium exitPremium quantity fees
  let returnPct := calculateReturnPct entry.premium exitPremium
  { outcomeId := outcomeId candidateId horizonMinutes
    candidateId, tradingDate, horizonMinutes
    terminalState := if completenessStatus = .complete then "forward_mark" else "incomplete"
    terminalPrice := exitPremium
    mfe := realizedPnl.map (max · 0)
    mae := realizedPnl.map (min · 0)
    realizedPnl, returnPct
    holdingMinutes := horizonMinutes
    exitReasonCode := reasonCode.getD "FORWARD_HORIZON"
    completenessStatus, evaluatedAt
    evidence :=
      { optionSymbol
        originalDirection := candidate.direction
        directionalCorrect := returnPct.map fun pct ↦
          thesisAligned candidate.direction optionSymbol && 0 < pct
        entryPremium := entry.premium
        entrySource := entry.source
        exitPremium
        quoteStatus := normalized.status
        quoteReasonCode := normalized.reasonCode
        quoteTimestamp := sourceTimestamp
        targetAt
        slippagePerContract := assumptions.slippage
        feePerContract := assumptions.feePerContract
        fees
        incompleteReasonCode := reasonCode }
    createdAt := evaluatedAt }

/-- The columns that an update of an outcome sets. -/
def ForwardOutcomeRow.completedBy (stored row : ForwardOutcomeRow) : ForwardOutcomeRow :=
  { row with
    outcomeId := stored.outcomeId
    candidateId := stored.candidateId
    tradingDate := stored.tradingDate
    outcomeType := stored.outcomeType
    horizonMinutes := stored.horizonMinutes
    createdAt := stored.createdAt }

/-- The statements of `writeOutcome`: a new row is inserted, and an incomplete one completed. -/
def storeOutcome (outcomes : Table ForwardOutcomeRow) (row : ForwardOutcomeRow) :
    Except Error (Table ForwardOutcomeRow) :=
  match outcomes.get? row.outcomeId with
  | none =>
    match outcomes.insert? row with
    | none => .error (.message
        "UNIQUE constraint failed: index 'uq_zero_dte_terminal_outcomes_candidate_only'")
    | some outcomes => .ok outcomes
  | some stored =>
    if stored.completenessStatus ≠ .complete ∧ row.completenessStatus = .complete then
      .ok (outcomes.modify row.outcomeId fun r ↦ r.completedBy row)
    else .ok outcomes

/-- `writeOutcome`. -/
def writeOutcome [Hashing] (assumptions : ShadowAssumptions) (candidateIds : List String)
    (outcomes : Table ForwardOutcomeRow) (candidate : MissedCandidate) (horizonMinutes : ℤ)
    (evaluatedAt targetAt : Time) (quote : Option Fields) (entry : EntryPremium) :
    Except Error (ForwardOutcomeRow × Table ForwardOutcomeRow) := do
  let candidateId ← requiredOutcomeText candidate.candidateId "candidate ID"
  let tradingDate ← requiredOutcomeText candidate.tradingDate "trading date"
  let optionSymbol ← requiredOutcomeText candidate.optionSymbol "option symbol"
  check (candidateIds.contains candidateId) (.message "ZERO_DTE_OUTCOME_CANDIDATE_NOT_FOUND")
  let row := outcomeRow assumptions candidate candidateId tradingDate optionSymbol horizonMinutes
    evaluatedAt targetAt quote entry
  let outcomes ← storeOutcome outcomes row
  match outcomes.get? row.outcomeId with
  | none => .error (.message "Cannot read properties of undefined")
  | some stored => return (stored, outcomes)

/-! ## A run of the capture -/

/-- The last instant of a date. -/
def maxDate : ℤ := 8640000000000000

/-- A horizon of `captureZeroDteOutcomes`. -/
def captureHorizon [Hashing] (assumptions : ShadowAssumptions) (candidateIds : List String)
    (asOf : Time) (quotes : Fields) (candidate : MissedCandidate) (reference : Time)
    (entry : EntryPremium) (state : List ForwardOutcomeRow × Table ForwardOutcomeRow)
    (horizonMinutes : ℤ) : Except Error (List ForwardOutcomeRow × Table ForwardOutcomeRow) := do
  let targetAt := reference + horizonMinutes * 60000
  check (|targetAt| ≤ maxDate) (.message "Invalid time value")
  let (row, outcomes) ← writeOutcome assumptions candidateIds state.2 candidate horizonMinutes asOf
    targetAt (resolveHorizonQuote candidate.optionSymbol horizonMinutes quotes) entry
  return (state.1 ++ [row], outcomes)

/-- A candidate of `captureZeroDteOutcomes`. -/
def captureCandidate [Hashing] (assumptions : ShadowAssumptions) (candidateIds : List String)
    (asOf : Time) (quotes : Fields) (horizons : List ℤ)
    (state : List ForwardOutcomeRow × Table ForwardOutcomeRow) (candidate : MissedCandidate) :
    Except Error (List ForwardOutcomeRow × Table ForwardOutcomeRow) :=
  let reference := referenceTimestamp candidate asOf
  let entry := resolveEntryPremium assumptions candidate reference
  horizons.foldlM
    (captureHorizon assumptions candidateIds asOf quotes candidate reference entry) state

/-- The argument of `captureZeroDteOutcomes`, with what it takes from its surroundings. -/
structure CaptureCall where
  context : ShadowContext
  fenceActive : Bool := true
  fenceAtCommit : Bool := true
  asOf : String
  candidates : List MissedCandidate
  quotes : Fields
  horizonsMinutes : List JsNumber

/-- The horizons of a call: its positive integers, each once and in order. -/
def CaptureCall.horizons (call : CaptureCall) : List ℤ :=
  (((call.horizonsMinutes.filterMap JsNumber.value).filter fun x ↦ x.den = 1 ∧ 0 < x).map
    Rat.num).dedup.insertionSort (· ≤ ·)

/-- `ZeroDteOutcomeResult`. -/
structure OutcomeResult where
  outcomes : List ForwardOutcomeRow
  incomplete : List ForwardOutcomeRow
  closedShadowTrades : List ShadowTradeRow

/-- `isAfterSessionClose`.  At midnight the formatted hour is 24. -/
def isAfterSessionClose (timestamp : Time) : Bool :=
  let minutes := (newYorkParts timestamp).minutes
  16 ≤ if minutes / 60 = 0 then 24 else minutes / 60

/-- The transaction of `captureZeroDteOutcomes`. -/
def captureOutcomes [Hashing] (call : CaptureCall) (asOf : Time) (db : OutcomeDb) :
    Except Error (List ForwardOutcomeRow × Table ForwardOutcomeRow) := do
  check call.fenceActive (.message "PostgreSQL scheduler fence is no longer active.")
  let state ← call.candidates.foldlM (captureCandidate call.context.assumptions
    db.shadow.candidateIds asOf call.quotes call.horizons) ([], db.outcomes)
  check call.fenceAtCommit (.message "PostgreSQL scheduler fence is no longer active.")
  return state

/-- `captureZeroDteOutcomes`: what is returned or thrown, and what is stored.  The outcomes are
committed before the shadow trades are marked. -/
def captureZeroDteOutcomes [Hashing] (call : CaptureCall) (db : OutcomeDb) :
    Except Error OutcomeResult × OutcomeDb :=
  match Runtime.dateParse call.asOf with
  | none =>
    (.error (.message "0DTE outcome evaluation timestamp must be a valid timestamp"), db)
  | some asOf =>
    match captureOutcomes call asOf db with
    | .error e => (.error e, db)
    | .ok (outcomes, table) =>
      let db := { db with outcomes := table }
      let incomplete := outcomes.filter fun r ↦ r.completenessStatus = .incomplete
      if isAfterSessionClose asOf then
        match markZeroDteShadowTrades call.context db.shadow call.asOf call.quotes with
        | .error e => (.error e, db)
        | .ok (marks, shadow) =>
          (.ok { outcomes, incomplete, closedShadowTrades := marks.closed }, { db with shadow })
      else (.ok { outcomes, incomplete, closedShadowTrades := [] }, db)

/-! ## Complete outcomes -/

/-- A quote may complete the outcome of a candidate at a horizon: the run comes no earlier than the
horizon, the quote is the one that is found for the symbol and it is valid, and if it has a time,
that is between the horizon and the run. -/
structure Causal (assumptions : ShadowAssumptions) (candidate : MissedCandidate)
    (horizonMinutes : ℤ) (asOf : Time) (quotes quote : Fields) : Prop where
  used : resolveHorizonQuote candidate.optionSymbol horizonMinutes quotes = some quote
  ofSymbol : QuoteOf candidate.optionSymbol horizonMinutes quotes quote
  reached : referenceTimestamp candidate asOf + horizonMinutes * 60000 ≤ asOf
  valid : (normalizeZeroDteShadowQuote assumptions (.object quote)
    ((outcomeQuoteTimestamp (some quote)).getD
      (referenceTimestamp candidate asOf + horizonMinutes * 60000))).status = .valid
  timely : ∀ t, outcomeQuoteTimestamp (some quote) = some t →
    referenceTimestamp candidate asOf + horizonMinutes * 60000 ≤ t ∧ t ≤ asOf

/-- The row is complete. -/
def ForwardOutcomeRow.IsComplete (row : ForwardOutcomeRow) : Prop :=
  row.completenessStatus = .complete

/-- A call, made as of an instant, is what completed the row. -/
def CompletedBy (call : CaptureCall) (asOf : Time) (row : ForwardOutcomeRow) : Prop :=
  ∃ candidate ∈ call.candidates, ∃ quote,
    row.candidateId = Text.trim candidate.candidateId ∧ row.evaluatedAt = asOf ∧
      row.horizonMinutes ∈ call.horizons ∧
      Causal call.context.assumptions candidate row.horizonMinutes asOf call.quotes quote

/-- The columns of a row that never change. -/
def ForwardOutcomeRow.identity (row : ForwardOutcomeRow) :
    String × String × String × String × ℤ × Time :=
  (row.outcomeId, row.candidateId, row.tradingDate, row.outcomeType, row.horizonMinutes,
    row.createdAt)

omit [Runtime] [Conversion] in
theorem some_ite_eq_none {c : Prop} [Decidable c] {reason : String} {rest : Option String} :
    (if c then some reason else rest) = none ↔ ¬ c ∧ rest = none := by
  by_cases hc : c
  · rw [if_pos hc]
    exact ⟨nofun, fun h ↦ absurd hc h.1⟩
  · rw [if_neg hc]
    exact ⟨fun h ↦ ⟨hc, h⟩, And.right⟩

omit [Runtime] [Conversion] in
theorem not_any_iff {time : Option Time} {late : Time → Prop} [DecidablePred late] :
    ¬ time.any (fun t ↦ decide (late t)) ↔ ∀ t, time = some t → ¬ late t := by
  rcases time with - | t
  · exact iff_of_true Bool.false_ne_true fun t ht ↦ nomatch ht
  · rw [Option.any_some, decide_eq_true_iff]
    exact ⟨fun h _ heq ↦ Option.some_inj.1 heq ▸ h, fun h ↦ h t rfl⟩

omit [Runtime] [Conversion] in
/-- When an outcome is complete. -/
theorem incompleteReason_eq_none {normalized : NormalizedShadowQuote}
    {sourceTimestamp : Option Time} {evaluatedAt targetAt : Time} {entry : EntryPremium} :
    incompleteReason normalized sourceTimestamp evaluatedAt targetAt entry = none ↔
      targetAt ≤ evaluatedAt ∧
        (∀ t, sourceTimestamp = some t → targetAt ≤ t ∧ t ≤ evaluatedAt) ∧
        entry.premium ≠ none ∧ normalized.status = .valid ∧ normalized.bid ≠ none := by
  rw [incompleteReason]
  -- The checks in their order.
  rw [some_ite_eq_none, some_ite_eq_none, some_ite_eq_none, some_ite_eq_none, some_ite_eq_none,
    not_any_iff, not_any_iff, not_or, not_not, not_lt]
  constructor
  · rintro ⟨hreached, hbefore, hafter, hentry, ⟨hvalid, hbid⟩, -⟩
    exact ⟨hreached, fun t ht ↦ ⟨not_lt.1 (hbefore t ht), not_lt.1 (hafter t ht)⟩, hentry, hvalid,
      hbid⟩
  · rintro ⟨hreached, htimes, hentry, hvalid, hbid⟩
    exact ⟨hreached, fun t ht ↦ not_lt.2 (htimes t ht).1, fun t ht ↦ not_lt.2 (htimes t ht).2,
      hentry, ⟨hvalid, hbid⟩, rfl⟩

/-- A row is complete when no reason says why not. -/
theorem isComplete_iff [Hashing] {assumptions : ShadowAssumptions} {candidate : MissedCandidate}
    {candidateId tradingDate optionSymbol : String} {horizonMinutes : ℤ}
    {evaluatedAt targetAt : Time} {quote : Option Fields} {entry : EntryPremium} :
    (outcomeRow assumptions candidate candidateId tradingDate optionSymbol horizonMinutes
        evaluatedAt targetAt quote entry).IsComplete ↔
      incompleteReason (normalizeZeroDteShadowQuote assumptions (quoteValue quote)
        ((outcomeQuoteTimestamp quote).getD targetAt)) (outcomeQuoteTimestamp quote) evaluatedAt
        targetAt entry = none := by
  rw [ForwardOutcomeRow.IsComplete, outcomeRow]
  dsimp only
  split
  · next hnone => exact iff_of_true rfl hnone
  · next hreason => exact iff_of_false nofun hreason

/-- **A complete outcome has a causal quote.** -/
theorem causal_of_complete [Hashing] {assumptions : ShadowAssumptions}
    {candidate : MissedCandidate} {candidateId tradingDate optionSymbol : String}
    {horizonMinutes : ℤ} {asOf : Time} {quotes : Fields} {entry : EntryPremium}
    (h : (outcomeRow assumptions candidate candidateId tradingDate optionSymbol horizonMinutes asOf
      (referenceTimestamp candidate asOf + horizonMinutes * 60000)
      (resolveHorizonQuote candidate.optionSymbol horizonMinutes quotes) entry).IsComplete) :
    ∃ quote, Causal assumptions candidate horizonMinutes asOf quotes quote := by
  obtain ⟨hreached, htimely, -, hvalid, -⟩ := incompleteReason_eq_none.1 (isComplete_iff.1 h)
  rcases hquote : resolveHorizonQuote candidate.optionSymbol horizonMinutes quotes with - | quote
  · rw [hquote] at hvalid
    cases hvalid
  · rw [hquote] at hvalid htimely
    exact ⟨quote, hquote, quoteOf_of_resolve hquote, hreached, hvalid, htimely⟩

/-! ## Effects -/

section Effects

variable [Hashing] {keys : Set (String × ℤ)} {cause : ForwardOutcomeRow → Prop}

/-- The rows have the identifiers of their candidates and horizons, which are among some keys. -/
def OutcomeKeys (keys : Set (String × ℤ)) (outcomes : Table ForwardOutcomeRow) : Prop :=
  ∀ r ∈ outcomes.rows, r.outcomeType = missedOpportunity ∧
    r.outcomeId = outcomeId r.candidateId r.horizonMinutes ∧
    (r.candidateId, r.horizonMinutes) ∈ keys

omit [Runtime] [Conversion] in
/-- With the identifiers of their keys, no two rows are of one candidate and one horizon. -/
theorem OutcomeKeys.unique {outcomes : Table ForwardOutcomeRow} (h : OutcomeKeys keys outcomes)
    {r r' : ForwardOutcomeRow} (hr : r ∈ outcomes.rows) (hr' : r' ∈ outcomes.rows)
    (hcandidate : r.candidateId = r'.candidateId)
    (hhorizon : r.horizonMinutes = r'.horizonMinutes) : r = r' := by
  refine outcomes.eq_of_key hr hr' ?_
  change r.outcomeId = r'.outcomeId
  rw [(h r hr).2.1, (h r' hr').2.1, hcandidate, hhorizon]

omit [Runtime] [Conversion] in
/-- **The statements of an outcome make rows final.** -/
theorem storeOutcome_finalizes
    (hkeys : Set.InjOn (fun k : String × ℤ ↦ outcomeId k.1 k.2) keys)
    {outcomes outcomes' : Table ForwardOutcomeRow} {row : ForwardOutcomeRow}
    (hbooks : OutcomeKeys keys outcomes) (htype : row.outcomeType = missedOpportunity)
    (hid : row.outcomeId = outcomeId row.candidateId row.horizonMinutes)
    (hkey : (row.candidateId, row.horizonMinutes) ∈ keys)
    (hcause : row.IsComplete → ∀ r : ForwardOutcomeRow, r.candidateId = row.candidateId →
      r.horizonMinutes = row.horizonMinutes → r.evaluatedAt = row.evaluatedAt → cause r)
    (h : storeOutcome outcomes row = .ok outcomes') :
    OutcomeKeys keys outcomes' ∧ Finalizes ForwardOutcomeRow.identity ForwardOutcomeRow.IsComplete
      cause outcomes.rows outcomes'.rows := by
  rw [storeOutcome] at h
  split at h
  · -- The first outcome of the candidate at the horizon.
    split at h
    · cases h
    · next hinsert =>
      obtain rfl := Except.ok.inj h
      refine ⟨Table.forall_insert? hinsert hbooks ⟨htype, hid, hkey⟩, ?_⟩
      rw [Table.rows_of_insert? hinsert]
      exact Finalizes.append fun hfinal ↦ hcause hfinal row rfl rfl rfl
  · next stored hstored =>
    split at h
    · next hcompletes =>
      obtain rfl := Except.ok.inj h
      have hsame : ∀ r ∈ outcomes.rows, r.outcomeId = row.outcomeId →
          r = stored ∧ r.candidateId = row.candidateId ∧
            r.horizonMinutes = row.horizonMinutes := by
        intro r hr hrow
        obtain ⟨-, hrid, hrkey⟩ := hbooks r hr
        have hpair := hkeys hrkey hkey (hrid.symm.trans (hrow.trans hid))
        exact ⟨outcomes.eq_of_key hr (Table.mem_of_get? hstored)
          (hrow.trans (Table.key_of_get? hstored).symm), Prod.mk.inj hpair⟩
      refine ⟨fun r hr ↦ ?_, Finalizes.map (fun _ _ _ ↦ rfl) (fun r hr hchosen ↦ ?_)
        (fun _ _ _ ↦ hcompletes.2) (fun r hr hchosen ↦ ?_)⟩
      · obtain ⟨x, hx, rfl⟩ := Table.mem_modify.1 hr
        by_cases hxid : Row.key x = row.outcomeId
        · rw [if_pos hxid]
          exact hbooks x hx
        · rw [if_neg hxid]
          exact hbooks x hx
      · rw [(hsame r hr (of_decide_eq_true hchosen)).1]
        exact hcompletes.1
      · obtain ⟨-, hcandidate, hhorizon⟩ := hsame r hr (of_decide_eq_true hchosen)
        exact hcause hcompletes.2 _ hcandidate hhorizon rfl
    · obtain rfl := Except.ok.inj h
      exact ⟨hbooks, Finalizes.refl _⟩

omit [Runtime] [Conversion] [Hashing] in
theorem trim_of_requiredOutcomeText {value field text : String}
    (h : requiredOutcomeText value field = .ok text) : text = Text.trim value := by
  rw [requiredOutcomeText] at h
  split at h
  · cases h
  · exact (Except.ok.inj h).symm

variable {call : CaptureCall} {asOf : Time} {candidateIds : List String}

/-- The keys of a call. -/
def CaptureCall.Keyed (keys : Set (String × ℤ)) (call : CaptureCall) : Prop :=
  ∀ candidate ∈ call.candidates, ∀ h ∈ call.horizons, (Text.trim candidate.candidateId, h) ∈ keys

/-- **One horizon of a candidate makes rows final.** -/
theorem captureHorizon_finalizes
    (hkeys : Set.InjOn (fun k : String × ℤ ↦ outcomeId k.1 k.2) keys) (hkeyed : call.Keyed keys)
    {candidate : MissedCandidate} (hcandidate : candidate ∈ call.candidates)
    {entry : EntryPremium} {horizonMinutes : ℤ} (hhorizon : horizonMinutes ∈ call.horizons)
    {state state' : List ForwardOutcomeRow × Table ForwardOutcomeRow}
    (hbooks : OutcomeKeys keys state.2)
    (h : captureHorizon call.context.assumptions candidateIds asOf call.quotes candidate
      (referenceTimestamp candidate asOf) entry state horizonMinutes = .ok state') :
    OutcomeKeys keys state'.2 ∧ Finalizes ForwardOutcomeRow.identity ForwardOutcomeRow.IsComplete
      (CompletedBy call asOf) state.2.rows state'.2.rows := by
  obtain ⟨_, _, h⟩ := bind_eq_ok.1 h
  obtain ⟨⟨row, outcomes⟩, hwrite, h⟩ := bind_eq_ok.1 h
  obtain rfl := Except.ok.inj h
  obtain ⟨candidateId, hid, hwrite⟩ := bind_eq_ok.1 hwrite
  obtain ⟨tradingDate, _, hwrite⟩ := bind_eq_ok.1 hwrite
  obtain ⟨optionSymbol, _, hwrite⟩ := bind_eq_ok.1 hwrite
  obtain ⟨_, _, hwrite⟩ := bind_eq_ok.1 hwrite
  obtain ⟨outcomes', hstore, hwrite⟩ := bind_eq_ok.1 hwrite
  obtain rfl := trim_of_requiredOutcomeText hid
  have hresult : outcomes' = outcomes := by
    split at hwrite
    · cases hwrite
    · exact (Prod.mk.inj (Except.ok.inj hwrite)).2
  obtain rfl := hresult
  refine storeOutcome_finalizes hkeys hbooks rfl rfl (hkeyed candidate hcandidate _ hhorizon)
    (fun hcomplete r hrcandidate hrhorizon hrtime ↦ ?_) hstore
  obtain ⟨quote, hcausal⟩ := causal_of_complete hcomplete
  obtain rfl : r.horizonMinutes = horizonMinutes := hrhorizon
  exact ⟨candidate, hcandidate, quote, hrcandidate, hrtime, hhorizon, hcausal⟩

/-- **The transaction makes rows final**, candidate by candidate and horizon by horizon. -/
theorem captureOutcomes_finalizes
    (hkeys : Set.InjOn (fun k : String × ℤ ↦ outcomeId k.1 k.2) keys) (hkeyed : call.Keyed keys)
    {db : OutcomeDb} (hbooks : OutcomeKeys keys db.outcomes)
    {state : List ForwardOutcomeRow × Table ForwardOutcomeRow}
    (h : captureOutcomes call asOf db = .ok state) :
    OutcomeKeys keys state.2 ∧ Finalizes ForwardOutcomeRow.identity ForwardOutcomeRow.IsComplete
      (CompletedBy call asOf) db.outcomes.rows state.2.rows := by
  obtain ⟨_, _, h⟩ := bind_eq_ok.1 h
  obtain ⟨state', hloop, h⟩ := bind_eq_ok.1 h
  obtain ⟨_, _, h⟩ := bind_eq_ok.1 h
  obtain rfl := Except.ok.inj h
  refine Finalizes.foldlM (fun s ↦ s.2.rows) (fun s ↦ OutcomeKeys keys s.2)
    (fun candidate hcandidate s s' hs hround ↦ ?_) hbooks hloop
  exact Finalizes.foldlM (fun s ↦ s.2.rows) (fun s ↦ OutcomeKeys keys s.2)
    (fun _ hhorizon t t' ht hinner ↦
      captureHorizon_finalizes hkeys hkeyed hcandidate hhorizon ht hinner) hs hround

end Effects

/-! ## Runs -/

section Runs

variable [Hashing]

/-- What happens to the store: a call, or anything that leaves the outcomes alone. -/
inductive OutcomeAct where
  | capture (call : CaptureCall)
  | elsewhere (shadow : ShadowDb)

/-- One action.  What a call that throws has committed stays. -/
def outcomeMachine (act : OutcomeAct) (db : OutcomeDb) : Option OutcomeDb :=
  match act with
  | .capture call => some (captureZeroDteOutcomes call db).2
  | .elsewhere shadow => some { db with shadow }

/-- What every action is to do. -/
structure OutcomeLaw (db : OutcomeDb) (act : OutcomeAct) : Prop where
  /-- A candidate has one outcome at most for each horizon. -/
  unique : ∀ db', outcomeMachine act db = some db' → ∀ r ∈ db'.outcomes.rows,
    ∀ r' ∈ db'.outcomes.rows, r.candidateId = r'.candidateId →
      r.horizonMinutes = r'.horizonMinutes → r = r'
  /-- The row of a complete outcome never changes. -/
  final : ∀ db', outcomeMachine act db = some db' → ∀ r ∈ db.outcomes.rows, r.IsComplete →
    r ∈ db'.outcomes.rows
  /-- An incomplete one stays as it is or becomes complete, for the same candidate and horizon. -/
  completes : ∀ db', outcomeMachine act db = some db' → ∀ r ∈ db.outcomes.rows,
    ∃ r' ∈ db'.outcomes.rows, r'.identity = r.identity ∧
      (r' = r ∨ ¬ r.IsComplete ∧ r'.IsComplete)
  /-- An outcome that is complete now was so before, or has a causal quote of this call. -/
  causal : ∀ db', outcomeMachine act db = some db' → ∀ r ∈ db'.outcomes.rows, r.IsComplete →
    r ∈ db.outcomes.rows ∨ ∃ call asOf, act = .capture call ∧
      Runtime.dateParse call.asOf = some asOf ∧ CompletedBy call asOf r

/-- The candidates and horizons of a call come from some keys. -/
def OutcomesKeyed (keys : Set (String × ℤ)) : OutcomeDb → OutcomeAct → Prop
  | _, .capture call => call.Keyed keys
  | _, .elsewhere _ => True

variable {keys : Set (String × ℤ)} {db db' : OutcomeDb} {act : OutcomeAct}

/-- **What an action does to the outcomes.** -/
theorem outcomeMachine_finalizes
    (hkeys : Set.InjOn (fun k : String × ℤ ↦ outcomeId k.1 k.2) keys)
    (hkeyed : OutcomesKeyed keys db act) (hbooks : OutcomeKeys keys db.outcomes)
    (h : outcomeMachine act db = some db') :
    OutcomeKeys keys db'.outcomes ∧
      Finalizes ForwardOutcomeRow.identity ForwardOutcomeRow.IsComplete
        (fun r ↦ ∃ call asOf, act = .capture call ∧ Runtime.dateParse call.asOf = some asOf ∧
          CompletedBy call asOf r) db.outcomes.rows db'.outcomes.rows := by
  rcases act with call | shadow
  · obtain rfl := Option.some_inj.1 h
    rw [captureZeroDteOutcomes]
    split
    · exact ⟨hbooks, Finalizes.refl _⟩
    · next asOf htime =>
      split
      · exact ⟨hbooks, Finalizes.refl _⟩
      · next outcomes table hcapture =>
        obtain ⟨hbooks', hkept, hcaused⟩ := captureOutcomes_finalizes hkeys hkeyed hbooks hcapture
        have hfinalizes : Finalizes ForwardOutcomeRow.identity ForwardOutcomeRow.IsComplete
            (fun r ↦ ∃ call' asOf', OutcomeAct.capture call = .capture call' ∧
              Runtime.dateParse call'.asOf = some asOf' ∧ CompletedBy call' asOf' r)
            db.outcomes.rows table.rows :=
          ⟨hkept, fun r hr hfinal ↦ (hcaused r hr hfinal).imp_right fun hcause ↦
            ⟨call, asOf, rfl, htime, hcause⟩⟩
        -- Marking the shadow trades leaves the outcomes alone.
        dsimp only
        split
        · split
          · exact ⟨hbooks', hfinalizes⟩
          · exact ⟨hbooks', hfinalizes⟩
        · exact ⟨hbooks', hfinalizes⟩
  · obtain rfl := Option.some_inj.1 h
    exact ⟨hbooks, Finalizes.refl _⟩

/-- **Outcomes are final, and complete ones are causal.**  From a store without outcomes, when the
identifiers of the outcomes do not collide, every action does what it is to do. -/
theorem outcomes_final (hkeys : Set.InjOn (fun k : String × ℤ ↦ outcomeId k.1 k.2) keys)
    (hrows : db.outcomes.rows = []) {acts : List OutcomeAct}
    (hkeyed : Guarded outcomeMachine (OutcomesKeyed keys) db acts) :
    Guarded outcomeMachine OutcomeLaw db acts := by
  have hstart : OutcomeKeys keys db.outcomes := by
    intro r hr
    rw [hrows] at hr
    exact absurd hr List.not_mem_nil
  refine hkeyed.of_invariant (I := fun s ↦ OutcomeKeys keys s.outcomes)
    (fun s a s' hbooks hguard hs ↦ (outcomeMachine_finalizes hkeys hguard hbooks hs).1)
    (fun s a hbooks hguard ↦ ?_) hstart
  have hstep := fun {s' : OutcomeDb} (hs : outcomeMachine a s = some s') ↦
    outcomeMachine_finalizes hkeys hguard hbooks hs
  exact
    { unique := fun _ hs _ hr _ hr' ↦ (hstep hs).1.unique hr hr'
      final := fun _ hs _ hr hfinal ↦ (hstep hs).2.stays hr hfinal
      completes := fun _ hs ↦ (hstep hs).2.kept
      causal := fun _ hs ↦ (hstep hs).2.caused }

/-- A stricter law: the quote of an outcome that is complete now has a time. -/
def Timed (db : OutcomeDb) (act : OutcomeAct) : Prop :=
  ∀ db', outcomeMachine act db = some db' → ∀ r ∈ db'.outcomes.rows, r.IsComplete →
    r ∈ db.outcomes.rows ∨ ∃ call, act = .capture call ∧ ∃ candidate ∈ call.candidates,
      ∃ quote t, resolveHorizonQuote candidate.optionSymbol r.horizonMinutes call.quotes =
        some quote ∧ outcomeQuoteTimestamp (some quote) = some t

end Runs

end Capture

namespace Specimen

def missed : MissedCandidate where
  candidateId := "c"
  tradingDate := "2026-07-13"
  optionSymbol := "SPY260713C00500000"
  direction := .bullish
  entryPremium := .number (.finite 1)
  observedAt := .text "2026-07-13T14:30:00.000Z"

def outcomeStore : OutcomeDb where
  shadow := shadowStore

/-- A capture of the half hour after the candidate was seen. -/
def captureAt (asOf : String) (quotes : Fields) : CaptureCall where
  context := shadowContext
  asOf
  candidates := [missed]
  quotes
  horizonsMinutes := [.finite 30, .notFinite, .finite (1 / 2), .finite 30]

theorem horizons_captureAt (asOf : String) (quotes : Fields) :
    (captureAt asOf quotes).horizons = [30] := by
  -- The horizons do not depend on the time and the quotes.
  have hempty : (captureAt "" []).horizons = [30] := by decide +kernel
  exact hempty

/-- A quote of the half hour. -/
def timedQuote : JsValue :=
  .object [("bid", .number (.finite 2)), ("ask", .number (.finite 3)),
    ("quoteTimestamp", .text "2026-07-13T15:00:00.000Z")]

end Specimen

theorem outcomes_final_halfHour :
    let _ := Specimen.clock; let _ := Specimen.conversion; let _ := AlpacaTrading.Specimen.hashing
    Guarded outcomeMachine OutcomeLaw Specimen.outcomeStore
      [.capture (Specimen.captureAt "2026-07-13T14:30:00.000Z" []),
        .capture (Specimen.captureAt "2026-07-13T20:00:00.000Z"
          [("SPY260713C00500000@30", Specimen.timedQuote)])] := by
  intro _ _ _
  have hkeys : Set.InjOn (fun k : String × ℤ ↦ outcomeId k.1 k.2) {("c", 30)} :=
    Set.injOn_singleton _ _
  have hkeyed : ∀ asOf quotes, (Specimen.captureAt asOf quotes).Keyed {("c", 30)} := by
    intro asOf quotes candidate hcandidate h hh
    obtain rfl := List.mem_singleton.1 hcandidate
    rw [Specimen.horizons_captureAt, List.mem_singleton] at hh
    have htrim : Text.trim Specimen.missed.candidateId = "c" := by decide +kernel
    exact Prod.ext htrim hh
  refine outcomes_final hkeys rfl (guarded_of_forall _ fun act hact _ ↦ ?_)
  rcases List.mem_pair.1 hact with rfl | rfl
  · exact hkeyed _ _
  · exact hkeyed _ _

/-- **A complete outcome whose quote has no time.** -/
theorem outcomes_untimed :
    let _ := Specimen.clock; let _ := Specimen.conversion; let _ := AlpacaTrading.Specimen.hashing
    ¬ Guarded outcomeMachine Timed Specimen.outcomeStore
      [.capture (Specimen.captureAt "2026-07-13T20:00:00.000Z"
        [("SPY260713C00500000", Specimen.shadowQuote 2 3)])] := by
  intro _ _ _ htimed
  have hrun : (outcomeMachine (.capture (Specimen.captureAt "2026-07-13T20:00:00.000Z"
      [("SPY260713C00500000", Specimen.shadowQuote 2 3)])) Specimen.outcomeStore).map
        (fun db ↦ db.outcomes.rows.map fun r ↦ (r.horizonMinutes, r.completenessStatus)) =
      some [(30, .complete)] := by decide +kernel
  obtain ⟨db', hdb', hrows⟩ := Option.map_eq_some_iff.1 hrun
  obtain ⟨r, hr, hsummary⟩ := List.map_eq_singleton_iff.1 hrows
  obtain ⟨hhorizon, hcomplete⟩ := Prod.mk.inj hsummary
  rcases htimed.1 db' hdb' r (hr ▸ List.mem_singleton_self r) hcomplete with
    hold | ⟨call, hcall, candidate, hcandidate, quote, t, hquote, htime⟩
  · exact List.not_mem_nil hold
  · obtain rfl := OutcomeAct.capture.inj hcall
    obtain rfl := List.mem_singleton.1 hcandidate
    have hnone : (resolveHorizonQuote Specimen.missed.optionSymbol 30
        (Specimen.captureAt "2026-07-13T20:00:00.000Z"
          [("SPY260713C00500000", Specimen.shadowQuote 2 3)]).quotes).bind
        (fun quote ↦ outcomeQuoteTimestamp (some quote)) = none := by decide +kernel
    rw [hhorizon] at hquote
    rw [hquote, Option.bind_some, htime] at hnone
    cases hnone

end ZeroDte

end AlpacaTrading
