import Mathlib.Data.String.Basic
import AlpacaTrading.Lib.Run
import AlpacaTrading.Market.Option
import AlpacaTrading.ZeroDte.Exit
import AlpacaTrading.ZeroDte.Quote

/-!
# Shadow trades

`createZeroDteShadowTrade` opens a simulated trade for a candidate that was not traded, and
`markZeroDteShadowTrades` values the open ones at the bid, keeps their extremes, and closes them
when the session of their trading date is over.

## Representation

A column that holds the text of a time is modelled by the time, and one that holds the text of a
record by the record.  Both calls are transactions: one that throws changes nothing.
-/

namespace AlpacaTrading

namespace ZeroDte

/-! ## Rows -/

/-- `fillAssumptions` of a shadow trade. -/
structure FillAssumptions where
  simulated : Bool := true
  alternativeType : String
  reasonCode : String
  entryFillMethod : String := "ask_plus_slippage"
  exitFillMethod : String := "bid_minus_slippage"
  slippagePerContract : ℚ
  feePerContract : ℚ
  contractMultiplier : ℤ := 100
  entryNotional : ℚ
  exitQuoteStatus : Option QuoteStatus := none
  exitReasonCode : Option String := none
  exitQuote : Option NormalizedShadowQuote := none
deriving DecidableEq

/-- The values of `zero_dte_shadow_trades.status`. -/
inductive ShadowStatus where
  | intended | opened | closed
deriving DecidableEq, Repr

/-- A row of `zero_dte_shadow_trades`. -/
structure ShadowTradeRow where
  shadowTradeId : String
  decisionGroupId : String
  decisionId : Option String
  candidateId : String
  tradingDate : String
  underlyingSymbol : String
  optionSymbol : String
  playbook : Playbook
  direction : Direction
  alternativeType : String
  status : ShadowStatus
  quantity : ℤ
  entryPremium : Option ℚ
  exitPremium : Option ℚ := none
  fees : ℚ
  slippage : ℚ
  mfe : Option ℚ := none
  mae : Option ℚ := none
  realizedPnl : Option ℚ := none
  returnPct : Option ℚ := none
  terminalState : Option String := none
  fillAssumptions : FillAssumptions
  entryQuote : JsValue
  exitQuote : Option JsValue := none
  exitReasonCode : Option String := none
  openedAt : Time
  closedAt : Option Time := none
  createdAt : Time
  updatedAt : Time

instance : Row ShadowTradeRow String where
  key := (·.shadowTradeId)
  clash a b := a.shadowTradeId = b.shadowTradeId
  dec _ _ := inferInstanceAs (Decidable (_ = _))
  symm h := h.symm
  clash_of_key h := h

/-- `evidence` of a mark. -/
structure MarkEvidence where
  simulated : Bool := true
  quoteStatus : QuoteStatus
  reasonCode : Option String
  markMethod : String := "bid_minus_slippage"
  slippagePerContract : ℚ
deriving DecidableEq

/-- A row of `zero_dte_position_marks` that concerns a shadow trade. -/
structure ShadowMarkRow where
  markId : String
  shadowTradeId : String
  markedAt : Time
  marketTimestamp : Option Time
  markPrice : Option ℚ
  bid : Option ℚ
  ask : Option ℚ
  midpoint : Option ℚ
  quoteQuality : QuoteStatus
  quantity : ℤ
  unrealizedPnl : Option ℚ
  returnPct : Option ℚ
  mfe : Option ℚ
  mae : Option ℚ
  source : String := "zero_dte_shadow"
  evidence : MarkEvidence
  createdAt : Time
deriving DecidableEq

instance : Row ShadowMarkRow String where
  key := (·.markId)
  clash a b := a.markId = b.markId
  dec _ _ := inferInstanceAs (Decidable (_ = _))
  symm h := h.symm
  clash_of_key h := h

/-- `details` of the events of a shadow trade. -/
inductive ShadowDetails where
  | opened (entryPremium : Option ℚ) (quantity : ℤ) (fees slippage : ℚ) (alternativeType : String)
  | marked (markPrice unrealizedPnl returnPct mfe mae : Option ℚ)
  | closed (terminalState : String) (exitPremium realizedPnl returnPct : Option ℚ)
      (quoteStatus : QuoteStatus)
deriving DecidableEq

/-- A row of `zero_dte_lifecycle_events` that concerns a shadow trade. -/
structure ShadowEventRow where
  eventId : String
  eventType : EventType
  reasonCode : Option String
  engineRunId : String
  candidateId : String
  shadowTradeId : String
  accountMode : String := "shadow"
  strategyVersion : String
  configurationVersionId : String
  marketTimestamp : Time
  occurredAt : Time
  details : ShadowDetails
  createdAt : Time

instance : Row ShadowEventRow String where
  key := (·.eventId)
  clash a b := a.eventId = b.eventId
  dec _ _ := inferInstanceAs (Decidable (_ = _))
  symm h := h.symm
  clash_of_key h := h

/-- The columns of `zero_dte_engine_runs` that events are filled from. -/
structure EngineRunRow where
  runId : String
  tradingDate : String
  startedAt : Time
  strategyVersion : String
  configurationVersionId : String
deriving DecidableEq

/-- The columns of `zero_dte_decisions` that shadow trades and their events read. -/
structure ShadowDecisionRow where
  decisionId : String
  candidateId : String
  decisionGroupId : String
  decidedAt : Time
deriving DecidableEq

/-- The rows the shadow trades read and write. -/
structure ShadowDb where
  engineRuns : List EngineRunRow := []
  configurationVersions : List String := []
  candidateIds : List String := []
  decisions : List ShadowDecisionRow := []
  trades : Table ShadowTradeRow := .empty
  marks : Table ShadowMarkRow := .empty
  events : Table ShadowEventRow := .empty

/-! ## Events -/

/-- `requiredText` of the shadow service. -/
def requiredShadowText (value field : String) : Except Error String :=
  if Text.trim value = "" then .error (.message ("0DTE shadow " ++ field ++ " is required"))
  else .ok (Text.trim value)

/-- `isoTimestamp` of the shadow service. -/
def shadowTimestamp [Runtime] (value field : String) : Except Error Time :=
  match Runtime.dateParse value with
  | none => .error (.message ("0DTE shadow " ++ field ++ " must be a valid timestamp"))
  | some t => .ok t

/-- `lifecycleMetadata`: the last run of a trading date. -/
def lifecycleMetadata (db : ShadowDb) (tradingDate : String) : Option EngineRunRow :=
  firstBy (fun a b ↦ b.startedAt < a.startedAt ∨ a.startedAt = b.startedAt ∧ b.runId < a.runId)
    (db.engineRuns.filter fun r ↦ r.tradingDate = tradingDate)

section Service

variable [Hashing] [Runtime] [Conversion]

/-- `buildEventId`. -/
def shadowEventId (shadowTradeId : String) (eventType : EventType) (occurredAt : Time) : String :=
  "zlev_" ++ String.ofList ((Hashing.canonicalJsonHash
    [("shadowTradeId", shadowTradeId), ("eventType", eventType.text),
      ("occurredAt", Hashing.toISOString occurredAt)]).toList.take 40)

/-- `insertZeroDteLifecycleEventRow` and `assertLifecycleLinkage`, for an event of a shadow
trade. -/
def insertShadowEventRow (db : ShadowDb) (fenceActive : Bool) (event : ShadowEventRow) :
    Except Error ShadowDb := do
  check fenceActive (.message "PostgreSQL scheduler fence is no longer active.")
  let eventId ← requiredText event.eventId "event ID"
  let strategyVersion ← requiredText event.strategyVersion "strategy version"
  let configurationVersionId ←
    requiredText event.configurationVersionId "configuration version ID"
  check (db.candidateIds.contains event.candidateId)
    (.message "ZERO_DTE_LIFECYCLE_CANDIDATE_NOT_FOUND")
  let trade := db.trades.get? event.shadowTradeId
  check trade.isSome (.message "ZERO_DTE_LIFECYCLE_SHADOW_TRADE_NOT_FOUND")
  check (agrees (trade.map (·.candidateId)) (some event.candidateId))
    (.message "ZERO_DTE_LIFECYCLE_TRADE_CANDIDATE_MISMATCH")
  let decision := (trade.bind (·.decisionId)).bind fun decisionId ↦
    db.decisions.find? fun d ↦ d.decisionId = decisionId
  check (agrees (decision.map (·.candidateId)) (trade.map (·.candidateId)))
    (.message "ZERO_DTE_LIFECYCLE_TRADE_DECISION_CANDIDATE_MISMATCH")
  check (agrees (decision.map (·.decisionGroupId)) (trade.map (·.decisionGroupId)))
    (.message "ZERO_DTE_LIFECYCLE_SHADOW_TRADE_DECISION_GROUP_MISMATCH")
  check (db.engineRuns.any fun r ↦ r.runId = event.engineRunId)
    (.message "ZERO_DTE_LIFECYCLE_ENGINE_RUN_NOT_FOUND")
  check (db.configurationVersions.contains configurationVersionId)
    (.message "FOREIGN KEY constraint failed")
  match db.events.insert?
    { event with eventId, strategyVersion, configurationVersionId,
                 reasonCode := optionalText event.reasonCode } with
  | none => .error (.message "UNIQUE constraint failed: zero_dte_lifecycle_events.event_id")
  | some events => return { db with events }

/-- `appendShadowLifecycleEvent`. -/
def appendShadowLifecycleEvent (db : ShadowDb) (fenceActive : Bool) (trade : ShadowTradeRow)
    (eventType : EventType) (reasonCode : String) (occurredAt : Time) (details : ShadowDetails) :
    Except Error ShadowDb :=
  match lifecycleMetadata db trade.tradingDate with
  | none => .ok db
  | some metadata =>
    let eventId := shadowEventId trade.shadowTradeId eventType occurredAt
    if (db.events.get? eventId).isSome then .ok db
    else insertShadowEventRow db fenceActive
      { eventId, eventType, reasonCode := some reasonCode, engineRunId := metadata.runId,
        candidateId := trade.candidateId, shadowTradeId := trade.shadowTradeId,
        strategyVersion := metadata.strategyVersion,
        configurationVersionId := metadata.configurationVersionId,
        marketTimestamp := occurredAt, occurredAt, details, createdAt := occurredAt }

/-! ## Opening -/

/-- What a call takes from its surroundings: the configuration, and whether the fence of the
scheduler is active during the call and at its commit. -/
structure ShadowContext where
  assumptions : ShadowAssumptions
  fenceActive : Bool := true
  fenceAtCommit : Bool := true

/-- The fields of a queue candidate that `createZeroDteShadowTrade` reads. -/
structure ShadowCandidate where
  candidateId : String
  tradingDate : String
  underlyingSymbol : String
  optionSymbol : String
  playbook : Playbook
  direction : Direction
  state : CandidateState
  eligible : Bool
  blockers : JsValue := .undefined
  blockerCodes : JsValue := .undefined
  quantity : JsValue := .undefined
  quote : JsValue := .undefined
  quoteBid : JsValue := .undefined
  quoteAsk : JsValue := .undefined
  quoteMidpoint : JsValue := .undefined
  marketTimestamp : JsValue := .undefined

/-- The argument of `createZeroDteShadowTrade`. -/
structure ShadowInput where
  candidate : ShadowCandidate
  decisionGroupId : String
  reasonCode : String
  asOf : String

/-- `SHADOWABLE_STATES`. -/
def shadowableStates : List CandidateState := [.eligible, .selected, .skipped, .rejected, .shadowed]

/-- `HARD_SHADOW_BLOCKERS`. -/
def hardShadowBlockers : List String :=
  ["BELOW_SCORE_THRESHOLD", "CROSSED_QUOTE", "INVALID_QUOTE", "LOW_OPEN_INTEREST", "LOW_VOLUME",
    "MISSING_GREEKS", "MISSING_QUOTE", "QUOTE_MISSING", "STALE_QUOTE", "WIDE_SPREAD"]

/-- `stringArray`. -/
def stringArray : JsValue → List String
  | .array elements => elements.filterMap JsValue.text?
  | _ => []

/-- `candidateBlockers`. -/
def candidateBlockers (candidate : ShadowCandidate) : List String :=
  (stringArray (candidate.blockers.orElse candidate.blockerCodes)).map fun code ↦
    Text.toUpperCase (Text.trim code)

/-- `shadowAlternativeType`. -/
def shadowAlternativeType (reasonCode : String) : String :=
  let reason := (Text.toUpperCase reasonCode).toList
  if "RUNNER".toList <:+: reason ∨ "HIGHER_RANK".toList <:+: reason then "simulated_runner_up"
  else if "BUYING_POWER".toList <:+: reason then "simulated_buying_power"
  else if "CAPACITY".toList <:+: reason ∨ "MAX_OPEN".toList <:+: reason then "simulated_capacity"
  else if "PLAYBOOK".toList <:+: reason then "simulated_alternative_playbook"
  else "simulated"

/-- `numericOrNull`. -/
def numericOrNull : JsValue → JsValue
  | .number n => .number n
  | .text s => .text s
  | .null => .null
  | _ => .undefined

/-- `timestamp`, of a candidate's quote. -/
def textOrNull : JsValue → JsValue
  | .text s => .text s
  | .null => .null
  | _ => .undefined

/-- `quoteFromCandidate`. -/
def quoteFromCandidate (candidate : ShadowCandidate) : JsValue :=
  let nested := asRecord candidate.quote
  .object <|
    [("bid", numericOrNull ((nested.get "bid").orElse candidate.quoteBid)),
      ("ask", numericOrNull ((nested.get "ask").orElse candidate.quoteAsk)),
      ("midpoint", numericOrNull ((nested.get "midpoint").orElse candidate.quoteMidpoint)),
      ("quoteTimestamp", textOrNull (((nested.get "quoteTimestamp").orElse
        (nested.get "marketTimestamp")).orElse candidate.marketTimestamp))] ++ nested

/-- The quantity of a candidate: a positive integer, else one. -/
def shadowQuantity (quantity : JsValue) : ℤ :=
  match finiteNumber quantity with
  | some q => if q.den = 1 ∧ 0 < q then q.num else 1
  | none => 1

/-- `buildShadowTradeId`. -/
def shadowTradeId (candidateId decisionGroupId : String) : String :=
  "zsh_" ++ String.ofList ((Hashing.canonicalJsonHash
    [("candidateId", candidateId), ("decisionGroupId", decisionGroupId)]).toList.take 40)

/-- The last decision about a candidate. -/
def lastDecision (db : ShadowDb) (candidateId : String) : Option String :=
  (firstBy (fun a b ↦
      b.decidedAt < a.decidedAt ∨ a.decidedAt = b.decidedAt ∧ b.decisionId < a.decisionId)
    (db.decisions.filter fun d ↦ d.candidateId = candidateId)).map (·.decisionId)

/-- The transaction of `createZeroDteShadowTrade`, for the row it is about to insert. -/
def openShadowTrade (context : ShadowContext) (db : ShadowDb) (trade : ShadowTradeRow)
    (reasonCode : String) : Except Error (ShadowTradeRow × ShadowDb) := do
  check context.fenceActive (.message "PostgreSQL scheduler fence is no longer active.")
  match db.trades.get? trade.shadowTradeId with
  | some existing =>
    check context.fenceAtCommit (.message "PostgreSQL scheduler fence is no longer active.")
    return (existing, db)
  | none =>
    let row := { trade with decisionId := lastDecision db trade.candidateId }
    check (db.candidateIds.contains trade.candidateId) (.message "FOREIGN KEY constraint failed")
    match db.trades.insert? row with
    | none => .error (.message "UNIQUE constraint failed: zero_dte_shadow_trades.shadow_trade_id")
    | some trades =>
      let db ← appendShadowLifecycleEvent { db with trades } context.fenceActive row .shadowOpened
        reasonCode row.openedAt
        (.opened row.entryPremium row.quantity row.fees row.slippage row.alternativeType)
      check context.fenceAtCommit (.message "PostgreSQL scheduler fence is no longer active.")
      return (row, db)

/-- `createZeroDteShadowTrade`. -/
def createZeroDteShadowTrade (context : ShadowContext) (db : ShadowDb) (input : ShadowInput) :
    Except Error (Option ShadowTradeRow × ShadowDb) := do
  let decisionGroupId ← requiredShadowText input.decisionGroupId "decision group ID"
  let reasonCode ← requiredShadowText input.reasonCode "reason code"
  let asOf ← shadowTimestamp input.asOf "timestamp"
  let candidate := input.candidate
  if !candidate.eligible || !shadowableStates.contains candidate.state ||
      candidate.direction = .neutral ||
      (candidateBlockers candidate).any hardShadowBlockers.contains then
    return (none, db)
  else
    let optionSymbol ← requiredShadowText candidate.optionSymbol "option symbol"
    let quote := quoteFromCandidate candidate
    let normalized := normalizeZeroDteShadowQuote context.assumptions quote asOf
    match parseOptionSymbol optionSymbol, normalized.status, normalized.ask with
    | some _, .valid, some ask =>
      let tradingDate ← requiredShadowText candidate.tradingDate "trading date"
      let candidateId ← requiredShadowText candidate.candidateId "candidate ID"
      let underlyingSymbol ← requiredShadowText candidate.underlyingSymbol "underlying symbol"
      let quantity := shadowQuantity candidate.quantity
      let slippage := context.assumptions.slippage
      let entryPremium := roundMoney (ask + slippage)
      let (trade, db) ← openShadowTrade context db
        { shadowTradeId := shadowTradeId candidateId decisionGroupId
          decisionGroupId, decisionId := none, candidateId, tradingDate, underlyingSymbol
          optionSymbol, playbook := candidate.playbook, direction := candidate.direction
          alternativeType := shadowAlternativeType reasonCode
          status := .opened
          quantity
          entryPremium := some entryPremium
          fees := roundMoney (context.assumptions.feePerContract * quantity)
          slippage
          fillAssumptions :=
            { alternativeType := shadowAlternativeType reasonCode
              reasonCode
              slippagePerContract := slippage
              feePerContract := context.assumptions.feePerContract
              entryNotional := entryPremium * 100 * quantity }
          entryQuote := quote
          openedAt := asOf, createdAt := asOf, updatedAt := asOf } reasonCode
      return (some trade, db)
    | _, _, _ => return (none, db)

/-! ## Marking -/

/-- `isSessionEnd`.  At midnight the formatted hour is 24. -/
def isSessionEnd (timestamp : Time) (tradingDate : String) : Bool :=
  let minutes := (newYorkParts timestamp).minutes
  let hour := if minutes / 60 = 0 then 24 else minutes / 60
  let minute := minutes % 60
  newYorkTradingDate timestamp = tradingDate && (16 < hour || hour = 16 && 0 ≤ minute)

/-- `calculatePnl`. -/
def calculatePnl (entryPremium exitPremium : Option ℚ) (quantity : ℤ) (fees : ℚ) : Option ℚ :=
  match entryPremium, exitPremium with
  | some entry, some exit => some (roundMoney ((exit - entry) * 100 * quantity - fees))
  | _, _ => none

/-- `calculateReturnPct`. -/
def calculateReturnPct (entryPremium exitPremium : Option ℚ) : Option ℚ :=
  match entryPremium, exitPremium with
  | some entry, some exit => if entry ≤ 0 then none else some ((exit - entry) / entry * 100)
  | _, _ => none

/-- The price at which a quote values a trade. -/
def shadowPrice (normalized : NormalizedShadowQuote) (trade : ShadowTradeRow) : Option ℚ :=
  if normalized.status = .valid then
    some (roundMoney (max 0 (normalized.bid.getD 0 - trade.slippage)))
  else none

/-- The columns `closeTrade` sets. -/
def ShadowTradeRow.close (context : ShadowContext) (trade : ShadowTradeRow) (asOf : Time)
    (quote : JsValue) (reasonCode : String) : ShadowTradeRow :=
  let normalized := normalizeZeroDteShadowQuote context.assumptions quote asOf
  let exitPremium := shadowPrice normalized trade
  let totalFees := roundMoney (trade.fees + context.assumptions.feePerContract * trade.quantity)
  { trade with
    status := .closed
    exitPremium
    fees := totalFees
    realizedPnl := calculatePnl trade.entryPremium exitPremium trade.quantity totalFees
    returnPct := calculateReturnPct trade.entryPremium exitPremium
    terminalState := some (if normalized.status = .valid then "closed" else "closed_incomplete")
    fillAssumptions :=
      { trade.fillAssumptions with
        exitFillMethod := "bid_minus_slippage"
        exitQuoteStatus := some normalized.status
        exitReasonCode := some reasonCode
        exitQuote := some normalized }
    exitQuote := some (quote.orElse (.object []))
    exitReasonCode := some reasonCode
    closedAt := some asOf
    updatedAt := asOf }

/-- `closeTrade`. -/
def closeShadowTrade (context : ShadowContext) (db : ShadowDb) (trade : ShadowTradeRow)
    (asOf : Time) (quote : JsValue) (reasonCode : String) :
    Except Error (ShadowTradeRow × ShadowDb) :=
  if trade.status = .closed then .ok (trade, db)
  else do
    let normalized := normalizeZeroDteShadowQuote context.assumptions quote asOf
    let updated := trade.close context asOf quote reasonCode
    let trades := db.trades.modify trade.shadowTradeId fun t ↦
      { updated with shadowTradeId := t.shadowTradeId }
    let db ← appendShadowLifecycleEvent { db with trades } context.fenceActive updated
      .shadowClosed reasonCode asOf
      (.closed (updated.terminalState.getD "") updated.exitPremium updated.realizedPnl
        updated.returnPct normalized.status)
    return (updated, db)

/-- The identifier of a mark. -/
def shadowMarkId (shadowTradeId : String) (asOf : Time) : String :=
  "zmark_" ++ String.ofList ((Hashing.canonicalJsonHash
    [("shadowTradeId", shadowTradeId), ("asOf", Hashing.toISOString asOf)]).toList.take 40)

/-- `finiteNumber(row.mfe)`: the column of a row, where `NULL` reads as zero. -/
def columnNumber (column : Option ℚ) : Option ℚ :=
  finiteNumber (match column with
    | none => .null
    | some x => .number (.finite x))

/-- The unrealized profit of a trade at a quote. -/
def unrealizedPnl (context : ShadowContext) (quote : JsValue) (asOf : Time)
    (trade : ShadowTradeRow) : Option ℚ :=
  calculatePnl trade.entryPremium
    (shadowPrice (normalizeZeroDteShadowQuote context.assumptions quote asOf) trade)
    trade.quantity trade.fees

/-- The mark of a trade. -/
def shadowMark (context : ShadowContext) (quote : JsValue) (asOf : Time) (trade : ShadowTradeRow) :
    ShadowMarkRow :=
  let normalized := normalizeZeroDteShadowQuote context.assumptions quote asOf
  let markPrice := shadowPrice normalized trade
  let pnl := unrealizedPnl context quote asOf trade
  { markId := shadowMarkId trade.shadowTradeId asOf
    shadowTradeId := trade.shadowTradeId
    markedAt := asOf
    marketTimestamp := normalized.quoteTimestamp
    markPrice
    bid := normalized.bid
    ask := normalized.ask
    midpoint := normalized.midpoint
    quoteQuality := normalized.status
    quantity := trade.quantity
    unrealizedPnl := pnl
    returnPct := calculateReturnPct trade.entryPremium markPrice
    mfe := match pnl with
      | none => columnNumber trade.mfe
      | some p => some (max (max ((columnNumber trade.mfe).getD 0) p) 0)
    mae := match pnl with
      | none => columnNumber trade.mae
      | some p => some (min (min ((columnNumber trade.mae).getD 0) p) 0)
    evidence :=
      { quoteStatus := normalized.status, reasonCode := normalized.reasonCode,
        slippagePerContract := trade.slippage }
    createdAt := asOf }

/-- `ZeroDteMarkResult`.  A returned mark names the candidate of its trade too. -/
structure MarkResult where
  marked : List (ShadowMarkRow × String) := []
  blocked : List (String × String × String) := []
  closed : List ShadowTradeRow := []

/-- The mark of one trade: `insertShadowMark`, and the extremes if the quote is valid. -/
def recordShadowMark (context : ShadowContext) (asOf : Time) (quote : JsValue)
    (state : MarkResult × ShadowDb) (trade : ShadowTradeRow) :
    Except Error (MarkResult × ShadowDb) :=
  let normalized := normalizeZeroDteShadowQuote context.assumptions quote asOf
  let mark := shadowMark context quote asOf trade
  -- `INSERT OR IGNORE`.
  let db := { state.2 with marks := (state.2.marks.insert? mark).getD state.2.marks }
  if normalized.status = .valid then do
    let trades := db.trades.modify trade.shadowTradeId fun t ↦
      { t with mfe := mark.mfe, mae := mark.mae, updatedAt := asOf }
    let db ← appendShadowLifecycleEvent { db with trades } context.fenceActive trade
      .shadowMarked "MARKED" asOf
      (.marked mark.markPrice mark.unrealizedPnl mark.returnPct mark.mfe mark.mae)
    return ({ state.1 with marked := state.1.marked ++ [(mark, trade.candidateId)] }, db)
  else
    .ok ({ state.1 with
            blocked := state.1.blocked ++ [(trade.shadowTradeId, trade.candidateId,
              normalized.reasonCode.getD "QUOTE_UNAVAILABLE")] }, db)

/-- The loop of `markZeroDteShadowTrades`, for one trade. -/
def markShadowTrade (context : ShadowContext) (asOf : Time) (quotes : Fields)
    (state : MarkResult × ShadowDb) (trade : ShadowTradeRow) :
    Except Error (MarkResult × ShadowDb) := do
  let quote := (quotes.get trade.optionSymbol).orElse .null
  let (result, db) ← recordShadowMark context asOf quote state trade
  if isSessionEnd asOf trade.tradingDate then
    match db.trades.get? trade.shadowTradeId with
    | none => .error (.message "Cannot read properties of undefined")
    | some current => do
      let (closed, db) ← closeShadowTrade context db current asOf quote "SESSION_END"
      return ({ result with closed := result.closed ++ [closed] }, db)
  else return (result, db)

/-- The trades that are not closed, in the order in which they are marked. -/
def openShadowTrades (db : ShadowDb) : List ShadowTradeRow :=
  (db.trades.rows.filter fun t ↦ t.status ≠ .closed).insertionSort fun a b ↦
    a.tradingDate < b.tradingDate ∨
      a.tradingDate = b.tradingDate ∧ a.shadowTradeId ≤ b.shadowTradeId

/-- `markZeroDteShadowTrades`. -/
def markZeroDteShadowTrades (context : ShadowContext) (db : ShadowDb) (asOf : String)
    (quotes : Fields) : Except Error (MarkResult × ShadowDb) := do
  let asOf ← shadowTimestamp asOf "mark timestamp"
  check context.fenceActive (.message "PostgreSQL scheduler fence is no longer active.")
  let state ← (openShadowTrades db).foldlM (markShadowTrade context asOf quotes) ({}, db)
  check context.fenceAtCommit (.message "PostgreSQL scheduler fence is no longer active.")
  return state

end Service

end ZeroDte

end AlpacaTrading
