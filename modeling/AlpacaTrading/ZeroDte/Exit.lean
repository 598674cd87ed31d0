import AlpacaTrading.Lib.Rounding
import AlpacaTrading.ZeroDte.Lifecycle

/-!
# Exits of zero-DTE paper trades

`linkExecution` writes what an execution of exits has submitted: the trade of the option is marked,
and the order is remembered in the event log.  `reconcileZeroDteExitOrders` reads the order of every
marked trade from the broker, and closes the trade, opens it again, or leaves it.  The two share the
row of the trade and the log, from which the order of a trade is read back.

This is the path with the PostgreSQL authority inactive.

## Representation

The details of an event are modelled by the entries that are read back or hashed.  Times are the
normalized ones the code compares.  A numeric text of the broker or the ledger is modelled by the
number it reads as.

`linkExecution` runs without a transaction, so that what it has written stays when it throws.  It
does not yield, and neither does the transaction of a trade: the fence of the scheduler is active
during the whole of it or not at all.
-/

namespace AlpacaTrading

namespace ZeroDte

/-! ## Rows -/

/-- The entries of the details of an exit's event that are read back or hashed. -/
structure ExitEventDetails where
  action : Option String := none
  brokerOrderId : Option String := none
  clientOrderId : Option String := none
  requestId : Option String := none
  status : Option String := none
  filledQuantity : Option ℤ := none
  outcomeId : Option String := none
deriving DecidableEq

/-- A row of `zero_dte_lifecycle_events` that concerns the exit of a paper trade. -/
structure ExitEventRow where
  eventId : String
  eventType : EventType
  reasonCode : String
  paperTradeId : String
  occurredAt : Time
  details : ExitEventDetails
deriving DecidableEq

instance : Row ExitEventRow String where
  key := (·.eventId)
  clash a b := a.eventId = b.eventId
  dec _ _ := inferInstanceAs (Decidable (_ = _))
  symm h := h.symm
  clash_of_key h := h

/-- `evidence_json` of an outcome. -/
structure OutcomeEvidence where
  optionSymbol : String
  brokerOrderId : String
  clientOrderId : String
  brokerStatus : String
  filledQuantity : ℤ
  entryPremium : Option ℚ
  exitPremium : ℚ
  fees : ℚ
  incompleteReasonCode : Option String
deriving DecidableEq

/-- A row of `zero_dte_terminal_outcomes` that concerns a paper trade. -/
structure OutcomeRow where
  outcomeId : String
  candidateId : String
  paperTradeId : String
  decisionId : String
  tradingDate : String
  outcomeType : String
  horizonMinutes : Option ℤ := none
  terminalState : String
  terminalPrice : Option ℚ
  mfe : Option ℚ
  mae : Option ℚ
  realizedPnl : Option ℚ
  returnPct : Option ℚ
  holdingMinutes : Option ℤ
  exitReasonCode : Option String
  completenessStatus : String
  evidence : OutcomeEvidence
deriving DecidableEq

instance : Row OutcomeRow String where
  key := (·.outcomeId)
  clash a b := a.outcomeId = b.outcomeId ∨ (a.paperTradeId = b.paperTradeId ∧
    a.outcomeType = b.outcomeType ∧ a.horizonMinutes.getD (-1) = b.horizonMinutes.getD (-1))
  dec _ _ := inferInstanceAs (Decidable (_ ∨ _))
  symm h := h.imp Eq.symm fun h ↦ ⟨h.1.symm, h.2.1.symm, h.2.2.symm⟩
  clash_of_key h := .inl h

/-- `PaperExecutionLedgerStatus`, of the values an exit takes. -/
inductive LedgerStatus where
  | submitted | accepted | rejected | failed | filled | canceled | expired | partially | other
deriving DecidableEq, Repr

/-- `payload_json` of an exit. -/
structure LedgerPayload where
  paperTradeId : Option String
  candidateId : Option String
  decisionId : Option String
  symbol : String
  quantity : Option ℚ
  side : String
  positionIntent : String
deriving DecidableEq

/-- A row of `paper_execution_ledger`. -/
structure LedgerRow where
  id : ℕ
  clientOrderId : String
  mode : String
  assetClass : String
  symbol : String
  qty : Option ℚ
  side : String
  alpacaOrderId : Option String := none
  alpacaStatus : Option String := none
  requestId : Option String := none
  sourcePlanId : Option String
  sourceCandidateId : Option String
  decisionId : Option String
  decisionLinkageStatus : String
  status : LedgerStatus
  reason : Option String := none
  /-- `none` cannot be parsed. -/
  payload : Option LedgerPayload
deriving DecidableEq

instance : Row LedgerRow ℕ where
  key := (·.id)
  clash a b := a.id = b.id ∨ a.clientOrderId = b.clientOrderId
  dec _ _ := inferInstanceAs (Decidable (_ ∨ _))
  symm h := h.imp Eq.symm Eq.symm
  clash_of_key h := .inl h

/-- The rows that exits read and write. -/
structure ExitDb where
  engineRuns : List String := []
  configurationVersions : List String := []
  candidateIds : List String := []
  decisions : Table DecisionRow := .empty
  trades : Table PaperTradeRow := .empty
  outcomes : Table OutcomeRow := .empty
  ledger : Table LedgerRow := .empty
  events : Table ExitEventRow := .empty

/-! ## Texts -/

/-- `normalizedSymbol`. -/
def normalizedSymbol (value : String) : String := Text.toUpperCase (Text.trim value)

/-- `normalizedStatus`. -/
def normalizedStatus (value : Option String) : String :=
  Text.toLowerCase (Text.trim (value.getD ""))

/-- `UPPER`, which maps ASCII letters only. -/
def sqlUpper (value : String) : String := String.ofList (value.toList.map Char.toUpper)

/-! ## Events -/

section Events

variable [Hashing]

/-- The identifier of an event of an exit: the first forty digits of a hash. -/
def exitEventId (eventType : EventType) (paperTradeId reasonCode : String)
    (details : ExitEventDetails) : String :=
  "zlev_" ++ String.ofList ((Hashing.canonicalJsonHash
    [("eventType", eventType.text), ("paperTradeId", paperTradeId),
      ("brokerOrderId", (details.brokerOrderId.or details.clientOrderId).getD reasonCode),
      ("filledQuantity", (details.filledQuantity.map toString).getD "null"),
      ("outcomeId", details.outcomeId.getD "null")]).toList.take 40)

/-- What `insertZeroDteLifecycleEventRow` checks of the event of a paper trade. -/
def checkEventLinkage (db : ExitDb) (trade : PaperTradeRow) (decision : DecisionRow) :
    Except Error Unit := do
  check (Text.trim decision.strategyVersion != "") (.message "0DTE strategy version is required")
  check (Text.trim decision.configurationVersionId != "")
    (.message "0DTE configuration version ID is required")
  check (decision.candidateId == trade.candidateId)
    (.message "ZERO_DTE_LIFECYCLE_DECISION_CANDIDATE_MISMATCH")
  check (decision.accountMode == "paper")
    (.message "ZERO_DTE_LIFECYCLE_DECISION_ACCOUNT_MODE_MISMATCH")
  check (db.candidateIds.contains trade.candidateId)
    (.message "ZERO_DTE_LIFECYCLE_CANDIDATE_NOT_FOUND")
  check (db.engineRuns.contains decision.engineRunId)
    (.message "ZERO_DTE_LIFECYCLE_ENGINE_RUN_NOT_FOUND")
  check (db.configurationVersions.contains (Text.trim decision.configurationVersionId))
    (.message "FOREIGN KEY constraint failed")

/-- `appendExitEvent`: an event with the identifier of a stored one is not stored again. -/
def appendExitEvent (db : ExitDb) (eventType : EventType) (trade : PaperTradeRow)
    (decision : DecisionRow) (occurredAt : Time) (reasonCode : String)
    (details : ExitEventDetails) : Except Error ExitDb :=
  let eventId := exitEventId eventType trade.paperTradeId reasonCode details
  match db.events.insert?
    { eventId, eventType, reasonCode, paperTradeId := trade.paperTradeId, occurredAt, details } with
  | none => .ok db
  | some events => do
    checkEventLinkage db trade decision
    return { db with events }

end Events

/-! ## The trade and its order -/

/-- `JOIN zero_dte_decisions USING (decision_id)`. -/
def joinDecision (db : ExitDb) (trade : PaperTradeRow) : Option (PaperTradeRow × DecisionRow) :=
  (db.decisions.get? trade.decisionId).map (trade, ·)

/-- `paperTradeForSymbol`: the trade updated last. -/
def paperTradeForSymbol (db : ExitDb) (symbol tradingDate : String) :
    Option (PaperTradeRow × DecisionRow) :=
  firstBy (fun a b ↦ b.1.updatedAt < a.1.updatedAt)
    ((db.trades.rows.filterMap (joinDecision db)).filter fun t ↦
      db.engineRuns.contains t.2.engineRunId ∧ t.1.tradingDate = tradingDate ∧
        sqlUpper t.1.optionSymbol = sqlUpper symbol)

structure ExitOrderDetails where
  brokerOrderId : String
  clientOrderId : String
  requestId : Option String
  status : Option String
  occurredAt : Time
deriving DecidableEq

/-- The exit requests of a trade. -/
def exitRequests (db : ExitDb) (paperTradeId : String) : List ExitEventRow :=
  db.events.rows.filter fun e ↦ e.paperTradeId = paperTradeId ∧ e.eventType = .exitOrderRequested

/-- The last of them. -/
def latestExitRequest (db : ExitDb) (paperTradeId : String) : Option ExitEventRow :=
  firstBy (fun a b ↦ b.occurredAt < a.occurredAt ∨
      (a.occurredAt = b.occurredAt ∧ b.eventId < a.eventId))
    (exitRequests db paperTradeId)

def exitOrderDetailsForTrade (db : ExitDb) (paperTradeId : String) :
    Except Error ExitOrderDetails :=
  match latestExitRequest db paperTradeId with
  | none => .error (.message "EXIT_ORDER_LINKAGE_MISSING")
  | some e =>
    match optionalText e.details.brokerOrderId, optionalText e.details.clientOrderId with
    | some brokerOrderId, some clientOrderId =>
      .ok { brokerOrderId, clientOrderId, requestId := optionalText e.details.requestId,
            status := optionalText e.details.status, occurredAt := e.occurredAt }
    | _, _ => .error (.message "EXIT_ORDER_IDENTITY_MISSING")

def sameExitOrderRequest (left right : ExitOrderDetails) : Bool :=
  left.brokerOrderId == right.brokerOrderId && left.clientOrderId == right.clientOrderId &&
    left.requestId == right.requestId && left.occurredAt == right.occurredAt

/-! ## The ledger -/

/-- The status of the first ledger row. -/
def initialLedgerStatus (status : Option String) : LedgerStatus :=
  if normalizedStatus status = "accepted" then .accepted
  else if normalizedStatus status = "rejected" then .rejected
  else .submitted

/-- The `UPDATE` of `updatePaperExecutionLedgerEntry`. -/
def updateLedger (db : ExitDb) (id : ℕ) (status : LedgerStatus)
    (alpacaOrderId alpacaStatus requestId reason : Option String) : ExitDb :=
  { db with
    ledger := db.ledger.update (·.id = id) fun r ↦ { r with
      status
      alpacaOrderId := alpacaOrderId.or r.alpacaOrderId
      alpacaStatus := alpacaStatus.or r.alpacaStatus
      requestId := requestId.or r.requestId
      reason } }

/-- What a stored ledger row of the order must agree with. -/
def checkLedger (entry : LedgerRow) (trade : PaperTradeRow) (details : ExitOrderDetails) :
    Except Error Unit := do
  check (entry.mode == "zero-dte-exit") (.message "EXIT_LEDGER_MODE_MISMATCH")
  check (entry.assetClass == "option") (.message "EXIT_LEDGER_ASSET_CLASS_MISMATCH")
  check (normalizedSymbol entry.symbol == normalizedSymbol trade.optionSymbol)
    (.message "EXIT_LEDGER_SYMBOL_MISMATCH")
  check ((givenText entry.alpacaOrderId).all (· == details.brokerOrderId))
    (.message "EXIT_LEDGER_BROKER_ORDER_ID_MISMATCH")
  check (entry.qty == some (trade.quantity : ℚ)) (.message "EXIT_LEDGER_QUANTITY_MISMATCH")
  check (normalizedStatus (some entry.side) == "sell") (.message "EXIT_LEDGER_SIDE_MISMATCH")
  check (entry.sourcePlanId == some trade.paperTradeId)
    (.message "EXIT_LEDGER_SOURCE_TRADE_MISMATCH")
  check (entry.sourceCandidateId == some trade.candidateId)
    (.message "EXIT_LEDGER_SOURCE_CANDIDATE_MISMATCH")
  check ((givenText entry.decisionId).all (· == trade.decisionId))
    (.message "EXIT_LEDGER_DECISION_MISMATCH")
  match entry.payload with
  | none => .error (.message "EXIT_LEDGER_PAYLOAD_INVALID")
  | some p =>
    check (optionalText p.paperTradeId == some trade.paperTradeId &&
        optionalText p.candidateId == some trade.candidateId &&
        optionalText p.decisionId == some trade.decisionId &&
        normalizedSymbol p.symbol == normalizedSymbol trade.optionSymbol &&
        p.quantity == some (trade.quantity : ℚ) && normalizedStatus (some p.side) == "sell" &&
        normalizedStatus (some p.positionIntent) == "sell_to_close")
      (.message "EXIT_LEDGER_PAYLOAD_MISMATCH")

/-- The ledger row of an exit that has none. -/
def newLedgerRow (id : ℕ) (trade : PaperTradeRow) (details : ExitOrderDetails)
    (status : LedgerStatus) : LedgerRow where
  id
  clientOrderId := details.clientOrderId
  mode := "zero-dte-exit"
  assetClass := "option"
  symbol := normalizedSymbol trade.optionSymbol
  qty := some trade.quantity
  side := "sell"
  requestId := details.requestId
  sourcePlanId := some trade.paperTradeId
  sourceCandidateId := some trade.candidateId
  decisionId := some trade.decisionId
  decisionLinkageStatus := "EXACT"
  status
  payload := some
    { paperTradeId := some trade.paperTradeId, candidateId := some trade.candidateId,
      decisionId := some trade.decisionId, symbol := normalizedSymbol trade.optionSymbol,
      quantity := some trade.quantity, side := "sell", positionIntent := "sell_to_close" }

/-- The identifier `AUTOINCREMENT` draws. -/
def nextLedgerId (db : ExitDb) : ℕ := (db.ledger.rows.map (·.id)).foldl max 0 + 1

/-- `ensureExitLedger`: the store, the ledger row and whether the linkage changed. -/
def ensureExitLedger (db : ExitDb) (trade : PaperTradeRow) (details : ExitOrderDetails)
    (status : LedgerStatus) (brokerStatus : Option String) : Except Error (ExitDb × ℕ × Bool) :=
  match db.ledger.rows.find? (·.clientOrderId = details.clientOrderId) with
  | none =>
    match db.ledger.insert? (newLedgerRow (nextLedgerId db) trade details status) with
    | none => .error (.message "UNIQUE constraint failed: paper_execution_ledger")
    | some ledger => .ok
        (updateLedger { db with ledger } (nextLedgerId db) status (some details.brokerOrderId)
          brokerStatus details.requestId none, nextLedgerId db, true)
  | some entry => do
    checkLedger entry trade details
    let unlinked := (givenText entry.decisionId).isNone || entry.decisionLinkageStatus != "EXACT"
    check (!unlinked || entry.decisionId.all (· == trade.decisionId))
      (.message "EXIT_LEDGER_LINKAGE_MISMATCH")
    let db := if unlinked then
        { db with
          ledger := db.ledger.update (·.id = entry.id) fun r ↦
            { r with decisionId := some trade.decisionId, decisionLinkageStatus := "EXACT" } }
      else db
    return (updateLedger db entry.id status (some details.brokerOrderId) brokerStatus
      details.requestId none, entry.id, unlinked)

/-! ## The state of the broker -/

/-- What the broker says of an order.  Of the quantity that is filled, `none` is one that is
missing and `some none` one that is no number. -/
structure BrokerOrder where
  id : Option String
  clientOrderId : Option String
  symbol : String
  side : Option String
  positionIntent : Option String
  status : Option String
  qty : Option ℚ
  filledQty : Option (Option ℚ)
  filledAvgPrice : Option ℚ := none
  /-- A text that cannot be read as a time is `none`. -/
  filledAt : Option Time := none
  requestId : Option String := none
deriving DecidableEq

inductive ExitKind where
  | pending | partially | filled | terminal
deriving DecidableEq, Repr

/-- `ExitBrokerState`. -/
structure ExitBrokerState where
  kind : ExitKind
  brokerStatus : String
  requestedQuantity : ℤ
  filledQuantity : ℤ
  /-- The price and the time of the fill, if anything is filled. -/
  fill : Option (ℚ × Time)
deriving DecidableEq

/-- `PENDING_EXIT_STATUSES`. -/
def pendingExitStatuses : List String :=
  ["new", "accepted", "pending_new", "accepted_for_bidding", "pending_replace"]

/-- `TERMINAL_EXIT_STATUSES`. -/
def terminalExitStatuses : List String :=
  ["canceled", "expired", "rejected", "replaced", "done_for_day", "stopped", "suspended",
    "calculated"]

/-- What the status and the quantities make of the order. -/
def exitKind (brokerStatus : String) (hasFilledQuantity : Bool)
    (filledQuantity requestedQuantity : ℤ) : Except Error ExitKind :=
  if brokerStatus = "filled" then
    if !hasFilledQuantity || filledQuantity != requestedQuantity then
      .error (.message "EXIT_BROKER_FILLED_QUANTITY_INCOMPLETE")
    else .ok .filled
  else if brokerStatus = "partially_filled" ∨ brokerStatus = "partial" then
    if !hasFilledQuantity || filledQuantity ≤ 0 || requestedQuantity ≤ filledQuantity then
      .error (.message "EXIT_BROKER_PARTIAL_QUANTITY_INVALID")
    else .ok .partially
  else if brokerStatus ∈ pendingExitStatuses then
    if filledQuantity ≠ 0 then .error (.message "EXIT_BROKER_PENDING_HAS_FILL") else .ok .pending
  else if brokerStatus ∈ terminalExitStatuses then
    if !hasFilledQuantity then .error (.message "EXIT_BROKER_TERMINAL_QUANTITY_MISSING")
    else .ok (if filledQuantity = requestedQuantity then .filled else .terminal)
  else .error (.message "EXIT_BROKER_STATUS_UNSUPPORTED")

/-- The price and the time of a fill. -/
def exitFill (trade : PaperTradeRow) (details : ExitOrderDetails) (order : BrokerOrder)
    (asOf : Time) : Except Error (ℚ × Time) :=
  match order.filledAvgPrice with
  | none => .error (.message "EXIT_BROKER_FILL_PRICE_INVALID")
  | some price => do
    check (0 < price) (.message "EXIT_BROKER_FILL_PRICE_INVALID")
    match order.filledAt with
    | none => .error (.message "EXIT_BROKER_FILL_TIME_INVALID")
    | some filledAt =>
      check (trade.filledAt.all (· ≤ filledAt)) (.message "EXIT_BROKER_FILL_BEFORE_ENTRY")
      check (details.occurredAt ≤ filledAt) (.message "EXIT_BROKER_FILL_BEFORE_EXIT_REQUEST")
      check (filledAt ≤ asOf) (.message "EXIT_BROKER_FILL_AFTER_RECONCILIATION")
      return (price, filledAt)

/-- `validatedExitBrokerState`. -/
def validatedExitBrokerState (trade : PaperTradeRow) (details : ExitOrderDetails)
    (order : BrokerOrder) (asOf : Time) : Except Error ExitBrokerState := do
  check (optionalText order.id == some details.brokerOrderId)
    (.message "EXIT_BROKER_ORDER_ID_MISMATCH")
  check (optionalText order.clientOrderId == some details.clientOrderId)
    (.message "EXIT_BROKER_CLIENT_ORDER_ID_MISMATCH")
  check (normalizedSymbol order.symbol == normalizedSymbol trade.optionSymbol)
    (.message "EXIT_BROKER_SYMBOL_MISMATCH")
  check (normalizedStatus order.side == "sell") (.message "EXIT_BROKER_SIDE_MISMATCH")
  check (normalizedStatus order.positionIntent == "sell_to_close")
    (.message "EXIT_BROKER_POSITION_INTENT_MISMATCH")
  check (order.qty == some (trade.quantity : ℚ) && 0 < trade.quantity)
    (.message "EXIT_BROKER_QUANTITY_MISMATCH")
  let brokerStatus := normalizedStatus order.status
  check (brokerStatus != "") (.message "EXIT_BROKER_STATUS_MISSING")
  let filled := (order.filledQty.getD (some 0)).filter fun q : ℚ ↦
    q.den = 1 && 0 ≤ q && q ≤ trade.quantity
  match filled with
  | none => .error (.message "EXIT_BROKER_FILLED_QUANTITY_INVALID")
  | some q =>
    let kind ← exitKind brokerStatus order.filledQty.isSome q.num trade.quantity
    let fill ← (if 0 < q.num then (exitFill trade details order asOf).map some else .ok none)
    return { kind, brokerStatus, requestedQuantity := trade.quantity, filledQuantity := q.num,
             fill }

def reconciledLedgerStatus (state : ExitBrokerState) : LedgerStatus :=
  match state.kind with
  | .filled => .filled
  | .partially => .partially
  | .pending => if state.brokerStatus = "accepted" then .accepted else .submitted
  | .terminal =>
    if state.brokerStatus = "canceled" then .canceled
    else if state.brokerStatus = "expired" then .expired
    else if state.brokerStatus = "rejected" then .rejected
    else .failed

/-! ## The outcome -/

section Outcome

variable [Hashing]

/-- `roundMoney`. -/
def roundMoney (value : ℚ) : ℚ := Rounding.nearest 100 0 value

/-- `roundRatio`. -/
def roundRatio (value : ℚ) : ℚ := Rounding.nearest 1000000 0 value

/-- The entry's premium and time, if the evidence of the entry is complete. -/
def entryEvidence (trade : PaperTradeRow) : Option (ℚ × Time) :=
  match trade.entryPremium, trade.filledAt with
  | some premium, some filledAt => if 0 < premium then some (premium, filledAt) else none
  | _, _ => none

def exitRealizedPnl (trade : PaperTradeRow) (fillPrice : ℚ) : Option ℚ :=
  (entryEvidence trade).map fun entry ↦
    roundMoney ((fillPrice - entry.1) * trade.quantity * 100 - trade.fees)

def exitReturnPct (trade : PaperTradeRow) (fillPrice : ℚ) : Option ℚ :=
  match entryEvidence trade, exitRealizedPnl trade fillPrice with
  | some entry, some pnl =>
    let entryCost := entry.1 * trade.quantity * 100
    if entryCost ≤ 0 then none else some (roundRatio (pnl / entryCost * 100))
  | _, _ => none

/-- The identifier of the outcome of an exit. -/
def exitOutcomeId (paperTradeId : String) : String :=
  "zout_" ++ String.ofList ((Hashing.canonicalJsonHash
    [("paperTradeId", paperTradeId), ("outcomeType", "paper_trade"),
      ("horizonMinutes", "null")]).toList.take 40)

/-- The outcome a full fill has. -/
def expectedOutcome (trade : PaperTradeRow) (state : ExitBrokerState) (details : ExitOrderDetails)
    (fill : ℚ × Time) : OutcomeRow where
  outcomeId := exitOutcomeId trade.paperTradeId
  candidateId := trade.candidateId
  paperTradeId := trade.paperTradeId
  decisionId := trade.decisionId
  tradingDate := trade.tradingDate
  outcomeType := "paper_trade"
  terminalState := "closed"
  terminalPrice := some fill.1
  mfe := trade.mfe
  mae := trade.mae
  realizedPnl := exitRealizedPnl trade fill.1
  returnPct := exitReturnPct trade fill.1
  holdingMinutes := (entryEvidence trade).map fun entry ↦
    ⌊((fill.2 - entry.2 : ℤ) : ℚ) / 60000 + 1 / 2⌋
  exitReasonCode := trade.exitReasonCode
  completenessStatus := if (entryEvidence trade).isSome then "complete" else "incomplete"
  evidence :=
    { optionSymbol := normalizedSymbol trade.optionSymbol, brokerOrderId := details.brokerOrderId,
      clientOrderId := details.clientOrderId, brokerStatus := state.brokerStatus,
      filledQuantity := state.filledQuantity, entryPremium := trade.entryPremium,
      exitPremium := fill.1, fees := trade.fees,
      incompleteReasonCode :=
        if (entryEvidence trade).isSome then none else some "ENTRY_EVIDENCE_INCOMPLETE" }

/-- `recordPaperExitOutcome`: a stored outcome must be the expected one. -/
def recordPaperExitOutcome (db : ExitDb) (expected : OutcomeRow) : Except Error (ExitDb × Bool) :=
  match db.outcomes.rows.find? fun o ↦ o.outcomeId = expected.outcomeId ∨
      (o.paperTradeId = expected.paperTradeId ∧ o.outcomeType = expected.outcomeType ∧
        o.horizonMinutes = none) with
  | some existing =>
    if existing = expected then .ok (db, false)
    else .error (.message "EXIT_TERMINAL_OUTCOME_MISMATCH")
  | none =>
    match db.outcomes.insert? expected with
    | none => .error (.message "UNIQUE constraint failed: zero_dte_terminal_outcomes")
    | some outcomes => .ok ({ db with outcomes }, true)

end Outcome

/-! ## Linking an execution -/

/-- A submitted exit order. -/
structure SubmittedOrder where
  symbol : String
  reason : String
  alpacaOrderId : Option String := none
  clientOrderId : Option String := none
  alpacaRequestId : Option String := none
  status : Option String := none
deriving DecidableEq

/-- What an execution of exits reports: the orders, and the symbols of the candidates. -/
structure ExitExecution where
  now : Time
  tradingDate : String
  candidateSymbols : List String
  submittedOrders : List SubmittedOrder
  fenceActive : Bool := true
deriving DecidableEq

section Link

variable [Hashing]

/-- The `UPDATE` that marks a trade. -/
def requestExit (db : ExitDb) (paperTradeId : String) (now : Time) (reason : String) : ExitDb :=
  { db with
    trades := db.trades.update (·.paperTradeId = paperTradeId) fun t ↦
      { t with status := .exitRequested, exitRequestedAt := some now,
               exitReasonCode := some reason, updatedAt := now } }

/-- The details of an order that is identified. -/
def submittedDetails (now : Time) (order : SubmittedOrder) : Option ExitOrderDetails :=
  match optionalText order.alpacaOrderId, optionalText order.clientOrderId with
  | some brokerOrderId, some clientOrderId => some
      { brokerOrderId, clientOrderId, requestId := optionalText order.alpacaRequestId,
        status := optionalText order.status, occurredAt := now }
  | _, _ => none

/-- The event details of a request. -/
def requestDetails (order : SubmittedOrder) : ExitEventDetails where
  brokerOrderId := order.alpacaOrderId
  clientOrderId := order.clientOrderId
  requestId := order.alpacaRequestId
  status := order.status

/-- The ledger after a request: its errors are left to the reconciliation. -/
def linkLedger (db : ExitDb) (trade : PaperTradeRow) (now : Time) (order : SubmittedOrder) :
    ExitDb :=
  match submittedDetails now order with
  | none => db
  | some details =>
    match ensureExitLedger db trade details (initialLedgerStatus order.status)
        (optionalText order.status) with
    | .error _ => db
    | .ok (db', _, _) => db'

/-- One turn of the loop of `linkExecution`: the store and what was thrown. -/
def linkOrder (execution : ExitExecution) (db : ExitDb) (order : SubmittedOrder) :
    ExitDb × Except Error Unit :=
  let symbol := normalizedSymbol order.symbol
  if !(execution.candidateSymbols.map normalizedSymbol).contains symbol then (db, .ok ())
  else
    match paperTradeForSymbol db symbol execution.tradingDate with
    | none => (db, .ok ())
    | some (trade, decision) =>
      match appendExitEvent db .exitTriggered trade decision execution.now order.reason
          { brokerOrderId := order.alpacaOrderId, clientOrderId := order.clientOrderId } with
      | .error e => (db, .error e)
      | .ok db₁ =>
        let db₂ := linkLedger (requestExit db₁ trade.paperTradeId execution.now order.reason) trade
          execution.now order
        match appendExitEvent db₂ .exitOrderRequested trade decision execution.now order.reason
            (requestDetails order) with
        | .error e => (db₂, .error e)
        | .ok db₃ => (db₃, .ok ())

/-- The loop, up to the first order that throws. -/
def linkOrders (execution : ExitExecution) : ExitDb → List SubmittedOrder → ExitDb
  | db, [] => db
  | db, order :: rest =>
    match linkOrder execution db order with
    | (db', .ok ()) => linkOrders execution db' rest
    | (db', .error _) => db'

/-- `linkExecution`. -/
def linkExecution (db : ExitDb) (execution : ExitExecution) : ExitDb :=
  if execution.fenceActive then linkOrders execution db execution.submittedOrders else db

end Link

/-! ## Reconciling exits -/

/-- What a pass gets for the order of a trade: the order or an error, the time, and whether the
fence is active when the trade is written. -/
structure BrokerAnswer where
  response : Except Error BrokerOrder
  observedAt : Time
  fenceActive : Bool := true

/-- A pass of the reconciliation.  The answers are those to the order asked for a trade. -/
structure ExitPass where
  initialAsOf : Time
  paperRuntime : Bool := true
  getOrder : (paperTradeId brokerOrderId : String) → BrokerAnswer

section Reconcile

variable [Hashing]

/-- The largest quantity an event of the exit has told. -/
def priorFill (db : ExitDb) (paperTradeId : String) : Option ℤ :=
  ((db.events.rows.filter fun e ↦ e.paperTradeId = paperTradeId ∧
      (e.eventType = .paperOrderPartiallyFilled ∨ e.eventType = .paperOrderFilled) ∧
      e.details.action = some "exit").filterMap (·.details.filledQuantity)).max?

/-- The event details of what the broker has done to an exit order. -/
def brokerDetails (details : ExitOrderDetails) (filledQuantity : ℤ) : ExitEventDetails where
  action := some "exit"
  brokerOrderId := some details.brokerOrderId
  clientOrderId := some details.clientOrderId
  filledQuantity := some filledQuantity

/-- The `UPDATE` that opens a trade again. -/
def reopenTrade (db : ExitDb) (paperTradeId : String) (observedAt : Time) : Except Error ExitDb :=
  let isMarked := fun t : PaperTradeRow ↦
    decide (t.paperTradeId = paperTradeId ∧ t.status = .exitRequested)
  if db.trades.count isMarked ≠ 1 then .error (.message "EXIT_TRADE_TERMINAL_UPDATE_FAILED")
  else .ok { db with
    trades := db.trades.update isMarked fun t ↦
      { t with status := .opened, exitRequestedAt := none, terminalState := none,
               updatedAt := observedAt } }

/-- The `UPDATE` that closes a trade. -/
def closeTrade (db : ExitDb) (trade : PaperTradeRow) (fill : ℚ × Time) (observedAt : Time) :
    Except Error ExitDb :=
  let isMarked := fun t : PaperTradeRow ↦
    decide (t.paperTradeId = trade.paperTradeId ∧ t.status = .exitRequested)
  if db.trades.count isMarked ≠ 1 then .error (.message "EXIT_TRADE_CLOSE_UPDATE_FAILED")
  else .ok { db with
    trades := db.trades.update isMarked fun t ↦
      { t with status := .closed, exitPremium := some fill.1, exitedAt := some fill.2,
               realizedPnl := exitRealizedPnl trade fill.1,
               returnPct := exitReturnPct trade fill.1, terminalState := some "closed",
               updatedAt := observedAt } }

/-- A partial fill, of an order that is open or terminal: the trade stays marked. -/
def applyPartialFill (db : ExitDb) (ledgerId : ℕ) (trade : PaperTradeRow) (decision : DecisionRow)
    (details : ExitOrderDetails) (state : ExitBrokerState) (requestId : Option String)
    (observedAt : Time) : Except Error ExitDb :=
  appendExitEvent
    (updateLedger db ledgerId .partially (some details.brokerOrderId) (some state.brokerStatus)
      (requestId.or details.requestId) none)
    .paperOrderPartiallyFilled trade decision ((state.fill.map (·.2)).getD observedAt)
    "EXIT_ORDER_PARTIALLY_FILLED" (brokerDetails details state.filledQuantity)

/-- A terminal order without a fill: the trade is open again. -/
def applyTerminal (db : ExitDb) (ledgerId : ℕ) (trade : PaperTradeRow) (decision : DecisionRow)
    (details : ExitOrderDetails) (state : ExitBrokerState) (requestId : Option String)
    (observedAt : Time) : Except Error ExitDb := do
  let reason := "EXIT_ORDER_" ++ Text.toUpperCase state.brokerStatus
  let db ← reopenTrade
    (updateLedger db ledgerId (reconciledLedgerStatus state) (some details.brokerOrderId)
      (some state.brokerStatus) (requestId.or details.requestId) (some reason))
    trade.paperTradeId observedAt
  appendExitEvent db
    (if state.brokerStatus = "rejected" then .paperOrderRejected else .paperOrderCanceled)
    trade decision observedAt reason (brokerDetails details 0)

/-- A full fill: the outcome is recorded, the trade closed, and three events tell it. -/
def applyFill (db : ExitDb) (trade : PaperTradeRow) (decision : DecisionRow)
    (details : ExitOrderDetails) (state : ExitBrokerState) (observedAt : Time) :
    Except Error ExitDb :=
  match state.fill with
  | none => .error (.message "EXIT_FILL_EVIDENCE_MISSING")
  | some fill => do
    let outcome := expectedOutcome trade state details fill
    let (db, _) ← recordPaperExitOutcome db outcome
    let db ← closeTrade db trade fill observedAt
    let db ← appendExitEvent db .paperOrderFilled trade decision fill.2 "EXIT_ORDER_FILLED"
      (brokerDetails details state.filledQuantity)
    let db ← appendExitEvent db .positionClosed trade decision fill.2
      (trade.exitReasonCode.getD "EXIT_ORDER_FILLED")
      { brokerDetails details state.filledQuantity with action := none }
    appendExitEvent db .terminalOutcomeRecorded trade decision observedAt
      (trade.exitReasonCode.getD "EXIT_ORDER_FILLED")
      { brokerOrderId := some details.brokerOrderId, outcomeId := some outcome.outcomeId }

/-- The transaction of a trade. -/
def applyExitState (db : ExitDb) (trade : PaperTradeRow) (decision : DecisionRow)
    (details : ExitOrderDetails) (state : ExitBrokerState) (requestId : Option String)
    (observedAt : Time) : Except Error ExitDb :=
  match db.trades.get? trade.paperTradeId with
  | none => .error (.message "EXIT_TRADE_NOT_FOUND")
  | some current =>
    if current.status = .closed then .ok db
    else do
      check (current.status == .exitRequested) (.message "EXIT_TRADE_STATE_CHANGED")
      let currentDetails ← exitOrderDetailsForTrade db trade.paperTradeId
      check (sameExitOrderRequest details currentDetails &&
          current.exitRequestedAt == some currentDetails.occurredAt)
        (.message "EXIT_ORDER_REQUEST_CHANGED")
      check ((priorFill db trade.paperTradeId).all (· ≤ state.filledQuantity))
        (.message "EXIT_BROKER_FILL_QUANTITY_REGRESSION")
      let (db, ledgerId, _) ← ensureExitLedger db trade details (reconciledLedgerStatus state)
        (some state.brokerStatus)
      match state.kind with
      | .pending => .ok db
      | .partially =>
        applyPartialFill db ledgerId trade decision details state requestId observedAt
      | .terminal =>
        if 0 < state.filledQuantity then
          applyPartialFill db ledgerId trade decision details state requestId observedAt
        else applyTerminal db ledgerId trade decision details state requestId observedAt
      | .filled => applyFill db trade decision details state observedAt

/-- One trade of a pass. -/
def reconcileExit (pass : ExitPass) (db : ExitDb) (trade : PaperTradeRow)
    (decision : DecisionRow) : Except Error ExitDb := do
  let details ← exitOrderDetailsForTrade db trade.paperTradeId
  let answer := pass.getOrder trade.paperTradeId details.brokerOrderId
  let order ← answer.response
  let observedAt := max answer.observedAt pass.initialAsOf
  let state ← validatedExitBrokerState trade details order observedAt
  check answer.fenceActive (.message "PostgreSQL scheduler fence is no longer active.")
  applyExitState db trade decision details state order.requestId observedAt

/-- The trades of a pass, each in a transaction: the store and the errors. -/
def reconcileExits (pass : ExitPass) :
    ExitDb → List (PaperTradeRow × DecisionRow) → ExitDb × List (Option String × Error)
  | db, [] => (db, [])
  | db, (trade, decision) :: rest =>
    match reconcileExit pass db trade decision with
    | .ok db' => reconcileExits pass db' rest
    | .error e =>
      let (db', errors) := reconcileExits pass db rest
      (db', (some trade.paperTradeId, e) :: errors)

/-- `ORDER BY exit_requested_at, paper_trade_id`, where a missing time comes first. -/
def reconciledBefore (a b : PaperTradeRow) : Bool :=
  match a.exitRequestedAt, b.exitRequestedAt with
  | none, some _ => true
  | some _, none => false
  | none, none => a.paperTradeId ≤ b.paperTradeId
  | some s, some t => s < t || (s == t && a.paperTradeId ≤ b.paperTradeId)

/-- The trades a pass reconciles. -/
def exitsToReconcile (db : ExitDb) : List (PaperTradeRow × DecisionRow) :=
  ((db.trades.rows.filter (·.status = .exitRequested)).filterMap (joinDecision db)).insertionSort
    fun a b ↦ reconciledBefore a.1 b.1 = true

/-- `reconcileZeroDteExitOrders`. -/
def reconcileZeroDteExitOrders (db : ExitDb) (pass : ExitPass) :
    ExitDb × List (Option String × Error) :=
  if exitsToReconcile db = [] then (db, [])
  else if !pass.paperRuntime then
    (db, [(none, .message
      "0DTE exit reconciliation is disabled outside the paper-only runtime.")])
  else reconcileExits pass db (exitsToReconcile db)

end Reconcile

/-! ## Runs -/

/-- A step of the exits. -/
inductive ExitStep where
  | link (execution : ExitExecution)
  | reconcile (pass : ExitPass)

def ExitStep.run [Hashing] (db : ExitDb) : ExitStep → ExitDb
  | link execution => linkExecution db execution
  | reconcile pass => (reconcileZeroDteExitOrders db pass).1

end ZeroDte

end AlpacaTrading
