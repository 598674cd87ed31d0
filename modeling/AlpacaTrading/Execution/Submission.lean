import AlpacaTrading.Execution.Promotion

/-!
# Recording a submission

The transactions around the one call of the broker: the attempt event that is written before it,
and what is written after it, depending on how it ends.  An acknowledged order is stored with its
event, the intent becomes `submitted` (or terminal, when the broker answered with a terminal
status) and the reservation is committed or released; a rejected submission fails the intent; an
uncertain one leaves it `ambiguous` for reconciliation.

The receipts the source serialises into the event payload are kept as the value handed from step
to step; the payload columns themselves are read by nothing.
-/

namespace AlpacaTrading

/-! ## Receipts -/

/-- `AlpacaPaperOrderRequest`. -/
structure AlpacaPaperOrderRequest where
  symbol : String
  qty : Option ℚ := none
  notional : Option ℚ := none
  sell : Bool := false
  type : OrderType := .market
  timeInForce : TimeInForce := .day
  limitPrice : Option ℚ := none
  clientOrderId : String
  positionIntent : Option TradeOperation := none
deriving DecidableEq

/-- `BrokerMutationOutcome`. -/
inductive BrokerMutationOutcome where
  | submissionAttempted | submissionAcknowledged | submissionRejected
  | submissionTransportUnknown | submissionReconciled
deriving DecidableEq, Repr

/-- The text of an outcome, as the event status records it. -/
def BrokerMutationOutcome.name : BrokerMutationOutcome → String
  | submissionAttempted => "submission_attempted"
  | submissionAcknowledged => "submission_acknowledged"
  | submissionRejected => "submission_rejected"
  | submissionTransportUnknown => "submission_transport_unknown"
  | submissionReconciled => "submission_reconciled"

/-- `BrokerMutationReceipt`. -/
structure BrokerMutationReceipt where
  mutationReceiptId : String
  intentId : String
  cycleId : String
  workstream : String
  schedulerRunId : String
  fencingToken : Nat
  deterministicClientOrderId : String
  closing : Bool
  brokerOrderId : Option String
  requested : AlpacaPaperOrderRequest
  requestedStopPrice : Option ℚ
  submissionAttemptTimestamp : Time
  brokerAcknowledgementTimestamp : Option Time
  outcomeClassification : BrokerMutationOutcome
  resultingLifecycleState : LifecycleState
deriving DecidableEq

/-- The identifiers a run is recorded under. -/
structure LifecycleContext where
  cycleId : String
  workstreamExecutionId : String
deriving DecidableEq

/-- `receiptWithOutcome`. -/
def receiptWithOutcome (receipt : BrokerMutationReceipt) (outcome : BrokerMutationOutcome)
    (state : LifecycleState) (brokerOrderId : Option String := none)
    (acknowledgedAt : Option Time := none) : BrokerMutationReceipt :=
  { receipt with
    brokerOrderId := brokerOrderId <|> receipt.brokerOrderId
    brokerAcknowledgementTimestamp := acknowledgedAt <|> receipt.brokerAcknowledgementTimestamp
    outcomeClassification := outcome
    resultingLifecycleState := state }

/-- The lifecycle state of a persisted attempt. -/
def attemptState : ReviewType → LifecycleState
  | .exit => .exitSubmissionAttemptPersisted
  | .entry => .submissionAttemptPersisted

/-- The lifecycle state of an uncertain submission. -/
def ambiguousState : ReviewType → LifecycleState
  | .exit => .exitSubmissionAmbiguous
  | .entry => .submissionAmbiguous

section Record

variable [Hashing]

/-- `buildMutationReceipt`. -/
def buildMutationReceipt (row : AutonomousExecutionIntentRow) (payload : AlpacaPaperOrderRequest)
    (command : ExecutionCommand) (fence : SchedulerFence) (context : LifecycleContext)
    (attemptedAt : Time) : Except String BrokerMutationReceipt := do
  require (Text.trim context.cycleId ≠ "") "POSTGRES_MUTATION_CYCLE_ID_REQUIRED"
  require (Text.trim context.workstreamExecutionId ≠ "")
    "POSTGRES_MUTATION_WORKSTREAM_EXECUTION_ID_REQUIRED"
  require (Text.trim context.workstreamExecutionId = fence.runId)
    "POSTGRES_MUTATION_SCHEDULER_RUN_MISMATCH"
  let intentId := Text.trim row.intent.id
  require (intentId ≠ "") "POSTGRES_EXECUTION_INTENT_ID_REQUIRED"
  return {
    mutationReceiptId := "mutation_receipt_" ++ Hashing.stableRecordId "alpaca_order_submission"
      (row.intent.accountId ++ ":" ++ intentId ++ ":" ++ row.intent.clientOrderId)
    intentId
    cycleId := Text.trim context.cycleId
    workstream := command.name
    schedulerRunId := fence.runId
    fencingToken := fence.fencingToken
    deterministicClientOrderId := row.intent.clientOrderId
    closing := row.review.reviewType = .exit
    brokerOrderId := none
    requested := payload
    requestedStopPrice := row.intent.stopPrice
    submissionAttemptTimestamp := attemptedAt
    brokerAcknowledgementTimestamp := none
    outcomeClassification := .submissionAttempted
    resultingLifecycleState := attemptState row.review.reviewType }

/-! ## Before the call -/

/-- The identifier of the attempt event of an intent. -/
def attemptEventId (intent : Intent) : String :=
  "broker_event_" ++ Hashing.stableRecordId "alpaca_broker_submission_attempt"
    (intent.accountId ++ ":" ++ intent.id ++ ":" ++ intent.clientOrderId)

/-- The attempt event of an intent. -/
def attemptEvent (intent : Intent) (now : Time) : BrokerEvent where
  eventId := attemptEventId intent
  accountId := intent.accountId
  orderIntentId := some intent.id
  clientOrderId := some intent.clientOrderId
  eventType := .orderSubmissionAttempt
  eventStatus := "submission_attempted"
  occurredAt := now
  receivedAt := now

/-- `recordSubmissionAttempt`. -/
def recordSubmissionAttempt (db : Db) (row : AutonomousExecutionIntentRow)
    (payload : AlpacaPaperOrderRequest) (command : ExecutionCommand) (session : Session)
    (now : Time) (context : LifecycleContext) : Except String (Db × BrokerMutationReceipt) := do
  let receipt ← buildMutationReceipt row payload command session.fence context now
  require (fenceHeld db session) "POSTGRES_BROKER_SUBMISSION_ATTEMPT_PERSISTENCE_FAILED"
  let events ← db.events.insertOne (attemptEvent row.intent now)
    "POSTGRES_BROKER_SUBMISSION_ATTEMPT_PERSISTENCE_FAILED"
  let intents ← db.intents.updateOne row.intent.id
    (fun i ↦ decide (i.status = .submissionPending) && fenceHeld db session)
    (fun i ↦ { i with
      lifecycleState := attemptState row.review.reviewType
      updatedAt := now
      version := i.version + 1 })
    "POSTGRES_BROKER_SUBMISSION_ATTEMPT_LIFECYCLE_PERSISTENCE_FAILED"
  return ({ db with events, intents }, receipt)

/-! ## After an answer -/

/-- The terminal states of a reservation that an acknowledgement can bring. -/
def unfilledTerminal : LifecycleState → Option (ReservationTerminalState × ReleaseReason)
  | .cancelled => some (.cancelled, .brokerTerminalCancelled)
  | .rejected => some (.rejected, .brokerTerminalRejected)
  | .expired => some (.expired, .brokerTerminalExpired)
  | _ => none

/-- The intent status an acknowledgement leads to. -/
def acknowledgedStatus : LifecycleState → IntentStatus
  | .cancelled => .cancelled
  | .rejected => .failed
  | .expired => .failed
  | _ => .submitted

/-- The text of a terminal state of a reservation. -/
def ReservationTerminalState.name : ReservationTerminalState → String
  | filled => "filled"
  | cancelled => "cancelled"
  | rejected => "rejected"
  | expired => "expired"
  | closed => "closed"
  | failedTerminal => "failed_terminal"

/-- The terminal transition of a reservation. -/
def terminalTransition (reservationId intentId : String) (state : ReservationTerminalState)
    (reason : ReleaseReason) (now : Time) : ReservationTransition where
  id := "reservation_transition_" ++
    Hashing.stableRecordId "reservation_terminal" (reservationId ++ ":" ++ state.name)
  reservationId
  orderIntentId := some intentId
  terminalState := state
  releaseReason := reason
  idempotencyKey := intentId ++ ":" ++ state.name
  occurredAt := now

/-- The release of the reservation of an order the broker refused at once: the reservation, the
counter it is part of and its terminal transition must all change. -/
def releaseTerminalReservation (db : Db) (reservationId intentId : String) (session : Session)
    (state : ReservationTerminalState) (reason : ReleaseReason) (now : Time) :
    Except String Db := do
  match db.reservations.get? reservationId with
  | none => throw "POSTGRES_EXECUTION_TERMINAL_RESERVATION_RELEASE_FAILED"
  | some r =>
    require (r.status.live && fenceHeld db session &&
        decide (adjustCount db.allocations r.accountId r.strategyKey = 1))
      "POSTGRES_EXECUTION_TERMINAL_RESERVATION_RELEASE_FAILED"
    let reservationTransitions ← db.reservationTransitions.insertOne
      (terminalTransition reservationId intentId state reason now)
      "POSTGRES_EXECUTION_TERMINAL_RESERVATION_RELEASE_FAILED"
    return { db with
      reservations := db.reservations.modify reservationId
        (Reservation.release .released reason now) (Reservation.release_keeps _ _ _)
      allocations := adjust db.allocations r.accountId r.strategyKey
        (fun x ↦ max 0 (x - r.amount)) 0 now
      reservationTransitions }

/-- What happens to the reservation of an acknowledged order. -/
def settleAcknowledged (db : Db) (intent : Intent) (session : Session) (state : LifecycleState)
    (now : Time) : Except String Db :=
  match intent.reservationId, unfilledTerminal state with
  | none, _ => .ok db
  | some id, some (terminal, reason) =>
    releaseTerminalReservation db id intent.id session terminal reason now
  | some id, none => do
    let reservations ← db.reservations.updateOne id
      (fun r ↦ decide (r.status = .active) && fenceHeld db session)
      (Reservation.commit now) "POSTGRES_EXECUTION_RESERVATION_COMMIT_FAILED"
      (Reservation.commit_keeps now)
    return { db with reservations }

/-- `UPDATE execution_reviews` and `UPDATE confirmation_evidence` to `consumed`, from the given
statuses. -/
def consumeEvidence (db : Db) (intent : Intent) (session : Session) (now : Time)
    (reviewStatuses : List ReviewStatus) (confirmationStatuses : List ConfirmationStatus) :
    Except String Db := do
  let reviews ← db.reviews.updateOne (intent.executionReviewId.getD "")
    (fun r ↦ decide (r.status ∈ reviewStatuses) && fenceHeld db session)
    (fun r ↦ { r with status := .consumed, consumedAt := some now, updatedAt := now })
    "POSTGRES_EXECUTION_REVIEW_CONSUMPTION_FAILED"
  let confirmations ← db.confirmations.updateOne (intent.confirmationEvidenceId.getD "")
    (fun c ↦ decide (c.status ∈ confirmationStatuses) && fenceHeld db session)
    (fun c ↦ { c with status := .consumed, consumedAt := some now, updatedAt := now })
    "POSTGRES_EXECUTION_CONFIRMATION_CONSUMPTION_FAILED"
  return { db with reviews, confirmations }

/-- The broker's own time of an order, its submission or else its creation. -/
def AlpacaSubmittedOrder.placedAt (data : AlpacaSubmittedOrder) : BrokerTime :=
  data.submittedAt.orElseTruthy data.createdAt

/-- The time an acknowledgement occurred, with the text it is identified by. -/
def occurrence (stamp : BrokerTime) (receivedAt : Time) : Except String (String × Time) :=
  if stamp.raw = "" then .ok (Hashing.toISOString receivedAt, receivedAt)
  else match stamp.instant with
    | some t => .ok (stamp.raw, t)
    | none => .error "invalid input syntax for type timestamp with time zone"

/-- The identifier of an order row. -/
def orderIdFor (accountId brokerOrderId : String) : String :=
  "order_" ++ Hashing.stableRecordId "alpaca_order" (accountId ++ ":" ++ brokerOrderId)

/-- What a recorded submission reports. -/
structure RecordedSubmission where
  orderId : String
  brokerOrderId : String
  status : String
  mutationReceipt : BrokerMutationReceipt
deriving DecidableEq

/-- The order row of an acknowledgement. -/
def acknowledgedOrder (intent : Intent) (data : AlpacaSubmittedOrder) (orderId brokerOrderId
    status : String) (occurredAt : Time) : Except String Order := do
  let quantity ← (data.qty.orElse (.ofStored intent.quantity)).column
  let notional ← (data.notional.orElse (.ofStored intent.notional)).column
  let limitPrice ← (data.limitPrice.orElse (.ofStored intent.limitPrice)).column
  let stopPrice ← (data.stopPrice.orElse (.ofStored intent.stopPrice)).column
  let filledQuantity ← (data.filledQty.orElse (.value 0)).column
  let filledAveragePrice ← data.filledAvgPrice.column
  let order : Order :=
    { id := orderId
      accountId := intent.accountId
      orderIntentId := intent.id
      brokerOrderId := some brokerOrderId
      clientOrderId := intent.clientOrderId
      symbol := intent.symbol
      assetClass := intent.assetClass
      side := intent.side
      orderType := intent.orderType
      timeInForce := intent.timeInForce
      status
      quantity
      notional
      limitPrice
      stopPrice
      filledQuantity := filledQuantity.getD 0
      filledAveragePrice
      submittedAt := some occurredAt
      lastBrokerUpdateAt := some occurredAt
      createdAt := occurredAt
      updatedAt := occurredAt }
  require order.financialValuesValid "orders_financial_values_valid"
  return order

/-- `recordSubmission`. -/
def recordSubmission (db : Db) (row : AutonomousExecutionIntentRow)
    (data : AlpacaSubmittedOrder) (httpStatus : Int) (receipt : BrokerMutationReceipt)
    (session : Session) (receivedAt : Time) : Except String (Db × RecordedSubmission) := do
  let brokerOrderId := data.id.text
  let status := Text.toLowerCase data.status.text
  require (brokerOrderId ≠ "" ∧ data.clientOrderId.text = row.intent.clientOrderId ∧ status ≠ "")
    "POSTGRES_BROKER_SUBMISSION_IDENTITY_INCOMPLETE"
  let orderId := orderIdFor row.intent.accountId brokerOrderId
  let (stamp, occurredAt) ← occurrence data.placedAt receivedAt
  let state := lifecycleStateForBrokerStatus row.review.reviewType status
  let outcome : BrokerMutationOutcome :=
    if status = "rejected" then .submissionRejected else .submissionAcknowledged
  let acknowledged := receiptWithOutcome receipt outcome state (some brokerOrderId)
    (some receivedAt)
  let order ← acknowledgedOrder row.intent data orderId brokerOrderId status occurredAt
  require (fenceHeld db session) "POSTGRES_BROKER_ORDER_LINEAGE_CONFLICT"
  let orders ← db.orders.insertOne order "POSTGRES_BROKER_ORDER_LINEAGE_CONFLICT"
  let event : BrokerEvent :=
    { eventId := "broker_event_" ++ Hashing.stableRecordId "alpaca_broker_event"
        (orderId ++ ":" ++ status ++ ":" ++ stamp)
      accountId := row.intent.accountId
      orderId := some orderId
      orderIntentId := some row.intent.id
      brokerOrderId := some brokerOrderId
      clientOrderId := some row.intent.clientOrderId
      eventType := .orderSubmission
      eventStatus := outcome.name
      httpStatus := some httpStatus
      occurredAt
      receivedAt := max receivedAt occurredAt }
  require event.valid "broker_events_http_status_valid"
  let events ← db.events.insertOne event
    "POSTGRES_MUTATION_RECEIPT_ACKNOWLEDGEMENT_PERSISTENCE_FAILED"
  let intents ← db.intents.updateOne row.intent.id
    (fun i ↦ decide (i.status = .submissionPending) && fenceHeld db session)
    (fun i ↦ { i with
      status := acknowledgedStatus state
      lifecycleState := state
      submittedAt := some receivedAt
      terminalAt := if (unfilledTerminal state).isSome then some receivedAt else i.terminalAt
      reservationReleaseReason :=
        (unfilledTerminal state).map Prod.snd <|> i.reservationReleaseReason
      updatedAt := receivedAt
      version := i.version + 1 })
    "POSTGRES_EXECUTION_RESULT_PERSISTENCE_FAILED"
  let db₁ ← settleAcknowledged { db with orders, events, intents } row.intent session state
    receivedAt
  let db₂ ← consumeEvidence db₁ row.intent session receivedAt [.valid] [.valid]
  let db₃ ← persistCandidateExecutionStage db₂ row.intent.candidateId session receivedAt
    (if (unfilledTerminal state).isSome then "execution_deferred" else "executed")
    (if (unfilledTerminal state).isSome then "PAPER_ORDER_" ++ Text.toUpperCase status
      else "PAPER_ORDER_SUBMITTED")
  return (db₃, { orderId, brokerOrderId, status, mutationReceipt := acknowledged })

/-! ## After a failure -/

/-- An event of a submission that ended without an order. -/
def submissionEvent (intent : Intent) (scope status classification : String) (now : Time) :
    BrokerEvent where
  eventId := "broker_event_" ++ Hashing.stableRecordId scope
    (intent.accountId ++ ":" ++ intent.clientOrderId ++ ":" ++ Hashing.toISOString now)
  accountId := intent.accountId
  orderIntentId := some intent.id
  clientOrderId := some intent.clientOrderId
  eventType := .orderSubmission
  eventStatus := status
  errorClassification := some classification
  occurredAt := now
  receivedAt := now

/-- `recordAmbiguousSubmission`. -/
def recordAmbiguousSubmission (db : Db) (row : AutonomousExecutionIntentRow)
    (receipt : BrokerMutationReceipt) (session : Session) (now : Time)
    (errorClassification : String) : Except String (Db × BrokerMutationReceipt) := do
  let intents ← db.intents.updateOne row.intent.id
    (fun i ↦ decide (i.status = .submissionPending) && fenceHeld db session)
    (fun i ↦ { i with
      status := .ambiguous
      lifecycleState := ambiguousState row.review.reviewType
      updatedAt := now
      version := i.version + 1 })
    "POSTGRES_BROKER_SUBMISSION_AMBIGUITY_PERSISTENCE_FAILED"
  let events ← db.events.insertOne
    (submissionEvent row.intent "alpaca_broker_submission_ambiguous"
      receipt.outcomeClassification.name errorClassification now)
    "POSTGRES_BROKER_SUBMISSION_AMBIGUITY_PERSISTENCE_FAILED"
  let db' ← persistCandidateExecutionStage { db with intents, events } row.intent.candidateId
    session now "execution_ambiguous" "POSTGRES_BROKER_SUBMISSION_AMBIGUOUS"
  return (db', receipt)

/-- `recordDeterministicSubmissionFailure`. -/
def recordDeterministicSubmissionFailure (db : Db) (row : AutonomousExecutionIntentRow)
    (receipt : BrokerMutationReceipt) (session : Session) (now : Time) :
    Except String (Db × BrokerMutationReceipt) := do
  let intents ← db.intents.updateOne row.intent.id
    (fun i ↦ decide (i.status = .submissionPending) && fenceHeld db session)
    (fun i ↦ { i with
      status := .failed
      lifecycleState := .failedTerminal
      terminalAt := some now
      updatedAt := now
      version := i.version + 1 })
    "POSTGRES_BROKER_SUBMISSION_REJECTION_PERSISTENCE_FAILED"
  let events ← db.events.insertOne
    (submissionEvent row.intent "alpaca_broker_submission_rejected" "submission_rejected"
      "deterministic_broker_rejection" now)
    "POSTGRES_MUTATION_RECEIPT_REJECTION_PERSISTENCE_FAILED"
  return ({ db with intents, events },
    receiptWithOutcome receipt .submissionRejected .failedTerminal)

/-- What the recovery of an ambiguous submission found. -/
structure RecoveredOrder where
  orderId : String
  brokerOrderId : String
  brokerStatus : String
deriving DecidableEq

/-- `recordReconciledSubmissionReceipt`, with the candidate stage written in the same
transaction. -/
def recordReconciledSubmissionReceipt (db : Db) (row : AutonomousExecutionIntentRow)
    (receipt : BrokerMutationReceipt) (recovery : RecoveredOrder) (session : Session)
    (now : Time) : Except String (Db × BrokerMutationReceipt) := do
  let reconciled := receiptWithOutcome receipt .submissionReconciled
    (lifecycleStateForBrokerStatus row.review.reviewType recovery.brokerStatus)
    (some recovery.brokerOrderId) (some now)
  require (fenceHeld db session) "POSTGRES_MUTATION_RECEIPT_RECONCILIATION_PERSISTENCE_FAILED"
  let events ← db.events.insertOne
    { eventId := "broker_event_" ++ Hashing.stableRecordId
        "alpaca_broker_submission_receipt_reconciled"
        (row.intent.accountId ++ ":" ++ row.intent.clientOrderId ++ ":" ++
          recovery.brokerOrderId)
      accountId := row.intent.accountId
      orderId := some recovery.orderId
      orderIntentId := some row.intent.id
      brokerOrderId := some recovery.brokerOrderId
      clientOrderId := some row.intent.clientOrderId
      eventType := .orderSubmissionReceipt
      eventStatus := "submission_reconciled"
      occurredAt := now
      receivedAt := now }
    "POSTGRES_MUTATION_RECEIPT_RECONCILIATION_PERSISTENCE_FAILED"
  let db₁ ← consumeEvidence { db with events } row.intent session now [.valid, .expired]
    [.valid, .expired]
  let db₂ ← persistCandidateExecutionStage db₁ row.intent.candidateId session now "executed"
    "PAPER_ORDER_RECOVERED_BY_CLIENT_ID"
  return (db₂, reconciled)

end Record

end AlpacaTrading
