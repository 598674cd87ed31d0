import Mathlib.Data.List.Sort
import AlpacaTrading.Execution.Submission

/-!
# Broker observations

Reconciliation lists its targets, looks each of them up at the broker and stores what it saw.
The store step is one statement with many parts: it locks the intent, checks that its lifecycle
state is still the one the path starts from, upserts the order, appends the lifecycle
transitions, moves the intent and appends the event.  For a partial fill of an order with a
reservation it also shrinks the reservation to the unfilled part and moves the difference from
the reserved to the deployed counter.

The statement commits by itself.  The service inspects the row counts it returns and may throw
afterwards, with the writes already made; the model therefore returns the new state and the
verdict separately.
-/

namespace AlpacaTrading

/-! ## Targets -/

/-- A row of `targetsSql`: the columns of the intent as they were read, with those of its latest
order. -/
structure Target where
  intent : Intent
  reviewType : ReviewType
  brokerOrderId : Option String
  priorFilledQuantity : Option ℚ
deriving DecidableEq

/-- The latest order of an intent, `ORDER BY created_at DESC, id DESC`. -/
def latestOrder (db : Db) (intentId : String) : Option Order :=
  firstBy (fun a b ↦ b.createdAt < a.createdAt ∨ (a.createdAt = b.createdAt ∧ b.id < a.id))
    (db.orders.rows.filter fun o ↦ o.orderIntentId = intentId)

/-- The intent has a live reservation that no terminal transition has ended. -/
def unsettledReservation (db : Db) (intent : Intent) : Bool :=
  intent.reservationId.any fun id ↦
    (db.reservations.get? id).any (·.status.live) &&
    (db.reservationTransitions.get? id).isNone

/-- The status conjunct of `targetsSql`. -/
def reconcilable (db : Db) (intent : Intent) : Bool :=
  decide (intent.status ∈ [.submissionPending, .submitted, .ambiguous]) ||
  (decide (intent.status = .reconciled) && unsettledReservation db intent)

/-- The target row of an intent. -/
def targetOf (db : Db) (intent : Intent) : Option Target := do
  let review ← db.reviews.get? (← intent.executionReviewId)
  let order := latestOrder db intent.id
  return {
    intent
    reviewType := review.reviewType
    brokerOrderId := order.bind (·.brokerOrderId)
    priorFilledQuantity := order.map (·.filledQuantity) }

/-- `targetsSql`: the reconcilable intents, oldest first; the empty filter admits them all. -/
def listTargets (db : Db) (clientOrderId : String) : List Target :=
  ((db.intents.rows.filter fun i ↦ reconcilable db i &&
      decide (clientOrderId = "" ∨ i.clientOrderId = clientOrderId)).filterMap
    (targetOf db)).insertionSort fun a b ↦ a.intent.olderOrSame b.intent = true

/-! ## Reading the answer -/

/-- What a broker answer says about a target. -/
structure Observation where
  brokerId : String
  status : String
  occurredRaw : String
  occurredAt : Time
  /-- The lifecycle path, with the current state first. -/
  path : List LifecycleState
  /-- The last state of the path. -/
  state : LifecycleState
  symbol : String
  filled : BrokerNumber
  ordered : BrokerNumber
  prior : ℚ
  notional : BrokerNumber
  limitPrice : BrokerNumber
  filledAveragePrice : BrokerNumber
  submittedAt : BrokerTime
  httpStatus : Int
deriving DecidableEq

/-- The intent status an observation leads to. -/
def Observation.intentStatus (obs : Observation) : IntentStatus :=
  if obs.status ∈ terminalStatuses then .reconciled else .submitted

/-- The broker's time of an observation. -/
def AlpacaSubmittedOrder.observedAt (data : AlpacaSubmittedOrder) : BrokerTime :=
  data.filledAt.orElse (data.canceledAt.orElse (data.cancelledAt.orElse (data.expiredAt.orElse
    (data.updatedAt.orElse data.submittedAt))))

/-- The intent update of an observation. -/
def Intent.observe (obs : Observation) (submittedAt : Option Time) (now : Time) (i : Intent) :
    Intent :=
  { i with
    status := obs.intentStatus
    lifecycleState := obs.state
    submittedAt := i.submittedAt <|> submittedAt
    terminalAt := if obs.intentStatus = .reconciled then some now else i.terminalAt
    updatedAt := now
    version := i.version + 1 }

theorem Intent.observe_keeps (obs : Observation) (submittedAt : Option Time) (now : Time) :
    Keeps (Intent.observe obs submittedAt now) :=
  ⟨fun _ ↦ rfl, fun _ _ ↦ Iff.rfl⟩

section Observe

variable [Hashing]

/-- The observation of a target, or the error thrown while reading the answer. -/
def readObservation (target : Target) (response : AlpacaApiResponse) (now : Time) :
    Except String Observation := do
  let data ← match response.data with
    | some data => Except.ok data
    | none => .error "Cannot read properties of null"
  let brokerId ← data.id.required "POSTGRES_RECONCILIATION_BROKER_ID_MISSING"
  let clientId ← data.clientOrderId.required "POSTGRES_RECONCILIATION_CLIENT_ID_MISSING"
  require (clientId = target.intent.clientOrderId ∧ target.brokerOrderId.all (· = brokerId))
    "POSTGRES_RECONCILIATION_BROKER_IDENTITY_MISMATCH"
  let status := Text.toLowerCase
    (← data.status.required "POSTGRES_RECONCILIATION_STATUS_MISSING")
  require (target.intent.status ≠ .reconciled ∨ status ∈ terminalStatuses)
    "POSTGRES_RECONCILIATION_TERMINAL_SETTLEMENT_STATE_INVALID"
  let stamp := data.observedAt.orElse (.text (Hashing.toISOString now) (some now))
  require (stamp.raw ≠ "") "POSTGRES_RECONCILIATION_TIMESTAMP_MISSING"
  let path ← resolveBrokerReconciliationLifecyclePath target.intent.lifecycleState
    target.reviewType status
  let symbol ← (match data.symbol with
    | .absent => BrokerText.str target.intent.symbol
    | symbol => symbol).required "POSTGRES_RECONCILIATION_SYMBOL_MISSING"
  let occurredAt ← match stamp.instant with
    | some t => Except.ok t
    | none => .error "Invalid time value"
  return {
    brokerId
    status
    occurredRaw := stamp.raw
    occurredAt
    path
    state := path.getLast?.getD target.intent.lifecycleState
    symbol
    filled := data.filledQty.optional.orElse (.value 0)
    ordered := (data.qty.orElse (.ofStored target.intent.quantity)).optional
    prior := target.priorFilledQuantity.getD 0
    notional := (data.notional.orElse (.ofStored target.intent.notional)).optional
    limitPrice := (data.limitPrice.orElse (.ofStored target.intent.limitPrice)).optional
    filledAveragePrice := data.filledAvgPrice.optional
    submittedAt := data.submittedAt
    httpStatus := response.status }

/-! ## The order -/

/-- The order row an observation inserts. -/
def observedOrder (target : Target) (obs : Observation) : Except String Order := do
  let quantity ← obs.ordered.column
  let notional ← obs.notional.column
  let limitPrice ← obs.limitPrice.column
  let filled ← obs.filled.column
  let filledAveragePrice ← obs.filledAveragePrice.column
  let submittedAt ← match obs.submittedAt with
    | .absent => Except.ok none
    | .text raw t =>
      if raw = "" then .ok none
      else if t.isNone then .error "invalid input syntax for type timestamp with time zone"
      else .ok t
  return {
    id := orderIdFor target.intent.accountId obs.brokerId
    accountId := target.intent.accountId
    orderIntentId := target.intent.id
    brokerOrderId := some obs.brokerId
    clientOrderId := target.intent.clientOrderId
    symbol := obs.symbol
    assetClass := target.intent.assetClass
    side := target.intent.side
    orderType := target.intent.orderType
    timeInForce := target.intent.timeInForce
    status := obs.status
    quantity
    notional
    limitPrice
    filledQuantity := filled.getD 0
    filledAveragePrice
    submittedAt
    lastBrokerUpdateAt := some obs.occurredAt
    createdAt := obs.occurredAt
    updatedAt := obs.occurredAt }

/-- `GREATEST` on nullable instants. -/
def greatest (a b : Option Time) : Option Time :=
  match a, b with
  | some s, some t => some (max s t)
  | some s, none => some s
  | none, t => t

/-- `ON CONFLICT (account_id, client_order_id) DO UPDATE`. -/
def Order.observeAgain (new old : Order) : Order :=
  { old with
    brokerOrderId := new.brokerOrderId
    status := new.status
    quantity := new.quantity
    notional := new.notional
    limitPrice := new.limitPrice
    filledQuantity := new.filledQuantity
    filledAveragePrice := new.filledAveragePrice
    lastBrokerUpdateAt := greatest old.lastBrokerUpdateAt new.lastBrokerUpdateAt
    updatedAt := max old.updatedAt (max old.createdAt new.updatedAt) }

/-- The stored order of the same account and client order id. -/
def Order.conflicts (new old : Order) : Bool :=
  old.accountId = new.accountId ∧ old.clientOrderId = new.clientOrderId

/-- The upsert of `orders`: the new table and the identifier of the stored row.  The row proposed
for insertion has to satisfy the check constraints even when it only updates another. -/
def upsertOrder (t : Table Order) (new : Order) : Except String (Table Order × String) := do
  require new.financialValuesValid "orders_financial_values_valid"
  match t.rows.find? new.conflicts with
  | some old =>
    require (new.observeAgain old).financialValuesValid "orders_financial_values_valid"
    match t.update? new.conflicts new.observeAgain with
    | some t' => return (t', old.id)
    | none => throw "orders_broker_order_idx"
  | none =>
    let t' ← t.insertOne new "orders_pkey"
    return (t', new.id)

/-! ## The statement -/

/-- The reservation part of a partial fill: the reservation with the amount it keeps and the
amount that moves to the deployed counter. -/
structure Resize where
  reservation : Reservation
  remaining : ℚ
  settled : ℚ

/-- The `resized` subquery: the fill grew, is not complete, and the counter covers what moves. -/
def resize? (db : Db) (reservation : Reservation) (filled ordered prior : ℚ) : Option Resize := do
  let allocation ← currentAllocation db reservation.accountId reservation.strategyKey
  let remaining := reservation.amount * ((ordered - filled) / (ordered - prior))
  if prior < filled ∧ filled < ordered ∧
      reservation.amount - remaining ≤ allocation.reservedAmount then
    some { reservation, remaining, settled := reservation.amount - remaining }
  else none

/-- The quantities of a partial fill, checked by the service. -/
def partialQuantities (obs : Observation) : Except String (ℚ × ℚ) :=
  match obs.filled.number, obs.ordered.number with
  | some filled, some ordered =>
    if ordered ≤ 0 ∨ obs.prior < 0 ∨ filled < obs.prior ∨ ordered ≤ filled then
      .error "POSTGRES_RECONCILIATION_PARTIAL_QUANTITY_INVALID"
    else .ok (filled, ordered)
  | _, _ => .error "POSTGRES_RECONCILIATION_PARTIAL_QUANTITY_INVALID"

/-- The statuses in which the observation statement accepts an intent. -/
def observableStatuses : List IntentStatus :=
  [.submissionPending, .submitted, .ambiguous, .reconciled]

/-- The lifecycle transition rows of a path, numbered from one. -/
def transitionRows (target : Target) (obs : Observation) (now : Time) :
    List LifecycleTransition :=
  (obs.path.zip obs.path.tail).zipIdx.map fun ((fromState, toState), n) ↦
    { id := "lifecycle_transition_" ++ Hashing.stableRecordId "broker_reconciliation"
        (target.intent.id ++ ":" ++ obs.state.name ++ ":" ++ obs.brokerId) ++ ":" ++
        toString (n + 1)
      orderIntentId := target.intent.id
      fromState
      toState
      idempotencyKey := "broker-reconciliation:" ++ obs.brokerId ++ ":" ++ obs.state.name ++
        ":" ++ toString (n + 1)
      occurredAt := now }

/-- `INSERT … ON CONFLICT (order_intent_id, idempotency_key) DO NOTHING` for several rows: the new
table and the number of rows stored. -/
def appendTransitions (t : Table LifecycleTransition) :
    List LifecycleTransition → Except String (Table LifecycleTransition × Nat)
  | [] => .ok (t, 0)
  | r :: rest =>
    if t.rows.any fun x ↦ x.orderIntentId = r.orderIntentId ∧
        x.idempotencyKey = r.idempotencyKey then
      appendTransitions t rest
    else do
      let t' ← t.insertOne r "autonomous_trade_lifecycle_transitions_pkey"
      let (t'', n) ← appendTransitions t' rest
      return (t'', n + 1)

/-- The event of an observation. -/
def observationEvent (target : Target) (obs : Observation) (orderId : String) (now : Time) :
    BrokerEvent where
  eventId := "broker_event_" ++ Hashing.stableRecordId "reconciliation"
    (obs.brokerId ++ ":" ++ obs.status ++ ":" ++ obs.occurredRaw)
  accountId := target.intent.accountId
  orderId := some orderId
  orderIntentId := some target.intent.id
  brokerOrderId := some obs.brokerId
  clientOrderId := some target.intent.clientOrderId
  eventType := .reconciliation
  eventStatus := obs.status
  httpStatus := some obs.httpStatus
  occurredAt := obs.occurredAt
  receivedAt := now

/-- `INSERT … ON CONFLICT (event_id) DO NOTHING`: the new table and whether a row was stored. -/
def appendEvent (t : Table BrokerEvent) (e : BrokerEvent) :
    Except String (Table BrokerEvent × Bool) := do
  require e.valid "broker_events_received_after_occurred"
  match t.insert? e with
  | none => return (t, false)
  | some t' => return (t', true)

/-- The row counts the observation statement returns. -/
structure ObserveCounts where
  storedOrder : Bool
  updatedIntent : Bool
  transitions : Nat
  event : Bool
  partialReservation : Bool
deriving DecidableEq

/-- The counts of a statement whose guard admitted nothing. -/
def ObserveCounts.nothing : ObserveCounts := ⟨false, false, 0, false, false⟩

/-- The reservation and counter updates of a partial fill. -/
def applyResize (db : Db) (now : Time) : Option Resize → Except String Db
  | none => .ok db
  | some z =>
    if h : 0 < z.remaining then
      .ok { db with
        reservations := db.reservations.modify z.reservation.id
          (Reservation.resize z.remaining h now) (Reservation.resize_keeps _ _ _)
        allocations := adjust db.allocations z.reservation.accountId z.reservation.strategyKey
          (· - z.settled) z.settled now }
    else .error "buying_power_reservations_amount_positive"

/-- The writes of the observation statement, once its guards hold. -/
def storeObservation (db : Db) (target : Target) (obs : Observation) (now : Time)
    (resized : Option Resize) : Except String (Db × ObserveCounts) := do
  let order ← observedOrder target obs
  let (orders, orderId) ← upsertOrder db.orders order
  let db₁ ← applyResize { db with orders } now resized
  let (lifecycleTransitions, transitions) ←
    appendTransitions db₁.lifecycleTransitions (transitionRows target obs now)
  let db₂ := { db₁ with lifecycleTransitions }
  let counts : ObserveCounts :=
    { storedOrder := true, updatedIntent := false, transitions, event := false,
      partialReservation := resized.isSome }
  if transitions = obs.path.tail.length then do
    let (events, event) ← appendEvent db₂.events (observationEvent target obs orderId now)
    return ({ db₂ with
        events
        intents := db₂.intents.modify target.intent.id
          (Intent.observe obs order.submittedAt now) (Intent.observe_keeps _ _ _) },
      { counts with updatedIntent := true, event })
  else return (db₂, counts)

/-- The intent the observation statement locks. -/
def lockedIntent (db : Db) (session : Session) (id : String) : Option Intent :=
  (db.intents.get? id).filter fun i ↦
    decide (i.status ∈ observableStatuses) && fenceHeld db session

/-- The reservation the partial statement locks. -/
def lockedReservation (db : Db) (id : String) : Option Reservation :=
  (db.reservations.get? id).filter (·.status.live)

/-- The observation statement without the reservation part. -/
def observeStatement (db : Db) (session : Session) (target : Target) (obs : Observation)
    (now : Time) : Except String (Db × ObserveCounts) :=
  match lockedIntent db session target.intent.id with
  | none => .ok (db, .nothing)
  | some current =>
    -- Both alternatives of the guard say that the stored state is where the path starts.
    if obs.path.head? = some current.lifecycleState then
      storeObservation db target obs now none
    else .ok (db, .nothing)

/-- The observation statement for a partial fill of an order with a reservation. -/
def partialStatement (db : Db) (session : Session) (target : Target) (obs : Observation)
    (reservationId : String) (filled ordered : ℚ) (now : Time) :
    Except String (Db × ObserveCounts) :=
  match lockedIntent db session target.intent.id with
  | none => .ok (db, .nothing)
  | some current =>
    let resized := (lockedReservation db reservationId).bind fun r ↦
      resize? db r filled ordered obs.prior
    if obs.path.head? = some current.lifecycleState ∧
        (filled = obs.prior ∨ resized.any fun z ↦ 0 < z.settled) then
      storeObservation db target obs now (resized.filter fun z ↦ 0 < z.settled)
    else .ok (db, .nothing)

/-- Storing an observation: the statement and the checks on its row counts.  The state is the one
left behind whether or not the checks throw. -/
def observe (db : Db) (session : Session) (target : Target) (obs : Observation) (now : Time) :
    Db × Except String Bool :=
  match target.intent.reservationId with
  | some reservationId =>
    if obs.status = "partially_filled" then
      match partialQuantities obs with
      | .error code => (db, .error code)
      | .ok (filled, ordered) =>
        match partialStatement db session target obs reservationId filled ordered now with
        | .error code => (db, .error code)
        | .ok (db', counts) =>
          if counts.storedOrder ∧ counts.updatedIntent ∧
              counts.transitions = obs.path.tail.length ∧
              counts.partialReservation = decide (filled ≠ obs.prior) then
            (db', .ok counts.event)
          else (db', .error "POSTGRES_RECONCILIATION_PARTIAL_RESERVATION_FAILED")
    else observeOther db session target obs now
  | none => observeOther db session target obs now
where
  /-- The branch for every other observation. -/
  observeOther (db : Db) (session : Session) (target : Target) (obs : Observation) (now : Time) :
      Db × Except String Bool :=
    match observeStatement db session target obs now with
    | .error code => (db, .error code)
    | .ok (db', counts) =>
      if counts.storedOrder ∧ counts.updatedIntent ∧
          counts.transitions = obs.path.tail.length then
        (db', .ok counts.event)
      else (db', .error "POSTGRES_RECONCILIATION_INTENT_PERSISTENCE_FAILED")

end Observe

end AlpacaTrading
