import AlpacaTrading.Broker.OrderStatus
import AlpacaTrading.Execution.CapacityAgreement
import AlpacaTrading.Store.Ledger

/-!
# Broker results

`recordBrokerResult` of the execution-state repository stores what the broker says about the order
of an intent.  It runs in a transaction of its caller: it returns a result, or it throws and leaves
nothing behind.

## Guards against regressions

Results arrive late, twice and out of order.  An event that is stored already is acknowledged and
changes nothing.  A new event is refused when its fill is below the stored one, when its status
would move an ended intent, or when it would move an ended order; the upsert itself keeps the
larger fill.

## Statuses without a meaning

`orderIntentStatus` maps every status it does not list to `failed`, also those the classifier of
broker statuses calls active.  `broker_results_replay_safe` is therefore a theorem about results
whose status is listed or terminal.
-/

namespace AlpacaTrading

/-! ## Results -/

/-- `orderIntentStatus`. -/
def orderIntentStatus (status : String) : IntentStatus :=
  let normalized := Text.toLowerCase (Text.trim status)
  if normalized = "filled" then .reconciled
  else if normalized ∈ ["new", "accepted", "pending_new", "partially_filled"] then .submitted
  else if normalized ∈ ["ambiguous", "timeout", "unknown"] then .ambiguous
  else if normalized ∈ ["cancelled", "canceled", "expired"] then .cancelled
  else .failed

/-- `BrokerResultInput`. -/
structure BrokerResultInput where
  eventId : String
  orderId : String
  orderIntentId : String
  brokerOrderId : Option String := none
  clientOrderId : String
  brokerClientOrderId : Option String := none
  replacesBrokerOrderId : Option String := none
  symbol : String
  assetClass : AssetClass := .equity
  side : OrderSide := .buy
  orderType : OrderType := .market
  timeInForce : TimeInForce := .day
  status : String
  quantity : Option ℚ := none
  notional : Option ℚ := none
  limitPrice : Option ℚ := none
  stopPrice : Option ℚ := none
  brokerQuantity : Option ℚ := none
  brokerNotional : Option ℚ := none
  brokerLimitPrice : Option ℚ := none
  brokerStopPrice : Option ℚ := none
  filledQuantity : ℚ
  filledAveragePrice : Option ℚ := none
  httpStatus : Option Int := none
  errorClassification : Option String := none
  responseFingerprint : String
  occurredAt : Time
  receivedAt : Time
deriving DecidableEq

/-- What a call that does not throw returns. -/
inductive BrokerResultOutcome where
  | fenceRejected | duplicate | recorded
deriving DecidableEq

namespace BrokerResultInput

variable (input : BrokerResultInput)

/-- The client order id the broker uses. -/
def brokerClientId : String := input.brokerClientOrderId.getD input.clientOrderId

/-- The `identity_matches` column. -/
def matchesIntent (i : Intent) : Bool :=
  decide (i.clientOrderId = input.clientOrderId ∧ i.symbol = input.symbol ∧
    i.assetClass = input.assetClass ∧ i.side = input.side ∧ i.orderType = input.orderType ∧
    i.timeInForce = input.timeInForce ∧ i.quantity = input.quantity ∧
    i.notional = input.notional ∧ i.limitPrice = input.limitPrice ∧ i.stopPrice = input.stopPrice)

/-- The event is the stored one. -/
def replays (e : BrokerEvent) : Bool :=
  decide (e.responseFingerprint = input.responseFingerprint ∧ e.orderId = some input.orderId ∧
    e.orderIntentId = some input.orderIntentId)

/-- The result is about an order that replaces the stored one. -/
def replacement (stored : Option Order) : Bool :=
  stored.any fun o ↦ o.id ≠ input.orderId ∧ o.brokerOrderId.isSome ∧
    input.replacesBrokerOrderId = o.brokerOrderId

/-- The stored order is another one. -/
def mismatches (o : Order) : Bool :=
  decide (o.id ≠ input.orderId) || decide (o.clientOrderId ≠ input.brokerClientId) ||
  (o.brokerOrderId.isSome && input.brokerOrderId.isSome &&
    decide (o.brokerOrderId ≠ input.brokerOrderId))

/-- The result would undo what is stored. -/
def regresses (i : Intent) (stored : Option Order) : Bool :=
  let replacement := input.replacement stored
  (!replacement && stored.any fun o ↦ input.filledQuantity < o.filledQuantity) ||
  (decide (i.status ∈ [.reconciled, .failed, .cancelled]) &&
    decide (orderIntentStatus input.status ≠ i.status)) ||
  (!replacement && stored.any fun o ↦
    Text.toLowerCase o.status ∈ ["filled", "rejected", "cancelled", "canceled", "expired"] ∧
    Text.toLowerCase o.status ≠ Text.toLowerCase input.status)

/-- The order row proposed for insertion. -/
def order (accountId : String) (stored : Option Order) : Order where
  id := input.orderId
  accountId
  orderIntentId := input.orderIntentId
  brokerOrderId := input.brokerOrderId
  clientOrderId := input.brokerClientId
  parentOrderId := if input.replacement stored then stored.map (·.id) else none
  symbol := input.symbol
  assetClass := input.assetClass
  side := input.side
  orderType := input.orderType
  timeInForce := input.timeInForce
  status := input.status
  quantity := input.brokerQuantity <|> input.quantity
  notional := input.brokerNotional <|> input.notional
  limitPrice := input.brokerLimitPrice <|> input.limitPrice
  stopPrice := input.brokerStopPrice <|> input.stopPrice
  filledQuantity := input.filledQuantity
  filledAveragePrice := input.filledAveragePrice
  submittedAt := some input.occurredAt
  lastBrokerUpdateAt := some input.receivedAt
  createdAt := input.occurredAt
  updatedAt := input.receivedAt

/-- The event row. -/
def event (accountId : String) : BrokerEvent where
  eventId := input.eventId
  accountId
  orderId := some input.orderId
  orderIntentId := some input.orderIntentId
  brokerOrderId := input.brokerOrderId
  clientOrderId := some input.brokerClientId
  eventType := .other "order_response"
  eventStatus := input.status
  httpStatus := input.httpStatus
  errorClassification := input.errorClassification
  responseFingerprint := input.responseFingerprint
  occurredAt := input.occurredAt
  receivedAt := input.receivedAt

end BrokerResultInput

/-! ## Statements -/

/-- The check constraints of `orders` that a result can violate. -/
def Order.resultValid (o : Order) : Bool :=
  o.financialValuesValid && o.status.toList.any (· ≠ ' ') && decide (o.createdAt ≤ o.updatedAt)

/-- `ON CONFLICT (account_id, client_order_id) DO UPDATE`: the larger fill stays. -/
def Order.receiveAgain (new old : Order) : Order :=
  { old with
    brokerOrderId := new.brokerOrderId <|> old.brokerOrderId
    status := new.status
    filledQuantity := max old.filledQuantity new.filledQuantity
    filledAveragePrice := new.filledAveragePrice <|> old.filledAveragePrice
    lastBrokerUpdateAt := new.lastBrokerUpdateAt
    updatedAt := new.updatedAt }

/-- The stored order of the same account and client order id. -/
def Order.sameClient (new old : Order) : Bool :=
  old.accountId = new.accountId ∧ old.clientOrderId = new.clientOrderId

/-- The upsert of `orders`. -/
def receiveOrder (t : Table Order) (new : Order) : Except String (Table Order) := do
  require new.resultValid "orders_financial_values_valid"
  match t.rows.find? new.sameClient with
  | some old =>
    require (new.receiveAgain old).resultValid "orders_financial_values_valid"
    match t.update? new.sameClient new.receiveAgain with
    | some t' => return t'
    | none => throw "orders_broker_order_idx"
  | none => t.insertOne new "orders_pkey"

/-- The current order of the intent: one that was not replaced, the newest first. -/
def currentOrder (db : Db) (intentId : String) : Option Order :=
  firstBy (fun a b ↦ b.createdAt < a.createdAt ∨ (a.createdAt = b.createdAt ∧ b.id < a.id))
    (db.orders.rows.filter fun o ↦ o.orderIntentId = intentId ∧ o.replacementOrderId = none)

/-- The replaced order is linked to its successor. -/
def linkReplacement (t : Table Order) (stored : Option Order) (orderId : String) (now : Time) :
    Except String (Table Order) :=
  match stored with
  | none => .ok t
  | some old => do
    require (t.get? orderId).isSome "orders_replacement_order_id_fkey"
    t.updateOne old.id (fun o ↦ o.replacementOrderId = none)
      (fun o ↦ { o with
        replacementOrderId := some orderId
        status := "replaced"
        updatedAt := now })
      "POSTGRES_BROKER_REPLACEMENT_CHAIN_CONFLICT"

/-- The intent update of a result. -/
def Intent.receive (status : IntentStatus) (now : Time) (i : Intent) : Intent :=
  { i with
    status
    submittedAt :=
      if status ∈ [.submitted, .reconciled] then i.submittedAt <|> some now else i.submittedAt
    terminalAt :=
      if status ∈ [.reconciled, .failed, .cancelled] then some now else i.terminalAt
    updatedAt := now
    version := i.version + 1 }

theorem Intent.receive_keeps (status : IntentStatus) (now : Time) :
    Keeps (Intent.receive status now) :=
  ⟨fun _ ↦ rfl, fun _ _ ↦ Iff.rfl⟩

@[simp]
theorem Intent.receive_status (status : IntentStatus) (now : Time) (i : Intent) :
    (i.receive status now).status = status := rfl

/-- The result commits capital. -/
def IntentStatus.commits (status : IntentStatus) : Bool := status ∈ [.submitted, .reconciled]

/-- The reservation update of a result. -/
def Reservation.receive (status : IntentStatus) (now : Time) (r : Reservation) : Reservation :=
  if status.commits then r.commit now else r.release .released .brokerSubmissionFailed now

theorem Reservation.receive_keeps (status : IntentStatus) (now : Time) :
    Keeps (Reservation.receive status now) := by
  unfold Reservation.receive
  by_cases h : status.commits = true
  · simp only [h, if_true]
    exact Reservation.commit_keeps now
  · simp only [h]
    exact Reservation.release_keeps _ _ _

/-- An active reservation is committed or released, and the counters follow. -/
def receiveReservation (db : Db) (i : Intent) (status : IntentStatus) (now : Time) :
    Except String Db :=
  match i.reservationId.bind db.reservations.get? with
  | none => .ok db
  | some r =>
    if status = .ambiguous ∨ r.status ≠ .active then .ok db
    else do
      require (r.createdAt ≤ now) "buying_power_reservations_timestamp_order"
      return { db with
        reservations := db.reservations.modify r.id (Reservation.receive status now)
          (Reservation.receive_keeps status now)
        allocations := adjust db.allocations i.accountId r.strategyKey
          (fun x ↦ max 0 (x - r.amount)) (if status.commits then r.amount else 0) now }

/-- `recordBrokerResult`. -/
def recordBrokerResult (db : Db) (session : Session) (input : BrokerResultInput) :
    Except String (Db × BrokerResultOutcome) :=
  if !fenceHeld db session then .ok (db, .fenceRejected)
  else
    match db.intents.get? input.orderIntentId with
    | none => .error "POSTGRES_EXECUTION_ORDER_INTENT_NOT_FOUND"
    | some i => do
      require (input.matchesIntent i) "POSTGRES_BROKER_RESULT_INTENT_MISMATCH"
      match db.events.get? input.eventId with
      | some e =>
        require (input.replays e) "POSTGRES_BROKER_EVENT_REPLAY_CONFLICT"
        return (db, .duplicate)
      | none =>
        let stored := currentOrder db input.orderIntentId
        require (input.replacement stored || !(stored.any input.mismatches))
          "POSTGRES_BROKER_RESULT_ORDER_MISMATCH"
        require (!input.regresses i stored) "POSTGRES_BROKER_RESULT_STATUS_REGRESSION"
        let received ← receiveOrder db.orders (input.order i.accountId stored)
        let orders ← linkReplacement received
          (if input.replacement stored then stored else none) input.orderId input.receivedAt
        require (orders.get? input.orderId).isSome "broker_events_order_id_fkey"
        require (input.event i.accountId).valid "broker_events_http_status_valid"
        -- The event was looked up above, so its insertion meets no conflict.
        let events ← db.events.insertOne (input.event i.accountId) "broker_events_pkey"
        let status := orderIntentStatus input.status
        require (i.createdAt ≤ input.receivedAt) "order_intents_updated_after_created"
        let intents := db.intents.modify input.orderIntentId
          (Intent.receive status input.receivedAt) (Intent.receive_keeps _ _)
        let db' ← receiveReservation { db with orders, events, intents } i status input.receivedAt
        return (db', .recorded)

/-- A call, with the session it is made in. -/
structure BrokerResultCall where
  session : Session
  input : BrokerResultInput

/-- The state after a call: an error rolls its transaction back. -/
def BrokerResultCall.commit (call : BrokerResultCall) (db : Db) : Db :=
  match recordBrokerResult db call.session call.input with
  | .ok (db', _) => db'
  | .error _ => db

/-- The state after some calls. -/
def receiveAll (db : Db) (calls : List BrokerResultCall) : Db :=
  calls.foldl (fun db call ↦ call.commit db) db

/-! ## What a call does -/

theorem receiveReservation_ok {db db' : Db} {i : Intent} {status : IntentStatus} {now : Time}
    (h : receiveReservation db i status now = .ok db') :
    db' = db ∨ ∃ r, db.reservations.get? r.id = some r ∧ status ≠ .ambiguous ∧
      r.status = .active ∧
      db' = { db with
        reservations := db.reservations.modify r.id (Reservation.receive status now)
          (Reservation.receive_keeps status now)
        allocations := adjust db.allocations i.accountId r.strategyKey
          (fun x ↦ max 0 (x - r.amount)) (if status.commits then r.amount else 0) now } := by
  unfold receiveReservation at h
  split at h
  · exact Or.inl (Except.ok.inj h).symm
  · next r hr =>
    obtain ⟨id, _, hget⟩ := Option.bind_eq_some_iff.1 hr
    obtain rfl : r.id = id := Table.key_of_get? hget
    split at h
    · exact Or.inl (Except.ok.inj h).symm
    · next hskip =>
      rw [not_or, not_not] at hskip
      simp only [bind_eq_ok] at h
      obtain ⟨_, _, h⟩ := h
      exact Or.inr ⟨r, hget, hskip.1, hskip.2, (Except.ok.inj h).symm⟩

/-- **A call that returns** changed nothing, or recorded its event, with an intent the event does
not take back. -/
theorem recordBrokerResult_ok {db db' : Db} {session : Session} {input : BrokerResultInput}
    {outcome : BrokerResultOutcome}
    (h : recordBrokerResult db session input = .ok (db', outcome)) :
    (db' = db ∧ outcome ≠ .recorded) ∨
      ∃ i stored received orders events, db.intents.get? input.orderIntentId = some i ∧
        db.events.get? input.eventId = none ∧ input.regresses i stored = false ∧
        receiveOrder db.orders (input.order i.accountId stored) = .ok received ∧
        linkReplacement received (if input.replacement stored then stored else none) input.orderId
          input.receivedAt = .ok orders ∧
        db.events.insert? (input.event i.accountId) = some events ∧
        receiveReservation
          { db with
            orders, events
            intents := db.intents.modify input.orderIntentId
              (Intent.receive (orderIntentStatus input.status) input.receivedAt)
              (Intent.receive_keeps _ _) } i (orderIntentStatus input.status) input.receivedAt =
            .ok db' ∧
        outcome = .recorded := by
  unfold recordBrokerResult at h
  split at h
  · obtain ⟨rfl, rfl⟩ := Prod.mk.inj (Except.ok.inj h)
    exact Or.inl ⟨rfl, by decide⟩
  · split at h
    · cases h
    · next i hi =>
      rw [bind_eq_ok] at h
      obtain ⟨_, _, h⟩ := h
      split at h
      · rw [bind_eq_ok] at h
        obtain ⟨_, _, h⟩ := h
        obtain ⟨rfl, rfl⟩ := Prod.mk.inj (Except.ok.inj h)
        exact Or.inl ⟨rfl, by decide⟩
      · next hevent =>
        simp only [bind_eq_ok, require_eq_ok, Table.insertOne_eq_ok] at h
        obtain ⟨_, _, _, hregress, received, hreceive, orders, hlink, _, _, _, _, events, hinsert, _,
          _, db₁, hreservation, h⟩ := h
        obtain ⟨rfl, rfl⟩ := Prod.mk.inj (Except.ok.inj h)
        refine Or.inr ⟨i, _, received, orders, events, hi, hevent, ?_, hreceive, hlink, hinsert,
          hreservation, rfl⟩
        rwa [Bool.not_eq_true'] at hregress

/-- A call that records nothing changes nothing. -/
theorem BrokerResultCall.commit_of_not_recorded {call : BrokerResultCall} {db : Db}
    (h : ∀ db', recordBrokerResult db call.session call.input ≠ .ok (db', .recorded)) :
    call.commit db = db := by
  unfold BrokerResultCall.commit
  split
  · next db' outcome hok =>
    rcases recordBrokerResult_ok hok with ⟨rfl, _⟩ | ⟨_, _, _, _, _, _, _, _, _, _, _, _, rfl⟩
    · rfl
    · exact absurd hok (h db')
  · rfl

/-! ## Fills -/

/-- Stored orders stay and their fills do not shrink. -/
def FillsGrow (t t' : Table Order) : Prop :=
  ∀ o ∈ t.rows, ∃ o' ∈ t'.rows, o'.id = o.id ∧ o.filledQuantity ≤ o'.filledQuantity

theorem FillsGrow.refl (t : Table Order) : FillsGrow t t := fun o ho ↦ ⟨o, ho, rfl, le_rfl⟩

theorem FillsGrow.trans {t₁ t₂ t₃ : Table Order} (h : FillsGrow t₁ t₂) (h' : FillsGrow t₂ t₃) :
    FillsGrow t₁ t₃ := by
  intro o ho
  obtain ⟨o', ho', hid, hfill⟩ := h o ho
  obtain ⟨o'', ho'', hid', hfill'⟩ := h' o' ho'
  exact ⟨o'', ho'', hid'.trans hid, hfill.trans hfill'⟩

theorem receiveOrder_grows {t t' : Table Order} {new : Order}
    (h : receiveOrder t new = .ok t') : FillsGrow t t' := by
  unfold receiveOrder at h
  rw [bind_eq_ok] at h
  obtain ⟨_, _, h⟩ := h
  split at h
  · rw [bind_eq_ok] at h
    obtain ⟨_, _, h⟩ := h
    split at h
    · next t₁ hupdate =>
      obtain rfl := Except.ok.inj h
      intro o ho
      refine ⟨if new.sameClient o then new.receiveAgain o else o, ?_, ?_, ?_⟩
      · rw [Table.rows_of_update? hupdate]
        exact List.mem_map_of_mem ho
      · split <;> rfl
      · split
        · exact le_max_left _ _
        · exact le_rfl
    · cases h
  · intro o ho
    exact ⟨o, Table.mem_of_insert? (Table.insertOne_eq_ok.1 h) ho, rfl, le_rfl⟩

theorem linkReplacement_grows {t t' : Table Order} {stored : Option Order} {orderId : String}
    {now : Time} (h : linkReplacement t stored orderId now = .ok t') : FillsGrow t t' := by
  rcases stored with - | old
  · obtain rfl := Except.ok.inj h
    exact .refl _
  · simp only [linkReplacement, bind_eq_ok, Table.updateOne_eq_ok] at h
    obtain ⟨_, _, _, _, _, rfl⟩ := h
    intro o ho
    refine ⟨_, Table.mem_modify.2 ⟨o, ho, rfl⟩, ?_, ?_⟩
    · split <;> rfl
    · split <;> exact le_rfl

/-- What a call does to the tables of the claim. -/
structure Receives (db db' : Db) (status : String) : Prop where
  fills : FillsGrow db.orders db'.orders
  events : ∀ id e, db.events.get? id = some e → db'.events.get? id = some e
  /-- Ended intents keep their status. -/
  ended : ∀ i ∈ db.intents.rows, i.status ∈ [.reconciled, .failed, .cancelled] →
    ∃ i' ∈ db'.intents.rows, i'.id = i.id ∧ i'.status = i.status
  /-- An intent that changes takes the status of the result. -/
  moved : ∀ i ∈ db.intents.rows, ∀ i' ∈ db'.intents.rows, i'.id = i.id →
    i'.status = i.status ∨ i'.status = orderIntentStatus status
  /-- A reservation is released by a result that ends its intent. -/
  released : ∀ r ∈ db.reservations.rows, ∀ r' ∈ db'.reservations.rows, r'.id = r.id →
    r'.status = r.status ∨ r'.status = .committed ∨
      orderIntentStatus status ∈ [.failed, .cancelled]

theorem Receives.refl (db : Db) (status : String) : Receives db db status := by
  refine ⟨.refl _, fun _ _ h ↦ h, fun i hi _ ↦ ⟨i, hi, rfl, rfl⟩, fun i hi i' hi' hid ↦ ?_,
    fun r hr r' hr' hid ↦ ?_⟩
  · rw [db.intents.eq_of_key hi' hi hid]
    exact Or.inl rfl
  · rw [db.reservations.eq_of_key hr' hr hid]
    exact Or.inl rfl

/-- A result that neither commits nor leaves in doubt ends its intent. -/
theorem orderIntentStatus_ends {status : String} (hcommits : (orderIntentStatus status).commits = false)
    (hknown : orderIntentStatus status ≠ .ambiguous) :
    orderIntentStatus status ∈ [.failed, .cancelled] := by
  unfold orderIntentStatus at hcommits hknown ⊢
  dsimp only at hcommits hknown ⊢
  split_ifs at hcommits hknown ⊢
  · cases hcommits
  · cases hcommits
  · exact absurd rfl hknown
  · decide
  · decide

/-- An ended intent is not taken back. -/
theorem BrokerResultInput.keeps_of_not_regresses {input : BrokerResultInput} {i : Intent}
    {stored : Option Order} (h : input.regresses i stored = false)
    (hended : i.status ∈ [.reconciled, .failed, .cancelled]) :
    orderIntentStatus input.status = i.status := by
  unfold BrokerResultInput.regresses at h
  simp only [Bool.or_eq_false_iff] at h
  obtain ⟨⟨_, hstatus⟩, _⟩ := h
  rw [decide_eq_true hended, Bool.true_and, decide_eq_false_iff_not, not_not] at hstatus
  exact hstatus

theorem receiveReservation_released {db db' : Db} {i : Intent} {input : BrokerResultInput}
    (h : receiveReservation db i (orderIntentStatus input.status) input.receivedAt = .ok db') :
    ∀ r ∈ db.reservations.rows, ∀ r' ∈ db'.reservations.rows, r'.id = r.id →
      r'.status = r.status ∨ r'.status = .committed ∨
        orderIntentStatus input.status ∈ [.failed, .cancelled] := by
  intro r hr r' hr' hid
  rcases receiveReservation_ok h with rfl | ⟨r₀, hget, hknown, _, rfl⟩
  · rw [db'.reservations.eq_of_key hr' hr hid]
    exact Or.inl rfl
  · dsimp only at hr'
    obtain ⟨x, hx, rfl⟩ := Table.mem_modify.1 hr'
    by_cases hkey : Row.key x = r₀.id
    · rw [if_pos hkey]
      by_cases hcommits : (orderIntentStatus input.status).commits = true
      · unfold Reservation.receive
        rw [if_pos hcommits]
        exact Or.inr (Or.inl rfl)
      · rw [Bool.not_eq_true] at hcommits
        exact Or.inr (Or.inr (orderIntentStatus_ends hcommits hknown))
    · rw [if_neg hkey] at hid ⊢
      rw [db.reservations.eq_of_key hx hr hid]
      exact Or.inl rfl

/-- **Every call** keeps fills, stored events and ended intents. -/
theorem BrokerResultCall.commit_receives (call : BrokerResultCall) (db : Db) :
    Receives db (call.commit db) call.input.status := by
  unfold BrokerResultCall.commit
  split
  · next db' outcome hok =>
    rcases recordBrokerResult_ok hok with ⟨rfl, _⟩ |
      ⟨i, stored, received, orders, events, hi, _, hregress, hreceive, hlink, hinsert,
        hreservation, _⟩
    · exact .refl _ _
    · have hreleased := receiveReservation_released hreservation
      have hframe : db'.orders = orders ∧ db'.events = events ∧
          db'.intents = db.intents.modify call.input.orderIntentId
            (Intent.receive (orderIntentStatus call.input.status) call.input.receivedAt)
            (Intent.receive_keeps _ _) := by
        rcases receiveReservation_ok hreservation with rfl | ⟨_, _, _, _, rfl⟩
        · exact ⟨rfl, rfl, rfl⟩
        · exact ⟨rfl, rfl, rfl⟩
      obtain ⟨horders, hevents, hintents⟩ := hframe
      refine ⟨?_, fun id e he ↦ ?_, fun j hj hended ↦ ?_, fun j hj j' hj' hid ↦ ?_, hreleased⟩
      · rw [horders]
        exact (receiveOrder_grows hreceive).trans (linkReplacement_grows hlink)
      · rw [hevents]
        exact Table.get?_of_insert? hinsert he
      · rw [hintents]
        by_cases hkey : Row.key j = call.input.orderIntentId
        · obtain rfl : j = i := db.intents.eq_of_key hj (Table.mem_of_get? hi)
            (hkey.trans (Table.key_of_get? hi).symm)
          have hstatus := BrokerResultInput.keeps_of_not_regresses hregress hended
          rw [hstatus]
          exact ⟨j.receive j.status call.input.receivedAt,
            Table.mem_modify.2 ⟨j, hj, if_pos hkey⟩, rfl, rfl⟩
        · exact ⟨j, Table.mem_modify.2 ⟨j, hj, if_neg hkey⟩, rfl, rfl⟩
      · rw [hintents] at hj'
        obtain ⟨x, hx, rfl⟩ := Table.mem_modify.1 hj'
        by_cases hkey : Row.key x = call.input.orderIntentId
        · rw [if_pos hkey]
          exact Or.inr (Intent.receive_status _ _ x)
        · rw [if_neg hkey] at hid ⊢
          rw [db.intents.eq_of_key hx hj hid]
          exact Or.inl rfl
  · exact .refl _ _

/-! ## Replays -/

/-- A recorded event is stored. -/
theorem recordBrokerResult_stores {db db' : Db} {session : Session} {input : BrokerResultInput}
    (h : recordBrokerResult db session input = .ok (db', .recorded)) :
    (db'.events.get? input.eventId).isSome := by
  rcases recordBrokerResult_ok h with ⟨_, hnot⟩ |
    ⟨i, _, _, _, events, _, _, _, _, _, hinsert, hreservation, _⟩
  · exact absurd rfl hnot
  · have hevents : db'.events = events := by
      rcases receiveReservation_ok hreservation with rfl | ⟨_, _, _, _, rfl⟩
      · rfl
      · rfl
    have hkey : Row.key (input.event i.accountId) = input.eventId := rfl
    rw [hevents, Table.get?_insert? hinsert, hkey, if_pos rfl]
    rfl

/-- A call whose event is stored changes nothing. -/
theorem BrokerResultCall.commit_of_stored {call : BrokerResultCall} {db : Db}
    (h : (db.events.get? call.input.eventId).isSome) : call.commit db = db := by
  refine BrokerResultCall.commit_of_not_recorded fun db' hok ↦ ?_
  rcases recordBrokerResult_ok hok with ⟨_, hnot⟩ | ⟨_, _, _, _, _, _, hnone, _⟩
  · exact absurd rfl hnot
  · rw [hnone] at h
    cases h

/-! ## Sequences of calls -/

theorem receiveAll_append (db : Db) (before after : List BrokerResultCall) :
    receiveAll db (before ++ after) = receiveAll (receiveAll db before) after :=
  List.foldl_append

theorem receiveAll_cons (db : Db) (call : BrokerResultCall) (rest : List BrokerResultCall) :
    receiveAll db (call :: rest) = receiveAll (call.commit db) rest := rfl

theorem receiveAll_fills (db : Db) (calls : List BrokerResultCall) :
    FillsGrow db.orders (receiveAll db calls).orders := by
  induction calls generalizing db with
  | nil => exact .refl _
  | cons call rest ih =>
    rw [receiveAll_cons]
    exact (call.commit_receives db).fills.trans (ih (call.commit db))

theorem receiveAll_ended (db : Db) (calls : List BrokerResultCall) {i : Intent}
    (hi : i ∈ db.intents.rows) (hended : i.status ∈ [.reconciled, .failed, .cancelled]) :
    ∃ i' ∈ (receiveAll db calls).intents.rows, i'.id = i.id ∧ i'.status = i.status := by
  induction calls generalizing db i with
  | nil => exact ⟨i, hi, rfl, rfl⟩
  | cons call rest ih =>
    rw [receiveAll_cons]
    obtain ⟨i₁, hi₁, hid₁, hstatus₁⟩ := (call.commit_receives db).ended i hi hended
    obtain ⟨i', hi', hid, hstatus⟩ := ih (call.commit db) hi₁ (hstatus₁ ▸ hended)
    exact ⟨i', hi', hid.trans hid₁, hstatus.trans hstatus₁⟩

theorem receiveAll_events (db : Db) (calls : List BrokerResultCall) {id : String}
    (h : (db.events.get? id).isSome) : ((receiveAll db calls).events.get? id).isSome := by
  induction calls generalizing db with
  | nil => exact h
  | cons call rest ih =>
    rw [receiveAll_cons]
    obtain ⟨e, he⟩ := Option.isSome_iff_exists.1 h
    refine ih (call.commit db) ?_
    rw [(call.commit_receives db).events id e he]
    rfl

/-- The status is one `orderIntentStatus` lists, or terminal for the classifier. -/
def listedStatus (status : String) : Bool :=
  decide (Text.toLowerCase (Text.trim status) ∈ ["new", "accepted", "pending_new",
    "partially_filled", "ambiguous", "timeout", "unknown"]) ||
  (classifyBrokerOrderStatus status).terminal

theorem terminal_of_listed {status : String} (hlisted : listedStatus status = true)
    (hends : orderIntentStatus status ∈ [.failed, .cancelled]) :
    (classifyBrokerOrderStatus status).terminal = true := by
  unfold listedStatus at hlisted
  rw [Bool.or_eq_true, decide_eq_true_eq] at hlisted
  rcases hlisted with hopen | hterminal
  · -- The open statuses lead to `submitted` or `ambiguous`.
    unfold orderIntentStatus at hends
    simp only [List.mem_cons, List.not_mem_nil, or_false] at hopen
    rcases hopen with h | h | h | h | h | h | h
    all_goals simp [h] at hends
  · exact hterminal

/-- **Broker results are monotone and replay safe** when each of their statuses is listed or
terminal.  Fills do not shrink and ended intents stay as they are.  Of each call: once recorded, its
event can be replayed without effect; a call that is not recorded leaves everything as it was; and
it ends an intent or releases a reservation only with a terminal status. -/
theorem broker_results_replay_safe (db : Db) (calls : List BrokerResultCall)
    (hlisted : ∀ call ∈ calls, listedStatus call.input.status = true) :
    FillsGrow db.orders (receiveAll db calls).orders ∧
    (∀ i ∈ db.intents.rows, i.status ∈ [.reconciled, .failed, .cancelled] →
      ∃ i' ∈ (receiveAll db calls).intents.rows, i'.id = i.id ∧ i'.status = i.status) ∧
    ∀ before call after, calls = before ++ call :: after →
      (∀ db', recordBrokerResult (receiveAll db before) call.session call.input =
          .ok (db', .recorded) →
        ∀ again : BrokerResultCall, again.input.eventId = call.input.eventId →
          again.commit (receiveAll db calls) = receiveAll db calls) ∧
      ((∀ db', recordBrokerResult (receiveAll db before) call.session call.input ≠
          .ok (db', .recorded)) →
        call.commit (receiveAll db before) = receiveAll db before) ∧
      (∀ i ∈ (receiveAll db before).intents.rows,
        ∀ i' ∈ (call.commit (receiveAll db before)).intents.rows, i'.id = i.id →
          i'.status ∈ [.failed, .cancelled] → i'.status ≠ i.status →
            (classifyBrokerOrderStatus call.input.status).terminal = true) ∧
      (∀ r ∈ (receiveAll db before).reservations.rows,
        ∀ r' ∈ (call.commit (receiveAll db before)).reservations.rows, r'.id = r.id →
          r'.status = .released → r.status ≠ .released →
            (classifyBrokerOrderStatus call.input.status).terminal = true) := by
  refine ⟨receiveAll_fills db calls, fun i hi ↦ receiveAll_ended db calls hi, ?_⟩
  rintro before call after rfl
  have hstatus := hlisted call (List.mem_append_right _ List.mem_cons_self)
  have hreceives := call.commit_receives (receiveAll db before)
  refine ⟨fun db' hok again hsame ↦ ?_, BrokerResultCall.commit_of_not_recorded,
    fun i hi i' hi' hid hends hnew ↦ ?_, fun r hr r' hr' hid hreleased hnew ↦ ?_⟩
  · refine BrokerResultCall.commit_of_stored ?_
    rw [receiveAll_append, receiveAll_cons, hsame]
    refine receiveAll_events _ after ?_
    rw [BrokerResultCall.commit, hok]
    exact recordBrokerResult_stores hok
  · rcases hreceives.moved i hi i' hi' hid with hsame | hmoved
    · exact absurd hsame hnew
    · rw [hmoved] at hends
      exact terminal_of_listed hstatus hends
  · rcases hreceives.released r hr r' hr' hid with hsame | hcommitted | hends
    · exact absurd (hsame ▸ hreleased) hnew
    · rw [hreleased] at hcommitted
      cases hcommitted
    · exact terminal_of_listed hstatus hends

/-! ## A result nobody listed -/

namespace Specimen

/-- The reserved part of the strategy. -/
def submittedAllocation : Allocation :=
  { id := "alloc", accountId := "acct", strategyKey := "core",
    allocationAmount := some 50000, reservedAmount := 1000 }

theorem submittedAmount_pos : (0 : ℚ) < 1000 := by norm_num

/-- A submitted order of the entry. -/
def submittedDb : Db :=
  { entryDb with
    allocations := .ofRows [submittedAllocation]
    intents := .ofRows [
      { entryIntent with status := .submitted, reservationId := some "reservation" }]
    reservations := .ofRows [
      { id := "reservation", accountId := "acct", strategyKey := "core", symbol := "XYZ",
        amount := 1000, amount_pos := submittedAmount_pos, status := .active,
        idempotencyKey := "key", expiresAt := 900000 }] }

/-- The broker reports a status of the order. -/
def reported (status : String) (filled : ℚ) (at' : Time) : BrokerResultCall where
  session := session
  input :=
    { eventId := "event-" ++ toString at', orderId := "order", orderIntentId := "entry",
      brokerOrderId := some "broker-1", clientOrderId := "client-entry", symbol := "XYZ", status,
      quantity := some 10, filledQuantity := filled, responseFingerprint := status,
      occurredAt := at', receivedAt := at' }

/-- The intents, orders, reservations and counters after some calls. -/
def receivedOf (calls : List BrokerResultCall) :
    List IntentStatus × List (String × ℚ) × List ReservationStatus × ℚ × ℚ :=
  let db := receiveAll submittedDb calls
  (db.intents.rows.map (·.status), db.orders.rows.map fun o ↦ (o.status, o.filledQuantity),
    db.reservations.rows.map (·.status), reservedAmount db.allocations "acct" "core",
    deployedAmount db.allocations "acct" "core")

/-- The order is accepted, filled in part, reported as new once more, and cancelled. -/
def listedCalls : List BrokerResultCall :=
  [reported "new" 0 2000, reported "partially_filled" 4 2500, reported "new" 0 2600,
    reported "canceled" 4 3000, reported "canceled" 4 3000]

end Specimen

/-- The theorem at the specimen: the late report is refused, the last one a replay. -/
theorem specimen_results_replay_safe :
    Specimen.receivedOf Specimen.listedCalls =
        ([.cancelled], [("canceled", 4)], [.committed], 0, 1000) ∧
      FillsGrow Specimen.submittedDb.orders
        (receiveAll Specimen.submittedDb Specimen.listedCalls).orders :=
  ⟨by decide +kernel, (broker_results_replay_safe Specimen.submittedDb Specimen.listedCalls
    (by decide +kernel)).1⟩

/-- An active status ends the intent: the order is held, the intent fails, and the capital of the
open order is released. -/
theorem held_result_fails_intent :
    (classifyBrokerOrderStatus "held").active = true ∧
      (classifyBrokerOrderStatus "held").terminal = false ∧
      Specimen.receivedOf [] = ([.submitted], [], [.active], 1000, 0) ∧
      Specimen.receivedOf [Specimen.reported "held" 0 2000] =
        ([.failed], [("held", 0)], [.released], 0, 0) := by
  decide +kernel

end AlpacaTrading
