import AlpacaTrading.Reconciliation.Observe

/-!
# Settlement, absence and the reconciliation pass

After a terminal observation reconciliation settles the reservation of the order: it appends the
terminal transition, releases the reservation and moves the counters, in one statement.  When the
broker does not know the order it records the absence instead, and after four absences spread
over two minutes fails the intent and gives its reservation back.

`reconcilePostgresPaperOrders` runs over the targets listed at its start, one after the other, and
collects the errors.  Every statement commits by itself, so a pass that stops half way leaves the
statements it made.
-/

namespace AlpacaTrading

/-! ## Terminal settlement -/

/-- The terminal state and release reason a broker status stands for. -/
def settlementOf (status : String) : ReservationTerminalState × ReleaseReason :=
  if status = "filled" then (.filled, .brokerTerminalFilled)
  else if status = "canceled" ∨ status = "cancelled" then (.cancelled, .brokerTerminalCancelled)
  else if status = "rejected" then (.rejected, .brokerTerminalRejected)
  else (.expired, .brokerTerminalExpired)

/-- Which counters a settlement moves. -/
inductive SettlementKind where
  | fresh | legacyUnrepresented
deriving DecidableEq, Repr

section Settle

variable [Hashing]

/-- The `existing_transition` subquery. -/
def existingTransition (db : Db) (reservationId intentId : String)
    (state : ReservationTerminalState) (reason : ReleaseReason) : Bool :=
  (db.reservationTransitions.get? reservationId).any fun t ↦
    t.orderIntentId = some intentId ∧ t.terminalState = state ∧ t.releaseReason = reason

/-- The intent the settlement statement locks: still reconciled, in the observed state. -/
def settledIntent (db : Db) (session : Session) (id : String) (state : LifecycleState) :
    Option Intent :=
  (db.intents.get? id).filter fun i ↦
    decide (i.status = .reconciled ∧ i.lifecycleState = state) && fenceHeld db session

/-- The `settlement_candidate` subquery: the counter covers the reservation, or the intent is
older than the counter and the counter is empty. -/
def settlementKind (db : Db) (intent : Intent) (r : Reservation) : Option SettlementKind := do
  let allocation ← currentAllocation db r.accountId r.strategyKey
  if r.amount ≤ allocation.reservedAmount then some .fresh
  else if allocation.reservedAmount = 0 ∧ db.lifecycleCutover.any (intent.createdAt < ·) then
    some .legacyUnrepresented
  else none

/-- How the settlement statement came out. -/
inductive SettlementOutcome where
  /-- The reservation was released. -/
  | settled (kind : SettlementKind)
  /-- The same transition was there already. -/
  | replayed
  /-- Nothing changed. -/
  | nothing
deriving DecidableEq, Repr

/-- The settlement statement. -/
def settleStatement (db : Db) (session : Session) (reservationId intentId : String)
    (state : LifecycleState) (terminal : ReservationTerminalState) (reason : ReleaseReason)
    (now : Time) : Except String (Db × SettlementOutcome) :=
  if existingTransition db reservationId intentId terminal reason then .ok (db, .replayed)
  else match settledIntent db session intentId state, lockedReservation db reservationId with
    | some intent, some r =>
      match settlementKind db intent r with
      | none => .ok (db, .nothing)
      | some kind =>
        -- `ON CONFLICT (reservation_id) DO NOTHING`: another transition ended it first.
        if (db.reservationTransitions.get? reservationId).isSome then .ok (db, .nothing)
        else do
          let reservationTransitions ← db.reservationTransitions.insertOne
            (terminalTransition reservationId intentId terminal reason now)
            "reservation_terminal_transitions_pkey"
          let reservations := db.reservations.modify reservationId
            (Reservation.release .released reason now) (Reservation.release_keeps _ _ _)
          let allocations := match kind with
            | .fresh => adjust db.allocations r.accountId r.strategyKey
                (fun x ↦ max 0 (x - r.amount)) (if terminal = .filled then r.amount else 0) now
            | .legacyUnrepresented => db.allocations
          return ({ db with reservationTransitions, reservations, allocations }, .settled kind)
    | _, _ => .ok (db, .nothing)

/-- The `concurrent_replay_count` query: the same transition ended the reservation. -/
def concurrentlyReplayed (db : Db) (session : Session) (reservationId intentId : String)
    (terminal : ReservationTerminalState) (reason : ReleaseReason) : Bool :=
  existingTransition db reservationId intentId terminal reason &&
  (db.reservations.get? reservationId).any (fun r ↦
    r.status = .released ∧ r.releaseReason = some reason ∧ r.releasedAt.isSome) &&
  fenceHeld db session

/-- The settlement of a terminal observation, with the checks on its outcome. -/
def settle (db : Db) (session : Session) (target : Target) (obs : Observation) (now : Time) :
    Db × Except String Unit :=
  match target.intent.reservationId with
  | none => (db, .ok ())
  | some reservationId =>
    if obs.status ∈ terminalStatuses then
      let (terminal, reason) := settlementOf obs.status
      match settleStatement db session reservationId target.intent.id obs.state terminal reason
          now with
      | .error code => (db, .error code)
      | .ok (db', .settled _) => (db', .ok ())
      | .ok (db', .replayed) => (db', .ok ())
      | .ok (db', .nothing) =>
        if concurrentlyReplayed db' session reservationId target.intent.id terminal reason then
          (db', .ok ())
        else (db', .error "POSTGRES_RECONCILIATION_RESERVATION_RELEASE_FAILED")
    else (db, .ok ())

/-! ## Absence -/

/-- `BROKER_ABSENCE_TERMINAL_OBSERVATIONS`. -/
def brokerAbsenceTerminalObservations : Nat := 4

/-- `BROKER_ABSENCE_TERMINAL_AGE_MS`. -/
def brokerAbsenceTerminalAgeMs : Int := 120000

/-- The absence evidence of a target: the number of this observation, and whether it is the one
that settles the matter. -/
structure AbsenceEvidence where
  observation : Nat
  terminal : Bool
deriving DecidableEq

/-- The events of a target of one type. -/
def targetEvents (db : Db) (target : Target) (type : EventType) : List BrokerEvent :=
  db.events.rows.filter fun e ↦ e.orderIntentId = some target.intent.id ∧
    e.clientOrderId = some target.intent.clientOrderId ∧ e.eventType = type

/-- The evidence query of `recordBrokerOrderAbsence`. -/
def absenceEvidence (db : Db) (target : Target) (now : Time) : AbsenceEvidence :=
  let observation := (targetEvents db target .orderSubmissionAbsence).length + 1
  let firstAttemptAt :=
    ((targetEvents db target .orderSubmissionAttempt).map (·.occurredAt)).min?.getD
      target.intent.updatedAt
  { observation
    terminal := brokerAbsenceTerminalObservations ≤ observation ∧
      brokerAbsenceTerminalAgeMs ≤ now - firstAttemptAt }

/-- The absence event. -/
def absenceEvent (target : Target) (evidence : AbsenceEvidence) (now : Time) : BrokerEvent where
  eventId := "broker_event_" ++ Hashing.stableRecordId "alpaca_broker_submission_absence"
    (target.intent.accountId ++ ":" ++ target.intent.clientOrderId ++ ":" ++
      toString evidence.observation)
  accountId := target.intent.accountId
  orderIntentId := some target.intent.id
  clientOrderId := some target.intent.clientOrderId
  eventType := .orderSubmissionAbsence
  eventStatus := if evidence.terminal then "terminal" else "pending"
  errorClassification := some
    (if evidence.terminal then "broker_order_absence_confirmed" else "broker_order_not_found")
  occurredAt := now
  receivedAt := now

/-- The release of the reservation of an intent the broker never saw. -/
def releaseAbsent (db : Db) (reservationId : Option String) (now : Time) : Db × Nat × Nat :=
  match reservationId.bind fun id ↦ lockedReservation db id with
  | none => (db, 0, 0)
  | some r =>
    ({ db with
        reservations := db.reservations.modify r.id
          (Reservation.release .released .brokerOrderAbsenceConfirmed now)
          (Reservation.release_keeps _ _ _)
        allocations := adjust db.allocations r.accountId r.strategyKey
          (fun x ↦ max 0 (x - r.amount)) 0 now },
      1, adjustCount db.allocations r.accountId r.strategyKey)

/-- The intent update of a confirmed absence. -/
def Intent.failAbsent (now : Time) (i : Intent) : Intent :=
  { i with
    status := .failed
    terminalAt := some now
    updatedAt := now
    version := i.version + 1 }

omit [Hashing] in
theorem Intent.failAbsent_keeps (now : Time) : Keeps (Intent.failAbsent now) :=
  ⟨fun _ ↦ rfl, fun _ _ ↦ Iff.rfl⟩

/-- The statement that ends a target after its last absence: the event, the intent, the
reservation and the counter. -/
def terminalizeAbsence (db : Db) (session : Session) (target : Target)
    (evidence : AbsenceEvidence) (now : Time) : Db × Except String Unit :=
  let failed (db' : Db) : Db × Except String Unit :=
    (db', .error "POSTGRES_BROKER_ABSENCE_TERMINALIZATION_FAILED")
  if fenceHeld db session then
    match db.events.insert? (absenceEvent target evidence now) with
    | none => failed db
    | some events =>
      match (db.intents.get? target.intent.id).filter fun i ↦
          i.status = .submissionPending ∨ i.status = .ambiguous with
      | none => failed { db with events }
      | some i =>
        let intents := db.intents.modify target.intent.id (Intent.failAbsent now)
          (Intent.failAbsent_keeps now)
        let (db', released, adjusted) := releaseAbsent { db with events, intents }
          i.reservationId now
        let expected := if target.intent.reservationId.isSome then 1 else 0
        if released = expected ∧ adjusted = expected then (db', .ok ()) else failed db'
  else failed db

/-- The candidate update of a confirmed absence. -/
def deferAbsentCandidate (db : Db) (session : Session) (target : Target) (now : Time) :
    Db × Except String Unit :=
  match target.intent.candidateId with
  | none => (db, .ok ())
  | some id =>
    match db.candidates.updateOne id
        (fun c ↦ decide (c.decision = .selected) && fenceHeld db session)
        (fun c ↦ { c with
          lifecycleStatus := "execution_deferred"
          decisionReason := some "POSTGRES_BROKER_SUBMISSION_ABSENCE_CONFIRMED"
          updatedAt := now })
        "POSTGRES_BROKER_ABSENCE_CANDIDATE_PERSISTENCE_FAILED" with
    | .ok candidates => ({ db with candidates }, .ok ())
    | .error code => (db, .error code)

/-- The event of an absence that does not settle the matter yet. -/
def recordPendingAbsence (db : Db) (session : Session) (target : Target)
    (evidence : AbsenceEvidence) (now : Time) : Db :=
  if fenceHeld db session then
    match db.events.insert? (absenceEvent target evidence now) with
    | some events => { db with events }
    | none => db
  else db

/-- Whether an absence is still open or ended the intent. -/
inductive AbsenceResult where
  | pending | failed
deriving DecidableEq, Repr

/-- `recordBrokerOrderAbsence`. -/
def recordBrokerOrderAbsence (db : Db) (session : Session) (target : Target) (now : Time) :
    Db × Except String AbsenceResult :=
  let evidence := absenceEvidence db target now
  if evidence.terminal then
    match terminalizeAbsence db session target evidence now with
    | (db', .error code) => (db', .error code)
    | (db', .ok ()) =>
      match deferAbsentCandidate db' session target now with
      | (db'', .error code) => (db'', .error code)
      | (db'', .ok ()) => (db'', .ok .failed)
  else (recordPendingAbsence db session target evidence now, .ok .pending)

/-! ## The pass -/

/-- What a pass reports about one target. -/
inductive TargetResult where
  | recorded (orderId brokerOrderId status : String) (replay : Bool)
  | absent (result : AbsenceResult)
  | failed (code : String)
deriving DecidableEq

/-- The answer of a lookup. -/
abbrev Lookup := Thrown ⊕ AlpacaApiResponse

/-- The code under which an error is reported: its message up to the first colon. -/
def errorCode (error : Thrown) : String :=
  if error.isError then String.ofList (error.message.toList.takeWhile (· ≠ ':'))
  else "POSTGRES_RECONCILIATION_FAILED"

/-- The `catch` branch of the loop body: an order the broker does not know is recorded as absent,
anything else is an error of the target. -/
def recoverTarget (db : Db) (session : Session) (target : Target) (error : Thrown) (now : Time) :
    Db × TargetResult :=
  if target.intent.status ∈ [.submissionPending, .ambiguous] ∧
      Reconciliation.brokerOrderAbsent error then
    match recordBrokerOrderAbsence db session target now with
    | (db', .ok result) => (db', .absent result)
    | (db', .error code) => (db', .failed code)
  else (db, .failed (errorCode error))

/-- The loop body: read the answer, store the observation, settle the reservation. -/
def reconcileTarget (db : Db) (session : Session) (target : Target) (answer : Lookup)
    (now : Time) : Db × TargetResult :=
  match answer with
  | .inl error => recoverTarget db session target error now
  | .inr response =>
    match readObservation target response now with
    | .error code => recoverTarget db session target (.ofCode code) now
    | .ok obs =>
      match observe db session target obs now with
      | (db', .error code) => recoverTarget db' session target (.ofCode code) now
      | (db', .ok stored) =>
        match settle db' session target obs now with
        | (db'', .error code) => recoverTarget db'' session target (.ofCode code) now
        | (db'', .ok ()) =>
          (db'', .recorded (orderIdFor target.intent.accountId obs.brokerId) obs.brokerId
            obs.status (!stored))

/-- The loop over the targets. -/
def reconcileTargets (session : Session) (now : Time) (lookup : String → Lookup) :
    Db → List Target → Db × List TargetResult
  | db, [] => (db, [])
  | db, target :: rest =>
    let (db', result) := reconcileTarget db session target (lookup target.intent.clientOrderId)
      now
    let (db'', results) := reconcileTargets session now lookup db' rest
    (db'', result :: results)

/-- `reconcilePostgresPaperOrders`, without the optional external observation and the account
sync: the targets listed at the start, each with the answer of its lookup. -/
def reconcilePostgresPaperOrders (db : Db) (session : Session) (now : Time)
    (clientOrderId : String) (lookup : String → Lookup) : Db × List TargetResult :=
  reconcileTargets session now lookup db (listTargets db clientOrderId)

end Settle

end AlpacaTrading
