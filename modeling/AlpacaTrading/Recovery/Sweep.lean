import AlpacaTrading.Reconciliation.Settle

/-!
# The recovery sweep

`runAutonomousPostgresRecovery` cleans up after a stopped worker.  It looks at ready intents whose
evidence is no longer good, asks the broker about each of them and either keeps the intent as
ambiguous (the order exists) or cancels it and returns its reservation (the order does not); it
then expires reservations, reviews and confirmations whose time is over and cancels created
intents whose review is gone.

Each statement commits by itself.  The checks the service makes on the row counts come after the
commit, so the model returns the state together with the verdict.
-/

namespace AlpacaTrading

/-! ## Stale ready intents -/

/-- `AUTONOMOUS_MARKET_DATA_FRESHNESS_MS`. -/
def autonomousMarketDataFreshnessMs : Int := 30 * 60 * 1000

/-- The candidate conjuncts of the stale-ready query. -/
def staleCandidate (now : Time) (c : Candidate) : Bool :=
  decide (c.decision ≠ .selected) ||
  decide (c.lifecycleStatus ∈ ["expired", "rejected", "blocked", "skipped"]) ||
  decide (c.asOf ≤ now - autonomousMarketDataFreshnessMs)

/-- The review conjuncts of the stale-ready query. -/
def staleReview (now : Time) (r : Review) : Bool :=
  decide (r.status ∈ [.expired, .revoked, .blocked]) || decide (r.expiresAt ≤ now)

/-- The confirmation conjuncts of the stale-ready query; a missing row counts as stale. -/
def staleConfirmation (now : Time) : Option Confirmation → Bool
  | none => true
  | some c => decide (c.status ≠ .valid) || decide (c.expiresAt ≤ now)

/-- The reservation conjuncts of the stale-ready query; a missing row counts as stale. -/
def staleReservation (now : Time) : Option Reservation → Bool
  | none => true
  | some r => !r.status.live || decide (r.expiresAt ≤ now)

/-- The predicate of the stale-ready query. -/
def staleReady (db : Db) (session : Session) (now : Time) (intent : Intent) : Bool :=
  match intent.executionReviewId.bind db.reviews.get?,
      intent.candidateId.bind db.candidates.get? with
  | some review, some candidate =>
    decide (intent.status = .readyForSubmission) &&
    !(db.orders.rows.any (·.orderIntentId = intent.id)) &&
    (staleCandidate now candidate || staleReview now review ||
      staleConfirmation now (intent.confirmationEvidenceId.bind db.confirmations.get?) ||
      staleReservation now (intent.reservationId.bind db.reservations.get?)) &&
    fenceHeld db session
  | _, _ => false

/-- The rows of the stale-ready query. -/
def listStaleReady (db : Db) (session : Session) (now : Time) : List Intent :=
  db.intents.rows.filter (staleReady db session now)

/-- The update that keeps a stale intent whose order exists. -/
def preserveStaleReady (db : Db) (session : Session) (intentId : String) (now : Time) : Db :=
  { db with
    intents := db.intents.update
      (fun i ↦ decide (Row.key i = intentId) &&
        (decide (i.status = .readyForSubmission) && fenceHeld db session))
      (fun i ↦ { i with status := .ambiguous, updatedAt := now, version := i.version + 1 }) }

section Sweep

variable [Hashing]

/-- The terminal transition recovery writes for a cancelled intent. -/
def staleTransition (reservationId intentId : String) (now : Time) : ReservationTransition where
  id := "reservation_transition_" ++ Hashing.canonicalJsonHash
    [("", reservationId), ("", intentId), ("", "cancelled"), ("", "stale_intent_recovery")]
  reservationId
  orderIntentId := some intentId
  terminalState := .cancelled
  releaseReason := .staleIntentRecovery
  idempotencyKey := intentId ++ ":stale_intent_recovery"
  occurredAt := now

/-- The intent update of a stale-ready cancellation. -/
def Intent.cancelStale (now : Time) (i : Intent) : Intent :=
  { i with
    status := .cancelled
    terminalAt := some now
    updatedAt := now
    version := i.version + 1 }

omit [Hashing] in
theorem Intent.cancelStale_keeps (now : Time) : Keeps (Intent.cancelStale now) :=
  ⟨fun _ ↦ rfl, fun _ _ ↦ Iff.rfl⟩

/-- The `validation` of the cancellation: there is no live reservation, or the counter covers
it. -/
def staleAllocationCovers (db : Db) : Option Reservation → Bool
  | none => true
  | some r => (currentAllocation db r.accountId r.strategyKey).any
      fun a ↦ r.amount ≤ a.reservedAmount

/-- Release of the reservation of a cancelled intent, unless a transition already ended it. -/
def releaseStale (db : Db) (intentId : String) (now : Time) (r : Reservation) :
    Except String (Db × Bool) :=
  if (db.reservationTransitions.get? r.id).isSome then .ok (db, false)
  else do
    let reservationTransitions ← db.reservationTransitions.insertOne
      (staleTransition r.id intentId now) "reservation_terminal_transitions_pkey"
    return ({ db with
        reservationTransitions
        reservations := db.reservations.modify r.id
          (Reservation.release .released .staleIntentRecovery now)
          (Reservation.release_keeps _ _ _)
        allocations := adjust db.allocations r.accountId r.strategyKey (· - r.amount) 0 now },
      true)

/-- The cancellation statement for one stale intent, with the checks on its row counts: `true`
when the intent was cancelled. -/
def cancelStaleReady (db : Db) (session : Session) (intentId : String) (now : Time) :
    Db × Except String Bool :=
  match db.intents.get? intentId with
  | none => (db, .ok false)
  | some i =>
    let locked := i.reservationId.bind fun id ↦ lockedReservation db id
    if !staleAllocationCovers db locked then
      (db, .error "POSTGRES_STALE_READY_RESERVATION_ALLOCATION_MISMATCH")
    else if i.status = .readyForSubmission ∧
        ¬ db.orders.rows.any (·.orderIntentId = intentId) ∧ fenceHeld db session then
      let db₁ := { db with
        intents := db.intents.modify intentId (Intent.cancelStale now)
          (Intent.cancelStale_keeps now) }
      match locked with
      | none => (db₁, .ok true)
      | some r =>
        match releaseStale db₁ intentId now r with
        | .error code => (db, .error code)
        | .ok (db₂, true) => (db₂, .ok true)
        | .ok (db₂, false) => (db₂, .error "POSTGRES_STALE_READY_RESERVATION_RELEASE_FAILED")
    else (db, .ok false)

/-- The loop body for one stale intent: ask the broker, then keep or cancel.  An error ends the
sweep. -/
def recoverStaleReady (db : Db) (session : Session) (intent : Intent) (answer : Lookup)
    (now : Time) : Db × Except String Unit :=
  let clientOrderId := Text.trim intent.clientOrderId
  if clientOrderId = "" then (db, .ok ())
  else
    let thrown : Option Thrown := match answer with
      | .inl error => some error
      | .inr response =>
        match response.data with
        | none => some (.ofCode "POSTGRES_STALE_READY_BROKER_IDENTITY_MISMATCH")
        | some data =>
          if data.id = .absent ∨ data.id = .str "" ∨ data.clientOrderId ≠ .str clientOrderId then
            some (.ofCode "POSTGRES_STALE_READY_BROKER_IDENTITY_MISMATCH")
          else none
    match thrown with
    | none => (preserveStaleReady db session intent.id now, .ok ())
    | some error =>
      if Recovery.brokerOrderAbsent error then
        match cancelStaleReady db session intent.id now with
        | (db', .ok _) => (db', .ok ())
        | (db', .error code) => (db', .error code)
      else (db, .error error.message)

/-! ## Expired reservations -/

/-- A reservation whose time is over. -/
def Reservation.overdue (now : Time) (r : Reservation) : Bool :=
  decide (r.status = .active) && decide (r.expiresAt ≤ now)

/-- The sum of the overdue reservations of a strategy, and of those among them a predicate
picks. -/
def overdueAmount (db : Db) (now : Time) (p : Reservation → Bool) (accountId strategyKey : String) :
    ℚ :=
  db.reservations.total fun r ↦
    if r.overdue now && p r && decide (r.accountId = accountId ∧ r.strategyKey = strategyKey) then
      r.amount
    else 0

/-- The `validation` of the expiry: every strategy with overdue reservations has a counter that
covers them. -/
def overdueCovered (db : Db) (now : Time) : Bool :=
  db.reservations.rows.all fun r ↦ !r.overdue now ||
    (currentAllocation db r.accountId r.strategyKey).any fun a ↦
      overdueAmount db now (fun _ ↦ true) r.accountId r.strategyKey ≤ a.reservedAmount

/-- The intent a reservation belongs to, the latest if there are several. -/
def reservationOwner (db : Db) (reservationId : String) : Option String :=
  (firstBy (fun (a b : Intent) ↦ b.createdAt < a.createdAt ∨
      (a.createdAt = b.createdAt ∧ b.id < a.id))
    (db.intents.rows.filter fun i ↦ i.reservationId = some reservationId)).map (·.id)

/-- The terminal transition recovery writes for an expired reservation. -/
def expiredTransition (db : Db) (now : Time) (r : Reservation) : ReservationTransition where
  id := "reservation_transition_" ++ Hashing.canonicalJsonHash
    [("", r.id), ("", "expired"), ("", "stale_intent_recovery")]
  reservationId := r.id
  orderIntentId := reservationOwner db r.id
  terminalState := .expired
  releaseReason := .staleIntentRecovery
  idempotencyKey := r.id ++ ":stale_intent_recovery"
  occurredAt := now

/-- `INSERT … ON CONFLICT (reservation_id) DO NOTHING` for several transitions. -/
def appendReservationTransitions (t : Table ReservationTransition) :
    List ReservationTransition → Except String (Table ReservationTransition)
  | [] => .ok t
  | x :: rest =>
    if (t.get? x.reservationId).isSome then appendReservationTransitions t rest
    else do
      let t' ← t.insertOne x "reservation_terminal_transitions_pkey"
      appendReservationTransitions t' rest

/-- The reservations the expiry statement ends: overdue, with no transition before. -/
def expiring (db : Db) (now : Time) (r : Reservation) : Bool :=
  r.overdue now && (db.reservationTransitions.get? r.id).isNone

/-- The counter updates of the expiry, one per strategy. -/
def expireAllocations (db : Db) (now : Time) : Table Allocation :=
  db.allocations.update
    (fun a ↦ a.current && db.reservations.rows.any fun r ↦ expiring db now r &&
      decide (r.accountId = a.accountId ∧ r.strategyKey = a.strategyKey))
    (fun a ↦ a.shift
      (fun x ↦ x - overdueAmount db now (fun r ↦ expiring db now r) a.accountId a.strategyKey) 0
      now)
    ⟨fun _ ↦ rfl, fun _ _ ↦ Iff.rfl⟩

/-- The expiry statement, with the checks on its row counts. -/
def expireReservations (db : Db) (session : Session) (now : Time) : Db × Except String Unit :=
  if !fenceHeld db session then (db, .ok ())
  else if !overdueCovered db now then
    (db, .error "POSTGRES_RECOVERY_RESERVATION_ALLOCATION_MISMATCH")
  else match appendReservationTransitions db.reservationTransitions
      ((db.reservations.rows.filter (·.overdue now)).map (expiredTransition db now)) with
    | .error code => (db, .error code)
    | .ok reservationTransitions =>
      let db' := { db with
        reservationTransitions
        reservations := db.reservations.update (expiring db now)
          (Reservation.release .expired .staleIntentRecovery now)
          (Reservation.release_keeps _ _ _)
        allocations := expireAllocations db now }
      if db.reservations.rows.all fun r ↦ !r.overdue now || expiring db now r then (db', .ok ())
      else (db', .error "POSTGRES_RECOVERY_RESERVATION_TERMINAL_TRANSITION_FAILED")

end Sweep

/-! ## Expired evidence -/

/-- The expiry of reviews. -/
def expireReviews (db : Db) (session : Session) (now : Time) : Db :=
  { db with
    reviews := db.reviews.update
      (fun r ↦ decide (r.status ∈ [.created, .valid] ∧ r.expiresAt ≤ now) && fenceHeld db session)
      (fun r ↦ { r with status := .expired, updatedAt := now }) }

/-- The expiry of confirmations. -/
def expireConfirmations (db : Db) (session : Session) (now : Time) : Db :=
  { db with
    confirmations := db.confirmations.update
      (fun c ↦ decide (c.status = .valid ∧ c.expiresAt ≤ now) && fenceHeld db session)
      (fun c ↦ { c with status := .expired, updatedAt := now }) }

/-- The cancellation of created intents whose review is gone. -/
def cancelStaleCreated (db : Db) (session : Session) (now : Time) : Db :=
  { db with
    intents := db.intents.update
      (fun i ↦ decide (i.status = .created) &&
        (i.executionReviewId.bind db.reviews.get?).any (staleReview now) && fenceHeld db session)
      (fun i ↦ { i with
        status := .cancelled
        terminalAt := some now
        updatedAt := now
        version := i.version + 1 }) }

end AlpacaTrading
