import AlpacaTrading.Reconciliation.Settle

/-!
# Recovery of an uncertain submission

After a submission whose outcome is uncertain the worker looks the order up by its client order
id, a bounded number of times.  An answer that says the order is not there changes nothing; an
order that is found is handed to a reconciliation pass over the intents with that client order id.
-/

namespace AlpacaTrading

/-- `AmbiguousSubmissionRecovery`. -/
inductive AmbiguousSubmissionRecovery where
  | pending
  | recovered (order : RecoveredOrder)
deriving DecidableEq

/-- A client error of a lookup other than a timeout or a rate limit. -/
def deterministicLookup (status : Option ℚ) : Bool :=
  match status with
  | some s => decide (400 ≤ s ∧ s < 500 ∧ s ≠ 408 ∧ s ≠ 429)
  | none => false

/-- The identity of a found order: its broker id and its status. -/
def foundOrder (clientOrderId : String) (response : AlpacaApiResponse) :
    Except String (String × String) := do
  let data ← match response.data with
    | some data => Except.ok data
    | none => .error "Cannot read properties of null"
  let brokerOrderId ← data.id.required "POSTGRES_RECONCILIATION_BROKER_ID_MISSING"
  let status ← data.status.required "POSTGRES_RECONCILIATION_STATUS_MISSING"
  let clientId ← data.clientOrderId.required "POSTGRES_RECONCILIATION_CLIENT_ID_MISSING"
  require (clientId = clientOrderId) "POSTGRES_RECONCILIATION_BROKER_IDENTITY_MISMATCH"
  return (brokerOrderId, Text.toLowerCase status)

/-- The recorded order of a pass. -/
def TargetResult.order? : TargetResult → Option String
  | .recorded orderId _ _ _ => some orderId
  | _ => none

/-- The result of a pass is an error of its target. -/
def TargetResult.isError : TargetResult → Bool
  | .failed _ => true
  | _ => false

section Recover

variable [Hashing]

/-- The pass over a found order. -/
def recoverFound (db : Db) (session : Session) (now : Time) (clientOrderId : String)
    (response : AlpacaApiResponse) : Db × Except String AmbiguousSubmissionRecovery :=
  match foundOrder clientOrderId response with
  | .error code => (db, .error code)
  | .ok (brokerOrderId, brokerStatus) =>
    if !fenceHeld db session then (db, .error "SCHEDULER_FENCE_LOST")
    else
      let (db', results) := reconcilePostgresPaperOrders db session now clientOrderId
        fun _ ↦ .inr response
      if results.any (·.isError) then
        (db', .error "POSTGRES_BROKER_SUBMISSION_RECOVERY_RECONCILIATION_FAILED")
      else match results.findSome? (·.order?) with
        | none => (db', .error "POSTGRES_BROKER_SUBMISSION_RECOVERY_ORDER_MISSING")
        | some orderId => (db', .ok (.recovered { orderId, brokerOrderId, brokerStatus }))

/-- The attempts, one answer each. -/
def recoverAttempts (db : Db) (session : Session) (now : Time) (clientOrderId : String)
    (absenceOnly sawAbsence : Bool) :
    List Lookup → Db × Except String AmbiguousSubmissionRecovery
  | [] =>
    (db, if sawAbsence && absenceOnly then .ok .pending
      else .error "POSTGRES_BROKER_SUBMISSION_RECOVERY_INFRASTRUCTURE_UNRESOLVED")
  | answer :: rest =>
    if !fenceHeld db session then (db, .error "SCHEDULER_FENCE_LOST")
    else match answer with
      | .inr response => recoverFound db session now clientOrderId response
      | .inl error =>
        if Reconciliation.brokerOrderAbsent error then
          recoverAttempts db session now clientOrderId absenceOnly true rest
        else if deterministicLookup error.status then
          (db, .error "POSTGRES_BROKER_SUBMISSION_RECOVERY_DETERMINISTIC_LOOKUP_FAILED")
        else recoverAttempts db session now clientOrderId false sawAbsence rest

/-- `recoverAmbiguousPostgresSubmission`, without the account sync of its pass; the answers are
those of its attempts. -/
def recoverAmbiguousPostgresSubmission (db : Db) (session : Session) (now : Time)
    (clientOrderId : String) (answers : List Lookup) :
    Db × Except String AmbiguousSubmissionRecovery :=
  match (BrokerText.str clientOrderId).required
      "POSTGRES_BROKER_SUBMISSION_RECOVERY_CLIENT_ID_REQUIRED" with
  | .error code => (db, .error code)
  | .ok id => recoverAttempts db session now id true false answers

end Recover

end AlpacaTrading
