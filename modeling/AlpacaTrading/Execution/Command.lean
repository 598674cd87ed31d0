import AlpacaTrading.Reconciliation.Recover

/-!
# The execution command

`runAutonomousPostgresExecutionCommand` as a process: its program counter is a `Phase`, and a
`RunAct` is one step of it, together with what the step meets in its environment (clocks, locked
rows, answers of the broker, faults of the database).  A transaction is one step; the broker call
is two, its invocation and its end.  A process may stop after any step.

## Faults

A transaction can be lost in two ways: it did not commit, or it did and the worker never learnt.
Both show the worker an error.

## The evidence gate

The checks between the claim and the attempt read evidence that is not part of this model; their
outcome is part of the act.  The order they pass on is `orderRequest`.
-/

namespace AlpacaTrading

/-! ## Faults -/

/-- What goes wrong with a transaction besides its own errors. -/
inductive Fault where
  | none
  /-- The transaction is rolled back. -/
  | aborted (error : Thrown)
  /-- The transaction commits, the acknowledgement is lost. -/
  | unacknowledged (error : Thrown)
deriving DecidableEq

/-- The state after a transaction, and what the worker sees of it. -/
def Fault.commit {α : Type} (fault : Fault) (db : Db) (outcome : Except String (Db × α)) :
    Db × Except Thrown α :=
  match fault, outcome with
  | .aborted error, _ => (db, .error error)
  | _, .error code => (db, .error (.ofCode code))
  | .none, .ok (db', a) => (db', .ok a)
  | .unacknowledged error, .ok (db', _) => (db', .error error)

/-- The state after a transaction is the one before it or the one it commits. -/
theorem Fault.commit_fst {α : Type} {fault : Fault} {db : Db} {outcome : Except String (Db × α)} :
    (fault.commit db outcome).1 = db ∨ ∃ a, outcome = .ok ((fault.commit db outcome).1, a) := by
  unfold Fault.commit
  split
  · exact Or.inl rfl
  · exact Or.inl rfl
  · exact Or.inr ⟨_, rfl⟩
  · exact Or.inr ⟨_, rfl⟩

/-- The worker sees a success only of a transaction that committed. -/
theorem Fault.commit_ok {α : Type} {fault : Fault} {db : Db} {outcome : Except String (Db × α)}
    {a : α} (h : (fault.commit db outcome).2 = .ok a) :
    outcome = .ok ((fault.commit db outcome).1, a) := by
  unfold Fault.commit at h ⊢
  split at h
  · cases h
  · cases h
  · cases h
    rfl
  · cases h

/-! ## Counting -/

/-- The conjuncts both counts share. -/
def countable (db : Db) (command : ExecutionCommand) (dbNow : Time) (i : Intent) : Bool :=
  (i.executionReviewId.bind db.reviews.get?).any fun review ↦
    commandFilter command review i && decide (review.status = .valid ∧ dbNow < review.expiresAt) &&
    exactReviewAuthorization review i && noPriorBrokerAcknowledgement db i

/-- `ready_count`. -/
def readyCount (db : Db) (command : ExecutionCommand) (dbNow : Time) : Nat :=
  db.intents.count fun i ↦ decide (i.status = .readyForSubmission) &&
    countable db command dbNow i &&
    (i.confirmationEvidenceId.bind db.confirmations.get?).any fun c ↦
      some c.executionReviewId = i.executionReviewId ∧ c.status = .valid ∧ dbNow < c.expiresAt

/-- `confirmable_count`. -/
def confirmableCount (db : Db) (command : ExecutionCommand) (dbNow : Time) : Nat :=
  db.intents.count fun i ↦ decide (i.status = .created) && countable db command dbNow i

/-! ## The process -/

/-- The arguments of a run that do not change. -/
structure RunConfig where
  command : ExecutionCommand
  fence : SchedulerFence
  signingKey : String
  expectedPayloadSignature : Option String := none
  context : LifecycleContext
  now : Time

/-- The order sent to the broker, as the evidence gate builds it. -/
def orderRequest (row : AutonomousExecutionIntentRow) : AlpacaPaperOrderRequest :=
  let intent := row.intent
  let operation := intent.operation.getD <| match intent.side with
    | .buyToOpen => .buyToOpen
    | .sellToClose => .sellToClose
    | .sell => if row.review.reviewType = .entry then .sellToOpen else .buyToOpen
    | .buy => if row.review.reviewType = .exit then .buyToCover else .buyToOpen
  { symbol := intent.symbol
    qty := intent.quantity
    notional := intent.notional
    sell := operation ≠ .buyToOpen ∧ operation ≠ .buyToCover
    type := intent.orderType
    timeInForce := intent.timeInForce
    limitPrice := intent.limitPrice
    clientOrderId := intent.clientOrderId
    positionIntent :=
      if intent.assetClass = .option ∧ (operation = .buyToOpen ∨ operation = .sellToClose) then
        some operation
      else none }

/-- How a call of `submitOrder` ends. -/
abbrev Answer := Thrown ⊕ AlpacaApiResponse

/-- The program counter of a run, with the values it holds. -/
inductive Phase where
  | counting
  | promoting
  | claiming
  /-- The evidence gate. -/
  | checking (row : AutonomousExecutionIntentRow)
  | releasing (row : AutonomousExecutionIntentRow) (reason : String)
  | attempting (row : AutonomousExecutionIntentRow)
  /-- The attempt is recorded; the broker is called next. -/
  | submitting (row : AutonomousExecutionIntentRow) (receipt : BrokerMutationReceipt)
  /-- The call is under way. -/
  | awaiting (row : AutonomousExecutionIntentRow) (receipt : BrokerMutationReceipt)
  | rejecting (row : AutonomousExecutionIntentRow) (receipt : BrokerMutationReceipt)
      (failedAt : Time)
  | recording (row : AutonomousExecutionIntentRow) (receipt : BrokerMutationReceipt)
      (data : AlpacaSubmittedOrder) (httpStatus : Int) (acknowledgementAt : Time)
  | doubting (row : AutonomousExecutionIntentRow) (receipt : BrokerMutationReceipt)
      (errorClassification : String) (doubtedAt : Time)
  | recovering (row : AutonomousExecutionIntentRow) (receipt : BrokerMutationReceipt)
  | receipting (row : AutonomousExecutionIntentRow) (receipt : BrokerMutationReceipt)
      (recovery : RecoveredOrder) (reconciledAt : Time)
  | finished

/-- A run. -/
structure Run where
  config : RunConfig
  phase : Phase := .counting

/-- The order intent a submission is for. -/
structure SubmissionKey where
  accountId : String
  intentId : String
  clientOrderId : String
deriving DecidableEq

/-- The key of a claimed row. -/
def submissionKey (row : AutonomousExecutionIntentRow) : SubmissionKey where
  accountId := row.intent.accountId
  intentId := row.intent.id
  clientOrderId := row.intent.clientOrderId

/-- The steps of a run. -/
inductive RunAct where
  /-- The count query, the market clock and the broker snapshot. -/
  | count (dbNow : Time) (marketOpen captured : Bool)
  | promote (dbNow : Time) (locked : String → Bool) (fault : Fault)
  | claim (dbNow : Time) (locked : String → Bool) (fault : Fault)
  /-- The evidence gate, with the reason of a refusal. -/
  | check (refusal : Option Thrown)
  | release (dbNow : Time) (fault : Fault)
  | attempt (dbNow : Time) (fault : Fault)
  /-- `submitOrder` is called. -/
  | submit
  /-- The call ends. -/
  | answer (answer : Answer) (clock : Time)
  | reject (dbNow : Time) (fault : Fault)
  | record (dbNow : Time) (fault : Fault)
  | doubt (dbNow : Time) (fault : Fault)
  /-- The recovery, with the answers of its lookups; without it the run ends here. -/
  | recover (dbNow now clock : Time) (answers : List Lookup)
  | receipt (dbNow : Time) (fault : Fault)
  /-- The process stops. -/
  | crash

/-- The reason under which a claim is given back: the message, cut to 240 characters. -/
def releaseReason (error : Thrown) (fallback : String) : String :=
  if error.isError then String.ofList (error.message.toList.take 240) else fallback

section Step

variable [Hashing]

/-- The receipt of a submission whose end is unknown. -/
def uncertainReceipt (row : AutonomousExecutionIntentRow) (receipt : BrokerMutationReceipt) :
    BrokerMutationReceipt :=
  receiptWithOutcome receipt .submissionTransportUnknown (ambiguousState row.review.reviewType)

/-- The receipt of an acknowledgement that could not be stored. -/
def acknowledgementReceipt (row : AutonomousExecutionIntentRow) (receipt : BrokerMutationReceipt)
    (data : AlpacaSubmittedOrder) (acknowledgementAt : Time) : BrokerMutationReceipt :=
  let brokerOrderId := data.id.text
  let brokerStatus := Text.toLowerCase data.status.text
  if brokerOrderId ≠ "" ∧ brokerStatus ≠ "" then
    receiptWithOutcome receipt
      (if brokerStatus = "rejected" then .submissionRejected else .submissionAcknowledged)
      (lifecycleStateForBrokerStatus row.review.reviewType brokerStatus) (some brokerOrderId)
      (some acknowledgementAt)
  else uncertainReceipt row receipt

/-- The time an acknowledgement is recorded under. -/
def acknowledgementTime (data : AlpacaSubmittedOrder) (clock now : Time) : Time :=
  match data.placedAt.instant with
  | some placed => max (max clock now) placed + 1
  | none => max (max clock now) 0

/-- Where a run goes when the call of the broker ends. -/
def afterAnswer (config : RunConfig) (row : AutonomousExecutionIntentRow)
    (receipt : BrokerMutationReceipt) (answer : Answer) (clock : Time) : Phase :=
  match answer with
  | .inl error =>
    let failedAt := max clock config.now
    if isAmbiguousSubmissionError error then
      .doubting row (uncertainReceipt row receipt) "ambiguous_network_result" failedAt
    else .rejecting row receipt failedAt
  | .inr response =>
    match response.data with
    -- Reading a field of the missing body throws, outside of every handler.
    | none => .finished
    | some data =>
      .recording row receipt data response.status (acknowledgementTime data clock config.now)

/-- One step of a run: the state after it, where the run is then, and the call it made. -/
def Run.step (run : Run) (act : RunAct) (db : Db) : Option (Db × Phase × Option SubmissionKey) :=
  let config := run.config
  let session (dbNow : Time) : Session := { fence := config.fence, dbNow }
  match run.phase, act with
  | .counting, .count dbNow marketOpen captured =>
    let ready := readyCount db config.command dbNow
    let confirmable := confirmableCount db config.command dbNow
    let next : Phase :=
      if (ready = 0 ∧ confirmable = 0) ∨ marketOpen = false ∨ captured = false then .finished
      else if ready = 0 then .promoting
      else .claiming
    some (db, next, none)
  | .promoting, .promote dbNow locked fault =>
    let (db', seen) := fault.commit db (promoteNextConfirmedPostgresIntent db config.command
      (session dbNow) config.signingKey config.now locked)
    let next : Phase := match seen with
      | .ok (.promoted _ _ _) => .claiming
      | _ => .finished
    some (db', next, none)
  | .claiming, .claim dbNow locked fault =>
    let (db', seen) := fault.commit db (claimIntent db config.command (session dbNow) config.now
      config.expectedPayloadSignature locked)
    let next : Phase := match seen with
      | .ok row => .checking row
      | .error _ => .finished
    some (db', next, none)
  | .checking row, .check refusal =>
    let next : Phase := match refusal with
      | none => .attempting row
      | some error => .releasing row
          (releaseReason error "POSTGRES_EXECUTION_EVIDENCE_GATE_FAILED")
    some (db, next, none)
  | .releasing row reason, .release dbNow fault =>
    let (db', _) := fault.commit db
      ((releaseClaim db row (session dbNow) config.now reason).map fun db' ↦ (db', ()))
    some (db', .finished, none)
  | .attempting row, .attempt dbNow fault =>
    let (db', seen) := fault.commit db (recordSubmissionAttempt db row (orderRequest row)
      config.command (session dbNow) config.now config.context)
    let next : Phase := match seen with
      | .ok receipt => .submitting row receipt
      | .error error => .releasing row
          (releaseReason error "POSTGRES_BROKER_SUBMISSION_ATTEMPT_PERSISTENCE_FAILED")
    some (db', next, none)
  | .submitting row receipt, .submit => some (db, .awaiting row receipt, some (submissionKey row))
  | .awaiting row receipt, .answer answer clock =>
    some (db, afterAnswer config row receipt answer clock, none)
  | .rejecting row receipt failedAt, .reject dbNow fault =>
    let (db', _) := fault.commit db
      (recordDeterministicSubmissionFailure db row receipt (session dbNow) failedAt)
    some (db', .finished, none)
  | .recording row receipt data httpStatus acknowledgementAt, .record dbNow fault =>
    let (db', seen) := fault.commit db (recordSubmission db row data httpStatus receipt
      (session dbNow) acknowledgementAt)
    let next : Phase := match seen with
      | .ok _ => .finished
      | .error _ => .doubting row (acknowledgementReceipt row receipt data acknowledgementAt)
          (if data.id.text ≠ "" then "acknowledgement_persistence_failure"
            else "malformed_broker_acknowledgement") acknowledgementAt
    some (db', next, none)
  | .doubting row receipt errorClassification doubtedAt, .doubt dbNow fault =>
    let (db', seen) := fault.commit db (recordAmbiguousSubmission db row receipt (session dbNow)
      doubtedAt errorClassification)
    let next : Phase := match seen with
      | .ok receipt => .recovering row receipt
      | .error _ => .finished
    some (db', next, none)
  | .recovering row receipt, .recover dbNow now clock answers =>
    let (db', outcome) := recoverAmbiguousPostgresSubmission db (session dbNow) now
      row.intent.clientOrderId answers
    let next : Phase := match outcome with
      | .ok (.recovered order) => .receipting row receipt order (max clock config.now)
      | _ => .finished
    some (db', next, none)
  | .receipting row receipt recovery reconciledAt, .receipt dbNow fault =>
    let (db', _) := fault.commit db
      (recordReconciledSubmissionReceipt db row receipt recovery (session dbNow) reconciledAt)
    some (db', .finished, none)
  | _, .crash => some (db, .finished, none)
  | _, _ => none

end Step

end AlpacaTrading
