import AlpacaTrading.Execution.Capacity

/-!
# Promotion and claim

`promoteNextConfirmedPostgresIntent` turns the oldest created intent with a valid review into a
ready one: it records the confirmation, and for an entry checks capacity, inserts the reservation
and raises the reserved counter of the strategy.  `claimIntent` takes the oldest ready intent that
passes the evidence predicate to `submission_pending`; `releaseClaim` gives it back.

Each of them is one transaction: the model returns the new state, or the error that rolls the
transaction back.  The rows a concurrent transaction holds locked, which `SKIP LOCKED` passes
over, are an argument.
-/

namespace AlpacaTrading

/-- `(created_at, id)` order. -/
def Intent.olderOrSame (a b : Intent) : Bool :=
  a.createdAt < b.createdAt ∨ (a.createdAt = b.createdAt ∧ a.id ≤ b.id)

/-! ## Promotion -/

/-- How a promotion ends when it does not fail. -/
inductive PromotionResult where
  | none
  | blocked (code : String) (orderIntentId : String)
  | promoted (orderIntentId confirmationEvidenceId : String) (reservationId : Option String)
deriving DecidableEq

/-- The row promotion selects: the intent with its review and the current account snapshot. -/
structure ConfirmableIntentRow where
  intent : Intent
  review : Review
  snapshot : AccountSnapshot

/-- The predicate of the promotion query on one intent. -/
def confirmable (db : Db) (command : ExecutionCommand) (session : Session) (now : Time)
    (intent : Intent) : Option ConfirmableIntentRow := do
  let review ← db.reviews.get? (← intent.executionReviewId)
  let snapshot ← latestSnapshot db intent.accountId
  let _ ← currentAllocation db intent.accountId intent.strategyKey
  if intent.status = .created ∧ commandFilter command review intent ∧ review.status = .valid ∧
      now < review.expiresAt ∧
      snapshot.structuralPortfolioFingerprint = some review.accountFingerprint ∧
      fenceHeld db session then
    some { intent, review, snapshot }
  else Option.none

/-- The intent promotion selects, oldest first. -/
def nextConfirmable (db : Db) (command : ExecutionCommand) (session : Session) (now : Time)
    (locked : String → Bool) : Option ConfirmableIntentRow :=
  firstBy (fun a b ↦ a.intent.olderOrSame b.intent)
    ((db.intents.rows.filter fun i ↦ !locked i.id).filterMap
      (confirmable db command session now))

/-- Whether an amount passes the capacity query of promotion. -/
def promotionAllowed (db : Db) (row : ConfirmableIntentRow) (now : Time) (amount : ℚ) : Bool :=
  capacityAllowed do
    let limits ← currentLimits db row.intent.accountId
    let allocation ← currentAllocation db row.intent.accountId row.intent.strategyKey
    return promotionCapacity (exposed db row.intent.accountId row.intent.symbol now) row.snapshot
      limits allocation amount

section Confirm

variable [Hashing]

/-- The fingerprint of a confirmation. -/
def confirmationFingerprint (command : ExecutionCommand) (fence : SchedulerFence)
    (review : Review) : String :=
  Hashing.canonicalJsonHash
    [("executionReviewId", review.id), ("reviewPayloadFingerprint", review.payloadFingerprint),
      ("evidence.command", command.name), ("evidence.confirmPaper", "true"),
      ("evidence.scheduler.jobName", fence.jobName),
      ("evidence.scheduler.workstream", fence.workstream),
      ("evidence.scheduler.ownerId", fence.ownerId),
      ("evidence.scheduler.runId", fence.runId),
      ("evidence.scheduler.fencingToken", toString fence.fencingToken)]

/-- The identifier of the reservation of a promoted intent. -/
def reservationIdFor (intent : Intent) (confirmationId : String) : String :=
  "reservation_" ++ Hashing.canonicalJsonHash
    [("accountId", intent.accountId), ("orderIntentId", intent.id),
      ("confirmationId", confirmationId)]

/-- The reservation part of a promotion, for an intent that needs one: insert the row and raise
the reserved counter. -/
def reserve (db : Db) (row : ConfirmableIntentRow) (session : Session) (now expiresAt : Time)
    (fingerprint reservationId : String) : Option {a : ℚ // 0 < a} → Except String Db
  | none => .ok db
  | some ⟨amount, amount_pos⟩ => do
    require (fenceHeld db session) "POSTGRES_CONFIRMATION_RESERVATION_PERSISTENCE_FAILED"
    let reservations ← db.reservations.insertOne
      { id := reservationId
        accountId := row.intent.accountId
        candidateId := row.intent.candidateId
        strategyKey := row.intent.strategyKey
        symbol := row.intent.symbol
        assetClass := row.intent.assetClass
        amount
        amount_pos
        status := .active
        idempotencyKey := "confirmation:" ++ fingerprint
        accountSnapshotId := row.snapshot.id
        schedulerJobName := session.fence.jobName
        schedulerFencingToken := session.fence.fencingToken
        expiresAt
        createdAt := now
        updatedAt := now }
      "POSTGRES_CONFIRMATION_RESERVATION_PERSISTENCE_FAILED"
    require (adjustCount db.allocations row.intent.accountId row.intent.strategyKey = 1)
      "POSTGRES_CONFIRMATION_ALLOCATION_PERSISTENCE_FAILED"
    return { db with
      reservations
      allocations := adjust db.allocations row.intent.accountId row.intent.strategyKey
        (· + amount) 0 now }

/-- The candidate update of a promotion. -/
def confirmCandidate (db : Db) (candidateId : Option String) (session : Session) (now : Time) :
    Except String Db :=
  match candidateId with
  | none => .ok db
  | some id => do
    let candidates ← db.candidates.updateOne id
      (fun c ↦ decide (c.decision = .selected) && fenceHeld db session)
      (fun c ↦ { c with
        lifecycleStatus := "confirmed"
        decisionReason := some "PAPER_ORDER_INTENT_CONFIRMED"
        updatedAt := now })
      "POSTGRES_CONFIRMATION_CANDIDATE_PERSISTENCE_FAILED"
    return { db with candidates }

/-- The writes of a promotion once capacity is settled: confirmation, reservation, intent,
candidate. -/
def confirmIntent (db : Db) (command : ExecutionCommand) (session : Session) (now : Time)
    (row : ConfirmableIntentRow) (amount : Option {a : ℚ // 0 < a}) :
    Except String (Db × PromotionResult) := do
  let expiresAt := min row.review.expiresAt (now + 15 * 60000)
  require (now < expiresAt) "POSTGRES_CONFIRMATION_EXPIRATION_INVALID"
  let fingerprint := confirmationFingerprint command session.fence row.review
  let confirmationId := "confirmation_" ++ fingerprint
  require (fenceHeld db session) "POSTGRES_CONFIRMATION_EVIDENCE_PERSISTENCE_FAILED"
  let confirmations ← db.confirmations.insertOne
    { id := confirmationId
      executionReviewId := row.review.id
      accountId := row.intent.accountId
      candidateId := row.intent.candidateId
      status := .valid
      payloadFingerprint := fingerprint
      confirmedAt := now
      expiresAt
      updatedAt := now }
    "POSTGRES_CONFIRMATION_EVIDENCE_PERSISTENCE_FAILED"
  let db₁ := { db with confirmations }
  let reservationId := amount.map fun _ ↦ reservationIdFor row.intent confirmationId
  let db₂ ← reserve db₁ row session now expiresAt fingerprint
    (reservationIdFor row.intent confirmationId) amount
  let intents ← db₂.intents.updateOne row.intent.id
    (fun i ↦ decide (i.status = .created) && fenceHeld db₂ session)
    (fun i ↦ { i with
      confirmationEvidenceId := some confirmationId
      reservationId
      status := .readyForSubmission
      readyAt := some now
      updatedAt := now
      version := i.version + 1 })
    "POSTGRES_CONFIRMATION_PROMOTION_FAILED"
  let db₃ ← confirmCandidate { db₂ with intents } row.intent.candidateId session now
  return (db₃, .promoted row.intent.id confirmationId reservationId)

/-- `promoteNextConfirmedPostgresIntent`. -/
def promoteNextConfirmedPostgresIntent (db : Db) (command : ExecutionCommand)
    (session : Session) (signingKey : String) (now : Time) (locked : String → Bool) :
    Except String (Db × PromotionResult) := do
  require (16 ≤ (Text.trim signingKey).length) "PAPER_REVIEW_SIGNING_KEY_REQUIRED"
  match nextConfirmable db command session now locked with
  | none => return (db, .none)
  | some row =>
    match row.review.reviewType with
    | .exit => confirmIntent db command session now row none
    | .entry =>
      if h : 0 < row.intent.maxRisk.getD 0 then
        if promotionAllowed db row now (row.intent.maxRisk.getD 0) then
          confirmIntent db command session now row (some ⟨row.intent.maxRisk.getD 0, h⟩)
        else
          return (db, .blocked "POSTGRES_CONFIRMATION_CAPACITY_BLOCKED" row.intent.id)
      else throw "POSTGRES_CONFIRMATION_RISK_AMOUNT_MISSING"

end Confirm

/-! ## Claim -/

/-- The rows the claim query joins with an intent. -/
structure ClaimJoin where
  account : Account
  snapshot : AccountSnapshot
  review : Review
  confirmation : Confirmation
  allocation : Allocation
  limits : RiskLimit

/-- The inner joins of the claim query. -/
def claimJoin (db : Db) (intent : Intent) : Option ClaimJoin := do
  let account ← db.accounts.get? intent.accountId
  let snapshot ← latestSnapshot db intent.accountId
  let review ← db.reviews.get? (← intent.executionReviewId)
  let confirmation ← db.confirmations.get? (← intent.confirmationEvidenceId)
  let allocation ← currentAllocation db intent.accountId intent.strategyKey
  let limits ← currentLimits db intent.accountId
  if confirmation.executionReviewId = review.id ∧
      db.exposures.rows.any (·.accountId = intent.accountId) then
    some { account, snapshot, review, confirmation, allocation, limits }
  else none

/-- The reservation conjunct of the claim query: no reservation is needed, or it is active,
unexpired and still within capacity. -/
def claimReservation (db : Db) (intent : Intent) (join : ClaimJoin) (now : Time) : Bool :=
  match intent.reservationId with
  | none => true
  | some id =>
    (db.reservations.get? id).any fun r ↦
      decide (r.status = .active ∧ now < r.expiresAt) &&
      capacityAllowed (claimCapacity (exposed db intent.accountId intent.symbol now)
        join.snapshot join.limits join.allocation)

/-- The `WHERE` clause of the claim query. -/
def claimable (db : Db) (command : ExecutionCommand) (now : Time) (intent : Intent)
    (join : ClaimJoin) : Bool :=
  decide (intent.status = .readyForSubmission) && commandFilter command join.review intent &&
  decide (join.review.status = .valid ∧ now < join.review.expiresAt) &&
  exactReviewAuthorization join.review intent &&
  decide (join.confirmation.status = .valid ∧ now < join.confirmation.expiresAt) &&
  noPriorBrokerAcknowledgement db intent &&
  decide (join.snapshot.structuralPortfolioFingerprint = some join.review.accountFingerprint) &&
  claimReservation db intent join now

/-- The row the claim query returns for an intent. -/
def claimRow (db : Db) (command : ExecutionCommand) (now : Time) (intent : Intent) :
    Option AutonomousExecutionIntentRow := do
  let join ← claimJoin db intent
  if claimable db command now intent join then
    some
      { intent
        review := join.review
        brokerAccountId := join.account.brokerAccountId
        accountSnapshotFingerprint := join.snapshot.snapshotFingerprint
        parentPosition := do
          let position ← db.positions.get? (← intent.parentPositionId)
          if position.accountId = intent.accountId ∧ position.status = .open then some position
          else none
        openingContractId := do
          let opening ← db.intents.get? (← intent.openingIntentId)
          opening.contractId }
  else none

/-- `(ready_at, created_at, id)` order; a missing time sorts last. -/
def readiedBefore (a b : AutonomousExecutionIntentRow) : Bool :=
  match a.intent.readyAt, b.intent.readyAt with
  | some s, some t => s < t ∨ (s = t ∧ a.intent.olderOrSame b.intent)
  | some _, none => true
  | none, some _ => false
  | none, none => a.intent.olderOrSame b.intent

/-- `claimIntent`. -/
def claimIntent (db : Db) (command : ExecutionCommand) (session : Session) (now : Time)
    (expectedPayloadSignature : Option String) (locked : String → Bool) :
    Except String (Db × AutonomousExecutionIntentRow) := do
  match firstBy readiedBefore
      ((db.intents.rows.filter fun i ↦ !locked i.id).filterMap (claimRow db command now)) with
  | none => throw "POSTGRES_EXECUTION_EVIDENCE_GATE_FAILED"
  | some row =>
    assertExactReviewAuthorization row.review row.intent
    require (expectedPayloadSignature.all fun s ↦
        s = "" ∨ row.review.signature = s ∨ row.review.payloadFingerprint = s)
      "PAPER_REVIEW_ARTIFACT_MISMATCH"
    let intents ← db.intents.updateOne row.intent.id
      (fun i ↦ decide (i.version = row.intent.version ∧ i.status = .readyForSubmission) &&
        fenceHeld db session)
      (fun i ↦ { i with
        status := .submissionPending
        updatedAt := now
        version := i.version + 1 })
      "POSTGRES_EXECUTION_INTENT_CLAIM_FAILED"
    return ({ db with intents }, row)

/-! ## Release -/

/-- `persistCandidateExecutionStage`. -/
def persistCandidateExecutionStage (db : Db) (candidateId : Option String) (session : Session)
    (now : Time) (status reason : String) : Except String Db :=
  match candidateId with
  | none => .ok db
  | some id => do
    let candidates ← db.candidates.updateOne id
      (fun c ↦ decide (c.decision = .selected) && fenceHeld db session)
      (fun c ↦ { c with
        lifecycleStatus := status
        decisionReason := some reason
        updatedAt := now })
      "POSTGRES_CANDIDATE_STAGE_PERSISTENCE_FAILED"
    return { db with candidates }

/-- `releaseClaim`. -/
def releaseClaim (db : Db) (row : AutonomousExecutionIntentRow) (session : Session) (now : Time)
    (reason : String) : Except String Db := do
  let intents ← db.intents.updateOne row.intent.id
    (fun i ↦ decide (i.status = .submissionPending) && fenceHeld db session)
    (fun i ↦ { i with
      status := .readyForSubmission
      updatedAt := now
      version := i.version + 1 })
    "POSTGRES_EXECUTION_INTENT_RELEASE_FAILED"
  persistCandidateExecutionStage { db with intents } row.intent.candidateId session now
    "execution_deferred" reason

end AlpacaTrading
