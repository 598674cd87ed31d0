import AlpacaTrading.Execution.Submission

/-!
# What the execution transactions do

For each transaction of the execution service one lemma that says what a committed run of it
leaves behind: which row it found, in which status, and the exact new tables.  Every later
argument about the service starts from these lemmas and never unfolds a transaction again.

Columns of candidates, reviews and confirmations are rewritten along the way; where nothing
depends on them the lemmas only say that those tables are replaced.
-/

namespace AlpacaTrading

/-! ## Candidate stages -/

theorem persistCandidateExecutionStage_ok {db db' : Db} {candidateId : Option String}
    {session : Session} {now : Time} {status reason : String}
    (h : persistCandidateExecutionStage db candidateId session now status reason = .ok db') :
    ∃ candidates, db' = { db with candidates } := by
  unfold persistCandidateExecutionStage at h
  split at h
  · cases h
    exact ⟨db.candidates, rfl⟩
  · rw [bind_eq_ok] at h
    obtain ⟨candidates, _, hdb⟩ := h
    cases hdb
    exact ⟨candidates, rfl⟩

theorem confirmCandidate_ok {db db' : Db} {candidateId : Option String} {session : Session}
    {now : Time} (h : confirmCandidate db candidateId session now = .ok db') :
    ∃ candidates, db' = { db with candidates } := by
  unfold confirmCandidate at h
  split at h
  · cases h
    exact ⟨db.candidates, rfl⟩
  · rw [bind_eq_ok] at h
    obtain ⟨candidates, _, hdb⟩ := h
    cases hdb
    exact ⟨candidates, rfl⟩

/-! ## Promotion -/

/-- The reservation row a promotion inserts. -/
def promotedReservation (row : ConfirmableIntentRow) (session : Session) (now expiresAt : Time)
    (fingerprint reservationId : String) (amount : {a : ℚ // 0 < a}) : Reservation :=
  { id := reservationId
    accountId := row.intent.accountId
    candidateId := row.intent.candidateId
    strategyKey := row.intent.strategyKey
    symbol := row.intent.symbol
    assetClass := row.intent.assetClass
    amount := amount.1
    amount_pos := amount.2
    status := .active
    idempotencyKey := "confirmation:" ++ fingerprint
    accountSnapshotId := row.snapshot.id
    schedulerJobName := session.fence.jobName
    schedulerFencingToken := session.fence.fencingToken
    expiresAt
    createdAt := now
    updatedAt := now }

/-- The intent update of a promotion. -/
def Intent.promote (confirmationId : String) (reservationId : Option String) (now : Time)
    (i : Intent) : Intent :=
  { i with
    confirmationEvidenceId := some confirmationId
    reservationId
    status := .readyForSubmission
    readyAt := some now
    updatedAt := now
    version := i.version + 1 }

theorem Intent.promote_keeps (confirmationId : String) (reservationId : Option String)
    (now : Time) : Keeps (Intent.promote confirmationId reservationId now) :=
  ⟨fun _ ↦ rfl, fun _ _ ↦ Iff.rfl⟩

theorem reserve_some_ok {db db' : Db} {row : ConfirmableIntentRow} {session : Session}
    {now expiresAt : Time} {fingerprint reservationId : String} {amount : {a : ℚ // 0 < a}}
    (h : reserve db row session now expiresAt fingerprint reservationId (some amount) =
      .ok db') :
    ∃ reservations,
      db.reservations.insert? (promotedReservation row session now expiresAt fingerprint
        reservationId amount) = some reservations ∧
      adjustCount db.allocations row.intent.accountId row.intent.strategyKey = 1 ∧
      db' = { db with
        reservations
        allocations := adjust db.allocations row.intent.accountId row.intent.strategyKey
          (· + amount.1) 0 now } := by
  obtain ⟨a, ha⟩ := amount
  simp only [reserve, bind_eq_ok, require_eq_ok, Table.insertOne_eq_ok] at h
  obtain ⟨_, _, reservations, hins, _, hcount, hdb⟩ := h
  cases hdb
  exact ⟨reservations, hins, by simpa using hcount, rfl⟩

/-- The row promotion selects is a stored created intent with its review and the latest
snapshot of its account. -/
theorem nextConfirmable_some {db : Db} {command : ExecutionCommand} {session : Session}
    {now : Time} {locked : String → Bool} {row : ConfirmableIntentRow}
    (h : nextConfirmable db command session now locked = some row) :
    db.intents.get? row.intent.id = some row.intent ∧
      row.intent.executionReviewId.bind db.reviews.get? = some row.review ∧
      latestSnapshot db row.intent.accountId = some row.snapshot ∧
      (currentAllocation db row.intent.accountId row.intent.strategyKey).isSome := by
  obtain ⟨i, hi, hrow⟩ := List.mem_filterMap.1 (mem_of_firstBy h)
  have hmem := (List.mem_filter.1 hi).1
  unfold confirmable at hrow
  simp only [Option.bind_eq_bind, Option.bind_eq_some_iff] at hrow
  obtain ⟨reviewId, hid, review, hreview, snapshot, hsnap, a, ha, hif⟩ := hrow
  split at hif
  · cases hif
    exact ⟨Table.get?_of_mem hmem, by rw [hid]; exact hreview, hsnap, by rw [ha]; rfl⟩
  · cases hif

section Promotion

variable [Hashing]

/-- What the writes of a promotion leave behind. -/
theorem confirmIntent_ok {db db' : Db} {command : ExecutionCommand} {session : Session}
    {now : Time} {row : ConfirmableIntentRow} {amount : Option {a : ℚ // 0 < a}}
    {result : PromotionResult}
    (h : confirmIntent db command session now row amount = .ok (db', result)) :
    ∃ confirmationId confirmations candidates db₂ i, ∃ expiresAt > now, ∃ fingerprint,
      reserve { db with confirmations } row session now expiresAt fingerprint
        (reservationIdFor row.intent confirmationId) amount = .ok db₂ ∧
      db₂.intents.get? row.intent.id = some i ∧ i.status = .created ∧
      db' = { db₂ with
        intents := db₂.intents.modify row.intent.id
          (Intent.promote confirmationId
            (amount.map fun _ ↦ reservationIdFor row.intent confirmationId) now)
          (Intent.promote_keeps _ _ _)
        candidates } ∧
      result = .promoted row.intent.id confirmationId
        (amount.map fun _ ↦ reservationIdFor row.intent confirmationId) := by
  simp only [confirmIntent, bind_eq_ok, require_eq_ok, Table.insertOne_eq_ok,
    Table.updateOne_eq_ok] at h
  obtain ⟨_, hexp, _, _, confirmations, _, db₂, hres, intents, ⟨i, hget, hcond, rfl⟩, db₃, hcand,
    hout⟩ := h
  obtain ⟨candidates, rfl⟩ := confirmCandidate_ok hcand
  cases hout
  simp only [Bool.and_eq_true, decide_eq_true_eq] at hcond hexp
  exact ⟨_, confirmations, candidates, db₂, i, _, hexp, _, hres, hget, hcond.1, rfl, rfl⟩

/-- **Promotion.**  A promotion that commits changed nothing, or confirmed the selected intent:
an exit without reservation, or an entry whose amount passed the capacity query. -/
theorem promote_ok {db db' : Db} {command : ExecutionCommand} {session : Session}
    {signingKey : String} {now : Time} {locked : String → Bool} {result : PromotionResult}
    (h : promoteNextConfirmedPostgresIntent db command session signingKey now locked =
      .ok (db', result)) :
    (db' = db ∧ ∀ id conf res, result ≠ .promoted id conf res) ∨
      ∃ row, nextConfirmable db command session now locked = some row ∧
        ((row.review.reviewType = .exit ∧
            confirmIntent db command session now row none = .ok (db', result)) ∨
          (row.review.reviewType = .entry ∧ ∃ amount : {a : ℚ // 0 < a},
            amount.1 = row.intent.maxRisk.getD 0 ∧
            promotionAllowed db row now amount.1 = true ∧
            confirmIntent db command session now row (some amount) = .ok (db', result))) := by
  simp only [promoteNextConfirmedPostgresIntent, bind_eq_ok, require_eq_ok] at h
  obtain ⟨_, _, h⟩ := h
  split at h
  · cases h
    exact Or.inl ⟨rfl, by simp⟩
  · next row hrow =>
    split at h
    · next hexit => exact Or.inr ⟨row, hrow, Or.inl ⟨hexit, h⟩⟩
    · next hentry =>
      split at h
      · next hpos =>
        split at h
        · next hcap => exact Or.inr ⟨row, hrow, Or.inr ⟨hentry, ⟨_, hpos⟩, rfl, hcap, h⟩⟩
        · cases h
          exact Or.inl ⟨rfl, by simp⟩
      · cases h

end Promotion

/-! ## Claim and release -/

/-- The intent update of a claim and of its release. -/
def Intent.withStatus (status : IntentStatus) (now : Time) (i : Intent) : Intent :=
  { i with status, updatedAt := now, version := i.version + 1 }

theorem Intent.withStatus_keeps (status : IntentStatus) (now : Time) :
    Keeps (Intent.withStatus status now) :=
  ⟨fun _ ↦ rfl, fun _ _ ↦ Iff.rfl⟩

theorem claimRow_some {db : Db} {command : ExecutionCommand} {now : Time} {i : Intent}
    {row : AutonomousExecutionIntentRow} (h : claimRow db command now i = some row) :
    ∃ join, claimJoin db i = some join ∧ claimable db command now i join = true ∧
      row.intent = i ∧ row.review = join.review := by
  unfold claimRow at h
  rw [Option.bind_eq_bind, Option.bind_eq_some_iff] at h
  obtain ⟨join, hjoin, hif⟩ := h
  split at hif
  · next hclaim =>
    cases hif
    exact ⟨join, hjoin, hclaim, rfl, rfl⟩
  · cases hif

theorem claimJoin_review {db : Db} {i : Intent} {join : ClaimJoin}
    (h : claimJoin db i = some join) :
    i.executionReviewId.bind db.reviews.get? = some join.review := by
  unfold claimJoin at h
  simp only [Option.bind_eq_bind, Option.bind_eq_some_iff] at h
  obtain ⟨_, _, _, _, id, hid, review, hreview, _, _, _, _, _, _, _, _, hif⟩ := h
  split at hif
  · cases hif
    rw [hid]
    exact hreview
  · cases hif

/-- **Claim.**  A claim that commits took a stored ready intent that the claim query accepts to
`submission_pending`. -/
theorem claimIntent_ok {db db' : Db} {command : ExecutionCommand} {session : Session}
    {now : Time} {signature : Option String} {locked : String → Bool}
    {row : AutonomousExecutionIntentRow}
    (h : claimIntent db command session now signature locked = .ok (db', row)) :
    ∃ join, db.intents.get? row.intent.id = some row.intent ∧
      claimJoin db row.intent = some join ∧ row.review = join.review ∧
      claimable db command now row.intent join = true ∧
      db' = { db with
        intents := db.intents.modify row.intent.id (Intent.withStatus .submissionPending now)
          (Intent.withStatus_keeps _ _) } := by
  unfold claimIntent at h
  split at h
  · cases h
  · next row' hrow =>
    obtain ⟨i, hi, hclaim⟩ := List.mem_filterMap.1 (mem_of_firstBy hrow)
    have hmem := (List.mem_filter.1 hi).1
    simp only [bind_eq_ok, Table.updateOne_eq_ok] at h
    obtain ⟨_, _, _, _, intents, ⟨i', _, _, rfl⟩, hout⟩ := h
    cases hout
    obtain ⟨join, hjoin, hable, rfl, hreview⟩ := claimRow_some hclaim
    exact ⟨join, Table.get?_of_mem hmem, hjoin, hreview, hable, rfl⟩

theorem releaseClaim_ok {db db' : Db} {row : AutonomousExecutionIntentRow} {session : Session}
    {now : Time} {reason : String} (h : releaseClaim db row session now reason = .ok db') :
    ∃ i candidates, db.intents.get? row.intent.id = some i ∧ i.status = .submissionPending ∧
      db' = { db with
        intents := db.intents.modify row.intent.id (Intent.withStatus .readyForSubmission now)
          (Intent.withStatus_keeps _ _)
        candidates } := by
  simp only [releaseClaim, bind_eq_ok, Table.updateOne_eq_ok] at h
  obtain ⟨intents, ⟨i, hget, hcond, rfl⟩, hcand⟩ := h
  obtain ⟨candidates, rfl⟩ := persistCandidateExecutionStage_ok hcand
  simp only [Bool.and_eq_true, decide_eq_true_eq] at hcond
  exact ⟨i, candidates, hget, hcond.1, rfl⟩

/-! ## Submission -/

/-- The intent update of a persisted attempt. -/
def Intent.attempt (type : ReviewType) (now : Time) (i : Intent) : Intent :=
  { i with lifecycleState := attemptState type, updatedAt := now, version := i.version + 1 }

theorem Intent.attempt_keeps (type : ReviewType) (now : Time) : Keeps (Intent.attempt type now) :=
  ⟨fun _ ↦ rfl, fun _ _ ↦ Iff.rfl⟩

/-- The intent update of an acknowledgement. -/
def Intent.acknowledge (state : LifecycleState) (now : Time) (i : Intent) : Intent :=
  { i with
    status := acknowledgedStatus state
    lifecycleState := state
    submittedAt := some now
    terminalAt := if (unfilledTerminal state).isSome then some now else i.terminalAt
    reservationReleaseReason :=
      (unfilledTerminal state).map Prod.snd <|> i.reservationReleaseReason
    updatedAt := now
    version := i.version + 1 }

theorem Intent.acknowledge_keeps (state : LifecycleState) (now : Time) :
    Keeps (Intent.acknowledge state now) :=
  ⟨fun _ ↦ rfl, fun _ _ ↦ Iff.rfl⟩

/-- The intent update of an uncertain submission. -/
def Intent.doubt (type : ReviewType) (now : Time) (i : Intent) : Intent :=
  { i with
    status := .ambiguous
    lifecycleState := ambiguousState type
    updatedAt := now
    version := i.version + 1 }

theorem Intent.doubt_keeps (type : ReviewType) (now : Time) : Keeps (Intent.doubt type now) :=
  ⟨fun _ ↦ rfl, fun _ _ ↦ Iff.rfl⟩

/-- The intent update of a rejected submission. -/
def Intent.reject (now : Time) (i : Intent) : Intent :=
  { i with
    status := .failed
    lifecycleState := .failedTerminal
    terminalAt := some now
    updatedAt := now
    version := i.version + 1 }

theorem Intent.reject_keeps (now : Time) : Keeps (Intent.reject now) :=
  ⟨fun _ ↦ rfl, fun _ _ ↦ Iff.rfl⟩

/-- Consuming the evidence rewrites statuses of the review and the confirmation only. -/
theorem consumeEvidence_ok {db db' : Db} {intent : Intent} {session : Session} {now : Time}
    {reviewStatuses : List ReviewStatus} {confirmationStatuses : List ConfirmationStatus}
    (h : consumeEvidence db intent session now reviewStatuses confirmationStatuses = .ok db') :
    ∃ reviews confirmations, db' = { db with reviews, confirmations } ∧
      ∀ id r, db.reviews.get? id = some r →
        ∃ r', reviews.get? id = some r' ∧ r'.reviewType = r.reviewType := by
  simp only [consumeEvidence, bind_eq_ok, Table.updateOne_eq_ok] at h
  obtain ⟨reviews, ⟨_, _, _, rfl⟩, confirmations, _, hout⟩ := h
  cases hout
  refine ⟨_, confirmations, rfl, fun id r hr ↦ ?_⟩
  rw [Table.get?_modify, hr]
  split
  · exact ⟨_, rfl, rfl⟩
  · exact ⟨r, rfl, rfl⟩

section Record

variable [Hashing]

/-- **Attempt.**  The attempt event was not there before and is there now. -/
theorem recordSubmissionAttempt_ok {db db' : Db} {row : AutonomousExecutionIntentRow}
    {payload : AlpacaPaperOrderRequest} {command : ExecutionCommand} {session : Session}
    {now : Time} {context : LifecycleContext} {receipt : BrokerMutationReceipt}
    (h : recordSubmissionAttempt db row payload command session now context =
      .ok (db', receipt)) :
    ∃ events i, db.events.insert? (attemptEvent row.intent now) = some events ∧
      db.intents.get? row.intent.id = some i ∧ i.status = .submissionPending ∧
      db' = { db with
        events
        intents := db.intents.modify row.intent.id (Intent.attempt row.review.reviewType now)
          (Intent.attempt_keeps _ _) } := by
  simp only [recordSubmissionAttempt, bind_eq_ok, require_eq_ok, Table.insertOne_eq_ok,
    Table.updateOne_eq_ok] at h
  obtain ⟨_, _, _, _, events, hins, intents, ⟨i, hget, hcond, rfl⟩, hout⟩ := h
  cases hout
  simp only [Bool.and_eq_true, decide_eq_true_eq] at hcond
  exact ⟨events, i, hins, hget, hcond.1, rfl⟩

theorem releaseTerminalReservation_ok {db db' : Db} {id intentId : String} {session : Session}
    {state : ReservationTerminalState} {reason : ReleaseReason} {now : Time}
    (h : releaseTerminalReservation db id intentId session state reason now = .ok db') :
    ∃ r transitions, db.reservations.get? id = some r ∧ r.status.live ∧
      adjustCount db.allocations r.accountId r.strategyKey = 1 ∧
      db.reservationTransitions.insert? (terminalTransition id intentId state reason now) =
        some transitions ∧
      db' = { db with
        reservations := db.reservations.modify id (Reservation.release .released reason now)
          (Reservation.release_keeps _ _ _)
        allocations := adjust db.allocations r.accountId r.strategyKey
          (fun x ↦ max 0 (x - r.amount)) 0 now
        reservationTransitions := transitions } := by
  unfold releaseTerminalReservation at h
  split at h
  · cases h
  · next r hget =>
    simp only [bind_eq_ok, require_eq_ok, Table.insertOne_eq_ok, Bool.and_eq_true,
      decide_eq_true_eq] at h
    obtain ⟨_, ⟨⟨hlive, _⟩, hcount⟩, transitions, hins, hout⟩ := h
    cases hout
    exact ⟨r, transitions, hget, hlive, hcount, hins, rfl⟩

theorem settleAcknowledged_commit_ok {db db' : Db} {intent : Intent} {session : Session}
    {state : LifecycleState} {now : Time} {id : String} (hid : intent.reservationId = some id)
    (hstate : unfilledTerminal state = none)
    (h : settleAcknowledged db intent session state now = .ok db') :
    ∃ r, db.reservations.get? id = some r ∧ r.status = .active ∧
      db' = { db with
        reservations := db.reservations.modify id (Reservation.commit now)
          (Reservation.commit_keeps now) } := by
  simp only [settleAcknowledged, hid, hstate, bind_eq_ok, Table.updateOne_eq_ok] at h
  obtain ⟨reservations, ⟨r, hget, hcond, rfl⟩, hout⟩ := h
  cases hout
  simp only [Bool.and_eq_true, decide_eq_true_eq] at hcond
  exact ⟨r, hget, hcond.1, rfl⟩

/-- **Acknowledgement.**  The order and its event are stored, the intent was pending, and its
reservation is settled by the state of the order. -/
theorem recordSubmission_ok {db db' : Db} {row : AutonomousExecutionIntentRow}
    {data : AlpacaSubmittedOrder} {httpStatus : Int} {receipt : BrokerMutationReceipt}
    {session : Session} {now : Time} {result : RecordedSubmission}
    (h : recordSubmission db row data httpStatus receipt session now = .ok (db', result)) :
    ∃ order orders event events i db₁ reviews confirmations candidates orderId occurredAt,
      let status := Text.toLowerCase data.status.text
      let state := lifecycleStateForBrokerStatus row.review.reviewType status
      acknowledgedOrder row.intent data orderId data.id.text status occurredAt = .ok order ∧
      db.orders.insert? order = some orders ∧ db.events.insert? event = some events ∧
      db.intents.get? row.intent.id = some i ∧ i.status = .submissionPending ∧
      settleAcknowledged
        { db with
          orders, events
          intents := db.intents.modify row.intent.id (Intent.acknowledge state now)
            (Intent.acknowledge_keeps _ _) } row.intent session state now = .ok db₁ ∧
      (∀ id r, db₁.reviews.get? id = some r →
        ∃ r', reviews.get? id = some r' ∧ r'.reviewType = r.reviewType) ∧
      db' = { db₁ with reviews, confirmations, candidates } := by
  simp only [recordSubmission, bind_eq_ok, require_eq_ok, Table.insertOne_eq_ok,
    Table.updateOne_eq_ok] at h
  obtain ⟨_, _, ⟨stamp, occurredAt⟩, _, order, horder, _, _, orders, hord, _, _, events, hev,
    intents, ⟨i, hget, hcond, rfl⟩, db₁, hset, db₂, hcons, db₃, hcand, hout⟩ := h
  obtain ⟨reviews, confirmations, rfl, hrev⟩ := consumeEvidence_ok hcons
  obtain ⟨candidates, rfl⟩ := persistCandidateExecutionStage_ok hcand
  cases hout
  simp only [Bool.and_eq_true, decide_eq_true_eq] at hcond
  exact ⟨order, orders, _, events, i, db₁, reviews, confirmations, candidates, _, occurredAt,
    horder, hord, hev, hget, hcond.1, hset, hrev, rfl⟩

theorem recordAmbiguousSubmission_ok {db db' : Db} {row : AutonomousExecutionIntentRow}
    {receipt receipt' : BrokerMutationReceipt} {session : Session} {now : Time}
    {classification : String}
    (h : recordAmbiguousSubmission db row receipt session now classification =
      .ok (db', receipt')) :
    ∃ event events i candidates, db.events.insert? event = some events ∧
      db.intents.get? row.intent.id = some i ∧ i.status = .submissionPending ∧
      db' = { db with
        events, candidates
        intents := db.intents.modify row.intent.id (Intent.doubt row.review.reviewType now)
          (Intent.doubt_keeps _ _) } := by
  simp only [recordAmbiguousSubmission, bind_eq_ok, Table.insertOne_eq_ok,
    Table.updateOne_eq_ok] at h
  obtain ⟨intents, ⟨i, hget, hcond, rfl⟩, events, hev, db₁, hcand, hout⟩ := h
  obtain ⟨candidates, rfl⟩ := persistCandidateExecutionStage_ok hcand
  cases hout
  simp only [Bool.and_eq_true, decide_eq_true_eq] at hcond
  exact ⟨_, events, i, candidates, hev, hget, hcond.1, rfl⟩

theorem recordDeterministicSubmissionFailure_ok {db db' : Db}
    {row : AutonomousExecutionIntentRow} {receipt receipt' : BrokerMutationReceipt}
    {session : Session} {now : Time}
    (h : recordDeterministicSubmissionFailure db row receipt session now =
      .ok (db', receipt')) :
    ∃ event events i, db.events.insert? event = some events ∧
      db.intents.get? row.intent.id = some i ∧ i.status = .submissionPending ∧
      db' = { db with
        events
        intents := db.intents.modify row.intent.id (Intent.reject now)
          (Intent.reject_keeps now) } := by
  simp only [recordDeterministicSubmissionFailure, bind_eq_ok, Table.insertOne_eq_ok,
    Table.updateOne_eq_ok] at h
  obtain ⟨intents, ⟨i, hget, hcond, rfl⟩, events, hev, hout⟩ := h
  cases hout
  simp only [Bool.and_eq_true, decide_eq_true_eq] at hcond
  exact ⟨_, events, i, hev, hget, hcond.1, rfl⟩

theorem recordReconciledSubmissionReceipt_ok {db db' : Db} {row : AutonomousExecutionIntentRow}
    {receipt receipt' : BrokerMutationReceipt} {recovery : RecoveredOrder} {session : Session}
    {now : Time}
    (h : recordReconciledSubmissionReceipt db row receipt recovery session now =
      .ok (db', receipt')) :
    ∃ event events reviews confirmations candidates, db.events.insert? event = some events ∧
      (∀ id r, db.reviews.get? id = some r →
        ∃ r', reviews.get? id = some r' ∧ r'.reviewType = r.reviewType) ∧
      db' = { db with events, reviews, confirmations, candidates } := by
  simp only [recordReconciledSubmissionReceipt, bind_eq_ok, require_eq_ok,
    Table.insertOne_eq_ok] at h
  obtain ⟨_, _, events, hev, db₁, hcons, db₂, hcand, hout⟩ := h
  obtain ⟨reviews, confirmations, rfl, hrev⟩ := consumeEvidence_ok hcons
  obtain ⟨candidates, rfl⟩ := persistCandidateExecutionStage_ok hcand
  cases hout
  exact ⟨_, events, reviews, confirmations, candidates, hev, hrev, rfl⟩

end Record

end AlpacaTrading
