import AlpacaTrading.Execution.Inversion
import AlpacaTrading.Store.Effect

/-!
# The execution service as steps of the machine

Each transaction of the execution service is one step of the abstract machine.  The one exception
is the deterministic failure: it ends the intent and leaves its reservation alone, which no
routine step does; it is kept apart as `Rejects`.
-/

namespace AlpacaTrading

/-! ## Small steps -/

section Frames

variable {db db' : Db}

/-- A statement that changes neither intents nor the ledger. -/
theorem Effect.quiet (hg : Grows db db') (hi : db'.intents = db.intents)
    (hl : SameLedger db db') : Effect db db' :=
  ⟨hg, .moves (.of_eq hi) hl⟩

theorem Effect.refl (db : Db) : Effect db db :=
  .quiet (.refl db) rfl ⟨rfl, rfl, rfl⟩

/-- A statement that inserts an event and leaves the reviews alone. -/
theorem Grows.of_insert {e : BrokerEvent} {events : Table BrokerEvent}
    (h : db.events.insert? e = some events) (he : db'.events = events)
    (hr : db'.reviews = db.reviews) : Grows db db' := by
  refine ⟨fun x hx ↦ ?_, fun id r h ↦ ⟨r, ?_, rfl⟩⟩
  · rw [he]
    exact Table.mem_of_insert? h hx
  · rwa [hr]

/-- A statement that inserts an event and rewrites reviews. -/
theorem Grows.of_insert_reviews {e : BrokerEvent} {events : Table BrokerEvent}
    (h : db.events.insert? e = some events) (he : db'.events = events)
    (hr : ∀ id r, db.reviews.get? id = some r →
      ∃ r', db'.reviews.get? id = some r' ∧ r'.reviewType = r.reviewType) : Grows db db' := by
  refine ⟨fun x hx ↦ ?_, hr⟩
  rw [he]
  exact Table.mem_of_insert? h hx

theorem kind_of_review {i : Intent} {review : Review}
    (h : i.executionReviewId.bind db.reviews.get? = some review) :
    i.kind db = some review.reviewType := by
  unfold Intent.kind
  rw [h, Option.map_some]

theorem reserved_of_none {i : Intent} (h : i.reservationId = none) : i.reserved db = false := by
  unfold Intent.reserved
  rw [h, Option.any_none]

theorem attemptState_not_exitOrder (type : ReviewType) : attemptState type ∉ exitOrderStates := by
  cases type <;> simp [attemptState, exitOrderStates]

theorem ambiguousState_not_exitOrder (type : ReviewType) :
    ambiguousState type ∉ exitOrderStates := by
  cases type <;> simp [ambiguousState, exitOrderStates]

theorem acknowledgedStatus_terminal {state : LifecycleState}
    {t : ReservationTerminalState × ReleaseReason} (h : unfilledTerminal state = some t) :
    acknowledgedStatus state ∈ deadStatuses := by
  cases state <;> simp_all [unfilledTerminal, acknowledgedStatus, deadStatuses]

theorem acknowledgedStatus_open {state : LifecycleState} (h : unfilledTerminal state = none) :
    acknowledgedStatus state = .submitted := by
  cases state <;> simp_all [unfilledTerminal, acknowledgedStatus]

end Frames

/-! ## Claim and release -/

section Claim

variable {db db' : Db} {command : ExecutionCommand} {session : Session} {now : Time}
  {row : AutonomousExecutionIntentRow}

/-- A claim moves a ready intent whose reservation, if it has one, is live. -/
theorem claim_effect {signature : Option String} {locked : String → Bool}
    (h : claimIntent db command session now signature locked = .ok (db', row)) :
    Effect db db' ∧ Known db' row.intent row.review.reviewType := by
  obtain ⟨join, hget, hjoin, hreview, hable, rfl⟩ := claimIntent_ok h
  have hreview' := claimJoin_review hjoin
  rw [← hreview] at hreview'
  unfold claimable at hable
  simp only [Bool.and_eq_true, decide_eq_true_eq] at hable
  obtain ⟨⟨⟨⟨⟨⟨⟨hs, _⟩, _⟩, _⟩, _⟩, _⟩, _⟩, hres⟩ := hable
  have hlive : ∀ id, row.intent.reservationId = some id → liveReservation db id := by
    intro id hid
    unfold claimReservation at hres
    rw [hid] at hres
    obtain ⟨r, hr, hcond⟩ := (Option.any_eq_true _ _).1 hres
    simp only [Bool.and_eq_true, decide_eq_true_eq] at hcond
    unfold liveReservation
    rw [hr, Option.any_some, hcond.1.1]
    rfl
  have heffect : Effect db { db with
      intents := db.intents.modify row.intent.id (Intent.withStatus .submissionPending now)
        (Intent.withStatus_keeps _ _) } :=
    ⟨.of_eq rfl rfl, .moves (.of_modify (Intent.withStatus_keeps _ _) hget rfl
      ⟨rfl, rfl, fun _ h ↦ h⟩ (.claim hs rfl hlive)) ⟨rfl, rfl, rfl⟩⟩
  refine ⟨heffect, row.intent.withStatus .submissionPending now, ?_, rfl, ?_, rfl, ?_⟩
  · rw [Table.mem_modify]
    exact ⟨row.intent, Table.mem_of_get? hget, if_pos (Table.key_of_get? hget)⟩
  · simp [Intent.withStatus]
  · exact kind_of_review hreview'

theorem releaseClaim_effect {reason : String}
    (h : releaseClaim db row session now reason = .ok db') : Effect db db' := by
  obtain ⟨i, candidates, hget, hs, rfl⟩ := releaseClaim_ok h
  have hid : i.id = row.intent.id := Table.key_of_get? hget
  rw [← hid] at hget ⊢
  exact ⟨.of_eq rfl rfl, .moves
    (.of_modify (Intent.withStatus_keeps _ _) hget rfl ⟨rfl, rfl, fun _ h ↦ h⟩
      (.hold hs (by simp [Intent.withStatus])))
    ⟨rfl, rfl, rfl⟩⟩

end Claim

/-! ## Promotion -/

section Transactions

variable [Hashing] {db db' : Db} {command : ExecutionCommand} {session : Session} {now : Time}
  {row : AutonomousExecutionIntentRow} {receipt receipt' : BrokerMutationReceipt}

theorem promote_effect {signingKey : String} {locked : String → Bool} {result : PromotionResult}
    (h : promoteNextConfirmedPostgresIntent db command session signingKey now locked =
      .ok (db', result)) : Effect db db' := by
  rcases promote_ok h with
    ⟨rfl, _⟩ | ⟨row, hrow, ⟨htype, hconf⟩ | ⟨htype, amount, _, _, hconf⟩⟩
  · exact .refl _
  · obtain ⟨hget, hreview, _, _⟩ := nextConfirmable_some hrow
    obtain ⟨confId, confirmations, candidates, db₂, i, _, _, _, hres, hi, hs, rfl, _⟩ :=
      confirmIntent_ok hconf
    cases hres
    obtain rfl : row.intent = i := Option.some_inj.1 (hget.symm.trans hi)
    have hkind := kind_of_review hreview
    rw [htype] at hkind
    exact ⟨.of_eq rfl rfl, .confirmExit
      (.of_modify (Intent.promote_keeps _ _ _) hget rfl rfl fun _ h ↦ h) hs rfl hkind rfl ⟨rfl, rfl, rfl⟩⟩
  · obtain ⟨hget, hreview, _, _⟩ := nextConfirmable_some hrow
    obtain ⟨confId, confirmations, candidates, db₂, i, _, _, _, hres, hi, hs, rfl, _⟩ :=
      confirmIntent_ok hconf
    obtain ⟨reservations, hins, hcount, rfl⟩ := reserve_some_ok hres
    obtain rfl : row.intent = i := Option.some_inj.1 (hget.symm.trans hi)
    have hkind := kind_of_review hreview
    rw [htype] at hkind
    exact ⟨.of_eq rfl rfl, .confirmEntry
      (.of_modify (Intent.promote_keeps _ _ _) hget rfl rfl fun _ h ↦ h) hs rfl hkind rfl
      ⟨rfl, ⟨rfl, rfl⟩, hins, exists_serves_of_adjustCount hcount, ⟨now, rfl⟩, rfl⟩⟩

/-! ## Submission -/

theorem attempt_effect {payload : AlpacaPaperOrderRequest} {context : LifecycleContext}
    (h : recordSubmissionAttempt db row payload command session now context =
      .ok (db', receipt)) : Effect db db' := by
  obtain ⟨events, i, hins, hget, hs, rfl⟩ := recordSubmissionAttempt_ok h
  have hid : i.id = row.intent.id := Table.key_of_get? hget
  rw [← hid] at hget ⊢
  refine ⟨.of_insert hins rfl rfl, .moves (.of_modify (Intent.attempt_keeps _ _) hget rfl
    ⟨rfl, rfl, fun _ h ↦ ?_⟩ (.hold hs (by simp [Intent.attempt, hs]))) ⟨rfl, rfl, rfl⟩⟩
  exact absurd h (attemptState_not_exitOrder _)

theorem ambiguous_effect {classification : String}
    (h : recordAmbiguousSubmission db row receipt session now classification =
      .ok (db', receipt')) : Effect db db' := by
  obtain ⟨event, events, i, candidates, hins, hget, hs, rfl⟩ := recordAmbiguousSubmission_ok h
  have hid : i.id = row.intent.id := Table.key_of_get? hget
  rw [← hid] at hget ⊢
  refine ⟨.of_insert hins rfl rfl, .moves (.of_modify (Intent.doubt_keeps _ _) hget rfl
    ⟨rfl, rfl, fun _ h ↦ ?_⟩ (.hold hs (by simp [Intent.doubt]))) ⟨rfl, rfl, rfl⟩⟩
  exact absurd h (ambiguousState_not_exitOrder _)

/-- The frame of an acknowledgement around the settlement of the reservation. -/
theorem settleAcknowledged_frame {intent : Intent} {state : LifecycleState}
    (h : settleAcknowledged db intent session state now = .ok db') :
    db'.intents = db.intents ∧ db'.events = db.events ∧ db'.reviews = db.reviews := by
  unfold settleAcknowledged at h
  split at h
  · cases h
    exact ⟨rfl, rfl, rfl⟩
  · obtain ⟨_, _, _, _, _, _, rfl⟩ := releaseTerminalReservation_ok h
    exact ⟨rfl, rfl, rfl⟩
  · rw [bind_eq_ok] at h
    obtain ⟨_, _, hout⟩ := h
    cases hout
    exact ⟨rfl, rfl, rfl⟩

/-- The ledger side of an acknowledgement: the reservation of an open order is committed, that of
a refused one released. -/
theorem settleAcknowledged_routine {db₀ : Db} {i : Intent} {intent : Intent}
    {state : LifecycleState} (hget : db.intents.get? i.id = some i)
    (hs : i.status = .submissionPending) (hres : i.reservationId = intent.reservationId)
    (hentry : i.kind db = some .entry → state ∉ exitOrderStates)
    (hintents : db₀.intents = db.intents.modify i.id (Intent.acknowledge state now)
      (Intent.acknowledge_keeps _ _)) (hledger : SameLedger db db₀)
    (h : settleAcknowledged db₀ intent session state now = .ok db') : Routine db db' := by
  obtain ⟨hintents', _, _⟩ := settleAcknowledged_frame h
  have hreplaces : Replaces db db' i (i.acknowledge state now) :=
    .of_modify (Intent.acknowledge_keeps state now) hget (hintents'.trans hintents) rfl
      fun he hmem ↦ absurd hmem (hentry he)
  obtain ⟨hres₀, halloc₀, htr₀⟩ := hledger
  cases hrid : intent.reservationId with
  | none =>
    -- Without a reservation only the intent moves.
    simp only [settleAcknowledged, hrid, Except.ok.injEq] at h
    subst h
    refine .moves (.of_modify (Intent.acknowledge_keeps state now) hget hintents
      ⟨rfl, rfl, fun he hmem ↦ absurd hmem (hentry he)⟩ ?_) ⟨hres₀, halloc₀, htr₀⟩
    cases hterm : unfilledTerminal state with
    | none => exact .acknowledge hs (acknowledgedStatus_open hterm) (hres.trans hrid)
    | some t =>
      exact .abandon (acknowledgedStatus_terminal hterm)
        (Or.inr ⟨by simp [hs], reserved_of_none (hres.trans hrid)⟩)
  | some rid =>
    cases hterm : unfilledTerminal state with
    | none =>
      obtain ⟨r, hr, hactive, rfl⟩ := settleAcknowledged_commit_ok hrid hterm h
      obtain rfl : r.id = rid := Table.key_of_get? hr
      rw [hres₀] at hr
      refine .commit hreplaces hs (acknowledgedStatus_open hterm) (hres.trans hrid) rfl
        ⟨hr, hactive, ⟨now, ?_⟩, halloc₀, htr₀⟩
      rw [← hres₀]
    | some t =>
      obtain ⟨terminal, reason⟩ := t
      simp only [settleAcknowledged, hrid, hterm] at h
      obtain ⟨r, transitions, hr, hlive, _, hins, rfl⟩ := releaseTerminalReservation_ok h
      obtain rfl : r.id = rid := Table.key_of_get? hr
      rw [hres₀] at hr
      rw [htr₀] at hins
      refine .drop hreplaces (by simp [hs]) (acknowledgedStatus_terminal hterm)
        (hres.trans hrid) rfl ⟨hr, hlive, ⟨.released, reason, now, rfl, by rw [← hres₀]⟩,
          Or.inl ⟨_, 0, now, fun x hx ↦ ?_, by rw [← halloc₀]⟩, fun t ht ↦ ?_⟩
      · exact max_eq_right (by linarith)
      · rw [Table.rows_of_insert? hins, List.mem_append, List.mem_singleton] at ht
        refine ht.imp id fun heq ↦ ?_
        rw [heq]
        rfl

/-- An acknowledgement is a step of the machine. -/
theorem acknowledge_effect {data : AlpacaSubmittedOrder} {httpStatus : Int}
    {result : RecordedSubmission} (hknown : Known db row.intent row.review.reviewType)
    (h : recordSubmission db row data httpStatus receipt session now = .ok (db', result)) :
    Effect db db' := by
  obtain ⟨order, orders, event, events, i, db₁, reviews, confirmations, candidates, _, _, _, _,
    hev, hget, hs, hset, hrev, rfl⟩ := recordSubmission_ok h
  obtain ⟨_, _, hres, hkind⟩ := hknown.stored hget
  obtain ⟨_, hevents, hreviews⟩ := settleAcknowledged_frame hset
  rw [hreviews] at hrev
  have hid : i.id = row.intent.id := Table.key_of_get? hget
  rw [← hid] at hget hset
  have hroutine : Routine db db₁ := by
    refine settleAcknowledged_routine hget hs hres (fun he ↦ ?_) ?_ ?_ hset
    · rw [hkind, Option.some_inj] at he
      rw [he]
      exact entryState_not_exitOrder _
    · rfl
    · exact ⟨rfl, rfl, rfl⟩
  have hgrows : Grows db { db₁ with reviews, confirmations, candidates } :=
    .of_insert_reviews hev hevents hrev
  exact ⟨hgrows, hroutine.frame rfl rfl rfl rfl⟩

theorem receipt_effect {recovery : RecoveredOrder}
    (h : recordReconciledSubmissionReceipt db row receipt recovery session now =
      .ok (db', receipt')) : Effect db db' := by
  obtain ⟨event, events, reviews, confirmations, candidates, hins, hrev, rfl⟩ :=
    recordReconciledSubmissionReceipt_ok h
  exact .quiet (.of_insert_reviews hins rfl hrev) rfl ⟨rfl, rfl, rfl⟩

/-- A pending intent fails and its reservation stays as it is. -/
structure Rejects (db db' : Db) (i : Intent) : Prop where
  grows : Grows db db'
  ledger : SameLedger db db'
  replaces : ∃ i', Replaces db db' i i' ∧ i'.status = .failed ∧
    i'.reservationId = i.reservationId
  status : i.status = .submissionPending

/-- **The deterministic failure is not routine**: it fails the intent and keeps the ledger. -/
theorem rejection_effect
    (h : recordDeterministicSubmissionFailure db row receipt session now =
      .ok (db', receipt')) : ∃ i, i.id = row.intent.id ∧ Rejects db db' i := by
  obtain ⟨event, events, i, hins, hget, hs, rfl⟩ := recordDeterministicSubmissionFailure_ok h
  have hid : i.id = row.intent.id := Table.key_of_get? hget
  rw [← hid] at hget ⊢
  refine ⟨i, rfl, .of_insert hins rfl rfl, ⟨rfl, rfl, rfl⟩, ⟨i.reject now, ?_, rfl, rfl⟩, hs⟩
  exact .of_modify (Intent.reject_keeps _) hget rfl rfl
    fun _ h ↦ by simp [Intent.reject, exitOrderStates] at h

end Transactions

end AlpacaTrading
