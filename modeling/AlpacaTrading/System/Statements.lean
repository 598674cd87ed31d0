import AlpacaTrading.System.Machine

/-!
# The statements of the system

`Sys.step_cases` says what a step does to intents and the ledger.  Other tables need a finer view:
which statement was committed, and with what.  `Executes` lists the transactions of an execution
run and `Committed` the statements of the other services but the sync, each with the facts the
service established before it; `Sys.step_committed` shows that a step is a transaction, a sequence
of statements, or a statement of a sync.  A property of one table is then proved statement by
statement.
-/

namespace AlpacaTrading

section Statements

variable [Hashing]

/-! ## The transactions of a run -/

/-- One transaction of an execution run; `idle` is one that was not made or rolled back. -/
inductive Executes (db db' : Db) : Prop
  | idle (h : db' = db)
  | promote {command : ExecutionCommand} {session : Session} {signingKey : String} {now : Time}
      {locked : String → Bool} {result : PromotionResult}
      (h : promoteNextConfirmedPostgresIntent db command session signingKey now locked =
        .ok (db', result))
  | claim {command : ExecutionCommand} {session : Session} {now : Time}
      {signature : Option String} {locked : String → Bool} {row : AutonomousExecutionIntentRow}
      (h : claimIntent db command session now signature locked = .ok (db', row))
  | release {row : AutonomousExecutionIntentRow} {session : Session} {now : Time} {reason : String}
      (hknown : Known db row.intent row.review.reviewType)
      (h : releaseClaim db row session now reason = .ok db')
  | attempt {row : AutonomousExecutionIntentRow} {payload : AlpacaPaperOrderRequest}
      {command : ExecutionCommand} {session : Session} {now : Time} {context : LifecycleContext}
      {receipt : BrokerMutationReceipt} (hknown : Known db row.intent row.review.reviewType)
      (h : recordSubmissionAttempt db row payload command session now context = .ok (db', receipt))
  | reject {row : AutonomousExecutionIntentRow} {receipt receipt' : BrokerMutationReceipt}
      {session : Session} {now : Time} (hknown : Known db row.intent row.review.reviewType)
      (h : recordDeterministicSubmissionFailure db row receipt session now = .ok (db', receipt'))
  | record {row : AutonomousExecutionIntentRow} {data : AlpacaSubmittedOrder} {httpStatus : Int}
      {receipt : BrokerMutationReceipt} {session : Session} {now : Time}
      {result : RecordedSubmission} (hknown : Known db row.intent row.review.reviewType)
      (h : recordSubmission db row data httpStatus receipt session now = .ok (db', result))
  | doubt {row : AutonomousExecutionIntentRow} {receipt receipt' : BrokerMutationReceipt}
      {session : Session} {now : Time} {classification : String}
      (hknown : Known db row.intent row.review.reviewType)
      (h : recordAmbiguousSubmission db row receipt session now classification =
        .ok (db', receipt'))
  | receipt {row : AutonomousExecutionIntentRow} {receipt receipt' : BrokerMutationReceipt}
      {recovery : RecoveredOrder} {session : Session} {now : Time}
      (hknown : Known db row.intent row.review.reviewType)
      (h : recordReconciledSubmissionReceipt db row receipt recovery session now =
        .ok (db', receipt'))

/-- A transaction under a fault is the transaction or none. -/
theorem Executes.commit {α : Type} {db : Db} {outcome : Except String (Db × α)} (fault : Fault)
    (h : ∀ db' a, outcome = .ok (db', a) → Executes db db') :
    Executes db (fault.commit db outcome).1 := by
  have hfst : (fault.commit db outcome).1 = db ∨
      ∃ a, outcome = .ok ((fault.commit db outcome).1, a) := Fault.commit_fst
  rcases hfst with heq | ⟨a, heq⟩
  · exact .idle heq
  · exact h _ a heq

/-- The step recovers an uncertain submission. -/
def Run.Recovers (run : Run) (act : RunAct) (db db' : Db) : Prop :=
  ∃ row receipt dbNow now clock answers, run.phase = .recovering row receipt ∧
    act = .recover dbNow now clock answers ∧
    db' = (recoverAmbiguousPostgresSubmission db { fence := run.config.fence, dbNow } now
      row.intent.clientOrderId answers).1

/-- **A step of a run is one of its transactions**, or the recovery of an uncertain submission. -/
theorem Run.step_executes {run : Run} {act : RunAct} {db db' : Db} {phase : Phase}
    {call : Option SubmissionKey} (hvalid : run.phase.Valid db)
    (h : run.step act db = some (db', phase, call)) :
    Executes db db' ∨ run.Recovers act db db' := by
  have hknown : ∀ row, run.phase.row? = some row → Known db row.intent row.review.reviewType :=
    hvalid
  unfold Run.step at h
  dsimp only at h
  split at h
  · -- counting
    obtain ⟨rfl, -⟩ := Prod.mk.inj (Option.some_inj.1 h)
    exact Or.inl (.idle rfl)
  · -- promoting
    obtain ⟨rfl, -⟩ := Prod.mk.inj (Option.some_inj.1 h)
    exact Or.inl (Executes.commit _ fun _ _ ↦ .promote)
  · -- claiming
    obtain ⟨rfl, -⟩ := Prod.mk.inj (Option.some_inj.1 h)
    exact Or.inl (Executes.commit _ fun _ _ ↦ .claim)
  · -- checking
    obtain ⟨rfl, -⟩ := Prod.mk.inj (Option.some_inj.1 h)
    exact Or.inl (.idle rfl)
  · -- releasing
    next hphase =>
    obtain ⟨rfl, -⟩ := Prod.mk.inj (Option.some_inj.1 h)
    refine Or.inl (Executes.commit _ fun _ _ hok ↦ .release (hknown _ ?_) (map_eq_ok hok))
    rw [hphase]
    rfl
  · -- attempting
    next hphase =>
    obtain ⟨rfl, -⟩ := Prod.mk.inj (Option.some_inj.1 h)
    refine Or.inl (Executes.commit _ fun _ _ ↦ .attempt (hknown _ ?_))
    rw [hphase]
    rfl
  · -- submitting
    obtain ⟨rfl, -⟩ := Prod.mk.inj (Option.some_inj.1 h)
    exact Or.inl (.idle rfl)
  · -- awaiting
    obtain ⟨rfl, -⟩ := Prod.mk.inj (Option.some_inj.1 h)
    exact Or.inl (.idle rfl)
  · -- rejecting
    next hphase =>
    obtain ⟨rfl, -⟩ := Prod.mk.inj (Option.some_inj.1 h)
    refine Or.inl (Executes.commit _ fun _ _ ↦ .reject (hknown _ ?_))
    rw [hphase]
    rfl
  · -- recording
    next hphase =>
    obtain ⟨rfl, -⟩ := Prod.mk.inj (Option.some_inj.1 h)
    refine Or.inl (Executes.commit _ fun _ _ ↦ .record (hknown _ ?_))
    rw [hphase]
    rfl
  · -- doubting
    next hphase =>
    obtain ⟨rfl, -⟩ := Prod.mk.inj (Option.some_inj.1 h)
    refine Or.inl (Executes.commit _ fun _ _ ↦ .doubt (hknown _ ?_))
    rw [hphase]
    rfl
  · -- recovering
    next hphase =>
    obtain ⟨rfl, -⟩ := Prod.mk.inj (Option.some_inj.1 h)
    exact Or.inr ⟨_, _, _, _, _, _, hphase, rfl, rfl⟩
  · -- receipting
    next hphase =>
    obtain ⟨rfl, -⟩ := Prod.mk.inj (Option.some_inj.1 h)
    refine Or.inl (Executes.commit _ fun _ _ ↦ .receipt (hknown _ ?_))
    rw [hphase]
    rfl
  · obtain ⟨rfl, -⟩ := Prod.mk.inj (Option.some_inj.1 h)
    exact Or.inl (.idle rfl)
  · cases h

theorem Run.Recovers.reconciles {run : Run} {act : RunAct} {db db' : Db}
    (h : run.Recovers act db db') : Relation.ReflTransGen Reconciles db db' := by
  obtain ⟨_, _, _, _, _, _, _, _, rfl⟩ := h
  exact recover_reconciles

/-! ## The tables recovery writes -/

theorem cancelStaleReady_tables {db : Db} {session : Session} {id : String} {now : Time} :
    ∃ intents reservations allocations reservationTransitions,
      (cancelStaleReady db session id now).1 =
        { db with intents, reservations, allocations, reservationTransitions } := by
  unfold cancelStaleReady
  split
  · exact ⟨_, _, _, _, rfl⟩
  · dsimp only
    split
    · exact ⟨_, _, _, _, rfl⟩
    · split
      · split
        · exact ⟨_, _, _, _, rfl⟩
        · split
          · exact ⟨_, _, _, _, rfl⟩
          · next hrelease =>
            obtain ⟨_, _, rfl⟩ := releaseStale_true hrelease
            exact ⟨_, _, _, _, rfl⟩
          · next hrelease =>
            obtain ⟨_, rfl⟩ := releaseStale_false hrelease
            exact ⟨_, _, _, _, rfl⟩
      · exact ⟨_, _, _, _, rfl⟩

/-- **Recovery** writes intents, the ledger, reviews and confirmations. -/
theorem RecoveryStatement.apply_tables {db : Db} {session : Session} {now : Time}
    {statement : RecoveryStatement} :
    ∃ intents reservations allocations reservationTransitions reviews confirmations,
      statement.apply session now db =
        { db with
          intents, reservations, allocations, reservationTransitions, reviews, confirmations } := by
  cases statement with
  | staleReady intent answer =>
    unfold RecoveryStatement.apply recoverStaleReady
    dsimp only
    split
    · exact ⟨_, _, _, _, _, _, rfl⟩
    · split
      · exact ⟨_, _, _, _, _, _, rfl⟩
      · split
        · have hcancel := @cancelStaleReady_tables _ db session intent.id now
          obtain ⟨_, _, _, _, hcancel⟩ := hcancel
          split
          · next heq =>
            rw [heq] at hcancel
            exact ⟨_, _, _, _, _, _, hcancel⟩
          · next heq =>
            rw [heq] at hcancel
            exact ⟨_, _, _, _, _, _, hcancel⟩
        · exact ⟨_, _, _, _, _, _, rfl⟩
  | expireReservations =>
    have hexpire : ∃ reservations allocations reservationTransitions,
        (AlpacaTrading.expireReservations db session now).1 =
          { db with reservations, allocations, reservationTransitions } := by
      unfold AlpacaTrading.expireReservations
      split
      · exact ⟨_, _, _, rfl⟩
      · split
        · exact ⟨_, _, _, rfl⟩
        · split
          · exact ⟨_, _, _, rfl⟩
          · -- The check on the row counts decides the verdict only.
            simp only [apply_ite Prod.fst, ite_self]
            exact ⟨_, _, _, rfl⟩
    obtain ⟨_, _, _, hexpire⟩ := hexpire
    exact ⟨_, _, _, _, _, _, hexpire⟩
  | expireReviews => exact ⟨_, _, _, _, _, _, rfl⟩
  | expireConfirmations => exact ⟨_, _, _, _, _, _, rfl⟩
  | cancelStaleCreated => exact ⟨_, _, _, _, _, _, rfl⟩

/-! ## The statements of all services -/

/-- One committed statement of reconciliation or recovery, or a change of the leases. -/
inductive Serves (db db' : Db) : Prop
  | reconcile (h : Reconciles db db')
  | recover {session : Session} {now : Time} {statement : RecoveryStatement}
      (h : db' = statement.apply session now db)
  | lease {leases : Table Lease} (h : db' = { db with leases })

/-- One committed statement of a service other than the sync and the execution run. -/
inductive Committed (db db' : Db) : Prop
  | serve (h : Serves db db')
  | review {start : Db} {session : Session} {request : EntryReviewRequest}
      {statements : List EntryStatement} {statement : EntryStatement}
      (hplan : planEntryReview start request session = .ok statements)
      (hmem : statement ∈ statements) (h : statement.apply session request.now db = .ok db')

theorem runEntryStatements_committed {start : Db} {session : Session}
    {request : EntryReviewRequest} {plan statements : List EntryStatement}
    (hplan : planEntryReview start request session = .ok plan)
    (hmem : ∀ statement ∈ statements, statement ∈ plan) (db : Db) :
    Relation.ReflTransGen Committed db
      (runEntryStatements session request.now db statements).1 := by
  induction statements generalizing db with
  | nil => exact .refl
  | cons statement rest ih =>
    rw [runEntryStatements]
    split
    · exact .refl
    · next db₁ hok =>
      have hfirst : Committed db db₁ := .review hplan (hmem statement List.mem_cons_self) hok
      exact (Relation.ReflTransGen.single hfirst).trans
        (ih (fun s hs ↦ hmem s (List.mem_cons_of_mem _ hs)) db₁)

theorem runEntryReview_committed {db : Db} {session : Session} {request : EntryReviewRequest} :
    Relation.ReflTransGen Committed db (runEntryReview db request session).1 := by
  unfold runEntryReview
  split
  · exact .refl
  · next statements hplan => exact runEntryStatements_committed hplan (fun _ hs ↦ hs) db

theorem Serves.of_reconciles {db db' : Db} (h : Relation.ReflTransGen Reconciles db db') :
    Relation.ReflTransGen Serves db db' :=
  Relation.ReflTransGen.mono (fun _ _ ↦ .reconcile) _ _ h

/-- **A step of the system is a transaction of a run**, a sequence of statements, a statement of a
sync, or an entry review. -/
theorem Sys.step_serves {s s' : Sys} {act : Act} (hvalid : s.Valid)
    (h : Sys.step act s = some s') :
    Executes s.db s'.db ∨ Relation.ReflTransGen Serves s.db s'.db ∨
      (∃ session snapshot statement, act = .sync session snapshot statement ∧
        statement.apply snapshot session s.db = .ok s'.db) ∨
      ∃ session request, act = .review session request ∧
        s'.db = (runEntryReview s.db request session).1 := by
  cases act with
  | start config =>
    obtain rfl := Option.some_inj.1 h
    exact Or.inl (.idle rfl)
  | run p act =>
    obtain ⟨run, phase, call, hrun, hstep, -⟩ := Sys.step_run h
    rcases Run.step_executes (hvalid.runs run (List.mem_of_getElem? hrun)) hstep with
      hexecutes | hrecovers
    · exact Or.inl hexecutes
    · exact Or.inr (Or.inl (Serves.of_reconciles hrecovers.reconciles))
  | startPass fence now clientOrderId =>
    obtain rfl := Option.some_inj.1 h
    exact Or.inl (.idle rfl)
  | pass p act =>
    simp only [Sys.step] at h
    split at h
    · cases h
    · next pass hpass =>
      rw [Option.map_eq_some_iff] at h
      obtain ⟨⟨db, pass'⟩, hstep, rfl⟩ := h
      have hstatement :=
        Pass.step_reconciles (hvalid.passes pass (List.mem_of_getElem? hpass)) hstep
      exact Or.inr (Or.inl (.single (.reconcile hstatement.1)))
  | reconcile session now clientOrderId lookup =>
    obtain rfl := Option.some_inj.1 h
    exact Or.inr (Or.inl (Serves.of_reconciles reconcile_reconciles))
  | sync session snapshot statement =>
    simp only [Sys.step] at h
    split at h
    · obtain rfl := Option.some_inj.1 h
      exact Or.inl (.idle rfl)
    · next db hok =>
      obtain rfl := Option.some_inj.1 h
      exact Or.inr (Or.inr (Or.inl ⟨session, snapshot, statement, rfl, hok⟩))
  | recovery session now statement =>
    obtain rfl := Option.some_inj.1 h
    exact Or.inr (Or.inl (.single (.recover rfl)))
  | review session request =>
    obtain rfl := Option.some_inj.1 h
    exact Or.inr (Or.inr (Or.inr ⟨session, request, rfl, rfl⟩))
  | lease leases =>
    obtain rfl := Option.some_inj.1 h
    exact Or.inr (Or.inl (.single (.lease rfl)))

/-- The same, with the statements of a review among the others. -/
theorem Sys.step_committed {s s' : Sys} {act : Act} (hvalid : s.Valid)
    (h : Sys.step act s = some s') :
    Executes s.db s'.db ∨ Relation.ReflTransGen Committed s.db s'.db ∨
      ∃ session snapshot statement, act = .sync session snapshot statement ∧
        statement.apply snapshot session s.db = .ok s'.db := by
  rcases Sys.step_serves hvalid h with hexecutes | hserves | hsync | ⟨_, _, _, hreview⟩
  · exact Or.inl hexecutes
  · exact Or.inr (Or.inl (Relation.ReflTransGen.mono (fun _ _ ↦ .serve) _ _ hserves))
  · exact Or.inr (Or.inr hsync)
  · rw [hreview]
    exact Or.inr (Or.inl runEntryReview_committed)

end Statements

end AlpacaTrading
