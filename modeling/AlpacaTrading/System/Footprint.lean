import AlpacaTrading.System.Statements

/-!
# What the services leave alone

Positions are written by the sync only.  Orders are written by the acknowledgement, which inserts
a row, and by the observation, which inserts a row or updates the stored one; neither moves an
order to another intent or lets its fill time go back.  `Files` says both of a statement, and
`Sys.step_files` of every step of the system that is not a sync.
-/

namespace AlpacaTrading

/-! ## Orders -/

/-- Stored orders stay, with the intent they belong to, and their fill time does not go back. -/
def OrdersGrow (t t' : Table Order) : Prop :=
  ∀ o ∈ t.rows, ∃ o' ∈ t'.rows, o'.id = o.id ∧ o'.orderIntentId = o.orderIntentId ∧
    o.filledTime ≤ o'.filledTime

theorem OrdersGrow.refl (t : Table Order) : OrdersGrow t t :=
  fun o ho ↦ ⟨o, ho, rfl, rfl, le_rfl⟩

theorem OrdersGrow.trans {t₁ t₂ t₃ : Table Order} (h : OrdersGrow t₁ t₂) (h' : OrdersGrow t₂ t₃) :
    OrdersGrow t₁ t₃ := by
  intro o ho
  obtain ⟨o', ho', hid, hintent, htime⟩ := h o ho
  obtain ⟨o'', ho'', hid', hintent', htime'⟩ := h' o' ho'
  exact ⟨o'', ho'', hid'.trans hid, hintent'.trans hintent, htime.trans htime'⟩

theorem OrdersGrow.insert {t t' : Table Order} {o : Order} (h : t.insert? o = some t') :
    OrdersGrow t t' :=
  fun x hx ↦ ⟨x, Table.mem_of_insert? h hx, rfl, rfl, le_rfl⟩

/-- The update of a stored order keeps its fill time or moves it forward. -/
theorem filledTime_observeAgain (new old : Order) :
    old.filledTime ≤ (new.observeAgain old).filledTime := by
  unfold Order.filledTime Order.observeAgain
  rcases old.filledAt with - | t
  · exact le_max_left _ _
  · exact le_rfl

theorem upsertOrder_grows {t t' : Table Order} {new : Order} {id : String}
    (h : upsertOrder t new = .ok (t', id)) : OrdersGrow t t' := by
  simp only [upsertOrder, bind_eq_ok] at h
  obtain ⟨_, _, h⟩ := h
  split at h
  · rw [bind_eq_ok] at h
    obtain ⟨_, _, h⟩ := h
    split at h
    · next t₁ hupdate =>
      obtain ⟨rfl, -⟩ := Prod.mk.inj (Except.ok.inj h)
      intro o ho
      refine ⟨if new.conflicts o then new.observeAgain o else o, ?_, ?_, ?_, ?_⟩
      · rw [Table.rows_of_update? hupdate]
        exact List.mem_map_of_mem ho
      · split <;> rfl
      · split <;> rfl
      · split
        · exact filledTime_observeAgain new o
        · exact le_rfl
    · cases h
  · rw [bind_eq_ok] at h
    obtain ⟨t₁, hinsert, h⟩ := h
    obtain ⟨rfl, -⟩ := Prod.mk.inj (Except.ok.inj h)
    exact .insert (Table.insertOne_eq_ok.1 hinsert)

/-! ## Statements -/

/-- Positions stay and orders grow. -/
structure Files (db db' : Db) : Prop where
  positions : db'.positions = db.positions
  orders : OrdersGrow db.orders db'.orders

theorem Files.refl (db : Db) : Files db db := ⟨rfl, .refl _⟩

theorem Files.trans {db db' db'' : Db} (h : Files db db') (h' : Files db' db'') : Files db db'' :=
  ⟨h'.positions.trans h.positions, h.orders.trans h'.orders⟩

/-- A statement that writes neither table. -/
theorem Files.of_eq {db db' : Db} (hp : db'.positions = db.positions)
    (ho : db'.orders = db.orders) : Files db db' :=
  ⟨hp, by rw [ho]; exact .refl _⟩

section Statements

variable [Hashing] {db db' : Db}

omit [Hashing] in
theorem reserve_files {row : ConfirmableIntentRow} {session : Session} {now expiresAt : Time}
    {fingerprint reservationId : String} {amount : Option {a : ℚ // 0 < a}}
    (h : reserve db row session now expiresAt fingerprint reservationId amount = .ok db') :
    Files db db' := by
  rcases amount with - | amount
  · obtain rfl := Except.ok.inj h
    exact .refl db
  · obtain ⟨_, _, _, rfl⟩ := reserve_some_ok h
    exact .of_eq rfl rfl

theorem promote_files {command : ExecutionCommand} {session : Session} {signingKey : String}
    {now : Time} {locked : String → Bool} {result : PromotionResult}
    (h : promoteNextConfirmedPostgresIntent db command session signingKey now locked =
      .ok (db', result)) : Files db db' := by
  have hconfirm : ∀ {row : ConfirmableIntentRow} {amount : Option {a : ℚ // 0 < a}},
      confirmIntent db command session now row amount = .ok (db', result) → Files db db' := by
    intro row amount hconfirm
    obtain ⟨_, _, _, db₂, _, _, _, _, hreserve, _, _, rfl, _⟩ := confirmIntent_ok hconfirm
    have hfiles := reserve_files hreserve
    exact ⟨hfiles.positions, hfiles.orders⟩
  rcases promote_ok h with ⟨rfl, _⟩ | ⟨row, _, ⟨_, hexit⟩ | ⟨_, _, _, _, hentry⟩⟩
  · exact .refl _
  · exact hconfirm hexit
  · exact hconfirm hentry

theorem settleAcknowledged_files {intent : Intent} {session : Session} {state : LifecycleState}
    {now : Time} (h : settleAcknowledged db intent session state now = .ok db') :
    Files db db' := by
  unfold settleAcknowledged at h
  split at h
  · obtain rfl := Except.ok.inj h
    exact .refl db
  · obtain ⟨_, _, _, _, _, _, rfl⟩ := releaseTerminalReservation_ok h
    exact .of_eq rfl rfl
  · rw [bind_eq_ok] at h
    obtain ⟨_, _, h⟩ := h
    obtain rfl := Except.ok.inj h
    exact .of_eq rfl rfl

theorem Executes.files (h : Executes db db') : Files db db' := by
  cases h with
  | idle h =>
    rw [h]
    exact .refl db
  | promote h => exact promote_files h
  | claim h =>
    obtain ⟨_, _, _, _, _, rfl⟩ := claimIntent_ok h
    exact .of_eq rfl rfl
  | release _ h =>
    obtain ⟨_, _, _, _, rfl⟩ := releaseClaim_ok h
    exact .of_eq rfl rfl
  | attempt _ h =>
    obtain ⟨_, _, _, _, _, rfl⟩ := recordSubmissionAttempt_ok h
    exact .of_eq rfl rfl
  | reject _ h =>
    obtain ⟨_, _, _, _, _, _, rfl⟩ := recordDeterministicSubmissionFailure_ok h
    exact .of_eq rfl rfl
  | record _ h =>
    obtain ⟨_, orders, _, _, _, _, _, _, _, _, _, _, hinsert, _, _, _, hsettle, _, rfl⟩ :=
      recordSubmission_ok h
    have hfiles := settleAcknowledged_files hsettle
    exact ⟨hfiles.positions, (OrdersGrow.insert hinsert).trans hfiles.orders⟩
  | doubt _ h =>
    obtain ⟨_, _, _, _, _, _, _, rfl⟩ := recordAmbiguousSubmission_ok h
    exact .of_eq rfl rfl
  | receipt _ h =>
    obtain ⟨_, _, _, _, _, _, _, rfl⟩ := recordReconciledSubmissionReceipt_ok h
    exact .of_eq rfl rfl

theorem storeObservation_files {target : Target} {obs : Observation} {now : Time}
    {resized : Option Resize} {counts : ObserveCounts}
    (h : storeObservation db target obs now resized = .ok (db', counts)) : Files db db' := by
  obtain ⟨_, orders, _, db₁, _, _, hupsert, hresize, _, hcases⟩ := storeObservation_ok h
  have hframe : db₁.positions = db.positions ∧ db₁.orders = orders := by
    rcases resized with - | z
    · rw [applyResize_none hresize]
      exact ⟨rfl, rfl⟩
    · obtain ⟨_, rfl⟩ := applyResize_some hresize
      exact ⟨rfl, rfl⟩
  have hgrow : OrdersGrow db.orders db₁.orders := by
    rw [hframe.2]
    exact upsertOrder_grows hupsert
  rcases hcases with ⟨_, _, _, rfl⟩ | ⟨_, rfl⟩
  · exact ⟨hframe.1, hgrow⟩
  · exact ⟨hframe.1, hgrow⟩

theorem observe_files {session : Session} {target : Target} {obs : Observation} {now : Time}
    {result : Except String Bool} (h : observe db session target obs now = (db', result)) :
    Files db db' := by
  rcases observe_cases h with ⟨rfl, _⟩ | ⟨_, hstatement, _⟩ | ⟨_, _, _, _, _, _, _, hstatement, _⟩
  · exact .refl _
  · rcases observeStatement_ok hstatement with ⟨rfl, _⟩ | ⟨_, _, _, hstore⟩
    · exact .refl _
    · exact storeObservation_files hstore
  · rcases partialStatement_ok hstatement with ⟨rfl, _⟩ | ⟨_, _, _, _, hstore, _⟩
    · exact .refl _
    · exact storeObservation_files hstore

theorem terminalizeAbsence_files {session : Session} {target : Target} {evidence : AbsenceEvidence}
    {now : Time} : Files db (terminalizeAbsence db session target evidence now).1 := by
  have hrelease : ∀ (db : Db) (id : Option String), Files db (releaseAbsent db id now).1 := by
    intro db id
    unfold releaseAbsent
    split
    · exact .refl db
    · exact .of_eq rfl rfl
  unfold terminalizeAbsence
  dsimp only
  split
  · split
    · exact .refl db
    · split
      · exact .of_eq rfl rfl
      · -- The checks on the row counts decide the verdict only.
        simp only [apply_ite Prod.fst, ite_self]
        refine Files.trans ?_ (hrelease _ _)
        exact .of_eq rfl rfl
  · exact .refl db

theorem Reconciles.files (h : Reconciles db db') : Files db db' := by
  cases h with
  | idle h =>
    rw [h]
    exact .refl db
  | observe _ _ h => exact observe_files h
  | settle _ h =>
    rcases settle_cases h with ⟨_, _, _, _, hstatement⟩ | ⟨rfl, _⟩
    · obtain ⟨_, _, _, _, _, _, _, _, _, rfl⟩ := settleStatement_settled hstatement
      exact .of_eq rfl rfl
    · exact .refl _
  | @conclude session target evidence now result h =>
    have hfiles : Files db (terminalizeAbsence db session target evidence now).1 :=
      terminalizeAbsence_files
    rwa [h] at hfiles
  | absence h =>
    rw [h]
    unfold recordPendingAbsence
    split
    · split
      · exact .of_eq rfl rfl
      · exact .refl db
    · exact .refl db
  | @defer session target now result h =>
    have hfiles : Files db (deferAbsentCandidate db session target now).1 := by
      unfold deferAbsentCandidate
      split
      · exact .refl db
      · split
        · exact .of_eq rfl rfl
        · exact .refl db
    rwa [h] at hfiles

theorem RecoveryStatement.files {session : Session} {now : Time} {statement : RecoveryStatement} :
    Files db (statement.apply session now db) := by
  have htables := @RecoveryStatement.apply_tables _ db session now statement
  obtain ⟨_, _, _, _, _, _, htables⟩ := htables
  rw [htables]
  exact .of_eq rfl rfl

omit [Hashing] in
theorem EntryStatement.files {session : Session} {now : Time} {statement : EntryStatement}
    (h : statement.apply session now db = .ok db') : Files db db' := by
  cases statement with
  | stage candidateId status reason =>
    have hstage : persistCandidateExecutionStage db (some candidateId) session now status reason =
        .ok db' := h
    obtain ⟨_, rfl⟩ := persistCandidateExecutionStage_ok hstage
    exact .of_eq rfl rfl
  | decisions recorded =>
    simp only [EntryStatement.apply, bind_eq_ok] at h
    obtain ⟨_, _, _, _, h⟩ := h
    obtain rfl := Except.ok.inj h
    exact .refl db
  | review r =>
    rcases entryStatement_review h with rfl | ⟨_, _, rfl⟩
    · exact .refl _
    · exact .of_eq rfl rfl
  | intent i =>
    rcases entryStatement_intent h with rfl | ⟨_, _, _, rfl⟩
    · exact .refl _
    · exact .of_eq rfl rfl
  | throw code => cases h

theorem Committed.files (h : Committed db db') : Files db db' := by
  rcases h with hserves | ⟨_, _, hreview⟩
  · rcases hserves with hreconciles | hrecover | hlease
    · exact hreconciles.files
    · rw [hrecover]
      exact RecoveryStatement.files
    · rw [hlease]
      exact .of_eq rfl rfl
  · exact EntryStatement.files hreview

/-- **Every step but a sync** leaves positions alone and lets orders grow. -/
theorem Sys.step_files {s s' : Sys} {act : Act} (hvalid : s.Valid)
    (h : Sys.step act s = some s') :
    Files s.db s'.db ∨ ∃ session snapshot statement, act = .sync session snapshot statement ∧
      statement.apply snapshot session s.db = .ok s'.db := by
  rcases Sys.step_committed hvalid h with hexecutes | hcommitted | hsync
  · exact Or.inl hexecutes.files
  · exact Or.inl (invariant_of_steps (fun _ _ hfiles hstatement ↦ hfiles.trans hstatement.files)
      hcommitted (.refl s.db))
  · exact Or.inr hsync

end Statements

end AlpacaTrading
