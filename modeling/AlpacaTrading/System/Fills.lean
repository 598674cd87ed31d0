import AlpacaTrading.Reconciliation.Fills
import AlpacaTrading.System.Progress

/-!
# Fills and counters

What the counters of a strategy say about the fills of one of its entries.

A row of `orders` is written by the acknowledgement of a submission and by the observations of
reconciliation, each time under the account and the client order id of its intent (`Filed`).  So
the fill an intent accounts for is the one of its only order, and the sequences of
`Reconciliation.Fills` start from what the acknowledgement left.

The acknowledgement stores a filled quantity without settling it, and so does an observation of
the open order under another status than `partially_filled`.  Both theorems of this module say
that nothing else goes wrong.
-/

namespace AlpacaTrading

/-! ## Whose order it is -/

/-- The intent an order belongs to, and the name under which the broker knows it. -/
def Order.filedUnder (o : Order) : String × String × String :=
  (o.orderIntentId, o.accountId, o.clientOrderId)

/-- The same of an intent. -/
def Intent.file (i : Intent) : String × String × String := (i.id, i.accountId, i.clientOrderId)

/-- Every order is filed under its intent. -/
def Filed (db : Db) : Prop :=
  ∀ o ∈ db.orders.rows, ∃ i ∈ db.intents.rows, i.file = o.filedUnder

/-- What a statement does to the orders: nothing, or it writes one of a known intent. -/
def Files.Under (db db' : Db) : Prop :=
  db'.orders = db.orders ∨ ∃ intent type, Known db intent type ∧
    ∀ o' ∈ db'.orders.rows, (∃ o ∈ db.orders.rows, o'.filedUnder = o.filedUnder) ∨
      o'.filedUnder = intent.file

theorem file_of_terms {i j : Intent} (h : i.terms = j.terms) : i.file = j.file := by
  rw [Intent.file, Intent.file, show i.id = j.id from congrArg IntentTerms.id h,
    show i.accountId = j.accountId from congrArg IntentTerms.accountId h,
    show i.clientOrderId = j.clientOrderId from congrArg IntentTerms.clientOrderId h]

section Filed

variable {db db' : Db}

/-- The orders of a filed intent are those under its client order id. -/
theorem Filed.ordersOf {intent : Intent} {type : ReviewType} (h : Filed db)
    (hknown : Known db intent type) : OrdersOf db.orders intent := by
  obtain ⟨i, hi, hterms, -⟩ := hknown
  have hfile := file_of_terms hterms
  simp only [Intent.file, Prod.mk.injEq] at hfile
  obtain ⟨hid, haccount, hclient⟩ := hfile
  intro o ho
  obtain ⟨j, hj, hfiled⟩ := h o ho
  simp only [Intent.file, Order.filedUnder, Prod.mk.injEq] at hfiled
  obtain ⟨hjid, hjaccount, hjclient⟩ := hfiled
  constructor
  · intro hoi
    have hsame : j = i := db.intents.eq_of_key hj hi (hjid.trans (hoi.trans hid.symm))
    rw [← hjaccount, ← hjclient, hsame]
    exact ⟨haccount, hclient⟩
  · rintro ⟨hoa, hoc⟩
    have hsame : j = i := db.intents.eq_of_clash hj hi
      (Or.inr ⟨hjaccount.trans (hoa.trans haccount.symm), hjclient.trans (hoc.trans hclient.symm)⟩)
    rw [← hjid, hsame, hid]

theorem Filed.step (h : Filed db) (hl : Later db db') (hunder : Files.Under db db') :
    Filed db' := by
  -- An intent that is stored stays stored under its name.
  have hstays : ∀ i ∈ db.intents.rows, ∃ i' ∈ db'.intents.rows, i'.file = i.file := by
    intro i hi
    obtain ⟨i', hi', hterms, -⟩ := hl.intents i hi
    exact ⟨i', hi', file_of_terms hterms⟩
  intro o ho
  rcases hunder with hsame | ⟨intent, type, ⟨i, hi, hterms, -⟩, hwritten⟩
  · rw [hsame] at ho
    obtain ⟨i, hi, hfile⟩ := h o ho
    obtain ⟨i', hi', hfile'⟩ := hstays i hi
    exact ⟨i', hi', hfile'.trans hfile⟩
  · rcases hwritten o ho with ⟨o', ho', hname⟩ | hname
    · obtain ⟨i, hi, hfile⟩ := h o' ho'
      obtain ⟨i', hi', hfile'⟩ := hstays i hi
      exact ⟨i', hi', hfile'.trans (hfile.trans hname.symm)⟩
    · obtain ⟨i', hi', hfile'⟩ := hstays i hi
      exact ⟨i', hi', hfile'.trans ((file_of_terms hterms).trans hname.symm)⟩

end Filed

/-! ## The writers of orders -/

section Writers

variable [Hashing] {db db' : Db}

theorem settleAcknowledged_orders {intent : Intent} {session : Session} {state : LifecycleState}
    {now : Time} (h : settleAcknowledged db intent session state now = .ok db') :
    db'.orders = db.orders := by
  rw [settleAcknowledged] at h
  split at h
  · obtain rfl := Except.ok.inj h
    rfl
  · obtain ⟨_, _, _, _, _, _, rfl⟩ := releaseTerminalReservation_ok h
    rfl
  · rw [bind_eq_ok] at h
    obtain ⟨_, _, h⟩ := h
    obtain rfl := Except.ok.inj h
    rfl

omit [Hashing] in
/-- The row of an acknowledgement. -/
theorem acknowledgedOrder_row {intent : Intent} {data : AlpacaSubmittedOrder}
    {orderId brokerOrderId status : String} {occurredAt : Time} {order : Order}
    (h : acknowledgedOrder intent data orderId brokerOrderId status occurredAt = .ok order) :
    order.filedUnder = intent.file ∧
      order.filledQuantity = (data.filledQty.orElse (.value 0)).number.getD 0 ∧
      0 ≤ order.filledQuantity := by
  simp only [acknowledgedOrder, bind_eq_ok, require_eq_ok] at h
  obtain ⟨_, _, _, _, _, _, _, _, filled, hfilled, _, _, _, hvalid, hout⟩ := h
  rw [← Except.ok.inj hout]
  have hfill := number_of_column hfilled
  refine ⟨rfl, hfill, ?_⟩
  simp only [Order.financialValuesValid, Bool.and_eq_true, decide_eq_true_eq] at hvalid
  exact hvalid.1.2

theorem promote_orders {command : ExecutionCommand} {session : Session} {signingKey : String}
    {now : Time} {locked : String → Bool} {result : PromotionResult}
    (h : promoteNextConfirmedPostgresIntent db command session signingKey now locked =
      .ok (db', result)) : db'.orders = db.orders := by
  have hconfirm : ∀ {row : ConfirmableIntentRow} {amount : Option {a : ℚ // 0 < a}},
      confirmIntent db command session now row amount = .ok (db', result) →
      db'.orders = db.orders := by
    intro row amount hconfirm
    obtain ⟨_, _, _, db₂, _, _, _, _, hreserve, _, _, rfl, _⟩ := confirmIntent_ok hconfirm
    rcases amount with - | amount
    · obtain rfl := Except.ok.inj hreserve
      rfl
    · obtain ⟨_, _, _, rfl⟩ := reserve_some_ok hreserve
      rfl
  rcases promote_ok h with ⟨rfl, _⟩ | ⟨row, _, ⟨_, hexit⟩ | ⟨_, _, _, _, hentry⟩⟩
  · rfl
  · exact hconfirm hexit
  · exact hconfirm hentry

theorem Executes.under (h : Executes db db') : Files.Under db db' := by
  rcases h with rfl | h | h | ⟨_, h⟩ | ⟨_, h⟩ | ⟨_, h⟩ | ⟨hknown, h⟩ | ⟨_, h⟩ | ⟨_, h⟩
  · exact Or.inl rfl
  · exact Or.inl (promote_orders h)
  · obtain ⟨_, _, _, _, _, rfl⟩ := claimIntent_ok h
    exact Or.inl rfl
  · obtain ⟨_, _, _, _, rfl⟩ := releaseClaim_ok h
    exact Or.inl rfl
  · obtain ⟨_, _, _, _, _, rfl⟩ := recordSubmissionAttempt_ok h
    exact Or.inl rfl
  · obtain ⟨_, _, _, _, _, _, rfl⟩ := recordDeterministicSubmissionFailure_ok h
    exact Or.inl rfl
  · -- The acknowledgement inserts the order of its row.
    obtain ⟨order, orders, _, _, _, db₁, _, _, _, _, _, horder, hins, _, _, _, hset, _, rfl⟩ :=
      recordSubmission_ok h
    refine Or.inr ⟨_, _, hknown, fun o ho ↦ ?_⟩
    have horders : db₁.orders = orders := settleAcknowledged_orders hset
    rw [show ({ db₁ with reviews := _, confirmations := _, candidates := _ } : Db).orders = db₁.orders
      from rfl, horders, Table.rows_of_insert? hins, List.mem_append, List.mem_singleton] at ho
    rcases ho with ho | rfl
    · exact Or.inl ⟨o, ho, rfl⟩
    · exact Or.inr (acknowledgedOrder_row horder).1
  · obtain ⟨_, _, _, _, _, _, _, rfl⟩ := recordAmbiguousSubmission_ok h
    exact Or.inl rfl
  · obtain ⟨_, _, _, _, _, _, _, rfl⟩ := recordReconciledSubmissionReceipt_ok h
    exact Or.inl rfl

omit [Hashing] in
/-- An upsert keeps the names of the stored rows. -/
theorem upsertOrder_under {t t' : Table Order} {new : Order} {id : String}
    (h : upsertOrder t new = .ok (t', id)) :
    ∀ o' ∈ t'.rows, (∃ o ∈ t.rows, o'.filedUnder = o.filedUnder) ∨
      o'.filedUnder = new.filedUnder := by
  simp only [upsertOrder, bind_eq_ok] at h
  obtain ⟨_, _, h⟩ := h
  intro o' ho'
  split at h
  · rw [bind_eq_ok] at h
    obtain ⟨_, _, h⟩ := h
    split at h
    · next t₁ hupdate =>
      obtain ⟨rfl, -⟩ := Prod.mk.inj (Except.ok.inj h)
      rw [Table.rows_of_update? hupdate] at ho'
      obtain ⟨o, ho, rfl⟩ := List.mem_map.1 ho'
      refine Or.inl ⟨o, ho, ?_⟩
      split
      · rfl
      · rfl
    · cases h
  · rw [bind_eq_ok] at h
    obtain ⟨t₁, hinsert, h⟩ := h
    obtain ⟨rfl, -⟩ := Prod.mk.inj (Except.ok.inj h)
    rw [Table.rows_of_insert? (Table.insertOne_eq_ok.1 hinsert), List.mem_append,
      List.mem_singleton] at ho'
    rcases ho' with ho' | rfl
    · exact Or.inl ⟨o', ho', rfl⟩
    · exact Or.inr rfl

theorem observe_under {session : Session} {target : Target} {obs : Observation} {now : Time}
    {result : Except String Bool} (hknown : target.Known db)
    (h : observe db session target obs now = (db', result)) : Files.Under db db' := by
  have hstore : ∀ {resized : Option Resize} {counts : ObserveCounts},
      storeObservation db target obs now resized = .ok (db', counts) → Files.Under db db' := by
    intro resized counts hstore
    obtain ⟨order, orders, _, db₁, _, horder, hups, hres, _, hcases⟩ := storeObservation_ok hstore
    have horders : db₁.orders = orders := by
      rcases resized with - | z
      · rw [applyResize_none hres]
      · obtain ⟨_, rfl⟩ := applyResize_some hres
        rfl
    have hdb' : db'.orders = orders := by
      rcases hcases with ⟨_, _, _, rfl⟩ | ⟨_, rfl⟩
      · exact horders
      · exact horders
    obtain ⟨hintent, haccount, hclient, _⟩ := observedOrder_row horder
    refine Or.inr ⟨_, _, hknown, fun o ho ↦ ?_⟩
    rw [hdb'] at ho
    refine (upsertOrder_under hups o ho).imp_right fun hname ↦ ?_
    rw [hname, Order.filedUnder, Intent.file, hintent, haccount, hclient]
  rcases observe_cases h with ⟨rfl, _⟩ | ⟨_, hstatement, _⟩ | ⟨_, _, _, _, _, _, _, hstatement, _⟩
  · exact Or.inl rfl
  · rcases observeStatement_ok hstatement with ⟨rfl, _⟩ | ⟨_, _, _, hok⟩
    · exact Or.inl rfl
    · exact hstore hok
  · rcases partialStatement_ok hstatement with ⟨rfl, _⟩ | ⟨_, _, _, _, hok, _⟩
    · exact Or.inl rfl
    · exact hstore hok

theorem terminalizeAbsence_orders {session : Session} {target : Target}
    {evidence : AbsenceEvidence} {now : Time} :
    (terminalizeAbsence db session target evidence now).1.orders = db.orders := by
  have hrelease : ∀ (db : Db) (id : Option String),
      (releaseAbsent db id now).1.orders = db.orders := by
    intro db id
    rw [releaseAbsent]
    split
    · rfl
    · rfl
  rw [terminalizeAbsence]
  dsimp only
  split
  · split
    · rfl
    · split
      · rfl
      · -- The checks on the row counts decide the verdict only.
        simp only [apply_ite Prod.fst, ite_self]
        exact hrelease _ _
  · rfl

theorem Reconciles.under (h : Reconciles db db') : Files.Under db db' := by
  rcases h with rfl | ⟨hknown, _, h⟩ | ⟨_, h⟩ | @⟨session, target, evidence, now, _, h⟩ | rfl |
    @⟨session, target, now, _, h⟩
  · exact Or.inl rfl
  · exact observe_under hknown h
  · rcases settle_cases h with ⟨_, _, _, _, hstatement⟩ | ⟨rfl, _⟩
    · obtain ⟨_, _, _, _, _, _, _, _, _, rfl⟩ := settleStatement_settled hstatement
      exact Or.inl rfl
    · exact Or.inl rfl
  · have horders : (terminalizeAbsence db session target evidence now).1.orders = db.orders :=
      terminalizeAbsence_orders
    rw [h] at horders
    exact Or.inl horders
  · refine Or.inl ?_
    rw [recordPendingAbsence]
    split
    · split
      · rfl
      · rfl
    · rfl
  · have horders : (deferAbsentCandidate db session target now).1.orders = db.orders := by
      rw [deferAbsentCandidate]
      split
      · rfl
      · split
        · rfl
        · rfl
    rw [h] at horders
    exact Or.inl horders

omit [Hashing] in
theorem EntryStatement.orders {session : Session} {now : Time} {statement : EntryStatement}
    (h : statement.apply session now db = .ok db') : db'.orders = db.orders := by
  rcases statement with ⟨candidateId, status, reason⟩ | recorded | r | i | code
  · have hstage : persistCandidateExecutionStage db (some candidateId) session now status reason =
        .ok db' := h
    obtain ⟨_, rfl⟩ := persistCandidateExecutionStage_ok hstage
    rfl
  · simp only [EntryStatement.apply, bind_eq_ok] at h
    obtain ⟨_, _, _, _, h⟩ := h
    obtain rfl := Except.ok.inj h
    rfl
  · rcases entryStatement_review h with rfl | ⟨_, _, rfl⟩
    · rfl
    · rfl
  · rcases entryStatement_intent h with rfl | ⟨_, _, _, rfl⟩
    · rfl
    · rfl
  · cases h

theorem runEntryReview_orders {session : Session} {request : EntryReviewRequest} :
    (runEntryReview db request session).1.orders = db.orders := by
  have hrun : ∀ (statements : List EntryStatement) (db : Db),
      (runEntryStatements session request.now db statements).1.orders = db.orders := by
    intro statements
    induction statements with
    | nil => exact fun _ ↦ rfl
    | cons statement rest ih =>
      intro db
      rw [runEntryStatements]
      split
      · rfl
      · next db₁ hok => exact (ih db₁).trans (EntryStatement.orders hok)
  rw [runEntryReview]
  split
  · rfl
  · exact hrun _ db

theorem Serves.filed (h : Serves db db') (hfiled : Filed db) : Filed db' := by
  rcases h with hreconciles | @⟨session, now, statement, rfl⟩ | rfl
  · exact hfiled.step hreconciles.effect.later hreconciles.under
  · have hlater : Later db (statement.apply session now db) := by
      have hcases := @recovery_cases _ (Sys.idle db) session now statement
      rcases hcases with heffect | hunsafe
      · exact heffect.later
      · exact hunsafe.later
    have htables := @RecoveryStatement.apply_tables _ db session now statement
    obtain ⟨_, _, _, _, _, _, htables⟩ := htables
    refine hfiled.step hlater (Or.inl ?_)
    rw [htables]
  · exact hfiled.step (Effect.later (.quiet (.of_eq rfl rfl) rfl ⟨rfl, rfl, rfl⟩)) (Or.inl rfl)

/-- **Orders stay filed under their intents.** -/
theorem Sys.filed_step {s s' : Sys} {act : Act} (h : s.Valid ∧ Filed s.db)
    (hstep : Sys.step act s = some s') : s'.Valid ∧ Filed s'.db := by
  obtain ⟨hvalid, hfiled⟩ := h
  refine ⟨(Sys.step_cases hvalid hstep).1, ?_⟩
  have hlater : Later s.db s'.db := (Sys.step_cases hvalid hstep).2.elim Advances.later
    Sys.Unsafe.later
  rcases Sys.step_serves hvalid hstep with hexecutes | hserves | ⟨_, _, _, _, hok⟩ |
    ⟨_, _, _, hreview⟩
  · exact hfiled.step hlater hexecutes.under
  · exact invariant_of_steps (fun _ _ hfiled hserves ↦ hserves.filed hfiled) hserves hfiled
  · refine hfiled.step hlater (Or.inl ?_)
    obtain ⟨_, _, _, _, htables⟩ := SyncStatement.apply_tables hok
    rw [htables]
  · refine hfiled.step hlater (Or.inl ?_)
    rw [hreview]
    exact runEntryReview_orders

end Writers

/-! ## The acknowledgement -/

section Acknowledged

variable [Hashing] {db db' : Db} {row : AutonomousExecutionIntentRow} {data : AlpacaSubmittedOrder}
  {httpStatus : Int} {receipt : BrokerMutationReceipt} {session : Session} {now : Time}
  {result : RecordedSubmission} {r : Reservation}

/-- The filled quantity an acknowledgement reports. -/
def AlpacaSubmittedOrder.fill (data : AlpacaSubmittedOrder) : ℚ :=
  (data.filledQty.orElse (.value 0)).number.getD 0

/-- The acknowledgement notes a filled quantity. -/
def AlpacaSubmittedOrder.reading (data : AlpacaSubmittedOrder) : Reading ℚ where
  settled := false
  done := data.fill

/-- **After an acknowledgement** the order stands with the fill it reported and the whole
reservation, or it was refused at once and the reservation has ended.  Nothing is deployed. -/
theorem acknowledge_standing {type : ReviewType} (hfiled : Filed db)
    (hknown : Known db row.intent type) (hid : row.intent.reservationId = some r.id)
    (hstored : db.reservations.get? r.id = some r)
    (h : recordSubmission db row data httpStatus receipt session now = .ok (db', result)) :
    0 ≤ data.fill ∧ deployedAmount db'.allocations r.accountId r.strategyKey =
        deployedAmount db.allocations r.accountId r.strategyKey ∧
      ((Standing db' row.intent r data.fill r.amount ∧
          reservedAmount db'.allocations r.accountId r.strategyKey =
            reservedAmount db.allocations r.accountId r.strategyKey) ∨
        (Settled db' row.intent r ∧
          (db'.reservations.get? r.id).map (·.amount) = some r.amount)) := by
  obtain ⟨order, orders, event, events, i, db₁, reviews, confirmations, candidates, _, _, horder,
    hins, _, hget, _, hset, _, rfl⟩ := recordSubmission_ok h
  generalize lifecycleStateForBrokerStatus row.review.reviewType
    (Text.toLowerCase data.status.text) = state at hset
  obtain ⟨hterms, _, hires, _⟩ := hknown.stored hget
  obtain ⟨hfile, hfill, hnonneg⟩ := acknowledgedOrder_row horder
  have hfill : order.filledQuantity = data.fill := hfill
  simp only [Order.filedUnder, Intent.file, Prod.mk.injEq] at hfile
  obtain ⟨hofid, hofaccount, hofclient⟩ := hfile
  have horders : db₁.orders = orders := settleAcknowledged_orders hset
  obtain ⟨hintents, _, _⟩ := settleAcknowledged_frame hset
  obtain ⟨hkeyed, hmem⟩ := (hfiled.ordersOf hknown).insert hins hofid hofaccount hofclient
  rw [← horders] at hkeyed hmem
  have hrow : db₁.intents.get? row.intent.id = some (i.acknowledge state now) := by
    rw [hintents, Table.get?_modify, if_pos rfl, hget, Option.map_some]
  have hrow_terms : (i.acknowledge state now).terms = row.intent.terms := hterms
  have hrow_id : (i.acknowledge state now).reservationId = some r.id := hires.trans hid
  refine ⟨hfill ▸ hnonneg, ?_⟩
  rcases hterm : unfilledTerminal state with - | ⟨terminal, reason⟩
  · -- The order is open: its reservation is committed.
    obtain ⟨r', hr', _, hdb₁⟩ := settleAcknowledged_commit_ok hid hterm hset
    obtain rfl : r = r' := Option.some_inj.1 (hstored.symm.trans hr')
    have hcommitted : db₁.reservations.get? r.id = some (r.commit now) := by
      rw [hdb₁, Table.get?_modify, if_pos rfl, hstored, Option.map_some]
    have halloc : db₁.allocations = db.allocations := by rw [hdb₁]
    have hprior : priorFill db₁ row.intent.id = data.fill :=
      (OrdersOf.priorFill_eq hkeyed hmem hofid).trans hfill
    have hstanding : Standing db₁ row.intent r data.fill r.amount :=
      ⟨⟨_, hrow, hrow_terms, hrow_id⟩, hkeyed, hprior, _, hcommitted, rfl, rfl, rfl, rfl⟩
    refine ⟨?_, Or.inl ⟨⟨hstanding.stored, hstanding.orders, hstanding.fill,
      hstanding.reservation⟩, ?_⟩⟩
    · rw [halloc]
    · rw [halloc]
  · rw [settleAcknowledged, hid, hterm] at hset
    obtain ⟨r', transitions, hr', _, hcount, _, hdb₁⟩ := releaseTerminalReservation_ok hset
    obtain rfl : r = r' := Option.some_inj.1 (hstored.symm.trans hr')
    obtain ⟨a, ha, hserves⟩ := exists_serves_of_adjustCount hcount
    have hreleased : db₁.reservations.get? r.id = some (r.release .released reason now) := by
      rw [hdb₁, Table.get?_modify, if_pos rfl, hstored, Option.map_some]
    have hdead : (i.acknowledge state now).status ∉ inFlight := by
      have hdead := acknowledgedStatus_terminal hterm
      simp only [deadStatuses, List.mem_cons, List.not_mem_nil, or_false] at hdead
      rcases hdead with hdead | hdead
      all_goals simp [Intent.acknowledge, hdead, inFlight]
    have hsettled : Settled db₁ row.intent r :=
      ⟨⟨_, hrow, hdead, hrow_id⟩, (liveReservation_of_get? hreleased).trans rfl⟩
    refine ⟨?_, Or.inr ⟨⟨hsettled.status, hsettled.ended⟩, ?_⟩⟩
    · rw [hdb₁, deployedAmount_adjust ha hserves, add_zero]
    · rw [hreleased]
      rfl

end Acknowledged

/-! ## Runs -/

section Runs

variable [Hashing]

/-- What every state of a run has: workers that remember rightly, sound references, conserved
counters and filed orders. -/
structure Sys.Ordered (s : Sys) : Prop where
  valid : s.Valid
  sound : Sound s.db
  conserved : Conserved s.db
  filed : Filed s.db

theorem Sys.ordered_step {s s' : Sys} {act : Act} (h : s.Ordered) (hstep : Sys.step act s = some s') :
    s'.Ordered := by
  obtain ⟨hvalid, hcases⟩ := Sys.step_cases h.valid hstep
  refine ⟨hvalid, ?_, (Sys.conserved_step ⟨h.valid, h.conserved⟩ hstep).2,
    (Sys.filed_step ⟨h.valid, h.filed⟩ hstep).2⟩
  rcases hcases with hadvances | hunsafe
  · exact h.sound.advances hadvances
  · exact h.sound.unsafeStep hunsafe

/-- A run of the execution service holds the row of an entry whose capital is the reservation. -/
structure Sys.Holds (s : Sys) (row : AutonomousExecutionIntentRow) (r : Reservation) : Prop where
  run : ∃ run ∈ s.runs, run.phase.row? = some row
  reservationId : row.intent.reservationId = some r.id
  stored : s.db.reservations.get? r.id = some r

omit [Hashing] in
theorem Sys.Holds.known {s : Sys} {row : AutonomousExecutionIntentRow} {r : Reservation}
    (h : s.Holds row r) (hvalid : s.Valid) : Known s.db row.intent row.review.reviewType := by
  obtain ⟨run, hmem, hrow⟩ := h.run
  exact hvalid.runs run hmem row hrow

/-- How the observations of an entry begin, with the fill noted by then: its submission was
acknowledged, or nothing is stored of its order yet. -/
inductive Begins (s : Sys) (r : Reservation) (intent : Intent) : Db → ℚ → Prop
  | acknowledged {row : AutonomousExecutionIntentRow} {data : AlpacaSubmittedOrder}
      {httpStatus : Int} {receipt : BrokerMutationReceipt} {session : Session} {now : Time}
      {result : RecordedSubmission} {db₀ : Db} (hrow : row.intent = intent)
      (hholds : s.Holds row r)
      (hack : recordSubmission s.db row data httpStatus receipt session now = .ok (db₀, result)) :
      Begins s r intent db₀ data.fill
  | unacknowledged (hmem : intent ∈ s.db.intents.rows) (hid : intent.reservationId = some r.id)
      (hstored : s.db.reservations.get? r.id = some r) (hlive : r.status.live)
      (hnone : latestOrder s.db intent.id = none) : Begins s r intent s.db 0

/-- **The beginning of the observations.**  The order stands with the fill that was noted and the
whole reservation, or it was refused at once. -/
theorem Begins.standing {s : Sys} {r : Reservation} {intent : Intent} {db₀ : Db} {noted : ℚ}
    (h : Begins s r intent db₀ noted) (hordering : s.Ordered) :
    Sound db₀ ∧ Conserved db₀ ∧ ((Standing db₀ intent r noted r.amount ∧
        Transfers s.db db₀ r 0 0) ∨ Settled db₀ intent r) := by
  rcases h with ⟨rfl, hholds, hack⟩ | ⟨hmem, hid, hstored, hlive, hnone⟩
  · have hknown := hholds.known hordering.valid
    have heffect := acknowledge_effect hknown hack
    obtain ⟨_, hdeployed, hcase⟩ := acknowledge_standing hordering.filed hknown
      hholds.reservationId hholds.stored hack
    refine ⟨hordering.sound.effect heffect, hordering.conserved.effect heffect, ?_⟩
    rcases hcase with ⟨hstanding, hreserved⟩ | ⟨hsettled, _⟩
    · exact Or.inl ⟨hstanding, by rw [hreserved, sub_zero], by rw [hdeployed, add_zero]⟩
    · exact Or.inr hsettled
  · refine ⟨hordering.sound, hordering.conserved, Or.inl ⟨?_, .of_eq rfl⟩⟩
    have hget := Table.get?_of_mem hmem
    obtain ⟨type, hkind, hfit⟩ := hordering.sound.intents intent hmem
    have hcreated : intent.status ≠ .created := by
      intro hcreated
      rw [hfit.created hcreated] at hid
      cases hid
    have hknown : Known s.db intent type := ⟨intent, hmem, rfl, hcreated, rfl, hkind⟩
    refine ⟨⟨intent, hget, rfl, hid⟩, hordering.filed.ordersOf hknown, ?_, r, hstored, hlive, rfl,
      rfl, rfl⟩
    rw [priorFill, hnone, Option.map_none, Option.getD_none]

variable {db : Db} {acts : List Act} {s : Sys} {row : AutonomousExecutionIntentRow}
  {r : Reservation} {db₀ db' : Db} {looks : List Look} {seen : List Observation} {q : ℚ}

/-- **Partial fills settle in proportion to what the acknowledgement left.**  After an
acknowledgement and any number of partial fills the reservation and the deployed counter are the
shares of what is open and of what is filled exactly if the acknowledgement reported no fill. -/
theorem partial_settlement_iff (hsound : Sound db) (hconserved : Conserved db) (hfiled : Filed db)
    (hrun : runActs Sys.step (Sys.idle db) acts = some s) (hholds : s.Holds row r)
    {data : AlpacaSubmittedOrder} {httpStatus : Int} {receipt : BrokerMutationReceipt}
    {session : Session} {now : Time} {result : RecordedSubmission}
    (hack : recordSubmission s.db row data httpStatus receipt session now = .ok (db₀, result))
    (hlooks : processAll db₀ row.intent.id looks = some (db', seen))
    (hpartly : ∀ obs ∈ seen, obs.status = "partially_filled")
    (hordered : ∀ obs ∈ seen, obs.ordered.number = some q)
    (hfills : Cumulative q data.fill (seen.map Observation.reading))
    (hopen : lastDone data.fill (seen.map Observation.reading) < q) :
    let filled := lastDone data.fill (seen.map Observation.reading)
    ((db'.reservations.get? r.id).map (·.amount) = some (r.amount * (q - filled) / q) ∧
        deployedAmount db'.allocations r.accountId r.strategyKey =
          deployedAmount s.db.allocations r.accountId r.strategyKey + r.amount * filled / q) ↔
      data.fill = 0 := by
  intro filled
  have hstart : (Sys.idle db).Ordered := ⟨Sys.idle_valid db, hsound, hconserved, hfiled⟩
  have hordering := invariant_of_run (fun _ _ _ hI hstep ↦ Sys.ordered_step hI hstep) hstart hrun
  have hknown := hholds.known hordering.valid
  obtain ⟨hnonneg, hdeployed, hcase⟩ := acknowledge_standing hordering.filed hknown
    hholds.reservationId hholds.stored hack
  have heffect := acknowledge_effect hknown hack
  have hle : data.fill ≤ filled := hfills.le_lastDone
  have hq : 0 < q := hnonneg.trans_lt (hle.trans_lt hopen)
  have hrest : r.amount * (q - filled) ≠ 0 :=
    (mul_pos r.amount_pos (sub_pos.2 hopen)).ne'
  -- What is left is the open share of the part the acknowledgement left open.
  have hleft : ∃ left, (db'.reservations.get? r.id).map (·.amount) = some left ∧
      left * (q - data.fill) = r.amount * (q - filled) ∧
      deployedAmount db'.allocations r.accountId r.strategyKey =
        deployedAmount s.db.allocations r.accountId r.strategyKey + (r.amount - left) := by
    rcases hcase with ⟨hstanding, _⟩ | ⟨hsettled, hamount⟩
    · have hstatus : ∀ obs ∈ seen, obs.status ∉ terminalStatuses := by
        intro obs hobs
        rw [hpartly obs hobs]
        decide
      obtain ⟨_, _, hstands, htransfers⟩ := hstanding.processAll (hordering.sound.effect heffect)
        (hordering.conserved.effect heffect) hordered hlooks hstatus
      obtain ⟨r', hr', _, hleft, _⟩ := hstands.reservation
      refine ⟨_, by rw [hr', Option.map_some, hleft], ?_, ?_⟩
      · refine (keptAfter_mul r.amount_pos hfills).2.2 (progressSettled_of_forall ?_)
        intro reading hreading
        obtain ⟨obs, hobs, rfl⟩ := List.mem_map.1 hreading
        simp [Observation.reading, hpartly obs hobs]
      · rw [htransfers.deployed, hdeployed]
    · obtain ⟨rfl, rfl⟩ := hsettled.processAll hlooks
      exact ⟨r.amount, hamount, rfl, by rw [hdeployed, sub_self, add_zero]⟩
  obtain ⟨left, hamount, hshare, hgrown⟩ := hleft
  rw [hamount, hgrown, Option.some_inj, add_right_inj]
  constructor
  · rintro ⟨rfl, -⟩
    rw [div_mul_eq_mul_div, div_eq_iff hq.ne', mul_right_inj' hrest] at hshare
    linarith
  · intro hnone
    rw [hnone, sub_zero] at hshare
    have heq : left = r.amount * (q - filled) / q := (eq_div_iff hq.ne').2 hshare
    refine ⟨heq, ?_⟩
    rw [heq]
    field_simp
    ring

/-- **A terminal answer deploys what was filled** exactly if it says that the order was filled and
reports all of it, or if every fill was first seen in a partial answer.  The reserved counter
returns to what it was without the order in either case. -/
theorem terminal_settlement_iff (hsound : Sound db) (hconserved : Conserved db)
    (hfiled : Filed db) (hrun : runActs Sys.step (Sys.idle db) acts = some s) {intent : Intent}
    {noted : ℚ} (hbegins : Begins s r intent db₀ noted) {obs : Observation}
    (hlooks : processAll db₀ intent.id looks = some (db', seen ++ [obs]))
    (hterm : obs.status ∈ terminalStatuses) (hq : 0 < q)
    (hordered : ∀ o ∈ seen ++ [obs], o.ordered.number = some q)
    (hfills : Cumulative q 0 (⟨false, noted⟩ :: (seen ++ [obs]).map Observation.reading)) :
    (deployedAmount db'.allocations r.accountId r.strategyKey =
          deployedAmount s.db.allocations r.accountId r.strategyKey + r.amount * obs.fill / q ∧
        reservedAmount db'.allocations r.accountId r.strategyKey =
          reservedAmount s.db.allocations r.accountId r.strategyKey - r.amount) ↔
      (obs.status = "filled" ∧ obs.fill = q) ∨ (obs.status ≠ "filled" ∧
        ProgressSettled 0 (⟨false, noted⟩ :: (seen ++ [obs]).map Observation.reading)) := by
  have hstart : (Sys.idle db).Ordered := ⟨Sys.idle_valid db, hsound, hconserved, hfiled⟩
  have hordering := invariant_of_run (fun _ _ _ hI hstep ↦ Sys.ordered_step hI hstep) hstart hrun
  obtain ⟨hsound₀, hconserved₀, hcase⟩ := hbegins.standing hordering
  rcases hcase with ⟨hstanding, hbegun⟩ | hsettled
  · obtain ⟨_, htransfers⟩ :=
      hstanding.processAll_terminal hsound₀ hconserved₀ hordered hterm hlooks
    have hboth := hbegun.trans htransfers
    rw [zero_add, zero_add] at hboth
    rw [hboth.reserved, hboth.deployed, and_iff_left rfl, add_right_inj]
    by_cases hfilled : obs.status = "filled"
    · rw [if_pos hfilled]
      simp only [hfilled, ne_eq, not_true_eq_false, false_and, or_false, true_and]
      rw [eq_div_iff hq.ne', mul_right_inj' r.amount_pos.ne', eq_comm]
    · rw [if_neg hfilled]
      simp only [hfilled, ne_eq, not_false_eq_true, false_and, false_or, true_and]
      -- The terminal answer itself settles in no proportion.
      have hlast : obs.reading.settled = false := by
        have hne : obs.status ≠ "partially_filled" := by
          intro heq
          rw [heq] at hterm
          simp [terminalStatuses] at hterm
        simp [Observation.reading, hne]
      have hkept : keptAfter q 0 r.amount
          (⟨false, noted⟩ :: (seen ++ [obs]).map Observation.reading) =
          keptAfter q noted r.amount (seen.map Observation.reading) := by
        rw [List.map_append, List.map_singleton, keptAfter]
        exact keptAfter_append_noted q noted r.amount _ _ hlast
      have hfill : lastDone 0 (⟨false, noted⟩ :: (seen ++ [obs]).map Observation.reading) =
          obs.fill := by
        rw [List.map_append, List.map_singleton, lastDone]
        exact lastDone_append_singleton noted _ _
      rw [← keptAfter_eq_iff r.amount_pos hq hfills, hkept, hfill, sub_div, div_self hq.ne',
        mul_sub, mul_one, mul_div_assoc]
      constructor
      · intro h
        linarith
      · intro h
        linarith
  · obtain ⟨hnil, _⟩ := hsettled.processAll hlooks
    exact absurd hnil (List.append_ne_nil_of_right_ne_nil seen (List.cons_ne_nil obs []))

end Runs

/-! ## Orders of the specimen -/

namespace Specimen

/-- The state in which the answer of the broker is about to be recorded. -/
def awaitingRecord (filled : ℚ) : Option Sys :=
  runActs (@Sys.step hashing) (Sys.idle tradingDb)
    (entryActs ++ [.run 0 (.answer (.inr (reply "accepted" filled)) 2000)])

/-- The acknowledgement of the specimen: the row of the run, the answer and the state after it. -/
def acknowledge (s : Sys) : Option (AutonomousExecutionIntentRow × AlpacaSubmittedOrder × Db) :=
  s.runs.head?.bind fun run ↦
    match run.phase with
    | .recording row receipt data httpStatus now =>
      match @recordSubmission hashing s.db row data httpStatus receipt session now with
      | .ok (db, _) => some (row, data, db)
      | .error _ => none
    | _ => none

/-- A look at the order. -/
def look (status : String) (filled : ℚ) : Look :=
  { session, now := 4000, response := reply status filled }

/-- An acknowledgement that reports a fill, and what is seen of the order afterwards. -/
structure Filling where
  sys : Sys
  row : AutonomousExecutionIntentRow
  data : AlpacaSubmittedOrder
  reservation : Reservation
  acknowledged : Db
  final : Db
  seen : List Observation

/-- The order of the specimen, acknowledged with a fill and looked at. -/
def filling (noted : ℚ) (looks : List Look) : Option Filling :=
  (awaitingRecord noted).bind fun s ↦ (acknowledge s).bind fun (row, data, db) ↦
    (row.intent.reservationId.bind s.db.reservations.get?).bind fun r ↦
      (@processAll hashing db row.intent.id looks).map fun (db', seen) ↦
        ⟨s, row, data, r, db, db', seen⟩

/-- What the books say: the amount of the reservation before and after, and the counters of its
strategy before and after. -/
structure Statement where
  amount : ℚ
  left : Option ℚ
  deployed : ℚ × ℚ
  reserved : ℚ × ℚ
deriving DecidableEq

/-- The books of a filling. -/
def Filling.books (f : Filling) : Statement where
  amount := f.reservation.amount
  left := (f.final.reservations.get? f.reservation.id).map (·.amount)
  deployed :=
    (deployedAmount f.sys.db.allocations f.reservation.accountId f.reservation.strategyKey,
      deployedAmount f.final.allocations f.reservation.accountId f.reservation.strategyKey)
  reserved :=
    (reservedAmount f.sys.db.allocations f.reservation.accountId f.reservation.strategyKey,
      reservedAmount f.final.allocations f.reservation.accountId f.reservation.strategyKey)

/-- What was seen of the order. -/
def Filling.sightings (f : Filling) : ℚ × List (String × Option ℚ × Reading ℚ) :=
  (f.data.fill, f.seen.map fun o ↦ (o.status, o.ordered.number, o.reading))

/-- What the parts of a filling are. -/
theorem filling_some {noted : ℚ} {looks : List Look} {f : Filling}
    (h : filling noted looks = some f) :
    awaitingRecord noted = some f.sys ∧ f.sys.Holds f.row f.reservation ∧
      (∃ httpStatus receipt now result, @recordSubmission hashing f.sys.db f.row f.data httpStatus
        receipt session now = .ok (f.acknowledged, result)) ∧
      @processAll hashing f.acknowledged f.row.intent.id looks = some (f.final, f.seen) := by
  simp only [filling, Option.bind_eq_some_iff, Option.map_eq_some_iff] at h
  obtain ⟨s, hs, ⟨row, data, db⟩, hack, r, ⟨id, hid, hr⟩, ⟨db', seen⟩, hlooks, rfl⟩ := h
  simp only [acknowledge, Option.bind_eq_some_iff] at hack
  obtain ⟨run, hrun, hack⟩ := hack
  split at hack
  · next row' receipt data' httpStatus now hphase =>
    split at hack
    · next db₁ result hok =>
      simp only [Option.some_inj, Prod.mk.injEq] at hack
      obtain ⟨rfl, rfl, rfl⟩ := hack
      have hkey : r.id = id := Table.key_of_get? hr
      refine ⟨hs, ⟨⟨run, List.mem_of_head? hrun, by rw [hphase]; rfl⟩, ?_, ?_⟩,
        ⟨httpStatus, receipt, now, result, hok⟩, hlooks⟩
      · rw [hkey]
        exact hid
      · rw [hkey]
        exact hr
    · cases hack
  · cases hack

/-- The answers that were seen, one by one. -/
theorem Filling.forall_seen {f : Filling} {noted : ℚ} {l : List (String × Option ℚ × Reading ℚ)}
    (h : f.sightings = (noted, l)) {P : String → Option ℚ → Prop}
    (hall : ∀ x ∈ l, P x.1 x.2.1) : ∀ o ∈ f.seen, P o.status o.ordered.number := by
  intro o ho
  obtain ⟨-, rfl⟩ := Prod.mk.inj h
  exact hall _ (List.mem_map.2 ⟨o, ho, rfl⟩)

theorem Filling.readings {f : Filling} {noted : ℚ} {l : List (String × Option ℚ × Reading ℚ)}
    (h : f.sightings = (noted, l)) :
    f.data.fill = noted ∧ f.seen.map Observation.reading = l.map (·.2.2) := by
  obtain ⟨rfl, rfl⟩ := Prod.mk.inj h
  refine ⟨rfl, ?_⟩
  rw [List.map_map]
  rfl

theorem tradingDb_sound : Sound tradingDb :=
  .of_created_entry (i := { entryIntent with accountId := "account_id" }) rfl (by decide) rfl rfl
    (by decide) rfl

theorem tradingDb_conserved : Conserved tradingDb :=
  .of_unreserved rfl fun _ ha ↦ List.mem_singleton.1 ha ▸ rfl

theorem tradingDb_filed : Filed tradingDb := by
  intro o ho
  cases ho

end Specimen

/-- The theorem at the specimen: an acknowledgement without a fill, then two partial fills. -/
theorem specimen_partial_settlement :
    ∃ f, Specimen.filling 0
        [Specimen.look "partially_filled" 4, Specimen.look "partially_filled" 6] = some f ∧
      (f.final.reservations.get? f.reservation.id).map (·.amount) =
        some (f.reservation.amount * (10 - 6) / 10) ∧
      deployedAmount f.final.allocations f.reservation.accountId f.reservation.strategyKey =
        deployedAmount f.sys.db.allocations f.reservation.accountId f.reservation.strategyKey +
          f.reservation.amount * 6 / 10 := by
  let _ := Specimen.hashing
  have hrun : (Specimen.filling 0
      [Specimen.look "partially_filled" 4, Specimen.look "partially_filled" 6]).map
      Specimen.Filling.sightings = some (0, [("partially_filled", some 10, ⟨true, 4⟩),
        ("partially_filled", some 10, ⟨true, 6⟩)]) := by decide +kernel
  obtain ⟨f, hf, hseen⟩ := Option.map_eq_some_iff.1 hrun
  obtain ⟨hsys, hholds, ⟨_, _, _, _, hack⟩, hlooks⟩ := Specimen.filling_some hf
  obtain ⟨hnoted, hreadings⟩ := Specimen.Filling.readings hseen
  have hsettled := (partial_settlement_iff Specimen.tradingDb_sound Specimen.tradingDb_conserved
    Specimen.tradingDb_filed hsys hholds hack hlooks
    (Specimen.Filling.forall_seen (P := fun status _ ↦ status = "partially_filled") hseen
      (by simp))
    (Specimen.Filling.forall_seen (P := fun _ ordered ↦ ordered = some 10) hseen (by simp))
    (by rw [hreadings, hnoted]; norm_num [Cumulative])
    (by rw [hreadings, hnoted]; norm_num [lastDone])).2 hnoted
  rw [hreadings] at hsettled
  exact ⟨f, hf, hsettled⟩

/-- An acknowledgement that reports four of ten filled, and a partial fill of six: of 1000 the
reservation keeps two thirds, and one third is deployed, although six tenths were bought. -/
theorem acknowledged_fill_stays_reserved :
    ∃ f, Specimen.filling 4 [Specimen.look "partially_filled" 6] = some f ∧
      f.sightings = (4, [("partially_filled", some 10, ⟨true, 6⟩)]) ∧
      f.books = ⟨1000, some (2000 / 3), (0, 1000 / 3), (1000, 2000 / 3)⟩ ∧
      ¬ ((f.final.reservations.get? f.reservation.id).map (·.amount) =
          some (f.reservation.amount * (10 - 6) / 10) ∧
        deployedAmount f.final.allocations f.reservation.accountId f.reservation.strategyKey =
          deployedAmount f.sys.db.allocations f.reservation.accountId f.reservation.strategyKey +
            f.reservation.amount * 6 / 10) := by
  have hrun : (Specimen.filling 4 [Specimen.look "partially_filled" 6]).map
      Specimen.Filling.sightings = some (4, [("partially_filled", some 10, ⟨true, 6⟩)]) := by
    decide +kernel
  have hbooks : (Specimen.filling 4 [Specimen.look "partially_filled" 6]).map
      Specimen.Filling.books =
      some ⟨1000, some (2000 / 3), (0, 1000 / 3), (1000, 2000 / 3)⟩ := by decide +kernel
  obtain ⟨f, hf, hseen⟩ := Option.map_eq_some_iff.1 hrun
  rw [hf, Option.map_some, Option.some_inj] at hbooks
  refine ⟨f, hf, hseen, hbooks, ?_⟩
  simp only [Specimen.Filling.books, Specimen.Statement.mk.injEq] at hbooks
  obtain ⟨hamount, hleft, _⟩ := hbooks
  rw [hleft, hamount]
  norm_num

/-- The theorem at the specimen: two fills, each first seen in a partial answer, and a
cancellation. -/
theorem specimen_terminal_settlement :
    ∃ f, Specimen.filling 0 [Specimen.look "partially_filled" 4,
        Specimen.look "partially_filled" 6, Specimen.look "canceled" 6] = some f ∧
      deployedAmount f.final.allocations f.reservation.accountId f.reservation.strategyKey =
        deployedAmount f.sys.db.allocations f.reservation.accountId f.reservation.strategyKey +
          f.reservation.amount * 6 / 10 ∧
      reservedAmount f.final.allocations f.reservation.accountId f.reservation.strategyKey =
        reservedAmount f.sys.db.allocations f.reservation.accountId f.reservation.strategyKey -
          f.reservation.amount := by
  let _ := Specimen.hashing
  have hrun : (Specimen.filling 0 [Specimen.look "partially_filled" 4,
      Specimen.look "partially_filled" 6, Specimen.look "canceled" 6]).map
      Specimen.Filling.sightings = some (0, [("partially_filled", some 10, ⟨true, 4⟩),
        ("partially_filled", some 10, ⟨true, 6⟩), ("canceled", some 10, ⟨false, 6⟩)]) := by
    decide +kernel
  obtain ⟨f, hf, hseen⟩ := Option.map_eq_some_iff.1 hrun
  obtain ⟨hsys, hholds, ⟨_, _, _, _, hack⟩, hlooks⟩ := Specimen.filling_some hf
  obtain ⟨hnoted, hreadings⟩ := Specimen.Filling.readings hseen
  have hordered := Specimen.Filling.forall_seen (P := fun _ ordered ↦ ordered = some 10) hseen
    (by simp)
  -- The cancellation is the last answer.
  obtain ⟨seen, obs, hsplit⟩ : ∃ seen obs, f.seen = seen ++ [obs] := by
    have hne : f.seen ≠ [] := by
      intro hnil
      rw [Specimen.Filling.sightings, hnil] at hseen
      simp at hseen
    exact ⟨_, _, (List.dropLast_concat_getLast hne).symm⟩
  have hlast : obs.status = "canceled" ∧ obs.fill = 6 := by
    rw [Specimen.Filling.sightings, hsplit, Prod.mk.injEq, List.map_append] at hseen
    have hend := congrArg List.getLast? hseen.2
    simp only [List.map_cons, List.map_nil, List.getLast?_append, List.getLast?_singleton,
      List.getLast?_cons_cons, Option.some_or, Option.some_inj, Prod.mk.injEq] at hend
    exact ⟨hend.1, congrArg Reading.done hend.2.2⟩
  rw [hsplit] at hlooks hordered hreadings
  have hsettled := (terminal_settlement_iff (q := 10) Specimen.tradingDb_sound
    Specimen.tradingDb_conserved Specimen.tradingDb_filed hsys (.acknowledged rfl hholds hack)
    hlooks (by rw [hlast.1]; decide) (by norm_num) hordered
    (by rw [hreadings, hnoted]; norm_num [Cumulative])).2
    (Or.inr ⟨by rw [hlast.1]; decide, by rw [hreadings, hnoted]; norm_num [ProgressSettled]⟩)
  rw [hlast.2] at hsettled
  exact ⟨f, hf, hsettled⟩

/-- A cancellation that is the first to report four of ten filled: nothing is deployed. -/
theorem cancelled_fill_not_deployed :
    ∃ f, Specimen.filling 0 [Specimen.look "canceled" 4] = some f ∧
      f.sightings = (0, [("canceled", some 10, ⟨false, 4⟩)]) ∧
      f.books = ⟨1000, some 1000, (0, 0), (1000, 0)⟩ ∧
      ¬ deployedAmount f.final.allocations f.reservation.accountId f.reservation.strategyKey =
        deployedAmount f.sys.db.allocations f.reservation.accountId f.reservation.strategyKey +
          f.reservation.amount * 4 / 10 := by
  have hrun : (Specimen.filling 0 [Specimen.look "canceled" 4]).map
      Specimen.Filling.sightings = some (0, [("canceled", some 10, ⟨false, 4⟩)]) := by
    decide +kernel
  have hbooks : (Specimen.filling 0 [Specimen.look "canceled" 4]).map Specimen.Filling.books =
      some ⟨1000, some 1000, (0, 0), (1000, 0)⟩ := by decide +kernel
  obtain ⟨f, hf, hseen⟩ := Option.map_eq_some_iff.1 hrun
  rw [hf, Option.map_some, Option.some_inj] at hbooks
  refine ⟨f, hf, hseen, hbooks, ?_⟩
  simp only [Specimen.Filling.books, Specimen.Statement.mk.injEq, Prod.mk.injEq] at hbooks
  obtain ⟨hamount, _, ⟨hbefore, hafter⟩, _⟩ := hbooks
  rw [hafter, hbefore, hamount]
  norm_num

end AlpacaTrading
