import AlpacaTrading.Reconciliation.Transitions
import AlpacaTrading.Recovery.StaleReady
import AlpacaTrading.System.Footprint

/-!
# One intent, as the database shows it

The status and the lifecycle state of an intent are two columns, many statements write only one of
them, and its transitions are rows of another table.  `IntentView` has all of it, and `Shift` lists
what a statement does to it.  `Shifts` says that a database step takes every stored intent by such a
shift; every statement but those that store new intents is one.

## Causes

Four shifts are made from what a service has seen outside the columns: an observation, an absence, a
stale intent, a closed position.  A shift carries a predicate on these causes, so that a run can be
restricted to those a property needs; the other shifts have none.
-/

namespace AlpacaTrading

/-! ## Views -/

/-- The transitions of an intent, oldest first. -/
def Db.transitionsOf (db : Db) (id : String) : List LifecycleTransition :=
  db.lifecycleTransitions.rows.filter (·.orderIntentId = id)

/-- The intent has an order. -/
def Db.placed (db : Db) (id : String) : Bool := db.orders.rows.any (·.orderIntentId = id)

/-- What the database shows of an intent. -/
structure IntentView where
  status : IntentStatus
  state : LifecycleState
  log : List LifecycleTransition
  placed : Bool
deriving DecidableEq

def Intent.view (db : Db) (i : Intent) : IntentView :=
  { status := i.status
    state := i.lifecycleState
    log := db.transitionsOf i.id
    placed := db.placed i.id }

/-- The type of the review of an intent; only intents without a review have none. -/
def Intent.type (db : Db) (i : Intent) : ReviewType := (i.kind db).getD .exit

theorem Intent.type_of_kind {db : Db} {i : Intent} {type : ReviewType}
    (h : i.kind db = some type) : i.type db = type := by
  rw [Intent.type, h, Option.getD_some]

/-- What a service has seen of an intent. -/
inductive Cause where
  | observed (target : Target) (obs : Observation)
  | absent
  | cancelled
  | closed

/-! ## Shifts -/

section Shifts

variable [Hashing]

/-- What a statement does to an intent with a review of the type, for causes within a predicate. -/
inductive Shift (ok : Cause → Prop) (type : ReviewType) (v : IntentView) : IntentView → Prop
  | keep : Shift ok type v v
  /-- A promotion. -/
  | confirm (hstatus : v.status = .created) :
    Shift ok type v { v with status := .readyForSubmission }
  | claim (hstatus : v.status = .readyForSubmission) :
    Shift ok type v { v with status := .submissionPending }
  | release (hstatus : v.status = .submissionPending) :
    Shift ok type v { v with status := .readyForSubmission }
  | attempt (hstatus : v.status = .submissionPending) :
    Shift ok type v { v with state := attemptState type }
  /-- The answer of the broker is recorded, with the order. -/
  | acknowledge {brokerStatus : String} {l : LifecycleState}
      (hstatus : v.status = .submissionPending)
      (hstate : lifecycleStateForBrokerStatus type brokerStatus = l) :
    Shift ok type v { v with status := acknowledgedStatus l, state := l, placed := true }
  | doubt (hstatus : v.status = .submissionPending) :
    Shift ok type v { v with status := .ambiguous, state := ambiguousState type }
  | reject (hstatus : v.status = .submissionPending) :
    Shift ok type v { v with status := .failed, state := .failedTerminal }
  /-- Reconciliation stores an observation, with the order and a row for each step. -/
  | observe {target : Target} {obs : Observation} (now : Time) (placed : Bool)
      (hstatus : v.status ∈ observableStatuses) (hstate : target.intent.lifecycleState = v.state)
      (htype : target.reviewType = type) (hobs : Observed target obs)
      (hok : ok (.observed target obs))
      (hnew : ∀ r ∈ transitionRows target obs now, r.newIn v.log = true) :
    Shift ok type v
      { status := obs.intentStatus
        state := obs.state
        log := v.log ++ transitionRows target obs now
        placed }
  /-- Some rows have a name that is taken: only the others are stored. -/
  | stuck {target : Target} {obs : Observation} (now : Time) (placed : Bool)
      (hstatus : v.status ∈ observableStatuses) (hstate : target.intent.lifecycleState = v.state)
      (htype : target.reviewType = type) (hobs : Observed target obs)
      (hok : ok (.observed target obs))
      (hold : ∃ r ∈ transitionRows target obs now, r.newIn v.log = false) :
    Shift ok type v
      { v with
        log := v.log ++ (transitionRows target obs now).filter (·.newIn v.log)
        placed }
  /-- The sync closes an exit whose position is closed. -/
  | close (hstate : v.state ∈ exitOrderStates) (hok : ok .closed) :
    Shift ok type v { v with status := .reconciled, state := .closed }
  /-- Recovery cancels a stale intent, and leaves its lifecycle state. -/
  | cancel (hstatus : v.status ∈ [.created, .readyForSubmission]) (hok : ok .cancelled) :
    Shift ok type v { v with status := .cancelled }
  /-- A confirmed absence fails the intent, and leaves its lifecycle state. -/
  | absent (hstatus : v.status ∈ [.submissionPending, .ambiguous]) (hok : ok .absent) :
    Shift ok type v { v with status := .failed }
  /-- Recovery keeps a stale intent whose order it found. -/
  | preserve (hstatus : v.status = .readyForSubmission) :
    Shift ok type v { v with status := .ambiguous }

/-- A predicate on the causes of shifts. -/
abbrev CauseGuard := Db → Intent → Cause → Prop

/-- The intent may have come from the other by one statement. -/
def Shifted (ok : CauseGuard) (db db' : Db) (i i' : Intent) : Prop :=
  i'.terms = i.terms ∧ Shift (ok db i) (i.type db) (i.view db) (i'.view db')

/-- Every intent of the second state came from one of the first, and what is not of a stored intent
stays. -/
structure Shifts (ok : CauseGuard) (db db' : Db) : Prop where
  intents : ∀ i' ∈ db'.intents.rows, ∃ i ∈ db.intents.rows, Shifted ok db db' i i'
  others : ∀ id, db.intents.get? id = none →
    db'.transitionsOf id = db.transitionsOf id ∧ db'.placed id = db.placed id

/-- The two tables a view reads beside the intents stay. -/
structure SameViews (db db' : Db) : Prop where
  transitions : db'.lifecycleTransitions = db.lifecycleTransitions
  orders : db'.orders = db.orders

variable {ok : CauseGuard} {db db' : Db}

omit [Hashing] in
theorem transitionsOf_congr (h : db'.lifecycleTransitions = db.lifecycleTransitions)
    (id : String) : db'.transitionsOf id = db.transitionsOf id := by
  rw [Db.transitionsOf, h, Db.transitionsOf]

omit [Hashing] in
theorem SameViews.transitionsOf (h : SameViews db db') (id : String) :
    db'.transitionsOf id = db.transitionsOf id := transitionsOf_congr h.transitions id

omit [Hashing] in
theorem SameViews.placed (h : SameViews db db') (id : String) : db'.placed id = db.placed id := by
  rw [Db.placed, h.orders, Db.placed]

omit [Hashing] in
theorem SameViews.view (h : SameViews db db') (i : Intent) : i.view db' = i.view db := by
  rw [Intent.view, h.transitionsOf, h.placed, Intent.view]

theorem Shifted.refl (h : SameViews db db') (i : Intent) : Shifted ok db db' i i := by
  refine ⟨rfl, ?_⟩
  rw [h.view]
  exact .keep

/-- A statement that writes no intents. -/
theorem Shifts.of_eq (hintents : db'.intents = db.intents) (h : SameViews db db') :
    Shifts ok db db' := by
  refine ⟨fun i hi ↦ ?_, fun id _ ↦ ⟨h.transitionsOf id, h.placed id⟩⟩
  rw [hintents] at hi
  exact ⟨i, hi, .refl h i⟩

theorem Shifts.of_update {p : Intent → Bool} {f : Intent → Intent} (hf : Keeps f)
    (hintents : db'.intents = db.intents.update p f hf) (h : SameViews db db')
    (hterms : ∀ i, (f i).terms = i.terms)
    (hshift : ∀ i ∈ db.intents.rows, p i = true → Shift (ok db i) (i.type db) (i.view db)
      { i.view db with status := (f i).status, state := (f i).lifecycleState }) :
    Shifts ok db db' := by
  refine ⟨fun i' hi' ↦ ?_, fun id _ ↦ ⟨h.transitionsOf id, h.placed id⟩⟩
  rw [hintents] at hi'
  obtain ⟨i, hi, rfl⟩ := Table.mem_update.1 hi'
  refine ⟨i, hi, ?_⟩
  by_cases hp : p i = true
  · rw [if_pos hp]
    refine ⟨hterms i, ?_⟩
    have hid : (f i).id = i.id := congrArg IntentTerms.id (hterms i)
    have hview : (f i).view db' =
        { i.view db with status := (f i).status, state := (f i).lifecycleState } := by
      rw [h.view, Intent.view, hid]
      rfl
    rw [hview]
    exact hshift i hi hp
  · rw [if_neg hp]
    exact .refl h i

theorem Shifts.of_modify {i : Intent} {id : String} {f : Intent → Intent} (hf : Keeps f)
    (hget : db.intents.get? id = some i) (hintents : db'.intents = db.intents.modify id f hf)
    (h : SameViews db db') (hterms : ∀ i, (f i).terms = i.terms)
    (hshift : Shift (ok db i) (i.type db) (i.view db)
      { i.view db with status := (f i).status, state := (f i).lifecycleState }) :
    Shifts ok db db' := by
  refine .of_update hf hintents h hterms fun j hj hp ↦ ?_
  have hkey : Row.key j = id := of_decide_eq_true hp
  obtain rfl := db.intents.eq_of_key hj (Table.mem_of_get? hget)
    (hkey.trans (Table.key_of_get? hget).symm)
  exact hshift

omit [Hashing] in
/-- The rows after one of them was replaced. -/
theorem mem_modify_cases {i i' : Intent} {id : String} {f : Intent → Intent} {hf : Keeps f}
    (hget : db.intents.get? id = some i) (hi' : i' ∈ (db.intents.modify id f hf).rows) :
    i' = f i ∨ (i' ∈ db.intents.rows ∧ i'.id ≠ id) := by
  obtain ⟨j, hj, rfl⟩ := Table.mem_modify.1 hi'
  by_cases hkey : Row.key j = id
  · obtain rfl := db.intents.eq_of_key hj (Table.mem_of_get? hget)
      (hkey.trans (Table.key_of_get? hget).symm)
    rw [if_pos hkey]
    exact .inl rfl
  · rw [if_neg hkey]
    exact .inr ⟨hj, hkey⟩

/-- One intent shifts, with its transitions and its order. -/
theorem Shifts.of_view {i x : Intent} {id : String} (hget : db.intents.get? id = some i)
    (hrows : ∀ j ∈ db'.intents.rows, j = x ∨ (j ∈ db.intents.rows ∧ j.id ≠ id))
    (htransitions : ∀ j, j ≠ id → db'.transitionsOf j = db.transitionsOf j)
    (hplaced : ∀ j, j ≠ id → db'.placed j = db.placed j)
    (hshifted : Shifted ok db db' i x) : Shifts ok db db' := by
  refine ⟨fun j hj ↦ ?_, fun j hj ↦ ?_⟩
  · rcases hrows j hj with rfl | ⟨hj, hne⟩
    · exact ⟨i, Table.mem_of_get? hget, hshifted⟩
    · refine ⟨j, hj, rfl, ?_⟩
      have hview : j.view db' = j.view db := by
        rw [Intent.view, htransitions j.id hne, hplaced j.id hne, Intent.view]
      rw [hview]
      exact .keep
  · have hne : j ≠ id := by
      rintro rfl
      rw [hget] at hj
      cases hj
    exact ⟨htransitions j hne, hplaced j hne⟩

end Shifts

/-! ## The transactions of a run -/

section Executes

variable [Hashing] {ok : CauseGuard} {db db' : Db}

omit [Hashing] in
theorem reserve_sameViews {row : ConfirmableIntentRow} {session : Session} {now expiresAt : Time}
    {fingerprint reservationId : String} {amount : Option {a : ℚ // 0 < a}}
    (h : reserve db row session now expiresAt fingerprint reservationId amount = .ok db') :
    db'.intents = db.intents ∧ SameViews db db' := by
  rcases amount with - | amount
  · obtain rfl := Except.ok.inj h
    exact ⟨rfl, rfl, rfl⟩
  · obtain ⟨_, _, _, rfl⟩ := reserve_some_ok h
    exact ⟨rfl, rfl, rfl⟩

theorem confirmIntent_shifts {command : ExecutionCommand} {session : Session} {now : Time}
    {row : ConfirmableIntentRow} {amount : Option {a : ℚ // 0 < a}} {result : PromotionResult}
    (h : confirmIntent db command session now row amount = .ok (db', result)) :
    Shifts ok db db' := by
  obtain ⟨confirmationId, _, _, db₂, i, _, _, _, hreserve, hget, hstatus, rfl, _⟩ := confirmIntent_ok h
  obtain ⟨hintents, hsame⟩ := reserve_sameViews hreserve
  rw [hintents] at hget
  have htable := congrArg (fun t : Table Intent ↦ t.modify row.intent.id _
    (Intent.promote_keeps confirmationId
      (amount.map fun _ ↦ reservationIdFor row.intent confirmationId) now)) hintents
  exact .of_modify (Intent.promote_keeps _ _ _) hget htable ⟨hsame.transitions, hsame.orders⟩
    (fun _ ↦ rfl) (.confirm hstatus)

theorem settleAcknowledged_sameViews {intent : Intent} {session : Session} {state : LifecycleState}
    {now : Time} (h : settleAcknowledged db intent session state now = .ok db') :
    SameViews db db' := by
  unfold settleAcknowledged at h
  split at h
  · obtain rfl := Except.ok.inj h
    exact ⟨rfl, rfl⟩
  · obtain ⟨_, _, _, _, _, _, rfl⟩ := releaseTerminalReservation_ok h
    exact ⟨rfl, rfl⟩
  · rw [bind_eq_ok] at h
    obtain ⟨_, _, h⟩ := h
    obtain rfl := Except.ok.inj h
    exact ⟨rfl, rfl⟩

omit [Hashing] in
/-- The order of an acknowledgement is of the intent. -/
theorem acknowledgedOrder_intent {intent : Intent} {data : AlpacaSubmittedOrder}
    {orderId brokerOrderId status : String} {occurredAt : Time} {order : Order}
    (h : acknowledgedOrder intent data orderId brokerOrderId status occurredAt = .ok order) :
    order.orderIntentId = intent.id := by
  simp only [acknowledgedOrder, bind_eq_ok] at h
  obtain ⟨_, _, _, _, _, _, _, _, _, _, _, _, _, _, h⟩ := h
  rw [← Except.ok.inj h]

omit [Hashing] in
/-- A new order is one of its intent and of no other. -/
theorem placed_of_insert {order : Order} (hinsert : db.orders.insert? order = some db'.orders)
    (id : String) : db'.placed id = (db.placed id || decide (order.orderIntentId = id)) := by
  rw [Db.placed, Table.rows_of_insert? hinsert, List.any_append, Db.placed]
  simp

/-- One intent moves, and an order of it is stored. -/
theorem Shifts.of_order {i : Intent} {id : String} {f : Intent → Intent} (hf : Keeps f)
    {order : Order} (hget : db.intents.get? id = some i)
    (hintents : db'.intents = db.intents.modify id f hf)
    (htransitions : db'.lifecycleTransitions = db.lifecycleTransitions)
    (hinsert : db.orders.insert? order = some db'.orders) (horder : order.orderIntentId = id)
    (hterms : ∀ i, (f i).terms = i.terms)
    (hshift : Shift (ok db i) (i.type db) (i.view db)
      { i.view db with status := (f i).status, state := (f i).lifecycleState, placed := true }) :
    Shifts ok db db' := by
  have hid : (f i).id = id := (congrArg IntentTerms.id (hterms i)).trans (Table.key_of_get? hget)
  refine .of_view (x := f i) hget (fun j hj ↦ mem_modify_cases hget (hintents ▸ hj))
    (fun j _ ↦ transitionsOf_congr htransitions j) (fun j hj ↦ ?_) ⟨hterms i, ?_⟩
  · rw [placed_of_insert hinsert, horder, decide_eq_false (Ne.symm hj), Bool.or_false]
  · have hview : (f i).view db' =
        { i.view db with status := (f i).status, state := (f i).lifecycleState, placed := true } := by
      have hsame : i.id = id := Table.key_of_get? hget
      rw [Intent.view, transitionsOf_congr htransitions, placed_of_insert hinsert, hid,
        decide_eq_true horder, Bool.or_true, Intent.view, hsame]
    rwa [hview]

theorem recordSubmission_shifts {row : AutonomousExecutionIntentRow} {data : AlpacaSubmittedOrder}
    {httpStatus : Int} {receipt : BrokerMutationReceipt} {session : Session} {now : Time}
    {result : RecordedSubmission} (hknown : Known db row.intent row.review.reviewType)
    (h : recordSubmission db row data httpStatus receipt session now = .ok (db', result)) :
    Shifts ok db db' := by
  obtain ⟨order, _, _, _, i, db₁, _, _, _, _, _, horder, hinsert, _, hget, hstatus, hsettle, _,
    rfl⟩ := recordSubmission_ok h
  obtain ⟨htransitions, horders⟩ := settleAcknowledged_sameViews hsettle
  have hintents := (settleAcknowledged_frame hsettle).1
  have htype := Intent.type_of_kind (hknown.stored hget).2.2.2
  dsimp only at htransitions horders hintents
  rw [← horders] at hinsert
  generalize hstate : lifecycleStateForBrokerStatus row.review.reviewType _ = l at hintents
  refine .of_order (Intent.acknowledge_keeps l now) hget hintents htransitions hinsert
    (acknowledgedOrder_intent horder) (fun _ ↦ rfl) ?_
  exact .acknowledge hstatus (htype ▸ hstate)

/-- **A transaction of a run** shifts intents, for no cause. -/
theorem Executes.shifts (h : Executes db db') : Shifts ok db db' := by
  cases h with
  | idle h => exact .of_eq (congrArg Db.intents h) ⟨congrArg _ h, congrArg _ h⟩
  | promote h =>
    rcases promote_ok h with ⟨rfl, _⟩ | ⟨_, _, ⟨_, hexit⟩ | ⟨_, _, _, _, hentry⟩⟩
    · exact .of_eq rfl ⟨rfl, rfl⟩
    · exact confirmIntent_shifts hexit
    · exact confirmIntent_shifts hentry
  | @claim command session now signature locked row h =>
    obtain ⟨join, hget, hjoin, _, hable, rfl⟩ := claimIntent_ok h
    have hstatus : row.intent.status = .readyForSubmission := by
      unfold claimable at hable
      simp only [Bool.and_eq_true, decide_eq_true_eq] at hable
      exact hable.1.1.1.1.1.1.1
    exact .of_modify (Intent.withStatus_keeps _ _) hget rfl ⟨rfl, rfl⟩ (fun _ ↦ rfl)
      (.claim hstatus)
  | release _ h =>
    obtain ⟨i, _, hget, hstatus, rfl⟩ := releaseClaim_ok h
    exact .of_modify (Intent.withStatus_keeps _ _) hget rfl ⟨rfl, rfl⟩ (fun _ ↦ rfl)
      (.release hstatus)
  | attempt hknown h =>
    obtain ⟨_, i, _, hget, hstatus, rfl⟩ := recordSubmissionAttempt_ok h
    refine .of_modify (Intent.attempt_keeps _ _) hget rfl ⟨rfl, rfl⟩ (fun _ ↦ rfl) ?_
    rw [Intent.type_of_kind (hknown.stored hget).2.2.2]
    exact .attempt hstatus
  | reject _ h =>
    obtain ⟨_, _, i, _, hget, hstatus, rfl⟩ := recordDeterministicSubmissionFailure_ok h
    exact .of_modify (Intent.reject_keeps _) hget rfl ⟨rfl, rfl⟩ (fun _ ↦ rfl) (.reject hstatus)
  | record hknown h => exact recordSubmission_shifts hknown h
  | doubt hknown h =>
    obtain ⟨_, _, i, _, _, hget, hstatus, rfl⟩ := recordAmbiguousSubmission_ok h
    refine .of_modify (Intent.doubt_keeps _ _) hget rfl ⟨rfl, rfl⟩ (fun _ ↦ rfl) ?_
    rw [Intent.type_of_kind (hknown.stored hget).2.2.2]
    exact .doubt hstatus
  | receipt _ h =>
    obtain ⟨_, _, _, _, _, _, _, rfl⟩ := recordReconciledSubmissionReceipt_ok h
    exact .of_eq rfl ⟨rfl, rfl⟩

end Executes

/-! ## The statements of reconciliation -/

section Reconciliation

variable [Hashing] {ok : CauseGuard} {db db' : Db} {session : Session} {target : Target}
  {obs : Observation} {now : Time}

omit [Hashing] in
/-- Only the transitions of its intent decide whether a row is new. -/
theorem newIn_transitionsOf (r : LifecycleTransition) :
    r.newIn (db.transitionsOf r.orderIntentId) = r.newIn db.lifecycleTransitions.rows := by
  rw [LifecycleTransition.newIn, LifecycleTransition.newIn, Db.transitionsOf, List.any_filter]
  congr 2
  funext x
  by_cases hx : x.orderIntentId = r.orderIntentId
  · simp [hx]
  · simp [hx]

omit [Hashing] in
/-- The transitions after rows of one intent were appended. -/
theorem transitionsOf_append {rows : List LifecycleTransition} {id : String}
    (hrows : ∀ r ∈ rows, r.orderIntentId = id)
    (h : db'.lifecycleTransitions.rows = db.lifecycleTransitions.rows ++ rows) :
    db'.transitionsOf id = db.transitionsOf id ++ rows ∧
      ∀ j, j ≠ id → db'.transitionsOf j = db.transitionsOf j := by
  refine ⟨?_, fun j hj ↦ ?_⟩
  · rw [Db.transitionsOf, h, List.filter_append, Db.transitionsOf]
    rw [List.filter_eq_self.2 fun r hr ↦ decide_eq_true (hrows r hr)]
  · have hnone : rows.filter (·.orderIntentId = j) = [] := by
      refine List.filter_eq_nil_iff.2 fun r hr ↦ ?_
      rw [decide_eq_true_iff, hrows r hr]
      exact hj.symm
    rw [Db.transitionsOf, h, List.filter_append, hnone, List.append_nil, Db.transitionsOf]

omit [Hashing] in
/-- The upsert gives no other intent an order, and takes none away. -/
theorem upsertOrder_placed {order : Order} {id : String}
    (h : upsertOrder db.orders order = .ok (db'.orders, id)) {j : String}
    (hj : j ≠ order.orderIntentId) : db'.placed j = db.placed j := by
  simp only [upsertOrder, bind_eq_ok] at h
  obtain ⟨_, _, h⟩ := h
  split at h
  · rw [bind_eq_ok] at h
    obtain ⟨_, _, h⟩ := h
    split at h
    · next t hupdate =>
      obtain ⟨heq, -⟩ := Prod.mk.inj (Except.ok.inj h)
      rw [Db.placed, ← heq, Table.rows_of_update? hupdate, List.any_map, Db.placed]
      congr 1
      funext o
      dsimp only [Function.comp]
      split <;> rfl
    · cases h
  · rw [bind_eq_ok] at h
    obtain ⟨t, hinsert, h⟩ := h
    obtain ⟨heq, -⟩ := Prod.mk.inj (Except.ok.inj h)
    have hins := Table.insertOne_eq_ok.1 hinsert
    rw [heq] at hins
    rw [placed_of_insert hins, decide_eq_false hj.symm, Bool.or_false]

/-- **A stored observation** shifts its intent. -/
theorem storeObservation_shifts {i : Intent} {resized : Option Resize} {counts : ObserveCounts}
    (hknown : target.Known db) (hobs : Observed target obs)
    (hok : ∀ i, db.intents.get? target.intent.id = some i → ok db i (.observed target obs))
    (hlocked : lockedIntent db session target.intent.id = some i)
    (hhead : obs.path.head? = some i.lifecycleState)
    (h : storeObservation db target obs now resized = .ok (db', counts)) : Shifts ok db db' := by
  obtain ⟨hget, hstatus⟩ := lockedIntent_some hlocked
  obtain ⟨hrows, ⟨order, orderId, horder, hupsert⟩, hcases⟩ := storeObservation_logs h
  have hstate : target.intent.lifecycleState = i.lifecycleState :=
    Option.some_inj.1 (hobs.head.symm.trans hhead)
  have htype : target.reviewType = i.type db :=
    (Intent.type_of_kind (hknown.stored hget).2.2.2).symm
  have hid : i.id = target.intent.id := Table.key_of_get? hget
  have hplaced : ∀ j, j ≠ target.intent.id → db'.placed j = db.placed j := fun j hj ↦
    upsertOrder_placed hupsert (horder.symm ▸ hj)
  have hnewIn : ∀ r ∈ transitionRows target obs now,
      r.newIn (i.view db).log = r.newIn db.lifecycleTransitions.rows := by
    intro r hr
    rw [← newIn_transitionsOf, (mem_transitionRows hr).1, ← hid]
    rfl
  rcases hcases with ⟨hall, _, submittedAt, hintents⟩ | ⟨⟨r, hr, hold⟩, _, hintents⟩
  · rw [List.filter_eq_self.2 hall] at hrows
    obtain ⟨hlog, hlogs⟩ := transitionsOf_append (fun r hr ↦ (mem_transitionRows hr).1) hrows
    refine .of_view (x := i.observe obs submittedAt now) hget
      (fun j hj ↦ mem_modify_cases hget (hintents ▸ hj)) hlogs hplaced ⟨rfl, ?_⟩
    have hview : (i.observe obs submittedAt now).view db' =
        { status := obs.intentStatus
          state := obs.state
          log := (i.view db).log ++ transitionRows target obs now
          placed := db'.placed i.id } := by
      rw [Intent.view, show (i.observe obs submittedAt now).id = target.intent.id from hid, hlog,
        Intent.view, hid]
      rfl
    rw [hview]
    exact .observe now _ hstatus hstate htype hobs (hok i hget) fun r hr ↦
      (hnewIn r hr).trans (hall r hr)
  · obtain ⟨hlog, hlogs⟩ := transitionsOf_append
      (fun r hr ↦ (mem_transitionRows (List.mem_of_mem_filter hr)).1) hrows
    have hstay : ∀ j ∈ db'.intents.rows, j = i ∨ (j ∈ db.intents.rows ∧ j.id ≠ target.intent.id) := by
      intro j hj
      rw [hintents] at hj
      by_cases hkey : j.id = target.intent.id
      · exact .inl (db.intents.eq_of_key hj (Table.mem_of_get? hget) (hkey.trans hid.symm))
      · exact .inr ⟨hj, hkey⟩
    refine .of_view (x := i) hget hstay hlogs hplaced ⟨rfl, ?_⟩
    have hview : i.view db' =
        { i.view db with
          log := (i.view db).log ++
            (transitionRows target obs now).filter (·.newIn (i.view db).log)
          placed := db'.placed i.id } := by
      rw [List.filter_congr hnewIn, Intent.view, hid, hlog, Intent.view, hid]
    rw [hview]
    exact .stuck now _ hstatus hstate htype hobs (hok i hget) ⟨r, hr, (hnewIn r hr).trans hold⟩

/-- **The observation statement** shifts its intent, for that observation. -/
theorem observe_shifts {result : Except String Bool} (hknown : target.Known db)
    (hobs : Observed target obs)
    (hok : ∀ i, db.intents.get? target.intent.id = some i → ok db i (.observed target obs))
    (h : observe db session target obs now = (db', result)) : Shifts ok db db' := by
  rcases observe_cases h with ⟨rfl, _⟩ | ⟨_, hstatement, _⟩ |
    ⟨_, _, _, _, _, _, _, hstatement, _⟩
  · exact .of_eq rfl ⟨rfl, rfl⟩
  · rcases observeStatement_ok hstatement with ⟨rfl, _⟩ | ⟨_, hlocked, hhead, hstore⟩
    · exact .of_eq rfl ⟨rfl, rfl⟩
    · exact storeObservation_shifts hknown hobs hok hlocked hhead hstore
  · rcases partialStatement_ok hstatement with ⟨rfl, _⟩ | ⟨_, _, hlocked, hhead, hstore, _⟩
    · exact .of_eq rfl ⟨rfl, rfl⟩
    · exact storeObservation_shifts hknown hobs hok hlocked hhead hstore

theorem settle_shifts {result : Except String Unit}
    (h : settle db session target obs now = (db', result)) : Shifts ok db db' := by
  rcases settle_cases h with ⟨_, _, _, _, hstatement⟩ | ⟨rfl, _⟩
  · obtain ⟨_, _, _, _, _, _, _, _, _, rfl⟩ := settleStatement_settled hstatement
    exact .of_eq rfl ⟨rfl, rfl⟩
  · exact .of_eq rfl ⟨rfl, rfl⟩

omit [Hashing] in
theorem releaseAbsent_sameViews (id : Option String) :
    (releaseAbsent db id now).1.intents = db.intents ∧ SameViews db (releaseAbsent db id now).1 := by
  unfold releaseAbsent
  split
  · exact ⟨rfl, rfl, rfl⟩
  · exact ⟨rfl, rfl, rfl⟩

/-- **A confirmed absence** fails its intent. -/
theorem terminalizeAbsence_shifts {evidence : AbsenceEvidence}
    (hok : ∀ i, db.intents.get? target.intent.id = some i → ok db i .absent) :
    Shifts ok db (terminalizeAbsence db session target evidence now).1 := by
  unfold terminalizeAbsence
  dsimp only
  split
  · split
    · exact .of_eq rfl ⟨rfl, rfl⟩
    · next events _ =>
      split
      · exact .of_eq rfl ⟨rfl, rfl⟩
      · next i hlock =>
        obtain ⟨hget, hstatus⟩ := Option.filter_eq_some_iff.1 hlock
        -- The checks on the row counts decide the verdict only.
        simp only [apply_ite Prod.fst, ite_self]
        obtain ⟨hintents, htransitions, horders⟩ := @releaseAbsent_sameViews
          { db with
            events
            intents := db.intents.modify target.intent.id (Intent.failAbsent now)
              (Intent.failAbsent_keeps now) } now i.reservationId
        refine .of_modify (Intent.failAbsent_keeps now) hget hintents ⟨htransitions, horders⟩
          (fun _ ↦ rfl) (.absent ?_ (hok i hget))
        rcases of_decide_eq_true hstatus with hs | hs <;> simp [Intent.view, hs]
  · exact .of_eq rfl ⟨rfl, rfl⟩

theorem recordPendingAbsence_shifts {evidence : AbsenceEvidence} :
    Shifts ok db (recordPendingAbsence db session target evidence now) := by
  unfold recordPendingAbsence
  split
  · split
    · exact .of_eq rfl ⟨rfl, rfl⟩
    · exact .of_eq rfl ⟨rfl, rfl⟩
  · exact .of_eq rfl ⟨rfl, rfl⟩

theorem deferAbsentCandidate_shifts :
    Shifts ok db (deferAbsentCandidate db session target now).1 := by
  unfold deferAbsentCandidate
  split
  · exact .of_eq rfl ⟨rfl, rfl⟩
  · split
    · exact .of_eq rfl ⟨rfl, rfl⟩
    · exact .of_eq rfl ⟨rfl, rfl⟩

/-- **A statement of reconciliation** shifts intents. -/
theorem Reconciles.shifts (h : Reconciles db db') : Shifts (fun _ _ _ ↦ True) db db' := by
  cases h with
  | idle h => exact .of_eq (congrArg Db.intents h) ⟨congrArg _ h, congrArg _ h⟩
  | observe hknown hobs h => exact observe_shifts hknown hobs (fun _ _ ↦ trivial) h
  | settle _ h => exact settle_shifts h
  | @conclude session target evidence now result h =>
    have hshifts := @terminalizeAbsence_shifts _ (fun _ _ _ ↦ True) db session target now evidence
      fun _ _ ↦ trivial
    rwa [h] at hshifts
  | absence h =>
    rw [h]
    exact recordPendingAbsence_shifts
  | @defer session target now result h =>
    have hshifts := @deferAbsentCandidate_shifts _ (fun _ _ _ ↦ True) db session target now
    rwa [h] at hshifts

end Reconciliation

/-! ## The statements of recovery -/

/-- The causes of a statement of recovery are within the predicate: the intents it may cancel. -/
def RecoveryStatement.Within (ok : CauseGuard) (session : Session) (now : Time) (db : Db) :
    RecoveryStatement → Prop
  | .staleReady intent answer => ¬ staleOrderFound intent answer = true →
      ∀ i, db.intents.get? intent.id = some i → i.status = .readyForSubmission →
        ok db i .cancelled
  | .cancelStaleCreated => ∀ i ∈ db.intents.rows, i.status = .created →
      (i.executionReviewId.bind db.reviews.get?).any (staleReview now) = true →
      fenceHeld db session = true → ok db i .cancelled
  | _ => True

section Recovery

variable [Hashing] {ok : CauseGuard} {db db' : Db} {session : Session} {now : Time}

theorem cancelStaleReady_shifts {id : String}
    (hok : ∀ i, db.intents.get? id = some i → i.status = .readyForSubmission →
      ok db i .cancelled) : Shifts ok db (cancelStaleReady db session id now).1 := by
  unfold cancelStaleReady
  split
  · exact .of_eq rfl ⟨rfl, rfl⟩
  · next i hget =>
    dsimp only
    split
    · exact .of_eq rfl ⟨rfl, rfl⟩
    · split
      · next hcond =>
        have hkeeps := Intent.cancelStale_keeps now
        have hstatus : i.status ∈ [.created, .readyForSubmission] := by simp [hcond.1]
        have hcancel := hok i hget hcond.1
        have hshifts : ∀ db', db'.intents = db.intents.modify id (Intent.cancelStale now) hkeeps →
            SameViews db db' → Shifts ok db db' := fun db' hintents hsame ↦
          .of_modify hkeeps hget hintents hsame (fun _ ↦ rfl) (.cancel hstatus hcancel)
        split
        · exact hshifts _ rfl ⟨rfl, rfl⟩
        · split
          · exact .of_eq rfl ⟨rfl, rfl⟩
          · next hrelease =>
            obtain ⟨_, _, rfl⟩ := releaseStale_true hrelease
            exact hshifts _ rfl ⟨rfl, rfl⟩
          · next hrelease =>
            obtain ⟨_, rfl⟩ := releaseStale_false hrelease
            exact hshifts _ rfl ⟨rfl, rfl⟩
      · exact .of_eq rfl ⟨rfl, rfl⟩

/-- **A statement of recovery** shifts intents, for a stale intent. -/
theorem RecoveryStatement.shifts {statement : RecoveryStatement}
    (hok : statement.Within ok session now db) : Shifts ok db (statement.apply session now db) := by
  cases statement with
  | staleReady intent answer =>
    unfold RecoveryStatement.apply recoverStaleReady
    dsimp only
    split
    · exact .of_eq rfl ⟨rfl, rfl⟩
    · split
      · refine .of_update (Intent.withStatus_keeps .ambiguous now) rfl ⟨rfl, rfl⟩ (fun _ ↦ rfl)
          fun i _ hp ↦ .preserve ?_
        simp only [Bool.and_eq_true, decide_eq_true_eq] at hp
        exact hp.2.1
      · next error hthrown =>
        split
        · have hfound : ¬ staleOrderFound intent answer = true := by
            intro hfound
            rcases answer with error | response
            · cases hfound
            · obtain ⟨data, hdata, hmatch⟩ := (Option.any_eq_true _ _).1 hfound
              obtain ⟨hid, hempty, hclient⟩ := of_decide_eq_true hmatch
              simp [hdata, hid, hempty, hclient] at hthrown
          have hcancel := @cancelStaleReady_shifts _ ok db session now intent.id (hok hfound)
          split
          · next heq =>
            rw [heq] at hcancel
            exact hcancel
          · next heq =>
            rw [heq] at hcancel
            exact hcancel
        · exact .of_eq rfl ⟨rfl, rfl⟩
  | expireReservations =>
    have htables := @RecoveryStatement.apply_tables _ db session now .expireReservations
    rcases @expireReservations_effect _ db session now with ⟨_, hexpires⟩ | hsame
    · obtain ⟨_, _, _, _, _, _, htables⟩ := htables
      have hviews : SameViews db (RecoveryStatement.apply session now db .expireReservations) := by
        rw [htables]
        exact ⟨rfl, rfl⟩
      exact .of_eq hexpires.intents hviews
    · have hsame' : RecoveryStatement.apply session now db .expireReservations = db := hsame
      rw [hsame']
      exact .of_eq rfl ⟨rfl, rfl⟩
  | expireReviews => exact .of_eq rfl ⟨rfl, rfl⟩
  | expireConfirmations => exact .of_eq rfl ⟨rfl, rfl⟩
  | cancelStaleCreated =>
    refine .of_update (Intent.cancelStale_keeps now) rfl ⟨rfl, rfl⟩ (fun _ ↦ rfl) fun i hi hp ↦ ?_
    simp only [Bool.and_eq_true, decide_eq_true_eq] at hp
    have hstatus : i.status ∈ [.created, .readyForSubmission] := by simp [hp.1.1]
    exact .cancel hstatus (hok i hi hp.1.1 hp.1.2 hp.2)

end Recovery

/-! ## The statements of a sync -/

/-- The causes of a statement of a sync are within the predicate: the exits it closes. -/
def SyncStatement.Within (ok : CauseGuard) (snapshot : AuthorityBrokerSnapshot) (session : Session)
    (db : Db) : SyncStatement → Prop
  | .closeExits => ∀ i ∈ db.intents.rows, i.lifecycleState ∈ exitOrderStates →
      (i.parentPositionId.bind db.positions.get?).any (fun p ↦
        p.accountId = snapshot.accountId ∧ p.status = .closed) = true →
      (db.orders.rows.any fun o ↦ o.orderIntentId = i.id ∧ o.status = "filled") = true →
      fenceHeld db session = true → ok db i .closed
  | _ => True

section Sync

variable [Hashing] {ok : CauseGuard} {db db' : Db}

/-- **A statement of a sync** shifts intents, for a closed position. -/
theorem SyncStatement.shifts {snapshot : AuthorityBrokerSnapshot} {session : Session}
    {statement : SyncStatement} (hok : statement.Within ok snapshot session db)
    (h : statement.apply snapshot session db = .ok db') : Shifts ok db db' := by
  rcases statement with - | - | - | - | position
  · obtain ⟨accounts, rfl⟩ := upsertAccount_writes h
    exact .of_eq rfl ⟨rfl, rfl⟩
  · obtain ⟨snapshots, rfl⟩ := insertAccountSnapshot_writes h
    exact .of_eq rfl ⟨rfl, rfl⟩
  · obtain rfl := Except.ok.inj h
    exact .of_eq rfl ⟨rfl, rfl⟩
  · obtain rfl := Except.ok.inj h
    refine .of_update (Intent.closeExit_keeps _) rfl ⟨rfl, rfl⟩ (fun _ ↦ rfl) fun i hi hp ↦ ?_
    simp only [Bool.and_eq_true, decide_eq_true_eq] at hp
    obtain ⟨⟨⟨hposition, hstate⟩, hfilled⟩, hfence⟩ := hp
    exact .close hstate (hok i hi hstate hposition hfilled hfence)
  · obtain ⟨-, rfl⟩ | ⟨-, positions, -, rfl⟩ := upsertPosition_writes h
    · exact .of_eq rfl ⟨rfl, rfl⟩
    · exact .of_eq rfl ⟨rfl, rfl⟩

end Sync

/-! ## New intents -/

/-- The states new intents are stored in. -/
def startStates : ReviewType → List LifecycleState
  | .entry => [.reviewCreated]
  | .exit => [.exitReadyForSubmission, .reviewCreated]

/-- A new intent is stored. -/
structure Arrives (db db' : Db) (i : Intent) : Prop where
  intents : db.intents.insert? i = some db'.intents
  same : SameViews db db'
  status : i.status ∈ [.created, .readyForSubmission]
  start : ∃ type, i.kind db' = some type ∧ i.lifecycleState ∈ startStates type

section Entry

variable [Hashing] {ok : CauseGuard} {db db' : Db}

/-- **A statement of an entry review** shifts nothing, or stores a new intent. -/
theorem EntryStatement.shifts {start : Db} {session : Session} {request : EntryReviewRequest}
    {statements : List EntryStatement} {statement : EntryStatement}
    (hplan : planEntryReview start request session = .ok statements)
    (hmem : statement ∈ statements) (h : statement.apply session request.now db = .ok db') :
    Shifts ok db db' ∨ ∃ i, Arrives db db' i := by
  rcases statement with ⟨candidateId, status, reason⟩ | recorded | r | i | code
  · have hstage : persistCandidateExecutionStage db (some candidateId) session request.now status
      reason = .ok db' := h
    obtain ⟨_, rfl⟩ := persistCandidateExecutionStage_ok hstage
    exact Or.inl (.of_eq rfl ⟨rfl, rfl⟩)
  · simp only [EntryStatement.apply, bind_eq_ok] at h
    obtain ⟨_, _, _, _, h⟩ := h
    obtain rfl := Except.ok.inj h
    exact Or.inl (.of_eq rfl ⟨rfl, rfl⟩)
  · rcases entryStatement_review h with rfl | ⟨_, _, rfl⟩
    · exact Or.inl (.of_eq rfl ⟨rfl, rfl⟩)
    · exact Or.inl (.of_eq rfl ⟨rfl, rfl⟩)
  · rcases entryStatement_intent h with rfl | ⟨⟨type, hkind⟩, _, hins, rfl⟩
    · exact Or.inl (.of_eq rfl ⟨rfl, rfl⟩)
    · obtain ⟨_, _, _, _, _, _, _, _, _, _, _, _, a, _, rfl⟩ :=
        planEntryReview_intent hplan hmem rfl
      refine Or.inr ⟨_, hins, ⟨rfl, rfl⟩, List.mem_cons_self, type, hkind, ?_⟩
      rcases type with - | - <;> simp [startStates, ApprovedRow.intent]
  · cases h

end Entry

end AlpacaTrading
