import AlpacaTrading.Reconciliation.Pass
import AlpacaTrading.Reconciliation.Transitions

/-!
# Cancellations

`runPostgresPaperOrderCancellation` asks the broker to cancel one order.  It persists its progress
in two statements before it calls the broker: the intent becomes `cancel_requested`, then
`cancel_ambiguous`.  The worker whose statement made the second step owns the one call; everybody
else only looks the order up.  The run ends with a reconciliation pass.

As with a pass, the run is a process, so others may work between two of its statements.
-/

namespace AlpacaTrading

/-! ## Requests and targets -/

/-- `CancellationSafety`. -/
structure CancellationSafety where
  environment : String := "paper"
  tradingMode : String := "paper"
  liveTradingEnabled : Bool := false
  paperOrderExecutionEnabled : Bool := true
  paperOptionsExecutionEnabled : Bool := false
deriving DecidableEq

/-- `assertSafety`. -/
def CancellationSafety.check (safety : CancellationSafety) (confirmPaper : Bool) :
    Except String Unit := do
  require (safety.environment = "paper" ∧ safety.tradingMode = "paper") "PAPER_RUNTIME_REQUIRED"
  require (!safety.liveTradingEnabled) "LIVE_TRADING_MUST_BE_DISABLED"
  require safety.paperOrderExecutionEnabled "PAPER_ORDER_EXECUTION_DISABLED"
  require confirmPaper "PAPER_CONFIRMATION_REQUIRED"

/-- The arguments of a cancellation; a missing identifier is the empty one. -/
structure CancellationRequest where
  fence : SchedulerFence
  brokerOrderId : String := ""
  clientOrderId : String := ""
  confirmPaper : Bool
  safety : CancellationSafety
  maxRecoveryAttempts : Int := 8
  recoveryDelayMs : Int := 500
deriving DecidableEq

/-- `CancellationTarget`, with the identifiers the run expects of the broker. -/
structure CancellationTarget where
  orderId : String
  orderIntentId : String
  accountId : String
  /-- `expectedBrokerId`. -/
  brokerId : String
  /-- `expectedClientId`. -/
  clientId : String
  lifecycleState : LifecycleState
deriving DecidableEq

/-- The target query: the latest order with the given identifiers, and its intent. -/
def cancellationOrder (db : Db) (session : Session) (brokerOrderId clientOrderId : String) :
    Option (Order × Intent) := do
  let order ← firstBy
    (fun a b ↦ b.createdAt < a.createdAt ∨ (a.createdAt = b.createdAt ∧ b.id < a.id))
    (db.orders.rows.filter fun o ↦ (db.intents.get? o.orderIntentId).isSome &&
      decide (brokerOrderId = "" ∨ o.brokerOrderId = some brokerOrderId) &&
      decide (clientOrderId = "" ∨ o.clientOrderId = clientOrderId) && fenceHeld db session)
  return (order, ← db.intents.get? order.orderIntentId)

/-- The checks before the broker is asked. -/
def CancellationRequest.target (request : CancellationRequest) (db : Db) (session : Session) :
    Except String CancellationTarget := do
  request.safety.check request.confirmPaper
  let brokerOrderId := Text.trim request.brokerOrderId
  let clientOrderId := Text.trim request.clientOrderId
  require (brokerOrderId ≠ "" ∨ clientOrderId ≠ "") "POSTGRES_CANCEL_ORDER_ID_REQUIRED"
  let (order, intent) ← match cancellationOrder db session brokerOrderId clientOrderId with
    | some found => Except.ok found
    | none => .error "POSTGRES_CANCEL_ORDER_NOT_FOUND"
  require (intent.assetClass ≠ .option ∨ request.safety.paperOptionsExecutionEnabled)
    "PAPER_OPTIONS_EXECUTION_DISABLED"
  let brokerId ← (match order.brokerOrderId with
    | some id => BrokerText.str id
    | none => .absent).required "POSTGRES_CANCEL_BROKER_ORDER_ID_MISSING"
  let clientId ← (BrokerText.str order.clientOrderId).required
    "POSTGRES_CANCEL_CLIENT_ORDER_ID_MISSING"
  require ((brokerOrderId = "" ∨ brokerId = brokerOrderId) ∧
    (clientOrderId = "" ∨ clientId = clientOrderId)) "POSTGRES_CANCEL_ORDER_IDENTITY_MISMATCH"
  return {
    orderId := order.id
    orderIntentId := intent.id
    accountId := order.accountId
    brokerId
    clientId
    lifecycleState := intent.lifecycleState }

/-- The status in an answer about the target, in lower case. -/
def CancellationTarget.statusOf (response : AlpacaApiResponse) : Except Thrown String :=
  match response.data with
  | none => .error unreadableBody
  | some data =>
    match data.status.required "POSTGRES_CANCEL_BROKER_STATUS_MISSING" with
    | .error code => .error (.ofCode code)
    | .ok status => .ok (Text.toLowerCase status)

/-- The answer is about the target; otherwise the error with the given code. -/
def CancellationTarget.identify (target : CancellationTarget) (response : AlpacaApiResponse)
    (mismatch : String) : Except Thrown Unit :=
  match response.data with
  | none => .error unreadableBody
  | some data =>
    let checked : Except String Unit := do
      let brokerId ← data.id.required "POSTGRES_CANCEL_BROKER_ID_MISSING"
      require (brokerId = target.brokerId) mismatch
      let clientId ← data.clientOrderId.required "POSTGRES_CANCEL_CLIENT_ID_MISSING"
      require (clientId = target.clientId) mismatch
    checked.mapError .ofCode

/-- The bounds on the lookups after the call. -/
def CancellationRequest.policyValid (request : CancellationRequest) : Bool :=
  decide (1 ≤ request.maxRecoveryAttempts ∧ request.maxRecoveryAttempts ≤ 32 ∧
    0 ≤ request.recoveryDelayMs ∧ request.recoveryDelayMs ≤ 5000)

/-! ## The two statements -/

/-- A statement that persists the progress of a cancellation: the step of the lifecycle it makes
and the texts its rows are made of. -/
structure CancellationMark where
  fromState : LifecycleState
  toState : LifecycleState
  transitionScope : String
  keyScope : String
  eventScope : String
  eventType : String

/-- The first statement, from the state the target was read in. -/
def requestMark (target : CancellationTarget) : CancellationMark where
  fromState := target.lifecycleState
  toState := .cancelRequested
  transitionScope := "cancel_requested"
  keyScope := "cancel-request:"
  eventScope := "alpaca_order_cancellation_request"
  eventType := "order_cancellation_request"

/-- The second statement. -/
def ambiguousMark : CancellationMark where
  fromState := .cancelRequested
  toState := .cancelAmbiguous
  transitionScope := "cancel_ambiguous"
  keyScope := "cancel-ambiguous:"
  eventScope := "alpaca_order_cancellation_ambiguous"
  eventType := "order_cancellation_ambiguous"

/-- The row counts of such a statement, each zero or one. -/
structure CancellationCounts where
  transition : Bool
  updatedIntent : Bool
  event : Bool
deriving DecidableEq

/-- The counts of a statement that did nothing. -/
def CancellationCounts.nothing : CancellationCounts := ⟨false, false, false⟩

/-- The counts of a statement that did everything. -/
def CancellationCounts.all : CancellationCounts := ⟨true, true, true⟩

/-- The intent update of a cancellation. -/
def Intent.markCancellation (state : LifecycleState) (now : Time) (i : Intent) : Intent :=
  { i with lifecycleState := state, updatedAt := now, version := i.version + 1 }

theorem Intent.markCancellation_keeps (state : LifecycleState) (now : Time) :
    Keeps (Intent.markCancellation state now) :=
  ⟨fun _ ↦ rfl, fun _ _ ↦ Iff.rfl⟩

section Marks

variable [Hashing]

/-- The lifecycle transition of a mark. -/
def CancellationMark.transition (mark : CancellationMark) (target : CancellationTarget)
    (now : Time) : LifecycleTransition where
  id := "lifecycle_transition_" ++ Hashing.stableRecordId mark.transitionScope
    (target.orderIntentId ++ ":" ++ target.brokerId)
  orderIntentId := target.orderIntentId
  fromState := mark.fromState
  toState := mark.toState
  idempotencyKey := mark.keyScope ++ target.brokerId
  occurredAt := now

/-- The event of a mark. -/
def CancellationMark.event (mark : CancellationMark) (target : CancellationTarget) (now : Time) :
    BrokerEvent where
  eventId := "broker_event_" ++ Hashing.stableRecordId mark.eventScope
    (target.accountId ++ ":" ++ target.brokerId ++ ":" ++ target.clientId)
  accountId := target.accountId
  orderId := some target.orderId
  orderIntentId := some target.orderIntentId
  brokerOrderId := some target.brokerId
  clientOrderId := some target.clientId
  eventType := .other mark.eventType
  eventStatus := "pending"
  occurredAt := now
  receivedAt := now

/-- The statement of a mark.  The trigger of the transition table rejects a step that is not an
edge of the graph; a transition with the same key means that the step was made before, and nothing
is written. -/
def CancellationMark.persist (mark : CancellationMark) (db : Db) (session : Session)
    (target : CancellationTarget) (now : Time) : Except String (Db × CancellationCounts) :=
  match (db.intents.get? target.orderIntentId).filter fun i ↦
      decide (i.lifecycleState = mark.fromState) && fenceHeld db session with
  | none => .ok (db, .nothing)
  | some _ => do
    require (mark.toState ∈ mark.fromState.transitions) "INVALID_LIFECYCLE_TRANSITION"
    let (lifecycleTransitions, inserted) ←
      appendTransitions db.lifecycleTransitions [mark.transition target now]
    if inserted = 0 then return (db, .nothing)
    else
      let (events, event) ← appendEvent db.events (mark.event target now)
      return ({ db with
          lifecycleTransitions
          events
          intents := db.intents.modify target.orderIntentId
            (Intent.markCancellation mark.toState now) (Intent.markCancellation_keeps _ _) },
        ⟨true, true, event⟩)

/-- The request statement, with the check on its row counts. -/
def requestCancellation (db : Db) (session : Session) (target : CancellationTarget) (now : Time) :
    Db × Except String Unit :=
  match (requestMark target).persist db session target now with
  | .error code => (db, .error code)
  | .ok (db', counts) =>
    if counts = .all then (db', .ok ())
    else (db', .error "POSTGRES_CANCEL_REQUEST_PERSISTENCE_FAILED")

/-- The claim of the one call to the broker: whether this statement made the step. -/
def claimCancellation (db : Db) (session : Session) (target : CancellationTarget) (now : Time) :
    Db × Except String Bool :=
  match ambiguousMark.persist db session target now with
  | .error code => (db, .error code)
  | .ok (db', counts) =>
    if counts = .nothing then (db', .ok false)
    else if counts = .all then (db', .ok true)
    else (db', .error "POSTGRES_CANCEL_AMBIGUITY_PERSISTENCE_FAILED")

end Marks

/-! ## The run -/

/-- `"already_terminal" | "canceled" | "cancellation_pending"`. -/
inductive CancellationStatus where
  | alreadyTerminal | canceled | cancellationPending
deriving DecidableEq, Repr

/-- The status after the lookups. -/
def CancellationStatus.ofBroker (status : String) : CancellationStatus :=
  if status = "canceled" ∨ status = "cancelled" then .canceled
  else if status ∈ terminalStatuses then .alreadyTerminal
  else .cancellationPending

/-- The lookups after the call: how many were made, the last answer about the target, and whether
the last lookup failed. -/
structure CancellationRecovery where
  attempts : Nat := 0
  after : AlpacaApiResponse
  failed : Bool := false
deriving DecidableEq

/-- Where a run is. -/
inductive CancellationStage where
  | selecting
  | fetching (target : CancellationTarget)
  | requesting (target : CancellationTarget) (before : AlpacaApiResponse) (now : Time)
  /-- `assertFence`, then the claim. -/
  | checking (target : CancellationTarget) (before : AlpacaApiResponse) (now : Time)
  | claiming (target : CancellationTarget) (before : AlpacaApiResponse) (now : Time)
  /-- `assertFence`, then the call. -/
  | confirming (target : CancellationTarget) (before : AlpacaApiResponse)
  | deleting (target : CancellationTarget) (before : AlpacaApiResponse)
  /-- `assertFence`, then a lookup. -/
  | guarding (target : CancellationTarget) (recovery : CancellationRecovery)
  | polling (target : CancellationTarget) (recovery : CancellationRecovery)
  | reconciling (target : CancellationTarget) (status : CancellationStatus)
  | finished (result : Except Thrown CancellationStatus)

/-- A run of `runPostgresPaperOrderCancellation`. -/
structure Cancellation where
  request : CancellationRequest
  stage : CancellationStage := .selecting

/-- The steps of a run. -/
inductive CancellationAct where
  | select (dbNow : Time)
  /-- The lookup by broker id, and the clock after it. -/
  | fetch (answer : Lookup) (now : Time)
  | request (dbNow : Time) (fault : Fault)
  | assertFence (dbNow : Time)
  | claim (dbNow : Time) (fault : Fault)
  | delete
  /-- A lookup by client order id. -/
  | poll (answer : Lookup)
  | reconcile (now : Time)
  | crash

/-- What a step does outside the database: it calls the broker, or hands over to a pass. -/
inductive CancellationCall where
  /-- The call names the broker id of the target. -/
  | deletePaperOrder (target : CancellationTarget)
  | reconcile (pass : Pass)

/-- After the answer of the first lookup. -/
def CancellationTarget.afterFetch (target : CancellationTarget) (request : CancellationRequest)
    (answer : Lookup) (now : Time) : Except Thrown CancellationStage := do
  let before ← match answer with
    | .inl error => Except.error error
    | .inr response => .ok response
  target.identify before "POSTGRES_CANCEL_BROKER_IDENTITY_MISMATCH"
  let beforeStatus ← statusOf before
  if !request.policyValid then throw (.ofCode "POSTGRES_CANCEL_RECOVERY_POLICY_INVALID")
  return if beforeStatus ∈ terminalStatuses then .reconciling target .alreadyTerminal
    else match target.lifecycleState with
      | .cancelRequested => .checking target before now
      | .cancelAmbiguous => .guarding target { after := before }
      | _ => .requesting target before now

/-- The end of the lookups. -/
def CancellationTarget.afterLookups (target : CancellationTarget)
    (recovery : CancellationRecovery) : CancellationStage :=
  if recovery.failed then
    .finished (.error (.ofCode "POSTGRES_CANCEL_RECOVERY_INFRASTRUCTURE_UNRESOLVED"))
  else match statusOf recovery.after with
    | .error error => .finished (.error error)
    | .ok status => .reconciling target (.ofBroker status)

/-- One lookup: the recovery after it, and whether it saw a terminal status; a mismatch ends the
run. -/
def CancellationTarget.lookUp (target : CancellationTarget) (recovery : CancellationRecovery)
    (answer : Lookup) : Except Thrown (CancellationRecovery × Bool) :=
  let attempts := recovery.attempts + 1
  let failed : CancellationRecovery := { recovery with attempts, failed := true }
  let onError (error : Thrown) : Except Thrown (CancellationRecovery × Bool) :=
    if error.isError ∧ error.message = "POSTGRES_CANCEL_RECOVERY_IDENTITY_MISMATCH" then
      .error error
    else .ok (failed, false)
  match answer with
  | .inl error => onError error
  | .inr response =>
    match target.identify response "POSTGRES_CANCEL_RECOVERY_IDENTITY_MISMATCH" with
    | .error error => onError error
    | .ok () =>
      match statusOf response with
      | .error _ => .ok ({ attempts, after := response, failed := true }, false)
      | .ok status =>
        .ok ({ attempts, after := response, failed := false }, decide (status ∈ terminalStatuses))

section Step

variable [Hashing]

/-- One step of a run, with what it does outside the database. -/
def Cancellation.step (run : Cancellation) (act : CancellationAct) (db : Db) :
    Option (Db × CancellationStage × Option CancellationCall) :=
  let session (dbNow : Time) : Session := { fence := run.request.fence, dbNow }
  let lost : CancellationStage := .finished (.error (.ofCode "SCHEDULER_FENCE_LOST"))
  match run.stage, act with
  | .selecting, .select dbNow =>
    match run.request.target db (session dbNow) with
    | .error code => some (db, .finished (.error (.ofCode code)), none)
    | .ok target => some (db, .fetching target, none)
  | .fetching target, .fetch answer now =>
    match target.afterFetch run.request answer now with
    | .error error => some (db, .finished (.error error), none)
    | .ok stage => some (db, stage, none)
  | .requesting target before now, .request dbNow fault =>
    let (db', seen) := fault.statement db (requestCancellation db (session dbNow) target now)
    some (db', match seen with
      | .ok () => .checking target before now
      | .error error => .finished (.error error), none)
  | .checking target before now, .assertFence dbNow =>
    some (db, if fenceHeld db (session dbNow) then .claiming target before now else lost, none)
  | .claiming target before now, .claim dbNow fault =>
    let (db', seen) := fault.statement db (claimCancellation db (session dbNow) target now)
    some (db', match seen with
      | .ok true => .confirming target before
      | .ok false => .guarding target { after := before }
      | .error error => .finished (.error error), none)
  | .confirming target before, .assertFence dbNow =>
    some (db, if fenceHeld db (session dbNow) then .deleting target before else lost, none)
  | .deleting target before, .delete =>
    -- The answer of the call is not read.
    some (db, .guarding target { after := before }, some (.deletePaperOrder target))
  | .guarding target recovery, .assertFence dbNow =>
    some (db, if fenceHeld db (session dbNow) then .polling target recovery else lost, none)
  | .polling target recovery, .poll answer =>
    match target.lookUp recovery answer with
    | .error error => some (db, .finished (.error error), none)
    | .ok (recovery', terminal) =>
      some (db, if !terminal && decide (recovery'.attempts < run.request.maxRecoveryAttempts) then
        .guarding target recovery' else target.afterLookups recovery', none)
  | .reconciling _ status, .reconcile now =>
    -- That the pass reports an error decides only what the command prints.
    some (db, .finished (.ok status),
      some (.reconcile { fence := run.request.fence, now, todo := listTargets db "" }))
  | _, .crash => some (db, .finished (.error {}), none)
  | _, _ => none

end Step

/-! ## What a run does -/

/-- A mark was persisted: the intent takes an edge of the graph from the state the mark starts
from, with a transition of a new name and an event. -/
structure PersistsMark (mark : CancellationMark) (target : CancellationTarget) (now : Time)
    [Hashing] (db db' : Db) : Prop where
  stored : ∃ i, db.intents.get? target.orderIntentId = some i ∧ i.lifecycleState = mark.fromState
  edge : mark.toState ∈ mark.fromState.transitions
  fresh : (mark.transition target now).newIn db.lifecycleTransitions.rows = true
  tables : ∃ lifecycleTransitions events,
    db.lifecycleTransitions.insert? (mark.transition target now) = some lifecycleTransitions ∧
    (∀ e ∈ db.events.rows, e ∈ events.rows) ∧
    db' = { db with
      lifecycleTransitions
      events
      intents := db.intents.modify target.orderIntentId
        (Intent.markCancellation mark.toState now) (Intent.markCancellation_keeps _ _) }

/-- The target of a stage. -/
def CancellationStage.target? : CancellationStage → Option CancellationTarget
  | .selecting | .finished _ => none
  | .fetching target | .requesting target _ _ | .checking target _ _ | .claiming target _ _
  | .confirming target _ | .deleting target _ | .guarding target _ | .polling target _
  | .reconciling target _ => some target

/-- The target whose call the run owns and has not made. -/
def CancellationStage.owned? : CancellationStage → Option CancellationTarget
  | .confirming target _ | .deleting target _ => some target
  | _ => none

section Marks

variable [Hashing] {db db' : Db} {session : Session} {target : CancellationTarget} {now : Time}
  {mark : CancellationMark}

/-- The statement of a mark does nothing, or all of its writes. -/
theorem persist_ok {counts : CancellationCounts}
    (h : mark.persist db session target now = .ok (db', counts)) :
    (db' = db ∧ counts = .nothing) ∨ PersistsMark mark target now db db' := by
  unfold CancellationMark.persist at h
  split at h
  · obtain ⟨rfl, rfl⟩ := Prod.mk.inj (Except.ok.inj h)
    exact Or.inl ⟨rfl, rfl⟩
  · next i hlock =>
    obtain ⟨hget, hguard⟩ := Option.filter_eq_some_iff.1 hlock
    simp only [Bool.and_eq_true, decide_eq_true_eq] at hguard
    simp only [bind_eq_ok, require_eq_ok, decide_eq_true_eq] at h
    obtain ⟨_, hedge, ⟨transitions, inserted⟩, hinsert, h⟩ := h
    rw [appendTransitions] at hinsert
    split at hinsert
    · obtain ⟨rfl, rfl⟩ := Prod.mk.inj (Except.ok.inj hinsert)
      obtain ⟨rfl, rfl⟩ := Prod.mk.inj (Except.ok.inj h)
      exact Or.inl ⟨rfl, rfl⟩
    · next hfree =>
      simp only [bind_eq_ok, Table.insertOne_eq_ok] at hinsert
      obtain ⟨t, ht, ⟨t', n⟩, hrest, hout⟩ := hinsert
      obtain ⟨rfl, rfl⟩ := Prod.mk.inj (Except.ok.inj hrest)
      obtain ⟨rfl, rfl⟩ := Prod.mk.inj (Except.ok.inj hout)
      obtain ⟨⟨events, event⟩, happend, h⟩ := bind_eq_ok.1 h
      obtain ⟨rfl, -⟩ := Prod.mk.inj (Except.ok.inj h)
      refine Or.inr ⟨⟨i, hget, hguard.1⟩, hedge, ?_, t, events, ht, appendEvent_ok happend, rfl⟩
      rw [LifecycleTransition.newIn, eq_false_of_ne_true hfree]
      rfl

/-- What a committed statement did, as its worker may see it or not. -/
theorem requestCancellation_marks {fault : Fault} :
    (fault.statement db (requestCancellation db session target now)).1 = db ∨
      PersistsMark (requestMark target) target now db
        (fault.statement db (requestCancellation db session target now)).1 := by
  have hfst : (fault.statement db (requestCancellation db session target now)).1 = db ∨
      (fault.statement db (requestCancellation db session target now)).1 =
        (requestCancellation db session target now).1 := Fault.statement_fst
  rcases hfst with heq | heq
  · exact Or.inl heq
  · rw [heq, requestCancellation]
    split
    · exact Or.inl rfl
    · next hok =>
      rcases persist_ok hok with ⟨rfl, rfl⟩ | hmarks
      · exact Or.inl rfl
      · split
        · exact Or.inr hmarks
        · exact Or.inr hmarks

/-- A claim that succeeded has persisted the mark. -/
theorem claimCancellation_marks {fault : Fault} {seen : Except Thrown Bool}
    (h : fault.statement db (claimCancellation db session target now) = (db', seen)) :
    (db' = db ∧ seen ≠ .ok true) ∨ PersistsMark ambiguousMark target now db db' := by
  have hclaim : ∀ result, claimCancellation db session target now = (db', result) →
      (db' = db ∧ result ≠ .ok true) ∨ PersistsMark ambiguousMark target now db db' := by
    intro result hresult
    rw [claimCancellation] at hresult
    split at hresult
    · obtain ⟨rfl, rfl⟩ := Prod.mk.inj hresult
      exact Or.inl ⟨rfl, by simp⟩
    · next hok =>
      rcases persist_ok hok with ⟨rfl, rfl⟩ | hmarks
      · rw [if_pos rfl] at hresult
        obtain ⟨rfl, rfl⟩ := Prod.mk.inj hresult
        exact Or.inl ⟨rfl, by simp⟩
      · refine Or.inr ?_
        split_ifs at hresult
        all_goals
          obtain ⟨rfl, -⟩ := Prod.mk.inj hresult
          exact hmarks
  rcases houtcome : claimCancellation db session target now with ⟨db₁, result⟩
  rw [houtcome] at h
  unfold Fault.statement at h
  split at h
  · obtain ⟨rfl, rfl⟩ := Prod.mk.inj h
    exact Or.inl ⟨rfl, by simp⟩
  · next heq =>
    obtain ⟨rfl, rfl⟩ := Prod.mk.inj heq
    obtain ⟨rfl, rfl⟩ := Prod.mk.inj h
    refine (hclaim _ houtcome).imp_left ?_
    rintro ⟨rfl, -⟩
    exact ⟨rfl, by simp⟩
  · next heq =>
    obtain ⟨rfl, rfl⟩ := Prod.mk.inj heq
    obtain ⟨rfl, rfl⟩ := Prod.mk.inj h
    refine (hclaim _ houtcome).imp_left ?_
    rintro ⟨rfl, hne⟩
    exact ⟨rfl, fun htrue ↦ hne (by rw [Except.ok.inj htrue])⟩
  · next heq =>
    obtain ⟨rfl, rfl⟩ := Prod.mk.inj heq
    obtain ⟨rfl, rfl⟩ := Prod.mk.inj h
    refine (hclaim _ houtcome).imp_left ?_
    rintro ⟨rfl, -⟩
    exact ⟨rfl, by simp⟩

/-- **What a step of a run does**, with the target of the call it owns. -/
inductive Cancellation.Does (run : Cancellation) (db db' : Db) (stage : CancellationStage) :
    Option CancellationCall → Prop
  /-- It writes nothing, and owns no call it did not own. -/
  | looks {call : Option CancellationCall} (hdb : db' = db)
      (howned : stage.owned? = none ∨ stage.owned? = run.stage.owned?)
      (hcall : ∀ target, call ≠ some (.deletePaperOrder target)) :
      Cancellation.Does run db db' stage call
  | requests {target : CancellationTarget} {now : Time} (howned : stage.owned? = none)
      (htarget : run.stage.target? = some target)
      (h : PersistsMark (requestMark target) target now db db') : Cancellation.Does run db db' stage none
  /-- The run owns the call, unless it does not see that it does. -/
  | claims {target : CancellationTarget} {now : Time} (hfrom : run.stage.owned? = none)
      (howned : stage.owned? = none ∨ stage.owned? = some target)
      (htarget : run.stage.target? = some target)
      (h : PersistsMark ambiguousMark target now db db') : Cancellation.Does run db db' stage none
  | deletes {target : CancellationTarget} (hdb : db' = db) (hfrom : run.stage.owned? = some target)
      (howned : stage.owned? = none) :
      Cancellation.Does run db db' stage (some (.deletePaperOrder target))

omit [Hashing] in
/-- The stage after the first lookup is about the target, and owns no call. -/
theorem afterFetch_stage {request : CancellationRequest} {answer : Lookup}
    {stage : CancellationStage} (h : target.afterFetch request answer now = .ok stage) :
    stage.owned? = none ∧ stage.target? = some target := by
  unfold CancellationTarget.afterFetch at h
  rcases answer with error | response
  · cases h
  · dsimp only at h
    obtain ⟨before, _, h⟩ := bind_eq_ok.1 h
    obtain ⟨_, _, h⟩ := bind_eq_ok.1 h
    obtain ⟨status, _, h⟩ := bind_eq_ok.1 h
    split at h
    · cases h
    · obtain rfl := Except.ok.inj h
      split
      · exact ⟨rfl, rfl⟩
      · split
        · exact ⟨rfl, rfl⟩
        · exact ⟨rfl, rfl⟩
        · exact ⟨rfl, rfl⟩

omit [Hashing] in
theorem afterLookups_stage (recovery : CancellationRecovery) :
    (target.afterLookups recovery).owned? = none ∧
      ∀ t, (target.afterLookups recovery).target? = some t → t = target := by
  unfold CancellationTarget.afterLookups
  split_ifs
  · exact ⟨rfl, fun t ht ↦ by cases ht⟩
  · split
    · exact ⟨rfl, fun t ht ↦ by cases ht⟩
    · exact ⟨rfl, fun t ht ↦ (Option.some_inj.1 ht).symm⟩

omit [Hashing] in
theorem step_eq_some {α β γ : Type*} {a a' : α} {b b' : β} {c c' : γ} :
    some (a, b, c) = some (a', b', c') ↔ a' = a ∧ b' = b ∧ c' = c := by
  simp only [Option.some_inj, Prod.mk.injEq, eq_comm]

theorem Cancellation.step_does {run : Cancellation} {act : CancellationAct}
    {stage : CancellationStage} {call : Option CancellationCall}
    (h : run.step act db = some (db', stage, call)) : run.Does db db' stage call := by
  unfold Cancellation.step at h
  dsimp only at h
  split at h
  · split at h
    all_goals
      obtain ⟨rfl, rfl, rfl⟩ := step_eq_some.1 h
      exact .looks rfl (.inl rfl) (by simp)
  · split at h
    · obtain ⟨rfl, rfl, rfl⟩ := step_eq_some.1 h
      exact .looks rfl (.inl rfl) (by simp)
    · next hfetch =>
      obtain ⟨rfl, rfl, rfl⟩ := step_eq_some.1 h
      exact .looks rfl (.inl (afterFetch_stage hfetch).1) (by simp)
  · next target _ now dbNow fault hstage =>
    obtain ⟨rfl, rfl, rfl⟩ := step_eq_some.1 h
    have howned : ∀ seen : Except Thrown Unit, CancellationStage.owned? (match seen with
        | .ok () => .checking target ‹_› now
        | .error error => .finished (.error error)) = none := by
      intro seen
      split <;> rfl
    have hmarks := @requestCancellation_marks _ db { fence := run.request.fence, dbNow } target now fault
    rcases hmarks with hsame | hmarks
    · exact .looks hsame (.inl (howned _)) (by simp)
    · exact .requests (howned _) (by rw [hstage]; rfl) hmarks
  · -- checking
    next hstage =>
    obtain ⟨rfl, rfl, rfl⟩ := step_eq_some.1 h
    refine .looks rfl (.inl ?_) (by simp)
    split <;> rfl
  · -- claiming
    next target before now dbNow fault hstage =>
    rcases hseen : fault.statement db
      (claimCancellation db { fence := run.request.fence, dbNow } target now) with ⟨db₁, seen⟩
    rw [hseen] at h
    obtain ⟨rfl, rfl, rfl⟩ := step_eq_some.1 h
    rcases claimCancellation_marks hseen with ⟨rfl, hnot⟩ | hmarks
    · refine .looks rfl (.inl ?_) (by simp)
      split
      · exact absurd ‹_› hnot
      · rfl
      · rfl
    · refine .claims (by rw [hstage]; rfl) ?_ (by rw [hstage]; rfl) hmarks
      split
      · exact .inr rfl
      · exact .inl rfl
      · exact .inl rfl
  · -- confirming
    next hstage =>
    obtain ⟨rfl, rfl, rfl⟩ := step_eq_some.1 h
    refine .looks rfl ?_ (by simp)
    rw [hstage]
    split
    · exact .inr rfl
    · exact .inl rfl
  · -- deleting
    next hstage =>
    obtain ⟨rfl, rfl, rfl⟩ := step_eq_some.1 h
    exact .deletes rfl (by rw [hstage]; rfl) rfl
  · -- guarding
    obtain ⟨rfl, rfl, rfl⟩ := step_eq_some.1 h
    refine .looks rfl (.inl ?_) (by simp)
    split <;> rfl
  · -- polling
    split at h
    · obtain ⟨rfl, rfl, rfl⟩ := step_eq_some.1 h
      exact .looks rfl (.inl rfl) (by simp)
    · obtain ⟨rfl, rfl, rfl⟩ := step_eq_some.1 h
      refine .looks rfl (.inl ?_) (by simp)
      split
      · rfl
      · exact (afterLookups_stage _).1
  · -- reconciling
    obtain ⟨rfl, rfl, rfl⟩ := step_eq_some.1 h
    exact .looks rfl (.inl rfl) (by simp)
  · -- a crash
    obtain ⟨rfl, rfl, rfl⟩ := step_eq_some.1 h
    exact .looks rfl (.inl rfl) (by simp)
  · cases h

/-- The target a run works on is the one it has read. -/
theorem Cancellation.step_target {run : Cancellation} {act : CancellationAct}
    {stage : CancellationStage} {call : Option CancellationCall}
    (h : run.step act db = some (db', stage, call)) {t : CancellationTarget}
    (ht : stage.target? = some t) :
    run.stage.target? = some t ∨ ∃ session, run.request.target db session = .ok t := by
  unfold Cancellation.step at h
  dsimp only at h
  split at h
  · -- selecting
    split at h
    · obtain ⟨rfl, rfl, rfl⟩ := step_eq_some.1 h
      cases ht
    · next hread =>
      obtain ⟨rfl, rfl, rfl⟩ := step_eq_some.1 h
      obtain rfl := Option.some_inj.1 ht
      exact .inr ⟨_, hread⟩
  · next hstage =>
    split at h
    · obtain ⟨rfl, rfl, rfl⟩ := step_eq_some.1 h
      cases ht
    · next hfetch =>
      obtain ⟨rfl, rfl, rfl⟩ := step_eq_some.1 h
      rw [(afterFetch_stage hfetch).2] at ht
      rw [hstage]
      exact .inl ht
  · -- requesting
    next hstage =>
    obtain ⟨rfl, rfl, rfl⟩ := step_eq_some.1 h
    rw [hstage]
    split at ht
    · exact .inl ht
    · cases ht
  · -- checking
    next hstage =>
    obtain ⟨rfl, rfl, rfl⟩ := step_eq_some.1 h
    rw [hstage]
    split at ht
    · exact .inl ht
    · cases ht
  · -- claiming
    next hstage =>
    obtain ⟨rfl, rfl, rfl⟩ := step_eq_some.1 h
    rw [hstage]
    split at ht
    · exact .inl ht
    · exact .inl ht
    · cases ht
  · -- confirming
    next hstage =>
    obtain ⟨rfl, rfl, rfl⟩ := step_eq_some.1 h
    rw [hstage]
    split at ht
    · exact .inl ht
    · cases ht
  · -- deleting
    next hstage =>
    obtain ⟨rfl, rfl, rfl⟩ := step_eq_some.1 h
    rw [hstage]
    exact .inl ht
  · -- guarding
    next hstage =>
    obtain ⟨rfl, rfl, rfl⟩ := step_eq_some.1 h
    rw [hstage]
    split at ht
    · exact .inl ht
    · cases ht
  · -- polling
    next hstage =>
    split at h
    · obtain ⟨rfl, rfl, rfl⟩ := step_eq_some.1 h
      cases ht
    · obtain ⟨rfl, rfl, rfl⟩ := step_eq_some.1 h
      rw [hstage]
      split at ht
      · exact .inl ht
      · rw [(afterLookups_stage _).2 t ht]
        exact .inl rfl
  · obtain ⟨rfl, rfl, rfl⟩ := step_eq_some.1 h
    cases ht
  · obtain ⟨rfl, rfl, rfl⟩ := step_eq_some.1 h
    cases ht
  · cases h

omit [Hashing] in
/-- The target of a run has an order. -/
theorem target_placed {request : CancellationRequest}
    (h : request.target db session = .ok target) :
    ∃ o ∈ db.orders.rows, o.orderIntentId = target.orderIntentId := by
  simp only [CancellationRequest.target, bind_eq_ok] at h
  obtain ⟨_, _, _, _, h⟩ := h
  split at h
  · next hfound =>
    simp only [bind_eq_ok] at h
    obtain ⟨_, hpair, _, _, _, _, _, _, _, _, h⟩ := h
    obtain rfl := Except.ok.inj hpair
    obtain rfl := Except.ok.inj h
    simp only [cancellationOrder, Option.bind_eq_bind, Option.bind_eq_some_iff] at hfound
    obtain ⟨o, ho, i, hi, hout⟩ := hfound
    obtain ⟨rfl, rfl⟩ := Prod.mk.inj (Option.some_inj.1 hout)
    refine ⟨_, (List.mem_filter.1 (mem_of_firstBy ho)).1, ?_⟩
    exact (Table.key_of_get? hi).symm
  · cases h

/-- What workers remember stays when a mark is persisted. -/
theorem PersistsMark.later (h : PersistsMark mark target now db db')
    (hstate : mark.toState ∉ exitOrderStates) : Later db db' := by
  obtain ⟨i, hget, _⟩ := h.stored
  obtain ⟨transitions, events, _, hevents, heq⟩ := h.tables
  have hid : i.id = target.orderIntentId := Table.key_of_get? hget
  have hkeeps := Intent.markCancellation_keeps mark.toState now
  have hreplaces : Replaces db db' i (i.markCancellation mark.toState now) := by
    refine .of_modify hkeeps (hid.symm ▸ hget) ?_ rfl fun _ hin ↦ absurd hin hstate
    rw [heq, hid]
  refine hreplaces.later ⟨?_, ?_⟩ fun hne ↦ ⟨hne, rfl⟩
  · rw [heq]
    exact hevents
  · rw [heq]
    exact fun _ r hr ↦ ⟨r, hr, rfl⟩

/-- The pass a run ends with has read its targets. -/
theorem Cancellation.step_pass {run : Cancellation} {act : CancellationAct}
    {stage : CancellationStage} {pass : Pass}
    (h : run.step act db = some (db', stage, some (.reconcile pass))) : pass.Valid db' := by
  unfold Cancellation.step at h
  dsimp only at h
  split at h
  all_goals try (first | cases h | (split at h <;> cases h))
  exact ⟨fun _ ↦ listTargets_known, trivial⟩

end Marks

end AlpacaTrading
