import Mathlib.Algebra.Order.Ring.Rat
import AlpacaTrading.Lib.Table
import AlpacaTrading.Broker.Response
import AlpacaTrading.Lifecycle.Graph

/-!
# The operational tables

The PostgreSQL state the services share, as typed tables.  Column names are the ones of the
migrations; a status column with a check constraint is an inductive type, a `numeric` column a
rational, a `timestamptz` column an instant.  Columns that the schema fixes (`environment`,
`paper_only`, `live_trading_enabled`) and columns no modelled statement reads are left out.

## Constraints

The unique constraints are the `Row` instances: primary keys, the natural keys of orders and
intents, and the partial index that allows one current allocation per account and strategy.  The
check constraint on the amount of a reservation is a field of `Reservation`.

## The fence

Every mutating statement of the services is guarded by the scheduler lease it runs under:
`fenceHeld` is the `EXISTS` subquery they all repeat.
-/

namespace AlpacaTrading

/-! ## Enumerations -/

inductive AssetClass where
  | equity | option
deriving DecidableEq, Repr

inductive OrderSide where
  | buy | sell | buyToOpen | sellToClose
deriving DecidableEq, Repr

/-- `TRADE_OPERATIONS`. -/
inductive TradeOperation where
  | buyToOpen | sellToOpen | sellToClose | buyToCover
deriving DecidableEq, Repr

/-- `STRATEGY_CLASSIFICATIONS`. -/
inductive StrategyClassification where
  | equityLong | equityShort | standardLongCall | standardLongPut | zeroDteLongCall
  | zeroDteLongPut | leapsLongCall | leapsLongPut | hedge
deriving DecidableEq, Repr

inductive OrderType where
  | market | limit | stop | stopLimit
deriving DecidableEq, Repr

inductive TimeInForce where
  | day | gtc | opg | cls | ioc | fok
deriving DecidableEq, Repr

inductive IntentStatus where
  | created | readyForSubmission | submissionPending | submitted | ambiguous | reconciled
  | failed | cancelled
deriving DecidableEq, Repr

inductive ReviewStatus where
  | created | valid | blocked | expired | consumed | revoked
deriving DecidableEq, Repr

inductive ConfirmationStatus where
  | valid | expired | consumed | revoked
deriving DecidableEq, Repr

inductive ReservationStatus where
  | active | committed | released | expired | cancelled
deriving DecidableEq, Repr

/-- `status IN ('active', 'committed')`. -/
def ReservationStatus.live : ReservationStatus → Bool
  | active | committed => true
  | _ => false

/-- The status of a versioned configuration row. -/
inductive ConfigStatus where
  | active | superseded | disabled
deriving DecidableEq, Repr

inductive ScopeType where
  | portfolio | strategy | symbol | position
deriving DecidableEq, Repr

inductive CandidateDecision where
  | selected | rejected | skipped | blocked
deriving DecidableEq, Repr

inductive PositionSide where
  | long | short
deriving DecidableEq, Repr

inductive CandidateDirection where
  | long | short | neutral
deriving DecidableEq, Repr

inductive PositionStatus where
  | open | closing | closed
deriving DecidableEq, Repr

inductive LeaseStatus where
  | held | released | expired
deriving DecidableEq, Repr

/-- The event types the modelled services write; other services write their own. -/
inductive EventType where
  | orderSubmissionAttempt | orderSubmission | orderSubmissionAbsence | orderSubmissionReceipt
  | reconciliation | externalOrderObserved | other (name : String)
deriving DecidableEq, Repr

/-- The terminal states of a reservation. -/
inductive ReservationTerminalState where
  | filled | cancelled | rejected | expired | closed | failedTerminal
deriving DecidableEq, Repr

inductive ReleaseReason where
  | brokerTerminalFilled | brokerTerminalCancelled | brokerTerminalRejected
  | brokerTerminalExpired | positionClosed | staleIntentRecovery | brokerAbsenceEstablished
  | brokerOrderAbsenceConfirmed | brokerSubmissionFailed
deriving DecidableEq, Repr

/-! ## Rows -/

/-- A row of `order_intents`. -/
structure Intent where
  id : String
  accountId : String
  candidateId : Option String := none
  reservationId : Option String := none
  executionReviewId : Option String := none
  confirmationEvidenceId : Option String := none
  clientOrderId : String
  strategyKey : String
  symbol : String
  underlyingSymbol : Option String := none
  assetClass : AssetClass := .equity
  side : OrderSide := .buy
  operation : Option TradeOperation := none
  strategyClassification : Option StrategyClassification := none
  orderType : OrderType := .market
  timeInForce : TimeInForce := .day
  quantity : Option ℚ := none
  notional : Option ℚ := none
  limitPrice : Option ℚ := none
  stopPrice : Option ℚ := none
  estimatedPremium : Option ℚ := none
  maxRisk : Option ℚ := none
  status : IntentStatus := .created
  lifecycleState : LifecycleState := .reviewCreated
  parentPositionId : Option String := none
  openingIntentId : Option String := none
  contractId : Option String := none
  reservationReleaseReason : Option ReleaseReason := none
  readyAt : Option Time := none
  submittedAt : Option Time := none
  terminalAt : Option Time := none
  version : Nat := 1
  createdAt : Time := 0
  updatedAt : Time := 0
deriving DecidableEq

/-- The `order_intent` document of a review: its fields as the operator `->>` renders them. -/
structure ReviewedOrder where
  clientOrderId : Option String := none
  symbol : Option String := none
  assetClass : Option AssetClass := none
  side : Option OrderSide := none
  operation : Option TradeOperation := none
  orderType : Option OrderType := none
  timeInForce : Option TimeInForce := none
  strategyKey : Option String := none
  quantity : Option String := none
  notional : Option String := none
  limitPrice : Option String := none
  stopPrice : Option String := none
deriving DecidableEq

/-- A row of `execution_reviews`. -/
structure Review where
  id : String
  accountId : String
  candidateId : Option String := none
  reviewType : ReviewType
  status : ReviewStatus
  clientOrderId : Option String := none
  accountFingerprint : String
  sourceSnapshotId : Option String := none
  payloadFingerprint : String
  signature : String := ""
  orderIntent : ReviewedOrder := {}
  blockers : List String := []
  expiresAt : Time
  consumedAt : Option Time := none
  updatedAt : Time := 0
deriving DecidableEq

/-- A row of `confirmation_evidence`. -/
structure Confirmation where
  id : String
  executionReviewId : String
  accountId : String
  candidateId : Option String := none
  status : ConfirmationStatus
  payloadFingerprint : String
  confirmedAt : Time := 0
  expiresAt : Time
  consumedAt : Option Time := none
  updatedAt : Time := 0
deriving DecidableEq

/-- A row of `buying_power_reservations`. -/
structure Reservation where
  id : String
  accountId : String
  candidateId : Option String := none
  strategyKey : String
  symbol : String
  assetClass : AssetClass := .equity
  amount : ℚ
  /-- The check constraint on the amount. -/
  amount_pos : 0 < amount
  status : ReservationStatus
  idempotencyKey : String
  accountSnapshotId : String := ""
  schedulerJobName : String := ""
  schedulerFencingToken : Nat := 0
  expiresAt : Time
  committedAt : Option Time := none
  releasedAt : Option Time := none
  releaseReason : Option ReleaseReason := none
  createdAt : Time := 0
  updatedAt : Time := 0
deriving DecidableEq

/-- A row of `strategy_allocations`. -/
structure Allocation where
  id : String
  accountId : String
  strategyKey : String
  status : ConfigStatus := .active
  effectiveTo : Option Time := none
  allocationAmount : Option ℚ := none
  allocationRatio : Option ℚ := none
  reservedAmount : ℚ := 0
  deployedAmount : ℚ := 0
  updatedAt : Time := 0
deriving DecidableEq

/-- `status = 'active' AND effective_to IS NULL`. -/
def Allocation.current (a : Allocation) : Bool := a.status = .active ∧ a.effectiveTo = none

/-- A row of `orders`. -/
structure Order where
  id : String
  accountId : String
  orderIntentId : String
  brokerOrderId : Option String := none
  clientOrderId : String
  parentOrderId : Option String := none
  replacementOrderId : Option String := none
  symbol : String
  assetClass : AssetClass := .equity
  side : OrderSide := .buy
  orderType : OrderType := .market
  timeInForce : TimeInForce := .day
  status : String
  quantity : Option ℚ := none
  notional : Option ℚ := none
  limitPrice : Option ℚ := none
  stopPrice : Option ℚ := none
  filledQuantity : ℚ := 0
  filledAveragePrice : Option ℚ := none
  submittedAt : Option Time := none
  filledAt : Option Time := none
  lastBrokerUpdateAt : Option Time := none
  createdAt : Time := 0
  updatedAt : Time := 0
deriving DecidableEq

/-- The check constraints of `orders` on sizes, prices and fills. -/
def Order.financialValuesValid (o : Order) : Bool :=
  (o.quantity.isSome || o.notional.isSome) &&
  o.quantity.all (0 < ·) && o.notional.all (0 < ·) && o.limitPrice.all (0 < ·) &&
  o.stopPrice.all (0 < ·) && o.filledAveragePrice.all (0 < ·) &&
  decide (0 ≤ o.filledQuantity) && o.quantity.all (o.filledQuantity ≤ ·)

/-- A row of `broker_events`. -/
structure BrokerEvent where
  eventId : String
  accountId : String
  orderId : Option String := none
  orderIntentId : Option String := none
  brokerOrderId : Option String := none
  clientOrderId : Option String := none
  eventType : EventType
  eventStatus : String
  httpStatus : Option Int := none
  errorClassification : Option String := none
  responseFingerprint : String := ""
  occurredAt : Time
  receivedAt : Time
deriving DecidableEq

/-- The check constraints of `broker_events`. -/
def BrokerEvent.valid (e : BrokerEvent) : Bool :=
  decide (e.occurredAt ≤ e.receivedAt) && e.httpStatus.all fun s ↦ decide (100 ≤ s ∧ s ≤ 599)

/-- A row of `reservation_terminal_transitions`. -/
structure ReservationTransition where
  id : String
  reservationId : String
  orderIntentId : Option String
  terminalState : ReservationTerminalState
  releaseReason : ReleaseReason
  idempotencyKey : String
  occurredAt : Time
deriving DecidableEq

/-- A row of `autonomous_trade_lifecycle_transitions`. -/
structure LifecycleTransition where
  id : String
  orderIntentId : String
  fromState : LifecycleState
  toState : LifecycleState
  idempotencyKey : String
  occurredAt : Time
deriving DecidableEq

/-- A row of `candidates`. -/
structure Candidate where
  id : String
  researchRunId : String := ""
  rank : Nat := 1
  symbol : String
  optionSymbol : Option String := none
  assetClass : AssetClass := .equity
  direction : CandidateDirection := .long
  strategyFamily : Option String := none
  score : ℚ := 0
  confidence : ℚ := 0
  estimatedMaxLoss : Option ℚ := none
  estimatedMaxProfit : Option ℚ := none
  asOf : Time := 0
  decision : CandidateDecision := .selected
  lifecycleStatus : String
  decisionReason : Option String := none
  updatedAt : Time := 0
deriving DecidableEq

/-- A row of `positions`. -/
structure Position where
  id : String
  accountId : String
  brokerPositionKey : String
  candidateId : Option String := none
  openingOrderId : Option String := none
  closingOrderId : Option String := none
  symbol : String
  underlyingSymbol : Option String := none
  optionSymbol : Option String := none
  assetClass : AssetClass := .equity
  side : PositionSide := .long
  status : PositionStatus
  quantity : ℚ := 0
  availableQuantity : Option ℚ := none
  averageEntryPrice : Option ℚ := none
  marketValue : Option ℚ := none
  costBasis : Option ℚ := none
  openedAt : Time := 0
  closedAt : Option Time := none
  lastReconciledAt : Option Time := none
  updatedAt : Time := 0
deriving DecidableEq

/-- `status IN ('open', 'closing')`. -/
def Position.held (p : Position) : Bool := p.status = .open ∨ p.status = .closing

/-- A row of `accounts`. -/
structure Account where
  id : String
  brokerAccountId : String
  status : String := "ACTIVE"
  currency : String := "USD"
  updatedAt : Time := 0
deriving DecidableEq

/-- A row of `account_snapshots`, with the fingerprint its evidence document carries. -/
structure AccountSnapshot where
  id : String
  accountId : String
  observedAt : Time
  cash : Option ℚ := none
  equity : Option ℚ := none
  buyingPower : Option ℚ := none
  optionsBuyingPower : Option ℚ := none
  snapshotFingerprint : String
  structuralPortfolioFingerprint : Option String := none
deriving DecidableEq

/-- A row of `risk_limits`. -/
structure RiskLimit where
  id : String
  accountId : String
  scopeType : ScopeType := .portfolio
  scopeKey : String := "portfolio"
  status : ConfigStatus := .active
  effectiveTo : Option Time := none
  cashReserveAmount : Option ℚ := none
  cashReserveRatio : Option ℚ := none
  maxDeploymentAmount : Option ℚ := none
  maxDeploymentRatio : Option ℚ := none
  maxGrossExposure : Option ℚ := none
  maxOpenOrderExposure : Option ℚ := none
  maxPositionNotional : Option ℚ := none
  maxSymbolNotional : Option ℚ := none
  maxPositionCount : Option Nat := none
  maxOrderCount : Option Nat := none
  updatedAt : Time := 0
deriving DecidableEq

/-- `status = 'active' AND effective_to IS NULL`. -/
def RiskLimit.current (l : RiskLimit) : Bool := l.status = .active ∧ l.effectiveTo = none

/-- A row of `portfolio_exposure`. -/
structure Exposure where
  id : String
  accountId : String
  scopeType : ScopeType := .portfolio
  scopeKey : String := "portfolio"
  grossExposure : ℚ := 0
  openOrderExposure : ℚ := 0
  deployedAmount : ℚ := 0
  observedAt : Time := 0
deriving DecidableEq

/-- A row of `scheduler_leases`. -/
structure Lease where
  jobName : String
  workstream : String
  ownerId : String
  runId : String
  fencingToken : Nat
  status : LeaseStatus
  expiresAt : Time
deriving DecidableEq

/-! ## Unique constraints -/

instance : Row Intent String where
  key := Intent.id
  clash a b := a.id = b.id ∨ (a.accountId = b.accountId ∧ a.clientOrderId = b.clientOrderId)
  dec := fun _ _ ↦ inferInstanceAs (Decidable (_ ∨ _))
  symm := fun h ↦ h.imp Eq.symm fun ⟨h₁, h₂⟩ ↦ ⟨h₁.symm, h₂.symm⟩
  clash_of_key := Or.inl

instance : Row Review String where
  key := Review.id
  clash a b := a.id = b.id ∨
    (a.accountId = b.accountId ∧ a.payloadFingerprint = b.payloadFingerprint) ∨
    (a.accountId = b.accountId ∧ a.clientOrderId = b.clientOrderId ∧ a.clientOrderId.isSome)
  dec := fun _ _ ↦ inferInstanceAs (Decidable (_ ∨ _))
  symm := by
    rintro a b (h | ⟨h₁, h₂⟩ | ⟨h₁, h₂, h₃⟩)
    · exact Or.inl h.symm
    · exact Or.inr (Or.inl ⟨h₁.symm, h₂.symm⟩)
    · exact Or.inr (Or.inr ⟨h₁.symm, h₂.symm, h₂ ▸ h₃⟩)
  clash_of_key := Or.inl

instance : Row Confirmation String where
  key := Confirmation.id
  clash a b := a.id = b.id ∨
    (a.executionReviewId = b.executionReviewId ∧ a.payloadFingerprint = b.payloadFingerprint)
  dec := fun _ _ ↦ inferInstanceAs (Decidable (_ ∨ _))
  symm := fun h ↦ h.imp Eq.symm fun ⟨h₁, h₂⟩ ↦ ⟨h₁.symm, h₂.symm⟩
  clash_of_key := Or.inl

instance : Row Reservation String where
  key := Reservation.id
  clash a b := a.id = b.id ∨
    (a.accountId = b.accountId ∧ a.idempotencyKey = b.idempotencyKey)
  dec := fun _ _ ↦ inferInstanceAs (Decidable (_ ∨ _))
  symm := fun h ↦ h.imp Eq.symm fun ⟨h₁, h₂⟩ ↦ ⟨h₁.symm, h₂.symm⟩
  clash_of_key := Or.inl

instance : Row Allocation String where
  key := Allocation.id
  clash a b := a.id = b.id ∨ (a.current ∧ b.current ∧ a.accountId = b.accountId ∧
    a.strategyKey = b.strategyKey)
  dec := fun _ _ ↦ inferInstanceAs (Decidable (_ ∨ _))
  symm := fun h ↦ h.imp Eq.symm fun ⟨h₁, h₂, h₃, h₄⟩ ↦ ⟨h₂, h₁, h₃.symm, h₄.symm⟩
  clash_of_key := Or.inl

instance : Row Order String where
  key := Order.id
  clash a b := a.id = b.id ∨
    (a.accountId = b.accountId ∧ a.clientOrderId = b.clientOrderId) ∨
    (a.brokerOrderId = b.brokerOrderId ∧ a.brokerOrderId.isSome)
  dec := fun _ _ ↦ inferInstanceAs (Decidable (_ ∨ _))
  symm := by
    rintro a b (h | ⟨h₁, h₂⟩ | ⟨h₁, h₂⟩)
    · exact Or.inl h.symm
    · exact Or.inr (Or.inl ⟨h₁.symm, h₂.symm⟩)
    · exact Or.inr (Or.inr ⟨h₁.symm, h₁ ▸ h₂⟩)
  clash_of_key := Or.inl

instance : Row BrokerEvent String where
  key := BrokerEvent.eventId
  clash a b := a.eventId = b.eventId
  dec := fun _ _ ↦ inferInstanceAs (Decidable (_ = _))
  symm := Eq.symm
  clash_of_key := id

instance : Row ReservationTransition String where
  key := ReservationTransition.reservationId
  clash a b := a.reservationId = b.reservationId ∨ a.id = b.id
  dec := fun _ _ ↦ inferInstanceAs (Decidable (_ ∨ _))
  symm := fun h ↦ h.imp Eq.symm Eq.symm
  clash_of_key := Or.inl

instance : Row LifecycleTransition String where
  key := LifecycleTransition.id
  clash a b := a.id = b.id ∨
    (a.orderIntentId = b.orderIntentId ∧ a.idempotencyKey = b.idempotencyKey)
  dec := fun _ _ ↦ inferInstanceAs (Decidable (_ ∨ _))
  symm := fun h ↦ h.imp Eq.symm fun ⟨h₁, h₂⟩ ↦ ⟨h₁.symm, h₂.symm⟩
  clash_of_key := Or.inl

instance : Row Candidate String where
  key := Candidate.id
  clash a b := a.id = b.id
  dec := fun _ _ ↦ inferInstanceAs (Decidable (_ = _))
  symm := Eq.symm
  clash_of_key := id

instance : Row Position String where
  key := Position.id
  clash a b := a.id = b.id ∨
    (a.accountId = b.accountId ∧ a.brokerPositionKey = b.brokerPositionKey)
  dec := fun _ _ ↦ inferInstanceAs (Decidable (_ ∨ _))
  symm := fun h ↦ h.imp Eq.symm fun ⟨h₁, h₂⟩ ↦ ⟨h₁.symm, h₂.symm⟩
  clash_of_key := Or.inl

instance : Row Account String where
  key := Account.id
  clash a b := a.id = b.id ∨ a.brokerAccountId = b.brokerAccountId
  dec := fun _ _ ↦ inferInstanceAs (Decidable (_ ∨ _))
  symm := fun h ↦ h.imp Eq.symm Eq.symm
  clash_of_key := Or.inl

instance : Row AccountSnapshot String where
  key := AccountSnapshot.id
  clash a b := a.id = b.id ∨
    (a.accountId = b.accountId ∧ a.snapshotFingerprint = b.snapshotFingerprint)
  dec := fun _ _ ↦ inferInstanceAs (Decidable (_ ∨ _))
  symm := fun h ↦ h.imp Eq.symm fun ⟨h₁, h₂⟩ ↦ ⟨h₁.symm, h₂.symm⟩
  clash_of_key := Or.inl

instance : Row RiskLimit String where
  key := RiskLimit.id
  clash a b := a.id = b.id ∨ (a.current ∧ b.current ∧ a.accountId = b.accountId ∧
    a.scopeType = b.scopeType ∧ a.scopeKey = b.scopeKey)
  dec := fun _ _ ↦ inferInstanceAs (Decidable (_ ∨ _))
  symm := fun h ↦ h.imp Eq.symm
    fun ⟨h₁, h₂, h₃, h₄, h₅⟩ ↦ ⟨h₂, h₁, h₃.symm, h₄.symm, h₅.symm⟩
  clash_of_key := Or.inl

instance : Row Exposure String where
  key := Exposure.id
  clash a b := a.id = b.id
  dec := fun _ _ ↦ inferInstanceAs (Decidable (_ = _))
  symm := Eq.symm
  clash_of_key := id

instance : Row Lease String where
  key := Lease.jobName
  clash a b := a.jobName = b.jobName
  dec := fun _ _ ↦ inferInstanceAs (Decidable (_ = _))
  symm := Eq.symm
  clash_of_key := id

/-! ## The database -/

/-- The shared state. -/
structure Db where
  accounts : Table Account := .empty
  snapshots : Table AccountSnapshot := .empty
  limits : Table RiskLimit := .empty
  exposures : Table Exposure := .empty
  allocations : Table Allocation := .empty
  candidates : Table Candidate := .empty
  reviews : Table Review := .empty
  confirmations : Table Confirmation := .empty
  intents : Table Intent := .empty
  reservations : Table Reservation := .empty
  reservationTransitions : Table ReservationTransition := .empty
  lifecycleTransitions : Table LifecycleTransition := .empty
  orders : Table Order := .empty
  events : Table BrokerEvent := .empty
  positions : Table Position := .empty
  leases : Table Lease := .empty
  /-- When migration 6 was applied. -/
  lifecycleCutover : Option Time := none

/-- `SchedulerFence`: the lease a worker believes to hold. -/
structure SchedulerFence where
  jobName : String
  workstream : String
  ownerId : String
  runId : String
  fencingToken : Nat
deriving DecidableEq

/-- What a statement sees besides its arguments: the fence of its worker and the database clock. -/
structure Session where
  fence : SchedulerFence
  dbNow : Time
deriving DecidableEq

/-- `fenceSql`. -/
def fenceHeld (db : Db) (session : Session) : Bool :=
  db.leases.rows.any fun lease ↦
    lease.jobName = session.fence.jobName ∧ lease.workstream = session.fence.workstream ∧
    lease.ownerId = session.fence.ownerId ∧ lease.runId = session.fence.runId ∧
    lease.fencingToken = session.fence.fencingToken ∧ lease.status = .held ∧
    session.dbNow < lease.expiresAt

/-- The texts the services derive their identifiers from: `stableRecordId` of a scope and a key,
`canonicalJsonHash` of an object given by its fields, and the rendering of an instant. -/
class Hashing where
  stableRecordId : String → String → String
  canonicalJsonHash : List (String × String) → String
  toISOString : Time → String

/-! ## Selecting one row -/

/-- `ORDER BY … LIMIT 1`: the first row, in table order, that no other row strictly precedes. -/
def firstBy {ρ : Type*} (precedes : ρ → ρ → Bool) : List ρ → Option ρ
  | [] => none
  | r :: rest =>
    match firstBy precedes rest with
    | none => some r
    | some best => if precedes best r then some best else some r

theorem mem_of_firstBy {ρ : Type*} {precedes : ρ → ρ → Bool} {l : List ρ} {r : ρ}
    (h : firstBy precedes l = some r) : r ∈ l := by
  induction l generalizing r with
  | nil => simp [firstBy] at h
  | cons x rest ih =>
    unfold firstBy at h
    split at h
    · cases h
      exact List.mem_cons_self
    · next best hbest =>
      split at h
      · cases h
        exact List.mem_cons_of_mem _ (ih hbest)
      · cases h
        exact List.mem_cons_self

/-- A row that precedes all earlier ones is selected. -/
theorem firstBy_append {ρ : Type*} {precedes : ρ → ρ → Bool} {l : List ρ} {r : ρ}
    (h : ∀ x ∈ l, precedes r x = true) : firstBy precedes (l ++ [r]) = some r := by
  induction l with
  | nil => rfl
  | cons x rest ih =>
    rw [List.cons_append, firstBy, ih fun y hy ↦ h y (List.mem_cons_of_mem _ hy)]
    exact if_pos (h x List.mem_cons_self)

/-- The row selected precedes every other, when the order is total on the list. -/
theorem firstBy_precedes {ρ : Type*} {precedes : ρ → ρ → Bool} {l : List ρ} {r : ρ}
    (htrans : ∀ a b c, precedes a b → precedes b c → precedes a c)
    (htotal : ∀ a ∈ l, ∀ b ∈ l, ¬ precedes a b → a = b ∨ precedes b a)
    (h : firstBy precedes l = some r) : ∀ x ∈ l, x = r ∨ precedes r x := by
  induction l generalizing r with
  | nil => exact fun x hx ↦ absurd hx List.not_mem_nil
  | cons y rest ih =>
    unfold firstBy at h
    intro x hx
    split at h
    · -- Nothing is selected from an empty rest only.
      next hnone =>
      obtain rfl := Option.some_inj.1 h
      have hempty : rest = [] := by
        rcases rest with - | ⟨z, rest⟩
        · rfl
        · unfold firstBy at hnone
          split at hnone
          · cases hnone
          · split at hnone <;> cases hnone
      rw [hempty, List.mem_singleton] at hx
      exact Or.inl hx
    · next best hbest =>
      have hrest := ih (fun a ha b hb ↦
        htotal a (List.mem_cons_of_mem _ ha) b (List.mem_cons_of_mem _ hb)) hbest
      have hmem := List.mem_cons_of_mem y (mem_of_firstBy hbest)
      split at h
      · next hfirst =>
        obtain rfl := Option.some_inj.1 h
        rcases List.mem_cons.1 hx with rfl | hx
        · exact Or.inr hfirst
        · exact hrest x hx
      · next hsecond =>
        obtain rfl := Option.some_inj.1 h
        rcases List.mem_cons.1 hx with rfl | hlater
        · exact Or.inl rfl
        · rcases htotal best hmem y List.mem_cons_self hsecond with rfl | hy
          · exact hrest x hlater
          · rcases hrest x hlater with rfl | hbx
            · exact Or.inr hy
            · exact Or.inr (htrans y best x hy hbx)

/-- The latest account snapshot, `ORDER BY observed_at DESC, id DESC`. -/
def latestSnapshot (db : Db) (accountId : String) : Option AccountSnapshot :=
  firstBy (fun a b ↦ b.observedAt < a.observedAt ∨ (a.observedAt = b.observedAt ∧ b.id < a.id))
    (db.snapshots.rows.filter fun s ↦ s.accountId = accountId)

/-- The current risk limits, portfolio scope first and then the last updated. -/
def currentLimits (db : Db) (accountId : String) : Option RiskLimit :=
  firstBy (fun a b ↦
      (a.scopeType = .portfolio ∧ b.scopeType ≠ .portfolio) ∨
      ((a.scopeType = .portfolio ↔ b.scopeType = .portfolio) ∧ b.updatedAt < a.updatedAt))
    (db.limits.rows.filter fun l ↦ l.accountId = accountId ∧ l.current)

/-- The current allocation of a strategy. -/
def currentAllocation (db : Db) (accountId strategyKey : String) : Option Allocation :=
  db.allocations.rows.find? fun a ↦
    a.accountId = accountId ∧ a.strategyKey = strategyKey ∧ a.current

end AlpacaTrading
