import AlpacaTrading.Store.Ledger

/-!
# Authorization predicates of the execution service

The conditions under which an intent may be counted, promoted or claimed: the command filter, the
exact agreement of the intent with the order its review authorised, and the absence of any
earlier sign of a broker order.
-/

namespace AlpacaTrading

/-! ## Commands -/

/-- The execution commands. -/
inductive ExecutionCommand where
  | paperExecuteReviewed | paperExitExecute | hedgeExitExecute | zeroDteEngine
deriving DecidableEq, Repr

/-- The text of a command, as the confirmation evidence records it. -/
def ExecutionCommand.name : ExecutionCommand → String
  | paperExecuteReviewed => "paper:execute:reviewed"
  | paperExitExecute => "paper:exit:execute"
  | hedgeExitExecute => "hedge:exit:execute"
  | zeroDteEngine => "zero-dte:engine"

/-- `commandFilter`. -/
def commandFilter (command : ExecutionCommand) (review : Review) (intent : Intent) : Bool :=
  match command with
  | .paperExecuteReviewed => review.reviewType = .entry ∧
      (intent.operation = some .buyToOpen ∨ intent.operation = some .sellToOpen)
  | .paperExitExecute => review.reviewType = .exit ∧
      (intent.operation = some .sellToClose ∨ intent.operation = some .buyToCover)
  | .hedgeExitExecute => review.reviewType = .exit ∧ intent.operation = some .sellToClose ∧
      Text.containsIgnoreCase "hedge" intent.strategyKey
  | .zeroDteEngine => review.reviewType = .entry ∧ intent.operation = some .buyToOpen ∧
      (intent.strategyClassification = some .zeroDteLongCall ∨
        intent.strategyClassification = some .zeroDteLongPut)

/-! ## The reviewed order -/

/-- `reviewedNumericMatchesIntentSql`. -/
def reviewedNumericMatches (reviewed : Option String) (column : Option ℚ) : Bool :=
  match column with
  | none => reviewed.all (· = "")
  | some q => reviewed.any fun s ↦ Text.decimal? s = some q

/-- `exactReviewAuthorizationSql`. -/
def exactReviewAuthorization (review : Review) (intent : Intent) : Bool :=
  decide (review.clientOrderId = some intent.clientOrderId ∧
    review.orderIntent.clientOrderId = some intent.clientOrderId ∧
    review.orderIntent.symbol = some intent.symbol ∧
    review.orderIntent.assetClass = some intent.assetClass ∧
    review.orderIntent.side = some intent.side ∧
    intent.operation.isSome ∧ review.orderIntent.operation = intent.operation ∧
    review.orderIntent.orderType = some intent.orderType ∧
    review.orderIntent.timeInForce = some intent.timeInForce ∧
    review.orderIntent.strategyKey = some intent.strategyKey) &&
  reviewedNumericMatches review.orderIntent.quantity intent.quantity &&
  reviewedNumericMatches review.orderIntent.notional intent.notional &&
  reviewedNumericMatches review.orderIntent.limitPrice intent.limitPrice &&
  reviewedNumericMatches review.orderIntent.stopPrice intent.stopPrice &&
  review.blockers.isEmpty

/-- `decimalText` on the text of a numeric column and on the reviewed text: both are in normal
form exactly when they denote the same positive value. -/
def decimalTextMatches (reviewed : Option String) (column : Option ℚ) : Bool :=
  match reviewed.filter (· ≠ ""), column with
  | none, none => true
  | some s, some q => Text.decimal? (Text.trim s) = some q
  | _, _ => false

/-- `assertExactReviewAuthorization`. -/
def assertExactReviewAuthorization (review : Review) (intent : Intent) : Except String Unit := do
  require (Text.trim intent.id ≠ "") "POSTGRES_EXECUTION_INTENT_ID_REQUIRED"
  require (Text.trim (intent.executionReviewId.getD "") ≠ "" ∧
      Text.trim (intent.confirmationEvidenceId.getD "") ≠ "")
    "POSTGRES_EXECUTION_REVIEW_LINEAGE_REQUIRED"
  let same (authorized requested : Option String) : Bool :=
    Text.trim (authorized.getD "") = Text.trim (requested.getD "")
  require (same review.clientOrderId (some intent.clientOrderId) &&
      same review.orderIntent.clientOrderId (some intent.clientOrderId) &&
      same review.orderIntent.symbol (some intent.symbol) &&
      decide (review.orderIntent.assetClass = some intent.assetClass) &&
      decide (review.orderIntent.side = some intent.side) &&
      decide (review.orderIntent.operation = intent.operation) &&
      decide (review.orderIntent.orderType = some intent.orderType) &&
      decide (review.orderIntent.timeInForce = some intent.timeInForce) &&
      same review.orderIntent.strategyKey (some intent.strategyKey) &&
      decimalTextMatches review.orderIntent.quantity intent.quantity &&
      decimalTextMatches review.orderIntent.notional intent.notional &&
      decimalTextMatches review.orderIntent.limitPrice intent.limitPrice &&
      decimalTextMatches review.orderIntent.stopPrice intent.stopPrice)
    "POSTGRES_REVIEW_INTENT_AUTHORIZATION_MISMATCH"

/-! ## Earlier broker orders -/

/-- The event statuses that count as an acknowledgement. -/
def acknowledgedEventStatuses : List String :=
  ["submission_acknowledged", "submission_reconciled", "accepted", "new", "pending_new",
    "partially_filled", "filled"]

/-- `noPriorBrokerAcknowledgementSql`. -/
def noPriorBrokerAcknowledgement (db : Db) (intent : Intent) : Bool :=
  !(db.orders.rows.any fun o ↦ o.accountId = intent.accountId ∧
    (o.orderIntentId = intent.id ∨ o.clientOrderId = intent.clientOrderId)) &&
  !(db.events.rows.any fun e ↦ e.accountId = intent.accountId ∧
    (e.orderIntentId = some intent.id ∨ e.clientOrderId = some intent.clientOrderId) ∧
    (e.brokerOrderId.isSome ∨ e.eventStatus ∈ acknowledgedEventStatuses))

/-! ## The row handed to the later steps -/

/-- `AutonomousExecutionIntentRow`: the columns of the intent with those of the rows it is joined
with. -/
structure AutonomousExecutionIntentRow where
  intent : Intent
  review : Review
  brokerAccountId : String
  accountSnapshotFingerprint : String
  parentPosition : Option Position
  openingContractId : Option String
deriving DecidableEq

end AlpacaTrading
