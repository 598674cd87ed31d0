import AlpacaTrading.Lib.Text

/-!
# Broker order statuses

The broker reports the status of an order as free text.  The classifier of
`brokerOrderStatusService` normalises it and splits it into terminal, active and empty;
reconciliation keeps a terminal set of its own, and the execution service a list of open
statuses of its own.  They are kept apart here, as they are in the source.

## Unknown statuses

`classifyBrokerOrderStatus` counts every non-empty status that is not terminal as active, known
or not, so an order in a state the service has never seen keeps consuming capacity.
-/

namespace AlpacaTrading

/-! ## Classification -/

/-- The statuses the classifier calls terminal. -/
def terminalBrokerOrderStatuses : List String :=
  ["canceled", "cancelled", "expired", "filled", "rejected", "replaced"]

/-- The active statuses the classifier knows. -/
def knownActiveBrokerOrderStatuses : List String :=
  ["accepted", "accepted_for_bidding", "calculated", "done_for_day", "held", "new",
    "partially_filled", "pending_cancel", "pending_new", "pending_replace", "stopped",
    "submitted", "suspended"]

/-- The classification of a broker order status. -/
structure BrokerOrderStatusClassification where
  /-- The trimmed, lower-case status. -/
  normalized : String
  /-- The order may still consume capacity. -/
  active : Bool
  /-- The order can no longer change. -/
  terminal : Bool
  /-- The status is one the service knows. -/
  known : Bool
deriving DecidableEq, Repr

/-- `classifyBrokerOrderStatus`; a missing status is the empty text. -/
def classifyBrokerOrderStatus (value : String) : BrokerOrderStatusClassification :=
  let normalized := Text.toLowerCase (Text.trim value)
  let terminal := decide (normalized ∈ terminalBrokerOrderStatuses)
  { normalized
    terminal
    known := terminal || decide (normalized ∈ knownActiveBrokerOrderStatuses)
    active := decide (normalized ≠ "") && !terminal }

/-- `isActiveBrokerOrderStatus`. -/
def isActiveBrokerOrderStatus (value : String) : Bool := (classifyBrokerOrderStatus value).active

/-! ## The other status lists of the services -/

/-- The statuses after which reconciliation calls an order terminal. -/
def terminalStatuses : List String := ["filled", "canceled", "cancelled", "expired", "rejected"]

/-- The order statuses the capacity queries of promotion and claim count as open. -/
def openOrderStatuses : List String :=
  ["new", "accepted", "pending_new", "partially_filled", "held", "replaced"]

end AlpacaTrading
