import AlpacaTrading.Execution.Promotion
import AlpacaTrading.Review.Arbitrator

/-!
# The entry review

The entry commands of `runPostgresReviewWorkflow` look at the selected candidates of the latest
research run, build the shared resource context from the stored positions, orders and intents,
let the arbitrator decide, and store a review and an intent for every approved candidate.

The market evidence of a candidate and the size it is given come from tables that are not part of
this model; the outcome of these checks is an argument, `EntryAssessment`.  Everything the
conflict checks depend on is computed from the database.

The source reads once at the start and then issues one statement after the other, each committing
by itself; an error ends the sequence and leaves what was written.
-/

namespace AlpacaTrading

/-! ## Requests -/

/-- What the evidence and sizing checks make of a candidate that passes them. -/
structure EntryEvidence where
  price : ℚ
  amount : ℚ
  contractMultiplier : Option ℚ := none
  contractId : Option String := none
  /-- The contract is a call. -/
  call : Bool := true
  /-- The quantity of a LEAPS sizing. -/
  leapsQuantity : Option ℚ := none
  /-- `classifyOptionStrategy` of the expiration date. -/
  optionClassification : StrategyClassification := .standardLongCall
  /-- The market evidence document. -/
  marketEvidence : String := ""
deriving DecidableEq

/-- The outcome of the evidence and sizing checks. -/
inductive EntryAssessment where
  /-- The candidate has no market price: the source query has no row for it. -/
  | missing
  /-- An error that ends the review. -/
  | failed (code : String)
  /-- The evidence of this candidate is not good enough. -/
  | blocked (reason : String)
  /-- There is no capacity for the candidate. -/
  | unaffordable (reason : String)
  | eligible (evidence : EntryEvidence)
deriving DecidableEq

/-- The arguments of an entry review. -/
structure EntryReviewRequest where
  signingKey : String
  /-- `AUTONOMOUS_CYCLE_ID`, empty when it is not set. -/
  cycleId : String := ""
  /-- The latest completed research run. -/
  latestResearch : Option String
  /-- The candidate filter of the command. -/
  scope : Candidate → Bool := fun _ ↦ true
  maxCandidates : Nat
  assess : Candidate → EntryAssessment
  /-- The signature of a payload fingerprint under the signing key. -/
  sign : String → String := fun fingerprint ↦ fingerprint
  /-- No other decision is stored under the identifiers of the arbitration. -/
  decisionsRecorded : Bool := true
  now : Time

/-! ## The source query -/

/-- A row of `entrySourceSql`. -/
structure ReviewSourceRow where
  candidate : Candidate
  account : Account
  snapshot : AccountSnapshot
  allocation : Allocation
  limits : RiskLimit
  portfolio : Option Exposure
  openPositionCount : Nat
  openOrderCount : Nat

/-- The symbol the order of a candidate is placed for. -/
def Candidate.orderSymbol (c : Candidate) : String := c.optionSymbol.getD c.symbol

/-- `current_account`: the account updated last. -/
def currentAccount (db : Db) : Option Account :=
  firstBy (fun a b ↦ b.updatedAt < a.updatedAt ∨ (a.updatedAt = b.updatedAt ∧ a.id < b.id))
    db.accounts.rows

/-- The current allocation of the account updated last. -/
def reviewAllocation (db : Db) (accountId : String) : Option Allocation :=
  firstBy (fun a b ↦ b.updatedAt < a.updatedAt ∨ (a.updatedAt = b.updatedAt ∧ a.id < b.id))
    (db.allocations.rows.filter fun a ↦ a.accountId = accountId ∧ a.current)

/-- The current limits of the account, portfolio scope first and then the last updated. -/
def reviewLimits (db : Db) (accountId : String) : Option RiskLimit :=
  let outer (l : RiskLimit) : Nat := if l.scopeType = .portfolio then 0 else 1
  firstBy (fun a b ↦ outer a < outer b ∨ (outer a = outer b ∧
      (b.updatedAt < a.updatedAt ∨ (a.updatedAt = b.updatedAt ∧ a.id < b.id))))
    (db.limits.rows.filter fun l ↦ l.accountId = accountId ∧ l.current)

/-- The latest portfolio exposure of the account. -/
def reviewExposure (db : Db) (accountId : String) : Option Exposure :=
  firstBy (fun a b ↦ b.observedAt < a.observedAt ∨ (a.observedAt = b.observedAt ∧ b.id < a.id))
    (db.exposures.rows.filter fun e ↦ e.accountId = accountId ∧ e.scopeType = .portfolio ∧
      e.scopeKey = "portfolio")

/-- The candidate was reviewed under the same snapshot before. -/
def reviewedUnder (db : Db) (accountId snapshotId candidateId : String) : Bool :=
  db.reviews.rows.any fun r ↦ r.accountId = accountId ∧ r.candidateId = some candidateId ∧
    r.sourceSnapshotId = some snapshotId ∧ r.reviewType = .entry ∧ r.clientOrderId.isSome

/-- The candidate conjuncts of `entrySourceSql`. -/
def reviewable (db : Db) (request : EntryReviewRequest) (accountId snapshotId : String)
    (c : Candidate) : Bool :=
  decide (request.latestResearch = some c.researchRunId) && decide (c.decision = .selected) &&
  decide (c.lifecycleStatus ∉ ["closed", "expired", "rejected", "skipped", "blocked"]) &&
  !reviewedUnder db accountId snapshotId c.id && request.scope c &&
  decide (request.assess c ≠ .missing)

/-- The order statuses the count column of the query knows. -/
def countedOrderStatuses : List String :=
  ["new", "accepted", "pending_new", "partially_filled", "held", "pending_cancel"]

/-- `entrySourceSql`. -/
def entrySource (db : Db) (request : EntryReviewRequest) : List ReviewSourceRow :=
  match do
    let account ← currentAccount db
    let snapshot ← latestSnapshot db account.id
    let allocation ← reviewAllocation db account.id
    let limits ← reviewLimits db account.id
    return (account, snapshot, allocation, limits) with
  | none => []
  | some (account, snapshot, allocation, limits) =>
    let candidates := (db.candidates.rows.filter
      (reviewable db request account.id snapshot.id)).insertionSort fun a b ↦
        a.rank < b.rank ∨ (a.rank = b.rank ∧ a.id ≤ b.id)
    (candidates.take request.maxCandidates).map fun candidate ↦
      { candidate, account, snapshot, allocation, limits
        portfolio := reviewExposure db account.id
        openPositionCount := db.positions.count fun p ↦
          decide (p.accountId = account.id) && p.held &&
          (decide (p.symbol = candidate.symbol) ||
            (candidate.optionSymbol.isSome && decide (p.optionSymbol = candidate.optionSymbol)))
        openOrderCount := db.orders.count fun o ↦ o.accountId = account.id ∧
          o.status ∈ countedOrderStatuses ∧ o.symbol = candidate.orderSymbol }

/-! ## The shared context -/

/-- `positionExposure`: an entry with a blank field is dropped. -/
def positionExposure (id symbol underlyingSymbol : String) (direction : CandidateDirection)
    (resourceExposure : Option ℚ) : Option PortfolioExposure :=
  if Text.trim id ≠ "" ∧ Arbitration.normalized symbol ≠ "" ∧
      Arbitration.normalized underlyingSymbol ≠ "" then
    some
      { id := Text.trim id
        symbol := Arbitration.normalized symbol
        underlyingSymbol := Arbitration.normalized underlyingSymbol
        direction
        resourceExposure := resourceExposure.filter (0 ≤ ·) }
  else none

/-- The direction of a side. -/
def OrderSide.direction : OrderSide → CandidateDirection
  | .buy | .buyToOpen => .long
  | _ => .short

/-- The direction of a position. -/
def PositionSide.direction : PositionSide → CandidateDirection
  | .long => .long
  | .short => .short

/-- `shared_positions`, as the service reads them. -/
def sharedPositions (db : Db) (accountId : String) : List PortfolioExposure :=
  (db.positions.rows.filter fun p ↦ decide (p.accountId = accountId) && p.held).filterMap fun p ↦
    positionExposure p.id (p.optionSymbol.getD p.symbol) (p.underlyingSymbol.getD p.symbol)
      p.side.direction ((p.marketValue <|> p.costBasis).map (|·|))

/-- The resource exposure of an order. -/
def Order.resourceExposure (o : Order) (intent : Option Intent) : Option ℚ :=
  let risk := intent.bind fun i ↦ i.maxRisk <|> i.estimatedPremium
  let exposure := match o.assetClass with
    | .option => risk
    | .equity => o.notional <|>
        (do
          let quantity ← o.quantity
          let price ← o.limitPrice <|> intent.bind (·.limitPrice)
          return quantity * price) <|> risk
  exposure.map (|·|)

/-- `lower(btrim(status))` is one of the terminal statuses. -/
def Order.terminal (o : Order) : Bool :=
  Text.toLowerCase (Text.btrim o.status) ∈ terminalBrokerOrderStatuses

/-- `shared_open_orders`, as the service reads them. -/
def sharedOpenOrders (db : Db) (accountId : String) : List PortfolioOrderExposure :=
  (db.orders.rows.filter fun o ↦ decide (o.accountId = accountId) &&
      !o.terminal).filterMap fun o ↦ do
    let intent := db.intents.get? o.orderIntentId
    let base ← positionExposure o.id o.symbol
      ((intent.bind (·.underlyingSymbol)).getD o.symbol) o.side.direction
      (o.resourceExposure intent)
    if Text.trim o.status ≠ "" then some { base with status := Text.trim o.status } else none

/-- The statuses of an intent that is on its way. -/
def pendingStatuses : List IntentStatus :=
  [.created, .readyForSubmission, .submissionPending, .submitted, .ambiguous]

/-- The conjuncts of `shared_pending_commitments`. -/
def pendingCommitment (db : Db) (accountId : String) (i : Intent) : Bool :=
  decide (i.accountId = accountId ∧ i.reservationId = none ∧ i.status ∈ pendingStatuses) &&
  !(db.orders.rows.any (·.orderIntentId = i.id))

/-- `shared_pending_commitments`, as the service reads them. -/
def sharedPendingCommitments (db : Db) (accountId : String) : List PortfolioExposure :=
  (db.intents.rows.filter (pendingCommitment db accountId)).filterMap fun i ↦
    positionExposure i.id i.symbol (i.underlyingSymbol.getD i.symbol) i.side.direction
      ((i.maxRisk <|> i.notional <|> i.estimatedPremium).map (|·|))

/-- The positions with those only the count columns know of. -/
def countedPositions (rows : List ReviewSourceRow) (positions : List PortfolioExposure) :
    List PortfolioExposure :=
  rows.foldl (fun known row ↦
    let symbol := Arbitration.normalized row.candidate.orderSymbol
    if 0 < row.openPositionCount ∧ ¬ known.any (·.symbol = symbol) then
      known ++ [
        { id := "postgres-position:" ++ row.candidate.id
          symbol
          underlyingSymbol := Arbitration.normalized row.candidate.symbol
          direction := row.candidate.direction
          resourceExposure := none }]
    else known) positions

/-- The orders with those only the count columns know of. -/
def countedOrders (rows : List ReviewSourceRow) (orders : List PortfolioOrderExposure) :
    List PortfolioOrderExposure :=
  rows.foldl (fun known row ↦
    let symbol := Arbitration.normalized row.candidate.orderSymbol
    if 0 < row.openOrderCount ∧ ¬ known.any (·.symbol = symbol) then
      known ++ [
        { id := "postgres-order:" ++ row.candidate.id
          symbol
          underlyingSymbol := Arbitration.normalized row.candidate.symbol
          direction := row.candidate.direction
          resourceExposure := none
          status := "active_postgres_count" }]
    else known) orders

/-- The amounts of the shared context. -/
structure SharedAmounts where
  buyingPower : Option ℚ
  optionsBuyingPower : Option ℚ
  cash : Option ℚ
  portfolioCapacity : Option ℚ

/-- The amounts left by the limits of the account and the pending commitments, or none when a
commitment has no known size. -/
def sharedAmounts (row : ReviewSourceRow) (buyingPower cash equity : ℚ)
    (pending : Option ℚ) : SharedAmounts :=
  let optionsBuyingPower := row.snapshot.optionsBuyingPower.getD buyingPower
  let cashReserve := row.limits.cashReserveAmount.getD
    (equity * row.limits.cashReserveRatio.getD 0)
  let allocationLimit := row.allocation.allocationAmount.getD
    ((row.allocation.allocationRatio.map (buyingPower * ·)).getD buyingPower)
  let portfolioDeployed := (row.portfolio.map (·.deployedAmount)).getD
    row.allocation.deployedAmount
  let grossExposure := (row.portfolio.map (·.grossExposure)).getD portfolioDeployed
  let openOrderExposure := (row.portfolio.map (·.openOrderExposure)).getD 0
  let below (limit : Option ℚ) (used : ℚ) : ℚ :=
    (limit.map fun l ↦ max 0 (l - used)).getD buyingPower
  let allocationRemaining := max 0
    (allocationLimit - row.allocation.reservedAmount - row.allocation.deployedAmount)
  let deploymentRemaining := min (below row.limits.maxDeploymentAmount portfolioDeployed)
    (below (row.limits.maxDeploymentRatio.map (equity * ·)) portfolioDeployed)
  let grossRemaining := below row.limits.maxGrossExposure grossExposure
  let openOrderRemaining := below row.limits.maxOpenOrderExposure openOrderExposure
  let after (amount : ℚ) : Option ℚ := pending.map fun p ↦ max 0 (amount - p)
  { buyingPower := after buyingPower
    optionsBuyingPower := after optionsBuyingPower
    cash := after (cash - cashReserve)
    portfolioCapacity := do
      let available ← [buyingPower, cash - cashReserve, allocationRemaining, deploymentRemaining,
        grossRemaining, openOrderRemaining].mapM after
      let least ← available.min?
      return ⌊least * 100⌋ / 100 }

section Review

variable [Hashing]

/-- The text of an amount in a fingerprint. -/
def amountText (amount : Option ℚ) : String := (amount.map Text.ofDecimal).getD "null"

/-- The text of exposures in a fingerprint. -/
def exposuresText (exposures : List PortfolioExposure) : String :=
  ";".intercalate (exposures.map fun e ↦ e.id ++ "," ++ e.symbol ++ "," ++ e.underlyingSymbol ++
    "," ++ amountText e.resourceExposure)

/-- `portfolioResourceContext`. -/
def portfolioResourceContext (db : Db) (shared : ReviewSourceRow) (rows : List ReviewSourceRow) :
    Except String PortfolioResourceContext := do
  require (rows.all fun row ↦ row.account.id = shared.account.id ∧
      row.snapshot.id = shared.snapshot.id ∧
      row.snapshot.snapshotFingerprint = shared.snapshot.snapshotFingerprint)
    "POSTGRES_PORTFOLIO_ARBITRATION_CONTEXT_MISMATCH"
  match shared.snapshot.buyingPower, shared.snapshot.cash, shared.snapshot.equity with
  | some buyingPower, some cash, some equity =>
    let existingPositions := (countedPositions rows
      (sharedPositions db shared.account.id)).insertionSort fun a b ↦ a.id ≤ b.id
    let openOrders := (countedOrders rows (sharedOpenOrders db shared.account.id)).insertionSort
      fun a b ↦ a.id ≤ b.id
    let pendingCommitments := (sharedPendingCommitments db shared.account.id).insertionSort
      fun a b ↦ a.id ≤ b.id
    let pending := (pendingCommitments.mapM PortfolioExposure.resourceExposure).map List.sum
    let amounts := sharedAmounts shared buyingPower cash equity pending
    let held := db.positions.rows.filter fun p ↦ decide (p.accountId = shared.account.id) && p.held
    let open' := db.orders.rows.filter fun o ↦ decide (o.accountId = shared.account.id) &&
      !o.terminal
    return {
      contextId := shared.snapshot.id
      contextVersion := Hashing.canonicalJsonHash
        [("accountSnapshotId", shared.snapshot.id),
          ("accountFingerprint", shared.snapshot.snapshotFingerprint),
          ("buyingPowerAvailable", amountText amounts.buyingPower),
          ("optionsBuyingPowerAvailable", amountText amounts.optionsBuyingPower),
          ("cashAvailable", amountText amounts.cash),
          ("portfolioCapacityAvailable", amountText amounts.portfolioCapacity),
          ("currentPositions", exposuresText existingPositions),
          ("currentOpenOrders", exposuresText (openOrders.map (·.toPortfolioExposure))),
          ("pendingCommitments", exposuresText pendingCommitments)]
      buyingPowerAvailable := amounts.buyingPower
      optionsBuyingPowerAvailable := amounts.optionsBuyingPower
      cashAvailable := amounts.cash
      portfolioCapacityAvailable := amounts.portfolioCapacity
      maxUnderlyingExposure := none
      existingPositions
      openOrders
      pendingCommitments
      laneCapacityAvailable := fun _ ↦ none
      accountSnapshotAsOf := some shared.snapshot.observedAt
      positionSnapshotAsOf := some
        ((held.map fun p ↦ p.lastReconciledAt.getD p.updatedAt).max?.getD
          shared.snapshot.observedAt)
      openOrderSnapshotAsOf := some
        ((open'.map fun o ↦ o.lastBrokerUpdateAt.getD o.updatedAt).max?.getD
          shared.snapshot.observedAt) }
  | _, _, _ => throw "POSTGRES_REVIEW_ACCOUNT_SIZING_EVIDENCE_MISSING"

/-! ## Proposals -/

/-- The trimmed, lower-case strategy family of a candidate. -/
def Candidate.family (c : Candidate) : String :=
  Text.toLowerCase (Text.trim (c.strategyFamily.getD ""))

/-- `arbitrationLane`. -/
def arbitrationLane (c : Candidate) : WorkstreamLane :=
  if c.family = "zero_dte_spy" then .options0dte
  else if c.family = "leaps" then .optionsLeaps
  else .equity

/-- `arbitrationPriority`. -/
def arbitrationPriority : WorkstreamLane → ℚ
  | .equity => 0
  | .options0dte => 1
  | .optionsLeaps => 2

/-- The candidate sells equity short. -/
def Candidate.shortEquity (c : Candidate) : Bool := c.assetClass = .equity ∧ c.direction = .short

/-- The capital of one unit of the order. -/
def unitResource (c : Candidate) (e : EntryEvidence) : Option ℚ :=
  if c.assetClass = .option then e.contractMultiplier.map (e.price * ·)
  else if c.shortEquity then some e.price
  else some (1 / 100)

/-- The whole units an amount pays for. -/
def unitsFor (c : Candidate) (e : EntryEvidence) (amount : ℚ) : Option ℚ :=
  (unitResource c e).map fun unit ↦ ⌊amount / unit⌋

/-- The proposal of an eligible row. -/
def proposalFor (cycleId : String) (row : ReviewSourceRow) (e : EntryEvidence) :
    PortfolioArbitrationProposal :=
  let c := row.candidate
  let option := decide (c.assetClass = .option)
  let requestedQuantity :=
    if option then e.leapsQuantity <|> unitsFor c e e.amount
    else if c.shortEquity then unitsFor c e e.amount
    else none
  let resourceRequirement :=
    if option || c.shortEquity then (unitResource c e).map (· * requestedQuantity.getD 0)
    else some e.amount
  { proposalId := c.id
    cycleId
    lane := arbitrationLane c
    strategyPriority := arbitrationPriority (arbitrationLane c)
    score := some c.score
    confidence := some c.confidence
    symbol := Text.toUpperCase c.orderSymbol
    underlyingSymbol := Text.toUpperCase c.symbol
    contractId := if option then some (e.contractId.getD (c.optionSymbol.getD "")) else none
    direction := c.direction
    assetClass := c.assetClass
    requestedQuantity
    requestedNotional := resourceRequirement
    resourceRequirement
    unitResource := unitResource c e
    resizeMode :=
      if option then .wholeContracts else if c.shortEquity then .wholeShares else .notional }

/-! ## Reviews and intents -/

/-- An approved row: its evidence, its decision and the approved amount. -/
structure ApprovedRow where
  row : ReviewSourceRow
  evidence : EntryEvidence
  decision : PortfolioArbitrationDecision
  amount : ℚ

/-- The classification of the strategy of an entry. -/
def ApprovedRow.classification (a : ApprovedRow) : StrategyClassification :=
  let c := a.row.candidate
  if c.assetClass = .option then
    if c.family = "leaps" then if a.evidence.call then .leapsLongCall else .leapsLongPut
    else if c.family = "zero_dte_spy" then
      if a.evidence.call then .zeroDteLongCall else .zeroDteLongPut
    else a.evidence.optionClassification
  else if c.shortEquity then .equityShort
  else .equityLong

/-- The quantity of the order; long equity is sized by its notional. -/
def ApprovedRow.quantity (a : ApprovedRow) : Option ℚ :=
  let c := a.row.candidate
  if c.assetClass = .option then
    a.decision.approvedQuantity <|> a.evidence.leapsQuantity <|> unitsFor c a.evidence a.amount
  else if c.shortEquity then a.decision.approvedQuantity <|> unitsFor c a.evidence a.amount
  else none

/-- The cost of an option position. -/
def ApprovedRow.positionCost (a : ApprovedRow) : Option ℚ :=
  if a.row.candidate.assetClass = .option then
    if a.evidence.leapsQuantity.isSome then some a.amount
    else (unitResource a.row.candidate a.evidence).map (· * a.quantity.getD 0)
  else none

/-- The order of an approved row, with the columns a review and an intent share. -/
def ApprovedRow.order (a : ApprovedRow) : Intent :=
  let c := a.row.candidate
  let option := decide (c.assetClass = .option)
  { id := ""
    accountId := a.row.account.id
    candidateId := some c.id
    clientOrderId := "pg-" ++ String.ofList ((Hashing.canonicalJsonHash
      [("account", a.row.account.id), ("candidate", c.id),
        ("snapshot", a.row.snapshot.id)]).toList.take 32)
    strategyKey := a.row.allocation.strategyKey
    symbol := c.orderSymbol
    underlyingSymbol := if option then some c.symbol else none
    assetClass := c.assetClass
    side := if option then .buyToOpen else if c.direction = .short then .sell else .buy
    operation := some (if !option && c.shortEquity then .sellToOpen else .buyToOpen)
    strategyClassification := some a.classification
    orderType := if option then .limit else .market
    timeInForce := .day
    quantity := a.quantity
    notional := if option || c.shortEquity then none else some a.amount
    limitPrice := if option then some a.evidence.price else none }

/-- The order document of a review. -/
def reviewedOrder (order : Intent) : ReviewedOrder where
  clientOrderId := some order.clientOrderId
  symbol := some order.symbol
  assetClass := some order.assetClass
  side := some order.side
  operation := order.operation
  orderType := some order.orderType
  timeInForce := some order.timeInForce
  strategyKey := some order.strategyKey
  quantity := order.quantity.map Text.ofDecimal
  notional := order.notional.map Text.ofDecimal
  limitPrice := order.limitPrice.map Text.ofDecimal

/-- The order document in a fingerprint. -/
def orderFields (order : Intent) : List (String × String) :=
  [("orderIntent.symbol", order.symbol), ("orderIntent.quantity", amountText order.quantity),
    ("orderIntent.notional", amountText order.notional),
    ("orderIntent.limitPrice", amountText order.limitPrice),
    ("orderIntent.clientOrderId", order.clientOrderId),
    ("orderIntent.strategyKey", order.strategyKey)]

/-- The payload fingerprint of a review. -/
def ApprovedRow.payloadFingerprint (a : ApprovedRow) : String :=
  Hashing.canonicalJsonHash
    ([("candidateId", a.row.candidate.id), ("accountSnapshotId", a.row.snapshot.id),
      ("accountFingerprint", a.row.snapshot.structuralPortfolioFingerprint.getD "")] ++
      orderFields a.order ++
      [("marketEvidence", a.evidence.marketEvidence),
        ("portfolioArbitration.arbitrationId", a.decision.arbitrationId),
        ("portfolioArbitration.rank", toString a.decision.rank),
        ("portfolioArbitration.reasonCodes", ",".intercalate a.decision.reasonCodes),
        ("portfolioArbitration.sharedContextVersion", a.decision.sharedContextVersion)])

/-- The review of an approved row. -/
def ApprovedRow.review (a : ApprovedRow) (sign : String → String) (now : Time) : Review where
  id := "review_" ++ a.payloadFingerprint
  accountId := a.row.account.id
  candidateId := some a.row.candidate.id
  reviewType := .entry
  status := .valid
  clientOrderId := some a.order.clientOrderId
  accountFingerprint := a.row.snapshot.structuralPortfolioFingerprint.getD ""
  sourceSnapshotId := some a.row.snapshot.id
  payloadFingerprint := a.payloadFingerprint
  signature := sign a.payloadFingerprint
  orderIntent := reviewedOrder a.order
  expiresAt := now + 15 * 60000
  updatedAt := now

/-- The intent of an approved row. -/
def ApprovedRow.intent (a : ApprovedRow) (now : Time) : Intent :=
  let reviewId := "review_" ++ a.payloadFingerprint
  { a.order with
    id := "intent_" ++ Hashing.canonicalJsonHash (("reviewId", reviewId) :: orderFields a.order)
    executionReviewId := some reviewId
    estimatedPremium := a.positionCost
    maxRisk :=
      if a.row.candidate.shortEquity then some (a.evidence.price * a.quantity.getD 0)
      else a.positionCost <|> some a.amount
    status := .created
    lifecycleState := .reviewCreated
    contractId :=
      if a.row.candidate.assetClass = .option then some (a.evidence.contractId.getD "") else none
    createdAt := now
    updatedAt := now }

/-! ## Statements -/

/-- The statements of an entry review. -/
inductive EntryStatement where
  /-- `persistCandidateStage`. -/
  | stage (candidateId status reason : String)
  /-- `persistPortfolioArbitrationDecisions`, whose table nothing here reads. -/
  | decisions (recorded : Bool)
  | review (r : Review)
  | intent (i : Intent)
  /-- An error thrown between two statements. -/
  | throw (code : String)

/-- One statement of an entry review. -/
def EntryStatement.apply (session : Session) (now : Time) (db : Db) :
    EntryStatement → Except String Db
  | stage candidateId status reason =>
    persistCandidateExecutionStage db (some candidateId) session now status reason
  | decisions recorded => do
    require (fenceHeld db session) "POSTGRES_PORTFOLIO_ARBITRATION_FENCE_REJECTED"
    require recorded "POSTGRES_PORTFOLIO_ARBITRATION_IDEMPOTENCY_CONFLICT"
    return db
  | review r =>
    -- `ON CONFLICT (account_id, payload_fingerprint) DO NOTHING`
    if fenceHeld db session ∧ ¬ db.reviews.rows.any (fun x ↦ x.accountId = r.accountId ∧
        x.payloadFingerprint = r.payloadFingerprint) then do
      let reviews ← db.reviews.insertOne r "execution_reviews_pkey"
      return { db with reviews }
    else .ok db
  | intent i =>
    -- `ON CONFLICT (account_id, intent_fingerprint) DO NOTHING`; the identifier is made of the
    -- fingerprint.
    if fenceHeld db session ∧ ¬ db.intents.rows.any (fun x ↦ x.accountId = i.accountId ∧
        x.id = i.id) then do
      require (i.executionReviewId.any fun id ↦ (db.reviews.get? id).isSome)
        "order_intents_execution_review_id_fkey"
      let intents ← db.intents.insertOne i "order_intents_pkey"
      return { db with intents }
    else .ok db
  | throw code => .error code

/-- The statements in order; an error ends the sequence. -/
def runEntryStatements (session : Session) (now : Time) :
    Db → List EntryStatement → Db × Except String Unit
  | db, [] => (db, .ok ())
  | db, statement :: rest =>
    match statement.apply session now db with
    | .error code => (db, .error code)
    | .ok db' => runEntryStatements session now db' rest

/-! ## The workflow -/

/-- The eligible rows with their evidence. -/
def eligibleRows (request : EntryReviewRequest) (rows : List ReviewSourceRow) :
    List (ReviewSourceRow × EntryEvidence) :=
  rows.filterMap fun row ↦ match request.assess row.candidate with
    | .eligible e => some (row, e)
    | _ => none

/-- The arbitration of the eligible rows. -/
def entryArbitration (request : EntryReviewRequest) (session : Session)
    (context : PortfolioResourceContext) (first : ReviewSourceRow)
    (eligible : List (ReviewSourceRow × EntryEvidence)) : ArbitrationInput :=
  let cycleId :=
    if Text.trim request.cycleId ≠ "" then Text.trim request.cycleId
    else if first.candidate.researchRunId ≠ "" then first.candidate.researchRunId
    else session.fence.runId
  { arbitrationId := "portfolio_arbitration_" ++ Hashing.canonicalJsonHash
      [("cycleId", cycleId), ("accountId", first.account.id),
        ("accountSnapshotId", first.snapshot.id), ("contextVersion", context.contextVersion)]
    cycleId
    proposals := eligible.map fun (row, e) ↦ proposalFor cycleId row e
    context }

/-- The decision about a candidate; a later one replaces an earlier one. -/
def decisionFor (decisions : List PortfolioArbitrationDecision) (candidateId : String) :
    Option PortfolioArbitrationDecision :=
  decisions.reverse.find? (·.proposalId = candidateId)

/-- The rows that go on to a review. -/
def approvedRows (decisions : List PortfolioArbitrationDecision)
    (eligible : List (ReviewSourceRow × EntryEvidence)) : List ApprovedRow :=
  eligible.filterMap fun (row, evidence) ↦ do
    let decision ← decisionFor decisions row.candidate.id
    let amount ← decision.approvedResourceRequirement
    if decision.action ≠ .skip then some { row, evidence, decision, amount } else none

/-- The statements about the decisions: skipped candidates are marked. -/
def decisionStatements (decisions : List PortfolioArbitrationDecision)
    (eligible : List (ReviewSourceRow × EntryEvidence)) : List EntryStatement :=
  eligible.flatMap fun (row, _) ↦ match decisionFor decisions row.candidate.id with
    | none => [.throw "POSTGRES_PORTFOLIO_ARBITRATION_DECISION_MISSING"]
    | some decision =>
      if decision.action = .skip then
        [.stage row.candidate.id "skipped"
          (decision.reasonCodes.head?.getD "ARBITRATION_SKIPPED_NO_VALID_RESIZE")]
      else if decision.approvedResourceRequirement.any (0 < ·) then []
      else [.throw "POSTGRES_PORTFOLIO_ARBITRATION_APPROVED_SIZE_MISSING"]

/-- The statements that store an approved row. -/
def ApprovedRow.statements (a : ApprovedRow) (request : EntryReviewRequest) :
    List EntryStatement :=
  [.review (a.review request.sign request.now), .intent (a.intent request.now),
    .stage a.row.candidate.id "sized" "PAPER_ORDER_INTENT_CREATED"]

/-- The statements from the arbitration on. -/
def arbitratedStatements (db : Db) (request : EntryReviewRequest) (session : Session)
    (shared first : ReviewSourceRow) (rows : List ReviewSourceRow)
    (eligible : List (ReviewSourceRow × EntryEvidence)) : List EntryStatement :=
  match do
    let context ← portfolioResourceContext db shared rows
    arbitratePortfolioResources (entryArbitration request session context first eligible) with
  | .error code => [.throw code]
  | .ok result =>
    .decisions request.decisionsRecorded :: decisionStatements result.decisions eligible ++
      (approvedRows result.decisions eligible).flatMap (·.statements request)

/-- The rows of one kind, with their reasons. -/
def stageRows (rows : List ReviewSourceRow) (reason : Candidate → Option String) :
    List EntryStatement :=
  rows.filterMap fun row ↦ (reason row.candidate).map (.stage row.candidate.id "blocked")

/-- The statements of an entry review, or the error it throws before the first of them. -/
def planEntryReview (db : Db) (request : EntryReviewRequest) (session : Session) :
    Except String (List EntryStatement) := do
  require (16 ≤ request.signingKey.length) "PAPER_REVIEW_SIGNING_KEY_REQUIRED"
  let rows := entrySource db request
  for row in rows do
    require (row.snapshot.structuralPortfolioFingerprint.any (· ≠ "") ∧
        row.snapshot.snapshotFingerprint ≠ "") "POSTGRES_REVIEW_ACCOUNT_FINGERPRINT_MISSING"
    match request.assess row.candidate with
    | .failed code => Except.error code
    | _ => pure ()
  let stages := stageRows rows (fun c ↦ match request.assess c with
      | .blocked reason => some reason
      | _ => none) ++
    stageRows rows (fun c ↦ match request.assess c with
      | .unaffordable reason => some reason
      | _ => none)
  match rows, eligibleRows request rows with
  | shared :: _, (first, e) :: eligible =>
    return stages ++
      arbitratedStatements db request session shared first rows ((first, e) :: eligible)
  | _, _ => return stages

/-- The entry commands of `runPostgresReviewWorkflow`. -/
def runEntryReview (db : Db) (request : EntryReviewRequest) (session : Session) :
    Db × Except String Unit :=
  match planEntryReview db request session with
  | .error code => (db, .error code)
  | .ok statements => runEntryStatements session request.now db statements

end Review

end AlpacaTrading
