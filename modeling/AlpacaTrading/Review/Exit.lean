import AlpacaTrading.Market.Option
import AlpacaTrading.Review.Entry

/-!
# The exit review

The exit commands of `runPostgresReviewWorkflow` read the open positions with their opening
lineage and their market data, check the evidence of every row, and store a review, a confirmation
and a ready intent for each position that meets the exit policy.

All rows are checked before the first is stored, and a check that fails ends the review for every
position.  The rows that pass are then stored one statement after the other, each committing by
itself; an error leaves what was written before it.

The query lists its columns by name.  It selects none for the multiplier of a contract, which the
check shared with the entry review reads.
-/

namespace AlpacaTrading

/-! ## Requests -/

/-- `EXIT_REVIEW_COMMANDS`. -/
inductive ExitCommand where
  | paperExitReview | hedgeExitReview | zeroDteExitReview
deriving DecidableEq, Repr

/-- The text of a command. -/
def ExitCommand.name : ExitCommand → String
  | paperExitReview => "paper:exit:review"
  | hedgeExitReview => "hedge:exit:review"
  | zeroDteExitReview => "zero-dte:exit:review"

/-- The members of `paperLeapsExitConfig` an exit review reads, with their defaults. -/
structure LeapsExitConfig where
  dteExitThreshold : Int := 180
  hardStopLossPct : ℚ := -35
  fullProfitTakePct : ℚ := 125
  severeTrendExitSma : Nat := 200
deriving DecidableEq

/-- The arguments of an exit review, with the configuration it reads. -/
structure ExitReviewRequest where
  command : ExitCommand
  /-- The signature of a payload fingerprint under the signing key. -/
  sign : String → String := fun fingerprint ↦ fingerprint
  now : Time
  maxMarketAgeSeconds : ℚ := autonomousMarketDataFreshnessSeconds
  /-- `optionsQuoteConfig().maxAgeMs`. -/
  optionMaxAgeMs : ℚ := 900000
  maximumOptionSpreadPct : ℚ
  leaps : LeapsExitConfig := {}

/-! ## The source query -/

/-- A row of `exitSourceSql`. -/
structure ExitSourceRow where
  position : Position
  account : Account
  snapshot : AccountSnapshot
  /-- The intent of the opening order. -/
  opening : Option Intent
  allocation : Option Allocation
  marketPrice : ℚ
  marketTimestamp : Time
  marketEvidence : OptionQuote
  underlyingClose : Option ℚ
  severeTrendSma : Option ℚ
  severeTrendBarCount : Option Nat
  columns : OptionColumns

/-- The lifecycle states the query takes for the end of an exit. -/
def exitOverStates : List LifecycleState :=
  [.closed, .cancelled, .rejected, .expired, .failedTerminal]

/-- `lifecycle_state NOT IN (…)`: the intent closes the position and is not over. -/
def Intent.liveExitOf (i : Intent) (positionId : String) : Bool :=
  i.parentPositionId = some positionId ∧ i.lifecycleState ∉ exitOverStates

/-- `substring(… from '[0-9]{6}')`. -/
def firstSixDigits : List Char → Option String
  | [] => none
  | c :: rest =>
    if 6 ≤ (c :: rest).length ∧ ((c :: rest).take 6).all Char.isDigit then
      some (String.ofList ((c :: rest).take 6))
    else firstSixDigits rest

/-- `to_char(now() AT TIME ZONE 'America/New_York', 'YYMMDD')`. -/
def newYorkYYMMDD (dbNow : Time) : String :=
  let parts := newYorkParts dbNow
  twoDigits (parts.year % 100) ++ twoDigits parts.month ++ twoDigits parts.day

/-- The intent of the opening order of a position. -/
def openingIntent (db : Db) (p : Position) : Option Intent := do
  let orderId ← p.openingOrderId
  let order ← db.orders.get? orderId
  db.intents.get? order.orderIntentId

/-- The filter of the command. -/
def ExitCommand.selects (command : ExitCommand) (dbNow : Time) (p : Position)
    (opening : Option Intent) : Bool :=
  match command with
  | .paperExitReview => true
  | .hedgeExitReview => opening.all fun i ↦ Text.containsIgnoreCase "hedge" i.strategyKey
  | .zeroDteExitReview =>
    decide (p.assetClass = .option) &&
      (p.optionSymbol.bind fun s ↦ firstSixDigits s.toList) == some (newYorkYYMMDD dbNow)

/-- The `WHERE` clause of `exitSourceSql`. -/
def exitable (db : Db) (command : ExitCommand) (accountId : String) (dbNow : Time)
    (p : Position) : Bool :=
  decide (p.accountId = accountId ∧ p.status = .open) && p.availableQuantity.any (0 < ·) &&
  !(db.intents.rows.any (·.liveExitOf p.id)) && command.selects dbNow p (openingIntent db p)

/-- The allocation of the opening strategy, a current one first. -/
def exitAllocation (db : Db) (accountId strategyKey : String) : Option Allocation :=
  firstBy (fun a b ↦ (a.current ∧ ¬ b.current) ∨ ((a.current ↔ b.current) ∧
      (b.updatedAt < a.updatedAt ∨ (a.updatedAt = b.updatedAt ∧ a.id < b.id))))
    (db.allocations.rows.filter fun a ↦ a.accountId = accountId ∧ a.strategyKey = strategyKey)

/-- The market price, its timestamp and the evidence: of the option, or of the stock. -/
def exitMarket (market : Market) (p : Position) : Option (ℚ × Time × OptionQuote) :=
  match p.optionSymbol with
  | some optionSymbol => do
    let s ← market.option optionSymbol
    let price ← s.bid <|> s.midpoint <|> s.last
    let timestamp := (s.quoteTimestamp <|> s.snapshotTimestamp <|> s.tradeTimestamp).getD
      s.observedAt
    let provider := if s.source ∈ ["alpaca", "alpaca_opra_stream"] then "alpaca" else s.source
    return (price, timestamp,
      { bid := s.bid, ask := s.ask, spreadPct := s.spreadPct, volume := s.volume
        openInterest := s.openInterest, requestedFeed := s.requestedFeed
        effectiveFeed := s.effectiveFeed, provider := some provider })
  | none => do
    let bar ← (market.daily p.symbol).head?
    let stock := market.stock p.symbol
    let price := (stock.bind fun s ↦ s.midpoint <|> s.latestTradePrice <|> s.minuteClose <|>
      s.dailyClose).getD bar.close
    return (price, (stock.bind (·.sourceTimestamp)).getD bar.observedAt, {})

/-- The columns about an option that `exitSourceSql` selects; the multiplier of the contract is
not among them. -/
def exitColumns (market : Market) (p : Position) : OptionColumns :=
  let contract := market.contracts.find? fun c ↦ some c.optionSymbol = p.optionSymbol
  let sip := p.optionSymbol.bind fun _ ↦ market.stock p.symbol
  { symbol := p.symbol
    optionSymbol := p.optionSymbol.getD p.symbol
    contractId := contract.bind (·.contractId)
    contractOptionSymbol := contract.map (·.optionSymbol)
    contractUnderlyingSymbol := contract.map (·.underlyingSymbol)
    contractType := contract.map (·.type)
    contractExpirationDate := contract.map (·.expirationDate)
    contractTradable := contract.map (·.tradable)
    contractStatus := contract.bind (·.status)
    contractSource := contract.map (·.source)
    contractObservedAt := contract.map (·.observedAt)
    sipUnderlyingSymbol := sip.map (·.symbol)
    sipMarketPrice := sip.bind fun s ↦ s.midpoint <|> s.latestTradePrice <|>
      s.currentTradablePrice <|> s.marketReferencePrice <|> s.minuteClose <|> s.dailyClose
    sipMarketTimestamp := sip.bind (·.sourceTimestamp)
    sipRequestedFeed := sip.map (·.requestedFeed)
    sipEffectiveFeed := sip.map (·.effectiveFeed)
    sipProvider := sip.map (·.source) }

/-- The closes of `leaps_trend`. -/
def trendCloses (market : Market) (leaps : LeapsExitConfig) (p : Position) : List ℚ :=
  ((market.daily p.symbol).take (min 1000 leaps.severeTrendExitSma)).map (·.close)

/-- The row of a position; a position without a positive market price has none. -/
def exitRow (db : Db) (market : Market) (leaps : LeapsExitConfig) (account : Account)
    (snapshot : AccountSnapshot) (p : Position) : Option ExitSourceRow := do
  let (marketPrice, marketTimestamp, marketEvidence) ← exitMarket market p
  let opening := openingIntent db p
  let closes := trendCloses market leaps p
  let option := decide (p.assetClass = .option)
  if 0 < marketPrice then
    some
      { position := p, account, snapshot, opening, marketPrice, marketTimestamp, marketEvidence
        allocation := opening.bind fun i ↦ exitAllocation db account.id i.strategyKey
        underlyingClose := if option then closes.head? else none
        severeTrendSma :=
          if option && !closes.isEmpty then some (closes.sum / closes.length) else none
        severeTrendBarCount := if option then some closes.length else none
        columns := exitColumns market p }
  else none

/-- `exitSourceSql`. -/
def exitSource (db : Db) (market : Market) (request : ExitReviewRequest) (dbNow : Time) :
    List ExitSourceRow :=
  match do
    let account ← currentAccount db
    let snapshot ← latestSnapshot db account.id
    return (account, snapshot) with
  | none => []
  | some (account, snapshot) =>
    ((db.positions.rows.filter (exitable db request.command account.id dbNow)).insertionSort
      fun a b ↦ a.openedAt < b.openedAt ∨ (a.openedAt = b.openedAt ∧ a.id ≤ b.id)).filterMap
        (exitRow db market request.leaps account snapshot)

/-! ## The policy -/

inductive ExitReason where
  | leapsHardStopLoss | leapsFullProfitTake | leapsDteExitWindow | leapsSevereTrendBreak
  | odteForceExitBeforeClose | odteStopLoss50 | odteTakeProfit50
  | equityStopLoss5 | equityTakeProfit8
deriving DecidableEq, Repr

/-- The text of a reason. -/
def ExitReason.name : ExitReason → String
  | leapsHardStopLoss => "LEAPS_HARD_STOP_LOSS"
  | leapsFullProfitTake => "LEAPS_FULL_PROFIT_TAKE"
  | leapsDteExitWindow => "LEAPS_DTE_EXIT_WINDOW"
  | leapsSevereTrendBreak => "LEAPS_SEVERE_TREND_BREAK"
  | odteForceExitBeforeClose => "ODTE_FORCE_EXIT_BEFORE_CLOSE"
  | odteStopLoss50 => "ODTE_STOP_LOSS_50"
  | odteTakeProfit50 => "ODTE_TAKE_PROFIT_50"
  | equityStopLoss5 => "EQUITY_STOP_LOSS_5"
  | equityTakeProfit8 => "EQUITY_TAKE_PROFIT_8"

namespace ExitSourceRow

/-- The position is one in an option. -/
def option (row : ExitSourceRow) : Bool := row.position.assetClass = .option

/-- `order_symbol`. -/
def orderSymbol (row : ExitSourceRow) : String :=
  row.position.optionSymbol.getD row.position.symbol

/-- `available_quantity`. -/
def quantity (row : ExitSourceRow) : ℚ := row.position.availableQuantity.getD 0

/-- `strategy_key`, as the checks read it. -/
def strategyKey (row : ExitSourceRow) : String :=
  Text.trim ((row.opening.map (·.strategyKey)).getD "")

/-- `candidate_id`. -/
def candidateId (row : ExitSourceRow) : Option String :=
  row.position.candidateId <|> row.opening.bind (·.candidateId)

/-- `directionalReturn` against an entry price. -/
def directionalReturn (row : ExitSourceRow) (entry : ℚ) : ℚ :=
  (row.marketPrice / entry - 1) * if row.position.side = .short then -1 else 1

/-- `strategyClassification`: the opening one of an option, the side of a stock. -/
def classification (row : ExitSourceRow) : Option StrategyClassification :=
  if row.option then row.opening.bind (·.strategyClassification)
  else some (if row.position.side = .short then .equityShort else .equityLong)

/-- `severeTrendBreak` of a LEAPS position. -/
def severeTrendBreak (row : ExitSourceRow) (leaps : LeapsExitConfig) : Bool :=
  match parseOptionSymbol row.orderSymbol, row.severeTrendBarCount, row.underlyingClose,
      row.severeTrendSma with
  | some parsed, some bars, some close, some sma =>
    decide (leaps.severeTrendExitSma ≤ bars) && match parsed.optionType with
      | .call => decide (close < sma)
      | .put => decide (sma < close)
  | _, _, _, _ => false

/-- `currentDte` has reached the exit window. -/
def inDteWindow (row : ExitSourceRow) (request : ExitReviewRequest) : Bool :=
  (parseOptionSymbol row.orderSymbol).any fun parsed ↦
    decide (optionDaysToExpiration parsed request.now ≤ request.leaps.dteExitThreshold)

/-- `reason`: why the position is closed, if it is. -/
def reason (row : ExitSourceRow) (request : ExitReviewRequest) (entry : ℚ) :
    Option ExitReason :=
  let return' := row.directionalReturn entry
  match row.option, row.classification with
  | true, some .leapsLongCall | true, some .leapsLongPut =>
    if return' * 100 ≤ request.leaps.hardStopLossPct then some .leapsHardStopLoss
    else if request.leaps.fullProfitTakePct ≤ return' * 100 then some .leapsFullProfitTake
    else if row.inDteWindow request then some .leapsDteExitWindow
    else if row.severeTrendBreak request.leaps then some .leapsSevereTrendBreak
    else none
  | true, classification =>
    if (classification = some .zeroDteLongCall ∨ classification = some .zeroDteLongPut) ∧
        isFinalThirtyMinutesForZeroDte row.orderSymbol request.now then
      some .odteForceExitBeforeClose
    else if return' ≤ -1 / 2 then some .odteStopLoss50
    else if 1 / 2 ≤ return' then some .odteTakeProfit50
    else none
  | false, _ =>
    if return' ≤ -5 / 100 then some .equityStopLoss5
    else if 8 / 100 ≤ return' then some .equityTakeProfit8
    else none

/-! ## Checks -/

/-- The opening classifications of an option that can be closed. -/
def closableClassifications : List StrategyClassification :=
  [.standardLongCall, .standardLongPut, .zeroDteLongCall, .zeroDteLongPut, .leapsLongCall,
    .leapsLongPut, .hedge]

/-- The checks of an option row, after those of every row. -/
def checkOption (row : ExitSourceRow) (request : ExitReviewRequest) : Except String Unit := do
  assertFreshAlpacaSipUnderlying "EXIT_REVIEW" row.columns request.now request.maxMarketAgeSeconds
  require (executableOptionEvidence row.marketEvidence request.maximumOptionSpreadPct
      row.columns.sipMarketPrice) ("POSTGRES_EXIT_REVIEW_OPTION_QUOTE_INVALID:" ++ row.orderSymbol)
  assertObservedOptionContract row.columns
  require (row.classification.any (· ∈ closableClassifications))
    ("POSTGRES_EXIT_OPENING_CLASSIFICATION_MISSING:" ++ row.orderSymbol)

/-- A blank text is called unknown. -/
def orUnknown (text : String) : String := if text = "" then "unknown" else text

/-- The seconds the market price may be old. -/
def maxAgeSeconds (row : ExitSourceRow) (request : ExitReviewRequest) : ℚ :=
  if row.option then min request.maxMarketAgeSeconds (request.optionMaxAgeMs / 1000)
  else request.maxMarketAgeSeconds

/-- The checks of a row; it passes with its entry price. -/
def check (row : ExitSourceRow) (request : ExitReviewRequest) : Except String ℚ := do
  require (decide (row.strategyKey ≠ "") && row.allocation.any fun a ↦
      decide (Text.trim a.id ≠ "") && a.current)
    ("POSTGRES_EXIT_ALLOCATION_AUTHORITY_MISSING:" ++ orUnknown (Text.trim row.position.id) ++
      ":" ++ orUnknown row.strategyKey)
  match row.position.averageEntryPrice with
  | none => throw ("POSTGRES_EXIT_REVIEW_EVIDENCE_INCOMPLETE:" ++ row.position.symbol)
  | some entry =>
    require (decide (0 < row.marketPrice ∧ 0 < entry ∧ 0 < row.quantity))
      ("POSTGRES_EXIT_REVIEW_EVIDENCE_INCOMPLETE:" ++ row.position.symbol)
    require (freshWithin request.now row.marketTimestamp (row.maxAgeSeconds request))
      ("POSTGRES_REVIEW_MARKET_EVIDENCE_STALE:" ++ row.position.symbol)
    if row.option then row.checkOption request
    return entry

end ExitSourceRow

/-! ## Items -/

/-- A position that is to be closed. -/
structure ExitItem where
  row : ExitSourceRow
  reason : ExitReason

/-- The item of a row whose checks have passed, if its position is to be closed. -/
def ExitSourceRow.item? (row : ExitSourceRow) (request : ExitReviewRequest) (entry : ℚ) :
    Option ExitItem :=
  (row.reason request entry).map fun reason ↦ { row, reason }

/-- The items of the rows, or the error of the first row that fails its checks. -/
def exitItems (request : ExitReviewRequest) : List ExitSourceRow → Except String (List ExitItem)
  | [] => .ok []
  | row :: rest => do
    let entry ← row.check request
    let items ← exitItems request rest
    return (row.item? request entry).toList ++ items

/-- The rows one statement stores. -/
structure ExitRecord where
  review : Review
  confirmation : Confirmation
  intent : Intent

section Records

variable [Hashing]

/-- `clientOrderId`. -/
def exitClientOrderId (accountId positionId snapshotId : String) : String :=
  "pg-exit-" ++ String.ofList ((Hashing.canonicalJsonHash
    [("accountId", accountId), ("positionId", positionId),
      ("snapshotId", snapshotId)]).toList.take 28)

namespace ExitItem

/-- The order that closes the position, with the columns a review and an intent share. -/
def order (item : ExitItem) : Intent :=
  let row := item.row
  let operation : TradeOperation :=
    if row.option then .sellToClose
    else if row.position.side = .short then .buyToCover
    else .sellToClose
  { id := ""
    accountId := row.account.id
    candidateId := row.candidateId
    clientOrderId := exitClientOrderId row.account.id row.position.id row.snapshot.id
    strategyKey := (row.opening.map (·.strategyKey)).getD ""
    symbol := row.orderSymbol
    underlyingSymbol := if row.option then some row.position.symbol else none
    assetClass := row.position.assetClass
    side :=
      if operation = .buyToCover then .buy else if row.option then .sellToClose else .sell
    operation := some operation
    strategyClassification := row.classification
    orderType := if row.option then .limit else .market
    timeInForce := .day
    quantity := some row.quantity
    limitPrice := if row.option then some row.marketPrice else none }

/-- The payload fingerprint of the review. -/
def payloadFingerprint (item : ExitItem) : String :=
  Hashing.canonicalJsonHash
    ([("positionId", item.row.position.id), ("candidateId", item.row.candidateId.getD "null"),
      ("accountSnapshotId", item.row.snapshot.id),
      ("accountFingerprint", item.row.snapshot.structuralPortfolioFingerprint.getD "")] ++
      orderFields item.order ++
      [("marketEvidence.referencePrice", Text.ofDecimal item.row.marketPrice),
        ("marketEvidence.timestamp", Hashing.toISOString item.row.marketTimestamp),
        ("trigger.reason", item.reason.name)])

/-- The fingerprint of the confirmation. -/
def confirmationFingerprint (item : ExitItem) (request : ExitReviewRequest)
    (fence : SchedulerFence) : String :=
  Hashing.canonicalJsonHash
    [("executionReviewId", "review_" ++ item.payloadFingerprint),
      ("reviewPayloadFingerprint", item.payloadFingerprint),
      ("evidence.command", request.command.name),
      ("evidence.parentPositionId", item.row.position.id),
      ("evidence.openingIntentId", (item.row.opening.map (·.id)).getD ""),
      ("evidence.scheduler.jobName", fence.jobName),
      ("evidence.scheduler.workstream", fence.workstream),
      ("evidence.scheduler.ownerId", fence.ownerId), ("evidence.scheduler.runId", fence.runId),
      ("evidence.scheduler.fencingToken", toString fence.fencingToken)]

/-- The review of an exit. -/
def review (item : ExitItem) (request : ExitReviewRequest) : Review where
  id := "review_" ++ item.payloadFingerprint
  accountId := item.row.account.id
  candidateId := item.row.candidateId
  reviewType := .exit
  status := .valid
  clientOrderId := some item.order.clientOrderId
  accountFingerprint := item.row.snapshot.structuralPortfolioFingerprint.getD ""
  sourceSnapshotId := some item.row.snapshot.id
  payloadFingerprint := item.payloadFingerprint
  signature := request.sign item.payloadFingerprint
  orderIntent := reviewedOrder item.order
  expiresAt := request.now + 15 * 60000
  updatedAt := request.now

/-- The confirmation of an exit. -/
def confirmation (item : ExitItem) (request : ExitReviewRequest) (fence : SchedulerFence) :
    Confirmation where
  id := "confirmation_" ++ item.confirmationFingerprint request fence
  executionReviewId := "review_" ++ item.payloadFingerprint
  accountId := item.row.account.id
  candidateId := item.row.candidateId
  status := .valid
  payloadFingerprint := item.confirmationFingerprint request fence
  confirmedAt := request.now
  expiresAt := request.now + 15 * 60000
  updatedAt := request.now

/-- The intent of an exit. -/
def intent (item : ExitItem) (request : ExitReviewRequest) (fence : SchedulerFence) : Intent :=
  let row := item.row
  let reviewId := "review_" ++ item.payloadFingerprint
  let premium := row.marketPrice * 100 * row.quantity
  { item.order with
    id := "intent_" ++ Hashing.canonicalJsonHash (("reviewId", reviewId) :: orderFields item.order)
    executionReviewId := some reviewId
    confirmationEvidenceId := some ("confirmation_" ++ item.confirmationFingerprint request fence)
    estimatedPremium := if row.option then some premium else none
    maxRisk := some (if row.option then premium else row.marketPrice * row.quantity)
    status := .readyForSubmission
    lifecycleState := .exitReadyForSubmission
    parentPositionId := some row.position.id
    openingIntentId := row.opening.map (·.id)
    contractId := if row.option then row.columns.contractId else none
    readyAt := some request.now
    createdAt := request.now
    updatedAt := request.now }

/-- The rows the statement of an item stores. -/
def record (item : ExitItem) (request : ExitReviewRequest) (fence : SchedulerFence) :
    ExitRecord where
  review := item.review request
  confirmation := item.confirmation request fence
  intent := item.intent request fence

/-- The checks of an item, before its statement. -/
def check (item : ExitItem) : Except String Unit := do
  let row := item.row
  require (row.snapshot.structuralPortfolioFingerprint.any (· ≠ "") &&
      decide (row.snapshot.snapshotFingerprint ≠ "" ∧ row.snapshot.id ≠ ""))
    "POSTGRES_REVIEW_ACCOUNT_FINGERPRINT_MISSING"
  require (!row.option || decide (row.position.side = .long))
    ("POSTGRES_OPTION_CLOSE_SIDE_UNSUPPORTED:" ++ row.orderSymbol)
  require (row.opening.any (fun i ↦ decide (Text.trim i.id ≠ "") &&
        i.executionReviewId.any (Text.trim · ≠ "")) &&
      row.position.openingOrderId.any (Text.trim · ≠ ""))
    ("POSTGRES_EXIT_OPENING_LINEAGE_MISSING:" ++ row.orderSymbol)
  let observed := Text.trim (row.columns.contractId.getD "")
  let opened := Text.trim ((row.opening.bind (·.contractId)).getD "")
  require (!row.option || decide (observed ≠ "" ∧ opened ≠ "" ∧ observed = opened))
    ("POSTGRES_EXIT_OPTION_CONTRACT_LINEAGE_MISMATCH:" ++ row.orderSymbol)

end ExitItem

end Records

/-! ## Statements -/

/-- What the statement of an item has done. -/
inductive ExitOutcome where
  /-- The three rows are stored. -/
  | created
  /-- A review of the same client order is stored already. -/
  | skipped
  /-- The intent was stored before: the counts of the statement disagree. -/
  | inconsistent
  | fenceLost
deriving DecidableEq, Repr

/-- The statement that stores an exit.  A conflict on the client order of the review inserts
nothing, one on the fingerprint of the intent leaves the other two rows in place. -/
def ExitRecord.insert (record : ExitRecord) (session : Session) (db : Db) :
    Except String (Db × ExitOutcome) :=
  if !fenceHeld db session then .ok (db, .fenceLost)
  else if db.reviews.rows.any fun r ↦ r.accountId = record.review.accountId ∧
      r.clientOrderId = record.review.clientOrderId then .ok (db, .skipped)
  else do
    require (record.review.accountFingerprint.toList.any (· ≠ ' '))
      "execution_reviews_account_fingerprint_nonempty"
    let reviews ← db.reviews.insertOne record.review "execution_reviews_pkey"
    let confirmations ← db.confirmations.insertOne record.confirmation
      "confirmation_evidence_pkey"
    if db.intents.rows.any fun i ↦ i.accountId = record.intent.accountId ∧
        i.id = record.intent.id then
      return ({ db with reviews, confirmations }, .inconsistent)
    else
      let intents ← db.intents.insertOne record.intent "order_intents_client_order_id_key"
      return ({ db with reviews, confirmations, intents }, .created)

section Workflow

variable [Hashing]

/-- One item of the review: its checks and its statement.  It returns whether the exit was
created. -/
def ExitItem.run (item : ExitItem) (request : ExitReviewRequest) (session : Session) (db : Db) :
    Db × Except String Bool :=
  match item.check with
  | .error code => (db, .error code)
  | .ok _ =>
    match (item.record request session.fence).insert session db with
    | .error code => (db, .error code)
    | .ok (db', .created) => (db', .ok true)
    | .ok (db', .skipped) => (db', .ok false)
    | .ok (db', .inconsistent) => (db', .error "POSTGRES_EXIT_REVIEW_PERSISTENCE_FAILED")
    | .ok (db', .fenceLost) => (db', .error "SCHEDULER_FENCE_LOST")

end Workflow

end AlpacaTrading
