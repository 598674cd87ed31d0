import AlpacaTrading.Learning.OutcomeRecord
import AlpacaTrading.Lib.Decimal
import AlpacaTrading.Lib.Extended
import AlpacaTrading.Lib.Table
import AlpacaTrading.Lib.Text
import AlpacaTrading.Store.Schema

/-!
# Paper positions

A paper position is opened by the first fill of an entry order, follows the later fills of that
order, is observed while it is open, and is closed by the fill of an exit order.  Its outcome is
computed once, when it is closed, from the observations that are linked to it exactly.

An observation is linked to every open position of its instrument.  If there are several of them the
links are ambiguous, and so is the lineage of all these positions from then on.

## The model

The functions take the identifiers they draw as arguments.  A function that throws leaves the tables
as they were.
-/

namespace AlpacaTrading

namespace PaperPosition

/-! ## Rows -/

/-- `LinkageStatus`. -/
inductive LinkageStatus where
  | exact | exactLegacyReuse | ambiguousNettedPosition | legacyUnlinked
  | partialBrokerReconciliation
deriving DecidableEq, Repr

/-- `status` of a position. -/
inductive Status where
  | opened | closed
deriving DecidableEq, Repr

/-- A row of `paper_execution_ledger`, with the position intent of its payload. -/
structure LedgerRow where
  id : ℕ
  assetClass : String
  symbol : String
  underlyingSymbol : Option String := none
  side : Option String := none
  clientOrderId : String
  decisionId : Option String := none
  decisionLinkageStatus : LinkageStatus
  positionLifecycleId : Option String := none
  positionIntent : Option String := none
deriving DecidableEq

instance : Row LedgerRow ℕ where
  key := (·.id)
  clash a b := a.id = b.id
  dec _ _ := inferInstanceAs (Decidable (_ = _))
  symm h := h.symm
  clash_of_key h := h

/-- A row of `decision_snapshots`. -/
structure DecisionRow where
  decisionId : String
  decisionRole : String
  positionLifecycleId : Option String := none
deriving DecidableEq

instance : Row DecisionRow String where
  key := (·.decisionId)
  clash a b := a.decisionId = b.decisionId
  dec _ _ := inferInstanceAs (Decidable (_ = _))
  symm h := h.symm
  clash_of_key h := h

/-- A row of `paper_positions`. -/
structure PositionRow where
  positionLifecycleId : String
  entryDecisionId : String
  terminalExitDecisionId : Option String := none
  symbol : String
  optionSymbol : Option String
  assetClass : AssetClass
  side : PositionSide
  brokerEntryOrderId : Option String
  entryClientOrderId : String
  status : Status := .opened
  openedAt : String
  closedAt : Option String := none
  entryQuantity : Option ℚ
  entryPrice : Option ℚ
  linkageStatus : LinkageStatus := .exact
deriving DecidableEq

instance : Row PositionRow String where
  key := (·.positionLifecycleId)
  clash a b := a.positionLifecycleId = b.positionLifecycleId ∨
    a.entryClientOrderId = b.entryClientOrderId
  dec _ _ := inferInstanceAs (Decidable (_ ∨ _))
  symm h := h.imp Eq.symm Eq.symm
  clash_of_key h := .inl h

/-- The members of an observation that are stored, but not read again by these functions. -/
structure ObservationDetails where
  sourceTimestamp : Option String := none
  brokerRequestId : Option String := none
  averageEntryPrice : Option ℚ := none
  realizedPnl : Option ℚ := none
  portfolioState : List (String × String) := []
  others : List (String × String) := []
deriving DecidableEq

/-- The columns of an observation that its `evidence_hash` is made of. -/
structure Evidence where
  brokerSymbolKey : String
  symbol : String
  optionSymbol : Option String
  observedAt : String
  underlyingPrice : Option ℚ
  midpoint : Option ℚ
  mark : Option ℚ
  quantity : Option ℚ
  dataQualityStatus : String
  details : ObservationDetails
deriving DecidableEq

/-- A row of `paper_position_observations`. -/
structure Observation where
  observationId : String
  evidence : Evidence
deriving DecidableEq

instance : Row Observation String where
  key := (·.observationId)
  clash a b := a.observationId = b.observationId ∨ a.evidence = b.evidence
  dec _ _ := inferInstanceAs (Decidable (_ ∨ _))
  symm h := h.imp Eq.symm Eq.symm
  clash_of_key h := .inl h

/-- A row of `paper_position_observation_links`. -/
structure ObservationLink where
  observationId : String
  positionLifecycleId : String
  decisionId : Option String
  linkageStatus : LinkageStatus
deriving DecidableEq

instance : Row ObservationLink (String × String) where
  key l := (l.observationId, l.positionLifecycleId)
  clash a b := (a.observationId, a.positionLifecycleId) = (b.observationId, b.positionLifecycleId)
  dec _ _ := inferInstanceAs (Decidable (_ = _))
  symm h := h.symm
  clash_of_key h := h

/-- `OutcomeCompletenessStatus`. -/
inductive CompletenessStatus where
  | complete | partially | insufficientObservations | legacyUnavailable | ambiguousLineage
deriving DecidableEq, Repr

/-- `calculation_basis`. -/
structure CalculationBasis where
  exactObservationIds : List String
  markBasis : String := "mark_then_midpoint"
  optionMultiplier : ℚ
  returnDirection : PositionSide
  underlyingBasis : String := "persisted_underlying_price"
deriving DecidableEq

/-- A row of `paper_position_outcomes`. -/
structure OutcomeRow where
  outcomeId : String
  positionLifecycleId : String
  entryDecisionId : String
  exitDecisionId : Option String
  terminalStatus : Status
  closedAt : String
  entryPrice : Option ℚ
  exitPrice : Option ℚ
  quantity : Option ℚ
  realizedPnl : Option ℚ
  realizedReturnPct : Option ℚ
  optionPositionReturnPct : Option ℚ
  underlyingReturnPct : Option ℚ
  holdingDurationMs : Option ℤ
  mfePct : Option ℚ
  maePct : Option ℚ
  timeToMfeMs : Option ℤ
  timeToMaeMs : Option ℤ
  timeToFirstProfitMs : Option ℤ
  maximumRunupPct : Option ℚ
  maximumDrawdownPct : Option ℚ
  exitReasonCode : String
  dataQualityStatus : String
  completenessStatus : CompletenessStatus
  evaluationReason : Option String
  calculationBasis : CalculationBasis
deriving DecidableEq

instance : Row OutcomeRow String where
  key := (·.outcomeId)
  clash a b := a.outcomeId = b.outcomeId ∨ a.positionLifecycleId = b.positionLifecycleId
  dec _ _ := inferInstanceAs (Decidable (_ ∨ _))
  symm h := h.imp Eq.symm Eq.symm
  clash_of_key h := .inl h

/-- The tables. -/
structure Db where
  ledger : Table LedgerRow := .empty
  decisions : Table DecisionRow := .empty
  positions : Table PositionRow := .empty
  observations : Table Observation := .empty
  links : Table ObservationLink := .empty
  outcomes : Table OutcomeRow := .empty

/-! ## Numbers -/

/-- `round`, to eight decimals. -/
def round (value : ℚ) : ℚ := Decimal.roundHalfAway 8 value / 10 ^ 8

/-- `finitePositive`: the number, if it is finite and positive. -/
def finitePositive : Option ExtendedNumber → Option ℚ
  | some (.finite v) => if 0 < v then some v else none
  | _ => none

/-- `finiteOrNull`. -/
def finiteOrNull : Option ExtendedNumber → Option ℚ
  | some (.finite v) => some v
  | _ => none

/-- `finitePositive` of a number that was stored. -/
def positive (value : Option ℚ) : Option ℚ := value.filter (0 < ·)

/-- `UPPER`, which changes ASCII letters only. -/
def sqlUpper (s : String) : String := String.ofList (s.toList.map Char.toUpper)

/-- What a broken constraint is reported as. -/
def constraintError : String := "SQLITE_CONSTRAINT"

/-! ## Observations -/

/-- What `capturePaperPositionObservation` is given. -/
structure ObservationInput where
  brokerSymbolKey : String
  symbol : String
  optionSymbol : Option String
  observedAt : String
  underlyingPrice : Option ExtendedNumber := none
  midpoint : Option ExtendedNumber := none
  mark : Option ExtendedNumber := none
  quantity : Option ExtendedNumber := none
  dataQualityStatus : String
  details : ObservationDetails := {}

/-- The evidence of an observation. -/
def ObservationInput.evidence (input : ObservationInput) : Evidence where
  brokerSymbolKey := Text.toUpperCase input.brokerSymbolKey
  symbol := Text.toUpperCase input.symbol
  optionSymbol := input.optionSymbol.map Text.toUpperCase
  observedAt := input.observedAt
  underlyingPrice := finiteOrNull input.underlyingPrice
  midpoint := finiteOrNull input.midpoint
  mark := finiteOrNull input.mark
  quantity := finiteOrNull input.quantity
  dataQualityStatus := input.dataQualityStatus
  details := input.details

/-- `COALESCE(option_symbol, symbol)`. -/
def PositionRow.instrument (p : PositionRow) : String := p.optionSymbol.getD p.symbol

/-- The open positions of an instrument.  Their order makes no difference. -/
def Db.possiblePositions (db : Db) (brokerSymbolKey : String) : List PositionRow :=
  db.positions.rows.filter fun p ↦
    decide (p.status = .opened ∧ sqlUpper p.instrument = brokerSymbolKey)

/-- The linkage of an observation that belongs to so many positions. -/
def linkageOf (count : ℕ) : LinkageStatus :=
  if count = 1 then .exact else if 1 < count then .ambiguousNettedPosition else .legacyUnlinked

/-- `INSERT OR IGNORE` of a link. -/
def insertOrIgnore (links : Table ObservationLink) (link : ObservationLink) :
    Table ObservationLink := (links.insert? link).getD links

/-- The link of an observation to a position. -/
def linkOf (observationId : String) (linkageStatus : LinkageStatus) (p : PositionRow) :
    ObservationLink where
  observationId := observationId
  positionLifecycleId := p.positionLifecycleId
  decisionId := if linkageStatus = .exact then some p.entryDecisionId else none
  linkageStatus := linkageStatus

/-- What a capture returns. -/
structure Capture where
  observationId : String
  linkageStatus : LinkageStatus
  linkedLifecycles : ℕ
deriving DecidableEq

/-- `capturePaperPositionObservation`, with the identifier drawn for a new observation. -/
def capturePaperPositionObservation (newId : String) (input : ObservationInput) (db : Db) :
    Except String (Db × Capture) := do
  let existing := db.observations.rows.find? fun o ↦ o.evidence = input.evidence
  let observationId := (existing.map (·.observationId)).getD newId
  let observations ← (match existing with
    | some _ => .ok db.observations
    | none =>
      db.observations.insertOne { observationId, evidence := input.evidence } constraintError)
  let possiblePositions := db.possiblePositions input.evidence.brokerSymbolKey
  let linkageStatus := linkageOf possiblePositions.length
  let links := possiblePositions.foldl
    (fun links p ↦ insertOrIgnore links (linkOf observationId linkageStatus p)) db.links
  let positions :=
    if linkageStatus = .ambiguousNettedPosition then
      db.positions.update
        (fun p ↦ possiblePositions.any (·.positionLifecycleId = p.positionLifecycleId))
        fun p ↦ { p with linkageStatus := .ambiguousNettedPosition }
    else db.positions
  .ok ({ db with observations, links, positions },
    { observationId, linkageStatus, linkedLifecycles := possiblePositions.length })

/-! ## Entry fills -/

/-- What `reconcilePaperEntryFill` is given. -/
structure EntryFillInput where
  ledgerId : ℕ
  brokerOrderId : String
  clientOrderId : String
  status : String
  filledQuantity : ExtendedNumber
  filledAveragePrice : Option ExtendedNumber
  observedAt : String
  brokerRequestId : Option String := none
  underlyingPrice : Option ExtendedNumber := none

/-- The observation a fill makes of a position. -/
def entryObservation (input : EntryFillInput) (quantity price : ℚ) (symbol : String)
    (optionSymbol : Option String) (assetClass : AssetClass) : ObservationInput where
  brokerSymbolKey := optionSymbol.getD symbol
  symbol := symbol
  optionSymbol := optionSymbol
  observedAt := input.observedAt
  underlyingPrice := match assetClass with
    | .option => input.underlyingPrice
    | .equity => input.underlyingPrice.or (some (.finite price))
  mark := some (.finite price)
  quantity := some (.finite quantity)
  dataQualityStatus := if input.status = "partially_filled" then "PARTIAL" else "COMPLETE"
  details := {
    sourceTimestamp := some input.observedAt
    brokerRequestId := input.brokerRequestId
    averageEntryPrice := some price }

/-- `reconcilePaperEntryFill` of an order that has a position. -/
def reconcileExisting (newId : String) (input : EntryFillInput) (quantity price : ℚ)
    (lifecycleId : String) (db : Db) : Except String Db :=
  match db.positions.get? lifecycleId with
  | none => .error "PAPER_EXECUTION_LIFECYCLE_NOT_FOUND"
  | some existing =>
    if existing.status = .opened ∧ existing.entryQuantity.getD 0 ≤ quantity then do
      let positions := db.positions.update
        (fun p ↦ p.positionLifecycleId = lifecycleId ∧ p.status = .opened)
        fun p ↦ { p with entryQuantity := some quantity, entryPrice := some price }
      let (db, _) ← capturePaperPositionObservation newId
        (entryObservation input quantity price existing.symbol existing.optionSymbol
          existing.assetClass) { db with positions }
      .ok db
    else .ok db

/-- `linkPaperExecutionPositionLifecycle` of a row that has no position. -/
def Db.linkLedger (db : Db) (ledgerId : ℕ) (lifecycleId : String) : Db :=
  let ledger := db.ledger.update
    (fun l ↦ l.id = ledgerId ∧ ∀ p ∈ l.positionLifecycleId, p = lifecycleId)
    fun l ↦ { l with positionLifecycleId := some lifecycleId }
  { db with ledger }

/-- The position that the first fill of an order opens. -/
def newPosition (lifecycleId : String) (input : EntryFillInput) (quantity price : ℚ)
    (ledger : LedgerRow) (decisionId : String) : PositionRow :=
  let assetClass : AssetClass := if ledger.assetClass = "option" then .option else .equity
  { positionLifecycleId := lifecycleId
    entryDecisionId := decisionId
    symbol := match assetClass with
      | .option => (truthy ledger.underlyingSymbol).getD ledger.symbol
      | .equity => ledger.symbol
    optionSymbol := match assetClass with
      | .option => some ledger.symbol
      | .equity => none
    assetClass
    side := if ledger.side = some "sell" ∨ ledger.positionIntent = some "sell_to_open" then .short
      else .long
    brokerEntryOrderId := some input.brokerOrderId
    entryClientOrderId := input.clientOrderId
    openedAt := input.observedAt
    entryQuantity := some quantity
    entryPrice := some price }

/-- `reconcilePaperEntryFill`, with the identifiers drawn for a new position and observation. -/
def reconcilePaperEntryFill (newLifecycleId newId : String) (input : EntryFillInput) (db : Db) :
    Except String Db := do
  match finitePositive (some input.filledQuantity), finitePositive input.filledAveragePrice with
  | some quantity, some price => do
    require (input.status ∈ ["filled", "partially_filled"]) "BROKER_FILL_NOT_CONFIRMED"
    match db.ledger.get? input.ledgerId with
    | none => .error "PAPER_EXECUTION_LEDGER_NOT_FOUND"
    | some ledger => do
      require (ledger.clientOrderId = input.clientOrderId) "BROKER_FILL_CLIENT_ORDER_MISMATCH"
      match truthy ledger.decisionId with
      | none => .error "BROKER_FILL_DECISION_LINEAGE_NOT_EXACT"
      | some decisionId => do
        require (ledger.decisionLinkageStatus = .exact) "BROKER_FILL_DECISION_LINEAGE_NOT_EXACT"
        require ((db.decisions.get? decisionId).any (·.decisionRole = "entry"))
          "BROKER_FILL_ENTRY_DECISION_NOT_FOUND"
        match truthy ledger.positionLifecycleId with
        | some lifecycleId => reconcileExisting newId input quantity price lifecycleId db
        | none =>
          match db.positions.rows.find? (·.entryClientOrderId = input.clientOrderId) with
          | some duplicate =>
            -- The call is repeated with the ledger row linked, and finds the position.
            reconcileExisting newId input quantity price duplicate.positionLifecycleId
              (db.linkLedger input.ledgerId duplicate.positionLifecycleId)
          | none => do
            let position := newPosition newLifecycleId input quantity price ledger decisionId
            let positions ← db.positions.insertOne position constraintError
            let (db, _) ← capturePaperPositionObservation newId
              (entryObservation input quantity price position.symbol position.optionSymbol
                position.assetClass)
              ({ db with positions }.linkLedger input.ledgerId newLifecycleId)
            .ok db
  | _, _ => .error "BROKER_FILL_NOT_CONFIRMED"

/-! ## Exit fills -/

/-- What `closePaperPositionFromFill` is given. -/
structure ExitFillInput where
  positionLifecycleId : String
  exitDecisionId : String
  brokerOrderId : String
  status : String
  filledQuantity : ExtendedNumber
  filledAveragePrice : Option ExtendedNumber
  observedAt : String
  exitReasonCode : String
  brokerRequestId : Option String := none
  underlyingPrice : Option ExtendedNumber := none

/-- The sign of a side. -/
def sign : PositionSide → ℚ
  | .long => 1
  | .short => -1

/-- The shares of a contract. -/
def multiplier : AssetClass → ℚ
  | .option => 100
  | .equity => 1

/-- The observation an exit makes of its position. -/
def exitObservation (input : ExitFillInput) (quantity price : ℚ) (position : PositionRow) :
    ObservationInput where
  brokerSymbolKey := position.instrument
  symbol := position.symbol
  optionSymbol := position.optionSymbol
  observedAt := input.observedAt
  underlyingPrice := match position.assetClass with
    | .option => input.underlyingPrice
    | .equity => input.underlyingPrice.or (some (.finite price))
  mark := some (.finite price)
  quantity := some (.finite 0)
  dataQualityStatus := "COMPLETE"
  details := {
    sourceTimestamp := some input.observedAt
    brokerRequestId := input.brokerRequestId
    averageEntryPrice := position.entryPrice
    realizedPnl := do
      let entryPrice ← position.entryPrice
      let entryQuantity ← position.entryQuantity
      return sign position.side * (price - entryPrice) * min quantity entryQuantity *
        multiplier position.assetClass
    portfolioState := [("brokerExitOrderId", input.brokerOrderId),
      ("exitReasonCode", input.exitReasonCode)] }

/-- `closePaperPositionFromFill`, with the identifier drawn for a new observation. -/
def closePaperPositionFromFill (newId : String) (input : ExitFillInput) (db : Db) :
    Except String Db := do
  match finitePositive (some input.filledQuantity), finitePositive input.filledAveragePrice with
  | some quantity, some price => do
    require (input.status = "filled") "BROKER_EXIT_FILL_NOT_CONFIRMED"
    match db.positions.get? input.positionLifecycleId with
    | none => .error "PAPER_POSITION_NOT_FOUND"
    | some position =>
      if position.status = .closed then do
        require (position.terminalExitDecisionId = some input.exitDecisionId)
          "PAPER_POSITION_EXIT_DECISION_MISMATCH"
        .ok db
      else do
        require ((db.decisions.get? input.exitDecisionId).any fun d ↦
            d.decisionRole = "exit" &&
              (truthy d.positionLifecycleId).all (· = input.positionLifecycleId))
          "PAPER_POSITION_EXIT_DECISION_NOT_EXACT"
        let (db, _) ← capturePaperPositionObservation newId
          (exitObservation input quantity price position) db
        let positions := db.positions.update
          (fun p ↦ p.positionLifecycleId = input.positionLifecycleId ∧ p.status = .opened)
          fun p ↦ { p with
            terminalExitDecisionId := some input.exitDecisionId, status := .closed
            closedAt := some input.observedAt }
        .ok { db with positions }
  | _, _ => .error "BROKER_EXIT_FILL_NOT_CONFIRMED"

end PaperPosition

end AlpacaTrading
