import AlpacaTrading.Reconciliation.Effects

/-!
# Account and position sync

`syncBrokerAccountAndPositions` writes what a broker snapshot shows: the account, an account
snapshot, the positions that are gone, the exits whose position is gone, and the positions that
are there.  Every statement commits by itself; an error ends the sequence.

The only statement that touches intents is `closeExits`.  It selects them by lifecycle state, not
by review type, so it stays away from entries only because an entry is never in the state of an
open exit order.
-/

namespace AlpacaTrading

/-! ## Snapshots -/

/-- `AuthorityBrokerPosition`. -/
structure AuthorityBrokerPosition where
  brokerPositionKey : String
  symbol : String
  underlyingSymbol : Option String := none
  optionSymbol : Option String := none
  assetClass : AssetClass := .equity
  side : PositionSide := .long
  quantity : ℚ
  availableQuantity : ℚ
  averageEntryPrice : ℚ
  currentPrice : ℚ := 0
  marketValue : ℚ
  costBasis : ℚ
  unrealizedPnl : ℚ := 0
deriving DecidableEq

/-- `PostgresAuthorityBrokerSnapshot`, as far as the sync reads it. -/
structure AuthorityBrokerSnapshot where
  capturedAt : Time
  accountIdentityHash : String
  status : String := "ACTIVE"
  currency : String := "USD"
  cash : ℚ
  equity : ℚ
  buyingPower : ℚ
  optionsBuyingPower : ℚ := 0
  /-- `environment` and `tradingMode` are paper and live trading is off. -/
  paper : Bool := true
  positions : List AuthorityBrokerPosition := []
  structuralPortfolioFingerprint : String
  portfolioFingerprint : String
deriving DecidableEq

/-- The account a snapshot belongs to. -/
def AuthorityBrokerSnapshot.accountId (snapshot : AuthorityBrokerSnapshot) : String :=
  "account_" ++ snapshot.accountIdentityHash

/-- `COALESCE(filled_at, updated_at, created_at)`. -/
def Order.filledTime (o : Order) : Time := o.filledAt.getD o.updatedAt

/-- `ORDER BY COALESCE(filled_at, updated_at, created_at) DESC, id DESC`. -/
def Order.filledAfter (a b : Order) : Bool :=
  b.filledTime < a.filledTime ∨ (a.filledTime = b.filledTime ∧ b.id < a.id)

/-! ## Statements -/

/-- The account upsert. -/
def upsertAccount (snapshot : AuthorityBrokerSnapshot) (session : Session) (db : Db) :
    Except String Db := do
  require (fenceHeld db session) "POSTGRES_RECONCILIATION_ACCOUNT_PERSISTENCE_FAILED"
  if (db.accounts.get? snapshot.accountId).isSome then
    return { db with
      accounts := db.accounts.modify snapshot.accountId fun a ↦ { a with
        status := snapshot.status
        currency := snapshot.currency
        updatedAt := snapshot.capturedAt } }
  else
    let accounts ← db.accounts.insertOne
      { id := snapshot.accountId
        brokerAccountId := snapshot.accountIdentityHash
        status := snapshot.status
        currency := snapshot.currency
        updatedAt := snapshot.capturedAt }
      "accounts_broker_account_id_key"
    return { db with accounts }

/-- The order is a filled exit of the position. -/
def Order.closes (db : Db) (p : Position) (o : Order) : Bool :=
  decide (o.status = "filled") &&
    (db.intents.get? o.orderIntentId).any (·.parentPositionId = some p.id)

/-- The latest filled order of an exit of the position. -/
def closingOrder (db : Db) (p : Position) : Option Order :=
  firstBy Order.filledAfter (db.orders.rows.filter (Order.closes db p))

/-- The update of a position that is gone. -/
def Position.close (db : Db) (capturedAt : Time) (p : Position) : Position :=
  { p with
    status := .closed
    quantity := 0
    availableQuantity := some 0
    closingOrderId := p.closingOrderId <|> (closingOrder db p).map (·.id)
    closedAt := some capturedAt
    lastReconciledAt := some capturedAt
    updatedAt := capturedAt }

theorem Position.close_keeps (db : Db) (capturedAt : Time) : Keeps (Position.close db capturedAt) :=
  ⟨fun _ ↦ rfl, fun _ _ ↦ Iff.rfl⟩

/-- The positions of the account that the snapshot no longer shows are closed. -/
def closePositions (snapshot : AuthorityBrokerSnapshot) (session : Session) (db : Db) : Db :=
  { db with
    positions := db.positions.update
      (fun p ↦ decide (p.accountId = snapshot.accountId) && p.held &&
        !(snapshot.positions.any (·.brokerPositionKey = p.brokerPositionKey)) &&
        fenceHeld db session)
      (Position.close db snapshot.capturedAt) (Position.close_keeps _ _) }

/-- The update of an exit whose position is closed. -/
def Intent.closeExit (now : Time) (i : Intent) : Intent :=
  { i with
    lifecycleState := .closed
    status := .reconciled
    terminalAt := i.terminalAt <|> some now
    updatedAt := now
    version := i.version + 1 }

theorem Intent.closeExit_keeps (now : Time) : Keeps (Intent.closeExit now) :=
  ⟨fun _ ↦ rfl, fun _ _ ↦ Iff.rfl⟩

/-- The exits with a filled order whose position is closed are closed too. -/
def closeExits (snapshot : AuthorityBrokerSnapshot) (session : Session) (db : Db) : Db :=
  { db with
    intents := db.intents.update
      (fun i ↦ (i.parentPositionId.bind db.positions.get?).any (fun p ↦
          p.accountId = snapshot.accountId ∧ p.status = .closed) &&
        decide (i.lifecycleState ∈ exitOrderStates) &&
        (db.orders.rows.any fun o ↦ o.orderIntentId = i.id ∧ o.status = "filled") &&
        fenceHeld db session)
      (Intent.closeExit snapshot.capturedAt) (Intent.closeExit_keeps _) }

theorem closeExits_effect {db : Db} {snapshot : AuthorityBrokerSnapshot} {session : Session} :
    Effect db (closeExits snapshot session db) := by
  refine ⟨.of_eq rfl rfl, .moves ⟨_, _, Intent.closeExit_keeps _, rfl, fun i _ hp ↦ ?_⟩
    ⟨rfl, rfl, rfl⟩⟩
  simp only [Bool.and_eq_true, decide_eq_true_eq] at hp
  refine ⟨⟨rfl, rfl, fun _ hmem ↦ ?_⟩, .close hp.1.1.2 rfl⟩
  simp [Intent.closeExit, exitOrderStates] at hmem

/-- When the stored row of a position was last closed. -/
def lastClosedAt (snapshot : AuthorityBrokerSnapshot) (position : AuthorityBrokerPosition)
    (db : Db) : Option Time :=
  (db.positions.rows.find? fun p ↦ p.accountId = snapshot.accountId ∧
    p.brokerPositionKey = position.brokerPositionKey).bind (·.closedAt)

/-- The order is a fill of the position's symbol, side, size and price since the position was last
closed. -/
def Order.opens (snapshot : AuthorityBrokerSnapshot) (position : AuthorityBrokerPosition)
    (db : Db) (o : Order) : Bool :=
  decide (o.accountId = snapshot.accountId ∧
    o.symbol = position.optionSymbol.getD position.symbol ∧ o.assetClass = position.assetClass ∧
    (o.status = "filled" ∨ o.status = "partially_filled") ∧
    o.filledTime ≤ snapshot.capturedAt ∧
    |o.filledQuantity - position.quantity| ≤ 1 / 10 ^ 12) &&
  (o.filledAveragePrice.any fun price ↦ |price - position.averageEntryPrice| ≤ 1 / 10 ^ 8) &&
  ((lastClosedAt snapshot position db).all (· < o.filledTime)) &&
  (db.intents.get? o.orderIntentId).any fun i ↦
    (position.side = .long ∧ (i.side = .buy ∨ i.side = .buyToOpen)) ∨
    (position.side = .short ∧ i.side = .sell ∧ i.assetClass = .equity)

/-- The order a position was opened by: the latest that opens it, with its intent. -/
def openingOrder (snapshot : AuthorityBrokerSnapshot) (position : AuthorityBrokerPosition)
    (db : Db) : Option (Order × Intent) := do
  let order ← firstBy Order.filledAfter (db.orders.rows.filter (Order.opens snapshot position db))
  let intent ← db.intents.get? order.orderIntentId
  return (order, intent)

section Sync

variable [Hashing]

/-- The `account_snapshots` row of a snapshot. -/
def AuthorityBrokerSnapshot.row (snapshot : AuthorityBrokerSnapshot) : AccountSnapshot where
  id := "snapshot_" ++ Hashing.canonicalJsonHash
    [("accountId", snapshot.accountId),
      ("capturedAt", Hashing.toISOString snapshot.capturedAt),
      ("portfolioFingerprint", snapshot.portfolioFingerprint)]
  accountId := snapshot.accountId
  observedAt := snapshot.capturedAt
  cash := some snapshot.cash
  equity := some snapshot.equity
  buyingPower := some snapshot.buyingPower
  optionsBuyingPower := some snapshot.optionsBuyingPower
  snapshotFingerprint := snapshot.portfolioFingerprint
  structuralPortfolioFingerprint := some snapshot.structuralPortfolioFingerprint

/-- The account snapshot.  A stored row with the same fingerprint stays, and then stands for the
new observation; without one the fence must be held. -/
def insertAccountSnapshot (snapshot : AuthorityBrokerSnapshot) (session : Session) (db : Db) :
    Except String Db :=
  if db.snapshots.rows.any fun s ↦ s.accountId = snapshot.accountId ∧
      s.snapshotFingerprint = snapshot.portfolioFingerprint then .ok db
  else do
    require (fenceHeld db session) "POSTGRES_RECONCILIATION_ACCOUNT_SNAPSHOT_PERSISTENCE_FAILED"
    let snapshots ← db.snapshots.insertOne snapshot.row "account_snapshots_pkey"
    return { db with snapshots }

/-- The primary key of a position. -/
def positionId (accountId brokerPositionKey : String) : String :=
  "position_" ++ Hashing.canonicalJsonHash
    [("accountId", accountId), ("brokerPositionKey", brokerPositionKey)]

/-- The lineage of a position: the candidate, the order and the time it was opened by. -/
structure PositionLineage where
  candidateId : Option String
  openingOrderId : Option String
  openedAt : Time

/-- The lineage the upsert writes, from the order that opened the position. -/
def positionLineage (snapshot : AuthorityBrokerSnapshot) (position : AuthorityBrokerPosition)
    (db : Db) : PositionLineage :=
  let lineage := openingOrder snapshot position db
  { candidateId := lineage.bind (·.2.candidateId)
    openingOrderId := lineage.map (·.1.id)
    openedAt := (lineage.map (·.1.filledTime)).getD snapshot.capturedAt }

/-- The row of a position seen for the first time. -/
def AuthorityBrokerPosition.row (position : AuthorityBrokerPosition) (accountId : String)
    (capturedAt : Time) (lineage : PositionLineage) : Position where
  id := positionId accountId position.brokerPositionKey
  accountId
  brokerPositionKey := position.brokerPositionKey
  candidateId := lineage.candidateId
  openingOrderId := lineage.openingOrderId
  symbol := position.symbol
  underlyingSymbol := position.underlyingSymbol
  optionSymbol := position.optionSymbol
  assetClass := position.assetClass
  side := position.side
  status := .open
  quantity := position.quantity
  availableQuantity := some position.availableQuantity
  averageEntryPrice := some position.averageEntryPrice
  marketValue := some position.marketValue
  costBasis := some position.costBasis
  openedAt := lineage.openedAt
  lastReconciledAt := some capturedAt
  updatedAt := capturedAt

/-- The update of a stored position that is seen again. -/
def Position.seen (position : AuthorityBrokerPosition) (capturedAt : Time)
    (lineage : PositionLineage) (p : Position) : Position :=
  { p with
    candidateId :=
      if p.status = .closed then lineage.candidateId else p.candidateId <|> lineage.candidateId
    openingOrderId :=
      if p.status = .closed then lineage.openingOrderId
      else p.openingOrderId <|> lineage.openingOrderId
    symbol := position.symbol
    underlyingSymbol := position.underlyingSymbol
    optionSymbol := position.optionSymbol
    assetClass := position.assetClass
    side := position.side
    status := .open
    quantity := position.quantity
    availableQuantity := some position.availableQuantity
    averageEntryPrice := some position.averageEntryPrice
    marketValue := some position.marketValue
    costBasis := some position.costBasis
    openedAt := if p.status = .closed then lineage.openedAt else p.openedAt
    closedAt := none
    lastReconciledAt := some capturedAt
    updatedAt := capturedAt }

omit [Hashing] in
theorem Position.seen_keeps (position : AuthorityBrokerPosition) (capturedAt : Time)
    (lineage : PositionLineage) : Keeps (Position.seen position capturedAt lineage) :=
  ⟨fun _ ↦ rfl, fun _ _ ↦ Iff.rfl⟩

/-- The stored row of a position. -/
def samePosition (snapshot : AuthorityBrokerSnapshot) (position : AuthorityBrokerPosition)
    (p : Position) : Bool :=
  p.accountId = snapshot.accountId ∧ p.brokerPositionKey = position.brokerPositionKey

/-- The upsert of one position, with its lineage. -/
def upsertPosition (snapshot : AuthorityBrokerSnapshot) (position : AuthorityBrokerPosition)
    (session : Session) (db : Db) : Except String Db := do
  require (fenceHeld db session) "POSTGRES_RECONCILIATION_POSITION_PERSISTENCE_FAILED"
  let lineage := positionLineage snapshot position db
  if db.positions.rows.any (samePosition snapshot position) then
    return { db with
      positions := db.positions.update (samePosition snapshot position)
        (Position.seen position snapshot.capturedAt lineage) (Position.seen_keeps _ _ _) }
  else
    let positions ← db.positions.insertOne
      (position.row snapshot.accountId snapshot.capturedAt lineage) "positions_pkey"
    return { db with positions }

/-! ### What the statements write -/

section Writes

variable {db db' : Db} {snapshot : AuthorityBrokerSnapshot} {session : Session}

omit [Hashing] in
theorem upsertAccount_writes (h : upsertAccount snapshot session db = .ok db') :
    ∃ accounts, db' = { db with accounts } := by
  simp only [upsertAccount, bind_eq_ok] at h
  obtain ⟨_, _, h⟩ := h
  split at h
  · exact ⟨_, (Except.ok.inj h).symm⟩
  · obtain ⟨accounts, _, h⟩ := bind_eq_ok.1 h
    exact ⟨accounts, (Except.ok.inj h).symm⟩

theorem insertAccountSnapshot_writes (h : insertAccountSnapshot snapshot session db = .ok db') :
    ∃ snapshots, db' = { db with snapshots } := by
  rw [insertAccountSnapshot] at h
  split at h
  · exact ⟨_, (Except.ok.inj h).symm⟩
  · simp only [bind_eq_ok] at h
    obtain ⟨_, _, snapshots, _, h⟩ := h
    exact ⟨snapshots, (Except.ok.inj h).symm⟩

/-- A stored position is updated, and one that is not is inserted. -/
theorem upsertPosition_writes {position : AuthorityBrokerPosition}
    (h : upsertPosition snapshot position session db = .ok db') :
    (db.positions.rows.any (samePosition snapshot position) = true ∧
      db' = { db with
        positions := db.positions.update (samePosition snapshot position)
          (Position.seen position snapshot.capturedAt (positionLineage snapshot position db))
          (Position.seen_keeps _ _ _) }) ∨
    (db.positions.rows.any (samePosition snapshot position) ≠ true ∧
      ∃ positions, db.positions.insert? (position.row snapshot.accountId snapshot.capturedAt
        (positionLineage snapshot position db)) = some positions ∧
        db' = { db with positions }) := by
  simp only [upsertPosition, bind_eq_ok] at h
  obtain ⟨_, _, h⟩ := h
  split at h
  · next hstored => exact .inl ⟨hstored, (Except.ok.inj h).symm⟩
  · next hnew =>
    simp only [bind_eq_ok, Table.insertOne_eq_ok] at h
    obtain ⟨positions, hinsert, h⟩ := h
    exact .inr ⟨hnew, positions, hinsert, (Except.ok.inj h).symm⟩

end Writes

/-- The statements of a sync. -/
inductive SyncStatement where
  | account | accountSnapshot | closePositions | closeExits
  | position (p : AuthorityBrokerPosition)
deriving DecidableEq

/-- One statement of a sync. -/
def SyncStatement.apply (snapshot : AuthorityBrokerSnapshot) (session : Session) (db : Db) :
    SyncStatement → Except String Db
  | account => upsertAccount snapshot session db
  | accountSnapshot => insertAccountSnapshot snapshot session db
  | closePositions => .ok (AlpacaTrading.closePositions snapshot session db)
  | closeExits => .ok (AlpacaTrading.closeExits snapshot session db)
  | position p => upsertPosition snapshot p session db

/-- The statements in order; an error ends the sequence. -/
def runSync (snapshot : AuthorityBrokerSnapshot) (session : Session) :
    Db → List SyncStatement → Db × Except String Unit
  | db, [] => (db, .ok ())
  | db, statement :: rest =>
    match statement.apply snapshot session db with
    | .error code => (db, .error code)
    | .ok db' => runSync snapshot session db' rest

/-- `syncBrokerAccountAndPositions`. -/
def syncBrokerAccountAndPositions (db : Db) (session : Session)
    (snapshot : AuthorityBrokerSnapshot) : Db × Except String Unit :=
  if snapshot.paper then
    runSync snapshot session db ([.account, .accountSnapshot, .closePositions, .closeExits] ++
      snapshot.positions.map .position)
  else (db, .error "POSTGRES_RECONCILIATION_PAPER_SNAPSHOT_REQUIRED")

/-! ## The sync as steps of the machine -/

/-- The tables a sync writes. -/
theorem SyncStatement.apply_tables {db db' : Db} {snapshot : AuthorityBrokerSnapshot}
    {session : Session} {statement : SyncStatement}
    (h : statement.apply snapshot session db = .ok db') :
    ∃ accounts snapshots positions intents,
      db' = { db with accounts, snapshots, positions, intents } := by
  rcases statement with - | - | - | - | position
  · obtain ⟨accounts, rfl⟩ := upsertAccount_writes h
    exact ⟨_, _, _, _, rfl⟩
  · obtain ⟨snapshots, rfl⟩ := insertAccountSnapshot_writes h
    exact ⟨_, _, _, _, rfl⟩
  · exact ⟨_, _, _, _, (Except.ok.inj h).symm⟩
  · exact ⟨_, _, _, _, (Except.ok.inj h).symm⟩
  · obtain ⟨-, rfl⟩ | ⟨-, positions, -, rfl⟩ := upsertPosition_writes h
    · exact ⟨_, _, _, _, rfl⟩
    · exact ⟨_, _, _, _, rfl⟩

theorem sync_effect {db db' : Db} {snapshot : AuthorityBrokerSnapshot} {session : Session}
    {statement : SyncStatement} (h : statement.apply snapshot session db = .ok db') :
    Effect db db' := by
  rcases statement with - | - | - | - | position
  · obtain ⟨accounts, rfl⟩ := upsertAccount_writes h
    exact .quiet (.of_eq rfl rfl) rfl ⟨rfl, rfl, rfl⟩
  · obtain ⟨snapshots, rfl⟩ := insertAccountSnapshot_writes h
    exact .quiet (.of_eq rfl rfl) rfl ⟨rfl, rfl, rfl⟩
  · obtain rfl := Except.ok.inj h
    exact .quiet (.of_eq rfl rfl) rfl ⟨rfl, rfl, rfl⟩
  · obtain rfl := Except.ok.inj h
    exact closeExits_effect
  · obtain ⟨-, rfl⟩ | ⟨-, positions, -, rfl⟩ := upsertPosition_writes h
    · exact .quiet (.of_eq rfl rfl) rfl ⟨rfl, rfl, rfl⟩
    · exact .quiet (.of_eq rfl rfl) rfl ⟨rfl, rfl, rfl⟩

end Sync

end AlpacaTrading
