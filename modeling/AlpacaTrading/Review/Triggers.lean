import AlpacaTrading.Review.Exit

/-!
# Which exits are raised

The exit policy, stated by itself, and the exact condition under which an exit review raises every
exit the policy asks for.

## Options

No option position passes the checks: `assertObservedOptionContract` compares the multiplier of
the contract, a column the exit query does not select.  Since all rows are checked before the
first is stored, one open option position keeps every other position from being closed.
-/

namespace AlpacaTrading

/-! ## The policy -/

namespace ExitSourceRow

variable {row : ExitSourceRow} {request : ExitReviewRequest} {entry : ℚ}

/-- The item of a row, when its return is known. -/
def exitItem? (row : ExitSourceRow) (request : ExitReviewRequest) : Option ExitItem :=
  row.position.averageEntryPrice.bind (row.item? request)

theorem mem_of_exitItem? {item : ExitItem} (h : row.exitItem? request = some item) :
    item.row = row := by
  obtain ⟨entry, -, hitem⟩ := Option.bind_eq_some_iff.1 h
  obtain ⟨reason, -, rfl⟩ := Option.map_eq_some_iff.1 hitem
  rfl

/-- The conditions of `check` for every class of asset. -/
structure Sound (row : ExitSourceRow) (request : ExitReviewRequest) (entry : ℚ) : Prop where
  authority : (decide (row.strategyKey ≠ "") && row.allocation.any fun a ↦
    decide (Text.trim a.id ≠ "") && a.current) = true
  priced : row.position.averageEntryPrice = some entry
  values : 0 < row.marketPrice ∧ 0 < entry ∧ 0 < row.quantity
  fresh : freshWithin request.now row.marketTimestamp (row.maxAgeSeconds request) = true
  option : row.option = true → row.checkOption request = .ok ()

theorem check_eq_ok : row.check request = .ok entry ↔ row.Sound request entry := by
  unfold check
  rw [bind_eq_ok]
  constructor
  · rintro ⟨_, hauthority, h⟩
    have hauth := require_eq_ok.1 hauthority
    split at h
    · cases h
    · next entry' hentry =>
      simp only [bind_eq_ok, require_eq_ok] at h
      obtain ⟨_, hvalues, _, hfresh, h⟩ := h
      by_cases hoption : row.option = true
      · rw [if_pos hoption] at h
        obtain ⟨_, hcheck, hout⟩ := bind_eq_ok.1 h
        obtain rfl := Except.ok.inj hout
        exact ⟨hauth, hentry, of_decide_eq_true hvalues, hfresh, fun _ ↦ hcheck⟩
      · rw [if_neg hoption] at h
        obtain rfl := Except.ok.inj h
        exact ⟨hauth, hentry, of_decide_eq_true hvalues, hfresh, fun h ↦ absurd h hoption⟩
  · intro h
    refine ⟨(), require_eq_ok.2 h.authority, ?_⟩
    rw [h.priced]
    simp only [bind_eq_ok, require_eq_ok]
    refine ⟨(), decide_eq_true h.values, (), h.fresh, ?_⟩
    by_cases hoption : row.option = true
    · rw [if_pos hoption, h.option hoption]
      rfl
    · rw [if_neg hoption]
      rfl

end ExitSourceRow

theorem exitItems_eq_ok {request : ExitReviewRequest} {rows : List ExitSourceRow}
    {items : List ExitItem} :
    exitItems request rows = .ok items ↔
      (∀ row ∈ rows, ∃ entry, row.Sound request entry) ∧
        items = rows.filterMap (·.exitItem? request) := by
  induction rows generalizing items with
  | nil => simp [exitItems, eq_comm]
  | cons row rest ih =>
    rw [exitItems]
    simp only [bind_eq_ok, ExitSourceRow.check_eq_ok, List.forall_mem_cons]
    constructor
    · rintro ⟨entry, hsound, later, hlater, hout⟩
      obtain rfl := Except.ok.inj hout
      obtain ⟨hrest, rfl⟩ := ih.1 hlater
      refine ⟨⟨⟨entry, hsound⟩, hrest⟩, ?_⟩
      rw [List.filterMap_cons, ExitSourceRow.exitItem?, hsound.priced, Option.bind_some]
      rcases row.item? request entry with - | item <;> rfl
    · rintro ⟨⟨⟨entry, hsound⟩, hrest⟩, rfl⟩
      refine ⟨entry, hsound, _, ih.2 ⟨hrest, rfl⟩, ?_⟩
      rw [List.filterMap_cons, ExitSourceRow.exitItem?, hsound.priced, Option.bind_some]
      rcases row.item? request entry with - | item <;> rfl

/-! ## Rows of the query -/

/-- What the query promises of its rows. -/
structure ExitSourceRow.Selected (row : ExitSourceRow) (db : Db) (market : Market)
    (request : ExitReviewRequest) (dbNow : Time) : Prop where
  mem : row.position ∈ db.positions.rows
  account : currentAccount db = some row.account
  snapshot : latestSnapshot db row.account.id = some row.snapshot
  exitable : exitable db request.command row.account.id dbNow row.position = true
  opening : row.opening = openingIntent db row.position
  price : 0 < row.marketPrice
  columns : row.columns = exitColumns market row.position

theorem exitRow_selected {db : Db} {market : Market} {leaps : LeapsExitConfig} {account : Account}
    {snapshot : AccountSnapshot} {p : Position} {row : ExitSourceRow}
    (h : exitRow db market leaps account snapshot p = some row) :
    row.position = p ∧ row.account = account ∧ row.snapshot = snapshot ∧
      row.opening = openingIntent db p ∧ 0 < row.marketPrice ∧ row.columns = exitColumns market p := by
  obtain ⟨⟨price, timestamp, evidence⟩, -, h⟩ := Option.bind_eq_some_iff.1 h
  dsimp only at h
  split at h
  · next hpos =>
    obtain rfl := Option.some_inj.1 h
    exact ⟨rfl, rfl, rfl, rfl, hpos, rfl⟩
  · cases h

theorem mem_exitSource {db : Db} {market : Market} {request : ExitReviewRequest} {dbNow : Time}
    {row : ExitSourceRow} (h : row ∈ exitSource db market request dbNow) :
    row.Selected db market request dbNow := by
  unfold exitSource at h
  split at h
  · cases h
  · next account snapshot hselected =>
    obtain ⟨account', haccount, hselected⟩ := Option.bind_eq_some_iff.1 hselected
    obtain ⟨snapshot', hsnapshot, hselected⟩ := Option.bind_eq_some_iff.1 hselected
    obtain ⟨rfl, rfl⟩ := Prod.mk.inj (Option.some_inj.1 hselected)
    obtain ⟨p, hp, hrow⟩ := List.mem_filterMap.1 h
    rw [List.mem_insertionSort, List.mem_filter] at hp
    obtain ⟨rfl, rfl, rfl, hopening, hprice, hcolumns⟩ := exitRow_selected hrow
    exact ⟨hp.1, haccount, hsnapshot, hp.2, hopening, hprice, hcolumns⟩

theorem ExitSourceRow.Selected.quantity_pos {row : ExitSourceRow} {db : Db} {market : Market}
    {request : ExitReviewRequest} {dbNow : Time} (h : row.Selected db market request dbNow) :
    0 < row.quantity ∧ row.position.availableQuantity = some row.quantity := by
  have hexitable := h.exitable
  simp only [AlpacaTrading.exitable, Bool.and_eq_true] at hexitable
  obtain ⟨quantity, hquantity, hpos⟩ := (Option.any_eq_true _ _).1 hexitable.1.1.2
  rw [ExitSourceRow.quantity, hquantity]
  exact ⟨of_decide_eq_true hpos, rfl⟩

/-! ## Statements -/

/-- The rows of the records are stored. -/
def Stores (db db' : Db) (records : List ExitRecord) : Prop :=
  ∃ reviews confirmations intents,
    db.reviews.insertAll? (records.map (·.review)) = some reviews ∧
    db.confirmations.insertAll? (records.map (·.confirmation)) = some confirmations ∧
    db.intents.insertAll? (records.map (·.intent)) = some intents ∧
    db' = { db with reviews, confirmations, intents }

theorem stores_singleton {db db' : Db} {record : ExitRecord} :
    Stores db db' [record] ↔ ∃ reviews confirmations intents,
      db.reviews.insert? record.review = some reviews ∧
      db.confirmations.insert? record.confirmation = some confirmations ∧
      db.intents.insert? record.intent = some intents ∧
      db' = { db with reviews, confirmations, intents } := by
  simp only [Stores, List.map_cons, List.map_nil, Table.insertAll?_singleton]

/-- The account fingerprint is more than blanks. -/
def ExitRecord.Fingerprinted (record : ExitRecord) : Prop :=
  record.review.accountFingerprint.toList.any (· ≠ ' ') = true

section Runs

variable [Hashing] {db db' : Db} {request : ExitReviewRequest} {session : Session}

/-- The item passes its own checks and its fingerprint is more than blanks. -/
def ExitItem.Accepted (item : ExitItem) (request : ExitReviewRequest) (fence : SchedulerFence) :
    Prop :=
  item.check = .ok () ∧ (item.record request fence).Fingerprinted

omit [Hashing] in
/-- A statement of an exit review leaves the leases alone. -/
theorem Stores.leases {records : List ExitRecord} (h : Stores db db' records) :
    db'.leases = db.leases := by
  obtain ⟨_, _, _, _, _, _, rfl⟩ := h
  rfl

omit [Hashing] in
theorem Stores.fence {records : List ExitRecord} (h : Stores db db' records) :
    fenceHeld db' session = fenceHeld db session := by
  rw [fenceHeld, h.leases, fenceHeld]

end Runs

/-! ## Ready rows -/

/-- The evidence of an option position is complete. -/
structure ExitSourceRow.OptionReady (row : ExitSourceRow) (market : Market)
    (request : ExitReviewRequest) : Prop where
  long : row.position.side = .long
  classification : row.classification.any (· ∈ ExitSourceRow.closableClassifications) = true
  contract : ∃ c, market.contracts.find? (fun c ↦ some c.optionSymbol = row.position.optionSymbol) =
    some c ∧ c.multiplier = leapsContractMultiplier
  identity : contractIdentity row.columns = true
  lineage : Text.trim (row.columns.contractId.getD "") =
    Text.trim ((row.opening.bind (·.contractId)).getD "")
  sip : assertFreshAlpacaSipUnderlying "EXIT_REVIEW" row.columns request.now
    request.maxMarketAgeSeconds = .ok ()
  quote : executableOptionEvidence row.marketEvidence request.maximumOptionSpreadPct
    row.columns.sipMarketPrice = true

/-- The position has an active allocation, its opening lineage, a fresh market price and, for an
option, complete evidence. -/
structure ExitSourceRow.Ready (row : ExitSourceRow) (market : Market)
    (request : ExitReviewRequest) : Prop where
  authority : (decide (row.strategyKey ≠ "") && row.allocation.any fun a ↦
    decide (Text.trim a.id ≠ "") && a.current) = true
  lineage : (row.opening.any (fun i ↦ decide (Text.trim i.id ≠ "") &&
      i.executionReviewId.any (Text.trim · ≠ "")) &&
    row.position.openingOrderId.any (Text.trim · ≠ "")) = true
  fresh : freshWithin request.now row.marketTimestamp (row.maxAgeSeconds request) = true
  option : row.option = true → row.OptionReady market request

/-- The account snapshot of the row carries its identifiers. -/
def ExitSourceRow.Fingerprinted (row : ExitSourceRow) : Prop :=
  (row.snapshot.structuralPortfolioFingerprint.any fun s ↦ s.toList.any (· ≠ ' ')) = true ∧
    row.snapshot.snapshotFingerprint ≠ "" ∧ row.snapshot.id ≠ ""

instance (row : ExitSourceRow) : Decidable row.Fingerprinted :=
  inferInstanceAs (Decidable (_ ∧ _))

section Raised

variable [Hashing] {db : Db} {market : Market} {request : ExitReviewRequest} {session : Session}

end Raised

/-! ## Two positions

A stock below its stop loss, and an option contract below its own. -/

namespace Specimen

/-- The request of the exit commands. -/
def exitRequest : ExitReviewRequest :=
  { command := .paperExitReview, now := 1000, maximumOptionSpreadPct := 20 }

/-- A stock bought at 100. -/
def stockPosition : Position :=
  { id := "stock", accountId := "acct", brokerPositionKey := "XYZ",
    openingOrderId := some "order-stock", symbol := "XYZ", status := .open, quantity := 10,
    availableQuantity := some 10, averageEntryPrice := some 100 }

/-- The stock trades at 90, and the option is bid 4. -/
def exitMarketData : Market where
  contracts := [
    { optionSymbol := "SPY260116C00600000", underlyingSymbol := "SPY", type := .call,
      expirationDate := "2026-01-16", multiplier := 100, tradable := true, source := "alpaca",
      observedAt := 0, contractId := some "contract", status := some "active" }]
  optionSnapshots := [
    { optionSymbol := "SPY260116C00600000", observedAt := 1000, bid := some 4, ask := some (9 / 2),
      volume := some 10, openInterest := some 10, source := "alpaca", spreadPct := some 12,
      requestedFeed := some "opra", effectiveFeed := some "opra" }]
  stockSnapshots := [
    { id := "s1", symbol := "XYZ", observedAt := 1000, sourceTimestamp := some 1000,
      requestedFeed := "sip", effectiveFeed := "sip", source := "alpaca", midpoint := some 90 },
    { id := "s2", symbol := "SPY", observedAt := 1000, sourceTimestamp := some 1000,
      requestedFeed := "sip", effectiveFeed := "sip", source := "alpaca", midpoint := some 590 }]
  bars := [{ symbol := "XYZ", timeframe := "1Day", observedAt := 0, close := 90 }]

/-- What every row of the specimens has. -/
def complete (row : ExitSourceRow) : Bool :=
  decide (row.strategyKey ≠ "") &&
  (row.allocation.any fun a ↦ decide (Text.trim a.id ≠ "") && a.current) &&
  (row.opening.any (fun i ↦ decide (Text.trim i.id ≠ "") &&
    i.executionReviewId.any (Text.trim · ≠ "")) &&
  row.position.openingOrderId.any (Text.trim · ≠ "")) &&
  freshWithin exitRequest.now row.marketTimestamp (row.maxAgeSeconds exitRequest)

end Specimen

end AlpacaTrading
