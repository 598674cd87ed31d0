import AlpacaTrading.Lib.Run
import AlpacaTrading.Reconciliation.Sync

/-!
# The latest account snapshot

Reviews, promotions and claims all read the account through `latestSnapshot`.  A sync stores what
it observed under the fingerprint of the whole portfolio state, and a state that was stored before
is not stored again: its row keeps the time of its first observation.  So the latest row is the
last observation as long as no older state comes back.

## Captures

`capturePostgresAuthorityBrokerSnapshot` fingerprints the state it reads.  The digest is a
parameter; that it tells the observed states apart is a hypothesis where it is used.
-/

namespace AlpacaTrading

/-! ## Captures -/

/-- `AuthorityBrokerAccount`. -/
structure AuthorityBrokerAccount where
  status : String
  currency : String
  cash : ℚ
  equity : ℚ
  buyingPower : ℚ
  optionsBuyingPower : ℚ
  optionsApprovalLevel : ℚ
  tradingBlocked : Bool := false
  accountBlocked : Bool := false
deriving DecidableEq

/-- `AuthorityBrokerOrder`. -/
structure AuthorityBrokerOrder where
  brokerOrderId : String
  clientOrderId : String
  symbol : String
  assetClass : AssetClass
  side : String
  orderType : String
  timeInForce : String
  status : String
  quantity : Option ℚ
  notional : Option ℚ
  limitPrice : Option ℚ
deriving DecidableEq

/-- The `portfolioState` a capture hashes. -/
structure PortfolioState where
  accountIdentityHash : String
  account : AuthorityBrokerAccount
  positions : List AuthorityBrokerPosition := []
  openOrders : List AuthorityBrokerOrder := []
deriving DecidableEq

/-- A position as the structural fingerprint sees it. -/
structure StructuralPosition where
  brokerPositionKey : String
  side : PositionSide
  quantity : ℚ
  availableQuantity : ℚ
  averageEntryPrice : ℚ
  costBasis : ℚ
deriving DecidableEq

/-- The object `buildStructuralPortfolioFingerprint` hashes. -/
structure StructuralPortfolio where
  accountIdentityHash : String
  accountStatus : String
  accountCurrency : String
  accountCash : ℚ
  accountBlocked : Bool
  tradingBlocked : Bool
  optionsApprovalLevel : ℚ
  positions : List StructuralPosition
  openOrders : List AuthorityBrokerOrder
deriving DecidableEq

/-- The structure of a portfolio. -/
def PortfolioState.structural (state : PortfolioState) : StructuralPortfolio where
  accountIdentityHash := state.accountIdentityHash
  accountStatus := state.account.status
  accountCurrency := state.account.currency
  accountCash := state.account.cash
  accountBlocked := state.account.accountBlocked
  tradingBlocked := state.account.tradingBlocked
  optionsApprovalLevel := state.account.optionsApprovalLevel
  positions := state.positions.map fun p ↦
    { brokerPositionKey := p.brokerPositionKey, side := p.side, quantity := p.quantity,
      availableQuantity := p.availableQuantity, averageEntryPrice := p.averageEntryPrice,
      costBasis := p.costBasis }
  openOrders := state.openOrders

/-- `canonicalJsonHash` of the two objects a capture hashes. -/
class PortfolioHashing where
  portfolioHash : PortfolioState → String
  structuralHash : StructuralPortfolio → String

section Capture

variable [PortfolioHashing]

/-- `capturePostgresAuthorityBrokerSnapshot`, of the state the broker reports. -/
def capturePostgresAuthorityBrokerSnapshot (paper : Bool) (state : PortfolioState)
    (capturedAt : Time) : Except String AuthorityBrokerSnapshot := do
  require paper "PAPER_RUNTIME_REQUIRED"
  require (!(state.account.tradingBlocked || state.account.accountBlocked))
    "CURRENT_PAPER_ACCOUNT_BLOCKED"
  return {
    capturedAt
    accountIdentityHash := state.accountIdentityHash
    status := state.account.status
    currency := state.account.currency
    cash := state.account.cash
    equity := state.account.equity
    buyingPower := state.account.buyingPower
    optionsBuyingPower := state.account.optionsBuyingPower
    paper
    positions := state.positions
    structuralPortfolioFingerprint := PortfolioHashing.structuralHash state.structural
    portfolioFingerprint := PortfolioHashing.portfolioHash state }

/-- The snapshot is a capture of one of the states. -/
def AuthorityBrokerSnapshot.Captured (states : Set PortfolioState)
    (snapshot : AuthorityBrokerSnapshot) : Prop :=
  ∃ paper, ∃ state ∈ states, ∃ capturedAt,
    capturePostgresAuthorityBrokerSnapshot paper state capturedAt = .ok snapshot

/-- What a stored row must say of a snapshot. -/
structure AccountSnapshot.Carries (row : AccountSnapshot) (snapshot : AuthorityBrokerSnapshot) :
    Prop where
  fingerprint : row.snapshotFingerprint = snapshot.portfolioFingerprint
  buyingPower : row.buyingPower = some snapshot.buyingPower
  equity : row.equity = some snapshot.equity
  structural :
    row.structuralPortfolioFingerprint = some snapshot.structuralPortfolioFingerprint

/-- The row of a snapshot carries every snapshot with its fingerprint. -/
theorem AuthorityBrokerSnapshot.Captured.carries [Hashing] {states : Set PortfolioState}
    (hdigest : Set.InjOn PortfolioHashing.portfolioHash states)
    {old new : AuthorityBrokerSnapshot} (hold : old.Captured states) (hnew : new.Captured states)
    (hfingerprint : old.portfolioFingerprint = new.portfolioFingerprint) :
    old.row.Carries new := by
  obtain ⟨_, state, hstate, _, hold⟩ := hold
  obtain ⟨_, state', hstate', _, hnew⟩ := hnew
  simp only [capturePostgresAuthorityBrokerSnapshot, bind_eq_ok] at hold hnew
  obtain ⟨_, _, _, _, hold⟩ := hold
  obtain ⟨_, _, _, _, hnew⟩ := hnew
  cases hold
  cases hnew
  obtain rfl : state = state' := hdigest hstate hstate' hfingerprint
  exact ⟨rfl, rfl, rfl, rfl⟩

end Capture

/-! ## One sync -/

section Sync

variable [Hashing] {db db' : Db} {snapshot : AuthorityBrokerSnapshot} {session : Session}

/-- A row of the account with the fingerprint of the snapshot is stored. -/
def Recorded (snapshot : AuthorityBrokerSnapshot) (db : Db) : Prop :=
  ∃ row ∈ db.snapshots.rows, row.accountId = snapshot.accountId ∧
    row.snapshotFingerprint = snapshot.portfolioFingerprint

/-- The snapshots after a sync has stored its own. -/
def Records (snapshot : AuthorityBrokerSnapshot) (db db' : Db) : Prop :=
  (Recorded snapshot db ∧ db'.snapshots = db.snapshots) ∨
    (¬ Recorded snapshot db ∧ db'.snapshots.rows = db.snapshots.rows ++ [snapshot.row])

/-- The statements other than the one that stores the snapshot leave the snapshots alone. -/
theorem SyncStatement.snapshots_eq {statement : SyncStatement}
    (hstatement : statement ≠ .accountSnapshot)
    (h : statement.apply snapshot session db = .ok db') : db'.snapshots = db.snapshots := by
  rcases statement with - | - | - | - | position
  · obtain ⟨accounts, rfl⟩ := upsertAccount_writes h
    rfl
  · exact absurd rfl hstatement
  · obtain rfl := Except.ok.inj h
    rfl
  · obtain rfl := Except.ok.inj h
    rfl
  · obtain ⟨-, rfl⟩ | ⟨-, positions, -, rfl⟩ := upsertPosition_writes h
    · rfl
    · rfl

/-- The statement that stores the snapshot. -/
theorem insertAccountSnapshot_records (h : insertAccountSnapshot snapshot session db = .ok db') :
    Records snapshot db db' := by
  unfold insertAccountSnapshot at h
  split at h
  · next hstored =>
    cases h
    exact Or.inl ⟨by simpa [Recorded] using hstored, rfl⟩
  · next hstored =>
    simp only [bind_eq_ok, Table.insertOne_eq_ok] at h
    obtain ⟨_, _, snapshots, hinsert, h⟩ := h
    cases h
    exact Or.inr ⟨by simpa [Recorded] using hstored, Table.rows_of_insert? hinsert⟩

/-- A sequence of the other statements, whether or not it ends in an error. -/
theorem runSync_snapshots {statements : List SyncStatement}
    (h : SyncStatement.accountSnapshot ∉ statements) :
    (runSync snapshot session db statements).1.snapshots = db.snapshots := by
  induction statements generalizing db with
  | nil => rfl
  | cons statement rest ih =>
    obtain ⟨hne, hrest⟩ := not_or.1 (mt List.mem_cons.2 h)
    rw [runSync]
    split
    · rfl
    · next db₁ hok =>
      rw [ih hrest]
      exact SyncStatement.snapshots_eq (Ne.symm hne) hok

/-- **One sync.**  It keeps the stored snapshots and adds its own unless one with the same
fingerprint is there; a sync that fails may leave its own out. -/
theorem sync_records {result : Except String Unit}
    (h : syncBrokerAccountAndPositions db session snapshot = (db', result)) :
    Records snapshot db db' ∨ (result ≠ .ok () ∧ db'.snapshots = db.snapshots) := by
  unfold syncBrokerAccountAndPositions at h
  split at h
  · simp only [List.cons_append, List.nil_append, runSync] at h
    split at h
    · -- The account was not stored.
      cases h
      exact Or.inr ⟨by simp, rfl⟩
    · next db₁ haccount =>
      have hsame : db₁.snapshots = db.snapshots :=
        SyncStatement.snapshots_eq (by decide) haccount
      split at h
      · cases h
        exact Or.inr ⟨by simp, hsame⟩
      · next db₂ hsnapshot =>
        have hrest : db'.snapshots = db₂.snapshots := by
          have hkeep := @runSync_snapshots _ db₂ snapshot session
            (.closePositions :: .closeExits :: snapshot.positions.map .position) (by simp)
          simp only [runSync] at hkeep
          rw [h] at hkeep
          exact hkeep
        have hrecords := insertAccountSnapshot_records hsnapshot
        unfold Records Recorded at hrecords ⊢
        rw [hrest, ← hsame]
        exact Or.inl hrecords
  · cases h
    exact Or.inr ⟨by simp, rfl⟩

end Sync

/-! ## Runs of syncs -/

section Runs

variable [Hashing] [PortfolioHashing] {states : Set PortfolioState} {db db' : Db}
  {snapshot : AuthorityBrokerSnapshot} {session : Session}

/-- What happens to the snapshots: syncs, and the leases they run under. -/
inductive SnapshotAct where
  | sync (session : Session) (snapshot : AuthorityBrokerSnapshot)
  | lease (leases : Table Lease)

/-- The snapshot a sync is given. -/
def SnapshotAct.snapshot? : SnapshotAct → Option AuthorityBrokerSnapshot
  | sync _ snapshot => some snapshot
  | lease _ => none

/-- One step; a sync is called with its fence held. -/
def SnapshotAct.step (act : SnapshotAct) (db : Db) : Option Db :=
  match act with
  | sync session snapshot =>
    if fenceHeld db session then some (syncBrokerAccountAndPositions db session snapshot).1
    else none
  | lease leases => some { db with leases }

/-- The latest snapshot of the account is the given one. -/
def Latest (snapshot : AuthorityBrokerSnapshot) (db : Db) : Prop :=
  ∃ row, latestSnapshot db snapshot.accountId = some row ∧ row.Carries snapshot

/-- No row but the latest has the fingerprint of the snapshot: the state it shows is new, or the
one stored last. -/
def NotRecurring (snapshot : AuthorityBrokerSnapshot) (db : Db) : Prop :=
  ∀ row ∈ db.snapshots.rows, row.accountId = snapshot.accountId →
    row.snapshotFingerprint = snapshot.portfolioFingerprint →
    latestSnapshot db snapshot.accountId = some row

/-- The snapshots before a call: captures of the observed states, all of them older. -/
def Before (states : Set PortfolioState) (snapshot : AuthorityBrokerSnapshot) (db : Db) : Prop :=
  ∀ row ∈ db.snapshots.rows, row.observedAt < snapshot.capturedAt ∧
    ∃ s : AuthorityBrokerSnapshot, s.Captured states ∧ row = s.row

omit [Hashing] [PortfolioHashing] in
/-- A row observed after all others is the latest. -/
theorem latestSnapshot_append {row : AccountSnapshot}
    (hrows : db'.snapshots.rows = db.snapshots.rows ++ [row])
    (hlater : ∀ x ∈ db.snapshots.rows, x.observedAt < row.observedAt) :
    latestSnapshot db' row.accountId = some row := by
  unfold latestSnapshot
  rw [hrows, List.filter_append, List.filter_singleton]
  simp only [decide_true, cond_true]
  refine firstBy_append fun x hx ↦ ?_
  have hx := hlater x (List.mem_of_mem_filter hx)
  simp [hx]

/-- **After one sync**: the latest snapshot is the one passed exactly when its state does not come
back after another one. -/
theorem Records.latest_iff (hdigest : Set.InjOn PortfolioHashing.portfolioHash states)
    (hbefore : Before states snapshot db) (hcaptured : snapshot.Captured states)
    (h : Records snapshot db db') : Latest snapshot db' ↔ NotRecurring snapshot db := by
  rcases h with ⟨hrecorded, hsame⟩ | ⟨hnew, hrows⟩
  · -- Nothing is stored: the latest row is the one from before.
    have hlatest : latestSnapshot db' snapshot.accountId = latestSnapshot db snapshot.accountId := by
      unfold latestSnapshot
      rw [hsame]
    unfold Latest
    rw [hlatest]
    constructor
    · rintro ⟨latest, hlatest, hcarries⟩ row hrow haccount hfingerprint
      have hmem := List.mem_filter.1 (mem_of_firstBy hlatest)
      have haccount' : latest.accountId = snapshot.accountId := by simpa using hmem.2
      have hclash : Row.clash row latest :=
        Or.inr ⟨haccount.trans haccount'.symm, hfingerprint.trans hcarries.fingerprint.symm⟩
      rw [db.snapshots.eq_of_clash hrow hmem.1 hclash]
      exact hlatest
    · intro hnot
      obtain ⟨row, hrow, haccount, hfingerprint⟩ := hrecorded
      refine ⟨row, hnot row hrow haccount hfingerprint, ?_⟩
      obtain ⟨_, s, hs, rfl⟩ := hbefore row hrow
      exact hs.carries hdigest hcaptured hfingerprint
  · have hlatest : latestSnapshot db' snapshot.accountId = some snapshot.row :=
      latestSnapshot_append hrows fun x hx ↦ (hbefore x hx).1
    refine iff_of_true ⟨snapshot.row, hlatest, rfl, rfl, rfl, rfl⟩ ?_
    intro row hrow haccount hfingerprint
    exact absurd ⟨row, hrow, haccount, hfingerprint⟩ hnew

/-- A step with an earlier observation. -/
theorem SnapshotAct.step_before {act : SnapshotAct} (hbefore : Before states snapshot db)
    (hact : ∀ s, act.snapshot? = some s → s.Captured states ∧ s.capturedAt < snapshot.capturedAt)
    (h : act.step db = some db') : Before states snapshot db' := by
  cases act with
  | sync session s =>
    obtain ⟨hcaptured, hlt⟩ := hact s rfl
    rw [SnapshotAct.step, Option.ite_none_right_eq_some] at h
    obtain ⟨hfence, h⟩ := h
    obtain ⟨db₁, result, hsync⟩ :
        ∃ db₁ result, syncBrokerAccountAndPositions db session s = (db₁, result) := ⟨_, _, rfl⟩
    rw [hsync] at h
    obtain rfl : db₁ = db' := Option.some_inj.1 h
    rcases sync_records hsync with (⟨_, hsame⟩ | ⟨_, hrows⟩) | ⟨_, hsame⟩
    · unfold Before
      rw [hsame]
      exact hbefore
    · intro row hrow
      rw [hrows, List.mem_append, List.mem_singleton] at hrow
      rcases hrow with hrow | rfl
      · exact hbefore row hrow
      · exact ⟨hlt, s, hcaptured, rfl⟩
    · unfold Before
      rw [hsame]
      exact hbefore
  | lease leases =>
    cases h
    exact hbefore

theorem runActs_before {acts : List SnapshotAct} (hbefore : Before states snapshot db)
    (hacts : ∀ act ∈ acts, ∀ s, act.snapshot? = some s →
      s.Captured states ∧ s.capturedAt < snapshot.capturedAt)
    (hrun : runActs SnapshotAct.step db acts = some db') : Before states snapshot db' := by
  induction acts generalizing db with
  | nil =>
    obtain rfl : db = db' := Option.some_inj.1 hrun
    exact hbefore
  | cons act rest ih =>
    obtain ⟨db₁, hstep, hrest⟩ := runActs_cons.1 hrun
    have hbefore₁ := act.step_before hbefore (hacts act List.mem_cons_self) hstep
    exact ih hbefore₁ (fun a ha ↦ hacts a (List.mem_cons_of_mem _ ha)) hrest

/-- **The latest snapshot is the last observed one.**  After any sequence of syncs with increasing
times, a further sync that returns leaves its own snapshot as the latest exactly when the portfolio
state it observed is new or still the latest stored. -/
theorem latest_snapshot_last_observed_iff
    (hdigest : Set.InjOn PortfolioHashing.portfolioHash states) {start db db' : Db}
    {acts : List SnapshotAct} {session : Session} {snapshot : AuthorityBrokerSnapshot}
    (hstart : Before states snapshot start) (hcaptured : snapshot.Captured states)
    (hacts : ∀ act ∈ acts, ∀ s, act.snapshot? = some s → s.Captured states)
    (hincreasing : (acts.filterMap SnapshotAct.snapshot? ++ [snapshot]).Pairwise
      fun s t ↦ s.capturedAt < t.capturedAt)
    (hrun : runActs SnapshotAct.step start acts = some db)
    (hsync : syncBrokerAccountAndPositions db session snapshot = (db', .ok ())) :
    Latest snapshot db' ↔ NotRecurring snapshot db := by
  have hbefore : Before states snapshot db := by
    refine runActs_before hstart (fun act hact s hs ↦ ⟨hacts act hact s hs, ?_⟩) hrun
    have hmem : s ∈ acts.filterMap SnapshotAct.snapshot? := List.mem_filterMap.2 ⟨act, hact, hs⟩
    exact (List.pairwise_append.1 hincreasing).2.2 s hmem snapshot (List.mem_singleton.2 rfl)
  rcases sync_records hsync with hrecords | ⟨hfailed, _⟩
  · exact hrecords.latest_iff hdigest hbefore hcaptured
  · exact absurd rfl hfailed

end Runs

/-! ## A state that comes back

An order is placed and cancelled again: the portfolio is in the state it was in before, and the
snapshot with the open order stays the latest one. -/

namespace Specimen

/-- Digests that tell states apart by their open orders. -/
@[reducible] def portfolioHashing : PortfolioHashing where
  portfolioHash state := "portfolio:" ++ ",".intercalate (state.openOrders.map (·.brokerOrderId))
  structuralHash state := "structure:" ++ ",".intercalate (state.openOrders.map (·.brokerOrderId))

/-- The account without open orders. -/
def flat : PortfolioState where
  accountIdentityHash := "id"
  account :=
    { status := "ACTIVE", currency := "USD", cash := 1000, equity := 1000, buyingPower := 1000,
      optionsBuyingPower := 1000, optionsApprovalLevel := 2 }

/-- The account with an open order, which ties up buying power. -/
def ordered : PortfolioState :=
  { flat with
    account := { flat.account with buyingPower := 900 }
    openOrders := [
      { brokerOrderId := "b-1", clientOrderId := "c-1", symbol := "XYZ", assetClass := .equity,
        side := "buy", orderType := "limit", timeInForce := "day", status := "new",
        quantity := some 1, notional := none, limitPrice := some 100 }] }

/-- The snapshot of a state. -/
def snapshotOf (state : PortfolioState) (capturedAt : Time) : AuthorityBrokerSnapshot where
  capturedAt
  accountIdentityHash := state.accountIdentityHash
  status := state.account.status
  currency := state.account.currency
  cash := state.account.cash
  equity := state.account.equity
  buyingPower := state.account.buyingPower
  optionsBuyingPower := state.account.optionsBuyingPower
  positions := state.positions
  structuralPortfolioFingerprint := portfolioHashing.structuralHash state.structural
  portfolioFingerprint := portfolioHashing.portfolioHash state

/-- An empty database under the lease of the worker. -/
def unobserved : Db := { leases := account.leases }

/-- The order is observed once. -/
def orderedActs : List SnapshotAct :=
  [.sync session (snapshotOf flat 1000), .sync session (snapshotOf ordered 2000)]

theorem orderedActs_run : (runActs (@SnapshotAct.step hashing) unobserved orderedActs).isSome := by
  decide +kernel

/-- The database after the two syncs. -/
def orderedDb : Db := (runActs (@SnapshotAct.step hashing) unobserved orderedActs).get orderedActs_run

/-- The sync after the order is gone. -/
def recurringSync : Db × Except String Unit :=
  @syncBrokerAccountAndPositions hashing orderedDb session (snapshotOf flat 3000)

theorem recurringSync_ok : recurringSync.2 = .ok () := by
  decide +kernel

theorem snapshotOf_captured {state : PortfolioState} (h : state ∈ [flat, ordered])
    (capturedAt : Time) :
    @AuthorityBrokerSnapshot.Captured portfolioHashing {flat, ordered}
      (snapshotOf state capturedAt) := by
  have hopen : (state.account.tradingBlocked || state.account.accountBlocked) = false := by
    rcases List.mem_pair.1 h with rfl | rfl <;> rfl
  refine ⟨true, state, by simpa using h, capturedAt, ?_⟩
  simp only [capturePostgresAuthorityBrokerSnapshot, hopen]
  rfl

theorem digest_injOn : Set.InjOn portfolioHashing.portfolioHash {flat, ordered} := by
  have hne : portfolioHashing.portfolioHash flat ≠ portfolioHashing.portfolioHash ordered := by
    decide +kernel
  rintro _ (rfl | rfl) _ (rfl | rfl) heq
  · rfl
  · exact absurd heq hne
  · exact absurd heq.symm hne
  · rfl

end Specimen

/-- The rule at work: the state without orders is stored, but is not the latest. -/
theorem specimen_latest_iff :
    Latest (Specimen.snapshotOf Specimen.flat 3000) Specimen.recurringSync.1 ↔
      NotRecurring (Specimen.snapshotOf Specimen.flat 3000) Specimen.orderedDb := by
  let _ := Specimen.hashing
  let _ := Specimen.portfolioHashing
  refine latest_snapshot_last_observed_iff Specimen.digest_injOn
    (fun _ hrow ↦ absurd hrow List.not_mem_nil)
    (Specimen.snapshotOf_captured List.mem_cons_self 3000) (fun act hact s hs ↦ ?_)
    (by decide +kernel) (Option.some_get Specimen.orderedActs_run).symm
    (Prod.ext rfl Specimen.recurringSync_ok)
  rcases List.mem_pair.1 hact with rfl | rfl
  · cases hs
    exact Specimen.snapshotOf_captured (by simp) _
  · cases hs
    exact Specimen.snapshotOf_captured (by simp) _

/-- A state that comes back is not the latest: the sync returns, and the readers still see the
buying power that the cancelled order tied up. -/
theorem recurring_state_not_latest :
    Specimen.recurringSync.2 = .ok () ∧
      (latestSnapshot Specimen.recurringSync.1 "account_id").bind (·.buyingPower) = some 900 ∧
      ¬ Latest (Specimen.snapshotOf Specimen.flat 3000) Specimen.recurringSync.1 := by
  have hlatest : (latestSnapshot Specimen.recurringSync.1 "account_id").bind (·.buyingPower) =
      some 900 := by decide +kernel
  refine ⟨Specimen.recurringSync_ok, hlatest, ?_⟩
  rintro ⟨row, hrow, hcarries⟩
  have haccount : (Specimen.snapshotOf Specimen.flat 3000).accountId = "account_id" := by
    decide +kernel
  rw [haccount] at hrow
  rw [hrow, Option.bind_some, hcarries.buyingPower] at hlatest
  have hdistinct : (some (Specimen.snapshotOf Specimen.flat 3000).buyingPower : Option ℚ) ≠
      some 900 := by decide +kernel
  exact hdistinct hlatest

end AlpacaTrading
