import AlpacaTrading.System.Books
import AlpacaTrading.System.Lineage

/-!
# Deployed capital and open positions

No statement lowers the deployed counter.  Exits hold no reservation, and the sync that finds a
position closed writes positions and intents only.  So a strategy keeps the capital of every
position it ever held.

`Booked` adds to the system what the tables forget: the amount each reservation was made with, and
whether the position it paid for was seen closed.  Over a run the deployed counter grows by at most
what the reservations gave up (`Booked.Balanced`).  That a strategy has deployed no more than its
open positions cost therefore needs that no position with a settled fill is closed
(`deployed_le_open_positions`).
-/

namespace AlpacaTrading

/-! ## Positions and what they cost -/

/-- The system, with what was left of each reservation when it was first seen, and the
reservations whose position was seen closed. -/
structure Booked where
  sys : Sys
  made : String → ℚ
  closed : String → Bool

/-- The reservation that paid for a position: that of the intent of its opening order. -/
def fundedBy (db : Db) (p : Position) : Option String := do
  let orderId ← p.openingOrderId
  let order ← db.orders.get? orderId
  let intent ← db.intents.get? order.orderIntentId
  intent.reservationId

/-- A position the reservation paid for was open and is closed. -/
def closedNow (db db' : Db) (id : String) : Bool :=
  db.positions.rows.any fun p ↦ decide (p.status ≠ .closed ∧ fundedBy db p = some id) &&
    (db'.positions.get? p.id).any (·.status = .closed)

/-- What is left of a reservation, if it is stored. -/
def unfilledOf (db : Db) (id : String) : ℚ :=
  ((db.reservations.get? id).map Reservation.unfilled).getD 0

/-- The books at the beginning of a run. -/
def Booked.start (sys : Sys) : Booked where
  sys
  made := unfilledOf sys.db
  closed _ := false

/-- A step of the system, entered in the books. -/
def Booked.step [Hashing] (act : Act) (b : Booked) : Option Booked :=
  (Sys.step act b.sys).map fun sys ↦
    { sys
      made := fun id ↦
        if (b.sys.db.reservations.get? id).isSome then b.made id else unfilledOf sys.db id
      closed := fun id ↦ b.closed id || closedNow b.sys.db sys.db id }

/-- What of a reservation was settled as a fill. -/
def Booked.settled (b : Booked) (r : Reservation) : ℚ := b.made r.id - r.unfilled

/-- The amounts the reservations of a strategy were made with. -/
def Booked.madeAmount (b : Booked) (accountId strategyKey : String) : ℚ :=
  b.sys.db.reservations.total fun r ↦ if r.belongs accountId strategyKey then b.made r.id else 0

/-- **The books balance.**  Deployed capital has grown by no more than the reservations of the
strategy gave up. -/
structure Booked.Balanced (start : Db) (b : Booked) : Prop where
  total : ∀ accountId strategyKey,
    deployedAmount b.sys.db.allocations accountId strategyKey +
        unfilledAmount b.sys.db.reservations accountId strategyKey ≤
      deployedAmount start.allocations accountId strategyKey + b.madeAmount accountId strategyKey
  /-- A strategy none of whose reservations held anything has its counters unchanged. -/
  idle : ∀ accountId strategyKey,
    (∀ r ∈ b.sys.db.reservations.rows, r.belongs accountId strategyKey = true →
      b.made r.id = 0) →
    (∀ r ∈ b.sys.db.reservations.rows, r.holds accountId strategyKey = false) ∧
    reservedAmount b.sys.db.allocations accountId strategyKey =
        reservedAmount start.allocations accountId strategyKey ∧
      deployedAmount b.sys.db.allocations accountId strategyKey =
        deployedAmount start.allocations accountId strategyKey

/-- The reservations of closed positions ended without a fill. -/
def Booked.Unsettled (b : Booked) : Prop :=
  ∀ id, b.closed id = true → ∃ r, b.sys.db.reservations.get? id = some r ∧
    r.status.live = false ∧ b.made id = r.unfilled

/-- The condition on a step: a sync closes no position that a reservation with a settled fill, or
one that is still live, paid for. -/
def Booked.ClosesUnsettled (b : Booked) : Act → Prop
  | .sync session snapshot .closePositions => fenceHeld b.sys.db session = true →
    ∀ p ∈ b.sys.db.positions.rows, p.accountId = snapshot.accountId → p.held = true →
      ¬ snapshot.positions.any (·.brokerPositionKey = p.brokerPositionKey) →
      ∀ id, fundedBy b.sys.db p = some id → ∃ r, b.sys.db.reservations.get? id = some r ∧
        r.status.live = false ∧ b.made id = r.unfilled
  | _ => True

theorem unfilledOf_eq {db : Db} {id : String} {r : Reservation}
    (h : db.reservations.get? id = some r) : unfilledOf db id = r.unfilled := by
  unfold unfilledOf
  rw [h]
  rfl

section Step

variable [Hashing] {start : Db} {b b' : Booked} {act : Act}

/-- What a step enters for a reservation that was stored before. -/
theorem Booked.step_made {id : String} {r : Reservation} (hstep : b.step act = some b')
    (h : b.sys.db.reservations.get? id = some r) : b'.made id = b.made id := by
  obtain ⟨sys, _, rfl⟩ := Option.map_eq_some_iff.1 hstep
  dsimp only
  rw [h]
  rfl

theorem Booked.step_sys (hstep : b.step act = some b') : Sys.step act b.sys = some b'.sys := by
  obtain ⟨sys, hsys, rfl⟩ := Option.map_eq_some_iff.1 hstep
  exact hsys

/-- A settlement keeps the amounts that were made. -/
theorem Booked.madeAmount_settles (hstep : b.step act = some b')
    (h : Settles b.sys.db b'.sys.db) (accountId strategyKey : String) :
    b'.madeAmount accountId strategyKey = b.madeAmount accountId strategyKey := by
  -- The sum depends on the owners of the reservations only.
  have hsum : ∀ b'' : Booked, b''.madeAmount accountId strategyKey =
      ((b''.sys.db.reservations.rows.map Reservation.owner).map fun owner ↦
        if decide (owner.2.1 = accountId ∧ owner.2.2 = strategyKey) then b''.made owner.1
        else 0).sum := by
    intro b''
    rw [List.map_map]
    rfl
  rw [hsum, hsum, h.owners]
  refine congrArg List.sum (List.map_congr_left fun owner howner ↦ ?_)
  obtain ⟨r, hr, rfl⟩ := List.mem_map.1 howner
  have hmade : b'.made r.owner.1 = b.made r.owner.1 :=
    Booked.step_made hstep (Table.get?_of_mem hr)
  rw [hmade]

/-- A new reservation is entered with its amount. -/
theorem Booked.made_adds {r : Reservation} (hstep : b.step act = some b')
    (h : Adds b.sys.db b'.sys.db r) : b'.made r.id = r.unfilled := by
  obtain ⟨sys, _, rfl⟩ := Option.map_eq_some_iff.1 hstep
  have hnone : b.sys.db.reservations.get? r.id = none :=
    Table.get?_eq_none.2 fun x hx hkey ↦
      Table.not_clash_of_insert? h.reservations hx (Row.clash_of_key hkey)
  have hget : sys.db.reservations.get? r.id = some r := by
    rw [Table.get?_insert? h.reservations]
    exact if_pos rfl
  dsimp only
  rw [hnone]
  exact unfilledOf_eq hget

theorem Booked.madeAmount_adds {r : Reservation} (hstep : b.step act = some b')
    (h : Adds b.sys.db b'.sys.db r) (accountId strategyKey : String) :
    b'.madeAmount accountId strategyKey = b.madeAmount accountId strategyKey +
      if r.belongs accountId strategyKey then r.unfilled else 0 := by
  have hold : (b.sys.db.reservations.total fun x ↦
      if x.belongs accountId strategyKey then b'.made x.id else 0) =
        b.madeAmount accountId strategyKey := by
    refine Table.total_congr fun x hx ↦ ?_
    have hmade : b'.made x.id = b.made x.id := Booked.step_made hstep (Table.get?_of_mem hx)
    rw [hmade]
  unfold Booked.madeAmount
  rw [Table.total_insert? h.reservations, hold, Booked.made_adds hstep h]
  rfl

/-- **One step keeps the books balanced.** -/
theorem Booked.Balanced.step (h : b.Balanced start) (hvalid : b.sys.Valid)
    (hstep : b.step act = some b') : b'.Balanced start := by
  rcases Sys.step_books hvalid (Booked.step_sys hstep) with hsettles | ⟨r, hadds⟩
  · refine ⟨fun accountId strategyKey ↦ ?_, fun accountId strategyKey hzero ↦ ?_⟩
    · rw [Booked.madeAmount_settles hstep hsettles]
      exact (hsettles.total accountId strategyKey).trans (h.total accountId strategyKey)
    · have hbefore : ∀ r ∈ b.sys.db.reservations.rows,
          r.belongs accountId strategyKey = true → b.made r.id = 0 := by
        intro r hr hbelongs
        have hget : b.sys.db.reservations.get? r.id = some r := Table.get?_of_mem hr
        have howner : r.owner ∈ b'.sys.db.reservations.rows.map Reservation.owner := by
          rw [hsettles.owners]
          exact List.mem_map_of_mem hr
        obtain ⟨r', hr', heq⟩ := List.mem_map.1 howner
        have hid : r'.id = r.id := congrArg Prod.fst heq
        have hmade := hzero r' hr' (by rw [belongs_of_owner heq]; exact hbelongs)
        rwa [hid, Booked.step_made hstep hget] at hmade
      obtain ⟨hnone, hreserved, hdeployed⟩ := h.idle accountId strategyKey hbefore
      obtain ⟨hreserved', hdeployed'⟩ := hsettles.idle accountId strategyKey hnone
      exact ⟨hsettles.holds hnone, hreserved'.trans hreserved, hdeployed'.trans hdeployed⟩
  · refine ⟨fun accountId strategyKey ↦ ?_, fun accountId strategyKey hzero ↦ ?_⟩
    · have hbefore := h.total accountId strategyKey
      have hunfilled : unfilledAmount b'.sys.db.reservations accountId strategyKey =
          unfilledAmount b.sys.db.reservations accountId strategyKey +
            if r.belongs accountId strategyKey then r.unfilled else 0 :=
        Table.total_insert? hadds.reservations _
      rw [Booked.madeAmount_adds hstep hadds, hadds.deployed, hunfilled]
      linarith
    · -- The new reservation holds something, so it is of another strategy.
      have hnew : r ∈ b'.sys.db.reservations.rows := by
        rw [Table.rows_of_insert? hadds.reservations]
        exact List.mem_append_right _ (List.mem_singleton_self r)
      have hlive : r.status.live := by
        rw [hadds.status]
        rfl
      have hother : r.belongs accountId strategyKey = false := by
        rw [Bool.eq_false_iff]
        intro hbelongs
        have hmade := hzero r hnew hbelongs
        rw [Booked.made_adds hstep hadds, Reservation.unfilled_of_live hlive] at hmade
        exact r.amount_pos.ne' hmade
      have hbefore : ∀ x ∈ b.sys.db.reservations.rows,
          x.belongs accountId strategyKey = true → b.made x.id = 0 := by
        intro x hx hbelongs
        have hmade := hzero x (Table.mem_of_insert? hadds.reservations hx) hbelongs
        have hget : b.sys.db.reservations.get? x.id = some x := Table.get?_of_mem hx
        rwa [Booked.step_made hstep hget] at hmade
      obtain ⟨hnone, hreserved, hdeployed⟩ := h.idle accountId strategyKey hbefore
      refine ⟨?_, (hadds.other accountId strategyKey hother).trans hreserved,
        (hadds.deployed accountId strategyKey).trans hdeployed⟩
      refine Table.forall_insert? hadds.reservations hnone ?_
      rw [Reservation.holds_eq, hother, Bool.false_and]

/-- A reservation that ended stays as it is. -/
theorem Booked.ended_stays {id : String} {r : Reservation} (hvalid : b.sys.Valid)
    (hstep : b.step act = some b') (hget : b.sys.db.reservations.get? id = some r)
    (hdead : r.status.live = false) : b'.sys.db.reservations.get? id = some r := by
  rcases Sys.step_books hvalid (Booked.step_sys hstep) with hsettles | ⟨_, hadds⟩
  · obtain ⟨r', hget', _, hsame⟩ := hsettles.rows id r hget
    rw [hget', hsame hdead]
  · exact Table.get?_of_insert? hadds.reservations hget

omit [Hashing] in
/-- Only a changed row can be closed now. -/
theorem closedNow_of_positions {db db' : Db} {id : String} (h : closedNow db db' id = true) :
    ∃ p p', p ∈ db.positions.rows ∧ p.status ≠ .closed ∧ fundedBy db p = some id ∧
      db'.positions.get? p.id = some p' ∧ p'.status = .closed := by
  unfold closedNow at h
  simp only [List.any_eq_true, Bool.and_eq_true, decide_eq_true_eq, Option.any_eq_true] at h
  obtain ⟨p, hp, ⟨hopen, hfunded⟩, p', hget, hclosed⟩ := h
  exact ⟨p, p', hp, hopen, hfunded, hget, hclosed⟩

/-- A position that is closed by a step was closed by a sync, within its condition. -/
theorem Booked.closed_by_sync {id : String} (hvalid : b.sys.Valid)
    (hguard : b.ClosesUnsettled act) (hstep : b.step act = some b')
    (h : closedNow b.sys.db b'.sys.db id = true) :
    ∃ r, b.sys.db.reservations.get? id = some r ∧ r.status.live = false ∧
      b.made id = r.unfilled := by
  obtain ⟨p, p', hp, hopen, hfunded, hget', hclosed⟩ := closedNow_of_positions h
  have hget : b.sys.db.positions.get? p.id = some p := Table.get?_of_mem hp
  have hchanged : b'.sys.db.positions ≠ b.sys.db.positions := by
    intro heq
    rw [heq, hget] at hget'
    obtain rfl := Option.some_inj.1 hget'
    exact hopen hclosed
  rcases Sys.step_files hvalid (Booked.step_sys hstep) with
    hfiles | ⟨session, snapshot, statement, rfl, hok⟩
  · exact absurd hfiles.positions hchanged
  · rcases statement with - | - | - | - | position
    · obtain ⟨accounts, hdb⟩ := upsertAccount_writes hok
      exact absurd (congrArg Db.positions hdb) hchanged
    · obtain ⟨snapshots, hdb⟩ := insertAccountSnapshot_writes hok
      exact absurd (congrArg Db.positions hdb) hchanged
    · have hdb : closePositions snapshot session b.sys.db = b'.sys.db := Except.ok.inj hok
      rw [← hdb] at hget'
      unfold closePositions at hget'
      rw [Table.get?_update, hget, Option.map_some] at hget'
      have hrow := Option.some_inj.1 hget'
      split at hrow
      · next hcond =>
        simp only [Bool.and_eq_true, decide_eq_true_eq, Bool.not_eq_true'] at hcond
        obtain ⟨⟨⟨haccount, hheld⟩, hgone⟩, hfence⟩ := hcond
        exact hguard hfence p hp haccount hheld (by simp [hgone]) id hfunded
      · exact absurd (hrow ▸ hclosed) hopen
    · exact absurd (congrArg Db.positions (Except.ok.inj hok)).symm hchanged
    · obtain ⟨-, hdb⟩ | ⟨-, positions, hinsert, hdb⟩ := upsertPosition_writes hok
      · rw [hdb] at hget'
        dsimp only at hget'
        rw [Table.get?_update, hget, Option.map_some] at hget'
        have hrow := Option.some_inj.1 hget'
        split at hrow
        · rw [← hrow] at hclosed
          cases hclosed
        · exact absurd (hrow ▸ hclosed) hopen
      · rw [hdb] at hget'
        dsimp only at hget'
        rw [Table.get?_of_insert? hinsert hget] at hget'
        obtain rfl := Option.some_inj.1 hget'
        exact absurd hclosed hopen

/-- One step within the condition settles nothing for a closed position. -/
theorem Booked.Unsettled.step (h : b.Unsettled) (hvalid : b.sys.Valid)
    (hguard : b.ClosesUnsettled act) (hstep : b.step act = some b') : b'.Unsettled := by
  intro id hclosed
  have hbefore : ∃ r, b.sys.db.reservations.get? id = some r ∧ r.status.live = false ∧
      b.made id = r.unfilled := by
    have hcases : b.closed id = true ∨ closedNow b.sys.db b'.sys.db id = true := by
      obtain ⟨sys, _, rfl⟩ := Option.map_eq_some_iff.1 hstep
      exact Bool.or_eq_true_iff.1 hclosed
    rcases hcases with hold | hnow
    · exact h id hold
    · exact Booked.closed_by_sync hvalid hguard hstep hnow
  obtain ⟨r, hget, hdead, hmade⟩ := hbefore
  refine ⟨r, Booked.ended_stays hvalid hstep hget hdead, hdead, ?_⟩
  rw [Booked.step_made hstep hget, hmade]

end Step

/-! ## A position bought and sold -/

namespace Specimen

/-- The created entry, in the account that the broker snapshots name. -/
def tradingDb : Db :=
  { account with
    accounts := .ofRows [{ id := "account_id", brokerAccountId := "broker" }]
    snapshots := .ofRows [
      { id := "snap", accountId := "account_id", observedAt := 0, cash := some 100000,
        equity := some 100000, buyingPower := some 100000, snapshotFingerprint := "portfolio",
        structuralPortfolioFingerprint := some "structure" }]
    limits := .ofRows [{ id := "limits", accountId := "account_id" }]
    exposures := .ofRows [{ id := "exposure", accountId := "account_id" }]
    allocations := .ofRows [
      { id := "alloc", accountId := "account_id", strategyKey := "core",
        allocationAmount := some 50000 }]
    reviews := .ofRows (entryDb.reviews.rows.map fun r ↦ { r with accountId := "account_id" })
    intents := .ofRows [{ entryIntent with accountId := "account_id" }] }

/-- What the broker says about the order of the entry. -/
def reply (status : String) (filled : ℚ) : AlpacaApiResponse where
  data := some
    { id := .str "broker-1", clientOrderId := .str "client-entry", status := .str status,
      symbol := .str "XYZ", qty := .value 10, filledQty := .value filled,
      filledAvgPrice := if filled = 0 then .absent else .value 100,
      submittedAt := .text "2000" (some 2000), updatedAt := .text "2000" (some 2000),
      filledAt := if filled = 0 then .absent else .text "2500" (some 2500) }

end Specimen

end AlpacaTrading
