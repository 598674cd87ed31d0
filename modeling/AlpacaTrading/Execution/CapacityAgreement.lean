import AlpacaTrading.Execution.Inversion

/-!
# Promotion and claim agree on capacity

Promotion checks capacity for an amount before the reservation of that amount is inserted, the
claim checks it without the amount afterwards.  Inserting the reservation moves exactly the sums
the amount was added to, so the second check follows from the first (`claim_capacity_of_promoted`).

What both checks overlook are orders: they sum the orders whose stored status is one of six
texts, and an order without a notional and without a limit price adds nothing to the sum.  The
classifier of the broker service calls many more statuses active.
-/

namespace AlpacaTrading

/-! ## The sums after a promotion -/

section Promoted

variable {db : Db} {r : Reservation} {accountId symbol : String} {now : Time}

theorem reservations_after_insert {reservations : Table Reservation}
    (h : db.reservations.insert? r = some reservations) (p : Reservation → Bool) (hp : p r) :
    sumWhere reservations p (·.amount) = sumWhere db.reservations p (·.amount) + r.amount := by
  unfold sumWhere
  rw [Table.total_insert? h, if_pos hp]

/-- The exposure read by the claim, after a counted reservation of the symbol was inserted. -/
theorem exposed_after_insert {reservations : Table Reservation} {db' : Db}
    (h : db.reservations.insert? r = some reservations) (hcounted : r.counted accountId now)
    (hsymbol : r.symbol = symbol) (hres : db'.reservations = reservations)
    (hord : db'.orders = db.orders) (hpos : db'.positions = db.positions) :
    exposed db' accountId symbol now =
      { exposed db accountId symbol now with
        reservations := (exposed db accountId symbol now).reservations + r.amount
        reservationsOfSymbol :=
          (exposed db accountId symbol now).reservationsOfSymbol + r.amount } := by
  simp only [exposed, hres, hord, hpos]
  rw [reservations_after_insert h _ hcounted,
    reservations_after_insert h _ (by simp [hcounted, hsymbol])]

end Promoted

/-! ## From the first check to the second -/

/-- The claim's conjuncts follow from promotion's once the amount is part of the sums. -/
theorem claimCapacity_of_promotionCapacity {e : Exposed} {snapshot : AccountSnapshot}
    {limits : RiskLimit} {allocation : Allocation} {amount : ℚ} {now : Time}
    (h : capacityAllowed (some (promotionCapacity e snapshot limits allocation amount))) :
    capacityAllowed (some (claimCapacity
      { e with
        reservations := e.reservations + amount
        reservationsOfSymbol := e.reservationsOfSymbol + amount }
      snapshot limits (allocation.shift (· + amount) 0 now))) := by
  have hle : ∀ (bound : Option ℚ) (x y : ℚ) (g : ℚ → ℚ), x = y →
      bound.all (fun m ↦ decide (x ≤ g m)) = true →
      bound.all (fun m ↦ decide (y ≤ g m)) = true := by
    rintro bound x y g rfl hb
    exact hb
  simp only [capacityAllowed, Option.any_some, promotionCapacity, Bool.and_eq_true,
    decide_eq_true_eq] at h
  obtain ⟨⟨⟨⟨⟨hbuy, hdep₁, hdep₂⟩, hstr₁, hstr₂⟩, hsym⟩, hpos⟩, hord⟩ := h
  simp only [capacityAllowed, Option.any_some, claimCapacity, Bool.and_eq_true,
    decide_eq_true_eq]
  refine ⟨⟨⟨⟨⟨?_, ?_, ?_⟩, ?_, ?_⟩, ?_⟩, hpos⟩, hord⟩
  · linarith
  · exact hle _ _ _ id (by ring) hdep₁
  · exact hle _ _ _ (fun m ↦ snapshot.equity.getD 0 * m) (by ring) hdep₂
  · exact hle _ _ _ id (by simp only [Allocation.shift]; ring) hstr₁
  · exact hle _ _ _ (fun m ↦ snapshot.equity.getD 0 * m)
      (by simp only [Allocation.shift]; ring) hstr₂
  · exact hle _ _ _ id (by ring) hsym

/-- What the claim reads about an intent of an account: its capacity conjuncts on the current
rows. -/
def claimCapacityHolds (db : Db) (intent : Intent) (snapshot : AccountSnapshot) (now : Time) :
    Bool :=
  capacityAllowed do
    let limits ← currentLimits db intent.accountId
    let allocation ← currentAllocation db intent.accountId intent.strategyKey
    return claimCapacity (exposed db intent.accountId intent.symbol now) snapshot limits
      allocation

/-- Once the reservation of the amount is stored and the counter raised by it, the check of
promotion becomes the check of the claim. -/
theorem claimCapacityHolds_of_reserved {db db' : Db} {row : ConfirmableIntentRow}
    {r : Reservation} {amount : ℚ} {now : Time}
    (hcap : promotionAllowed db row now amount) (hamount : r.amount = amount)
    (hins : db.reservations.insert? r = some db'.reservations)
    (hcounted : r.counted row.intent.accountId now) (hsymbol : r.symbol = row.intent.symbol)
    (hcount : adjustCount db.allocations row.intent.accountId row.intent.strategyKey = 1)
    (hallocations : db'.allocations = adjust db.allocations row.intent.accountId
      row.intent.strategyKey (· + amount) 0 now)
    (hlimits : db'.limits = db.limits) (horders : db'.orders = db.orders)
    (hpositions : db'.positions = db.positions) :
    claimCapacityHolds db' row.intent row.snapshot now := by
  obtain ⟨allocation, hmem, hserves⟩ := exists_serves_of_adjustCount hcount
  have hcurrent := currentAllocation_eq_some.2 ⟨hmem, hserves⟩
  have hshift : currentAllocation db' row.intent.accountId row.intent.strategyKey =
      some (allocation.shift (· + amount) 0 now) := by
    refine currentAllocation_eq_some.2 ⟨?_, hserves⟩
    rw [hallocations]
    exact Table.mem_update.2 ⟨allocation, hmem, by rw [if_pos hserves]⟩
  have hlim : currentLimits db' row.intent.accountId = currentLimits db row.intent.accountId := by
    unfold currentLimits
    rw [hlimits]
  unfold promotionAllowed at hcap
  unfold claimCapacityHolds
  rw [hshift, hlim, exposed_after_insert hins hcounted hsymbol rfl horders hpositions, hamount]
  rw [hcurrent] at hcap
  cases hcase : currentLimits db row.intent.accountId with
  | none =>
    rw [hcase] at hcap
    exact hcap
  | some limits =>
    rw [hcase] at hcap
    exact claimCapacity_of_promotionCapacity hcap

section Agreement

variable [Hashing]

/-- **Promotion capacity implies claim capacity.**  After an entry is promoted, the six conjuncts
of the claim hold for it on the same snapshot. -/
theorem claim_capacity_of_promoted {db db' : Db} {command : ExecutionCommand} {session : Session}
    {signingKey : String} {now : Time} {locked : String → Bool} {id conf res : String}
    (h : promoteNextConfirmedPostgresIntent db command session signingKey now locked =
      .ok (db', .promoted id conf (some res))) :
    ∃ i i' snapshot, db.intents.get? id = some i ∧ db'.intents.get? id = some i' ∧
      i'.accountId = i.accountId ∧ db'.orders = db.orders ∧
      latestSnapshot db i.accountId = some snapshot ∧
      latestSnapshot db' i'.accountId = some snapshot ∧
      claimCapacityHolds db' i' snapshot now := by
  rcases promote_ok h with ⟨_, hne⟩ | ⟨row, hrow, ⟨_, hconf⟩ | ⟨_, amount, _, hcap, hconf⟩⟩
  · exact absurd rfl (hne id conf (some res))
  · obtain ⟨_, _, _, _, _, _, _, _, _, _, _, _, hout⟩ := confirmIntent_ok hconf
    cases hout
  · obtain ⟨hget, _, hsnap, _⟩ := nextConfirmable_some hrow
    obtain ⟨confId, confirmations, candidates, db₂, i, expiresAt, hexp, fingerprint, hres, hi, _,
      rfl, hout⟩ := confirmIntent_ok hconf
    obtain ⟨reservations, hins, hcount, rfl⟩ := reserve_some_ok hres
    cases hout
    obtain rfl : row.intent = i := Option.some_inj.1 (hget.symm.trans hi)
    refine ⟨row.intent, row.intent.promote conf (some (reservationIdFor row.intent conf)) now,
      row.snapshot, hget, ?_, rfl, rfl, hsnap, hsnap, ?_⟩
    · rw [Table.get?_modify, if_pos rfl, hi]
      rfl
    -- The reservation is unexpired at the time of the promotion, so both sums contain it.
    · exact claimCapacityHolds_of_reserved hcap rfl hins
        (by simpa [Reservation.counted, promotedReservation] using hexp) rfl hcount rfl rfl rfl
        rfl

end Agreement

/-! ## The orders both checks overlook -/

/-- What an order adds to the open orders of an account. -/
def Order.contribution (accountId : String) (o : Order) : ℚ :=
  if o.counted accountId then o.capital.getD 0 else 0

/-- Every order of the account that the classifier calls active is counted as open and adds a
non-zero amount. -/
def CountsActive (db : Db) (accountId : String) : Prop :=
  ∀ o ∈ db.orders.rows, o.accountId = accountId → isActiveBrokerOrderStatus o.status →
    o.counted accountId ∧ o.contribution accountId ≠ 0

/-- The size of an order is known in money: it has a notional, or a quantity and a limit price. -/
def Order.priced (o : Order) : Bool :=
  o.notional.isSome || (o.quantity.isSome && o.limitPrice.isSome)

/-- An order whose columns pass their constraints stands for no capital exactly when it has no
price. -/
theorem Order.capital_ne_zero {o : Order} (h : o.financialValuesValid) :
    o.capital.getD 0 ≠ 0 ↔ o.priced := by
  unfold Order.financialValuesValid at h
  simp only [Bool.and_eq_true] at h
  obtain ⟨⟨⟨⟨⟨⟨⟨_, hq⟩, hn⟩, hl⟩, _⟩, _⟩, _⟩, _⟩ := h
  unfold Order.capital Order.priced
  cases hn' : o.notional with
  | some n =>
    rw [hn'] at hn
    have hpos : 0 < n := by simpa using hn
    simpa using hpos.ne'
  | none =>
    cases hq' : o.quantity with
    | none => simp
    | some q =>
      cases hl' : o.limitPrice with
      | none => simp
      | some l =>
        rw [hq'] at hq
        rw [hl'] at hl
        have hqpos : 0 < q := by simpa using hq
        have hlpos : 0 < l := by simpa using hl
        have hfactor : (0 : ℚ) < if o.assetClass = .option then 100 else 1 := by
          split <;> norm_num
        simpa using (mul_pos (mul_pos hqpos hlpos) hfactor).ne'

/-- The orders of an account are all counted exactly when each active one has one of the six
statuses and a price. -/
theorem countsActive_iff {db : Db} {accountId : String}
    (hvalid : ∀ o ∈ db.orders.rows, o.financialValuesValid) :
    CountsActive db accountId ↔
      ∀ o ∈ db.orders.rows, o.accountId = accountId → isActiveBrokerOrderStatus o.status →
        o.status ∈ openOrderStatuses ∧ o.priced := by
  refine forall₂_congr fun o ho ↦ forall₂_congr fun hacct _ ↦ ?_
  have hcounted : o.counted accountId = true ↔ o.status ∈ openOrderStatuses := by
    simp [Order.counted, hacct]
  rw [← Order.capital_ne_zero (hvalid o ho), ← hcounted]
  refine and_congr_right fun hc ↦ ?_
  unfold Order.contribution
  rw [if_pos hc]

section Main

variable [Hashing]

/-- **When promotion and claim agree on capacity.**  For a promoted entry the conjuncts of the claim
hold afterwards; and both checks, the one before and the one after, count every active order of
the account with a non-zero amount exactly when each such order has one of the six statuses the
queries list and a price. -/
theorem capacity_agreement_iff (db db' : Db) (command : ExecutionCommand) (session : Session)
    (signingKey : String) (now : Time) (locked : String → Bool) (id conf res : String)
    (i : Intent) (snapshot : AccountSnapshot) (hi : db.intents.get? id = some i)
    (hsnapshot : latestSnapshot db i.accountId = some snapshot)
    (hvalid : ∀ o ∈ db.orders.rows, o.financialValuesValid)
    (h : promoteNextConfirmedPostgresIntent db command session signingKey now locked =
      .ok (db', .promoted id conf (some res))) :
    ((∃ i', db'.intents.get? id = some i' ∧ latestSnapshot db' i'.accountId = some snapshot ∧
        claimCapacityHolds db' i' snapshot now) ∧
      CountsActive db i.accountId ∧ CountsActive db' i.accountId) ↔
      ∀ o ∈ db.orders.rows, o.accountId = i.accountId → isActiveBrokerOrderStatus o.status →
        o.status ∈ openOrderStatuses ∧ o.priced := by
  obtain ⟨j, i', snapshot', hj, hi', _, horders, hsnap, hsnap', hcap⟩ :=
    claim_capacity_of_promoted h
  obtain rfl : i = j := Option.some_inj.1 (hi.symm.trans hj)
  obtain rfl : snapshot = snapshot' := Option.some_inj.1 (hsnapshot.symm.trans hsnap)
  have hsame : CountsActive db' i.accountId ↔ CountsActive db i.accountId := by
    unfold CountsActive
    rw [horders]
  rw [hsame, and_self, ← countsActive_iff hvalid]
  exact and_iff_right ⟨i', hi', hsnap', hcap⟩

end Main

/-! ## Overlooked orders -/

namespace Specimen

/-- A created entry. -/
def entryIntent : Intent :=
  { id := "entry", accountId := "acct", candidateId := some "cand",
    executionReviewId := some "review", clientOrderId := "client-entry", strategyKey := "core",
    symbol := "XYZ", operation := some .buyToOpen, quantity := some 10, maxRisk := some 1000 }

/-- The account with the entry and its review. -/
def entryDb : Db :=
  { account with
    reviews := .ofRows [
      { id := "review", accountId := "acct", candidateId := some "cand", reviewType := .entry,
        status := .valid, clientOrderId := some "client-entry", accountFingerprint := "structure",
        payloadFingerprint := "payload", expiresAt := 900000,
        orderIntent :=
          { clientOrderId := some "client-entry", symbol := some "XYZ",
            assetClass := some .equity, side := some .buy, operation := some .buyToOpen,
            orderType := some .market, timeInForce := some .day, strategyKey := some "core",
            quantity := some "10" } }]
    intents := .ofRows [entryIntent] }

/-- A limit order that is being cancelled and a market order that was accepted. -/
def overlookedDb : Db :=
  { entryDb with
    orders := .ofRows [
      { id := "limit", accountId := "acct", orderIntentId := "earlier", clientOrderId := "c1",
        symbol := "XYZ", status := "pending_cancel", quantity := some 10,
        limitPrice := some 5 },
      { id := "market", accountId := "acct", orderIntentId := "other", clientOrderId := "c2",
        symbol := "XYZ", status := "new", quantity := some 10 }] }

/-- What the promotion of the entry returns. -/
def promotion (db : Db) : Except String (Db × PromotionResult) :=
  @promoteNextConfirmedPostgresIntent hashing db .paperExecuteReviewed session
    "signing-key-of-16" 2000 fun _ ↦ false

/-- The reservation the promotion of the entry makes. -/
def promotedResult : PromotionResult :=
  let confirmationId :=
    "confirmation_review|payload|paper:execute:reviewed|true|job|paper|worker|run|1"
  .promoted "entry" confirmationId (some ("reservation_acct|entry|" ++ confirmationId))

theorem exists_promotion (db : Db) (result : PromotionResult)
    (h : (promotion db).toOption.map Prod.snd = some result) :
    ∃ db', promotion db = .ok (db', result) := by
  cases hp : promotion db with
  | error e => simp [hp, Except.toOption] at h
  | ok out =>
    obtain ⟨db', result'⟩ := out
    rw [hp] at h
    simp only [Except.toOption, Option.map_some, Option.some_inj] at h
    exact ⟨db', by rw [h]⟩

end Specimen

/-- The general theorem at the specimen without orders: the entry is promoted, the claim still has
capacity for it, and no active order is missed. -/
theorem specimen_capacity_agrees :
    ∃ db', Specimen.promotion Specimen.entryDb = .ok (db', Specimen.promotedResult) ∧
      CountsActive Specimen.entryDb "acct" ∧ CountsActive db' "acct" := by
  let _ := Specimen.hashing
  obtain ⟨db', h⟩ := Specimen.exists_promotion Specimen.entryDb Specimen.promotedResult
    (by decide +kernel)
  have hiff := capacity_agreement_iff Specimen.entryDb db' .paperExecuteReviewed Specimen.session
    "signing-key-of-16" 2000 (fun _ ↦ false) "entry" _ _ Specimen.entryIntent _ (by decide)
    (by rfl) (by decide) h
  exact ⟨db', h, (hiff.2 (by decide)).2⟩

/-- Both checks overlook orders: with an active limit order under cancellation and an active market
order in the account the entry is promoted, and neither order adds anything. -/
theorem capacity_overlooks_active_orders :
    (∃ db', Specimen.promotion Specimen.overlookedDb = .ok (db', Specimen.promotedResult)) ∧
      ∀ o ∈ Specimen.overlookedDb.orders.rows, o.accountId = "acct" ∧ o.financialValuesValid ∧
        isActiveBrokerOrderStatus o.status ∧ o.contribution "acct" = 0 :=
  ⟨Specimen.exists_promotion _ _ (by decide +kernel), by decide +kernel⟩

end AlpacaTrading
