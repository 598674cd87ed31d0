import AlpacaTrading.Execution.Authorization

/-!
# Capacity

Promotion asks whether an entry of a given amount still fits into the account, and the claim asks
again, after the reservation of that amount has been inserted.  Both read the same sums: the
active unexpired reservations, the open orders and the held positions of the account, in total
and for the symbol of the intent.

The sums are written once (`Exposed`); the two sets of conjuncts stay apart, as in the source.
-/

namespace AlpacaTrading

/-! ## Sums -/

/-- The capital an open order stands for: its notional, else quantity times limit price, in
contracts for options; nothing when neither is known. -/
def Order.capital (o : Order) : Option ℚ :=
  o.notional <|> do
    let quantity ← o.quantity
    let price ← o.limitPrice
    return quantity * price * (if o.assetClass = .option then 100 else 1)

/-- `ABS(COALESCE(market_value, cost_basis, 0))`. -/
def Position.value (p : Position) : ℚ := |(p.marketValue <|> p.costBasis).getD 0|

/-- A reservation counted against the account's buying power. -/
def Reservation.counted (accountId : String) (now : Time) (r : Reservation) : Bool :=
  r.accountId = accountId ∧ r.status = .active ∧ now < r.expiresAt

/-- An order counted as open. -/
def Order.counted (accountId : String) (o : Order) : Bool :=
  o.accountId = accountId ∧ o.status ∈ openOrderStatuses

/-- A position counted as held. -/
def Position.counted (accountId : String) (p : Position) : Bool :=
  p.accountId = accountId ∧ p.held

/-- `SUM(c) FILTER (WHERE p)`, zero over no rows. -/
def sumWhere {ρ κ : Type} [Row ρ κ] (t : Table ρ) (p : ρ → Bool) (c : ρ → ℚ) : ℚ :=
  t.total fun r ↦ if p r then c r else 0

/-- The sums and counts both capacity checks read. -/
structure Exposed where
  reservations : ℚ
  reservationsOfSymbol : ℚ
  openOrders : ℚ
  openOrdersOfSymbol : ℚ
  openOrderCount : Nat
  positions : ℚ
  positionsOfSymbol : ℚ
  positionCount : Nat
deriving DecidableEq

/-- The exposure of an account, and of one symbol in it, at a time. -/
def exposed (db : Db) (accountId symbol : String) (now : Time) : Exposed where
  reservations := sumWhere db.reservations (·.counted accountId now) (·.amount)
  reservationsOfSymbol :=
    sumWhere db.reservations (fun r ↦ r.counted accountId now && r.symbol = symbol) (·.amount)
  openOrders := sumWhere db.orders (·.counted accountId) (·.capital.getD 0)
  openOrdersOfSymbol :=
    sumWhere db.orders (fun o ↦ o.counted accountId && o.symbol = symbol) (·.capital.getD 0)
  openOrderCount := db.orders.count (·.counted accountId)
  positions := sumWhere db.positions (·.counted accountId) (·.value)
  positionsOfSymbol :=
    sumWhere db.positions (fun p ↦ p.counted accountId && p.symbol = symbol) (·.value)
  positionCount := db.positions.count (·.counted accountId)

/-- `GREATEST(COALESCE(cash_reserve_amount, 0), COALESCE(equity, 0) * COALESCE(cash_reserve_ratio,
0))`. -/
def cashReserve (limits : RiskLimit) (snapshot : AccountSnapshot) : ℚ :=
  max (limits.cashReserveAmount.getD 0)
    (snapshot.equity.getD 0 * limits.cashReserveRatio.getD 0)

/-! ## The two checks -/

/-- The capacity columns promotion selects. -/
structure CapacityRow where
  buyingPowerAllowed : Bool
  deploymentAllowed : Bool
  strategyAllowed : Bool
  symbolAllowed : Bool
  positionCountAllowed : Bool
  orderCountAllowed : Bool
deriving DecidableEq

/-- `capacityAllowed`: the row exists and every column is true. -/
def capacityAllowed (row : Option CapacityRow) : Bool :=
  row.any fun r ↦ r.buyingPowerAllowed && r.deploymentAllowed && r.strategyAllowed &&
    r.symbolAllowed && r.positionCountAllowed && r.orderCountAllowed

/-- The capacity query of promotion. -/
def promotionCapacity (e : Exposed) (snapshot : AccountSnapshot) (limits : RiskLimit)
    (allocation : Allocation) (amount : ℚ) : CapacityRow where
  buyingPowerAllowed := amount ≤
    snapshot.buyingPower.getD 0 - e.reservations - e.openOrders - cashReserve limits snapshot
  deploymentAllowed :=
    (limits.maxDeploymentAmount.all fun m ↦
      e.positions + e.openOrders + e.reservations + amount ≤ m) &&
    (limits.maxDeploymentRatio.all fun m ↦
      e.positions + e.openOrders + e.reservations + amount ≤ snapshot.equity.getD 0 * m)
  strategyAllowed :=
    (allocation.allocationAmount.all fun m ↦
      allocation.deployedAmount + allocation.reservedAmount + amount ≤ m) &&
    (allocation.allocationRatio.all fun m ↦
      allocation.deployedAmount + allocation.reservedAmount + amount ≤
        snapshot.equity.getD 0 * m)
  symbolAllowed := limits.maxSymbolNotional.all fun m ↦
    e.positionsOfSymbol + e.openOrdersOfSymbol + e.reservationsOfSymbol + amount ≤ m
  positionCountAllowed := limits.maxPositionCount.all (e.positionCount < ·)
  orderCountAllowed := limits.maxOrderCount.all (e.openOrderCount < ·)

/-- The six capacity conjuncts of the claim. -/
def claimCapacity (e : Exposed) (snapshot : AccountSnapshot) (limits : RiskLimit)
    (allocation : Allocation) : CapacityRow where
  buyingPowerAllowed := 0 ≤
    snapshot.buyingPower.getD 0 - e.reservations - e.openOrders - cashReserve limits snapshot
  deploymentAllowed :=
    (limits.maxDeploymentAmount.all fun m ↦
      e.positions + e.openOrders + e.reservations ≤ m) &&
    (limits.maxDeploymentRatio.all fun m ↦
      e.positions + e.openOrders + e.reservations ≤ snapshot.equity.getD 0 * m)
  strategyAllowed :=
    (allocation.allocationAmount.all fun m ↦
      allocation.deployedAmount + allocation.reservedAmount ≤ m) &&
    (allocation.allocationRatio.all fun m ↦
      allocation.deployedAmount + allocation.reservedAmount ≤ snapshot.equity.getD 0 * m)
  symbolAllowed := limits.maxSymbolNotional.all fun m ↦
    e.positionsOfSymbol + e.openOrdersOfSymbol + e.reservationsOfSymbol ≤ m
  positionCountAllowed := limits.maxPositionCount.all (e.positionCount < ·)
  orderCountAllowed := limits.maxOrderCount.all (e.openOrderCount < ·)

end AlpacaTrading
