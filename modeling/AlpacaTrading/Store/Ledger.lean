import AlpacaTrading.Store.Schema

/-!
# The reservation ledger

A strategy's allocation row carries two running totals: the capital reserved for intents that are
on their way to the broker and the capital deployed in filled orders.  The reservations
themselves are rows of another table; the counter and the rows it summarises are written by
separate statements.

The three quantities of this file are the ones those statements move: `heldAmount`, the sum over
the live reservations of a strategy, `reservedAmount`, the counter meant to equal it, and
`deployedAmount`.  Each lemma says by how much one kind of statement moves one of them.
-/

namespace AlpacaTrading

/-! ## Totals -/

/-- The allocation row is the current one of the strategy. -/
def Allocation.serves (accountId strategyKey : String) (a : Allocation) : Bool :=
  decide (a.accountId = accountId ∧ a.strategyKey = strategyKey) && a.current

/-- The reservation holds capital of the strategy. -/
def Reservation.holds (accountId strategyKey : String) (r : Reservation) : Bool :=
  decide (r.accountId = accountId ∧ r.strategyKey = strategyKey) && r.status.live

/-- The capital a reservation holds for a strategy. -/
def Reservation.held (accountId strategyKey : String) (r : Reservation) : ℚ :=
  if r.holds accountId strategyKey then r.amount else 0

/-- The sum of the live reservations of a strategy. -/
def heldAmount (t : Table Reservation) (accountId strategyKey : String) : ℚ :=
  t.total (Reservation.held accountId strategyKey)

/-- The reserved counter of the current allocation of a strategy. -/
def reservedAmount (t : Table Allocation) (accountId strategyKey : String) : ℚ :=
  t.total fun a ↦ if a.serves accountId strategyKey then a.reservedAmount else 0

/-- The deployed counter of the current allocation of a strategy. -/
def deployedAmount (t : Table Allocation) (accountId strategyKey : String) : ℚ :=
  t.total fun a ↦ if a.serves accountId strategyKey then a.deployedAmount else 0

/-! ## The counters -/

/-- Moving the two counters of an allocation. -/
def Allocation.shift (reserved : ℚ → ℚ) (deployed : ℚ) (now : Time) (a : Allocation) :
    Allocation :=
  { a with
    reservedAmount := reserved a.reservedAmount
    deployedAmount := a.deployedAmount + deployed
    updatedAt := now }

theorem Allocation.shift_keeps (reserved : ℚ → ℚ) (deployed : ℚ) (now : Time) :
    Keeps (Allocation.shift reserved deployed now) :=
  ⟨fun _ ↦ rfl, fun _ _ ↦ Iff.rfl⟩

@[simp] theorem Allocation.shift_serves (reserved : ℚ → ℚ) (deployed : ℚ) (now : Time)
    (accountId strategyKey : String) (a : Allocation) :
    (a.shift reserved deployed now).serves accountId strategyKey =
      a.serves accountId strategyKey := rfl

/-- `UPDATE strategy_allocations … WHERE account_id = … AND strategy_key = … AND status = 'active'
AND effective_to IS NULL`. -/
def adjust (t : Table Allocation) (accountId strategyKey : String) (reserved : ℚ → ℚ)
    (deployed : ℚ) (now : Time) : Table Allocation :=
  t.update (Allocation.serves accountId strategyKey) (Allocation.shift reserved deployed now)
    (Allocation.shift_keeps _ _ _)

/-- How many rows `adjust` changes. -/
def adjustCount (t : Table Allocation) (accountId strategyKey : String) : Nat :=
  t.count (Allocation.serves accountId strategyKey)

theorem serves_iff {accountId strategyKey : String} {a : Allocation} :
    a.serves accountId strategyKey = true ↔
      a.accountId = accountId ∧ a.strategyKey = strategyKey ∧ a.current = true := by
  simp [Allocation.serves, and_assoc]

theorem serves_unique {t : Table Allocation} {accountId strategyKey : String} {a b : Allocation}
    (ha : a ∈ t.rows) (hb : b ∈ t.rows) (hsa : a.serves accountId strategyKey)
    (hsb : b.serves accountId strategyKey) : a = b := by
  obtain ⟨ha₁, ha₂, ha₃⟩ := serves_iff.1 hsa
  obtain ⟨hb₁, hb₂, hb₃⟩ := serves_iff.1 hsb
  exact t.eq_of_clash ha hb
    (Or.inr ⟨ha₃, hb₃, ha₁.trans hb₁.symm, ha₂.trans hb₂.symm⟩)

theorem exists_serves_of_adjustCount {t : Table Allocation} {accountId strategyKey : String}
    (h : adjustCount t accountId strategyKey = 1) :
    ∃ a ∈ t.rows, a.serves accountId strategyKey := by
  have hpos : 0 < t.rows.countP (Allocation.serves accountId strategyKey) := by
    unfold adjustCount Table.count at h
    omega
  simpa using List.countP_pos_iff.1 hpos

/-- The current allocation is the one row that serves the strategy. -/
theorem currentAllocation_eq_some {db : Db} {accountId strategyKey : String} {a : Allocation} :
    currentAllocation db accountId strategyKey = some a ↔
      a ∈ db.allocations.rows ∧ a.serves accountId strategyKey := by
  constructor
  · intro h
    refine ⟨List.mem_of_find?_eq_some h, ?_⟩
    rw [serves_iff]
    simpa using List.find?_some h
  · rintro ⟨ha, hs⟩
    have hsome : (currentAllocation db accountId strategyKey).isSome := by
      unfold currentAllocation
      rw [List.find?_isSome]
      exact ⟨a, ha, by simpa using serves_iff.1 hs⟩
    obtain ⟨b, hb⟩ := Option.isSome_iff_exists.1 hsome
    have hserves : b.serves accountId strategyKey := by
      rw [serves_iff]
      simpa using List.find?_some hb
    rw [hb, serves_unique (List.mem_of_find?_eq_some hb) ha hserves hs]

private theorem counter_eq {t : Table Allocation} {accountId strategyKey : String}
    {a : Allocation} (c : Allocation → ℚ) (ha : a ∈ t.rows)
    (hs : a.serves accountId strategyKey) :
    (t.total fun x ↦ if x.serves accountId strategyKey then c x else 0) = c a := by
  rw [Table.total_eq_single ha, if_pos hs]
  intro x hx hne
  rw [if_neg fun hsx ↦ hne (serves_unique hx ha hsx hs)]

theorem reservedAmount_eq {t : Table Allocation} {accountId strategyKey : String}
    {a : Allocation} (ha : a ∈ t.rows) (hs : a.serves accountId strategyKey) :
    reservedAmount t accountId strategyKey = a.reservedAmount :=
  counter_eq _ ha hs

theorem deployedAmount_eq {t : Table Allocation} {accountId strategyKey : String}
    {a : Allocation} (ha : a ∈ t.rows) (hs : a.serves accountId strategyKey) :
    deployedAmount t accountId strategyKey = a.deployedAmount :=
  counter_eq _ ha hs

private theorem serves_other {accountId strategyKey accountId' strategyKey' : String}
    {a : Allocation} (h : ¬ (accountId' = accountId ∧ strategyKey' = strategyKey))
    (hs : a.serves accountId strategyKey) : a.serves accountId' strategyKey' = false := by
  rw [Bool.eq_false_iff]
  intro hs'
  obtain ⟨h₁, h₂, _⟩ := serves_iff.1 hs
  obtain ⟨h₃, h₄, _⟩ := serves_iff.1 hs'
  exact h ⟨h₃.symm.trans h₁, h₄.symm.trans h₂⟩

private theorem counter_adjust_other {t : Table Allocation}
    {accountId strategyKey accountId' strategyKey' : String} {reserved : ℚ → ℚ} {deployed : ℚ}
    {now : Time} (c : Allocation → ℚ)
    (h : ¬ (accountId' = accountId ∧ strategyKey' = strategyKey)) :
    ((adjust t accountId strategyKey reserved deployed now).total fun x ↦
        if x.serves accountId' strategyKey' then c x else 0) =
      t.total fun x ↦ if x.serves accountId' strategyKey' then c x else 0 := by
  refine Table.total_update_eq _ fun a _ hs ↦ ?_
  simp [serves_other h hs]

/-- The reserved counter after an adjustment of the strategy. -/
theorem reservedAmount_adjust {t : Table Allocation} {accountId strategyKey : String}
    {reserved : ℚ → ℚ} {deployed : ℚ} {now : Time} {a : Allocation} (ha : a ∈ t.rows)
    (hs : a.serves accountId strategyKey) :
    reservedAmount (adjust t accountId strategyKey reserved deployed now) accountId strategyKey =
      reserved (reservedAmount t accountId strategyKey) := by
  have hmem : a.shift reserved deployed now ∈
      (adjust t accountId strategyKey reserved deployed now).rows :=
    Table.mem_update.2 ⟨a, ha, by rw [if_pos hs]⟩
  rw [reservedAmount_eq hmem (by simpa using hs), reservedAmount_eq ha hs]
  rfl

/-- The deployed counter after an adjustment of the strategy. -/
theorem deployedAmount_adjust {t : Table Allocation} {accountId strategyKey : String}
    {reserved : ℚ → ℚ} {deployed : ℚ} {now : Time} {a : Allocation} (ha : a ∈ t.rows)
    (hs : a.serves accountId strategyKey) :
    deployedAmount (adjust t accountId strategyKey reserved deployed now) accountId strategyKey =
      deployedAmount t accountId strategyKey + deployed := by
  have hmem : a.shift reserved deployed now ∈
      (adjust t accountId strategyKey reserved deployed now).rows :=
    Table.mem_update.2 ⟨a, ha, by rw [if_pos hs]⟩
  rw [deployedAmount_eq hmem (by simpa using hs), deployedAmount_eq ha hs]
  rfl

theorem reservedAmount_adjust_other {t : Table Allocation}
    {accountId strategyKey accountId' strategyKey' : String} {reserved : ℚ → ℚ} {deployed : ℚ}
    {now : Time} (h : ¬ (accountId' = accountId ∧ strategyKey' = strategyKey)) :
    reservedAmount (adjust t accountId strategyKey reserved deployed now) accountId'
      strategyKey' = reservedAmount t accountId' strategyKey' :=
  counter_adjust_other _ h

/-- Adjustments keep which allocation is current. -/
theorem exists_serves_adjust {t : Table Allocation}
    {accountId strategyKey accountId' strategyKey' : String} {reserved : ℚ → ℚ} {deployed : ℚ}
    {now : Time} :
    (∃ a ∈ (adjust t accountId strategyKey reserved deployed now).rows,
        a.serves accountId' strategyKey') ↔
      ∃ a ∈ t.rows, a.serves accountId' strategyKey' := by
  constructor
  · rintro ⟨a, ha, hs⟩
    obtain ⟨b, hb, rfl⟩ := Table.mem_update.1 ha
    refine ⟨b, hb, ?_⟩
    by_cases hsb : b.serves accountId strategyKey = true
    · simpa [hsb] using hs
    · simpa [hsb] using hs
  · rintro ⟨a, ha, hs⟩
    refine ⟨_, Table.mem_update.2 ⟨a, ha, rfl⟩, ?_⟩
    by_cases hsa : a.serves accountId strategyKey = true
    · simpa [hsa] using hs
    · simpa [hsa] using hs

/-! ## The held sum -/

/-- The update that ends a reservation. -/
def Reservation.release (status : ReservationStatus) (reason : ReleaseReason) (now : Time)
    (r : Reservation) : Reservation :=
  { r with status, releasedAt := some now, releaseReason := some reason, updatedAt := now }

theorem Reservation.release_keeps (status : ReservationStatus) (reason : ReleaseReason)
    (now : Time) : Keeps (Reservation.release status reason now) :=
  ⟨fun _ ↦ rfl, fun _ _ ↦ Iff.rfl⟩

/-- The update that ties a reservation to an acknowledged order. -/
def Reservation.commit (now : Time) (r : Reservation) : Reservation :=
  { r with status := .committed, committedAt := some now, updatedAt := now }

theorem Reservation.commit_keeps (now : Time) : Keeps (Reservation.commit now) :=
  ⟨fun _ ↦ rfl, fun _ _ ↦ Iff.rfl⟩

/-- The update that keeps only the unfilled part of a reservation. -/
def Reservation.resize (amount : ℚ) (h : 0 < amount) (now : Time) (r : Reservation) :
    Reservation :=
  { r with amount, amount_pos := h, updatedAt := now }

theorem Reservation.resize_keeps (amount : ℚ) (h : 0 < amount) (now : Time) :
    Keeps (Reservation.resize amount h now) :=
  ⟨fun _ ↦ rfl, fun _ _ ↦ Iff.rfl⟩

theorem Reservation.held_nonneg (accountId strategyKey : String) (r : Reservation) :
    0 ≤ r.held accountId strategyKey := by
  unfold Reservation.held
  split
  · exact r.amount_pos.le
  · exact le_rfl

theorem heldAmount_nonneg (t : Table Reservation) (accountId strategyKey : String) :
    0 ≤ heldAmount t accountId strategyKey :=
  Table.total_nonneg fun r _ ↦ r.held_nonneg accountId strategyKey

theorem held_of_live {r : Reservation} (h : r.status.live) :
    r.held r.accountId r.strategyKey = r.amount := by
  simp [Reservation.held, Reservation.holds, h]

theorem held_of_other {accountId strategyKey : String} {r : Reservation}
    (h : ¬ (accountId = r.accountId ∧ strategyKey = r.strategyKey)) :
    r.held accountId strategyKey = 0 := by
  unfold Reservation.held Reservation.holds
  rw [if_neg]
  simp only [Bool.and_eq_true, decide_eq_true_eq, not_and]
  rintro ⟨h₁, h₂⟩
  exact absurd ⟨h₁.symm, h₂.symm⟩ h

/-- A live reservation is covered by the sum it contributes to. -/
theorem amount_le_heldAmount {t : Table Reservation} {r : Reservation} (hr : r ∈ t.rows)
    (h : r.status.live) : r.amount ≤ heldAmount t r.accountId r.strategyKey := by
  have hle := Table.le_total (c := Reservation.held r.accountId r.strategyKey) hr
    fun x _ ↦ x.held_nonneg _ _
  rwa [held_of_live h] at hle

/-- The held sum after one reservation is rewritten. -/
theorem heldAmount_modify {t : Table Reservation} {id : String} {f : Reservation → Reservation}
    {hf : Keeps f} {r : Reservation} (hr : t.get? id = some r) (accountId strategyKey : String) :
    heldAmount (t.modify id f hf) accountId strategyKey =
      heldAmount t accountId strategyKey +
        ((f r).held accountId strategyKey - r.held accountId strategyKey) :=
  Table.total_modify _ hr

/-! ## A configured account

The account the concrete runs of the development start from: one strategy, no limits beyond its
allocation, and a worker whose lease is running. -/

namespace Specimen

/-- Identifiers spelled out, so that distinct keys have distinct digests. -/
@[reducible] def hashing : Hashing where
  stableRecordId scope key := scope ++ "/" ++ key
  canonicalJsonHash fields := "|".intercalate (fields.map Prod.snd)
  toISOString t := toString t

/-- The fence of the worker. -/
def fence : SchedulerFence :=
  { jobName := "job", workstream := "paper", ownerId := "worker", runId := "run",
    fencingToken := 1 }

/-- Its session, with the lease still running. -/
def session : Session := { fence, dbNow := 0 }

/-- The configuration rows of the account: identity, snapshot, limits, exposure, allocation and
the held lease. -/
def account : Db where
  accounts := .ofRows [{ id := "acct", brokerAccountId := "broker" }]
  snapshots := .ofRows [
    { id := "snap", accountId := "acct", observedAt := 0, cash := some 100000,
      equity := some 100000, buyingPower := some 100000, snapshotFingerprint := "portfolio",
      structuralPortfolioFingerprint := some "structure" }]
  limits := .ofRows [{ id := "limits", accountId := "acct" }]
  exposures := .ofRows [{ id := "exposure", accountId := "acct" }]
  allocations := .ofRows [
    { id := "alloc", accountId := "acct", strategyKey := "core", allocationAmount := some 50000 }]
  candidates := .ofRows [
    { id := "cand", symbol := "XYZ", lifecycleStatus := "confirmed", asOf := 1000 }]
  leases := .ofRows [
    { jobName := "job", workstream := "paper", ownerId := "worker", runId := "run",
      fencingToken := 1, status := .held, expiresAt := 1000000 }]

end Specimen

end AlpacaTrading
