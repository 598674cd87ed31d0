import AlpacaTrading.Reconciliation.Settle
import AlpacaTrading.Store.Effect

/-!
# What the reconciliation statements do

For each statement of reconciliation one lemma that says what it leaves behind.  The observation
statement is the long one: it stores the order, may shrink a reservation, and moves the intent
only when all the transitions of the path were new.

`Observed` collects what the service checked while it read an answer; for an entry it follows
that an open status never reopens an intent whose order was seen terminal.
-/

namespace AlpacaTrading

/-! ## Reading an answer -/

/-- What holds of an observation the service read for a target. -/
structure Observed (target : Target) (obs : Observation) : Prop where
  /-- The status is in normal form. -/
  normal : Text.toLowerCase (Text.trim obs.status) = obs.status
  /-- The path was resolved from the lifecycle state of the target. -/
  path : resolveBrokerReconciliationLifecyclePath target.intent.lifecycleState target.reviewType
    obs.status = .ok obs.path
  /-- The state is the end of the path. -/
  state : obs.state = obs.path.getLast?.getD target.intent.lifecycleState
  /-- A reconciled target admits terminal statuses only. -/
  settled : target.intent.status = .reconciled → obs.status ∈ terminalStatuses
  /-- The fill already accounted for is the one of the stored order. -/
  prior : obs.prior = target.priorFilledQuantity.getD 0

theorem rendered_normal (value : BrokerText) :
    Text.toLowerCase (Text.trim (Text.toLowerCase value.rendered)) =
      Text.toLowerCase value.rendered := by
  cases value with
  | absent => rfl
  | str s => exact Text.normalize_normalize s
  | other s => exact Text.normalize_normalize s

theorem required_eq_ok {value : BrokerText} {code s : String} :
    value.required code = .ok s ↔ value.rendered = s ∧ s ≠ "" := by
  unfold BrokerText.required
  by_cases h : value.rendered = ""
  · rw [if_pos h, h]
    constructor
    · intro hs
      cases hs
    · rintro ⟨rfl, hne⟩
      exact absurd rfl hne
  · rw [if_neg h]
    constructor
    · intro hs
      cases hs
      exact ⟨rfl, h⟩
    · rintro ⟨rfl, _⟩
      rfl

theorem readObservation_ok [Hashing] {target : Target} {response : AlpacaApiResponse}
    {now : Time} {obs : Observation} (h : readObservation target response now = .ok obs) :
    Observed target obs := by
  unfold readObservation at h
  cases hdata : response.data with
  | none =>
    rw [hdata] at h
    cases h
  | some data =>
    rw [hdata] at h
    simp only [bind_eq_ok, require_eq_ok, decide_eq_true_eq] at h
    obtain ⟨_, hd, _, _, _, _, _, _, status, hstatus, _, hsettled, _, _, path, hpath, _, _,
      hout⟩ := h
    cases hd
    obtain ⟨rfl, _⟩ := required_eq_ok.1 hstatus
    split at hout
    · rw [bind_eq_ok] at hout
      obtain ⟨_, _, hobs⟩ := hout
      cases hobs
      exact ⟨rendered_normal _, hpath, rfl, fun hrec ↦ hsettled.resolve_left (not_not.2 hrec),
        rfl⟩
    · cases hout

/-! ## Entries are not reopened -/

section Entry

variable {target : Target} {obs : Observation}

/-- The path starts where the target was. -/
theorem Observed.head (h : Observed target obs) :
    obs.path.head? = some target.intent.lifecycleState := by
  have hpath := h.path
  unfold resolveBrokerReconciliationLifecyclePath at hpath
  dsimp only at hpath
  split at hpath
  · rw [← Except.ok.inj hpath]
    rfl
  · split at hpath
    · rw [← Except.ok.inj hpath]
      rfl
    · exact (path_ends hpath).1

theorem terminalStatuses_normal {status : String} (h : status ∈ terminalStatuses) :
    status ∈ ["filled", "canceled", "cancelled", "rejected", "expired"] ∧
      lifecycleStateForBrokerStatus .entry status ∈ finalStates := by
  have hall : ∀ s ∈ terminalStatuses,
      s ∈ ["filled", "canceled", "cancelled", "rejected", "expired"] ∧
        lifecycleStateForBrokerStatus .entry s ∈ finalStates := by decide
  exact hall status h

theorem openStatus_state {status : String} (hnormal : Text.toLowerCase (Text.trim status) = status)
    (h : status ∉ terminalStatuses) :
    lifecycleStateForBrokerStatus .entry status ∈
      [.partiallyFilled, .brokerOrderAccepted, .brokerOrderDiscovered] := by
  simp only [terminalStatuses, List.mem_cons, List.not_mem_nil, or_false, not_or] at h
  obtain ⟨hfilled, hcanceled, hcancelled, hexpired, hrejected⟩ := h
  unfold lifecycleStateForBrokerStatus
  dsimp only
  rw [hnormal, if_neg (by simp [hcanceled, hcancelled]), if_neg hrejected, if_neg hexpired]
  split
  · simp
  · split
    · simp
    · simp

/-- The two ways a path of an entry comes about. -/
theorem Observed.entry_cases (h : Observed target obs) (htype : target.reviewType = .entry) :
    (target.intent.lifecycleState ∈ [.cancelRequested, .cancelAmbiguous] ∧
        obs.status ∉ terminalStatuses ∧ obs.state = target.intent.lifecycleState) ∨
      (resolveLifecycleTransitionPath target.intent.lifecycleState
          (lifecycleStateForBrokerStatus .entry obs.status) = .ok obs.path ∧
        obs.state = lifecycleStateForBrokerStatus .entry obs.status) := by
  have hpath := h.path
  rw [htype] at hpath
  unfold resolveBrokerReconciliationLifecyclePath at hpath
  dsimp only at hpath
  rw [h.normal, if_neg (by simp)] at hpath
  split at hpath
  · next hcond =>
    refine Or.inl ⟨hcond.1, fun hterm ↦ hcond.2 (terminalStatuses_normal hterm).1, ?_⟩
    rw [h.state, ← Except.ok.inj hpath, List.getLast?_singleton, Option.getD_some]
  · refine Or.inr ⟨hpath, ?_⟩
    rw [h.state, (path_ends hpath).2, Option.getD_some]

/-- An open status finds an entry that was not yet seen terminal. -/
theorem Observed.entry_open (h : Observed target obs) (htype : target.reviewType = .entry)
    (hopen : obs.status ∉ terminalStatuses) : target.intent.lifecycleState ∉ finalStates := by
  intro hfinal
  rcases h.entry_cases htype with ⟨hcancel, _, _⟩ | ⟨hpath, _⟩
  · simp only [finalStates, List.mem_cons, List.not_mem_nil, or_false] at hfinal hcancel
    rcases hcancel with hc | hc <;> simp [hc] at hfinal
  · exact no_path_reopens hfinal (openStatus_state h.normal hopen) hpath

/-- A terminal status leads an entry to a final state. -/
theorem Observed.entry_final (h : Observed target obs) (htype : target.reviewType = .entry)
    (hterm : obs.status ∈ terminalStatuses) : obs.state ∈ finalStates := by
  rcases h.entry_cases htype with ⟨_, hopen, _⟩ | ⟨_, hstate⟩
  · exact absurd hterm hopen
  · rw [hstate]
    exact (terminalStatuses_normal hterm).2

/-- An entry whose order ended unfilled stays in its state. -/
theorem Observed.entry_ended (h : Observed target obs) (htype : target.reviewType = .entry)
    (hended : target.intent.lifecycleState ∈ unfilledStates) :
    obs.state = target.intent.lifecycleState := by
  rcases h.entry_cases htype with ⟨_, _, hstate⟩ | ⟨hpath, hstate⟩
  · exact hstate
  · rw [hstate]
    have hends : ∀ state ∈ unfilledStates, state.transitions = [] := by decide
    exact path_of_ended (hends _ hended) hpath

/-- An entry is never led to the state of an open exit order. -/
theorem Observed.entry_state (h : Observed target obs) (htype : target.reviewType = .entry)
    (hexit : obs.state ∈ exitOrderStates) : target.intent.lifecycleState ∈ exitOrderStates := by
  rcases h.entry_cases htype with ⟨_, _, hstate⟩ | ⟨_, hstate⟩
  · rwa [hstate] at hexit
  · rw [hstate] at hexit
    exact absurd hexit (entryState_not_exitOrder _)

end Entry

/-! ## Observation -/

section Parts

variable {db : Db} {session : Session} {now : Time}

theorem appendEvent_ok {t t' : Table BrokerEvent} {e : BrokerEvent} {stored : Bool}
    (h : appendEvent t e = .ok (t', stored)) : ∀ x ∈ t.rows, x ∈ t'.rows := by
  simp only [appendEvent, bind_eq_ok, require_eq_ok] at h
  obtain ⟨_, _, h⟩ := h
  split at h
  · cases h
    exact fun _ hx ↦ hx
  · next t'' hins =>
    cases h
    exact fun _ hx ↦ Table.mem_of_insert? hins hx

theorem applyResize_none {db₁ : Db} (h : applyResize db now none = .ok db₁) : db₁ = db := by
  cases h
  rfl

theorem applyResize_some {db₁ : Db} {z : Resize} (h : applyResize db now (some z) = .ok db₁) :
    ∃ hpos : 0 < z.remaining, db₁ = { db with
      reservations := db.reservations.modify z.reservation.id
        (Reservation.resize z.remaining hpos now) (Reservation.resize_keeps _ _ _)
      allocations := adjust db.allocations z.reservation.accountId z.reservation.strategyKey
        (· - z.settled) z.settled now } := by
  simp only [applyResize] at h
  split at h
  · next hpos =>
    cases h
    exact ⟨hpos, rfl⟩
  · cases h

/-- The intent the observation statement locks. -/
theorem lockedIntent_some {id : String} {i : Intent} (h : lockedIntent db session id = some i) :
    db.intents.get? id = some i ∧ i.status ∈ observableStatuses := by
  unfold lockedIntent at h
  rw [Option.filter_eq_some_iff] at h
  obtain ⟨hget, hcond⟩ := h
  simp only [Bool.and_eq_true, decide_eq_true_eq] at hcond
  exact ⟨hget, hcond.1⟩

theorem lockedReservation_some {id : String} {r : Reservation}
    (h : lockedReservation db id = some r) : db.reservations.get? id = some r ∧ r.status.live := by
  unfold lockedReservation at h
  rwa [Option.filter_eq_some_iff] at h

/-- What a resize moves. -/
theorem resize?_some {r : Reservation} {filled ordered prior : ℚ} {z : Resize}
    (h : resize? db r filled ordered prior = some z) :
    z.reservation = r ∧ z.remaining = r.amount * ((ordered - filled) / (ordered - prior)) ∧
      z.settled = r.amount - z.remaining ∧ prior < filled ∧ filled < ordered ∧
      ∃ a ∈ db.allocations.rows, a.serves r.accountId r.strategyKey ∧
        z.settled ≤ a.reservedAmount := by
  unfold resize? at h
  rw [Option.bind_eq_bind, Option.bind_eq_some_iff] at h
  obtain ⟨a, ha, h⟩ := h
  obtain ⟨hmem, hserves⟩ := currentAllocation_eq_some.1 ha
  dsimp only at h
  split at h
  · next hcond =>
    cases h
    exact ⟨rfl, rfl, rfl, hcond.1, hcond.2.1, a, hmem, hserves, hcond.2.2⟩
  · cases h

end Parts

section Observation

variable [Hashing] {db db' : Db} {session : Session} {target : Target} {obs : Observation}
  {now : Time}

/-- What the observation statement wrote: the order, a resized reservation, and with all the
transitions of the path also the event and the intent. -/
theorem storeObservation_ok {resized : Option Resize} {counts : ObserveCounts}
    (h : storeObservation db target obs now resized = .ok (db', counts)) :
    ∃ order orders orderId db₁ lifecycleTransitions, observedOrder target obs = .ok order ∧
      upsertOrder db.orders order = .ok (orders, orderId) ∧
      applyResize { db with orders } now resized = .ok db₁ ∧
      counts.partialReservation = resized.isSome ∧
      ((counts.updatedIntent = true ∧ ∃ events, (∀ x ∈ db₁.events.rows, x ∈ events.rows) ∧
          db' = { db₁ with
            lifecycleTransitions, events
            intents := db₁.intents.modify target.intent.id
              (Intent.observe obs order.submittedAt now) (Intent.observe_keeps _ _ _) }) ∨
        (counts.updatedIntent = false ∧ db' = { db₁ with lifecycleTransitions })) := by
  simp only [storeObservation, bind_eq_ok] at h
  obtain ⟨order, horder, ⟨orders, orderId⟩, hups, db₁, hres, ⟨lifecycleTransitions, n⟩, _, h⟩ := h
  refine ⟨order, orders, orderId, db₁, lifecycleTransitions, horder, hups, hres, ?_⟩
  dsimp only at h
  split at h
  · rw [bind_eq_ok] at h
    obtain ⟨⟨events, stored⟩, hev, hout⟩ := h
    cases hout
    exact ⟨rfl, Or.inl ⟨rfl, events, appendEvent_ok hev, rfl⟩⟩
  · cases h
    exact ⟨rfl, Or.inr ⟨rfl, rfl⟩⟩

/-- The observation statement changed nothing, or stored the observation of an intent that is
where the path starts. -/
theorem observeStatement_ok {counts : ObserveCounts}
    (h : observeStatement db session target obs now = .ok (db', counts)) :
    (db' = db ∧ counts = .nothing) ∨
      ∃ i, lockedIntent db session target.intent.id = some i ∧
        obs.path.head? = some i.lifecycleState ∧
        storeObservation db target obs now none = .ok (db', counts) := by
  unfold observeStatement at h
  split at h
  · cases h
    exact Or.inl ⟨rfl, rfl⟩
  · next i hi =>
    split at h
    · next hhead => exact Or.inr ⟨i, hi, hhead, h⟩
    · cases h
      exact Or.inl ⟨rfl, rfl⟩

/-- The partial statement changed nothing, or stored the observation together with the resize of
the reservation, if the fill grew. -/
theorem partialStatement_ok {id : String} {filled ordered : ℚ} {counts : ObserveCounts}
    (h : partialStatement db session target obs id filled ordered now = .ok (db', counts)) :
    (db' = db ∧ counts = .nothing) ∨
      ∃ i resized, lockedIntent db session target.intent.id = some i ∧
        obs.path.head? = some i.lifecycleState ∧
        storeObservation db target obs now resized = .ok (db', counts) ∧
        ((resized = none ∧ filled = obs.prior) ∨ ∃ z r, resized = some z ∧ 0 < z.settled ∧
          lockedReservation db id = some r ∧ resize? db r filled ordered obs.prior = some z) := by
  unfold partialStatement at h
  split at h
  · cases h
    exact Or.inl ⟨rfl, rfl⟩
  · next i hi =>
    dsimp only at h
    split at h
    · next hcond =>
      refine Or.inr ⟨i, _, hi, hcond.1, h, ?_⟩
      -- Either the resize is there and moves something, or the fill did not grow.
      cases hz : (lockedReservation db id).bind fun r ↦ resize? db r filled ordered obs.prior with
      | none =>
        rw [hz] at hcond
        exact Or.inl ⟨rfl, hcond.2.resolve_right (by simp)⟩
      | some z =>
        obtain ⟨r, hr, hresize⟩ := Option.bind_eq_some_iff.1 hz
        by_cases hpos : 0 < z.settled
        · exact Or.inr ⟨z, r, by simp [Option.filter, hpos], hpos, hr, hresize⟩
        · rw [hz] at hcond
          refine Or.inl ⟨by simp [Option.filter, hpos], hcond.2.resolve_right ?_⟩
          simpa using hpos
    · cases h
      exact Or.inl ⟨rfl, rfl⟩

/-- A stored observation came from the statement without or with a resize; anything else left the
state alone. -/
theorem observe_cases {result : Except String Bool}
    (h : observe db session target obs now = (db', result)) :
    (db' = db ∧ ∀ b, result ≠ .ok b) ∨
      (∃ counts, observeStatement db session target obs now = .ok (db', counts) ∧
        (target.intent.reservationId = none ∨ obs.status ≠ "partially_filled") ∧
        (∀ b, result = .ok b → counts.updatedIntent = true)) ∨
      ∃ id filled ordered counts, target.intent.reservationId = some id ∧
        obs.status = "partially_filled" ∧ partialQuantities obs = .ok (filled, ordered) ∧
        partialStatement db session target obs id filled ordered now = .ok (db', counts) ∧
        (∀ b, result = .ok b → counts.updatedIntent = true ∧
          counts.partialReservation = decide (filled ≠ obs.prior)) := by
  have hother : target.intent.reservationId = none ∨ obs.status ≠ "partially_filled" →
      observe.observeOther db session target obs now = (db', result) →
      (db' = db ∧ ∀ b, result ≠ .ok b) ∨
        (∃ counts, observeStatement db session target obs now = .ok (db', counts) ∧
          (target.intent.reservationId = none ∨ obs.status ≠ "partially_filled") ∧
          (∀ b, result = .ok b → counts.updatedIntent = true)) := by
    intro hcase h
    unfold observe.observeOther at h
    split at h
    · cases h
      exact Or.inl ⟨rfl, by simp⟩
    · next db'' counts hstmt =>
      split at h
      · next hc =>
        cases h
        exact Or.inr ⟨counts, hstmt, hcase, fun _ _ ↦ hc.2.1⟩
      · cases h
        exact Or.inr ⟨counts, hstmt, hcase, by simp⟩
  unfold observe at h
  split at h
  · next id hid =>
    split at h
    · next hpartial =>
      split at h
      · cases h
        exact Or.inl ⟨rfl, by simp⟩
      · next filled ordered hq =>
        split at h
        · cases h
          exact Or.inl ⟨rfl, by simp⟩
        · next db'' counts hstmt =>
          refine Or.inr (Or.inr ⟨id, filled, ordered, counts, hid, hpartial, hq, ?_⟩)
          split at h
          · next hc =>
            cases h
            exact ⟨hstmt, fun _ _ ↦ ⟨hc.2.1, hc.2.2.2⟩⟩
          · cases h
            exact ⟨hstmt, by simp⟩
    · next hpartial => exact (hother (Or.inr hpartial) h).imp (fun h ↦ h) Or.inl
  · next hnone => exact (hother (Or.inl hnone) h).imp (fun h ↦ h) Or.inl

end Observation

/-! ## Settlement -/

theorem settledIntent_some {db : Db} {session : Session} {id : String} {state : LifecycleState} {i : Intent}
    (h : settledIntent db session id state = some i) :
    db.intents.get? id = some i ∧ i.status = .reconciled := by
  unfold settledIntent at h
  rw [Option.filter_eq_some_iff] at h
  obtain ⟨hget, hcond⟩ := h
  simp only [Bool.and_eq_true, decide_eq_true_eq] at hcond
  exact ⟨hget, hcond.1.1⟩

/-- The counters after a settlement. -/
def settledAllocations (db : Db) (r : Reservation) (terminal : ReservationTerminalState)
    (now : Time) : SettlementKind → Table Allocation
  | .fresh => adjust db.allocations r.accountId r.strategyKey (fun x ↦ max 0 (x - r.amount))
      (if terminal = .filled then r.amount else 0) now
  | .legacyUnrepresented => db.allocations

section Settlement

variable [Hashing] {db db' : Db} {session : Session} {target : Target} {obs : Observation}
  {now : Time}

/-- What the settlement statement wrote, when it settled. -/
theorem settleStatement_settled {id intentId : String} {state : LifecycleState}
    {terminal : ReservationTerminalState} {reason : ReleaseReason} {kind : SettlementKind}
    (h : settleStatement db session id intentId state terminal reason now =
      .ok (db', .settled kind)) :
    ∃ i r transitions, db.intents.get? intentId = some i ∧ i.status = .reconciled ∧
      db.reservations.get? id = some r ∧ r.status.live ∧ settlementKind db i r = some kind ∧
      db.reservationTransitions.insert? (terminalTransition id intentId terminal reason now) =
        some transitions ∧
      db' = { db with
        reservationTransitions := transitions
        reservations := db.reservations.modify id (Reservation.release .released reason now)
          (Reservation.release_keeps _ _ _)
        allocations := settledAllocations db r terminal now kind } := by
  unfold settleStatement at h
  split at h
  · cases h
  · split at h
    · next i r hi hr =>
      obtain ⟨hget, hstatus⟩ := settledIntent_some hi
      obtain ⟨hrget, hlive⟩ := lockedReservation_some hr
      split at h
      · cases h
      · next kind' hkind =>
        split at h
        · cases h
        · simp only [bind_eq_ok, Table.insertOne_eq_ok] at h
          obtain ⟨transitions, hins, hout⟩ := h
          cases hout
          exact ⟨i, r, transitions, hget, hstatus, hrget, hlive, hkind, hins, rfl⟩
    · cases h

theorem settleStatement_unchanged {id intentId : String} {state : LifecycleState}
    {terminal : ReservationTerminalState} {reason : ReleaseReason} {outcome : SettlementOutcome}
    (h : settleStatement db session id intentId state terminal reason now = .ok (db', outcome))
    (hne : ∀ kind, outcome ≠ .settled kind) :
    db' = db ∧ (outcome = .replayed → existingTransition db id intentId terminal reason) := by
  unfold settleStatement at h
  split at h
  · next hexists =>
    cases h
    exact ⟨rfl, fun _ ↦ hexists⟩
  · split at h
    · split at h
      · cases h
        exact ⟨rfl, by simp⟩
      · split at h
        · cases h
          exact ⟨rfl, by simp⟩
        · simp only [bind_eq_ok] at h
          obtain ⟨_, _, hout⟩ := h
          cases hout
          exact absurd rfl (hne _)
    · cases h
      exact ⟨rfl, by simp⟩

/-- A settlement wrote what its statement wrote, or nothing; it succeeds only when the reservation
was settled now or earlier. -/
theorem settle_cases {result : Except String Unit}
    (h : settle db session target obs now = (db', result)) :
    (∃ id kind, target.intent.reservationId = some id ∧ obs.status ∈ terminalStatuses ∧
        settleStatement db session id target.intent.id obs.state (settlementOf obs.status).1
          (settlementOf obs.status).2 now = .ok (db', .settled kind)) ∨
      (db' = db ∧ (result = .ok () → ∀ id, target.intent.reservationId = some id →
        obs.status ∈ terminalStatuses → (db.reservationTransitions.get? id).isSome)) := by
  have hsome : ∀ {id intentId : String} {terminal reason},
      existingTransition db id intentId terminal reason →
      (db.reservationTransitions.get? id).isSome := by
    intro id intentId terminal reason hexists
    obtain ⟨t, ht, _⟩ := (Option.any_eq_true _ _).1 hexists
    rw [ht]
    rfl
  unfold settle at h
  split at h
  · next hnone =>
    cases h
    exact Or.inr ⟨rfl, fun _ id hid ↦ by rw [hnone] at hid; cases hid⟩
  · next id hid =>
    split at h
    · next hterm =>
      dsimp only at h
      split at h
      · cases h
        exact Or.inr ⟨rfl, by simp⟩
      · next hstmt =>
        cases h
        exact Or.inl ⟨id, _, hid, hterm, hstmt⟩
      · next hstmt =>
        cases h
        obtain ⟨rfl, hrep⟩ := settleStatement_unchanged hstmt (by simp)
        refine Or.inr ⟨rfl, fun _ id' hid' _ ↦ ?_⟩
        obtain rfl : id = id' := Option.some_inj.1 (hid.symm.trans hid')
        exact hsome (hrep rfl)
      · next hstmt =>
        obtain ⟨rfl, _⟩ := settleStatement_unchanged hstmt (by simp)
        split at h
        · next hcon =>
          cases h
          refine Or.inr ⟨rfl, fun _ id' hid' _ ↦ ?_⟩
          obtain rfl : id = id' := Option.some_inj.1 (hid.symm.trans hid')
          unfold concurrentlyReplayed at hcon
          simp only [Bool.and_eq_true] at hcon
          exact hsome hcon.1.1
        · cases h
          exact Or.inr ⟨rfl, by simp⟩
    · next hopen =>
      cases h
      exact Or.inr ⟨rfl, fun _ _ _ hterm ↦ absurd hterm hopen⟩

end Settlement

end AlpacaTrading
