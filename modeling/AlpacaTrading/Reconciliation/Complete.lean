import AlpacaTrading.Reconciliation.Pass
import AlpacaTrading.Store.Invariant

/-!
# A completed pass

A reconciled intent may still hold its reservation: the pass that saw the terminal status stopped
before the settlement, or the settlement failed.  Such intents are targets of the next pass, and a
pass over all targets that reports no error leaves none of them.

The argument needs one fact about texts: none of the errors the service throws itself reads like
the absence of an order, so a failed settlement is reported as an error and never as an absence.
-/

namespace AlpacaTrading

/-! ## Errors of the service -/

/-- The computation throws no error that reads like the absence of an order. -/
def Coded {α : Type} (x : Except String α) : Prop :=
  ∀ code, x = .error code → Reconciliation.brokerOrderAbsent (.ofCode code) = false

section Coded

variable {α β : Type}

theorem coded_ok (a : α) : Coded (.ok a : Except String α) := by
  intro code h
  cases h

theorem coded_error {code : String}
    (h : Reconciliation.brokerOrderAbsent (.ofCode code) = false) :
    Coded (.error code : Except String α) := by
  intro code' h'
  cases h'
  exact h

theorem coded_bind {x : Except String α} {f : α → Except String β} (hx : Coded x)
    (hf : ∀ a, Coded (f a)) : Coded (x >>= f) := by
  intro code h
  cases x with
  | error e =>
    cases h
    exact hx code rfl
  | ok a => exact hf a code h

theorem coded_require {b : Bool} {code : String}
    (h : Reconciliation.brokerOrderAbsent (.ofCode code) = false) : Coded (require b code) := by
  unfold require
  split
  · exact coded_ok ()
  · exact coded_error h

theorem coded_required {value : BrokerText} {code : String}
    (h : Reconciliation.brokerOrderAbsent (.ofCode code) = false) :
    Coded (value.required code) := by
  unfold BrokerText.required
  split
  · exact coded_error h
  · exact coded_ok _

/-- The codes the service and the database throw while an observation is read, stored and
settled. -/
def thrownCodes : List String :=
  ["Cannot read properties of null",
    "POSTGRES_RECONCILIATION_BROKER_ID_MISSING",
    "POSTGRES_RECONCILIATION_CLIENT_ID_MISSING",
    "POSTGRES_RECONCILIATION_BROKER_IDENTITY_MISMATCH",
    "POSTGRES_RECONCILIATION_STATUS_MISSING",
    "POSTGRES_RECONCILIATION_TIMESTAMP_MISSING",
    "POSTGRES_RECONCILIATION_SYMBOL_MISSING",
    "Invalid time value",
    "NO_VALID_LIFECYCLE_PATH",
    "POSTGRES_RECONCILIATION_PARTIAL_QUANTITY_INVALID",
    "POSTGRES_RECONCILIATION_PARTIAL_RESERVATION_FAILED",
    "POSTGRES_RECONCILIATION_INTENT_PERSISTENCE_FAILED",
    "POSTGRES_RECONCILIATION_TERMINAL_SETTLEMENT_STATE_INVALID",
    "POSTGRES_RECONCILIATION_RESERVATION_RELEASE_FAILED",
    "invalid input syntax for type numeric",
    "invalid input syntax for type timestamp with time zone",
    "orders_pkey",
    "orders_broker_order_idx",
    "orders_financial_values_valid",
    "buying_power_reservations_amount_positive",
    "autonomous_trade_lifecycle_transitions_pkey",
    "broker_events_received_after_occurred",
    "reservation_terminal_transitions_pkey"]

theorem unabsent {code : String} (h : code ∈ thrownCodes) :
    Reconciliation.brokerOrderAbsent (.ofCode code) = false := by
  have hcodes : thrownCodes.all
      (fun c ↦ !Reconciliation.brokerOrderAbsent (.ofCode c)) = true := by decide +kernel
  simpa using List.all_eq_true.1 hcodes code h

theorem coded_column (value : BrokerNumber) : Coded value.column := by
  have hcode : Reconciliation.brokerOrderAbsent
      (.ofCode "invalid input syntax for type numeric") = false := unabsent (by simp [thrownCodes])
  cases value with
  | absent => exact coded_ok _
  | blank => exact coded_error hcode
  | value q => exact coded_ok _
  | malformed => exact coded_error hcode

theorem coded_insertOne {ρ κ : Type} [Row ρ κ] {t : Table ρ} {r : ρ} {code : String}
    (h : Reconciliation.brokerOrderAbsent (.ofCode code) = false) : Coded (t.insertOne r code) := by
  unfold Table.insertOne
  split
  · exact coded_ok _
  · exact coded_error h

end Coded

section Codes

variable [Hashing] {db : Db} {session : Session} {target : Target} {obs : Observation} {now : Time}

omit [Hashing] in
theorem resolvePath_coded (fromState : LifecycleState) (type : ReviewType) (status : String) :
    Coded (resolveBrokerReconciliationLifecyclePath fromState type status) := by
  unfold resolveBrokerReconciliationLifecyclePath
  dsimp only
  split
  · exact coded_ok _
  · split
    · exact coded_ok _
    · unfold resolveLifecycleTransitionPath
      split
      · exact coded_ok _
      · split
        · exact coded_ok _
        · exact coded_error (unabsent (by simp [thrownCodes]))

theorem readObservation_coded (response : AlpacaApiResponse) :
    Coded (readObservation target response now) := by
  have hdata : ∀ data, Coded (readObservation target { response with data := some data } now) := by
    intro data
    unfold readObservation
    dsimp only
    refine coded_bind (coded_ok data) fun data ↦ ?_
    refine coded_bind (coded_required (unabsent (by simp [thrownCodes]))) fun brokerId ↦ ?_
    refine coded_bind (coded_required (unabsent (by simp [thrownCodes]))) fun clientId ↦ ?_
    refine coded_bind (coded_require (unabsent (by simp [thrownCodes]))) fun _ ↦ ?_
    refine coded_bind (coded_required (unabsent (by simp [thrownCodes]))) fun status ↦ ?_
    refine coded_bind (coded_require (unabsent (by simp [thrownCodes]))) fun _ ↦ ?_
    refine coded_bind (coded_require (unabsent (by simp [thrownCodes]))) fun _ ↦ ?_
    refine coded_bind (resolvePath_coded _ _ _) fun path ↦ ?_
    refine coded_bind (coded_required (unabsent (by simp [thrownCodes]))) fun symbol ↦ ?_
    split
    · exact coded_ok _
    · exact coded_error (unabsent (by simp [thrownCodes]))
  obtain ⟨body, status, requestId⟩ := response
  cases body with
  | none => exact coded_error (unabsent (by simp [thrownCodes]))
  | some data => exact hdata data

theorem observedOrder_coded : Coded (observedOrder target obs) := by
  unfold observedOrder
  refine coded_bind (coded_column _) fun quantity ↦ ?_
  refine coded_bind (coded_column _) fun notional ↦ ?_
  refine coded_bind (coded_column _) fun limitPrice ↦ ?_
  refine coded_bind (coded_column _) fun filled ↦ ?_
  refine coded_bind (coded_column _) fun filledAveragePrice ↦ ?_
  dsimp only
  split
  · exact coded_ok _
  · split
    · exact coded_ok _
    · split
      · exact coded_error (unabsent (by simp [thrownCodes]))
      · exact coded_ok _

omit [Hashing] in
theorem upsertOrder_coded (t : Table Order) (new : Order) : Coded (upsertOrder t new) := by
  unfold upsertOrder
  refine coded_bind (coded_require (unabsent (by simp [thrownCodes]))) fun _ ↦ ?_
  split
  · refine coded_bind (coded_require (unabsent (by simp [thrownCodes]))) fun _ ↦ ?_
    split
    · exact coded_ok _
    · exact coded_error (unabsent (by simp [thrownCodes]))
  · exact coded_bind (coded_insertOne (unabsent (by simp [thrownCodes]))) fun _ ↦ coded_ok _

omit [Hashing] in
theorem appendTransitions_coded (rows : List LifecycleTransition)
    (t : Table LifecycleTransition) : Coded (appendTransitions t rows) := by
  induction rows generalizing t with
  | nil => exact coded_ok _
  | cons r rest ih =>
    unfold appendTransitions
    split
    · exact ih t
    · refine coded_bind (coded_insertOne (unabsent (by simp [thrownCodes]))) fun t' ↦ ?_
      exact coded_bind (ih t') fun _ ↦ coded_ok _

theorem storeObservation_coded (resized : Option Resize) :
    Coded (storeObservation db target obs now resized) := by
  unfold storeObservation
  refine coded_bind observedOrder_coded fun order ↦ ?_
  refine coded_bind (upsertOrder_coded _ _) fun stored ↦ ?_
  refine coded_bind ?_ fun db₁ ↦ ?_
  · unfold applyResize
    split
    · exact coded_ok _
    · split
      · exact coded_ok _
      · exact coded_error (unabsent (by simp [thrownCodes]))
  · refine coded_bind (appendTransitions_coded _ _) fun appended ↦ ?_
    dsimp only
    split
    · refine coded_bind ?_ fun _ ↦ coded_ok _
      unfold appendEvent
      refine coded_bind (coded_require (unabsent (by simp [thrownCodes]))) fun _ ↦ ?_
      split
      · exact coded_ok _
      · exact coded_ok _
    · exact coded_ok _

/-- An observation that fails does not read like an absence. -/
theorem observe_coded : Coded (observe db session target obs now).2 := by
  have hother : Coded (observe.observeOther db session target obs now).2 := by
    unfold observe.observeOther
    split
    · next code hstmt =>
      have hcoded : Coded (observeStatement db session target obs now) := by
        unfold observeStatement
        split
        · exact coded_ok _
        · split
          · exact storeObservation_coded none
          · exact coded_ok _
      exact coded_error (hcoded code hstmt)
    · split
      · exact coded_ok _
      · exact coded_error (unabsent (by simp [thrownCodes]))
  unfold observe
  split
  · split
    · split
      · next code hq =>
        have hcoded : Coded (partialQuantities obs) := by
          unfold partialQuantities
          split
          · split
            · exact coded_error (unabsent (by simp [thrownCodes]))
            · exact coded_ok _
          · exact coded_error (unabsent (by simp [thrownCodes]))
        exact coded_error (hcoded code hq)
      · next id _ _ _ filled ordered _ =>
        split
        · next code hstmt =>
          have hcoded : Coded (partialStatement db session target obs id filled ordered now) := by
            unfold partialStatement
            split
            · exact coded_ok _
            · dsimp only
              split
              · exact storeObservation_coded _
              · exact coded_ok _
          exact coded_error (hcoded code hstmt)
        · split
          · exact coded_ok _
          · exact coded_error (unabsent (by simp [thrownCodes]))
    · exact hother
  · exact hother

/-- Neither does a settlement that fails. -/
theorem settle_coded : Coded (settle db session target obs now).2 := by
  unfold settle
  split
  · exact coded_ok _
  · next id _ =>
    split
    · dsimp only
      split
      · next code hstmt =>
        have hcoded : Coded (settleStatement db session id target.intent.id obs.state
            (settlementOf obs.status).1 (settlementOf obs.status).2 now) := by
          unfold settleStatement
          split
          · exact coded_ok _
          · split
            · split
              · exact coded_ok _
              · split
                · exact coded_ok _
                · refine coded_bind (coded_insertOne (unabsent (by simp [thrownCodes]))) ?_
                  exact fun _ ↦ coded_ok _
            · exact coded_ok _
        exact coded_error (hcoded code hstmt)
      · exact coded_ok _
      · exact coded_ok _
      · split
        · exact coded_ok _
        · exact coded_error (unabsent (by simp [thrownCodes]))
    · exact coded_ok _

end Codes

/-! ## One target -/

/-- The step concerns one intent: the others stay, and no reservation comes to life. -/
structure Touches (db db' : Db) (id : String) : Prop where
  intents : ∀ k, k ≠ id → db'.intents.get? k = db.intents.get? k
  live : ∀ r, liveReservation db' r = true → liveReservation db r = true

theorem Touches.refl (db : Db) (id : String) : Touches db db id := ⟨fun _ _ ↦ rfl, fun _ h ↦ h⟩

theorem Touches.trans {db db' db'' : Db} {id : String} (h : Touches db db' id)
    (h' : Touches db' db'' id) : Touches db db'' id :=
  ⟨fun k hk ↦ (h'.intents k hk).trans (h.intents k hk), fun r hr ↦ h.live r (h'.live r hr)⟩

theorem Touches.of_modify {db db' : Db} {id : String} {f : Intent → Intent} (hf : Keeps f)
    (hi : db'.intents = db.intents.modify id f hf)
    (hlive : ∀ r, liveReservation db' r = true → liveReservation db r = true) :
    Touches db db' id := by
  refine ⟨fun k hk ↦ ?_, hlive⟩
  rw [hi, Table.get?_modify, if_neg hk]

theorem Touches.of_eq {db db' : Db} (id : String) (hi : db'.intents = db.intents)
    (hlive : ∀ r, liveReservation db' r = true → liveReservation db r = true) :
    Touches db db' id :=
  ⟨fun k _ ↦ by rw [hi], hlive⟩

section Target

variable [Hashing] {db db' : Db} {session : Session} {target : Target} {obs : Observation}
  {now : Time}

/-- What a stored observation does to the intents, and that it keeps reservations alive. -/
theorem storeObservation_touches {resized : Option Resize} {counts : ObserveCounts}
    (hresized : ∀ z, resized = some z → db.reservations.get? z.reservation.id = some z.reservation)
    (h : storeObservation db target obs now resized = .ok (db', counts)) :
    (∀ r, liveReservation db' r = liveReservation db r) ∧
      ((counts.updatedIntent = false ∧ db'.intents = db.intents) ∨ ∃ submittedAt,
        db'.intents = db.intents.modify target.intent.id (Intent.observe obs submittedAt now)
          (Intent.observe_keeps _ _ _)) := by
  obtain ⟨order, orders, orderId, db₁, transitions, _, _, hres, _, hcase⟩ := storeObservation_ok h
  have hfirst : db₁.intents = db.intents ∧
      ∀ r, liveReservation db₁ r = liveReservation db r := by
    cases resized with
    | none =>
      rw [applyResize_none hres]
      exact ⟨rfl, fun _ ↦ rfl⟩
    | some z =>
      obtain ⟨hpos, heq⟩ := applyResize_some hres
      have hreservations : db₁.reservations = db.reservations.modify z.reservation.id
          (Reservation.resize z.remaining hpos now) (Reservation.resize_keeps _ _ _) := by rw [heq]
      refine ⟨by rw [heq], fun r ↦ ?_⟩
      rw [liveReservation_modify (hresized z rfl) hreservations r]
      split
      · next hr =>
        rw [hr, liveReservation_of_get? (hresized z rfl)]
        rfl
      · rfl
  obtain ⟨hintents, hlive⟩ := hfirst
  rcases hcase with ⟨_, events, _, rfl⟩ | ⟨hcount, rfl⟩
  · exact ⟨hlive, Or.inr ⟨order.submittedAt, by rw [hintents]⟩⟩
  · exact ⟨hlive, Or.inl ⟨hcount, hintents⟩⟩

/-- What an observation does to the intents. -/
def ObservesIntent (db db' : Db) (target : Target) (obs : Observation) (now : Time) : Prop :=
  ∃ submittedAt, db'.intents = db.intents.modify target.intent.id
    (Intent.observe obs submittedAt now) (Intent.observe_keeps _ _ _)

/-- An observation concerns its target: its intent stays or is moved, and it is moved when the
observation succeeds. -/
theorem observe_touches {result : Except String Bool}
    (h : observe db session target obs now = (db', result)) :
    Touches db db' target.intent.id ∧
      (db'.intents = db.intents ∨ ObservesIntent db db' target obs now) ∧
      ∀ stored, result = .ok stored → ObservesIntent db db' target obs now := by
  have hnothing : ∀ {counts : ObserveCounts}, counts = .nothing → counts.updatedIntent = true →
      False := by
    rintro counts rfl hup
    cases hup
  have hstore : ∀ {resized : Option Resize} {counts : ObserveCounts},
      (∀ z, resized = some z → db.reservations.get? z.reservation.id = some z.reservation) →
      storeObservation db target obs now resized = .ok (db', counts) →
      (∀ stored, result = .ok stored → counts.updatedIntent = true) →
      Touches db db' target.intent.id ∧
        (db'.intents = db.intents ∨ ObservesIntent db db' target obs now) ∧
        ∀ stored, result = .ok stored → ObservesIntent db db' target obs now := by
    intro resized counts hresized hst hok
    obtain ⟨hlive, ⟨hcount, hintents⟩ | ⟨submittedAt, hintents⟩⟩ :=
      storeObservation_touches hresized hst
    · refine ⟨.of_eq _ hintents fun r hr ↦ hlive r ▸ hr, Or.inl hintents, fun stored hresult ↦ ?_⟩
      rw [hok stored hresult] at hcount
      cases hcount
    · exact ⟨.of_modify (Intent.observe_keeps _ _ _) hintents fun r hr ↦ hlive r ▸ hr,
        Or.inr ⟨submittedAt, hintents⟩, fun _ _ ↦ ⟨submittedAt, hintents⟩⟩
  rcases observe_cases h with ⟨rfl, hno⟩ | ⟨counts, hstmt, _, hok⟩ |
    ⟨id, filled, ordered, counts, _, _, _, hstmt, hok⟩
  · exact ⟨.refl _ _, Or.inl rfl, fun stored hresult ↦ absurd hresult (hno stored)⟩
  · rcases observeStatement_ok hstmt with ⟨rfl, hc⟩ | ⟨i, _, _, hst⟩
    · exact ⟨.refl _ _, Or.inl rfl, fun stored hresult ↦ (hnothing hc (hok stored hresult)).elim⟩
    · exact hstore (fun z hz ↦ by cases hz) hst hok
  · rcases partialStatement_ok hstmt with ⟨rfl, hc⟩ | ⟨i, resized, _, _, hst, hcase⟩
    · exact ⟨.refl _ _, Or.inl rfl,
        fun stored hresult ↦ (hnothing hc (hok stored hresult).1).elim⟩
    · refine hstore (fun z hz ↦ ?_) hst fun stored hresult ↦ (hok stored hresult).1
      rcases hcase with ⟨hnone, _⟩ | ⟨z', r, hsome, _, hlock, hresize⟩
      · rw [hnone] at hz
        cases hz
      · obtain rfl : z' = z := Option.some_inj.1 (hsome.symm.trans hz)
        obtain ⟨hr, _⟩ := resize?_some hresize
        obtain ⟨hget, _⟩ := lockedReservation_some hlock
        have hkey : r.id = id := Table.key_of_get? hget
        rw [hr, hkey]
        exact hget

/-- A settlement leaves the intents alone; when it succeeds, the reservation of a terminal order
is not live any more. -/
theorem settle_touches {result : Except String Unit} (hsound : Sound db)
    (h : settle db session target obs now = (db', result)) :
    db'.intents = db.intents ∧ Touches db db' target.intent.id ∧
      (result = .ok () → obs.status ∈ terminalStatuses → ∀ id,
        target.intent.reservationId = some id → liveReservation db' id = false) := by
  rcases settle_cases h with ⟨id, kind, hid, _, hstmt⟩ | ⟨rfl, hok⟩
  · obtain ⟨i, r, transitions, _, _, hrget, _, _, _, heq⟩ := settleStatement_settled hstmt
    obtain rfl : r.id = id := Table.key_of_get? hrget
    have hreservations : db'.reservations = db.reservations.modify r.id
        (Reservation.release .released (settlementOf obs.status).2 now)
        (Reservation.release_keeps _ _ _) := by rw [heq]
    have hintents : db'.intents = db.intents := by rw [heq]
    refine ⟨hintents, .of_eq _ hintents fun x hx ↦ ?_, fun _ _ id hid' ↦ ?_⟩
    · rw [liveReservation_modify hrget hreservations x] at hx
      split at hx
      · cases hx
      · exact hx
    · obtain rfl : r.id = id := Option.some_inj.1 (hid.symm.trans hid')
      rw [liveReservation_modify hrget hreservations, if_pos rfl]
      rfl
  · refine ⟨rfl, .refl _ _, fun hresult hterm id hid ↦ ?_⟩
    obtain ⟨t, ht⟩ := Option.isSome_iff_exists.1 (hok hresult id hid hterm)
    have hdead := hsound.ended_live t (Table.mem_of_get? ht)
    rwa [show t.reservationId = id from Table.key_of_get? ht] at hdead

omit [Hashing] in
/-- The release of an absent order's reservation. -/
theorem releaseAbsent_touches (db : Db) (reservationId : Option String) (now : Time) :
    (releaseAbsent db reservationId now).1.intents = db.intents ∧
      ∀ r, liveReservation (releaseAbsent db reservationId now).1 r = true →
        liveReservation db r = true := by
  cases hr : reservationId.bind fun id ↦ lockedReservation db id with
  | none =>
    have hsame : (releaseAbsent db reservationId now).1 = db := by simp only [releaseAbsent, hr]
    rw [hsame]
    exact ⟨rfl, fun _ h ↦ h⟩
  | some r =>
    have hreservations : (releaseAbsent db reservationId now).1.reservations =
        db.reservations.modify r.id (Reservation.release .released .brokerOrderAbsenceConfirmed now)
          (Reservation.release_keeps _ _ _) := by simp only [releaseAbsent, hr]
    refine ⟨by simp only [releaseAbsent, hr], fun x hx ↦ ?_⟩
    obtain ⟨rid, _, hlocked⟩ := Option.bind_eq_some_iff.1 hr
    obtain ⟨hrget, _⟩ := lockedReservation_some hlocked
    obtain rfl : r.id = rid := Table.key_of_get? hrget
    rw [liveReservation_modify hrget hreservations x] at hx
    split at hx
    · cases hx
    · exact hx

/-- The stored intent of a target is not reconciled. -/
def Unreconciled (db : Db) (id : String) : Prop :=
  ∀ i, db.intents.get? id = some i → i.status ≠ .reconciled

theorem terminalizeAbsence_touches {evidence : AbsenceEvidence}
    (hopen : Unreconciled db target.intent.id) :
    Touches db (terminalizeAbsence db session target evidence now).1 target.intent.id ∧
      Unreconciled (terminalizeAbsence db session target evidence now).1 target.intent.id := by
  unfold terminalizeAbsence
  dsimp only
  split
  · split
    · exact ⟨.refl _ _, hopen⟩
    · split
      · exact ⟨.of_eq _ rfl fun _ h ↦ h, hopen⟩
      · next i hi =>
        obtain ⟨hget, _⟩ := Option.filter_eq_some_iff.1 hi
        have hrelease := fun events ↦ releaseAbsent_touches { db with
          events
          intents := db.intents.modify target.intent.id (Intent.failAbsent now)
            (Intent.failAbsent_keeps now) } i.reservationId now
        have hstate : ∀ events, Touches db (releaseAbsent { db with
            events
            intents := db.intents.modify target.intent.id (Intent.failAbsent now)
              (Intent.failAbsent_keeps now) } i.reservationId now).1 target.intent.id ∧
            Unreconciled (releaseAbsent { db with
              events
              intents := db.intents.modify target.intent.id (Intent.failAbsent now)
                (Intent.failAbsent_keeps now) } i.reservationId now).1 target.intent.id := by
          intro events
          obtain ⟨hintents, hlive⟩ := hrelease events
          refine ⟨.of_modify (Intent.failAbsent_keeps now) hintents hlive, fun j hj ↦ ?_⟩
          rw [hintents, Table.get?_modify, if_pos rfl, hget, Option.map_some, Option.some_inj] at hj
          rw [← hj]
          simp [Intent.failAbsent]
        split_ifs <;> exact hstate _
  · exact ⟨.refl _ _, hopen⟩

/-- A target the broker does not know is not reconciled by that. -/
theorem recordBrokerOrderAbsence_touches (hopen : Unreconciled db target.intent.id) :
    Touches db (recordBrokerOrderAbsence db session target now).1 target.intent.id ∧
      Unreconciled (recordBrokerOrderAbsence db session target now).1 target.intent.id := by
  have hdefer : ∀ db₁ : Db, Touches db₁ (deferAbsentCandidate db₁ session target now).1
      target.intent.id ∧
      (deferAbsentCandidate db₁ session target now).1.intents = db₁.intents := by
    intro db₁
    unfold deferAbsentCandidate
    split
    · exact ⟨.refl _ _, rfl⟩
    · split
      · exact ⟨.of_eq _ rfl fun _ h ↦ h, rfl⟩
      · exact ⟨.refl _ _, rfl⟩
  unfold recordBrokerOrderAbsence
  dsimp only
  split
  · have hfail := @terminalizeAbsence_touches _ db session target now
      (absenceEvidence db target now) hopen
    split
    · next heq =>
      rw [heq] at hfail
      exact hfail
    · next db₁ heq =>
      rw [heq] at hfail
      obtain ⟨htouch, hsame⟩ := hdefer db₁
      have hboth : Touches db (deferAbsentCandidate db₁ session target now).1 target.intent.id ∧
          Unreconciled (deferAbsentCandidate db₁ session target now).1 target.intent.id := by
        refine ⟨hfail.1.trans htouch, fun j hj ↦ hfail.2 j ?_⟩
        rwa [hsame] at hj
      split
      · next heq' =>
        rw [heq'] at hboth
        exact hboth
      · next heq' =>
        rw [heq'] at hboth
        exact hboth
  · unfold recordPendingAbsence
    split
    · split
      · exact ⟨.of_eq _ rfl fun _ h ↦ h, hopen⟩
      · exact ⟨.refl _ _, hopen⟩
    · exact ⟨.refl _ _, hopen⟩

/-- A settled target: its intent, if it is reconciled, holds nothing. -/
def Target.Settled (db : Db) (target : Target) : Prop :=
  ∀ i, db.intents.get? target.intent.id = some i → i.status = .reconciled → i.reserved db = false

/-- An error of the service is not taken for an absence, and changes nothing. -/
theorem recoverTarget_coded {code : String}
    (h : Reconciliation.brokerOrderAbsent (.ofCode code) = false) :
    (recoverTarget db session target (.ofCode code) now).1 = db := by
  rw [recoverTarget, if_neg]
  rintro ⟨_, habsent⟩
  rw [h] at habsent
  cases habsent

/-- The `catch` branch, for an error that is not reported as one. -/
theorem recoverTarget_touches {error : Thrown}
    (hstored : Reconciliation.brokerOrderAbsent error = true →
      db.intents.get? target.intent.id = some target.intent) :
    Touches db (recoverTarget db session target error now).1 target.intent.id ∧
      ((recoverTarget db session target error now).2.isError = false →
        target.Settled (recoverTarget db session target error now).1) := by
  unfold recoverTarget
  split
  · next hcond =>
    have hopen : Unreconciled db target.intent.id := by
      intro i hi
      obtain rfl : target.intent = i := Option.some_inj.1 ((hstored hcond.2).symm.trans hi)
      rcases List.mem_cons.1 hcond.1 with hs | hs
      · simp [hs]
      · simp [List.mem_singleton.1 hs]
    have habsence := @recordBrokerOrderAbsence_touches _ db session target now hopen
    split
    · next heq =>
      rw [heq] at habsence
      exact ⟨habsence.1, fun _ i hi hs ↦ absurd hs (habsence.2 i hi)⟩
    · next heq =>
      rw [heq] at habsence
      exact ⟨habsence.1, fun hno ↦ by cases hno⟩
  · exact ⟨.refl _ _, fun hno ↦ by cases hno⟩

/-- **One target of a pass**: the other intents stay, and unless an error is reported its own
intent does not stay reconciled with a live reservation. -/
theorem reconcileTarget_settles {answer : Lookup} (hsound : Sound db) (hknown : target.Known db)
    (hstored : db.intents.get? target.intent.id = some target.intent) :
    Touches db (reconcileTarget db session target answer now).1 target.intent.id ∧
      ((reconcileTarget db session target answer now).2.isError = false →
        target.Settled (reconcileTarget db session target answer now).1) := by
  unfold reconcileTarget
  split
  · exact recoverTarget_touches fun _ ↦ hstored
  · split
    · exact recoverTarget_touches fun _ ↦ hstored
    · next obs hread =>
      split
      · next db₁ code hobserve =>
        -- The service's own errors are never taken for an absence.
        have hcoded := @observe_coded _ db session target obs now
        rw [hobserve] at hcoded
        obtain ⟨htouch, _, _⟩ := observe_touches hobserve
        obtain ⟨htouch', hsettled⟩ := @recoverTarget_touches _ db₁ session target now
          (.ofCode code) fun habsent ↦ absurd habsent (by rw [hcoded code rfl]; simp)
        exact ⟨htouch.trans htouch', hsettled⟩
      · next db₁ stored hobserve =>
        have heffect : Effect db db₁ := observe_effect hknown (readObservation_ok hread) hobserve
        have hsound₁ := hsound.effect heffect
        obtain ⟨htouch, _, hmoved⟩ := observe_touches hobserve
        obtain ⟨submittedAt, hintents⟩ := hmoved stored rfl
        split
        · next db₂ code hsettle =>
          have hcoded := @settle_coded _ db₁ session target obs now
          rw [hsettle] at hcoded
          obtain ⟨_, htouch₁, _⟩ := settle_touches hsound₁ hsettle
          obtain ⟨htouch₂, hsettled⟩ := @recoverTarget_touches _ db₂ session target now
            (.ofCode code) fun habsent ↦ absurd habsent (by rw [hcoded code rfl]; simp)
          exact ⟨(htouch.trans htouch₁).trans htouch₂, hsettled⟩
        · next db₂ hsettle =>
          obtain ⟨hsame, htouch₁, hdead⟩ := settle_touches hsound₁ hsettle
          refine ⟨htouch.trans htouch₁, fun _ i hi hs ↦ ?_⟩
          rw [hsame, hintents, Table.get?_modify, if_pos rfl, hstored, Option.map_some,
            Option.some_inj] at hi
          subst hi
          have hterm : obs.status ∈ terminalStatuses := by
            by_contra hopen
            simp [Intent.observe, Observation.intentStatus, hopen] at hs
          unfold Intent.reserved
          cases hid : target.intent.reservationId with
          | none => simp [Intent.observe, hid]
          | some id => simp [Intent.observe, hid, hdead rfl hterm id hid]

/-! ## The loop -/

/-- What the loop over the targets keeps: the rows it still holds are the stored ones, and a
reconciled intent with a live reservation is still to come. -/
structure PassInvariant (db : Db) (todo : List Target) : Prop where
  sound : Sound db
  known : ∀ target ∈ todo, target.Known db
  stored : ∀ target ∈ todo, db.intents.get? target.intent.id = some target.intent
  distinct : (todo.map (·.intent.id)).Nodup
  pending : ∀ i ∈ db.intents.rows, i.status = .reconciled → i.reserved db = true →
    ∃ target ∈ todo, target.intent.id = i.id

theorem PassInvariant.step {answer : Lookup} {rest : List Target}
    (h : PassInvariant db (target :: rest))
    (hok : (reconcileTarget db session target answer now).2.isError = false) :
    PassInvariant (reconcileTarget db session target answer now).1 rest := by
  have hknown := h.known target List.mem_cons_self
  have hstored := h.stored target List.mem_cons_self
  have hdistinct := h.distinct
  rw [List.map_cons, List.nodup_cons] at hdistinct
  obtain ⟨htouch, hsettled⟩ := @reconcileTarget_settles _ db session target now answer h.sound
    hknown hstored
  have heffects := Reconciles.effects (@reconcileTarget_reconciles _ db session target now answer hknown)
  have hother : ∀ t ∈ rest, t.intent.id ≠ target.intent.id := by
    intro t ht heq
    exact hdistinct.1 (heq ▸ List.mem_map_of_mem (f := fun t : Target ↦ t.intent.id) ht)
  refine ⟨invariant_of_steps (fun _ _ hs he ↦ hs.effect he) heffects h.sound, fun t ht ↦ ?_,
    fun t ht ↦ ?_, hdistinct.2, fun i hi hs hr ↦ ?_⟩
  · exact (h.known t (List.mem_cons_of_mem _ ht)).later (Effects.later heffects)
  · rw [htouch.intents _ (hother t ht)]
    exact h.stored t (List.mem_cons_of_mem _ ht)
  · by_cases hid : i.id = target.intent.id
    · have hget := Table.get?_of_mem hi
      have hfree := hsettled hok i (by rw [← hid]; exact hget) hs
      rw [hfree] at hr
      cases hr
    · -- The intent of another target is the row it was, and its reservation was live before.
      have hget : db.intents.get? i.id = some i := by
        rw [← htouch.intents i.id hid]
        exact Table.get?_of_mem hi
      have hlive : i.reserved db = true := by
        unfold Intent.reserved at hr ⊢
        obtain ⟨r, hr', hlive⟩ := (Option.any_eq_true _ _).1 hr
        rw [hr', Option.any_some]
        exact htouch.live r hlive
      obtain ⟨t, ht, htid⟩ := h.pending i (Table.mem_of_get? hget) hs hlive
      rcases List.mem_cons.1 ht with rfl | ht
      · exact absurd htid.symm hid
      · exact ⟨t, ht, htid⟩

/-- After the loop, when no target reported an error. -/
theorem reconcileTargets_settles {lookup : String → Lookup} {todo : List Target}
    (h : PassInvariant db todo)
    (hok : ∀ result ∈ (reconcileTargets session now lookup db todo).2, result.isError = false) :
    PassInvariant (reconcileTargets session now lookup db todo).1 [] := by
  induction todo generalizing db with
  | nil => exact h
  | cons target rest ih =>
    have hfirst : (reconcileTarget db session target (lookup target.intent.clientOrderId)
        now).2.isError = false := hok _ List.mem_cons_self
    exact ih (h.step hfirst) fun result hresult ↦ hok result (List.mem_cons_of_mem _ hresult)

omit [Hashing] in
/-- The rows a pass starts from. -/
theorem listTargets_invariant (hsound : Sound db) : PassInvariant db (listTargets db "") := by
  have hrow : ∀ {i : Intent} {t : Target}, targetOf db i = some t → t.intent = i := by
    intro i t ht
    unfold targetOf at ht
    simp only [Option.bind_eq_bind, Option.bind_eq_some_iff] at ht
    obtain ⟨_, _, _, _, heq⟩ := ht
    cases heq
    rfl
  have hmem : ∀ {t : Target}, t ∈ listTargets db "" ↔ ∃ i ∈ db.intents.rows,
      reconcilable db i = true ∧ targetOf db i = some t := by
    intro t
    unfold listTargets
    rw [List.mem_insertionSort, List.mem_filterMap]
    constructor
    · rintro ⟨i, hi, ht⟩
      rw [List.mem_filter, Bool.and_eq_true] at hi
      exact ⟨i, hi.1, hi.2.1, ht⟩
    · rintro ⟨i, hi, hrec, ht⟩
      exact ⟨i, List.mem_filter.2 ⟨hi, by simp [hrec]⟩, ht⟩
  refine ⟨hsound, fun _ ↦ listTargets_known, fun t ht ↦ ?_, ?_, fun i hi hs hr ↦ ?_⟩
  · obtain ⟨i, hi, _, ht⟩ := hmem.1 ht
    rw [hrow ht]
    exact Table.get?_of_mem hi
  · -- Distinct rows have distinct identifiers, and sorting permutes them.
    unfold listTargets
    rw [((List.perm_insertionSort _ _).map _).nodup_iff]
    have hids : ∀ l : List Intent,
        ((l.filterMap (targetOf db)).map (·.intent.id)).Sublist (l.map (·.id)) := by
      intro l
      induction l with
      | nil => exact List.Sublist.refl _
      | cons i rest ih =>
        cases hi : targetOf db i with
        | none =>
          rw [List.filterMap_cons_none hi, List.map_cons]
          exact ih.cons _
        | some t =>
          rw [List.filterMap_cons_some hi, List.map_cons, List.map_cons, hrow hi]
          exact ih.cons_cons _
    have hrows : (db.intents.rows.map (·.id)).Nodup := by
      rw [List.Nodup, List.pairwise_map]
      exact db.intents.unique.imp fun hab heq ↦ hab (Row.clash_of_key heq)
    exact hrows.sublist ((hids _).trans (List.Sublist.map _ List.filter_sublist))
  · -- A live reservation has no terminal transition, so the intent is a target.
    obtain ⟨type, hkind, _⟩ := hsound.intents i hi
    unfold Intent.reserved at hr
    obtain ⟨id, hid, hlive⟩ := (Option.any_eq_true _ _).1 hr
    have hfree : (db.reservationTransitions.get? id).isNone = true := by
      rw [Option.isNone_iff_eq_none, Table.get?_eq_none]
      intro t ht hkey
      have hdead := hsound.ended_live t ht
      rw [show t.reservationId = id from hkey, hlive] at hdead
      cases hdead
    have hrec : reconcilable db i = true := by
      unfold liveReservation at hlive
      simp [reconcilable, hs, unsettledReservation, hid, hlive, hfree]
    unfold Intent.kind at hkind
    obtain ⟨review, hreview, _⟩ := Option.map_eq_some_iff.1 hkind
    obtain ⟨reviewId, hreviewId, hget⟩ := Option.bind_eq_some_iff.1 hreview
    have htarget : (targetOf db i).isSome := by
      unfold targetOf
      rw [hreviewId]
      simp only [Option.bind_eq_bind, Option.bind_some, hget]
      rfl
    obtain ⟨t, ht⟩ := Option.isSome_iff_exists.1 htarget
    exact ⟨t, hmem.2 ⟨i, hi, hrec, ht⟩, by rw [hrow ht]⟩

/-- **A completed pass settles.**  After a pass over all targets that reports no error, no
reconciled intent holds a live reservation. -/
theorem reconcile_settles {lookup : String → Lookup} (hsound : Sound db)
    (hok : ∀ result ∈ (reconcilePostgresPaperOrders db session now "" lookup).2,
      result.isError = false) :
    ∀ i ∈ (reconcilePostgresPaperOrders db session now "" lookup).1.intents.rows,
      i.status = .reconciled →
      i.reserved (reconcilePostgresPaperOrders db session now "" lookup).1 = false := by
  have hfinal := reconcileTargets_settles (listTargets_invariant hsound) hok
  intro i hi hs
  by_contra hr
  have hlive : i.reserved (reconcilePostgresPaperOrders db session now "" lookup).1 = true := by
    simpa using hr
  obtain ⟨t, ht, _⟩ := hfinal.pending i hi hs hlive
  cases ht

end Target

end AlpacaTrading
