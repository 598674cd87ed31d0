import AlpacaTrading.Lib.ProRata
import AlpacaTrading.Store.Invariant
import AlpacaTrading.Reconciliation.Transitions
import AlpacaTrading.Reconciliation.Pass

/-!
# Fills

An entry is filled bit by bit.  Its acknowledgement stores a first filled quantity; every pass of
reconciliation that finds the order open stores the quantity the broker reports by then, and a
`partially_filled` answer also settles it: the reservation keeps the share of what is still open,
and the rest moves from the reserved to the deployed counter.  A terminal answer ends the
reservation, and a `filled` one deploys all that was still reserved.

A partial settlement counts from the quantity the order row holds, so it relies on that quantity
having been settled before.  Two writers of the row settle nothing: the acknowledgement, and the
observation of an open order under any other status.  In the words of `Lib.ProRata` they note a
progress without settling it, and that is where the counters part from the fills.
-/

namespace AlpacaTrading

/-! ## The order of an intent -/

/-- The orders of an intent are those under its client order id. -/
def OrdersOf (t : Table Order) (intent : Intent) : Prop :=
  ∀ o ∈ t.rows, o.orderIntentId = intent.id ↔
    o.accountId = intent.accountId ∧ o.clientOrderId = intent.clientOrderId

/-- The fill the stored order of an intent accounts for. -/
def priorFill (db : Db) (intentId : String) : ℚ :=
  ((latestOrder db intentId).map (·.filledQuantity)).getD 0

/-- The filled quantity an observation reports. -/
def Observation.fill (obs : Observation) : ℚ := obs.filled.number.getD 0

/-- Only a partial fill is settled in proportion. -/
def Observation.reading (obs : Observation) : Reading ℚ where
  settled := obs.status = "partially_filled"
  done := obs.fill

theorem number_of_column {value : BrokerNumber} {q : Option ℚ} (h : value.column = .ok q) :
    q.getD 0 = value.number.getD 0 := by
  cases value with
  | absent =>
    obtain rfl := Except.ok.inj h
    rfl
  | value x =>
    obtain rfl := Except.ok.inj h
    rfl
  | blank => cases h
  | malformed => cases h

/-- The row an observation proposes. -/
theorem observedOrder_row [Hashing] {target : Target} {obs : Observation} {order : Order}
    (h : observedOrder target obs = .ok order) :
    order.orderIntentId = target.intent.id ∧ order.accountId = target.intent.accountId ∧
      order.clientOrderId = target.intent.clientOrderId ∧ order.filledQuantity = obs.fill := by
  unfold observedOrder at h
  simp only [bind_eq_ok] at h
  obtain ⟨_, _, _, _, _, _, filled, hfilled, _, _, h⟩ := h
  have hfill := number_of_column hfilled
  -- The submission time decides only whether the row can be stored.
  repeat' split at h
  all_goals
    obtain ⟨_, _, h⟩ := bind_eq_ok.1 h
    rw [← Except.ok.inj h]
    exact ⟨rfl, rfl, rfl, hfill⟩

theorem firstBy_eq_of_forall {ρ : Type*} {precedes : ρ → ρ → Bool} {l : List ρ} {r : ρ}
    (hr : r ∈ l) (hall : ∀ x ∈ l, x = r) : firstBy precedes l = some r := by
  cases hfirst : firstBy precedes l with
  | some x => rw [hall x (mem_of_firstBy hfirst)]
  | none =>
    rcases l with - | ⟨x, rest⟩
    · cases hr
    · rw [firstBy] at hfirst
      split at hfirst
      · cases hfirst
      · split at hfirst <;> cases hfirst

section Order

variable {db : Db} {intent : Intent}

/-- At most one order stands under the client order id of an intent. -/
theorem OrdersOf.priorFill_eq {o : Order} (h : OrdersOf db.orders intent) (ho : o ∈ db.orders.rows)
    (hintent : o.orderIntentId = intent.id) : priorFill db intent.id = o.filledQuantity := by
  have honly : ∀ x ∈ db.orders.rows.filter (·.orderIntentId = intent.id), x = o := by
    intro x hx
    rw [List.mem_filter, decide_eq_true_eq] at hx
    obtain ⟨haccount, hclient⟩ := (h x hx.1).1 hx.2
    obtain ⟨haccount', hclient'⟩ := (h o ho).1 hintent
    exact db.orders.eq_of_clash hx.1 ho
      (Or.inr (Or.inl ⟨haccount.trans haccount'.symm, hclient.trans hclient'.symm⟩))
  have hlatest : latestOrder db intent.id = some o :=
    firstBy_eq_of_forall (List.mem_filter.2 ⟨ho, by simpa using hintent⟩) honly
  rw [priorFill, hlatest, Option.map_some, Option.getD_some]

/-- A new order under the client order id of the intent. -/
theorem OrdersOf.insert {t t' : Table Order} {o : Order} (h : OrdersOf t intent)
    (hins : t.insert? o = some t') (hintent : o.orderIntentId = intent.id)
    (haccount : o.accountId = intent.accountId) (hclient : o.clientOrderId = intent.clientOrderId) :
    OrdersOf t' intent ∧ o ∈ t'.rows := by
  have hrows := Table.rows_of_insert? hins
  refine ⟨fun x hx ↦ ?_, by rw [hrows]; exact List.mem_append_right _ (List.mem_singleton_self o)⟩
  rw [hrows, List.mem_append, List.mem_singleton] at hx
  rcases hx with hx | rfl
  · exact h x hx
  · exact ⟨fun _ ↦ ⟨haccount, hclient⟩, fun _ ↦ hintent⟩

/-- An upsert leaves one row under the client order id, with the new fill. -/
theorem OrdersOf.upsert {t t' : Table Order} {new : Order} {id : String} (h : OrdersOf t intent)
    (hups : upsertOrder t new = .ok (t', id)) (hintent : new.orderIntentId = intent.id)
    (haccount : new.accountId = intent.accountId)
    (hclient : new.clientOrderId = intent.clientOrderId) :
    OrdersOf t' intent ∧ ∃ o ∈ t'.rows, o.orderIntentId = intent.id ∧
      o.filledQuantity = new.filledQuantity := by
  simp only [upsertOrder, bind_eq_ok] at hups
  obtain ⟨_, _, hups⟩ := hups
  split at hups
  · next old hfind =>
    rw [bind_eq_ok] at hups
    obtain ⟨_, _, hups⟩ := hups
    split at hups
    · next t₁ hupdate =>
      obtain ⟨rfl, -⟩ := Prod.mk.inj (Except.ok.inj hups)
      have hrows := Table.rows_of_update? hupdate
      have hold := List.mem_of_find?_eq_some hfind
      have hconf : new.conflicts old = true := List.find?_some hfind
      refine ⟨fun x hx ↦ ?_, new.observeAgain old, ?_, ?_, rfl⟩
      · -- The update keeps the intent and the client order id of every row.
        rw [hrows] at hx
        obtain ⟨y, hy, rfl⟩ := List.mem_map.1 hx
        have hkeep := h y hy
        split
        · exact hkeep
        · exact hkeep
      · rw [hrows]
        exact List.mem_map.2 ⟨old, hold, if_pos hconf⟩
      · refine (h old hold).2 ?_
        simp only [Order.conflicts, decide_eq_true_eq] at hconf
        exact ⟨hconf.1.trans haccount, hconf.2.trans hclient⟩
    · cases hups
  · rw [bind_eq_ok] at hups
    obtain ⟨t₁, hinsert, hups⟩ := hups
    obtain ⟨rfl, -⟩ := Prod.mk.inj (Except.ok.inj hups)
    obtain ⟨horders, hmem⟩ :=
      h.insert (Table.insertOne_eq_ok.1 hinsert) hintent haccount hclient
    exact ⟨horders, new, hmem, hintent, rfl⟩

end Order

/-! ## Passes over one order -/

/-- The answer a pass gets for the order, with the session and the time of the pass. -/
structure Look where
  session : Session
  now : Time
  response : AlpacaApiResponse

section Looks

variable [Hashing]

/-- A pass over the client order id of an intent that is its only target, and that records the
answer: the state after it and what was observed. -/
def processed (db : Db) (intentId : String) (look : Look) : Option (Db × Observation) :=
  (db.intents.get? intentId).bind fun intent ↦
    match listTargets db intent.clientOrderId with
    | [target] =>
      match readObservation target look.response look.now,
          reconcilePostgresPaperOrders db look.session look.now intent.clientOrderId
            fun _ ↦ .inr look.response with
      | .ok obs, (db', [.recorded _ _ _ _]) =>
        if target.intent.id = intentId then some (db', obs) else none
      | _, _ => none
    | _ => none

/-- A sequence of such passes. -/
def processAll (db : Db) (intentId : String) : List Look → Option (Db × List Observation)
  | [] => some (db, [])
  | look :: rest =>
    (processed db intentId look).bind fun (db', obs) ↦
      (processAll db' intentId rest).map fun (db'', seen) ↦ (db'', obs :: seen)

theorem recoverTarget_not_recorded {db db' : Db} {session : Session} {target : Target}
    {error : Thrown} {now : Time} {orderId brokerId status : String} {replay : Bool} :
    recoverTarget db session target error now ≠ (db', .recorded orderId brokerId status replay) := by
  intro h
  rw [recoverTarget] at h
  split at h
  · split at h
    · cases h
    · cases h
  · cases h

/-- A recorded answer was read, stored and settled. -/
theorem reconcileTarget_recorded {db db' : Db} {session : Session} {target : Target}
    {response : AlpacaApiResponse} {now : Time} {orderId brokerId status : String} {replay : Bool}
    (h : reconcileTarget db session target (.inr response) now =
      (db', .recorded orderId brokerId status replay)) :
    ∃ obs db₁ stored, readObservation target response now = .ok obs ∧
      observe db session target obs now = (db₁, .ok stored) ∧
      settle db₁ session target obs now = (db', .ok ()) := by
  rw [reconcileTarget] at h
  split at h
  · exact absurd h recoverTarget_not_recorded
  · next obs hread =>
    split at h
    · exact absurd h recoverTarget_not_recorded
    · next db₁ stored hobserve =>
      split at h
      · exact absurd h recoverTarget_not_recorded
      · next db₂ hsettle =>
        obtain ⟨rfl, -⟩ := Prod.mk.inj h
        exact ⟨obs, db₁, stored, hread, hobserve, hsettle⟩

omit [Hashing] in
/-- The target of a listed intent. -/
theorem targetOf_row {db : Db} {intent : Intent} {target : Target}
    (h : targetOf db intent = some target) :
    target.intent = intent ∧
      target.priorFilledQuantity = (latestOrder db intent.id).map (·.filledQuantity) := by
  simp only [targetOf, Option.bind_eq_bind, Option.bind_eq_some_iff] at h
  obtain ⟨_, _, _, _, hout⟩ := h
  rw [← Option.some_inj.1 hout]
  exact ⟨rfl, rfl⟩

theorem reconcileTargets_singleton {db : Db} {session : Session} {target : Target} {now : Time}
    {lookup : String → Lookup} : reconcileTargets session now lookup db [target] =
      ((reconcileTarget db session target (lookup target.intent.clientOrderId) now).1,
        [(reconcileTarget db session target (lookup target.intent.clientOrderId) now).2]) := rfl

/-- What a processed answer went through. -/
theorem processed_some {db db' : Db} {intentId : String} {look : Look} {obs : Observation}
    (h : processed db intentId look = some (db', obs)) :
    ∃ target db₁ stored, db.intents.get? intentId = some target.intent ∧
      reconcilable db target.intent ∧ target.Known db ∧ Observed target obs ∧
      obs.prior = priorFill db intentId ∧
      observe db look.session target obs look.now = (db₁, .ok stored) ∧
      settle db₁ look.session target obs look.now = (db', .ok ()) := by
  rw [processed, Option.bind_eq_some_iff] at h
  obtain ⟨intent, hget, h⟩ := h
  split at h
  · next target hlist =>
    split at h
    · next obs₀ db₀ _ _ _ _ hread hpass =>
      split at h
      · next hid =>
        obtain ⟨rfl, rfl⟩ := Prod.mk.inj (Option.some_inj.1 h)
        have hmem : target ∈ listTargets db intent.clientOrderId := by
          rw [hlist]
          exact List.mem_singleton_self target
        have hknown := listTargets_known hmem
        rw [listTargets, List.mem_insertionSort, List.mem_filterMap] at hmem
        obtain ⟨i, hi, htarget⟩ := hmem
        rw [List.mem_filter, Bool.and_eq_true] at hi
        obtain ⟨rfl, hprior⟩ := targetOf_row htarget
        have hstored : db.intents.get? intentId = some target.intent := by
          rw [← hid]
          exact Table.get?_of_mem hi.1
        -- The pass has one target, so its result is that of the loop body.
        rw [reconcilePostgresPaperOrders, hlist, reconcileTargets_singleton] at hpass
        obtain ⟨hdb, hresult⟩ := Prod.mk.inj hpass
        have hbody := reconcileTarget_recorded
          (Prod.ext hdb (List.singleton_injective hresult))
        obtain ⟨obs', db₁, stored, hread', hobserve, hsettle⟩ := hbody
        obtain rfl : obs₀ = obs' := Except.ok.inj (hread.symm.trans hread')
        have hobserved := readObservation_ok hread
        refine ⟨target, db₁, stored, hstored, hi.2.1, hknown, hobserved, ?_, hobserve, hsettle⟩
        rw [hobserved.prior, hprior, priorFill, hid]
      · cases h
    · cases h
  · cases h

/-! ## One observation -/

/-- What storing an observation does to a reservation: a partial fill that grew is resized. -/
def ResizedBy (db : Db) (id : String) (obs : Observation) (resized : Option Resize) : Prop :=
  (obs.status ≠ "partially_filled" ∧ resized = none) ∨
    (obs.status = "partially_filled" ∧ ∃ filled ordered,
      partialQuantities obs = .ok (filled, ordered) ∧
        ((filled = obs.prior ∧ resized = none) ∨ ∃ z r, resized = some z ∧
          lockedReservation db id = some r ∧ resize? db r filled ordered obs.prior = some z))

/-- What a stored observation wrote. -/
theorem observe_recorded {db db' : Db} {session : Session} {target : Target} {obs : Observation}
    {now : Time} {id : String} {stored : Bool} (hid : target.intent.reservationId = some id)
    (h : observe db session target obs now = (db', .ok stored)) :
    ∃ order orders orderId db₁ resized submittedAt, observedOrder target obs = .ok order ∧
      upsertOrder db.orders order = .ok (orders, orderId) ∧
      applyResize { db with orders } now resized = .ok db₁ ∧ ResizedBy db id obs resized ∧
      db'.orders = orders ∧ SameLedger db₁ db' ∧
      db'.intents = db.intents.modify target.intent.id (Intent.observe obs submittedAt now)
        (Intent.observe_keeps _ _ _) := by
  -- The statement that was made, with its reservation part.
  have hstore : ∃ resized counts, storeObservation db target obs now resized = .ok (db', counts) ∧
      counts.updatedIntent = true ∧ ResizedBy db id obs resized := by
    rcases observe_cases h with ⟨_, hno⟩ | ⟨counts, hstmt, hcase, hok⟩ |
      ⟨id', filled, ordered, counts, hid', hpartly, hq, hstmt, hok⟩
    · exact absurd rfl (hno stored)
    · rcases observeStatement_ok hstmt with ⟨_, rfl⟩ | ⟨_, _, _, hstore⟩
      · exact absurd (hok stored rfl) (by simp [ObserveCounts.nothing])
      · refine ⟨none, counts, hstore, hok stored rfl, Or.inl ⟨?_, rfl⟩⟩
        exact hcase.resolve_left (by simp [hid])
    · obtain rfl : id = id' := Option.some_inj.1 (hid.symm.trans hid')
      rcases partialStatement_ok hstmt with ⟨_, rfl⟩ | ⟨_, resized, _, _, hstore, hcase⟩
      · exact absurd (hok stored rfl).1 (by simp [ObserveCounts.nothing])
      · refine ⟨resized, counts, hstore, (hok stored rfl).1,
          Or.inr ⟨hpartly, filled, ordered, hq, ?_⟩⟩
        rcases hcase with ⟨hnone, heq⟩ | ⟨z, r, hsome, _, hlock, hresize⟩
        · exact Or.inl ⟨heq, hnone⟩
        · exact Or.inr ⟨z, r, hsome, hlock, hresize⟩
  obtain ⟨resized, counts, hstore, hupdated, hresized⟩ := hstore
  obtain ⟨order, orders, orderId, db₁, transitions, horder, hups, hres, _, hcase⟩ :=
    storeObservation_ok hstore
  have hframe : db₁.orders = orders ∧ db₁.intents = db.intents := by
    rcases resized with - | z
    · rw [applyResize_none hres]
      exact ⟨rfl, rfl⟩
    · obtain ⟨_, rfl⟩ := applyResize_some hres
      exact ⟨rfl, rfl⟩
  rcases hcase with ⟨_, events, _, rfl⟩ | ⟨hno, _⟩
  · refine ⟨order, orders, orderId, db₁, resized, order.submittedAt, horder, hups, hres, hresized,
      hframe.1, ⟨rfl, rfl, rfl⟩, ?_⟩
    rw [hframe.2]
  · rw [hupdated] at hno
    cases hno

end Looks

/-! ## What an intent stands with -/

/-- An intent in flight: its orders account for a fill of `p`, and its reservation, which is live,
holds `amount`. -/
structure Standing (db : Db) (intent : Intent) (r : Reservation) (p amount : ℚ) : Prop where
  stored : ∃ i, db.intents.get? intent.id = some i ∧ i.terms = intent.terms ∧
    i.reservationId = some r.id
  orders : OrdersOf db.orders intent
  fill : priorFill db intent.id = p
  reservation : ∃ r', db.reservations.get? r.id = some r' ∧ r'.status.live ∧ r'.amount = amount ∧
    r'.accountId = r.accountId ∧ r'.strategyKey = r.strategyKey

/-- The reservation has ended and the intent with it: reconciliation does not list it any more. -/
structure Settled (db : Db) (intent : Intent) (r : Reservation) : Prop where
  status : ∃ i, db.intents.get? intent.id = some i ∧ i.status ∉ inFlight ∧
    i.reservationId = some r.id
  ended : liveReservation db r.id = false

/-- `x` moved from the reserved to the deployed counter, of which only `deployed` arrived. -/
structure Transfers (db db' : Db) (r : Reservation) (x deployed : ℚ) : Prop where
  reserved : reservedAmount db'.allocations r.accountId r.strategyKey =
    reservedAmount db.allocations r.accountId r.strategyKey - x
  deployed : deployedAmount db'.allocations r.accountId r.strategyKey =
    deployedAmount db.allocations r.accountId r.strategyKey + deployed

theorem Transfers.of_eq {db db' : Db} {r : Reservation} (h : db'.allocations = db.allocations) :
    Transfers db db' r 0 0 := by
  refine ⟨?_, ?_⟩
  · rw [h, sub_zero]
  · rw [h, add_zero]

theorem Transfers.trans {db db' db'' : Db} {r : Reservation} {x y d e : ℚ} (h : Transfers db db' r x d)
    (h' : Transfers db' db'' r y e) : Transfers db db'' r (x + y) (d + e) := by
  refine ⟨?_, ?_⟩
  · rw [h'.reserved, h.reserved]
    ring
  · rw [h'.deployed, h.deployed]
    ring

theorem Transfers.of_adjust {db db' : Db} {r : Reservation} {g : ℚ → ℚ} {x deployed : ℚ} {now : Time}
    (hserves : ∃ a ∈ db.allocations.rows, a.serves r.accountId r.strategyKey)
    (hg : g (reservedAmount db.allocations r.accountId r.strategyKey) =
      reservedAmount db.allocations r.accountId r.strategyKey - x)
    (h : db'.allocations = adjust db.allocations r.accountId r.strategyKey g deployed now) :
    Transfers db db' r x deployed := by
  obtain ⟨a, ha, hs⟩ := hserves
  refine ⟨?_, ?_⟩
  · rw [h, reservedAmount_adjust ha hs, hg]
  · rw [h, deployedAmount_adjust ha hs]

section Standing

variable {db db' : Db} {intent : Intent} {r : Reservation}

/-- The quantities a partial settlement counts with. -/
theorem partialQuantities_ok {obs : Observation} {filled ordered : ℚ}
    (h : partialQuantities obs = .ok (filled, ordered)) :
    obs.fill = filled ∧ obs.ordered.number = some ordered ∧ 0 ≤ obs.prior ∧ obs.prior ≤ filled ∧
      filled < ordered := by
  rw [partialQuantities] at h
  split at h
  · next f q hf hq =>
    split at h
    · cases h
    · next hvalid =>
      obtain ⟨rfl, rfl⟩ := Prod.mk.inj (Except.ok.inj h)
      simp only [not_or, not_lt, not_le] at hvalid
      exact ⟨by rw [Observation.fill, hf, Option.getD_some], hq, hvalid.2.1, hvalid.2.2.1,
        hvalid.2.2.2⟩
  · cases h

variable [Hashing] {session : Session} {target : Target} {obs : Observation} {now : Time}
  {p amount q : ℚ}

/-- What an observation leaves of the reserved amount. -/
def Observation.leaves (q p : ℚ) (obs : Observation) (amount : ℚ) : ℚ :=
  if obs.reading.settled then kept q p obs.fill amount else amount

/-- **What a stored observation does to the reservation** of the order: it keeps the share that is
still open of a partial fill, and the rest is deployed. -/
theorem observe_resizes {stored : Bool} (hid : target.intent.reservationId = some r.id)
    (hr : db.reservations.get? r.id = some r) (hordered : obs.ordered.number = some q)
    (hobserve : AlpacaTrading.observe db session target obs now = (db', .ok stored)) :
    (∃ r', db'.reservations.get? r.id = some r' ∧ r'.status = r.status ∧
        r'.amount = obs.leaves q obs.prior r.amount ∧ r'.accountId = r.accountId ∧
        r'.strategyKey = r.strategyKey) ∧
      Transfers db db' r (r.amount - obs.leaves q obs.prior r.amount)
        (r.amount - obs.leaves q obs.prior r.amount) := by
  obtain ⟨_, _, _, db₁, resized, _, _, _, hres, hresized, _, hledger, _⟩ :=
    observe_recorded hid hobserve
  have hstays : resized = none → obs.leaves q obs.prior r.amount = r.amount →
      (∃ r', db'.reservations.get? r.id = some r' ∧ r'.status = r.status ∧
        r'.amount = obs.leaves q obs.prior r.amount ∧ r'.accountId = r.accountId ∧
        r'.strategyKey = r.strategyKey) ∧
      Transfers db db' r (r.amount - obs.leaves q obs.prior r.amount)
        (r.amount - obs.leaves q obs.prior r.amount) := by
    rintro rfl hleaves
    have hdb₁ := applyResize_none hres
    have halloc : db'.allocations = db.allocations := by rw [hledger.allocations, hdb₁]
    rw [hleaves, sub_self]
    refine ⟨⟨r, ?_, rfl, rfl, rfl, rfl⟩, .of_eq halloc⟩
    rw [hledger.reservations, hdb₁]
    exact hr
  rcases hresized with ⟨hopen, hnone⟩ | ⟨hpartly, filled, ordered, hq, hcase⟩
  · refine hstays hnone ?_
    simp [Observation.leaves, Observation.reading, hopen]
  · obtain ⟨hf, hordered', _, hpf, hfq⟩ := partialQuantities_ok hq
    obtain rfl : ordered = q := Option.some_inj.1 (hordered'.symm.trans hordered)
    have hleaves : obs.leaves ordered obs.prior r.amount =
        r.amount * ((ordered - filled) / (ordered - obs.prior)) := by
      simp [Observation.leaves, Observation.reading, hpartly, kept, hf]
    rcases hcase with ⟨heq, hnone⟩ | ⟨z, r', hsome, hlock, hresize⟩
    · -- The fill did not grow, and all is kept.
      refine hstays hnone ?_
      rw [hleaves, ← heq, div_self (sub_pos.2 hfq).ne', mul_one]
    · obtain ⟨hget, _⟩ := lockedReservation_some hlock
      obtain rfl : r = r' := Option.some_inj.1 (hr.symm.trans hget)
      obtain ⟨rfl, hremaining, hsettled, _, _, a, ha, hserves, _⟩ := resize?_some hresize
      rw [hsome] at hres
      obtain ⟨hpos, rfl⟩ := applyResize_some hres
      rw [← hleaves] at hremaining
      rw [hremaining] at hsettled
      have halloc : db'.allocations = adjust db.allocations z.reservation.accountId
          z.reservation.strategyKey (· - z.settled) z.settled now := hledger.allocations
      rw [hsettled] at halloc
      refine ⟨⟨z.reservation.resize z.remaining hpos now, ?_, rfl, hremaining, rfl, rfl⟩,
        .of_adjust ⟨a, ha, hserves⟩ rfl halloc⟩
      rw [hledger.reservations, Table.get?_modify, if_pos rfl, hr, Option.map_some]

/-- **A stored observation** accounts for the fill it reports, and transfers what it does not
keep. -/
theorem Standing.observe {stored : Bool} (h : Standing db intent r p amount)
    (htarget : db.intents.get? intent.id = some target.intent) (hprior : obs.prior = p)
    (hordered : obs.ordered.number = some q)
    (hobserve : AlpacaTrading.observe db session target obs now = (db', .ok stored)) :
    Standing db' intent r obs.fill (obs.leaves q p amount) ∧
      Transfers db db' r (amount - obs.leaves q p amount) (amount - obs.leaves q p amount) := by
  obtain ⟨i, hget, hterms, hid⟩ := h.stored
  obtain rfl : target.intent = i := Option.some_inj.1 (htarget.symm.trans hget)
  have hsame : target.intent.id = intent.id := congrArg IntentTerms.id hterms
  obtain ⟨order, orders, orderId, _, _, submittedAt, horder, hups, _, _, horders, _, hintents⟩ :=
    observe_recorded hid hobserve
  obtain ⟨hintent, haccount, hclient, hfilled⟩ := observedOrder_row horder
  obtain ⟨hkeyed, o, ho, hoi, hof⟩ := h.orders.upsert hups (hintent.trans hsame)
    (haccount.trans (congrArg IntentTerms.accountId hterms))
    (hclient.trans (congrArg IntentTerms.clientOrderId hterms))
  have hstored : ∃ i, db'.intents.get? intent.id = some i ∧ i.terms = intent.terms ∧
      i.reservationId = some r.id := by
    refine ⟨Intent.observe obs submittedAt now target.intent, ?_, hterms, hid⟩
    rw [hintents, Table.get?_modify, if_pos hsame.symm, hget, Option.map_some]
  have hfill : priorFill db' intent.id = obs.fill := by
    rw [← hfilled, ← hof]
    refine @OrdersOf.priorFill_eq db' intent o ?_ ?_ hoi
    · rwa [horders]
    · rwa [horders]
  -- The reservation, under the name the intent knows it by.
  obtain ⟨r', hr', hlive, rfl, haccount', hstrategy'⟩ := h.reservation
  have hkey : r'.id = r.id := Table.key_of_get? hr'
  rw [← hkey] at hr' hid
  obtain ⟨⟨r'', hr'', hstatus'', hamount'', haccount'', hstrategy''⟩, htransfers⟩ :=
    observe_resizes hid hr' hordered hobserve
  rw [hprior] at hamount'' htransfers
  rw [hkey] at hr''
  refine ⟨⟨hstored, by rwa [horders], hfill, r'', hr'', by rwa [hstatus''], hamount'',
    haccount''.trans haccount', hstrategy''.trans hstrategy'⟩, ?_⟩
  have hreserved := htransfers.reserved
  have hdeployed := htransfers.deployed
  rw [haccount', hstrategy'] at hreserved hdeployed
  exact ⟨hreserved, hdeployed⟩

/-- Settling an open order does nothing. -/
theorem settle_open {result : Except String Unit} (hopen : obs.status ∉ terminalStatuses)
    (h : settle db session target obs now = (db', result)) : db' = db := by
  rcases settle_cases h with ⟨_, _, _, hterm, _⟩ | ⟨hsame, _⟩
  · exact absurd hterm hopen
  · exact hsame

omit [Hashing] in
theorem settlementOf_filled (status : String) :
    (settlementOf status).1 = .filled ↔ status = "filled" := by
  rw [settlementOf]
  constructor
  · intro h
    by_contra hne
    rw [if_neg hne] at h
    split_ifs at h
  · intro h
    rw [if_pos h]

/-- **The settlement of a terminal observation** gives back all that is reserved, and deploys it
if the order was filled. -/
theorem Standing.settle (h : Standing db intent r p amount) (hsound : Sound db)
    (hconserved : Conserved db) (htarget : target.intent.id = intent.id)
    (hid : target.intent.reservationId = some r.id) (hterm : obs.status ∈ terminalStatuses)
    (hsettle : AlpacaTrading.settle db session target obs now = (db', .ok ())) :
    Settled db' intent r ∧
      Transfers db db' r amount (if obs.status = "filled" then amount else 0) := by
  obtain ⟨i, hget, _, hires⟩ := h.stored
  obtain ⟨r', hr', hlive, hamount, howner⟩ := h.reservation
  rcases settle_cases hsettle with ⟨id, kind, hid', _, hstmt⟩ | ⟨_, hended⟩
  · obtain rfl : r.id = id := Option.some_inj.1 (hid.symm.trans hid')
    obtain ⟨i', r'', transitions, hget', hstatus, hr'', _, hkind, _, rfl⟩ :=
      settleStatement_settled hstmt
    obtain rfl : r' = r'' := Option.some_inj.1 (hr'.symm.trans hr'')
    rw [htarget] at hget'
    refine ⟨⟨⟨i', hget', by simp [hstatus, inFlight], ?_⟩, ?_⟩, ?_⟩
    · rw [← Option.some_inj.1 (hget.symm.trans hget'), hires]
    · rw [liveReservation, Table.get?_modify, if_pos rfl, hr', Option.map_some]
      rfl
    · -- The counter covers the reservation, so the settlement is a fresh one.
      obtain ⟨a, ha, hserves, hcase⟩ := settlementKind_some hkind
      have hcovers := hconserved.covers (Table.mem_of_get? hr') hlive ⟨a, ha, hserves⟩
      have hmax : max 0 (reservedAmount db.allocations r'.accountId r'.strategyKey - r'.amount) =
          reservedAmount db.allocations r'.accountId r'.strategyKey - r'.amount :=
        max_eq_right (sub_nonneg.2 hcovers)
      rw [reservedAmount_eq ha hserves] at hcovers
      rcases hcase with ⟨rfl, _⟩ | ⟨_, hshort⟩
      · rw [howner.1, howner.2] at hserves hmax
        rw [← hamount]
        have halloc : settledAllocations db r' (settlementOf obs.status).1 now .fresh =
            adjust db.allocations r.accountId r.strategyKey (fun x ↦ max 0 (x - r'.amount))
              (if obs.status = "filled" then r'.amount else 0) now := by
          rw [settledAllocations, howner.1, howner.2]
          simp only [settlementOf_filled]
        exact .of_adjust ⟨a, ha, hserves⟩ hmax halloc
      · exact absurd hshort hcovers.not_gt
  · -- A transition would say that the reservation had ended before.
    have htransition := hended rfl r.id hid hterm
    obtain ⟨t, ht⟩ := Option.isSome_iff_exists.1 htransition
    have hdead := hsound.ended_live t (Table.mem_of_get? ht)
    have hkey : t.reservationId = r.id := Table.key_of_get? ht
    rw [hkey, liveReservation_of_get? hr', hlive] at hdead
    cases hdead

omit [Hashing] in
theorem Settled.not_reconcilable {i : Intent} (h : Settled db intent r)
    (hget : db.intents.get? intent.id = some i) : reconcilable db i = false := by
  obtain ⟨i', hget', hstatus, hid⟩ := h.status
  obtain rfl : i = i' := Option.some_inj.1 (hget.symm.trans hget')
  have hended := h.ended
  rw [liveReservation] at hended
  have hflight : i.status ∉ [.submissionPending, .submitted, .ambiguous] := by
    simp only [inFlight, List.mem_cons, List.not_mem_nil, or_false, not_or] at hstatus ⊢
    exact ⟨hstatus.1, hstatus.2.2, hstatus.2.1⟩
  rw [reconcilable, unsettledReservation, hid, Option.any_some, hended]
  simp [hflight]

/-- A settled order is looked up no more. -/
theorem Settled.processAll {looks : List Look} {seen : List Observation}
    (h : Settled db intent r) (hrun : processAll db intent.id looks = some (db', seen)) :
    seen = [] ∧ db' = db := by
  rcases looks with - | ⟨look, rest⟩
  · obtain ⟨rfl, rfl⟩ := Prod.mk.inj (Option.some_inj.1 hrun)
    exact ⟨rfl, rfl⟩
  · rw [AlpacaTrading.processAll, Option.bind_eq_some_iff] at hrun
    obtain ⟨⟨db₁, obs⟩, hfirst, _⟩ := hrun
    obtain ⟨target, _, _, hget, hrec, _⟩ := processed_some hfirst
    rw [h.not_reconcilable hget] at hrec
    cases hrec

/-! ## Sequences of observations -/

/-- **One processed answer**: an open one leaves the order standing, a terminal one settles it. -/
theorem Standing.processed {look : Look} (h : Standing db intent r p amount) (hsound : Sound db)
    (hconserved : Conserved db) (hordered : obs.ordered.number = some q)
    (hrun : AlpacaTrading.processed db intent.id look = some (db', obs)) :
    Sound db' ∧ Conserved db' ∧
      ((obs.status ∉ terminalStatuses ∧ Standing db' intent r obs.fill (obs.leaves q p amount) ∧
          Transfers db db' r (amount - obs.leaves q p amount) (amount - obs.leaves q p amount)) ∨
        (obs.status ∈ terminalStatuses ∧ Settled db' intent r ∧
          Transfers db db' r amount (if obs.status = "filled" then amount else 0))) := by
  obtain ⟨target, db₁, stored, hget, _, hknown, hobserved, hprior, hobserve, hsettle⟩ :=
    processed_some hrun
  rw [h.fill] at hprior
  have hfirst := observe_effect hknown hobserved hobserve
  have hsecond := settle_effect (Known.later hknown hfirst.later) hsettle
  have hsound₁ := hsound.effect hfirst
  have hconserved₁ := hconserved.effect hfirst
  obtain ⟨hstanding, htransfers⟩ := h.observe hget hprior hordered hobserve
  refine ⟨hsound₁.effect hsecond, hconserved₁.effect hsecond, ?_⟩
  by_cases hterm : obs.status ∈ terminalStatuses
  · obtain ⟨i, hi, hterms, hid⟩ := h.stored
    obtain rfl : target.intent = i := Option.some_inj.1 (hget.symm.trans hi)
    obtain ⟨hsettled, hreleased⟩ := hstanding.settle hsound₁ hconserved₁
      (congrArg IntentTerms.id hterms) hid hterm hsettle
    -- A terminal answer is not a partial one, so nothing was shifted before.
    have hleaves : obs.leaves q p amount = amount := by
      have hne : obs.status ≠ "partially_filled" := by
        intro heq
        rw [heq] at hterm
        simp [terminalStatuses] at hterm
      simp [Observation.leaves, Observation.reading, hne]
    rw [hleaves, sub_self] at htransfers
    rw [hleaves] at hreleased
    have hboth := htransfers.trans hreleased
    rw [zero_add, zero_add] at hboth
    exact Or.inr ⟨hterm, hsettled, hboth⟩
  · obtain rfl := settle_open hterm hsettle
    exact Or.inl ⟨hterm, hstanding, htransfers⟩

/-- **A run of open answers** keeps of the amount what the readings keep, and deploys the rest. -/
theorem Standing.processAll {looks : List Look} {seen : List Observation}
    (h : Standing db intent r p amount) (hsound : Sound db) (hconserved : Conserved db)
    (hordered : ∀ obs ∈ seen, obs.ordered.number = some q)
    (hrun : AlpacaTrading.processAll db intent.id looks = some (db', seen)) :
    let readings := seen.map Observation.reading
    (∀ obs ∈ seen, obs.status ∉ terminalStatuses) →
      Sound db' ∧ Conserved db' ∧
      Standing db' intent r (lastDone p readings) (keptAfter q p amount readings) ∧
      Transfers db db' r (amount - keptAfter q p amount readings)
        (amount - keptAfter q p amount readings) := by
  intro readings hopen
  induction looks generalizing db p amount seen with
  | nil =>
    obtain ⟨rfl, rfl⟩ := Prod.mk.inj (Option.some_inj.1 hrun)
    refine ⟨hsound, hconserved, h, ?_⟩
    have hkept : keptAfter q p amount readings = amount := keptAfter_nil q p amount
    rw [hkept, sub_self]
    exact .of_eq rfl
  | cons look rest ih =>
    rw [AlpacaTrading.processAll, Option.bind_eq_some_iff] at hrun
    obtain ⟨⟨db₁, obs⟩, hfirst, hrest⟩ := hrun
    obtain ⟨⟨db₂, tail⟩, htail, hout⟩ := Option.map_eq_some_iff.1 hrest
    obtain ⟨rfl, rfl⟩ := Prod.mk.inj hout
    rw [List.forall_mem_cons] at hordered hopen
    obtain ⟨hsound₁, hconserved₁, hcase⟩ := h.processed hsound hconserved hordered.1 hfirst
    rcases hcase with ⟨_, hstanding, htransfers⟩ | ⟨hterm, _⟩
    · obtain ⟨hs, hc, hst, hsh⟩ := ih hstanding hsound₁ hconserved₁ hordered.2 htail hopen.2
      refine ⟨hs, hc, hst, ?_⟩
      have hboth := htransfers.trans hsh
      rwa [sub_add_sub_cancel] at hboth
    · exact absurd hterm hopen.1

/-- **A run that ends with a terminal answer**: all answers before it were open, the reservation
ends, and what is deployed is what was settled on the way, or everything if the order was
filled. -/
theorem Standing.processAll_terminal {looks : List Look} {seen : List Observation}
    (h : Standing db intent r p amount) (hsound : Sound db) (hconserved : Conserved db)
    (hordered : ∀ o ∈ seen ++ [obs], o.ordered.number = some q)
    (hterm : obs.status ∈ terminalStatuses)
    (hrun : AlpacaTrading.processAll db intent.id looks = some (db', seen ++ [obs])) :
    let kept := keptAfter q p amount (seen.map Observation.reading)
    Settled db' intent r ∧
      Transfers db db' r amount (if obs.status = "filled" then amount else amount - kept) := by
  intro kept
  induction looks generalizing db p amount seen with
  | nil =>
    have hnil := (Prod.mk.inj (Option.some_inj.1 hrun)).2
    exact absurd hnil.symm (List.append_ne_nil_of_right_ne_nil seen (List.cons_ne_nil obs []))
  | cons look rest ih =>
    rw [AlpacaTrading.processAll, Option.bind_eq_some_iff] at hrun
    obtain ⟨⟨db₁, first⟩, hfirst, hrest⟩ := hrun
    obtain ⟨⟨db₂, tail⟩, htail, hout⟩ := Option.map_eq_some_iff.1 hrest
    obtain ⟨rfl, hseen⟩ := Prod.mk.inj hout
    have hfirst_ordered : first.ordered.number = some q :=
      hordered first (by rw [← hseen]; exact List.mem_cons_self)
    obtain ⟨hsound₁, hconserved₁, hcase⟩ := h.processed hsound hconserved hfirst_ordered hfirst
    rcases hcase with ⟨hopen, hstanding, htransfers⟩ | ⟨hfirst_term, hsettled, htransfers⟩
    · -- An open answer is not the last one.
      rcases seen with - | ⟨first', seen'⟩
      · obtain ⟨rfl, -⟩ := List.cons_eq_cons.1 hseen
        exact absurd hterm hopen
      · obtain ⟨rfl, rfl⟩ := List.cons_eq_cons.1 hseen
        obtain ⟨hst, hsh⟩ := ih hstanding hsound₁ hconserved₁
          (fun o ho ↦ hordered o (List.mem_cons_of_mem _ ho)) htail
        refine ⟨hst, ?_⟩
        have hboth := htransfers.trans hsh
        rw [sub_add_cancel] at hboth
        convert hboth using 1
        split
        · exact (sub_add_cancel _ _).symm
        · exact (sub_add_sub_cancel _ _ _).symm
    · -- After a terminal answer there is none.
      obtain ⟨rfl, rfl⟩ := hsettled.processAll htail
      rcases seen with - | ⟨first', seen'⟩
      · obtain ⟨rfl, -⟩ := List.cons_eq_cons.1 hseen
        refine ⟨hsettled, ?_⟩
        convert htransfers using 2
        exact sub_self amount
      · have hlength := congrArg List.length hseen
        simp at hlength

end Standing

end AlpacaTrading
