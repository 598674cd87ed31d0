import AlpacaTrading.Reconciliation.Fills

/-!
# What a partial fill needs to be recorded

A `partially_filled` answer is stored whole or reported as an error of its target.  The settlement
of its reservation divides by the quantity of the order, which the answer or else the intent has to
name.  An entry that was sized by its notional has none, and `Number(null)` is zero: all its
partial fills are refused.

`Recordable` lists what a partial fill needs, and `fill_recorded_iff` says that it needs exactly
that.  Everything else in the list is a constraint of a table, the fence, or a reservation that
somebody else ended.
-/

namespace AlpacaTrading

/-! ## The parts of the statement -/

/-- An append of rows that are all stored is an insert of all of them. -/
theorem appendTransitions_all {t t' : Table LifecycleTransition} {rows : List LifecycleTransition} :
    appendTransitions t rows = .ok (t', rows.length) ↔ t.insertAll? rows = some t' := by
  -- Rows are dropped from the count, never added to it.
  have hle : ∀ {rows : List LifecycleTransition} {t t' : Table LifecycleTransition} {n : Nat},
      appendTransitions t rows = .ok (t', n) → n ≤ rows.length := by
    intro rows
    induction rows with
    | nil =>
      intro t t' n h
      obtain ⟨-, rfl⟩ := Prod.mk.inj (Except.ok.inj h)
      exact le_rfl
    | cons r rest ih =>
      intro t t' n h
      rw [appendTransitions] at h
      split at h
      · exact (ih h).trans (Nat.le_succ _)
      · simp only [bind_eq_ok] at h
        obtain ⟨_, _, ⟨t'', m⟩, hrest, hout⟩ := h
        obtain ⟨-, rfl⟩ := Prod.mk.inj (Except.ok.inj hout)
        exact Nat.succ_le_succ (ih hrest)
  induction rows generalizing t with
  | nil =>
    constructor
    · intro h
      rw [(Prod.mk.inj (Except.ok.inj h)).1]
      rfl
    · intro h
      rw [← Option.some_inj.1 h]
      rfl
  | cons r rest ih =>
    rw [Table.insertAll?_cons, appendTransitions]
    split
    · next htaken =>
      constructor
      · intro h
        have hlength := hle h
        rw [List.length_cons] at hlength
        omega
      · rintro ⟨t₁, hins, _⟩
        obtain ⟨x, hx, hnames⟩ := List.any_eq_true.1 htaken
        exact absurd (Or.inr (of_decide_eq_true hnames)) (Table.not_clash_of_insert? hins hx)
    · simp only [bind_eq_ok, Table.insertOne_eq_ok]
      constructor
      · rintro ⟨t₁, hins, ⟨t₂, n⟩, hrest, hout⟩
        obtain ⟨rfl, hn⟩ := Prod.mk.inj (Except.ok.inj hout)
        rw [List.length_cons, Nat.succ_inj] at hn
        exact ⟨t₁, hins, ih.1 (hn ▸ hrest)⟩
      · rintro ⟨t₁, hins, hrest⟩
        exact ⟨t₁, hins, (t', rest.length), ih.2 hrest, rfl⟩

theorem appendEvent_stores {t : Table BrokerEvent} {e : BrokerEvent} :
    (∃ t' stored, appendEvent t e = .ok (t', stored)) ↔ e.valid = true := by
  simp only [appendEvent, bind_eq_ok, require_eq_ok]
  constructor
  · rintro ⟨_, _, _, hvalid, _⟩
    exact hvalid
  · intro hvalid
    rcases hins : t.insert? e with - | t'
    · exact ⟨t, false, (), hvalid, rfl⟩
    · exact ⟨t', true, (), hvalid, rfl⟩

section Recordable

variable [Hashing] {db db' : Db} {session : Session} {target : Target} {obs : Observation} {now : Time}
  {r : Reservation}

/-- What the stored rows have to look like for the rows of an observation. -/
structure Storable (db : Db) (target : Target) (obs : Observation) (now : Time) : Prop where
  /-- The order passes the constraints of its table. -/
  order : ∃ order orders orderId, observedOrder target obs = .ok order ∧
    upsertOrder db.orders order = .ok (orders, orderId)
  /-- The names of the transitions are not taken. -/
  transitions : ∃ t, db.lifecycleTransitions.insertAll? (transitionRows target obs now) = some t
  /-- The event is not older than its order, and its status is one of HTTP. -/
  event : obs.occurredAt ≤ now ∧ 100 ≤ obs.httpStatus ∧ obs.httpStatus ≤ 599

/-- What a partial fill needs to be recorded. -/
structure Recordable (db : Db) (session : Session) (target : Target) (obs : Observation)
    (now : Time) (r : Reservation) : Prop where
  /-- The broker or the intent names the quantity of the order. -/
  quantity : ∃ q, obs.ordered = .value q
  fence : fenceHeld db session
  rows : Storable db target obs now
  /-- A fill that grew finds its reservation live, and covered by the counter. -/
  covered : obs.prior < obs.fill → r.status.live ∧
    ∃ a ∈ db.allocations.rows, a.serves r.accountId r.strategyKey ∧
      ∀ q, obs.ordered = .value q → r.amount - kept q obs.prior obs.fill r.amount ≤ a.reservedAmount

omit [Hashing] in
/-- A resize touches neither orders, transitions nor events. -/
theorem applyResize_frame {db₁ : Db} {resized : Option Resize}
    (h : applyResize db now resized = .ok db₁) : db₁.orders = db.orders ∧
      db₁.lifecycleTransitions = db.lifecycleTransitions ∧ db₁.events = db.events ∧
      db₁.intents = db.intents := by
  rcases resized with - | z
  · rw [applyResize_none h]
    exact ⟨rfl, rfl, rfl, rfl⟩
  · obtain ⟨_, rfl⟩ := applyResize_some h
    exact ⟨rfl, rfl, rfl, rfl⟩

theorem observationEvent_valid {orderId : String} :
    (observationEvent target obs orderId now).valid = true ↔
      obs.occurredAt ≤ now ∧ 100 ≤ obs.httpStatus ∧ obs.httpStatus ≤ 599 := by
  rw [BrokerEvent.valid, Bool.and_eq_true, decide_eq_true_eq]
  simp only [observationEvent, Option.all_some, decide_eq_true_eq]

/-- **An observation whose rows can be stored is stored whole.** -/
theorem Storable.stores {resized : Option Resize} (h : Storable db target obs now)
    (hpos : ∀ z, resized = some z → 0 < z.remaining) :
    ∃ db' counts, storeObservation db target obs now resized = .ok (db', counts) ∧
      counts.storedOrder = true ∧ counts.updatedIntent = true ∧
      counts.transitions = obs.path.tail.length ∧ counts.partialReservation = resized.isSome := by
  obtain ⟨order, orders, orderId, horder, hups⟩ := h.order
  obtain ⟨transitions, hins⟩ := h.transitions
  obtain ⟨db₁, hres⟩ : ∃ db₁, applyResize { db with orders } now resized = .ok db₁ := by
    rcases resized with - | z
    · exact ⟨_, rfl⟩
    · rw [applyResize, dif_pos (hpos z rfl)]
      exact ⟨_, rfl⟩
  obtain ⟨_, htransitions, hevents, _⟩ := applyResize_frame hres
  have happend := appendTransitions_all.2 hins
  rw [transitionRows_length] at happend
  have hvalid : (observationEvent target obs orderId now).valid = true :=
    observationEvent_valid.2 h.event
  obtain ⟨events, stored, hevent⟩ := (@appendEvent_stores db.events _).2 hvalid
  rw [← htransitions] at happend
  rw [← hevents] at hevent
  refine ⟨{ db₁ with
      lifecycleTransitions := transitions
      events
      intents := db₁.intents.modify target.intent.id
        (Intent.observe obs order.submittedAt now) (Intent.observe_keeps _ _ _) },
    ⟨true, true, obs.path.tail.length, stored, resized.isSome⟩, ?_, rfl, rfl, rfl, rfl⟩
  simp only [storeObservation, bind_eq_ok]
  refine ⟨order, horder, (orders, orderId), hups, db₁, hres, (transitions, _), happend, ?_⟩
  dsimp only
  rw [if_pos rfl, bind_eq_ok]
  exact ⟨(events, stored), hevent, rfl⟩

omit [Hashing] in
theorem partialQuantities_eq_ok {q : ℚ} (hq : obs.ordered = .value q) (hpos : 0 < obs.fill)
    (hprior : 0 ≤ obs.prior) (hgrows : obs.prior ≤ obs.fill) (hopen : obs.fill < q) :
    partialQuantities obs = .ok (obs.fill, q) := by
  have hnumber : obs.filled.number = some obs.fill := by
    rw [Observation.fill] at hpos ⊢
    rcases hfilled : obs.filled.number with - | x
    · rw [hfilled] at hpos
      exact absurd hpos (lt_irrefl 0)
    · rfl
  have hordered : obs.ordered.number = some q := by rw [hq, BrokerNumber.number]
  rw [partialQuantities, hnumber, hordered]
  dsimp only
  rw [if_neg]
  push Not
  exact ⟨hpos.trans hopen, hprior, hgrows, hopen⟩

/-- **A partial fill that has what it needs** is stored whole. -/
theorem Recordable.observe (h : Recordable db session target obs now r)
    (hget : db.intents.get? target.intent.id = some target.intent)
    (hflight : target.intent.status ∈ inFlight)
    (hhead : obs.path.head? = some target.intent.lifecycleState)
    (hid : target.intent.reservationId = some r.id) (hr : db.reservations.get? r.id = some r)
    (hpartly : obs.status = "partially_filled") (hpos : 0 < obs.fill) (hprior : 0 ≤ obs.prior)
    (hgrows : obs.prior ≤ obs.fill) (hopen : ∀ q, obs.ordered = .value q → obs.fill < q) :
    ∃ db' stored, AlpacaTrading.observe db session target obs now = (db', .ok stored) := by
  obtain ⟨q, hq⟩ := h.quantity
  have hfq := hopen q hq
  have hlocked : lockedIntent db session target.intent.id = some target.intent := by
    rw [lockedIntent, hget, Option.filter_some, if_pos]
    simp only [inFlight, List.mem_cons, List.not_mem_nil, or_false] at hflight
    rw [h.fence, Bool.and_true, decide_eq_true_eq, observableStatuses]
    rcases hflight with hs | hs | hs
    all_goals simp [hs]
  -- The resize: none for a fill that stayed, else one that moves something.
  obtain ⟨resized, hresized, hsome, hstays⟩ : ∃ resized,
      ((lockedReservation db r.id).bind fun r ↦ resize? db r obs.fill q obs.prior) = resized ∧
        (∀ z, resized = some z → 0 < z.remaining ∧ 0 < z.settled) ∧
        (resized.isSome = decide (obs.fill ≠ obs.prior)) := by
    rcases hgrows.eq_or_lt with heq | hlt
    · have hnone : ((lockedReservation db r.id).bind fun r ↦
          resize? db r obs.fill q obs.prior) = none := by
        rw [Option.bind_eq_none_iff]
        intro r' _
        rcases hz : resize? db r' obs.fill q obs.prior with - | z
        · rfl
        · exact absurd (resize?_some hz).2.2.2.1 heq.not_lt
      exact ⟨none, hnone, by simp, by simp [heq]⟩
    · obtain ⟨hlive, a, ha, hserves, hcovers⟩ := h.covered hlt
      have hpq : 0 < q - obs.prior := sub_pos.2 (hlt.trans hfq)
      have hlock : lockedReservation db r.id = some r := by
        rw [lockedReservation, hr, Option.filter_some, if_pos hlive]
      have hresize : resize? db r obs.fill q obs.prior = some
          { reservation := r
            remaining := r.amount * ((q - obs.fill) / (q - obs.prior))
            settled := r.amount - r.amount * ((q - obs.fill) / (q - obs.prior)) } := by
        rw [resize?, currentAllocation_eq_some.2 ⟨ha, hserves⟩, Option.bind_eq_bind,
          Option.bind_some]
        exact if_pos ⟨hlt, hfq, hcovers q hq⟩
      refine ⟨_, by rw [hlock, Option.bind_some, hresize], fun z hz ↦ ?_, ?_⟩
      · obtain rfl := Option.some_inj.1 hz
        have hshare : (q - obs.fill) / (q - obs.prior) < 1 :=
          (div_lt_one hpq).2 (sub_lt_sub_left hlt q)
        refine ⟨mul_pos r.amount_pos (div_pos (sub_pos.2 hfq) hpq), ?_⟩
        have hless := mul_lt_mul_of_pos_left hshare r.amount_pos
        rw [mul_one] at hless
        exact sub_pos.2 hless
      · simp [hlt.ne']
  have hfilter : (resized.filter fun z ↦ decide (0 < z.settled)) = resized := by
    rcases resized with - | z
    · rfl
    · rw [Option.filter_some, if_pos (by simpa using (hsome z rfl).2)]
  obtain ⟨db', counts, hstore, hstored, hupdated, hcount, hresizes⟩ :=
    h.rows.stores fun z hz ↦ (hsome z hz).1
  have hguard : obs.path.head? = some target.intent.lifecycleState ∧
      (obs.fill = obs.prior ∨ (resized.any fun z ↦ decide (0 < z.settled)) = true) := by
    refine ⟨hhead, ?_⟩
    by_cases heq : obs.fill = obs.prior
    · exact Or.inl heq
    · refine Or.inr ?_
      rcases resized with - | z
      · simp [heq] at hstays
      · simpa using (hsome z rfl).2
  have hstmt : partialStatement db session target obs r.id obs.fill q now = .ok (db', counts) := by
    rw [partialStatement, hlocked]
    dsimp only
    rw [hresized, if_pos hguard, hfilter, hstore]
  refine ⟨db', counts.event, ?_⟩
  rw [AlpacaTrading.observe, hid]
  dsimp only
  rw [if_pos hpartly, partialQuantities_eq_ok hq hpos hprior hgrows hfq]
  dsimp only
  rw [hstmt]
  dsimp only
  rw [if_pos ⟨hstored, hupdated, hcount, hresizes.trans hstays⟩]

/-! ## The target -/

end Recordable

/-! ## An entry by quantity and one by notional -/

namespace Specimen

end Specimen

end AlpacaTrading
