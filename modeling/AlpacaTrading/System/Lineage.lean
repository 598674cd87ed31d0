import AlpacaTrading.System.Footprint

/-!
# The lineage of positions

A position that is closed and opened again keeps its row.  The row names the order that opened the
current holding period and the order that closed the last one.  The upsert takes the opening order
over only from fills after the close, but it learns of the close from `closed_at`, which it clears
in the same statement, and it never clears `closing_order_id`.  So an order of an earlier period
can stay or come back.

`Tracked` adds to the system what the row forgets: when the previous period was closed.
`lineage_of_current_period` says which steps keep the lineage within its period.
-/

namespace AlpacaTrading

/-! ## Holding periods -/

/-- The system, with the time at which the period before the current one was closed. -/
structure Tracked where
  sys : Sys
  previousClose : String → Option Time := fun _ ↦ none

/-- A row that was closed and is held again begins a new period. -/
def reopened (db db' : Db) (previous : String → Option Time) (id : String) : Option Time :=
  match db.positions.get? id, db'.positions.get? id with
  | some p, some p' => if p.status = .closed ∧ p'.status ≠ .closed then p.closedAt else previous id
  | _, _ => previous id

/-- The order was placed for an entry. -/
def EntryOrder (db : Db) (o : Order) : Prop :=
  ∃ i ∈ db.intents.rows, i.id = o.orderIntentId ∧ i.kind db = some .entry

/-- The order was placed to close the position. -/
def ExitOrder (db : Db) (positionId : String) (o : Order) : Prop :=
  ∃ i ∈ db.intents.rows, i.id = o.orderIntentId ∧ i.parentPositionId = some positionId

/-- The orders a position names belong to its current period, which began after `previous`. -/
structure Position.Lineage (db : Db) (previous : Option Time) (p : Position) : Prop where
  /-- The opening order is an entry filled after the previous close. -/
  opening : ∀ id, p.openingOrderId = some id → ∃ o, db.orders.get? id = some o ∧
    EntryOrder db o ∧ ∀ t, previous = some t → t < o.filledTime
  /-- The closing order of a closed position is an exit filled since it was opened. -/
  closing : p.status = .closed → ∀ id, p.closingOrderId = some id → ∃ o,
    db.orders.get? id = some o ∧ ExitOrder db p.id o ∧ p.openedAt ≤ o.filledTime
  /-- A position that is held has no closing order. -/
  held : p.status ≠ .closed → p.closingOrderId = none

/-- Every position has the lineage of its period. -/
structure Tracked.Lineage (t : Tracked) : Prop where
  rows : ∀ p ∈ t.sys.db.positions.rows, p.Lineage t.sys.db (t.previousClose p.id)
  /-- Only stored positions had a previous period. -/
  fresh : ∀ id, t.sys.db.positions.get? id = none → t.previousClose id = none

/-! ## What the tables keep -/

section Keep

variable {db db' : Db} {previous : String → Option Time}

theorem reopened_eq_of_positions (h : db'.positions = db.positions) :
    reopened db db' previous = previous := by
  funext id
  unfold reopened
  rw [h]
  rcases db.positions.get? id with - | p
  · rfl
  · simp

theorem EntryOrder.later {o o' : Order} (h : EntryOrder db o) (hl : Later db db')
    (ho : o'.orderIntentId = o.orderIntentId) : EntryOrder db' o' := by
  obtain ⟨i, hi, hid, hkind⟩ := h
  obtain ⟨i', hi', hterms, _⟩ := hl.intents i hi
  have hid' : i'.id = i.id := congrArg IntentTerms.id hterms
  exact ⟨i', hi', by rw [hid', hid, ho], hl.kind hterms hkind⟩

theorem ExitOrder.later {o o' : Order} {id : String} (h : ExitOrder db id o) (hl : Later db db')
    (ho : o'.orderIntentId = o.orderIntentId) : ExitOrder db' id o' := by
  obtain ⟨i, hi, hid, hparent⟩ := h
  obtain ⟨i', hi', hterms, _⟩ := hl.intents i hi
  have hid' : i'.id = i.id := congrArg IntentTerms.id hterms
  have hparent' : i'.parentPositionId = i.parentPositionId :=
    congrArg IntentTerms.parentPositionId hterms
  exact ⟨i', hi', by rw [hid', hid, ho], hparent'.trans hparent⟩

theorem OrdersGrow.get? {t t' : Table Order} {id : String} {o : Order} (h : OrdersGrow t t')
    (ho : t.get? id = some o) : ∃ o', t'.get? id = some o' ∧
      o'.orderIntentId = o.orderIntentId ∧ o.filledTime ≤ o'.filledTime := by
  obtain ⟨o', ho', hid, hintent, htime⟩ := h o (Table.mem_of_get? ho)
  have hkey : o.id = id := Table.key_of_get? ho
  exact ⟨o', Table.get?_eq_some.2 ⟨ho', hid.trans hkey⟩, hintent, htime⟩

/-- A lineage survives whatever leaves the orders and intents it refers to. -/
theorem Position.Lineage.later {p : Position} {t : Option Time} (h : p.Lineage db t)
    (hl : Later db db') (ho : OrdersGrow db.orders db'.orders) : p.Lineage db' t := by
  refine ⟨fun id hid ↦ ?_, fun hclosed id hid ↦ ?_, h.held⟩
  · obtain ⟨o, hget, hentry, htime⟩ := h.opening id hid
    obtain ⟨o', hget', hintent, hle⟩ := ho.get? hget
    exact ⟨o', hget', hentry.later hl hintent, fun t ht ↦ (htime t ht).trans_le hle⟩
  · obtain ⟨o, hget, hexit, htime⟩ := h.closing hclosed id hid
    obtain ⟨o', hget', hintent, hle⟩ := ho.get? hget
    exact ⟨o', hget', hexit.later hl hintent, htime.trans hle⟩

end Keep

/-! ## Closing and opening -/

section Sync

variable {db : Db} {snapshot : AuthorityBrokerSnapshot} {session : Session}

theorem Order.filledAfter_iff {a b : Order} :
    a.filledAfter b = true ↔
      b.filledTime < a.filledTime ∨ (a.filledTime = b.filledTime ∧ b.id < a.id) := by
  unfold Order.filledAfter
  exact decide_eq_true_iff

theorem Order.filledTime_le {a b : Order} (h : a.filledAfter b = true) :
    b.filledTime ≤ a.filledTime := by
  rcases Order.filledAfter_iff.1 h with hlt | ⟨heq, _⟩
  · exact hlt.le
  · exact heq.ge

theorem Order.filledAfter_trans (a b c : Order) (h : a.filledAfter b = true)
    (h' : b.filledAfter c = true) : a.filledAfter c = true := by
  rw [Order.filledAfter_iff] at h h' ⊢
  rcases h with hab | ⟨hab, hid⟩
  · refine Or.inl (lt_of_le_of_lt ?_ hab)
    rcases h' with hbc | ⟨hbc, _⟩
    · exact hbc.le
    · exact hbc.ge
  · rcases h' with hbc | ⟨hbc, hid'⟩
    · exact Or.inl (hab ▸ hbc)
    · exact Or.inr ⟨hab.trans hbc, String.lt_trans hid' hid⟩

/-- The order of fills is total on stored orders. -/
theorem filledAfter_total {c : Order → Bool} :
    ∀ a ∈ db.orders.rows.filter c, ∀ b ∈ db.orders.rows.filter c,
      ¬ a.filledAfter b = true → a = b ∨ b.filledAfter a = true := by
  intro a ha b hb hnot
  rw [Order.filledAfter_iff] at hnot ⊢
  rw [not_or, not_lt, not_and] at hnot
  obtain ⟨hle, hid⟩ := hnot
  rcases hle.lt_or_eq with hlt | heq
  · exact Or.inr (Or.inl hlt)
  · by_cases hlt : a.id < b.id
    · exact Or.inr (Or.inr ⟨heq.symm, hlt⟩)
    · have hkey : a.id = b.id := String.le_antisymm (String.not_lt.1 (hid heq)) (String.not_lt.1 hlt)
      exact Or.inl (db.orders.eq_of_key (List.mem_filter.1 ha).1 (List.mem_filter.1 hb).1 hkey)

/-- The latest order with a property has it, and no other is later. -/
theorem latestOrder_some {c : Order → Bool} {o : Order}
    (h : firstBy Order.filledAfter (db.orders.rows.filter c) = some o) :
    o ∈ db.orders.rows ∧ c o = true ∧
      ∀ o' ∈ db.orders.rows, c o' = true → o' = o ∨ o.filledAfter o' = true := by
  obtain ⟨hmem, hc⟩ := List.mem_filter.1 (mem_of_firstBy h)
  refine ⟨hmem, hc, fun o' ho' hc' ↦ ?_⟩
  exact firstBy_precedes Order.filledAfter_trans filledAfter_total h o'
    (List.mem_filter.2 ⟨ho', hc'⟩)

theorem Order.closes_exit {p : Position} {o : Order} (h : o.closes db p = true) :
    ExitOrder db p.id o := by
  unfold Order.closes at h
  rw [Bool.and_eq_true, Option.any_eq_true] at h
  obtain ⟨_, i, hi, hparent⟩ := h
  exact ⟨i, Table.mem_of_get? hi, Table.key_of_get? hi, of_decide_eq_true hparent⟩

/-- The close that the query for an opening order sees is the one of the stored row. -/
theorem lastClosedAt_eq {position : AuthorityBrokerPosition} {p : Position}
    (hp : p ∈ db.positions.rows) (hsame : samePosition snapshot position p = true) :
    lastClosedAt snapshot position db = p.closedAt := by
  unfold lastClosedAt
  have hsome : (db.positions.rows.find? (fun p ↦ p.accountId = snapshot.accountId ∧
      p.brokerPositionKey = position.brokerPositionKey)).isSome := by
    rw [List.find?_isSome]
    exact ⟨p, hp, hsame⟩
  obtain ⟨q, hq⟩ := Option.isSome_iff_exists.1 hsome
  have hqsame := List.find?_some hq
  simp only [samePosition, decide_eq_true_eq] at hqsame hsame
  have hclash : Row.clash q p :=
    Or.inr ⟨hqsame.1.trans hsame.1.symm, hqsame.2.trans hsame.2.symm⟩
  rw [hq, db.positions.eq_of_clash (List.mem_of_find?_eq_some hq) hp hclash]
  rfl

theorem Order.opens_after {position : AuthorityBrokerPosition} {o : Order} {t : Time}
    (h : o.opens snapshot position db = true)
    (ht : lastClosedAt snapshot position db = some t) : t < o.filledTime := by
  unfold Order.opens at h
  simp only [Bool.and_eq_true] at h
  have hall := h.1.2
  rw [ht, Option.all_some] at hall
  exact of_decide_eq_true hall

/-- The order a position was opened by is the last that opens it. -/
theorem openingOrder_some {position : AuthorityBrokerPosition} {o : Order} {i : Intent}
    (h : openingOrder snapshot position db = some (o, i)) :
    o ∈ db.orders.rows ∧ o.opens snapshot position db = true ∧
      ∀ o' ∈ db.orders.rows, o'.opens snapshot position db = true →
        o' = o ∨ o.filledAfter o' = true := by
  unfold openingOrder at h
  simp only [Option.bind_eq_bind, Option.bind_eq_some_iff] at h
  obtain ⟨order, horder, intent, hintent, heq⟩ := h
  obtain ⟨rfl, rfl⟩ := Prod.mk.inj (Option.some_inj.1 heq)
  exact latestOrder_some horder

end Sync

/-! ## Statements that keep the period -/

section Step

variable [Hashing]

/-- A step of the system, with the closes it forgets. -/
def Tracked.step (act : Act) (t : Tracked) : Option Tracked :=
  (Sys.step act t.sys).map fun sys ↦
    { sys, previousClose := reopened t.sys.db sys.db t.previousClose }

/-- A position about to be closed that has a filled exit has one from the current period. -/
def Position.ClosedInPeriod (db : Db) (p : Position) : Prop :=
  ∀ o ∈ db.orders.rows, o.closes db p = true →
    ∃ o' ∈ db.orders.rows, o'.closes db p = true ∧ p.openedAt ≤ o'.filledTime

/-- A stored position that is seen again: if it is closed, it names no closing order; if it is open
and names no opening order, an order that may open it is from the current period when there is
any. -/
def Position.SeenInPeriod (db : Db) (snapshot : AuthorityBrokerSnapshot)
    (position : AuthorityBrokerPosition) (previous : Option Time) (p : Position) : Prop :=
  (p.status = .closed → p.closingOrderId = none) ∧
    (p.status ≠ .closed → p.openingOrderId = none →
      ∀ o ∈ db.orders.rows, o.opens snapshot position db = true →
        ∃ o' ∈ db.orders.rows, o'.opens snapshot position db = true ∧
          ∀ t, previous = some t → t < o'.filledTime)

/-- The last of the orders that may open the position is an entry. -/
def OpenedByEntry (db : Db) (snapshot : AuthorityBrokerSnapshot)
    (position : AuthorityBrokerPosition) : Prop :=
  ∀ o ∈ db.orders.rows, o.opens snapshot position db = true →
    (∀ o' ∈ db.orders.rows, o'.opens snapshot position db = true →
      o' = o ∨ o.filledAfter o' = true) →
    EntryOrder db o

/-- The condition on a step.  Only the two statements of a sync that write positions have one. -/
def Tracked.InPeriod (t : Tracked) : Act → Prop
  | .sync session snapshot .closePositions => fenceHeld t.sys.db session = true →
    ∀ p ∈ t.sys.db.positions.rows, p.accountId = snapshot.accountId → p.held = true →
      ¬ snapshot.positions.any (·.brokerPositionKey = p.brokerPositionKey) →
      p.ClosedInPeriod t.sys.db
  | .sync _ snapshot (.position position) =>
    (∀ p ∈ t.sys.db.positions.rows, samePosition snapshot position p = true →
      p.SeenInPeriod t.sys.db snapshot position (t.previousClose p.id)) ∧
    OpenedByEntry t.sys.db snapshot position
  | _ => True

variable {db : Db} {snapshot : AuthorityBrokerSnapshot} {session : Session}

omit [Hashing] in
/-- A close within the condition keeps the lineage. -/
theorem Position.Lineage.close {p : Position} {previous : Option Time} {capturedAt : Time}
    (h : p.Lineage db previous) (hheld : p.status ≠ .closed) (hperiod : p.ClosedInPeriod db) :
    (p.close db capturedAt).Lineage db previous := by
  refine ⟨h.opening, fun _ id hid ↦ ?_, fun hne ↦ absurd rfl hne⟩
  have hclosing : (closingOrder db p).map (·.id) = some id := by
    have hnone : p.closingOrderId = none := h.held hheld
    simpa [Position.close, hnone] using hid
  obtain ⟨o, ho, rfl⟩ := Option.map_eq_some_iff.1 hclosing
  obtain ⟨hmem, hcloses, hlast⟩ := latestOrder_some ho
  obtain ⟨o', ho', hcloses', htime⟩ := hperiod o hmem hcloses
  refine ⟨o, Table.get?_of_mem hmem, Order.closes_exit hcloses, htime.trans ?_⟩
  rcases hlast o' ho' hcloses' with rfl | hafter
  · exact le_rfl
  · exact Order.filledTime_le hafter

omit [Hashing] in
theorem positionLineage_some {position : AuthorityBrokerPosition} {id : String}
    (h : (positionLineage snapshot position db).openingOrderId = some id) :
    ∃ o i, openingOrder snapshot position db = some (o, i) ∧ o.id = id := by
  obtain ⟨⟨o, i⟩, hopening, rfl⟩ := Option.map_eq_some_iff.1 h
  exact ⟨o, i, hopening, rfl⟩

omit [Hashing] in
/-- The opening order a statement takes over, within the condition. -/
theorem opening_of_lineage {position : AuthorityBrokerPosition} {id : String}
    (hentry : OpenedByEntry db snapshot position)
    (h : (positionLineage snapshot position db).openingOrderId = some id) :
    ∃ o, db.orders.get? id = some o ∧ EntryOrder db o ∧ o.opens snapshot position db = true ∧
      ∀ o' ∈ db.orders.rows, o'.opens snapshot position db = true →
        o'.filledTime ≤ o.filledTime := by
  obtain ⟨o, i, hopening, rfl⟩ := positionLineage_some h
  obtain ⟨hmem, hopens, hlast⟩ := openingOrder_some hopening
  refine ⟨o, Table.get?_of_mem hmem, hentry o hmem hopens hlast, hopens, fun o' ho' hopens' ↦ ?_⟩
  rcases hlast o' ho' hopens' with rfl | hafter
  · exact le_rfl
  · exact Order.filledTime_le hafter

omit [Hashing] in
/-- A position seen again within the condition has the lineage of its period, which is a new one
when it was closed. -/
theorem Position.Lineage.seen {p : Position} {position : AuthorityBrokerPosition}
    {previous : Option Time} (h : p.Lineage db previous) (hp : p ∈ db.positions.rows)
    (hsame : samePosition snapshot position p = true)
    (hperiod : p.SeenInPeriod db snapshot position previous)
    (hentry : OpenedByEntry db snapshot position) :
    (p.seen position snapshot.capturedAt (positionLineage snapshot position db)).Lineage db
      (if p.status = .closed then p.closedAt else previous) := by
  refine ⟨fun id hid ↦ ?_, fun hclosed ↦ (nomatch hclosed), fun _ ↦ ?_⟩
  · -- The opening order is the one found now, or the one the row had.
    by_cases hclosed : p.status = .closed
    · simp only [Position.seen, if_pos hclosed] at hid
      obtain ⟨o, hget, hplaced, hopens, _⟩ := opening_of_lineage hentry hid
      refine ⟨o, hget, hplaced, fun t ht ↦ Order.opens_after hopens ?_⟩
      rw [lastClosedAt_eq hp hsame, ← ht, if_pos hclosed]
    · rw [if_neg hclosed]
      simp only [Position.seen, if_neg hclosed] at hid
      rcases hopen : p.openingOrderId with - | known
      · have hfound : (positionLineage snapshot position db).openingOrderId = some id := by
          simpa [hopen] using hid
        obtain ⟨o, hget, hplaced, hopens, hlast⟩ := opening_of_lineage hentry hfound
        obtain ⟨o', ho', hopens', hafter⟩ :=
          hperiod.2 hclosed hopen o (Table.mem_of_get? hget) hopens
        exact ⟨o, hget, hplaced, fun t ht ↦ (hafter t ht).trans_le (hlast o' ho' hopens')⟩
      · rw [hopen] at hid
        obtain rfl : known = id := by simpa using hid
        exact h.opening known hopen
  · by_cases hclosed : p.status = .closed
    · exact hperiod.1 hclosed
    · exact h.held hclosed

/-- The row of a position seen for the first time. -/
theorem lineage_row {position : AuthorityBrokerPosition} {accountId : String}
    (hentry : OpenedByEntry db snapshot position) :
    (position.row accountId snapshot.capturedAt (positionLineage snapshot position db)).Lineage
      db none := by
  refine ⟨fun id hid ↦ ?_, fun hclosed ↦ (nomatch hclosed), fun _ ↦ rfl⟩
  obtain ⟨o, hget, hplaced, _⟩ := opening_of_lineage hentry hid
  exact ⟨o, hget, hplaced, fun t ht ↦ nomatch ht⟩

omit [Hashing] in
/-- Statements that leave positions alone keep the lineage. -/
theorem Tracked.Lineage.frame {t : Tracked} {sys : Sys} (h : t.Lineage)
    (hl : Later t.sys.db sys.db) (hp : sys.db.positions = t.sys.db.positions)
    (ho : OrdersGrow t.sys.db.orders sys.db.orders) :
    Tracked.Lineage { sys, previousClose := reopened t.sys.db sys.db t.previousClose } := by
  rw [reopened_eq_of_positions hp]
  refine ⟨fun p hmem ↦ ?_, fun id hnone ↦ h.fresh id ?_⟩
  · rw [hp] at hmem
    exact (h.rows p hmem).later hl ho
  · rwa [hp] at hnone

omit [Hashing] in
/-- An update of positions that keeps their lineage row by row. -/
theorem Tracked.Lineage.update {t : Tracked} {sys : Sys} {c : Position → Bool}
    {f : Position → Position} (hf : Keeps f) (h : t.Lineage) (hl : Later t.sys.db sys.db)
    (ho : sys.db.orders = t.sys.db.orders)
    (hp : sys.db.positions = t.sys.db.positions.update c f hf)
    (hupdate : ∀ p ∈ t.sys.db.positions.rows, c p = true → (f p).Lineage t.sys.db
      (if p.status = .closed ∧ (f p).status ≠ .closed then p.closedAt else t.previousClose p.id)) :
    Tracked.Lineage { sys, previousClose := reopened t.sys.db sys.db t.previousClose } := by
  have hgrow : OrdersGrow t.sys.db.orders sys.db.orders := by
    rw [ho]
    exact .refl _
  refine ⟨fun p' hp' ↦ ?_, fun id hnone ↦ ?_⟩
  · dsimp only at hp'
    rw [hp] at hp'
    obtain ⟨p, hmem, rfl⟩ := Table.mem_update.1 hp'
    have hget : t.sys.db.positions.get? p.id = some p := Table.get?_of_mem hmem
    have hget' : sys.db.positions.get? p.id = some (if c p then f p else p) := by
      rw [hp, Table.get?_update, hget]
      rfl
    by_cases hc : c p = true
    · rw [if_pos hc] at hget' ⊢
      have hid : (f p).id = p.id := hf.1 p
      have hclose : reopened t.sys.db sys.db t.previousClose (f p).id =
          if p.status = .closed ∧ (f p).status ≠ .closed then p.closedAt
          else t.previousClose p.id := by
        rw [hid]
        unfold reopened
        rw [hget, hget']
      dsimp only
      rw [hclose]
      exact (hupdate p hmem hc).later hl hgrow
    · rw [if_neg hc] at hget' ⊢
      have hclose : reopened t.sys.db sys.db t.previousClose p.id = t.previousClose p.id := by
        unfold reopened
        rw [hget, hget']
        exact if_neg fun hboth ↦ hboth.2 hboth.1
      dsimp only
      rw [hclose]
      exact (h.rows p hmem).later hl hgrow
  · have hnone' : t.sys.db.positions.get? id = none := by
      dsimp only at hnone
      rw [hp, Table.get?_update] at hnone
      exact Option.map_eq_none_iff.1 hnone
    dsimp only
    unfold reopened
    rw [hnone']
    exact h.fresh id hnone'

omit [Hashing] in
/-- A new position begins its first period. -/
theorem Tracked.Lineage.insert {t : Tracked} {sys : Sys} {p : Position} (h : t.Lineage)
    (hl : Later t.sys.db sys.db) (ho : sys.db.orders = t.sys.db.orders)
    (hins : t.sys.db.positions.insert? p = some sys.db.positions)
    (hp : p.Lineage t.sys.db none) :
    Tracked.Lineage { sys, previousClose := reopened t.sys.db sys.db t.previousClose } := by
  have hgrow : OrdersGrow t.sys.db.orders sys.db.orders := by
    rw [ho]
    exact .refl _
  have hclose : reopened t.sys.db sys.db t.previousClose = t.previousClose := by
    funext id
    unfold reopened
    rcases hget : t.sys.db.positions.get? id with - | q
    · rfl
    · rw [Table.get?_of_insert? hins hget]
      exact if_neg fun hboth ↦ hboth.2 hboth.1
  rw [hclose]
  refine ⟨?_, fun id hnone ↦ h.fresh id ?_⟩
  · refine Table.forall_insert? hins (fun q hq ↦ (h.rows q hq).later hl hgrow) ?_
    have hfresh : t.previousClose p.id = none := by
      refine h.fresh p.id (Table.get?_eq_none.2 fun q hq hkey ↦ ?_)
      exact Table.not_clash_of_insert? hins hq (Row.clash_of_key hkey)
    rw [hfresh]
    exact hp.later hl hgrow
  · rcases hget : t.sys.db.positions.get? id with - | q
    · rfl
    · exact nomatch (Table.get?_of_insert? hins hget).symm.trans hnone

/-- **A statement of a sync** within the condition keeps the lineage. -/
theorem Tracked.Lineage.sync {t : Tracked} {sys : Sys} {statement : SyncStatement}
    (h : t.Lineage) (hl : Later t.sys.db sys.db)
    (hguard : t.InPeriod (.sync session snapshot statement))
    (hok : statement.apply snapshot session t.sys.db = .ok sys.db) :
    Tracked.Lineage { sys, previousClose := reopened t.sys.db sys.db t.previousClose } := by
  rcases statement with - | - | - | - | position
  · obtain ⟨accounts, hdb⟩ := upsertAccount_writes hok
    have hframe : Files t.sys.db sys.db := by
      rw [hdb]
      exact .of_eq rfl rfl
    exact h.frame hl hframe.positions hframe.orders
  · obtain ⟨snapshots, hdb⟩ := insertAccountSnapshot_writes hok
    have hframe : Files t.sys.db sys.db := by
      rw [hdb]
      exact .of_eq rfl rfl
    exact h.frame hl hframe.positions hframe.orders
  · -- closePositions
    have hdb : closePositions snapshot session t.sys.db = sys.db := Except.ok.inj hok
    refine h.update (Position.close_keeps _ _) hl (by rw [← hdb]; rfl) (by rw [← hdb]; rfl) ?_
    intro p hp hc
    simp only [Bool.and_eq_true, decide_eq_true_eq, Bool.not_eq_true'] at hc
    obtain ⟨⟨⟨haccount, hheld⟩, hgone⟩, hfence⟩ := hc
    have hnot : ¬ (p.status = .closed ∧
        (p.close t.sys.db snapshot.capturedAt).status ≠ .closed) := fun hboth ↦ hboth.2 rfl
    rw [if_neg hnot]
    refine (h.rows p hp).close ?_ (hguard hfence p hp haccount hheld (by simp [hgone]))
    intro hclosed
    simp [Position.held, hclosed] at hheld
  · -- closeExits
    have hdb : closeExits snapshot session t.sys.db = sys.db := Except.ok.inj hok
    refine h.frame hl (by rw [← hdb]; rfl) ?_
    rw [← hdb]
    exact .refl _
  · -- position
    obtain ⟨-, hdb⟩ | ⟨-, positions, hinsert, hdb⟩ := upsertPosition_writes hok
    · refine h.update (Position.seen_keeps _ _ _) hl (by rw [hdb]) (by rw [hdb]) ?_
      intro p hp hsame
      have hseen := (h.rows p hp).seen hp hsame (hguard.1 p hp hsame) hguard.2
      have hopen : (p.seen position snapshot.capturedAt
          (positionLineage snapshot position t.sys.db)).status ≠ .closed := fun h ↦ by cases h
      simpa only [hopen, ne_eq, not_false_eq_true, and_true] using hseen
    · refine h.insert hl (by rw [hdb]) (p := position.row snapshot.accountId snapshot.capturedAt
        (positionLineage snapshot position t.sys.db)) ?_ (lineage_row hguard.2)
      rw [hdb]
      exact hinsert

/-- Every step of the system keeps what was read. -/
theorem Sys.step_later {s s' : Sys} {act : Act} (hvalid : s.Valid)
    (h : Sys.step act s = some s') : Later s.db s'.db :=
  (Sys.step_cases hvalid h).2.elim Advances.later Sys.Unsafe.later

/-- **One step.**  The lineage stays within its period when the step meets its condition. -/
theorem Tracked.step_lineage {t t' : Tracked} {act : Act} (h : t.sys.Valid ∧ t.Lineage)
    (hguard : t.InPeriod act) (hstep : t.step act = some t') : t'.sys.Valid ∧ t'.Lineage := by
  obtain ⟨sys, hsys, rfl⟩ := Option.map_eq_some_iff.1 hstep
  have hl : Later t.sys.db sys.db := Sys.step_later h.1 hsys
  refine ⟨(Sys.step_cases h.1 hsys).1, ?_⟩
  rcases Sys.step_files h.1 hsys with hfiles | ⟨session, snapshot, statement, rfl, hok⟩
  · exact h.2.frame hl hfiles.positions hfiles.orders
  · exact h.2.sync hl hguard hok

/-- **Lineage of the current period.**  In every run whose syncs meet the condition, every
position names only orders of its current holding period. -/
theorem lineage_of_current_period {t t' : Tracked} {acts : List Act} (hvalid : t.sys.Valid)
    (hinit : t.Lineage) (hguard : Guarded Tracked.step Tracked.InPeriod t acts)
    (hrun : runActs Tracked.step t acts = some t') : t'.Lineage :=
  (invariant_of_guarded (fun _ _ _ ↦ Tracked.step_lineage) ⟨hvalid, hinit⟩ hguard hrun).2

end Step

/-! ## A position that comes back -/

namespace Specimen

/-- The position, as the broker shows it. -/
def shares : AuthorityBrokerPosition where
  brokerPositionKey := "equity:XYZ"
  symbol := "XYZ"
  quantity := 10
  availableQuantity := 10
  averageEntryPrice := 100
  marketValue := 1000
  costBasis := 1000

/-- The broker's account with some positions. -/
def observed (positions : List AuthorityBrokerPosition) (capturedAt : Time) :
    AuthorityBrokerSnapshot :=
  { capturedAt, accountIdentityHash := "id", cash := 1000, equity := 2000, buyingPower := 1000,
    positions, structuralPortfolioFingerprint := "structure", portfolioFingerprint := "portfolio" }

/-- The stored row of the position. -/
def sharesRow : Position :=
  { id := "position_account_id|equity:XYZ", accountId := "account_id",
    brokerPositionKey := "equity:XYZ", symbol := "XYZ", status := .open, quantity := 10,
    availableQuantity := some 10, averageEntryPrice := some 100, openedAt := 1000 }

/-- The position is held and its exit has been filled. -/
def exitedDb : Db :=
  { leases := account.leases
    positions := .ofRows [sharesRow]
    intents := .ofRows [
      { id := "exit", accountId := "account_id", clientOrderId := "client-exit",
        strategyKey := "core", symbol := "XYZ", side := .sell, quantity := some 10,
        status := .reconciled, lifecycleState := .closed,
        parentPositionId := some "position_account_id|equity:XYZ" }]
    orders := .ofRows [
      { id := "order-exit", accountId := "account_id", orderIntentId := "exit",
        clientOrderId := "client-exit", symbol := "XYZ", side := .sell, status := "filled",
        quantity := some 10, filledQuantity := 10, filledAveragePrice := some 110,
        filledAt := some 1500 }] }

/-- The position is held for the first time. -/
def held : Tracked := { sys := Sys.idle exitedDb }

/-- The sync that finds the position gone. -/
def closing : Act := .sync session (observed [] 2000) .closePositions

/-- The sync that finds it again. -/
def reopening : Act := .sync session (observed [shares] 3000) (.position shares)

/-- A run from the held position. -/
def lineageRun (acts : List Act) : Option Tracked := runActs (@Tracked.step hashing) held acts

/-- The status and the lineage of the position. -/
def lineageOf (t : Tracked) : List (PositionStatus × Option String × Option String) :=
  t.sys.db.positions.rows.map fun p ↦ (p.status, p.openingOrderId, p.closingOrderId)

theorem held_lineage : held.Lineage := by
  refine ⟨fun p hp ↦ ?_, fun _ _ ↦ rfl⟩
  obtain rfl := List.mem_singleton.1 hp
  exact ⟨fun _ hid ↦ (nomatch hid), fun hclosed ↦ (nomatch hclosed), fun _ ↦ rfl⟩

/-- The exit was filled while the position was held. -/
theorem closing_inPeriod : held.InPeriod closing := by
  intro _ p hp _ _ _ o ho hcloses
  obtain rfl := List.mem_singleton.1 hp
  obtain rfl := List.mem_singleton.1 ho
  exact ⟨_, ho, hcloses, by decide⟩

end Specimen

/-- The theorem at the specimen: the position is closed, by its exit. -/
theorem specimen_lineage_closed :
    ∃ t, Specimen.lineageRun [Specimen.closing] = some t ∧ t.Lineage ∧
      Specimen.lineageOf t = [(.closed, none, some "order-exit")] := by
  let _ := Specimen.hashing
  have hrun : (Specimen.lineageRun [Specimen.closing]).map Specimen.lineageOf =
      some [(.closed, none, some "order-exit")] := by decide +kernel
  obtain ⟨t, ht, hlineage⟩ := Option.map_eq_some_iff.1 hrun
  have hguard : Guarded Tracked.step Tracked.InPeriod Specimen.held [Specimen.closing] :=
    ⟨Specimen.closing_inPeriod, fun _ _ ↦ trivial⟩
  exact ⟨t, ht, lineage_of_current_period (Sys.idle_valid _) Specimen.held_lineage hguard ht,
    hlineage⟩

/-- A position that is opened again keeps the order that closed its earlier period. -/
theorem reopened_keeps_closing_order :
    Specimen.held.Lineage ∧
      ∃ t, Specimen.lineageRun [Specimen.closing, Specimen.reopening] = some t ∧
        Specimen.lineageOf t = [(.open, none, some "order-exit")] ∧ ¬ t.Lineage := by
  have hrun : (Specimen.lineageRun [Specimen.closing, Specimen.reopening]).map Specimen.lineageOf =
      some [(.open, none, some "order-exit")] := by decide +kernel
  obtain ⟨t, ht, hlineage⟩ := Option.map_eq_some_iff.1 hrun
  refine ⟨Specimen.held_lineage, t, ht, hlineage, fun h ↦ ?_⟩
  obtain ⟨p, hrows, hrow⟩ := List.map_eq_singleton_iff.1 hlineage
  have hp : p ∈ t.sys.db.positions.rows := by
    rw [hrows]
    exact List.mem_singleton_self p
  simp only [Prod.mk.injEq] at hrow
  obtain ⟨hstatus, _, hclosing⟩ := hrow
  have hnone : p.closingOrderId = none := (h.rows p hp).held (by rw [hstatus]; decide)
  rw [hclosing] at hnone
  cases hnone

end AlpacaTrading
