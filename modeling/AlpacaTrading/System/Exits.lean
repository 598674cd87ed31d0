import AlpacaTrading.Review.Triggers
import AlpacaTrading.System.Lineage
import AlpacaTrading.System.Turns

/-!
# Exits of one position

The three exit commands run under leases of different jobs, so their reviews may overlap.  Each
reads its positions once and then stores its exits one statement at a time; a position that has an
exit is left out when the rows are read, not when the exit is stored.  What a late statement still
meets is the unique client order id, which is made of the account snapshot its review has read.

`ExitSys` adds running exit reviews to the system.  `exits_stay_single` names what a statement that
stores an exit must still find; in every run in which it does, no position has two live exits, and
where the syncs leave a position what its exit is for, no live exit is for more than the position
has.
-/

namespace AlpacaTrading

/-! ## Live exits -/

/-- The exits of a position that are not over. -/
def liveExits (db : Db) (positionId : String) : List Intent :=
  db.intents.rows.filter (·.liveExitOf positionId)

/-- The quantity the live exits of a position are for. -/
def exitQuantity (db : Db) (positionId : String) : ℚ :=
  ((liveExits db positionId).map (·.quantity.getD 0)).sum

/-- No position has two live exits. -/
def SingleExits (db : Db) : Prop := ∀ positionId, (liveExits db positionId).length ≤ 1

/-- The live exits of a position are for no more than the position has available. -/
def CoveredExits (db : Db) : Prop :=
  ∀ p ∈ db.positions.rows, exitQuantity db p.id ≤ p.availableQuantity.getD 0

theorem mem_liveExits {db : Db} {positionId : String} {i : Intent} :
    i ∈ liveExits db positionId ↔ i ∈ db.intents.rows ∧ i.parentPositionId = some positionId ∧
      i.lifecycleState ∉ exitOverStates := by
  rw [liveExits, List.mem_filter, Intent.liveExitOf, decide_eq_true_iff]

/-- Two live exits are one, when there is at most one. -/
theorem single_iff {db : Db} {positionId : String} :
    (liveExits db positionId).length ≤ 1 ↔
      ∀ i ∈ liveExits db positionId, ∀ j ∈ liveExits db positionId, i = j := by
  have hnodup : (liveExits db positionId).Nodup := db.intents.rows_nodup.filter _
  rcases hlist : liveExits db positionId with - | ⟨i, - | ⟨j, rest⟩⟩
  · simp
  · simp
  · rw [hlist] at hnodup
    constructor
    · intro hlength
      rw [List.length_cons, List.length_cons] at hlength
      omega
    · intro hsame
      have heq := hsame i List.mem_cons_self j (List.mem_cons_of_mem _ List.mem_cons_self)
      rw [heq] at hnodup
      exact absurd List.mem_cons_self (List.nodup_cons.1 hnodup).1

/-- The exits of the database: no position has two that are live, each is for a quantity, and what
is over has left the statuses a submission starts from. -/
structure Exits (db : Db) : Prop where
  single : SingleExits db
  positive : ∀ i ∈ db.intents.rows, i.parentPositionId.isSome = true → 0 ≤ i.quantity.getD 0
  ended : ∀ i ∈ db.intents.rows, i.lifecycleState ∈ exitOverStates →
    i.status ∉ [.created, .readyForSubmission, .submissionPending]

/-- The quantity of the live exits, when there is at most one. -/
theorem exitQuantity_le_iff {db : Db} (h : Exits db) {positionId : String} {bound : ℚ} :
    exitQuantity db positionId ≤ bound ↔
      0 ≤ bound ∧ ∀ i ∈ liveExits db positionId, i.quantity.getD 0 ≤ bound := by
  have hpositive : ∀ i ∈ liveExits db positionId, 0 ≤ i.quantity.getD 0 := by
    intro i hi
    obtain ⟨hmem, hparent, _⟩ := mem_liveExits.1 hi
    exact h.positive i hmem (by rw [hparent]; rfl)
  have hlength := h.single positionId
  rw [exitQuantity]
  rcases hlist : liveExits db positionId with - | ⟨i, - | ⟨j, rest⟩⟩
  · simp
  · rw [hlist] at hpositive
    have hi := hpositive i List.mem_cons_self
    simp only [List.map_cons, List.map_nil, List.sum_cons, List.sum_nil, add_zero,
      List.mem_singleton, forall_eq]
    exact ⟨fun hle ↦ ⟨hi.trans hle, hle⟩, And.right⟩
  · rw [hlist] at hlength
    simp at hlength

/-! ## Turns of exits -/

section Turns

variable {db db' : Db}

/-- What is over stays over, in a status no submission starts from. -/
theorem Turn.over {type : ReviewType} {s s' : IntentStatus × LifecycleState}
    (h : Turn type s s') (hover : s.2 ∈ exitOverStates →
      s.1 ∉ [.created, .readyForSubmission, .submissionPending]) :
    (s.2 ∈ exitOverStates → s'.2 ∈ exitOverStates) ∧
      (s'.2 ∈ exitOverStates → s'.1 ∉ [.created, .readyForSubmission, .submissionPending]) := by
  have hends : ∀ l ∈ exitOverStates, l.transitions = [] := by decide
  cases h with
  | keep => exact ⟨id, hover⟩
  | confirm => exact ⟨id, fun hl ↦ absurd (hover hl) (by simp)⟩
  | claim => exact ⟨id, fun hl ↦ absurd (hover hl) (by simp)⟩
  | release => exact ⟨id, fun hl ↦ absurd (hover hl) (by simp)⟩
  | attempt =>
    have hattempt : ∀ t, attemptState t ∉ exitOverStates := by rintro (_ | _) <;> decide
    exact ⟨fun hl ↦ absurd (hover hl) (by simp), fun hl ↦ absurd hl (hattempt type)⟩
  | acknowledge _ =>
    have hacknowledged : ∀ l : LifecycleState, acknowledgedStatus l ∉
        [.created, .readyForSubmission, .submissionPending] := by
      intro l
      unfold acknowledgedStatus
      split <;> decide
    exact ⟨fun hl ↦ absurd (hover hl) (by simp), fun _ ↦ hacknowledged _⟩
  | doubt => exact ⟨fun hl ↦ absurd (hover hl) (by simp), fun _ ↦ by simp⟩
  | reject => exact ⟨fun _ ↦ by simp [exitOverStates], fun _ ↦ by simp⟩
  | observe _ hpath hstatus' hstate' =>
    refine ⟨fun hl ↦ ?_, fun _ ↦ ?_⟩
    · rwa [← hstate', path_of_over (hends _ hl) hpath]
    · rw [hstatus']
      split <;> simp
  | close hstate => exact ⟨fun _ ↦ by simp [exitOverStates], fun _ ↦ by simp⟩
  | cancel hstatus => exact ⟨id, fun _ ↦ by simp⟩
  | absent hstatus => exact ⟨id, fun _ ↦ by simp⟩
  | preserve => exact ⟨id, fun _ ↦ by simp⟩

/-- A live exit was live before it turned. -/
theorem Turned.live {i i' : Intent} {positionId : String} (h : Turned db i i')
    (hover : i.lifecycleState ∈ exitOverStates →
      i.status ∉ [.created, .readyForSubmission, .submissionPending])
    (hi : i ∈ db.intents.rows) (hi' : i' ∈ liveExits db' positionId) :
    i ∈ liveExits db positionId := by
  obtain ⟨_, hparent, hlive⟩ := mem_liveExits.1 hi'
  have hsame := congrArg IntentTerms.parentPositionId h.1
  refine mem_liveExits.2 ⟨hi, hsame.symm.trans hparent, fun hl ↦ hlive ?_⟩
  exact (h.2.over hover).1 hl

/-- The live exits after turns, with those they came from. -/
theorem Exits.turned (h : Exits db) (hturns : Turns db db') {positionId : String} {i' : Intent}
    (hi' : i' ∈ liveExits db' positionId) :
    ∃ i ∈ liveExits db positionId, i'.id = i.id ∧ i'.quantity = i.quantity := by
  obtain ⟨i, hi, hturned⟩ := hturns i' (mem_liveExits.1 hi').1
  exact ⟨i, hturned.live (h.ended i hi) hi hi', congrArg IntentTerms.id hturned.1,
    congrArg IntentTerms.quantity hturned.1⟩

theorem Exits.turns (h : Exits db) (hturns : Turns db db') : Exits db' := by
  refine ⟨fun positionId ↦ ?_, ?_, ?_⟩
  · rw [single_iff]
    intro i' hi' j' hj'
    obtain ⟨i, hi, hid, _⟩ := h.turned hturns hi'
    obtain ⟨j, hj, hjd, _⟩ := h.turned hturns hj'
    have hsame := single_iff.1 (h.single positionId) i hi j hj
    refine db'.intents.eq_of_key (mem_liveExits.1 hi').1 (mem_liveExits.1 hj').1 ?_
    exact hid.trans ((congrArg Intent.id hsame).trans hjd.symm)
  · intro i' hi' hparent
    obtain ⟨i, hi, hterms, _⟩ := hturns i' hi'
    have hquantity : i'.quantity = i.quantity := congrArg IntentTerms.quantity hterms
    have hsame : i'.parentPositionId = i.parentPositionId :=
      congrArg IntentTerms.parentPositionId hterms
    rw [hquantity]
    exact h.positive i hi (hsame ▸ hparent)
  · intro i' hi'
    obtain ⟨i, hi, _, hturn⟩ := hturns i' hi'
    exact (hturn.over (h.ended i hi)).2

/-- Turns ask for no more than was asked for. -/
theorem Exits.quantity_turns (h : Exits db) (hturns : Turns db db') {positionId : String}
    {bound : ℚ} (hbound : exitQuantity db positionId ≤ bound) :
    exitQuantity db' positionId ≤ bound := by
  rw [exitQuantity_le_iff h] at hbound
  rw [exitQuantity_le_iff (h.turns hturns)]
  refine ⟨hbound.1, fun i' hi' ↦ ?_⟩
  obtain ⟨i, hi, _, hquantity⟩ := h.turned hturns hi'
  rw [hquantity]
  exact hbound.2 i hi

theorem CoveredExits.turns (h : CoveredExits db) (hexits : Exits db) (hturns : Turns db db')
    (hpositions : db'.positions = db.positions) : CoveredExits db' := by
  intro p hp
  rw [hpositions] at hp
  exact hexits.quantity_turns hturns (h p hp)

/-- A new entry closes no position. -/
theorem liveExits_of_opens (hopens : Opens db db') (positionId : String) :
    liveExits db' positionId = liveExits db positionId := by
  obtain ⟨i, _, hparent, hins⟩ := hopens
  have hnot : ¬ i.liveExitOf positionId = true := by
    rw [Intent.liveExitOf, decide_eq_true_iff, hparent]
    rintro ⟨hnone, _⟩
    cases hnone
  rw [liveExits, Table.rows_of_insert? hins, List.filter_append, liveExits, List.filter_cons,
    if_neg hnot, List.filter_nil, List.append_nil]

theorem Exits.opens (h : Exits db) (hopens : Opens db db') : Exits db' := by
  have hsame := liveExits_of_opens hopens
  obtain ⟨i, hstanding, hparent, hins⟩ := hopens
  have hstate := (Prod.mk.inj hstanding).2
  refine ⟨fun positionId ↦ ?_, ?_, ?_⟩
  · rw [hsame]
    exact h.single positionId
  · refine Table.forall_insert? hins h.positive fun hsome ↦ ?_
    rw [hparent] at hsome
    cases hsome
  · refine Table.forall_insert? hins h.ended fun hover ↦ ?_
    rw [hstate] at hover
    exact absurd hover (by decide)

end Turns

/-! ## Statements that write exits and positions -/

section Statements

variable {db db' : Db}

/-- A new exit is one more live exit of its position. -/
theorem liveExits_of_stores {record : ExitRecord} {positionId : String}
    (hstores : Stores db db' [record]) (hparent : record.intent.parentPositionId = some positionId)
    (hstate : record.intent.lifecycleState ∉ exitOverStates) (id : String) :
    liveExits db' id = liveExits db id ++ if positionId = id then [record.intent] else [] := by
  obtain ⟨_, _, intents, _, _, hins, rfl⟩ := stores_singleton.1 hstores
  have hrows := Table.rows_of_insert? hins
  rw [liveExits, hrows, List.filter_append, liveExits, List.filter_cons, List.filter_nil,
    Intent.liveExitOf, hparent]
  by_cases hid : positionId = id
  · simp [hid, hstate]
  · simp [hid]

/-- A new exit of a position without one. -/
theorem Exits.stores {record : ExitRecord} {positionId : String} (h : Exits db)
    (hstores : Stores db db' [record]) (hparent : record.intent.parentPositionId = some positionId)
    (hstate : record.intent.lifecycleState ∉ exitOverStates)
    (hpositive : 0 ≤ record.intent.quantity.getD 0) (hnone : liveExits db positionId = []) :
    Exits db' := by
  have hlive := liveExits_of_stores hstores hparent hstate
  obtain ⟨_, _, intents, _, _, hins, rfl⟩ := stores_singleton.1 hstores
  refine ⟨fun id ↦ ?_, ?_, ?_⟩
  · rw [hlive]
    by_cases hid : positionId = id
    · subst hid
      rw [hnone, if_pos rfl]
      exact le_rfl
    · rw [if_neg hid, List.append_nil]
      exact h.single id
  · exact Table.forall_insert? hins h.positive fun _ ↦ hpositive
  · exact Table.forall_insert? hins h.ended fun hover ↦ absurd hover hstate

/-- A new exit of a position without one, for what the position has. -/
theorem CoveredExits.stores {record : ExitRecord} {positionId : String} (h : CoveredExits db)
    (hstores : Stores db db' [record]) (hparent : record.intent.parentPositionId = some positionId)
    (hstate : record.intent.lifecycleState ∉ exitOverStates) (hnone : liveExits db positionId = [])
    (hquantity : ∀ p ∈ db.positions.rows, p.id = positionId →
      record.intent.quantity.getD 0 ≤ p.availableQuantity.getD 0) : CoveredExits db' := by
  have hlive := liveExits_of_stores hstores hparent hstate
  obtain ⟨_, _, intents, _, _, hins, rfl⟩ := stores_singleton.1 hstores
  intro p hp
  rw [exitQuantity, hlive]
  by_cases hid : positionId = p.id
  · rw [if_pos hid, ← hid, hnone]
    simpa using hquantity p hp hid.symm
  · rw [if_neg hid, List.append_nil]
    exact h p hp

/-- The live exits depend on the intents alone. -/
theorem liveExits_of_intents (hsame : db'.intents = db.intents) (positionId : String) :
    liveExits db' positionId = liveExits db positionId := by
  rw [liveExits, hsame, liveExits]

theorem CoveredExits.of_eq (h : CoveredExits db) (hintents : db'.intents = db.intents)
    (hpositions : db'.positions = db.positions) : CoveredExits db' := by
  intro p hp
  rw [hpositions] at hp
  rw [exitQuantity, liveExits_of_intents hintents]
  exact h p hp

/-- An exit that was just read has a quantity, and its position no live exit. -/
theorem exitItems_read {session : Session} {market : Market} {request : ExitReviewRequest}
    {items : List ExitItem} {item : ExitItem}
    (h : exitItems request (exitSource db market request session.dbNow) = .ok items)
    (hitem : item ∈ items) :
    0 < item.row.quantity ∧ liveExits db item.row.position.id = [] ∧
      ∀ p ∈ db.positions.rows, p.id = item.row.position.id →
        item.row.quantity ≤ p.availableQuantity.getD 0 := by
  obtain ⟨_, rfl⟩ := exitItems_eq_ok.1 h
  obtain ⟨row, hrow, hitem⟩ := List.mem_filterMap.1 hitem
  obtain rfl := ExitSourceRow.mem_of_exitItem? hitem
  have hselected := mem_exitSource hrow
  have hexitable := hselected.exitable
  simp only [exitable, Bool.and_eq_true, Bool.not_eq_true', List.any_eq_false] at hexitable
  refine ⟨hselected.quantity_pos.1, List.filter_eq_nil_iff.2 hexitable.1.2, fun p hp hid ↦ ?_⟩
  obtain rfl := db.positions.eq_of_key hp hselected.mem hid
  exact le_rfl

end Statements

section Step

variable [Hashing] {db db' : Db}

/-- What a sync leaves to a position covers its live exits: a position it closes has none, and one
it sees has their quantity available. -/
def SyncStatement.Covers (snapshot : AuthorityBrokerSnapshot) (db : Db) : SyncStatement → Prop
  | .closePositions => ∀ p ∈ db.positions.rows, p.accountId = snapshot.accountId → p.held = true →
      ¬ snapshot.positions.any (·.brokerPositionKey = p.brokerPositionKey) →
      exitQuantity db p.id ≤ 0
  | .position seen =>
      (∀ p ∈ db.positions.rows, samePosition snapshot seen p = true →
        exitQuantity db p.id ≤ seen.availableQuantity) ∧
      (¬ db.positions.rows.any (samePosition snapshot seen) →
        exitQuantity db (positionId snapshot.accountId seen.brokerPositionKey) ≤
          seen.availableQuantity)
  | _ => True

/-- A sync within the condition leaves every position covered. -/
theorem SyncStatement.Covers.covered {snapshot : AuthorityBrokerSnapshot} {session : Session}
    {statement : SyncStatement} (h : statement.Covers snapshot db) (hexits : CoveredExits db)
    (hok : statement.apply snapshot session db = .ok db') :
    ∀ p ∈ db'.positions.rows, exitQuantity db p.id ≤ p.availableQuantity.getD 0 := by
  have hcovered : db'.positions = db.positions →
      ∀ p ∈ db'.positions.rows, exitQuantity db p.id ≤ p.availableQuantity.getD 0 := by
    intro hsame p hp
    rw [hsame] at hp
    exact hexits p hp
  rcases statement with - | - | - | - | seen
  · obtain ⟨accounts, rfl⟩ := upsertAccount_writes hok
    exact hcovered rfl
  · obtain ⟨snapshots, rfl⟩ := insertAccountSnapshot_writes hok
    exact hcovered rfl
  · obtain rfl := Except.ok.inj hok
    refine Table.forall_update (Position.close_keeps _ _) hexits fun p hp hclosed _ ↦ ?_
    simp only [Bool.and_eq_true, decide_eq_true_eq, Bool.not_eq_true'] at hclosed
    obtain ⟨⟨⟨haccount, hheld⟩, hgone⟩, _⟩ := hclosed
    exact h p hp haccount hheld (by simp [hgone])
  · obtain rfl := Except.ok.inj hok
    exact hcovered rfl
  · obtain ⟨-, rfl⟩ | ⟨hnew, positions, hinsert, rfl⟩ := upsertPosition_writes hok
    · exact Table.forall_update (Position.seen_keeps _ _ _) hexits fun p hp hseen _ ↦
        h.1 p hp hseen
    · exact Table.forall_insert? hinsert hexits (h.2 hnew)

/-! ## Exit reviews at work -/

/-- A running exit review, with the exits it has not stored yet. -/
structure ExitRun where
  request : ExitReviewRequest
  fence : SchedulerFence
  items : List ExitItem

/-- The system with its running exit reviews. -/
structure ExitSys where
  sys : Sys
  exits : List ExitRun := []

inductive ExitAct where
  /-- An exit review reads its rows and checks them. -/
  | read (session : Session) (market : Market) (request : ExitReviewRequest)
  /-- A review stores its next exit; an error ends it. -/
  | store (p : Nat) (dbNow : Time)
  | system (act : Act)

/-- One step of the system with its exit reviews. -/
def ExitSys.step (act : ExitAct) (s : ExitSys) : Option ExitSys :=
  match act with
  | .read session market request =>
    match exitItems request (exitSource s.sys.db market request session.dbNow) with
    | .error _ => some s
    | .ok items => some { s with exits := s.exits ++ [{ request, fence := session.fence, items }] }
  | .store p dbNow =>
    match s.exits[p]? with
    | none => none
    | some run =>
      match run.items with
      | [] => none
      | item :: rest =>
        let (db, result) := item.run run.request { fence := run.fence, dbNow } s.sys.db
        some { s with
          sys := { s.sys with db }
          exits := s.exits.set p { run with items := if result.isOk then rest else [] } }
  | .system act => (Sys.step act s.sys).map fun sys ↦ { s with sys }

/-- The statement of an item would store its exit: the lease is held and no review has the item's
client order id. -/
def ExitItem.Storable (item : ExitItem) (db : Db) (session : Session) : Prop :=
  fenceHeld db session = true ∧
    ¬ ∃ r ∈ db.reviews.rows, r.accountId = item.row.account.id ∧
      r.clientOrderId = some item.order.clientOrderId

/-- The condition on a step: a statement that stores an exit still finds its position without
one. -/
def ExitSys.Coordinated (s : ExitSys) : ExitAct → Prop
  | .store p dbNow => ∀ run item rest, s.exits[p]? = some run → run.items = item :: rest →
      item.Storable s.sys.db { fence := run.fence, dbNow } →
      liveExits s.sys.db item.row.position.id = []
  | _ => True

/-- The condition on quantities: a statement that stores an exit still finds that quantity in its
position, and a sync leaves it there. -/
def ExitSys.Covered (s : ExitSys) : ExitAct → Prop
  | .store p dbNow => ∀ run item rest, s.exits[p]? = some run → run.items = item :: rest →
      item.Storable s.sys.db { fence := run.fence, dbNow } →
      ∀ p ∈ s.sys.db.positions.rows, p.id = item.row.position.id →
        item.row.quantity ≤ p.availableQuantity.getD 0
  | .system (.sync _ snapshot statement) => statement.Covers snapshot s.sys.db
  | _ => True

/-- The exits of the system, stored and still to be stored. -/
structure ExitSys.Sound (s : ExitSys) : Prop where
  valid : s.sys.Valid
  exits : Exits s.sys.db
  positive : ∀ run ∈ s.exits, ∀ item ∈ run.items, 0 < item.row.quantity

/-- What the statement of an item does: nothing, the first two rows, or all three. -/
theorem exitItem_run_cases {item : ExitItem} {request : ExitReviewRequest} {session : Session} :
    (item.run request session db).1 = db ∨
      (item.Storable db session ∧ ∃ reviews, db.reviews.insert? (item.review request) = some reviews ∧
        ((∃ confirmations, (item.run request session db).1 = { db with reviews, confirmations }) ∨
          Stores db (item.run request session db).1 [item.record request session.fence])) := by
  have hinsert : ∀ outcome db₁,
      (item.record request session.fence).insert session db = .ok (db₁, outcome) →
      db₁ = db ∨ (item.Storable db session ∧ ∃ reviews,
        db.reviews.insert? (item.review request) = some reviews ∧
        ((∃ confirmations, db₁ = { db with reviews, confirmations }) ∨
          Stores db db₁ [item.record request session.fence])) := by
    intro outcome db₁ h
    unfold ExitRecord.insert at h
    split at h
    · exact Or.inl (Prod.mk.inj (Except.ok.inj h)).1.symm
    · next hfence =>
      split at h
      · exact Or.inl (Prod.mk.inj (Except.ok.inj h)).1.symm
      · next hclient =>
        have hheld : fenceHeld db session = true := by simpa using hfence
        have hfree : ¬ ∃ r ∈ db.reviews.rows, r.accountId = item.row.account.id ∧
            r.clientOrderId = some item.order.clientOrderId := by
          rintro ⟨r, hr, hsame⟩
          exact hclient (List.any_eq_true.2 ⟨r, hr, decide_eq_true hsame⟩)
        simp only [bind_eq_ok, require_eq_ok, Table.insertOne_eq_ok] at h
        obtain ⟨_, _, reviews, hreview, confirmations, hconfirmation, h⟩ := h
        refine Or.inr ⟨⟨hheld, hfree⟩, reviews, hreview, ?_⟩
        split at h
        · exact Or.inl ⟨confirmations, (Prod.mk.inj (Except.ok.inj h)).1.symm⟩
        · simp only [bind_eq_ok, Table.insertOne_eq_ok] at h
          obtain ⟨intents, hintent, hout⟩ := h
          obtain ⟨rfl, -⟩ := Prod.mk.inj (Except.ok.inj hout)
          exact Or.inr (stores_singleton.2
            ⟨reviews, confirmations, intents, hreview, hconfirmation, hintent, rfl⟩)
  unfold ExitItem.run
  split
  · exact Or.inl rfl
  · split
    · exact Or.inl rfl
    all_goals next hok => exact hinsert _ _ hok

/-- What a worker remembers stays when an exit is stored. -/
theorem exitItem_run_later {item : ExitItem} {request : ExitReviewRequest} {session : Session} :
    Later db (item.run request session db).1 := by
  rcases @exitItem_run_cases _ db item request session with hsame |
    ⟨_, reviews, hreview, ⟨_, hdb⟩ | hstores⟩
  · rw [hsame]
    exact .refl db
  · rw [hdb]
    exact ⟨⟨fun _ he ↦ he, fun _ r hr ↦ ⟨r, Table.get?_of_insert? hreview hr, rfl⟩⟩,
      fun i hi ↦ ⟨i, hi, rfl, fun hne ↦ ⟨hne, rfl⟩⟩⟩
  · obtain ⟨_, _, _, hreviews, _, hintents, hdb⟩ := stores_singleton.1 hstores
    rw [hdb]
    exact ⟨⟨fun _ he ↦ he, fun _ r hr ↦ ⟨r, Table.get?_of_insert? hreviews hr, rfl⟩⟩,
      fun i hi ↦ ⟨i, Table.mem_of_insert? hintents hi, rfl, fun hne ↦ ⟨hne, rfl⟩⟩⟩

/-- **An exit of a position without one** keeps the exits single. -/
theorem Exits.store {item : ExitItem} {request : ExitReviewRequest} {session : Session}
    (h : Exits db) (hpositive : 0 < item.row.quantity)
    (hnone : item.Storable db session → liveExits db item.row.position.id = []) :
    Exits (item.run request session db).1 := by
  rcases @exitItem_run_cases _ db item request session with hsame |
    ⟨hstorable, _, _, ⟨_, hdb⟩ | hstores⟩
  · rwa [hsame]
  · rw [hdb]
    exact h.turns (.of_eq rfl)
  · have hlive : LifecycleState.exitReadyForSubmission ∉ exitOverStates := by decide
    exact h.stores hstores rfl hlive hpositive.le (hnone hstorable)

/-- **An exit of a position that has the quantity** keeps the exits covered. -/
theorem CoveredExits.store {item : ExitItem} {request : ExitReviewRequest} {session : Session}
    (h : CoveredExits db)
    (hnone : item.Storable db session → liveExits db item.row.position.id = [])
    (hquantity : item.Storable db session → ∀ p ∈ db.positions.rows, p.id = item.row.position.id →
      item.row.quantity ≤ p.availableQuantity.getD 0) :
    CoveredExits (item.run request session db).1 := by
  rcases @exitItem_run_cases _ db item request session with hsame |
    ⟨hstorable, _, _, ⟨_, hdb⟩ | hstores⟩
  · rwa [hsame]
  · rw [hdb]
    exact h.of_eq rfl rfl
  · have hlive : LifecycleState.exitReadyForSubmission ∉ exitOverStates := by decide
    exact h.stores hstores rfl hlive (hnone hstorable) (hquantity hstorable)

theorem Exits.committed (h : Exits db) (hcommitted : Committed db db') : Exits db' := by
  rcases hcommitted.turns with hturns | hopens
  · exact h.turns hturns
  · exact h.opens hopens

theorem CoveredExits.committed (h : CoveredExits db) (hexits : Exits db)
    (hcommitted : Committed db db') : CoveredExits db' := by
  have hpositions := hcommitted.files.positions
  rcases hcommitted.turns with hturns | hopens
  · exact h.turns hexits hturns hpositions
  · intro p hp
    rw [hpositions] at hp
    rw [exitQuantity, liveExits_of_opens hopens]
    exact h p hp

/-- **A step of the system** keeps the exits single. -/
theorem Exits.system {s s' : Sys} {act : Act} (h : Exits s.db) (hvalid : s.Valid)
    (hstep : Sys.step act s = some s') : Exits s'.db := by
  rcases Sys.step_committed hvalid hstep with hexecutes | hseq |
    ⟨session, snapshot, statement, _, hsync⟩
  · exact h.turns hexecutes.turns
  · exact invariant_of_steps (fun _ _ hd ↦ hd.committed) hseq h
  · exact h.turns (SyncStatement.turns hsync)

/-- **A step of the system** whose sync leaves what the exits are for keeps them covered. -/
theorem CoveredExits.system {s s' : Sys} {act : Act} (h : CoveredExits s.db) (hexits : Exits s.db)
    (hvalid : s.Valid) (hstep : Sys.step act s = some s')
    (hcovers : ∀ session snapshot statement, act = .sync session snapshot statement →
      statement.Covers snapshot s.db) : CoveredExits s'.db := by
  have hcommitted : ∀ d d', Exits d ∧ CoveredExits d → Committed d d' →
      Exits d' ∧ CoveredExits d' :=
    fun d d' hd hc ↦ ⟨hd.1.committed hc, hd.2.committed hd.1 hc⟩
  rcases Sys.step_committed hvalid hstep with hexecutes | hseq |
    ⟨session, snapshot, statement, hact, hsync⟩
  · exact h.turns hexits hexecutes.turns hexecutes.files.positions
  · exact (invariant_of_steps hcommitted hseq ⟨hexits, h⟩).2
  · intro p hp
    refine hexits.quantity_turns (SyncStatement.turns hsync) ?_
    exact (hcovers session snapshot statement hact).covered h hsync p hp

/-- What a step of the system with its exit reviews is: a review is read, an exit is stored, or the
system takes a step of its own. -/
theorem ExitSys.step_cases {s s' : ExitSys} {act : ExitAct} (hstep : ExitSys.step act s = some s') :
    (∃ session market request, act = .read session market request ∧ s'.sys = s.sys ∧
      ∀ run ∈ s'.exits, run ∈ s.exits ∨
        exitItems request (exitSource s.sys.db market request session.dbNow) = .ok run.items) ∨
    (∃ p dbNow run item rest, act = .store p dbNow ∧ s.exits[p]? = some run ∧
      run.items = item :: rest ∧
      s'.sys = { s.sys with
        db := (item.run run.request { fence := run.fence, dbNow } s.sys.db).1 } ∧
      ∀ run' ∈ s'.exits, run' ∈ s.exits ∨ ∀ i ∈ run'.items, i ∈ run.items) ∨
    (∃ a, act = .system a ∧ Sys.step a s.sys = some s'.sys ∧ s'.exits = s.exits) := by
  rcases act with ⟨session, market, request⟩ | ⟨p, dbNow⟩ | a
  · refine Or.inl ⟨session, market, request, rfl, ?_⟩
    simp only [ExitSys.step] at hstep
    split at hstep
    · obtain rfl := Option.some_inj.1 hstep
      exact ⟨rfl, fun _ hrun ↦ Or.inl hrun⟩
    · next items hitems =>
      obtain rfl := Option.some_inj.1 hstep
      refine ⟨rfl, fun run hrun ↦ ?_⟩
      rcases List.mem_append.1 hrun with hrun | hrun
      · exact Or.inl hrun
      · obtain rfl := List.mem_singleton.1 hrun
        exact Or.inr hitems
  · simp only [ExitSys.step] at hstep
    split at hstep
    · cases hstep
    · next run hrun =>
      split at hstep
      · cases hstep
      · next item rest hitems =>
        obtain rfl := Option.some_inj.1 hstep
        refine Or.inr (Or.inl ⟨p, dbNow, run, item, rest, rfl, hrun, hitems, rfl, ?_⟩)
        intro run' hrun'
        rcases List.mem_or_eq_of_mem_set hrun' with hrun' | rfl
        · exact Or.inl hrun'
        · refine Or.inr fun i hi ↦ ?_
          dsimp only at hi
          split at hi
          · rw [hitems]
            exact List.mem_cons_of_mem item hi
          · cases hi
  · obtain ⟨sys, hsys, rfl⟩ := Option.map_eq_some_iff.1 hstep
    exact Or.inr (Or.inr ⟨a, rfl, hsys, rfl⟩)

/-- **A step** within the condition keeps the system sound. -/
theorem ExitSys.Sound.step {s s' : ExitSys} {act : ExitAct} (h : s.Sound)
    (hguard : s.Coordinated act) (hstep : ExitSys.step act s = some s') : s'.Sound := by
  rcases ExitSys.step_cases hstep with
    ⟨session, market, request, rfl, hsys, hexits⟩ |
    ⟨p, dbNow, run, item, rest, rfl, hrun, hitems, hsys, hexits⟩ | ⟨a, rfl, hsys, hexits⟩
  · refine ⟨hsys ▸ h.valid, hsys ▸ h.exits, fun run hrun item hitem ↦ ?_⟩
    rcases hexits run hrun with hrun | hread
    · exact h.positive run hrun item hitem
    · exact (exitItems_read hread hitem).1
  · have hpositive := h.positive run (List.mem_of_getElem? hrun)
    have hitem : 0 < item.row.quantity := hpositive item (by rw [hitems]; exact List.mem_cons_self)
    refine ⟨?_, ?_, fun run' hrun' i hi ↦ ?_⟩
    · rw [hsys]
      exact h.valid.later exitItem_run_later
    · rw [hsys]
      exact h.exits.store hitem (hguard run item rest hrun hitems)
    · rcases hexits run' hrun' with hrun' | hsub
      · exact h.positive run' hrun' i hi
      · exact hpositive i (hsub i hi)
  · refine ⟨(Sys.step_cases h.valid hsys).1, h.exits.system h.valid hsys, ?_⟩
    rw [hexits]
    exact h.positive

/-- **A step** within both conditions keeps the exits covered. -/
theorem ExitSys.Sound.step_covered {s s' : ExitSys} {act : ExitAct} (h : s.Sound)
    (hcovered : CoveredExits s.sys.db) (hguard : s.Coordinated act) (hquantity : s.Covered act)
    (hstep : ExitSys.step act s = some s') : CoveredExits s'.sys.db := by
  rcases ExitSys.step_cases hstep with
    ⟨session, market, request, rfl, hsys, _⟩ |
    ⟨p, dbNow, run, item, rest, rfl, hrun, hitems, hsys, _⟩ | ⟨a, rfl, hsys, _⟩
  · rwa [hsys]
  · rw [hsys]
    exact hcovered.store (hguard run item rest hrun hitems) (hquantity run item rest hrun hitems)
  · refine hcovered.system h.exits h.valid hsys ?_
    rintro session snapshot statement rfl
    exact hquantity

/-- A review whose first exit is stored right after it was read meets both conditions. -/
theorem read_store_guarded (sys : Sys) (session : Session) (market : Market)
    (request : ExitReviewRequest) (dbNow : Time) :
    Guarded ExitSys.step (fun s a ↦ s.Coordinated a ∧ s.Covered a) { sys }
      [.read session market request, .store 0 dbNow] := by
  refine ⟨⟨trivial, trivial⟩, fun s hs ↦ ⟨?_, fun _ _ ↦ trivial⟩⟩
  have hread : ∀ run item rest, s.exits[0]? = some run → run.items = item :: rest →
      liveExits s.sys.db item.row.position.id = [] ∧
        ∀ p ∈ s.sys.db.positions.rows, p.id = item.row.position.id →
          item.row.quantity ≤ p.availableQuantity.getD 0 := by
    intro run item rest hrun hrest
    simp only [ExitSys.step, List.nil_append] at hs
    split at hs
    · obtain rfl := Option.some_inj.1 hs
      cases hrun
    · next items hitems =>
      obtain rfl := Option.some_inj.1 hs
      obtain rfl := Option.some_inj.1 hrun
      dsimp only at hrest
      subst hrest
      exact (exitItems_read hitems List.mem_cons_self).2
  exact ⟨fun run item rest hrun hrest _ ↦ (hread run item rest hrun hrest).1,
    fun run item rest hrun hrest _ ↦ (hread run item rest hrun hrest).2⟩

/-- **At most one live exit.**  In a run in which every statement that stores an exit still finds
its position without one, no position has two live exits.  Where the positions also keep what their
exits are for, the live exits of a position are for no more than it has available. -/
theorem exits_stay_single {s s' : ExitSys} {acts : List ExitAct} (hsound : s.Sound)
    (hguard : Guarded ExitSys.step ExitSys.Coordinated s acts)
    (hrun : runActs ExitSys.step s acts = some s') :
    SingleExits s'.sys.db ∧
      (CoveredExits s.sys.db → Guarded ExitSys.step ExitSys.Covered s acts →
        CoveredExits s'.sys.db) := by
  have hinvariant : s'.Sound :=
    invariant_of_guarded (fun _ _ _ ↦ ExitSys.Sound.step) hsound hguard hrun
  refine ⟨hinvariant.exits.single, fun hcovered hquantity ↦ ?_⟩
  have hstep : ∀ (t : ExitSys) (a : ExitAct) (t' : ExitSys), t.Sound ∧ CoveredExits t.sys.db →
      t.Coordinated a ∧ t.Covered a → ExitSys.step a t = some t' →
      t'.Sound ∧ CoveredExits t'.sys.db :=
    fun _ _ _ h hguards hstep ↦
      ⟨h.1.step hguards.1 hstep, h.1.step_covered h.2 hguards.1 hguards.2 hstep⟩
  exact (invariant_of_guarded hstep ⟨hsound, hcovered⟩ (hguard.and hquantity) hrun).2

end Step

/-! ## Two reviews of one position

The exit review and the hedge exit review read the same position, with a new account snapshot
between them, and then store their exits. -/

namespace Specimen

/-- Digests that begin with the last field. -/
@[reducible] def lastFirst : Hashing where
  stableRecordId scope key := scope ++ "/" ++ key
  canonicalJsonHash fields := "|".intercalate (fields.reverse.map Prod.snd)
  toISOString t := toString t

/-- The worker of a job. -/
def worker (job : String) : Session where
  fence :=
    { jobName := job, workstream := "paper", ownerId := job, runId := job, fencingToken := 1 }
  dbNow := 0

/-- Its lease. -/
def leaseOf (job : String) : Lease :=
  { jobName := job, workstream := "paper", ownerId := job, runId := job, fencingToken := 1,
    status := .held, expiresAt := 1000000 }

/-- A position of a hedge strategy, below its stop loss. -/
def hedgedDb : Db where
  accounts := .ofRows [{ id := "account_id", brokerAccountId := "id" }]
  snapshots := .ofRows [
    { id := "snapshot", accountId := "account_id", observedAt := 0,
      snapshotFingerprint := "portfolio", structuralPortfolioFingerprint := some "structure" }]
  allocations := .ofRows [{ id := "alloc", accountId := "account_id", strategyKey := "hedge" }]
  intents := .ofRows [
    { id := "open", accountId := "account_id", executionReviewId := some "r1",
      clientOrderId := "c1", strategyKey := "hedge", symbol := "XYZ", status := .reconciled,
      lifecycleState := .positionReconciled }]
  orders := .ofRows [
    { id := "order", accountId := "account_id", orderIntentId := "open", clientOrderId := "c1",
      symbol := "XYZ", status := "filled" }]
  positions := .ofRows [
    { stockPosition with accountId := "account_id", openingOrderId := some "order" }]
  leases := .ofRows [leaseOf "exit-review", leaseOf "hedge-exit", leaseOf "reconciliation"]

/-- The exit review reads the position. -/
def exitRead : ExitAct := .read (worker "exit-review") exitMarketData exitRequest

/-- The account a little later, its portfolio changed. -/
def moved : AuthorityBrokerSnapshot :=
  let snapshot := observed [] 2000
  { snapshot with portfolioFingerprint := "moved" }

/-- The request of the hedge exit review. -/
def hedgeExitRequest : ExitReviewRequest :=
  { exitRequest with command := .hedgeExitReview }

/-- A new account snapshot, and the hedge exit review. -/
def hedgeActs : List ExitAct :=
  [.system (.sync (worker "reconciliation") moved .accountSnapshot),
    .read (worker "hedge-exit") exitMarketData hedgeExitRequest]

/-- The number of live exits of the position, their quantity, and what the positions have. -/
def exitsOf (acts : List ExitAct) : Option (Nat × ℚ × List (String × Option ℚ)) :=
  (runActs (@ExitSys.step lastFirst) { sys := Sys.idle hedgedDb } acts).map fun s ↦
    ((liveExits s.sys.db "stock").length, exitQuantity s.sys.db "stock",
      s.sys.db.positions.rows.map fun p ↦ (p.id, p.availableQuantity))

theorem hedgedDb_liveExits (positionId : String) : liveExits hedgedDb positionId = [] := by
  refine List.filter_eq_nil_iff.2 fun i hi ↦ ?_
  obtain rfl := List.mem_singleton.1 hi
  simp [Intent.liveExitOf]

theorem hedgedDb_sound : ExitSys.Sound { sys := Sys.idle hedgedDb } := by
  refine ⟨Sys.idle_valid _, ⟨fun positionId ↦ ?_, by decide, by decide⟩, fun run hrun ↦ by cases hrun⟩
  change (liveExits hedgedDb positionId).length ≤ 1
  rw [hedgedDb_liveExits]
  exact Nat.zero_le 1

theorem hedgedDb_covered : CoveredExits hedgedDb := by
  intro p hp
  obtain rfl := List.mem_singleton.1 hp
  rw [exitQuantity, hedgedDb_liveExits]
  decide

end Specimen

/-- The theorem at the specimen: the exit review alone. -/
theorem specimen_exit_single :
    ∃ s, runActs (@ExitSys.step Specimen.lastFirst) { sys := Sys.idle Specimen.hedgedDb }
        [Specimen.exitRead, .store 0 0] = some s ∧
      (liveExits s.sys.db "stock").length = 1 ∧ SingleExits s.sys.db ∧ CoveredExits s.sys.db := by
  have hrun : Specimen.exitsOf [Specimen.exitRead, .store 0 0] =
      some (1, 10, [("stock", some 10)]) := by
    decide +kernel
  obtain ⟨s, hs, hexits⟩ := Option.map_eq_some_iff.1 hrun
  have hguard := @read_store_guarded Specimen.lastFirst (Sys.idle Specimen.hedgedDb)
    (Specimen.worker "exit-review") Specimen.exitMarketData Specimen.exitRequest 0
  obtain ⟨hsingle, hcovered⟩ := @exits_stay_single Specimen.lastFirst _ _ _
    Specimen.hedgedDb_sound (hguard.mono fun _ _ ↦ And.left) hs
  exact ⟨s, hs, congrArg Prod.fst hexits, hsingle,
    hcovered Specimen.hedgedDb_covered (hguard.mono fun _ _ ↦ And.right)⟩

/-- Both reviews store their exit: two are live, for twice what the position has. -/
theorem overlapping_reviews_double_exit :
    ExitSys.Sound { sys := Sys.idle Specimen.hedgedDb } ∧ CoveredExits Specimen.hedgedDb ∧
      ∃ s, runActs (@ExitSys.step Specimen.lastFirst) { sys := Sys.idle Specimen.hedgedDb }
          (Specimen.exitRead :: Specimen.hedgeActs ++ [.store 0 0, .store 1 0]) = some s ∧
        ¬ SingleExits s.sys.db ∧ ¬ CoveredExits s.sys.db := by
  refine ⟨Specimen.hedgedDb_sound, Specimen.hedgedDb_covered, ?_⟩
  have hrun : Specimen.exitsOf (Specimen.exitRead :: Specimen.hedgeActs ++
      [.store 0 0, .store 1 0]) = some (2, 20, [("stock", some 10)]) := by
    decide +kernel
  obtain ⟨s, hs, hexits⟩ := Option.map_eq_some_iff.1 hrun
  obtain ⟨hlength, hrest⟩ := Prod.mk.inj hexits
  obtain ⟨hquantity, havailable⟩ := Prod.mk.inj hrest
  refine ⟨s, hs, fun hsingle ↦ ?_, fun hcovered ↦ ?_⟩
  · have hle := hsingle "stock"
    omega
  · obtain ⟨p, hrows, hp⟩ := List.map_eq_singleton_iff.1 havailable
    have hmem : p ∈ s.sys.db.positions.rows := by rw [hrows]; exact List.mem_singleton_self p
    have hle := hcovered p hmem
    rw [(Prod.mk.inj hp).1, (Prod.mk.inj hp).2, hquantity] at hle
    exact absurd hle (by decide)

end AlpacaTrading
