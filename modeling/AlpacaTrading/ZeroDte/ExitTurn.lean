import AlpacaTrading.ZeroDte.Exit
import Mathlib.Data.String.Basic

/-!
# The turn of an exit

A trade that is marked has one turn in a pass.  It closes if the time of its mark is the time of its
last exit request in the log, which is what the turn compares, and if the broker has filled the
order.

## The invariant

`Sound` says of every marked trade that its last request is of the time of its mark, and of every
trade that is not closed that its exit has told no more than its quantity and has no outcome.  An
order of an execution keeps this exactly when it `OrderFits`; a trade's turn in a pass keeps it
always.  Both are moves of one trade (`Moved`): no other trade, no event about another trade and no
outcome of another trade changes.
-/

namespace AlpacaTrading

namespace ZeroDte

section Moves

variable [Hashing] {tells : ExitEventRow → Prop} {t t' t'' u : PaperTradeRow}
  {db db' db'' : ExitDb}

/-! ## Moves of one trade -/

/-- The row of one trade becomes another one, only events about the trade that `tells` allows are
stored, and only outcomes of the trade are. -/
structure Moved (tells : ExitEventRow → Prop) (t t' : PaperTradeRow) (db db' : ExitDb) :
    Prop where
  engineRuns : db'.engineRuns = db.engineRuns
  configurationVersions : db'.configurationVersions = db.configurationVersions
  candidateIds : db'.candidateIds = db.candidateIds
  decisions : db'.decisions = db.decisions
  paperTradeId : t'.paperTradeId = t.paperTradeId
  decisionId : t'.decisionId = t.decisionId
  candidateId : t'.candidateId = t.candidateId
  quantity : t'.quantity = t.quantity
  trades : ∀ r, r ∈ db'.trades.rows ↔
    r = t' ∨ (r ∈ db.trades.rows ∧ r.paperTradeId ≠ t.paperTradeId)
  events : ∃ es, db'.events.rows = db.events.rows ++ es ∧
    ∀ e ∈ es, tells e ∧ e.paperTradeId = t.paperTradeId
  outcomes : ∃ os, db'.outcomes.rows = db.outcomes.rows ++ os ∧
    ∀ o ∈ os, o.paperTradeId = t.paperTradeId ∧ o.outcomeId = exitOutcomeId t.paperTradeId

omit [Hashing] in
/-- Stored trades with one identifier are one trade. -/
theorem trade_eq {r : PaperTradeRow} (hr : r ∈ db.trades.rows) (ht : t ∈ db.trades.rows)
    (h : r.paperTradeId = t.paperTradeId) : r = t :=
  db.trades.eq_of_key hr ht h

omit [Hashing] in
theorem mem_trades_iff (ht : t ∈ db.trades.rows) (r : PaperTradeRow) :
    r ∈ db.trades.rows ↔ r = t ∨ (r ∈ db.trades.rows ∧ r.paperTradeId ≠ t.paperTradeId) := by
  constructor
  · intro hr
    by_cases h : r.paperTradeId = t.paperTradeId
    · exact Or.inl (trade_eq hr ht h)
    · exact Or.inr ⟨hr, h⟩
  · rintro (rfl | ⟨hr, _⟩)
    · exact ht
    · exact hr

theorem Moved.refl (ht : t ∈ db.trades.rows) : Moved tells t t db db where
  engineRuns := rfl
  configurationVersions := rfl
  candidateIds := rfl
  decisions := rfl
  paperTradeId := rfl
  decisionId := rfl
  candidateId := rfl
  quantity := rfl
  trades := mem_trades_iff ht
  events := ⟨[], (List.append_nil _).symm, fun _ h ↦ absurd h List.not_mem_nil⟩
  outcomes := ⟨[], (List.append_nil _).symm, fun _ h ↦ absurd h List.not_mem_nil⟩

theorem Moved.trans (h : Moved tells t t' db db') (h' : Moved tells t' t'' db' db'') :
    Moved tells t t'' db db'' where
  engineRuns := h'.engineRuns.trans h.engineRuns
  configurationVersions := h'.configurationVersions.trans h.configurationVersions
  candidateIds := h'.candidateIds.trans h.candidateIds
  decisions := h'.decisions.trans h.decisions
  paperTradeId := h'.paperTradeId.trans h.paperTradeId
  decisionId := h'.decisionId.trans h.decisionId
  candidateId := h'.candidateId.trans h.candidateId
  quantity := h'.quantity.trans h.quantity
  trades := by
    intro r
    rw [h'.trades r, h.trades r, h.paperTradeId]
    constructor
    · rintro (rfl | ⟨rfl | hr, hne⟩)
      · exact Or.inl rfl
      · exact absurd h.paperTradeId hne
      · exact Or.inr hr
    · rintro (rfl | ⟨hr, hne⟩)
      · exact Or.inl rfl
      · exact Or.inr ⟨Or.inr ⟨hr, hne⟩, hne⟩
  events := by
    obtain ⟨es, hrows, hes⟩ := h.events
    obtain ⟨es', hrows', hes'⟩ := h'.events
    refine ⟨es ++ es', by rw [hrows', hrows, List.append_assoc], fun e he ↦ ?_⟩
    rcases List.mem_append.1 he with he | he
    · exact hes e he
    · exact ⟨(hes' e he).1, (hes' e he).2.trans h.paperTradeId⟩
  outcomes := by
    obtain ⟨os, hrows, hos⟩ := h.outcomes
    obtain ⟨os', hrows', hos'⟩ := h'.outcomes
    refine ⟨os ++ os', by rw [hrows', hrows, List.append_assoc], fun o ho ↦ ?_⟩
    rcases List.mem_append.1 ho with ho | ho
    · exact hos o ho
    · exact h.paperTradeId ▸ hos' o ho

/-- The trade is stored after its move. -/
theorem Moved.mem (h : Moved tells t t' db db') : t' ∈ db'.trades.rows :=
  (h.trades t').2 (Or.inl rfl)

/-- What can be linked does not depend on the move. -/
theorem Moved.checkEventLinkage (h : Moved tells t t' db db') (r : PaperTradeRow)
    (decision : DecisionRow) :
    checkEventLinkage db' r decision = checkEventLinkage db r decision := by
  rw [ZeroDte.checkEventLinkage, ZeroDte.checkEventLinkage, h.engineRuns,
    h.configurationVersions, h.candidateIds]

/-! ## The moves of the statements -/

/-- An update of the row of one trade. -/
theorem moved_update {p : PaperTradeRow → Bool} {f : PaperTradeRow → PaperTradeRow}
    {hf : Keeps f} (ht : t ∈ db.trades.rows) (hp : ∀ r ∈ db.trades.rows, p r = true ↔ r = t)
    (hdecision : (f t).decisionId = t.decisionId) (hcandidate : (f t).candidateId = t.candidateId)
    (hquantity : (f t).quantity = t.quantity) :
    Moved tells t (f t) db { db with trades := db.trades.update p f hf } where
  engineRuns := rfl
  configurationVersions := rfl
  candidateIds := rfl
  decisions := rfl
  paperTradeId := hf.key t
  decisionId := hdecision
  candidateId := hcandidate
  quantity := hquantity
  trades := by
    intro r
    change r ∈ (db.trades.update p f hf).rows ↔ _
    rw [Table.mem_update]
    constructor
    · rintro ⟨y, hy, rfl⟩
      by_cases hsel : p y = true
      · rw [if_pos hsel, (hp y hy).1 hsel]
        exact Or.inl rfl
      · rw [if_neg hsel]
        exact Or.inr ⟨hy, fun hid ↦ hsel ((hp y hy).2 (trade_eq hy ht hid))⟩
    · rintro (rfl | ⟨hr, hne⟩)
      · exact ⟨t, ht, if_pos ((hp t ht).2 rfl)⟩
      · refine ⟨r, hr, if_neg fun hsel ↦ hne ?_⟩
        rw [(hp r hr).1 hsel]
  events := ⟨[], (List.append_nil _).symm, fun _ h ↦ absurd h List.not_mem_nil⟩
  outcomes := ⟨[], (List.append_nil _).symm, fun _ h ↦ absurd h List.not_mem_nil⟩

/-- A change of the ledger. -/
theorem moved_ledger (ht : t ∈ db.trades.rows) (ledger : Table LedgerRow) :
    Moved tells t t db { db with ledger } :=
  { (Moved.refl ht : Moved tells t t db db) with }

theorem updateLedger_moved (tells : ExitEventRow → Prop) (ht : t ∈ db.trades.rows) (id : ℕ) (status : LedgerStatus)
    (alpacaOrderId alpacaStatus requestId reason : Option String) :
    Moved tells t t db (updateLedger db id status alpacaOrderId alpacaStatus requestId reason) :=
  moved_ledger ht _

omit [Hashing] in
/-- The ledger is all that `ensureExitLedger` changes. -/
theorem ensureExitLedger_ledger {trade : PaperTradeRow} {details : ExitOrderDetails}
    {status : LedgerStatus} {brokerStatus : Option String} {result : ExitDb × ℕ × Bool}
    (h : ensureExitLedger db trade details status brokerStatus = .ok result) :
    ∃ ledger, result.1 = { db with ledger } := by
  rw [ensureExitLedger] at h
  split at h
  · split at h
    · cases h
    · obtain rfl := Except.ok.inj h
      exact ⟨_, rfl⟩
  · obtain ⟨_, _, h⟩ := bind_eq_ok.1 h
    obtain ⟨_, _, h⟩ := bind_eq_ok.1 h
    obtain rfl := Except.ok.inj h
    -- Both branches of the linkage change the ledger only.
    split
    · exact ⟨_, rfl⟩
    · exact ⟨_, rfl⟩

/-- An event of the trade. -/
theorem appendExitEvent_moved {eventType : EventType} {decision : DecisionRow} {time : Time}
    {reasonCode : String} {details : ExitEventDetails} (hu : u ∈ db.trades.rows)
    (hid : u.paperTradeId = t.paperTradeId)
    (htells : ∀ eventId, tells
      { eventId, eventType, reasonCode, paperTradeId := t.paperTradeId, occurredAt := time, details })
    (h : appendExitEvent db eventType t decision time reasonCode details = .ok db') :
    Moved tells u u db db' := by
  rw [appendExitEvent.eq_def] at h
  dsimp only at h
  split at h
  · obtain rfl := Except.ok.inj h
    exact Moved.refl hu
  · next events hinsert =>
    obtain ⟨_, _, h⟩ := bind_eq_ok.1 h
    obtain rfl := Except.ok.inj h
    refine { (Moved.refl hu : Moved tells u u db db) with
      events := ⟨[_], Table.rows_of_insert? hinsert, fun e he ↦ ?_⟩ }
    obtain rfl := List.mem_singleton.1 he
    exact ⟨htells _, hid.symm⟩

theorem appendExitEvent_outcomes {eventType : EventType} {decision : DecisionRow} {time : Time}
    {reasonCode : String} {details : ExitEventDetails}
    (h : appendExitEvent db eventType t decision time reasonCode details = .ok db') :
    db'.outcomes = db.outcomes := by
  rw [appendExitEvent.eq_def] at h
  dsimp only at h
  split at h
  · obtain rfl := Except.ok.inj h
    rfl
  · obtain ⟨_, _, h⟩ := bind_eq_ok.1 h
    obtain rfl := Except.ok.inj h
    rfl

/-- An event that can be linked is stored, or was. -/
theorem appendExitEvent_isOk {decision : DecisionRow} (eventType : EventType) (time : Time)
    (reasonCode : String) (details : ExitEventDetails)
    (hlinked : checkEventLinkage db t decision = .ok ()) :
    ∃ db', appendExitEvent db eventType t decision time reasonCode details = .ok db' := by
  rw [appendExitEvent.eq_def]
  dsimp only
  split
  · exact ⟨db, rfl⟩
  · exact ⟨_, bind_eq_ok.2 ⟨(), hlinked, rfl⟩⟩

end Moves

/-! ## The invariant -/

section Invariant

variable [Hashing] {tells : ExitEventRow → Prop} {t t' : PaperTradeRow} {db db' : ExitDb}

/-- The last exit request of the trade is of the time of its mark. -/
def Current (db : ExitDb) (t : PaperTradeRow) : Prop :=
  ∃ now, t.exitRequestedAt = some now ∧
    (∃ e ∈ exitRequests db t.paperTradeId, e.occurredAt = now) ∧
    ∀ e ∈ exitRequests db t.paperTradeId, e.occurredAt ≤ now

/-- The event tells a fill of the exit of the trade. -/
def TellsExitFill (e : ExitEventRow) : Prop :=
  (e.eventType = .paperOrderPartiallyFilled ∨ e.eventType = .paperOrderFilled) ∧
    e.details.action = some "exit"

/-- The 'paper_trade' outcomes of a trade. -/
def paperOutcomes (db : ExitDb) (paperTradeId : String) : List OutcomeRow :=
  db.outcomes.rows.filter fun o ↦ o.paperTradeId = paperTradeId ∧ o.outcomeType = "paper_trade"

/-- The invariant of the exits. -/
structure Sound (db : ExitDb) : Prop where
  /-- The identifiers of the outcomes tell the trades apart. -/
  distinct : ∀ t ∈ db.trades.rows, ∀ u ∈ db.trades.rows,
    exitOutcomeId t.paperTradeId = exitOutcomeId u.paperTradeId → t.paperTradeId = u.paperTradeId
  /-- The events of a trade that is not closed can be linked. -/
  linked : ∀ t ∈ db.trades.rows, t.status ≠ .closed →
    ∃ decision, db.decisions.get? t.decisionId = some decision ∧
      checkEventLinkage db t decision = .ok ()
  current : ∀ t ∈ db.trades.rows, t.status = .exitRequested → Current db t
  /-- A trade that is not closed has no outcome of its exit. -/
  unsettled : ∀ t ∈ db.trades.rows, t.status ≠ .closed → ∀ o ∈ db.outcomes.rows,
    o.outcomeId ≠ exitOutcomeId t.paperTradeId ∧
      ¬ (o.paperTradeId = t.paperTradeId ∧ o.outcomeType = "paper_trade")
  /-- No more than its quantity is told to be filled. -/
  filled : ∀ t ∈ db.trades.rows, t.status ≠ .closed → ∀ e ∈ db.events.rows,
    e.paperTradeId = t.paperTradeId → TellsExitFill e →
      ∀ q ∈ e.details.filledQuantity, q ≤ t.quantity

/-- What is kept of a trade while other trades move. -/
structure KeptTrade (paperTradeId : String) (db db' : ExitDb) : Prop where
  trade : ∀ r, r.paperTradeId = paperTradeId → (r ∈ db'.trades.rows ↔ r ∈ db.trades.rows)
  outcomes : paperOutcomes db' paperTradeId = paperOutcomes db paperTradeId
  requests : exitRequests db' paperTradeId = exitRequests db paperTradeId

omit [Hashing] in
theorem KeptTrade.refl (paperTradeId : String) (db : ExitDb) : KeptTrade paperTradeId db db :=
  ⟨fun _ _ ↦ Iff.rfl, rfl, rfl⟩

omit [Hashing] in
theorem KeptTrade.trans {paperTradeId : String} {db'' : ExitDb} (h : KeptTrade paperTradeId db db')
    (h' : KeptTrade paperTradeId db' db'') : KeptTrade paperTradeId db db'' :=
  ⟨fun r hr ↦ (h'.trade r hr).trans (h.trade r hr), h'.outcomes.trans h.outcomes,
    h'.requests.trans h.requests⟩

/-- A move keeps every other trade. -/
theorem Moved.kept (h : Moved tells t t' db db') {paperTradeId : String}
    (hne : paperTradeId ≠ t.paperTradeId) : KeptTrade paperTradeId db db' where
  trade := by
    intro r hr
    rw [h.trades r]
    constructor
    · rintro (rfl | ⟨hmem, _⟩)
      · exact absurd (hr.symm.trans h.paperTradeId) hne
      · exact hmem
    · intro hmem
      exact Or.inr ⟨hmem, hr ▸ hne⟩
  outcomes := by
    obtain ⟨os, hrows, hos⟩ := h.outcomes
    rw [paperOutcomes, paperOutcomes, hrows, List.filter_append, List.append_right_eq_self,
      List.filter_eq_nil_iff]
    intro o ho
    simp [(hos o ho).1, Ne.symm hne]
  requests := by
    obtain ⟨es, hrows, hes⟩ := h.events
    rw [exitRequests, exitRequests, hrows, List.filter_append, List.append_right_eq_self,
      List.filter_eq_nil_iff]
    intro e he
    simp [(hes e he).2, Ne.symm hne]

/-- A move that tells no request leaves those of its trade. -/
theorem Moved.requests_eq (h : Moved tells t t' db db')
    (htells : ∀ e, tells e → e.eventType ≠ .exitOrderRequested) (paperTradeId : String) :
    exitRequests db' paperTradeId = exitRequests db paperTradeId := by
  obtain ⟨es, hrows, hes⟩ := h.events
  rw [exitRequests, exitRequests, hrows, List.filter_append, List.append_right_eq_self,
    List.filter_eq_nil_iff]
  intro e he
  simp [htells e (hes e he).1]

/-- **The step rule.**  A move keeps the invariant if it does for the trade that moves: its mark is
current, what is told of it does not exceed its quantity, and it is closed if it has an outcome. -/
theorem Sound.moved (hsound : Sound db)
    (ht : t ∈ db.trades.rows) (h : Moved tells t t' db db') (hopen : t.status ≠ .closed)
    (hcurrent : t'.status = .exitRequested → Current db' t')
    (htells : ∀ e, tells e → TellsExitFill e → ∀ q ∈ e.details.filledQuantity, q ≤ t.quantity)
    (houtcomes : t'.status ≠ .closed → db'.outcomes = db.outcomes) : Sound db' where
  distinct := by
    have hold : ∀ r ∈ db'.trades.rows, ∃ u ∈ db.trades.rows, u.paperTradeId = r.paperTradeId := by
      intro r hr
      rcases (h.trades r).1 hr with rfl | ⟨hr, _⟩
      · exact ⟨t, ht, h.paperTradeId.symm⟩
      · exact ⟨r, hr, rfl⟩
    intro r hr u hu heq
    obtain ⟨r₀, hr₀, hrid⟩ := hold r hr
    obtain ⟨u₀, hu₀, huid⟩ := hold u hu
    rw [← hrid, ← huid] at heq ⊢
    exact hsound.distinct r₀ hr₀ u₀ hu₀ heq
  linked := by
    intro r hr hstatus
    rw [h.decisions]
    rcases (h.trades r).1 hr with rfl | ⟨hr, _⟩
    · obtain ⟨decision, hdecision, hlinked⟩ := hsound.linked t ht hopen
      refine ⟨decision, h.decisionId ▸ hdecision, ?_⟩
      rw [h.checkEventLinkage, ← hlinked, checkEventLinkage, checkEventLinkage, h.candidateId]
    · obtain ⟨decision, hdecision, hlinked⟩ := hsound.linked r hr hstatus
      exact ⟨decision, hdecision, by rw [h.checkEventLinkage, hlinked]⟩
  current := by
    intro r hr hstatus
    rcases (h.trades r).1 hr with rfl | ⟨hr, hne⟩
    · exact hcurrent hstatus
    · rw [Current, (h.kept hne).requests]
      exact hsound.current r hr hstatus
  unsettled := by
    intro r hr hstatus o ho
    rcases (h.trades r).1 hr with rfl | ⟨hr, hne⟩
    · rw [houtcomes hstatus] at ho
      rw [h.paperTradeId]
      exact hsound.unsettled t ht hopen o ho
    · obtain ⟨os, hrows, hos⟩ := h.outcomes
      rw [hrows] at ho
      rcases List.mem_append.1 ho with ho | ho
      · exact hsound.unsettled r hr hstatus o ho
      · obtain ⟨hid, houtcome⟩ := hos o ho
        refine ⟨?_, fun hboth ↦ hne (hboth.1.symm.trans hid)⟩
        rw [houtcome]
        exact fun heq ↦ hne (hsound.distinct t ht r hr heq).symm
  filled := by
    intro r hr hstatus e he hid hfill q hq
    obtain ⟨es, hrows, hes⟩ := h.events
    rw [hrows] at he
    rcases (h.trades r).1 hr with rfl | ⟨hr, hne⟩
    · rw [h.quantity]
      rcases List.mem_append.1 he with he | he
      · exact hsound.filled t ht hopen e he (hid.trans h.paperTradeId) hfill q hq
      · exact htells e (hes e he).1 hfill q hq
    · rcases List.mem_append.1 he with he | he
      · exact hsound.filled r hr hstatus e he hid hfill q hq
      · exact absurd (hid.symm.trans (hes e he).2) hne

end Invariant

/-! ## What the broker has said -/

section Validated

variable {t : PaperTradeRow} {details : ExitOrderDetails} {order : BrokerOrder} {asOf : Time}
  {state : ExitBrokerState}

theorem exitKind_filled {status : String} {given : Bool} {filledQuantity requestedQuantity : ℤ}
    (h : exitKind status given filledQuantity requestedQuantity = .ok .filled) :
    filledQuantity = requestedQuantity := by
  rw [exitKind] at h
  split at h
  · split at h
    · cases h
    · next hcomplete => simp_all
  · split at h
    · split at h <;> cases h
    · split at h
      · split at h <;> cases h
      · split at h
        · split at h
          · cases h
          · by_cases heq : filledQuantity = requestedQuantity
            · exact heq
            · rw [if_neg heq] at h
              cases h
        · cases h

/-- What a state that passes the validation says of the quantities. -/
theorem validated_quantities (h : validatedExitBrokerState t details order asOf = .ok state) :
    0 < t.quantity ∧ state.filledQuantity ≤ t.quantity ∧
      (0 < state.filledQuantity → ∃ fill, state.fill = some fill) ∧
      (state.kind = .filled → state.filledQuantity = t.quantity) := by
  rw [validatedExitBrokerState] at h
  obtain ⟨_, _, h⟩ := bind_eq_ok.1 h
  obtain ⟨_, _, h⟩ := bind_eq_ok.1 h
  obtain ⟨_, _, h⟩ := bind_eq_ok.1 h
  obtain ⟨_, _, h⟩ := bind_eq_ok.1 h
  obtain ⟨_, _, h⟩ := bind_eq_ok.1 h
  obtain ⟨_, hquantity, h⟩ := bind_eq_ok.1 h
  obtain ⟨_, _, h⟩ := bind_eq_ok.1 h
  have hpositive : 0 < t.quantity := by
    have hboth := check_eq_ok.1 hquantity
    rw [Bool.and_eq_true] at hboth
    exact of_decide_eq_true hboth.2
  dsimp only at h
  split at h
  · cases h
  · next q hq =>
    obtain ⟨kind, hkind, h⟩ := bind_eq_ok.1 h
    obtain ⟨fill, hfill, h⟩ := bind_eq_ok.1 h
    obtain rfl := Except.ok.inj h
    have hbounds := (Option.filter_eq_some_iff.1 hq).2
    rw [Bool.and_eq_true, Bool.and_eq_true] at hbounds
    obtain ⟨⟨hden, _⟩, hle⟩ := hbounds
    have hnum : ((q.num : ℤ) : ℚ) = q := Rat.den_eq_one_iff q |>.1 (of_decide_eq_true hden)
    refine ⟨hpositive, ?_, ?_, ?_⟩
    · have hcast : q ≤ t.quantity := of_decide_eq_true hle
      rw [← hnum] at hcast
      exact_mod_cast hcast
    · intro hsome
      rw [if_pos hsome] at hfill
      rcases hexit : exitFill t details order asOf with e | f
      · rw [hexit] at hfill
        cases hfill
      · rw [hexit] at hfill
        exact ⟨f, (Except.ok.inj hfill).symm⟩
    · intro hfilled
      rw [show kind = .filled from hfilled] at hkind
      exact exitKind_filled hkind

end Validated

/-! ## The order of a trade -/

section Order

variable {db : ExitDb} {t : PaperTradeRow} {details : ExitOrderDetails}

/-- The last exit request is not earlier than any other. -/
theorem occurredAt_le_latest {e latest : ExitEventRow} {paperTradeId : String}
    (hlatest : latestExitRequest db paperTradeId = some latest)
    (he : e ∈ exitRequests db paperTradeId) : e.occurredAt ≤ latest.occurredAt := by
  rw [latestExitRequest] at hlatest
  have hfirst := firstBy_precedes (fun a b c hab hbc ↦ ?_) (fun a ha b hb hab ↦ ?_) hlatest e he
  · rcases hfirst with rfl | hfirst
    · exact le_refl _
    · rcases of_decide_eq_true hfirst with hlt | ⟨heq, _⟩
      · exact hlt.le
      · exact heq.ge
  · -- Times first, then identifiers.
    simp only [decide_eq_true_eq] at hab hbc ⊢
    rcases hab with hab | ⟨hab, hid⟩ <;> rcases hbc with hbc | ⟨hbc, hid'⟩
    · exact Or.inl (hbc.trans hab)
    · exact Or.inl (hbc ▸ hab)
    · exact Or.inl (hab ▸ hbc)
    · exact Or.inr ⟨hab.trans hbc, hid'.trans hid⟩
  · simp only [decide_eq_true_eq, not_or, not_lt, not_and] at hab ⊢
    rcases lt_or_eq_of_le hab.1 with hlt | heq
    · exact Or.inr (Or.inl hlt)
    · rcases lt_trichotomy a.eventId b.eventId with hid | hid | hid
      · exact Or.inr (Or.inr ⟨heq.symm, hid⟩)
      · exact Or.inl (db.events.eq_of_key (List.mem_of_mem_filter ha) (List.mem_of_mem_filter hb) hid)
      · exact absurd hid (hab.2 heq)

/-- The mark of a current trade is of the time a pass reads from the log. -/
theorem Current.exitRequestedAt (h : Current db t)
    (hdetails : exitOrderDetailsForTrade db t.paperTradeId = .ok details) :
    t.exitRequestedAt = some details.occurredAt := by
  obtain ⟨now, hnow, ⟨e, he, hetime⟩, hall⟩ := h
  rw [exitOrderDetailsForTrade] at hdetails
  split at hdetails
  · cases hdetails
  · next latest hlatest =>
    have hmem : latest ∈ exitRequests db t.paperTradeId := mem_of_firstBy hlatest
    have htime : latest.occurredAt = now :=
      le_antisymm (hall latest hmem) (hetime ▸ occurredAt_le_latest hlatest he)
    split at hdetails
    · obtain rfl := Except.ok.inj hdetails
      rw [hnow, htime]
    · cases hdetails

end Order

/-! ## The turn of a trade -/

section Turn

variable [Hashing] {pass : ExitPass} {db db' : ExitDb} {t : PaperTradeRow} {decision : DecisionRow}
  {details : ExitOrderDetails} {order : BrokerOrder} {state : ExitBrokerState}

/-- The time of an answer, for the pass. -/
def ExitPass.observedAt (pass : ExitPass) (t : PaperTradeRow) (details : ExitOrderDetails) :
    Time :=
  max (pass.getOrder t.paperTradeId details.brokerOrderId).observedAt pass.initialAsOf

/-- The pass has validated the state of the current exit order of the trade, in an active
transaction and against the ledger. -/
structure Validates (pass : ExitPass) (db : ExitDb) (t : PaperTradeRow)
    (details : ExitOrderDetails) (order : BrokerOrder) (state : ExitBrokerState) : Prop where
  requested : exitOrderDetailsForTrade db t.paperTradeId = .ok details
  answered : (pass.getOrder t.paperTradeId details.brokerOrderId).response = .ok order
  validated : validatedExitBrokerState t details order (pass.observedAt t details) = .ok state
  fence : (pass.getOrder t.paperTradeId details.brokerOrderId).fenceActive = true
  ledger : ∃ result, ensureExitLedger db t details (reconciledLedgerStatus state)
    (some state.brokerStatus) = .ok result

/-- A full fill. -/
def ValidatesFill (pass : ExitPass) (db : ExitDb) (t : PaperTradeRow) : Prop :=
  ∃ details order state, Validates pass db t details order state ∧ state.kind = .filled

/-- A terminal order without a fill. -/
def ValidatesNoFill (pass : ExitPass) (db : ExitDb) (t : PaperTradeRow) : Prop :=
  ∃ details order state, Validates pass db t details order state ∧ state.kind = .terminal ∧
    state.filledQuantity ≤ 0

/-- The trade is closed and has one outcome, which is that of its row. -/
def ClosedWith (db : ExitDb) (t : PaperTradeRow) : Prop :=
  t.status = .closed ∧ ∃ o, paperOutcomes db t.paperTradeId = [o] ∧
    o.terminalPrice = t.exitPremium ∧ o.realizedPnl = t.realizedPnl ∧ o.returnPct = t.returnPct

/-- What a turn tells. -/
def TurnTells (t : PaperTradeRow) (e : ExitEventRow) : Prop :=
  e.eventType ≠ .exitOrderRequested ∧
    (TellsExitFill e → ∀ q ∈ e.details.filledQuantity, q ≤ t.quantity)

omit [Hashing] in
theorem turnTells_of (e : ExitEventRow) (htype : e.eventType ≠ .exitOrderRequested)
    (hquantity : ∀ q ∈ e.details.filledQuantity, q ≤ t.quantity) : TurnTells t e :=
  ⟨htype, fun _ ↦ hquantity⟩

/-- What has been told does not exceed a full fill. -/
theorem priorFill_le (hsound : Sound db) (ht : t ∈ db.trades.rows) (hopen : t.status ≠ .closed) :
    (priorFill db t.paperTradeId).all (· ≤ t.quantity) = true := by
  rw [Option.all_eq_true]
  intro q hq
  obtain ⟨e, he, hfilled⟩ := List.mem_filterMap.1 (List.max?_mem hq)
  obtain ⟨hmem, hcond⟩ := List.mem_filter.1 he
  obtain ⟨hid, htype, haction⟩ := of_decide_eq_true hcond
  exact decide_eq_true (hsound.filled t ht hopen e hmem hid ⟨htype, haction⟩ q hfilled)

/-- A turn that succeeds has validated a state and applies it. -/
theorem reconcileExit_ok (h : reconcileExit pass db t decision = .ok db') :
    ∃ details order state, exitOrderDetailsForTrade db t.paperTradeId = .ok details ∧
      (pass.getOrder t.paperTradeId details.brokerOrderId).response = .ok order ∧
      validatedExitBrokerState t details order (pass.observedAt t details) = .ok state ∧
      (pass.getOrder t.paperTradeId details.brokerOrderId).fenceActive = true ∧
      applyExitState db t decision details state order.requestId (pass.observedAt t details) =
        .ok db' := by
  rw [reconcileExit] at h
  obtain ⟨details, hdetails, h⟩ := bind_eq_ok.1 h
  obtain ⟨order, hresponse, h⟩ := bind_eq_ok.1 h
  obtain ⟨state, hstate, h⟩ := bind_eq_ok.1 h
  obtain ⟨_, hfence, h⟩ := bind_eq_ok.1 h
  exact ⟨details, order, state, hdetails, hresponse, hstate, check_eq_ok.1 hfence, h⟩

theorem Validates.reconcileExit (h : Validates pass db t details order state) :
    reconcileExit pass db t decision =
      applyExitState db t decision details state order.requestId (pass.observedAt t details) := by
  rw [ZeroDte.reconcileExit, h.requested]
  change ((pass.getOrder t.paperTradeId details.brokerOrderId).response >>= _) = _
  rw [h.answered]
  change (validatedExitBrokerState t details order (pass.observedAt t details) >>= _) = _
  rw [h.validated]
  change (check (pass.getOrder t.paperTradeId details.brokerOrderId).fenceActive _ >>= _) = _
  rw [h.fence]
  rfl

/-- The turn of a marked trade passes the checks of its transaction up to the fill's. -/
theorem applyExitState_eq (hsound : Sound db) (ht : t ∈ db.trades.rows)
    (hmarked : t.status = .exitRequested)
    (hdetails : exitOrderDetailsForTrade db t.paperTradeId = .ok details)
    (requestId : Option String) (observedAt : Time) :
    applyExitState db t decision details state requestId observedAt = (do
      check ((priorFill db t.paperTradeId).all (· ≤ state.filledQuantity))
        (.message "EXIT_BROKER_FILL_QUANTITY_REGRESSION")
      let (db, ledgerId, _) ← ensureExitLedger db t details (reconciledLedgerStatus state)
        (some state.brokerStatus)
      match state.kind with
      | .pending => .ok db
      | .partially =>
        applyPartialFill db ledgerId t decision details state requestId observedAt
      | .terminal =>
        if 0 < state.filledQuantity then
          applyPartialFill db ledgerId t decision details state requestId observedAt
        else applyTerminal db ledgerId t decision details state requestId observedAt
      | .filled => applyFill db t decision details state observedAt) := by
  have hget : db.trades.get? t.paperTradeId = some t := Table.get?_of_mem ht
  have hmark := (hsound.current t ht hmarked).exitRequestedAt hdetails
  have hstatus : (t.status == PaperTradeStatus.exitRequested) = true := by rw [hmarked]; rfl
  have hsame : (sameExitOrderRequest details details &&
      t.exitRequestedAt == some details.occurredAt) = true := by
    rw [hmark, sameExitOrderRequest]
    simp
  rw [applyExitState.eq_def]
  simp only [hget]
  rw [if_neg (by rw [hmarked]; decide), hstatus, hdetails]
  change (check (sameExitOrderRequest details details &&
    t.exitRequestedAt == some details.occurredAt) _ >>= _) = _
  rw [hsame]
  rfl

omit [Hashing] in
/-- The rows that the statements of the reconciliation select. -/
theorem isMarked_iff (ht : t ∈ db.trades.rows) (hmarked : t.status = .exitRequested) :
    ∀ r ∈ db.trades.rows, decide (r.paperTradeId = t.paperTradeId ∧
      r.status = .exitRequested) = true ↔ r = t := by
  intro r hr
  rw [decide_eq_true_eq]
  constructor
  · intro h
    exact trade_eq hr ht h.1
  · rintro rfl
    exact ⟨rfl, hmarked⟩

omit [Hashing] in
theorem count_isMarked (ht : t ∈ db.trades.rows) (hmarked : t.status = .exitRequested) :
    db.trades.count (fun r ↦ decide (r.paperTradeId = t.paperTradeId ∧
      r.status = .exitRequested)) = 1 := by
  have hone := (Table.count_key_eq_one (t := db.trades) (k := t.paperTradeId)
    (c := fun r ↦ decide (r.status = .exitRequested))).2
      ⟨t, Table.get?_of_mem ht, decide_eq_true hmarked⟩
  simp only [Bool.decide_and]
  exact hone

/-- The statement that closes a marked trade. -/
theorem closeTrade_moved (tells : ExitEventRow → Prop) (ht : t ∈ db.trades.rows)
    (hmarked : t.status = .exitRequested) (fill : ℚ × Time) (observedAt : Time) :
    ∃ db' t', closeTrade db t fill observedAt = .ok db' ∧ Moved tells t t' db db' ∧
      db'.outcomes = db.outcomes ∧ t'.status = .closed ∧ t'.exitPremium = some fill.1 ∧
      t'.realizedPnl = exitRealizedPnl t fill.1 ∧ t'.returnPct = exitReturnPct t fill.1 := by
  rw [closeTrade]
  simp only [count_isMarked ht hmarked, ne_eq, not_true_eq_false, if_false]
  exact ⟨_, _, rfl, moved_update ht (isMarked_iff ht hmarked) rfl rfl rfl, rfl, rfl, rfl, rfl,
    rfl⟩

/-- The statement that opens a marked trade again. -/
theorem reopenTrade_moved (tells : ExitEventRow → Prop) (ht : t ∈ db.trades.rows)
    (hmarked : t.status = .exitRequested) {observedAt : Time}
    (h : reopenTrade db t.paperTradeId observedAt = .ok db') :
    ∃ t', Moved tells t t' db db' ∧ db'.outcomes = db.outcomes ∧ t'.status = .opened := by
  rw [reopenTrade] at h
  simp only [count_isMarked ht hmarked, ne_eq, not_true_eq_false, if_false] at h
  obtain rfl := Except.ok.inj h
  exact ⟨_, moved_update ht (isMarked_iff ht hmarked) rfl rfl rfl, rfl, rfl⟩

/-- The outcome of a trade that has none. -/
theorem recordPaperExitOutcome_moved (tells : ExitEventRow → Prop) (state : ExitBrokerState)
    (details : ExitOrderDetails) (ht : t ∈ db.trades.rows)
    (hnone : ∀ o ∈ db.outcomes.rows, o.outcomeId ≠ exitOutcomeId t.paperTradeId ∧
      ¬ (o.paperTradeId = t.paperTradeId ∧ o.outcomeType = "paper_trade")) (fill : ℚ × Time) :
    ∃ db', recordPaperExitOutcome db (expectedOutcome t state details fill) = .ok (db', true) ∧
      Moved tells t t db db' ∧ db'.trades = db.trades ∧
      db'.outcomes.rows = db.outcomes.rows ++ [expectedOutcome t state details fill] := by
  have hfind : db.outcomes.rows.find? (fun o ↦
      o.outcomeId = (expectedOutcome t state details fill).outcomeId ∨
        (o.paperTradeId = (expectedOutcome t state details fill).paperTradeId ∧
          o.outcomeType = (expectedOutcome t state details fill).outcomeType ∧
          o.horizonMinutes = none)) = none := by
    rw [List.find?_eq_none]
    intro o ho hsel
    obtain ⟨hid, htype⟩ := hnone o ho
    rcases of_decide_eq_true hsel with h | ⟨h, h', _⟩
    · exact hid h
    · exact htype ⟨h, h'⟩
  obtain ⟨outcomes, hinsert⟩ : ∃ outcomes,
      db.outcomes.insert? (expectedOutcome t state details fill) = some outcomes := by
    refine Table.insert?_isSome fun o ho hclash ↦ ?_
    obtain ⟨hid, htype⟩ := hnone o ho
    rcases hclash with h | ⟨h, h', _⟩
    · exact hid h
    · exact htype ⟨h, h'⟩
  refine ⟨{ db with outcomes }, ?_, ?_, rfl, Table.rows_of_insert? hinsert⟩
  · rw [recordPaperExitOutcome.eq_def, hfind]
    simp only [hinsert]
  · refine { (Moved.refl ht : Moved tells t t db db) with
      outcomes := ⟨[_], Table.rows_of_insert? hinsert, fun o ho ↦ ?_⟩ }
    obtain rfl := List.mem_singleton.1 ho
    exact ⟨rfl, rfl⟩

omit [Hashing] in
theorem turnTells_brokerDetails {eventType : EventType} {paperTradeId reasonCode : String}
    {time : Time} (htype : eventType ≠ .exitOrderRequested)
    (hle : state.filledQuantity ≤ t.quantity) (eventId : String) :
    TurnTells t { eventId, eventType, reasonCode, paperTradeId, occurredAt := time,
                  details := brokerDetails details state.filledQuantity } :=
  turnTells_of _ htype fun _ hq ↦ Option.some_inj.1 hq ▸ hle

/-- **A validated full fill closes the trade.** -/
theorem turn_fill (hsound : Sound db) (ht : t ∈ db.trades.rows)
    (hmarked : t.status = .exitRequested) (hlinked : checkEventLinkage db t decision = .ok ())
    (h : ValidatesFill pass db t) :
    ∃ db' t', reconcileExit pass db t decision = .ok db' ∧ Moved (TurnTells t) t t' db db' ∧
      ClosedWith db' t' := by
  obtain ⟨details, order, state, hv, hkind⟩ := h
  have hopen : t.status ≠ .closed := by rw [hmarked]; decide
  obtain ⟨hpositive, hle, hfill, hfull⟩ := validated_quantities hv.validated
  obtain ⟨fill, hfill⟩ := hfill (by rw [hfull hkind]; exact hpositive)
  obtain ⟨⟨db₁, ledgerId, changed⟩, hledger⟩ := hv.ledger
  obtain ⟨ledger, hdb₁⟩ := ensureExitLedger_ledger hledger
  have hmoved₁ : Moved (TurnTells t) t t db db₁ := by
    rw [show db₁ = { db with ledger } from hdb₁]
    exact moved_ledger ht ledger
  have hnone : ∀ o ∈ db₁.outcomes.rows, o.outcomeId ≠ exitOutcomeId t.paperTradeId ∧
      ¬ (o.paperTradeId = t.paperTradeId ∧ o.outcomeType = "paper_trade") := by
    rw [show db₁ = { db with ledger } from hdb₁]
    exact hsound.unsettled t ht hopen
  obtain ⟨db₂, hrecord, hmoved₂, htrades, hrows⟩ :=
    recordPaperExitOutcome_moved (TurnTells t) state details hmoved₁.mem hnone fill
  obtain ⟨db₃, t', hclose, hmoved₃, houtcomes, hstatus, hpremium, hpnl, hreturn⟩ :=
    closeTrade_moved (TurnTells t) hmoved₂.mem hmarked fill (pass.observedAt t details)
  have hmoved := (hmoved₁.trans hmoved₂).trans hmoved₃
  -- The events of the trade can be linked at any of these stores.
  obtain ⟨db₄, hfilled⟩ := appendExitEvent_isOk (t := t) .paperOrderFilled fill.2
    "EXIT_ORDER_FILLED" (brokerDetails details state.filledQuantity)
    (hmoved.checkEventLinkage t decision |>.trans hlinked)
  have hmoved₄ := hmoved.trans (appendExitEvent_moved hmoved.mem hmoved.paperTradeId
    (turnTells_brokerDetails (by decide) hle) hfilled)
  obtain ⟨db₅, hpositionClosed⟩ := appendExitEvent_isOk (t := t) .positionClosed fill.2
    (t.exitReasonCode.getD "EXIT_ORDER_FILLED")
    { brokerDetails details state.filledQuantity with action := none }
    (hmoved₄.checkEventLinkage t decision |>.trans hlinked)
  have hmoved₅ : Moved (TurnTells t) t t' db db₅ := by
    refine hmoved₄.trans (appendExitEvent_moved hmoved₄.mem hmoved₄.paperTradeId
      (fun _ ↦ turnTells_of _ ?_ ?_) hpositionClosed)
    · nofun
    · intro q hq
      exact Option.some_inj.1 hq ▸ hle
  obtain ⟨db₆, hrecorded⟩ := appendExitEvent_isOk (t := t) .terminalOutcomeRecorded
    (pass.observedAt t details) (t.exitReasonCode.getD "EXIT_ORDER_FILLED")
    { brokerOrderId := some details.brokerOrderId,
      outcomeId := some (expectedOutcome t state details fill).outcomeId }
    (hmoved₅.checkEventLinkage t decision |>.trans hlinked)
  have hmoved₆ : Moved (TurnTells t) t t' db db₆ := by
    refine hmoved₅.trans (appendExitEvent_moved hmoved₅.mem hmoved₅.paperTradeId
      (fun _ ↦ turnTells_of _ ?_ ?_) hrecorded)
    · nofun
    · intro q hq
      cases hq
  refine ⟨db₆, t', ?_, hmoved₆, hstatus, expectedOutcome t state details fill, ?_, hpremium.symm,
    hpnl.symm, hreturn.symm⟩
  · have hprior : (priorFill db t.paperTradeId).all (· ≤ state.filledQuantity) = true := by
      rw [hfull hkind]
      exact priorFill_le hsound ht hopen
    rw [hv.reconcileExit, applyExitState_eq hsound ht hmarked hv.requested, hprior, hledger]
    change (match state.kind with
      | .pending => _ | .partially => _ | .terminal => _ | .filled => _) = _
    rw [hkind, applyFill.eq_def, hfill]
    change (recordPaperExitOutcome db₁ _ >>= _) = _
    rw [hrecord]
    change (closeTrade db₂ t fill (pass.observedAt t details) >>= _) = _
    rw [hclose]
    change (appendExitEvent db₃ _ _ _ _ _ _ >>= _) = _
    rw [hfilled]
    change (appendExitEvent db₄ _ _ _ _ _ _ >>= _) = _
    rw [hpositionClosed]
    exact hrecorded
  · have hsame : db₆.outcomes.rows = db₁.outcomes.rows ++ [expectedOutcome t state details fill] := by
      rw [appendExitEvent_outcomes hrecorded, appendExitEvent_outcomes hpositionClosed,
        appendExitEvent_outcomes hfilled, houtcomes, hrows]
    have hfree : paperOutcomes db₁ t.paperTradeId = [] := by
      rw [paperOutcomes, List.filter_eq_nil_iff]
      intro o ho hsel
      exact (hnone o ho).2 (of_decide_eq_true hsel)
    rw [hmoved₆.paperTradeId, paperOutcomes, hsame, List.filter_append]
    change paperOutcomes db₁ t.paperTradeId ++ _ = _
    rw [hfree, List.nil_append, List.filter_singleton]
    simp [expectedOutcome]

theorem applyPartialFill_moved {ledgerId : ℕ} {requestId : Option String} {observedAt : Time}
    (ht : t ∈ db.trades.rows) (hle : state.filledQuantity ≤ t.quantity)
    (h : applyPartialFill db ledgerId t decision details state requestId observedAt = .ok db') :
    Moved (TurnTells t) t t db db' ∧ db'.outcomes = db.outcomes := by
  rw [applyPartialFill] at h
  have houtcomes := appendExitEvent_outcomes h
  refine ⟨(updateLedger_moved _ ht _ _ _ _ _ _).trans (appendExitEvent_moved ht rfl ?_ h), houtcomes⟩
  exact turnTells_brokerDetails nofun hle

theorem applyTerminal_moved {ledgerId : ℕ} {requestId : Option String} {observedAt : Time}
    (ht : t ∈ db.trades.rows) (hmarked : t.status = .exitRequested) (hpositive : 0 < t.quantity)
    (h : applyTerminal db ledgerId t decision details state requestId observedAt = .ok db') :
    ∃ t', Moved (TurnTells t) t t' db db' ∧ db'.outcomes = db.outcomes ∧ t'.status = .opened := by
  rw [applyTerminal] at h
  obtain ⟨db₁, hreopen, h⟩ := bind_eq_ok.1 h
  have hledger := updateLedger_moved (TurnTells t) ht ledgerId
    (reconciledLedgerStatus state) (some details.brokerOrderId) (some state.brokerStatus)
    (requestId.or details.requestId) (some ("EXIT_ORDER_" ++ Text.toUpperCase state.brokerStatus))
  obtain ⟨t', hmoved, houtcomes, hstatus⟩ :=
    reopenTrade_moved (TurnTells t) hledger.mem hmarked hreopen
  refine ⟨t', (hledger.trans hmoved).trans
    (appendExitEvent_moved hmoved.mem hmoved.paperTradeId (fun _ ↦ turnTells_of _ ?_ ?_) h), ?_,
    hstatus⟩
  · split <;> nofun
  · intro q hq
    exact Option.some_inj.1 hq ▸ hpositive.le
  · exact (appendExitEvent_outcomes h).trans houtcomes

/-- **What a turn does.**  It leaves the row, opens the trade after a terminal order without a
fill, or closes it after a full fill. -/
theorem turn_effect (hsound : Sound db) (ht : t ∈ db.trades.rows)
    (hmarked : t.status = .exitRequested) (hlinked : checkEventLinkage db t decision = .ok ())
    (h : reconcileExit pass db t decision = .ok db') :
    ∃ t', Moved (TurnTells t) t t' db db' ∧
      ((t' = t ∧ db'.outcomes = db.outcomes) ∨
        (t'.status = .opened ∧ db'.outcomes = db.outcomes ∧ ValidatesNoFill pass db t) ∨
        (ClosedWith db' t' ∧ ValidatesFill pass db t)) := by
  obtain ⟨details, order, state, hdetails, hresponse, hstate, hfence, happly⟩ := reconcileExit_ok h
  obtain ⟨hpositive, hle, _, _⟩ := validated_quantities hstate
  rw [applyExitState_eq hsound ht hmarked hdetails] at happly
  obtain ⟨_, _, happly⟩ := bind_eq_ok.1 happly
  obtain ⟨⟨db₁, ledgerId, changed⟩, hledger, happly⟩ := bind_eq_ok.1 happly
  have hv : Validates pass db t details order state :=
    ⟨hdetails, hresponse, hstate, hfence, _, hledger⟩
  obtain ⟨ledger, hdb₁⟩ := ensureExitLedger_ledger hledger
  obtain rfl : db₁ = { db with ledger } := hdb₁
  have hmoved₁ : Moved (TurnTells t) t t db { db with ledger } := moved_ledger ht ledger
  have ht₁ : t ∈ ({ db with ledger } : ExitDb).trades.rows := ht
  dsimp only at happly
  split at happly
  · -- Pending: nothing but the ledger.
    obtain rfl := Except.ok.inj happly
    exact ⟨t, hmoved₁, Or.inl ⟨rfl, rfl⟩⟩
  · obtain ⟨hmoved, houtcomes⟩ := applyPartialFill_moved ht₁ hle happly
    exact ⟨t, hmoved₁.trans hmoved, Or.inl ⟨rfl, houtcomes⟩⟩
  · next hkind =>
    split at happly
    · obtain ⟨hmoved, houtcomes⟩ := applyPartialFill_moved ht₁ hle happly
      exact ⟨t, hmoved₁.trans hmoved, Or.inl ⟨rfl, houtcomes⟩⟩
    · next hnofill =>
      obtain ⟨t', hmoved, houtcomes, hstatus⟩ :=
        applyTerminal_moved ht₁ hmarked hpositive happly
      exact ⟨t', hmoved₁.trans hmoved, Or.inr (Or.inl ⟨hstatus, houtcomes, details, order, state,
        hv, hkind, not_lt.1 hnofill⟩)⟩
  · -- Filled: the turn is the one of a validated fill.
    next hkind =>
    have hfill : ValidatesFill pass db t := ⟨details, order, state, hv, hkind⟩
    obtain ⟨db₂, t', hok, hmoved, hclosed⟩ := turn_fill hsound ht hmarked hlinked hfill
    obtain rfl := Except.ok.inj (h.symm.trans hok)
    exact ⟨t', hmoved, Or.inr (Or.inr ⟨hclosed, hfill⟩)⟩

/-- The store after a turn: one that throws is rolled back. -/
def turnStore (pass : ExitPass) (db : ExitDb) (turn : PaperTradeRow × DecisionRow) : ExitDb :=
  match reconcileExit pass db turn.1 turn.2 with
  | .ok db' => db'
  | .error _ => db

/-- **A turn** keeps the invariant and closes the trade exactly on a validated full fill. -/
theorem turn_sound (pass : ExitPass) (hsound : Sound db)
    (ht : t ∈ db.trades.rows) (hmarked : t.status = .exitRequested)
    (hdecision : db.decisions.get? t.decisionId = some decision) :
    ∃ t', Moved (TurnTells t) t t' db (turnStore pass db (t, decision)) ∧
      Sound (turnStore pass db (t, decision)) ∧
      (t'.status = .closed ↔ ValidatesFill pass db t) ∧
      (t'.status = .closed → ClosedWith (turnStore pass db (t, decision)) t') ∧
      (t'.status = .opened → ValidatesNoFill pass db t) := by
  have hopen : t.status ≠ .closed := by rw [hmarked]; decide
  have hlinked : checkEventLinkage db t decision = .ok () := by
    obtain ⟨other, hother, hlinked⟩ := hsound.linked t ht hopen
    rw [Option.some_inj.1 (hdecision.symm.trans hother)]
    exact hlinked
  rcases hturn : reconcileExit pass db t decision with e | db'
  · have hstore : turnStore pass db (t, decision) = db := by
      rw [turnStore]
      simp only [hturn]
    rw [hstore]
    refine ⟨t, Moved.refl ht, hsound, ?_, fun h ↦ absurd h hopen, fun h ↦ ?_⟩
    · refine ⟨fun h ↦ absurd h hopen, fun hfill ↦ ?_⟩
      obtain ⟨db', _, hok, _⟩ := turn_fill hsound ht hmarked hlinked hfill
      rw [hturn] at hok
      cases hok
    · rw [hmarked] at h
      cases h
  · have hstore : turnStore pass db (t, decision) = db' := by
      rw [turnStore]
      simp only [hturn]
    rw [hstore]
    have hfilled : ValidatesFill pass db t → ∃ t', Moved (TurnTells t) t t' db db' ∧
        ClosedWith db' t' := by
      intro hfill
      obtain ⟨db'', t', hok, hmoved, hclosed⟩ := turn_fill hsound ht hmarked hlinked hfill
      obtain rfl := Except.ok.inj (hturn.symm.trans hok)
      exact ⟨t', hmoved, hclosed⟩
    obtain ⟨t', hmoved, heffect⟩ := turn_effect hsound ht hmarked hlinked hturn
    -- The row the trade has now is one row.
    have hunique : ∀ r, Moved (TurnTells t) t r db db' → r = t' := fun r hr ↦
      trade_eq hr.mem hmoved.mem (hr.paperTradeId.trans hmoved.paperTradeId.symm)
    have hiff : t'.status = .closed ↔ ValidatesFill pass db t := by
      constructor
      · intro hstatus
        rcases heffect with ⟨rfl, _⟩ | ⟨hopened, _⟩ | ⟨_, hfill⟩
        · exact absurd hstatus hopen
        · rw [hstatus] at hopened
          cases hopened
        · exact hfill
      · intro hfill
        obtain ⟨r, hr, hclosed⟩ := hfilled hfill
        exact hunique r hr ▸ hclosed.1
    refine ⟨t', hmoved, ?_, hiff, fun hstatus ↦ ?_, fun hstatus ↦ ?_⟩
    · refine hsound.moved ht hmoved hopen (fun hstatus ↦ ?_) (fun e he ↦ he.2) fun hstatus ↦ ?_
      · rcases heffect with ⟨rfl, _⟩ | ⟨hopened, _⟩ | ⟨hclosed, _⟩
        · -- The mark stays, and no request is told.
          rw [Current, hmoved.requests_eq fun e he ↦ he.1]
          exact hsound.current t' ht hmarked
        · rw [hstatus] at hopened
          cases hopened
        · cases hstatus.symm.trans hclosed.1
      · rcases heffect with ⟨_, houtcomes⟩ | ⟨_, houtcomes, _⟩ | ⟨hclosed, _⟩
        · exact houtcomes
        · exact houtcomes
        · exact absurd hclosed.1 hstatus
    · obtain ⟨r, hr, hclosed⟩ := hfilled (hiff.1 hstatus)
      exact hunique r hr ▸ hclosed
    · rcases heffect with ⟨rfl, _⟩ | ⟨_, _, hnofill⟩ | ⟨hclosed, _⟩
      · rw [hmarked] at hstatus
        cases hstatus
      · exact hnofill
      · cases hstatus.symm.trans hclosed.1

end Turn

/-! ## The check of the request -/

section Accepts

variable {α β : Type} {x : Except Error α}

/-- The computation does not throw that the request of the exit has changed. -/
def Accepts (x : Except Error α) : Prop :=
  x ≠ .error (.message "EXIT_ORDER_REQUEST_CHANGED")

theorem Accepts.bind {f : α → Except Error β} (hx : Accepts x)
    (hf : ∀ a, x = .ok a → Accepts (f a)) : Accepts (x >>= f) := by
  intro h
  rcases bind_eq_error.1 h with h | ⟨a, ha, h⟩
  · exact hx h
  · exact hf a ha h

theorem accepts_ok (a : α) : Accepts (.ok a : Except Error α) := nofun

theorem accepts_error {text : String} (h : text ≠ "EXIT_ORDER_REQUEST_CHANGED") :
    Accepts (.error (.message text) : Except Error α) := by
  intro heq
  injection heq with heq
  injection heq with heq
  exact h heq

theorem accepts_check {b : Bool} {text : String} (h : text ≠ "EXIT_ORDER_REQUEST_CHANGED") :
    Accepts (check b (.message text)) := by
  intro heq
  obtain ⟨_, heq⟩ := check_eq_error.1 heq
  injection heq with heq
  exact h heq

theorem exitOrderDetailsForTrade_accepts (db : ExitDb) (paperTradeId : String) :
    Accepts (exitOrderDetailsForTrade db paperTradeId) := by
  rw [exitOrderDetailsForTrade]
  split
  · exact accepts_error (by decide)
  · split
    · exact accepts_ok _
    · exact accepts_error (by decide)

theorem checkEventLinkage_accepts (db : ExitDb) (t : PaperTradeRow) (decision : DecisionRow) :
    Accepts (checkEventLinkage db t decision) := by
  rw [checkEventLinkage]
  iterate 6 refine (accepts_check (by decide)).bind fun _ _ ↦ ?_
  exact accepts_check (by decide)

theorem appendExitEvent_accepts [Hashing] (db : ExitDb) (eventType : EventType) (t : PaperTradeRow)
    (decision : DecisionRow) (time : Time) (reasonCode : String) (details : ExitEventDetails) :
    Accepts (appendExitEvent db eventType t decision time reasonCode details) := by
  rw [appendExitEvent.eq_def]
  dsimp only
  split
  · exact accepts_ok _
  · exact (checkEventLinkage_accepts db t decision).bind fun _ _ ↦ accepts_ok _

theorem checkLedger_accepts (entry : LedgerRow) (t : PaperTradeRow) (details : ExitOrderDetails) :
    Accepts (checkLedger entry t details) := by
  rw [checkLedger.eq_def]
  iterate 9 refine (accepts_check (by decide)).bind fun _ _ ↦ ?_
  split
  · exact accepts_error (by decide)
  · exact accepts_check (by decide)

theorem ensureExitLedger_accepts (db : ExitDb) (t : PaperTradeRow) (details : ExitOrderDetails)
    (status : LedgerStatus) (brokerStatus : Option String) :
    Accepts (ensureExitLedger db t details status brokerStatus) := by
  rw [ensureExitLedger]
  split
  · split
    · exact accepts_error (by decide)
    · exact accepts_ok _
  · refine (checkLedger_accepts _ t details).bind fun _ _ ↦ ?_
    refine (accepts_check (by decide)).bind fun _ _ ↦ ?_
    exact accepts_ok _

theorem exitKind_accepts (status : String) (given : Bool) (filledQuantity requestedQuantity : ℤ) :
    Accepts (exitKind status given filledQuantity requestedQuantity) := by
  rw [exitKind]
  repeat' split
  all_goals first | exact accepts_ok _ | exact accepts_error (by decide)

theorem exitFill_accepts (t : PaperTradeRow) (details : ExitOrderDetails) (order : BrokerOrder)
    (asOf : Time) : Accepts (exitFill t details order asOf) := by
  rw [exitFill.eq_def]
  split
  · exact accepts_error (by decide)
  · refine (accepts_check (by decide)).bind fun _ _ ↦ ?_
    split
    · exact accepts_error (by decide)
    · iterate 3 refine (accepts_check (by decide)).bind fun _ _ ↦ ?_
      exact accepts_ok _

theorem validatedExitBrokerState_accepts (t : PaperTradeRow) (details : ExitOrderDetails)
    (order : BrokerOrder) (asOf : Time) :
    Accepts (validatedExitBrokerState t details order asOf) := by
  rw [validatedExitBrokerState]
  iterate 7 refine (accepts_check (by decide)).bind fun _ _ ↦ ?_
  dsimp only
  split
  · exact accepts_error (by decide)
  · refine (exitKind_accepts _ _ _ _).bind fun _ _ ↦ ?_
    refine Accepts.bind ?_ fun _ _ ↦ accepts_ok _
    split
    · have hfill := exitFill_accepts t details order asOf
      rcases hexit : exitFill t details order asOf with e | fill
      · exact fun h ↦ hfill (hexit.trans (congrArg Except.error (Except.error.inj h)))
      · exact accepts_ok _
    · exact accepts_ok _

variable [Hashing] {db : ExitDb} {t : PaperTradeRow} {decision : DecisionRow}
  {details : ExitOrderDetails} {state : ExitBrokerState}

theorem applyFill_accepts (observedAt : Time) :
    Accepts (applyFill db t decision details state observedAt) := by
  rw [applyFill.eq_def]
  split
  · exact accepts_error (by decide)
  · refine Accepts.bind ?_ fun _ _ ↦ Accepts.bind ?_ fun _ _ ↦ ?_
    · rw [recordPaperExitOutcome]
      split
      · split
        · exact accepts_ok _
        · exact accepts_error (by decide)
      · split
        · exact accepts_error (by decide)
        · exact accepts_ok _
    · rw [closeTrade]
      split
      · exact accepts_error (by decide)
      · exact accepts_ok _
    · refine (appendExitEvent_accepts _ _ _ _ _ _ _).bind fun _ _ ↦ ?_
      exact (appendExitEvent_accepts _ _ _ _ _ _ _).bind fun _ _ ↦ appendExitEvent_accepts _ _ _ _ _ _ _

theorem applyTerminal_accepts (ledgerId : ℕ) (requestId : Option String) (observedAt : Time) :
    Accepts (applyTerminal db ledgerId t decision details state requestId observedAt) := by
  rw [applyTerminal]
  refine Accepts.bind ?_ fun _ _ ↦ appendExitEvent_accepts _ _ _ _ _ _ _
  rw [reopenTrade]
  split
  · exact accepts_error (by decide)
  · exact accepts_ok _

/-- **The request of a marked trade has not changed**: only the broker can make a turn say so. -/
theorem reconcileExit_changed {pass : ExitPass} (hsound : Sound db) (ht : t ∈ db.trades.rows)
    (hmarked : t.status = .exitRequested)
    (h : reconcileExit pass db t decision = .error (.message "EXIT_ORDER_REQUEST_CHANGED")) :
    ∃ brokerOrderId, (pass.getOrder t.paperTradeId brokerOrderId).response =
      .error (.message "EXIT_ORDER_REQUEST_CHANGED") := by
  rw [reconcileExit] at h
  rcases bind_eq_error.1 h with h | ⟨details, hdetails, h⟩
  · exact absurd h (exitOrderDetailsForTrade_accepts db t.paperTradeId)
  · rcases bind_eq_error.1 h with h | ⟨order, _, h⟩
    · exact ⟨details.brokerOrderId, h⟩
    · -- The rest of the turn does not throw it.
      refine absurd h ((validatedExitBrokerState_accepts t details order _).bind fun state _ ↦ ?_)
      refine (accepts_check (by decide)).bind fun _ _ ↦ ?_
      rw [applyExitState_eq hsound ht hmarked hdetails]
      refine (accepts_check (by decide)).bind fun _ _ ↦ ?_
      refine (ensureExitLedger_accepts db t details _ _).bind fun result _ ↦ ?_
      obtain ⟨db₁, ledgerId, changed⟩ := result
      dsimp only
      split
      · exact accepts_ok _
      · exact appendExitEvent_accepts _ _ _ _ _ _ _
      · split
        · exact appendExitEvent_accepts _ _ _ _ _ _ _
        · exact applyTerminal_accepts _ _ _
      · exact applyFill_accepts _

end Accepts

end ZeroDte

end AlpacaTrading
