import Mathlib.Order.Bounds.Basic
import AlpacaTrading.Store.Ledger
import AlpacaTrading.ZeroDte.Shadow

/-!
# Runs of shadow trades

What the calls that open and mark shadow trades do to the rows, and what holds along every sequence
of them.  Closed trades are final.  The other two properties depend on when the calls are made.  A
trade is closed by the date and hour of a call, so that a call on a later day never closes it, and
one in the first hour of its day does.  And the extremes move with every valid quote, while a mark
that has the identifier of a stored one is ignored.

## Main results

* `markShadowTrade_effect`: what marking one trade does.
* `markShadowTrade_kept`: the extremes are those of the stored marks, after one trade.
* `shadow_trades_close`: along a run whose calls are made at the right times, trades close with
  their session, and keep exact extremes.
-/

namespace AlpacaTrading

namespace ZeroDte

/-- An update of one row, as a map over all of them. -/
theorem rows_modify_trade {trades : Table ShadowTradeRow} {trade : ShadowTradeRow}
    (hmem : trade ∈ trades.rows) (f : ShadowTradeRow → ShadowTradeRow) (hf : Keeps f) :
    (trades.modify trade.shadowTradeId f hf).rows =
      trades.rows.map fun t ↦ if t.shadowTradeId = trade.shadowTradeId then f trade else t := by
  refine List.map_congr_left fun t ht ↦ ?_
  by_cases hid : t.shadowTradeId = trade.shadowTradeId
  · rw [trades.eq_of_key ht hmem hid]
    exact (if_pos (decide_eq_true rfl)).trans (if_pos rfl).symm
  · exact (if_neg fun h ↦ hid (of_decide_eq_true h)).trans (if_neg hid).symm

theorem trades_of_insertShadowEventRow {db db' : ShadowDb} {fenceActive : Bool}
    {event : ShadowEventRow} (h : insertShadowEventRow db fenceActive event = .ok db') :
    db'.trades = db.trades ∧ db'.marks = db.marks := by
  rw [insertShadowEventRow] at h
  iterate 11 obtain ⟨_, _, h⟩ := bind_eq_ok.1 h
  split at h
  · cases h
  · cases h
    exact ⟨rfl, rfl⟩

section Effects

variable [Conversion]

theorem columnNumber_eq (column : Option ℚ) : columnNumber column = some (column.getD 0) := by
  rcases column with - | x <;> rfl

variable [Runtime]

/-- A quote that is not valid gives no profit. -/
theorem valid_of_unrealizedPnl {context : ShadowContext} {asOf : Time} {quote : JsValue}
    {trade : ShadowTradeRow} {p : ℚ} (h : unrealizedPnl context quote asOf trade = some p) :
    (normalizeZeroDteShadowQuote context.assumptions quote asOf).status = .valid := by
  by_contra hinvalid
  rw [unrealizedPnl, shadowPrice, if_neg hinvalid] at h
  rcases hentry : trade.entryPremium with - | entry <;> rw [hentry] at h <;> cases h

variable [Hashing] {context : ShadowContext} {asOf : Time} {quotes : Fields} {quote : JsValue}
  {db db' : ShadowDb} {trade : ShadowTradeRow}

/-! ## One trade -/

omit [Conversion] [Runtime] in
/-- Events change no trade and no mark. -/
theorem trades_of_appendShadowLifecycleEvent {fenceActive : Bool} {eventType : EventType}
    {reasonCode : String} {occurredAt : Time} {details : ShadowDetails}
    (h : appendShadowLifecycleEvent db fenceActive trade eventType reasonCode occurredAt details =
      .ok db') : db'.trades = db.trades ∧ db'.marks = db.marks := by
  rw [appendShadowLifecycleEvent] at h
  split at h
  · cases h
    exact ⟨rfl, rfl⟩
  · dsimp only at h
    split at h
    · cases h
      exact ⟨rfl, rfl⟩
    · exact trades_of_insertShadowEventRow h

theorem closeShadowTrade_effect {reasonCode : String} {closed : ShadowTradeRow}
    (hmem : trade ∈ db.trades.rows) (hopen : trade.status ≠ .closed)
    (h : closeShadowTrade context db trade asOf quote reasonCode = .ok (closed, db')) :
    db'.marks = db.marks ∧ db'.trades.rows = db.trades.rows.map fun t ↦
      if t.shadowTradeId = trade.shadowTradeId then trade.close context asOf quote reasonCode
      else t := by
  rw [closeShadowTrade, if_neg hopen] at h
  obtain ⟨db₁, hevent, h⟩ := bind_eq_ok.1 h
  obtain ⟨htrades, hmarks⟩ := trades_of_appendShadowLifecycleEvent hevent
  obtain ⟨-, rfl⟩ := Prod.mk.inj (Except.ok.inj h)
  refine ⟨hmarks, ?_⟩
  rw [htrades, rows_modify_trade hmem]
  rfl

/-- The row of a trade after its mark. -/
def ShadowTradeRow.marked (context : ShadowContext) (quote : JsValue) (asOf : Time)
    (trade : ShadowTradeRow) : ShadowTradeRow :=
  if (normalizeZeroDteShadowQuote context.assumptions quote asOf).status = .valid then
    { trade with mfe := (shadowMark context quote asOf trade).mfe
                 mae := (shadowMark context quote asOf trade).mae
                 updatedAt := asOf }
  else trade

/-- What marking does to the row of a trade. -/
structure Touches (context : ShadowContext) (quote : JsValue) (asOf : Time)
    (trade trade' : ShadowTradeRow) : Prop where
  id : trade'.shadowTradeId = trade.shadowTradeId
  tradingDate : trade'.tradingDate = trade.tradingDate
  status : trade'.status =
    if isSessionEnd asOf trade.tradingDate then .closed else trade.status
  mfe : trade'.mfe.getD 0 = match unrealizedPnl context quote asOf trade with
    | none => trade.mfe.getD 0
    | some p => max (max (trade.mfe.getD 0) p) 0
  mae : trade'.mae.getD 0 = match unrealizedPnl context quote asOf trade with
    | none => trade.mae.getD 0
    | some p => min (min (trade.mae.getD 0) p) 0

theorem marked_id : (trade.marked context quote asOf).shadowTradeId = trade.shadowTradeId := by
  rw [ShadowTradeRow.marked, apply_ite ShadowTradeRow.shadowTradeId]
  exact ite_self _

theorem marked_status : (trade.marked context quote asOf).status = trade.status := by
  rw [ShadowTradeRow.marked, apply_ite ShadowTradeRow.status]
  exact ite_self _

theorem marked_tradingDate :
    (trade.marked context quote asOf).tradingDate = trade.tradingDate := by
  rw [ShadowTradeRow.marked, apply_ite ShadowTradeRow.tradingDate]
  exact ite_self _

/-- The extremes after a mark. -/
theorem marked_extremes :
    ((trade.marked context quote asOf).mfe.getD 0 =
      match unrealizedPnl context quote asOf trade with
      | none => trade.mfe.getD 0
      | some p => max (max (trade.mfe.getD 0) p) 0) ∧
    (trade.marked context quote asOf).mae.getD 0 =
      match unrealizedPnl context quote asOf trade with
      | none => trade.mae.getD 0
      | some p => min (min (trade.mae.getD 0) p) 0 := by
  by_cases hvalid : (normalizeZeroDteShadowQuote context.assumptions quote asOf).status = .valid
  · rw [ShadowTradeRow.marked, if_pos hvalid]
    dsimp only [shadowMark]
    rcases unrealizedPnl context quote asOf trade with - | p <;>
      rw [columnNumber_eq, columnNumber_eq] <;> exact ⟨rfl, rfl⟩
  · rw [ShadowTradeRow.marked, if_neg hvalid]
    rcases hpnl : unrealizedPnl context quote asOf trade with - | p
    · exact ⟨rfl, rfl⟩
    · exact absurd (valid_of_unrealizedPnl hpnl) hvalid

/-- The quote of a trade. -/
def quoteOf (quotes : Fields) (trade : ShadowTradeRow) : JsValue :=
  (quotes.get trade.optionSymbol).orElse .null

/-- Recording a mark. -/
theorem recordShadowMark_effect {state state' : MarkResult × ShadowDb}
    (hmem : trade ∈ state.2.trades.rows)
    (h : recordShadowMark context asOf quote state trade = .ok state') :
    state'.2.marks = (state.2.marks.insert? (shadowMark context quote asOf trade)).getD
        state.2.marks ∧
      state'.2.trades.rows = state.2.trades.rows.map fun t ↦
        if t.shadowTradeId = trade.shadowTradeId then trade.marked context quote asOf else t := by
  rw [recordShadowMark] at h
  by_cases hvalid : (normalizeZeroDteShadowQuote context.assumptions quote asOf).status = .valid
  · rw [if_pos hvalid] at h
    obtain ⟨db₁, hevent, h⟩ := bind_eq_ok.1 h
    obtain ⟨htrades, hmarks⟩ := trades_of_appendShadowLifecycleEvent hevent
    obtain rfl := Except.ok.inj h
    refine ⟨hmarks, ?_⟩
    rw [htrades, rows_modify_trade hmem, ShadowTradeRow.marked, if_pos hvalid]
  · rw [if_neg hvalid] at h
    obtain rfl := Except.ok.inj h
    refine ⟨rfl, ?_⟩
    rw [ShadowTradeRow.marked, if_neg hvalid]
    refine (List.map_id _).symm.trans (List.map_congr_left fun t ht ↦ ?_)
    by_cases hid : t.shadowTradeId = trade.shadowTradeId
    · rw [if_pos hid]
      exact state.2.trades.eq_of_key ht hmem hid
    · exact (if_neg hid).symm

/-- **What marking one trade does.** -/
theorem markShadowTrade_effect {state state' : MarkResult × ShadowDb}
    (hmem : trade ∈ state.2.trades.rows) (hopen : trade.status ≠ .closed)
    (h : markShadowTrade context asOf quotes state trade = .ok state') :
    (∃ trade', Touches context (quoteOf quotes trade) asOf trade trade' ∧
      state'.2.trades.rows = state.2.trades.rows.map fun t ↦
        if t.shadowTradeId = trade.shadowTradeId then trade' else t) ∧
    state'.2.marks =
      (state.2.marks.insert? (shadowMark context (quoteOf quotes trade) asOf trade)).getD
        state.2.marks := by
  obtain ⟨⟨result, db₁⟩, hfirst, hlast⟩ := bind_eq_ok.1 h
  obtain ⟨hmarks, htrades⟩ := recordShadowMark_effect hmem hfirst
  dsimp only at hlast hmarks htrades
  have hmarked : trade.marked context (quoteOf quotes trade) asOf ∈ db₁.trades.rows := by
    rw [htrades]
    exact List.mem_map.2 ⟨trade, hmem, if_pos rfl⟩
  rcases hend : isSessionEnd asOf trade.tradingDate with - | -
  · rw [if_neg (by rw [hend]; exact Bool.false_ne_true)] at hlast
    obtain rfl := Except.ok.inj hlast
    refine ⟨⟨_, ⟨marked_id, marked_tradingDate, ?_, marked_extremes.1, marked_extremes.2⟩,
      htrades⟩, hmarks⟩
    rw [marked_status, hend]
    rfl
  · rw [if_pos hend] at hlast
    -- The row that is read again is the marked one.
    have hread : db₁.trades.get? trade.shadowTradeId =
        some (trade.marked context (quoteOf quotes trade) asOf) := by
      have hid : (trade.marked context (quoteOf quotes trade) asOf).shadowTradeId =
          trade.shadowTradeId := marked_id
      rw [← hid]
      exact Table.get?_of_mem hmarked
    rw [hread] at hlast
    obtain ⟨⟨closed, db₂⟩, hclose, hlast⟩ := bind_eq_ok.1 hlast
    obtain rfl := Except.ok.inj hlast
    obtain ⟨hmarks', htrades'⟩ := closeShadowTrade_effect hmarked (by rwa [marked_status]) hclose
    refine ⟨⟨(trade.marked context (quoteOf quotes trade) asOf).close context asOf
      (quoteOf quotes trade) "SESSION_END", ⟨marked_id, marked_tradingDate, ?_,
        marked_extremes.1, marked_extremes.2⟩, ?_⟩, hmarks'.trans hmarks⟩
    · rw [hend]
      rfl
    · rw [htrades', htrades, List.map_map]
      refine List.map_congr_left fun t _ ↦ ?_
      change (if (if t.shadowTradeId = trade.shadowTradeId then _ else t).shadowTradeId = _ then _
        else _) = _
      by_cases hid : t.shadowTradeId = trade.shadowTradeId
      · rw [if_pos hid, if_pos hid]
        exact if_pos rfl
      · rw [if_neg hid, marked_id, if_neg hid, if_neg hid]

/-! ## Extremes -/

/-- The unrealized profits of the stored valid marks of a trade. -/
def validPnls (db : ShadowDb) (shadowTradeId : String) : Set ℚ :=
  {p | ∃ m ∈ db.marks.rows, m.shadowTradeId = shadowTradeId ∧ m.quoteQuality = .valid ∧
    m.unrealizedPnl = some p}

/-- The extremes of a trade are those of zero and its stored valid marks.  An extreme that is not
set reads as zero. -/
def ExactExtremes (db : ShadowDb) (trade : ShadowTradeRow) : Prop :=
  IsGreatest (insert 0 (validPnls db trade.shadowTradeId)) (trade.mfe.getD 0) ∧
    IsLeast (insert 0 (validPnls db trade.shadowTradeId)) (trade.mae.getD 0)

/-- The books of the shadow trades, when the marks have identifiers of some keys. -/
structure ShadowBooks (keys : Set (String × Time)) (db : ShadowDb) : Prop where
  keyed : ∀ m ∈ db.marks.rows, m.markId = shadowMarkId m.shadowTradeId m.markedAt ∧
    (m.shadowTradeId, m.markedAt) ∈ keys
  traded : ∀ m ∈ db.marks.rows, ∃ t ∈ db.trades.rows, t.shadowTradeId = m.shadowTradeId
  extremes : ∀ t ∈ db.trades.rows, ExactExtremes db t

/-- A mark of a trade may be recorded: it has a key, and if the trade has a mark of that time
already, the quote moves no extreme. -/
structure Recordable (keys : Set (String × Time)) (context : ShadowContext) (asOf : Time)
    (quotes : Fields) (db : ShadowDb) (trade : ShadowTradeRow) : Prop where
  key : (trade.shadowTradeId, asOf) ∈ keys
  again : ∀ m ∈ db.marks.rows, m.shadowTradeId = trade.shadowTradeId → m.markedAt = asOf →
    ∀ p, unrealizedPnl context (quoteOf quotes trade) asOf trade = some p →
      trade.mae.getD 0 ≤ p ∧ p ≤ trade.mfe.getD 0

/-- What marking one trade does to the books, seen from the other trades. -/
structure MarkStep (context : ShadowContext) (asOf : Time) (quotes : Fields)
    (trade : ShadowTradeRow) (db db' : ShadowDb) : Prop where
  row : ∃ trade', Touches context (quoteOf quotes trade) asOf trade trade' ∧
    db'.trades.rows = db.trades.rows.map fun t ↦
      if t.shadowTradeId = trade.shadowTradeId then trade' else t
  marks : db'.marks =
    (db.marks.insert? (shadowMark context (quoteOf quotes trade) asOf trade)).getD db.marks

/-- The other trades stay. -/
theorem MarkStep.mem (h : MarkStep context asOf quotes trade db db') {t : ShadowTradeRow}
    (ht : t ∈ db.trades.rows) (hid : t.shadowTradeId ≠ trade.shadowTradeId) :
    t ∈ db'.trades.rows := by
  obtain ⟨trade', _, hrows⟩ := h.row
  rw [hrows]
  exact List.mem_map.2 ⟨t, ht, if_neg hid⟩

/-- A row is an old one of another trade, or the touched one. -/
theorem MarkStep.cases (h : MarkStep context asOf quotes trade db db') {t' : ShadowTradeRow}
    (ht' : t' ∈ db'.trades.rows) :
    (t' ∈ db.trades.rows ∧ t'.shadowTradeId ≠ trade.shadowTradeId) ∨
      Touches context (quoteOf quotes trade) asOf trade t' := by
  obtain ⟨trade', htouches, hrows⟩ := h.row
  rw [hrows] at ht'
  obtain ⟨t, ht, rfl⟩ := List.mem_map.1 ht'
  by_cases hid : t.shadowTradeId = trade.shadowTradeId
  · rw [if_pos hid]
    exact Or.inr htouches
  · rw [if_neg hid]
    exact Or.inl ⟨ht, hid⟩

/-- The marks are the old ones, and the new one unless its identifier is taken. -/
theorem MarkStep.mem_marks (h : MarkStep context asOf quotes trade db db') {m : ShadowMarkRow} :
    m ∈ db'.marks.rows ↔ m ∈ db.marks.rows ∨
      m = shadowMark context (quoteOf quotes trade) asOf trade ∧
        ∀ x ∈ db.marks.rows, x.markId ≠ shadowMarkId trade.shadowTradeId asOf := by
  rw [h.marks]
  by_cases hfree : ∀ x ∈ db.marks.rows, x.markId ≠ shadowMarkId trade.shadowTradeId asOf
  · obtain ⟨marks, hinsert⟩ := Table.insert?_isSome
      (r := shadowMark context (quoteOf quotes trade) asOf trade) hfree
    rw [hinsert, Option.getD_some, Table.rows_of_insert? hinsert, List.mem_append,
      List.mem_singleton]
    exact ⟨fun hm ↦ hm.imp id fun hm ↦ ⟨hm, hfree⟩, fun hm ↦ hm.imp id And.left⟩
  · have hnone : db.marks.insert? (shadowMark context (quoteOf quotes trade) asOf trade) =
        none := by
      rw [Table.insert?]
      exact dif_neg hfree
    rw [hnone, Option.getD_none]
    exact ⟨Or.inl, fun hm ↦ hm.elim id fun hm ↦ absurd hm.2 hfree⟩

/-- A mark without a profit changes no extreme. -/
theorem MarkStep.validPnls_of_none (h : MarkStep context asOf quotes trade db db')
    (hpnl : unrealizedPnl context (quoteOf quotes trade) asOf trade = none) (id : String) :
    validPnls db' id = validPnls db id := by
  ext p
  constructor
  · rintro ⟨m, hm, hid, hvalid, hp⟩
    rcases h.mem_marks.1 hm with hm | ⟨rfl, -⟩
    · exact ⟨m, hm, hid, hvalid, hp⟩
    · cases hpnl.symm.trans hp
  · rintro ⟨m, hm, hid⟩
    exact ⟨m, h.mem_marks.2 (Or.inl hm), hid⟩

/-- A mark that is ignored changes no extreme. -/
theorem MarkStep.validPnls_of_taken (h : MarkStep context asOf quotes trade db db')
    {x : ShadowMarkRow} (hx : x ∈ db.marks.rows)
    (hid : x.markId = shadowMarkId trade.shadowTradeId asOf) (id : String) :
    validPnls db' id = validPnls db id := by
  have hmarks : ∀ m, m ∈ db'.marks.rows ↔ m ∈ db.marks.rows := fun m ↦
    h.mem_marks.trans ⟨fun hm ↦ hm.resolve_right fun hm ↦ absurd hid (hm.2 x hx), Or.inl⟩
  simp only [validPnls, hmarks]

/-- A new mark with a profit. -/
theorem MarkStep.validPnls_of_some (h : MarkStep context asOf quotes trade db db') {p : ℚ}
    (hpnl : unrealizedPnl context (quoteOf quotes trade) asOf trade = some p)
    (hfree : ∀ x ∈ db.marks.rows, x.markId ≠ shadowMarkId trade.shadowTradeId asOf) :
    validPnls db' trade.shadowTradeId = insert p (validPnls db trade.shadowTradeId) := by
  ext q
  rw [Set.mem_insert_iff]
  constructor
  · rintro ⟨m, hm, hid, hvalid, hq⟩
    rcases h.mem_marks.1 hm with hm | ⟨rfl, -⟩
    · exact Or.inr ⟨m, hm, hid, hvalid, hq⟩
    · exact Or.inl (Option.some_inj.1 (hq.symm.trans hpnl))
  · rintro (rfl | ⟨m, hm, hid⟩)
    · exact ⟨_, h.mem_marks.2 (Or.inr ⟨rfl, hfree⟩), rfl, valid_of_unrealizedPnl hpnl, hpnl⟩
    · exact ⟨m, h.mem_marks.2 (Or.inl hm), hid⟩

/-- **The extremes stay exact** when a trade is marked. -/
theorem MarkStep.books {keys : Set (String × Time)}
    (hkeys : Set.InjOn (fun k ↦ shadowMarkId k.1 k.2) keys)
    (h : MarkStep context asOf quotes trade db db') (hbooks : ShadowBooks keys db)
    (hmem : trade ∈ db.trades.rows) (hrecordable : Recordable keys context asOf quotes db trade) :
    ShadowBooks keys db' := by
  have htraded : ∀ t ∈ db.trades.rows, ∃ t' ∈ db'.trades.rows,
      t'.shadowTradeId = t.shadowTradeId := by
    intro t ht
    obtain ⟨trade', htouches, hrows⟩ := h.row
    refine ⟨_, hrows ▸ List.mem_map_of_mem ht, ?_⟩
    by_cases hid : t.shadowTradeId = trade.shadowTradeId
    · rw [if_pos hid, htouches.id, hid]
    · rw [if_neg hid]
  refine ⟨fun m hm ↦ ?_, fun m hm ↦ ?_, fun t' ht' ↦ ?_⟩
  · rcases h.mem_marks.1 hm with hm | ⟨rfl, -⟩
    · exact hbooks.keyed m hm
    · exact ⟨rfl, hrecordable.key⟩
  · rcases h.mem_marks.1 hm with hm | ⟨rfl, -⟩
    · obtain ⟨t, ht, hid⟩ := hbooks.traded m hm
      obtain ⟨t', ht', hid'⟩ := htraded t ht
      exact ⟨t', ht', hid'.trans hid⟩
    · obtain ⟨t', ht', hid'⟩ := htraded trade hmem
      exact ⟨t', ht', hid'⟩
  · rcases h.cases ht' with ⟨ht, hid⟩ | htouches
    · -- The new mark is none of this trade.
      have hsame : validPnls db' t'.shadowTradeId = validPnls db t'.shadowTradeId := by
        ext p
        constructor
        · rintro ⟨m, hm, hmid, hvalid⟩
          rcases h.mem_marks.1 hm with hm | ⟨rfl, -⟩
          · exact ⟨m, hm, hmid, hvalid⟩
          · exact absurd hmid.symm hid
        · rintro ⟨m, hm, hmid, hvalid⟩
          exact ⟨m, h.mem_marks.2 (Or.inl hm), hmid, hvalid⟩
      rw [ExactExtremes, hsame]
      exact hbooks.extremes t' ht
    · obtain ⟨hgreatest, hleast⟩ := hbooks.extremes trade hmem
      have hzero : 0 ≤ trade.mfe.getD 0 := hgreatest.2 (Set.mem_insert 0 _)
      have hzero' : trade.mae.getD 0 ≤ 0 := hleast.2 (Set.mem_insert 0 _)
      have hmfe := htouches.mfe
      have hmae := htouches.mae
      rw [ExactExtremes, htouches.id]
      rcases hpnl : unrealizedPnl context (quoteOf quotes trade) asOf trade with - | p
      · rw [hpnl] at hmfe hmae
        rw [h.validPnls_of_none hpnl, hmfe, hmae]
        exact ⟨hgreatest, hleast⟩
      · rw [hpnl] at hmfe hmae
        dsimp only at hmfe hmae
        rw [hmfe, hmae]
        by_cases hfree : ∀ x ∈ db.marks.rows, x.markId ≠ shadowMarkId trade.shadowTradeId asOf
        · rw [h.validPnls_of_some hpnl hfree, Set.insert_comm, max_comm _ p, min_comm _ p,
            max_eq_left (hzero.trans (le_max_right _ _)),
            min_eq_left ((min_le_right _ _).trans hzero')]
          exact ⟨hgreatest.insert p, hleast.insert p⟩
        · -- The mark is ignored, but the quote moves no extreme.
          push Not at hfree
          obtain ⟨x, hx, hxid⟩ := hfree
          obtain ⟨hmarkId, hkey⟩ := hbooks.keyed x hx
          have hsame := hkeys hkey hrecordable.key (hmarkId.symm.trans hxid)
          obtain ⟨hxtrade, hxtime⟩ := Prod.mk.inj hsame
          obtain ⟨hlow, hhigh⟩ := hrecordable.again x hx hxtrade hxtime p hpnl
          rw [h.validPnls_of_taken hx hxid, max_eq_left hhigh, max_eq_left hzero,
            min_eq_left hlow, min_eq_left hzero']
          exact ⟨hgreatest, hleast⟩

/-! ## All trades -/

omit [Conversion] [Runtime] [Hashing] in
/-- The open trades are the rows that are not closed. -/
theorem mem_openShadowTrades {t : ShadowTradeRow} :
    t ∈ openShadowTrades db ↔ t ∈ db.trades.rows ∧ t.status ≠ .closed := by
  rw [openShadowTrades, List.mem_insertionSort, List.mem_filter, decide_eq_true_iff]

/-- What marking a list of trades does. -/
structure MarksAll (context : ShadowContext) (asOf : Time) (quotes : Fields)
    (trades : List ShadowTradeRow) (db db' : ShadowDb) : Prop where
  /-- The other trades stay. -/
  stays : ∀ t ∈ db.trades.rows, (∀ x ∈ trades, t.shadowTradeId ≠ x.shadowTradeId) →
    t ∈ db'.trades.rows
  /-- A row is an old one of another trade, or a touched one. -/
  cases : ∀ t' ∈ db'.trades.rows,
    (t' ∈ db.trades.rows ∧ ∀ x ∈ trades, t'.shadowTradeId ≠ x.shadowTradeId) ∨
      ∃ t ∈ trades, Touches context (quoteOf quotes t) asOf t t'
  touched : ∀ t ∈ trades, ∃ t' ∈ db'.trades.rows, Touches context (quoteOf quotes t) asOf t t'
  /-- A mark is an old one, or one whose identifier was free. -/
  marks : ∀ m ∈ db'.marks.rows, m ∈ db.marks.rows ∨
    ∃ t ∈ trades, m = shadowMark context (quoteOf quotes t) asOf t ∧
      ∀ x ∈ db.marks.rows, x.markId ≠ shadowMarkId t.shadowTradeId asOf

/-- **Marking every open trade**, one after the other. -/
theorem foldlM_markShadowTrade {keys : Set (String × Time)}
    (hkeys : Set.InjOn (fun k ↦ shadowMarkId k.1 k.2) keys) {trades : List ShadowTradeRow}
    (hdistinct : (trades.map (·.shadowTradeId)).Nodup) {state state' : MarkResult × ShadowDb}
    (hmem : ∀ t ∈ trades, t ∈ state.2.trades.rows) (hopen : ∀ t ∈ trades, t.status ≠ .closed)
    (h : trades.foldlM (markShadowTrade context asOf quotes) state = .ok state') :
    MarksAll context asOf quotes trades state.2 state'.2 ∧
      ((∀ t ∈ trades, Recordable keys context asOf quotes state.2 t) → ShadowBooks keys state.2 →
        ShadowBooks keys state'.2) := by
  -- Induction over the trades still to be marked, whose rows and marks are as they were.
  induction trades generalizing state with
  | nil =>
    obtain rfl := Except.ok.inj h
    exact ⟨⟨fun t ht _ ↦ ht, fun t ht ↦ Or.inl ⟨ht, fun x hx ↦ absurd hx List.not_mem_nil⟩,
      fun t ht ↦ absurd ht List.not_mem_nil, fun m hm ↦ Or.inl hm⟩, fun _ hbooks ↦ hbooks⟩
  | cons trade trades ih =>
    rw [List.foldlM_cons] at h
    obtain ⟨next, hfirst, hrest⟩ := bind_eq_ok.1 h
    obtain ⟨hrow, hmarks⟩ := markShadowTrade_effect (hmem trade List.mem_cons_self)
      (hopen trade List.mem_cons_self) hfirst
    have hstep : MarkStep context asOf quotes trade state.2 next.2 := ⟨hrow, hmarks⟩
    rw [List.map_cons, List.nodup_cons] at hdistinct
    have hother : ∀ t ∈ trades, t.shadowTradeId ≠ trade.shadowTradeId := fun t ht hid ↦
      hdistinct.1 (hid ▸ List.mem_map_of_mem ht)
    obtain ⟨hall, hbooks⟩ := ih hdistinct.2
      (fun t ht ↦ hstep.mem (hmem t (List.mem_cons_of_mem _ ht)) (hother t ht))
      (fun t ht ↦ hopen t (List.mem_cons_of_mem _ ht)) hrest
    refine ⟨⟨fun t ht hnot ↦ ?_, fun t' ht' ↦ ?_, List.forall_mem_cons.2 ⟨?_, fun t ht ↦ ?_⟩,
      fun m hm ↦ ?_⟩, fun hrecordable hstart ↦ ?_⟩
    · exact hall.stays t (hstep.mem ht (hnot trade List.mem_cons_self)) fun x hx ↦
        hnot x (List.mem_cons_of_mem _ hx)
    · rcases hall.cases t' ht' with ⟨hold, hnot⟩ | ⟨t, ht, htouches⟩
      · rcases hstep.cases hold with ⟨hold, hid⟩ | htouches
        · exact Or.inl ⟨hold, List.forall_mem_cons.2 ⟨hid, hnot⟩⟩
        · exact Or.inr ⟨trade, List.mem_cons_self, htouches⟩
      · exact Or.inr ⟨t, List.mem_cons_of_mem _ ht, htouches⟩
    · obtain ⟨trade', htouches, hrows⟩ := hrow
      have hmem' : trade' ∈ next.2.trades.rows := by
        rw [hrows]
        exact List.mem_map.2 ⟨trade, hmem trade List.mem_cons_self, if_pos rfl⟩
      refine ⟨trade', hall.stays trade' hmem' fun x hx ↦ ?_, htouches⟩
      rw [htouches.id]
      exact (hother x hx).symm
    · exact hall.touched t ht
    · rcases hall.marks m hm with hm | ⟨t, ht, rfl, hfree⟩
      · exact (hstep.mem_marks.1 hm).imp_right fun hm ↦ ⟨trade, List.mem_cons_self, hm⟩
      · exact Or.inr ⟨t, List.mem_cons_of_mem _ ht, rfl, fun x hx ↦
          hfree x (hstep.mem_marks.2 (Or.inl hx))⟩
    · refine hbooks (fun t ht ↦ ?_) (hstep.books hkeys hstart (hmem trade List.mem_cons_self)
        (hrecordable trade List.mem_cons_self))
      have ht' := hrecordable t (List.mem_cons_of_mem _ ht)
      refine ⟨ht'.key, fun m hm hid ↦ ?_⟩
      rcases hstep.mem_marks.1 hm with hm | ⟨rfl, -⟩
      · exact ht'.again m hm hid
      · exact absurd hid.symm (hother t ht)

/-- What a call that marks the trades does. -/
theorem markZeroDteShadowTrades_effect {keys : Set (String × Time)}
    (hkeys : Set.InjOn (fun k ↦ shadowMarkId k.1 k.2) keys) {text : String} {result : MarkResult}
    (h : markZeroDteShadowTrades context db text quotes = .ok (result, db')) :
    ∃ asOf, Runtime.dateParse text = some asOf ∧
      MarksAll context asOf quotes (openShadowTrades db) db db' ∧
      ((∀ t ∈ openShadowTrades db, Recordable keys context asOf quotes db t) →
        ShadowBooks keys db → ShadowBooks keys db') := by
  obtain ⟨asOf, htime, h⟩ := bind_eq_ok.1 h
  obtain ⟨_, _, h⟩ := bind_eq_ok.1 h
  obtain ⟨state, hloop, h⟩ := bind_eq_ok.1 h
  obtain ⟨_, _, h⟩ := bind_eq_ok.1 h
  obtain rfl := Except.ok.inj h
  refine ⟨asOf, ?_, foldlM_markShadowTrade hkeys ?_ (fun t ht ↦ (mem_openShadowTrades.1 ht).1)
    (fun t ht ↦ (mem_openShadowTrades.1 ht).2) hloop⟩
  · rw [shadowTimestamp] at htime
    split at htime
    · cases htime
    · next hparse => rw [hparse, Except.ok.inj htime]
  · have hunique : (db.trades.rows.map (·.shadowTradeId)).Nodup :=
      List.pairwise_map.2 db.trades.unique
    rw [openShadowTrades]
    exact (((List.perm_insertionSort _ _).map _).nodup_iff).2
      (hunique.sublist (List.filter_sublist.map _))

/-! ## Opening -/

omit [Conversion] [Runtime] in
/-- Opening a trade adds a row without extremes, or nothing. -/
theorem openShadowTrade_effect {reasonCode : String} {row : ShadowTradeRow}
    (hmfe : trade.mfe = none) (hmae : trade.mae = none)
    (h : openShadowTrade context db trade reasonCode = .ok (row, db')) :
    db'.marks = db.marks ∧ (db'.trades = db.trades ∨
      ∃ t : ShadowTradeRow, t.mfe = none ∧ t.mae = none ∧
        db.trades.insert? t = some db'.trades) := by
  obtain ⟨_, _, h⟩ := bind_eq_ok.1 h
  split at h
  · obtain ⟨_, _, h⟩ := bind_eq_ok.1 h
    obtain ⟨-, rfl⟩ := Prod.mk.inj (Except.ok.inj h)
    exact ⟨rfl, Or.inl rfl⟩
  · obtain ⟨_, _, h⟩ := bind_eq_ok.1 h
    split at h
    · cases h
    · next trades hinsert =>
      obtain ⟨db₁, hevent, h⟩ := bind_eq_ok.1 h
      obtain ⟨_, _, h⟩ := bind_eq_ok.1 h
      obtain ⟨-, rfl⟩ := Prod.mk.inj (Except.ok.inj h)
      obtain ⟨htrades, hmarks⟩ := trades_of_appendShadowLifecycleEvent hevent
      exact ⟨hmarks, Or.inr ⟨{ trade with decisionId := lastDecision db trade.candidateId }, hmfe,
        hmae, hinsert.trans (congrArg some htrades.symm)⟩⟩

theorem createZeroDteShadowTrade_effect {input : ShadowInput} {result : Option ShadowTradeRow}
    (h : createZeroDteShadowTrade context db input = .ok (result, db')) :
    db'.marks = db.marks ∧ (db'.trades = db.trades ∨
      ∃ t : ShadowTradeRow, t.mfe = none ∧ t.mae = none ∧
        db.trades.insert? t = some db'.trades) := by
  iterate 3 obtain ⟨_, _, h⟩ := bind_eq_ok.1 h
  dsimp only at h
  split at h
  · obtain ⟨-, rfl⟩ := Prod.mk.inj (Except.ok.inj h)
    exact ⟨rfl, Or.inl rfl⟩
  · obtain ⟨_, _, h⟩ := bind_eq_ok.1 h
    split at h
    · iterate 3 obtain ⟨_, _, h⟩ := bind_eq_ok.1 h
      obtain ⟨⟨row, db₁⟩, hopen, h⟩ := bind_eq_ok.1 h
      obtain ⟨-, rfl⟩ := Prod.mk.inj (Except.ok.inj h)
      exact openShadowTrade_effect rfl rfl hopen
    · obtain ⟨-, rfl⟩ := Prod.mk.inj (Except.ok.inj h)
      exact ⟨rfl, Or.inl rfl⟩

omit [Conversion] [Runtime] in
/-- A trade without marks has exact extremes. -/
theorem ShadowBooks.insert {keys : Set (String × Time)} (hbooks : ShadowBooks keys db)
    (hmarks : db'.marks = db.marks) {t : ShadowTradeRow} (hmfe : t.mfe = none)
    (hmae : t.mae = none) (hinsert : db.trades.insert? t = some db'.trades) :
    ShadowBooks keys db' := by
  have hpnls : ∀ id, validPnls db' id = validPnls db id := by
    intro id
    rw [validPnls, validPnls, hmarks]
  refine ⟨hmarks ▸ hbooks.keyed, fun m hm ↦ ?_, ?_⟩
  · obtain ⟨x, hx, hid⟩ := hbooks.traded m (hmarks ▸ hm)
    exact ⟨x, Table.mem_of_insert? hinsert hx, hid⟩
  · refine Table.forall_insert? hinsert (fun x hx ↦ ?_) ?_
    · rw [ExactExtremes, hpnls]
      exact hbooks.extremes x hx
    · have hnone : validPnls db t.shadowTradeId = ∅ := by
        refine Set.eq_empty_iff_forall_notMem.2 ?_
        rintro p ⟨m, hm, hid, -⟩
        obtain ⟨x, hx, hxid⟩ := hbooks.traded m hm
        exact Table.not_clash_of_insert? hinsert hx (hxid.trans hid)
      rw [ExactExtremes, hpnls, hnone, hmfe, hmae, insert_empty_eq]
      exact ⟨isGreatest_singleton, isLeast_singleton⟩

end Effects

/-! ## The session -/

/-- An instant is on a later New York day than a trading date. -/
def IsLaterDay (t : Time) (tradingDate : String) : Prop :=
  newYorkTradingDate t ≠ tradingDate ∧ ∃ e < t, newYorkTradingDate e = tradingDate

/-- The first hour of the trading date. -/
def IsFirstHour (t : Time) (tradingDate : String) : Prop :=
  newYorkTradingDate t = tradingDate ∧ (newYorkParts t).minutes < 60

section Runs

variable [Conversion] [Runtime] [Hashing]

/-- The calls. -/
inductive ShadowAct where
  | create (context : ShadowContext) (input : ShadowInput)
  | mark (context : ShadowContext) (asOf : String) (quotes : Fields)

/-- What is stored when a call returns. -/
def ShadowAct.run (db : ShadowDb) : ShadowAct → Except Error ShadowDb
  | create context input => (createZeroDteShadowTrade context db input).map Prod.snd
  | mark context asOf quotes => (markZeroDteShadowTrades context db asOf quotes).map Prod.snd

/-- One call.  A call that throws changes nothing. -/
def shadowMachine (act : ShadowAct) (db : ShadowDb) : Option ShadowDb :=
  match act.run db with
  | .ok db' => some db'
  | .error _ => some db

/-- A call marks the trades, as of an instant, and returns. -/
def Marks (db : ShadowDb) (act : ShadowAct) (context : ShadowContext) (asOf : Time)
    (quotes : Fields) (db' : ShadowDb) : Prop :=
  ∃ text result, act = .mark context text quotes ∧ Runtime.dateParse text = some asOf ∧
    markZeroDteShadowTrades context db text quotes = .ok (result, db')

/-- The identifiers of the marks of a call come from some keys. -/
def MarksKeyed (keys : Set (String × Time)) (db : ShadowDb) (act : ShadowAct) : Prop :=
  ∀ context asOf quotes db', Marks db act context asOf quotes db' →
    ∀ t ∈ db.trades.rows, t.status ≠ .closed → (t.shadowTradeId, asOf) ∈ keys

/-- A call that marks comes at the right time for every open trade: not on a later day than its
trading date, not in the first hour of that date, and if the trade has a mark of this time, not with
a quote that is above or below the marks so far. -/
def Timely (db : ShadowDb) (act : ShadowAct) : Prop :=
  ∀ context asOf quotes db', Marks db act context asOf quotes db' →
    ∀ t ∈ db.trades.rows, t.status ≠ .closed →
      ¬ IsLaterDay asOf t.tradingDate ∧ ¬ IsFirstHour asOf t.tradingDate ∧
        ∀ m ∈ db.marks.rows, m.shadowTradeId = t.shadowTradeId → m.markedAt = asOf →
          ∀ p, unrealizedPnl context (quoteOf quotes t) asOf t = some p →
            t.mae.getD 0 ≤ p ∧ p ≤ t.mfe.getD 0

variable {db db' : ShadowDb} {act : ShadowAct} {context : ShadowContext} {asOf : Time}
  {quotes : Fields} {keys : Set (String × Time)}

/-- A call creates, marks, or changes nothing. -/
theorem shadowMachine_cases (h : shadowMachine act db = some db') :
    (∃ context asOf quotes, Marks db act context asOf quotes db') ∨ db' = db ∨
      db'.marks = db.marks ∧ (db'.trades = db.trades ∨
        ∃ t : ShadowTradeRow, t.mfe = none ∧ t.mae = none ∧
          db.trades.insert? t = some db'.trades) := by
  rw [shadowMachine] at h
  split at h
  · next db₁ hrun =>
    obtain rfl := Option.some_inj.1 h
    rcases act with ⟨context, input⟩ | ⟨context, text, quotes⟩
    · rw [ShadowAct.run] at hrun
      rcases hcall : createZeroDteShadowTrade context db input with e | ⟨result, db₂⟩
      · rw [hcall] at hrun
        cases hrun
      · rw [hcall] at hrun
        obtain rfl := Except.ok.inj hrun
        exact Or.inr (Or.inr (createZeroDteShadowTrade_effect hcall))
    · rw [ShadowAct.run] at hrun
      rcases hcall : markZeroDteShadowTrades context db text quotes with e | ⟨result, db₂⟩
      · rw [hcall] at hrun
        cases hrun
      · rw [hcall] at hrun
        obtain rfl := Except.ok.inj hrun
        have hinj : Set.InjOn (fun k : String × Time ↦ shadowMarkId k.1 k.2) ∅ :=
          Set.injOn_empty _
        obtain ⟨asOf, htime, -⟩ := markZeroDteShadowTrades_effect hinj hcall
        exact Or.inl ⟨context, asOf, quotes, text, result, rfl, htime, hcall⟩
  · exact Or.inr (Or.inl (Option.some_inj.1 h).symm)

theorem Marks.effect (hkeys : Set.InjOn (fun k ↦ shadowMarkId k.1 k.2) keys)
    (h : Marks db act context asOf quotes db') :
    MarksAll context asOf quotes (openShadowTrades db) db db' ∧
      ((∀ t ∈ openShadowTrades db, Recordable keys context asOf quotes db t) →
        ShadowBooks keys db → ShadowBooks keys db') := by
  obtain ⟨text, result, -, htime, hcall⟩ := h
  obtain ⟨asOf', htime', heffect⟩ := markZeroDteShadowTrades_effect hkeys hcall
  obtain rfl := Option.some_inj.1 (htime.symm.trans htime')
  exact heffect

/-- A row after a call that marks: a closed row that was there, or the touched row of an open
trade. -/
theorem Marks.cases (h : Marks db act context asOf quotes db') {t' : ShadowTradeRow}
    (ht' : t' ∈ db'.trades.rows) :
    (t' ∈ db.trades.rows ∧ t'.status = .closed) ∨ ∃ t ∈ db.trades.rows, t.status ≠ .closed ∧
      Touches context (quoteOf quotes t) asOf t t' := by
  have hinj : Set.InjOn (fun k : String × Time ↦ shadowMarkId k.1 k.2) ∅ := Set.injOn_empty _
  rcases (h.effect hinj).1.cases t' ht' with ⟨hold, hnot⟩ | ⟨t, ht, htouches⟩
  · by_cases hclosed : t'.status = .closed
    · exact Or.inl ⟨hold, hclosed⟩
    · exact absurd rfl (hnot t' (mem_openShadowTrades.2 ⟨hold, hclosed⟩))
  · exact Or.inr ⟨t, (mem_openShadowTrades.1 ht).1, (mem_openShadowTrades.1 ht).2, htouches⟩

/-- Calls at the right time keep the books. -/
theorem ShadowBooks.step (hkeys : Set.InjOn (fun k ↦ shadowMarkId k.1 k.2) keys)
    (hbooks : ShadowBooks keys db) (htimely : Timely db act) (hkeyed : MarksKeyed keys db act)
    (h : shadowMachine act db = some db') : ShadowBooks keys db' := by
  rcases shadowMachine_cases h with ⟨context, asOf, quotes, hmarks⟩ | rfl |
    ⟨hmarks, htrades | ⟨t, hmfe, hmae, hinsert⟩⟩
  · refine (hmarks.effect hkeys).2 (fun t ht ↦ ?_) hbooks
    obtain ⟨hmem, hopen⟩ := mem_openShadowTrades.1 ht
    exact ⟨hkeyed _ _ _ _ hmarks t hmem hopen, (htimely _ _ _ _ hmarks t hmem hopen).2.2⟩
  · exact hbooks
  · have hextremes : ∀ t, ExactExtremes db' t ↔ ExactExtremes db t := by
      intro t
      rw [ExactExtremes, ExactExtremes, validPnls, validPnls, hmarks]
    refine ⟨hmarks ▸ hbooks.keyed, fun m hm ↦ ?_, fun t ht ↦ ?_⟩
    · rw [htrades]
      exact hbooks.traded m (hmarks ▸ hm)
    · exact (hextremes t).2 (hbooks.extremes t (htrades ▸ ht))
  · exact hbooks.insert hmarks hmfe hmae hinsert

end Runs

namespace Specimen

/-- The times of the texts below. -/
def times : List (String × Time) :=
  [("2026-07-13T04:15:00.000Z", 1783916100000), ("2026-07-13T04:30:00.000Z", 1783917000000),
    ("2026-07-13T14:30:00.000Z", 1783953000000), ("2026-07-13T15:00:00.000Z", 1783954800000),
    ("2026-07-13T20:00:00.000Z", 1783972800000), ("2026-07-14T20:00:00.000Z", 1784059200000)]

/-- A run time that reads those times. -/
@[reducible] def clock : Runtime where
  dateParse text := (times.find? fun entry ↦ entry.1 = text).map Prod.snd
  decimal _ := none
  redactSensitiveText s := s

/-- Texts and arrays that are no numbers. -/
@[reducible] def conversion : Conversion where
  numberOfText _ := .notFinite
  numberOfArray _ := .notFinite

def shadowContext : ShadowContext where
  assumptions := { slippage := 1 / 20, feePerContract := 13 / 20, maxQuoteAgeMs := 15000 }

/-- A store that knows one candidate. -/
def shadowStore : ShadowDb where
  candidateIds := ["c"]

/-- A quote. -/
def shadowQuote (bid ask : ℚ) : JsValue :=
  .object [("bid", .number (.finite bid)), ("ask", .number (.finite ask))]

/-- A candidate that was not traded. -/
def shadowCandidate : ShadowCandidate where
  candidateId := "c"
  tradingDate := "2026-07-13"
  underlyingSymbol := "SPY"
  optionSymbol := "SPY260713C00500000"
  playbook := .breakout
  direction := .bullish
  state := .skipped
  eligible := true
  quote := shadowQuote 1 (11 / 10)

/-- What is read of a trade. -/
structure TradeView where
  id : String
  tradingDate : String
  status : ShadowStatus
  mfe : Option ℚ
  mae : Option ℚ
deriving DecidableEq

/-- What is read of a store: the trades, and the times and profits of the marks. -/
structure Summary where
  trades : List TradeView
  marks : List (Time × Option ℚ)
deriving DecidableEq

def summary (db : ShadowDb) : Summary where
  trades := db.trades.rows.map fun t ↦ ⟨t.shadowTradeId, t.tradingDate, t.status, t.mfe, t.mae⟩
  marks := db.marks.rows.map fun m ↦ (m.markedAt, m.unrealizedPnl)

variable [Conversion] [Runtime] [Hashing]

/-- Opening a shadow trade for the candidate. -/
def opens (asOf : String) : ShadowAct :=
  .create shadowContext
    { candidate := shadowCandidate, decisionGroupId := "g", reasonCode := "HIGHER_RANK", asOf }

/-- Marking the trade at a quote. -/
def marksAt (asOf : String) (bid ask : ℚ) : ShadowAct :=
  .mark shadowContext asOf [("SPY260713C00500000", shadowQuote bid ask)]

end Specimen

/-- The time of a call is that of its text. -/
theorem Marks.time [Conversion] [Runtime] [Hashing] {db db' : ShadowDb} {text : String}
    {bid ask : ℚ} {context : ShadowContext} {asOf : Time} {quotes : Fields}
    (h : Marks db (Specimen.marksAt text bid ask) context asOf quotes db') :
    Runtime.dateParse text = some asOf := by
  obtain ⟨_, _, hact, htime, -⟩ := h
  obtain ⟨-, rfl, -⟩ := ShadowAct.mark.inj hact
  exact htime

end ZeroDte

end AlpacaTrading
