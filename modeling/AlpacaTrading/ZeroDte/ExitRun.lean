import AlpacaTrading.Lib.Run
import AlpacaTrading.Store.Ledger
import AlpacaTrading.ZeroDte.ExitTurn

/-!
# Runs of the exits

A mark and a request are written by different statements, and an order that is already in the log
moves the mark only.  A run obeys the law of the exits (`StepLaw`) when every order it reports fits
the trade it selects (`OrderFits`).
-/

namespace AlpacaTrading

namespace ZeroDte

/-! ## A pass -/

section Pass

variable [Hashing] {pass : ExitPass} {db : ExitDb}
  {turns : List (PaperTradeRow × DecisionRow)}

theorem reconcileExits_fst (pass : ExitPass) (db : ExitDb)
    (turns : List (PaperTradeRow × DecisionRow)) :
    (reconcileExits pass db turns).1 = turns.foldl (turnStore pass) db := by
  induction turns generalizing db with
  | nil => rfl
  | cons turn rest ih =>
    rw [List.foldl_cons, turnStore, reconcileExits]
    rcases reconcileExit pass db turn.1 turn.2 with e | db'
    · exact ih db
    · exact ih db'

/-- What the turns that are left need of the store. -/
structure Pending (db : ExitDb) (turns : List (PaperTradeRow × DecisionRow)) : Prop where
  sound : Sound db
  stored : ∀ turn ∈ turns, turn.1 ∈ db.trades.rows ∧ turn.1.status = .exitRequested ∧
    db.decisions.get? turn.1.decisionId = some turn.2
  distinct : turns.Pairwise fun a b ↦ a.1.paperTradeId ≠ b.1.paperTradeId

/-- One turn leaves what the others need. -/
theorem Pending.turn (pass : ExitPass)
    {turn : PaperTradeRow × DecisionRow} (h : Pending db (turn :: turns)) :
    Pending (turnStore pass db turn) turns := by
  obtain ⟨t, decision⟩ := turn
  obtain ⟨ht, hmarked, hdecision⟩ := h.stored (t, decision) List.mem_cons_self
  obtain ⟨t', hmoved, hsound, _⟩ := turn_sound pass h.sound ht hmarked hdecision
  obtain ⟨hfirst, hrest⟩ := List.pairwise_cons.1 h.distinct
  refine ⟨hsound, fun other hother ↦ ?_, hrest⟩
  obtain ⟨hmem, hstatus, hget⟩ := h.stored other (List.mem_cons_of_mem _ hother)
  have hne : other.1.paperTradeId ≠ t.paperTradeId := (hfirst other hother).symm
  exact ⟨((hmoved.kept hne).trade _ rfl).2 hmem, hstatus, hmoved.decisions ▸ hget⟩

/-- **The run of the turns** keeps the invariant and every trade that has no turn. -/
theorem Pending.run (pass : ExitPass) (h : Pending db turns) :
    Sound (turns.foldl (turnStore pass) db) ∧
      ∀ paperTradeId, (∀ turn ∈ turns, turn.1.paperTradeId ≠ paperTradeId) →
        KeptTrade paperTradeId db (turns.foldl (turnStore pass) db) := by
  induction turns generalizing db with
  | nil => exact ⟨h.sound, fun paperTradeId _ ↦ KeptTrade.refl paperTradeId db⟩
  | cons turn rest ih =>
    rw [List.foldl_cons]
    obtain ⟨hsound, hkept⟩ := ih (h.turn pass)
    refine ⟨hsound, fun paperTradeId hne ↦ ?_⟩
    obtain ⟨t, decision⟩ := turn
    obtain ⟨ht, hmarked, hdecision⟩ := h.stored (t, decision) List.mem_cons_self
    obtain ⟨t', hmoved, _⟩ := turn_sound pass h.sound ht hmarked hdecision
    have hother : paperTradeId ≠ t.paperTradeId := (hne (t, decision) List.mem_cons_self).symm
    exact (hmoved.kept hother).trans
      (hkept paperTradeId fun turn hturn ↦ hne turn (List.mem_cons_of_mem _ hturn))

/-- The turns before that of a trade, and those after it, leave the trade alone. -/
theorem Pending.split (pass : ExitPass)
    {before after : List (PaperTradeRow × DecisionRow)} {t : PaperTradeRow}
    {decision : DecisionRow} (h : Pending db (before ++ (t, decision) :: after)) :
    Pending (before.foldl (turnStore pass) db) ((t, decision) :: after) ∧
      KeptTrade t.paperTradeId db (before.foldl (turnStore pass) db) := by
  induction before generalizing db with
  | nil => exact ⟨h, KeptTrade.refl _ db⟩
  | cons turn rest ih =>
    rw [List.foldl_cons]
    obtain ⟨hpending, hkept⟩ := ih (h.turn pass)
    refine ⟨hpending, KeptTrade.trans ?_ hkept⟩
    obtain ⟨u, other⟩ := turn
    obtain ⟨hu, hmarked, hdecision⟩ := h.stored (u, other) List.mem_cons_self
    obtain ⟨u', hmoved, _⟩ := turn_sound pass h.sound hu hmarked hdecision
    refine hmoved.kept ?_
    exact ((List.pairwise_cons.1 h.distinct).1 (t, decision)
      (List.mem_append_right _ List.mem_cons_self)).symm

/-- A turn that rejects the order because the request has changed has been told so by the
broker. -/
theorem Pending.errors (h : Pending db turns) :
    ∀ e ∈ (reconcileExits pass db turns).2, e.2 = .message "EXIT_ORDER_REQUEST_CHANGED" →
      ∃ paperTradeId brokerOrderId, (pass.getOrder paperTradeId brokerOrderId).response =
        .error (.message "EXIT_ORDER_REQUEST_CHANGED") := by
  induction turns generalizing db with
  | nil => exact fun e he ↦ absurd he List.not_mem_nil
  | cons turn rest ih =>
    intro e he hchanged
    have hnext := ih (h.turn pass)
    obtain ⟨t, decision⟩ := turn
    obtain ⟨ht, hmarked, _⟩ := h.stored (t, decision) List.mem_cons_self
    rw [turnStore] at hnext
    rw [reconcileExits] at he
    rcases hturn : reconcileExit pass db t decision with error | db'
    · simp only [hturn] at he hnext
      rcases List.mem_cons.1 he with rfl | he
      · obtain ⟨brokerOrderId, hanswer⟩ := reconcileExit_changed h.sound ht hmarked
          (hturn.trans (congrArg Except.error hchanged))
        exact ⟨t.paperTradeId, brokerOrderId, hanswer⟩
      · exact hnext e he hchanged
    · simp only [hturn] at he hnext
      exact hnext e he hchanged

omit [Hashing] in
theorem mem_exitsToReconcile {turn : PaperTradeRow × DecisionRow} :
    turn ∈ exitsToReconcile db ↔ turn.1 ∈ db.trades.rows ∧ turn.1.status = .exitRequested ∧
      db.decisions.get? turn.1.decisionId = some turn.2 := by
  rw [exitsToReconcile, List.mem_insertionSort, List.mem_filterMap]
  constructor
  · rintro ⟨r, hr, hjoin⟩
    obtain ⟨hmem, hstatus⟩ := List.mem_filter.1 hr
    rw [joinDecision, Option.map_eq_some_iff] at hjoin
    obtain ⟨decision, hdecision, rfl⟩ := hjoin
    exact ⟨hmem, of_decide_eq_true hstatus, hdecision⟩
  · rintro ⟨hmem, hstatus, hdecision⟩
    refine ⟨turn.1, List.mem_filter.2 ⟨hmem, decide_eq_true hstatus⟩, ?_⟩
    rw [joinDecision, hdecision]
    rfl

/-- The turns of a pass. -/
theorem pending_exitsToReconcile (hsound : Sound db) : Pending db (exitsToReconcile db) where
  sound := hsound
  stored := fun _ hturn ↦ mem_exitsToReconcile.1 hturn
  distinct := by
    rw [exitsToReconcile]
    refine (List.perm_insertionSort _ _).symm.pairwise ?_ fun h ↦ h.symm
    rw [List.pairwise_filterMap]
    refine (db.trades.unique.filter _).imp fun {a b} hab p hp q hq hid ↦ hab ?_
    rw [joinDecision, Option.map_eq_some_iff] at hp hq
    obtain ⟨_, _, rfl⟩ := hp
    obtain ⟨_, _, rfl⟩ := hq
    exact hid

/-- The store in which a pass has its turn of the trade. -/
def TurnOf (pass : ExitPass) (db : ExitDb) (t : PaperTradeRow) (turn : ExitDb) : Prop :=
  ∃ before decision after, exitsToReconcile db = before ++ (t, decision) :: after ∧
    turn = (reconcileExits pass db before).1

/-- The pass fills the exit order of the trade. -/
def Fills (pass : ExitPass) (db : ExitDb) (t : PaperTradeRow) : Prop :=
  pass.paperRuntime = true ∧ ∃ turn, TurnOf pass db t turn ∧ ValidatesFill pass turn t

/-- The pass finds the exit order of the trade terminal without a fill. -/
def EndsUnfilled (pass : ExitPass) (db : ExitDb) (t : PaperTradeRow) : Prop :=
  pass.paperRuntime = true ∧ ∃ turn, TurnOf pass db t turn ∧ ValidatesNoFill pass turn t

/-- What a pass does to a trade that has a turn. -/
theorem pass_turn (hsound : Sound db)
    {before after : List (PaperTradeRow × DecisionRow)} {t : PaperTradeRow}
    {decision : DecisionRow} (hsplit : exitsToReconcile db = before ++ (t, decision) :: after) :
    ∃ t', t'.paperTradeId = t.paperTradeId ∧
      t' ∈ (reconcileExits pass db (exitsToReconcile db)).1.trades.rows ∧
      (t'.status = .closed ↔ ValidatesFill pass (reconcileExits pass db before).1 t) ∧
      (t'.status = .closed → ClosedWith (reconcileExits pass db (exitsToReconcile db)).1 t') ∧
      (t'.status = .opened → ValidatesNoFill pass (reconcileExits pass db before).1 t) := by
  have hpending := pending_exitsToReconcile hsound
  rw [hsplit] at hpending
  obtain ⟨hturn, _⟩ := hpending.split pass
  have hstored := hturn.stored (t, decision) List.mem_cons_self
  obtain ⟨ht, hmarked, hdecision⟩ := hstored
  obtain ⟨t', hmoved, _, hclosed, hwith, hopened⟩ :=
    turn_sound pass hturn.sound ht hmarked hdecision
  obtain ⟨_, hkept⟩ := (hturn.turn pass).run pass
  have hkept := hkept t.paperTradeId fun other hother ↦
    ((List.pairwise_cons.1 hturn.distinct).1 other hother).symm
  rw [reconcileExits_fst, reconcileExits_fst, hsplit, List.foldl_append, List.foldl_cons]
  refine ⟨t', hmoved.paperTradeId, (hkept.trade t' hmoved.paperTradeId).2 hmoved.mem, hclosed,
    fun hstatus ↦ ?_, hopened⟩
  obtain ⟨_, o, houtcomes, heq⟩ := hwith hstatus
  refine ⟨hstatus, o, ?_, heq⟩
  rw [hmoved.paperTradeId] at houtcomes ⊢
  rw [hkept.outcomes, houtcomes]

end Pass

/-! ## The law of the steps -/

section Law

variable [Hashing] {db db' : ExitDb} {t : PaperTradeRow}

def ExitStep.Fills (db : ExitDb) (t : PaperTradeRow) : ExitStep → Prop
  | link _ => False
  | reconcile pass => ZeroDte.Fills pass db t

def ExitStep.EndsUnfilled (db : ExitDb) (t : PaperTradeRow) : ExitStep → Prop
  | link _ => False
  | reconcile pass => ZeroDte.EndsUnfilled pass db t

/-- What a step may do to the trades. -/
structure StepLaw (db : ExitDb) (step : ExitStep) : Prop where
  /-- A closed row and its outcome stay. -/
  final : ∀ t ∈ db.trades.rows, t.status = .closed → t ∈ (step.run db).trades.rows ∧
    paperOutcomes (step.run db) t.paperTradeId = paperOutcomes db t.paperTradeId
  /-- A row is closed exactly by a pass that fills its exit order. -/
  closes : ∀ t ∈ db.trades.rows, t.status ≠ .closed →
    ((∃ t' ∈ (step.run db).trades.rows, t'.paperTradeId = t.paperTradeId ∧ t'.status = .closed) ↔
      step.Fills db t)
  /-- It then has one outcome, and their amounts are equal. -/
  outcome : ∀ t ∈ db.trades.rows, t.status ≠ .closed → ∀ t' ∈ (step.run db).trades.rows,
    t'.paperTradeId = t.paperTradeId → t'.status = .closed → ClosedWith (step.run db) t'
  /-- A marked row is opened by a terminal order without a fill only. -/
  reopens : ∀ t ∈ db.trades.rows, t.status = .exitRequested → ∀ t' ∈ (step.run db).trades.rows,
    t'.paperTradeId = t.paperTradeId → t'.status = .opened → step.EndsUnfilled db t
  /-- A pass does not reject an order because its request has changed, unless these are the words
  of the broker. -/
  accepts : ∀ pass, step = .reconcile pass →
    ∀ e ∈ (reconcileZeroDteExitOrders db pass).2, e.2 = .message "EXIT_ORDER_REQUEST_CHANGED" →
      ∃ paperTradeId brokerOrderId, (pass.getOrder paperTradeId brokerOrderId).response =
        .error (.message "EXIT_ORDER_REQUEST_CHANGED")

theorem reconcileZeroDteExitOrders_fst {pass : ExitPass} (hruntime : pass.paperRuntime = true) :
    reconcileZeroDteExitOrders db pass = reconcileExits pass db (exitsToReconcile db) := by
  rw [reconcileZeroDteExitOrders]
  split
  · next hempty => rw [hempty, reconcileExits]
  · rw [hruntime]
    rfl

theorem reconcileZeroDteExitOrders_disabled (db : ExitDb) {pass : ExitPass}
    (hruntime : pass.paperRuntime ≠ true) :
    (reconcileZeroDteExitOrders db pass).1 = db ∧
      ∀ e ∈ (reconcileZeroDteExitOrders db pass).2,
        e.2 ≠ .message "EXIT_ORDER_REQUEST_CHANGED" := by
  rw [reconcileZeroDteExitOrders, Bool.eq_false_iff.2 hruntime]
  split
  · exact ⟨rfl, fun e he ↦ absurd he List.not_mem_nil⟩
  · refine ⟨rfl, fun e he ↦ ?_⟩
    obtain rfl := List.mem_singleton.1 he
    decide

/-- Of a trade that is not marked, a pass keeps everything. -/
theorem pass_kept (hsound : Sound db) (pass : ExitPass)
    (ht : t ∈ db.trades.rows) (hmarked : t.status ≠ .exitRequested) :
    KeptTrade t.paperTradeId db (reconcileExits pass db (exitsToReconcile db)).1 := by
  rw [reconcileExits_fst]
  refine ((pending_exitsToReconcile hsound).run pass).2 _ fun turn hturn hid ↦ hmarked ?_
  obtain ⟨hmem, hstatus, _⟩ := mem_exitsToReconcile.1 hturn
  exact trade_eq hmem ht hid ▸ hstatus

/-- **Passes** obey the law, and keep the invariant. -/
theorem pass_law (hsound : Sound db) (pass : ExitPass) :
    StepLaw db (.reconcile pass) ∧ Sound (ExitStep.run db (.reconcile pass)) := by
  by_cases hruntime : pass.paperRuntime = true
  · have hrun : ExitStep.run db (.reconcile pass) =
        (reconcileExits pass db (exitsToReconcile db)).1 := by
      rw [ExitStep.run, reconcileZeroDteExitOrders_fst hruntime]
    have hpending := pending_exitsToReconcile hsound
    -- A marked trade has a turn; any other trade has none, and is kept.
    have hturn : ∀ t ∈ db.trades.rows, t.status = .exitRequested →
        ∃ before decision after, exitsToReconcile db = before ++ (t, decision) :: after := by
      intro t ht hmarked
      obtain ⟨decision, hdecision, _⟩ := hsound.linked t ht (by rw [hmarked]; decide)
      obtain ⟨before, after, hsplit⟩ :=
        List.append_of_mem (mem_exitsToReconcile.2 ⟨ht, hmarked, hdecision⟩ :
          (t, decision) ∈ exitsToReconcile db)
      exact ⟨before, decision, after, hsplit⟩
    have hmarked_of_turn : ∀ t ∈ db.trades.rows, ∀ turn, TurnOf pass db t turn →
        t.status = .exitRequested := by
      rintro t - turn ⟨before, decision, after, hsplit, _⟩
      have hmem : (t, decision) ∈ exitsToReconcile db := by
        rw [hsplit]
        exact List.mem_append_right _ List.mem_cons_self
      exact (mem_exitsToReconcile.1 hmem).2.1
    refine ⟨⟨?_, ?_, ?_, ?_, ?_⟩, ?_⟩
    · intro t ht hclosed
      rw [hrun]
      have hkept := pass_kept hsound pass ht (by rw [hclosed]; decide)
      exact ⟨(hkept.trade t rfl).2 ht, hkept.outcomes⟩
    · intro t ht hopen
      rw [hrun]
      constructor
      · rintro ⟨t', ht', hid, hclosed⟩
        by_cases hmarked : t.status = .exitRequested
        · obtain ⟨before, decision, after, hsplit⟩ := hturn t ht hmarked
          obtain ⟨r, hr, hmem, hiff, _⟩ := pass_turn hsound hsplit
          obtain rfl := trade_eq ht' hmem (hid.trans hr.symm)
          exact ⟨hruntime, _, ⟨before, decision, after, hsplit, rfl⟩, hiff.1 hclosed⟩
        · have hkept := pass_kept hsound pass ht hmarked
          have hsame := trade_eq ((hkept.trade t' hid).1 ht') ht hid
          exact absurd (hsame ▸ hclosed) hopen
      · rintro ⟨_, turn, ⟨before, decision, after, hsplit, rfl⟩, hfill⟩
        obtain ⟨r, hr, hmem, hiff, _⟩ := pass_turn hsound hsplit
        exact ⟨r, hmem, hr, hiff.2 hfill⟩
    · intro t ht hopen t' ht' hid hclosed
      rw [hrun] at ht' ⊢
      by_cases hmarked : t.status = .exitRequested
      · obtain ⟨before, decision, after, hsplit⟩ := hturn t ht hmarked
        obtain ⟨r, hr, hmem, _, hwith, _⟩ := pass_turn hsound hsplit
        obtain rfl := trade_eq ht' hmem (hid.trans hr.symm)
        exact hwith hclosed
      · have hkept := pass_kept hsound pass ht hmarked
        have hsame := trade_eq ((hkept.trade t' hid).1 ht') ht hid
        exact absurd (hsame ▸ hclosed) hopen
    · intro t ht hmarked t' ht' hid hopened
      rw [hrun] at ht'
      obtain ⟨before, decision, after, hsplit⟩ := hturn t ht hmarked
      obtain ⟨r, hr, hmem, _, _, hnofill⟩ := pass_turn hsound hsplit
      obtain rfl := trade_eq ht' hmem (hid.trans hr.symm)
      exact ⟨hruntime, _, ⟨before, decision, after, hsplit, rfl⟩, hnofill hopened⟩
    · intro other hother e he hchanged
      obtain rfl : pass = other := by injection hother
      rw [reconcileZeroDteExitOrders_fst hruntime] at he
      exact hpending.errors e he hchanged
    · rw [hrun, reconcileExits_fst]
      exact (hpending.run pass).1
  · obtain ⟨hsame, herrors⟩ := reconcileZeroDteExitOrders_disabled db hruntime
    have hrun : ExitStep.run db (.reconcile pass) = db := hsame
    refine ⟨⟨?_, ?_, ?_, ?_, ?_⟩, by rw [hrun]; exact hsound⟩
    · intro t ht _
      rw [hrun]
      exact ⟨ht, rfl⟩
    · intro t ht hopen
      rw [hrun]
      refine ⟨fun ⟨t', ht', hid, hclosed⟩ ↦ ?_, fun h ↦ absurd h.1 hruntime⟩
      exact absurd (trade_eq ht' ht hid ▸ hclosed) hopen
    · intro t ht hopen t' ht' hid hclosed
      rw [hrun] at ht'
      exact absurd (trade_eq ht' ht hid ▸ hclosed) hopen
    · intro t ht hmarked t' ht' hid hopened
      rw [hrun] at ht'
      rw [trade_eq ht' ht hid, hmarked] at hopened
      cases hopened
    · intro other hother e he hchanged
      obtain rfl : pass = other := by injection hother
      exact absurd hchanged (herrors e he)

/-! ## Linked executions -/

/-- The trade an order selects. -/
def selectedTrade (execution : ExitExecution) (db : ExitDb) (order : SubmittedOrder) :
    Option (PaperTradeRow × DecisionRow) :=
  if (execution.candidateSymbols.map normalizedSymbol).contains (normalizedSymbol order.symbol) then
    paperTradeForSymbol db (normalizedSymbol order.symbol) execution.tradingDate
  else none

/-- The event details of a trigger. -/
def triggerDetails (order : SubmittedOrder) : ExitEventDetails where
  brokerOrderId := order.alpacaOrderId
  clientOrderId := order.clientOrderId

/-- The request of the order has the identifier of an event in the log, or of the event that is
stored just before it. -/
def Reported (db : ExitDb) (t : PaperTradeRow) (order : SubmittedOrder) : Prop :=
  (∃ e ∈ db.events.rows, e.eventId =
    exitEventId .exitOrderRequested t.paperTradeId order.reason (requestDetails order)) ∨
  exitEventId .exitTriggered t.paperTradeId order.reason (triggerDetails order) =
    exitEventId .exitOrderRequested t.paperTradeId order.reason (requestDetails order)

instance (db : ExitDb) (t : PaperTradeRow) (order : SubmittedOrder) :
    Decidable (Reported db t order) :=
  inferInstanceAs (Decidable ((∃ e ∈ db.events.rows, _) ∨ _))

/-- The order fits the trade it selects: the trade is not closed, its requests are not later, and
an order that was reported is reported at the time of the last of them. -/
def OrderFits (execution : ExitExecution) (db : ExitDb) (order : SubmittedOrder) : Prop :=
  ∀ selected ∈ selectedTrade execution db order,
    selected.1.status ≠ .closed ∧
      (∀ e ∈ exitRequests db selected.1.paperTradeId, e.occurredAt ≤ execution.now) ∧
      (Reported db selected.1 order →
        ∃ e ∈ exitRequests db selected.1.paperTradeId, e.occurredAt = execution.now)

instance (execution : ExitExecution) (db : ExitDb) (order : SubmittedOrder) :
    Decidable (OrderFits execution db order) :=
  inferInstanceAs (Decidable (∀ selected ∈ selectedTrade execution db order, _))

/-- Every order of an execution fits when its turn comes. -/
def OrdersFit (execution : ExitExecution) : ExitDb → List SubmittedOrder → Prop
  | _, [] => True
  | db, order :: rest => OrderFits execution db order ∧
      ((linkOrder execution db order).2 = .ok () →
        OrdersFit execution (linkOrder execution db order).1 rest)

instance decidableOrdersFit (execution : ExitExecution) :
    ∀ (db : ExitDb) (orders : List SubmittedOrder), Decidable (OrdersFit execution db orders)
  | _, [] => isTrue trivial
  | db, order :: rest =>
    have := decidableOrdersFit execution (linkOrder execution db order).1 rest
    inferInstanceAs (Decidable (_ ∧ (_ → _)))

/-- The condition of a step. -/
def StepFits (db : ExitDb) : ExitStep → Prop
  | .link execution => execution.fenceActive = true → OrdersFit execution db execution.submittedOrders
  | .reconcile _ => True

instance (db : ExitDb) : ∀ step, Decidable (StepFits db step)
  | .link execution => inferInstanceAs
      (Decidable (execution.fenceActive = true → OrdersFit execution db execution.submittedOrders))
  | .reconcile _ => isTrue trivial

/-- What a linked execution does to the trades. -/
structure Links (db db' : ExitDb) : Prop where
  outcomes : db'.outcomes = db.outcomes
  kept : ∀ t ∈ db.trades.rows, t.status = .closed → t ∈ db'.trades.rows
  marks : ∀ t' ∈ db'.trades.rows, ∃ t ∈ db.trades.rows, t.paperTradeId = t'.paperTradeId ∧
    (t'.status = t.status ∨ (t.status ≠ .closed ∧ t'.status = .exitRequested))

omit [Hashing] in
theorem Links.refl (db : ExitDb) : Links db db :=
  ⟨rfl, fun _ ht _ ↦ ht, fun t ht ↦ ⟨t, ht, rfl, Or.inl rfl⟩⟩

omit [Hashing] in
theorem Links.trans {db'' : ExitDb} (h : Links db db') (h' : Links db' db'') : Links db db'' where
  outcomes := h'.outcomes.trans h.outcomes
  kept := fun t ht hclosed ↦ h'.kept t (h.kept t ht hclosed) hclosed
  marks := by
    intro t'' ht''
    obtain ⟨t', ht', hid', hstatus'⟩ := h'.marks t'' ht''
    obtain ⟨t, ht, hid, hstatus⟩ := h.marks t' ht'
    refine ⟨t, ht, hid.trans hid', ?_⟩
    rcases hstatus' with hsame' | ⟨hopen', hmarked'⟩
    · rw [hsame']
      exact hstatus
    · rcases hstatus with hsame | ⟨hopen, _⟩
      · exact Or.inr ⟨hsame ▸ hopen', hmarked'⟩
      · exact Or.inr ⟨hopen, hmarked'⟩

/-- What linking tells. -/
def LinkTells (now : Time) (e : ExitEventRow) : Prop :=
  e.occurredAt = now ∧ ¬ TellsExitFill e

omit [Hashing] in
theorem paperTradeForSymbol_mem {symbol tradingDate : String} {decision : DecisionRow}
    (h : paperTradeForSymbol db symbol tradingDate = some (t, decision)) :
    t ∈ db.trades.rows ∧ db.decisions.get? t.decisionId = some decision := by
  have hmem := (List.mem_filter.1 (mem_of_firstBy h)).1
  obtain ⟨r, hr, hjoin⟩ := List.mem_filterMap.1 hmem
  rw [joinDecision, Option.map_eq_some_iff] at hjoin
  obtain ⟨other, hdecision, heq⟩ := hjoin
  obtain ⟨rfl, rfl⟩ := Prod.mk.inj heq
  exact ⟨hr, hdecision⟩

/-- The update that marks a trade. -/
theorem requestExit_moved (tells : ExitEventRow → Prop) (ht : t ∈ db.trades.rows) (now : Time)
    (reason : String) :
    ∃ t', Moved tells t t' db (requestExit db t.paperTradeId now reason) ∧
      t'.status = .exitRequested ∧ t'.exitRequestedAt = some now := by
  have hp : ∀ r ∈ db.trades.rows, decide (r.paperTradeId = t.paperTradeId) = true ↔ r = t := by
    intro r hr
    rw [decide_eq_true_eq]
    exact ⟨fun hid ↦ trade_eq hr ht hid, fun heq ↦ heq ▸ rfl⟩
  exact ⟨_, moved_update ht hp rfl rfl rfl, rfl, rfl⟩

omit [Hashing] in
theorem linkLedger_ledger (db : ExitDb) (t : PaperTradeRow) (now : Time) (order : SubmittedOrder) :
    ∃ ledger, linkLedger db t now order = { db with ledger } := by
  rw [linkLedger]
  split
  · exact ⟨db.ledger, rfl⟩
  · split
    · exact ⟨db.ledger, rfl⟩
    · next hok => exact ensureExitLedger_ledger hok

/-- The event is stored after it has been appended. -/
theorem exists_of_appendExitEvent {eventType : EventType} {decision : DecisionRow} {time : Time}
    {reasonCode : String} {details : ExitEventDetails}
    (h : appendExitEvent db eventType t decision time reasonCode details = .ok db') :
    (db' = db ∧ ∃ e ∈ db.events.rows,
        e.eventId = exitEventId eventType t.paperTradeId reasonCode details) ∨
      ∃ eventId, db'.events.rows = db.events.rows ++
        [{ eventId, eventType, reasonCode, paperTradeId := t.paperTradeId, occurredAt := time,
           details }] ∧ eventId = exitEventId eventType t.paperTradeId reasonCode details := by
  rw [appendExitEvent.eq_def] at h
  dsimp only at h
  split at h
  · next hclash =>
    obtain rfl := Except.ok.inj h
    refine Or.inl ⟨rfl, ?_⟩
    by_contra hnone
    obtain ⟨events, hinsert⟩ := Table.insert?_isSome (t := db.events)
      (r := { eventId := exitEventId eventType t.paperTradeId reasonCode details, eventType,
              reasonCode, paperTradeId := t.paperTradeId, occurredAt := time, details })
      fun e he hid ↦ hnone ⟨e, he, hid⟩
    rw [hclash] at hinsert
    cases hinsert
  · next events hinsert =>
    obtain ⟨_, _, h⟩ := bind_eq_ok.1 h
    obtain rfl := Except.ok.inj h
    exact Or.inr ⟨_, Table.rows_of_insert? hinsert, rfl⟩

/-- **An order that fits** marks its trade at the time of its last request. -/
theorem linkOrder_fits (hsound : Sound db) {execution : ExitExecution}
    {order : SubmittedOrder} (hfits : OrderFits execution db order) :
    Links db (linkOrder execution db order).1 ∧ Sound (linkOrder execution db order).1 := by
  rw [OrderFits, selectedTrade] at hfits
  rw [linkOrder.eq_def]
  dsimp only
  split
  · exact ⟨Links.refl db, hsound⟩
  · next hcandidate =>
    rw [if_pos (by simpa using hcandidate)] at hfits
    split
    · exact ⟨Links.refl db, hsound⟩
    · next t decision hselected =>
      obtain ⟨hopen, hearlier, hreported⟩ := hfits (t, decision) hselected
      obtain ⟨ht, hdecision⟩ := paperTradeForSymbol_mem hselected
      have hlinked : checkEventLinkage db t decision = .ok () := by
        obtain ⟨other, hother, hlinked⟩ := hsound.linked t ht hopen
        rw [Option.some_inj.1 (hdecision.symm.trans hother)]
        exact hlinked
      obtain ⟨db₁, htriggered⟩ := appendExitEvent_isOk (t := t) .exitTriggered execution.now
        order.reason (triggerDetails order) hlinked
      have hmoved₁ : Moved (LinkTells execution.now) t t db db₁ := by
        refine appendExitEvent_moved ht rfl (fun _ ↦ ⟨rfl, ?_⟩) htriggered
        rintro ⟨htype | htype, _⟩ <;> cases htype
      obtain ⟨t', hmark, hstatus, htime⟩ :=
        requestExit_moved (LinkTells execution.now) hmoved₁.mem execution.now order.reason
      obtain ⟨ledger, hledger⟩ := linkLedger_ledger
        (requestExit db₁ t.paperTradeId execution.now order.reason) t execution.now order
      have hmoved₂ : Moved (LinkTells execution.now) t t' db
          (linkLedger (requestExit db₁ t.paperTradeId execution.now order.reason) t execution.now
            order) := by
        rw [hledger]
        exact (hmoved₁.trans hmark).trans (moved_ledger hmark.mem ledger)
      obtain ⟨db₃, hrequested⟩ := appendExitEvent_isOk (t := t) .exitOrderRequested execution.now
        order.reason (requestDetails order) (hmoved₂.checkEventLinkage t decision |>.trans hlinked)
      have hmoved₃ : Moved (LinkTells execution.now) t t' db db₃ := by
        refine hmoved₂.trans (appendExitEvent_moved hmoved₂.mem hmoved₂.paperTradeId
          (fun _ ↦ ⟨rfl, ?_⟩) hrequested)
        rintro ⟨htype | htype, _⟩ <;> cases htype
      have houtcomes : db₃.outcomes = db.outcomes := by
        rw [appendExitEvent_outcomes hrequested, hledger, ← appendExitEvent_outcomes htriggered]
        rfl
      rw [triggerDetails] at htriggered
      simp only [htriggered, hrequested]
      refine ⟨⟨houtcomes, fun r hr hclosed ↦ ?_, fun r hr ↦ ?_⟩, ?_⟩
      · have hne : r.paperTradeId ≠ t.paperTradeId := fun hid ↦
          hopen (trade_eq hr ht hid ▸ hclosed)
        exact ((hmoved₃.kept hne).trade r rfl).2 hr
      · rcases (hmoved₃.trades r).1 hr with rfl | ⟨hmem, _⟩
        · exact ⟨t, ht, hmoved₃.paperTradeId.symm, Or.inr ⟨hopen, hstatus⟩⟩
        · exact ⟨r, hmem, rfl, Or.inl rfl⟩
      · refine hsound.moved ht hmoved₃ hopen (fun _ ↦ ?_)
          (fun e he hfill ↦ absurd hfill he.2) fun _ ↦ houtcomes
        refine ⟨execution.now, htime, ?_, fun e he ↦ ?_⟩
        · -- The request is stored now, or was stored: then it was reported before.
          rw [hmoved₃.paperTradeId]
          rcases exists_of_appendExitEvent hrequested with ⟨hsame, e, he, heid⟩ | ⟨id, hrows, _⟩
          · have hbefore : Reported db t order := by
              have he₁ : e ∈ db₁.events.rows := by
                rw [hledger] at he
                exact he
              rcases exists_of_appendExitEvent htriggered with ⟨hsame₁, _⟩ | ⟨id, hrows, hid⟩
              · exact Or.inl ⟨e, hsame₁ ▸ he₁, heid⟩
              · rw [hrows] at he₁
                rcases List.mem_append.1 he₁ with he₁ | he₁
                · exact Or.inl ⟨e, he₁, heid⟩
                · rw [List.mem_singleton.1 he₁, hid] at heid
                  exact Or.inr heid
            obtain ⟨e, he, hetime⟩ := hreported hbefore
            obtain ⟨es, hrows, _⟩ := hmoved₃.events
            refine ⟨e, ?_, hetime⟩
            rw [exitRequests, hrows, List.filter_append]
            exact List.mem_append_left _ he
          · refine ⟨{ eventId := id, eventType := .exitOrderRequested, reasonCode := order.reason,
                      paperTradeId := t.paperTradeId, occurredAt := execution.now,
                      details := requestDetails order }, List.mem_filter.2 ⟨?_, ?_⟩, rfl⟩
            · rw [hrows]
              exact List.mem_append_right _ List.mem_cons_self
            · exact decide_eq_true ⟨rfl, rfl⟩
        · rw [hmoved₃.paperTradeId] at he
          obtain ⟨es, hrows, hes⟩ := hmoved₃.events
          rw [exitRequests, hrows, List.filter_append] at he
          rcases List.mem_append.1 he with he | he
          · exact hearlier e he
          · exact (hes e (List.mem_of_mem_filter he)).1.1.le

theorem linkOrders_fit {execution : ExitExecution}
    {orders : List SubmittedOrder} (hsound : Sound db) (hfits : OrdersFit execution db orders) :
    Links db (linkOrders execution db orders) ∧ Sound (linkOrders execution db orders) := by
  induction orders generalizing db with
  | nil => exact ⟨Links.refl db, hsound⟩
  | cons order rest ih =>
    obtain ⟨hlinks, hsound'⟩ := linkOrder_fits hsound hfits.1
    rw [linkOrders]
    rcases hturn : linkOrder execution db order with ⟨db', e | u⟩
    · rw [hturn] at hlinks hsound'
      exact ⟨hlinks, hsound'⟩
    · have hrest := hfits.2 (by rw [hturn])
      rw [hturn] at hlinks hsound' hrest
      obtain ⟨hlinks', hsound''⟩ := ih hsound' hrest
      exact ⟨hlinks.trans hlinks', hsound''⟩

/-- **Linked executions that fit** obey the law, and keep the invariant. -/
theorem link_law (hsound : Sound db) {execution : ExitExecution}
    (hfits : StepFits db (.link execution)) :
    StepLaw db (.link execution) ∧ Sound (ExitStep.run db (.link execution)) := by
  have heffect : Links db (ExitStep.run db (.link execution)) ∧
      Sound (ExitStep.run db (.link execution)) := by
    rw [ExitStep.run, linkExecution]
    split
    · next hactive => exact linkOrders_fit hsound (hfits hactive)
    · exact ⟨Links.refl db, hsound⟩
  obtain ⟨hlinks, hsound'⟩ := heffect
  -- No row is closed or opened.
  have hrow : ∀ t ∈ db.trades.rows, ∀ t' ∈ (ExitStep.run db (.link execution)).trades.rows,
      t'.paperTradeId = t.paperTradeId → t'.status = t.status ∨ t'.status = .exitRequested := by
    intro t ht t' ht' hid
    obtain ⟨r, hr, hrid, hstatus⟩ := hlinks.marks t' ht'
    rw [trade_eq hr ht (hrid.trans hid)] at hstatus
    exact hstatus.imp id And.right
  have hopen : ∀ t ∈ db.trades.rows, t.status ≠ .closed →
      ∀ t' ∈ (ExitStep.run db (.link execution)).trades.rows,
        t'.paperTradeId = t.paperTradeId → t'.status ≠ .closed := by
    intro t ht hopen t' ht' hid hclosed
    rcases hrow t ht t' ht' hid with hsame | hmarked
    · exact hopen (hsame.symm.trans hclosed)
    · rw [hmarked] at hclosed
      cases hclosed
  refine ⟨⟨?_, ?_, ?_, ?_, ?_⟩, hsound'⟩
  · intro t ht hclosed
    refine ⟨hlinks.kept t ht hclosed, ?_⟩
    rw [paperOutcomes, paperOutcomes, hlinks.outcomes]
  · intro t ht hstatus
    refine ⟨?_, False.elim⟩
    rintro ⟨t', ht', hid, hclosed⟩
    exact hopen t ht hstatus t' ht' hid hclosed
  · intro t ht hstatus t' ht' hid hclosed
    exact absurd hclosed (hopen t ht hstatus t' ht' hid)
  · intro t ht hmarked t' ht' hid hopened
    rcases hrow t ht t' ht' hid with hsame | hmarked'
    · rw [hopened, hmarked] at hsame
      cases hsame
    · rw [hopened] at hmarked'
      cases hmarked'
  · intro pass hpass
    cases hpass

end Law

/-! ## Runs -/

section Runs

variable [Hashing]

/-- The exits as a machine. -/
def exitMachine (step : ExitStep) (db : ExitDb) : Option ExitDb := some (step.run db)

/-- A store before any exit: no trade is marked, and of a trade that is not closed no event of an
exit is stored and no outcome. -/
structure ExitStart (db : ExitDb) : Prop where
  /-- The identifiers of the outcomes tell the trades apart. -/
  distinct : ∀ t ∈ db.trades.rows, ∀ u ∈ db.trades.rows,
    exitOutcomeId t.paperTradeId = exitOutcomeId u.paperTradeId → t.paperTradeId = u.paperTradeId
  linked : ∀ t ∈ db.trades.rows, t.status ≠ .closed →
    ∃ decision, db.decisions.get? t.decisionId = some decision ∧
      checkEventLinkage db t decision = .ok ()
  unmarked : ∀ t ∈ db.trades.rows, t.status ≠ .exitRequested
  unsettled : ∀ t ∈ db.trades.rows, t.status ≠ .closed → ∀ o ∈ db.outcomes.rows,
    o.outcomeId ≠ exitOutcomeId t.paperTradeId ∧
      ¬ (o.paperTradeId = t.paperTradeId ∧ o.outcomeType = "paper_trade")
  untold : ∀ t ∈ db.trades.rows, t.status ≠ .closed → ∀ e ∈ db.events.rows,
    e.paperTradeId = t.paperTradeId → ¬ TellsExitFill e

theorem ExitStart.sound {db : ExitDb} (h : ExitStart db) : Sound db where
  distinct := h.distinct
  linked := h.linked
  current := fun t ht hmarked ↦ absurd hmarked (h.unmarked t ht)
  unsettled := h.unsettled
  filled := fun t ht hopen e he hid hfill ↦ absurd hfill (h.untold t ht hopen e he hid)

/-- **Exits close once.**  In a run of executions that fit and passes, whatever the broker answers,
every step obeys the law: a closed trade and its outcome stay, a trade is closed exactly by a pass
that validates a full fill of its order and has one outcome of the same amounts, it is opened again
by a terminal order without a fill only, and no pass rejects an order as changed. -/
theorem exits_close_once {db : ExitDb} (hstart : ExitStart db)
    {steps : List ExitStep} (hfits : Guarded exitMachine StepFits db steps) :
    Guarded exitMachine StepLaw db steps := by
  refine hfits.of_invariant (I := Sound) (fun db step db' hsound hfit hstep ↦ ?_)
    (fun db step hsound hfit ↦ ?_) hstart.sound
  · obtain rfl := Option.some_inj.1 hstep
    cases step with
    | link execution => exact (link_law hsound hfit).2
    | reconcile pass => exact (pass_law hsound pass).2
  · cases step with
    | link execution => exact (link_law hsound hfit).1
    | reconcile pass => exact (pass_law hsound pass).1

end Runs

namespace Specimen

/-- A decision of a paper account. -/
def exitDecision : DecisionRow :=
  { decisionId := "d", decisionGroupId := "g", engineRunId := "run", candidateId := "c",
    accountMode := "paper", strategyVersion := "v", configurationVersionId := "conf" }

/-- Its trade: one contract, bought at 1. -/
def openTrade : PaperTradeRow :=
  { paperTradeId := "t", decisionId := "d", candidateId := "c", tradingDate := "2026-01-02",
    underlyingSymbol := "SPY", optionSymbol := "SPY260102C00001000", status := .opened,
    quantity := 1, entryPremium := some 1, filledAt := some 1, updatedAt := 1 }

def exitStore : ExitDb :=
  { engineRuns := ["run"], configurationVersions := ["conf"], candidateIds := ["c"],
    decisions := .ofRows [exitDecision], trades := .ofRows [openTrade] }

/-- One exit order, reported at a time. -/
def report (now : Time) : ExitStep :=
  .link
    { now, tradingDate := "2026-01-02", candidateSymbols := ["SPY260102C00001000"],
      submittedOrders :=
        [{ symbol := "SPY260102C00001000", reason := "STOP", alpacaOrderId := some "b1",
           clientOrderId := some "c1", status := some "accepted" }] }

/-- A pass at 20 that finds the order filled at 2. -/
def fillPass : ExitPass where
  initialAsOf := 20
  getOrder _ _ :=
    { response := .ok
        { id := some "b1", clientOrderId := some "c1", symbol := "SPY260102C00001000",
          side := some "sell", positionIntent := some "sell_to_close", status := some "filled",
          qty := some 1, filledQty := some (some 1), filledAvgPrice := some 2,
          filledAt := some 15 }
      observedAt := 20 }

/-- The trade, closed by the pass. -/
def closedTrade : PaperTradeRow :=
  { openTrade with
    status := .closed, exitPremium := some 2, realizedPnl := some 100, returnPct := some 100,
    terminalState := some "closed", exitReasonCode := some "STOP", exitRequestedAt := some 10,
    exitedAt := some 15, updatedAt := 20 }

theorem exitStart_exitStore :
    let _ := AlpacaTrading.Specimen.hashing
    ExitStart exitStore := by
  intro _
  refine ⟨?_, ?_, ?_, ?_, ?_⟩
  · intro t ht u hu _
    rw [List.mem_singleton.1 ht, List.mem_singleton.1 hu]
  · intro t ht _
    rw [List.mem_singleton.1 ht]
    exact ⟨exitDecision, rfl, by decide +kernel⟩
  · intro t ht
    rw [List.mem_singleton.1 ht]
    decide
  · exact fun _ _ _ o ho ↦ absurd ho List.not_mem_nil
  · exact fun _ _ _ e he ↦ absurd he List.not_mem_nil

/-- An order reported once is filled and closes its trade, lawfully. -/
theorem exitStore_closes_once :
    let _ := AlpacaTrading.Specimen.hashing
    Guarded exitMachine StepLaw exitStore [report 10, report 10, .reconcile fillPass] :=
  @exits_close_once AlpacaTrading.Specimen.hashing _ exitStart_exitStore _ (by decide +kernel)

/-- **Reporting an order again** marks its closed trade, and makes a pass reject the order as
changed. -/
theorem report_again_breaks :
    let _ := AlpacaTrading.Specimen.hashing
    ExitStart exitStore ∧
      ¬ Guarded exitMachine StepLaw exitStore [report 10, .reconcile fillPass, report 30] ∧
      ¬ Guarded exitMachine StepLaw exitStore [report 10, report 12, .reconcile fillPass] := by
  intro _
  refine ⟨exitStart_exitStore, fun h ↦ ?_, fun h ↦ ?_⟩
  · have hlaw := ((h.2 _ rfl).2 _ rfl).1
    exact absurd (hlaw.final closedTrade (by decide +kernel) rfl).1 (by decide +kernel)
  · have hlaw := ((h.2 _ rfl).2 _ rfl).1
    obtain ⟨paperTradeId, brokerOrderId, hanswer⟩ :=
      hlaw.accepts fillPass rfl (some "t", .message "EXIT_ORDER_REQUEST_CHANGED")
        (by decide +kernel) rfl
    cases hanswer

end Specimen

end ZeroDte

end AlpacaTrading
