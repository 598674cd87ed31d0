import AlpacaTrading.Worker.State
import Mathlib.Data.List.Basic

/-!
# What a call of the worker's state service does

`persist_ok` says all that is known of a call that succeeds: it found its event and changed nothing,
or it added a row for it, after the row that closes an orphan if there is one.

## The invariant

`Sound` holds of every state reached from empty tables, whatever the clocks of the calls were: the
identifiers are those of the rows, the first event of a cycle is the only one that opens it, and the
failures are those of the failed events.

The window of an active cycle ends at the time of a call, and calls may commit in another order than
that of their times.  That an orphan is the *latest* of the active cycles makes up for it
(`Sound.activeStarts_closed`): what is active in a later window is the latest of an earlier one.
-/

namespace AlpacaTrading

namespace Worker

open Redaction WorkerIds

/-! ## Rows that are stored -/

section Insert

variable {ρ κ : Type*} [Row ρ κ] {t : Table ρ} {r : ρ}

theorem insertOnce_of_free (h : ∀ x ∈ t.rows, ¬ Row.clash x r) :
    (insertOnce t r).1.rows = t.rows ++ [r] ∧ (insertOnce t r).2 = true := by
  obtain ⟨t', ht⟩ := Table.insert?_isSome h
  rw [insertOnce, ht]
  exact ⟨Table.rows_of_insert? ht, rfl⟩

end Insert

/-- No row is later than the one selected for its time. -/
theorem le_of_firstBy {ρ : Type*} {time : ρ → Time} {l : List ρ} {r : ρ}
    (h : firstBy (fun a b ↦ decide (time b < time a)) l = some r) :
    ∀ x ∈ l, time x ≤ time r := by
  induction l generalizing r with
  | nil => exact fun x hx ↦ absurd hx List.not_mem_nil
  | cons y rest ih =>
    rw [firstBy] at h
    rcases hrest : firstBy (fun a b ↦ decide (time b < time a)) rest with - | best
    · have hempty : rest = [] := by
        rcases rest with - | ⟨z, rest⟩
        · rfl
        · rw [firstBy] at hrest
          split at hrest
          · cases hrest
          · split at hrest <;> cases hrest
      rw [hrest] at h
      obtain rfl := Option.some_inj.1 h
      rw [hempty]
      exact fun x hx ↦ (congrArg time (List.mem_singleton.1 hx)).le
    · have hbest := ih hrest
      simp only [hrest] at h
      rw [List.forall_mem_cons]
      split at h
      · next hlater =>
        obtain rfl := Option.some_inj.1 h
        exact ⟨(of_decide_eq_true hlater).le, hbest⟩
      · next hlater =>
        obtain rfl := Option.some_inj.1 h
        refine ⟨le_rfl, fun x hx ↦ (hbest x hx).trans (not_lt.1 fun hlt ↦ hlater ?_)⟩
        exact decide_eq_true hlt

section

variable [WorkerIds]

/-- The types of a cycle's first event. -/
def AutonomousWorkerEventType.opens (eventType : AutonomousWorkerEventType) : Prop :=
  eventType = .cycleStarted ∨ eventType = .preflightFailed

/-- The part of a failure row that is its event's. -/
def WorkerFailure.ofEvent (f : WorkerFailure) : String × Time × Json :=
  (f.eventId, f.failedAt, f.details)

/-- The same part of an event. -/
def WorkerEvent.asFailure (e : WorkerEvent) : String × Time × Json :=
  (e.eventId, e.occurredAt, e.payload)

/-- What holds of the tables in every run. -/
structure WorkerDb.Sound (db : WorkerDb) : Prop where
  /-- The identifiers are derived from the rows. -/
  ids : ∀ e ∈ db.events.rows, ∃ key : EventKey, e = key.row
  /-- Only the first event of a cycle opens it. -/
  opened : db.events.rows.Pairwise fun a b ↦ a.entityId = b.entityId → ¬ b.eventType.opens
  /-- The failures are those of the failed events, in their order. -/
  failures : db.failures.rows.map WorkerFailure.ofEvent =
    (db.events.rows.filter fun e ↦ e.eventType.isFailed).map WorkerEvent.asFailure

/-! ## One event -/

namespace WorkerDb.Sound

variable {db : WorkerDb} {key : EventKey} {input : AutonomousWorkerStateInput} {now : Time}

/-- Rows with the identifier of an event are of its cycle and its type. -/
theorem eq_of_eventId (hs : db.Sound) {e : WorkerEvent} (he : e ∈ db.events.rows)
    (h : e.eventId = eventId key) : e.entityId = key.cycleId ∧ e.eventType = key.eventType := by
  obtain ⟨key', rfl⟩ := hs.ids e he
  obtain ⟨hcycle, htype, -⟩ := eventId_inj h
  exact ⟨hcycle, htype⟩

theorem failures_free (hs : db.Sound) (hfree : ∀ e ∈ db.events.rows, e.eventId ≠ eventId key) :
    ∀ f ∈ db.failures.rows, f.eventId ≠ eventId key := by
  intro f hf heq
  have hmem : f.ofEvent ∈ (db.events.rows.filter fun e ↦ e.eventType.isFailed).map
      WorkerEvent.asFailure := hs.failures ▸ List.mem_map_of_mem hf
  obtain ⟨e, he, hef⟩ := List.mem_map.1 hmem
  exact hfree e (List.mem_filter.1 he).1 ((congrArg Prod.fst hef).trans heq)

/-- Tables that grow by one event, and by its failure if it is one. -/
theorem append (hs : db.Sound) {db' : WorkerDb} {f : WorkerFailure}
    (hopen : ∀ e ∈ db.events.rows, e.entityId = key.cycleId → ¬ key.eventType.opens)
    (hevents : db'.events.rows = db.events.rows ++ [key.row])
    (hfailures : db'.failures.rows =
      db.failures.rows ++ if key.eventType.isFailed then [f] else [])
    (hf : f.ofEvent = key.row.asFailure) : db'.Sound where
  ids := by
    intro e he
    rw [hevents, List.mem_append, List.mem_singleton] at he
    rcases he with he | rfl
    · exact hs.ids e he
    · exact ⟨key, rfl⟩
  opened := by
    rw [hevents, List.pairwise_append]
    refine ⟨hs.opened, List.pairwise_singleton _ _, fun a ha b hb ↦ ?_⟩
    obtain rfl := List.mem_singleton.1 hb
    exact hopen a ha
  failures := by
    rw [hevents, hfailures, List.map_append, List.filter_append, List.map_append, hs.failures]
    congr 1
    have htype : key.row.eventType = key.eventType := rfl
    rw [List.filter_singleton, htype]
    cases key.eventType.isFailed with
    | false => rfl
    | true => exact congrArg (fun x ↦ [x]) hf

end WorkerDb.Sound

end

/-! ## The orphan of a cycle -/

section Orphan

variable {db : WorkerDb} {now t : Time} {cycleId orphan : String}

theorem mem_activeStarts {e : WorkerEvent} : e ∈ db.activeStarts now ↔
    e ∈ db.events.rows ∧ e.eventType = .cycleStarted ∧ now - activeCycleWindow ≤ e.occurredAt ∧
      db.hasTerminal e.entityId = false := by
  rw [WorkerDb.activeStarts, List.mem_filter, decide_eq_true_iff, Bool.not_eq_true]

/-- The window only moves on. -/
theorem activeStarts_mono (h : now ≤ t) {e : WorkerEvent} (he : e ∈ db.activeStarts t) :
    e ∈ db.activeStarts now := by
  obtain ⟨hrow, htype, hwindow, hterminal⟩ := mem_activeStarts.1 he
  exact mem_activeStarts.2 ⟨hrow, htype, (sub_le_sub_right h _).trans hwindow, hterminal⟩

theorem hasTerminal_eq_true : db.hasTerminal cycleId = true ↔
    ∃ e ∈ db.events.rows, e.entityId = cycleId ∧ e.eventType.isTerminal = true := by
  rw [WorkerDb.hasTerminal, List.any_eq_true]
  exact exists_congr fun e ↦ and_congr_right fun _ ↦ decide_eq_true_iff

theorem orphan_mem (h : db.orphanedCycleId now cycleId = some orphan) :
    ∃ e ∈ db.activeStarts now, e.entityId = orphan ∧ orphan ≠ cycleId ∧
      ∀ e' ∈ db.activeStarts now, e'.entityId ≠ cycleId → e'.occurredAt ≤ e.occurredAt := by
  obtain ⟨e, he, rfl⟩ := Option.map_eq_some_iff.1 h
  obtain ⟨hactive, hother⟩ := List.mem_filter.1 (mem_of_firstBy he)
  refine ⟨e, hactive, rfl, of_decide_eq_true hother, fun e' he' hne ↦ ?_⟩
  exact le_of_firstBy he e' (List.mem_filter.2 ⟨he', decide_eq_true hne⟩)

theorem eq_of_no_orphan (h : db.orphanedCycleId now cycleId = none) {e : WorkerEvent}
    (he : e ∈ db.activeStarts now) : e.entityId = cycleId := by
  by_contra hne
  have hmem : e ∈ (db.activeStarts now).filter fun e ↦ e.entityId ≠ cycleId :=
    List.mem_filter.2 ⟨he, decide_eq_true hne⟩
  rw [WorkerDb.orphanedCycleId, Option.map_eq_none_iff] at h
  generalize (db.activeStarts now).filter (fun e ↦ e.entityId ≠ cycleId) = l at h hmem
  rcases l with - | ⟨x, l⟩
  · exact List.not_mem_nil hmem
  · rw [firstBy] at h
    split at h
    · cases h
    · split at h <;> cases h

end Orphan

/-! ## A call -/

section Call

variable [WorkerIds] [TextRedaction] {db db' closed : WorkerDb} {now clock occurredAt : Time}
  {input : AutonomousWorkerStateInput} {fence : Option SchedulerFence} {result : PersistResult}
  {orphan replacement : String}

/-- Tables after one more event, and its failure if it is one. -/
structure Adds (db db' : WorkerDb) (key : EventKey) : Prop where
  /-- The event is new. -/
  fresh : ∀ e ∈ db.events.rows, e.eventId ≠ eventId key
  events : db'.events.rows = db.events.rows ++ [key.row]
  failures : ∃ f : WorkerFailure, f.ofEvent = key.row.asFailure ∧
    db'.failures.rows = db.failures.rows ++ if key.eventType.isFailed then [f] else []
  leases : db'.leases = db.leases

theorem adds_closeOrphan (hs : db.Sound) (hterminal : db.hasTerminal orphan = false) :
    Adds db (closeOrphan db orphan replacement occurredAt)
      (closingKey orphan replacement occurredAt) := by
  have hfresh : ∀ e ∈ db.events.rows,
      e.eventId ≠ eventId (closingKey orphan replacement occurredAt) := by
    -- An event with this identifier would end the cycle.
    intro e he heq
    obtain ⟨hcycle, htype⟩ := hs.eq_of_eventId he heq
    refine Bool.false_ne_true (hterminal.symm.trans (hasTerminal_eq_true.2 ⟨e, he, hcycle, ?_⟩))
    rw [htype]
    rfl
  obtain ⟨hrows, hinserted⟩ := insertOnce_of_free (t := db.events)
    (r := (closingKey orphan replacement occurredAt).row) hfresh
  refine ⟨hfresh, hrows, ⟨orphanFailure (closingKey orphan replacement occurredAt).row, rfl, ?_⟩,
    rfl⟩
  rw [closeOrphan, if_pos hinserted]
  exact (insertOnce_of_free (hs.failures_free hfresh)).1

omit [TextRedaction] in
theorem adds_storeEvent (hs : db.Sound) (key : EventKey)
    (hfresh : ∀ e ∈ db.events.rows, e.eventId ≠ eventId key) :
    Adds db (storeEvent db input key.row) key := by
  refine ⟨hfresh, (insertOnce_of_free (t := db.events) (r := key.row) hfresh).1,
    ⟨failureRow input key.row, rfl, ?_⟩, rfl⟩
  have htype : key.row.eventType = key.eventType := rfl
  rw [storeEvent, htype]
  split
  · exact (insertOnce_of_free (hs.failures_free hfresh)).1
  · rw [List.append_nil]

omit [TextRedaction] in
theorem Adds.sound {key : EventKey} (h : Adds db db' key) (hs : db.Sound)
    (hopen : ∀ e ∈ db.events.rows, e.entityId = key.cycleId → ¬ key.eventType.opens) :
    db'.Sound := by
  obtain ⟨f, hf, hfailures⟩ := h.failures
  exact hs.append hopen h.events hfailures hf

/-- What a call that stores something does: it closes the orphan, if there is one, and adds its own
event. -/
structure Stored (db : WorkerDb) (now : Time) (input : AutonomousWorkerStateInput)
    (occurredAt : Time) (closed db' : WorkerDb) : Prop where
  orphan : (db.resumed now input = none ∧ closed = db) ∨
    ∃ orphan, db.resumed now input = some orphan ∧
      Adds db closed (closingKey orphan input.cycleId occurredAt)
  adds : Adds closed db' (input.key occurredAt)
  check : checkTransition closed input = .ok ()
  /-- An event of a workstream names it. -/
  named : input.eventType.isWorkstream = true → input.workstreamName ≠ []

theorem Stored.of_withoutOrphan (hs : db.Sound)
    (hfresh : ∀ e ∈ db.events.rows, e.eventId ≠ eventId (input.key occurredAt))
    (hcheck : checkTransition (db.withoutOrphan now input occurredAt) input = .ok ())
    (hnamed : input.eventType.isWorkstream = true → input.workstreamName ≠ []) :
    Stored db now input occurredAt (db.withoutOrphan now input occurredAt)
      (storeEvent (db.withoutOrphan now input occurredAt) input (input.key occurredAt).row) := by
  rcases horphan : db.resumed now input with - | orphan
  · have hclosed : db.withoutOrphan now input occurredAt = db := by
      rw [WorkerDb.withoutOrphan, horphan]
      rfl
    rw [hclosed] at hcheck ⊢
    exact ⟨.inl ⟨horphan, rfl⟩, adds_storeEvent hs _ hfresh, hcheck, hnamed⟩
  · have hclosed : db.withoutOrphan now input occurredAt =
        closeOrphan db orphan input.cycleId occurredAt := by
      rw [WorkerDb.withoutOrphan, horphan]
      rfl
    rw [hclosed] at hcheck ⊢
    have hfound := horphan
    rw [WorkerDb.resumed] at hfound
    split at hfound
    · obtain ⟨e, he, rfl, hne, -⟩ := orphan_mem hfound
      have hadds : Adds db (closeOrphan db e.entityId input.cycleId occurredAt)
          (closingKey e.entityId input.cycleId occurredAt) :=
        adds_closeOrphan hs (mem_activeStarts.1 he).2.2.2
      have hsound := hadds.sound hs fun _ _ _ hopens ↦ by rcases hopens with h | h <;> cases h
      refine ⟨.inr ⟨_, horphan, hadds⟩, adds_storeEvent hsound _ ?_, hcheck, hnamed⟩
      rw [hadds.events, List.forall_mem_append, List.forall_mem_singleton]
      exact ⟨hfresh, fun heq ↦ hne (eventId_inj heq).1⟩
    · cases hfound

/-- **A call that succeeds has found its event or has stored it.** -/
theorem persist_ok [Locale] (hs : db.Sound)
    (h : persistAutonomousWorkerStateWithClient db now clock input fence = .ok (result, db')) :
    ∃ occurredAt, Locale.dateParse input.occurredAt = some occurredAt ∧
      result.eventId = eventId (input.key occurredAt) ∧
      ((∃ e ∈ db.events.rows, e.eventId = result.eventId) ∧ result.replayed = true ∧ db' = db ∨
        result.replayed = false ∧ ∃ closed, Stored db now input occurredAt closed db') := by
  rw [persistAutonomousWorkerStateWithClient] at h
  obtain ⟨-, -, h⟩ := bind_eq_ok.1 h
  obtain ⟨occurredAt, htime, h⟩ := bind_eq_ok.1 h
  obtain ⟨-, -, h⟩ := bind_eq_ok.1 h
  obtain ⟨_, hnamed, h⟩ := bind_eq_ok.1 h
  rw [require_eq_ok, decide_eq_true_iff] at hnamed
  have hparse : Locale.dateParse input.occurredAt = some occurredAt := by
    rcases hd : Locale.dateParse input.occurredAt with - | time
    · rw [hd] at htime
      cases htime
    · rw [hd] at htime
      exact congrArg some (Except.ok.inj htime)
  refine ⟨occurredAt, hparse, ?_⟩
  dsimp only at h
  split at h
  · next hfound =>
    obtain ⟨rfl, rfl⟩ := Prod.mk.inj (Except.ok.inj h)
    obtain ⟨e, he, heq⟩ := List.any_eq_true.1 hfound
    exact ⟨rfl, .inl ⟨⟨e, he, of_decide_eq_true heq⟩, rfl, rfl⟩⟩
  · next hfound =>
    obtain ⟨_, hcheck, h⟩ := bind_eq_ok.1 h
    obtain ⟨rfl, rfl⟩ := Prod.mk.inj (Except.ok.inj h)
    refine ⟨rfl, .inr ⟨rfl, db.withoutOrphan now input occurredAt, ?_⟩⟩
    have hfresh : ∀ e ∈ db.events.rows, e.eventId ≠ eventId (input.key occurredAt) :=
      fun e he heq ↦ hfound (List.any_eq_true.2 ⟨e, he, decide_eq_true heq⟩)
    exact .of_withoutOrphan hs hfresh hcheck fun hstream hname ↦ hnamed ⟨hstream, hname⟩

end Call

end Worker

end AlpacaTrading
