import AlpacaTrading.Worker.Steps

/-!
# The log of a cycle

What the tables hold after any run of calls of the worker's state service.

`Sound.run` carries the invariant over runs.  From it follow that the failures are those of the
failed events and that at most one cycle is active (`AtMostOneActive`).

The service compares a new event with the *latest* event of its cycle, so the log of a cycle is well
formed when its events were stored in the order of their times (`InOrder`), which the worker sees to
by taking the time when it stores.  `CycleLog` says what well formed is: the workstreams of a cycle
do not overlap, each is completed under its own name before the next one starts, one that fails is
the last, and a cycle completes only when none is unfinished.
-/

namespace AlpacaTrading

namespace Worker

open Redaction WorkerIds TextRedaction

/-! ## Transitions -/

theorem firstBy_eq_none {ρ : Type*} {precedes : ρ → ρ → Bool} {l : List ρ} :
    firstBy precedes l = none ↔ l = [] := by
  rcases l with - | ⟨x, l⟩
  · exact iff_of_true rfl rfl
  · refine iff_of_false (fun h ↦ ?_) (List.cons_ne_nil x l)
    rw [firstBy] at h
    split at h
    · cases h
    · split at h <;> cases h

theorem allowedTransition_opens {previous : Option AutonomousWorkerEventType}
    {next : AutonomousWorkerEventType} (h : allowedTransition previous next = true)
    (hopens : next.opens) : previous = none := by
  rcases previous with - | previous
  · rfl
  · exfalso
    revert h
    rcases hopens with rfl | rfl <;> cases previous <;> decide

/-- What may follow an event, apart from the worker's stop. -/
def AutonomousWorkerEventType.followers :
    AutonomousWorkerEventType → List AutonomousWorkerEventType
  | .cycleStarted => [.workstreamStarted, .cycleFailed]
  | .workstreamStarted => [.workstreamCompleted, .workstreamFailed, .cycleFailed]
  | .workstreamCompleted => [.workstreamStarted, .cycleCompleted, .cycleFailed]
  | .workstreamFailed => [.cycleFailed]
  | _ => []

theorem allowedTransition_some {previous next : AutonomousWorkerEventType}
    (h : allowedTransition (some previous) next = true) (hnext : next ≠ .workerStopped) :
    next ∈ previous.followers := by
  revert h hnext
  cases previous <;> cases next <;> decide

theorem not_allowedTransition_stopped {next : AutonomousWorkerEventType} :
    allowedTransition (some .workerStopped) next = false := by
  cases next <;> rfl

theorem checkTransition_ok {db : WorkerDb} {input : AutonomousWorkerStateInput} {u : Unit}
    (h : checkTransition db input = .ok u) :
    allowedTransition ((db.previous input.cycleId).map (·.eventType)) input.eventType = true ∧
      (input.eventType = .workstreamCompleted ∨ input.eventType = .workstreamFailed →
        ∀ s, db.previous input.cycleId = some s → s.eventType = .workstreamStarted →
          s.workstream = some input.workstreamName) := by
  rw [checkTransition] at h
  obtain ⟨_, hallowed, h⟩ := bind_eq_ok.1 h
  rw [require_eq_ok, decide_eq_true_iff] at h
  refine ⟨require_eq_ok.1 hallowed, fun htype s hs hstarted ↦ ?_⟩
  by_contra hne
  rw [hs] at h
  exact h ⟨htype, congrArg some hstarted, hne⟩

section

variable [WorkerIds]

/-! ## The rows of one cycle -/

/-- The events of a cycle, as they were stored. -/
def WorkerDb.log (db : WorkerDb) (cycleId : String) : List WorkerEvent :=
  db.events.rows.filter fun e ↦ e.entityId = cycleId

/-- The events of a cycle were stored in the order of their times. -/
def WorkerDb.InOrder (db : WorkerDb) (cycleId : String) : Prop :=
  (db.log cycleId).Pairwise fun a b ↦ b.supersedes a = true

variable {db db' : WorkerDb} {key : EventKey} {cycleId : String}

theorem Adds.log_self (h : Adds db db' key) :
    db'.log key.cycleId = db.log key.cycleId ++ [key.row] := by
  have hself : key.row.entityId = key.cycleId := rfl
  rw [WorkerDb.log, h.events, List.filter_append, List.filter_singleton, decide_eq_true hself]
  rfl

theorem Adds.log_other (h : Adds db db' key) (hne : key.cycleId ≠ cycleId) :
    db'.log cycleId = db.log cycleId := by
  have hother : ¬ key.row.entityId = cycleId := hne
  rw [WorkerDb.log, h.events, List.filter_append, List.filter_singleton, decide_eq_false hother]
  exact List.append_nil _

theorem Adds.hasTerminal (h : Adds db db' key) (hterminal : db.hasTerminal cycleId = true) :
    db'.hasTerminal cycleId = true := by
  obtain ⟨e, he, hcycle, htype⟩ := hasTerminal_eq_true.1 hterminal
  refine hasTerminal_eq_true.2 ⟨e, ?_, hcycle, htype⟩
  rw [h.events]
  exact List.mem_append_left _ he

omit [WorkerIds] in
theorem previous_eq_none : db.previous cycleId = none ↔ db.log cycleId = [] := firstBy_eq_none

omit [WorkerIds] in
/-- The latest event of a cycle is its last, if its events are in order. -/
theorem previous_eq_getLast? (h : db.InOrder cycleId) :
    db.previous cycleId = (db.log cycleId).getLast? := by
  have hprevious : db.previous cycleId = firstBy WorkerEvent.supersedes (db.log cycleId) := rfl
  rw [WorkerDb.InOrder] at h
  rw [hprevious]
  rcases List.eq_nil_or_concat' (db.log cycleId) with hnil | ⟨init, last, hlog⟩
  · rw [hnil]
    rfl
  · rw [hlog, List.pairwise_append] at h
    rw [hlog, List.getLast?_concat]
    exact firstBy_append fun x hx ↦ h.2.2 x hx last (List.mem_singleton_self last)

end

/-! ## Runs -/

section Runs

variable [WorkerIds] [TextRedaction] {db db' closed : WorkerDb} {now occurredAt : Time}
  {input : AutonomousWorkerStateInput}

theorem Stored.not_opens (h : Stored db now input occurredAt closed db') :
    ∀ e ∈ closed.events.rows, e.entityId = input.cycleId → ¬ input.eventType.opens := by
  intro e he hcycle hopens
  have hnone := allowedTransition_opens (checkTransition_ok h.check).1 hopens
  rw [Option.map_eq_none_iff, previous_eq_none] at hnone
  have hmem : e ∈ closed.log input.cycleId := List.mem_filter.2 ⟨he, decide_eq_true hcycle⟩
  rw [hnone] at hmem
  exact List.not_mem_nil hmem

theorem Stored.sound_closed (h : Stored db now input occurredAt closed db') (hs : db.Sound) :
    closed.Sound := by
  rcases h.orphan with ⟨-, rfl⟩ | ⟨orphan, -, hadds⟩
  · exact hs
  · exact hadds.sound hs fun _ _ _ hopens ↦ by rcases hopens with h | h <;> cases h

theorem Stored.sound (h : Stored db now input occurredAt closed db') (hs : db.Sound) :
    db'.Sound :=
  h.adds.sound (h.sound_closed hs) h.not_opens

/-- A property of sound tables that changes of the leases and the storing of an event keep, the
service keeps. -/
theorem step_keeps [Locale] {I : WorkerDb → Prop} {act : WorkerAct}
    (hleases : ∀ leases, I db → I { db with leases })
    (hstored : ∀ now clock input fence occurredAt closed db', act = .persist now clock input fence →
      Stored db now input occurredAt closed db' → I db → I db')
    (hs : db.Sound) (h : I db) : I (db.step act) := by
  rcases act with ⟨now, clock, input, fence⟩ | leases
  · rw [WorkerDb.step]
    rcases hcall : persistAutonomousWorkerStateWithClient db now clock input fence with
      e | ⟨result, db'⟩
    · exact h
    · obtain ⟨occurredAt, -, -, ⟨-, -, rfl⟩ | ⟨-, closed, hstore⟩⟩ := persist_ok hs hcall
      · exact h
      · exact hstored now clock input fence occurredAt closed db' rfl hstore h
  · exact hleases leases h

theorem Sound.step [Locale] (hs : db.Sound) (act : WorkerAct) : (db.step act).Sound :=
  step_keeps (fun _ h ↦ ⟨h.ids, h.opened, h.failures⟩) (fun _ _ _ _ _ _ _ _ h hs ↦ h.sound hs) hs hs

omit [TextRedaction] in
theorem sound_empty : WorkerDb.Sound {} where
  ids := fun _ h ↦ absurd h List.not_mem_nil
  opened := List.Pairwise.nil
  failures := rfl

/-- **The invariant holds in every run.** -/
theorem Sound.run [Locale] (hs : db.Sound) (acts : List WorkerAct) : (db.run acts).Sound := by
  induction acts generalizing db with
  | nil => exact hs
  | cons act rest ih => exact ih (Sound.step hs act)

/-! ## One active cycle -/

/-- No two starts are active in a window. -/
def AtMostOneActive (db : WorkerDb) (t : Time) : Prop :=
  ∀ a ∈ db.activeStarts t, ∀ b ∈ db.activeStarts t, a = b

omit [TextRedaction] in
/-- What is active after an event was active before it, or is the event. -/
theorem Adds.activeStarts {key : EventKey} {t : Time} (h : Adds db db' key) {e : WorkerEvent}
    (he : e ∈ db'.activeStarts t) :
    e ∈ db.activeStarts t ∨ e = key.row ∧ key.eventType = .cycleStarted := by
  obtain ⟨hrow, htype, hwindow, hterminal⟩ := mem_activeStarts.1 he
  rw [h.events, List.mem_append, List.mem_singleton] at hrow
  rcases hrow with hrow | rfl
  · refine .inl (mem_activeStarts.2 ⟨hrow, htype, hwindow, ?_⟩)
    by_contra hbefore
    rw [Bool.not_eq_false] at hbefore
    exact Bool.false_ne_true (hterminal.symm.trans (h.hasTerminal hbefore))
  · exact .inr ⟨rfl, htype⟩

omit [TextRedaction] in
/-- The event that closes a cycle takes it from the active ones. -/
theorem Adds.not_active {key : EventKey} {t : Time} (h : Adds db db' key)
    (hterminal : key.eventType.isTerminal = true) {e : WorkerEvent} (he : e ∈ db'.activeStarts t) :
    e.entityId ≠ key.cycleId := by
  intro hcycle
  refine Bool.false_ne_true ((mem_activeStarts.1 he).2.2.2.symm.trans
    (hasTerminal_eq_true.2 ⟨key.row, ?_, hcycle.symm, hterminal⟩))
  rw [h.events]
  exact List.mem_append_right _ (List.mem_singleton_self _)

/-- A cycle that starts finds every other one closed, from the time of the call on. -/
theorem Stored.activeStarts_closed (h : Stored db now input occurredAt closed db')
    (hstart : input.eventType = .cycleStarted) {t : Time} (ht : now ≤ t)
    (hone : AtMostOneActive db t) {e : WorkerEvent} (he : e ∈ closed.activeStarts t) : False := by
  have hopens := h.not_opens
  rw [hstart] at hopens
  have hother : e.entityId ≠ input.cycleId := fun hcycle ↦
    hopens e (mem_activeStarts.1 he).1 hcycle (.inl rfl)
  have hresumed : db.resumed now input = db.orphanedCycleId now input.cycleId := if_pos hstart
  rcases h.orphan with ⟨hnone, rfl⟩ | ⟨orphan, hsome, hadds⟩
  · exact hother (eq_of_no_orphan (hresumed.symm.trans hnone) (activeStarts_mono ht he))
  · obtain ⟨latest, hlatest, rfl, -, hmax⟩ := orphan_mem (hresumed.symm.trans hsome)
    have hbefore : e ∈ db.activeStarts t := by
      rcases hadds.activeStarts he with hbefore | ⟨-, htype⟩
      · exact hbefore
      · cases htype
    -- The orphan is later than any other active start, and so in the window too.
    have hle := hmax e (activeStarts_mono ht hbefore) hother
    obtain ⟨hrow, htype, -, hterminal⟩ := mem_activeStarts.1 hlatest
    have hin : latest ∈ db.activeStarts t := mem_activeStarts.2
      ⟨hrow, htype, (mem_activeStarts.1 hbefore).2.2.1.trans hle, hterminal⟩
    refine hadds.not_active rfl he ?_
    rw [hone e hbefore latest hin]
    rfl

theorem Stored.atMostOneActive (h : Stored db now input occurredAt closed db') {t : Time}
    (ht : now ≤ t) (hone : AtMostOneActive db t) : AtMostOneActive db' t := by
  by_cases hstart : input.eventType = .cycleStarted
  · have hnew : ∀ e ∈ db'.activeStarts t, e = (input.key occurredAt).row := by
      intro e he
      rcases h.adds.activeStarts he with hbefore | ⟨rfl, -⟩
      · exact (h.activeStarts_closed hstart ht hone hbefore).elim
      · rfl
    exact fun a ha b hb ↦ (hnew a ha).trans (hnew b hb).symm
  · have hclosed : closed = db := by
      have hnone : db.resumed now input = none := if_neg hstart
      rcases h.orphan with ⟨-, hclosed⟩ | ⟨orphan, hsome, -⟩
      · exact hclosed
      · exact nomatch hnone.symm.trans hsome
    have hold : ∀ e ∈ db'.activeStarts t, e ∈ db.activeStarts t := by
      intro e he
      rcases h.adds.activeStarts he with hbefore | ⟨-, htype⟩
      · exact hclosed ▸ hbefore
      · exact absurd htype hstart
    exact fun a ha b hb ↦ hone a (hold a ha) b (hold b hb)

/-- The time of a call. -/
def WorkerAct.now? : WorkerAct → Option Time
  | .persist now _ _ _ => some now
  | .leases _ => none

theorem run_atMostOneActive [Locale] {acts : List WorkerAct} {t : Time}
    (ht : ∀ act ∈ acts, ∀ now ∈ act.now?, now ≤ t) (hs : db.Sound)
    (hone : AtMostOneActive db t) : AtMostOneActive (db.run acts) t := by
  induction acts generalizing db with
  | nil => exact hone
  | cons act rest ih =>
    obtain ⟨hact, hrest⟩ := List.forall_mem_cons.1 ht
    have hstep : AtMostOneActive (db.step act) t := by
      refine step_keeps (I := fun db ↦ AtMostOneActive db t) (fun _ h ↦ h) ?_ hs hone
      rintro now clock input fence occurredAt closed db' rfl hstore
      exact hstore.atMostOneActive (hact now rfl)
    exact ih hrest (Sound.step hs act) hstep

/-- **At most one cycle is active.**  Whatever the order of the calls and of their clocks, two
cycles without a terminal event are not both in the window that ends at a time no call is after. -/
theorem active_cycle_unique [Locale] (acts : List WorkerAct) (t : Time)
    (ht : ∀ act ∈ acts, ∀ now ∈ act.now?, now ≤ t) :
    AtMostOneActive (WorkerDb.run {} acts) t :=
  run_atMostOneActive ht sound_empty fun _ h ↦ absurd (mem_activeStarts.1 h).1 List.not_mem_nil

/-! ## The first event of a cycle -/

/-- Every cycle was opened. -/
def Begun (db : WorkerDb) : Prop :=
  ∀ e ∈ db.events.rows, ∃ f ∈ db.events.rows, f.entityId = e.entityId ∧ f.eventType.opens

omit [TextRedaction] in
theorem Adds.begun {key : EventKey} (h : Adds db db' key) (hbegun : Begun db)
    (hkey : key.eventType.opens ∨ ∃ e ∈ db.events.rows, e.entityId = key.cycleId) : Begun db' := by
  intro e he
  rw [h.events, List.mem_append, List.mem_singleton] at he
  rw [h.events]
  rcases he with he | rfl
  · obtain ⟨f, hf, hopens⟩ := hbegun e he
    exact ⟨f, List.mem_append_left _ hf, hopens⟩
  · rcases hkey with hopens | ⟨e, he, hcycle⟩
    · exact ⟨key.row, List.mem_append_right _ (List.mem_singleton_self _), rfl, hopens⟩
    · obtain ⟨f, hf, hfe, hopens⟩ := hbegun e he
      exact ⟨f, List.mem_append_left _ hf, hfe.trans hcycle, hopens⟩

theorem Stored.begun_closed (h : Stored db now input occurredAt closed db') (hbegun : Begun db) :
    Begun closed := by
  rcases h.orphan with ⟨-, rfl⟩ | ⟨orphan, hsome, hadds⟩
  · exact hbegun
  · rw [WorkerDb.resumed] at hsome
    split at hsome
    · obtain ⟨e, he, rfl, -⟩ := orphan_mem hsome
      exact hadds.begun hbegun (.inr ⟨e, (mem_activeStarts.1 he).1, rfl⟩)
    · cases hsome

theorem Stored.begun (h : Stored db now input occurredAt closed db') (hbegun : Begun db) :
    Begun db' := by
  refine h.adds.begun (h.begun_closed hbegun) ?_
  have hallowed := (checkTransition_ok h.check).1
  rcases hprevious : closed.previous input.cycleId with - | e
  · -- A first event opens its cycle.
    rw [hprevious] at hallowed
    have hopens : input.eventType = .cycleStarted ∨ input.eventType = .preflightFailed :=
      of_decide_eq_true hallowed
    exact .inl hopens
  · obtain ⟨he, hcycle⟩ := List.mem_filter.1 (mem_of_firstBy hprevious)
    exact .inr ⟨e, he, of_decide_eq_true hcycle⟩

theorem run_begun [Locale] (acts : List WorkerAct) (hs : db.Sound) (hbegun : Begun db) :
    Begun (db.run acts) := by
  induction acts generalizing db with
  | nil => exact hbegun
  | cons act rest ih =>
    refine ih (Sound.step hs act) (step_keeps (fun _ h ↦ h) ?_ hs hbegun)
    exact fun _ _ _ _ _ _ _ _ hstore ↦ hstore.begun

/-- **The tables of every run.**  The first event of a cycle opens it and no other one does, and the
failures are those of the failed events, one each and in their order. -/
theorem tables_of_run [Locale] (acts : List WorkerAct) :
    (∀ cycleId, (WorkerDb.run {} acts).log cycleId = [] ∨ ∃ first rest,
      (WorkerDb.run {} acts).log cycleId = first :: rest ∧ first.eventType.opens ∧
        ∀ e ∈ rest, ¬ e.eventType.opens) ∧
    (WorkerDb.run {} acts).failures.rows.map WorkerFailure.ofEvent =
      ((WorkerDb.run {} acts).events.rows.filter fun e ↦ e.eventType.isFailed).map
        WorkerEvent.asFailure := by
  have hs := Sound.run sound_empty acts
  have hbegun : Begun (WorkerDb.run {} acts) :=
    run_begun acts sound_empty fun e h ↦ absurd h List.not_mem_nil
  refine ⟨fun cycleId ↦ ?_, hs.failures⟩
  have hmem : ∀ e ∈ (WorkerDb.run {} acts).log cycleId,
      e ∈ (WorkerDb.run {} acts).events.rows ∧ e.entityId = cycleId := fun e he ↦
    ⟨(List.mem_filter.1 he).1, of_decide_eq_true (List.mem_filter.1 he).2⟩
  have hopened := hs.opened.sublist
    (List.filter_sublist (p := fun e : WorkerEvent ↦ e.entityId = cycleId))
  rcases hlog : (WorkerDb.run {} acts).log cycleId with - | ⟨first, rest⟩
  · exact .inl rfl
  rw [WorkerDb.log] at hlog
  rw [hlog, List.pairwise_cons] at hopened
  rw [WorkerDb.log, hlog] at hmem
  obtain ⟨⟨hrow, hcycle⟩, hrest⟩ := List.forall_mem_cons.1 hmem
  have hlater : ∀ e ∈ rest, ¬ e.eventType.opens := fun e he ↦
    hopened.1 e he (hcycle.trans (hrest e he).2.symm)
  refine .inr ⟨first, rest, rfl, ?_, hlater⟩
  -- The event that opened the cycle is the first one.
  obtain ⟨f, hf, hfcycle, hfopens⟩ := hbegun first hrow
  have hfmem : f ∈ first :: rest :=
    hlog ▸ List.mem_filter.2 ⟨hf, decide_eq_true (hfcycle.trans hcycle)⟩
  rcases List.mem_cons.1 hfmem with rfl | hfrest
  · exact hfopens
  · exact absurd hfopens (hlater f hfrest)

/-! ## The grammar of a log -/

/-- A workstream ends under the name it was started with: the name that is stored for the start is
the one given for the end, without the blanks around it. -/
def WorkerEvent.Matches (s e : WorkerEvent) : Prop :=
  ∃ raw, s.workstream = some (trim raw) ∧ e.workstream = some (redactSensitiveText raw)

/-- A workstream that was started and then completed. -/
structure Completes (w : WorkerEvent × WorkerEvent) : Prop where
  started : w.1.eventType = .workstreamStarted
  completed : w.2.eventType = .workstreamCompleted
  named : w.1.Matches w.2

/-- At most one workstream is not completed: it still runs or it failed. -/
def Unfinished (l : List WorkerEvent) : Prop :=
  l = [] ∨ (∃ s, l = [s] ∧ s.eventType = .workstreamStarted) ∨
    ∃ s f, l = [s, f] ∧ s.eventType = .workstreamStarted ∧ f.eventType = .workstreamFailed ∧
      s.Matches f

/-- The end of a cycle, which completes only after its workstreams did. -/
def Ends (done : List (WorkerEvent × WorkerEvent)) (unfinished l : List WorkerEvent) : Prop :=
  l = [] ∨ (∃ e, l = [e] ∧ e.eventType = .cycleFailed) ∨
    ∃ e, l = [e] ∧ e.eventType = .cycleCompleted ∧ unfinished = [] ∧ done ≠ []

/-- The events of completed workstreams, one after the other. -/
def eventsOf (done : List (WorkerEvent × WorkerEvent)) : List WorkerEvent :=
  done.flatMap fun w ↦ [w.1, w.2]

/-- What the log of a cycle may be. -/
inductive CycleLog : List WorkerEvent → Prop
  | empty : CycleLog []
  | preflight {e : WorkerEvent} (h : e.eventType = .preflightFailed) : CycleLog [e]
  | cycle {start : WorkerEvent} {done : List (WorkerEvent × WorkerEvent)}
      {unfinished ending stop : List WorkerEvent} (hstart : start.eventType = .cycleStarted)
      (hdone : ∀ w ∈ done, Completes w) (hunfinished : Unfinished unfinished)
      (hending : Ends done unfinished ending)
      (hstop : stop = [] ∨ ∃ e, stop = [e] ∧ e.eventType = .workerStopped) :
      CycleLog (start :: eventsOf done ++ unfinished ++ ending ++ stop)

/-- What the service knows of an event it stores. -/
structure Follows (previous : Option WorkerEvent) (e : WorkerEvent) : Prop where
  allowed : allowedTransition (previous.map (·.eventType)) e.eventType = true
  named : e.eventType = .workstreamCompleted ∨ e.eventType = .workstreamFailed →
    ∀ s, previous = some s → s.eventType = .workstreamStarted → s.Matches e

variable {log : List WorkerEvent} {e : WorkerEvent}

omit [WorkerIds] in
theorem Follows.mem {last : WorkerEvent} (he : Follows log.getLast? e)
    (hlast : log.getLast? = some last) (hstopped : e.eventType ≠ .workerStopped) :
    e.eventType ∈ last.eventType.followers :=
  allowedTransition_some (by simpa [hlast] using he.allowed) hstopped

omit [WorkerIds] in
/-- An event that is not the worker's stop, after those of a cycle. -/
theorem append_running {start : WorkerEvent} {done : List (WorkerEvent × WorkerEvent)}
    {unfinished ending : List WorkerEvent} (hstart : start.eventType = .cycleStarted)
    (hdone : ∀ w ∈ done, Completes w) (hunfinished : Unfinished unfinished)
    (hending : Ends done unfinished ending) (hstopped : e.eventType ≠ .workerStopped)
    (he : Follows (start :: eventsOf done ++ unfinished ++ ending).getLast? e) :
    CycleLog (start :: eventsOf done ++ unfinished ++ ending ++ [e]) := by
  -- Nothing but the stop follows the end of a cycle.
  have hend : ∀ x, ending = [x] → x.eventType.followers = [] → False := by
    rintro x rfl hx
    have hmem := he.mem List.getLast?_concat hstopped
    rw [hx] at hmem
    exact List.not_mem_nil hmem
  rcases hending with rfl | ⟨x, hx, htype⟩ | ⟨x, hx, htype, -⟩
  rotate_left
  · exact (hend x hx (by rw [htype]; rfl)).elim
  · exact (hend x hx (by rw [htype]; rfl)).elim
  rw [List.append_nil] at he ⊢
  have hfailed : e.eventType = .cycleFailed →
      CycleLog (start :: eventsOf done ++ unfinished ++ [e]) := fun htype ↦ by
    have h := CycleLog.cycle hstart hdone hunfinished (.inr (.inl ⟨e, rfl, htype⟩)) (.inl rfl)
    rwa [List.append_nil] at h
  rcases hunfinished with rfl | ⟨s, rfl, hs⟩ | ⟨s, f, rfl, hs, hf, -⟩
  · -- The next workstream starts, or the cycle ends.
    have hstarted : e.eventType = .workstreamStarted →
        CycleLog (start :: eventsOf done ++ [] ++ [e]) := fun htype ↦ by
      have h := CycleLog.cycle hstart hdone (.inr (.inl ⟨e, rfl, htype⟩)) (.inl rfl) (.inl rfl)
      simpa using h
    rcases List.eq_nil_or_concat' done with rfl | ⟨init, w, rfl⟩
    · have hlast : (start :: eventsOf [] ++ []).getLast? = some start := rfl
      have hmem := he.mem hlast hstopped
      rw [hstart] at hmem
      simp only [AutonomousWorkerEventType.followers, List.mem_cons, List.not_mem_nil,
        or_false] at hmem
      exact hmem.elim hstarted hfailed
    · have hsplit : start :: eventsOf (init ++ [w]) ++ [] =
          start :: eventsOf init ++ [w.1] ++ [w.2] := by
        simp [eventsOf]
      have hlast : (start :: eventsOf (init ++ [w]) ++ []).getLast? = some w.2 := by
        rw [hsplit, List.getLast?_concat]
      have hmem := he.mem hlast hstopped
      rw [(hdone w (by simp)).completed] at hmem
      simp only [AutonomousWorkerEventType.followers, List.mem_cons, List.not_mem_nil,
        or_false] at hmem
      rcases hmem with htype | htype | htype
      · exact hstarted htype
      · have h := CycleLog.cycle hstart hdone (.inl rfl)
          (.inr (.inr ⟨e, rfl, htype, rfl, by simp⟩)) (.inl rfl)
        simpa using h
      · exact hfailed htype
  · have hlast : (start :: eventsOf done ++ [s]).getLast? = some s := List.getLast?_concat
    have hmem := he.mem hlast hstopped
    rw [hs] at hmem
    have hname := he.named
    rw [hlast] at hname
    simp only [AutonomousWorkerEventType.followers, List.mem_cons, List.not_mem_nil,
      or_false] at hmem
    rcases hmem with htype | htype | htype
    · -- The workstream is completed.
      have hw : Completes (s, e) := ⟨hs, htype, hname (.inl htype) s rfl hs⟩
      have hall : ∀ w ∈ done ++ [(s, e)], Completes w :=
        List.forall_mem_append.2 ⟨hdone, List.forall_mem_singleton.2 hw⟩
      have h := CycleLog.cycle hstart hall (.inl rfl) (.inl rfl) (.inl rfl)
      simpa [eventsOf] using h
    · -- The workstream failed.
      have h := CycleLog.cycle hstart hdone
        (.inr (.inr ⟨s, e, rfl, hs, htype, hname (.inr htype) s rfl hs⟩)) (.inl rfl) (.inl rfl)
      simpa using h
    · exact hfailed htype
  · have hsplit : start :: eventsOf done ++ [s, f] = start :: eventsOf done ++ [s] ++ [f] := by
      simp
    have hlast : (start :: eventsOf done ++ [s, f]).getLast? = some f := by
      rw [hsplit, List.getLast?_concat]
    have hmem := he.mem hlast hstopped
    rw [hf] at hmem
    exact hfailed (List.mem_singleton.1 hmem)

omit [WorkerIds] in
/-- **An event that may follow the last one keeps the log well formed.** -/
theorem CycleLog.append (h : CycleLog log) (he : Follows log.getLast? e) :
    CycleLog (log ++ [e]) := by
  obtain ⟨hallowed, hnamed⟩ := he
  cases h with
  | empty =>
    have hopens : e.eventType = .cycleStarted ∨ e.eventType = .preflightFailed :=
      of_decide_eq_true hallowed
    rcases hopens with htype | htype
    · have hnone : ∀ w ∈ ([] : List (WorkerEvent × WorkerEvent)), Completes w :=
        fun _ h ↦ absurd h List.not_mem_nil
      exact .cycle htype hnone (.inl rfl) (.inl rfl) (.inl rfl)
    · exact .preflight htype
  | preflight h =>
    rw [List.getLast?_singleton, Option.map_some, h] at hallowed
    cases hallowed
  | @cycle start done unfinished ending stop hstart hdone hunfinished hending hstop =>
    rcases hstop with rfl | ⟨x, rfl, hx⟩
    · rw [List.append_nil] at hallowed hnamed ⊢
      by_cases hstopped : e.eventType = .workerStopped
      · exact .cycle hstart hdone hunfinished hending (.inr ⟨e, rfl, hstopped⟩)
      · exact append_running hstart hdone hunfinished hending hstopped ⟨hallowed, hnamed⟩
    · rw [List.getLast?_concat, Option.map_some, hx, not_allowedTransition_stopped] at hallowed
      cases hallowed

/-! ## Logs in order -/

omit [WorkerIds] [TextRedaction] in
theorem textMember_cons_self {name : String} {v : Json} {payload : Payload} :
    textMember name ((JsString.ofAscii name, v) :: payload) =
      match v with
      | .string s => some s
      | _ => none := by
  rw [textMember, List.find?_cons_of_pos (by simp), Option.map_some]
  cases v <;> rfl

omit [WorkerIds] [TextRedaction] in
theorem textMember_cons_other {name : String} {k : JsString} {v : Json} {payload : Payload}
    (h : k ≠ JsString.ofAscii name) :
    textMember name ((k, v) :: payload) = textMember name payload := by
  rw [textMember, List.find?_cons_of_neg (by simpa using h), textMember]

omit [WorkerIds] in
theorem textMember_redactEntries {name : String} {payload : Payload}
    (h : concealed (JsString.ofAscii name) = none) :
    textMember name (redactEntries payload) =
      (textMember name payload).map redactSensitiveText := by
  induction payload with
  | nil => rfl
  | cons entry rest ih =>
    obtain ⟨k, v⟩ := entry
    rw [redactEntries]
    by_cases hk : k = JsString.ofAscii name
    · subst hk
      rw [textMember_cons_self, textMember_cons_self, h]
      cases v <;> rfl
    · rw [textMember_cons_other hk, textMember_cons_other hk]
      exact ih

/-- The name of a workstream's event is redacted when it is stored. -/
theorem workstream_key (occurredAt : Time) (h : input.workstreamName ≠ []) : ∃ raw,
    input.workstreamName = trim raw ∧
      (input.key occurredAt).row.workstream = some (redactSensitiveText raw) := by
  have hplain : concealed (JsString.ofAscii "workstream") = none := by decide
  have hstored : (input.key occurredAt).row.workstream =
      (textMember "workstream" input.payload).map redactSensitiveText :=
    textMember_redactEntries hplain
  rw [hstored]
  rw [AutonomousWorkerStateInput.workstreamName] at h ⊢
  rcases htext : textMember "workstream" input.payload with - | raw
  · rw [htext] at h
    exact absurd rfl h
  · exact ⟨raw, rfl, rfl⟩

theorem Stored.follows (h : Stored db now input occurredAt closed db')
    (hin : closed.InOrder input.cycleId) :
    Follows (closed.log input.cycleId).getLast? (input.key occurredAt).row := by
  obtain ⟨hallowed, hname⟩ := checkTransition_ok h.check
  rw [previous_eq_getLast? hin] at hallowed hname
  refine ⟨hallowed, fun htype s hs hstarted ↦ ?_⟩
  have hstream : input.eventType.isWorkstream = true := by
    rcases htype with htype | htype
    · exact congrArg AutonomousWorkerEventType.isWorkstream htype
    · exact congrArg AutonomousWorkerEventType.isWorkstream htype
  obtain ⟨raw, hraw, hrow⟩ := workstream_key occurredAt (h.named hstream)
  refine ⟨raw, ?_, hrow⟩
  rw [← hraw]
  exact hname htype s hs hstarted

omit [TextRedaction] in
theorem Adds.inOrder {key : EventKey} {cycleId : String} (h : Adds db db' key)
    (hin : db'.InOrder cycleId) : db.InOrder cycleId := by
  rw [WorkerDb.InOrder] at hin ⊢
  by_cases hcycle : key.cycleId = cycleId
  · subst hcycle
    rw [h.log_self, List.pairwise_append] at hin
    exact hin.1
  · rwa [h.log_other hcycle] at hin

/-- The logs that are in order are well formed. -/
def WellFormed (db : WorkerDb) : Prop :=
  ∀ cycleId, db.InOrder cycleId → CycleLog (db.log cycleId)

theorem Adds.wellFormed {key : EventKey} (h : Adds db db' key) (hlogs : WellFormed db)
    (hkey : db.InOrder key.cycleId → Follows (db.log key.cycleId).getLast? key.row) :
    WellFormed db' := by
  intro cycleId hin
  have hbefore := h.inOrder hin
  by_cases hcycle : key.cycleId = cycleId
  · subst hcycle
    rw [h.log_self]
    exact (hlogs _ hbefore).append (hkey hbefore)
  · rw [h.log_other hcycle]
    exact hlogs cycleId hbefore

omit [TextRedaction] in
/-- A cycle that is active may fail. -/
theorem orphan_may_fail {now : Time} {start : WorkerEvent} (hs : db.Sound)
    (hstart : start ∈ db.activeStarts now) :
    allowedTransition ((db.log start.entityId).getLast?.map (·.eventType)) .cycleFailed = true := by
  obtain ⟨hrow, htype, -, hterminal⟩ := mem_activeStarts.1 hstart
  have hmem : start ∈ db.log start.entityId := List.mem_filter.2 ⟨hrow, decide_eq_true rfl⟩
  have hopened := hs.opened.sublist
    (List.filter_sublist (p := fun e : WorkerEvent ↦ e.entityId = start.entityId))
  rw [← WorkerDb.log] at hopened
  rcases List.eq_nil_or_concat' (db.log start.entityId) with hnil | ⟨init, last, hlog⟩
  · rw [hnil] at hmem
    exact absurd hmem List.not_mem_nil
  have hlast : last ∈ db.log start.entityId :=
    hlog ▸ List.mem_append_right _ (List.mem_singleton_self last)
  obtain ⟨hlastrow, hcycle⟩ := List.mem_filter.1 hlast
  -- The last event is not terminal, since the cycle is active.
  have hopen : ¬ last.eventType.isTerminal = true := fun h ↦ Bool.false_ne_true
    (hterminal.symm.trans (hasTerminal_eq_true.2 ⟨last, hlastrow, of_decide_eq_true hcycle, h⟩))
  -- It is not a failed preflight, since the cycle was started.
  have hpreflight : last.eventType ≠ .preflightFailed := by
    intro hlasttype
    rw [hlog, List.mem_append, List.mem_singleton] at hmem
    rcases hmem with hinit | rfl
    · rw [hlog, List.pairwise_append] at hopened
      exact hopened.2.2 start hinit last (List.mem_singleton_self last)
        (of_decide_eq_true hcycle).symm (.inr hlasttype)
    · exact nomatch htype.symm.trans hlasttype
  rw [hlog, List.getLast?_concat, Option.map_some]
  revert hopen hpreflight
  cases last.eventType <;> decide

theorem Stored.wellFormed (h : Stored db now input occurredAt closed db') (hs : db.Sound)
    (hlogs : WellFormed db) : WellFormed db' := by
  have hclosed : WellFormed closed := by
    rcases h.orphan with ⟨-, rfl⟩ | ⟨orphan, hsome, hadds⟩
    · exact hlogs
    · refine hadds.wellFormed hlogs fun _ ↦ ⟨?_, ?_⟩
      · rw [WorkerDb.resumed] at hsome
        split at hsome
        · obtain ⟨start, hstart, rfl, -⟩ := orphan_mem hsome
          exact orphan_may_fail hs hstart
        · cases hsome
      · rintro (htype | htype) <;> cases htype
  exact h.adds.wellFormed hclosed h.follows

theorem run_wellFormed [Locale] (acts : List WorkerAct) (hs : db.Sound) (hlogs : WellFormed db) :
    WellFormed (db.run acts) := by
  induction acts generalizing db with
  | nil => exact hlogs
  | cons act rest ih =>
    have hstep : (db.step act).Sound ∧ WellFormed (db.step act) := by
      refine step_keeps (I := fun db ↦ db.Sound ∧ WellFormed db)
        (fun _ h ↦ ⟨⟨h.1.ids, h.1.opened, h.1.failures⟩, h.2⟩) ?_ hs ⟨hs, hlogs⟩
      exact fun _ _ _ _ _ _ _ _ hstore h ↦ ⟨hstore.sound h.1, hstore.wellFormed h.1 h.2⟩
    exact ih hstep.1 hstep.2

/-- **The log of a cycle is well formed**, in every run, if its events were stored in the order of
their times. -/
theorem cycleLog_of_inOrder [Locale] (acts : List WorkerAct) (cycleId : String)
    (hin : (WorkerDb.run {} acts).InOrder cycleId) :
    CycleLog ((WorkerDb.run {} acts).log cycleId) :=
  run_wellFormed acts sound_empty (fun _ _ ↦ .empty) cycleId hin

end Runs

/-! ## A run -/

namespace Example

theorem spell_inj {m n : ℕ} {u v : List Char}
    (h : List.replicate m '|' ++ '/' :: u = List.replicate n '|' ++ '/' :: v) :
    m = n ∧ u = v := by
  induction m generalizing n with
  | zero =>
    rcases n with - | n
    · exact ⟨rfl, (List.cons.inj h).2⟩
    · exact absurd (List.cons.inj h).1 (by decide)
  | succ m ih =>
    rcases n with - | n
    · exact absurd (List.cons.inj h).1 (by decide)
    · obtain ⟨rfl, hrest⟩ := ih (List.cons.inj h).2
      exact ⟨rfl, hrest⟩

theorem sign_inj {m n : ℤ} (hsign : (if m < 0 then '-' else '+') = if n < 0 then '-' else '+')
    (habs : m.natAbs = n.natAbs) : m = n := by
  by_cases hm : m < 0
  · by_cases hn : n < 0
    · omega
    · rw [if_pos hm, if_neg hn] at hsign
      exact absurd hsign (by decide)
  · by_cases hn : n < 0
    · rw [if_neg hm, if_pos hn] at hsign
      exact absurd hsign (by decide)
    · omega

/-- A text for each type. -/
def letter : AutonomousWorkerEventType → Char
  | .preflightFailed => 'p'
  | .cycleStarted => 'a'
  | .workstreamStarted => 'b'
  | .workstreamCompleted => 'c'
  | .workstreamFailed => 'd'
  | .cycleCompleted => 'e'
  | .cycleFailed => 'f'
  | .workerStopped => 's'

theorem letter_inj {a b : AutonomousWorkerEventType} (h : letter a = letter b) : a = b := by
  revert h
  cases a <;> cases b <;> decide

/-- Identifiers that spell the type, the time and the cycle. -/
scoped instance : WorkerIds where
  eventId key := String.ofList (letter key.eventType :: (if key.occurredAt < 0 then '-' else '+') ::
    (List.replicate key.occurredAt.natAbs '|' ++ '/' :: key.cycleId.toList))
  eventId_inj := by
    rintro ⟨cycle, type, time, payload⟩ ⟨cycle', type', time', payload'⟩ h
    obtain ⟨htype, h⟩ := List.cons.inj (String.ofList_injective h)
    obtain ⟨hsign, h⟩ := List.cons.inj h
    obtain ⟨habs, hcycle⟩ := spell_inj h
    exact ⟨String.toList_injective hcycle, letter_inj htype, sign_inj hsign habs⟩

scoped instance : TextRedaction := ⟨id⟩

/-- A time is the length of its text. -/
scoped instance : Locale := ⟨fun s ↦ some s.length, fun _ _ ↦ true⟩

def first : String := "00000000-0000-4000-8000-000000000001"

def second : String := "00000000-0000-4000-8000-000000000002"

/-- A call at the time of its event. -/
def call (cycleId : String) (eventType : AutonomousWorkerEventType) (occurredAt : String)
    (name : String) : WorkerAct :=
  .persist occurredAt.length occurredAt.length
    { cycleId, eventType, occurredAt
      payload := [(JsString.ofAscii "workstream", .string (JsString.ofAscii name))] } none

/-- A cycle is lost, and the next one fails. -/
def acts : List WorkerAct :=
  [call first .cycleStarted "" "", call first .workstreamStarted "." "review",
    call second .cycleStarted ".." "", call second .workstreamStarted "..." "review",
    call second .workstreamCompleted "...." " review", call second .cycleCompleted "....." ""]

theorem cycleLog_of_acts :
    ((WorkerDb.run {} acts).log second).length = 4 ∧ CycleLog ((WorkerDb.run {} acts).log second) :=
  ⟨by decide +kernel, cycleLog_of_inOrder acts second (by unfold WorkerDb.InOrder; decide +kernel)⟩

theorem active_of_acts :
    ((WorkerDb.run {} (acts.take 4)).activeStarts 3).length = 1 ∧
      AtMostOneActive (WorkerDb.run {} (acts.take 4)) 3 :=
  ⟨by decide +kernel, active_cycle_unique (acts.take 4) 3 (by decide +kernel)⟩

end Example

end Worker

end AlpacaTrading
