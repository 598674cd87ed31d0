import AlpacaTrading.System.Machine

/-!
# At most one submission

A run calls the broker only from the phase `submitting`, which it reaches only by committing the
attempt event of its intent.  The identifier of that event is computed from the intent alone and
events are never removed, so no two runs, and no two attempts of one run, get there for the same
intent.

The invariant counts the calls made and the calls about to be made together: `Sys.load`.  It is at
most one for every intent, and zero without the event.
-/

namespace AlpacaTrading

section Submission

variable [Hashing]

/-- The event is the committed submission attempt of the intent. -/
def Attests (e : BrokerEvent) (key : SubmissionKey) : Prop :=
  e.eventId = "broker_event_" ++ Hashing.stableRecordId "alpaca_broker_submission_attempt"
      (key.accountId ++ ":" ++ key.intentId ++ ":" ++ key.clientOrderId) ∧
    e.eventType = .orderSubmissionAttempt ∧ e.accountId = key.accountId ∧
    e.orderIntentId = some key.intentId ∧ e.clientOrderId = some key.clientOrderId

theorem attemptEvent_attests (row : AutonomousExecutionIntentRow) (now : Time) :
    Attests (attemptEvent row.intent now) (submissionKey row) :=
  ⟨rfl, rfl, rfl, rfl, rfl⟩

omit [Hashing] in
/-- The call a run is about to make. -/
def Phase.pending : Phase → Option SubmissionKey
  | .submitting row _ => some (submissionKey row)
  | _ => none

/-- How a step of a run changes the calls it has made and is about to make. -/
inductive Run.Calls (db db' : Db) (before after : Option SubmissionKey) :
    Option SubmissionKey → Prop
  /-- Nothing, or a pending call is given up. -/
  | none (hafter : after = none) : Run.Calls db db' before after none
  /-- The pending call is made. -/
  | call {key : SubmissionKey} (hbefore : before = some key) (hafter : after = none) :
      Run.Calls db db' before after (some key)
  /-- The attempt is committed, and the call pending. -/
  | attempt {key : SubmissionKey} {e : BrokerEvent} (hbefore : before = none)
      (hafter : after = some key) (he : Attests e key)
      (hinsert : db.events.insert? e = some db'.events) : Run.Calls db db' before after none

/-- The attempt step. -/
theorem Run.calls_attempt {run : Run} {db : Db} {row : AutonomousExecutionIntentRow}
    {session : Session} {fault : Fault} {reason : Thrown → String}
    (hphase : run.phase = .attempting row) :
    Run.Calls db
      (fault.commit db (recordSubmissionAttempt db row (orderRequest row) run.config.command
        session run.config.now run.config.context)).1 run.phase.pending
      (match (fault.commit db (recordSubmissionAttempt db row (orderRequest row)
          run.config.command session run.config.now run.config.context)).2 with
        | .ok receipt => Phase.submitting row receipt
        | .error error => .releasing row (reason error)).pending none := by
  split
  · next receipt hok =>
    obtain ⟨events, i, hins, _, _, heq⟩ := recordSubmissionAttempt_ok (Fault.commit_ok hok)
    refine .attempt (by rw [hphase]; rfl) rfl (attemptEvent_attests row run.config.now) ?_
    rw [hins, heq]
  · exact .none rfl

omit [Hashing] in
theorem afterAnswer_pending (config : RunConfig) (row : AutonomousExecutionIntentRow)
    (receipt : BrokerMutationReceipt) (answer : Answer) (clock : Time) :
    (afterAnswer config row receipt answer clock).pending = none := by
  unfold afterAnswer
  split
  · dsimp only
    split <;> rfl
  · split <;> rfl

/-- **The calls of a step of a run.** -/
theorem Run.step_calls {run : Run} {act : RunAct} {db db' : Db} {phase : Phase}
    {call : Option SubmissionKey} (h : run.step act db = some (db', phase, call)) :
    Run.Calls db db' run.phase.pending phase.pending call := by
  unfold Run.step at h
  dsimp only at h
  split at h
  · cases h
    refine .none ?_
    split_ifs <;> rfl
  · cases h
    refine .none ?_
    split <;> rfl
  · cases h
    refine .none ?_
    split <;> rfl
  · cases h
    refine .none ?_
    split <;> rfl
  · cases h
    exact .none rfl
  · next hphase =>
    cases h
    exact Run.calls_attempt hphase
  · next hphase =>
    cases h
    exact .call (by rw [hphase]; rfl) rfl
  · cases h
    exact .none (afterAnswer_pending _ _ _ _ _)
  · cases h
    exact .none rfl
  · cases h
    refine .none ?_
    split <;> rfl
  · cases h
    refine .none ?_
    split <;> rfl
  · cases h
    refine .none ?_
    split <;> rfl
  · cases h
    exact .none rfl
  · cases h
    exact .none rfl
  · cases h

/-! ## The invariant -/

omit [Hashing] in
/-- The calls made for an intent and those about to be made. -/
def Sys.load (s : Sys) (key : SubmissionKey) : Nat :=
  s.submissions.count key + s.runs.countP fun run ↦ run.phase.pending = some key

/-- At most one call for every intent, and none without its attempt event. -/
def Sys.Once (s : Sys) : Prop :=
  ∀ key, s.load key ≤ 1 ∧ (0 < s.load key → ∃ e ∈ s.db.events.rows, Attests e key)

omit [Hashing] in
/-- The load after a step of one run. -/
theorem Sys.load_set {s : Sys} {p : Nat} {run : Run} {phase : Phase} {call : Option SubmissionKey}
    {db : Db} (hrun : s.runs[p]? = some run) (key : SubmissionKey) :
    Sys.load { s with
        db
        runs := s.runs.set p { run with phase }
        submissions := s.submissions ++ call.toList } key +
        (if run.phase.pending = some key then 1 else 0) =
      s.load key + (if call = some key then 1 else 0) +
        (if phase.pending = some key then 1 else 0) := by
  obtain ⟨hp, hget⟩ := List.getElem?_eq_some_iff.1 hrun
  have hcount : call.toList.count key = if call = some key then 1 else 0 := by
    cases call with
    | none => rfl
    | some k =>
      rw [Option.toList_some, List.count_singleton]
      simp only [Option.some_inj, beq_iff_eq]
  have hpos : run.phase.pending = some key →
      0 < s.runs.countP fun run ↦ run.phase.pending = some key := by
    intro hpending
    refine List.countP_pos_iff.2 ⟨run, List.mem_of_getElem? hrun, ?_⟩
    exact decide_eq_true hpending
  unfold Sys.load
  dsimp only
  rw [List.count_append, hcount, List.countP_set hp, hget]
  simp only [decide_eq_true_eq]
  by_cases hpending : run.phase.pending = some key
  · have := hpos hpending
    simp only [hpending, if_true]
    omega
  · simp only [hpending, if_false]
    omega

/-- A new attempt event is the first one of its intent. -/
theorem Sys.Once.load_eq_zero {s : Sys} {key : SubmissionKey} {e : BrokerEvent}
    {events : Table BrokerEvent} (h : s.Once) (he : Attests e key)
    (hins : s.db.events.insert? e = some events) : s.load key = 0 := by
  by_contra hne
  obtain ⟨e', he', hattests⟩ := (h key).2 (Nat.pos_of_ne_zero hne)
  have hkey : Row.key e' = Row.key e := hattests.1.trans he.1.symm
  exact Table.not_clash_of_insert? hins he' (Row.clash_of_key hkey)

/-- A step of a run keeps the invariant. -/
theorem Sys.Once.run_step {s : Sys} {p : Nat} {run : Run} {phase : Phase} {db : Db}
    {call : Option SubmissionKey} (h : s.Once) (hrun : s.runs[p]? = some run)
    (hevents : ∀ e ∈ s.db.events.rows, e ∈ db.events.rows)
    (hcalls : Run.Calls s.db db run.phase.pending phase.pending call) :
    Sys.Once { s with
      db
      runs := s.runs.set p { run with phase }
      submissions := s.submissions ++ call.toList } := by
  intro key
  have hload := @Sys.load_set s p run phase call db hrun key
  obtain ⟨hle, hevent⟩ := h key
  -- Unless the load grows, both parts are inherited.
  have hinherit : ∀ n, n ≤ s.load key → n ≤ 1 ∧ (0 < n → ∃ e ∈ db.events.rows, Attests e key) := by
    intro n hn
    refine ⟨hn.trans hle, fun hpos ↦ ?_⟩
    obtain ⟨e, he, hattests⟩ := hevent (hpos.trans_le hn)
    exact ⟨e, hevents e he, hattests⟩
  cases hcalls with
  | none hafter =>
    refine hinherit _ ?_
    rw [hafter] at hload
    simp only [reduceCtorEq, if_false] at hload
    omega
  | call hbefore hafter =>
    refine hinherit _ ?_
    rw [hbefore, hafter] at hload
    simp only [reduceCtorEq, if_false] at hload
    omega
  | @attempt k e hbefore hafter he hins =>
    rw [hbefore, hafter] at hload
    simp only [reduceCtorEq, if_false, Option.some_inj] at hload
    by_cases hkey : k = key
    · subst hkey
      have hzero := h.load_eq_zero he hins
      rw [if_pos rfl, hzero] at hload
      refine ⟨by omega, fun _ ↦ ⟨e, ?_, he⟩⟩
      rw [Table.rows_of_insert? hins]
      exact List.mem_append_right _ (List.mem_singleton_self e)
    · rw [if_neg hkey] at hload
      refine hinherit _ ?_
      omega

/-- A step that leaves the loads alone. -/
theorem Sys.Once.later {s s' : Sys} (h : s.Once) (hload : ∀ key, s'.load key = s.load key)
    (hl : Later s.db s'.db) : s'.Once := by
  intro key
  rw [hload key]
  refine ⟨(h key).1, fun hpos ↦ ?_⟩
  obtain ⟨e, he, hattests⟩ := (h key).2 hpos
  exact ⟨e, hl.grows.events e he, hattests⟩

/-- Only a step of a run calls the broker, or has a call pending. -/
theorem Sys.step_load {s s' : Sys} {act : Act} (hact : ∀ p a, act ≠ .run p a)
    (hstep : Sys.step act s = some s') :
    s'.submissions = s.submissions ∧ ∀ key, s'.load key = s.load key := by
  have hsame : s'.runs = s.runs → s'.submissions = s.submissions →
      s'.submissions = s.submissions ∧ ∀ key, s'.load key = s.load key := by
    intro hruns hcalls
    refine ⟨hcalls, fun key ↦ ?_⟩
    unfold Sys.load
    rw [hruns, hcalls]
  cases act with
  | run p act => exact absurd rfl (hact p act)
  | start config =>
    cases hstep
    refine ⟨rfl, fun key ↦ ?_⟩
    -- A new run has nothing pending.
    unfold Sys.load
    simp [Phase.pending]
  | startPass fence now clientOrderId =>
    cases hstep
    exact hsame rfl rfl
  | pass p act =>
    simp only [Sys.step] at hstep
    split at hstep
    · cases hstep
    · rw [Option.map_eq_some_iff] at hstep
      obtain ⟨_, _, rfl⟩ := hstep
      exact hsame rfl rfl
  | reconcile session now clientOrderId lookup =>
    cases hstep
    exact hsame rfl rfl
  | sync session snapshot statement =>
    simp only [Sys.step] at hstep
    split at hstep
    · cases hstep
      exact hsame rfl rfl
    · cases hstep
      exact hsame rfl rfl
  | recovery session now statement =>
    cases hstep
    exact hsame rfl rfl
  | review session request =>
    cases hstep
    exact hsame rfl rfl
  | lease leases =>
    cases hstep
    exact hsame rfl rfl

theorem Sys.once_step {s s' : Sys} {act : Act} (h : s.Valid ∧ s.Once)
    (hstep : Sys.step act s = some s') : s'.Valid ∧ s'.Once := by
  obtain ⟨hvalid, hcases⟩ := Sys.step_cases h.1 hstep
  have hl : Later s.db s'.db := hcases.elim Advances.later Sys.Unsafe.later
  refine ⟨hvalid, ?_⟩
  by_cases hact : ∃ p a, act = .run p a
  · obtain ⟨p, a, rfl⟩ := hact
    obtain ⟨run, phase, call, hrun, hrunStep, heq⟩ := Sys.step_run hstep
    rw [heq]
    exact h.2.run_step hrun hl.grows.events (Run.step_calls hrunStep)
  · have hload := Sys.step_load (fun p a heq ↦ hact ⟨p, a, heq⟩) hstep
    exact h.2.later hload.2 hl

/-- A call is made only by a run that has it pending. -/
theorem Sys.pending_of_call {s s' : Sys} {act : Act} {key : SubmissionKey}
    (hstep : Sys.step act s = some s') (hnew : key ∈ s'.submissions)
    (hold : key ∉ s.submissions) : 0 < s.load key := by
  by_cases hact : ∃ p a, act = .run p a
  · obtain ⟨p, a, rfl⟩ := hact
    obtain ⟨run, phase, call, hrun, hrunStep, heq⟩ := Sys.step_run hstep
    rw [heq] at hnew
    have hcall : call = some key := by
      simpa using (List.mem_append.1 hnew).resolve_left hold
    have hcalls := Run.step_calls hrunStep
    rw [hcall] at hcalls
    cases hcalls with
    | call hbefore _ =>
      refine Nat.add_pos_right _ (List.countP_pos_iff.2 ⟨run, List.mem_of_getElem? hrun, ?_⟩)
      exact decide_eq_true hbefore
  · have hload := Sys.step_load (fun p a heq ↦ hact ⟨p, a, heq⟩) hstep
    exact absurd (hload.1 ▸ hnew) hold

/-- **At most once.**  In every run, whatever the interleaving and wherever processes stop, the
broker is called at most once for an order intent, and a step that calls it finds the attempt
event of the intent committed. -/
theorem submission_at_most_once (db : Db) (acts : List Act) (s : Sys)
    (hrun : runActs Sys.step (Sys.idle db) acts = some s) :
    (∀ key, s.submissions.count key ≤ 1) ∧
      ∀ act s' key, Sys.step act s = some s' → key ∈ s'.submissions → key ∉ s.submissions →
        ∃ e ∈ s.db.events.rows, Attests e key := by
  have hinit : (Sys.idle db).Valid ∧ (Sys.idle db).Once := by
    refine ⟨Sys.idle_valid db, fun key ↦ ?_⟩
    have hzero : (Sys.idle db).load key = 0 := rfl
    rw [hzero]
    exact ⟨Nat.zero_le 1, fun hpos ↦ absurd hpos (lt_irrefl 0)⟩
  obtain ⟨_, honce⟩ := invariant_of_run (fun _ _ _ hI hstep ↦ Sys.once_step hI hstep) hinit hrun
  refine ⟨fun key ↦ ?_, fun act s' key hstep hnew hold ↦ ?_⟩
  · exact le_trans (Nat.le_add_right _ _) (honce key).1
  · exact (honce key).2 (Sys.pending_of_call hstep hnew hold)

end Submission

/-- The theorem at the specimen: its entry was submitted once. -/
theorem specimen_submitted_once :
    ∃ s, Specimen.run Specimen.entryActs = some s ∧
      s.submissions =
        [{ accountId := "acct", intentId := "entry", clientOrderId := "client-entry" }] ∧
      ∀ key, s.submissions.count key ≤ 1 := by
  have hsome : (Specimen.run Specimen.entryActs).map (·.submissions) =
      some [{ accountId := "acct", intentId := "entry", clientOrderId := "client-entry" }] := by
    decide +kernel
  obtain ⟨s, hs, hcalls⟩ := Option.map_eq_some_iff.1 hsome
  let _ := Specimen.hashing
  exact ⟨s, hs, hcalls, (submission_at_most_once Specimen.entryDb Specimen.entryActs s hs).1⟩

end AlpacaTrading
