import AlpacaTrading.Worker.Log

/-!
# Retries of the worker's state service

`persistAutonomousWorkerState` runs the transaction of an event and runs it again when it fails with
an error of the connection or of concurrency, five times at most.

An attempt may take effect although its acknowledgement is lost, and other calls take effect between
two attempts.  `persistAutonomousWorkerState_once` says that the attempts are together one call of
the service, or none: an event that is stored stays stored, so a later attempt finds it
(`step_persist_of_stored`).

## What is modelled

The faults, the clocks and the other calls of each attempt are arguments.  An error is given by the
code `errorIdentity` finds in it; the texts of the service's own errors are codes of this kind.  The
delays between the attempts and their logging are left out.
-/

namespace AlpacaTrading

namespace Worker

open WorkerIds

/-! ## Errors -/

/-- `SQLSTATE_PATTERN`. -/
def isSqlState (code : String) : Bool :=
  let digit : Char → Bool := fun c ↦ '0' ≤ c ∧ c ≤ '9'
  let upper : Char → Bool := fun c ↦ 'A' ≤ c ∧ c ≤ 'Z'
  match code.toList with
  | [a, b, c, d, e] =>
    ((digit a && (digit b || upper b)) || (a = 'P' && b = '0') || (a = 'X' && b = 'X')) &&
      [c, d, e].all fun x ↦ digit x || upper x
  | _ => false

/-- `RETRYABLE_POSTGRES_CODES`. -/
def retryablePostgresCodes : List String :=
  ["40001", "40P01", "53300", "55P03", "57P01", "57P02", "57P03"]

/-- `RETRYABLE_SYSTEM_CODES`. -/
def retryableSystemCodes : List String :=
  ["ECONNREFUSED", "ECONNRESET", "EHOSTUNREACH", "ENETDOWN", "ENETUNREACH", "EPIPE", "ETIMEDOUT"]

/-- `retryablePersistenceError`. -/
def retryablePersistenceError : Option String → Bool
  | none => false
  | some code =>
    (isSqlState code && code.toList.take 2 = ['0', '8']) || code ∈ retryablePostgresCodes ||
      code ∈ retryableSystemCodes

/-! ## Attempts -/

/-- What happens to the transaction of an attempt. -/
inductive Fault where
  /-- It runs, and its outcome arrives. -/
  | none
  /-- It runs, and an error arrives instead of its outcome. -/
  | unacknowledged (code : Option String)
  /-- It is rolled back. -/
  | rolledBack (code : Option String)

/-- The circumstances of an attempt. -/
structure Attempt where
  /-- What happens to the tables before it. -/
  before : List WorkerAct := []
  now : Time
  clock : Time
  fault : Fault := .none

/-- `AutonomousWorkerPersistenceDisposition`. -/
inductive Disposition where
  | persisted | persistedAfterRetry | cycleFailedWorkerContinued | supplementalWriteSkipped
  | nonretryablePersistenceFailure | schedulerFenceLost
deriving DecidableEq, Repr

/-- `AutonomousWorkerPersistenceEvidence`. -/
structure PersistenceEvidence where
  retryAttempt : ℕ
  maximumAttempts : ℕ
  errorCode : Option String
  retryable : Bool
  fenceLost : Bool := false
  finalDisposition : Disposition
deriving DecidableEq

/-- The number of attempts, three if it is not given. -/
def attemptLimit (maximumAttempts : Option ℤ) : ℕ := (max 1 (min 5 (maximumAttempts.getD 3))).toNat

section

variable [WorkerIds] [TextRedaction] [Locale]

/-- The transaction of an attempt, after what happens before it. -/
def Attempt.transaction (a : Attempt) (db : WorkerDb) (input : AutonomousWorkerStateInput)
    (fence : Option SchedulerFence) : WorkerDb × Except (Option String) PersistResult :=
  match a.fault, persistAutonomousWorkerStateWithClient db a.now a.clock input fence with
  | .none, .ok (result, db') => (db', .ok result)
  | .none, .error code => (db, .error (some code))
  | .unacknowledged code, .ok (_, db') => (db', .error code)
  | .unacknowledged code, .error _ => (db, .error code)
  | .rolledBack code, _ => (db, .error code)

/-- The evidence of an attempt that fails for good. -/
def failureEvidence (input : AutonomousWorkerStateInput) (retryAttempt maximumAttempts : ℕ)
    (code : Option String) : PersistenceEvidence where
  retryAttempt := retryAttempt
  maximumAttempts := maximumAttempts
  errorCode := code
  retryable := retryablePersistenceError code
  fenceLost := code = some "SCHEDULER_FENCE_LOST"
  finalDisposition :=
    if code = some "SCHEDULER_FENCE_LOST" then .schedulerFenceLost
    else if input.eventType = .preflightFailed then .supplementalWriteSkipped
    else if retryablePersistenceError code then .cycleFailedWorkerContinued
    else .nonretryablePersistenceFailure

/-- The loop of `runAutonomousWorkerPersistence`, with the attempts that are left, the attempts that
were made and the error of the last one. -/
def runAutonomousWorkerPersistence (input : AutonomousWorkerStateInput)
    (fence : Option SchedulerFence) (maximumAttempts : ℕ) (attempts : ℕ → Attempt) :
    ℕ → ℕ → Option String → WorkerDb →
      WorkerDb × Except PersistenceEvidence (PersistResult × PersistenceEvidence)
  | 0, made, lastErrorCode, db => (db, .error (failureEvidence input made made lastErrorCode))
  | left + 1, made, lastErrorCode, db =>
    match (attempts made).transaction (db.run (attempts made).before) input fence with
    | (db', .ok result) =>
      (db', .ok (result,
        { retryAttempt := made
          maximumAttempts := maximumAttempts
          errorCode := lastErrorCode
          retryable := retryablePersistenceError lastErrorCode
          finalDisposition := if made = 0 then .persisted else .persistedAfterRetry }))
    | (db', .error code) =>
      if retryablePersistenceError code ∧ made + 1 < maximumAttempts then
        runAutonomousWorkerPersistence input fence maximumAttempts attempts left (made + 1) code db'
      else (db', .error (failureEvidence input made maximumAttempts code))

/-- `persistAutonomousWorkerState`. -/
def persistAutonomousWorkerState (db : WorkerDb) (input : AutonomousWorkerStateInput)
    (fence : Option SchedulerFence) (maximumAttempts : Option ℤ) (attempts : ℕ → Attempt) :
    WorkerDb × Except PersistenceEvidence (PersistResult × PersistenceEvidence) :=
  runAutonomousWorkerPersistence input fence (attemptLimit maximumAttempts) attempts
    (attemptLimit maximumAttempts) 0 none db

/-! ## Events stay -/

variable {db db' : WorkerDb} {input : AutonomousWorkerStateInput} {fence : Option SchedulerFence}
  {now clock occurredAt : Time}

omit [TextRedaction] [Locale] in
theorem Adds.mem {key : EventKey} (h : Adds db db' key) {e : WorkerEvent}
    (he : e ∈ db.events.rows) : e ∈ db'.events.rows := by
  rw [h.events]
  exact List.mem_append_left _ he

omit [Locale] in
theorem Stored.mem {closed : WorkerDb} (h : Stored db now input occurredAt closed db')
    {e : WorkerEvent} (he : e ∈ db.events.rows) : e ∈ db'.events.rows := by
  rcases h.orphan with ⟨-, rfl⟩ | ⟨orphan, -, hadds⟩
  · exact h.adds.mem he
  · exact h.adds.mem (hadds.mem he)

theorem mem_run {e : WorkerEvent} (hs : db.Sound) (acts : List WorkerAct)
    (he : e ∈ db.events.rows) : e ∈ (db.run acts).events.rows := by
  induction acts generalizing db with
  | nil => exact he
  | cons act rest ih =>
    refine ih (Sound.step hs act) ?_
    refine step_keeps (I := fun db ↦ e ∈ db.events.rows) (fun _ h ↦ h) ?_ hs he
    exact fun _ _ _ _ _ _ _ _ hstore ↦ hstore.mem

/-- The event of a call is stored. -/
def IsStored (db : WorkerDb) (input : AutonomousWorkerStateInput) : Prop :=
  ∃ occurredAt, Locale.dateParse input.occurredAt = some occurredAt ∧
    ∃ e ∈ db.events.rows, e.eventId = eventId (input.key occurredAt)

theorem IsStored.run (h : IsStored db input) (hs : db.Sound) (acts : List WorkerAct) :
    IsStored (db.run acts) input := by
  obtain ⟨occurredAt, htime, e, he, heq⟩ := h
  exact ⟨occurredAt, htime, e, mem_run hs acts he, heq⟩

theorem isStored_of_persist {result : PersistResult} (hs : db.Sound)
    (h : persistAutonomousWorkerStateWithClient db now clock input fence = .ok (result, db')) :
    IsStored db' input := by
  obtain ⟨occurredAt, htime, hid, ⟨⟨e, he, heq⟩, -, rfl⟩ | ⟨-, closed, hstore⟩⟩ := persist_ok hs h
  · exact ⟨occurredAt, htime, e, he, heq.trans hid⟩
  · refine ⟨occurredAt, htime, (input.key occurredAt).row, ?_, rfl⟩
    rw [hstore.adds.events]
    exact List.mem_append_right _ (List.mem_singleton_self _)

/-- **A call whose event is stored changes nothing.** -/
theorem step_persist_of_stored (hs : db.Sound) (h : IsStored db input) (now clock : Time)
    (fence : Option SchedulerFence) : db.step (.persist now clock input fence) = db := by
  rw [WorkerDb.step]
  rcases hcall : persistAutonomousWorkerStateWithClient db now clock input fence with
    e | ⟨result, db'⟩
  · rfl
  · obtain ⟨occurredAt, htime, -, ⟨-, -, rfl⟩ | ⟨-, closed, hstore⟩⟩ := persist_ok hs hcall
    · rfl
    · exfalso
      obtain ⟨time, htime', e, he, heq⟩ := h
      obtain rfl := Option.some_inj.1 (htime.symm.trans htime')
      rcases hstore.orphan with ⟨-, rfl⟩ | ⟨orphan, -, hadds⟩
      · exact hstore.adds.fresh e he heq
      · exact hstore.adds.fresh e (hadds.mem he) heq

/-! ## The attempts together -/

variable {attempts : ℕ → Attempt} {maximumAttempts : ℕ} {others : List WorkerAct}

/-- What happens between the attempts, from one of them on. -/
def othersFrom (attempts : ℕ → Attempt) (made count : ℕ) : List WorkerAct :=
  (List.range' made count).flatMap fun i ↦ (attempts i).before

omit [WorkerIds] [TextRedaction] [Locale] in
theorem othersFrom_succ (made count : ℕ) :
    othersFrom attempts made (count + 1) =
      (attempts made).before ++ othersFrom attempts (made + 1) count := by
  rw [othersFrom, List.range'_succ, List.flatMap_cons]
  rfl

theorem run_append (db : WorkerDb) (acts later : List WorkerAct) :
    db.run (acts ++ later) = (db.run acts).run later :=
  List.foldl_append

/-- The tables are those after one call of the service among the others. -/
def OneCall (db db' : WorkerDb) (input : AutonomousWorkerStateInput)
    (fence : Option SchedulerFence) (others : List WorkerAct) : Prop :=
  ∃ before after now clock, others = before ++ after ∧
    db' = db.run (before ++ .persist now clock input fence :: after)

theorem OneCall.prepend {acts : List WorkerAct}
    (h : OneCall (db.run acts) db' input fence others) :
    OneCall db db' input fence (acts ++ others) := by
  obtain ⟨before, after, now, clock, rfl, rfl⟩ := h
  refine ⟨acts ++ before, after, now, clock, (List.append_assoc _ _ _).symm, ?_⟩
  rw [List.append_assoc, run_append db acts]

/-- What an attempt does. -/
theorem transaction_cases {a : Attempt} {r : Except (Option String) PersistResult}
    (hs : db.Sound) (h : a.transaction db input fence = (db', r)) :
    (db' = db.step (.persist a.now a.clock input fence) ∧ IsStored db' input) ∨
      db' = db ∧ ∃ code, r = .error code := by
  have hstep : ∀ result db'', persistAutonomousWorkerStateWithClient db a.now a.clock input fence =
      .ok (result, db'') → db'' = db.step (.persist a.now a.clock input fence) := by
    intro result db'' hcall
    rw [WorkerDb.step, hcall]
  rw [Attempt.transaction] at h
  rcases hcall : persistAutonomousWorkerStateWithClient db a.now a.clock input fence with
    code | ⟨result, db''⟩
  · rw [hcall] at h
    rcases hfault : a.fault with - | code' | code'
    · rw [hfault] at h
      obtain ⟨rfl, rfl⟩ := Prod.mk.inj h
      exact .inr ⟨rfl, _, rfl⟩
    · rw [hfault] at h
      obtain ⟨rfl, rfl⟩ := Prod.mk.inj h
      exact .inr ⟨rfl, _, rfl⟩
    · rw [hfault] at h
      obtain ⟨rfl, rfl⟩ := Prod.mk.inj h
      exact .inr ⟨rfl, _, rfl⟩
  · rw [hcall] at h
    rcases hfault : a.fault with - | code' | code'
    · rw [hfault] at h
      obtain ⟨rfl, rfl⟩ := Prod.mk.inj h
      exact .inl ⟨hstep _ _ hcall, isStored_of_persist hs hcall⟩
    · rw [hfault] at h
      obtain ⟨rfl, rfl⟩ := Prod.mk.inj h
      exact .inl ⟨hstep _ _ hcall, isStored_of_persist hs hcall⟩
    · rw [hfault] at h
      obtain ⟨rfl, rfl⟩ := Prod.mk.inj h
      exact .inr ⟨rfl, _, rfl⟩

/-- One round of the loop: it ends with the outcome of its attempt or goes on after an error. -/
theorem round_cases (left : ℕ) {made : ℕ} (last : Option String) {db₁ : WorkerDb}
    {outcome : Except (Option String) PersistResult}
    (htransaction : (attempts made).transaction (db.run (attempts made).before) input fence =
      (db₁, outcome)) :
    (∃ result evidence, outcome = .ok result ∧
      runAutonomousWorkerPersistence input fence maximumAttempts attempts (left + 1) made last db =
        (db₁, .ok (result, evidence))) ∨
    (∃ evidence,
      runAutonomousWorkerPersistence input fence maximumAttempts attempts (left + 1) made last db =
        (db₁, .error evidence)) ∨
    ∃ code, outcome = .error code ∧
      runAutonomousWorkerPersistence input fence maximumAttempts attempts (left + 1) made last db =
        runAutonomousWorkerPersistence input fence maximumAttempts attempts left (made + 1) code
          db₁ := by
  rw [runAutonomousWorkerPersistence, htransaction]
  rcases outcome with code | result
  · dsimp only
    split_ifs
    · exact .inr (.inr ⟨code, rfl, rfl⟩)
    · exact .inr (.inl ⟨_, rfl⟩)
  · exact .inl ⟨result, _, rfl, rfl⟩

/-- Once the event is stored, the attempts that follow do nothing. -/
theorem attempts_of_stored (left made : ℕ) (last : Option String) (hs : db.Sound)
    (h : IsStored db input) : ∃ count ≤ left,
      (runAutonomousWorkerPersistence input fence maximumAttempts attempts left made last db).1 =
        db.run (othersFrom attempts made count) := by
  induction left generalizing made last db with
  | zero => exact ⟨0, le_rfl, rfl⟩
  | succ left ih =>
    have hs' : (db.run (attempts made).before).Sound := Sound.run hs _
    have hstored := h.run hs (attempts made).before
    rcases htransaction : (attempts made).transaction (db.run (attempts made).before) input fence
      with ⟨db₁, outcome⟩
    have hdb₁ : db₁ = db.run (attempts made).before := by
      rcases transaction_cases hs' htransaction with ⟨hstep, -⟩ | ⟨hsame, -⟩
      · rw [hstep, step_persist_of_stored hs' hstored]
      · exact hsame
    have hone : db₁ = db.run (othersFrom attempts made 1) := by
      rw [othersFrom_succ, hdb₁, run_append]
      rfl
    rcases round_cases left last htransaction with
      ⟨result, evidence, -, hround⟩ | ⟨evidence, hround⟩ | ⟨code, -, hround⟩
    · exact ⟨1, by omega, by rw [hround, hone]⟩
    · exact ⟨1, by omega, by rw [hround, hone]⟩
    · obtain ⟨count, hcount, hrest⟩ := ih (made + 1) code (hdb₁ ▸ hs') (hdb₁ ▸ hstored)
      refine ⟨count + 1, by omega, ?_⟩
      rw [hround, hrest, othersFrom_succ, run_append, hdb₁]

/-- The attempts, from tables in which the event need not be stored. -/
theorem attempts_once (left made : ℕ) (last : Option String) (hs : db.Sound) :
    ∃ count ≤ left, ∃ db' outcome,
      runAutonomousWorkerPersistence input fence maximumAttempts attempts left made last db =
        (db', outcome) ∧
      (OneCall db db' input fence (othersFrom attempts made count) ∧ IsStored db' input ∨
        db' = db.run (othersFrom attempts made count) ∧ ∃ evidence, outcome = .error evidence) := by
  induction left generalizing made last db with
  | zero => exact ⟨0, le_rfl, _, _, rfl, .inr ⟨rfl, _, rfl⟩⟩
  | succ left ih =>
    have hs' : (db.run (attempts made).before).Sound := Sound.run hs _
    have hothers : othersFrom attempts made 1 = (attempts made).before ++ [] :=
      othersFrom_succ made 0
    rcases htransaction : (attempts made).transaction (db.run (attempts made).before) input fence
      with ⟨db₁, outcome⟩
    rcases transaction_cases hs' htransaction with ⟨hstep, hstored⟩ | ⟨hsame, code, hcode⟩
    · -- The call takes effect in this attempt; those that follow find its event.
      have hone : ∀ later, OneCall db (db₁.run later) input fence
          ((attempts made).before ++ later) := fun later ↦
        ⟨_, later, (attempts made).now, (attempts made).clock, rfl, by rw [run_append, hstep]; rfl⟩
      have hs₁ : db₁.Sound := hstep ▸ Sound.step hs' _
      rcases round_cases left last htransaction with
        ⟨result, evidence, -, hround⟩ | ⟨evidence, hround⟩ | ⟨code, -, hround⟩
      · refine ⟨1, by omega, _, _, hround, .inl ⟨?_, hstored⟩⟩
        rw [hothers]
        exact hone []
      · refine ⟨1, by omega, _, _, hround, .inl ⟨?_, hstored⟩⟩
        rw [hothers]
        exact hone []
      · obtain ⟨count, hcount, hrest⟩ := attempts_of_stored left (made + 1) code hs₁ hstored
        refine ⟨count + 1, by omega, _, _, hround, .inl ?_⟩
        rw [hrest, othersFrom_succ]
        exact ⟨hone _, hstored.run hs₁ _⟩
    · rcases round_cases left last htransaction with
        ⟨result, evidence, hresult, -⟩ | ⟨evidence, hround⟩ | ⟨code', -, hround⟩
      · exact nomatch hresult.symm.trans hcode
      · refine ⟨1, by omega, _, _, hround, .inr ⟨?_, evidence, rfl⟩⟩
        rw [hothers, List.append_nil, hsame]
      · obtain ⟨count, hcount, db', outcome', hrest, hcase⟩ :=
          ih (made + 1) code' (hsame ▸ hs')
        refine ⟨count + 1, by omega, db', outcome', hround.trans hrest, ?_⟩
        rw [othersFrom_succ]
        rcases hcase with ⟨hone, hstored⟩ | ⟨hdb', herror⟩
        · rw [hsame] at hone
          exact .inl ⟨hone.prepend, hstored⟩
        · refine .inr ⟨?_, herror⟩
          rw [hdb', hsame, run_append]

/-- **The attempts are together one call of the service, or none.**  An outcome is returned only
when the event is stored; an error may be thrown in either case, since an acknowledgement may be
lost. -/
theorem persistAutonomousWorkerState_once (acts : List WorkerAct)
    (input : AutonomousWorkerStateInput) (fence : Option SchedulerFence)
    (maximumAttempts : Option ℤ) (attempts : ℕ → Attempt) :
    ∃ count ≤ 5, ∃ db' outcome,
      persistAutonomousWorkerState (WorkerDb.run {} acts) input fence maximumAttempts attempts =
        (db', outcome) ∧
      (OneCall (WorkerDb.run {} acts) db' input fence (othersFrom attempts 0 count) ∧
          IsStored db' input ∨
        db' = (WorkerDb.run {} acts).run (othersFrom attempts 0 count) ∧
          ∃ evidence, outcome = .error evidence) := by
  have hlimit : attemptLimit maximumAttempts ≤ 5 := by
    rw [attemptLimit]
    omega
  have hs : (WorkerDb.run {} acts).Sound := Sound.run sound_empty acts
  obtain ⟨count, hcount, hattempts⟩ := attempts_once (attemptLimit maximumAttempts) 0 none hs
  exact ⟨count, hcount.trans hlimit, hattempts⟩

end

end Worker

end AlpacaTrading
