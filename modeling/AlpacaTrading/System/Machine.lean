import AlpacaTrading.Execution.CapacityAgreement
import AlpacaTrading.Reconciliation.Pass
import AlpacaTrading.Reconciliation.Sync
import AlpacaTrading.Recovery.Effects
import AlpacaTrading.Review.Effects

/-!
# The system

Any number of execution runs and reconciliation passes work on one database, next to syncs,
recoveries and entry reviews.  `Sys.step` is one step of any of them, and `runActs Sys.step` runs
a list of such steps: every interleaving, with a crash allowed after every step.

## What a step does

`Sys.step_cases` says of every step, once, what it does to the database: it is a sequence of steps
of the abstract machine, or one of the four statements that are not routine (`Unsafe`).  The
invariants of the following modules use nothing else.

The rows a run or a pass holds were read earlier.  `Sys.Valid` says that they still agree with the
database on what is never undone.
-/

namespace AlpacaTrading

/-! ## States and actions -/

/-- The database, the processes that work on it, and the calls of the broker made so far. -/
structure Sys where
  db : Db
  runs : List Run := []
  passes : List Pass := []
  submissions : List SubmissionKey := []

/-- A database nobody works on. -/
def Sys.idle (db : Db) : Sys := { db }

/-- The statements of `runAutonomousPostgresRecovery`. -/
inductive RecoveryStatement where
  /-- One row of the stale-ready query, with the answer of its lookup. -/
  | staleReady (intent : Intent) (answer : Lookup)
  | expireReservations
  | expireReviews
  | expireConfirmations
  | cancelStaleCreated

/-- The steps of the system. -/
inductive Act where
  /-- An execution run begins. -/
  | start (config : RunConfig)
  | run (p : Nat) (act : RunAct)
  /-- A reconciliation pass begins and lists its targets. -/
  | startPass (fence : SchedulerFence) (now : Time) (clientOrderId : String)
  | pass (p : Nat) (act : PassAct)
  /-- A whole pass at once. -/
  | reconcile (session : Session) (now : Time) (clientOrderId : String)
      (lookup : String → Lookup)
  | sync (session : Session) (snapshot : AuthorityBrokerSnapshot) (statement : SyncStatement)
  | recovery (session : Session) (now : Time) (statement : RecoveryStatement)
  | review (session : Session) (request : EntryReviewRequest)
  /-- Leases are taken, renewed and lost. -/
  | lease (leases : Table Lease)

section Step

variable [Hashing]

/-- One statement of recovery. -/
def RecoveryStatement.apply (session : Session) (now : Time) (db : Db) : RecoveryStatement → Db
  | staleReady intent answer => (recoverStaleReady db session intent answer now).1
  | expireReservations => (AlpacaTrading.expireReservations db session now).1
  | expireReviews => AlpacaTrading.expireReviews db session now
  | expireConfirmations => AlpacaTrading.expireConfirmations db session now
  | cancelStaleCreated => AlpacaTrading.cancelStaleCreated db session now

/-- One step of the system. -/
def Sys.step (act : Act) (s : Sys) : Option Sys :=
  match act with
  | .start config => some { s with runs := s.runs ++ [{ config }] }
  | .run p act =>
    match s.runs[p]? with
    | none => none
    | some run =>
      (run.step act s.db).map fun (db, phase, call) ↦
        { s with
          db
          runs := s.runs.set p { run with phase }
          submissions := s.submissions ++ call.toList }
  | .startPass fence now clientOrderId =>
    some { s with
      passes := s.passes ++ [{ fence, now, todo := listTargets s.db clientOrderId }] }
  | .pass p act =>
    match s.passes[p]? with
    | none => none
    | some pass =>
      (pass.step act s.db).map fun (db, pass') ↦ { s with db, passes := s.passes.set p pass' }
  | .reconcile session now clientOrderId lookup =>
    some { s with db := (reconcilePostgresPaperOrders s.db session now clientOrderId lookup).1 }
  | .sync session snapshot statement =>
    match statement.apply snapshot session s.db with
    | .error _ => some s
    | .ok db => some { s with db }
  | .recovery session now statement => some { s with db := statement.apply session now s.db }
  | .review session request => some { s with db := (runEntryReview s.db request session).1 }
  | .lease leases => some { s with db := { s.db with leases } }

/-! ## Rows held by processes -/

/-- The row a run holds. -/
def Phase.row? : Phase → Option AutonomousExecutionIntentRow
  | .counting | .promoting | .claiming | .finished => none
  | .checking row | .releasing row _ | .attempting row | .submitting row _ | .awaiting row _
  | .rejecting row _ _ | .recording row _ _ _ _ | .doubting row _ _ _ | .recovering row _
  | .receipting row _ _ _ => some row

/-- The row still agrees with the stored intent on what is never undone. -/
def Phase.Valid (db : Db) (phase : Phase) : Prop :=
  ∀ row, phase.row? = some row → Known db row.intent row.review.reviewType

/-- What the processes rely on. -/
structure Sys.Valid (s : Sys) : Prop where
  runs : ∀ run ∈ s.runs, run.phase.Valid s.db
  passes : ∀ pass ∈ s.passes, pass.Valid s.db

omit [Hashing] in
theorem Sys.idle_valid (db : Db) : (Sys.idle db).Valid := by
  refine ⟨?_, ?_⟩
  · simp [Sys.idle]
  · simp [Sys.idle]

omit [Hashing] in
theorem Phase.Valid.later {db db' : Db} {phase : Phase} (h : phase.Valid db)
    (hl : Later db db') : phase.Valid db' :=
  fun row hrow ↦ (h row hrow).later hl

omit [Hashing] in
theorem Phase.valid_of_none {db : Db} {phase : Phase} (h : phase.row? = none) :
    phase.Valid db := by
  intro row hrow
  rw [h] at hrow
  cases hrow

omit [Hashing] in
/-- A phase with the same row is as valid. -/
theorem Phase.Valid.same {db : Db} {phase phase' : Phase} (h : phase.Valid db)
    (hrow : phase'.row? = phase.row?) : phase'.Valid db := by
  intro row heq
  exact h row (hrow ▸ heq)

omit [Hashing] in
theorem Sys.Valid.later {s : Sys} {db : Db} (h : s.Valid) (hl : Later s.db db) :
    Sys.Valid { s with db } :=
  ⟨fun run hrun ↦ (h.runs run hrun).later hl, fun pass hpass ↦ (h.passes pass hpass).later hl⟩

/-! ## Steps of a run -/

omit [Hashing] in
/-- A transaction of the machine under a fault is one. -/
theorem Effect.commit {α : Type} {db : Db} {outcome : Except String (Db × α)} (fault : Fault)
    (h : ∀ db' a, outcome = .ok (db', a) → Effect db db') :
    Effect db (fault.commit db outcome).1 := by
  have hfst : (fault.commit db outcome).1 = db ∨
      ∃ a, outcome = .ok ((fault.commit db outcome).1, a) := Fault.commit_fst
  rcases hfst with heq | ⟨a, heq⟩
  · rw [heq]
    exact .refl db
  · exact h _ a heq

omit [Hashing] in
theorem map_eq_ok {x : Except String Db} {db : Db} {a : Unit}
    (h : (x.map fun db' ↦ (db', ())) = .ok (db, a)) : x = .ok db := by
  cases x with
  | error code => cases h
  | ok db' =>
    cases h
    rfl

/-- What a step of a run does, with the row it goes on with. -/
def Run.Does (run : Run) (act : RunAct) (db db' : Db) (phase : Phase) : Prop :=
  phase.Valid db' ∧ (Relation.ReflTransGen Effect db db' ∨
    ∃ dbNow fault row receipt failedAt i, act = .reject dbNow fault ∧
      run.phase = .rejecting row receipt failedAt ∧ i.id = row.intent.id ∧ Rejects db db' i)

omit [Hashing] in
/-- A step that keeps the row of the run, or drops it. -/
theorem Run.does_of_effect {run : Run} {act : RunAct} {db db' : Db} {phase : Phase}
    (hvalid : run.phase.Valid db) (he : Effect db db')
    (hrow : phase.row? = none ∨ phase.row? = run.phase.row?) : run.Does act db db' phase := by
  refine ⟨?_, Or.inl (.single he)⟩
  rcases hrow with hnone | hsame
  · exact Phase.valid_of_none hnone
  · exact (hvalid.later he.later).same hsame

omit [Hashing] in
/-- The claim: the row it returns is known. -/
theorem Run.claim_does {run : Run} {act : RunAct} {db : Db} {fault : Fault}
    {outcome : Except String (Db × AutonomousExecutionIntentRow)}
    (hclaim : ∀ db' row, outcome = .ok (db', row) →
      Effect db db' ∧ Known db' row.intent row.review.reviewType) :
    run.Does act db (fault.commit db outcome).1 (match (fault.commit db outcome).2 with
      | .ok row => .checking row
      | .error _ => .finished) := by
  refine ⟨?_, Or.inl (.single (Effect.commit fault fun db' row h ↦ (hclaim db' row h).1))⟩
  split
  · next row hok =>
    intro row' hrow'
    obtain rfl : row = row' := Option.some_inj.1 hrow'
    exact (hclaim _ row (Fault.commit_ok hok)).2
  · exact Phase.valid_of_none rfl

omit [Hashing] in
/-- The deterministic failure, under a fault. -/
theorem Rejects.commit {db : Db} {id : String} {fault : Fault}
    {outcome : Except String (Db × BrokerMutationReceipt)}
    (h : ∀ db' a, outcome = .ok (db', a) → ∃ i, i.id = id ∧ Rejects db db' i) :
    Effect db (fault.commit db outcome).1 ∨
      ∃ i, i.id = id ∧ Rejects db (fault.commit db outcome).1 i := by
  have hfst : (fault.commit db outcome).1 = db ∨
      ∃ a, outcome = .ok ((fault.commit db outcome).1, a) := Fault.commit_fst
  rcases hfst with heq | ⟨a, heq⟩
  · rw [heq]
    exact Or.inl (.refl db)
  · exact Or.inr (h _ a heq)

omit [Hashing] in
/-- The recovery of an uncertain submission. -/
theorem Run.recover_does {run : Run} {act : RunAct} {db : Db} {row : AutonomousExecutionIntentRow}
    {receipt : BrokerMutationReceipt} {reconciledAt : Time}
    {result : Db × Except String AmbiguousSubmissionRecovery} (hvalid : run.phase.Valid db)
    (hphase : run.phase.row? = some row) (heffects : Relation.ReflTransGen Effect db result.1) :
    run.Does act db result.1 (match result.2 with
      | .ok (.recovered order) => .receipting row receipt order reconciledAt
      | _ => .finished) := by
  refine ⟨?_, Or.inl heffects⟩
  split
  · refine (hvalid.later (Effects.later heffects)).same ?_
    rw [hphase]
    rfl
  · exact Phase.valid_of_none rfl

omit [Hashing] in
theorem afterAnswer_row (config : RunConfig) (row : AutonomousExecutionIntentRow)
    (receipt : BrokerMutationReceipt) (answer : Answer) (clock : Time) :
    (afterAnswer config row receipt answer clock).row? = none ∨
      (afterAnswer config row receipt answer clock).row? = some row := by
  unfold afterAnswer
  split
  · dsimp only
    split
    · exact Or.inr rfl
    · exact Or.inr rfl
  · split
    · exact Or.inl rfl
    · exact Or.inr rfl

/-- **Every step of a run** is a sequence of steps of the machine, or the deterministic failure. -/
theorem Run.step_does {run : Run} {act : RunAct} {db db' : Db} {phase : Phase}
    {call : Option SubmissionKey} (hvalid : run.phase.Valid db)
    (h : run.step act db = some (db', phase, call)) : run.Does act db db' phase := by
  unfold Run.step at h
  dsimp only at h
  split at h
  · -- counting
    cases h
    refine Run.does_of_effect hvalid (.refl db) (Or.inl ?_)
    split_ifs <;> rfl
  · -- promoting
    cases h
    refine Run.does_of_effect hvalid (Effect.commit _ fun db' _ hok ↦ promote_effect hok)
      (Or.inl ?_)
    split <;> rfl
  · -- claiming
    cases h
    exact Run.claim_does fun db' row hok ↦ claim_effect hok
  · -- checking
    next hphase =>
    cases h
    refine Run.does_of_effect hvalid (.refl db) (Or.inr ?_)
    rw [hphase]
    split <;> rfl
  · -- releasing
    cases h
    refine Run.does_of_effect hvalid (Effect.commit _ fun db' _ hok ↦ ?_) (Or.inl rfl)
    exact releaseClaim_effect (map_eq_ok hok)
  · -- attempting
    next hphase =>
    cases h
    refine Run.does_of_effect hvalid (Effect.commit _ fun db' _ hok ↦ attempt_effect hok)
      (Or.inr ?_)
    rw [hphase]
    split <;> rfl
  · -- submitting
    next hphase =>
    cases h
    refine Run.does_of_effect hvalid (.refl db) (Or.inr ?_)
    rw [hphase]
    rfl
  · -- awaiting
    next hphase =>
    cases h
    refine Run.does_of_effect hvalid (.refl db) ?_
    rw [hphase]
    exact afterAnswer_row _ _ _ _ _
  · -- rejecting
    next hphase =>
    cases h
    refine ⟨Phase.valid_of_none rfl, ?_⟩
    refine (Rejects.commit fun db' a hok ↦ rejection_effect hok).imp .single ?_
    rintro ⟨i, hid, hrejects⟩
    exact ⟨_, _, _, _, _, i, rfl, hphase, hid, hrejects⟩
  · -- recording
    next hphase =>
    cases h
    have hknown := hvalid _ (by rw [hphase]; rfl)
    refine Run.does_of_effect hvalid (Effect.commit _ fun db' _ hok ↦ acknowledge_effect hknown hok)
      ?_
    rw [hphase]
    split
    · exact Or.inl rfl
    · exact Or.inr rfl
  · -- doubting
    next hphase =>
    cases h
    refine Run.does_of_effect hvalid (Effect.commit _ fun db' _ hok ↦ ambiguous_effect hok) ?_
    rw [hphase]
    split
    · exact Or.inr rfl
    · exact Or.inl rfl
  · -- recovering
    next hphase =>
    cases h
    exact Run.recover_does hvalid (by rw [hphase]; rfl) (Reconciles.effects recover_reconciles)
  · -- receipting
    cases h
    exact Run.does_of_effect hvalid (Effect.commit _ fun db' _ hok ↦ receipt_effect hok)
      (Or.inl rfl)
  · cases h
    exact Run.does_of_effect hvalid (.refl db) (Or.inl rfl)
  · cases h

/-! ## Steps of the system -/

/-- The four statements that are not routine, with the step that makes them. -/
inductive Sys.Unsafe (s : Sys) (db' : Db) : Act → Prop
  /-- A run records a deterministic failure. -/
  | rejects {p : Nat} {dbNow : Time} {fault : Fault} {run : Run} {row : AutonomousExecutionIntentRow}
      {receipt : BrokerMutationReceipt} {failedAt : Time} {i : Intent}
      (hrun : s.runs[p]? = some run) (hphase : run.phase = .rejecting row receipt failedAt)
      (hid : i.id = row.intent.id) (h : Rejects s.db db' i) :
      Sys.Unsafe s db' (.run p (.reject dbNow fault))
  /-- Recovery keeps a stale intent as ambiguous. -/
  | preserves {session : Session} {now : Time} {intent i : Intent} {answer : Lookup}
      (hid : i.id = intent.id) (hfence : fenceHeld s.db session = true)
      (hfound : staleOrderFound intent answer = true) (h : Preserves s.db db' i) :
      Sys.Unsafe s db' (.recovery session now (.staleReady intent answer))
  /-- Recovery cancels a stale intent without its reservation. -/
  | strands {session : Session} {now : Time} {intent i : Intent} {answer : Lookup}
      (hid : i.id = intent.id) (h : Strands s.db db' i) :
      Sys.Unsafe s db' (.recovery session now (.staleReady intent answer))
  /-- Recovery ends overdue reservations. -/
  | expires {session : Session} {now : Time} (hfence : fenceHeld s.db session = true)
      (h : Expires s.db db' now) :
      Sys.Unsafe s db' (.recovery session now .expireReservations)

omit [Hashing] in
theorem Rejects.later {db db' : Db} {i : Intent} (h : Rejects db db' i) : Later db db' := by
  obtain ⟨i', hi, hs', hres⟩ := h.replaces
  exact hi.later h.grows fun _ ↦ ⟨by simp [hs'], hres⟩

omit [Hashing] in
theorem Preserves.later {db db' : Db} {i : Intent} (h : Preserves db db' i) : Later db db' := by
  obtain ⟨i', hi, hs', hres⟩ := h.replaces
  exact hi.later h.grows fun _ ↦ ⟨by simp [hs'], hres⟩

omit [Hashing] in
theorem Strands.later {db db' : Db} {i : Intent} (h : Strands db db' i) : Later db db' := by
  obtain ⟨i', hi, hs', hres⟩ := h.replaces
  exact hi.later h.grows fun _ ↦ ⟨by simp [hs'], hres⟩

omit [Hashing] in
theorem Expires.later {db db' : Db} {now : Time} (h : Expires db db' now) : Later db db' :=
  (IntentsMove.of_eq h.intents).later h.grows

omit [Hashing] in
theorem Sys.Unsafe.later {s : Sys} {db' : Db} {act : Act} (h : s.Unsafe db' act) :
    Later s.db db' := by
  cases h with
  | rejects _ _ _ h => exact h.later
  | preserves _ _ _ h => exact h.later
  | strands _ h => exact h.later
  | expires _ h => exact h.later

omit [Hashing] in
theorem Advances.later {db db' : Db} (h : Relation.ReflTransGen Advance db db') : Later db db' :=
  invariant_of_steps (fun _ _ hl ha ↦ hl.trans ha.later) h (.refl db)

omit [Hashing] in
theorem Advances.of_effects {db db' : Db} (h : Relation.ReflTransGen Effect db db') :
    Relation.ReflTransGen Advance db db' :=
  Relation.ReflTransGen.mono (fun _ _ ↦ Or.inl) _ _ h

/-- The statements of recovery. -/
theorem recovery_cases {s : Sys} {session : Session} {now : Time}
    {statement : RecoveryStatement} :
    Effect s.db (statement.apply session now s.db) ∨
      s.Unsafe (statement.apply session now s.db) (.recovery session now statement) := by
  cases statement with
  | staleReady intent answer =>
    have hcases := @recoverStaleReady_effect _ s.db session now intent answer
    rcases hcases with h | ⟨i, hid, hfence, hfound, h⟩ | ⟨i, hid, h⟩
    · exact Or.inl h
    · exact Or.inr (.preserves hid hfence hfound h)
    · exact Or.inr (.strands hid h)
  | expireReservations =>
    have hcases := @expireReservations_effect _ s.db session now
    rcases hcases with ⟨hfence, h⟩ | h
    · exact Or.inr (.expires hfence h)
    · refine Or.inl ?_
      unfold RecoveryStatement.apply
      dsimp only
      rw [h]
      exact .refl s.db
  | expireReviews => exact Or.inl expireReviews_effect
  | expireConfirmations => exact Or.inl expireConfirmations_effect
  | cancelStaleCreated => exact Or.inl cancelStaleCreated_effect

omit [Hashing] in
/-- Processes stay valid when one of them takes a step. -/
theorem Sys.Valid.set_run {s : Sys} {db : Db} {p : Nat} {run : Run}
    {submissions : List SubmissionKey} (h : s.Valid) (hl : Later s.db db)
    (hrun : run.phase.Valid db) :
    Sys.Valid { s with db, runs := s.runs.set p run, submissions } := by
  refine ⟨fun r hr ↦ ?_, fun pass hpass ↦ (h.passes pass hpass).later hl⟩
  rcases List.mem_or_eq_of_mem_set hr with hr | rfl
  · exact (h.runs r hr).later hl
  · exact hrun

omit [Hashing] in
theorem Sys.Valid.set_pass {s : Sys} {db : Db} {p : Nat} {pass : Pass} (h : s.Valid)
    (hl : Later s.db db) (hpass : pass.Valid db) :
    Sys.Valid { s with db, passes := s.passes.set p pass } := by
  refine ⟨fun run hrun ↦ (h.runs run hrun).later hl, fun x hx ↦ ?_⟩
  rcases List.mem_or_eq_of_mem_set hx with hx | rfl
  · exact (h.passes x hx).later hl
  · exact hpass

/-- A step of a run, in the system. -/
theorem Sys.step_run {s s' : Sys} {p : Nat} {act : RunAct}
    (h : Sys.step (.run p act) s = some s') :
    ∃ run phase call, s.runs[p]? = some run ∧ run.step act s.db = some (s'.db, phase, call) ∧
      s' = { s with
        db := s'.db
        runs := s.runs.set p { run with phase }
        submissions := s.submissions ++ call.toList } := by
  simp only [Sys.step] at h
  split at h
  · cases h
  · next run hrun =>
    rw [Option.map_eq_some_iff] at h
    obtain ⟨⟨db, phase, call⟩, hstep, rfl⟩ := h
    exact ⟨run, phase, call, hrun, hstep, rfl⟩

/-- **What a step of the system does**: a sequence of steps of the machine and new intents, or one
of the statements that are not routine. -/
theorem Sys.step_cases {s s' : Sys} {act : Act} (hvalid : s.Valid)
    (h : Sys.step act s = some s') :
    s'.Valid ∧ (Relation.ReflTransGen Advance s.db s'.db ∨ s.Unsafe s'.db act) := by
  cases act with
  | start config =>
    cases h
    refine ⟨⟨fun run hrun ↦ ?_, hvalid.passes⟩, Or.inl .refl⟩
    rcases List.mem_append.1 hrun with hrun | hrun
    · exact hvalid.runs run hrun
    · rw [List.mem_singleton.1 hrun]
      exact Phase.valid_of_none rfl
  | run p act =>
    obtain ⟨run, phase, call, hrun, hstep, heq⟩ := Sys.step_run h
    obtain ⟨hphase, hdoes⟩ := Run.step_does (hvalid.runs run (List.mem_of_getElem? hrun)) hstep
    have hcases : Relation.ReflTransGen Advance s.db s'.db ∨ s.Unsafe s'.db (.run p act) := by
      rcases hdoes with heffects |
        ⟨dbNow, fault, row, receipt, failedAt, i, rfl, hrejecting, hid, hrejects⟩
      · exact Or.inl (Advances.of_effects heffects)
      · exact Or.inr (.rejects hrun hrejecting hid hrejects)
    have hlater : Later s.db s'.db := hcases.elim Advances.later Sys.Unsafe.later
    refine ⟨?_, hcases⟩
    rw [heq]
    exact hvalid.set_run hlater hphase
  | startPass fence now clientOrderId =>
    cases h
    refine ⟨⟨hvalid.runs, fun pass hpass ↦ ?_⟩, Or.inl .refl⟩
    rcases List.mem_append.1 hpass with hpass | hpass
    · exact hvalid.passes pass hpass
    · rw [List.mem_singleton.1 hpass]
      exact ⟨fun _ ↦ listTargets_known, trivial⟩
  | pass p act =>
    simp only [Sys.step] at h
    split at h
    · cases h
    · next pass hpass =>
      rw [Option.map_eq_some_iff] at h
      obtain ⟨⟨db, pass'⟩, hstep, rfl⟩ := h
      obtain ⟨hreconciles, hvalid'⟩ :=
        Pass.step_reconciles (hvalid.passes pass (List.mem_of_getElem? hpass)) hstep
      have heffect := hreconciles.effect
      exact ⟨hvalid.set_pass heffect.later hvalid', Or.inl (.single (Or.inl heffect))⟩
  | reconcile session now clientOrderId lookup =>
    cases h
    have heffects := Reconciles.effects (@reconcile_reconciles _ s.db session now lookup clientOrderId)
    exact ⟨hvalid.later (Effects.later heffects), Or.inl (Advances.of_effects heffects)⟩
  | sync session snapshot statement =>
    simp only [Sys.step] at h
    split at h
    · cases h
      exact ⟨hvalid, Or.inl .refl⟩
    · next db hok =>
      cases h
      have heffect := sync_effect hok
      exact ⟨hvalid.later heffect.later, Or.inl (.single (Or.inl heffect))⟩
  | recovery session now statement =>
    cases h
    rcases @recovery_cases _ s session now statement with heffect | hunsafe
    · exact ⟨hvalid.later heffect.later, Or.inl (.single (Or.inl heffect))⟩
    · exact ⟨hvalid.later hunsafe.later, Or.inr hunsafe⟩
  | review session request =>
    cases h
    have hadvances := @runEntryReview_advances _ s.db request session
    exact ⟨hvalid.later (Advances.later hadvances), Or.inl hadvances⟩
  | lease leases =>
    cases h
    have heffect : Effect s.db { s.db with leases } :=
      .quiet (.of_eq rfl rfl) rfl ⟨rfl, rfl, rfl⟩
    exact ⟨hvalid.later heffect.later, Or.inl (.single (Or.inl heffect))⟩

end Step

/-! ## The specimen at work

One execution run takes the created entry of the specimen to the broker. -/

namespace Specimen

/-- The run of the worker. -/
def config : RunConfig :=
  { command := .paperExecuteReviewed, fence, signingKey := "signing-key-of-16",
    context := { cycleId := "cycle", workstreamExecutionId := "run" }, now := 2000 }

/-- The steps up to the call of the broker. -/
def entryActs : List Act :=
  [.start config, .run 0 (.count 0 true true), .run 0 (.promote 0 (fun _ ↦ false) .none),
    .run 0 (.claim 0 (fun _ ↦ false) .none), .run 0 (.check none), .run 0 (.attempt 0 .none),
    .run 0 .submit]

/-- The call ends without an answer, and the run records its doubt. -/
def lostActs : List Act :=
  entryActs ++ [.run 0 (.answer (.inl { message := "socket hang up" }) 2000),
    .run 0 (.doubt 0 .none)]

/-- A run of the specimen. -/
def run (acts : List Act) : Option Sys := runActs (@Sys.step hashing) (Sys.idle entryDb) acts

/-- The types and statuses of the intents, and whether they hold a live reservation. -/
def standing (s : Sys) : List (Option ReviewType × IntentStatus × Bool) :=
  s.db.intents.rows.map fun i ↦ (i.kind s.db, i.status, i.reserved s.db)

theorem entryDb_sound : Sound entryDb :=
  .of_created_entry (i := entryIntent) rfl (by decide) rfl rfl (by decide) rfl

theorem entryDb_conserved : Conserved entryDb :=
  .of_unreserved rfl fun _ ha ↦ List.mem_singleton.1 ha ▸ rfl

theorem entryDb_released : Released entryDb := by
  intro i hi hdead
  obtain rfl := List.mem_singleton.1 hi
  simp [entryIntent, deadStatuses] at hdead

end Specimen

end AlpacaTrading
