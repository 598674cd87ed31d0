import AlpacaTrading.Scheduler.Tokens

/-!
# Scheduled commands

`runPostgresScheduledCommand` runs the operation of a command under the lease of its scheduler job:
`runWithPostgresSchedulerLease` acquires the lease, renews it by heartbeats while the operation
runs, and releases it, each in a transaction of its own.  A command that has no job, or whose
configuration has no scheduler, runs its operation without a lease, and in shadow comparison it may
fall back to that.

## What is modelled

An execution is a function of what it meets: the results of its transactions, in the order in which
it waits for them, and what its operation returns.  The heartbeats are the attempts made until the
operation ends, and the list ends with the signal that stops them.  The events that are emitted and
the causes of the errors are left out.

`scheduled_command_fenced` puts an execution in a run of the system of leases, where the other
workers do what they like in between.
-/

namespace AlpacaTrading

namespace Scheduler

/-! ## Jobs -/

/-- `PostgresSchedulerJob`. -/
structure PostgresSchedulerJob where
  jobName : String
  workstream : String
deriving DecidableEq

/-- `POSTGRES_SCHEDULER_COMMAND_REGISTRY`. -/
def postgresSchedulerCommandRegistry : List (PostgresSchedulerJob × List String) :=
  [(⟨"research", "research"⟩, ["research:daily", "research:import"]),
    (⟨"zero-dte", "zero_dte"⟩, ["zero-dte:engine", "zero-dte:exit:review", "zero-dte:eod"]),
    (⟨"observatory", "observatory"⟩, ["observatory:collect"]),
    (⟨"reconciliation", "reconciliation"⟩, ["zero-dte:reconcile", "paper:reconcile:external-order",
      "paper:order:cancel", "db:postgres:authority:cutover"]),
    (⟨"exit-review", "exit_review"⟩, ["paper:exit:review", "paper:exit-review", "paper:ops:review",
      "paper:ops:late-day", "paper:ops:late_day"]),
    (⟨"paper-exit", "paper_exit"⟩, ["paper:exit:execute", "paper:exit-execute"]),
    (⟨"paper-execution", "paper_execution"⟩, ["paper:execute", "paper:execute:reviewed"]),
    (⟨"allocation", "allocation"⟩, ["paper:review", "paper:portfolio:review", "paper:ops:morning",
      "paper:ops:midday"]),
    (⟨"market-data-refresh", "market_data_refresh"⟩, ["data:ingest", "options:ingest"]),
    (⟨"universe-lifecycle", "universe_lifecycle"⟩, ["universe:lifecycle"]),
    (⟨"autonomous-recovery", "autonomous_recovery"⟩, ["system:recover"]),
    (⟨"option-discovery", "option_discovery"⟩, ["paper:options:discover"]),
    (⟨"hedge-review", "hedge_review"⟩, ["hedge:review"]),
    (⟨"hedge-exit", "hedge_exit"⟩, ["hedge:exit:review", "hedge:exit:execute"]),
    (⟨"learning", "learning"⟩, ["paper:learn", "paper:outcomes"]),
    (⟨"autonomous-worker-state", "autonomous_worker_state"⟩, ["worker:state"])]

/-- `PostgresSchedulerCommandInput`, with a text of sections split at its commas. -/
structure PostgresSchedulerCommandInput where
  command : Option String
  action : Option String := none
  subaction : Option String := none
  sections : String ⊕ List String := .inl ""

/-- `normalizedCommand`; the empty command stands for `null`. -/
def normalizedCommand (input : PostgresSchedulerCommandInput) : String :=
  let command := Text.trim (input.command.getD "")
  if command = "" then ""
  else if ':' ∈ command.toList then command
  else
    let segments := [some command, input.action, input.subaction].filterMap (·.map Text.trim)
    ":".intercalate (segments.filter fun segment ↦ segment ≠ "" ∧ ¬ "--".toList <+: segment.toList)

/-- `isExitOnlyReviewedExecution`. -/
def isExitOnlyReviewedExecution (input : PostgresSchedulerCommandInput) : Bool :=
  let sections : List String := match input.sections with
    | .inr sections => sections
    | .inl text => (text.toList.splitOn ',').map String.ofList
  let normalized := (sections.map Text.trim).filter (· ≠ "")
  normalized ≠ [] ∧ ∀ name ∈ normalized, name ∈ ["equitySells", "optionSellToCloseExits"]

/-- `resolvePostgresSchedulerJob`. -/
def resolvePostgresSchedulerJob (input : PostgresSchedulerCommandInput) :
    Option PostgresSchedulerJob :=
  let command := normalizedCommand input
  if command = "" then none
  else if command ∈ ["paper:execute", "paper:execute:reviewed"] ∧
      isExitOnlyReviewedExecution input then
    some ⟨"paper-exit", "paper_exit"⟩
  else (postgresSchedulerCommandRegistry.find? fun entry ↦ command ∈ entry.2).map Prod.fst

/-! ## An execution -/

/-- The features of a `DatabaseConfig` that are read. -/
structure DatabaseFeatures where
  schedulerAuthority : Bool
  shadowComparison : Bool
  controlPlaneAuthority : Bool
  postgresReads : Bool
  postgresWrites : Bool
deriving DecidableEq

/-- `RunWithPostgresSchedulerLeaseInput`. -/
structure RunWithPostgresSchedulerLeaseInput where
  features : DatabaseFeatures
  job : PostgresSchedulerJob
  ownerId : String
  runId : String
  operationId : String
  leaseDurationMs : Int
  heartbeatIntervalMs : Int

/-- What an execution throws: an error of the scheduler, the loss of the fence that the operation
notices, or an error of the operation. -/
inductive Failure (E : Type) where
  | scheduler (code message : String)
  | controlPlaneFenceLost
  | operation (error : E)
deriving DecidableEq

/-- `SchedulerLeaseAcquisitionResult`. -/
inductive SchedulerLeaseAcquisitionResult where
  | acquired (lease : SchedulerLeaseRow)
  | held (lease : SchedulerLeaseRow)

/-- `SchedulerLeaseMutationResult`. -/
inductive SchedulerLeaseMutationResult where
  | updated (lease : SchedulerLeaseRow)
  | fenceRejected (currentFencingToken : Nat)
  | notFound

/-- What the transaction of an acquisition ended with. -/
def SchedulerLeaseAcquisitionResult.result : SchedulerLeaseAcquisitionResult → LeaseResult
  | acquired lease => .acquired lease
  | held lease => .held lease

/-- What the transaction of a heartbeat or a release ended with. -/
def SchedulerLeaseMutationResult.result : SchedulerLeaseMutationResult → LeaseResult
  | updated lease => .updated lease
  | fenceRejected currentFencingToken => .fenceRejected currentFencingToken
  | notFound => .notFound

/-- `status`. -/
def SchedulerLeaseMutationResult.status : SchedulerLeaseMutationResult → String
  | updated _ => "updated"
  | fenceRejected _ => "fence_rejected"
  | notFound => "not_found"

/-- An attempt to renew the lease. -/
inductive HeartbeatAttempt where
  | returned (result : SchedulerLeaseMutationResult)
  /-- The transaction failed, at a time, with an error that is transient or not. -/
  | failed (transient : Bool) (now : Time)
  /-- The wait before an attempt failed. -/
  | waitFailed

/-- What an execution meets; `none` stands for a transaction that throws. -/
structure LeaseRun (T E : Type) where
  acquiredAt : Time
  acquisition : Option SchedulerLeaseAcquisitionResult
  heartbeats : List HeartbeatAttempt
  operation : Except (Failure E) T
  /-- The external signal is aborted before the operation ends. -/
  terminated : Bool
  release : Option SchedulerLeaseMutationResult

variable {T E : Type}

/-- `requireNonempty`. -/
def requireNonempty (value code : String) : Except (Failure E) Unit :=
  if Text.trim value = "" then .error (.scheduler code "Scheduler identity is required.")
  else .ok ()

/-- `validateInput`. -/
def validateInput (input : RunWithPostgresSchedulerLeaseInput) : Except (Failure E) Unit := do
  if (¬ input.features.schedulerAuthority ∧ ¬ input.features.shadowComparison) ∨
      ¬ input.features.postgresReads ∨ ¬ input.features.postgresWrites then
    throw (.scheduler "POSTGRES_CONTROL_PLANE_AUTHORITY_REQUIRED"
      "PostgreSQL shadow comparison or scheduler authority is required for scheduler execution.")
  requireNonempty input.job.jobName "SCHEDULER_JOB_NAME_REQUIRED"
  requireNonempty input.job.workstream "SCHEDULER_WORKSTREAM_REQUIRED"
  requireNonempty input.ownerId "SCHEDULER_OWNER_REQUIRED"
  requireNonempty input.runId "SCHEDULER_RUN_REQUIRED"
  requireNonempty input.operationId "SCHEDULER_OPERATION_REQUIRED"
  if 2 ^ 53 - 1 < input.leaseDurationMs ∨ 2 ^ 53 - 1 < input.heartbeatIntervalMs ∨
      input.leaseDurationMs ≤ 0 ∨ input.heartbeatIntervalMs ≤ 0 ∨
      input.leaseDurationMs ≤ input.heartbeatIntervalMs then
    throw (.scheduler "SCHEDULER_HEARTBEAT_BOUNDS_INVALID"
      "Heartbeat interval must be positive and shorter than the lease duration.")

/-- `fencedMutationError`. -/
def fencedMutationError (code action : String) (result : SchedulerLeaseMutationResult) :
    Failure E :=
  .scheduler code
    ("Scheduler lease " ++ action ++ " was rejected with status " ++ result.status ++ ".")

/-- The input of the acquisition. -/
def acquireInput (input : RunWithPostgresSchedulerLeaseInput) (acquiredAt : Time) :
    SchedulerLeaseAcquireInput where
  jobName := input.job.jobName
  workstream := input.job.workstream
  ownerId := input.ownerId
  runId := input.runId
  acquiredAt := acquiredAt
  expiresAt := acquiredAt + input.leaseDurationMs

/-- The result of the acquisition: the lease, if it is the one that was asked for. -/
def acquiredLease (input : RunWithPostgresSchedulerLeaseInput)
    (acquisition : Option SchedulerLeaseAcquisitionResult) :
    Except (Failure E) SchedulerLeaseRow :=
  match acquisition with
  | none => .error (.scheduler "SCHEDULER_ACQUIRE_FAILED" "Scheduler lease acquisition failed.")
  | some (.held _) => .error (.scheduler "SCHEDULER_LEASE_HELD"
      "The scheduler job is already owned by another active lease.")
  | some (.acquired lease) =>
    if lease.jobName ≠ input.job.jobName ∨ lease.workstream ≠ input.job.workstream ∨
        lease.ownerId ≠ input.ownerId ∨ lease.runId ≠ input.runId ∨ lease.status ≠ .held then
      .error (.scheduler "SCHEDULER_ACQUISITION_IDENTITY_MISMATCH"
        "The acquired scheduler lease does not match the requested identity.")
    else .ok lease

/-- The failure of a transaction that renews the lease. -/
def heartbeatFailed : Failure E :=
  .scheduler "SCHEDULER_HEARTBEAT_FAILED"
    "Scheduler heartbeat failed before the safe renewal deadline."

/-- `heartbeatLoop`: the failure it leaves, if any.  A transient error is tried again until five
seconds before the lease expires. -/
def heartbeatLoop (leaseExpiresAt : Time) : List HeartbeatAttempt → Option (Failure E)
  | [] => none
  | .waitFailed :: _ =>
    some (.scheduler "SCHEDULER_HEARTBEAT_FAILED" "Scheduler heartbeat wait failed.")
  | .returned (.updated lease) :: rest => heartbeatLoop lease.expiresAt rest
  | .returned result :: _ => some (fencedMutationError "SCHEDULER_FENCE_LOST" "heartbeat" result)
  | .failed transient now :: rest =>
    let remainingLeaseMs := max 0 (leaseExpiresAt - now)
    let retryDelayMs := min 1000 (max 0 (remainingLeaseMs - 5000))
    if ¬ transient ∨ retryDelayMs ≤ 0 then some heartbeatFailed
    else heartbeatLoop leaseExpiresAt rest

/-- The fence of a lease as the repository is given it. -/
def identityOf (fence : SchedulerFence) : SchedulerFencingIdentity where
  jobName := fence.jobName
  ownerId := fence.ownerId
  runId := fence.runId
  fencingToken := fence.fencingToken

/-- The reason of the release. -/
def releaseReason (heartbeatFailure : Option (Failure E)) (operationFailed : Bool) : String :=
  if heartbeatFailure.isSome then "fence_lost" else if operationFailed then "failed"
  else "completed"

/-- The input of the release. -/
def releaseInput (lease : SchedulerLeaseRow) (run : LeaseRun T E) : SchedulerLeaseReleaseInput where
  toSchedulerFencingIdentity := identityOf (LeaseSystem.fenceOf lease)
  releaseReason := some (releaseReason (heartbeatLoop (E := E) lease.expiresAt run.heartbeats)
    (run.terminated || !run.operation.isOk))

/-- The failure of the release. -/
def releaseFailure : Option SchedulerLeaseMutationResult → Option (Failure E)
  | none => some (.scheduler "SCHEDULER_RELEASE_FAILED" "Scheduler lease release failed.")
  | some (.updated _) => none
  | some result => some (fencedMutationError "SCHEDULER_RELEASE_REJECTED" "release" result)

/-- `terminationFailure`. -/
def terminationFailure (terminated : Bool) : Option (Failure E) :=
  if terminated then some (.scheduler "SCHEDULER_COMMAND_TERMINATED"
    "The scheduled PostgreSQL command was terminated before completion.")
  else none

/-- `runWithPostgresSchedulerLease`: the fence its operation is started with, and how it ends. -/
def runWithPostgresSchedulerLease (input : RunWithPostgresSchedulerLeaseInput)
    (run : LeaseRun T E) : Option SchedulerFence × Except (Failure E) T :=
  match (validateInput input : Except (Failure E) Unit), acquiredLease input run.acquisition with
  | .error error, _ => (none, .error error)
  | .ok _, .error error => (none, .error error)
  | .ok _, .ok lease =>
    let failure := heartbeatLoop lease.expiresAt run.heartbeats <|> releaseFailure run.release <|>
      terminationFailure run.terminated
    (some (LeaseSystem.fenceOf lease), match failure with
      | some error => .error error
      | none => run.operation)

/-! ## A command -/

/-- What a command meets. -/
structure CommandRun (T E : Type) where
  ownerId : String
  invocationId : String
  acquiredAt : Time
  acquisition : Option SchedulerLeaseAcquisitionResult
  heartbeats : List HeartbeatAttempt
  terminated : Bool
  release : Option SchedulerLeaseMutationResult
  /-- The signal of the execution is not aborted when the operation begins. -/
  active : Bool
  /-- It is not aborted when the operation has ended. -/
  stillActive : Bool
  /-- What the operation does under the lease. -/
  leased : Except E T
  /-- What it does without. -/
  unleased : Except E T

/-- The operation as it is run under the lease, with `assertControlPlaneFenceActive` before it and
after. -/
def CommandRun.operation (run : CommandRun T E) : Except (Failure E) T :=
  if ¬ run.active then .error .controlPlaneFenceLost
  else match run.leased with
    | .error error => .error (.operation error)
    | .ok value => if run.stillActive then .ok value else .error .controlPlaneFenceLost

/-- The execution under the lease. -/
def CommandRun.leaseRun (run : CommandRun T E) : LeaseRun T E where
  acquiredAt := run.acquiredAt
  acquisition := run.acquisition
  heartbeats := run.heartbeats
  operation := run.operation
  terminated := run.terminated
  release := run.release

/-- The input of the execution. -/
def CommandRun.leaseInput (run : CommandRun T E) (features : DatabaseFeatures)
    (job : PostgresSchedulerJob) : RunWithPostgresSchedulerLeaseInput where
  features := features
  job := job
  ownerId := run.ownerId
  runId := run.invocationId
  operationId := "scheduler:" ++ run.invocationId
  leaseDurationMs := 60000
  heartbeatIntervalMs := 15000

/-- A call of the operation: its fence, if it runs under a lease, and what it returns. -/
structure OperationCall (T E : Type) where
  fence : Option SchedulerFence
  result : Except E T

/-- What the operation itself throws. -/
def ofOperation (result : Except E T) : Except (Failure E) T :=
  match result with
  | .ok value => .ok value
  | .error error => .error (.operation error)

/-- `runPostgresScheduledCommand`: the calls of its operation, and how it ends. -/
def runPostgresScheduledCommand (features : DatabaseFeatures)
    (input : PostgresSchedulerCommandInput) (run : CommandRun T E) :
    List (OperationCall T E) × Except (Failure E) T :=
  let unleased := ([⟨none, run.unleased⟩], ofOperation run.unleased)
  match resolvePostgresSchedulerJob input with
  | none => unleased
  | some job =>
    if ¬ (features.shadowComparison ∨ features.schedulerAuthority) then unleased
    else
      let (fence, result) :=
        runWithPostgresSchedulerLease (run.leaseInput features job) run.leaseRun
      let started := fence.isSome && run.active
      let completed := started && run.leased.isOk
      let calls : List (OperationCall T E) := if started then [⟨fence, run.leased⟩] else []
      match result with
      | .ok value => (calls, .ok value)
      | .error error =>
        if ¬ features.shadowComparison ∨ features.controlPlaneAuthority then (calls, .error error)
        else if started && !completed then (calls, .error error)
        else if completed then (calls, ofOperation run.leased)
        else (calls ++ [⟨none, run.unleased⟩], ofOperation run.unleased)

/-! ## What an execution returns -/

variable {features : DatabaseFeatures} {input : PostgresSchedulerCommandInput}
  {run : CommandRun T E}

/-- The lease that is accepted is the one that was asked for. -/
theorem acquiredLease_ok {input : RunWithPostgresSchedulerLeaseInput}
    {acquisition : Option SchedulerLeaseAcquisitionResult} {lease : SchedulerLeaseRow}
    (h : (acquiredLease input acquisition : Except (Failure E) _) = .ok lease) :
    acquisition = some (.acquired lease) ∧ lease.jobName = input.job.jobName := by
  unfold acquiredLease at h
  split at h
  · cases h
  · cases h
  · next lease' =>
    split at h
    · cases h
    · next hsame =>
      obtain rfl := Except.ok.inj h
      exact ⟨rfl, not_not.1 fun hne ↦ hsame (Or.inl hne)⟩

/-- An execution that starts its operation starts it under the lease it acquired. -/
theorem fence_of_lease {input : RunWithPostgresSchedulerLeaseInput} {run : LeaseRun T E}
    {fence : SchedulerFence} (h : (runWithPostgresSchedulerLease input run).1 = some fence) :
    ∃ lease, run.acquisition = some (.acquired lease) ∧ lease.jobName = input.job.jobName ∧
      fence = LeaseSystem.fenceOf lease := by
  unfold runWithPostgresSchedulerLease at h
  split at h
  · cases h
  · cases h
  · next lease _ hlease =>
    obtain ⟨hacquired, hjob⟩ := acquiredLease_ok hlease
    exact ⟨lease, hacquired, hjob, (Option.some_inj.1 h).symm⟩

/-- **What an execution returns**: its operation was started under the lease it acquired and
returned the value, and the lease was released with the token it was acquired with. -/
theorem value_of_lease {input : RunWithPostgresSchedulerLeaseInput} {run : LeaseRun T E} {value : T}
    (h : (runWithPostgresSchedulerLease input run).2 = .ok value) :
    ∃ lease row, run.acquisition = some (.acquired lease) ∧ lease.jobName = input.job.jobName ∧
      (runWithPostgresSchedulerLease input run).1 = some (LeaseSystem.fenceOf lease) ∧
      run.operation = .ok value ∧ run.release = some (.updated row) := by
  unfold runWithPostgresSchedulerLease at h ⊢
  split at h
  · cases h
  · cases h
  · next lease _ hlease =>
    obtain ⟨hacquired, hjob⟩ := acquiredLease_ok hlease
    dsimp only at h
    split at h
    · cases h
    · next hfailure =>
      -- Neither the heartbeats nor the release failed.
      have hreleased : (releaseFailure run.release : Option (Failure E)) = none := by
        rcases hheart : (heartbeatLoop lease.expiresAt run.heartbeats : Option (Failure E))
        · rw [hheart] at hfailure
          rcases hrelease : (releaseFailure run.release : Option (Failure E))
          · rfl
          · rw [hrelease] at hfailure
            cases hfailure
        · rw [hheart] at hfailure
          cases hfailure
      unfold releaseFailure at hreleased
      split at hreleased
      · cases hreleased
      · next row hrow => exact ⟨lease, row, hacquired, hjob, rfl, h, hrow⟩
      · cases hreleased

/-- The operation under a lease returns what the operation of the command does. -/
theorem operation_ok {value : T} (h : run.operation = .ok value) :
    run.active = true ∧ run.leased = .ok value := by
  unfold CommandRun.operation at h
  split at h
  · cases h
  · next hactive =>
    refine ⟨not_not.1 hactive, ?_⟩
    split at h
    · cases h
    · next value' hleased =>
      split at h
      · rw [hleased, Except.ok.inj h]
      · cases h

/-- The operation is called under a lease at most, and then its result is known. -/
theorem started_of_value {value : T} {job : PostgresSchedulerJob}
    (h : (runWithPostgresSchedulerLease (run.leaseInput features job) run.leaseRun).2 = .ok value) :
    (runWithPostgresSchedulerLease (run.leaseInput features job) run.leaseRun).1.isSome = true ∧
      run.active = true ∧ run.leased = .ok value := by
  obtain ⟨lease, row, _, _, hfence, hoperation, _⟩ := value_of_lease h
  rw [hfence]
  exact ⟨rfl, operation_ok hoperation⟩

/-- What a command is to its operation: it calls it at most once, and returns only what the call
returned.  In shadow comparison without the authority of the control plane it calls it exactly
once, and returns a value whenever the call does. -/
structure CallsOnce (features : DatabaseFeatures)
    (outcome : List (OperationCall T E) × Except (Failure E) T) : Prop where
  atMostOnce : outcome.1.length ≤ 1
  returned : ∀ value, outcome.2 = .ok value → ∃ fence, outcome.1 = [⟨fence, .ok value⟩]
  transparent : features.shadowComparison = true → features.controlPlaneAuthority = false →
    ∃ call, outcome.1 = [call] ∧ outcome.2.toOption = call.result.toOption

/-- A command that ends as its only call does. -/
theorem callsOnce_of_call (fence : Option SchedulerFence) (result : Except E T) :
    CallsOnce features ([⟨fence, result⟩], ofOperation result) := by
  rcases result with error | value
  · exact ⟨le_rfl, fun value h ↦ (by cases h), fun _ _ ↦ ⟨_, rfl, rfl⟩⟩
  · refine ⟨le_rfl, fun value' h ↦ ⟨fence, ?_⟩, fun _ _ ↦ ⟨_, rfl, rfl⟩⟩
    rw [Except.ok.inj h]

/-- A command that throws, with the authority to do so. -/
theorem callsOnce_of_error {calls : List (OperationCall T E)} (error : Failure E)
    (hcalls : calls.length ≤ 1)
    (hauthority : ¬ features.shadowComparison ∨ features.controlPlaneAuthority) :
    CallsOnce features (calls, .error error) := by
  refine ⟨hcalls, fun value h ↦ (by cases h), fun hshadow hcontrol ↦ ?_⟩
  rw [hshadow, hcontrol] at hauthority
  simp at hauthority

/-- **The calls of a command's operation**, whatever happens to its lease. -/
theorem runPostgresScheduledCommand_callsOnce (features : DatabaseFeatures)
    (input : PostgresSchedulerCommandInput) (run : CommandRun T E) :
    CallsOnce features (runPostgresScheduledCommand features input run) := by
  unfold runPostgresScheduledCommand
  split
  · exact callsOnce_of_call none run.unleased
  · next job _ =>
    split
    · exact callsOnce_of_call none run.unleased
    · dsimp only
      rcases hlease : runWithPostgresSchedulerLease (run.leaseInput features job) run.leaseRun with
        ⟨fence, result⟩
      have hvalue : ∀ value, result = .ok value →
          fence.isSome = true ∧ run.active = true ∧ run.leased = .ok value := by
        intro value hresult
        have h := @started_of_value T E features run value job (by rw [hlease]; exact hresult)
        rwa [hlease] at h
      dsimp only
      rcases result with error | value
      · dsimp only
        split
        · next hauthority =>
          refine callsOnce_of_error error ?_ hauthority
          split
          · exact le_rfl
          · exact Nat.zero_le 1
        · -- Shadow comparison: the operation's own result, or a call without a lease.
          rcases hstarted : fence.isSome && run.active with - | -
          · exact callsOnce_of_call none run.unleased
          · rcases hleased : run.leased with error' | value
            · exact ⟨le_rfl, fun value h ↦ (by cases h), fun _ _ ↦ ⟨_, rfl, rfl⟩⟩
            · exact callsOnce_of_call fence (.ok value)
      · obtain ⟨hfence, hactive, hleased⟩ := hvalue value rfl
        rw [hfence, hactive, hleased]
        exact callsOnce_of_call fence (.ok value)

/-- **Scheduled commands run alone.**  In every interleaving of the workers of a job: where a command
with the scheduler's authority returns a value, its operation was called once, under the fence of
the lease that the command acquired, and until the release commits, nothing of the job is committed
but writes under that fence; then the lease is released. -/
theorem scheduled_command_fenced {W : Type} [DecidableEq W] {s₀ s₁ s₂ s₃ s₄ : LeaseSystem W}
    {before during : List (LeaseAct W)} {w w' : W} {job : PostgresSchedulerJob} {value : T}
    (hidle : s₀.Idle) (hbefore : runActs LeaseSystem.step s₀ before = some s₁)
    (hjob : resolvePostgresSchedulerJob input = some job)
    (hauthority : features.schedulerAuthority = true ∧
      (features.shadowComparison = false ∨ features.controlPlaneAuthority = true))
    -- A transaction returns a result when it has committed.
    (hacquire : ∀ lease, run.acquisition = some (.acquired lease) →
      s₁.Commits w (.acquire (acquireInput (run.leaseInput features job) run.acquiredAt))
        (.acquired lease) s₂)
    (hduring : runActs LeaseSystem.step s₂ during = some s₃)
    (hrelease : ∀ lease row, run.acquisition = some (.acquired lease) →
      run.release = some (.updated row) →
        s₃.Commits w' (.release (releaseInput lease run.leaseRun)) (.updated row) s₄)
    (hvalue : (runPostgresScheduledCommand features input run).2 = .ok value) :
    ∃ fence later row,
      (runPostgresScheduledCommand features input run).1 = [⟨some fence, .ok value⟩] ∧
      fence.jobName = job.jobName ∧
      s₄.log = s₁.log ++ .acquired fence.fencingToken :: later ∧
      (∀ e ∈ later, e = .wrote fence) ∧
      s₄.saved = some row ∧ row.Names fence ∧ row.status = .released := by
  have hvalue' : (runWithPostgresSchedulerLease (run.leaseInput features job)
      run.leaseRun).2 = .ok value := by
    unfold runPostgresScheduledCommand at hvalue
    rw [hjob] at hvalue
    dsimp only at hvalue
    rw [if_neg (by simp [hauthority.1])] at hvalue
    split at hvalue
    · next hresult =>
      rw [hresult]
      exact hvalue
    · rw [if_pos (by simpa using hauthority.2)] at hvalue
      cases hvalue
  obtain ⟨lease, row, hacquired, hlease, hfence, hoperation, hreleased⟩ := value_of_lease hvalue'
  obtain ⟨hactive, hleased⟩ := operation_ok hoperation
  -- The calls.
  have hcalls : (runPostgresScheduledCommand features input run).1 =
      [⟨some (LeaseSystem.fenceOf lease), .ok value⟩] := by
    unfold runPostgresScheduledCommand
    rw [hjob]
    dsimp only
    rw [if_neg (by simp [hauthority.1]), hvalue', hfence, hactive, hleased]
    rfl
  -- The log.
  have hregular₁ : s₁.Regular :=
    invariant_of_run (fun _ _ _ hr h ↦ hr.step h) hidle.regular hbefore
  obtain ⟨hregular₂, hlog, hafter⟩ := hregular₁.acquired hlease (hacquire lease hacquired)
  have hregular₃ : s₃.Regular ∧ s₃.After (LeaseSystem.fenceOf lease) s₂.log := by
    have hstep : ∀ (s : LeaseSystem W) act s',
        s.Regular ∧ s.After (LeaseSystem.fenceOf lease) s₂.log → LeaseSystem.step act s = some s' →
          s'.Regular ∧ s'.After (LeaseSystem.fenceOf lease) s₂.log :=
      fun s act s' hI h ↦ ⟨hI.1.step h, hI.2.step hI.1.sound hI.1.drawn hI.1.endings h⟩
    exact invariant_of_run hstep ⟨hregular₂, hafter⟩ hduring
  obtain ⟨⟨later, hlater, hall⟩, hsaved, hnames, hstatus⟩ :=
    LeaseSystem.log_of_kept hregular₃.1 hregular₃.2 rfl rfl (hrelease lease row hacquired hreleased)
  refine ⟨LeaseSystem.fenceOf lease, later, row, hcalls, hlease, ?_, hall, hsaved, hnames,
    hstatus _ rfl⟩
  rw [hlater, hlog, List.append_assoc]
  rfl

namespace Specimen

open AlpacaTrading.Specimen

/-- The command of the worker that exits positions. -/
def exitCommand : PostgresSchedulerCommandInput where
  command := some "paper"
  action := some "exit"
  subaction := some "execute"

def authority : DatabaseFeatures where
  schedulerAuthority := true
  shadowComparison := false
  controlPlaneAuthority := true
  postgresReads := true
  postgresWrites := true

def lease : SchedulerLeaseRow where
  jobName := "paper-exit"
  workstream := "paper_exit"
  ownerId := "first"
  runId := "run"
  fencingToken := 1
  status := .held
  expiresAt := 60000
  acquiredAt := 0
  heartbeatAt := 0
  releasedAt := none
  releaseReason := none
  version := 1

def releasedLease : SchedulerLeaseRow :=
  { lease with status := .released, releasedAt := some 10, releaseReason := some "completed",
               version := 2 }

/-- The command acquires the lease, renews it once after a lost connection, and releases it. -/
def exitRun : CommandRun ℕ Unit where
  ownerId := "first"
  invocationId := "run"
  acquiredAt := 0
  acquisition := some (.acquired lease)
  heartbeats := [.failed true 5, .returned (.updated lease)]
  terminated := false
  release := some (.updated releasedLease)
  active := true
  stillActive := true
  leased := .ok 7
  unleased := .ok 0

/-- A second worker asks for the lease before the first one has it. -/
def exitBefore : List (LeaseAct ℕ) :=
  [.begin 0 (acquireBy "first"), .send 0 1, .begin 1 (acquireBy "second"), .send 1 2, .grant 0]

/-- It is refused; the first worker writes, and releases. -/
def exitDuring : List (LeaseAct ℕ) :=
  [.grant 1, .commit 1, .tick 10, .begin 0 (.guarded (fenceOf "first" 1)), .send 0 0, .grant 0,
    .commit 0, .begin 0 (.release (releaseInput lease exitRun.leaseRun)), .send 0 0, .grant 0,
    .update 0]

end Specimen

open AlpacaTrading.Specimen Scheduler.Specimen in
/-- The theorem at a command with a second worker. -/
theorem exit_command_fenced : ∃ s : LeaseSystem ℕ, ∃ fence later row,
    runActs LeaseSystem.step idleLease
      (exitBefore ++ .commit 0 :: (exitDuring ++ [.commit 0])) = some s ∧
    (runPostgresScheduledCommand authority exitCommand exitRun).1 = [⟨some fence, .ok 7⟩] ∧
    s.log = .acquired fence.fencingToken :: later ∧ (∀ e ∈ later, e = .wrote fence) ∧
    s.saved = some row ∧ row.Names fence ∧ row.status = .released := by
  have hall : (runActs LeaseSystem.step idleLease
      (exitBefore ++ .commit 0 :: (exitDuring ++ [.commit 0]))).isSome = true := by
    decide +kernel
  have hbefore : (runActs LeaseSystem.step idleLease exitBefore).map (fun s ↦ (s.txs 0, s.log)) =
      some (some { operation := acquireBy "first", startedAt := 0,
                   stage := .ending (.acquired lease) }, []) := by
    decide +kernel
  have hduring : (runActs LeaseSystem.step idleLease
      (exitBefore ++ .commit 0 :: exitDuring)).map (fun s ↦ s.txs 0) =
      some (some { operation := .release (releaseInput lease exitRun.leaseRun), startedAt := 10,
                   stage := .ending (.updated releasedLease) }) := by
    decide +kernel
  obtain ⟨s₄, hrun⟩ := Option.isSome_iff_exists.1 hall
  obtain ⟨s₁, hs₁, hstate⟩ := Option.map_eq_some_iff.1 hbefore
  obtain ⟨htx₁, hlog₁⟩ := Prod.mk.inj hstate
  have hsplit := hrun
  rw [runActs_append, hs₁] at hsplit
  obtain ⟨s₂, hcommit, hrest⟩ := runActs_cons.1 hsplit
  rw [runActs_append] at hrest
  obtain ⟨s₃, hs₃, hlast⟩ := Option.bind_eq_some_iff.1 hrest
  obtain ⟨s, hrelease, hend⟩ := runActs_cons.1 hlast
  obtain rfl := Option.some_inj.1 hend
  rw [runActs_append, hs₁] at hduring
  have hmiddle : runActs LeaseSystem.step s₁ (.commit 0 :: exitDuring) = some s₃ :=
    runActs_cons.2 ⟨s₂, hcommit, hs₃⟩
  have htx₃ := hduring
  rw [Option.bind_some, hmiddle] at htx₃
  have hacquires : ∀ l, exitRun.acquisition = some (.acquired l) →
      s₁.Commits 0 (.acquire (acquireInput (exitRun.leaseInput authority ⟨"paper-exit",
        "paper_exit"⟩) exitRun.acquiredAt)) (.acquired l) s₂ := by
    intro l hl
    obtain rfl := SchedulerLeaseAcquisitionResult.acquired.inj (Option.some_inj.1 hl)
    exact ⟨⟨_, htx₁, rfl, rfl⟩, hcommit⟩
  have hreleases : ∀ l r, exitRun.acquisition = some (.acquired l) →
      exitRun.release = some (.updated r) →
        s₃.Commits 0 (.release (releaseInput l exitRun.leaseRun)) (.updated r) s := by
    intro l r hl hr
    obtain rfl := SchedulerLeaseAcquisitionResult.acquired.inj (Option.some_inj.1 hl)
    obtain rfl := SchedulerLeaseMutationResult.updated.inj (Option.some_inj.1 hr)
    exact ⟨⟨_, Option.some_inj.1 htx₃, rfl, rfl⟩, hrelease⟩
  have hjob : resolvePostgresSchedulerJob exitCommand = some ⟨"paper-exit", "paper_exit"⟩ := by
    decide +kernel
  have hvalue : (runPostgresScheduledCommand authority exitCommand exitRun).2 = .ok 7 := by
    decide +kernel
  obtain ⟨fence, later, row, hcalls, _, hlog, hlater, hsaved, hnames, hstatus⟩ :=
    scheduled_command_fenced idleLease_idle hs₁ hjob ⟨rfl, Or.inl rfl⟩ hacquires hs₃ hreleases
      hvalue
  rw [hlog₁] at hlog
  exact ⟨s, fence, later, row, hrun, hcalls, hlog, hlater, hsaved, hnames, hstatus⟩

end Scheduler

end AlpacaTrading
