import AlpacaTrading.Lib.Ends
import AlpacaTrading.Worker.State

/-!
# The loop of the autonomous worker

The worker goes through cycles, and in each through a fixed list of workstreams.  A workstream is a
command of its own process; around it the worker stores what happens by calls of the state service,
which are commands too.  Some workstreams may send orders to the broker, and after them the orders
are reconciled, by a workstream of the list or within the position of the workstream itself.

## What is modelled

The commands are answered by an environment: how a workstream ended, as `classify` reads it from its
output, what happens to a call of the state service, and when a signal arrives.  The environment
answers by the number of commands that have run, and nothing is assumed about its answers.  Within
a cycle the state service accepts a call as `allowedTransition` says, and by its name if it ends a
workstream; the times of the calls increase, so the previous event is the last one that was stored.

The payloads of the events are left out except for the names of the workstreams, and so are the
log lines, the delays and the identifier of the resumed cycle that is passed to the commands.
-/

namespace AlpacaTrading

namespace Worker

open Throwing

/-! ## Workstreams -/

/-- `WORKSTREAMS`, without the arguments. -/
def workstreams : List String :=
  ["zero-dte:reconcile", "research:daily", "paper:options:discover", "paper:review",
    "paper:portfolio:review", "paper:ops:review", "hedge:review", "paper:execute:reviewed",
    "zero-dte:engine", "zero-dte:reconcile", "paper:exit:review", "zero-dte:exit:review",
    "hedge:exit:review", "paper:exit:execute", "hedge:exit:execute", "zero-dte:reconcile",
    "paper:order:cancel", "zero-dte:reconcile", "paper:learn", "system:recover"]

/-- `BROKER_MUTATION_WORKSTREAMS`. -/
def brokerMutationWorkstreams : List String :=
  ["paper:execute:reviewed", "zero-dte:engine", "paper:exit:execute", "hedge:exit:execute",
    "paper:order:cancel"]

/-- `INTERNAL_RECONCILIATION_AFTER`. -/
def internalReconciliationAfter : List String := ["paper:execute:reviewed", "paper:exit:execute"]

/-- `RECONCILIATION_WORKSTREAM`. -/
def reconciliationWorkstream : String := "zero-dte:reconcile"

/-- `NON_FATAL_WORKSTREAM_CODES`. -/
def nonFatalWorkstreamCodes : List String :=
  ["WORKSTREAM_BLOCKED", "WORKSTREAM_SKIPPED", "WORKSTREAM_DEFERRED", "WORKSTREAM_NO_ACTION"]

/-- `SERVICE_FATAL_CODES`. -/
def serviceFatalCodes : List String :=
  ["PAPER_RUNTIME_REQUIRED", "LIVE_TRADING_DISABLED_REQUIRED", "POSTGRES_BACKEND_REQUIRED",
    "POSTGRES_READS_REQUIRED", "POSTGRES_WRITES_REQUIRED",
    "POSTGRES_CONTROL_PLANE_AUTHORITY_REQUIRED", "POSTGRES_SCHEDULER_AUTHORITY_REQUIRED",
    "POSTGRES_EXECUTION_STATE_AUTHORITY_REQUIRED", "POSTGRES_SHADOW_COMPARE_DISABLED_REQUIRED",
    "POSTGRES_EXECUTION_STATE_SHADOW_DISABLED_REQUIRED", "SQLITE_AUDIT_MIRROR_DISABLED_REQUIRED",
    "EVIDENCE_UTILIZATION_RUNTIME_AUDIT_REQUIRED", "AUTONOMOUS_WORKER_COMMAND_CONTRACT_INVALID",
    "PAPER_SAFETY_GUARD_FAILED", "WORKSTREAM_COMMAND_REJECTED"]

/-- The classifications of a workstream's end. -/
inductive Classification where
  | runnerUnavailable | timedOut | failed | mutationIndeterminate | success | noAction | blocked
  | skipped | safetyFailure | commandRejected | leaseUnavailable | deferred | postgresFailure
  | postgresUnavailable | laneError
deriving DecidableEq, Repr

/-- The result of a workstream. -/
structure WorkstreamResult where
  classification : Classification
  code : Option String := none
  reasonCode : Option String := none
deriving DecidableEq

/-- `workstreamResultIsFatal`. -/
def workstreamResultIsFatal (result : WorkstreamResult) : Bool :=
  match result.code with
  | some code => code ≠ "" ∧ code ∉ nonFatalWorkstreamCodes
  | none => false

/-- `reconciliationResolved`. -/
def reconciliationResolved (result : WorkstreamResult) : Bool :=
  result.classification = .success ∨ result.classification = .noAction

/-- What `runWorkstream` makes of the classification of a command's output: a fatal end of the
zero-day engine is an error of its lane. -/
def laneResult (script : String) (structuredReasonCode : Option String)
    (result : WorkstreamResult) : WorkstreamResult :=
  if script = "zero-dte:engine" ∧ workstreamResultIsFatal result then
    { classification := .laneError
      reasonCode := structuredReasonCode <|> result.reasonCode <|> result.code }
  else result

/-! ## The environment -/

/-- What happens to a call of the state service. -/
inductive CallFault where
  | none
  /-- The service stores the event if it accepts it, and the worker sees an error. -/
  | unacknowledged (code : String)
  /-- The service stores nothing. -/
  | lost (code : String)
deriving DecidableEq

/-- What the worker's commands meet. -/
structure Environment where
  /-- What happens to a call of the state service. -/
  fault : ℕ → CallFault
  /-- How a workstream ended, and the reason its output names. -/
  result : ℕ → WorkstreamResult × Option String
  /-- A signal arrives while a command runs. -/
  signal : ℕ → Bool
  /-- A signal arrives while the worker waits after a cycle. -/
  signalInDelay : ℕ → Bool

/-- What the worker does. -/
inductive Entry where
  /-- A call of the state service, with its fault. -/
  | call (cycle : ℕ) (eventType : AutonomousWorkerEventType) (accepted : Bool) (fault : CallFault)
  /-- A workstream's command, with its result. -/
  | command (script : String) (result : WorkstreamResult)
deriving DecidableEq

/-- The state of the worker, with the events stored for its cycle. -/
structure WorkerState where
  trace : List Entry := []
  stopRequested : Bool := false
  stored : List (AutonomousWorkerEventType × String) := []
  cycleStartedPersisted : Bool := false
  cycleTerminalPersisted : Bool := false

/-- Whether the state service accepts an event after the last one, each with the name of its
workstream. -/
def accepts {N : Type} [DecidableEq N] (last : Option (AutonomousWorkerEventType × N))
    (eventType : AutonomousWorkerEventType) (name : N) : Bool :=
  allowedTransition (last.map Prod.fst) eventType ∧
    ¬ ((eventType = .workstreamCompleted ∨ eventType = .workstreamFailed) ∧
      ∃ n ∈ last, n.1 = .workstreamStarted ∧ n.2 ≠ name)

/-! ## Commands -/

/-- A part of the worker's program. -/
abbrev WorkerProgram := Throwing String WorkerState

variable (env : Environment)

/-- The state after a call. -/
def WorkerState.called (s : WorkerState) (cycle : ℕ) (eventType : AutonomousWorkerEventType)
    (name : String) : WorkerState :=
  let fault := env.fault s.trace.length
  let accepted := accepts s.stored.getLast? eventType name
  let reached : Bool := match fault with
    | .lost _ => false
    | _ => true
  { s with
    trace := s.trace ++ [.call cycle eventType accepted fault]
    stopRequested := s.stopRequested || env.signal s.trace.length
    stored := if accepted && reached then s.stored ++ [(eventType, name)] else s.stored }

/-- What a call returns. -/
def WorkerState.answer (s : WorkerState) (eventType : AutonomousWorkerEventType) (name : String) :
    Except String Unit :=
  match env.fault s.trace.length with
  | .none =>
    if accepts s.stored.getLast? eventType name then .ok ()
    else .error "AUTONOMOUS_WORKER_STATE_PERSIST_FAILED"
  | .unacknowledged code | .lost code => .error code

/-- `persistState`. -/
def persistState (cycle : ℕ) (eventType : AutonomousWorkerEventType) (name : String := "") :
    WorkerProgram Unit :=
  ExceptT.mk fun s ↦ (s.answer env eventType name, s.called env cycle eventType name)

/-- The result of a workstream's command. -/
def WorkerState.resultOf (s : WorkerState) (script : String) : WorkstreamResult :=
  laneResult script (env.result s.trace.length).2 (env.result s.trace.length).1

/-- The state after it. -/
def WorkerState.after (s : WorkerState) (script : String) : WorkerState :=
  { s with
    trace := s.trace ++ [.command script (s.resultOf env script)]
    stopRequested := s.stopRequested || env.signal s.trace.length }

/-- `runWorkstream`. -/
def runWorkstream (script : String) : WorkerProgram WorkstreamResult :=
  ExceptT.mk fun s ↦ (.ok (s.resultOf env script), s.after env script)

/-! ## A position of the list -/

/-- How a position, a cycle or the worker goes on. -/
inductive Exit where
  /-- The next position. -/
  | next (unresolvedPriorMutation : Bool)
  /-- `break`. -/
  | stopped
  /-- `return`. -/
  | returned
deriving DecidableEq

/-- The result that is given up for a prior mutation. -/
def unresolvedResult : WorkstreamResult where
  classification := .blocked
  code := some "WORKSTREAM_BLOCKED"
  reasonCode := some "UNRESOLVED_PRIOR_MUTATION"

/-- The result of a mutation together with the one of its own reconciliation. -/
def reconciledResult (mutation internal : WorkstreamResult) (skipped : Bool) : WorkstreamResult :=
  if skipped then mutation
  else if workstreamResultIsFatal internal then internal
  else if ¬ reconciliationResolved internal ∧ ¬ workstreamResultIsFatal mutation then
    { mutation with
      classification := .blocked
      code := some "WORKSTREAM_BLOCKED"
      reasonCode := internal.reasonCode <|> internal.code }
  else mutation

/-- `unresolvedPriorMutation` after a position without a reconciliation of its own. -/
def unresolvedAfter (script : String) (result : WorkstreamResult) (unresolved : Bool) : Bool :=
  if script = reconciliationWorkstream then ¬ reconciliationResolved result
  else if script ∈ brokerMutationWorkstreams ∧ result.classification = .blocked ∧
      result.reasonCode ≠ some "UNRESOLVED_PRIOR_MUTATION" then true
  else unresolved

/-- Stores that the worker stops. -/
def stopWorker (cycle : ℕ) : WorkerProgram Exit := do
  persistState env cycle .workerStopped
  return .returned

/-- The end of a position: its result is stored. -/
def settle (cycle : ℕ) (script : String) (result : WorkstreamResult) (unresolved : Bool) :
    WorkerProgram Exit := do
  if (← get).stopRequested then
    stopWorker env cycle
  else if workstreamResultIsFatal result then
    persistState env cycle .workstreamFailed script
    persistState env cycle .cycleFailed
    modify fun s ↦ { s with cycleTerminalPersisted := true }
    throw (result.code.getD "AUTONOMOUS_WORKER_FAILED")
  else
    persistState env cycle .workstreamCompleted script
    return .next unresolved

/-- Whether a position reconciles before the worker goes on. -/
def reconcileBeforeLeavingMutation (script : String) (next : Option String)
    (result : WorkstreamResult) : Bool :=
  script ∈ brokerMutationWorkstreams ∧
    (script ∈ internalReconciliationAfter ∨
      (next = some reconciliationWorkstream ∧ workstreamResultIsFatal result))

/-- The workstream of a position, unless it is given up. -/
def positionResult (script : String) (skipped : Bool) : WorkerProgram WorkstreamResult :=
  if skipped then pure unresolvedResult else runWorkstream env script

/-- The workstream of a position and, for some, a reconciliation. -/
def runPosition (cycle : ℕ) (script : String) (next : Option String) (unresolved : Bool) :
    WorkerProgram Exit := do
  persistState env cycle .workstreamStarted script
  if (← get).stopRequested then
    stopWorker env cycle
  else
    let skipped : Bool := unresolved ∧ script ∈ brokerMutationWorkstreams
    let result ← positionResult env script skipped
    if reconcileBeforeLeavingMutation script next result then
      let internal ← runWorkstream env reconciliationWorkstream
      settle env cycle script (reconciledResult result internal skipped)
        (¬ reconciliationResolved internal)
    else
      settle env cycle script result (unresolvedAfter script result unresolved)

/-- The workstreams of a cycle. -/
def runPositions (cycle : ℕ) : List String → Bool → WorkerProgram Exit
  | [], unresolved => return .next unresolved
  | script :: rest, unresolved => do
    if (← get).stopRequested then
      return .stopped
    else
      match ← runPosition env cycle script rest.head? unresolved with
      | .next unresolved => runPositions cycle rest unresolved
      | exit => return exit

/-! ## Cycles -/

/-- What a cycle does until something fails. -/
def cycleBody (list : List String) (once : Bool) (cycle : ℕ) : WorkerProgram Exit := do
  persistState env cycle .cycleStarted
  modify fun s ↦ { s with cycleStartedPersisted := true }
  let exit ← runPositions env cycle list false
  if exit = .returned then
    return .returned
  else if (← get).stopRequested then
    return .stopped
  else
    persistState env cycle .cycleCompleted
    modify fun s ↦ { s with cycleTerminalPersisted := true }
    if once then stopWorker env cycle else return .next false

/-- Stores that a cycle failed, unless it did not start or has ended. -/
def failCycle (cycle : ℕ) : WorkerProgram Unit := do
  let s ← get
  if s.cycleStartedPersisted ∧ ¬ s.cycleTerminalPersisted then
    tryCatch (do
      persistState env cycle .cycleFailed
      modify fun s ↦ { s with cycleTerminalPersisted := true }) fun _ ↦ pure ()
  else
    return ()

/-- What a cycle does when something failed. -/
def cycleFailure (once : Bool) (cycle : ℕ) (code : String) : WorkerProgram Exit := do
  if code ∈ serviceFatalCodes then
    throw code
  else if (← get).stopRequested then
    return .stopped
  else
    failCycle env cycle
    if once then throw code else return .next false

/-- A cycle. -/
def runCycle (list : List String) (once : Bool) (cycle : ℕ) : WorkerProgram Exit := do
  modify fun s ↦
    { s with cycleStartedPersisted := false, cycleTerminalPersisted := false, stored := [] }
  tryCatch (cycleBody env list once cycle) (cycleFailure env once cycle)

/-- The cycles of the worker, up to a number of them, and its stop. -/
def runCycles (list : List String) (once : Bool) : ℕ → ℕ → WorkerProgram Unit
  | 0, _ => return ()
  | fuel + 1, cycle => do
    if (← get).stopRequested then
      tryCatch (persistState env (max 1 cycle) .workerStopped) fun _ ↦ pure ()
    else
      let exit ← runCycle env list once (cycle + 1)
      if exit = .returned then
        return ()
      else
        modify fun s ↦ { s with stopRequested := s.stopRequested || env.signalInDelay (cycle + 1) }
        runCycles list once fuel (cycle + 1)

/-- `main`, after the checks of the run time, for a number of cycles. -/
def main (list : List String) (once contractValid : Bool) (cycles : ℕ) : WorkerProgram Unit := do
  if contractValid then
    runCycles env list once cycles 0
  else
    tryCatch (persistState env 1 .preflightFailed) fun _ ↦ pure ()
    throw "AUTONOMOUS_WORKER_COMMAND_CONTRACT_INVALID"

end Worker

end AlpacaTrading
