import AlpacaTrading.Identity.Redaction
import AlpacaTrading.Lib.Run
import AlpacaTrading.Learning.OutcomeRecord
import AlpacaTrading.Store.Schema

/-!
# The state of the autonomous worker

The worker writes an event for everything that happens in a cycle, and the state service decides
whether the event may follow the ones that are stored: `persistAutonomousWorkerStateWithClient`.

## What is modelled

A call is one serializable transaction, so the calls of several workers take effect one after the
other; `now` is the time at which its transaction began and `clock` the time at which its fence is
read, and nothing is assumed about how either moves between two calls.  The events are the rows of
`workstream_events` with workstream `autonomous_worker`.

The identifiers are hashes of the canonical text of an event, and the class `WorkerIds` says of them
that two events with one identifier are of the same cycle, type and time.  The identifier of a
failure row is derived from that of its event and left out, and so is the fingerprint of the
payload.
-/

namespace AlpacaTrading

namespace Worker

open Redaction

/-! ## Events -/

/-- `AutonomousWorkerEventType`. -/
inductive AutonomousWorkerEventType where
  | preflightFailed | cycleStarted | workstreamStarted | workstreamCompleted | workstreamFailed
  | cycleCompleted | cycleFailed | workerStopped
deriving DecidableEq, Repr

namespace AutonomousWorkerEventType

/-- `startsWith("workstream_")`. -/
def isWorkstream : AutonomousWorkerEventType → Bool
  | .workstreamStarted | .workstreamCompleted | .workstreamFailed => true
  | _ => false

/-- `endsWith("_failed")`. -/
def isFailed : AutonomousWorkerEventType → Bool
  | .preflightFailed | .workstreamFailed | .cycleFailed => true
  | _ => false

/-- The types after which a cycle is not active. -/
def isTerminal : AutonomousWorkerEventType → Bool
  | .cycleCompleted | .cycleFailed | .workerStopped => true
  | _ => false

end AutonomousWorkerEventType

/-- The members of an event's payload. -/
abbrev Payload := List (JsString × Json)

/-- A string member of an object. -/
def textMember (name : String) (payload : Payload) : Option JsString :=
  match (payload.find? fun e ↦ e.1 = JsString.ofAscii name).map Prod.snd with
  | some (.string s) => some s
  | _ => none

/-- The white space and line terminators removed by `trim`. -/
def isSpaceUnit (c : CodeUnit) : Bool :=
  c ∈ ([0x09, 0x0A, 0x0B, 0x0C, 0x0D, 0x20, 0xA0, 0x1680, 0x2028, 0x2029, 0x202F, 0x205F, 0x3000,
    0xFEFF] : List CodeUnit) || (0x2000 ≤ c && c ≤ 0x200A)

/-- `String.prototype.trim`. -/
def trim (s : JsString) : JsString :=
  ((s.dropWhile isSpaceUnit).reverse.dropWhile isSpaceUnit).reverse

/-- `boundedText`, of a member that is a string. -/
def boundedText (value : Option JsString) (fallback : String) (max : ℕ) : JsString :=
  let text := trim (value.getD [])
  (if text = [] then JsString.ofAscii fallback else text).take max

/-- `CYCLE_ID`. -/
def validCycleId (cycleId : String) : Bool :=
  let cs := cycleId.toList.map Char.toLower
  let hex : Char → Bool := fun c ↦ ('0' ≤ c ∧ c ≤ '9') ∨ ('a' ≤ c ∧ c ≤ 'f')
  cs.length = 36 ∧
    (List.range 36).all fun i ↦
      let c := cs.getD i ' '
      if i ∈ [8, 13, 18, 23] then c = '-'
      else if i = 14 then '1' ≤ c ∧ c ≤ '5'
      else if i = 19 then c ∈ ['8', '9', 'a', 'b']
      else hex c

/-! ## Rows -/

/-- What the identifier of an event is derived from. -/
structure EventKey where
  cycleId : String
  eventType : AutonomousWorkerEventType
  occurredAt : Time
  payload : Json

/-- `stableRecordId` of an event's canonical text. -/
class WorkerIds where
  eventId : EventKey → String
  /-- No two events of different cycles, types or times share an identifier. -/
  eventId_inj : ∀ {a b}, eventId a = eventId b →
    a.cycleId = b.cycleId ∧ a.eventType = b.eventType ∧ a.occurredAt = b.occurredAt

/-- A row of `workstream_events`. -/
structure WorkerEvent where
  eventId : String
  eventType : AutonomousWorkerEventType
  entityId : String
  occurredAt : Time
  payload : Json

instance : Row WorkerEvent String where
  key := (·.eventId)
  clash a b := a.eventId = b.eventId
  dec _ _ := inferInstanceAs (Decidable (_ = _))
  symm h := h.symm
  clash_of_key h := h

/-- A row of `workstream_event_failures`, with `attempt_number` one. -/
structure WorkerFailure where
  eventId : String
  errorClassification : JsString
  errorCode : JsString
  redactedErrorMessage : JsString
  failedAt : Time
  details : Json

instance : Row WorkerFailure String where
  key := (·.eventId)
  clash a b := a.eventId = b.eventId
  dec _ _ := inferInstanceAs (Decidable (_ = _))
  symm h := h.symm
  clash_of_key h := h

/-- The tables the state service uses. -/
structure WorkerDb where
  events : Table WorkerEvent := .empty
  failures : Table WorkerFailure := .empty
  leases : Table Lease := .empty

/-- `INSERT … ON CONFLICT DO NOTHING`, with `rowCount === 1`. -/
def insertOnce {ρ κ : Type*} [Row ρ κ] (t : Table ρ) (r : ρ) : Table ρ × Bool :=
  match t.insert? r with
  | some t' => (t', true)
  | none => (t, false)

/-! ## The transaction -/

/-- `AutonomousWorkerStateInput`. -/
structure AutonomousWorkerStateInput where
  cycleId : String
  eventType : AutonomousWorkerEventType
  payload : Payload
  occurredAt : String

/-- What the transaction returns. -/
structure PersistResult where
  eventId : String
  replayed : Bool := false
  resumedCycleId : Option String := none
deriving DecidableEq

/-- Six hours. -/
def activeCycleWindow : Time := 6 * 60 * 60 * 1000

/-- `asJsonPayload`: parsing leaves a JSON value as it is. -/
def asJsonPayload [TextRedaction] (payload : Payload) : Json := redactSensitiveData (.object payload)

/-- `payload->>'workstream'`, for the rows of type `workstream_started`, where it is a string. -/
def WorkerEvent.workstream (e : WorkerEvent) : Option JsString :=
  match e.payload with
  | .object es => textMember "workstream" es
  | _ => none

/-- `ORDER BY occurred_at DESC, event_id DESC`. -/
def WorkerEvent.supersedes (a b : WorkerEvent) : Bool :=
  b.occurredAt < a.occurredAt ∨ (a.occurredAt = b.occurredAt ∧ b.eventId < a.eventId)

/-- `allowedTransition`. -/
def allowedTransition (previous : Option AutonomousWorkerEventType)
    (next : AutonomousWorkerEventType) : Bool :=
  match previous with
  | none => next = .cycleStarted ∨ next = .preflightFailed
  | some previous =>
    if previous = .preflightFailed ∨ previous = .workerStopped then false
    else if next = .workerStopped then true
    else match previous with
      | .cycleStarted => next = .workstreamStarted ∨ next = .cycleFailed
      | .workstreamStarted =>
        next = .workstreamCompleted ∨ next = .workstreamFailed ∨ next = .cycleFailed
      | .workstreamCompleted =>
        next = .workstreamStarted ∨ next = .cycleCompleted ∨ next = .cycleFailed
      | .workstreamFailed => next = .cycleFailed
      | _ => false

/-- Whether the fence of a call is current. -/
def fenceCurrent (leases : Table Lease) (fence : SchedulerFence) (clock : Time) : Bool :=
  leases.rows.any fun lease ↦
    lease.jobName = fence.jobName ∧ lease.workstream = fence.workstream ∧
    lease.ownerId = fence.ownerId ∧ lease.runId = fence.runId ∧
    lease.fencingToken = fence.fencingToken ∧ lease.status = .held ∧ clock < lease.expiresAt

namespace WorkerDb

/-- Whether a cycle has a terminal event. -/
def hasTerminal (db : WorkerDb) (cycleId : String) : Bool :=
  db.events.rows.any fun e ↦ e.entityId = cycleId ∧ e.eventType.isTerminal

/-- The starts of the cycles that are active in the window before a time. -/
def activeStarts (db : WorkerDb) (now : Time) : List WorkerEvent :=
  db.events.rows.filter fun e ↦
    e.eventType = .cycleStarted ∧ now - activeCycleWindow ≤ e.occurredAt ∧
      ¬ db.hasTerminal e.entityId

/-- The orphan of a cycle that starts. -/
def orphanedCycleId (db : WorkerDb) (now : Time) (cycleId : String) : Option String :=
  (firstBy (fun a b ↦ b.occurredAt < a.occurredAt)
    ((db.activeStarts now).filter fun e ↦ e.entityId ≠ cycleId)).map (·.entityId)

/-- The last event of a cycle. -/
def previous (db : WorkerDb) (cycleId : String) : Option WorkerEvent :=
  firstBy WorkerEvent.supersedes (db.events.rows.filter fun e ↦ e.entityId = cycleId)

end WorkerDb

section

variable [WorkerIds] [TextRedaction]

open WorkerIds

/-- The payload of the event that closes an orphan. -/
def orphanPayload (replacementCycleId : JsString) : Json :=
  asJsonPayload
    [(JsString.ofAscii "code", .string (JsString.ofAscii "AUTONOMOUS_CYCLE_ORPHANED_ON_RESTART")),
      (JsString.ofAscii "message", .string (JsString.ofAscii
        "A nonterminal autonomous cycle was closed before its replacement started.")),
      (JsString.ofAscii "replacementCycleId", .string replacementCycleId)]

/-- An event as it is stored. -/
def EventKey.row (key : EventKey) : WorkerEvent where
  eventId := eventId key
  eventType := key.eventType
  entityId := key.cycleId
  occurredAt := key.occurredAt
  payload := key.payload

/-- The event that closes an orphan. -/
def closingKey (orphan replacement : String) (occurredAt : Time) : EventKey :=
  ⟨orphan, .cycleFailed, occurredAt, orphanPayload (JsString.ofAscii replacement)⟩

/-- The failure of that event. -/
def orphanFailure (event : WorkerEvent) : WorkerFailure where
  eventId := event.eventId
  errorClassification := JsString.ofAscii "autonomous_worker_restart"
  errorCode := JsString.ofAscii "AUTONOMOUS_CYCLE_ORPHANED_ON_RESTART"
  redactedErrorMessage :=
    JsString.ofAscii "A nonterminal autonomous cycle was closed before restart."
  failedAt := event.occurredAt
  details := event.payload

/-- Stores the event that closes an orphan, and its failure if the event is new. -/
def closeOrphan (db : WorkerDb) (orphan replacement : String) (occurredAt : Time) : WorkerDb :=
  let event := (closingKey orphan replacement occurredAt).row
  { db with
    events := (insertOnce db.events event).1
    failures :=
      if (insertOnce db.events event).2 then (insertOnce db.failures (orphanFailure event)).1
      else db.failures }

/-- The failure of an event. -/
def failureRow (input : AutonomousWorkerStateInput) (event : WorkerEvent) : WorkerFailure where
  eventId := event.eventId
  errorClassification :=
    boundedText (textMember "classification" input.payload) "autonomous_worker_failure" 120
  errorCode := boundedText (textMember "code" input.payload) "AUTONOMOUS_WORKER_FAILED" 160
  redactedErrorMessage :=
    boundedText (textMember "message" input.payload) "Autonomous worker event failed." 500
  failedAt := event.occurredAt
  details := event.payload

/-- Stores an event, with its failure if it is one. -/
def storeEvent (db : WorkerDb) (input : AutonomousWorkerStateInput) (event : WorkerEvent) :
    WorkerDb :=
  { db with
    events := (insertOnce db.events event).1
    failures :=
      if event.eventType.isFailed then (insertOnce db.failures (failureRow input event)).1
      else db.failures }

/-- `workstreamName`. -/
def AutonomousWorkerStateInput.workstreamName (input : AutonomousWorkerStateInput) : JsString :=
  trim ((textMember "workstream" input.payload).getD [])

/-- The checks before a new event is stored. -/
def checkTransition (db : WorkerDb) (input : AutonomousWorkerStateInput) :
    Except String Unit := do
  let previous := db.previous input.cycleId
  require (allowedTransition (previous.map (·.eventType)) input.eventType)
    "AUTONOMOUS_WORKER_STATE_TRANSITION_INVALID"
  require
    (¬ ((input.eventType = .workstreamCompleted ∨ input.eventType = .workstreamFailed) ∧
      previous.map (·.eventType) = some .workstreamStarted ∧
      previous.bind (·.workstream) ≠ some input.workstreamName))
    "AUTONOMOUS_WORKER_WORKSTREAM_IDENTITY_MISMATCH"

/-- `eventKey`. -/
def AutonomousWorkerStateInput.key (input : AutonomousWorkerStateInput) (occurredAt : Time) :
    EventKey :=
  ⟨input.cycleId, input.eventType, occurredAt, asJsonPayload input.payload⟩

/-- The cycle that a call closes. -/
def WorkerDb.resumed (db : WorkerDb) (now : Time) (input : AutonomousWorkerStateInput) :
    Option String :=
  if input.eventType = .cycleStarted then db.orphanedCycleId now input.cycleId else none

/-- The tables after the orphan, if there is one, is closed. -/
def WorkerDb.withoutOrphan (db : WorkerDb) (now : Time) (input : AutonomousWorkerStateInput)
    (occurredAt : Time) : WorkerDb :=
  (db.resumed now input).elim db fun orphan ↦ closeOrphan db orphan input.cycleId occurredAt

/-- `persistAutonomousWorkerStateWithClient`. -/
def persistAutonomousWorkerStateWithClient [Locale] (db : WorkerDb) (now clock : Time)
    (input : AutonomousWorkerStateInput) (fence : Option SchedulerFence) :
    Except String (PersistResult × WorkerDb) := do
  require (validCycleId input.cycleId) "AUTONOMOUS_WORKER_CYCLE_ID_INVALID"
  let occurredAt ← (Locale.dateParse input.occurredAt).elim
    (.error "AUTONOMOUS_WORKER_EVENT_TIME_INVALID") .ok
  require (fence.all fun fence ↦ fenceCurrent db.leases fence clock) "SCHEDULER_FENCE_LOST"
  require (¬ (input.eventType.isWorkstream ∧ input.workstreamName = []))
    "AUTONOMOUS_WORKER_WORKSTREAM_IDENTITY_REQUIRED"
  let event := (input.key occurredAt).row
  if db.events.rows.any fun e ↦ e.eventId = event.eventId then
    return ({ eventId := event.eventId, replayed := true }, db)
  else
    let closed := db.withoutOrphan now input occurredAt
    checkTransition closed input
    return ({ eventId := event.eventId, resumedCycleId := db.resumed now input },
      storeEvent closed input event)

end

/-! ## Runs -/

/-- What happens to the tables. -/
inductive WorkerAct where
  /-- A call of the state service, which leaves the tables as they are when it fails. -/
  | persist (now clock : Time) (input : AutonomousWorkerStateInput) (fence : Option SchedulerFence)
  /-- The scheduler writes its leases. -/
  | leases (leases : Table Lease)

section

variable [WorkerIds] [TextRedaction] [Locale]

/-- One action. -/
def WorkerDb.step (db : WorkerDb) : WorkerAct → WorkerDb
  | .persist now clock input fence =>
    match persistAutonomousWorkerStateWithClient db now clock input fence with
    | .ok (_, db') => db'
    | .error _ => db
  | .leases leases => { db with leases }

/-- A run. -/
def WorkerDb.run (db : WorkerDb) (acts : List WorkerAct) : WorkerDb := acts.foldl WorkerDb.step db

end

end Worker

end AlpacaTrading
