import Mathlib.Algebra.Order.Floor.Ring
import Mathlib.Data.List.Sort
import Mathlib.Data.Rat.Floor
import AlpacaTrading.ZeroDte.Lifecycle

/-!
# Candidates of the zero-DTE engine

`upsertZeroDteCandidate` writes the row of a candidate and the events of its state changes, in one
transaction.  `persistEvaluation` is its caller in the engine: it reads the stored state and the
earlier scores, summarizes them, and chooses the next state.

The two read the stored row on their own, and check it against different sets of states.

## Transactions

A write is an upsert or an evaluation.  A transaction is a list of writes that is applied as a
whole or not at all: the engine persists all evaluations of a run in one, and a call on its own is
one of a single write.
-/

namespace AlpacaTrading

namespace ZeroDte

/-! ## Identity -/

def normalizeSymbol (value : String) : String := Text.toUpperCase (Text.trim value)

/-- `validateCandidateIdentity`. -/
def validateCandidateIdentity (i : CandidateIdentity) : Except Error CandidateIdentity := do
  let tradingDate ← requiredText i.tradingDate "trading date"
  let underlying ← requiredText i.underlyingSymbol "underlying symbol"
  let option ← requiredText i.optionSymbol "option symbol"
  let expirationDate ← requiredText i.expirationDate "expiration date"
  return { i with
    tradingDate
    underlyingSymbol := normalizeSymbol underlying
    optionSymbol := normalizeSymbol option
    expirationDate }

section Digests

variable [Hashing] [Runtime]

/-- `String(value)` of a number. -/
def numberString (x : ℚ) : String :=
  String.ofList ((Decimal.numberText (Runtime.decimal x)).map fun c ↦ Char.ofNat c.toNat)

/-- `buildZeroDteCandidateId`. -/
def buildZeroDteCandidateId (i : CandidateIdentity) : String :=
  "zdt_" ++ Hashing.canonicalJsonHash
    [("tradingDate", Text.trim i.tradingDate), ("underlying", normalizeSymbol i.underlyingSymbol),
      ("optionSymbol", normalizeSymbol i.optionSymbol), ("playbook", i.playbook.text),
      ("direction", i.direction.text), ("expirationDate", Text.trim i.expirationDate),
      ("strike", numberString i.strike)]

/-- The identifier of the event of a run: the first forty digits of a hash. -/
def runEventId (engineRunId candidateId : String) (eventType : EventType) : String :=
  "zlev_" ++ String.ofList ((Hashing.canonicalJsonHash
    [("engineRunId", engineRunId), ("candidateId", candidateId),
      ("eventType", eventType.text)]).toList.take 40)

end Digests

/-! ## States -/

/-- `REAPPEARANCE_STATES`. -/
def reappearanceStates : List CandidateState := [.weakening, .expired, .invalidated]

/-- `TERMINAL_QUEUE_STATES`. -/
def terminalQueueStates : List CandidateState :=
  [.closed, .expired, .invalidated, .rejected, .skipped]

def stateEventType : CandidateState → EventType
  | .discovered => .candidateDiscovered
  | .strengthening => .candidateStrengthened
  | .weakening => .candidateWeakened
  | .eligible => .candidateBecameEligible
  | .selected => .candidateSelected
  | .skipped => .candidateSkipped
  | .rejected => .candidateRejected
  | .expired => .candidateExpired
  | .invalidated => .candidateInvalidated
  | .watching | .stable | .executed | .shadowed | .closed => .candidateObserved

/-! ## The input -/

/-- `ZeroDteLifecycleContext`. -/
structure LifecycleContext where
  engineRunId : Option String := none
  decisionId : Option String := none
  decisionGroupId : Option String := none
  accountMode : String
  strategyVersion : String
  configurationVersionId : String
  marketTimestamp : Option String := none
  occurredAt : Option String := none

/-- `ZeroDteCandidateUpsert`. -/
structure CandidateUpsert where
  candidateId : Option String := none
  identity : CandidateIdentity
  state : CandidateState
  measures : Measure → Option JsNumber := fun _ ↦ none
  marketTimestamp : Option String := none
  firstSeenAt : Option String := none
  lastSeenAt : Option String := none
  stateChangedAt : Option String := none
  stateReasonCode : Option String := none
  stateReason : Option Json := none
  blockerCodes : List JsString := []
  reappeared : Bool := false
  lifecycleContext : Option LifecycleContext := none
  createdAt : Option String := none
  updatedAt : Option String := none

/-- What a call finds around it: the time, the identifiers `uuid` would draw, and whether the fence
of the scheduler is active when the transaction begins, at its events and before it commits. -/
structure Surroundings where
  now : Time
  reappearedUuid : String
  stateUuid : String
  fenceAtBegin : Bool := true
  fenceAtEvents : Bool := true
  fenceAtCommit : Bool := true

/-- `assertScheduledWriteFenceActive`. -/
def assertFence (active : Bool) : Except Error Unit :=
  check active (.message "PostgreSQL scheduler fence is no longer active.")

/-! ## Measures -/

/-- `finiteOrNull` and `integerOrNull`. -/
def measured (m : Measure) : Option JsNumber → Except Error (Option ℚ)
  | none => .ok none
  | some .notFinite => .error (.message ("0DTE " ++ m.label ++ " must be finite"))
  | some (.finite x) =>
    if m.isInteger ∧ x.den ≠ 1 then .error (.message ("0DTE " ++ m.label ++ " must be an integer"))
    else .ok (some x)

/-- All measures, checked one after the other. -/
def measures (given : Measure → Option JsNumber) : Except Error (Measure → Option ℚ) := do
  Measure.all.forM fun m ↦ (measured m (given m)).map fun _ ↦ ()
  return fun m ↦ (given m).bind JsNumber.value

/-! ## The upsert -/

section Upsert

open JsString

variable [Hashing] [Runtime]

def stateJson (s : CandidateState) : Json := .string (ofAscii s.text)

def numberJson (x : ℚ) : Json := .number (Runtime.decimal x)

/-- A value or `null`. -/
def orNull {α : Type} (f : α → Json) : Option α → Json
  | none => .null
  | some a => f a

/-- The details of the events of an upsert. -/
def changeDetails (previousState : Option CandidateState) (currentState : CandidateState)
    (previousScore currentScore : Option ℚ) (reappearanceCount : ℕ) (stateReason : Json) : Json :=
  .object
    [(ofAscii "previousState", orNull stateJson previousState),
      (ofAscii "currentState", stateJson currentState),
      (ofAscii "previousScore", orNull numberJson previousScore),
      (ofAscii "currentScore", orNull numberJson currentScore),
      (ofAscii "reappearanceCount", numberJson reappearanceCount),
      (ofAscii "stateReason", stateReason)]

/-- `stateReason ?? {}`. -/
def reasonJson : Option Json → Json
  | none | some .null => .object []
  | some v => v

/-- The three checks of a transition. -/
def checkTransition (existing : Option CandidateRow) (input : CandidateUpsert) :
    Except Error Unit := do
  let previousState := existing.map (·.state)
  let validReappearance := previousState.any fun p ↦
    reappearanceStates.contains p && p != input.state && !terminalQueueStates.contains input.state
  check (!input.reappeared || validReappearance) (.transition .reappearanceTransitionRequired)
  check (!(previousState.any fun p ↦
      terminalQueueStates.contains p && p != input.state && !input.reappeared))
    (.transition .terminalCandidateReappearanceRequired)

/-- The event of a state change, or of a reappearance. -/
def changeEvent (input : CandidateUpsert) (context : LifecycleContext) (candidateId : String)
    (eventType : EventType) (uuid : String) (reasonCode : Option String) (stateChangedAt : String)
    (details : Json) : EventInput where
  eventId := match givenText context.engineRunId with
    | some run => runEventId run candidateId eventType
    | none => uuid
  eventType
  reasonCode
  engineRunId := context.engineRunId
  candidateId := some candidateId
  decisionId := context.decisionId
  decisionGroupId := context.decisionGroupId
  accountMode := context.accountMode
  strategyVersion := context.strategyVersion
  configurationVersionId := context.configurationVersionId
  marketTimestamp := input.marketTimestamp.or context.marketTimestamp
  occurredAt := some (context.occurredAt.getD stateChangedAt)
  details

/-- The update of a stored row, which keeps its identifier and its first times. -/
def mergeCandidate (row stored : CandidateRow) : CandidateRow :=
  { row with
    candidateId := stored.candidateId
    identity := stored.identity
    firstSeenAt := stored.firstSeenAt
    createdAt := stored.createdAt }

/-- `INSERT … ON CONFLICT(…) DO UPDATE` of a candidate, the conflict being one of identity. -/
def writeCandidate (db : Db) (row : CandidateRow) : Except Error Db :=
  if db.candidates.rows.any (·.identity = row.identity) then
    .ok { db with
      candidates := db.candidates.update (·.identity = row.identity) (mergeCandidate row) }
  else
    match db.candidates.insert? row with
    | none => .error (.message "UNIQUE constraint failed: zero_dte_candidates.candidate_id")
    | some candidates => .ok { db with candidates }

/-- The events of an upsert: the reappearance first, then the new state. -/
def appendChangeEvents (db : Db) (env : Surroundings) (input : CandidateUpsert)
    (existing : Option CandidateRow) (candidateId : String) (stateChangedAt : String)
    (details : Json) : Except Error Db :=
  match input.lifecycleContext with
  | none => .ok db
  | some context => do
    let stateChanged := existing.map (·.state) != some input.state
    let db ← (if input.reappeared then
        insertZeroDteLifecycleEventRow db env.now env.fenceAtEvents
          (changeEvent input context candidateId .candidateReappeared env.reappearedUuid
            (some ((optionalText input.stateReasonCode).getD "CANDIDATE_REAPPEARED"))
            stateChangedAt details)
      else .ok db)
    if stateChanged then
      insertZeroDteLifecycleEventRow db env.now env.fenceAtEvents
        (changeEvent input context candidateId
          (if existing.isSome then stateEventType input.state else .candidateDiscovered)
          env.stateUuid
          ((optionalText input.stateReasonCode).or
            (if input.reappeared then some "CANDIDATE_REAPPEARED" else none))
          stateChangedAt details)
    else .ok db

/-- `upsertZeroDteCandidate` inside its transaction. -/
def upsertBody (db : Db) (env : Surroundings) (input : CandidateUpsert)
    (identity : CandidateIdentity) : Except Error Db := do
  let existing := db.candidates.rows.find? fun r ↦ r.identity = identity
  let canonicalCandidateId := buildZeroDteCandidateId identity
  check ((givenText input.candidateId).all (· == canonicalCandidateId))
    (.message "0DTE candidate ID does not match canonical identity")
  check (existing.all (·.candidateId == canonicalCandidateId))
    (.message "0DTE persisted candidate ID does not match canonical identity")
  let candidateId :=
    (existing.map (·.candidateId)).getD (input.candidateId.getD canonicalCandidateId)
  checkTransition existing input
  let stateChanged := existing.map (·.state) != some input.state
  let reappearanceCount :=
    (existing.map (·.reappearanceCount)).getD 0 + if input.reappeared then 1 else 0
  let lastSeenAt ← isoTimestamp env.now input.lastSeenAt "last seen timestamp"
  let firstSeenAt ← (match existing with
    | some e => .ok e.firstSeenAt
    | none => isoTimestamp env.now (input.firstSeenAt.or input.lastSeenAt) "first seen timestamp")
  let stateChangedAt ← (if stateChanged then
      isoTimestamp env.now (input.stateChangedAt.or input.lastSeenAt) "state changed timestamp"
    else .ok ((existing.map (·.stateChangedAt)).getD lastSeenAt))
  let createdAt ← (match existing with
    | some e => .ok e.createdAt
    | none => isoTimestamp env.now (some (input.createdAt.getD lastSeenAt)) "created timestamp")
  let updatedAt ←
    isoTimestamp env.now (some (input.updatedAt.getD lastSeenAt)) "updated timestamp"
  check (!(stateChanged || input.reappeared) || input.lifecycleContext.isSome)
    (.transition .lifecycleContextRequiredForStateChange)
  let numeric ← measures input.measures
  let marketTimestamp ← optionalIsoTimestamp env.now input.marketTimestamp "market timestamp"
  let db ← writeCandidate db
    { candidateId, identity, state := input.state, measures := numeric,
      marketTimestamp, firstSeenAt, lastSeenAt, stateChangedAt,
      stateReasonCode := optionalText input.stateReasonCode,
      stateReason := serializeZeroDteJson (reasonJson input.stateReason) (.object []),
      reappearanceCount,
      blockerCodes := serializeZeroDteJson (.array (input.blockerCodes.map .string)) (.array []),
      createdAt, updatedAt }
  appendChangeEvents db env input existing candidateId stateChangedAt
    (changeDetails (existing.map (·.state)) input.state (existing.bind (·.measures .score))
      (numeric .score) reappearanceCount (reasonJson input.stateReason))

/-- `upsertZeroDteCandidate` up to its commit. -/
def upsertCandidate (db : Db) (env : Surroundings) (input : CandidateUpsert) :
    Except Error Db := do
  let identity ← validateCandidateIdentity input.identity
  assertFence env.fenceAtBegin
  let db ← upsertBody db env input identity
  assertFence env.fenceAtCommit
  return db

end Upsert

/-! ## The signal -/

/-- The settings of the signal. -/
structure SignalConfig where
  minScoreMovement : JsNumber
  minConfirmationObservations : JsNumber
  signalShortWindow : JsNumber
  signalMediumWindow : JsNumber

/-- `ZeroDteSignalSummary`, without the slopes and durations. -/
structure SignalSummary where
  scoreChange : Option ℚ
  observationCount : ℕ
  state : CandidateState
  reappeared : Bool

section Signal

variable [Runtime]

/-- `parseObservation`: the time and the score. -/
def parseObservation : String × JsNumber → Except Error (Time × ℚ)
  | (_, .notFinite) => .error (.message "0DTE signal scores must be finite")
  | (observedAt, .finite score) =>
    match Runtime.dateParse observedAt with
    | none => .error (.message "0DTE signal observations require valid timestamps")
    | some t => .ok (t, score)

/-- A setting that must be finite and meet a condition. -/
def settingOf (value : JsNumber) (ok : ℚ → Bool) (text : String) : Except Error ℚ :=
  match value with
  | .finite x => if ok x then .ok x else .error (.message text)
  | .notFinite => .error (.message text)

/-- `normalizeWindow`. -/
def normalizeWindow (value : JsNumber) : Except Error ℚ :=
  settingOf value (fun w ↦ w.den = 1 && 2 ≤ w)
    "0DTE signal windows must be integers of at least two observations"

/-- `classifyState`. -/
def classifyState (observationCount : ℕ) (requiredObservations : ℤ) (scoreChange : Option ℚ)
    (minimumMovement : ℚ) : CandidateState :=
  if observationCount = 0 then .discovered
  else if (observationCount : ℤ) < requiredObservations then .watching
  else
    match scoreChange with
    | none => .watching
    | some change =>
      if minimumMovement ≤ change then .strengthening
      else if change ≤ -minimumMovement then .weakening
      else .stable

/-- The change between the last two scores. -/
def scoreChange (ordered : List (Time × ℚ)) : Option ℚ :=
  match ordered.reverse with
  | latest :: previous :: _ => some (latest.2 - previous.2)
  | _ => none

/-- `summarizeZeroDteSignal`. -/
def summarizeZeroDteSignal (scores : List (String × JsNumber))
    (previousState : Option CandidateState) (config : SignalConfig) :
    Except Error SignalSummary := do
  let minimumMovement ← settingOf config.minScoreMovement (0 < ·)
    "0DTE minimum movement must be a finite positive number"
  let minimumConfirmation ← settingOf config.minConfirmationObservations (0 ≤ ·)
    "0DTE confirmation observations must be non-negative"
  let parsed ← scores.mapM parseObservation
  let ordered := parsed.insertionSort fun l r ↦ l.1 ≤ r.1
  let _ ← normalizeWindow config.signalShortWindow
  let _ ← normalizeWindow config.signalMediumWindow
  let change := scoreChange ordered
  return {
    scoreChange := change
    observationCount := ordered.length
    state := classifyState ordered.length (max 2 ⌈minimumConfirmation⌉) change minimumMovement
    reappeared := 0 < ordered.length && previousState.any reappearanceStates.contains }

end Signal

/-! ## The evaluation -/

/-- What the engine evaluates: the identity of the candidate, the market data and the verdict of
the playbook.  The measures, the slopes of the signal among them, and the blockers are passed on
as they are. -/
structure Evaluation where
  identity : CandidateIdentity
  asOf : String
  quoteTimestamp : Option String := none
  status : JsString
  score : JsNumber
  confidence : JsNumber
  eligible : Bool
  blockers : List String := []
  missingInputs : List JsString := []
  blockerCodes : List JsString := []
  measures : Measure → Option JsNumber := fun _ ↦ none

/-- The run the engine evaluates in. -/
structure EngineRun where
  engineRunId : String
  accountMode : String
  strategyVersion : String
  configurationVersionId : String
  signal : SignalConfig

/-- The state that is persisted: that of the signal, unless the stored one is preserved or final. -/
def nextState (previousState : Option CandidateState) (evaluated : CandidateState)
    (reappeared : Bool) : CandidateState :=
  match previousState with
  | none => evaluated
  | some p =>
    let state := if [.selected, .executed, .closed].contains p then p else evaluated
    if [.skipped, .rejected, .closed].contains p && state != p && !reappeared then p else state

/-- The state of the signal, or that the candidate is eligible. -/
def evaluatedState (run : EngineRun) (e : Evaluation) (signal : SignalSummary) : CandidateState :=
  let confirmationReady := match run.signal.minConfirmationObservations with
    | .finite m => decide (max 1 m ≤ signal.observationCount)
    | .notFinite => false
  if e.eligible && confirmationReady then .eligible else signal.state

section Evaluate

open JsString

variable [Hashing] [Runtime]

/-- `priorScores`: a missing score counts as zero. -/
def priorScores (db : Db) (candidateId : String) : List (String × JsNumber) :=
  ((db.observations.rows.filter (·.candidateId = candidateId)).insertionSort fun a b ↦
      a.observedAt < b.observedAt ∨
        (a.observedAt = b.observedAt ∧ a.observationId ≤ b.observationId)).map
    fun o ↦ (o.observedAt, .finite (o.totalScore.getD 0))

/-- The identifier of a row of a run: the first forty digits of a hash. -/
def runRowId (pre : String) (fields : List (String × String)) : String :=
  pre ++ String.ofList ((Hashing.canonicalJsonHash fields).toList.take 40)

/-- `appendZeroDteCandidateObservation`, of the columns that are read again. -/
def appendObservation (db : Db) (env : Surroundings) (row : ObservationRow) : Except Error Db := do
  let candidateId ← requiredText row.candidateId "candidate ID"
  let engineRunId ← requiredText row.engineRunId "engine run ID"
  let observedAt ← isoTimestamp env.now (some row.observedAt) "observation timestamp"
  assertFence env.fenceAtEvents
  let observationId ← requiredText row.observationId "observation ID"
  check ((db.candidates.get? candidateId).isSome && db.engineRuns.contains engineRunId)
    (.message "FOREIGN KEY constraint failed")
  match db.observations.insert? { row with observationId, candidateId, engineRunId, observedAt } with
  | none => .error (.message "UNIQUE constraint failed: observation_id")
  | some observations => return { db with observations }

/-- `insertZeroDtePlaybookEvaluation`, which does nothing if the run has evaluated the playbook. -/
def insertEvaluation (db : Db) (env : Surroundings) (score confidence : JsNumber)
    (evaluatedAt : String) (row : EvaluationRow) : Except Error Db := do
  check (score != .notFinite && confidence != .notFinite)
    (.message "0DTE playbook score and confidence must be finite")
  let candidateId ← requiredText row.candidateId "candidate ID"
  let engineRunId ← requiredText row.engineRunId "engine run ID"
  let _ ← isoTimestamp env.now (some evaluatedAt) "evaluation timestamp"
  assertFence env.fenceAtEvents
  let evaluationId ← requiredText row.evaluationId "evaluation ID"
  if db.evaluations.rows.any fun r ↦ r.candidateId = candidateId ∧ r.engineRunId = engineRunId ∧
      r.playbook = row.playbook then .ok db
  else do
    check ((db.candidates.get? candidateId).isSome && db.engineRuns.contains engineRunId)
      (.message "FOREIGN KEY constraint failed")
    match db.evaluations.insert? { row with evaluationId, candidateId, engineRunId } with
    | none => .error (.message "UNIQUE constraint failed: evaluation_id")
    | some evaluations => return { db with evaluations }

/-- The upsert of an evaluation. -/
def evaluationUpsert (run : EngineRun) (e : Evaluation) (candidateId : String)
    (previous : Option CandidateRow) (signal : SignalSummary) (state : CandidateState) :
    CandidateUpsert where
  candidateId := some candidateId
  identity := e.identity
  state
  measures m := if m = .score ∨ m = .playbookScore then some e.score else e.measures m
  marketTimestamp := e.quoteTimestamp
  firstSeenAt := some ((previous.map (·.firstSeenAt)).getD e.asOf)
  lastSeenAt := some e.asOf
  stateChangedAt := some e.asOf
  stateReasonCode := some (e.blockers.head?.getD
    (if state = .eligible then "CANDIDATE_BECAME_ELIGIBLE" else Text.toUpperCase state.text))
  stateReason := some (.object
    [(ofAscii "playbook", .string (ofAscii e.identity.playbook.text)),
      (ofAscii "status", .string e.status),
      (ofAscii "signalState", stateJson signal.state),
      (ofAscii "scoreChange", orNull numberJson signal.scoreChange),
      (ofAscii "missingInputs", .array (e.missingInputs.map .string))])
  blockerCodes := e.blockerCodes
  reappeared := signal.reappeared && previous.map (·.state) != some state
  lifecycleContext := some
    { engineRunId := some run.engineRunId, accountMode := run.accountMode,
      strategyVersion := run.strategyVersion, configurationVersionId := run.configurationVersionId,
      marketTimestamp := e.quoteTimestamp, occurredAt := some e.asOf }

/-- `persistEvaluation`. -/
def persistEvaluation (db : Db) (env : Surroundings) (run : EngineRun) (e : Evaluation) :
    Except Error Db := do
  let candidateId := buildZeroDteCandidateId e.identity
  let previous := db.candidates.get? candidateId
  let previousState := previous.map (·.state)
  let signal ← summarizeZeroDteSignal (priorScores db candidateId ++ [(e.asOf, e.score)])
    previousState run.signal
  let state := nextState previousState (evaluatedState run e signal) signal.reappeared
  let db ← upsertCandidate db env (evaluationUpsert run e candidateId previous signal state)
  let db ← appendObservation db env
    { observationId := runRowId "zobs_"
        [("engineRunId", run.engineRunId), ("candidateId", candidateId)],
      candidateId, engineRunId := run.engineRunId, observedAt := e.asOf, state,
      totalScore := e.score.value }
  insertEvaluation db env e.score e.confidence e.asOf
    { evaluationId := runRowId "zeval_"
        [("engineRunId", run.engineRunId), ("candidateId", candidateId),
          ("playbook", e.identity.playbook.text)],
      candidateId, engineRunId := run.engineRunId, playbook := e.identity.playbook }

end Evaluate

/-! ## Transactions -/

/-- A write of the engine, or of another caller of the upsert. -/
inductive Write where
  | upsert (env : Surroundings) (input : CandidateUpsert)
  | evaluate (env : Surroundings) (run : EngineRun) (evaluation : Evaluation)

section Transactions

variable [Hashing] [Runtime]

def Write.apply (db : Db) : Write → Except Error Db
  | upsert env input => upsertCandidate db env input
  | evaluate env run evaluation => persistEvaluation db env run evaluation

/-- Several writes, up to the first that throws. -/
def applyWrites (db : Db) (writes : List Write) : Except Error Db := writes.foldlM Write.apply db

/-- `withTransaction`: what throws is rolled back. -/
def transact (db : Db) (writes : List Write) : Db × Except Error Unit :=
  match applyWrites db writes with
  | .error e => (db, .error e)
  | .ok db' => (db', .ok ())

/-- `upsertZeroDteCandidate`, called on its own. -/
def upsertZeroDteCandidate (db : Db) (env : Surroundings) (input : CandidateUpsert) :
    Db × Except Error Unit := transact db [.upsert env input]

end Transactions

end ZeroDte

end AlpacaTrading
