import AlpacaTrading.Lib.Text
import AlpacaTrading.Store.Schema
import AlpacaTrading.ZeroDte.Store

/-!
# The event log of the zero-DTE engine

The two functions every writer of the event log goes through: `serializeZeroDteJson`, which cleans
and bounds the details of an event, and `insertZeroDteLifecycleEventRow`.

## Failing

A call fails with a message, or with one of the three errors of a state transition.  The two kinds
are kept apart in the type, because that no call of the engine is refused as a transition is a
property of its own.
-/

namespace AlpacaTrading

/-! ## The run time -/

/-- What is taken from the run time: `Date.parse`, the shortest decimal of a number, and the
redaction of secrets, which depends on the environment. -/
class Runtime where
  dateParse : String → Option Time
  decimal : ℚ → Option Decimal
  redactSensitiveText : JsString → JsString

namespace ZeroDte

/-! ## Errors -/

/-- The errors of a state transition. -/
inductive TransitionError where
  | reappearanceTransitionRequired
  | terminalCandidateReappearanceRequired
  | lifecycleContextRequiredForStateChange
deriving DecidableEq

def TransitionError.code : TransitionError → String
  | reappearanceTransitionRequired => "ZERO_DTE_REAPPEARANCE_TRANSITION_REQUIRED"
  | terminalCandidateReappearanceRequired => "ZERO_DTE_TERMINAL_CANDIDATE_REAPPEARANCE_REQUIRED"
  | lifecycleContextRequiredForStateChange =>
    "ZERO_DTE_LIFECYCLE_CONTEXT_REQUIRED_FOR_STATE_CHANGE"

/-- What a call throws. -/
inductive Error where
  | transition (e : TransitionError)
  | message (text : String)
deriving DecidableEq

/-- `if (!b) throw e`. -/
def check (b : Bool) (e : Error) : Except Error Unit := if b then .ok () else .error e

theorem check_eq_ok {b : Bool} {e : Error} {u : Unit} : check b e = .ok u ↔ b = true := by
  rw [check]
  by_cases h : b = true <;> simp [h]

theorem check_eq_error {b : Bool} {e e' : Error} :
    check b e = .error e' ↔ b = false ∧ e = e' := by
  rw [check]
  by_cases h : b = true <;> simp [h]

def requiredText (value field : String) : Except Error String :=
  if Text.trim value = "" then .error (.message ("0DTE " ++ field ++ " is required"))
  else .ok (Text.trim value)

def optionalText (value : Option String) : Option String :=
  (value.map Text.trim).filter (· ≠ "")

/-- An optional text that is neither missing nor empty. -/
def givenText (value : Option String) : Option String := value.filter (· ≠ "")

section Time

variable [Hashing] [Runtime]

/-- `isoTimestamp`, at the time `now`. -/
def isoTimestamp (now : Time) (value : Option String) (field : String) : Except Error String :=
  match value with
  | none => .ok (Hashing.toISOString now)
  | some text =>
    match Runtime.dateParse text with
    | none => .error (.message ("0DTE " ++ field ++ " must be a valid timestamp"))
    | some t => .ok (Hashing.toISOString t)

def optionalIsoTimestamp (now : Time) (value : Option String) (field : String) :
    Except Error (Option String) :=
  match value with
  | none => .ok none
  | some text => (isoTimestamp now (some text) field).map some

end Time

/-! ## Details -/

section Details

open JsString

def maxJsonDepth : ℕ := 6
def maxJsonItems : ℕ := 100
def maxJsonStringLength : ℕ := 4000
def maxJsonLength : ℕ := 100000

/-- The words `SENSITIVE_KEY` looks for. -/
def sensitiveWords : List String :=
  ["apikey", "api_key", "api-key", "secret", "token", "authorization", "password", "privatekey",
    "private_key", "private-key", "credential", "rawpayload", "raw_payload", "raw-payload",
    "accesskey", "access_key", "access-key", "header"]

/-- A code unit without regard to case, as the flag `i` takes it. -/
def foldCase (c : CodeUnit) : CodeUnit := if 65 ≤ c ∧ c ≤ 90 then c + 32 else c

/-- `SENSITIVE_KEY.test`. -/
def isSensitiveKey (key : JsString) : Bool :=
  sensitiveWords.any fun word ↦ decide (ofAscii word <:+: key.map foldCase)

/-- The key whose assignment sets the prototype, and stores nothing. -/
def protoKey : JsString := ofAscii "__proto__"

variable [Runtime]

mutual

/-- `sanitizeJsonValue`.  A JSON value has no cycles; the elements past the hundredth are dropped
after they are sanitized, which is the same. -/
def sanitizeJsonValue : ℕ → Json → Json
  | _, .null => .null
  | _, .bool b => .bool b
  | _, .number x => .number x
  | _, .string s => .string ((Runtime.redactSensitiveText s).take maxJsonStringLength)
  | depth, .array xs =>
    if maxJsonDepth ≤ depth then .string (ofAscii "[TRUNCATED]")
    else .array ((sanitizeElements (depth + 1) xs).take maxJsonItems)
  | depth, .object es =>
    if maxJsonDepth ≤ depth then .string (ofAscii "[TRUNCATED]")
    else .object ((sanitizeEntries (depth + 1) es).take maxJsonItems)

def sanitizeElements : ℕ → List Json → List Json
  | _, [] => []
  | depth, x :: xs => sanitizeJsonValue depth x :: sanitizeElements depth xs

def sanitizeEntries : ℕ → List (JsString × Json) → List (JsString × Json)
  | _, [] => []
  | depth, (key, entry) :: es =>
    if isSensitiveKey key then sanitizeEntries depth es
    else if key = protoKey then sanitizeEntries depth es
    else (key, sanitizeJsonValue depth entry) :: sanitizeEntries depth es

end

/-- `serializeZeroDteJson`: the value whose text is stored.  What is too long is replaced. -/
def serializeZeroDteJson (value fallback : Json) : Json :=
  let sanitized := sanitizeJsonValue 0 value
  if maxJsonLength < sanitized.stringify.length then fallback else sanitized

end Details

/-! ## Inserting an event -/

/-- `ZeroDteLifecycleEventInput`, of an event that concerns no shadow trade. -/
structure EventInput where
  eventId : String
  eventType : EventType
  reasonCode : Option String := none
  engineRunId : Option String := none
  candidateId : Option String := none
  decisionId : Option String := none
  decisionGroupId : Option String := none
  paperTradeId : Option String := none
  accountMode : String
  strategyVersion : String
  configurationVersionId : String
  marketTimestamp : Option String := none
  occurredAt : Option String := none
  details : Json

/-- `assertPaperOnlyAccountMode`. -/
def assertPaperOnlyAccountMode (value : String) : Except Error String := do
  let mode := Text.toLowerCase (← requiredText value "account mode")
  check (["paper", "shadow", "dry_run", "test"].contains mode)
    (.message ("ZERO_DTE_PAPER_ONLY_ACCOUNT_MODE_REQUIRED: only paper, shadow, dry_run, or test " ++
      "modes are allowed"))
  return mode

/-- Two optional texts that are both given agree. -/
def agrees (a b : Option String) : Bool :=
  match a, b with
  | some x, some y => x == y
  | _, _ => true

/-- `assertLifecycleLinkage`, of an event that concerns no shadow trade: the rows the event refers
to exist and belong together. -/
def assertLifecycleLinkage (db : Db) (accountMode : String)
    (engineRunId candidateId decisionId decisionGroupId paperTradeId : Option String) :
    Except Error Unit := do
  check (paperTradeId.isNone || accountMode == "paper")
    (.message "ZERO_DTE_PAPER_TRADE_REQUIRES_PAPER_ACCOUNT_MODE")
  let decision := decisionId.bind db.decisions.get?
  check (decisionId.isNone || decision.isSome) (.message "ZERO_DTE_LIFECYCLE_DECISION_NOT_FOUND")
  check (agrees (decision.map (·.candidateId)) candidateId)
    (.message "ZERO_DTE_LIFECYCLE_DECISION_CANDIDATE_MISMATCH")
  check (agrees (decision.map (·.decisionGroupId)) decisionGroupId)
    (.message "ZERO_DTE_LIFECYCLE_DECISION_GROUP_MISMATCH")
  check (agrees (decision.map (·.accountMode)) (some accountMode))
    (.message "ZERO_DTE_LIFECYCLE_DECISION_ACCOUNT_MODE_MISMATCH")
  check (candidateId.isNone || (candidateId.bind db.candidates.get?).isSome)
    (.message "ZERO_DTE_LIFECYCLE_CANDIDATE_NOT_FOUND")
  let paperTrade := paperTradeId.bind db.paperTrades.get?
  check (paperTradeId.isNone || paperTrade.isSome)
    (.message "ZERO_DTE_LIFECYCLE_PAPER_TRADE_NOT_FOUND")
  check (agrees (paperTrade.map (·.candidateId)) candidateId)
    (.message "ZERO_DTE_LIFECYCLE_TRADE_CANDIDATE_MISMATCH")
  check (agrees (paperTrade.map (·.decisionId)) decisionId)
    (.message "ZERO_DTE_LIFECYCLE_TRADE_DECISION_MISMATCH")
  let tradeDecision := (paperTrade.map (·.decisionId)).bind db.decisions.get?
  check (agrees (tradeDecision.map (·.candidateId)) (paperTrade.map (·.candidateId)))
    (.message "ZERO_DTE_LIFECYCLE_TRADE_DECISION_CANDIDATE_MISMATCH")
  check (agrees (tradeDecision.map (·.decisionGroupId)) decisionGroupId)
    (.message "ZERO_DTE_LIFECYCLE_TRADE_DECISION_GROUP_MISMATCH")
  check (engineRunId.isNone || engineRunId.any db.engineRuns.contains)
    (.message "ZERO_DTE_LIFECYCLE_ENGINE_RUN_NOT_FOUND")

section Insert

variable [Hashing] [Runtime]

/-- `insertZeroDteLifecycleEventRow`, at the time `now` and under a fence that is active or not. -/
def insertZeroDteLifecycleEventRow (db : Db) (now : Time) (fenceActive : Bool)
    (input : EventInput) : Except Error Db := do
  check fenceActive (.message "PostgreSQL scheduler fence is no longer active.")
  let eventId ← requiredText input.eventId "event ID"
  let accountMode ← assertPaperOnlyAccountMode input.accountMode
  let strategyVersion ← requiredText input.strategyVersion "strategy version"
  let configurationVersionId ←
    requiredText input.configurationVersionId "configuration version ID"
  let occurredAt ← isoTimestamp now input.occurredAt "event timestamp"
  let createdAt ← isoTimestamp now (some occurredAt) "created timestamp"
  let engineRunId := optionalText input.engineRunId
  let candidateId := optionalText input.candidateId
  let decisionId := optionalText input.decisionId
  let decisionGroupId := optionalText input.decisionGroupId
  let paperTradeId := optionalText input.paperTradeId
  assertLifecycleLinkage db accountMode engineRunId candidateId decisionId decisionGroupId
    paperTradeId
  let marketTimestamp ← optionalIsoTimestamp now input.marketTimestamp "market timestamp"
  -- The remaining foreign key.
  check (db.configurationVersions.contains configurationVersionId)
    (.message "FOREIGN KEY constraint failed")
  match db.events.insert?
    { eventId, eventType := input.eventType, reasonCode := optionalText input.reasonCode,
      engineRunId, candidateId, decisionId, decisionGroupId, paperTradeId, accountMode,
      strategyVersion, configurationVersionId, marketTimestamp, occurredAt,
      details := serializeZeroDteJson input.details (.object []), createdAt } with
  | none => .error (.message "UNIQUE constraint failed: zero_dte_lifecycle_events.event_id")
  | some events => return { db with events }

end Insert

end ZeroDte

end AlpacaTrading
