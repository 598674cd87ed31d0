import AlpacaTrading.Lib.Json
import AlpacaTrading.Lib.Table
import AlpacaTrading.Broker.Response

/-!
# The store of the zero-DTE services

The rows of the SQLite tables that the zero-DTE engine, its event log and the reconciliation of
its exits share.  A column that holds the text of a JSON value is modelled by the value: the text
determines it (`Json.stringify_injective`).
-/

namespace AlpacaTrading

/-- A number as JavaScript holds it. -/
inductive JsNumber where
  | finite (x : ℚ)
  | notFinite
deriving DecidableEq

/-- A finite number. -/
def JsNumber.value : JsNumber → Option ℚ
  | finite x => some x
  | notFinite => none

namespace ZeroDte

/-! ## Candidates -/

/-- `ZeroDtePlaybook`. -/
inductive Playbook where
  | trendContinuation | reversal | breakout | gammaProxy | volatilityExpansion
deriving DecidableEq, Repr

def Playbook.text : Playbook → String
  | trendContinuation => "trend_continuation"
  | reversal => "reversal"
  | breakout => "breakout"
  | gammaProxy => "gamma_proxy"
  | volatilityExpansion => "volatility_expansion"

/-- `ZeroDteDirection`. -/
inductive Direction where
  | bullish | bearish | neutral
deriving DecidableEq, Repr

def Direction.text : Direction → String
  | bullish => "bullish"
  | bearish => "bearish"
  | neutral => "neutral"

/-- `ZERO_DTE_CANDIDATE_STATES`. -/
inductive CandidateState where
  | discovered | watching | strengthening | stable | weakening | eligible | selected | executed
  | shadowed | skipped | rejected | expired | invalidated | closed
deriving DecidableEq, Repr

def CandidateState.text : CandidateState → String
  | discovered => "discovered"
  | watching => "watching"
  | strengthening => "strengthening"
  | stable => "stable"
  | weakening => "weakening"
  | eligible => "eligible"
  | selected => "selected"
  | executed => "executed"
  | shadowed => "shadowed"
  | skipped => "skipped"
  | rejected => "rejected"
  | expired => "expired"
  | invalidated => "invalidated"
  | closed => "closed"

/-- The columns that identify a candidate, in their normal form when they are stored. -/
structure CandidateIdentity where
  tradingDate : String
  underlyingSymbol : String
  optionSymbol : String
  playbook : Playbook
  direction : Direction
  expirationDate : String
  strike : ℚ
deriving DecidableEq

/-- The numeric columns of a candidate. -/
inductive Measure where
  | rank | score | playbookScore | signalStrengthAdjustment | liquidityAdjustment
  | regimeAdjustment | executionQualityAdjustment | riskPenalty | staleDataPenalty | confidence
  | signalSlope | shortWindowSlope | mediumWindowSlope | liquidityScore | freshnessScore
  | setupAgeSeconds | quoteBid | quoteAsk | quoteMidpoint | premium | spreadPct | volume
  | openInterest | impliedVolatility | delta | gamma | theta | vega
deriving DecidableEq, Repr

/-- What the error about a measure calls it. -/
def Measure.label : Measure → String
  | rank => "rank"
  | score => "score"
  | playbookScore => "playbook score"
  | signalStrengthAdjustment => "signal strength adjustment"
  | liquidityAdjustment => "liquidity adjustment"
  | regimeAdjustment => "regime adjustment"
  | executionQualityAdjustment => "execution quality adjustment"
  | riskPenalty => "risk penalty"
  | staleDataPenalty => "stale data penalty"
  | confidence => "confidence"
  | signalSlope => "signal slope"
  | shortWindowSlope => "short window slope"
  | mediumWindowSlope => "medium window slope"
  | liquidityScore => "liquidity score"
  | freshnessScore => "freshness score"
  | setupAgeSeconds => "setup age seconds"
  | quoteBid => "quote bid"
  | quoteAsk => "quote ask"
  | quoteMidpoint => "quote midpoint"
  | premium => "premium"
  | spreadPct => "spread percentage"
  | volume => "volume"
  | openInterest => "open interest"
  | impliedVolatility => "implied volatility"
  | delta => "delta"
  | gamma => "gamma"
  | theta => "theta"
  | vega => "vega"

/-- The measures that must be integers. -/
def Measure.isInteger : Measure → Bool
  | rank | setupAgeSeconds | volume | openInterest => true
  | _ => false

/-- All of them, in the order in which they are checked. -/
def Measure.all : List Measure :=
  [.rank, .score, .playbookScore, .signalStrengthAdjustment, .liquidityAdjustment,
    .regimeAdjustment, .executionQualityAdjustment, .riskPenalty, .staleDataPenalty, .confidence,
    .signalSlope, .shortWindowSlope, .mediumWindowSlope, .liquidityScore, .freshnessScore,
    .setupAgeSeconds, .quoteBid, .quoteAsk, .quoteMidpoint, .premium, .spreadPct, .volume,
    .openInterest, .impliedVolatility, .delta, .gamma, .theta, .vega]

/-- A row of `zero_dte_candidates`. -/
structure CandidateRow where
  candidateId : String
  identity : CandidateIdentity
  state : CandidateState
  measures : Measure → Option ℚ := fun _ ↦ none
  marketTimestamp : Option String := none
  firstSeenAt : String
  lastSeenAt : String
  stateChangedAt : String
  stateReasonCode : Option String := none
  stateReason : Json := .object []
  reappearanceCount : ℕ := 0
  blockerCodes : Json := .array []
  createdAt : String
  updatedAt : String

instance : Row CandidateRow String where
  key := (·.candidateId)
  clash a b := a.candidateId = b.candidateId ∨ a.identity = b.identity
  dec _ _ := inferInstanceAs (Decidable (_ ∨ _))
  symm h := h.imp Eq.symm Eq.symm
  clash_of_key h := .inl h

/-- The columns of `zero_dte_candidate_observations` that are read again. -/
structure ObservationRow where
  observationId : String
  candidateId : String
  engineRunId : String
  observedAt : String
  state : CandidateState
  totalScore : Option ℚ
deriving DecidableEq

instance : Row ObservationRow String where
  key := (·.observationId)
  clash a b := a.observationId = b.observationId
  dec _ _ := inferInstanceAs (Decidable (_ = _))
  symm h := h.symm
  clash_of_key h := h

/-- The key columns of `zero_dte_playbook_evaluations`. -/
structure EvaluationRow where
  evaluationId : String
  candidateId : String
  engineRunId : String
  playbook : Playbook
deriving DecidableEq

instance : Row EvaluationRow String where
  key := (·.evaluationId)
  clash a b := a.evaluationId = b.evaluationId ∨
    (a.candidateId = b.candidateId ∧ a.engineRunId = b.engineRunId ∧ a.playbook = b.playbook)
  dec _ _ := inferInstanceAs (Decidable (_ ∨ _))
  symm h := h.imp Eq.symm fun h ↦ ⟨h.1.symm, h.2.1.symm, h.2.2.symm⟩
  clash_of_key h := .inl h

/-- The columns of `zero_dte_decisions` that events and exits refer to. -/
structure DecisionRow where
  decisionId : String
  decisionGroupId : String
  engineRunId : String
  candidateId : String
  accountMode : String
  strategyVersion : String
  configurationVersionId : String
  marketTimestamp : Option String := none
deriving DecidableEq

instance : Row DecisionRow String where
  key := (·.decisionId)
  clash a b := a.decisionId = b.decisionId
  dec _ _ := inferInstanceAs (Decidable (_ = _))
  symm h := h.symm
  clash_of_key h := h

/-! ## Events -/

/-- `ZERO_DTE_LIFECYCLE_EVENT_TYPES`. -/
inductive EventType where
  | candidateDiscovered | candidateObserved | candidateStrengthened | candidateWeakened
  | candidateReappeared | candidateBecameEligible | candidateSelected | candidateSkipped
  | candidateRejected | candidateExpired | candidateInvalidated | executionAttested
  | paperOrderRequested | paperOrderAccepted | paperOrderRejected | paperOrderFilled
  | paperOrderPartiallyFilled | paperOrderCanceled | positionOpened | positionMarked
  | exitTriggered | exitOrderRequested | positionClosed | shadowOpened | shadowMarked
  | shadowClosed | terminalOutcomeRecorded
deriving DecidableEq, Repr

def EventType.text : EventType → String
  | candidateDiscovered => "candidate_discovered"
  | candidateObserved => "candidate_observed"
  | candidateStrengthened => "candidate_strengthened"
  | candidateWeakened => "candidate_weakened"
  | candidateReappeared => "candidate_reappeared"
  | candidateBecameEligible => "candidate_became_eligible"
  | candidateSelected => "candidate_selected"
  | candidateSkipped => "candidate_skipped"
  | candidateRejected => "candidate_rejected"
  | candidateExpired => "candidate_expired"
  | candidateInvalidated => "candidate_invalidated"
  | executionAttested => "execution_attested"
  | paperOrderRequested => "paper_order_requested"
  | paperOrderAccepted => "paper_order_accepted"
  | paperOrderRejected => "paper_order_rejected"
  | paperOrderFilled => "paper_order_filled"
  | paperOrderPartiallyFilled => "paper_order_partially_filled"
  | paperOrderCanceled => "paper_order_canceled"
  | positionOpened => "position_opened"
  | positionMarked => "position_marked"
  | exitTriggered => "exit_triggered"
  | exitOrderRequested => "exit_order_requested"
  | positionClosed => "position_closed"
  | shadowOpened => "shadow_opened"
  | shadowMarked => "shadow_marked"
  | shadowClosed => "shadow_closed"
  | terminalOutcomeRecorded => "terminal_outcome_recorded"

/-- A row of `zero_dte_lifecycle_events` that concerns no shadow trade. -/
structure EventRow where
  eventId : String
  eventType : EventType
  reasonCode : Option String := none
  engineRunId : Option String := none
  candidateId : Option String := none
  decisionId : Option String := none
  decisionGroupId : Option String := none
  paperTradeId : Option String := none
  accountMode : String
  strategyVersion : String
  configurationVersionId : String
  marketTimestamp : Option String := none
  occurredAt : String
  details : Json
  createdAt : String

instance : Row EventRow String where
  key := (·.eventId)
  clash a b := a.eventId = b.eventId
  dec _ _ := inferInstanceAs (Decidable (_ = _))
  symm h := h.symm
  clash_of_key h := h

/-! ## Trades -/

/-- The values of `zero_dte_paper_trades.status`. -/
inductive PaperTradeStatus where
  | intended | submitted | partiallyFilled | opened | exitRequested | closed | canceled | expired
  | rejected | failed
deriving DecidableEq, Repr

/-- A row of `zero_dte_paper_trades`.  The text of a time is modelled by the time; one that cannot
be read is none. -/
structure PaperTradeRow where
  paperTradeId : String
  decisionId : String
  candidateId : String
  tradingDate : String
  underlyingSymbol : String
  optionSymbol : String
  status : PaperTradeStatus
  quantity : ℤ
  entryPremium : Option ℚ := none
  exitPremium : Option ℚ := none
  fees : ℚ := 0
  mfe : Option ℚ := none
  mae : Option ℚ := none
  realizedPnl : Option ℚ := none
  returnPct : Option ℚ := none
  terminalState : Option String := none
  exitReasonCode : Option String := none
  filledAt : Option Time := none
  exitRequestedAt : Option Time := none
  exitedAt : Option Time := none
  updatedAt : Time
deriving DecidableEq

instance : Row PaperTradeRow String where
  key := (·.paperTradeId)
  clash a b := a.paperTradeId = b.paperTradeId
  dec _ _ := inferInstanceAs (Decidable (_ = _))
  symm h := h.symm
  clash_of_key h := h

/-! ## The store -/

/-- The rows of the zero-DTE services. -/
structure Db where
  engineRuns : List String := []
  configurationVersions : List String := []
  decisions : Table DecisionRow := .empty
  candidates : Table CandidateRow := .empty
  observations : Table ObservationRow := .empty
  evaluations : Table EvaluationRow := .empty
  events : Table EventRow := .empty
  paperTrades : Table PaperTradeRow := .empty

end ZeroDte

end AlpacaTrading
