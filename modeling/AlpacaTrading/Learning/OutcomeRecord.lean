import Mathlib.Algebra.Order.Ring.Rat
import Mathlib.Data.List.Sort
import AlpacaTrading.Broker.Response
import AlpacaTrading.Lifecycle.Graph

/-!
# Outcome records

`buildOutcomeLearningRecord` joins the rows that belong to a candidate: its arbitration, the review,
intent and order of its entry, the position, and the order, intent and review of the exit.  Each
step of the join selects a row or says why it did not, under one of four headings, and the record
is `exact` when nothing was said.

The prices and returns a record is filled with are not part of this model.  A missing optional
field is `none`, and so is a number that is not finite; an empty text is kept, and is skipped
where the source asks for a truthy one.
-/

namespace AlpacaTrading

/-! ## Rows -/

/-- What the run time makes of the text of a time: `Date.parse`, and `localeCompare`. -/
class Locale where
  dateParse : String → Option Time
  /-- `left.localeCompare(right) <= 0`. -/
  collates : String → String → Bool

structure OutcomeCandidateInput where
  id : String
  symbol : String
  optionContractId : Option String := none
deriving DecidableEq

structure OutcomeArbitrationInput where
  id : String
  proposalId : String
deriving DecidableEq

structure OutcomeReviewInput where
  id : String
  candidateId : String
  reviewType : Option ReviewType := none
  marketEvidenceIds : List String := []
deriving DecidableEq

structure OutcomeIntentInput where
  id : String
  candidateId : String
  reviewId : Option String := none
  parentPositionId : Option String := none
  submittedAt : Option String := none
deriving DecidableEq

/-- The side of an order. -/
inductive OutcomeSide where
  | buy | sell
deriving DecidableEq, Repr

structure OutcomeOrderInput where
  id : String
  intentId : String
  status : Option String := none
  side : Option OutcomeSide := none
  filledQuantity : Option ℚ := none
  averageFillPrice : Option ℚ := none
  submittedAt : Option String := none
  filledAt : Option String := none
deriving DecidableEq

structure OutcomeBrokerEventInput where
  id : String
  orderId : Option String := none
  intentId : Option String := none
  status : Option String := none
  filledQuantity : Option ℚ := none
  occurredAt : String
deriving DecidableEq

structure OutcomePositionInput where
  id : String
  candidateId : Option String := none
  openingOrderId : Option String := none
  closingOrderId : Option String := none
  status : Option String := none
  averageEntryPrice : Option ℚ := none
  openedAt : Option String := none
  closedAt : Option String := none
  lastReconciledAt : Option String := none
deriving DecidableEq

structure MarketObservationInput where
  id : String
  instrument : String
  observedAt : String
  bid : Option ℚ := none
  ask : Option ℚ := none
  midpoint : Option ℚ := none
deriving DecidableEq

structure ExcursionObservationInput where
  id : String
  instrument : String
  observedAt : String
  high : Option ℚ := none
  low : Option ℚ := none
  price : Option ℚ := none
  source : String
  granularity : Option String := none
deriving DecidableEq

/-- `OutcomeLearningInput`. -/
structure OutcomeLearningInput where
  sourceLimitations : List String := []
  candidate : OutcomeCandidateInput
  arbitrations : List OutcomeArbitrationInput := []
  reviews : List OutcomeReviewInput := []
  intents : List OutcomeIntentInput := []
  orders : List OutcomeOrderInput := []
  brokerEvents : List OutcomeBrokerEventInput := []
  positions : List OutcomePositionInput := []
  marketObservations : List MarketObservationInput := []
  excursionObservations : List ExcursionObservationInput := []
  referenceToleranceMs : Option ℚ := none
deriving DecidableEq

/-- An optional text that is neither missing nor empty. -/
def truthy (value : Option String) : Option String := value.filter (· ≠ "")

@[simp] theorem truthy_eq_some {value : Option String} {s : String} :
    truthy value = some s ↔ value = some s ∧ s ≠ "" := by
  simp [truthy, Option.filter_eq_some_iff]

/-! ## Reasons -/

/-- The reasons against a join, under their headings. -/
structure JoinReasons where
  partialReasons : List String := []
  missingReasons : List String := []
  ambiguousReasons : List String := []
  unsupportedReasons : List String := []
deriving DecidableEq

attribute [ext] JoinReasons

/-- `OutcomeJoinStatus`. -/
inductive OutcomeJoinStatus where
  | exact | partialJoin | missing | ambiguous | unsupported
deriving DecidableEq, Repr

namespace JoinReasons

/-- What is said in two steps. -/
protected def append (r s : JoinReasons) : JoinReasons where
  partialReasons := r.partialReasons ++ s.partialReasons
  missingReasons := r.missingReasons ++ s.missingReasons
  ambiguousReasons := r.ambiguousReasons ++ s.ambiguousReasons
  unsupportedReasons := r.unsupportedReasons ++ s.unsupportedReasons

instance : Append JoinReasons := ⟨JoinReasons.append⟩

/-- A reason that is given under a condition. -/
def when (condition : Bool) (reasons : JoinReasons) : JoinReasons := if condition then reasons else {}

/-- The status of a join with these reasons. -/
def status (r : JoinReasons) : OutcomeJoinStatus :=
  if r.ambiguousReasons ≠ [] then .ambiguous
  else if r.missingReasons ≠ [] then .missing
  else if r.unsupportedReasons ≠ [] then .unsupported
  else if r.partialReasons ≠ [] then .partialJoin
  else .exact

theorem append_def (r s : JoinReasons) : r ++ s = r.append s := rfl

@[simp] theorem append_eq_empty {r s : JoinReasons} : r ++ s = {} ↔ r = {} ∧ s = {} := by
  rw [append_def]
  simp only [JoinReasons.append, JoinReasons.ext_iff, List.append_eq_nil_iff]
  tauto

@[simp] theorem when_eq_empty {condition : Bool} {reasons : JoinReasons} :
    when condition reasons = {} ↔ condition = true → reasons = {} := by
  rcases condition with - | -
  · simp [when]
  · simp [when]

theorem status_eq_exact {r : JoinReasons} : r.status = .exact ↔ r = {} := by
  rw [status, JoinReasons.ext_iff]
  constructor
  · intro h
    split_ifs at h with h₁ h₂ h₃ h₄
    exact ⟨not_not.1 h₄, not_not.1 h₂, not_not.1 h₁, not_not.1 h₃⟩
  · rintro ⟨h₁, h₂, h₃, h₄⟩
    rw [if_neg (not_not.2 h₃), if_neg (not_not.2 h₂), if_neg (not_not.2 h₄), if_neg (not_not.2 h₁)]

end JoinReasons

/-! ## The rows of a candidate -/

namespace OutcomeLearningInput

variable (input : OutcomeLearningInput)

/-- The arbitrations of the candidate. -/
def proposalArbitrations : List OutcomeArbitrationInput :=
  input.arbitrations.filter (·.proposalId = input.candidate.id)

/-- The entry reviews of the candidate. -/
def entryReviews : List OutcomeReviewInput :=
  input.reviews.filter fun r ↦
    r.candidateId = input.candidate.id ∧ r.reviewType.getD .entry = .entry

/-- The exit reviews of the candidate. -/
def exitReviews : List OutcomeReviewInput :=
  input.reviews.filter fun r ↦ r.candidateId = input.candidate.id ∧ r.reviewType = some .exit

/-- The intents of the candidate that close no position. -/
def entryIntents : List OutcomeIntentInput :=
  input.intents.filter fun i ↦
    i.candidateId = input.candidate.id ∧ truthy i.parentPositionId = none

/-- The orders of the entry intents. -/
def entryOrders : List OutcomeOrderInput :=
  input.orders.filter fun o ↦ o.intentId ∈ input.entryIntents.map (·.id)

/-- The positions of the candidate, by its name or by an entry order. -/
def candidatePositions : List OutcomePositionInput :=
  input.positions.filter fun p ↦ decide (p.candidateId = some input.candidate.id) ||
    (truthy p.openingOrderId).any (· ∈ input.entryOrders.map (·.id))

/-- The exit intents of a position. -/
def exitIntents (p : OutcomePositionInput) : List OutcomeIntentInput :=
  input.intents.filter (·.parentPositionId = some p.id)

/-- The orders of the exit intents of a position. -/
def exitOrders (p : OutcomePositionInput) : List OutcomeOrderInput :=
  input.orders.filter fun o ↦ o.intentId ∈ (input.exitIntents p).map (·.id)

end OutcomeLearningInput

namespace OutcomeOrderInput

variable (o : OutcomeOrderInput)

/-- `finite(order.filledQuantity) ?? 0`. -/
def filled : ℚ := o.filledQuantity.getD 0

/-- The status is one of a fill. -/
def fillStatus : Bool := o.status.getD "" ∈ ["partially_filled", "filled"]

/-- The order has a fill. -/
def hasFill : Bool := decide (0 < o.filled) || o.fillStatus

/-- The order ended without a fill. -/
def terminalUnfilled : Bool :=
  o.status.getD "" ∈ ["rejected", "canceled", "cancelled", "expired"] ∧ o.filled = 0

end OutcomeOrderInput

/-- The position is closed. -/
def OutcomePositionInput.closed (p : OutcomePositionInput) : Bool := p.status = some "closed"

/-! ## Selections -/

/-- `selectSingle`. -/
def selectSingle {α : Type*} (rows : List α) (missingCode ambiguousCode : String) :
    Option α × JoinReasons :=
  match rows with
  | [] => (none, { missingReasons := [missingCode] })
  | [row] => (some row, {})
  | _ => (none, { ambiguousReasons := [ambiguousCode] })

/-- The rows of an entry. -/
structure EntryJoin where
  review : Option OutcomeReviewInput := none
  intent : Option OutcomeIntentInput := none
  order : Option OutcomeOrderInput := none
  position : Option OutcomePositionInput := none
deriving DecidableEq

/-- The rows of an exit. -/
structure ExitJoin where
  intent : Option OutcomeIntentInput := none
  order : Option OutcomeOrderInput := none
deriving DecidableEq

/-- A position with the entry order that opened it, and the intent of that. -/
structure EntryChain where
  position : OutcomePositionInput
  order : OutcomeOrderInput
  intent : OutcomeIntentInput
deriving DecidableEq

namespace OutcomeLearningInput

variable (input : OutcomeLearningInput)

/-- `reviewForIntent`. -/
def reviewForIntent (selectedIntent : Option OutcomeIntentInput) :
    Option OutcomeReviewInput × JoinReasons :=
  match selectedIntent with
  | none => selectSingle input.entryReviews "REVIEW_MISSING" "REVIEW_AMBIGUOUS"
  | some intent =>
    match truthy intent.reviewId with
    | some reviewId =>
      selectSingle (input.entryReviews.filter (·.id = reviewId)) "INTENT_REVIEW_MISSING"
        "INTENT_REVIEW_AMBIGUOUS"
    | none =>
      match input.entryReviews with
      | [review] => (some review, { partialReasons := ["REVIEW_JOIN_BY_CANDIDATE_ONLY"] })
      | reviews => selectSingle reviews "REVIEW_MISSING" "REVIEW_AMBIGUOUS"

/-- `positionLinkedChains`. -/
def positionLinkedChains : List EntryChain :=
  input.candidatePositions.filterMap fun position ↦ do
    let openingOrderId ← truthy position.openingOrderId
    let order ← input.entryOrders.find? (·.id = openingOrderId)
    let intent ← input.entryIntents.find? (·.id = order.intentId)
    return { position, order, intent }

/-- There are entry intents besides the selected one. -/
def additionalIntents (intent : Option OutcomeIntentInput) : JoinReasons :=
  .when (input.entryIntents.any fun i ↦ some i.id ≠ intent.map (·.id))
    { partialReasons := ["ADDITIONAL_ENTRY_INTENTS_NOT_SELECTED"] }

/-- There are entry reviews besides the selected one. -/
def additionalReviews (review : Option OutcomeReviewInput) : JoinReasons :=
  .when (input.entryReviews.any fun r ↦ some r.id ≠ review.map (·.id))
    { partialReasons := ["ADDITIONAL_ENTRY_REVIEWS_NOT_SELECTED"] }

/-- The position of an order with a fill that no position names. -/
def positionForOrder (order : OutcomeOrderInput) : Option OutcomePositionInput × JoinReasons :=
  match input.candidatePositions.filter (·.openingOrderId = some order.id) with
  | [position] => (some position, {})
  | _ :: _ :: _ => (none, { ambiguousReasons := ["POSITION_AMBIGUOUS"] })
  | [] =>
    match input.candidatePositions.filter fun p ↦ truthy p.openingOrderId = none with
    | [position] => (some position, { partialReasons := ["POSITION_JOIN_BY_CANDIDATE_ONLY"] })
    | _ :: _ :: _ => (none, { ambiguousReasons := ["POSITION_AMBIGUOUS"] })
    | [] => (none, { missingReasons := ["POSITION_MISSING"] })

/-- The selection of the entry rows. -/
def entryJoin : EntryJoin × JoinReasons :=
  match input.positionLinkedChains with
  | _ :: _ :: _ => ({}, { ambiguousReasons := ["MULTIPLE_POSITION_LINKED_ENTRY_ORDERS"] })
  | [chain] =>
    let (review, reasons) := input.reviewForIntent (some chain.intent)
    ({ review, intent := some chain.intent, order := some chain.order,
        position := some chain.position },
      reasons ++
        .when (input.entryOrders.any (·.id ≠ chain.order.id))
          { partialReasons := ["ADDITIONAL_ENTRY_ORDERS_NOT_SELECTED"] } ++
        input.additionalIntents (some chain.intent) ++ input.additionalReviews review)
  | [] =>
    match input.entryOrders with
    | _ :: _ :: _ => ({}, { ambiguousReasons := ["ENTRY_ORDER_AMBIGUOUS"] })
    | [order] =>
      let intent := input.entryIntents.find? (·.id = order.intentId)
      let (review, reasons) := input.reviewForIntent intent
      let (position, positionReasons) :=
        if order.hasFill then input.positionForOrder order else (none, {})
      ({ review, intent, order := some order, position },
        .when intent.isNone { missingReasons := ["ORDER_INTENT_MISSING"] } ++ reasons ++
          input.additionalIntents intent ++ input.additionalReviews review ++ positionReasons)
    | [] =>
      match input.entryIntents with
      | [intent] =>
        let (review, reasons) := input.reviewForIntent (some intent)
        ({ review, intent := some intent }, reasons ++ { missingReasons := ["ORDER_MISSING"] })
      | _ :: _ :: _ =>
        let (review, reasons) := input.reviewForIntent none
        ({ review }, { ambiguousReasons := ["ENTRY_INTENT_AMBIGUOUS"] } ++ reasons)
      | [] =>
        let (review, reasons) := input.reviewForIntent none
        ({ review }, { missingReasons := ["ENTRY_INTENT_MISSING"] } ++ reasons)

/-- The selection of the exit order and its intent. -/
def exitJoin : Option OutcomePositionInput → ExitJoin × JoinReasons
  | none => ({}, {})
  | some position =>
    match truthy position.closingOrderId with
    | some closingOrderId =>
      match selectSingle (input.orders.filter (·.id = closingOrderId)) "EXIT_ORDER_MISSING"
        "EXIT_ORDER_AMBIGUOUS" with
      | (none, reasons) => ({}, reasons)
      | (some order, reasons) =>
        match input.intents.find? (·.id = order.intentId) with
        | none =>
          ({ order := some order }, reasons ++ { missingReasons := ["EXIT_INTENT_MISSING"] })
        | some intent =>
          ({ order := some order, intent := some intent },
            reasons ++ .when (intent.parentPositionId ≠ some position.id)
              { partialReasons := ["EXIT_INTENT_POSITION_LINK_MISSING"] })
    | none =>
      match input.exitOrders position with
      | [order] =>
        ({ order := some order
           intent := (input.exitIntents position).find? (·.id = order.intentId) },
          .when position.closed { partialReasons := ["EXIT_ORDER_JOIN_BY_PARENT_POSITION"] })
      | _ :: _ :: _ =>
        ({}, .when position.closed { ambiguousReasons := ["EXIT_ORDER_AMBIGUOUS"] })
      | [] =>
        if position.closed then
          match input.exitIntents position with
          | [intent] =>
            ({ intent := some intent }, { missingReasons := ["EXIT_ORDER_MISSING"] })
          | _ :: _ :: _ => ({}, { ambiguousReasons := ["EXIT_INTENT_AMBIGUOUS"] })
          | [] => ({}, { missingReasons := ["EXIT_INTENT_MISSING", "EXIT_ORDER_MISSING"] })
        else ({}, {})

/-- The selection of the exit review. -/
def exitReviewJoin (closed : Bool) :
    Option OutcomeIntentInput → Option OutcomeReviewInput × JoinReasons
  | none => (none, {})
  | some exitIntent =>
    match truthy exitIntent.reviewId with
    | some reviewId =>
      match input.exitReviews.filter (·.id = reviewId) with
      | [review] => (some review, {})
      | _ :: _ :: _ => (none, { ambiguousReasons := ["EXIT_REVIEW_AMBIGUOUS"] })
      | [] => (none, .when closed { missingReasons := ["EXIT_REVIEW_MISSING"] })
    | none =>
      if closed then
        match input.exitReviews with
        | [review] => (some review, { partialReasons := ["EXIT_REVIEW_JOIN_BY_CANDIDATE_ONLY"] })
        | _ :: _ :: _ => (none, { ambiguousReasons := ["EXIT_REVIEW_AMBIGUOUS"] })
        | [] => (none, { missingReasons := ["EXIT_REVIEW_MISSING"] })
      else (none, {})

/-- The events of the selected orders and intents. -/
def lifecycleEvents (entry : EntryJoin) (exit : ExitJoin) : List OutcomeBrokerEventInput :=
  input.brokerEvents.filter fun e ↦
    match truthy e.orderId with
    | some id => [truthy (entry.order.map (·.id)), truthy (exit.order.map (·.id))].contains (some id)
    | none => (truthy e.intentId).any fun id ↦
        [truthy (entry.intent.map (·.id)), truthy (exit.intent.map (·.id))].contains (some id)

end OutcomeLearningInput

/-! ## Fills and the reference -/

/-- What is said about the fill of the order. -/
def fillReasons : Option OutcomeOrderInput → JoinReasons
  | none => {}
  | some order =>
    .when (!order.terminalUnfilled && decide (order.filled = 0))
        { missingReasons := ["FILL_MISSING"] } ++
      .when (order.status = some "replaced")
        { unsupportedReasons := ["REPLACEMENT_LINEAGE_NOT_PERSISTED_IN_OUTCOME"] }

/-- The fill status of a record. -/
inductive OutcomeFillStatus where
  | notSubmitted | unfilled | terminalUnfilled | partiallyFilled | fullyFilled
deriving DecidableEq, Repr

def outcomeFillStatus : Option OutcomeOrderInput → OutcomeFillStatus
  | none => .notSubmitted
  | some order =>
    if order.status = some "filled" then .fullyFilled
    else if order.status = some "partially_filled" ∨ 0 < order.filled then .partiallyFilled
    else if order.terminalUnfilled then .terminalUnfilled
    else .unfilled

/-- How a market reference was found. -/
inductive ReferenceLookupMethod where
  | exactEvidence | nearestPriorQuote | nearestPriorTrade | unavailable
deriving DecidableEq, Repr

/-- A selected market reference. -/
structure SelectedReference where
  observation : Option MarketObservationInput := none
  method : ReferenceLookupMethod := .unavailable
  distanceMs : Option Time := none
deriving DecidableEq

section Locale

variable [Locale]

/-- `isoTime`. -/
def isoTime (value : Option String) : Option Time := (truthy value).bind Locale.dateParse

/-- The events of the order, in the order of their texts. -/
def orderEvents (order : OutcomeOrderInput) (intent : Option OutcomeIntentInput)
    (events : List OutcomeBrokerEventInput) : List OutcomeBrokerEventInput :=
  (events.filter fun e ↦ decide (e.orderId = some order.id) ||
    intent.any fun i ↦ e.intentId = some i.id).insertionSort fun a b ↦
      Locale.collates a.occurredAt b.occurredAt = true

/-- The time of the first fill. -/
def firstFillAt (order : Option OutcomeOrderInput) (intent : Option OutcomeIntentInput)
    (events : List OutcomeBrokerEventInput) : Option String :=
  order.bind fun o ↦
    (((orderEvents o intent events).find? fun e ↦
        e.status.getD "" ∈ ["partially_filled", "filled"] ∧ 0 < e.filledQuantity.getD 0).map
      (·.occurredAt)).or (if o.status = some "filled" then o.filledAt else none)

/-- The time of the last fill. -/
def fullFillAt (order : Option OutcomeOrderInput) (intent : Option OutcomeIntentInput)
    (events : List OutcomeBrokerEventInput) : Option String :=
  order.bind fun o ↦
    if o.status = some "filled" then
      (((orderEvents o intent events).find? fun e ↦ e.status = some "filled").map
        (·.occurredAt)).or o.filledAt
    else none

/-- An observation of the instrument that is not later than the event, and not too old. -/
def MarketObservationInput.eligible (instrument : String) (event : Time) (toleranceMs : ℚ)
    (o : MarketObservationInput) : Bool :=
  decide (o.instrument = instrument) && (isoTime (some o.observedAt)).any fun time ↦
    decide (time ≤ event ∧ ((event - time : ℤ) : ℚ) ≤ toleranceMs)

/-- The latest of the observations; of several, the first. -/
def latestObservation (observations : List MarketObservationInput) :
    Option MarketObservationInput :=
  (observations.insertionSort fun l r ↦
    (isoTime (some r.observedAt)).getD 0 ≤ (isoTime (some l.observedAt)).getD 0).head?

/-- `selectReferenceMarketObservation`. -/
def selectReferenceMarketObservation (instrument : String) (eventAt : String) (toleranceMs : ℚ)
    (exactEvidenceIds : List String) (observations : List MarketObservationInput) :
    SelectedReference :=
  match isoTime (some eventAt) with
  | none => {}
  | some event =>
    let eligible := observations.filter (·.eligible instrument event toleranceMs)
    let distance (o : MarketObservationInput) : Option Time :=
      (isoTime (some o.observedAt)).map (event - ·)
    match latestObservation (eligible.filter (·.id ∈ exactEvidenceIds)) with
    | some o => { observation := some o, method := .exactEvidence, distanceMs := distance o }
    | none =>
      match latestObservation eligible with
      | none => {}
      | some o =>
        { observation := some o
          method :=
            if o.bid.isSome || o.ask.isSome || o.midpoint.isSome then .nearestPriorQuote
            else .nearestPriorTrade
          distanceMs := distance o }

/-! ## The record -/

/-- `OutcomeLearningRecord`: the identities of the joined rows, and what was said about the
join. -/
structure OutcomeLearningRecord where
  candidateId : String
  arbitrationDecisionId : Option String
  reviewId : Option String
  intentId : Option String
  orderRecordId : Option String
  positionId : Option String
  exitReviewId : Option String
  exitIntentId : Option String
  exitOrderId : Option String
  brokerEventIds : List String
  submittedAt : Option String
  firstFillAt : Option String
  fullFillAt : Option String
  fillStatus : OutcomeFillStatus
  reference : SelectedReference
  joinStatus : OutcomeJoinStatus
  reasons : JoinReasons
deriving DecidableEq

/-- `uniqueText`. -/
def uniqueText (values : List String) : List String :=
  ((values.map Text.trim).filter (· ≠ "")).eraseDups

/-- The reasons without repetitions. -/
def JoinReasons.unique (r : JoinReasons) : JoinReasons where
  partialReasons := uniqueText r.partialReasons
  missingReasons := uniqueText r.missingReasons
  ambiguousReasons := uniqueText r.ambiguousReasons
  unsupportedReasons := uniqueText r.unsupportedReasons

/-- `buildOutcomeLearningRecord`. -/
def buildOutcomeLearningRecord (input : OutcomeLearningInput) : OutcomeLearningRecord :=
  let (arbitration, arbitrationReasons) := selectSingle input.proposalArbitrations
    "ARBITRATION_DECISION_MISSING" "ARBITRATION_DECISION_AMBIGUOUS"
  let (entry, entryReasons) := input.entryJoin
  let (exit, exitReasons) := input.exitJoin entry.position
  let (exitReview, exitReviewReasons) :=
    input.exitReviewJoin (entry.position.any (·.closed)) exit.intent
  let events := input.lifecycleEvents entry exit
  let submittedAt := (entry.order.bind (·.submittedAt)).or (entry.intent.bind (·.submittedAt))
  let first := firstFillAt entry.order entry.intent events
  let toleranceMs := max 0 (min 900000 (input.referenceToleranceMs.getD 60000))
  let reference := match truthy (submittedAt.or first) with
    | some eventAt => selectReferenceMarketObservation input.candidate.symbol eventAt toleranceMs
        ((entry.review.map (·.marketEvidenceIds)).getD []) input.marketObservations
    | none => {}
  let reasons : JoinReasons := { partialReasons := input.sourceLimitations } ++
    arbitrationReasons ++ entryReasons ++ fillReasons entry.order ++ exitReasons ++
    exitReviewReasons ++
    .when (decide (events.length < input.brokerEvents.length))
      { partialReasons := ["ADDITIONAL_BROKER_EVENTS_NOT_SELECTED"] } ++
    .when (entry.order.any (·.fillStatus) && (truthy first).isNone)
      { missingReasons := ["AUTHORITATIVE_FILL_TIMESTAMP_MISSING"] } ++
    .when reference.observation.isNone
      { missingReasons := ["CONTEMPORANEOUS_MARKET_REFERENCE_MISSING"] }
  { candidateId := input.candidate.id
    arbitrationDecisionId := arbitration.map (·.id)
    reviewId := entry.review.map (·.id)
    intentId := entry.intent.map (·.id)
    orderRecordId := entry.order.map (·.id)
    positionId := entry.position.map (·.id)
    exitReviewId := exitReview.map (·.id)
    exitIntentId := exit.intent.map (·.id)
    exitOrderId := exit.order.map (·.id)
    brokerEventIds := uniqueText (events.map (·.id))
    submittedAt
    firstFillAt := first
    fullFillAt := fullFillAt entry.order entry.intent events
    fillStatus := outcomeFillStatus entry.order
    reference
    joinStatus := reasons.status
    reasons := reasons.unique }

end Locale

end AlpacaTrading
