import Mathlib.Data.List.Sort
import Mathlib.Data.Rat.Floor
import AlpacaTrading.Store.Schema

/-!
# Portfolio arbitration

`arbitratePortfolioResources` walks through the proposals of a review in order of priority and
decides about each of them with what the ones before it have left.  A proposal is skipped when the
portfolio is already exposed to its symbol, through a position, an active order, a pending
commitment or an earlier approval; otherwise it is approved, or cut to what the remaining
resources allow.

Amounts are exact rationals.  The two roundings of the source keep their form, with
`Number.EPSILON` as the rational it denotes.

## Conflicts

`approved_free` and `approved_distinct` are the facts the entry review rests on: what is approved
conflicts with nothing in the context, and two approvals have different symbols.
-/

namespace AlpacaTrading

/-! ## Proposals and context -/

/-- `WorkstreamLane`. -/
inductive WorkstreamLane where
  | equity | options0dte | optionsLeaps
deriving DecidableEq, Repr

inductive PortfolioArbitrationAction where
  | approve | resize | skip
deriving DecidableEq, Repr

inductive PortfolioArbitrationResizeMode where
  | notional | wholeShares | wholeContracts
deriving DecidableEq, Repr

/-- `PortfolioArbitrationProposal`; a missing or non-finite number is `none`. -/
structure PortfolioArbitrationProposal where
  proposalId : String
  cycleId : String
  lane : WorkstreamLane
  strategyPriority : ℚ
  score : Option ℚ
  confidence : Option ℚ
  symbol : String
  underlyingSymbol : String
  contractId : Option String
  direction : CandidateDirection
  assetClass : AssetClass
  requestedQuantity : Option ℚ
  requestedNotional : Option ℚ
  resourceRequirement : Option ℚ
  unitResource : Option ℚ
  resizeMode : PortfolioArbitrationResizeMode
deriving DecidableEq

/-- `PortfolioPositionExposure`, which is also the shape of a pending commitment. -/
structure PortfolioExposure where
  id : String
  symbol : String
  underlyingSymbol : String
  direction : CandidateDirection
  resourceExposure : Option ℚ
deriving DecidableEq

/-- `PortfolioOrderExposure`. -/
structure PortfolioOrderExposure extends PortfolioExposure where
  status : String
deriving DecidableEq

/-- `PortfolioResourceContext`. -/
structure PortfolioResourceContext where
  contextId : String
  contextVersion : String
  buyingPowerAvailable : Option ℚ
  optionsBuyingPowerAvailable : Option ℚ
  cashAvailable : Option ℚ
  portfolioCapacityAvailable : Option ℚ
  maxUnderlyingExposure : Option ℚ
  existingPositions : List PortfolioExposure
  openOrders : List PortfolioOrderExposure
  pendingCommitments : List PortfolioExposure
  /-- A lane without an entry is unlimited, one with an unknown value is unavailable. -/
  laneCapacityAvailable : WorkstreamLane → Option (Option ℚ)
  accountSnapshotAsOf : Option Time
  positionSnapshotAsOf : Option Time
  openOrderSnapshotAsOf : Option Time

/-- `PortfolioArbitrationDecision`, without the text of the tie break. -/
structure PortfolioArbitrationDecision where
  arbitrationId : String
  cycleId : String
  proposalId : String
  lane : WorkstreamLane
  rank : Nat
  action : PortfolioArbitrationAction
  originalQuantity : Option ℚ
  approvedQuantity : Option ℚ
  originalNotional : Option ℚ
  approvedNotional : Option ℚ
  originalResourceRequirement : Option ℚ
  approvedResourceRequirement : Option ℚ
  score : Option ℚ
  confidence : Option ℚ
  strategyPriority : ℚ
  conflictTypes : List String
  reasonCodes : List String
  relatedProposalIds : List String
  relatedPositionIds : List String
  relatedOpenOrderIds : List String
  sharedContextVersion : String
  accountSnapshotAsOf : Option Time
  positionSnapshotAsOf : Option Time
  openOrderSnapshotAsOf : Option Time
deriving DecidableEq

/-- The arguments of an arbitration. -/
structure ArbitrationInput where
  arbitrationId : String
  cycleId : String
  proposals : List PortfolioArbitrationProposal
  context : PortfolioResourceContext

namespace Arbitration

/-! ## Numbers and keys -/

/-- `normalized`. -/
def normalized (value : String) : String := Text.toUpperCase (Text.trim value)

/-- `finiteNonnegative`. -/
def finiteNonnegative (value : Option ℚ) : Option ℚ := value.filter (0 ≤ ·)

/-- `finitePositive`. -/
def finitePositive (value : Option ℚ) : Option ℚ := value.filter (0 < ·)

/-- `Number.EPSILON`. -/
def epsilon : ℚ := 1 / 2 ^ 52

/-- `money`: down to cents. -/
def money (value : ℚ) : ℚ := ⌊(value + epsilon) * 100⌋ / 100

/-- `resourcePrecision`: to the nearest hundred-millionth, halves up. -/
def resourcePrecision (value : ℚ) : ℚ := ⌊(value + epsilon) * 10 ^ 8 + 1 / 2⌋ / 10 ^ 8

/-- `Number.isSafeInteger`. -/
def isSafeInteger (value : ℚ) : Bool := decide (value.den = 1 ∧ |value| ≤ 2 ^ 53 - 1)

/-- `exposureKey` and `contextExposureKey`. -/
def exposureKey (symbol : String) : String := normalized symbol

/-- `a` comes no later than `b` in descending order; an unknown number is below all others. -/
def scoreBefore (a b : Option ℚ) : Ordering :=
  match a, b with
  | some x, some y => compare y x
  | some _, none => .lt
  | none, some _ => .gt
  | none, none => .eq

/-- The comparison of `ranked`. -/
def compareProposals (left right : PortfolioArbitrationProposal) : Ordering :=
  (compare left.strategyPriority right.strategyPriority).then <|
  (scoreBefore left.score right.score).then <|
  (scoreBefore left.confidence right.confidence).then <|
  (compare (normalized left.symbol) (normalized right.symbol)).then <|
  (compare (normalized (left.contractId.getD "")) (normalized (right.contractId.getD ""))).then <|
  compare left.proposalId right.proposalId

/-- `ranked`: a stable sort. -/
def ranked (proposals : List PortfolioArbitrationProposal) : List PortfolioArbitrationProposal :=
  proposals.insertionSort fun a b ↦ compareProposals a b ≠ .gt

/-- `validSizing`: the requirement and the unit, when they fit the requested quantity. -/
def validSizing (proposal : PortfolioArbitrationProposal) : Option (ℚ × ℚ) := do
  let requirement ← finitePositive proposal.resourceRequirement
  let unit ← finitePositive proposal.unitResource
  if proposal.resizeMode = .notional ∨ proposal.requestedQuantity.any (fun q ↦
      isSafeInteger q ∧ 1 ≤ q ∧ resourcePrecision (q * unit) = resourcePrecision requirement) then
    some (requirement, unit)
  else none

/-- `sizedResource`: the resource within the available amount, and its units. -/
def sizedResource (mode : PortfolioArbitrationResizeMode) (requested unit available : ℚ) :
    ℚ × Option ℚ :=
  let bounded := min requested (max 0 available)
  match mode with
  | .notional =>
    let amount := money bounded
    (if unit ≤ amount then amount else 0, none)
  | _ =>
    let units : ℚ := ⌊(bounded + epsilon) / unit⌋
    (if 1 ≤ units then resourcePrecision (units * unit) else 0, some units)

/-! ## The walk -/

/-- What is left while the proposals are decided. -/
structure Remaining where
  buyingPower : Option ℚ
  optionsBuyingPower : Option ℚ
  cash : Option ℚ
  portfolio : Option ℚ
  lane : WorkstreamLane → Option (Option ℚ)
  /-- `underlyingExposure`, zero where the map has no entry. -/
  underlying : String → ℚ
  /-- `unknownUnderlyingExposure`. -/
  unknown : String → Bool
  /-- `approvals`, oldest first. -/
  approvals : List PortfolioArbitrationProposal

/-- `addUnderlyingExposure`. -/
def Remaining.addUnderlyingExposure (s : Remaining) (underlyingSymbol : String)
    (value : Option ℚ) : Remaining :=
  let key := normalized underlyingSymbol
  match finiteNonnegative value with
  | none => { s with unknown := fun k ↦ decide (k = key) || s.unknown k }
  | some exposure =>
    { s with underlying := fun k ↦
        if k = key then resourcePrecision (s.underlying key + exposure) else s.underlying k }

/-- `currentOrders`: the open orders that are active. -/
def currentOrders (context : PortfolioResourceContext) : List PortfolioOrderExposure :=
  context.openOrders.filter fun order ↦ isActiveBrokerOrderStatus order.status

/-- What is there before the first proposal. -/
def start (context : PortfolioResourceContext) : Remaining :=
  let empty : Remaining :=
    { buyingPower := finiteNonnegative context.buyingPowerAvailable
      optionsBuyingPower := finiteNonnegative context.optionsBuyingPowerAvailable
      cash := finiteNonnegative context.cashAvailable
      portfolio := finiteNonnegative context.portfolioCapacityAvailable
      lane := fun lane ↦ (context.laneCapacityAvailable lane).map finiteNonnegative
      underlying := fun _ ↦ 0
      unknown := fun _ ↦ false
      approvals := [] }
  let exposures := context.existingPositions ++
    (currentOrders context).map (·.toPortfolioExposure) ++ context.pendingCommitments
  exposures.foldl (fun s e ↦ s.addUnderlyingExposure e.underlyingSymbol e.resourceExposure) empty

/-- Why a proposal is skipped. -/
structure SkipDetails where
  conflictTypes : List String := []
  reasonCodes : List String
  relatedProposalIds : List String := []
  relatedPositionIds : List String := []
  relatedOpenOrderIds : List String := []

/-- The decision without its verdict: `decisionBase`. -/
def decisionBase (input : ArbitrationInput) (proposal : PortfolioArbitrationProposal)
    (rank : Nat) (action : PortfolioArbitrationAction) (details : SkipDetails) :
    PortfolioArbitrationDecision where
  arbitrationId := input.arbitrationId
  cycleId := input.cycleId
  proposalId := proposal.proposalId
  lane := proposal.lane
  rank
  action
  originalQuantity := proposal.requestedQuantity
  approvedQuantity := none
  originalNotional := proposal.requestedNotional
  approvedNotional := none
  originalResourceRequirement := proposal.resourceRequirement
  approvedResourceRequirement := none
  score := proposal.score
  confidence := proposal.confidence
  strategyPriority := proposal.strategyPriority
  conflictTypes := details.conflictTypes
  reasonCodes := details.reasonCodes
  relatedProposalIds := details.relatedProposalIds
  relatedPositionIds := details.relatedPositionIds
  relatedOpenOrderIds := details.relatedOpenOrderIds
  sharedContextVersion := input.context.contextVersion
  accountSnapshotAsOf := input.context.accountSnapshotAsOf
  positionSnapshotAsOf := input.context.positionSnapshotAsOf
  openOrderSnapshotAsOf := input.context.openOrderSnapshotAsOf

/-- `skippedDecision`. -/
def skippedDecision (input : ArbitrationInput) (proposal : PortfolioArbitrationProposal)
    (rank : Nat) (details : SkipDetails) : PortfolioArbitrationDecision :=
  decisionBase input proposal rank .skip details

/-- `ids.sort()`. -/
def sortedIds (ids : List String) : List String := ids.insertionSort (· ≤ ·)

/-- The exposures to the symbol of a proposal. -/
def exposedTo (proposal : PortfolioArbitrationProposal) (exposures : List PortfolioExposure) :
    List PortfolioExposure :=
  exposures.filter fun e ↦ exposureKey e.symbol = exposureKey proposal.symbol

/-- The conflict checks, in the order of the source. -/
def conflict? (context : PortfolioResourceContext) (approvals : List PortfolioArbitrationProposal)
    (proposal : PortfolioArbitrationProposal) : Option SkipDetails :=
  let opposing (exposures : List PortfolioExposure) (yes no : String) : String :=
    if exposures.any (·.direction ≠ proposal.direction) then yes else no
  let positions := exposedTo proposal context.existingPositions
  let orders := exposedTo proposal ((currentOrders context).map (·.toPortfolioExposure))
  let commitments := exposedTo proposal context.pendingCommitments
  if positions ≠ [] then some
    { conflictTypes := ["EXISTING_POSITION",
        opposing positions "OPPOSING_EXISTING_POSITION" "DUPLICATE_EXISTING_POSITION"]
      reasonCodes := ["ARBITRATION_SKIPPED_SYMBOL_EXPOSURE"]
      relatedPositionIds := sortedIds (positions.map (·.id)) }
  else if orders ≠ [] then some
    { conflictTypes := ["EXISTING_OPEN_ORDER",
        opposing orders "OPPOSING_EXISTING_OPEN_ORDER" "DUPLICATE_EXISTING_OPEN_ORDER"]
      reasonCodes := ["ARBITRATION_SKIPPED_EXISTING_OPEN_ORDER"]
      relatedOpenOrderIds := sortedIds (orders.map (·.id)) }
  else if commitments ≠ [] then some
    { conflictTypes := ["EXISTING_PENDING_COMMITMENT",
        opposing commitments "OPPOSING_PENDING_COMMITMENT" "DUPLICATE_PENDING_COMMITMENT"]
      reasonCodes := ["ARBITRATION_SKIPPED_SYMBOL_EXPOSURE"] }
  else match approvals.find? fun p ↦ exposureKey p.symbol = exposureKey proposal.symbol with
    | none => none
    | some prior =>
      if prior.direction ≠ proposal.direction then some
        { conflictTypes := ["OPPOSING_PROPOSAL"]
          reasonCodes := ["ARBITRATION_SKIPPED_OPPOSING_PROPOSAL"]
          relatedProposalIds := [prior.proposalId] }
      else some
        { conflictTypes := ["DUPLICATE_PROPOSAL"]
          reasonCodes := ["ARBITRATION_SKIPPED_DUPLICATE_PROPOSAL"]
          relatedProposalIds := [prior.proposalId] }

/-- The amounts a proposal may draw on; a missing lane or options amount is no limit. -/
structure Limits where
  buyingPower : ℚ
  cash : ℚ
  portfolio : ℚ
  options : Option ℚ
  lane : Option ℚ

/-- The known limits of a proposal, unless one of them is unavailable. -/
def limits? (s : Remaining) (proposal : PortfolioArbitrationProposal) : Option Limits := do
  let buyingPower ← s.buyingPower
  let cash ← s.cash
  let portfolio ← s.portfolio
  let options ← if proposal.assetClass = .option then s.optionsBuyingPower.map some else some none
  let lane ← match s.lane proposal.lane with
    | none => some none
    | some capacity => capacity.map some
  return { buyingPower, cash, portfolio, options, lane }

/-- Which limits are below the requirement: `limited`. -/
structure Limited where
  buyingPower : Bool
  cash : Bool
  portfolio : Bool
  lane : Bool
  underlying : Bool
deriving DecidableEq

/-- `reasonForUnavailableCapacity`. -/
def reasonForUnavailableCapacity (d : Limited) : List String :=
  ((if d.buyingPower then ["ARBITRATION_SKIPPED_INSUFFICIENT_BUYING_POWER"] else []) ++
    (if d.cash then ["ARBITRATION_SKIPPED_INSUFFICIENT_CASH"] else []) ++
    (if d.portfolio then ["ARBITRATION_SKIPPED_PORTFOLIO_LIMIT"] else []) ++
    (if d.lane then ["ARBITRATION_SKIPPED_PORTFOLIO_LIMIT"] else []) ++
    (if d.underlying then ["ARBITRATION_SKIPPED_UNDERLYING_EXPOSURE"] else [])).eraseDups

/-- `resizeReasons`. -/
def resizeReasons (d : Limited) : List String :=
  let reasons := (if d.buyingPower then ["ARBITRATION_RESIZED_BUYING_POWER"] else []) ++
    (if d.cash then ["ARBITRATION_RESIZED_CASH_LIMIT"] else []) ++
    (if d.portfolio then ["ARBITRATION_RESIZED_PORTFOLIO_LIMIT"] else []) ++
    (if d.lane then ["ARBITRATION_RESIZED_LANE_LIMIT"] else []) ++
    (if d.underlying then ["ARBITRATION_RESIZED_UNDERLYING_EXPOSURE"] else [])
  if reasons = [] then ["ARBITRATION_RESIZED_PORTFOLIO_LIMIT"] else reasons

/-- The constrained dimensions, as a resize records them. -/
def Limited.dimensions (d : Limited) : List String :=
  (if d.buyingPower then ["BUYINGPOWER"] else []) ++ (if d.cash then ["CASH"] else []) ++
  (if d.portfolio then ["PORTFOLIO"] else []) ++ (if d.lane then ["LANE"] else []) ++
  (if d.underlying then ["UNDERLYING"] else [])

/-- What the remaining exposure to the underlying allows; `none` is no limit. -/
def underlyingRemaining (context : PortfolioResourceContext) (s : Remaining)
    (proposal : PortfolioArbitrationProposal) : Option ℚ :=
  (finiteNonnegative context.maxUnderlyingExposure).map fun limit ↦
    max 0 (limit - s.underlying (normalized proposal.underlyingSymbol))

/-- `available`: the least of the limits. -/
def available (l : Limits) (underlying : Option ℚ) : ℚ :=
  ([l.cash, l.portfolio] ++ l.lane.toList ++ underlying.toList ++ l.options.toList).foldl min
    l.buyingPower

/-- The limits below a requirement. -/
def limited (l : Limits) (underlying : Option ℚ) (requirement : ℚ) : Limited where
  buyingPower := decide (l.buyingPower < requirement) || l.options.any (· < requirement)
  cash := decide (l.cash < requirement)
  portfolio := decide (l.portfolio < requirement)
  lane := l.lane.any (· < requirement)
  underlying := underlying.any (· < requirement)

/-- The decision about a proposal without conflicts, and the resource it approves. -/
def size (input : ArbitrationInput) (s : Remaining) (rank : Nat)
    (proposal : PortfolioArbitrationProposal) (requirement unit : ℚ) (l : Limits) :
    PortfolioArbitrationDecision × Option ℚ :=
  let underlying := underlyingRemaining input.context s proposal
  let constrained := limited l underlying requirement
  let (resource, units) := sizedResource proposal.resizeMode requirement unit
    (available l underlying)
  if resource ≤ 0 then
    (skippedDecision input proposal rank
      { conflictTypes :=
          [if constrained.underlying then "UNDERLYING_EXPOSURE_LIMIT"
            else "SHARED_RESOURCE_CAPACITY"]
        reasonCodes := reasonForUnavailableCapacity constrained ++
          ["ARBITRATION_SKIPPED_NO_VALID_RESIZE"] }, none)
  else
    let resized := decide (resourcePrecision resource < resourcePrecision requirement)
    let base := decisionBase input proposal rank (if resized then .resize else .approve)
      { conflictTypes := if resized then constrained.dimensions else []
        reasonCodes :=
          if resized then resizeReasons constrained
          else ["ARBITRATION_APPROVED", "ARBITRATION_APPROVED_WITHIN_BUYING_POWER"] ++
            if (finiteNonnegative input.context.maxUnderlyingExposure).isSome then
              ["ARBITRATION_APPROVED_WITHIN_EXPOSURE_LIMIT"]
            else [] }
    ({ base with
        approvedQuantity :=
          if proposal.resizeMode = .notional then proposal.requestedQuantity else units
        approvedNotional := some resource
        approvedResourceRequirement := some resource }, some resource)

/-- The loop body: the decision about one proposal, and the resource it approves. -/
def decideProposal (input : ArbitrationInput) (s : Remaining) (rank : Nat)
    (proposal : PortfolioArbitrationProposal) : PortfolioArbitrationDecision × Option ℚ :=
  let unavailable : SkipDetails :=
    { reasonCodes := ["ARBITRATION_SKIPPED_RESOURCE_REQUIREMENT_UNAVAILABLE"] }
  match validSizing proposal with
  | none => (skippedDecision input proposal rank unavailable, none)
  | some (requirement, unit) =>
    match conflict? input.context s.approvals proposal with
    | some details => (skippedDecision input proposal rank details, none)
    | none =>
      match limits? s proposal with
      | none => (skippedDecision input proposal rank unavailable, none)
      | some l =>
        let key := normalized proposal.underlyingSymbol
        if (finiteNonnegative input.context.maxUnderlyingExposure).isSome ∧ s.unknown key then
          let unknown (exposures : List PortfolioExposure) : List String :=
            sortedIds ((exposures.filter fun e ↦ normalized e.underlyingSymbol = key ∧
              finiteNonnegative e.resourceExposure = none).map (·.id))
          (skippedDecision input proposal rank
            { unavailable with
              conflictTypes := ["UNDERLYING_EXPOSURE_UNAVAILABLE"]
              relatedPositionIds := unknown input.context.existingPositions
              relatedOpenOrderIds :=
                unknown ((currentOrders input.context).map (·.toPortfolioExposure)) }, none)
        else size input s rank proposal requirement unit l

/-- What is left after an approval. -/
def Remaining.spend (s : Remaining) (proposal : PortfolioArbitrationProposal) (resource : ℚ) :
    Remaining :=
  let draw (amount : ℚ) : ℚ := money (amount - resource)
  let s' : Remaining :=
    { s with
      buyingPower := s.buyingPower.map draw
      optionsBuyingPower :=
        if proposal.assetClass = .option then s.optionsBuyingPower.map draw
        else s.optionsBuyingPower
      cash := s.cash.map draw
      portfolio := s.portfolio.map draw
      lane := fun lane ↦
        if lane = proposal.lane then (s.lane lane).map (·.map draw) else s.lane lane
      approvals := s.approvals ++ [proposal] }
  s'.addUnderlyingExposure proposal.underlyingSymbol (some resource)

/-- The loop, with the proposal each decision is about. -/
def walk (input : ArbitrationInput) :
    Remaining → Nat → List PortfolioArbitrationProposal →
      List (PortfolioArbitrationProposal × PortfolioArbitrationDecision)
  | _, _, [] => []
  | s, rank, proposal :: rest =>
    let (decision, approved) := decideProposal input s rank proposal
    let s' := match approved with
      | none => s
      | some resource => s.spend proposal resource
    (proposal, decision) :: walk input s' (rank + 1) rest

/-- The decisions with their proposals. -/
def decided (input : ArbitrationInput) :
    List (PortfolioArbitrationProposal × PortfolioArbitrationDecision) :=
  walk input (start input.context) 1 (ranked input.proposals)

/-! ## Approvals conflict with nothing -/

section Conflicts

variable {input : ArbitrationInput} {context : PortfolioResourceContext} {s : Remaining}
  {proposal : PortfolioArbitrationProposal}

/-- Nothing in the context is exposed to the symbol of the proposal. -/
structure Free (context : PortfolioResourceContext) (proposal : PortfolioArbitrationProposal) :
    Prop where
  positions : ∀ e ∈ context.existingPositions,
    exposureKey e.symbol ≠ exposureKey proposal.symbol
  orders : ∀ e ∈ context.openOrders, isActiveBrokerOrderStatus e.status →
    exposureKey e.symbol ≠ exposureKey proposal.symbol
  commitments : ∀ e ∈ context.pendingCommitments,
    exposureKey e.symbol ≠ exposureKey proposal.symbol

theorem exposedTo_eq_nil {exposures : List PortfolioExposure} :
    exposedTo proposal exposures = [] ↔
      ∀ e ∈ exposures, exposureKey e.symbol ≠ exposureKey proposal.symbol := by
  simp [exposedTo]

theorem conflict?_eq_none {approvals : List PortfolioArbitrationProposal}
    (h : conflict? context approvals proposal = none) :
    Free context proposal ∧
      ∀ q ∈ approvals, exposureKey q.symbol ≠ exposureKey proposal.symbol := by
  unfold conflict? at h
  dsimp only at h
  split at h
  · cases h
  · next hpositions =>
    split at h
    · cases h
    · next horders =>
      split at h
      · cases h
      · next hcommitments =>
        rw [not_not, exposedTo_eq_nil] at hpositions horders hcommitments
        refine ⟨⟨hpositions, fun e he hactive ↦ ?_, hcommitments⟩, ?_⟩
        · refine horders e.toPortfolioExposure (List.mem_map_of_mem ?_)
          exact List.mem_filter.2 ⟨he, hactive⟩
        · split at h
          · next hfind => simpa using hfind
          · split at h <;> cases h

/-- A decision other than a skip has passed the conflict checks, and approves a resource. -/
theorem decideProposal_approved {rank : Nat}
    (h : (decideProposal input s rank proposal).1.action ≠ .skip) :
    conflict? input.context s.approvals proposal = none ∧
      ∃ resource, (decideProposal input s rank proposal).2 = some resource := by
  unfold decideProposal at h ⊢
  split at h
  · exact absurd rfl h
  · split at h
    · exact absurd rfl h
    · next hconflict =>
      refine ⟨hconflict, ?_⟩
      split at h
      · exact absurd rfl h
      · dsimp only at h ⊢
        split at h
        · exact absurd rfl h
        · next hunknown =>
          rw [if_neg hunknown]
          unfold size at h ⊢
          dsimp only at h ⊢
          split at h
          · exact absurd rfl h
          · next hpos =>
            rw [if_neg hpos]
            exact ⟨_, rfl⟩

theorem addUnderlyingExposure_approvals (underlyingSymbol : String) (value : Option ℚ) :
    (s.addUnderlyingExposure underlyingSymbol value).approvals = s.approvals := by
  unfold Remaining.addUnderlyingExposure
  dsimp only
  split <;> rfl

theorem spend_approvals (resource : ℚ) :
    (s.spend proposal resource).approvals = s.approvals ++ [proposal] := by
  unfold Remaining.spend
  rw [addUnderlyingExposure_approvals]

/-- What the walk approves is free, differs from what was approved before and within itself. -/
theorem walk_approved (rank : Nat) (proposals : List PortfolioArbitrationProposal) :
    (∀ x ∈ walk input s rank proposals, x.2.action ≠ .skip → Free input.context x.1 ∧
      ∀ q ∈ s.approvals, exposureKey q.symbol ≠ exposureKey x.1.symbol) ∧
    (walk input s rank proposals).Pairwise fun a b ↦ a.2.action ≠ .skip → b.2.action ≠ .skip →
      exposureKey a.1.symbol ≠ exposureKey b.1.symbol := by
  -- Induction over the proposals; the approvals of the state grow along the walk.
  induction proposals generalizing s rank with
  | nil => exact ⟨by simp [walk], List.Pairwise.nil⟩
  | cons p rest ih =>
    unfold walk
    dsimp only
    have hgrow : ∀ q ∈ s.approvals, q ∈ (match (decideProposal input s rank p).2 with
        | none => s
        | some resource => s.spend p resource).approvals := by
      intro q hq
      split
      · exact hq
      · rw [spend_approvals]
        exact List.mem_append_left _ hq
    refine ⟨fun x hx happroved ↦ ?_, List.pairwise_cons.2 ⟨fun b hb ha hb' ↦ ?_, (ih _).2⟩⟩
    · rcases List.mem_cons.1 hx with rfl | hx
      · exact conflict?_eq_none (decideProposal_approved happroved).1
      · obtain ⟨hfree, hother⟩ := (ih _).1 x hx happroved
        exact ⟨hfree, fun q hq ↦ hother q (hgrow q hq)⟩
    · obtain ⟨_, resource, hresource⟩ := decideProposal_approved ha
      refine ((ih _).1 b hb hb').2 p ?_
      rw [hresource, spend_approvals]
      exact List.mem_append_right _ List.mem_cons_self

/-- **Approvals are free of conflicts.** -/
theorem approved_free {x : PortfolioArbitrationProposal × PortfolioArbitrationDecision}
    (hx : x ∈ decided input) (happroved : x.2.action ≠ .skip) : Free input.context x.1 :=
  ((walk_approved 1 (ranked input.proposals)).1 x hx happroved).1

/-- **Approvals have different symbols.** -/
theorem approved_distinct : (decided input).Pairwise fun a b ↦ a.2.action ≠ .skip →
    b.2.action ≠ .skip → exposureKey a.1.symbol ≠ exposureKey b.1.symbol :=
  (walk_approved 1 (ranked input.proposals)).2

theorem size_id (rank : Nat) (requirement unit : ℚ) (l : Limits) :
    (size input s rank proposal requirement unit l).1.proposalId = proposal.proposalId := by
  unfold size
  dsimp only
  rw [apply_ite Prod.fst, apply_ite PortfolioArbitrationDecision.proposalId]
  exact ite_self _

/-- A decision carries the identifier of its proposal. -/
theorem decideProposal_id (rank : Nat) :
    (decideProposal input s rank proposal).1.proposalId = proposal.proposalId := by
  unfold decideProposal
  split
  · rfl
  · split
    · rfl
    · split
      · rfl
      · dsimp only
        split
        · rfl
        · exact size_id rank _ _ _

theorem walk_map_fst (rank : Nat) (proposals : List PortfolioArbitrationProposal) :
    (walk input s rank proposals).map Prod.fst = proposals := by
  induction proposals generalizing s rank with
  | nil => rfl
  | cons p rest ih =>
    unfold walk
    rw [List.map_cons, ih]

theorem walk_id (rank : Nat) (proposals : List PortfolioArbitrationProposal) :
    ∀ x ∈ walk input s rank proposals, x.2.proposalId = x.1.proposalId := by
  induction proposals generalizing s rank with
  | nil => simp [walk]
  | cons p rest ih =>
    intro x hx
    unfold walk at hx
    rcases List.mem_cons.1 hx with rfl | hx
    · exact decideProposal_id rank
    · exact ih (rank + 1) x hx

/-- Every proposal is decided, once. -/
theorem decided_perm : ((decided input).map Prod.fst).Perm input.proposals := by
  unfold decided ranked
  rw [walk_map_fst]
  exact List.perm_insertionSort _ _

end Conflicts

end Arbitration

/-- `PortfolioArbitrationResult`. -/
structure PortfolioArbitrationResult where
  arbitrationId : String
  cycleId : String
  contextId : String
  contextVersion : String
  decisions : List PortfolioArbitrationDecision
  approvedResourceTotal : ℚ

/-- `arbitratePortfolioResources`. -/
def arbitratePortfolioResources (input : ArbitrationInput) :
    Except String PortfolioArbitrationResult := do
  require (input.proposals.all (·.cycleId = input.cycleId)) "PORTFOLIO_ARBITRATION_CYCLE_MISMATCH"
  let decisions := (Arbitration.decided input).map Prod.snd
  return {
    arbitrationId := input.arbitrationId
    cycleId := input.cycleId
    contextId := input.context.contextId
    contextVersion := input.context.contextVersion
    decisions
    approvedResourceTotal := Arbitration.resourcePrecision
      ((decisions.map fun d ↦ d.approvedResourceRequirement.getD 0).sum) }

end AlpacaTrading
