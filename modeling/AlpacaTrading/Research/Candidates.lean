import Mathlib.Data.List.Sort
import AlpacaTrading.Market.Option
import AlpacaTrading.Review.Arbitrator
import AlpacaTrading.Store.Effect

/-!
# Research decisions

The last step of a research run, `persistCandidates`: every target is evaluated and scored, the
best eligible ones are selected over all strategy families at once, and the decisions are stored
as candidates.  Storing is the work of the lanes, one family each; a family without a lane of its
own is stored after them.

A lane that fails is recorded and does not end the run.  The influence of the research signals on a
score comes from another service and is an argument here, and so is the LEAPS policy, which is read
from the environment.
-/

namespace AlpacaTrading

/-! ## Targets -/

/-- `PreferredExpression`. -/
inductive PreferredExpression where
  | shares | longCall | longPut | callSpread | putSpread | coveredCall | cashSecuredPut
  | protectivePut | collar | none
deriving DecidableEq, Repr

/-- `RiskProfile`. -/
inductive RiskProfile where
  | conservative | moderate | aggressive
deriving DecidableEq, Repr

/-- The option a strategy proposes; a field that is not a text is missing. -/
structure OptionsCandidate where
  type : Option OptionType := .none
  optionSymbol : Option String := .none
  expirationDate : Option String := .none
  liquidityScore : Option ℚ := .none
deriving DecidableEq

/-- A generated target. -/
structure ResearchTarget where
  symbol : String
  sourceFingerprint : String
  asOf : Time
  direction : CandidateDirection
  entryReference : ℚ := 0
  stopLoss : Option ℚ := .none
  takeProfit : Option ℚ := .none
  riskProfile : RiskProfile := .moderate
  preferredExpression : PreferredExpression
  confidence : ℚ
  expectedReturn : Option ℚ := .none
  volatilityAdjustedScore : Option ℚ := .none
  optionsCandidate : Option OptionsCandidate := .none
deriving DecidableEq

/-- `executableOption`. -/
def executableOption (target : ResearchTarget) : Option OptionsCandidate :=
  let expectedType : Option OptionType := match target.preferredExpression with
    | .longCall => some .call
    | .longPut => some .put
    | _ => none
  target.optionsCandidate.filter fun option ↦
    expectedType.isSome && decide (option.type = expectedType) && option.optionSymbol.isSome

/-- `clamp`. -/
def clamp (value lo hi : ℚ) : ℚ := min hi (max lo value)

/-- The total of `scoreTarget`. -/
def scoreTarget (target : ResearchTarget) (now : Time) : ℚ :=
  let ageDays : ℚ := max 0 (((now - target.asOf : ℤ) : ℚ) / 86400000)
  let freshness := clamp (15 - clamp (ageDays * (8 / 10)) 0 15) 0 15
  let liquidity := (target.optionsCandidate.bind (·.liquidityScore)).getD 0
  clamp
    (target.confidence * 42 + clamp (target.expectedReturn.getD 0 * 100) (-10) 20 * (17 / 10) +
      clamp (target.volatilityAdjustedScore.getD 1 * 3) (-4) 8 + freshness +
      (if target.preferredExpression ≠ .shares then clamp (liquidity * 18) 0 18 + 4 else 0) +
      (if target.riskProfile = .aggressive then 6 else 0))
    0 100

/-- `optionDaysToExpiration` of a date text, from the date of an instant in New York.  A day beyond
the end of its month counts into the next one. -/
def daysToExpirationDate (expirationDate : String) (now : Time) : Option ℤ :=
  match expirationDate.toList with
  | [y₁, y₂, y₃, y₄, '-', m₁, m₂, '-', d₁, d₂] => do
    let year ← Text.digits? [y₁, y₂, y₃, y₄]
    let month ← Text.digits? [m₁, m₂]
    let day ← Text.digits? [d₁, d₂]
    let today := newYorkParts now
    if 1 ≤ month ∧ month ≤ 12 ∧ 1 ≤ day ∧ day ≤ 31 then
      some (daysFromCivil year month day - daysFromCivil today.year today.month today.day)
    else none
  | _ => none

/-- `postgresLeapsPolicy`. -/
structure LeapsPolicy where
  minDte : ℤ
  maxDte : ℤ

/-! ## Evaluation -/

/-- The strategy families. -/
inductive StrategyFamily where
  | equity | zeroDteSpy | leaps | standardOption
deriving DecidableEq, Repr

/-- The name of a family in the table. -/
def StrategyFamily.text : StrategyFamily → String
  | equity => "equity"
  | zeroDteSpy => "zero_dte_spy"
  | leaps => "leaps"
  | standardOption => "standard_option"

/-- `researchLaneForStrategyFamily`. -/
def researchLaneForStrategyFamily : StrategyFamily → Option WorkstreamLane
  | .equity => some .equity
  | .zeroDteSpy => some .options0dte
  | .leaps => some .optionsLeaps
  | .standardOption => none

/-- The arguments of `persistCandidates`. -/
structure PersistCandidatesInput where
  researchRunId : String
  optionsEnabled : Bool
  targets : List ResearchTarget
  maxCandidates : Nat
  now : Time
  leapsPolicy : LeapsPolicy
  /-- The score adjustment of `buildLaneResearchInfluence`. -/
  scoreAdjustment : WorkstreamLane → ResearchTarget → ℚ

namespace PersistCandidatesInput

variable (input : PersistCandidatesInput)

/-- What speaks against a target. -/
def reasons (target : ResearchTarget) : List String :=
  (if target.direction = .neutral then ["DIRECTION_THRESHOLD_NOT_MET"] else []) ++
  (if target.preferredExpression = .none then ["STRATEGY_ELIGIBILITY_NOT_MET"] else []) ++
  (if target.preferredExpression ≠ .shares ∧ executableOption target = none then
    ["CURRENT_OPTION_EVIDENCE_REQUIRED"] else [])

/-- The option of a target, as its decision sees it. -/
def optionSymbol (target : ResearchTarget) : Option String :=
  (executableOption target).bind (·.optionSymbol)

/-- The strategy family of a target. -/
def family (target : ResearchTarget) : StrategyFamily :=
  let expirationDate := (executableOption target).bind (·.expirationDate)
  if (optionSymbol target).any (· ≠ "") then
    if target.symbol = "SPY" ∧ expirationDate = some (newYorkTradingDate input.now) then .zeroDteSpy
    else if (expirationDate.bind (daysToExpirationDate · input.now)).any fun days ↦
        input.leapsPolicy.minDte ≤ days ∧ days ≤ input.leapsPolicy.maxDte then .leaps
    else .standardOption
  else .equity

/-- The score of a target with the influence of the research. -/
def score (target : ResearchTarget) : ℚ :=
  clamp (scoreTarget target input.now +
    ((researchLaneForStrategyFamily (input.family target)).map
      (input.scoreAdjustment · target)).getD 0) 0 100

/-- The targets by descending score; ties keep their order. -/
def evaluated : List ResearchTarget :=
  input.targets.insertionSort fun l r ↦ input.score r ≤ input.score l

/-- Nothing speaks against the target. -/
def eligible (target : ResearchTarget) : Bool := reasons target = []

/-- The fingerprints of the selected targets. -/
def selectedKeys : List String :=
  ((input.evaluated.filter eligible).take input.maxCandidates).map (·.sourceFingerprint)

end PersistCandidatesInput

/-- A decision about a target. -/
structure ResearchDecision where
  target : ResearchTarget
  family : StrategyFamily
  score : ℚ
  rank : Nat
  selected : Bool
  reasons : List String
deriving DecidableEq

namespace PersistCandidatesInput

variable (input : PersistCandidatesInput)

/-- The decision about the target at a place of the ranking. -/
def decisionAt (index : Nat) (target : ResearchTarget) : ResearchDecision :=
  let selected := decide (target.sourceFingerprint ∈ input.selectedKeys)
  { target
    family := input.family target
    score := input.score target
    rank := index + 1
    selected
    reasons :=
      if reasons target ≠ [] then reasons target
      else if selected then ["RANKED_SELECTED"] else ["CANDIDATE_LIMIT_EXCEEDED"] }

/-- The decisions in the order of their rank. -/
def decisions : List ResearchDecision := input.evaluated.mapIdx input.decisionAt

end PersistCandidatesInput

/-! ## Storing -/

/-- The check constraints of `candidates` on the columns the decisions write. -/
def Candidate.valid (c : Candidate) : Bool :=
  decide (0 < c.rank) && decide (0 ≤ c.confidence ∧ c.confidence ≤ 1) &&
    decide (Text.btrim c.symbol ≠ "") && c.estimatedMaxLoss.all (0 ≤ ·) &&
    c.estimatedMaxProfit.all (0 ≤ ·)

/-- `INSERT INTO candidates … ON CONFLICT (id) DO NOTHING`, under the fence. -/
def insertCandidate (db : Db) (session : Session) (c : Candidate) : Except String Db :=
  if fenceHeld db session then do
    require c.valid "candidates_check"
    if (db.candidates.get? c.id).isSome then return db
    require (!db.candidates.rows.any fun x ↦ x.researchRunId = c.researchRunId ∧ x.rank = c.rank)
      "candidates_research_run_id_rank_key"
    let candidates ← db.candidates.insertOne c "candidates_pkey"
    return { db with candidates }
  else return db

section Persist

variable [Hashing]

/-- The identifier of the candidate of a target. -/
def researchCandidateId (researchRunId sourceFingerprint : String) : String :=
  "candidate_" ++ Hashing.canonicalJsonHash [("run", researchRunId), ("source", sourceFingerprint)]

/-- The row of a decision. -/
def ResearchDecision.candidate (d : ResearchDecision) (input : PersistCandidatesInput) :
    Candidate where
  id := researchCandidateId input.researchRunId d.target.sourceFingerprint
  researchRunId := input.researchRunId
  rank := d.rank
  symbol := d.target.symbol
  optionSymbol := PersistCandidatesInput.optionSymbol d.target
  assetClass := if (PersistCandidatesInput.optionSymbol d.target).any (· ≠ "") then .option else .equity
  direction := d.target.direction
  strategyFamily := some d.family.text
  score := d.score
  confidence := d.target.confidence
  estimatedMaxLoss := d.target.stopLoss.map fun stop ↦ |d.target.entryReference - stop|
  estimatedMaxProfit := d.target.takeProfit.map fun take ↦ |take - d.target.entryReference|
  asOf := d.target.asOf
  decision := if d.selected then .selected else .rejected
  lifecycleStatus := if d.selected then "selected" else "rejected"
  decisionReason := d.reasons.head?
  updatedAt := input.now

/-- `persistDecisionRows`: the rows in order, up to the first error; the selected targets. -/
def persistDecisionRows (session : Session) (input : PersistCandidatesInput) (db : Db) :
    List ResearchDecision → Db × Except String (List ResearchTarget)
  | [] => (db, .ok [])
  | d :: rest =>
    match insertCandidate db session (d.candidate input) with
    | .error code => (db, .error code)
    | .ok db' =>
      let (db'', proposals) := persistDecisionRows session input db' rest
      (db'', proposals.map fun ts ↦ if d.selected then d.target :: ts else ts)

/-- `WorkstreamOutcome`. -/
inductive WorkstreamOutcome where
  | success | noAction | error
deriving DecidableEq, Repr

/-- `WorkstreamResult`. -/
structure WorkstreamResult where
  lane : WorkstreamLane
  outcome : WorkstreamOutcome
  proposals : List ResearchTarget
deriving DecidableEq

/-- `INVESTMENT_LANE_FAMILIES`. -/
def investmentLaneFamilies : List (WorkstreamLane × StrategyFamily) :=
  [(.equity, .equity), (.options0dte, .zeroDteSpy), (.optionsLeaps, .leaps)]

/-- `investmentLaneEnabled`. -/
def investmentLaneEnabled (lane : WorkstreamLane) (optionsEnabled : Bool) : Bool :=
  decide (lane = .equity) || optionsEnabled

/-- The result of a lane: what it stored, or that it failed. -/
def laneResult (lane : WorkstreamLane) : Except String (List ResearchTarget) → WorkstreamResult
  | .error _ => { lane, outcome := .error, proposals := [] }
  | .ok proposals =>
    { lane, outcome := if proposals = [] then .noAction else .success, proposals }

/-- `executeWorkstreamLanes`: the enabled lanes one after the other, whatever becomes of each. -/
def executeWorkstreamLanes (session : Session) (input : PersistCandidatesInput) (db : Db) :
    List (WorkstreamLane × StrategyFamily) → Db × List WorkstreamResult
  | [] => (db, [])
  | (lane, family) :: rest =>
    let (db', evaluated) := persistDecisionRows session input db
      (input.decisions.filter (·.family = family))
    let (db'', results) := executeWorkstreamLanes session input db' rest
    (db'', laneResult lane evaluated :: results)

/-- The result of `persistCandidates`. -/
structure PersistCandidatesResult where
  selected : Nat
  rejected : Nat
  workstreamResults : List WorkstreamResult
deriving DecidableEq

/-- The lanes that run. -/
def PersistCandidatesInput.enabledLanes (input : PersistCandidatesInput) :
    List (WorkstreamLane × StrategyFamily) :=
  investmentLaneFamilies.filter fun (lane, _) ↦ investmentLaneEnabled lane input.optionsEnabled

/-- `persistCandidates`. -/
def persistCandidates (db : Db) (session : Session) (input : PersistCandidatesInput) :
    Db × Except String PersistCandidatesResult :=
  let selectedCount := input.decisions.countP (·.selected)
  let (db', workstreamResults) := executeWorkstreamLanes session input db input.enabledLanes
  let proposals := workstreamResults.flatMap fun r ↦
    if r.outcome = .success then r.proposals else []
  let (db'', standard) := persistDecisionRows session input db'
    (input.decisions.filter (·.family = .standardOption))
  (db'', standard.map fun standardProposals ↦
    { selected := proposals.length + standardProposals.length
      rejected := input.decisions.length - selectedCount
      workstreamResults })

end Persist

end AlpacaTrading
