import Mathlib.Data.Int.ConditionallyCompleteOrder
import Mathlib.Order.WithBot
import AlpacaTrading.Learning.OutcomeRecord
import AlpacaTrading.Lib.Extended
import AlpacaTrading.Lib.Grouping
import AlpacaTrading.Lib.Ranking
import AlpacaTrading.Lib.Rounding
import AlpacaTrading.Lib.Run
import AlpacaTrading.Lib.Table

/-!
# Learning governance

`applyPaperLearningGovernance` turns evaluated learning records into decisions about strategy
families and symbols.  It scans a window of the latest records of each family, decides each family
and each of the symbols with the latest records, and writes the decisions that differ from the
current ones.

## Windows

The scan is one list, family after family, each from its newest record down.  So the first record of
a symbol in the list is its newest in the first family that has it, and not always its newest.

## Runs

A run reads before its transaction and writes in it.  Where it fails is part of the call, and so are
the clock readings and the identifiers it draws.
-/

namespace AlpacaTrading

namespace LearningGovernance

/-! ## Policy -/

/-- `PaperLearningGovernanceState`. -/
inductive GovernanceState where
  | observe | prioritized | suspended
deriving DecidableEq, Repr

/-- `PaperLearningGovernanceScope`. -/
inductive ScopeType where
  | strategyFamily | symbol
deriving DecidableEq, Repr

/-- `ScopePolicy`. -/
structure ScopePolicy where
  minEvaluatedTrades : ℕ
  minObservedDays : ℕ
  prioritizeProfitFactor : ℚ
  suspendProfitFactor : ℚ
  priorityMultiplier : ℚ
deriving DecidableEq, Repr

/-- `PaperLearningGovernancePolicy`. -/
structure Policy where
  configVersion : String
  maxRecordsPerStrategy : ℕ
  maxSymbolScopes : ℕ
  strategyPolicies : List (String × ScopePolicy)
  symbolPolicy : ScopePolicy

/-- `policy`. -/
def policy : Policy where
  configVersion := "paper-learning-governance-v1"
  maxRecordsPerStrategy := 250
  maxSymbolScopes := 100
  strategyPolicies := [
    ("equity", ⟨50, 20, 105 / 100, 8 / 10, 112 / 100⟩),
    ("standard_option", ⟨50, 20, 105 / 100, 8 / 10, 112 / 100⟩),
    ("zero_dte_spy", ⟨100, 20, 105 / 100, 8 / 10, 112 / 100⟩),
    ("leaps", ⟨25, 30, 105 / 100, 8 / 10, 112 / 100⟩)]
  symbolPolicy := ⟨50, 20, 105 / 100, 8 / 10, 108 / 100⟩

/-! ## Records -/

/-- `LearningRecordRow`, with what `parseLiveLikePnl` finds in its outcome. -/
structure LearningRecordRow where
  strategyFamily : String
  symbol : String
  createdAt : Time
  learningStatus : String
  pnlLiveLike : Option ℚ
deriving DecidableEq, Repr

/-- `ScannedLearningRecord`. -/
structure ScannedLearningRecord where
  strategyFamily : String
  symbol : String
  createdAt : Time
  pnlLiveLike : Option ℚ
deriving DecidableEq, Repr

/-- `normalizeStrategyFamily`. -/
def normalizeStrategyFamily (value : String) : String := Text.toLowerCase (Text.trim value)

/-- `normalizeSymbol`. -/
def normalizeSymbol (value : String) : String := Text.toUpperCase (Text.trim value)

/-- The latest evaluated records of a family. -/
def latestOf (p : Policy) (records : List LearningRecordRow) (strategyFamily : String) :
    List LearningRecordRow :=
  ((records.filter fun r ↦ r.learningStatus = "evaluated" ∧ r.strategyFamily = strategyFamily)
    |>.insertionSort fun a b ↦ b.createdAt ≤ a.createdAt).take p.maxRecordsPerStrategy

/-- `scanEvaluatedLearningRecords`. -/
def scanEvaluatedLearningRecords (p : Policy) (records : List LearningRecordRow) :
    List ScannedLearningRecord :=
  p.strategyPolicies.flatMap fun entry ↦ (latestOf p records entry.1).map fun row ↦
    { strategyFamily := normalizeStrategyFamily row.strategyFamily
      symbol := normalizeSymbol row.symbol
      createdAt := row.createdAt
      pnlLiveLike := row.pnlLiveLike }

/-! ## Evidence -/

/-- `round`. -/
def round (value : ℚ) : ℚ := Rounding.nearest 10000 0 value

/-- The day of a time. -/
def dayOf (t : Time) : ℤ := t / 86400000

/-- `EvidenceMetrics`. -/
structure EvidenceMetrics where
  scannedRecords : ℕ
  evaluatedTrades : ℕ
  invalidOutcomeRecords : ℕ
  observedTradingDays : ℕ
  grossProfitLiveLike : ℚ
  grossLossLiveLike : ℚ
  netPnlLiveLike : ℚ
  profitFactorLiveLike : ExtendedNumber
  maxDrawdownLiveLike : ℚ
  latestRecordAt : Option Time

/-- The running result, its peak and the deepest fall below the peak, after one more record. -/
def drawdownStep (totals : ℚ × ℚ × ℚ) (pnl : ℚ) : ℚ × ℚ × ℚ :=
  let runningPnl := totals.1 + pnl
  let peakPnl := Max.max totals.2.1 runningPnl
  (runningPnl, peakPnl, Min.min totals.2.2 (runningPnl - peakPnl))

/-- `evidenceMetrics`. -/
def evidenceMetrics (records : List ScannedLearningRecord) : EvidenceMetrics :=
  let valid := (records.filterMap fun r ↦ r.pnlLiveLike.map fun pnl ↦ (r.createdAt, pnl))
    |>.insertionSort fun a b ↦ a.1 ≤ b.1
  let grossProfitLiveLike := (valid.map fun r ↦ Max.max r.2 0).sum
  let grossLossLiveLike := (valid.map fun r ↦ |Min.min r.2 0|).sum
  { scannedRecords := records.length
    evaluatedTrades := valid.length
    invalidOutcomeRecords := records.length - valid.length
    observedTradingDays := (valid.map fun r ↦ dayOf r.1).dedup.length
    grossProfitLiveLike := round grossProfitLiveLike
    grossLossLiveLike := round grossLossLiveLike
    netPnlLiveLike := round (valid.map (·.2)).sum
    profitFactorLiveLike :=
      if 0 < grossLossLiveLike then .finite (grossProfitLiveLike / grossLossLiveLike)
      else if 0 < grossProfitLiveLike then .positiveInfinity
      else .finite 0
    maxDrawdownLiveLike := round ((valid.map (·.2)).foldl drawdownStep (0, 0, 0)).2.2
    latestRecordAt := records.head?.map (·.createdAt) }

/-! ## Decisions -/

/-- The evidence of a decision. -/
structure Evidence where
  source : String := "paper_learning_records"
  boundedRecordLimit : ℕ
  metrics : EvidenceMetrics
  profitFactorLiveLike : Option ℚ
  allLiveLikeOutcomesProfitable : Bool
  policy : ScopePolicy

/-- `DesiredDecision`. -/
structure DesiredDecision where
  scopeType : ScopeType
  scopeKey : String
  state : GovernanceState
  priorityMultiplier : ℚ
  reasonCode : String
  evidence : Evidence

/-- The scope of a decision. -/
def DesiredDecision.scope (d : DesiredDecision) : ScopeType × String := (d.scopeType, d.scopeKey)

/-- State, multiplier and reason of a scope. -/
def verdict (metrics : EvidenceMetrics) (scopePolicy : ScopePolicy) :
    GovernanceState × ℚ × String :=
  if scopePolicy.minEvaluatedTrades ≤ metrics.evaluatedTrades ∧
      scopePolicy.minObservedDays ≤ metrics.observedTradingDays then
    if metrics.netPnlLiveLike < 0 ∧
        metrics.profitFactorLiveLike.le (.finite scopePolicy.suspendProfitFactor) then
      (.suspended, 0, "NEGATIVE_LIVE_LIKE_PERFORMANCE")
    else if 0 < metrics.netPnlLiveLike ∧
        (ExtendedNumber.finite scopePolicy.prioritizeProfitFactor).le
          metrics.profitFactorLiveLike then
      (.prioritized, scopePolicy.priorityMultiplier, "POSITIVE_LIVE_LIKE_PERFORMANCE")
    else (.observe, 1, "MIXED_LIVE_LIKE_PERFORMANCE")
  else (.observe, 1, "INSUFFICIENT_EVALUATED_LIVE_LIKE_EVIDENCE")

/-- `decideScope`. -/
def decideScope (p : Policy) (scopeType : ScopeType) (scopeKey : String)
    (records : List ScannedLearningRecord) (scopePolicy : ScopePolicy) : DesiredDecision :=
  let metrics := evidenceMetrics records
  let decided := verdict metrics scopePolicy
  { scopeType, scopeKey
    state := decided.1
    priorityMultiplier := decided.2.1
    reasonCode := decided.2.2
    evidence :=
      { boundedRecordLimit :=
          match scopeType with
          | .strategyFamily => p.maxRecordsPerStrategy
          | .symbol => p.maxRecordsPerStrategy * p.strategyPolicies.length
        metrics
        profitFactorLiveLike := metrics.profitFactorLiveLike.value.map round
        allLiveLikeOutcomesProfitable :=
          0 < metrics.grossProfitLiveLike ∧ metrics.grossLossLiveLike = 0
        policy := scopePolicy } }

/-- The buckets of the symbols, in the order of their first records. -/
def bySymbol (records : List ScannedLearningRecord) :
    List (String × List ScannedLearningRecord) :=
  Grouping.group (·.symbol) (fun _ ↦ []) (fun bucket record ↦ bucket ++ [record]) records

/-- The time of the first record of a bucket; an empty text comes before every time. -/
def latestTime (bucket : List ScannedLearningRecord) : WithBot Time :=
  match bucket with
  | [] => ⊥
  | record :: _ => (record.createdAt : WithBot Time)

section Selection

variable [Locale]

/-- The comparison of the symbols: the later first, then by name. -/
def comesFirst (left right : String × List ScannedLearningRecord) : Prop :=
  latestTime right.2 < latestTime left.2 ∨
    latestTime right.2 = latestTime left.2 ∧ Locale.collates left.1 right.1 = true

instance : DecidableRel comesFirst := fun left right ↦
  have _ : Decidable (latestTime right.2 < latestTime left.2) :=
    @WithBot.decidableLT Time Int.instLTInt Int.decLt _ _
  inferInstanceAs (Decidable (_ ∨ _))

def selectedSymbols (p : Policy) (records : List ScannedLearningRecord) :
    List (String × List ScannedLearningRecord) :=
  ((bySymbol records).insertionSort comesFirst).take p.maxSymbolScopes

/-- `desiredDecisions`. -/
def desiredDecisions (p : Policy) (records : List ScannedLearningRecord) : List DesiredDecision :=
  (p.strategyPolicies.map fun entry ↦
    decideScope p .strategyFamily entry.1
      (records.filter fun record ↦ record.strategyFamily = entry.1) entry.2) ++
  (selectedSymbols p records).map fun entry ↦
    decideScope p .symbol entry.1 entry.2 p.symbolPolicy

end Selection

/-! ## Tables -/

/-- A row of `paper_learning_governance_decisions`. -/
structure DecisionRow where
  id : String
  runId : String
  scopeType : ScopeType
  scopeKey : String
  state : GovernanceState
  priorityMultiplier : ℚ
  reasonCode : String
  evidence : Evidence
  effectiveAt : Time
  supersededAt : Option Time
  gitSha : String
  configVersion : String
  configHash : String

namespace DecisionRow

def scope (row : DecisionRow) : ScopeType × String := (row.scopeType, row.scopeKey)

/-- `superseded_at IS NULL`. -/
def IsCurrent (row : DecisionRow) : Prop := row.supersededAt = none

instance : DecidablePred IsCurrent := fun row ↦
  inferInstanceAs (Decidable (row.supersededAt = none))

end DecisionRow

/-- One row for an identifier, and one current row for a scope. -/
instance : Row DecisionRow String where
  key row := row.id
  clash a b := a.id = b.id ∨ a.IsCurrent ∧ b.IsCurrent ∧ a.scope = b.scope
  dec _ _ := inferInstanceAs (Decidable (_ ∨ _))
  symm h := h.imp Eq.symm fun ⟨ha, hb, hscope⟩ ↦ ⟨hb, ha, hscope.symm⟩
  clash_of_key h := .inl h

inductive RunStatus where
  | running | completed | failed
deriving DecidableEq, Repr

/-- What a run says of its decisions. -/
structure Summary where
  stateCounts : GovernanceState → ℕ
  desiredDecisions : List (ScopeType × String × GovernanceState × String)

/-- A row of `paper_learning_governance_runs`. -/
structure GovernanceRun where
  id : String
  startedAt : Time
  completedAt : Option Time := none
  status : RunStatus := .running
  scannedRecords : ℕ := 0
  validOutcomes : ℕ := 0
  decisionsWritten : ℕ := 0
  gitSha : String
  configVersion : String
  configHash : String
  summary : Option Summary := none
  errorMessage : Option String := none

instance : Row GovernanceRun String where
  key row := row.id
  clash a b := a.id = b.id
  dec a b := inferInstanceAs (Decidable (a.id = b.id))
  symm := Eq.symm
  clash_of_key := id

/-- The tables. -/
structure GovernanceDb where
  records : List LearningRecordRow
  runs : Table GovernanceRun
  decisions : Table DecisionRow

/-- The order of `getCurrentPaperLearningGovernance`. -/
def listedBefore (a b : DecisionRow) : Prop :=
  (a.scopeType = .strategyFamily ∧ b.scopeType = .symbol) ∨
    (a.scopeType = b.scopeType ∧ a.scopeKey ≤ b.scopeKey)

instance : DecidableRel listedBefore := fun _ _ ↦ inferInstanceAs (Decidable (_ ∨ _))

/-- `getCurrentPaperLearningGovernance`. -/
def getCurrentPaperLearningGovernance (decisions : Table DecisionRow) : List DecisionRow :=
  (decisions.rows.filter fun row ↦ row.IsCurrent).insertionSort listedBefore

/-! ## Candidates -/

/-- `CandidateLearningGovernance`. -/
structure CandidateLearningGovernance where
  suspended : Bool
  priorityMultiplier : ℚ
  reasonCodes : List String

/-- `resolveCandidateLearningGovernance`. -/
def resolveCandidateLearningGovernance (symbol strategyFamily : String)
    (decisions : List DecisionRow) : CandidateLearningGovernance :=
  let relevant := decisions.filter fun decision ↦
    decision.scope = (.strategyFamily, normalizeStrategyFamily strategyFamily) ∨
      decision.scope = (.symbol, normalizeSymbol symbol)
  let suspended := relevant.any fun decision ↦ decision.state = .suspended
  { suspended
    priorityMultiplier :=
      if suspended then 0
      else Min.min (125 / 100) (relevant.foldl (fun m decision ↦ m * decision.priorityMultiplier) 1)
    reasonCodes := (relevant.filter fun decision ↦ decision.state ≠ .observe).map (·.reasonCode) }

/-! ## A run -/

/-- Where a run fails. -/
inductive Fault where
  /-- Before the run is recorded: at the write fence, or when it is recorded. -/
  | start
  /-- At the scan, at the current decisions or at `BEGIN`. -/
  | read
  /-- At a statement of the transaction that writes decisions. -/
  | statement (index : ℕ)
  /-- When the run is completed, at the write fence or at `COMMIT`. -/
  | commit
  /-- When the decisions are read again after `COMMIT`. -/
  | readAfterCommit
deriving DecidableEq, Repr

/-- A call, with what it draws and reads from outside. -/
structure Call where
  runId : String
  decisionId : ℕ → String
  startedAt : Time
  completedAt : Time
  failedAt : Time
  gitSha : String
  configHash : String
  fault : Option Fault
  /-- The message of an error. -/
  message : String
  /-- Whether a failed run can still be marked. -/
  marks : Bool

/-- `PaperLearningGovernanceRunResult`. -/
structure RunResult where
  runId : String
  startedAt : Time
  completedAt : Time
  scannedRecords : ℕ
  validOutcomes : ℕ
  decisionsWritten : ℕ
  stateCounts : GovernanceState → ℕ
  currentDecisions : List DecisionRow
  gitSha : String
  configVersion : String
  configHash : String

/-- The decisions and their number in the middle of a transaction. -/
structure Written where
  decisions : Table DecisionRow
  count : ℕ

/-- `changed`. -/
def changed (current : Option DecisionRow) (decision : DesiredDecision) : Bool :=
  match current with
  | none => true
  | some row =>
    row.state ≠ decision.state || row.priorityMultiplier ≠ decision.priorityMultiplier ||
      row.reasonCode ≠ decision.reasonCode

/-- The row of a decision. -/
def rowOf (p : Policy) (call : Call) (index : ℕ) (decision : DesiredDecision) : DecisionRow where
  id := call.decisionId index
  runId := call.runId
  scopeType := decision.scopeType
  scopeKey := decision.scopeKey
  state := decision.state
  priorityMultiplier := decision.priorityMultiplier
  reasonCode := decision.reasonCode
  evidence := decision.evidence
  effectiveAt := call.completedAt
  supersededAt := none
  gitSha := call.gitSha
  configVersion := p.configVersion
  configHash := call.configHash

/-- One round of the loop: what is current is superseded, and the decision is inserted. -/
def writeDecision (p : Policy) (call : Call)
    (currentByScope : ScopeType × String → Option DecisionRow) (w : Written)
    (decision : DesiredDecision) : Option Written :=
  if !changed (currentByScope decision.scope) decision then some w
  else if call.fault = some (.statement (2 * w.count)) then none
  else
    (w.decisions.update? (fun row ↦ row.scope = decision.scope ∧ row.IsCurrent)
      fun row ↦ { row with supersededAt := some call.completedAt }).bind fun superseded ↦
    if call.fault = some (.statement (2 * w.count + 1)) then none
    else (superseded.insert? (rowOf p call w.count decision)).map fun decisions ↦
      { decisions, count := w.count + 1 }

/-- `currentByScope.get`.  A scope has one current decision, so the last entry is the first. -/
def currentByScope (decisions : Table DecisionRow) (scope : ScopeType × String) :
    Option DecisionRow :=
  (getCurrentPaperLearningGovernance decisions).find? fun row ↦ row.scope = scope

/-- The loop over the decisions. -/
def writeDecisions (p : Policy) (call : Call) (desired : List DesiredDecision)
    (decisions : Table DecisionRow) : Option Written :=
  desired.foldlM (writeDecision p call (currentByScope decisions)) ⟨decisions, 0⟩

/-- The failure of a run that was recorded, which is marked if possible. -/
def failRun (call : Call) (db : GovernanceDb) : Option RunResult × GovernanceDb :=
  (none,
    if call.marks then
      { db with
        runs := db.runs.update (fun run ↦ run.id = call.runId) fun run ↦
          { run with
            completedAt := some call.failedAt
            status := .failed
            errorMessage := some (String.ofList (call.message.toList.take 500)) } }
    else db)

variable [Locale]

/-- `applyPaperLearningGovernance`. -/
def applyPaperLearningGovernance (p : Policy) (call : Call) (db : GovernanceDb) :
    Option RunResult × GovernanceDb :=
  if call.fault = some .start then (none, db)
  else
    match db.runs.insert?
      { id := call.runId
        startedAt := call.startedAt
        gitSha := call.gitSha
        configVersion := p.configVersion
        configHash := call.configHash } with
    | none => (none, db)
    | some runs =>
      let started := { db with runs }
      if call.fault = some .read then failRun call started
      else
        let scanned := scanEvaluatedLearningRecords p db.records
        let desired := desiredDecisions p scanned
        let stateCounts state := desired.countP (·.state = state)
        let validOutcomes := scanned.countP (·.pnlLiveLike.isSome)
        match writeDecisions p call desired db.decisions with
        -- `ROLLBACK`
        | none => failRun call started
        | some written =>
          if call.fault = some .commit then failRun call started
          else
            let committed :=
              { started with
                decisions := written.decisions
                runs := runs.update (fun run ↦ run.id = call.runId) fun run ↦
                  { run with
                    completedAt := some call.completedAt
                    status := .completed
                    scannedRecords := scanned.length
                    validOutcomes
                    decisionsWritten := written.count
                    summary := some
                      { stateCounts
                        desiredDecisions := desired.map fun decision ↦
                          (decision.scopeType, decision.scopeKey, decision.state,
                            decision.reasonCode) } } }
            if call.fault = some .readAfterCommit then failRun call committed
            else
              (some
                { runId := call.runId
                  startedAt := call.startedAt
                  completedAt := call.completedAt
                  scannedRecords := scanned.length
                  validOutcomes
                  decisionsWritten := written.count
                  stateCounts
                  currentDecisions := getCurrentPaperLearningGovernance written.decisions
                  gitSha := call.gitSha
                  configVersion := p.configVersion
                  configHash := call.configHash }, committed)

end LearningGovernance

end AlpacaTrading
