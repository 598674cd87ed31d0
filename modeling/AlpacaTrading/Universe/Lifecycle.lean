import Mathlib.Data.Int.ConditionallyCompleteOrder
import Mathlib.Data.List.Sort
import Mathlib.Data.Prod.Lex
import Mathlib.Data.String.Basic
import AlpacaTrading.Broker.Response
import AlpacaTrading.Lib.Table
import AlpacaTrading.Lib.Text

/-!
# The lifecycle of the universe

A run of `runAutonomousUniverseLifecycle` looks at a window of the broker's assets, inserts the new
ones among them into the universe, up to a limit, and reassesses the symbols that are in it.  The
window begins behind the cursor that the latest completed run has left.

## Failing

A run may fail at any of its writes.  What it has written by then stays, and the run is recorded as
failed, unless that fails as well.  `Lifecycle` is a computation with a number of writes after
which the next one fails; the assessment of a symbol reads evidence from other tables, which is an
argument of the run.
-/

namespace AlpacaTrading

namespace Universe

/-! ## Rows -/

/-- `UniverseLifecycleState`. -/
inductive LifecycleState where
  | discovered | observeOnly | researchEligible | paperEligible | paperActive | suspended | retired
deriving DecidableEq, Repr

/-- `activeLifecycleStates`. -/
def LifecycleState.active : LifecycleState → Bool
  | .researchEligible | .paperEligible | .paperActive => true
  | _ => false

/-- `assessmentPriority`. -/
def LifecycleState.priority : LifecycleState → ℕ
  | .paperActive => 0
  | .paperEligible => 1
  | .researchEligible => 2
  | .observeOnly => 3
  | .discovered => 4
  | .suspended => 5
  | .retired => 6

/-- A row of `universe_symbols`. -/
structure SymbolRow where
  symbol : String
  enabled : Bool
  tradable : Bool
  lifecycleState : LifecycleState := .researchEligible
  lifecycleReasonCode : String := "LEGACY_SEED"
  lifecycleEnteredAt : Option Time := none
deriving DecidableEq

instance : Row SymbolRow String where
  key := (·.symbol)
  clash a b := a.symbol = b.symbol
  dec _ _ := inferInstanceAs (Decidable (_ = _))
  symm h := h.symm
  clash_of_key h := h

/-- A row of `universe_lifecycle_events`. -/
structure EventRow where
  runId : String
  symbol : String
  fromState : Option LifecycleState
  toState : LifecycleState
  reasonCode : String
  occurredAt : Time
deriving DecidableEq

/-- `status` of a run. -/
inductive RunStatus where
  | running | completed | failed
deriving DecidableEq, Repr

/-- A row of `universe_lifecycle_runs`. -/
structure RunRow where
  id : String
  startedAt : Time
  completedAt : Option Time := none
  status : RunStatus := .running
  discoveryCursorStart : Option String
  discoveryCursorEnd : Option String := none
  assetsScanned : ℕ := 0
  assetsDiscovered : ℕ := 0
  symbolsAssessed : ℕ := 0
  transitionsApplied : ℕ := 0
deriving DecidableEq

instance : Row RunRow String where
  key := (·.id)
  clash a b := a.id = b.id
  dec _ _ := inferInstanceAs (Decidable (_ = _))
  symm h := h.symm
  clash_of_key h := h

/-- The tables of the service. -/
structure UniverseDb where
  symbols : Table SymbolRow
  events : List EventRow
  runs : Table RunRow

/-- `AlpacaAssetSnapshot`. -/
structure Asset where
  symbol : String
  assetClass : Option String := none
  exchange : Option String := none
  status : Option String := none
  tradable : Option Bool := none
  attributes : Option (List String) := none
deriving DecidableEq

/-- `UniverseLifecyclePolicy`. -/
structure Policy where
  discoveryScanLimit : ℕ
  discoveryMaxNewSymbols : ℕ
  assessmentMaxSymbols : ℕ
  approvedExchanges : List String
  requireOptions : Bool
  maximumDataFailures : ℕ
  maximumExecutionFailures : ℕ
  maximumUnderperformingOutcomes : ℕ
  requiredResearchSelections : ℕ
  suspensionRetirementDays : ℚ

/-- `SymbolEvidence`. -/
structure SymbolEvidence where
  qualifiesForResearch : Bool
  dataFailures : ℕ
  liquidityFailures : ℕ
  executionFailures : ℕ
  underperformingOutcomes : ℕ
  activePositions : ℕ
  researchSelections : ℕ

/-! ## Assets -/

/-- `normalizeSymbol`. -/
def normalizeSymbol (symbol : String) : String := Text.toUpperCase (Text.trim symbol)

/-- `hasOptionsAttribute`. -/
def hasOptionsAttribute (asset : Asset) : Bool :=
  (asset.attributes.getD []).any fun text ↦
    Text.toLowerCase (Text.trim text) ∈ ["has_options", "options_enabled", "options-enabled"]

/-- `assetIssue`. -/
def assetIssue (asset : Option Asset) (policy : Policy) : Option String :=
  match asset with
  | none => some "ASSET_MISSING_FROM_ACTIVE_INVENTORY"
  | some asset =>
    if asset.assetClass ≠ some "us_equity" then some "ASSET_CLASS_INELIGIBLE"
    else if asset.status ≠ some "active" then some "ASSET_INACTIVE"
    else if asset.tradable ≠ some true then some "ASSET_NOT_TRADABLE"
    else if Text.toUpperCase (asset.exchange.getD "") ∉ policy.approvedExchanges then
      some "EXCHANGE_NOT_APPROVED"
    else if policy.requireOptions ∧ ¬ hasOptionsAttribute asset then
      some "OPTIONS_ATTRIBUTE_REQUIRED"
    else none

/-- `Map.set`. -/
def setAsset (assets : List Asset) (asset : Asset) : List Asset :=
  if ∃ a ∈ assets, a.symbol = asset.symbol then
    assets.map fun a ↦ if a.symbol = asset.symbol then asset else a
  else assets ++ [asset]

/-- `buildAssetMap`. -/
def buildAssetMap (assets : List Asset) : List Asset :=
  assets.foldl (fun result asset ↦
    let symbol := normalizeSymbol asset.symbol
    if symbol = "" then result else setAsset result { asset with symbol }) []

/-- The assets that may be discovered, in the order of their symbols. -/
def eligibleAssets (assets : List Asset) (policy : Policy) : List Asset :=
  (assets.filter fun asset ↦ assetIssue (some asset) policy = none).insertionSort
    fun left right ↦ left.symbol ≤ right.symbol

/-- The assets that a run with a cursor looks at. -/
structure Discovery where
  scanned : List Asset
  discovered : List Asset
  cursorEnd : Option String

/-- `selectDiscoveryAssets`. -/
def selectDiscoveryAssets (assets : List Asset) (existingSymbols : List String)
    (cursorStart : Option String) (policy : Policy) : Discovery :=
  let eligible := eligibleAssets assets policy
  let afterCursor := match cursorStart.filter (· ≠ "") with
    | some cursor => eligible.filter fun asset ↦ cursor < asset.symbol
    | none => eligible
  let rotation := if afterCursor ≠ [] then afterCursor else eligible
  let scanned := rotation.take policy.discoveryScanLimit
  { scanned
    discovered := (scanned.filter fun asset ↦ asset.symbol ∉ existingSymbols).take
      policy.discoveryMaxNewSymbols
    cursorEnd := (scanned.getLast?.map (·.symbol)).or cursorStart }

/-! ## The cursor -/

/-- The runs the cursor may be read from. -/
def RunRow.LeavesCursor (run : RunRow) : Prop :=
  run.status = .completed ∧ run.discoveryCursorEnd ≠ none

instance : DecidablePred RunRow.LeavesCursor := fun _ ↦ inferInstanceAs (Decidable (_ ∧ _))

/-- `completed_at` and `id`, the order in which the latest run is the last one. -/
def RunRow.completion (run : RunRow) : WithBot Time ×ₗ String := toLex (run.completedAt, run.id)

/-- `latestCursor`. -/
def latestCursor (db : UniverseDb) : Option String :=
  (((db.runs.rows.filter fun run ↦ run.LeavesCursor).insertionSort
    fun a b ↦ b.completion ≤ a.completion).head?.bind (·.discoveryCursorEnd))

/-! ## Computations that may fail -/

/-- The variables of a run that are stored when it finishes. -/
structure Progress where
  cursorEnd : Option String
  assetsScanned : ℕ := 0
  assetsDiscovered : ℕ := 0
  symbolsAssessed : ℕ := 0
  transitionsApplied : ℕ := 0

/-- The tables, the variables of a run, and how many of its writes do not fail. -/
structure Process where
  db : UniverseDb
  progress : Progress
  writesLeft : Option ℕ

/-- A computation that may throw. -/
abbrev Lifecycle := ExceptT Unit (StateM Process)

/-- A transaction. -/
def write (f : UniverseDb → UniverseDb) : Lifecycle Unit := do
  let process ← get
  match process.writesLeft with
  | some 0 => throw ()
  | some (k + 1) => set { process with db := f process.db, writesLeft := some k }
  | none => set { process with db := f process.db }

/-- A change of the variables. -/
def note (f : Progress → Progress) : Lifecycle Unit :=
  modify fun process ↦ { process with progress := f process.progress }

/-- `getUniverseSymbol`. -/
def getUniverseSymbol (db : UniverseDb) (symbol : String) : Option SymbolRow :=
  db.symbols.get? (normalizeSymbol symbol)

/-- `getAllUniverse`. -/
def getAllUniverse (db : UniverseDb) : List SymbolRow :=
  db.symbols.rows.insertionSort fun left right ↦ left.symbol ≤ right.symbol

/-- The event of `writeEvent`. -/
def writeEvent (event : EventRow) (db : UniverseDb) : UniverseDb :=
  { db with events := db.events ++ [event] }

/-- `context.transitionsApplied += 1`. -/
def noteTransition : Lifecycle Unit :=
  note fun progress ↦ { progress with transitionsApplied := progress.transitionsApplied + 1 }

/-- `transitionSymbol`. -/
def transitionSymbol (runId : String) (row : SymbolRow) (toState : LifecycleState)
    (reasonCode : String) (occurredAt : Time) : Lifecycle Bool := do
  if row.lifecycleState = toState then
    return false
  write fun db ↦
    let stored := db.symbols.modify row.symbol fun r ↦
      { r with
        lifecycleState := toState
        lifecycleReasonCode := reasonCode
        lifecycleEnteredAt := some occurredAt
        enabled := toState.active }
    writeEvent
      { runId, symbol := row.symbol, fromState := some row.lifecycleState, toState, reasonCode,
        occurredAt }
      { db with symbols := stored }
  noteTransition
  return true

/-- `recordBaseline`. -/
def recordBaseline (runId : String) (row : SymbolRow) (occurredAt : Time) : Lifecycle Unit := do
  let process ← get
  if ∃ event ∈ process.db.events, event.symbol = row.symbol then
    return ()
  write fun db ↦
    let stored := db.symbols.modify row.symbol fun r ↦
      { r with lifecycleEnteredAt := r.lifecycleEnteredAt.or (some occurredAt) }
    writeEvent
      { runId, symbol := row.symbol, fromState := none, toState := row.lifecycleState,
        reasonCode := "LEGACY_UNIVERSE_BASELINE", occurredAt }
      { db with symbols := stored }
  noteTransition

/-- `updateAssetMetadata`. -/
def updateAssetMetadata (symbol : String) (asset : Asset) : Lifecycle Unit :=
  write fun db ↦
    let stored := db.symbols.modify symbol fun r ↦ { r with tradable := asset.tradable = some true }
    { db with symbols := stored }

/-- `if (asset) updateAssetMetadata(…)`. -/
def refreshMetadata (symbol : String) : Option Asset → Lifecycle Unit
  | some asset => updateAssetMetadata symbol asset
  | none => pure ()

/-- `INSERT … ON CONFLICT DO NOTHING`. -/
def insertSymbol (row : SymbolRow) (db : UniverseDb) : UniverseDb :=
  { db with symbols := (db.symbols.insert? row).getD db.symbols }

/-- `insertDiscoveredSymbol`. -/
def insertDiscoveredSymbol (runId : String) (asset : Asset) (occurredAt : Time) :
    Lifecycle (Option SymbolRow) := do
  let symbol := normalizeSymbol asset.symbol
  let process ← get
  if symbol = "" ∨ getUniverseSymbol process.db symbol ≠ none then
    return none
  write fun db ↦
    let row : SymbolRow :=
      { symbol
        enabled := false
        tradable := asset.tradable = some true
        lifecycleState := .discovered
        lifecycleReasonCode := "DISCOVERED_FROM_ALPACA"
        lifecycleEnteredAt := some occurredAt }
    writeEvent
      { runId, symbol, fromState := none, toState := .discovered,
        reasonCode := "DISCOVERED_FROM_ALPACA", occurredAt }
      (insertSymbol row db)
  noteTransition
  return getUniverseSymbol (← get).db symbol

/-! ## Assessment -/

/-- `ageInDays`. -/
def ageInDays (value : Option Time) (now : Time) : ℚ :=
  (value.map fun time ↦ max 0 (((now - time : ℤ) : ℚ) / 86400000)).getD 0

/-- `shouldRetire`. -/
def shouldRetire (row : SymbolRow) (policy : Policy) (now : Time) : Bool :=
  policy.suspensionRetirementDays ≤ ageInDays row.lifecycleEnteredAt now

/-- The state that `assessSymbol` gives a symbol, and why. -/
def assessment (row : SymbolRow) (asset : Option Asset) (evidence : SymbolEvidence)
    (policy : Policy) (now : Time) : Option (LifecycleState × String) :=
  match assetIssue asset policy with
  | some issue =>
    if row.lifecycleState = .suspended ∧ shouldRetire row policy now then
      some (.retired, "SUSPENSION_RETIREMENT_THRESHOLD")
    else if row.lifecycleState ≠ .suspended then some (.suspended, issue)
    else none
  | none =>
    if row.lifecycleState = .suspended then
      if shouldRetire row policy now then some (.retired, "SUSPENSION_RETIREMENT_THRESHOLD")
      else if evidence.qualifiesForResearch then some (.observeOnly, "RECOVERY_REQUALIFICATION")
      else none
    else if policy.maximumDataFailures ≤ evidence.dataFailures then
      some (.suspended, "DATA_FAILURE_THRESHOLD")
    else if policy.maximumDataFailures ≤ evidence.liquidityFailures then
      some (.suspended, "LIQUIDITY_FAILURE_THRESHOLD")
    else if policy.maximumExecutionFailures ≤ evidence.executionFailures then
      some (.suspended, "EXECUTION_QUALITY_FAILURE")
    else if policy.maximumUnderperformingOutcomes ≤ evidence.underperformingOutcomes then
      some (.suspended, "UNDERPERFORMANCE_THRESHOLD")
    else if 0 < evidence.activePositions ∧ row.lifecycleState ≠ .paperActive then
      some (.paperActive, "RECONCILED_PAPER_POSITION_OPEN")
    else if row.lifecycleState = .paperActive ∧ evidence.activePositions = 0 then
      some (.paperEligible, "RECONCILED_PAPER_POSITION_CLOSED")
    else if row.lifecycleState = .discovered then some (.observeOnly, "ASSET_METADATA_ACCEPTED")
    else if row.lifecycleState = .observeOnly ∧ evidence.qualifiesForResearch then
      some (.researchEligible, "OBSERVATION_AND_HISTORY_QUALIFIED")
    else if row.lifecycleState = .researchEligible ∧ evidence.qualifiesForResearch ∧
        policy.requiredResearchSelections ≤ evidence.researchSelections then
      some (.paperEligible, "RESEARCH_AND_QUALITY_QUALIFIED")
    else none

/-- `assessSymbol`. -/
def assessSymbol (runId : String) (row : SymbolRow) (asset : Option Asset)
    (evidence : SymbolEvidence) (policy : Policy) (now : Time) : Lifecycle Unit := do
  if row.lifecycleState = .retired then
    return ()
  refreshMetadata row.symbol asset
  let some (toState, reasonCode) := assessment row asset evidence policy now | return ()
  let changed ← transitionSymbol runId row toState reasonCode now
  -- a symbol that has become eligible for research may become eligible for trading at once
  if toState = .researchEligible ∧ changed ∧
      policy.requiredResearchSelections ≤ evidence.researchSelections then
    if let some current := getUniverseSymbol (← get).db row.symbol then
      let _ ← transitionSymbol runId current .paperEligible "RESEARCH_AND_QUALITY_QUALIFIED" now

/-- The symbols that a run assesses. -/
def assessable (db : UniverseDb) (policy : Policy) : List SymbolRow :=
  (((getAllUniverse db).filter fun row ↦ row.lifecycleState ≠ .retired).insertionSort
    fun left right ↦ toLex (left.lifecycleState.priority, left.symbol) ≤
      toLex (right.lifecycleState.priority, right.symbol)).take policy.assessmentMaxSymbols

/-! ## Runs -/

/-- What a run is given, and what happens to it. -/
structure RunInput where
  runId : String
  startedAt : Time
  /-- `now()` when a symbol is assessed. -/
  assessedAt : String → Time
  completedAt : Time
  seedUniverse : List String
  /-- What `listAssets` returns; it may fail. -/
  assets : Option (List Asset)
  policy : Policy
  evidence : String → SymbolEvidence
  /-- How many of the writes succeed before one fails, if one does. -/
  writesLeft : Option ℕ := none
  /-- Whether the record of a failure is not written either. -/
  crashes : Bool := false

/-- `seedInitialUniverse`. -/
def seedInitialUniverse (seedUniverse : List String) : Lifecycle Unit := do
  let existing := (getAllUniverse (← get).db).map (·.symbol)
  let seeds := ((seedUniverse.map normalizeSymbol).filter (· ≠ "")).eraseDups
  (seeds.filter fun symbol ↦ symbol ∉ existing).forM fun symbol ↦
    write (insertSymbol { symbol, enabled := true, tradable := true })

/-- `recoverIncompleteRuns`. -/
def recoverIncompleteRuns (recoveredAt : Time) (db : UniverseDb) : UniverseDb :=
  let runs := db.runs.update (fun run ↦ run.status = .running) fun run ↦
    { run with status := .failed, completedAt := run.completedAt.or (some recoveredAt) }
  { db with runs }

/-- `finishRun`. -/
def finishRun (runId : String) (status : RunStatus) (completedAt : Time) (progress : Progress)
    (db : UniverseDb) : UniverseDb :=
  let runs := db.runs.modify runId fun run ↦
    { run with
      completedAt := some completedAt
      status
      discoveryCursorEnd := progress.cursorEnd
      assetsScanned := progress.assetsScanned
      assetsDiscovered := progress.assetsDiscovered
      symbolsAssessed := progress.symbolsAssessed
      transitionsApplied := progress.transitionsApplied }
  { db with runs }

/-- The discovery of a run, from the assets and the tables. -/
def discover (input : RunInput) (assets : List Asset) (cursorStart : Option String)
    (existing : List String) : Discovery :=
  selectDiscoveryAssets (buildAssetMap assets) existing cursorStart input.policy

/-- The insertion of one discovered asset. -/
def acceptAsset (input : RunInput) (asset : Asset) : Lifecycle Unit := do
  let some discovered ← insertDiscoveredSymbol input.runId asset input.startedAt | return ()
  note fun progress ↦ { progress with assetsDiscovered := progress.assetsDiscovered + 1 }
  let _ ← transitionSymbol input.runId discovered .observeOnly "ASSET_METADATA_ACCEPTED"
    input.startedAt

/-- The assessment of one symbol. -/
def assess (input : RunInput) (assets : List Asset) (row : SymbolRow) : Lifecycle Unit := do
  let db := (← get).db
  assessSymbol input.runId ((getUniverseSymbol db row.symbol).getD row)
    (assets.find? fun asset ↦ asset.symbol = row.symbol) (input.evidence row.symbol)
    input.policy (input.assessedAt row.symbol)
  note fun progress ↦ { progress with symbolsAssessed := progress.symbolsAssessed + 1 }

/-- Discovery and assessment. -/
def discoverAndAssess (input : RunInput) (cursorStart : Option String) : Lifecycle Discovery := do
  seedInitialUniverse input.seedUniverse
  let some assets := input.assets | throw ()
  let initialUniverse := getAllUniverse (← get).db
  initialUniverse.forM fun row ↦ recordBaseline input.runId row input.startedAt
  let discovery := discover input assets cursorStart (initialUniverse.map (·.symbol))
  note fun progress ↦
    { progress with assetsScanned := discovery.scanned.length, cursorEnd := discovery.cursorEnd }
  discovery.discovered.forM (acceptAsset input)
  let rows := assessable (← get).db input.policy
  rows.forM (assess input (buildAssetMap assets))
  return discovery

/-- What is tried in `runAutonomousUniverseLifecycle`. -/
def runBody (input : RunInput) (cursorStart : Option String) : Lifecycle Unit := do
  let discovery ← discoverAndAssess input cursorStart
  let progress := (← get).progress
  write (finishRun input.runId .completed input.completedAt
    { progress with cursorEnd := discovery.cursorEnd })

/-- The writes before anything is tried.  The insertion fails if the identifier is taken. -/
def startRun (input : RunInput) (cursorStart : Option String) : Lifecycle Unit := do
  write (recoverIncompleteRuns input.startedAt)
  let runs := (← get).db.runs
  let run : RunRow :=
    { id := input.runId, startedAt := input.startedAt, discoveryCursorStart := cursorStart }
  match runs.insert? run with
  | some runs => write fun db ↦ { db with runs }
  | none => throw ()

/-- `runAutonomousUniverseLifecycle`: whether it completes, and the tables afterwards. -/
def runAutonomousUniverseLifecycle (input : RunInput) (db : UniverseDb) : Bool × UniverseDb :=
  let cursorStart := latestCursor db
  let process : Process :=
    { db, progress := { cursorEnd := cursorStart }, writesLeft := input.writesLeft }
  match (startRun input cursorStart).run process with
  | (.error _, process) => (false, process.db)
  | (.ok _, process) =>
    match (runBody input cursorStart).run process with
    | (.ok _, process) => (true, process.db)
    | (.error _, process) =>
      (false, if input.crashes then process.db
        else finishRun input.runId .failed input.completedAt process.progress process.db)

end Universe

end AlpacaTrading
