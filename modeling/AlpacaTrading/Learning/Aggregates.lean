import Mathlib.Algebra.Order.Field.Basic
import Mathlib.Data.String.Basic
import Mathlib.Tactic.Linarith
import AlpacaTrading.Lib.Grouping
import AlpacaTrading.Lib.Ranking
import AlpacaTrading.Learning.OutcomeRecord
import AlpacaTrading.Store.Schema

/-!
# Historical aggregates

`buildHistoricalOutcomeAggregates` groups the outcome records by environment, lane and one of many
dimensions, and summarizes each group.  The key of a group joins four texts with a character that
the first three cannot contain, so that keys do not collide whatever the last one is.

Averages are exact here.  Of the hash of an aggregate nothing is used but that it is a function of
the aggregate.
-/

namespace AlpacaTrading

/-! ## Records -/

/-- `OutcomeEnvironment`. -/
inductive OutcomeEnvironment where
  | paper | live | unknown
deriving DecidableEq, Repr

/-- `OutcomeLane`. -/
inductive OutcomeLane where
  | equity | options0dte | optionsLeaps | unknown
deriving DecidableEq, Repr

def OutcomeEnvironment.text : OutcomeEnvironment → String
  | paper => "paper"
  | live => "live"
  | unknown => "unknown"

def OutcomeLane.text : OutcomeLane → String
  | equity => "equity"
  | options0dte => "options_0dte"
  | optionsLeaps => "options_leaps"
  | unknown => "unknown"

def OutcomeFillStatus.text : OutcomeFillStatus → String
  | notSubmitted => "not_submitted"
  | unfilled => "unfilled"
  | terminalUnfilled => "terminal_unfilled"
  | partiallyFilled => "partially_filled"
  | fullyFilled => "fully_filled"

/-- The fields of `OutcomeLearningRecord` that aggregates read. -/
structure AggregatedRecord where
  environment : OutcomeEnvironment
  lane : OutcomeLane
  timeHorizon : Option String
  symbol : String
  underlyingSymbol : String
  arbitrationAction : Option String
  scoreBucket : Option String
  confidenceBucket : Option String
  spreadBucket : Option String
  liquidityBucket : Option String
  finalOrderStatus : Option String
  fillStatus : OutcomeFillStatus
  holdingPeriodMs : Option ℚ
  entryReasonCodes : List String
  arbitrationReasonCodes : List String
  researchSignalIds : List String
  researchHorizons : List String
  catalysts : List String
  joinStatus : OutcomeJoinStatus
  submittedAt : Option String
  firstFillAt : Option String
  closedAt : Option String
  timeToFirstFillMs : Option ℚ
  slippageBps : Option ℚ
  realizedReturn : Option ℚ
  maximumFavorableExcursion : Option ℚ
  maximumAdverseExcursion : Option ℚ
  metricLimitations : List String
  sourceWatermark : String
deriving DecidableEq

/-- `holdingPeriodBucket`. -/
def holdingPeriodBucket (holdingPeriodMs : Option ℚ) : Option String :=
  holdingPeriodMs.map fun ms ↦
    let day := 86400000
    if ms < day then "<1d"
    else if ms < day * 7 then "1-7d"
    else if ms < day * 30 then "7-30d"
    else ">=30d"

/-! ## Dimensions -/

/-- The dimensions in which a record has at most one value. -/
inductive SingleDimension where
  | lane | timeHorizon | symbol | underlying | arbitrationAction | scoreBucket | confidenceBucket
  | spreadBucket | liquidityBucket | orderStatus | fillStatus | holdingPeriodBucket
deriving DecidableEq, Repr

/-- The dimensions in which a record has a list of values. -/
inductive MultiDimension where
  | entryReason | arbitrationReason | researchSignal | researchHorizon | catalyst
deriving DecidableEq, Repr

/-- A dimension of the aggregates. -/
inductive OutcomeDimension where
  | single (d : SingleDimension)
  | multi (d : MultiDimension)
deriving DecidableEq, Repr

/-- The dimensions, in the order of the source. -/
def SingleDimension.all : List SingleDimension :=
  [lane, timeHorizon, symbol, underlying, arbitrationAction, scoreBucket, confidenceBucket,
    spreadBucket, liquidityBucket, orderStatus, fillStatus, holdingPeriodBucket]

def MultiDimension.all : List MultiDimension :=
  [entryReason, arbitrationReason, researchSignal, researchHorizon, catalyst]

/-- The name of a dimension. -/
def OutcomeDimension.name : OutcomeDimension → String
  | single .lane => "lane"
  | single .timeHorizon => "time_horizon"
  | single .symbol => "symbol"
  | single .underlying => "underlying"
  | single .arbitrationAction => "arbitration_action"
  | single .scoreBucket => "score_bucket"
  | single .confidenceBucket => "confidence_bucket"
  | single .spreadBucket => "spread_bucket"
  | single .liquidityBucket => "liquidity_bucket"
  | single .orderStatus => "order_status"
  | single .fillStatus => "fill_status"
  | single .holdingPeriodBucket => "holding_period_bucket"
  | multi .entryReason => "entry_reason"
  | multi .arbitrationReason => "arbitration_reason"
  | multi .researchSignal => "research_signal"
  | multi .researchHorizon => "research_horizon"
  | multi .catalyst => "catalyst"

/-- The value of a record. -/
def SingleDimension.value (r : AggregatedRecord) : SingleDimension → Option String
  | lane => some r.lane.text
  | timeHorizon => r.timeHorizon
  | symbol => some r.symbol
  | underlying => some r.underlyingSymbol
  | arbitrationAction => r.arbitrationAction
  | scoreBucket => r.scoreBucket
  | confidenceBucket => r.confidenceBucket
  | spreadBucket => r.spreadBucket
  | liquidityBucket => r.liquidityBucket
  | orderStatus => r.finalOrderStatus
  | fillStatus => some r.fillStatus.text
  | holdingPeriodBucket => AlpacaTrading.holdingPeriodBucket r.holdingPeriodMs

/-- The values of a record. -/
def MultiDimension.values (r : AggregatedRecord) : MultiDimension → List String
  | entryReason => r.entryReasonCodes
  | arbitrationReason => r.arbitrationReasonCodes
  | researchSignal => r.researchSignalIds
  | researchHorizon => r.researchHorizons
  | catalyst => r.catalysts

/-- `aggregateDimensions`: the values that are not empty. -/
def aggregateDimensions (r : AggregatedRecord) : List (OutcomeDimension × String) :=
  (SingleDimension.all.filterMap fun d ↦ (truthy (d.value r)).map fun v ↦ (.single d, v)) ++
    MultiDimension.all.flatMap fun d ↦ ((d.values r).filter (· ≠ "")).map fun v ↦ (.multi d, v)

/-! ## Groups -/

/-- A group. -/
structure OutcomeGroup where
  environment : OutcomeEnvironment
  lane : OutcomeLane
  dimension : OutcomeDimension
  groupingKey : String
  records : List AggregatedRecord

/-- A record in one of its groups. -/
structure GroupEntry where
  record : AggregatedRecord
  dimension : OutcomeDimension
  groupingKey : String

/-- The four texts, joined with a null character. -/
def joinedKey (environment : OutcomeEnvironment) (lane : OutcomeLane) (dimension : OutcomeDimension)
    (groupingKey : String) : String :=
  environment.text ++ "\u0000" ++ (lane.text ++ "\u0000" ++ (dimension.name ++ "\u0000" ++
    groupingKey))

/-- The key of a group. -/
def OutcomeGroup.key (g : OutcomeGroup) : String :=
  joinedKey g.environment g.lane g.dimension g.groupingKey

/-- The key of the group an entry belongs to. -/
def GroupEntry.key (e : GroupEntry) : String :=
  joinedKey e.record.environment e.record.lane e.dimension e.groupingKey

/-- A group without records. -/
def GroupEntry.newGroup (e : GroupEntry) : OutcomeGroup where
  environment := e.record.environment
  lane := e.record.lane
  dimension := e.dimension
  groupingKey := e.groupingKey
  records := []

/-- `group.records.push(record)`. -/
def OutcomeGroup.pushRecord (g : OutcomeGroup) (e : GroupEntry) : OutcomeGroup :=
  { g with records := g.records ++ [e.record] }

/-- The entries of a record. -/
def AggregatedRecord.entries (r : AggregatedRecord) : List GroupEntry :=
  (aggregateDimensions r).map fun p ↦ { record := r, dimension := p.1, groupingKey := p.2 }

/-- The loops that fill the groups. -/
def outcomeGroups (records : List AggregatedRecord) : List (String × OutcomeGroup) :=
  records.foldl (fun groups r ↦ r.entries.foldl
    (Grouping.push GroupEntry.key GroupEntry.newGroup OutcomeGroup.pushRecord) groups) []

/-! ## Summaries -/

/-- `average`. -/
def average (values : List (Option ℚ)) : Option ℚ :=
  let supported := values.filterMap id
  if supported = [] then none else some (supported.foldl (· + ·) 0 / supported.length)

/-- `median`. -/
def median (values : List (Option ℚ)) : Option ℚ :=
  let supported := (values.filterMap id).insertionSort (· ≤ ·)
  let middle := supported.length / 2
  if supported = [] then none
  else if supported.length % 2 = 1 then some (supported.getD middle 0)
  else some ((supported.getD (middle - 1) 0 + supported.getD middle 0) / 2)

/-- How many of the rows have a property. -/
def countRows (p : AggregatedRecord → Bool) (rows : List AggregatedRecord) : ℕ :=
  (rows.filter p).length

/-- The share of positive values. -/
def winRate (values : List (Option ℚ)) : Option ℚ :=
  let wins := values.filterMap id
  if wins = [] then none else some ((wins.filter (0 < ·)).length / wins.length)

/-- `rows.map(…).sort().at(-1)`. -/
def latestWatermark (rows : List AggregatedRecord) : Option String :=
  ((rows.map (·.sourceWatermark)).insertionSort (· ≤ ·)).getLast?

/-- `PAPER_OUTCOME_LIMITATIONS`. -/
def paperOutcomeLimitations : List String :=
  ["MARKET_IMPACT_NOT_FULLY_MODELED", "QUEUE_POSITION_NOT_FULLY_MODELED",
    "INFORMATION_LEAKAGE_NOT_MODELED", "LATENCY_SLIPPAGE_MAY_NOT_BE_REALISTIC",
    "PRICE_IMPROVEMENT_MAY_NOT_BE_REALISTIC",
    "ACTUAL_LIQUIDITY_CONSTRAINTS_MAY_NOT_BE_FULLY_REPRESENTED",
    "REGULATORY_FEES_MAY_BE_ABSENT_OR_INCOMPLETE", "DIVIDENDS_MAY_BE_ABSENT_OR_INCOMPLETE",
    "EXERCISE_ASSIGNMENT_AND_SETTLEMENT_MAY_DIFFER", "PARTIAL_FILL_BEHAVIOR_MAY_DIFFER",
    "SHORT_AVAILABILITY_AND_BORROW_COSTS_MAY_DIFFER"]

/-- `bucketDefinitions`. -/
def bucketDefinitions : List (String × String) :=
  [("score", "0-20|20-40|40-60|60-80|80-100"),
    ("confidence", "0.00-0.25|0.25-0.50|0.50-0.75|0.75-1.00"),
    ("spread", "0-25bps|25-50bps|50-100bps|>100bps"),
    ("liquidity", "low:<0.40|medium:0.40-0.75|high:>=0.75"),
    ("holdingPeriod", "<1d|1-7d|7-30d|>=30d")]

/-- `HistoricalOutcomeAggregate`, without its hash. -/
structure OutcomeAggregateBase where
  id : String
  refreshRunId : String
  environment : OutcomeEnvironment
  lane : OutcomeLane
  dimension : OutcomeDimension
  groupingKey : String
  dateRangeStart : String
  dateRangeEnd : String
  sourceTruncated : Bool
  sampleCount : ℕ
  proposedCount : ℕ
  approvedCount : ℕ
  resizedCount : ℕ
  skippedCount : ℕ
  submittedCount : ℕ
  filledCount : ℕ
  rejectedCount : ℕ
  canceledCount : ℕ
  closedCount : ℕ
  averageTimeToFirstFillMs : Option ℚ
  averageSlippageBps : Option ℚ
  medianSlippageBps : Option ℚ
  realizedReturnAverage : Option ℚ
  realizedReturnMedian : Option ℚ
  winRate : Option ℚ
  maximumFavorableExcursionAverage : Option ℚ
  maximumAdverseExcursionAverage : Option ℚ
  missingJoinCount : ℕ
  ambiguousJoinCount : ℕ
  unsupportedMetricCount : ℕ
  usableAsEvidence : Bool
  paperLimitations : List String
  bucketDefinitions : List (String × String)
  sourceWatermark : Option String
  calculatedAt : String
  schemaVersion : ℕ
deriving DecidableEq

/-- `HistoricalOutcomeAggregate`. -/
structure HistoricalOutcomeAggregate extends OutcomeAggregateBase where
  contentHash : String
deriving DecidableEq

/-- The argument of `buildHistoricalOutcomeAggregates`. -/
structure AggregateInput where
  refreshRunId : String
  records : List AggregatedRecord
  dateRangeStart : String
  dateRangeEnd : String
  calculatedAt : String
  minimumSample : ℚ
  maximumIncompleteJoinRatio : ℚ
  sourceTruncated : Bool

/-- `canonicalJsonHash` of an aggregate. -/
class AggregateHashing where
  contentHash : OutcomeAggregateBase → String

section Build

variable [Hashing]

/-- The aggregate of a group, without its hash. -/
def aggregateBase (input : AggregateInput) (group : OutcomeGroup) : OutcomeAggregateBase :=
  let rows := group.records
  let sampleCount := rows.length
  let missingJoinCount := countRows (·.joinStatus = .missing) rows
  let ambiguousJoinCount := countRows (·.joinStatus = .ambiguous) rows
  let incompleteRatio : ℚ := (missingJoinCount + ambiguousJoinCount) / sampleCount
  { id := "historical-outcome:v1:" ++ String.ofList ((Hashing.canonicalJsonHash
        [("environment", group.environment.text), ("lane", group.lane.text),
          ("dimension", group.dimension.name), ("groupingKey", group.groupingKey),
          ("dateRangeStart", input.dateRangeStart),
          ("dateRangeEnd", input.dateRangeEnd)]).toList.take 40)
    refreshRunId := input.refreshRunId
    environment := group.environment
    lane := group.lane
    dimension := group.dimension
    groupingKey := group.groupingKey
    dateRangeStart := input.dateRangeStart
    dateRangeEnd := input.dateRangeEnd
    sourceTruncated := input.sourceTruncated
    sampleCount
    proposedCount := sampleCount
    approvedCount := countRows (·.arbitrationAction = some "approve") rows
    resizedCount := countRows (·.arbitrationAction = some "resize") rows
    skippedCount := countRows (·.arbitrationAction = some "skip") rows
    submittedCount := countRows (·.submittedAt.isSome) rows
    filledCount := countRows (·.firstFillAt.isSome) rows
    rejectedCount := countRows (·.finalOrderStatus = some "rejected") rows
    canceledCount := countRows (fun r ↦ r.finalOrderStatus.getD "" ∈ ["canceled", "cancelled"]) rows
    closedCount := countRows (·.closedAt.isSome) rows
    averageTimeToFirstFillMs := average (rows.map (·.timeToFirstFillMs))
    averageSlippageBps := average (rows.map (·.slippageBps))
    medianSlippageBps := median (rows.map (·.slippageBps))
    realizedReturnAverage := average (rows.map (·.realizedReturn))
    realizedReturnMedian := median (rows.map (·.realizedReturn))
    winRate := winRate (rows.map (·.realizedReturn))
    maximumFavorableExcursionAverage := average (rows.map (·.maximumFavorableExcursion))
    maximumAdverseExcursionAverage := average (rows.map (·.maximumAdverseExcursion))
    missingJoinCount
    ambiguousJoinCount
    unsupportedMetricCount := (rows.map (·.metricLimitations.length)).foldl (· + ·) 0
    usableAsEvidence := !input.sourceTruncated && decide (input.minimumSample ≤ sampleCount) &&
      decide (incompleteRatio ≤ input.maximumIncompleteJoinRatio)
    paperLimitations := if group.environment = .paper then paperOutcomeLimitations else []
    bucketDefinitions := bucketDefinitions
    sourceWatermark := latestWatermark rows
    calculatedAt := input.calculatedAt
    schemaVersion := 1 }

variable [AggregateHashing]

/-- The aggregate of a group. -/
def aggregate (input : AggregateInput) (group : OutcomeGroup) : HistoricalOutcomeAggregate :=
  let base := aggregateBase input group
  { base with
    contentHash := AggregateHashing.contentHash { base with refreshRunId := "", calculatedAt := "" } }

/-- `buildHistoricalOutcomeAggregates`. -/
def buildHistoricalOutcomeAggregates [Locale] (input : AggregateInput) :
    List HistoricalOutcomeAggregate :=
  ((outcomeGroups input.records).insertionSort fun l r ↦
    Locale.collates l.2.key r.2.key = true).map fun g ↦ aggregate input g.2

end Build

/-! ## Keys -/

/-- What stands before the first null character determines it. -/
theorem append_null_inj {x y s t : List Char} (hx : '\x00' ∉ x) (hy : '\x00' ∉ y)
    (h : x ++ '\x00' :: s = y ++ '\x00' :: t) : x = y ∧ s = t := by
  have htake : ∀ {x s : List Char}, '\x00' ∉ x →
      (x ++ '\x00' :: s).takeWhile (· ≠ '\x00') = x := by
    intro x s hx
    rw [List.takeWhile_append_of_pos, List.takeWhile_cons_of_neg, List.append_nil]
    · simp
    · intro c hc
      refine decide_eq_true fun hnull ↦ hx ?_
      rwa [← hnull]
  obtain rfl : x = y := by rw [← htake hx, h, htake hy]
  exact ⟨rfl, (List.cons.inj (List.append_cancel_left h)).2⟩

/-- A name is the one of the first of a list that has it. -/
theorem eq_of_find? {α : Type*} (all : List α) {name : α → String}
    (hfind : ∀ a, all.find? (fun x ↦ name x = name a) = some a) {a b : α} (h : name a = name b) :
    a = b := by
  have hboth := hfind a
  rw [h, hfind b] at hboth
  exact (Option.some_inj.1 hboth).symm

theorem OutcomeEnvironment.text_inj {a b : OutcomeEnvironment} (h : a.text = b.text) : a = b :=
  eq_of_find? [paper, live, unknown] (by rintro (- | - | -) <;> rfl) h

theorem OutcomeLane.text_inj {a b : OutcomeLane} (h : a.text = b.text) : a = b :=
  eq_of_find? [equity, options0dte, optionsLeaps, unknown]
    (by rintro (- | - | - | -) <;> rfl) h

theorem OutcomeDimension.name_inj {a b : OutcomeDimension} (h : a.name = b.name) : a = b :=
  eq_of_find? (SingleDimension.all.map single ++ MultiDimension.all.map multi)
    (by rintro ((- | - | - | - | - | - | - | - | - | - | - | -) | (- | - | - | - | -)) <;> rfl) h

/-- **Keys do not collide.** -/
theorem joinedKey_inj {e e' : OutcomeEnvironment} {l l' : OutcomeLane} {d d' : OutcomeDimension}
    {k k' : String} (h : joinedKey e l d k = joinedKey e' l' d' k') :
    e = e' ∧ l = l' ∧ d = d' ∧ k = k' := by
  have hlist := congrArg String.toList h
  have hnull : "\u0000".toList = ['\x00'] := rfl
  simp only [joinedKey, String.toList_append, hnull, List.append_assoc, List.singleton_append]
    at hlist
  have henvironment : ∀ e : OutcomeEnvironment, '\x00' ∉ e.text.toList := by
    rintro (- | - | -) <;> decide
  have hlane : ∀ l : OutcomeLane, '\x00' ∉ l.text.toList := by
    rintro (- | - | - | -) <;> decide
  have hdimension : ∀ d : OutcomeDimension, '\x00' ∉ d.name.toList := by
    rintro ((- | - | - | - | - | - | - | - | - | - | - | -) | (- | - | - | - | -)) <;> decide
  obtain ⟨he, hlist⟩ := append_null_inj (henvironment e) (henvironment e') hlist
  obtain ⟨hl, hlist⟩ := append_null_inj (hlane l) (hlane l') hlist
  obtain ⟨hd, hk⟩ := append_null_inj (hdimension d) (hdimension d') hlist
  exact ⟨OutcomeEnvironment.text_inj (String.toList_inj.1 he),
    OutcomeLane.text_inj (String.toList_inj.1 hl), OutcomeDimension.name_inj (String.toList_inj.1 hd),
    String.toList_inj.1 hk⟩

/-! ## The groups of some records -/

/-- All entries of some records. -/
def allEntries (records : List AggregatedRecord) : List GroupEntry :=
  records.flatMap AggregatedRecord.entries

theorem outcomeGroups_grouped (records : List AggregatedRecord) :
    Grouping.Grouped GroupEntry.key GroupEntry.newGroup OutcomeGroup.pushRecord
      (allEntries records) (outcomeGroups records) := by
  have hloops : outcomeGroups records =
      Grouping.group GroupEntry.key GroupEntry.newGroup OutcomeGroup.pushRecord
        (allEntries records) := by
    rw [outcomeGroups, Grouping.group, allEntries, List.foldl_flatMap]
  rw [hloops]
  exact Grouping.group_grouped _ _ _ _

/-- Pushing records changes the records only. -/
theorem foldl_pushRecord (g : OutcomeGroup) (entries : List GroupEntry) :
    entries.foldl OutcomeGroup.pushRecord g =
      { g with records := g.records ++ entries.map (·.record) } := by
  induction entries generalizing g with
  | nil => rw [List.foldl_nil, List.map_nil, List.append_nil]
  | cons e entries ih =>
    rw [List.foldl_cons, ih, OutcomeGroup.pushRecord, List.map_cons, List.append_assoc,
      List.singleton_append]

/-- The group of some entries with one key. -/
def groupOf (e : GroupEntry) (entries : List GroupEntry) : OutcomeGroup :=
  { e.newGroup with records := entries.map (·.record) }

theorem foldl_newGroup (e : GroupEntry) (entries : List GroupEntry) :
    entries.foldl OutcomeGroup.pushRecord e.newGroup = groupOf e entries := by
  rw [foldl_pushRecord, GroupEntry.newGroup, List.nil_append]
  rfl

/-- What a group is: the entries with its key. -/
theorem mem_outcomeGroups {records : List AggregatedRecord} {g : String × OutcomeGroup}
    (h : g ∈ outcomeGroups records) :
    ∃ e rest, (allEntries records).filter (fun x ↦ x.key = g.1) = e :: rest ∧
      g.2 = groupOf e (e :: rest) ∧ g.1 = g.2.key := by
  obtain ⟨e, rest, hmembers, hvalue⟩ := (outcomeGroups_grouped records).members g h
  rw [foldl_newGroup] at hvalue
  refine ⟨e, rest, hmembers, hvalue, ?_⟩
  have he : e ∈ (allEntries records).filter (fun x ↦ x.key = g.1) := by
    rw [hmembers]
    exact List.mem_cons_self
  rw [hvalue]
  exact (of_decide_eq_true (List.mem_filter.1 he).2).symm

/-- A record is in a group exactly when it has the environment, the lane, and the value. -/
theorem mem_records {records : List AggregatedRecord} {g : String × OutcomeGroup}
    (h : g ∈ outcomeGroups records) {r : AggregatedRecord} :
    r ∈ g.2.records ↔ r ∈ records ∧ r.environment = g.2.environment ∧ r.lane = g.2.lane ∧
      (g.2.dimension, g.2.groupingKey) ∈ aggregateDimensions r := by
  obtain ⟨e, rest, hmembers, hvalue, hkey⟩ := mem_outcomeGroups h
  have hrecords : g.2.records = ((allEntries records).filter (fun x ↦ x.key = g.1)).map
      (·.record) := by
    rw [hmembers, hvalue]
    rfl
  rw [hrecords, List.mem_map]
  constructor
  · rintro ⟨x, hx, rfl⟩
    obtain ⟨hentry, hxkey⟩ := List.mem_filter.1 hx
    obtain ⟨r, hr, hxr⟩ := List.mem_flatMap.1 hentry
    obtain ⟨p, hp, rfl⟩ := List.mem_map.1 hxr
    rw [hkey] at hxkey
    obtain ⟨henvironment, hlane, hdimension, hgroupingKey⟩ :=
      joinedKey_inj (of_decide_eq_true hxkey)
    refine ⟨hr, henvironment, hlane, ?_⟩
    rw [← hdimension, ← hgroupingKey]
    exact hp
  · rintro ⟨hr, henvironment, hlane, hp⟩
    refine ⟨⟨r, g.2.dimension, g.2.groupingKey⟩, List.mem_filter.2 ⟨?_, decide_eq_true ?_⟩, rfl⟩
    · exact List.mem_flatMap.2 ⟨r, hr, List.mem_map.2 ⟨_, hp, rfl⟩⟩
    · rw [hkey, GroupEntry.key, OutcomeGroup.key, henvironment, hlane]

/-! ## Partition -/

/-- The entries of a record in a single-valued dimension. -/
theorem entries_single (d : SingleDimension) (r : AggregatedRecord) :
    (r.entries.filter fun e ↦ e.dimension = .single d).length =
      (truthy (d.value r)).toList.length := by
  have hmulti : (MultiDimension.all.flatMap fun m ↦
      ((m.values r).filter (· ≠ "")).map fun v ↦ (OutcomeDimension.multi m, v)).filter
        (fun p ↦ p.1 = .single d) = [] := by
    refine List.filter_eq_nil_iff.2 fun p hp hdimension ↦ ?_
    obtain ⟨m, _, hm⟩ := List.mem_flatMap.1 hp
    obtain ⟨v, _, rfl⟩ := List.mem_map.1 hm
    exact absurd (of_decide_eq_true hdimension) nofun
  have hsingle : ∀ ds : List SingleDimension, ds.Nodup →
      ((ds.filterMap fun d' ↦ (truthy (d'.value r)).map fun v ↦
        (OutcomeDimension.single d', v)).filter fun p ↦ p.1 = .single d).length =
        if d ∈ ds then (truthy (d.value r)).toList.length else 0 := by
    intro ds hnodup
    induction ds with
    | nil => rfl
    | cons d' ds ih =>
      obtain ⟨hnot, hrest⟩ := List.nodup_cons.1 hnodup
      have hih := ih hrest
      rw [List.filterMap_cons]
      by_cases hd : d' = d
      · rw [if_neg (hd ▸ hnot)] at hih
        rw [if_pos (hd ▸ List.mem_cons_self)]
        rw [hd]
        rcases truthy (d.value r) with - | v
        · exact hih
        · rw [Option.map_some]
          dsimp only
          rw [List.filter_cons, if_pos (decide_eq_true rfl), List.length_cons, hih]
          rfl
      · have hmem : d ∈ d' :: ds ↔ d ∈ ds := by
          rw [List.mem_cons, or_iff_right (Ne.symm hd)]
        rw [if_congr hmem rfl rfl, ← hih]
        rcases truthy (d'.value r) with - | v
        · rfl
        · rw [Option.map_some]
          dsimp only
          rw [List.filter_cons, if_neg (by simpa using hd)]
  rw [AggregatedRecord.entries, List.filter_map, List.length_map]
  change ((aggregateDimensions r).filter fun p ↦ p.1 = .single d).length = _
  rw [aggregateDimensions, List.filter_append, hmulti, List.append_nil,
    hsingle _ (by decide), if_pos (by rcases d with _ | _ <;> decide)]

/-- The entries of all records in a single-valued dimension. -/
theorem allEntries_single (d : SingleDimension) (records : List AggregatedRecord) :
    ((allEntries records).filter fun e ↦ e.dimension = .single d).length =
      (records.filter fun r ↦ (truthy (d.value r)).isSome).length := by
  induction records with
  | nil => rfl
  | cons r records ih =>
    rw [allEntries] at ih ⊢
    rw [List.flatMap_cons, List.filter_append, List.length_append, ih, entries_single,
      List.filter_cons]
    rcases truthy (d.value r) with - | v
    · rw [if_neg (by decide)]
      exact Nat.zero_add _
    · rw [if_pos (Option.isSome_some), List.length_cons, Nat.add_comm]
      rfl

/-- **The sizes of the groups of a single-valued dimension add up** to the records that have a
value. -/
theorem outcomeGroups_single (d : SingleDimension) (records : List AggregatedRecord) :
    (((outcomeGroups records).filter fun g ↦ g.2.dimension = .single d).map fun g ↦
      g.2.records.length).sum = (records.filter fun r ↦ (truthy (d.value r)).isSome).length := by
  have hgrouped := outcomeGroups_grouped records
  -- A key belongs to the dimension of the entries that have it.
  let p : String → Bool := fun k ↦
    (allEntries records).any fun e ↦ decide (e.key = k ∧ e.dimension = .single d)
  have hp : ∀ e ∈ allEntries records, p e.key = decide (e.dimension = .single d) := by
    intro e he
    refine Bool.eq_iff_iff.2 ⟨fun h ↦ ?_, fun h ↦ ?_⟩
    · obtain ⟨x, _, hx⟩ := List.any_eq_true.1 h
      obtain ⟨hkey, hdimension⟩ := of_decide_eq_true hx
      rw [← (joinedKey_inj hkey).2.2.1]
      exact decide_eq_true hdimension
    · exact List.any_eq_true.2 ⟨e, he, decide_eq_true ⟨rfl, of_decide_eq_true h⟩⟩
  have hgroup : ∀ g ∈ outcomeGroups records, p g.1 = decide (g.2.dimension = .single d) := by
    intro g hg
    obtain ⟨e, rest, hmembers, hvalue, _⟩ := mem_outcomeGroups hg
    have he : e ∈ (allEntries records).filter (fun x ↦ x.key = g.1) := by
      rw [hmembers]
      exact List.mem_cons_self
    obtain ⟨hentry, hkey⟩ := List.mem_filter.1 he
    rw [← of_decide_eq_true hkey, hp e hentry, hvalue]
    rfl
  have hsize : ∀ g ∈ outcomeGroups records,
      g.2.records.length = ((allEntries records).filter (fun x ↦ x.key = g.1)).length := by
    intro g hg
    obtain ⟨e, rest, hmembers, hvalue, _⟩ := mem_outcomeGroups hg
    rw [hmembers, hvalue]
    exact List.length_map _
  have hsum := hgrouped.sum_length p hsize
  rw [List.filter_congr hgroup] at hsum
  rw [hsum, List.filter_congr hp, allEntries_single]

/-! ## Summaries -/

/-- Permuted lists have values or not. -/
theorem filterMap_id_eq_nil_perm {values values' : List (Option ℚ)} (h : values.Perm values') :
    values.filterMap id = [] ↔ values'.filterMap id = [] := by
  have hsupported := h.filterMap id
  constructor
  · intro hnil
    rwa [hnil, List.nil_perm] at hsupported
  · intro hnil
    rwa [hnil, List.perm_nil] at hsupported

theorem average_perm {values values' : List (Option ℚ)} (h : values.Perm values') :
    average values = average values' := by
  have hsupported := h.filterMap id
  rw [average, average]
  simp only [filterMap_id_eq_nil_perm h, hsupported.length_eq, ← List.sum_eq_foldl, hsupported.sum_eq]

theorem median_perm {values values' : List (Option ℚ)} (h : values.Perm values') :
    median values = median values' := by
  rw [median, median, Ranking.ranking_perm (· ≤ ·) (h.filterMap id) fun _ _ _ _ ↦ le_antisymm]

theorem winRate_perm {values values' : List (Option ℚ)} (h : values.Perm values') :
    winRate values = winRate values' := by
  have hwins := h.filterMap id
  rw [winRate, winRate]
  simp only [filterMap_id_eq_nil_perm h, hwins.length_eq, (hwins.filter _).length_eq]

/-- **A median is between the extremes** of its values. -/
theorem median_bounds {values : List (Option ℚ)} {m : ℚ} (h : median values = some m) :
    ∃ low high, IsLeast {v | some v ∈ values} low ∧ IsGreatest {v | some v ∈ values} high ∧
      low ≤ m ∧ m ≤ high := by
  rw [median] at h
  generalize hsorted : (values.filterMap id).insertionSort (· ≤ ·) = sorted at h
  have hmem : ∀ v, v ∈ sorted ↔ some v ∈ values := by
    intro v
    rw [← hsorted, List.mem_insertionSort, List.mem_filterMap]
    exact ⟨fun ⟨o, ho, hv⟩ ↦ hv ▸ ho, fun hv ↦ ⟨_, hv, rfl⟩⟩
  have hget : ∀ i, i < sorted.length → some (sorted.getD i 0) ∈ values := by
    intro i hi
    rw [← hmem, List.getD_eq_getElem?_getD, List.getElem?_eq_getElem hi, Option.getD_some]
    exact List.getElem_mem hi
  split at h
  · cases h
  · next hne =>
    have hlength : 0 < sorted.length := List.length_pos_iff.2 hne
    -- The median is the mean of two values, which may be the same.
    obtain ⟨a, b, ha, hb, rfl⟩ : ∃ a b, some a ∈ values ∧ some b ∈ values ∧ m = (a + b) / 2 := by
      split at h
      · have hmiddle := hget (sorted.length / 2) (by omega)
        refine ⟨_, _, hmiddle, hmiddle, ?_⟩
        rw [← Option.some_inj.1 h]
        ring
      · exact ⟨_, _, hget _ (by omega), hget _ (by omega), (Option.some_inj.1 h).symm⟩
    obtain ⟨low, hlow⟩ : ∃ low, sorted.min? = some low :=
      Option.ne_none_iff_exists'.1 (by rwa [ne_eq, List.min?_eq_none_iff])
    obtain ⟨high, hhigh⟩ : ∃ high, sorted.max? = some high :=
      Option.ne_none_iff_exists'.1 (by rwa [ne_eq, List.max?_eq_none_iff])
    obtain ⟨hlowmem, hleast⟩ := List.min?_eq_some_iff.1 hlow
    obtain ⟨hhighmem, hgreatest⟩ := List.max?_eq_some_iff.1 hhigh
    refine ⟨low, high, ⟨(hmem _).1 hlowmem, fun v hv ↦ hleast v ((hmem v).2 hv)⟩,
      ⟨(hmem _).1 hhighmem, fun v hv ↦ hgreatest v ((hmem v).2 hv)⟩, ?_, ?_⟩
    · have hla := hleast a ((hmem a).2 ha)
      have hlb := hleast b ((hmem b).2 hb)
      linarith
    · have hah := hgreatest a ((hmem a).2 ha)
      have hbh := hgreatest b ((hmem b).2 hb)
      linarith

theorem winRate_bounds {values : List (Option ℚ)} {w : ℚ} (h : winRate values = some w) :
    0 ≤ w ∧ w ≤ 1 := by
  rw [winRate] at h
  split at h
  · cases h
  · next hne =>
    obtain rfl := Option.some_inj.1 h
    have hpos : (0 : ℚ) < (values.filterMap id).length := by
      exact_mod_cast List.length_pos_iff.2 hne
    refine ⟨by positivity, (div_le_one hpos).2 ?_⟩
    exact_mod_cast List.length_filter_le _ _

/-- Rows with one value of a field and rows with another are different rows. -/
theorem countRows_add {p q : AggregatedRecord → Bool} (hdisjoint : ∀ r, p r → ¬ q r)
    (rows : List AggregatedRecord) :
    countRows p rows + countRows q rows = countRows (fun r ↦ p r || q r) rows := by
  induction rows with
  | nil => rfl
  | cons r rows ih =>
    simp only [countRows, List.filter_cons] at ih ⊢
    by_cases hp : p r
    · have hq : q r = false := Bool.eq_false_iff.2 (hdisjoint r hp)
      simp only [hp, hq, Bool.or_false, if_true, Bool.false_eq_true, if_false, List.length_cons]
      omega
    · simp only [Bool.eq_false_iff.2 hp, Bool.false_or, Bool.false_eq_true, if_false]
      by_cases hq : q r
      · simp only [hq, if_true, List.length_cons]
        omega
      · simp only [Bool.eq_false_iff.2 hq, Bool.false_eq_true, if_false]
        exact ih

theorem countRows_le (p : AggregatedRecord → Bool) (rows : List AggregatedRecord) :
    countRows p rows ≤ rows.length :=
  List.length_filter_le _ _

theorem countRows_perm {p : AggregatedRecord → Bool} {rows rows' : List AggregatedRecord}
    (h : rows.Perm rows') : countRows p rows = countRows p rows' :=
  (h.filter p).length_eq

/-! ## Aggregates -/

section Build

variable [Hashing]

/-- The order of the rows does not matter. -/
theorem aggregateBase_perm (input : AggregateInput) {g : OutcomeGroup}
    {rows : List AggregatedRecord} (h : g.records.Perm rows) :
    aggregateBase input { g with records := rows } = aggregateBase input g := by
  have haverage : ∀ f : AggregatedRecord → Option ℚ,
      average (rows.map f) = average (g.records.map f) := fun f ↦ (average_perm (h.map f)).symm
  have hmedian : ∀ f : AggregatedRecord → Option ℚ,
      median (rows.map f) = median (g.records.map f) := fun f ↦ (median_perm (h.map f)).symm
  have hwinRate : winRate (rows.map (·.realizedReturn)) =
      winRate (g.records.map (·.realizedReturn)) := (winRate_perm (h.map _)).symm
  have hcount : ∀ p : AggregatedRecord → Bool, countRows p rows = countRows p g.records :=
    fun p ↦ (countRows_perm h).symm
  have hunsupported : (rows.map (·.metricLimitations.length)).foldl (· + ·) 0 =
      (g.records.map (·.metricLimitations.length)).foldl (· + ·) 0 := by
    rw [← List.sum_eq_foldl, ← List.sum_eq_foldl]
    exact ((h.map _).sum_eq).symm
  have hwatermark : latestWatermark rows = latestWatermark g.records := by
    rw [latestWatermark, latestWatermark,
      Ranking.ranking_perm (· ≤ ·) (h.map (·.sourceWatermark)) fun _ _ _ _ ↦
        le_antisymm]
  have hlength : rows.length = g.records.length := h.length_eq.symm
  unfold aggregateBase
  simp only [hlength, hwatermark, hunsupported, hwinRate, hcount, haverage, hmedian]

variable [AggregateHashing]

theorem aggregate_perm (input : AggregateInput) {g : OutcomeGroup}
    {rows : List AggregatedRecord} (h : g.records.Perm rows) :
    aggregate input { g with records := rows } = aggregate input g := by
  simp only [aggregate, aggregateBase_perm input h]

/-- A record is one of the rows of an aggregate. -/
def AggregatedRecord.InAggregate (r : AggregatedRecord) (a : HistoricalOutcomeAggregate) : Prop :=
  r.environment = a.environment ∧ r.lane = a.lane ∧
    (a.dimension, a.groupingKey) ∈ aggregateDimensions r

/-- The values of the rows of an aggregate. -/
def HistoricalOutcomeAggregate.values (a : HistoricalOutcomeAggregate)
    (records : List AggregatedRecord) (field : AggregatedRecord → Option ℚ) : Set ℚ :=
  {v | ∃ r ∈ records, r.InAggregate a ∧ field r = some v}

/-- A number is between the extremes of some values. -/
def BetweenExtremes (values : Set ℚ) (m : ℚ) : Prop :=
  ∃ low high, IsLeast values low ∧ IsGreatest values high ∧ low ≤ m ∧ m ≤ high

/-- What one aggregate of some records is. -/
structure HistoricalOutcomeAggregate.Summarizes (a : HistoricalOutcomeAggregate)
    (input : AggregateInput) : Prop where
  sampled : 0 < a.sampleCount
  actions : a.approvedCount + a.resizedCount + a.skippedCount ≤ a.sampleCount
  joins : a.missingJoinCount + a.ambiguousJoinCount ≤ a.sampleCount
  slippage : ∀ m, a.medianSlippageBps = some m →
    BetweenExtremes (a.values input.records (·.slippageBps)) m
  realizedReturn : ∀ m, a.realizedReturnMedian = some m →
    BetweenExtremes (a.values input.records (·.realizedReturn)) m
  wins : ∀ w, a.winRate = some w → 0 ≤ w ∧ w ≤ 1
  usable : a.usableAsEvidence = true →
    ((a.missingJoinCount + a.ambiguousJoinCount : ℕ) : ℚ) ≤
      input.maximumIncompleteJoinRatio * a.sampleCount ∧ input.minimumSample ≤ a.sampleCount

/-- The aggregates of some records partition them. -/
structure PartitionsRecords (input : AggregateInput)
    (aggregates : List HistoricalOutcomeAggregate) : Prop where
  /-- One aggregate for each environment, lane, dimension and key. -/
  distinct : (aggregates.map fun a ↦ (a.environment, a.lane, a.dimension, a.groupingKey)).Nodup
  /-- Each record with a value of a single-valued dimension is counted once. -/
  partition : ∀ d : SingleDimension,
    ((aggregates.filter fun a ↦ a.dimension = .single d).map (·.sampleCount)).sum =
      (input.records.filter fun r ↦ (truthy (d.value r)).isSome).length
  summarizes : ∀ a ∈ aggregates, a.Summarizes input

/-- A median of a field of the rows of a group. -/
theorem median_between {input : AggregateInput} {g : String × OutcomeGroup}
    (hg : g ∈ outcomeGroups input.records) (field : AggregatedRecord → Option ℚ) {m : ℚ}
    (h : median (g.2.records.map field) = some m) :
    BetweenExtremes ((aggregate input g.2).values input.records field) m := by
  have hvalues : (aggregate input g.2).values input.records field =
      {v | some v ∈ g.2.records.map field} := by
    ext v
    rw [Set.mem_ofPred_eq, List.mem_map]
    constructor
    · rintro ⟨r, hr, hin, hv⟩
      exact ⟨r, (mem_records hg).2 ⟨hr, hin⟩, hv⟩
    · rintro ⟨r, hr, hv⟩
      obtain ⟨hr, hin⟩ := (mem_records hg).1 hr
      exact ⟨r, hr, hin, hv⟩
  rw [hvalues]
  exact median_bounds h

theorem aggregate_summarizes {input : AggregateInput} {g : String × OutcomeGroup}
    (hg : g ∈ outcomeGroups input.records) : (aggregate input g.2).Summarizes input := by
  have hsampled : 0 < g.2.records.length := by
    obtain ⟨e, rest, _, hvalue, _⟩ := mem_outcomeGroups hg
    rw [hvalue]
    exact Nat.succ_pos _
  have hjoins := countRows_le (fun r ↦ decide (r.joinStatus = .missing) ||
    decide (r.joinStatus = .ambiguous)) g.2.records
  rw [← countRows_add fun r hmissing hambiguous ↦ by
    rw [of_decide_eq_true hmissing] at hambiguous
    exact absurd (of_decide_eq_true hambiguous) (by decide)] at hjoins
  refine ⟨hsampled, ?_, hjoins, fun m ↦ median_between hg _, fun m ↦ median_between hg _,
    fun w ↦ winRate_bounds, fun husable ↦ ?_⟩
  · have hactions := countRows_le (fun r ↦ decide (r.arbitrationAction = some "approve") ||
      decide (r.arbitrationAction = some "resize") ||
        decide (r.arbitrationAction = some "skip")) g.2.records
    rw [← countRows_add, ← countRows_add] at hactions
    · exact hactions
    · intro r happrove hresize
      rw [of_decide_eq_true happrove] at hresize
      exact absurd (of_decide_eq_true hresize) (by decide)
    · intro r hfirst hskip
      rw [of_decide_eq_true hskip] at hfirst
      exact absurd hfirst (by decide)
  · obtain ⟨hboth, hratio⟩ := Bool.and_eq_true_iff.1 husable
    obtain ⟨-, hminimum⟩ := Bool.and_eq_true_iff.1 hboth
    refine ⟨?_, of_decide_eq_true hminimum⟩
    have hpositive : (0 : ℚ) < g.2.records.length := by exact_mod_cast hsampled
    rw [Nat.cast_add]
    exact (div_le_iff₀ hpositive).1 (of_decide_eq_true hratio)

variable [Locale]

/-- **Historical aggregates partition the records**, and do not depend on their order. -/
theorem buildHistoricalOutcomeAggregates_partition (input : AggregateInput) :
    PartitionsRecords input (buildHistoricalOutcomeAggregates input) ∧
      ∀ records', input.records.Perm records' →
        (buildHistoricalOutcomeAggregates { input with records := records' }).Perm
          (buildHistoricalOutcomeAggregates input) := by
  have hbuild : ∀ records', (buildHistoricalOutcomeAggregates
      { input with records := records' }).Perm
        ((outcomeGroups records').map fun g ↦ aggregate input g.2) := fun records' ↦
    (List.perm_insertionSort _ _).map _
  have hself := hbuild input.records
  refine ⟨⟨?_, fun d ↦ ?_, fun a ha ↦ ?_⟩, fun records' hperm ↦ ?_⟩
  · rw [(hself.map _).nodup_iff, List.map_map]
    refine List.Nodup.of_map (fun k ↦ joinedKey k.1 k.2.1 k.2.2.1 k.2.2.2) ?_
    have hkeys : (outcomeGroups input.records).map (fun g ↦ g.2.key) =
        (outcomeGroups input.records).map Prod.fst :=
      List.map_congr_left fun g hg ↦ (mem_outcomeGroups hg).choose_spec.choose_spec.2.2.symm
    rw [List.map_map]
    change ((outcomeGroups input.records).map fun g ↦ g.2.key).Nodup
    rw [hkeys]
    exact (outcomeGroups_grouped _).nodup
  · rw [((hself.filter _).map _).sum_eq, List.filter_map, List.map_map]
    exact outcomeGroups_single d input.records
  · obtain ⟨g, hg, rfl⟩ := List.mem_map.1 (hself.mem_iff.1 ha)
    exact aggregate_summarizes hg
  · refine (hbuild records').trans (List.Perm.trans ?_ hself.symm)
    refine ((outcomeGroups_grouped _).map_perm (outcomeGroups_grouped _)
      (hperm.flatMap_right _) fun k e rest e' rest' hmembers hrows ↦ ?_).symm
    -- The two groups have one key, and the same rows in some order.
    rw [foldl_newGroup, foldl_newGroup]
    have he := (hmembers e List.mem_cons_self).2
    have he' := (hmembers e' (hrows.mem_iff.2 List.mem_cons_self)).2
    obtain ⟨henvironment, hlane, hdimension, hgroupingKey⟩ := joinedKey_inj (he.trans he'.symm)
    have hgroup : groupOf e' (e' :: rest') =
        { groupOf e (e :: rest) with records := (e' :: rest').map (·.record) } := by
      rw [groupOf, groupOf, GroupEntry.newGroup, GroupEntry.newGroup, henvironment, hlane,
        hdimension, hgroupingKey]
    change aggregate input _ = aggregate input _
    rw [hgroup]
    exact (aggregate_perm input (hrows.map _)).symm

end Build

end AlpacaTrading
