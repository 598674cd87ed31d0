import Mathlib.Data.Fin.VecNotation
import Mathlib.Data.Int.ConditionallyCompleteOrder
import Mathlib.Data.String.Basic
import AlpacaTrading.Lib.Moves
import AlpacaTrading.PaperPosition.Store

/-!
# Outcomes of paper positions

The outcome of a closed position is computed from the observations that are linked to it exactly,
in the order of their times.  The first mark stands for the entry and the last one for the exit, and
the returns are measured against the first.

The extremes of the returns and their times are those of the path.  The runup and the drawdown are
both the distance between the extremes, whichever comes first, so they are the largest rise and the
largest fall only for a path that runs between its extremes in both directions
(`path_measures_iff`).
-/

namespace AlpacaTrading

namespace PaperPosition

/-! ## The source -/

/-- `row.mark ?? row.midpoint`. -/
def Observation.usedMark (o : Observation) : Option ℚ := o.evidence.mark.or o.evidence.midpoint

/-- `percentReturn`. -/
def percentReturn (entry current : ℚ) (side : PositionSide) : ℚ :=
  (match side with
    | .short => entry - current
    | .long => current - entry) / entry * 100

/-- `ORDER BY observed_at, observation_id`. -/
def Observation.NotAfter (a b : Observation) : Prop :=
  a.evidence.observedAt < b.evidence.observedAt ∨
    a.evidence.observedAt = b.evidence.observedAt ∧ a.observationId ≤ b.observationId

instance : DecidableRel Observation.NotAfter :=
  fun _ _ ↦ inferInstanceAs (Decidable (_ ∨ _ ∧ _))

/-- The observations with a link of a kind to a position. -/
def Db.Linked (db : Db) (lifecycleId : String) (linkageStatus : LinkageStatus) (o : Observation) :
    Prop :=
  ∃ l ∈ db.links.rows, l.observationId = o.observationId ∧ l.positionLifecycleId = lifecycleId ∧
    l.linkageStatus = linkageStatus

instance (db : Db) (lifecycleId : String) (linkageStatus : LinkageStatus) :
    DecidablePred (db.Linked lifecycleId linkageStatus) :=
  fun _ ↦ inferInstanceAs (Decidable (∃ l ∈ db.links.rows, _))

/-- The observations that are linked to a position exactly, in order. -/
def Db.exactObservations (db : Db) (lifecycleId : String) : List Observation :=
  (db.observations.rows.filter fun o ↦ db.Linked lifecycleId .exact o).insertionSort
    Observation.NotAfter

/-- The lineage of a position is ambiguous. -/
def Db.Ambiguous (db : Db) (position : PositionRow) : Prop :=
  position.linkageStatus = .ambiguousNettedPosition ∨
    ∃ l ∈ db.links.rows, l.positionLifecycleId = position.positionLifecycleId ∧
      l.linkageStatus = .ambiguousNettedPosition

instance (db : Db) : DecidablePred db.Ambiguous :=
  fun _ ↦ inferInstanceAs (Decidable (_ ∨ ∃ l ∈ db.links.rows, _))

/-- The measures of a path of returns, before they are rounded.  A time that cannot be read is
missing. -/
structure PathMeasures where
  realizedReturn : ℚ
  mfe : ℚ
  mae : ℚ
  timeToMfe : Option ℤ
  timeToMae : Option ℤ
  timeToFirstProfit : Option ℤ
  holdingDuration : Option ℤ
  maximumRunup : ℚ
  maximumDrawdown : ℚ
deriving DecidableEq

/-- The time from the first observation to another one. -/
def elapsed (times : List (Option Time)) (index : ℕ) : Option ℤ := do
  let openedAt ← (times[0]?).join
  let time ← (times[index]?).join
  return time - openedAt

/-- The measures of the returns, of which there is one at least. -/
def pathMeasures (returns : List ℚ) (times : List (Option Time)) : Option PathMeasures := do
  let maxReturn ← returns.max?
  let minReturn ← returns.min?
  let realizedReturn ← returns.getLast?
  return {
    realizedReturn
    mfe := maxReturn
    mae := minReturn
    timeToMfe := elapsed times (returns.idxOf maxReturn)
    timeToMae := elapsed times (returns.idxOf minReturn)
    timeToFirstProfit := (returns.findIdx? (0 < ·)).bind (elapsed times)
    holdingDuration := elapsed times (times.length - 1)
    maximumRunup := maxReturn - minReturn
    maximumDrawdown := minReturn - maxReturn }

section Locale

variable [Locale]

/-- The marks of entry and exit of an outcome that can be computed, and the measures between. -/
structure Measured where
  entryPrice : ℚ
  exitPrice : ℚ
  measures : PathMeasures
deriving DecidableEq

/-- The first and the last mark, if there are two observations and both marks are positive. -/
def endMarks (observations : List Observation) : Option (ℚ × ℚ) := do
  let entryPrice ← positive (observations.head?.bind (·.usedMark))
  let exitPrice ← positive (observations.getLast?.bind (·.usedMark))
  if 2 ≤ observations.length then some (entryPrice, exitPrice) else none

/-- What is computed for a position, before it is rounded: nothing if its lineage is ambiguous, if
the first or the last mark is missing, or if one between them is. -/
def Db.measured (db : Db) (position : PositionRow) : Option Measured := do
  let observations := db.exactObservations position.positionLifecycleId
  let (entryPrice, exitPrice) ← if db.Ambiguous position then none else endMarks observations
  let returns ← observations.mapM fun o ↦
    (positive o.usedMark).map (percentReturn entryPrice · position.side)
  let measures ← pathMeasures returns
    (observations.map fun o ↦ Locale.dateParse o.evidence.observedAt)
  return { entryPrice, exitPrice, measures }

/-- The return of the underlying, from the first and the last price of it. -/
def underlyingReturn (observations : List Observation) (side : PositionSide) : Option ℚ := do
  let entry ← positive (observations.head?.bind (·.evidence.underlyingPrice))
  let exit ← positive (observations.getLast?.bind (·.evidence.underlyingPrice))
  return percentReturn entry exit side

/-- `completeness_status` and `evaluation_reason`. -/
def Db.completeness (db : Db) (position : PositionRow) : CompletenessStatus × Option String :=
  let observations := db.exactObservations position.positionLifecycleId
  if db.Ambiguous position then (.ambiguousLineage, some "AMBIGUOUS_NETTED_POSITION")
  else if (endMarks observations).isNone then
    (.insufficientObservations, some "ENTRY_OR_EXIT_MARK_MISSING")
  else if (db.measured position).isNone then
    (.insufficientObservations, some "INTERMEDIATE_MARK_MISSING")
  else
    let basisMissing := position.assetClass = .option ∧
      underlyingReturn observations position.side = none
    if observations.any (·.evidence.dataQualityStatus ≠ "COMPLETE") then
      (.partially, some (if basisMissing then "UNDERLYING_RETURN_BASIS_MISSING"
        else "PARTIAL_OBSERVATION_QUALITY"))
    else if basisMissing then (.partially, some "UNDERLYING_RETURN_BASIS_MISSING")
    else (.complete, none)

/-- The outcome of a closed position. -/
def Db.outcomeOf (db : Db) (outcomeId exitReasonCode closedAt : String) (position : PositionRow) :
    OutcomeRow :=
  let observations := db.exactObservations position.positionLifecycleId
  let measured := db.measured position
  let measures := measured.map (·.measures)
  let realizedReturnPct := measures.map (round ·.realizedReturn)
  { outcomeId
    positionLifecycleId := position.positionLifecycleId
    entryDecisionId := position.entryDecisionId
    exitDecisionId := position.terminalExitDecisionId
    terminalStatus := position.status
    closedAt
    entryPrice := measured.map (·.entryPrice)
    exitPrice := measured.map (·.exitPrice)
    quantity := position.entryQuantity
    realizedPnl := measured.map fun m ↦
      round (sign position.side * (m.exitPrice - m.entryPrice) *
        ((position.entryQuantity.or (observations.head?.bind (·.evidence.quantity))).getD 0) *
        multiplier position.assetClass)
    realizedReturnPct
    optionPositionReturnPct := match position.assetClass with
      | .option => realizedReturnPct
      | .equity => none
    underlyingReturnPct := measured.bind fun _ ↦
      (underlyingReturn observations position.side).map round
    holdingDurationMs := measures.bind (·.holdingDuration)
    mfePct := measures.map (round ·.mfe)
    maePct := measures.map (round ·.mae)
    timeToMfeMs := measures.bind (·.timeToMfe)
    timeToMaeMs := measures.bind (·.timeToMae)
    timeToFirstProfitMs := measures.bind (·.timeToFirstProfit)
    maximumRunupPct := measures.map (round ·.maximumRunup)
    maximumDrawdownPct := measures.map (round ·.maximumDrawdown)
    exitReasonCode
    dataQualityStatus :=
      if observations = [] then "MISSING"
      else if observations.all (·.evidence.dataQualityStatus = "COMPLETE") then "COMPLETE"
      else "PARTIAL"
    completenessStatus := (db.completeness position).1
    evaluationReason := (db.completeness position).2
    calculationBasis := {
      exactObservationIds :=
        if db.Ambiguous position then [] else observations.map (·.observationId)
      optionMultiplier := multiplier position.assetClass
      returnDirection := position.side } }

/-- `persistPaperPositionOutcome`, with the identifier drawn for a new outcome. -/
def persistPaperPositionOutcome (outcomeId positionLifecycleId exitReasonCode : String) (db : Db) :
    Except String (Db × OutcomeRow) :=
  match db.outcomes.rows.find? (·.positionLifecycleId = positionLifecycleId) with
  | some original => .ok (db, original)
  | none =>
    match db.positions.get? positionLifecycleId with
    | none => .error "PAPER_POSITION_NOT_FOUND"
    | some position =>
      match position.status, truthy position.closedAt with
      | .closed, some closedAt => do
        let outcome := db.outcomeOf outcomeId exitReasonCode closedAt position
        let outcomes ← db.outcomes.insertOne outcome constraintError
        .ok ({ db with outcomes }, outcome)
      | _, _ => .error "PAPER_POSITION_NOT_TERMINAL"

end Locale

/-! ## The path of the returns -/

section Path

variable {n : ℕ} {r : Fin (n + 1) → ℚ} {t : Fin (n + 1) → Time}

/-- The values of a path have a first index each. -/
theorem exists_firstAt {v : ℚ} (h : v ∈ List.ofFn r) :
    ∃ i, (List.ofFn r).idxOf v = i.val ∧ Path.FirstAt r v i := by
  have hlt := List.idxOf_lt_length_of_mem h
  have hlt' := hlt
  rw [List.length_ofFn] at hlt'
  refine ⟨⟨(List.ofFn r).idxOf v, hlt'⟩, rfl, ?_, fun j hj hvalue ↦ ?_⟩
  · have hget := List.getElem_idxOf hlt
    rwa [List.getElem_ofFn] at hget
  · have hlength : j.val < (List.ofFn r).length := by
      rw [List.length_ofFn]
      exact j.isLt
    have hbefore : ((List.ofFn r)[j.val] == v) = false := List.not_of_lt_findIdx hj
    rw [List.getElem_ofFn, beq_eq_false_iff_ne] at hbefore
    exact hbefore hvalue

theorem getLast?_ofFn {α : Type} (f : Fin (n + 1) → α) :
    (List.ofFn f).getLast? = some (f (Fin.last n)) := by
  rw [List.getLast?_eq_getElem?, List.length_ofFn, Nat.add_sub_cancel, List.getElem?_ofFn,
    dif_pos (Nat.lt_succ_self n)]
  rfl

theorem elapsed_ofFn (i : Fin (n + 1)) :
    elapsed (List.ofFn fun i ↦ some (t i)) i = some (t i - t 0) := by
  rw [elapsed, List.getElem?_ofFn, List.getElem?_ofFn, dif_pos (Nat.succ_pos n), dif_pos i.isLt]
  rfl

/-- What the measures of a path are. -/
structure PathMeasures.Of (m : PathMeasures) (r : Fin (n + 1) → ℚ) (t : Fin (n + 1) → Time) :
    Prop where
  realizedReturn : m.realizedReturn = r (Fin.last n)
  mfe : IsGreatest (Set.range r) m.mfe
  mae : IsLeast (Set.range r) m.mae
  timeToMfe : ∃ i, Path.FirstAt r m.mfe i ∧ m.timeToMfe = some (t i - t 0)
  timeToMae : ∃ i, Path.FirstAt r m.mae i ∧ m.timeToMae = some (t i - t 0)
  holdingDuration : m.holdingDuration = some (t (Fin.last n) - t 0)
  maximumRunup : m.maximumRunup = m.mfe - m.mae
  maximumDrawdown : m.maximumDrawdown = m.mae - m.mfe

theorem exists_pathMeasures (r : Fin (n + 1) → ℚ) (t : Fin (n + 1) → Time) :
    ∃ m, pathMeasures (List.ofFn r) (List.ofFn fun i ↦ some (t i)) = some m ∧ m.Of r t := by
  have hne : List.ofFn r ≠ [] := by simp
  obtain ⟨top, htop⟩ := Option.isSome_iff_exists.1 (List.isSome_max?_of_ne_nil hne)
  obtain ⟨bottom, hbottom⟩ := Option.isSome_iff_exists.1 (List.isSome_min?_of_ne_nil hne)
  obtain ⟨hmem, hle⟩ := List.max?_eq_some_iff.1 htop
  obtain ⟨hmem', hle'⟩ := List.min?_eq_some_iff.1 hbottom
  obtain ⟨i, hi, hfirst⟩ := exists_firstAt hmem
  obtain ⟨j, hj, hfirst'⟩ := exists_firstAt hmem'
  refine ⟨_, by rw [pathMeasures, htop, hbottom, getLast?_ofFn]; rfl, ?_⟩
  constructor
  case realizedReturn => rfl
  case mfe =>
    refine ⟨(List.mem_ofFn' _ _).1 hmem, ?_⟩
    rintro - ⟨k, rfl⟩
    exact hle _ ((List.mem_ofFn' _ _).2 ⟨k, rfl⟩)
  case mae =>
    refine ⟨(List.mem_ofFn' _ _).1 hmem', ?_⟩
    rintro - ⟨k, rfl⟩
    exact hle' _ ((List.mem_ofFn' _ _).2 ⟨k, rfl⟩)
  case timeToMfe => exact ⟨i, hfirst, by rw [hi, elapsed_ofFn]⟩
  case timeToMae => exact ⟨j, hfirst', by rw [hj, elapsed_ofFn]⟩
  case holdingDuration =>
    rw [List.length_ofFn, Nat.add_sub_cancel]
    exact elapsed_ofFn (Fin.last n)
  case maximumRunup => rfl
  case maximumDrawdown => rfl

end Path

/-! ## The measures of a position -/

section Measures

/-- Rounding keeps the order. -/
theorem round_mono {a b : ℚ} (h : a ≤ b) : round a ≤ round b := by
  rw [round, round]
  exact div_le_div_of_nonneg_right (by exact_mod_cast Decimal.roundHalfAway_mono h) (by positivity)

theorem round_zero : round 0 = 0 := by
  have h : Decimal.roundHalfAway 8 ((0 : ℤ) / 10 ^ 8) = 0 := Decimal.roundHalfAway_div 0
  rw [Int.cast_zero, zero_div] at h
  rw [round, h, Int.cast_zero, zero_div]

/-- The first mark is no gain. -/
theorem percentReturn_self (entry : ℚ) (side : PositionSide) : percentReturn entry entry side = 0 := by
  rcases side with - | -
  · rw [percentReturn, sub_self, zero_div, zero_mul]
  · rw [percentReturn, sub_self, zero_div, zero_mul]

/-- The returns of a side are in the order of the marks, or in the reverse order. -/
theorem runsBothWays_returns {ι : Type*} [Preorder ι] {entry : ℚ} (hpos : 0 < entry) (marks : ι → ℚ)
    (side : PositionSide) :
    Path.RunsBothWays (fun i ↦ percentReturn entry (marks i) side) ↔ Path.RunsBothWays marks := by
  have hscale : ∀ a b : ℚ, a / entry * 100 ≤ b / entry * 100 ↔ a ≤ b := by
    intro a b
    rw [mul_le_mul_iff_of_pos_right (by norm_num), div_le_div_iff_of_pos_right hpos]
  rcases side with - | -
  · refine Path.runsBothWays_congr fun i j ↦ ?_
    rw [percentReturn, percentReturn, hscale, sub_le_sub_iff_right]
  · refine Path.runsBothWays_congr_reverse fun i j ↦ ?_
    rw [percentReturn, percentReturn, hscale, sub_le_sub_iff_left]

theorem mapM_eq_some {α β : Type} {f : α → Option β} {l : List α} {l' : List β}
    (h : l.map f = l'.map some) : l.mapM f = some l' := by
  induction l generalizing l' with
  | nil =>
    obtain rfl : l' = [] := List.map_eq_nil_iff.1 h.symm
    rfl
  | cons a l ih =>
    rcases l' with - | ⟨b, l'⟩
    · simp at h
    · obtain ⟨hhead, htail⟩ := List.cons_eq_cons.1 h
      rw [List.mapM_cons, hhead, ih htail]
      rfl

/-- The converse. -/
theorem map_of_mapM {α β : Type} {f : α → Option β} {l : List α} {l' : List β}
    (h : l.mapM f = some l') : l.map f = l'.map some := by
  induction l generalizing l' with
  | nil =>
    obtain rfl := Option.some_inj.1 h
    rfl
  | cons a l ih =>
    rw [List.mapM_cons] at h
    obtain ⟨b, hb, h⟩ := Option.bind_eq_some_iff.1 h
    obtain ⟨bs, hbs, h⟩ := Option.bind_eq_some_iff.1 h
    obtain rfl := Option.some_inj.1 h
    rw [List.map_cons, List.map_cons, hb, ih hbs]

theorem endMarks_eq {observations : List Observation} {n : ℕ} {marks : Fin (n + 2) → ℚ}
    (hmarks : observations.map (·.usedMark) = List.ofFn fun i ↦ some (marks i))
    (hpos : ∀ i, 0 < marks i) :
    endMarks observations = some (marks 0, marks (Fin.last (n + 1))) := by
  have hlength : observations.length = n + 2 := by
    rw [← List.length_map (f := (·.usedMark)), hmarks, List.length_ofFn]
  have hhead : observations.head?.bind (·.usedMark) = some (marks 0) := by
    have hmap := congrArg List.head? hmarks
    rw [List.head?_map, List.ofFn_succ, List.head?_cons, Option.map_eq_some_iff] at hmap
    obtain ⟨o, ho, hmark⟩ := hmap
    rw [ho, Option.bind_some, hmark]
  have hlast : observations.getLast?.bind (·.usedMark) = some (marks (Fin.last (n + 1))) := by
    have hmap := congrArg List.getLast? hmarks
    rw [List.getLast?_map, getLast?_ofFn, Option.map_eq_some_iff] at hmap
    obtain ⟨o, ho, hmark⟩ := hmap
    rw [ho, Option.bind_some, hmark]
  have hpositive : ∀ i, positive (some (marks i)) = some (marks i) := fun i ↦ by
    rw [positive, Option.filter_some, if_pos (decide_eq_true (hpos i))]
  rw [endMarks, hhead, hlast, hpositive, hpositive, hlength]
  simp only [Option.bind_eq_bind, Option.bind_some]
  rw [if_pos (by omega)]

variable [Locale] {db : Db} {position : PositionRow} {n : ℕ} {marks : Fin (n + 2) → ℚ}
  {times : Fin (n + 2) → Time}

/-- The observations of a position have these marks, all of them positive, and these times. -/
structure Db.Observed (db : Db) (position : PositionRow) (marks : Fin (n + 2) → ℚ)
    (times : Fin (n + 2) → Time) : Prop where
  marked : (db.exactObservations position.positionLifecycleId).map (·.usedMark) =
    List.ofFn fun i ↦ some (marks i)
  pos : ∀ i, 0 < marks i
  timed : (db.exactObservations position.positionLifecycleId).map
    (fun o ↦ Locale.dateParse o.evidence.observedAt) = List.ofFn fun i ↦ some (times i)

/-- What is computed for a position whose lineage is not ambiguous. -/
theorem Db.Observed.exists_measured (h : db.Observed position marks times)
    (hlineage : ¬ db.Ambiguous position) :
    ∃ m, db.measured position = some m ∧
      m.measures.Of (fun i ↦ percentReturn (marks 0) (marks i) position.side) times := by
  obtain ⟨m, hm, hof⟩ := exists_pathMeasures
    (fun i ↦ percentReturn (marks 0) (marks i) position.side) times
  have hreturn : ∀ i, (positive (some (marks i))).map (percentReturn (marks 0) · position.side) =
      some (percentReturn (marks 0) (marks i) position.side) := fun i ↦ by
    rw [positive, Option.filter_some, if_pos (decide_eq_true (h.pos i))]
    rfl
  have hreturns : (db.exactObservations position.positionLifecycleId).mapM (fun o ↦
      (positive o.usedMark).map (percentReturn (marks 0) · position.side)) =
      some (List.ofFn fun i ↦ percentReturn (marks 0) (marks i) position.side) := by
    have hmap := congrArg (List.map fun mark ↦
      (positive mark).map (percentReturn (marks 0) · position.side)) h.marked
    rw [List.map_map, List.map_ofFn] at hmap
    refine mapM_eq_some (hmap.trans ?_)
    rw [List.map_ofFn]
    exact congrArg List.ofFn (funext hreturn)
  refine ⟨⟨marks 0, marks (Fin.last (n + 1)), m⟩, ?_, hof⟩
  rw [Db.measured]
  simp only [if_neg hlineage, endMarks_eq h.marked h.pos, Option.bind_eq_bind, Option.bind_some,
    hreturns, h.timed, hm]
  rfl

/-- Nothing is computed for a position whose lineage is ambiguous. -/
theorem Db.measured_eq_none (hlineage : db.Ambiguous position) : db.measured position = none := by
  rw [Db.measured]
  simp only [if_pos hlineage]
  rfl

end Measures

/-! ## What an outcome says of its path -/

section Outcome

/-- The measures describe a path of returns: they are between the extremes, the extremes are the
largest and the smallest return with the times of their first occurrence, and the runup and the
drawdown are the largest rise and the largest fall. -/
structure PathMeasures.Describe {n : ℕ} (m : PathMeasures) (r : Fin (n + 1) → ℚ)
    (t : Fin (n + 1) → Time) : Prop where
  realized : m.realizedReturn = r (Fin.last n)
  between : m.mae ≤ m.realizedReturn ∧ m.realizedReturn ≤ m.mfe
  around : m.mae ≤ 0 ∧ 0 ≤ m.mfe
  mfe : IsGreatest (Set.range r) m.mfe
  mae : IsLeast (Set.range r) m.mae
  timeToMfe : ∃ i, Path.FirstAt r m.mfe i ∧ m.timeToMfe = some (t i - t 0)
  timeToMae : ∃ i, Path.FirstAt r m.mae i ∧ m.timeToMae = some (t i - t 0)
  within : ∀ holding, m.holdingDuration = some holding →
    (∀ time ∈ m.timeToMfe, 0 ≤ time ∧ time ≤ holding) ∧
      ∀ time ∈ m.timeToMae, 0 ≤ time ∧ time ≤ holding
  holdingDuration : m.holdingDuration = some (t (Fin.last n) - t 0)
  runup : IsGreatest (Path.moves r) m.maximumRunup
  drawdown : IsLeast (Path.moves r) m.maximumDrawdown

/-- The columns of an outcome are measures to eight decimals, which keeps their order. -/
structure OutcomeRow.Records (outcome : OutcomeRow) (m : PathMeasures) : Prop where
  realizedReturnPct : outcome.realizedReturnPct = some (round m.realizedReturn)
  mfePct : outcome.mfePct = some (round m.mfe)
  maePct : outcome.maePct = some (round m.mae)
  timeToMfeMs : outcome.timeToMfeMs = m.timeToMfe
  timeToMaeMs : outcome.timeToMaeMs = m.timeToMae
  holdingDurationMs : outcome.holdingDurationMs = m.holdingDuration
  maximumRunupPct : outcome.maximumRunupPct = some (round m.maximumRunup)
  maximumDrawdownPct : outcome.maximumDrawdownPct = some (round m.maximumDrawdown)
  between : round m.mae ≤ round m.realizedReturn ∧ round m.realizedReturn ≤ round m.mfe
  around : round m.mae ≤ 0 ∧ 0 ≤ round m.mfe

variable {n : ℕ} {m : PathMeasures} {r : Fin (n + 1) → ℚ} {t : Fin (n + 1) → Time}

theorem PathMeasures.Of.between (h : m.Of r t) :
    m.mae ≤ m.realizedReturn ∧ m.realizedReturn ≤ m.mfe := by
  rw [h.realizedReturn]
  exact ⟨h.mae.2 ⟨_, rfl⟩, h.mfe.2 ⟨_, rfl⟩⟩

theorem PathMeasures.Of.around (h : m.Of r t) (hzero : r 0 = 0) : m.mae ≤ 0 ∧ 0 ≤ m.mfe := by
  rw [← hzero]
  exact ⟨h.mae.2 ⟨_, rfl⟩, h.mfe.2 ⟨_, rfl⟩⟩

/-- The measures describe a path that starts at zero exactly when it runs both ways. -/
theorem PathMeasures.Of.describe_iff (h : m.Of r t) (hzero : r 0 = 0) (hsorted : Monotone t) :
    m.Describe r t ↔ Path.RunsBothWays r := by
  rw [Path.runsBothWays_iff h.mfe h.mae, ← h.maximumRunup, ← h.maximumDrawdown]
  constructor
  · intro hdescribe
    exact ⟨hdescribe.runup, hdescribe.drawdown⟩
  · rintro ⟨hrunup, hdrawdown⟩
    have hwithin : ∀ v, ∀ o : Option ℤ, (∃ i, Path.FirstAt r v i ∧ o = some (t i - t 0)) →
        ∀ time ∈ o, 0 ≤ time ∧ time ≤ t (Fin.last n) - t 0 := by
      rintro v - ⟨i, -, rfl⟩ time htime
      obtain rfl := Option.some_inj.1 htime
      exact ⟨sub_nonneg.2 (hsorted (Fin.zero_le i)), sub_le_sub_right (hsorted (Fin.le_last i)) _⟩
    refine ⟨h.realizedReturn, h.between, h.around hzero, h.mfe, h.mae, h.timeToMfe, h.timeToMae,
      fun holding hholding ↦ ?_, h.holdingDuration, hrunup, hdrawdown⟩
    rw [h.holdingDuration, Option.some_inj] at hholding
    rw [← hholding]
    exact ⟨hwithin _ _ h.timeToMfe, hwithin _ _ h.timeToMae⟩

end Outcome

section Persist

variable [Locale] {db : Db} {position : PositionRow} {n : ℕ} {marks : Fin (n + 2) → ℚ}
  {times : Fin (n + 2) → Time} {outcomeId exitReasonCode closedAt : String}

/-- The outcome of a position records what was measured. -/
theorem Db.outcomeOf_records {m : Measured} (h : db.measured position = some m)
    (hbetween : m.measures.mae ≤ m.measures.realizedReturn ∧
      m.measures.realizedReturn ≤ m.measures.mfe)
    (haround : m.measures.mae ≤ 0 ∧ 0 ≤ m.measures.mfe) :
    (db.outcomeOf outcomeId exitReasonCode closedAt position).Records m.measures := by
  refine ⟨?_, ?_, ?_, ?_, ?_, ?_, ?_, ?_, ⟨round_mono hbetween.1, round_mono hbetween.2⟩, ?_⟩
  case refine_9 =>
    rw [← round_zero]
    exact ⟨round_mono haround.1, round_mono haround.2⟩
  all_goals
    rw [Db.outcomeOf, h]
    rfl

/-- A closed position without an outcome gets one. -/
theorem exists_persist (hposition : db.positions.get? position.positionLifecycleId = some position)
    (hstatus : position.status = .closed) (hclosed : truthy position.closedAt = some closedAt)
    (hnone : ∀ o ∈ db.outcomes.rows, o.positionLifecycleId ≠ position.positionLifecycleId)
    (hfresh : ∀ o ∈ db.outcomes.rows, o.outcomeId ≠ outcomeId) :
    ∃ db', persistPaperPositionOutcome outcomeId position.positionLifecycleId exitReasonCode db =
      .ok (db', db.outcomeOf outcomeId exitReasonCode closedAt position) := by
  have hfind : db.outcomes.rows.find?
      (·.positionLifecycleId = position.positionLifecycleId) = none := by
    rw [List.find?_eq_none]
    intro o ho
    simpa using hnone o ho
  obtain ⟨outcomes, houtcomes⟩ := Table.insert?_isSome (t := db.outcomes)
    (r := db.outcomeOf outcomeId exitReasonCode closedAt position) fun o ho hclash ↦
      hclash.elim (hfresh o ho) (hnone o ho)
  refine ⟨{ db with outcomes }, ?_⟩
  rw [persistPaperPositionOutcome, hfind]
  dsimp only
  rw [hposition]
  dsimp only
  rw [hstatus, hclosed]
  dsimp only
  rw [Table.insertOne_eq_ok.2 houtcomes]
  rfl

/-- **Path measures.**  The outcome of a closed position with at least two exactly linked
observations, in the order of their times and with positive marks, records measures that describe
the path of its returns exactly when its lineage is not ambiguous and the marks run between their
extremes in both directions. -/
theorem path_measures_iff
    (hposition : db.positions.get? position.positionLifecycleId = some position)
    (hstatus : position.status = .closed) (hclosed : truthy position.closedAt = some closedAt)
    (hnone : ∀ o ∈ db.outcomes.rows, o.positionLifecycleId ≠ position.positionLifecycleId)
    (hfresh : ∀ o ∈ db.outcomes.rows, o.outcomeId ≠ outcomeId)
    (hobserved : db.Observed position marks times) (hsorted : Monotone times) :
    ∃ db' outcome, persistPaperPositionOutcome outcomeId position.positionLifecycleId
        exitReasonCode db = .ok (db', outcome) ∧
      ((∃ m, db.measured position = some m ∧ outcome.Records m.measures ∧
          m.measures.Describe (fun i ↦ percentReturn (marks 0) (marks i) position.side) times) ↔
        ¬ db.Ambiguous position ∧ Path.RunsBothWays marks) := by
  obtain ⟨db', hpersist⟩ : ∃ db', persistPaperPositionOutcome outcomeId
      position.positionLifecycleId exitReasonCode db =
      .ok (db', db.outcomeOf outcomeId exitReasonCode closedAt position) :=
    exists_persist hposition hstatus hclosed hnone hfresh
  refine ⟨db', _, hpersist, ?_⟩
  by_cases hlineage : db.Ambiguous position
  · refine iff_of_false ?_ fun h ↦ h.1 hlineage
    rintro ⟨m, hm, -⟩
    rw [Db.measured_eq_none hlineage] at hm
    cases hm
  · obtain ⟨m, hm, hof⟩ := hobserved.exists_measured hlineage
    have hzero := percentReturn_self (marks 0) position.side
    have hiff := hof.describe_iff hzero hsorted
    rw [runsBothWays_returns (hobserved.pos 0)] at hiff
    constructor
    · rintro ⟨m', hm', -, hdescribe⟩
      obtain rfl := Option.some_inj.1 (hm.symm.trans hm')
      exact ⟨hlineage, hiff.1 hdescribe⟩
    · rintro ⟨-, hruns⟩
      exact ⟨m, hm, Db.outcomeOf_records hm hof.between (hof.around hzero), hiff.2 hruns⟩

end Persist

/-! ## A position that rises and falls, and one that only rises -/

namespace Specimen

/-- Three times, one second apart. -/
@[reducible] def clock : Locale where
  dateParse s :=
    if s = "2026-01-05T15:00:00.000Z" then some 1767625200000
    else if s = "2026-01-05T15:00:01.000Z" then some 1767625201000
    else if s = "2026-01-05T15:00:02.000Z" then some 1767625202000
    else none
  collates a b := decide (a ≤ b)

/-- A closed long position of ten shares. -/
def closedPosition : PositionRow where
  positionLifecycleId := "lifecycle"
  entryDecisionId := "entry"
  terminalExitDecisionId := some "exit"
  symbol := "XYZ"
  optionSymbol := none
  assetClass := .equity
  side := .long
  brokerEntryOrderId := some "order"
  entryClientOrderId := "client"
  status := .closed
  openedAt := "2026-01-05T15:00:00.000Z"
  closedAt := some "2026-01-05T15:00:02.000Z"
  entryQuantity := some 10
  entryPrice := some 100

/-- An observation of it. -/
def observation (observationId observedAt : String) (mark : ℚ) : Observation where
  observationId := observationId
  evidence := {
    brokerSymbolKey := "XYZ", symbol := "XYZ", optionSymbol := none, observedAt
    underlyingPrice := some mark, midpoint := none, mark := some mark, quantity := some 10
    dataQualityStatus := "COMPLETE", details := {} }

/-- Its link. -/
def exactLink (observationId : String) : ObservationLink where
  observationId := observationId
  positionLifecycleId := "lifecycle"
  decisionId := some "entry"
  linkageStatus := .exact

/-- A rise from 100 to 110. -/
def rising : Db where
  positions := .ofRows [closedPosition]
  observations := .ofRows [
    observation "first" "2026-01-05T15:00:00.000Z" 100,
    observation "second" "2026-01-05T15:00:01.000Z" 110]
  links := .ofRows [exactLink "first", exactLink "second"]

/-- The rise, and a fall back to 100. -/
def returning : Db where
  positions := .ofRows [closedPosition]
  observations := .ofRows [
    observation "first" "2026-01-05T15:00:00.000Z" 100,
    observation "second" "2026-01-05T15:00:01.000Z" 110,
    observation "third" "2026-01-05T15:00:02.000Z" 100]
  links := .ofRows [exactLink "first", exactLink "second", exactLink "third"]

end Specimen

/-- The theorem at the specimen. -/
theorem returning_measures :
    let _ := Specimen.clock
    let position := Specimen.closedPosition
    let marks : Fin 3 → ℚ := ![100, 110, 100]
    let times : Fin 3 → Time := ![1767625200000, 1767625201000, 1767625202000]
    ∃ db' outcome, persistPaperPositionOutcome "outcome" position.positionLifecycleId "TARGET"
        Specimen.returning = .ok (db', outcome) ∧
      ((∃ m, Specimen.returning.measured position = some m ∧ outcome.Records m.measures ∧
          m.measures.Describe (fun i ↦ percentReturn (marks 0) (marks i) position.side) times) ↔
        ¬ Specimen.returning.Ambiguous position ∧ Path.RunsBothWays marks) := by
  intro _ position marks times
  have hobserved : Specimen.returning.Observed position marks times :=
    ⟨by decide +kernel, by decide +kernel, by decide +kernel⟩
  have hposition : Specimen.returning.positions.get? position.positionLifecycleId =
      some position := by decide +kernel
  have hclosed : truthy position.closedAt = some "2026-01-05T15:00:02.000Z" := by decide +kernel
  exact path_measures_iff hposition rfl hclosed (by decide) (by decide) hobserved
    (by decide +kernel)

/-- The mark only rises, so that there is no fall, and the drawdown is ten percent. -/
theorem rising_drawdown :
    let _ := Specimen.clock
    Specimen.rising.Observed Specimen.closedPosition (![100, 110] : Fin 2 → ℚ)
      ![1767625200000, 1767625201000] ∧
    ¬ Specimen.rising.Ambiguous Specimen.closedPosition ∧
    (persistPaperPositionOutcome "outcome" "lifecycle" "TARGET" Specimen.rising).toOption.map
      (·.2.maximumDrawdownPct) = some (some (-10)) ∧
    IsLeast (Path.moves fun i : Fin 2 ↦ percentReturn 100 (![100, 110] i) .long) 0 := by
  intro _
  refine ⟨⟨by decide +kernel, by decide +kernel, by decide +kernel⟩, by decide +kernel,
    by decide +kernel, ⟨0, 0, le_refl 0, (sub_self _).symm⟩, ?_⟩
  rintro x ⟨i, j, hij, rfl⟩
  rw [sub_nonneg]
  have hrise : ∀ i j : Fin 2, i ≤ j → percentReturn 100 (![100, 110] i) .long ≤
      percentReturn 100 (![100, 110] j) .long := by decide +kernel
  exact hrise i j hij

end PaperPosition

end AlpacaTrading
