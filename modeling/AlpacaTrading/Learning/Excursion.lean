import Mathlib.Algebra.Order.Field.Basic
import Mathlib.Tactic.Linarith
import AlpacaTrading.Learning.OutcomeRecord

/-!
# Excursions

The excursions of a record are the best and the worst return of a position over its observations.
They are taken from the first 31 days and the first 500 observations of the reported window, and
the high and the low of an observation fall back to its price one by one.  An observation that is
used has its high below the favorable extreme and its low above the adverse one (for a purchase),
and both between them when its low is not above its high.
-/

namespace AlpacaTrading

/-! ## The source -/

/-- What a record says about excursions. -/
structure OutcomeExcursion where
  maximumFavorableExcursion : Option ℚ
  maximumAdverseExcursion : Option ℚ
  excursionSource : Option String
  excursionStart : Option String
  excursionEnd : Option String
deriving DecidableEq

/-- The high of an observation, or its price. -/
def ExcursionObservationInput.usedHigh (o : ExcursionObservationInput) : Option ℚ := o.high.or o.price

/-- The low of an observation, or its price. -/
def ExcursionObservationInput.usedLow (o : ExcursionObservationInput) : Option ℚ := o.low.or o.price

/-- `signedReturn`. -/
def signedReturn (side : OutcomeSide) (entryPrice price : ℚ) : ℚ :=
  match side with
  | .buy => (price - entryPrice) / entryPrice
  | .sell => (entryPrice - price) / entryPrice

/-- 31 days in milliseconds. -/
def maximumExcursionMs : ℤ := 31 * 86400000

section Locale

variable [Locale]

/-- The observations of a symbol between two times, and within 31 days. -/
def excursionWindow (symbol : String) (start finish : Time)
    (observations : List ExcursionObservationInput) : List ExcursionObservationInput :=
  observations.filter fun o ↦
    (isoTime (some o.observedAt)).any fun time ↦
      decide (o.instrument = symbol ∧ start ≤ time ∧
        time ≤ min finish (start + maximumExcursionMs))

/-- The first of them, in the order of their texts. -/
def excursionPoints (symbol : String) (start finish : Time)
    (observations : List ExcursionObservationInput) : List ExcursionObservationInput :=
  ((excursionWindow symbol start finish observations).insertionSort fun a b ↦
    Locale.collates a.observedAt b.observedAt = true).take 500

/-- `excursionFor`, and the limitation it adds. -/
def excursionFor (candidate : OutcomeCandidateInput) (position : Option OutcomePositionInput)
    (order : Option OutcomeOrderInput) (firstFillAt closedAt : Option String)
    (observations : List ExcursionObservationInput) : OutcomeExcursion × List String :=
  let entryPrice := (position.bind (·.averageEntryPrice)).or (order.bind (·.averageFillPrice))
  let excursionStart := firstFillAt.or (position.bind (·.openedAt))
  let excursionEnd := closedAt.or (position.bind (·.lastReconciledAt))
  let unknown : OutcomeExcursion :=
    { maximumFavorableExcursion := none, maximumAdverseExcursion := none, excursionSource := none
      excursionStart, excursionEnd }
  match entryPrice.filter (0 < ·), isoTime excursionStart, isoTime excursionEnd with
  | some entryPrice, some start, some finish =>
    match excursionPoints candidate.symbol start finish observations with
    | [] =>
      (unknown, [if (truthy candidate.optionContractId).isSome then
        "OPTION_CONTRACT_EXCURSION_EVIDENCE_UNAVAILABLE"
        else "EQUITY_EXCURSION_EVIDENCE_UNAVAILABLE"])
    | first :: rest =>
      match ((first :: rest).filterMap (·.usedHigh)).max?,
        ((first :: rest).filterMap (·.usedLow)).min? with
      | some highest, some lowest =>
        let side := (order.bind (·.side)).getD .buy
        let (favorablePrice, adversePrice) := match side with
          | .buy => (highest, lowest)
          | .sell => (lowest, highest)
        let source := first.source ++ ":" ++ first.granularity.getD "snapshot"
        ({ unknown with
            maximumFavorableExcursion := some (signedReturn side entryPrice favorablePrice)
            maximumAdverseExcursion := some (signedReturn side entryPrice adversePrice)
            excursionSource := some (if (truthy candidate.optionContractId).isSome then
              source ++ ":contract_mark_to_market" else source ++ ":mark_to_market") }, [])
      | _, _ => (unknown, ["EXCURSION_PRICE_FIELDS_UNAVAILABLE"])
  | _, _, _ => (unknown, [])

/-- The excursion of `buildOutcomeLearningRecord`. -/
def recordExcursion (input : OutcomeLearningInput) : OutcomeExcursion × List String :=
  let entry := input.entryJoin.1
  let events := input.lifecycleEvents entry (input.exitJoin entry.position).1
  excursionFor input.candidate entry.position entry.order
    (firstFillAt entry.order entry.intent events) (entry.position.bind (·.closedAt))
    input.excursionObservations

end Locale

/-! ## Bounds -/

namespace ExcursionObservationInput

/-- The value that counts for the favorable extreme. -/
def favorableValue (side : OutcomeSide) (o : ExcursionObservationInput) : Option ℚ :=
  match side with
  | .buy => o.usedHigh
  | .sell => o.usedLow

/-- The value that counts for the adverse extreme. -/
def adverseValue (side : OutcomeSide) (o : ExcursionObservationInput) : Option ℚ :=
  match side with
  | .buy => o.usedLow
  | .sell => o.usedHigh

/-- The excursions bound the returns of an observation. -/
structure Bounded (side : OutcomeSide) (entryPrice best worst : ℚ)
    (o : ExcursionObservationInput) : Prop where
  favorable : ∀ v, o.favorableValue side = some v → signedReturn side entryPrice v ≤ best
  adverse : ∀ v, o.adverseValue side = some v → worst ≤ signedReturn side entryPrice v
  /-- A low that is not above the high: both returns are between the excursions. -/
  between : ∀ high low, o.usedHigh = some high → o.usedLow = some low → low ≤ high →
    ∀ v ∈ [high, low],
      worst ≤ signedReturn side entryPrice v ∧ signedReturn side entryPrice v ≤ best

end ExcursionObservationInput

section Bounds

variable {side : OutcomeSide} {entryPrice highest lowest : ℚ}

theorem signedReturn_buy_mono (hpos : 0 < entryPrice) {a b : ℚ} (h : a ≤ b) :
    signedReturn .buy entryPrice a ≤ signedReturn .buy entryPrice b :=
  div_le_div_of_nonneg_right (sub_le_sub_right h _) hpos.le

theorem signedReturn_sell_anti (hpos : 0 < entryPrice) {a b : ℚ} (h : a ≤ b) :
    signedReturn .sell entryPrice b ≤ signedReturn .sell entryPrice a :=
  div_le_div_of_nonneg_right (sub_le_sub_left h _) hpos.le

/-- The extremes of a side. -/
def extremes (side : OutcomeSide) (highest lowest : ℚ) : ℚ × ℚ :=
  match side with
  | .buy => (highest, lowest)
  | .sell => (lowest, highest)

/-- The returns of the extremes bound those of an observation between them. -/
theorem bounded_of_extremes (hpos : 0 < entryPrice) {o : ExcursionObservationInput}
    (hhigh : ∀ v, o.usedHigh = some v → v ≤ highest)
    (hlow : ∀ v, o.usedLow = some v → lowest ≤ v) :
    o.Bounded side entryPrice (signedReturn side entryPrice (extremes side highest lowest).1)
      (signedReturn side entryPrice (extremes side highest lowest).2) := by
  rcases side with - | -
  · refine ⟨fun v hv ↦ signedReturn_buy_mono hpos (hhigh v hv),
      fun v hv ↦ signedReturn_buy_mono hpos (hlow v hv), fun high low hh hl hle v hv ↦ ?_⟩
    have hv' : low ≤ v ∧ v ≤ high := by
      rcases List.mem_pair.1 hv with rfl | rfl
      · exact ⟨hle, le_refl _⟩
      · exact ⟨le_refl _, hle⟩
    exact ⟨signedReturn_buy_mono hpos ((hlow low hl).trans hv'.1),
      signedReturn_buy_mono hpos (hv'.2.trans (hhigh high hh))⟩
  · refine ⟨fun v hv ↦ signedReturn_sell_anti hpos (hlow v hv),
      fun v hv ↦ signedReturn_sell_anti hpos (hhigh v hv), fun high low hh hl hle v hv ↦ ?_⟩
    have hv' : low ≤ v ∧ v ≤ high := by
      rcases List.mem_pair.1 hv with rfl | rfl
      · exact ⟨hle, le_refl _⟩
      · exact ⟨le_refl _, hle⟩
    exact ⟨signedReturn_sell_anti hpos (hv'.2.trans (hhigh high hh)),
      signedReturn_sell_anti hpos ((hlow low hl).trans hv'.1)⟩

end Bounds

section Record

variable [Locale]

/-- The entry price a record measures returns from. -/
def OutcomeLearningInput.entryPrice (input : OutcomeLearningInput) : Option ℚ :=
  (input.entryJoin.1.position.bind (·.averageEntryPrice)).or
    (input.entryJoin.1.order.bind (·.averageFillPrice))

/-- The side of the entry. -/
def OutcomeLearningInput.side (input : OutcomeLearningInput) : OutcomeSide :=
  (input.entryJoin.1.order.bind (·.side)).getD .buy

/-- What the excursions of a record are the extremes of. -/
theorem excursionFor_eq_some {candidate : OutcomeCandidateInput}
    {position : Option OutcomePositionInput} {order : Option OutcomeOrderInput}
    {firstFillAt closedAt : Option String} {observations : List ExcursionObservationInput}
    {e : OutcomeExcursion} {limitations : List String} {best worst : ℚ}
    (h : excursionFor candidate position order firstFillAt closedAt observations = (e, limitations))
    (hbest : e.maximumFavorableExcursion = some best)
    (hworst : e.maximumAdverseExcursion = some worst) :
    ∃ entryPrice start finish highest lowest,
      (position.bind (·.averageEntryPrice)).or (order.bind (·.averageFillPrice)) =
        some entryPrice ∧ 0 < entryPrice ∧
      isoTime e.excursionStart = some start ∧ isoTime e.excursionEnd = some finish ∧
      ((excursionPoints candidate.symbol start finish observations).filterMap (·.usedHigh)).max? =
        some highest ∧
      ((excursionPoints candidate.symbol start finish observations).filterMap (·.usedLow)).min? =
        some lowest ∧
      best = signedReturn ((order.bind (·.side)).getD .buy) entryPrice
        (extremes ((order.bind (·.side)).getD .buy) highest lowest).1 ∧
      worst = signedReturn ((order.bind (·.side)).getD .buy) entryPrice
        (extremes ((order.bind (·.side)).getD .buy) highest lowest).2 := by
  rw [excursionFor.eq_def] at h
  dsimp only at h
  split at h
  · next entryPrice start finish hprice hstart hfinish =>
    obtain ⟨hprice, hpos⟩ := Option.filter_eq_some_iff.1 hprice
    split at h
    · obtain ⟨rfl, _⟩ := Prod.mk.inj h
      cases hbest
    · next first rest hpoints =>
      split at h
      · next highest lowest hhighest hlowest =>
        rw [← hpoints] at hhighest hlowest
        obtain ⟨rfl, _⟩ := Prod.mk.inj h
        exact ⟨entryPrice, start, finish, highest, lowest, hprice, of_decide_eq_true hpos, hstart,
          hfinish, hhighest, hlowest, (Option.some_inj.1 hbest).symm, (Option.some_inj.1 hworst).symm⟩
      · obtain ⟨rfl, _⟩ := Prod.mk.inj h
        cases hbest
  · obtain ⟨rfl, _⟩ := Prod.mk.inj h
    cases hbest

/-- The excursions of a record bound the observations that are used: those of the first 31 days of
the window, and of them the first 500. -/
def ExcursionsBound (input : OutcomeLearningInput) (best worst : ℚ) : Prop :=
  ∃ entryPrice start finish, input.entryPrice = some entryPrice ∧ 0 < entryPrice ∧
    isoTime (recordExcursion input).1.excursionStart = some start ∧
    isoTime (recordExcursion input).1.excursionEnd = some finish ∧
    ∀ o ∈ excursionPoints input.candidate.symbol start finish input.excursionObservations,
      o.Bounded input.side entryPrice best worst

/-- **Excursions bound the observations that are used.** -/
theorem recordExcursion_bounds (input : OutcomeLearningInput) (best worst : ℚ)
    (hbest : (recordExcursion input).1.maximumFavorableExcursion = some best)
    (hworst : (recordExcursion input).1.maximumAdverseExcursion = some worst) :
    ExcursionsBound input best worst := by
  obtain ⟨entryPrice, start, finish, highest, lowest, hprice, hpos, hstart, hfinish, hhighest,
    hlowest, rfl, rfl⟩ := excursionFor_eq_some (Prod.mk.eta).symm hbest hworst
  refine ⟨entryPrice, start, finish, hprice, hpos, hstart, hfinish, fun o ho ↦ ?_⟩
  refine bounded_of_extremes hpos (fun v hv ↦ ?_) fun v hv ↦ ?_
  · exact (List.max?_eq_some_iff.1 hhighest).2 v (List.mem_filterMap.2 ⟨o, ho, hv⟩)
  · exact (List.min?_eq_some_iff.1 hlowest).2 v (List.mem_filterMap.2 ⟨o, ho, hv⟩)

/-- Up to 500 observations in the first 31 days are all used. -/
theorem mem_excursionPoints {symbol : String} {start finish time : Time}
    {observations : List ExcursionObservationInput} {o : ExcursionObservationInput}
    (hfew : (excursionWindow symbol start finish observations).length ≤ 500)
    (ho : o ∈ observations) (hsymbol : o.instrument = symbol)
    (htime : isoTime (some o.observedAt) = some time) (hstart : start ≤ time)
    (hfinish : time ≤ finish) (hlimit : time ≤ start + maximumExcursionMs) :
    o ∈ excursionPoints symbol start finish observations := by
  have hwindow : o ∈ excursionWindow symbol start finish observations := by
    refine List.mem_filter.2 ⟨ho, ?_⟩
    rw [htime, Option.any_some]
    exact decide_eq_true ⟨hsymbol, hstart, le_min hfinish hlimit⟩
  rw [excursionPoints, List.take_of_length_le (by rw [List.length_insertionSort]; exact hfew)]
  exact (List.perm_insertionSort _ _).mem_iff.2 hwindow

end Record

/-! ## A position held for forty days -/

namespace Specimen

/-- The times of the position, and texts compared as they are. -/
@[reducible] def heldLocale : Locale where
  dateParse s :=
    if s = "2026-01-05T15:00:20.000Z" then some 1767625220000
    else if s = "2026-01-06T15:00:20.000Z" then some 1767711620000
    else if s = "2026-02-09T15:00:20.000Z" then some 1770649220000
    else if s = "2026-02-14T15:00:20.000Z" then some 1771081220000
    else none
  collates a b := decide (a ≤ b)

/-- A bar on the second day. -/
def earlyBar : ExcursionObservationInput :=
  { id := "early", instrument := "XYZ", observedAt := "2026-01-06T15:00:20.000Z"
    high := some 110, low := some 95, source := "market_bars", granularity := some "1Day" }

/-- A bar on the 36th day. -/
def lateBar : ExcursionObservationInput :=
  { earlyBar with id := "late", observedAt := "2026-02-09T15:00:20.000Z", high := some 150 }

/-- An entry at 100, closed after forty days. -/
def heldEntry : OutcomeLearningInput where
  candidate := { id := "cand", symbol := "XYZ" }
  intents := [{ id := "intent", candidateId := "cand" }]
  orders := [
    { id := "order", intentId := "intent", status := some "filled", side := some .buy
      filledQuantity := some 10, filledAt := some "2026-01-05T15:00:20.000Z" }]
  positions := [
    { id := "position", candidateId := some "cand", openingOrderId := some "order"
      status := some "closed", averageEntryPrice := some 100
      closedAt := some "2026-02-14T15:00:20.000Z" }]
  excursionObservations := [earlyBar, lateBar]

end Specimen

/-- The theorem at the specimen. -/
theorem heldEntry_bounds :
    @ExcursionsBound Specimen.heldLocale Specimen.heldEntry (1 / 10) (-1 / 20) :=
  @recordExcursion_bounds Specimen.heldLocale Specimen.heldEntry _ _ (by decide +kernel)
    (by decide +kernel)

/-- The late bar is in the reported window, and its high beyond the favorable excursion. -/
theorem lateBar_unbounded :
    let _ := Specimen.heldLocale
    let record := (recordExcursion Specimen.heldEntry).1
    (∀ o ∈ Specimen.heldEntry.excursionObservations, ∀ high low, o.high = some high →
      o.low = some low → low ≤ high) ∧
    record.maximumFavorableExcursion = some (1 / 10) ∧
    record.maximumAdverseExcursion = some (-1 / 20) ∧
    Specimen.lateBar ∈ Specimen.heldEntry.excursionObservations ∧
    Specimen.lateBar.instrument = Specimen.heldEntry.candidate.symbol ∧
    (∃ start time finish, isoTime record.excursionStart = some start ∧
      isoTime (some Specimen.lateBar.observedAt) = some time ∧
      isoTime record.excursionEnd = some finish ∧ start ≤ time ∧ time ≤ finish) ∧
    Specimen.heldEntry.entryPrice = some 100 ∧ Specimen.heldEntry.side = .buy ∧
    Specimen.lateBar.high = some 150 ∧ (1 / 10 : ℚ) < signedReturn .buy 100 150 := by
  intro _ record
  refine ⟨fun o ho high low hhigh hlow ↦ ?_, by decide +kernel, by decide +kernel,
    by decide +kernel, rfl, ⟨1767625220000, 1770649220000, 1771081220000, by decide +kernel,
      by decide +kernel, by decide +kernel, by decide, by decide⟩, by decide +kernel,
    by decide +kernel, rfl, by decide +kernel⟩
  rcases List.mem_pair.1 ho with rfl | rfl
  · obtain rfl := Option.some_inj.1 hhigh
    obtain rfl := Option.some_inj.1 hlow
    norm_num
  · obtain rfl := Option.some_inj.1 hhigh
    obtain rfl := Option.some_inj.1 hlow
    norm_num

end AlpacaTrading
