import Mathlib.Algebra.Order.BigOperators.Group.List
import Mathlib.Tactic.Linarith
import AlpacaTrading.ZeroDte.Playbook

/-!
# What the score of a playbook is made of

The score of an evaluation against the components it reports.

An evaluator is a straight line of signals, and the points of a signal do not depend on what was
collected before it.  So the result of an evaluator is known once the points of its signals are,
whatever the collector: `Returns` says that a computation returns only such results, and follows
the evaluator statement by statement.

## The adjustment

Four playbooks leave the sum of their components alone.  Breakout adds the risk of a false break
to its components and subtracts it again by the adjustment: the score is the sum of the *other*
six, which is at most 95, and the reported components sum up to more as soon as there is a risk.
-/

namespace AlpacaTrading

namespace ZeroDte

/-! ## Results -/

/-- Whatever is collected already, the result is one of these. -/
def Collect.Returns {α : Type} (p : Collect α) (P : α → Prop) : Prop := ∀ c, P (p.run c).1

namespace Collect

variable {α β : Type} {p : Collect α} {f : α → Collect β} {P : α → Prop} {Q : β → Prop}

theorem returns_pure {a : α} (h : P a) : Returns (pure a : Collect α) P := fun _ ↦ h

theorem Returns.bind (hp : p.Returns P) (hf : ∀ a, P a → (f a).Returns Q) :
    (p >>= f).Returns Q := fun c ↦ hf _ (hp c) _

/-- A statement whose result does not matter. -/
theorem returns_bind (hf : ∀ a, (f a).Returns Q) : (p >>= f).Returns Q := fun _ ↦ hf _ _

/-- A statement with a known result. -/
theorem Returns.bind_eq {a : α} (hp : p.Returns (· = a)) (hf : (f a).Returns Q) :
    (p >>= f).Returns Q := hp.bind fun _ h ↦ h ▸ hf

theorem Returns.ite {q : Prop} [Decidable q] {p' : Collect α} (hp : q → p.Returns P)
    (hp' : ¬ q → p'.Returns P) : (if q then p else p').Returns P := by
  split_ifs with h
  · exact hp h
  · exact hp' h

end Collect

open Collect

/-! ## Points -/

/-- The points of `addPositiveSignal`. -/
def positivePoints (value : Option Reading) (maxPoints scale : ℚ) : ℚ :=
  (value.map fun value ↦
    if 0 < value.numeric then maxPoints * clamp (value.numeric / scale) 0 1 else 0).getD 0

/-- The points of `addLiquiditySignal`. -/
def liquidityPoints (liquidityScore : Option ℚ) (maxPoints : ℚ) : ℚ :=
  (liquidityScore.map fun score ↦ clamp (score / 100) 0 1 * maxPoints).getD 0

/-- The points of `addTimeframeSignal`. -/
def timeframePoints (directions : List Direction) (direction : Direction) (maxPoints : ℚ) : ℚ :=
  (directions.count direction / directions.length : ℚ) * maxPoints

/-- The result of `optionLiquidityScore`. -/
def liquidityScore (context : PlaybookContext) : Option ℚ :=
  ((optionLiquidityScore context).run {}).1

section Bounds

variable {x maxPoints scale : ℚ}

theorem clamp_mem (x : ℚ) {lo hi : ℚ} (h : lo ≤ hi) : lo ≤ clamp x lo hi ∧ clamp x lo hi ≤ hi :=
  ⟨le_max_left _ _, max_le h (min_le_left _ _)⟩

theorem clamp_of_mem {lo hi : ℚ} (h : lo ≤ x) (h' : x ≤ hi) : clamp x lo hi = x := by
  rw [clamp, min_eq_right h', max_eq_right h]

theorem clamp_pos (hx : 0 < x) : 0 < clamp x 0 1 :=
  lt_max_of_lt_right (lt_min zero_lt_one hx)

theorem clamp_of_nonpos (hx : x ≤ 0) : clamp x 0 1 = 0 := by
  rw [clamp, max_eq_left ((min_le_right _ _).trans hx)]

theorem positivePoints_mem (value : Option Reading) (scale : ℚ) (hmax : 0 ≤ maxPoints) :
    0 ≤ positivePoints value maxPoints scale ∧ positivePoints value maxPoints scale ≤ maxPoints := by
  rcases value with - | value
  · exact ⟨le_refl _, hmax⟩
  · rw [positivePoints, Option.map_some, Option.getD_some]
    obtain ⟨h, h'⟩ := clamp_mem (value.numeric / scale) zero_le_one
    split_ifs with hpos
    · exact ⟨mul_nonneg hmax h, mul_le_of_le_one_right hmax h'⟩
    · exact ⟨le_refl _, hmax⟩

theorem positivePoints_eq_zero {value : Option Reading} (hmax : 0 < maxPoints)
    (hscale : 0 < scale) :
    positivePoints value maxPoints scale = 0 ↔ ∀ v ∈ value, v.numeric ≤ 0 := by
  rcases value with - | value
  · simp [positivePoints]
  · rw [positivePoints, Option.map_some, Option.getD_some]
    split_ifs with hpos
    · have hpoints := mul_pos hmax (clamp_pos (div_pos hpos hscale))
      simp [hpoints.ne', hpos]
    · simpa using hpos

theorem forall_number {value : Option ℚ} {f : ℚ → ℚ} :
    (∀ v ∈ value.map fun x ↦ Reading.number (f x), v.numeric ≤ 0) ↔ ∀ x ∈ value, f x ≤ 0 := by
  rcases value with - | x <;> simp [Reading.numeric]

theorem forall_flag {value : Option Bool} :
    (∀ v ∈ value.map Reading.flag, v.numeric ≤ 0) ↔ value ≠ some true := by
  rcases value with - | b
  · simp
  · rcases b with - | - <;> simp [Reading.numeric]

theorem liquidityPoints_mem (score : Option ℚ) (hmax : 0 ≤ maxPoints) :
    0 ≤ liquidityPoints score maxPoints ∧ liquidityPoints score maxPoints ≤ maxPoints := by
  rcases score with - | score
  · exact ⟨le_refl _, hmax⟩
  · rw [liquidityPoints, Option.map_some, Option.getD_some]
    obtain ⟨h, h'⟩ := clamp_mem (score / 100) zero_le_one
    exact ⟨mul_nonneg h hmax, mul_le_of_le_one_left hmax h'⟩

theorem liquidityPoints_eq_zero {score : Option ℚ} (hmax : 0 < maxPoints) :
    liquidityPoints score maxPoints = 0 ↔ ∀ s ∈ score, s ≤ 0 := by
  rcases score with - | score
  · simp [liquidityPoints]
  · rw [liquidityPoints, Option.map_some, Option.getD_some, mul_eq_zero_iff_right hmax.ne']
    constructor
    · intro hzero s hs
      by_contra hpos
      obtain rfl := Option.some.inj hs
      exact (clamp_pos (div_pos (not_le.1 hpos) (by norm_num))).ne' hzero
    · intro hs
      exact clamp_of_nonpos (div_nonpos_of_nonpos_of_nonneg (hs score rfl) (by norm_num))

theorem timeframePoints_mem (directions : List Direction) (direction : Direction)
    (hmax : 0 ≤ maxPoints) :
    0 ≤ timeframePoints directions direction maxPoints ∧
      timeframePoints directions direction maxPoints ≤ maxPoints := by
  have hle : (directions.count direction : ℚ) ≤ directions.length := by
    exact_mod_cast List.count_le_length
  have hshare : (directions.count direction / directions.length : ℚ) ≤ 1 :=
    div_le_one_of_le₀ hle (by positivity)
  exact ⟨mul_nonneg (by positivity) hmax, mul_le_of_le_one_left hmax hshare⟩

theorem timeframePoints_eq_zero {directions : List Direction} {direction : Direction}
    (hmax : 0 < maxPoints) :
    timeframePoints directions direction maxPoints = 0 ↔ direction ∉ directions := by
  rw [timeframePoints, mul_eq_zero_iff_right hmax.ne', div_eq_zero_iff, Nat.cast_eq_zero,
    Nat.cast_eq_zero, List.count_eq_zero]
  constructor
  · rintro (h | h)
    · exact h
    · simp [List.length_eq_zero_iff.1 h]
  · exact Or.inl

end Bounds

theorem addPositiveSignal_returns (value : Option Reading) (maxPoints scale : ℚ)
    (texts : SignalTexts) (direction : Option Direction) :
    (addPositiveSignal value maxPoints scale texts direction).Returns
      (· = positivePoints value maxPoints scale) := by
  rcases value with - | value
  · exact returns_bind fun _ ↦ returns_pure rfl
  · rw [addPositiveSignal]
    refine .ite (fun _ ↦ ?_) fun _ ↦ ?_
    · exact returns_bind fun _ ↦ returns_pure rfl
    · exact returns_bind fun _ ↦ returns_pure rfl

theorem addLiquiditySignal_returns (liquidityScore : Option ℚ) (maxPoints : ℚ)
    (direction : Direction) :
    (addLiquiditySignal liquidityScore maxPoints direction).Returns
      (· = liquidityPoints liquidityScore maxPoints) := by
  rcases liquidityScore with - | score
  · exact returns_bind fun _ ↦ returns_pure rfl
  · rw [addLiquiditySignal]
    refine .ite (fun _ ↦ ?_) fun _ ↦ ?_
    · exact returns_bind fun _ ↦ returns_pure rfl
    · exact returns_bind fun _ ↦ returns_pure rfl

theorem addTimeframeSignal_returns (directions : List Direction) (direction : Direction)
    (maxPoints : ℚ) :
    (addTimeframeSignal directions direction maxPoints).Returns
      (· = timeframePoints directions direction maxPoints) := by
  have hcount : (directions.filter fun value ↦ value = direction).length =
      directions.count direction := by
    rw [List.count_eq_length_filter]
    rfl
  rw [addTimeframeSignal, hcount]
  refine .ite (fun hnil ↦ ?_) fun _ ↦ returns_bind fun _ ↦ .ite (fun hzero ↦ ?_) fun _ ↦ ?_
  · refine returns_bind fun _ ↦ returns_pure ?_
    simp [timeframePoints, hnil]
  · refine returns_pure ?_
    simp [timeframePoints, Nat.le_zero.1 hzero]
  · exact returns_bind fun _ ↦ returns_pure rfl

/-- The score does not depend on the collector. -/
theorem optionLiquidityScore_returns (context : PlaybookContext) :
    (optionLiquidityScore context).Returns (· = liquidityScore context) := by
  have hexists : ∃ score, (optionLiquidityScore context).Returns (· = score) := by
    rw [optionLiquidityScore]
    dsimp only
    repeat' split
    all_goals first
      | exact ⟨_, returns_bind fun _ ↦ returns_pure rfl⟩
      | exact ⟨_, returns_pure rfl⟩
  obtain ⟨score, hscore⟩ := hexists
  exact fun c ↦ (hscore c).trans (hscore {}).symm

/-! ## The evaluators -/

/-- The score from which on a playbook is eligible. -/
def Playbook.threshold : Playbook → ℚ
  | .trendContinuation => 55
  | .reversal => 65
  | .breakout => 60
  | .gammaProxy => 55
  | .volatilityExpansion => 55

/-- The input of `finalize` from a playbook that does not adjust the sum. -/
structure Unadjusted (playbook : Playbook) (input : FinalizeInput) : Prop where
  threshold : input.threshold = playbook.threshold
  adjustment : input.scoreAdjustment = none
  playbook : input.playbook = playbook

theorem evaluateTrendContinuation_returns (context : PlaybookContext) (direction : Direction)
    (derived : DerivedMarketContext) :
    (evaluateTrendContinuation context direction derived).Returns
      (Unadjusted .trendContinuation) := by
  rw [evaluateTrendContinuation]
  iterate 8 refine returns_bind fun _ ↦ ?_
  exact returns_pure ⟨rfl, rfl, rfl⟩

theorem evaluateReversal_returns (context : PlaybookContext) (direction : Direction)
    (derived : DerivedMarketContext) :
    (evaluateReversal context direction derived).Returns (Unadjusted .reversal) := by
  rw [evaluateReversal]
  iterate 11 refine returns_bind fun _ ↦ ?_
  exact returns_pure ⟨rfl, rfl, rfl⟩

theorem evaluateGammaProxy_returns [Elementary] (context : PlaybookContext)
    (direction : Direction) :
    (evaluateGammaProxy context direction).Returns (Unadjusted .gammaProxy) := by
  rw [evaluateGammaProxy]
  iterate 2 refine returns_bind fun _ ↦ ?_
  dsimp only
  split
  · iterate 3 refine returns_bind fun _ ↦ ?_
    exact returns_pure ⟨rfl, rfl, rfl⟩
  · exact returns_bind fun _ ↦ returns_pure ⟨rfl, rfl, rfl⟩

theorem evaluateVolatilityExpansion_returns (context : PlaybookContext) (direction : Direction)
    (derived : DerivedMarketContext) :
    (evaluateVolatilityExpansion context direction derived).Returns
      (Unadjusted .volatilityExpansion) := by
  rw [evaluateVolatilityExpansion]
  iterate 12 refine returns_bind fun _ ↦ ?_
  exact returns_pure ⟨rfl, rfl, rfl⟩

/-! ## Breakout -/

section Breakout

variable [Runtime]

/-- The distance over which a break of the opening range counts in full. -/
def breakoutScale (openingRange : Option OpeningRange) (derived : DerivedMarketContext) : ℚ :=
  max (max (derived.atr.getD 0)
    ((openingRange.map fun range ↦ range.high - range.low).getD 0 * (1 / 4))) (1 / 100)

/-- The components of breakout but for the risk. -/
def breakoutPoints (context : PlaybookContext) (direction : Direction)
    (derived : DerivedMarketContext) : Components ℚ :=
  let openingRange := deriveOpeningRange context derived.bars
  [("openingRangeBreak",
      positivePoints ((breakoutDistance direction openingRange derived.price).map .number) 25
        (breakoutScale openingRange derived)),
    ("compression",
      positivePoints ((compressionOf context.indicators openingRange derived.price).map .flag)
        15 1),
    ("volumeExpansion",
      positivePoints (derived.relativeVolume.map fun volume ↦ .number (volume - 1)) 15 1),
    ("retest",
      positivePoints
        ((readBoolean context.indicators ["retestConfirmed", "breakoutRetest"]).map .flag) 15 1),
    ("timeframeAlignment", timeframePoints derived.timeframeDirections direction 15),
    ("liquidity", liquidityPoints (liquidityScore context) 10)]

/-- The points of the risk of a false break. -/
def riskPoints (risk : Option ℚ) : ℚ := (risk.map fun risk ↦ clamp risk 0 1 * 10).getD 0

/-- The input of `finalize` from breakout. -/
structure Breakout (points : Components ℚ) (risk : ℚ) (input : FinalizeInput) : Prop where
  threshold : input.threshold = Playbook.breakout.threshold
  components : input.components =
    (points ++ [("falseBreakRisk", risk)]).map fun component ↦ (component.1, .finite component.2)
  adjustment : input.scoreAdjustment = some (.finite (-risk))
  playbook : input.playbook = .breakout

theorem evaluateBreakout_returns (context : PlaybookContext) (direction : Direction)
    (derived : DerivedMarketContext) :
    (evaluateBreakout context direction derived).Returns
      (Breakout (breakoutPoints context direction derived)
        (riskPoints (readNumber context.indicators falseBreakNames))) := by
  rw [evaluateBreakout]
  refine returns_bind fun _ ↦ returns_bind fun _ ↦ returns_bind fun _ ↦ ?_
  -- each signal returns its points, whatever is collected before it
  refine (addPositiveSignal_returns _ _ _ _ _).bind_eq ?_
  refine (addPositiveSignal_returns _ _ _ _ _).bind_eq ?_
  refine (addPositiveSignal_returns _ _ _ _ _).bind_eq ?_
  refine (addPositiveSignal_returns _ _ _ _ _).bind_eq ?_
  refine (addTimeframeSignal_returns _ _ _).bind_eq ?_
  refine (optionLiquidityScore_returns _).bind_eq ?_
  refine (addLiquiditySignal_returns _ _ _).bind_eq ?_
  exact returns_bind fun _ ↦ returns_pure ⟨rfl, rfl, rfl, rfl⟩

end Breakout

/-! ## Evaluations -/

/-- The score is the sum of the reported components, within its bounds. -/
def PlaybookEvaluation.Explained (e : PlaybookEvaluation) : Prop :=
  e.score = clamp (total e.componentContributions.values) 0 100

/-- An eligible evaluation has no blockers and reaches the threshold of its playbook. -/
def PlaybookEvaluation.Justified (e : PlaybookEvaluation) : Prop :=
  e.eligible = true → e.blockers = [] ∧ e.playbook.threshold ≤ e.score

theorem finalize_justified {input : FinalizeInput} (h : input.threshold = input.playbook.threshold)
    (collector : SignalCollector) : (finalize input collector).Justified := by
  intro heligible
  obtain ⟨hblockers, hscore⟩ := of_decide_eq_true heligible
  exact ⟨hblockers, h ▸ hscore⟩

theorem Unadjusted.explained {playbook : Playbook} {input : FinalizeInput}
    (h : Unadjusted playbook input) (collector : SignalCollector) :
    (finalize input collector).Explained := by
  simp [PlaybookEvaluation.Explained, finalize, h.adjustment]

namespace Breakout

variable {points : Components ℚ} {risk : ℚ} {input : FinalizeInput}

theorem contributions (h : Breakout points risk input) (collector : SignalCollector) :
    (finalize input collector).componentContributions = points ++ [("falseBreakRisk", risk)] := by
  rw [finalize, h.components]
  simp [Function.comp_def]

theorem total_contributions (h : Breakout points risk input) (collector : SignalCollector) :
    total (finalize input collector).componentContributions.values =
      total points.values + risk := by
  simp [h.contributions, Components.values, total]

/-- The risk is added to the sum and taken from it again. -/
theorem score (h : Breakout points risk input) (collector : SignalCollector) :
    (finalize input collector).score = clamp (total points.values) 0 100 := by
  have hscore : (finalize input collector).score =
      clamp ((ExtendedNumber.finite
        (total (finalize input collector).componentContributions.values) +
          input.scoreAdjustment.getD (.finite 0)).value.getD 0) 0 100 := rfl
  rw [hscore, h.total_contributions, h.adjustment]
  simp

end Breakout

/-! ## The six other components of breakout -/

theorem breakoutScale_pos (openingRange : Option OpeningRange) (derived : DerivedMarketContext) :
    0 < breakoutScale openingRange derived := lt_max_of_lt_right (by norm_num)

theorem total_eq_sum (values : List ℚ) : total values = values.sum := List.sum_eq_foldl.symm

theorem riskPoints_eq_zero {risk : Option ℚ} : riskPoints risk = 0 ↔ ∀ r ∈ risk, r ≤ 0 := by
  rcases risk with - | r
  · simp [riskPoints]
  · rw [riskPoints, Option.map_some, Option.getD_some,
      mul_eq_zero_iff_right (by norm_num : (10 : ℚ) ≠ 0)]
    constructor
    · intro hzero s hs
      by_contra hpos
      obtain rfl := Option.some.inj hs
      exact (clamp_pos (not_le.1 hpos)).ne' hzero
    · exact fun h ↦ clamp_of_nonpos (h r rfl)

theorem riskPoints_nonneg (risk : Option ℚ) : 0 ≤ riskPoints risk := by
  rcases risk with - | r
  · exact le_refl _
  · exact mul_nonneg (clamp_mem r zero_le_one).1 (by norm_num)

section Others

variable [Runtime] (context : PlaybookContext) (direction : Direction)
  (derived : DerivedMarketContext)

/-- The points of each component are bounded by its weight. -/
theorem breakoutPoints_mem : List.Forall₂ (fun points weight : ℚ ↦ 0 ≤ points ∧ points ≤ weight)
    (breakoutPoints context direction derived).values [25, 15, 15, 15, 15, 10] := by
  refine .cons ?_ (.cons ?_ (.cons ?_ (.cons ?_ (.cons ?_ (.cons ?_ .nil)))))
  · exact positivePoints_mem _ _ (by norm_num)
  · exact positivePoints_mem _ _ (by norm_num)
  · exact positivePoints_mem _ _ (by norm_num)
  · exact positivePoints_mem _ _ (by norm_num)
  · exact timeframePoints_mem _ _ (by norm_num)
  · exact liquidityPoints_mem _ (by norm_num)

theorem breakoutPoints_nonneg :
    ∀ points ∈ (breakoutPoints context direction derived).values, 0 ≤ points :=
  ((List.forall₂_and_left _ _).1 (breakoutPoints_mem context direction derived)).1

/-- They make up at most 95 points. -/
theorem total_breakoutPoints_mem :
    0 ≤ total (breakoutPoints context direction derived).values ∧
      total (breakoutPoints context direction derived).values ≤ 95 := by
  rw [total_eq_sum]
  refine ⟨List.sum_nonneg (breakoutPoints_nonneg context direction derived), ?_⟩
  have hsum := List.Forall₂.sum_le_sum
    ((breakoutPoints_mem context direction derived).imp fun _ _ h ↦ h.2)
  exact hsum.trans (by norm_num)

/-- Nothing but the risk of a false break has points. -/
structure Unsupported : Prop where
  notBroken : ∀ distance ∈ breakoutDistance direction (deriveOpeningRange context derived.bars)
    derived.price, distance ≤ 0
  notCompressed : compressionOf context.indicators (deriveOpeningRange context derived.bars)
    derived.price ≠ some true
  volume : ∀ volume ∈ derived.relativeVolume, volume ≤ 1
  notRetested : readBoolean context.indicators ["retestConfirmed", "breakoutRetest"] ≠ some true
  timeframes : direction ∉ derived.timeframeDirections
  liquidity : ∀ score ∈ liquidityScore context, score ≤ 0

variable {context direction derived} in
theorem total_breakoutPoints_eq_zero :
    total (breakoutPoints context direction derived).values = 0 ↔
      Unsupported context direction derived := by
  have hzero : total (breakoutPoints context direction derived).values = 0 ↔
      ∀ points ∈ (breakoutPoints context direction derived).values, points = 0 := by
    rw [total_eq_sum]
    exact ⟨fun h _ hpoints ↦ List.all_zero_of_le_zero_le_of_sum_eq_zero
      (breakoutPoints_nonneg context direction derived) h hpoints, List.sum_eq_zero⟩
  have hscale := breakoutScale_pos (deriveOpeningRange context derived.bars) derived
  rw [hzero]
  simp only [breakoutPoints, Components.values, List.map_cons, List.map_nil, List.forall_mem_cons,
    timeframePoints_eq_zero (show (0 : ℚ) < 15 by norm_num),
    liquidityPoints_eq_zero (show (0 : ℚ) < 10 by norm_num),
    positivePoints_eq_zero (show (0 : ℚ) < 25 by norm_num) hscale,
    positivePoints_eq_zero (show (0 : ℚ) < 15 by norm_num) zero_lt_one]
  constructor
  · rintro ⟨hbreak, hcompression, hvolume, hretest, hframes, hliquidity, -⟩
    exact ⟨forall_number.1 hbreak, forall_flag.1 hcompression,
      fun volume h ↦ sub_nonpos.1 (forall_number.1 hvolume volume h), forall_flag.1 hretest,
      hframes, hliquidity⟩
  · intro h
    exact ⟨forall_number.2 h.notBroken, forall_flag.2 h.notCompressed,
      forall_number.2 fun volume hvolume ↦ sub_nonpos.2 (h.volume volume hvolume),
      forall_flag.2 h.notRetested, h.timeframes, h.liquidity, by simp⟩

end Others

/-! ## The claim -/

section Claim

variable [Runtime] [Elementary] {playbook : Playbook} {context context₁ context₂ : PlaybookContext}
  {direction : Direction} {r₁ r₂ : ℚ}

/-- The input of `finalize` from an evaluator. -/
def finalizeInput (playbook : Playbook) (context : PlaybookContext) (direction : Direction) :
    FinalizeInput :=
  ((evaluator playbook context direction (deriveMarketContext context)).run {}).1

theorem evaluate_eq (playbook : Playbook) (context : PlaybookContext) (direction : Direction) :
    ∃ collector, evaluate playbook context direction =
      finalize (finalizeInput playbook context direction) collector := ⟨_, rfl⟩

theorem unadjusted (h : playbook ≠ .breakout) (context : PlaybookContext)
    (direction : Direction) : Unadjusted playbook (finalizeInput playbook context direction) := by
  rcases playbook with - | - | - | - | -
  · exact evaluateTrendContinuation_returns _ _ _ _
  · exact evaluateReversal_returns _ _ _ _
  · exact absurd rfl h
  · exact evaluateGammaProxy_returns _ _ _
  · exact evaluateVolatilityExpansion_returns _ _ _ _

/-- The total of the other components of breakout in a context. -/
def supportOf (context : PlaybookContext) (direction : Direction) : ℚ :=
  total (breakoutPoints context direction (deriveMarketContext context)).values

theorem breakout (context : PlaybookContext) (direction : Direction) :
    Breakout (breakoutPoints context direction (deriveMarketContext context))
      (riskPoints (readNumber context.indicators falseBreakNames))
      (finalizeInput .breakout context direction) :=
  evaluateBreakout_returns _ _ _ _

theorem evaluate_justified (playbook : Playbook) (context : PlaybookContext)
    (direction : Direction) : (evaluate playbook context direction).Justified := by
  obtain ⟨collector, heq⟩ := evaluate_eq playbook context direction
  rw [heq]
  refine finalize_justified ?_ _
  by_cases h : playbook = .breakout
  · obtain rfl := h
    have hinput := breakout context direction
    rw [hinput.playbook, hinput.threshold]
  · have hinput := unadjusted h context direction
    rw [hinput.playbook, hinput.threshold]

theorem breakout_score (context : PlaybookContext) (direction : Direction) :
    (evaluate .breakout context direction).score = supportOf context direction := by
  obtain ⟨collector, h⟩ := evaluate_eq .breakout context direction
  obtain ⟨hnonneg, hle⟩ :=
    total_breakoutPoints_mem context direction (deriveMarketContext context)
  rw [h, (breakout context direction).score]
  exact clamp_of_mem hnonneg (hle.trans (by norm_num))

/-- The score of breakout is the sum of what it reports exactly when there is no risk. -/
theorem breakout_explained_iff :
    (evaluate .breakout context direction).Explained ↔
      ∀ r ∈ readNumber context.indicators falseBreakNames, r ≤ 0 := by
  obtain ⟨collector, h⟩ := evaluate_eq .breakout context direction
  obtain ⟨hnonneg, hle⟩ :=
    total_breakoutPoints_mem context direction (deriveMarketContext context)
  have hrisk := riskPoints_nonneg (readNumber context.indicators falseBreakNames)
  rw [PlaybookEvaluation.Explained, breakout_score, h,
    (breakout context direction).total_contributions, ← riskPoints_eq_zero]
  change _ = clamp (supportOf context direction + _) 0 100 ↔ _
  change 0 ≤ supportOf context direction at hnonneg
  change supportOf context direction ≤ 95 at hle
  constructor
  · intro heq
    -- a sum beyond 100 would be cut to it, and the support alone does not reach so far
    by_cases hcut : supportOf context direction +
      riskPoints (readNumber context.indicators falseBreakNames) ≤ 100
    · rw [clamp_of_mem (add_nonneg hnonneg hrisk) hcut] at heq
      linarith
    · rw [clamp, min_eq_left (not_le.1 hcut).le] at heq
      norm_num at heq
      linarith
  · intro hzero
    rw [hzero, add_zero, clamp_of_mem hnonneg (hle.trans (by norm_num))]

theorem explained_iff :
    (evaluate playbook context direction).Explained ↔
      (playbook = .breakout → ∀ r ∈ readNumber context.indicators falseBreakNames, r ≤ 0) := by
  by_cases h : playbook = .breakout
  · obtain rfl := h
    exact breakout_explained_iff.trans ⟨fun hrisk _ ↦ hrisk, fun hrisk ↦ hrisk rfl⟩
  · exact iff_of_true ((unadjusted h context direction).explained _) fun h' ↦ absurd h' h

/-- The other components do not see the risk. -/
theorem supportOf_congr (h : DifferInFalseBreakRisk context₁ context₂ r₁ r₂)
    (direction : Direction) : supportOf context₁ direction = supportOf context₂ direction := by
  have hrange : ∀ bars, deriveOpeningRange context₁ bars = deriveOpeningRange context₂ bars := by
    intro bars
    rw [deriveOpeningRange, deriveOpeningRange, h.bars, h.openingRange, h.openingRangeMinutes,
      h.indicators "openingRangeHigh" (by decide), h.indicators "openingRangeLow" (by decide),
      h.indicators "openingRangeMinutes" (by decide)]
  have hcompression : ∀ range price, compressionOf context₁.indicators range price =
      compressionOf context₂.indicators range price := by
    intro range price
    rw [compressionOf, compressionOf, h.readBoolean (by decide)]
  have hliquidity : liquidityScore context₁ = liquidityScore context₂ := by
    rw [liquidityScore, liquidityScore, optionLiquidityScore, optionLiquidityScore, h.option,
      h.readNumber (by decide)]
  simp (disch := decide) only [supportOf, breakoutPoints, h.derive, hrange, hcompression,
    hliquidity, h.readBoolean]

/-- A higher risk lowers the score, unless the score is at one of its bounds. -/
def Bites (context₁ context₂ : PlaybookContext) (direction : Direction) : Prop :=
  let before := (evaluate .breakout context₁ direction).score
  let after := (evaluate .breakout context₂ direction).score
  after ≤ before ∧ (after < before ∨ after = 0 ∨ before = 100)

theorem bites_iff (h : DifferInFalseBreakRisk context₁ context₂ r₁ r₂) :
    Bites context₁ context₂ direction ↔
      Unsupported context₁ direction (deriveMarketContext context₁) := by
  have hle := (total_breakoutPoints_mem context₁ direction (deriveMarketContext context₁)).2
  change supportOf context₁ direction ≤ 95 at hle
  rw [Bites, breakout_score, breakout_score, ← supportOf_congr h direction,
    ← total_breakoutPoints_eq_zero]
  change _ ↔ supportOf context₁ direction = 0
  constructor
  · rintro ⟨-, hlt | hzero | hfull⟩
    · exact absurd hlt (lt_irrefl _)
    · exact hzero
    · rw [hfull] at hle
      norm_num at hle
  · exact fun hzero ↦ ⟨le_refl _, .inr (.inl hzero)⟩

/-- Every evaluation is justified; it is explained by its components unless it is one of breakout
with a risk, and the risk lowers no score at all. -/
theorem playbook_scores_iff :
    (∀ playbook context direction,
      (evaluate playbook context direction).Explained ∧
        (evaluate playbook context direction).Justified ↔
      (playbook = .breakout → ∀ r ∈ readNumber context.indicators falseBreakNames, r ≤ 0)) ∧
    ∀ context₁ context₂ direction r₁ r₂, DifferInFalseBreakRisk context₁ context₂ r₁ r₂ →
      0 ≤ r₁ → r₁ < r₂ → r₂ ≤ 1 →
      (Bites context₁ context₂ direction ↔
        Unsupported context₁ direction (deriveMarketContext context₁)) := by
  refine ⟨fun playbook context direction ↦ ?_, fun _ _ _ _ _ h _ _ _ ↦ bites_iff h⟩
  rw [and_iff_left (evaluate_justified playbook context direction)]
  exact explained_iff

end Claim

namespace PlaybookSpecimen

@[reducible] def runtime : Runtime where
  dateParse _ := none
  decimal _ := none
  redactSensitiveText s := s

@[reducible] def elementary : Elementary where
  sqrt x := x
  log10 x := x

/-- A confirmed break of the opening range, with a risk that it is false. -/
def risky (risk : ℚ) : PlaybookContext where
  price := .finite 103
  barsByTimeframe := []
  option := []
  indicators :=
    [("falseBreakRisk", .number (.finite risk)), ("atr", .number (.finite 1)),
      ("relativeVolume", .number (.finite 2)), ("compression", .bool true),
      ("retestConfirmed", .bool true)]
  openingRange := some { high := .finite 102, low := .finite 100 }

theorem differ : DifferInFalseBreakRisk (risky 0) (risky 1) 0 1 where
  price := rfl
  bars := rfl
  option := rfl
  direction := rfl
  openingRange := rfl
  openingRangeMinutes := rfl
  indicators name hname := by
    have hne : ("falseBreakRisk" : String) ≠ name :=
      fun h ↦ hname (h ▸ List.mem_cons_self)
    simp [risky, Fields.get, hne]
  risk₁ := rfl
  risk₂ := rfl

end PlaybookSpecimen

open PlaybookSpecimen in
/-- With and without the risk the score is 70, and with it the reported components sum up to
80. -/
theorem risk_without_bite :
    let _ := runtime
    let _ := elementary
    DifferInFalseBreakRisk (risky 0) (risky 1) 0 1 ∧
      ¬ (evaluate .breakout (risky 1) .bullish).Explained ∧
      ¬ Bites (risky 0) (risky 1) .bullish := by
  intro _ _
  have hscore : ∀ r ∈ [(0 : ℚ), 1], (evaluate .breakout (risky r) .bullish).score = 70 := by
    decide +kernel
  have htotal : total (evaluate .breakout (risky 1) .bullish).componentContributions.values = 80 :=
    by decide +kernel
  refine ⟨differ, ?_, ?_⟩
  · rw [PlaybookEvaluation.Explained, htotal, hscore 1 (by simp)]
    decide +kernel
  · rw [Bites, hscore 0 (by simp), hscore 1 (by simp)]
    norm_num

open PlaybookSpecimen in
theorem risk_condition :
    let _ := runtime
    let _ := elementary
    ((evaluate .reversal (risky 1) .bullish).Explained ∧
        (evaluate .reversal (risky 1) .bullish).Justified) ∧
      (Bites (risky 0) (risky 1) .bullish ↔
        Unsupported (risky 0) .bullish (deriveMarketContext (risky 0))) := by
  intro _ _
  obtain ⟨hexplained, hbites⟩ := playbook_scores_iff
  exact ⟨(hexplained .reversal (risky 1) .bullish).2 fun h ↦ (by cases h),
    hbites _ _ _ 0 1 differ le_rfl one_pos le_rfl⟩

end ZeroDte

end AlpacaTrading
