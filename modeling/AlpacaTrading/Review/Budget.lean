import AlpacaTrading.Lib.Rounding
import AlpacaTrading.Review.Arbitrator

/-!
# What an arbitration spends

The walk of `arbitratePortfolioResources` threads five remaining capacities and the exposure to
each underlying, some rounded down to cents and some to the nearest hundred-millionth.  When the
amounts of the context are multiples of a hundred-millionth, none of the roundings ever makes a
capacity larger, and what the walk approves stays within each of them.

`Affordable` says what an approval leaves room for, `walk_within` carries a bound along the walk,
and `arbitration_within_context` collects the bounds.  A capacity that is unknown or negative
counts as zero, since nothing is approved then.
-/

namespace AlpacaTrading

namespace Arbitration

open Rounding

/-! ## The roundings -/

/-- The amounts the arbitration rounds to: hundred-millionths. -/
abbrev grid : ℕ := 100 * 1000000

theorem money_eq_down (value : ℚ) : money value = down 100 epsilon value := by
  rw [money, down, Nat.cast_ofNat]

theorem resourcePrecision_eq_nearest (value : ℚ) :
    resourcePrecision value = nearest grid epsilon value := by
  have hgrid : ((grid : ℕ) : ℚ) = 10 ^ 8 := by norm_num
  rw [resourcePrecision, nearest, hgrid]

theorem money_le {value : ℚ} (h : OnGrid grid value) : money value ≤ value := by
  rw [money_eq_down]
  exact down_le (by norm_num) (by norm_num) h (by norm_num [epsilon])

theorem money_mono {value value' : ℚ} (h : value ≤ value') : money value ≤ money value' := by
  rw [money_eq_down, money_eq_down]
  exact down_mono h

theorem money_nonneg {value : ℚ} (h : 0 ≤ value) : 0 ≤ money value := by
  rw [money_eq_down]
  exact down_nonneg h (by norm_num [epsilon])

theorem money_onGrid (value : ℚ) : OnGrid grid (money value) := by
  rw [money_eq_down]
  exact down_onGrid.refine (by norm_num)

theorem resourcePrecision_onGrid (value : ℚ) : OnGrid grid (resourcePrecision value) := by
  rw [resourcePrecision_eq_nearest]
  exact nearest_onGrid

theorem resourcePrecision_eq {value : ℚ} (h : OnGrid grid value) :
    resourcePrecision value = value := by
  rw [resourcePrecision_eq_nearest]
  exact nearest_eq (by norm_num) h (by norm_num [epsilon]) (by norm_num [epsilon])

/-- **A sized resource fits the available amount**, whatever the unit and the request are. -/
theorem sizedResource_le {mode : PortfolioArbitrationResizeMode} {requested unit amount : ℚ}
    (hunit : 0 < unit) (hgrid : OnGrid grid amount) (hnonneg : 0 ≤ amount) :
    (sizedResource mode requested unit amount).1 ≤ amount ∧
      OnGrid grid (sizedResource mode requested unit amount).1 := by
  have hbounded : min requested (max 0 amount) ≤ amount := by
    rw [max_eq_right hnonneg]
    exact min_le_right _ _
  have hnotional : money (min requested (max 0 amount)) ≤ amount :=
    (money_mono hbounded).trans (money_le hgrid)
  -- Whole units cost at most the bounded amount and the nudge.
  have hunits : resourcePrecision
      (⌊(min requested (max 0 amount) + epsilon) / unit⌋ * unit) ≤ amount := by
    rw [resourcePrecision_eq_nearest]
    refine nearest_le (by norm_num) hgrid ?_ (by norm_num [epsilon])
    calc (⌊(min requested (max 0 amount) + epsilon) / unit⌋ : ℚ) * unit
      _ ≤ (min requested (max 0 amount) + epsilon) / unit * unit :=
        mul_le_mul_of_nonneg_right (Int.floor_le _) hunit.le
      _ = min requested (max 0 amount) + epsilon := div_mul_cancel₀ _ hunit.ne'
      _ ≤ amount + epsilon := by linarith
  have hwhole : ∀ units : ℚ, resourcePrecision (units * unit) ≤ amount →
      (if 1 ≤ units then resourcePrecision (units * unit) else 0) ≤ amount ∧
        OnGrid grid (if 1 ≤ units then resourcePrecision (units * unit) else 0) := by
    intro units hle
    by_cases hone : 1 ≤ units
    · rw [if_pos hone]
      exact ⟨hle, resourcePrecision_onGrid _⟩
    · rw [if_neg hone]
      exact ⟨hnonneg, .zero⟩
  rcases mode with - | - | -
  · unfold sizedResource
    dsimp only
    by_cases hunit' : unit ≤ money (min requested (max 0 amount))
    · rw [if_pos hunit']
      exact ⟨hnotional, money_onGrid _⟩
    · rw [if_neg hunit']
      exact ⟨hnonneg, .zero⟩
  · exact hwhole _ hunits
  · exact hwhole _ hunits

/-! ## The least limit -/

theorem foldl_min_le (l : List ℚ) (a : ℚ) :
    l.foldl min a ≤ a ∧ ∀ b ∈ l, l.foldl min a ≤ b := by
  induction l generalizing a with
  | nil => exact ⟨le_refl a, by simp⟩
  | cons b l ih =>
    obtain ⟨hmin, hrest⟩ := ih (min a b)
    refine ⟨hmin.trans (min_le_left a b), fun c hc ↦ ?_⟩
    rcases List.mem_cons.1 hc with rfl | hc
    · exact hmin.trans (min_le_right a c)
    · exact hrest c hc

/-- The least of some amounts is an amount. -/
theorem foldl_min_of {p : ℚ → Prop} (hp : ∀ a b, p a → p b → p (min a b)) {l : List ℚ} {a : ℚ}
    (ha : p a) (hl : ∀ b ∈ l, p b) : p (l.foldl min a) := by
  induction l generalizing a with
  | nil => exact ha
  | cons b l ih =>
    exact ih (hp a b ha (hl b List.mem_cons_self)) fun c hc ↦ hl c (List.mem_cons_of_mem b hc)

/-- An amount the walk can draw on. -/
def Amount (v : ℚ) : Prop := 0 ≤ v ∧ OnGrid grid v

theorem Amount.min {a b : ℚ} (ha : Amount a) (hb : Amount b) : Amount (min a b) :=
  ⟨le_min ha.1 hb.1, ha.2.min hb.2⟩

/-- What is left of an amount after a smaller one is drawn from it. -/
theorem Amount.draw {v r : ℚ} (hv : Amount v) (hr : OnGrid grid r) (hle : r ≤ v) :
    Amount (money (v - r)) ∧ r + money (v - r) ≤ v := by
  refine ⟨⟨money_nonneg (by linarith), money_onGrid _⟩, ?_⟩
  have hmoney := money_le (hv.2.sub hr)
  linarith

/-! ## What an approval leaves room for -/

/-- What is left is not negative, and on the grid. -/
structure Solvent (s : Remaining) : Prop where
  buyingPower : ∀ v, s.buyingPower = some v → Amount v
  optionsBuyingPower : ∀ v, s.optionsBuyingPower = some v → Amount v
  cash : ∀ v, s.cash = some v → Amount v
  portfolio : ∀ v, s.portfolio = some v → Amount v
  lane : ∀ lane v, s.lane lane = some (some v) → Amount v
  underlying : ∀ key, OnGrid grid (s.underlying key)

/-- The resource fits everything the proposal draws on. -/
structure Affordable (input : ArbitrationInput) (s : Remaining)
    (proposal : PortfolioArbitrationProposal) (resource : ℚ) : Prop where
  pos : 0 < resource
  onGrid : OnGrid grid resource
  buyingPower : ∃ v, s.buyingPower = some v ∧ resource ≤ v
  cash : ∃ v, s.cash = some v ∧ resource ≤ v
  portfolio : ∃ v, s.portfolio = some v ∧ resource ≤ v
  options : proposal.assetClass = .option → ∃ v, s.optionsBuyingPower = some v ∧ resource ≤ v
  lane : ∀ capacity, s.lane proposal.lane = some capacity → ∃ v, capacity = some v ∧ resource ≤ v
  underlying : ∀ limit, finiteNonnegative input.context.maxUnderlyingExposure = some limit →
    s.unknown (normalized proposal.underlyingSymbol) = false ∧
      s.underlying (normalized proposal.underlyingSymbol) + resource ≤ limit

section Decision

variable {input : ArbitrationInput} {s : Remaining} {rank : Nat}
  {proposal : PortfolioArbitrationProposal} {resource : ℚ}

/-- What a decision looked at: a skip approves nothing, and an approval is sized within the
limits. -/
theorem decideProposal_cases :
    ((decideProposal input s rank proposal).2 = none ∧
      (decideProposal input s rank proposal).1.action = .skip ∧
      (decideProposal input s rank proposal).1.approvedResourceRequirement = none) ∨
    ∃ requirement unit l, validSizing proposal = some (requirement, unit) ∧
      limits? s proposal = some l ∧
      ¬ ((finiteNonnegative input.context.maxUnderlyingExposure).isSome = true ∧
        s.unknown (normalized proposal.underlyingSymbol) = true) ∧
      0 < (sizedResource proposal.resizeMode requirement unit
        (available l (underlyingRemaining input.context s proposal))).1 ∧
      (decideProposal input s rank proposal).2 = some (sizedResource proposal.resizeMode
        requirement unit (available l (underlyingRemaining input.context s proposal))).1 ∧
      (decideProposal input s rank proposal).1.approvedResourceRequirement =
        (decideProposal input s rank proposal).2 ∧
      (decideProposal input s rank proposal).1.action ≠ .skip := by
  unfold decideProposal
  rcases hsizing : validSizing proposal with - | ⟨requirement, unit⟩
  · exact Or.inl ⟨rfl, rfl, rfl⟩
  · dsimp only
    split
    · exact Or.inl ⟨rfl, rfl, rfl⟩
    · rcases hlimits : limits? s proposal with - | l
      · exact Or.inl ⟨rfl, rfl, rfl⟩
      · dsimp only
        split
        · exact Or.inl ⟨rfl, rfl, rfl⟩
        · next hknown =>
          unfold size
          dsimp only
          split
          · exact Or.inl ⟨rfl, rfl, rfl⟩
          · next hpos =>
            refine Or.inr ⟨requirement, unit, l, rfl, rfl, hknown, not_le.1 hpos, rfl, rfl, ?_⟩
            change (if _ then _ else _) ≠ _
            split
            · intro h
              cases h
            · intro h
              cases h

/-- The limits of a proposal are what is left. -/
theorem limits?_eq_some {l : Limits} (h : limits? s proposal = some l) :
    s.buyingPower = some l.buyingPower ∧ s.cash = some l.cash ∧ s.portfolio = some l.portfolio ∧
      (proposal.assetClass = .option → ∃ v, s.optionsBuyingPower = some v ∧ l.options = some v) ∧
      (∀ v, l.options = some v → s.optionsBuyingPower = some v) ∧
      (∀ capacity, s.lane proposal.lane = some capacity → ∃ v, capacity = some v ∧ l.lane = some v) ∧
      (∀ v, l.lane = some v → s.lane proposal.lane = some (some v)) := by
  unfold limits? at h
  rcases hbuying : s.buyingPower with - | buyingPower
  · simp [hbuying] at h
  rcases hcash : s.cash with - | cash
  · simp [hbuying, hcash] at h
  rcases hportfolio : s.portfolio with - | portfolio
  · simp [hbuying, hcash, hportfolio] at h
  by_cases hclass : proposal.assetClass = .option
  · rcases hoptions : s.optionsBuyingPower with - | options
    · simp [hbuying, hcash, hportfolio, hclass, hoptions] at h
    · rcases hlane : s.lane proposal.lane with - | (- | capacity)
      all_goals
        simp only [hbuying, hcash, hportfolio, hclass, hoptions, hlane] at h
        try obtain rfl := Option.some_inj.1 h
        simp_all
  · rcases hlane : s.lane proposal.lane with - | (- | capacity)
    all_goals
      simp only [hbuying, hcash, hportfolio, hclass, hlane] at h
      try obtain rfl := Option.some_inj.1 h
      simp_all

/-- The available amount is within each limit. -/
theorem available_le {l : Limits} {underlying : Option ℚ} :
    available l underlying ≤ l.buyingPower ∧ available l underlying ≤ l.cash ∧
      available l underlying ≤ l.portfolio ∧
      (∀ v, l.lane = some v → available l underlying ≤ v) ∧
      (∀ v, underlying = some v → available l underlying ≤ v) ∧
      ∀ v, l.options = some v → available l underlying ≤ v := by
  obtain ⟨hfirst, hothers⟩ := foldl_min_le ([l.cash, l.portfolio] ++ l.lane.toList ++
    underlying.toList ++ l.options.toList) l.buyingPower
  refine ⟨hfirst, hothers _ (by simp), hothers _ (by simp), fun v hv ↦ hothers v ?_,
    fun v hv ↦ hothers v ?_, fun v hv ↦ hothers v ?_⟩
  all_goals simp [hv]

/-- The available amount is an amount when the limits are. -/
theorem available_amount {l : Limits} {underlying : Option ℚ} (hbuying : Amount l.buyingPower)
    (hcash : Amount l.cash) (hportfolio : Amount l.portfolio)
    (hlane : ∀ v, l.lane = some v → Amount v) (hunderlying : ∀ v, underlying = some v → Amount v)
    (hoptions : ∀ v, l.options = some v → Amount v) : Amount (available l underlying) := by
  refine foldl_min_of (p := Amount) (fun _ _ ↦ Amount.min) hbuying fun b hb ↦ ?_
  simp only [List.mem_append, List.mem_cons, List.not_mem_nil, or_false, Option.mem_toList] at hb
  rcases hb with (((h | h) | h) | h) | h
  · rwa [h]
  · rwa [h]
  · exact hlane b h
  · exact hunderlying b h
  · exact hoptions b h

/-- What a valid sizing says of the proposal. -/
theorem validSizing_eq_some {requirement unit : ℚ}
    (h : validSizing proposal = some (requirement, unit)) :
    proposal.resourceRequirement = some requirement ∧ proposal.unitResource = some unit ∧
      0 < requirement ∧ 0 < unit ∧
      (proposal.resizeMode ≠ .notional → ∃ q, proposal.requestedQuantity = some q ∧
        isSafeInteger q ∧ 1 ≤ q ∧ resourcePrecision (q * unit) = resourcePrecision requirement) := by
  simp only [validSizing, finitePositive, Option.bind_eq_bind, Option.bind_eq_some_iff,
    Option.filter_eq_some_iff, decide_eq_true_eq] at h
  obtain ⟨requirement', ⟨hrequirement, hpos⟩, unit', ⟨hunit, hunitpos⟩, h⟩ := h
  split at h
  · next hquantity =>
    obtain ⟨rfl, rfl⟩ := Prod.mk.inj (Option.some_inj.1 h)
    refine ⟨hrequirement, hunit, hpos, hunitpos, fun hmode ↦ ?_⟩
    obtain ⟨q, hq, hwhole⟩ := (Option.any_eq_true _ _).1 (hquantity.resolve_left hmode)
    exact ⟨q, hq, of_decide_eq_true hwhole⟩
  · cases h

/-- What a solvent walk offers a proposal is an amount. -/
theorem Solvent.available (hs : Solvent s)
    (hlimit : ∀ v, input.context.maxUnderlyingExposure = some v → OnGrid grid v) {l : Limits}
    (hlimits : limits? s proposal = some l) :
    Amount (available l (underlyingRemaining input.context s proposal)) := by
  obtain ⟨hbuying, hcash, hportfolio, _, hoptions, _, hlane⟩ := limits?_eq_some hlimits
  refine available_amount (hs.buyingPower _ hbuying) (hs.cash _ hcash) (hs.portfolio _ hportfolio)
    (fun v hv ↦ hs.lane _ v (hlane v hv)) (fun v hv ↦ ?_)
    fun v hv ↦ hs.optionsBuyingPower v (hoptions v hv)
  obtain ⟨limit, hmax, rfl⟩ := Option.map_eq_some_iff.1 hv
  have hgrid := hlimit limit (Option.filter_eq_some_iff.1 hmax).1
  exact ⟨le_max_left _ _, OnGrid.zero.max (hgrid.sub (hs.underlying _))⟩

/-- **An approval is affordable.** -/
theorem decideProposal_affordable (hs : Solvent s)
    (hlimit : ∀ v, input.context.maxUnderlyingExposure = some v → OnGrid grid v)
    (h : (decideProposal input s rank proposal).2 = some resource) :
    Affordable input s proposal resource := by
  rcases @decideProposal_cases input s rank proposal with ⟨hnone, _⟩ |
    ⟨requirement, unit, l, hsizing, hlimits, hknown, hpos, hsome, _⟩
  · rw [hnone] at h
    cases h
  · obtain rfl := Option.some_inj.1 (hsome.symm.trans h)
    obtain ⟨hbuying, hcash, hportfolio, hoptions, _, hlane, _⟩ := limits?_eq_some hlimits
    have hunit : 0 < unit := (validSizing_eq_some hsizing).2.2.2.1
    have hamount := hs.available hlimit hlimits
    obtain ⟨hle, hgrid⟩ := @sizedResource_le proposal.resizeMode requirement unit _ hunit
      hamount.2 hamount.1
    obtain ⟨hfits, hfits_cash, hfits_portfolio, hfits_lane, hfits_underlying, hfits_options⟩ :=
      @available_le l (underlyingRemaining input.context s proposal)
    refine ⟨hpos, hgrid, ⟨_, hbuying, hle.trans hfits⟩, ⟨_, hcash, hle.trans hfits_cash⟩,
      ⟨_, hportfolio, hle.trans hfits_portfolio⟩, fun hclass ↦ ?_, fun capacity hcapacity ↦ ?_,
      fun limit hmax ↦ ?_⟩
    · obtain ⟨v, hv, hoption⟩ := hoptions hclass
      exact ⟨v, hv, hle.trans (hfits_options v hoption)⟩
    · obtain ⟨v, hv, hlimit⟩ := hlane capacity hcapacity
      exact ⟨v, hv, hle.trans (hfits_lane v hlimit)⟩
    · have hremaining : underlyingRemaining input.context s proposal =
          some (max 0 (limit - s.underlying (normalized proposal.underlyingSymbol))) := by
        rw [underlyingRemaining, hmax, Option.map_some]
      have hroom := hle.trans (hfits_underlying _ hremaining)
      refine ⟨by simpa [hmax] using hknown, ?_⟩
      rcases le_max_iff.1 hroom with hzero | hroom
      · exact absurd hpos (not_lt.2 hzero)
      · linarith

theorem finiteNonnegative_of_nonneg {v : ℚ} (h : 0 ≤ v) : finiteNonnegative (some v) = some v := by
  rw [finiteNonnegative, Option.filter_some, if_pos (decide_eq_true h)]

theorem finiteNonnegative_getD (value : Option ℚ) :
    (finiteNonnegative value).getD 0 = max 0 (value.getD 0) := by
  rcases value with - | v
  · rfl
  · by_cases h : 0 ≤ v
    · rw [finiteNonnegative_of_nonneg h, Option.getD_some, max_eq_right h]
    · rw [finiteNonnegative, Option.filter_some, if_neg (by simpa using h), Option.getD_some,
        max_eq_left (not_le.1 h).le]
      rfl

/-- What is left after a resource is spent. -/
theorem spend_eq (h : 0 ≤ resource) :
    s.spend proposal resource =
      { buyingPower := s.buyingPower.map fun v ↦ money (v - resource)
        optionsBuyingPower :=
          if proposal.assetClass = .option then
            s.optionsBuyingPower.map fun v ↦ money (v - resource)
          else s.optionsBuyingPower
        cash := s.cash.map fun v ↦ money (v - resource)
        portfolio := s.portfolio.map fun v ↦ money (v - resource)
        lane := fun lane ↦
          if lane = proposal.lane then (s.lane lane).map (·.map fun v ↦ money (v - resource))
          else s.lane lane
        underlying := fun key ↦
          if key = normalized proposal.underlyingSymbol then
            resourcePrecision (s.underlying (normalized proposal.underlyingSymbol) + resource)
          else s.underlying key
        unknown := s.unknown
        approvals := s.approvals ++ [proposal] } := by
  unfold Remaining.spend Remaining.addUnderlyingExposure
  simp only [finiteNonnegative_of_nonneg h]

/-- **Affordable resources leave the walk solvent.** -/
theorem Affordable.spend_solvent (hs : Solvent s) (h : Affordable input s proposal resource) :
    Solvent (s.spend proposal resource) := by
  have hdraw : ∀ {c : Option ℚ}, (∃ v, c = some v ∧ resource ≤ v) → (∀ v, c = some v → Amount v) →
      ∀ w, c.map (fun v ↦ money (v - resource)) = some w → Amount w := by
    rintro c ⟨v, rfl, hle⟩ hamount w hw
    rw [Option.map_some] at hw
    rw [← Option.some_inj.1 hw]
    exact ((hamount v rfl).draw h.onGrid hle).1
  rw [spend_eq h.pos.le]
  refine ⟨hdraw h.buyingPower hs.buyingPower, fun w hw ↦ ?_, hdraw h.cash hs.cash,
    hdraw h.portfolio hs.portfolio, fun lane w hw ↦ ?_, fun key ↦ ?_⟩
  · dsimp only at hw
    split at hw
    · next hclass => exact hdraw (h.options hclass) hs.optionsBuyingPower w hw
    · exact hs.optionsBuyingPower w hw
  · dsimp only at hw
    split at hw
    · next heq =>
      rcases hlane : s.lane lane with - | capacity
      · rw [hlane] at hw
        cases hw
      · rw [hlane, Option.map_some, Option.some_inj] at hw
        rw [heq] at hlane
        obtain ⟨v, rfl, hle⟩ := h.lane capacity hlane
        exact hdraw ⟨v, rfl, hle⟩ (fun u hu ↦ hs.lane _ u (by rw [hlane, hu])) w hw
    · exact hs.lane lane w hw
  · dsimp only
    split
    · exact resourcePrecision_onGrid _
    · exact hs.underlying key

/-! ## Bounds along the walk -/

/-- What the decisions approve of the proposals of a kind. -/
def approvedOf (p : PortfolioArbitrationProposal → Bool)
    (decisions : List (PortfolioArbitrationProposal × PortfolioArbitrationDecision)) : ℚ :=
  ((decisions.filter fun x ↦ p x.1).map fun x ↦ x.2.approvedResourceRequirement.getD 0).sum

theorem approvedOf_cons (p : PortfolioArbitrationProposal → Bool)
    (x : PortfolioArbitrationProposal × PortfolioArbitrationDecision)
    (rest : List (PortfolioArbitrationProposal × PortfolioArbitrationDecision)) :
    approvedOf p (x :: rest) =
      (if p x.1 then x.2.approvedResourceRequirement.getD 0 else 0) + approvedOf p rest := by
  unfold approvedOf
  by_cases h : p x.1 = true
  · rw [if_pos h, List.filter_cons, if_pos h, List.map_cons, List.sum_cons]
  · rw [if_neg h, List.filter_cons, if_neg h, zero_add]

theorem walk_cons (rest : List PortfolioArbitrationProposal) :
    walk input s rank (proposal :: rest) =
      (proposal, (decideProposal input s rank proposal).1) ::
        walk input ((decideProposal input s rank proposal).2.elim s (s.spend proposal))
          (rank + 1) rest := by
  rw [walk]
  rcases decideProposal input s rank proposal with ⟨decision, - | resource⟩
  · rfl
  · rfl

/-- **The rule for bounds.**  `I s v` says that the proposals of the kind may still get `v`; an
approval of the kind has to leave what it takes. -/
theorem walk_within {I : Remaining → ℚ → Prop} {p : PortfolioArbitrationProposal → Bool}
    (hnonneg : ∀ s v, I s v → 0 ≤ v)
    (hspend : ∀ s v rank proposal resource, I s v →
      (decideProposal input s rank proposal).2 = some resource →
      ∃ w, I (s.spend proposal resource) w ∧ (if p proposal then resource else 0) + w ≤ v)
    {v : ℚ} (hinit : I s v) (proposals : List PortfolioArbitrationProposal) :
    approvedOf p (walk input s rank proposals) ≤ v := by
  induction proposals generalizing s rank v with
  | nil => exact hnonneg s v hinit
  | cons proposal rest ih =>
    rw [walk_cons, approvedOf_cons]
    dsimp only
    rcases @decideProposal_cases input s rank proposal with ⟨hnone, _, hzero⟩ |
      ⟨_, _, _, _, _, _, _, hsome, happroved, _⟩
    · rw [hzero, hnone, Option.getD_none, ite_self, zero_add, Option.elim_none]
      exact ih hinit
    · obtain ⟨w, hleft, hle⟩ := hspend s v rank proposal _ hinit hsome
      rw [happroved, hsome, Option.getD_some, Option.elim_some]
      exact (add_le_add_right (ih hleft) _).trans hle

end Decision

/-! ## The exposures of the context -/

/-- Everything in the context that is exposed to an underlying. -/
def exposures (context : PortfolioResourceContext) : List PortfolioExposure :=
  context.existingPositions ++ (currentOrders context).map (·.toPortfolioExposure) ++
    context.pendingCommitments

/-- The known exposure to an underlying. -/
def exposureTo (key : String) (es : List PortfolioExposure) : ℚ :=
  ((es.filter fun e ↦ normalized e.underlyingSymbol = key).map fun e ↦
    (finiteNonnegative e.resourceExposure).getD 0).sum

/-- Whether some exposure to an underlying is unknown. -/
def unknownTo (key : String) (es : List PortfolioExposure) : Bool :=
  es.any fun e ↦ normalized e.underlyingSymbol = key ∧ finiteNonnegative e.resourceExposure = none

/-- The known amounts of the exposures are on the grid. -/
def ExposuresOnGrid (es : List PortfolioExposure) : Prop :=
  ∀ e ∈ es, ∀ v, e.resourceExposure = some v → OnGrid grid v

theorem exposureTo_cons (key : String) (e : PortfolioExposure) (es : List PortfolioExposure) :
    exposureTo key (e :: es) =
      (if normalized e.underlyingSymbol = key then (finiteNonnegative e.resourceExposure).getD 0
        else 0) + exposureTo key es := by
  unfold exposureTo
  by_cases h : normalized e.underlyingSymbol = key
  · rw [if_pos h, List.filter_cons, if_pos (decide_eq_true h), List.map_cons, List.sum_cons]
  · rw [if_neg h, List.filter_cons, if_neg (by simpa using h), zero_add]

theorem unknownTo_cons (key : String) (e : PortfolioExposure) (es : List PortfolioExposure) :
    unknownTo key (e :: es) =
      ((decide (key = normalized e.underlyingSymbol) &&
        (finiteNonnegative e.resourceExposure).isNone) || unknownTo key es) := by
  unfold unknownTo
  rw [List.any_cons]
  by_cases h : key = normalized e.underlyingSymbol
  · subst h
    rcases finiteNonnegative e.resourceExposure <;> simp
  · rw [decide_eq_false h, decide_eq_false fun hand ↦ h hand.1.symm, Bool.false_and]

/-- **The exposures add up**, since nothing is rounded on the grid. -/
theorem foldl_addUnderlyingExposure {es : List PortfolioExposure} (hes : ExposuresOnGrid es)
    (s : Remaining) (hs : ∀ key, OnGrid grid (s.underlying key)) :
    es.foldl (fun s e ↦ s.addUnderlyingExposure e.underlyingSymbol e.resourceExposure) s =
      { s with
        underlying := fun key ↦ s.underlying key + exposureTo key es
        unknown := fun key ↦ s.unknown key || unknownTo key es } := by
  induction es generalizing s with
  | nil => simp [exposureTo, unknownTo]
  | cons e es ih =>
    have hrest : ExposuresOnGrid es := fun e' he' ↦ hes e' (List.mem_cons_of_mem e he')
    rw [List.foldl_cons]
    rcases hvalue : finiteNonnegative e.resourceExposure with - | v
    · have hadd : s.addUnderlyingExposure e.underlyingSymbol e.resourceExposure =
          { s with unknown := fun k ↦
              decide (k = normalized e.underlyingSymbol) || s.unknown k } := by
        unfold Remaining.addUnderlyingExposure
        simp only [hvalue]
      have hgrid : ∀ key, OnGrid grid
          ((s.addUnderlyingExposure e.underlyingSymbol e.resourceExposure).underlying key) := by
        rw [hadd]
        exact hs
      refine (ih hrest _ hgrid).trans ?_
      rw [hadd]
      simp only [Remaining.mk.injEq, true_and, and_true]
      refine ⟨?_, ?_⟩
      · funext key
        rw [exposureTo_cons, hvalue, Option.getD_none, ite_self, zero_add]
      · funext key
        rw [unknownTo_cons, hvalue, Option.isNone_none, Bool.and_true, Bool.or_assoc,
          Bool.or_left_comm]
    · have hgrid : OnGrid grid v :=
        hes e List.mem_cons_self v (Option.filter_eq_some_iff.1 hvalue).1
      have hadd : s.addUnderlyingExposure e.underlyingSymbol e.resourceExposure =
          { s with underlying := fun k ↦
              if k = normalized e.underlyingSymbol then
                s.underlying (normalized e.underlyingSymbol) + v
              else s.underlying k } := by
        unfold Remaining.addUnderlyingExposure
        simp only [hvalue, resourcePrecision_eq ((hs _).add hgrid)]
      have hkeeps : ∀ key, OnGrid grid
          ((s.addUnderlyingExposure e.underlyingSymbol e.resourceExposure).underlying key) := by
        intro key
        rw [hadd]
        dsimp only
        split
        · exact (hs _).add hgrid
        · exact hs key
      refine (ih hrest _ hkeeps).trans ?_
      rw [hadd]
      simp only [Remaining.mk.injEq, true_and, and_true]
      refine ⟨?_, ?_⟩
      · funext key
        rw [exposureTo_cons, hvalue, Option.getD_some]
        by_cases hkey : key = normalized e.underlyingSymbol
        · rw [if_pos hkey, if_pos hkey.symm, hkey, add_assoc]
        · rw [if_neg hkey, if_neg (Ne.symm hkey), zero_add]
      · funext key
        rw [unknownTo_cons, hvalue, Option.isNone_some, Bool.and_false, Bool.false_or]

/-- What there is before the first proposal. -/
theorem start_eq {context : PortfolioResourceContext} (hes : ExposuresOnGrid (exposures context)) :
    start context =
      { buyingPower := finiteNonnegative context.buyingPowerAvailable
        optionsBuyingPower := finiteNonnegative context.optionsBuyingPowerAvailable
        cash := finiteNonnegative context.cashAvailable
        portfolio := finiteNonnegative context.portfolioCapacityAvailable
        lane := fun lane ↦ (context.laneCapacityAvailable lane).map finiteNonnegative
        underlying := fun key ↦ exposureTo key (exposures context)
        unknown := fun key ↦ unknownTo key (exposures context)
        approvals := [] } := by
  unfold start
  dsimp only
  rw [← exposures]
  refine (foldl_addUnderlyingExposure hes _ fun _ ↦ .zero).trans ?_
  simp only [zero_add, Bool.false_or]

/-! ## The bounds -/

section Bounds

variable {input : ArbitrationInput} {s : Remaining} {rank : Nat}

/-- **The rule for a capacity.**  Proposals of the kind draw on it, and the others leave it
alone. -/
theorem walk_within_capacity {J : Remaining → Prop} {c : Remaining → Option ℚ}
    {p : PortfolioArbitrationProposal → Bool}
    (hlimit : ∀ v, input.context.maxUnderlyingExposure = some v → OnGrid grid v)
    (hamount : ∀ s, Solvent s → ∀ v, c s = some v → Amount v)
    (hspend : ∀ s proposal resource, J s → Affordable input s proposal resource →
      J (s.spend proposal resource) ∧
        if p proposal then
          (∃ v, c s = some v ∧ resource ≤ v) ∧
            c (s.spend proposal resource) = (c s).map fun v ↦ money (v - resource)
        else c (s.spend proposal resource) = c s)
    (hs : Solvent s) (hinit : J s) (proposals : List PortfolioArbitrationProposal) :
    approvedOf p (walk input s rank proposals) ≤ (c s).getD 0 := by
  refine walk_within (I := fun s v ↦ Solvent s ∧ J s ∧ (c s).getD 0 = v) ?_ ?_ ⟨hs, hinit, rfl⟩
    proposals
  · rintro s v ⟨hs, _, rfl⟩
    rcases hc : c s with - | v
    · exact le_refl 0
    · exact (hamount s hs v hc).1
  · rintro s v rank proposal resource ⟨hs, hJ, rfl⟩ happroved
    have hfits := decideProposal_affordable hs hlimit happroved
    obtain ⟨hJ', hdraw⟩ := hspend s proposal resource hJ hfits
    refine ⟨_, ⟨hfits.spend_solvent hs, hJ', rfl⟩, ?_⟩
    by_cases hp : p proposal = true
    · rw [if_pos hp] at hdraw ⊢
      obtain ⟨⟨v, hv, hle⟩, hleft⟩ := hdraw
      rw [hleft, hv]
      exact ((hamount s hs v hv).draw hfits.onGrid hle).2
    · rw [if_neg hp] at hdraw ⊢
      rw [hdraw, zero_add]

/-- The proposals on an underlying get what the limit leaves. -/
theorem walk_within_underlying {limit : ℚ}
    (hmax : finiteNonnegative input.context.maxUnderlyingExposure = some limit)
    (hlimit : OnGrid grid limit) (hs : Solvent s) (key : String)
    (proposals : List PortfolioArbitrationProposal) :
    approvedOf (fun q ↦ normalized q.underlyingSymbol = key) (walk input s rank proposals) ≤
      max 0 (limit - s.underlying key) := by
  have hlimits : ∀ v, input.context.maxUnderlyingExposure = some v → OnGrid grid v := by
    intro v hv
    have hsome := (Option.filter_eq_some_iff.1 hmax).1
    rwa [← Option.some_inj.1 (hsome.symm.trans hv)]
  refine walk_within (I := fun s v ↦ Solvent s ∧ max 0 (limit - s.underlying key) = v) ?_ ?_
    ⟨hs, rfl⟩ proposals
  · rintro s v ⟨_, rfl⟩
    exact le_max_left _ _
  · rintro s v rank proposal resource ⟨hs, rfl⟩ happroved
    have hfits := decideProposal_affordable hs hlimits happroved
    refine ⟨_, ⟨hfits.spend_solvent hs, rfl⟩, ?_⟩
    rw [spend_eq hfits.pos.le]
    dsimp only
    by_cases hkey : normalized proposal.underlyingSymbol = key
    · obtain ⟨_, hroom⟩ := hfits.underlying limit hmax
      rw [hkey] at hroom
      rw [if_pos (decide_eq_true hkey), if_pos hkey.symm, hkey,
        resourcePrecision_eq ((hs.underlying key).add hfits.onGrid),
        max_eq_right (by linarith), max_eq_right (by linarith [hfits.pos])]
      linarith
    · rw [if_neg (by simpa using hkey), if_neg (Ne.symm hkey), zero_add]

/-- Approvals are positive, and under a limit they are on underlyings whose exposure is known. -/
theorem walk_approvals (proposals : List PortfolioArbitrationProposal) :
    ∀ x ∈ walk input s rank proposals, 0 ≤ x.2.approvedResourceRequirement.getD 0 ∧
      (x.2.action ≠ .skip → 0 < x.2.approvedResourceRequirement.getD 0 ∧
        ((finiteNonnegative input.context.maxUnderlyingExposure).isSome = true →
          s.unknown (normalized x.1.underlyingSymbol) = false)) := by
  induction proposals generalizing s rank with
  | nil => simp [walk]
  | cons proposal rest ih =>
    intro x hx
    rw [walk_cons] at hx
    rcases @decideProposal_cases input s rank proposal with ⟨hnone, hskip, hzero⟩ |
      ⟨_, _, _, _, _, hknown, hpos, hsome, happroved, _⟩
    · rw [hnone, Option.elim_none] at hx
      rcases List.mem_cons.1 hx with rfl | hx
      · refine ⟨?_, fun h ↦ absurd hskip h⟩
        simp only [hzero, Option.getD_none, le_refl]
      · exact ih x hx
    · rw [hsome, Option.elim_some] at hx
      rcases List.mem_cons.1 hx with rfl | hx
      · simp only [happroved, hsome, Option.getD_some]
        refine ⟨hpos.le, fun _ ↦ ⟨hpos, fun hlimit ↦ ?_⟩⟩
        simpa using fun hunknown ↦ hknown ⟨hlimit, hunknown⟩
      · have hlater := ih x hx
        rw [spend_eq hpos.le] at hlater
        exact hlater

end Bounds

end Arbitration

open Arbitration Rounding

/-- The amounts of a context are multiples of a hundred-millionth. -/
structure PortfolioResourceContext.Precise (context : PortfolioResourceContext) : Prop where
  buyingPower : ∀ v, context.buyingPowerAvailable = some v → OnGrid grid v
  optionsBuyingPower : ∀ v, context.optionsBuyingPowerAvailable = some v → OnGrid grid v
  cash : ∀ v, context.cashAvailable = some v → OnGrid grid v
  portfolio : ∀ v, context.portfolioCapacityAvailable = some v → OnGrid grid v
  maxUnderlyingExposure : ∀ v, context.maxUnderlyingExposure = some v → OnGrid grid v
  lanes : ∀ lane v, context.laneCapacityAvailable lane = some (some v) → OnGrid grid v
  exposures : ExposuresOnGrid (exposures context)

/-- What an arbitration approves in total. -/
def PortfolioArbitrationResult.approved (result : PortfolioArbitrationResult) : ℚ :=
  (result.decisions.map fun d ↦ d.approvedResourceRequirement.getD 0).sum

/-- The proposals of a request in their order, with the decisions about them. -/
def ArbitrationInput.decidedBy (input : ArbitrationInput) (result : PortfolioArbitrationResult) :
    List (PortfolioArbitrationProposal × PortfolioArbitrationDecision) :=
  (ranked input.proposals).zip result.decisions

/-- A result stays within the resources of its context. -/
structure WithinContext (input : ArbitrationInput) (result : PortfolioArbitrationResult) :
    Prop where
  buyingPower : result.approved ≤ max 0 (input.context.buyingPowerAvailable.getD 0)
  cash : result.approved ≤ max 0 (input.context.cashAvailable.getD 0)
  portfolio : result.approved ≤ max 0 (input.context.portfolioCapacityAvailable.getD 0)
  options : approvedOf (fun q ↦ q.assetClass = .option) (input.decidedBy result) ≤
    max 0 (input.context.optionsBuyingPowerAvailable.getD 0)
  lanes : ∀ lane capacity, input.context.laneCapacityAvailable lane = some capacity →
    approvedOf (fun q ↦ q.lane = lane) (input.decidedBy result) ≤ max 0 (capacity.getD 0)
  /-- An underlying that receives an approval has no unknown exposure, and its exposure and its
  approvals are within the limit. -/
  underlyings : ∀ limit, 0 ≤ limit → input.context.maxUnderlyingExposure = some limit →
    ∀ x ∈ input.decidedBy result, x.2.action ≠ .skip →
      unknownTo (normalized x.1.underlyingSymbol) (exposures input.context) = false ∧
      exposureTo (normalized x.1.underlyingSymbol) (exposures input.context) +
        approvedOf (fun q ↦ normalized q.underlyingSymbol = normalized x.1.underlyingSymbol)
          (input.decidedBy result) ≤ limit

section Within

variable {input : ArbitrationInput} {result : PortfolioArbitrationResult}

theorem arbitrate_ok (h : arbitratePortfolioResources input = .ok result) :
    result.decisions = (decided input).map Prod.snd ∧ input.decidedBy result = decided input := by
  simp only [arbitratePortfolioResources, bind_eq_ok] at h
  obtain ⟨_, _, h⟩ := h
  obtain rfl := Except.ok.inj h
  refine ⟨rfl, ?_⟩
  have hfst : (decided input).map Prod.fst = ranked input.proposals := walk_map_fst _ _
  rw [ArbitrationInput.decidedBy, ← hfst, List.zip_map']
  exact List.map_id _

theorem start_solvent (h : input.context.Precise) : Solvent (start input.context) := by
  have hfinite : ∀ {c : Option ℚ}, (∀ v, c = some v → OnGrid grid v) →
      ∀ v, finiteNonnegative c = some v → Amount v := by
    intro c hc v hv
    obtain ⟨hsome, hnonneg⟩ := Option.filter_eq_some_iff.1 hv
    exact ⟨of_decide_eq_true hnonneg, hc v hsome⟩
  rw [start_eq h.exposures]
  refine ⟨hfinite h.buyingPower, hfinite h.optionsBuyingPower, hfinite h.cash,
    hfinite h.portfolio, fun lane v hv ↦ ?_, fun key ↦ OnGrid.sum ?_⟩
  · obtain ⟨capacity, hcapacity, hvalue⟩ := Option.map_eq_some_iff.1 hv
    exact hfinite (fun w hw ↦ h.lanes lane w (by rw [hcapacity, hw])) v hvalue
  · intro q hq
    obtain ⟨e, he, rfl⟩ := List.mem_map.1 hq
    rcases hvalue : finiteNonnegative e.resourceExposure with - | v
    · exact .zero
    · exact (hfinite (h.exposures e (List.mem_filter.1 he).1) v hvalue).2

/-- The bound on a capacity of the context that `c` reads from what is left. -/
theorem decided_within_capacity (h : input.context.Precise) {J : Remaining → Prop}
    {c : Remaining → Option ℚ} {p : PortfolioArbitrationProposal → Bool} {capacity : Option ℚ}
    (hamount : ∀ s, Solvent s → ∀ v, c s = some v → Amount v)
    (hspend : ∀ s proposal resource, J s → Affordable input s proposal resource →
      J (s.spend proposal resource) ∧
        if p proposal then
          (∃ v, c s = some v ∧ resource ≤ v) ∧
            c (s.spend proposal resource) = (c s).map fun v ↦ money (v - resource)
        else c (s.spend proposal resource) = c s)
    (hinit : J (start input.context))
    (hstart : c (start input.context) = finiteNonnegative capacity) :
    approvedOf p (decided input) ≤ max 0 (capacity.getD 0) := by
  rw [← finiteNonnegative_getD, ← hstart]
  exact walk_within_capacity h.maxUnderlyingExposure hamount hspend (start_solvent h) hinit _

/-- **An arbitration stays within its context**, for every list of proposals. -/
theorem arbitration_within_context (input : ArbitrationInput) (result : PortfolioArbitrationResult)
    (hprecise : input.context.Precise) (h : arbitratePortfolioResources input = .ok result) :
    WithinContext input result := by
  obtain ⟨hdecisions, hdecided⟩ := arbitrate_ok h
  have htotal : result.approved = approvedOf (fun _ ↦ true) (decided input) := by
    rw [PortfolioArbitrationResult.approved, hdecisions, approvedOf, List.filter_true,
      List.map_map]
    rfl
  have hstart := start_eq hprecise.exposures
  refine ⟨?_, ?_, ?_, ?_, fun lane capacity hcapacity ↦ ?_, fun limit hlimit hmax x hx happroved ↦ ?_⟩
  · rw [htotal]
    refine decided_within_capacity hprecise (J := fun _ ↦ True) (c := Remaining.buyingPower)
      (fun s hs ↦ hs.buyingPower) (fun s proposal resource _ hfits ↦ ?_) trivial (by rw [hstart])
    rw [if_pos rfl, spend_eq hfits.pos.le]
    exact ⟨trivial, hfits.buyingPower, rfl⟩
  · rw [htotal]
    refine decided_within_capacity hprecise (J := fun _ ↦ True) (c := Remaining.cash)
      (fun s hs ↦ hs.cash) (fun s proposal resource _ hfits ↦ ?_) trivial (by rw [hstart])
    rw [if_pos rfl, spend_eq hfits.pos.le]
    exact ⟨trivial, hfits.cash, rfl⟩
  · rw [htotal]
    refine decided_within_capacity hprecise (J := fun _ ↦ True) (c := Remaining.portfolio)
      (fun s hs ↦ hs.portfolio) (fun s proposal resource _ hfits ↦ ?_) trivial (by rw [hstart])
    rw [if_pos rfl, spend_eq hfits.pos.le]
    exact ⟨trivial, hfits.portfolio, rfl⟩
  · rw [hdecided]
    refine decided_within_capacity hprecise (J := fun _ ↦ True)
      (c := Remaining.optionsBuyingPower) (fun s hs ↦ hs.optionsBuyingPower)
      (fun s proposal resource _ hfits ↦ ⟨trivial, ?_⟩) trivial (by rw [hstart])
    rw [spend_eq hfits.pos.le]
    by_cases hclass : proposal.assetClass = .option
    · rw [if_pos (decide_eq_true hclass)]
      exact ⟨hfits.options hclass, if_pos hclass⟩
    · rw [if_neg (by simpa using hclass)]
      exact if_neg hclass
  · rw [hdecided]
    -- The lane stays configured along the walk.
    refine decided_within_capacity hprecise (J := fun s ↦ (s.lane lane).isSome = true)
      (c := fun s ↦ (s.lane lane).join) (fun s hs v hv ↦ hs.lane lane v (Option.join_eq_some_iff.1 hv))
      (fun s proposal resource hconfigured hfits ↦ ?_) (by rw [hstart]; simp [hcapacity])
      (by rw [hstart]; simp [hcapacity])
    rw [spend_eq hfits.pos.le]
    by_cases hlane : proposal.lane = lane
    · subst hlane
      obtain ⟨left, hleft⟩ := Option.isSome_iff_exists.1 hconfigured
      obtain ⟨v, rfl, hle⟩ := hfits.lane left hleft
      rw [if_pos (decide_eq_true rfl), hleft]
      exact ⟨by simp [hleft], ⟨v, rfl, hle⟩, by simp [hleft]⟩
    · dsimp only
      rw [if_neg (Ne.symm hlane), if_neg (by simpa using hlane)]
      exact ⟨hconfigured, rfl⟩
  · rw [hdecided] at hx ⊢
    have hsome : finiteNonnegative input.context.maxUnderlyingExposure = some limit := by
      rw [hmax, finiteNonnegative_of_nonneg hlimit]
    have happrovals := @walk_approvals input (start input.context) 1 (ranked input.proposals)
    obtain ⟨hpos, hknown⟩ := (happrovals x hx).2 happroved
    have hunder := @walk_within_underlying input (start input.context) 1 limit hsome
      (hprecise.maxUnderlyingExposure limit hmax) (start_solvent hprecise)
      (normalized x.1.underlyingSymbol) (ranked input.proposals)
    -- The approval itself is positive, so something is left of the limit.
    have hsum : 0 < approvedOf (fun q ↦ normalized q.underlyingSymbol =
        normalized x.1.underlyingSymbol) (decided input) := by
      refine lt_of_lt_of_le hpos (List.single_le_sum ?_ _ ?_)
      · intro q hq
        obtain ⟨y, hy, rfl⟩ := List.mem_map.1 hq
        exact (happrovals y (List.mem_filter.1 hy).1).1
      · exact List.mem_map_of_mem (List.mem_filter.2 ⟨hx, by simp⟩)
    rw [← decided] at hunder
    rw [hstart] at hknown hunder
    refine ⟨hknown (by rw [hsome]; rfl), ?_⟩
    rcases le_max_iff.1 hunder with hzero | hroom
    · exact absurd hsum (not_lt.2 hzero)
    · linarith

/-! ### A shared account -/

/-- A proposal to open a long position of shares. -/
def equitySpecimen : PortfolioArbitrationProposal where
  proposalId := "equity-second"
  cycleId := "cycle-7"
  lane := .equity
  strategyPriority := 1
  score := some 90
  confidence := none
  symbol := "AAPL"
  underlyingSymbol := "AAPL"
  contractId := none
  direction := .long
  assetClass := .equity
  requestedQuantity := none
  requestedNotional := some 150
  resourceRequirement := some 150
  unitResource := some 1
  resizeMode := .notional

/-- A proposal to open two option contracts. -/
def optionSpecimen : PortfolioArbitrationProposal where
  proposalId := "option-first"
  cycleId := "cycle-7"
  lane := .options0dte
  strategyPriority := 0
  score := some 95
  confidence := none
  symbol := "SPY260729C00600000"
  underlyingSymbol := "SPY"
  contractId := some "SPY260729C00600000"
  direction := .long
  assetClass := .option
  requestedQuantity := some 2
  requestedNotional := some 200
  resourceRequirement := some 200
  unitResource := some 100
  resizeMode := .wholeContracts

/-- An account with a buying power, and a limit on each underlying. -/
def contextSpecimen (buyingPower : ℚ) : PortfolioResourceContext where
  contextId := "context"
  contextVersion := "version"
  buyingPowerAvailable := some buyingPower
  optionsBuyingPowerAvailable := some 500
  cashAvailable := some 300
  portfolioCapacityAvailable := some 400
  maxUnderlyingExposure := some 250
  existingPositions := []
  openOrders := []
  pendingCommitments := [⟨"commitment", "SPY", "SPY", .long, some 50⟩]
  laneCapacityAvailable := fun lane ↦ if lane = .options0dte then some (some 225) else none
  accountSnapshotAsOf := none
  positionSnapshotAsOf := none
  openOrderSnapshotAsOf := none

/-- Both proposals compete for the account. -/
def arbitrationSpecimen (buyingPower : ℚ) : ArbitrationInput where
  arbitrationId := "arbitration"
  cycleId := "cycle-7"
  proposals := [equitySpecimen, optionSpecimen]
  context := contextSpecimen buyingPower

theorem contextSpecimen_precise (buyingPower : ℤ) : (contextSpecimen buyingPower).Precise := by
  have hgrid : ∀ k : ℤ, OnGrid grid (k : ℚ) := fun k ↦
    ⟨k * grid, by rw [Int.cast_mul, Int.cast_natCast]; exact (mul_div_cancel_right₀ _ (by norm_num)).symm⟩
  have hsome : ∀ k : ℤ, ∀ v : ℚ, some (k : ℚ) = some v → OnGrid grid v := by
    intro k v hv
    rw [← Option.some_inj.1 hv]
    exact hgrid k
  refine ⟨hsome buyingPower, hsome 500, hsome 300, hsome 400, hsome 250, fun lane v hv ↦ ?_, ?_⟩
  · rcases lane with - | - | -
    · cases hv
    · exact hsome 225 v (Option.some_inj.1 hv)
    · cases hv
  · intro e he v hv
    obtain rfl := List.mem_singleton.1 he
    exact hsome 50 v hv

/-- The theorem at two proposals that share an account: the contracts leave the shares 100 of the
150 they ask for. -/
theorem specimen_within_context :
    ∃ result, arbitratePortfolioResources (arbitrationSpecimen 300) = .ok result ∧
      result.approved = 300 ∧ WithinContext (arbitrationSpecimen 300) result :=
  ⟨_, rfl, by decide +kernel,
    arbitration_within_context (arbitrationSpecimen 300) _ (contextSpecimen_precise 300) rfl⟩

/-- A negative buying power is exceeded by the nothing that is approved. -/
theorem negative_capacity_exceeded :
    ¬ ∀ input result, input.context.Precise → arbitratePortfolioResources input = .ok result →
      ∀ v, input.context.buyingPowerAvailable = some v → result.approved ≤ v := by
  intro h
  have hexceeded := h (arbitrationSpecimen (-1)) _ (contextSpecimen_precise (-1)) rfl (-1) rfl
  exact absurd hexceeded (by decide +kernel)

end Within

end AlpacaTrading
