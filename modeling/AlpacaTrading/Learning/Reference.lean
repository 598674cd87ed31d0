import AlpacaTrading.Lib.Ranking
import AlpacaTrading.Learning.OutcomeRecord

/-!
# The market reference

The reference of a record is the latest observation that is not later than the event: of the exact
evidence, if any of it is eligible, and of all observations otherwise.  The sort that finds it is
stable and looks at nothing but the time, so of several latest observations the first one of the
input is chosen, and another order of the input chooses another one.
-/

namespace AlpacaTrading

section Reference

variable [Locale] {instrument eventAt : String} {toleranceMs : ℚ} {exactEvidenceIds : List String}
  {observations observations' : List MarketObservationInput} {event : Time}

/-- The time of an observation, as the sort reads it. -/
def MarketObservationInput.time (o : MarketObservationInput) : Time :=
  (isoTime (some o.observedAt)).getD 0

/-- The order of the sort: the later one first. -/
def noEarlier (l r : MarketObservationInput) : Prop := r.time ≤ l.time

instance : DecidableRel noEarlier := fun l r ↦ inferInstanceAs (Decidable (r.time ≤ l.time))

instance : Std.Total noEarlier := ⟨fun l r ↦ le_total r.time l.time⟩

instance : IsTrans MarketObservationInput noEarlier :=
  ⟨fun _ _ _ hab hbc ↦ le_trans hbc hab⟩

/-- The eligible observations, and of the exact evidence the eligible ones. -/
def eligibleObservations (instrument : String) (event : Time) (toleranceMs : ℚ)
    (observations : List MarketObservationInput) : List MarketObservationInput :=
  observations.filter (·.eligible instrument event toleranceMs)

/-- The observations a reference is chosen from. -/
def consideredObservations (instrument : String) (event : Time) (toleranceMs : ℚ)
    (exactEvidenceIds : List String) (observations : List MarketObservationInput) :
    List MarketObservationInput :=
  let eligible := eligibleObservations instrument event toleranceMs observations
  let exact := eligible.filter (·.id ∈ exactEvidenceIds)
  if exact = [] then eligible else exact

theorem latestObservation_eq (l : List MarketObservationInput) :
    latestObservation l = (l.insertionSort noEarlier).head? := rfl

theorem eligible_iff {o : MarketObservationInput} :
    o.eligible instrument event toleranceMs = true ↔ o.instrument = instrument ∧
      isoTime (some o.observedAt) = some o.time ∧ o.time ≤ event ∧
      ((event - o.time : ℤ) : ℚ) ≤ toleranceMs := by
  rw [MarketObservationInput.eligible, Bool.and_eq_true, decide_eq_true_iff,
    MarketObservationInput.time]
  rcases isoTime (some o.observedAt) with - | time
  · simp
  · simp

/-- The choice: the latest of what is considered. -/
theorem selectReference_eq (hevent : isoTime (some eventAt) = some event) :
    selectReferenceMarketObservation instrument eventAt toleranceMs exactEvidenceIds observations =
      match latestObservation (consideredObservations instrument event toleranceMs exactEvidenceIds
        observations) with
      | none => {}
      | some o =>
        { observation := some o
          method :=
            if (eligibleObservations instrument event toleranceMs observations).filter
                (·.id ∈ exactEvidenceIds) ≠ [] then .exactEvidence
            else if o.bid.isSome || o.ask.isSome || o.midpoint.isSome then .nearestPriorQuote
            else .nearestPriorTrade
          distanceMs := (isoTime (some o.observedAt)).map (event - ·) } := by
  rw [selectReferenceMarketObservation, consideredObservations, eligibleObservations]
  dsimp only
  rw [hevent]
  dsimp only
  generalize observations.filter (·.eligible instrument event toleranceMs) = eligible
  generalize eligible.filter (fun o ↦ decide (o.id ∈ exactEvidenceIds)) = exact
  rcases exact with - | ⟨e, exact⟩
  · -- Without exact evidence everything eligible is considered.
    have hnone : latestObservation [] = none := rfl
    rw [if_pos rfl, hnone]
    dsimp only
    rcases latestObservation eligible with - | o
    · rfl
    · dsimp only
      rw [if_neg (not_not.2 rfl)]
  · rw [if_neg (List.cons_ne_nil e exact)]
    rcases hlatest : latestObservation (e :: exact) with - | o
    · rw [latestObservation_eq, Ranking.head?_ranking_eq_none] at hlatest
      cases hlatest
    · dsimp only
      rw [if_pos (List.cons_ne_nil e exact)]

/-- An observation that is considered is eligible, and exact evidence where there is some. -/
theorem mem_consideredObservations {o : MarketObservationInput}
    (h : o ∈ consideredObservations instrument event toleranceMs exactEvidenceIds observations) :
    o ∈ eligibleObservations instrument event toleranceMs observations := by
  rw [consideredObservations] at h
  split at h
  · exact h
  · exact (List.mem_filter.1 h).1

/-- Filters follow a permutation. -/
theorem eligibleObservations_perm (hperm : observations.Perm observations') :
    (eligibleObservations instrument event toleranceMs observations).Perm
      (eligibleObservations instrument event toleranceMs observations') :=
  hperm.filter _

theorem exactEvidence_eq_nil_perm (hperm : observations.Perm observations') :
    (eligibleObservations instrument event toleranceMs observations).filter
        (·.id ∈ exactEvidenceIds) = [] ↔
      (eligibleObservations instrument event toleranceMs observations').filter
        (·.id ∈ exactEvidenceIds) = [] := by
  have hfilter := (@eligibleObservations_perm _ instrument toleranceMs _ _ event hperm).filter
    fun o ↦ decide (o.id ∈ exactEvidenceIds)
  constructor
  · intro h
    rwa [h, List.nil_perm] at hfilter
  · intro h
    rwa [h, List.perm_nil] at hfilter

theorem consideredObservations_perm (hperm : observations.Perm observations') :
    (consideredObservations instrument event toleranceMs exactEvidenceIds observations).Perm
      (consideredObservations instrument event toleranceMs exactEvidenceIds observations') := by
  rw [consideredObservations, consideredObservations]
  by_cases hnil : (eligibleObservations instrument event toleranceMs observations).filter
      (·.id ∈ exactEvidenceIds) = []
  · rw [if_pos hnil, if_pos ((exactEvidence_eq_nil_perm hperm).1 hnil)]
    exact eligibleObservations_perm hperm
  · rw [if_neg hnil, if_neg fun h ↦ hnil ((exactEvidence_eq_nil_perm hperm).2 h)]
    exact (eligibleObservations_perm hperm).filter _

/-- An observation that is considered is considered first when it is first. -/
theorem consideredObservations_cons {o : MarketObservationInput}
    (h : o ∈ consideredObservations instrument event toleranceMs exactEvidenceIds observations) :
    consideredObservations instrument event toleranceMs exactEvidenceIds
        (o :: observations.erase o) =
      o :: (consideredObservations instrument event toleranceMs exactEvidenceIds
        (o :: observations.erase o)).tail := by
  have heligible : o.eligible instrument event toleranceMs = true :=
    (List.mem_filter.1 (mem_consideredObservations h)).2
  have hmem : o ∈ observations := (List.mem_filter.1 (mem_consideredObservations h)).1
  have hcons : eligibleObservations instrument event toleranceMs (o :: observations.erase o) =
      o :: eligibleObservations instrument event toleranceMs (observations.erase o) :=
    List.filter_cons_of_pos heligible
  rw [consideredObservations] at h ⊢
  by_cases hnil : (eligibleObservations instrument event toleranceMs
      (o :: observations.erase o)).filter (·.id ∈ exactEvidenceIds) = []
  · rw [if_pos hnil, hcons]
    rfl
  · rw [if_neg fun hnil' ↦ hnil
      ((exactEvidence_eq_nil_perm (List.perm_cons_erase hmem)).1 hnil')] at h
    have hexact : decide (o.id ∈ exactEvidenceIds) = true := (List.mem_filter.1 h).2
    rw [if_neg hnil, hcons, List.filter_cons, if_pos hexact]
    rfl

/-- The latest of what is considered, of which the input may hold several. -/
def LatestConsidered (instrument : String) (event : Time) (toleranceMs : ℚ)
    (exactEvidenceIds : List String) (observations : List MarketObservationInput)
    (o : MarketObservationInput) : Prop :=
  o ∈ consideredObservations instrument event toleranceMs exactEvidenceIds observations ∧
    ∀ x ∈ consideredObservations instrument event toleranceMs exactEvidenceIds observations,
      x.time ≤ o.time

/-- Every latest observation is chosen for some order of the input. -/
theorem exists_perm_select (hevent : isoTime (some eventAt) = some event)
    {o : MarketObservationInput}
    (ho : LatestConsidered instrument event toleranceMs exactEvidenceIds observations o) :
    ∃ observations' : List MarketObservationInput, observations'.Perm observations ∧
      (selectReferenceMarketObservation instrument eventAt toleranceMs exactEvidenceIds
        observations').observation = some o := by
  obtain ⟨hmem, hlatest⟩ := ho
  have hperm : observations.Perm (o :: observations.erase o) :=
    List.perm_cons_erase (List.mem_filter.1 (mem_consideredObservations hmem)).1
  have hfirst : latestObservation (consideredObservations instrument event toleranceMs
      exactEvidenceIds (o :: observations.erase o)) = some o := by
    rw [consideredObservations_cons hmem, latestObservation_eq]
    refine Ranking.head?_ranking_cons noEarlier fun x hx ↦ hlatest x ?_
    refine (consideredObservations_perm hperm).mem_iff.2 ?_
    rw [consideredObservations_cons hmem]
    exact List.mem_cons_of_mem o hx
  refine ⟨o :: observations.erase o, hperm.symm, ?_⟩
  rw [selectReference_eq hevent, hfirst]

/-- A reference is of the instrument, not after the event, within the tolerance, and as close to
the event as any that is considered. -/
structure CausalReference (instrument eventAt : String) (toleranceMs : ℚ)
    (exactEvidenceIds : List String) (observations : List MarketObservationInput)
    (reference : SelectedReference) : Prop where
  causal : ∀ o, reference.observation = some o → ∃ event time, isoTime (some eventAt) = some event ∧
    isoTime (some o.observedAt) = some time ∧ o ∈ observations ∧ o.instrument = instrument ∧
    time ≤ event ∧ ((event - time : ℤ) : ℚ) ≤ toleranceMs ∧
    reference.distanceMs = some (event - time) ∧
    ∀ x ∈ observations, x.eligible instrument event toleranceMs = true →
      (reference.method = .exactEvidence → x.id ∈ exactEvidenceIds) → x.time ≤ time
  exact : reference.method = .exactEvidence →
    ∃ o, reference.observation = some o ∧ o.id ∈ exactEvidenceIds

theorem selectReference_causal :
    CausalReference instrument eventAt toleranceMs exactEvidenceIds observations
      (selectReferenceMarketObservation instrument eventAt toleranceMs exactEvidenceIds
        observations) := by
  rcases hevent : isoTime (some eventAt) with - | event
  · have hnone : selectReferenceMarketObservation instrument eventAt toleranceMs exactEvidenceIds
        observations = {} := by
      rw [selectReferenceMarketObservation, hevent]
    rw [hnone]
    exact ⟨nofun, nofun⟩
  · rw [selectReference_eq hevent]
    rcases hlatest : latestObservation (consideredObservations instrument event toleranceMs
      exactEvidenceIds observations) with - | o
    · exact ⟨nofun, nofun⟩
    · obtain ⟨hmem, htop⟩ := Ranking.head?_ranking noEarlier hlatest
      obtain ⟨hobservation, heligible⟩ := List.mem_filter.1 (mem_consideredObservations hmem)
      obtain ⟨hinstrument, htime, hcausal, htolerance⟩ := eligible_iff.1 heligible
      refine ⟨fun o' ho' ↦ ?_, fun hexact ↦ ⟨o, rfl, ?_⟩⟩
      · obtain rfl := Option.some_inj.1 ho'
        refine ⟨event, o.time, hevent, htime, hobservation, hinstrument, hcausal, htolerance, ?_,
          fun x hx hxeligible hxexact ↦ htop x ?_⟩
        · exact (congrArg (Option.map (event - ·)) htime).trans (Option.map_some ..)
        · have hxmem : x ∈ eligibleObservations instrument event toleranceMs observations :=
            List.mem_filter.2 ⟨hx, hxeligible⟩
          rw [consideredObservations]
          split
          · exact hxmem
          · next hsome =>
            refine List.mem_filter.2 ⟨hxmem, decide_eq_true (hxexact ?_)⟩
            exact if_pos hsome
      · dsimp only at hexact
        split at hexact
        · next hsome =>
          rw [consideredObservations, if_neg hsome] at hmem
          exact of_decide_eq_true (List.mem_filter.1 hmem).2
        · split at hexact
          · cases hexact
          · cases hexact

/-- **The choice does not depend on the order of the input exactly when** no two of the observations
that are considered are the latest. -/
theorem selectReference_order_independent_iff :
    ((∀ observations' : List MarketObservationInput, observations'.Perm observations →
        selectReferenceMarketObservation instrument eventAt toleranceMs exactEvidenceIds
            observations' =
          selectReferenceMarketObservation instrument eventAt toleranceMs exactEvidenceIds
            observations) ∧
      CausalReference instrument eventAt toleranceMs exactEvidenceIds observations
        (selectReferenceMarketObservation instrument eventAt toleranceMs exactEvidenceIds
          observations)) ↔
    ∀ event, isoTime (some eventAt) = some event →
      ∀ a b, LatestConsidered instrument event toleranceMs exactEvidenceIds observations a →
        LatestConsidered instrument event toleranceMs exactEvidenceIds observations b → a = b := by
  constructor
  · rintro ⟨horder, _⟩ event hevent a b ha hb
    obtain ⟨as, has, hselecta⟩ := exists_perm_select hevent ha
    obtain ⟨bs, hbs, hselectb⟩ := exists_perm_select hevent hb
    rw [horder as has] at hselecta
    rw [horder bs hbs] at hselectb
    exact Option.some_inj.1 (hselecta.symm.trans hselectb)
  · intro hone
    refine ⟨fun observations' hperm ↦ ?_, selectReference_causal⟩
    rcases hevent : isoTime (some eventAt) with - | event
    · rw [selectReferenceMarketObservation, selectReferenceMarketObservation, hevent]
    · have hconsidered := @consideredObservations_perm _ instrument toleranceMs exactEvidenceIds _ _
        event hperm.symm
      have hlatest := Ranking.head?_ranking_perm noEarlier hconsidered
        fun a ha b hb htop htop' ↦ hone event hevent a b ⟨ha, htop⟩ ⟨hb, htop'⟩
      have hexact := @exactEvidence_eq_nil_perm _ instrument toleranceMs exactEvidenceIds _ _ event
        hperm
      rw [selectReference_eq hevent, selectReference_eq hevent, latestObservation_eq,
        latestObservation_eq, hlatest]
      simp only [ne_eq, hexact]

end Reference

namespace Specimen

/-- A run time that reads one time. -/
@[reducible] def quoteLocale : Locale where
  dateParse s := if s = "2026-01-05T15:00:00.000Z" then some 1767625200000 else none
  collates a b := decide (a ≤ b)

/-- A quote at that time. -/
def bidQuote : MarketObservationInput :=
  { id := "bid", instrument := "XYZ", observedAt := "2026-01-05T15:00:00.000Z", bid := some 99 }

/-- Another quote at that time. -/
def askQuote : MarketObservationInput :=
  { id := "ask", instrument := "XYZ", observedAt := "2026-01-05T15:00:00.000Z", ask := some 101 }

end Specimen

/-- Two quotes at the time of the event: the first of the input is chosen. -/
theorem tied_quotes_by_order :
    let _ := Specimen.quoteLocale
    let select := selectReferenceMarketObservation "XYZ" "2026-01-05T15:00:00.000Z" 60000 []
    [Specimen.bidQuote, Specimen.askQuote].Pairwise
        (fun a b ↦ (a.observedAt, a.id) ≠ (b.observedAt, b.id)) ∧
      [Specimen.askQuote, Specimen.bidQuote].Perm [Specimen.bidQuote, Specimen.askQuote] ∧
      (select [Specimen.bidQuote, Specimen.askQuote]).observation = some Specimen.bidQuote ∧
      (select [Specimen.askQuote, Specimen.bidQuote]).observation = some Specimen.askQuote := by
  intro _ select
  exact ⟨by decide +kernel, List.Perm.swap _ _ _, by decide +kernel, by decide +kernel⟩

end AlpacaTrading
