import AlpacaTrading.Review.Budget

/-!
# Exclusive exposure

An approval takes its symbol.  No other proposal of the symbol is approved after it, and none before
it either: a proposal that comes earlier in the order of priority, is validly sized and conflicts
with nothing was skipped because its resources were not available or too small.
-/

namespace AlpacaTrading

namespace Arbitration

variable {input : ArbitrationInput} {context : PortfolioResourceContext} {s : Remaining}
  {proposal : PortfolioArbitrationProposal}

/-- The reasons of a skip that concern resources. -/
def resourceReasons : List String :=
  ["ARBITRATION_SKIPPED_RESOURCE_REQUIREMENT_UNAVAILABLE",
    "ARBITRATION_SKIPPED_INSUFFICIENT_BUYING_POWER", "ARBITRATION_SKIPPED_INSUFFICIENT_CASH",
    "ARBITRATION_SKIPPED_PORTFOLIO_LIMIT", "ARBITRATION_SKIPPED_UNDERLYING_EXPOSURE",
    "ARBITRATION_SKIPPED_NO_VALID_RESIZE"]

/-- The decision skips its proposal for its resources. -/
def SkippedForResources (decision : PortfolioArbitrationDecision) : Prop :=
  decision.action = .skip ∧ ∀ code ∈ decision.reasonCodes, code ∈ resourceReasons

theorem conflict?_eq_none_of {approvals : List PortfolioArbitrationProposal}
    (hfree : Free context proposal)
    (hother : ∀ q ∈ approvals, exposureKey q.symbol ≠ exposureKey proposal.symbol) :
    conflict? context approvals proposal = none := by
  have hpositions : exposedTo proposal context.existingPositions = [] :=
    exposedTo_eq_nil.2 hfree.positions
  have horders : exposedTo proposal ((currentOrders context).map (·.toPortfolioExposure)) = [] := by
    refine exposedTo_eq_nil.2 fun e he ↦ ?_
    obtain ⟨order, horder, rfl⟩ := List.mem_map.1 he
    obtain ⟨hmem, hactive⟩ := List.mem_filter.1 horder
    exact hfree.orders order hmem hactive
  have hcommitments : exposedTo proposal context.pendingCommitments = [] :=
    exposedTo_eq_nil.2 hfree.commitments
  have hfind : approvals.find? (fun p ↦ exposureKey p.symbol = exposureKey proposal.symbol) =
      none := by
    rw [List.find?_eq_none]
    intro q hq h
    exact hother q hq (of_decide_eq_true h)
  simp only [conflict?, hpositions, horders, hcommitments, hfind, ne_eq, not_true_eq_false,
    if_false]

theorem mem_reasonForUnavailableCapacity {d : Limited} {code : String}
    (h : code ∈ reasonForUnavailableCapacity d) : code ∈ resourceReasons := by
  obtain ⟨buyingPower, cash, portfolio, lane, underlying⟩ := d
  rw [reasonForUnavailableCapacity, List.mem_eraseDups] at h
  simp only [List.mem_append] at h
  rcases h with (((h | h) | h) | h) | h
  all_goals
    split at h
    · rw [List.mem_singleton] at h
      rw [h]
      decide
    · exact absurd h List.not_mem_nil

/-- A proposal that is validly sized and conflicts with nothing is skipped for its resources, if it
is skipped. -/
theorem decideProposal_skip {rank : Nat} (hsizing : (validSizing proposal).isSome)
    (hconflict : conflict? input.context s.approvals proposal = none)
    (hskip : (decideProposal input s rank proposal).1.action = .skip) :
    SkippedForResources (decideProposal input s rank proposal).1 := by
  refine ⟨hskip, ?_⟩
  obtain ⟨⟨requirement, unit⟩, hsizing⟩ := Option.isSome_iff_exists.1 hsizing
  have hunavailable : ∀ code ∈ ["ARBITRATION_SKIPPED_RESOURCE_REQUIREMENT_UNAVAILABLE"],
      code ∈ resourceReasons := by
    decide
  revert hskip
  rw [decideProposal]
  simp only [hsizing, hconflict]
  split
  · exact fun _ ↦ hunavailable
  · split
    · exact fun _ ↦ hunavailable
    · rw [size]
      dsimp only
      split
      · -- Nothing fits: the limits that are too small, and that no size is valid.
        intro _ code hcode
        rcases List.mem_append.1 hcode with hcode | hcode
        · exact mem_reasonForUnavailableCapacity hcode
        · rw [List.mem_singleton.1 hcode]
          decide
      · intro hskip
        change (if _ then _ else _) = _ at hskip
        split at hskip
        · cases hskip
        · cases hskip

/-- **The walk** skips for resources what comes before an approval of its symbol. -/
theorem walk_earlier (rank : Nat) (proposals : List PortfolioArbitrationProposal) :
    (walk input s rank proposals).Pairwise fun a b ↦ b.2.action ≠ .skip →
      exposureKey a.1.symbol = exposureKey b.1.symbol → (validSizing a.1).isSome →
        Free input.context a.1 → SkippedForResources a.2 := by
  -- Induction over the proposals; an approval is checked against all earlier ones.
  induction proposals generalizing s rank with
  | nil => exact List.Pairwise.nil
  | cons p rest ih =>
    rw [walk_cons]
    refine List.pairwise_cons.2 ⟨fun b hb happroved hkey hsizing hfree ↦ ?_, ih _⟩
    have hothers := ((walk_approved (rank + 1) rest).1 b hb happroved).2
    have hprior : ∀ q ∈ s.approvals, exposureKey q.symbol ≠ exposureKey p.symbol := by
      intro q hq
      rw [hkey]
      refine hothers q ?_
      rcases (decideProposal input s rank p).2 with - | resource
      · exact hq
      · rw [Option.elim_some, spend_approvals]
        exact List.mem_append_left _ hq
    refine decideProposal_skip hsizing (conflict?_eq_none_of hfree hprior) ?_
    by_contra hnotskip
    obtain ⟨_, resource, hresource⟩ := decideProposal_approved hnotskip
    refine hothers p ?_ hkey
    rw [hresource, Option.elim_some, spend_approvals]
    exact List.mem_append_right _ List.mem_cons_self

/-- The approvals of a result are exclusive. -/
structure ExclusiveExposure (input : ArbitrationInput) (result : PortfolioArbitrationResult) :
    Prop where
  /-- Every proposal is decided. -/
  decided : (input.decidedBy result).map Prod.fst = ranked input.proposals ∧
    (input.decidedBy result).map Prod.snd = result.decisions
  /-- Two approvals have different symbols. -/
  distinct : (input.decidedBy result).Pairwise fun a b ↦ a.2.action ≠ .skip →
    b.2.action ≠ .skip → exposureKey a.1.symbol ≠ exposureKey b.1.symbol
  /-- Nothing in the context has the symbol of an approval. -/
  free : ∀ x ∈ input.decidedBy result, x.2.action ≠ .skip → Free input.context x.1
  /-- An earlier proposal of its symbol was skipped for its resources. -/
  earlier : (input.decidedBy result).Pairwise fun a b ↦ b.2.action ≠ .skip →
    exposureKey a.1.symbol = exposureKey b.1.symbol → (validSizing a.1).isSome →
      Free input.context a.1 → SkippedForResources a.2

/-- **Exposure is exclusive**, for every list of proposals. -/
theorem exposure_exclusive {result : PortfolioArbitrationResult}
    (h : arbitratePortfolioResources input = .ok result) : ExclusiveExposure input result := by
  obtain ⟨hdecisions, hdecided⟩ := arbitrate_ok h
  refine ⟨?_, ?_, ?_, ?_⟩
  · rw [hdecided, hdecisions]
    exact ⟨walk_map_fst _ _, rfl⟩
  · rw [hdecided]
    exact approved_distinct
  · rw [hdecided]
    exact fun x hx happroved ↦ approved_free hx happroved
  · rw [hdecided]
    exact walk_earlier 1 _

/-- Two proposals of one symbol: the first asks for more than there is, in one piece. -/
def rivalSpecimen : ArbitrationInput where
  arbitrationId := "arbitration"
  cycleId := "cycle-7"
  proposals := [equitySpecimen,
    { equitySpecimen with
      proposalId := "equity-first", strategyPriority := 0, symbol := " aapl ",
      resourceRequirement := some 1000, unitResource := some 1000 }]
  context := contextSpecimen 300

/-- The theorem at these proposals: the second is approved. -/
theorem rivalSpecimen_exclusive :
    ∃ result, arbitratePortfolioResources rivalSpecimen = .ok result ∧
      result.decisions.map (·.action) = [.skip, .approve] ∧
      ExclusiveExposure rivalSpecimen result :=
  ⟨_, rfl, by decide +kernel, exposure_exclusive rfl⟩

end Arbitration

end AlpacaTrading
