import Mathlib.Order.Bounds.Basic
import AlpacaTrading.Review.Exposure

/-!
# Resizes

What an approval gets is the most that the request and the remaining capacities allow: whole units,
or whole cents of a notional amount.  The amounts are multiples of a hundred-millionth, so the
nudge of the source never buys another unit or cent.

A notional request that is no whole number of cents is rounded down even when all of it fits.  The
decision is a resize then, no limit is named among its conflicts, and its reason is the one for
the case that nothing else explains it.
-/

namespace AlpacaTrading

namespace Arbitration

open Rounding

/-! ## Sizes -/

section Sizes

variable {mode : PortfolioArbitrationResizeMode} {requested unit amount : ℚ}

end Sizes

/-! ## What limits a request -/

/-- The dimensions of `limited`. -/
inductive Dimension where
  | buyingPower | cash | portfolio | lane | underlying
deriving DecidableEq, Repr

/-- The reason of a resize that names the dimension. -/
def Dimension.reasonCode : Dimension → String
  | buyingPower => "ARBITRATION_RESIZED_BUYING_POWER"
  | cash => "ARBITRATION_RESIZED_CASH_LIMIT"
  | portfolio => "ARBITRATION_RESIZED_PORTFOLIO_LIMIT"
  | lane => "ARBITRATION_RESIZED_LANE_LIMIT"
  | underlying => "ARBITRATION_RESIZED_UNDERLYING_EXPOSURE"

/-- The capacities of the dimension that are known. -/
def Dimension.remaining (l : Limits) (underlyingRemaining : Option ℚ) : Dimension → List ℚ
  | buyingPower => l.buyingPower :: l.options.toList
  | cash => [l.cash]
  | portfolio => [l.portfolio]
  | lane => l.lane.toList
  | underlying => underlyingRemaining.toList

/-- Every capacity a request can draw on. -/
def capacities (l : Limits) (underlyingRemaining : Option ℚ) : List ℚ :=
  l.buyingPower :: ([l.cash, l.portfolio] ++ l.lane.toList ++ underlyingRemaining.toList ++
    l.options.toList)

section Limits

variable {l : Limits} {underlying : Option ℚ} {requirement a : ℚ}

/-- What `limited` says of a dimension. -/
def Limited.flag (d : Limited) : Dimension → Bool
  | .buyingPower => d.buyingPower
  | .cash => d.cash
  | .portfolio => d.portfolio
  | .lane => d.lane
  | .underlying => d.underlying

/-- The dimensions, in the order in which they are named. -/
def Dimension.all : List Dimension :=
  [.buyingPower, .cash, .portfolio, .lane, .underlying]

end Limits

/-! ## Decisions -/

/-- The remaining capacities of a request allow an amount. -/
def Fits (l : Limits) (underlying : Option ℚ) (amount : ℚ) : Prop :=
  ∀ c ∈ capacities l underlying, amount ≤ c

section Decision

variable {input : ArbitrationInput} {s : Remaining} {rank : Nat}
  {proposal : PortfolioArbitrationProposal}

/-- What a decision leaves. -/
def Remaining.after (s : Remaining)
    (x : PortfolioArbitrationProposal × PortfolioArbitrationDecision) : Remaining :=
  x.2.approvedResourceRequirement.elim s (s.spend x.1)

theorem decideProposal_approvedResource :
    (decideProposal input s rank proposal).1.approvedResourceRequirement =
      (decideProposal input s rank proposal).2 := by
  rcases @decideProposal_cases input s rank proposal with ⟨hnone, _, hzero⟩ |
    ⟨_, _, _, _, _, _, _, _, happroved, _⟩
  · rw [hzero, hnone]
  · exact happroved

/-- A decision leaves the walk solvent. -/
theorem Solvent.after (hs : Solvent s)
    (hlimit : ∀ v, input.context.maxUnderlyingExposure = some v → OnGrid grid v) :
    Solvent (s.after (proposal, (decideProposal input s rank proposal).1)) := by
  rw [Remaining.after, decideProposal_approvedResource]
  rcases happroved : (decideProposal input s rank proposal).2 with - | resource
  · exact hs
  · exact (decideProposal_affordable hs hlimit happroved).spend_solvent hs

end Decision

end Arbitration

end AlpacaTrading
