import AlpacaTrading.Backtest.Run

/-!
# Positions and their trades

Every position a backtest opens is closed once: along the loop the positions opened so far are
those of the trades, in order, and the open one (`Book.Accounts`), and the final close leaves
nothing open.  This needs nothing of the features.

Only one bar of a symbol has features, so only one can open a position (`entry_unique`), and from
then on no bar has a direction that could close it.  The trade of the symbol is then known from
the bars after the entry: it ends at the first of them on which an exit fires, or at the last.
-/

namespace AlpacaTrading

namespace Backtest

open ExtendedNumber

/-! ## One trade for each position -/

section Books

variable {P T : Type} {fresh age : P → P} {Closes : P → T → Prop} {exit : P → Option ExitReason}
  {signal : P → Bool} {close : P → ExitReason → T} {opened : List P} {book : Book P T}

/-- The positions opened so far are those of the trades, in order, and the open one.  Positions
are compared as they were when they were opened. -/
def Book.Accounts (fresh : P → P) (Closes : P → T → Prop) (opened : List P) (book : Book P T) :
    Prop :=
  ∃ closed, opened = closed ++ (book.held.map fresh).toList ∧ List.Forall₂ Closes closed book.trades

theorem Book.Accounts.closed {position : P} {trade : T} (h : book.Accounts fresh Closes opened)
    (hheld : book.held = some position) (hcloses : Closes (fresh position) trade) :
    Book.Accounts fresh Closes opened { held := none, trades := book.trades ++ [trade] } := by
  obtain ⟨closed, hopened, hall⟩ := h
  refine ⟨closed ++ [fresh position], ?_, List.rel_append hall (.cons hcloses .nil)⟩
  rw [hopened, hheld]
  simp

theorem Book.Accounts.settle (hage : ∀ p, fresh (age p) = fresh p)
    (hclose : ∀ p reason, Closes (fresh p) (close p reason))
    (h : book.Accounts fresh Closes opened) :
    (book.settle age exit signal close).1.Accounts fresh Closes opened := by
  rw [Book.settle.eq_def]
  rcases hheld : book.held with - | position
  · exact h
  · have hclosed : ∀ reason, Closes (fresh position) (close (age position) reason) := by
      intro reason
      rw [← hage]
      exact hclose _ reason
    dsimp only
    rcases exit (age position) with - | reason
    · dsimp only
      split_ifs
      · exact h.closed hheld (hclosed _)
      · -- The position only grows older.
        obtain ⟨closed, hopened, hall⟩ := h
        refine ⟨closed, ?_, hall⟩
        rw [hopened, hheld, Option.map_some, Option.map_some, hage]
    · exact h.closed hheld (hclosed _)

theorem Book.Accounts.enter {position : P} (h : book.Accounts fresh Closes opened)
    (hheld : book.held = none) (hfresh : fresh position = position) :
    Book.Accounts fresh Closes (opened ++ [position]) { book with held := some position } := by
  obtain ⟨closed, hopened, hall⟩ := h
  refine ⟨closed, ?_, hall⟩
  rw [hopened, hheld, Option.map_some, hfresh]
  simp

theorem Book.Accounts.finish (hclose : ∀ p reason, Closes (fresh p) (close p reason))
    (h : book.Accounts fresh Closes opened) :
    List.Forall₂ Closes opened (book.finish close).trades := by
  have hdone : (book.finish close).held = none ∧
      (book.finish close).Accounts fresh Closes opened := by
    rw [Book.finish.eq_def]
    rcases hheld : book.held with - | position
    · exact ⟨hheld, h⟩
    · exact ⟨rfl, h.closed hheld (hclose _ _)⟩
  obtain ⟨hnone, closed, hopened, hall⟩ := hdone
  rw [hnone] at hopened
  simpa [hopened] using hall

end Books

/-- The position as it was opened. -/
def Position.fresh (position : Position) : Position := { position with holdDays := 0 }

/-- The position as it was opened. -/
def OptionPosition.fresh (position : OptionPosition) : OptionPosition :=
  { position with holdDays := 0 }

/-- The trade closes the position, at some price and for some reason. -/
def ShareTrade.Closes (position : Position) (trade : ShareTrade) : Prop :=
  ∃ price reason date, trade = closeSharePosition position price reason date

/-- The trade closes the position, at some premium and for some reason. -/
def OptionTrade.Closes (position : OptionPosition) (trade : OptionTrade) : Prop :=
  ∃ premium reason date, trade = closeOptionPosition position premium reason date

section Closing

variable {data : ResearchData} {bar : BarRow}

theorem closeShare_closes (position : Position) (reason : ExitReason) :
    ShareTrade.Closes position.fresh (closeShare bar position reason) :=
  ⟨bar.close, reason, bar.timestamp, rfl⟩

theorem closeOption_closes (position : OptionPosition) (reason : ExitReason) :
    OptionTrade.Closes position.fresh (closeOption data bar position reason) :=
  ⟨premiumAt data bar position, reason, bar.timestamp, rfl⟩

end Closing

namespace Holding

def share? : Holding → Option Position
  | share position => some position
  | option _ => none

def option? : Holding → Option OptionPosition
  | share _ => none
  | option position => some position

end Holding

section Simulation

variable [TextNumber] (platform : Platform) (data : ResearchData) (cfg : Settings)
  (symbol : String)

/-- The positions that the loop opens on its way through the bars. -/
def openedFrom (loop : Loop) : List BarRow → List Holding
  | [] => []
  | bar :: rest =>
    (opens platform data cfg symbol loop bar).toList ++
      openedFrom (step platform data cfg symbol loop bar) rest

/-- The positions that the backtest opens for a symbol. -/
def opened : List Holding :=
  openedFrom platform data cfg symbol {} (parsedBars data cfg symbol)

/-- Both books account for the positions opened so far. -/
structure Loop.Accounts (holdings : List Holding) (loop : Loop) : Prop where
  shares : loop.shares.Accounts Position.fresh ShareTrade.Closes (holdings.filterMap (·.share?))
  options :
    loop.options.Accounts OptionPosition.fresh OptionTrade.Closes (holdings.filterMap (·.option?))

variable {platform data cfg symbol} {loop : Loop} {bar : BarRow} {holdings : List Holding}

theorem Loop.Accounts.exits (h : loop.Accounts holdings) :
    (exits platform data cfg symbol loop bar).1.Accounts holdings := by
  rw [Backtest.exits]
  dsimp only
  split_ifs
  · exact ⟨h.shares.settle (fun _ ↦ rfl) closeShare_closes,
      h.options.settle (fun _ ↦ rfl) closeOption_closes⟩
  · exact ⟨h.shares.settle (fun _ ↦ rfl) closeShare_closes, h.options⟩

/-- What an entry opens. -/
theorem entry_eq_some {holding : Holding}
    (h : entry platform data cfg symbol bar = some holding) :
    shouldEnter cfg (selectorAt platform data symbol bar) (trendAt data symbol bar) = true ∧
      ((∃ side expression, holding = .share (sharePosition cfg symbol side expression bar)) ∨
        ∃ strategy, holding =
          .option (buildOptionPosition data cfg symbol bar.timestamp bar.close strategy)) := by
  rw [entry] at h
  split_ifs at h with henter
  · exact ⟨henter, .inr ⟨_, (Option.some.inj h).symm⟩⟩
  · exact ⟨henter, .inl ⟨_, _, (Option.some.inj h).symm⟩⟩
  · exact ⟨henter, .inr ⟨_, (Option.some.inj h).symm⟩⟩
  · exact ⟨henter, .inl ⟨_, _, (Option.some.inj h).symm⟩⟩

/-- A position is opened where none is left, as the entry of the bar says. -/
theorem opens_eq_some {holding : Holding}
    (h : opens platform data cfg symbol loop bar = some holding) :
    (Backtest.exits platform data cfg symbol loop bar).1.shares.held = none ∧
      (Backtest.exits platform data cfg symbol loop bar).1.options.held = none ∧
      entry platform data cfg symbol bar = some holding := by
  rw [opens] at h
  split_ifs at h with hfree
  exact ⟨Option.isNone_iff_eq_none.1 hfree.2.1, Option.isNone_iff_eq_none.1 hfree.2.2, h⟩

theorem Loop.Accounts.step (h : loop.Accounts holdings) :
    (step platform data cfg symbol loop bar).Accounts
      (holdings ++ (opens platform data cfg symbol loop bar).toList) := by
  have hexits : (Backtest.exits platform data cfg symbol loop bar).1.Accounts holdings := h.exits
  rw [Backtest.step]
  rcases hopens : opens platform data cfg symbol loop bar with - | holding
  · simpa [Loop.enter] using hexits
  · obtain ⟨hshares, hoptions, hentry⟩ := opens_eq_some hopens
    -- A position that is opened is new, whatever its kind.
    obtain ⟨-, ⟨side, expression, rfl⟩ | ⟨strategy, rfl⟩⟩ := entry_eq_some hentry
    · refine ⟨?_, by simpa [Holding.option?, Loop.enter] using hexits.options⟩
      simpa [Holding.share?, Loop.enter] using hexits.shares.enter hshares rfl
    · refine ⟨by simpa [Holding.share?, Loop.enter] using hexits.shares, ?_⟩
      simpa [Holding.option?, Loop.enter] using hexits.options.enter hoptions rfl

theorem Loop.Accounts.foldl {bars : List BarRow} (h : loop.Accounts holdings) :
    (bars.foldl (Backtest.step platform data cfg symbol) loop).Accounts
      (holdings ++ openedFrom platform data cfg symbol loop bars) := by
  induction bars generalizing loop holdings with
  | nil => simpa [openedFrom] using h
  | cons bar rest ih =>
    rw [List.foldl_cons, openedFrom, ← List.append_assoc]
    exact ih h.step

/-- **Every position opened for a symbol has one trade**, in the order they were opened. -/
theorem simulateSymbol_closes :
    List.Forall₂ ShareTrade.Closes ((opened platform data cfg symbol).filterMap (·.share?))
        (simulateSymbol platform data cfg symbol).shares.trades ∧
      List.Forall₂ OptionTrade.Closes ((opened platform data cfg symbol).filterMap (·.option?))
        (simulateSymbol platform data cfg symbol).options.trades := by
  have hnil : Loop.Accounts [] {} := ⟨⟨[], rfl, .nil⟩, ⟨[], rfl, .nil⟩⟩
  have h : ((parsedBars data cfg symbol).foldl (step platform data cfg symbol) {}).Accounts
      ([] ++ openedFrom platform data cfg symbol {} (parsedBars data cfg symbol)) := hnil.foldl
  rw [List.nil_append] at h
  rw [opened, simulateSymbol]
  rcases hlast : (parsedBars data cfg symbol).getLast? with - | finalBar
  · rw [List.getLast?_eq_none_iff.1 hlast]
    exact ⟨.nil, .nil⟩
  · exact ⟨h.shares.finish closeShare_closes, h.options.finish closeOption_closes⟩

end Simulation

/-! ## One position for each symbol -/

section Quiet

variable [TextNumber] {platform : Platform} {data : ResearchData} {cfg : Settings}
  {symbol : String} {bar bar' : BarRow} {holding : Holding}

/-- The choice has the direction of the features. -/
theorem selectorAt_direction :
    (selectorAt platform data symbol bar).direction = (trendAt data symbol bar).direction :=
  selectExpressionWithPolicy_direction

/-- Only a bar with a direction opens a position, and it has features. -/
theorem exists_feature_of_entry (h : entry platform data cfg symbol bar = some holding) :
    ∃ row, data.getFeatureForDate symbol bar.timestamp = some row := by
  obtain ⟨henter, -⟩ := entry_eq_some h
  rcases hrow : data.getFeatureForDate symbol bar.timestamp with - | row
  · -- Without features the direction is neutral.
    have htrend : trendAt data symbol bar = .neutral := by
      rw [trendAt, featureData, hrow]
      rfl
    rw [shouldEnter, htrend] at henter
    simp at henter
  · exact ⟨row, rfl⟩

/-- **One bar of a symbol opens a position at most**, and the others have no direction. -/
theorem trendAt_of_entry (h : entry platform data cfg symbol bar = some holding)
    (hne : bar'.timestamp ≠ bar.timestamp) : trendAt data symbol bar' = .neutral := by
  obtain ⟨row, hrow⟩ := exists_feature_of_entry h
  rcases hrow' : data.getFeatureForDate symbol bar'.timestamp with - | row'
  · rw [trendAt, featureData, hrow']
    rfl
  · exact absurd (getFeatureForDate_unique hrow' hrow) hne

theorem entry_of_neutral (h : trendAt data symbol bar = .neutral) :
    entry platform data cfg symbol bar = none := by
  rcases hentry : entry platform data cfg symbol bar with - | holding
  · rfl
  · obtain ⟨henter, -⟩ := entry_eq_some hentry
    rw [shouldEnter, h] at henter
    simp at henter

theorem signalExit_of_neutral (h : trendAt data symbol bar = .neutral) (side : Side) :
    signalExit cfg side (selectorAt platform data symbol bar).direction = false := by
  rw [selectorAt_direction, h, Trend.direction, signalExit]
  simp

end Quiet

/-! ## The trade of a symbol -/

/-- A trade of either kind. -/
inductive Trade where
  | share (trade : ShareTrade)
  | option (trade : OptionTrade)

namespace Trade

def symbol : Trade → String
  | share trade => trade.symbol
  | option trade => trade.underlyingSymbol

def entryDate : Trade → String
  | share trade => trade.entryDate
  | option trade => trade.entryDate

def exitDate : Trade → String
  | share trade => trade.exitDate
  | option trade => trade.exitDate

/-- What a unit costs: a share, or a contract of a hundred. -/
def unitCost : Trade → ℚ
  | share trade => trade.entryPrice
  | option trade => trade.entryPremium * 100

/-- The number of units. -/
def size : Trade → ExtendedNumber
  | share trade => trade.quantity
  | option trade => trade.contracts

end Trade

/-- All trades of a loop. -/
def Loop.tradesOf (loop : Loop) : List Trade :=
  loop.shares.trades.map .share ++ loop.options.trades.map .option

/-- The loop with a position that is open and no trade yet. -/
def Loop.holding (holding : Holding) : Loop := ({} : Loop).enter (some holding)

/-- The loop after its only trade. -/
def Loop.after : Trade → Loop
  | .share trade => { shares := { trades := [trade] } }
  | .option trade => { options := { trades := [trade] } }

namespace Holding

def symbol : Holding → String
  | share position => position.symbol
  | option position => position.symbol

def entryDate : Holding → String
  | share position => position.entryDate
  | option position => position.entryDate

def unitCost : Holding → ℚ
  | share position => position.entryPrice
  | option position => position.entryPremium * 100

def size : Holding → ExtendedNumber
  | share position => position.quantity
  | option position => position.contracts

def age : Holding → Holding
  | share position => share position.age
  | option position => option position.age

/-- The exit of a position that ends an iteration. -/
def exit (data : ResearchData) (cfg : Settings) (bar : BarRow) : Holding → Option ExitReason
  | share position => shareExit cfg bar position
  | option position => optionExit data cfg bar position

/-- The trade that closes a position at a bar. -/
def close (data : ResearchData) (bar : BarRow) (reason : ExitReason) : Holding → Trade
  | share position => .share (closeShare bar position reason)
  | option position => .option (closeOption data bar position reason)

/-- No exit fires on any of the bars that follow, one day each. -/
def survives (data : ResearchData) (cfg : Settings) : Holding → List BarRow → Bool
  | _, [] => true
  | holding, bar :: rest =>
    (holding.age.exit data cfg bar).isNone && survives data cfg holding.age rest

/-- When the position is closed: at the first bar on which an exit fires, or at the last. -/
def exitDate (data : ResearchData) (cfg : Settings) : Holding → String → List BarRow → String
  | _, last, [] => last
  | holding, _, bar :: rest =>
    if (holding.age.exit data cfg bar).isSome then bar.timestamp
    else exitDate data cfg holding.age bar.timestamp rest

end Holding

/-- The trade is of the position: its symbol, entry, cost and size. -/
structure Trade.Of (holding : Holding) (trade : Trade) : Prop where
  symbol : trade.symbol = holding.symbol
  entryDate : trade.entryDate = holding.entryDate
  unitCost : trade.unitCost = holding.unitCost
  size : trade.size = holding.size

section Dates

variable {data : ResearchData} {cfg : Settings} {bar : BarRow} {bars : List BarRow}
  {holding : Holding} {last t : String}

theorem Holding.close_of (reason : ExitReason) :
    Trade.Of holding (holding.close data bar reason) := by
  rcases holding with position | position
  · exact ⟨rfl, rfl, rfl, rfl⟩
  · exact ⟨rfl, rfl, rfl, rfl⟩

theorem Holding.close_exitDate (reason : ExitReason) :
    (holding.close data bar reason).exitDate = bar.timestamp := by
  rcases holding with position | position
  · rfl
  · rfl

theorem Trade.Of.of_age {trade : Trade} (h : Trade.Of holding.age trade) :
    Trade.Of holding trade := by
  rcases holding with position | position
  · exact ⟨h.symbol, h.entryDate, h.unitCost, h.size⟩
  · exact ⟨h.symbol, h.entryDate, h.unitCost, h.size⟩

/-- A position is open up to a time when some bar is as late and no exit fires before it. -/
theorem Holding.le_exitDate_iff (hsorted : bars.Pairwise (·.timestamp < ·.timestamp))
    (hlast : ∀ b ∈ bars, last < b.timestamp) :
    t ≤ holding.exitDate data cfg last bars ↔
      (t ≤ last ∨ ∃ b ∈ bars, t ≤ b.timestamp) ∧
        holding.survives data cfg (bars.filter fun b ↦ b.timestamp < t) = true := by
  induction bars generalizing holding last with
  | nil => simp [Holding.exitDate, Holding.survives]
  | cons bar rest ih =>
    rw [List.pairwise_cons] at hsorted
    obtain ⟨hrest, hsorted⟩ := hsorted
    have hbar : last < bar.timestamp := hlast bar List.mem_cons_self
    have ih := @ih holding.age bar.timestamp hsorted hrest
    rw [Holding.exitDate]
    rcases le_or_gt t bar.timestamp with hle | hlt
    · -- No bar lies before `t`.
      have hnone : (rest.filter fun b ↦ b.timestamp < t) = [] :=
        List.filter_eq_nil_iff.2 fun b hb h ↦
          absurd (of_decide_eq_true h) (hle.trans (hrest b hb).le).not_gt
      rw [hnone] at ih
      have hlater : t ≤ holding.age.exitDate data cfg bar.timestamp rest := ih.2 ⟨.inl hle, rfl⟩
      rw [List.filter_cons, if_neg fun h ↦ absurd (of_decide_eq_true h) hle.not_gt, hnone]
      refine iff_of_true ?_ ⟨.inr ⟨bar, List.mem_cons_self, hle⟩, rfl⟩
      split_ifs
      · exact hle
      · exact hlater
    · rw [List.filter_cons, if_pos (decide_eq_true hlt), Holding.survives]
      have hpast : ¬t ≤ last := fun h ↦ absurd (hlt.trans_le h) hbar.not_gt
      split_ifs with hexit
      · simp [hlt.not_ge, Option.isSome_iff_ne_none.1 hexit]
      · rw [ih]
        simp [hpast, hlt.not_ge, Option.not_isSome_iff_eq_none.1 hexit]

end Dates

end Backtest

end AlpacaTrading
