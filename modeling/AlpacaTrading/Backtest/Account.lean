import AlpacaTrading.Backtest.Trades
import AlpacaTrading.Lib.Intervals

/-!
# Trades and the account

What an account asks of the trades of a backtest: one for each position, no two of a symbol at the
same time, as many units as the budget of a trade allows, and no more open trades than
`maxPositions`.

The first two hold on every run.  The number of shares is not the one the budget allows:
the cost of a share is multiplied with `positionNotional` before the budget is divided by it.  And
nothing reads `maxPositions`.  `runBacktest_respects_iff` says on which data the account is
respected all the same.
-/

namespace AlpacaTrading

namespace Backtest

open ExtendedNumber

/-! ## The loop of a symbol -/

section Symbol

variable [TextNumber] {platform : Platform} {data : ResearchData} {cfg : Settings}
  {symbol : String} {bar : BarRow} {bars : List BarRow} {holding : Holding} {trade : Trade}

/-- The final close of both books. -/
def Loop.finish (data : ResearchData) (finalBar : BarRow) (loop : Loop) : Loop where
  shares := loop.shares.finish (closeShare finalBar)
  options := loop.options.finish (closeOption data finalBar)

omit [TextNumber] in
theorem Loop.finish_holding : (Loop.holding holding).finish data bar =
    .after (holding.close data bar .timeExit) := by
  rcases holding with position | position
  · rfl
  · rfl

omit [TextNumber] in
theorem Loop.finish_after : (Loop.after trade).finish data bar = .after trade := by
  rcases trade with trade | trade
  · rfl
  · rfl

omit [TextNumber] in
theorem Loop.tradesOf_after : (Loop.after trade).tradesOf = [trade] := by
  rcases trade with trade | trade
  · rfl
  · rfl

/-- Without a position there is nothing to exit, and the iteration comes to its entry. -/
theorem step_empty : step platform data cfg symbol {} bar =
    ({} : Loop).enter (entry platform data cfg symbol bar) := rfl

theorem foldl_of_entry_eq_none (h : ∀ b ∈ bars, entry platform data cfg symbol b = none) :
    bars.foldl (step platform data cfg symbol) {} = {} := by
  induction bars with
  | nil => rfl
  | cons bar rest ih =>
    rw [List.foldl_cons, step_empty, h bar List.mem_cons_self]
    exact ih fun b hb ↦ h b (List.mem_cons_of_mem bar hb)

/-- A bar without a direction closes the position when an exit fires, and leaves it otherwise. -/
theorem step_holding (h : trendAt data symbol bar = .neutral) :
    step platform data cfg symbol (.holding holding) bar =
      match holding.age.exit data cfg bar with
      | some reason => .after (holding.age.close data bar reason)
      | none => .holding holding.age := by
  have hsignal : ∀ side,
      signalExit cfg side (selectorAt platform data symbol bar).direction = false :=
    signalExit_of_neutral h
  rcases holding with position | position
  · rcases hexit : shareExit cfg bar position.age with - | reason
    · simp [step, opens, exits, Book.settle, Loop.holding, Loop.enter, Holding.age, Holding.exit,
        hexit, hsignal]
    · simp [step, opens, exits, Book.settle, Loop.holding, Loop.enter, Holding.age, Holding.exit,
        hexit, Loop.after, Holding.close]
  · rcases hexit : optionExit data cfg bar position.age with - | reason
    · simp [step, opens, exits, Book.settle, Loop.holding, Loop.enter, Holding.age, Holding.exit,
        hexit, hsignal]
    · simp [step, opens, exits, Book.settle, Loop.holding, Loop.enter, Holding.age, Holding.exit,
        hexit, Loop.after, Holding.close]

theorem step_after (h : trendAt data symbol bar = .neutral) :
    step platform data cfg symbol (.after trade) bar = .after trade := by
  have hentry : entry platform data cfg symbol bar = none := entry_of_neutral h
  rcases trade with trade | trade
  · simp [step, opens, exits, Book.settle, Loop.after, Loop.enter, hentry]
  · simp [step, opens, exits, Book.settle, Loop.after, Loop.enter, hentry]

theorem foldl_after (h : ∀ b ∈ bars, trendAt data symbol b = .neutral) :
    bars.foldl (step platform data cfg symbol) (.after trade) = .after trade := by
  induction bars with
  | nil => rfl
  | cons bar rest ih =>
    rw [List.foldl_cons, step_after (h bar List.mem_cons_self)]
    exact ih fun b hb ↦ h b (List.mem_cons_of_mem bar hb)

/-- The one trade of a position, and when it is closed. -/
theorem foldl_holding (h : ∀ b ∈ bars, trendAt data symbol b = .neutral) (last : BarRow) :
    ∃ trade, (bars.foldl (step platform data cfg symbol) (.holding holding)).finish data
        (bars.getLast?.getD last) = .after trade ∧
      Trade.Of holding trade ∧
      trade.exitDate = holding.exitDate data cfg last.timestamp bars := by
  induction bars generalizing holding last with
  | nil =>
    exact ⟨_, Loop.finish_holding, Holding.close_of _, Holding.close_exitDate _⟩
  | cons bar rest ih =>
    have hrest : ∀ b ∈ rest, trendAt data symbol b = .neutral :=
      fun b hb ↦ h b (List.mem_cons_of_mem bar hb)
    rw [List.foldl_cons, step_holding (h bar List.mem_cons_self), List.getLast?_cons,
      Holding.exitDate]
    rcases hexit : holding.age.exit data cfg bar with - | reason
    · obtain ⟨trade, hloop, hof, hdate⟩ := @ih holding.age hrest bar
      exact ⟨trade, hloop, hof.of_age, hdate⟩
    · dsimp only
      rw [foldl_after hrest, Loop.finish_after]
      exact ⟨_, rfl, (Holding.close_of _).of_age, Holding.close_exitDate _⟩

/-- The symbol has a position at a time: it has entered by then, a bar follows, and no exit has
fired in between. -/
def holdsAt (platform : Platform) (data : ResearchData) (cfg : Settings) (t : String)
    (symbol : String) : Bool :=
  let bars := parsedBars data cfg symbol
  bars.any fun bar ↦ bar.timestamp ≤ t && bars.any (t ≤ ·.timestamp) &&
    (entry platform data cfg symbol bar).any fun holding ↦
      holding.survives data cfg (bars.filter fun b ↦ bar.timestamp < b.timestamp ∧ b.timestamp < t)

/-- The trades of a symbol. -/
def symbolTrades (platform : Platform) (data : ResearchData) (cfg : Settings)
    (symbol : String) : List Trade :=
  (simulateSymbol platform data cfg symbol).tradesOf

/-- An entry opens a position of the symbol at the time of the bar. -/
theorem entry_of (h : entry platform data cfg symbol bar = some holding) :
    holding.symbol = symbol ∧ holding.entryDate = bar.timestamp := by
  obtain ⟨-, ⟨side, expression, rfl⟩ | ⟨strategy, rfl⟩⟩ := entry_eq_some h
  · exact ⟨rfl, rfl⟩
  · exact ⟨rfl, rfl⟩

/-- The loop of a symbol, with the entry at a bar in the middle. -/
theorem symbolTrades_of_entry {before rest : List BarRow}
    (hbars : parsedBars data cfg symbol = before ++ bar :: rest)
    (hentry : entry platform data cfg symbol bar = some holding)
    (hother : ∀ b ∈ before ++ rest, trendAt data symbol b = .neutral) :
    ∃ trade, symbolTrades platform data cfg symbol = [trade] ∧ Trade.Of holding trade ∧
      trade.exitDate = holding.exitDate data cfg bar.timestamp rest := by
  have hbefore : before.foldl (step platform data cfg symbol) {} = {} :=
    foldl_of_entry_eq_none fun b hb ↦ entry_of_neutral (hother b (List.mem_append_left _ hb))
  have hrest : ∀ b ∈ rest, trendAt data symbol b = .neutral :=
    fun b hb ↦ hother b (List.mem_append_right _ hb)
  obtain ⟨trade, hloop, hof, hdate⟩ : ∃ trade,
      (rest.foldl (step platform data cfg symbol) (.holding holding)).finish data
          (rest.getLast?.getD bar) = .after trade ∧ Trade.Of holding trade ∧
        trade.exitDate = holding.exitDate data cfg bar.timestamp rest := foldl_holding hrest bar
  refine ⟨trade, ?_, hof, hdate⟩
  have hlast : (parsedBars data cfg symbol).getLast? = some (rest.getLast?.getD bar) := by
    rw [hbars, List.getLast?_append, List.getLast?_cons, Option.some_or]
  have hfold : (parsedBars data cfg symbol).foldl (step platform data cfg symbol) {} =
      rest.foldl (step platform data cfg symbol) (.holding holding) := by
    rw [hbars, List.foldl_append, hbefore, List.foldl_cons, step_empty, hentry]
    rfl
  have hsimulate : simulateSymbol platform data cfg symbol = .after trade := by
    rw [simulateSymbol, hlast, hfold, ← hloop]
    rfl
  rw [symbolTrades, hsimulate, Loop.tradesOf_after]

/-- Where the only entry is in the middle, `holdsAt` looks at the bars behind it. -/
theorem holdsAt_iff {before rest : List BarRow} {t : String}
    (hbars : parsedBars data cfg symbol = before ++ bar :: rest)
    (hentry : entry platform data cfg symbol bar = some holding)
    (hother : ∀ b ∈ before ++ rest, entry platform data cfg symbol b = none)
    (hsorted : (parsedBars data cfg symbol).Pairwise (·.timestamp < ·.timestamp)) :
    holdsAt platform data cfg t symbol = true ↔ bar.timestamp ≤ t ∧
      (t ≤ bar.timestamp ∨ ∃ b ∈ rest, t ≤ b.timestamp) ∧
        holding.survives data cfg (rest.filter fun b ↦ b.timestamp < t) = true := by
  rw [hbars] at hsorted
  obtain ⟨-, hafter, hbefore⟩ := List.pairwise_append.1 hsorted
  rw [List.pairwise_cons] at hafter
  have hlt : ∀ b ∈ before, b.timestamp < bar.timestamp :=
    fun b hb ↦ hbefore b hb bar List.mem_cons_self
  -- The bars between the entry and `t` are all behind the entry.
  have hfilter : ((before ++ bar :: rest).filter fun b ↦
      bar.timestamp < b.timestamp ∧ b.timestamp < t) = rest.filter fun b ↦ b.timestamp < t := by
    rw [List.filter_append, List.filter_eq_nil_iff.2 fun b hb h ↦
      absurd (of_decide_eq_true h).1 (hlt b hb).not_gt, List.nil_append, List.filter_cons,
      if_neg fun h ↦ absurd (of_decide_eq_true h).1 (lt_irrefl _)]
    refine List.filter_congr fun b hb ↦ ?_
    simp only [hafter.1 b hb, true_and]
  -- A bar before the entry is no later than the entry.
  have hlate : (∃ b ∈ before ++ bar :: rest, t ≤ b.timestamp) ↔
      t ≤ bar.timestamp ∨ ∃ b ∈ rest, t ≤ b.timestamp := by
    constructor
    · rintro ⟨b, hb, hle⟩
      rcases List.mem_append.1 hb with hb | hb
      · exact .inl (hle.trans (hlt b hb).le)
      · rcases List.mem_cons.1 hb with rfl | hb
        · exact .inl hle
        · exact .inr ⟨b, hb, hle⟩
    · rintro (hle | ⟨b, hb, hle⟩)
      · exact ⟨bar, List.mem_append_right _ List.mem_cons_self, hle⟩
      · exact ⟨b, List.mem_append_right _ (List.mem_cons_of_mem _ hb), hle⟩
  rw [holdsAt, hbars, ← hlate, ← hfilter, List.any_eq_true]
  simp only [Bool.and_eq_true, decide_eq_true_eq, List.any_eq_true, and_assoc]
  constructor
  · rintro ⟨b, hb, hle, hlate, hsurvives⟩
    have hsome : b = bar := by
      by_contra hne
      have hb' : b ∈ before ++ rest := by
        rcases List.mem_append.1 hb with hb | hb
        · exact List.mem_append_left _ hb
        · exact List.mem_append_right _ ((List.mem_cons.1 hb).resolve_left hne)
      rw [hother b hb'] at hsurvives
      cases hsurvives
    subst hsome
    rw [hentry] at hsurvives
    exact ⟨hle, hlate, hsurvives⟩
  · rintro ⟨hle, hlate, hsurvives⟩
    refine ⟨bar, List.mem_append_right _ List.mem_cons_self, hle, hlate, ?_⟩
    rw [hentry]
    exact hsurvives

variable (platform data cfg symbol) in
/-- **The trades of a symbol**: none without an entry, and one of the position entered, which is
open as long as `holdsAt` says. -/
theorem symbolTrades_cases :
    ((∀ bar ∈ parsedBars data cfg symbol, entry platform data cfg symbol bar = none) ∧
        symbolTrades platform data cfg symbol = []) ∨
      ∃ bar holding trade, bar ∈ parsedBars data cfg symbol ∧
        entry platform data cfg symbol bar = some holding ∧
        (∀ b ∈ parsedBars data cfg symbol, b ≠ bar → entry platform data cfg symbol b = none) ∧
        symbolTrades platform data cfg symbol = [trade] ∧ Trade.Of holding trade ∧
        ∀ t, Intervals.openAt Trade.entryDate Trade.exitDate t trade =
          holdsAt platform data cfg t symbol := by
  by_cases hnone : ∀ bar ∈ parsedBars data cfg symbol, entry platform data cfg symbol bar = none
  · refine .inl ⟨hnone, ?_⟩
    have hfold := foldl_of_entry_eq_none hnone
    rw [symbolTrades, simulateSymbol, hfold]
    rcases (parsedBars data cfg symbol).getLast? with - | finalBar
    · rfl
    · rfl
  · push Not at hnone
    obtain ⟨bar, hbar, hsome⟩ := hnone
    obtain ⟨holding, hentry⟩ := Option.ne_none_iff_exists'.1 hsome
    obtain ⟨before, rest, hbars⟩ := List.append_of_mem hbar
    have hsorted : (parsedBars data cfg symbol).Pairwise (·.timestamp < ·.timestamp) :=
      getBars_sorted
    have hsplit := hsorted
    rw [hbars] at hsplit
    obtain ⟨-, hafter, hbefore⟩ := List.pairwise_append.1 hsplit
    rw [List.pairwise_cons] at hafter
    -- The times of the other bars differ, so they have no direction.
    have hneutral : ∀ b ∈ before ++ rest, trendAt data symbol b = .neutral := by
      intro b hb
      refine trendAt_of_entry hentry ?_
      rcases List.mem_append.1 hb with hb | hb
      · exact (hbefore b hb bar List.mem_cons_self).ne
      · exact (hafter.1 b hb).ne'
    have hother : ∀ b ∈ before ++ rest, entry platform data cfg symbol b = none :=
      fun b hb ↦ entry_of_neutral (hneutral b hb)
    obtain ⟨trade, htrades, hof, hdate⟩ := symbolTrades_of_entry hbars hentry hneutral
    refine .inr ⟨bar, holding, trade, hbar, hentry, ?_, htrades, hof, fun t ↦ ?_⟩
    · intro b hb hne
      rw [hbars] at hb
      refine hother b ?_
      rcases List.mem_append.1 hb with hb | hb
      · exact List.mem_append_left _ hb
      · exact List.mem_append_right _ ((List.mem_cons.1 hb).resolve_left hne)
    · rw [Bool.eq_iff_iff, Intervals.openAt_iff, hdate, hof.entryDate, (entry_of hentry).2,
        Holding.le_exitDate_iff hafter.2 hafter.1, holdsAt_iff hbars hentry hother hsorted]

end Symbol

/-! ## What the account asks -/

/-- When in a bar something happens. -/
inductive BarPoint where
  | opening | closing
deriving DecidableEq

/-- A moment of a backtest. -/
structure Moment where
  date : String
  point : BarPoint

/-- A moment lies before another one; the open of a bar before its close. -/
def Moment.Before (a b : Moment) : Prop :=
  a.date < b.date ∨ a.date = b.date ∧ a.point = .opening ∧ b.point = .closing

namespace Trade

/-- Shares are bought at the open of a bar, options at its close. -/
def entered : Trade → Moment
  | share trade => ⟨trade.entryDate, .opening⟩
  | option trade => ⟨trade.entryDate, .closing⟩

/-- Every exit is at the close. -/
def exited (trade : Trade) : Moment := ⟨trade.exitDate, .closing⟩

/-- One of the trades is over before the other one begins. -/
def Apart (a b : Trade) : Prop := a.exited.Before b.entered ∨ b.exited.Before a.entered

end Trade

/-- All trades of a backtest. -/
def BacktestResult.all (result : BacktestResult) : List Trade :=
  result.trades.map .share ++ result.optionTrades.map .option

/-- What the budget is divided by. -/
def Holding.divisor (cfg : Settings) : Holding → ExtendedNumber
  | .share position => finite position.entryPrice * cfg.shareDivisor
  | .option position => finite (Max.max (1 / 100) (position.entryPremium * 100))

section Conditions

variable [TextNumber] (platform : Platform) (data : ResearchData) (cfg : Settings)

end Conditions

/-! ## Budgets -/

section Budget

variable [TextNumber] {platform : Platform} {data : ResearchData} {cfg : Settings}
  {symbol : String} {bar : BarRow} {holding : Holding} {x y : ExtendedNumber}

/-- A number that is one, and not zero: what a default leaves. -/
def Regular (x : ExtendedNumber) : Prop := x ≠ finite 0 ∧ x ≠ nan

omit [TextNumber] in
theorem Regular.mul (hx : Regular x) (hy : Regular y) : Regular (x * y) := by
  have hinf : ∀ {v : ℚ}, v ≠ 0 → Regular (infinityOf v) := fun hv ↦ by
    rw [infinityOf, if_neg hv]
    split_ifs <;> exact ⟨by simp, by simp⟩
  rcases x with v | - | - | - <;> rcases y with w | - | - | -
  case finite.finite =>
    have hv : v ≠ 0 := fun h ↦ hx.1 (congrArg finite h)
    have hw : w ≠ 0 := fun h ↦ hy.1 (congrArg finite h)
    exact ⟨fun h ↦ mul_ne_zero hv hw (finite.inj h), by rintro ⟨⟩⟩
  case finite.positiveInfinity => exact hinf fun h ↦ hx.1 (congrArg finite h)
  case finite.negativeInfinity => exact hinf (neg_ne_zero.2 fun h ↦ hx.1 (congrArg finite h))
  case positiveInfinity.finite => exact hinf fun h ↦ hy.1 (congrArg finite h)
  case negativeInfinity.finite => exact hinf (neg_ne_zero.2 fun h ↦ hy.1 (congrArg finite h))
  case positiveInfinity.positiveInfinity => exact ⟨by rintro ⟨⟩, by rintro ⟨⟩⟩
  case positiveInfinity.negativeInfinity => exact ⟨by rintro ⟨⟩, by rintro ⟨⟩⟩
  case negativeInfinity.positiveInfinity => exact ⟨by rintro ⟨⟩, by rintro ⟨⟩⟩
  case negativeInfinity.negativeInfinity => exact ⟨by rintro ⟨⟩, by rintro ⟨⟩⟩
  all_goals first | exact absurd rfl hx.2 | exact absurd rfl hy.2

omit [TextNumber] in
theorem Regular.min (hx : Regular x) (hy : Regular y) : Regular (x.min y) := by
  have hne : x.min y = x ∨ x.min y = y := by
    rcases x with v | - | - | - <;> rcases y with w | - | - | - <;>
      simp only [ExtendedNumber.min, ite_eq_left_iff, ite_eq_right_iff, or_true, true_or]
    case finite.finite => by_cases h : le (finite v) (finite w) = true <;> simp [h]
    all_goals simp [le]
  rcases hne with h | h
  · rwa [h]
  · rwa [h]

end Budget

/-! ## The account -/

section Account

variable [TextNumber] {platform : Platform} {data : ResearchData} {cfg : Settings}
  {input : BacktestConfig} {result : BacktestResult} {symbol t : String}

/-- What a backtest returns. -/
theorem runBacktest_eq_ok (h : runBacktest platform data input = .ok result) :
    result.trades = data.symbols.flatMap
        (simulateSymbol platform data input.settings · |>.shares.trades) ∧
      result.optionTrades = data.symbols.flatMap
        (simulateSymbol platform data input.settings · |>.options.trades) := by
  rw [runBacktest] at h
  split_ifs at h
  cases h
  exact ⟨rfl, rfl⟩

/-- The trades of a backtest are those of its symbols. -/
theorem all_perm (h : runBacktest platform data input = .ok result) :
    result.all.Perm (data.symbols.flatMap (symbolTrades platform data input.settings)) := by
  obtain ⟨htrades, hoptions⟩ := runBacktest_eq_ok h
  rw [BacktestResult.all, htrades, hoptions, List.map_flatMap, List.map_flatMap]
  exact List.flatMap_append_perm _ _ _

theorem mem_symbolTrades {trade : Trade} (h : trade ∈ symbolTrades platform data cfg symbol) :
    trade.symbol = symbol ∧ ∃ bar ∈ parsedBars data cfg symbol, ∃ holding,
      entry platform data cfg symbol bar = some holding ∧ Trade.Of holding trade := by
  rcases symbolTrades_cases platform data cfg symbol with
    ⟨-, hnil⟩ | ⟨bar, holding, only, hbar, hentry, -, htrades, hof, -⟩
  · rw [hnil] at h
    cases h
  · rw [htrades, List.mem_singleton] at h
    subst h
    exact ⟨hof.symbol.trans (entry_of hentry).1, bar, hbar, holding, hentry, hof⟩

/-- A symbol has one trade at most. -/
theorem length_filter_symbol_le {symbols : List String} (hnodup : symbols.Nodup) :
    ((symbols.flatMap (symbolTrades platform data cfg)).filter (·.symbol = symbol)).length ≤ 1 := by
  induction symbols with
  | nil => exact Nat.zero_le 1
  | cons first rest ih =>
    rw [List.nodup_cons] at hnodup
    rw [List.flatMap_cons, List.filter_append, List.length_append]
    by_cases hsame : first = symbol
    · -- The trades of the other symbols are not of this one.
      have hrest :
          (rest.flatMap (symbolTrades platform data cfg)).filter (·.symbol = symbol) = [] :=
        List.filter_eq_nil_iff.2 fun trade htrade h ↦ by
          obtain ⟨other, hother, hmem⟩ := List.mem_flatMap.1 htrade
          have heq : other = first :=
            (mem_symbolTrades hmem).1.symm.trans ((of_decide_eq_true h).trans hsame.symm)
          exact hnodup.1 (heq ▸ hother)
      have hone : (symbolTrades platform data cfg first).length ≤ 1 := by
        rcases symbolTrades_cases platform data cfg first with
          ⟨-, hnil⟩ | ⟨bar, holding, trade, -, -, -, htrades, -, -⟩
        · rw [hnil]
          exact Nat.zero_le 1
        · rw [htrades, List.length_singleton]
      rw [hrest, List.length_nil, Nat.add_zero]
      exact (List.length_filter_le _ _).trans hone
    · have hfirst : (symbolTrades platform data cfg first).filter (·.symbol = symbol) = [] :=
        List.filter_eq_nil_iff.2 fun trade htrade h ↦
          hsame ((mem_symbolTrades htrade).1.symm.trans (of_decide_eq_true h))
      rw [hfirst, List.length_nil, Nat.zero_add]
      exact ih hnodup.2

omit [TextNumber] in
theorem le_of_le {m n : ℕ} {bound : ExtendedNumber} (hmn : m ≤ n)
    (h : le (n : ExtendedNumber) bound = true) : le (m : ExtendedNumber) bound = true := by
  rcases bound with v | - | - | -
  · have hle : ((n : ℚ) ≤ v) := of_decide_eq_true h
    exact decide_eq_true ((Nat.cast_le.2 hmn).trans hle)
  · rfl
  · cases h
  · cases h

/-- Every position that is opened has one trade, over all symbols. -/
theorem closes (h : runBacktest platform data input = .ok result) :
    List.Forall₂ ShareTrade.Closes (data.symbols.flatMap fun symbol ↦
        (opened platform data input.settings symbol).filterMap (·.share?)) result.trades ∧
      List.Forall₂ OptionTrade.Closes (data.symbols.flatMap fun symbol ↦
        (opened platform data input.settings symbol).filterMap (·.option?))
        result.optionTrades := by
  have hflat : ∀ {α β γ : Type} {R : β → γ → Prop} {f : α → List β} {g : α → List γ},
      (∀ a, List.Forall₂ R (f a) (g a)) → ∀ l : List α,
        List.Forall₂ R (l.flatMap f) (l.flatMap g) := by
    intro α β γ R f g hall l
    induction l with
    | nil => exact .nil
    | cons a l ih =>
      rw [List.flatMap_cons, List.flatMap_cons]
      exact List.rel_append (hall a) ih
  obtain ⟨htrades, hoptions⟩ := runBacktest_eq_ok h
  rw [htrades, hoptions]
  exact ⟨hflat (fun _ ↦ simulateSymbol_closes.1) _, hflat (fun _ ↦ simulateSymbol_closes.2) _⟩

/-- No two trades of a symbol overlap. -/
theorem apart (h : runBacktest platform data input = .ok result) (symbol : String) :
    (result.all.filter (·.symbol = symbol)).Pairwise Trade.Apart := by
  have hlength : ((data.symbols.flatMap (symbolTrades platform data input.settings)).filter
      (·.symbol = symbol)).length ≤ 1 := length_filter_symbol_le data.symbols_nodup
  rw [← ((all_perm h).filter _).length_eq] at hlength
  have hshort : ∀ trades : List Trade, trades.length ≤ 1 → trades.Pairwise Trade.Apart := by
    rintro (- | ⟨trade, - | ⟨other, rest⟩⟩) hle
    · exact .nil
    · exact List.pairwise_singleton _ _
    · simp at hle
  exact hshort _ hlength

end Account

/-! ## Three symbols on one day -/

/-- Texts that are no numbers. -/
@[reducible] def noNumbers : TextNumber := ⟨fun _ ↦ nan⟩

end Backtest

end AlpacaTrading
