import AlpacaTrading.Review.Entry

/-!
# What counts as a conflict

Two sources tell the shared context of an entry review which instruments the account is in: the
stored positions and orders themselves, and a count for each candidate.  The service merges them,
so that an instrument one of them knows of is in the context.

The count of the positions compares the symbol column with the symbol of the candidate.  For an
option that is the underlying, so a stock holding counts as a holding of every option on it.
`conflicts_exact_iff` says when the merged evidence is exact all the same.  The count of the
orders compares the order symbol and never goes wrong.
-/

namespace AlpacaTrading

/-! ## Instruments -/

/-- The instrument of a position: the option, or else the symbol. -/
def Position.instrument (p : Position) : String :=
  Arbitration.normalized (p.optionSymbol.getD p.symbol)

/-- The instrument of an order. -/
def Order.instrument (o : Order) : String := Arbitration.normalized o.symbol

/-- The instrument a candidate would trade. -/
def Candidate.instrument (c : Candidate) : String := Arbitration.normalized c.orderSymbol

/-- An open or closing position of the account. -/
def Position.heldIn (p : Position) (accountId : String) : Bool :=
  decide (p.accountId = accountId) && p.held

/-- An order of the account whose status is not terminal. -/
def Order.openIn (o : Order) (accountId : String) : Bool :=
  decide (o.accountId = accountId) && !o.terminal

/-- The comparison of `open_position_count`. -/
def Position.countedFor (p : Position) (c : Candidate) : Bool :=
  decide (p.symbol = c.symbol) ||
    (c.optionSymbol.isSome && decide (p.optionSymbol = c.optionSymbol))

/-- The comparison of `open_order_count`. -/
def Order.countedFor (o : Order) (c : Candidate) : Bool :=
  o.status ∈ countedOrderStatuses ∧ o.symbol = c.orderSymbol

/-- The texts of the position that the service insists on are not blank. -/
def Position.readable (p : Position) : Bool :=
  Text.trim p.id ≠ "" ∧ p.instrument ≠ "" ∧
    Arbitration.normalized (p.underlyingSymbol.getD p.symbol) ≠ ""

/-- The texts of the order and of its intent that the service insists on are not blank. -/
def Order.readable (db : Db) (o : Order) : Bool :=
  Text.trim o.id ≠ "" ∧ o.instrument ≠ "" ∧
    Arbitration.normalized
      (((db.intents.get? o.orderIntentId).bind (·.underlyingSymbol)).getD o.symbol) ≠ "" ∧
    Text.trim o.status ≠ ""

/-! ## The statement -/

/-- The context names the instrument of the candidate exactly if the account is in it. -/
structure ConflictsExact (context : PortfolioResourceContext) (db : Db) (accountId : String)
    (c : Candidate) : Prop where
  position : (∃ e ∈ context.existingPositions, e.symbol = c.instrument) ↔
    ∃ p ∈ db.positions.rows, p.heldIn accountId ∧ p.instrument = c.instrument
  order : (∃ e ∈ context.openOrders, e.symbol = c.instrument) ↔
    ∃ o ∈ db.orders.rows, o.openIn accountId ∧ o.instrument = c.instrument

/-- The two sources together know the holdings in the instrument of the candidate, and no
others. -/
structure EvidenceExact (db : Db) (rows : List ReviewSourceRow) (accountId : String)
    (c : Candidate) : Prop where
  /-- What is counted for a candidate of the instrument is a holding in it, or there is another. -/
  counted : ∀ row ∈ rows, row.candidate.instrument = c.instrument →
    ∀ p ∈ db.positions.rows, p.heldIn accountId → p.countedFor row.candidate →
      ∃ p' ∈ db.positions.rows, p'.heldIn accountId ∧ p'.instrument = c.instrument
  /-- A holding in the instrument is readable or counted, if not this one then another. -/
  positions : ∀ p ∈ db.positions.rows, p.heldIn accountId → p.instrument = c.instrument →
    ∃ p' ∈ db.positions.rows, p'.heldIn accountId ∧
      (p'.instrument = c.instrument ∧ p'.readable ∨
        ∃ row ∈ rows, row.candidate.instrument = c.instrument ∧ p'.countedFor row.candidate)
  /-- An open order for the instrument is readable or counted, if not this one then another. -/
  orders : ∀ o ∈ db.orders.rows, o.openIn accountId → o.instrument = c.instrument →
    ∃ o' ∈ db.orders.rows, o'.openIn accountId ∧
      (o'.instrument = c.instrument ∧ o'.readable db ∨
        ∃ row ∈ rows, row.candidate.instrument = c.instrument ∧ o'.countedFor row.candidate)

/-! ## The two sources -/

/-- A merge that adds what is missing: the result has a key if the list had it or if a row asks
for it. -/
theorem exists_foldl_missing {α β κ : Type*} [DecidableEq κ] {f : List α → β → List α}
    (key : α → κ) (rowKey : β → κ) (asks : β → Prop) [DecidablePred asks] (make : β → α)
    (hmake : ∀ b, key (make b) = rowKey b)
    (hf : ∀ known b, f known b = if asks b ∧ ¬ known.any (fun e ↦ key e = rowKey b) then
      known ++ [make b] else known) (rows : List β) (known : List α) (k : κ) :
    (∃ e ∈ rows.foldl f known, key e = k) ↔
      (∃ e ∈ known, key e = k) ∨ ∃ b ∈ rows, asks b ∧ rowKey b = k := by
  induction rows generalizing known with
  | nil => simp
  | cons b rest ih =>
    rw [List.foldl_cons, ih]
    have hstep : (∃ e ∈ f known b, key e = k) ↔
        (∃ e ∈ known, key e = k) ∨ (asks b ∧ rowKey b = k) := by
      rw [hf]
      by_cases hasks : asks b
      · by_cases hany : known.any (fun e ↦ key e = rowKey b)
        · -- The key is there already.
          rw [if_neg (fun h ↦ h.2 hany)]
          constructor
          · intro h
            exact Or.inl h
          · rintro (h | ⟨_, rfl⟩)
            · exact h
            · obtain ⟨e, he, heq⟩ := List.any_eq_true.1 hany
              exact ⟨e, he, of_decide_eq_true heq⟩
        · rw [if_pos ⟨hasks, hany⟩]
          simp only [List.mem_append, List.mem_singleton, or_and_right, exists_or,
            exists_eq_left, hmake, hasks, true_and]
      · rw [if_neg (fun h ↦ hasks h.1)]
        simp [hasks]
    rw [hstep]
    simp only [List.mem_cons, or_and_right, exists_or, exists_eq_left, or_assoc]

section Sources

variable {db : Db} {request : EntryReviewRequest} {rows : List ReviewSourceRow} {row : ReviewSourceRow}

/-- The counts of a row of the source query. -/
theorem entrySource_counts (h : row ∈ entrySource db request) :
    (0 < row.openPositionCount ↔ ∃ p ∈ db.positions.rows, p.heldIn row.account.id ∧
        p.countedFor row.candidate) ∧
      (0 < row.openOrderCount ↔ ∃ o ∈ db.orders.rows, o.accountId = row.account.id ∧
        o.countedFor row.candidate) := by
  rw [entrySource] at h
  split at h
  · exact absurd h List.not_mem_nil
  · obtain ⟨candidate, _, rfl⟩ := List.mem_map.1 h
    dsimp only [Table.count]
    constructor
    · rw [List.countP_pos_iff]
      simp only [Position.heldIn, Position.countedFor, Bool.and_eq_true, and_assoc]
    · rw [List.countP_pos_iff]
      simp only [Order.countedFor, decide_eq_true_eq]

/-- All rows of the source query are of one account. -/
theorem entrySource_account {shared : ReviewSourceRow} (hrow : row ∈ entrySource db request)
    (hshared : shared ∈ entrySource db request) : row.account = shared.account := by
  rw [entrySource] at hrow hshared
  split at hrow
  · exact absurd hrow List.not_mem_nil
  · next heq =>
    rw [heq] at hshared
    obtain ⟨_, _, rfl⟩ := List.mem_map.1 hrow
    obtain ⟨_, _, rfl⟩ := List.mem_map.1 hshared
    rfl

theorem mem_countedPositions {positions : List PortfolioExposure} {s : String} :
    (∃ e ∈ countedPositions rows positions, e.symbol = s) ↔ (∃ e ∈ positions, e.symbol = s) ∨
      ∃ r ∈ rows, 0 < r.openPositionCount ∧ r.candidate.instrument = s := by
  rw [countedPositions]
  exact exists_foldl_missing PortfolioExposure.symbol (fun r ↦ r.candidate.instrument)
    (fun r ↦ 0 < r.openPositionCount)
    (fun r ↦
      { id := "postgres-position:" ++ r.candidate.id
        symbol := r.candidate.instrument
        underlyingSymbol := Arbitration.normalized r.candidate.symbol
        direction := r.candidate.direction
        resourceExposure := none })
    (fun _ ↦ rfl) (fun _ _ ↦ by dsimp only [Candidate.instrument]) rows positions s

theorem mem_countedOrders {orders : List PortfolioOrderExposure} {s : String} :
    (∃ e ∈ countedOrders rows orders, e.symbol = s) ↔ (∃ e ∈ orders, e.symbol = s) ∨
      ∃ r ∈ rows, 0 < r.openOrderCount ∧ r.candidate.instrument = s := by
  rw [countedOrders]
  exact exists_foldl_missing (fun e ↦ e.symbol) (fun r ↦ r.candidate.instrument)
    (fun r ↦ 0 < r.openOrderCount)
    (fun r ↦
      { id := "postgres-order:" ++ r.candidate.id
        symbol := r.candidate.instrument
        underlyingSymbol := Arbitration.normalized r.candidate.symbol
        direction := r.candidate.direction
        resourceExposure := none
        status := "active_postgres_count" })
    (fun _ ↦ rfl) (fun _ _ ↦ by dsimp only [Candidate.instrument]) rows orders s

theorem positionExposure_symbol {id symbol underlying t : String} {d : CandidateDirection}
    {r : Option ℚ} :
    (∃ e, positionExposure id symbol underlying d r = some e ∧ e.symbol = t) ↔
      (Text.trim id ≠ "" ∧ Arbitration.normalized symbol ≠ "" ∧
        Arbitration.normalized underlying ≠ "") ∧ Arbitration.normalized symbol = t := by
  rw [positionExposure]
  by_cases htexts : Text.trim id ≠ "" ∧ Arbitration.normalized symbol ≠ "" ∧
      Arbitration.normalized underlying ≠ ""
  · rw [if_pos htexts]
    simp only [Option.some_inj, exists_eq_left', and_iff_right htexts]
  · rw [if_neg htexts]
    simp only [reduceCtorEq, false_and, exists_false, htexts]

theorem mem_sharedPositions {accountId s : String} :
    (∃ e ∈ sharedPositions db accountId, e.symbol = s) ↔ ∃ p ∈ db.positions.rows,
      p.heldIn accountId ∧ p.instrument = s ∧ p.readable := by
  rw [sharedPositions]
  simp only [List.mem_filterMap, List.mem_filter]
  constructor
  · rintro ⟨e, ⟨p, ⟨hp, hheld⟩, he⟩, hsymbol⟩
    obtain ⟨htexts, hinstrument⟩ := positionExposure_symbol.1 ⟨e, he, hsymbol⟩
    exact ⟨p, hp, hheld, hinstrument, decide_eq_true htexts⟩
  · rintro ⟨p, hp, hheld, hinstrument, hreadable⟩
    obtain ⟨e, he, hsymbol⟩ :=
      positionExposure_symbol.2 ⟨of_decide_eq_true hreadable, hinstrument⟩
    exact ⟨e, ⟨p, ⟨hp, hheld⟩, he⟩, hsymbol⟩

theorem mem_sharedOpenOrders {accountId s : String} :
    (∃ e ∈ sharedOpenOrders db accountId, e.symbol = s) ↔ ∃ o ∈ db.orders.rows,
      o.openIn accountId ∧ o.instrument = s ∧ o.readable db := by
  rw [sharedOpenOrders]
  simp only [List.mem_filterMap, List.mem_filter, Option.bind_eq_bind, Option.bind_eq_some_iff]
  constructor
  · rintro ⟨e, ⟨o, ⟨ho, hopen⟩, base, hbase, he⟩, hsymbol⟩
    by_cases hstatus : Text.trim o.status ≠ ""
    · rw [if_pos hstatus, Option.some_inj] at he
      rw [← he] at hsymbol
      obtain ⟨⟨hid, hs, hu⟩, hinstrument⟩ := positionExposure_symbol.1 ⟨base, hbase, hsymbol⟩
      exact ⟨o, ho, hopen, hinstrument, decide_eq_true ⟨hid, hs, hu, hstatus⟩⟩
    · rw [if_neg hstatus] at he
      cases he
  · rintro ⟨o, ho, hopen, hinstrument, hreadable⟩
    rw [Order.readable, decide_eq_true_eq] at hreadable
    obtain ⟨hid, hs, hu, hstatus⟩ := hreadable
    obtain ⟨base, hbase, hsymbol⟩ := positionExposure_symbol.2 ⟨⟨hid, hs, hu⟩, hinstrument⟩
    exact ⟨{ base with status := Text.trim o.status },
      ⟨o, ⟨ho, hopen⟩, base, hbase, if_pos hstatus⟩, hsymbol⟩

/-- An order that is counted is open, and for the instrument it is counted for. -/
theorem Order.countedFor_open {o : Order} {c : Candidate} (h : o.countedFor c) :
    o.terminal = false ∧ o.instrument = c.instrument := by
  rw [Order.countedFor, decide_eq_true_eq] at h
  obtain ⟨hstatus, hsymbol⟩ := h
  refine ⟨?_, by rw [Order.instrument, hsymbol, Candidate.instrument]⟩
  have hcounted : ∀ status ∈ countedOrderStatuses,
      Text.toLowerCase (Text.btrim status) ∉ terminalBrokerOrderStatuses := by decide +kernel
  exact decide_eq_false (hcounted o.status hstatus)

end Sources

/-! ## The merged evidence -/

section Context

variable [Hashing] {db : Db} {request : EntryReviewRequest} {rows : List ReviewSourceRow}
  {shared : ReviewSourceRow} {context : PortfolioResourceContext}

/-- The positions and orders of a context, up to their order. -/
theorem portfolioResourceContext_ok
    (h : portfolioResourceContext db shared rows = .ok context) :
    (∀ e, e ∈ context.existingPositions ↔
        e ∈ countedPositions rows (sharedPositions db shared.account.id)) ∧
      ∀ e, e ∈ context.openOrders ↔
        e ∈ countedOrders rows (sharedOpenOrders db shared.account.id) := by
  simp only [portfolioResourceContext, bind_eq_ok] at h
  obtain ⟨_, _, h⟩ := h
  split at h
  · obtain rfl := Except.ok.inj h
    exact ⟨fun e ↦ List.mem_insertionSort _, fun e ↦ List.mem_insertionSort _⟩
  · cases h

/-- **The evidence of conflicts is exact** when the counts take in nothing else and nothing is
hidden from both sources, and only then. -/
theorem conflicts_exact_iff (c : Candidate)
    (hshared : (entrySource db request).head? = some shared)
    (hcontext : portfolioResourceContext db shared (entrySource db request) = .ok context) :
    ConflictsExact context db shared.account.id c ↔
      EvidenceExact db (entrySource db request) shared.account.id c := by
  have hmem : shared ∈ entrySource db request := List.mem_of_mem_head? hshared
  obtain ⟨hpositions, horders⟩ := portfolioResourceContext_ok hcontext
  have hcounts : ∀ r ∈ entrySource db request,
      (0 < r.openPositionCount ↔ ∃ p ∈ db.positions.rows, p.heldIn shared.account.id ∧
          p.countedFor r.candidate) ∧
        (0 < r.openOrderCount ↔ ∃ o ∈ db.orders.rows, o.accountId = shared.account.id ∧
          o.countedFor r.candidate) := by
    intro r hr
    rw [← entrySource_account hr hmem]
    exact entrySource_counts hr
  -- What the context names, source by source.
  have hheld : (∃ e ∈ context.existingPositions, e.symbol = c.instrument) ↔
      (∃ p ∈ db.positions.rows, p.heldIn shared.account.id ∧
        p.instrument = c.instrument ∧ p.readable) ∨
      ∃ r ∈ entrySource db request, 0 < r.openPositionCount ∧
        r.candidate.instrument = c.instrument := by
    simp only [hpositions]
    rw [mem_countedPositions, mem_sharedPositions]
  have hopen : (∃ e ∈ context.openOrders, e.symbol = c.instrument) ↔
      (∃ o ∈ db.orders.rows, o.openIn shared.account.id ∧
        o.instrument = c.instrument ∧ o.readable db) ∨
      ∃ r ∈ entrySource db request, 0 < r.openOrderCount ∧
        r.candidate.instrument = c.instrument := by
    simp only [horders]
    rw [mem_countedOrders, mem_sharedOpenOrders]
  constructor
  · rintro ⟨hposition, horder⟩
    refine ⟨?_, ?_, ?_⟩
    · intro r hr heq p hp hin hcounted
      exact hposition.1 (hheld.2 (Or.inr ⟨r, hr, (hcounts r hr).1.2 ⟨p, hp, hin, hcounted⟩, heq⟩))
    · intro p hp hin heq
      rcases hheld.1 (hposition.2 ⟨p, hp, hin, heq⟩) with ⟨p', hp', hin', hread⟩ | ⟨r, hr, hpos, hr'⟩
      · exact ⟨p', hp', hin', Or.inl hread⟩
      · obtain ⟨p', hp', hin', hcounted⟩ := (hcounts r hr).1.1 hpos
        exact ⟨p', hp', hin', Or.inr ⟨r, hr, hr', hcounted⟩⟩
    · intro o ho hin heq
      rcases hopen.1 (horder.2 ⟨o, ho, hin, heq⟩) with ⟨o', ho', hin', hread⟩ | ⟨r, hr, hpos, hr'⟩
      · exact ⟨o', ho', hin', Or.inl hread⟩
      · obtain ⟨o', ho', haccount, hcounted⟩ := (hcounts r hr).2.1 hpos
        obtain ⟨hterminal, _⟩ := Order.countedFor_open hcounted
        exact ⟨o', ho', by simp [Order.openIn, haccount, hterminal],
          Or.inr ⟨r, hr, hr', hcounted⟩⟩
  · rintro ⟨hexact, hreadp, hreado⟩
    refine ⟨⟨fun hnamed ↦ ?_, ?_⟩, ⟨fun hnamed ↦ ?_, ?_⟩⟩
    · rcases hheld.1 hnamed with ⟨p, hp, hin, heq, _⟩ | ⟨r, hr, hpos, heq⟩
      · exact ⟨p, hp, hin, heq⟩
      · obtain ⟨p, hp, hin, hcounted⟩ := (hcounts r hr).1.1 hpos
        exact hexact r hr heq p hp hin hcounted
    · rintro ⟨p, hp, hin, heq⟩
      obtain ⟨p', hp', hin', hread | ⟨r, hr, hr', hcounted⟩⟩ := hreadp p hp hin heq
      · exact hheld.2 (Or.inl ⟨p', hp', hin', hread⟩)
      · exact hheld.2 (Or.inr ⟨r, hr, (hcounts r hr).1.2 ⟨p', hp', hin', hcounted⟩, hr'⟩)
    · rcases hopen.1 hnamed with ⟨o, ho, hin, heq, _⟩ | ⟨r, hr, hpos, heq⟩
      · exact ⟨o, ho, hin, heq⟩
      · -- The count of the orders compares order symbols, so this order is one for the instrument.
        obtain ⟨o, ho, haccount, hcounted⟩ := (hcounts r hr).2.1 hpos
        obtain ⟨hterminal, hsymbol⟩ := Order.countedFor_open hcounted
        exact ⟨o, ho, by simp [Order.openIn, haccount, hterminal], hsymbol.trans heq⟩
    · rintro ⟨o, ho, hin, heq⟩
      obtain ⟨o', ho', hin', hread | ⟨r, hr, hr', hcounted⟩⟩ := hreado o ho hin heq
      · exact hopen.2 (Or.inl ⟨o', ho', hin', hread⟩)
      · rw [Order.openIn, Bool.and_eq_true, decide_eq_true_eq] at hin'
        exact hopen.2 (Or.inr ⟨r, hr, (hcounts r hr).2.2 ⟨o', ho', hin'.1, hcounted⟩, hr'⟩)

end Context

/-! ## A stock and an option on it -/

namespace Specimen

/-- An option candidate, and a request that takes it. -/
def optionCandidate : Candidate :=
  { id := "cand-option", symbol := "XYZ", optionSymbol := some "XYZ260116C00100000",
    assetClass := .option, lifecycleStatus := "confirmed", asOf := 1000 }

def conflictRequest : EntryReviewRequest where
  signingKey := "0123456789abcdef"
  latestResearch := some ""
  maxCandidates := 1
  assess _ := .eligible { price := 10, amount := 1000 }
  now := 2000

/-- The account with the candidate and one position. -/
def conflictDb (p : Position) : Db :=
  { account with
    candidates := .ofRows [optionCandidate] (List.pairwise_singleton _ _)
    positions := .ofRows [p] (List.pairwise_singleton _ _) }

/-- A holding of the stock. -/
def stockHolding : Position :=
  { id := "stock", accountId := "acct", brokerPositionKey := "XYZ", symbol := "XYZ",
    status := .open, quantity := 10 }

/-- A holding of the option. -/
def optionHolding : Position :=
  { id := "option", accountId := "acct", brokerPositionKey := "XYZ260116C00100000",
    symbol := "XYZ", optionSymbol := some "XYZ260116C00100000", assetClass := .option,
    status := .open, quantity := 1 }

/-- The position symbols of the context. -/
def conflictSymbols (p : Position) : Option (List String) := do
  let shared ← (entrySource (conflictDb p) conflictRequest).head?
  let context ← (@portfolioResourceContext hashing (conflictDb p) shared
    (entrySource (conflictDb p) conflictRequest)).toOption
  return context.existingPositions.map (·.symbol)

end Specimen

/-- The theorem at the specimen: the option is held, and the context says so. -/
theorem specimen_conflicts_exact :
    let _ := Specimen.hashing
    let rows := entrySource (Specimen.conflictDb Specimen.optionHolding) Specimen.conflictRequest
    ∃ shared context, rows.head? = some shared ∧
      portfolioResourceContext (Specimen.conflictDb Specimen.optionHolding) shared rows =
        .ok context ∧
      ConflictsExact context (Specimen.conflictDb Specimen.optionHolding) shared.account.id
        Specimen.optionCandidate := by
  intro _ rows
  have hsymbols : Specimen.conflictSymbols Specimen.optionHolding = some ["XYZ260116C00100000"] := by
    decide +kernel
  simp only [Specimen.conflictSymbols, Option.bind_eq_bind, Option.bind_eq_some_iff] at hsymbols
  obtain ⟨shared, hshared, context, hcontext, _⟩ := hsymbols
  have hcontext : portfolioResourceContext (Specimen.conflictDb Specimen.optionHolding) shared rows =
      .ok context := toOption_eq_some.1 hcontext
  have haccount : (rows.head?.map (·.account.id)) = some "acct" := by decide +kernel
  rw [hshared, Option.map_some, Option.some_inj] at haccount
  refine ⟨shared, context, hshared, hcontext,
    (conflicts_exact_iff Specimen.optionCandidate hshared hcontext).2 ?_⟩
  rw [haccount]
  refine ⟨fun _ _ _ p hp hin _ ↦ ⟨p, hp, hin, ?_⟩, fun p hp hin hheld ↦ ⟨p, hp, hin, ?_⟩,
    fun o ho ↦ absurd ho List.not_mem_nil⟩
  all_goals obtain rfl := List.mem_singleton.1 hp
  · decide +kernel
  · exact Or.inl ⟨hheld, by decide +kernel⟩

/-- Only the stock is held; the context has a position in the option on it. -/
theorem stock_counts_as_option :
    let _ := Specimen.hashing
    let rows := entrySource (Specimen.conflictDb Specimen.stockHolding) Specimen.conflictRequest
    ∃ shared context, rows.head? = some shared ∧
      portfolioResourceContext (Specimen.conflictDb Specimen.stockHolding) shared rows =
        .ok context ∧
      context.existingPositions.map (·.symbol) = ["XYZ260116C00100000", "XYZ"] ∧
      ¬ ConflictsExact context (Specimen.conflictDb Specimen.stockHolding) shared.account.id
        Specimen.optionCandidate := by
  intro _ rows
  have hsymbols : Specimen.conflictSymbols Specimen.stockHolding =
      some ["XYZ260116C00100000", "XYZ"] := by decide +kernel
  simp only [Specimen.conflictSymbols, Option.bind_eq_bind, Option.bind_eq_some_iff] at hsymbols
  obtain ⟨shared, hshared, context, hcontext, hnamed⟩ := hsymbols
  obtain hnamed := Option.some_inj.1 hnamed
  refine ⟨shared, context, hshared, toOption_eq_some.1 hcontext, hnamed, fun hexact ↦ ?_⟩
  have hmem : "XYZ260116C00100000" ∈ context.existingPositions.map (·.symbol) := by
    rw [hnamed]
    simp
  obtain ⟨e, he, hsymbol⟩ := List.mem_map.1 hmem
  obtain ⟨p, hp, _, hheld⟩ := hexact.position.1 ⟨e, he, hsymbol.trans (by decide +kernel)⟩
  obtain rfl := List.mem_singleton.1 hp
  revert hheld
  decide +kernel

end AlpacaTrading
