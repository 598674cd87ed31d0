import AlpacaTrading.PaperPosition.Effects

/-!
# The books of the paper positions

Beside the tables stand the accounts: what the broker reported of the entry order of each position
and of its exit.  `Books` says how the tables agree with them.  A position that is closed with an
unambiguous lineage is settled: what was exited is the whole position, the earliest of its exactly
linked observations has the average price of the entry as its mark, and the latest that of the
exit.

The links of a closed position never change, since an observation is linked to open positions only.
-/

namespace AlpacaTrading

namespace PaperPosition

/-! ## Accounts -/

/-- What was reported of an entry order and of the exit from its position: the quantity and the
average price. -/
structure Account where
  entry : Option (ℚ × ℚ) := none
  exit : Option (ℚ × ℚ) := none
deriving DecidableEq

/-- The earliest and the latest observation have these marks. -/
def Marked (observations : List Observation) (first last : Option ℚ) : Prop :=
  (∃ o ∈ observations, (∀ o' ∈ observations, o.NotAfter o') ∧ o.usedMark = first) ∧
    ∃ o ∈ observations, (∀ o' ∈ observations, o'.NotAfter o) ∧ o.usedMark = last

instance (observations : List Observation) (first last : Option ℚ) :
    Decidable (Marked observations first last) :=
  inferInstanceAs (Decidable ((∃ o ∈ observations, (∀ o' ∈ observations, o.NotAfter o') ∧ _) ∧
    ∃ o ∈ observations, (∀ o' ∈ observations, o'.NotAfter o) ∧ _))

/-- Two positions of one instrument are open. -/
def Together (p q : PositionRow) : Prop :=
  p ≠ q ∧ p.status = .opened ∧ q.status = .opened ∧ sqlUpper p.instrument = sqlUpper q.instrument

instance : DecidableRel Together :=
  fun _ _ ↦ inferInstanceAs (Decidable (_ ∧ _ ∧ _ ∧ _))

/-- What an outcome says of the profit.  A position that was open together with another one of its
instrument has an ambiguous outcome without a profit.  Any other outcome that is complete or partial
has the profit of the exit over the entry, on the whole position. -/
structure Accounted (account : Account) (shared : Bool) (p : PositionRow) (o : OutcomeRow) :
    Prop where
  ambiguous : shared = true → o.completenessStatus = .ambiguousLineage ∧ o.realizedPnl = none ∧
    o.realizedReturnPct = none
  profit : shared = false → o.completenessStatus = .complete ∨ o.completenessStatus = .partially →
    ∃ quantity entryPrice exitPrice,
      account = { entry := some (quantity, entryPrice), exit := some (quantity, exitPrice) } ∧
      o.realizedPnl = some (round (sign p.side * (exitPrice - entryPrice) * quantity *
        multiplier p.assetClass)) ∧
      o.realizedReturnPct = some (round (percentReturn entryPrice exitPrice p.side))

/-- The tables agree with the accounts of the client orders and with the set of the positions that
were open together with another one. -/
structure Books (db : Db) (accounts : String → Account) (wasShared : String → Bool) : Prop where
  linked : ∀ l ∈ db.links.rows, ∃ o ∈ db.observations.rows, o.observationId = l.observationId
  status : ∀ l ∈ db.links.rows,
    l.linkageStatus = .exact ∨ l.linkageStatus = .ambiguousNettedPosition
  ledger : LedgerLinked db.ledger db.positions
  symbols : ∀ p ∈ db.positions.rows, Text.toUpperCase p.instrument = sqlUpper p.instrument
  entry : ∀ p ∈ db.positions.rows, ∃ quantity price, p.entryQuantity = some quantity ∧
    p.entryPrice = some price ∧ (accounts p.entryClientOrderId).entry = some (quantity, price)
  unopened : ∀ c, (accounts c).entry ≠ none → ∃ p ∈ db.positions.rows, p.entryClientOrderId = c
  known : ∀ id, wasShared id = true → ∃ p ∈ db.positions.rows, p.positionLifecycleId = id
  shared : ∀ p ∈ db.positions.rows, wasShared p.positionLifecycleId = true →
    p.linkageStatus = .ambiguousNettedPosition
  settled : ∀ p ∈ db.positions.rows, p.status = .closed → ¬ db.Ambiguous p →
    ∃ quantity price, p.entryQuantity = some quantity ∧
      (accounts p.entryClientOrderId).exit = some (quantity, price) ∧
      Marked (db.exactObservations p.positionLifecycleId) p.entryPrice (some price)
  outcomes : ∀ o ∈ db.outcomes.rows, ∃ p ∈ db.positions.rows,
    p.positionLifecycleId = o.positionLifecycleId ∧ p.status = .closed ∧
    Accounted (accounts p.entryClientOrderId) (wasShared p.positionLifecycleId) p o

/-- Positions that are open together are ambiguous. -/
def Apart (db : Db) : Prop :=
  ∀ p ∈ db.positions.rows, ∀ q ∈ db.positions.rows, Together p q →
    p.linkageStatus = .ambiguousNettedPosition

variable {db mid db' : Db} {accounts : String → Account} {wasShared : String → Bool}
  {observation : Observation} {p : PositionRow}

/-! ## Exactly linked observations -/

theorem mem_exactObservations {id : String} {o : Observation} :
    o ∈ db.exactObservations id ↔ o ∈ db.observations.rows ∧ db.Linked id .exact o := by
  rw [Db.exactObservations, List.mem_insertionSort, List.mem_filter, decide_eq_true_iff]

theorem Marked.congr {l l' : List Observation} {first last : Option ℚ}
    (h : ∀ o, o ∈ l ↔ o ∈ l') (hmarked : Marked l first last) : Marked l' first last := by
  rw [Marked] at hmarked ⊢
  simpa only [h] using hmarked

/-! ## Captures -/

section Captured

/-- A position as a capture leaves it. -/
def Captured.image (db : Db) (observation : Observation) (p : PositionRow) : PositionRow :=
  if 1 < (db.possiblePositions observation.evidence.brokerSymbolKey).length ∧
      p.Possible observation.evidence.brokerSymbolKey then
    { p with linkageStatus := .ambiguousNettedPosition }
  else p

theorem Captured.image_cases (db : Db) (observation : Observation) (p : PositionRow) :
    Captured.image db observation p = p ∨
      p.status = .opened ∧
        Captured.image db observation p =
          { p with linkageStatus := .ambiguousNettedPosition } := by
  rw [Captured.image]
  split
  · next h => exact Or.inr ⟨h.2.1, rfl⟩
  · exact Or.inl rfl

/-- Everything but the lineage stays. -/
theorem Captured.image_fields (db : Db) (observation : Observation) (p : PositionRow) :
    (Captured.image db observation p).positionLifecycleId = p.positionLifecycleId ∧
    (Captured.image db observation p).entryClientOrderId = p.entryClientOrderId ∧
    (Captured.image db observation p).status = p.status ∧
    (Captured.image db observation p).instrument = p.instrument ∧
    (Captured.image db observation p).entryQuantity = p.entryQuantity ∧
    (Captured.image db observation p).entryPrice = p.entryPrice := by
  rcases Captured.image_cases db observation p with h | ⟨-, h⟩
  · rw [h]
    exact ⟨rfl, rfl, rfl, rfl, rfl, rfl⟩
  · rw [h]
    exact ⟨rfl, rfl, rfl, rfl, rfl, rfl⟩

theorem Captured.image_closed (h : p.status = .closed) : Captured.image db observation p = p := by
  rcases Captured.image_cases db observation p with heq | ⟨hopen, -⟩
  · exact heq
  · rw [h] at hopen
    cases hopen

/-- Ambiguity is not lost. -/
theorem Captured.image_ambiguous (h : p.linkageStatus = .ambiguousNettedPosition) :
    (Captured.image db observation p).linkageStatus = .ambiguousNettedPosition := by
  rcases Captured.image_cases db observation p with heq | ⟨-, heq⟩
  · rw [heq, h]
  · rw [heq]

variable (h : Captured db db' observation)
include h

theorem Captured.mem_positions {q : PositionRow} :
    q ∈ db'.positions.rows ↔ ∃ p ∈ db.positions.rows, Captured.image db observation p = q := by
  rw [h.positions, List.mem_map]
  rfl

/-- An observation under an old identifier is an old one. -/
theorem Captured.old_observation {o o₀ : Observation} (ho : o ∈ db'.observations.rows)
    (ho₀ : o₀ ∈ db.observations.rows) (hid : o₀.observationId = o.observationId) :
    o ∈ db.observations.rows := by
  rwa [← db'.observations.eq_of_key ((h.observations o₀).2 (Or.inl ho₀)) ho hid]

/-- The observations that are linked to a position exactly are the old ones, and perhaps the new
one. -/
theorem Captured.of_mem_exact (hbooks : Books db accounts wasShared) {id : String} {o : Observation}
    (ho : o ∈ db'.exactObservations id) :
    o ∈ db.exactObservations id ∨ o = observation ∧
      ∃ p ∈ db.positions.rows, p.status = .opened ∧ p.positionLifecycleId = id := by
  rw [mem_exactObservations] at ho ⊢
  obtain ⟨ho, l, hl, hobservation, hposition, hexact⟩ := ho
  rcases h.added l hl with hl | ⟨p, hp, rfl⟩
  · obtain ⟨o₀, ho₀, hid⟩ := hbooks.linked l hl
    exact Or.inl ⟨h.old_observation ho ho₀ (hid.trans hobservation),
      l, hl, hobservation, hposition, hexact⟩
  · obtain ⟨hp, hpossible⟩ := mem_possiblePositions.1 hp
    have hnew : observation ∈ db'.observations.rows := (h.observations _).2 (Or.inr rfl)
    exact Or.inr ⟨(db'.observations.eq_of_key hnew ho hobservation).symm,
      p, hp, hpossible.1, hposition⟩

theorem Captured.mem_exact_of_mem {id : String} {o : Observation}
    (ho : o ∈ db.exactObservations id) : o ∈ db'.exactObservations id := by
  rw [mem_exactObservations] at ho ⊢
  obtain ⟨ho, l, hl, hlink⟩ := ho
  exact ⟨(h.observations o).2 (Or.inl ho), l, h.kept l hl, hlink⟩

/-- The links of a closed position do not change. -/
theorem Captured.exact_closed (hbooks : Books db accounts wasShared) (hp : p ∈ db.positions.rows)
    (hclosed : p.status = .closed) (o : Observation) :
    o ∈ db.exactObservations p.positionLifecycleId ↔
      o ∈ db'.exactObservations p.positionLifecycleId := by
  refine ⟨h.mem_exact_of_mem, fun ho ↦ ?_⟩
  rcases h.of_mem_exact hbooks ho with ho | ⟨-, q, hq, hopen, hid⟩
  · exact ho
  · rw [db.positions.eq_of_key hq hp hid, hclosed] at hopen
    cases hopen

theorem Captured.ambiguous (hambiguous : db.Ambiguous p) :
    db'.Ambiguous (Captured.image db observation p) := by
  rcases hambiguous with hstatus | ⟨l, hl, hid, hstatus⟩
  · exact Or.inl (Captured.image_ambiguous hstatus)
  · refine Or.inr ⟨l, h.kept l hl, ?_, hstatus⟩
    rw [hid, (Captured.image_fields db observation p).1]

/-- **A capture keeps the books.** -/
theorem Books.capture (hbooks : Books db accounts wasShared) : Books db' accounts wasShared := by
  constructor
  case linked =>
    intro l hl
    rcases h.added l hl with hl | ⟨p, -, rfl⟩
    · obtain ⟨o, ho, hid⟩ := hbooks.linked l hl
      exact ⟨o, (h.observations o).2 (Or.inl ho), hid⟩
    · exact ⟨observation, (h.observations _).2 (Or.inr rfl), rfl⟩
  case status =>
    intro l hl
    rcases h.added l hl with hl | ⟨p, hp, rfl⟩
    · exact hbooks.status l hl
    · have hpos := List.length_pos_of_mem hp
      change linkageOf _ = _ ∨ linkageOf _ = _
      rw [linkageOf]
      split_ifs with hone hmore
      · exact Or.inl rfl
      · exact Or.inr rfl
      · omega
  case ledger =>
    rw [h.ledger]
    intro l hl id hid
    obtain ⟨p, hp, hpid, hclient⟩ := hbooks.ledger l hl id hid
    obtain ⟨hid', hclient', -⟩ := Captured.image_fields db observation p
    exact ⟨_, h.mem_positions.2 ⟨p, hp, rfl⟩, hid'.trans hpid, hclient'.trans hclient⟩
  case symbols =>
    intro q hq
    obtain ⟨p, hp, rfl⟩ := h.mem_positions.1 hq
    obtain ⟨-, -, -, hinstrument, -⟩ := Captured.image_fields db observation p
    rw [hinstrument]
    exact hbooks.symbols p hp
  case entry =>
    intro q hq
    obtain ⟨p, hp, rfl⟩ := h.mem_positions.1 hq
    obtain ⟨-, hclient, -, -, hquantity, hprice⟩ := Captured.image_fields db observation p
    rw [hclient, hquantity, hprice]
    exact hbooks.entry p hp
  case unopened =>
    intro c hc
    obtain ⟨p, hp, hclient⟩ := hbooks.unopened c hc
    exact ⟨_, h.mem_positions.2 ⟨p, hp, rfl⟩,
      (Captured.image_fields db observation p).2.1.trans hclient⟩
  case known =>
    intro id hid
    obtain ⟨p, hp, hpid⟩ := hbooks.known id hid
    exact ⟨_, h.mem_positions.2 ⟨p, hp, rfl⟩, (Captured.image_fields db observation p).1.trans hpid⟩
  case shared =>
    intro q hq hshared
    obtain ⟨p, hp, rfl⟩ := h.mem_positions.1 hq
    rw [(Captured.image_fields db observation p).1] at hshared
    exact Captured.image_ambiguous (hbooks.shared p hp hshared)
  case settled =>
    intro q hq hclosed hlineage
    obtain ⟨p, hp, rfl⟩ := h.mem_positions.1 hq
    rw [(Captured.image_fields db observation p).2.2.1] at hclosed
    rw [Captured.image_closed hclosed] at hlineage ⊢
    obtain ⟨quantity, price, hquantity, hexit, hmarked⟩ := hbooks.settled p hp hclosed fun hbefore ↦ by
      have hafter := h.ambiguous hbefore
      rw [Captured.image_closed hclosed] at hafter
      exact hlineage hafter
    exact ⟨quantity, price, hquantity, hexit, hmarked.congr (h.exact_closed hbooks hp hclosed)⟩
  case outcomes =>
    rw [h.outcomes]
    intro o ho
    obtain ⟨p, hp, hid, hclosed, haccounted⟩ := hbooks.outcomes o ho
    exact ⟨p, h.mem_positions.2 ⟨p, hp, Captured.image_closed hclosed⟩, hid, hclosed, haccounted⟩

theorem Apart.capture (hapart : Apart db) : Apart db' := by
  intro q hq q' hq' ⟨hne, hopen, hopen', hinstrument⟩
  obtain ⟨p, hp, rfl⟩ := h.mem_positions.1 hq
  obtain ⟨p', hp', rfl⟩ := h.mem_positions.1 hq'
  obtain ⟨-, -, hstatus, hsame, -⟩ := Captured.image_fields db observation p
  obtain ⟨-, -, hstatus', hsame', -⟩ := Captured.image_fields db observation p'
  rw [hstatus] at hopen
  rw [hstatus'] at hopen'
  rw [hsame, hsame'] at hinstrument
  refine Captured.image_ambiguous (hapart p hp p' hp' ⟨?_, hopen, hopen', hinstrument⟩)
  rintro rfl
  exact hne rfl

end Captured

/-! ## Entry fills -/

/-- The accounts after the report of an entry fill: a report of less than was reported before is an
old one. -/
def reportEntry (accounts : String → Account) (clientOrderId : String) (quantity price : ℚ) :
    String → Account :=
  Function.update accounts clientOrderId
    { accounts clientOrderId with
      entry := if (accounts clientOrderId).entry.all (·.1 ≤ quantity) then some (quantity, price)
        else (accounts clientOrderId).entry }

/-- The accounts after the report of an exit fill. -/
def reportExit (accounts : String → Account) (clientOrderId : String) (quantity price : ℚ) :
    String → Account :=
  Function.update accounts clientOrderId
    { accounts clientOrderId with exit := some (quantity, price) }

section Fills

variable {newLifecycleId : String} {input : EntryFillInput} {quantity price : ℚ}

theorem exactObservations_congr (hobservations : mid.observations = db.observations)
    (hlinks : mid.links = db.links) (id : String) :
    mid.exactObservations id = db.exactObservations id := by
  have hlinked : ∀ o, mid.Linked id .exact o ↔ db.Linked id .exact o := by
    intro o
    rw [Db.Linked, Db.Linked, hlinks]
  rw [Db.exactObservations, Db.exactObservations, hobservations]
  simp only [hlinked]

theorem ambiguous_congr (hlinks : mid.links = db.links) :
    mid.Ambiguous p ↔ db.Ambiguous p := by
  rw [Db.Ambiguous, Db.Ambiguous, hlinks]

/-- The instrument of a new position is the symbol of its order. -/
theorem newPosition_instrument (lifecycleId : String) (ledger : LedgerRow) (decisionId : String) :
    (newPosition lifecycleId input quantity price ledger decisionId).instrument =
      ledger.symbol := by
  rw [newPosition, PositionRow.instrument]
  split
  · next h => rw [h]; rfl
  · next h => rw [h]; rfl

theorem filled_instrument : (p.filled quantity price).instrument = p.instrument := rfl

/-- An old report changes nothing. -/
theorem reportEntry_stale {q x : ℚ} {c : String} (hentry : (accounts c).entry = some (q, x))
    (hstale : q ≤ quantity → q = quantity ∧ x = price) :
    reportEntry accounts c quantity price = accounts := by
  rw [reportEntry, Function.update_eq_self_iff, hentry, Option.all_some]
  split
  · next hle =>
    obtain ⟨rfl, rfl⟩ := hstale (of_decide_eq_true hle)
    rw [← hentry]
  · rw [← hentry]

/-- The positions after a fill: those of another order are the same, and those of this order are
open and have the entry that was reported. -/
theorem Fills.cases (hbooks : Books db accounts wasShared)
    (hclient : p.entryClientOrderId = input.clientOrderId)
    (h : Fills newLifecycleId input quantity price db mid p) :
    (∀ r ∈ mid.positions.rows,
      r ∈ db.positions.rows ∧ r.entryClientOrderId ≠ input.clientOrderId ∨
      r = p.filled quantity price ∧ r.status = .opened) ∧
    (∀ r ∈ db.positions.rows, r ∈ mid.positions.rows ∨
      r = p ∧ r.status = .opened ∧ p.filled quantity price ∈ mid.positions.rows) ∧
    p.filled quantity price ∈ mid.positions.rows ∧
    (accounts input.clientOrderId).entry.all (·.1 ≤ quantity) = true := by
  rcases h with ⟨hp, hopen, hquantity, hpositions⟩ | ⟨ledger, hledger, decisionId, rfl, hnone, hfresh,
    hpositions⟩
  · have hmem : p.filled quantity price ∈ mid.positions.rows := by
      rw [hpositions]
      exact List.mem_map.2 ⟨p, hp, if_pos rfl⟩
    refine ⟨fun r hr ↦ ?_, fun r hr ↦ ?_, hmem, ?_⟩
    · rw [hpositions, List.mem_map] at hr
      obtain ⟨q, hq, rfl⟩ := hr
      by_cases hqp : q = p
      · rw [if_pos hqp, hqp]
        exact Or.inr ⟨rfl, hopen⟩
      · rw [if_neg hqp]
        refine Or.inl ⟨hq, fun hqclient ↦ hqp ?_⟩
        exact db.positions.eq_of_clash hq hp (Or.inr (hqclient.trans hclient.symm))
    · by_cases hrp : r = p
      · exact Or.inr ⟨hrp, hrp ▸ hopen, hmem⟩
      · rw [hpositions]
        exact Or.inl (List.mem_map.2 ⟨r, hr, if_neg hrp⟩)
    · obtain ⟨q, x, hq, -, hentry⟩ := hbooks.entry p hp
      rw [hq, Option.getD_some] at hquantity
      rw [← hclient, hentry]
      exact decide_eq_true hquantity
  · have hmem : (newPosition newLifecycleId input quantity price ledger decisionId).filled quantity
        price ∈ mid.positions.rows := by
      rw [hpositions]
      exact List.mem_append_right _ (List.mem_singleton_self _)
    refine ⟨fun r hr ↦ ?_, fun r hr ↦ ?_, hmem, ?_⟩
    · rw [hpositions, List.mem_append, List.mem_singleton] at hr
      rcases hr with hr | rfl
      · exact Or.inl ⟨hr, hnone r hr⟩
      · exact Or.inr ⟨rfl, rfl⟩
    · rw [hpositions]
      exact Or.inl (List.mem_append_left _ hr)
    · by_cases hentry : (accounts input.clientOrderId).entry = none
      · rw [hentry]
        rfl
      · obtain ⟨r, hr, hrclient⟩ := hbooks.unopened _ hentry
        exact absurd hrclient (hnone r hr)

/-- **An entry fill keeps the books.** -/
theorem Books.fill (hbooks : Books db accounts wasShared)
    (hclient : p.entryClientOrderId = input.clientOrderId)
    (hfills : Fills newLifecycleId input quantity price db mid p)
    (hledger : LedgerLinked mid.ledger mid.positions)
    (hobservations : mid.observations = db.observations) (hlinks : mid.links = db.links)
    (houtcomes : mid.outcomes = db.outcomes)
    (hsymbol : ∀ l ∈ db.ledger.get? input.ledgerId,
      Text.toUpperCase l.symbol = sqlUpper l.symbol) :
    Books mid (reportEntry accounts input.clientOrderId quantity price) wasShared := by
  obtain ⟨hnew, hold, hmem, hall⟩ := hfills.cases hbooks hclient
  have hother : ∀ c, c ≠ input.clientOrderId →
      reportEntry accounts input.clientOrderId quantity price c = accounts c :=
    fun c hc ↦ Function.update_of_ne hc _ _
  have hentry : (reportEntry accounts input.clientOrderId quantity price
      input.clientOrderId).entry = some (quantity, price) := by
    rw [reportEntry, Function.update_self, if_pos hall]
  -- Nothing else changes for a closed position.
  have hclosed : ∀ r ∈ mid.positions.rows, r.status = .closed →
      r ∈ db.positions.rows ∧ r.entryClientOrderId ≠ input.clientOrderId := by
    intro r hr hstatus
    rcases hnew r hr with hr | ⟨-, hopen⟩
    · exact hr
    · rw [hstatus] at hopen
      cases hopen
  constructor
  case linked =>
    rw [hlinks, hobservations]
    exact hbooks.linked
  case status =>
    rw [hlinks]
    exact hbooks.status
  case ledger => exact hledger
  case symbols =>
    intro r hr
    rcases hnew r hr with ⟨hr, -⟩ | ⟨rfl, -⟩
    · exact hbooks.symbols r hr
    · rcases hfills with ⟨hp, -, -, -⟩ | ⟨ledger, hget, decisionId, rfl, -, -, -⟩
      · exact hbooks.symbols p hp
      · rw [filled_instrument, newPosition_instrument]
        exact hsymbol ledger hget
  case entry =>
    intro r hr
    rcases hnew r hr with ⟨hr, hne⟩ | ⟨rfl, -⟩
    · rw [hother _ hne]
      exact hbooks.entry r hr
    · exact ⟨quantity, price, rfl, rfl, hclient.symm ▸ hentry⟩
  case unopened =>
    intro c hc
    by_cases hcc : c = input.clientOrderId
    · exact ⟨_, hmem, hclient.trans hcc.symm⟩
    · rw [hother c hcc] at hc
      obtain ⟨r, hr, hrclient⟩ := hbooks.unopened c hc
      rcases hold r hr with hr | ⟨rfl, -, -⟩
      · exact ⟨r, hr, hrclient⟩
      · exact absurd (hrclient.symm.trans hclient) hcc
  case known =>
    intro id hid
    obtain ⟨r, hr, hrid⟩ := hbooks.known id hid
    rcases hold r hr with hr | ⟨rfl, -, -⟩
    · exact ⟨r, hr, hrid⟩
    · exact ⟨_, hmem, hrid⟩
  case shared =>
    intro r hr hshared
    rcases hnew r hr with ⟨hr, -⟩ | ⟨rfl, -⟩
    · exact hbooks.shared r hr hshared
    · rcases hfills with ⟨hp, -, -, -⟩ | ⟨ledger, hget, decisionId, rfl, -, hfresh, -⟩
      · exact hbooks.shared p hp hshared
      · obtain ⟨q, hq, hqid⟩ := hbooks.known _ hshared
        exact absurd hqid (hfresh q hq)
  case settled =>
    intro r hr hstatus hlineage
    obtain ⟨hr, hne⟩ := hclosed r hr hstatus
    rw [ambiguous_congr hlinks] at hlineage
    rw [exactObservations_congr hobservations hlinks, hother _ hne]
    exact hbooks.settled r hr hstatus hlineage
  case outcomes =>
    rw [houtcomes]
    intro o ho
    obtain ⟨r, hr, hid, hstatus, haccounted⟩ := hbooks.outcomes o ho
    rcases hold r hr with hr' | ⟨-, hopen, -⟩
    · refine ⟨r, hr', hid, hstatus, ?_⟩
      rw [hother _ (hclosed r hr' hstatus).2]
      exact haccounted
    · rw [hstatus] at hopen
      cases hopen

/-- Two members are two. -/
theorem one_lt_length {α : Type} {l : List α} {a b : α} (ha : a ∈ l) (hb : b ∈ l) (hne : a ≠ b) :
    1 < l.length := by
  rcases l with - | ⟨c, - | ⟨d, l⟩⟩
  · cases ha
  · exact absurd ((List.mem_singleton.1 ha).trans (List.mem_singleton.1 hb).symm) hne
  · rw [List.length_cons, List.length_cons]
    omega

/-- The observation of a fill is captured under the instrument of its position. -/
theorem entryObservation_key (newId : String) (hsymbol : Text.toUpperCase p.instrument =
    sqlUpper p.instrument) :
    (mid.observationFor newId (entryObservation input quantity price p.symbol p.optionSymbol
      p.assetClass).evidence).evidence.brokerSymbolKey = sqlUpper p.instrument := by
  rw [observationFor_evidence, ← hsymbol]
  rfl

/-- **Positions that a fill makes open together are found by its observation.** -/
theorem Apart.fill (hbooks : Books db accounts wasShared) (hapart : Apart db)
    (hclient : p.entryClientOrderId = input.clientOrderId)
    (hfills : Fills newLifecycleId input quantity price db mid p)
    (hcaptured : Captured mid db' observation)
    (hkey : observation.evidence.brokerSymbolKey = sqlUpper p.instrument) : Apart db' := by
  obtain ⟨hnew, -, -, -⟩ := hfills.cases hbooks hclient
  intro q hq q' hq' ⟨hne, hopen, hopen', hinstrument⟩
  obtain ⟨r, hr, rfl⟩ := hcaptured.mem_positions.1 hq
  obtain ⟨r', hr', rfl⟩ := hcaptured.mem_positions.1 hq'
  obtain ⟨-, -, hstatus, hsame, -⟩ := Captured.image_fields mid observation r
  obtain ⟨-, -, hstatus', hsame', -⟩ := Captured.image_fields mid observation r'
  rw [hstatus] at hopen
  rw [hstatus'] at hopen'
  rw [hsame, hsame'] at hinstrument
  have hrr' : r ≠ r' := fun heq ↦ hne (congrArg _ heq)
  by_cases hkeyed : sqlUpper r.instrument = sqlUpper p.instrument
  · -- Both belong to the observation.
    have hpossible : r.Possible observation.evidence.brokerSymbolKey :=
      ⟨hopen, hkeyed.trans hkey.symm⟩
    have hpossible' : r'.Possible observation.evidence.brokerSymbolKey :=
      ⟨hopen', hinstrument.symm.trans (hkeyed.trans hkey.symm)⟩
    have hmany := one_lt_length (mem_possiblePositions.2 ⟨hr, hpossible⟩)
      (mem_possiblePositions.2 ⟨hr', hpossible'⟩) hrr'
    rw [Captured.image, if_pos ⟨hmany, hpossible⟩]
  · -- Neither is the position of the fill.
    have holdof : ∀ s ∈ mid.positions.rows, sqlUpper s.instrument ≠ sqlUpper p.instrument →
        s ∈ db.positions.rows := by
      intro s hs hsne
      rcases hnew s hs with ⟨hs, -⟩ | ⟨rfl, -⟩
      · exact hs
      · exact absurd rfl hsne
    refine Captured.image_ambiguous (hapart r (holdof r hr hkeyed) r' (holdof r' hr' ?_)
      ⟨hrr', hopen, hopen', hinstrument⟩)
    rwa [← hinstrument]

end Fills

/-! ## Exit fills -/

section Exit

variable {input : ExitFillInput} {quantity price : ℚ}

/-- The observations of a position after the capture of one of its instrument, unless they make it
ambiguous. -/
theorem Captured.exact_open (hcaptured : Captured db mid observation)
    (hbooks : Books db accounts wasShared) (hp : p ∈ db.positions.rows)
    (hpossible : p.Possible observation.evidence.brokerSymbolKey)
    (hlineage : ¬ mid.Ambiguous (Captured.image db observation p)) (o : Observation) :
    o ∈ observation :: db.exactObservations p.positionLifecycleId ↔
      o ∈ mid.exactObservations p.positionLifecycleId := by
  rw [List.mem_cons]
  constructor
  · rintro (rfl | ho)
    · rw [mem_exactObservations]
      refine ⟨(hcaptured.observations _).2 (Or.inr rfl), ?_⟩
      obtain ⟨l, hl, hobservation, hposition⟩ :=
        hcaptured.linked p (mem_possiblePositions.2 ⟨hp, hpossible⟩)
      refine ⟨l, hl, hobservation, hposition, ?_⟩
      rcases (hbooks.capture hcaptured).status l hl with hexact | hambiguous
      · exact hexact
      · refine absurd (Or.inr ⟨l, hl, ?_, hambiguous⟩) hlineage
        rw [hposition, (Captured.image_fields db o p).1]
    · exact hcaptured.mem_exact_of_mem ho
  · intro ho
    rcases hcaptured.of_mem_exact hbooks ho with ho | ⟨rfl, -⟩
    · exact Or.inr ho
    · exact Or.inl rfl

/-- The positions after a position is closed: those of another order are the same. -/
theorem closed_rows {r : PositionRow} (hr : r ∈ mid.positions.rows) (hopen : r.status = .opened)
    (hpositions : db'.positions.rows = mid.positions.rows.map fun q ↦
      if q.positionLifecycleId = r.positionLifecycleId ∧ q.status = .opened then q.close input
      else q) :
    (∀ q ∈ db'.positions.rows,
      q ∈ mid.positions.rows ∧ q.entryClientOrderId ≠ r.entryClientOrderId ∨ q = r.close input) ∧
    r.close input ∈ db'.positions.rows ∧
    ∀ q ∈ mid.positions.rows, q ≠ r → q ∈ db'.positions.rows := by
  have hrow : ∀ q ∈ mid.positions.rows,
      (q.positionLifecycleId = r.positionLifecycleId ∧ q.status = .opened) ↔ q = r := by
    intro q hq
    constructor
    · exact fun h ↦ mid.positions.eq_of_key hq hr h.1
    · rintro rfl
      exact ⟨rfl, hopen⟩
  rw [hpositions]
  refine ⟨fun q hq ↦ ?_, List.mem_map.2 ⟨r, hr, if_pos ((hrow r hr).2 rfl)⟩,
    fun q hq hne ↦ List.mem_map.2 ⟨q, hq, if_neg fun h ↦ hne ((hrow q hq).1 h)⟩⟩
  obtain ⟨s, hs, rfl⟩ := List.mem_map.1 hq
  by_cases hsr : s = r
  · rw [if_pos ((hrow s hs).2 hsr), hsr]
    exact Or.inr rfl
  · rw [if_neg fun h ↦ hsr ((hrow s hs).1 h)]
    exact Or.inl ⟨hs, fun hsame ↦ hsr (mid.positions.eq_of_clash hs hr (Or.inr hsame))⟩

/-- **An exit fill keeps the books**, if an unambiguous position is exited as a whole and its marks
begin with the average price of the entry and end with that of the exit. -/
theorem Books.exit (hbooks : Books db accounts wasShared) (hapart : Apart db)
    (hp : p ∈ db.positions.rows) (hopen : p.status = .opened)
    (hcaptured : Captured db mid observation)
    (hkey : observation.evidence.brokerSymbolKey = sqlUpper p.instrument)
    (hpositions : db'.positions.rows = mid.positions.rows.map fun q ↦
      if q.positionLifecycleId = p.positionLifecycleId ∧ q.status = .opened then q.close input else q)
    (hledger : db'.ledger = mid.ledger) (hobservations : db'.observations = mid.observations)
    (hlinks : db'.links = mid.links) (houtcomes : db'.outcomes = mid.outcomes)
    (hregular : ¬ db.Ambiguous p → p.entryQuantity = some quantity ∧
      Marked (observation :: db.exactObservations p.positionLifecycleId) p.entryPrice
        (some price)) :
    Books db' (reportExit accounts p.entryClientOrderId quantity price) wasShared ∧ Apart db' := by
  have hmid := hbooks.capture hcaptured
  obtain ⟨hid, hclient, hstatus, hinstrument, hquantity, hprice⟩ :=
    Captured.image_fields db observation p
  have himage : Captured.image db observation p ∈ mid.positions.rows :=
    hcaptured.mem_positions.2 ⟨p, hp, rfl⟩
  generalize hr : Captured.image db observation p = r at *
  rw [← hid] at hpositions
  obtain ⟨hcases, hclose, hstay⟩ := closed_rows himage (hstatus.trans hopen) hpositions
  rw [hclient] at hcases
  -- Each position is still there, or its closed form.
  have hkept : ∀ q ∈ mid.positions.rows, ∃ q' ∈ db'.positions.rows,
      q'.positionLifecycleId = q.positionLifecycleId ∧
      q'.entryClientOrderId = q.entryClientOrderId := by
    intro q hq
    by_cases hqr : q = r
    · exact ⟨_, hclose, hqr ▸ ⟨rfl, rfl⟩⟩
    · exact ⟨q, hstay q hq hqr, rfl, rfl⟩
  have hother : ∀ c, c ≠ p.entryClientOrderId →
      reportExit accounts p.entryClientOrderId quantity price c = accounts c :=
    fun c hc ↦ Function.update_of_ne hc _ _
  have hentry : ∀ c, (reportExit accounts p.entryClientOrderId quantity price c).entry =
      (accounts c).entry := by
    intro c
    by_cases hc : c = p.entryClientOrderId
    · rw [hc, reportExit, Function.update_self]
    · rw [hother c hc]
  refine ⟨?_, ?_⟩
  · constructor
    case linked =>
      rw [hlinks, hobservations]
      exact hmid.linked
    case status =>
      rw [hlinks]
      exact hmid.status
    case ledger =>
      rw [hledger]
      intro l hl id hlid
      obtain ⟨q, hq, hqid, hqclient⟩ := hmid.ledger l hl id hlid
      obtain ⟨q', hq', hsame, hsame'⟩ := hkept q hq
      exact ⟨q', hq', hsame.trans hqid, hsame'.trans hqclient⟩
    case symbols =>
      intro q hq
      rcases hcases q hq with ⟨hq, -⟩ | rfl
      · exact hmid.symbols q hq
      · exact hmid.symbols r himage
    case entry =>
      intro q hq
      rw [hentry]
      rcases hcases q hq with ⟨hq, -⟩ | rfl
      · exact hmid.entry q hq
      · exact hmid.entry r himage
    case unopened =>
      intro c hc
      rw [hentry] at hc
      obtain ⟨q, hq, hqclient⟩ := hmid.unopened c hc
      obtain ⟨q', hq', -, hsame⟩ := hkept q hq
      exact ⟨q', hq', hsame.trans hqclient⟩
    case known =>
      intro id hknown
      obtain ⟨q, hq, hqid⟩ := hmid.known id hknown
      obtain ⟨q', hq', hsame, -⟩ := hkept q hq
      exact ⟨q', hq', hsame.trans hqid⟩
    case shared =>
      intro q hq hshared
      rcases hcases q hq with ⟨hq, -⟩ | rfl
      · exact hmid.shared q hq hshared
      · exact hmid.shared r himage hshared
    case settled =>
      intro q hq hclosed hlineage
      rw [ambiguous_congr hlinks] at hlineage
      rw [exactObservations_congr hobservations hlinks]
      rcases hcases q hq with ⟨hq, hne⟩ | rfl
      · rw [hother _ hne]
        exact hmid.settled q hq hclosed hlineage
      · have hlineage' : ¬ mid.Ambiguous r := hlineage
        have hbefore : ¬ db.Ambiguous p := fun h ↦ hlineage' (hr ▸ hcaptured.ambiguous h)
        obtain ⟨hwhole, hmarked⟩ := hregular hbefore
        refine ⟨quantity, price, hquantity.trans hwhole, ?_, ?_⟩
        · change (reportExit accounts p.entryClientOrderId quantity price
            r.entryClientOrderId).exit = some (quantity, price)
          rw [hclient, reportExit, Function.update_self]
        · change Marked (mid.exactObservations r.positionLifecycleId) r.entryPrice (some price)
          rw [hid, hprice]
          exact hmarked.congr (hcaptured.exact_open hbooks hp ⟨hopen, hkey.symm⟩ (hr ▸ hlineage'))
    case outcomes =>
      rw [houtcomes]
      intro o ho
      obtain ⟨q, hq, hqid, hclosed, haccounted⟩ := hmid.outcomes o ho
      have hqr : q ≠ r := by
        rintro rfl
        rw [hstatus, hopen] at hclosed
        cases hclosed
      have hne : q.entryClientOrderId ≠ p.entryClientOrderId := fun hsame ↦
        hqr (mid.positions.eq_of_clash hq himage (Or.inr (hsame.trans hclient.symm)))
      refine ⟨q, hstay q hq hqr, hqid, hclosed, ?_⟩
      rw [hother _ hne]
      exact haccounted
  · -- The position that is closed is no longer open together with another one.
    intro q hq q' hq' htogether
    obtain ⟨hne, hqopen, hqopen', hsame⟩ := htogether
    rcases hcases q hq with ⟨hq, -⟩ | rfl
    · rcases hcases q' hq' with ⟨hq', -⟩ | rfl
      · exact hapart.capture hcaptured q hq q' hq' ⟨hne, hqopen, hqopen', hsame⟩
      · cases hqopen'
    · cases hqopen

end Exit

/-! ## Outcomes -/

section Outcomes

instance : Std.Total Observation.NotAfter where
  total a b := by
    rcases lt_trichotomy a.evidence.observedAt b.evidence.observedAt with h | h | h
    · exact Or.inl (Or.inl h)
    · rcases le_total a.observationId b.observationId with hid | hid
      · exact Or.inl (Or.inr ⟨h, hid⟩)
      · exact Or.inr (Or.inr ⟨h.symm, hid⟩)
    · exact Or.inr (Or.inl h)

instance : IsTrans Observation Observation.NotAfter where
  trans a b c := by
    rintro (hab | ⟨hab, hid⟩) (hbc | ⟨hbc, hid'⟩)
    · exact Or.inl (hab.trans hbc)
    · exact Or.inl (hbc ▸ hab)
    · exact Or.inl (hab ▸ hbc)
    · exact Or.inr ⟨hab.trans hbc, hid.trans hid'⟩

/-- Two observations that are not after each other are the same row. -/
theorem NotAfter.antisymm {a b : Observation} (ha : a ∈ db.observations.rows)
    (hb : b ∈ db.observations.rows) (hab : a.NotAfter b) (hba : b.NotAfter a) : a = b := by
  refine db.observations.eq_of_key ha hb ?_
  rcases hab with hab | ⟨hab, hid⟩
  · rcases hba with hba | ⟨hba, -⟩
    · exact absurd hba hab.asymm
    · exact absurd hab (hba ▸ lt_irrefl _)
  · rcases hba with hba | ⟨-, hid'⟩
    · exact absurd hba (hab ▸ lt_irrefl _)
    · exact le_antisymm hid hid'

theorem exactObservations_pairwise (id : String) :
    (db.exactObservations id).Pairwise Observation.NotAfter :=
  List.pairwise_insertionSort _ _

/-- The first of the observations in order is the earliest. -/
theorem head?_exactObservations {id : String} {o : Observation} {first last : Option ℚ}
    (hmarked : Marked (db.exactObservations id) first last)
    (hhead : (db.exactObservations id).head? = some o) : o.usedMark = first := by
  obtain ⟨⟨a, ha, hleast, rfl⟩, -⟩ := hmarked
  have hpairwise : (db.exactObservations id).Pairwise Observation.NotAfter :=
    exactObservations_pairwise id
  obtain ⟨rest, hrest⟩ := List.head?_eq_some_iff.1 hhead
  have ho : o ∈ db.exactObservations id := List.mem_of_mem_head? hhead
  have hoa : o.NotAfter a := by
    rw [hrest] at ha hpairwise
    rcases List.mem_cons.1 ha with rfl | ha
    · exact Or.inr ⟨rfl, le_refl _⟩
    · exact (List.pairwise_cons.1 hpairwise).1 a ha
  rw [NotAfter.antisymm (mem_exactObservations.1 ho).1 (mem_exactObservations.1 ha).1 hoa
    (hleast o ho)]

/-- The last of them is the latest. -/
theorem getLast?_exactObservations {id : String} {o : Observation} {first last : Option ℚ}
    (hmarked : Marked (db.exactObservations id) first last)
    (hlast : (db.exactObservations id).getLast? = some o) : o.usedMark = last := by
  obtain ⟨-, ⟨a, ha, hgreatest, rfl⟩⟩ := hmarked
  have hpairwise : (db.exactObservations id).Pairwise Observation.NotAfter :=
    exactObservations_pairwise id
  obtain ⟨init, hinit⟩ := List.getLast?_eq_some_iff.1 hlast
  have ho : o ∈ db.exactObservations id := List.mem_of_getLast? hlast
  have hao : a.NotAfter o := by
    rw [hinit] at ha hpairwise
    rcases List.mem_append.1 ha with ha | ha
    · exact (List.pairwise_append.1 hpairwise).2.2 a ha o (List.mem_singleton_self o)
    · rw [List.mem_singleton.1 ha]
      exact Or.inr ⟨rfl, le_refl _⟩
  rw [NotAfter.antisymm (mem_exactObservations.1 ha).1 (mem_exactObservations.1 ho).1 hao
    (hgreatest o ho)]

theorem positive_eq_some {value : Option ℚ} {v : ℚ} (h : positive value = some v) :
    value = some v := by
  rw [positive, Option.filter_eq_some_iff] at h
  exact h.1

variable [Locale] {outcomeId exitReasonCode closedAt : String}

/-- What is measured goes from the first mark to the last. -/
theorem measured_cases {m : Measured} (h : db.measured p = some m) :
    ¬ db.Ambiguous p ∧ ∃ first last,
      (db.exactObservations p.positionLifecycleId).head? = some first ∧
      (db.exactObservations p.positionLifecycleId).getLast? = some last ∧
      first.usedMark = some m.entryPrice ∧ last.usedMark = some m.exitPrice ∧
      m.measures.realizedReturn = percentReturn m.entryPrice m.exitPrice p.side := by
  rw [Db.measured] at h
  dsimp only at h
  by_cases hlineage : db.Ambiguous p
  · rw [if_pos hlineage] at h
    cases h
  · rw [if_neg hlineage] at h
    refine ⟨hlineage, ?_⟩
    generalize db.exactObservations p.positionLifecycleId = observations at *
    obtain ⟨⟨entryPrice, exitPrice⟩, hends, h⟩ := Option.bind_eq_some_iff.1 h
    obtain ⟨returns, hreturns, h⟩ := Option.bind_eq_some_iff.1 h
    obtain ⟨measures, hmeasures, h⟩ := Option.bind_eq_some_iff.1 h
    obtain rfl := Option.some_inj.1 h
    rw [endMarks] at hends
    obtain ⟨entry, hentry, hends⟩ := Option.bind_eq_some_iff.1 hends
    obtain ⟨exit, hexit, hends⟩ := Option.bind_eq_some_iff.1 hends
    split at hends
    case isFalse => cases hends
    case isTrue htwo =>
      obtain ⟨rfl, rfl⟩ := Prod.mk.inj (Option.some_inj.1 hends)
      have hentry' := positive_eq_some hentry
      have hexit' := positive_eq_some hexit
      obtain ⟨first, hfirst, hmark⟩ := Option.bind_eq_some_iff.1 hentry'
      obtain ⟨last, hlast, hmark'⟩ := Option.bind_eq_some_iff.1 hexit'
      refine ⟨first, last, hfirst, hlast, hmark, hmark', ?_⟩
      -- The last return is that of the last mark.
      have hmap := congrArg List.getLast? (map_of_mapM hreturns)
      rw [List.getLast?_map, List.getLast?_map, hlast, Option.map_some, hmark'] at hmap
      rw [hlast, Option.bind_some, hmark'] at hexit
      rw [hexit, Option.map_some] at hmap
      rw [pathMeasures] at hmeasures
      obtain ⟨top, -, hmeasures⟩ := Option.bind_eq_some_iff.1 hmeasures
      obtain ⟨bottom, -, hmeasures⟩ := Option.bind_eq_some_iff.1 hmeasures
      obtain ⟨realized, hrealized, hmeasures⟩ := Option.bind_eq_some_iff.1 hmeasures
      obtain rfl := Option.some_inj.1 hmeasures
      rw [hrealized, Option.map_some] at hmap
      exact (Option.some_inj.1 (Option.some_inj.1 hmap)).symm

/-- An outcome is complete or partial only if something was measured. -/
theorem measured_of_completeness (h : (db.completeness p).1 = .complete ∨
    (db.completeness p).1 = .partially) : ∃ m, db.measured p = some m := by
  by_contra hnone
  have hmeasured : db.measured p = none := by
    rw [Option.eq_none_iff_forall_ne_some]
    exact fun m hm ↦ hnone ⟨m, hm⟩
  rw [Db.completeness] at h
  dsimp only at h
  rw [hmeasured] at h
  split_ifs at h <;> simp_all

/-- **The outcome of a closed position accounts for it.** -/
theorem Books.accounted (hbooks : Books db accounts wasShared) (hp : p ∈ db.positions.rows)
    (hclosed : p.status = .closed) :
    Accounted (accounts p.entryClientOrderId) (wasShared p.positionLifecycleId) p
      (db.outcomeOf outcomeId exitReasonCode closedAt p) := by
  constructor
  · intro hshared
    have hlineage : db.Ambiguous p := Or.inl (hbooks.shared p hp hshared)
    have hmeasured := Db.measured_eq_none hlineage
    rw [Db.outcomeOf]
    dsimp only
    rw [hmeasured, Db.completeness]
    dsimp only
    rw [if_pos hlineage]
    exact ⟨rfl, rfl, rfl⟩
  · intro _ hcompleteness
    obtain ⟨m, hm⟩ := measured_of_completeness hcompleteness
    obtain ⟨hlineage, first, last, hfirst, hlast, hentry, hexit, hrealized⟩ := measured_cases hm
    obtain ⟨quantity, price, hquantity, haccount, hmarked⟩ := hbooks.settled p hp hclosed hlineage
    obtain ⟨q, x, hq, hx, hentered⟩ := hbooks.entry p hp
    obtain rfl : q = quantity := Option.some_inj.1 (hq.symm.trans hquantity)
    have hfirstmark := head?_exactObservations hmarked hfirst
    have hlastmark := getLast?_exactObservations hmarked hlast
    rw [hentry, hx, Option.some_inj] at hfirstmark
    rw [hexit, Option.some_inj] at hlastmark
    refine ⟨q, x, price, ?_, ?_, ?_⟩
    · rw [← hentered, ← haccount]
    · rw [Db.outcomeOf]
      dsimp only
      rw [hm, hq, Option.map_some, hfirstmark, hlastmark]
      rfl
    · rw [Db.outcomeOf]
      dsimp only
      rw [hm, Option.map_some, Option.map_some, hrealized, hfirstmark, hlastmark]

/-- **An outcome keeps the books.** -/
theorem Books.persist (hbooks : Books db accounts wasShared) (hp : p ∈ db.positions.rows)
    (hclosed : p.status = .closed) {outcomes : Table OutcomeRow}
    (hinsert : db.outcomes.insert? (db.outcomeOf outcomeId exitReasonCode closedAt p) =
      some outcomes) : Books { db with outcomes } accounts wasShared where
  linked := hbooks.linked
  status := hbooks.status
  ledger := hbooks.ledger
  symbols := hbooks.symbols
  entry := hbooks.entry
  unopened := hbooks.unopened
  known := hbooks.known
  shared := hbooks.shared
  settled := hbooks.settled
  outcomes := Table.forall_insert? hinsert hbooks.outcomes
    ⟨p, hp, rfl, hclosed, hbooks.accounted hp hclosed⟩

end Outcomes

end PaperPosition

end AlpacaTrading
