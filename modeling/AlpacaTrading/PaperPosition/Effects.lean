import AlpacaTrading.PaperPosition.Outcome

/-!
# What the calls on paper positions write

One lemma for each function says everything a successful call changes.  All of them but
`persistPaperPositionOutcome` capture an observation, so `Captured` is part of each.
-/

namespace AlpacaTrading

namespace PaperPosition

variable {db db' : Db} {newId : String}

/-! ## Captures -/

/-- The stored observation of some evidence, or the new one. -/
def Db.observationFor (db : Db) (newId : String) (evidence : Evidence) : Observation :=
  (db.observations.rows.find? fun o ↦ o.evidence = evidence).getD ⟨newId, evidence⟩

/-- The position an observation with a key belongs to. -/
def PositionRow.Possible (p : PositionRow) (brokerSymbolKey : String) : Prop :=
  p.status = .opened ∧ sqlUpper p.instrument = brokerSymbolKey

instance (p : PositionRow) (brokerSymbolKey : String) : Decidable (p.Possible brokerSymbolKey) :=
  inferInstanceAs (Decidable (_ ∧ _))

theorem mem_possiblePositions {key : String} {p : PositionRow} :
    p ∈ db.possiblePositions key ↔ p ∈ db.positions.rows ∧ p.Possible key := by
  rw [Db.possiblePositions, List.mem_filter, decide_eq_true_iff]
  rfl

/-- What the capture of an observation changes. -/
structure Captured (db db' : Db) (observation : Observation) : Prop where
  ledger : db'.ledger = db.ledger
  decisions : db'.decisions = db.decisions
  outcomes : db'.outcomes = db.outcomes
  /-- The observation is stored, under an identifier that was not in use if it is new. -/
  observations : ∀ o, o ∈ db'.observations.rows ↔ o ∈ db.observations.rows ∨ o = observation
  /-- The links that were there stay. -/
  kept : ∀ l ∈ db.links.rows, l ∈ db'.links.rows
  /-- A new link is one of the observation to a position it may belong to. -/
  added : ∀ l ∈ db'.links.rows, l ∈ db.links.rows ∨
    ∃ p ∈ db.possiblePositions observation.evidence.brokerSymbolKey,
      l = linkOf observation.observationId
        (linkageOf (db.possiblePositions observation.evidence.brokerSymbolKey).length) p
  /-- There is a link to each of them. -/
  linked : ∀ p ∈ db.possiblePositions observation.evidence.brokerSymbolKey, ∃ l ∈ db'.links.rows,
    l.observationId = observation.observationId ∧ l.positionLifecycleId = p.positionLifecycleId
  /-- Several of them become ambiguous. -/
  positions : db'.positions.rows = db.positions.rows.map fun p ↦
    if 1 < (db.possiblePositions observation.evidence.brokerSymbolKey).length ∧
        p.Possible observation.evidence.brokerSymbolKey then
      { p with linkageStatus := .ambiguousNettedPosition }
    else p

section Links

variable {links : Table ObservationLink} {link : ObservationLink} {observationId : String}
  {status : LinkageStatus}

theorem mem_insertOrIgnore {l : ObservationLink} (h : l ∈ (insertOrIgnore links link).rows) :
    l ∈ links.rows ∨ l = link := by
  rw [insertOrIgnore] at h
  rcases hinsert : links.insert? link with - | links'
  · rw [hinsert] at h
    exact Or.inl h
  · rw [hinsert, Option.getD_some, Table.rows_of_insert? hinsert, List.mem_append,
      List.mem_singleton] at h
    exact h

theorem subset_insertOrIgnore : ∀ l ∈ links.rows, l ∈ (insertOrIgnore links link).rows := by
  intro l hl
  rw [insertOrIgnore]
  rcases hinsert : links.insert? link with - | links'
  · exact hl
  · exact Table.mem_of_insert? hinsert hl

/-- A link that is not stored is one to a pair that is linked already. -/
theorem exists_insertOrIgnore : ∃ l ∈ (insertOrIgnore links link).rows,
    l.observationId = link.observationId ∧ l.positionLifecycleId = link.positionLifecycleId := by
  rw [insertOrIgnore]
  rcases hinsert : links.insert? link with - | links'
  · by_contra hnone
    push Not at hnone
    obtain ⟨t, ht⟩ := Table.insert?_isSome (t := links) (r := link) fun l hl hclash ↦ by
      obtain ⟨hobservation, hposition⟩ := Prod.mk.inj hclash
      exact hnone l hl hobservation hposition
    rw [hinsert] at ht
    cases ht
  · rw [Option.getD_some, Table.rows_of_insert? hinsert]
    exact ⟨link, List.mem_append_right _ (List.mem_singleton_self _), rfl, rfl⟩

/-- The links made for a list of positions. -/
def linkAll (observationId : String) (status : LinkageStatus) (ps : List PositionRow)
    (links : Table ObservationLink) : Table ObservationLink :=
  ps.foldl (fun links p ↦ insertOrIgnore links (linkOf observationId status p)) links

theorem subset_linkAll (ps : List PositionRow) :
    ∀ links : Table ObservationLink, ∀ l ∈ links.rows,
      l ∈ (linkAll observationId status ps links).rows := by
  induction ps with
  | nil => exact fun links l hl ↦ hl
  | cons p ps ih => exact fun links l hl ↦ ih _ l (subset_insertOrIgnore l hl)

theorem mem_linkAll (ps : List PositionRow) :
    ∀ links : Table ObservationLink, ∀ l ∈ (linkAll observationId status ps links).rows,
      l ∈ links.rows ∨ ∃ p ∈ ps, l = linkOf observationId status p := by
  induction ps with
  | nil => exact fun links l hl ↦ Or.inl hl
  | cons p ps ih =>
    intro links l hl
    rcases ih _ l hl with hl | ⟨q, hq, rfl⟩
    · rcases mem_insertOrIgnore hl with hl | rfl
      · exact Or.inl hl
      · exact Or.inr ⟨p, List.mem_cons_self, rfl⟩
    · exact Or.inr ⟨q, List.mem_cons_of_mem p hq, rfl⟩

theorem exists_linkAll (ps : List PositionRow) :
    ∀ links : Table ObservationLink, ∀ p ∈ ps,
      ∃ l ∈ (linkAll observationId status ps links).rows,
        l.observationId = observationId ∧ l.positionLifecycleId = p.positionLifecycleId := by
  induction ps with
  | nil => exact fun links p hp ↦ absurd hp List.not_mem_nil
  | cons q ps ih =>
    intro links p hp
    rcases List.mem_cons.1 hp with rfl | hp
    · obtain ⟨l, hl, hkey⟩ : ∃ l ∈ (insertOrIgnore links (linkOf observationId status p)).rows,
          l.observationId = observationId ∧ l.positionLifecycleId = p.positionLifecycleId :=
        exists_insertOrIgnore
      exact ⟨l, subset_linkAll ps _ l hl, hkey⟩
    · exact ih _ p hp

end Links

theorem observationFor_evidence (evidence : Evidence) :
    (db.observationFor newId evidence).evidence = evidence := by
  rw [Db.observationFor]
  rcases hfind : db.observations.rows.find? (fun o ↦ o.evidence = evidence) with - | o
  · rw [hfind]
    rfl
  · rw [hfind]
    simpa using List.find?_some hfind

/-- **What a capture writes.** -/
theorem captured {input : ObservationInput} {c : Capture}
    (h : capturePaperPositionObservation newId input db = .ok (db', c)) :
    Captured db db' (db.observationFor newId input.evidence) := by
  rw [capturePaperPositionObservation] at h
  dsimp only at h
  obtain ⟨observations, hobservations, h⟩ := bind_eq_ok.1 h
  obtain ⟨rfl, -⟩ := Prod.mk.inj (Except.ok.inj h)
  have hid : ((db.observations.rows.find? fun o ↦ o.evidence = input.evidence).map
      (·.observationId)).getD newId = (db.observationFor newId input.evidence).observationId :=
    Option.getD_map Observation.observationId ⟨newId, input.evidence⟩ _
  have hevidence : (db.observationFor newId input.evidence).evidence = input.evidence :=
    observationFor_evidence input.evidence
  constructor
  case ledger => rfl
  case decisions => rfl
  case outcomes => rfl
  case observations =>
    intro o
    rw [Db.observationFor]
    rcases hfind : db.observations.rows.find? (fun o ↦ o.evidence = input.evidence) with - | o'
    · rw [hfind] at hobservations ⊢
      rw [Table.rows_of_insert? (Table.insertOne_eq_ok.1 hobservations), List.mem_append,
        List.mem_singleton]
      rfl
    · rw [hfind] at hobservations ⊢
      rw [← Except.ok.inj hobservations, Option.getD_some]
      refine (or_iff_left_of_imp ?_).symm
      rintro rfl
      exact List.mem_of_find?_eq_some hfind
  case kept => exact subset_linkAll _ _
  case added =>
    rw [hevidence, ← hid]
    exact mem_linkAll _ _
  case linked =>
    rw [hevidence, ← hid]
    exact exists_linkAll _ _
  case positions =>
    rw [hevidence]
    dsimp only
    have hany : ∀ p ∈ db.positions.rows,
        (db.possiblePositions input.evidence.brokerSymbolKey).any
          (·.positionLifecycleId = p.positionLifecycleId) = true ↔
        p.Possible input.evidence.brokerSymbolKey := by
      intro p hp
      rw [List.any_eq_true]
      constructor
      · rintro ⟨q, hq, hid⟩
        obtain ⟨hq, hpossible⟩ := mem_possiblePositions.1 hq
        rwa [← db.positions.eq_of_key hq hp (of_decide_eq_true hid)]
      · exact fun hpossible ↦ ⟨p, mem_possiblePositions.2 ⟨hp, hpossible⟩, decide_eq_true rfl⟩
    have hcount : linkageOf (db.possiblePositions input.evidence.brokerSymbolKey).length =
        .ambiguousNettedPosition ↔
        1 < (db.possiblePositions input.evidence.brokerSymbolKey).length := by
      rw [linkageOf]
      split_ifs with hone hmore
      · exact iff_of_false nofun (by omega)
      · exact iff_of_true rfl hmore
      · exact iff_of_false nofun hmore
    split
    · next hlinkage =>
      refine List.map_congr_left fun p hp ↦ ?_
      simp only [hcount.1 hlinkage, hany p hp, true_and]
    · next hlinkage =>
      rw [hcount] at hlinkage
      simp only [hlinkage, false_and, if_false, List.map_id']

/-! ## Entry fills -/

/-- A ledger row with a position has the client order of that position. -/
def LedgerLinked (ledger : Table LedgerRow) (positions : Table PositionRow) : Prop :=
  ∀ l ∈ ledger.rows, ∀ id ∈ l.positionLifecycleId, ∃ p ∈ positions.rows,
    p.positionLifecycleId = id ∧ p.entryClientOrderId = l.clientOrderId

/-- The entry of a position as a fill reports it. -/
def PositionRow.filled (quantity price : ℚ) (p : PositionRow) : PositionRow :=
  { p with entryQuantity := some quantity, entryPrice := some price }

/-- What a confirmed entry fill changes, before it captures its observation. -/
inductive Fills (newLifecycleId : String) (input : EntryFillInput) (quantity price : ℚ)
    (db mid : Db) (p : PositionRow) : Prop
  /-- The position is open and the fill is not older than its last one. -/
  | updated (hp : p ∈ db.positions.rows) (hopen : p.status = .opened)
      (hquantity : p.entryQuantity.getD 0 ≤ quantity)
      (hpositions : mid.positions.rows = db.positions.rows.map fun q ↦
        if q = p then q.filled quantity price else q)
  /-- The fill opens a position. -/
  | opened (ledger : LedgerRow) (hledger : db.ledger.get? input.ledgerId = some ledger)
      (decisionId : String)
      (hp : p = newPosition newLifecycleId input quantity price ledger decisionId)
      (hnone : ∀ q ∈ db.positions.rows, q.entryClientOrderId ≠ input.clientOrderId)
      (hfresh : ∀ q ∈ db.positions.rows, q.positionLifecycleId ≠ newLifecycleId)
      (hpositions : mid.positions.rows = db.positions.rows ++ [p])

/-- What a confirmed entry fill changes. -/
inductive Reconciled (newLifecycleId newId : String) (input : EntryFillInput) (quantity price : ℚ)
    (db db' : Db) : Prop
  /-- The position is closed, or the fill is older than its last one. -/
  | stale (p : PositionRow) (hp : p ∈ db.positions.rows)
      (hclient : p.entryClientOrderId = input.clientOrderId)
      (hstale : ¬ (p.status = .opened ∧ p.entryQuantity.getD 0 ≤ quantity))
      (ledger : Table LedgerRow) (hledger : LedgerLinked ledger db.positions)
      (hdb : db' = { db with ledger })
  | captured (mid : Db) (p : PositionRow) (hclient : p.entryClientOrderId = input.clientOrderId)
      (hfills : Fills newLifecycleId input quantity price db mid p)
      (hledger : LedgerLinked mid.ledger mid.positions)
      (hobservations : mid.observations = db.observations) (hlinks : mid.links = db.links)
      (houtcomes : mid.outcomes = db.outcomes)
      (hcaptured : Captured mid db' (mid.observationFor newId
        (entryObservation input quantity price p.symbol p.optionSymbol p.assetClass).evidence))

section EntryFills

variable {newLifecycleId : String} {input : EntryFillInput} {quantity price : ℚ}

/-- Linking the row of an order to a position of that order. -/
theorem linkLedger_linked {ledger : LedgerRow} {p : PositionRow} {positions : Table PositionRow}
    (hlinked : LedgerLinked db.ledger positions) (hget : db.ledger.get? input.ledgerId = some ledger)
    (hclient : ledger.clientOrderId = input.clientOrderId) (hp : p ∈ positions.rows)
    (hpclient : p.entryClientOrderId = input.clientOrderId) :
    LedgerLinked (db.linkLedger input.ledgerId p.positionLifecycleId).ledger positions := by
  intro l hl id hid
  rw [Db.linkLedger, Table.mem_update] at hl
  obtain ⟨l₀, hl₀, rfl⟩ := hl
  split at hid
  · next hrow =>
    obtain rfl := Option.some_inj.1 hid
    rw [if_pos hrow]
    have hl₀ : l₀ = ledger :=
      db.ledger.eq_of_key hl₀ (Table.mem_of_get? hget)
        ((of_decide_eq_true hrow).1.trans (Table.key_of_get? hget).symm)
    refine ⟨p, hp, rfl, ?_⟩
    rw [hpclient, ← hclient, hl₀]
  · next hrow =>
    rw [if_neg hrow]
    exact hlinked l₀ hl₀ id hid

theorem reconcileExisting_effect {p : PositionRow} (hp : p ∈ db.positions.rows)
    (hclient : p.entryClientOrderId = input.clientOrderId)
    {ledger : Table LedgerRow} (hledger : LedgerLinked ledger db.positions)
    (h : reconcileExisting newId input quantity price p.positionLifecycleId
      { db with ledger } = .ok db') :
    Reconciled newLifecycleId newId input quantity price db db' := by
  have hget : db.positions.get? p.positionLifecycleId = some p := Table.get?_of_mem hp
  rw [reconcileExisting] at h
  dsimp only at h
  rw [hget] at h
  dsimp only at h
  split at h
  · next hfill =>
    obtain ⟨⟨db₁, c⟩, hcapture, h⟩ := bind_eq_ok.1 h
    obtain rfl := Except.ok.inj h
    have hrow : ∀ q ∈ db.positions.rows,
        (q.positionLifecycleId = p.positionLifecycleId ∧ q.status = .opened) ↔ q = p := by
      intro q hq
      constructor
      · exact fun hkey ↦ db.positions.eq_of_key hq hp hkey.1
      · rintro rfl
        exact ⟨rfl, hfill.1⟩
    have hcaptured := captured hcapture
    refine .captured _ p hclient (.updated hp hfill.1 hfill.2 ?_) ?_ ?_ ?_ ?_ hcaptured
    · refine List.map_congr_left fun q hq ↦ ?_
      simp only [hrow q hq, decide_eq_true_eq]
      rfl
    · intro l hl id hid
      obtain ⟨q, hq, hqid, hqclient⟩ := hledger l hl id hid
      refine ⟨_, List.mem_map_of_mem hq, ?_⟩
      split
      · exact ⟨hqid, hqclient⟩
      · exact ⟨hqid, hqclient⟩
    all_goals rfl
  · next hstale =>
    obtain rfl := Except.ok.inj h
    exact .stale p hp hclient hstale ledger hledger rfl

/-- **What an entry fill writes.** -/
theorem reconciled (hlinked : LedgerLinked db.ledger db.positions)
    (h : reconcilePaperEntryFill newLifecycleId newId input db = .ok db') :
    ∃ quantity price, finitePositive (some input.filledQuantity) = some quantity ∧
      finitePositive input.filledAveragePrice = some price ∧
      Reconciled newLifecycleId newId input quantity price db db' := by
  rw [reconcilePaperEntryFill] at h
  split at h
  case h_2 => cases h
  case h_1 quantity price hquantity hprice =>
    refine ⟨quantity, price, hquantity, hprice, ?_⟩
    obtain ⟨-, -, h⟩ := bind_eq_ok.1 h
    split at h
    case h_1 => cases h
    case h_2 ledger hget =>
      obtain ⟨_, hclient, h⟩ := bind_eq_ok.1 h
      replace hclient : ledger.clientOrderId = input.clientOrderId :=
        of_decide_eq_true (require_eq_ok.1 hclient)
      split at h
      case h_1 => cases h
      case h_2 decisionId hdecision =>
        obtain ⟨-, -, h⟩ := bind_eq_ok.1 h
        obtain ⟨-, -, h⟩ := bind_eq_ok.1 h
        split at h
        · next lifecycleId hlifecycle =>
          obtain ⟨p, hp, rfl, hpclient⟩ := hlinked ledger (Table.mem_of_get? hget) lifecycleId
            (truthy_eq_some.1 hlifecycle).1
          exact reconcileExisting_effect hp (hpclient.trans hclient) hlinked h
        · split at h
          · next duplicate hduplicate =>
            have hp := List.mem_of_find?_eq_some hduplicate
            have hpclient : duplicate.entryClientOrderId = input.clientOrderId := by
              simpa using List.find?_some hduplicate
            exact reconcileExisting_effect hp hpclient
              (linkLedger_linked hlinked hget hclient hp hpclient) h
          · next hnone =>
            obtain ⟨positions, hinsert, h⟩ := bind_eq_ok.1 h
            obtain ⟨⟨db₁, c⟩, hcapture, h⟩ := bind_eq_ok.1 h
            obtain rfl := Except.ok.inj h
            replace hinsert := Table.insertOne_eq_ok.1 hinsert
            have hrows := Table.rows_of_insert? hinsert
            have hcaptured := captured hcapture
            refine .captured _ _ ?_ (.opened ledger hget decisionId rfl ?_ ?_ hrows) ?_ ?_ ?_ ?_
              hcaptured
            · rfl
            · intro q hq
              simpa using List.find?_eq_none.1 hnone q hq
            · exact fun q hq hid ↦ Table.not_clash_of_insert? hinsert hq (Or.inl hid)
            · have hstill : LedgerLinked db.ledger positions := by
                intro l hl id hid
                obtain ⟨q, hq, hqid⟩ := hlinked l hl id hid
                exact ⟨q, Table.mem_of_insert? hinsert hq, hqid⟩
              have hmem : newPosition newLifecycleId input quantity price ledger decisionId ∈
                  positions.rows := by
                rw [hrows]
                exact List.mem_append_right _ (List.mem_singleton_self _)
              exact linkLedger_linked hstill hget hclient hmem rfl
            all_goals rfl

end EntryFills

/-! ## Exit fills -/

/-- A position as an exit closes it. -/
def PositionRow.close (input : ExitFillInput) (p : PositionRow) : PositionRow :=
  { p with
    terminalExitDecisionId := some input.exitDecisionId, status := .closed
    closedAt := some input.observedAt }

/-- What a confirmed exit fill changes. -/
inductive Closes (newId : String) (input : ExitFillInput) (quantity price : ℚ) (db db' : Db) : Prop
  /-- The position is closed already. -/
  | stale (p : PositionRow) (hp : db.positions.get? input.positionLifecycleId = some p)
      (hclosed : p.status = .closed) (hdb : db' = db)
  | closed (mid : Db) (p : PositionRow)
      (hp : db.positions.get? input.positionLifecycleId = some p) (hopen : p.status = .opened)
      (hcaptured : Captured db mid (db.observationFor newId
        (exitObservation input quantity price p).evidence))
      (hpositions : db'.positions.rows = mid.positions.rows.map fun q ↦
        if q.positionLifecycleId = p.positionLifecycleId ∧ q.status = .opened then q.close input
        else q)
      (hledger : db'.ledger = mid.ledger) (hobservations : db'.observations = mid.observations)
      (hlinks : db'.links = mid.links) (houtcomes : db'.outcomes = mid.outcomes)

/-- **What an exit fill writes.** -/
theorem closes {input : ExitFillInput} (h : closePaperPositionFromFill newId input db = .ok db') :
    ∃ quantity price, finitePositive (some input.filledQuantity) = some quantity ∧
      finitePositive input.filledAveragePrice = some price ∧
      Closes newId input quantity price db db' := by
  rw [closePaperPositionFromFill] at h
  split at h
  case h_2 => cases h
  case h_1 quantity price hquantity hprice =>
    refine ⟨quantity, price, hquantity, hprice, ?_⟩
    obtain ⟨-, -, h⟩ := bind_eq_ok.1 h
    split at h
    case h_1 => cases h
    case h_2 p hp =>
      split at h
      · next hclosed =>
        obtain ⟨-, -, h⟩ := bind_eq_ok.1 h
        exact .stale p hp hclosed (Except.ok.inj h).symm
      · next hopen =>
        obtain ⟨-, -, h⟩ := bind_eq_ok.1 h
        obtain ⟨⟨mid, c⟩, hcapture, h⟩ := bind_eq_ok.1 h
        obtain rfl := Except.ok.inj h
        have hstatus : p.status = .opened := by
          rcases hs : p.status with - | -
          · rfl
          · exact absurd hs hopen
        refine .closed mid p hp hstatus (captured hcapture) ?_ rfl rfl rfl rfl
        have hkey : p.positionLifecycleId = input.positionLifecycleId := Table.key_of_get? hp
        rw [hkey]
        refine List.map_congr_left fun q _ ↦ ?_
        simp only [decide_eq_true_eq]
        rfl

/-! ## Outcomes -/

/-- **What `persistPaperPositionOutcome` writes.** -/
theorem persists [Locale] {outcomeId positionLifecycleId exitReasonCode : String}
    {outcome : OutcomeRow}
    (h : persistPaperPositionOutcome outcomeId positionLifecycleId exitReasonCode db =
      .ok (db', outcome)) :
    (db' = db ∧ outcome ∈ db.outcomes.rows ∧
        outcome.positionLifecycleId = positionLifecycleId) ∨
      ∃ p closedAt outcomes, db.positions.get? positionLifecycleId = some p ∧ p.status = .closed ∧
        outcome = db.outcomeOf outcomeId exitReasonCode closedAt p ∧
        db.outcomes.insert? outcome = some outcomes ∧ db' = { db with outcomes } := by
  rw [persistPaperPositionOutcome] at h
  split at h
  · next original horiginal =>
    obtain ⟨rfl, rfl⟩ := Prod.mk.inj (Except.ok.inj h)
    exact Or.inl ⟨rfl, List.mem_of_find?_eq_some horiginal, by
      simpa using List.find?_some horiginal⟩
  · split at h
    case h_1 => cases h
    case h_2 p hp =>
      split at h
      · next closedAt hstatus hclosed =>
        obtain ⟨outcomes, houtcomes, h⟩ := bind_eq_ok.1 h
        obtain ⟨rfl, rfl⟩ := Prod.mk.inj (Except.ok.inj h)
        exact Or.inr ⟨p, closedAt, outcomes, hp, hstatus, rfl, Table.insertOne_eq_ok.1 houtcomes,
          rfl⟩
      · cases h

end PaperPosition

end AlpacaTrading
