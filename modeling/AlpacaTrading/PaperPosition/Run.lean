import AlpacaTrading.Lib.Run
import AlpacaTrading.PaperPosition.Books

/-!
# Runs over paper positions

A run takes any sequence of entry fills, observations, exit fills and outcomes.  Beside the tables
it keeps the accounts of what was reported, and which positions were open together with another one
of their instrument.

`outcomes_account` says what the outcomes of a run are worth.  Its condition is on entry and exit
fills: no entry fill corrects a position that is closed, and an exit is of the whole position, with
the marks of the position going from the average price of the entry to that of the exit.  The marks
need not: every later fill of the entry is a mark of its own with the average price so far, and an
observation may be stamped before the entry or after the exit.
-/

namespace AlpacaTrading

namespace PaperPosition

/-! ## Steps -/

/-- A call. -/
inductive Act where
  | fill (newLifecycleId newId : String) (input : EntryFillInput)
  | observe (newId : String) (input : ObservationInput)
  | exit (newId : String) (input : ExitFillInput)
  | persist (outcomeId positionLifecycleId exitReasonCode : String)

/-- What a call makes of the tables. -/
def Act.run [Locale] (db : Db) : Act → Except String Db
  | fill newLifecycleId newId input => reconcilePaperEntryFill newLifecycleId newId input db
  | observe newId input => (capturePaperPositionObservation newId input db).map (·.1)
  | exit newId input => closePaperPositionFromFill newId input db
  | persist outcomeId positionLifecycleId exitReasonCode =>
    (persistPaperPositionOutcome outcomeId positionLifecycleId exitReasonCode db).map (·.1)

/-- The tables, what was reported of the client orders, and the positions that were open together
with another one of their instrument. -/
structure World where
  db : Db
  accounts : String → Account := fun _ ↦ {}
  wasShared : String → Bool := fun _ ↦ false

/-- The accounts after a call that succeeds. -/
def World.reported (w : World) : Act → String → Account
  | .fill _ _ input =>
    match finitePositive (some input.filledQuantity), finitePositive input.filledAveragePrice with
    | some quantity, some price => reportEntry w.accounts input.clientOrderId quantity price
    | _, _ => w.accounts
  | .exit _ input =>
    match w.db.positions.get? input.positionLifecycleId,
      finitePositive (some input.filledQuantity), finitePositive input.filledAveragePrice with
    | some p, some quantity, some price =>
      if p.status = .opened then reportExit w.accounts p.entryClientOrderId quantity price
      else w.accounts
    | _, _, _ => w.accounts
  | _ => w.accounts

/-- A position is open together with another one. -/
def Db.shared (db : Db) (lifecycleId : String) : Bool :=
  db.positions.rows.any fun p ↦ p.positionLifecycleId = lifecycleId &&
    db.positions.rows.any fun q ↦ decide (Together p q)

/-- A call that throws changes nothing. -/
def World.step [Locale] (a : Act) (w : World) : Option World :=
  match a.run w.db with
  | .error _ => some w
  | .ok db => some {
      db
      accounts := w.reported a
      wasShared := fun id ↦ w.wasShared id || db.shared id }

/-- Before the first call there are orders and decisions only, and no order has a position. -/
structure World.Initial (w : World) : Prop where
  positions : w.db.positions.rows = []
  observations : w.db.observations.rows = []
  links : w.db.links.rows = []
  outcomes : w.db.outcomes.rows = []
  ledger : ∀ l ∈ w.db.ledger.rows, l.positionLifecycleId = none
  accounts : ∀ c, w.accounts c = {}
  wasShared : ∀ id, w.wasShared id = false

/-! ## The condition -/

/-- The condition on a call.  The symbol of an order that is filled has one upper-case form, and the
fill does not correct a closed position.  An exit from a position with an unambiguous lineage is of
the whole position, and the marks of the position, that of the exit among them, go from the average
price of the entry to that of the exit. -/
def Regular (w : World) : Act → Prop
  | .fill _ _ input =>
    (∀ l ∈ w.db.ledger.get? input.ledgerId, Text.toUpperCase l.symbol = sqlUpper l.symbol) ∧
      ∀ p ∈ w.db.positions.rows, p.entryClientOrderId = input.clientOrderId → p.status = .closed →
        ∀ quantity ∈ finitePositive (some input.filledQuantity),
          ∀ price ∈ finitePositive input.filledAveragePrice,
            p.entryQuantity.getD 0 ≤ quantity →
              p.entryQuantity = some quantity ∧ p.entryPrice = some price
  | .exit newId input =>
    ∀ p ∈ w.db.positions.get? input.positionLifecycleId, p.status = .opened →
      ¬ w.db.Ambiguous p →
        ∀ quantity ∈ finitePositive (some input.filledQuantity),
          ∀ price ∈ finitePositive input.filledAveragePrice,
            p.entryQuantity = some quantity ∧
              Marked (w.db.observationFor newId (exitObservation input quantity price p).evidence ::
                w.db.exactObservations p.positionLifecycleId) p.entryPrice (some price)
  | _ => True

/-! ## The invariant -/

/-- The books are kept, and positions that are open together are ambiguous. -/
structure World.Sound (w : World) : Prop where
  books : Books w.db w.accounts w.wasShared
  apart : Apart w.db

theorem World.Initial.sound {w : World} (h : w.Initial) : w.Sound := by
  have hnil : ∀ {α : Type} {l : List α} {P : α → Prop}, l = [] → ∀ x ∈ l, P x := by
    rintro α l P rfl x hx
    cases hx
  refine ⟨?_, hnil h.positions⟩
  constructor
  case linked => exact hnil h.links
  case status => exact hnil h.links
  case ledger =>
    intro l hl id hid
    rw [h.ledger l hl] at hid
    cases hid
  case symbols => exact hnil h.positions
  case entry => exact hnil h.positions
  case unopened =>
    intro c hc
    rw [h.accounts] at hc
    exact absurd rfl hc
  case known =>
    intro id hid
    rw [h.wasShared] at hid
    cases hid
  case shared => exact hnil h.positions
  case settled => exact hnil h.positions
  case outcomes => exact hnil h.outcomes

/-- What is shared now is known from the positions. -/
theorem shared_eq_true {db : Db} {id : String} (h : db.shared id = true) :
    ∃ p ∈ db.positions.rows, p.positionLifecycleId = id ∧ ∃ q ∈ db.positions.rows,
      Together p q := by
  rw [Db.shared, List.any_eq_true] at h
  obtain ⟨p, hp, h⟩ := h
  rw [Bool.and_eq_true, decide_eq_true_iff, List.any_eq_true] at h
  obtain ⟨hid, q, hq, htogether⟩ := h
  exact ⟨p, hp, hid, q, hq, of_decide_eq_true htogether⟩

/-- The books stay as they are when the positions that are open together are noted. -/
theorem Books.note {db : Db} {accounts : String → Account} {wasShared : String → Bool}
    (hbooks : Books db accounts wasShared) (hapart : Apart db) :
    Books db accounts fun id ↦ wasShared id || db.shared id where
  linked := hbooks.linked
  status := hbooks.status
  ledger := hbooks.ledger
  symbols := hbooks.symbols
  entry := hbooks.entry
  unopened := hbooks.unopened
  known id hid := by
    rcases Bool.or_eq_true_iff.1 hid with hid | hid
    · exact hbooks.known id hid
    · obtain ⟨p, hp, hpid, -⟩ := shared_eq_true hid
      exact ⟨p, hp, hpid⟩
  shared p hp hid := by
    rcases Bool.or_eq_true_iff.1 hid with hid | hid
    · exact hbooks.shared p hp hid
    · obtain ⟨q, hq, hqid, r, hr, htogether⟩ := shared_eq_true hid
      rw [← db.positions.eq_of_key hq hp hqid]
      exact hapart q hq r hr htogether
  settled := hbooks.settled
  outcomes o ho := by
    obtain ⟨p, hp, hpid, hclosed, haccounted⟩ := hbooks.outcomes o ho
    have hnot : db.shared p.positionLifecycleId = false := by
      rw [Bool.eq_false_iff]
      intro hshared
      obtain ⟨q, hq, hqid, r, hr, htogether⟩ := shared_eq_true hshared
      have hopen := htogether.2.1
      rw [db.positions.eq_of_key hq hp hqid, hclosed] at hopen
      cases hopen
    refine ⟨p, hp, hpid, hclosed, ?_⟩
    rw [hnot, Bool.or_false]
    exact haccounted

section Step

variable [Locale] {w w' : World} {a : Act}

/-- The books after a call that succeeds. -/
theorem World.Sound.run (hsound : w.Sound) (hregular : Regular w a) {db : Db}
    (hrun : a.run w.db = .ok db) : Books db (w.reported a) w.wasShared ∧ Apart db := by
  obtain ⟨hbooks, hapart⟩ := hsound
  rcases a with ⟨newLifecycleId, newId, input⟩ | ⟨newId, input⟩ | ⟨newId, input⟩ |
    ⟨outcomeId, positionLifecycleId, exitReasonCode⟩
  · obtain ⟨quantity, price, hquantity, hprice, heffect⟩ := reconciled hbooks.ledger hrun
    obtain ⟨hsymbol, hcorrects⟩ := hregular
    rw [World.reported, hquantity, hprice]
    dsimp only
    rcases heffect with ⟨p, hp, hclient, hstale, ledger, hledger, rfl⟩ |
      ⟨mid, p, hclient, hfills, hledger, hobservations, hlinks, houtcomes, hcaptured⟩
    · have hsame : reportEntry w.accounts input.clientOrderId quantity price = w.accounts := by
        obtain ⟨q, x, hq, hx, hentry⟩ := hbooks.entry p hp
        rw [hclient] at hentry
        refine reportEntry_stale hentry fun hle ↦ ?_
        rcases hstatus : p.status with - | -
        · exact absurd ⟨hstatus, by rwa [hq]⟩ hstale
        · obtain ⟨hquantity', hprice'⟩ := hcorrects p hp hclient hstatus quantity hquantity price
            hprice (by rwa [hq])
          rw [hq, Option.some_inj] at hquantity'
          rw [hx, Option.some_inj] at hprice'
          exact ⟨hquantity', hprice'⟩
      rw [hsame]
      exact ⟨⟨hbooks.linked, hbooks.status, hledger, hbooks.symbols, hbooks.entry, hbooks.unopened,
        hbooks.known, hbooks.shared, hbooks.settled, hbooks.outcomes⟩, hapart⟩
    · have hmid := hbooks.fill hclient hfills hledger hobservations hlinks houtcomes hsymbol
      obtain ⟨-, -, hmem, -⟩ := hfills.cases hbooks hclient
      have hsymbol' := hmid.symbols _ hmem
      rw [filled_instrument] at hsymbol'
      exact ⟨hmid.capture hcaptured, hapart.fill hbooks hclient hfills hcaptured
        (entryObservation_key newId hsymbol')⟩
  · rw [Act.run] at hrun
    obtain ⟨⟨db', c⟩, hcapture, rfl⟩ := exceptMap_eq_ok.1 hrun
    exact ⟨hbooks.capture (captured hcapture), hapart.capture (captured hcapture)⟩
  · obtain ⟨quantity, price, hquantity, hprice, heffect⟩ := closes hrun
    rw [World.reported, hquantity, hprice]
    rcases heffect with ⟨p, hp, hclosed, rfl⟩ |
      ⟨mid, p, hp, hopen, hcaptured, hpositions, hledger, hobservations, hlinks, houtcomes⟩
    · rw [hp]
      dsimp only
      rw [if_neg (by rw [hclosed]; decide)]
      exact ⟨hbooks, hapart⟩
    · rw [hp]
      dsimp only
      rw [if_pos hopen]
      have hmem := Table.mem_of_get? hp
      refine hbooks.exit hapart hmem hopen hcaptured ?_ hpositions hledger hobservations hlinks
        houtcomes fun hlineage ↦ hregular p hp hopen hlineage quantity hquantity price hprice
      rw [observationFor_evidence, ← hbooks.symbols p hmem]
      rfl
  · rw [Act.run] at hrun
    obtain ⟨⟨db', outcome⟩, hpersist, rfl⟩ := exceptMap_eq_ok.1 hrun
    rcases persists hpersist with ⟨rfl, -⟩ |
      ⟨p, closedAt, outcomes, hp, hclosed, rfl, hinsert, rfl⟩
    · exact ⟨hbooks, hapart⟩
    · exact ⟨hbooks.persist (Table.mem_of_get? hp) hclosed hinsert, hapart⟩

/-- An outcome that is written stays. -/
theorem World.Sound.outcome_stays (hsound : w.Sound) {db : Db} (hrun : a.run w.db = .ok db)
    {o : OutcomeRow} (ho : o ∈ w.db.outcomes.rows) : o ∈ db.outcomes.rows := by
  rcases a with ⟨newLifecycleId, newId, input⟩ | ⟨newId, input⟩ | ⟨newId, input⟩ |
    ⟨outcomeId, positionLifecycleId, exitReasonCode⟩
  · obtain ⟨quantity, price, -, -, heffect⟩ := reconciled hsound.books.ledger hrun
    rcases heffect with ⟨p, -, -, -, ledger, -, rfl⟩ | ⟨mid, p, -, -, -, -, -, houtcomes, hcaptured⟩
    · exact ho
    · rwa [hcaptured.outcomes, houtcomes]
  · obtain ⟨⟨db', c⟩, hcapture, rfl⟩ := exceptMap_eq_ok.1 hrun
    rwa [(captured hcapture).outcomes]
  · obtain ⟨quantity, price, -, -, heffect⟩ := closes hrun
    rcases heffect with ⟨p, -, -, rfl⟩ | ⟨mid, p, -, -, hcaptured, -, -, -, -, houtcomes⟩
    · exact ho
    · rwa [houtcomes, hcaptured.outcomes]
  · obtain ⟨⟨db', outcome⟩, hpersist, rfl⟩ := exceptMap_eq_ok.1 hrun
    rcases persists hpersist with ⟨rfl, -⟩ | ⟨p, closedAt, outcomes, -, -, -, hinsert, rfl⟩
    · exact ho
    · exact Table.mem_of_insert? hinsert ho

theorem World.step_cases (h : World.step a w = some w') :
    w' = w ∨ ∃ db, a.run w.db = .ok db ∧ w' = {
      db
      accounts := w.reported a
      wasShared := fun id ↦ w.wasShared id || db.shared id } := by
  rw [World.step] at h
  split at h
  · exact Or.inl (Option.some_inj.1 h).symm
  · next db hrun => exact Or.inr ⟨db, hrun, (Option.some_inj.1 h).symm⟩

/-- What one call keeps. -/
theorem World.Sound.step (hsound : w.Sound) (hregular : Regular w a)
    (h : World.step a w = some w') : w'.Sound := by
  rcases World.step_cases h with rfl | ⟨db, hrun, rfl⟩
  · exact hsound
  · obtain ⟨hbooks, hapart⟩ := hsound.run hregular hrun
    exact ⟨hbooks.note hapart, hapart⟩

/-- What a run keeps of an outcome. -/
theorem World.Sound.outcome_of_run {later : List Act} (hsound : w.Sound)
    (hregular : Guarded World.step Regular w later) (hrun : runActs World.step w later = some w')
    {o : OutcomeRow} (ho : o ∈ w.db.outcomes.rows) : o ∈ w'.db.outcomes.rows := by
  have hinvariant : w'.Sound ∧ o ∈ w'.db.outcomes.rows := by
    refine invariant_of_guarded (I := fun w ↦ w.Sound ∧ o ∈ w.db.outcomes.rows)
      (fun s a s' hI hguard hstep ↦ ⟨hI.1.step hguard hstep, ?_⟩) ⟨hsound, ho⟩ hregular hrun
    rcases World.step_cases hstep with rfl | ⟨db, hcall, rfl⟩
    · exact hI.2
    · exact hI.1.outcome_stays hcall hI.2
  exact hinvariant.2

/-- The outcome of a position is not computed again. -/
theorem persist_again {db : Db} {o : OutcomeRow} (ho : o ∈ db.outcomes.rows)
    (outcomeId exitReasonCode : String) :
    persistPaperPositionOutcome outcomeId o.positionLifecycleId exitReasonCode db = .ok (db, o) := by
  have hfind : db.outcomes.rows.find? (·.positionLifecycleId = o.positionLifecycleId) = some o := by
    have hsome : (db.outcomes.rows.find?
        (·.positionLifecycleId = o.positionLifecycleId)).isSome := by
      rw [List.find?_isSome]
      exact ⟨o, ho, decide_eq_true rfl⟩
    obtain ⟨original, horiginal⟩ := Option.isSome_iff_exists.1 hsome
    have hsame : original.positionLifecycleId = o.positionLifecycleId := by
      simpa using List.find?_some horiginal
    rw [horiginal, db.outcomes.eq_of_clash (List.mem_of_find?_eq_some horiginal) ho (Or.inr hsame)]
  rw [persistPaperPositionOutcome, hfind]

/-- **Outcomes account for their positions.**  In every run whose calls all meet the condition, an
outcome of a position that was open together with another one of its instrument is ambiguous and has
no profit; any other one that is complete or partial has the profit and the return of the exit
against the average price of the entry, on the whole position; and whatever follows, asking for the
outcome again gives the same one. -/
theorem outcomes_account {w₁ w₂ : World} {acts later : List Act} (hinit : w.Initial)
    (hregular : Guarded World.step Regular w (acts ++ later))
    (hrun : runActs World.step w acts = some w₁) (hlater : runActs World.step w₁ later = some w₂) :
    ∀ o ∈ w₁.db.outcomes.rows,
      (∃ p ∈ w₁.db.positions.rows, p.positionLifecycleId = o.positionLifecycleId ∧
        Accounted (w₁.accounts p.entryClientOrderId) (w₁.wasShared p.positionLifecycleId) p o) ∧
      ∀ outcomeId exitReasonCode,
        persistPaperPositionOutcome outcomeId o.positionLifecycleId exitReasonCode w₂.db =
          .ok (w₂.db, o) := by
  obtain ⟨hbefore, hafter⟩ := hregular.append hrun
  have hsound : w₁.Sound :=
    invariant_of_guarded (fun _ _ _ hI hguard hstep ↦ World.Sound.step hI hguard hstep) hinit.sound
      hbefore hrun
  intro o ho
  obtain ⟨p, hp, hid, -, haccounted⟩ := hsound.books.outcomes o ho
  exact ⟨⟨p, hp, hid, haccounted⟩,
    persist_again (hsound.outcome_of_run hafter hlater ho)⟩

end Step

/-! ## Runs of one position -/

/-- The condition can be evaluated. -/
instance (w : World) : DecidablePred (Regular w)
  | .fill _ _ input =>
    inferInstanceAs (Decidable (
      (∀ l ∈ w.db.ledger.get? input.ledgerId, Text.toUpperCase l.symbol = sqlUpper l.symbol) ∧
        ∀ p ∈ w.db.positions.rows, p.entryClientOrderId = input.clientOrderId →
          p.status = .closed → ∀ quantity ∈ finitePositive (some input.filledQuantity),
            ∀ price ∈ finitePositive input.filledAveragePrice,
              p.entryQuantity.getD 0 ≤ quantity →
                p.entryQuantity = some quantity ∧ p.entryPrice = some price))
  | .exit newId input =>
    inferInstanceAs (Decidable (∀ p ∈ w.db.positions.get? input.positionLifecycleId,
      p.status = .opened → ¬ w.db.Ambiguous p →
        ∀ quantity ∈ finitePositive (some input.filledQuantity),
          ∀ price ∈ finitePositive input.filledAveragePrice,
            p.entryQuantity = some quantity ∧
              Marked (w.db.observationFor newId (exitObservation input quantity price p).evidence ::
                w.db.exactObservations p.positionLifecycleId) p.entryPrice (some price)))
  | .observe _ _ => isTrue trivial
  | .persist _ _ _ => isTrue trivial

namespace Specimen

/-- An order for shares, the decision behind it and that behind the exit. -/
def start : World where
  db := {
    ledger := .ofRows [{
      id := 1, assetClass := "equity", symbol := "XYZ", side := some "buy"
      clientOrderId := "client", decisionId := some "entry", decisionLinkageStatus := .exact }]
    decisions := .ofRows [
      { decisionId := "entry", decisionRole := "entry" },
      { decisionId := "exit", decisionRole := "exit" }] }

/-- The order is filled to some quantity. -/
def fills (observationId observedAt status : String) (quantity price : ℚ) : Act :=
  .fill "lifecycle" observationId {
    ledgerId := 1, brokerOrderId := "order", clientOrderId := "client", status
    filledQuantity := .finite quantity, filledAveragePrice := some (.finite price), observedAt }

/-- A mark of the position. -/
def marks (observationId observedAt : String) (mark : ℚ) : Act :=
  .observe observationId {
    brokerSymbolKey := "xyz", symbol := "xyz", optionSymbol := none, observedAt
    mark := some (.finite mark), dataQualityStatus := "COMPLETE" }

/-- The position is exited. -/
def exits (observationId observedAt : String) (quantity price : ℚ) : Act :=
  .exit observationId {
    positionLifecycleId := "lifecycle", exitDecisionId := "exit", brokerOrderId := "exitOrder"
    status := "filled", filledQuantity := .finite quantity
    filledAveragePrice := some (.finite price), observedAt, exitReasonCode := "TARGET" }

/-- The outcome is asked for. -/
def persists : Act := .persist "outcome" "lifecycle" "TARGET"

/-- Ten shares at 10, a mark, and an exit at 12. -/
def plain : List Act :=
  [fills "first" "2026-01-05T15:00:00.000Z" "filled" 10 10,
    marks "second" "2026-01-05T15:00:01.000Z" 11,
    exits "third" "2026-01-05T15:00:02.000Z" 10 12, persists]

/-- Five shares at 10, ten at 11 on average, and an exit at 12. -/
def averaged : List Act :=
  [fills "first" "2026-01-05T15:00:00.000Z" "partially_filled" 5 10,
    fills "second" "2026-01-05T15:00:01.000Z" "filled" 10 11,
    exits "third" "2026-01-05T15:00:02.000Z" 10 12, persists]

/-- The completeness, profit and return of the outcomes, the account, and whether the position was
shared. -/
def summary (w : World) :
    List (CompletenessStatus × Option ℚ × Option ℚ) × Account × Bool :=
  (w.db.outcomes.rows.map fun o ↦ (o.completenessStatus, o.realizedPnl, o.realizedReturnPct),
    w.accounts "client", w.wasShared "lifecycle")

theorem start_initial : start.Initial where
  positions := rfl
  observations := rfl
  links := rfl
  outcomes := rfl
  ledger := by decide
  accounts _ := rfl
  wasShared _ := rfl

end Specimen

/-- The theorem at the specimen. -/
theorem plain_account :
    let _ := Specimen.clock
    ∃ w₁, runActs World.step Specimen.start Specimen.plain = some w₁ ∧
      ∀ o ∈ w₁.db.outcomes.rows,
        (∃ p ∈ w₁.db.positions.rows, p.positionLifecycleId = o.positionLifecycleId ∧
          Accounted (w₁.accounts p.entryClientOrderId) (w₁.wasShared p.positionLifecycleId) p o) ∧
        ∀ outcomeId exitReasonCode,
          persistPaperPositionOutcome outcomeId o.positionLifecycleId exitReasonCode w₁.db =
            .ok (w₁.db, o) := by
  intro _
  have hsome : (runActs World.step Specimen.start Specimen.plain).isSome = true := by
    decide +kernel
  obtain ⟨w₁, hrun⟩ := Option.isSome_iff_exists.1 hsome
  have hregular : Guarded World.step Regular Specimen.start (Specimen.plain ++ []) := by
    decide +kernel
  exact ⟨w₁, hrun, outcomes_account Specimen.start_initial hregular hrun rfl⟩

/-- The order is filled in two steps, and the profit is taken from the price of the first one: it is
20 instead of 10. -/
theorem averaged_profit :
    let _ := Specimen.clock
    Specimen.start.Initial ∧
    (runActs World.step Specimen.start Specimen.averaged).map Specimen.summary =
      some ([(.partially, some 20, some 20)],
        { entry := some (10, 11), exit := some (10, 12) }, false) ∧
    sign .long * ((12 : ℚ) - 11) * 10 * multiplier .equity = 10 :=
  ⟨Specimen.start_initial, by decide +kernel, by decide +kernel⟩

end PaperPosition

end AlpacaTrading
