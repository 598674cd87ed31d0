import AlpacaTrading.Reconciliation.Inversion
import AlpacaTrading.Execution.Effects

/-!
# Reconciliation as steps of the machine

Each statement of reconciliation is one step of the abstract machine, whatever its verdict: an
error the service throws after the commit changes nothing any more.  The loop over the targets is
then a sequence of such steps, in which the rows read at its start stay known.
-/

namespace AlpacaTrading

/-! ## Observation -/

section Observation

variable {db db' : Db} {session : Session} {target : Target} {obs : Observation}

/-- The move of an observed intent. -/
theorem observed_moves {i : Intent} (submittedAt : Option Time) (now : Time)
    (hknown : Known db target.intent target.reviewType) (hobs : Observed target obs)
    (hlocked : lockedIntent db session target.intent.id = some i)
    (hhead : obs.path.head? = some i.lifecycleState) :
    Follows db i (i.observe obs submittedAt now) ∧ Moves db i (i.observe obs submittedAt now) := by
  obtain ⟨hget, hstatus⟩ := lockedIntent_some hlocked
  obtain ⟨_, _, _, hkind⟩ := hknown.stored hget
  have hstate : target.intent.lifecycleState = i.lifecycleState :=
    Option.some_inj.1 (hobs.head.symm.trans hhead)
  have htype : i.kind db = some .entry → target.reviewType = .entry := fun he ↦
    Option.some_inj.1 (hkind.symm.trans he)
  refine ⟨⟨rfl, rfl, fun he hexit ↦ ?_⟩, ?_⟩
  · rw [← hstate]
    exact hobs.entry_state (htype he) hexit
  · by_cases hterm : obs.status ∈ terminalStatuses
    · refine .finish hstatus ?_ (fun he ↦ hobs.entry_final (htype he) hterm) fun he hended ↦ ?_
      · simp [Intent.observe, Observation.intentStatus, hterm]
      · rw [← hstate] at hended ⊢
        exact hobs.entry_ended (htype he) hended
    · refine .observe hstatus ?_ fun he ↦ ?_
      · simp [Intent.observe, Observation.intentStatus, hterm]
      · rw [← hstate]
        exact hobs.entry_open (htype he) hterm

variable [Hashing] {now : Time}

/-- A stored observation, given what the resize did to the ledger. -/
theorem storeObservation_moves {i : Intent} {resized : Option Resize} {counts : ObserveCounts}
    (hknown : Known db target.intent target.reviewType) (hobs : Observed target obs)
    (hlocked : lockedIntent db session target.intent.id = some i)
    (hhead : obs.path.head? = some i.lifecycleState)
    (h : storeObservation db target obs now resized = .ok (db', counts)) :
    Grows db db' ∧ IntentsMove db db' ∧
      ∃ orders db₁, applyResize { db with orders } now resized = .ok db₁ ∧ SameLedger db₁ db' := by
  obtain ⟨order, orders, orderId, db₁, transitions, _, _, hres, _, hcase⟩ := storeObservation_ok h
  have hframe : db₁.intents = db.intents ∧ db₁.events = db.events ∧ db₁.reviews = db.reviews := by
    cases resized with
    | none =>
      rw [applyResize_none hres]
      exact ⟨rfl, rfl, rfl⟩
    | some z =>
      obtain ⟨_, rfl⟩ := applyResize_some hres
      exact ⟨rfl, rfl, rfl⟩
  obtain ⟨hintents, hevents, hreviews⟩ := hframe
  have hget := (lockedIntent_some hlocked).1
  have hid : i.id = target.intent.id := Table.key_of_get? hget
  rcases hcase with ⟨_, events, hkeep, rfl⟩ | ⟨_, rfl⟩
  · obtain ⟨hfollows, hmoves⟩ := observed_moves order.submittedAt now hknown hobs hlocked
      hhead
    refine ⟨⟨fun e he ↦ hkeep e (by rwa [hevents]), fun id r hr ↦ ⟨r, by rwa [hreviews], rfl⟩⟩,
      ?_, orders, db₁, hres, ⟨rfl, rfl, rfl⟩⟩
    refine .of_modify (Intent.observe_keeps obs order.submittedAt now) (hid ▸ hget) ?_ hfollows
      hmoves
    rw [hintents, hid]
  · exact ⟨.of_eq hevents hreviews, .of_eq hintents, orders, db₁, hres, ⟨rfl, rfl, rfl⟩⟩

/-- An observation is a step of the machine: the intent moves, and for a partial fill the
reservation shrinks by what the counters move. -/
theorem observe_effect {result : Except String Bool}
    (hknown : Known db target.intent target.reviewType) (hobs : Observed target obs)
    (h : observe db session target obs now = (db', result)) : Effect db db' := by
  rcases observe_cases h with ⟨rfl, _⟩ | ⟨counts, hstmt, _, _⟩ |
    ⟨id, filled, ordered, counts, _, _, hq, hstmt, _⟩
  · exact .refl db'
  · rcases observeStatement_ok hstmt with ⟨rfl, _⟩ | ⟨i, hlocked, hhead, hstore⟩
    · exact .refl db'
    · obtain ⟨hgrows, hmoves, orders, db₁, hres, hsame⟩ :=
        storeObservation_moves hknown hobs hlocked hhead hstore
      rw [applyResize_none hres] at hsame
      exact ⟨hgrows, .moves hmoves ⟨hsame.1, hsame.2, hsame.3⟩⟩
  · rcases partialStatement_ok hstmt with ⟨rfl, _⟩ | ⟨i, resized, hlocked, hhead, hstore, hcase⟩
    · exact .refl db'
    · obtain ⟨hgrows, hmoves, orders, db₁, hres, hsame⟩ :=
        storeObservation_moves hknown hobs hlocked hhead hstore
      refine ⟨hgrows, ?_⟩
      rcases hcase with ⟨rfl, _⟩ | ⟨z, r, rfl, hpos, hlock, hresize⟩
      · rw [applyResize_none hres] at hsame
        exact .moves hmoves ⟨hsame.1, hsame.2, hsame.3⟩
      · obtain ⟨rfl, _, hsettled, _, _, a, ha, hserves, _⟩ := resize?_some hresize
        obtain ⟨hrget, hlive⟩ := lockedReservation_some hlock
        obtain rfl : z.reservation.id = id := Table.key_of_get? hrget
        obtain ⟨hrem, rfl⟩ := applyResize_some hres
        rw [hsettled] at hpos
        refine @Routine.resize db db' z.reservation z.remaining hmoves
          ⟨hrget, hlive, hrem, by linarith, ⟨now, hsame.1⟩, ⟨a, ha, hserves⟩, ⟨now, ?_⟩, hsame.3⟩
        rw [hsame.2, hsettled]

end Observation

/-! ## Settlement -/

section Settlement

variable [Hashing] {db db' : Db} {session : Session} {target : Target} {obs : Observation}
  {now : Time}

omit [Hashing] in
/-- A settlement either finds its amount covered by the counter, or the counter falls short. -/
theorem settlementKind_some {i : Intent} {r : Reservation} {kind : SettlementKind}
    (h : settlementKind db i r = some kind) :
    ∃ a ∈ db.allocations.rows, a.serves r.accountId r.strategyKey ∧
      (kind = .fresh ∧ r.amount ≤ a.reservedAmount ∨
        kind = .legacyUnrepresented ∧ a.reservedAmount < r.amount) := by
  unfold settlementKind at h
  rw [Option.bind_eq_bind, Option.bind_eq_some_iff] at h
  obtain ⟨a, ha, h⟩ := h
  obtain ⟨hmem, hserves⟩ := currentAllocation_eq_some.1 ha
  refine ⟨a, hmem, hserves, ?_⟩
  split at h
  · next hle =>
    cases h
    exact Or.inl ⟨rfl, hle⟩
  · next hlt =>
    split at h
    · cases h
      exact Or.inr ⟨rfl, not_le.1 hlt⟩
    · cases h

theorem settle_effect {result : Except String Unit}
    (hknown : Known db target.intent target.reviewType)
    (h : settle db session target obs now = (db', result)) : Effect db db' := by
  rcases settle_cases h with ⟨id, kind, hid, _, hstmt⟩ | ⟨rfl, _⟩
  · obtain ⟨i, r, transitions, hget, hstatus, hrget, hlive, hkind, hins, rfl⟩ :=
      settleStatement_settled hstmt
    obtain ⟨_, _, hres, _⟩ := hknown.stored hget
    have hiid : i.id = target.intent.id := Table.key_of_get? hget
    rw [← hiid] at hget
    obtain rfl : r.id = id := Table.key_of_get? hrget
    refine ⟨.of_eq rfl rfl, .settle rfl hget hstatus (hres.trans hid)
      ⟨hrget, hlive, ⟨.released, _, now, rfl, rfl⟩, ?_, fun t ht ↦ ?_⟩⟩
    · obtain ⟨a, ha, hserves, ⟨rfl, _⟩ | ⟨rfl, hlt⟩⟩ := settlementKind_some hkind
      · exact Or.inl ⟨_, _, now, fun x hx ↦ max_eq_right (by linarith), rfl⟩
      · exact Or.inr ⟨rfl, a, ha, hserves, hlt⟩
    · rw [Table.rows_of_insert? hins, List.mem_append, List.mem_singleton] at ht
      refine ht.imp id fun heq ↦ ?_
      rw [heq]
      rfl
  · exact .refl db'

/-! ## Absence -/

omit [Hashing] in
theorem reserved_eq_false {i : Intent}
    (h : (i.reservationId.bind fun id ↦ lockedReservation db id) = none) :
    i.reserved db = false := by
  unfold Intent.reserved
  cases hid : i.reservationId with
  | none => rfl
  | some id =>
    rw [hid, Option.bind_some] at h
    unfold lockedReservation at h
    unfold liveReservation
    rw [Option.any_some]
    cases hr : db.reservations.get? id with
    | none => rfl
    | some r =>
      rw [hr, Option.filter_eq_none_iff] at h
      simpa using h r rfl

omit [Hashing] in
/-- The intent fails and its reservation, if it is live, is released. -/
theorem releaseAbsent_effect (now : Time) {event : BrokerEvent} {events : Table BrokerEvent}
    {i : Intent}
    (hins : db.events.insert? event = some events) (hget : db.intents.get? i.id = some i)
    (hstatus : i.status ∈ [.readyForSubmission, .submissionPending, .ambiguous]) :
    Effect db (releaseAbsent
      { db with
        events
        intents := db.intents.modify i.id (Intent.failAbsent now) (Intent.failAbsent_keeps now) }
      i.reservationId now).1 := by
  have hdead : (i.failAbsent now).status ∈ deadStatuses := by
    simp [Intent.failAbsent, deadStatuses]
  unfold releaseAbsent
  split
  · next hnone =>
    exact ⟨.of_insert hins rfl rfl, .moves (.of_modify (Intent.failAbsent_keeps now) hget rfl
      ⟨rfl, rfl, fun _ h ↦ h⟩ (.abandon hdead (Or.inr ⟨hstatus, reserved_eq_false hnone⟩)))
      ⟨rfl, rfl, rfl⟩⟩
  · next r hr =>
    obtain ⟨rid, hrid, hlocked⟩ := Option.bind_eq_some_iff.1 hr
    obtain ⟨hrget, hlive⟩ := lockedReservation_some hlocked
    obtain rfl : r.id = rid := Table.key_of_get? hrget
    refine ⟨.of_insert hins rfl rfl, .drop (.of_modify (Intent.failAbsent_keeps now) hget rfl rfl
      fun _ h ↦ h) hstatus hdead hrid rfl ⟨hrget, hlive,
        ⟨.released, .brokerOrderAbsenceConfirmed, now, rfl, rfl⟩,
        Or.inl ⟨_, 0, now, fun x hx ↦ ?_, rfl⟩, fun t ht ↦ Or.inl ht⟩⟩
    exact max_eq_right (by linarith)

/-- A confirmed absence fails the intent and releases what it holds. -/
theorem terminalizeAbsence_effect {evidence : AbsenceEvidence} :
    Effect db (terminalizeAbsence db session target evidence now).1 := by
  unfold terminalizeAbsence
  dsimp only
  split
  · split
    · exact .refl db
    · next events hins =>
      split
      · exact .quiet (.of_insert hins rfl rfl) rfl ⟨rfl, rfl, rfl⟩
      · next i hlock =>
        obtain ⟨hget, hstatus⟩ := Option.filter_eq_some_iff.1 hlock
        have hid : i.id = target.intent.id := Table.key_of_get? hget
        rw [← hid] at hget ⊢
        have hstate := releaseAbsent_effect now hins hget
          (by rcases of_decide_eq_true hstatus with h | h <;> simp [h])
        -- The verdict reads the row counts only; the state is the same either way.
        split_ifs <;> exact hstate
  · exact .refl db

theorem recordPendingAbsence_effect {evidence : AbsenceEvidence} :
    Effect db (recordPendingAbsence db session target evidence now) := by
  unfold recordPendingAbsence
  split
  · cases hins : db.events.insert? (absenceEvent target evidence now) with
    | none => exact .refl db
    | some events => exact .quiet (.of_insert hins rfl rfl) rfl ⟨rfl, rfl, rfl⟩
  · exact .refl db

omit [Hashing] in
theorem deferAbsentCandidate_effect :
    Effect db (deferAbsentCandidate db session target now).1 := by
  unfold deferAbsentCandidate
  split
  · exact .refl db
  · split
    · exact .quiet (.of_eq rfl rfl) rfl ⟨rfl, rfl, rfl⟩
    · exact .refl db

end Settlement

end AlpacaTrading
