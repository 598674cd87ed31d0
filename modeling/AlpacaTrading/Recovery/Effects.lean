import AlpacaTrading.Recovery.Sweep
import AlpacaTrading.Reconciliation.Effects

/-!
# Recovery as steps of the machine

Most statements of recovery are routine.  Two are not.  Keeping a stale ready intent takes it to
`ambiguous` whether or not its reservation is still live, and the expiry ends reservations by
their time alone, whatever the intent they belong to is doing.  They are kept apart as `Preserves`
and `Expires`.  `Strands` is the cancellation of an intent whose live reservation already has a
terminal transition; the references of the database exclude it.
-/

namespace AlpacaTrading

/-! ## Stale ready intents -/

/-- A ready intent becomes ambiguous; the ledger stays. -/
structure Preserves (db db' : Db) (i : Intent) : Prop where
  grows : Grows db db'
  ledger : SameLedger db db'
  replaces : ∃ i', Replaces db db' i i' ∧ i'.status = .ambiguous ∧
    i'.reservationId = i.reservationId
  status : i.status = .readyForSubmission

/-- The lookup answered with the order of the intent. -/
def staleOrderFound (intent : Intent) : Lookup → Bool
  | .inl _ => false
  | .inr response => response.data.any fun data ↦ data.id ≠ .absent ∧ data.id ≠ .str "" ∧
      data.clientOrderId = .str (Text.trim intent.clientOrderId)

/-- The update of a stale intent whose order exists keeps one ready intent, or does nothing. -/
theorem preserveStaleReady_effect {db : Db} {session : Session} {id : String} {now : Time} :
    (∃ i, i.id = id ∧ fenceHeld db session = true ∧
      Preserves db (preserveStaleReady db session id now) i) ∨
      Effect db (preserveStaleReady db session id now) := by
  by_cases hcond : ∃ i, db.intents.get? id = some i ∧ i.status = .readyForSubmission ∧
      fenceHeld db session = true
  · obtain ⟨i, hget, hs, hfence⟩ := hcond
    have hid : i.id = id := Table.key_of_get? hget
    subst hid
    have hmodify : (preserveStaleReady db session i.id now).intents = db.intents.modify i.id
        (Intent.withStatus .ambiguous now) (Intent.withStatus_keeps _ _) :=
      Table.update_eq_modify hget (by simp [hs, hfence])
    exact Or.inl ⟨i, rfl, hfence, .of_eq rfl rfl, ⟨rfl, rfl, rfl⟩, ⟨_, .of_modify
      (Intent.withStatus_keeps _ _) hget hmodify rfl fun _ h ↦ h, rfl, rfl⟩, hs⟩
  · refine Or.inr ⟨.of_eq rfl rfl, .moves (.of_eq ?_) ⟨rfl, rfl, rfl⟩⟩
    -- No row meets the condition, so the update is the identity.
    unfold preserveStaleReady
    rw [Table.update_eq_self]
    intro i hi
    rw [Bool.eq_false_iff]
    intro hp
    simp only [Bool.and_eq_true, decide_eq_true_eq] at hp
    exact hcond ⟨i, Table.get?_eq_some.2 ⟨hi, hp.1⟩, hp.2.1, hp.2.2⟩

section Sweep

variable [Hashing] {db db' : Db} {session : Session} {now : Time}

theorem releaseStale_true {intentId : String} {r : Reservation}
    (h : releaseStale db intentId now r = .ok (db', true)) :
    ∃ transitions, db.reservationTransitions.insert? (staleTransition r.id intentId now) =
        some transitions ∧
      db' = { db with
        reservationTransitions := transitions
        reservations := db.reservations.modify r.id
          (Reservation.release .released .staleIntentRecovery now)
          (Reservation.release_keeps _ _ _)
        allocations := adjust db.allocations r.accountId r.strategyKey (· - r.amount) 0 now } := by
  unfold releaseStale at h
  split at h
  · cases h
  · simp only [bind_eq_ok, Table.insertOne_eq_ok] at h
    obtain ⟨transitions, hins, hout⟩ := h
    cases hout
    exact ⟨transitions, hins, rfl⟩

theorem releaseStale_false {intentId : String} {r : Reservation}
    (h : releaseStale db intentId now r = .ok (db', false)) :
    (db.reservationTransitions.get? r.id).isSome ∧ db' = db := by
  unfold releaseStale at h
  split at h
  · next hsome =>
    cases h
    exact ⟨hsome, rfl⟩
  · simp only [bind_eq_ok] at h
    obtain ⟨_, _, hout⟩ := h
    cases hout

/-- A stale intent is cancelled and its live reservation left alone, which has a terminal
transition already. -/
structure Strands (db db' : Db) (i : Intent) : Prop where
  grows : Grows db db'
  ledger : SameLedger db db'
  replaces : ∃ i', Replaces db db' i i' ∧ i'.status = .cancelled ∧
    i'.reservationId = i.reservationId
  status : i.status = .readyForSubmission
  ended : ∃ t ∈ db.reservationTransitions.rows, liveReservation db t.reservationId = true

/-- The cancellation of a stale ready intent is routine, unless a live reservation already has a
terminal transition. -/
theorem cancelStaleReady_effect {id : String} :
    Effect db (cancelStaleReady db session id now).1 ∨
      ∃ i, i.id = id ∧ Strands db (cancelStaleReady db session id now).1 i := by
  unfold cancelStaleReady
  split
  · exact Or.inl (.refl db)
  · next i hget =>
    have hid : i.id = id := Table.key_of_get? hget
    subst hid
    dsimp only
    split
    · exact Or.inl (.refl db)
    · split
      · next hcond =>
        have hready : i.status ∈ [.readyForSubmission, .submissionPending, .ambiguous] := by
          simp [hcond.1]
        have hdead : (i.cancelStale now).status ∈ deadStatuses := by
          simp [Intent.cancelStale, deadStatuses]
        split
        · next hnone =>
          exact Or.inl ⟨.of_eq rfl rfl, .moves (.of_modify (Intent.cancelStale_keeps now) hget rfl
            ⟨rfl, rfl, fun _ h ↦ h⟩ (.abandon hdead (Or.inr ⟨hready, reserved_eq_false hnone⟩)))
            ⟨rfl, rfl, rfl⟩⟩
        · next r hr =>
          obtain ⟨rid, hrid, hlocked⟩ := Option.bind_eq_some_iff.1 hr
          obtain ⟨hrget, hlive⟩ := lockedReservation_some hlocked
          obtain rfl : r.id = rid := Table.key_of_get? hrget
          split
          · exact Or.inl (.refl db)
          · next hrel =>
            obtain ⟨transitions, hins, rfl⟩ := releaseStale_true hrel
            refine Or.inl ⟨.of_eq rfl rfl, .drop (.of_modify (Intent.cancelStale_keeps now) hget rfl rfl
              fun _ h ↦ h) hready hdead hrid rfl ⟨hrget, hlive,
                ⟨.released, .staleIntentRecovery, now, rfl, rfl⟩,
                Or.inl ⟨_, 0, now, fun x _ ↦ rfl, rfl⟩, fun t ht ↦ ?_⟩⟩
            rw [Table.rows_of_insert? hins, List.mem_append, List.mem_singleton] at ht
            refine ht.imp id fun heq ↦ ?_
            rw [heq]
            rfl
          · next hrel =>
            obtain ⟨hsome, rfl⟩ := releaseStale_false hrel
            obtain ⟨t, ht⟩ := Option.isSome_iff_exists.1 hsome
            have htid : t.reservationId = r.id := Table.key_of_get? ht
            refine Or.inr ⟨i, rfl, .of_eq rfl rfl, ⟨rfl, rfl, rfl⟩, ⟨_, .of_modify
              (Intent.cancelStale_keeps now) hget rfl rfl fun _ h ↦ h, rfl, rfl⟩, hcond.1,
              t, Table.mem_of_get? ht, ?_⟩
            rw [htid]
            unfold liveReservation
            rw [hrget, Option.any_some, hlive]
      · exact Or.inl (.refl db)

omit [Hashing] in
/-- The lookup threw nothing only when it found the order. -/
theorem found_of_thrown_none {intent : Intent} {answer : Lookup}
    (h : (match answer with
      | .inl error => some error
      | .inr response =>
        match response.data with
        | none => some (.ofCode "POSTGRES_STALE_READY_BROKER_IDENTITY_MISMATCH")
        | some data =>
          if data.id = .absent ∨ data.id = .str "" ∨
              data.clientOrderId ≠ .str (Text.trim intent.clientOrderId) then
            some (.ofCode "POSTGRES_STALE_READY_BROKER_IDENTITY_MISMATCH")
          else none) = (none : Option Thrown)) : staleOrderFound intent answer = true := by
  split at h
  · cases h
  · split at h
    · cases h
    · next data hdata =>
      split at h
      · cases h
      · next hmatch =>
        simp only [not_or, not_not] at hmatch
        simp [staleOrderFound, hdata, hmatch]

/-- One row of the stale-ready query: kept, cancelled, or left alone. -/
theorem recoverStaleReady_effect {intent : Intent} {answer : Lookup} :
    Effect db (recoverStaleReady db session intent answer now).1 ∨
      (∃ i, i.id = intent.id ∧ fenceHeld db session = true ∧ staleOrderFound intent answer = true ∧
        Preserves db (recoverStaleReady db session intent answer now).1 i) ∨
      ∃ i, i.id = intent.id ∧ Strands db (recoverStaleReady db session intent answer now).1 i := by
  unfold recoverStaleReady
  dsimp only
  split
  · exact Or.inl (.refl db)
  · split
    · next hfound =>
      rcases preserveStaleReady_effect with ⟨i, hid, hfence, h⟩ | h
      · exact Or.inr (Or.inl ⟨i, hid, hfence, found_of_thrown_none hfound, h⟩)
      · exact Or.inl h
    · split
      · have hcancel : Effect db (cancelStaleReady db session intent.id now).1 ∨
            ∃ i, i.id = intent.id ∧ Strands db (cancelStaleReady db session intent.id now).1 i :=
          cancelStaleReady_effect
        split
        · next heq =>
          rw [heq] at hcancel
          exact hcancel.imp_right Or.inr
        · next heq =>
          rw [heq] at hcancel
          exact hcancel.imp_right Or.inr
      · exact Or.inl (.refl db)

/-! ## Expired reservations -/

/-- The sum over the picked reservations of a strategy. -/
def pickedAmount (t : Table Reservation) (p : Reservation → Bool) (accountId strategyKey : String) :
    ℚ :=
  t.total fun r ↦ if p r && decide (r.accountId = accountId ∧ r.strategyKey = strategyKey) then
    r.amount else 0

/-- Overdue active reservations end and the counters give their amounts back; intents stay. -/
structure Expires (db db' : Db) (now : Time) : Prop where
  grows : Grows db db'
  intents : db'.intents = db.intents
  reservations : ∃ p : Reservation → Bool, (∀ r, p r → r.overdue now) ∧
    db'.reservations = db.reservations.update p
      (Reservation.release .expired .staleIntentRecovery now) (Reservation.release_keeps _ _ _) ∧
    (∀ t ∈ db'.reservationTransitions.rows, t ∈ db.reservationTransitions.rows ∨
      ∃ r ∈ db.reservations.rows, p r ∧ t.reservationId = r.id) ∧
    ∀ accountId strategyKey, (∃ a ∈ db'.allocations.rows, a.serves accountId strategyKey) →
      (∃ a ∈ db.allocations.rows, a.serves accountId strategyKey) ∧
      reservedAmount db'.allocations accountId strategyKey =
        reservedAmount db.allocations accountId strategyKey -
          pickedAmount db.reservations p accountId strategyKey

omit [Hashing] in
/-- Appended transitions are new for their reservation. -/
theorem mem_appendReservationTransitions {t t' : Table ReservationTransition}
    {l : List ReservationTransition} (h : appendReservationTransitions t l = .ok t')
    {x : ReservationTransition} (hx : x ∈ t'.rows) :
    x ∈ t.rows ∨ (x ∈ l ∧ t.get? x.reservationId = none) := by
  induction l generalizing t with
  | nil =>
    cases h
    exact Or.inl hx
  | cons y rest ih =>
    unfold appendReservationTransitions at h
    split at h
    · exact (ih h).imp id fun ⟨hmem, hnone⟩ ↦ ⟨List.mem_cons_of_mem _ hmem, hnone⟩
    · next hfree =>
      simp only [bind_eq_ok, Table.insertOne_eq_ok] at h
      obtain ⟨t₁, hins, h⟩ := h
      rcases ih h with hold | ⟨hmem, hnone⟩
      · rw [Table.rows_of_insert? hins, List.mem_append, List.mem_singleton] at hold
        rcases hold with hold | rfl
        · exact Or.inl hold
        · exact Or.inr ⟨List.mem_cons_self, by simpa using hfree⟩
      · rw [Table.get?_insert? hins] at hnone
        split at hnone
        · cases hnone
        · exact Or.inr ⟨List.mem_cons_of_mem _ hmem, hnone⟩

omit [Hashing] in
theorem overdueAmount_eq (accountId strategyKey : String) :
    overdueAmount db now (fun r ↦ expiring db now r) accountId strategyKey =
      pickedAmount db.reservations (expiring db now) accountId strategyKey := by
  refine Table.total_congr fun r _ ↦ ?_
  have hover : (r.overdue now && expiring db now r) = expiring db now r := by
    unfold expiring
    rw [← Bool.and_assoc, Bool.and_self]
  rw [hover]

omit [Hashing] in
theorem pickedAmount_eq_zero {p : Reservation → Bool} {accountId strategyKey : String}
    {t : Table Reservation} (h : ¬ t.rows.any fun r ↦ p r &&
      decide (r.accountId = accountId ∧ r.strategyKey = strategyKey)) :
    pickedAmount t p accountId strategyKey = 0 := by
  refine Table.total_eq_zero fun r hr ↦ if_neg fun hp ↦ h ?_
  exact List.any_eq_true.2 ⟨r, hr, hp⟩

omit [Hashing] in
/-- The counters after the expiry. -/
theorem reservedAmount_expireAllocations {accountId strategyKey : String} {a : Allocation}
    (ha : a ∈ db.allocations.rows) (hs : a.serves accountId strategyKey) :
    reservedAmount (expireAllocations db now) accountId strategyKey =
      reservedAmount db.allocations accountId strategyKey -
        pickedAmount db.reservations (expiring db now) accountId strategyKey := by
  obtain ⟨rfl, rfl, hcurrent⟩ := serves_iff.1 hs
  rw [reservedAmount_eq ha hs]
  by_cases hany : (db.reservations.rows.any fun r ↦ expiring db now r &&
      decide (r.accountId = a.accountId ∧ r.strategyKey = a.strategyKey)) = true
  · have hnew : a.shift (fun x ↦ x - overdueAmount db now (fun r ↦ expiring db now r)
        a.accountId a.strategyKey) 0 now ∈ (expireAllocations db now).rows :=
      Table.mem_update.2 ⟨a, ha, if_pos (by simp only [hcurrent, hany, Bool.and_self])⟩
    rw [reservedAmount_eq hnew (by simpa using hs), ← overdueAmount_eq]
    rfl
  · -- No reservation of the strategy ends, so its counter stays.
    have hnew : a ∈ (expireAllocations db now).rows :=
      Table.mem_update.2 ⟨a, ha, if_neg (by simpa only [hcurrent, Bool.true_and] using hany)⟩
    rw [reservedAmount_eq hnew hs, pickedAmount_eq_zero hany, sub_zero]

omit [Hashing] in
theorem exists_serves_expireAllocations {accountId strategyKey : String}
    (h : ∃ a ∈ (expireAllocations db now).rows, a.serves accountId strategyKey) :
    ∃ a ∈ db.allocations.rows, a.serves accountId strategyKey := by
  obtain ⟨a', ha', hs⟩ := h
  obtain ⟨a, ha, rfl⟩ := Table.mem_update.1 ha'
  refine ⟨a, ha, ?_⟩
  split at hs
  · simpa using hs
  · exact hs

theorem expireReservations_effect :
    (fenceHeld db session = true ∧ Expires db (expireReservations db session now).1 now) ∨
      (expireReservations db session now).1 = db := by
  unfold expireReservations
  split
  · exact Or.inr rfl
  · next hfence =>
    have hheld : fenceHeld db session = true := by simpa using hfence
    split
    · exact Or.inr rfl
    · split
      · exact Or.inr rfl
      · next transitions happ =>
        refine Or.inl ?_
        dsimp only
        have hexpires : Expires db { db with
            reservationTransitions := transitions
            reservations := db.reservations.update (expiring db now)
              (Reservation.release .expired .staleIntentRecovery now)
              (Reservation.release_keeps _ _ _)
            allocations := expireAllocations db now } now := by
          refine ⟨.of_eq rfl rfl, rfl, expiring db now, fun r hr ↦ ?_, rfl, fun t ht ↦ ?_,
            fun accountId strategyKey hserves ↦ ?_⟩
          · unfold expiring at hr
            rw [Bool.and_eq_true] at hr
            exact hr.1
          · refine (mem_appendReservationTransitions happ ht).imp id ?_
            rintro ⟨hmem, hnone⟩
            obtain ⟨r, hr, rfl⟩ := List.mem_map.1 hmem
            obtain ⟨hrmem, hover⟩ := List.mem_filter.1 hr
            have hnone' : db.reservationTransitions.get? r.id = none := hnone
            exact ⟨r, hrmem, by simp [expiring, hover, hnone'], rfl⟩
          · obtain ⟨a, ha, hs⟩ := exists_serves_expireAllocations hserves
            exact ⟨⟨a, ha, hs⟩, reservedAmount_expireAllocations ha hs⟩
        refine ⟨hheld, ?_⟩
        split
        · exact hexpires
        · exact hexpires

end Sweep

/-! ## Expired evidence -/

theorem expireReviews_effect {db : Db} {session : Session} {now : Time} :
    Effect db (expireReviews db session now) := by
  refine .quiet ⟨fun _ h ↦ h, fun id r hr ↦ ?_⟩ rfl ⟨rfl, rfl, rfl⟩
  unfold expireReviews
  rw [Table.get?_update, hr, Option.map_some]
  split
  · exact ⟨_, rfl, rfl⟩
  · exact ⟨r, rfl, rfl⟩

theorem expireConfirmations_effect {db : Db} {session : Session} {now : Time} :
    Effect db (expireConfirmations db session now) :=
  .quiet (.of_eq rfl rfl) rfl ⟨rfl, rfl, rfl⟩

theorem cancelStaleCreated_effect {db : Db} {session : Session} {now : Time} :
    Effect db (cancelStaleCreated db session now) := by
  refine ⟨.of_eq rfl rfl, .moves ⟨_, Intent.cancelStale now, Intent.cancelStale_keeps now, rfl,
    fun i _ hp ↦ ?_⟩ ⟨rfl, rfl, rfl⟩⟩
  simp only [Bool.and_eq_true, decide_eq_true_eq] at hp
  exact ⟨⟨rfl, rfl, fun _ h ↦ h⟩, .abandon (by simp [Intent.cancelStale, deadStatuses])
    (Or.inl hp.1.1)⟩

end AlpacaTrading
