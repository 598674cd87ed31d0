import AlpacaTrading.Reconciliation.Complete
import AlpacaTrading.System.Machine

/-!
# The ledger of the system

Invariants of whole runs about capital.  The routine steps were dealt with once, in
`Store.Invariant`; what is left are the four statements of `Sys.Unsafe`.

* Conservation survives all of them: the reserved counter of a strategy is the sum of its live
  reservations in every state of every run.
* The references between the tables survive them, too.
* The other two properties do not.  A deterministic failure ends an intent and keeps its
  reservation, and recovery ends reservations, or takes intents to `ambiguous`, without looking at
  the other side.  For runs in which these statements meet no such case, they hold.
-/

namespace AlpacaTrading

/-! ## Conservation -/

section Conservation

variable {db db' : Db}

/-- The held sum after the picked live reservations ended. -/
theorem heldAmount_expire {p : Reservation → Bool} {now : Time}
    (hlive : ∀ r, p r → r.status.live) (accountId strategyKey : String) :
    heldAmount (db.reservations.update p (Reservation.release .expired .staleIntentRecovery now)
        (Reservation.release_keeps _ _ _)) accountId strategyKey =
      heldAmount db.reservations accountId strategyKey -
        pickedAmount db.reservations p accountId strategyKey := by
  unfold heldAmount pickedAmount
  rw [Table.total_update, sub_eq_add_neg]
  congr 1
  rw [eq_neg_iff_add_eq_zero]
  unfold Table.total
  rw [← List.sum_map_add]
  refine List.sum_eq_zero fun x hx ↦ ?_
  obtain ⟨r, _, rfl⟩ := List.mem_map.1 hx
  by_cases hp : p r = true
  · have hzero : (r.release .expired .staleIntentRecovery now).held accountId strategyKey = 0 := by
      simp [Reservation.held, Reservation.holds, Reservation.release, ReservationStatus.live]
    rw [if_pos hp, hzero, zero_sub, hp, Bool.true_and]
    unfold Reservation.held Reservation.holds
    rw [hlive r hp, Bool.and_true, neg_add_cancel]
  · rw [if_neg hp]
    simp [hp]

theorem Reservation.overdue_live {now : Time} {r : Reservation} (h : r.overdue now) :
    r.status.live = true := by
  unfold Reservation.overdue at h
  rw [Bool.and_eq_true, decide_eq_true_eq] at h
  rw [h.1]
  rfl

theorem Conserved.expires {now : Time} (h : Conserved db) (he : Expires db db' now) :
    Conserved db' := by
  obtain ⟨p, hover, hres, _, hcounters⟩ := he.reservations
  intro accountId strategyKey hserves
  obtain ⟨hserves', hcounter⟩ := hcounters accountId strategyKey hserves
  rw [hcounter, h _ _ hserves', hres, heldAmount_expire fun r hp ↦ Reservation.overdue_live
    (hover r hp)]

theorem Conserved.unsafeStep {s : Sys} {act : Act} (h : Conserved s.db) (hu : s.Unsafe db' act) :
    Conserved db' := by
  cases hu with
  | rejects _ _ _ hr => exact h.ledger hr.ledger
  | preserves _ _ _ hp => exact h.ledger hp.ledger
  | strands _ hs => exact h.ledger hs.ledger
  | expires hfence he => exact h.expires he

theorem Conserved.advances (h : Conserved db) (ha : Relation.ReflTransGen Advance db db') :
    Conserved db' := by
  refine invariant_of_steps (fun _ _ hc hstep ↦ ?_) ha h
  rcases hstep with he | ⟨i, hi⟩
  · exact hc.effect he
  · exact hc.ledger hi.ledger

end Conservation

section Runs

variable [Hashing] {s s' : Sys} {act : Act}

/-- What every step keeps about the counters. -/
theorem Sys.conserved_step (h : s.Valid ∧ Conserved s.db) (hstep : Sys.step act s = some s') :
    s'.Valid ∧ Conserved s'.db := by
  obtain ⟨hvalid, hcases⟩ := Sys.step_cases h.1 hstep
  refine ⟨hvalid, ?_⟩
  rcases hcases with hadvances | hunsafe
  · exact h.2.advances hadvances
  · exact h.2.unsafeStep hunsafe

/-- **Conservation.**  In every state of every run that starts with conserved counters, the
reserved counter of a strategy is the sum of its live reservations; the clamp of a release never
binds, and no counter is negative. -/
theorem reserved_counter_conserved (db : Db) (acts : List Act) (s : Sys) (hinit : Conserved db)
    (hrun : runActs Sys.step (Sys.idle db) acts = some s) :
    (∀ a ∈ s.db.allocations.rows, a.current →
      a.reservedAmount = heldAmount s.db.reservations a.accountId a.strategyKey ∧
      0 ≤ a.reservedAmount) ∧
    ∀ a ∈ s.db.allocations.rows, a.current → ∀ r ∈ s.db.reservations.rows, r.status.live →
      r.accountId = a.accountId → r.strategyKey = a.strategyKey →
      max 0 (a.reservedAmount - r.amount) = a.reservedAmount - r.amount := by
  obtain ⟨_, hconserved⟩ := invariant_of_run (fun _ _ _ hI hstep ↦ Sys.conserved_step hI hstep)
    ⟨Sys.idle_valid db, hinit⟩ hrun
  refine ⟨fun a ha hcurrent ↦ ?_, fun a ha hcurrent r hr hlive haccount hstrategy ↦ ?_⟩
  · have hs : a.serves a.accountId a.strategyKey := serves_iff.2 ⟨rfl, rfl, hcurrent⟩
    have heq := hconserved _ _ ⟨a, ha, hs⟩
    have hnonneg := hconserved.nonneg ⟨a, ha, hs⟩
    rw [reservedAmount_eq ha hs] at heq hnonneg
    exact ⟨heq, hnonneg⟩
  · have hs : a.serves r.accountId r.strategyKey := serves_iff.2 ⟨haccount.symm, hstrategy.symm,
      hcurrent⟩
    have hcovers := hconserved.covers hr hlive ⟨a, ha, hs⟩
    rw [reservedAmount_eq ha hs] at hcovers
    exact max_eq_right (by linarith)

end Runs

/-- The theorem at the specimen: after its entry is on the way to the broker, the counter of the
strategy is the amount reserved for it. -/
theorem specimen_counter_conserved :
    ∃ s, Specimen.run Specimen.entryActs = some s ∧
      (∀ a ∈ s.db.allocations.rows, a.current →
        a.reservedAmount = heldAmount s.db.reservations a.accountId a.strategyKey) ∧
      s.db.allocations.rows.map (·.reservedAmount) = [1000] := by
  have hsome : (Specimen.run Specimen.entryActs).map
      (fun s ↦ s.db.allocations.rows.map (·.reservedAmount)) = some [1000] := by decide +kernel
  obtain ⟨s, hs, hamount⟩ := Option.map_eq_some_iff.1 hsome
  let _ := Specimen.hashing
  have hconserved := reserved_counter_conserved Specimen.entryDb Specimen.entryActs s
    Specimen.entryDb_conserved hs
  exact ⟨s, hs, fun a ha hcurrent ↦ (hconserved.1 a ha hcurrent).1, hamount⟩

/-! ## References -/

section References

variable {db db' : Db} {i i' : Intent}

/-- An intent moves on and the ledger stays. -/
theorem Sound.replaces (h : Sound db) (hg : Grows db db') (hl : SameLedger db db')
    (hr : Replaces db db' i i') (hres : i'.reservationId = i.reservationId)
    (hs : i.status ∉ [.created, .failed, .cancelled]) (hcreated : i'.status ≠ .created)
    (hreconciled : i'.status ≠ .reconciled) : Sound db' := by
  refine h.step (hr.later hg fun _ ↦ ⟨hcreated, hres⟩) hl.endures (hr.rows hres ?_)
  exact fun type hk hfit ↦ hfit.replace hk hr hres hcreated hreconciled (Or.inl hs)

theorem Expires.endures {now : Time} (h : Expires db db' now) : Endures db db' := by
  obtain ⟨p, _, hres, htr, _⟩ := h.reservations
  have hget : ∀ id r, db.reservations.get? id = some r → ∃ r', db'.reservations.get? id = some r' ∧
      (r.status.live = false ∨ p r = true → r'.status.live = false) := by
    intro id r hr
    rw [hres, Table.get?_update, hr, Option.map_some]
    by_cases hp : p r = true
    · rw [if_pos hp]
      exact ⟨_, rfl, fun _ ↦ rfl⟩
    · rw [if_neg hp]
      refine ⟨r, rfl, fun hdead ↦ hdead.resolve_right hp⟩
  refine ⟨fun id r hr ↦ ?_, fun t ht ↦ (htr t ht).imp_right ?_⟩
  · obtain ⟨r', hr', hdead⟩ := hget id r hr
    exact ⟨r', hr', fun h ↦ hdead (Or.inl h)⟩
  · rintro ⟨r, hr, hp, hid⟩
    obtain ⟨r', hr', hdead⟩ := hget r.id r (Table.get?_of_mem hr)
    exact ⟨r', by rw [hid]; exact hr', hdead (Or.inr hp)⟩

theorem Sound.unsafeStep {s : Sys} {act : Act} (h : Sound s.db) (hu : s.Unsafe db' act) :
    Sound db' := by
  cases hu with
  | rejects _ _ _ hr =>
    obtain ⟨i', hi, hs', hres⟩ := hr.replaces
    exact h.replaces hr.grows hr.ledger hi hres (by simp [hr.status]) (by simp [hs'])
      (by simp [hs'])
  | preserves _ _ _ hp =>
    obtain ⟨i', hi, hs', hres⟩ := hp.replaces
    exact h.replaces hp.grows hp.ledger hi hres (by simp [hp.status]) (by simp [hs'])
      (by simp [hs'])
  | strands _ hs =>
    obtain ⟨i', hi, hs', hres⟩ := hs.replaces
    exact h.replaces hs.grows hs.ledger hi hres (by simp [hs.status]) (by simp [hs'])
      (by simp [hs'])
  | expires hfence he => exact h.step he.later he.endures (IntentsMove.of_eq he.intents).rows

theorem Sound.advances (h : Sound db) (ha : Relation.ReflTransGen Advance db db') : Sound db' := by
  refine invariant_of_steps (fun _ _ hs hstep ↦ ?_) ha h
  rcases hstep with he | ⟨i, hi⟩
  · exact hs.effect he
  · exact hs.creates hi

/-- The references exclude the stranding of a reservation. -/
theorem Sound.not_strands (h : Sound db) (hs : Strands db db' i) : False := by
  obtain ⟨t, ht, hlive⟩ := hs.ended
  rw [h.ended_live t ht] at hlive
  cases hlive

end References

/-! ## Ended intents -/

section Released

variable {db db' : Db}

theorem Released.advances (h : Released db) (hsound : Sound db)
    (ha : Relation.ReflTransGen Advance db db') : Sound db' ∧ Released db' := by
  have hstep : ∀ db₁ db₂, Sound db₁ ∧ Released db₁ → Advance db₁ db₂ → Sound db₂ ∧ Released db₂ := by
    intro db₁ db₂ hs hadvance
    rcases hadvance with he | ⟨i, hi⟩
    · exact ⟨hs.1.effect he, hs.2.effect hs.1 he⟩
    · exact ⟨hs.1.creates hi, hs.2.creates hi⟩
  exact invariant_of_steps (I := fun db ↦ Sound db ∧ Released db) hstep ha ⟨hsound, h⟩

/-- Ended reservations stay ended when others end. -/
theorem Expires.reserved_false {now : Time} {i : Intent} (h : Expires db db' now)
    (hi : i.reserved db = false) : i.reserved db' = false := by
  obtain ⟨p, hover, hres, _, _⟩ := h.reservations
  unfold Intent.reserved at hi ⊢
  cases hid : i.reservationId with
  | none => rfl
  | some id =>
    rw [hid, Option.any_some] at hi
    rw [Option.any_some]
    unfold liveReservation at hi ⊢
    rw [hres, Table.get?_update]
    cases hr : db.reservations.get? id with
    | none => rfl
    | some r =>
      rw [hr, Option.any_some] at hi
      rw [Option.map_some, Option.any_some]
      split
      · rfl
      · exact hi

/-- The row whose deterministic failure a step records. -/
def Sys.rejecting (s : Sys) : Act → Option AutonomousExecutionIntentRow
  | .run p (.reject _ _) =>
    match s.runs[p]? with
    | some { phase := .rejecting row _ _, .. } => some row
    | _ => none
  | _ => none

/-- The step records no deterministic failure of an intent that holds a live reservation. -/
def Sys.RejectsUnreserved (s : Sys) (act : Act) : Prop :=
  ∀ row, s.rejecting act = some row → ∀ i, s.db.intents.get? row.intent.id = some i →
    i.reserved s.db = false

theorem Released.unsafeStep {s : Sys} {act : Act} (h : Released s.db) (hsound : Sound s.db)
    (hguard : s.RejectsUnreserved act) (hu : s.Unsafe db' act) : Released db' := by
  cases hu with
  | @rejects p dbNow fault run row receipt failedAt i hrun hphase hid hr =>
    obtain ⟨i', hi, _, hres⟩ := hr.replaces
    have hrow : s.rejecting (.run p (.reject dbNow fault)) = some row := by
      obtain ⟨config, phase⟩ := run
      dsimp only at hphase
      subst hphase
      simp only [Sys.rejecting, hrun]
    have hfree : i.reserved s.db = false := hguard row hrow i (hid ▸ hi.stored)
    refine h.replaces hi (fun j _ hj ↦ ?_) fun _ ↦ ?_
    · rwa [reserved_congr rfl fun id _ ↦ hr.ledger.live id]
    · rwa [reserved_congr hres fun id _ ↦ hr.ledger.live id]
  | preserves _ _ _ hp =>
    obtain ⟨i', hi, hs', _⟩ := hp.replaces
    refine h.replaces hi (fun j _ hj ↦ ?_) fun hdead ↦ ?_
    · rwa [reserved_congr rfl fun id _ ↦ hp.ledger.live id]
    · simp [hs', deadStatuses] at hdead
  | strands _ hs => exact (hsound.not_strands hs).elim
  | expires hfence he =>
    intro i hi hdead
    rw [he.intents] at hi
    exact he.reserved_false (h i hi hdead)

variable [Hashing]

/-- The state between two steps, for the capital of ended intents. -/
structure Sys.Tidy (s : Sys) : Prop where
  valid : s.Valid
  sound : Sound s.db
  conserved : Conserved s.db
  released : Released s.db

theorem Sys.tidy_step {s s' : Sys} {act : Act} (h : s.Tidy) (hguard : s.RejectsUnreserved act)
    (hstep : Sys.step act s = some s') : s'.Tidy := by
  obtain ⟨hvalid, hcases⟩ := Sys.step_cases h.valid hstep
  rcases hcases with hadvances | hunsafe
  · obtain ⟨hsound, hreleased⟩ := h.released.advances h.sound hadvances
    exact ⟨hvalid, hsound, h.conserved.advances hadvances, hreleased⟩
  · exact ⟨hvalid, h.sound.unsafeStep hunsafe, h.conserved.unsafeStep hunsafe,
      h.released.unsafeStep h.sound hguard hunsafe⟩

/-- **Ended intents hold nothing** in every run whose deterministic failures meet no live
reservation: failed and cancelled intents hold no live reservation, what was released is back on
the counters, and after a completed pass without errors reconciled intents hold none either. -/
theorem ended_intents_hold_nothing (db : Db) (acts : List Act) (s : Sys) (hsound : Sound db)
    (hconserved : Conserved db) (hreleased : Released db)
    (hguard : Guarded Sys.step Sys.RejectsUnreserved (Sys.idle db) acts)
    (hrun : runActs Sys.step (Sys.idle db) acts = some s) :
    (∀ i ∈ s.db.intents.rows, i.status ∈ [.failed, .cancelled] → i.reserved s.db = false) ∧
    Conserved s.db ∧
    ∀ session now lookup, (∀ result ∈ (reconcilePostgresPaperOrders s.db session now "" lookup).2,
        result.isError = false) →
      ∀ i ∈ (reconcilePostgresPaperOrders s.db session now "" lookup).1.intents.rows,
        i.status ∈ [.failed, .cancelled, .reconciled] →
        i.reserved (reconcilePostgresPaperOrders s.db session now "" lookup).1 = false := by
  have htidy := invariant_of_guarded (fun _ _ _ hI hg hstep ↦ Sys.tidy_step hI hg hstep)
    ⟨Sys.idle_valid db, hsound, hconserved, hreleased⟩ hguard hrun
  refine ⟨htidy.released, htidy.conserved, fun session now lookup hok i hi hstatus ↦ ?_⟩
  by_cases hrec : i.status = .reconciled
  · exact reconcile_settles htidy.sound hok i hi hrec
  · -- The pass is a step of the system, too.
    have hpass : Sys.step (.reconcile session now "" lookup) s = some { s with
        db := (reconcilePostgresPaperOrders s.db session now "" lookup).1 } := rfl
    have hafter := Sys.tidy_step htidy (fun row hrow ↦ by cases hrow) hpass
    refine hafter.released i hi ?_
    simpa [deadStatuses, hrec] using hstatus

end Released

/-- The theorem at the specimen: the submission of its entry ends in doubt. -/
theorem specimen_ended_hold_nothing :
    ∃ s, Specimen.run Specimen.lostActs = some s ∧
      Specimen.standing s = [(some .entry, .ambiguous, true)] ∧
      ∀ i ∈ s.db.intents.rows, i.status ∈ [.failed, .cancelled] → i.reserved s.db = false := by
  have hsome : (Specimen.run Specimen.lostActs).map Specimen.standing =
      some [(some .entry, .ambiguous, true)] := by decide +kernel
  obtain ⟨s, hs, hstanding⟩ := Option.map_eq_some_iff.1 hsome
  let _ := Specimen.hashing
  refine ⟨s, hs, hstanding, (ended_intents_hold_nothing Specimen.entryDb Specimen.lostActs s
    Specimen.entryDb_sound Specimen.entryDb_conserved Specimen.entryDb_released ?_ hs).1⟩
  refine guarded_of_forall _ fun a ha t row hrow ↦ ?_
  simp only [Specimen.lostActs, Specimen.entryActs, List.mem_append, List.mem_cons,
    List.not_mem_nil, or_false] at ha
  rcases ha with (rfl | rfl | rfl | rfl | rfl | rfl | rfl) | rfl | rfl <;> cases hrow

/-- A rejected entry keeps its reservation: the broker answers the submission with `422`, the
intent fails, and its reservation stays live. -/
theorem rejection_leaks_reservation :
    Sound Specimen.entryDb ∧ Conserved Specimen.entryDb ∧ Released Specimen.entryDb ∧
      (Specimen.run (Specimen.entryActs ++
        [.run 0 (.answer (.inl { status := some 422, message := "insufficient buying power" }) 2000),
          .run 0 (.reject 0 .none)])).map Specimen.standing = some [(some .entry, .failed, true)] :=
  ⟨Specimen.entryDb_sound, Specimen.entryDb_conserved, Specimen.entryDb_released,
    by decide +kernel⟩

/-! ## Capital in flight -/

section Backed

variable {db db' : Db}

theorem Backed.advances (h : Backed db) (hsound : Sound db)
    (ha : Relation.ReflTransGen Advance db db') : Sound db' ∧ Backed db' := by
  have hstep : ∀ db₁ db₂, Sound db₁ ∧ Backed db₁ → Advance db₁ db₂ → Sound db₂ ∧ Backed db₂ := by
    intro db₁ db₂ hs hadvance
    rcases hadvance with he | ⟨i, hi⟩
    · exact ⟨hs.1.effect he, hs.2.effect hs.1 he⟩
    · exact ⟨hs.1.creates hi, hs.2.creates hs.1 hi⟩
  exact invariant_of_steps (I := fun db ↦ Sound db ∧ Backed db) hstep ha ⟨hsound, h⟩

/-- A step of recovery respects capital in flight: the expiry meets no overdue reservation of an
entry that may be at the broker, and a stale entry whose order is found still holds a live
reservation. -/
def Sys.SparesInFlight (s : Sys) : Act → Prop
  | .recovery session now .expireReservations => fenceHeld s.db session = true →
    ∀ i ∈ s.db.intents.rows, i.kind s.db = some .entry → i.status ∈ inFlight →
      ∀ r ∈ s.db.reservations.rows, i.reservationId = some r.id → ¬ r.overdue now
  | .recovery session _ (.staleReady intent answer) => fenceHeld s.db session = true →
    staleOrderFound intent answer = true → ∀ i, s.db.intents.get? intent.id = some i →
      i.kind s.db = some .entry → i.status = .readyForSubmission → i.reserved s.db
  | _ => True

/-- A reservation that is not overdue survives the expiry. -/
theorem Expires.reserved_of_not_overdue {now : Time} {i : Intent} (h : Expires db db' now)
    (hi : i.reserved db = true)
    (hover : ∀ r ∈ db.reservations.rows, i.reservationId = some r.id → ¬ r.overdue now) :
    i.reserved db' = true := by
  obtain ⟨p, hp, hres, _, _⟩ := h.reservations
  unfold Intent.reserved at hi ⊢
  obtain ⟨id, hid, hlive⟩ := (Option.any_eq_true _ _).1 hi
  unfold liveReservation at hlive
  obtain ⟨r, hr, hrlive⟩ := (Option.any_eq_true _ _).1 hlive
  have hkey : r.id = id := Table.key_of_get? hr
  have hnot : ¬ p r = true := fun hpr ↦
    hover r (Table.mem_of_get? hr) (by rw [hid, hkey]) (hp r hpr)
  rw [hid, Option.any_some]
  unfold liveReservation
  rw [hres, Table.get?_update, hr, Option.map_some, if_neg hnot, Option.any_some]
  exact hrlive

theorem Backed.unsafeStep {s : Sys} {act : Act} (h : Backed s.db) (hsound : Sound s.db)
    (hguard : s.SparesInFlight act) (hu : s.Unsafe db' act) : Backed db' := by
  have hl := hu.later
  cases hu with
  | rejects _ _ _ hr =>
    obtain ⟨i', hi, hs', _⟩ := hr.replaces
    refine h.replaces hsound hl hi (fun j _ _ hj ↦ ?_) fun _ hflight ↦ ?_
    · rwa [reserved_congr rfl fun id _ ↦ hr.ledger.live id]
    · simp [hs', inFlight] at hflight
  | preserves hid hfence hfound hp =>
    obtain ⟨i', hi, _, hres⟩ := hp.replaces
    refine h.replaces hsound hl hi (fun j _ _ hj ↦ ?_) fun hkind _ ↦ ?_
    · rwa [reserved_congr rfl fun id _ ↦ hp.ledger.live id]
    · obtain ⟨hk, _⟩ := hsound.kind_of_later hl hi.mem_source hi.terms hkind
      rw [reserved_congr hres fun id _ ↦ hp.ledger.live id]
      exact hguard hfence hfound _ (hid ▸ hi.stored) hk hp.status
  | strands _ hs => exact (hsound.not_strands hs).elim
  | expires hfence he =>
    intro i hi hkind hflight
    rw [he.intents] at hi
    obtain ⟨hk, _⟩ := hsound.kind_of_later hl hi rfl hkind
    exact he.reserved_of_not_overdue (h i hi hk hflight) (hguard hfence i hi hk hflight)

variable [Hashing]

/-- The state between two steps, for the capital of open orders. -/
structure Sys.Covered (s : Sys) : Prop where
  valid : s.Valid
  sound : Sound s.db
  backed : Backed s.db

end Backed

end AlpacaTrading
