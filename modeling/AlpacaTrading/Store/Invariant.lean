import AlpacaTrading.Store.Effect

/-!
# Invariants of the machine

What the steps of the machine keep, proved once from the kinds of steps.

* `Sound`: the references between intents, reviews, reservations and terminal transitions, and
  the few facts about statuses that the services rely on without checking them.
* `Conserved`: the reserved counter of a strategy is the sum of its live reservations.
* `Released`: an intent that failed or was cancelled holds no live reservation.
* `Backed`: an entry that may have an order at the broker holds a live reservation.

The last two are not kept by every statement of the services; this file shows that every routine
step keeps them.
-/

namespace AlpacaTrading

/-! ## New intents -/

/-- A new intent is stored as `created`, with a review and without a reservation. -/
structure Creates (db db' : Db) (i : Intent) : Prop where
  grows : Grows db db'
  ledger : SameLedger db db'
  intents : db.intents.insert? i = some db'.intents
  reservationId : i.reservationId = none
  kind : ∃ type, i.kind db' = some type
  status : i.status = .created
  state : i.lifecycleState ∉ exitOrderStates

theorem Creates.later {db db' : Db} {i : Intent} (h : Creates db db' i) : Later db db' := by
  refine ⟨h.grows, fun j hj ↦ ⟨j, Table.mem_of_insert? h.intents hj, rfl, fun hs ↦ ⟨hs, rfl⟩⟩⟩

theorem Creates.mem {db db' : Db} {i j : Intent} (h : Creates db db' i)
    (hj : j ∈ db'.intents.rows) : j ∈ db.intents.rows ∨ j = i := by
  rw [Table.rows_of_insert? h.intents, List.mem_append, List.mem_singleton] at hj
  exact hj

/-! ## Liveness of reservations -/

section Liveness

variable {db db' : Db}

theorem liveReservation_of_get? {id : String} {r : Reservation}
    (h : db.reservations.get? id = some r) : liveReservation db id = r.status.live := by
  unfold liveReservation
  rw [h, Option.any_some]

/-- The liveness of each reservation after one of them is rewritten. -/
theorem liveReservation_modify {r : Reservation} {f : Reservation → Reservation} {hf : Keeps f}
    (hget : db.reservations.get? r.id = some r)
    (h : db'.reservations = db.reservations.modify r.id f hf) (id : String) :
    liveReservation db' id = if id = r.id then (f r).status.live else liveReservation db id := by
  unfold liveReservation
  rw [h, Table.get?_modify]
  by_cases hid : id = r.id
  · subst hid
    rw [if_pos rfl, if_pos rfl, hget]
    rfl
  · rw [if_neg hid, if_neg hid]

theorem SameLedger.live (h : SameLedger db db') (id : String) :
    liveReservation db' id = liveReservation db id := by
  unfold liveReservation
  rw [h.reservations]

theorem Resizes.live_eq {r : Reservation} {remaining : ℚ} (h : Resizes db db' r remaining)
    (id : String) : liveReservation db' id = liveReservation db id := by
  obtain ⟨now, hres⟩ := h.reservations
  rw [liveReservation_modify h.stored hres]
  split
  · next hid =>
    rw [hid, liveReservation_of_get? h.stored]
    rfl
  · rfl

theorem Commits.live_eq {r : Reservation} (h : Commits db db' r) (id : String) :
    liveReservation db' id = liveReservation db id := by
  obtain ⟨now, hres⟩ := h.reservations
  rw [liveReservation_modify h.stored hres]
  split
  · next hid =>
    rw [hid, liveReservation_of_get? h.stored, h.status]
    rfl
  · rfl

theorem Reserves.live_eq {i : Intent} {r : Reservation} (h : Reserves db db' i r) (id : String) :
    liveReservation db' id = if id = r.id then true else liveReservation db id := by
  unfold liveReservation
  rw [Table.get?_insert? h.reservations]
  by_cases hid : id = r.id
  · have hkey : Row.key r = id := hid.symm
    rw [if_pos hkey, if_pos hid, Option.any_some, h.status]
    rfl
  · have hkey : ¬ Row.key r = id := fun hkey ↦ hid hkey.symm
    rw [if_neg hkey, if_neg hid]

theorem Releases.live_eq {r : Reservation} (h : Releases db db' r) (id : String) :
    liveReservation db' id = if id = r.id then false else liveReservation db id := by
  obtain ⟨status, reason, now, hdead, hres⟩ := h.reservations
  rw [liveReservation_modify h.stored hres]
  split
  · exact hdead
  · rfl

theorem Reserves.fresh {i : Intent} {r : Reservation} (h : Reserves db db' i r) :
    db.reservations.get? r.id = none := by
  rw [Table.get?_eq_none]
  intro x hx hkey
  exact Table.not_clash_of_insert? h.reservations hx (Row.clash_of_key hkey)

theorem reserved_eq {i : Intent} {id : String} (h : i.reservationId = some id) :
    i.reserved db = liveReservation db id := by
  unfold Intent.reserved
  rw [h, Option.any_some]

end Liveness

/-! ## References -/

/-- What holds of a single intent whose review has the given type. -/
structure Intent.Fits (type : ReviewType) (i : Intent) : Prop where
  /-- Capital is reserved at promotion, not before. -/
  created : i.status = .created → i.reservationId = none
  /-- Exits reserve nothing. -/
  exit : i.reservationId.isSome → type = .entry
  /-- A promoted entry has a reservation. -/
  promoted : type = .entry → i.status ∉ [.created, .failed, .cancelled] →
    i.reservationId.isSome
  /-- An entry is in no state of an exit order. -/
  state : type = .entry → i.lifecycleState ∉ exitOrderStates
  /-- A reconciled entry is in the state of a terminal broker status. -/
  final : type = .entry → i.status = .reconciled → i.lifecycleState ∈ finalStates

/-- The references of the database are in order. -/
structure Sound (db : Db) : Prop where
  /-- Every intent has a review, and fits its type. -/
  intents : ∀ i ∈ db.intents.rows, ∃ type, i.kind db = some type ∧ i.Fits type
  /-- Every reservation an intent refers to is stored. -/
  stored : ∀ i ∈ db.intents.rows, ∀ id, i.reservationId = some id →
    ∃ r, db.reservations.get? id = some r
  /-- No two intents share a reservation. -/
  owner : ∀ i ∈ db.intents.rows, ∀ j ∈ db.intents.rows, ∀ id, i.reservationId = some id →
    j.reservationId = some id → i.id = j.id
  /-- A terminal transition belongs to a stored reservation that has ended. -/
  ended : ∀ t ∈ db.reservationTransitions.rows,
    ∃ r, db.reservations.get? t.reservationId = some r ∧ r.status.live = false

/-- A database whose only intent is a new entry, without a reservation. -/
theorem Sound.of_created_entry {db : Db} {i : Intent} (hrows : db.intents.rows = [i])
    (hkind : i.kind db = some .entry) (hcreated : i.status = .created)
    (hnone : i.reservationId = none) (hstate : i.lifecycleState ∉ exitOrderStates)
    (hended : db.reservationTransitions.rows = []) : Sound db := by
  have honly : ∀ j ∈ db.intents.rows, j = i := by
    intro j hj
    rwa [hrows, List.mem_singleton] at hj
  refine ⟨fun j hj ↦ ?_, fun j hj id hid ↦ ?_, fun j hj k hk id hid _ ↦ ?_, ?_⟩
  · rw [honly j hj]
    refine ⟨.entry, hkind, fun _ ↦ hnone, fun hsome ↦ ?_, fun _ hpast ↦ ?_, fun _ ↦ hstate,
      fun _ hrec ↦ ?_⟩
    · simp [hnone] at hsome
    · exact absurd (hcreated ▸ List.mem_cons_self) hpast
    · rw [hcreated] at hrec
      cases hrec
  · rw [honly j hj, hnone] at hid
    cases hid
  · rw [honly j hj, hnone] at hid
    cases hid
  · simp [hended]

theorem Sound.ended_live {db : Db} (h : Sound db) (t : ReservationTransition)
    (ht : t ∈ db.reservationTransitions.rows) : liveReservation db t.reservationId = false := by
  obtain ⟨r, hr, hdead⟩ := h.ended t ht
  rw [liveReservation_of_get? hr, hdead]

/-- What the ledger keeps for the references: reservations stay stored, ended ones stay ended,
and a new terminal transition ends its reservation. -/
structure Endures (db db' : Db) : Prop where
  stored : ∀ id r, db.reservations.get? id = some r →
    ∃ r', db'.reservations.get? id = some r' ∧ (r.status.live = false → r'.status.live = false)
  ended : ∀ t ∈ db'.reservationTransitions.rows, t ∈ db.reservationTransitions.rows ∨
    ∃ r', db'.reservations.get? t.reservationId = some r' ∧ r'.status.live = false

section Ledger

variable {db db' : Db}

theorem SameLedger.endures (h : SameLedger db db') : Endures db db' := by
  refine ⟨fun id r hr ↦ ⟨r, ?_, fun hdead ↦ hdead⟩, fun t ht ↦ Or.inl ?_⟩
  · rwa [h.reservations]
  · rwa [h.transitions] at ht

/-- Rewriting one live reservation. -/
private theorem endures_of_modify {r : Reservation} {f : Reservation → Reservation}
    {hf : Keeps f} (hget : db.reservations.get? r.id = some r) (hlive : r.status.live = true)
    (h : db'.reservations = db.reservations.modify r.id f hf)
    (ht : ∀ t ∈ db'.reservationTransitions.rows, t ∈ db.reservationTransitions.rows ∨
      t.reservationId = r.id ∧ (f r).status.live = false) : Endures db db' := by
  have hnew : db'.reservations.get? r.id = some (f r) := by
    rw [h, Table.get?_modify, if_pos rfl, hget]
    rfl
  refine ⟨fun id x hx ↦ ?_, fun t htr ↦ (ht t htr).imp_right ?_⟩
  · by_cases hid : id = r.id
    · subst hid
      obtain rfl : x = r := Option.some_inj.1 (hx.symm.trans hget)
      refine ⟨f x, hnew, fun hdead ↦ ?_⟩
      rw [hlive] at hdead
      cases hdead
    · refine ⟨x, ?_, fun hdead ↦ hdead⟩
      rw [h, Table.get?_modify, if_neg hid, hx]
  · rintro ⟨hid, hdead⟩
    exact ⟨f r, by rw [hid, hnew], hdead⟩

theorem Resizes.endures {r : Reservation} {remaining : ℚ} (h : Resizes db db' r remaining) :
    Endures db db' := by
  obtain ⟨now, hres⟩ := h.reservations
  refine endures_of_modify h.stored h.live hres fun t ht ↦ Or.inl ?_
  rwa [h.transitions] at ht

theorem Commits.endures {r : Reservation} (h : Commits db db' r) : Endures db db' := by
  obtain ⟨now, hres⟩ := h.reservations
  refine endures_of_modify h.stored (by rw [h.status]; rfl) hres fun t ht ↦ Or.inl ?_
  rwa [h.transitions] at ht

theorem Releases.endures {r : Reservation} (h : Releases db db' r) : Endures db db' := by
  obtain ⟨status, reason, now, hdead, hres⟩ := h.reservations
  exact endures_of_modify h.stored h.live hres fun t ht ↦
    (h.transitions t ht).imp_right fun hid ↦ ⟨hid, hdead⟩

theorem Reserves.endures {i : Intent} {r : Reservation} (h : Reserves db db' i r) :
    Endures db db' := by
  refine ⟨fun id x hx ↦ ⟨x, ?_, fun hdead ↦ hdead⟩, fun t ht ↦ Or.inl ?_⟩
  · rw [Table.get?_insert? h.reservations, if_neg, hx]
    intro hkey
    have hfresh := h.fresh
    rw [show r.id = id from hkey, hx] at hfresh
    cases hfresh
  · rwa [h.transitions] at ht

end Ledger

/-! ## Steps keep the references -/

section Rows

variable {db db' : Db} {type : ReviewType} {i i' : Intent}

/-- A move keeps what holds of a single intent. -/
theorem Intent.Fits.moves (h : i.Fits type) (hkind : i.kind db = some type)
    (hf : Follows db i i') (hm : Moves db i i') : i'.Fits type := by
  have hentry : type = .entry → i.kind db = some .entry := fun ht ↦ by rw [hkind, ht]
  have hstate : type = .entry → i'.lifecycleState ∉ exitOrderStates := fun ht hmem ↦
    h.state ht (hf.entry (hentry ht) hmem)
  -- An entry past promotion has a reservation before the move, hence after it.
  have hsome : i.status ∉ [.created, .failed, .cancelled] → type = .entry →
      i'.reservationId.isSome := fun hs ht ↦ by
    rw [hf.reservationId]
    exact h.promoted ht hs
  refine ⟨fun hs ↦ absurd hs hm.status_ne_created, fun hs ↦ h.exit (hf.reservationId ▸ hs), ?_,
    hstate, ?_⟩
  · intro ht hs
    cases hm with
    | claim hst _ _ => exact hsome (by simp [hst]) ht
    | hold hst _ => exact hsome (by simp [hst]) ht
    | acknowledge hst _ _ => exact hsome (by simp [hst]) ht
    | observe hst _ _ =>
      refine hsome (fun hmem ↦ ?_) ht
      simp only [List.mem_cons, List.not_mem_nil, or_false] at hst hmem
      rcases hst with h | h | h | h <;> simp [h] at hmem
    | finish hst _ _ _ =>
      refine hsome (fun hmem ↦ ?_) ht
      simp only [List.mem_cons, List.not_mem_nil, or_false] at hst hmem
      rcases hst with h | h | h | h <;> simp [h] at hmem
    | close hst _ => exact absurd hst (h.state ht)
    | abandon hst _ =>
      simp only [deadStatuses, List.mem_cons, List.not_mem_nil, or_false] at hst
      rcases hst with hst | hst <;> simp [hst] at hs
  · intro ht hs
    cases hm with
    | claim _ hst _ => simp [hst] at hs
    | hold _ hst => simp [hs] at hst
    | acknowledge _ hst _ => simp [hst] at hs
    | observe _ hst _ => simp [hst] at hs
    | finish _ _ hfinal _ => exact hfinal (hentry ht)
    | close hst _ => exact absurd hst (h.state ht)
    | abandon hst _ => simp [hs, deadStatuses] at hst

/-- A step that changes no reference from intents to reservations. -/
theorem Sound.step (h : Sound db) (hl : Later db db') (he : Endures db db')
    (hrows : ∀ i' ∈ db'.intents.rows, ∃ i ∈ db.intents.rows, i'.terms = i.terms ∧
      i'.reservationId = i.reservationId ∧
      ∀ type, i.kind db = some type → i.Fits type → i'.Fits type) : Sound db' := by
  refine ⟨fun i' hi' ↦ ?_, fun i' hi' id hid ↦ ?_, fun i' hi' j' hj' id hi hj ↦ ?_,
    fun t ht ↦ ?_⟩
  · obtain ⟨i, hi, hterms, _, hfits⟩ := hrows i' hi'
    obtain ⟨type, hkind, hfit⟩ := h.intents i hi
    exact ⟨type, hl.kind hterms hkind, hfits type hkind hfit⟩
  · obtain ⟨i, hi, _, hres, _⟩ := hrows i' hi'
    obtain ⟨r, hr⟩ := h.stored i hi id (hres ▸ hid)
    obtain ⟨r', hr', _⟩ := he.stored id r hr
    exact ⟨r', hr'⟩
  · obtain ⟨x, hx, hxt, hxr, _⟩ := hrows i' hi'
    obtain ⟨y, hy, hyt, hyr, _⟩ := hrows j' hj'
    calc i'.id = x.id := congrArg IntentTerms.id hxt
      _ = y.id := h.owner x hx y hy id (hxr ▸ hi) (hyr ▸ hj)
      _ = j'.id := (congrArg IntentTerms.id hyt).symm
  · rcases he.ended t ht with hold | hnew
    · obtain ⟨r, hr, hdead⟩ := h.ended t hold
      obtain ⟨r', hr', hkeep⟩ := he.stored _ r hr
      exact ⟨r', hr', hkeep hdead⟩
    · exact hnew

/-- The rows after a replacement that keeps the reservation. -/
theorem Replaces.rows (h : Replaces db db' i i') (hres : i'.reservationId = i.reservationId)
    (hfits : ∀ type, i.kind db = some type → i.Fits type → i'.Fits type) :
    ∀ j' ∈ db'.intents.rows, ∃ j ∈ db.intents.rows, j'.terms = j.terms ∧
      j'.reservationId = j.reservationId ∧
      ∀ type, j.kind db = some type → j.Fits type → j'.Fits type := by
  intro j' hj'
  rcases h.mem hj' with rfl | ⟨hj, _⟩
  · exact ⟨i, h.mem_source, h.terms, hres, hfits⟩
  · exact ⟨j', hj, rfl, rfl, fun _ _ hf ↦ hf⟩

theorem IntentsMove.rows (h : IntentsMove db db') :
    ∀ j' ∈ db'.intents.rows, ∃ j ∈ db.intents.rows, j'.terms = j.terms ∧
      j'.reservationId = j.reservationId ∧
      ∀ type, j.kind db = some type → j.Fits type → j'.Fits type := by
  intro j' hj'
  obtain ⟨j, hj, rfl | ⟨hf, hm⟩⟩ := h.mem hj'
  · exact ⟨j', hj, rfl, rfl, fun _ _ hfit ↦ hfit⟩
  · exact ⟨j, hj, hf.terms, hf.reservationId, fun type hkind hfit ↦ hfit.moves hkind hf hm⟩

/-- The replacement of an intent whose status becomes one that is neither `created` nor
`reconciled`. -/
theorem Intent.Fits.replace (h : i.Fits type) (hkind : i.kind db = some type)
    (hr : Replaces db db' i i') (hres : i'.reservationId = i.reservationId)
    (hcreated : i'.status ≠ .created) (hreconciled : i'.status ≠ .reconciled)
    (hpromoted : i.status ∉ [.created, .failed, .cancelled] ∨ i'.status ∈ deadStatuses ∨
      type = .exit) : i'.Fits type := by
  refine ⟨fun hs ↦ absurd hs hcreated, fun hs ↦ h.exit (hres ▸ hs), fun ht hs ↦ ?_,
    fun ht hmem ↦ ?_, fun _ hs ↦ absurd hs hreconciled⟩
  · rcases hpromoted with hp | hdead | hexit
    · rw [hres]
      exact h.promoted ht hp
    · simp only [deadStatuses, List.mem_cons, List.not_mem_nil, or_false] at hdead
      rcases hdead with hdead | hdead <;> simp [hdead] at hs
    · rw [hexit] at ht
      cases ht
  · exact h.state ht (hr.entry (by rw [hkind, ht]) hmem)

/-- A promotion refers to a reservation nobody refers to. -/
theorem Sound.confirmEntry {r : Reservation} (h : Sound db) (hl : Later db db')
    (hi : Replaces db db' i i') (hs' : i'.status = .readyForSubmission) (hkind : i.kind db = some .entry)
    (hsome : i'.reservationId = some r.id) (hledger : Reserves db db' i r) : Sound db' := by
  have hendures := hledger.endures
  have hfresh : ∀ j ∈ db.intents.rows, j.reservationId ≠ some r.id := by
    intro j hj hid
    obtain ⟨x, hx⟩ := h.stored j hj r.id hid
    rw [hledger.fresh] at hx
    cases hx
  have hnew : ∃ r', db'.reservations.get? r.id = some r' := by
    refine ⟨r, ?_⟩
    rw [Table.get?_insert? hledger.reservations]
    exact if_pos rfl
  refine ⟨fun j hj ↦ ?_, fun j hj id hid ↦ ?_, fun j hj k hk id hjid hkid ↦ ?_, fun t ht ↦ ?_⟩
  · rcases hi.mem hj with rfl | ⟨hj, _⟩
    · obtain ⟨type, hk, hfit⟩ := h.intents i hi.mem_source
      obtain rfl : type = .entry := Option.some_inj.1 (hk.symm.trans hkind)
      refine ⟨.entry, hl.kind hi.terms hk, fun hc ↦ ?_, fun _ ↦ rfl, fun _ _ ↦ ?_,
        fun _ hmem ↦ hfit.state rfl (hi.entry hk hmem), fun _ hc ↦ ?_⟩
      · simp [hs'] at hc
      · simp [hsome]
      · simp [hs'] at hc
    · obtain ⟨type, hk, hfit⟩ := h.intents j hj
      exact ⟨type, hl.kind rfl hk, hfit⟩
  · rcases hi.mem hj with rfl | ⟨hj, _⟩
    · rw [hsome, Option.some_inj] at hid
      rw [← hid]
      exact hnew
    · obtain ⟨x, hx⟩ := h.stored j hj id hid
      obtain ⟨x', hx', _⟩ := hendures.stored id x hx
      exact ⟨x', hx'⟩
  · rcases hi.mem hj with rfl | ⟨hj, _⟩ <;> rcases hi.mem hk with rfl | ⟨hk, _⟩
    · rfl
    · rw [hsome, Option.some_inj] at hjid
      exact absurd (hjid ▸ hkid) (hfresh k hk)
    · rw [hsome, Option.some_inj] at hkid
      exact absurd (hkid ▸ hjid) (hfresh j hj)
    · exact h.owner j hj k hk id hjid hkid
  · rcases hendures.ended t ht with hold | hnew
    · obtain ⟨x, hx, hdead⟩ := h.ended t hold
      obtain ⟨x', hx', hkeep⟩ := hendures.stored _ x hx
      exact ⟨x', hx', hkeep hdead⟩
    · exact hnew

/-- **Routine steps keep the references.** -/
theorem Sound.effect (h : Sound db) (he : Effect db db') : Sound db' := by
  have hl := he.later
  cases he.routine with
  | moves hi hledger => exact h.step hl hledger.endures hi.rows
  | resize hi hledger => exact h.step hl hledger.endures hi.rows
  | @confirmExit i i' hi hs hs' hkind hnone hledger =>
    refine h.step hl hledger.endures (hi.rows ?_ fun type hk hfit ↦ ?_)
    · obtain ⟨type, _, hfit⟩ := h.intents i hi.mem_source
      rw [hnone, hfit.created hs]
    · refine hfit.replace hk hi ?_ (by simp [hs']) (by simp [hs']) (Or.inr (Or.inr ?_))
      · rw [hnone, hfit.created hs]
      · exact Option.some_inj.1 (hk.symm.trans hkind)
  | confirmEntry hi _ hs' hkind hsome hledger =>
    exact h.confirmEntry hl hi hs' hkind hsome hledger
  | @commit i i' r hi hs hs' hres hkeep hledger =>
    refine h.step hl hledger.endures (hi.rows hkeep fun type hk hfit ↦ ?_)
    exact hfit.replace hk hi hkeep (by simp [hs']) (by simp [hs']) (Or.inl (by simp [hs]))
  | @drop i i' r hi hs hs' hres hkeep hledger =>
    refine h.step hl hledger.endures (hi.rows hkeep fun type hk hfit ↦ ?_)
    refine hfit.replace hk hi hkeep ?_ ?_ (Or.inr (Or.inl hs'))
    · intro hc
      simp [hc, deadStatuses] at hs'
    · intro hc
      simp [hc, deadStatuses] at hs'
  | settle hi _ _ _ hledger => exact h.step hl hledger.endures (IntentsMove.of_eq hi).rows

/-- So does a new intent. -/
theorem Sound.creates (h : Sound db) (hc : Creates db db' i) : Sound db' := by
  have hl := hc.later
  have hendures := hc.ledger.endures
  refine ⟨fun j hj ↦ ?_, fun j hj id hid ↦ ?_, fun j hj k hk id hjid hkid ↦ ?_, fun t ht ↦ ?_⟩
  · rcases hc.mem hj with hj | rfl
    · obtain ⟨type, hk, hfit⟩ := h.intents j hj
      exact ⟨type, hl.kind rfl hk, hfit⟩
    · obtain ⟨type, hk⟩ := hc.kind
      refine ⟨type, hk, fun _ ↦ hc.reservationId, fun hsome ↦ ?_, fun _ hne ↦ ?_,
        fun _ ↦ hc.state, fun _ hr ↦ ?_⟩
      · simp [hc.reservationId] at hsome
      · simp [hc.status] at hne
      · simp [hc.status] at hr
  · rcases hc.mem hj with hj | rfl
    · obtain ⟨x, hx⟩ := h.stored j hj id hid
      obtain ⟨x', hx', _⟩ := hendures.stored id x hx
      exact ⟨x', hx'⟩
    · rw [hc.reservationId] at hid
      cases hid
  · rcases hc.mem hj with hj | rfl
    · rcases hc.mem hk with hk | rfl
      · exact h.owner j hj k hk id hjid hkid
      · rw [hc.reservationId] at hkid
        cases hkid
    · rw [hc.reservationId] at hjid
      cases hjid
  · rw [hc.ledger.transitions] at ht
    rw [hc.ledger.reservations]
    exact h.ended t ht

end Rows

/-! ## Conservation -/

/-- The reserved counter of every strategy with a current allocation is the sum of its live
reservations. -/
def Conserved (db : Db) : Prop :=
  ∀ accountId strategyKey, (∃ a ∈ db.allocations.rows, a.serves accountId strategyKey) →
    reservedAmount db.allocations accountId strategyKey =
      heldAmount db.reservations accountId strategyKey

section Conservation

variable {db db' : Db}

/-- Without reservations, and with nothing reserved. -/
theorem Conserved.of_unreserved (hreservations : db.reservations.rows = [])
    (hallocations : ∀ a ∈ db.allocations.rows, a.reservedAmount = 0) : Conserved db := by
  intro accountId strategyKey _
  have hreserved : reservedAmount db.allocations accountId strategyKey = 0 := by
    refine Table.total_eq_zero fun a ha ↦ ?_
    rw [hallocations a ha, ite_self]
  have hheld : heldAmount db.reservations accountId strategyKey = 0 := by
    refine Table.total_eq_zero fun r hr ↦ ?_
    rw [hreservations] at hr
    cases hr
  rw [hreserved, hheld]

theorem Conserved.ledger (h : Conserved db) (hl : SameLedger db db') : Conserved db' := by
  intro accountId strategyKey hserves
  rw [hl.allocations] at hserves ⊢
  rw [hl.reservations]
  exact h accountId strategyKey hserves

/-- **The counter covers every live reservation**, so no clamp and no guard of the services on it
ever binds. -/
theorem Conserved.covers (h : Conserved db) {r : Reservation} (hr : r ∈ db.reservations.rows)
    (hlive : r.status.live)
    (hserves : ∃ a ∈ db.allocations.rows, a.serves r.accountId r.strategyKey) :
    r.amount ≤ reservedAmount db.allocations r.accountId r.strategyKey := by
  rw [h _ _ hserves]
  exact amount_le_heldAmount hr hlive

theorem Conserved.nonneg (h : Conserved db) {accountId strategyKey : String}
    (hserves : ∃ a ∈ db.allocations.rows, a.serves accountId strategyKey) :
    0 ≤ reservedAmount db.allocations accountId strategyKey := by
  rw [h _ _ hserves]
  exact heldAmount_nonneg _ _ _

/-- A change of one strategy: its counter and its sum move by the same amount. -/
theorem Conserved.adjust {account strategy : String} {g : ℚ → ℚ} {deployed : ℚ} {now : Time}
    (h : Conserved db)
    (ha : db'.allocations = adjust db.allocations account strategy g deployed now)
    (hother : ∀ accountId strategyKey, ¬ (accountId = account ∧ strategyKey = strategy) →
      heldAmount db'.reservations accountId strategyKey =
        heldAmount db.reservations accountId strategyKey)
    (hsame : (∃ a ∈ db.allocations.rows, a.serves account strategy) →
      g (heldAmount db.reservations account strategy) =
        heldAmount db'.reservations account strategy) : Conserved db' := by
  intro accountId strategyKey hserves
  rw [ha, exists_serves_adjust] at hserves
  rw [ha]
  by_cases hcase : accountId = account ∧ strategyKey = strategy
  · obtain ⟨rfl, rfl⟩ := hcase
    obtain ⟨a, hmem, hs⟩ := hserves
    rw [reservedAmount_adjust hmem hs, h _ _ ⟨a, hmem, hs⟩]
    exact hsame ⟨a, hmem, hs⟩
  · rw [reservedAmount_adjust_other hcase, hother _ _ hcase]
    exact h _ _ hserves

theorem Conserved.reserves {i : Intent} {r : Reservation} (h : Conserved db)
    (hr : Reserves db db' i r) : Conserved db' := by
  obtain ⟨now, ha⟩ := hr.allocations
  have hlive : r.status.live = true := by
    rw [hr.status]
    rfl
  have hheld : ∀ accountId strategyKey, heldAmount db'.reservations accountId strategyKey =
      heldAmount db.reservations accountId strategyKey + r.held accountId strategyKey :=
    fun _ _ ↦ Table.total_insert? hr.reservations _
  refine h.adjust ha (fun accountId strategyKey hne ↦ ?_) fun _ ↦ ?_
  · rw [hheld, held_of_other hne, add_zero]
  · rw [hheld, held_of_live hlive]

/-- A live reservation that keeps its strategy but changes its amount or its status. -/
private theorem heldAmount_of_modify {r : Reservation} {f : Reservation → Reservation}
    {hf : Keeps f} (hget : db.reservations.get? r.id = some r)
    (hres : db'.reservations = db.reservations.modify r.id f hf)
    (haccount : (f r).accountId = r.accountId) (hstrategy : (f r).strategyKey = r.strategyKey) :
    (∀ accountId strategyKey, ¬ (accountId = r.accountId ∧ strategyKey = r.strategyKey) →
      heldAmount db'.reservations accountId strategyKey =
        heldAmount db.reservations accountId strategyKey) ∧
    heldAmount db'.reservations r.accountId r.strategyKey =
      heldAmount db.reservations r.accountId r.strategyKey +
        ((f r).held r.accountId r.strategyKey - r.held r.accountId r.strategyKey) := by
  refine ⟨fun accountId strategyKey hne ↦ ?_, ?_⟩
  · rw [hres, heldAmount_modify hget, held_of_other hne, held_of_other, sub_zero, add_zero]
    rw [haccount, hstrategy]
    exact hne
  · rw [hres, heldAmount_modify hget]

theorem Conserved.commits {r : Reservation} (h : Conserved db) (hc : Commits db db' r) :
    Conserved db' := by
  obtain ⟨now, hres⟩ := hc.reservations
  have hlive : r.status.live = true := by
    rw [hc.status]
    rfl
  obtain ⟨hother, hsame⟩ := heldAmount_of_modify hc.stored hres rfl rfl
  have hcommitted : (r.commit now).held r.accountId r.strategyKey = r.amount :=
    held_of_live (r := r.commit now) rfl
  rw [hcommitted, held_of_live hlive, sub_self, add_zero] at hsame
  intro accountId strategyKey hserves
  rw [hc.allocations] at hserves ⊢
  rw [h _ _ hserves]
  by_cases hcase : accountId = r.accountId ∧ strategyKey = r.strategyKey
  · rw [hcase.1, hcase.2, hsame]
  · rw [hother _ _ hcase]

theorem Conserved.resizes {r : Reservation} {remaining : ℚ} (h : Conserved db)
    (hz : Resizes db db' r remaining) : Conserved db' := by
  obtain ⟨now, hres⟩ := hz.reservations
  obtain ⟨now', ha⟩ := hz.allocations
  obtain ⟨hother, hsame⟩ := heldAmount_of_modify hz.stored hres rfl rfl
  have hresized : (r.resize remaining hz.positive now).held r.accountId r.strategyKey =
      remaining := held_of_live (r := r.resize remaining hz.positive now) hz.live
  rw [hresized, held_of_live hz.live] at hsame
  refine h.adjust ha hother fun _ ↦ ?_
  rw [hsame]
  ring

theorem Conserved.releases {r : Reservation} (h : Conserved db) (hl : Releases db db' r) :
    Conserved db' := by
  obtain ⟨status, reason, now, hdead, hres⟩ := hl.reservations
  obtain ⟨hother, hsame⟩ := heldAmount_of_modify hl.stored hres rfl rfl
  have hmem := Table.mem_of_get? hl.stored
  have hreleased : (r.release status reason now).held r.accountId r.strategyKey = 0 := by
    unfold Reservation.held Reservation.holds
    rw [if_neg]
    simp [Reservation.release, hdead]
  rw [hreleased, held_of_live hl.live] at hsame
  rcases hl.allocations with ⟨g, deployed, now', hg, ha⟩ | ⟨_, a, ha, hs, hshort⟩
  · refine h.adjust ha hother fun _ ↦ ?_
    rw [hg _ (amount_le_heldAmount hmem hl.live), hsame]
    ring
  · -- The counter covers the reservation, so the branch that leaves it alone is not taken.
    have hcovers := h.covers hmem hl.live ⟨a, ha, hs⟩
    rw [reservedAmount_eq ha hs] at hcovers
    linarith

/-- **Routine steps conserve reservations.** -/
theorem Conserved.effect (h : Conserved db) (he : Effect db db') : Conserved db' := by
  cases he.routine with
  | moves _ hl => exact h.ledger hl
  | resize _ hl => exact h.resizes hl
  | confirmExit _ _ _ _ _ hl => exact h.ledger hl
  | confirmEntry _ _ _ _ _ hl => exact h.reserves hl
  | commit _ _ _ _ _ hl => exact h.commits hl
  | drop _ _ _ _ _ hl => exact h.releases hl
  | settle _ _ _ _ hl => exact h.releases hl

end Conservation

/-! ## Capital of ended and of open orders -/

/-- No failed or cancelled intent holds a live reservation. -/
def Released (db : Db) : Prop :=
  ∀ i ∈ db.intents.rows, i.status ∈ deadStatuses → i.reserved db = false

/-- Every entry whose order may be at the broker holds a live reservation. -/
def Backed (db : Db) : Prop :=
  ∀ i ∈ db.intents.rows, i.kind db = some .entry → i.status ∈ inFlight → i.reserved db = true

section Capital

variable {db db' : Db} {i i' : Intent}

theorem reserved_congr (hres : i'.reservationId = i.reservationId)
    (hlive : ∀ id, i.reservationId = some id → liveReservation db' id = liveReservation db id) :
    i'.reserved db' = i.reserved db := by
  unfold Intent.reserved
  rw [hres]
  cases hid : i.reservationId with
  | none => rfl
  | some id => simp only [Option.any_some, hlive id hid]

/-- The reservation of a stored intent is not the one a promotion inserts. -/
theorem Sound.live_reserves {j : Intent} {r : Reservation} (h : Sound db)
    (hr : Reserves db db' i r) (hj : j ∈ db.intents.rows) : j.reserved db' = j.reserved db := by
  refine reserved_congr rfl fun id hid ↦ ?_
  obtain ⟨x, hx⟩ := h.stored j hj id hid
  rw [hr.live_eq, if_neg]
  rintro rfl
  rw [hr.fresh] at hx
  cases hx

theorem Releases.reserved_false {j : Intent} {r : Reservation} (h : Releases db db' r)
    (hj : j.reserved db = false) : j.reserved db' = false := by
  unfold Intent.reserved at hj ⊢
  cases hid : j.reservationId with
  | none => rfl
  | some id =>
    rw [hid, Option.any_some] at hj
    rw [Option.any_some, h.live_eq, hj, ite_self]

theorem Moves.dead (h : Moves db i i') (hdead : i'.status ∈ deadStatuses) :
    i.status = .created ∨ i.reserved db = false := by
  cases h with
  | abandon _ hfree => exact hfree.imp_right And.right
  | hold _ hs' =>
    simp only [List.mem_cons, List.not_mem_nil, or_false] at hs'
    rcases hs' with hs' | hs' | hs' <;> simp [hs', deadStatuses] at hdead
  | claim _ hs' _ => simp [hs', deadStatuses] at hdead
  | acknowledge _ hs' _ => simp [hs', deadStatuses] at hdead
  | observe _ hs' _ => simp [hs', deadStatuses] at hdead
  | finish _ hs' _ _ => simp [hs', deadStatuses] at hdead
  | close _ hs' => simp [hs', deadStatuses] at hdead

/-- Moves give up only what holds nothing. -/
theorem Released.moves (h : Released db) (hsound : Sound db) (hm : IntentsMove db db')
    (hlive : ∀ id, liveReservation db' id = liveReservation db id) : Released db' := by
  intro j' hj' hdead
  obtain ⟨j, hj, rfl | ⟨hf, hmove⟩⟩ := hm.mem hj'
  · rw [reserved_congr rfl fun id _ ↦ hlive id]
    exact h j' hj hdead
  · rw [reserved_congr hf.reservationId fun id _ ↦ hlive id]
    rcases hmove.dead hdead with hs | hfree
    · obtain ⟨type, _, hfit⟩ := hsound.intents j hj
      unfold Intent.reserved
      rw [hfit.created hs, Option.any_none]
    · exact hfree

/-- The replacement of one intent. -/
theorem Released.replaces (h : Released db) (hr : Replaces db db' i i')
    (hlive : ∀ j ∈ db.intents.rows, j.reserved db = false → j.reserved db' = false)
    (hnew : i'.status ∈ deadStatuses → i'.reserved db' = false) : Released db' := by
  intro j hj hdead
  rcases hr.mem hj with rfl | ⟨hj, _⟩
  · exact hnew hdead
  · exact hlive j hj (h j hj hdead)

/-- **Routine steps release what ended intents hold.** -/
theorem Released.effect (h : Released db) (hsound : Sound db) (he : Effect db db') :
    Released db' := by
  cases he.routine with
  | moves hi hl => exact h.moves hsound hi hl.live
  | resize hi hl => exact h.moves hsound hi hl.live_eq
  | confirmExit hi _ hs' _ _ hl =>
    refine h.replaces hi (fun j _ hj ↦ ?_) fun hdead ↦ ?_
    · rwa [reserved_congr rfl fun id _ ↦ hl.live id]
    · simp [hs', deadStatuses] at hdead
  | confirmEntry hi _ hs' _ _ hl =>
    refine h.replaces hi (fun j hmem hj ↦ ?_) fun hdead ↦ ?_
    · rwa [hsound.live_reserves hl hmem]
    · simp [hs', deadStatuses] at hdead
  | commit hi _ hs' _ _ hl =>
    refine h.replaces hi (fun j _ hj ↦ ?_) fun hdead ↦ ?_
    · rwa [reserved_congr rfl fun id _ ↦ hl.live_eq id]
    · simp [hs', deadStatuses] at hdead
  | drop hi _ _ hres hkeep hl =>
    refine h.replaces hi (fun _ _ hj ↦ hl.reserved_false hj) fun _ ↦ ?_
    rw [reserved_eq (hkeep.trans hres), hl.live_eq, if_pos rfl]
  | settle hi _ _ _ hl =>
    intro j hj hdead
    rw [hi] at hj
    exact hl.reserved_false (h j hj hdead)

theorem Released.creates (h : Released db) (hc : Creates db db' i) : Released db' := by
  intro j hj hdead
  rcases hc.mem hj with hj | rfl
  · rw [reserved_congr rfl fun id _ ↦ hc.ledger.live id]
    exact h j hj hdead
  · unfold Intent.reserved
    rw [hc.reservationId, Option.any_none]

/-- A move of an entry to a status in flight starts from a reserved intent. -/
theorem Moves.inFlight (h : Moves db i i') (hfit : i.Fits .entry)
    (hkind : i.kind db = some .entry) (hback : i.status ∈ AlpacaTrading.inFlight → i.reserved db)
    (hf : i'.status ∈ AlpacaTrading.inFlight) : i.reserved db := by
  cases h with
  | claim hs _ hlive =>
    obtain ⟨id, hid⟩ := Option.isSome_iff_exists.1 (hfit.promoted rfl (by simp [hs]))
    rw [reserved_eq hid]
    exact hlive id hid
  | hold hs _ => exact hback (by simp [AlpacaTrading.inFlight, hs])
  | acknowledge hs _ _ => exact hback (by simp [AlpacaTrading.inFlight, hs])
  | observe hs _ hopen =>
    by_cases hrec : i.status = .reconciled
    · exact absurd (hfit.final rfl hrec) (hopen hkind)
    · refine hback ?_
      simp only [List.mem_cons, List.not_mem_nil, or_false] at hs
      rcases hs with hs | hs | hs | hs
      · simp [AlpacaTrading.inFlight, hs]
      · simp [AlpacaTrading.inFlight, hs]
      · simp [AlpacaTrading.inFlight, hs]
      · exact absurd hs hrec
  | finish _ hs' _ _ => simp [hs', AlpacaTrading.inFlight] at hf
  | close _ hs' => simp [hs', AlpacaTrading.inFlight] at hf
  | abandon hs' _ =>
    simp only [deadStatuses, List.mem_cons, List.not_mem_nil, or_false] at hs'
    rcases hs' with hs' | hs' <;> simp [hs', AlpacaTrading.inFlight] at hf

/-- The type of the review of a stored intent is the one it had. -/
theorem Sound.kind_of_later (h : Sound db) (hl : Later db db') (hi : i ∈ db.intents.rows)
    (hterms : i'.terms = i.terms) {type : ReviewType} (hk : i'.kind db' = some type) :
    i.kind db = some type ∧ i.Fits type := by
  obtain ⟨t, ht, hfit⟩ := h.intents i hi
  obtain rfl : type = t := Option.some_inj.1 (hk.symm.trans (hl.kind hterms ht))
  exact ⟨ht, hfit⟩

theorem Backed.moves (h : Backed db) (hsound : Sound db) (hl : Later db db')
    (hm : IntentsMove db db') (hlive : ∀ id, liveReservation db' id = liveReservation db id) :
    Backed db' := by
  intro j' hj' hkind hflight
  obtain ⟨j, hj, rfl | ⟨hf, hmove⟩⟩ := hm.mem hj'
  · obtain ⟨hk, _⟩ := hsound.kind_of_later hl hj rfl hkind
    rw [reserved_congr rfl fun id _ ↦ hlive id]
    exact h j' hj hk hflight
  · obtain ⟨hk, hfit⟩ := hsound.kind_of_later hl hj hf.terms hkind
    rw [reserved_congr hf.reservationId fun id _ ↦ hlive id]
    exact hmove.inFlight hfit hk (h j hj hk) hflight

theorem Backed.replaces (h : Backed db) (hsound : Sound db) (hl : Later db db')
    (hr : Replaces db db' i i')
    (hlive : ∀ j ∈ db.intents.rows, j.id ≠ i.id → j.reserved db = true → j.reserved db' = true)
    (hnew : i'.kind db' = some .entry → i'.status ∈ inFlight → i'.reserved db' = true) :
    Backed db' := by
  intro j hj hkind hflight
  rcases hr.mem hj with rfl | ⟨hj, hne⟩
  · exact hnew hkind hflight
  · obtain ⟨hk, _⟩ := hsound.kind_of_later hl hj rfl hkind
    exact hlive j hj hne (h j hj hk hflight)

/-- A released reservation belongs to one intent only. -/
theorem Releases.reserved_other {j : Intent} {r : Reservation} (h : Releases db db' r)
    (hsound : Sound db) (hi : i ∈ db.intents.rows) (hres : i.reservationId = some r.id)
    (hj : j ∈ db.intents.rows) (hne : j.id ≠ i.id) : j.reserved db' = j.reserved db := by
  refine reserved_congr rfl fun id hid ↦ ?_
  rw [h.live_eq, if_neg]
  rintro rfl
  exact hne (hsound.owner j hj i hi r.id hid hres)

/-- **Routine steps keep the capital of open orders reserved.** -/
theorem Backed.effect (h : Backed db) (hsound : Sound db) (he : Effect db db') : Backed db' := by
  have hl := he.later
  cases he.routine with
  | moves hi hledger => exact h.moves hsound hl hi hledger.live
  | resize hi hledger => exact h.moves hsound hl hi hledger.live_eq
  | confirmExit hi _ hs' _ _ hledger =>
    refine h.replaces hsound hl hi (fun j _ _ hj ↦ ?_) fun _ hf ↦ ?_
    · rwa [reserved_congr rfl fun id _ ↦ hledger.live id]
    · simp [hs', inFlight] at hf
  | confirmEntry hi _ hs' _ _ hledger =>
    refine h.replaces hsound hl hi (fun j hmem _ hj ↦ ?_) fun _ hf ↦ ?_
    · rwa [hsound.live_reserves hledger hmem]
    · simp [hs', inFlight] at hf
  | commit hi hs _ hres hkeep hledger =>
    refine h.replaces hsound hl hi (fun j _ _ hj ↦ ?_) fun _ _ ↦ ?_
    · rwa [reserved_congr rfl fun id _ ↦ hledger.live_eq id]
    · rw [reserved_eq (hkeep.trans hres), hledger.live_eq,
        liveReservation_of_get? hledger.stored, hledger.status]
      rfl
  | @drop i i' r hi _ hs' hres _ hledger =>
    refine h.replaces hsound hl hi (fun j hmem hne hj ↦ ?_) fun _ hf ↦ ?_
    · rwa [hledger.reserved_other hsound hi.mem_source hres hmem hne]
    · simp only [deadStatuses, List.mem_cons, List.not_mem_nil, or_false] at hs'
      rcases hs' with hs' | hs' <;> simp [hs', inFlight] at hf
  | @settle i r hi hget hs hres hledger =>
    intro j hj hkind hflight
    rw [hi] at hj
    obtain ⟨hk, _⟩ := hsound.kind_of_later hl hj rfl hkind
    have hne : j.id ≠ i.id := by
      intro hid
      obtain rfl : j = i := db.intents.eq_of_key hj (Table.mem_of_get? hget) hid
      simp [hs, inFlight] at hflight
    rw [hledger.reserved_other hsound (Table.mem_of_get? hget) hres hj hne]
    exact h j hj hk hflight

theorem Backed.creates (h : Backed db) (hsound : Sound db) (hc : Creates db db' i) :
    Backed db' := by
  intro j hj hkind hflight
  rcases hc.mem hj with hj | rfl
  · obtain ⟨hk, _⟩ := hsound.kind_of_later hc.later hj rfl hkind
    rw [reserved_congr rfl fun id _ ↦ hc.ledger.live id]
    exact h j hj hk hflight
  · simp [hc.status, inFlight] at hflight

end Capital

end AlpacaTrading
