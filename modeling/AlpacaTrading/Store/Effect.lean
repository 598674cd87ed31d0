import AlpacaTrading.Store.Ledger

/-!
# What a statement may do

The services change intents and the ledger by many statements, but by few kinds of change.  This
file names the kinds.  A committed statement is a `Routine` step: it moves intents along their
statuses and leaves the ledger alone, or it reserves, commits, resizes or releases the capital of
one intent together with the move of that intent.

`Routine` is the abstract machine behind the services.  The modules that follow show of each
statement which kind of step it is, once; the invariants are then proved about the kinds.

## What is never undone

`Later` collects what every statement respects: events stay, the identity of an intent and the
type of its review stay, and an intent that left `created` keeps its reservation for good.  A
worker that holds a row it read earlier may therefore still rely on these columns.
-/

namespace AlpacaTrading

/-! ## Intents -/

/-- The columns of an intent that no statement changes. -/
structure IntentTerms where
  id : String
  accountId : String
  clientOrderId : String
  strategyKey : String
  symbol : String
  executionReviewId : Option String
  candidateId : Option String
  parentPositionId : Option String
  quantity : Option ℚ
  maxRisk : Option ℚ

/-- The terms of an intent. -/
def Intent.terms (i : Intent) : IntentTerms where
  id := i.id
  accountId := i.accountId
  clientOrderId := i.clientOrderId
  strategyKey := i.strategyKey
  symbol := i.symbol
  executionReviewId := i.executionReviewId
  candidateId := i.candidateId
  parentPositionId := i.parentPositionId
  quantity := i.quantity
  maxRisk := i.maxRisk

/-- Whether an intent opens or closes a position: the type of its review. -/
def Intent.kind (db : Db) (i : Intent) : Option ReviewType :=
  (i.executionReviewId.bind db.reviews.get?).map (·.reviewType)

/-- The reservation is stored and live. -/
def liveReservation (db : Db) (id : String) : Bool :=
  (db.reservations.get? id).any (·.status.live)

/-- The intent holds a live reservation. -/
def Intent.reserved (db : Db) (i : Intent) : Bool := i.reservationId.any (liveReservation db)

/-- The lifecycle states in which an exit order is open. -/
def exitOrderStates : List LifecycleState := [.exitBrokerOrderDiscovered, .exitPartiallyFilled]

/-- The lifecycle states a terminal broker status leads an entry to. -/
def finalStates : List LifecycleState := [.filled, .cancelled, .rejected, .expired]

/-- The final states of an order that was not filled. -/
def unfilledStates : List LifecycleState := [.cancelled, .rejected, .expired]

/-- The states the broker statuses stand for are, for an entry, none of an open exit order. -/
theorem entryState_not_exitOrder (status : String) :
    lifecycleStateForBrokerStatus .entry status ∉ exitOrderStates := by
  unfold lifecycleStateForBrokerStatus
  dsimp only
  repeat' split
  all_goals simp [exitOrderStates]

/-- The statuses in which an order of the intent may be at the broker. -/
def inFlight : List IntentStatus := [.submissionPending, .ambiguous, .submitted]

/-- The statuses after which nothing happens to an intent. -/
def deadStatuses : List IntentStatus := [.failed, .cancelled]

/-- The moves of a single intent that need no change of the ledger. -/
inductive Moves (db : Db) (i i' : Intent) : Prop
  /-- A ready intent is claimed, its reservation being live. -/
  | claim (hstatus : i.status = .readyForSubmission) (hstatus' : i'.status = .submissionPending)
      (hlive : ∀ id, i.reservationId = some id → liveReservation db id)
  /-- A claimed intent is given back, or its submission attempted or in doubt. -/
  | hold (hstatus : i.status = .submissionPending)
      (hstatus' : i'.status ∈ [.readyForSubmission, .submissionPending, .ambiguous])
  /-- The order of an intent without reservation is acknowledged. -/
  | acknowledge (hstatus : i.status = .submissionPending) (hstatus' : i'.status = .submitted)
      (hnone : i.reservationId = none)
  /-- The order was seen open. -/
  | observe (hstatus : i.status ∈ [.submissionPending, .submitted, .ambiguous, .reconciled])
      (hstatus' : i'.status = .submitted)
      (hopen : i.kind db = some .entry → i.lifecycleState ∉ finalStates)
  /-- The order was seen in a terminal status. -/
  | finish (hstatus : i.status ∈ [.submissionPending, .submitted, .ambiguous, .reconciled])
      (hstatus' : i'.status = .reconciled)
      (hfinal : i.kind db = some .entry → i'.lifecycleState ∈ finalStates)
      (hended : i.kind db = some .entry → i.lifecycleState ∈ unfilledStates →
        i'.lifecycleState = i.lifecycleState)
  /-- The position of an exit is closed. -/
  | close (hstate : i.lifecycleState ∈ exitOrderStates) (hstatus' : i'.status = .reconciled)
  /-- An intent that holds nothing is given up. -/
  | abandon (hstatus' : i'.status ∈ deadStatuses) (hfree : i.status = .created ∨
      i.status ∈ [.readyForSubmission, .submissionPending, .ambiguous] ∧ i.reserved db = false)

/-- What a move keeps: the terms, the reservation, and for an entry that it is not in the state of
an open exit order. -/
structure Follows (db : Db) (i i' : Intent) : Prop where
  terms : i'.terms = i.terms
  reservationId : i'.reservationId = i.reservationId
  entry : i.kind db = some .entry → i'.lifecycleState ∈ exitOrderStates →
    i.lifecycleState ∈ exitOrderStates

/-- The intents of the second state are those of the first, some of them moved. -/
def IntentsMove (db db' : Db) : Prop :=
  ∃ p f, ∃ hf : Keeps f, db'.intents = db.intents.update p f hf ∧
    ∀ i ∈ db.intents.rows, p i → Follows db i (f i) ∧ Moves db i (f i)

/-- One intent is replaced by its image. -/
structure Replaces (db db' : Db) (i i' : Intent) : Prop where
  stored : db.intents.get? i.id = some i
  intents : ∃ f, ∃ hf : Keeps f, db'.intents = db.intents.modify i.id f hf ∧ f i = i'
  terms : i'.terms = i.terms
  entry : i.kind db = some .entry → i'.lifecycleState ∈ exitOrderStates →
    i.lifecycleState ∈ exitOrderStates

/-! ## The ledger -/

/-- Reservations, counters and terminal transitions stay. -/
structure SameLedger (db db' : Db) : Prop where
  reservations : db'.reservations = db.reservations
  allocations : db'.allocations = db.allocations
  transitions : db'.reservationTransitions = db.reservationTransitions

/-- A reservation of an intent is stored and the counter of its strategy raised. -/
structure Reserves (db db' : Db) (i : Intent) (r : Reservation) : Prop where
  status : r.status = .active
  owner : r.accountId = i.accountId ∧ r.strategyKey = i.strategyKey
  reservations : db.reservations.insert? r = some db'.reservations
  served : ∃ a ∈ db.allocations.rows, a.serves r.accountId r.strategyKey
  allocations : ∃ now, db'.allocations =
    adjust db.allocations r.accountId r.strategyKey (· + r.amount) 0 now
  transitions : db'.reservationTransitions = db.reservationTransitions

/-- An active reservation is tied to its order. -/
structure Commits (db db' : Db) (r : Reservation) : Prop where
  stored : db.reservations.get? r.id = some r
  status : r.status = .active
  reservations : ∃ now, db'.reservations =
    db.reservations.modify r.id (Reservation.commit now) (Reservation.commit_keeps now)
  allocations : db'.allocations = db.allocations
  transitions : db'.reservationTransitions = db.reservationTransitions

/-- The part of a live reservation that was filled moves to the deployed counter. -/
structure Resizes (db db' : Db) (r : Reservation) (remaining : ℚ) : Prop where
  stored : db.reservations.get? r.id = some r
  live : r.status.live
  positive : 0 < remaining
  smaller : remaining < r.amount
  reservations : ∃ now, db'.reservations = db.reservations.modify r.id
    (Reservation.resize remaining positive now) (Reservation.resize_keeps _ _ _)
  served : ∃ a ∈ db.allocations.rows, a.serves r.accountId r.strategyKey
  allocations : ∃ now, db'.allocations = adjust db.allocations r.accountId r.strategyKey
    (· - (r.amount - remaining)) (r.amount - remaining) now
  transitions : db'.reservationTransitions = db.reservationTransitions

/-- A live reservation ends.  The counter gives its amount back, except that a counter which does
not cover the amount may be left alone. -/
structure Releases (db db' : Db) (r : Reservation) : Prop where
  stored : db.reservations.get? r.id = some r
  live : r.status.live
  reservations : ∃ status reason now, status.live = false ∧ db'.reservations =
    db.reservations.modify r.id (Reservation.release status reason now)
      (Reservation.release_keeps _ _ _)
  allocations : (∃ g deployed now, (∀ x, r.amount ≤ x → g x = x - r.amount) ∧
      db'.allocations = adjust db.allocations r.accountId r.strategyKey g deployed now) ∨
    (db'.allocations = db.allocations ∧
      ∃ a ∈ db.allocations.rows, a.serves r.accountId r.strategyKey ∧ a.reservedAmount < r.amount)
  transitions : ∀ t ∈ db'.reservationTransitions.rows,
    t ∈ db.reservationTransitions.rows ∨ t.reservationId = r.id

/-! ## Steps -/

/-- The steps of the abstract machine. -/
inductive Routine (db db' : Db) : Prop
  /-- Intents move, the ledger stays. -/
  | moves (hi : IntentsMove db db') (hl : SameLedger db db')
  /-- A partial fill: a reservation shrinks, its intent may move. -/
  | resize {r : Reservation} {remaining : ℚ} (hi : IntentsMove db db')
      (hl : Resizes db db' r remaining)
  /-- An exit is confirmed. -/
  | confirmExit {i i' : Intent} (hi : Replaces db db' i i') (hstatus : i.status = .created)
      (hstatus' : i'.status = .readyForSubmission) (hkind : i.kind db = some .exit)
      (hnone : i'.reservationId = none) (hl : SameLedger db db')
  /-- An entry is confirmed and its capital reserved. -/
  | confirmEntry {i i' : Intent} {r : Reservation} (hi : Replaces db db' i i')
      (hstatus : i.status = .created) (hstatus' : i'.status = .readyForSubmission)
      (hkind : i.kind db = some .entry) (hsome : i'.reservationId = some r.id)
      (hl : Reserves db db' i r)
  /-- The order of an intent with a reservation is acknowledged. -/
  | commit {i i' : Intent} {r : Reservation} (hi : Replaces db db' i i')
      (hstatus : i.status = .submissionPending) (hstatus' : i'.status = .submitted)
      (hres : i.reservationId = some r.id) (hkeep : i'.reservationId = i.reservationId)
      (hl : Commits db db' r)
  /-- An intent ends and its reservation with it. -/
  | drop {i i' : Intent} {r : Reservation} (hi : Replaces db db' i i')
      (hstatus : i.status ∈ [.readyForSubmission, .submissionPending, .ambiguous])
      (hstatus' : i'.status ∈ deadStatuses) (hres : i.reservationId = some r.id)
      (hkeep : i'.reservationId = i.reservationId) (hl : Releases db db' r)
  /-- The reservation of a reconciled intent is settled. -/
  | settle {i : Intent} {r : Reservation} (hi : db'.intents = db.intents)
      (hget : db.intents.get? i.id = some i) (hstatus : i.status = .reconciled)
      (hres : i.reservationId = some r.id) (hl : Releases db db' r)

/-- Events are kept and reviews keep their type. -/
structure Grows (db db' : Db) : Prop where
  events : ∀ e ∈ db.events.rows, e ∈ db'.events.rows
  reviews : ∀ id r, db.reviews.get? id = some r →
    ∃ r', db'.reviews.get? id = some r' ∧ r'.reviewType = r.reviewType

/-- A statement of the services: a step of the machine that keeps events and reviews. -/
structure Effect (db db' : Db) : Prop where
  grows : Grows db db'
  routine : Routine db db'

/-! ## Rows after a step -/

section Rows

variable {db db' : Db}

theorem IntentsMove.of_eq (h : db'.intents = db.intents) : IntentsMove db db' := by
  refine ⟨fun _ ↦ false, id, ⟨fun _ ↦ rfl, fun _ _ ↦ Iff.rfl⟩, ?_, by simp⟩
  rw [h, Table.update_eq_self fun _ _ ↦ rfl]

theorem IntentsMove.of_modify {i : Intent} {f : Intent → Intent} (hf : Keeps f)
    (hget : db.intents.get? i.id = some i) (h : db'.intents = db.intents.modify i.id f hf)
    (hfollows : Follows db i (f i)) (hmoves : Moves db i (f i)) : IntentsMove db db' := by
  refine ⟨_, f, hf, h, fun j hj hp ↦ ?_⟩
  have hkey : Row.key j = i.id := by simpa using hp
  obtain rfl : j = i := db.intents.eq_of_key hj (Table.mem_of_get? hget) hkey
  exact ⟨hfollows, hmoves⟩

/-- A row after a move is a row from before, perhaps moved. -/
theorem IntentsMove.mem {i' : Intent} (h : IntentsMove db db') (hi' : i' ∈ db'.intents.rows) :
    ∃ i ∈ db.intents.rows, i' = i ∨ (Follows db i i' ∧ Moves db i i') := by
  obtain ⟨p, f, hf, heq, hmove⟩ := h
  rw [heq] at hi'
  obtain ⟨i, hi, rfl⟩ := Table.mem_update.1 hi'
  refine ⟨i, hi, ?_⟩
  by_cases hp : p i = true
  · rw [if_pos hp]
    exact Or.inr (hmove i hi hp)
  · rw [if_neg hp]
    exact Or.inl rfl

theorem IntentsMove.exists_mem {i : Intent} (h : IntentsMove db db') (hi : i ∈ db.intents.rows) :
    ∃ i' ∈ db'.intents.rows, i' = i ∨ (Follows db i i' ∧ Moves db i i') := by
  obtain ⟨p, f, hf, heq, hmove⟩ := h
  refine ⟨if p i then f i else i, by rw [heq]; exact Table.mem_update.2 ⟨i, hi, rfl⟩, ?_⟩
  by_cases hp : p i = true
  · rw [if_pos hp]
    exact Or.inr (hmove i hi hp)
  · rw [if_neg hp]
    exact Or.inl rfl

theorem Replaces.of_modify {i : Intent} {f : Intent → Intent} (hf : Keeps f)
    (hget : db.intents.get? i.id = some i) (h : db'.intents = db.intents.modify i.id f hf)
    (hterms : (f i).terms = i.terms)
    (hentry : i.kind db = some .entry → (f i).lifecycleState ∈ exitOrderStates →
      i.lifecycleState ∈ exitOrderStates) : Replaces db db' i (f i) :=
  ⟨hget, ⟨f, hf, h, rfl⟩, hterms, hentry⟩

/-- A row after a replacement is the new row or one of another intent. -/
theorem Replaces.mem {i i' j : Intent} (h : Replaces db db' i i') (hj : j ∈ db'.intents.rows) :
    j = i' ∨ (j ∈ db.intents.rows ∧ j.id ≠ i.id) := by
  obtain ⟨f, hf, heq, rfl⟩ := h.intents
  rw [heq] at hj
  obtain ⟨k, hk, rfl⟩ := Table.mem_modify.1 hj
  by_cases hkey : Row.key k = i.id
  · obtain rfl : k = i := db.intents.eq_of_key hk (Table.mem_of_get? h.stored) hkey
    rw [if_pos hkey]
    exact Or.inl rfl
  · rw [if_neg hkey]
    exact Or.inr ⟨hk, hkey⟩

theorem Replaces.mem_new {i i' : Intent} (h : Replaces db db' i i') :
    i' ∈ db'.intents.rows := by
  obtain ⟨f, hf, heq, rfl⟩ := h.intents
  rw [heq]
  exact Table.mem_modify.2 ⟨i, Table.mem_of_get? h.stored, if_pos (Table.key_of_get? h.stored)⟩

theorem Replaces.mem_old {i i' j : Intent} (h : Replaces db db' i i') (hj : j ∈ db.intents.rows)
    (hne : j.id ≠ i.id) : j ∈ db'.intents.rows := by
  obtain ⟨f, hf, heq, rfl⟩ := h.intents
  rw [heq]
  exact Table.mem_modify.2 ⟨j, hj, if_neg hne⟩

theorem Replaces.mem_source {i i' : Intent} (h : Replaces db db' i i') :
    i ∈ db.intents.rows := Table.mem_of_get? h.stored

/-- A step depends on the intents and the ledger of its result only. -/
theorem Routine.frame {db₁ : Db} (h : Routine db db') (hi : db₁.intents = db'.intents)
    (hr : db₁.reservations = db'.reservations) (ha : db₁.allocations = db'.allocations)
    (ht : db₁.reservationTransitions = db'.reservationTransitions) : Routine db db₁ := by
  have hmoves : IntentsMove db db' → IntentsMove db db₁ := by
    unfold IntentsMove
    rw [hi]
    exact id
  have hreplaces : ∀ {i i'}, Replaces db db' i i' → Replaces db db₁ i i' := fun h ↦
    { h with intents := by rw [hi]; exact h.intents }
  have hreleases : ∀ {r}, Releases db db' r → Releases db db₁ r := fun h ↦
    { h with
      reservations := by rw [hr]; exact h.reservations
      allocations := by rw [ha]; exact h.allocations
      transitions := by rw [ht]; exact h.transitions }
  cases h with
  | moves hm hl => exact .moves (hmoves hm) ⟨hr.trans hl.1, ha.trans hl.2, ht.trans hl.3⟩
  | resize hm hl =>
    exact .resize (hmoves hm)
      { hl with
        reservations := by rw [hr]; exact hl.reservations
        allocations := by rw [ha]; exact hl.allocations
        transitions := ht.trans hl.transitions }
  | confirmExit hm h₁ h₂ h₃ h₄ hl =>
    exact .confirmExit (hreplaces hm) h₁ h₂ h₃ h₄ ⟨hr.trans hl.1, ha.trans hl.2, ht.trans hl.3⟩
  | confirmEntry hm h₁ h₂ h₃ h₄ hl =>
    exact .confirmEntry (hreplaces hm) h₁ h₂ h₃ h₄
      { hl with
        reservations := by rw [hr]; exact hl.reservations
        allocations := by rw [ha]; exact hl.allocations
        transitions := ht.trans hl.transitions }
  | commit hm h₁ h₂ h₃ h₄ hl =>
    exact .commit (hreplaces hm) h₁ h₂ h₃ h₄
      { hl with
        reservations := by rw [hr]; exact hl.reservations
        allocations := ha.trans hl.allocations
        transitions := ht.trans hl.transitions }
  | drop hm h₁ h₂ h₃ h₄ hl => exact .drop (hreplaces hm) h₁ h₂ h₃ h₄ (hreleases hl)
  | settle hm h₁ h₂ h₃ hl => exact .settle (hi.trans hm) h₁ h₂ h₃ (hreleases hl)

/-! ## What is never undone -/

/-- What every statement respects. -/
structure Later (db db' : Db) : Prop where
  grows : Grows db db'
  intents : ∀ i ∈ db.intents.rows, ∃ i' ∈ db'.intents.rows, i'.terms = i.terms ∧
    (i.status ≠ .created → i'.status ≠ .created ∧ i'.reservationId = i.reservationId)

theorem Grows.refl (db : Db) : Grows db db := ⟨fun _ h ↦ h, fun _ r h ↦ ⟨r, h, rfl⟩⟩

theorem Grows.trans {db'' : Db} (h : Grows db db') (h' : Grows db' db'') : Grows db db'' := by
  refine ⟨fun e he ↦ h'.events e (h.events e he), fun id r hr ↦ ?_⟩
  obtain ⟨r', hr', ht⟩ := h.reviews id r hr
  obtain ⟨r'', hr'', ht'⟩ := h'.reviews id r' hr'
  exact ⟨r'', hr'', ht'.trans ht⟩

/-- Statements that touch neither events nor reviews. -/
theorem Grows.of_eq (he : db'.events = db.events) (hr : db'.reviews = db.reviews) :
    Grows db db' := by
  refine ⟨fun e h ↦ by rwa [he], fun id r h ↦ ⟨r, ?_, rfl⟩⟩
  rwa [hr]

theorem Later.refl (db : Db) : Later db db :=
  ⟨.refl db, fun i hi ↦ ⟨i, hi, rfl, fun h ↦ ⟨h, rfl⟩⟩⟩

theorem Later.trans {db'' : Db} (h : Later db db') (h' : Later db' db'') : Later db db'' := by
  refine ⟨h.grows.trans h'.grows, fun i hi ↦ ?_⟩
  obtain ⟨i', hi', ht, hs⟩ := h.intents i hi
  obtain ⟨i'', hi'', ht', hs'⟩ := h'.intents i' hi'
  refine ⟨i'', hi'', ht'.trans ht, fun hne ↦ ?_⟩
  obtain ⟨hne', hr⟩ := hs hne
  obtain ⟨hne'', hr'⟩ := hs' hne'
  exact ⟨hne'', hr'.trans hr⟩

theorem Moves.status_ne_created {i i' : Intent} (h : Moves db i i') : i'.status ≠ .created := by
  intro hc
  cases h <;> simp_all [deadStatuses]

theorem IntentsMove.later (h : IntentsMove db db') (hg : Grows db db') : Later db db' := by
  refine ⟨hg, fun i hi ↦ ?_⟩
  obtain ⟨i', hi', rfl | ⟨hf, hm⟩⟩ := h.exists_mem hi
  · exact ⟨i', hi', rfl, fun h ↦ ⟨h, rfl⟩⟩
  · exact ⟨i', hi', hf.terms, fun _ ↦ ⟨hm.status_ne_created, hf.reservationId⟩⟩

theorem Replaces.later {i i' : Intent} (h : Replaces db db' i i') (hg : Grows db db')
    (hs : i.status ≠ .created → i'.status ≠ .created ∧ i'.reservationId = i.reservationId) :
    Later db db' := by
  refine ⟨hg, fun j hj ↦ ?_⟩
  by_cases hid : j.id = i.id
  · obtain rfl : j = i := db.intents.eq_of_key hj h.mem_source hid
    exact ⟨i', h.mem_new, h.terms, hs⟩
  · exact ⟨j, h.mem_old hj hid, rfl, fun h ↦ ⟨h, rfl⟩⟩

theorem Effect.later (h : Effect db db') : Later db db' := by
  obtain ⟨hg, hr⟩ := h
  cases hr with
  | moves hi _ => exact hi.later hg
  | resize hi _ => exact hi.later hg
  | confirmExit hi hs _ _ _ _ => exact hi.later hg fun hne ↦ absurd hs hne
  | confirmEntry hi hs _ _ _ _ => exact hi.later hg fun hne ↦ absurd hs hne
  | commit hi _ hs' _ hkeep _ => exact hi.later hg fun _ ↦ ⟨by simp [hs'], hkeep⟩
  | drop hi _ hs' _ hkeep _ =>
    refine hi.later hg fun _ ↦ ⟨?_, hkeep⟩
    intro hc
    simp [hc, deadStatuses] at hs'
  | settle hi _ _ _ _ => exact (IntentsMove.of_eq hi).later hg

/-! ## Rows a worker remembers -/

/-- An intent row read earlier still agrees with the stored one on what is never undone. -/
def Known (db : Db) (intent : Intent) (type : ReviewType) : Prop :=
  ∃ i ∈ db.intents.rows, i.terms = intent.terms ∧ i.status ≠ .created ∧
    i.reservationId = intent.reservationId ∧ i.kind db = some type

/-- The type of the review stays. -/
theorem Later.kind {i i' : Intent} {type : ReviewType} (h : Later db db')
    (hterms : i'.terms = i.terms) (hk : i.kind db = some type) : i'.kind db' = some type := by
  have hid : i'.executionReviewId = i.executionReviewId :=
    congrArg IntentTerms.executionReviewId hterms
  unfold Intent.kind at hk ⊢
  rw [Option.map_eq_some_iff] at hk
  obtain ⟨r, hr, rfl⟩ := hk
  rw [Option.bind_eq_some_iff] at hr
  obtain ⟨id, hid', hget⟩ := hr
  obtain ⟨r', hr', ht⟩ := h.grows.reviews id r hget
  rw [hid, hid']
  simp [hr', ht]

theorem Known.later {intent : Intent} {type : ReviewType} (h : Known db intent type)
    (hl : Later db db') : Known db' intent type := by
  obtain ⟨i, hi, hterms, hs, hr, hk⟩ := h
  obtain ⟨i', hi', hterms', hs'⟩ := hl.intents i hi
  obtain ⟨hne, hres⟩ := hs' hs
  exact ⟨i', hi', hterms'.trans hterms, hne, hres.trans hr, hl.kind hterms' hk⟩

/-- The stored row of a remembered intent. -/
theorem Known.stored {intent i : Intent} {type : ReviewType} (h : Known db intent type)
    (hi : db.intents.get? intent.id = some i) :
    i.terms = intent.terms ∧ i.status ≠ .created ∧ i.reservationId = intent.reservationId ∧
      i.kind db = some type := by
  obtain ⟨j, hj, hterms, hrest⟩ := h
  have hid : j.id = intent.id := congrArg IntentTerms.id hterms
  obtain rfl : i = j := db.intents.eq_of_key (Table.mem_of_get? hi) hj
    ((Table.key_of_get? hi).trans hid.symm)
  exact ⟨hterms, hrest⟩

end Rows

end AlpacaTrading
