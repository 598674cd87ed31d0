import AlpacaTrading.System.Footprint

/-!
# The deployed counter

A fill moves capital of a strategy from its reserved to its deployed counter: a partial fill moves
a part of the reservation, a settled fill all of it.  `Settles` says what a statement does to the
sum of the deployed counter and of what is left of the reservations: it does not raise it.  `Adds`
is the other case, the promotion that makes a reservation.  `Sys.step_books` says of every step of
the system that it is one of the two.
-/

namespace AlpacaTrading

/-! ## What is left of a reservation -/

/-- The reservation ended because its order was filled. -/
def Reservation.filled (r : Reservation) : Bool :=
  r.status = .released ∧ r.releaseReason = some .brokerTerminalFilled

/-- The part of a reservation that was not filled. -/
def Reservation.unfilled (r : Reservation) : ℚ := if r.filled then 0 else r.amount

/-- The reservation was made for the strategy. -/
def Reservation.belongs (accountId strategyKey : String) (r : Reservation) : Bool :=
  r.accountId = accountId ∧ r.strategyKey = strategyKey

/-- What is left of the reservations of a strategy. -/
def unfilledAmount (t : Table Reservation) (accountId strategyKey : String) : ℚ :=
  t.total fun r ↦ if r.belongs accountId strategyKey then r.unfilled else 0

/-- The columns of a reservation that no statement changes. -/
def Reservation.owner (r : Reservation) : String × String × String :=
  (r.id, r.accountId, r.strategyKey)

theorem Reservation.unfilled_of_live {r : Reservation} (h : r.status.live) :
    r.unfilled = r.amount := by
  unfold Reservation.unfilled Reservation.filled
  rw [if_neg]
  rw [decide_eq_true_iff]
  rintro ⟨hreleased, _⟩
  rw [hreleased] at h
  cases h

/-- A reservation that ends for another reason than a fill keeps its unfilled part. -/
theorem Reservation.unfilled_release {r : Reservation} {status : ReservationStatus}
    {reason : ReleaseReason} {now : Time} (h : reason ≠ .brokerTerminalFilled) :
    (r.release status reason now).unfilled = r.amount := by
  unfold Reservation.unfilled Reservation.filled
  rw [if_neg]
  · rfl
  · rw [decide_eq_true_iff]
    rintro ⟨_, hreason⟩
    exact h (Option.some_inj.1 hreason)

theorem Reservation.unfilled_filled {r : Reservation} {now : Time} :
    (r.release .released .brokerTerminalFilled now).unfilled = 0 := by
  unfold Reservation.unfilled Reservation.filled
  exact if_pos (decide_eq_true ⟨rfl, rfl⟩)

theorem Reservation.holds_eq {accountId strategyKey : String} {r : Reservation} :
    r.holds accountId strategyKey = (r.belongs accountId strategyKey && r.status.live) := rfl

theorem belongs_of_owner {r r' : Reservation} {accountId strategyKey : String}
    (h : r'.owner = r.owner) :
    r'.belongs accountId strategyKey = r.belongs accountId strategyKey := by
  unfold Reservation.owner at h
  simp only [Prod.mk.injEq] at h
  unfold Reservation.belongs
  rw [h.2.1, h.2.2]

/-! ## The deployed counter after an adjustment -/

theorem deployedAmount_adjust_other {t : Table Allocation}
    {accountId strategyKey accountId' strategyKey' : String} {reserved : ℚ → ℚ} {deployed : ℚ}
    {now : Time} (h : ¬ (accountId' = accountId ∧ strategyKey' = strategyKey)) :
    deployedAmount (adjust t accountId strategyKey reserved deployed now) accountId'
      strategyKey' = deployedAmount t accountId' strategyKey' := by
  refine Table.total_update_eq _ fun a _ hs ↦ ?_
  have hother : a.serves accountId' strategyKey' = false := by
    rw [Bool.eq_false_iff]
    intro hs'
    obtain ⟨h₁, h₂, _⟩ := serves_iff.1 hs
    obtain ⟨h₃, h₄, _⟩ := serves_iff.1 hs'
    exact h ⟨h₃.symm.trans h₁, h₄.symm.trans h₂⟩
  rw [Allocation.shift_serves, hother]
  rfl

theorem deployedAmount_adjust_le {t : Table Allocation}
    {accountId strategyKey : String} {reserved : ℚ → ℚ} {deployed : ℚ} {now : Time}
    (h : 0 ≤ deployed) :
    deployedAmount (adjust t accountId strategyKey reserved deployed now) accountId strategyKey ≤
      deployedAmount t accountId strategyKey + deployed := by
  by_cases hserves : ∃ a ∈ t.rows, a.serves accountId strategyKey
  · obtain ⟨a, ha, hs⟩ := hserves
    exact (deployedAmount_adjust ha hs).le
  · have hsame : adjust t accountId strategyKey reserved deployed now = t := by
      refine Table.update_eq_self fun a ha ↦ ?_
      rw [Bool.eq_false_iff]
      exact fun hs ↦ hserves ⟨a, ha, hs⟩
    rw [hsame]
    exact le_add_of_nonneg_right h

/-! ## Statements -/

/-- No reservation is made, and deployed capital is raised by no more than the reservations give
up. -/
structure Settles (db db' : Db) : Prop where
  owners : db'.reservations.rows.map Reservation.owner = db.reservations.rows.map Reservation.owner
  /-- What is left of a reservation does not grow, and one that ended stays. -/
  rows : ∀ id r, db.reservations.get? id = some r → ∃ r', db'.reservations.get? id = some r' ∧
    r'.unfilled ≤ r.unfilled ∧ (r.status.live = false → r' = r)
  total : ∀ accountId strategyKey,
    deployedAmount db'.allocations accountId strategyKey +
        unfilledAmount db'.reservations accountId strategyKey ≤
      deployedAmount db.allocations accountId strategyKey +
        unfilledAmount db.reservations accountId strategyKey
  /-- The counters of a strategy without live reservations stay. -/
  idle : ∀ accountId strategyKey,
    (∀ r ∈ db.reservations.rows, r.holds accountId strategyKey = false) →
    reservedAmount db'.allocations accountId strategyKey =
        reservedAmount db.allocations accountId strategyKey ∧
      deployedAmount db'.allocations accountId strategyKey =
        deployedAmount db.allocations accountId strategyKey

section Settles

variable {db db' : Db}

/-- A statement that leaves the ledger alone. -/
theorem Settles.of_eq (hr : db'.reservations = db.reservations)
    (ha : db'.allocations = db.allocations) : Settles db db' := by
  refine ⟨by rw [hr], fun id r hget ↦ ⟨r, by rwa [hr], le_rfl, fun _ ↦ rfl⟩, ?_, ?_⟩
  · intro accountId strategyKey
    rw [hr, ha]
  · intro accountId strategyKey _
    rw [ha]
    exact ⟨rfl, rfl⟩

theorem Settles.refl (db : Db) : Settles db db := .of_eq rfl rfl

/-- A reservation after the statement, with the one it was. -/
theorem Settles.source {r' : Reservation} (h : Settles db db')
    (hr' : r' ∈ db'.reservations.rows) :
    ∃ r, db.reservations.get? r'.id = some r ∧ r'.owner = r.owner ∧ r'.unfilled ≤ r.unfilled ∧
      (r.status.live = false → r' = r) := by
  have howner : r'.owner ∈ db.reservations.rows.map Reservation.owner := by
    rw [← h.owners]
    exact List.mem_map_of_mem hr'
  obtain ⟨r, hr, heq⟩ := List.mem_map.1 howner
  have hid : r.id = r'.id := congrArg Prod.fst heq
  have hget : db.reservations.get? r'.id = some r := Table.get?_eq_some.2 ⟨hr, hid⟩
  obtain ⟨r'', hget'', hle, hsame⟩ := h.rows r'.id r hget
  have hget' : db'.reservations.get? r'.id = some r' := Table.get?_of_mem hr'
  obtain rfl : r'' = r' := Option.some_inj.1 (hget''.symm.trans hget')
  exact ⟨r, hget, heq.symm, hle, hsame⟩

/-- A strategy without live reservations has none after the statement. -/
theorem Settles.holds {accountId strategyKey : String} (h : Settles db db')
    (hnone : ∀ r ∈ db.reservations.rows, r.holds accountId strategyKey = false) :
    ∀ r ∈ db'.reservations.rows, r.holds accountId strategyKey = false := by
  intro r' hr'
  obtain ⟨r, hget, howner, _, hsame⟩ := h.source hr'
  have hr := hnone r (Table.mem_of_get? hget)
  rcases hlive : r.status.live with - | -
  · rw [hsame hlive]
    exact hr
  · rw [Reservation.holds_eq, hlive, Bool.and_true] at hr
    rw [Reservation.holds_eq, belongs_of_owner howner, hr, Bool.false_and]

theorem Settles.trans {db'' : Db} (h : Settles db db') (h' : Settles db' db'') :
    Settles db db'' := by
  refine ⟨h'.owners.trans h.owners, fun id r hget ↦ ?_, fun accountId strategyKey ↦ ?_, ?_⟩
  · obtain ⟨r', hget', hle, hsame⟩ := h.rows id r hget
    obtain ⟨r'', hget'', hle', hsame'⟩ := h'.rows id r' hget'
    refine ⟨r'', hget'', hle'.trans hle, fun hlive ↦ ?_⟩
    obtain rfl := hsame hlive
    exact hsame' hlive
  · exact (h'.total accountId strategyKey).trans (h.total accountId strategyKey)
  · intro accountId strategyKey hnone
    obtain ⟨hr, hd⟩ := h.idle accountId strategyKey hnone
    obtain ⟨hr', hd'⟩ := h'.idle accountId strategyKey (h.holds hnone)
    exact ⟨hr'.trans hr, hd'.trans hd⟩

/-- A statement that updates live reservations. -/
theorem Settles.of_update {p : Reservation → Bool} {f : Reservation → Reservation} (hf : Keeps f)
    (hr : db'.reservations = db.reservations.update p f hf) (howner : ∀ r, (f r).owner = r.owner)
    (hlive : ∀ r ∈ db.reservations.rows, p r = true → r.status.live)
    (hle : ∀ r ∈ db.reservations.rows, p r = true → (f r).unfilled ≤ r.unfilled)
    (htotal : ∀ accountId strategyKey,
      deployedAmount db'.allocations accountId strategyKey +
          unfilledAmount db'.reservations accountId strategyKey ≤
        deployedAmount db.allocations accountId strategyKey +
          unfilledAmount db.reservations accountId strategyKey)
    (hidle : ∀ accountId strategyKey,
      (∀ r ∈ db.reservations.rows, r.holds accountId strategyKey = false) →
      reservedAmount db'.allocations accountId strategyKey =
          reservedAmount db.allocations accountId strategyKey ∧
        deployedAmount db'.allocations accountId strategyKey =
          deployedAmount db.allocations accountId strategyKey) : Settles db db' := by
  refine ⟨?_, fun id r hget ↦ ?_, htotal, hidle⟩
  · rw [hr]
    unfold Table.update
    rw [List.map_map]
    refine List.map_congr_left fun r _ ↦ ?_
    by_cases hp : p r = true
    · simp [hp, howner]
    · simp [hp]
  · have hmem := Table.mem_of_get? hget
    refine ⟨if p r then f r else r, by rw [hr, Table.get?_update, hget]; rfl, ?_, fun hdead ↦ ?_⟩
    · split
      · next hp => exact hle r hmem hp
      · exact le_rfl
    · refine if_neg fun hp ↦ ?_
      have hr := hlive r hmem hp
      rw [hdead] at hr
      cases hr

/-- A statement that updates one live reservation and moves at most what it gives up to the
deployed counter. -/
theorem Settles.of_modify {r : Reservation} {f : Reservation → Reservation} {deployed : ℚ}
    (hf : Keeps f) (hget : db.reservations.get? r.id = some r) (hlive : r.status.live)
    (hr : db'.reservations = db.reservations.modify r.id f hf)
    (howner : ∀ r, (f r).owner = r.owner) (hpos : 0 ≤ deployed)
    (hle : (f r).unfilled + deployed ≤ r.unfilled)
    (ha : db'.allocations = db.allocations ∨ ∃ g now,
      db'.allocations = adjust db.allocations r.accountId r.strategyKey g deployed now) :
    Settles db db' := by
  have hmem := Table.mem_of_get? hget
  have hunique : ∀ x ∈ db.reservations.rows, decide (Row.key x = r.id) = true → x = r :=
    fun x hx hkey ↦ db.reservations.eq_of_key hx hmem (of_decide_eq_true hkey)
  refine .of_update hf hr howner (fun x hx hkey ↦ ?_) (fun x hx hkey ↦ ?_) ?_ ?_
  · rw [hunique x hx hkey]
    exact hlive
  · rw [hunique x hx hkey]
    linarith
  · intro accountId strategyKey
    have hunfilled : unfilledAmount db'.reservations accountId strategyKey =
        unfilledAmount db.reservations accountId strategyKey +
          ((if (f r).belongs accountId strategyKey then (f r).unfilled else 0) -
            if r.belongs accountId strategyKey then r.unfilled else 0) := by
      rw [hr]
      exact Table.total_modify _ hget
    rw [hunfilled, belongs_of_owner (howner r)]
    by_cases hbelongs : r.belongs accountId strategyKey = true
    · rw [if_pos hbelongs, if_pos hbelongs]
      have hstrategy := of_decide_eq_true hbelongs
      have hdeployed : deployedAmount db'.allocations accountId strategyKey ≤
          deployedAmount db.allocations accountId strategyKey + deployed := by
        rcases ha with ha | ⟨g, now, ha⟩
        · rw [ha]
          exact le_add_of_nonneg_right hpos
        · rw [ha, hstrategy.1, hstrategy.2]
          exact deployedAmount_adjust_le hpos
      linarith
    · rw [if_neg hbelongs, if_neg hbelongs]
      have hdeployed : deployedAmount db'.allocations accountId strategyKey =
          deployedAmount db.allocations accountId strategyKey := by
        rcases ha with ha | ⟨g, now, ha⟩
        · rw [ha]
        · rw [ha]
          refine deployedAmount_adjust_other fun heq ↦ hbelongs ?_
          exact decide_eq_true ⟨heq.1.symm, heq.2.symm⟩
      linarith
  · intro accountId strategyKey hnone
    have hother : ¬ (accountId = r.accountId ∧ strategyKey = r.strategyKey) := by
      rintro ⟨rfl, rfl⟩
      have hholds := hnone r hmem
      simp [Reservation.holds, hlive] at hholds
    rcases ha with ha | ⟨g, now, ha⟩
    · rw [ha]
      exact ⟨rfl, rfl⟩
    · rw [ha]
      exact ⟨reservedAmount_adjust_other hother, deployedAmount_adjust_other hother⟩

/-- A live reservation ends without a fill. -/
theorem Settles.of_release {r : Reservation} {status : ReservationStatus} {reason : ReleaseReason}
    {now : Time} {g : ℚ → ℚ} (hget : db.reservations.get? r.id = some r) (hlive : r.status.live)
    (hreason : reason ≠ .brokerTerminalFilled)
    (hr : db'.reservations = db.reservations.modify r.id (Reservation.release status reason now)
      (Reservation.release_keeps _ _ _))
    (ha : db'.allocations = adjust db.allocations r.accountId r.strategyKey g 0 now) :
    Settles db db' := by
  refine .of_modify (Reservation.release_keeps _ _ _) hget hlive hr (fun _ ↦ rfl) le_rfl ?_
    (Or.inr ⟨g, now, ha⟩)
  rw [Reservation.unfilled_release hreason, Reservation.unfilled_of_live hlive, add_zero]

end Settles

/-- One reservation is made, for capital that is not deployed yet. -/
structure Adds (db db' : Db) (r : Reservation) : Prop where
  status : r.status = .active
  reservations : db.reservations.insert? r = some db'.reservations
  deployed : ∀ accountId strategyKey, deployedAmount db'.allocations accountId strategyKey =
    deployedAmount db.allocations accountId strategyKey
  /-- The counters of other strategies stay. -/
  other : ∀ accountId strategyKey, r.belongs accountId strategyKey = false →
    reservedAmount db'.allocations accountId strategyKey =
      reservedAmount db.allocations accountId strategyKey

section Statements

variable [Hashing] {db db' : Db}

omit [Hashing] in
theorem reserve_adds {row : ConfirmableIntentRow} {session : Session} {now expiresAt : Time}
    {fingerprint reservationId : String} {amount : {a : ℚ // 0 < a}}
    (h : reserve db row session now expiresAt fingerprint reservationId (some amount) = .ok db') :
    ∃ r, Adds db db' r := by
  obtain ⟨reservations, hins, hcount, rfl⟩ := reserve_some_ok h
  refine ⟨_, rfl, hins, fun accountId strategyKey ↦ ?_, fun accountId strategyKey hother ↦ ?_⟩
  · by_cases hsame : accountId = row.intent.accountId ∧ strategyKey = row.intent.strategyKey
    · obtain ⟨rfl, rfl⟩ := hsame
      obtain ⟨a, ha, hs⟩ := exists_serves_of_adjustCount hcount
      rw [deployedAmount_adjust ha hs, add_zero]
    · exact deployedAmount_adjust_other hsame
  · refine reservedAmount_adjust_other fun hsame ↦ ?_
    have hbelongs := of_decide_eq_false hother
    exact hbelongs ⟨hsame.1.symm, hsame.2.symm⟩

theorem promote_books {command : ExecutionCommand} {session : Session} {signingKey : String}
    {now : Time} {locked : String → Bool} {result : PromotionResult}
    (h : promoteNextConfirmedPostgresIntent db command session signingKey now locked =
      .ok (db', result)) : Settles db db' ∨ ∃ r, Adds db db' r := by
  have hconfirm : ∀ {row : ConfirmableIntentRow} {amount : Option {a : ℚ // 0 < a}},
      confirmIntent db command session now row amount = .ok (db', result) →
        Settles db db' ∨ ∃ r, Adds db db' r := by
    intro row amount hconfirm
    obtain ⟨_, _, _, db₂, _, _, _, _, hreserve, _, _, rfl, _⟩ := confirmIntent_ok hconfirm
    rcases amount with - | amount
    · obtain rfl := Except.ok.inj hreserve
      exact Or.inl (.of_eq rfl rfl)
    · obtain ⟨r, hadds⟩ := reserve_adds hreserve
      exact Or.inr ⟨r, hadds.status, hadds.reservations, hadds.deployed, hadds.other⟩
  rcases promote_ok h with ⟨rfl, _⟩ | ⟨row, _, ⟨_, hexit⟩ | ⟨_, _, _, _, hentry⟩⟩
  · exact Or.inl (.refl _)
  · exact hconfirm hexit
  · exact hconfirm hentry

omit [Hashing] in
/-- No acknowledgement ends a reservation as filled. -/
theorem unfilledTerminal_reason {state : LifecycleState} {terminal : ReservationTerminalState}
    {reason : ReleaseReason} (h : unfilledTerminal state = some (terminal, reason)) :
    reason ≠ .brokerTerminalFilled := by
  unfold unfilledTerminal at h
  split at h
  all_goals cases h
  all_goals decide

theorem settleAcknowledged_settles {intent : Intent} {session : Session} {state : LifecycleState}
    {now : Time} (h : settleAcknowledged db intent session state now = .ok db') :
    Settles db db' := by
  rcases hid : intent.reservationId with - | id
  · unfold settleAcknowledged at h
    rw [hid] at h
    obtain rfl := Except.ok.inj h
    exact .refl _
  · rcases hstate : unfilledTerminal state with - | ⟨terminal, reason⟩
    · obtain ⟨r, hget, hactive, rfl⟩ := settleAcknowledged_commit_ok hid hstate h
      obtain rfl : r.id = id := Table.key_of_get? hget
      have hlive : r.status.live := by
        rw [hactive]
        rfl
      refine .of_modify (Reservation.commit_keeps now) hget hlive rfl (fun _ ↦ rfl) le_rfl ?_
        (Or.inl rfl)
      rw [add_zero, Reservation.unfilled_of_live hlive]
      exact (Reservation.unfilled_of_live (r := r.commit now) rfl).le
    · unfold settleAcknowledged at h
      rw [hid, hstate] at h
      obtain ⟨r, _, hget, hlive, _, _, rfl⟩ := releaseTerminalReservation_ok h
      obtain rfl : r.id = id := Table.key_of_get? hget
      exact .of_release hget hlive (unfilledTerminal_reason hstate) rfl rfl

/-- The change is that of a promotion. -/
def Promotes (db db' : Db) : Prop :=
  ∃ command session signingKey now locked result,
    promoteNextConfirmedPostgresIntent db command session signingKey now locked = .ok (db', result)

/-- **Every transaction of a run** settles, or is a promotion that makes one reservation. -/
theorem Executes.books (h : Executes db db') :
    Settles db db' ∨ ∃ r, Adds db db' r ∧ Promotes db db' := by
  cases h with
  | idle h =>
    rw [h]
    exact Or.inl (.refl db)
  | promote h =>
    refine (promote_books h).imp_right fun ⟨r, hadds⟩ ↦ ⟨r, hadds, ?_⟩
    exact ⟨_, _, _, _, _, _, h⟩
  | claim h =>
    obtain ⟨_, _, _, _, _, rfl⟩ := claimIntent_ok h
    exact Or.inl (.of_eq rfl rfl)
  | release _ h =>
    obtain ⟨_, _, _, _, rfl⟩ := releaseClaim_ok h
    exact Or.inl (.of_eq rfl rfl)
  | attempt _ h =>
    obtain ⟨_, _, _, _, _, rfl⟩ := recordSubmissionAttempt_ok h
    exact Or.inl (.of_eq rfl rfl)
  | reject _ h =>
    obtain ⟨_, _, _, _, _, _, rfl⟩ := recordDeterministicSubmissionFailure_ok h
    exact Or.inl (.of_eq rfl rfl)
  | record _ h =>
    obtain ⟨_, _, _, _, _, db₁, _, _, _, _, _, _, _, _, _, _, hsettle, _, rfl⟩ :=
      recordSubmission_ok h
    have hsettles := settleAcknowledged_settles hsettle
    exact Or.inl ⟨hsettles.owners, hsettles.rows, hsettles.total, hsettles.idle⟩
  | doubt _ h =>
    obtain ⟨_, _, _, _, _, _, _, rfl⟩ := recordAmbiguousSubmission_ok h
    exact Or.inl (.of_eq rfl rfl)
  | receipt _ h =>
    obtain ⟨_, _, _, _, _, _, _, rfl⟩ := recordReconciledSubmissionReceipt_ok h
    exact Or.inl (.of_eq rfl rfl)

/-! ### Reconciliation -/

theorem storeObservation_settles {target : Target} {obs : Observation} {now : Time}
    {resized : Option Resize} {counts : ObserveCounts}
    (hresized : ∀ z, resized = some z → db.reservations.get? z.reservation.id =
      some z.reservation ∧ z.reservation.status.live ∧ 0 < z.settled ∧
        z.settled = z.reservation.amount - z.remaining)
    (h : storeObservation db target obs now resized = .ok (db', counts)) : Settles db db' := by
  obtain ⟨_, orders, _, db₁, _, _, _, hresize, _, hcases⟩ := storeObservation_ok h
  have hsettles : Settles db db₁ := by
    rcases resized with - | z
    · rw [applyResize_none hresize]
      exact .of_eq rfl rfl
    · obtain ⟨hget, hlive, hpos, hsettled⟩ := hresized z rfl
      obtain ⟨hremaining, rfl⟩ := applyResize_some hresize
      refine .of_modify (Reservation.resize_keeps _ _ _) hget hlive rfl (fun _ ↦ rfl) hpos.le ?_
        (Or.inr ⟨_, now, rfl⟩)
      have hleft : (z.reservation.resize z.remaining hremaining now).unfilled = z.remaining :=
        Reservation.unfilled_of_live hlive
      rw [hleft, Reservation.unfilled_of_live hlive, hsettled]
      linarith
  rcases hcases with ⟨_, _, _, rfl⟩ | ⟨_, rfl⟩
  · exact ⟨hsettles.owners, hsettles.rows, hsettles.total, hsettles.idle⟩
  · exact ⟨hsettles.owners, hsettles.rows, hsettles.total, hsettles.idle⟩

theorem observe_settles {session : Session} {target : Target} {obs : Observation} {now : Time}
    {result : Except String Bool} (h : observe db session target obs now = (db', result)) :
    Settles db db' := by
  rcases observe_cases h with ⟨rfl, _⟩ | ⟨_, hstatement, _⟩ | ⟨_, _, _, _, _, _, _, hstatement, _⟩
  · exact .refl _
  · rcases observeStatement_ok hstatement with ⟨rfl, _⟩ | ⟨_, _, _, hstore⟩
    · exact .refl _
    · refine storeObservation_settles ?_ hstore
      intro z hz
      cases hz
  · rcases partialStatement_ok hstatement with ⟨rfl, _⟩ | ⟨_, _, _, _, hstore, hresized⟩
    · exact .refl _
    · refine storeObservation_settles (fun z hz ↦ ?_) hstore
      rcases hresized with ⟨rfl, _⟩ | ⟨z', r, rfl, hpos, hlocked, hresize⟩
      · cases hz
      · obtain rfl := Option.some_inj.1 hz
        obtain ⟨hget, hlive⟩ := lockedReservation_some hlocked
        obtain ⟨rfl, _, hsettled, _⟩ := resize?_some hresize
        have hid : z'.reservation.id = _ := Table.key_of_get? hget
        rw [← hid] at hget
        exact ⟨hget, hlive, hpos, hsettled⟩

omit [Hashing] in
/-- A settlement deploys the reservation exactly when it ends as filled. -/
theorem settlementOf_reason (status : String) :
    ((settlementOf status).1 = .filled ∧ (settlementOf status).2 = .brokerTerminalFilled) ∨
      ((settlementOf status).1 ≠ .filled ∧ (settlementOf status).2 ≠ .brokerTerminalFilled) := by
  unfold settlementOf
  repeat' split
  · exact Or.inl ⟨rfl, rfl⟩
  all_goals exact Or.inr ⟨by decide, by decide⟩

omit [Hashing] in
theorem settledAllocations_adjust (r : Reservation) (terminal : ReservationTerminalState)
    (now : Time) (kind : SettlementKind) :
    settledAllocations db r terminal now kind = db.allocations ∨ ∃ g now',
      settledAllocations db r terminal now kind = adjust db.allocations r.accountId r.strategyKey g
        (if terminal = .filled then r.amount else 0) now' := by
  rcases kind with - | -
  · exact Or.inr ⟨_, now, rfl⟩
  · exact Or.inl rfl

theorem settle_settles {session : Session} {target : Target} {obs : Observation} {now : Time}
    {result : Except String Unit} (h : settle db session target obs now = (db', result)) :
    Settles db db' := by
  rcases settle_cases h with ⟨id, kind, _, _, hstatement⟩ | ⟨rfl, _⟩
  · obtain ⟨_, r, _, _, _, hget, hlive, _, _, rfl⟩ := settleStatement_settled hstatement
    obtain rfl : r.id = id := Table.key_of_get? hget
    have hamount := Reservation.unfilled_of_live hlive
    have ha := @settledAllocations_adjust db r (settlementOf obs.status).1 now kind
    rcases settlementOf_reason obs.status with ⟨hfilled, hreason⟩ | ⟨hother, hreason⟩
    · rw [if_pos hfilled] at ha
      refine .of_modify (Reservation.release_keeps _ _ _) hget hlive rfl (fun _ ↦ rfl)
        r.amount_pos.le ?_ ha
      rw [hreason, Reservation.unfilled_filled, hamount, zero_add]
    · rw [if_neg hother] at ha
      refine .of_modify (Reservation.release_keeps _ _ _) hget hlive rfl (fun _ ↦ rfl) le_rfl ?_ ha
      rw [Reservation.unfilled_release hreason, hamount, add_zero]
  · exact .refl _

theorem terminalizeAbsence_settles {session : Session} {target : Target}
    {evidence : AbsenceEvidence} {now : Time} :
    Settles db (terminalizeAbsence db session target evidence now).1 := by
  have hrelease : ∀ (db : Db) (id : Option String), Settles db (releaseAbsent db id now).1 := by
    intro db id
    unfold releaseAbsent
    split
    · exact .refl db
    · next r hlocked =>
      obtain ⟨id, _, hlocked⟩ := Option.bind_eq_some_iff.1 hlocked
      obtain ⟨hget, hlive⟩ := lockedReservation_some hlocked
      obtain rfl : r.id = id := Table.key_of_get? hget
      exact .of_release hget hlive (by decide) rfl rfl
  unfold terminalizeAbsence
  dsimp only
  split
  · split
    · exact .refl db
    · split
      · exact .of_eq rfl rfl
      · -- The checks on the row counts decide the verdict only.
        simp only [apply_ite Prod.fst, ite_self]
        refine Settles.trans ?_ (hrelease _ _)
        exact .of_eq rfl rfl
  · exact .refl db

theorem Reconciles.settles (h : Reconciles db db') : Settles db db' := by
  cases h with
  | idle h =>
    rw [h]
    exact .refl db
  | observe _ _ h => exact observe_settles h
  | settle _ h => exact settle_settles h
  | @conclude session target evidence now result h =>
    have hsettles : Settles db (terminalizeAbsence db session target evidence now).1 :=
      terminalizeAbsence_settles
    rwa [h] at hsettles
  | absence h =>
    rw [h]
    unfold recordPendingAbsence
    split
    · split
      · exact .of_eq rfl rfl
      · exact .refl db
    · exact .refl db
  | @defer session target now result h =>
    have hsettles : Settles db (deferAbsentCandidate db session target now).1 := by
      unfold deferAbsentCandidate
      split
      · exact .refl db
      · split
        · exact .of_eq rfl rfl
        · exact .refl db
    rwa [h] at hsettles

/-! ### Recovery, review and sync -/

theorem cancelStaleReady_settles {session : Session} {id : String} {now : Time} :
    Settles db (cancelStaleReady db session id now).1 := by
  unfold cancelStaleReady
  split
  · exact .refl db
  · dsimp only
    split
    · exact .refl db
    · split
      · split
        · exact .of_eq rfl rfl
        · next r hlocked =>
          obtain ⟨id, _, hlocked⟩ := Option.bind_eq_some_iff.1 hlocked
          obtain ⟨hget, hlive⟩ := lockedReservation_some hlocked
          obtain rfl : r.id = id := Table.key_of_get? hget
          split
          · exact .refl db
          · next hrelease =>
            obtain ⟨_, _, rfl⟩ := releaseStale_true hrelease
            exact .of_release hget hlive (by decide) rfl rfl
          · next hrelease =>
            obtain ⟨_, rfl⟩ := releaseStale_false hrelease
            exact .of_eq rfl rfl
      · exact .refl db

omit [Hashing] in
/-- The expiry of reservations moves no deployed counter. -/
theorem deployedAmount_expireAllocations {now : Time} (accountId strategyKey : String) :
    deployedAmount (expireAllocations db now) accountId strategyKey =
      deployedAmount db.allocations accountId strategyKey := by
  refine Table.total_update_eq _ fun a _ _ ↦ ?_
  rw [Allocation.shift_serves]
  unfold Allocation.shift
  rw [add_zero]

omit [Hashing] in
theorem reservedAmount_expireAllocations_idle {now : Time} {accountId strategyKey : String}
    (h : ∀ r ∈ db.reservations.rows, r.holds accountId strategyKey = false) :
    reservedAmount (expireAllocations db now) accountId strategyKey =
      reservedAmount db.allocations accountId strategyKey := by
  refine Table.total_update_eq _ fun a _ ha ↦ ?_
  rw [Allocation.shift_serves]
  -- An allocation that is updated has an overdue reservation, which is live.
  have hserves : a.serves accountId strategyKey = false := by
    rw [Bool.eq_false_iff]
    intro hserves
    obtain ⟨haccount, hstrategy, _⟩ := serves_iff.1 hserves
    simp only [Bool.and_eq_true, List.any_eq_true, decide_eq_true_eq] at ha
    obtain ⟨_, r, hr, hexpiring, hsame⟩ := ha
    simp only [expiring, Reservation.overdue, Bool.and_eq_true, decide_eq_true_eq] at hexpiring
    have hnone := h r hr
    rw [Reservation.holds_eq, hexpiring.1.1] at hnone
    simp [Reservation.belongs, hsame, haccount, hstrategy, ReservationStatus.live] at hnone
  rw [hserves]
  rfl

theorem expireReservations_settles {session : Session} {now : Time} :
    Settles db (expireReservations db session now).1 := by
  have hexpire : ∀ reservationTransitions, Settles db
      { db with
        reservationTransitions
        reservations := db.reservations.update (expiring db now)
          (Reservation.release .expired .staleIntentRecovery now)
          (Reservation.release_keeps _ _ _)
        allocations := expireAllocations db now } := by
    intro reservationTransitions
    have hlive : ∀ r ∈ db.reservations.rows, expiring db now r = true → r.status.live := by
      intro r _ hexpiring
      simp only [expiring, Reservation.overdue, Bool.and_eq_true, decide_eq_true_eq] at hexpiring
      rw [hexpiring.1.1]
      rfl
    have hsame : ∀ r ∈ db.reservations.rows, expiring db now r = true →
        (r.release .expired .staleIntentRecovery now).unfilled = r.unfilled := by
      intro r hr hexpiring
      rw [Reservation.unfilled_release (by decide),
        Reservation.unfilled_of_live (hlive r hr hexpiring)]
    refine .of_update (Reservation.release_keeps _ _ _) rfl (fun _ ↦ rfl) hlive
      (fun r hr hexpiring ↦ (hsame r hr hexpiring).le) (fun accountId strategyKey ↦ ?_)
      (fun accountId strategyKey hnone ↦ ?_)
    · have htotal : unfilledAmount (db.reservations.update (expiring db now)
          (Reservation.release .expired .staleIntentRecovery now)
          (Reservation.release_keeps _ _ _)) accountId strategyKey =
          unfilledAmount db.reservations accountId strategyKey := by
        refine Table.total_update_eq _ fun r hr hexpiring ↦ ?_
        rw [hsame r hr hexpiring]
        rfl
      rw [deployedAmount_expireAllocations, htotal]
    · exact ⟨reservedAmount_expireAllocations_idle hnone, deployedAmount_expireAllocations _ _⟩
  unfold expireReservations
  split
  · exact .refl db
  · split
    · exact .refl db
    · split
      · exact .refl db
      · simp only [apply_ite Prod.fst, ite_self]
        exact hexpire _

theorem RecoveryStatement.settles {session : Session} {now : Time}
    {statement : RecoveryStatement} : Settles db (statement.apply session now db) := by
  cases statement with
  | staleReady intent answer =>
    unfold RecoveryStatement.apply recoverStaleReady
    dsimp only
    split
    · exact .refl db
    · split
      · exact .of_eq rfl rfl
      · split
        · have hcancel : Settles db (cancelStaleReady db session intent.id now).1 :=
            cancelStaleReady_settles
          split
          · next heq => rwa [heq] at hcancel
          · next heq => rwa [heq] at hcancel
        · exact .refl db
  | expireReservations => exact expireReservations_settles
  | expireReviews => exact .of_eq rfl rfl
  | expireConfirmations => exact .of_eq rfl rfl
  | cancelStaleCreated => exact .of_eq rfl rfl

omit [Hashing] in
theorem EntryStatement.settles {session : Session} {now : Time} {statement : EntryStatement}
    (h : statement.apply session now db = .ok db') : Settles db db' := by
  cases statement with
  | stage candidateId status reason =>
    have hstage : persistCandidateExecutionStage db (some candidateId) session now status reason =
        .ok db' := h
    obtain ⟨_, rfl⟩ := persistCandidateExecutionStage_ok hstage
    exact .of_eq rfl rfl
  | decisions recorded =>
    simp only [EntryStatement.apply, bind_eq_ok] at h
    obtain ⟨_, _, _, _, h⟩ := h
    obtain rfl := Except.ok.inj h
    exact .refl db
  | review r =>
    rcases entryStatement_review h with rfl | ⟨_, _, rfl⟩
    · exact .refl _
    · exact .of_eq rfl rfl
  | intent i =>
    rcases entryStatement_intent h with rfl | ⟨_, _, _, rfl⟩
    · exact .refl _
    · exact .of_eq rfl rfl
  | throw code => cases h

theorem Serves.settles (h : Serves db db') : Settles db db' := by
  rcases h with hreconciles | hrecover | hlease
  · exact hreconciles.settles
  · rw [hrecover]
    exact RecoveryStatement.settles
  · rw [hlease]
    exact .of_eq rfl rfl

theorem Committed.settles (h : Committed db db') : Settles db db' := by
  rcases h with hserves | ⟨_, _, hreview⟩
  · exact hserves.settles
  · exact EntryStatement.settles hreview

/-- The sync leaves the ledger alone. -/
theorem SyncStatement.settles {session : Session} {snapshot : AuthorityBrokerSnapshot}
    {statement : SyncStatement} (h : statement.apply snapshot session db = .ok db') :
    Settles db db' := by
  obtain ⟨_, _, _, _, rfl⟩ := SyncStatement.apply_tables h
  exact .of_eq rfl rfl

/-- **Every step** settles or makes one reservation. -/
theorem Sys.step_books {s s' : Sys} {act : Act} (hvalid : s.Valid)
    (h : Sys.step act s = some s') : Settles s.db s'.db ∨ ∃ r, Adds s.db s'.db r := by
  rcases Sys.step_committed hvalid h with hexecutes | hcommitted | ⟨_, _, _, _, hok⟩
  · exact hexecutes.books.imp_right fun ⟨r, hadds, _⟩ ↦ ⟨r, hadds⟩
  · exact Or.inl (invariant_of_steps (fun _ _ hsettles hstatement ↦
      hsettles.trans hstatement.settles) hcommitted (.refl s.db))
  · exact Or.inl (SyncStatement.settles hok)

end Statements

end AlpacaTrading
