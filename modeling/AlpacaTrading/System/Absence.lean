import AlpacaTrading.System.Services

/-!
# Intents that are given up

The broker may not know an order: the call that sends it was lost, or never made.  Reconciliation
records that it found the order absent, and gives the intent and its capital up when it has done so
four times and the intent has been on its way for two minutes.

`failed_of_run` says that this is the only way: a failed intent is one whose order the broker
refused, or one that was given up.  It holds although what a pass has counted is old when the pass
gives an intent up: other passes look for the same order, the run that sends it may still be at
work, and each may stop anywhere.  But events are never removed, so the absences that were counted
are still there (`Heard.later`), and the statement that fails the intent adds its own.
-/

namespace AlpacaTrading

/-! ## What gives an intent up -/

/-- The events of an intent of one type. -/
def Db.eventsOf (db : Db) (i : Intent) (type : EventType) : List BrokerEvent :=
  db.events.rows.filter fun e ↦ e.orderIntentId = some i.id ∧
    e.clientOrderId = some i.clientOrderId ∧ e.eventType = type

/-- The statuses of an intent whose order may be at the broker or not. -/
def unansweredStatuses : List IntentStatus := [.submissionPending, .ambiguous]

/-- The states of an intent whose order the broker refused or dropped. -/
def refusedStates : List LifecycleState := [.rejected, .expired, .failedTerminal]

/-- The intent has been on its way for the time reconciliation waits: since an attempt to submit
its order, or since a row of it was written that has been seen. -/
def Db.Overdue (Seen : Intent → Prop) (db : Db) (i : Intent) (now : Time) : Prop :=
  (∃ a ∈ db.eventsOf i .orderSubmissionAttempt,
    brokerAbsenceTerminalAgeMs ≤ now - a.occurredAt) ∨
  ∃ j, Seen j ∧ j.id = i.id ∧ j.status ∈ unansweredStatuses ∧
    brokerAbsenceTerminalAgeMs ≤ now - j.updatedAt

/-- The intent was given up: its order was found absent often enough, the last time late enough. -/
structure Abandoned (Seen : Intent → Prop) (db : Db) (i : Intent) : Prop where
  absences : brokerAbsenceTerminalObservations ≤ (db.eventsOf i .orderSubmissionAbsence).length
  overdue : ∃ e ∈ db.eventsOf i .orderSubmissionAbsence, e.eventStatus = "terminal" ∧
    db.Overdue Seen i e.occurredAt

/-- An intent is failed only if its order was refused, or if it was given up. -/
def FailedFor (Seen : Intent → Prop) (db : Db) (i : Intent) : Prop :=
  i.status = .failed → i.lifecycleState ∈ refusedStates ∨ Abandoned Seen db i

section Later

variable {Seen : Intent → Prop} {db db' : Db} {i i' : Intent} {now : Time}

theorem Later.eventsOf (h : Later db db') (hterms : i'.terms = i.terms) {type : EventType}
    {e : BrokerEvent} (he : e ∈ db.eventsOf i type) : e ∈ db'.eventsOf i' type := by
  obtain ⟨hmem, hkeys⟩ := List.mem_filter.1 he
  have hid : i'.id = i.id := congrArg IntentTerms.id hterms
  have hclient : i'.clientOrderId = i.clientOrderId := congrArg IntentTerms.clientOrderId hterms
  refine List.mem_filter.2 ⟨h.grows.events e hmem, ?_⟩
  rw [hid, hclient]
  exact hkeys

theorem Later.eventsOf_length (h : Later db db') (hterms : i'.terms = i.terms)
    (type : EventType) : (db.eventsOf i type).length ≤ (db'.eventsOf i' type).length :=
  (List.subperm_of_subset (db.events.rows_nodup.filter _) fun _ he ↦
    h.eventsOf hterms he).length_le

theorem Db.Overdue.later (ho : db.Overdue Seen i now) (h : Later db db')
    (hterms : i'.terms = i.terms) : db'.Overdue Seen i' now := by
  have hid : i'.id = i.id := congrArg IntentTerms.id hterms
  rcases ho with ⟨a, ha, hage⟩ | ⟨j, hseen, hj, hstatus, hage⟩
  · exact .inl ⟨a, h.eventsOf hterms ha, hage⟩
  · exact .inr ⟨j, hseen, hj.trans hid.symm, hstatus, hage⟩

theorem Abandoned.later (ha : Abandoned Seen db i) (h : Later db db')
    (hterms : i'.terms = i.terms) : Abandoned Seen db' i' := by
  obtain ⟨e, he, hstatus, hoverdue⟩ := ha.overdue
  exact ⟨ha.absences.trans (h.eventsOf_length hterms _),
    e, h.eventsOf hterms he, hstatus, hoverdue.later h hterms⟩

end Later

/-! ## Statements that fail an intent -/

/-- What a statement does to the failed intents: one that is failed was failed before, or its order
was refused, or it was given up; and no refused order comes back. -/
structure Fails (Seen : Intent → Prop) (db db' : Db) : Prop where
  later : Later db db'
  intents : ∀ i' ∈ db'.intents.rows, i'.status = .failed →
    (∃ i ∈ db.intents.rows, i'.terms = i.terms ∧ i.status = .failed ∧
      (i.lifecycleState ∈ refusedStates → i'.lifecycleState ∈ refusedStates)) ∨
    i'.lifecycleState ∈ refusedStates ∨ Abandoned Seen db' i'

namespace Fails

variable {Seen : Intent → Prop} {db db' db'' : Db}

theorem refl (db : Db) : Fails Seen db db :=
  ⟨.refl db, fun i hi hfailed ↦ .inl ⟨i, hi, rfl, hfailed, id⟩⟩

theorem trans (h : Fails Seen db db') (h' : Fails Seen db' db'') : Fails Seen db db'' := by
  refine ⟨h.later.trans h'.later, fun i'' hi'' hfailed'' ↦ ?_⟩
  rcases h'.intents i'' hi'' hfailed'' with ⟨i', hi', hterms', hfailed', hstate'⟩ | hnew
  · rcases h.intents i' hi' hfailed' with ⟨i, hi, hterms, hfailed, hstate⟩ | hrefused | habandoned
    · exact .inl ⟨i, hi, hterms'.trans hterms, hfailed, hstate' ∘ hstate⟩
    · exact .inr (.inl (hstate' hrefused))
    · exact .inr (.inr (habandoned.later h'.later hterms'))
  · exact .inr hnew

/-- What is failed stays explained. -/
theorem failedFor (h : Fails Seen db db') (hall : ∀ i ∈ db.intents.rows, FailedFor Seen db i) :
    ∀ i ∈ db'.intents.rows, FailedFor Seen db' i := by
  intro i' hi' hfailed'
  rcases h.intents i' hi' hfailed' with ⟨i, hi, hterms, hfailed, hstate⟩ | hnew
  · exact (hall i hi hfailed).imp hstate fun habandoned ↦ habandoned.later h.later hterms
  · exact hnew

end Fails

/-! ### All but the conclusion of an absence -/

/-- The causes other than an absence. -/
def noAbsence : ViewGuard := fun _ _ cause ↦ cause ≠ .absent

section Statements

variable [Hashing] {Seen : Intent → Prop} {db db' : Db} {session : Session} {target : Target}
  {now : Time}

omit [Hashing] in
theorem acknowledgedStatus_failed {l : LifecycleState} (h : acknowledgedStatus l = .failed) :
    l ∈ refusedStates := by
  revert h
  cases l <;> decide

/-- No statement but the conclusion of an absence fails an intent, unless its order was refused. -/
theorem ViewStep.failed {type : ReviewType} {v v' : IntentView}
    (h : ViewStep (noAbsence type v) type v v') (hfailed : v'.status = .failed) :
    (v.status = .failed ∧ (v.state ∈ refusedStates → v'.state ∈ refusedStates)) ∨
      v'.state ∈ refusedStates := by
  have hobservable : IntentStatus.failed ∉ observableStatuses := by decide
  have hrejected : LifecycleState.failedTerminal ∈ refusedStates := by decide
  cases h with
  | shift h =>
    cases h with
    | keep => exact .inl ⟨hfailed, id⟩
    | confirm _ => cases hfailed
    | claim _ => cases hfailed
    | release _ => cases hfailed
    | attempt hstatus =>
      rw [hstatus] at hfailed
      cases hfailed
    | acknowledge _ _ =>
      -- The answer to the call was that the order is rejected, or has expired.
      exact .inr (acknowledgedStatus_failed hfailed)
    | doubt _ => cases hfailed
    | reject _ => exact .inr hrejected
    | @observe _ obs _ _ _ _ _ _ _ _ =>
      have hstatus : obs.intentStatus = .failed := hfailed
      unfold Observation.intentStatus at hstatus
      split at hstatus <;> cases hstatus
    | stuck _ _ hstatus _ _ _ _ _ =>
      change v.status = .failed at hfailed
      rw [hfailed] at hstatus
      exact absurd hstatus hobservable
    | close _ _ => cases hfailed
    | cancel _ _ => cases hfailed
    | absent _ hok => exact absurd rfl hok
    | preserve _ => cases hfailed
  | mark _ hfrom hedge _ _ =>
    -- A refused order is at the end of its lifecycle.
    have hends : ∀ l ∈ refusedStates, l.transitions = [] := by decide
    refine .inl ⟨hfailed, fun hstate ↦ ?_⟩
    rw [hends _ hstate] at hedge
    exact absurd hedge List.not_mem_nil

theorem Evolves.fails (h : Evolves noAbsence.guard db db') : Fails Seen db db' := by
  refine ⟨h.later, fun i' hi' hfailed ↦ ?_⟩
  rcases h.viewStep hi' with ⟨i, hi, hterms, hstep⟩ | ⟨_, harrives⟩
  · rcases hstep.failed hfailed with ⟨hbefore, hstate⟩ | hrefused
    · exact .inl ⟨i, hi, hterms, hbefore, hstate⟩
    · exact .inr (.inl hrefused)
  · have hstatus := harrives.status
    rw [hfailed] at hstatus
    exact absurd hstatus (by decide)

theorem Evolves.steps_fails (h : Relation.ReflTransGen (Evolves noAbsence.guard) db db') :
    Fails Seen db db' :=
  invariant_of_steps (fun _ _ hd he ↦ hd.trans (Evolves.fails he)) h (Fails.refl db)

/-! ### The conclusion of an absence -/

/-- What a pass has counted of an absence is still there. -/
structure Heard (Seen : Intent → Prop) (db : Db) (target : Target) (now : Time) : Prop where
  absences : brokerAbsenceTerminalObservations ≤
    (db.eventsOf target.intent .orderSubmissionAbsence).length + 1
  overdue : db.Overdue Seen target.intent now

omit [Hashing] in
theorem Heard.later (h : Heard Seen db target now) (hl : Later db db') :
    Heard Seen db' target now :=
  ⟨h.absences.trans (Nat.succ_le_succ (hl.eventsOf_length rfl _)), h.overdue.later hl rfl⟩

omit [Hashing] in
/-- **The evidence** that settles the matter has been heard. -/
theorem heard_of_evidence (hseen : Seen target.intent)
    (hstatus : target.intent.status ∈ unansweredStatuses)
    (h : (absenceEvidence db target now).terminal = true) : Heard Seen db target now := by
  obtain ⟨habsences, hage⟩ := of_decide_eq_true h
  refine ⟨habsences, ?_⟩
  cases hmin : ((targetEvents db target .orderSubmissionAttempt).map (·.occurredAt)).min? with
  | none =>
    -- No attempt was stored, and the row of the target says how old it is.
    rw [hmin] at hage
    exact .inr ⟨target.intent, hseen, rfl, hstatus, hage⟩
  | some t =>
    rw [hmin] at hage
    obtain ⟨a, ha, rfl⟩ := List.mem_map.1 (List.min?_mem hmin)
    exact .inl ⟨a, ha, hage⟩

omit [Hashing] in
/-- The event of the conclusion is the absence that was missing. -/
theorem Heard.abandoned {i : Intent} {e : BrokerEvent} (h : Heard Seen db target e.occurredAt)
    (hlater : Later db db') (hterms : i.terms = target.intent.terms)
    (hnew : e ∉ db.events.rows) (he : e ∈ db'.eventsOf i .orderSubmissionAbsence)
    (hterminal : e.eventStatus = "terminal") : Abandoned Seen db' i := by
  refine ⟨h.absences.trans ?_, e, he, hterminal, h.overdue.later hlater hterms⟩
  have hnodup : (e :: db.eventsOf target.intent .orderSubmissionAbsence).Nodup :=
    List.nodup_cons.2 ⟨fun hold ↦ hnew (List.mem_filter.1 hold).1, db.events.rows_nodup.filter _⟩
  refine (List.subperm_of_subset hnodup (List.cons_subset.2 ⟨he, fun x hx ↦ ?_⟩)).length_le
  exact hlater.eventsOf hterms hx

/-- **The conclusion of an absence** gives its intent up, or fails none. -/
theorem terminalizeAbsence_fails {evidence : AbsenceEvidence} (hknown : target.Known db)
    (hterminal : evidence.terminal = true) (hheard : Heard Seen db target now) :
    Fails Seen db (terminalizeAbsence db session target evidence now).1 := by
  have heffect := @terminalizeAbsence_effect _ db session target now evidence
  have hlater := heffect.later
  revert hlater
  unfold terminalizeAbsence
  dsimp only
  split
  · split
    · exact fun _ ↦ .refl db
    · next events hinsert =>
      split
      · exact fun hlater ↦ ⟨hlater, fun i hi hfailed ↦ .inl ⟨i, hi, rfl, hfailed, id⟩⟩
      · next i hlock =>
        obtain ⟨hget, hstatus⟩ := Option.filter_eq_some_iff.1 hlock
        -- The verdict reads the row counts only.
        simp only [apply_ite Prod.fst, ite_self]
        have hreleased : ∀ d : Db, (releaseAbsent d i.reservationId now).1.intents = d.intents ∧
            (releaseAbsent d i.reservationId now).1.events = d.events := by
          intro d
          unfold releaseAbsent
          split
          · exact ⟨rfl, rfl⟩
          · exact ⟨rfl, rfl⟩
        intro hlater
        obtain ⟨hintents, hevents⟩ := hreleased { db with
          events
          intents := db.intents.modify target.intent.id (Intent.failAbsent now)
            (Intent.failAbsent_keeps now) }
        refine ⟨hlater, fun i' hi' hfailed ↦ ?_⟩
        have hmodified : i' ∈ (db.intents.modify target.intent.id (Intent.failAbsent now)
            (Intent.failAbsent_keeps now)).rows := by
          rw [hintents] at hi'
          exact hi'
        rcases mem_modify_cases hget hmodified with rfl | ⟨hold, -⟩
        · refine .inr (.inr ?_)
          have hterms : (i.failAbsent now).terms = target.intent.terms := by
            obtain ⟨j, hj, hterms, -⟩ := hknown
            have hid : j.id = target.intent.id := congrArg IntentTerms.id hterms
            obtain rfl := db.intents.eq_of_key hj (Table.mem_of_get? hget)
              (hid.trans (Table.key_of_get? hget).symm)
            exact hterms
          have hstatus : (absenceEvent target evidence now).eventStatus = "terminal" :=
            if_pos hterminal
          refine Heard.abandoned hheard hlater hterms (fun hold ↦ ?_) ?_ hstatus
          · exact Table.not_clash_of_insert? hinsert hold (Row.clash_of_key rfl)
          · have hrow : absenceEvent target evidence now ∈ events.rows := by
              rw [Table.rows_of_insert? hinsert]
              exact List.mem_append_right _ (List.mem_singleton_self _)
            rw [Db.eventsOf, hevents, List.mem_filter]
            have hid : (i.failAbsent now).id = target.intent.id :=
              congrArg IntentTerms.id hterms
            have hclient : (i.failAbsent now).clientOrderId = target.intent.clientOrderId :=
              congrArg IntentTerms.clientOrderId hterms
            rw [hid, hclient]
            exact ⟨hrow, decide_eq_true ⟨rfl, rfl, rfl⟩⟩
        · exact .inl ⟨i', hold, rfl, hfailed, id⟩
  · exact fun _ ↦ .refl db

omit [Hashing] in
theorem Fails.statement {α : Type} {outcome : Db × Except String α} (fault : Fault)
    (h : Fails Seen db outcome.1) : Fails Seen db (fault.statement db outcome).1 := by
  have hfst : (fault.statement db outcome).1 = db ∨ (fault.statement db outcome).1 = outcome.1 :=
    Fault.statement_fst
  rcases hfst with heq | heq
  · rw [heq]
    exact .refl db
  · rwa [heq]

end Statements

/-! ## Passes -/

section Passes

variable {Seen : Intent → Prop} {db db' : Db} {target : Target} {now : Time}

/-- What a pass knows of a target. -/
structure Target.Awaited (Seen : Intent → Prop) (db : Db) (target : Target) : Prop where
  known : target.Known db
  seen : Seen target.intent

/-- What a stage of a pass knows of its target. -/
def PassStage.Listens (Seen : Intent → Prop) (db : Db) (now : Time) : PassStage → Prop
  | .next | .deferring _ => True
  | .observing target _ | .settling target _ => target.Awaited Seen db
  | .absent target => target.Awaited Seen db ∧ target.intent.status ∈ unansweredStatuses
  | .concluding target evidence =>
    target.Known db ∧ (evidence.terminal = true → Heard Seen db target now)

/-- What a pass knows of its targets. -/
structure Pass.Listens (Seen : Intent → Prop) (db : Db) (pass : Pass) : Prop where
  todo : ∀ target ∈ pass.todo, target.Awaited Seen db
  stage : pass.stage.Listens Seen db pass.now

theorem Target.Awaited.later (h : target.Awaited Seen db) (hl : Later db db') :
    target.Awaited Seen db' :=
  ⟨h.known.later hl, h.seen⟩

theorem PassStage.Listens.later {stage : PassStage} (h : stage.Listens Seen db now)
    (hl : Later db db') : stage.Listens Seen db' now := by
  cases stage with
  | next => trivial
  | deferring target => trivial
  | observing target obs => exact Target.Awaited.later h hl
  | settling target obs => exact Target.Awaited.later h hl
  | absent target => exact ⟨h.1.later hl, h.2⟩
  | concluding target evidence =>
    exact ⟨h.1.later hl, fun hterminal ↦ (h.2 hterminal).later hl⟩

theorem Pass.Listens.later {pass : Pass} (h : pass.Listens Seen db) (hl : Later db db') :
    pass.Listens Seen db' :=
  ⟨fun target htarget ↦ (h.todo target htarget).later hl, h.stage.later hl⟩

theorem listTargets_stored {clientOrderId : String} (h : target ∈ listTargets db clientOrderId) :
    target.intent ∈ db.intents.rows := by
  unfold listTargets at h
  rw [List.mem_insertionSort, List.mem_filterMap] at h
  obtain ⟨i, hi, htarget⟩ := h
  unfold targetOf at htarget
  simp only [Option.bind_eq_bind, Option.bind_eq_some_iff] at htarget
  obtain ⟨_, _, _, _, heq⟩ := htarget
  cases heq
  exact (List.mem_filter.1 hi).1

theorem listTargets_awaited {clientOrderId : String} (hseen : ∀ i ∈ db.intents.rows, Seen i) :
    ∀ target ∈ listTargets db clientOrderId, target.Awaited Seen db :=
  fun _ h ↦ ⟨listTargets_known h, hseen _ (listTargets_stored h)⟩

theorem onTargetError_listens {error : Thrown} (h : target.Awaited Seen db) :
    (onTargetError target error).Listens Seen db now := by
  unfold onTargetError
  split
  · next hcond => exact ⟨h, hcond.1⟩
  · trivial

variable [Hashing] {session : Session}

/-- Nothing but an absence is a cause of what a pass has observed. -/
theorem observe_fails {obs : Observation} (hknown : target.Known db) (hobs : Observed target obs) :
    Fails Seen db (observe db session target obs now).1 := by
  have hwithin : ObserveWithin noAbsence.guard db target obs := fun _ _ habsent ↦ by cases habsent
  exact (observe_evolves hknown hobs hwithin).fails

theorem settle_fails {obs : Observation} (hknown : target.Known db) :
    Fails Seen db (settle db session target obs now).1 := by
  have hevolves : Evolves noAbsence.guard db (settle db session target obs now).1 :=
    settle_evolves hknown
  exact hevolves.fails

theorem deferAbsentCandidate_fails :
    Fails Seen db (deferAbsentCandidate db session target now).1 := by
  have hevolves : Evolves noAbsence.guard db (deferAbsentCandidate db session target now).1 :=
    deferAbsentCandidate_evolves
  exact hevolves.fails

theorem recordPendingAbsence_fails {evidence : AbsenceEvidence} :
    Fails Seen db (recordPendingAbsence db session target evidence now) := by
  have hevolves :
      Evolves noAbsence.guard db (recordPendingAbsence db session target evidence now) :=
    recordPendingAbsence_evolves
  exact hevolves.fails

/-- **A step of a pass.** -/
theorem Pass.step_fails {pass pass' : Pass} {act : PassAct} (hvalid : pass.Valid db)
    (h : pass.Listens Seen db) (hstep : pass.step act db = some (db', pass')) :
    Fails Seen db db' ∧ pass'.Listens Seen db' := by
  have htodo : ∀ {d : Db}, Later db d → ∀ target ∈ pass.todo, target.Awaited Seen d :=
    fun hl target htarget ↦ (h.todo target htarget).later hl
  unfold Pass.step at hstep
  dsimp only at hstep
  split at hstep
  · next answer target rest hstage hrest =>
    cases hstep
    have hawaited := h.todo target (by rw [hrest]; exact List.mem_cons_self)
    refine ⟨.refl db, fun t ht ↦ h.todo t (by rw [hrest]; exact List.mem_cons_of_mem _ ht), ?_⟩
    dsimp only
    split
    · exact onTargetError_listens hawaited
    · split
      · exact onTargetError_listens hawaited
      · exact hawaited
  · next target obs dbNow fault hstage =>
    cases hstep
    have hobserved := hvalid.stage
    rw [hstage] at hobserved
    have hawaited := h.stage
    rw [hstage] at hawaited
    have hfails := (@observe_fails Seen db target pass.now _ { fence := pass.fence, dbNow } obs
      hobserved.1 hobserved.2).statement fault
    refine ⟨hfails, htodo hfails.later, ?_⟩
    dsimp only
    split
    · exact Target.Awaited.later hawaited hfails.later
    · exact onTargetError_listens (Target.Awaited.later hawaited hfails.later)
  · next target obs dbNow fault hstage =>
    cases hstep
    have hawaited := h.stage
    rw [hstage] at hawaited
    have hfails := (@settle_fails Seen db target pass.now _ { fence := pass.fence, dbNow } obs
      (Target.Awaited.known hawaited)).statement fault
    refine ⟨hfails, htodo hfails.later, ?_⟩
    dsimp only
    split
    · trivial
    · exact onTargetError_listens (Target.Awaited.later hawaited hfails.later)
  · next target hstage =>
    cases hstep
    have hlistens := h.stage
    rw [hstage] at hlistens
    exact ⟨.refl db, h.todo, hlistens.1.known, heard_of_evidence hlistens.1.seen hlistens.2⟩
  · next target evidence dbNow fault hstage =>
    have hlistens := h.stage
    rw [hstage] at hlistens
    split at hstep
    · next hterminal =>
      cases hstep
      have hfails := (@terminalizeAbsence_fails _ Seen db { fence := pass.fence, dbNow } target
        pass.now evidence hlistens.1 hterminal (hlistens.2 hterminal)).statement fault
      refine ⟨hfails, htodo hfails.later, ?_⟩
      dsimp only
      split <;> trivial
    · cases hstep
      have hfails := @Fails.statement Seen db Unit
        (recordPendingAbsence db { fence := pass.fence, dbNow } target evidence pass.now, .ok ())
        fault recordPendingAbsence_fails
      exact ⟨hfails, htodo hfails.later, trivial⟩
  · next target dbNow fault hstage =>
    cases hstep
    have hfails := (@deferAbsentCandidate_fails Seen db target pass.now _
      { fence := pass.fence, dbNow }).statement fault
    exact ⟨hfails, htodo hfails.later, trivial⟩
  · cases hstep
    exact ⟨.refl db, by simp, trivial⟩
  · cases hstep

/-! ### Whole passes -/

theorem recordBrokerOrderAbsence_fails (h : target.Awaited Seen db)
    (hstatus : target.intent.status ∈ unansweredStatuses) :
    Fails Seen db (recordBrokerOrderAbsence db session target now).1 := by
  unfold recordBrokerOrderAbsence
  dsimp only
  split
  · next hterminal =>
    have hfail := @terminalizeAbsence_fails _ Seen db session target now _ h.known hterminal
      (heard_of_evidence h.seen hstatus hterminal)
    split
    · next heq =>
      rw [heq] at hfail
      exact hfail
    · next db₁ heq =>
      rw [heq] at hfail
      have hdefer := @deferAbsentCandidate_fails Seen db₁ target now _ session
      split
      · next heq' =>
        rw [heq'] at hdefer
        exact hfail.trans hdefer
      · next heq' =>
        rw [heq'] at hdefer
        exact hfail.trans hdefer
  · exact recordPendingAbsence_fails

/-- One target of a whole pass: only an answer that is an error may end in an absence. -/
theorem reconcileTarget_fails {answer : Lookup} (h : target.Awaited Seen db) :
    Fails Seen db (reconcileTarget db session target answer now).1 := by
  rcases answer with error | response
  · change Fails Seen db (recoverTarget db session target error now).1
    unfold recoverTarget
    split
    · next hcond =>
      have habsence := @recordBrokerOrderAbsence_fails Seen db target now _ session h hcond.1
      split
      · next heq =>
        rw [heq] at habsence
        exact habsence
      · next heq =>
        rw [heq] at habsence
        exact habsence
    · exact .refl db
  · have hwithin : TargetWithin noAbsence.guard now db target (.inr response) :=
      fun _ _ _ _ habsent ↦ by cases habsent
    exact Evolves.steps_fails (reconcileTarget_evolves h.known hwithin)

theorem reconcileTargets_fails {lookup : String → Lookup} {targets : List Target} {db : Db}
    (h : ∀ target ∈ targets, target.Awaited Seen db) :
    Fails Seen db (reconcileTargets session now lookup db targets).1 := by
  -- Induction over the targets, with what is known of the later ones.
  induction targets generalizing db with
  | nil => exact .refl db
  | cons target rest ih =>
    have hfirst := @reconcileTarget_fails Seen db target now _ session
      (lookup target.intent.clientOrderId) (h target List.mem_cons_self)
    exact hfirst.trans (ih fun t ht ↦ (h t (List.mem_cons_of_mem _ ht)).later hfirst.later)

/-- Orders that are found are never absent. -/
theorem targetsWithin_found {response : AlpacaApiResponse} (targets : List Target) (db : Db) :
    TargetsWithin noAbsence.guard session now (fun _ ↦ .inr response) db targets := by
  induction targets generalizing db with
  | nil => trivial
  | cons target rest ih => exact ⟨fun _ _ _ _ habsent ↦ (by cases habsent), ih _⟩

end Passes

/-! ## The system -/

section System

variable [Hashing] {Seen : Intent → Prop}

/-- What the passes of the system know. -/
def Sys.Listens (Seen : Intent → Prop) (s : Sys) : Prop :=
  ∀ pass ∈ s.passes, pass.Listens Seen s.db

omit [Hashing] in
theorem Sys.Listens.later {s s' : Sys} (h : s.Listens Seen) (hl : Later s.db s'.db)
    (hpasses : s'.passes = s.passes) : s'.Listens Seen := by
  intro pass hpass
  rw [hpasses] at hpass
  exact (h pass hpass).later hl

/-- The steps that neither are a step of a pass nor a whole pass have no absence for a cause. -/
theorem Sys.within_noAbsence (s : Sys) {act : Act} (hpass : ∀ p a, act ≠ .pass p a)
    (hreconcile : ∀ session now id lookup, act ≠ .reconcile session now id lookup) :
    s.Within noAbsence.guard act := by
  cases act with
  | start config => trivial
  | run p act => exact fun _ _ _ _ _ _ _ _ ↦ targetsWithin_found _ _
  | startPass fence now clientOrderId => trivial
  | pass p act => exact absurd rfl (hpass p act)
  | reconcile session now clientOrderId lookup =>
    exact absurd rfl (hreconcile session now clientOrderId lookup)
  | sync session snapshot statement =>
    cases statement with
    | closeExits => exact fun _ _ _ _ _ _ habsent ↦ by cases habsent
    | _ => trivial
  | recovery session now statement =>
    cases statement with
    | staleReady intent answer => exact fun _ _ _ _ habsent ↦ by cases habsent
    | cancelStaleCreated => exact fun _ _ _ _ _ habsent ↦ by cases habsent
    | _ => trivial
  | review session request => trivial
  | lease leases => trivial

/-- **A step of the system.** -/
theorem Sys.step_fails {s s' : Sys} {act : Act} (hvalid : s.Valid) (h : s.Listens Seen)
    (hseen : ∀ i ∈ s.db.intents.rows, Seen i) (hstep : Sys.step act s = some s') :
    Fails Seen s.db s'.db ∧ s'.Listens Seen := by
  have hother : (∀ p a, act ≠ .pass p a) →
      (∀ session now id lookup, act ≠ .reconcile session now id lookup) →
      Fails Seen s.db s'.db := fun hpass hreconcile ↦
    Evolves.steps_fails (Sys.step_evolves hvalid (s.within_noAbsence hpass hreconcile) hstep)
  cases act with
  | pass p act =>
    simp only [Sys.step] at hstep
    split at hstep
    · cases hstep
    · next pass hpass =>
      rw [Option.map_eq_some_iff] at hstep
      obtain ⟨⟨db, pass'⟩, hpassStep, rfl⟩ := hstep
      have hmem := List.mem_of_getElem? hpass
      obtain ⟨hfails, hlistens⟩ :=
        Pass.step_fails (hvalid.passes pass hmem) (h pass hmem) hpassStep
      refine ⟨hfails, fun x hx ↦ ?_⟩
      rcases List.mem_or_eq_of_mem_set hx with hx | rfl
      · exact (h x hx).later hfails.later
      · exact hlistens
  | reconcile session now clientOrderId lookup =>
    obtain rfl := Option.some_inj.1 hstep
    have hfails : Fails Seen s.db
        (reconcilePostgresPaperOrders s.db session now clientOrderId lookup).1 :=
      reconcileTargets_fails (listTargets_awaited hseen)
    exact ⟨hfails, h.later hfails.later rfl⟩
  | startPass fence now clientOrderId =>
    obtain rfl := Option.some_inj.1 hstep
    refine ⟨.refl _, fun pass hpass ↦ ?_⟩
    rcases List.mem_append.1 hpass with hpass | hpass
    · exact h pass hpass
    · obtain rfl := List.mem_singleton.1 hpass
      exact ⟨listTargets_awaited hseen, trivial⟩
  | start config =>
    have hfails := hother (by simp) (by simp)
    obtain rfl := Option.some_inj.1 hstep
    exact ⟨hfails, h.later hfails.later rfl⟩
  | run p act =>
    have hfails := hother (by simp) (by simp)
    obtain ⟨_, _, _, _, _, heq⟩ := Sys.step_run hstep
    refine ⟨hfails, h.later hfails.later ?_⟩
    rw [heq]
  | sync session snapshot statement =>
    have hfails := hother (by simp) (by simp)
    refine ⟨hfails, h.later hfails.later ?_⟩
    simp only [Sys.step] at hstep
    split at hstep
    · obtain rfl := Option.some_inj.1 hstep
      rfl
    · obtain rfl := Option.some_inj.1 hstep
      rfl
  | recovery session now statement =>
    have hfails := hother (by simp) (by simp)
    obtain rfl := Option.some_inj.1 hstep
    exact ⟨hfails, h.later hfails.later rfl⟩
  | review session request =>
    have hfails := hother (by simp) (by simp)
    obtain rfl := Option.some_inj.1 hstep
    exact ⟨hfails, h.later hfails.later rfl⟩
  | lease leases =>
    have hfails := hother (by simp) (by simp)
    obtain rfl := Option.some_inj.1 hstep
    exact ⟨hfails, h.later hfails.later rfl⟩

/-- A cancellation hands over to a pass over the stored intents. -/
theorem Cancellation.step_listens {run : Cancellation} {act : CancellationAct} {db db' : Db}
    {stage : CancellationStage} {pass : Pass} (hseen : ∀ i ∈ db.intents.rows, Seen i)
    (h : run.step act db = some (db', stage, some (.reconcile pass))) : pass.Listens Seen db' := by
  unfold Cancellation.step at h
  dsimp only at h
  split at h
  all_goals try (first | cases h | (split at h <;> cases h))
  exact ⟨listTargets_awaited hseen, trivial⟩

/-- What the services rely on, and what is explained of failed intents. -/
structure Services.Explained (Seen : Intent → Prop) (s : Services) : Prop where
  valid : s.Valid
  listens : s.base.sys.Listens Seen
  failed : ∀ i ∈ s.db.intents.rows, FailedFor Seen s.db i

/-- **A step of the services.** -/
theorem Services.step_explained {s s' : Services} {act : ServiceAct} (h : s.Explained Seen)
    (hseen : ∀ i ∈ s.db.intents.rows, Seen i) (hstep : Services.step act s = some s') :
    s'.Explained Seen := by
  have hvalid := (Services.step_evolves h.valid (s.within_true act) hstep).1
  have hfails : Fails Seen s.db s'.db ∧ s'.base.sys.Listens Seen := by
    rcases act with act | request | ⟨p, act⟩
    · obtain ⟨base, hbase, rfl⟩ := Option.map_eq_some_iff.1 hstep
      rcases ExitSys.step_cases hbase with ⟨_, _, _, _, hsys, _⟩ |
        ⟨p, dbNow, run, item, _, _, _, _, hsys, _⟩ | ⟨a, _, hsys, _⟩
      · change Fails Seen s.base.sys.db base.sys.db ∧ base.sys.Listens Seen
        rw [hsys]
        exact ⟨.refl _, h.listens⟩
      · change Fails Seen s.base.sys.db base.sys.db ∧ base.sys.Listens Seen
        rw [hsys]
        have hitem : Evolves noAbsence.guard s.base.sys.db
            (item.run run.request { fence := run.fence, dbNow } s.base.sys.db).1 :=
          exitItem_run_evolves
        exact ⟨hitem.fails, h.listens.later hitem.later rfl⟩
      · exact Sys.step_fails h.valid.sys h.listens hseen hsys
    · obtain rfl := Option.some_inj.1 hstep
      exact ⟨.refl _, h.listens⟩
    · obtain ⟨run, db, stage, call, hrun, hcancel, rfl⟩ := Services.step_cancellation hstep
      have hstage := h.valid.cancellations run (List.mem_of_getElem? hrun)
      have hevolves : Evolves noAbsence.guard s.db db :=
        (Cancellation.step_evolves hstage hcancel).1
      refine ⟨hevolves.fails, fun pass hpass ↦ ?_⟩
      rcases List.mem_append.1 hpass with hpass | hpass
      · exact (h.listens pass hpass).later hevolves.later
      · obtain ⟨c, rfl, hc⟩ := Option.bind_eq_some_iff.1 (Option.mem_toList.1 hpass)
        rcases c with _ | pass'
        · cases hc
        · obtain rfl := Option.some_inj.1 hc
          exact Cancellation.step_listens hseen hcancel
  exact ⟨hvalid, hfails.2, hfails.1.failedFor h.failed⟩

/-- A row of an intent that was stored in the course of a run. -/
def StoredIn (start : Services) (acts : List ServiceAct) (i : Intent) : Prop :=
  ∃ before after s, acts = before ++ after ∧ runActs Services.step start before = some s ∧
    i ∈ s.db.intents.rows

/-- **Why intents fail.**  In every state that any interleaving of all services reaches, a failed
intent is one whose order the broker refused, or one whose order was found absent four times, the
last time when the intent had been on its way for two minutes. -/
theorem failed_of_run {start s : Services} {acts : List ServiceAct} (hvalid : start.Valid)
    (hidle : start.base.sys.passes = []) (hnone : ∀ i ∈ start.db.intents.rows, i.status ≠ .failed)
    (hrun : runActs Services.step start acts = some s) :
    ∀ i ∈ s.db.intents.rows, i.status = .failed →
      i.lifecycleState ∈ refusedStates ∨ Abandoned (StoredIn start acts) s.db i := by
  have hstart : start.Explained (StoredIn start acts) := by
    refine ⟨hvalid, fun pass hpass ↦ ?_, fun i hi hfailed ↦ absurd hfailed (hnone i hi)⟩
    rw [hidle] at hpass
    cases hpass
  -- Every state of the run stores only rows that the run stores.
  have hseen : Guarded Services.step (fun t _ ↦ ∀ i ∈ t.db.intents.rows, StoredIn start acts i)
      start acts :=
    guarded_of_reached fun before a after t hacts hbefore i hi ↦
      ⟨before, a :: after, t, hacts, hbefore, hi⟩
  exact (invariant_of_guarded (fun t a t' ht hrows hstep ↦ Services.step_explained ht hrows hstep)
    hstart hseen hrun).failed

end System

/-! ## The specimen, given up -/

namespace Specimen

/-- A pass that looks the entry up and does not find it. -/
def absentPass (p : Nat) (now : Time) : List Act :=
  [.startPass fence now "",
    .pass p (.lookup (.inl { message := "order not found", status := some 404 })),
    .pass p .evidence, .pass p (.conclude 0 .none)]

/-- The call that sends the entry ends without an answer, and four passes look for the order. -/
def absentActs : List ServiceAct :=
  (lostActs ++ absentPass 0 3000 ++ absentPass 1 30000 ++ absentPass 2 60000 ++
    absentPass 3 122000).map (.base ∘ .system)

/-- The services before they begin. -/
def entryServices : Services := { base := { sys := Sys.idle entryDb } }

end Specimen

/-- Two minutes after the attempt the fourth pass gives the entry up. -/
theorem lost_entry_abandoned :
    ∃ s, runActs (@Services.step Specimen.hashing) Specimen.entryServices Specimen.absentActs =
        some s ∧
      ∃ i ∈ s.db.intents.rows, i.status = .failed ∧ i.lifecycleState = .submissionAmbiguous ∧
        Abandoned (@StoredIn Specimen.hashing Specimen.entryServices Specimen.absentActs) s.db
          i := by
  have hstanding :
      (runActs (@Services.step Specimen.hashing) Specimen.entryServices Specimen.absentActs).map
        (fun s ↦ s.db.intents.rows.map Intent.standing) =
      some [(.failed, .submissionAmbiguous)] := by decide +kernel
  obtain ⟨s, hrun, hrows⟩ := Option.map_eq_some_iff.1 hstanding
  obtain ⟨i, hi, hi'⟩ := List.map_eq_singleton_iff.1 hrows
  obtain ⟨hfailed, hstate⟩ := Prod.mk.inj hi'
  have hmem : i ∈ s.db.intents.rows := by
    rw [hi]
    exact List.mem_singleton_self i
  refine ⟨s, hrun, i, hmem, hfailed, hstate, ?_⟩
  have hstart : Specimen.entryServices.Valid :=
    ⟨Sys.idle_valid _, fun run h ↦ absurd h List.not_mem_nil⟩
  refine (@failed_of_run Specimen.hashing _ _ _ hstart rfl (by decide) hrun i hmem
    hfailed).resolve_left ?_
  rw [hstate]
  decide

end AlpacaTrading
