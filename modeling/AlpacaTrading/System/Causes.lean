import AlpacaTrading.Cancellation.Cancel
import AlpacaTrading.Reconciliation.Complete
import AlpacaTrading.System.Views

/-!
# The causes of a step

A run can be restricted by what its services have seen when they write: a guard on the causes of
`Shift`.  `Sys.Within` says that the causes of a step meet a guard, each in the state its statement
is committed in, and `Sys.step_evolves` that the step is then a sequence of statements that shift
intents for such causes only, or store new ones.

A whole pass is one step, and so is the recovery of an uncertain submission; their causes are those
of the statements they commit, one target after the other.
-/

namespace AlpacaTrading

/-- A step of a cancellation was persisted, of an intent with an order. -/
def CancelMarks [Hashing] (db db' : Db) : Prop :=
  ∃ mark target now, (mark = requestMark target ∨ mark = ambiguousMark) ∧
    db.placed target.orderIntentId = true ∧ PersistsMark mark target now db db'

/-- One statement: what workers remember stays, and intents shift, a new one is stored, or one is
marked for its cancellation. -/
structure Evolves [Hashing] (ok : CauseGuard) (db db' : Db) : Prop where
  later : Later db db'
  change : Shifts ok db db' ∨ (∃ i, Arrives db db' i) ∨ CancelMarks db db'

/-! ## Causes -/

section Within

variable [Hashing] (ok : CauseGuard)

/-- The observation, if it is stored now. -/
def ObserveWithin (db : Db) (target : Target) (obs : Observation) : Prop :=
  ∀ i, db.intents.get? target.intent.id = some i → ok db i (.observed target obs)

/-- The absence, if it is concluded now. -/
def AbsenceWithin (db : Db) (target : Target) (evidence : AbsenceEvidence) : Prop :=
  evidence.terminal = true → ∀ i, db.intents.get? target.intent.id = some i → ok db i .absent

/-- What a pass has seen of an intent when it writes. -/
def PassStage.cause? : PassStage → PassAct → Option (String × Cause)
  | .observing target obs, .observe _ _ => some (target.intent.id, .observed target obs)
  | .concluding target evidence, .conclude _ _ =>
    if evidence.terminal then some (target.intent.id, .absent) else none
  | _, _ => none

/-- The cause of a step of a pass. -/
def PassStage.Within (db : Db) (stage : PassStage) (act : PassAct) : Prop :=
  ∀ c, stage.cause? act = some c → ∀ i, db.intents.get? c.1 = some i → ok db i c.2

/-- The cause of one target of a whole pass. -/
def TargetWithin (now : Time) (db : Db) (target : Target) (answer : Lookup) : Prop :=
  match answer with
  | .inl _ => AbsenceWithin ok db target (absenceEvidence db target now)
  | .inr response => ∀ obs, readObservation target response now = .ok obs →
    ObserveWithin ok db target obs

/-- The causes of a whole pass, each in the state its target is reached in. -/
def TargetsWithin (session : Session) (now : Time) (lookup : String → Lookup) :
    Db → List Target → Prop
  | _, [] => True
  | db, target :: rest =>
    TargetWithin ok now db target (lookup target.intent.clientOrderId) ∧
      TargetsWithin session now lookup
        (reconcileTarget db session target (lookup target.intent.clientOrderId) now).1 rest

/-- The causes of the recovery of an uncertain submission: the first order found is reconciled. -/
def RecoverWithin (session : Session) (now : Time) (clientOrderId : String)
    (answers : List Lookup) (db : Db) : Prop :=
  ∀ response, answers.findSome? Sum.getRight? = some response →
    ∀ id, (BrokerText.str clientOrderId).required
        "POSTGRES_BROKER_SUBMISSION_RECOVERY_CLIENT_ID_REQUIRED" = .ok id →
      TargetsWithin ok session now (fun _ ↦ .inr response) db (listTargets db id)

/-- The recovery a step of a run makes. -/
def Phase.recovery? :
    Phase → RunAct → Option (AutonomousExecutionIntentRow × Time × Time × List Lookup)
  | .recovering row _, .recover dbNow now _ answers => some (row, dbNow, now, answers)
  | _, _ => none

/-- The causes of a step of a run. -/
def Phase.Within (fence : SchedulerFence) (db : Db) (phase : Phase) (act : RunAct) : Prop :=
  ∀ r, phase.recovery? act = some r →
    RecoverWithin ok { fence, dbNow := r.2.1 } r.2.2.1 r.1.intent.clientOrderId r.2.2.2 db

/-- The causes of a step. -/
def Sys.Within (s : Sys) : Act → Prop
  | .run p act => ∀ run, s.runs[p]? = some run → run.phase.Within ok run.config.fence s.db act
  | .pass p act => ∀ pass, s.passes[p]? = some pass → pass.stage.Within ok s.db act
  | .reconcile session now clientOrderId lookup =>
    TargetsWithin ok session now lookup s.db (listTargets s.db clientOrderId)
  | .sync session snapshot statement => statement.Within ok snapshot session s.db
  | .recovery session now statement => statement.Within ok session now s.db
  | _ => True

/-! ### Deciding them -/

variable {ok} [∀ db i cause, Decidable (ok db i cause)]

instance decidableOfOk {ε α : Type} {P : α → Prop} [DecidablePred P] :
    ∀ x : Except ε α, Decidable (∀ a, x = .ok a → P a)
  | .error _ => isTrue fun _ h ↦ by cases h
  | .ok a => decidable_of_iff (P a) ⟨fun h b hb ↦ Except.ok.inj hb ▸ h, fun h ↦ h a rfl⟩

@[reducible] def decidableOfSome {α : Type} {P : α → Prop} [DecidablePred P] :
    ∀ x : Option α, Decidable (∀ a, x = some a → P a)
  | none => isTrue fun _ h ↦ by cases h
  | some a => decidable_of_iff (P a) ⟨fun h b hb ↦ Option.some_inj.1 hb ▸ h, fun h ↦ h a rfl⟩

instance (db : Db) (target : Target) (obs : Observation) :
    Decidable (ObserveWithin ok db target obs) :=
  decidableOfSome _

instance (db : Db) (target : Target) (evidence : AbsenceEvidence) :
    Decidable (AbsenceWithin ok db target evidence) :=
  inferInstanceAs (Decidable (_ → _))

instance (db : Db) (stage : PassStage) (act : PassAct) : Decidable (stage.Within ok db act) :=
  decidableOfSome _

instance decidableTargetWithin (now : Time) (db : Db) (target : Target) :
    ∀ answer, Decidable (TargetWithin ok now db target answer)
  | .inl _ => inferInstanceAs (Decidable (AbsenceWithin _ _ _ _))
  | .inr _ => decidableOfOk _

instance decidableTargetsWithin (session : Session) (now : Time) (lookup : String → Lookup) :
    ∀ (db : Db) (targets : List Target), Decidable (TargetsWithin ok session now lookup db targets)
  | _, [] => isTrue trivial
  | db, target :: rest =>
    have := decidableTargetsWithin session now lookup
      (reconcileTarget db session target (lookup target.intent.clientOrderId) now).1 rest
    inferInstanceAs (Decidable (_ ∧ _))

instance (session : Session) (now : Time) (clientOrderId : String) (answers : List Lookup)
    (db : Db) : Decidable (RecoverWithin ok session now clientOrderId answers db) :=
  decidableOfSome _

instance (fence : SchedulerFence) (db : Db) (phase : Phase) (act : RunAct) :
    Decidable (phase.Within ok fence db act) :=
  decidableOfSome _

instance (snapshot : AuthorityBrokerSnapshot) (session : Session) (db : Db) :
    ∀ statement : SyncStatement, Decidable (statement.Within ok snapshot session db)
  | .closeExits => inferInstanceAs (Decidable (∀ i ∈ db.intents.rows, _ → _ → _ → _ → _))
  | .account | .accountSnapshot | .closePositions | .position _ => isTrue trivial

instance (session : Session) (now : Time) (db : Db) :
    ∀ statement : RecoveryStatement, Decidable (statement.Within ok session now db)
  | .staleReady intent _ => inferInstanceAs
      (Decidable (_ → ∀ i, db.intents.get? intent.id = some i → _))
  | .cancelStaleCreated => inferInstanceAs (Decidable (∀ i ∈ db.intents.rows, _ → _ → _ → _))
  | .expireReservations | .expireReviews | .expireConfirmations => isTrue trivial

instance (s : Sys) : ∀ act : Act, Decidable (s.Within ok act)
  | .run p _ => decidableOfSome s.runs[p]?
  | .pass p _ => decidableOfSome s.passes[p]?
  | .reconcile session now _ lookup => decidableTargetsWithin session now lookup _ _
  | .sync session snapshot statement =>
    inferInstanceAs (Decidable (statement.Within ok snapshot session s.db))
  | .recovery session now statement =>
    inferInstanceAs (Decidable (statement.Within ok session now s.db))
  | .start _ | .startPass _ _ _ | .review _ _ | .lease _ => isTrue trivial

end Within

/-! ## Passes -/

section Passes

variable [Hashing] {ok : CauseGuard} {db db' : Db} {session : Session} {target : Target}
  {obs : Observation} {now : Time}

theorem Evolves.refl (db : Db) : Evolves ok db db :=
  ⟨.refl db, .inl (.of_eq rfl ⟨rfl, rfl⟩)⟩

/-- A statement of reconciliation that shifts intents within the guard. -/
theorem Evolves.of_reconciles (h : Reconciles db db') (hshifts : Shifts ok db db') :
    Evolves ok db db' :=
  ⟨h.effect.later, .inl hshifts⟩

theorem observe_evolves (hknown : target.Known db) (hobs : Observed target obs)
    (hok : ObserveWithin ok db target obs) : Evolves ok db (observe db session target obs now).1 :=
  .of_reconciles (.observe hknown hobs rfl) (observe_shifts hknown hobs hok rfl)

theorem settle_evolves (hknown : target.Known db) :
    Evolves ok db (settle db session target obs now).1 :=
  .of_reconciles (.settle hknown rfl) (settle_shifts rfl)

theorem terminalizeAbsence_evolves {evidence : AbsenceEvidence} (hterminal : evidence.terminal = true)
    (hok : AbsenceWithin ok db target evidence) :
    Evolves ok db (terminalizeAbsence db session target evidence now).1 :=
  .of_reconciles (.conclude rfl) (terminalizeAbsence_shifts (hok hterminal))

theorem recordPendingAbsence_evolves {evidence : AbsenceEvidence} :
    Evolves ok db (recordPendingAbsence db session target evidence now) :=
  .of_reconciles (.absence rfl) recordPendingAbsence_shifts

theorem deferAbsentCandidate_evolves : Evolves ok db (deferAbsentCandidate db session target now).1 :=
  .of_reconciles (.defer rfl) deferAbsentCandidate_shifts

/-- A statement under a fault. -/
theorem Evolves.statement {α : Type} {outcome : Db × Except String α} (fault : Fault)
    (h : Evolves ok db outcome.1) : Evolves ok db (fault.statement db outcome).1 := by
  have hfst : (fault.statement db outcome).1 = db ∨ (fault.statement db outcome).1 = outcome.1 :=
    Fault.statement_fst
  rcases hfst with heq | heq
  · rw [heq]
    exact .refl db
  · rwa [heq]

/-- **A step of a pass** within the guard. -/
theorem Pass.step_evolves {pass pass' : Pass} {act : PassAct} (hvalid : pass.Valid db)
    (hwithin : pass.stage.Within ok db act) (hstep : pass.step act db = some (db', pass')) :
    Evolves ok db db' := by
  unfold Pass.step at hstep
  dsimp only at hstep
  split at hstep
  · obtain ⟨rfl, -⟩ := Prod.mk.inj (Option.some_inj.1 hstep)
    exact .refl db
  · next hstage =>
    obtain ⟨rfl, -⟩ := Prod.mk.inj (Option.some_inj.1 hstep)
    have hobserved := hvalid.stage
    rw [hstage] at hobserved
    rw [hstage] at hwithin
    exact (observe_evolves hobserved.1 hobserved.2 (hwithin _ rfl)).statement _
  · next hstage =>
    obtain ⟨rfl, -⟩ := Prod.mk.inj (Option.some_inj.1 hstep)
    have hknown := hvalid.stage
    rw [hstage] at hknown
    exact (settle_evolves hknown).statement _
  · obtain ⟨rfl, -⟩ := Prod.mk.inj (Option.some_inj.1 hstep)
    exact .refl db
  · next hstage =>
    rw [hstage] at hwithin
    split at hstep
    · next hterminal =>
      obtain ⟨rfl, -⟩ := Prod.mk.inj (Option.some_inj.1 hstep)
      have hok := hwithin _ (if_pos hterminal)
      exact (terminalizeAbsence_evolves hterminal fun _ ↦ hok).statement _
    · obtain ⟨rfl, -⟩ := Prod.mk.inj (Option.some_inj.1 hstep)
      exact @Evolves.statement _ ok db Unit (_, .ok ()) _ recordPendingAbsence_evolves
  · obtain ⟨rfl, -⟩ := Prod.mk.inj (Option.some_inj.1 hstep)
    exact deferAbsentCandidate_evolves.statement _
  · obtain ⟨rfl, -⟩ := Prod.mk.inj (Option.some_inj.1 hstep)
    exact .refl db
  · cases hstep

/-! ### Whole passes -/

theorem recordBrokerOrderAbsence_evolves
    (hok : AbsenceWithin ok db target (absenceEvidence db target now)) :
    Relation.ReflTransGen (Evolves ok) db (recordBrokerOrderAbsence db session target now).1 := by
  unfold recordBrokerOrderAbsence
  dsimp only
  split
  · next hterminal =>
    have hfail := @terminalizeAbsence_evolves _ ok db session target now _ hterminal hok
    split
    · next heq =>
      rw [heq] at hfail
      exact .single hfail
    · next db₁ heq =>
      rw [heq] at hfail
      have hdefer := @deferAbsentCandidate_evolves _ ok db₁ session target now
      split
      · next heq' =>
        rw [heq'] at hdefer
        exact (Relation.ReflTransGen.single hfail).tail hdefer
      · next heq' =>
        rw [heq'] at hdefer
        exact (Relation.ReflTransGen.single hfail).tail hdefer
  · exact .single recordPendingAbsence_evolves

theorem recoverTarget_evolves {error : Thrown}
    (hok : AbsenceWithin ok db target (absenceEvidence db target now)) :
    Relation.ReflTransGen (Evolves ok) db (recoverTarget db session target error now).1 := by
  unfold recoverTarget
  split
  · have habsence := @recordBrokerOrderAbsence_evolves _ ok db session target now hok
    split
    · next heq =>
      rw [heq] at habsence
      exact habsence
    · next heq =>
      rw [heq] at habsence
      exact habsence
  · exact .refl

/-- One target of a whole pass. -/
theorem reconcileTarget_evolves {answer : Lookup} (hknown : target.Known db)
    (hok : TargetWithin ok now db target answer) :
    Relation.ReflTransGen (Evolves ok) db (reconcileTarget db session target answer now).1 := by
  unfold reconcileTarget
  split
  · exact recoverTarget_evolves hok
  · next response =>
    split
    · next code hread =>
      rw [recoverTarget_coded (readObservation_coded response code hread)]
    · next obs hread =>
      have hfirst := @observe_evolves _ ok db session target obs now hknown
        (readObservation_ok hread) (hok obs hread)
      have hcoded := @observe_coded _ db session target obs now
      split
      · next db₁ code hobserve =>
        rw [hobserve] at hfirst hcoded
        rw [recoverTarget_coded (hcoded code rfl)]
        exact .single hfirst
      · next db₁ stored hobserve =>
        rw [hobserve] at hfirst
        have hsecond := @settle_evolves _ ok db₁ session target obs now
          (hknown.later hfirst.later)
        have hcoded' := @settle_coded _ db₁ session target obs now
        split
        · next db₂ code hsettle =>
          rw [hsettle] at hsecond hcoded'
          rw [recoverTarget_coded (hcoded' code rfl)]
          exact (Relation.ReflTransGen.single hfirst).tail hsecond
        · next db₂ hsettle =>
          rw [hsettle] at hsecond
          exact (Relation.ReflTransGen.single hfirst).tail hsecond

theorem Evolves.steps_later (h : Relation.ReflTransGen (Evolves ok) db db') : Later db db' :=
  invariant_of_steps (fun _ _ hl he ↦ hl.trans he.later) h (.refl db)

theorem reconcileTargets_evolves {lookup : String → Lookup} {targets : List Target} {db : Db}
    (hknown : ∀ target ∈ targets, target.Known db)
    (hok : TargetsWithin ok session now lookup db targets) :
    Relation.ReflTransGen (Evolves ok) db
      (reconcileTargets session now lookup db targets).1 := by
  -- Induction over the targets; the rows of the later ones stay known.
  induction targets generalizing db with
  | nil => exact .refl
  | cons target rest ih =>
    have hfirst := @reconcileTarget_evolves _ ok db session target now _
      (hknown target List.mem_cons_self) hok.1
    refine hfirst.trans (ih (fun t ht ↦ ?_) hok.2)
    exact (hknown t (List.mem_cons_of_mem _ ht)).later (Evolves.steps_later hfirst)

/-- **A whole pass** within the guard. -/
theorem reconcile_evolves {lookup : String → Lookup} {clientOrderId : String}
    (hok : TargetsWithin ok session now lookup db (listTargets db clientOrderId)) :
    Relation.ReflTransGen (Evolves ok) db
      (reconcilePostgresPaperOrders db session now clientOrderId lookup).1 :=
  reconcileTargets_evolves (fun _ ↦ listTargets_known) hok

theorem recoverFound_evolves {clientOrderId : String} {response : AlpacaApiResponse}
    (hok : TargetsWithin ok session now (fun _ ↦ .inr response) db (listTargets db clientOrderId)) :
    Relation.ReflTransGen (Evolves ok) db
      (recoverFound db session now clientOrderId response).1 := by
  have hpass := reconcile_evolves hok
  unfold recoverFound
  split
  · exact .refl
  · split
    · exact .refl
    · dsimp only
      split
      · exact hpass
      · split
        · exact hpass
        · exact hpass

/-- **The recovery of an uncertain submission** within the guard. -/
theorem recover_evolves {clientOrderId : String} {answers : List Lookup}
    (hok : RecoverWithin ok session now clientOrderId answers db) :
    Relation.ReflTransGen (Evolves ok) db
      (recoverAmbiguousPostgresSubmission db session now clientOrderId answers).1 := by
  have hattempts : ∀ (id : String) (absenceOnly sawAbsence : Bool),
      (∀ response, answers.findSome? Sum.getRight? = some response →
        TargetsWithin ok session now (fun _ ↦ .inr response) db (listTargets db id)) →
      Relation.ReflTransGen (Evolves ok) db
        (recoverAttempts db session now id absenceOnly sawAbsence answers).1 := by
    clear hok
    induction answers with
    | nil => exact fun _ _ _ _ ↦ .refl
    | cons answer rest ih =>
      intro id absenceOnly sawAbsence hfound
      unfold recoverAttempts
      split
      · exact .refl
      · split
        · next response => exact recoverFound_evolves (hfound response rfl)
        · split
          · exact ih _ _ _ hfound
          · split
            · exact .refl
            · exact ih _ _ _ hfound
  unfold recoverAmbiguousPostgresSubmission
  split
  · exact .refl
  · next id hid => exact hattempts id _ _ fun response hresponse ↦ hok response hresponse id hid

end Passes

/-! ## The system -/

section System

variable [Hashing] {ok : CauseGuard} {db db' : Db}

theorem EntryStatement.evolves {start : Db} {session : Session} {request : EntryReviewRequest}
    {statements : List EntryStatement} {statement : EntryStatement}
    (hplan : planEntryReview start request session = .ok statements)
    (hmem : statement ∈ statements) (h : statement.apply session request.now db = .ok db') :
    Evolves ok db db' := by
  refine ⟨?_, (EntryStatement.shifts hplan hmem h).imp_right .inl⟩
  rcases entryStatement_effect (planEntryReview_fresh hplan statement hmem) h with
    heffect | ⟨i, _, hcreates⟩
  · exact heffect.later
  · exact hcreates.later

theorem runEntryStatements_evolves {start : Db} {session : Session}
    {request : EntryReviewRequest} {plan statements : List EntryStatement}
    (hplan : planEntryReview start request session = .ok plan)
    (hmem : ∀ statement ∈ statements, statement ∈ plan) (db : Db) :
    Relation.ReflTransGen (Evolves ok) db
      (runEntryStatements session request.now db statements).1 := by
  induction statements generalizing db with
  | nil => exact .refl
  | cons statement rest ih =>
    rw [runEntryStatements]
    split
    · exact .refl
    · next db₁ hok =>
      have hfirst : Evolves ok db db₁ :=
        EntryStatement.evolves hplan (hmem statement List.mem_cons_self) hok
      exact (Relation.ReflTransGen.single hfirst).trans
        (ih (fun s hs ↦ hmem s (List.mem_cons_of_mem _ hs)) db₁)

theorem runEntryReview_evolves {session : Session} {request : EntryReviewRequest} :
    Relation.ReflTransGen (Evolves ok) db (runEntryReview db request session).1 := by
  unfold runEntryReview
  split
  · exact .refl
  · next statements hplan => exact runEntryStatements_evolves hplan (fun _ hs ↦ hs) db

/-- **A step of a run** within the guard. -/
theorem Run.step_evolves {run : Run} {act : RunAct} {phase : Phase} {call : Option SubmissionKey}
    (hvalid : run.phase.Valid db)
    (hok : run.phase.Within ok run.config.fence db act)
    (hstep : run.step act db = some (db', phase, call)) :
    Relation.ReflTransGen (Evolves ok) db db' := by
  rcases Run.step_executes hvalid hstep with hexecutes |
    ⟨row, receipt, dbNow, now, clock, answers, hphase, rfl, rfl⟩
  · refine .single ⟨?_, .inl hexecutes.shifts⟩
    rcases (Run.step_does hvalid hstep).2 with heffects | ⟨_, _, _, _, _, _, _, _, _, hrejects⟩
    · exact Effects.later heffects
    · exact hrejects.later
  · rw [hphase] at hok
    exact recover_evolves (hok _ rfl)

/-- **A step of the system** within the guard. -/
theorem Sys.step_evolves {s s' : Sys} {act : Act} (hvalid : s.Valid) (hwithin : s.Within ok act)
    (hstep : Sys.step act s = some s') : Relation.ReflTransGen (Evolves ok) s.db s'.db := by
  cases act with
  | start config =>
    obtain rfl := Option.some_inj.1 hstep
    exact .refl
  | run p act =>
    obtain ⟨run, phase, call, hrun, hrunStep, -⟩ := Sys.step_run hstep
    exact Run.step_evolves (hvalid.runs run (List.mem_of_getElem? hrun)) (hwithin run hrun) hrunStep
  | startPass fence now clientOrderId =>
    obtain rfl := Option.some_inj.1 hstep
    exact .refl
  | pass p act =>
    simp only [Sys.step] at hstep
    split at hstep
    · cases hstep
    · next pass hpass =>
      rw [Option.map_eq_some_iff] at hstep
      obtain ⟨⟨db, pass'⟩, hpassStep, rfl⟩ := hstep
      exact .single (Pass.step_evolves (hvalid.passes pass (List.mem_of_getElem? hpass))
        (hwithin pass hpass) hpassStep)
  | reconcile session now clientOrderId lookup =>
    obtain rfl := Option.some_inj.1 hstep
    exact reconcile_evolves hwithin
  | sync session snapshot statement =>
    simp only [Sys.step] at hstep
    split at hstep
    · obtain rfl := Option.some_inj.1 hstep
      exact .refl
    · next db hsync =>
      obtain rfl := Option.some_inj.1 hstep
      exact .single ⟨(sync_effect hsync).later, .inl (SyncStatement.shifts hwithin hsync)⟩
  | recovery session now statement =>
    obtain rfl := Option.some_inj.1 hstep
    refine .single ⟨?_, .inl (RecoveryStatement.shifts hwithin)⟩
    rcases @recovery_cases _ s session now statement with heffect | hunsafe
    · exact heffect.later
    · exact hunsafe.later
  | review session request =>
    obtain rfl := Option.some_inj.1 hstep
    exact runEntryReview_evolves
  | lease leases =>
    obtain rfl := Option.some_inj.1 hstep
    have heffect : Effect s.db { s.db with leases } :=
      .quiet (.of_eq rfl rfl) rfl ⟨rfl, rfl, rfl⟩
    exact .single ⟨heffect.later, .inl (.of_eq rfl ⟨rfl, rfl⟩)⟩

/-- Without a restriction every step is within the guard. -/
theorem Sys.within_true (s : Sys) (act : Act) : s.Within (fun _ _ _ ↦ True) act := by
  have htargets : ∀ (session : Session) (now : Time) (lookup : String → Lookup) (db : Db)
      (targets : List Target), TargetsWithin (fun _ _ _ ↦ True) session now lookup db targets := by
    intro session now lookup db targets
    induction targets generalizing db with
    | nil => trivial
    | cons target rest ih =>
      refine ⟨?_, ih _⟩
      unfold TargetWithin
      split
      · exact fun _ _ _ ↦ trivial
      · exact fun _ _ _ _ ↦ trivial
  cases act with
  | start config => trivial
  | run p act =>
    exact fun _ _ _ _ _ _ _ _ ↦ htargets _ _ _ _ _
  | startPass fence now clientOrderId => trivial
  | pass p act =>
    exact fun _ _ _ _ _ _ ↦ trivial
  | reconcile session now clientOrderId lookup => exact htargets _ _ _ _ _
  | sync session snapshot statement =>
    cases statement with
    | closeExits => exact fun _ _ _ _ _ _ ↦ trivial
    | _ => trivial
  | recovery session now statement =>
    cases statement with
    | staleReady intent answer => exact fun _ _ _ _ ↦ trivial
    | cancelStaleCreated => exact fun _ _ _ _ _ ↦ trivial
    | _ => trivial
  | review session request => trivial
  | lease leases => trivial

end System

end AlpacaTrading
