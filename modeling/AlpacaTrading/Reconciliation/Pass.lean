import AlpacaTrading.Lib.Run
import AlpacaTrading.Execution.Command
import AlpacaTrading.Reconciliation.Effects

/-!
# A reconciliation pass as a process

`reconcilePostgresPaperOrders` commits statement by statement, so other workers may run between
two of its statements, and it may stop after any of them.  Here it is a process: the targets read
at its start, and where it is with the current one.

The rows a pass holds were read earlier.  `Pass.Valid` says that they still agree with the
database on what is never undone, and that the observation it is about to store was read from a
broker answer; both stay true whatever the others do.
-/

namespace AlpacaTrading

/-! ## The process -/

/-- The state after a statement that commits by itself, and what the worker sees of it. -/
def Fault.statement {α : Type} (fault : Fault) (db : Db) (outcome : Db × Except String α) :
    Db × Except Thrown α :=
  match fault, outcome with
  | .aborted error, _ => (db, .error error)
  | .unacknowledged error, (db', _) => (db', .error error)
  | .none, (db', .ok a) => (db', .ok a)
  | .none, (db', .error code) => (db', .error (.ofCode code))

theorem Fault.statement_fst {α : Type} {fault : Fault} {db : Db} {outcome : Db × Except String α} :
    (fault.statement db outcome).1 = db ∨ (fault.statement db outcome).1 = outcome.1 := by
  unfold Fault.statement
  split
  · exact Or.inl rfl
  · exact Or.inr rfl
  · exact Or.inr rfl
  · exact Or.inr rfl

/-- Where a pass is with its current target. -/
inductive PassStage where
  /-- Between two targets. -/
  | next
  | observing (target : Target) (obs : Observation)
  | settling (target : Target) (obs : Observation)
  /-- The broker does not know the order. -/
  | absent (target : Target)
  | concluding (target : Target) (evidence : AbsenceEvidence)
  | deferring (target : Target)

/-- A pass. -/
structure Pass where
  fence : SchedulerFence
  now : Time
  todo : List Target
  stage : PassStage := .next

/-- The steps of a pass. -/
inductive PassAct where
  /-- The lookup of the next target. -/
  | lookup (answer : Lookup)
  | observe (dbNow : Time) (fault : Fault)
  | settle (dbNow : Time) (fault : Fault)
  /-- The evidence query of an absence. -/
  | evidence
  | conclude (dbNow : Time) (fault : Fault)
  | defer (dbNow : Time) (fault : Fault)
  | crash

/-- Where an error of a target leads. -/
def onTargetError (target : Target) (error : Thrown) : PassStage :=
  if target.intent.status ∈ [.submissionPending, .ambiguous] ∧
      Reconciliation.brokerOrderAbsent error then .absent target
  else .next

section Step

variable [Hashing]

/-- One step of a pass. -/
def Pass.step (pass : Pass) (act : PassAct) (db : Db) : Option (Db × Pass) :=
  let session (dbNow : Time) : Session := { fence := pass.fence, dbNow }
  match pass.stage, act, pass.todo with
  | .next, .lookup answer, target :: rest =>
    let stage : PassStage := match answer with
      | .inl error => onTargetError target error
      | .inr response =>
        match readObservation target response pass.now with
        | .error code => onTargetError target (.ofCode code)
        | .ok obs => .observing target obs
    some (db, { pass with todo := rest, stage })
  | .observing target obs, .observe dbNow fault, _ =>
    let (db', seen) := fault.statement db (observe db (session dbNow) target obs pass.now)
    let stage : PassStage := match seen with
      | .ok _ => .settling target obs
      | .error error => onTargetError target error
    some (db', { pass with stage })
  | .settling target obs, .settle dbNow fault, _ =>
    let (db', seen) := fault.statement db (settle db (session dbNow) target obs pass.now)
    let stage : PassStage := match seen with
      | .ok _ => .next
      | .error error => onTargetError target error
    some (db', { pass with stage })
  | .absent target, .evidence, _ =>
    some (db, { pass with stage := .concluding target (absenceEvidence db target pass.now) })
  | .concluding target evidence, .conclude dbNow fault, _ =>
    if evidence.terminal then
      let (db', seen) := fault.statement db
        (terminalizeAbsence db (session dbNow) target evidence pass.now)
      let stage : PassStage := match seen with
        | .ok _ => .deferring target
        | .error _ => .next
      some (db', { pass with stage })
    else
      let (db', _) := fault.statement db
        (recordPendingAbsence db (session dbNow) target evidence pass.now, .ok ())
      some (db', { pass with stage := .next })
  | .deferring target, .defer dbNow fault, _ =>
    let (db', _) := fault.statement db (deferAbsentCandidate db (session dbNow) target pass.now)
    some (db', { pass with stage := .next })
  | _, .crash, _ => some (db, { pass with todo := [], stage := .next })
  | _, _, _ => none

/-! ## What a pass relies on -/

/-- The row of a target still agrees with the stored intent on what is never undone. -/
def Target.Known (db : Db) (target : Target) : Prop :=
  AlpacaTrading.Known db target.intent target.reviewType

/-- What a stage relies on. -/
def PassStage.Valid (db : Db) : PassStage → Prop
  | .observing target obs => target.Known db ∧ Observed target obs
  | .settling target _ => target.Known db
  | _ => True

/-- What a pass relies on. -/
structure Pass.Valid (db : Db) (pass : Pass) : Prop where
  todo : ∀ target ∈ pass.todo, target.Known db
  stage : pass.stage.Valid db

omit [Hashing] in
theorem Target.Known.later {db db' : Db} {target : Target} (h : target.Known db)
    (hl : Later db db') : target.Known db' :=
  AlpacaTrading.Known.later h hl

omit [Hashing] in
/-- What a pass relies on survives the steps of others. -/
theorem Pass.Valid.later {db db' : Db} {pass : Pass} (h : pass.Valid db) (hl : Later db db') :
    pass.Valid db' := by
  refine ⟨fun target htarget ↦ (h.todo target htarget).later hl, ?_⟩
  have hstage := h.stage
  cases hs : pass.stage with
  | observing target obs =>
    rw [hs] at hstage
    exact ⟨hstage.1.later hl, hstage.2⟩
  | settling target obs =>
    rw [hs] at hstage
    exact Target.Known.later hstage hl
  | next => trivial
  | absent target => trivial
  | concluding target evidence => trivial
  | deferring target => trivial

omit [Hashing] in
theorem onTargetError_valid (db : Db) (target : Target) (error : Thrown) :
    (onTargetError target error).Valid db := by
  unfold onTargetError
  split <;> trivial

omit [Hashing] in
/-- The targets read at the start of a pass. -/
theorem listTargets_known {db : Db} {clientOrderId : String} {target : Target}
    (h : target ∈ listTargets db clientOrderId) : target.Known db := by
  unfold listTargets at h
  rw [List.mem_insertionSort, List.mem_filterMap] at h
  obtain ⟨i, hi, htarget⟩ := h
  rw [List.mem_filter, Bool.and_eq_true] at hi
  obtain ⟨hmem, hrec, _⟩ := hi
  unfold targetOf at htarget
  simp only [Option.bind_eq_bind, Option.bind_eq_some_iff] at htarget
  obtain ⟨reviewId, hid, review, hreview, heq⟩ := htarget
  cases heq
  refine ⟨i, hmem, rfl, ?_, rfl, kind_of_review (by rw [hid]; exact hreview)⟩
  -- A reconcilable intent is past `created`.
  intro hcreated
  unfold reconcilable at hrec
  simp [hcreated] at hrec

/-! ## The statements of a pass -/

/-- One statement of reconciliation, with what it relies on; `idle` is one that was not made. -/
inductive Reconciles (db db' : Db) : Prop
  | idle (h : db' = db)
  | observe {session : Session} {target : Target} {obs : Observation} {now : Time}
      {result : Except String Bool} (hknown : target.Known db) (hobs : Observed target obs)
      (h : AlpacaTrading.observe db session target obs now = (db', result))
  | settle {session : Session} {target : Target} {obs : Observation} {now : Time}
      {result : Except String Unit} (hknown : target.Known db)
      (h : AlpacaTrading.settle db session target obs now = (db', result))
  | conclude {session : Session} {target : Target} {evidence : AbsenceEvidence} {now : Time}
      {result : Except String Unit}
      (h : terminalizeAbsence db session target evidence now = (db', result))
  | absence {session : Session} {target : Target} {evidence : AbsenceEvidence} {now : Time}
      (h : db' = recordPendingAbsence db session target evidence now)
  | defer {session : Session} {target : Target} {now : Time} {result : Except String Unit}
      (h : deferAbsentCandidate db session target now = (db', result))

/-- Every statement of reconciliation is a step of the machine. -/
theorem Reconciles.effect {db db' : Db} (h : Reconciles db db') : Effect db db' := by
  cases h with
  | idle h =>
    rw [h]
    exact .refl db
  | observe hknown hobs h => exact observe_effect hknown hobs h
  | settle hknown h => exact settle_effect hknown h
  | @conclude session target evidence now result h =>
    have heffect : Effect db (terminalizeAbsence db session target evidence now).1 :=
      terminalizeAbsence_effect
    rwa [h] at heffect
  | absence h =>
    rw [h]
    exact recordPendingAbsence_effect
  | @defer session target now result h =>
    have heffect : Effect db (deferAbsentCandidate db session target now).1 :=
      deferAbsentCandidate_effect
    rwa [h] at heffect

/-- A statement under a fault is the statement or none. -/
theorem Reconciles.statement {α : Type} {db : Db} {outcome : Db × Except String α} (fault : Fault)
    (h : Reconciles db outcome.1) : Reconciles db (fault.statement db outcome).1 := by
  have hfst : (fault.statement db outcome).1 = db ∨ (fault.statement db outcome).1 = outcome.1 :=
    Fault.statement_fst
  rcases hfst with heq | heq
  · exact .idle heq
  · rwa [heq]

/-- **A step of a pass is a statement of reconciliation**, and the pass stays valid. -/
theorem Pass.step_reconciles {db db' : Db} {pass pass' : Pass} {act : PassAct} (h : pass.Valid db)
    (hstep : pass.step act db = some (db', pass')) : Reconciles db db' ∧ pass'.Valid db' := by
  unfold Pass.step at hstep
  dsimp only at hstep
  split at hstep
  · rename_i answer target rest hstage htodo
    cases hstep
    have hknown := h.todo target (by rw [htodo]; exact List.mem_cons_self)
    refine ⟨.idle rfl, fun t ht ↦ h.todo t (by rw [htodo]; exact List.mem_cons_of_mem _ ht), ?_⟩
    dsimp only
    split
    · exact onTargetError_valid _ _ _
    · split
      · exact onTargetError_valid _ _ _
      · next hread => exact ⟨hknown, readObservation_ok hread⟩
  · rename_i target obs dbNow fault hstage
    cases hstep
    have hvalid := h.stage
    rw [hstage] at hvalid
    have hobserve : Reconciles db
        (AlpacaTrading.observe db { fence := pass.fence, dbNow } target obs pass.now).1 :=
      .observe hvalid.1 hvalid.2 rfl
    have hstatement := hobserve.statement fault
    have hlater := hstatement.effect.later
    refine ⟨hstatement, fun t ht ↦ (h.todo t ht).later hlater, ?_⟩
    dsimp only
    split
    · exact hvalid.1.later hlater
    · exact onTargetError_valid _ _ _
  · rename_i target obs dbNow fault hstage
    cases hstep
    have hvalid := h.stage
    rw [hstage] at hvalid
    have hsettle : Reconciles db
        (AlpacaTrading.settle db { fence := pass.fence, dbNow } target obs pass.now).1 :=
      .settle hvalid rfl
    have hstatement := hsettle.statement fault
    refine ⟨hstatement, fun t ht ↦ (h.todo t ht).later hstatement.effect.later, ?_⟩
    dsimp only
    split
    · trivial
    · exact onTargetError_valid _ _ _
  · cases hstep
    exact ⟨.idle rfl, h.todo, trivial⟩
  · rename_i target evidence dbNow fault hstage
    split at hstep
    · cases hstep
      have hfail : Reconciles db
          (terminalizeAbsence db { fence := pass.fence, dbNow } target evidence pass.now).1 :=
        .conclude rfl
      have hstatement := hfail.statement fault
      refine ⟨hstatement, fun t ht ↦ (h.todo t ht).later hstatement.effect.later, ?_⟩
      dsimp only
      split <;> trivial
    · cases hstep
      have hpending : Reconciles db
          (recordPendingAbsence db { fence := pass.fence, dbNow } target evidence pass.now) :=
        .absence rfl
      have hstatement := @Reconciles.statement _ Unit db (_, .ok ()) fault hpending
      exact ⟨hstatement, fun t ht ↦ (h.todo t ht).later hstatement.effect.later, trivial⟩
  · rename_i target dbNow fault hstage
    cases hstep
    have hdefer : Reconciles db
        (deferAbsentCandidate db { fence := pass.fence, dbNow } target pass.now).1 := .defer rfl
    have hstatement := hdefer.statement fault
    exact ⟨hstatement, fun t ht ↦ (h.todo t ht).later hstatement.effect.later, trivial⟩
  · cases hstep
    exact ⟨.idle rfl, by simp, trivial⟩
  · cases hstep

/-! ## A whole pass

The same steps without anyone in between. -/

omit [Hashing] in
/-- Sequences of steps respect what is never undone. -/
theorem Effects.later {db db' : Db} (h : Relation.ReflTransGen Effect db db') : Later db db' :=
  invariant_of_steps (fun _ _ hl he ↦ hl.trans he.later) h (.refl db)

theorem Reconciles.effects {db db' : Db} (h : Relation.ReflTransGen Reconciles db db') :
    Relation.ReflTransGen Effect db db' :=
  Relation.ReflTransGen.mono (fun _ _ ↦ Reconciles.effect) _ _ h

section Whole

variable {db : Db} {session : Session} {target : Target} {now : Time}

theorem recordBrokerOrderAbsence_reconciles :
    Relation.ReflTransGen Reconciles db (recordBrokerOrderAbsence db session target now).1 := by
  unfold recordBrokerOrderAbsence
  dsimp only
  split
  · have hfail : Reconciles db (terminalizeAbsence db session target
        (absenceEvidence db target now) now).1 := .conclude rfl
    split
    · next heq =>
      rw [heq] at hfail
      exact .single hfail
    · next db₁ heq =>
      rw [heq] at hfail
      have hdefer : Reconciles db₁ (deferAbsentCandidate db₁ session target now).1 :=
        .defer rfl
      split
      · next heq' =>
        rw [heq'] at hdefer
        exact (Relation.ReflTransGen.single hfail).tail hdefer
      · next heq' =>
        rw [heq'] at hdefer
        exact (Relation.ReflTransGen.single hfail).tail hdefer
  · exact .single (.absence rfl)

theorem recoverTarget_reconciles {error : Thrown} :
    Relation.ReflTransGen Reconciles db (recoverTarget db session target error now).1 := by
  unfold recoverTarget
  split
  · have habsence : Relation.ReflTransGen Reconciles db
        (recordBrokerOrderAbsence db session target now).1 := recordBrokerOrderAbsence_reconciles
    split
    · next heq =>
      rw [heq] at habsence
      exact habsence
    · next heq =>
      rw [heq] at habsence
      exact habsence
  · exact .refl

/-- One target of a pass. -/
theorem reconcileTarget_reconciles {answer : Lookup} (hknown : target.Known db) :
    Relation.ReflTransGen Reconciles db (reconcileTarget db session target answer now).1 := by
  unfold reconcileTarget
  split
  · exact recoverTarget_reconciles
  · split
    · exact recoverTarget_reconciles
    · next obs hread =>
      split
      · next db₁ code hobserve =>
        have hfirst : Reconciles db db₁ := .observe hknown (readObservation_ok hread) hobserve
        exact (Relation.ReflTransGen.single hfirst).trans recoverTarget_reconciles
      · next db₁ stored hobserve =>
        have hfirst : Reconciles db db₁ := .observe hknown (readObservation_ok hread) hobserve
        have hknown' : target.Known db₁ := hknown.later hfirst.effect.later
        split
        · next db₂ code hsettle =>
          have hsecond : Reconciles db₁ db₂ := .settle hknown' hsettle
          exact ((Relation.ReflTransGen.single hfirst).tail hsecond).trans recoverTarget_reconciles
        · next db₂ hsettle =>
          have hsecond : Reconciles db₁ db₂ := .settle hknown' hsettle
          exact (Relation.ReflTransGen.single hfirst).tail hsecond

theorem reconcileTargets_reconciles {lookup : String → Lookup} {targets : List Target} {db : Db}
    (hknown : ∀ target ∈ targets, target.Known db) :
    Relation.ReflTransGen Reconciles db (reconcileTargets session now lookup db targets).1 := by
  -- Induction over the targets; the rows of the later ones stay known.
  induction targets generalizing db with
  | nil => exact .refl
  | cons target rest ih =>
    have hfirst : Relation.ReflTransGen Reconciles db
        (reconcileTarget db session target (lookup target.intent.clientOrderId) now).1 :=
      reconcileTarget_reconciles (hknown target List.mem_cons_self)
    refine hfirst.trans (ih fun t ht ↦ ?_)
    exact (hknown t (List.mem_cons_of_mem _ ht)).later (Effects.later (Reconciles.effects hfirst))

/-- **A pass is a sequence of its statements.** -/
theorem reconcile_reconciles {lookup : String → Lookup} {clientOrderId : String} :
    Relation.ReflTransGen Reconciles db
      (reconcilePostgresPaperOrders db session now clientOrderId lookup).1 :=
  reconcileTargets_reconciles fun _ ↦ listTargets_known

theorem recoverFound_reconciles {clientOrderId : String} {response : AlpacaApiResponse} :
    Relation.ReflTransGen Reconciles db
      (recoverFound db session now clientOrderId response).1 := by
  unfold recoverFound
  split
  · exact .refl
  · split
    · exact .refl
    · dsimp only
      split
      · exact reconcile_reconciles
      · split
        · exact reconcile_reconciles
        · exact reconcile_reconciles

/-- So is the recovery of an uncertain submission: only a found order changes anything. -/
theorem recover_reconciles {clientOrderId : String} {answers : List Lookup} :
    Relation.ReflTransGen Reconciles db
      (recoverAmbiguousPostgresSubmission db session now clientOrderId answers).1 := by
  have hattempts : ∀ (id : String) (absenceOnly sawAbsence : Bool),
      Relation.ReflTransGen Reconciles db
        (recoverAttempts db session now id absenceOnly sawAbsence answers).1 := by
    induction answers with
    | nil => exact fun _ _ _ ↦ .refl
    | cons answer rest ih =>
      intro id absenceOnly sawAbsence
      unfold recoverAttempts
      split
      · exact .refl
      · split
        · exact recoverFound_reconciles
        · split
          · exact ih _ _ _
          · split
            · exact .refl
            · exact ih _ _ _
  unfold recoverAmbiguousPostgresSubmission
  split
  · exact .refl
  · exact hattempts _ _ _

end Whole

end Step

end AlpacaTrading
