import AlpacaTrading.System.Views

/-!
# What a statement does to one intent

The status and the lifecycle state of an intent are two columns, and many statements write only
one of them.  `Turn` lists what the statements of the services do to the pair, and `Turns` says
that a database step takes every stored intent by such a turn.  Every statement but those of a
review is one; reviews store new intents besides.
-/

namespace AlpacaTrading

/-! ## Turns -/

/-- The status of an intent with its lifecycle state. -/
def Intent.standing (i : Intent) : IntentStatus × LifecycleState := (i.status, i.lifecycleState)

/-- What a statement does to the status and the state of an intent with a review of the type. -/
inductive Turn (type : ReviewType) :
    IntentStatus × LifecycleState → IntentStatus × LifecycleState → Prop where
  | keep {s : IntentStatus × LifecycleState} : Turn type s s
  /-- A promotion. -/
  | confirm {l : LifecycleState} : Turn type (.created, l) (.readyForSubmission, l)
  | claim {l : LifecycleState} : Turn type (.readyForSubmission, l) (.submissionPending, l)
  | release {l : LifecycleState} : Turn type (.submissionPending, l) (.readyForSubmission, l)
  | attempt {l : LifecycleState} :
    Turn type (.submissionPending, l) (.submissionPending, attemptState type)
  /-- The answer of the broker is recorded. -/
  | acknowledge {l l' : LifecycleState} {status : String}
      (hstate : lifecycleStateForBrokerStatus type status = l') :
    Turn type (.submissionPending, l) (acknowledgedStatus l', l')
  | doubt {l : LifecycleState} :
    Turn type (.submissionPending, l) (.ambiguous, ambiguousState type)
  | reject {l : LifecycleState} : Turn type (.submissionPending, l) (.failed, .failedTerminal)
  /-- Reconciliation stores an observation. -/
  | observe {s s' : IntentStatus} {l l' : LifecycleState} {status : String}
      {path : List LifecycleState}
      (hstatus : s ∈ [.submissionPending, .submitted, .ambiguous, .reconciled])
      (hpath : resolveBrokerReconciliationLifecyclePath l type status = .ok path)
      (hstatus' : s' = if status ∈ terminalStatuses then .reconciled else .submitted)
      (hstate' : path.getLast?.getD l = l') : Turn type (s, l) (s', l')
  /-- The sync closes an exit whose position is closed. -/
  | close {s : IntentStatus} {l : LifecycleState} (hstate : l ∈ exitOrderStates) :
    Turn type (s, l) (.reconciled, .closed)
  /-- Recovery cancels a stale intent, and leaves its lifecycle state. -/
  | cancel {s : IntentStatus} {l : LifecycleState} (hstatus : s ∈ [.created, .readyForSubmission]) :
    Turn type (s, l) (.cancelled, l)
  /-- A confirmed absence fails the intent, and leaves its lifecycle state. -/
  | absent {s : IntentStatus} {l : LifecycleState} (hstatus : s ∈ [.submissionPending, .ambiguous]) :
    Turn type (s, l) (.failed, l)
  /-- Recovery keeps a stale intent whose order it found. -/
  | preserve {l : LifecycleState} : Turn type (.readyForSubmission, l) (.ambiguous, l)

/-- An observation does not lead out of a state without transitions. -/
theorem path_of_over {type : ReviewType} {l : LifecycleState} {status : String}
    {path : List LifecycleState} (hends : l.transitions = [])
    (h : resolveBrokerReconciliationLifecyclePath l type status = .ok path) :
    path.getLast?.getD l = l := by
  have hresolved : ∀ target, resolveLifecycleTransitionPath l target = .ok path →
      path.getLast?.getD l = l := by
    intro target hpath
    obtain rfl := path_of_ended hends hpath
    rw [(path_ends hpath).2, Option.getD_some]
  unfold resolveBrokerReconciliationLifecyclePath at h
  dsimp only at h
  split at h
  · obtain rfl := Except.ok.inj h
    rfl
  · split at h
    · obtain rfl := Except.ok.inj h
      rfl
    · exact hresolved _ h

/-- The intent may have come from the other by one statement. -/
def Turned (db : Db) (i i' : Intent) : Prop :=
  i'.terms = i.terms ∧ Turn (i.type db) i.standing i'.standing

theorem Turned.refl (db : Db) (i : Intent) : Turned db i i := ⟨rfl, .keep⟩

/-- Every intent of the second state came from one of the first. -/
def Turns (db db' : Db) : Prop := ∀ i' ∈ db'.intents.rows, ∃ i ∈ db.intents.rows, Turned db i i'

section Tables

variable {db db' : Db}

theorem Turns.of_eq (h : db'.intents = db.intents) : Turns db db' := by
  intro i hi
  rw [h] at hi
  exact ⟨i, hi, .refl db i⟩

end Tables

/-! ## Statements -/

section Statements

variable [Hashing] {db db' : Db}

/-- A shift turns the two columns. -/
theorem Shift.turn {ok : Cause → Prop} {type : ReviewType} {v v' : IntentView}
    (h : Shift ok type v v') : Turn type (v.status, v.state) (v'.status, v'.state) := by
  rcases v with ⟨status, state, log, placed⟩
  cases h with
  | keep => exact .keep
  | confirm hstatus =>
    obtain rfl := hstatus
    exact .confirm
  | claim hstatus =>
    obtain rfl := hstatus
    exact .claim
  | release hstatus =>
    obtain rfl := hstatus
    exact .release
  | attempt hstatus =>
    obtain rfl := hstatus
    exact .attempt
  | acknowledge hstatus hstate =>
    obtain rfl := hstatus
    exact .acknowledge hstate
  | doubt hstatus =>
    obtain rfl := hstatus
    exact .doubt
  | reject hstatus =>
    obtain rfl := hstatus
    exact .reject
  | observe now placed' hstatus hstate htype hobs _ _ =>
    have hpath := hobs.path
    have hlast := hobs.state
    rw [htype, hstate] at hpath
    rw [hstate] at hlast
    exact .observe hstatus hpath rfl hlast.symm
  | stuck => exact .keep
  | close hstate _ => exact .close hstate
  | cancel hstatus _ => exact .cancel hstatus
  | absent hstatus _ => exact .absent hstatus
  | preserve hstatus =>
    obtain rfl := hstatus
    exact .preserve

theorem Shifts.turns {ok : CauseGuard} (h : Shifts ok db db') : Turns db db' := by
  intro i' hi'
  obtain ⟨i, hi, hterms, hshift⟩ := h.intents i' hi'
  exact ⟨i, hi, hterms, hshift.turn⟩

/-- **A transaction of a run** turns intents. -/
theorem Executes.turns (h : Executes db db') : Turns db db' := by
  have hshifts : Shifts (fun _ _ _ ↦ True) db db' := h.shifts
  exact hshifts.turns

/-- **A statement of reconciliation or recovery** turns intents. -/
theorem Serves.turns (h : Serves db db') : Turns db db' := by
  cases h with
  | reconcile h => exact h.shifts.turns
  | @recover session now statement h =>
    have hwithin : statement.Within (fun _ _ _ ↦ True) session now db := by
      unfold RecoveryStatement.Within
      split <;> simp
    rw [h]
    exact (RecoveryStatement.shifts hwithin).turns
  | lease h =>
    rw [h]
    exact .of_eq rfl

/-- **A statement of a sync** turns intents. -/
theorem SyncStatement.turns {snapshot : AuthorityBrokerSnapshot} {session : Session}
    {statement : SyncStatement} (h : statement.apply snapshot session db = .ok db') :
    Turns db db' := by
  have hwithin : statement.Within (fun _ _ _ ↦ True) snapshot session db := by
    unfold SyncStatement.Within
    split <;> simp
  exact (SyncStatement.shifts hwithin h).turns

/-- A new entry is stored. -/
def Opens (db db' : Db) : Prop :=
  ∃ i, i.standing = (.created, .reviewCreated) ∧ i.parentPositionId = none ∧
    db.intents.insert? i = some db'.intents

/-- **A statement of an entry review** turns intents, or stores a new entry. -/
theorem EntryStatement.turns {start : Db} {session : Session} {request : EntryReviewRequest}
    {statements : List EntryStatement} {statement : EntryStatement}
    (hplan : planEntryReview start request session = .ok statements)
    (hmem : statement ∈ statements) (h : statement.apply session request.now db = .ok db') :
    Turns db db' ∨ Opens db db' := by
  rcases statement with ⟨candidateId, status, reason⟩ | recorded | r | i | code
  · have hstage : persistCandidateExecutionStage db (some candidateId) session request.now status
      reason = .ok db' := h
    obtain ⟨_, rfl⟩ := persistCandidateExecutionStage_ok hstage
    exact Or.inl (.of_eq rfl)
  · simp only [EntryStatement.apply, bind_eq_ok] at h
    obtain ⟨_, _, _, _, h⟩ := h
    obtain rfl := Except.ok.inj h
    exact Or.inl (.of_eq rfl)
  · rcases entryStatement_review h with rfl | ⟨_, _, rfl⟩
    · exact Or.inl (.of_eq rfl)
    · exact Or.inl (.of_eq rfl)
  · rcases entryStatement_intent h with rfl | ⟨_, _, hins, rfl⟩
    · exact Or.inl (.of_eq rfl)
    · obtain ⟨_, _, _, _, _, _, _, _, _, _, _, _, a, _, rfl⟩ :=
        planEntryReview_intent hplan hmem rfl
      exact Or.inr ⟨_, rfl, rfl, hins⟩
  · cases h

/-! ## Steps of the system -/

/-- A statement of the system, as far as intents are concerned. -/
def TurnsOrOpens (db db' : Db) : Prop := Turns db db' ∨ Opens db db'

theorem Committed.turns (h : Committed db db') : TurnsOrOpens db db' := by
  cases h with
  | serve h => exact Or.inl h.turns
  | review hplan hmem h => exact EntryStatement.turns hplan hmem h

/-- **A step of the system is a sequence of turns and new entries.** -/
theorem Sys.step_turns {s s' : Sys} {act : Act} (hvalid : s.Valid)
    (h : Sys.step act s = some s') : Relation.ReflTransGen TurnsOrOpens s.db s'.db := by
  rcases Sys.step_committed hvalid h with hexecutes | hcommitted | ⟨_, _, _, _, hsync⟩
  · exact .single (Or.inl hexecutes.turns)
  · exact Relation.ReflTransGen.mono (fun _ _ ↦ Committed.turns) _ _ hcommitted
  · exact .single (Or.inl (SyncStatement.turns hsync))

end Statements

end AlpacaTrading
