import AlpacaTrading.System.Causes
import AlpacaTrading.System.Exits

/-!
# All services

`Services` adds running cancellations to the system and its exit reviews.  Next to them it keeps
two records no service reads: which run made each call that cancels an order, and which run's
statement stored each transition of a cancellation.

`Services.step_evolves` says of every step of every service that it is a sequence of statements,
each of which moves every stored intent by a `Move` or stores a new one.  A property of one intent
and its rows is proved from there, move by move (`EachIntent`).
-/

namespace AlpacaTrading

/-! ## States and actions -/

/-- The system with its running exit reviews and cancellations. -/
structure Services where
  base : ExitSys
  cancellations : List Cancellation := []
  /-- The calls that cancel an order, with the run that made each. -/
  deletions : List (Nat × CancellationTarget) := []
  /-- The transitions stored by cancellations, with the run whose statement stored each. -/
  insertions : List (Nat × LifecycleTransition) := []

/-- The database of the services. -/
def Services.db (s : Services) : Db := s.base.sys.db

inductive ServiceAct where
  | base (act : ExitAct)
  /-- A cancellation begins. -/
  | cancel (request : CancellationRequest)
  | cancellation (p : Nat) (act : CancellationAct)

/-- The call of a step, if it cancels an order. -/
def CancellationCall.deletion? : CancellationCall → Option CancellationTarget
  | deletePaperOrder target => some target
  | reconcile _ => none

/-- The pass a step hands over to. -/
def CancellationCall.pass? : CancellationCall → Option Pass
  | deletePaperOrder _ => none
  | reconcile pass => some pass

/-- The transitions stored between two states. -/
def newTransitions (db db' : Db) : List LifecycleTransition :=
  db'.lifecycleTransitions.rows.drop db.lifecycleTransitions.rows.length

section Step

variable [Hashing]

/-- One step of the services. -/
def Services.step (act : ServiceAct) (s : Services) : Option Services :=
  match act with
  | .base act => (ExitSys.step act s.base).map fun base ↦ { s with base }
  | .cancel request => some { s with cancellations := s.cancellations ++ [{ request }] }
  | .cancellation p act =>
    match s.cancellations[p]? with
    | none => none
    | some run =>
      (run.step act s.db).map fun (db, stage, call) ↦
        { base := { s.base with
            sys := { s.base.sys with
              db
              passes := s.base.sys.passes ++ (call.bind (·.pass?)).toList } }
          cancellations := s.cancellations.set p { run with stage }
          deletions := s.deletions ++ ((call.bind (·.deletion?)).map (p, ·)).toList
          insertions := s.insertions ++ (newTransitions s.db db).map (p, ·) }

/-! ## What the services rely on -/

/-- The target of a run has an order. -/
def CancellationStage.Valid (db : Db) (stage : CancellationStage) : Prop :=
  ∀ target, stage.target? = some target → db.placed target.orderIntentId = true

/-- What the services rely on. -/
structure Services.Valid (s : Services) : Prop where
  sys : s.base.sys.Valid
  cancellations : ∀ run ∈ s.cancellations, run.stage.Valid s.db

/-- The causes of a step meet the guard. -/
def Services.Within (ok : CauseGuard) (s : Services) : ServiceAct → Prop
  | .base (.system act) => s.base.sys.Within ok act
  | _ => True

instance {ok : CauseGuard} [∀ db i cause, Decidable (ok db i cause)] (s : Services) :
    ∀ act : ServiceAct, Decidable (s.Within ok act)
  | .base (.system act) => inferInstanceAs (Decidable (s.base.sys.Within ok act))
  | .base (.read _ _ _) | .base (.store _ _) | .cancel _ | .cancellation _ _ => isTrue trivial

omit [Hashing] in
theorem placed_of_grow {db db' : Db} (h : OrdersGrow db.orders db'.orders) {id : String}
    (hplaced : db.placed id = true) : db'.placed id = true := by
  obtain ⟨o, ho, hid⟩ := List.any_eq_true.1 hplaced
  obtain ⟨o', ho', _, hintent, _⟩ := h o ho
  refine List.any_eq_true.2 ⟨o', ho', ?_⟩
  rw [hintent]
  exact hid

/-- Every step of the system lets orders grow. -/
theorem Sys.step_orders {s s' : Sys} {act : Act} (hvalid : s.Valid)
    (h : Sys.step act s = some s') : OrdersGrow s.db.orders s'.db.orders := by
  rcases Sys.step_files hvalid h with hfiles | ⟨_, _, _, _, hsync⟩
  · exact hfiles.orders
  · obtain ⟨_, _, _, _, hdb⟩ := SyncStatement.apply_tables hsync
    rw [hdb]
    exact .refl _

/-! ## The steps of an exit review -/

section ExitItem

variable {db : Db} {item : ExitItem} {request : ExitReviewRequest} {session : Session}

theorem exitItem_run_orders : (item.run request session db).1.orders = db.orders := by
  rcases @exitItem_run_cases _ db item request session with hsame |
    ⟨_, _, _, ⟨_, hdb⟩ | hstores⟩
  · rw [hsame]
  · rw [hdb]
  · obtain ⟨_, _, _, _, _, _, hdb⟩ := stores_singleton.1 hstores
    rw [hdb]

/-- A statement of an exit review shifts nothing, or stores a new exit. -/
theorem exitItem_run_evolves {ok : CauseGuard} : Evolves ok db (item.run request session db).1 := by
  refine ⟨exitItem_run_later, ?_⟩
  rcases @exitItem_run_cases _ db item request session with hsame |
    ⟨_, _, _, ⟨_, hdb⟩ | hstores⟩
  · rw [hsame]
    exact .inl (.of_eq rfl ⟨rfl, rfl⟩)
  · rw [hdb]
    exact .inl (.of_eq rfl ⟨rfl, rfl⟩)
  · obtain ⟨reviews, _, intents, hreview, _, hintent, hdb⟩ := stores_singleton.1 hstores
    rw [hdb]
    refine .inr (.inl ⟨_, hintent, ⟨rfl, rfl⟩, List.mem_cons_of_mem _ List.mem_cons_self, .exit, ?_,
      List.mem_cons_self⟩)
    have hkind := @kind_of_review { db with
      reviews, confirmations := ‹_›, intents } (item.record request session.fence).intent
      (item.review request) ?_
    · exact hkind
    · exact (Table.get?_insert? hreview _).trans (if_pos rfl)

end ExitItem

/-! ## Steps of the services -/

section Evolves

variable {ok : CauseGuard}

/-- A step of a cancellation marks an intent at most. -/
theorem Cancellation.step_evolves {run : Cancellation} {act : CancellationAct} {db db' : Db}
    {stage : CancellationStage} {call : Option CancellationCall} (hvalid : run.stage.Valid db)
    (h : run.step act db = some (db', stage, call)) :
    Evolves ok db db' ∧ db'.orders = db.orders := by
  have hrequested : LifecycleState.cancelRequested ∉ exitOrderStates := by decide
  have hambiguous : LifecycleState.cancelAmbiguous ∉ exitOrderStates := by decide
  rcases Cancellation.step_does h with ⟨rfl, _, _⟩ | ⟨_, htarget, hmarks⟩ |
    ⟨_, _, htarget, hmarks⟩ | ⟨rfl, _, _⟩
  · exact ⟨.refl _, rfl⟩
  · obtain ⟨_, _, _, _, hdb⟩ := hmarks.tables
    refine ⟨⟨hmarks.later hrequested, .inr (.inr ⟨_, _, _, .inl rfl, hvalid _ htarget, hmarks⟩)⟩, ?_⟩
    rw [hdb]
  · obtain ⟨_, _, _, _, hdb⟩ := hmarks.tables
    refine ⟨⟨hmarks.later hambiguous, .inr (.inr ⟨_, _, _, .inr rfl, hvalid _ htarget, hmarks⟩)⟩, ?_⟩
    rw [hdb]
  · exact ⟨.refl _, rfl⟩

omit [Hashing] in
theorem CancellationStage.Valid.grow {db db' : Db} {stage : CancellationStage}
    (h : stage.Valid db) (hgrow : OrdersGrow db.orders db'.orders) : stage.Valid db' :=
  fun target htarget ↦ placed_of_grow hgrow (h target htarget)

/-- The stage of a cancellation stays valid. -/
theorem Cancellation.step_valid {run : Cancellation} {act : CancellationAct} {db db' : Db}
    {stage : CancellationStage} {call : Option CancellationCall} (hvalid : run.stage.Valid db)
    (h : run.step act db = some (db', stage, call)) : stage.Valid db' := by
  intro target htarget
  have horders := (@Cancellation.step_evolves _ (fun _ _ _ ↦ True) _ _ _ _ _ _ hvalid h).2
  rw [Db.placed, horders]
  rcases Cancellation.step_target h htarget with hsame | ⟨session, hread⟩
  · exact hvalid target hsame
  · obtain ⟨o, ho, hintent⟩ := target_placed hread
    exact List.any_eq_true.2 ⟨o, ho, decide_eq_true hintent⟩

/-- A step of the system and its exit reviews, within the guard. -/
theorem ExitSys.step_evolves {s s' : ExitSys} {act : ExitAct} (hvalid : s.sys.Valid)
    (hwithin : ∀ a, act = .system a → s.sys.Within ok a) (hstep : ExitSys.step act s = some s') :
    s'.sys.Valid ∧ Relation.ReflTransGen (Evolves ok) s.sys.db s'.sys.db ∧
      OrdersGrow s.sys.db.orders s'.sys.db.orders := by
  rcases ExitSys.step_cases hstep with ⟨_, _, _, _, hsys, _⟩ |
    ⟨_, _, _, _, _, _, _, _, hsys, _⟩ | ⟨a, hact, hsys, _⟩
  · rw [hsys]
    exact ⟨hvalid, .refl, .refl _⟩
  · rw [hsys]
    refine ⟨hvalid.later exitItem_run_later, .single exitItem_run_evolves, ?_⟩
    rw [exitItem_run_orders]
    exact .refl _
  · exact ⟨(Sys.step_cases hvalid hsys).1, Sys.step_evolves hvalid (hwithin a hact) hsys,
      Sys.step_orders hvalid hsys⟩

/-- A step of a cancellation, in the services. -/
theorem Services.step_cancellation {s s' : Services} {p : Nat} {act : CancellationAct}
    (h : Services.step (.cancellation p act) s = some s') :
    ∃ run db stage call, s.cancellations[p]? = some run ∧
      run.step act s.db = some (db, stage, call) ∧
      s' =
      { base := { s.base with
          sys := { s.base.sys with
            db
            passes := s.base.sys.passes ++ (call.bind (·.pass?)).toList } }
        cancellations := s.cancellations.set p { run with stage }
        deletions := s.deletions ++ ((call.bind (·.deletion?)).map (p, ·)).toList
        insertions := s.insertions ++ (newTransitions s.db db).map (p, ·) } := by
  simp only [Services.step] at h
  split at h
  · cases h
  · next run hrun =>
    obtain ⟨⟨db, stage, call⟩, hstep, rfl⟩ := Option.map_eq_some_iff.1 h
    exact ⟨run, db, stage, call, hrun, hstep, rfl⟩

/-- **A step of the services** within the guard is a sequence of statements within the guard. -/
theorem Services.step_evolves {s s' : Services} {act : ServiceAct} (hvalid : s.Valid)
    (hwithin : s.Within ok act) (hstep : Services.step act s = some s') :
    s'.Valid ∧ Relation.ReflTransGen (Evolves ok) s.db s'.db := by
  rcases act with act | request | ⟨p, act⟩
  · obtain ⟨base, hbase, rfl⟩ := Option.map_eq_some_iff.1 hstep
    obtain ⟨hsys, hevolves, horders⟩ := ExitSys.step_evolves hvalid.sys
      (by rintro a rfl; exact hwithin) hbase
    exact ⟨⟨hsys, fun run hrun ↦ (hvalid.cancellations run hrun).grow horders⟩, hevolves⟩
  · obtain rfl := Option.some_inj.1 hstep
    refine ⟨⟨hvalid.sys, fun run hrun ↦ ?_⟩, .refl⟩
    rcases List.mem_append.1 hrun with hrun | hrun
    · exact hvalid.cancellations run hrun
    · obtain rfl := List.mem_singleton.1 hrun
      exact fun target htarget ↦ by cases htarget
  · obtain ⟨run, db, stage, call, hrun, hcancel, rfl⟩ := Services.step_cancellation hstep
    have hstage := hvalid.cancellations run (List.mem_of_getElem? hrun)
    obtain ⟨hevolves, horders⟩ := @Cancellation.step_evolves _ ok _ _ _ _ _ _ hstage hcancel
    have hgrow : OrdersGrow s.db.orders db.orders := by
      rw [horders]
      exact .refl _
    refine ⟨⟨?_, fun run' hrun' ↦ ?_⟩, .single hevolves⟩
    · have hsys := hvalid.sys.later hevolves.later
      refine ⟨hsys.runs, fun pass hpass ↦ ?_⟩
      rcases List.mem_append.1 hpass with hpass | hpass
      · exact hsys.passes pass hpass
      · obtain ⟨c, rfl, hc⟩ := Option.bind_eq_some_iff.1 (Option.mem_toList.1 hpass)
        rcases c with _ | pass'
        · cases hc
        · obtain rfl := Option.some_inj.1 hc
          exact Cancellation.step_pass hcancel
    · have hmem : run' ∈ s.cancellations.set p { run with stage } := hrun'
      rcases List.mem_or_eq_of_mem_set hmem with hrun' | rfl
      · exact (hvalid.cancellations run' hrun').grow hgrow
      · exact Cancellation.step_valid hstage hcancel

/-- Without a restriction every step is within the guard. -/
theorem Services.within_true (s : Services) (act : ServiceAct) :
    s.Within (fun _ _ _ ↦ True) act := by
  rcases act with act | _ | _
  · rcases act with _ | _ | act
    · trivial
    · trivial
    · exact s.base.sys.within_true act
  · trivial
  · trivial

end Evolves

end Step

/-! ## One intent, step by step -/

/-- A row of a cancellation, named by the state it leads to and the broker order. -/
def LifecycleTransition.OfCancellation (r : LifecycleTransition) (brokerId : String) : Prop :=
  (r.toState = .cancelRequested ∧ r.idempotencyKey = "cancel-request:" ++ brokerId) ∨
    (r.toState = .cancelAmbiguous ∧ r.idempotencyKey = "cancel-ambiguous:" ++ brokerId)

section ViewStep

variable [Hashing]

/-- What a statement of any service does to an intent. -/
inductive ViewStep (ok : Cause → Prop) (type : ReviewType) (v : IntentView) : IntentView → Prop
  | shift {v' : IntentView} (h : Shift ok type v v') : ViewStep ok type v v'
  | mark {r : LifecycleTransition} {brokerId : String} (hplaced : v.placed = true)
      (hfrom : r.fromState = v.state) (hedge : r.toState ∈ v.state.transitions)
      (hkey : r.OfCancellation brokerId) (hnew : r.newIn v.log = true) :
      ViewStep ok type v { v with state := r.toState, log := v.log ++ [r] }

/-- A predicate on the causes of what happens to an intent, by what the database shows of it. -/
abbrev ViewGuard := ReviewType → IntentView → Cause → Prop

/-- The guard on the causes of the services. -/
def ViewGuard.guard (ok : ViewGuard) : CauseGuard := fun db i ↦ ok (i.type db) (i.view db)

instance {ok : ViewGuard} [∀ type v cause, Decidable (ok type v cause)] (db : Db) (i : Intent)
    (cause : Cause) : Decidable (ok.guard db i cause) :=
  inferInstanceAs (Decidable (ok _ _ _))

variable {ok : ViewGuard} {db db' : Db}

/-- A statement that leaves an intent and its rows alone. -/
theorem viewStep_self {i : Intent} (hview : i.view db' = i.view db) :
    i.terms = i.terms ∧
      ViewStep (ok (i.type db) (i.view db)) (i.type db) (i.view db) (i.view db') := by
  refine ⟨rfl, ?_⟩
  rw [hview]
  exact .shift .keep

theorem Shifts.viewStep (h : Shifts ok.guard db db') {i' : Intent} (hi' : i' ∈ db'.intents.rows) :
    ∃ i ∈ db.intents.rows, i'.terms = i.terms ∧
      ViewStep (ok (i.type db) (i.view db)) (i.type db) (i.view db) (i'.view db') := by
  obtain ⟨i, hi, hterms, hshift⟩ := h.intents i' hi'
  exact ⟨i, hi, hterms, .shift hshift⟩

theorem Arrives.viewStep {i i' : Intent} (h : Arrives db db' i) (hi' : i' ∈ db'.intents.rows) :
    (∃ i ∈ db.intents.rows, i'.terms = i.terms ∧
      ViewStep (ok (i.type db) (i.view db)) (i.type db) (i.view db) (i'.view db')) ∨
    (db.intents.get? i'.id = none ∧ Arrives db db' i') := by
  rw [Table.rows_of_insert? h.intents] at hi'
  rcases List.mem_append.1 hi' with hold | hnew
  · exact .inl ⟨i', hold, viewStep_self (h.same.view i')⟩
  · obtain rfl := List.mem_singleton.1 hnew
    exact .inr ⟨Table.get?_eq_none.2 fun r hr hkey ↦
      Table.not_clash_of_insert? h.intents hr (Row.clash_of_key hkey), h⟩

section Marks

variable {mark : CancellationMark} {target : CancellationTarget} {now : Time}

/-- The rows after a mark. -/
theorem PersistsMark.transitionsOf (h : PersistsMark mark target now db db') :
    db'.transitionsOf target.orderIntentId =
        db.transitionsOf target.orderIntentId ++ [mark.transition target now] ∧
      ∀ id, id ≠ target.orderIntentId → db'.transitionsOf id = db.transitionsOf id := by
  obtain ⟨transitions, _, hinsert, _, hdb⟩ := h.tables
  refine transitionsOf_append (fun r hr ↦ by rw [List.mem_singleton.1 hr]; rfl) ?_
  rw [hdb]
  exact Table.rows_of_insert? hinsert

theorem PersistsMark.placed (h : PersistsMark mark target now db db') (id : String) :
    db'.placed id = db.placed id := by
  obtain ⟨_, _, _, _, hdb⟩ := h.tables
  rw [hdb]
  rfl

/-- The row of a mark. -/
theorem mark_ofCancellation (hmark : mark = requestMark target ∨ mark = ambiguousMark) :
    (mark.transition target now).OfCancellation target.brokerId := by
  rcases hmark with rfl | rfl
  · exact .inl ⟨rfl, rfl⟩
  · exact .inr ⟨rfl, rfl⟩

theorem CancelMarks.viewStep (h : CancelMarks db db') {i' : Intent}
    (hi' : i' ∈ db'.intents.rows) :
    ∃ i ∈ db.intents.rows, i'.terms = i.terms ∧
      ViewStep (ok (i.type db) (i.view db)) (i.type db) (i.view db) (i'.view db') := by
  obtain ⟨mark, target, now, hmark, hplaced, hmarks⟩ := h
  obtain ⟨i, hget, hfrom⟩ := hmarks.stored
  obtain ⟨_, _, _, _, hdb⟩ := hmarks.tables
  have hid : i.id = target.orderIntentId := Table.key_of_get? hget
  have hcases : i' = i.markCancellation mark.toState now ∨
      (i' ∈ db.intents.rows ∧ i'.id ≠ target.orderIntentId) := by
    have hkeeps := Intent.markCancellation_keeps mark.toState now
    have hmem : i' ∈ (db.intents.modify target.orderIntentId _ hkeeps).rows := by
      rw [hdb] at hi'
      exact hi'
    exact mem_modify_cases hget hmem
  rcases hcases with rfl | ⟨hold, hne⟩
  · refine ⟨i, Table.mem_of_get? hget, rfl, ?_⟩
    have hview : (i.markCancellation mark.toState now).view db' =
        { i.view db with
          state := (mark.transition target now).toState
          log := (i.view db).log ++ [mark.transition target now] } := by
      have hid' : (i.markCancellation mark.toState now).id = target.orderIntentId := hid
      rw [Intent.view, hid', hmarks.transitionsOf.1, hmarks.placed, Intent.view, hid]
      rfl
    rw [hview]
    refine .mark ?_ ?_ ?_ (mark_ofCancellation hmark) ?_
    · rw [Intent.view, hid]
      exact hplaced
    · exact hfrom.symm
    · change _ ∈ i.lifecycleState.transitions
      rw [hfrom]
      exact hmarks.edge
    · have hfresh := hmarks.fresh
      rw [← newIn_transitionsOf] at hfresh
      rw [Intent.view, hid]
      exact hfresh
  · refine ⟨i', hold, viewStep_self ?_⟩
    rw [Intent.view, hmarks.transitionsOf.2 _ hne, hmarks.placed, Intent.view]

end Marks

/-- Every intent after a statement came from one before, or is new. -/
theorem Evolves.viewStep (h : Evolves ok.guard db db') {i' : Intent}
    (hi' : i' ∈ db'.intents.rows) :
    (∃ i ∈ db.intents.rows, i'.terms = i.terms ∧
      ViewStep (ok (i.type db) (i.view db)) (i.type db) (i.view db) (i'.view db')) ∨
    (db.intents.get? i'.id = none ∧ Arrives db db' i') := by
  rcases h.change with hshifts | ⟨i, harrives⟩ | hmarks
  · exact .inl (hshifts.viewStep hi')
  · exact harrives.viewStep hi'
  · exact .inl (hmarks.viewStep hi')

/-- What is not of a stored intent stays. -/
theorem Evolves.others (h : Evolves ok.guard db db') {id : String}
    (hid : db.intents.get? id = none) :
    db'.transitionsOf id = db.transitionsOf id ∧ db'.placed id = db.placed id := by
  rcases h.change with hshifts | ⟨i, harrives⟩ | ⟨mark, target, now, _, _, hmarks⟩
  · exact hshifts.others id hid
  · exact ⟨harrives.same.transitionsOf id, harrives.same.placed id⟩
  · obtain ⟨i, hget, _⟩ := hmarks.stored
    have hne : id ≠ target.orderIntentId := by
      rintro rfl
      rw [hget] at hid
      cases hid
    exact ⟨hmarks.transitionsOf.2 id hne, hmarks.placed id⟩

/-- The predicate holds of every intent with the type of its review, and only stored intents have
transitions and orders. -/
structure EachIntent (I : ReviewType → IntentView → Prop) (db : Db) : Prop where
  intents : ∀ i ∈ db.intents.rows, ∃ type, i.kind db = some type ∧ I type (i.view db)
  others : ∀ id, db.intents.get? id = none → db.transitionsOf id = [] ∧ db.placed id = false

/-- A predicate of one intent that holds of new ones and is kept by every step. -/
structure Inductive (ok : ViewGuard) (I : ReviewType → IntentView → Prop) : Prop where
  start : ∀ {type status state}, status ∈ [IntentStatus.created, .readyForSubmission] →
    state ∈ startStates type → I type { status, state, log := [], placed := false }
  step : ∀ {type v v'}, I type v → ViewStep (ok type v) type v v' → I type v'

theorem EachIntent.evolves {I : ReviewType → IntentView → Prop} (hI : Inductive ok I)
    (h : EachIntent I db) (he : Evolves ok.guard db db') : EachIntent I db' := by
  refine ⟨fun i' hi' ↦ ?_, fun id hid ↦ ?_⟩
  · rcases he.viewStep hi' with ⟨i, hi, hterms, hstep⟩ | ⟨hnone, harrives⟩
    · obtain ⟨type, hkind, hview⟩ := h.intents i hi
      rw [Intent.type_of_kind hkind] at hstep
      exact ⟨type, he.later.kind hterms hkind, hI.step hview hstep⟩
    · obtain ⟨type, hkind, hstate⟩ := harrives.start
      refine ⟨type, hkind, ?_⟩
      have hview : i'.view db' =
          { status := i'.status, state := i'.lifecycleState, log := [], placed := false } := by
        obtain ⟨hlog, hplaced⟩ := h.others i'.id hnone
        rw [Intent.view, harrives.same.transitionsOf, harrives.same.placed, hlog, hplaced]
      rw [hview]
      exact hI.start harrives.status hstate
  · have hnone : db.intents.get? id = none := by
      by_contra hsome
      obtain ⟨i, hget⟩ := Option.ne_none_iff_exists'.1 hsome
      obtain ⟨i', hi', hterms, _⟩ := he.later.intents i (Table.mem_of_get? hget)
      have hkey : i'.id = id := (congrArg IntentTerms.id hterms).trans (Table.key_of_get? hget)
      rw [Table.get?_eq_some.2 ⟨hi', hkey⟩] at hid
      cases hid
    obtain ⟨hlog, hplaced⟩ := he.others hnone
    obtain ⟨hlog', hplaced'⟩ := h.others id hnone
    exact ⟨hlog.trans hlog', hplaced.trans hplaced'⟩

/-- **Over runs.**  A run within the guard keeps what every statement within it keeps. -/
theorem EachIntent.run {I : ReviewType → IntentView → Prop} (hI : Inductive ok I) {s s' : Services}
    {acts : List ServiceAct} (hvalid : s.Valid) (h : EachIntent I s.db)
    (hguard : Guarded Services.step (Services.Within ok.guard) s acts)
    (hrun : runActs Services.step s acts = some s') : s'.Valid ∧ EachIntent I s'.db := by
  have hstep : ∀ (t : Services) (a : ServiceAct) (t' : Services), t.Valid ∧ EachIntent I t.db →
      t.Within ok.guard a → Services.step a t = some t' → t'.Valid ∧ EachIntent I t'.db := by
    intro t a t' ht hwithin hstep
    obtain ⟨hvalid', hevolves⟩ := Services.step_evolves ht.1 hwithin hstep
    exact ⟨hvalid', invariant_of_steps (fun _ _ hd he ↦ hd.evolves hI he) hevolves ht.2⟩
  exact invariant_of_guarded hstep ⟨hvalid, h⟩ hguard hrun

/-- Without a restriction every run is within the guard. -/
theorem Services.guarded_true (s : Services) (acts : List ServiceAct) :
    Guarded Services.step (Services.Within (ViewGuard.guard fun _ _ _ ↦ True)) s acts :=
  guarded_of_forall s fun a _ t ↦ t.within_true a

end ViewStep

end AlpacaTrading
