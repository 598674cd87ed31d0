import AlpacaTrading.System.History

/-!
# Cancellations at once

Any number of runs may cancel one order, each statement of each at any time, and any of them may
be interrupted at any step.  Which run calls the broker is decided by one row: the transition into
`cancel_ambiguous`, whose name is made of the intent and the broker order.  A run calls the broker
only after its own statement has stored that row, and no row of that name is stored twice.

The state of the intent does not decide it.  An exit may leave the cancellation and enter it again,
and a run may have read the state long before; the row stays, and so does its name.
-/

namespace AlpacaTrading

/-! ## Claims -/

/-- Two targets are one order: one intent, and one order of the broker. -/
def CancellationTarget.SameOrder (a b : CancellationTarget) : Prop :=
  a.orderIntentId = b.orderIntentId ∧ a.brokerId = b.brokerId

/-- Two transitions have one name. -/
def LifecycleTransition.SameName (r r' : LifecycleTransition) : Prop :=
  r.orderIntentId = r'.orderIntentId ∧ r.idempotencyKey = r'.idempotencyKey

/-- The transition claims the call for the target. -/
def LifecycleTransition.Claims (r : LifecycleTransition) (target : CancellationTarget) : Prop :=
  r.toState = .cancelAmbiguous ∧ r.orderIntentId = target.orderIntentId ∧
    r.idempotencyKey = "cancel-ambiguous:" ++ target.brokerId

/-- A statement of the run stored the transition that claims the call for the target. -/
def Services.Claimed (s : Services) (p : Nat) (target : CancellationTarget) : Prop :=
  ∃ r, (p, r) ∈ s.insertions ∧ r.Claims target

theorem LifecycleTransition.Claims.sameName {r r' : LifecycleTransition}
    {a b : CancellationTarget} (h : r.Claims a) (h' : r'.Claims b) (hab : a.SameOrder b) :
    r.SameName r' := by
  obtain ⟨_, hintent, hkey⟩ := h
  obtain ⟨_, hintent', hkey'⟩ := h'
  refine ⟨?_, ?_⟩
  · rw [hintent, hintent', hab.1]
  · rw [hkey, hkey', hab.2]

/-- A new name is the name of no row. -/
theorem LifecycleTransition.not_sameName_of_newIn {log : List LifecycleTransition}
    {r x : LifecycleTransition} (h : r.newIn log = true) (hx : x ∈ log) : ¬ x.SameName r := by
  intro hsame
  rw [LifecycleTransition.newIn, Bool.not_eq_true', List.any_eq_false] at h
  exact h x hx (decide_eq_true hsame)

instance : Std.Symm fun x y : Nat × LifecycleTransition ↦ ¬ x.2.SameName y.2 where
  symm _ _ hne hsame := hne ⟨hsame.1.symm, hsame.2.symm⟩

/-- What keeps the call unique. -/
structure Services.Once (s : Services) : Prop where
  /-- The transitions of cancellations are stored. -/
  stored : ∀ x ∈ s.insertions, x.2 ∈ s.db.lifecycleTransitions.rows
  /-- They have different names. -/
  names : s.insertions.Pairwise fun x y ↦ ¬ x.2.SameName y.2
  /-- A run that is about to call has claimed the call, and no run has called. -/
  owned : ∀ {p run target}, s.cancellations[p]? = some run → run.stage.owned? = some target →
    s.Claimed p target ∧ ∀ d ∈ s.deletions, ¬ d.2.SameOrder target
  /-- A run that has called has claimed the call. -/
  claimed : ∀ d ∈ s.deletions, s.Claimed d.1 d.2
  once : s.deletions.Pairwise fun d d' ↦ ¬ d.2.SameOrder d'.2

/-- One run at most claims the call for an order. -/
theorem Services.Once.unique {s : Services} (h : s.Once) {p q : Nat} {a b : CancellationTarget}
    (ha : s.Claimed p a) (hb : s.Claimed q b) (hab : a.SameOrder b) : p = q := by
  obtain ⟨r, hr, hclaims⟩ := ha
  obtain ⟨r', hr', hclaims'⟩ := hb
  by_contra hne
  have hdiff : (p, r) ≠ (q, r') := fun heq ↦ hne (Prod.mk.inj heq).1
  exact h.names.forall hr hr' hdiff (hclaims.sameName hclaims' hab)

/-! ## The table of transitions -/

section Grow

variable [Hashing] {db db' : Db}

/-- The log of an intent only grows. -/
theorem ViewStep.log {ok : Cause → Prop} {type : ReviewType} {v v' : IntentView}
    (h : ViewStep ok type v v') : v.log ⊆ v'.log := by
  cases h with
  | mark => exact List.subset_append_left _ _
  | shift hshift =>
    cases hshift with
    | observe | stuck => exact List.subset_append_left _ _
    | _ => exact List.Subset.refl _

/-- Every statement of every service keeps the stored transitions. -/
theorem Evolves.transitions {ok : ViewGuard} (h : Evolves ok.guard db db') :
    db.lifecycleTransitions.rows ⊆ db'.lifecycleTransitions.rows := by
  intro r hr
  have hlog : r ∈ db.transitionsOf r.orderIntentId :=
    List.mem_filter.2 ⟨hr, decide_eq_true rfl⟩
  suffices hlog' : r ∈ db'.transitionsOf r.orderIntentId from (List.mem_filter.1 hlog').1
  rcases hget : db.intents.get? r.orderIntentId with _ | i
  · rwa [(h.others hget).1]
  · have hid : i.id = r.orderIntentId := Table.key_of_get? hget
    obtain ⟨i', hi', hterms, _⟩ := h.later.intents i (Table.mem_of_get? hget)
    have hid' : i'.id = r.orderIntentId := (congrArg IntentTerms.id hterms).trans hid
    rcases h.viewStep hi' with ⟨j, hj, hterms', hstep⟩ | ⟨hnone, _⟩
    · obtain rfl : j = i := db.intents.eq_of_key hj (Table.mem_of_get? hget)
        (congrArg IntentTerms.id (hterms'.symm.trans hterms))
      have hsub := hstep.log
      rw [Intent.view, Intent.view, hid, hid'] at hsub
      exact hsub hlog
    · rw [hid', hget] at hnone
      cases hnone

end Grow

/-! ## Steps -/

section Step

variable [Hashing] {s s' : Services} {p : Nat} {run : Cancellation} {stage : CancellationStage}

omit [Hashing] in
/-- A run after one run has moved. -/
theorem getElem?_set_cases {q : Nat} {run' : Cancellation}
    (h : (s.cancellations.set p { run with stage })[q]? = some run') :
    (q = p ∧ run'.stage = stage) ∨ (q ≠ p ∧ s.cancellations[q]? = some run') := by
  rw [List.getElem?_set] at h
  by_cases heq : p = q
  · rw [if_pos heq] at h
    split_ifs at h
    · obtain rfl := Option.some_inj.1 h
      exact .inl ⟨heq.symm, rfl⟩
  · rw [if_neg heq] at h
    exact .inr ⟨fun hq ↦ heq hq.symm, h⟩

omit [Hashing] in
/-- A statement that stores a transition of a new name. -/
theorem Services.Once.store (h : s.Once) {r : LifecycleTransition}
    (hrows : s'.db.lifecycleTransitions.rows = s.db.lifecycleTransitions.rows ++ [r])
    (hnew : r.newIn s.db.lifecycleTransitions.rows = true)
    (hcancellations : s'.cancellations = s.cancellations.set p { run with stage })
    (hdeletions : s'.deletions = s.deletions) (hinsertions : s'.insertions = s.insertions ++ [(p, r)])
    (howned : ∀ target, stage.owned? = some target → r.Claims target) : s'.Once := by
  have hmono : ∀ {q target}, s.Claimed q target → s'.Claimed q target := by
    rintro q target ⟨x, hx, hclaims⟩
    refine ⟨x, ?_, hclaims⟩
    rw [hinsertions]
    exact List.mem_append_left _ hx
  refine ⟨fun x hx ↦ ?_, ?_, fun {q run' target} hrun' htarget ↦ ?_, fun d hd ↦ ?_, ?_⟩
  · rw [hinsertions] at hx
    rw [hrows]
    rcases List.mem_append.1 hx with hx | hx
    · exact List.mem_append_left _ (h.stored x hx)
    · rw [List.mem_singleton.1 hx]
      exact List.mem_append_right _ (List.mem_singleton_self r)
  · rw [hinsertions]
    refine List.pairwise_append.2 ⟨h.names, List.pairwise_singleton _ _, fun x hx y hy ↦ ?_⟩
    rw [List.mem_singleton.1 hy]
    exact LifecycleTransition.not_sameName_of_newIn hnew (h.stored x hx)
  · rw [hcancellations] at hrun'
    rw [hdeletions]
    rcases getElem?_set_cases hrun' with ⟨rfl, hstage⟩ | ⟨_, hother⟩
    · rw [hstage] at htarget
      have hclaims := howned target htarget
      refine ⟨⟨r, ?_, hclaims⟩, fun d hd hsame ↦ ?_⟩
      · rw [hinsertions]
        exact List.mem_append_right _ (List.mem_singleton_self _)
      · -- Whoever called before has stored the name.
        obtain ⟨x, hx, hclaims'⟩ := h.claimed d hd
        exact LifecycleTransition.not_sameName_of_newIn hnew (h.stored _ hx)
          (hclaims'.sameName hclaims hsame)
    · obtain ⟨hclaimed, hnone⟩ := h.owned hother htarget
      exact ⟨hmono hclaimed, hnone⟩
  · rw [hdeletions] at hd
    exact hmono (h.claimed d hd)
  · rw [hdeletions]
    exact h.once

omit [Hashing] in
/-- A step that stores nothing, and calls the broker only if the run has claimed the call. -/
theorem Services.Once.look (h : s.Once) (hrun : s.cancellations[p]? = some run)
    (hrows : s'.db.lifecycleTransitions = s.db.lifecycleTransitions)
    (hcancellations : s'.cancellations = s.cancellations.set p { run with stage })
    (hinsertions : s'.insertions = s.insertions)
    (hdeletions : s'.deletions = s.deletions ∧
        (stage.owned? = none ∨ stage.owned? = run.stage.owned?) ∨
      ∃ target, s'.deletions = s.deletions ++ [(p, target)] ∧
        run.stage.owned? = some target ∧ stage.owned? = none) : s'.Once := by
  have hclaimed : ∀ {q target}, s'.Claimed q target ↔ s.Claimed q target := by
    intro q target
    rw [Services.Claimed, hinsertions]
    rfl
  refine ⟨fun x hx ↦ ?_, ?_, fun {q run' target} hrun' htarget ↦ ?_, fun d hd ↦ ?_, ?_⟩
  · rw [hinsertions] at hx
    rw [hrows]
    exact h.stored x hx
  · rw [hinsertions]
    exact h.names
  · rw [hcancellations] at hrun'
    rw [hclaimed]
    rcases getElem?_set_cases hrun' with ⟨rfl, hstage⟩ | ⟨hne, hother⟩
    · rw [hstage] at htarget
      rcases hdeletions with ⟨hsame, hnone | howned⟩ | ⟨_, _, _, hnone⟩
      · rw [hnone] at htarget
        cases htarget
      · rw [howned] at htarget
        rw [hsame]
        exact h.owned hrun htarget
      · rw [hnone] at htarget
        cases htarget
    · obtain ⟨hclaim, hnone⟩ := h.owned hother htarget
      refine ⟨hclaim, fun d hd hsame ↦ ?_⟩
      rcases hdeletions with ⟨heq, _⟩ | ⟨called, heq, howned, _⟩
      · rw [heq] at hd
        exact hnone d hd hsame
      · rw [heq] at hd
        rcases List.mem_append.1 hd with hd | hd
        · exact hnone d hd hsame
        · -- Two runs would have claimed the call.
          rw [List.mem_singleton.1 hd] at hsame
          exact hne (h.unique (h.owned hrun howned).1 hclaim hsame).symm
  · rw [hclaimed]
    rcases hdeletions with ⟨heq, _⟩ | ⟨called, heq, howned, _⟩
    · rw [heq] at hd
      exact h.claimed d hd
    · rw [heq] at hd
      rcases List.mem_append.1 hd with hd | hd
      · exact h.claimed d hd
      · rw [List.mem_singleton.1 hd]
        exact (h.owned hrun howned).1
  · rcases hdeletions with ⟨heq, _⟩ | ⟨called, heq, howned, _⟩
    · rw [heq]
      exact h.once
    · rw [heq]
      refine List.pairwise_append.2 ⟨h.once, List.pairwise_singleton _ _, fun d hd d' hd' ↦ ?_⟩
      rw [List.mem_singleton.1 hd']
      exact (h.owned hrun howned).2 d hd

omit [Hashing] in
/-- A step of another service, or the start of a run. -/
theorem Services.Once.other (h : s.Once)
    (hrows : s.db.lifecycleTransitions.rows ⊆ s'.db.lifecycleTransitions.rows)
    (hcancellations : ∀ {q : Nat} {run : Cancellation} {target : CancellationTarget},
      s'.cancellations[q]? = some run → run.stage.owned? = some target →
        s.cancellations[q]? = some run)
    (hdeletions : s'.deletions = s.deletions) (hinsertions : s'.insertions = s.insertions) :
    s'.Once := by
  have hclaimed : ∀ {q target}, s'.Claimed q target ↔ s.Claimed q target := by
    intro q target
    rw [Services.Claimed, hinsertions]
    rfl
  refine ⟨fun x hx ↦ ?_, ?_, fun {q run target} hrun htarget ↦ ?_, fun d hd ↦ ?_, ?_⟩
  · rw [hinsertions] at hx
    exact hrows (h.stored x hx)
  · rw [hinsertions]
    exact h.names
  · rw [hclaimed, hdeletions]
    exact h.owned (hcancellations hrun htarget) htarget
  · rw [hdeletions] at hd
    exact hclaimed.2 (h.claimed d hd)
  · rw [hdeletions]
    exact h.once

/-- The statement of a mark stores one transition, of a new name. -/
theorem PersistsMark.newTransitions {mark : CancellationMark} {target : CancellationTarget}
    {now : Time} {db db' : Db} (h : PersistsMark mark target now db db') :
    db'.lifecycleTransitions.rows =
        db.lifecycleTransitions.rows ++ [mark.transition target now] ∧
      AlpacaTrading.newTransitions db db' = [mark.transition target now] := by
  obtain ⟨transitions, _, hinsert, _, hdb⟩ := h.tables
  have hrows : db'.lifecycleTransitions.rows =
      db.lifecycleTransitions.rows ++ [mark.transition target now] := by
    rw [hdb]
    exact Table.rows_of_insert? hinsert
  refine ⟨hrows, ?_⟩
  rw [AlpacaTrading.newTransitions, hrows, List.drop_left]

/-- A step of a cancellation keeps the call unique. -/
theorem Services.Once.cancellation {act : CancellationAct} (h : s.Once)
    (hstep : Services.step (.cancellation p act) s = some s') : s'.Once := by
  obtain ⟨run, db, stage, call, hrun, hcancel, rfl⟩ := Services.step_cancellation hstep
  have hnothing : newTransitions s.db s.db = [] := List.drop_length
  rcases Cancellation.step_does hcancel with ⟨hdb, howned, hcall⟩ | ⟨hnone, _, hmarks⟩ |
    ⟨_, howned, _, hmarks⟩ | ⟨hdb, howned, hnone⟩
  · subst hdb
    have hnocall : call.bind (·.deletion?) = none := by
      rcases call with _ | ⟨target | pass⟩
      · rfl
      · exact absurd rfl (hcall target)
      · rfl
    refine h.look hrun rfl rfl ?_ (.inl ⟨?_, howned⟩)
    · rw [hnothing]
      exact List.append_nil _
    · rw [hnocall]
      exact List.append_nil _
  · obtain ⟨hrows, hnew⟩ := hmarks.newTransitions
    refine h.store hrows hmarks.fresh rfl (List.append_nil _) ?_ fun target htarget ↦ ?_
    · rw [hnew]
      rfl
    · rw [hnone] at htarget
      cases htarget
  · obtain ⟨hrows, hnew⟩ := hmarks.newTransitions
    refine h.store hrows hmarks.fresh rfl (List.append_nil _) ?_ fun target htarget ↦ ?_
    · rw [hnew]
      rfl
    · rcases howned with hnone | hsome
      · rw [hnone] at htarget
        cases htarget
      · rw [hsome] at htarget
        obtain rfl := Option.some_inj.1 htarget
        exact ⟨rfl, rfl, rfl⟩
  · subst hdb
    refine h.look hrun rfl rfl ?_ (.inr ⟨_, rfl, howned, hnone⟩)
    rw [hnothing]
    exact List.append_nil _

/-- **A step of the services** keeps the call unique. -/
theorem Services.Once.step {act : ServiceAct} (h : s.Once) (hvalid : s.Valid)
    (hstep : Services.step act s = some s') : s'.Once := by
  have hrows : s.db.lifecycleTransitions.rows ⊆ s'.db.lifecycleTransitions.rows := by
    obtain ⟨_, hevolves⟩ := @Services.step_evolves _ (ViewGuard.guard fun _ _ _ ↦ True) _ _ _
      hvalid (s.within_true act) hstep
    have hsteps : ∀ d d' : Db, s.db.lifecycleTransitions.rows ⊆ d.lifecycleTransitions.rows →
        Evolves (ViewGuard.guard fun _ _ _ ↦ True) d d' →
        s.db.lifecycleTransitions.rows ⊆ d'.lifecycleTransitions.rows :=
      fun _ _ hd he ↦ List.Subset.trans hd he.transitions
    exact invariant_of_steps hsteps hevolves (List.Subset.refl _)
  rcases act with act | request | ⟨p, act⟩
  · obtain ⟨base, _, rfl⟩ := Option.map_eq_some_iff.1 hstep
    exact h.other hrows (fun hrun _ ↦ hrun) rfl rfl
  · obtain rfl := Option.some_inj.1 hstep
    refine h.other hrows (fun {q run target} hrun htarget ↦ ?_) rfl rfl
    -- A run begins without a claim.
    rcases lt_or_ge q s.cancellations.length with hlt | hge
    · rwa [List.getElem?_append_left hlt] at hrun
    · rw [List.getElem?_append_right hge] at hrun
      obtain rfl := List.mem_singleton.1 (List.mem_of_getElem? hrun)
      cases htarget
  · exact h.cancellation hstep

/-- **One call.**  However the runs that cancel an order and the other services take turns, and
wherever they are interrupted, at most one call to the broker is made for each order, and by the
one run whose statement stored the transition into `cancel_ambiguous`. -/
theorem cancelled_at_most_once {base : ExitSys} {acts : List ServiceAct} (hvalid : base.sys.Valid)
    (hrun : runActs Services.step { base } acts = some s) :
    s.deletions.Pairwise (fun d d' ↦ ¬ d.2.SameOrder d'.2) ∧
      (∀ d ∈ s.deletions, ∀ p, s.Claimed p d.2 ↔ p = d.1) ∧
      ∀ x ∈ s.insertions, x.2 ∈ s.db.lifecycleTransitions.rows := by
  have hstep : ∀ (t : Services) (a : ServiceAct) (t' : Services), t.Valid ∧ t.Once →
      Services.step a t = some t' → t'.Valid ∧ t'.Once := by
    rintro t a t' ⟨hvalid, honce⟩ hstep
    obtain ⟨hvalid', _⟩ := @Services.step_evolves _ (ViewGuard.guard fun _ _ _ ↦ True) _ _ _
      hvalid (t.within_true a) hstep
    exact ⟨hvalid', honce.step hvalid hstep⟩
  have hstart : Services.Once { base } :=
    ⟨fun _ hx ↦ (nomatch hx), .nil, fun hrun _ ↦ (nomatch hrun), fun _ hd ↦ (nomatch hd), .nil⟩
  obtain ⟨_, honce⟩ := invariant_of_run hstep
    (⟨⟨hvalid, fun _ hrun ↦ (nomatch hrun)⟩, hstart⟩ : Services.Valid { base } ∧ _) hrun
  refine ⟨honce.once, fun d hd p ↦ ⟨fun hclaimed ↦ ?_, ?_⟩, honce.stored⟩
  · exact honce.unique hclaimed (honce.claimed d hd) ⟨rfl, rfl⟩
  · rintro rfl
    exact honce.claimed d hd

end Step

namespace Specimen

/-- A cancellation of the exit. -/
def cancelRequest : CancellationRequest :=
  { fence, clientOrderId := "client", confirmPaper := true, safety := {} }

/-- Two runs that both find the cancellation requested, and both reach the claim. -/
def rivalActs : List ServiceAct :=
  [reconciled "new" 0 2000, .cancel cancelRequest, .cancel cancelRequest,
    .cancellation 0 (.select 0), .cancellation 0 (.fetch (.inr (answered "new" 0)) 2500),
    .cancellation 0 (.request 0 .none),
    .cancellation 1 (.select 0), .cancellation 1 (.fetch (.inr (answered "new" 0)) 2600),
    .cancellation 1 (.assertFence 0), .cancellation 0 (.assertFence 0),
    .cancellation 1 (.claim 0 .none), .cancellation 0 (.claim 0 .none),
    .cancellation 1 (.assertFence 0), .cancellation 1 .delete,
    .cancellation 0 (.assertFence 0), .cancellation 0 (.poll (.inr (answered "new" 0)))]

end Specimen

/-- The theorem at the specimen: the second run claims the call and makes it, the first only looks
the order up. -/
theorem specimen_cancelled_once :
    ∃ s, Specimen.history .exit Specimen.rivalActs = some s ∧
      s.deletions.map Prod.fst = [1] ∧
      s.deletions.Pairwise (fun d d' ↦ ¬ d.2.SameOrder d'.2) ∧
      ∀ d ∈ s.deletions, ∀ p, s.Claimed p d.2 ↔ p = d.1 := by
  let _ := Specimen.hashing
  have hrun : (Specimen.history .exit Specimen.rivalActs).map (·.deletions.map Prod.fst) =
      some [1] := by decide +kernel
  obtain ⟨s, hs, hcalls⟩ := Option.map_eq_some_iff.1 hrun
  obtain ⟨honce, hclaimed, _⟩ := cancelled_at_most_once (Specimen.doubtful_valid .exit).sys hs
  exact ⟨s, hs, hcalls, honce, hclaimed⟩

end AlpacaTrading
