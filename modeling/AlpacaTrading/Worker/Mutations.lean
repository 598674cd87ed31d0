import AlpacaTrading.Worker.Cycle
import Mathlib.Data.List.Basic
import Mathlib.Data.List.Chain

/-!
# Broker mutations and their reconciliation

In every run of the worker a workstream that may send orders runs only when the last thing done to
the orders was a reconciliation that resolved them, and the next workstream that runs after it is
a reconciliation (`reconciled_of_main`).

The worker keeps a flag for this, but the flag alone does not say it: it starts out as if nothing
were unresolved, and a mutation that succeeds leaves it alone.  What makes it work is where the
reconciliations stand in the list (`Placed`): the list begins with one, and one follows each
mutation that does not reconcile on its own.  `Ready` is the invariant between two positions, and it
says what the flag is worth there; a signal or an error ends the cycle, and the next one begins with
a reconciliation again.
-/

namespace AlpacaTrading

namespace Worker

open Throwing

/-! ## Traces -/

/-- A workstream that has run, with its result. -/
abbrev Ran := String × WorkstreamResult

/-- The workstreams that have run. -/
def WorkerState.ran (s : WorkerState) : List Ran :=
  s.trace.filterMap fun
    | .command script result => some (script, result)
    | .call _ _ _ _ => none

/-- A workstream that may send orders. -/
def Ran.mutates (c : Ran) : Prop := c.1 ∈ brokerMutationWorkstreams

instance (c : Ran) : Decidable c.mutates := inferInstanceAs (Decidable (_ ∈ _))

/-- A reconciliation. -/
def Ran.reconciles (c : Ran) : Prop := c.1 = reconciliationWorkstream

instance (c : Ran) : Decidable c.reconciles := inferInstanceAs (Decidable (_ = _))

/-- Whether the orders are resolved after a workstream. -/
def resolvedAfter (resolved : Bool) (c : Ran) : Bool :=
  if c.reconciles then reconciliationResolved c.2 else if c.mutates then false else resolved

/-- Whether the last workstream that mutated or reconciled was a reconciliation that resolved the
orders. -/
def Resolved (l : List Ran) : Bool := l.foldl resolvedAfter false

/-- Mutations run only when the orders are resolved, and are reconciled next. -/
structure Reconciled (l : List Ran) : Prop where
  resolved : ∀ before c after, l = before ++ c :: after → c.mutates → Resolved before = true
  next : l.IsChain fun c d ↦ c.mutates → d.reconciles

theorem not_mutates_of_reconciles {c : Ran} (h : c.reconciles) : ¬ c.mutates := by
  rw [Ran.reconciles] at h
  rw [Ran.mutates, h]
  decide

theorem resolvedAfter_reconciles {b : Bool} {c : Ran} (h : c.reconciles) :
    resolvedAfter b c = reconciliationResolved c.2 := if_pos h

theorem resolvedAfter_other {b : Bool} {c : Ran} (hreconciles : ¬c.reconciles)
    (hmutates : ¬c.mutates) : resolvedAfter b c = b := by
  rw [resolvedAfter, if_neg hreconciles, if_neg hmutates]

theorem resolved_append (l : List Ran) (c : Ran) :
    Resolved (l ++ [c]) = resolvedAfter (Resolved l) c := by
  rw [Resolved, List.foldl_append]
  rfl

theorem Reconciled.append {l : List Ran} {c : Ran} (h : Reconciled l)
    (hresolved : c.mutates → Resolved l = true)
    (hnext : ∀ d ∈ l.getLast?, d.mutates → c.reconciles) : Reconciled (l ++ [c]) where
  resolved := by
    intro before x after hsplit hx
    rcases List.eq_nil_or_concat' after with rfl | ⟨init, last, rfl⟩
    · obtain ⟨rfl, hc⟩ := List.append_inj' hsplit rfl
      obtain rfl := List.singleton_inj.1 hc
      exact hresolved hx
    · refine h.resolved before x init ?_ hx
      rw [← List.cons_append, ← List.append_assoc] at hsplit
      exact (List.append_inj' hsplit rfl).1
  next := by
    rw [List.isChain_append]
    refine ⟨h.next, List.isChain_singleton c, fun d hd y hy ↦ ?_⟩
    obtain rfl := Option.some_inj.1 hy
    exact hnext d hd

/-! ## What the parts of a position do -/

section

variable {env : Environment} {cycle : ℕ} {script : String} {s : WorkerState}

theorem ends_runWorkstream {Q : Except String WorkstreamResult → WorkerState → Prop}
    (h : ∀ result t, t.ran = s.ran ++ [(script, result)] → Q (.ok result) t) :
    Ends (runWorkstream env script) s Q := by
  refine h (s.resultOf env script) (s.after env script) ?_
  rw [WorkerState.ran, WorkerState.after, List.filterMap_append]
  rfl

/-- A computation that runs no workstream. -/
def Quiet {α : Type} (p : WorkerProgram α) : Prop := ∀ s, Ends p s fun _ t ↦ t.ran = s.ran

theorem quiet_pure {α : Type} (a : α) : Quiet (pure a) := fun _ ↦ ends_pure rfl

theorem quiet_throw {α : Type} (code : String) : Quiet (throw code : WorkerProgram α) :=
  fun _ ↦ ends_throw rfl

theorem quiet_get : Quiet (get : WorkerProgram WorkerState) := fun _ ↦ ends_get rfl

theorem quiet_modify {f : WorkerState → WorkerState} (h : ∀ s, (f s).trace = s.trace) :
    Quiet (modify f : WorkerProgram Unit) := by
  intro s
  refine ends_modify ?_
  rw [WorkerState.ran, WorkerState.ran, h]

theorem Quiet.bind {α β : Type} {p : WorkerProgram α} {f : α → WorkerProgram β} (hp : Quiet p)
    (hf : ∀ a, Quiet (f a)) : Quiet (p >>= f) := fun s ↦
  ends_bind (hp s) (fun a t ht ↦ (hf a t).mono fun _ _ h ↦ h.trans ht) fun _ _ h ↦ h

theorem Quiet.ite {α : Type} {c : Prop} [Decidable c] {p q : WorkerProgram α} (hp : Quiet p)
    (hq : Quiet q) : Quiet (if c then p else q) := fun s ↦ ends_ite (fun _ ↦ hp s) fun _ ↦ hq s

theorem Quiet.tryCatch {α : Type} {p : WorkerProgram α} {handler : String → WorkerProgram α}
    (hp : Quiet p) (hhandler : ∀ code, Quiet (handler code)) :
    Quiet (MonadExcept.tryCatch p handler) := fun s ↦
  ends_tryCatch (hp s) (fun _ _ h ↦ h) fun code t ht ↦
    (hhandler code t).mono fun _ _ h ↦ h.trans ht

theorem quiet_persistState (eventType : AutonomousWorkerEventType) (name : String) :
    Quiet (persistState env cycle eventType name) := by
  intro s
  have hcalled : (s.called env cycle eventType name).ran = s.ran := by
    rw [WorkerState.ran, WorkerState.called, List.filterMap_append]
    exact List.append_nil _
  exact hcalled

theorem quiet_stopWorker : Quiet (stopWorker env cycle) :=
  (quiet_persistState _ _).bind fun _ ↦ quiet_pure _

theorem quiet_settle (result : WorkstreamResult) (unresolved : Bool) :
    Quiet (settle env cycle script result unresolved) := by
  refine quiet_get.bind fun s ↦ .ite quiet_stopWorker (.ite ?_ ?_)
  · refine (quiet_persistState _ _).bind fun _ ↦ (quiet_persistState _ _).bind fun _ ↦ ?_
    refine Quiet.bind (quiet_modify fun _ ↦ rfl) fun _ ↦ ?_
    exact quiet_throw _
  · exact (quiet_persistState _ _).bind fun _ ↦ quiet_pure _

/-- A computation that does not go on with another flag. -/
def GoesOnWith (unresolved : Bool) (r : Except String Exit) : Prop :=
  ∀ u, r = .ok (.next u) → u = unresolved

theorem stopWorker_exit :
    Ends (stopWorker env cycle) s fun r _ ↦ ∀ u, r ≠ .ok (.next u) :=
  ends_bind (R := fun _ _ ↦ True) trivial (fun _ _ _ ↦ ends_pure fun _ h ↦ by cases h)
    fun _ _ _ _ h ↦ by cases h

theorem settle_exit (result : WorkstreamResult) (unresolved : Bool) :
    Ends (settle env cycle script result unresolved) s fun r _ ↦ GoesOnWith unresolved r := by
  have herror : ∀ code (t : WorkerState), True → GoesOnWith unresolved (.error code) :=
    fun _ _ _ _ h ↦ by cases h
  refine ends_get_bind ?_
  refine ends_ite (fun _ ↦ ?_) fun _ ↦ ends_ite (fun _ ↦ ?_) fun _ ↦ ?_
  · exact stopWorker_exit.mono fun r _ hr u hu ↦ absurd hu (hr u)
  · refine ends_bind (R := fun _ _ ↦ True) trivial (fun _ _ _ ↦ ?_) herror
    refine ends_bind (R := fun _ _ ↦ True) trivial (fun _ _ _ ↦ ?_) herror
    refine ends_modify_bind ?_
    exact ends_throw fun _ h ↦ by cases h
  · refine ends_bind (R := fun _ _ ↦ True) trivial (fun _ _ _ ↦ ?_) herror
    refine ends_pure fun u h ↦ ?_
    injection h with h
    injection h with h
    exact h.symm

/-! ## Positions -/

/-- What holds before a position: the orders may be unresolved only if the flag says so or a
reconciliation is next, and a mutation is followed by a reconciliation. -/
structure Ready (s : WorkerState) (next : Option String) (unresolved : Bool) : Prop where
  reconciled : Reconciled s.ran
  flag : unresolved = false → next = some reconciliationWorkstream ∨ next = none ∨
    Resolved s.ran = true
  pending : ∀ d ∈ s.ran.getLast?, d.mutates → next = some reconciliationWorkstream ∨ next = none

/-- The reconciliations stand where they are needed: one follows each mutation that has none of its
own. -/
def PlacedAt (script : String) (next : Option String) : Prop :=
  script ∈ brokerMutationWorkstreams → script ∈ internalReconciliationAfter ∨
    next = some reconciliationWorkstream

variable {next : Option String} {unresolved : Bool} {result internal : WorkstreamResult}
  {t u : WorkerState}

/-- A position whose workstream does not run. -/
theorem Ready.skip (h : Ready s (some script) unresolved) (hran : t.ran = s.ran)
    (hmutates : script ∈ brokerMutationWorkstreams) (hunresolved : unresolved = true) :
    Ready t next unresolved where
  reconciled := hran ▸ h.reconciled
  flag := fun hflag ↦ by rw [hunresolved] at hflag; cases hflag
  pending := by
    intro d hd hdmutates
    rw [hran] at hd
    rcases h.pending d hd hdmutates with hscript | hnone
    · -- A mutation is no reconciliation.
      exfalso
      rw [Option.some_inj.1 hscript] at hmutates
      exact absurd hmutates (by decide)
    · cases hnone

/-- The workstream of a position runs. -/
theorem Ready.reconciled_run (h : Ready s (some script) unresolved)
    (hrun : script ∈ brokerMutationWorkstreams → unresolved = false)
    (ht : t.ran = s.ran ++ [(script, result)]) : Reconciled t.ran := by
  rw [ht]
  refine h.reconciled.append (fun hmutates ↦ ?_) fun d hd hdmutates ↦ ?_
  · rcases h.flag (hrun hmutates) with hscript | hnone | hresolved
    · exact absurd hmutates (not_mutates_of_reconciles (Option.some_inj.1 hscript))
    · cases hnone
    · exact hresolved
  · rcases h.pending d hd hdmutates with hscript | hnone
    · exact Option.some_inj.1 hscript
    · cases hnone

theorem Ready.run (h : Ready s (some script) unresolved)
    (hrun : script ∈ brokerMutationWorkstreams → unresolved = false)
    (ht : t.ran = s.ran ++ [(script, result)])
    (hplaced : script ∈ brokerMutationWorkstreams → next = some reconciliationWorkstream) :
    Ready t next (unresolvedAfter script result unresolved) where
  reconciled := h.reconciled_run hrun ht
  flag := by
    intro hflag
    rw [ht, resolved_append]
    by_cases hmutates : script ∈ brokerMutationWorkstreams
    · exact .inl (hplaced hmutates)
    · refine .inr (.inr ?_)
      rw [unresolvedAfter] at hflag
      by_cases hreconciles : script = reconciliationWorkstream
      · rw [if_pos hreconciles, decide_eq_false_iff_not, not_not] at hflag
        rw [resolvedAfter_reconciles (show Ran.reconciles (script, result) from hreconciles)]
        exact hflag
      · rw [if_neg hreconciles, if_neg fun h ↦ hmutates h.1] at hflag
        rw [resolvedAfter_other (show ¬Ran.reconciles (script, result) from hreconciles) hmutates]
        rcases h.flag hflag with hscript | hnone | hresolved
        · exact absurd (Option.some_inj.1 hscript) hreconciles
        · cases hnone
        · exact hresolved
  pending := by
    intro d hd hdmutates
    rw [ht, List.getLast?_concat] at hd
    obtain rfl := Option.some_inj.1 hd
    exact .inl (hplaced hdmutates)

/-- A reconciliation runs within a position. -/
theorem ready_internal (hreconciled : Reconciled t.ran)
    (hu : u.ran = t.ran ++ [(reconciliationWorkstream, internal)]) :
    Ready u next (¬ reconciliationResolved internal) where
  reconciled := by
    rw [hu]
    refine hreconciled.append (fun hmutates ↦ ?_) fun d _ _ ↦ rfl
    exact absurd hmutates (not_mutates_of_reconciles rfl)
  flag := by
    intro hflag
    rw [decide_eq_false_iff_not, not_not] at hflag
    have hreconciles : Ran.reconciles (reconciliationWorkstream, internal) := rfl
    refine .inr (.inr ?_)
    rw [hu, resolved_append, resolvedAfter_reconciles hreconciles]
    exact hflag
  pending := by
    intro d hd hdmutates
    rw [hu, List.getLast?_concat] at hd
    obtain rfl := Option.some_inj.1 hd
    exact absurd hdmutates (not_mutates_of_reconciles rfl)

/-- What holds after a position. -/
def Left (next : Option String) (r : Except String Exit) (t : WorkerState) : Prop :=
  Reconciled t.ran ∧ ∀ u, r = .ok (.next u) → Ready t next u

theorem Ready.of_ran (h : Ready s next unresolved) (hran : t.ran = s.ran) :
    Ready t next unresolved where
  reconciled := hran ▸ h.reconciled
  flag := hran ▸ h.flag
  pending := hran ▸ h.pending

theorem ends_settle (h : Ready s next unresolved) :
    Ends (settle env cycle script result unresolved) s (Left next) := by
  have hquiet : Ends (settle env cycle script result unresolved) s fun _ t ↦ t.ran = s.ran :=
    quiet_settle result unresolved s
  refine (hquiet.and (settle_exit result unresolved)).mono fun r t ht ↦ ?_
  refine ⟨ht.1 ▸ h.reconciled, fun u hu ↦ ?_⟩
  rw [ht.2 u hu]
  exact h.of_ran ht.1

/-- The workstream of a position, or the result that is given up for it. -/
def Answered (s : WorkerState) (script : String) (skipped : Bool)
    (r : Except String WorkstreamResult) (t : WorkerState) : Prop :=
  ∃ result, r = .ok result ∧
    if skipped then result = unresolvedResult ∧ t.ran = s.ran
    else t.ran = s.ran ++ [(script, result)]

theorem ends_answered (skipped : Bool) :
    Ends (positionResult env script skipped) s (Answered s script skipped) := by
  refine ends_ite (fun hskipped ↦ ?_) fun hskipped ↦ ?_
  · exact ends_pure ⟨_, rfl, by rw [if_pos hskipped]; exact ⟨rfl, rfl⟩⟩
  · exact ends_runWorkstream fun result t ht ↦ ⟨result, rfl, by rw [if_neg hskipped]; exact ht⟩

theorem Ready.answered (h : Ready s (some script) unresolved)
    {skipped : Bool} (hskipped : skipped = decide (unresolved = true ∧
      script ∈ brokerMutationWorkstreams))
    (ht : Answered s script skipped (.ok result) t) : Reconciled t.ran ∧
      ((script ∈ brokerMutationWorkstreams → next = some reconciliationWorkstream) →
        Ready t next (unresolvedAfter script result unresolved)) := by
  obtain ⟨result', hresult, ht⟩ := ht
  obtain rfl := Except.ok.inj hresult
  rcases skipped with - | -
  · rw [if_neg Bool.false_ne_true] at ht
    have hrun : script ∈ brokerMutationWorkstreams → unresolved = false := by
      intro hmutates
      by_contra hunresolved
      exact of_decide_eq_false hskipped.symm ⟨Bool.not_eq_false _ ▸ hunresolved, hmutates⟩
    exact ⟨h.reconciled_run hrun ht, h.run hrun ht⟩
  · rw [if_pos rfl] at ht
    obtain ⟨rfl, hran⟩ := ht
    obtain ⟨hunresolved, hmutates⟩ := of_decide_eq_true hskipped.symm
    refine ⟨hran ▸ h.reconciled, fun _ ↦ ?_⟩
    have hother : script ≠ reconciliationWorkstream := fun hreconciles ↦
      not_mutates_of_reconciles (c := (script, unresolvedResult)) hreconciles hmutates
    rw [unresolvedAfter, if_neg hother, if_neg fun h ↦ h.2.2 rfl]
    exact h.skip hran hmutates hunresolved

/-- **A position keeps the invariant.** -/
theorem Ready.runPosition (h : Ready s (some script) unresolved) (hplaced : PlacedAt script next) :
    Ends (runPosition env cycle script next unresolved) s (Left next) := by
  have hquiet : Ends (persistState env cycle .workstreamStarted script) s
      fun _ t ↦ t.ran = s.ran := quiet_persistState _ _ s
  have herror : ∀ (t : WorkerState) (r : Except String Exit), t.ran = s.ran →
      (∀ u, r ≠ .ok (.next u)) → Left next r t := fun t r ht hr ↦
    ⟨ht ▸ h.reconciled, fun u hu ↦ absurd hu (hr u)⟩
  refine ends_bind hquiet (fun _ t ht ↦ ?_) fun code t ht ↦ herror t _ ht fun _ h ↦ by cases h
  have ht₀ : Ready t (some script) unresolved := h.of_ran ht
  refine ends_get_bind (ends_ite (fun _ ↦ ?_) fun _ ↦ ?_)
  · have hstop : Ends (stopWorker env cycle) t fun _ t' ↦ t'.ran = t.ran := quiet_stopWorker t
    exact (hstop.and stopWorker_exit).mono fun r t' h' ↦ herror t' r (h'.1.trans ht) h'.2
  · refine ends_bind (ends_answered _) (fun result t' ht' ↦ ?_) fun code t' ht' ↦ ?_
    · obtain ⟨hreconciled, hready⟩ := ht₀.answered rfl ht'
      refine ends_ite (fun _ ↦ ?_) fun hinternal ↦ ?_
      · refine ends_bind (R := fun r u ↦ ∃ internal, r = .ok internal ∧
          u.ran = t'.ran ++ [(reconciliationWorkstream, internal)])
          (ends_runWorkstream fun internal u hu ↦ ⟨internal, rfl, hu⟩) ?_ ?_
        · rintro internal u ⟨internal', hinternal, hu⟩
          obtain rfl := Except.ok.inj hinternal
          exact ends_settle (ready_internal hreconciled hu)
        · rintro code u ⟨internal', hinternal, -⟩
          cases hinternal
      · refine ends_settle (hready fun hmutates ↦ ?_)
        rcases hplaced hmutates with hwithin | hnext
        · exact absurd (decide_eq_true ⟨hmutates, .inl hwithin⟩) hinternal
        · exact hnext
    · obtain ⟨result, hresult, -⟩ := ht'
      cases hresult

/-! ## Cycles -/

/-- The reconciliations of a list stand where they are needed. -/
def Placed : List String → Prop
  | [] => True
  | script :: rest => PlacedAt script rest.head? ∧ Placed rest

variable {list : List String} {once : Bool}

theorem Ready.runPositions (h : Ready s list.head? unresolved) (hplaced : Placed list) :
    Ends (runPositions env cycle list unresolved) s fun _ t ↦ Reconciled t.ran := by
  induction list generalizing s unresolved with
  | nil => exact ends_pure h.reconciled
  | cons script rest ih =>
    refine ends_get_bind (ends_ite (fun _ ↦ ends_pure h.reconciled) fun _ ↦ ?_)
    refine ends_bind (h.runPosition hplaced.1) (fun exit t ht ↦ ?_) fun code t ht ↦ ht.1
    rcases exit with u | - | -
    · exact ih (ht.2 u rfl) hplaced.2
    · exact ends_pure ht.1
    · exact ends_pure ht.1

/-- Quiet computations keep the invariant. -/
theorem Quiet.reconciled {α : Type} {p : WorkerProgram α} (hp : Quiet p) (h : Reconciled s.ran) :
    Ends p s fun _ t ↦ Reconciled t.ran :=
  (hp s).mono fun _ _ ht ↦ ht ▸ h

/-- A cycle begins with a reconciliation. -/
theorem ready_first (h : Reconciled s.ran) : Ready s (some reconciliationWorkstream) false where
  reconciled := h
  flag := fun _ ↦ .inl rfl
  pending := fun _ _ _ ↦ .inl rfl

theorem cycleBody_reconciled (hfirst : list.head? = some reconciliationWorkstream)
    (hplaced : Placed list) (h : Reconciled s.ran) :
    Ends (cycleBody env list once cycle) s fun _ t ↦ Reconciled t.ran := by
  have hdone : ∀ (code : String) (t : WorkerState), Reconciled t.ran → Reconciled t.ran :=
    fun _ _ h ↦ h
  refine ends_bind ((quiet_persistState _ _).reconciled h) (fun _ t ht ↦ ?_) hdone
  refine ends_modify_bind ?_
  have hready : Ready { t with cycleStartedPersisted := true } list.head? false := by
    rw [hfirst]
    exact ready_first ht
  refine ends_bind (hready.runPositions hplaced) (fun exit t ht ↦ ?_) hdone
  refine ends_ite (fun _ ↦ ends_pure ht) fun _ ↦ ?_
  refine ends_get_bind (ends_ite (fun _ ↦ ends_pure ht) fun _ ↦ ?_)
  refine ends_bind ((quiet_persistState _ _).reconciled ht) (fun _ t ht ↦ ?_) hdone
  refine ends_modify_bind (ends_ite (fun _ ↦ quiet_stopWorker.reconciled ht) fun _ ↦ ends_pure ht)

theorem quiet_cycleFailure (code : String) : Quiet (cycleFailure env once cycle code) := by
  refine .ite (quiet_throw _) (quiet_get.bind fun s ↦ .ite (quiet_pure _) ?_)
  refine Quiet.bind (quiet_get.bind fun s ↦ .ite (.tryCatch ?_ fun _ ↦ quiet_pure _)
    (quiet_pure _)) fun _ ↦ .ite (quiet_throw _) (quiet_pure _)
  exact (quiet_persistState _ _).bind fun _ ↦ quiet_modify fun _ ↦ rfl

theorem runCycle_reconciled (hfirst : list.head? = some reconciliationWorkstream)
    (hplaced : Placed list) (h : Reconciled s.ran) :
    Ends (runCycle env list once cycle) s fun _ t ↦ Reconciled t.ran := by
  refine ends_modify_bind (ends_tryCatch (cycleBody_reconciled hfirst hplaced h)
    (fun _ _ h ↦ h) fun code t ht ↦ ?_)
  exact (quiet_cycleFailure code).reconciled ht

theorem runCycles_reconciled (hfirst : list.head? = some reconciliationWorkstream)
    (hplaced : Placed list) (fuel : ℕ) (h : Reconciled s.ran) :
    Ends (runCycles env list once fuel cycle) s fun _ t ↦ Reconciled t.ran := by
  induction fuel generalizing s cycle with
  | zero => exact ends_pure h
  | succ fuel ih =>
    refine ends_get_bind (ends_ite (fun _ ↦ ?_) fun _ ↦ ?_)
    · exact Quiet.reconciled (.tryCatch (quiet_persistState _ _) fun _ ↦ quiet_pure _) h
    · refine ends_bind (runCycle_reconciled hfirst hplaced h) (fun exit t ht ↦ ?_) fun _ _ ht ↦ ht
      exact ends_ite (fun _ ↦ ends_pure ht) fun _ ↦ ends_modify_bind (ih ht)

theorem main_reconciled (hfirst : list.head? = some reconciliationWorkstream)
    (hplaced : Placed list) (contractValid : Bool) (cycles : ℕ) (h : Reconciled s.ran) :
    Ends (main env list once contractValid cycles) s fun _ t ↦ Reconciled t.ran := by
  refine ends_ite (fun _ ↦ runCycles_reconciled hfirst hplaced cycles h) fun _ ↦ ?_
  refine Quiet.reconciled (Quiet.bind (.tryCatch (quiet_persistState _ _) fun _ ↦ quiet_pure _)
    fun _ ↦ ?_) h
  exact quiet_throw _

instance (script : String) (next : Option String) : Decidable (PlacedAt script next) :=
  inferInstanceAs (Decidable (_ → _))

instance decidablePlaced : DecidablePred Placed
  | [] => isTrue trivial
  | script :: rest =>
    have := decidablePlaced rest
    inferInstanceAs (Decidable (PlacedAt script rest.head? ∧ Placed rest))

theorem placed_workstreams : Placed workstreams := by decide

/-- **A workstream that may send orders runs only when the orders are resolved, and a reconciliation
is the next to run after it**, whatever the commands answer and whenever signals arrive. -/
theorem reconciled_of_main (env : Environment) (once contractValid : Bool) (cycles : ℕ) :
    Reconciled ((main env workstreams once contractValid cycles).outcome {}).2.ran := by
  refine main_reconciled rfl placed_workstreams contractValid cycles ⟨?_, List.isChain_nil⟩
  intro before c after hsplit
  exact absurd hsplit.symm (List.append_ne_nil_of_right_ne_nil _ (List.cons_ne_nil c after))

end

end Worker

end AlpacaTrading
