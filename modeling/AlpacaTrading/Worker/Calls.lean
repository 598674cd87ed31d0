import AlpacaTrading.Worker.Cycle
import Mathlib.Data.List.Basic

/-!
# What the state service refuses of the worker

The worker calls the state service with the events of its cycles, and the service accepts an event
only if it may follow the last one.  In every run of the worker the service refuses at most that a
cycle failed or that the worker stopped, and only in a cycle in which an earlier call went wrong on
its way (`refused_of_main`).

As long as every call of a cycle returned, the worker knows what is stored: between two positions
the cycle's start or a completed workstream is the last event (`AtHead`).  When a call fails the
worker only ends the cycle, and what it stores for that is all that may be refused.
-/

namespace AlpacaTrading

namespace Worker

open Throwing

/-! ## The service -/

/-- The rule by which calls are accepted here is the service's, for the event that is the latest of
the cycle. -/
theorem checkTransition_iff_accepts (db : WorkerDb) (input : AutonomousWorkerStateInput) :
    checkTransition db input = .ok () ↔
      accepts ((db.previous input.cycleId).map fun e ↦ (e.eventType, e.workstream))
        input.eventType (some input.workstreamName) = true := by
  rw [checkTransition, bind_eq_ok, accepts, decide_eq_true_iff]
  simp only [require_eq_ok, decide_eq_true_iff, exists_const, Option.map_map]
  rcases db.previous input.cycleId with - | e
  · simp
  · simp

/-! ## Refused calls -/

/-- A call of a cycle went wrong. -/
def Faulted (trace : List Entry) (cycle : ℕ) : Prop :=
  ∃ eventType accepted fault, Entry.call cycle eventType accepted fault ∈ trace ∧ fault ≠ .none

/-- The events that end a cycle without its completion. -/
def AutonomousWorkerEventType.abandons (eventType : AutonomousWorkerEventType) : Prop :=
  eventType = .cycleFailed ∨ eventType = .workerStopped

/-- Only the end of a cycle is refused, and only after a call of the cycle that went wrong. -/
def OnlyEndsRefused (trace : List Entry) : Prop :=
  ∀ before cycle eventType fault after,
    trace = before ++ Entry.call cycle eventType false fault :: after →
      eventType.abandons ∧ Faulted before cycle

section

variable {env : Environment} {cycle : ℕ} {s t : WorkerState} {trace : List Entry} {e : Entry}
  {eventType : AutonomousWorkerEventType} {name script : String}

theorem Faulted.append (h : Faulted trace cycle) (later : List Entry) :
    Faulted (trace ++ later) cycle := by
  obtain ⟨eventType, accepted, fault, hmem, hfault⟩ := h
  exact ⟨eventType, accepted, fault, List.mem_append_left _ hmem, hfault⟩

theorem OnlyEndsRefused.append (h : OnlyEndsRefused trace)
    (he : ∀ cycle eventType fault, e = .call cycle eventType false fault →
      eventType.abandons ∧ Faulted trace cycle) : OnlyEndsRefused (trace ++ [e]) := by
  intro before cycle eventType fault after hsplit
  rcases List.eq_nil_or_concat' after with rfl | ⟨init, last, rfl⟩
  · obtain ⟨rfl, hcall⟩ := List.append_inj' hsplit rfl
    exact he cycle eventType fault (List.singleton_inj.1 hcall)
  · refine h before cycle eventType fault init ?_
    rw [← List.cons_append, ← List.append_assoc] at hsplit
    exact (List.append_inj' hsplit rfl).1

/-! ## Calls -/

/-- What is known after a call that the service accepts. -/
structure Accepted (s : WorkerState) (cycle : ℕ) (eventType : AutonomousWorkerEventType)
    (name : String) (r : Except String Unit) (t : WorkerState) : Prop where
  refused : OnlyEndsRefused t.trace
  stored : r = .ok () → t.stored = s.stored ++ [(eventType, name)]
  faulted : ∀ code, r = .error code → Faulted t.trace cycle

theorem ends_accepted (h : OnlyEndsRefused s.trace)
    (haccepts : accepts s.stored.getLast? eventType name = true) :
    Ends (persistState env cycle eventType name) s (Accepted s cycle eventType name) := by
  have hentry : OnlyEndsRefused (s.called env cycle eventType name).trace := by
    refine h.append fun cycle' eventType' fault hcall ↦ ?_
    injection hcall with _ _ haccepted _
    exact nomatch haccepts.symm.trans haccepted
  refine ⟨hentry, fun hok ↦ ?_, fun code herror ↦ ?_⟩
  · have hanswer : s.answer env eventType name = .ok () := hok
    rw [WorkerState.answer] at hanswer
    have hstored : (s.called env cycle eventType name).stored =
        s.stored ++ [(eventType, name)] := by
      rw [WorkerState.called, haccepts]
      rcases hfault : env.fault s.trace.length with - | code | code
      · rfl
      · rfl
      · rw [hfault] at hanswer
        cases hanswer
    exact hstored
  · have hanswer : s.answer env eventType name = .error code := herror
    rw [WorkerState.answer, if_pos haccepts] at hanswer
    refine ⟨eventType, accepts s.stored.getLast? eventType name, env.fault s.trace.length, ?_,
      fun hnone ↦ ?_⟩
    · exact List.mem_append_right _ (List.mem_singleton_self _)
    · rw [hnone] at hanswer
      cases hanswer

/-- What is known after any other call of an end, in a cycle in which a call went wrong. -/
theorem ends_abandoned (h : OnlyEndsRefused s.trace) (habandons : eventType.abandons)
    (hfaulted : Faulted s.trace cycle) :
    Ends (persistState env cycle eventType name) s fun _ t ↦
      OnlyEndsRefused t.trace ∧ Faulted t.trace cycle := by
  refine ⟨h.append fun cycle' eventType' fault hcall ↦ ?_, hfaulted.append _⟩
  injection hcall with hcycle htype _ _
  exact ⟨htype ▸ habandons, hcycle ▸ hfaulted⟩

theorem ends_workstream (h : OnlyEndsRefused s.trace) :
    Ends (runWorkstream env script) s fun r t ↦ (∃ result, r = .ok result) ∧
      OnlyEndsRefused t.trace ∧ t.stored = s.stored := by
  have htrace : OnlyEndsRefused (s.after env script).trace :=
    h.append fun _ _ _ hcall ↦ by cases hcall
  exact ⟨⟨_, rfl⟩, htrace, rfl⟩

/-! ## Positions -/

/-- Between two positions. -/
def AtHead (t : WorkerState) : Prop :=
  ∃ n, t.stored.getLast? = some n ∧ (n.1 = .cycleStarted ∨ n.1 = .workstreamCompleted)

/-- After a position. -/
def AfterPosition (t : WorkerState) : Prop :=
  ∃ name, t.stored.getLast? = some (.workstreamCompleted, name)

theorem AfterPosition.atHead (h : AfterPosition t) : AtHead t := by
  obtain ⟨name, hlast⟩ := h
  exact ⟨_, hlast, .inr rfl⟩

/-- The worker's stop would be accepted. -/
def StopAllowed (t : WorkerState) : Prop :=
  accepts t.stored.getLast? .workerStopped "" = true

/-- What is known after a part of a cycle. -/
def AfterPart (cycle : ℕ) : Except String Exit → WorkerState → Prop
  | .ok .returned, t => OnlyEndsRefused t.trace
  | .ok .stopped, t => OnlyEndsRefused t.trace ∧ AtHead t ∧ t.stopRequested = true
  | .ok (.next _), t => OnlyEndsRefused t.trace ∧ AfterPosition t
  | .error _, t => OnlyEndsRefused t.trace ∧
    (Faulted t.trace cycle ∨ t.cycleTerminalPersisted = true ∧ StopAllowed t)

theorem Accepted.afterPart {r : Except String Unit} {code : String}
    (h : Accepted s cycle eventType name r t) (hr : r = .error code) :
    AfterPart cycle (.error code) t := ⟨h.refused, .inl (h.faulted code hr)⟩

theorem Accepted.last {r : Except String Unit} (h : Accepted s cycle eventType name r t)
    (hr : r = .ok ()) : t.stored.getLast? = some (eventType, name) := by
  rw [h.stored hr, List.getLast?_concat]

/-- The events after which the worker's stop is accepted. -/
theorem stopAllowed_of_last (hn : t.stored.getLast? = some (eventType, name))
    (hallowed : allowedTransition (some eventType) .workerStopped = true) : StopAllowed t := by
  rw [StopAllowed, hn]
  simp [accepts, hallowed]

theorem AtHead.stopAllowed (h : AtHead t) : StopAllowed t := by
  obtain ⟨⟨type, name⟩, hn, rfl | rfl⟩ := h
  · exact stopAllowed_of_last hn rfl
  · exact stopAllowed_of_last hn rfl

theorem stopWorker_calls (h : OnlyEndsRefused s.trace) (hstop : StopAllowed s) :
    Ends (stopWorker env cycle) s fun r t ↦ AfterPart cycle r t ∧ ∀ e, r = .ok e → e = .returned := by
  refine ends_bind (ends_accepted h hstop) (fun _ t ht ↦ ?_) fun code t ht ↦ ?_
  · exact ends_pure ⟨ht.refused, fun e he ↦ (Except.ok.inj he).symm⟩
  · exact ⟨ht.afterPart rfl, fun e he ↦ by cases he⟩

/-- The last event is the start of the position's workstream. -/
def InPosition (t : WorkerState) (script : String) : Prop :=
  OnlyEndsRefused t.trace ∧ t.stored.getLast? = some (.workstreamStarted, script)

theorem settle_calls (h : InPosition s script) (result : WorkstreamResult) (unresolved : Bool) :
    Ends (settle env cycle script result unresolved) s (AfterPart cycle) := by
  obtain ⟨hrefused, hlast⟩ := h
  refine ends_get_bind (ends_ite (fun _ ↦ ?_) fun _ ↦ ends_ite (fun _ ↦ ?_) fun _ ↦ ?_)
  · have hstop : StopAllowed s := stopAllowed_of_last hlast rfl
    exact (stopWorker_calls hrefused hstop).mono fun _ _ h ↦ h.1
  · have haccepts : accepts s.stored.getLast? .workstreamFailed script = true := by
      rw [hlast]
      simp [accepts, allowedTransition]
    refine ends_bind (ends_accepted hrefused haccepts) (fun _ t ht ↦ ?_) fun _ _ ht ↦ ht.afterPart rfl
    have hfailed : accepts t.stored.getLast? .cycleFailed "" = true := by
      rw [ht.last rfl]
      simp [accepts, allowedTransition]
    refine ends_bind (ends_accepted ht.refused hfailed) (fun _ u hu ↦ ?_)
      fun _ _ hu ↦ hu.afterPart rfl
    refine ends_modify_bind (ends_throw ⟨hu.refused, .inr ⟨rfl, ?_⟩⟩)
    exact stopAllowed_of_last (hu.last rfl) rfl
  · have haccepts : accepts s.stored.getLast? .workstreamCompleted script = true := by
      rw [hlast]
      simp [accepts, allowedTransition]
    refine ends_bind (ends_accepted hrefused haccepts) (fun _ t ht ↦ ?_) fun _ _ ht ↦ ht.afterPart rfl
    exact ends_pure ⟨ht.refused, script, ht.last rfl⟩

theorem positionResult_calls (h : InPosition s script) (skipped : Bool) :
    Ends (positionResult env script skipped) s fun r t ↦
      (∃ result, r = .ok result) ∧ InPosition t script := by
  refine ends_ite (fun _ ↦ ends_pure ⟨⟨_, rfl⟩, h⟩) fun _ ↦ ?_
  refine (ends_workstream h.1).mono fun r t ht ↦ ⟨ht.1, ht.2.1, ?_⟩
  rw [ht.2.2]
  exact h.2

theorem runPosition_calls (h : OnlyEndsRefused s.trace) (hhead : AtHead s) (next : Option String)
    (unresolved : Bool) :
    Ends (runPosition env cycle script next unresolved) s (AfterPart cycle) := by
  have haccepts : accepts s.stored.getLast? .workstreamStarted script = true := by
    obtain ⟨⟨type, name⟩, hn, rfl | rfl⟩ := hhead
    · simp [hn, accepts, allowedTransition]
    · simp [hn, accepts, allowedTransition]
  refine ends_bind (ends_accepted h haccepts) (fun _ t ht ↦ ?_) fun _ _ ht ↦ ht.afterPart rfl
  have hposition : InPosition t script := ⟨ht.refused, ht.last rfl⟩
  refine ends_get_bind (ends_ite (fun _ ↦ ?_) fun _ ↦ ?_)
  · have hstop : StopAllowed t := stopAllowed_of_last (ht.last rfl) rfl
    exact (stopWorker_calls ht.refused hstop).mono fun _ _ h ↦ h.1
  · have herror : ∀ (code : String) (u : WorkerState),
        (∃ result : WorkstreamResult, Except.error code = .ok result) ∧ InPosition u script →
        AfterPart cycle (.error code) u := by
      rintro code u ⟨⟨result, hresult⟩, -⟩
      cases hresult
    refine ends_bind (positionResult_calls hposition _) (fun result u hu ↦ ?_) herror
    refine ends_ite (fun _ ↦ ?_) fun _ ↦ settle_calls hu.2 _ _
    refine ends_bind (R := fun r v ↦ (∃ result, r = .ok result) ∧ InPosition v script) ?_
      (fun internal v hv ↦ settle_calls hv.2 _ _) herror
    refine (ends_workstream hu.2.1).mono fun r v hv ↦ ⟨hv.1, hv.2.1, ?_⟩
    rw [hv.2.2]
    exact hu.2.2

theorem runPositions_calls {list : List String} {unresolved : Bool} (h : OnlyEndsRefused s.trace)
    (hhead : AtHead s) (hnil : list = [] → AfterPosition s) :
    Ends (runPositions env cycle list unresolved) s (AfterPart cycle) := by
  induction list generalizing s unresolved with
  | nil => exact ends_pure ⟨h, hnil rfl⟩
  | cons script rest ih =>
    refine ends_get_bind (ends_ite (fun hstop ↦ ends_pure ⟨h, hhead, hstop⟩) fun _ ↦ ?_)
    refine ends_bind (runPosition_calls h hhead _ _) (fun exit t ht ↦ ?_) fun _ _ ht ↦ ht
    rcases exit with u | - | -
    · exact ih ht.1 ht.2.atHead fun _ ↦ ht.2
    · exact ends_pure ht
    · exact ends_pure ht

/-! ## Cycles -/

variable {list : List String} {once : Bool}

/-- What is known when a cycle ended or something failed in it. -/
def AfterBody (cycle : ℕ) : Except String Exit → WorkerState → Prop
  | .ok .returned, t => OnlyEndsRefused t.trace
  | .ok _, t => OnlyEndsRefused t.trace ∧ StopAllowed t
  | .error _, t => OnlyEndsRefused t.trace ∧
    (Faulted t.trace cycle ∨ t.cycleTerminalPersisted = true ∧ StopAllowed t)

theorem cycleBody_calls (hlist : list ≠ []) (h : OnlyEndsRefused s.trace)
    (hstored : s.stored = []) :
    Ends (cycleBody env list once cycle) s (AfterBody cycle) := by
  have haccepts : accepts s.stored.getLast? .cycleStarted "" = true := by
    rw [hstored]
    rfl
  refine ends_bind (ends_accepted h haccepts) (fun _ t ht ↦ ?_) fun _ _ ht ↦ ht.afterPart rfl
  refine ends_modify_bind ?_
  have hhead : AtHead { t with cycleStartedPersisted := true } := ⟨_, ht.last rfl, .inl rfl⟩
  refine ends_bind (runPositions_calls ht.refused hhead fun hnil ↦ absurd hnil hlist)
    (fun exit u hu ↦ ?_) fun _ _ hu ↦ hu
  rcases exit with unresolved | - | -
  · -- All positions are done.
    obtain ⟨hrefused, name, hlast⟩ := hu
    refine ends_ite (fun hexit ↦ by cases hexit) fun _ ↦ ends_get_bind ?_
    refine ends_ite (fun _ ↦ ?_) fun _ ↦ ?_
    · exact ends_pure ⟨hrefused, stopAllowed_of_last hlast rfl⟩
    · have hcompleted : accepts u.stored.getLast? .cycleCompleted "" = true := by
        simp [hlast, accepts, allowedTransition]
      refine ends_bind (ends_accepted hrefused hcompleted) (fun _ v hv ↦ ?_)
        fun _ _ hv ↦ hv.afterPart rfl
      have hstop : StopAllowed { v with cycleTerminalPersisted := true } :=
        stopAllowed_of_last (hv.last rfl) rfl
      refine ends_modify_bind (ends_ite (fun _ ↦ ?_) fun _ ↦ ends_pure ⟨hv.refused, hstop⟩)
      have hcalls : Ends (stopWorker env cycle) { v with cycleTerminalPersisted := true } _ :=
        stopWorker_calls hv.refused hstop
      refine hcalls.mono fun r w hw ↦ ?_
      rcases r with code | exit
      · exact hw.1
      · obtain rfl := hw.2 exit rfl
        exact hw.1
  · refine ends_ite (fun hexit ↦ by cases hexit) fun _ ↦ ends_get_bind (ends_ite (fun _ ↦ ?_) ?_)
    · exact ends_pure ⟨hu.1, hu.2.1.stopAllowed⟩
    · exact fun hstop ↦ absurd hu.2.2 hstop
  · exact ends_ite (fun _ ↦ ends_pure hu) fun hexit ↦ absurd rfl hexit

/-- What is known after a cycle. -/
def AfterCycle (cycle : ℕ) : Except String Exit → WorkerState → Prop
  | .ok .returned, t => OnlyEndsRefused t.trace
  | .ok _, t => OnlyEndsRefused t.trace ∧ (Faulted t.trace cycle ∨ StopAllowed t)
  | .error _, t => OnlyEndsRefused t.trace

theorem failCycle_calls (h : OnlyEndsRefused s.trace)
    (hcase : Faulted s.trace cycle ∨ s.cycleTerminalPersisted = true ∧ StopAllowed s) :
    Ends (failCycle env cycle) s fun _ t ↦
      OnlyEndsRefused t.trace ∧ (Faulted t.trace cycle ∨ StopAllowed t) := by
  refine ends_get_bind (ends_ite (fun hopen ↦ ?_) fun _ ↦ ?_)
  · rcases hcase with hfaulted | ⟨hterminal, -⟩
    · refine ends_tryCatch (R := fun _ t ↦ OnlyEndsRefused t.trace ∧ Faulted t.trace cycle) ?_
        (fun _ _ ht ↦ ⟨ht.1, .inl ht.2⟩) fun _ _ ht ↦ ends_pure ⟨ht.1, .inl ht.2⟩
      exact ends_bind (ends_abandoned h (.inl rfl) hfaulted) (fun _ t ht ↦ ends_modify ht)
        fun _ _ ht ↦ ht
    · exact absurd hterminal hopen.2
  · exact ends_pure ⟨h, hcase.imp_right And.right⟩

theorem cycleFailure_calls (code : String) (h : OnlyEndsRefused s.trace)
    (hcase : Faulted s.trace cycle ∨ s.cycleTerminalPersisted = true ∧ StopAllowed s) :
    Ends (cycleFailure env once cycle code) s (AfterCycle cycle) := by
  refine ends_ite (fun _ ↦ ends_throw h) fun _ ↦ ends_get_bind (ends_ite (fun _ ↦ ?_) fun _ ↦ ?_)
  · exact ends_pure ⟨h, hcase.imp_right And.right⟩
  · refine ends_bind (failCycle_calls h hcase) (fun _ t ht ↦ ?_) fun _ _ ht ↦ ht.1
    exact ends_ite (fun _ ↦ ends_throw ht.1) fun _ ↦ ends_pure ht

theorem runCycle_calls (hlist : list ≠ []) (h : OnlyEndsRefused s.trace) :
    Ends (runCycle env list once cycle) s (AfterCycle cycle) := by
  refine ends_modify_bind (ends_tryCatch (cycleBody_calls hlist h rfl) (fun exit t ht ↦ ?_)
    fun code t ht ↦ cycleFailure_calls code ht.1 ht.2)
  rcases exit with u | - | -
  · exact ⟨ht.1, .inr ht.2⟩
  · exact ⟨ht.1, .inr ht.2⟩
  · exact ht

/-- The stop after the last cycle. -/
theorem lastStop_calls (h : OnlyEndsRefused s.trace)
    (hcase : Faulted s.trace cycle ∨ StopAllowed s) :
    Ends (tryCatch (persistState env cycle .workerStopped) fun _ ↦ pure ()) s
      fun _ t ↦ OnlyEndsRefused t.trace := by
  refine ends_tryCatch (R := fun _ t ↦ OnlyEndsRefused t.trace) ?_ (fun _ _ h ↦ h)
    fun _ _ h ↦ ends_pure h
  rcases hcase with hfaulted | hstop
  · exact (ends_abandoned h (.inr rfl) hfaulted).mono fun _ _ ht ↦ ht.1
  · exact (ends_accepted h hstop).mono fun _ _ ht ↦ ht.refused

theorem runCycles_calls (hlist : list ≠ []) (fuel : ℕ) (h : OnlyEndsRefused s.trace)
    (hcase : s.stopRequested = true →
      Faulted s.trace (max 1 cycle) ∨ StopAllowed s) :
    Ends (runCycles env list once fuel cycle) s fun _ t ↦ OnlyEndsRefused t.trace := by
  induction fuel generalizing s cycle with
  | zero => exact ends_pure h
  | succ fuel ih =>
    refine ends_get_bind (ends_ite (fun hstop ↦ lastStop_calls h (hcase hstop)) fun _ ↦ ?_)
    refine ends_bind (runCycle_calls hlist h) (fun exit t ht ↦ ?_) fun _ _ ht ↦ ht
    refine ends_ite (fun hreturned ↦ ?_) fun hexit ↦ ends_modify_bind ?_
    · subst hreturned
      exact ends_pure ht
    · have hafter : OnlyEndsRefused t.trace ∧ (Faulted t.trace (cycle + 1) ∨ StopAllowed t) := by
        rcases exit with u | - | -
        · exact ht
        · exact ht
        · exact absurd rfl hexit
      refine ih hafter.1 fun _ ↦ ?_
      rw [max_eq_right (Nat.le_add_left 1 cycle)]
      exact hafter.2

/-- **The state service refuses the worker nothing but the end of a cycle**, and that only in a cycle
in which a call went wrong before. -/
theorem refused_of_main (env : Environment) (once contractValid : Bool) (cycles : ℕ) :
    OnlyEndsRefused ((main env workstreams once contractValid cycles).outcome {}).2.trace := by
  have hempty : OnlyEndsRefused ({} : WorkerState).trace := fun before cycle eventType fault after h ↦
    absurd h.symm (List.append_ne_nil_of_right_ne_nil _ (List.cons_ne_nil _ after))
  have hmain : Ends (main env workstreams once contractValid cycles) {}
      fun _ t ↦ OnlyEndsRefused t.trace := by
    refine ends_ite (fun _ ↦ ?_) fun _ ↦ ?_
    · exact runCycles_calls (by decide) cycles hempty fun hstop ↦ by cases hstop
    · have hcall : Ends (tryCatch (persistState env 1 .preflightFailed) fun _ ↦ pure ()) {}
          fun _ t ↦ OnlyEndsRefused t.trace :=
        ends_tryCatch ((ends_accepted hempty rfl).mono fun _ _ ht ↦ ht.refused) (fun _ _ h ↦ h)
          fun _ _ h ↦ ends_pure h
      exact ends_bind hcall (fun _ _ ht ↦ ends_throw ht) fun _ _ ht ↦ ht
  exact hmain

end

end Worker

end AlpacaTrading
