import Mathlib.Logic.Relation

/-!
# Runs of a machine

A machine is a partial step function on states, one action at a time.  A run is a list of actions
that all succeed.

## Invariants

`invariant_of_run` is the rule for a property every step keeps.  `invariant_of_guarded` is the
rule for a property that a step keeps only when its action meets a guard in the state before it:
the guard is then required of every step of the run.
-/

namespace AlpacaTrading

section Machine

variable {σ α : Type*} {step : α → σ → Option σ} {guard : σ → α → Prop} {I : σ → Prop}

/-- The state after a list of actions, if all of them succeed. -/
def runActs (step : α → σ → Option σ) : σ → List α → Option σ
  | s, [] => some s
  | s, a :: rest => (step a s).bind fun s' ↦ runActs step s' rest

/-- Every action of a run meets the guard in the state it is taken in. -/
def Guarded (step : α → σ → Option σ) (guard : σ → α → Prop) : σ → List α → Prop
  | _, [] => True
  | s, a :: rest => guard s a ∧ ∀ s', step a s = some s' → Guarded step guard s' rest

theorem runActs_cons {s s' : σ} {a : α} {rest : List α} :
    runActs step s (a :: rest) = some s' ↔
      ∃ t, step a s = some t ∧ runActs step t rest = some s' :=
  Option.bind_eq_some_iff

theorem runActs_append (s : σ) (acts later : List α) :
    runActs step s (acts ++ later) = (runActs step s acts).bind fun t ↦ runActs step t later := by
  induction acts generalizing s with
  | nil => rfl
  | cons a rest ih =>
    rw [List.cons_append, runActs, runActs, Option.bind_assoc]
    exact congrArg _ (funext fun t ↦ ih t)

/-- **Guarded invariants.** -/
theorem invariant_of_guarded
    (hstep : ∀ s a s', I s → guard s a → step a s = some s' → I s') {s s' : σ} {acts : List α}
    (hinit : I s) (hguard : Guarded step guard s acts) (hrun : runActs step s acts = some s') :
    I s' := by
  -- Induction over the actions, with the state generalised.
  induction acts generalizing s with
  | nil =>
    obtain rfl : s = s' := Option.some_inj.1 hrun
    exact hinit
  | cons a rest ih =>
    obtain ⟨t, ht, hrest⟩ := runActs_cons.1 hrun
    obtain ⟨ha, hlater⟩ := hguard
    exact ih (hstep s a t hinit ha ht) (hlater t ht) hrest

/-- Guards that can be decided can be decided along a run. -/
instance decidableGuarded [∀ s a, Decidable (guard s a)] :
    ∀ (s : σ) (acts : List α), Decidable (Guarded step guard s acts)
  | _, [] => isTrue trivial
  | s, a :: rest =>
    match h : step a s with
    | none => decidable_of_iff (guard s a) ⟨fun ha ↦ ⟨ha, fun _ h' ↦ by simp [h] at h'⟩, And.left⟩
    | some t =>
      have := decidableGuarded t rest
      decidable_of_iff (guard s a ∧ Guarded step guard t rest)
        ⟨fun ha ↦ ⟨ha.1, fun _ h' ↦ Option.some_inj.1 (h.symm.trans h') ▸ ha.2⟩,
          fun ha ↦ ⟨ha.1, ha.2 t h⟩⟩

/-- A guard that some actions meet in every state. -/
theorem guarded_of_forall (s : σ) {acts : List α} (h : ∀ a ∈ acts, ∀ s, guard s a) :
    Guarded step guard s acts := by
  induction acts generalizing s with
  | nil => exact trivial
  | cons a rest ih =>
    exact ⟨h a List.mem_cons_self s, fun s' _ ↦ ih s' fun b hb ↦ h b (List.mem_cons_of_mem _ hb)⟩

theorem Guarded.mono {weaker : σ → α → Prop} {s : σ} {acts : List α}
    (h : Guarded step guard s acts) (himp : ∀ s a, guard s a → weaker s a) :
    Guarded step weaker s acts := by
  induction acts generalizing s with
  | nil => exact trivial
  | cons a rest ih => exact ⟨himp s a h.1, fun s' hs' ↦ ih (h.2 s' hs')⟩

/-- A property of the steps that an invariant gives for every step that meets the guard. -/
theorem Guarded.of_invariant {other : σ → α → Prop} {s : σ} {acts : List α}
    (h : Guarded step guard s acts)
    (hstep : ∀ s a s', I s → guard s a → step a s = some s' → I s')
    (hother : ∀ s a, I s → guard s a → other s a) (hinit : I s) :
    Guarded step other s acts := by
  induction acts generalizing s with
  | nil => exact trivial
  | cons a rest ih =>
    refine ⟨hother s a hinit h.1, fun s' hs' ↦ ?_⟩
    exact ih (h.2 s' hs') (hstep s a s' hinit h.1 hs')

/-- The guard along a run and along what follows it. -/
theorem Guarded.append {s t : σ} {acts later : List α}
    (h : Guarded step guard s (acts ++ later)) (hrun : runActs step s acts = some t) :
    Guarded step guard s acts ∧ Guarded step guard t later := by
  induction acts generalizing s with
  | nil =>
    obtain rfl : s = t := Option.some_inj.1 hrun
    exact ⟨trivial, h⟩
  | cons a rest ih =>
    obtain ⟨u, hu, hrest⟩ := runActs_cons.1 hrun
    refine ⟨⟨h.1, fun s' hs' ↦ ?_⟩, (ih (h.2 u hu) hrest).2⟩
    obtain rfl := Option.some_inj.1 (hu.symm.trans hs')
    exact (ih (h.2 u hu) hrest).1

/-- Two guards along one run. -/
theorem Guarded.and {other : σ → α → Prop} {s : σ} {acts : List α}
    (h : Guarded step guard s acts) (hother : Guarded step other s acts) :
    Guarded step (fun s a ↦ guard s a ∧ other s a) s acts := by
  induction acts generalizing s with
  | nil => exact trivial
  | cons a rest ih =>
    exact ⟨⟨h.1, hother.1⟩, fun s' hs' ↦ ih (h.2 s' hs') (hother.2 s' hs')⟩

/-- A guard that every state of a run meets. -/
theorem guarded_of_reached {s : σ} {acts : List α}
    (h : ∀ before a after t, acts = before ++ a :: after →
      runActs step s before = some t → guard t a) : Guarded step guard s acts := by
  -- Induction over the actions: what is reached from the next state is reached from this one.
  induction acts generalizing s with
  | nil => trivial
  | cons a rest ih =>
    refine ⟨h [] a rest s rfl rfl, fun s' hstep ↦ ih fun before b after t hrest hbefore ↦ ?_⟩
    refine h (a :: before) b after t (congrArg (a :: ·) hrest) ?_
    exact runActs_cons.2 ⟨s', hstep, hbefore⟩

/-- **Invariants.** -/
theorem invariant_of_run (hstep : ∀ s a s', I s → step a s = some s' → I s') {s s' : σ}
    {acts : List α} (hinit : I s) (hrun : runActs step s acts = some s') : I s' := by
  have hguard : Guarded step (fun _ _ ↦ True) s acts := guarded_of_forall s fun _ _ _ ↦ trivial
  exact invariant_of_guarded (fun s a s' hI _ ↦ hstep s a s' hI) hinit hguard hrun

end Machine

/-! ## Relations -/

/-- A property one step of a relation keeps is kept by every sequence of steps. -/
theorem invariant_of_steps {σ : Type*} {R : σ → σ → Prop} {I : σ → Prop}
    (hstep : ∀ s s', I s → R s s' → I s') {s s' : σ} (h : Relation.ReflTransGen R s s')
    (hinit : I s) : I s' := by
  induction h with
  | refl => exact hinit
  | tail _ hlast ih => exact hstep _ _ ih hlast

end AlpacaTrading
