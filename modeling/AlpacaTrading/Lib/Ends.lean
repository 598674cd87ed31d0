import Mathlib.Logic.Basic

/-!
# How a computation ends

Postconditions for computations that have a state and may throw.  `Ends p s Q` says that `p`, begun
in the state `s`, ends in a result and a state that satisfy `Q`; a computation always ends, so this
is partial and total correctness in one.

There is one rule for each way to build a computation.  A rule for a sequence asks for a condition
on its first part that gives the rest; `Ends.mono` is the rule of consequence.
-/

namespace AlpacaTrading

/-- A computation on states of type `σ` that may throw an error of type `ε`. -/
abbrev Throwing (ε σ α : Type) := ExceptT ε (StateM σ) α

namespace Throwing

variable {ε σ α β : Type} {p : Throwing ε σ α} {s : σ} {Q R : Except ε α → σ → Prop}

/-- The result and the state in which a computation ends. -/
def outcome (p : Throwing ε σ α) (s : σ) : Except ε α × σ := StateT.run (ExceptT.run p) s

/-- A computation ends in a result and a state that satisfy a condition. -/
def Ends (p : Throwing ε σ α) (s : σ) (Q : Except ε α → σ → Prop) : Prop :=
  Q (p.outcome s).1 (p.outcome s).2

theorem Ends.mono (h : Ends p s R) (himp : ∀ r t, R r t → Q r t) : Ends p s Q := himp _ _ h

theorem Ends.and (h : Ends p s Q) (h' : Ends p s R) : Ends p s fun r t ↦ Q r t ∧ R r t := ⟨h, h'⟩

theorem ends_pure {a : α} (h : Q (.ok a) s) : Ends (pure a) s Q := h

theorem ends_throw {e : ε} (h : Q (.error e) s) : Ends (throw e) s Q := h

theorem ends_get {Q : Except ε σ → σ → Prop} (h : Q (.ok s) s) : Ends get s Q := h

theorem ends_modify {f : σ → σ} {Q : Except ε Unit → σ → Prop} (h : Q (.ok ()) (f s)) :
    Ends (modify f) s Q := h

theorem outcome_bind (p : Throwing ε σ α) (f : α → Throwing ε σ β) (s : σ) :
    outcome (p >>= f) s =
      match p.outcome s with
      | (.ok a, t) => (f a).outcome t
      | (.error e, t) => (.error e, t) := by
  have hbind : outcome (p >>= f) s =
      (ExceptT.bindCont f (p.outcome s).1 : StateM σ (Except ε β)) (p.outcome s).2 := rfl
  rw [hbind]
  rcases p.outcome s with ⟨e | a, t⟩ <;> rfl

/-- A sequence. -/
theorem ends_bind {f : α → Throwing ε σ β} {Q : Except ε β → σ → Prop} (hp : Ends p s R)
    (hok : ∀ a t, R (.ok a) t → Ends (f a) t Q) (herror : ∀ e t, R (.error e) t → Q (.error e) t) :
    Ends (p >>= f) s Q := by
  rw [Ends, outcome_bind]
  rw [Ends] at hp
  rcases houtcome : p.outcome s with ⟨e | a, t⟩
  · rw [houtcome] at hp
    exact herror e t hp
  · rw [houtcome] at hp
    exact hok a t hp

theorem ends_get_bind {f : σ → Throwing ε σ β} {Q : Except ε β → σ → Prop}
    (h : Ends (f s) s Q) : Ends (get >>= f) s Q := by
  rw [Ends, outcome_bind]
  exact h

theorem ends_modify_bind {g : σ → σ} {f : Unit → Throwing ε σ β} {Q : Except ε β → σ → Prop}
    (h : Ends (f ()) (g s) Q) : Ends (modify g >>= f) s Q := by
  rw [Ends, outcome_bind]
  exact h

theorem ends_ite {c : Prop} [Decidable c] {q : Throwing ε σ α} (hp : c → Ends p s Q)
    (hq : ¬c → Ends q s Q) : Ends (if c then p else q) s Q := by
  by_cases h : c
  · rw [if_pos h]
    exact hp h
  · rw [if_neg h]
    exact hq h

/-- What a handler does with the outcome of a computation. -/
def handled (handler : ε → Throwing ε σ α) : Except ε α × σ → Except ε α × σ
  | (.ok a, t) => (.ok a, t)
  | (.error e, t) => (handler e).outcome t

theorem outcome_tryCatch (p : Throwing ε σ α) (handler : ε → Throwing ε σ α) (s : σ) :
    outcome (tryCatch p handler) s = handled handler (p.outcome s) := by
  have hcatch : outcome (tryCatch p handler) s =
      ((match (p.outcome s).1 with
        | .ok a => pure (.ok a)
        | .error e => ExceptT.run (handler e) : StateM σ (Except ε α)) (p.outcome s).2) := rfl
  rw [hcatch]
  rcases p.outcome s with ⟨e | a, t⟩ <;> rfl

/-- A handler takes over where an error is thrown. -/
theorem ends_tryCatch {handler : ε → Throwing ε σ α} (hp : Ends p s R)
    (hok : ∀ a t, R (.ok a) t → Q (.ok a) t)
    (herror : ∀ e t, R (.error e) t → Ends (handler e) t Q) : Ends (tryCatch p handler) s Q := by
  rw [Ends, outcome_tryCatch]
  rw [Ends] at hp
  rcases houtcome : p.outcome s with ⟨e | a, t⟩
  · rw [houtcome] at hp
    exact herror e t hp
  · rw [houtcome] at hp
    exact hok a t hp

end Throwing

end AlpacaTrading
