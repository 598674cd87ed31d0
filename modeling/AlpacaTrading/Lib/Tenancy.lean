import Mathlib.Data.List.Basic

/-!
# Tenants of one resource

A log of tenants who enter a place, work in it and are confirmed.  A tenant enters once, and is
confirmed only while nobody has entered after it; that a tenant has lost the place is not noted, and
it may go on working.  So the work of two tenants may be mixed.

What is never mixed is the work of two tenants that was all confirmed afterwards
(`Tenancy.Lawful.serial`).  For a work of each after one of the other, the later confirmation of
either shows that it entered last.
-/

namespace AlpacaTrading

namespace Tenancy

variable {τ : Type*}

inductive Entry (τ : Type*) where
  | entered (t : τ)
  | worked (t : τ)
  | confirmed (t : τ)
deriving DecidableEq

/-- Whose entry it is. -/
def Entry.tenant : Entry τ → τ
  | entered t | worked t | confirmed t => t

open Entry

variable {log : List (Entry τ)} {e x y : Entry τ} {p q t : τ}

/-- The tenant who entered last. -/
def holder (log : List (Entry τ)) : Option τ :=
  log.foldl (fun
    | _, entered t => some t
    | last, _ => last) none

@[simp] theorem holder_entered : holder (log ++ [entered t]) = some t := by
  simp [holder]

@[simp] theorem holder_worked : holder (log ++ [worked t]) = holder log := by
  simp [holder]

@[simp] theorem holder_confirmed : holder (log ++ [confirmed t]) = holder log := by
  simp [holder]

/-- The logs that can be written. -/
inductive Lawful : List (Entry τ) → Prop
  | nil : Lawful []
  | enter {log : List (Entry τ)} {t : τ} (h : Lawful log) (hnew : entered t ∉ log) :
    Lawful (log ++ [entered t])
  | work {log : List (Entry τ)} {t : τ} (h : Lawful log) (hin : entered t ∈ log) :
    Lawful (log ++ [worked t])
  | confirm {log : List (Entry τ)} {t : τ} (h : Lawful log) (hholder : holder log = some t) :
    Lawful (log ++ [confirmed t])

/-- Whatever was before a work of the tenant was before a confirmation of it. -/
def Confirmed (log : List (Entry τ)) (p : τ) : Prop :=
  ∀ x, [x, worked p].Sublist log → [x, confirmed p].Sublist log

/-- One of the two tenants has done all its work before the other. -/
def Serial (log : List (Entry τ)) (p q : τ) : Prop :=
  ¬[worked q, worked p].Sublist log ∨ ¬[worked p, worked q].Sublist log

instance [DecidableEq τ] : Decidable (Serial log p q) :=
  inferInstanceAs (Decidable (¬_ ∨ ¬_))

theorem pair_sublist_concat :
    [x, y].Sublist (log ++ [e]) ↔ [x, y].Sublist log ∨ x ∈ log ∧ y = e := by
  constructor
  · intro h
    obtain ⟨front, back, hsplit, hfront, hback⟩ := List.sublist_append_iff.1 h
    rcases List.sublist_singleton.1 hback with rfl | rfl
    · rw [hsplit, List.append_nil]
      exact .inl hfront
    · have hlast : [x] ++ [y] = front ++ [e] := hsplit
      obtain ⟨rfl, heq⟩ := List.append_inj' hlast rfl
      exact .inr ⟨List.singleton_sublist.1 hfront, (List.cons.inj heq).1⟩
  · rintro (h | ⟨hx, rfl⟩)
    · exact h.trans (List.sublist_append_left _ _)
    · exact (List.singleton_sublist.2 hx).append (List.Sublist.refl [y])

namespace Confirmed

theorem of_not_mem (h : worked p ∉ log) : Confirmed log p :=
  fun _ hx ↦ absurd (hx.subset (by simp)) h

/-- A confirmation covers the work before it. -/
theorem concat : Confirmed (log ++ [confirmed p]) p := by
  intro x hx
  rcases pair_sublist_concat.1 hx with hx | ⟨-, heq⟩
  · exact pair_sublist_concat.2 (.inr ⟨hx.subset (by simp), rfl⟩)
  · cases heq

theorem append (h : Confirmed log p) (he : e ≠ worked p) : Confirmed (log ++ [e]) p := by
  intro x hx
  rcases pair_sublist_concat.1 hx with hx | ⟨-, rfl⟩
  · exact pair_sublist_concat.2 (.inl (h x hx))
  · exact absurd rfl he

end Confirmed

namespace Lawful

/-- Who holds the place entered after everybody else. -/
theorem holder_last (h : Lawful log) (hholder : holder log = some p) (hin : entered q ∈ log)
    (hne : q ≠ p) : [entered q, entered p].Sublist log := by
  induction h with
  | nil => cases hin
  | @enter log t h hnew ih =>
    rw [holder_entered] at hholder
    obtain rfl := Option.some_inj.1 hholder
    refine pair_sublist_concat.2 (.inr ⟨?_, rfl⟩)
    simpa [hne] using hin
  | @work log t h hin' ih =>
    exact pair_sublist_concat.2 (.inl (ih (by simpa using hholder) (by simpa using hin)))
  | @confirm log t h hholder' ih =>
    exact pair_sublist_concat.2 (.inl (ih (by simpa using hholder) (by simpa using hin)))

/-- A tenant who is confirmed after another one entered has entered after it. -/
theorem entered_after (h : Lawful log) (hpair : [entered q, confirmed p].Sublist log)
    (hne : q ≠ p) : [entered q, entered p].Sublist log := by
  induction h with
  | nil => cases hpair
  | confirm h hholder ih =>
    refine pair_sublist_concat.2 (.inl ?_)
    rcases pair_sublist_concat.1 hpair with hpair | ⟨hin, heq⟩
    · exact ih hpair
    · cases heq
      exact h.holder_last hholder hin hne
  | _ h _ ih =>
    rcases pair_sublist_concat.1 hpair with hpair | ⟨-, heq⟩
    · exact pair_sublist_concat.2 (.inl (ih hpair))
    · cases heq

/-- Who works has entered. -/
theorem entered_of_worked (h : Lawful log) (hq : worked q ∈ log) : entered q ∈ log := by
  induction h with
  | nil => cases hq
  | work h hin ih =>
    rcases List.mem_append.1 hq with hq | hq
    · exact List.mem_append_left _ (ih hq)
    · cases List.mem_singleton.1 hq
      exact List.mem_append_left _ hin
  | _ h _ ih =>
    rcases List.mem_append.1 hq with hq | hq
    · exact List.mem_append_left _ (ih hq)
    · cases List.mem_singleton.1 hq

/-- A tenant enters before it works. -/
theorem entered_before (h : Lawful log) (hpair : [worked q, x].Sublist log) :
    [entered q, x].Sublist log := by
  induction h with
  | nil => cases hpair
  | _ h _ ih =>
    rcases pair_sublist_concat.1 hpair with hpair | ⟨hin, rfl⟩
    · exact pair_sublist_concat.2 (.inl (ih hpair))
    · exact pair_sublist_concat.2 (.inr ⟨h.entered_of_worked hin, rfl⟩)

/-- Nobody enters twice. -/
theorem entered_once (h : Lawful log) (hpq : [entered p, entered q].Sublist log) :
    ¬[entered q, entered p].Sublist log := by
  induction h with
  | nil => cases hpq
  | enter h hnew ih =>
    intro hqp
    rcases pair_sublist_concat.1 hpq with hpq | ⟨hp, hq⟩
    · rcases pair_sublist_concat.1 hqp with hqp | ⟨-, hp⟩
      · exact ih hpq hqp
      · exact hnew (hp ▸ hpq.subset (by simp))
    · rcases pair_sublist_concat.1 hqp with hqp | ⟨hq', -⟩
      · exact hnew (hq ▸ hqp.subset (by simp))
      · exact hnew (hq ▸ hq')
  | _ h _ ih =>
    intro hqp
    rcases pair_sublist_concat.1 hpq with hpq | ⟨-, heq⟩
    · rcases pair_sublist_concat.1 hqp with hqp | ⟨-, heq⟩
      · exact ih hpq hqp
      · cases heq
    · cases heq

/-- **Confirmed tenants are serial.** -/
theorem serial (h : Lawful log) (hp : Confirmed log p) (hq : Confirmed log q) (hne : p ≠ q) :
    Serial log p q := by
  by_contra hmixed
  obtain ⟨hqp, hpq⟩ : [worked q, worked p].Sublist log ∧ [worked p, worked q].Sublist log := by
    simpa [Serial] using hmixed
  have hqp' := h.entered_after (h.entered_before (hp _ hqp)) hne.symm
  have hpq' := h.entered_after (h.entered_before (hq _ hpq)) hne
  exact h.entered_once hpq' hqp'

end Lawful

end Tenancy

end AlpacaTrading
