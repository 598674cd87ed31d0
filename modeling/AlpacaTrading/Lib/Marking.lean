import Mathlib.Data.Finset.Dedup
import Mathlib.Data.Finset.Lattice.Lemmas

/-!
# Marking traversals

A traversal of a graph that carries the set of what it has reached, and gives up where it comes to
something a second time.  It never takes a mark away, so it gives up for a shared part as it does
for a cycle.

`MarksOnce` says of such a traversal that it computes a value exactly when it reaches nothing twice.
It is built by rules, one for each way a traversal is built: nothing, one after the other, and the
entry into something that is marked.
-/

namespace AlpacaTrading.Marking

variable {R α β γ δ : Type*}

/-- The traversals of the elements of a list, one after the other. -/
def mapMarked (child : α → Finset R → β × Finset R) : List α → Finset R → List β × Finset R
  | [], seen => ([], seen)
  | a :: l, seen =>
    ((child a seen).1 :: (mapMarked child l (child a seen).2).1,
      (mapMarked child l (child a seen).2).2)

/-- What holds of every result of the traversals holds of the results for a list. -/
theorem forall_mem_mapMarked {P : β → Prop} {child : α → Finset R → β × Finset R}
    (h : ∀ a seen, P (child a seen).1) (l : List α) (seen : Finset R) :
    ∀ b ∈ (mapMarked child l seen).1, P b := by
  induction l generalizing seen with
  | nil => simp [mapMarked]
  | cons a l ih =>
    rw [mapMarked, List.forall_mem_cons]
    exact ⟨h a seen, ih _⟩

/-- A traversal computes a value, if `ok`, exactly when what it reaches is reached once. -/
structure MarksOnce [DecidableEq R] (visit : Finset R → β × Finset R) (reaches : List R)
    (value : β) (ok : Prop) : Prop where
  exact_iff : ∀ seen, (visit seen).1 = value ↔
    reaches.Nodup ∧ (∀ r ∈ reaches, r ∉ seen) ∧ ok
  seen_eq : ∀ seen, (visit seen).1 = value → (visit seen).2 = seen ∪ reaches.toFinset

namespace MarksOnce

variable [DecidableEq R] {visit : Finset R → β × Finset R} {reaches reaches' : List R}
  {value : β} {ok ok' : Prop}

/-- A traversal that reaches nothing. -/
theorem pure (value : β) : MarksOnce (fun seen ↦ (value, seen)) ([] : List R) value True where
  exact_iff seen := by simp
  seen_eq seen _ := by simp

/-- A traversal that computes something else. -/
theorem never (h : ∀ seen, (visit seen).1 ≠ value) : MarksOnce visit reaches value False where
  exact_iff seen := by simp [h seen]
  seen_eq seen heq := absurd heq (h seen)

theorem congr (h : MarksOnce visit reaches value ok) (hok : ok ↔ ok') :
    MarksOnce visit reaches value ok' where
  exact_iff seen := by rw [h.exact_iff seen, hok]
  seen_eq := h.seen_eq

/-- A value that is wrapped. -/
theorem map {wrap : β → γ} (hwrap : Function.Injective wrap)
    (h : MarksOnce visit reaches value ok) :
    MarksOnce (fun seen ↦ (wrap (visit seen).1, (visit seen).2)) reaches (wrap value) ok where
  exact_iff seen := by rw [hwrap.eq_iff, h.exact_iff seen]
  seen_eq seen heq := h.seen_eq seen (hwrap heq)

/-- One traversal after the other. -/
theorem pair {next : Finset R → γ × Finset R} {value' : γ} {combine : β → γ → δ}
    (hcombine : ∀ {x x' y y'}, combine x y = combine x' y' → x = x' ∧ y = y')
    (h : MarksOnce visit reaches value ok) (h' : MarksOnce next reaches' value' ok') :
    MarksOnce
      (fun seen ↦
        (combine (visit seen).1 (next (visit seen).2).1, (next (visit seen).2).2))
      (reaches ++ reaches') (combine value value') (ok ∧ ok') where
  exact_iff seen := by
    -- The second traversal starts from what the first one has marked.
    have hboth : combine (visit seen).1 (next (visit seen).2).1 = combine value value' ↔
        (visit seen).1 = value ∧ (next (visit seen).2).1 = value' :=
      ⟨hcombine, fun ⟨hfirst, hsecond⟩ ↦ by rw [hfirst, hsecond]⟩
    rw [hboth]
    constructor
    · rintro ⟨hfirst, hsecond⟩
      obtain ⟨hnodup, hfresh, hok⟩ := (h.exact_iff seen).1 hfirst
      obtain ⟨hnodup', hfresh', hok'⟩ := (h'.exact_iff _).1 hsecond
      rw [h.seen_eq seen hfirst] at hfresh'
      simp only [Finset.mem_union, List.mem_toFinset, not_or] at hfresh'
      refine ⟨List.nodup_append.2 ⟨hnodup, hnodup', ?_⟩, fun r hr ↦ ?_, hok, hok'⟩
      · rintro r hr r' hr' rfl
        exact (hfresh' r hr').2 hr
      · rcases List.mem_append.1 hr with hr | hr
        · exact hfresh r hr
        · exact (hfresh' r hr).1
    · rintro ⟨hnodup, hfresh, hok, hok'⟩
      obtain ⟨hnodup, hnodup', hdisjoint⟩ := List.nodup_append.1 hnodup
      have hfirst : (visit seen).1 = value :=
        (h.exact_iff seen).2 ⟨hnodup, fun r hr ↦ hfresh r (List.mem_append_left _ hr), hok⟩
      refine ⟨hfirst, (h'.exact_iff _).2 ⟨hnodup', fun r hr ↦ ?_, hok'⟩⟩
      rw [h.seen_eq seen hfirst, Finset.mem_union, List.mem_toFinset, not_or]
      exact ⟨hfresh r (List.mem_append_right _ hr), fun hin ↦ hdisjoint r hin r hr rfl⟩
  seen_eq seen heq := by
    obtain ⟨hfirst, hsecond⟩ := hcombine heq
    rw [h'.seen_eq _ hsecond, h.seen_eq seen hfirst, List.toFinset_append, Finset.union_assoc]

/-- The entry into something that is marked, unless it is marked already. -/
theorem enter (r : R) (other : γ) {wrap : β → γ} (hwrap : Function.Injective wrap)
    (hother : other ≠ wrap value) (h : MarksOnce visit reaches value ok) :
    MarksOnce
      (fun seen ↦
        if r ∈ seen then (other, seen)
        else (wrap (visit (insert r seen)).1, (visit (insert r seen)).2))
      (r :: reaches) (wrap value) ok where
  exact_iff seen := by
    by_cases hr : r ∈ seen
    · rw [if_pos hr]
      exact ⟨fun heq ↦ absurd heq hother, fun ⟨_, hfresh, _⟩ ↦
        absurd hr (hfresh r List.mem_cons_self)⟩
    · rw [if_neg hr]
      simp only [hwrap.eq_iff, h.exact_iff, List.nodup_cons, List.forall_mem_cons,
        Finset.mem_insert, not_or]
      constructor
      · rintro ⟨hnodup, hfresh, hok⟩
        exact ⟨⟨fun hin ↦ (hfresh r hin).1 rfl, hnodup⟩, ⟨hr, fun x hx ↦ (hfresh x hx).2⟩, hok⟩
      · rintro ⟨⟨hout, hnodup⟩, ⟨-, hfresh⟩, hok⟩
        exact ⟨hnodup, fun x hx ↦ ⟨fun heq ↦ hout (heq ▸ hx), hfresh x hx⟩, hok⟩
  seen_eq seen heq := by
    by_cases hr : r ∈ seen
    · rw [if_pos hr] at heq
      exact absurd heq hother
    · rw [if_neg hr] at heq ⊢
      rw [h.seen_eq _ (hwrap heq), List.toFinset_cons, Finset.insert_union, Finset.union_insert]

/-- The elements of a list. -/
theorem mapMarked {child : α → Finset R → β × Finset R} {reaches : α → List R} {value : α → β}
    {ok : α → Prop} {l : List α} (h : ∀ a ∈ l, MarksOnce (child a) (reaches a) (value a) (ok a)) :
    MarksOnce (Marking.mapMarked child l) (l.flatMap reaches) (l.map value) (∀ a ∈ l, ok a) := by
  induction l with
  | nil => exact (pure []).congr (by simp)
  | cons a l ih =>
    have hrest := ih fun b hb ↦ h b (List.mem_cons_of_mem a hb)
    have hboth := (h a List.mem_cons_self).pair List.cons.inj hrest
    exact hboth.congr (by simp)

end MarksOnce

end AlpacaTrading.Marking
