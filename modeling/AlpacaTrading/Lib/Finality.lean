import Mathlib.Data.List.Basic

/-!
# Records that become final

Some records are written twice at most.  One that is not final may be replaced by a final one that
describes the same thing, and a final one is never touched again.  `Finalizes` says so of the rows
before and after, and what made the final rows that are new.

## The calculus

`Finalizes` is reflexive and transitive.  The two writes that keep it are a new row and one row that
becomes final.  `Finalizes.foldlM` is the rule for a loop: an invariant of the loop may be assumed at
every round.
-/

namespace AlpacaTrading

section Finality

variable {ρ ι : Type*} {ident : ρ → ι} {final : ρ → Prop} {cause : ρ → Prop}
  {rows rows' rows'' : List ρ}

/-- Rows become final: each keeps its place, unless it was not final and is now, and each new final
row has a cause. -/
structure Finalizes (ident : ρ → ι) (final cause : ρ → Prop) (rows rows' : List ρ) : Prop where
  kept : ∀ r ∈ rows, ∃ r' ∈ rows', ident r' = ident r ∧ (r' = r ∨ ¬ final r ∧ final r')
  caused : ∀ r' ∈ rows', final r' → r' ∈ rows ∨ cause r'

namespace Finalizes

theorem refl (rows : List ρ) : Finalizes ident final cause rows rows :=
  ⟨fun r hr ↦ ⟨r, hr, rfl, Or.inl rfl⟩, fun _ hr _ ↦ Or.inl hr⟩

theorem trans (h : Finalizes ident final cause rows rows')
    (h' : Finalizes ident final cause rows' rows'') : Finalizes ident final cause rows rows'' := by
  refine ⟨fun r hr ↦ ?_, fun r'' hr'' hfinal ↦ ?_⟩
  · obtain ⟨r', hr', hident, hstep⟩ := h.kept r hr
    obtain ⟨r'', hr'', hident', hstep'⟩ := h'.kept r' hr'
    refine ⟨r'', hr'', hident'.trans hident, ?_⟩
    rcases hstep with rfl | ⟨hopen, hfinal⟩
    · exact hstep'
    · -- The row in the middle is final, so that the second part keeps it.
      obtain rfl : r'' = r' := hstep'.resolve_right fun h ↦ h.1 hfinal
      exact Or.inr ⟨hopen, hfinal⟩
  · rcases h'.caused r'' hr'' hfinal with hr' | hcause
    · exact h.caused r'' hr' hfinal
    · exact Or.inr hcause

/-- **Final rows stay.** -/
theorem stays (h : Finalizes ident final cause rows rows') {r : ρ} (hr : r ∈ rows)
    (hfinal : final r) : r ∈ rows' := by
  obtain ⟨r', hr', -, rfl | ⟨hopen, -⟩⟩ := h.kept r hr
  · exact hr'
  · exact absurd hfinal hopen

/-- A row is added. -/
theorem append {r : ρ} (hcause : final r → cause r) :
    Finalizes ident final cause rows (rows ++ [r]) := by
  refine ⟨fun x hx ↦ ⟨x, List.mem_append_left _ hx, rfl, Or.inl rfl⟩, fun x hx hfinal ↦ ?_⟩
  rcases List.mem_append.1 hx with hx | hx
  · exact Or.inl hx
  · obtain rfl := List.mem_singleton.1 hx
    exact Or.inr (hcause hfinal)

/-- The rows that are chosen become final. -/
theorem map {chosen : ρ → Bool} {f : ρ → ρ} (hident : ∀ r ∈ rows, chosen r → ident (f r) = ident r)
    (hopen : ∀ r ∈ rows, chosen r → ¬ final r) (hfinal : ∀ r ∈ rows, chosen r → final (f r))
    (hcause : ∀ r ∈ rows, chosen r → cause (f r)) :
    Finalizes ident final cause rows (rows.map fun r ↦ if chosen r then f r else r) := by
  refine ⟨fun r hr ↦ ⟨_, List.mem_map_of_mem hr, ?_⟩, fun r' hr' _ ↦ ?_⟩
  · by_cases hchosen : chosen r
    · rw [if_pos hchosen]
      exact ⟨hident r hr hchosen, Or.inr ⟨hopen r hr hchosen, hfinal r hr hchosen⟩⟩
    · rw [if_neg hchosen]
      exact ⟨rfl, Or.inl rfl⟩
  · obtain ⟨r, hr, rfl⟩ := List.mem_map.1 hr'
    by_cases hchosen : chosen r
    · rw [if_pos hchosen]
      exact Or.inr (hcause r hr hchosen)
    · rw [if_neg hchosen]
      exact Or.inl hr

/-- **A loop makes rows final** as its rounds do. -/
theorem foldlM {σ α ε : Type} {step : σ → α → Except ε σ} (stored : σ → List ρ) (I : σ → Prop)
    {items : List α}
    (hstep : ∀ a ∈ items, ∀ s s', I s → step s a = .ok s' →
      I s' ∧ Finalizes ident final cause (stored s) (stored s'))
    {s s' : σ} (hinit : I s) (h : items.foldlM step s = .ok s') :
    I s' ∧ Finalizes ident final cause (stored s) (stored s') := by
  -- Induction over the items that are left.
  induction items generalizing s with
  | nil =>
    obtain rfl := Except.ok.inj h
    exact ⟨hinit, refl _⟩
  | cons a items ih =>
    rw [List.foldlM_cons] at h
    rcases hfirst : step s a with e | t
    · rw [hfirst] at h
      cases h
    · rw [hfirst] at h
      obtain ⟨hinv, hround⟩ := hstep a List.mem_cons_self s t hinit hfirst
      obtain ⟨hinv', hround'⟩ := ih (fun b hb ↦ hstep b (List.mem_cons_of_mem _ hb)) hinv h
      exact ⟨hinv', hround.trans hround'⟩

end Finalizes

end Finality

end AlpacaTrading
