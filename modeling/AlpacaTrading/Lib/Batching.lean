import Mathlib.Data.List.Chain
import Mathlib.Data.List.Flatten

/-!
# Cutting a list into batches

A list is cut into batches that fit, each as long as it can be: the first element of a batch does
not fit into the one before it.  Such a cut is built element by element, and an element either
extends the last batch or starts a new one.
-/

namespace AlpacaTrading

/-- The batches are the list, cut where the next element does not fit any more. -/
structure IsBatching {α : Type*} (Fits : List α → Prop) (items : List α)
    (batches : List (List α)) : Prop where
  flatten : batches.flatten = items
  nonempty : ∀ b ∈ batches, b ≠ []
  fits : ∀ b ∈ batches, Fits b
  full : batches.IsChain fun b c ↦ ∀ a ∈ c.head?, ¬Fits (b ++ [a])

namespace IsBatching

variable {α : Type*} {Fits : List α → Prop} {items b : List α} {batches : List (List α)} {a : α}

theorem nil : IsBatching Fits [] [] := ⟨rfl, by simp, by simp, .nil⟩

/-- The element goes into the last batch. -/
theorem extend (h : IsBatching Fits items (batches ++ [b])) (hfits : Fits (b ++ [a])) :
    IsBatching Fits (items ++ [a]) (batches ++ [b ++ [a]]) := by
  have hb : b ≠ [] := h.nonempty b (List.mem_append_right _ (List.mem_singleton_self b))
  refine ⟨?_, fun c hc ↦ ?_, fun c hc ↦ ?_, ?_⟩
  · rw [← h.flatten]
    simp
  · rcases List.mem_append.1 hc with hc | hc
    · exact h.nonempty c (List.mem_append_left _ hc)
    · rw [List.mem_singleton.1 hc]
      simp
  · rcases List.mem_append.1 hc with hc | hc
    · exact h.fits c (List.mem_append_left _ hc)
    · rw [List.mem_singleton.1 hc]
      exact hfits
  · -- The first element of the last batch stays the same.
    have hfull := h.full
    rw [List.isChain_append] at hfull ⊢
    refine ⟨hfull.1, .singleton _, fun x hx y hy a ha ↦ hfull.2.2 x hx b rfl a ?_⟩
    obtain rfl : b ++ [_] = y := Option.some.inj hy
    rwa [List.head?_append_of_ne_nil _ hb] at ha

/-- The element starts a new batch, since it does not fit into the last one. -/
theorem start (h : IsBatching Fits items batches) (hfits : Fits [a])
    (hfull : ∀ b ∈ batches.getLast?, ¬Fits (b ++ [a])) :
    IsBatching Fits (items ++ [a]) (batches ++ [[a]]) := by
  refine ⟨?_, fun c hc ↦ ?_, fun c hc ↦ ?_, ?_⟩
  · rw [← h.flatten]
    simp
  · rcases List.mem_append.1 hc with hc | hc
    · exact h.nonempty c hc
    · rw [List.mem_singleton.1 hc]
      simp
  · rcases List.mem_append.1 hc with hc | hc
    · exact h.fits c hc
    · rw [List.mem_singleton.1 hc]
      exact hfits
  · rw [List.isChain_append]
    refine ⟨h.full, .singleton _, fun x hx y hy a' ha ↦ ?_⟩
    obtain rfl : [a] = y := Option.some.inj hy
    obtain rfl : a = a' := Option.some.inj ha
    exact hfull x hx

end IsBatching

end AlpacaTrading
