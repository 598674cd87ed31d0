import Mathlib.Algebra.BigOperators.Group.List.Lemmas
import Mathlib.Algebra.GroupWithZero.Nat
import Mathlib.Data.List.Dedup
import Mathlib.Data.List.Induction

/-!
# Grouping by a key

A table of groups in the order of their first members.  Each element of a list is added to the
group of its key, which is opened for its first element.  The groups partition the list: there is
one for each key, and it is made from the elements of that key in their order.
-/

namespace AlpacaTrading.Grouping

variable {α κ γ δ : Type*} [DecidableEq κ] (key : α → κ) (first : α → γ) (next : γ → α → γ)

/-- Adds an element to the group of its key. -/
def push (groups : List (κ × γ)) (a : α) : List (κ × γ) :=
  if key a ∈ groups.map Prod.fst then
    groups.map fun g ↦ if g.1 = key a then (g.1, next g.2 a) else g
  else groups ++ [(key a, next (first a) a)]

/-- The groups of a list. -/
def group (l : List α) : List (κ × γ) := l.foldl (push key first next) []

/-- What the groups of a list are. -/
structure Grouped (l : List α) (groups : List (κ × γ)) : Prop where
  nodup : (groups.map Prod.fst).Nodup
  mem_keys : ∀ k, k ∈ groups.map Prod.fst ↔ k ∈ l.map key
  members : ∀ g ∈ groups, ∃ a rest, l.filter (fun x ↦ key x = g.1) = a :: rest ∧
    g.2 = (a :: rest).foldl next (first a)

section Push

variable {key first next} {l : List α} {groups : List (κ × γ)}

theorem map_fst_update (a : α) :
    (groups.map fun g ↦ if g.1 = key a then (g.1, next g.2 a) else g).map Prod.fst =
      groups.map Prod.fst := by
  rw [List.map_map]
  refine List.map_congr_left fun g _ ↦ ?_
  change (if g.1 = key a then (g.1, next g.2 a) else g).1 = g.1
  rw [apply_ite Prod.fst]
  exact ite_self _

/-- One more element. -/
theorem Grouped.push (h : Grouped key first next l groups) (a : α) :
    Grouped key first next (l ++ [a]) (push key first next groups a) := by
  have hfilter : ∀ k, (l ++ [a]).filter (fun x ↦ key x = k) =
      l.filter (fun x ↦ key x = k) ++ if key a = k then [a] else [] := by
    intro k
    rw [List.filter_append]
    by_cases hk : key a = k
    · rw [if_pos hk, List.filter_cons, if_pos (decide_eq_true hk), List.filter_nil]
    · rw [if_neg hk, List.filter_cons, if_neg (by simpa using hk), List.filter_nil]
  by_cases hmem : key a ∈ groups.map Prod.fst
  · -- The group is there already.
    rw [Grouping.push, if_pos hmem]
    refine ⟨?_, fun k ↦ ?_, fun g' hg' ↦ ?_⟩
    · rw [map_fst_update]
      exact h.nodup
    · rw [map_fst_update, h.mem_keys, List.map_append, List.mem_append, List.map_singleton,
        List.mem_singleton]
      refine ⟨Or.inl, fun hk ↦ hk.elim id fun hk ↦ ?_⟩
      rw [hk]
      exact (h.mem_keys _).1 hmem
    · obtain ⟨g, hg, rfl⟩ := List.mem_map.1 hg'
      obtain ⟨b, rest, hb, hvalue⟩ := h.members g hg
      by_cases hk : g.1 = key a
      · rw [if_pos hk]
        refine ⟨b, rest ++ [a], ?_, ?_⟩
        · rw [hfilter, if_pos hk.symm, hb]
          rfl
        · rw [← List.cons_append, List.foldl_append, ← hvalue]
          rfl
      · rw [if_neg hk]
        refine ⟨b, rest, ?_, hvalue⟩
        rw [hfilter, if_neg (Ne.symm hk), hb, List.append_nil]
  · -- The element opens its group.
    rw [Grouping.push, if_neg hmem]
    refine ⟨?_, fun k ↦ ?_, fun g hg ↦ ?_⟩
    · rw [List.map_append, List.map_singleton]
      exact h.nodup.append (List.nodup_singleton _) (List.disjoint_singleton.2 hmem)
    · rw [List.map_append, List.mem_append, h.mem_keys, List.map_append, List.mem_append]
      rfl
    · have hnew : ∀ k, k ∈ groups.map Prod.fst → key a ≠ k := by
        rintro k hk rfl
        exact hmem hk
      rcases List.mem_append.1 hg with hg | hg
      · obtain ⟨b, rest, hb, hvalue⟩ := h.members g hg
        refine ⟨b, rest, ?_, hvalue⟩
        rw [hfilter, if_neg (hnew _ (List.mem_map_of_mem hg)), hb, List.append_nil]
      · rw [List.mem_singleton.1 hg]
        refine ⟨a, [], ?_, rfl⟩
        have hnone : l.filter (fun x ↦ key x = key a) = [] := by
          refine List.filter_eq_nil_iff.2 fun x hx hkey ↦ hmem ?_
          rw [h.mem_keys, ← of_decide_eq_true hkey]
          exact List.mem_map_of_mem hx
        rw [hfilter, if_pos rfl, hnone, List.nil_append]

end Push

/-- **The groups of a list.** -/
theorem group_grouped (l : List α) : Grouped key first next l (group key first next l) := by
  induction l using List.reverseRecOn with
  | nil => exact ⟨List.nodup_nil, fun _ ↦ Iff.rfl, fun _ hg ↦ absurd hg List.not_mem_nil⟩
  | append_singleton l a ih =>
    rw [group, List.foldl_append]
    exact ih.push a

section Grouped

variable {key first next} {l l' : List α} {groups groups' : List (κ × γ)}

/-- **The sizes of the groups add up**, for any selection of keys. -/
theorem Grouped.sum_length (h : Grouped key first next l groups) (p : κ → Bool) {size : κ × γ → ℕ}
    (hsize : ∀ g ∈ groups, size g = (l.filter (fun x ↦ key x = g.1)).length) :
    ((groups.filter fun g ↦ p g.1).map size).sum = (l.filter fun x ↦ p (key x)).length := by
  have hkeys : (groups.map Prod.fst).Perm (l.map key).dedup := by
    rw [List.perm_ext_iff_of_nodup h.nodup (List.nodup_dedup _)]
    intro k
    rw [h.mem_keys, List.mem_dedup]
  have hcount : ∀ k, (l.filter (fun x ↦ key x = k)).length = (l.map key).count k := by
    intro k
    rw [← List.countP_eq_length_filter, List.count_eq_countP, List.countP_map]
    exact List.countP_congr fun x _ ↦ by simp
  have hsizes : (groups.filter fun g ↦ p g.1).map size =
      ((groups.map Prod.fst).filter p).map fun k ↦ (l.map key).count k := by
    rw [List.filter_map, List.map_map]
    refine List.map_congr_left fun g hg ↦ ?_
    rw [hsize g (List.mem_filter.1 hg).1, hcount]
    rfl
  rw [hsizes, ((hkeys.filter p).map _).sum_eq, List.sum_map_count_dedup_filter_eq_countP,
    List.countP_map, ← List.countP_eq_length_filter]
  rfl

/-- **Permuted lists have the same groups**, read through a function that ignores the order of the
members. -/
theorem Grouped.map_perm (h : Grouped key first next l groups)
    (h' : Grouped key first next l' groups') (hperm : l.Perm l') {f : κ × γ → δ}
    (hf : ∀ k a rest a' rest', (∀ x ∈ a :: rest, x ∈ l ∧ key x = k) →
      (a :: rest).Perm (a' :: rest') →
      f (k, (a :: rest).foldl next (first a)) = f (k, (a' :: rest').foldl next (first a'))) :
    (groups.map f).Perm (groups'.map f) := by
  have hnodup : ∀ {l : List α} {groups : List (κ × γ)}, Grouped key first next l groups →
      (groups.map fun g ↦ (g.1, f g)).Nodup := by
    intro l groups h
    refine List.Nodup.of_map Prod.fst ?_
    rw [List.map_map]
    exact h.nodup
  have hvalue : ∀ g ∈ groups, ∀ g' ∈ groups', g.1 = g'.1 → f g = f g' := by
    rintro ⟨k, v⟩ hg ⟨k', v'⟩ hg' rfl
    obtain ⟨a, rest, hmembers, rfl⟩ := h.members _ hg
    obtain ⟨a', rest', hmembers', rfl⟩ := h'.members _ hg'
    refine hf k a rest a' rest' (fun x hx ↦ ?_) ?_
    · rw [← hmembers] at hx
      exact ⟨(List.mem_filter.1 hx).1, of_decide_eq_true (List.mem_filter.1 hx).2⟩
    · rw [← hmembers, ← hmembers']
      exact hperm.filter _
  have hmem : ∀ k, k ∈ groups.map Prod.fst ↔ k ∈ groups'.map Prod.fst := by
    intro k
    rw [h.mem_keys, h'.mem_keys]
    exact (hperm.map key).mem_iff
  have hpairs : (groups.map fun g ↦ (g.1, f g)).Perm (groups'.map fun g ↦ (g.1, f g)) := by
    rw [List.perm_ext_iff_of_nodup (hnodup h) (hnodup h')]
    intro x
    constructor
    · intro hx
      obtain ⟨g, hg, rfl⟩ := List.mem_map.1 hx
      obtain ⟨g', hg', hkey⟩ := List.mem_map.1 ((hmem g.1).1 (List.mem_map_of_mem hg))
      exact List.mem_map.2 ⟨g', hg', by rw [hkey, hvalue g hg g' hg' hkey.symm]⟩
    · intro hx
      obtain ⟨g', hg', rfl⟩ := List.mem_map.1 hx
      obtain ⟨g, hg, hkey⟩ := List.mem_map.1 ((hmem g'.1).2 (List.mem_map_of_mem hg'))
      exact List.mem_map.2 ⟨g, hg, by rw [hkey, hvalue g hg g' hg' hkey]⟩
  have hsnd := hpairs.map Prod.snd
  rwa [List.map_map, List.map_map] at hsnd

end Grouped

end AlpacaTrading.Grouping
