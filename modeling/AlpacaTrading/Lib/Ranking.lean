import Mathlib.Data.List.Sort

/-!
# Stable rankings

Insertion sort by a total and transitive relation is stable.  `ranking_insert` says where one more
element of the input turns up in the sorted list, and that the others stay in their order;
`ranking_perm` that the result does not depend on the order of an input without ties.

`pairwise_ranking` asks less of the comparison: where it refines a transitive preference, the result
is in the order of the preference.
-/

namespace AlpacaTrading.Ranking

variable {α : Type} (le : α → α → Prop) [DecidableRel le] [Std.Total le] [IsTrans α le]

/-- How many elements of the two parts of an input rank before an element between them: those of
the first part that are not above it, and those of the second part that are below it. -/
def place (before : List α) (a : α) (after : List α) : ℕ :=
  before.countP (fun x ↦ le x a) + after.countP (fun x ↦ ¬ le a x)

omit [Std.Total le] [IsTrans α le] in
/-- Inserting below a tail leaves the tail alone. -/
theorem orderedInsert_append_of_le {x : α} {post : List α} (hpost : ∀ y ∈ post, le x y)
    (pre : List α) :
    (pre ++ post).orderedInsert le x = pre.orderedInsert le x ++ post := by
  induction pre with
  | nil =>
    rcases post with - | ⟨y, post⟩
    · rfl
    · rw [List.nil_append, List.orderedInsert_cons, if_pos (hpost y List.mem_cons_self)]
      rfl
  | cons y pre ih =>
    rw [List.cons_append, List.orderedInsert_cons, List.orderedInsert_cons, ih]
    by_cases hxy : le x y
    · rw [if_pos hxy, if_pos hxy]
      rfl
    · rw [if_neg hxy, if_neg hxy]
      rfl

omit [Std.Total le] [IsTrans α le] in
/-- Inserting above a head leaves the head alone. -/
theorem orderedInsert_append_of_not_le {x : α} {pre : List α} (hpre : ∀ y ∈ pre, ¬ le x y)
    (post : List α) :
    (pre ++ post).orderedInsert le x = pre ++ post.orderedInsert le x := by
  induction pre with
  | nil => rfl
  | cons y pre ih =>
    rw [List.cons_append, List.orderedInsert_cons, if_neg (hpre y List.mem_cons_self),
      ih fun z hz ↦ hpre z (List.mem_cons_of_mem y hz)]
    rfl

omit [Std.Total le] in
/-- Inserting into a sorted list splits it. -/
theorem orderedInsert_split (a : α) {l : List α} (hsorted : l.Pairwise le) :
    ∃ pre post, l.orderedInsert le a = pre ++ a :: post ∧ l = pre ++ post ∧
      pre.length = l.countP (fun x ↦ ¬ le a x) ∧ (∀ x ∈ pre, ¬ le a x) ∧ ∀ x ∈ post, le a x := by
  induction l with
  | nil => exact ⟨[], [], rfl, rfl, rfl, by simp, by simp⟩
  | cons y l ih =>
    obtain ⟨hfirst, hrest⟩ := List.pairwise_cons.1 hsorted
    by_cases hay : le a y
    · have hall : ∀ x ∈ y :: l, le a x := by
        intro x hx
        rcases List.mem_cons.1 hx with rfl | hx
        · exact hay
        · exact IsTrans.trans a y x hay (hfirst x hx)
      refine ⟨[], y :: l, List.orderedInsert_cons_of_le le l hay, rfl, ?_, by simp, hall⟩
      exact (List.countP_eq_zero.2 fun x hx ↦ by simpa using hall x hx).symm
    · obtain ⟨pre, post, hinsert, rfl, hlength, hpre, hpost⟩ := ih hrest
      refine ⟨y :: pre, post, ?_, rfl, ?_, fun x hx ↦ ?_, hpost⟩
      · rw [List.orderedInsert_of_not_le le _ hay, hinsert]
        rfl
      · rw [List.length_cons, hlength, List.countP_cons_of_pos (by simpa)]
      · rcases List.mem_cons.1 hx with rfl | hx
        · exact hay
        · exact hpre x hx

/-- **One more element.**  It turns up at its place in the ranking, and the others keep their
order. -/
theorem ranking_insert (before : List α) (a : α) (after : List α) :
    ∃ pre post, (before ++ a :: after).insertionSort le = pre ++ a :: post ∧
      (before ++ after).insertionSort le = pre ++ post ∧
      pre.length = place le before a after ∧
      (∀ x ∈ pre, le x a) ∧ (∀ x ∈ post, le a x) := by
  -- Induction over the part before the element, as the sort inserts from the right.
  induction before with
  | nil =>
    obtain ⟨pre, post, hwith, hwithout, hlength, hpre, hpost⟩ :=
      orderedInsert_split le a (List.pairwise_insertionSort le after)
    refine ⟨pre, post, hwith, hwithout, ?_, fun x hx ↦ ?_, hpost⟩
    · rw [hlength, place, List.countP_nil, Nat.zero_add]
      exact (List.perm_insertionSort le after).countP_eq _
    · exact (Std.Total.total x a).resolve_right (hpre x hx)
  | cons x before ih =>
    obtain ⟨pre, post, hwith, hwithout, hlength, hpre, hpost⟩ := ih
    rw [List.cons_append, List.insertionSort_cons, hwith, List.cons_append,
      List.insertionSort_cons, hwithout]
    by_cases hxa : le x a
    · have hxpost : ∀ y ∈ post, le x y := fun y hy ↦ IsTrans.trans x a y hxa (hpost y hy)
      refine ⟨pre.orderedInsert le x, post, ?_, orderedInsert_append_of_le le hxpost pre, ?_, ?_,
        hpost⟩
      · refine orderedInsert_append_of_le le (fun y hy ↦ ?_) pre
        rcases List.mem_cons.1 hy with rfl | hy
        · exact hxa
        · exact hxpost y hy
      · rw [List.orderedInsert_length, hlength, place, place, List.countP_cons_of_pos (by simpa)]
        omega
      · intro y hy
        rcases (List.mem_orderedInsert le).1 hy with rfl | hy
        · exact hxa
        · exact hpre y hy
    · have hxpre : ∀ y ∈ pre, ¬ le x y := fun y hy hxy ↦ hxa (IsTrans.trans x y a hxy (hpre y hy))
      have hax : le a x := (Std.Total.total a x).resolve_right hxa
      refine ⟨pre, post.orderedInsert le x, ?_, orderedInsert_append_of_not_le le hxpre post, ?_,
        hpre, ?_⟩
      · rw [orderedInsert_append_of_not_le le hxpre, List.orderedInsert_of_not_le _ _ hxa]
      · rw [hlength, place, place, List.countP_cons_of_neg (by simpa)]
      · intro y hy
        rcases (List.mem_orderedInsert le).1 hy with rfl | hy
        · exact hax
        · exact hpost y hy

/-- **No ties, no order.**  Permuted inputs without ties have the same ranking. -/
theorem ranking_perm {l l' : List α} (hperm : l.Perm l')
    (hties : ∀ a ∈ l, ∀ b ∈ l, le a b → le b a → a = b) :
    l.insertionSort le = l'.insertionSort le := by
  have hsorted : ((l.insertionSort le).Perm (l'.insertionSort le)) :=
    (List.perm_insertionSort le l).trans (hperm.trans (List.perm_insertionSort le l').symm)
  refine List.Perm.eq_of_pairwise (fun a b ha hb ↦ ?_) (List.pairwise_insertionSort le l)
    (List.pairwise_insertionSort le l') hsorted
  exact hties a ((List.mem_insertionSort le).1 ha) b
    (hperm.mem_iff.2 ((List.mem_insertionSort le).1 hb))

/-! ## The first element -/

/-- The first element of a ranking is above all others. -/
theorem head?_ranking {l : List α} {a : α} (h : (l.insertionSort le).head? = some a) :
    a ∈ l ∧ ∀ x ∈ l, le a x := by
  obtain ⟨rest, hrest⟩ := List.head?_eq_some_iff.1 h
  have hsorted := List.pairwise_insertionSort le l
  have hmem : ∀ x, x ∈ l ↔ x ∈ a :: rest := by
    intro x
    rw [← hrest, List.mem_insertionSort]
  rw [hrest] at hsorted
  refine ⟨(hmem a).2 List.mem_cons_self, fun x hx ↦ ?_⟩
  rcases List.mem_cons.1 ((hmem x).1 hx) with rfl | hx
  · exact (Std.Total.total x x).elim id id
  · exact (List.pairwise_cons.1 hsorted).1 x hx

omit [Std.Total le] [IsTrans α le] in
theorem head?_ranking_eq_none {l : List α} : (l.insertionSort le).head? = none ↔ l = [] := by
  rw [List.head?_eq_none_iff, ← List.length_eq_zero_iff, List.length_insertionSort,
    List.length_eq_zero_iff]

omit [Std.Total le] [IsTrans α le] in
/-- An element that is above all others comes first if it is first in the input. -/
theorem head?_ranking_cons {l : List α} {a : α} (h : ∀ x ∈ l, le a x) :
    ((a :: l).insertionSort le).head? = some a := by
  rw [List.insertionSort_cons]
  rcases hsort : l.insertionSort le with - | ⟨b, rest⟩
  · rfl
  · have hb : b ∈ l := (List.mem_insertionSort le).1 (by rw [hsort]; exact List.mem_cons_self)
    rw [List.orderedInsert_cons_of_le le rest (h b hb)]
    rfl

/-- The first elements of the rankings of a list and of a permutation are the same, if only one
element can come first. -/
theorem head?_ranking_perm {l l' : List α} (hperm : l.Perm l')
    (hone : ∀ a ∈ l, ∀ b ∈ l, (∀ x ∈ l, le a x) → (∀ x ∈ l, le b x) → a = b) :
    (l.insertionSort le).head? = (l'.insertionSort le).head? := by
  rcases hhead : (l.insertionSort le).head? with - | a
  · rw [head?_ranking_eq_none] at hhead
    rw [hhead, List.nil_perm] at hperm
    rw [hperm]
    rfl
  · rcases hhead' : (l'.insertionSort le).head? with - | b
    · rw [head?_ranking_eq_none] at hhead'
      rw [hhead', List.perm_nil] at hperm
      rw [hperm] at hhead
      cases hhead
    · obtain ⟨ha, htop⟩ := head?_ranking le hhead
      obtain ⟨hb, htop'⟩ := head?_ranking le hhead'
      rw [hone a ha b (hperm.mem_iff.2 hb) htop fun x hx ↦ htop' x (hperm.mem_iff.1 hx)]

/-! ## The first ones -/

section Preference

variable {prefers : α → α → Prop} [IsTrans α prefers]

omit [Std.Total le] [IsTrans α le] in
/-- A ranking is in the order of a preference that the comparison refines. -/
theorem pairwise_ranking (hle : ∀ a b, le a b → prefers a b) (hnot : ∀ a b, ¬ le a b → prefers b a)
    (l : List α) : (l.insertionSort le).Pairwise prefers := by
  -- One more element goes in front of the first one it is preferred to.
  have hinsert : ∀ (a : α) (l : List α), l.Pairwise prefers →
      (l.orderedInsert le a).Pairwise prefers := by
    intro a l hl
    induction l with
    | nil => exact List.pairwise_singleton _ _
    | cons b l ih =>
      obtain ⟨hb, hl⟩ := List.pairwise_cons.1 hl
      by_cases hab : le a b
      · rw [List.orderedInsert_cons_of_le le l hab]
        refine List.pairwise_cons.2 ⟨fun c hc ↦ ?_, List.pairwise_cons.2 ⟨hb, hl⟩⟩
        rcases List.mem_cons.1 hc with rfl | hc
        · exact hle a c hab
        · exact IsTrans.trans a b c (hle a b hab) (hb c hc)
      · rw [List.orderedInsert_of_not_le le l hab]
        refine List.pairwise_cons.2 ⟨fun c hc ↦ ?_, ih hl⟩
        rcases List.mem_cons.1 ((List.perm_orderedInsert le a l).mem_iff.1 hc) with rfl | hc
        · exact hnot c b hab
        · exact hb c hc
  induction l with
  | nil => exact List.Pairwise.nil
  | cons a l ih => exact hinsert a _ ih

omit [Std.Total le] [IsTrans α le] in
/-- The first ones of a ranking are preferred to those it leaves out. -/
theorem prefers_of_mem_take (hle : ∀ a b, le a b → prefers a b)
    (hnot : ∀ a b, ¬ le a b → prefers b a) {l : List α} {k : ℕ} {a b : α}
    (ha : a ∈ (l.insertionSort le).take k) (hb : b ∈ l)
    (hout : b ∉ (l.insertionSort le).take k) : prefers a b := by
  have hsorted := pairwise_ranking le hle hnot l
  rw [← List.take_append_drop k (l.insertionSort le)] at hsorted
  have hmem : b ∈ (l.insertionSort le).take k ++ (l.insertionSort le).drop k := by
    rw [List.take_append_drop, List.mem_insertionSort]
    exact hb
  exact (List.pairwise_append.1 hsorted).2.2 a ha b ((List.mem_append.1 hmem).resolve_left hout)

end Preference

end AlpacaTrading.Ranking
