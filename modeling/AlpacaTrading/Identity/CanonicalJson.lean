import Mathlib.Data.List.Sort
import AlpacaTrading.Lib.Json

/-!
# Canonical JSON

`canonicalizeJson` sorts the entries of every object by `localeCompare` and builds the object again
from them.  Fingerprints and identifiers are hashes of the text of the result, so that two values
should have one text exactly when they are equal up to the order of keys.

## Order of keys

The order in which an object is built is not always the order in which its entries are enumerated:
array indices come first, by value, and only the other keys keep their order (`enumerate`).  The
sort is stable, and `localeCompare` takes some different strings for equal.  Such keys keep the
order they had, and it is the only thing the text still depends on (`canonicalizeJson_eq_iff`).

Of the collation nothing is used but that it is a total preorder.
-/

namespace AlpacaTrading

open JsString

/-! ## Enumeration -/

namespace JsString

/-- The value of a text of digits. -/
def digitsValue (k : JsString) : ℕ := k.foldl (fun n c ↦ 10 * n + (c.toNat - 48)) 0

/-- The key is an array index: a decimal without leading zeros, below `2 ^ 32 - 1`. -/
def isIndex (k : JsString) : Bool :=
  decide (k ≠ []) && k.all (fun c ↦ 48 ≤ c && c ≤ 57) && (decide (k = [48]) || k.head? != some 48) &&
    decide (digitsValue k < 2 ^ 32 - 1)

/-- The first key is enumerated before the second: array indices come first, by value. -/
def Precedes (a b : JsString) : Prop :=
  a ≠ b ∧ (isIndex b = true → isIndex a = true ∧ digitsValue a < digitsValue b)

end JsString

/-- The order of `localeCompare`, which takes some different strings for equal. -/
structure Collation where
  /-- `left.localeCompare(right) <= 0`. -/
  le : JsString → JsString → Bool
  total : ∀ a b, le a b = true ∨ le b a = true
  trans : ∀ {a b c}, le a b = true → le b c = true → le a c = true

/-- The two keys collate as equal. -/
def Collation.Tied (c : Collation) (a b : JsString) : Prop := c.le a b = true ∧ c.le b a = true

section Arrange

variable {α β : Type*} (c : Collation) (key : α → JsString)

/-- The entries of an object built from the given ones, as they are enumerated. -/
def enumerate (l : List α) : List α :=
  (l.filter fun a ↦ isIndex (key a)).insertionSort
      (fun a b ↦ digitsValue (key a) ≤ digitsValue (key b)) ++
    l.filter fun a ↦ !isIndex (key a)

/-- `sort` with `localeCompare`. -/
def collate (l : List α) : List α := l.insertionSort fun a b ↦ c.le (key a) (key b) = true

/-- Sorted, and enumerated again. -/
def arrange (l : List α) : List α := enumerate key (collate c key l)

end Arrange

/-! ## The function -/

section Canonicalize

variable (c : Collation)

mutual

/-- `canonicalizeJson`.  The sort reads the keys only, so that the values may be replaced before
it; `canonicalizeJson_object` has the steps in the order of the source. -/
def canonicalizeJson : Json → Json
  | .array xs => .array (canonicalizeElements xs)
  | .object es => .object (arrange c Prod.fst (canonicalizeEntries es))
  | .null => .null
  | .bool b => .bool b
  | .number x => .number x
  | .string s => .string s

def canonicalizeElements : List Json → List Json
  | [] => []
  | x :: xs => canonicalizeJson x :: canonicalizeElements xs

def canonicalizeEntries : List (JsString × Json) → List (JsString × Json)
  | [] => []
  | (k, v) :: es => (k, canonicalizeJson v) :: canonicalizeEntries es

end

/-- The text that is hashed. -/
def canonicalText (v : Json) : JsString := (canonicalizeJson c v).stringify

end Canonicalize

/-! ## Values as JavaScript holds them -/

mutual

/-- The entries of every object are in the order of enumeration. -/
def Json.Enumerated : Json → Prop
  | .array xs => EnumeratedElements xs
  | .object es => (es.map Prod.fst).Pairwise Precedes ∧ EnumeratedEntries es
  | .null | .bool _ | .number _ | .string _ => True

def EnumeratedElements : List Json → Prop
  | [] => True
  | x :: xs => x.Enumerated ∧ EnumeratedElements xs

def EnumeratedEntries : List (JsString × Json) → Prop
  | [] => True
  | (_, v) :: es => v.Enumerated ∧ EnumeratedEntries es

end

theorem enumeratedElements_iff {xs : List Json} :
    EnumeratedElements xs ↔ ∀ x ∈ xs, x.Enumerated := by
  induction xs with
  | nil => simp [EnumeratedElements]
  | cons x xs ih => rw [EnumeratedElements, ih, List.forall_mem_cons]

theorem enumeratedEntries_iff {es : List (JsString × Json)} :
    EnumeratedEntries es ↔ ∀ e ∈ es, e.2.Enumerated := by
  induction es with
  | nil => simp [EnumeratedEntries]
  | cons e es ih => rw [EnumeratedEntries, ih, List.forall_mem_cons]

mutual

/-- Equality up to the order of keys, with a condition on the keys of each two objects. -/
def Json.Same (R : List JsString → List JsString → Prop) : Json → Json → Prop
  | .null, w => w = .null
  | .bool b, w => w = .bool b
  | .number x, w => w = .number x
  | .string s, w => w = .string s
  | .array xs, w => ∃ ys, w = .array ys ∧ SameElements R xs ys
  | .object es, w => ∃ es', w = .object es' ∧ es.length = es'.length ∧
      R (es.map Prod.fst) (es'.map Prod.fst) ∧ SameEntries R es es'

def SameElements (R : List JsString → List JsString → Prop) : List Json → List Json → Prop
  | [], ys => ys = []
  | x :: xs, ys => ∃ y ys', ys = y :: ys' ∧ x.Same R y ∧ SameElements R xs ys'

/-- Every entry of the first list is in the second. -/
def SameEntries (R : List JsString → List JsString → Prop) :
    List (JsString × Json) → List (JsString × Json) → Prop
  | [], _ => True
  | (k, v) :: es, es' => (∃ w, (k, w) ∈ es' ∧ v.Same R w) ∧ SameEntries R es es'

end

theorem sameEntries_iff {R : List JsString → List JsString → Prop}
    {es es' : List (JsString × Json)} :
    SameEntries R es es' ↔ ∀ e ∈ es, ∃ w, (e.1, w) ∈ es' ∧ e.2.Same R w := by
  induction es with
  | nil => simp [SameEntries]
  | cons e es ih => rw [SameEntries, ih, List.forall_mem_cons]

/-- Equality up to the order of keys. -/
def Json.Equal : Json → Json → Prop := Json.Same fun _ _ ↦ True

mutual

/-- No object has two different keys, neither of them an array index, that collate as equal. -/
def Json.Untied (c : Collation) : Json → Prop
  | .array xs => UntiedElements c xs
  | .object es =>
    (∀ a ∈ es.map Prod.fst, ∀ b ∈ es.map Prod.fst, isIndex a = false → isIndex b = false →
      c.Tied a b → a = b) ∧ UntiedEntries c es
  | .null | .bool _ | .number _ | .string _ => True

def UntiedElements (c : Collation) : List Json → Prop
  | [] => True
  | x :: xs => x.Untied c ∧ UntiedElements c xs

def UntiedEntries (c : Collation) : List (JsString × Json) → Prop
  | [] => True
  | (_, v) :: es => v.Untied c ∧ UntiedEntries c es

end

theorem untiedElements_iff {c : Collation} {xs : List Json} :
    UntiedElements c xs ↔ ∀ x ∈ xs, x.Untied c := by
  induction xs with
  | nil => simp [UntiedElements]
  | cons x xs ih => rw [UntiedElements, ih, List.forall_mem_cons]

theorem untiedEntries_iff {c : Collation} {es : List (JsString × Json)} :
    UntiedEntries c es ↔ ∀ e ∈ es, e.2.Untied c := by
  induction es with
  | nil => simp [UntiedEntries]
  | cons e es ih => rw [UntiedEntries, ih, List.forall_mem_cons]

/-! ## Pairs in order -/

section Pairs

variable {α : Type*} {l : List α} {a b : α}

/-- Two members of a list are in one order or the other. -/
theorem pair_sublist_or (ha : a ∈ l) (hb : b ∈ l) (hne : a ≠ b) :
    [a, b].Sublist l ∨ [b, a].Sublist l := by
  induction l with
  | nil => cases ha
  | cons x l ih =>
    rcases List.mem_cons.1 ha with rfl | ha'
    · rcases List.mem_cons.1 hb with rfl | hb'
      · exact absurd rfl hne
      · exact .inl ((List.singleton_sublist.2 hb').cons_cons a)
    · rcases List.mem_cons.1 hb with rfl | hb'
      · exact .inr ((List.singleton_sublist.2 ha').cons_cons b)
      · exact (ih ha' hb').imp (·.cons x) (·.cons x)

/-- Different members are in one order only. -/
theorem pair_sublist_asymm (hnodup : l.Nodup) (h : [a, b].Sublist l) : ¬ [b, a].Sublist l := by
  induction l with
  | nil => cases h
  | cons x l ih =>
    obtain ⟨hx, hl⟩ := List.nodup_cons.1 hnodup
    intro h'
    cases h with
    | cons _ h =>
      cases h' with
      | cons _ h' => exact ih hl h h'
      | cons_cons _ h' => exact hx (h.subset (List.mem_cons_of_mem _ List.mem_cons_self))
    | cons_cons _ h =>
      cases h' with
      | cons _ h' => exact hx (h'.subset (List.mem_cons_of_mem _ List.mem_cons_self))
      | cons_cons _ h' => exact hx (List.singleton_sublist.1 h)

end Pairs

/-! ## Arranged keys -/

section Keys

variable (c : Collation)

instance : Std.Total fun a b : JsString ↦ c.le a b = true := ⟨c.total⟩

instance : IsTrans JsString fun a b ↦ c.le a b = true := ⟨fun _ _ _ ↦ c.trans⟩

theorem enumerate_perm {α : Type*} (key : α → JsString) (l : List α) :
    (enumerate key l).Perm l := by
  refine List.Perm.trans ?_ (List.filter_append_perm (fun a ↦ isIndex (key a)) l)
  exact (List.perm_insertionSort _ _).append_right _

theorem arrange_perm {α : Type*} (key : α → JsString) (l : List α) :
    (arrange c key l).Perm l :=
  (enumerate_perm key _).trans (List.perm_insertionSort _ l)

/-- Arranging goes by the keys. -/
theorem arrange_map {α β : Type*} {key : α → JsString} {key' : β → JsString} {f : α → β}
    (hf : ∀ a, key' (f a) = key a) (l : List α) :
    (arrange c key l).map f = arrange c key' (l.map f) := by
  have hcollate : (collate c key l).map f = collate c key' (l.map f) :=
    List.map_insertionSort _ _ _ _ fun a _ b _ ↦ by rw [hf, hf]
  have hindex : ∀ m : List α,
      (m.insertionSort fun a b ↦ digitsValue (key a) ≤ digitsValue (key b)).map f =
        (m.map f).insertionSort fun a b ↦ digitsValue (key' a) ≤ digitsValue (key' b) :=
    fun m ↦ List.map_insertionSort _ _ _ _ fun a _ b _ ↦ by rw [hf, hf]
  have hkey : key' ∘ f = key := funext hf
  rw [arrange, arrange, ← hcollate, enumerate, enumerate, List.map_append, List.filter_map,
    List.filter_map, hindex, ← hkey]
  rfl

theorem map_arrange {α : Type*} (key : α → JsString) (l : List α) :
    (arrange c key l).map key = arrange c id (l.map key) := by
  have hkey : ∀ a, id (key a) = key a := fun _ ↦ rfl
  exact arrange_map c hkey l

/-- Keys that collate as equal, neither an array index, keep the order of the first list in the
second. -/
def KeepsTies (ks ks' : List JsString) : Prop :=
  ∀ a b, isIndex a = false → isIndex b = false → c.Tied a b → [a, b].Sublist ks → [a, b].Sublist ks'

variable {c} {ks ks' : List JsString}

theorem nodup_of_precedes (h : ks.Pairwise Precedes) : ks.Nodup := h.imp fun hab ↦ hab.1

/-- Whoever comes first, of two keys that are arranged. -/
def Arranged (c : Collation) (ks : List JsString) (a b : JsString) : Prop :=
  (isIndex b = true → isIndex a = true ∧ digitsValue a ≤ digitsValue b) ∧
    (isIndex a = false → c.le a b = true ∧ (c.le b a = true → [a, b].Sublist ks))

/-- **The order after arranging**: array indices by value, the others by the collation, and tied
ones as they were. -/
theorem arrange_pairwise (h : ks.Nodup) : (arrange c id ks).Pairwise (Arranged c ks) := by
  have hnodup : (collate c id ks).Nodup := ((List.perm_insertionSort _ ks).nodup_iff).2 h
  refine List.pairwise_append.2 ⟨?_, ?_, fun a ha b hb ↦ ?_⟩
  · have hsorted := List.pairwise_insertionSort
      (fun a b : JsString ↦ digitsValue (id a) ≤ digitsValue (id b))
      ((collate c id ks).filter fun a ↦ isIndex (id a))
    refine List.Pairwise.imp_of_mem ?_ hsorted
    intro a b ha _ hle
    have hindex : isIndex a = true := (List.mem_filter.1 ((List.mem_insertionSort _).1 ha)).2
    refine ⟨fun _ ↦ ⟨hindex, hle⟩, fun hnot ↦ ?_⟩
    rw [hindex] at hnot
    cases hnot
  · refine List.pairwise_iff_forall_sublist.2 fun {a b} hpair ↦ ?_
    have ha := List.mem_filter.1 (hpair.subset List.mem_cons_self)
    have hb := List.mem_filter.1 (hpair.subset (List.mem_cons_of_mem _ List.mem_cons_self))
    have hcollate : [a, b].Sublist (collate c id ks) := hpair.trans List.filter_sublist
    have hle : c.le a b = true :=
      List.pairwise_iff_forall_sublist.1
        (List.pairwise_insertionSort (fun a b : JsString ↦ c.le a b = true) ks) hcollate
    have hmem : ∀ {x}, x ∈ collate c id ks → x ∈ ks := fun hx ↦ (List.mem_insertionSort _).1 hx
    refine ⟨fun hindex ↦ ?_, fun _ ↦ ⟨hle, fun hback ↦ ?_⟩⟩
    · have hnot : isIndex b = false := by simpa using hb.2
      rw [hindex] at hnot
      cases hnot
    · have hne : a ≠ b := by
        rintro rfl
        exact pair_sublist_asymm hnodup hcollate hcollate
      rcases pair_sublist_or (hmem ha.1) (hmem hb.1) hne with hab | hba
      · exact hab
      · -- The sort would have kept the other order.
        have hsorted : [b, a].Sublist (collate c id ks) :=
          List.pair_sublist_insertionSort hback hba
        exact absurd hsorted (pair_sublist_asymm hnodup hcollate)
  · have hindex : isIndex a = true := (List.mem_filter.1 ((List.mem_insertionSort _).1 ha)).2
    have hnot : isIndex b = false := by simpa using (List.mem_filter.1 hb).2
    refine ⟨fun hb' ↦ ?_, fun ha' ↦ ?_⟩
    · rw [hnot] at hb'
      cases hb'
    · rw [hindex] at ha'
      cases ha'

/-- Tied keys keep their order when they are arranged. -/
theorem KeepsTies.arrange : KeepsTies c ks (arrange c id ks) := by
  intro a b ha hb htied hpair
  have hsorted : [a, b].Sublist (collate c id ks) := List.pair_sublist_insertionSort htied.1 hpair
  have hfilter := hsorted.filter fun a ↦ !isIndex (id a)
  rw [List.filter_eq_self.2] at hfilter
  · exact hfilter.trans (List.sublist_append_right _ _)
  · intro x hx
    rcases List.mem_cons.1 hx with rfl | hx
    · simp [ha]
    · rw [List.mem_singleton.1 hx]
      simp [hb]

/-- The order of tied keys can be told from the other list. -/
theorem KeepsTies.symm (h : KeepsTies c ks ks') (hperm : ks.Perm ks') (hnodup : ks.Nodup) :
    KeepsTies c ks' ks := by
  intro a b ha hb htied hpair
  have hnodup' : ks'.Nodup := hperm.nodup_iff.1 hnodup
  have hne : a ≠ b := by
    rintro rfl
    exact pair_sublist_asymm hnodup' hpair hpair
  have hmem : a ∈ ks ∧ b ∈ ks := by
    refine ⟨hperm.symm.subset (hpair.subset List.mem_cons_self), ?_⟩
    exact hperm.symm.subset (hpair.subset (List.mem_cons_of_mem _ List.mem_cons_self))
  rcases pair_sublist_or hmem.1 hmem.2 hne with hab | hba
  · exact hab
  · exact absurd (h b a hb ha ⟨htied.2, htied.1⟩ hba) (pair_sublist_asymm hnodup' hpair)

theorem KeepsTies.trans {ks'' : List JsString} (h : KeepsTies c ks ks')
    (h' : KeepsTies c ks' ks'') : KeepsTies c ks ks'' :=
  fun a b ha hb htied hpair ↦ h' a b ha hb htied (h a b ha hb htied hpair)

/-- **Two lists of keys are arranged alike** exactly when they have the same keys, and tied ones in
the same order. -/
theorem arrange_eq_iff (h : ks.Pairwise Precedes) (h' : ks'.Pairwise Precedes) :
    arrange c id ks = arrange c id ks' ↔ ks.Perm ks' ∧ KeepsTies c ks ks' := by
  have hnodup := nodup_of_precedes h
  have hnodup' := nodup_of_precedes h'
  constructor
  · intro heq
    have hperm : ks.Perm ks' := by
      have hright := arrange_perm c id ks'
      rw [← heq] at hright
      exact (arrange_perm c id ks).symm.trans hright
    have hback : KeepsTies c (arrange c id ks') ks' :=
      KeepsTies.arrange.symm (arrange_perm c id ks').symm hnodup'
    rw [← heq] at hback
    exact ⟨hperm, KeepsTies.arrange.trans hback⟩
  · rintro ⟨hperm, hties⟩
    have hties' := hties.symm hperm hnodup
    have hboth : (arrange c id ks').Pairwise (Arranged c ks) := by
      refine (arrange_pairwise hnodup').imp_of_mem ?_
      intro a b ha hb harranged
      refine ⟨harranged.1, fun hnot ↦ ?_⟩
      obtain ⟨hle, hpair⟩ := harranged.2 hnot
      refine ⟨hle, fun hback ↦ ?_⟩
      have hnot' : isIndex b = false := by
        by_contra hindex
        rw [Bool.not_eq_false] at hindex
        rw [(harranged.1 hindex).1] at hnot
        cases hnot
      exact hties' a b hnot hnot' ⟨hle, hback⟩ (hpair hback)
    refine List.Perm.eq_of_pairwise (fun a b ha hb hab hba ↦ ?_) (arrange_pairwise hnodup) hboth
      (((arrange_perm c id ks).trans hperm).trans (arrange_perm c id ks').symm)
    by_contra hne
    have ha' : a ∈ ks := (arrange_perm c id ks).subset ha
    have hb' : b ∈ ks := hperm.symm.subset ((arrange_perm c id ks').subset hb)
    by_cases hindex : isIndex a = true
    · -- Different array indices have different values.
      obtain ⟨hindex', hle'⟩ := hba.1 hindex
      obtain ⟨_, hle⟩ := hab.1 hindex'
      have hforall : ∀ {x y}, [x, y].Sublist ks → x.Precedes y := fun hpair ↦
        List.pairwise_iff_forall_sublist.1 h hpair
      rcases pair_sublist_or ha' hb' hne with hpair | hpair
      · exact absurd ((hforall hpair).2 hindex').2 hle'.not_gt
      · exact absurd ((hforall hpair).2 hindex).2 hle.not_gt
    · rw [Bool.not_eq_true] at hindex
      have hindex' : isIndex b = false := by
        by_contra hb''
        rw [Bool.not_eq_false] at hb''
        rw [(hab.1 hb'').1] at hindex
        cases hindex
      obtain ⟨hle, hpair⟩ := hab.2 hindex
      obtain ⟨hle', hpair'⟩ := hba.2 hindex'
      exact pair_sublist_asymm hnodup (hpair hle') (hpair' hle)

end Keys

/-! ## Values with one text -/

section Values

variable {c : Collation}

theorem eq_of_perm_of_map {α β : Type*} {f : α → β} {l l' : List α} (hperm : l.Perm l')
    (hmap : l.map f = l'.map f) (hnodup : (l.map f).Nodup) : l = l' := by
  induction l generalizing l' with
  | nil => exact (List.nil_perm.1 hperm).symm
  | cons a l ih =>
    obtain ⟨b, l', rfl⟩ := List.exists_cons_of_ne_nil (l := l') fun hnil ↦ by
      rw [hnil] at hmap
      cases hmap
    rw [List.map_cons, List.map_cons, List.cons.injEq] at hmap
    obtain ⟨hhead, htail⟩ := hmap
    rw [List.map_cons, List.nodup_cons] at hnodup
    have hab : a = b := by
      rcases List.mem_cons.1 (hperm.subset List.mem_cons_self) with hab | hmem
      · exact hab
      · refine absurd ?_ hnodup.1
        rw [htail]
        exact List.mem_map_of_mem hmem
    subst hab
    rw [ih (List.perm_cons a |>.1 hperm) htail hnodup.2]

/-- Two lists of entries are arranged alike exactly when they have the same entries, and tied keys
in the same order. -/
theorem arrange_entries_iff {α : Type*} {es es' : List (JsString × α)}
    (h : (es.map Prod.fst).Pairwise Precedes) (h' : (es'.map Prod.fst).Pairwise Precedes) :
    arrange c Prod.fst es = arrange c Prod.fst es' ↔
      es.Perm es' ∧ KeepsTies c (es.map Prod.fst) (es'.map Prod.fst) := by
  constructor
  · intro heq
    have hright := arrange_perm c Prod.fst es'
    rw [← heq] at hright
    refine ⟨(arrange_perm c Prod.fst es).symm.trans hright, ?_⟩
    have hkeys := congrArg (List.map Prod.fst) heq
    rw [map_arrange, map_arrange] at hkeys
    exact ((arrange_eq_iff h h').1 hkeys).2
  · rintro ⟨hperm, hties⟩
    refine eq_of_perm_of_map (f := Prod.fst) ?_ ?_ ?_
    · exact ((arrange_perm c Prod.fst es).trans hperm).trans (arrange_perm c Prod.fst es').symm
    · rw [map_arrange, map_arrange, arrange_eq_iff h h']
      exact ⟨hperm.map _, hties⟩
    · exact ((arrange_perm c Prod.fst es).map _).nodup_iff.2 (nodup_of_precedes h)

theorem canonicalizeEntries_eq_map (es : List (JsString × Json)) :
    canonicalizeEntries c es = es.map fun e ↦ (e.1, canonicalizeJson c e.2) := by
  induction es with
  | nil => rfl
  | cons e es ih => rw [canonicalizeEntries, ih, List.map_cons]

@[simp]
theorem map_fst_canonicalizeEntries (es : List (JsString × Json)) :
    (canonicalizeEntries c es).map Prod.fst = es.map Prod.fst := by
  rw [canonicalizeEntries_eq_map, List.map_map]
  rfl

/-- The steps in the order of the source: sort the entries, replace the values, and build the
object from them. -/
theorem canonicalizeJson_object (es : List (JsString × Json)) :
    canonicalizeJson c (.object es) =
      .object (enumerate Prod.fst
        ((collate c Prod.fst es).map fun e ↦ (e.1, canonicalizeJson c e.2))) := by
  have hsort : (collate c Prod.fst es).map (fun e ↦ (e.1, canonicalizeJson c e.2)) =
      collate c Prod.fst (canonicalizeEntries c es) := by
    rw [canonicalizeEntries_eq_map]
    exact List.map_insertionSort _ _ _ _ fun _ _ _ _ ↦ Iff.rfl
  rw [canonicalizeJson, hsort, arrange]

mutual

/-- **When two values become one.** -/
theorem canonicalizeJson_eq_iff : ∀ v w : Json, v.Enumerated → w.Enumerated →
    (canonicalizeJson c v = canonicalizeJson c w ↔ v.Same (KeepsTies c) w)
  | .null, w, _, _ => by cases w <;> simp [canonicalizeJson, Json.Same]
  | .bool b, w, _, _ => by cases w <;> simp [canonicalizeJson, Json.Same, eq_comm]
  | .number x, w, _, _ => by cases w <;> simp [canonicalizeJson, Json.Same, eq_comm]
  | .string s, w, _, _ => by cases w <;> simp [canonicalizeJson, Json.Same, eq_comm]
  | .array xs, w, hv, hw => by
    cases w with
    | array ys =>
      have hrest := canonicalizeElements_eq_iff xs ys hv hw
      simpa [canonicalizeJson, Json.Same] using hrest
    | _ => simp [canonicalizeJson, Json.Same]
  | .object es, w, hv, hw => by
    cases w with
    | object es' =>
      obtain ⟨hkeys, hvalues⟩ := hv
      obtain ⟨hkeys', hvalues'⟩ := hw
      have hentries := canonicalizeEntries_subset_iff es es' hvalues hvalues'
      have hnodup : (canonicalizeEntries c es).Nodup := by
        refine List.Nodup.of_map Prod.fst ?_
        rw [map_fst_canonicalizeEntries]
        exact nodup_of_precedes hkeys
      have hlength : ∀ l : List (JsString × Json), (canonicalizeEntries c l).length = l.length := by
        intro l
        rw [canonicalizeEntries_eq_map, List.length_map]
      have hperm : (canonicalizeEntries c es).Perm (canonicalizeEntries c es') ↔
          es.length = es'.length ∧ SameEntries (KeepsTies c) es es' := by
        rw [← hentries]
        constructor
        · intro hperm
          refine ⟨?_, hperm.subset⟩
          rw [← hlength es, hperm.length_eq, hlength es']
        · rintro ⟨hlen, hsub⟩
          refine (hnodup.subperm hsub).perm_of_length_le ?_
          rw [hlength, hlength, hlen]
      have harrange := @arrange_entries_iff c _ (canonicalizeEntries c es)
        (canonicalizeEntries c es') (by rwa [map_fst_canonicalizeEntries])
        (by rwa [map_fst_canonicalizeEntries])
      rw [map_fst_canonicalizeEntries, map_fst_canonicalizeEntries, hperm] at harrange
      rw [canonicalizeJson, canonicalizeJson, Json.object.injEq, harrange, Json.Same]
      constructor
      · rintro ⟨⟨hlen, hsame⟩, hties⟩
        exact ⟨es', rfl, hlen, hties, hsame⟩
      · rintro ⟨es'', heq, hlen, hties, hsame⟩
        obtain rfl := Json.object.inj heq
        exact ⟨⟨hlen, hsame⟩, hties⟩
    | _ => simp [canonicalizeJson, Json.Same]

theorem canonicalizeElements_eq_iff : ∀ xs ys : List Json, EnumeratedElements xs →
    EnumeratedElements ys →
    (canonicalizeElements c xs = canonicalizeElements c ys ↔ SameElements (KeepsTies c) xs ys)
  | [], ys, _, _ => by cases ys <;> simp [canonicalizeElements, SameElements]
  | x :: xs, [], _, _ => by simp [canonicalizeElements, SameElements]
  | x :: xs, y :: ys, hxs, hys => by
    have hhead := canonicalizeJson_eq_iff x y hxs.1 hys.1
    have htail := canonicalizeElements_eq_iff xs ys hxs.2 hys.2
    rw [canonicalizeElements, canonicalizeElements, List.cons.injEq, hhead, htail, SameElements]
    constructor
    · rintro ⟨hx, hrest⟩
      exact ⟨y, ys, rfl, hx, hrest⟩
    · rintro ⟨y', ys', heq, hx, hrest⟩
      obtain ⟨rfl, rfl⟩ := List.cons.inj heq
      exact ⟨hx, hrest⟩

theorem canonicalizeEntries_subset_iff : ∀ es es' : List (JsString × Json),
    EnumeratedEntries es → EnumeratedEntries es' →
    (canonicalizeEntries c es ⊆ canonicalizeEntries c es' ↔ SameEntries (KeepsTies c) es es')
  | [], es', _, _ => by simp [canonicalizeEntries, SameEntries]
  | (k, v) :: es, es', hes, hes' => by
    have hrest := canonicalizeEntries_subset_iff es es' hes.2 hes'
    have hvalue : ∀ w, (k, w) ∈ es' →
        (canonicalizeJson c v = canonicalizeJson c w ↔ v.Same (KeepsTies c) w) := fun w hw ↦
      canonicalizeJson_eq_iff v w hes.1 (enumeratedEntries_iff.1 hes' _ hw)
    rw [canonicalizeEntries, List.cons_subset, hrest, SameEntries, canonicalizeEntries_eq_map]
    refine and_congr_left fun _ ↦ ?_
    constructor
    · intro hmem
      obtain ⟨⟨k', w⟩, hw, heq⟩ := List.mem_map.1 hmem
      obtain ⟨rfl, hcanonical⟩ := Prod.mk.inj heq
      exact ⟨w, hw, (hvalue w hw).1 hcanonical.symm⟩
    · rintro ⟨w, hw, hsame⟩
      refine List.mem_map.2 ⟨(k, w), hw, ?_⟩
      rw [(hvalue w hw).2 hsame]

end

theorem canonicalizeElements_eq_map (xs : List Json) :
    canonicalizeElements c xs = xs.map (canonicalizeJson c) := by
  induction xs with
  | nil => rfl
  | cons x xs ih => rw [canonicalizeElements, ih, List.map_cons]

/-! ## The result as a value -/

/-- Arranged keys are in the order of enumeration. -/
theorem arrange_precedes {ks : List JsString} (h : ks.Pairwise Precedes) :
    (arrange c id ks).Pairwise Precedes := by
  have hnodup := nodup_of_precedes h
  have hforall : ∀ {x y}, [x, y].Sublist ks → x.Precedes y := fun hpair ↦
    List.pairwise_iff_forall_sublist.1 h hpair
  have hnodup' : (arrange c id ks).Nodup := (arrange_perm c id ks).nodup_iff.2 hnodup
  refine (hnodup'.and (arrange_pairwise hnodup)).imp_of_mem ?_
  rintro a b ha hb ⟨hne, harranged⟩
  refine ⟨hne, fun hindex ↦ ?_⟩
  obtain ⟨hindex', hle⟩ := harranged.1 hindex
  refine ⟨hindex', lt_of_le_of_ne hle fun heq ↦ ?_⟩
  have hmem : ∀ {x}, x ∈ arrange c id ks → x ∈ ks := fun hx ↦ (arrange_perm c id ks).subset hx
  rcases pair_sublist_or (hmem ha) (hmem hb) hne with hpair | hpair
  · exact ((hforall hpair).2 hindex).2.ne heq
  · exact ((hforall hpair).2 hindex').2.ne heq.symm

theorem enumerated_canonicalizeJson {v : Json} (h : v.Enumerated) :
    (canonicalizeJson c v).Enumerated := by
  induction v using Json.induction with
  | null | bool | number | string => exact h
  | array xs ih =>
    refine enumeratedElements_iff.2 fun y hy ↦ ?_
    rw [canonicalizeElements_eq_map] at hy
    obtain ⟨x, hx, rfl⟩ := List.mem_map.1 hy
    exact ih x hx (enumeratedElements_iff.1 h x hx)
  | object es ih =>
    refine ⟨?_, enumeratedEntries_iff.2 fun e he ↦ ?_⟩
    · rw [map_arrange, map_fst_canonicalizeEntries]
      exact arrange_precedes h.1
    · have hmem := (arrange_perm c Prod.fst (canonicalizeEntries c es)).subset he
      rw [canonicalizeEntries_eq_map] at hmem
      obtain ⟨e', he', rfl⟩ := List.mem_map.1 hmem
      exact ih e' he' (enumeratedEntries_iff.1 h.2 e' he')

/-- **Canonical values stay as they are.** -/
theorem canonicalizeJson_idempotent {v : Json} (h : v.Enumerated) :
    canonicalizeJson c (canonicalizeJson c v) = canonicalizeJson c v := by
  induction v using Json.induction with
  | null | bool | number | string => rfl
  | array xs ih =>
    rw [canonicalizeJson, canonicalizeJson, Json.array.injEq]
    rw [canonicalizeElements_eq_map, canonicalizeElements_eq_map, List.map_map]
    exact List.map_congr_left fun x hx ↦ ih x hx (enumeratedElements_iff.1 h x hx)
  | object es ih =>
    obtain ⟨hkeys, hvalues⟩ := h
    have hmap : ∀ l : List (JsString × Json), canonicalizeEntries c (arrange c Prod.fst l) =
        arrange c Prod.fst (canonicalizeEntries c l) := by
      intro l
      have hkey : ∀ e : JsString × Json, (e.1, canonicalizeJson c e.2).1 = e.1 := fun _ ↦ rfl
      rw [canonicalizeEntries_eq_map, canonicalizeEntries_eq_map]
      exact arrange_map c hkey l
    have htwice : canonicalizeEntries c (canonicalizeEntries c es) = canonicalizeEntries c es := by
      rw [canonicalizeEntries_eq_map, canonicalizeEntries_eq_map, List.map_map]
      refine List.map_congr_left fun e he ↦ ?_
      exact Prod.ext rfl (ih e he (enumeratedEntries_iff.1 hvalues e he))
    rw [canonicalizeJson, canonicalizeJson, hmap, htwice, Json.object.injEq]
    have hkeys' : ((canonicalizeEntries c es).map Prod.fst).Pairwise Precedes := by
      rwa [map_fst_canonicalizeEntries]
    rw [arrange_entries_iff ?_ hkeys']
    · rw [map_arrange]
      exact ⟨arrange_perm c _ _, KeepsTies.arrange.symm (arrange_perm c _ _).symm
        (nodup_of_precedes hkeys')⟩
    · rw [map_arrange]
      exact arrange_precedes hkeys'

/-! ## Ties -/

/-- The condition on keys may be dropped. -/
theorem Json.Same.equal {R : List JsString → List JsString → Prop} {v w : Json} (h : v.Same R w) :
    v.Equal w := by
  induction v using Json.induction generalizing w with
  | null | bool | number | string => exact h
  | array xs ih =>
    obtain ⟨ys, rfl, hsame⟩ := h
    refine ⟨ys, rfl, ?_⟩
    induction xs generalizing ys with
    | nil => exact hsame
    | cons x xs ih' =>
      obtain ⟨y, ys', rfl, hx, hrest⟩ := hsame
      obtain ⟨hhead, htail⟩ := List.forall_mem_cons.1 ih
      exact ⟨y, ys', rfl, hhead hx, ih' htail ys' hrest⟩
  | object es ih =>
    obtain ⟨es', rfl, hlen, _, hsame⟩ := h
    refine ⟨es', rfl, hlen, trivial, sameEntries_iff.2 fun e he ↦ ?_⟩
    obtain ⟨w, hw, hvalue⟩ := sameEntries_iff.1 hsame e he
    exact ⟨w, hw, ih e he hvalue⟩

/-- Without ties, equality up to the order of keys is enough. -/
theorem same_of_untied {v w : Json} (hv : v.Enumerated) (huntied : v.Untied c) (h : v.Equal w) :
    v.Same (KeepsTies c) w := by
  induction v using Json.induction generalizing w with
  | null | bool | number | string => exact h
  | array xs ih =>
    obtain ⟨ys, rfl, hsame⟩ := h
    refine ⟨ys, rfl, ?_⟩
    have hv' : EnumeratedElements xs := hv
    have huntied' : UntiedElements c xs := huntied
    clear hv huntied
    induction xs generalizing ys with
    | nil => exact hsame
    | cons x xs ih' =>
      obtain ⟨y, ys', rfl, hx, hrest⟩ := hsame
      obtain ⟨hhead, htail⟩ := List.forall_mem_cons.1 ih
      exact ⟨y, ys', rfl, hhead hv'.1 huntied'.1 hx, ih' htail ys' hrest hv'.2 huntied'.2⟩
  | object es ih =>
    obtain ⟨es', rfl, hlen, _, hsame⟩ := h
    refine ⟨es', rfl, hlen, fun a b ha hb htied hpair ↦ ?_, sameEntries_iff.2 fun e he ↦ ?_⟩
    · have heq : a = b := huntied.1 a (hpair.subset List.mem_cons_self) b
        (hpair.subset (List.mem_cons_of_mem _ List.mem_cons_self)) ha hb htied
      subst heq
      exact absurd hpair (pair_sublist_asymm (nodup_of_precedes hv.1) hpair)
    · obtain ⟨w, hw, hequal⟩ := sameEntries_iff.1 hsame e he
      exact ⟨w, hw, ih e he (enumeratedEntries_iff.1 hv.2 e he)
        (untiedEntries_iff.1 huntied.2 e he) hequal⟩

/-- The keys that are no array indices, in the opposite order. -/
def flip {α : Type*} (key : α → JsString) (l : List α) : List α :=
  (l.filter fun a ↦ isIndex (key a)) ++ (l.filter fun a ↦ !isIndex (key a)).reverse

mutual

/-- The value with the keys of every object in the opposite order, as far as they have one. -/
def Json.mirror : Json → Json
  | .array xs => .array (mirrorElements xs)
  | .object es => .object (flip Prod.fst (mirrorEntries es))
  | .null => .null
  | .bool b => .bool b
  | .number x => .number x
  | .string s => .string s

def mirrorElements : List Json → List Json
  | [] => []
  | x :: xs => x.mirror :: mirrorElements xs

def mirrorEntries : List (JsString × Json) → List (JsString × Json)
  | [] => []
  | (k, v) :: es => (k, v.mirror) :: mirrorEntries es

end

theorem mirrorElements_eq_map (xs : List Json) : mirrorElements xs = xs.map Json.mirror := by
  induction xs with
  | nil => rfl
  | cons x xs ih => rw [mirrorElements, ih, List.map_cons]

theorem mirrorEntries_eq_map (es : List (JsString × Json)) :
    mirrorEntries es = es.map fun e ↦ (e.1, e.2.mirror) := by
  induction es with
  | nil => rfl
  | cons e es ih => rw [mirrorEntries, ih, List.map_cons]

theorem flip_perm {α : Type*} (key : α → JsString) (l : List α) : (flip key l).Perm l := by
  refine List.Perm.trans ?_ (List.filter_append_perm (fun a ↦ isIndex (key a)) l)
  exact (List.reverse_perm _).append_left _

theorem map_flip {α : Type*} (key : α → JsString) (l : List α) :
    (flip key l).map key = flip id (l.map key) := by
  rw [flip, flip, List.map_append, List.map_reverse, List.filter_map, List.filter_map]
  rfl

theorem flip_precedes {ks : List JsString} (h : ks.Pairwise Precedes) :
    (flip id ks).Pairwise Precedes := by
  refine List.pairwise_append.2 ⟨h.filter _, ?_, fun a ha b hb ↦ ?_⟩
  · refine List.pairwise_reverse.2 ((h.filter _).imp_of_mem ?_)
    intro a b ha _ hab
    have hnot : isIndex a = false := by simpa using (List.mem_filter.1 ha).2
    refine ⟨hab.1.symm, fun hindex ↦ ?_⟩
    rw [hnot] at hindex
    cases hindex
  · have hindex : isIndex a = true := (List.mem_filter.1 ha).2
    have hnot : isIndex b = false := by simpa using (List.mem_filter.1 (List.mem_reverse.1 hb)).2
    refine ⟨fun heq ↦ ?_, fun hindex' ↦ ?_⟩
    · rw [heq, hnot] at hindex
      cases hindex
    · rw [hnot] at hindex'
      cases hindex'

theorem map_fst_mirrorEntries (es : List (JsString × Json)) :
    (mirrorEntries es).map Prod.fst = es.map Prod.fst := by
  rw [mirrorEntries_eq_map, List.map_map]
  rfl

theorem enumerated_mirror {v : Json} (h : v.Enumerated) : v.mirror.Enumerated := by
  induction v using Json.induction with
  | null | bool | number | string => exact h
  | array xs ih =>
    refine enumeratedElements_iff.2 fun y hy ↦ ?_
    rw [mirrorElements_eq_map] at hy
    obtain ⟨x, hx, rfl⟩ := List.mem_map.1 hy
    exact ih x hx (enumeratedElements_iff.1 h x hx)
  | object es ih =>
    refine ⟨?_, enumeratedEntries_iff.2 fun e he ↦ ?_⟩
    · rw [map_flip, map_fst_mirrorEntries]
      exact flip_precedes h.1
    · have hmem := (flip_perm Prod.fst (mirrorEntries es)).subset he
      rw [mirrorEntries_eq_map] at hmem
      obtain ⟨e', he', rfl⟩ := List.mem_map.1 hmem
      exact ih e' he' (enumeratedEntries_iff.1 h.2 e' he')

theorem mem_mirrorEntries {es : List (JsString × Json)} {k : JsString} {w : Json} :
    (k, w) ∈ flip Prod.fst (mirrorEntries es) ↔ ∃ v, (k, v) ∈ es ∧ v.mirror = w := by
  rw [(flip_perm Prod.fst _).mem_iff, mirrorEntries_eq_map, List.mem_map]
  constructor
  · rintro ⟨⟨k', v⟩, hmem, heq⟩
    obtain ⟨rfl, rfl⟩ := Prod.mk.inj heq
    exact ⟨v, hmem, rfl⟩
  · rintro ⟨v, hmem, rfl⟩
    exact ⟨(k, v), hmem, rfl⟩

theorem equal_mirror (v : Json) : v.Equal v.mirror := by
  induction v using Json.induction with
  | null | bool | number | string => rfl
  | array xs ih =>
    refine ⟨mirrorElements xs, rfl, ?_⟩
    induction xs with
    | nil => rfl
    | cons x xs ih' =>
      obtain ⟨hx, hxs⟩ := List.forall_mem_cons.1 ih
      exact ⟨_, _, rfl, hx, ih' hxs⟩
  | object es ih =>
    refine ⟨_, rfl, ?_, trivial, sameEntries_iff.2 fun e he ↦ ?_⟩
    · rw [(flip_perm Prod.fst _).length_eq, mirrorEntries_eq_map, List.length_map]
    · exact ⟨e.2.mirror, mem_mirrorEntries.2 ⟨e.2, he, rfl⟩, ih e he⟩

/-- With the opposite order of keys only values without ties are the same. -/
theorem untied_of_same_mirror {v : Json} (hv : v.Enumerated)
    (h : v.Same (KeepsTies c) v.mirror) : v.Untied c := by
  induction v using Json.induction with
  | null | bool | number | string => trivial
  | array xs ih =>
    obtain ⟨ys, hys, hsame⟩ := h
    obtain rfl := Json.array.inj hys
    refine untiedElements_iff.2 fun x hx ↦ ih x hx (enumeratedElements_iff.1 hv x hx) ?_
    clear ih hv hys
    induction xs with
    | nil => cases hx
    | cons x' xs ih' =>
      obtain ⟨y, ys', heq, hhead, hrest⟩ := hsame
      obtain ⟨rfl, rfl⟩ := List.cons.inj heq
      rcases List.mem_cons.1 hx with rfl | hx
      · exact hhead
      · exact ih' hrest hx
  | object es ih =>
    obtain ⟨es', hes, _, hties, hsame⟩ := h
    obtain rfl := Json.object.inj hes
    have hnodup := nodup_of_precedes hv.1
    have hkey : ∀ {k v w}, (k, v) ∈ es → (k, w) ∈ es → v = w := fun hv hw ↦
      congrArg Prod.snd (List.inj_on_of_nodup_map hnodup hv hw rfl)
    refine ⟨fun a ha b hb hindex hindex' htied ↦ ?_, untiedEntries_iff.2 fun e he ↦ ?_⟩
    · by_contra hne
      -- Whichever comes first, the mirror has the other order.
      have hflip : ∀ {x y : JsString}, isIndex x = false → isIndex y = false →
          [x, y].Sublist (es.map Prod.fst) → [y, x].Sublist (flip id (es.map Prod.fst)) := by
        intro x y hx hy hpair
        have hfilter := hpair.filter fun a ↦ !isIndex (id a)
        rw [List.filter_eq_self.2] at hfilter
        · exact hfilter.reverse.trans (List.sublist_append_right _ _)
        · intro z hz
          rcases List.mem_cons.1 hz with rfl | hz
          · simp [hx]
          · rw [List.mem_singleton.1 hz]
            simp [hy]
      have hnodup' : (flip id (es.map Prod.fst)).Nodup := (flip_perm id _).nodup_iff.2 hnodup
      rw [map_flip, map_fst_mirrorEntries] at hties
      rcases pair_sublist_or ha hb hne with hpair | hpair
      · exact pair_sublist_asymm hnodup' (hflip hindex hindex' hpair)
          (hties a b hindex hindex' htied hpair)
      · exact pair_sublist_asymm hnodup' (hflip hindex' hindex hpair)
          (hties b a hindex' hindex ⟨htied.2, htied.1⟩ hpair)
    · obtain ⟨w, hw, hsame'⟩ := sameEntries_iff.1 hsame e he
      obtain ⟨v', hv', rfl⟩ := mem_mirrorEntries.1 hw
      rw [hkey hv' he] at hsame'
      exact ih e he (enumeratedEntries_iff.1 hv.2 e he) hsame'

end Values

/-! ## Faithfulness -/

/-- A JSON value as JavaScript holds it. -/
structure JsonValue where
  value : Json
  enumerated : value.Enumerated

/-- `canonicalizeJson` on values. -/
def JsonValue.canonicalize (c : Collation) (a : JsonValue) : JsonValue :=
  ⟨canonicalizeJson c a.value, enumerated_canonicalizeJson a.enumerated⟩

/-- **Faithfulness.**  The text of a canonical value stays when it is made canonical again.  A value
has its text in common with the values equal to it up to the order of keys, and with no others,
exactly when none of its objects has two different keys, neither of them an array index, that
collate as equal. -/
theorem canonicalText_faithful_iff (c : Collation) (a : JsonValue) :
    canonicalText c (a.canonicalize c).value = canonicalText c a.value ∧
      ((∀ b : JsonValue, canonicalText c a.value = canonicalText c b.value ↔
          a.value.Equal b.value) ↔
        a.value.Untied c) := by
  have htext : ∀ b : JsonValue, canonicalText c a.value = canonicalText c b.value ↔
      a.value.Same (KeepsTies c) b.value := by
    intro b
    rw [← canonicalizeJson_eq_iff a.value b.value a.enumerated b.enumerated]
    exact ⟨Json.stringify_injective, congrArg Json.stringify⟩
  refine ⟨congrArg Json.stringify (canonicalizeJson_idempotent a.enumerated), ?_⟩
  constructor
  · intro hall
    have hmirror := hall ⟨a.value.mirror, enumerated_mirror a.enumerated⟩
    rw [htext] at hmirror
    exact untied_of_same_mirror a.enumerated (hmirror.2 (equal_mirror a.value))
  · intro huntied b
    rw [htext]
    refine ⟨fun hsame ↦ ?_, same_of_untied a.enumerated huntied⟩
    exact hsame.equal

namespace Specimen

/-- A collation that ignores soft hyphens, as the root collation does, and else compares code
units. -/
def ignoringSoftHyphens : Collation where
  le a b := decide (a.filter (· ≠ 0xAD) ≤ b.filter (· ≠ 0xAD))
  total a b := by
    simp only [decide_eq_true_iff]
    exact List.le_total _ _
  trans h h' := by
    simp only [decide_eq_true_iff] at h h' ⊢
    exact List.le_trans h h'

/-- The letter `a`, without and with a soft hyphen. -/
def plainKey : JsString := [97]

def softKey : JsString := [97, 0xAD]

/-- An object with the two keys, in one order. -/
def plainFirst : JsonValue where
  value := .object [(plainKey, .bool true), (softKey, .null)]
  enumerated := ⟨by simp [Precedes, plainKey, softKey, isIndex], trivial, trivial, trivial⟩

/-- The same object, in the other order. -/
def softFirst : JsonValue where
  value := .object [(softKey, .null), (plainKey, .bool true)]
  enumerated := ⟨by simp [Precedes, plainKey, softKey, isIndex], trivial, trivial, trivial⟩

end Specimen

/-- Two objects that are equal up to the order of their keys, with different texts. -/
theorem tied_keys_texts_differ :
    Specimen.plainFirst.value.Equal Specimen.softFirst.value ∧
      canonicalText Specimen.ignoringSoftHyphens Specimen.plainFirst.value ≠
        canonicalText Specimen.ignoringSoftHyphens Specimen.softFirst.value := by
  refine ⟨?_, by decide +kernel⟩
  refine ⟨_, rfl, rfl, trivial, ⟨.bool true, ?_, rfl⟩, ⟨.null, ?_, rfl⟩, trivial⟩
  · exact List.mem_cons_of_mem _ List.mem_cons_self
  · exact List.mem_cons_self

end AlpacaTrading
