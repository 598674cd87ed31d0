import Mathlib.Algebra.BigOperators.Group.List.Basic
import Mathlib.Algebra.BigOperators.Ring.List
import Mathlib.Algebra.Order.BigOperators.Group.List
import Mathlib.Data.Rat.Defs
import Mathlib.Tactic.Linarith
import Mathlib.Tactic.Ring

/-!
# Tables with unique constraints

A relational table is a finite list of rows no two of which violate a unique constraint.
The constraint is part of the type: `Table.unique` is a field, so a table holding two rows
with the same primary key cannot be built, and the lemmas about lookups need no side
condition.

The operations are the ones a transaction script performs: `get?` (lookup by primary key),
`count` (the row count a statement reports), `update` (`UPDATE … SET f WHERE p`), `insert?`
(an `INSERT` that fails on a violated constraint) and `total` (a `SUM` over the rows).

## Updates and lookups

The one fact every later argument uses is that an update acts row by row, hence commutes with
the primary-key lookup (`get?_update`), and that a sum moves by the contribution of the rows
the update touches (`total_update`).
-/

namespace AlpacaTrading

/-! ## Failing computations -/

/-- The check `if (!b) throw new Error(code)`. -/
def require (b : Bool) (code : String) : Except String Unit :=
  if b then .ok () else .error code

theorem require_eq_ok {b : Bool} {code : String} {u : Unit} :
    require b code = .ok u ↔ b = true := by
  unfold require
  by_cases h : b = true <;> simp [h]

/-- A sequence succeeds when both its steps do. -/
theorem bind_eq_ok {ε α β : Type} {x : Except ε α} {f : α → Except ε β} {b : β} :
    (x >>= f) = .ok b ↔ ∃ a, x = .ok a ∧ f a = .ok b := by
  cases x with
  | error e => simp [bind, Except.bind]
  | ok a => simp [bind, Except.bind]

/-- A sequence fails when one of its steps does. -/
theorem bind_eq_error {ε α β : Type} {x : Except ε α} {f : α → Except ε β} {e : ε} :
    (x >>= f) = .error e ↔ x = .error e ∨ ∃ a, x = .ok a ∧ f a = .error e := by
  rcases x with e' | a
  · simp [bind, Except.bind]
  · simp [bind, Except.bind]

theorem exceptMap_eq_ok {ε α β : Type*} {x : Except ε α} {f : α → β} {b : β} :
    x.map f = .ok b ↔ ∃ a, x = .ok a ∧ f a = b := by
  rcases x with e | a
  · simp [Except.map]
  · simp [Except.map]

theorem toOption_eq_some {ε α : Type*} {x : Except ε α} {a : α} :
    x.toOption = some a ↔ x = .ok a := by
  cases x with
  | error e => simp [Except.toOption]
  | ok b => simp [Except.toOption]

/-! ## Rows and tables -/

/-- A row type together with the unique constraints of its table: `key` is the primary key and
`clash` says that two rows may not both be stored. -/
class Row (ρ : Type*) (κ : outParam (Type*)) where
  /-- The primary key. -/
  key : ρ → κ
  /-- Two rows that violate a unique constraint together. -/
  clash : ρ → ρ → Prop
  /-- Unique constraints are checked at run time. -/
  dec : DecidableRel clash
  /-- Unique constraints do not depend on the order of the rows. -/
  symm : ∀ {a b}, clash a b → clash b a
  /-- The primary key is one of the constraints. -/
  clash_of_key : ∀ {a b}, key a = key b → clash a b

instance {ρ κ : Type*} [Row ρ κ] : DecidableRel (Row.clash : ρ → ρ → Prop) := Row.dec

/-- A column update that leaves the primary key and every unique constraint alone. -/
structure Keeps {ρ κ : Type*} [Row ρ κ] (f : ρ → ρ) : Prop where
  /-- The primary key stays. -/
  key : ∀ a, Row.key (f a) = Row.key a
  /-- The constrained columns stay. -/
  clash : ∀ a b, Row.clash (f a) b ↔ Row.clash a b

/-- A finite table whose rows satisfy their unique constraints. -/
@[ext]
structure Table (ρ : Type*) {κ : Type*} [Row ρ κ] where
  /-- The stored rows, oldest first. -/
  rows : List ρ
  /-- No two stored rows violate a unique constraint. -/
  unique : rows.Pairwise fun a b ↦ ¬ Row.clash a b

namespace Table

variable {ρ κ : Type*} [Row ρ κ]

/-! ## Operations -/

/-- The table without rows. -/
def empty : Table ρ := ⟨[], List.Pairwise.nil⟩

/-- The table holding the given rows, which must satisfy the constraints. -/
def ofRows (rows : List ρ) (h : rows.Pairwise fun a b ↦ ¬ Row.clash a b := by decide) :
    Table ρ := ⟨rows, h⟩

/-- `SELECT … WHERE key = k`. -/
def get? [DecidableEq κ] (t : Table ρ) (k : κ) : Option ρ :=
  t.rows.find? fun r ↦ Row.key r = k

/-- The number of rows satisfying `p`. -/
def count (t : Table ρ) (p : ρ → Bool) : Nat := t.rows.countP p

/-- `SUM(c)` over all rows. -/
def total (t : Table ρ) (c : ρ → ℚ) : ℚ := (t.rows.map c).sum

/-- `INSERT`: fails when a stored row clashes with the new one. -/
def insert? (t : Table ρ) (r : ρ) : Option (Table ρ) :=
  if h : ∀ x ∈ t.rows, ¬ Row.clash x r then
    some ⟨t.rows ++ [r], List.pairwise_append.2
      ⟨t.unique, List.pairwise_singleton _ _, by simpa using h⟩⟩
  else none

private theorem clash_step {f : ρ → ρ} (hf : Keeps f) (p : ρ → Bool) (a b : ρ) :
    Row.clash (if p a then f a else a) (if p b then f b else b) ↔ Row.clash a b := by
  have flip : ∀ x y : ρ, Row.clash x (f y) ↔ Row.clash x y := fun x y ↦
    ⟨fun h ↦ Row.symm ((hf.clash _ _).1 (Row.symm h)),
      fun h ↦ Row.symm ((hf.clash _ _).2 (Row.symm h))⟩
  by_cases ha : p a = true <;> by_cases hb : p b = true <;>
    simp [ha, hb, hf.clash, flip]

/-- `UPDATE … SET f WHERE p` for an update that touches no constrained column. -/
def update (t : Table ρ) (p : ρ → Bool) (f : ρ → ρ)
    (hf : Keeps f := by exact ⟨fun _ ↦ rfl, fun _ _ ↦ Iff.rfl⟩) : Table ρ :=
  ⟨t.rows.map fun r ↦ if p r then f r else r, by
    rw [List.pairwise_map]
    exact t.unique.imp fun {a b} hab ↦ fun h ↦ hab ((clash_step hf p a b).1 h)⟩

/-- `UPDATE … SET f WHERE p` for an update of constrained columns: fails when the updated rows
violate a constraint. -/
def update? (t : Table ρ) (p : ρ → Bool) (f : ρ → ρ) : Option (Table ρ) :=
  if h : (t.rows.map fun r ↦ if p r then f r else r).Pairwise fun a b ↦ ¬ Row.clash a b then
    some ⟨_, h⟩
  else none

/-! ## Rows -/

/-- Two stored rows that clash are the same row. -/
theorem eq_of_clash (t : Table ρ) {a b : ρ} (ha : a ∈ t.rows) (hb : b ∈ t.rows)
    (h : Row.clash a b) : a = b := by
  by_contra hne
  obtain ⟨i, hi, rfl⟩ := List.getElem_of_mem ha
  obtain ⟨j, hj, rfl⟩ := List.getElem_of_mem hb
  have hij : i ≠ j := fun e ↦ hne (by subst e; rfl)
  rcases Nat.lt_or_gt_of_ne hij with hlt | hlt
  · exact List.pairwise_iff_getElem.1 t.unique i j hi hj hlt h
  · exact List.pairwise_iff_getElem.1 t.unique j i hj hi hlt (Row.symm h)

theorem eq_of_key (t : Table ρ) {a b : ρ} (ha : a ∈ t.rows) (hb : b ∈ t.rows)
    (h : Row.key a = Row.key b) : a = b :=
  t.eq_of_clash ha hb (Row.clash_of_key h)

theorem rows_nodup (t : Table ρ) : t.rows.Nodup :=
  t.unique.imp fun h e ↦ h (Row.clash_of_key (congrArg Row.key e))

private theorem exists_split (t : Table ρ) {r : ρ} (hr : r ∈ t.rows) :
    ∃ l₁ l₂, t.rows = l₁ ++ r :: l₂ ∧ ∀ x ∈ l₁ ++ l₂, x ∈ t.rows ∧ x ≠ r := by
  have hnd := t.rows_nodup
  obtain ⟨l₁, l₂, hsplit⟩ := List.append_of_mem hr
  refine ⟨l₁, l₂, hsplit, fun x hx ↦ ⟨?_, ?_⟩⟩
  · rw [hsplit]
    rcases List.mem_append.1 hx with hx | hx
    · exact List.mem_append_left _ hx
    · exact List.mem_append_right _ (List.mem_cons_of_mem _ hx)
  · rintro rfl
    rw [hsplit] at hnd
    exact (List.nodup_cons.1 ((List.perm_middle).nodup_iff.1 hnd)).1 hx

theorem mem_update {t : Table ρ} {p : ρ → Bool} {f : ρ → ρ} {hf : Keeps f} {x : ρ} :
    x ∈ (t.update p f hf).rows ↔ ∃ y ∈ t.rows, (if p y then f y else y) = x := by
  simp [update]

/-- A property of every row that the update keeps is one of every row after it. -/
theorem forall_update {t : Table ρ} {p : ρ → Bool} {f : ρ → ρ} (hf : Keeps f) {P : ρ → Prop}
    (h : ∀ r ∈ t.rows, P r) (hstep : ∀ r ∈ t.rows, p r = true → P r → P (f r)) :
    ∀ r ∈ (t.update p f hf).rows, P r := by
  intro x hx
  obtain ⟨r, hr, rfl⟩ := mem_update.1 hx
  by_cases hp : p r = true
  · rw [if_pos hp]
    exact hstep r hr hp (h r hr)
  · rw [if_neg hp]
    exact h r hr

/-- An update no row qualifies for changes nothing. -/
theorem update_eq_self {t : Table ρ} {p : ρ → Bool} {f : ρ → ρ} {hf : Keeps f}
    (h : ∀ r ∈ t.rows, p r = false) : t.update p f hf = t := by
  ext1
  calc t.rows.map (fun r ↦ if p r then f r else r)
      = t.rows.map id := List.map_congr_left fun r hr ↦ by rw [h r hr]; rfl
    _ = t.rows := List.map_id _

theorem rows_of_update? {t t' : Table ρ} {p : ρ → Bool} {f : ρ → ρ}
    (h : t.update? p f = some t') : t'.rows = t.rows.map fun r ↦ if p r then f r else r := by
  unfold update? at h
  split at h
  · cases h; rfl
  · cases h

theorem rows_of_insert? {t t' : Table ρ} {r : ρ} (h : t.insert? r = some t') :
    t'.rows = t.rows ++ [r] := by
  unfold insert? at h
  split at h
  · cases h; rfl
  · cases h

theorem not_clash_of_insert? {t t' : Table ρ} {r : ρ} (h : t.insert? r = some t') {x : ρ}
    (hx : x ∈ t.rows) : ¬ Row.clash x r := by
  unfold insert? at h
  split at h
  · next hfree => exact hfree x hx
  · cases h

theorem mem_of_insert? {t t' : Table ρ} {r x : ρ} (h : t.insert? r = some t') (hx : x ∈ t.rows) :
    x ∈ t'.rows := by
  rw [rows_of_insert? h]
  exact List.mem_append_left _ hx

theorem forall_insert? {t t' : Table ρ} {r : ρ} {P : ρ → Prop} (hins : t.insert? r = some t')
    (h : ∀ x ∈ t.rows, P x) (hr : P r) : ∀ x ∈ t'.rows, P x := by
  intro x hx
  rw [rows_of_insert? hins, List.mem_append, List.mem_singleton] at hx
  rcases hx with hx | rfl
  · exact h x hx
  · exact hr

theorem insert?_isSome {t : Table ρ} {r : ρ} (h : ∀ x ∈ t.rows, ¬ Row.clash x r) :
    ∃ t', t.insert? r = some t' := by
  unfold insert?
  rw [dif_pos h]
  exact ⟨_, rfl⟩

/-- Several `INSERT`s: the table is the old one with the new rows, if no two rows clash. -/
def insertAll? (t : Table ρ) : List ρ → Option (Table ρ)
  | [] => some t
  | r :: rest => (t.insert? r).bind fun t' ↦ t'.insertAll? rest

theorem insertAll?_cons {t t' : Table ρ} {r : ρ} {rest : List ρ} :
    t.insertAll? (r :: rest) = some t' ↔
      ∃ t₁, t.insert? r = some t₁ ∧ t₁.insertAll? rest = some t' :=
  Option.bind_eq_some_iff

theorem insertAll?_singleton {t : Table ρ} {r : ρ} : t.insertAll? [r] = t.insert? r :=
  Option.bind_fun_some _

section Lookup

variable [DecidableEq κ]

theorem get?_eq_some {t : Table ρ} {k : κ} {r : ρ} :
    t.get? k = some r ↔ r ∈ t.rows ∧ Row.key r = k := by
  constructor
  · intro h
    exact ⟨List.mem_of_find?_eq_some h, by simpa using List.find?_some h⟩
  · rintro ⟨hr, hk⟩
    have hsome : (t.get? k).isSome := by
      unfold get?
      rw [List.find?_isSome]
      exact ⟨r, hr, by simpa using hk⟩
    obtain ⟨x, hx⟩ := Option.isSome_iff_exists.1 hsome
    have hmem := List.mem_of_find?_eq_some hx
    have hkey : Row.key x = k := by simpa using List.find?_some hx
    rw [hx, t.eq_of_key hmem hr (hkey.trans hk.symm)]

theorem get?_eq_none {t : Table ρ} {k : κ} :
    t.get? k = none ↔ ∀ r ∈ t.rows, Row.key r ≠ k := by
  simp [get?]

theorem mem_of_get? {t : Table ρ} {k : κ} {r : ρ} (h : t.get? k = some r) : r ∈ t.rows :=
  (get?_eq_some.1 h).1

theorem key_of_get? {t : Table ρ} {k : κ} {r : ρ} (h : t.get? k = some r) : Row.key r = k :=
  (get?_eq_some.1 h).2

theorem get?_of_mem {t : Table ρ} {r : ρ} (h : r ∈ t.rows) : t.get? (Row.key r) = some r :=
  get?_eq_some.2 ⟨h, rfl⟩

/-- **Updates commute with lookups.** -/
theorem get?_update (t : Table ρ) (p : ρ → Bool) (f : ρ → ρ) (hf : Keeps f) (k : κ) :
    (t.update p f hf).get? k = (t.get? k).map fun r ↦ if p r then f r else r := by
  have hkey : ∀ r : ρ, Row.key (if p r then f r else r) = Row.key r := by
    intro r
    by_cases hp : p r = true <;> simp [hp, hf.key]
  cases h : t.get? k with
  | none =>
    rw [get?_eq_none] at h
    simp only [Option.map_none, get?_eq_none, mem_update]
    rintro _ ⟨y, hy, rfl⟩
    rw [hkey]
    exact h y hy
  | some r =>
    rw [Option.map_some, get?_eq_some, mem_update]
    exact ⟨⟨r, mem_of_get? h, rfl⟩, (hkey r).trans (key_of_get? h)⟩

theorem get?_insert? {t t' : Table ρ} {r : ρ} (h : t.insert? r = some t') (k : κ) :
    t'.get? k = if Row.key r = k then some r else t.get? k := by
  have hrows := rows_of_insert? h
  split
  · next hk =>
    rw [get?_eq_some, hrows]
    exact ⟨by simp, hk⟩
  · next hk =>
    simp [get?, hrows, List.find?_append, hk]

/-! ## Row counts -/

/-- A stored row is still there after an insertion. -/
theorem get?_of_insert? {t t' : Table ρ} {r x : ρ} {k : κ} (h : t.insert? r = some t')
    (hx : t.get? k = some x) : t'.get? k = some x := by
  obtain ⟨hmem, hkey⟩ := get?_eq_some.1 hx
  exact get?_eq_some.2 ⟨mem_of_insert? h hmem, hkey⟩

theorem count_key (t : Table ρ) (k : κ) (c : ρ → Bool) :
    t.count (fun r ↦ decide (Row.key r = k) && c r) =
      match t.get? k with
      | some r => if c r then 1 else 0
      | none => 0 := by
  cases h : t.get? k with
  | none =>
    rw [get?_eq_none] at h
    simp only [count, List.countP_eq_zero]
    intro r hr
    simp [h r hr]
  | some r =>
    have hmem := mem_of_get? h
    have hk := key_of_get? h
    obtain ⟨l₁, l₂, hsplit, hrest⟩ := t.exists_split hmem
    have hzero : ∀ l : List ρ, (∀ x ∈ l, x ∈ l₁ ++ l₂) →
        l.countP (fun x ↦ decide (Row.key x = k) && c x) = 0 := by
      intro l hl
      rw [List.countP_eq_zero]
      intro x hx hp
      have hxk : Row.key x = k := by
        rw [Bool.and_eq_true, decide_eq_true_eq] at hp
        exact hp.1
      exact (hrest x (hl x hx)).2 (t.eq_of_key (hrest x (hl x hx)).1 hmem (hxk.trans hk.symm))
    simp [count, hsplit, List.countP_append, List.countP_cons, hk,
      hzero l₁ fun x hx ↦ List.mem_append_left _ hx,
      hzero l₂ fun x hx ↦ List.mem_append_right _ hx]

/-- A statement addressed by primary key changed exactly one row. -/
theorem count_key_eq_one {t : Table ρ} {k : κ} {c : ρ → Bool} :
    t.count (fun r ↦ decide (Row.key r = k) && c r) = 1 ↔ ∃ r, t.get? k = some r ∧ c r := by
  rw [count_key]
  cases h : t.get? k with
  | none => simp
  | some r => by_cases hc : c r = true <;> simp [hc]

end Lookup

/-! ## Statements that must change one row -/

/-- `INSERT`, followed by the check that one row was stored. -/
def insertOne (t : Table ρ) (r : ρ) (code : String) : Except String (Table ρ) :=
  match t.insert? r with
  | some t' => .ok t'
  | none => .error code

theorem insertOne_eq_ok {t t' : Table ρ} {r : ρ} {code : String} :
    t.insertOne r code = .ok t' ↔ t.insert? r = some t' := by
  unfold insertOne
  cases t.insert? r <;> simp

section Statement

variable [DecidableEq κ]

/-- The table with the row of key `k` replaced by its image. -/
def modify (t : Table ρ) (k : κ) (f : ρ → ρ)
    (hf : Keeps f := by exact ⟨fun _ ↦ rfl, fun _ _ ↦ Iff.rfl⟩) : Table ρ :=
  t.update (fun r ↦ Row.key r = k) f hf

/-- `UPDATE … WHERE id = k AND c`, followed by the check that one row changed. -/
def updateOne (t : Table ρ) (k : κ) (c : ρ → Bool) (f : ρ → ρ) (code : String)
    (hf : Keeps f := by exact ⟨fun _ ↦ rfl, fun _ _ ↦ Iff.rfl⟩) : Except String (Table ρ) :=
  if t.count (fun r ↦ decide (Row.key r = k) && c r) = 1 then
    .ok (t.update (fun r ↦ decide (Row.key r = k) && c r) f hf)
  else .error code

theorem get?_modify (t : Table ρ) (k : κ) (f : ρ → ρ) (hf : Keeps f) (j : κ) :
    (t.modify k f hf).get? j = if j = k then (t.get? j).map f else t.get? j := by
  unfold modify
  rw [get?_update]
  cases h : t.get? j with
  | none => simp
  | some r =>
    have hk := key_of_get? h
    by_cases hj : j = k
    · simp [hj, hk]
    · simp [hj, hk]

theorem mem_modify {t : Table ρ} {k : κ} {f : ρ → ρ} {hf : Keeps f} {x : ρ} :
    x ∈ (t.modify k f hf).rows ↔ ∃ y ∈ t.rows, (if Row.key y = k then f y else y) = x := by
  unfold modify
  rw [mem_update]
  simp only [decide_eq_true_eq]

theorem update_eq_modify {t : Table ρ} {k : κ} {c : ρ → Bool} {f : ρ → ρ} {hf : Keeps f} {r : ρ}
    (h : t.get? k = some r) (hc : c r) :
    t.update (fun x ↦ decide (Row.key x = k) && c x) f hf = t.modify k f hf := by
  ext1
  refine List.map_congr_left fun x hx ↦ ?_
  by_cases hk : Row.key x = k
  · have hxr : x = r := t.eq_of_key hx (mem_of_get? h) (hk.trans (key_of_get? h).symm)
    subst hxr
    simp [hk, hc]
  · simp [hk]

/-- **One-row updates.**  The statement goes through exactly when the addressed row is there and
meets the condition, and then it replaces that row. -/
theorem updateOne_eq_ok {t t' : Table ρ} {k : κ} {c : ρ → Bool} {f : ρ → ρ} {code : String}
    {hf : Keeps f} :
    t.updateOne k c f code hf = .ok t' ↔
      ∃ r, t.get? k = some r ∧ c r = true ∧ t' = t.modify k f hf := by
  unfold updateOne
  by_cases h : t.count (fun r ↦ decide (Row.key r = k) && c r) = 1
  · obtain ⟨r, hr, hc⟩ := count_key_eq_one.1 h
    rw [if_pos h, update_eq_modify hr hc]
    constructor
    · intro ht
      cases ht
      exact ⟨r, hr, hc, rfl⟩
    · rintro ⟨_, _, _, rfl⟩
      rfl
  · rw [if_neg h]
    constructor
    · intro ht
      cases ht
    · rintro ⟨r, hr, hc, _⟩
      exact absurd (count_key_eq_one.2 ⟨r, hr, hc⟩) h

end Statement

/-! ## Sums -/

theorem total_congr {t : Table ρ} {c d : ρ → ℚ} (h : ∀ r ∈ t.rows, c r = d r) :
    t.total c = t.total d := by
  unfold total
  rw [List.map_congr_left h]

theorem total_eq_zero {t : Table ρ} {c : ρ → ℚ} (h : ∀ r ∈ t.rows, c r = 0) :
    t.total c = 0 := by
  rw [total_congr h]
  simp [total]

theorem total_nonneg {t : Table ρ} {c : ρ → ℚ} (h : ∀ r ∈ t.rows, 0 ≤ c r) :
    0 ≤ t.total c := by
  refine List.sum_nonneg fun x hx ↦ ?_
  obtain ⟨r, hr, rfl⟩ := List.mem_map.1 hx
  exact h r hr

/-- A sum to which only one row contributes. -/
theorem total_eq_single {t : Table ρ} {c : ρ → ℚ} {r : ρ} (hr : r ∈ t.rows)
    (h : ∀ x ∈ t.rows, x ≠ r → c x = 0) : t.total c = c r := by
  obtain ⟨l₁, l₂, hsplit, hrest⟩ := t.exists_split hr
  have hsum : ∀ l : List ρ, (∀ x ∈ l, x ∈ l₁ ++ l₂) → (l.map c).sum = 0 := by
    intro l hl
    rw [List.map_congr_left fun x hx ↦ h x (hrest x (hl x hx)).1 (hrest x (hl x hx)).2]
    simp
  unfold total
  rw [hsplit]
  simp [hsum l₁ fun x hx ↦ List.mem_append_left _ hx,
    hsum l₂ fun x hx ↦ List.mem_append_right _ hx]

/-- A single row contributes at most the whole sum. -/
theorem le_total {t : Table ρ} {c : ρ → ℚ} {r : ρ} (hr : r ∈ t.rows)
    (h : ∀ x ∈ t.rows, 0 ≤ c x) : c r ≤ t.total c := by
  refine List.single_le_sum (fun x hx ↦ ?_) _ (List.mem_map_of_mem hr)
  obtain ⟨y, hy, rfl⟩ := List.mem_map.1 hx
  exact h y hy

/-- **Sums move by what the update touches.** -/
theorem total_update (t : Table ρ) (p : ρ → Bool) (f : ρ → ρ) (hf : Keeps f) (c : ρ → ℚ) :
    (t.update p f hf).total c = t.total c + t.total fun r ↦ if p r then c (f r) - c r else 0 := by
  unfold total update
  simp only [List.map_map]
  induction t.rows with
  | nil => simp
  | cons a l ih =>
    simp only [List.map_cons, List.sum_cons, ih, Function.comp_apply]
    by_cases hp : p a = true
    · simp [hp]; ring
    · simp [hp]; ring

/-- The sum after an update that changes one row only. -/
theorem total_update_single {t : Table ρ} {p : ρ → Bool} {f : ρ → ρ} {hf : Keeps f} {r : ρ}
    (c : ρ → ℚ) (hr : r ∈ t.rows) (hp : p r) (honly : ∀ x ∈ t.rows, p x → x = r) :
    (t.update p f hf).total c = t.total c + (c (f r) - c r) := by
  have hdelta : (t.total fun x ↦ if p x then c (f x) - c x else 0) = c (f r) - c r := by
    rw [total_eq_single hr]
    · simp [hp]
    · intro x hx hne
      rw [if_neg fun hpx ↦ hne (honly x hx hpx)]
  rw [total_update, hdelta]

theorem total_modify [DecidableEq κ] {t : Table ρ} {k : κ} {f : ρ → ρ} {hf : Keeps f} {r : ρ}
    (c : ρ → ℚ) (hr : t.get? k = some r) :
    (t.modify k f hf).total c = t.total c + (c (f r) - c r) := by
  refine total_update_single c (mem_of_get? hr) ?_ fun x hx hp ↦ ?_
  · simpa using key_of_get? hr
  · exact t.eq_of_key hx (mem_of_get? hr) ((by simpa using hp : Row.key x = k).trans
      (key_of_get? hr).symm)

theorem total_update_eq {t : Table ρ} {p : ρ → Bool} {f : ρ → ρ} {hf : Keeps f}
    (c : ρ → ℚ) (h : ∀ r ∈ t.rows, p r → c (f r) = c r) :
    (t.update p f hf).total c = t.total c := by
  have hdelta : (t.total fun x ↦ if p x then c (f x) - c x else 0) = 0 := by
    refine total_eq_zero fun r hr ↦ ?_
    by_cases hp : p r = true
    · simp [hp, h r hr hp]
    · simp [hp]
  rw [total_update, hdelta, add_zero]

theorem total_insert? {t t' : Table ρ} {r : ρ} (h : t.insert? r = some t') (c : ρ → ℚ) :
    t'.total c = t.total c + c r := by
  simp [total, rows_of_insert? h]

end Table

end AlpacaTrading
