import Mathlib.Order.Lattice
import Mathlib.Order.Defs.LinearOrder

/-!
# Criteria with gaps

Two elements are compared on one criterion after the other.  A value beats a missing value and a
larger value beats a smaller one; equal values defer to the next criterion.  Two missing values end
the comparison: a relation of its own decides, whatever the criteria that follow.

For total preorders the comparison is one as well.  So the rule is consistent, but it depends on
the relation for the gaps exactly on the pairs that share one.
-/

namespace AlpacaTrading.Criteria

variable {α β κ : Type*} [LinearOrder κ]

/-- `a` comes no later than `b`. -/
def le (gap last : α → α → Prop) : List (α → Option κ) → α → α → Prop
  | [], a, b => last a b
  | f :: fs, a, b =>
    match f a, f b with
    | some x, some y => y < x ∨ x = y ∧ le gap last fs a b
    | some _, none => True
    | none, some _ => False
    | none, none => gap a b

/-- Two elements have the same values up to a criterion for which both have none. -/
def SharesGap : List (α → Option κ) → α → α → Prop
  | [], _, _ => False
  | f :: fs, a, b =>
    match f a, f b with
    | some x, some y => x = y ∧ SharesGap fs a b
    | none, none => True
    | _, _ => False

/-- On the first criterion on which they differ, `a` has a value and `b` has none. -/
def Supplies : List (α → Option κ) → α → α → Prop
  | [], _, _ => False
  | f :: fs, a, b =>
    match f a, f b with
    | some x, some y => x = y ∧ Supplies fs a b
    | some _, none => True
    | none, some _ => False
    | none, none => Supplies fs a b

section Cons

variable {gap last : α → α → Prop} {f : α → Option κ} {fs : List (α → Option κ)} {a b : α}

theorem le_cons : le gap last (f :: fs) a b ↔
    match f a, f b with
    | some x, some y => y < x ∨ x = y ∧ le gap last fs a b
    | some _, none => True
    | none, some _ => False
    | none, none => gap a b :=
  Iff.rfl

omit [LinearOrder κ] in
theorem sharesGap_cons : SharesGap (f :: fs) a b ↔
    match f a, f b with
    | some x, some y => x = y ∧ SharesGap fs a b
    | none, none => True
    | _, _ => False :=
  Iff.rfl

omit [LinearOrder κ] in
theorem supplies_cons : Supplies (f :: fs) a b ↔
    match f a, f b with
    | some x, some y => x = y ∧ Supplies fs a b
    | some _, none => True
    | none, some _ => False
    | none, none => Supplies fs a b :=
  Iff.rfl

end Cons

variable {gap last : α → α → Prop} {fs : List (α → Option κ)} {a b c : α}

theorem le_total (hgap : ∀ a b, gap a b ∨ gap b a) (hlast : ∀ a b, last a b ∨ last b a) (a b : α) :
    le gap last fs a b ∨ le gap last fs b a := by
  induction fs with
  | nil => exact hlast a b
  | cons f fs ih =>
    rw [le_cons, le_cons]
    rcases f a with - | x <;> rcases f b with - | y
    · exact hgap a b
    · exact Or.inr trivial
    · exact Or.inl trivial
    · rcases lt_trichotomy x y with hxy | rfl | hxy
      · exact Or.inr (Or.inl hxy)
      · exact ih.imp (fun h ↦ Or.inr ⟨rfl, h⟩) fun h ↦ Or.inr ⟨rfl, h⟩
      · exact Or.inl (Or.inl hxy)

theorem le_trans (hgap : ∀ a b c, gap a b → gap b c → gap a c)
    (hlast : ∀ a b c, last a b → last b c → last a c)
    (hab : le gap last fs a b) (hbc : le gap last fs b c) : le gap last fs a c := by
  induction fs with
  | nil => exact hlast a b c hab hbc
  | cons f fs ih =>
    revert hab hbc
    rw [le_cons, le_cons, le_cons]
    rcases f a with - | x <;> rcases f b with - | y <;> rcases f c with - | z <;> intro hab hbc
    · exact hgap a b c hab hbc
    · exact hbc
    · exact absurd hab not_false
    · exact hab
    · trivial
    · exact absurd hbc not_false
    · trivial
    · rcases hab with hxy | ⟨rfl, hab⟩ <;> rcases hbc with hyz | ⟨rfl, hbc⟩
      · exact Or.inl (hyz.trans hxy)
      · exact Or.inl hxy
      · exact Or.inl hyz
      · exact Or.inr ⟨rfl, ih hab hbc⟩

omit [LinearOrder κ] in
theorem SharesGap.symm (h : SharesGap fs a b) : SharesGap fs b a := by
  induction fs with
  | nil => exact h
  | cons f fs ih =>
    revert h
    rw [sharesGap_cons, sharesGap_cons]
    rcases f a with - | x <;> rcases f b with - | y <;> intro h
    · trivial
    · exact h
    · exact h
    · exact ⟨h.1.symm, ih h.2⟩

omit [LinearOrder κ] in
theorem sharesGap_map {fs : List (β → Option κ)} {g : α → β} :
    SharesGap (fs.map fun f x ↦ f (g x)) a b ↔ SharesGap fs (g a) (g b) := by
  induction fs with
  | nil => exact Iff.rfl
  | cons f fs ih =>
    rw [List.map_cons, sharesGap_cons, sharesGap_cons, ih]

omit [LinearOrder κ] in
theorem not_supplies_self : ¬ Supplies fs a a := by
  induction fs with
  | nil => exact not_false
  | cons f fs ih =>
    rw [supplies_cons]
    rcases f a with - | x
    · exact ih
    · exact fun h ↦ ih h.2

/-- A shared gap decides. -/
theorem le_iff_gap (h : SharesGap fs a b) : le gap last fs a b ↔ gap a b := by
  induction fs with
  | nil => exact absurd h not_false
  | cons f fs ih =>
    revert h
    rw [sharesGap_cons, le_cons]
    rcases f a with - | x <;> rcases f b with - | y <;> intro h
    · exact Iff.rfl
    · exact absurd h not_false
    · exact absurd h not_false
    · obtain ⟨rfl, h⟩ := h
      rw [← ih h]
      exact ⟨fun h ↦ h.elim (fun h ↦ absurd h (lt_irrefl _)) And.right, fun h ↦ Or.inr ⟨rfl, h⟩⟩

/-- Where no gap is shared, nothing depends on the relation for gaps.  The elements may be compared
through a function. -/
theorem le_of_le {gap' last' : β → β → Prop} {fs : List (β → Option κ)} {g : α → β}
    (h : ¬ SharesGap fs (g a) (g b)) (hlast : last a b → last' (g a) (g b))
    (hle : le gap last (fs.map fun f x ↦ f (g x)) a b) : le gap' last' fs (g a) (g b) := by
  induction fs with
  | nil => exact hlast hle
  | cons f fs ih =>
    revert h hle
    rw [sharesGap_cons, List.map_cons, le_cons, le_cons]
    rcases f (g a) with - | x <;> rcases f (g b) with - | y <;> intro h hle
    · exact absurd trivial h
    · exact hle
    · exact hle
    · exact hle.imp id fun ⟨hxy, hle⟩ ↦ ⟨hxy, ih (fun hgap ↦ h ⟨hxy, hgap⟩) hle⟩

/-- Elements that do not share a gap tie only if they tie in the end. -/
theorem last_of_le_of_le (h : ¬ SharesGap fs a b) (hab : le gap last fs a b)
    (hba : le gap last fs b a) : last a b := by
  induction fs with
  | nil => exact hab
  | cons f fs ih =>
    revert h hab hba
    rw [sharesGap_cons, le_cons, le_cons]
    rcases f a with - | x <;> rcases f b with - | y <;> intro h hab hba
    · exact absurd trivial h
    · exact absurd hab not_false
    · exact absurd hba not_false
    · rcases hab with hxy | ⟨hxy, hab⟩ <;> rcases hba with hyx | ⟨hyx, hba⟩
      · exact absurd hxy hyx.asymm
      · exact absurd hxy (hyx ▸ lt_irrefl _)
      · exact absurd hyx (hxy ▸ lt_irrefl _)
      · exact ih (fun hgap ↦ h ⟨hxy, hgap⟩) hab hba

/-- A value beats a missing one. -/
theorem not_le_of_supplies (h : ¬ SharesGap fs a b) (hsupplies : Supplies fs a b) :
    ¬ le gap last fs b a := by
  induction fs with
  | nil => exact absurd hsupplies not_false
  | cons f fs ih =>
    revert h hsupplies
    rw [sharesGap_cons, supplies_cons, le_cons]
    rcases f a with - | x <;> rcases f b with - | y <;> intro h hsupplies
    · exact absurd trivial h
    · exact absurd hsupplies not_false
    · exact not_false
    · obtain ⟨rfl, hsupplies⟩ := hsupplies
      rintro (hlt | ⟨-, hle⟩)
      · exact lt_irrefl _ hlt
      · exact ih (fun hgap ↦ h ⟨rfl, hgap⟩) hsupplies hle

end AlpacaTrading.Criteria
