import AlpacaTrading.Lib.Marking
import AlpacaTrading.ZeroDte.Lifecycle

/-!
# Serializing values with identity

`serializeZeroDteJson` on what the run time hands it: a value whose arrays and objects have an
identity, so that one can be reached in two ways, or from within itself.

## Why a shared part is lost

`sanitizeJsonValue` carries one set of all containers it has come to, and calls a container of the
set circular.  A container stays in the set when the visit leaves it, so what is only shared is
called circular as well.  The traversal is exact when no container is reached twice
(`sanitizeJsonValue_marks`).
-/

namespace AlpacaTrading.ZeroDte.JsonGraph

open JsString Marking

variable {R : Type*}

/-! ## Values -/

/-- A value of the run time.  An array or an object is a reference. -/
inductive Value (R : Type*) where
  | undefined
  | null
  | bool (b : Bool)
  | number (x : Option Decimal)
  /-- A number that is not finite. -/
  | notFinite
  | string (s : JsString)
  | ref (r : R)

def Value.isUndefined : Value R → Bool
  | undefined => true
  | _ => false

/-- An array, or an object with what `Object.entries` gives of it. -/
inductive Node (R : Type*) where
  | array (elements : List (Value R))
  | object (entries : List (JsString × Value R))

namespace Node

def children : Node R → List (Value R)
  | array elements => elements
  | object entries => entries.map Prod.snd

def keys : Node R → List JsString
  | array _ => []
  | object entries => entries.map Prod.fst

end Node

/-- The arrays and objects behind the references.  No object has a key twice. -/
structure Heap (R : Type*) where
  node : R → Node R
  keys_nodup : ∀ r, (node r).keys.Nodup

/-! ## Sanitizing -/

/-- The loop over the entries of an object, where `kept` keys are stored already. -/
def keepEntries (child : Value R → Finset R → Json × Finset R) :
    ℕ → List (JsString × Value R) → Finset R → List (JsString × Json) × Finset R
  | _, [], seen => ([], seen)
  | kept, (key, entry) :: entries, seen =>
    if isSensitiveKey key then keepEntries child kept entries seen
    else if entry.isUndefined then keepEntries child kept entries seen
    else if key = protoKey then keepEntries child kept entries (child entry seen).2
    else if maxJsonItems ≤ kept + 1 then ([(key, (child entry seen).1)], (child entry seen).2)
    else
      ((key, (child entry seen).1) :: (keepEntries child (kept + 1) entries (child entry seen).2).1,
        (keepEntries child (kept + 1) entries (child entry seen).2).2)

section Sanitize

variable [DecidableEq R] [Runtime]

/-- `sanitizeJsonValue`, with the levels that are left below `MAX_JSON_DEPTH` instead of the
depth. -/
def sanitizeJsonValue (heap : Heap R) : ℕ → Value R → Finset R → Json × Finset R
  | _, .null, seen => (.null, seen)
  | _, .bool b, seen => (.bool b, seen)
  | _, .number x, seen => (.number x, seen)
  | _, .notFinite, seen => (.null, seen)
  | _, .string s, seen =>
    (.string ((Runtime.redactSensitiveText s).take maxJsonStringLength), seen)
  -- The depth is checked before the kind and the identity of the value.
  | 0, .undefined, seen => (.string (ofAscii "[TRUNCATED]"), seen)
  | 0, .ref _, seen => (.string (ofAscii "[TRUNCATED]"), seen)
  | _ + 1, .undefined, seen => (.string (ofAscii "undefined"), seen)
  | levels + 1, .ref r, seen =>
    if r ∈ seen then (.string (ofAscii "[CIRCULAR]"), seen)
    else
      match heap.node r with
      | .array elements =>
        let visit := mapMarked (sanitizeJsonValue heap levels) (elements.take maxJsonItems)
        (.array (visit (insert r seen)).1, (visit (insert r seen)).2)
      | .object entries =>
        let visit := keepEntries (sanitizeJsonValue heap levels) 0 entries
        (.object (visit (insert r seen)).1, (visit (insert r seen)).2)

/-- The value that `serializeZeroDteJson` prints: `value ?? {}`, sanitized. -/
def sanitizedRoot (heap : Heap R) (value : Value R) : Json :=
  match value with
  | .undefined => .object []
  | .null => .object []
  | value => (sanitizeJsonValue heap maxJsonDepth value ∅).1

def serializeZeroDteJson (heap : Heap R) (value : Value R) (fallback : JsString) : JsString :=
  if maxJsonLength < (sanitizedRoot heap value).stringify.length then fallback
  else (sanitizedRoot heap value).stringify

end Sanitize

/-! ## What a value stands for -/

section Unfolding

/-- The JSON value that a value with that many levels of containers stands for.  What JSON has no
value for is read as `null`. -/
def unfolded (heap : Heap R) : ℕ → Value R → Json
  | _, .undefined => .null
  | _, .null => .null
  | _, .bool b => .bool b
  | _, .number x => .number x
  | _, .notFinite => .null
  | _, .string s => .string s
  | 0, .ref _ => .null
  | levels + 1, .ref r =>
    match heap.node r with
    | .array elements => .array (elements.map (unfolded heap levels))
    | .object entries => .object (entries.map fun e ↦ (e.1, unfolded heap levels e.2))

/-- The value has at most that many levels of containers, and it is within the bounds of the
sanitizer: no number that is not finite, no long text and none with a secret, no long container, no
entry with a sensitive key, nothing undefined. -/
def Storable [Runtime] (heap : Heap R) : ℕ → Value R → Prop
  | _, .undefined => False
  | _, .null => True
  | _, .bool _ => True
  | _, .number _ => True
  | _, .notFinite => False
  | _, .string s => Runtime.redactSensitiveText s = s ∧ s.length ≤ maxJsonStringLength
  | 0, .ref _ => False
  | levels + 1, .ref r =>
    (heap.node r).children.length ≤ maxJsonItems ∧
      (∀ key ∈ (heap.node r).keys, isSensitiveKey key = false) ∧
      ∀ child ∈ (heap.node r).children, Storable heap levels child

/-- The containers of a value, in the order of the visit, each as often as it is reached. -/
def containers (heap : Heap R) : ℕ → Value R → List R
  | levels + 1, .ref r => r :: (heap.node r).children.flatMap (containers heap levels)
  | _, _ => []

/-- No object of the value has the key `__proto__`. -/
def ProtoFree (heap : Heap R) : ℕ → Value R → Prop
  | levels + 1, .ref r =>
    protoKey ∉ (heap.node r).keys ∧ ∀ child ∈ (heap.node r).children, ProtoFree heap levels child
  | _, _ => True

end Unfolding

/-! ## What is stored is safe -/

/-- No object of the value has a sensitive key, nor a key twice. -/
inductive Safe : Json → Prop
  | null : Safe .null
  | bool (b : Bool) : Safe (.bool b)
  | number (x : Option Decimal) : Safe (.number x)
  | string (s : JsString) : Safe (.string s)
  | array {elements : List Json} (safe : ∀ v ∈ elements, Safe v) : Safe (.array elements)
  | object {entries : List (JsString × Json)} (keys_nodup : (entries.map Prod.fst).Nodup)
      (keys_safe : ∀ e ∈ entries, isSensitiveKey e.1 = false) (safe : ∀ e ∈ entries, Safe e.2) :
      Safe (.object entries)

theorem Safe.empty : Safe (.object []) := .object (by simp) (by simp) (by simp)

section Entries

variable {child : Value R → Finset R → Json × Finset R}

/-- The keys that are stored are keys of the object, in their order. -/
theorem keepEntries_keys (kept : ℕ) (entries : List (JsString × Value R)) (seen : Finset R) :
    ((keepEntries child kept entries seen).1.map Prod.fst).Sublist (entries.map Prod.fst) := by
  induction entries generalizing kept seen with
  | nil => simp [keepEntries]
  | cons e entries ih =>
    rw [keepEntries, List.map_cons]
    split_ifs
    · exact (ih kept seen).cons e.1
    · exact (ih kept seen).cons e.1
    · exact (ih kept _).cons e.1
    · exact (List.nil_sublist _).cons_cons e.1
    · exact (ih (kept + 1) _).cons_cons e.1

/-- What is stored: under a key that is neither sensitive nor `__proto__`, a sanitized value. -/
theorem forall_mem_keepEntries {P : Json → Prop} (h : ∀ entry seen, P (child entry seen).1)
    (kept : ℕ) (entries : List (JsString × Value R)) (seen : Finset R) :
    ∀ e ∈ (keepEntries child kept entries seen).1,
      isSensitiveKey e.1 = false ∧ e.1 ≠ protoKey ∧ P e.2 := by
  induction entries generalizing kept seen with
  | nil => simp [keepEntries]
  | cons e entries ih =>
    rw [keepEntries]
    split_ifs with hsensitive hundefined hproto hfull
    · exact ih kept seen
    · exact ih kept seen
    · exact ih kept _
    · rw [List.forall_mem_singleton]
      exact ⟨Bool.eq_false_of_not_eq_true hsensitive, hproto, h _ _⟩
    · rw [List.forall_mem_cons]
      exact ⟨⟨Bool.eq_false_of_not_eq_true hsensitive, hproto, h _ _⟩, ih (kept + 1) _⟩

end Entries

section Sanitized

variable [DecidableEq R] [Runtime]

/-- **Whatever a value refers to, what is made of it is safe.** -/
theorem sanitizeJsonValue_safe (heap : Heap R) (levels : ℕ) (value : Value R) (seen : Finset R) :
    Safe (sanitizeJsonValue heap levels value seen).1 := by
  induction levels generalizing value seen with
  | zero =>
    rcases value with - | - | b | x | - | s | r <;> rw [sanitizeJsonValue] <;> constructor
  | succ levels ih =>
    rcases value with - | - | b | x | - | s | r
    case ref =>
      rw [sanitizeJsonValue]
      split_ifs
      · exact .string _
      · have hkeys := heap.keys_nodup r
        rcases hnode : heap.node r with elements | entries <;> rw [hnode] at hkeys
        · exact .array (forall_mem_mapMarked ih _ _)
        · -- A sublist of distinct keys, each of them checked.
          have hstored := forall_mem_keepEntries ih 0 entries (insert r seen)
          exact .object (hkeys.sublist (keepEntries_keys 0 entries _))
            (fun e he ↦ (hstored e he).1) fun e he ↦ (hstored e he).2.2
    all_goals rw [sanitizeJsonValue]; constructor

theorem sanitizedRoot_safe (heap : Heap R) (value : Value R) : Safe (sanitizedRoot heap value) := by
  rw [sanitizedRoot.eq_def]
  split
  · exact .empty
  · exact .empty
  · exact sanitizeJsonValue_safe heap _ _ _

end Sanitized

/-! ## What is stored is the value -/

section Exact

variable [DecidableEq R]

/-- The visit of an entry that is stored. -/
def storeEntry (child : Value R → Finset R → Json × Finset R) (e : JsString × Value R)
    (seen : Finset R) : (JsString × Json) × Finset R :=
  ((e.1, (child e.2 seen).1), (child e.2 seen).2)

omit [DecidableEq R] in
/-- With nothing to skip and not too many entries, every entry is stored. -/
theorem keepEntries_eq {child : Value R → Finset R → Json × Finset R} {kept : ℕ}
    {entries : List (JsString × Value R)} (seen : Finset R)
    (hplain : ∀ e ∈ entries,
      isSensitiveKey e.1 = false ∧ e.2.isUndefined = false ∧ e.1 ≠ protoKey)
    (hroom : kept + entries.length ≤ maxJsonItems) :
    keepEntries child kept entries seen = mapMarked (storeEntry child) entries seen := by
  induction entries generalizing kept seen with
  | nil => rfl
  | cons e entries ih =>
    obtain ⟨⟨hsensitive, hundefined, hproto⟩, hrest⟩ := List.forall_mem_cons.1 hplain
    rw [List.length_cons] at hroom
    rw [keepEntries, hsensitive, hundefined, if_neg Bool.false_ne_true, if_neg Bool.false_ne_true,
      if_neg hproto, mapMarked]
    by_cases hfull : maxJsonItems ≤ kept + 1
    · -- The hundredth entry is the last one.
      have hlast : entries = [] := List.eq_nil_of_length_eq_zero (by omega)
      rw [if_pos hfull, hlast]
      rfl
    · rw [if_neg hfull, ih _ hrest (by omega)]
      rfl

variable [Runtime]

omit [DecidableEq R] in
theorem Storable.defined {heap : Heap R} {levels : ℕ} {value : Value R}
    (h : Storable heap levels value) : value.isUndefined = false := by
  rcases value with - | - | b | x | - | s | r <;> try rfl
  rw [Storable] at h
  exact h.elim

/-- What refers to nothing marks nothing. -/
theorem marks_of_scalar (heap : Heap R) {levels : ℕ} {value : Value R}
    (h : Storable heap levels value) (hscalar : ∀ r, value ≠ .ref r) :
    MarksOnce (sanitizeJsonValue heap levels value) (containers heap levels value)
      (unfolded heap levels value) (ProtoFree heap levels value) := by
  rcases levels with - | levels <;>
    rcases value with - | - | b | x | - | s | r <;> rw [Storable] at h
  case zero.ref | succ.ref => exact absurd rfl (hscalar r)
  case zero.string | succ.string =>
    have hvisit (levels : ℕ) : sanitizeJsonValue heap levels (.string s) =
        fun seen ↦ (.string s, seen) := by
      funext seen
      rw [sanitizeJsonValue, h.1, List.take_of_length_le h.2]
    rw [hvisit]
    exact MarksOnce.pure (Json.string s)
  case zero.null | succ.null => exact MarksOnce.pure Json.null
  case zero.bool | succ.bool => exact MarksOnce.pure (Json.bool b)
  case zero.number | succ.number => exact MarksOnce.pure (Json.number x)
  all_goals exact h.elim

/-- An array is exact where its elements are. -/
theorem marks_of_array (heap : Heap R) {levels : ℕ} {r : R} {elements : List (Value R)}
    (hnode : heap.node r = .array elements) (hlength : elements.length ≤ maxJsonItems)
    (h : ∀ x ∈ elements, MarksOnce (sanitizeJsonValue heap levels x) (containers heap levels x)
      (unfolded heap levels x) (ProtoFree heap levels x)) :
    MarksOnce (sanitizeJsonValue heap (levels + 1) (.ref r)) (containers heap (levels + 1) (.ref r))
      (unfolded heap (levels + 1) (.ref r)) (ProtoFree heap (levels + 1) (.ref r)) := by
  have hvisit : sanitizeJsonValue heap (levels + 1) (.ref r) = fun seen ↦
      if r ∈ seen then (.string (ofAscii "[CIRCULAR]"), seen)
      else
        (Json.array (mapMarked (sanitizeJsonValue heap levels) elements (insert r seen)).1,
          (mapMarked (sanitizeJsonValue heap levels) elements (insert r seen)).2) := by
    funext seen
    rw [sanitizeJsonValue, hnode]
    simp only [List.take_of_length_le hlength]
  rw [hvisit, containers, unfolded, ProtoFree, hnode]
  have helements := (MarksOnce.mapMarked h).enter r (.string (ofAscii "[CIRCULAR]"))
    (fun _ _ ↦ Json.array.inj) Json.noConfusion
  exact helements.congr (by simp [Node.keys, Node.children])

/-- An object is exact where its entries are, and never if it has the key `__proto__`. -/
theorem marks_of_object (heap : Heap R) {levels : ℕ} {r : R} {entries : List (JsString × Value R)}
    (hnode : heap.node r = .object entries) (hlength : entries.length ≤ maxJsonItems)
    (hplain : ∀ e ∈ entries, isSensitiveKey e.1 = false ∧ e.2.isUndefined = false)
    (h : ∀ e ∈ entries, MarksOnce (sanitizeJsonValue heap levels e.2) (containers heap levels e.2)
      (unfolded heap levels e.2) (ProtoFree heap levels e.2)) :
    MarksOnce (sanitizeJsonValue heap (levels + 1) (.ref r)) (containers heap (levels + 1) (.ref r))
      (unfolded heap (levels + 1) (.ref r)) (ProtoFree heap (levels + 1) (.ref r)) := by
  have hvisit : sanitizeJsonValue heap (levels + 1) (.ref r) = fun seen ↦
      if r ∈ seen then (.string (ofAscii "[CIRCULAR]"), seen)
      else
        (Json.object (keepEntries (sanitizeJsonValue heap levels) 0 entries (insert r seen)).1,
          (keepEntries (sanitizeJsonValue heap levels) 0 entries (insert r seen)).2) := by
    funext seen
    rw [sanitizeJsonValue, hnode]
  rw [hvisit, containers, unfolded, ProtoFree, hnode]
  by_cases hproto : protoKey ∈ entries.map Prod.fst
  · -- The entry is never stored, so the object that is made lacks a key.
    refine (MarksOnce.never fun seen heq ↦ ?_).congr (by simp [Node.keys, hproto])
    split_ifs at heq
    have hstored := Json.object.inj heq
    obtain ⟨e, he, hkey⟩ := List.mem_map.1 hproto
    have hin : (e.1, unfolded heap levels e.2) ∈
        (keepEntries (sanitizeJsonValue heap levels) 0 entries (insert r seen)).1 := by
      rw [hstored]
      exact List.mem_map_of_mem he
    exact (forall_mem_keepEntries (P := fun _ ↦ True) (fun _ _ ↦ trivial) 0 entries _ _ hin).2.1
      hkey
  · have hkept : ∀ e ∈ entries,
        isSensitiveKey e.1 = false ∧ e.2.isUndefined = false ∧ e.1 ≠ protoKey :=
      fun e he ↦ ⟨(hplain e he).1, (hplain e he).2,
        fun hkey ↦ hproto (List.mem_map.2 ⟨e, he, hkey⟩)⟩
    simp only [keepEntries_eq _ hkept ((Nat.zero_add _).trans_le hlength)]
    have hentries := (MarksOnce.mapMarked fun e he ↦
      (h e he).map (Prod.mk_right_injective e.1)).enter r (.string (ofAscii "[CIRCULAR]"))
      (fun _ _ ↦ Json.object.inj) Json.noConfusion
    simp only [Node.children, List.flatMap_map, Node.keys]
    refine hentries.congr ?_
    simp only [hproto, not_false_iff, true_and, List.forall_mem_map]

/-- **A value within the bounds is kept as it is, exactly when no container of it is reached twice
and none has the key `__proto__`.** -/
theorem sanitizeJsonValue_marks (heap : Heap R) {levels : ℕ} {value : Value R}
    (h : Storable heap levels value) :
    MarksOnce (sanitizeJsonValue heap levels value) (containers heap levels value)
      (unfolded heap levels value) (ProtoFree heap levels value) := by
  induction levels generalizing value with
  | zero =>
    refine marks_of_scalar heap h ?_
    rintro r rfl
    rw [Storable] at h
    exact h
  | succ levels ih =>
    by_cases hscalar : ∀ r, value ≠ .ref r
    · exact marks_of_scalar heap h hscalar
    · obtain ⟨r, rfl⟩ := not_forall_not.1 hscalar
      rw [Storable] at h
      obtain ⟨hlength, hkeys, hchildren⟩ := h
      rcases hnode : heap.node r with elements | entries <;>
        rw [hnode] at hlength hkeys hchildren
      · exact marks_of_array heap hnode hlength fun x hx ↦ ih (hchildren x hx)
      · rw [Node.children, List.length_map] at hlength
        have hchild : ∀ e ∈ entries, Storable heap levels e.2 :=
          fun e he ↦ hchildren e.2 (List.mem_map_of_mem he)
        exact marks_of_object heap hnode hlength
          (fun e he ↦ ⟨hkeys e.1 (List.mem_map_of_mem he), (hchild e he).defined⟩)
          fun e he ↦ ih (hchild e he)

end Exact

/-! ## Serializing -/

/-- Parsing the text gives the value. -/
def Parses (text : JsString) (json : Json) : Prop := ∀ v : Json, text = v.stringify ↔ v = json

theorem parses_iff {text : JsString} {json : Json} : Parses text json ↔ text = json.stringify := by
  constructor
  · intro h
    exact (h json).2 rfl
  · rintro rfl v
    exact ⟨fun h ↦ (Json.stringify_injective h).symm, fun h ↦ by rw [h]⟩

theorem Parses.unique {text : JsString} {json json' : Json} (h : Parses text json)
    (h' : Parses text json') : json = json' :=
  (h' json).1 (parses_iff.1 h)

section Serialize

variable [DecidableEq R] [Runtime]

/-- What is stored is the text of what is made of the value, unless that is too long. -/
theorem serializeZeroDteJson_cases (heap : Heap R) (value : Value R) (fallback : JsString) :
    serializeZeroDteJson heap value fallback = fallback ∨
      serializeZeroDteJson heap value fallback = (sanitizedRoot heap value).stringify ∧
        (sanitizedRoot heap value).stringify.length ≤ maxJsonLength := by
  rw [serializeZeroDteJson]
  split_ifs with hlong
  · exact .inl rfl
  · exact .inr ⟨rfl, not_lt.1 hlong⟩

/-- A value whose text is not too long is stored under every fallback exactly when it is what
sanitizing makes. -/
theorem forall_parses_iff (heap : Heap R) (value : Value R) {json : Json}
    (hshort : json.stringify.length ≤ maxJsonLength) :
    (∀ fallback, Parses (serializeZeroDteJson heap value fallback) json) ↔
      sanitizedRoot heap value = json := by
  simp only [parses_iff]
  constructor
  · intro h
    -- A fallback that is not the text shows that the fallback was not taken.
    rcases serializeZeroDteJson_cases heap value (0 :: json.stringify) with hfallback | ⟨htext, -⟩
    · rw [h] at hfallback
      exact absurd hfallback.symm (List.cons_ne_self _ _)
    · rw [h] at htext
      exact (Json.stringify_injective htext).symm
  · intro h fallback
    rw [serializeZeroDteJson, h, if_neg (not_lt.2 hshort)]

/-- What is made of a value within the bounds is the value, exactly when it is not `null` and no
part of it is lost. -/
theorem sanitizedRoot_eq_iff (heap : Heap R) {value : Value R}
    (h : Storable heap maxJsonDepth value) :
    sanitizedRoot heap value = unfolded heap maxJsonDepth value ↔
      (containers heap maxJsonDepth value).Nodup ∧ ProtoFree heap maxJsonDepth value ∧
        value ≠ .null := by
  rw [sanitizedRoot.eq_def]
  split
  · exact absurd h.defined Bool.noConfusion
  · simp [unfolded]
  · next hnull =>
    have hnotNull : value ≠ .null := hnull
    rw [(sanitizeJsonValue_marks heap h).exact_iff ∅]
    simp [hnotNull]

/-- **The stored text is safe, and it is faithful to a value within the bounds exactly when no
container is reached twice, no object has the key `__proto__` and the value is not `null`.** -/
theorem serializeZeroDteJson_safe_and_faithful (heap : Heap R) (value : Value R) :
    (∀ fallback, serializeZeroDteJson heap value fallback = fallback ∨
      ∃ json, Parses (serializeZeroDteJson heap value fallback) json ∧
        (serializeZeroDteJson heap value fallback).length ≤ maxJsonLength ∧ Safe json) ∧
    (Storable heap maxJsonDepth value →
      (unfolded heap maxJsonDepth value).stringify.length ≤ maxJsonLength →
      ((∀ fallback, Parses (serializeZeroDteJson heap value fallback)
          (unfolded heap maxJsonDepth value)) ↔
        (containers heap maxJsonDepth value).Nodup ∧ ProtoFree heap maxJsonDepth value ∧
          value ≠ .null)) := by
  refine ⟨fun fallback ↦ ?_, fun hstorable hshort ↦ ?_⟩
  · rcases serializeZeroDteJson_cases heap value fallback with hfallback | ⟨htext, hlength⟩
    · exact .inl hfallback
    · rw [htext]
      exact .inr ⟨_, parses_iff.2 rfl, hlength, sanitizedRoot_safe heap value⟩
  · rw [forall_parses_iff heap value hshort]
    exact sanitizedRoot_eq_iff heap hstorable

end Serialize

/-! ### Values without sharing

`ZeroDte.serializeZeroDteJson` is the same code on JSON values, which have no identity. -/

section Tree

variable [Runtime]

theorem sanitizeElements_eq_map (depth : ℕ) (elements : List Json) :
    sanitizeElements depth elements = elements.map (ZeroDte.sanitizeJsonValue depth) := by
  induction elements with
  | nil => rfl
  | cons x elements ih => rw [sanitizeElements, ih, List.map_cons]

theorem sanitizeEntries_eq_map (depth : ℕ) {entries : List (JsString × Json)}
    (h : ∀ e ∈ entries, isSensitiveKey e.1 = false ∧ e.1 ≠ protoKey) :
    sanitizeEntries depth entries =
      entries.map fun e ↦ (e.1, ZeroDte.sanitizeJsonValue depth e.2) := by
  induction entries with
  | nil => rfl
  | cons e entries ih =>
    obtain ⟨⟨hsensitive, hproto⟩, hrest⟩ := List.forall_mem_cons.1 h
    rw [sanitizeEntries, hsensitive, if_neg Bool.false_ne_true, if_neg hproto, ih hrest,
      List.map_cons]

theorem sanitizeJsonValue_unfolded_of_scalar (heap : Heap R) {levels : ℕ} (depth : ℕ)
    {value : Value R} (h : Storable heap levels value) (hscalar : ∀ r, value ≠ .ref r) :
    ZeroDte.sanitizeJsonValue depth (unfolded heap levels value) = unfolded heap levels value := by
  rcases value with - | - | b | x | - | s | r <;> rw [Storable.eq_def] at h
  case ref => exact absurd rfl (hscalar r)
  case string =>
    rw [unfolded, ZeroDte.sanitizeJsonValue, h.1, List.take_of_length_le h.2]
  case undefined | notFinite => exact h.elim
  all_goals rw [unfolded, ZeroDte.sanitizeJsonValue]

/-- What a value within the bounds stands for is sanitized to itself. -/
theorem sanitizeJsonValue_unfolded (heap : Heap R) {levels depth : ℕ} {value : Value R}
    (h : Storable heap levels value) (hfree : ProtoFree heap levels value)
    (hdepth : depth + levels = maxJsonDepth) :
    ZeroDte.sanitizeJsonValue depth (unfolded heap levels value) = unfolded heap levels value := by
  by_cases hscalar : ∀ r, value ≠ .ref r
  · exact sanitizeJsonValue_unfolded_of_scalar heap depth h hscalar
  obtain ⟨r, rfl⟩ := not_forall_not.1 hscalar
  clear hscalar
  induction levels generalizing depth r with
  | zero =>
    rw [Storable] at h
    exact h.elim
  | succ levels ih =>
    rw [Storable] at h
    rw [ProtoFree] at hfree
    obtain ⟨hlength, hkeys, hchildren⟩ := h
    obtain ⟨hproto, hfree⟩ := hfree
    -- One level further down, at a reference or at something that refers to nothing.
    have hchild : ∀ child ∈ (heap.node r).children,
        ZeroDte.sanitizeJsonValue (depth + 1) (unfolded heap levels child) =
          unfolded heap levels child := by
      intro child hin
      by_cases hscalar : ∀ r, child ≠ .ref r
      · exact sanitizeJsonValue_unfolded_of_scalar heap _ (hchildren child hin) hscalar
      · obtain ⟨r', rfl⟩ := not_forall_not.1 hscalar
        exact ih (by omega) r' (hchildren _ hin) (hfree _ hin)
    have hroom : ¬maxJsonDepth ≤ depth := by omega
    rw [unfolded]
    rcases hnode : heap.node r with elements | entries <;>
      rw [hnode] at hlength hkeys hproto hchild
    · have helements : (elements.map (unfolded heap levels)).map
          (ZeroDte.sanitizeJsonValue (depth + 1)) = elements.map (unfolded heap levels) := by
        rw [List.map_map]
        exact List.map_congr_left hchild
      simp only [ZeroDte.sanitizeJsonValue, if_neg hroom]
      rw [sanitizeElements_eq_map, helements,
        List.take_of_length_le (by simpa [Node.children] using hlength)]
    · have hplain : ∀ e ∈ entries.map fun e ↦ (e.1, unfolded heap levels e.2),
          isSensitiveKey e.1 = false ∧ e.1 ≠ protoKey := by
        rw [List.forall_mem_map]
        intro e he
        have hkey : e.1 ∈ entries.map Prod.fst := List.mem_map_of_mem he
        exact ⟨hkeys _ hkey, fun heq ↦ hproto (heq ▸ hkey)⟩
      have hentries : (entries.map fun e ↦ (e.1, unfolded heap levels e.2)).map
          (fun e ↦ (e.1, ZeroDte.sanitizeJsonValue (depth + 1) e.2)) =
            entries.map fun e ↦ (e.1, unfolded heap levels e.2) := by
        rw [List.map_map]
        refine List.map_congr_left fun e he ↦ ?_
        rw [Function.comp_apply, hchild e.2 (List.mem_map_of_mem he)]
      simp only [ZeroDte.sanitizeJsonValue, if_neg hroom]
      rw [sanitizeEntries_eq_map _ hplain, hentries,
        List.take_of_length_le (by simpa [Node.children] using hlength)]

/-- Where nothing is shared, what is stored is what `ZeroDte.serializeZeroDteJson` stores. -/
theorem serializeZeroDteJson_eq_unfolded [DecidableEq R] (heap : Heap R) {value : Value R}
    (h : Storable heap maxJsonDepth value) (htree : (containers heap maxJsonDepth value).Nodup)
    (hfree : ProtoFree heap maxJsonDepth value) (hnull : value ≠ .null) (fallback : Json) :
    serializeZeroDteJson heap value fallback.stringify =
      (ZeroDte.serializeZeroDteJson (unfolded heap maxJsonDepth value) fallback).stringify := by
  have hroot := (sanitizedRoot_eq_iff heap h).2 ⟨htree, hfree, hnull⟩
  rw [serializeZeroDteJson, ZeroDte.serializeZeroDteJson, hroot,
    sanitizeJsonValue_unfolded heap h hfree (Nat.zero_add _)]
  exact (apply_ite Json.stringify _ _ _).symm

end Tree

/-! ### Two objects, and one object twice -/

namespace Specimen

/-- A run time that redacts nothing. -/
@[reducible] def plainRuntime : Runtime where
  dateParse _ := none
  decimal _ := none
  redactSensitiveText s := s

/-- The object `0` has two entries, the object `1` and the object `second`.  The other objects are
empty. -/
def pairHeap (second : Fin 3) : Heap (Fin 3) where
  node r :=
    if r = 0 then .object [(ofAscii "first", .ref 1), (ofAscii "second", .ref second)]
    else .object []
  keys_nodup r := by
    split_ifs
    · exact (by decide : [ofAscii "first", ofAscii "second"].Nodup)
    · exact List.nodup_nil

/-- The value of the object `0`, where the two entries are read as these. -/
def pairJson (first second : Json) : Json :=
  .object [(ofAscii "first", first), (ofAscii "second", second)]

variable {second : Fin 3} (hsecond : second ≠ 0)

include hsecond

theorem storable_pairHeap [Runtime] : Storable (pairHeap second) maxJsonDepth (.ref 0) := by
  have hkeys : isSensitiveKey (ofAscii "first") = false ∧
      isSensitiveKey (ofAscii "second") = false := by decide
  simp [Storable, maxJsonDepth, maxJsonItems, pairHeap, Node.children, Node.keys, hkeys, hsecond]

theorem unfolded_pairHeap :
    unfolded (pairHeap second) maxJsonDepth (.ref 0) = pairJson (.object []) (.object []) := by
  simp [unfolded, maxJsonDepth, pairHeap, pairJson, hsecond]

theorem protoFree_pairHeap : ProtoFree (pairHeap second) maxJsonDepth (.ref 0) := by
  have hkeys : protoKey ≠ ofAscii "first" ∧ protoKey ≠ ofAscii "second" := by decide
  simp [ProtoFree, maxJsonDepth, pairHeap, Node.children, Node.keys, hkeys, hsecond]

omit hsecond

theorem length_pairJson :
    (pairJson (.object []) (.object [])).stringify.length ≤ maxJsonLength := by
  decide +kernel

end Specimen

open Specimen

/-- Two empty objects are stored as they are. -/
theorem serializeZeroDteJson_safe_and_faithful_distinct :
    let _ : Runtime := plainRuntime
    ∀ fallback, Parses (serializeZeroDteJson (pairHeap 2) (.ref 0) fallback)
      (pairJson (.object []) (.object [])) := by
  intro _
  have hunfolded : unfolded (pairHeap 2) maxJsonDepth (.ref 0) = _ :=
    unfolded_pairHeap (by decide)
  have hfaithful := (serializeZeroDteJson_safe_and_faithful (pairHeap 2) (.ref 0)).2
    (storable_pairHeap (by decide)) (by rw [hunfolded]; exact length_pairJson)
  rw [hunfolded] at hfaithful
  exact hfaithful.2 ⟨by decide, protoFree_pairHeap (by decide), fun h ↦ by cases h⟩

/-- **An object reached twice is taken for a cycle.**  The value is within the bounds and no object
of it refers to itself, but the second of two equal entries is stored as a text. -/
theorem shared_object_called_circular :
    let _ : Runtime := plainRuntime
    let text := serializeZeroDteJson (pairHeap 1) (.ref 0) (Json.object []).stringify
    Storable (pairHeap 1) maxJsonDepth (.ref 0) ∧
      (unfolded (pairHeap 1) maxJsonDepth (.ref 0)).stringify.length ≤ maxJsonLength ∧
      unfolded (pairHeap 1) maxJsonDepth (.ref 0) = pairJson (.object []) (.object []) ∧
      Parses text (pairJson (.object []) (.string (ofAscii "[CIRCULAR]"))) ∧
      ¬Parses text (unfolded (pairHeap 1) maxJsonDepth (.ref 0)) := by
  intro _ text
  have hunfolded : unfolded (pairHeap 1) maxJsonDepth (.ref 0) = _ :=
    unfolded_pairHeap (by decide)
  have htext : Parses text (pairJson (.object []) (.string (ofAscii "[CIRCULAR]"))) := by
    rw [parses_iff]
    decide +kernel
  rw [hunfolded]
  refine ⟨storable_pairHeap (by decide), length_pairJson, rfl, htext, fun h ↦ ?_⟩
  have hsame := htext.unique h
  simp [pairJson] at hsame

end AlpacaTrading.ZeroDte.JsonGraph
