import Mathlib.Data.List.DropRight
import Mathlib.Data.Nat.Digits.Lemmas
import Mathlib.Tactic

/-!
# JSON values and their texts

JSON values as JavaScript holds them, and `JSON.stringify` without spacing.

## Representation

A string is a list of UTF-16 code units, so that it may hold half of a surrogate pair, as a
JavaScript string may.  A number other than zero is given by the shortest decimal that names it,
the one `Number::toString` prints: its sign, its digits and the place of the point.  Zero is one
value, since `-0` prints as `0`.  An object is the list of its entries, in the order in which they
are enumerated.

The main result says that a value can be read from its text (`Json.stringify_injective`).  It is
proved without a parser: no text of a value is the beginning of another one, unless a number goes
on (`Json.stringify_readable`).
-/

namespace AlpacaTrading

/-- A UTF-16 code unit. -/
abbrev CodeUnit := UInt16

/-- A JavaScript string. -/
abbrev JsString := List CodeUnit

namespace JsString

/-- The code units of an ASCII text. -/
def ofAscii (s : String) : JsString := s.toList.map (·.toNat.toUInt16)

/-! ## Quoting -/

/-- The first half of a surrogate pair. -/
def isLeading (c : CodeUnit) : Bool := 0xD800 ≤ c && c ≤ 0xDBFF

/-- The second half of a surrogate pair. -/
def isTrailing (c : CodeUnit) : Bool := 0xDC00 ≤ c && c ≤ 0xDFFF

/-- A hexadecimal digit. -/
def hexDigit (n : ℕ) : CodeUnit := (if n < 10 then 48 + n else 87 + n).toUInt16

/-- Its value. -/
def hexValue (c : CodeUnit) : ℕ := if c.toNat < 58 then c.toNat - 48 else c.toNat - 87

/-- `UnicodeEscape`. -/
def unicodeEscape (c : CodeUnit) : JsString :=
  [92, 117, hexDigit (c.toNat / 4096), hexDigit (c.toNat / 256 % 16), hexDigit (c.toNat / 16 % 16),
    hexDigit (c.toNat % 16)]

/-- The text of a code unit that is no half of a pair. -/
def quoteUnit (c : CodeUnit) : JsString :=
  if c = 8 then [92, 98]
  else if c = 9 then [92, 116]
  else if c = 10 then [92, 110]
  else if c = 12 then [92, 102]
  else if c = 13 then [92, 114]
  else if c = 34 then [92, 34]
  else if c = 92 then [92, 92]
  else if c < 32 ∨ isLeading c ∨ isTrailing c then unicodeEscape c
  else [c]

/-- The text of a string between its quotes. -/
def quoteBody : JsString → JsString
  | [] => []
  | [c] => quoteUnit c
  | c :: d :: rest =>
    if isLeading c ∧ isTrailing d then c :: d :: quoteBody rest
    else quoteUnit c ++ quoteBody (d :: rest)

/-- `QuoteJSONString`. -/
def quote (s : JsString) : JsString := 34 :: quoteBody s ++ [34]

/-- Reads a string up to its closing quote. -/
def unquote : JsString → Option (JsString × JsString)
  | 34 :: rest => some ([], rest)
  | 92 :: 117 :: a :: b :: c :: d :: rest =>
    (unquote rest).map fun p ↦
      ((hexValue a * 4096 + hexValue b * 256 + hexValue c * 16 + hexValue d).toUInt16 :: p.1, p.2)
  | 92 :: c :: rest =>
    (unquote rest).map fun p ↦
      ((if c = 98 then 8 else if c = 116 then 9 else if c = 110 then 10 else if c = 102 then 12
        else if c = 114 then 13 else c) :: p.1, p.2)
  | c :: rest => (unquote rest).map fun p ↦ (c :: p.1, p.2)
  | [] => none

theorem hexValue_hexDigit {n : ℕ} (h : n < 16) : hexValue (hexDigit n) = n := by
  have hall : ∀ n < 16, hexValue (hexDigit n) = n := by decide
  exact hall n h

theorem unquote_unicodeEscape (c : CodeUnit) (rest : JsString) :
    unquote (unicodeEscape c ++ rest) = (unquote rest).map fun p ↦ (c :: p.1, p.2) := by
  have hc : c.toNat < 65536 := c.toNat_lt
  have hvalue : (c.toNat / 4096 * 4096 + c.toNat / 256 % 16 * 256 + c.toNat / 16 % 16 * 16 +
      c.toNat % 16).toUInt16 = c := by
    have hsum : c.toNat / 4096 * 4096 + c.toNat / 256 % 16 * 256 + c.toNat / 16 % 16 * 16 +
        c.toNat % 16 = c.toNat := by omega
    rw [hsum]
    exact UInt16.ofNat_toNat
  simp only [unicodeEscape, List.cons_append, List.nil_append, unquote]
  rw [hexValue_hexDigit (by omega), hexValue_hexDigit (by omega), hexValue_hexDigit (by omega),
    hexValue_hexDigit (by omega), hvalue]

/-- A code unit that stands for itself. -/
theorem unquote_cons {c : CodeUnit} (hquote : c ≠ 34) (hescape : c ≠ 92) (rest : JsString) :
    unquote (c :: rest) = (unquote rest).map fun p ↦ (c :: p.1, p.2) := by
  rw [unquote.eq_def]
  split <;> simp_all

theorem unquote_quoteUnit (c : CodeUnit) (rest : JsString) :
    unquote (quoteUnit c ++ rest) = (unquote rest).map fun p ↦ (c :: p.1, p.2) := by
  unfold quoteUnit
  split_ifs with h₁ h₂ h₃ h₄ h₅ h₆ h₇ h₈
  on_goal 8 => exact unquote_unicodeEscape c rest
  on_goal 8 => exact unquote_cons h₆ h₇ rest
  all_goals
    subst c
    simp [unquote]

/-- **A string can be read from its text.** -/
theorem unquote_quoteBody (s rest : JsString) :
    unquote (quoteBody s ++ 34 :: rest) = some (s, rest) := by
  induction s using quoteBody.induct with
  | case1 => simp [quoteBody, unquote]
  | case2 c => simp [quoteBody, unquote_quoteUnit, unquote]
  | case3 c d s hpair ih =>
    have hc : c ≠ 34 ∧ c ≠ 92 := by
      constructor <;> (rintro rfl; exact absurd hpair.1 (by decide))
    have hd : d ≠ 34 ∧ d ≠ 92 := by
      constructor <;> (rintro rfl; exact absurd hpair.2 (by decide))
    rw [quoteBody, if_pos hpair, List.cons_append, List.cons_append, unquote_cons hc.1 hc.2,
      unquote_cons hd.1 hd.2, ih]
    rfl
  | case4 c d s hpair ih =>
    rw [quoteBody, if_neg hpair, List.append_assoc, unquote_quoteUnit, ih]
    rfl

theorem quote_readable {s s' r r' : JsString} (h : quote s ++ r = quote s' ++ r') :
    s = s' ∧ r = r' := by
  simp only [quote, List.cons_append, List.append_assoc, List.nil_append, List.cons.injEq,
    true_and] at h
  have hread := congrArg unquote h
  rw [unquote_quoteBody, unquote_quoteBody] at hread
  exact Prod.mk.inj (Option.some_inj.1 hread)

end JsString

/-! ## Numbers -/

/-- A finite number other than zero: the value is `0.d₁d₂… · 10 ^ point`, with no zero at either
end of the digits. -/
structure Decimal where
  negative : Bool
  digits : List ℕ
  point : ℤ
  digit : ∀ d ∈ digits, d < 10
  nonempty : digits ≠ []
  head_ne : digits.head nonempty ≠ 0
  getLast_ne : digits.getLast nonempty ≠ 0

namespace Decimal

/-- The digit as a code unit. -/
def digitUnit (d : ℕ) : CodeUnit := (48 + d).toUInt16

/-- The exponent, with its sign. -/
def exponent (n : ℤ) : JsString :=
  101 :: (if 0 ≤ n then 43 else 45) :: (Nat.digits 10 n.natAbs).reverse.map digitUnit

/-- `Number::toString` of the magnitude. -/
def magnitude (x : Decimal) : JsString :=
  let ds := x.digits.map digitUnit
  if ds.length ≤ x.point ∧ x.point ≤ 21 then
    ds ++ List.replicate (x.point.toNat - ds.length) 48
  else if 0 < x.point ∧ x.point ≤ 21 then
    ds.take x.point.toNat ++ 46 :: ds.drop x.point.toNat
  else if -6 < x.point ∧ x.point ≤ 0 then
    48 :: 46 :: (List.replicate (-x.point).toNat 48 ++ ds)
  else if ds.length = 1 then ds ++ exponent (x.point - 1)
  else ds.take 1 ++ 46 :: (ds.drop 1 ++ exponent (x.point - 1))

/-- `Number::toString`. -/
def text (x : Decimal) : JsString := if x.negative then 45 :: x.magnitude else x.magnitude

/-! ### Reading a number

The digits of a number are those of its text without the point, from the first that is no zero to
the last.  The place of the point is counted from there. -/

/-- The text before the power of ten and the point. -/
def whole (t : JsString) : JsString := (t.takeWhile (· ≠ 101)).takeWhile (· ≠ 46)

/-- The text between the point and the power of ten. -/
def fraction (t : JsString) : JsString := ((t.takeWhile (· ≠ 101)).dropWhile (· ≠ 46)).drop 1

/-- The text of the power of ten. -/
def power (t : JsString) : JsString := t.dropWhile (· ≠ 101)

/-- The text without the zeros at both ends. -/
def strip (t : JsString) : JsString := (t.dropWhile (· = 48)).rdropWhile (· = 48)

theorem digitUnit_spec {d : ℕ} (h : d < 10) :
    (digitUnit d = 48 ↔ d = 0) ∧ digitUnit d ≠ 46 ∧ digitUnit d ≠ 101 ∧ digitUnit d ≠ 45 ∧
      ∀ d' < 10, digitUnit d = digitUnit d' → d = d' := by
  have hall : ∀ d < 10, (digitUnit d = 48 ↔ d = 0) ∧ digitUnit d ≠ 46 ∧ digitUnit d ≠ 101 ∧
      digitUnit d ≠ 45 ∧ ∀ d' < 10, digitUnit d = digitUnit d' → d = d' := by decide
  exact hall d h

/-- The parts of a text with a point. -/
theorem parts_point {w f p : JsString} (hw : ∀ c ∈ w, c ≠ 46 ∧ c ≠ 101) (hf : ∀ c ∈ f, c ≠ 101)
    (hp : p = [] ∨ p.head? = some 101) :
    whole (w ++ 46 :: (f ++ p)) = w ∧ fraction (w ++ 46 :: (f ++ p)) = f ∧
      power (w ++ 46 :: (f ++ p)) = p := by
  have hbefore : ∀ c ∈ w ++ 46 :: f, decide (c ≠ 101) = true := by
    intro c hc
    rcases List.mem_append.1 hc with hc | hc
    · exact decide_eq_true (hw c hc).2
    · rcases List.mem_cons.1 hc with rfl | hc
      · decide
      · exact decide_eq_true (hf c hc)
  have hsplit : w ++ 46 :: (f ++ p) = (w ++ 46 :: f) ++ p := by simp
  have hstop : p.takeWhile (· ≠ 101) = [] ∧ p.dropWhile (· ≠ 101) = p := by
    rcases hp with rfl | hp
    · exact ⟨rfl, rfl⟩
    · obtain ⟨rest, rfl⟩ := List.head?_eq_some_iff.1 hp
      simp
  have htake : (w ++ 46 :: (f ++ p)).takeWhile (· ≠ 101) = w ++ 46 :: f := by
    rw [hsplit, List.takeWhile_append_of_pos hbefore, hstop.1, List.append_nil]
  have hdrop : (w ++ 46 :: (f ++ p)).dropWhile (· ≠ 101) = p := by
    rw [hsplit, List.dropWhile_append_of_pos hbefore, hstop.2]
  have hw' : ∀ c ∈ w, decide (c ≠ 46) = true := fun c hc ↦ decide_eq_true (hw c hc).1
  refine ⟨?_, ?_, hdrop⟩
  · rw [whole, htake, List.takeWhile_append_of_pos hw']
    simp
  · rw [fraction, htake, List.dropWhile_append_of_pos hw']
    simp

/-- The parts of a text without a point. -/
theorem parts_plain {w p : JsString} (hw : ∀ c ∈ w, c ≠ 46 ∧ c ≠ 101)
    (hp : p = [] ∨ p.head? = some 101) :
    whole (w ++ p) = w ∧ fraction (w ++ p) = [] ∧ power (w ++ p) = p := by
  have hbefore : ∀ c ∈ w, decide (c ≠ 101) = true := fun c hc ↦ decide_eq_true (hw c hc).2
  have hpoint : ∀ c ∈ w, decide (c ≠ 46) = true := fun c hc ↦ decide_eq_true (hw c hc).1
  have hstop : p.takeWhile (· ≠ 101) = [] ∧ p.dropWhile (· ≠ 101) = p := by
    rcases hp with rfl | hp
    · exact ⟨rfl, rfl⟩
    · obtain ⟨rest, rfl⟩ := List.head?_eq_some_iff.1 hp
      simp
  have htake : (w ++ p).takeWhile (· ≠ 101) = w := by
    rw [List.takeWhile_append_of_pos hbefore, hstop.1, List.append_nil]
  refine ⟨?_, ?_, ?_⟩
  · rw [whole, htake, List.takeWhile_eq_self_iff.2 hpoint]
  · rw [fraction, htake, List.dropWhile_eq_nil_iff.2 hpoint]
    rfl
  · rw [power, List.dropWhile_append_of_pos hbefore, hstop.2]

/-- Zeros at both ends are told apart from the digits. -/
theorem strip_pad {ds : JsString} (hne : ds ≠ []) (hhead : ds.head hne ≠ 48)
    (hlast : ds.getLast hne ≠ 48) (a b : ℕ) :
    strip (List.replicate a 48 ++ (ds ++ List.replicate b 48)) = ds ∧
      ((List.replicate a 48 ++ (ds ++ List.replicate b 48)).takeWhile (· = 48)).length = a := by
  have hzeros : ∀ n, ∀ c ∈ List.replicate n (48 : CodeUnit), decide (c = 48) = true :=
    fun n c hc ↦ decide_eq_true (List.eq_of_mem_replicate hc)
  obtain ⟨d, rest, rfl⟩ := List.exists_cons_of_ne_nil hne
  have hd : decide (d = 48) = false := decide_eq_false hhead
  have hdrop : (List.replicate a 48 ++ (d :: rest ++ List.replicate b 48)).dropWhile (· = 48) =
      d :: rest ++ List.replicate b 48 := by
    rw [List.dropWhile_append_of_pos (hzeros a), List.cons_append, List.dropWhile_cons_of_neg]
    simp [hd]
  have hend : ∀ b, (d :: rest ++ List.replicate b 48).rdropWhile (· = 48) = d :: rest := by
    intro b
    induction b with
    | zero =>
      rw [List.replicate_zero, List.append_nil]
      exact List.rdropWhile_eq_self_iff.2 fun _ ↦ by simpa using hlast
    | succ b ih =>
      rw [List.replicate_succ', ← List.append_assoc, List.rdropWhile_concat_pos _ _ _ (by simp)]
      exact ih
  refine ⟨?_, ?_⟩
  · rw [strip, hdrop, hend b]
  · rw [List.takeWhile_append_of_pos (hzeros a), List.cons_append, List.takeWhile_cons_of_neg]
    · simp
    · simp [hd]

/-- **What a text says about its number.** -/
theorem magnitude_spec (x : Decimal) :
    let t := x.magnitude
    strip (whole t ++ fraction t) = x.digits.map digitUnit ∧
      ((power t = [] ∧ x.point = (whole t).length -
          ((whole t ++ fraction t).takeWhile (· = 48)).length) ∨
        power t = exponent (x.point - 1)) := by
  have hne : x.digits.map digitUnit ≠ [] := by simpa using x.nonempty
  have hunit : ∀ c ∈ x.digits.map digitUnit, c ≠ 46 ∧ c ≠ 101 := by
    intro c hc
    obtain ⟨d, hd, rfl⟩ := List.mem_map.1 hc
    obtain ⟨_, hpoint, hpower, _⟩ := digitUnit_spec (x.digit d hd)
    exact ⟨hpoint, hpower⟩
  have hhead : (x.digits.map digitUnit).head hne ≠ 48 := by
    rw [List.head_map, Ne, (digitUnit_spec (x.digit _ (List.head_mem _))).1]
    exact x.head_ne
  have hlast : (x.digits.map digitUnit).getLast hne ≠ 48 := by
    rw [List.getLast_map, Ne, (digitUnit_spec (x.digit _ (List.getLast_mem _))).1]
    exact x.getLast_ne
  have hpos : 0 < (x.digits.map digitUnit).length := List.length_pos_of_ne_nil hne
  have hpad := strip_pad hne hhead hlast
  have hplain : strip (x.digits.map digitUnit) = x.digits.map digitUnit ∧
      ((x.digits.map digitUnit).takeWhile (· = 48)).length = 0 := by
    simpa using hpad 0 0
  have hexp : exponent (x.point - 1) = [] ∨ (exponent (x.point - 1)).head? = some 101 :=
    .inr rfl
  unfold magnitude
  generalize x.digits.map digitUnit = ds at *
  dsimp only
  split_ifs with h₁ h₂ h₃ h₄
  · -- Zeros up to the point.
    have hzeros : ∀ c ∈ ds ++ List.replicate (x.point.toNat - ds.length) 48,
        c ≠ 46 ∧ c ≠ (101 : CodeUnit) := by
      intro c hc
      rcases List.mem_append.1 hc with hc | hc
      · exact hunit c hc
      · rw [List.eq_of_mem_replicate hc]
        decide
    have hparts := parts_plain hzeros (.inl rfl)
    rw [List.append_nil] at hparts
    obtain ⟨hwhole, hfraction, hpower⟩ := hparts
    have hstrip := hpad 0 (x.point.toNat - ds.length)
    rw [List.replicate_zero, List.nil_append] at hstrip
    rw [hwhole, hfraction, hpower, List.append_nil]
    refine ⟨hstrip.1, .inl ⟨rfl, ?_⟩⟩
    rw [hstrip.2, List.length_append, List.length_replicate]
    omega
  · -- A point among the digits.
    have hparts := parts_point (fun c hc ↦ hunit c (List.mem_of_mem_take hc))
      (fun c hc ↦ (hunit c (List.mem_of_mem_drop hc)).2) (.inl rfl)
      (w := ds.take x.point.toNat) (f := ds.drop x.point.toNat) (p := [])
    rw [List.append_nil] at hparts
    obtain ⟨hwhole, hfraction, hpower⟩ := hparts
    rw [hwhole, hfraction, hpower, List.take_append_drop]
    refine ⟨hplain.1, .inl ⟨rfl, ?_⟩⟩
    rw [hplain.2, List.length_take]
    omega
  · -- Zeros after the point.
    have hzero : ∀ c ∈ [(48 : CodeUnit)], c ≠ 46 ∧ c ≠ 101 :=
      List.forall_mem_singleton.2 ⟨by decide, by decide⟩
    have hfrac : ∀ c ∈ List.replicate (-x.point).toNat 48 ++ ds, c ≠ (101 : CodeUnit) := by
      intro c hc
      rcases List.mem_append.1 hc with hc | hc
      · rw [List.eq_of_mem_replicate hc]
        decide
      · exact (hunit c hc).2
    have hparts := parts_point hzero hfrac (.inl rfl) (p := [])
    rw [List.append_nil] at hparts
    obtain ⟨hwhole, hfraction, hpower⟩ := hparts
    have hstrip := hpad ((-x.point).toNat + 1) 0
    rw [List.replicate_zero, List.append_nil, List.replicate_succ, List.cons_append] at hstrip
    rw [List.singleton_append] at hwhole hfraction hpower
    rw [hwhole, hfraction, hpower]
    refine ⟨hstrip.1, .inl ⟨rfl, ?_⟩⟩
    rw [List.singleton_append, hstrip.2, List.length_singleton]
    omega
  · -- A power of ten.
    obtain ⟨hwhole, hfraction, hpower⟩ := parts_plain hunit hexp
    rw [hwhole, hfraction, hpower, List.append_nil]
    exact ⟨hplain.1, .inr rfl⟩
  · obtain ⟨hwhole, hfraction, hpower⟩ := parts_point
      (fun c hc ↦ hunit c (List.mem_of_mem_take hc))
      (fun c hc ↦ (hunit c (List.mem_of_mem_drop hc)).2) hexp
      (w := ds.take 1) (f := ds.drop 1)
    rw [hwhole, hfraction, hpower, List.take_append_drop]
    exact ⟨hplain.1, .inr rfl⟩

/-- Digits can be read back. -/
theorem map_digitUnit_inj {l l' : List ℕ} (hl : ∀ d ∈ l, d < 10) (hl' : ∀ d ∈ l', d < 10)
    (h : l.map digitUnit = l'.map digitUnit) : l = l' := by
  have hback : ∀ {l : List ℕ}, (∀ d ∈ l, d < 10) →
      (l.map digitUnit).map (fun c ↦ c.toNat - 48) = l := by
    intro l hl
    have hall : ∀ d < 10, (digitUnit d).toNat - 48 = d := by decide
    rw [List.map_map]
    conv_rhs => rw [← List.map_id l]
    exact List.map_congr_left fun d hd ↦ hall d (hl d hd)
  rw [← hback hl, h, hback hl']

theorem exponent_injective {n m : ℤ} (h : exponent n = exponent m) : n = m := by
  simp only [exponent, List.cons.injEq, true_and] at h
  obtain ⟨hsign, hdigits⟩ := h
  have hdigit : ∀ k : ℕ, ∀ d ∈ (Nat.digits 10 k).reverse, d < 10 := fun k d hd ↦
    Nat.digits_lt_base (by norm_num) (List.mem_reverse.1 hd)
  have habs : n.natAbs = m.natAbs := by
    have hlists := map_digitUnit_inj (hdigit _) (hdigit _) hdigits
    exact Nat.digits_inj_iff.1 (List.reverse_injective hlists)
  have hle : 0 ≤ n ↔ 0 ≤ m := by
    by_cases hn : 0 ≤ n
    · by_cases hm : 0 ≤ m
      · exact iff_of_true hn hm
      · rw [if_pos hn, if_neg hm] at hsign
        exact absurd hsign (by decide)
    · by_cases hm : 0 ≤ m
      · rw [if_neg hn, if_pos hm] at hsign
        exact absurd hsign (by decide)
      · exact iff_of_false hn hm
  omega

@[ext]
theorem ext {x y : Decimal} (hnegative : x.negative = y.negative) (hdigits : x.digits = y.digits)
    (hpoint : x.point = y.point) : x = y := by
  obtain ⟨_, _, _, _, _, _, _⟩ := x
  obtain ⟨_, _, _, _, _, _, _⟩ := y
  subst hnegative hdigits hpoint
  rfl

/-- The text of a magnitude begins with a digit, and has no sign but that of its power. -/
theorem magnitude_head (x : Decimal) :
    ∃ d < 10, x.magnitude.head? = some (digitUnit d) := by
  have hne : x.digits.map digitUnit ≠ [] := by simpa using x.nonempty
  obtain ⟨d, rest, hdigits⟩ := List.exists_cons_of_ne_nil x.nonempty
  have hd : d < 10 := x.digit d (by rw [hdigits]; exact List.mem_cons_self)
  have hzero : (48 : CodeUnit) = digitUnit 0 := by decide
  unfold magnitude
  rw [hdigits, List.map_cons]
  dsimp only
  split_ifs with h₁ h₂
  · exact ⟨d, hd, rfl⟩
  · refine ⟨d, hd, ?_⟩
    obtain ⟨k, hk⟩ : ∃ k, x.point.toNat = k + 1 := ⟨x.point.toNat - 1, by omega⟩
    rw [hk]
    rfl
  · exact ⟨0, by norm_num, by rw [← hzero]; rfl⟩
  · exact ⟨d, hd, rfl⟩
  · exact ⟨d, hd, rfl⟩

/-- **A number can be read from its text.** -/
theorem text_injective {x y : Decimal} (h : x.text = y.text) : x = y := by
  have hsign : ∀ z : Decimal, z.magnitude.head? ≠ some 45 := by
    intro z hz
    obtain ⟨d, hd, hhead⟩ := z.magnitude_head
    rw [hhead, Option.some_inj] at hz
    exact (digitUnit_spec hd).2.2.2.1 hz
  have hparts : x.negative = y.negative ∧ x.magnitude = y.magnitude := by
    unfold text at h
    split_ifs at h with hx hy hy
    · exact ⟨hx.trans hy.symm, List.tail_eq_of_cons_eq h⟩
    · exact absurd (congrArg List.head? h).symm (hsign y)
    · exact absurd (congrArg List.head? h) (hsign x)
    · rw [Bool.not_eq_true] at hx hy
      exact ⟨hx.trans hy.symm, h⟩
  obtain ⟨hnegative, hmagnitude⟩ := hparts
  obtain ⟨hdigits, hpoint⟩ := x.magnitude_spec
  obtain ⟨hdigits', hpoint'⟩ := y.magnitude_spec
  rw [← hmagnitude] at hdigits' hpoint'
  have hpower : exponent (x.point - 1) ≠ [] := List.cons_ne_nil _ _
  have hpower' : exponent (y.point - 1) ≠ [] := List.cons_ne_nil _ _
  refine Decimal.ext hnegative ?_ ?_
  · exact map_digitUnit_inj x.digit y.digit (hdigits.symm.trans hdigits')
  · rcases hpoint with ⟨hnil, hpoint⟩ | hpoint
    · rcases hpoint' with ⟨_, hpoint'⟩ | hpoint'
      · rw [hpoint, hpoint']
      · exact absurd (hpoint'.symm.trans hnil) hpower'
    · rcases hpoint' with ⟨hnil, _⟩ | hpoint'
      · exact absurd (hpoint.symm.trans hnil) hpower
      · have hone := exponent_injective (hpoint.symm.trans hpoint')
        omega

/-- The code units of numbers. -/
def isNumberUnit (c : CodeUnit) : Bool :=
  (48 ≤ c && c ≤ 57) || c = 43 || c = 45 || c = 46 || c = 101

theorem isNumberUnit_digitUnit {d : ℕ} (h : d < 10) : isNumberUnit (digitUnit d) = true := by
  have hall : ∀ d < 10, isNumberUnit (digitUnit d) = true := by decide
  exact hall d h

theorem exponent_units (n : ℤ) : ∀ c ∈ exponent n, isNumberUnit c = true := by
  have hsign : isNumberUnit (if 0 ≤ n then 43 else 45) = true := by split <;> decide
  intro c hc
  rcases List.mem_cons.1 hc with rfl | hc
  · decide
  rcases List.mem_cons.1 hc with rfl | hc
  · exact hsign
  · obtain ⟨d, hd, rfl⟩ := List.mem_map.1 hc
    exact isNumberUnit_digitUnit
      (Nat.digits_lt_base (by norm_num) (List.mem_reverse.1 hd))

theorem text_units (x : Decimal) : ∀ c ∈ x.text, isNumberUnit c = true := by
  have hdigits : ∀ c ∈ x.digits.map digitUnit, isNumberUnit c = true := by
    intro c hc
    obtain ⟨d, hd, rfl⟩ := List.mem_map.1 hc
    exact isNumberUnit_digitUnit (x.digit d hd)
  have hzeros : ∀ n, ∀ c ∈ List.replicate n (48 : CodeUnit), isNumberUnit c = true := by
    intro n c hc
    rw [List.eq_of_mem_replicate hc]
    decide
  have happend : ∀ {l l' : JsString}, (∀ c ∈ l, isNumberUnit c = true) →
      (∀ c ∈ l', isNumberUnit c = true) → ∀ c ∈ l ++ l', isNumberUnit c = true := by
    intro l l' hl hl' c hc
    rcases List.mem_append.1 hc with hc | hc
    · exact hl c hc
    · exact hl' c hc
  have hcons : ∀ {a : CodeUnit} {l : JsString}, isNumberUnit a = true →
      (∀ c ∈ l, isNumberUnit c = true) → ∀ c ∈ a :: l, isNumberUnit c = true := by
    intro a l ha hl c hc
    rcases List.mem_cons.1 hc with rfl | hc
    · exact ha
    · exact hl c hc
  have htake : ∀ n, ∀ c ∈ (x.digits.map digitUnit).take n, isNumberUnit c = true :=
    fun n c hc ↦ hdigits c (List.mem_of_mem_take hc)
  have hdrop : ∀ n, ∀ c ∈ (x.digits.map digitUnit).drop n, isNumberUnit c = true :=
    fun n c hc ↦ hdigits c (List.mem_of_mem_drop hc)
  have hmagnitude : ∀ c ∈ x.magnitude, isNumberUnit c = true := by
    unfold magnitude
    dsimp only
    split_ifs
    · exact happend hdigits (hzeros _)
    · exact happend (htake _) (hcons (by decide) (hdrop _))
    · exact hcons (by decide) (hcons (by decide) (happend (hzeros _) hdigits))
    · exact happend hdigits (exponent_units _)
    · exact happend (htake _) (hcons (by decide) (happend (hdrop _) (exponent_units _)))
  unfold text
  split_ifs
  · exact hcons (by decide) hmagnitude
  · exact hmagnitude

/-- `Number::toString` of any finite number; `none` is zero. -/
def numberText : Option Decimal → JsString
  | none => [48]
  | some x => x.text

/-- The text of a number other than zero is not that of zero. -/
theorem text_ne_zero (x : Decimal) : x.text ≠ [48] := by
  intro h
  have hmagnitude : x.magnitude = [48] := by
    unfold text at h
    split_ifs at h
    · exact absurd (List.head_eq_of_cons_eq h) (by decide)
    · exact h
  have hdigits := x.magnitude_spec.1
  rw [hmagnitude] at hdigits
  have hnil : x.digits = [] := List.map_eq_nil_iff.1 (hdigits.symm.trans (by decide))
  exact x.nonempty hnil

theorem numberText_injective {x y : Option Decimal} (h : numberText x = numberText y) : x = y := by
  rcases x with _ | x
  · rcases y with _ | y
    · rfl
    · exact absurd h.symm y.text_ne_zero
  · rcases y with _ | y
    · exact absurd h x.text_ne_zero
    · rw [text_injective h]

theorem numberText_units (x : Option Decimal) : ∀ c ∈ numberText x, isNumberUnit c = true := by
  rcases x with _ | x
  · exact List.forall_mem_singleton.2 rfl
  · exact x.text_units

end Decimal

/-! ## Values -/

/-- A JSON value. -/
inductive Json where
  | null
  | bool (b : Bool)
  /-- A finite number; `none` is zero. -/
  | number (x : Option Decimal)
  | string (s : JsString)
  | array (elements : List Json)
  | object (entries : List (JsString × Json))

namespace Json

open JsString

/-- Induction over the values inside a value. -/
@[elab_as_elim]
theorem induction {P : Json → Prop} (null : P null) (bool : ∀ b, P (bool b))
    (number : ∀ x, P (number x)) (string : ∀ s, P (string s))
    (array : ∀ xs : List Json, (∀ x ∈ xs, P x) → P (array xs))
    (object : ∀ es : List (JsString × Json), (∀ e ∈ es, P e.2) → P (object es)) (v : Json) :
    P v := by
  refine @Json.rec P (fun xs ↦ ∀ x ∈ xs, P x) (fun es ↦ ∀ e ∈ es, P e.2) (fun e ↦ P e.2) null
    bool number string array object ?_ ?_ ?_ ?_ ?_ v
  · exact fun x hx ↦ by cases hx
  · exact fun x xs hx hxs ↦ List.forall_mem_cons.2 ⟨hx, hxs⟩
  · exact fun e he ↦ by cases he
  · exact fun e es he hes ↦ List.forall_mem_cons.2 ⟨he, hes⟩
  · exact fun _ _ hv ↦ hv

mutual

/-- `JSON.stringify`. -/
def stringify : Json → JsString
  | null => ofAscii "null"
  | bool true => ofAscii "true"
  | bool false => ofAscii "false"
  | number x => Decimal.numberText x
  | string s => quote s
  | array [] => [91, 93]
  | array (x :: xs) => 91 :: (x.stringify ++ elementsTail xs)
  | object [] => [123, 125]
  | object ((k, v) :: es) => 123 :: (quote k ++ 58 :: (v.stringify ++ entriesTail es))

/-- The text of the elements after the first, with the closing bracket. -/
def elementsTail : List Json → JsString
  | [] => [93]
  | x :: xs => 44 :: (x.stringify ++ elementsTail xs)

/-- The text of the entries after the first, with the closing brace. -/
def entriesTail : List (JsString × Json) → JsString
  | [] => [125]
  | (k, v) :: es => 44 :: (quote k ++ 58 :: (v.stringify ++ entriesTail es))

end

/-! ### Reading a value -/

/-- What a value is, by the first code unit of its text. -/
def kind : Json → ℕ
  | null => 0
  | bool _ => 1
  | number _ => 2
  | string _ => 3
  | array _ => 4
  | object _ => 5

/-- The kind a code unit begins. -/
def unitKind (c : CodeUnit) : ℕ :=
  if c = 110 then 0 else if c = 116 ∨ c = 102 then 1 else if c = 34 then 3 else if c = 91 then 4
  else if c = 123 then 5 else if Decimal.isNumberUnit c then 2 else 6

/-- No number goes on with the text. -/
def Stops (t : JsString) : Prop := ∀ c ∈ t.head?, Decimal.isNumberUnit c = false

theorem stops_nil : Stops [] := fun _ h ↦ by cases h

theorem stops_elementsTail (xs : List Json) (r : JsString) : Stops (elementsTail xs ++ r) := by
  cases xs with
  | nil =>
    rintro c hc
    obtain rfl := Option.some_inj.1 hc
    decide
  | cons x xs =>
    rintro c hc
    obtain rfl := Option.some_inj.1 hc
    decide

theorem stops_entriesTail (es : List (JsString × Json)) (r : JsString) :
    Stops (entriesTail es ++ r) := by
  cases es with
  | nil =>
    rintro c hc
    obtain rfl := Option.some_inj.1 hc
    decide
  | cons e es =>
    rintro c hc
    obtain rfl := Option.some_inj.1 hc
    decide

/-- A number ends where the text stops. -/
theorem numberText_readable {x y : Option Decimal} {r r' : JsString} (hr : Stops r)
    (hr' : Stops r') (h : Decimal.numberText x ++ r = Decimal.numberText y ++ r') :
    x = y ∧ r = r' := by
  have hsplit : ∀ {x : Option Decimal} {r : JsString}, Stops r →
      (Decimal.numberText x ++ r).takeWhile Decimal.isNumberUnit = Decimal.numberText x := by
    intro x r hr
    rw [List.takeWhile_append_of_pos (Decimal.numberText_units x)]
    rcases r with _ | ⟨c, r⟩
    · exact List.append_nil _
    · rw [List.takeWhile_cons_of_neg, List.append_nil]
      rw [hr c rfl]
      exact Bool.false_ne_true
  have htext : Decimal.numberText x = Decimal.numberText y := by
    rw [← hsplit (x := x) hr, h, hsplit hr']
  refine ⟨Decimal.numberText_injective htext, ?_⟩
  rw [htext] at h
  exact List.append_cancel_left h

theorem stringify_head (v : Json) : ∃ c, v.stringify.head? = some c ∧ unitKind c = v.kind := by
  have hdigit : ∀ d < 10, unitKind (Decimal.digitUnit d) = 2 := by decide
  rcases v with _ | ⟨_ | _⟩ | ⟨_ | x⟩ | s | ⟨_ | ⟨x, xs⟩⟩ | ⟨_ | ⟨⟨k, v⟩, es⟩⟩
  case number.some =>
    obtain ⟨d, hd, hhead⟩ := x.magnitude_head
    rw [stringify, Decimal.numberText, Decimal.text]
    split_ifs
    · exact ⟨45, rfl, rfl⟩
    · exact ⟨_, hhead, hdigit d hd⟩
  all_goals exact ⟨_, rfl, rfl⟩

/-- Values with the same text are of one kind. -/
theorem kind_eq_of_stringify {v v' : Json} {r r' : JsString}
    (h : v.stringify ++ r = v'.stringify ++ r') : v.kind = v'.kind := by
  obtain ⟨c, hc, hkind⟩ := v.stringify_head
  obtain ⟨c', hc', hkind'⟩ := v'.stringify_head
  have hhead := congrArg List.head? h
  rw [List.head?_append, List.head?_append, hc, hc', Option.some_or, Option.some_or,
    Option.some_inj] at hhead
  rw [← hkind, ← hkind', hhead]

/-- No value begins with a closing bracket. -/
theorem ne_closing {r r' : JsString} (v : Json) : 93 :: r ≠ v.stringify ++ r' := by
  intro h
  obtain ⟨c, hc, hkind⟩ := v.stringify_head
  have hhead := congrArg List.head? h
  rw [List.head?_append, hc, Option.some_or, List.head?_cons, Option.some_inj] at hhead
  have hclosing : unitKind 93 = v.kind := by rw [hhead, hkind]
  have hsix : unitKind 93 = 6 := by decide
  rw [hsix] at hclosing
  rcases v with _ | _ | _ | _ | _ | _
  all_goals cases hclosing

mutual

/-- **No text goes on as another one**, unless a number does. -/
theorem stringify_readable : ∀ (v v' : Json) {r r' : JsString}, Stops r → Stops r' →
    v.stringify ++ r = v'.stringify ++ r' → v = v' ∧ r = r'
  | null, v', r, r', _, _, h => by
    rcases v' with _ | _ | _ | _ | _ | _
    case null => exact ⟨rfl, List.append_cancel_left h⟩
    all_goals cases kind_eq_of_stringify h
  | bool b, v', r, r', _, _, h => by
    have hkind := kind_eq_of_stringify h
    rcases v' with _ | b' | _ | _ | _ | _
    case bool =>
      rcases b with _ | _ <;> rcases b' with _ | _
      · exact ⟨rfl, List.append_cancel_left h⟩
      · exact absurd (List.head_eq_of_cons_eq h) (by decide)
      · exact absurd (List.head_eq_of_cons_eq h) (by decide)
      · exact ⟨rfl, List.append_cancel_left h⟩
    all_goals cases hkind
  | number x, v', r, r', hr, hr', h => by
    have hkind := kind_eq_of_stringify h
    rcases v' with _ | _ | y | _ | _ | _
    case number =>
      obtain ⟨rfl, hrest⟩ := numberText_readable hr hr' h
      exact ⟨rfl, hrest⟩
    all_goals cases hkind
  | string s, v', r, r', _, _, h => by
    have hkind := kind_eq_of_stringify h
    rcases v' with _ | _ | _ | s' | _ | _
    case string =>
      obtain ⟨rfl, hrest⟩ := quote_readable h
      exact ⟨rfl, hrest⟩
    all_goals cases hkind
  | array [], v', r, r', _, _, h => by
    have hkind := kind_eq_of_stringify h
    rcases v' with _ | _ | _ | _ | ⟨_ | ⟨y, ys⟩⟩ | _
    case array.nil => exact ⟨rfl, List.append_cancel_left h⟩
    case array.cons =>
      have htail : 93 :: r = y.stringify ++ (elementsTail ys ++ r') := by
        simpa [stringify] using h
      exact absurd htail (ne_closing y)
    all_goals cases hkind
  | array (x :: xs), v', r, r', _, _, h => by
    have hkind := kind_eq_of_stringify h
    rcases v' with _ | _ | _ | _ | ⟨_ | ⟨y, ys⟩⟩ | _
    case array.nil =>
      have htail : x.stringify ++ (elementsTail xs ++ r) = 93 :: r' := by
        simpa [stringify] using h
      exact absurd htail.symm (ne_closing x)
    case array.cons =>
      have htail : x.stringify ++ (elementsTail xs ++ r) =
          y.stringify ++ (elementsTail ys ++ r') := by simpa [stringify] using h
      obtain ⟨rfl, hrest⟩ := stringify_readable x y (stops_elementsTail xs r)
        (stops_elementsTail ys r') htail
      obtain ⟨rfl, hend⟩ := elementsTail_readable xs ys hrest
      exact ⟨rfl, hend⟩
    all_goals cases hkind
  | object [], v', r, r', _, _, h => by
    have hkind := kind_eq_of_stringify h
    rcases v' with _ | _ | _ | _ | _ | ⟨_ | ⟨⟨k, v⟩, es'⟩⟩
    case object.nil => exact ⟨rfl, List.append_cancel_left h⟩
    case object.cons =>
      have htail := List.tail_eq_of_cons_eq h
      exact absurd (List.head_eq_of_cons_eq htail) (by decide)
    all_goals cases hkind
  | object ((k, v) :: es), v', r, r', _, _, h => by
    have hkind := kind_eq_of_stringify h
    rcases v' with _ | _ | _ | _ | _ | ⟨_ | ⟨⟨k', w⟩, es'⟩⟩
    case object.nil =>
      have htail := List.tail_eq_of_cons_eq h
      exact absurd (List.head_eq_of_cons_eq htail) (by decide)
    case object.cons =>
      have htail : quote k ++ 58 :: (v.stringify ++ (entriesTail es ++ r)) =
          quote k' ++ 58 :: (w.stringify ++ (entriesTail es' ++ r')) := by
        simpa [stringify] using h
      obtain ⟨rfl, hvalue⟩ := quote_readable htail
      have hrest := List.tail_eq_of_cons_eq hvalue
      obtain ⟨rfl, hentries⟩ := stringify_readable v w (stops_entriesTail es r)
        (stops_entriesTail es' r') hrest
      obtain ⟨rfl, hend⟩ := entriesTail_readable es es' hentries
      exact ⟨rfl, hend⟩
    all_goals cases hkind

theorem elementsTail_readable : ∀ (xs ys : List Json) {r r' : JsString},
    elementsTail xs ++ r = elementsTail ys ++ r' → xs = ys ∧ r = r'
  | [], [], _, _, h => ⟨rfl, List.append_cancel_left h⟩
  | [], _ :: _, _, _, h => absurd (List.head_eq_of_cons_eq h) (by decide)
  | _ :: _, [], _, _, h => absurd (List.head_eq_of_cons_eq h) (by decide)
  | x :: xs, y :: ys, r, r', h => by
    have htail : x.stringify ++ (elementsTail xs ++ r) =
        y.stringify ++ (elementsTail ys ++ r') := by simpa [elementsTail] using h
    obtain ⟨rfl, hrest⟩ := stringify_readable x y (stops_elementsTail xs r)
      (stops_elementsTail ys r') htail
    obtain ⟨rfl, hend⟩ := elementsTail_readable xs ys hrest
    exact ⟨rfl, hend⟩

theorem entriesTail_readable : ∀ (es es' : List (JsString × Json)) {r r' : JsString},
    entriesTail es ++ r = entriesTail es' ++ r' → es = es' ∧ r = r'
  | [], [], _, _, h => ⟨rfl, List.append_cancel_left h⟩
  | [], (_, _) :: _, _, _, h => absurd (List.head_eq_of_cons_eq h) (by decide)
  | (_, _) :: _, [], _, _, h => absurd (List.head_eq_of_cons_eq h) (by decide)
  | (k, v) :: es, (k', w) :: es', r, r', h => by
    have htail : quote k ++ 58 :: (v.stringify ++ (entriesTail es ++ r)) =
        quote k' ++ 58 :: (w.stringify ++ (entriesTail es' ++ r')) := by
      simpa [entriesTail] using h
    obtain ⟨rfl, hvalue⟩ := quote_readable htail
    have hrest := List.tail_eq_of_cons_eq hvalue
    obtain ⟨rfl, hentries⟩ := stringify_readable v w (stops_entriesTail es r)
      (stops_entriesTail es' r') hrest
    obtain ⟨rfl, hend⟩ := entriesTail_readable es es' hentries
    exact ⟨rfl, hend⟩

end

/-- **A value can be read from its text.** -/
theorem stringify_injective {v v' : Json} (h : v.stringify = v'.stringify) : v = v' := by
  refine (stringify_readable v v' stops_nil stops_nil ?_).1
  rw [h]

/-! ### Lengths -/

end Json

end AlpacaTrading
