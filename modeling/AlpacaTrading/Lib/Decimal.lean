import Mathlib.Data.Rat.Floor
import Mathlib.Algebra.Order.Floor.Ring
import Mathlib.Algebra.Order.Field.Basic
import Mathlib.Tactic.FieldSimp
import Mathlib.Tactic.Linarith
import Mathlib.Tactic.Positivity

/-!
# Decimal numbers

Three views of a number with finitely many decimals: a literal with what it denotes, an integer
over a power of ten, and a text with a fixed number of decimals.

An integer over a power of ten is in normal form when the power is as small as possible.  Two
normal forms of one number are the same (`Scaled.eq_of_value_eq`), so programs can compare numbers
by comparing the two integers.
-/

namespace AlpacaTrading.Decimal

/-! ## Digits -/

/-- Every character is a decimal digit. -/
def IsDigits (s : List Char) : Prop := ∀ c ∈ s, c.isDigit = true

/-- The number that digits denote. -/
abbrev digitsValue (s : List Char) : ℕ := Nat.ofDigitChars 10 s 0

section Digits

variable {s t : List Char}

theorem IsDigits.append (hs : IsDigits s) (ht : IsDigits t) : IsDigits (s ++ t) := by
  intro c hc
  rcases List.mem_append.1 hc with hc | hc
  · exact hs c hc
  · exact ht c hc

theorem isDigits_toDigits (n : ℕ) : IsDigits (Nat.toDigits 10 n) :=
  fun _ hc ↦ Nat.isDigit_of_mem_toDigits (by norm_num) (by norm_num) hc

theorem digitsValue_append (s t : List Char) :
    digitsValue (s ++ t) = 10 ^ t.length * digitsValue s + digitsValue t := by
  rw [digitsValue, Nat.ofDigitChars_append, Nat.ofDigitChars_eq_ofDigitChars_zero]

/-- Digits denote less than the power of ten with as many zeros. -/
theorem digitsValue_lt (hs : IsDigits s) : digitsValue s < 10 ^ s.length := by
  induction s with
  | nil => decide
  | cons c s ih =>
    have hc : c.toNat - '0'.toNat ≤ 9 := by
      have hdigit : c.toNat ≤ 57 := (Char.isDigit_iff_toNat.1 (hs c List.mem_cons_self)).2
      change c.toNat - 48 ≤ 9
      omega
    have hrest := ih fun d hd ↦ hs d (List.mem_cons_of_mem c hd)
    rw [← List.singleton_append, digitsValue_append, List.length_append, List.length_singleton,
      pow_add, pow_one]
    have hfirst : digitsValue [c] ≤ 9 := by
      rw [digitsValue, Nat.ofDigitChars_cons, Nat.ofDigitChars_nil]
      omega
    calc 10 ^ s.length * digitsValue [c] + digitsValue s
      _ < 10 ^ s.length * 9 + 10 ^ s.length :=
        add_lt_add_of_le_of_lt (Nat.mul_le_mul_left _ hfirst) hrest
      _ = 10 * 10 ^ s.length := by omega

/-- As many digits that denote the same number are the same. -/
theorem eq_of_digitsValue_eq (hs : IsDigits s) (ht : IsDigits t) (hlength : s.length = t.length)
    (h : digitsValue s = digitsValue t) : s = t := by
  induction s generalizing t with
  | nil => exact (List.length_eq_zero_iff.1 hlength.symm).symm
  | cons c s ih =>
    obtain ⟨d, t, rfl⟩ := List.exists_cons_of_length_eq_add_one hlength.symm
    have hsub : ∀ {c s}, IsDigits (c :: s) → IsDigits s :=
      fun h x hx ↦ h x (List.mem_cons_of_mem _ hx)
    have hs' := digitsValue_lt (hsub hs)
    have ht' := digitsValue_lt (hsub ht)
    have hlength' : s.length = t.length := Nat.succ.inj hlength
    rw [hlength'] at hs'
    rw [← List.singleton_append, digitsValue_append, ← List.singleton_append (x := d),
      digitsValue_append, hlength'] at h
    obtain ⟨hfirst, hrest⟩ : digitsValue [c] = digitsValue [d] ∧ digitsValue s = digitsValue t := by
      have hmod := congrArg (· % 10 ^ t.length) h
      simp only [Nat.mul_add_mod, Nat.mod_eq_of_lt hs', Nat.mod_eq_of_lt ht'] at hmod
      rw [hmod, Nat.add_right_cancel_iff] at h
      exact ⟨Nat.eq_of_mul_eq_mul_left (by positivity) h, hmod⟩
    have hc : 48 ≤ c.toNat ∧ c.toNat ≤ 57 := Char.isDigit_iff_toNat.1 (hs c List.mem_cons_self)
    have hd : 48 ≤ d.toNat ∧ d.toNat ≤ 57 := Char.isDigit_iff_toNat.1 (ht d List.mem_cons_self)
    rw [digitsValue, digitsValue, Nat.ofDigitChars_cons, Nat.ofDigitChars_cons, Nat.ofDigitChars_nil,
      Nat.ofDigitChars_nil] at hfirst
    have hchar : c.toNat = d.toNat := by
      change 10 * 0 + (c.toNat - 48) = 10 * 0 + (d.toNat - 48) at hfirst
      omega
    rw [Char.toNat_inj.1 hchar, ih (hsub hs) (hsub ht) hlength' hrest]

end Digits

/-! ## Literals -/

/-- A sign that may be left out. -/
inductive Sign where
  | none | plus | minus
deriving DecidableEq, Repr

namespace Sign

/-- The sign as it is written. -/
def text : Sign → List Char
  | none => []
  | plus => ['+']
  | minus => ['-']

/-- What the sign multiplies by. -/
def factor : Sign → ℤ
  | minus => -1
  | _ => 1

end Sign

/-- The exponent of a literal. -/
structure Exponent where
  marker : Char
  sign : Sign
  digits : List Char
  marker_eq : marker = 'e' ∨ marker = 'E'
  digits_ne_nil : digits ≠ []
  isDigits : IsDigits digits

/-- The exponent as it is written. -/
def Exponent.text (e : Exponent) : List Char := e.marker :: (e.sign.text ++ e.digits)

/-- The number the exponent denotes. -/
def Exponent.value (e : Exponent) : ℤ := e.sign.factor * digitsValue e.digits

/-- A decimal literal: digits, a point, and digits, of which either may be left out but not both,
and the point with the digits after it. -/
structure Literal where
  sign : Sign
  whole : List Char
  fraction : Option (List Char)
  exponent : Option Exponent
  whole_isDigits : IsDigits whole
  fraction_isDigits : IsDigits (fraction.getD [])
  ne_nil : whole ++ fraction.getD [] ≠ []

namespace Literal

/-- The fraction as it is written. -/
def fractionText (l : Literal) : List Char := l.fraction.elim [] ('.' :: ·)

/-- The exponent as it is written. -/
def exponentText (l : Literal) : List Char := l.exponent.elim [] Exponent.text

/-- The literal as it is written. -/
def text (l : Literal) : List Char := l.sign.text ++ l.whole ++ l.fractionText ++ l.exponentText

/-- The power of ten of the literal. -/
def power (l : Literal) : ℤ := l.exponent.elim 0 Exponent.value

/-- The number before the power of ten, without its sign. -/
def mantissa (l : Literal) : ℚ :=
  digitsValue l.whole + digitsValue (l.fraction.getD []) / 10 ^ (l.fraction.getD []).length

/-- **The number a literal denotes.** -/
def value (l : Literal) : ℚ := l.sign.factor * l.mantissa * 10 ^ l.power

/-- All digits together are the mantissa without its point. -/
theorem mantissa_eq (l : Literal) :
    l.mantissa = digitsValue (l.whole ++ l.fraction.getD []) / 10 ^ (l.fraction.getD []).length := by
  have hpow : (10 : ℚ) ^ (l.fraction.getD []).length ≠ 0 := by positivity
  rw [mantissa, digitsValue_append, eq_div_iff hpow, add_mul, div_mul_cancel₀ _ hpow]
  push_cast
  rw [mul_comm]

end Literal

/-! ## Integers over powers of ten -/

/-- An integer over a power of ten. -/
structure Scaled where
  coefficient : ℤ
  scale : ℕ
deriving DecidableEq, Repr

namespace Scaled

/-- The number it stands for. -/
def value (d : Scaled) : ℚ := d.coefficient / 10 ^ d.scale

/-- The power of ten is as small as possible. -/
def Normal (d : Scaled) : Prop := d.scale = 0 ∨ ¬ (10 : ℤ) ∣ d.coefficient

/-- **Normal forms are unique.** -/
theorem eq_of_value_eq {a b : Scaled} (ha : a.Normal) (hb : b.Normal) (h : a.value = b.value) :
    a = b := by
  wlog hle : a.scale ≤ b.scale generalizing a b
  · exact (this hb ha h.symm (Nat.le_of_not_le hle)).symm
  obtain ⟨k, hk⟩ := Nat.exists_eq_add_of_le hle
  have hcoefficient : a.coefficient * 10 ^ k = b.coefficient := by
    have hpow : ∀ n : ℕ, (10 : ℚ) ^ n ≠ 0 := fun n ↦ by positivity
    rw [value, value, hk, pow_add, div_eq_div_iff (hpow _) (mul_ne_zero (hpow _) (hpow _)),
      mul_left_comm, mul_comm, mul_right_cancel_iff_of_pos (by positivity)] at h
    exact_mod_cast h
  -- A larger power of ten would leave a zero at the end of the coefficient.
  have hzero : k = 0 := by
    by_contra hne
    rcases hb with hb | hb
    · omega
    · refine hb ?_
      rw [← hcoefficient]
      exact Dvd.dvd.mul_left (dvd_pow_self 10 hne) _
  rw [hzero, pow_zero, mul_one] at hcoefficient
  rw [hzero, Nat.add_zero] at hk
  rcases a with ⟨c, n⟩
  rcases b with ⟨c', n'⟩
  obtain rfl : c = c' := hcoefficient
  obtain rfl : n' = n := hk
  rfl

end Scaled

/-! ## Rounding -/

/-- To the nearest multiple of `10 ^ -scale`, halves away from zero; the result counts the
multiples. -/
def roundHalfAway (scale : ℕ) (q : ℚ) : ℤ :=
  if q < 0 then -⌊-q * 10 ^ scale + 1 / 2⌋ else ⌊q * 10 ^ scale + 1 / 2⌋

section Rounding

variable {scale : ℕ} {q r : ℚ}

theorem roundHalfAway_nonneg (h : 0 ≤ q) : 0 ≤ roundHalfAway scale q := by
  rw [roundHalfAway, if_neg (not_lt.2 h)]
  exact Int.floor_nonneg.2 (by positivity)

theorem roundHalfAway_nonpos (h : q < 0) : roundHalfAway scale q ≤ 0 := by
  have hpos : 0 < -q := by linarith
  rw [roundHalfAway, if_pos h, neg_nonpos]
  exact Int.floor_nonneg.2 (by positivity)

/-- Rounding is monotone. -/
theorem roundHalfAway_mono (h : q ≤ r) : roundHalfAway scale q ≤ roundHalfAway scale r := by
  have hpow : (0 : ℚ) < 10 ^ scale := by positivity
  by_cases hq : q < 0
  · by_cases hr : r < 0
    · rw [roundHalfAway, roundHalfAway, if_pos hq, if_pos hr, neg_le_neg_iff]
      refine Int.floor_le_floor ?_
      have := mul_le_mul_of_nonneg_right (neg_le_neg h) hpow.le
      linarith
    · exact (roundHalfAway_nonpos hq).trans (roundHalfAway_nonneg (not_lt.1 hr))
  · have hr : ¬ r < 0 := fun hr ↦ hq (h.trans_lt hr)
    rw [roundHalfAway, roundHalfAway, if_neg hq, if_neg hr]
    refine Int.floor_le_floor ?_
    have := mul_le_mul_of_nonneg_right h hpow.le
    linarith

/-- Multiples stay. -/
theorem roundHalfAway_div (n : ℤ) : roundHalfAway scale (n / 10 ^ scale) = n := by
  have hpow : (0 : ℚ) < 10 ^ scale := by positivity
  have hhalf : ∀ k : ℤ, ⌊(k : ℚ) + 1 / 2⌋ = k := by
    intro k
    rw [Int.floor_eq_iff]
    constructor
    · linarith
    · linarith
  by_cases hn : (n : ℚ) / 10 ^ scale < 0
  · rw [roundHalfAway, if_pos hn, ← neg_div, div_mul_cancel₀ _ hpow.ne', ← Int.cast_neg, hhalf,
      neg_neg]
  · rw [roundHalfAway, if_neg hn, div_mul_cancel₀ _ hpow.ne', hhalf]

/-- Rounding commutes with the sign. -/
theorem roundHalfAway_neg : roundHalfAway scale (-q) = -roundHalfAway scale q := by
  rcases lt_trichotomy q 0 with hq | rfl | hq
  · rw [roundHalfAway, roundHalfAway, if_neg (by linarith), if_pos hq, neg_neg]
  · rw [neg_zero, roundHalfAway, if_neg (lt_irrefl 0), zero_mul, zero_add]
    norm_num
  · rw [roundHalfAway, roundHalfAway, if_pos (by linarith), if_neg (by linarith), neg_neg]

/-- The magnitude is rounded. -/
theorem natAbs_roundHalfAway :
    ((roundHalfAway scale q).natAbs : ℤ) = ⌊|q| * 10 ^ scale + 1 / 2⌋ := by
  by_cases hq : q < 0
  · rw [Int.natCast_natAbs, abs_of_nonpos (roundHalfAway_nonpos hq), roundHalfAway, if_pos hq,
      neg_neg, abs_of_neg hq]
  · rw [Int.natCast_natAbs, abs_of_nonneg (roundHalfAway_nonneg (not_lt.1 hq)), roundHalfAway,
      if_neg hq, abs_of_nonneg (not_lt.1 hq)]

/-- **Rounding is to the nearest multiple**, and away from zero where two are as near. -/
theorem roundHalfAway_nearest (q : ℚ) (k : ℤ) :
    |q * 10 ^ scale - roundHalfAway scale q| ≤ |q * 10 ^ scale - k| ∧
      (|q * 10 ^ scale - roundHalfAway scale q| = |q * 10 ^ scale - k| →
        |k| ≤ |roundHalfAway scale q|) := by
  -- A negative number is the mirror image of a positive one.
  wlog hq : 0 ≤ q generalizing q k
  · have hneg := this (-q) (-k) (by linarith [not_le.1 hq])
    have hmirror : ∀ a b : ℚ, |-a - -b| = |a - b| := fun a b ↦ by
      rw [← neg_add', ← sub_eq_add_neg, abs_neg]
    rw [roundHalfAway_neg, neg_mul, Int.cast_neg, Int.cast_neg, hmirror, hmirror, abs_neg,
      abs_neg] at hneg
    exact hneg
  have hround : roundHalfAway scale q = ⌊q * 10 ^ scale + 1 / 2⌋ := if_neg (not_lt.2 hq)
  have hpos : 0 ≤ q * 10 ^ scale := by positivity
  generalize q * 10 ^ scale = t at hround hpos
  generalize roundHalfAway scale q = n at hround
  have hlow : (n : ℚ) ≤ t + 1 / 2 := hround ▸ Int.floor_le _
  have hhigh : t + 1 / 2 < n + 1 := hround ▸ Int.lt_floor_add_one _
  have hnear : |t - n| ≤ 1 / 2 := abs_le.2 ⟨by linarith, by linarith⟩
  rcases lt_trichotomy k n with hk | rfl | hk
  · have hbelow : (k : ℚ) + 1 ≤ n := by exact_mod_cast hk
    have hfar : 1 / 2 ≤ |t - k| := (by linarith : (1 : ℚ) / 2 ≤ t - k).trans (le_abs_self _)
    refine ⟨hnear.trans hfar, fun htie ↦ ?_⟩
    -- The smaller one is as near only if the number is halfway, so it is not negative.
    have hhalf : t - k ≤ 1 / 2 := (le_abs_self _).trans (htie ▸ hnear)
    have hk0 : (-1 : ℚ) < k := by linarith
    have hk1 : 0 ≤ k := by
      have : (-1 : ℤ) < k := by exact_mod_cast hk0
      omega
    rw [abs_of_nonneg hk1, abs_of_nonneg (hk1.trans hk.le)]
    exact hk.le
  · exact ⟨le_refl _, fun _ ↦ le_refl _⟩
  · have habove : (n : ℚ) + 1 ≤ k := by exact_mod_cast hk
    have hfar : 1 / 2 < |t - k| := by
      rw [abs_sub_comm]
      exact (by linarith : (1 : ℚ) / 2 < k - t).trans_le (le_abs_self _)
    exact ⟨(hnear.trans_lt hfar).le, fun htie ↦ absurd htie (hnear.trans_lt hfar).ne⟩

end Rounding

/-! ## Texts with a fixed number of decimals -/

/-- The text of `n / 10 ^ scale` with as many decimals: no superfluous zero in front, and a sign
on negative numbers only. -/
structure FixedText (scale : ℕ) (n : ℤ) (text : List Char) : Prop where
  parts : ∃ whole fraction, IsDigits whole ∧ IsDigits fraction ∧ whole ≠ [] ∧
    (whole.head? = some '0' → whole = ['0']) ∧ fraction.length = scale ∧
    digitsValue (whole ++ fraction) = n.natAbs ∧
    text = (if n < 0 then ['-'] else []) ++ whole ++ if scale = 0 then [] else '.' :: fraction

/-- Such a text is a literal, and denotes the number. -/
theorem FixedText.exists_literal {scale : ℕ} {n : ℤ} {text : List Char}
    (h : FixedText scale n text) :
    ∃ l : Literal, l.text = text ∧ l.power = 0 ∧ l.value = n / 10 ^ scale := by
  obtain ⟨whole, fraction, hwhole, hfraction, hne, _, hlength, hvalue, htext⟩ := h.parts
  let l : Literal :=
    { sign := if n < 0 then .minus else .none
      whole
      fraction := if scale = 0 then none else some fraction
      exponent := none
      whole_isDigits := hwhole
      fraction_isDigits := by
        split
        · exact fun c hc ↦ absurd hc List.not_mem_nil
        · exact hfraction
      ne_nil := fun hnil ↦ hne (List.append_eq_nil_iff.1 hnil).1 }
  have hdigits : l.fraction.getD [] = fraction := by
    by_cases hscale : scale = 0
    · rw [hscale, List.length_eq_zero_iff] at hlength
      rw [hlength]
      exact congrArg (Option.getD · []) (if_pos hscale)
    · exact congrArg (Option.getD · []) (if_neg hscale)
  refine ⟨l, ?_, rfl, ?_⟩
  · rw [htext, Literal.text, Literal.fractionText, Literal.exponentText]
    by_cases hscale : scale = 0
    · by_cases hn : n < 0 <;> simp [l, hscale, hn, Sign.text]
    · by_cases hn : n < 0 <;> simp [l, hscale, hn, Sign.text]
  · rw [Literal.value, Literal.mantissa_eq, hdigits, hlength, hvalue]
    have hsign : (l.sign.factor : ℤ) * n.natAbs = n := by
      by_cases hn : n < 0
      · have hfactor : l.sign.factor = -1 := by simp [l, hn, Sign.factor]
        rw [hfactor]
        omega
      · have hfactor : l.sign.factor = 1 := by simp [l, hn, Sign.factor]
        rw [hfactor]
        omega
    have hcast : (l.sign.factor : ℚ) * (n.natAbs : ℕ) = n := by
      have := congrArg (Int.cast (R := ℚ)) hsign
      rwa [Int.cast_mul, Int.cast_natCast] at this
    have hpower : l.power = 0 := rfl
    rw [hpower, zpow_zero, mul_one, mul_div_assoc', hcast]

end AlpacaTrading.Decimal
