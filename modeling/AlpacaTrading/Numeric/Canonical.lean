import AlpacaTrading.Numeric.Parse

/-!
# Canonical decimals

`canonicalizePostgresNumeric` writes a number as a column of type `numeric(precision, scale)` shows
it.  The magnitude is rounded with integers only; `rescale_eq` says that this is rounding of the
number itself, so the text depends on the number alone, and the text of a text is the text.
-/

namespace AlpacaTrading

namespace PostgresNumeric

open Decimal

/-! ## The source -/

/-- `padStart` with zeros. -/
def padStart (length : ℕ) (s : List Char) : List Char :=
  List.replicate (length - s.length) '0' ++ s

/-- The magnitude with another number of decimals. -/
def rescale (absolute scale scale' : ℕ) : ℕ :=
  if scale' < scale then
    let divisor := 10 ^ (scale - scale')
    let remainder := absolute % divisor
    if divisor ≤ remainder * 2 then absolute / divisor + 1 else absolute / divisor
  else if scale < scale' then absolute * 10 ^ (scale' - scale)
  else absolute

/-- The digits of the magnitude with a point, and a sign unless it is zero. -/
def formatFixed (negative : Bool) (absolute scale : ℕ) : List Char :=
  let digits := padStart (scale + 1) (Nat.toDigits 10 absolute)
  let unsigned :=
    if scale = 0 then digits
    else digits.take (digits.length - scale) ++ '.' :: digits.drop (digits.length - scale)
  if negative = true ∧ absolute ≠ 0 then '-' :: unsigned else unsigned

/-- `canonicalizePostgresNumeric`. -/
def canonicalizePostgresNumeric (value : Option NumericInput) (precision scale : ℤ) :
    Except String (Option String) :=
  match value with
  | none => .ok none
  | some value =>
    if ¬ isSafeInteger precision ∨ ¬ isSafeInteger scale ∨ precision < 1 ∨ scale < 0 ∨
        precision < scale then
      .error "POSTGRES_NUMERIC_DEFINITION_INVALID"
    else do
      let parsed ← parsePostgresDecimal value
      let negative := decide (parsed.coefficient < 0)
      let absolute := rescale parsed.coefficient.natAbs parsed.scale scale.toNat
      if 10 ^ precision.toNat ≤ absolute then .error "POSTGRES_NUMERIC_OVERFLOW"
      else .ok (some (String.ofList (formatFixed negative absolute scale.toNat)))

/-! ## The magnitude -/

/-- Integer division with the test of the remainder rounds to the nearest integer. -/
theorem div_round (a : ℕ) {b : ℕ} (hb : 0 < b) :
    ((if b ≤ a % b * 2 then a / b + 1 else a / b : ℕ) : ℤ) = ⌊(a : ℚ) / b + 1 / 2⌋ := by
  have hb' : (0 : ℚ) < b := by exact_mod_cast hb
  have hsplit : (a : ℚ) / b = (a / b : ℕ) + (a % b : ℕ) / b := by
    rw [div_eq_iff hb'.ne', add_mul, div_mul_cancel₀ _ hb'.ne', mul_comm]
    exact_mod_cast (Nat.div_add_mod a b).symm
  have hlt : ((a % b : ℕ) : ℚ) / b < 1 := by
    rw [div_lt_one hb']
    exact_mod_cast Nat.mod_lt a hb
  have hnonneg : (0 : ℚ) ≤ ((a % b : ℕ) : ℚ) / b := by positivity
  rw [hsplit, eq_comm, Int.floor_eq_iff, Int.cast_natCast]
  generalize a / b = quotient
  by_cases hhalf : b ≤ a % b * 2
  · have hge : (1 : ℚ) / 2 ≤ ((a % b : ℕ) : ℚ) / b := by
      rw [div_le_div_iff₀ (by norm_num) hb', one_mul]
      exact_mod_cast hhalf
    rw [if_pos hhalf]
    push_cast
    constructor
    · linarith
    · linarith
  · have hless : ((a % b : ℕ) : ℚ) / b < 1 / 2 := by
      rw [div_lt_div_iff₀ hb' (by norm_num), one_mul]
      exact_mod_cast not_le.1 hhalf
    rw [if_neg hhalf]
    constructor
    · linarith
    · linarith

/-- **The magnitude is rounded as the number.** -/
theorem rescale_eq (d : Scaled) (scale : ℕ) :
    rescale d.coefficient.natAbs d.scale scale = (roundHalfAway scale d.value).natAbs := by
  have hpow : ∀ n : ℕ, (10 : ℚ) ^ n ≠ 0 := fun n ↦ by positivity
  have habs : |d.value| = (d.coefficient.natAbs : ℚ) / 10 ^ d.scale := by
    rw [Scaled.value, abs_div, abs_of_pos (by positivity : (0 : ℚ) < 10 ^ d.scale), Nat.cast_natAbs,
      Int.cast_abs]
  have hint : ∀ n : ℕ, ⌊(n : ℚ) + 1 / 2⌋ = (n : ℤ) := by
    intro n
    rw [Int.floor_eq_iff]
    push_cast
    constructor
    · linarith
    · linarith
  have hround := @natAbs_roundHalfAway scale d.value
  rw [habs] at hround
  refine Nat.cast_injective (R := ℤ) ?_
  rw [hround]
  generalize d.coefficient.natAbs = a
  rcases lt_trichotomy scale d.scale with hlt | heq | hgt
  · obtain ⟨k, hk⟩ := Nat.exists_eq_add_of_lt hlt
    have hquotient : (a : ℚ) / 10 ^ d.scale * 10 ^ scale = a / (10 ^ (d.scale - scale) : ℕ) := by
      rw [div_mul_eq_mul_div, div_eq_div_iff (hpow _) (by positivity)]
      push_cast
      rw [mul_assoc, ← pow_add, Nat.add_sub_cancel' hlt.le]
    rw [rescale, if_pos hlt, hquotient]
    exact div_round a (by positivity)
  · rw [rescale, if_neg (by omega), if_neg (by omega), heq, div_mul_cancel₀ _ (hpow _), hint]
  · have hproduct : (a : ℚ) / 10 ^ d.scale * 10 ^ scale = (a * 10 ^ (scale - d.scale) : ℕ) := by
      rw [div_mul_eq_mul_div, div_eq_iff (hpow _)]
      push_cast
      rw [mul_assoc, ← pow_add, Nat.sub_add_cancel hgt.le]
    rw [rescale, if_neg (by omega), if_pos hgt, hproduct, hint]

/-! ## The text -/

/-- Only zero is written with a zero in front. -/
theorem eq_zero_of_head?_toDigits {n : ℕ} (h : (Nat.toDigits 10 n).head? = some '0') : n = 0 := by
  induction n using Nat.strong_induction_on with
  | _ n ih =>
    rw [Nat.toDigits_eq_if (by norm_num)] at h
    by_cases hlt : n < 10
    · rw [if_pos hlt] at h
      exact Nat.digitChar_eq_zero.1 (Option.some_inj.1 h)
    · rw [if_neg hlt, List.head?_append_of_ne_nil _ Nat.toDigits_ne_nil] at h
      have := ih (n / 10) (by omega) h
      omega

theorem padStart_isDigits {length : ℕ} {s : List Char} (h : IsDigits s) :
    IsDigits (padStart length s) := by
  refine IsDigits.append (fun c hc ↦ ?_) h
  rw [List.eq_of_mem_replicate hc]
  rfl

theorem digitsValue_padStart (length : ℕ) (s : List Char) :
    digitsValue (padStart length s) = digitsValue s := by
  rw [padStart, digitsValue_append, digitsValue, Nat.ofDigitChars_replicate_zero, Nat.mul_zero,
    Nat.mul_zero, Nat.zero_add]

/-- **The text is the one with a fixed number of decimals.** -/
theorem formatFixed_fixedText (n : ℤ) (scale : ℕ) {negative : Bool}
    (hnegative : n < 0 ↔ negative = true ∧ n.natAbs ≠ 0) :
    FixedText scale n (formatFixed negative n.natAbs scale) := by
  rw [formatFixed]
  generalize hdigits : padStart (scale + 1) (Nat.toDigits 10 n.natAbs) = digits
  have hisDigits : IsDigits digits := by
    rw [← hdigits]
    exact padStart_isDigits (isDigits_toDigits _)
  have hvalue : digitsValue digits = n.natAbs := by
    rw [← hdigits, digitsValue_padStart]
    exact Nat.ofDigitChars_ten_toDigits
  have hlength : digits.length =
      scale + 1 - (Nat.toDigits 10 n.natAbs).length + (Nat.toDigits 10 n.natAbs).length := by
    rw [← hdigits, padStart, List.length_append, List.length_replicate]
  have hwhole : (digits.take (digits.length - scale)).length = digits.length - scale := by
    rw [List.length_take]
    omega
  refine ⟨digits.take (digits.length - scale), digits.drop (digits.length - scale),
    fun c hc ↦ hisDigits c (List.mem_of_mem_take hc),
    fun c hc ↦ hisDigits c (List.mem_of_mem_drop hc), ?_, fun hhead ↦ ?_, ?_, ?_, ?_⟩
  · intro hnil
    rw [hnil, List.length_nil] at hwhole
    omega
  · by_cases hpad : (Nat.toDigits 10 n.natAbs).length ≤ scale
    · -- The zero is the only digit before the point.
      obtain ⟨c, hc⟩ := List.length_eq_one_iff.1 (hwhole.trans (by omega))
      rw [hc] at hhead ⊢
      rw [Option.some_inj.1 hhead]
    · -- Without padding the number starts with the zero, so it is zero.
      have hnopad : digits = Nat.toDigits 10 n.natAbs := by
        rw [← hdigits, padStart, Nat.sub_eq_zero_of_le (by omega)]
        rfl
      have hzero : n.natAbs = 0 := by
        refine eq_zero_of_head?_toDigits ?_
        rw [← hnopad, ← hhead, List.head?_take, if_neg (by omega)]
      rw [hzero, Nat.toDigits_zero] at hnopad hpad
      have hscale : scale = 0 := Nat.lt_one_iff.1 (not_le.1 hpad)
      rw [hnopad, hscale]
      rfl
  · rw [List.length_drop]
    omega
  · rw [List.take_append_drop, hvalue]
  · have hunsigned : (if scale = 0 then digits else digits.take (digits.length - scale) ++
        '.' :: digits.drop (digits.length - scale)) =
        digits.take (digits.length - scale) ++
          if scale = 0 then [] else '.' :: digits.drop (digits.length - scale) := by
      by_cases hscale : scale = 0
      · rw [if_pos hscale, if_pos hscale, List.append_nil, hscale, Nat.sub_zero, List.take_length]
      · rw [if_neg hscale, if_neg hscale]
    rw [hunsigned, List.append_assoc]
    by_cases hn : n < 0
    · rw [if_pos hn, if_pos (hnegative.1 hn)]
      rfl
    · rw [if_neg hn, if_neg fun h ↦ hn (hnegative.2 h)]
      rfl

/-! ## The canonical text -/

/-- The text of `n / 10 ^ scale`. -/
def fixedText (scale : ℕ) (n : ℤ) : String :=
  String.ofList (formatFixed (decide (n < 0)) n.natAbs scale)

theorem fixedText_fixedText (scale : ℕ) (n : ℤ) : FixedText scale n (fixedText scale n).toList := by
  rw [fixedText, String.toList_ofList]
  refine formatFixed_fixedText n scale ?_
  rw [decide_eq_true_iff]
  omega

/-- The text is accepted, and denotes the number. -/
theorem denotes_fixedText (scale : ℕ) (n : ℤ) : Denotes (fixedText scale n) (n / 10 ^ scale) := by
  obtain ⟨l, htext, hpower, hvalue⟩ := (fixedText_fixedText scale n).exists_literal
  refine ⟨l, [], [], fun c hc ↦ absurd hc List.not_mem_nil, fun c hc ↦ absurd hc List.not_mem_nil,
    ?_, ?_, hvalue⟩
  · rw [htext, List.nil_append, List.append_nil]
  · rw [hpower]
    norm_num

theorem Denotes.unique {shown : String} {q r : ℚ} (hq : Denotes shown q) (hr : Denotes shown r) :
    q = r :=
  (parseShown_eq_iff hq hr).2 rfl

/-- An accepted input is parsed to the number it stands for. -/
theorem parse_of_denotes {value : NumericInput} {q : ℚ} (h : value.Denotes q) :
    ∃ d, parsePostgresDecimal value = .ok d ∧ d.value = q := by
  have hparse : ∀ shown, Denotes shown q → ∃ d, parseShown shown = .ok d ∧ d.value = q := by
    intro shown h
    obtain ⟨d, hd, _, hvalue⟩ := parseShown_of_denotes h
    exact ⟨d, hd, hvalue⟩
  rcases value with (- | shown) | shown
  · exact h.elim
  · exact hparse shown h
  · exact hparse shown h

section Canonical

variable {p s : ℕ} {value : NumericInput} {q : ℚ}

/-- **The canonical text depends on the number alone.** -/
theorem canonicalize_eq (hp : 1 ≤ p) (hs : s ≤ p) (hsafe : isSafeInteger p = true)
    (h : value.Denotes q) :
    canonicalizePostgresNumeric (some value) p s =
      if 10 ^ p ≤ (roundHalfAway s q).natAbs then .error "POSTGRES_NUMERIC_OVERFLOW"
      else .ok (some (fixedText s (roundHalfAway s q))) := by
  obtain ⟨d, hd, rfl⟩ := parse_of_denotes h
  have hscale : isSafeInteger s = true := by
    have hprecision := of_decide_eq_true hsafe
    refine decide_eq_true ?_
    rw [Nat.abs_cast] at hprecision ⊢
    omega
  have hdefinition : ¬ (¬ isSafeInteger p = true ∨ ¬ isSafeInteger s = true ∨ (p : ℤ) < 1 ∨
      (s : ℤ) < 0 ∨ (p : ℤ) < s) := by
    rw [hsafe, hscale]
    simp only [not_true_eq_false, false_or]
    omega
  have hsign : formatFixed (decide (d.coefficient < 0)) (roundHalfAway s d.value).natAbs s =
      formatFixed (decide (roundHalfAway s d.value < 0)) (roundHalfAway s d.value).natAbs s := by
    have hvalue : d.coefficient < 0 ↔ d.value < 0 := by
      rw [Scaled.value, div_lt_iff₀ (by positivity), zero_mul]
      exact Int.cast_lt_zero.symm
    rw [formatFixed, formatFixed]
    simp only [decide_eq_true_eq, hvalue]
    by_cases hq : d.value < 0
    · have hround := @roundHalfAway_nonpos s d.value hq
      by_cases hzero : roundHalfAway s d.value = 0
      · simp [hzero]
      · have hneg : roundHalfAway s d.value < 0 := lt_of_le_of_ne hround hzero
        simp [hq, hneg]
    · have hround := @roundHalfAway_nonneg s d.value (not_lt.1 hq)
      simp [hq, not_lt.2 hround]
  rw [canonicalizePostgresNumeric]
  simp only [if_neg hdefinition, hd]
  change (if 10 ^ (p : ℤ).toNat ≤ rescale d.coefficient.natAbs d.scale (s : ℤ).toNat then _
    else _) = _
  rw [Int.toNat_natCast, Int.toNat_natCast, rescale_eq, hsign]
  rfl

/-- Canonical texts with a precision and a scale. -/
structure CanonicalTexts (p s : ℕ) : Prop where
  /-- The number is rounded to the nearest one, away from zero where two are as near. -/
  nearest : ∀ q : ℚ, ∀ k : ℤ,
    |q * 10 ^ s - roundHalfAway s q| ≤ |q * 10 ^ s - k| ∧
      (|q * 10 ^ s - roundHalfAway s q| = |q * 10 ^ s - k| → |k| ≤ |roundHalfAway s q|)
  /-- Large numbers are refused. -/
  overflow : ∀ v q, NumericInput.Denotes v q →
    (canonicalizePostgresNumeric (some v) p s = .error "POSTGRES_NUMERIC_OVERFLOW" ↔
      (10 : ℚ) ^ (p - s) ≤ |(roundHalfAway s q : ℚ) / 10 ^ s|)
  /-- The others have a text with as many decimals. -/
  fixed : ∀ v q, NumericInput.Denotes v q → |(roundHalfAway s q : ℚ) / 10 ^ s| < 10 ^ (p - s) →
    ∃ t, canonicalizePostgresNumeric (some v) p s = .ok (some t) ∧
      FixedText s (roundHalfAway s q) t.toList
  equal : ∀ v w q, NumericInput.Denotes v q → NumericInput.Denotes w q →
    canonicalizePostgresNumeric (some v) p s = canonicalizePostgresNumeric (some w) p s
  monotone : ∀ v w q r, NumericInput.Denotes v q → NumericInput.Denotes w r → q ≤ r → ∀ t u,
    canonicalizePostgresNumeric (some v) p s = .ok (some t) →
    canonicalizePostgresNumeric (some w) p s = .ok (some u) →
    ∀ x y, Denotes t x → Denotes u y → x ≤ y
  idempotent : ∀ v q, NumericInput.Denotes v q → ∀ t,
    canonicalizePostgresNumeric (some v) p s = .ok (some t) →
    canonicalizePostgresNumeric (some (.text t)) p s = .ok (some t)

/-- **Canonical texts are exact.** -/
theorem canonicalize_exact (hp : 1 ≤ p) (hs : s ≤ p) (hsafe : isSafeInteger p = true) :
    CanonicalTexts p s := by
  have hlarge : ∀ n : ℤ, 10 ^ p ≤ n.natAbs ↔ (10 : ℚ) ^ (p - s) ≤ |(n : ℚ) / 10 ^ s| := by
    intro n
    have hpow : (0 : ℚ) < 10 ^ s := by positivity
    rw [abs_div, abs_of_pos hpow, le_div_iff₀ hpow, ← pow_add, Nat.sub_add_cancel hs,
      ← Int.cast_abs, ← Int.natCast_natAbs]
    exact_mod_cast Iff.rfl
  have htext : ∀ {v q t}, NumericInput.Denotes v q →
      canonicalizePostgresNumeric (some v) p s = .ok (some t) →
      ¬ 10 ^ p ≤ (roundHalfAway s q).natAbs ∧ t = fixedText s (roundHalfAway s q) := by
    intro v q t hv ht
    rw [canonicalize_eq hp hs hsafe hv] at ht
    split at ht
    · cases ht
    · next hsmall => exact ⟨hsmall, (Option.some_inj.1 (Except.ok.inj ht)).symm⟩
  refine ⟨fun q k ↦ roundHalfAway_nearest q k, fun v q hv ↦ ?_, fun v q hv hsmall ↦ ?_,
    fun v w q hv hw ↦ ?_, fun v w q r hv hw hle t u ht hu x y hx hy ↦ ?_, fun v q hv t ht ↦ ?_⟩
  · rw [canonicalize_eq hp hs hsafe hv, ← hlarge]
    by_cases hover : 10 ^ p ≤ (roundHalfAway s q).natAbs
    · rw [if_pos hover]
      exact ⟨fun _ ↦ hover, fun _ ↦ rfl⟩
    · rw [if_neg hover]
      exact ⟨nofun, fun h ↦ absurd h hover⟩
  · rw [canonicalize_eq hp hs hsafe hv, if_neg (by rw [hlarge]; exact not_le.2 hsmall)]
    exact ⟨_, rfl, fixedText_fixedText s _⟩
  · rw [canonicalize_eq hp hs hsafe hv, canonicalize_eq hp hs hsafe hw]
  · obtain rfl := (htext hv ht).2
    obtain rfl := (htext hw hu).2
    rw [hx.unique (denotes_fixedText s _), hy.unique (denotes_fixedText s _)]
    have hround : (roundHalfAway s q : ℚ) ≤ roundHalfAway s r := by
      exact_mod_cast roundHalfAway_mono hle
    exact div_le_div_of_nonneg_right hround (by positivity)
  · obtain ⟨hsmall, rfl⟩ := htext hv ht
    have hdenotes : NumericInput.Denotes (.text (fixedText s (roundHalfAway s q)))
        (roundHalfAway s q / 10 ^ s) := denotes_fixedText s _
    rw [canonicalize_eq hp hs hsafe hdenotes, roundHalfAway_div, if_neg hsmall]

/-- The theorem for the quantities of the repository. -/
theorem canonicalize_exact_quantity : CanonicalTexts 28 8 :=
  canonicalize_exact (by norm_num) (by norm_num) (by decide)

end Canonical

end PostgresNumeric

end AlpacaTrading
