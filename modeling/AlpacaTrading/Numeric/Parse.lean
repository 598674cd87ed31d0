import AlpacaTrading.Lib.Decimal
import AlpacaTrading.Lib.Text

/-!
# Decimal parsing

`parsePostgresDecimal` reads a decimal literal as an integer and the number of its decimals,
without zeros at its end.  The regular expression of the source is a scan from the left: after the
digits of a group no other digit follows, so a shorter match of the group never helps.

`Denotes` says what the accepted texts are and which numbers they stand for, apart from the scan.
-/

namespace AlpacaTrading

namespace PostgresNumeric

open Decimal

/-! ## The source -/

/-- `number | string`. -/
inductive NumericInput where
  /-- A number, as `String` writes it; `none` is not finite. -/
  | number (shown : Option String)
  | text (value : String)
deriving DecidableEq, Repr

/-- The groups of the regular expression; the two groups of the fraction are never both there. -/
structure NumericMatch where
  sign : List Char
  whole : Option (List Char)
  fraction : Option (List Char)
  exponent : Option (List Char)
deriving DecidableEq, Repr

/-- `[+-]?`. -/
def scanSign : List Char → List Char × List Char
  | '+' :: rest => (['+'], rest)
  | '-' :: rest => (['-'], rest)
  | rest => ([], rest)

/-- `\d*`. -/
def scanDigits (s : List Char) : List Char × List Char :=
  (s.takeWhile Char.isDigit, s.dropWhile Char.isDigit)

/-- `(?:\.(\d*))?` after digits, and `\.(\d+)` without. -/
def scanFraction (whole : List Char) : List Char → Option (Option (List Char) × List Char)
  | '.' :: rest =>
    let (fraction, rest) := scanDigits rest
    if whole = [] ∧ fraction = [] then none else some (some fraction, rest)
  | rest => if whole = [] then none else some (none, rest)

/-- `(?:[eE]([+-]?\d+))?$`. -/
def scanExponent : List Char → Option (Option (List Char))
  | [] => some none
  | marker :: rest =>
    let (sign, rest) := scanSign rest
    let (digits, rest) := scanDigits rest
    if (marker = 'e' ∨ marker = 'E') ∧ digits ≠ [] ∧ rest = [] then some (some (sign ++ digits))
    else none

/-- The regular expression. -/
def scanNumeric (s : List Char) : Option NumericMatch := do
  let (sign, rest) := scanSign s
  let (whole, rest) := scanDigits rest
  let (fraction, rest) ← scanFraction whole rest
  let exponent ← scanExponent rest
  return { sign, whole := if whole = [] then none else some whole, fraction, exponent }

/-- `Number` and `BigInt` of digits with a sign.  An integer that `Number` has to round is not
safe before and after. -/
def signedInteger : List Char → ℤ
  | '-' :: digits => -digitsValue digits
  | '+' :: digits => digitsValue digits
  | digits => digitsValue digits

/-- `Number.isSafeInteger` on integers. -/
def isSafeInteger (n : ℤ) : Bool := decide (|n| ≤ 2 ^ 53 - 1)

/-- The loop that removes zeros. -/
def stripZeros : ℤ → ℕ → Scaled
  | coefficient, 0 => ⟨coefficient, 0⟩
  | coefficient, scale + 1 =>
    if coefficient.tmod 10 = 0 then stripZeros (coefficient.tdiv 10) scale
    else ⟨coefficient, scale + 1⟩

/-- `parsePostgresDecimal` after `String(value)`. -/
def parseShown (shown : String) : Except String Scaled :=
  match scanNumeric (Text.trimChars shown.toList) with
  | none => .error "POSTGRES_NUMERIC_INVALID"
  | some m =>
    let exponent := signedInteger (m.exponent.getD ['0'])
    if ¬ isSafeInteger exponent ∨ 1000 < |exponent| then .error "POSTGRES_NUMERIC_INVALID"
    else
      let fraction := m.fraction.getD []
      let coefficient := signedInteger
        ((if m.sign = ['-'] then ['-'] else []) ++ m.whole.getD ['0'] ++ fraction)
      let scale : ℤ := fraction.length - exponent
      .ok (if scale < 0 then stripZeros (coefficient * 10 ^ (-scale).toNat) 0
        else stripZeros coefficient scale.toNat)

/-- `parsePostgresDecimal`. -/
def parsePostgresDecimal : NumericInput → Except String Scaled
  | .number none => .error "POSTGRES_NUMERIC_NONFINITE"
  | .number (some shown) => parseShown shown
  | .text value => parseShown value

/-! ## The scan -/

section Scan

variable {s rest : List Char}

theorem scanSign_text (sign : Sign) (h : ∀ c ∈ s.head?, c ≠ '+' ∧ c ≠ '-') :
    scanSign (sign.text ++ s) = (sign.text, s) := by
  rcases sign with - | - | -
  · rcases s with - | ⟨c, s⟩
    · rfl
    · obtain ⟨hplus, hminus⟩ := h c rfl
      exact scanSign.eq_3 _ (fun _ h ↦ hplus (List.cons.inj h).1)
        fun _ h ↦ hminus (List.cons.inj h).1
  · rfl
  · rfl

theorem exists_scanSign (s : List Char) :
    ∃ sign : Sign, ∃ rest, scanSign s = (sign.text, rest) ∧ s = sign.text ++ rest := by
  by_cases hplus : ∃ rest, s = '+' :: rest
  · obtain ⟨rest, rfl⟩ := hplus
    exact ⟨.plus, rest, rfl, rfl⟩
  · by_cases hminus : ∃ rest, s = '-' :: rest
    · obtain ⟨rest, rfl⟩ := hminus
      exact ⟨.minus, rest, rfl, rfl⟩
    · exact ⟨.none, s, scanSign.eq_3 s (fun rest h ↦ hplus ⟨rest, h⟩) fun rest h ↦ hminus ⟨rest, h⟩,
        rfl⟩

/-- A scan takes the digits up to another character. -/
theorem scanDigits_append (hs : IsDigits s) (hrest : ∀ c ∈ rest.head?, c.isDigit = false) :
    scanDigits (s ++ rest) = (s, rest) := by
  have hnone : rest.takeWhile Char.isDigit = [] ∧ rest.dropWhile Char.isDigit = rest := by
    rcases rest with - | ⟨c, rest⟩
    · exact ⟨rfl, rfl⟩
    · have hc := hrest c rfl
      exact ⟨List.takeWhile_cons_of_neg (by simp [hc]), List.dropWhile_cons_of_neg (by simp [hc])⟩
  rw [scanDigits, List.takeWhile_append_of_pos hs, List.dropWhile_append_of_pos hs, hnone.1,
    hnone.2, List.append_nil]

theorem exists_scanDigits (s : List Char) :
    ∃ digits rest, scanDigits s = (digits, rest) ∧ IsDigits digits ∧ s = digits ++ rest :=
  ⟨_, _, rfl, fun _ hc ↦ List.mem_takeWhile_imp hc, List.takeWhile_append_dropWhile.symm⟩

/-- The exponent group of an exponent. -/
def exponentGroup (e : Option Exponent) : Option (List Char) := e.map fun e ↦ e.sign.text ++ e.digits

theorem scanExponent_eq_some {group : Option (List Char)} :
    scanExponent s = some group ↔
      ∃ e : Option Exponent, s = e.elim [] Exponent.text ∧ group = exponentGroup e := by
  constructor
  · intro h
    rcases s with - | ⟨marker, s⟩
    · exact ⟨none, rfl, (Option.some_inj.1 h).symm⟩
    · obtain ⟨sign, after, hsign, rfl⟩ := exists_scanSign s
      obtain ⟨digits, rest, hdigits, hisDigits, rfl⟩ := exists_scanDigits after
      simp only [scanExponent, hsign, hdigits] at h
      split at h
      · next hvalid =>
        obtain ⟨hmarker, hne, rfl⟩ := hvalid
        refine ⟨some ⟨marker, sign, digits, hmarker, hne, hisDigits⟩, ?_, (Option.some_inj.1 h).symm⟩
        rw [List.append_nil]
        rfl
      · cases h
  · rintro ⟨- | e, rfl, rfl⟩
    · rfl
    · have hhead : ∀ c ∈ e.digits.head?, c ≠ '+' ∧ c ≠ '-' := by
        intro c hc
        have hdigit := e.isDigits c (List.mem_of_mem_head? hc)
        constructor
        · rintro rfl
          cases hdigit
        · rintro rfl
          cases hdigit
      have hscan := @scanDigits_append e.digits [] e.isDigits (by simp)
      rw [List.append_nil] at hscan
      change scanExponent (e.marker :: (e.sign.text ++ e.digits)) = _
      simp only [scanExponent, scanSign_text e.sign hhead, hscan]
      exact if_pos ⟨e.marker_eq, e.digits_ne_nil, trivial⟩

/-- An exponent does not start with a digit or a point. -/
theorem head?_exponentText {c : Char} (e : Option Exponent)
    (h : c ∈ (e.elim [] Exponent.text).head?) : c.isDigit = false ∧ c ≠ '.' := by
  rcases e with - | e
  · cases h
  · obtain rfl : e.marker = c := Option.some_inj.1 h
    rcases e.marker_eq with hmarker | hmarker
    · rw [hmarker]
      decide
    · rw [hmarker]
      decide

theorem scanFraction_eq_some {whole : List Char} {fraction : Option (List Char)}
    (h : scanFraction whole s = some (fraction, rest)) :
    IsDigits (fraction.getD []) ∧ whole ++ fraction.getD [] ≠ [] ∧
      s = fraction.elim [] ('.' :: ·) ++ rest := by
  by_cases hpoint : ∃ t, s = '.' :: t
  · obtain ⟨t, rfl⟩ := hpoint
    obtain ⟨digits, after, hdigits, hisDigits, rfl⟩ := exists_scanDigits t
    simp only [scanFraction, hdigits] at h
    split at h
    · cases h
    · next hne =>
      obtain ⟨rfl, rfl⟩ := Prod.mk.inj (Option.some_inj.1 h)
      exact ⟨hisDigits, fun hnil ↦ hne (List.append_eq_nil_iff.1 hnil), rfl⟩
  · rw [scanFraction.eq_2 whole s fun t h ↦ hpoint ⟨t, h⟩] at h
    split at h
    · cases h
    · next hne =>
      obtain ⟨rfl, rfl⟩ := Prod.mk.inj (Option.some_inj.1 h)
      exact ⟨fun c hc ↦ absurd hc List.not_mem_nil, fun hnil ↦ hne (List.append_eq_nil_iff.1 hnil).1,
        rfl⟩

theorem scanFraction_text {whole : List Char} (fraction : Option (List Char))
    (hfraction : IsDigits (fraction.getD [])) (hne : whole ++ fraction.getD [] ≠ [])
    (hrest : ∀ c ∈ rest.head?, c.isDigit = false ∧ c ≠ '.') :
    scanFraction whole (fraction.elim [] ('.' :: ·) ++ rest) = some (fraction, rest) := by
  rcases fraction with - | digits
  · have hwhole : whole ≠ [] := by simpa using hne
    change scanFraction whole rest = _
    rw [scanFraction.eq_2 whole rest fun t ht ↦ (hrest '.' (by rw [ht]; rfl)).2 rfl]
    exact if_neg hwhole
  · have hdigits : IsDigits digits := hfraction
    change scanFraction whole ('.' :: (digits ++ rest)) = _
    simp only [scanFraction, scanDigits_append hdigits fun c hc ↦ (hrest c hc).1]
    exact if_neg fun hnil ↦ hne (List.append_eq_nil_iff.2 hnil)

/-- The groups of a literal. -/
def groups (l : Literal) : NumericMatch where
  sign := l.sign.text
  whole := if l.whole = [] then none else some l.whole
  fraction := l.fraction
  exponent := exponentGroup l.exponent

/-- What stands after the sign starts with a digit or a point. -/
theorem head?_unsigned {c : Char} (l : Literal)
    (h : c ∈ (l.whole ++ (l.fractionText ++ l.exponentText)).head?) : c ≠ '+' ∧ c ≠ '-' := by
  have hdigit : ∀ {c : Char}, c.isDigit = true → c ≠ '+' ∧ c ≠ '-' := by
    intro c hc
    constructor
    · rintro rfl
      cases hc
    · rintro rfl
      cases hc
  rcases hwhole : l.whole with - | ⟨d, whole⟩
  · rcases hfraction : l.fraction with - | fraction
    · have hne := l.ne_nil
      rw [hwhole, hfraction] at hne
      exact absurd rfl hne
    · rw [hwhole, List.nil_append, Literal.fractionText, hfraction] at h
      obtain rfl : '.' = c := Option.some_inj.1 h
      decide
  · rw [hwhole] at h
    obtain rfl : d = c := Option.some_inj.1 h
    exact hdigit (l.whole_isDigits d (by rw [hwhole]; exact List.mem_cons_self))

/-- **The scan accepts exactly the literals.** -/
theorem scanNumeric_eq_some {m : NumericMatch} :
    scanNumeric s = some m ↔ ∃ l : Literal, l.text = s ∧ groups l = m := by
  constructor
  · intro h
    obtain ⟨sign, unsigned, hsign, rfl⟩ := exists_scanSign s
    obtain ⟨whole, after, hwhole, hisDigits, rfl⟩ := exists_scanDigits unsigned
    simp only [scanNumeric, hsign, hwhole, Option.bind_eq_bind, Option.bind_eq_some_iff] at h
    obtain ⟨⟨fraction, rest⟩, hfraction, exponent, hexponent, h⟩ := h
    obtain ⟨hfractionDigits, hne, rfl⟩ := scanFraction_eq_some hfraction
    obtain ⟨e, rfl, rfl⟩ := scanExponent_eq_some.1 hexponent
    refine ⟨⟨sign, whole, fraction, e, hisDigits, hfractionDigits, hne⟩, ?_, Option.some_inj.1 h⟩
    simp only [Literal.text, Literal.fractionText, Literal.exponentText, List.append_assoc]
  · rintro ⟨l, rfl, rfl⟩
    have hexponent : ∀ c ∈ l.exponentText.head?, c.isDigit = false ∧ c ≠ '.' :=
      fun c hc ↦ head?_exponentText l.exponent hc
    have hafter : ∀ c ∈ (l.fractionText ++ l.exponentText).head?, c.isDigit = false := by
      intro c hc
      rcases hfraction : l.fraction with - | fraction
      · rw [Literal.fractionText, hfraction] at hc
        exact (hexponent c hc).1
      · rw [Literal.fractionText, hfraction] at hc
        obtain rfl : '.' = c := Option.some_inj.1 hc
        rfl
    have hsign := scanSign_text l.sign fun c hc ↦ head?_unsigned l hc
    have hwhole := scanDigits_append l.whole_isDigits hafter
    have hfraction : scanFraction l.whole (l.fractionText ++ l.exponentText) =
        some (l.fraction, l.exponentText) :=
      scanFraction_text l.fraction l.fraction_isDigits l.ne_nil hexponent
    have hgroup : scanExponent l.exponentText = some (exponentGroup l.exponent) :=
      scanExponent_eq_some.2 ⟨l.exponent, rfl, rfl⟩
    rw [Literal.text, List.append_assoc, List.append_assoc]
    simp only [scanNumeric, hsign, hwhole, hfraction, hgroup, Option.bind_eq_bind, Option.bind_some]
    rfl

/-- Nothing in a literal is white space. -/
theorem isSpace_text (l : Literal) : ∀ c ∈ l.text, Text.isSpace c = false := by
  have hdigit : ∀ {c : Char}, c.isDigit = true → Text.isSpace c = false := by
    intro c hc
    obtain ⟨hlow, hhigh⟩ := Char.isDigit_iff_toNat.1 hc
    change 48 ≤ c.toNat at hlow
    change c.toNat ≤ 57 at hhigh
    simp only [Text.isSpace, Bool.or_eq_false_iff, decide_eq_false_iff_not, List.mem_cons,
      List.not_mem_nil, or_false, Bool.and_eq_false_iff]
    omega
  have hsign : ∀ sign : Sign, ∀ c ∈ sign.text, Text.isSpace c = false := by
    intro sign c hc
    rcases sign with - | - | -
    · cases hc
    · rw [List.mem_singleton.1 hc]
      decide
    · rw [List.mem_singleton.1 hc]
      decide
  intro c hc
  simp only [Literal.text, List.mem_append] at hc
  rcases hc with ((hc | hc) | hc) | hc
  · exact hsign l.sign c hc
  · exact hdigit (l.whole_isDigits c hc)
  · rcases hfraction : l.fraction with - | fraction
    · rw [Literal.fractionText, hfraction] at hc
      cases hc
    · have hdigits := l.fraction_isDigits
      rw [Literal.fractionText, hfraction] at hc
      rw [hfraction] at hdigits
      rcases List.mem_cons.1 hc with rfl | hc
      · decide
      · exact hdigit (hdigits c hc)
  · rcases hexponent : l.exponent with - | e
    · rw [Literal.exponentText, hexponent] at hc
      cases hc
    · rw [Literal.exponentText, hexponent] at hc
      rcases List.mem_cons.1 hc with rfl | hc
      · rcases e.marker_eq with hmarker | hmarker
        · rw [hmarker]
          decide
        · rw [hmarker]
          decide
      · rcases List.mem_append.1 hc with hc | hc
        · exact hsign e.sign c hc
        · exact hdigit (e.isDigits c hc)

end Scan

/-! ## Numbers -/

theorem signedInteger_digits {digits : List Char} (h : IsDigits digits) :
    signedInteger digits = digitsValue digits := by
  refine signedInteger.eq_3 digits (fun rest hrest ↦ ?_) fun rest hrest ↦ ?_
  · exact absurd (h '-' (by rw [hrest]; exact List.mem_cons_self)) (by decide)
  · exact absurd (h '+' (by rw [hrest]; exact List.mem_cons_self)) (by decide)

theorem signedInteger_text {digits : List Char} (sign : Sign) (h : IsDigits digits) :
    signedInteger (sign.text ++ digits) = sign.factor * digitsValue digits := by
  rcases sign with - | - | -
  · rw [Sign.factor, one_mul]
    · exact signedInteger_digits h
    · intro hsign
      cases hsign
  · exact (one_mul _).symm
  · exact (neg_one_mul _).symm

/-- The exponent of the groups is the power of the literal. -/
theorem signedInteger_exponent (l : Literal) :
    signedInteger ((groups l).exponent.getD ['0']) = l.power := by
  rw [groups, Literal.power]
  dsimp only
  rcases l.exponent with - | e
  · rfl
  · exact signedInteger_text e.sign e.isDigits

/-- The coefficient of the groups is the mantissa without its point. -/
theorem signedInteger_coefficient (l : Literal) :
    signedInteger ((if (groups l).sign = ['-'] then ['-'] else []) ++
        (groups l).whole.getD ['0'] ++ (groups l).fraction.getD []) =
      l.sign.factor * digitsValue (l.whole ++ l.fraction.getD []) := by
  have hwhole : IsDigits ((groups l).whole.getD ['0']) ∧
      digitsValue ((groups l).whole.getD ['0']) = digitsValue l.whole := by
    rw [groups]
    dsimp only
    by_cases hnil : l.whole = []
    · rw [if_pos hnil, hnil]
      exact ⟨fun c hc ↦ by rw [List.mem_singleton.1 hc]; rfl, rfl⟩
    · rw [if_neg hnil]
      exact ⟨l.whole_isDigits, rfl⟩
  have hdigits : IsDigits ((groups l).whole.getD ['0'] ++ l.fraction.getD []) :=
    hwhole.1.append l.fraction_isDigits
  have hvalue : digitsValue ((groups l).whole.getD ['0'] ++ l.fraction.getD []) =
      digitsValue (l.whole ++ l.fraction.getD []) := by
    rw [digitsValue_append, digitsValue_append, hwhole.2]
  rw [List.append_assoc]
  change signedInteger ((if l.sign.text = ['-'] then ['-'] else []) ++
    ((groups l).whole.getD ['0'] ++ l.fraction.getD [])) = _
  rw [← hvalue]
  rcases l.sign with - | - | -
  · exact signedInteger_text .none hdigits
  · rw [if_neg (by decide), List.nil_append, signedInteger_digits hdigits]
    exact (one_mul _).symm
  · exact signedInteger_text .minus hdigits

/-- **The loop** keeps the number, and ends in the normal form. -/
theorem stripZeros_spec (coefficient : ℤ) (scale : ℕ) :
    (stripZeros coefficient scale).Normal ∧
      (stripZeros coefficient scale).value = coefficient / 10 ^ scale := by
  induction scale generalizing coefficient with
  | zero => exact ⟨Or.inl rfl, rfl⟩
  | succ scale ih =>
    by_cases hzero : coefficient.tmod 10 = 0
    · rw [stripZeros, if_pos hzero]
      obtain ⟨k, rfl⟩ := Int.dvd_of_tmod_eq_zero hzero
      have hdiv : (10 * k).tdiv 10 = k := Int.mul_tdiv_cancel_left k (by norm_num)
      rw [hdiv]
      refine ⟨(ih k).1, (ih k).2.trans ?_⟩
      have hpow : (10 : ℚ) ^ scale ≠ 0 := by positivity
      push_cast
      rw [pow_succ, mul_comm ((10 : ℚ) ^ scale), mul_div_mul_left _ _ (by norm_num)]
    · rw [stripZeros, if_neg hzero]
      exact ⟨Or.inr fun hdvd ↦ hzero (Int.tmod_eq_zero_of_dvd hdvd), rfl⟩

/-- **What an accepted text denotes**: a literal with a moderate exponent, in white space. -/
def Denotes (shown : String) (q : ℚ) : Prop :=
  ∃ (l : Literal) (before after : List Char), (∀ c ∈ before, Text.isSpace c = true) ∧
    (∀ c ∈ after, Text.isSpace c = true) ∧ shown.toList = before ++ l.text ++ after ∧
    |l.power| ≤ 1000 ∧ l.value = q

/-- The number an input stands for, if it is accepted. -/
def NumericInput.Denotes : NumericInput → ℚ → Prop
  | number none, _ => False
  | number (some shown), q => PostgresNumeric.Denotes shown q
  | text value, q => PostgresNumeric.Denotes value q

section Parse

variable {shown shown' : String} {q r : ℚ}

/-- The groups of a literal are converted to the number it denotes. -/
theorem converted_spec (l : Literal) :
    let scale : ℤ := (l.fraction.getD []).length - l.power
    let coefficient := l.sign.factor * digitsValue (l.whole ++ l.fraction.getD [])
    let d := if scale < 0 then stripZeros (coefficient * 10 ^ (-scale).toNat) 0
      else stripZeros coefficient scale.toNat
    d.Normal ∧ d.value = l.value := by
  intro scale coefficient d
  have hten : (10 : ℚ) ≠ 0 := by norm_num
  have hvalue : l.value = coefficient * 10 ^ (-scale) := by
    rw [Literal.value, Literal.mantissa_eq, neg_sub, zpow_sub₀ hten, zpow_natCast]
    push_cast [coefficient]
    ring
  by_cases hscale : scale < 0
  · obtain ⟨hnormal, heq⟩ := stripZeros_spec (coefficient * 10 ^ (-scale).toNat) 0
    have hd : d = stripZeros (coefficient * 10 ^ (-scale).toNat) 0 := if_pos hscale
    rw [hd]
    refine ⟨hnormal, heq.trans ?_⟩
    have hpow : -scale = ((-scale).toNat : ℤ) := (Int.toNat_of_nonneg (by omega)).symm
    rw [hvalue, hpow, zpow_natCast, Int.toNat_natCast]
    push_cast
    rw [pow_zero, div_one]
  · obtain ⟨hnormal, heq⟩ := stripZeros_spec coefficient scale.toNat
    have hd : d = stripZeros coefficient scale.toNat := if_neg hscale
    rw [hd]
    refine ⟨hnormal, heq.trans ?_⟩
    have hpow : scale = (scale.toNat : ℤ) := (Int.toNat_of_nonneg (by omega)).symm
    rw [hvalue, zpow_neg, hpow, zpow_natCast, Int.toNat_natCast, div_eq_mul_inv]

/-- **A text that denotes a number** is parsed to its normal form. -/
theorem parseShown_of_denotes (h : Denotes shown q) :
    ∃ d, parseShown shown = .ok d ∧ d.Normal ∧ d.value = q := by
  obtain ⟨l, before, after, hbefore, hafter, htext, hpower, rfl⟩ := h
  have hscan : scanNumeric (Text.trimChars shown.toList) = some (groups l) := by
    rw [htext, Text.trimChars_append hbefore (isSpace_text l) hafter]
    exact scanNumeric_eq_some.2 ⟨l, rfl, rfl⟩
  have hexponent : ¬ (¬ isSafeInteger l.power = true ∨ 1000 < |l.power|) := by
    rw [not_or, not_not]
    exact ⟨decide_eq_true (by omega), not_lt.2 hpower⟩
  refine ⟨_, ?_, converted_spec l⟩
  simp only [parseShown, hscan, signedInteger_exponent, signedInteger_coefficient]
  exact if_neg hexponent

/-- **Every other text is rejected.** -/
theorem parseShown_of_not_denotes (h : ¬ ∃ q, Denotes shown q) :
    parseShown shown = .error "POSTGRES_NUMERIC_INVALID" := by
  rcases hscan : scanNumeric (Text.trimChars shown.toList) with - | m
  · simp only [parseShown, hscan]
  · obtain ⟨l, htext, rfl⟩ := scanNumeric_eq_some.1 hscan
    obtain ⟨before, after, hbefore, hafter, hshown⟩ :=
      Text.exists_eq_append_trimChars shown.toList
    rw [← htext] at hshown
    have hpower : 1000 < |l.power| := by
      by_contra hpower
      exact h ⟨l.value, l, before, after, hbefore, hafter, hshown, not_lt.1 hpower, rfl⟩
    simp only [parseShown, hscan, signedInteger_exponent]
    exact if_pos (Or.inr hpower)

/-- Two accepted texts denote one number exactly when they are parsed alike. -/
theorem parseShown_eq_iff (hq : Denotes shown q) (hr : Denotes shown' r) :
    q = r ↔ parseShown shown = parseShown shown' := by
  obtain ⟨d, hd, hnormal, rfl⟩ := parseShown_of_denotes hq
  obtain ⟨d', hd', hnormal', rfl⟩ := parseShown_of_denotes hr
  rw [hd, hd']
  constructor
  · intro h
    rw [Scaled.eq_of_value_eq hnormal hnormal' h]
  · intro h
    rw [Except.ok.inj h]

end Parse

/-- **Parsing a text gives the normal form** of the number it denotes, and rejects every text that
denotes none. -/
theorem parse_text_normalForm :
    (∀ s q, Denotes s q → ∃ d, parsePostgresDecimal (.text s) = .ok d ∧
      d.value = q ∧ d.Normal) ∧
    (∀ s t q r, Denotes s q → Denotes t r →
      (q = r ↔ parsePostgresDecimal (.text s) = parsePostgresDecimal (.text t))) ∧
    ∀ s, (¬ ∃ q, Denotes s q) →
      parsePostgresDecimal (.text s) = .error "POSTGRES_NUMERIC_INVALID" := by
  refine ⟨fun s q h ↦ ?_, fun s t q r hq hr ↦ parseShown_eq_iff hq hr,
    fun s h ↦ parseShown_of_not_denotes h⟩
  obtain ⟨d, hd, hnormal, hvalue⟩ := parseShown_of_denotes h
  exact ⟨d, hd, hvalue, hnormal⟩

example : parsePostgresDecimal (.text " -.0500e+1\n") = .ok ⟨-5, 1⟩ := by decide +kernel

end PostgresNumeric

end AlpacaTrading
