import AlpacaTrading.Market.Calendar
import AlpacaTrading.Numeric.Canonical

/-!
# OCC symbols

An OCC symbol is a root of one to six letters or digits, a date of six digits, a letter for the
side and a strike of eight digits.  The root may end in digits, so where it ends is not seen from
the left; but what follows it is always fifteen characters long.  So a symbol is read in one way
only, and what was read determines the symbol.

`OccParts` is the symbol taken apart, and `parseOptionSymbol_eq_some_iff` says that the parser finds
the parts whenever there are any.
-/

namespace AlpacaTrading

open Decimal PostgresNumeric

/-! ## Parts -/

/-- An upper-case letter or a digit. -/
def IsRootChar (c : Char) : Prop := c.isUpper = true ∨ c.isDigit = true

/-- The letter of a side. -/
def OptionType.marker : OptionType → Char
  | call => 'C'
  | put => 'P'

/-- An OCC symbol by parts: the root, the digits of the date, the side and the digits of the
strike. -/
structure OccParts where
  root : List Char
  year : List Char
  month : List Char
  day : List Char
  type : OptionType
  strike : List Char

namespace OccParts

/-- The symbol. -/
def text (p : OccParts) : List Char :=
  p.root ++ (p.year ++ (p.month ++ (p.day ++ p.type.marker :: p.strike)))

/-- The parts are well formed and the date is real. -/
structure Valid (p : OccParts) : Prop where
  root_pos : 1 ≤ p.root.length
  root_le : p.root.length ≤ 6
  root_chars : ∀ c ∈ p.root, IsRootChar c
  year_length : p.year.length = 2
  year_digits : IsDigits p.year
  month_length : p.month.length = 2
  month_digits : IsDigits p.month
  day_length : p.day.length = 2
  day_digits : IsDigits p.day
  real : RealDate (2000 + digitsValue p.year) (digitsValue p.month) (digitsValue p.day)
  strike_length : p.strike.length = 8
  strike_digits : IsDigits p.strike

/-- What the symbol says. -/
def symbol (p : OccParts) : OptionSymbol where
  occRoot := String.ofList p.root
  expirationDate := toString (2000 + digitsValue p.year) ++ "-" ++ String.ofList p.month ++ "-" ++
    String.ofList p.day
  expirationDay := daysFromCivil (2000 + digitsValue p.year) (digitsValue p.month)
    (digitsValue p.day)
  optionType := p.type
  strikeMilliunits := digitsValue p.strike

end OccParts

/-! ## Normal forms -/

/-- The characters of the upper-case form of a text, without white space. -/
def normalizedChars (s : String) : List Char :=
  (Text.toUpperCase s).toList.filter (!Text.isSpace ·)

section Normal

theorem filter_upperChar {c : Char} (h : Text.isSpace c = true) :
    (Text.upperChar c).filter (!Text.isSpace ·) = [] := by
  rw [List.filter_eq_nil_iff]
  intro d hd
  rw [((Text.upperChar_spec c).2 d hd).1, h]
  decide

/-- Trimming before makes no difference. -/
theorem filter_upper_trim (s : String) :
    (Text.toUpperCase (Text.trim s)).toList.filter (!Text.isSpace ·) = normalizedChars s := by
  rw [normalizedChars, Text.toUpperCase, Text.toUpperCase, Text.trim, String.toList_ofList,
    String.toList_ofList, String.toList_ofList]
  obtain ⟨before, after, hbefore, hafter, hs⟩ := Text.exists_eq_append_trimChars s.toList
  have hnone : ∀ l : List Char, (∀ c ∈ l, Text.isSpace c = true) →
      (l.flatMap Text.upperChar).filter (!Text.isSpace ·) = [] := by
    intro l hl
    rw [List.filter_flatMap, List.flatMap_eq_nil_iff]
    exact fun c hc ↦ filter_upperChar (hl c hc)
  conv_rhs => rw [hs]
  rw [List.flatMap_append, List.flatMap_append, List.filter_append, List.filter_append,
    hnone before hbefore, hnone after hafter, List.nil_append, List.append_nil]

/-- A letter or digit of a symbol is its own upper-case form and no white space. -/
theorem IsRootChar.normal {c : Char} (h : IsRootChar c) :
    Text.upperChar c = [c] ∧ Text.isSpace c = false := by
  have hrange : 48 ≤ c.toNat ∧ c.toNat ≤ 90 := by
    rcases h with h | h
    · have h := of_decide_eq_true h
      have h₁ : 65 ≤ c.toNat := UInt32.le_iff_toNat_le.1 h.1
      have h₂ : c.toNat ≤ 90 := UInt32.le_iff_toNat_le.1 h.2
      omega
    · have h : 48 ≤ c.toNat ∧ c.toNat ≤ 57 := Char.isDigit_iff_toNat.1 h
      omega
  constructor
  · have hup : c.toUpper = c := by
      apply Char.toNat_inj.1
      rw [Text.toNat_toUpper, if_neg (by omega)]
    unfold Text.upperChar
    split <;> first | rw [hup] | omega
  · unfold Text.isSpace
    simp
    omega

/-- A text of letters and digits is its own normal form. -/
theorem normalizedChars_ofList {l : List Char} (h : ∀ c ∈ l, IsRootChar c) :
    normalizedChars (String.ofList l) = l := by
  rw [normalizedChars, Text.toUpperCase, String.toList_ofList, String.toList_ofList]
  induction l with
  | nil => rfl
  | cons c l ih =>
    obtain ⟨hupper, hspace⟩ := (h c List.mem_cons_self).normal
    rw [List.flatMap_cons, hupper, List.singleton_append, List.filter_cons_of_pos (by simp [hspace]),
      ih fun d hd ↦ h d (List.mem_cons_of_mem c hd)]

end Normal

/-! ## Reading a symbol -/

section Reading

variable {p : OccParts}

theorem digits?_eq_some {l : List Char} {n : ℕ} :
    Text.digits? l = some n ↔ l ≠ [] ∧ IsDigits l ∧ digitsValue l = n := by
  rw [Text.digits?]
  split
  · next h =>
    rw [Option.some_inj, digitsValue, Nat.ofDigitChars_eq_foldl]
    exact ⟨fun hn ↦ ⟨h.1, List.all_eq_true.1 h.2, hn⟩, fun hn ↦ hn.2.2⟩
  · next h =>
    refine iff_of_false (Option.some_ne_none _).symm ?_
    rintro ⟨hne, hdigits, -⟩
    exact h ⟨hne, List.all_eq_true.2 hdigits⟩

theorem OccParts.Valid.chars (h : p.Valid) : ∀ c ∈ p.text, IsRootChar c := by
  have hdigits : ∀ {l}, IsDigits l → ∀ c ∈ l, IsRootChar c := fun hl c hc ↦ Or.inr (hl c hc)
  intro c hc
  simp only [OccParts.text, List.mem_append, List.mem_cons] at hc
  rcases hc with hc | hc | hc | hc | rfl | hc
  · exact h.root_chars c hc
  · exact hdigits h.year_digits c hc
  · exact hdigits h.month_digits c hc
  · exact hdigits h.day_digits c hc
  · rcases p.type with - | -
    · exact Or.inl (by decide)
    · exact Or.inl (by decide)
  · exact hdigits h.strike_digits c hc

/-- The parser finds the parts of a symbol. -/
theorem parseOptionSymbol_of_parts {s : String} (h : p.Valid) (hs : normalizedChars s = p.text) :
    parseOptionSymbol s = some p.symbol := by
  obtain ⟨root, year, month, day, type, strike⟩ := p
  obtain ⟨hroot, hroot', hchars, hyear, hyear', hmonth, hmonth', hday, hday', hreal, hstrike,
    hstrike'⟩ := h
  dsimp only at *
  have hlength : (normalizedChars s).length - 15 = root.length := by
    rw [hs]
    simp only [OccParts.text, List.length_append, List.length_cons, hyear, hmonth, hday, hstrike]
    omega
  obtain ⟨y₁, y₂, rfl⟩ := List.length_eq_two.1 hyear
  obtain ⟨m₁, m₂, rfl⟩ := List.length_eq_two.1 hmonth
  obtain ⟨d₁, d₂, rfl⟩ := List.length_eq_two.1 hday
  have htake : (normalizedChars s).take ((normalizedChars s).length - 15) = root := by
    rw [hlength, hs]
    exact List.take_left
  have hdrop : (normalizedChars s).drop ((normalizedChars s).length - 15) =
      [y₁, y₂, m₁, m₂, d₁, d₂] ++ type.marker :: strike := by
    rw [hlength, hs]
    exact List.drop_left
  have hsize : 16 ≤ (normalizedChars s).length ∧ (normalizedChars s).length ≤ 21 := by
    constructor
    · omega
    · omega
  have hall : root.all (fun c ↦ c.isUpper || c.isDigit) = true := by
    rw [List.all_eq_true]
    intro c hc
    simpa [IsRootChar] using hchars c hc
  have hvalue : ∀ {l : List Char}, l ≠ [] → IsDigits l → Text.digits? l = some (digitsValue l) :=
    fun hne hl ↦ digits?_eq_some.2 ⟨hne, hl, rfl⟩
  have hstrike₀ : strike ≠ [] := fun hnil ↦ by simp [hnil] at hstrike
  rw [parseOptionSymbol, filter_upper_trim]
  dsimp only
  rw [htake, hdrop, if_pos ⟨hsize.1, hsize.2, hall⟩]
  rcases type with - | -
  all_goals
    simp only [List.cons_append, List.nil_append, List.take_succ_cons, List.take_zero,
      List.drop_succ_cons, List.drop_zero, List.getElem?_cons_succ, List.getElem?_cons_zero,
      OptionType.marker, hvalue (List.cons_ne_nil _ _) hyear',
      hvalue (List.cons_ne_nil _ _) hmonth', hvalue (List.cons_ne_nil _ _) hday',
      hvalue hstrike₀ hstrike', Option.bind_eq_bind, Option.bind_some]
    rw [if_pos (civilFromDays_daysFromCivil hreal)]
    rfl

/-- What follows the root has fifteen characters. -/
theorem exists_tail {l : List Char} (h : l.length = 15) :
    ∃ y₁ y₂ m₁ m₂ d₁ d₂ c strike, l = y₁ :: y₂ :: m₁ :: m₂ :: d₁ :: d₂ :: c :: strike ∧
      strike.length = 8 := by
  rcases l with - | ⟨y₁, - | ⟨y₂, - | ⟨m₁, - | ⟨m₂, - | ⟨d₁, - | ⟨d₂, - | ⟨c, strike⟩⟩⟩⟩⟩⟩⟩
  all_goals simp only [List.length_nil, List.length_cons] at h
  case cons => exact ⟨y₁, y₂, m₁, m₂, d₁, d₂, c, strike, rfl, by omega⟩
  all_goals omega

/-- A symbol the parser accepts has parts. -/
theorem exists_parts {s : String} {o : OptionSymbol} (h : parseOptionSymbol s = some o) :
    ∃ p : OccParts, p.Valid ∧ normalizedChars s = p.text ∧ o = p.symbol := by
  rw [parseOptionSymbol, filter_upper_trim] at h
  dsimp only at h
  split at h
  case isFalse => simp at h
  case isTrue hsize =>
    obtain ⟨hmin, hmax, hroot⟩ := hsize
    have htext := List.take_append_drop ((normalizedChars s).length - 15) (normalizedChars s)
    generalize htake : (normalizedChars s).take ((normalizedChars s).length - 15) = root at *
    generalize hdrop : (normalizedChars s).drop ((normalizedChars s).length - 15) = rest at *
    have hlength : root.length = (normalizedChars s).length - 15 := by
      rw [← htake, List.length_take]
      omega
    have hrest : rest.length = 15 := by
      rw [← hdrop, List.length_drop]
      omega
    obtain ⟨y₁, y₂, m₁, m₂, d₁, d₂, c, strike, rfl, hstrike⟩ := exists_tail hrest
    simp only [List.take_succ_cons, List.take_zero, List.drop_succ_cons, List.drop_zero,
      List.getElem?_cons_succ, List.getElem?_cons_zero, Option.bind_eq_bind,
      Option.bind_eq_some_iff] at h
    obtain ⟨year, hyear, month, hmonth, day, hday, h⟩ := h
    obtain ⟨type, rfl, hrest'⟩ : ∃ type : OptionType, c = type.marker ∧
        (Text.digits? strike).bind (fun strikeMilliunits ↦
          if civilFromDays (daysFromCivil (2000 + year) month day) =
              (2000 + (year : Int), (month : Int), (day : Int)) then
            some {
              occRoot := String.ofList root
              expirationDate := toString (2000 + year) ++ "-" ++ String.ofList [m₁, m₂] ++ "-" ++
                String.ofList [d₁, d₂]
              expirationDay := daysFromCivil (2000 + year) month day
              optionType := type
              strikeMilliunits }
          else none) = some o := by
      split at h
      · next hc => exact ⟨.call, Option.some.inj hc, h⟩
      · next hc => exact ⟨.put, Option.some.inj hc, h⟩
      · simp at h
    obtain ⟨milliunits, hvalue, hsymbol⟩ := Option.bind_eq_some_iff.1 hrest'
    split at hsymbol
    case isFalse => simp at hsymbol
    case isTrue hcivil =>
      obtain ⟨-, hyear', rfl⟩ := digits?_eq_some.1 hyear
      obtain ⟨-, hmonth', rfl⟩ := digits?_eq_some.1 hmonth
      obtain ⟨-, hday', rfl⟩ := digits?_eq_some.1 hday
      obtain ⟨-, hdigits, rfl⟩ := digits?_eq_some.1 hvalue
      have hpos : 1 ≤ root.length ∧ root.length ≤ 6 := by omega
      refine ⟨⟨root, [y₁, y₂], [m₁, m₂], [d₁, d₂], type, strike⟩, ?_, ?_, (Option.some.inj hsymbol).symm⟩
      · refine ⟨hpos.1, hpos.2, fun c hc ↦ ?_, rfl, hyear', rfl, hmonth', rfl, hday',
          civil_roundtrip_iff.1 hcivil, hstrike, hdigits⟩
        simpa [IsRootChar] using List.all_eq_true.1 hroot c hc
      · rw [← htext]
        rfl

end Reading

/-! ## Rebuilding a symbol -/

/-- The digits `yymmdd` of a date `yyyy-mm-dd`. -/
def yymmdd (date : String) : List Char :=
  (date.toList.drop 2).take 2 ++ (date.toList.drop 5).take 2 ++ (date.toList.drop 8).take 2

/-- The symbol of a contract: the root, the date, the side and the strike in eight digits. -/
def OptionSymbol.text (o : OptionSymbol) : List Char :=
  o.occRoot.toList ++ yymmdd o.expirationDate ++ o.optionType.marker ::
    padStart 8 (Nat.toDigits 10 o.strikeMilliunits)

section Rebuilding

variable {p : OccParts}

/-- The digits of a number below a power of ten, padded to so many, are the only ones. -/
theorem padStart_toDigits {l : List Char} (h : IsDigits l) (hne : l ≠ []) :
    padStart l.length (Nat.toDigits 10 (digitsValue l)) = l := by
  have hpos : 0 < l.length := List.length_pos_iff.2 hne
  have hle : (Nat.toDigits 10 (digitsValue l)).length ≤ l.length :=
    (Nat.length_toDigits_le_iff (by decide) hpos).2 (digitsValue_lt h)
  refine eq_of_digitsValue_eq (padStart_isDigits (isDigits_toDigits _)) h ?_ ?_
  · rw [padStart, List.length_append, List.length_replicate]
    omega
  · rw [digitsValue_padStart]
    exact Nat.ofDigitChars_ten_toDigits

/-- The year is written with its century. -/
theorem toDigits_year {l : List Char} (h : IsDigits l) (hlength : l.length = 2) :
    Nat.toDigits 10 (2000 + digitsValue l) = '2' :: '0' :: l := by
  have hlt := digitsValue_lt h
  rw [hlength] at hlt
  have hdigits : IsDigits ('2' :: '0' :: l) := by
    intro c hc
    rcases List.mem_cons.1 hc with rfl | hc
    · rfl
    · rcases List.mem_cons.1 hc with rfl | hc
      · rfl
      · exact h c hc
  have hvalue : digitsValue ('2' :: '0' :: l) = 2000 + digitsValue l := by
    have happend := digitsValue_append ['2', '0'] l
    rw [hlength] at happend
    exact happend
  have hfour : 4 ≤ (Nat.toDigits 10 (2000 + digitsValue l)).length := by
    by_contra hlt
    have hthree : (Nat.toDigits 10 (2000 + digitsValue l)).length ≤ 3 :=
      Nat.le_of_lt_succ (not_le.1 hlt)
    rw [Nat.length_toDigits_le_iff (by decide) (by decide)] at hthree
    omega
  have hnopad := padStart_toDigits hdigits (List.cons_ne_nil _ _)
  rw [hvalue, padStart, List.length_cons, List.length_cons, hlength,
    Nat.sub_eq_zero_of_le hfour] at hnopad
  exact hnopad

/-- **The symbol of the contract that was read is the one it was read from.** -/
theorem OccParts.Valid.symbol_text (h : p.Valid) : p.symbol.text = p.text := by
  obtain ⟨root, year, month, day, type, strike⟩ := p
  obtain ⟨-, -, -, hyear, hyear', hmonth, -, hday, -, -, hstrike, hstrike'⟩ := h
  dsimp only at *
  have hdate : yymmdd (OccParts.symbol ⟨root, year, month, day, type, strike⟩).expirationDate =
      year ++ month ++ day := by
    obtain ⟨m₁, m₂, rfl⟩ := List.length_eq_two.1 hmonth
    obtain ⟨d₁, d₂, rfl⟩ := List.length_eq_two.1 hday
    have hdigits := toDigits_year hyear' hyear
    obtain ⟨y₁, y₂, rfl⟩ := List.length_eq_two.1 hyear
    rw [yymmdd, OccParts.symbol, String.toList_append, String.toList_append, String.toList_append,
      String.toList_append, Nat.toString_eq_ofList_toDigits, hdigits]
    simp only [String.toList_ofList]
    rfl
  have hne : strike ≠ [] := fun hnil ↦ by simp [hnil] at hstrike
  have hpad := padStart_toDigits hstrike' hne
  rw [hstrike] at hpad
  rw [OptionSymbol.text, hdate]
  simp only [OccParts.symbol, OccParts.text, String.toList_ofList, List.append_assoc, hpad]

/-- Reading the symbol of a contract gives the contract. -/
theorem OccParts.Valid.parse_text (h : p.Valid) :
    parseOptionSymbol (String.ofList p.symbol.text) = some p.symbol := by
  rw [h.symbol_text]
  exact parseOptionSymbol_of_parts h (normalizedChars_ofList h.chars)

end Rebuilding

/-- **OCC symbols are read in one way.**  The parser succeeds exactly on the symbols that have
parts, the symbol of the contract it finds is the normal form of what it read and gives the same
contract again, so symbols with different normal forms are different contracts. -/
theorem occ_symbols_unique (s : String) :
    ((parseOptionSymbol s).isSome ↔ ∃ p : OccParts, p.Valid ∧ normalizedChars s = p.text) ∧
      ∀ o, parseOptionSymbol s = some o →
        o.text = normalizedChars s ∧
        parseOptionSymbol (String.ofList o.text) = some o ∧
        ∀ t, parseOptionSymbol t = some o → normalizedChars t = normalizedChars s := by
  have hrebuilt : ∀ {t o}, parseOptionSymbol t = some o → o.text = normalizedChars t := by
    intro t o h
    obtain ⟨p, hp, htext, rfl⟩ := exists_parts h
    rw [hp.symbol_text, htext]
  refine ⟨⟨fun h ↦ ?_, ?_⟩, fun o h ↦ ⟨hrebuilt h, ?_, fun t ht ↦ ?_⟩⟩
  · obtain ⟨o, ho⟩ := Option.isSome_iff_exists.1 h
    obtain ⟨p, hp, htext, -⟩ := exists_parts ho
    exact ⟨p, hp, htext⟩
  · rintro ⟨p, hp, htext⟩
    rw [parseOptionSymbol_of_parts hp htext]
    rfl
  · obtain ⟨p, hp, -, rfl⟩ := exists_parts h
    exact hp.parse_text
  · rw [← hrebuilt ht, hrebuilt h]

/-- A root that ends in digits, in lower case and with blanks. -/
example : (parseOptionSymbol " spy1 260116c00600000").map OptionSymbol.text =
    some "SPY1260116C00600000".toList := by
  decide +kernel

end AlpacaTrading
