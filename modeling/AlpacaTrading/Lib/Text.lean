import Mathlib.Data.Rat.Defs
import Mathlib.Algebra.Field.Rat
import Mathlib.Data.List.DropRight

/-!
# Text as JavaScript and PostgreSQL read it

The string operations the services rely on, written on the list of characters so that they
evaluate: `trim`, the two case mappings, the case-insensitive substring test of a regular
expression with the `i` flag, the word test `\b…\b`, and the decimal literals a numeric
comparison in SQL accepts.
-/

namespace AlpacaTrading

namespace Text

/-! ## White space and case -/

/-- The white space and line terminators removed by `String.prototype.trim`. -/
def isSpace (c : Char) : Bool :=
  c.toNat ∈ [0x09, 0x0A, 0x0B, 0x0C, 0x0D, 0x20, 0xA0, 0x1680, 0x2028, 0x2029, 0x202F, 0x205F,
    0x3000, 0xFEFF] || (0x2000 ≤ c.toNat && c.toNat ≤ 0x200A)

/-- `trim` on characters. -/
def trimChars (s : List Char) : List Char :=
  ((s.dropWhile isSpace).reverse.dropWhile isSpace).reverse

/-- `String.prototype.trim`. -/
def trim (s : String) : String := String.ofList (trimChars s.toList)

/-- `btrim` of PostgreSQL, which removes blanks only. -/
def btrim (s : String) : String :=
  String.ofList (((s.toList.dropWhile (· = ' ')).reverse.dropWhile (· = ' ')).reverse)

/-- The lower-case mapping of one character.  Beyond ASCII only the Kelvin sign maps to an ASCII
letter; the letters that map outside ASCII are left alone, since every comparison made with the
result is with ASCII text. -/
def lowerChar (c : Char) : Char := if c.toNat = 0x212A then 'k' else c.toLower

/-- `String.prototype.toLowerCase`. -/
def toLowerCase (s : String) : String := String.ofList (s.toList.map lowerChar)

/-- The upper-case mapping of one character, with the characters outside ASCII whose full mapping
is ASCII. -/
def upperChar (c : Char) : List Char :=
  match c.toNat with
  | 0x131 => ['I']
  | 0x17F => ['S']
  | 0xDF => ['S', 'S']
  | 0xFB00 => ['F', 'F']
  | 0xFB01 => ['F', 'I']
  | 0xFB02 => ['F', 'L']
  | 0xFB03 => ['F', 'F', 'I']
  | 0xFB04 => ['F', 'F', 'L']
  | 0xFB05 => ['S', 'T']
  | 0xFB06 => ['S', 'T']
  | _ => [c.toUpper]

/-- `String.prototype.toUpperCase`. -/
def toUpperCase (s : String) : String := String.ofList (s.toList.flatMap upperChar)

/-! ## Normal forms -/

theorem toNat_toLower (c : Char) :
    c.toLower.toNat = if 65 ≤ c.toNat ∧ c.toNat ≤ 90 then c.toNat + 32 else c.toNat := by
  unfold Char.toLower
  split
  · next h =>
    have h1 : 65 ≤ c.toNat := UInt32.le_iff_toNat_le.1 h.1
    have h2 : c.toNat ≤ 90 := UInt32.le_iff_toNat_le.1 h.2
    rw [if_pos ⟨h1, h2⟩]
    change (c.val + 32).toNat = c.val.toNat + 32
    have h3 : c.val.toNat ≤ 90 := h2
    rw [UInt32.toNat_add]
    change (c.val.toNat + 32) % 2 ^ 32 = c.val.toNat + 32
    omega
  · next h =>
    rw [if_neg]
    rintro ⟨h1, h2⟩
    exact h ⟨UInt32.le_iff_toNat_le.2 h1, UInt32.le_iff_toNat_le.2 h2⟩

theorem toNat_lowerChar (c : Char) :
    (lowerChar c).toNat = if c.toNat = 0x212A then 107 else
      if 65 ≤ c.toNat ∧ c.toNat ≤ 90 then c.toNat + 32 else c.toNat := by
  unfold lowerChar
  split
  · rfl
  · exact toNat_toLower c

theorem isSpace_lowerChar (c : Char) : isSpace (lowerChar c) = isSpace c := by
  unfold isSpace
  rw [toNat_lowerChar]
  split
  · next h => rw [h]; decide
  · split
    · next h =>
      have hletter : ∀ n, 65 ≤ n → n ≤ 122 →
          (decide (n ∈ [0x09, 0x0A, 0x0B, 0x0C, 0x0D, 0x20, 0xA0, 0x1680, 0x2028, 0x2029, 0x202F,
            0x205F, 0x3000, 0xFEFF]) || (decide (0x2000 ≤ n) && decide (n ≤ 0x200A))) = false := by
        intro n h1 h2
        simp
        omega
      rw [hletter _ h.1 (by omega), hletter _ (by omega) (by omega)]
    · rfl

theorem lowerChar_lowerChar (c : Char) : lowerChar (lowerChar c) = lowerChar c := by
  apply Char.toNat_inj.1
  rw [toNat_lowerChar, toNat_lowerChar]
  split_ifs <;> omega

theorem trimChars_map {l : List Char} {f : Char → Char} (hf : ∀ c, isSpace (f c) = isSpace c) :
    trimChars (l.map f) = (trimChars l).map f := by
  have hcomp : isSpace ∘ f = isSpace := funext hf
  unfold trimChars
  rw [List.dropWhile_map, hcomp, ← List.map_reverse, List.dropWhile_map, hcomp, List.map_reverse]

theorem trimChars_trimChars (l : List Char) : trimChars (trimChars l) = trimChars l := by
  have hhead : (trimChars l).dropWhile isSpace = trimChars l := by
    rw [List.dropWhile_eq_self_iff]
    intro hl
    have hinit : trimChars l <+: l.dropWhile isSpace := List.rdropWhile_prefix isSpace _
    have hlen : 0 < (l.dropWhile isSpace).length := hl.trans_le hinit.length_le
    rw [hinit.getElem hl]
    exact List.dropWhile_eq_self_iff.1 (List.dropWhile_idempotent isSpace l) hlen
  calc trimChars (trimChars l)
      = ((trimChars l).dropWhile isSpace).rdropWhile isSpace := rfl
    _ = (trimChars l).rdropWhile isSpace := by rw [hhead]
    _ = trimChars l := List.rdropWhile_idempotent isSpace _

/-- Trimming removes white space around a text without white space. -/
theorem trimChars_append {before s after : List Char} (hbefore : ∀ c ∈ before, isSpace c = true)
    (hs : ∀ c ∈ s, isSpace c = false) (hafter : ∀ c ∈ after, isSpace c = true) :
    trimChars (before ++ s ++ after) = s := by
  have hdrop : ∀ t : List Char, (∀ c ∈ t, isSpace c = false) → t.dropWhile isSpace = t := by
    intro t ht
    rcases t with - | ⟨c, t⟩
    · rfl
    · exact List.dropWhile_cons_of_neg (by simp [ht c List.mem_cons_self])
  have hall : after.dropWhile isSpace = [] := List.dropWhile_eq_nil_iff.2 hafter
  have hreverse : (s.reverse).dropWhile isSpace = s.reverse :=
    hdrop _ fun c hc ↦ hs c (List.mem_reverse.1 hc)
  rw [trimChars, List.append_assoc, List.dropWhile_append_of_pos hbefore]
  rcases s with - | ⟨c, s⟩
  · rw [List.nil_append, hall]
    rfl
  · rw [List.cons_append, List.dropWhile_cons_of_neg (by simp [hs c List.mem_cons_self]),
      ← List.cons_append, List.reverse_append, List.dropWhile_append_of_pos, hreverse,
      List.reverse_reverse]
    exact fun d hd ↦ hafter d (List.mem_reverse.1 hd)

/-- What trimming removes is white space. -/
theorem exists_eq_append_trimChars (s : List Char) :
    ∃ before after, (∀ c ∈ before, isSpace c = true) ∧ (∀ c ∈ after, isSpace c = true) ∧
      s = before ++ trimChars s ++ after := by
  refine ⟨s.takeWhile isSpace, ((s.dropWhile isSpace).reverse.takeWhile isSpace).reverse,
    fun c hc ↦ List.mem_takeWhile_imp hc,
    fun c hc ↦ List.mem_takeWhile_imp (List.mem_reverse.1 hc), ?_⟩
  rw [trimChars, List.append_assoc, ← List.reverse_append, List.takeWhile_append_dropWhile,
    List.reverse_reverse, List.takeWhile_append_dropWhile]

/-- Lower case first or last, the normal form is the same. -/
theorem lower_trim_lower (s : String) :
    toLowerCase (trim (toLowerCase s)) = toLowerCase (trim s) := by
  unfold toLowerCase trim
  simp only [String.toList_ofList]
  rw [trimChars_map isSpace_lowerChar, List.map_map]
  congr 1
  exact List.map_congr_left fun c _ ↦ lowerChar_lowerChar c

/-- A normalised text is its own normal form. -/
theorem normalize_normalize (s : String) :
    toLowerCase (trim (toLowerCase (trim s))) = toLowerCase (trim s) := by
  rw [lower_trim_lower]
  unfold trim
  rw [String.toList_ofList, trimChars_trimChars]

theorem toNat_toUpper (c : Char) :
    c.toUpper.toNat = if 97 ≤ c.toNat ∧ c.toNat ≤ 122 then c.toNat - 32 else c.toNat := by
  unfold Char.toUpper
  split
  · next h =>
    have h1 : 97 ≤ c.toNat := UInt32.le_iff_toNat_le.1 h.1
    have h2 : c.toNat ≤ 122 := UInt32.le_iff_toNat_le.1 h.2
    rw [if_pos ⟨h1, h2⟩]
    change (c.val + ('A'.val - 'a'.val)).toNat = c.val.toNat - 32
    have h3 : 97 ≤ c.val.toNat := h1
    have h4 : c.val.toNat ≤ 122 := h2
    rw [UInt32.toNat_add]
    change (c.val.toNat + 4294967264) % 2 ^ 32 = c.val.toNat - 32
    omega
  · next h =>
    rw [if_neg]
    rintro ⟨h1, h2⟩
    exact h ⟨UInt32.le_iff_toNat_le.2 h1, UInt32.le_iff_toNat_le.2 h2⟩

theorem isSpace_of_letter {c : Char} (h₁ : 65 ≤ c.toNat) (h₂ : c.toNat ≤ 122) :
    isSpace c = false := by
  unfold isSpace
  simp
  omega

/-- The expansion of a character consists of characters that are white space exactly when it is,
and is its own expansion. -/
theorem upperChar_spec (c : Char) :
    upperChar c ≠ [] ∧ (∀ d ∈ upperChar c, isSpace d = isSpace c ∧ upperChar d = [d]) := by
  by_cases hlower : 97 ≤ c.toNat ∧ c.toNat ≤ 122
  · have hup : c.toUpper.toNat = c.toNat - 32 := by rw [toNat_toUpper, if_pos hlower]
    have hc : upperChar c = [c.toUpper] := by
      unfold upperChar
      split <;> first | rfl | omega
    have hd : upperChar c.toUpper = [c.toUpper] := by
      have htwice : c.toUpper.toUpper = c.toUpper := by
        apply Char.toNat_inj.1
        rw [toNat_toUpper, if_neg (by omega)]
      unfold upperChar
      split <;> first | rw [htwice] | omega
    rw [hc]
    refine ⟨by simp, fun d hmem ↦ ?_⟩
    rw [List.mem_singleton] at hmem
    subst hmem
    rw [isSpace_of_letter (by omega) (by omega), isSpace_of_letter (by omega) (by omega)]
    exact ⟨rfl, hd⟩
  · have hup : c.toUpper = c := by
      apply Char.toNat_inj.1
      rw [toNat_toUpper, if_neg hlower]
    by_cases hascii : c.toNat ∈ [0x131, 0x17F, 0xDF, 0xFB00, 0xFB01, 0xFB02, 0xFB03, 0xFB04, 0xFB05,
        0xFB06]
    · -- The characters whose expansion is ASCII.
      have hcases : [0x131, 0x17F, 0xDF, 0xFB00, 0xFB01, 0xFB02, 0xFB03, 0xFB04, 0xFB05,
          0xFB06].all (fun n ↦ upperChar (Char.ofNat n) ≠ [] &&
            (upperChar (Char.ofNat n)).all fun d ↦
              isSpace d = isSpace (Char.ofNat n) && upperChar d = [d]) = true := by decide
      have hc := List.all_eq_true.1 hcases c.toNat hascii
      rw [Char.ofNat_toNat, Bool.and_eq_true, decide_eq_true_iff, List.all_eq_true] at hc
      refine ⟨hc.1, fun d hd ↦ ?_⟩
      have hd := hc.2 d hd
      rwa [Bool.and_eq_true, decide_eq_true_iff, decide_eq_true_iff] at hd
    · have hc : upperChar c = [c] := by
        unfold upperChar
        split <;> simp_all
      rw [hc]
      refine ⟨by simp, fun d hmem ↦ ?_⟩
      rw [List.mem_singleton] at hmem
      subst hmem
      exact ⟨rfl, hc⟩

theorem upperChar_flatMap (l : List Char) :
    (l.flatMap upperChar).flatMap upperChar = l.flatMap upperChar := by
  rw [List.flatMap_assoc]
  refine List.flatMap_congr fun c _ ↦ ?_
  calc (upperChar c).flatMap upperChar
      = (upperChar c).flatMap fun d ↦ [d] :=
        List.flatMap_congr fun d hd ↦ ((upperChar_spec c).2 d hd).2
    _ = upperChar c := List.flatMap_singleton' _

/-- Dropping a leading class of characters commutes with an expansion that respects it. -/
theorem dropWhile_flatMap {p : Char → Bool} {f : Char → List Char} (hne : ∀ c, f c ≠ [])
    (hp : ∀ c, ∀ d ∈ f c, p d = p c) (l : List Char) :
    (l.flatMap f).dropWhile p = (l.dropWhile p).flatMap f := by
  induction l with
  | nil => rfl
  | cons c rest ih =>
    rw [List.flatMap_cons]
    by_cases hc : p c = true
    · rw [List.dropWhile_cons_of_pos hc, List.dropWhile_append_of_pos, ih]
      intro d hd
      rw [hp c d hd, hc]
    · rw [List.dropWhile_cons_of_neg hc, List.flatMap_cons]
      obtain ⟨d, tail, hd⟩ := List.exists_cons_of_ne_nil (hne c)
      have hpd : ¬ p d = true := by
        rw [hp c d (by simp [hd])]
        exact hc
      rw [hd, List.cons_append, List.dropWhile_cons_of_neg hpd]

theorem trimChars_flatMap (l : List Char) :
    trimChars (l.flatMap upperChar) = (trimChars l).flatMap upperChar := by
  have hne : ∀ c, upperChar c ≠ [] := fun c ↦ (upperChar_spec c).1
  have hspace : ∀ c, ∀ d ∈ upperChar c, isSpace d = isSpace c :=
    fun c d hd ↦ ((upperChar_spec c).2 d hd).1
  unfold trimChars
  rw [dropWhile_flatMap hne hspace, List.reverse_flatMap, dropWhile_flatMap, List.reverse_flatMap]
  · refine List.flatMap_congr fun c _ ↦ ?_
    simp
  · intro c
    simpa using hne c
  · intro c d hd
    exact hspace c d (by simpa using hd)

/-- Upper case before the normal form makes no difference. -/
theorem upper_trim_upper (s : String) :
    toUpperCase (trim (toUpperCase s)) = toUpperCase (trim s) := by
  unfold toUpperCase trim
  simp only [String.toList_ofList]
  rw [trimChars_flatMap, upperChar_flatMap]

/-- The upper-case normal form is its own normal form. -/
theorem upper_trim_upper_trim (s : String) :
    toUpperCase (trim (toUpperCase (trim s))) = toUpperCase (trim s) := by
  rw [upper_trim_upper]
  unfold trim
  rw [String.toList_ofList, trimChars_trimChars]

/-! ## Regular expressions -/

/-- The matching positions of a literal: every suffix of the text that starts with it, with the
character before it. -/
def occurrences (needle : List Char) : Option Char → List Char → List (Option Char × List Char)
  | before, [] => if needle = [] then [(before, [])] else []
  | before, c :: rest =>
    (if needle.isPrefixOf (c :: rest) then [(before, (c :: rest).drop needle.length)] else []) ++
      occurrences needle (some c) rest

/-- The test `/needle/i` for an ASCII literal. -/
def containsIgnoreCase (needle haystack : String) : Bool :=
  !(occurrences (needle.toList.map Char.toLower) none (haystack.toList.map Char.toLower)).isEmpty

/-- A word character of a regular expression. -/
def isWordChar (c : Char) : Bool := c.isAlphanum || c = '_'

/-- The test `/\bword\b/` for a literal made of word characters. -/
def containsWord (word haystack : String) : Bool :=
  (occurrences word.toList none haystack.toList).any fun (before, after) ↦
    !(before.any isWordChar) && !(after.head?.any isWordChar)

/-! ## Decimal literals -/

/-- The value of a digit string, if every character is a digit. -/
def digits? (s : List Char) : Option Nat :=
  if s ≠ [] ∧ s.all Char.isDigit then
    some (s.foldl (fun n c ↦ 10 * n + (c.toNat - '0'.toNat)) 0)
  else none

/-- The value of a text matching `^[0-9]+([.][0-9]+)?$`. -/
def decimal? (s : String) : Option ℚ :=
  let whole := s.toList.takeWhile (· ≠ '.')
  match s.toList.dropWhile (· ≠ '.') with
  | [] => (digits? whole).map fun n ↦ (n : ℚ)
  | _ :: fraction => do
    let n ← digits? whole
    let m ← digits? fraction
    return n + m / 10 ^ fraction.length

/-- The decimal digits of a fraction, at most the given number of them. -/
def fractionDigits : Nat → ℚ → List Char
  | 0, _ => []
  | n + 1, q =>
    if q = 0 then []
    else Nat.digitChar (q * 10).floor.toNat :: fractionDigits n (q * 10 - (q * 10).floor)

/-- The decimal text of a nonnegative number; a number without a finite expansion is cut after
twenty decimals. -/
def ofDecimal (q : ℚ) : String :=
  match fractionDigits 20 (q - q.floor) with
  | [] => toString q.floor
  | digits => toString q.floor ++ "." ++ String.ofList digits

end Text

end AlpacaTrading
