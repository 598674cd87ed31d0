import AlpacaTrading.Lib.Json
import Mathlib.Data.List.Basic

/-!
# What redaction conceals

`redactSensitiveData` goes through a JSON value, replaces what stands under a sensitive key by a
placeholder that names the key, and passes every other text through `redactSensitiveText`.

A key is compared in two ways.  Its upper case is looked up among the names of the secret
environment variables; its lower case, without what is neither a letter nor a digit, must be one of
a few words or end in one.  Both mappings are exact on code units for this purpose: the letters
outside ASCII whose mapping is an ASCII text are listed, the others map outside ASCII.

`redactSensitiveText` reads the environment and a list of regular expressions; it is a parameter,
and nothing is assumed about it.
-/

namespace AlpacaTrading

/-- `redactSensitiveText`. -/
class TextRedaction where
  redactSensitiveText : JsString → JsString

open TextRedaction

namespace Redaction

/-! ## Sensitive keys -/

/-- `SECRET_ENV_NAMES`. -/
def secretEnvNames : List String :=
  ["DASHBOARD_ADMIN_TOKEN", "VPS_CONTROL_TOKEN", "APCA_API_KEY_ID", "APCA_API_SECRET_KEY",
    "ALPACA_API_KEY", "ALPACA_SECRET_KEY", "ALPACA_LIVE_API_KEY", "ALPACA_LIVE_SECRET_KEY",
    "ALPACA_PAPER_API_KEY", "ALPACA_PAPER_SECRET_KEY", "ALPACA_LIVE_KEY", "ALPACA_LIVE_SECRET",
    "DATABASE_URL", "DATABASE_URL_UNPOOLED", "POSTGRES_URL", "POSTGRES_URL_NON_POOLING",
    "POSTGRES_PRISMA_URL", "PGPASSWORD", "POSTGRES_PASSWORD"]

/-- `COMMON_SECRET_OBJECT_KEYS`. -/
def commonSecretObjectKeys : List String :=
  ["password", "token", "authtoken", "secret", "apikey", "connectionstring"]

/-- The suffixes `isCommonSecretObjectKey` looks for. -/
def secretSuffixes : List String := ["password", "token", "secret", "apikey", "connectionstring"]

/-- The upper case of a code unit. -/
def upperUnit (c : CodeUnit) : JsString :=
  if 97 ≤ c ∧ c ≤ 122 then [c - 32]
  else if c = 0x131 then JsString.ofAscii "I"
  else if c = 0x17F then JsString.ofAscii "S"
  else if c = 0xDF then JsString.ofAscii "SS"
  else if c = 0xFB00 then JsString.ofAscii "FF"
  else if c = 0xFB01 then JsString.ofAscii "FI"
  else if c = 0xFB02 then JsString.ofAscii "FL"
  else if c = 0xFB03 then JsString.ofAscii "FFI"
  else if c = 0xFB04 then JsString.ofAscii "FFL"
  else if c = 0xFB05 ∨ c = 0xFB06 then JsString.ofAscii "ST"
  else [c]

/-- `key.toUpperCase()`. -/
def toUpperCase (key : JsString) : JsString := key.flatMap upperUnit

/-- What `toLowerCase` and `replace(/[^a-z0-9]/g, "")` leave of a code unit: the Kelvin sign is a
`k` in lower case, and the capital dotted `I` an `i` with a dot. -/
def normalizedUnit (c : CodeUnit) : Option CodeUnit :=
  if 65 ≤ c ∧ c ≤ 90 then some (c + 32)
  else if (97 ≤ c ∧ c ≤ 122) ∨ (48 ≤ c ∧ c ≤ 57) then some c
  else if c = 0x212A then some 107
  else if c = 0x130 then some 105
  else none

/-- `isCommonSecretObjectKey`. -/
def isCommonSecretObjectKey (key : JsString) : Bool :=
  let normalized := key.filterMap normalizedUnit
  normalized ∈ commonSecretObjectKeys.map JsString.ofAscii ∨
    (secretSuffixes.map JsString.ofAscii).any fun suffix ↦ suffix.isSuffixOf normalized

/-- `[REDACTED:…]`. -/
def placeholder (name : JsString) : JsString := JsString.ofAscii "[REDACTED:" ++ name ++ [93]

/-- What stands under a sensitive key instead of its value. -/
def concealed (key : JsString) : Option JsString :=
  if toUpperCase key ∈ secretEnvNames.map JsString.ofAscii then
    some (placeholder (toUpperCase key))
  else if isCommonSecretObjectKey key then some (placeholder key)
  else none

/-! ## Redaction -/

section

variable [TextRedaction]

mutual

/-- `redactSensitiveData`. -/
def redactSensitiveData : Json → Json
  | .string s => .string (redactSensitiveText s)
  | .array xs => .array (redactElements xs)
  | .object es => .object (redactEntries es)
  | .null => .null
  | .bool b => .bool b
  | .number x => .number x

def redactElements : List Json → List Json
  | [] => []
  | x :: xs => redactSensitiveData x :: redactElements xs

def redactEntries : List (JsString × Json) → List (JsString × Json)
  | [] => []
  | (k, v) :: es =>
    (k, if (concealed k).isSome then .string ((concealed k).getD []) else redactSensitiveData v) ::
      redactEntries es

end

mutual

/-- Two values that differ at most in what stands under sensitive keys and in texts that redact
alike. -/
def Alike : Json → Json → Prop
  | .string s, w => ∃ t, w = .string t ∧ redactSensitiveText s = redactSensitiveText t
  | .array xs, w => ∃ ys, w = .array ys ∧ AlikeElements xs ys
  | .object es, w => ∃ fs, w = .object fs ∧ AlikeEntries es fs
  | .null, w => w = .null
  | .bool b, w => w = .bool b
  | .number x, w => w = .number x

def AlikeElements : List Json → List Json → Prop
  | [], ys => ys = []
  | x :: xs, ys => ∃ y ys', ys = y :: ys' ∧ Alike x y ∧ AlikeElements xs ys'

def AlikeEntries : List (JsString × Json) → List (JsString × Json) → Prop
  | [], fs => fs = []
  | (k, v) :: es, fs =>
    ∃ w fs', fs = (k, w) :: fs' ∧ (concealed k = none → Alike v w) ∧ AlikeEntries es fs'

end

/-! ## The values a redacted one may come from -/

section Alike

variable {v w : Json}

theorem redactElements_eq_iff {xs ys : List Json}
    (ih : ∀ x ∈ xs, ∀ y, redactSensitiveData x = redactSensitiveData y ↔ Alike x y) :
    redactElements xs = redactElements ys ↔ AlikeElements xs ys := by
  induction xs generalizing ys with
  | nil =>
    rw [AlikeElements]
    rcases ys with - | ⟨y, ys⟩
    · exact iff_of_true rfl rfl
    · exact iff_of_false (fun h ↦ by cases h) fun h ↦ by cases h
  | cons x xs hxs =>
    obtain ⟨hx, hrest⟩ := List.forall_mem_cons.1 ih
    rw [AlikeElements]
    rcases ys with - | ⟨y, ys⟩
    · refine iff_of_false (fun h ↦ by cases h) ?_
      rintro ⟨y, ys', h, -⟩
      cases h
    · rw [redactElements, redactElements, List.cons.injEq, hx y, hxs hrest]
      constructor
      · rintro ⟨hy, hys⟩
        exact ⟨y, ys, rfl, hy, hys⟩
      · rintro ⟨y', ys', h, hy, hys⟩
        cases h
        exact ⟨hy, hys⟩

theorem redactEntries_eq_iff {es fs : List (JsString × Json)}
    (ih : ∀ e ∈ es, ∀ w, redactSensitiveData e.2 = redactSensitiveData w ↔ Alike e.2 w) :
    redactEntries es = redactEntries fs ↔ AlikeEntries es fs := by
  induction es generalizing fs with
  | nil =>
    rw [AlikeEntries]
    rcases fs with - | ⟨f, fs⟩
    · exact iff_of_true rfl rfl
    · exact iff_of_false (fun h ↦ by cases h) fun h ↦ by cases h
  | cons e es hes =>
    obtain ⟨k, v⟩ := e
    obtain ⟨hv, hrest⟩ := List.forall_mem_cons.1 ih
    rw [AlikeEntries]
    rcases fs with - | ⟨⟨l, w⟩, fs⟩
    · refine iff_of_false (fun h ↦ by cases h) ?_
      rintro ⟨w, fs', h, -⟩
      cases h
    · rw [redactEntries, redactEntries, List.cons.injEq, Prod.mk.injEq, hes hrest]
      constructor
      · rintro ⟨⟨rfl, hvalue⟩, hfs⟩
        refine ⟨w, fs, rfl, fun hk ↦ ?_, hfs⟩
        rw [hk] at hvalue
        exact (hv w).1 hvalue
      · rintro ⟨w', fs', h, hvalue, hfs⟩
        cases h
        refine ⟨⟨rfl, ?_⟩, hfs⟩
        -- Under a sensitive key both sides are the placeholder.
        rcases hk : concealed k with - | text
        · exact (hv w).2 (hvalue hk)
        · rfl

end Alike

/-- **Redaction tells two values apart exactly when they differ in what is neither under a
sensitive key nor in a text that redacts alike.** -/
theorem redactSensitiveData_eq_iff (v w : Json) :
    redactSensitiveData v = redactSensitiveData w ↔ Alike v w := by
  induction v using Json.induction generalizing w with
  | null => cases w <;> simp [redactSensitiveData, Alike]
  | bool b => cases w <;> simp [redactSensitiveData, Alike, eq_comm]
  | number x => cases w <;> simp [redactSensitiveData, Alike, eq_comm]
  | string s => cases w <;> simp [redactSensitiveData, Alike]
  | array xs ih =>
    cases w with
    | array ys => simp [redactSensitiveData, Alike, redactElements_eq_iff ih]
    | _ => simp [redactSensitiveData, Alike]
  | object es ih =>
    cases w with
    | object fs => simp [redactSensitiveData, Alike, redactEntries_eq_iff ih]
    | _ => simp [redactSensitiveData, Alike]

end

end Redaction

end AlpacaTrading
