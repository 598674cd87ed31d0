import AlpacaTrading.Broker.OrderStatus

/-!
# Broker answers

What a call to the broker can end with: a response object whose fields may be missing, of the
wrong type or unreadable, or a thrown value with an optional HTTP status and a message.

## Fields

A text field is missing, a string, or some other value that only has a rendering.  A numeric
field is seen through the two readers it meets, `Number(…)` in the service and the `numeric`
input function of the database: missing, the empty string, a number, or text neither of them
reads.  A time field keeps its raw text, which enters event identifiers, beside the instant it
denotes.

## Errors

`isAmbiguousSubmissionError` decides whether an order may exist at the broker after a failed
submission; the two services have each a `brokerOrderAbsent` of their own for a failed lookup.
-/

namespace AlpacaTrading

/-- Instants, in milliseconds. -/
abbrev Time := Int

/-! ## Fields -/

/-- A field read as text. -/
inductive BrokerText where
  /-- `null` or missing. -/
  | absent
  /-- A string. -/
  | str (s : String)
  /-- A value of another type, with its rendering. -/
  | other (rendered : String)
deriving DecidableEq, Repr

namespace BrokerText

/-- `text`: the trimmed string, empty for anything that is not a string. -/
def text : BrokerText → String
  | str s => Text.trim s
  | _ => ""

/-- `String(value ?? "").trim()`. -/
def rendered : BrokerText → String
  | absent => ""
  | str s => Text.trim s
  | other s => Text.trim s

/-- `required`: the rendering, which must not be empty. -/
def required (value : BrokerText) (code : String) : Except String String :=
  if value.rendered = "" then .error code else .ok value.rendered

end BrokerText

/-- A field read as a number. -/
inductive BrokerNumber where
  /-- `null` or missing. -/
  | absent
  /-- The empty string. -/
  | blank
  /-- A number, or text denoting one. -/
  | value (q : ℚ)
  /-- Anything else. -/
  | malformed
deriving DecidableEq

namespace BrokerNumber

/-- A stored numeric column, as the service reads it back. -/
def ofStored : Option ℚ → BrokerNumber
  | none => absent
  | some q => value q

/-- `field ?? fallback`. -/
def orElse : BrokerNumber → BrokerNumber → BrokerNumber
  | absent, fallback => fallback
  | field, _ => field

/-- `optional`: the empty string counts as missing. -/
def optional : BrokerNumber → BrokerNumber
  | blank => absent
  | field => field

/-- The finite value of `Number(…)`. -/
def number : BrokerNumber → Option ℚ
  | absent => some 0
  | blank => some 0
  | value q => some q
  | malformed => none

/-- The value a nullable `numeric` column receives; unreadable text fails the statement. -/
def column : BrokerNumber → Except String (Option ℚ)
  | absent => .ok none
  | value q => .ok (some q)
  | _ => .error "invalid input syntax for type numeric"

end BrokerNumber

/-- A field read as an instant. -/
inductive BrokerTime where
  /-- `null` or missing. -/
  | absent
  /-- Text, with the instant it denotes if it denotes one. -/
  | text (raw : String) (at? : Option Time)
deriving DecidableEq, Repr

namespace BrokerTime

/-- `field ?? fallback`. -/
def orElse : BrokerTime → BrokerTime → BrokerTime
  | absent, fallback => fallback
  | field, _ => field

/-- `field || fallback`: the empty string is skipped too. -/
def orElseTruthy : BrokerTime → BrokerTime → BrokerTime
  | text raw t, fallback => if raw = "" then fallback else text raw t
  | absent, fallback => fallback

/-- The trimmed raw text. -/
def raw : BrokerTime → String
  | absent => ""
  | text raw _ => Text.trim raw

/-- The instant, if there is one. -/
def instant : BrokerTime → Option Time
  | absent => none
  | text _ t => t

end BrokerTime

/-! ## Responses -/

/-- `AlpacaSubmittedOrder`: the fields of a broker order the services read. -/
structure AlpacaSubmittedOrder where
  id : BrokerText := .absent
  clientOrderId : BrokerText := .absent
  status : BrokerText := .absent
  symbol : BrokerText := .absent
  qty : BrokerNumber := .absent
  notional : BrokerNumber := .absent
  limitPrice : BrokerNumber := .absent
  stopPrice : BrokerNumber := .absent
  filledQty : BrokerNumber := .absent
  filledAvgPrice : BrokerNumber := .absent
  submittedAt : BrokerTime := .absent
  createdAt : BrokerTime := .absent
  updatedAt : BrokerTime := .absent
  filledAt : BrokerTime := .absent
  canceledAt : BrokerTime := .absent
  cancelledAt : BrokerTime := .absent
  expiredAt : BrokerTime := .absent
deriving DecidableEq

/-- `AlpacaApiResponse`: the order is missing when the body could not be read. -/
structure AlpacaApiResponse where
  data : Option AlpacaSubmittedOrder
  status : Int := 200
  requestId : Option String := none
deriving DecidableEq

/-- A thrown value: whether it is an `Error`, the finite value of `Number(error.status)` and the
message (for other values, their rendering). -/
structure Thrown where
  isError : Bool := true
  status : Option ℚ := none
  message : String := ""
deriving DecidableEq

/-- The error a failed property access on a missing body raises. -/
def unreadableBody : Thrown :=
  { message := "Cannot read properties of null" }

/-- The error thrown by the services themselves. -/
def Thrown.ofCode (code : String) : Thrown := { message := code }

/-! ## Error classification -/

/-- The alternatives of the pattern that reads a rejection out of an error text. -/
def rejectionWords : List String :=
  ["invalid", "rejected", "not tradable", "insufficient", "forbidden", "unauthorized",
    "bad request"]

/-- The error text mentions a rejection word. -/
def mentionsRejection (message : String) : Bool :=
  rejectionWords.any fun word ↦ Text.containsIgnoreCase word message

/-- A client error other than a timeout, a conflict or a rate limit. -/
def deterministicStatus (status : Option ℚ) : Bool :=
  match status with
  | some s => decide (400 ≤ s ∧ s < 500 ∧ s ≠ 408 ∧ s ≠ 409 ∧ s ≠ 429)
  | none => false

/-- `isAmbiguousSubmissionError`. -/
def isAmbiguousSubmissionError (error : Thrown) : Bool :=
  if deterministicStatus error.status then false else !mentionsRejection error.message

/-- `brokerOrderAbsent` of reconciliation: the status decides when there is one. -/
def Reconciliation.brokerOrderAbsent (error : Thrown) : Bool :=
  match error.status with
  | some s => decide (s = 404)
  | none => Text.containsWord "404" error.message ||
      Text.containsIgnoreCase "order not found" error.message ||
      Text.containsIgnoreCase "not visible" error.message

/-- `brokerOrderAbsent` of recovery: the status or the text decides. -/
def Recovery.brokerOrderAbsent (error : Thrown) : Bool :=
  decide (error.status = some 404) || Text.containsWord "404" error.message ||
    Text.containsIgnoreCase "order not found" error.message

end AlpacaTrading
