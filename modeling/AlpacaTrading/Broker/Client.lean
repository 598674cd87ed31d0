import AlpacaTrading.Lib.Delivery
import AlpacaTrading.Execution.Submission

/-!
# The paper trading client

`requestPaperTradingJson` sends a request to the paper trading endpoint of the broker, and sends it
again when the connection fails or the answer takes too long, orders included.  The client order id
makes the request of an order keyed: the broker refuses a second order under the id of a first one.
So a retried order is never placed twice.

But the refusal is an answer like any other, and the service takes a refusal for the proof that no
order exists.  `submitPaperOrder_once` says when it is right to: the orders are those from before,
unless the broker placed one in an earlier attempt whose answer was lost.  `retried_order_refused`
is such a run.

The broker is a parameter, with what it documents about client order ids as hypotheses.
-/

namespace AlpacaTrading

namespace Client

/-! ## Settings -/

/-- `process.env`. -/
abbrev Environment := String → Option String

/-- `parseBoolean`. -/
def parseBoolean (value : Option String) : Bool := value = some "true" ∨ value = some "1"

/-- `parseAlpacaEnv`: the environment is live. -/
def alpacaEnvLive (env : Environment) : Bool :=
  match env "ALPACA_ENV" with
  | none => false
  | some value => Text.toLowerCase value = "live"

/-- `getTradingSafetyState().liveTradingEnabled`. -/
def liveTradingEnabled (env : Environment) : Bool :=
  parseBoolean (env "LIVE_TRADING_ENABLED") || parseBoolean (env "ALPACA_LIVE_TRADE")

/-- `firstEnv`: the first value that is not blank, or the empty text. -/
def firstEnv (env : Environment) (names : List String) : String :=
  let values := names.filterMap fun name ↦ (env name).map Text.trim
  (values.find? (· ≠ "")).getD ""

/-- `Number.parseInt` with radix 10. -/
def parseInt (text : String) : Option Int :=
  let digits (chars : List Char) : Option Nat :=
    let prefixDigits := chars.takeWhile Char.isDigit
    if prefixDigits = [] then none
    else some (prefixDigits.foldl (fun n c ↦ 10 * n + (c.toNat - 48)) 0)
  match text.toList.dropWhile Text.isSpace with
  | '-' :: rest => (digits rest).map fun n ↦ -(n : Int)
  | '+' :: rest => (digits rest).map Int.ofNat
  | chars => (digits chars).map Int.ofNat

/-- A number of the environment, or the default where it is missing, empty or refused. -/
def parseSetting (env : Environment) (name : String) (default : Nat) (minimum : Int) : Nat :=
  match env name with
  | none => default
  | some text =>
    match parseInt text with
    | none => default
    | some n => if minimum ≤ n then n.toNat else default

/-- `parseTimeoutMs`. -/
def parseTimeoutMs (env : Environment) : Nat :=
  parseSetting env "ALPACA_REQUEST_TIMEOUT_MS" 15000 1

/-- `parseRetryCount`. -/
def parseRetryCount (env : Environment) : Nat := parseSetting env "ALPACA_MAX_RETRIES" 2 0

/-- `assertPaperTradingEndpointAllowed`, `assertLiveTradingDisabled` and
`getAlpacaPaperCredentials`, the last as far as a missing key goes. -/
def assertRequestAllowed (env : Environment) : Except Thrown Unit := do
  if alpacaEnvLive env then throw (.ofCode "PAPER_ENV_REQUIRED")
  if liveTradingEnabled env then throw (.ofCode "LIVE_TRADING_MUST_BE_DISABLED")
  if firstEnv env ["ALPACA_PAPER_API_KEY", "ALPACA_PAPER_KEY", "ALPACA_API_KEY"] = "" ∨
      firstEnv env ["ALPACA_PAPER_SECRET_KEY", "ALPACA_PAPER_SECRET", "ALPACA_SECRET_KEY"] = ""
    then throw (.ofCode
      "Missing Alpaca paper credentials. Set ALPACA_PAPER_API_KEY and ALPACA_PAPER_SECRET_KEY.")

/-! ## Requests -/

/-- A request to the paper trading endpoint. -/
structure PaperRequest where
  method : String := "GET"
  endpoint : String
  body : Option AlpacaPaperOrderRequest := none

/-- `PAPER_TRADING_BASE_URL`. -/
def paperTradingBaseUrl : String := "https://paper-api.alpaca.markets"

/-- The address of a request: the environment has no part in it. -/
def PaperRequest.url (request : PaperRequest) : String := paperTradingBaseUrl ++ request.endpoint

/-- Why an attempt ends without an answer; none of these errors has an HTTP status. -/
inductive NetworkError where
  /-- The timer of the attempt ran out. -/
  | aborted
  | failed (message : String)

/-- `lastError`. -/
def NetworkError.thrown (timeoutMs : Nat) : NetworkError → Thrown
  | aborted => .ofCode ("Alpaca request timed out after " ++ toString timeoutMs ++ "ms.")
  | failed message => .ofCode message

/-- `response.ok`. -/
def responseOk (response : AlpacaApiResponse) : Bool :=
  200 ≤ response.status ∧ response.status < 300

/-- The `AlpacaApiError` of an answer. -/
def apiError (request : PaperRequest) (response : AlpacaApiResponse) : Thrown where
  status := some response.status
  message := "Alpaca paper trading request failed for " ++ request.endpoint ++ ". status=" ++
    toString response.status ++ "."

variable {B : Type}

/-- `requestPaperTradingJson`. -/
def requestPaperTradingJson (env : Environment)
    (broker : PaperRequest → B → B × AlpacaApiResponse) (meanwhile : ℕ → B → B)
    (fate : ℕ → Fate NetworkError) (request : PaperRequest) (b : B) :
    Delivered B Thrown AlpacaApiResponse :=
  match assertRequestAllowed env with
  | .error error => { state := b, handled := [], result := .error error }
  | .ok () =>
    let delivered := deliver (broker request) meanwhile fate (parseRetryCount env) 0 b
    { state := delivered.state
      handled := delivered.handled
      result := match delivered.result with
        | .error error => .error (error.thrown (parseTimeoutMs env))
        | .ok response =>
          if responseOk response then .ok response else .error (apiError request response) }

/-- The request of an order. -/
def orderRequest (payload : AlpacaPaperOrderRequest) : PaperRequest where
  method := "POST"
  endpoint := "/v2/orders"
  body := some payload

/-- `submitPaperOrder`. -/
def submitPaperOrder (env : Environment) (broker : PaperRequest → B → B × AlpacaApiResponse)
    (meanwhile : ℕ → B → B) (fate : ℕ → Fate NetworkError) (payload : AlpacaPaperOrderRequest)
    (b : B) : Delivered B Thrown AlpacaApiResponse :=
  requestPaperTradingJson env broker meanwhile fate (orderRequest payload) b

/-! ## Orders at the broker -/

section Orders

variable {env : Environment} {broker : PaperRequest → B → B × AlpacaApiResponse}
  {meanwhile : ℕ → B → B} {fate : ℕ → Fate NetworkError} {payload : AlpacaPaperOrderRequest} {b : B}

/-- What the broker documents about client order ids: a request places at most its own order, and
only under an id that no order has; an answer says that it was placed, or with the status of a
client's error that it was not. -/
structure UniqueIds (broker : PaperRequest → B → B × AlpacaApiResponse)
    (orders : B → List String) : Prop where
  places : ∀ payload b, orders (broker (orderRequest payload) b).1 = orders b ∨
    payload.clientOrderId ∉ orders b ∧
      orders (broker (orderRequest payload) b).1 = orders b ++ [payload.clientOrderId]
  placed : ∀ payload b, responseOk (broker (orderRequest payload) b).2 = true →
    payload.clientOrderId ∉ orders b ∧
      orders (broker (orderRequest payload) b).1 = orders b ++ [payload.clientOrderId]
  refused : ∀ payload b, deterministicStatus (some (broker (orderRequest payload) b).2.status) →
    orders (broker (orderRequest payload) b).1 = orders b

/-- The request of an order is keyed by its client order id. -/
theorem UniqueIds.keyed {orders : B → List String} (h : UniqueIds broker orders)
    (hothers : ∀ n b, (orders (meanwhile n b)).count payload.clientOrderId =
      (orders b).count payload.clientOrderId) :
    Keyed (broker (orderRequest payload)) meanwhile
      fun b ↦ (orders b).count payload.clientOrderId := by
  refine ⟨fun b ↦ ?_, hothers⟩
  rcases h.places payload b with hsame | ⟨hnew, hplaced⟩
  · exact Or.inl (by rw [hsame])
  · right
    rw [hplaced, List.count_append, List.count_eq_zero.2 hnew, List.count_singleton_self]
    exact ⟨rfl, rfl⟩

/-- The broker placed the order in an attempt whose answer was lost. -/
def PlacedUnread (broker : PaperRequest → B → B × AlpacaApiResponse) (orders : B → List String)
    (payload : AlpacaPaperOrderRequest) (handled : List (Handled B)) : Prop :=
  ∃ x ∈ handled, x.answered = false ∧
    orders (broker (orderRequest payload) x.before).1 = orders x.before ++ [payload.clientOrderId]

/-- A request is sent only to the paper endpoint of an environment for paper trading. -/
theorem not_allowed_of_live (h : alpacaEnvLive env = true ∨ liveTradingEnabled env = true) :
    ∃ error, assertRequestAllowed env = .error error := by
  unfold assertRequestAllowed
  by_cases hlive : alpacaEnvLive env = true
  · rw [if_pos hlive]
    exact ⟨_, rfl⟩
  · rw [if_neg hlive, if_pos (h.resolve_left hlive)]
    exact ⟨_, rfl⟩

/-- How a request that is allowed ends: in an answer that was read, or in a network error. -/
theorem submitPaperOrder_cases (hallowed : assertRequestAllowed env = .ok ()) :
    let d := deliver (broker (orderRequest payload)) meanwhile fate (parseRetryCount env) 0 b
    let submitted := submitPaperOrder env broker meanwhile fate payload b
    submitted.state = d.state ∧ submitted.handled = d.handled ∧
      ((∃ error, d.result = .error error ∧
          submitted.result = .error (error.thrown (parseTimeoutMs env))) ∨
        ∃ response, d.result = .ok response ∧
          ((responseOk response = true ∧ submitted.result = .ok response) ∨
            (responseOk response = false ∧
              submitted.result = .error (apiError (orderRequest payload) response)))) := by
  intro d submitted
  have hsubmitted : submitted = submitPaperOrder env broker meanwhile fate payload b := rfl
  unfold submitPaperOrder requestPaperTradingJson at hsubmitted
  rw [hallowed] at hsubmitted
  rw [hsubmitted]
  refine ⟨rfl, rfl, ?_⟩
  rcases hresult : (deliver (broker (orderRequest payload)) meanwhile fate (parseRetryCount env) 0
    b).result with error | response
  · exact Or.inl ⟨error, rfl, by simp only [hresult]⟩
  · refine Or.inr ⟨response, rfl, ?_⟩
    rcases hok : responseOk response
    · exact Or.inr ⟨rfl, by simp [hresult, hok]⟩
    · exact Or.inl ⟨rfl, by simp [hresult, hok]⟩

/-- A network error has no status. -/
theorem NetworkError.status_thrown (error : NetworkError) (timeoutMs : Nat) :
    (error.thrown timeoutMs).status = none := by
  rcases error with - | message
  · rfl
  · rfl

/-- The orders after the broker handled a request: the count grows where an order was placed. -/
theorem UniqueIds.acts_iff {orders : B → List String} (hids : UniqueIds broker orders)
    (x : Handled B) :
    Keyed.acts (broker (orderRequest payload))
        (fun b ↦ (orders b).count payload.clientOrderId) x = true ↔
      orders (broker (orderRequest payload) x.before).1 =
        orders x.before ++ [payload.clientOrderId] := by
  unfold Keyed.acts
  rw [decide_eq_true_eq]
  beta_reduce
  rcases hids.places payload x.before with hsame | ⟨hnew, hplaced⟩
  · rw [hsame]
    simp
  · rw [hplaced, List.count_append, List.count_singleton_self]
    simp

/-- **An order is placed once at most**, however often its request is sent.  An acknowledged order
is the only one under its id, and there was none before.  When the answer has the status of a
client's error, the order is at the broker if and only if it was before, or the broker placed it in
an earlier attempt whose answer was lost; without retries there is no such attempt.  And nothing is
sent for an environment that trades live. -/
theorem submitPaperOrder_once {orders : B → List String} (hids : UniqueIds broker orders)
    (hothers : ∀ n b, (orders (meanwhile n b)).count payload.clientOrderId =
      (orders b).count payload.clientOrderId) :
    let d := submitPaperOrder env broker meanwhile fate payload b
    (orders d.state).count payload.clientOrderId ≤
        max 1 ((orders b).count payload.clientOrderId) ∧
      (∀ response, d.result = .ok response → payload.clientOrderId ∉ orders b ∧
        (orders d.state).count payload.clientOrderId = 1) ∧
      (∀ error, d.result = .error error → deterministicStatus error.status = true →
        (payload.clientOrderId ∈ orders d.state ↔
          payload.clientOrderId ∈ orders b ∨ PlacedUnread broker orders payload d.handled) ∧
          (parseRetryCount env = 0 → ¬ PlacedUnread broker orders payload d.handled)) ∧
      (alpacaEnvLive env = true ∨ liveTradingEnabled env = true →
        d.handled = [] ∧ d.state = b ∧ ∃ error, d.result = .error error) := by
  intro d
  have hkeyed := @UniqueIds.keyed B broker meanwhile payload orders hids hothers
  rcases hallowed : assertRequestAllowed env with error | _
  · -- Nothing is sent.
    have hd : d = { state := b, handled := [], result := .error error } := by
      simp only [d, submitPaperOrder, requestPaperTradingJson, hallowed]
    rw [hd]
    refine ⟨le_max_right _ _, fun response h ↦ (by cases h), fun e _ _ ↦ ⟨?_, fun _ ↦ ?_⟩,
      fun _ ↦ ⟨rfl, rfl, error, rfl⟩⟩
    · exact ⟨Or.inl, fun h ↦ h.resolve_right fun ⟨x, hx, _⟩ ↦ List.not_mem_nil hx⟩
    · exact fun ⟨x, hx, _⟩ ↦ List.not_mem_nil hx
  · obtain ⟨hstate, hhandled, hcases⟩ := @submitPaperOrder_cases B env broker meanwhile fate payload
      b hallowed
    change d.state = _ at hstate
    change d.handled = _ at hhandled
    have hcount := @Keyed.count_deliver B NetworkError AlpacaApiResponse _ meanwhile _ fate hkeyed
      (parseRetryCount env) 0 b
    have hle := @Keyed.count_deliver_le B NetworkError AlpacaApiResponse _ meanwhile _ fate hkeyed
      (parseRetryCount env) 0 b
    rw [← hstate] at hcount hle
    rw [← hhandled] at hcount
    refine ⟨hle.1, fun response hok ↦ ?_, fun error herror hstatus ↦ ?_, fun hlive ↦ ?_⟩
    · -- The answer that was read says that its own attempt placed the order.
      rcases hcases with ⟨_, _, hresult⟩ | ⟨answer, hanswer, ⟨hresponse, hresult⟩ | ⟨_, hresult⟩⟩
      · rw [hresult] at hok
        cases hok
      · obtain ⟨unread, t, hattempts, _, _, hlast, rfl⟩ := deliver_answered hanswer
        obtain ⟨hnew, hplaced⟩ := hids.placed payload t hresponse
        have hone : (orders d.state).count payload.clientOrderId = 1 := by
          rw [hstate, hlast, hplaced, List.count_append, List.count_singleton_self,
            List.count_eq_zero.2 hnew]
        refine ⟨fun hmem ↦ ?_, hone⟩
        -- It would have been there when the broker placed it.
        have hpos : 0 < (orders b).count payload.clientOrderId := List.count_pos_iff.2 hmem
        have hacts : 0 < d.handled.countP (Keyed.acts (broker (orderRequest payload))
            fun b ↦ (orders b).count payload.clientOrderId) := by
          refine List.countP_pos_iff.2 ⟨⟨t, true⟩, ?_, (hids.acts_iff _).2 hplaced⟩
          rw [hhandled, hattempts]
          exact List.mem_append_right _ (List.mem_singleton_self _)
        have hsame := hle.2 hpos
        omega
      · rw [hresult] at hok
        cases hok
    · rcases hcases with ⟨e, _, hresult⟩ | ⟨answer, hanswer, ⟨_, hresult⟩ | ⟨_, hresult⟩⟩
      · rw [hresult] at herror
        rw [← Except.error.inj herror, NetworkError.status_thrown] at hstatus
        cases hstatus
      · rw [hresult] at herror
        cases herror
      · rw [hresult] at herror
        obtain rfl := Except.error.inj herror
        obtain ⟨unread, t, hattempts, hunread, hlength, _, rfl⟩ := deliver_answered hanswer
        have hrefused := hids.refused payload t hstatus
        have hlast : ¬ orders (broker (orderRequest payload) t).1 =
            orders t ++ [payload.clientOrderId] := by
          rw [hrefused]
          simp
        rw [hhandled, hattempts]
        have hplaced : PlacedUnread broker orders payload (unread ++ [⟨t, true⟩]) ↔
            0 < d.handled.countP (Keyed.acts (broker (orderRequest payload))
              fun b ↦ (orders b).count payload.clientOrderId) := by
          rw [hhandled, hattempts, List.countP_pos_iff]
          refine ⟨fun ⟨x, hx, _, hx'⟩ ↦ ⟨x, hx, (hids.acts_iff x).2 hx'⟩, fun ⟨x, hx, hacts⟩ ↦ ?_⟩
          have hx' := (hids.acts_iff x).1 hacts
          refine ⟨x, hx, ?_, hx'⟩
          rcases List.mem_append.1 hx with hx | hx
          · exact hunread x hx
          · rw [List.mem_singleton.1 hx] at hx'
            exact absurd hx' hlast
        refine ⟨?_, fun hzero hsome ↦ ?_⟩
        · rw [hplaced, ← List.count_pos_iff, ← List.count_pos_iff, hcount]
          omega
        · rw [hzero, Nat.le_zero, List.length_eq_zero_iff] at hlength
          obtain ⟨x, hx, hfalse, _⟩ := hsome
          rw [hlength, List.nil_append] at hx
          rw [List.mem_singleton.1 hx] at hfalse
          cases hfalse
    · obtain ⟨error, herror⟩ := not_allowed_of_live hlive
      rw [hallowed] at herror
      cases herror

end Orders

namespace Specimen

def paperEnv : Environment
  | "ALPACA_ENV" => some "paper"
  | "ALPACA_PAPER_API_KEY" => some "key"
  | "ALPACA_PAPER_SECRET_KEY" => some "secret"
  | _ => none

/-- A broker that places every order it has no order for. -/
def brokerOf (request : PaperRequest) (orders : List String) : List String × AlpacaApiResponse :=
  match request.body with
  | none => (orders, { data := none, status := 404 })
  | some payload =>
    if payload.clientOrderId ∈ orders then (orders, { data := none, status := 422 })
    else (orders ++ [payload.clientOrderId], { data := some {}, status := 200 })

def order : AlpacaPaperOrderRequest where
  symbol := "SPY"
  qty := some 1
  clientOrderId := "entry-1"

/-- The first attempt times out, the second one is answered. -/
def lateAnswer : ℕ → Fate NetworkError
  | 0 => .unanswered .aborted
  | _ => .answered

end Specimen

open Client.Specimen in
theorem brokerOf_uniqueIds : UniqueIds brokerOf id := by
  refine ⟨fun payload b ↦ ?_, fun payload b h ↦ ?_, fun payload b h ↦ ?_⟩
  all_goals
    by_cases hmem : payload.clientOrderId ∈ b
    all_goals simp_all [brokerOf, orderRequest, responseOk, deterministicStatus]
  norm_num at h

open Client.Specimen in
/-- The theorem at an order that was placed in an attempt whose answer was lost: it is refused, and
it is at the broker. -/
theorem retried_order_refused :
    let d := submitPaperOrder paperEnv brokerOf (fun _ b ↦ b) lateAnswer order []
    d.result = .error (apiError (orderRequest order) { data := none, status := 422 }) ∧
      order.clientOrderId ∈ d.state ∧ d.state.count order.clientOrderId = 1 ∧
        PlacedUnread brokerOf id order d.handled := by
  intro d
  have hresult : d.result =
      .error (apiError (orderRequest order) { data := none, status := 422 }) := by
    decide +kernel
  have hplaced : PlacedUnread brokerOf id order d.handled :=
    ⟨⟨[], false⟩, by decide +kernel, rfl, by decide +kernel⟩
  obtain ⟨hle, _, hrefused, _⟩ :=
    @submitPaperOrder_once (List String) paperEnv brokerOf (fun _ b ↦ b) lateAnswer order [] id
      brokerOf_uniqueIds fun _ _ ↦ rfl
  obtain ⟨hiff, _⟩ := hrefused _ hresult (by decide +kernel)
  have hmem : order.clientOrderId ∈ d.state := hiff.2 (Or.inr hplaced)
  exact ⟨hresult, hmem, le_antisymm hle (List.count_pos_iff.2 hmem), hplaced⟩

end Client

end AlpacaTrading
