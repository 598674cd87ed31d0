import Mathlib.Data.Finset.Basic
import Mathlib.Data.Rat.Floor
import AlpacaTrading.Lib.Run
import AlpacaTrading.Lib.Text
import AlpacaTrading.ZeroDte.Quote

/-!
# The stock stream

`AlpacaStockStreamService` holds one connection to the stream of stock data and one set of symbols.
It is a machine whose actions are the calls of its methods, the firing of its timer and the events
of its sockets.

## Outside

What the service does not decide is outside of it: whether an attempt to connect finds credentials
and a socket, whether a socket takes a message, which timers are set.  The first two are fixed for a
run, by the number of attempts and of sends so far; the third is part of the state.  The state also
has, for each socket, what was sent on it and which openings and authentications came on it.
Nothing in the service reads that.
-/

namespace AlpacaTrading

namespace StockStream

open ZeroDte (JsValue Fields Conversion)

/-! ## Symbols -/

/-- `value.split(",")`. -/
def splitCommas (value : String) : List String := (value.toList.splitOn ',').map String.ofList

/-- `normalizeStockSymbols`. -/
def normalizeStockSymbols (symbols : List String) : List String :=
  (((symbols.flatMap splitCommas).map fun value ↦ Text.toUpperCase (Text.trim value)).filter
    (· ≠ "")).eraseDups

/-- A symbol that normalization leaves alone. -/
structure NormalSymbol (symbol : String) : Prop where
  split : splitCommas symbol = [symbol]
  upper : Text.toUpperCase (Text.trim symbol) = symbol
  nonempty : symbol ≠ ""

section Symbols

variable {symbols : List String} {symbol : String}

theorem mem_normalizeStockSymbols : symbol ∈ normalizeStockSymbols symbols ↔
    (∃ value ∈ symbols.flatMap splitCommas, Text.toUpperCase (Text.trim value) = symbol) ∧
      symbol ≠ "" := by
  rw [normalizeStockSymbols, List.mem_eraseDups, List.mem_filter, List.mem_map, decide_eq_true_iff]

/-- No piece between commas has one. -/
theorem comma_notMem_of_mem_splitOn {l piece : List Char} (h : piece ∈ l.splitOn ',') :
    ',' ∉ piece := by
  induction l generalizing piece with
  | nil =>
    rw [List.splitOn_nil, List.mem_singleton] at h
    simp [h]
  | cons c l ih =>
    rw [List.splitOn_cons_eq_if_modifyHead] at h
    split_ifs at h with hc
    · rcases List.mem_cons.1 h with rfl | h
      · simp
      · exact ih h
    · -- The character goes in front of the first piece.
      rcases hpieces : l.splitOn ',' with - | ⟨first, rest⟩
      · exact absurd hpieces (List.splitOn_ne_nil _ _)
      · rw [hpieces, List.modifyHead_cons] at h
        rcases List.mem_cons.1 h with rfl | h
        · have hfirst := ih (hpieces ▸ List.mem_cons_self)
          simp only [List.mem_cons, not_or]
          exact ⟨fun heq ↦ hc (beq_iff_eq.2 heq.symm), hfirst⟩
        · exact ih (hpieces ▸ List.mem_cons_of_mem first h)

/-- Upper case makes no comma. -/
theorem comma_notMem_upperChar {c : Char} (h : c ≠ ',') : ',' ∉ Text.upperChar c := by
  rw [Text.upperChar.eq_def]
  split
  case h_11 =>
    rw [List.mem_singleton]
    intro heq
    have hnat : (44 : ℕ) = c.toUpper.toNat := congrArg Char.toNat heq
    rw [Text.toNat_toUpper] at hnat
    split_ifs at hnat with hlower
    · omega
    · exact h (Char.toNat_inj.1 hnat.symm)
  all_goals decide

/-- **Normalization leaves its results alone.** -/
theorem normal_of_mem (h : symbol ∈ normalizeStockSymbols symbols) : NormalSymbol symbol := by
  obtain ⟨⟨value, hvalue, rfl⟩, hne⟩ := mem_normalizeStockSymbols.1 h
  refine ⟨?_, Text.upper_trim_upper_trim value, hne⟩
  obtain ⟨s, -, hmem⟩ := List.mem_flatMap.1 hvalue
  obtain ⟨piece, hpiece, rfl⟩ := List.mem_map.1 hmem
  have htrim : ',' ∉ Text.trimChars piece := fun hin ↦ by
    obtain ⟨before, after, -, -, heq⟩ := Text.exists_eq_append_trimChars piece
    refine comma_notMem_of_mem_splitOn hpiece ?_
    rw [heq]
    exact List.mem_append_left _ (List.mem_append_right _ hin)
  have hupper : ',' ∉ (Text.trimChars piece).flatMap Text.upperChar := fun hin ↦ by
    obtain ⟨c, hc, hcomma⟩ := List.mem_flatMap.1 hin
    exact comma_notMem_upperChar (fun heq ↦ htrim (heq ▸ hc)) hcomma
  rw [splitCommas, Text.toUpperCase, Text.trim]
  simp only [String.toList_ofList]
  rw [List.splitOn_eq_singleton hupper]
  rfl

/-- Symbols that are normal stay the same set. -/
theorem mem_normalizeStockSymbols_of_normal (h : ∀ s ∈ symbols, NormalSymbol s) :
    symbol ∈ normalizeStockSymbols symbols ↔ symbol ∈ symbols := by
  rw [mem_normalizeStockSymbols]
  constructor
  · rintro ⟨⟨value, hvalue, rfl⟩, -⟩
    obtain ⟨s, hs, hmem⟩ := List.mem_flatMap.1 hvalue
    rw [(h s hs).split, List.mem_singleton] at hmem
    rw [hmem, (h s hs).upper]
    exact hs
  · intro hmem
    refine ⟨⟨symbol, List.mem_flatMap.2 ⟨symbol, hmem, ?_⟩, (h symbol hmem).upper⟩,
      (h symbol hmem).nonempty⟩
    rw [(h symbol hmem).split]
    exact List.mem_singleton_self symbol

end Symbols

/-! ## Configuration and events -/

/-- `AlpacaStockFeed`. -/
inductive Feed where
  | sip | iex | delayedSip | boats | overnight | otc | test | unknown
deriving DecidableEq, Repr

/-- `AlpacaStockStreamConfig`, with the feed that its address names. -/
structure Config where
  enabled : Bool
  feed : Feed
  symbols : List String
  trades : Bool
  quotes : Bool
  bars : Bool
  reconnectMs : ℚ
  reconnectMaxMs : ℚ

/-- `AlpacaStockStreamCredentials`. -/
structure Credentials where
  apiKey : String
  secretKey : String
deriving DecidableEq, Repr

/-- What the events of all kinds say of their origin. -/
structure Origin where
  timestamp : String
  receivedAt : Time
  feed : Feed
  provider : String := "alpaca"
  environment : String := "paper"
  providerTimestamp : String := timestamp
  receiptTimestamp : Time := receivedAt
deriving DecidableEq, Repr

/-- `StockTradeEvent`. -/
structure StockTradeEvent extends Origin where
  symbol : String
  price : ℚ
  size : ℚ
  exchange : Option String
deriving DecidableEq, Repr

/-- `StockQuoteEvent`. -/
structure StockQuoteEvent extends Origin where
  symbol : String
  bidPrice : ℚ
  bidSize : ℚ
  askPrice : ℚ
  askSize : ℚ
  bidExchange : Option String
  askExchange : Option String
deriving DecidableEq, Repr

/-- `StockBarEvent`. -/
structure StockBarEvent extends Origin where
  symbol : String
  openPrice : ℚ
  high : ℚ
  low : ℚ
  closePrice : ℚ
  volume : ℚ
  tradeCount : Option ℚ
  vwap : Option ℚ
deriving DecidableEq, Repr

/-! ## Payloads -/

inductive Channel where
  | trades | quotes | bars
deriving DecidableEq, Repr

/-- The channels a configuration has switched on. -/
def Config.enabledOn (config : Config) : Channel → Bool
  | .trades => config.trades
  | .quotes => config.quotes
  | .bars => config.bars

inductive SubscriptionAction where
  | subscribe | unsubscribe
deriving DecidableEq, Repr

/-- What the service sends. -/
inductive Payload where
  | auth (key secret : String)
  | subscription (action : SubscriptionAction) (symbolsOn : Channel → List String)

/-- What happens on a socket. -/
inductive WireEvent where
  | opened
  | authenticated
  | sent (payload : Payload)
  /-- The socket is not open, or throws. -/
  | refused (payload : Payload)

/-- The symbols subscribed on a channel by what was sent. -/
def subscribedOn (channel : Channel) : List WireEvent → Finset String :=
  List.foldl (fun subscribed event ↦
    match event with
    | .sent (.subscription .subscribe symbolsOn) => subscribed ∪ (symbolsOn channel).toFinset
    | .sent (.subscription .unsubscribe symbolsOn) => subscribed \ (symbolsOn channel).toFinset
    | _ => subscribed) ∅

/-! ## State -/

/-- How an attempt to connect goes. -/
inductive Attempt where
  | noCredentials
  | noSocket
  | connected (credentials : Credentials)

inductive SendOutcome where
  | notOpen | throws | sent
deriving DecidableEq, Repr

/-- What is outside of the service and fixed for a run. -/
structure Outside where
  attempt : ℕ → Attempt
  sendOutcome : ℕ → SendOutcome
  /-- Whether `Date.parse` reads a text. -/
  dateParses : String → Bool

/-- A socket, by the number of sockets before it. -/
abbrev SocketId := ℕ

/-- A timer, by the number of timers before it. -/
abbrev TimerId := ℕ

/-- The fields of `AlpacaStockStreamService` that change, and what is outside of it. -/
structure State where
  symbols : List String
  socket : Option SocketId := none
  reconnectTimer : Option TimerId := none
  running : Bool := false
  intentionalStop : Bool := false
  connected : Bool := false
  authenticated : Bool := false
  subscribed : Bool := false
  connectedAt : Option Time := none
  lastMessageAt : Option Time := none
  lastError : Option String := none
  reconnectAttempts : ℕ := 0
  lastReconnectDelayMs : Option ℚ := none
  nextReconnectAt : Option Time := none
  latestTrades : String → Option StockTradeEvent := fun _ ↦ none
  latestQuotes : String → Option StockQuoteEvent := fun _ ↦ none
  latestBars : String → Option StockBarEvent := fun _ ↦ none
  /-- The attempts to connect so far. -/
  attempts : ℕ := 0
  /-- The credentials of the sockets so far. -/
  sockets : List Credentials := []
  /-- The timers so far. -/
  timers : ℕ := 0
  /-- The timers that are set, with their delays. -/
  pending : List (TimerId × ℚ) := []
  /-- The sends so far. -/
  sends : ℕ := 0
  /-- What happened on each socket. -/
  wire : SocketId → List WireEvent := fun _ ↦ []

/-- The service as it is constructed. -/
def initial (config : Config) : State where
  symbols := normalizeStockSymbols config.symbols

/-- An event of a socket is recorded. -/
def State.record (s : State) (socket : SocketId) (event : WireEvent) : State :=
  { s with wire := Function.update s.wire socket (s.wire socket ++ [event]) }

@[simp] theorem State.record_wire_self (s : State) (socket : SocketId) (event : WireEvent) :
    (s.record socket event).wire socket = s.wire socket ++ [event] := Function.update_self ..

theorem State.record_wire_of_ne (s : State) {socket other : SocketId} (event : WireEvent)
    (h : other ≠ socket) : (s.record socket event).wire other = s.wire other :=
  Function.update_of_ne h ..

/-- The assignments of the callback of `open`. -/
def State.opened (s : State) (socket : SocketId) (now : Time) : State :=
  { s.record socket .opened with
    connected := true
    authenticated := false
    subscribed := false
    connectedAt := some now
    nextReconnectAt := none
    lastError := none }

/-- The assignments of `handleMessage` for a successful authentication. -/
def State.accepted (s : State) (socket : SocketId) : State :=
  { s.record socket .authenticated with
    authenticated := true
    reconnectAttempts := 0
    lastReconnectDelayMs := none
    nextReconnectAt := none
    lastError := none }

/-- The assignments of `handleSocketClose`. -/
def State.closed (s : State) : State :=
  { s with
    socket := none
    connected := false
    authenticated := false
    subscribed := false
    connectedAt := none }

/-! ## Sending -/

/-- `send`. -/
def send (env : Outside) (payload : Payload) (s : State) : Bool × State :=
  match s.socket with
  | none => (false, s)
  | some socket =>
    match env.sendOutcome s.sends with
    | .notOpen => (false, { s.record socket (.refused payload) with sends := s.sends + 1 })
    | .throws =>
      (false, { s.record socket (.refused payload) with
        sends := s.sends + 1, lastError := some "send_failed" })
    | .sent => (true, { s.record socket (.sent payload) with sends := s.sends + 1 })

/-- `sendSubscription`. -/
def sendSubscription (config : Config) (env : Outside) (action : SubscriptionAction)
    (symbols : List String) (s : State) : Bool × State :=
  let symbolList := normalizeStockSymbols symbols
  let symbolsOn channel := if config.enabledOn channel then symbolList else []
  send env (.subscription action symbolsOn) s

/-- `sendSubscription` of the symbols, if there are any. -/
def sendIfAny (config : Config) (env : Outside) (action : SubscriptionAction)
    (symbols : List String) (s : State) : State :=
  if 0 < symbols.length then (sendSubscription config env action symbols s).2 else s

/-! ## Connecting -/

/-- The milliseconds a `Date` can hold, on either side. -/
def maxDateMs : ℤ := 8640000000000000

/-- `new Date(ms)`, if it is valid. -/
def dateOf (ms : ℚ) : Option Time :=
  let t := if 0 ≤ ms then ⌊ms⌋ else ⌈ms⌉
  if |t| ≤ maxDateMs then some t else none

/-- The delay after a number of attempts. -/
def reconnectDelay (config : Config) (reconnectAttempts : ℕ) : ℚ :=
  Min.min config.reconnectMaxMs (config.reconnectMs * 2 ^ Min.min (reconnectAttempts - 1) 30)

/-- `scheduleReconnect`. -/
def scheduleReconnect (config : Config) (now : Time) (s : State) : State :=
  if !s.running || s.intentionalStop || s.reconnectTimer.isSome then s
  else
    let reconnectAttempts := s.reconnectAttempts + 1
    let delayMs := reconnectDelay config reconnectAttempts
    match dateOf (now + delayMs) with
    -- `toISOString` throws.
    | none => { s with reconnectAttempts, lastReconnectDelayMs := some delayMs }
    | some nextReconnectAt =>
      { s with
        reconnectAttempts
        lastReconnectDelayMs := some delayMs
        nextReconnectAt := some nextReconnectAt
        reconnectTimer := some s.timers
        timers := s.timers + 1
        pending := s.pending ++ [(s.timers, delayMs)] }

/-- `connect`. -/
def connect (config : Config) (env : Outside) (now : Time) (s : State) : State :=
  if !s.running || !config.enabled || s.socket.isSome then s
  else
    let tried := { s with attempts := s.attempts + 1 }
    match env.attempt s.attempts with
    | .noCredentials =>
      scheduleReconnect config now
        { tried with lastError := some "credential_configuration_unavailable" }
    | .noSocket => scheduleReconnect config now { tried with lastError := some "connection_failed" }
    | .connected credentials =>
      { tried with
        socket := some s.sockets.length
        sockets := s.sockets ++ [credentials] }

/-- `start`. -/
def start (config : Config) (env : Outside) (now : Time) (s : State) : State :=
  if s.running then s
  else if !config.enabled then { s with running := false, intentionalStop := false }
  else connect config env now { s with running := true, intentionalStop := false }

/-- `stop`. -/
def stop (s : State) : State :=
  { s with
    running := false
    intentionalStop := true
    pending := s.pending.filter fun timer ↦ some timer.1 ≠ s.reconnectTimer
    reconnectTimer := none
    socket := none
    connected := false
    authenticated := false
    subscribed := false
    connectedAt := none
    nextReconnectAt := none }

/-- `setSymbols`. -/
def setSymbols (config : Config) (env : Outside) (symbols : List String) (s : State) : State :=
  let nextSymbols := normalizeStockSymbols symbols
  let added := nextSymbols.filter (· ∉ s.symbols)
  let removed := s.symbols.filter (· ∉ nextSymbols)
  let changed := { s with symbols := nextSymbols }
  if s.socket.isSome && s.authenticated then
    sendIfAny config env .unsubscribe removed (sendIfAny config env .subscribe added changed)
  else changed

/-! ## Messages -/

section Messages

variable [Conversion]

/-- `toFiniteNumber`. -/
def toFiniteNumber : JsValue → Option ℚ
  | .undefined => none
  | .null => none
  | .text "" => none
  | value => value.toNumber.value

/-- `toTimestamp`. -/
def toTimestamp (env : Outside) (value : JsValue) : Option String :=
  value.text?.filter fun text ↦ env.dateParses text

/-- `toSymbol`. -/
def toSymbol (value : JsValue) : Option String :=
  (value.text?.map fun text ↦ Text.toUpperCase (Text.trim text)).filter (· ≠ "")

/-- `toOptionalString`. -/
def toOptionalString (value : JsValue) : Option String := value.text?.filter (Text.trim · ≠ "")

variable (config : Config) (env : Outside)

/-- `normalizeTrade`. -/
def normalizeTrade (message : Fields) (receivedAt : Time) : Option StockTradeEvent := do
  let symbol ← toSymbol (message.get "S")
  let price ← toFiniteNumber (message.get "p")
  let size ← toFiniteNumber (message.get "s")
  let timestamp ← (toTimestamp env (message.get "t")).filter (· ≠ "")
  some {
    symbol, price, size, timestamp, receivedAt
    feed := config.feed
    exchange := toOptionalString (message.get "x") }

/-- `normalizeQuote`. -/
def normalizeQuote (message : Fields) (receivedAt : Time) : Option StockQuoteEvent := do
  let symbol ← toSymbol (message.get "S")
  let bidPrice ← toFiniteNumber (message.get "bp")
  let bidSize ← toFiniteNumber (message.get "bs")
  let askPrice ← toFiniteNumber (message.get "ap")
  let askSize ← toFiniteNumber (message.get "as")
  let timestamp ← (toTimestamp env (message.get "t")).filter (· ≠ "")
  some {
    symbol, bidPrice, bidSize, askPrice, askSize, timestamp, receivedAt
    feed := config.feed
    bidExchange := toOptionalString (message.get "bx")
    askExchange := toOptionalString (message.get "ax") }

/-- `normalizeBar`. -/
def normalizeBar (message : Fields) (receivedAt : Time) : Option StockBarEvent := do
  let symbol ← toSymbol (message.get "S")
  let openPrice ← toFiniteNumber (message.get "o")
  let high ← toFiniteNumber (message.get "h")
  let low ← toFiniteNumber (message.get "l")
  let closePrice ← toFiniteNumber (message.get "c")
  let volume ← toFiniteNumber (message.get "v")
  let timestamp ← (toTimestamp env (message.get "t")).filter (· ≠ "")
  some {
    symbol, openPrice, high, low, closePrice, volume, timestamp, receivedAt
    feed := config.feed
    tradeCount := toFiniteNumber (message.get "n")
    vwap := toFiniteNumber (message.get "vw") }

/-- The branch of `handleMessage` for a successful authentication. -/
def onAuthenticated (socket : SocketId) (s : State) : State :=
  let (subscribed, sent) := sendSubscription config env .subscribe s.symbols (s.accepted socket)
  { sent with subscribed }

/-- `handleMessage`. -/
def handleMessage (socket : SocketId) (receivedAt : Time) (message : Fields) (s : State) : State :=
  if s.socket ≠ some socket then s
  else
    let received := { s with lastMessageAt := some receivedAt }
    let messageType := (message.get "T").text?.getD ""
    if messageType = "success" ∧ (message.get "msg").text? = some "authenticated" then
      onAuthenticated config env socket received
    else if messageType = "subscription" then { received with subscribed := true }
    else if messageType = "error" then { received with lastError := some "alpaca_stream_error" }
    else if messageType = "t" then
      match normalizeTrade config env message receivedAt with
      | none => received
      | some event =>
        { received with latestTrades := Function.update s.latestTrades event.symbol (some event) }
    else if messageType = "q" then
      match normalizeQuote config env message receivedAt with
      | none => received
      | some event =>
        { received with latestQuotes := Function.update s.latestQuotes event.symbol (some event) }
    else if messageType = "b" then
      match normalizeBar config env message receivedAt with
      | none => received
      | some event =>
        { received with latestBars := Function.update s.latestBars event.symbol (some event) }
    else received

/-- `handleRawMessage`, of what `JSON.parse` reads in the message, if it reads it; the clock is
read once for each element. -/
def handleRawMessage (socket : SocketId) (parsed : Option JsValue) (now : ℕ → Time) (s : State) :
    State :=
  if s.socket ≠ some socket then s
  else
    match parsed with
    | none => s
    | some parsed =>
      let messages := match parsed with
        | .array elements => elements
        | value => [value]
      messages.zipIdx.foldl (fun s entry ↦
        match entry.1 with
        | .object message => handleMessage config env socket (now entry.2) message s
        | _ => s) s

end Messages

/-! ## Events of sockets -/

/-- The callback of `open`. -/
def onOpen (env : Outside) (socket : SocketId) (now : Time) (s : State) : State :=
  if s.socket ≠ some socket ∨ s.running = false ∨ s.intentionalStop = true then s
  else
    match s.sockets[socket]? with
    | none => s
    | some credentials =>
      (send env (.auth credentials.apiKey credentials.secretKey) (s.opened socket now)).2

/-- `handleSocketClose`. -/
def handleSocketClose (config : Config) (socket : SocketId) (now : Time) (s : State) : State :=
  if s.socket ≠ some socket then s
  else
    if s.running && !s.intentionalStop then scheduleReconnect config now s.closed else s.closed

/-- `handleSocketError`. -/
def handleSocketError (config : Config) (socket : SocketId) (now : Time) (s : State) : State :=
  if s.socket ≠ some socket then s
  else handleSocketClose config socket now { s with lastError := some "socket_error" }

/-! ## The machine -/

/-- What a socket tells the service. -/
inductive SocketEvent where
  | opened (now : Time)
  | message (parsed : Option JsValue) (now : ℕ → Time)
  | error (now : Time)
  | closed (now : Time)

inductive Act where
  | start (now : Time)
  | stop
  | setSymbols (symbols : List String)
  | timerFires (timer : TimerId) (now : Time)
  | socket (socket : SocketId) (event : SocketEvent)
  /-- A subscriber to the events fails. -/
  | consumerFails

section Step

variable [Conversion] (config : Config) (env : Outside)

/-- The callback of a socket's event. -/
def onSocketEvent (socket : SocketId) (event : SocketEvent) (s : State) : State :=
  match event with
  | .opened now => onOpen env socket now s
  | .message parsed now => handleRawMessage config env socket parsed now s
  | .error now => handleSocketError config socket now s
  | .closed now => handleSocketClose config socket now s

/-- The callback of the timer. -/
def onTimer (timer : TimerId) (now : Time) (s : State) : State :=
  connect config env now
    { s with
      pending := s.pending.filter (·.1 ≠ timer)
      reconnectTimer := none }

/-- One step.  Only a timer that is set fires, and only a socket there is has events. -/
def step (act : Act) (s : State) : Option State :=
  match act with
  | .start now => some (start config env now s)
  | .stop => some (stop s)
  | .setSymbols symbols => some (setSymbols config env symbols s)
  | .timerFires timer now =>
    if timer ∈ s.pending.map (·.1) then some (onTimer config env timer now s) else none
  | .socket socket event =>
    if socket < s.sockets.length then some (onSocketEvent config env socket event s) else none
  | .consumerFails => some { s with lastError := some "stream_consumer_failed" }

end Step

end StockStream

end AlpacaTrading
