import Mathlib.Tactic.Common
import AlpacaTrading.Stream.Service

/-!
# One connection

The service has a socket or a timer for the next attempt, not both, and while it runs it has one of
them.

## The invariant

`Tidy` is about the socket, the timer and the two switches alone.  Sending and reading messages
leave those as they are (`SameLink`), so only the functions that connect, schedule and close have a
proof of their own.

## Dates

`scheduleReconnect` computes the date of the next attempt before it sets the timer.  When there is
no such date it throws, and the service runs on with neither.  `Dated` says of a step that there is.
-/

namespace AlpacaTrading

namespace StockStream

open ZeroDte (JsValue Fields Conversion)

/-! ## What a send does -/

section Send

variable {env : Outside} {payload : Payload} {s : State} {socket : SocketId}

/-- A send without a socket. -/
theorem send_none (h : s.socket = none) : send env payload s = (false, s) := by
  rw [send, h]

/-- A send records one event on the current socket. -/
theorem send_some (h : s.socket = some socket) :
    ∃ event lastError, (event = .sent payload ∨ event = .refused payload) ∧
      (send env payload s).2 =
        { s.record socket event with sends := s.sends + 1, lastError := lastError } := by
  rw [send, h]
  rcases hsend : env.sendOutcome s.sends with - | - | -
  · exact ⟨.refused payload, s.lastError, .inr rfl, rfl⟩
  · exact ⟨.refused payload, some "send_failed", .inr rfl, rfl⟩
  · exact ⟨.sent payload, s.lastError, .inl rfl, rfl⟩

end Send

/-! ## The link -/

/-- The fields of the connection are the same. -/
structure SameLink (s s' : State) : Prop where
  socket : s'.socket = s.socket
  reconnectTimer : s'.reconnectTimer = s.reconnectTimer
  running : s'.running = s.running
  intentionalStop : s'.intentionalStop = s.intentionalStop
  pending : s'.pending = s.pending
  sockets : s'.sockets = s.sockets

namespace SameLink

variable {s s' s'' : State}

theorem rfl : SameLink s s := ⟨Eq.refl _, Eq.refl _, Eq.refl _, Eq.refl _, Eq.refl _, Eq.refl _⟩

theorem trans (h : SameLink s s') (h' : SameLink s' s'') : SameLink s s'' where
  socket := h'.socket.trans h.socket
  reconnectTimer := h'.reconnectTimer.trans h.reconnectTimer
  running := h'.running.trans h.running
  intentionalStop := h'.intentionalStop.trans h.intentionalStop
  pending := h'.pending.trans h.pending
  sockets := h'.sockets.trans h.sockets

end SameLink

section Link

variable {config : Config} {env : Outside} {s : State} {socket : SocketId}

theorem send_sameLink (payload : Payload) (s : State) : SameLink s (send env payload s).2 := by
  rcases h : s.socket with - | socket
  · rw [send_none h]
    exact SameLink.rfl
  · obtain ⟨event, lastError, -, heq⟩ := @send_some env payload s socket h
    rw [heq]
    constructor <;> rfl

theorem sendSubscription_sameLink (action : SubscriptionAction) (symbols : List String)
    (s : State) : SameLink s (sendSubscription config env action symbols s).2 :=
  send_sameLink _ s

theorem sendIfAny_sameLink (action : SubscriptionAction) (symbols : List String) (s : State) :
    SameLink s (sendIfAny config env action symbols s) := by
  rw [sendIfAny]
  split_ifs
  · exact sendSubscription_sameLink action symbols s
  · exact SameLink.rfl

theorem setSymbols_sameLink (symbols : List String) (s : State) :
    SameLink s (setSymbols config env symbols s) := by
  have hchanged : SameLink s { s with symbols := normalizeStockSymbols symbols } := by
    constructor <;> rfl
  rw [setSymbols]
  split_ifs
  · exact (hchanged.trans (sendIfAny_sameLink ..)).trans (sendIfAny_sameLink ..)
  · exact hchanged

theorem onOpen_sameLink (now : Time) (s : State) : SameLink s (onOpen env socket now s) := by
  rw [onOpen]
  split_ifs
  · exact SameLink.rfl
  · rcases hcredentials : s.sockets[socket]? with - | credentials
    · exact SameLink.rfl
    · have hopened : SameLink s (s.opened socket now) := by constructor <;> rfl
      exact hopened.trans (send_sameLink _ _)

theorem onAuthenticated_sameLink (s : State) :
    SameLink s (onAuthenticated config env socket s) := by
  have haccepted : SameLink s (s.accepted socket) := by constructor <;> rfl
  have hsent : SameLink s
      (sendSubscription config env .subscribe s.symbols (s.accepted socket)).2 :=
    haccepted.trans (sendSubscription_sameLink ..)
  exact ⟨hsent.socket, hsent.reconnectTimer, hsent.running, hsent.intentionalStop, hsent.pending,
    hsent.sockets⟩

variable [Conversion]

/-- What a message does: it authenticates, or it changes nothing that the connection or the
subscriptions depend on. -/
theorem handleMessage_cases (receivedAt : Time) (message : Fields) (h : s.socket = some socket) :
    handleMessage config env socket receivedAt message s =
        onAuthenticated config env socket { s with lastMessageAt := some receivedAt } ∨
      ∃ subscribed lastError latestTrades latestQuotes latestBars,
        handleMessage config env socket receivedAt message s =
          { s with
            lastMessageAt := some receivedAt, subscribed := subscribed, lastError := lastError
            latestTrades := latestTrades, latestQuotes := latestQuotes
            latestBars := latestBars } := by
  rw [handleMessage, if_neg (not_not.2 h)]
  dsimp only
  split_ifs
  · exact .inl rfl
  all_goals right
  · exact ⟨_, _, _, _, _, rfl⟩
  · exact ⟨_, _, _, _, _, rfl⟩
  · rcases normalizeTrade config env message receivedAt with - | event <;>
      exact ⟨_, _, _, _, _, rfl⟩
  · rcases normalizeQuote config env message receivedAt with - | event <;>
      exact ⟨_, _, _, _, _, rfl⟩
  · rcases normalizeBar config env message receivedAt with - | event <;>
      exact ⟨_, _, _, _, _, rfl⟩
  · exact ⟨_, _, _, _, _, rfl⟩

theorem handleMessage_of_ne (receivedAt : Time) (message : Fields) (h : s.socket ≠ some socket) :
    handleMessage config env socket receivedAt message s = s := by
  rw [handleMessage, if_pos h]

theorem handleMessage_sameLink (receivedAt : Time) (message : Fields) (s : State) :
    SameLink s (handleMessage config env socket receivedAt message s) := by
  by_cases h : s.socket = some socket
  · rcases handleMessage_cases receivedAt message h with heq | heq
    · rw [heq]
      refine SameLink.trans ?_ (onAuthenticated_sameLink _)
      constructor <;> rfl
    · obtain ⟨subscribed, lastError, trades, quotes, bars, heq⟩ := heq
      rw [heq]
      constructor <;> rfl
  · rw [handleMessage_of_ne receivedAt message h]
    exact SameLink.rfl

/-- **The rule for a raw message**: what each message keeps, all of them keep. -/
theorem handleRawMessage_keeps {P : State → Prop} (parsed : Option JsValue) (now : ℕ → Time)
    (hmessage : ∀ s receivedAt message, P s →
      P (handleMessage config env socket receivedAt message s)) (hs : P s) :
    P (handleRawMessage config env socket parsed now s) := by
  rw [handleRawMessage.eq_def]
  split_ifs with hsocket
  · exact hs
  clear hsocket
  rcases parsed with - | parsed
  · exact hs
  -- Induction over the messages, with the state generalised.
  dsimp only
  generalize List.zipIdx _ = entries
  induction entries generalizing s with
  | nil => exact hs
  | cons entry rest ih =>
    rw [List.foldl_cons]
    refine ih ?_
    split
    · exact hmessage _ _ _ hs
    · exact hs

theorem handleRawMessage_sameLink (parsed : Option JsValue) (now : ℕ → Time) (s : State) :
    SameLink s (handleRawMessage config env socket parsed now s) :=
  handleRawMessage_keeps (P := SameLink s) parsed now
    (fun s' receivedAt message h ↦ h.trans (handleMessage_sameLink receivedAt message s'))
    SameLink.rfl

end Link

/-! ## The invariant -/

/-- No flag of a connection is up. -/
def Unconnected (s : State) : Prop :=
  s.connected = false ∧ s.authenticated = false ∧ s.subscribed = false

/-- The socket, the timer and the switches fit together. -/
structure Tidy (config : Config) (s : State) : Prop where
  pending_eq : s.pending.map (·.1) = s.reconnectTimer.toList
  exclusive : s.socket = none ∨ s.reconnectTimer = none
  idle : s.running = false → s.socket = none ∧ s.reconnectTimer = none
  started : s.running = true → config.enabled = true ∧ s.intentionalStop = false
  delays : ∀ timer ∈ s.pending, timer.2 ≤ config.reconnectMaxMs
  known : ∀ socket ∈ s.socket, socket < s.sockets.length
  flags : s.socket = none → Unconnected s

/-- While the service runs there is a socket or a timer. -/
def Alive (s : State) : Prop := s.running = true → s.socket.isSome ∨ s.reconnectTimer.isSome

/-- Every date of a next attempt that a step can compute exists. -/
def DatedAt (config : Config) (now : Time) : Prop :=
  ∀ reconnectAttempts, (dateOf (now + reconnectDelay config reconnectAttempts)).isSome

theorem reconnectDelay_le (config : Config) (reconnectAttempts : ℕ) :
    reconnectDelay config reconnectAttempts ≤ config.reconnectMaxMs := min_le_left _ _

section Invariant

variable {config : Config} {env : Outside} {s s' : State} {socket : SocketId} {now : Time}

/-- A timer is set exactly when the field holds one. -/
theorem Tidy.pending_eq_nil (h : Tidy config s) : s.pending = [] ↔ s.reconnectTimer = none := by
  rw [← List.map_eq_nil_iff (f := Prod.fst), h.pending_eq, Option.toList_eq_nil_iff]

theorem Tidy.of_sameLink (h : Tidy config s) (hsame : SameLink s s')
    (hflags : s'.socket = none → Unconnected s') : Tidy config s' where
  pending_eq := by rw [hsame.pending, hsame.reconnectTimer]; exact h.pending_eq
  exclusive := by rw [hsame.socket, hsame.reconnectTimer]; exact h.exclusive
  idle := by rw [hsame.running, hsame.socket, hsame.reconnectTimer]; exact h.idle
  started := by rw [hsame.running, hsame.intentionalStop]; exact h.started
  delays := by rw [hsame.pending]; exact h.delays
  known := by rw [hsame.socket, hsame.sockets]; exact h.known
  flags := hflags

theorem Alive.of_sameLink (h : Alive s) (hsame : SameLink s s') : Alive s' := by
  rw [Alive, hsame.running, hsame.socket, hsame.reconnectTimer]
  exact h

theorem initial_tidy (config : Config) : Tidy config (initial config) where
  pending_eq := rfl
  exclusive := .inl rfl
  idle _ := ⟨rfl, rfl⟩
  started h := absurd h Bool.false_ne_true
  delays _ h := absurd h List.not_mem_nil
  known _ h := absurd h (Option.not_mem_none _)
  flags _ := ⟨rfl, rfl, rfl⟩

/-! ### Scheduling -/

/-- What scheduling does: nothing, or it fails at the date, or it sets a timer. -/
theorem scheduleReconnect_cases (config : Config) (now : Time) (s : State) :
    (scheduleReconnect config now s = s ∧
      (s.running = false ∨ s.intentionalStop = true ∨ s.reconnectTimer.isSome)) ∨
    (s.running = true ∧ s.reconnectTimer = none ∧
      (dateOf (now + reconnectDelay config (s.reconnectAttempts + 1)) = none ∧
        scheduleReconnect config now s =
          { s with
            reconnectAttempts := s.reconnectAttempts + 1
            lastReconnectDelayMs := some (reconnectDelay config (s.reconnectAttempts + 1)) } ∨
      ∃ nextReconnectAt, scheduleReconnect config now s =
        { s with
          reconnectAttempts := s.reconnectAttempts + 1
          lastReconnectDelayMs := some (reconnectDelay config (s.reconnectAttempts + 1))
          nextReconnectAt := some nextReconnectAt
          reconnectTimer := some s.timers
          timers := s.timers + 1
          pending :=
            s.pending ++ [(s.timers, reconnectDelay config (s.reconnectAttempts + 1))] })) := by
  rw [scheduleReconnect]
  split_ifs with hguard
  · left
    rw [Bool.or_eq_true, Bool.or_eq_true, Bool.not_eq_true', or_assoc] at hguard
    exact ⟨rfl, hguard⟩
  · rw [Bool.or_eq_true, Bool.or_eq_true, Bool.not_eq_true', not_or, not_or, Bool.not_eq_false,
      Option.isSome_iff_ne_none, not_not] at hguard
    refine .inr ⟨hguard.1.1, hguard.2, ?_⟩
    dsimp only
    rcases hdate : dateOf (now + reconnectDelay config (s.reconnectAttempts + 1)) with - | t
    · exact .inl ⟨rfl, rfl⟩
    · exact .inr ⟨t, rfl⟩

theorem scheduleReconnect_tidy (h : Tidy config s) (hsocket : s.socket = none) :
    Tidy config (scheduleReconnect config now s) := by
  rcases scheduleReconnect_cases config now s with
    ⟨heq, -⟩ | ⟨hrunning, htimer, ⟨-, heq⟩ | ⟨nextReconnectAt, heq⟩⟩
  · rw [heq]
    exact h
  · rw [heq]
    exact h.of_sameLink ⟨rfl, rfl, rfl, rfl, rfl, rfl⟩ h.flags
  · have hpending : s.pending = [] := h.pending_eq_nil.2 htimer
    rw [heq]
    constructor
    case pending_eq => simp [hpending]
    case exclusive => exact .inl hsocket
    case idle => exact fun hidle ↦ absurd (hidle.symm.trans hrunning) Bool.false_ne_true
    case started => exact h.started
    case delays =>
      intro timer htimer'
      rw [hpending, List.nil_append, List.mem_singleton] at htimer'
      rw [htimer']
      exact reconnectDelay_le config _
    case known => exact h.known
    case flags => exact h.flags

theorem scheduleReconnect_alive (h : Tidy config s) (hdated : DatedAt config now) :
    Alive (scheduleReconnect config now s) := by
  rcases scheduleReconnect_cases config now s with
    ⟨heq, hguard⟩ | ⟨hrunning, htimer, ⟨hdate, -⟩ | ⟨nextReconnectAt, heq⟩⟩
  · rw [heq]
    intro hrunning
    rcases hguard with hidle | hstop | htimer
    · exact absurd (hidle.symm.trans hrunning) Bool.false_ne_true
    · exact absurd ((h.started hrunning).2.symm.trans hstop) Bool.false_ne_true
    · exact .inr htimer
  · exact absurd (hdated (s.reconnectAttempts + 1)) (by rw [hdate]; exact Bool.false_ne_true)
  · rw [heq]
    exact fun _ ↦ .inr rfl

/-! ### Connecting -/

/-- What connecting does: nothing, or it schedules, or there is a new socket. -/
theorem connect_cases (config : Config) (env : Outside) (now : Time) (s : State) :
    (connect config env now s = s ∧
      (s.running = false ∨ config.enabled = false ∨ s.socket.isSome)) ∨
    (s.running = true ∧ s.socket = none ∧
      ((∃ lastError, connect config env now s = scheduleReconnect config now
          { s with attempts := s.attempts + 1, lastError := lastError }) ∨
      ∃ credentials, connect config env now s =
        { s with
          attempts := s.attempts + 1
          socket := some s.sockets.length
          sockets := s.sockets ++ [credentials] })) := by
  rw [connect]
  split_ifs with hguard
  · left
    rw [Bool.or_eq_true, Bool.or_eq_true, Bool.not_eq_true', Bool.not_eq_true', or_assoc] at hguard
    exact ⟨rfl, hguard⟩
  · rw [Bool.or_eq_true, Bool.or_eq_true, Bool.not_eq_true', not_or, not_or, Bool.not_eq_false,
      Option.isSome_iff_ne_none, not_not] at hguard
    refine .inr ⟨hguard.1.1, hguard.2, ?_⟩
    dsimp only
    rcases env.attempt s.attempts with - | - | credentials
    · exact .inl ⟨_, rfl⟩
    · exact .inl ⟨_, rfl⟩
    · exact .inr ⟨credentials, rfl⟩

theorem connect_tidy (h : Tidy config s) (htimer : s.reconnectTimer = none) :
    Tidy config (connect config env now s) := by
  rcases connect_cases config env now s with
    ⟨heq, -⟩ | ⟨hrunning, hsocket, ⟨lastError, heq⟩ | ⟨credentials, heq⟩⟩
  · rw [heq]
    exact h
  · rw [heq]
    exact scheduleReconnect_tidy (h.of_sameLink ⟨rfl, rfl, rfl, rfl, rfl, rfl⟩ h.flags) hsocket
  · rw [heq]
    constructor
    case pending_eq => exact h.pending_eq
    case exclusive => exact .inr htimer
    case idle => exact fun hidle ↦ absurd (hidle.symm.trans hrunning) Bool.false_ne_true
    case started => exact h.started
    case delays => exact h.delays
    case known =>
      intro socket hin
      rw [← Option.some_inj.1 hin, List.length_append]
      exact Nat.lt_succ_self _
    case flags => exact fun hnone ↦ absurd hnone (Option.some_ne_none _)

theorem connect_alive (h : Tidy config s) (hdated : DatedAt config now) :
    Alive (connect config env now s) := by
  rcases connect_cases config env now s with
    ⟨heq, hguard⟩ | ⟨hrunning, hsocket, ⟨lastError, heq⟩ | ⟨credentials, heq⟩⟩
  · rw [heq]
    intro hrunning
    rcases hguard with hidle | hdisabled | hsocket
    · exact absurd (hidle.symm.trans hrunning) Bool.false_ne_true
    · exact absurd (hdisabled.symm.trans (h.started hrunning).1) Bool.false_ne_true
    · exact .inl hsocket
  · rw [heq]
    exact scheduleReconnect_alive (h.of_sameLink ⟨rfl, rfl, rfl, rfl, rfl, rfl⟩ h.flags) hdated
  · rw [heq]
    exact fun _ ↦ .inl rfl

/-! ### The actions -/

/-- The switches on, before the first attempt. -/
theorem Tidy.switched_on (h : Tidy config s) (henabled : config.enabled = true) :
    Tidy config { s with running := true, intentionalStop := false } where
  pending_eq := h.pending_eq
  exclusive := h.exclusive
  idle h' := absurd h'.symm Bool.false_ne_true
  started _ := ⟨henabled, rfl⟩
  delays := h.delays
  known := h.known
  flags := h.flags

/-- What starting does. -/
theorem start_cases (config : Config) (env : Outside) (now : Time) (s : State) :
    (s.running = true ∧ start config env now s = s) ∨
    (s.running = false ∧ config.enabled = false ∧
      start config env now s = { s with running := false, intentionalStop := false }) ∨
    (s.running = false ∧ config.enabled = true ∧
      start config env now s =
        connect config env now { s with running := true, intentionalStop := false }) := by
  rw [start]
  split_ifs with hrunning hdisabled
  · exact .inl ⟨hrunning, rfl⟩
  · exact .inr (.inl ⟨Bool.eq_false_iff.2 hrunning, Bool.not_eq_true' _ ▸ hdisabled, rfl⟩)
  · rw [Bool.not_eq_true', Bool.not_eq_false] at hdisabled
    exact .inr (.inr ⟨Bool.eq_false_iff.2 hrunning, hdisabled, rfl⟩)

theorem start_tidy (h : Tidy config s) : Tidy config (start config env now s) := by
  rcases start_cases config env now s with
    ⟨-, heq⟩ | ⟨hidle, -, heq⟩ | ⟨hidle, henabled, heq⟩
  · rw [heq]
    exact h
  · rw [heq]
    constructor
    case pending_eq => exact h.pending_eq
    case exclusive => exact h.exclusive
    case idle => exact fun _ ↦ h.idle hidle
    case started => exact fun h' ↦ absurd h' Bool.false_ne_true
    case delays => exact h.delays
    case known => exact h.known
    case flags => exact h.flags
  · rw [heq]
    exact connect_tidy (h.switched_on henabled) (h.idle hidle).2

theorem start_alive (h : Tidy config s) (halive : Alive s) (hdated : DatedAt config now) :
    Alive (start config env now s) := by
  rcases start_cases config env now s with
    ⟨-, heq⟩ | ⟨-, -, heq⟩ | ⟨-, henabled, heq⟩
  · rw [heq]
    exact halive
  · rw [heq]
    exact fun h' ↦ absurd h' Bool.false_ne_true
  · rw [heq]
    exact connect_alive (h.switched_on henabled) hdated

/-- Stopping clears the timer there is. -/
theorem stop_pending (h : Tidy config s) : (stop s).pending = [] := by
  rw [stop, List.filter_eq_nil_iff]
  intro timer htimer
  have hin : timer.1 ∈ s.reconnectTimer.toList := by
    rw [← h.pending_eq]
    exact List.mem_map_of_mem htimer
  rw [Option.mem_toList] at hin
  simp [hin.symm]

theorem stop_tidy (h : Tidy config s) : Tidy config (stop s) where
  pending_eq := by rw [stop_pending h]; rfl
  exclusive := .inl rfl
  idle _ := ⟨rfl, rfl⟩
  started h' := absurd h' Bool.false_ne_true
  delays timer htimer := by rw [stop_pending h] at htimer; exact absurd htimer List.not_mem_nil
  known _ h' := absurd h' (Option.not_mem_none _)
  flags _ := ⟨rfl, rfl, rfl⟩

theorem handleSocketClose_of_ne (h : s.socket ≠ some socket) :
    handleSocketClose config socket now s = s := by
  rw [handleSocketClose, if_pos h]

/-- Losing the current socket, before the next attempt is scheduled. -/
theorem Tidy.closed (h : Tidy config s) : Tidy config s.closed where
  pending_eq := h.pending_eq
  exclusive := .inl rfl
  idle hidle := ⟨rfl, (h.idle hidle).2⟩
  started := h.started
  delays := h.delays
  known _ h' := absurd h' (Option.not_mem_none _)
  flags _ := ⟨rfl, rfl, rfl⟩

theorem handleSocketClose_tidy (h : Tidy config s) :
    Tidy config (handleSocketClose config socket now s) := by
  rw [handleSocketClose]
  split_ifs
  · exact h
  · exact scheduleReconnect_tidy h.closed rfl
  · exact h.closed

theorem handleSocketClose_alive (h : Tidy config s) (halive : Alive s)
    (hdated : DatedAt config now) : Alive (handleSocketClose config socket now s) := by
  rw [handleSocketClose]
  split_ifs with hsocket hrunning
  · exact halive
  · exact scheduleReconnect_alive h.closed hdated
  · -- The switches say that the service does not run.
    intro hon
    rw [Bool.and_eq_true, Bool.not_eq_true'] at hrunning
    exact absurd ⟨hon, (h.started hon).2⟩ hrunning

theorem handleSocketError_eq (hsocket : s.socket = some socket) :
    handleSocketError config socket now s =
      handleSocketClose config socket now { s with lastError := some "socket_error" } := by
  rw [handleSocketError, if_neg (not_not.2 hsocket)]

theorem handleSocketError_of_ne (h : s.socket ≠ some socket) :
    handleSocketError config socket now s = s := by
  rw [handleSocketError, if_pos h]

theorem handleSocketError_tidy (h : Tidy config s) :
    Tidy config (handleSocketError config socket now s) := by
  by_cases hsocket : s.socket = some socket
  · rw [handleSocketError_eq hsocket]
    exact handleSocketClose_tidy (h.of_sameLink ⟨rfl, rfl, rfl, rfl, rfl, rfl⟩ h.flags)
  · rw [handleSocketError_of_ne hsocket]
    exact h

theorem handleSocketError_alive (h : Tidy config s) (halive : Alive s)
    (hdated : DatedAt config now) : Alive (handleSocketError config socket now s) := by
  by_cases hsocket : s.socket = some socket
  · rw [handleSocketError_eq hsocket]
    exact handleSocketClose_alive (h.of_sameLink ⟨rfl, rfl, rfl, rfl, rfl, rfl⟩ h.flags) halive
      hdated
  · rw [handleSocketError_of_ne hsocket]
    exact halive

/-- The timer that is set is the one in the field. -/
theorem Tidy.reconnectTimer_eq (h : Tidy config s) {timer : TimerId}
    (htimer : timer ∈ s.pending.map (·.1)) : s.reconnectTimer = some timer := by
  rw [h.pending_eq, Option.mem_toList] at htimer
  exact htimer

/-- A timer that fires is gone. -/
theorem Tidy.fired (h : Tidy config s) {timer : TimerId}
    (htimer : timer ∈ s.pending.map (·.1)) :
    Tidy config { s with pending := s.pending.filter (·.1 ≠ timer), reconnectTimer := none } := by
  have heq := h.reconnectTimer_eq htimer
  constructor
  case pending_eq =>
    -- No other timer is set.
    rw [Option.toList_none, List.map_eq_nil_iff, List.filter_eq_nil_iff]
    intro other hother
    have hin : other.1 ∈ s.reconnectTimer.toList := by
      rw [← h.pending_eq]
      exact List.mem_map_of_mem hother
    rw [heq, Option.toList_some, List.mem_singleton] at hin
    simp [hin]
  case exclusive => exact .inr rfl
  case idle => exact fun hidle ↦ ⟨(h.idle hidle).1, rfl⟩
  case started => exact h.started
  case delays => exact fun other hother ↦ h.delays other (List.mem_of_mem_filter hother)
  case known => exact h.known
  case flags => exact h.flags

end Invariant

/-! ## Steps and runs -/

section Step

variable [Conversion] {config : Config} {env : Outside} {s s' : State} {act : Act}

/-- **An event of a socket that is not the current one changes nothing.** -/
theorem onSocketEvent_of_ne {socket : SocketId} (event : SocketEvent)
    (h : s.socket ≠ some socket) : onSocketEvent config env socket event s = s := by
  rw [onSocketEvent.eq_def]
  cases event with
  | opened now => exact if_pos (.inl h)
  | message parsed now => exact if_pos h
  | error now => exact handleSocketError_of_ne h
  | closed now => exact handleSocketClose_of_ne h

theorem onSocketEvent_tidy (socket : SocketId) (event : SocketEvent) (h : Tidy config s) :
    Tidy config (onSocketEvent config env socket event s) := by
  by_cases hsocket : s.socket = some socket
  · have hcurrent : s.socket ≠ none := by
      rw [hsocket]
      exact Option.some_ne_none _
    rw [onSocketEvent.eq_def]
    cases event with
    | opened now =>
      have hsame : SameLink s (onOpen env socket now s) := onOpen_sameLink now s
      exact h.of_sameLink hsame fun hnone ↦ absurd (hsame.socket ▸ hnone) hcurrent
    | message parsed now =>
      have hsame : SameLink s (handleRawMessage config env socket parsed now s) :=
        handleRawMessage_sameLink parsed now s
      exact h.of_sameLink hsame fun hnone ↦ absurd (hsame.socket ▸ hnone) hcurrent
    | error now => exact handleSocketError_tidy h
    | closed now => exact handleSocketClose_tidy h
  · rw [onSocketEvent_of_ne event hsocket]
    exact h

/-- The dates that a step can compute exist. -/
def Dated (config : Config) (act : Act) : Prop :=
  match act with
  | .start now => DatedAt config now
  | .timerFires _ now => DatedAt config now
  | .socket _ (.error now) => DatedAt config now
  | .socket _ (.closed now) => DatedAt config now
  | _ => True

theorem onSocketEvent_alive (socket : SocketId) (event : SocketEvent) (h : Tidy config s)
    (halive : Alive s) (hdated : Dated config (.socket socket event)) :
    Alive (onSocketEvent config env socket event s) := by
  rw [onSocketEvent.eq_def]
  cases event with
  | opened now => exact halive.of_sameLink (onOpen_sameLink now s)
  | message parsed now => exact halive.of_sameLink (handleRawMessage_sameLink parsed now s)
  | error now => exact handleSocketError_alive h halive hdated
  | closed now => exact handleSocketClose_alive h halive hdated

omit [Conversion] in
/-- Changing the symbols puts no flag up. -/
theorem setSymbols_tidy (symbols : List String) (h : Tidy config s) :
    Tidy config (setSymbols config env symbols s) := by
  have hsame : SameLink s (setSymbols config env symbols s) := setSymbols_sameLink symbols s
  refine h.of_sameLink hsame fun hnone ↦ ?_
  have hsocket : s.socket = none := hsame.socket ▸ hnone
  rw [setSymbols, if_neg (by rw [hsocket]; exact Bool.false_ne_true)]
  exact h.flags hsocket

/-- **One step** keeps the invariant. -/
theorem step_tidy (h : Tidy config s) (hstep : step config env act s = some s') :
    Tidy config s' := by
  rw [step.eq_def] at hstep
  cases act with
  | start now => exact Option.some_inj.1 hstep ▸ start_tidy h
  | stop => exact Option.some_inj.1 hstep ▸ stop_tidy h
  | setSymbols symbols => exact Option.some_inj.1 hstep ▸ setSymbols_tidy symbols h
  | timerFires timer now =>
    obtain ⟨htimer, heq⟩ := Option.ite_none_right_eq_some.1 hstep
    exact Option.some_inj.1 heq ▸ connect_tidy (h.fired htimer) rfl
  | socket socket event =>
    obtain ⟨-, heq⟩ := Option.ite_none_right_eq_some.1 hstep
    exact Option.some_inj.1 heq ▸ onSocketEvent_tidy socket event h
  | consumerFails =>
    exact Option.some_inj.1 hstep ▸ h.of_sameLink ⟨rfl, rfl, rfl, rfl, rfl, rfl⟩ h.flags

/-- **One step** keeps a socket or a timer, when its dates exist. -/
theorem step_alive (h : Tidy config s) (halive : Alive s) (hdated : Dated config act)
    (hstep : step config env act s = some s') : Alive s' := by
  rw [step.eq_def] at hstep
  cases act with
  | start now => exact Option.some_inj.1 hstep ▸ start_alive h halive hdated
  | stop => exact Option.some_inj.1 hstep ▸ fun h' ↦ absurd h' Bool.false_ne_true
  | setSymbols symbols =>
    exact Option.some_inj.1 hstep ▸ halive.of_sameLink (setSymbols_sameLink symbols s)
  | timerFires timer now =>
    obtain ⟨htimer, heq⟩ := Option.ite_none_right_eq_some.1 hstep
    exact Option.some_inj.1 heq ▸ connect_alive (h.fired htimer) hdated
  | socket socket event =>
    obtain ⟨-, heq⟩ := Option.ite_none_right_eq_some.1 hstep
    exact Option.some_inj.1 heq ▸ onSocketEvent_alive socket event h halive hdated
  | consumerFails => exact Option.some_inj.1 hstep ▸ halive

/-- Only `start` switches the service on. -/
theorem step_running (h : Tidy config s) (hidle : s.running = false)
    (hact : ∀ now, act ≠ .start now) (hstep : step config env act s = some s') :
    s'.running = false := by
  rw [step.eq_def] at hstep
  cases act with
  | start now => exact absurd rfl (hact now)
  | stop => exact Option.some_inj.1 hstep ▸ rfl
  | setSymbols symbols =>
    rw [← Option.some_inj.1 hstep, (setSymbols_sameLink symbols s).running]
    exact hidle
  | timerFires timer now =>
    -- The service has no timer while it is off.
    obtain ⟨htimer, -⟩ := Option.ite_none_right_eq_some.1 hstep
    exact absurd ((h.reconnectTimer_eq htimer).symm.trans (h.idle hidle).2) (Option.some_ne_none _)
  | socket socket event =>
    obtain ⟨-, heq⟩ := Option.ite_none_right_eq_some.1 hstep
    have hne : s.socket ≠ some socket := by
      rw [(h.idle hidle).1]
      exact (Option.some_ne_none _).symm
    rw [← Option.some_inj.1 heq, onSocketEvent_of_ne event hne]
    exact hidle
  | consumerFails => exact Option.some_inj.1 hstep ▸ hidle

variable {acts : List Act}

theorem runActs_tidy (h : Tidy config s) (hrun : runActs (step config env) s acts = some s') :
    Tidy config s' :=
  invariant_of_run (fun _ _ _ ↦ step_tidy) h hrun

/-- **Runs** keep a socket or a timer, when the dates of all of their steps exist. -/
theorem runActs_alive (h : Tidy config s) (halive : Alive s) (hdated : ∀ a ∈ acts, Dated config a)
    (hrun : runActs (step config env) s acts = some s') : Alive s' := by
  have hguard : Guarded (step config env) (fun _ a ↦ Dated config a) s acts :=
    guarded_of_forall s fun a ha _ ↦ hdated a ha
  have hboth := @invariant_of_guarded State Act (step config env) (fun _ a ↦ Dated config a)
    (fun t ↦ Tidy config t ∧ Alive t)
    (fun t a t' ht ha hstep ↦ ⟨step_tidy ht.1 hstep, step_alive ht.1 ht.2 ha hstep⟩)
    s s' acts ⟨h, halive⟩ hguard hrun
  exact hboth.2

/-- **Until the next start** there is neither. -/
theorem runActs_stopped (h : Tidy config s) (hidle : s.running = false)
    (hacts : ∀ a ∈ acts, ∀ now, a ≠ .start now)
    (hrun : runActs (step config env) s acts = some s') :
    s'.socket = none ∧ s'.pending = [] := by
  -- Induction over the actions, with the state generalised.
  induction acts generalizing s with
  | nil =>
    obtain rfl : s = s' := Option.some_inj.1 hrun
    exact ⟨(h.idle hidle).1, h.pending_eq_nil.2 (h.idle hidle).2⟩
  | cons a rest ih =>
    obtain ⟨t, hstep, hrest⟩ := runActs_cons.1 hrun
    have hoff := step_running h hidle (hacts a List.mem_cons_self) hstep
    exact ih (step_tidy h hstep) hoff (fun b hb ↦ hacts b (.tail a hb)) hrest

/-! ### Earlier sockets -/

/-- How the current socket moves: it stays, it goes, or it is the next one. -/
structure Moves (s s' : State) : Prop where
  socket : s'.socket = s.socket ∨ s'.socket = none ∨ s'.socket = some s.sockets.length
  sockets : s.sockets.length ≤ s'.sockets.length

omit [Conversion] in
theorem SameLink.moves (h : SameLink s s') : Moves s s' :=
  ⟨.inl h.socket, h.sockets ▸ le_rfl⟩

omit [Conversion] in
theorem connect_moves (config : Config) (env : Outside) (now : Time) (s : State) :
    Moves s (connect config env now s) := by
  rcases connect_cases config env now s with
    ⟨heq, -⟩ | ⟨-, hsocket, ⟨lastError, heq⟩ | ⟨credentials, heq⟩⟩
  · rw [heq]
    exact SameLink.rfl.moves
  · rw [heq]
    rcases scheduleReconnect_cases config now
      { s with attempts := s.attempts + 1, lastError := lastError } with
      ⟨heq', -⟩ | ⟨-, -, ⟨-, heq'⟩ | ⟨nextReconnectAt, heq'⟩⟩
    all_goals
      rw [heq']
      exact ⟨.inl rfl, le_rfl⟩
  · rw [heq]
    exact ⟨.inr (.inr rfl), by simp⟩

omit [Conversion] in
theorem handleSocketClose_moves (config : Config) (socket : SocketId) (now : Time) (s : State) :
    Moves s (handleSocketClose config socket now s) := by
  rw [handleSocketClose]
  split_ifs
  · exact SameLink.rfl.moves
  · rcases scheduleReconnect_cases config now s.closed with
      ⟨heq, -⟩ | ⟨-, -, ⟨-, heq⟩ | ⟨nextReconnectAt, heq⟩⟩
    all_goals
      rw [heq]
      exact ⟨.inr (.inl rfl), le_rfl⟩
  · exact ⟨.inr (.inl rfl), le_rfl⟩

theorem onSocketEvent_moves (socket : SocketId) (event : SocketEvent) (s : State) :
    Moves s (onSocketEvent config env socket event s) := by
  rw [onSocketEvent.eq_def]
  cases event with
  | opened now => exact (onOpen_sameLink now s).moves
  | message parsed now => exact (handleRawMessage_sameLink parsed now s).moves
  | error now =>
    by_cases hsocket : s.socket = some socket
    · change Moves s (handleSocketError config socket now s)
      rw [handleSocketError_eq hsocket]
      have hmoves := handleSocketClose_moves config socket now
        { s with lastError := some "socket_error" }
      exact ⟨hmoves.socket, hmoves.sockets⟩
    · change Moves s (handleSocketError config socket now s)
      rw [handleSocketError_of_ne hsocket]
      exact SameLink.rfl.moves
  | closed now => exact handleSocketClose_moves config socket now s

theorem step_moves (hstep : step config env act s = some s') : Moves s s' := by
  rw [step.eq_def] at hstep
  cases act with
  | start now =>
    rw [← Option.some_inj.1 hstep]
    rcases start_cases config env now s with ⟨-, heq⟩ | ⟨-, -, heq⟩ | ⟨-, -, heq⟩
    · rw [heq]
      exact SameLink.rfl.moves
    · rw [heq]
      exact ⟨.inl rfl, le_rfl⟩
    · rw [heq]
      have hmoves := connect_moves config env now
        { s with running := true, intentionalStop := false }
      exact ⟨hmoves.socket, hmoves.sockets⟩
  | stop => exact Option.some_inj.1 hstep ▸ ⟨.inr (.inl rfl), le_rfl⟩
  | setSymbols symbols => exact Option.some_inj.1 hstep ▸ (setSymbols_sameLink symbols s).moves
  | timerFires timer now =>
    obtain ⟨-, heq⟩ := Option.ite_none_right_eq_some.1 hstep
    have hmoves := connect_moves config env now
      { s with pending := s.pending.filter (·.1 ≠ timer), reconnectTimer := none }
    exact Option.some_inj.1 heq ▸ ⟨hmoves.socket, hmoves.sockets⟩
  | socket socket event =>
    obtain ⟨-, heq⟩ := Option.ite_none_right_eq_some.1 hstep
    exact Option.some_inj.1 heq ▸ onSocketEvent_moves socket event s
  | consumerFails => exact Option.some_inj.1 hstep ▸ ⟨.inl rfl, le_rfl⟩

/-- **An earlier socket never comes back.** -/
theorem runActs_newer {count : ℕ} (hcount : count ≤ s.sockets.length)
    (hsocket : ∀ socket, s.socket = some socket → count ≤ socket)
    (hrun : runActs (step config env) s acts = some s') :
    ∀ socket, s'.socket = some socket → count ≤ socket := by
  have hboth := @invariant_of_run State Act (step config env)
    (fun t ↦ count ≤ t.sockets.length ∧ ∀ socket, t.socket = some socket → count ≤ socket)
    (fun t a t' ht hstep ↦ by
      obtain ⟨hmoves, hlength⟩ := step_moves hstep
      refine ⟨ht.1.trans hlength, fun socket hin ↦ ?_⟩
      rcases hmoves with hsame | hgone | hnext
      · exact ht.2 socket (hsame.symm.trans hin)
      · exact absurd (hin.symm.trans hgone) (Option.some_ne_none _)
      · exact Option.some_inj.1 (hnext.symm.trans hin) ▸ ht.1)
    s s' acts ⟨hcount, hsocket⟩ hrun
  exact hboth.2

end Step

end StockStream

end AlpacaTrading
