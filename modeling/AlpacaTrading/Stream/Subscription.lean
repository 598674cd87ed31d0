import Mathlib.Data.Finset.SDiff
import AlpacaTrading.Stream.Connection

/-!
# One subscription set

What is subscribed on a socket follows from what was sent on it.  After an authentication it is the
configured symbols, on the channels that are switched on.

## The invariant

`Agrees` says this of a list of events, with the flag `authenticated` and the target set beside it.
Both are parameters: between two sends of one call the target is neither the old set of symbols nor
the new one.

## Openings

An opening lowers the flag and leaves the subscriptions.  A change of symbols is not sent while the
flag is down, and a second authentication only adds.  So the invariant asks that no opening comes
after an authentication on the same socket, which is how sockets behave.
-/

namespace AlpacaTrading

namespace StockStream

open ZeroDte (JsValue Fields Conversion)

/-! ## Events of a socket -/

/-- Every send has succeeded. -/
def AllSent (events : List WireEvent) : Prop := ∀ payload, .refused payload ∉ events

/-- No opening comes after an authentication. -/
def OpenedFirst (events : List WireEvent) : Prop :=
  events.Pairwise fun earlier later ↦ earlier = .authenticated → later ≠ .opened

/-- What was not sent. -/
def WireEvent.refusal : WireEvent → Option Payload
  | .refused payload => some payload
  | _ => none

section Events

variable {channel : Channel} {events : List WireEvent} {event : WireEvent}

/-- `AllSent`, to be computed. -/
theorem allSent_iff : AllSent events ↔ ∀ event ∈ events, event.refusal.isNone := by
  constructor
  · intro h event hin
    cases event with
    | refused payload => exact absurd hin (h payload)
    | _ => rfl
  · intro h payload hin
    exact absurd (h _ hin) Bool.false_ne_true

instance : Decidable (AllSent events) := decidable_of_iff _ allSent_iff.symm

instance : Decidable (event = .authenticated) :=
  match event with
  | .authenticated => isTrue rfl
  | .opened => isFalse WireEvent.noConfusion
  | .sent _ => isFalse WireEvent.noConfusion
  | .refused _ => isFalse WireEvent.noConfusion

instance : Decidable (event = .opened) :=
  match event with
  | .opened => isTrue rfl
  | .authenticated => isFalse WireEvent.noConfusion
  | .sent _ => isFalse WireEvent.noConfusion
  | .refused _ => isFalse WireEvent.noConfusion

instance : Decidable (OpenedFirst events) :=
  inferInstanceAs (Decidable (events.Pairwise fun earlier later ↦
    earlier = .authenticated → later ≠ .opened))

theorem AllSent.append (h : AllSent (events ++ [event])) :
    AllSent events ∧ ∀ payload, event ≠ .refused payload := by
  constructor
  · exact fun payload hin ↦ h payload (List.mem_append_left _ hin)
  · rintro payload rfl
    exact h payload (List.mem_append_right _ (List.mem_singleton_self _))

theorem OpenedFirst.append (h : OpenedFirst (events ++ [event])) :
    OpenedFirst events ∧ (event = .opened → .authenticated ∉ events) := by
  obtain ⟨hevents, -, hlast⟩ := List.pairwise_append.1 h
  refine ⟨hevents, ?_⟩
  rintro rfl hin
  exact hlast _ hin _ (List.mem_singleton_self _) rfl rfl

@[simp] theorem subscribedOn_nil : subscribedOn channel [] = ∅ := rfl

@[simp] theorem subscribedOn_opened :
    subscribedOn channel (events ++ [.opened]) = subscribedOn channel events := by
  rw [subscribedOn, List.foldl_append]
  rfl

@[simp] theorem subscribedOn_authenticated :
    subscribedOn channel (events ++ [.authenticated]) = subscribedOn channel events := by
  rw [subscribedOn, List.foldl_append]
  rfl

@[simp] theorem subscribedOn_auth (key secret : String) :
    subscribedOn channel (events ++ [.sent (.auth key secret)]) = subscribedOn channel events := by
  rw [subscribedOn, List.foldl_append]
  rfl

@[simp] theorem subscribedOn_subscribe (symbolsOn : Channel → List String) :
    subscribedOn channel (events ++ [.sent (.subscription .subscribe symbolsOn)]) =
      subscribedOn channel events ∪ (symbolsOn channel).toFinset := by
  rw [subscribedOn, List.foldl_append]
  rfl

@[simp] theorem subscribedOn_unsubscribe (symbolsOn : Channel → List String) :
    subscribedOn channel (events ++ [.sent (.subscription .unsubscribe symbolsOn)]) =
      subscribedOn channel events \ (symbolsOn channel).toFinset := by
  rw [subscribedOn, List.foldl_append]
  rfl

end Events

/-! ## Agreement -/

/-- The flag and the subscriptions say the same: nothing before the first authentication, the target
from then on. -/
structure Agrees (config : Config) (target : Finset String) (flag : Bool)
    (events : List WireEvent) : Prop where
  before : .authenticated ∉ events → flag = false ∧ ∀ channel, subscribedOn channel events = ∅
  after : .authenticated ∈ events → flag = true ∧
    ∀ channel, config.enabledOn channel = true → subscribedOn channel events = target

/-- They agree, where sends succeed and openings come first. -/
def Settled (config : Config) (target : Finset String) (flag : Bool) (events : List WireEvent) :
    Prop := AllSent events → OpenedFirst events → Agrees config target flag events

/-- The target after a message about some symbols. -/
def SubscriptionAction.moved (action : SubscriptionAction) (target symbols : Finset String) :
    Finset String :=
  match action with
  | .subscribe => target ∪ symbols
  | .unsubscribe => target \ symbols

/-- The symbols of a message on a channel. -/
def messageOn (config : Config) (symbols : List String) (channel : Channel) : List String :=
  if config.enabledOn channel then normalizeStockSymbols symbols else []

section Agreement

variable {config : Config} {target : Finset String} {flag : Bool} {events : List WireEvent}
  {event : WireEvent} {symbols : List String}

theorem messageOn_toFinset (hsymbols : ∀ symbol ∈ symbols, NormalSymbol symbol) {channel : Channel}
    (hchannel : config.enabledOn channel = true) :
    (messageOn config symbols channel).toFinset = symbols.toFinset := by
  rw [messageOn, if_pos hchannel]
  ext symbol
  rw [List.mem_toFinset, List.mem_toFinset, mem_normalizeStockSymbols_of_normal hsymbols]

theorem Settled.nil : Settled config target false [] := by
  refine fun _ _ ↦ ⟨fun _ ↦ ⟨rfl, fun _ ↦ subscribedOn_nil⟩, fun h ↦ ?_⟩
  exact absurd h List.not_mem_nil

/-- While the flag is down the target does not matter. -/
theorem Settled.retarget (h : Settled config target false events) (target' : Finset String) :
    Settled config target' false events := fun hsent hfirst ↦
  ⟨(h hsent hfirst).before,
    fun hin ↦ absurd ((h hsent hfirst).after hin).1 Bool.false_ne_true⟩

theorem Settled.opened (h : Settled config target flag events) :
    Settled config target false (events ++ [.opened]) := by
  intro hsent hfirst
  obtain ⟨hfirst, hnone⟩ := hfirst.append
  have hagrees := h hsent.append.1 hfirst
  constructor
  · intro _
    refine ⟨rfl, fun channel ↦ ?_⟩
    rw [subscribedOn_opened]
    exact (hagrees.before (hnone rfl)).2 channel
  · intro hin
    rw [List.mem_append, List.mem_singleton] at hin
    rcases hin with hin | hin
    · exact absurd hin (hnone rfl)
    · exact absurd hin (by simp)

theorem Settled.auth {key secret : String} (h : Settled config target flag events)
    (hevent : event = .sent (.auth key secret) ∨ event = .refused (.auth key secret)) :
    Settled config target flag (events ++ [event]) := by
  intro hsent hfirst
  obtain ⟨hearlier, hnot⟩ := hsent.append
  obtain rfl := hevent.resolve_right (hnot _)
  have hagrees := h hearlier hfirst.append.1
  have hin : (.authenticated : WireEvent) ∈ events ++ [.sent (.auth key secret)] ↔
      .authenticated ∈ events := by simp
  constructor
  · intro hbefore
    obtain ⟨hflag, hempty⟩ := hagrees.before (hin.not.1 hbefore)
    exact ⟨hflag, fun channel ↦ (subscribedOn_auth key secret).trans (hempty channel)⟩
  · intro hafter
    obtain ⟨hflag, hequal⟩ := hagrees.after (hin.1 hafter)
    exact ⟨hflag, fun channel hchannel ↦
      (subscribedOn_auth key secret).trans (hequal channel hchannel)⟩

/-- After an authentication, what is subscribed is a part of the target. -/
theorem Settled.authenticated (h : Settled config target flag events) :
    ∃ part ⊆ target, Settled config part true (events ++ [.authenticated]) := by
  have hin : (.authenticated : WireEvent) ∈ events ++ [.authenticated] := by simp
  by_cases hearlier : (.authenticated : WireEvent) ∈ events
  · refine ⟨target, Finset.Subset.refl _, fun hsent hfirst ↦ ⟨fun hnot ↦ absurd hin hnot, ?_⟩⟩
    refine fun _ ↦ ⟨rfl, fun channel hchannel ↦ ?_⟩
    rw [subscribedOn_authenticated]
    exact ((h hsent.append.1 hfirst.append.1).after hearlier).2 channel hchannel
  · refine ⟨∅, Finset.empty_subset _, fun hsent hfirst ↦ ⟨fun hnot ↦ absurd hin hnot, ?_⟩⟩
    refine fun _ ↦ ⟨rfl, fun channel _ ↦ ?_⟩
    rw [subscribedOn_authenticated]
    exact ((h hsent.append.1 hfirst.append.1).before hearlier).2 channel

/-- With the flag up, what is sent moves the target. -/
theorem Settled.subscription (h : Settled config target true events) {action : SubscriptionAction}
    (hsymbols : ∀ symbol ∈ symbols, NormalSymbol symbol)
    (hevent : event = .sent (.subscription action (messageOn config symbols)) ∨
      event = .refused (.subscription action (messageOn config symbols))) :
    Settled config (action.moved target symbols.toFinset) true (events ++ [event]) := by
  intro hsent hfirst
  obtain ⟨hearlier, hnot⟩ := hsent.append
  obtain rfl := hevent.resolve_right (hnot _)
  have hagrees := h hearlier hfirst.append.1
  constructor
  · intro hbefore
    have hnone : (.authenticated : WireEvent) ∉ events := fun hin ↦
      hbefore (List.mem_append_left _ hin)
    exact absurd (hagrees.before hnone).1 (by simp)
  · intro hafter
    have hin : (.authenticated : WireEvent) ∈ events := by simpa using hafter
    refine ⟨rfl, fun channel hchannel ↦ ?_⟩
    have htarget := (hagrees.after hin).2 channel hchannel
    have hmessage := messageOn_toFinset hsymbols hchannel
    cases action with
    | subscribe =>
      rw [subscribedOn_subscribe, htarget, hmessage]
      rfl
    | unsubscribe =>
      rw [subscribedOn_unsubscribe, htarget, hmessage]
      rfl

end Agreement

/-! ## The invariant -/

/-- What is subscribed on the current socket is settled on a target. -/
structure FaithfulTo (config : Config) (target : Finset String) (s : State) : Prop where
  /-- Nothing happened on the sockets to come. -/
  fresh : ∀ socket, s.sockets.length ≤ socket → s.wire socket = []
  current : ∀ socket, s.socket = some socket →
    Settled config target s.authenticated (s.wire socket)

/-- The symbols are normal, and what is subscribed is settled on them. -/
structure Faithful (config : Config) (s : State) : Prop where
  normal : ∀ symbol ∈ s.symbols, NormalSymbol symbol
  settled : FaithfulTo config s.symbols.toFinset s

/-- The fields of the subscription are the same. -/
structure SameTalk (s s' : State) : Prop where
  symbols : s'.symbols = s.symbols
  socket : s'.socket = s.socket
  authenticated : s'.authenticated = s.authenticated
  sockets : s'.sockets = s.sockets
  wire : s'.wire = s.wire

section Invariant

variable {config : Config} {env : Outside} {s s' : State} {socket : SocketId} {now : Time}
  {target : Finset String} {symbols : List String}

theorem FaithfulTo.of_sameTalk (h : FaithfulTo config target s) (hsame : SameTalk s s') :
    FaithfulTo config target s' where
  fresh := by rw [hsame.sockets, hsame.wire]; exact h.fresh
  current := by rw [hsame.socket, hsame.authenticated, hsame.wire]; exact h.current

theorem Faithful.of_sameTalk (h : Faithful config s) (hsame : SameTalk s s') :
    Faithful config s' where
  normal := by rw [hsame.symbols]; exact h.normal
  settled := by rw [hsame.symbols]; exact h.settled.of_sameTalk hsame

theorem initial_faithful (config : Config) : Faithful config (initial config) where
  normal _ := normal_of_mem
  settled := ⟨fun _ _ ↦ rfl, fun _ h ↦ absurd h.symm (Option.some_ne_none _)⟩

/-! ### Events of the current socket -/

/-- An event is recorded, and the flag set. -/
theorem FaithfulTo.record (h : FaithfulTo config target s) (hknown : socket < s.sockets.length)
    {target' : Finset String} {event : WireEvent} (hsocket : s'.socket = some socket)
    (hsockets : s'.sockets = s.sockets) (hwire : s'.wire = (s.record socket event).wire)
    (hsettled : Settled config target' s'.authenticated (s.wire socket ++ [event])) :
    FaithfulTo config target' s' where
  fresh other hother := by
    rw [hsockets] at hother
    have hne : other ≠ socket := by
      rintro rfl
      exact absurd hknown (not_lt.2 hother)
    rw [hwire, s.record_wire_of_ne event hne]
    exact h.fresh other hother
  current other hother := by
    obtain rfl : socket = other := Option.some_inj.1 (hsocket.symm.trans hother)
    rw [hwire, s.record_wire_self]
    exact hsettled

/-- Credentials sent on the current socket subscribe nothing. -/
theorem FaithfulTo.send_auth (h : FaithfulTo config target s) (hsocket : s.socket = some socket)
    (hknown : socket < s.sockets.length) (key secret : String) :
    FaithfulTo config target (send env (.auth key secret) s).2 := by
  obtain ⟨event, lastError, hevent, heq⟩ := @send_some env (.auth key secret) s socket hsocket
  rw [heq]
  exact h.record hknown hsocket rfl rfl ((h.current socket hsocket).auth hevent)

/-- A subscription sent on the current socket moves the target. -/
theorem FaithfulTo.sendSubscription (h : FaithfulTo config target s)
    (hsocket : s.socket = some socket) (hknown : socket < s.sockets.length)
    (hflag : s.authenticated = true) (hsymbols : ∀ symbol ∈ symbols, NormalSymbol symbol)
    (action : SubscriptionAction) :
    FaithfulTo config (action.moved target symbols.toFinset)
      (sendSubscription config env action symbols s).2 := by
  obtain ⟨event, lastError, hevent, heq⟩ :=
    @send_some env (.subscription action (messageOn config symbols)) s socket hsocket
  have hsettled := h.current socket hsocket
  rw [hflag] at hsettled
  rw [StockStream.sendSubscription]
  change FaithfulTo config _ (send env (.subscription action (messageOn config symbols)) s).2
  rw [heq]
  refine h.record hknown hsocket rfl rfl ?_
  change Settled config _ s.authenticated _
  rw [hflag]
  exact hsettled.subscription hsymbols hevent

/-- Sending leaves the symbols and the flag. -/
theorem send_frame (env : Outside) (payload : Payload) (s : State) :
    (send env payload s).2.symbols = s.symbols ∧
      (send env payload s).2.authenticated = s.authenticated := by
  rcases h : s.socket with - | socket
  · rw [send_none h]
    exact ⟨rfl, rfl⟩
  · obtain ⟨event, lastError, -, heq⟩ := @send_some env payload s socket h
    rw [heq]
    exact ⟨rfl, rfl⟩

theorem onOpen_faithful (h : Faithful config s) (htidy : Tidy config s) :
    Faithful config (onOpen env socket now s) := by
  rw [onOpen]
  split_ifs with hguard
  · exact h
  · have hsocket : s.socket = some socket := not_not.1 fun hne ↦ hguard (.inl hne)
    have hknown : socket < s.sockets.length := htidy.known socket hsocket
    rcases hcredentials : s.sockets[socket]? with - | credentials
    · exact h
    · have hopened : FaithfulTo config s.symbols.toFinset (s.opened socket now) :=
        h.settled.record hknown hsocket rfl rfl (h.settled.current socket hsocket).opened
      obtain ⟨hsymbols, -⟩ :=
        send_frame env (.auth credentials.apiKey credentials.secretKey) (s.opened socket now)
      constructor
      · rw [hsymbols]
        exact h.normal
      · rw [hsymbols]
        exact hopened.send_auth hsocket hknown _ _

theorem onAuthenticated_faithful (h : Faithful config s) (htidy : Tidy config s)
    (hsocket : s.socket = some socket) : Faithful config (onAuthenticated config env socket s) := by
  have hknown : socket < s.sockets.length := htidy.known socket hsocket
  obtain ⟨part, hpart, hsettled⟩ := (h.settled.current socket hsocket).authenticated
  have haccepted : FaithfulTo config part (s.accepted socket) :=
    h.settled.record hknown hsocket rfl rfl hsettled
  -- What was subscribed before is a part of what is subscribed now.
  have hsent : FaithfulTo config (part ∪ s.symbols.toFinset)
      (sendSubscription config env .subscribe s.symbols (s.accepted socket)).2 :=
    haccepted.sendSubscription hsocket hknown rfl h.normal .subscribe
  rw [Finset.union_eq_right.2 hpart] at hsent
  obtain ⟨hsymbols, -⟩ := send_frame env
    (.subscription .subscribe (messageOn config s.symbols)) (s.accepted socket)
  have hsame : (onAuthenticated config env socket s).symbols = s.symbols := hsymbols
  constructor
  · rw [hsame]
    exact h.normal
  · rw [hsame]
    exact ⟨hsent.fresh, hsent.current⟩

/-! ### Changing the symbols -/

/-- Symbols are sent if there are any. -/
theorem FaithfulTo.sendIfAny (h : FaithfulTo config target s)
    (hsocket : s.socket = some socket) (hknown : socket < s.sockets.length)
    (hflag : s.authenticated = true) (hsymbols : ∀ symbol ∈ symbols, NormalSymbol symbol)
    (action : SubscriptionAction) :
    FaithfulTo config (action.moved target symbols.toFinset)
      (sendIfAny config env action symbols s) := by
  rw [StockStream.sendIfAny]
  split_ifs with hlength
  · exact h.sendSubscription hsocket hknown hflag hsymbols action
  · obtain rfl : symbols = [] := List.eq_nil_of_length_eq_zero (Nat.eq_zero_of_not_pos hlength)
    cases action with
    | subscribe => simpa [SubscriptionAction.moved] using h
    | unsubscribe => simpa [SubscriptionAction.moved] using h

theorem sendIfAny_frame (config : Config) (env : Outside) (action : SubscriptionAction)
    (symbols : List String) (s : State) :
    (sendIfAny config env action symbols s).symbols = s.symbols ∧
      (sendIfAny config env action symbols s).authenticated = s.authenticated := by
  rw [sendIfAny]
  split_ifs
  · exact send_frame env _ s
  · exact ⟨rfl, rfl⟩

/-- Adding what is new and removing what is old. -/
theorem moved_moved {previous next : List String} :
    SubscriptionAction.unsubscribe.moved
      (SubscriptionAction.subscribe.moved previous.toFinset
        (next.filter (· ∉ previous)).toFinset) (previous.filter (· ∉ next)).toFinset =
      next.toFinset := by
  ext symbol
  simp only [SubscriptionAction.moved, Finset.mem_sdiff, Finset.mem_union, List.mem_toFinset,
    List.mem_filter, decide_eq_true_eq]
  tauto

/-- The two messages of a change move the target from the old symbols to the new ones. -/
theorem FaithfulTo.change {previous next : List String}
    (h : FaithfulTo config previous.toFinset s) (hsocket : s.socket = some socket)
    (hknown : socket < s.sockets.length) (hflag : s.authenticated = true)
    (hprevious : ∀ symbol ∈ previous, NormalSymbol symbol)
    (hnext : ∀ symbol ∈ next, NormalSymbol symbol) :
    FaithfulTo config next.toFinset
      (StockStream.sendIfAny config env .unsubscribe (previous.filter (· ∉ next))
        (StockStream.sendIfAny config env .subscribe (next.filter (· ∉ previous)) s)) := by
  have hadded : FaithfulTo config _
      (StockStream.sendIfAny config env .subscribe (next.filter (· ∉ previous)) s) :=
    h.sendIfAny hsocket hknown hflag (fun symbol hin ↦ hnext symbol (List.mem_of_mem_filter hin))
      .subscribe
  have hlink : SameLink s
      (StockStream.sendIfAny config env .subscribe (next.filter (· ∉ previous)) s) :=
    sendIfAny_sameLink ..
  have hflag' := (sendIfAny_frame config env .subscribe (next.filter (· ∉ previous)) s).2
  rw [← moved_moved]
  exact hadded.sendIfAny (hlink.socket.trans hsocket) (by rw [hlink.sockets]; exact hknown)
    (hflag'.trans hflag) (fun symbol hin ↦ hprevious symbol (List.mem_of_mem_filter hin))
    .unsubscribe

theorem setSymbols_faithful (h : Faithful config s) (htidy : Tidy config s) :
    Faithful config (setSymbols config env symbols s) := by
  have hnext : ∀ symbol ∈ normalizeStockSymbols symbols, NormalSymbol symbol := fun _ ↦
    normal_of_mem
  rw [setSymbols]
  by_cases hflags : (s.socket.isSome && s.authenticated) = true
  · rw [if_pos hflags]
    obtain ⟨hsome, hflag⟩ := Bool.and_eq_true_iff.1 hflags
    obtain ⟨socket, hsocket⟩ := Option.isSome_iff_exists.1 hsome
    -- The changed state is settled on the symbols before the change.
    have hchanged : FaithfulTo config s.symbols.toFinset
        { s with symbols := normalizeStockSymbols symbols } :=
      ⟨h.settled.fresh, h.settled.current⟩
    have hdone := @FaithfulTo.change config env _ socket _ _ hchanged hsocket
      (htidy.known socket hsocket) hflag h.normal hnext
    constructor
    · rw [(sendIfAny_frame ..).1, (sendIfAny_frame ..).1]
      exact hnext
    · rw [(sendIfAny_frame ..).1, (sendIfAny_frame ..).1]
      exact hdone
  · rw [if_neg hflags]
    refine ⟨hnext, h.settled.fresh, fun socket hsocket ↦ ?_⟩
    -- With a socket the flag is down, and nothing is subscribed.
    have hsocket' : s.socket = some socket := hsocket
    have hflag : s.authenticated = false := by
      rw [hsocket', Option.isSome_some, Bool.true_and] at hflags
      exact Bool.eq_false_iff.2 hflags
    have hsettled := h.settled.current socket hsocket'
    rw [hflag] at hsettled
    change Settled config _ s.authenticated _
    rw [hflag]
    exact hsettled.retarget _

/-! ### Connecting and closing -/

theorem scheduleReconnect_sameTalk (config : Config) (now : Time) (s : State) :
    SameTalk s (scheduleReconnect config now s) := by
  rcases scheduleReconnect_cases config now s with
    ⟨heq, -⟩ | ⟨-, -, ⟨-, heq⟩ | ⟨nextReconnectAt, heq⟩⟩
  all_goals
    rw [heq]
    exact ⟨rfl, rfl, rfl, rfl, rfl⟩

/-- Nothing is subscribed on a new socket. -/
theorem connect_faithful (h : Faithful config s) (htidy : Tidy config s) :
    Faithful config (connect config env now s) := by
  rcases connect_cases config env now s with
    ⟨heq, -⟩ | ⟨-, hsocket, ⟨lastError, heq⟩ | ⟨credentials, heq⟩⟩
  · rw [heq]
    exact h
  · rw [heq]
    have hsame : SameTalk s { s with attempts := s.attempts + 1, lastError := lastError } :=
      ⟨rfl, rfl, rfl, rfl, rfl⟩
    exact (h.of_sameTalk hsame).of_sameTalk (scheduleReconnect_sameTalk ..)
  · rw [heq]
    refine ⟨h.normal, fun other hother ↦ ?_, fun socket hnew ↦ ?_⟩
    · rw [List.length_append] at hother
      exact h.settled.fresh other ((Nat.le_add_right _ _).trans hother)
    · obtain rfl : s.sockets.length = socket := Option.some_inj.1 hnew
      change Settled config _ s.authenticated (s.wire s.sockets.length)
      rw [h.settled.fresh _ le_rfl, (htidy.flags hsocket).2.1]
      exact Settled.nil

theorem start_faithful (h : Faithful config s) (htidy : Tidy config s) :
    Faithful config (start config env now s) := by
  rcases start_cases config env now s with
    ⟨-, heq⟩ | ⟨-, -, heq⟩ | ⟨-, henabled, heq⟩
  · rw [heq]
    exact h
  · rw [heq]
    exact h.of_sameTalk ⟨rfl, rfl, rfl, rfl, rfl⟩
  · rw [heq]
    exact connect_faithful (h.of_sameTalk ⟨rfl, rfl, rfl, rfl, rfl⟩) (htidy.switched_on henabled)

/-- Without a socket nothing is settled. -/
theorem Faithful.of_none (h : Faithful config s) (hsymbols : s'.symbols = s.symbols)
    (hsockets : s'.sockets = s.sockets) (hwire : s'.wire = s.wire) (hsocket : s'.socket = none) :
    Faithful config s' where
  normal := by rw [hsymbols]; exact h.normal
  settled := by
    refine ⟨by rw [hsockets, hwire]; exact h.settled.fresh, fun socket hin ↦ ?_⟩
    exact absurd (hin.symm.trans hsocket) (Option.some_ne_none _)

theorem handleSocketClose_faithful (h : Faithful config s) :
    Faithful config (handleSocketClose config socket now s) := by
  have hclosed : Faithful config s.closed := h.of_none rfl rfl rfl rfl
  rw [handleSocketClose]
  split_ifs
  · exact h
  · exact hclosed.of_sameTalk (scheduleReconnect_sameTalk ..)
  · exact hclosed

theorem handleSocketError_faithful (h : Faithful config s) :
    Faithful config (handleSocketError config socket now s) := by
  by_cases hsocket : s.socket = some socket
  · rw [handleSocketError_eq hsocket]
    exact handleSocketClose_faithful (h.of_sameTalk ⟨rfl, rfl, rfl, rfl, rfl⟩)
  · rw [handleSocketError_of_ne hsocket]
    exact h

end Invariant

/-! ## Steps and runs -/

section Step

variable [Conversion] {config : Config} {env : Outside} {s s' : State} {act : Act}

theorem handleMessage_faithful {socket : SocketId} (receivedAt : Time) (message : Fields)
    (h : Faithful config s) (htidy : Tidy config s) :
    Faithful config (handleMessage config env socket receivedAt message s) := by
  by_cases hsocket : s.socket = some socket
  · rcases @handleMessage_cases config env s socket _ receivedAt message hsocket with heq | heq
    · rw [heq]
      refine onAuthenticated_faithful (h.of_sameTalk ⟨rfl, rfl, rfl, rfl, rfl⟩) ?_ hsocket
      exact htidy.of_sameLink ⟨rfl, rfl, rfl, rfl, rfl, rfl⟩ htidy.flags
    · obtain ⟨subscribed, lastError, trades, quotes, bars, heq⟩ := heq
      rw [heq]
      exact h.of_sameTalk ⟨rfl, rfl, rfl, rfl, rfl⟩
  · rw [handleMessage_of_ne receivedAt message hsocket]
    exact h

theorem handleMessage_tidy {socket : SocketId} (receivedAt : Time) (message : Fields)
    (h : Tidy config s) : Tidy config (handleMessage config env socket receivedAt message s) := by
  by_cases hsocket : s.socket = some socket
  · have hsame : SameLink s (handleMessage config env socket receivedAt message s) :=
      handleMessage_sameLink receivedAt message s
    refine h.of_sameLink hsame fun hnone ↦ ?_
    rw [hsame.socket, hsocket] at hnone
    exact absurd hnone (Option.some_ne_none _)
  · rw [handleMessage_of_ne receivedAt message hsocket]
    exact h

theorem onSocketEvent_faithful (socket : SocketId) (event : SocketEvent) (h : Faithful config s)
    (htidy : Tidy config s) : Faithful config (onSocketEvent config env socket event s) := by
  rw [onSocketEvent.eq_def]
  cases event with
  | opened now => exact onOpen_faithful h htidy
  | message parsed now =>
    have hkeeps := @handleRawMessage_keeps config env s socket _
      (fun t ↦ Faithful config t ∧ Tidy config t) parsed now
    refine (hkeeps (fun t receivedAt message ht ↦ ?_) ⟨h, htidy⟩).1
    exact ⟨handleMessage_faithful receivedAt message ht.1 ht.2,
      handleMessage_tidy receivedAt message ht.2⟩
  | error now => exact handleSocketError_faithful h
  | closed now => exact handleSocketClose_faithful h

/-- **One step** keeps the invariant. -/
theorem step_faithful (h : Faithful config s) (htidy : Tidy config s)
    (hstep : step config env act s = some s') : Faithful config s' := by
  rw [step.eq_def] at hstep
  cases act with
  | start now => exact Option.some_inj.1 hstep ▸ start_faithful h htidy
  | stop => exact Option.some_inj.1 hstep ▸ h.of_none rfl rfl rfl rfl
  | setSymbols symbols => exact Option.some_inj.1 hstep ▸ setSymbols_faithful h htidy
  | timerFires timer now =>
    obtain ⟨htimer, heq⟩ := Option.ite_none_right_eq_some.1 hstep
    have hfired : Faithful config
        { s with pending := s.pending.filter (·.1 ≠ timer), reconnectTimer := none } :=
      h.of_sameTalk ⟨rfl, rfl, rfl, rfl, rfl⟩
    exact Option.some_inj.1 heq ▸ connect_faithful hfired (htidy.fired htimer)
  | socket socket event =>
    obtain ⟨-, heq⟩ := Option.ite_none_right_eq_some.1 hstep
    exact Option.some_inj.1 heq ▸ onSocketEvent_faithful socket event h htidy
  | consumerFails => exact Option.some_inj.1 hstep ▸ h.of_sameTalk ⟨rfl, rfl, rfl, rfl, rfl⟩

variable {acts : List Act}

theorem runActs_faithful (h : Faithful config s) (htidy : Tidy config s)
    (hrun : runActs (step config env) s acts = some s') : Faithful config s' := by
  have hboth := @invariant_of_run State Act (step config env)
    (fun t ↦ Faithful config t ∧ Tidy config t)
    (fun t a t' ht hstep ↦ ⟨step_faithful ht.1 ht.2 hstep, step_tidy ht.2 hstep⟩)
    s s' acts ⟨h, htidy⟩ hrun
  exact hboth.1

/-! ## Every run -/

/-- **One connection and one subscription set**, in every state the service reaches. -/
theorem owns_one_connection (config : Config) (env : Outside)
    (hrun : runActs (step config env) (initial config) acts = some s) :
    (s.pending.length ≤ 1 ∧ (s.socket = none ∨ s.pending = [])) ∧
    (∀ socket event, s.socket ≠ some socket → onSocketEvent config env socket event s = s) ∧
    (∀ later s', runActs (step config env) (stop s) later = some s' →
      (∀ socket < s.sockets.length, ∀ event, onSocketEvent config env socket event s' = s') ∧
      ((∀ a ∈ later, ∀ now, a ≠ .start now) → s'.socket = none ∧ s'.pending = [])) ∧
    ((∀ a ∈ acts, Dated config a) → s.running = true → s.socket.isSome ∨ s.pending ≠ []) ∧
    (∀ timer ∈ s.pending, timer.2 ≤ config.reconnectMaxMs) ∧
    (∀ socket, s.socket = some socket → s.authenticated = true → AllSent (s.wire socket) →
      OpenedFirst (s.wire socket) → ∀ channel, config.enabledOn channel = true →
      subscribedOn channel (s.wire socket) = s.symbols.toFinset) := by
  have htidy : Tidy config s := runActs_tidy (initial_tidy config) hrun
  have hfaithful : Faithful config s :=
    runActs_faithful (initial_faithful config) (initial_tidy config) hrun
  refine ⟨⟨?_, ?_⟩, fun socket event h ↦ onSocketEvent_of_ne event h, ?_, ?_, htidy.delays, ?_⟩
  · -- The timers that are set are those in one optional field.
    have hlength := congrArg List.length htidy.pending_eq
    rw [List.length_map] at hlength
    rw [hlength]
    exact Option.length_toList_le
  · exact htidy.exclusive.imp_right htidy.pending_eq_nil.2
  · intro later s' hlater
    constructor
    · intro socket hsocket event
      refine onSocketEvent_of_ne event fun hcurrent ↦ ?_
      have hnewer := runActs_newer (s := stop s) le_rfl
        (fun _ h ↦ absurd h.symm (Option.some_ne_none _)) hlater socket hcurrent
      exact absurd hsocket (not_lt.2 hnewer)
    · exact fun hacts ↦ runActs_stopped (stop_tidy htidy) rfl hacts hlater
  · intro hdated hrunning
    have halive : Alive s := runActs_alive (initial_tidy config)
      (fun h ↦ absurd h Bool.false_ne_true) hdated hrun
    refine (halive hrunning).imp_right fun htimer ↦ ?_
    rw [Ne, htidy.pending_eq_nil]
    exact Option.isSome_iff_ne_none.1 htimer
  · intro socket hsocket hflag hsent hfirst
    have hagrees := hfaithful.settled.current socket hsocket hsent hfirst
    have hin : .authenticated ∈ s.wire socket := by
      by_contra hnot
      exact absurd ((hagrees.before hnot).1.symm.trans hflag) Bool.false_ne_true
    exact (hagrees.after hin).2

end Step

/-! ### Runs -/

/-- No text is a number. -/
@[reducible] def noNumbers : Conversion where
  numberOfText _ := .notFinite
  numberOfArray _ := .notFinite

/-- Two symbols, with the delays of the defaults. -/
def twoSymbols : Config where
  enabled := true
  feed := .sip
  symbols := ["AAPL", "MSFT"]
  trades := true
  quotes := true
  bars := true
  reconnectMs := 5000
  reconnectMaxMs := 60000

/-- Every attempt and every send succeeds. -/
def connects : Outside where
  attempt _ := .connected ⟨"key", "secret"⟩
  sendOutcome _ := .sent
  dateParses _ := true

/-- No attempt succeeds. -/
def noCredentials : Outside where
  attempt _ := .noCredentials
  sendOutcome _ := .notOpen
  dateParses _ := true

/-- The message that the credentials are good. -/
def authenticatedMessage : SocketEvent :=
  .message (some (.object [("T", .text "success"), ("msg", .text "authenticated")])) fun _ ↦ 0

/-- A run with one symbol fewer after the authentication. -/
def oneRemoved : List Act :=
  [.start 0, .socket 0 (.opened 0), .socket 0 authenticatedMessage, .setSymbols ["AAPL"]]

theorem owns_one_connection_oneRemoved :
    ∃ s, @runActs State Act (@step noNumbers twoSymbols connects) (initial twoSymbols) oneRemoved =
      some s ∧ s.symbols = ["AAPL"] ∧
      subscribedOn .trades (s.wire 0) = s.symbols.toFinset := by
  have hrun : ((@runActs State Act (@step noNumbers twoSymbols connects) (initial twoSymbols)
      oneRemoved).map fun s ↦ decide (s.socket = some 0 ∧ s.authenticated = true ∧
        AllSent (s.wire 0) ∧ OpenedFirst (s.wire 0) ∧ s.symbols = ["AAPL"])) = some true := by
    decide +kernel
  obtain ⟨s, hs, hend⟩ := Option.map_eq_some_iff.1 hrun
  obtain ⟨hsocket, hflag, hsent, hfirst, hsymbols⟩ := of_decide_eq_true hend
  have hall := @owns_one_connection noNumbers s oneRemoved twoSymbols connects hs
  exact ⟨s, hs, hsymbols, hall.2.2.2.2.2 0 hsocket hflag hsent hfirst .trades rfl⟩

/-- The socket opens again after the authentication, and is authenticated again. -/
def openedAgain : List Act :=
  [.start 0, .socket 0 (.opened 0), .socket 0 authenticatedMessage, .socket 0 (.opened 0),
    .setSymbols ["AAPL"], .socket 0 authenticatedMessage]

/-- Delays for which there is no date. -/
def farDelays : Config := { twoSymbols with reconnectMs := 10 ^ 17, reconnectMaxMs := 10 ^ 17 }

/-- **Where it fails.**  A symbol stays subscribed when the socket opens a second time, and the
service has neither socket nor timer when the next attempt has no date. -/
theorem opened_again_and_far_delays :
    (∃ s, @runActs State Act (@step noNumbers twoSymbols connects) (initial twoSymbols)
        openedAgain = some s ∧
      s.socket = some 0 ∧ s.authenticated = true ∧ AllSent (s.wire 0) ∧
      subscribedOn .trades (s.wire 0) ≠ s.symbols.toFinset) ∧
    (∃ s, @runActs State Act (@step noNumbers farDelays noCredentials) (initial farDelays)
        [.start 0] = some s ∧
      s.running = true ∧ farDelays.enabled = true ∧ s.socket = none ∧ s.pending = []) := by
  have hagain : ((@runActs State Act (@step noNumbers twoSymbols connects) (initial twoSymbols)
      openedAgain).map fun s ↦ decide (s.socket = some 0 ∧ s.authenticated = true ∧
        AllSent (s.wire 0) ∧ subscribedOn .trades (s.wire 0) ≠ s.symbols.toFinset)) =
      some true := by decide +kernel
  have hfar : ((@runActs State Act (@step noNumbers farDelays noCredentials) (initial farDelays)
      [.start 0]).map fun s ↦ decide (s.running = true ∧ farDelays.enabled = true ∧
        s.socket = none ∧ s.pending = [])) = some true := by decide +kernel
  obtain ⟨s, hs, hend⟩ := Option.map_eq_some_iff.1 hagain
  obtain ⟨s', hs', hend'⟩ := Option.map_eq_some_iff.1 hfar
  exact ⟨⟨s, hs, of_decide_eq_true hend⟩, ⟨s', hs', of_decide_eq_true hend'⟩⟩

end StockStream

end AlpacaTrading
