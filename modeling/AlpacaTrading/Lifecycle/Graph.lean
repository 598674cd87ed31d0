import AlpacaTrading.Lib.Text

/-!
# The trade lifecycle graph

An order intent carries a lifecycle state besides its status.  The states form a fixed directed
graph; a broker observation moves an intent along the shortest path of that graph to the state
the broker status stands for.

## Search

`resolveLifecycleTransitionPath` is a breadth-first search.  Every state enters the queue at most
once, so `26` rounds are enough; `search_complete` checks that the bound is never what ends it.
-/

namespace AlpacaTrading

/-! ## States and edges -/

/-- `AUTONOMOUS_TRADE_LIFECYCLE_STATES`. -/
inductive LifecycleState where
  | candidateCreated | reviewCreated | confirmed | readyForSubmission
  | submissionAttemptPersisted | submissionAmbiguous | brokerOrderDiscovered
  | brokerOrderAccepted | partiallyFilled | filled | positionReconciled
  | exitEvaluated | exitReviewCreated | exitConfirmed | exitReadyForSubmission
  | exitSubmissionAttemptPersisted | exitSubmissionAmbiguous | exitBrokerOrderDiscovered
  | exitPartiallyFilled | closed | cancelRequested | cancelAmbiguous | cancelled
  | rejected | expired | failedTerminal
deriving DecidableEq, Repr

/-- Whether a review opens or closes a position. -/
inductive ReviewType where
  | entry | exit
deriving DecidableEq, Repr

namespace LifecycleState

/-- Every state, in the order of the source. -/
def all : List LifecycleState :=
  [candidateCreated, reviewCreated, confirmed, readyForSubmission, submissionAttemptPersisted,
    submissionAmbiguous, brokerOrderDiscovered, brokerOrderAccepted, partiallyFilled, filled,
    positionReconciled, exitEvaluated, exitReviewCreated, exitConfirmed, exitReadyForSubmission,
    exitSubmissionAttemptPersisted, exitSubmissionAmbiguous, exitBrokerOrderDiscovered,
    exitPartiallyFilled, closed, cancelRequested, cancelAmbiguous, cancelled, rejected, expired,
    failedTerminal]

theorem mem_all (s : LifecycleState) : s ∈ all := by
  cases s <;> decide

/-- The text of a state. -/
def name : LifecycleState → String
  | candidateCreated => "candidate_created"
  | reviewCreated => "review_created"
  | confirmed => "confirmed"
  | readyForSubmission => "ready_for_submission"
  | submissionAttemptPersisted => "submission_attempt_persisted"
  | submissionAmbiguous => "submission_ambiguous"
  | brokerOrderDiscovered => "broker_order_discovered"
  | brokerOrderAccepted => "broker_order_accepted"
  | partiallyFilled => "partially_filled"
  | filled => "filled"
  | positionReconciled => "position_reconciled"
  | exitEvaluated => "exit_evaluated"
  | exitReviewCreated => "exit_review_created"
  | exitConfirmed => "exit_confirmed"
  | exitReadyForSubmission => "exit_ready_for_submission"
  | exitSubmissionAttemptPersisted => "exit_submission_attempt_persisted"
  | exitSubmissionAmbiguous => "exit_submission_ambiguous"
  | exitBrokerOrderDiscovered => "exit_broker_order_discovered"
  | exitPartiallyFilled => "exit_partially_filled"
  | closed => "closed"
  | cancelRequested => "cancel_requested"
  | cancelAmbiguous => "cancel_ambiguous"
  | cancelled => "cancelled"
  | rejected => "rejected"
  | expired => "expired"
  | failedTerminal => "failed_terminal"

/-- The states reachable in one transition, in the order the source lists them. -/
def transitions : LifecycleState → List LifecycleState
  | candidateCreated => [reviewCreated, failedTerminal]
  | reviewCreated => [confirmed, failedTerminal]
  | confirmed => [readyForSubmission, failedTerminal]
  | readyForSubmission => [submissionAttemptPersisted, cancelRequested]
  | submissionAttemptPersisted =>
    [submissionAmbiguous, brokerOrderDiscovered, cancelled, rejected, expired]
  | submissionAmbiguous => [brokerOrderDiscovered, failedTerminal]
  | brokerOrderDiscovered => [brokerOrderAccepted, cancelled, rejected, expired, cancelRequested]
  | brokerOrderAccepted =>
    [partiallyFilled, filled, cancelled, rejected, expired, cancelRequested]
  | partiallyFilled =>
    [filled, positionReconciled, cancelled, rejected, expired, cancelRequested]
  | filled => [positionReconciled, exitEvaluated]
  | positionReconciled => [exitEvaluated]
  | exitEvaluated => [exitReviewCreated, closed]
  | exitReviewCreated => [exitConfirmed]
  | exitConfirmed => [exitReadyForSubmission]
  | exitReadyForSubmission => [exitSubmissionAttemptPersisted, cancelRequested]
  | exitSubmissionAttemptPersisted =>
    [exitSubmissionAmbiguous, exitBrokerOrderDiscovered, cancelled, rejected, expired]
  | exitSubmissionAmbiguous => [exitBrokerOrderDiscovered, failedTerminal]
  | exitBrokerOrderDiscovered =>
    [exitPartiallyFilled, closed, cancelled, rejected, expired, cancelRequested]
  | exitPartiallyFilled => [closed, cancelled, rejected, expired, cancelRequested]
  | closed => []
  | cancelRequested =>
    [cancelAmbiguous, filled, exitBrokerOrderDiscovered, rejected, expired, cancelled,
      failedTerminal]
  | cancelAmbiguous =>
    [filled, exitBrokerOrderDiscovered, rejected, expired, cancelled, failedTerminal]
  | cancelled => []
  | rejected => []
  | expired => []
  | failedTerminal => []

end LifecycleState

/-! ## Shortest paths -/

/-- The state of the breadth-first search. -/
structure Search where
  /-- Paths still to be extended. -/
  queue : List (List LifecycleState)
  /-- States that already have a path. -/
  visited : List LifecycleState
deriving DecidableEq

/-- The inner loop: extend `path` by each successor, until the target turns up. -/
def extendPath (target : LifecycleState) (path : List LifecycleState) :
    List LifecycleState → Search → Search ⊕ List LifecycleState
  | [], search => .inl search
  | next :: rest, search =>
    if next ∈ search.visited then extendPath target path rest search
    else if next = target then .inr (path ++ [next])
    else extendPath target path rest
      { queue := search.queue ++ [path ++ [next]], visited := next :: search.visited }

/-- The outer loop, for a bounded number of rounds. -/
def searchPath (target : LifecycleState) : Nat → Search → Search ⊕ List LifecycleState
  | 0, search => .inl search
  | rounds + 1, search =>
    match search.queue with
    | [] => .inl search
    | path :: queue =>
      let successors := (path.getLast?.map LifecycleState.transitions).getD []
      match extendPath target path successors { search with queue } with
      | .inl search' => searchPath target rounds search'
      | .inr found => .inr found

/-- `resolveLifecycleTransitionPath`: the path from one state to another, or the error
`NO_VALID_LIFECYCLE_PATH`. -/
def resolveLifecycleTransitionPath (fromState toState : LifecycleState) :
    Except String (List LifecycleState) :=
  if fromState = toState then .ok [fromState]
  else match searchPath toState 26 { queue := [[fromState]], visited := [fromState] } with
    | .inr path => .ok path
    | .inl _ => .error "NO_VALID_LIFECYCLE_PATH"

/-- The search never runs out of rounds: when it finds nothing, nothing is left in the queue. -/
theorem search_complete : ∀ fromState toState : LifecycleState,
    ∀ search, searchPath toState 26 { queue := [[fromState]], visited := [fromState] } =
      .inl search → search.queue = [] := by
  have h : ∀ fromState ∈ LifecycleState.all, ∀ toState ∈ LifecycleState.all,
      (match searchPath toState 26 { queue := [[fromState]], visited := [fromState] } with
        | .inl search => search.queue.isEmpty
        | .inr _ => true) = true := by decide +kernel
  intro fromState toState search hsearch
  have := h fromState (LifecycleState.mem_all _) toState (LifecycleState.mem_all _)
  rw [hsearch] at this
  exact List.isEmpty_iff.1 this

/-- A path leads from its first argument to its second. -/
theorem path_ends {fromState toState : LifecycleState} {path : List LifecycleState}
    (hpath : resolveLifecycleTransitionPath fromState toState = .ok path) :
    path.head? = some fromState ∧ path.getLast? = some toState := by
  have h : ∀ a ∈ LifecycleState.all, ∀ b ∈ LifecycleState.all,
      (match resolveLifecycleTransitionPath a b with
        | .ok path => decide (path.head? = some a ∧ path.getLast? = some b)
        | .error _ => true) = true := by decide +kernel
  have := h fromState (LifecycleState.mem_all _) toState (LifecycleState.mem_all _)
  rw [hpath] at this
  simpa using this

/-- No path leads from a state a terminal order status stands for back to one of an open order. -/
theorem no_path_reopens {fromState toState : LifecycleState} {path : List LifecycleState}
    (hfrom : fromState ∈ [.filled, .cancelled, .rejected, .expired])
    (hto : toState ∈ [.partiallyFilled, .brokerOrderAccepted, .brokerOrderDiscovered]) :
    resolveLifecycleTransitionPath fromState toState ≠ .ok path := by
  have h : ∀ a ∈ [LifecycleState.filled, .cancelled, .rejected, .expired],
      ∀ b ∈ [LifecycleState.partiallyFilled, .brokerOrderAccepted, .brokerOrderDiscovered],
      resolveLifecycleTransitionPath a b = .error "NO_VALID_LIFECYCLE_PATH" := by decide +kernel
  rw [h fromState hfrom toState hto]
  simp

/-- No path leads out of a state without transitions. -/
theorem path_of_ended {fromState toState : LifecycleState} {path : List LifecycleState}
    (hfrom : fromState.transitions = [])
    (hpath : resolveLifecycleTransitionPath fromState toState = .ok path) :
    toState = fromState := by
  have h : ∀ a ∈ LifecycleState.all, a.transitions = [] → ∀ b ∈ LifecycleState.all,
      b = a ∨ resolveLifecycleTransitionPath a b = .error "NO_VALID_LIFECYCLE_PATH" := by
    decide +kernel
  rcases h fromState (LifecycleState.mem_all _) hfrom toState (LifecycleState.mem_all _) with
    heq | herror
  · exact heq
  · rw [herror] at hpath
    cases hpath

/-! ## Broker statuses -/

/-- `lifecycleStateForBrokerStatus`. -/
def lifecycleStateForBrokerStatus (reviewType : ReviewType) (brokerStatus : String) :
    LifecycleState :=
  let status := Text.toLowerCase (Text.trim brokerStatus)
  if status = "canceled" ∨ status = "cancelled" then .cancelled
  else if status = "rejected" then .rejected
  else if status = "expired" then .expired
  else match reviewType with
    | .exit =>
      if status = "partially_filled" then .exitPartiallyFilled else .exitBrokerOrderDiscovered
    | .entry =>
      if status = "partially_filled" then .partiallyFilled
      else if status = "filled" then .filled
      else if status ∈ ["accepted", "new", "pending_new", "held"] then .brokerOrderAccepted
      else .brokerOrderDiscovered

/-- `resolveBrokerReconciliationLifecyclePath`.  Stored lifecycle states satisfy the check
constraint of their column, so the state is one of the graph. -/
def resolveBrokerReconciliationLifecyclePath (fromState : LifecycleState)
    (reviewType : ReviewType) (brokerStatus : String) : Except String (List LifecycleState) :=
  let status := Text.toLowerCase (Text.trim brokerStatus)
  if reviewType = .exit ∧ status = "filled" ∧ fromState = .exitPartiallyFilled then
    .ok [fromState]
  else if fromState ∈ [.cancelRequested, .cancelAmbiguous] ∧
      status ∉ ["filled", "canceled", "cancelled", "rejected", "expired"] then
    .ok [fromState]
  else resolveLifecycleTransitionPath fromState (lifecycleStateForBrokerStatus reviewType status)

end AlpacaTrading
