import AlpacaTrading.Broker.OrderStatus
import AlpacaTrading.Lib.Table
import AlpacaTrading.Lifecycle.Graph

/-!
# Broker statuses along the lifecycle

Reconciliation moves an intent along a shortest path of the lifecycle graph to the state a broker
status stands for.  The graph joins the entry leg, the exit leg and the cancellation states, and
the search knows nothing about them.

## Live orders

`followStatuses` applies a list of statuses one after another.  An exit always finds a path while
its order is live; an entry does as long as no status stands for an earlier phase of the order
than a status before it.

## Entries

`entryStates` are the states the services ever store for an entry.  From two of them the shortest
path leaves the entry leg: from `filled` to an end without a fill it runs through the whole exit
leg, and from `review_created` to `filled` through `cancel_requested`.
-/

namespace AlpacaTrading

/-! ## The state a status stands for -/

/-- The states broker statuses stand for. -/
def statusStates : ReviewType → List LifecycleState
  | .entry => [.cancelled, .rejected, .expired, .partiallyFilled, .filled, .brokerOrderAccepted,
      .brokerOrderDiscovered]
  | .exit => [.cancelled, .rejected, .expired, .exitPartiallyFilled, .exitBrokerOrderDiscovered]

theorem lifecycleStateForBrokerStatus_mem (type : ReviewType) (status : String) :
    lifecycleStateForBrokerStatus type status ∈ statusStates type := by
  unfold lifecycleStateForBrokerStatus
  rcases type with - | -
  · dsimp only
    split_ifs <;> simp [statusStates]
  · dsimp only
    split_ifs <;> simp [statusStates]

/-- A status and its normal form stand for the same state. -/
theorem lifecycleStateForBrokerStatus_normalize (type : ReviewType) (status : String) :
    lifecycleStateForBrokerStatus type (Text.toLowerCase (Text.trim status)) =
      lifecycleStateForBrokerStatus type status := by
  unfold lifecycleStateForBrokerStatus
  rw [Text.normalize_normalize]

/-- The states in which a cancellation is under way. -/
def cancellationStates : List LifecycleState := [.cancelRequested, .cancelAmbiguous]

/-- Outside the two special cases a status leads along the shortest path to its state. -/
theorem resolve_eq_path {l : LifecycleState} {type : ReviewType} {status : String}
    (hfilled : type = .exit → l ≠ .exitPartiallyFilled) (hcancel : l ∉ cancellationStates) :
    resolveBrokerReconciliationLifecyclePath l type status =
      resolveLifecycleTransitionPath l (lifecycleStateForBrokerStatus type status) := by
  unfold resolveBrokerReconciliationLifecyclePath
  dsimp only
  rw [if_neg, if_neg, lifecycleStateForBrokerStatus_normalize]
  · rintro ⟨hin, _⟩
    exact hcancel hin
  · rintro ⟨htype, _, hl⟩
    exact hfilled htype hl

/-! ## Live orders -/

/-- What the broker reports of an order: its status and the quantity filled so far. -/
structure StatusReport where
  status : String
  filled : ℚ

/-- The state after reports applied one after another, or the first error. -/
def followStatuses (type : ReviewType) :
    LifecycleState → List StatusReport → Except String LifecycleState
  | l, [] => .ok l
  | l, report :: rest => do
    let path ← resolveBrokerReconciliationLifecyclePath l type report.status
    followStatuses type (path.getLast?.getD l) rest

theorem followStatuses_cons {type : ReviewType} {l l' : LifecycleState} {report : StatusReport}
    {rest : List StatusReport} :
    followStatuses type l (report :: rest) = .ok l' ↔
      ∃ path, resolveBrokerReconciliationLifecyclePath l type report.status = .ok path ∧
        followStatuses type (path.getLast?.getD l) rest = .ok l' := by
  rw [followStatuses, bind_eq_ok]

theorem followStatuses_concat {type : ReviewType} {l l₁ l' : LifecycleState}
    {reports rest : List StatusReport} (h : followStatuses type l reports = .ok l₁)
    (hrest : followStatuses type l₁ rest = .ok l') :
    followStatuses type l (reports ++ rest) = .ok l' := by
  induction reports generalizing l with
  | nil =>
    obtain rfl := Except.ok.inj h
    exact hrest
  | cons report reports ih =>
    obtain ⟨path, hpath, hlater⟩ := followStatuses_cons.1 h
    exact followStatuses_cons.2 ⟨path, hpath, ih hlater⟩

/-- A path that exists ends in its target. -/
theorem exists_path {l target : LifecycleState}
    (h : (resolveLifecycleTransitionPath l target).isOk = true) :
    ∃ path, resolveLifecycleTransitionPath l target = .ok path ∧
      path.getLast?.getD l = target := by
  rcases hpath : resolveLifecycleTransitionPath l target with code | path
  · rw [hpath] at h
    cases h
  · refine ⟨path, rfl, ?_⟩
    rw [(path_ends hpath).2, Option.getD_some]

/-- A status the classifier does not call terminal stands for none of the ends. -/
theorem live_status {type : ReviewType} {status : String}
    (h : (classifyBrokerOrderStatus status).terminal = false) :
    lifecycleStateForBrokerStatus type status ∈ (match type with
      | .entry => [.partiallyFilled, .brokerOrderAccepted, .brokerOrderDiscovered]
      | .exit => [.exitPartiallyFilled, .exitBrokerOrderDiscovered] : List LifecycleState) := by
  simp only [classifyBrokerOrderStatus, terminalBrokerOrderStatuses, decide_eq_false_iff_not,
    List.mem_cons, List.not_mem_nil, not_or, or_false] at h
  obtain ⟨hcanceled, hcancelled, hexpired, hfilled, hrejected, _⟩ := h
  unfold lifecycleStateForBrokerStatus
  dsimp only
  rw [if_neg (not_or.2 ⟨hcanceled, hcancelled⟩), if_neg hrejected, if_neg hexpired]
  rcases type with - | -
  · dsimp only
    rw [if_neg hfilled]
    split_ifs <;> simp
  · dsimp only
    split_ifs <;> simp

/-! ### Exits -/

/-- The states of an exit whose order may be live. -/
def liveExitStates : List LifecycleState :=
  [.exitSubmissionAttemptPersisted, .exitBrokerOrderDiscovered, .exitPartiallyFilled]

/-- A live exit follows every status; a fill after a partial fill leaves it where it is. -/
theorem exit_follows {l : LifecycleState} (hl : l ∈ liveExitStates) (status : String) :
    ∃ path, resolveBrokerReconciliationLifecyclePath l .exit status = .ok path ∧
      path.getLast?.getD l =
        if l = .exitPartiallyFilled ∧ Text.toLowerCase (Text.trim status) = "filled" then l
        else lifecycleStateForBrokerStatus .exit status := by
  have hout : ∀ l ∈ liveExitStates, l ∉ cancellationStates := by decide
  have hpaths : ∀ l ∈ liveExitStates, ∀ target ∈ statusStates .exit,
      (resolveLifecycleTransitionPath l target).isOk = true := by decide +kernel
  by_cases hstay : l = .exitPartiallyFilled ∧ Text.toLowerCase (Text.trim status) = "filled"
  · rw [if_pos hstay]
    refine ⟨[l], ?_, rfl⟩
    unfold resolveBrokerReconciliationLifecyclePath
    dsimp only
    rw [if_pos ⟨rfl, hstay.2, hstay.1⟩]
  · rw [if_neg hstay]
    have hresolve : resolveBrokerReconciliationLifecyclePath l .exit status =
        resolveLifecycleTransitionPath l (lifecycleStateForBrokerStatus .exit status) := by
      unfold resolveBrokerReconciliationLifecyclePath
      dsimp only
      rw [if_neg, if_neg, lifecycleStateForBrokerStatus_normalize]
      · rintro ⟨hin, _⟩
        exact hout l hl hin
      · rintro ⟨_, hfilled, hpartly⟩
        exact hstay ⟨hpartly, hfilled⟩
    rw [hresolve]
    exact exists_path (hpaths l hl _ (lifecycleStateForBrokerStatus_mem .exit status))

theorem exit_follows_live {reports : List StatusReport} {l : LifecycleState}
    (hl : l ∈ liveExitStates)
    (hlive : ∀ report ∈ reports, (classifyBrokerOrderStatus report.status).terminal = false) :
    ∃ l' ∈ liveExitStates, followStatuses .exit l reports = .ok l' := by
  induction reports generalizing l with
  | nil => exact ⟨l, hl, rfl⟩
  | cons report rest ih =>
    obtain ⟨path, hpath, hlast⟩ := exit_follows hl report.status
    have hnext : path.getLast?.getD l ∈ liveExitStates := by
      have htarget := @live_status .exit _ (hlive report List.mem_cons_self)
      rw [hlast]
      split_ifs
      · exact hl
      · exact List.mem_cons_of_mem _ (by simpa [or_comm] using htarget)
    obtain ⟨l', hl', hrest⟩ := ih hnext fun r hr ↦ hlive r (List.mem_cons_of_mem _ hr)
    exact ⟨l', hl', followStatuses_cons.2 ⟨path, hpath, hrest⟩⟩

/-! ### Entries -/

/-- How far an entry order is: sent, known, accepted, partly filled, or at an end. -/
def entryPhase : LifecycleState → Nat
  | .submissionAttemptPersisted => 0
  | .brokerOrderDiscovered => 1
  | .brokerOrderAccepted => 2
  | .partiallyFilled => 3
  | _ => 4

/-- The states of an entry whose order may be live. -/
def liveEntryStates : List LifecycleState :=
  [.submissionAttemptPersisted, .brokerOrderDiscovered, .brokerOrderAccepted, .partiallyFilled]

/-- A live entry follows every status that stands for no earlier phase. -/
theorem entry_follows {l : LifecycleState} (hl : l ∈ liveEntryStates) {status : String}
    (hphase : entryPhase l ≤ entryPhase (lifecycleStateForBrokerStatus .entry status)) :
    ∃ path, resolveBrokerReconciliationLifecyclePath l .entry status = .ok path ∧
      path.getLast?.getD l = lifecycleStateForBrokerStatus .entry status := by
  have hout : ∀ l ∈ liveEntryStates, l ∉ cancellationStates := by decide
  have hpaths : ∀ l ∈ liveEntryStates, ∀ target ∈ statusStates .entry,
      entryPhase l ≤ entryPhase target →
      (resolveLifecycleTransitionPath l target).isOk = true := by decide +kernel
  have hexit : ReviewType.entry = .exit → l ≠ .exitPartiallyFilled := by
    intro h
    cases h
  rw [resolve_eq_path hexit (hout l hl)]
  exact exists_path (hpaths l hl _ (lifecycleStateForBrokerStatus_mem .entry status) hphase)

/-- The phase a report stands for. -/
def StatusReport.phase (report : StatusReport) : Nat :=
  entryPhase (lifecycleStateForBrokerStatus .entry report.status)

theorem entry_follows_live {reports : List StatusReport} {l : LifecycleState}
    (hl : l ∈ liveEntryStates)
    (hlive : ∀ report ∈ reports, (classifyBrokerOrderStatus report.status).terminal = false)
    (hphases : ((entryPhase l) :: reports.map (·.phase)).Pairwise (· ≤ ·)) :
    ∃ l' ∈ liveEntryStates, followStatuses .entry l reports = .ok l' := by
  induction reports generalizing l with
  | nil => exact ⟨l, hl, rfl⟩
  | cons report rest ih =>
    rw [List.map_cons, List.pairwise_cons] at hphases
    obtain ⟨hfirst, hrest⟩ := hphases
    obtain ⟨path, hpath, hlast⟩ := entry_follows hl (hfirst _ List.mem_cons_self)
    have htarget := @live_status .entry _ (hlive report List.mem_cons_self)
    rw [← hlast] at htarget
    have hnext : path.getLast?.getD l ∈ liveEntryStates := by
      simp only [List.mem_cons, List.not_mem_nil, or_false] at htarget
      rcases htarget with hl' | hl' | hl' <;> rw [hl'] <;> decide
    have hphase : entryPhase (path.getLast?.getD l) = report.phase := by
      rw [hlast, StatusReport.phase]
    rw [← hphase] at hrest
    obtain ⟨l', hl', hok⟩ := ih hnext (fun r hr ↦ hlive r (List.mem_cons_of_mem _ hr)) hrest
    exact ⟨l', hl', followStatuses_cons.2 ⟨path, hpath, hok⟩⟩

/-! ### The last status -/

/-- What the classifier calls terminal, as the lifecycle reads it. -/
theorem terminal_status {type : ReviewType} {status : String}
    (h : (classifyBrokerOrderStatus status).terminal = true)
    (hreplaced : type = .entry → Text.toLowerCase (Text.trim status) ≠ "replaced") :
    lifecycleStateForBrokerStatus type status ∈
      [.filled, .cancelled, .rejected, .expired, .exitBrokerOrderDiscovered] := by
  simp only [classifyBrokerOrderStatus, terminalBrokerOrderStatuses, decide_eq_true_eq,
    List.mem_cons, List.not_mem_nil, or_false] at h
  have hmap : ∀ normalized, Text.toLowerCase (Text.trim status) = normalized →
      lifecycleStateForBrokerStatus type status =
        lifecycleStateForBrokerStatus type normalized := by
    rintro _ rfl
    exact (lifecycleStateForBrokerStatus_normalize type status).symm
  rcases h with h | h | h | h | h | h
  all_goals rw [hmap _ h]
  all_goals rcases type with - | -
  all_goals first
    | exact absurd h (hreplaced rfl)
    | decide +kernel

/-- Where the reports of an order lead from the state its submission was recorded in. -/
def submittedState : ReviewType → LifecycleState
  | .entry => .submissionAttemptPersisted
  | .exit => .exitSubmissionAttemptPersisted

/-- Every report finds a path, and the last one leads to an end, to `filled` or to a discovered
exit. -/
def Followed (type : ReviewType) (reports : List StatusReport) (last : StatusReport) : Prop :=
  ∃ l, followStatuses type (submittedState type) (reports ++ [last]) = .ok l ∧
    l ∈ [.filled, .cancelled, .rejected, .expired, .exitBrokerOrderDiscovered]

/-- **Live orders are followed.**  An exit is led by every list of live statuses and a terminal one
to an end, to a discovered exit, or, when it is filled after a partial fill, stays partially
filled.  An entry is led to an end or to `filled`, when no status stands for an earlier phase than
one before it and the last one is not `replaced`. -/
theorem live_orders_followed (type : ReviewType) (reports : List StatusReport)
    (last : StatusReport)
    (hlive : ∀ report ∈ reports, (classifyBrokerOrderStatus report.status).terminal = false)
    (hlast : (classifyBrokerOrderStatus last.status).terminal = true)
    (hentry : type = .entry → (reports.map (·.phase)).Pairwise (· ≤ ·) ∧
      Text.toLowerCase (Text.trim last.status) ≠ "replaced") :
    Followed type reports last ∨
      (type = .exit ∧ Text.toLowerCase (Text.trim last.status) = "filled" ∧
        followStatuses type (submittedState type) reports = .ok .exitPartiallyFilled ∧
        followStatuses type (submittedState type) (reports ++ [last]) =
          .ok .exitPartiallyFilled) := by
  rcases type with - | -
  · obtain ⟨hphases, hreplaced⟩ := hentry rfl
    have hstart : (entryPhase .submissionAttemptPersisted :: reports.map (·.phase)).Pairwise
        (· ≤ ·) := List.pairwise_cons.2 ⟨fun _ _ ↦ Nat.zero_le _, hphases⟩
    obtain ⟨l, hl, hok⟩ := entry_follows_live (by decide) hlive hstart
    have hterminal := terminal_status hlast fun _ : ReviewType.entry = .entry ↦ hreplaced
    have hend : entryPhase l ≤ entryPhase (lifecycleStateForBrokerStatus .entry last.status) := by
      have hphase : ∀ l ∈ liveEntryStates, entryPhase l ≤ 4 := by decide
      have hfour : ∀ target ∈ [LifecycleState.filled, .cancelled, .rejected, .expired,
          .exitBrokerOrderDiscovered], entryPhase target = 4 := by decide
      rw [hfour _ hterminal]
      exact hphase l hl
    obtain ⟨path, hpath, hstate⟩ := entry_follows hl hend
    refine Or.inl ⟨_, followStatuses_concat hok (followStatuses_cons.2 ⟨path, hpath, rfl⟩), ?_⟩
    rwa [hstate]
  · obtain ⟨l, hl, hok⟩ := @exit_follows_live reports .exitSubmissionAttemptPersisted (by decide)
      hlive
    obtain ⟨path, hpath, hstate⟩ := exit_follows hl last.status
    have hfollowed : followStatuses .exit (submittedState .exit) (reports ++ [last]) =
        .ok (path.getLast?.getD l) := followStatuses_concat hok (followStatuses_cons.2 ⟨path, hpath, rfl⟩)
    rw [hstate] at hfollowed
    by_cases hstay : l = .exitPartiallyFilled ∧ Text.toLowerCase (Text.trim last.status) = "filled"
    · rw [if_pos hstay] at hfollowed
      rw [hstay.1] at hok hfollowed
      exact Or.inr ⟨rfl, hstay.2, hok, hfollowed⟩
    · rw [if_neg hstay] at hfollowed
      refine Or.inl ⟨_, hfollowed, ?_⟩
      exact (terminal_status hlast fun h : ReviewType.exit = .entry ↦ by cases h)

/-- The theorem at an exit that is accepted, partly filled, awaits its cancellation and is
canceled. -/
theorem live_exit_followed :
    Followed .exit [⟨"accepted", 0⟩, ⟨"partially_filled", 3⟩, ⟨"pending_cancel", 3⟩]
        ⟨"canceled", 3⟩ ∨
      (ReviewType.exit = .exit ∧ Text.toLowerCase (Text.trim "canceled") = "filled" ∧
        followStatuses .exit (submittedState .exit)
          [⟨"accepted", 0⟩, ⟨"partially_filled", 3⟩, ⟨"pending_cancel", 3⟩] =
            .ok .exitPartiallyFilled ∧
        followStatuses .exit (submittedState .exit)
          ([⟨"accepted", 0⟩, ⟨"partially_filled", 3⟩, ⟨"pending_cancel", 3⟩] ++
            [⟨"canceled", 3⟩]) = .ok .exitPartiallyFilled) :=
  live_orders_followed .exit [⟨"accepted", 0⟩, ⟨"partially_filled", 3⟩, ⟨"pending_cancel", 3⟩]
    ⟨"canceled", 3⟩ (by decide +kernel) (by decide +kernel) (fun h ↦ by cases h)

/-- Not every order is: an exit filled after a partial fill stays partially filled, and an entry
whose accepted order awaits its cancellation is stuck. -/
theorem not_every_order_followed :
    ¬ (∀ type reports last,
        (∀ report ∈ reports, (classifyBrokerOrderStatus report.status).terminal = false) →
        (classifyBrokerOrderStatus last.status).terminal = true →
        ((reports ++ [last]).map (·.filled)).Pairwise (· ≤ ·) → Followed type reports last) ∧
      ¬ Followed .exit [⟨"partially_filled", 3⟩] ⟨"filled", 10⟩ ∧
      ¬ Followed .entry [⟨"accepted", 0⟩, ⟨"pending_cancel", 0⟩] ⟨"canceled", 0⟩ := by
  have hexit : ¬ Followed .exit [⟨"partially_filled", 3⟩] ⟨"filled", 10⟩ := by
    rintro ⟨l, hl, hend⟩
    have hpartly : followStatuses .exit (submittedState .exit)
        ([⟨"partially_filled", 3⟩] ++ [⟨"filled", 10⟩]) = .ok .exitPartiallyFilled := by
      decide +kernel
    obtain rfl := Except.ok.inj (hpartly.symm.trans hl)
    exact absurd hend (by decide)
  have hentry : ¬ Followed .entry [⟨"accepted", 0⟩, ⟨"pending_cancel", 0⟩] ⟨"canceled", 0⟩ := by
    rintro ⟨l, hl, _⟩
    have hstuck : followStatuses .entry (submittedState .entry)
        ([⟨"accepted", 0⟩, ⟨"pending_cancel", 0⟩] ++ [⟨"canceled", 0⟩]) =
          .error "NO_VALID_LIFECYCLE_PATH" := by decide +kernel
    cases hstuck.symm.trans hl
  exact ⟨fun h ↦ hexit (h _ _ _ (by decide +kernel) (by decide +kernel) (by decide +kernel)),
    hexit, hentry⟩

/-! ## The paths of entries -/

/-- The states the services store for an entry. -/
def entryStates : List LifecycleState :=
  [.reviewCreated, .submissionAttemptPersisted, .submissionAmbiguous, .brokerOrderDiscovered,
    .brokerOrderAccepted, .partiallyFilled, .filled, .cancelRequested, .cancelAmbiguous,
    .cancelled, .rejected, .expired, .failedTerminal]

/-- The states of the exit leg, with its end. -/
def exitLegStates : List LifecycleState :=
  [.exitEvaluated, .exitReviewCreated, .exitConfirmed, .exitReadyForSubmission,
    .exitSubmissionAttemptPersisted, .exitSubmissionAmbiguous, .exitBrokerOrderDiscovered,
    .exitPartiallyFilled, .closed]

/-- A path from a state invents nothing: no state of the exit leg, and no cancellation unless one
was under way. -/
def HonestPath (l : LifecycleState) (path : List LifecycleState) : Prop :=
  (∀ state ∈ path, state ∉ exitLegStates) ∧
    (l ∉ cancellationStates → ∀ state ∈ path, state ∉ cancellationStates)

instance (l : LifecycleState) (path : List LifecycleState) : Decidable (HonestPath l path) :=
  inferInstanceAs (Decidable (_ ∧ _))

/-- The statuses from which the search goes astray: an end without a fill, reported of a filled
entry, and a fill, reported of an entry that was not submitted. -/
def GoesAstray (l : LifecycleState) (status : String) : Prop :=
  (l = .filled ∧
      lifecycleStateForBrokerStatus .entry status ∈ [.cancelled, .rejected, .expired]) ∨
    (l = .reviewCreated ∧ lifecycleStateForBrokerStatus .entry status = .filled)

/-- What reconciliation resolves for an entry: an order under cancellation stays where it is until
its end, and every other follows the shortest path. -/
theorem resolve_entry (l : LifecycleState) (status : String) :
    (l ∈ cancellationStates ∧ resolveBrokerReconciliationLifecyclePath l .entry status = .ok [l]) ∨
      resolveBrokerReconciliationLifecyclePath l .entry status =
        resolveLifecycleTransitionPath l (lifecycleStateForBrokerStatus .entry status) := by
  by_cases hstay : l ∈ cancellationStates ∧ Text.toLowerCase (Text.trim status) ∉
      ["filled", "canceled", "cancelled", "rejected", "expired"]
  · refine Or.inl ⟨hstay.1, ?_⟩
    unfold resolveBrokerReconciliationLifecyclePath
    dsimp only
    change l ∈ [.cancelRequested, .cancelAmbiguous] ∧ _ at hstay
    rw [if_neg, if_pos hstay]
    rintro ⟨htype, _⟩
    cases htype
  · refine Or.inr ?_
    unfold resolveBrokerReconciliationLifecyclePath
    dsimp only
    change ¬ (l ∈ [.cancelRequested, .cancelAmbiguous] ∧ _) at hstay
    rw [if_neg, if_neg hstay, lifecycleStateForBrokerStatus_normalize]
    rintro ⟨htype, _⟩
    cases htype

/-- **Paths of entries.**  The path of an entry invents nothing exactly when the status is not one
from which the search goes astray. -/
theorem entry_path_honest {l : LifecycleState} (hl : l ∈ entryStates) (status : String) :
    (∀ path, resolveBrokerReconciliationLifecyclePath l .entry status = .ok path →
      HonestPath l path) ↔ ¬ GoesAstray l status := by
  have hpaths : ∀ l ∈ entryStates, ∀ target ∈ statusStates .entry,
      (match resolveLifecycleTransitionPath l target with
        | .ok path => decide (HonestPath l path)
        | .error _ => true) =
      !decide ((l = .filled ∧ target ∈ [LifecycleState.cancelled, .rejected, .expired]) ∨
        (l = .reviewCreated ∧ target = .filled)) := by decide +kernel
  rcases resolve_entry l status with ⟨hcancel, hstay⟩ | hresolve
  · rw [hstay]
    have hhonest : ∀ l ∈ cancellationStates, HonestPath l [l] ∧ l ≠ .filled ∧
        l ≠ .reviewCreated := by decide
    obtain ⟨hpath, hfilled, hreview⟩ := hhonest l hcancel
    refine iff_of_true (fun path hok ↦ ?_) ?_
    · obtain rfl := Except.ok.inj hok
      exact hpath
    · rintro (⟨hl', _⟩ | ⟨hl', _⟩)
      · exact hfilled hl'
      · exact hreview hl'
  · rw [hresolve]
    have hpath := hpaths l hl _ (lifecycleStateForBrokerStatus_mem .entry status)
    rw [GoesAstray]
    generalize lifecycleStateForBrokerStatus .entry status = target at hpath ⊢
    rcases hfound : resolveLifecycleTransitionPath l target with code | path
    · rw [hfound] at hpath
      have hnot := of_decide_eq_false (Bool.not_eq_true' _ ▸ hpath.symm)
      exact iff_of_true (fun path hok ↦ by cases hok) hnot
    · rw [hfound] at hpath
      constructor
      · intro h
        have hhonest := decide_eq_true (h path rfl)
        exact of_decide_eq_false (Bool.not_eq_true' _ ▸ (hpath.symm.trans hhonest))
      · intro hnot path' hok
        obtain rfl := Except.ok.inj hok
        rw [decide_eq_false hnot] at hpath
        exact of_decide_eq_true hpath

end AlpacaTrading
