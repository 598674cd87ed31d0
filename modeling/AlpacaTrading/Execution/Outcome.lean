import AlpacaTrading.Execution.CapacityAgreement
import AlpacaTrading.Reconciliation.Complete

/-!
# After the call of the broker

How a submission ends decides what is recorded about it.  An intent whose order may be at the
broker has to stay in a status reconciliation looks at.  The run decides by the HTTP status of the
error and, when that does not say, by the words of its message; from then on every transaction may
be lost, and the lookups of the recovery may answer anything.

`order_not_orphaned_iff` says for which answers the intent stays in sight, whatever happens
afterwards: all but the errors without a deciding status whose message contains a rejection word.
-/

namespace AlpacaTrading

/-! ## The statement -/

/-- The HTTP status of an answer. -/
def Answer.status : Answer → Option ℚ
  | .inl error => error.status
  | .inr response => some response.status

/-- The broker may hold an order after this answer: it did not refuse it with a client error, and
did not report a terminal order. -/
def mayHoldOrder (answer : Answer) : Bool :=
  !deterministicStatus answer.status &&
  match answer with
  | .inl _ => true
  | .inr response =>
    !response.data.any fun data ↦ (classifyBrokerOrderStatus data.status.text).terminal

/-- The response reports an order in a terminal status. -/
def AlpacaApiResponse.terminal (response : AlpacaApiResponse) : Bool :=
  response.data.any fun data ↦ Text.toLowerCase data.status.rendered ∈ terminalStatuses

/-- A lookup of the recovery found the order in a terminal status. -/
def RunAct.findsTerminal : RunAct → Bool
  | .recover _ _ _ answers => answers.any fun answer ↦ match answer with
    | .inr response => response.terminal
    | .inl _ => false
  | _ => false

/-- The intent is in sight of reconciliation, or reconciled because its order was seen terminal. -/
def InSight (id : String) (seen : Prop) (db : Db) : Prop :=
  ∃ i, db.intents.get? id = some i ∧ (i.status ∈ inFlight ∨ (i.status = .reconciled ∧ seen))

section Outcome

variable [Hashing]

/-- One step of a run by itself. -/
def Run.soloStep (act : RunAct) (state : Run × Db) : Option (Run × Db) :=
  (state.1.step act state.2).map fun (db, phase, _) ↦ ({ state.1 with phase }, db)

/-- After this answer the intent stays in sight, whatever the following steps of the run are and
however they end. -/
def KeepsInSight (answer : Answer) : Prop :=
  ∀ (run : Run) (db : Db) (row : AutonomousExecutionIntentRow) (receipt : BrokerMutationReceipt)
    (i : Intent) (clock : Time) (acts : List RunAct) (run' : Run) (db' : Db),
    run.phase = .awaiting row receipt → db.intents.get? row.intent.id = some i →
    i.status = .submissionPending →
    runActs Run.soloStep (run, db) (.answer answer clock :: acts) = some (run', db') →
    InSight row.intent.id (∃ act ∈ acts, act.findsTerminal) db'

/-! ## Reconciliation keeps intents in sight -/

variable {db db' : Db} {session : Session} {target : Target} {obs : Observation} {now : Time}
  {id : String} {seen : Prop}

omit [Hashing] in
theorem InSight.of_get? (h : InSight id seen db)
    (heq : db'.intents.get? id = db.intents.get? id) : InSight id seen db' := by
  obtain ⟨i, hi, hs⟩ := h
  exact ⟨i, heq.trans hi, hs⟩

/-- The status an observation reports is the one of the response. -/
theorem readObservation_terminal {response : AlpacaApiResponse}
    (h : readObservation target response now = .ok obs) (hterm : obs.status ∈ terminalStatuses) :
    response.terminal = true := by
  unfold readObservation at h
  cases hdata : response.data with
  | none =>
    rw [hdata] at h
    cases h
  | some data =>
    rw [hdata] at h
    simp only [bind_eq_ok, require_eq_ok, decide_eq_true_eq] at h
    obtain ⟨_, hd, _, _, _, _, _, _, status, hstatus, _, _, _, _, path, _, _, _, hout⟩ := h
    cases hd
    obtain ⟨rfl, _⟩ := required_eq_ok.1 hstatus
    split at hout
    · rw [bind_eq_ok] at hout
      obtain ⟨_, _, hobs⟩ := hout
      cases hobs
      unfold AlpacaApiResponse.terminal
      rw [hdata, Option.any_some]
      exact decide_eq_true hterm
    · cases hout

omit [Hashing] in
/-- An observation of an intent keeps it in sight. -/
theorem InSight.observes (h : InSight id seen db) (hseen : obs.status ∈ terminalStatuses → seen)
    (hcase : db'.intents = db.intents ∨ ObservesIntent db db' target obs now) :
    InSight id seen db' := by
  rcases hcase with heq | ⟨submittedAt, heq⟩
  · exact h.of_get? (by rw [heq])
  · obtain ⟨i, hi, hs⟩ := h
    by_cases hid : id = target.intent.id
    · subst hid
      refine ⟨i.observe obs submittedAt now, ?_, ?_⟩
      · rw [heq, Table.get?_modify, if_pos rfl, hi]
        rfl
      · by_cases hterm : obs.status ∈ terminalStatuses
        · exact Or.inr ⟨by simp [Intent.observe, Observation.intentStatus, hterm], hseen hterm⟩
        · refine Or.inl ?_
          simp [Intent.observe, Observation.intentStatus, hterm, inFlight]
    · refine ⟨i, ?_, hs⟩
      rw [heq, Table.get?_modify, if_neg hid]
      exact hi

theorem InSight.reconcileTarget {response : AlpacaApiResponse} (h : InSight id seen db)
    (hseen : response.terminal = true → seen) :
    InSight id seen (AlpacaTrading.reconcileTarget db session target (.inr response) now).1 := by
  unfold AlpacaTrading.reconcileTarget
  dsimp only
  split
  · next code hread =>
    rw [recoverTarget_coded (readObservation_coded response code hread)]
    exact h
  · next obs hread =>
    have hterm : obs.status ∈ terminalStatuses → seen := fun ht ↦
      hseen (readObservation_terminal hread ht)
    split
    · next db₁ code hobserve =>
      have hcoded := @observe_coded _ db session target obs now
      rw [hobserve] at hcoded
      rw [recoverTarget_coded (hcoded code rfl)]
      exact h.observes hterm (observe_touches hobserve).2.1
    · next db₁ stored hobserve =>
      have hobserved := h.observes hterm (observe_touches hobserve).2.1
      -- The settlement leaves the intents alone.
      have hsame : ∀ {db₂ : Db} {result : Except String Unit},
          settle db₁ session target obs now = (db₂, result) → db₂.intents = db₁.intents := by
        intro db₂ result hsettle
        rcases settle_cases hsettle with ⟨_, _, _, _, hstmt⟩ | ⟨rfl, _⟩
        · obtain ⟨_, _, _, _, _, _, _, _, _, rfl⟩ := settleStatement_settled hstmt
          rfl
        · rfl
      split
      · next db₂ code hsettle =>
        have hcoded := @settle_coded _ db₁ session target obs now
        rw [hsettle] at hcoded
        rw [recoverTarget_coded (hcoded code rfl)]
        exact hobserved.of_get? (by rw [hsame hsettle])
      · next db₂ hsettle => exact hobserved.of_get? (by rw [hsame hsettle])

theorem InSight.reconcileTargets {response : AlpacaApiResponse} {todo : List Target} {db : Db}
    (h : InSight id seen db) (hseen : response.terminal = true → seen) :
    InSight id seen
      (AlpacaTrading.reconcileTargets session now (fun _ ↦ .inr response) db todo).1 := by
  induction todo generalizing db with
  | nil => exact h
  | cons target rest ih => exact ih (h.reconcileTarget hseen)

theorem InSight.recoverFound {clientOrderId : String} {response : AlpacaApiResponse}
    (h : InSight id seen db) (hseen : response.terminal = true → seen) :
    InSight id seen (AlpacaTrading.recoverFound db session now clientOrderId response).1 := by
  unfold AlpacaTrading.recoverFound
  split
  · exact h
  · split
    · exact h
    · have hpass : InSight id seen (reconcilePostgresPaperOrders db session now clientOrderId
          fun _ ↦ .inr response).1 := h.reconcileTargets hseen
      dsimp only
      split
      · exact hpass
      · split
        · exact hpass
        · exact hpass

/-- The recovery keeps the intent in sight, unless a lookup reports a terminal order. -/
theorem InSight.recover {clientOrderId : String} {answers : List Lookup} (h : InSight id seen db)
    (hseen : ∀ response, .inr response ∈ answers → response.terminal = true → seen) :
    InSight id seen
      (recoverAmbiguousPostgresSubmission db session now clientOrderId answers).1 := by
  have hattempts : ∀ (client : String) (absenceOnly sawAbsence : Bool),
      InSight id seen
        (recoverAttempts db session now client absenceOnly sawAbsence answers).1 := by
    induction answers with
    | nil => exact fun _ _ _ ↦ h
    | cons answer rest ih =>
      have hrest := ih fun response hmem ↦ hseen response (List.mem_cons_of_mem _ hmem)
      intro client absenceOnly sawAbsence
      unfold recoverAttempts
      split
      · exact h
      · split
        · exact h.recoverFound (hseen _ List.mem_cons_self)
        · split
          · exact hrest _ _ _
          · split
            · exact h
            · exact hrest _ _ _
  unfold recoverAmbiguousPostgresSubmission
  split
  · exact h
  · exact hattempts _ _ _

/-! ## The steps after an answer -/

/-- The phases after an answer that does not fail the intent. -/
def Phase.Spares (id : String) : Phase → Prop
  | .finished => True
  | .recording row _ data _ _ =>
    row.intent.id = id ∧ (classifyBrokerOrderStatus data.status.text).terminal = false
  | .doubting row _ _ _ | .recovering row _ | .receipting row _ _ _ => row.intent.id = id
  | _ => False

omit [Hashing] in
/-- An order the classifier does not call terminal is acknowledged as submitted. -/
theorem acknowledgedStatus_of_open {status : String} (type : ReviewType)
    (h : (classifyBrokerOrderStatus status).terminal = false) :
    acknowledgedStatus (lifecycleStateForBrokerStatus type (Text.toLowerCase status)) =
      .submitted := by
  simp only [classifyBrokerOrderStatus, decide_eq_false_iff_not] at h
  have hne : ∀ word ∈ ["canceled", "cancelled", "rejected", "expired"],
      Text.toLowerCase (Text.trim status) ≠ word := by
    intro word hword heq
    refine h ?_
    rw [heq]
    simp only [List.mem_cons, List.not_mem_nil, or_false] at hword
    rcases hword with rfl | rfl | rfl | rfl <;> simp [terminalBrokerOrderStatuses]
  unfold lifecycleStateForBrokerStatus
  rw [Text.lower_trim_lower]
  dsimp only
  rw [if_neg (not_or.2 ⟨hne _ (by simp), hne _ (by simp)⟩), if_neg (hne _ (by simp)),
    if_neg (hne _ (by simp))]
  cases type with
  | exit => dsimp only; split_ifs <;> rfl
  | entry => dsimp only; split_ifs <;> rfl

omit [Hashing] in
/-- A transaction under a fault keeps the intent in sight, if its commit does. -/
theorem InSight.commit {α : Type} {fault : Fault} {outcome : Except String (Db × α)}
    (h : InSight id seen db) (hok : ∀ db' a, outcome = .ok (db', a) → InSight id seen db') :
    InSight id seen (fault.commit db outcome).1 := by
  have hfst : (fault.commit db outcome).1 = db ∨
      ∃ a, outcome = .ok ((fault.commit db outcome).1, a) := Fault.commit_fst
  rcases hfst with heq | ⟨a, heq⟩
  · rwa [heq]
  · exact hok _ a heq

omit [Hashing] in
/-- The intent moves to a status in flight. -/
theorem InSight.of_modify {i : Intent} {f : Intent → Intent} (hf : Keeps f)
    (hget : db.intents.get? id = some i) (hintents : db'.intents = db.intents.modify id f hf)
    (hstatus : (f i).status ∈ inFlight) : InSight id seen db' := by
  refine ⟨f i, ?_, Or.inl hstatus⟩
  rw [hintents, Table.get?_modify, if_pos rfl, hget]
  rfl

/-- **One step after an answer.** -/
theorem Phase.Spares.step {run : Run} {act : RunAct} {phase : Phase}
    {call : Option SubmissionKey} (hphase : run.phase.Spares id) (h : InSight id seen db)
    (hseen : act.findsTerminal = true → seen)
    (hstep : run.step act db = some (db', phase, call)) :
    phase.Spares id ∧ InSight id seen db' := by
  unfold Run.step at hstep
  dsimp only at hstep
  split at hstep
  · next heq => rw [heq] at hphase; exact hphase.elim
  · next heq => rw [heq] at hphase; exact hphase.elim
  · next heq => rw [heq] at hphase; exact hphase.elim
  · next heq => rw [heq] at hphase; exact hphase.elim
  · next heq => rw [heq] at hphase; exact hphase.elim
  · next heq => rw [heq] at hphase; exact hphase.elim
  · next heq => rw [heq] at hphase; exact hphase.elim
  · next heq => rw [heq] at hphase; exact hphase.elim
  · next heq => rw [heq] at hphase; exact hphase.elim
  · -- recording
    next heq =>
    cases hstep
    rw [heq] at hphase
    obtain ⟨rfl, hopen⟩ := hphase
    refine ⟨?_, h.commit fun db' result hok ↦ ?_⟩
    · split
      · trivial
      · exact rfl
    · obtain ⟨order, orders, event, events, i, db₁, reviews, confirmations, candidates, _, _, _, _,
        _, hget, _, hset, _, rfl⟩ := recordSubmission_ok hok
      refine InSight.of_modify (Intent.acknowledge_keeps _ _) hget (settleAcknowledged_frame hset).1 ?_
      dsimp only [Intent.acknowledge]
      rw [acknowledgedStatus_of_open _ hopen]
      simp [inFlight]
  · -- doubting
    next heq =>
    cases hstep
    rw [heq] at hphase
    obtain rfl := hphase
    refine ⟨?_, h.commit fun db' result hok ↦ ?_⟩
    · split
      · exact rfl
      · trivial
    · obtain ⟨event, events, i, candidates, _, hget, _, rfl⟩ := recordAmbiguousSubmission_ok hok
      exact InSight.of_modify (Intent.doubt_keeps _ _) hget rfl (by simp [Intent.doubt, inFlight])
  · -- recovering
    next heq =>
    cases hstep
    rw [heq] at hphase
    obtain rfl := hphase
    refine ⟨?_, h.recover fun response hmem hterm ↦ hseen ?_⟩
    · split
      · exact rfl
      · trivial
    · exact List.any_eq_true.2 ⟨_, hmem, hterm⟩
  · -- receipting
    cases hstep
    refine ⟨trivial, h.commit fun db' result hok ↦ ?_⟩
    obtain ⟨event, events, reviews, confirmations, candidates, _, _, rfl⟩ :=
      recordReconciledSubmissionReceipt_ok hok
    exact h.of_get? rfl
  · cases hstep
    exact ⟨trivial, h⟩
  · cases hstep

/-- All the steps after an answer. -/
theorem Phase.Spares.run {state state' : Run × Db} {acts : List RunAct}
    (hphase : state.1.phase.Spares id) (h : InSight id seen state.2)
    (hseen : ∀ act ∈ acts, act.findsTerminal = true → seen)
    (hrun : runActs Run.soloStep state acts = some state') : InSight id seen state'.2 := by
  induction acts generalizing state with
  | nil =>
    obtain rfl : state = state' := Option.some_inj.1 hrun
    exact h
  | cons act rest ih =>
    obtain ⟨next, hnext, hrest⟩ := runActs_cons.1 hrun
    unfold Run.soloStep at hnext
    obtain ⟨⟨db₁, phase, call⟩, hstep, rfl⟩ := Option.map_eq_some_iff.1 hnext
    obtain ⟨hphase₁, h₁⟩ := hphase.step h (hseen act List.mem_cons_self) hstep
    exact ih hphase₁ h₁ (fun a ha ↦ hseen a (List.mem_cons_of_mem _ ha)) hrest

omit [Hashing] in
/-- The phase an answer leads to. -/
theorem afterAnswer_spares {config : RunConfig} {row : AutonomousExecutionIntentRow}
    {receipt : BrokerMutationReceipt} {answer : Answer} {clock : Time}
    (hhold : mayHoldOrder answer = true)
    (hread : ∀ error, answer = .inl error → mentionsRejection error.message = false) :
    (afterAnswer config row receipt answer clock).Spares row.intent.id := by
  unfold mayHoldOrder at hhold
  rw [Bool.and_eq_true] at hhold
  obtain ⟨hstatus, hopen⟩ := hhold
  unfold afterAnswer
  cases answer with
  | inl error =>
    have hambiguous : isAmbiguousSubmissionError error = true := by
      unfold isAmbiguousSubmissionError
      rw [if_neg (by simpa [Answer.status] using hstatus), hread error rfl]
      rfl
    dsimp only
    rw [if_pos hambiguous]
    exact rfl
  | inr response =>
    dsimp only
    split
    · trivial
    · next data hdata =>
      refine ⟨rfl, ?_⟩
      simpa [hdata] using hopen

/-- **Answers that are read well keep the intent in sight.** -/
theorem keepsInSight_of_read {answer : Answer} (hhold : mayHoldOrder answer = true)
    (hread : ∀ error, answer = .inl error → mentionsRejection error.message = false) :
    KeepsInSight answer := by
  intro run db row receipt i clock acts run' db' hphase hget hstatus hrun
  obtain ⟨next, hnext, hrest⟩ := runActs_cons.1 hrun
  obtain ⟨⟨db₁, phase, call⟩, hstep, rfl⟩ := Option.map_eq_some_iff.1 hnext
  obtain ⟨config, phase₀⟩ := run
  dsimp only at hphase
  subst hphase
  cases hstep
  have hsight : InSight row.intent.id (∃ act ∈ acts, act.findsTerminal = true) db :=
    ⟨i, hget, Or.inl (by simp [hstatus, inFlight])⟩
  have hspares : (afterAnswer config row receipt answer clock).Spares row.intent.id :=
    afterAnswer_spares hhold hread
  exact hspares.run hsight (fun act hact hterm ↦ ⟨act, hact, hterm⟩) hrest

end Outcome

/-! ## A misread error

A gateway error says nothing about the order, but its text may contain a rejection word. -/

namespace Specimen

/-- The entry while it is being submitted. -/
def pendingIntent : Intent := { entryIntent with status := .submissionPending }

/-- The account with that entry. -/
def pendingDb : Db := { entryDb with intents := .ofRows [pendingIntent] }

/-- The claimed row. -/
def pendingRow : AutonomousExecutionIntentRow where
  intent := pendingIntent
  review :=
    { id := "review", accountId := "acct", reviewType := .entry, status := .valid,
      accountFingerprint := "structure", payloadFingerprint := "payload", expiresAt := 900000 }
  brokerAccountId := "broker"
  accountSnapshotFingerprint := "structure"
  parentPosition := none
  openingContractId := none

/-- The receipt of its attempt. -/
def attemptReceipt : BrokerMutationReceipt where
  mutationReceiptId := "receipt"
  intentId := "entry"
  cycleId := "cycle"
  workstream := "paper:execute:reviewed"
  schedulerRunId := "run"
  fencingToken := 1
  deterministicClientOrderId := "client-entry"
  closing := false
  brokerOrderId := none
  requested := orderRequest pendingRow
  requestedStopPrice := none
  submissionAttemptTimestamp := 2000
  brokerAcknowledgementTimestamp := none
  outcomeClassification := .submissionAttempted
  resultingLifecycleState := .submissionAttemptPersisted

/-- The run that waits for the answer. -/
def awaitingRun : Run where
  config :=
    { command := .paperExecuteReviewed, fence, signingKey := "signing-key-of-16",
      context := { cycleId := "cycle", workstreamExecutionId := "run" }, now := 2000 }
  phase := .awaiting pendingRow attemptReceipt

theorem pending_rejected [Hashing] : ∃ db' receipt,
    recordDeterministicSubmissionFailure pendingDb pendingRow attemptReceipt session 2000 =
        .ok (db', receipt) ∧
      db'.intents.get? "entry" = some (pendingIntent.reject 2000) := by
  obtain ⟨events, hevents⟩ : ∃ events, pendingDb.events.insert? (submissionEvent pendingRow.intent
      "alpaca_broker_submission_rejected" "submission_rejected" "deterministic_broker_rejection"
      2000) = some events := Table.insert?_isSome fun x hx ↦ by cases hx
  have hget : pendingDb.intents.get? "entry" = some pendingIntent := by decide
  refine ⟨{ pendingDb with
    events
    intents := pendingDb.intents.modify "entry" (Intent.reject 2000) (Intent.reject_keeps 2000) },
    receiptWithOutcome attemptReceipt .submissionRejected .failedTerminal, ?_, ?_⟩
  · simp only [recordDeterministicSubmissionFailure, bind_eq_ok, Table.insertOne_eq_ok,
      Table.updateOne_eq_ok]
    exact ⟨_, ⟨pendingIntent, hget, by decide, rfl⟩, events, hevents, rfl⟩
  · rw [Table.get?_modify, if_pos rfl, hget]
    rfl

end Specimen

/-- An error the run misreads fails an intent whose order may be at the broker. -/
theorem misread_orphans [Hashing] {error : Thrown}
    (hstatus : deterministicStatus error.status = false)
    (hwords : mentionsRejection error.message = true) : ¬ KeepsInSight (.inl error) := by
  intro hkeeps
  obtain ⟨db', receipt, hrecord, hfailed⟩ := Specimen.pending_rejected
  have hget : Specimen.pendingDb.intents.get? "entry" = some Specimen.pendingIntent := by decide
  have hphase : afterAnswer Specimen.awaitingRun.config Specimen.pendingRow
      Specimen.attemptReceipt (.inl error) 2000 =
        .rejecting Specimen.pendingRow Specimen.attemptReceipt 2000 := by
    unfold afterAnswer
    dsimp only
    rw [if_neg (by simp [isAmbiguousSubmissionError, hstatus, hwords])]
    rfl
  have hrun : runActs Run.soloStep (Specimen.awaitingRun, Specimen.pendingDb)
      [.answer (.inl error) 2000, .reject 0 .none] =
        some ({ Specimen.awaitingRun with phase := .finished }, db') := by
    refine runActs_cons.2 ⟨({ Specimen.awaitingRun with
      phase := .rejecting Specimen.pendingRow Specimen.attemptReceipt 2000 }, Specimen.pendingDb),
      ?_, runActs_cons.2 ⟨({ Specimen.awaitingRun with phase := .finished }, db'), ?_, rfl⟩⟩
    · rw [← hphase]
      rfl
    · have hstep : Run.step { Specimen.awaitingRun with
          phase := .rejecting Specimen.pendingRow Specimen.attemptReceipt 2000 } (.reject 0 .none)
          Specimen.pendingDb = some ((Fault.none.commit Specimen.pendingDb
            (recordDeterministicSubmissionFailure Specimen.pendingDb Specimen.pendingRow
              Specimen.attemptReceipt Specimen.session 2000)).1, .finished, none) := rfl
      unfold Run.soloStep
      rw [hstep, hrecord]
      rfl
  obtain ⟨i, hi, hcases⟩ := hkeeps Specimen.awaitingRun Specimen.pendingDb Specimen.pendingRow
    Specimen.attemptReceipt Specimen.pendingIntent 2000 [.reject 0 .none]
    { Specimen.awaitingRun with phase := .finished } db' rfl hget rfl hrun
  obtain rfl : Specimen.pendingIntent.reject 2000 = i :=
    Option.some_inj.1 (hfailed.symm.trans hi)
  rcases hcases with hflight | ⟨hrec, _⟩
  · simp [Intent.reject, inFlight] at hflight
  · cases hrec

/-- **No live order behind a dead intent.**  An answer after which the broker may hold the order
keeps the intent in sight of reconciliation, whatever the rest of the run does, exactly when it is
not an error without a deciding status whose message contains a rejection word. -/
theorem order_not_orphaned_iff [Hashing] (answer : Answer) :
    (mayHoldOrder answer = true → KeepsInSight answer) ↔
      ¬ ∃ error : Thrown, answer = .inl error ∧ deterministicStatus error.status = false ∧
        mentionsRejection error.message = true := by
  constructor
  · rintro hkeeps ⟨error, rfl, hstatus, hwords⟩
    refine misread_orphans hstatus hwords (hkeeps ?_)
    simp [mayHoldOrder, Answer.status, hstatus]
  · intro hread hhold
    refine keepsInSight_of_read hhold fun error heq ↦ ?_
    subst heq
    by_contra hwords
    refine hread ⟨error, rfl, ?_, by simpa using hwords⟩
    simpa [mayHoldOrder, Answer.status] using hhold

/-- A gateway error orphans the order: it says nothing about it, but its text reads like a
rejection. -/
theorem gateway_error_orphans :
    mayHoldOrder (.inl { status := some 502, message := "invalid response from upstream" }) = true ∧
      ¬ @KeepsInSight Specimen.hashing
        (.inl { status := some 502, message := "invalid response from upstream" }) := by
  let _ := Specimen.hashing
  exact ⟨by decide +kernel, misread_orphans (by decide +kernel) (by decide +kernel)⟩

end AlpacaTrading
