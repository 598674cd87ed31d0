import AlpacaTrading.Recovery.StaleReady
import AlpacaTrading.System.Deployment
import AlpacaTrading.System.Ledger

/-!
# Candidates on their way

The status of a candidate follows its order: `confirmed` when the intent is promoted, `executed`
when the order is acknowledged.  Reviews write the same column.  A review skips candidates that
were rejected or reviewed under the same snapshot, but not those that are confirmed or executed;
under a new snapshot it takes such a candidate up again and marks it as sized, skipped or blocked.
The sweep of stale ready intents then cancels the intent of a candidate that is skipped or blocked.

`Progress` says that no candidate with an intent on its way is marked so.
`progress_not_undone` says which reviews keep it; every other step does.
-/

namespace AlpacaTrading

/-! ## Candidates and their intents -/

/-- The statuses a review gives to a candidate. -/
def reviewStages : List String := ["sized", "skipped", "blocked"]

/-- The intent is ready, in flight or filled. -/
def Intent.Progressing (i : Intent) : Prop :=
  i.status ∈ [.readyForSubmission, .submissionPending, .ambiguous, .submitted] ∨
    (i.status = .reconciled ∧ i.lifecycleState = .filled)

/-- No candidate with an entry on its way has the status of a review. -/
def Progress (db : Db) : Prop :=
  ∀ i ∈ db.intents.rows, i.kind db = some .entry → i.Progressing →
    ∀ c ∈ db.candidates.rows, i.candidateId = some c.id → c.lifecycleStatus ∉ reviewStages

theorem not_progressing_of_dead {i : Intent} (h : i.status ∈ deadStatuses) : ¬ i.Progressing := by
  simp only [deadStatuses, List.mem_cons, List.not_mem_nil, or_false] at h
  rintro (hstatus | ⟨hstatus, _⟩)
  · rcases h with h | h
    · simp [h] at hstatus
    · simp [h] at hstatus
  · rcases h with h | h
    · rw [h] at hstatus
      cases hstatus
    · rw [h] at hstatus
      cases hstatus

theorem not_progressing_of_created {i : Intent} (h : i.status = .created) : ¬ i.Progressing := by
  rintro (hstatus | ⟨hstatus, _⟩)
  · simp [h] at hstatus
  · rw [h] at hstatus
    cases hstatus

/-- The statuses an observation starts from, for an entry: it is on its way, or its order ended
unfilled. -/
theorem observable_progressing {i : Intent} (hfit : i.Fits .entry)
    (hstatus : i.status ∈ [.submissionPending, .submitted, .ambiguous, .reconciled]) :
    i.Progressing ∨ (i.status = .reconciled ∧ i.lifecycleState ∈ unfilledStates) := by
  simp only [List.mem_cons, List.not_mem_nil, or_false] at hstatus
  rcases hstatus with h | h | h | h
  · exact Or.inl (Or.inl (by simp [h]))
  · exact Or.inl (Or.inl (by simp [h]))
  · exact Or.inl (Or.inl (by simp [h]))
  · have hfinal := hfit.final rfl h
    simp only [finalStates, List.mem_cons, List.not_mem_nil, or_false] at hfinal
    rcases hfinal with hstate | hstate | hstate | hstate
    · exact Or.inl (Or.inr ⟨h, hstate⟩)
    · exact Or.inr ⟨h, by simp [hstate, unfilledStates]⟩
    · exact Or.inr ⟨h, by simp [hstate, unfilledStates]⟩
    · exact Or.inr ⟨h, by simp [hstate, unfilledStates]⟩

/-- A move leads to an entry on its way only from one. -/
theorem Moves.progressing {db : Db} {i i' : Intent} (h : Moves db i i') (hfit : i.Fits .entry)
    (hkind : i.kind db = some .entry) (hp : i'.Progressing) : i.Progressing := by
  cases h with
  | claim hs _ _ => exact Or.inl (by simp [hs])
  | hold hs _ => exact Or.inl (by simp [hs])
  | acknowledge hs _ _ => exact Or.inl (by simp [hs])
  | observe hs _ hopen =>
    rcases observable_progressing hfit hs with hgo | ⟨_, hended⟩
    · exact hgo
    · refine absurd ?_ (hopen hkind)
      exact List.mem_cons_of_mem _ hended
  | finish hs hs' _ hkeep =>
    rcases observable_progressing hfit hs with hgo | ⟨_, hended⟩
    · exact hgo
    · -- The order ended unfilled, and the state stays.
      have hstate := hkeep hkind hended
      rcases hp with hstatus | ⟨_, hfilled⟩
      · simp [hs'] at hstatus
      · rw [hfilled] at hstate
        rw [← hstate] at hended
        simp [unfilledStates] at hended
  | close hstate _ => exact absurd hstate (hfit.state rfl)
  | abandon hs' _ => exact absurd hp (not_progressing_of_dead hs')

/-! ## Steps of intents -/

/-- An entry on its way was on its way before. -/
def Stands (db db' : Db) : Prop :=
  ∀ i' ∈ db'.intents.rows, i'.kind db' = some .entry → i'.Progressing →
    ∃ i ∈ db.intents.rows, i.kind db = some .entry ∧ i.Progressing ∧ i'.candidateId = i.candidateId

section Intents

variable {db db' : Db} {i i' : Intent}

theorem Stands.moves (hsound : Sound db) (hl : Later db db') (hm : IntentsMove db db') :
    Stands db db' := by
  intro j' hj' hkind hgo
  obtain ⟨j, hj, rfl | ⟨hfollows, hmoves⟩⟩ := hm.mem hj'
  · exact ⟨j', hj, (hsound.kind_of_later hl hj rfl hkind).1, hgo, rfl⟩
  · obtain ⟨hkind', hfit⟩ := hsound.kind_of_later hl hj hfollows.terms hkind
    exact ⟨j, hj, hkind', hmoves.progressing hfit hkind' hgo,
      congrArg IntentTerms.candidateId hfollows.terms⟩

/-- One intent is replaced, by one that is not on its way or from one that was. -/
theorem Stands.replaces (hsound : Sound db) (hl : Later db db') (hr : Replaces db db' i i')
    (hi : i'.kind db' = some .entry → i'.Progressing → i.Progressing) : Stands db db' := by
  intro j' hj' hkind hgo
  rcases hr.mem hj' with rfl | ⟨hj, _⟩
  · exact ⟨i, hr.mem_source, (hsound.kind_of_later hl hr.mem_source hr.terms hkind).1,
      hi hkind hgo, congrArg IntentTerms.candidateId hr.terms⟩
  · exact ⟨j', hj, (hsound.kind_of_later hl hj rfl hkind).1, hgo, rfl⟩

theorem Stands.creates (hsound : Sound db) (hc : Creates db db' i) : Stands db db' := by
  intro j' hj' hkind hgo
  rcases hc.mem hj' with hj | rfl
  · exact ⟨j', hj, (hsound.kind_of_later hc.later hj rfl hkind).1, hgo, rfl⟩
  · exact absurd hgo (not_progressing_of_created hc.status)

/-- **A step of the machine that makes no reservation** sets no entry on its way. -/
theorem Stands.effect (hsound : Sound db) (he : Effect db db') (hs : Settles db db') :
    Stands db db' := by
  have hl := he.later
  obtain ⟨_, hroutine⟩ := he
  cases hroutine with
  | moves hi _ => exact .moves hsound hl hi
  | resize hi _ => exact .moves hsound hl hi
  | @confirmExit i i' hi _ _ hkind _ _ =>
    refine .replaces hsound hl hi fun hentry _ ↦ ?_
    have hexit := hl.kind hi.terms hkind
    rw [hentry] at hexit
    cases hexit
  | confirmEntry _ _ _ _ _ hledger =>
    -- The reservation of the entry would be new.
    have hlength := congrArg List.length hs.owners
    rw [Table.rows_of_insert? hledger.reservations] at hlength
    simp at hlength
  | commit hi hstatus _ _ _ _ =>
    exact .replaces hsound hl hi fun _ _ ↦ Or.inl (by simp [hstatus])
  | drop hi _ hstatus' _ _ _ =>
    exact .replaces hsound hl hi fun _ hgo ↦ absurd hgo (not_progressing_of_dead hstatus')
  | settle hi _ _ _ _ => exact .moves hsound hl (.of_eq hi)

/-- The statements that are not routine set no entry on its way. -/
theorem Stands.unsafeStep {s : Sys} {act : Act} (hsound : Sound s.db) (hu : s.Unsafe db' act) :
    Stands s.db db' := by
  have hl := hu.later
  cases hu with
  | rejects _ _ _ hr =>
    obtain ⟨i', hi, hstatus', _⟩ := hr.replaces
    refine .replaces hsound hl hi fun _ hgo ↦ absurd hgo (not_progressing_of_dead ?_)
    simp [hstatus', deadStatuses]
  | preserves _ _ _ hp =>
    obtain ⟨i', hi, _, _⟩ := hp.replaces
    exact .replaces hsound hl hi fun _ _ ↦ Or.inl (by simp [hp.status])
  | strands _ hs =>
    obtain ⟨i', hi, hstatus', _⟩ := hs.replaces
    refine .replaces hsound hl hi fun _ hgo ↦ absurd hgo (not_progressing_of_dead ?_)
    simp [hstatus', deadStatuses]
  | expires _ he => exact .moves hsound hl (.of_eq he.intents)

end Intents

/-! ## Stages of candidates -/

/-- At most the named candidate changes, to the given status. -/
def Marks (t t' : Table Candidate) (candidateId : Option String) (status : String) : Prop :=
  ∀ c' ∈ t'.rows, (c' ∈ t.rows ∧ candidateId ≠ some c'.id) ∨
    (candidateId = some c'.id ∧ c'.lifecycleStatus = status)

/-- A candidate of the second state is one of the first, or its status is not that of a review. -/
def Stages (db db' : Db) : Prop :=
  ∀ c' ∈ db'.candidates.rows, c' ∈ db.candidates.rows ∨ c'.lifecycleStatus ∉ reviewStages

theorem Marks.of_updateOne {t t' : Table Candidate} {id status code : String}
    {c : Candidate → Bool} {f : Candidate → Candidate} (hf : Keeps f)
    (hstatus : ∀ x, (f x).lifecycleStatus = status) (h : t.updateOne id c f code hf = .ok t') :
    Marks t t' (some id) status := by
  obtain ⟨_, _, _, rfl⟩ := Table.updateOne_eq_ok.1 h
  intro c' hc'
  obtain ⟨x, hx, rfl⟩ := Table.mem_modify.1 hc'
  by_cases hkey : Row.key x = id
  · rw [if_pos hkey]
    refine Or.inr ⟨?_, hstatus x⟩
    rw [← hkey]
    exact congrArg some (hf.key x).symm
  · rw [if_neg hkey]
    refine Or.inl ⟨hx, fun heq ↦ hkey ?_⟩
    exact (Option.some_inj.1 heq).symm

theorem Stages.of_eq {db db' : Db} (h : db'.candidates = db.candidates) : Stages db db' := by
  intro c' hc'
  rw [h] at hc'
  exact Or.inl hc'

theorem Stages.of_marks {db db' : Db} {candidateId : Option String} {status : String}
    (h : Marks db.candidates db'.candidates candidateId status) (hstatus : status ∉ reviewStages) :
    Stages db db' := by
  intro c' hc'
  rcases h c' hc' with ⟨hmem, _⟩ | ⟨_, rfl⟩
  · exact Or.inl hmem
  · exact Or.inr hstatus

section Statements

variable [Hashing] {db db' : Db}

omit [Hashing] in
theorem stage_marks {id : String} {session : Session} {now : Time} {status reason : String}
    (h : persistCandidateExecutionStage db (some id) session now status reason = .ok db') :
    Marks db.candidates db'.candidates (some id) status := by
  simp only [persistCandidateExecutionStage, bind_eq_ok] at h
  obtain ⟨candidates, hupdate, h⟩ := h
  obtain rfl := Except.ok.inj h
  exact .of_updateOne _ (fun _ ↦ rfl) hupdate

omit [Hashing] in
theorem stage_stages {candidateId : Option String} {session : Session} {now : Time}
    {status reason : String} (hstatus : status ∉ reviewStages)
    (h : persistCandidateExecutionStage db candidateId session now status reason = .ok db') :
    Stages db db' := by
  rcases candidateId with - | id
  · obtain rfl := Except.ok.inj h
    exact .of_eq rfl
  · exact .of_marks (stage_marks h) hstatus

omit [Hashing] in
theorem confirmCandidate_marks {candidateId : Option String} {session : Session} {now : Time}
    (h : confirmCandidate db candidateId session now = .ok db') :
    Marks db.candidates db'.candidates candidateId "confirmed" := by
  rcases candidateId with - | id
  · obtain rfl := Except.ok.inj h
    exact fun c' hc' ↦ Or.inl ⟨hc', fun hnone ↦ (nomatch hnone)⟩
  · simp only [confirmCandidate, bind_eq_ok] at h
    obtain ⟨candidates, hupdate, h⟩ := h
    obtain rfl := Except.ok.inj h
    exact .of_updateOne _ (fun _ ↦ rfl) hupdate

/-- The promotion confirms the candidate of its intent. -/
theorem confirmIntent_marks {command : ExecutionCommand} {session : Session} {now : Time}
    {row : ConfirmableIntentRow} {amount : Option {a : ℚ // 0 < a}} {result : PromotionResult}
    (h : confirmIntent db command session now row amount = .ok (db', result)) :
    Marks db.candidates db'.candidates row.intent.candidateId "confirmed" := by
  have hreserved : ∀ {db₁ db₂ : Db} {expiresAt : Time} {fingerprint reservationId : String},
      reserve db₁ row session now expiresAt fingerprint reservationId amount = .ok db₂ →
        db₂.candidates = db₁.candidates := by
    intro db₁ db₂ expiresAt fingerprint reservationId hreserve
    rcases amount with - | amount
    · obtain rfl := Except.ok.inj hreserve
      rfl
    · obtain ⟨_, _, _, rfl⟩ := reserve_some_ok hreserve
      rfl
  simp only [confirmIntent, bind_eq_ok, require_eq_ok, Table.insertOne_eq_ok] at h
  obtain ⟨_, _, _, _, confirmations, _, db₂, hreserve, intents, _, db₃, hconfirm, hout⟩ := h
  obtain ⟨rfl, -⟩ := Prod.mk.inj (Except.ok.inj hout)
  have hsame := hreserved hreserve
  have hmarks := confirmCandidate_marks hconfirm
  dsimp only at hsame hmarks
  rwa [hsame] at hmarks

theorem settleAcknowledged_candidates {intent : Intent} {session : Session}
    {state : LifecycleState} {now : Time}
    (h : settleAcknowledged db intent session state now = .ok db') :
    db'.candidates = db.candidates := by
  unfold settleAcknowledged at h
  split at h
  · obtain rfl := Except.ok.inj h
    rfl
  · obtain ⟨_, _, _, _, _, _, rfl⟩ := releaseTerminalReservation_ok h
    rfl
  · rw [bind_eq_ok] at h
    obtain ⟨_, _, h⟩ := h
    obtain rfl := Except.ok.inj h
    rfl

/-- **No transaction of a run** gives a candidate the status of a review. -/
theorem Executes.stages (h : Executes db db') : Stages db db' := by
  cases h with
  | idle h => exact .of_eq (congrArg Db.candidates h)
  | promote h =>
    have hconfirmed : "confirmed" ∉ reviewStages := by decide
    rcases promote_ok h with ⟨rfl, _⟩ | ⟨row, _, ⟨_, hexit⟩ | ⟨_, _, _, _, hentry⟩⟩
    · exact .of_eq rfl
    · exact .of_marks (confirmIntent_marks hexit) hconfirmed
    · exact .of_marks (confirmIntent_marks hentry) hconfirmed
  | claim h =>
    obtain ⟨_, _, _, _, _, rfl⟩ := claimIntent_ok h
    exact .of_eq rfl
  | release _ h =>
    simp only [releaseClaim, bind_eq_ok] at h
    obtain ⟨intents, _, hstage⟩ := h
    exact @stage_stages { db with intents } _ _ _ _ _ _ (by decide) hstage
  | attempt _ h =>
    obtain ⟨_, _, _, _, _, rfl⟩ := recordSubmissionAttempt_ok h
    exact .of_eq rfl
  | reject _ h =>
    obtain ⟨_, _, _, _, _, _, rfl⟩ := recordDeterministicSubmissionFailure_ok h
    exact .of_eq rfl
  | record _ h =>
    simp only [recordSubmission, bind_eq_ok] at h
    obtain ⟨_, _, _, _, order, _, _, _, orders, _, _, _, events, _, intents, _, db₁, hsettle, db₂,
      hconsume, db₃, hstage, hout⟩ := h
    obtain ⟨rfl, -⟩ := Prod.mk.inj (Except.ok.inj hout)
    obtain ⟨_, _, rfl, _⟩ := consumeEvidence_ok hconsume
    have hsame := settleAcknowledged_candidates hsettle
    have hstages := stage_stages (by split <;> decide) hstage
    intro c' hc'
    refine (hstages c' hc').imp_left fun hmem ↦ ?_
    exact hsame ▸ hmem
  | doubt _ h =>
    simp only [recordAmbiguousSubmission, bind_eq_ok] at h
    obtain ⟨intents, _, events, _, db₁, hstage, hout⟩ := h
    obtain ⟨rfl, -⟩ := Prod.mk.inj (Except.ok.inj hout)
    exact @stage_stages { db with intents, events } _ _ _ _ _ _ (by decide) hstage
  | receipt _ h =>
    simp only [recordReconciledSubmissionReceipt, bind_eq_ok] at h
    obtain ⟨_, _, events, _, db₁, hconsume, db₂, hstage, hout⟩ := h
    obtain ⟨rfl, -⟩ := Prod.mk.inj (Except.ok.inj hout)
    obtain ⟨_, _, heq, _⟩ := consumeEvidence_ok hconsume
    have hstages : Stages db₁ db₂ := stage_stages (by decide) hstage
    rw [heq] at hstages
    exact hstages

theorem Reconciles.stages (h : Reconciles db db') : Stages db db' := by
  cases h with
  | idle h => exact .of_eq (congrArg Db.candidates h)
  | observe _ _ h =>
    have hstore : ∀ {target : Target} {obs : Observation} {now : Time} {resized : Option Resize}
        {counts : ObserveCounts}, storeObservation db target obs now resized = .ok (db', counts) →
          Stages db db' := by
      intro target obs now resized counts hstore
      obtain ⟨_, orders, _, db₁, _, _, _, hresize, _, hcases⟩ := storeObservation_ok hstore
      have hframe : db₁.candidates = db.candidates := by
        rcases resized with - | z
        · rw [applyResize_none hresize]
        · obtain ⟨_, rfl⟩ := applyResize_some hresize
          rfl
      rcases hcases with ⟨_, _, _, rfl⟩ | ⟨_, rfl⟩
      · exact .of_eq hframe
      · exact .of_eq hframe
    rcases observe_cases h with ⟨rfl, _⟩ | ⟨_, hstatement, _⟩ |
      ⟨_, _, _, _, _, _, _, hstatement, _⟩
    · exact .of_eq rfl
    · rcases observeStatement_ok hstatement with ⟨rfl, _⟩ | ⟨_, _, _, hok⟩
      · exact .of_eq rfl
      · exact hstore hok
    · rcases partialStatement_ok hstatement with ⟨rfl, _⟩ | ⟨_, _, _, _, hok, _⟩
      · exact .of_eq rfl
      · exact hstore hok
  | settle _ h =>
    rcases settle_cases h with ⟨_, _, _, _, hstatement⟩ | ⟨rfl, _⟩
    · obtain ⟨_, _, _, _, _, _, _, _, _, rfl⟩ := settleStatement_settled hstatement
      exact .of_eq rfl
    · exact .of_eq rfl
  | @conclude session target evidence now result h =>
    have hsame : (terminalizeAbsence db session target evidence now).1.candidates =
        db.candidates := by
      have hrelease : ∀ (db : Db) (id : Option String),
          (releaseAbsent db id now).1.candidates = db.candidates := by
        intro db id
        unfold releaseAbsent
        split
        · rfl
        · rfl
      unfold terminalizeAbsence
      dsimp only
      split
      · split
        · rfl
        · split
          · rfl
          · -- The checks on the row counts decide the verdict only.
            simp only [apply_ite Prod.fst, ite_self]
            rw [hrelease]
      · rfl
    rw [h] at hsame
    exact .of_eq hsame
  | absence h =>
    rw [h]
    unfold recordPendingAbsence
    split
    · split
      · exact .of_eq rfl
      · exact .of_eq rfl
    · exact .of_eq rfl
  | @defer session target now result h =>
    have hdefer : Stages db (deferAbsentCandidate db session target now).1 := by
      unfold deferAbsentCandidate
      split
      · exact .of_eq rfl
      · split
        · next candidates hupdate =>
          have hmarks : Marks db.candidates candidates _ "execution_deferred" :=
            .of_updateOne _ (fun _ ↦ rfl) hupdate
          exact @Stages.of_marks db { db with candidates } _ _ hmarks (by decide)
        · exact .of_eq rfl
    rwa [h] at hdefer

/-! ## Steps that make no review -/

omit [Hashing] in
theorem Progress.of_stands (h : Progress db) (hstands : Stands db db') (hstages : Stages db db') :
    Progress db' := by
  intro i' hi' hkind hgo c' hc' hid
  obtain ⟨i, hi, hkind₀, hgo₀, hsame⟩ := hstands i' hi' hkind hgo
  rcases hstages c' hc' with hmem | hstatus
  · rw [hsame] at hid
    exact h i hi hkind₀ hgo₀ c' hmem hid
  · exact hstatus

/-- A promotion confirms the candidate of the one entry it sets on its way. -/
theorem Progress.promotes (h : Progress db) (hsound : Sound db) (hp : Promotes db db') :
    Progress db' := by
  obtain ⟨command, session, signingKey, now, locked, result, hp⟩ := hp
  have hl := (promote_effect hp).later
  have hconfirm : ∀ {row : ConfirmableIntentRow} {amount : Option {a : ℚ // 0 < a}},
      confirmIntent db command session now row amount = .ok (db', result) →
        db.intents.get? row.intent.id = some row.intent → Progress db' := by
    intro row amount hconfirm hget i' hi' hkind hgo c' hc' hid
    have hmarks := confirmIntent_marks hconfirm c' hc'
    have hold : (i' ∈ db.intents.rows) ∨ i'.candidateId = row.intent.candidateId := by
      obtain ⟨_, _, _, db₂, _, _, _, _, hreserve, _, _, rfl, _⟩ := confirmIntent_ok hconfirm
      have hintents : db₂.intents = db.intents := by
        rcases amount with - | amount
        · obtain rfl := Except.ok.inj hreserve
          rfl
        · obtain ⟨_, _, _, rfl⟩ := reserve_some_ok hreserve
          rfl
      dsimp only at hi'
      rw [hintents] at hi'
      obtain ⟨x, hx, rfl⟩ := Table.mem_modify.1 hi'
      by_cases hkey : Row.key x = row.intent.id
      · obtain rfl : x = row.intent := db.intents.eq_of_key hx (Table.mem_of_get? hget) hkey
        rw [if_pos hkey]
        exact Or.inr rfl
      · rw [if_neg hkey]
        exact Or.inl hx
    rcases hmarks with ⟨hmem, hother⟩ | ⟨_, hstatus⟩
    · rcases hold with hi | hsame
      · exact h i' hi (hsound.kind_of_later hl hi rfl hkind).1 hgo c' hmem hid
      · exact absurd (hsame ▸ hid) hother
    · rw [hstatus]
      decide
  rcases promote_ok hp with ⟨rfl, _⟩ | ⟨row, hrow, ⟨_, hexit⟩ | ⟨_, _, _, _, hentry⟩⟩
  · exact h
  · exact hconfirm hexit (nextConfirmable_some hrow).1
  · exact hconfirm hentry (nextConfirmable_some hrow).1

/-- A transaction of a run is a step of the machine or the deterministic failure. -/
theorem Executes.effect (h : Executes db db') : Effect db db' ∨ ∃ i, Rejects db db' i := by
  cases h with
  | idle h =>
    rw [h]
    exact Or.inl (.refl db)
  | promote h => exact Or.inl (promote_effect h)
  | claim h => exact Or.inl (claim_effect h).1
  | release _ h => exact Or.inl (releaseClaim_effect h)
  | attempt _ h => exact Or.inl (attempt_effect h)
  | reject _ h =>
    obtain ⟨i, _, hrejects⟩ := rejection_effect h
    exact Or.inr ⟨i, hrejects⟩
  | record hknown h => exact Or.inl (acknowledge_effect hknown h)
  | doubt _ h => exact Or.inl (ambiguous_effect h)
  | receipt _ h => exact Or.inl (receipt_effect h)

theorem Executes.progress (h : Executes db db') (hsound : Sound db) (hp : Progress db) :
    Progress db' := by
  rcases h.books with hsettles | ⟨_, _, hpromotes⟩
  · refine hp.of_stands ?_ h.stages
    rcases h.effect with heffect | ⟨i, hrejects⟩
    · exact .effect hsound heffect hsettles
    · obtain ⟨i', hi, hstatus', _⟩ := hrejects.replaces
      refine .replaces hsound hrejects.later hi fun _ hgo ↦ ?_
      refine absurd hgo (not_progressing_of_dead ?_)
      simp [hstatus', deadStatuses]
  · exact hp.promotes hsound hpromotes

theorem Serves.stages (h : Serves db db') : Stages db db' := by
  rcases h with hreconciles | @⟨session, now, statement, rfl⟩ | rfl
  · exact hreconciles.stages
  · have htables := @RecoveryStatement.apply_tables _ db session now statement
    obtain ⟨_, _, _, _, _, _, htables⟩ := htables
    rw [htables]
    exact .of_eq rfl
  · exact .of_eq rfl

theorem Serves.stands (h : Serves db db') (hsound : Sound db) : Stands db db' := by
  have hsettles := h.settles
  rcases h with hreconciles | @⟨session, now, statement, rfl⟩ | rfl
  · exact .effect hsound hreconciles.effect hsettles
  · have hcases := @recovery_cases _ (Sys.idle db) session now statement
    rcases hcases with heffect | hunsafe
    · exact .effect hsound heffect hsettles
    · exact @Stands.unsafeStep _ (Sys.idle db) _ hsound hunsafe
  · exact .effect hsound (.quiet (.of_eq rfl rfl) rfl ⟨rfl, rfl, rfl⟩) hsettles

theorem Serves.sound (h : Serves db db') (hsound : Sound db) : Sound db' := by
  rcases h with hreconciles | @⟨session, now, statement, rfl⟩ | rfl
  · exact hsound.effect hreconciles.effect
  · have hcases := @recovery_cases _ (Sys.idle db) session now statement
    rcases hcases with heffect | hunsafe
    · exact hsound.effect heffect
    · exact @Sound.unsafeStep _ (Sys.idle db) _ hsound hunsafe
  · exact hsound.effect (.quiet (.of_eq rfl rfl) rfl ⟨rfl, rfl, rfl⟩)

/-- **Reconciliation and recovery** keep the progress of candidates. -/
theorem Serves.progress (h : Relation.ReflTransGen Serves db db') (hsound : Sound db)
    (hp : Progress db) : Progress db' := by
  have hstep : ∀ db₁ db₂, Sound db₁ ∧ Progress db₁ → Serves db₁ db₂ →
      Sound db₂ ∧ Progress db₂ := by
    intro db₁ db₂ hI hserves
    exact ⟨hserves.sound hI.1, hI.2.of_stands (hserves.stands hI.1) hserves.stages⟩
  exact (invariant_of_steps (I := fun db ↦ Sound db ∧ Progress db) hstep h ⟨hsound, hp⟩).2

/-! ## Reviews -/

/-- No entry on its way belongs to one of the candidates. -/
def Clear (ids : List String) (db : Db) : Prop :=
  ∀ i ∈ db.intents.rows, i.kind db = some .entry → i.Progressing →
    ∀ id ∈ ids, i.candidateId ≠ some id

/-- The candidate a statement marks. -/
def EntryStatement.stage? : EntryStatement → Option String
  | .stage candidateId _ _ => some candidateId
  | _ => none

omit [Hashing] in
theorem Clear.stands {ids : List String} (h : Clear ids db) (hs : Stands db db') :
    Clear ids db' := by
  intro i' hi' hkind hgo id hid
  obtain ⟨i, hi, hkind₀, hgo₀, hsame⟩ := hs i' hi' hkind hgo
  rw [hsame]
  exact h i hi hkind₀ hgo₀ id hid

omit [Hashing] in
theorem entryStatement_stages {session : Session} {now : Time} {statement : EntryStatement}
    (hnone : statement.stage? = none) (h : statement.apply session now db = .ok db') :
    Stages db db' := by
  rcases statement with ⟨candidateId, status, reason⟩ | recorded | r | i | code
  · cases hnone
  · simp only [EntryStatement.apply, bind_eq_ok] at h
    obtain ⟨_, _, _, _, h⟩ := h
    obtain rfl := Except.ok.inj h
    exact .of_eq rfl
  · rcases entryStatement_review h with rfl | ⟨_, _, rfl⟩
    · exact .of_eq rfl
    · exact .of_eq rfl
  · rcases entryStatement_intent h with rfl | ⟨_, _, _, rfl⟩
    · exact .of_eq rfl
    · exact .of_eq rfl
  · cases h

omit [Hashing] in
/-- A statement of a review, when the candidates it may mark have no entry on its way. -/
theorem entryStatement_progress {session : Session} {now : Time} {statement : EntryStatement}
    {ids : List String} (hfresh : statement.Fresh)
    (hstage : ∀ id, statement.stage? = some id → id ∈ ids)
    (hI : Sound db ∧ Progress db ∧ Clear ids db)
    (h : statement.apply session now db = .ok db') :
    Sound db' ∧ Progress db' ∧ Clear ids db' := by
  obtain ⟨hsound, hp, hclear⟩ := hI
  have hsound' : Sound db' ∧ Stands db db' := by
    rcases entryStatement_effect hfresh h with heffect | ⟨i, _, hcreates⟩
    · exact ⟨hsound.effect heffect, .effect hsound heffect (EntryStatement.settles h)⟩
    · exact ⟨hsound.creates hcreates, .creates hsound hcreates⟩
  refine ⟨hsound'.1, ?_, hclear.stands hsound'.2⟩
  rcases hid : statement.stage? with - | id
  · exact hp.of_stands hsound'.2 (entryStatement_stages hid h)
  · -- The marked candidate is none of those with an entry on its way.
    intro i' hi' hkind hgo c' hc' hcandidate
    obtain ⟨i, hi, hkind₀, hgo₀, hsame⟩ := hsound'.2 i' hi' hkind hgo
    have hnot := hclear i hi hkind₀ hgo₀ id (hstage id hid)
    rcases statement with ⟨candidateId, status, reason⟩ | recorded | r | i | code
    · obtain rfl := Option.some_inj.1 hid
      have hmarks := stage_marks h c' hc'
      rw [hsame] at hcandidate
      rcases hmarks with ⟨hmem, _⟩ | ⟨heq, _⟩
      · exact hp i hi hkind₀ hgo₀ c' hmem hcandidate
      · exact absurd (hcandidate.trans heq.symm) hnot
    all_goals cases hid

omit [Hashing] in
theorem runEntryStatements_progress {session : Session} {now : Time}
    {statements : List EntryStatement} {ids : List String}
    (hfresh : ∀ statement ∈ statements, statement.Fresh)
    (hstage : ∀ statement ∈ statements, ∀ id, statement.stage? = some id → id ∈ ids)
    (hI : Sound db ∧ Progress db ∧ Clear ids db) :
    Progress (runEntryStatements session now db statements).1 := by
  induction statements generalizing db with
  | nil => exact hI.2.1
  | cons statement rest ih =>
    rw [runEntryStatements]
    split
    · exact hI.2.1
    · next db₁ hok =>
      refine ih (fun s hs ↦ hfresh s (List.mem_cons_of_mem _ hs))
        (fun s hs ↦ hstage s (List.mem_cons_of_mem _ hs)) ?_
      exact entryStatement_progress (hfresh statement List.mem_cons_self)
        (hstage statement List.mem_cons_self) hI hok

omit [Hashing] in
theorem stageRows_stage {rows : List ReviewSourceRow} {reason : Candidate → Option String}
    {statement : EntryStatement} {id : String} (h : statement ∈ stageRows rows reason)
    (hid : statement.stage? = some id) : id ∈ rows.map (·.candidate.id) := by
  unfold stageRows at h
  rw [List.mem_filterMap] at h
  obtain ⟨row, hrow, h⟩ := h
  rw [Option.map_eq_some_iff] at h
  obtain ⟨_, _, rfl⟩ := h
  obtain rfl := Option.some_inj.1 hid
  exact List.mem_map_of_mem hrow

omit [Hashing] in
theorem eligibleRows_mem {request : EntryReviewRequest} {rows : List ReviewSourceRow}
    {row : ReviewSourceRow} {e : EntryEvidence} (h : (row, e) ∈ eligibleRows request rows) :
    row.candidate.id ∈ rows.map (·.candidate.id) := by
  unfold eligibleRows at h
  rw [List.mem_filterMap] at h
  obtain ⟨row', hrow', h⟩ := h
  split at h
  · obtain ⟨rfl, -⟩ := Prod.mk.inj (Option.some_inj.1 h)
    exact List.mem_map_of_mem hrow'
  · cases h

omit [Hashing] in
theorem decisionStatements_stage {decisions : List PortfolioArbitrationDecision}
    {eligible : List (ReviewSourceRow × EntryEvidence)} {statement : EntryStatement} {id : String}
    (h : statement ∈ decisionStatements decisions eligible) (hid : statement.stage? = some id) :
    ∃ row e, (row, e) ∈ eligible ∧ row.candidate.id = id := by
  unfold decisionStatements at h
  rw [List.mem_flatMap] at h
  obtain ⟨⟨row, e⟩, hmem, h⟩ := h
  refine ⟨row, e, hmem, ?_⟩
  dsimp only at h
  split at h
  · rw [List.mem_singleton.1 h] at hid
    cases hid
  · split at h
    · rw [List.mem_singleton.1 h] at hid
      exact Option.some_inj.1 hid
    · split at h
      · cases h
      · rw [List.mem_singleton.1 h] at hid
        cases hid

theorem approvedStatements_stage {request : EntryReviewRequest}
    {decisions : List PortfolioArbitrationDecision}
    {eligible : List (ReviewSourceRow × EntryEvidence)} {statement : EntryStatement} {id : String}
    (h : statement ∈ (approvedRows decisions eligible).flatMap (·.statements request))
    (hid : statement.stage? = some id) : ∃ row e, (row, e) ∈ eligible ∧ row.candidate.id = id := by
  rw [List.mem_flatMap] at h
  obtain ⟨a, ha, h⟩ := h
  unfold approvedRows at ha
  rw [List.mem_filterMap] at ha
  obtain ⟨⟨row, e⟩, hmem, ha⟩ := ha
  simp only [Option.bind_eq_bind, Option.bind_eq_some_iff] at ha
  obtain ⟨decision, _, amount, _, ha⟩ := ha
  split at ha
  · obtain rfl := Option.some_inj.1 ha
    refine ⟨row, e, hmem, ?_⟩
    unfold ApprovedRow.statements at h
    simp only [List.mem_cons, List.not_mem_nil, or_false] at h
    rcases h with rfl | rfl | rfl
    · cases hid
    · cases hid
    · exact Option.some_inj.1 hid
  · cases ha

/-- A review marks candidates of its source query only. -/
theorem planEntryReview_stage {request : EntryReviewRequest} {session : Session}
    {statements : List EntryStatement} {statement : EntryStatement} {id : String}
    (h : planEntryReview db request session = .ok statements) (hmem : statement ∈ statements)
    (hid : statement.stage? = some id) :
    id ∈ (entrySource db request).map (·.candidate.id) := by
  unfold planEntryReview at h
  simp only [bind_eq_ok] at h
  obtain ⟨_, _, _, _, h⟩ := h
  have hstages : ∀ {stages : List EntryStatement} {r₁ r₂ : Candidate → Option String},
      stages = stageRows (entrySource db request) r₁ ++ stageRows (entrySource db request) r₂ →
        statement ∈ stages → id ∈ (entrySource db request).map (·.candidate.id) := by
    rintro _ r₁ r₂ rfl hstage
    rw [List.mem_append] at hstage
    rcases hstage with hstage | hstage
    · exact stageRows_stage hstage hid
    · exact stageRows_stage hstage hid
  split at h
  · next shared rest first e eligible hrows heligible =>
    obtain rfl := Except.ok.inj h
    rw [List.mem_append] at hmem
    rcases hmem with hstage | harbitrated
    · exact hstages rfl hstage
    · have hrow : ∃ row e', (row, e') ∈ eligibleRows request (entrySource db request) ∧
          row.candidate.id = id := by
        rw [heligible]
        unfold arbitratedStatements at harbitrated
        split at harbitrated
        · rw [List.mem_singleton.1 harbitrated] at hid
          cases hid
        · rw [List.mem_append, List.mem_cons] at harbitrated
          rcases harbitrated with (rfl | hdecision) | hstored
          · cases hid
          · exact decisionStatements_stage hdecision hid
          · exact approvedStatements_stage hstored hid
      obtain ⟨row, e', hmem, rfl⟩ := hrow
      exact eligibleRows_mem hmem
  · obtain rfl := Except.ok.inj h
    exact hstages rfl hmem

/-- **A review keeps the progress of candidates** when none of those it looks at has an entry on
its way. -/
theorem runEntryReview_progress {request : EntryReviewRequest} {session : Session}
    (hsound : Sound db) (hp : Progress db)
    (hclear : Clear ((entrySource db request).map (·.candidate.id)) db) :
    Progress (runEntryReview db request session).1 := by
  unfold runEntryReview
  split
  · exact hp
  · next statements hplan =>
    exact runEntryStatements_progress (planEntryReview_fresh hplan)
      (fun _ hmem _ hid ↦ planEntryReview_stage hplan hmem hid) ⟨hsound, hp, hclear⟩

/-! ## Runs -/

omit [Hashing] in
/-- The source query of a review returns no candidate with an entry on its way. -/
def Sys.ReviewsIdle (s : Sys) : Act → Prop
  | .review _ request => Clear ((entrySource s.db request).map (·.candidate.id)) s.db
  | _ => True

/-- The state between two steps, for the progress of candidates. -/
structure Sys.Steady (s : Sys) : Prop where
  valid : s.Valid
  sound : Sound s.db
  progress : Progress s.db

theorem Sys.steady_step {s s' : Sys} {act : Act} (h : s.Steady) (hguard : s.ReviewsIdle act)
    (hstep : Sys.step act s = some s') : s'.Steady := by
  obtain ⟨hvalid, hcases⟩ := Sys.step_cases h.valid hstep
  have hsound : Sound s'.db := by
    rcases hcases with hadvances | hunsafe
    · exact h.sound.advances hadvances
    · exact h.sound.unsafeStep hunsafe
  refine ⟨hvalid, hsound, ?_⟩
  rcases Sys.step_serves h.valid hstep with hexecutes | hserves | ⟨_, _, _, rfl, hsync⟩ |
    ⟨session, request, rfl, hreview⟩
  · exact hexecutes.progress h.sound h.progress
  · exact Serves.progress hserves h.sound h.progress
  · have hsettles := SyncStatement.settles hsync
    refine h.progress.of_stands (.effect h.sound (sync_effect hsync) hsettles) ?_
    obtain ⟨_, _, _, _, htables⟩ := SyncStatement.apply_tables hsync
    rw [htables]
    exact .of_eq rfl
  · rw [hreview]
    exact runEntryReview_progress h.sound h.progress hguard

/-- **No review undoes the progress of a candidate** in a run whose reviews look at no candidate
with an entry on its way: none of these is marked as sized, skipped or blocked, and the stale-ready
query selects no ready entry whose evidence is still good. -/
theorem progress_not_undone (db : Db) (acts : List Act) (s : Sys) (hsound : Sound db)
    (hprogress : Progress db) (hguard : Guarded Sys.step Sys.ReviewsIdle (Sys.idle db) acts)
    (hrun : runActs Sys.step (Sys.idle db) acts = some s) :
    Progress s.db ∧
    ∀ i ∈ s.db.intents.rows, i.kind s.db = some .entry → ∀ c r session now,
      i.candidateId.bind s.db.candidates.get? = some c →
      i.executionReviewId.bind s.db.reviews.get? = some r →
      c.decision = .selected → c.lifecycleStatus ∉ ["expired", "rejected"] →
      now - autonomousMarketDataFreshnessMs < c.asOf → staleReview now r = false →
      staleConfirmation now (i.confirmationEvidenceId.bind s.db.confirmations.get?) = false →
      staleReservation now (i.reservationId.bind s.db.reservations.get?) = false →
      staleReady s.db session now i = false := by
  have hsteady := invariant_of_guarded (fun _ _ _ hI hg hstep ↦ Sys.steady_step hI hg hstep)
    ⟨Sys.idle_valid db, hsound, hprogress⟩ hguard hrun
  refine ⟨hsteady.progress, fun i hi hkind c r session now hc hr hselected hopen hfresh hreview
    hconfirmation hreservation ↦ ?_⟩
  unfold staleReady
  rw [hr, hc]
  dsimp only
  by_cases hready : i.status = .readyForSubmission
  · obtain ⟨id, hid, hget⟩ := Option.bind_eq_some_iff.1 hc
    have hstages : c.lifecycleStatus ∉ reviewStages := by
      refine hsteady.progress i hi hkind (Or.inl (by simp [hready])) c (Table.mem_of_get? hget) ?_
      rw [hid]
      exact congrArg some (Table.key_of_get? hget).symm
    have hcandidate : staleCandidate now c = false := by
      simp only [reviewStages, List.mem_cons, List.not_mem_nil, or_false, not_or] at hstages hopen
      simp [staleCandidate, hselected, hopen, hstages, hfresh]
    rw [hcandidate, hreview, hconfirmation, hreservation]
    simp
  · simp [hready]

end Statements

/-! ## A candidate that is reviewed again -/

namespace Specimen

/-- The account before the first review of its candidate. -/
def openDb : Db :=
  { tradingDb with
    candidates := .ofRows [
      { id := "cand", researchRunId := "research", symbol := "XYZ",
        lifecycleStatus := "discovered", asOf := 1000 }]
    reviews := .ofRows []
    intents := .ofRows [] }

/-- A review that finds this of every candidate. -/
def assessed (assessment : EntryAssessment) (now : Time) : EntryReviewRequest :=
  { signingKey := "signing-key-of-16", latestResearch := some "research", maxCandidates := 5,
    assess := fun _ ↦ assessment, now }

/-- The candidate is reviewed and its intent promoted; then the account is observed anew. -/
def promotedActs : List Act :=
  [.review session (assessed (.eligible { price := 100, amount := 1000 }) 1500), .start config,
    .run 0 (.count 0 true true), .run 0 (.promote 0 (fun _ ↦ false) .none),
    .sync session { observed [] 3000 with portfolioFingerprint := "later" } .accountSnapshot]

/-- The next review finds its quote too old. -/
def againActs : List Act :=
  promotedActs ++ [.review session (assessed (.blocked "STALE_QUOTE") 3500)]

/-- A run from the first review on. -/
def reviewRun (acts : List Act) : Option Sys :=
  runActs (@Sys.step hashing) (Sys.idle openDb) acts

/-- The statuses of the candidates, and of the intents before and after a sweep of stale ready
intents that finds no order at the broker. -/
def sweptOf (s : Sys) : List String × List IntentStatus × List IntentStatus :=
  let swept := (@sweepStaleReady hashing s.db session 4000 fun _ ↦ .inl { status := some 404 }).1
  (s.db.candidates.rows.map (·.lifecycleStatus), s.db.intents.rows.map (·.status),
    swept.intents.rows.map (·.status))

theorem openDb_sound : Sound openDb := by
  refine ⟨fun i hi ↦ ?_, fun i hi ↦ ?_, fun i hi ↦ ?_, fun t ht ↦ ?_⟩
  · cases hi
  · cases hi
  · cases hi
  · cases ht

theorem openDb_progress : Progress openDb := by
  intro i hi
  cases hi

end Specimen

/-- The theorem at the specimen: the candidate stays confirmed, and the sweep spares its intent. -/
theorem specimen_progress_kept :
    ∃ s, Specimen.reviewRun Specimen.promotedActs = some s ∧
      Specimen.sweptOf s = (["confirmed"], [.readyForSubmission], [.readyForSubmission]) ∧
      Progress s.db := by
  let _ := Specimen.hashing
  have hrun : (Specimen.reviewRun Specimen.promotedActs).map Specimen.sweptOf =
      some (["confirmed"], [.readyForSubmission], [.readyForSubmission]) := by decide +kernel
  obtain ⟨s, hs, hswept⟩ := Option.map_eq_some_iff.1 hrun
  refine ⟨s, hs, hswept, (progress_not_undone Specimen.openDb Specimen.promotedActs s
    Specimen.openDb_sound Specimen.openDb_progress ⟨?_, fun t _ ↦ ?_⟩ hs).1⟩
  · intro i hi
    cases hi
  · refine guarded_of_forall t fun a ha u ↦ ?_
    simp only [List.mem_cons, List.not_mem_nil, or_false] at ha
    rcases ha with rfl | rfl | rfl | rfl
    all_goals exact trivial

/-- A review undoes the progress of a candidate: its intent is ready, the next review marks the
candidate as blocked, and the sweep cancels the intent. -/
theorem review_undoes_progress :
    Sound Specimen.openDb ∧ Progress Specimen.openDb ∧
      (Specimen.reviewRun Specimen.promotedActs).map Specimen.sweptOf =
        some (["confirmed"], [.readyForSubmission], [.readyForSubmission]) ∧
      (Specimen.reviewRun Specimen.againActs).map Specimen.sweptOf =
        some (["blocked"], [.readyForSubmission], [.cancelled]) :=
  ⟨Specimen.openDb_sound, Specimen.openDb_progress, by decide +kernel, by decide +kernel⟩

end AlpacaTrading
