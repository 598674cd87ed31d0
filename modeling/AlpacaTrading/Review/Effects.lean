import AlpacaTrading.Lib.Run
import AlpacaTrading.Execution.Effects
import AlpacaTrading.Review.Entry
import AlpacaTrading.Store.Invariant

/-!
# The entry review as steps of the machine

The review is the only service here that stores new intents.  Each of its statements is a routine
step or stores one intent as `created`, with a review and without a reservation.
-/

namespace AlpacaTrading

/-! ## Statements -/

/-- A step of the machine, or a new intent. -/
def Advance (db db' : Db) : Prop := Effect db db' ∨ ∃ i, Creates db db' i

theorem Advance.later {db db' : Db} (h : Advance db db') : Later db db' := by
  rcases h with h | ⟨i, h⟩
  · exact h.later
  · exact h.later

/-- The intents of a review are new. -/
def EntryStatement.Fresh : EntryStatement → Prop
  | .intent i => i.reservationId = none ∧ i.status = .created ∧ i.lifecycleState = .reviewCreated
  | _ => True

/-- Whether the statement stores an intent. -/
def EntryStatement.intent? : EntryStatement → Option Intent
  | .intent i => some i
  | _ => none

section Statements

variable {db db' : Db} {session : Session} {now : Time} {statement : EntryStatement}

theorem entryStatement_intent {i : Intent}
    (h : (EntryStatement.intent i).apply session now db = .ok db') :
    db' = db ∨ ((∃ type, i.kind db = some type) ∧
      ∃ intents, db.intents.insert? i = some intents ∧ db' = { db with intents }) := by
  simp only [EntryStatement.apply] at h
  split at h
  · right
    simp only [bind_eq_ok, require_eq_ok, Table.insertOne_eq_ok] at h
    obtain ⟨_, hkey, intents, hins, hout⟩ := h
    cases hout
    obtain ⟨id, hid, hsome⟩ := (Option.any_eq_true _ _).1 hkey
    obtain ⟨r, hr⟩ := Option.isSome_iff_exists.1 hsome
    refine ⟨⟨r.reviewType, kind_of_review ?_⟩, intents, hins, rfl⟩
    rw [hid, Option.bind_some, hr]
  · left
    exact (Except.ok.inj h).symm

theorem entryStatement_review {r : Review}
    (h : (EntryStatement.review r).apply session now db = .ok db') :
    db' = db ∨ ∃ reviews, db.reviews.insert? r = some reviews ∧ db' = { db with reviews } := by
  simp only [EntryStatement.apply] at h
  split at h
  · right
    simp only [bind_eq_ok, Table.insertOne_eq_ok] at h
    obtain ⟨reviews, hins, hout⟩ := h
    cases hout
    exact ⟨reviews, hins, rfl⟩
  · left
    exact (Except.ok.inj h).symm

/-- **A statement of an entry review** is a step of the machine, or stores its intent. -/
theorem entryStatement_effect (hfresh : statement.Fresh)
    (h : statement.apply session now db = .ok db') :
    Effect db db' ∨ ∃ i, statement.intent? = some i ∧ Creates db db' i := by
  cases statement with
  | stage candidateId status reason =>
    have hstage : persistCandidateExecutionStage db (some candidateId) session now status reason =
        .ok db' := h
    obtain ⟨candidates, rfl⟩ := persistCandidateExecutionStage_ok hstage
    exact Or.inl (.quiet (.of_eq rfl rfl) rfl ⟨rfl, rfl, rfl⟩)
  | decisions recorded =>
    simp only [EntryStatement.apply, bind_eq_ok, require_eq_ok] at h
    obtain ⟨_, _, _, _, hout⟩ := h
    cases hout
    exact Or.inl (.refl db)
  | review r =>
    rcases entryStatement_review h with rfl | ⟨reviews, hins, rfl⟩
    · exact Or.inl (.refl _)
    · refine Or.inl (.quiet ⟨fun _ he ↦ he, fun id x hx ↦ ?_⟩ rfl ⟨rfl, rfl, rfl⟩)
      exact ⟨x, Table.get?_of_insert? hins hx, rfl⟩
  | intent i =>
    rcases entryStatement_intent h with rfl | ⟨hkind, intents, hins, rfl⟩
    · exact Or.inl (.refl _)
    · obtain ⟨hres, hstatus, hstate⟩ := hfresh
      refine Or.inr ⟨i, rfl, .of_eq rfl rfl, ⟨rfl, rfl, rfl⟩, hins, hres, hkind, hstatus, ?_⟩
      rw [hstate]
      simp [exitOrderStates]
  | throw code => cases h

theorem runEntryStatements_advances {statements : List EntryStatement}
    (hfresh : ∀ statement ∈ statements, statement.Fresh) (db : Db) :
    Relation.ReflTransGen Advance db (runEntryStatements session now db statements).1 := by
  induction statements generalizing db with
  | nil => exact .refl
  | cons statement rest ih =>
    unfold runEntryStatements
    split
    · exact .refl
    · next db₁ hok =>
      have hstep : Advance db db₁ :=
        (entryStatement_effect (hfresh statement List.mem_cons_self) hok).imp_right
          fun ⟨i, _, hi⟩ ↦ ⟨i, hi⟩
      exact (Relation.ReflTransGen.single hstep).trans
        (ih (fun s hs ↦ hfresh s (List.mem_cons_of_mem _ hs)) db₁)

end Statements

/-! ## The plan -/

section Plan

variable [Hashing] {db : Db} {request : EntryReviewRequest} {session : Session}

omit [Hashing] in
theorem stageRows_fresh {rows : List ReviewSourceRow} {reason : Candidate → Option String}
    {statement : EntryStatement} (h : statement ∈ stageRows rows reason) :
    statement.intent? = none := by
  unfold stageRows at h
  rw [List.mem_filterMap] at h
  obtain ⟨row, _, hrow⟩ := h
  rw [Option.map_eq_some_iff] at hrow
  obtain ⟨text, _, rfl⟩ := hrow
  rfl

omit [Hashing] in
theorem decisionStatements_fresh {decisions : List PortfolioArbitrationDecision}
    {eligible : List (ReviewSourceRow × EntryEvidence)} {statement : EntryStatement}
    (h : statement ∈ decisionStatements decisions eligible) : statement.intent? = none := by
  unfold decisionStatements at h
  rw [List.mem_flatMap] at h
  obtain ⟨⟨row, e⟩, _, hrow⟩ := h
  dsimp only at hrow
  split at hrow
  · rw [List.mem_singleton.1 hrow]
    rfl
  · split at hrow
    · rw [List.mem_singleton.1 hrow]
      rfl
    · split at hrow
      · simp at hrow
      · rw [List.mem_singleton.1 hrow]
        rfl

theorem approvedStatements_intent {a : ApprovedRow} {statement : EntryStatement} {i : Intent}
    (h : statement ∈ a.statements request) (hintent : statement.intent? = some i) :
    i = a.intent request.now := by
  unfold ApprovedRow.statements at h
  simp only [List.mem_cons, List.not_mem_nil, or_false] at h
  rcases h with rfl | rfl | rfl
  · cases hintent
  · exact (Option.some_inj.1 hintent).symm
  · cases hintent

/-- The intents an entry review may store: those of the approved rows. -/
theorem planEntryReview_intent {statements : List EntryStatement} {statement : EntryStatement}
    {i : Intent} (h : planEntryReview db request session = .ok statements)
    (hmem : statement ∈ statements) (hintent : statement.intent? = some i) :
    ∃ shared first rows eligible result context,
      rows = entrySource db request ∧ eligible = eligibleRows request rows ∧
      rows.head? = some shared ∧ eligible.head?.map Prod.fst = some first ∧
      portfolioResourceContext db shared rows = .ok context ∧
      arbitratePortfolioResources (entryArbitration request session context first eligible) =
        .ok result ∧
      ∃ a ∈ approvedRows result.decisions eligible, i = a.intent request.now := by
  unfold planEntryReview at h
  simp only [bind_eq_ok] at h
  obtain ⟨_, _, _, _, h⟩ := h
  split at h
  · next shared rest first e eligible hrows heligible =>
    obtain rfl := Except.ok.inj h
    rw [List.mem_append, List.mem_append] at hmem
    rcases hmem with (hstage | hstage) | harb
    · rw [stageRows_fresh hstage] at hintent
      cases hintent
    · rw [stageRows_fresh hstage] at hintent
      cases hintent
    · unfold arbitratedStatements at harb
      split at harb
      · rw [List.mem_singleton.1 harb] at hintent
        cases hintent
      · next result hresult =>
        rw [bind_eq_ok] at hresult
        obtain ⟨context, hcontext, hresult⟩ := hresult
        refine ⟨shared, first, _, _, result, context, rfl, rfl, by rw [hrows]; rfl, ?_, hcontext,
          ?_, ?_⟩
        · rw [heligible]
          rfl
        · rw [heligible]
          exact hresult
        · rw [heligible]
          rw [List.mem_append, List.mem_cons] at harb
          rcases harb with (rfl | hdecision) | hstored
          · cases hintent
          · rw [decisionStatements_fresh hdecision] at hintent
            cases hintent
          · rw [List.mem_flatMap] at hstored
            obtain ⟨a, ha, hstored⟩ := hstored
            exact ⟨a, ha, approvedStatements_intent hstored hintent⟩
  · obtain rfl := Except.ok.inj h
    rw [List.mem_append] at hmem
    rcases hmem with hstage | hstage
    · rw [stageRows_fresh hstage] at hintent
      cases hintent
    · rw [stageRows_fresh hstage] at hintent
      cases hintent

theorem planEntryReview_fresh {statements : List EntryStatement}
    (h : planEntryReview db request session = .ok statements) :
    ∀ statement ∈ statements, statement.Fresh := by
  intro statement hmem
  cases statement with
  | intent i =>
    obtain ⟨_, _, _, _, _, _, _, _, _, _, _, _, a, _, rfl⟩ := planEntryReview_intent h hmem rfl
    exact ⟨rfl, rfl, rfl⟩
  | stage candidateId status reason => trivial
  | decisions recorded => trivial
  | review r => trivial
  | throw code => trivial

/-- **An entry review is a sequence of steps and new intents.** -/
theorem runEntryReview_advances :
    Relation.ReflTransGen Advance db (runEntryReview db request session).1 := by
  unfold runEntryReview
  split
  · exact .refl
  · next statements hplan =>
    exact runEntryStatements_advances (planEntryReview_fresh hplan) db

end Plan

end AlpacaTrading
