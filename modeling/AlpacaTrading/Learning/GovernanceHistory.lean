import AlpacaTrading.Learning.GovernanceRun

/-!
# Histories of learning governance

A history is a sequence of changes of the learning records and of runs, which may fail.  The records
may change in any way.  The state keeps the records of the last run that completed; nothing reads
them but the statements.

## The invariant

`Governed` is about those records: the current decisions follow them, and what the run wanted is
current.  Only a run that writes changes a decision, so both hold until the next run that completes.
-/

namespace AlpacaTrading

namespace LearningGovernance

/-- The tables, and the records of the last run that completed. -/
structure State where
  db : GovernanceDb
  governed : Option (List LearningRecordRow)

inductive Act where
  /-- The records become others. -/
  | record (records : List LearningRecordRow)
  | apply (call : Call)

/-- No record, no run and no decision. -/
def initial : State where
  db := { records := [], runs := Table.empty, decisions := Table.empty }
  governed := none

variable [Locale]

/-- One step. -/
def step (p : Policy) (act : Act) (s : State) : Option State :=
  match act with
  | .record records => some { s with db := { s.db with records } }
  | .apply call =>
    let outcome := applyPaperLearningGovernance p call s.db
    some
      { db := outcome.2
        governed := if outcome.1.isSome then some s.db.records else s.governed }

/-- **When a run does what it should.**  It does not fail after `COMMIT`; and unless it fails
before, the symbols it leaves out have their newest records first in the scan, and those it leaves
undecided have decisions that follow their records. -/
def Condition (p : Policy) (s : State) (act : Act) : Prop :=
  match act with
  | .record _ => True
  | .apply call => call.fault ≠ some .readAfterCommit ∧
    (¬ Stops p call s.db → CutsNewestFirst p s.db.records ∧ Kept p s.db)

/-- The decisions and the records of the last run that completed. -/
structure Governed (p : Policy) (s : State) : Prop where
  families : ∀ row, CurrentIn s.db.decisions row → row.scopeType = .strategyFamily →
    row.scopeKey ∈ p.strategyPolicies.map Prod.fst
  follows : ∀ records, s.governed = some records →
    ∀ row, CurrentIn s.db.decisions row → Follows p records row
  wanted : ∀ records, s.governed = some records → ∀ d ∈ desiredFor p records,
    ∃ row, CurrentIn s.db.decisions row ∧ row.scope = d.scope ∧ Carries row d
  newest : ∀ records, s.governed = some records →
    NewestSymbols p.maxSymbolScopes (scanEvaluatedLearningRecords p records)
      (evaluatedSymbols p records)

section Invariant

variable {p : Policy} {s s' : State} {call : Call} {act : Act} {acts : List Act}

theorem initial_governed (p : Policy) : Governed p initial where
  families _ h := absurd h.1 List.not_mem_nil
  follows _ h := absurd h.symm (Option.some_ne_none _)
  wanted _ h := absurd h.symm (Option.some_ne_none _)
  newest _ h := absurd h.symm (Option.some_ne_none _)

/-- What does not write decisions keeps the invariant. -/
theorem Governed.of_same (h : Governed p s) (hdecisions : s'.db.decisions = s.db.decisions)
    (hgoverned : s'.governed = s.governed) : Governed p s' where
  families := by rw [hdecisions]; exact h.families
  follows := by rw [hdecisions, hgoverned]; exact h.follows
  wanted := by rw [hdecisions, hgoverned]; exact h.wanted
  newest := by rw [hgoverned]; exact h.newest

/-- A family scope that is wanted is one of the policy's. -/
theorem family_of_desired {records : List LearningRecordRow} {key : String}
    (h : (ScopeType.strategyFamily, key) ∈ (desiredFor p records).map (·.scope)) :
    key ∈ p.strategyPolicies.map Prod.fst := by
  rw [desiredFor, desired_scopes, List.mem_append] at h
  rcases h with h | h
  · obtain ⟨family, hfamily, heq⟩ := List.mem_map.1 h
    exact List.mem_map.2 ⟨family, hfamily, (Prod.mk.inj heq).2⟩
  · obtain ⟨entry, -, heq⟩ := List.mem_map.1 h
    cases heq

theorem desired_of_family {key : String} (records : List LearningRecordRow)
    (h : key ∈ p.strategyPolicies.map Prod.fst) :
    (ScopeType.strategyFamily, key) ∈ (desiredFor p records).map (·.scope) := by
  obtain ⟨family, hfamily, rfl⟩ := List.mem_map.1 h
  rw [desiredFor, desired_scopes, List.mem_append]
  exact .inl (List.mem_map.2 ⟨family, hfamily, rfl⟩)

/-- **A run that writes.** -/
theorem governed_of_written (hp : (p.strategyPolicies.map Prod.fst).Nodup) (h : Governed p s)
    {written : Written}
    (hwritten : writeDecisions p call (desiredFor p s.db.records) s.db.decisions = some written)
    (hcut : CutsNewestFirst p s.db.records) (hkept : Kept p s.db)
    (hdecisions : s'.db.decisions = written.decisions)
    (hgoverned : s'.governed = some s.db.records) : Governed p s' := by
  obtain ⟨hdone, hframe, -, -⟩ := writeDecisions_spec hp hwritten
  have hrecords : ∀ records, s'.governed = some records → records = s.db.records := fun records hr ↦
    Option.some_inj.1 (hr.symm.trans hgoverned)
  constructor
  case families =>
    intro row hrow hfamily
    rw [hdecisions] at hrow
    by_cases hin : row.scope ∈ (desiredFor p s.db.records).map (·.scope)
    · have hwanted : (ScopeType.strategyFamily, row.scopeKey) ∈
          (desiredFor p s.db.records).map (·.scope) := by
        rw [← hfamily]
        exact hin
      exact family_of_desired hwanted
    · exact h.families row ((hframe row hin).1 hrow) hfamily
  case follows =>
    intro records hr row hrow
    rw [hrecords records hr]
    rw [hdecisions] at hrow
    by_cases hin : row.scope ∈ (desiredFor p s.db.records).map (·.scope)
    · -- The scope was decided, and has one current row.
      obtain ⟨d, hd, hscope⟩ := List.mem_map.1 hin
      obtain ⟨row', hrow', hscope', hcarries⟩ := hdone d hd
      obtain rfl := hrow.unique hrow' (hscope.symm.trans hscope'.symm)
      exact ⟨d, hscope ▸ decisionFor_of_desired hp hd, hcarries⟩
    · -- The scope is a symbol's, and was left undecided.
      have hold := (hframe row hin).1 hrow
      rcases htype : row.scopeType with - | -
      · refine absurd ?_ hin
        change (row.scopeType, row.scopeKey) ∈ _
        rw [htype]
        exact desired_of_family _ (h.families row hold htype)
      · refine hkept row hold htype fun hevaluated ↦ hin ?_
        change (row.scopeType, row.scopeKey) ∈ _
        rw [htype]
        exact mem_evaluatedSymbols.2 hevaluated
  case wanted =>
    intro records hr d hd
    rw [hrecords records hr] at hd
    rw [hdecisions]
    exact hdone d hd
  case newest =>
    intro records hr
    rw [hrecords records hr]
    exact newestSymbols hcut

/-- The condition on undecided symbols is needed: if all decisions follow the records after a run
that writes, those of the undecided symbols did before. -/
theorem kept_of_follows (hp : (p.strategyPolicies.map Prod.fst).Nodup) {written : Written}
    (hwritten : writeDecisions p call (desiredFor p s.db.records) s.db.decisions = some written)
    (hfollows : ∀ row, CurrentIn written.decisions row → Follows p s.db.records row) :
    Kept p s.db := by
  obtain ⟨-, hframe, -, -⟩ := writeDecisions_spec hp hwritten
  intro row hrow htype hout
  refine hfollows row ((hframe row fun hin ↦ hout ?_).2 hrow)
  change (row.scopeType, row.scopeKey) ∈ _ at hin
  rw [htype] at hin
  exact mem_evaluatedSymbols.1 hin

/-- **One step** keeps the invariant where the condition holds. -/
theorem step_governed (hp : (p.strategyPolicies.map Prod.fst).Nodup) (h : Governed p s)
    (hcondition : Condition p s act) (hstep : step p act s = some s') : Governed p s' := by
  rw [step.eq_def] at hstep
  cases act with
  | record records => exact Option.some_inj.1 hstep ▸ h.of_same rfl rfl
  | apply call =>
    rw [← Option.some_inj.1 hstep]
    obtain ⟨hafter, hsound⟩ := hcondition
    obtain ⟨-, ⟨hnone, hsame⟩ | ⟨written, hwritten, hdecisions, houtcome⟩⟩ :=
      apply_cases p call s.db
    · refine h.of_same hsame ?_
      rw [hnone]
      rfl
    · obtain ⟨hfault, result, hresult, -⟩ := houtcome.resolve_left fun hread ↦ hafter hread.1
      obtain ⟨hcut, hkept⟩ := hsound (not_stops hp hwritten hfault)
      refine governed_of_written hp h hwritten hcut hkept hdecisions ?_
      rw [hresult]
      rfl

/-- **Histories** keep the invariant where the condition holds of every step. -/
theorem runActs_governed (hp : (p.strategyPolicies.map Prod.fst).Nodup)
    (hguard : Guarded (step p) (Condition p) initial acts)
    (hrun : runActs (step p) initial acts = some s) : Governed p s :=
  invariant_of_guarded (fun _ _ _ h ha hstep ↦ step_governed hp h ha hstep) (initial_governed p)
    hguard hrun

/-- On the records of the last run that completed nothing is left to write. -/
theorem apply_unchanged (h : Governed p s) (hsame : s.governed = some s.db.records) :
    (applyPaperLearningGovernance p call s.db).2.decisions = s.db.decisions ∧
      ∀ result, (applyPaperLearningGovernance p call s.db).1 = some result →
        result.decisionsWritten = 0 := by
  have hnothing : writeDecisions p call (desiredFor p s.db.records) s.db.decisions =
      some ⟨s.db.decisions, 0⟩ := by
    refine foldlM_writeDecision_unchanged fun d hd ↦ ?_
    obtain ⟨row, hrow, hscope, hcarries⟩ := h.wanted _ hsame d hd
    exact changed_eq_false.2 ⟨row, currentByScope_eq_some.2 ⟨hrow, hscope⟩, hcarries⟩
  obtain ⟨-, ⟨hnone, hdecisions⟩ | ⟨written, hwritten, hdecisions, houtcome⟩⟩ :=
    apply_cases p call s.db
  · refine ⟨hdecisions, fun result hresult ↦ ?_⟩
    rw [hnone] at hresult
    cases hresult
  · obtain rfl := Option.some_inj.1 (hnothing.symm.trans hwritten)
    refine ⟨hdecisions, fun result hresult ↦ ?_⟩
    rcases houtcome with ⟨-, hnone⟩ | ⟨-, result', hresult', hcount⟩
    · rw [hnone] at hresult
      cases hresult
    · obtain rfl := Option.some_inj.1 (hresult'.symm.trans hresult)
      exact hcount

end Invariant

omit [Locale] in
theorem policy_families : (policy.strategyPolicies.map Prod.fst).Nodup := by decide

/-- **Learning governance follows current evidence** in every state of a history all of whose runs
meet the condition. -/
theorem governance_follows_evidence {acts : List Act} {s : State}
    (hguard : Guarded (step policy) (Condition policy) initial acts)
    (hrun : runActs (step policy) initial acts = some s) :
    (∀ row row', CurrentIn s.db.decisions row → CurrentIn s.db.decisions row' →
      row.scope = row'.scope → row = row') ∧
    (∀ records, s.governed = some records →
      (∀ row, CurrentIn s.db.decisions row → Follows policy records row) ∧
      NewestSymbols policy.maxSymbolScopes (scanEvaluatedLearningRecords policy records)
        (evaluatedSymbols policy records)) ∧
    (∀ call, Condition policy s (.apply call) →
      (applyPaperLearningGovernance policy call s.db).1 = none →
      (applyPaperLearningGovernance policy call s.db).2.decisions = s.db.decisions) ∧
    (∀ call, s.governed = some s.db.records →
      (applyPaperLearningGovernance policy call s.db).2.decisions = s.db.decisions ∧
      ∀ result, (applyPaperLearningGovernance policy call s.db).1 = some result →
        result.decisionsWritten = 0) := by
  have h : Governed policy s := runActs_governed policy_families hguard hrun
  refine ⟨fun row row' hrow hrow' ↦ hrow.unique hrow',
    fun records hr ↦ ⟨h.follows records hr, h.newest records hr⟩, fun call hcondition hnone ↦ ?_,
    fun call hsame ↦ apply_unchanged h hsame⟩
  obtain ⟨-, ⟨-, hdecisions⟩ | ⟨written, -, -, houtcome⟩⟩ := apply_cases policy call s.db
  · exact hdecisions
  · rcases houtcome with ⟨hafter, -⟩ | ⟨-, result, hresult, -⟩
    · exact absurd hafter hcondition.1
    · rw [hnone] at hresult
      cases hresult

omit [Locale] in
/-- **A suspended candidate** has evidence against its family or its symbol, where the decisions
follow the records. -/
theorem suspended_candidate {p : Policy} {records : List LearningRecordRow}
    {decisions : Table DecisionRow} {symbol strategyFamily : String}
    (hfollows : ∀ row, CurrentIn decisions row → Follows p records row)
    (h : (resolveCandidateLearningGovernance symbol strategyFamily
      (getCurrentPaperLearningGovernance decisions)).suspended = true) :
    ∃ scope ∈ [(.strategyFamily, normalizeStrategyFamily strategyFamily),
        (.symbol, normalizeSymbol symbol)],
      ∃ decision, decisionFor p (scanEvaluatedLearningRecords p records) scope = some decision ∧
        decision.state = .suspended := by
  obtain ⟨row, hrow, hstate⟩ := List.any_eq_true.1 h
  obtain ⟨hlisted, hscope⟩ := List.mem_filter.1 hrow
  rw [getCurrentPaperLearningGovernance, List.mem_insertionSort, List.mem_filter,
    decide_eq_true_iff] at hlisted
  obtain ⟨decision, hdecision, hcarries⟩ := hfollows row hlisted
  refine ⟨row.scope, ?_, decision, hdecision, hcarries.1 ▸ of_decide_eq_true hstate⟩
  rw [List.mem_cons, List.mem_singleton]
  exact of_decide_eq_true hscope

/-! ### Runs -/

omit [Locale]

/-- Texts in the order of their code points. -/
@[reducible] def codePoints : Locale where
  dateParse _ := none
  collates left right := decide (left ≤ right)

/-- A call that draws different identifiers in each run. -/
def callOf (run : String) (fault : Option Fault) : Call where
  runId := run
  decisionId index := run ++ String.ofList (List.replicate index 'x')
  startedAt := 0
  completedAt := 1
  failedAt := 1
  gitSha := "sha"
  configHash := "hash"
  fault := fault
  message := "failed"
  marks := true

/-- A record of a LEAPS trade on a day. -/
def leapsRecord (symbol : String) (day : ℤ) (pnl : ℚ) : LearningRecordRow where
  strategyFamily := "leaps"
  symbol := symbol
  createdAt := day * 86400000
  learningStatus := "evaluated"
  pnlLiveLike := some pnl

/-- A loss on each of fifty days. -/
def fiftyLosses : List LearningRecordRow :=
  (List.range 50).reverse.map fun day ↦ leapsRecord "AAPL" day (-10)

theorem governance_follows_evidence_fiftyLosses :
    ∃ s, @runActs State Act (@step codePoints policy) initial
        [.record fiftyLosses, .apply (callOf "a" none)] = some s ∧
      ∀ row, CurrentIn s.db.decisions row → Follows policy fiftyLosses row := by
  let _ : Locale := codePoints
  have hrun : ((runActs (step policy) initial
      [.record fiftyLosses, .apply (callOf "a" none)]).map fun s ↦
        decide (s.governed = some fiftyLosses)) = some true := by decide +kernel
  obtain ⟨s, hs, hgoverned⟩ := Option.map_eq_some_iff.1 hrun
  have hguard : Guarded (step policy) (Condition policy) initial
      [.record fiftyLosses, .apply (callOf "a" none)] := by
    refine ⟨trivial, fun s' hs' ↦ ⟨?_, fun _ _ ↦ trivial⟩⟩
    rw [← Option.some_inj.1 hs']
    refine ⟨fun h ↦ (Option.some_ne_none _ h.symm).elim, fun _ ↦ ⟨cutsNewestFirst_of_few ?_, ?_⟩⟩
    · change (bySymbol (scanEvaluatedLearningRecords policy fiftyLosses)).length ≤ 100
      decide +kernel
    · exact fun row hrow ↦ absurd hrow.1 List.not_mem_nil
  have hall := governance_follows_evidence hguard hs
  exact ⟨s, hs, (hall.2.1 _ (of_decide_eq_true hgoverned)).1⟩

/-- As many newer records of another symbol as the window of the family holds. -/
def crowdedOut : List LearningRecordRow :=
  List.replicate 250 (leapsRecord "MSFT" 60 1) ++ fiftyLosses

/-- A hundred symbols with one record, and one with an older record of shares and the newest record
of all. -/
def newestCut : List LearningRecordRow :=
  ((List.range 100).map fun index ↦
    { leapsRecord (String.ofList [Char.ofNat (65 + index / 26), Char.ofNat (65 + index % 26)]) 1 1
      with strategyFamily := "equity" }) ++
  [{ leapsRecord "NEWEST" 0 1 with strategyFamily := "equity" }, leapsRecord "NEWEST" 9 1]

/-- The suspension for the fifty losses, after a run on the newer records. -/
theorem suspended_after_crowdedOut :
    ((@runActs State Act (@step codePoints policy) initial
      [.record fiftyLosses, .apply (callOf "a" none)]).map fun (s : State) ↦
        let outcome := @applyPaperLearningGovernance codePoints policy (callOf "b" none)
          { s.db with records := crowdedOut }
        decide (outcome.1.isSome ∧ ∃ row ∈ outcome.2.decisions.rows, row.IsCurrent ∧
          row.scope = (.symbol, "AAPL") ∧ row.state = .suspended)) = some true := by
  decide +kernel

/-- **Where it fails.**  A suspension outlives its evidence; the symbol with the newest record is
not evaluated; and a run that fails has written decisions. -/
theorem stale_suspension_newest_cut_failed_write :
    (∃ s, @runActs State Act (@step codePoints policy) initial
        [.record fiftyLosses, .apply (callOf "a" none), .record crowdedOut,
          .apply (callOf "b" none)] = some s ∧
      s.governed = some crowdedOut ∧
      ∃ row, CurrentIn s.db.decisions row ∧ row.scope = (.symbol, "AAPL") ∧
        row.state = .suspended ∧ ¬ Follows policy crowdedOut row) ∧
    (¬ NewestSymbols policy.maxSymbolScopes (scanEvaluatedLearningRecords policy newestCut)
      (@evaluatedSymbols codePoints policy newestCut)) ∧
    (@applyPaperLearningGovernance codePoints policy (callOf "a" (some .readAfterCommit))
        initial.db).1 = none ∧
      (@applyPaperLearningGovernance codePoints policy (callOf "a" (some .readAfterCommit))
        initial.db).2.decisions ≠ initial.db.decisions := by
  let _ : Locale := codePoints
  refine ⟨?_, ?_, ?_, ?_⟩
  · obtain ⟨s, hs, hend⟩ := Option.map_eq_some_iff.1 suspended_after_crowdedOut
    obtain ⟨hcompleted, row, hrow, hcurrent, hscope, hstate⟩ := of_decide_eq_true hend
    have hsecond : step policy (.apply (callOf "b" none))
        { s with db := { s.db with records := crowdedOut } } =
          some
            { db := (applyPaperLearningGovernance policy (callOf "b" none)
                { s.db with records := crowdedOut }).2
              governed := some crowdedOut } := by
      rw [step, if_pos hcompleted]
    have hhistory : runActs (step policy) initial
        ([.record fiftyLosses, .apply (callOf "a" none)] ++
          [.record crowdedOut, .apply (callOf "b" none)]) = _ := runActs_append ..
    rw [hs] at hhistory
    refine ⟨_, hhistory.trans (congrArg (Option.bind · some) hsecond), rfl, row, ⟨hrow, hcurrent⟩,
      hscope, hstate, ?_⟩
    -- Without records there is nothing to suspend for.
    rintro ⟨decision, hdecision, hcarries⟩
    rw [hscope] at hdecision
    have hobserve : (decisionFor policy (scanEvaluatedLearningRecords policy crowdedOut)
        (.symbol, "AAPL")).map (·.state) = some .observe := by decide +kernel
    rw [hdecision, Option.map_some, Option.some_inj, ← hcarries.1, hstate] at hobserve
    cases hobserve
  · intro h
    have hcut : "NEWEST" ∉ evaluatedSymbols policy newestCut ∧
        "AA" ∈ evaluatedSymbols policy newestCut ∧
        (∀ r ∈ scanEvaluatedLearningRecords policy newestCut, r.symbol = "AA" →
          r.createdAt = 86400000) ∧
        ∃ r ∈ scanEvaluatedLearningRecords policy newestCut, r.symbol = "NEWEST" ∧
          r.createdAt = 9 * 86400000 := by decide +kernel
    obtain ⟨hout, hin, hold, r, hr, hsymbol, hnew⟩ := hcut
    obtain ⟨r', hr', hsymbol', hle⟩ := h.newest "AA" hin r hr (hsymbol ▸ hout)
    rw [hnew, hold r' hr' hsymbol'] at hle
    exact absurd hle (by decide)
  · have hnone : (applyPaperLearningGovernance policy (callOf "a" (some .readAfterCommit))
        initial.db).1.isNone = true := by decide +kernel
    exact Option.isNone_iff_eq_none.1 hnone
  · intro hsame
    have hlength : (applyPaperLearningGovernance policy (callOf "a" (some .readAfterCommit))
        initial.db).2.decisions.rows.length = 4 := by decide +kernel
    rw [hsame] at hlength
    cases hlength

end LearningGovernance

end AlpacaTrading
