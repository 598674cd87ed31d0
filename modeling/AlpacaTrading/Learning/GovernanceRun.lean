import AlpacaTrading.Learning.Governance

/-!
# Decisions follow the evidence

A decision is current until its scope is decided otherwise.  A run decides every family and the
symbols it selects, so what it leaves behind for these scopes is what the scan says of them
(`writeDecisions_spec`).

A symbol that is not selected keeps its decision, whatever the records say now.  The symbols are
selected by their first records in the scan.  And a run that fails when it reads the decisions once
more has written them already.  `Condition` says of a call that none of this does harm.
-/

namespace AlpacaTrading

namespace LearningGovernance

/-! ## Following -/

/-- The row has the state, the multiplier and the reason of a decision. -/
def Carries (row : DecisionRow) (decision : DesiredDecision) : Prop :=
  row.state = decision.state ∧ row.priorityMultiplier = decision.priorityMultiplier ∧
    row.reasonCode = decision.reasonCode

/-- What `decideScope` gives for the records of a scope. -/
def decisionFor (p : Policy) (scanned : List ScannedLearningRecord) :
    ScopeType × String → Option DesiredDecision
  | (.strategyFamily, key) => (p.strategyPolicies.lookup key).map fun scopePolicy ↦
    decideScope p .strategyFamily key (scanned.filter fun r ↦ r.strategyFamily = key) scopePolicy
  | (.symbol, key) => some
    (decideScope p .symbol key (scanned.filter fun r ↦ r.symbol = key) p.symbolPolicy)

/-- A row says what the records within the windows give for its scope. -/
def Follows (p : Policy) (records : List LearningRecordRow) (row : DecisionRow) : Prop :=
  ∃ decision, decisionFor p (scanEvaluatedLearningRecords p records) row.scope = some decision ∧
    Carries row decision

/-- The symbols with the newest records. -/
structure NewestSymbols (count : ℕ) (scanned : List ScannedLearningRecord)
    (symbols : List String) : Prop where
  nodup : symbols.Nodup
  known : ∀ symbol ∈ symbols, ∃ r ∈ scanned, r.symbol = symbol
  bounded : symbols.length ≤ count
  full : ∀ r ∈ scanned, r.symbol ∉ symbols → symbols.length = count
  newest : ∀ symbol ∈ symbols, ∀ r ∈ scanned, r.symbol ∉ symbols →
    ∃ r' ∈ scanned, r'.symbol = symbol ∧ r.createdAt ≤ r'.createdAt

/-! ## Buckets -/

section Buckets

variable {scanned : List ScannedLearningRecord} {entry : String × List ScannedLearningRecord}

theorem foldl_append_singletons {α : Type*} (before l : List α) :
    l.foldl (fun bucket a ↦ bucket ++ [a]) before = before ++ l := by
  induction l generalizing before with
  | nil => exact (List.append_nil before).symm
  | cons a l ih => rw [List.foldl_cons, ih, List.append_assoc, List.singleton_append]

theorem bySymbol_grouped (scanned : List ScannedLearningRecord) :
    Grouping.Grouped (·.symbol) (fun _ ↦ []) (fun bucket record ↦ bucket ++ [record]) scanned
      (bySymbol scanned) := Grouping.group_grouped _ _ _ scanned

theorem bySymbol_nodup (scanned : List ScannedLearningRecord) :
    ((bySymbol scanned).map Prod.fst).Nodup := (bySymbol_grouped scanned).nodup

theorem mem_bySymbol_keys {symbol : String} :
    symbol ∈ (bySymbol scanned).map Prod.fst ↔ ∃ r ∈ scanned, r.symbol = symbol := by
  rw [← List.mem_map]
  exact (bySymbol_grouped scanned).mem_keys symbol

/-- A bucket has the records of its symbol, in their order. -/
theorem bucket_eq (h : entry ∈ bySymbol scanned) :
    entry.2 = scanned.filter (fun r ↦ r.symbol = entry.1) ∧ entry.2 ≠ [] := by
  obtain ⟨a, rest, hfilter, hvalue⟩ := (bySymbol_grouped scanned).members entry h
  rw [foldl_append_singletons, List.nil_append] at hvalue
  rw [hvalue, ← hfilter]
  exact ⟨rfl, hfilter ▸ List.cons_ne_nil a rest⟩

end Buckets

section Selected

variable [Locale] {p : Policy} {scanned : List ScannedLearningRecord}
  {entry : String × List ScannedLearningRecord}

theorem mem_bySymbol_of_selected (h : entry ∈ selectedSymbols p scanned) :
    entry ∈ bySymbol scanned :=
  (List.mem_insertionSort comesFirst).1 (List.mem_of_mem_take h)

theorem selectedSymbols_nodup (p : Policy) (scanned : List ScannedLearningRecord) :
    ((selectedSymbols p scanned).map Prod.fst).Nodup := by
  have hsorted : (((bySymbol scanned).insertionSort comesFirst).map Prod.fst).Nodup :=
    ((List.perm_insertionSort comesFirst _).map Prod.fst).nodup_iff.2 (bySymbol_nodup scanned)
  exact hsorted.sublist ((List.take_sublist _ _).map Prod.fst)

/-- A selected symbol has its first record no earlier than the first one of a symbol left out. -/
theorem latestTime_le_of_selected {other : String × List ScannedLearningRecord}
    (hentry : entry ∈ selectedSymbols p scanned) (hother : other ∈ bySymbol scanned)
    (hout : other ∉ selectedSymbols p scanned) : latestTime other.2 ≤ latestTime entry.2 := by
  let prefers (a b : String × List ScannedLearningRecord) : Prop := latestTime b.2 ≤ latestTime a.2
  have _ : IsTrans _ prefers := ⟨fun _ _ _ hab hbc ↦ hbc.trans hab⟩
  have hle : ∀ a b, comesFirst a b → prefers a b := by
    rintro a b (hlt | ⟨heq, -⟩)
    · exact hlt.le
    · exact heq.le
  have hnot : ∀ a b, ¬ comesFirst a b → prefers b a := fun a b h ↦
    not_lt.1 fun hlt ↦ h (.inl hlt)
  exact Ranking.prefers_of_mem_take comesFirst hle hnot hentry hother hout

/-! ## What a run wants -/

/-- The symbols a run decides. -/
def evaluatedSymbols (p : Policy) (records : List LearningRecordRow) : List String :=
  (selectedSymbols p (scanEvaluatedLearningRecords p records)).map Prod.fst

omit [Locale] in
/-- A key that is there once is found with its value. -/
theorem lookup_of_mem {β : Type*} {l : List (String × β)} (hnodup : (l.map Prod.fst).Nodup)
    {pair : String × β} (h : pair ∈ l) : l.lookup pair.1 = some pair.2 := by
  induction l with
  | nil => exact absurd h List.not_mem_nil
  | cons head l ih =>
    obtain ⟨hhead, hnodup⟩ := List.nodup_cons.1 hnodup
    rcases List.mem_cons.1 h with rfl | h
    · exact List.lookup_cons_self
    · have hne : pair.1 ≠ head.1 := fun heq ↦ hhead (heq ▸ List.mem_map_of_mem h)
      rw [List.lookup_cons, beq_false_of_ne hne]
      exact ih hnodup h

/-- The scopes a run decides. -/
theorem desired_scopes (p : Policy) (scanned : List ScannedLearningRecord) :
    (desiredDecisions p scanned).map (·.scope) =
      (p.strategyPolicies.map fun family ↦ (ScopeType.strategyFamily, family.1)) ++
        (selectedSymbols p scanned).map fun entry ↦ (ScopeType.symbol, entry.1) := by
  rw [desiredDecisions, List.map_append, List.map_map, List.map_map]
  rfl

/-- No scope is decided twice. -/
theorem desired_nodup (hp : (p.strategyPolicies.map Prod.fst).Nodup)
    (scanned : List ScannedLearningRecord) :
    ((desiredDecisions p scanned).map (·.scope)).Nodup := by
  rw [desired_scopes]
  have hfamilies := hp.map (f := Prod.mk ScopeType.strategyFamily)
    fun _ _ h ↦ (Prod.mk.inj h).2
  have hsymbols := (selectedSymbols_nodup p scanned).map (f := Prod.mk ScopeType.symbol)
    fun _ _ h ↦ (Prod.mk.inj h).2
  rw [List.map_map] at hfamilies hsymbols
  refine List.nodup_append.2 ⟨hfamilies, hsymbols, ?_⟩
  rintro scope hfamily other hsymbol rfl
  obtain ⟨family, -, rfl⟩ := List.mem_map.1 hfamily
  obtain ⟨entry, -, heq⟩ := List.mem_map.1 hsymbol
  cases heq

/-- What a run wants is what the records give. -/
theorem decisionFor_of_desired (hp : (p.strategyPolicies.map Prod.fst).Nodup)
    {decision : DesiredDecision} (h : decision ∈ desiredDecisions p scanned) :
    decisionFor p scanned decision.scope = some decision := by
  rcases List.mem_append.1 h with h | h
  · obtain ⟨family, hfamily, rfl⟩ := List.mem_map.1 h
    have hlookup := lookup_of_mem hp hfamily
    change (p.strategyPolicies.lookup family.1).map _ = _
    rw [hlookup]
    rfl
  · obtain ⟨entry, hentry, rfl⟩ := List.mem_map.1 h
    change some (decideScope p .symbol entry.1 (scanned.filter fun r ↦ r.symbol = entry.1)
      p.symbolPolicy) = _
    rw [← (bucket_eq (mem_bySymbol_of_selected hentry)).1]

theorem mem_evaluatedSymbols {records : List LearningRecordRow} {symbol : String} :
    (ScopeType.symbol, symbol) ∈
      (desiredDecisions p (scanEvaluatedLearningRecords p records)).map (·.scope) ↔
      symbol ∈ evaluatedSymbols p records := by
  rw [desired_scopes, List.mem_append, evaluatedSymbols, List.mem_map, List.mem_map]
  constructor
  · rintro (⟨family, -, heq⟩ | ⟨entry, hentry, heq⟩)
    · cases heq
    · exact List.mem_map.2 ⟨entry, hentry, (Prod.mk.inj heq).2⟩
  · intro h
    obtain ⟨entry, hentry, rfl⟩ := List.mem_map.1 h
    exact .inr ⟨entry, hentry, rfl⟩

end Selected

/-! ## Writing -/

/-- A row is current in a table. -/
def CurrentIn (t : Table DecisionRow) (row : DecisionRow) : Prop := row ∈ t.rows ∧ row.IsCurrent

section Writing

variable {p : Policy} {call : Call} {t t' : Table DecisionRow} {row : DecisionRow}
  {scope : ScopeType × String} {w w' : Written} {decision : DesiredDecision}
  {current : ScopeType × String → Option DecisionRow}

/-- **One current decision for a scope.** -/
theorem CurrentIn.unique {other : DecisionRow} (h : CurrentIn t row) (hother : CurrentIn t other)
    (hscope : row.scope = other.scope) : row = other :=
  t.eq_of_clash h.1 hother.1 (.inr ⟨h.2, hother.2, hscope⟩)

theorem currentByScope_eq_some :
    currentByScope t scope = some row ↔ CurrentIn t row ∧ row.scope = scope := by
  have hmem : ∀ r, r ∈ getCurrentPaperLearningGovernance t ↔ CurrentIn t r := by
    intro r
    rw [getCurrentPaperLearningGovernance, List.mem_insertionSort, List.mem_filter,
      decide_eq_true_iff]
    rfl
  have hfind : ∀ r, currentByScope t scope = some r → CurrentIn t r ∧ r.scope = scope := by
    intro r h
    rw [currentByScope] at h
    have hscope := List.find?_some (p := fun row : DecisionRow ↦ row.scope = scope) h
    exact ⟨(hmem r).1 (List.mem_of_find?_eq_some h), of_decide_eq_true hscope⟩
  constructor
  · exact hfind row
  · rintro ⟨hcurrent, hscope⟩
    have hsome : (currentByScope t scope).isSome := by
      rw [currentByScope, List.find?_isSome]
      exact ⟨row, (hmem row).2 hcurrent, decide_eq_true hscope⟩
    obtain ⟨found, hfound⟩ := Option.isSome_iff_exists.1 hsome
    obtain ⟨hfound', hscope'⟩ := hfind found hfound
    rw [hfound, hfound'.unique hcurrent (hscope'.trans hscope.symm)]

theorem currentByScope_congr
    (h : ∀ row : DecisionRow, row.scope = scope → (CurrentIn t row ↔ CurrentIn t' row)) :
    currentByScope t scope = currentByScope t' scope := by
  ext row
  rw [currentByScope_eq_some, currentByScope_eq_some]
  exact and_congr_left fun hscope ↦ h row hscope

/-- What is not changed is there. -/
theorem changed_eq_false {current : Option DecisionRow} :
    changed current decision = false ↔ ∃ row, current = some row ∧ Carries row decision := by
  rcases current with - | row
  · simp [changed]
  · simp [changed, Carries, and_assoc]

/-- What superseding and inserting do to the current rows. -/
theorem currentIn_write {superseded inserted : Table DecisionRow} {at_ : Time}
    (hupdate : t.update? (fun row ↦ row.scope = scope ∧ row.IsCurrent)
      (fun row ↦ { row with supersededAt := some at_ }) = some superseded)
    {new : DecisionRow} (hinsert : superseded.insert? new = some inserted)
    (hnew : new.IsCurrent) :
    CurrentIn inserted row ↔ CurrentIn t row ∧ row.scope ≠ scope ∨ row = new := by
  rw [CurrentIn, Table.rows_of_insert? hinsert, Table.rows_of_update? hupdate, List.mem_append,
    List.mem_singleton, List.mem_map]
  constructor
  · rintro ⟨⟨old, hold, rfl⟩ | rfl, hcurrent⟩
    · left
      by_cases hp : decide (old.scope = scope ∧ old.IsCurrent) = true
      · -- A superseded row is not current.
        rw [if_pos hp] at hcurrent
        cases hcurrent
      · rw [if_neg hp] at hcurrent ⊢
        refine ⟨⟨hold, hcurrent⟩, fun hscope ↦ hp (decide_eq_true ⟨hscope, hcurrent⟩)⟩
    · exact .inr rfl
  · rintro (⟨⟨hrow, hcurrent⟩, hscope⟩ | rfl)
    · refine ⟨.inl ⟨row, hrow, if_neg fun hp ↦ hscope (of_decide_eq_true hp).1⟩, hcurrent⟩
    · exact ⟨.inr rfl, hnew⟩

/-- The fault of a call is at none of some statements. -/
def ClearOf (call : Call) (first last : ℕ) : Prop :=
  ∀ index, first ≤ index → index < last → call.fault ≠ some (.statement index)

/-- What one round of the loop does. -/
theorem writeDecision_cases (h : writeDecision p call current w decision = some w') :
    (changed (current decision.scope) decision = false ∧ w' = w) ∨
    (changed (current decision.scope) decision = true ∧ w'.count = w.count + 1 ∧
      ClearOf call (2 * w.count) (2 * w'.count) ∧
      ∀ row, CurrentIn w'.decisions row ↔
        CurrentIn w.decisions row ∧ row.scope ≠ decision.scope ∨
          row = rowOf p call w.count decision) := by
  rw [writeDecision] at h
  by_cases hchanged : changed (current decision.scope) decision = true
  · rw [hchanged, Bool.not_true, if_neg Bool.false_ne_true] at h
    obtain ⟨hfirst, h⟩ := Option.ite_none_left_eq_some.1 h
    obtain ⟨superseded, hupdate, h⟩ := Option.bind_eq_some_iff.1 h
    obtain ⟨hsecond, h⟩ := Option.ite_none_left_eq_some.1 h
    obtain ⟨inserted, hinsert, rfl⟩ := Option.map_eq_some_iff.1 h
    refine .inr ⟨hchanged, rfl, fun index hlow hhigh ↦ ?_,
      fun row ↦ currentIn_write hupdate hinsert rfl⟩
    -- One round has two statements.
    have hindex : index = 2 * w.count ∨ index = 2 * w.count + 1 := by
      change index < 2 * (w.count + 1) at hhigh
      omega
    rcases hindex with rfl | rfl
    · exact hfirst
    · exact hsecond
  · rw [Bool.not_eq_true] at hchanged
    rw [hchanged, Bool.not_false, if_pos rfl] at h
    exact .inl ⟨hchanged, (Option.some_inj.1 h).symm⟩

/-- **The loop**: each decision is current afterwards, and the other scopes are as they were. -/
theorem foldlM_writeDecision {desired : List DesiredDecision}
    (hnodup : (desired.map (·.scope)).Nodup)
    (hcurrent : ∀ d ∈ desired, current d.scope = currentByScope w.decisions d.scope)
    (h : desired.foldlM (writeDecision p call current) w = some w') :
    (∀ d ∈ desired, ∃ row, CurrentIn w'.decisions row ∧ row.scope = d.scope ∧ Carries row d) ∧
    (∀ row : DecisionRow, row.scope ∉ desired.map (·.scope) →
      (CurrentIn w'.decisions row ↔ CurrentIn w.decisions row)) ∧
    w'.count = w.count + desired.countP (fun d ↦ changed (current d.scope) d) ∧
    ClearOf call (2 * w.count) (2 * w'.count) := by
  -- Induction over the decisions, with the tables generalised.
  induction desired generalizing w with
  | nil =>
    obtain rfl : w = w' := Option.some_inj.1 h
    exact ⟨fun _ hd ↦ absurd hd List.not_mem_nil, fun _ _ ↦ Iff.rfl, rfl,
      fun index hlow hhigh ↦ absurd (hlow.trans_lt hhigh) (lt_irrefl _)⟩
  | cons d rest ih =>
    rw [List.foldlM_cons] at h
    obtain ⟨w₁, hround, hrest⟩ := Option.bind_eq_some_iff.1 h
    rw [List.map_cons, List.nodup_cons] at hnodup
    have hother : ∀ d' ∈ rest, d'.scope ≠ d.scope := fun d' hd' heq ↦
      hnodup.1 (heq ▸ List.mem_map_of_mem hd')
    rcases writeDecision_cases hround with ⟨hsame, rfl⟩ | ⟨hchanged, hcount, hclear, hrows⟩
    · obtain ⟨hdone, hframe, hcounts, hclears⟩ :=
        ih hnodup.2 (fun d' hd' ↦ hcurrent d' (.tail d hd')) hrest
      obtain ⟨row, hrow, hcarries⟩ := changed_eq_false.1 hsame
      rw [hcurrent d List.mem_cons_self, currentByScope_eq_some] at hrow
      refine ⟨fun d' hd' ↦ ?_, fun row' hout ↦ ?_, ?_, hclears⟩
      · rcases List.mem_cons.1 hd' with rfl | hd'
        · exact ⟨row, (hframe row (hrow.2 ▸ hnodup.1)).2 hrow.1, hrow.2, hcarries⟩
        · exact hdone d' hd'
      · exact hframe row' fun hin ↦ hout (List.mem_cons_of_mem _ hin)
      · rw [List.countP_cons_of_neg (by rw [hsame]; exact Bool.false_ne_true)]
        exact hcounts
    · have hframe₁ : ∀ row : DecisionRow, row.scope ≠ d.scope →
          (CurrentIn w.decisions row ↔ CurrentIn w₁.decisions row) := by
        intro row hscope
        rw [hrows]
        constructor
        · exact fun hin ↦ .inl ⟨hin, hscope⟩
        · rintro (⟨hin, -⟩ | rfl)
          · exact hin
          · exact absurd rfl hscope
      have hcurrent₁ : ∀ d' ∈ rest, current d'.scope = currentByScope w₁.decisions d'.scope := by
        intro d' hd'
        rw [hcurrent d' (.tail d hd')]
        exact currentByScope_congr fun row hscope ↦ hframe₁ row (hscope ▸ hother d' hd')
      obtain ⟨hdone, hframe, hcounts, hclears⟩ := ih hnodup.2 hcurrent₁ hrest
      refine ⟨fun d' hd' ↦ ?_, fun row' hout ↦ ?_, ?_, fun index hlow hhigh ↦ ?_⟩
      · rcases List.mem_cons.1 hd' with rfl | hd'
        · have hnew : CurrentIn w₁.decisions (rowOf p call w.count d') :=
            (hrows _).2 (.inr rfl)
          exact ⟨_, (hframe (rowOf p call w.count d') hnodup.1).2 hnew, rfl, rfl, rfl, rfl⟩
        · exact hdone d' hd'
      · rw [List.map_cons, List.mem_cons, not_or] at hout
        rw [hframe row' hout.2, hframe₁ row' hout.1]
      · rw [List.countP_cons_of_pos (p := fun d : DesiredDecision ↦ changed (current d.scope) d)
          hchanged, hcounts, hcount]
        omega
      · rcases lt_or_ge index (2 * w₁.count) with hlt | hge
        · exact hclear index hlow hlt
        · exact hclears index hge hhigh

/-- Without a change there is nothing to write. -/
theorem foldlM_writeDecision_unchanged {desired : List DesiredDecision}
    (h : ∀ d ∈ desired, changed (current d.scope) d = false) :
    desired.foldlM (writeDecision p call current) w = some w := by
  induction desired with
  | nil => rfl
  | cons d rest ih =>
    have hround : writeDecision p call current w d = some w := by
      rw [writeDecision, h d List.mem_cons_self]
      rfl
    rw [List.foldlM_cons, hround]
    exact ih fun d' hd' ↦ h d' (.tail d hd')

end Writing

/-! ## A run -/

section Run

variable [Locale] {p : Policy} {call : Call} {db : GovernanceDb}

/-- What the records within the windows ask for. -/
def desiredFor (p : Policy) (records : List LearningRecordRow) : List DesiredDecision :=
  desiredDecisions p (scanEvaluatedLearningRecords p records)

/-- A call that fails before `COMMIT`. -/
def Stops (p : Policy) (call : Call) (db : GovernanceDb) : Prop :=
  match call.fault with
  | none => False
  | some .readAfterCommit => False
  | some (.statement index) =>
    index < 2 * (desiredFor p db.records).countP fun d ↦
      changed (currentByScope db.decisions d.scope) d
  | some _ => True

omit [Locale] in
theorem failRun_frame (call : Call) (db : GovernanceDb) :
    (failRun call db).1 = none ∧ (failRun call db).2.decisions = db.decisions ∧
      (failRun call db).2.records = db.records := by
  rw [failRun]
  refine ⟨rfl, ?_, ?_⟩ <;> split_ifs <;> rfl

/-- **What a call does**: it changes no decision, or it writes what is wanted. -/
theorem apply_cases (p : Policy) (call : Call) (db : GovernanceDb) :
    (applyPaperLearningGovernance p call db).2.records = db.records ∧
    (((applyPaperLearningGovernance p call db).1 = none ∧
        (applyPaperLearningGovernance p call db).2.decisions = db.decisions) ∨
      ∃ written, writeDecisions p call (desiredFor p db.records) db.decisions = some written ∧
        (applyPaperLearningGovernance p call db).2.decisions = written.decisions ∧
        (call.fault = some .readAfterCommit ∧
            (applyPaperLearningGovernance p call db).1 = none ∨
          (call.fault = none ∨ ∃ index, call.fault = some (.statement index)) ∧
            ∃ result, (applyPaperLearningGovernance p call db).1 = some result ∧
              result.decisionsWritten = written.count)) := by
  rw [applyPaperLearningGovernance]
  by_cases hstart : call.fault = some .start
  · rw [if_pos hstart]
    exact ⟨rfl, .inl ⟨rfl, rfl⟩⟩
  rw [if_neg hstart]
  split
  · exact ⟨rfl, .inl ⟨rfl, rfl⟩⟩
  next runs _ =>
  dsimp only
  by_cases hread : call.fault = some .read
  · rw [if_pos hread]
    obtain ⟨hnone, hdecisions, hrecords⟩ := failRun_frame call { db with runs }
    exact ⟨hrecords, .inl ⟨hnone, hdecisions⟩⟩
  rw [if_neg hread]
  split
  · obtain ⟨hnone, hdecisions, hrecords⟩ := failRun_frame call { db with runs }
    exact ⟨hrecords, .inl ⟨hnone, hdecisions⟩⟩
  next written hwritten =>
  by_cases hcommit : call.fault = some .commit
  · rw [if_pos hcommit]
    obtain ⟨hnone, hdecisions, hrecords⟩ := failRun_frame call { db with runs }
    exact ⟨hrecords, .inl ⟨hnone, hdecisions⟩⟩
  rw [if_neg hcommit]
  by_cases hafter : call.fault = some .readAfterCommit
  · rw [if_pos hafter]
    obtain ⟨hnone, hdecisions, hrecords⟩ := failRun_frame call _
    exact ⟨hrecords, .inr ⟨written, hwritten, hdecisions, .inl ⟨hafter, hnone⟩⟩⟩
  · rw [if_neg hafter]
    refine ⟨rfl, .inr ⟨written, hwritten, rfl, .inr ⟨?_, _, rfl, rfl⟩⟩⟩
    rcases hfault : call.fault with - | fault
    · exact .inl rfl
    · cases fault with
      | statement index => exact .inr ⟨index, rfl⟩
      | start => exact absurd hfault hstart
      | read => exact absurd hfault hread
      | commit => exact absurd hfault hcommit
      | readAfterCommit => exact absurd hfault hafter

/-- **The transaction**: each wanted decision is current afterwards, and the other scopes are as
they were. -/
theorem writeDecisions_spec {written : Written} (hp : (p.strategyPolicies.map Prod.fst).Nodup)
    (h : writeDecisions p call (desiredFor p db.records) db.decisions = some written) :
    (∀ d ∈ desiredFor p db.records,
      ∃ row, CurrentIn written.decisions row ∧ row.scope = d.scope ∧ Carries row d) ∧
    (∀ row : DecisionRow, row.scope ∉ (desiredFor p db.records).map (·.scope) →
      (CurrentIn written.decisions row ↔ CurrentIn db.decisions row)) ∧
    written.count = (desiredFor p db.records).countP
      (fun d ↦ changed (currentByScope db.decisions d.scope) d) ∧
    ClearOf call 0 (2 * written.count) := by
  have hspec := @foldlM_writeDecision p call ⟨db.decisions, 0⟩ written
    (currentByScope db.decisions) (desiredFor p db.records) (desired_nodup hp _) (fun _ _ ↦ rfl) h
  rw [Nat.zero_add] at hspec
  exact hspec

/-- A call that writes everything does not stop. -/
theorem not_stops {written : Written} (hp : (p.strategyPolicies.map Prod.fst).Nodup)
    (hwritten : writeDecisions p call (desiredFor p db.records) db.decisions = some written)
    (hfault : call.fault = none ∨ ∃ index, call.fault = some (.statement index)) :
    ¬ Stops p call db := by
  obtain ⟨-, -, hcount, hclear⟩ := writeDecisions_spec hp hwritten
  rw [Stops]
  rcases hfault with hfault | ⟨index, hfault⟩
  · rw [hfault]
    exact not_false
  · rw [hfault]
    intro hlt
    refine hclear index (Nat.zero_le _) ?_ hfault
    rw [hcount]
    exact hlt

/-- The symbols a run leaves undecided have decisions that follow their records. -/
def Kept (p : Policy) (db : GovernanceDb) : Prop :=
  ∀ row, CurrentIn db.decisions row → row.scopeType = .symbol →
    row.scopeKey ∉ evaluatedSymbols p db.records → Follows p db.records row

/-- The symbols a run leaves out have their newest records first. -/
def CutsNewestFirst (p : Policy) (records : List LearningRecordRow) : Prop :=
  ∀ entry ∈ bySymbol (scanEvaluatedLearningRecords p records),
    entry.1 ∉ evaluatedSymbols p records →
      ∀ r ∈ entry.2, (r.createdAt : WithBot Time) ≤ latestTime entry.2

/-- With room for all symbols none is left out. -/
theorem mem_evaluatedSymbols_of_few {records : List LearningRecordRow}
    (hfew : (bySymbol (scanEvaluatedLearningRecords p records)).length ≤ p.maxSymbolScopes)
    {entry : String × List ScannedLearningRecord}
    (hentry : entry ∈ bySymbol (scanEvaluatedLearningRecords p records)) :
    entry.1 ∈ evaluatedSymbols p records := by
  rw [evaluatedSymbols]
  refine List.mem_map_of_mem ?_
  rw [selectedSymbols, List.take_of_length_le (by rw [List.length_insertionSort]; exact hfew),
    List.mem_insertionSort]
  exact hentry

theorem cutsNewestFirst_of_few {records : List LearningRecordRow}
    (hfew : (bySymbol (scanEvaluatedLearningRecords p records)).length ≤ p.maxSymbolScopes) :
    CutsNewestFirst p records :=
  fun _ hentry hout ↦ absurd (mem_evaluatedSymbols_of_few hfew hentry) hout

/-- The selection, where the symbols left out have their newest records first. -/
theorem newestSymbols {records : List LearningRecordRow} (hcut : CutsNewestFirst p records) :
    NewestSymbols p.maxSymbolScopes (scanEvaluatedLearningRecords p records)
      (evaluatedSymbols p records) := by
  set scanned := scanEvaluatedLearningRecords p records with hscanned
  have hmem : ∀ symbol, symbol ∈ evaluatedSymbols p records ↔
      ∃ entry ∈ selectedSymbols p scanned, entry.1 = symbol := fun symbol ↦ List.mem_map
  have hlength : (evaluatedSymbols p records).length = (selectedSymbols p scanned).length :=
    List.length_map _
  constructor
  case nodup => exact selectedSymbols_nodup p scanned
  case known =>
    intro symbol hsymbol
    obtain ⟨entry, hentry, rfl⟩ := (hmem symbol).1 hsymbol
    exact mem_bySymbol_keys.1 (List.mem_map_of_mem (mem_bySymbol_of_selected hentry))
  case bounded =>
    rw [hlength]
    exact List.length_take_le _ _
  case full =>
    intro r hr hout
    rw [hlength, selectedSymbols, List.length_take, List.length_insertionSort]
    refine min_eq_left (not_lt.1 fun hfew ↦ hout ?_)
    obtain ⟨entry, hentry, hkey⟩ := List.mem_map.1 (mem_bySymbol_keys.2 ⟨r, hr, rfl⟩)
    exact hkey ▸ mem_evaluatedSymbols_of_few hfew.le hentry
  case newest =>
    intro symbol hsymbol r hr hout
    obtain ⟨entry, hentry, rfl⟩ := (hmem symbol).1 hsymbol
    obtain ⟨other, hother, hkey⟩ := List.mem_map.1 (mem_bySymbol_keys.2 ⟨r, hr, rfl⟩)
    have hnot : other ∉ selectedSymbols p scanned := fun hin ↦ hout ((hmem _).2 ⟨other, hin, hkey⟩)
    have hin : r ∈ other.2 := by
      rw [(bucket_eq hother).1, List.mem_filter, decide_eq_true_iff]
      exact ⟨hr, hkey.symm⟩
    have hle := (hcut other hother (by rw [hkey]; exact hout) r hin).trans
      (latestTime_le_of_selected hentry hother hnot)
    obtain ⟨hbucket, hne⟩ := bucket_eq (mem_bySymbol_of_selected hentry)
    rcases hfirst : entry.2 with - | ⟨first, rest⟩
    · exact absurd hfirst hne
    · have hfirstin : first ∈ scanned.filter (fun r ↦ r.symbol = entry.1) := by
        rw [← hbucket, hfirst]
        exact List.mem_cons_self
      rw [List.mem_filter, decide_eq_true_iff] at hfirstin
      rw [hfirst] at hle
      exact ⟨first, hfirstin.1, hfirstin.2, WithBot.coe_le_coe.1 hle⟩

end Run

end LearningGovernance

end AlpacaTrading
