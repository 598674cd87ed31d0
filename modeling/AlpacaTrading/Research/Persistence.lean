import AlpacaTrading.Research.Candidates

/-!
# What a research run stores

The selection is made once over all strategy families, but the rows are written by lanes, and a
lane only runs if it is enabled.  What is stored are the decisions of the families that run, so the
table is faithful exactly if every family that occurs does.

The counts that are returned come from two sets: the selected ones from what the lanes stored, the
rejected ones from all decisions.
-/

namespace AlpacaTrading

/-! ## The statement -/

/-- The candidates of a research run. -/
def runCandidates (db : Db) (researchRunId : String) : List Candidate :=
  db.candidates.rows.filter (·.researchRunId = researchRunId)

section Statement

variable [Hashing] (input : PersistCandidatesInput)

/-- The candidate is the one of the target. -/
structure CandidateOf (target : ResearchTarget) (c : Candidate) : Prop where
  id : c.id = researchCandidateId input.researchRunId target.sourceFingerprint
  symbol : c.symbol = target.symbol
  direction : c.direction = target.direction
  confidence : c.confidence = target.confidence
  asOf : c.asOf = target.asOf

/-- The candidate is the one of a target that nothing speaks against. -/
def CandidateEligible (c : Candidate) : Prop :=
  ∃ target ∈ input.targets, CandidateOf input target c ∧ PersistCandidatesInput.eligible target

/-- The decisions of a run are stored, ranked and counted. -/
structure PersistedFaithfully (db : Db) (result : PersistCandidatesResult) : Prop where
  /-- One row for each target, with the ranks from one on, by descending score. -/
  ranked : ∃ rows targets, rows.Perm (runCandidates db input.researchRunId) ∧
    targets.Perm input.targets ∧ List.Forall₂ (CandidateOf input) targets rows ∧
    rows.map (·.rank) = List.range' 1 input.targets.length ∧
    rows.Pairwise fun a b ↦ b.score ≤ a.score
  selected : (runCandidates db input.researchRunId).countP (·.decision = .selected) =
    min input.maxCandidates (input.targets.countP PersistCandidatesInput.eligible)
  eligible : ∀ c ∈ runCandidates db input.researchRunId, c.decision = .selected →
    CandidateEligible input c
  best : ∀ c ∈ runCandidates db input.researchRunId, c.decision = .selected →
    ∀ c' ∈ runCandidates db input.researchRunId, c'.decision = .rejected →
      CandidateEligible input c' → c'.score ≤ c.score
  selectedCount : result.selected =
    (runCandidates db input.researchRunId).countP (·.decision = .selected)
  rejectedCount : result.rejected =
    (runCandidates db input.researchRunId).countP (·.decision = .rejected)

/-- The run is new: no candidate carries its name or one of its identifiers. -/
structure FreshRun (db : Db) : Prop where
  run : ∀ c ∈ db.candidates.rows, c.researchRunId ≠ input.researchRunId
  ids : ∀ c ∈ db.candidates.rows, ∀ source, c.id ≠ researchCandidateId input.researchRunId source
  /-- Different targets have different identifiers. -/
  digest : Function.Injective (researchCandidateId input.researchRunId)

end Statement

/-! ## The decisions -/

namespace PersistCandidatesInput

variable (input : PersistCandidatesInput)

theorem evaluated_perm : input.evaluated.Perm input.targets := List.perm_insertionSort _ _

theorem decisions_targets : input.decisions.map (·.target) = input.evaluated := by
  refine List.ext_getElem (by simp [decisions]) fun i _ _ ↦ ?_
  simp [decisions, decisionAt]

theorem decisions_ranks : input.decisions.map (·.rank) = List.range' 1 input.targets.length := by
  refine List.ext_getElem ?_ fun i _ _ ↦ ?_
  · simp [decisions, input.evaluated_perm.length_eq]
  · simp [decisions, decisionAt, Nat.add_comm]

theorem mem_decisions {d : ResearchDecision} (h : d ∈ input.decisions) :
    d.target ∈ input.evaluated ∧ d.family = input.family d.target ∧
      d.score = input.score d.target ∧
      (d.selected = true ↔ d.target.sourceFingerprint ∈ input.selectedKeys) := by
  rw [decisions, List.mem_mapIdx] at h
  obtain ⟨i, hi, rfl⟩ := h
  exact ⟨List.getElem_mem hi, rfl, rfl, decide_eq_true_iff⟩

/-- The scores descend. -/
theorem evaluated_sorted : input.evaluated.Pairwise fun a b ↦ input.score b ≤ input.score a := by
  have htotal : Std.Total fun l r : ResearchTarget ↦ input.score r ≤ input.score l :=
    ⟨fun l r ↦ le_total (input.score r) (input.score l)⟩
  have htrans : IsTrans ResearchTarget fun l r ↦ input.score r ≤ input.score l :=
    ⟨fun _ _ _ h₁ h₂ ↦ le_trans h₂ h₁⟩
  exact List.pairwise_insertionSort _ _

/-- The eligible targets that are taken. -/
def taken : List ResearchTarget := (input.evaluated.filter eligible).take input.maxCandidates

/-- With distinct fingerprints a target is selected exactly if it is taken. -/
theorem selected_iff (hdistinct : (input.targets.map (·.sourceFingerprint)).Nodup)
    {t : ResearchTarget} (ht : t ∈ input.evaluated) :
    t.sourceFingerprint ∈ input.selectedKeys ↔ t ∈ input.taken := by
  rw [selectedKeys, List.mem_map]
  constructor
  · rintro ⟨t', ht', heq⟩
    have hmem' : t' ∈ input.evaluated := List.mem_of_mem_filter (List.mem_of_mem_take ht')
    have hkeys : (input.evaluated.map (·.sourceFingerprint)).Nodup :=
      (input.evaluated_perm.map _).nodup_iff.2 hdistinct
    rw [← List.inj_on_of_nodup_map hkeys hmem' ht heq]
    exact ht'
  · intro h
    exact ⟨t, h, rfl⟩

theorem taken_length : input.taken.length =
    min input.maxCandidates (input.targets.countP eligible) := by
  rw [taken, List.length_take, ← List.countP_eq_length_filter,
    input.evaluated_perm.countP_eq]

/-- **The best are taken**: an eligible target that is not taken has no higher score. -/
theorem taken_best {t t' : ResearchTarget} (ht : t ∈ input.taken) (ht' : t' ∈ input.evaluated)
    (heligible : eligible t') (hnot : t' ∉ input.taken) : input.score t' ≤ input.score t := by
  have hsorted := (input.evaluated_sorted.filter eligible)
  rw [← List.take_append_drop input.maxCandidates (input.evaluated.filter eligible),
    List.pairwise_append] at hsorted
  have hmem : t' ∈ input.evaluated.filter eligible := List.mem_filter.2 ⟨ht', heligible⟩
  rw [← List.take_append_drop input.maxCandidates (input.evaluated.filter eligible),
    List.mem_append] at hmem
  exact hsorted.2.2 t ht t' (hmem.resolve_left hnot)

/-- As many targets are selected as there is room for. -/
theorem decisions_selected (hdistinct : (input.targets.map (·.sourceFingerprint)).Nodup) :
    input.decisions.countP (·.selected) =
      min input.maxCandidates (input.targets.countP eligible) := by
  have hselected : input.decisions.countP (·.selected) =
      input.decisions.countP fun d ↦ decide (d.target ∈ input.taken) := by
    refine List.countP_congr fun d hd ↦ ?_
    obtain ⟨ht, _, _, hkey⟩ := input.mem_decisions hd
    rw [hkey, input.selected_iff hdistinct ht, decide_eq_true_eq]
  have htargets : input.evaluated.Nodup :=
    input.evaluated_perm.nodup_iff.2 (List.Nodup.of_map _ hdistinct)
  have htaken : input.taken.Sublist input.evaluated :=
    (List.take_sublist _ _).trans List.filter_sublist
  have hsame : (input.evaluated.filter (· ∈ input.taken)).Perm input.taken := by
    refine (List.perm_ext_iff_of_nodup (htargets.filter _) (htaken.nodup htargets)).2 fun t ↦ ?_
    rw [List.mem_filter, decide_eq_true_eq]
    exact ⟨fun h ↦ h.2, fun h ↦ ⟨htaken.subset h, h⟩⟩
  rw [hselected, ← input.taken_length, ← hsame.length_eq, ← List.countP_eq_length_filter,
    ← input.decisions_targets, List.countP_map]
  rfl

end PersistCandidatesInput

/-! ## Storing rows -/

section Storing

variable [Hashing] {db db' : Db} {session : Session} {input : PersistCandidatesInput}
  {ds : List ResearchDecision}

/-- The rows of the decisions were added to the table. -/
structure StoresDecisions (input : PersistCandidatesInput) (db db' : Db) (ds : List ResearchDecision) :
    Prop where
  rows : db'.candidates.rows = db.candidates.rows ++ ds.map (·.candidate input)
  leases : db'.leases = db.leases

theorem StoresDecisions.trans {db₁ db₂ db₃ : Db} {ds₁ ds₂ : List ResearchDecision}
    (h₁ : StoresDecisions input db₁ db₂ ds₁) (h₂ : StoresDecisions input db₂ db₃ ds₂) :
    StoresDecisions input db₁ db₃ (ds₁ ++ ds₂) := by
  refine ⟨?_, h₂.leases.trans h₁.leases⟩
  rw [h₂.rows, h₁.rows, List.map_append, List.append_assoc]

/-- The identifiers of the decisions are new, and different. -/
def Fresh (input : PersistCandidatesInput) (db : Db) (ds : List ResearchDecision) : Prop :=
  (db.candidates.rows.map (·.id) ++ ds.map fun d ↦ (d.candidate input).id).Nodup

theorem Fresh.after {ds₁ ds₂ : List ResearchDecision} (h : Fresh input db (ds₁ ++ ds₂))
    (hstores : StoresDecisions input db db' ds₁) : Fresh input db' ds₂ := by
  rw [Fresh, hstores.rows, List.map_append, List.append_assoc]
  rw [Fresh, List.map_append] at h
  convert h using 3
  simp

theorem Fresh.left {ds₁ ds₂ : List ResearchDecision} (h : Fresh input db (ds₁ ++ ds₂)) :
    Fresh input db ds₁ := by
  rw [Fresh, List.map_append, ← List.append_assoc] at h
  exact List.Nodup.of_append_left h

omit [Hashing] in
theorem fenceHeld_of_leases (h : db'.leases = db.leases) :
    fenceHeld db' session = fenceHeld db session := by
  rw [fenceHeld, fenceHeld, h]

/-- A row with a new identifier is added. -/
theorem insertCandidate_ok {d : ResearchDecision} (hfence : fenceHeld db session)
    (hfresh : Fresh input db (d :: ds))
    (h : insertCandidate db session (d.candidate input) = .ok db') :
    StoresDecisions input db db' [d] := by
  rw [insertCandidate, if_pos hfence] at h
  simp only [bind_eq_ok] at h
  obtain ⟨_, _, h⟩ := h
  have hnew : db.candidates.get? (d.candidate input).id = none := by
    rcases hget : db.candidates.get? (d.candidate input).id with - | c
    · rfl
    · rw [Fresh, List.map_cons, List.nodup_append] at hfresh
      have hmem := List.mem_of_find?_eq_some hget
      have hid : c.id = (d.candidate input).id := by simpa [Row.key] using List.find?_some hget
      exact absurd hid (hfresh.2.2 _ (List.mem_map_of_mem hmem) _ List.mem_cons_self)
  rw [hnew] at h
  simp only [Option.isSome_none, Bool.false_eq_true, if_false, bind_eq_ok,
    Table.insertOne_eq_ok] at h
  obtain ⟨_, _, candidates, hinsert, hout⟩ := h
  obtain rfl := Except.ok.inj hout
  exact ⟨Table.rows_of_insert? hinsert, rfl⟩

/-- **Rows are stored one after the other**, and the selected ones returned. -/
theorem persistDecisionRows_ok {proposals : List ResearchTarget} (hfence : fenceHeld db session)
    (hfresh : Fresh input db ds)
    (h : persistDecisionRows session input db ds = (db', .ok proposals)) :
    StoresDecisions input db db' ds ∧ proposals = (ds.filter (·.selected)).map (·.target) := by
  induction ds generalizing db proposals with
  | nil =>
    obtain ⟨rfl, hout⟩ := Prod.mk.inj h
    obtain rfl := Except.ok.inj hout
    exact ⟨⟨(List.append_nil _).symm, rfl⟩, rfl⟩
  | cons d rest ih =>
    rw [persistDecisionRows] at h
    split at h
    · cases (Prod.mk.inj h).2
    · next db₁ hinsert =>
      have hfirst := insertCandidate_ok hfence hfresh hinsert
      have hfence₁ : fenceHeld db₁ session := by rwa [fenceHeld_of_leases hfirst.leases]
      have hfresh₁ : Fresh input db₁ rest :=
        (show Fresh input db ([d] ++ rest) from hfresh).after hfirst
      rcases hrest : persistDecisionRows session input db₁ rest with ⟨db₂, outcome⟩
      rw [hrest] at h
      obtain ⟨rfl, hout⟩ := Prod.mk.inj h
      rcases outcome with code | ts
      · cases hout
      · obtain ⟨hstores, rfl⟩ := ih hfence₁ hfresh₁ hrest
        refine ⟨hfirst.trans hstores, ?_⟩
        obtain rfl := Except.ok.inj hout
        by_cases hselected : d.selected = true
        · simp [hselected]
        · simp [hselected]

omit [Hashing] in
/-- A lane that did not fail counts with what it stored, be it nothing. -/
theorem laneResult_proposals {lane : WorkstreamLane} {proposals : List ResearchTarget} :
    (if (laneResult lane (.ok proposals)).outcome = .success then
      (laneResult lane (.ok proposals)).proposals else []) = proposals := by
  by_cases hempty : proposals = []
  · simp [laneResult, hempty]
  · simp [laneResult, hempty]

/-- The decisions of some lanes. -/
def laneDecisions (input : PersistCandidatesInput)
    (lanes : List (WorkstreamLane × StrategyFamily)) : List ResearchDecision :=
  lanes.flatMap fun (_, family) ↦ input.decisions.filter (·.family = family)

/-- **Lanes that all complete** store the decisions of their families. -/
theorem executeWorkstreamLanes_ok {lanes : List (WorkstreamLane × StrategyFamily)}
    {results : List WorkstreamResult} (hfence : fenceHeld db session)
    (hfresh : Fresh input db (laneDecisions input lanes))
    (h : executeWorkstreamLanes session input db lanes = (db', results))
    (hquiet : ∀ r ∈ results, r.outcome ≠ .error) :
    StoresDecisions input db db' (laneDecisions input lanes) ∧
      (results.flatMap fun r ↦ if r.outcome = .success then r.proposals else []) =
        ((laneDecisions input lanes).filter (·.selected)).map (·.target) := by
  induction lanes generalizing db results with
  | nil =>
    obtain ⟨rfl, rfl⟩ := Prod.mk.inj h
    exact ⟨⟨(List.append_nil _).symm, rfl⟩, rfl⟩
  | cons lane rest ih =>
    obtain ⟨lane, family⟩ := lane
    rw [executeWorkstreamLanes] at h
    rcases hlane : persistDecisionRows session input db
      (input.decisions.filter (·.family = family)) with ⟨db₁, outcome⟩
    rcases hrest : executeWorkstreamLanes session input db₁ rest with ⟨db₂, others⟩
    rw [hlane] at h
    dsimp only at h
    rw [hrest] at h
    obtain ⟨rfl, rfl⟩ := Prod.mk.inj h
    rcases outcome with code | proposals
    · exact absurd rfl (hquiet _ List.mem_cons_self)
    · have hcons : laneDecisions input ((lane, family) :: rest) =
          input.decisions.filter (·.family = family) ++ laneDecisions input rest := rfl
      rw [hcons] at hfresh ⊢
      obtain ⟨hfirst, rfl⟩ := persistDecisionRows_ok hfence hfresh.left hlane
      have hfence₁ : fenceHeld db₁ session := by rwa [fenceHeld_of_leases hfirst.leases]
      obtain ⟨hstores, hproposals⟩ := ih hfence₁ (hfresh.after hfirst) hrest
        fun r hr ↦ hquiet r (List.mem_cons_of_mem _ hr)
      refine ⟨hfirst.trans hstores, ?_⟩
      rw [List.flatMap_cons, hproposals, List.filter_append, List.map_append]
      congr 1
      exact laneResult_proposals

end Storing

/-! ## The run -/

section Run

variable [Hashing] {db db' : Db} {session : Session} {input : PersistCandidatesInput}
  {result : PersistCandidatesResult}

/-- The families that are stored. -/
def storedFamilies (input : PersistCandidatesInput) : List StrategyFamily :=
  input.enabledLanes.map Prod.snd ++ [.standardOption]

/-- The decisions that are stored. -/
def storedDecisions (input : PersistCandidatesInput) : List ResearchDecision :=
  laneDecisions input input.enabledLanes ++ input.decisions.filter (·.family = .standardOption)

omit [Hashing] in
/-- The decisions of different families, together. -/
theorem flatMap_filter_perm {α κ : Type*} [DecidableEq κ] (key : α → κ) (l : List α) {keys : List κ}
    (hdistinct : keys.Nodup) :
    (keys.flatMap fun k ↦ l.filter (key · = k)).Perm (l.filter (key · ∈ keys)) := by
  induction keys with
  | nil => simp
  | cons k rest ih =>
    obtain ⟨hk, hrest⟩ := List.nodup_cons.1 hdistinct
    rw [List.flatMap_cons]
    refine ((ih hrest).append_left _).trans ?_
    have hsplit := List.filter_append_perm (fun a ↦ decide (key a = k)) (l.filter (key · ∈ k :: rest))
    rw [List.filter_filter, List.filter_filter] at hsplit
    refine List.Perm.trans ?_ hsplit
    refine (List.Perm.of_eq ?_).append (List.Perm.of_eq ?_)
    · refine List.filter_congr fun a _ ↦ ?_
      by_cases ha : key a = k
      · simp [ha]
      · simp [ha]
    · refine List.filter_congr fun a _ ↦ ?_
      by_cases ha : key a = k
      · simp [ha, hk]
      · simp [ha]

omit [Hashing] in
theorem storedDecisions_perm :
    (storedDecisions input).Perm (input.decisions.filter (·.family ∈ storedFamilies input)) := by
  have hfamilies : (storedFamilies input).Nodup := by
    rw [storedFamilies, PersistCandidatesInput.enabledLanes]
    rcases input.optionsEnabled with - | -
    · decide
    · decide
  have hflat : storedDecisions input =
      (storedFamilies input).flatMap fun f ↦ input.decisions.filter (·.family = f) := by
    rw [storedDecisions, laneDecisions, storedFamilies, List.flatMap_append, List.flatMap_map]
    simp
  rw [hflat]
  exact flatMap_filter_perm _ _ hfamilies

omit [Hashing] in
/-- Nothing is left out exactly if every family that occurs is stored. -/
theorem storedDecisions_all : (storedDecisions input).Perm input.decisions ↔
    ∀ t ∈ input.targets, input.family t ∈ storedFamilies input := by
  constructor
  · intro h t ht
    have hall : input.decisions.filter (·.family ∈ storedFamilies input) = input.decisions :=
      List.filter_sublist.eq_of_length (storedDecisions_perm.symm.trans h).length_eq
    have hmem : t ∈ input.decisions.map (·.target) := by
      rw [input.decisions_targets]
      exact input.evaluated_perm.mem_iff.2 ht
    obtain ⟨d, hd, rfl⟩ := List.mem_map.1 hmem
    rw [← hall] at hd
    rw [← (input.mem_decisions (List.mem_of_mem_filter hd)).2.1]
    exact of_decide_eq_true (List.mem_filter.1 hd).2
  · intro h
    refine storedDecisions_perm.trans (List.Perm.of_eq (List.filter_eq_self.2 fun d hd ↦ ?_))
    obtain ⟨ht, hfamily, _⟩ := input.mem_decisions hd
    rw [hfamily]
    exact decide_eq_true (h _ (input.evaluated_perm.mem_iff.1 ht))

/-- The identifiers of a new run are new. -/
theorem FreshRun.fresh (h : FreshRun input db)
    (hdistinct : (input.targets.map (·.sourceFingerprint)).Nodup) :
    Fresh input db (storedDecisions input) := by
  have hkeys : (input.decisions.map fun d ↦ d.target.sourceFingerprint).Nodup := by
    rw [show (fun d : ResearchDecision ↦ d.target.sourceFingerprint) =
      (fun t : ResearchTarget ↦ t.sourceFingerprint) ∘ (fun d ↦ d.target) from rfl, ← List.map_map,
      input.decisions_targets]
    exact (input.evaluated_perm.map _).nodup_iff.2 hdistinct
  have hstored : ((storedDecisions input).map fun d ↦ d.target.sourceFingerprint).Nodup :=
    (storedDecisions_perm.map _).nodup_iff.2 (hkeys.sublist (List.filter_sublist.map _))
  rw [Fresh, List.nodup_append]
  refine ⟨?_, ?_, ?_⟩
  · exact List.pairwise_map.2 (db.candidates.unique.imp fun hne heq ↦ hne heq)
  · rw [show (fun d : ResearchDecision ↦ (d.candidate input).id) =
      researchCandidateId input.researchRunId ∘ fun d ↦ d.target.sourceFingerprint from rfl,
      ← List.map_map]
    exact hstored.map h.digest
  · intro id hid id' hid' heq
    obtain ⟨c, hc, rfl⟩ := List.mem_map.1 hid
    obtain ⟨d, _, rfl⟩ := List.mem_map.1 hid'
    exact h.ids c hc _ heq

/-- **A run that completes** stores the decisions of the families that run. -/
theorem persistCandidates_ok (hfence : fenceHeld db session) (hfresh : FreshRun input db)
    (hdistinct : (input.targets.map (·.sourceFingerprint)).Nodup)
    (h : persistCandidates db session input = (db', .ok result))
    (hquiet : ∀ r ∈ result.workstreamResults, r.outcome ≠ .error) :
    runCandidates db' input.researchRunId = (storedDecisions input).map (·.candidate input) ∧
      result.selected = (storedDecisions input).countP (·.selected) ∧
      result.rejected = input.decisions.length - input.decisions.countP (·.selected) := by
  have hnew := hfresh.fresh hdistinct
  rw [persistCandidates] at h
  rcases hlanes : executeWorkstreamLanes session input db input.enabledLanes with ⟨db₁, results⟩
  rw [hlanes] at h
  dsimp only at h
  rcases hrest : persistDecisionRows session input db₁
    (input.decisions.filter (·.family = .standardOption)) with ⟨db₂, outcome⟩
  rw [hrest] at h
  obtain ⟨rfl, hout⟩ := Prod.mk.inj h
  rcases outcome with code | standard
  · cases hout
  obtain rfl := Except.ok.inj hout
  obtain ⟨hstores, hproposals⟩ := executeWorkstreamLanes_ok hfence hnew.left hlanes hquiet
  have hfence₁ : fenceHeld db₁ session := by rwa [fenceHeld_of_leases hstores.leases]
  obtain ⟨hmore, rfl⟩ := persistDecisionRows_ok hfence₁ (hnew.after hstores) hrest
  have hall := hstores.trans hmore
  refine ⟨?_, ?_, rfl⟩
  · rw [runCandidates, hall.rows, List.filter_append, List.filter_eq_nil_iff.2, List.nil_append]
    · exact List.filter_eq_self.2 fun c hc ↦ by
        obtain ⟨d, _, rfl⟩ := List.mem_map.1 hc
        exact decide_eq_true rfl
    · intro c hc hrun
      exact hfresh.run c hc (of_decide_eq_true hrun)
  · dsimp only
    rw [hproposals, storedDecisions, List.countP_append, List.length_map, List.length_map,
      List.countP_eq_length_filter, List.countP_eq_length_filter]

omit [Hashing] in
theorem mem_storedFamilies {family : StrategyFamily} : family ∈ storedFamilies input ↔
    input.optionsEnabled = true ∨ family ≠ .zeroDteSpy ∧ family ≠ .leaps := by
  rw [storedFamilies, PersistCandidatesInput.enabledLanes]
  rcases input.optionsEnabled with - | -
  · rcases family with - | - | - | -
    all_goals decide
  · rcases family with - | - | - | -
    all_goals decide

/-- The candidate of a decision is that of its target, and of no other. -/
theorem candidateEligible_iff (hfresh : FreshRun input db)
    (hdistinct : (input.targets.map (·.sourceFingerprint)).Nodup) {d : ResearchDecision}
    (hd : d ∈ input.decisions) :
    CandidateEligible input (d.candidate input) ↔ PersistCandidatesInput.eligible d.target := by
  have htarget : d.target ∈ input.targets :=
    input.evaluated_perm.mem_iff.1 (input.mem_decisions hd).1
  constructor
  · rintro ⟨t, ht, hof, heligible⟩
    have hkey : d.target.sourceFingerprint = t.sourceFingerprint := hfresh.digest hof.id
    rwa [List.inj_on_of_nodup_map hdistinct htarget ht hkey]
  · intro heligible
    exact ⟨d.target, htarget, ⟨rfl, rfl, rfl, rfl, rfl⟩, heligible⟩

/-- **A research run is stored faithfully** exactly if the families of all its targets run: the
options are enabled, or no target is of a family that has an options lane. -/
theorem persisted_faithfully_iff (hfence : fenceHeld db session) (hfresh : FreshRun input db)
    (hdistinct : (input.targets.map (·.sourceFingerprint)).Nodup)
    (h : persistCandidates db session input = (db', .ok result))
    (hquiet : ∀ r ∈ result.workstreamResults, r.outcome ≠ .error) :
    PersistedFaithfully input db' result ↔ (input.optionsEnabled = true ∨
      ∀ t ∈ input.targets, input.family t ≠ .zeroDteSpy ∧ input.family t ≠ .leaps) := by
  obtain ⟨hrows, hselected, hrejected⟩ := persistCandidates_ok hfence hfresh hdistinct h hquiet
  have hcondition : (input.optionsEnabled = true ∨
      ∀ t ∈ input.targets, input.family t ≠ .zeroDteSpy ∧ input.family t ≠ .leaps) ↔
      (storedDecisions input).Perm input.decisions := by
    rw [storedDecisions_all]
    simp only [mem_storedFamilies]
    rcases input.optionsEnabled with - | -
    · simp
    · simp
  rw [hcondition]
  have hlength : input.decisions.length = input.targets.length := by
    rw [← List.length_map (f := ResearchDecision.target), input.decisions_targets,
      input.evaluated_perm.length_eq]
  constructor
  · intro hfaithful
    obtain ⟨rows, _, hperm, _, _, hranks, _⟩ := hfaithful.ranked
    -- As many rows as targets, so nothing was left out.
    have hstored : (storedDecisions input).length = input.decisions.length := by
      have hcount := congrArg List.length hranks
      rw [List.length_map, List.length_range', hperm.length_eq, hrows, List.length_map] at hcount
      rw [hcount, hlength]
    have hall := List.filter_sublist.eq_of_length
      (storedDecisions_perm.length_eq.symm.trans hstored)
    exact storedDecisions_perm.trans (List.Perm.of_eq hall)
  · intro hperm
    have hrun : (runCandidates db' input.researchRunId).Perm
        (input.decisions.map (·.candidate input)) := by
      rw [hrows]
      exact hperm.map _
    have hdecided : ∀ c ∈ runCandidates db' input.researchRunId,
        ∃ d ∈ input.decisions, d.candidate input = c := fun c hc ↦
      List.mem_map.1 (hrun.mem_iff.1 hc)
    have hchosen : ∀ d : ResearchDecision,
        ((d.candidate input).decision = .selected ↔ d.selected = true) ∧
          ((d.candidate input).decision = .rejected ↔ d.selected = false) := by
      intro d
      rcases hd : d.selected with - | -
      · simp [ResearchDecision.candidate, hd]
      · simp [ResearchDecision.candidate, hd]
    have hcount : (runCandidates db' input.researchRunId).countP (·.decision = .selected) =
        input.decisions.countP (·.selected) := by
      rw [hrun.countP_eq, List.countP_map]
      refine List.countP_congr fun d _ ↦ ?_
      simp [(hchosen d).1]
    refine ⟨⟨input.decisions.map (·.candidate input), input.evaluated, hrun.symm,
      input.evaluated_perm, ?_, ?_, ?_⟩, ?_, ?_, ?_, ?_, ?_⟩
    · rw [← input.decisions_targets, List.forall₂_map_left_iff, List.forall₂_map_right_iff,
        List.forall₂_same]
      exact fun d _ ↦ ⟨rfl, rfl, rfl, rfl, rfl⟩
    · rw [List.map_map]
      exact input.decisions_ranks
    · have hsorted := input.evaluated_sorted
      rw [← input.decisions_targets, List.pairwise_map] at hsorted
      rw [List.pairwise_map]
      refine hsorted.imp_of_mem fun {a b} ha hb hab ↦ ?_
      change b.score ≤ a.score
      rw [(input.mem_decisions ha).2.2.1, (input.mem_decisions hb).2.2.1]
      exact hab
    · rw [hcount, input.decisions_selected hdistinct]
    · intro c hc hselected
      obtain ⟨d, hd, rfl⟩ := hdecided c hc
      rw [candidateEligible_iff hfresh hdistinct hd]
      obtain ⟨ht, _, _, hkey⟩ := input.mem_decisions hd
      have htaken := (input.selected_iff hdistinct ht).1 (hkey.1 ((hchosen d).1.1 hselected))
      exact (List.mem_filter.1 (List.mem_of_mem_take htaken)).2
    · intro c hc hselected c' hc' hrejected heligible
      obtain ⟨d, hd, rfl⟩ := hdecided c hc
      obtain ⟨d', hd', rfl⟩ := hdecided c' hc'
      rw [candidateEligible_iff hfresh hdistinct hd'] at heligible
      obtain ⟨ht, _, hscore, hkey⟩ := input.mem_decisions hd
      obtain ⟨ht', _, hscore', hkey'⟩ := input.mem_decisions hd'
      have htaken := (input.selected_iff hdistinct ht).1 (hkey.1 ((hchosen d).1.1 hselected))
      have hnot : d'.target ∉ input.taken := by
        intro htaken'
        have := hkey'.2 ((input.selected_iff hdistinct ht').2 htaken')
        rw [(hchosen d').2.1 hrejected] at this
        cases this
      change d'.score ≤ d.score
      rw [hscore, hscore']
      exact input.taken_best htaken ht' heligible hnot
    · rw [hselected, hcount, hperm.countP_eq]
    · rw [hrejected, hrun.countP_eq, List.countP_map]
      have hsplit := List.length_eq_countP_add_countP (·.selected) (l := input.decisions)
      have hothers : input.decisions.countP
          ((fun c : Candidate ↦ decide (c.decision = .rejected)) ∘ (·.candidate input)) =
          input.decisions.countP fun d ↦ decide ¬ d.selected = true := by
        refine List.countP_congr fun d _ ↦ ?_
        simp [(hchosen d).2]
      omega

end Run

/-! ## A stock and a long option -/

namespace Specimen

/-- A stock target. -/
def stockTarget : ResearchTarget where
  symbol := "XYZ"
  sourceFingerprint := "stock"
  asOf := 1767225599000
  direction := .long
  preferredExpression := .shares
  confidence := 1 / 2

/-- A target that is traded by a call of about a year. -/
def leapsTarget : ResearchTarget where
  symbol := "ABC"
  sourceFingerprint := "leaps"
  asOf := 1767225599000
  direction := .long
  preferredExpression := .longCall
  confidence := 3 / 4
  optionsCandidate := some
    { type := some .call, optionSymbol := some "ABC261218C00100000",
      expirationDate := some "2026-12-18", liquidityScore := some 1 }

/-- The run that decides about them. -/
def researchInput (optionsEnabled : Bool) : PersistCandidatesInput where
  researchRunId := "research"
  optionsEnabled
  targets := [stockTarget, leapsTarget]
  maxCandidates := 1
  now := 1767225599000
  leapsPolicy := { minDte := 180, maxDte := 730 }
  scoreAdjustment _ _ := 0

theorem researchInput_fresh (optionsEnabled : Bool) :
    @FreshRun hashing (researchInput optionsEnabled) account := by
  refine @FreshRun.mk hashing _ _ ?_ ?_ ?_
  · intro c hc
    obtain rfl := List.mem_singleton.1 hc
    exact (by decide : ("" : String) ≠ "research")
  · intro c hc source heq
    obtain rfl := List.mem_singleton.1 hc
    have hfirst := congrArg (fun s ↦ s.toList[4]?) heq
    simp [researchCandidateId] at hfirst
  · intro s t heq
    have htexts : "candidate_" ++ ("research" ++ "|" ++ s) =
        "candidate_" ++ ("research" ++ "|" ++ t) := heq
    simpa using htexts

end Specimen

/-- The theorem at the specimen: with the options enabled the run is stored faithfully. -/
theorem specimen_persisted_faithfully :
    let _ := Specimen.hashing
    let outcome := persistCandidates Specimen.account Specimen.session (Specimen.researchInput true)
    ∃ result, outcome.2 = .ok result ∧ result.selected = 1 ∧ result.rejected = 1 ∧
      PersistedFaithfully (Specimen.researchInput true) outcome.1 result := by
  intro _ outcome
  have hresult : outcome.2.toOption.map (fun r ↦
      (r.selected, r.rejected, decide (∀ x ∈ r.workstreamResults, x.outcome ≠ .error))) =
        some (1, 1, true) := by decide +kernel
  obtain ⟨result, hok, hcounts⟩ := Option.map_eq_some_iff.1 hresult
  simp only [Prod.mk.injEq, decide_eq_true_eq] at hcounts
  refine ⟨result, toOption_eq_some.1 hok, hcounts.1, hcounts.2.1, ?_⟩
  exact (persisted_faithfully_iff (by decide) (Specimen.researchInput_fresh true) (by decide)
    (Prod.ext rfl (toOption_eq_some.1 hok)) hcounts.2.2).2 (Or.inl rfl)

/-- Without them the option takes the only place and is not stored, and the stock is rejected. -/
theorem disabled_lane_drops_selected :
    let _ := Specimen.hashing
    let outcome := persistCandidates Specimen.account Specimen.session (Specimen.researchInput false)
    outcome.2.toOption.map (fun r ↦ (r.selected, r.rejected)) = some (0, 1) ∧
      (runCandidates outcome.1 "research").map (fun c ↦ (c.rank, c.decision)) = [(2, .rejected)] ∧
      ∀ result, ¬ PersistedFaithfully (Specimen.researchInput false) outcome.1 result := by
  intro _ outcome
  have hrows : (runCandidates outcome.1 "research").map (fun c ↦ (c.rank, c.decision)) =
      [(2, .rejected)] := by decide +kernel
  refine ⟨by decide +kernel, hrows, fun result hfaithful ↦ ?_⟩
  obtain ⟨rows, _, hperm, _, _, hranks, _⟩ := hfaithful.ranked
  have hlength := congrArg List.length hrows
  rw [List.length_map, List.length_singleton] at hlength
  have hcount := congrArg List.length hranks
  rw [List.length_map, List.length_range', hperm.length_eq] at hcount
  exact absurd (hcount.symm.trans hlength) (by decide)

end AlpacaTrading
