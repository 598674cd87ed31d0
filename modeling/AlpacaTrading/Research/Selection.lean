import AlpacaTrading.Lib.Greedy
import AlpacaTrading.Research.Ranking

/-!
# The selection of candidates

The selection loop of `rankResearchCandidates` is a greedy pass: its count maps hold how often each
symbol, direction and expression was selected.  So every skipped candidate was skipped for a cap
that was reached, and the caps are kept.

The ranks are another matter.  The selected candidates are numbered among themselves, while a
skipped one gets its place in the sorted list.  These numbers differ only if no candidate is
selected after one that was skipped.
-/

namespace AlpacaTrading.CandidateRanking

/-! ## The loop as a greedy pass -/

/-- The reason to skip a candidate after those that were selected. -/
def skipReason (e : Evidence) (input : CandidateRankingInput) (selected : List RankedCandidate)
    (c : RankedCandidate) : Option String :=
  if suspended e c then some "LEARNING_GOVERNANCE_SUSPENDED"
  else if input.maxCandidates ≤ selected.length then some "MAX_CANDIDATES_REACHED"
  else if input.symbolCap ≤ selected.countP (·.symbol = c.symbol) then
    some "MAX_PER_SYMBOL_REACHED"
  else if input.directionCap ≤ selected.countP (·.direction = c.direction) then
    some "MAX_PER_DIRECTION_REACHED"
  else if input.expressionCap ≤ selected.countP (·.preferredExpression = c.preferredExpression) then
    some "MAX_PER_EXPRESSION_REACHED"
  else none

/-- The count maps hold what was selected. -/
structure Selection.Counted (s : Selection) : Prop where
  bySymbol : ∀ x, s.bySymbol x = s.selected.countP (·.symbol = x)
  byDirection : ∀ x, s.byDirection x = s.selected.countP (·.direction = x)
  byExpression : ∀ x, s.byExpression x = s.selected.countP (·.preferredExpression = x)

theorem update_count {κ : Type} [DecidableEq κ] {key : RankedCandidate → κ}
    {selected : List RankedCandidate} {count : κ → ℕ}
    (h : ∀ x, count x = selected.countP (key · = x)) (c : RankedCandidate) (x : κ) :
    Function.update count (key c) (count (key c) + 1) x =
      (selected ++ [c]).countP (key · = x) := by
  rw [List.countP_append, List.countP_singleton, Function.update_apply]
  by_cases hx : x = key c
  · subst hx
    simp [h]
  · simp [hx, h, Ne.symm hx]

section Loop

variable {e : Evidence} {input : CandidateRankingInput} {s : Selection} {c : RankedCandidate}

theorem Selection.Counted.start : Selection.Counted {} := by
  constructor <;> exact fun _ ↦ rfl

theorem Selection.Counted.skip (h : s.Counted) (reason : String) : (s.skip c reason).Counted :=
  ⟨h.bySymbol, h.byDirection, h.byExpression⟩

theorem Selection.Counted.select (h : s.Counted) : (s.select c).Counted :=
  ⟨update_count h.bySymbol c, update_count h.byDirection c, update_count h.byExpression c⟩

/-- One round selects the candidate or notes why not. -/
theorem selectStep_eq (h : s.Counted) : selectStep e input s c =
    match skipReason e input s.selected c with
    | none => s.select c
    | some reason => s.skip c reason := by
  rw [selectStep, skipReason, h.bySymbol, h.byDirection, h.byExpression]
  split_ifs <;> rfl

/-- What the loop leaves. -/
theorem foldl_selectStep (h : s.Counted) (l : List RankedCandidate) :
    (l.foldl (selectStep e input) s).selected =
        s.selected ++ Greedy.takenOf (Greedy.verdicts (skipReason e input) s.selected l) ∧
      (∀ id ∉ l.map (·.id), (l.foldl (selectStep e input) s).skippedReasons id =
        s.skippedReasons id) ∧
      ((l.map (·.id)).Nodup → ∀ v ∈ Greedy.verdicts (skipReason e input) s.selected l,
        ∀ reason, v.2 = some reason →
          (l.foldl (selectStep e input) s).skippedReasons v.1.id = some reason) := by
  induction l generalizing s with
  | nil => simp
  | cons c l ih =>
    rw [List.foldl_cons, selectStep_eq h]
    rcases hskip : skipReason e input s.selected c with - | reason <;> dsimp only
    · obtain ⟨hselected, hothers, hreasons⟩ := ih (h.select (c := c))
      rw [Greedy.verdicts_cons_none hskip]
      refine ⟨?_, fun id hid ↦ ?_, fun hnodup ↦ ?_⟩
      · rw [hselected, Greedy.takenOf_cons_none]
        exact List.append_assoc _ _ _
      · exact hothers id fun hmem ↦ hid (List.mem_cons_of_mem _ hmem)
      · rw [List.forall_mem_cons]
        exact ⟨fun _ hnone ↦ (Option.some_ne_none _ hnone.symm).elim,
          hreasons (List.nodup_cons.1 hnodup).2⟩
    · obtain ⟨hselected, hothers, hreasons⟩ := ih (h.skip (c := c) reason)
      rw [Greedy.verdicts_cons_some hskip]
      refine ⟨?_, fun id hid ↦ ?_, fun hnodup ↦ ?_⟩
      · rw [hselected, Greedy.takenOf_cons_some]
        rfl
      · rw [List.map_cons, List.mem_cons, not_or] at hid
        rw [hothers id hid.2]
        exact Function.update_of_ne hid.1 _ _
      · rw [List.forall_mem_cons]
        obtain ⟨hc, hnodup⟩ := List.nodup_cons.1 hnodup
        refine ⟨fun reason' heq ↦ ?_, hreasons hnodup⟩
        rw [hothers c.id hc, ← heq]
        exact Function.update_self _ _ _

end Loop

/-! ## The sorted candidates -/

section Sorted

variable (e : Evidence) (input : CandidateRankingInput)

theorem scored_ids : (scored e input).map (·.id) =
    List.range (sourceFromTargets input.targets).length := by
  apply List.ext_getElem
  · simp [scored]
  · intro n h₁ h₂
    simp [scored, scoredCandidate]

theorem sorted_perm : (sorted e input).Perm (scored e input) := List.perm_insertionSort _ _

theorem sorted_ids_nodup : ((sorted e input).map (·.id)).Nodup := by
  rw [((sorted_perm e input).map _).nodup_iff, scored_ids]
  exact List.nodup_range

theorem sorted_pairwise : (sorted e input).Pairwise fun a b ↦ b.score ≤ a.score := by
  have := List.pairwise_insertionSort
    (fun left right : RankedCandidate ↦ right.score ≤ left.score) (scored e input)
  exact this

end Sorted

/-- What becomes of the candidates. -/
def verdicts (e : Evidence) (input : CandidateRankingInput) :
    List (RankedCandidate × Option String) :=
  Greedy.verdicts (skipReason e input) [] (sorted e input)

/-- The selected candidates, before they are numbered. -/
def selectedOf (e : Evidence) (input : CandidateRankingInput) : List RankedCandidate :=
  Greedy.takenOf (verdicts e input)

/-! ## Caps -/

/-- The caps of the input are positive. -/
structure CandidateRankingInput.PositiveCaps (input : CandidateRankingInput) : Prop where
  maxCandidates : 0 < input.maxCandidates
  maxPerSymbol : 0 < input.maxPerSymbol
  maxPerDirection : 0 < input.maxPerDirection
  maxPerExpression : 0 < input.maxPerExpression

/-- A list of candidates no one of which is suspended and that exceeds no cap. -/
structure WithinCaps (e : Evidence) (input : CandidateRankingInput) (xs : List RankedCandidate) :
    Prop where
  length : xs.length ≤ input.maxCandidates
  unsuspended : ∀ c ∈ xs, suspended e c = false
  perSymbol : ∀ x, xs.countP (·.symbol = x) ≤ input.maxPerSymbol
  perDirection : ∀ x, xs.countP (·.direction = x) ≤ input.maxPerDirection
  perExpression : ∀ x, xs.countP (·.preferredExpression = x) ≤ input.maxPerExpression

/-- What speaks against another candidate after those that were selected. -/
inductive Barred (e : Evidence) (input : CandidateRankingInput) (xs : List RankedCandidate)
    (c : RankedCandidate) : String → Prop where
  | suspended (h : suspended e c = true) : Barred e input xs c "LEARNING_GOVERNANCE_SUSPENDED"
  | maxCandidates (h : input.maxCandidates ≤ xs.length) : Barred e input xs c "MAX_CANDIDATES_REACHED"
  | maxPerSymbol (h : input.maxPerSymbol ≤ xs.countP (·.symbol = c.symbol)) :
      Barred e input xs c "MAX_PER_SYMBOL_REACHED"
  | maxPerDirection (h : input.maxPerDirection ≤ xs.countP (·.direction = c.direction)) :
      Barred e input xs c "MAX_PER_DIRECTION_REACHED"
  | maxPerExpression
      (h : input.maxPerExpression ≤ xs.countP (·.preferredExpression = c.preferredExpression)) :
      Barred e input xs c "MAX_PER_EXPRESSION_REACHED"

section Caps

variable {e : Evidence} {input : CandidateRankingInput} {xs : List RankedCandidate}
  {c : RankedCandidate}

theorem orDefault_of_pos {value : ℕ} (h : 0 < value) (fallback : ℕ) :
    orDefault value fallback = value := if_neg h.ne'

theorem symbolCap_eq (hcaps : input.PositiveCaps) : input.symbolCap = input.maxPerSymbol :=
  orDefault_of_pos hcaps.maxPerSymbol _

theorem directionCap_eq (hcaps : input.PositiveCaps) :
    input.directionCap = input.maxPerDirection := orDefault_of_pos hcaps.maxPerDirection _

theorem expressionCap_eq (hcaps : input.PositiveCaps) :
    input.expressionCap = input.maxPerExpression := orDefault_of_pos hcaps.maxPerExpression _

/-- The reason that is given is one that holds. -/
theorem Barred.of_skipReason (hcaps : input.PositiveCaps) {reason : String}
    (h : skipReason e input xs c = some reason) : Barred e input xs c reason := by
  rw [skipReason, symbolCap_eq hcaps, directionCap_eq hcaps, expressionCap_eq hcaps] at h
  split_ifs at h with hs hn hy hd hx <;> obtain rfl := Option.some.inj h
  · exact .suspended hs
  · exact .maxCandidates hn
  · exact .maxPerSymbol hy
  · exact .maxPerDirection hd
  · exact .maxPerExpression hx

theorem skipReason_eq_none (hcaps : input.PositiveCaps) : skipReason e input xs c = none ↔
    suspended e c = false ∧ xs.length < input.maxCandidates ∧
      xs.countP (·.symbol = c.symbol) < input.maxPerSymbol ∧
      xs.countP (·.direction = c.direction) < input.maxPerDirection ∧
      xs.countP (·.preferredExpression = c.preferredExpression) < input.maxPerExpression := by
  rw [skipReason, symbolCap_eq hcaps, directionCap_eq hcaps, expressionCap_eq hcaps]
  split_ifs with hs hn hy hd hx
  · simp [hs]
  · simp [Nat.not_lt.2 hn]
  · simp [Nat.not_lt.2 hy]
  · simp [Nat.not_lt.2 hd]
  · simp [Nat.not_lt.2 hx]
  · exact iff_of_true rfl ⟨Bool.eq_false_iff.2 hs, Nat.not_le.1 hn, Nat.not_le.1 hy,
      Nat.not_le.1 hd, Nat.not_le.1 hx⟩

theorem exists_barred (hcaps : input.PositiveCaps) :
    (∃ reason, Barred e input xs c reason) ↔ skipReason e input xs c ≠ none := by
  constructor
  · rintro ⟨_, h⟩ hnone
    obtain ⟨hs, hn, hy, hd, hx⟩ := (skipReason_eq_none hcaps).1 hnone
    cases h with
    | suspended h => simp [hs] at h
    | maxCandidates h => exact Nat.not_lt.2 h hn
    | maxPerSymbol h => exact Nat.not_lt.2 h hy
    | maxPerDirection h => exact Nat.not_lt.2 h hd
    | maxPerExpression h => exact Nat.not_lt.2 h hx
  · intro h
    obtain ⟨reason, hreason⟩ := Option.ne_none_iff_exists'.1 h
    exact ⟨reason, .of_skipReason hcaps hreason⟩

/-- Nothing in a list is skipped exactly if the list keeps the caps. -/
theorem unskipped_iff (hcaps : input.PositiveCaps) :
    (∀ pre a post, xs = pre ++ a :: post → skipReason e input pre a = none) ↔
      WithinCaps e input xs := by
  simp only [skipReason_eq_none hcaps]
  constructor
  · intro h
    refine ⟨?_, fun c hc ↦ ?_, ?_, ?_, ?_⟩
    · rcases xs.eq_nil_or_concat with rfl | ⟨pre, a, rfl⟩
      · exact Nat.zero_le _
      · have hlt := (h pre a [] (by simp)).2.1
        rw [List.length_concat]
        exact hlt
    · obtain ⟨pre, post, rfl⟩ := List.append_of_mem hc
      exact (h pre c post rfl).1
    · exact Greedy.capped_iff.1 fun pre a post heq ↦ (h pre a post heq).2.2.1
    · exact Greedy.capped_iff.1 fun pre a post heq ↦ (h pre a post heq).2.2.2.1
    · exact Greedy.capped_iff.1 fun pre a post heq ↦ (h pre a post heq).2.2.2.2
  · rintro h pre a post rfl
    have hlength := h.length
    rw [List.length_append, List.length_cons] at hlength
    exact ⟨h.unsuspended a (by simp), by omega, Greedy.capped_iff.2 h.perSymbol pre a post rfl,
      Greedy.capped_iff.2 h.perDirection pre a post rfl,
      Greedy.capped_iff.2 h.perExpression pre a post rfl⟩

/-- The selection keeps the caps. -/
theorem selectedOf_withinCaps (hcaps : input.PositiveCaps) :
    WithinCaps e input (selectedOf e input) := by
  rw [← unskipped_iff hcaps]
  have hstart : ∀ pre a post, [] = pre ++ a :: post → skipReason e input pre a = none :=
    fun pre a post heq ↦ by simp at heq
  refine Greedy.takenOf_invariant
    (P := fun xs ↦ ∀ pre a post, xs = pre ++ a :: post → skipReason e input pre a = none)
    hstart fun taken c htaken hc pre a post heq ↦ ?_
  · rcases post.eq_nil_or_concat with rfl | ⟨post, b, rfl⟩
    · obtain ⟨rfl, hac⟩ := List.append_inj' heq rfl
      obtain rfl : c = a := by simpa using hac
      exact hc
    · have hsplit : taken ++ [c] = (pre ++ a :: post) ++ [b] := by simpa using heq
      obtain ⟨rfl, -⟩ := List.append_inj' hsplit rfl
      exact htaken pre a post rfl

end Caps

/-! ## The statement -/

/-- A candidate without its number. -/
def RankedCandidate.unranked (c : RankedCandidate) : RankedCandidate := { c with rank := 0 }

/-- The selection is a justified greedy one. -/
structure JustifiedSelection (e : Evidence) (input : CandidateRankingInput)
    (result : CandidateRankingResult) : Prop where
  /-- One decision for each target with an expression. -/
  count : result.decisions.length = input.targets.countP (·.preferredExpression ≠ .none)
  complete : (result.decisions.map (·.candidate.unranked)).Perm (scored e input)
  distinct : (result.decisions.map (·.candidate.rank)).Nodup
  decided : ∀ d ∈ result.decisions, d.decision = .selected ∨ d.decision = .skipped
  selected : (result.decisions.filter (·.decision = .selected)).map (·.candidate) =
    result.candidates
  best : result.candidates.Pairwise fun a b ↦ b.score ≤ a.score
  ranked : result.candidates.map (·.rank) = List.range' 1 result.candidates.length
  caps : WithinCaps e input result.candidates
  /-- The reason of a skipped candidate holds after the selected ones before it. -/
  justified : ∀ pre d post, result.decisions = pre ++ d :: post → d.decision = .skipped →
    Barred e input ((pre.filter (·.decision = .selected)).map (·.candidate)) d.candidate
      d.decisionReason

/-- The candidates, by descending score, begin with some that keep all caps, and each of the others
is barred after these. -/
def SelectsFirst (e : Evidence) (input : CandidateRankingInput) : Prop :=
  ∃ xs ys, sorted e input = xs ++ ys ∧ WithinCaps e input xs ∧
    ∀ c ∈ ys, ∃ reason, Barred e input xs c reason

/-! ## The decisions -/

/-- The record of a candidate and what became of it, at a place of the list and after a number of
selected ones. -/
def recordOf (place taken : ℕ) : RankedCandidate × Option String → CandidateDecisionRecord
  | (c, none) => ⟨{ c with rank := taken + 1 }, .selected, "RANKED_SELECTED", c.preferredExpression⟩
  | (c, some reason) => ⟨{ c with rank := place + 1 }, .skipped, reason, c.preferredExpression⟩

/-- The records of a list, after `k` selected candidates among the first `i`. -/
def records : ℕ → ℕ → List (RankedCandidate × Option String) → List CandidateDecisionRecord
  | _, _, [] => []
  | k, i, (c, none) :: vs => recordOf i k (c, none) :: records (k + 1) (i + 1) vs
  | k, i, (c, some reason) :: vs => recordOf i k (c, some reason) :: records k (i + 1) vs

section Records

variable {k i : ℕ} {c : RankedCandidate} {v : Option String}
  {vs : List (RankedCandidate × Option String)}

theorem length_records : (records k i vs).length = vs.length := by
  induction vs generalizing k i with
  | nil => rfl
  | cons v vs ih => rcases v with ⟨c, - | reason⟩ <;> simp [records, ih]

theorem getElem?_records (xs ys : List (RankedCandidate × Option String)) :
    (records k i (xs ++ (c, v) :: ys))[xs.length]? =
      some (recordOf (i + xs.length) (k + (Greedy.takenOf xs).length) (c, v)) := by
  induction xs generalizing k i with
  | nil => rcases v with - | reason <;> rfl
  | cons x xs ih =>
    rcases x with ⟨b, - | reason⟩
    · simp only [List.cons_append, records, List.length_cons, List.getElem?_cons_succ, ih,
        Greedy.takenOf_cons_none]
      congr 2 <;> omega
    · simp only [List.cons_append, records, List.length_cons, List.getElem?_cons_succ, ih,
        Greedy.takenOf_cons_some]
      congr 2
      omega

theorem ranks_records : (records k i vs).map (·.candidate.rank) = Greedy.ranks k i vs := by
  induction vs generalizing k i with
  | nil => rfl
  | cons v vs ih => rcases v with ⟨c, - | reason⟩ <;> simp [records, recordOf, Greedy.ranks, ih]

theorem unranked_records : (records k i vs).map (·.candidate.unranked) =
    (vs.map Prod.fst).map (·.unranked) := by
  induction vs generalizing k i with
  | nil => rfl
  | cons v vs ih =>
    rcases v with ⟨c, - | reason⟩ <;>
      rw [records, List.map_cons, List.map_cons, List.map_cons, ih] <;> rfl

theorem decided_records : ∀ d ∈ records k i vs, d.decision = .selected ∨ d.decision = .skipped := by
  induction vs generalizing k i with
  | nil => simp [records]
  | cons v vs ih =>
    rcases v with ⟨c, - | reason⟩ <;> rw [records, List.forall_mem_cons]
    · exact ⟨Or.inl rfl, ih⟩
    · exact ⟨Or.inr rfl, ih⟩

theorem selected_records :
    ((records k i vs).filter (·.decision = .selected)).map (·.candidate) =
      (Greedy.takenOf vs).mapIdx fun index c ↦ { c with rank := k + index + 1 } := by
  induction vs generalizing k i with
  | nil => rfl
  | cons v vs ih =>
    rcases v with ⟨c, - | reason⟩
    · simp [records, recordOf, ih, List.mapIdx_cons, Nat.add_assoc, Nat.add_comm 1]
    · simp [records, recordOf, ih]

/-- A skipped candidate among the records comes from one that was skipped. -/
theorem skipped_records {pre post : List CandidateDecisionRecord} {d : CandidateDecisionRecord}
    (h : records k i vs = pre ++ d :: post) (hd : d.decision = .skipped) :
    ∃ xs c reason ys, vs = xs ++ (c, some reason) :: ys ∧ pre = records k i xs ∧
      d.candidate.unranked = c.unranked ∧ d.decisionReason = reason := by
  induction vs generalizing k i pre with
  | nil => simp [records] at h
  | cons v vs ih =>
    rcases v with ⟨c, - | reason⟩ <;> rw [records] at h <;> rcases pre with - | ⟨p, pre⟩
    · obtain ⟨rfl, -⟩ := List.cons_eq_cons.1 h
      cases hd
    · obtain ⟨rfl, hrest⟩ := List.cons_eq_cons.1 h
      obtain ⟨xs, c', reason, ys, rfl, rfl, hc, hreason⟩ := ih hrest
      exact ⟨(c, none) :: xs, c', reason, ys, rfl, rfl, hc, hreason⟩
    · obtain ⟨rfl, -⟩ := List.cons_eq_cons.1 h
      exact ⟨[], c, reason, vs, rfl, rfl, rfl, rfl⟩
    · obtain ⟨rfl, hrest⟩ := List.cons_eq_cons.1 h
      obtain ⟨xs, c', reason', ys, rfl, rfl, hc, hreason⟩ := ih hrest
      exact ⟨(c, some reason) :: xs, c', reason', ys, rfl, rfl, hc, hreason⟩

end Records

section Result

variable {e : Evidence} {input : CandidateRankingInput}

theorem selectLoop_selected : (selectLoop e input (sorted e input)).selected = selectedOf e input :=
  (foldl_selectStep .start _).1

theorem map_fst_verdicts : (verdicts e input).map Prod.fst = sorted e input :=
  Greedy.map_fst_verdicts

theorem selectedOf_sublist : (selectedOf e input).Sublist (sorted e input) := by
  rw [← map_fst_verdicts]
  exact Greedy.takenOf_sublist _

theorem withRanks_append (pre post : List RankedCandidate) : withRanks (pre ++ post) =
    withRanks pre ++ post.mapIdx fun index c ↦ { c with rank := index + pre.length + 1 } := by
  rw [withRanks, List.mapIdx_append]
  rfl

theorem ids_withRanks (l : List RankedCandidate) : (withRanks l).map (·.id) = l.map (·.id) := by
  apply List.ext_getElem <;> simp [withRanks]

theorem find?_withRanks_eq_none {l : List RankedCandidate} {id : ℕ} (h : id ∉ l.map (·.id)) :
    (withRanks l).find? (·.id = id) = none := by
  rw [← ids_withRanks] at h
  rw [List.find?_eq_none]
  intro c hc heq
  exact h (List.mem_map.2 ⟨c, hc, by simpa using heq⟩)

theorem find?_withRanks {pre post : List RankedCandidate} {c : RankedCandidate}
    (h : ((pre ++ c :: post).map (·.id)).Nodup) :
    (withRanks (pre ++ c :: post)).find? (·.id = c.id) = some { c with rank := pre.length + 1 } := by
  rw [List.map_append, List.map_cons] at h
  have hpre : c.id ∉ pre.map (·.id) := fun hmem ↦
    (List.nodup_append.1 h).2.2 _ hmem _ List.mem_cons_self rfl
  rw [withRanks_append, List.find?_append, find?_withRanks_eq_none hpre, Option.none_or,
    List.mapIdx_cons, List.find?_cons_of_pos (by simp), Nat.zero_add]

/-- The aggressive profile never drops positive caps: they leave something unless everything is
suspended. -/
theorem relax_eq (hcaps : input.PositiveCaps) :
    (selectLoop e input (sorted e input)).relax e input (sorted e input) =
      selectLoop e input (sorted e input) := by
  rw [Selection.relax]
  refine if_neg ?_
  rintro ⟨hnil, hne, -⟩
  rw [selectLoop_selected] at hnil
  obtain ⟨c, hc⟩ := List.exists_mem_of_ne_nil _ hne
  obtain ⟨hc, hs⟩ := List.mem_filter.1 hc
  rw [← map_fst_verdicts, List.mem_map] at hc
  obtain ⟨⟨c, v⟩, hmem, rfl⟩ := hc
  obtain ⟨xs, ys, hsplit⟩ := List.append_of_mem hmem
  have hv := Greedy.verdict_at hsplit
  rw [selectedOf, hsplit, Greedy.takenOf_append, List.append_eq_nil_iff] at hnil
  rw [hnil.1, List.append_nil] at hv
  have hnone : skipReason e input [] c = none := (skipReason_eq_none hcaps).2
    ⟨by simpa using hs, hcaps.maxCandidates, hcaps.maxPerSymbol, hcaps.maxPerDirection,
      hcaps.maxPerExpression⟩
  rw [hv, hnone, Greedy.takenOf_cons_none] at hnil
  cases hnil.2

/-- The decision about a candidate is the record of what became of it. -/
theorem decisionFor_eq {xs ys : List (RankedCandidate × Option String)} {c : RankedCandidate}
    {v : Option String} (h : verdicts e input = xs ++ (c, v) :: ys) :
    decisionFor (selectLoop e input (sorted e input)) xs.length c =
      recordOf xs.length (Greedy.takenOf xs).length (c, v) := by
  have hnodup := sorted_ids_nodup e input
  rw [decisionFor, selectLoop_selected]
  rcases v with - | reason
  · have hselected : selectedOf e input = Greedy.takenOf xs ++ c :: Greedy.takenOf ys := by
      rw [selectedOf, h, Greedy.takenOf_append, Greedy.takenOf_cons_none]
    have hids := (selectedOf_sublist.map (·.id)).nodup hnodup
    rw [hselected] at hids ⊢
    rw [find?_withRanks hids]
    rfl
  · have hmem : (c, some reason) ∈ Greedy.verdicts (skipReason e input) [] (sorted e input) := by
      rw [verdicts] at h
      rw [h]
      simp
    have hreason := (foldl_selectStep .start (sorted e input)).2.2 hnodup _ hmem reason rfl
    have hout : c.id ∉ (selectedOf e input).map (·.id) := by
      rw [← map_fst_verdicts, h, List.map_append, List.map_cons] at hnodup
      have hids := (List.perm_middle.map fun c : RankedCandidate ↦ c.id).nodup_iff.1 hnodup
      rw [List.map_cons, List.nodup_cons] at hids
      rw [selectedOf, h, Greedy.takenOf_append, Greedy.takenOf_cons_some]
      exact fun hmem ↦ hids.1 ((((Greedy.takenOf_sublist xs).append
        (Greedy.takenOf_sublist ys)).map _).subset hmem)
    rw [find?_withRanks_eq_none hout]
    simp only [selectLoop, hreason, recordOf, Option.getD_some]

theorem decisions_eq (hcaps : input.PositiveCaps) :
    (rankResearchCandidates e input).decisions = records 0 0 (verdicts e input) := by
  rw [rankResearchCandidates]
  dsimp only
  rw [relax_eq hcaps]
  have hlength : (sorted e input).length = (verdicts e input).length := by
    rw [← map_fst_verdicts, List.length_map]
  apply List.ext_getElem?
  intro n
  by_cases hn : n < (verdicts e input).length
  · obtain ⟨xs, c, v, ys, hsplit, rfl⟩ := Greedy.exists_split_of_lt hn
    have hc : (sorted e input)[xs.length]? = some c := by
      rw [← map_fst_verdicts, hsplit]
      simp
    rw [List.getElem?_mapIdx, hc, Option.map_some, decisionFor_eq hsplit, hsplit,
      getElem?_records, Nat.zero_add, Nat.zero_add]
  · rw [List.getElem?_eq_none, List.getElem?_eq_none]
    · rw [length_records]
      exact Nat.not_lt.1 hn
    · rw [List.length_mapIdx, hlength]
      exact Nat.not_lt.1 hn

theorem candidates_eq (hcaps : input.PositiveCaps) :
    (rankResearchCandidates e input).candidates = withRanks (selectedOf e input) := by
  rw [rankResearchCandidates]
  dsimp only
  rw [relax_eq hcaps, selectLoop_selected]

theorem unranked_scored : ∀ c ∈ sorted e input, c.unranked = c := by
  intro c hc
  obtain ⟨i, hi, rfl⟩ := List.mem_iff_getElem.1 ((sorted_perm e input).mem_iff.1 hc)
  rw [show (scored e input)[i] = _ from List.getElem_mapIdx]
  rfl

end Result

/-! ## Numbers do not matter -/

section Unranked

variable {e : Evidence} {input : CandidateRankingInput} {xs ys : List RankedCandidate}

theorem countP_unranked {p : RankedCandidate → Bool} (hp : ∀ c, p c.unranked = p c)
    (h : xs.map (·.unranked) = ys.map (·.unranked)) : xs.countP p = ys.countP p := by
  have hcount : ∀ l : List RankedCandidate, (l.map (·.unranked)).countP p = l.countP p := by
    intro l
    rw [List.countP_map]
    exact List.countP_congr fun c _ ↦ by rw [Function.comp_apply, hp]
  rw [← hcount xs, h, hcount]

theorem length_unranked (h : xs.map (·.unranked) = ys.map (·.unranked)) :
    xs.length = ys.length := by
  simpa using congrArg List.length h

theorem WithinCaps.unranked (hxs : WithinCaps e input xs)
    (h : xs.map (·.unranked) = ys.map (·.unranked)) : WithinCaps e input ys := by
  refine ⟨length_unranked h ▸ hxs.length, fun c hc ↦ ?_, fun x ↦ ?_, fun x ↦ ?_, fun x ↦ ?_⟩
  · have hmem : c.unranked ∈ xs.map (·.unranked) := h ▸ List.mem_map_of_mem hc
    obtain ⟨b, hb, heq⟩ := List.mem_map.1 hmem
    have hb' : suspended e b.unranked = false := hxs.unsuspended b hb
    rwa [heq] at hb'
  · rw [← countP_unranked (fun _ ↦ rfl) h]
    exact hxs.perSymbol x
  · rw [← countP_unranked (fun _ ↦ rfl) h]
    exact hxs.perDirection x
  · rw [← countP_unranked (fun _ ↦ rfl) h]
    exact hxs.perExpression x

theorem Barred.unranked {c d : RankedCandidate} {reason : String}
    (hc : Barred e input xs c reason) (h : xs.map (·.unranked) = ys.map (·.unranked))
    (hd : d.unranked = c.unranked) : Barred e input ys d reason := by
  cases hc with
  | suspended hs =>
    have hs' : AlpacaTrading.CandidateRanking.suspended e c.unranked = true := hs
    rw [← hd] at hs'
    exact .suspended hs'
  | maxCandidates hn => exact .maxCandidates (length_unranked h ▸ hn)
  | maxPerSymbol hy =>
    have hfield : c.symbol = d.symbol := (congrArg RankedCandidate.symbol hd).symm
    rw [countP_unranked (fun _ ↦ rfl) h, hfield] at hy
    exact .maxPerSymbol hy
  | maxPerDirection hy =>
    have hfield : c.direction = d.direction := (congrArg RankedCandidate.direction hd).symm
    rw [countP_unranked (fun _ ↦ rfl) h, hfield] at hy
    exact .maxPerDirection hy
  | maxPerExpression hy =>
    have hfield : c.preferredExpression = d.preferredExpression :=
      (congrArg RankedCandidate.preferredExpression hd).symm
    rw [countP_unranked (fun _ ↦ rfl) h, hfield] at hy
    exact .maxPerExpression hy

theorem unranked_withRanks (l : List RankedCandidate) :
    (withRanks l).map (·.unranked) = l.map (·.unranked) := by
  apply List.ext_getElem
  · simp [withRanks]
  · intro n h₁ h₂
    simp [withRanks, RankedCandidate.unranked]

end Unranked

/-! ## The theorem -/

section Theorem

variable {e : Evidence} {input : CandidateRankingInput}

theorem selectsFirst_iff (hcaps : input.PositiveCaps) :
    SelectsFirst e input ↔ Greedy.TakesFirst (verdicts e input) := by
  rw [SelectsFirst, verdicts, Greedy.takesFirst_iff]
  refine exists_congr fun xs ↦ exists_congr fun ys ↦ and_congr_right fun _ ↦ ?_
  simp only [List.nil_append]
  rw [unskipped_iff hcaps]
  exact and_congr_right fun _ ↦ forall₂_congr fun c _ ↦ exists_barred hcaps

/-- All that is right about the ranking in any case. -/
theorem justified_of_distinct (hcaps : input.PositiveCaps)
    (hdistinct : ((rankResearchCandidates e input).decisions.map (·.candidate.rank)).Nodup) :
    JustifiedSelection e input (rankResearchCandidates e input) := by
  have hunranked := unranked_withRanks (selectedOf e input)
  refine ⟨?_, ?_, hdistinct, ?_, ?_, ?_, ?_, ?_, ?_⟩
  · rw [decisions_eq hcaps, length_records, ← List.length_map (f := Prod.fst), map_fst_verdicts,
      (sorted_perm e input).length_eq]
    simp [scored, sourceFromTargets, List.countP_eq_length_filter]
  · rw [decisions_eq hcaps, unranked_records, map_fst_verdicts,
      List.map_congr_left unranked_scored, List.map_id']
    exact sorted_perm e input
  · rw [decisions_eq hcaps]
    exact decided_records
  · rw [decisions_eq hcaps, candidates_eq hcaps, selected_records, withRanks, selectedOf]
    simp only [Nat.zero_add]
  · rw [candidates_eq hcaps]
    have hscore : (withRanks (selectedOf e input)).map (·.score) =
        (selectedOf e input).map (·.score) := by
      apply List.ext_getElem <;> simp [withRanks]
    have hsorted := (sorted_pairwise e input).sublist selectedOf_sublist
    rw [← List.pairwise_map (R := fun x y : ℚ ↦ y ≤ x) (f := RankedCandidate.score)] at hsorted ⊢
    rwa [hscore]
  · rw [candidates_eq hcaps]
    apply List.ext_getElem
    · simp
    · intro n h₁ h₂
      simp [withRanks, Nat.add_comm]
  · rw [candidates_eq hcaps]
    exact (selectedOf_withinCaps hcaps).unranked hunranked.symm
  · intro pre d post hsplit hd
    rw [decisions_eq hcaps] at hsplit
    obtain ⟨xs, c, reason, ys, hvs, rfl, hc, rfl⟩ := skipped_records hsplit hd
    have hv : _ = skipReason e input ([] ++ Greedy.takenOf xs) c := Greedy.verdict_at hvs
    rw [List.nil_append] at hv
    refine (Barred.of_skipReason hcaps hv.symm).unranked ?_ hc
    rw [selected_records]
    have := unranked_withRanks (Greedy.takenOf xs)
    rw [← this, withRanks]
    simp only [Nat.zero_add]

/-- **The ranking is a justified greedy selection** exactly when the candidates it selects come
first: otherwise a skipped candidate and a selected one have the same rank. -/
theorem ranking_justified (hcaps : input.PositiveCaps) :
    JustifiedSelection e input (rankResearchCandidates e input) ↔ SelectsFirst e input := by
  rw [selectsFirst_iff hcaps, ← Greedy.nodup_ranks_iff (k := 0), ← ranks_records,
    ← decisions_eq hcaps]
  exact ⟨fun h ↦ h.distinct, justified_of_distinct hcaps⟩

end Theorem

namespace Specimen

/-- A long share target. -/
def shareTarget (symbol : String) (confidence : ℚ) : TargetSnapshotRow where
  symbol := symbol
  asOf := "2026-01-05T15:00:00.000Z"
  direction := .long
  entryReference := 100
  upsideTarget := 106
  downsideRisk := 97
  stopLoss := some 97
  takeProfit := some 106
  confidence := confidence
  riskProfile := .moderate
  preferredExpression := .shares

/-- Two targets of one symbol and a weaker one of another. -/
def rankingInput (maxPerSymbol : ℕ) : CandidateRankingInput where
  riskProfile := .moderate
  optionsEnabled := false
  targets := [shareTarget "XYZ" (9 / 10), shareTarget "XYZ" (8 / 10), shareTarget "ABC" (7 / 10)]
  maxCandidates := 5
  maxPerSymbol := maxPerSymbol
  maxPerDirection := 5
  maxPerExpression := 5

theorem rankingInput_positiveCaps {n : ℕ} (h : 0 < n) : (rankingInput n).PositiveCaps :=
  ⟨Nat.succ_pos 4, h, Nat.succ_pos 4, Nat.succ_pos 4⟩

end Specimen

/-- Where the caps allow all candidates, the selection is justified. -/
theorem specimen_ranking_justified :
    JustifiedSelection {} (Specimen.rankingInput 5)
      (rankResearchCandidates {} (Specimen.rankingInput 5)) := by
  refine (ranking_justified (Specimen.rankingInput_positiveCaps (by decide))).2
    ⟨sorted {} (Specimen.rankingInput 5), [], (List.append_nil _).symm, ?_, by simp⟩
  have hlength : (sorted {} (Specimen.rankingInput 5)).length ≤ 5 := by decide +kernel
  exact ⟨hlength, by decide +kernel, fun _ ↦ List.countP_le_length.trans hlength,
    fun _ ↦ List.countP_le_length.trans hlength, fun _ ↦ List.countP_le_length.trans hlength⟩

/-- With one candidate a symbol, the skipped second and the selected third have one rank. -/
theorem ranks_collide :
    ¬ ∀ e input, input.PositiveCaps →
      JustifiedSelection e input (rankResearchCandidates e input) := by
  intro h
  have hranks : (rankResearchCandidates {} (Specimen.rankingInput 1)).decisions.map
      (·.candidate.rank) = [1, 2, 2] := by decide +kernel
  have := (h {} _ (Specimen.rankingInput_positiveCaps (n := 1) (by decide))).distinct
  rw [hranks] at this
  exact absurd this (by decide)

end AlpacaTrading.CandidateRanking
