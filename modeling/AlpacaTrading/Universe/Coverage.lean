import AlpacaTrading.Lib.Rotation
import AlpacaTrading.Lib.Run
import AlpacaTrading.Universe.Run

/-!
# Discovery visits everything

The windows of the completed runs rotate over the eligible symbols, so every one of them is scanned
and every one of them is inserted, whatever runs fail in between.

The next window begins where the cursor of the *latest* completed run says, and which run is the
latest one is read off the times of completion, and off the identifiers if two times agree.  So the
runs have to complete in that order.  With a clock that stands still the identifiers, which are
drawn at random, decide, and a run may take up the cursor of a run long before it.
-/

namespace AlpacaTrading

namespace Universe

open Rotation

/-! ## The eligible symbols -/

/-- The symbols of the eligible assets of an inventory. -/
def eligibleSymbols (assets : List Asset) (policy : Policy) : List String :=
  (eligibleAssets (buildAssetMap assets) policy).map (·.symbol)

/-- The assets have different symbols, in normal form and not empty. -/
structure Normalized (assets : List Asset) : Prop where
  nodup : (assets.map (·.symbol)).Nodup
  normal : ∀ asset ∈ assets, normalizeSymbol asset.symbol = asset.symbol
  nonempty : ∀ asset ∈ assets, asset.symbol ≠ ""

theorem Normalized.setAsset {assets : List Asset} {asset : Asset} (h : Normalized assets)
    (hnormal : normalizeSymbol asset.symbol = asset.symbol) (hne : asset.symbol ≠ "") :
    Normalized (setAsset assets asset) := by
  rw [Universe.setAsset]
  split_ifs with hexists
  · have hsymbols : (assets.map fun a ↦ if a.symbol = asset.symbol then asset else a).map
        (·.symbol) = assets.map (·.symbol) := by
      rw [List.map_map]
      refine List.map_congr_left fun a _ ↦ ?_
      by_cases heq : a.symbol = asset.symbol <;> simp [heq]
    refine ⟨hsymbols ▸ h.nodup, fun b hb ↦ ?_, fun b hb ↦ ?_⟩
    · obtain ⟨a, ha, rfl⟩ := List.mem_map.1 hb
      split_ifs
      · exact hnormal
      · exact h.normal a ha
    · obtain ⟨a, ha, rfl⟩ := List.mem_map.1 hb
      split_ifs
      · exact hne
      · exact h.nonempty a ha
  · have hfresh : asset.symbol ∉ assets.map (·.symbol) := fun hmem ↦ by
      obtain ⟨a, ha, heq⟩ := List.mem_map.1 hmem
      exact hexists ⟨a, ha, heq⟩
    refine ⟨?_, fun b hb ↦ ?_, fun b hb ↦ ?_⟩
    · rw [List.map_append, List.map_singleton]
      exact List.nodup_append.2 ⟨h.nodup, List.nodup_singleton _, by
        rintro x hx y hy rfl
        exact hfresh (List.mem_singleton.1 hy ▸ hx)⟩
    · rcases List.mem_append.1 hb with hb | hb
      · exact h.normal b hb
      · exact List.mem_singleton.1 hb ▸ hnormal
    · rcases List.mem_append.1 hb with hb | hb
      · exact h.nonempty b hb
      · exact List.mem_singleton.1 hb ▸ hne

theorem normalized_buildAssetMap (assets : List Asset) : Normalized (buildAssetMap assets) := by
  have hfold : ∀ result : List Asset, Normalized result →
      Normalized (assets.foldl (fun result asset ↦
        let symbol := normalizeSymbol asset.symbol
        if symbol = "" then result else setAsset result { asset with symbol }) result) := by
    induction assets with
    | nil => exact fun _ h ↦ h
    | cons asset rest ih =>
      intro result h
      rw [List.foldl_cons]
      refine ih _ ?_
      dsimp only
      split_ifs with hempty
      · exact h
      · exact h.setAsset (normalizeSymbol_normalizeSymbol _) hempty
  exact hfold [] ⟨List.nodup_nil, nofun, nofun⟩

theorem mem_eligibleAssets {assets : List Asset} {policy : Policy} {asset : Asset}
    (h : asset ∈ eligibleAssets assets policy) : asset ∈ assets :=
  List.mem_of_mem_filter ((List.mem_insertionSort _).1 h)

theorem eligibleSymbols_pairwise (assets : List Asset) (policy : Policy) :
    (eligibleSymbols assets policy).Pairwise (· < ·) := by
  have hsorted : (eligibleSymbols assets policy).Pairwise (· ≤ ·) := by
    rw [eligibleSymbols, List.pairwise_map, eligibleAssets]
    have : Std.Total fun left right : Asset ↦ left.symbol ≤ right.symbol :=
      ⟨fun a b ↦ le_total a.symbol b.symbol⟩
    have : IsTrans Asset fun left right ↦ left.symbol ≤ right.symbol :=
      ⟨fun _ _ _ ↦ le_trans⟩
    exact List.pairwise_insertionSort _ _
  have hnodup : (eligibleSymbols assets policy).Nodup := by
    have hperm := (List.perm_insertionSort (fun left right : Asset ↦ left.symbol ≤ right.symbol)
      ((buildAssetMap assets).filter fun asset ↦ assetIssue (some asset) policy = none)).map
        (·.symbol)
    exact hperm.nodup_iff.2 ((normalized_buildAssetMap assets).nodup.sublist
      (List.filter_sublist.map _))
  exact hsorted.imp₂ (fun a b hle hne ↦ lt_of_le_of_ne hle hne) hnodup

theorem eligibleSymbols_normal {assets : List Asset} {policy : Policy} {symbol : String}
    (h : symbol ∈ eligibleSymbols assets policy) :
    normalizeSymbol symbol = symbol ∧ symbol ≠ "" := by
  obtain ⟨asset, hasset, rfl⟩ := List.mem_map.1 h
  have hnormalized := normalized_buildAssetMap assets
  exact ⟨hnormalized.normal _ (mem_eligibleAssets hasset),
    hnormalized.nonempty _ (mem_eligibleAssets hasset)⟩

/-! ## The windows of the runs -/

section Windows

variable {input : RunInput} {assets : List Asset} {cursorStart : Option String}
  {existing : List String}

theorem passed_empty {l : List String} (h : ∀ symbol ∈ l, symbol ≠ "") :
    passed l (some "") = 0 := by
  refine List.countP_eq_zero.2 fun symbol hsymbol ↦ ?_
  have hlt : "" < symbol := by
    rw [String.lt_iff_toList_lt]
    rcases hlist : symbol.toList with - | ⟨c, rest⟩
    · exact absurd (String.toList_eq_nil_iff.1 hlist) (h symbol hsymbol)
    · exact List.nil_lt_cons c rest
  simpa using hlt

theorem map_filter_eq_drop (assets : List Asset) (policy : Policy) (cursor : String) :
    ((eligibleAssets (buildAssetMap assets) policy).filter fun asset ↦
      cursor < asset.symbol).map (·.symbol) =
    (eligibleSymbols assets policy).drop (passed (eligibleSymbols assets policy) (some cursor)) := by
  rw [← filter_lt_eq_drop (eligibleSymbols_pairwise assets policy), eligibleSymbols,
    List.filter_map]
  rfl

/-- The scanned symbols are the window behind the cursor. -/
theorem scanned_eq_window :
    (discover input assets cursorStart existing).scanned.map (·.symbol) =
      window (eligibleSymbols assets input.policy) input.policy.discoveryScanLimit
        cursorStart := by
  have hnone : ∀ cursor, passed (eligibleSymbols assets input.policy) cursor = 0 →
      window (eligibleSymbols assets input.policy) input.policy.discoveryScanLimit cursor =
        (eligibleSymbols assets input.policy).take input.policy.discoveryScanLimit := by
    intro cursor hpassed
    rw [window, place, hpassed, ite_self, List.drop_zero]
  rw [discover, selectDiscoveryAssets]
  dsimp only
  rw [List.map_take]
  rcases hcursor : cursorStart.filter (· ≠ "") with - | cursor
  · -- without a cursor, and with an empty one, the window is at the front
    dsimp only
    rw [ite_self, hnone]
    · rfl
    · rcases cursorStart with - | cursor
      · exact passed_none
      · obtain rfl : cursor = "" := by simpa using hcursor
        exact passed_empty fun symbol h ↦ (eligibleSymbols_normal h).2
  · obtain ⟨rfl, -⟩ := Option.filter_eq_some_iff.1 hcursor
    have hdrop := map_filter_eq_drop assets input.policy cursor
    dsimp only
    rw [window, place]
    split_ifs with hafter hpassed hpassed
    · rw [hdrop]
    · refine absurd ?_ hafter
      rw [← List.map_eq_nil_iff, hdrop, List.drop_eq_nil_iff]
      exact not_lt.1 hpassed
    · rw [not_not, ← List.map_eq_nil_iff, hdrop, List.drop_eq_nil_iff] at hafter
      exact absurd hpassed (not_lt.2 hafter)
    · rw [List.drop_zero]
      rfl

/-- The discovered symbols are the first new ones of the window. -/
theorem discovered_eq :
    (discover input assets cursorStart existing).discovered.map (·.symbol) =
      ((window (eligibleSymbols assets input.policy) input.policy.discoveryScanLimit
        cursorStart).filter (· ∉ existing)).take input.policy.discoveryMaxNewSymbols := by
  have hscanned : (discover input assets cursorStart existing).scanned.map (·.symbol) = _ :=
    scanned_eq_window
  rw [← hscanned, List.filter_map, ← List.map_take]
  rfl

/-- The cursor of a run is the last element of its window. -/
theorem cursorEnd_eq : (discover input assets cursorStart existing).cursorEnd =
    (window (eligibleSymbols assets input.policy) input.policy.discoveryScanLimit
      cursorStart).getLast?.or cursorStart := by
  have hscanned : (discover input assets cursorStart existing).scanned.map (·.symbol) = _ :=
    scanned_eq_window
  rw [← hscanned, List.getLast?_map]
  rfl

end Windows

/-! ## The cursor -/

/-- The latest of some runs. -/
def latestOf (runs : List RunRow) : Option String :=
  (runs.insertionSort fun a b ↦ b.completion ≤ a.completion).head?.bind (·.discoveryCursorEnd)

theorem latestCursor_eq (db : UniverseDb) : latestCursor db = latestOf (cursorRuns db) := rfl

/-- A run that completes after the others is the latest one. -/
theorem latestOf_append {runs : List RunRow} {run : RunRow}
    (h : ∀ other ∈ runs, other.completion < run.completion) :
    latestOf (runs ++ [run]) = run.discoveryCursorEnd := by
  have : Std.Total fun a b : RunRow ↦ b.completion ≤ a.completion :=
    ⟨fun a b ↦ le_total b.completion a.completion⟩
  have : IsTrans RunRow fun a b ↦ b.completion ≤ a.completion :=
    ⟨fun _ _ _ h h' ↦ h'.trans h⟩
  have hsorted := List.pairwise_insertionSort (fun a b : RunRow ↦ b.completion ≤ a.completion)
    (runs ++ [run])
  have hperm := List.perm_insertionSort (fun a b : RunRow ↦ b.completion ≤ a.completion)
    (runs ++ [run])
  rw [latestOf]
  rcases hlist : (runs ++ [run]).insertionSort fun a b ↦ b.completion ≤ a.completion with
    - | ⟨first, rest⟩
  · rw [hlist] at hperm
    exact absurd hperm.length_eq (by simp)
  · rw [hlist] at hsorted hperm
    have hrun : run ∈ first :: rest := hperm.mem_iff.2 (by simp)
    have hfirst : first ∈ runs ++ [run] := hperm.mem_iff.1 List.mem_cons_self
    have heq : first = run := by
      rcases List.mem_append.1 hfirst with hmem | hmem
      · -- an earlier run cannot come first
        rcases List.mem_cons.1 hrun with rfl | hlater
        · rfl
        · exact absurd ((List.pairwise_cons.1 hsorted).1 run hlater) (not_le.2 (h first hmem))
      · exact List.mem_singleton.1 hmem
    rw [hlist, List.head?_cons, Option.bind_some, heq]

/-! ## Many runs -/

/-- The tables after some runs, one after the other. -/
def runAll (db : UniverseDb) (inputs : List RunInput) : UniverseDb :=
  inputs.foldl (fun db input ↦ (runAutonomousUniverseLifecycle input db).2) db

/-- What a run scans. -/
def scannedBy (input : RunInput) (db : UniverseDb) : List String :=
  ((input.assets.map fun assets ↦ (discover input assets (latestCursor db) []).scanned).getD
    []).map (·.symbol)

/-- What the completed ones among some runs scan. -/
def completedScans (db : UniverseDb) : List RunInput → List (List String)
  | [] => []
  | input :: rest =>
    if (runAutonomousUniverseLifecycle input db).1 then
      scannedBy input db :: completedScans (runAutonomousUniverseLifecycle input db).2 rest
    else completedScans (runAutonomousUniverseLifecycle input db).2 rest

/-- If the run completes, it does so after all that have completed before. -/
def CompletesLast (input : RunInput) (db : UniverseDb) : Prop :=
  (runAutonomousUniverseLifecycle input db).1 = true →
    ∀ run ∈ cursorRuns db, run.completion < toLex (↑input.completedAt, input.runId)

instance (input : RunInput) (db : UniverseDb) : Decidable (CompletesLast input db) :=
  inferInstanceAs (Decidable (_ → ∀ run ∈ _, _))

/-- The completed ones among some runs complete in their order, and after all that have completed
before. -/
def Chronological (db : UniverseDb) (inputs : List RunInput) : Prop :=
  Guarded (fun input db ↦ some (runAutonomousUniverseLifecycle input db).2)
    (fun db input ↦ CompletesLast input db) db inputs

theorem Chronological.cons {db : UniverseDb} {input : RunInput} {rest : List RunInput}
    (h : Chronological db (input :: rest)) : CompletesLast input db ∧
      Chronological (runAutonomousUniverseLifecycle input db).2 rest := ⟨h.1, h.2 _ rfl⟩

/-- The runs see one inventory and have one policy. -/
def Fixed (assets : List Asset) (policy : Policy) (inputs : List RunInput) : Prop :=
  ∀ input ∈ inputs, (∀ listed ∈ input.assets, listed = assets) ∧ input.policy = policy

section Steps

variable {assets : List Asset} {policy : Policy} {input : RunInput} {db db' : UniverseDb}

/-- The window of the next completed run. -/
def nextWindow (assets : List Asset) (policy : Policy) (db : UniverseDb) : List String :=
  window (eligibleSymbols assets policy) policy.discoveryScanLimit (latestCursor db)

/-- The place where it starts. -/
def startOf (assets : List Asset) (policy : Policy) (db : UniverseDb) : ℕ :=
  place (eligibleSymbols assets policy) (latestCursor db)

theorem latestCursor_failed (h : runAutonomousUniverseLifecycle input db = (false, db')) :
    latestCursor db' = latestCursor db := by
  rw [latestCursor_eq, latestCursor_eq, (run_failed h).2]

/-- **A completed run** scans its window, inserts the first new symbols of it, and leaves the next
run the next window. -/
theorem run_window (hassets : ∀ listed ∈ input.assets, listed = assets)
    (hpolicy : input.policy = policy) (hL : 0 < policy.discoveryScanLimit)
    (hne : eligibleSymbols assets policy ≠ []) (hlast : CompletesLast input db)
    (h : runAutonomousUniverseLifecycle input db = (true, db')) :
    scannedBy input db = nextWindow assets policy db ∧
      startOf assets policy db' = next (eligibleSymbols assets policy).length
        policy.discoveryScanLimit (startOf assets policy db) ∧
      ∃ existing, symbolsOf db ⊆ existing ∧ existing ⊆ symbolsOf db' ∧
        ∀ symbol ∈ ((nextWindow assets policy db).filter (· ∉ existing)).take
          policy.discoveryMaxNewSymbols, symbol ∈ symbolsOf db' := by
  obtain ⟨listed, existing, progress, hdiscovered, hcursor, hruns⟩ := run_completed h
  obtain rfl := hassets listed hdiscovered.listed
  subst hpolicy
  refine ⟨?_, ?_, existing, hdiscovered.before, hdiscovered.after, fun symbol hsymbol ↦ ?_⟩
  · rw [scannedBy, hdiscovered.listed]
    exact scanned_eq_window
  · obtain ⟨c, hc, hplace⟩ : ∃ c, (nextWindow listed input.policy db).getLast? = some c ∧ _ :=
      place_getLast? (eligibleSymbols_pairwise listed input.policy) hne hL
    rw [nextWindow] at hc
    have hcursor : progress.cursorEnd = some c := by rw [hcursor, cursorEnd_eq, hc, Option.some_or]
    have hlatest : latestCursor db' = some c := by
      rw [latestCursor_eq, hruns (by simp [hcursor]), latestOf_append]
      · exact hcursor
      · exact hlast (congrArg Prod.fst h)
    rw [startOf, hlatest, hplace, startOf]
  · obtain ⟨hnormal, hnonempty⟩ := eligibleSymbols_normal
      (mem_of_mem_window (List.mem_of_mem_filter (List.mem_of_mem_take hsymbol)))
    rw [nextWindow, ← discovered_eq] at hsymbol
    obtain ⟨asset, hasset, rfl⟩ := List.mem_map.1 hsymbol
    have hadmitted := hdiscovered.admitted asset hasset
    rw [Admitted, hnormal] at hadmitted
    exact hadmitted hnonempty

theorem run_symbols (input : RunInput) (db : UniverseDb) :
    symbolsOf db ⊆ symbolsOf (runAutonomousUniverseLifecycle input db).2 := by
  rcases h : runAutonomousUniverseLifecycle input db with ⟨- | -, db'⟩
  · exact (run_failed h).1
  · obtain ⟨_, _, _, hdiscovered, -⟩ := run_completed h
    exact fun _ hs ↦ hdiscovered.after (hdiscovered.before hs)

end Steps

/-! ## Coverage -/

section Coverage

variable {assets : List Asset} {policy : Policy} {input : RunInput} {db db' : UniverseDb}

theorem symbolsOf_runAll (db : UniverseDb) (inputs : List RunInput) :
    symbolsOf db ⊆ symbolsOf (runAll db inputs) := by
  induction inputs generalizing db with
  | nil => exact fun _ h ↦ h
  | cons input rest ih =>
    exact fun _ hs ↦ ih _ (run_symbols input db hs)

/-- Every place is scanned after as many completed runs as there are turns before it. -/
theorem scanned_of_turns (hL : 0 < policy.discoveryScanLimit) {q : ℕ}
    (hq : q < (eligibleSymbols assets policy).length) {db : UniverseDb} {inputs : List RunInput}
    (hfixed : Fixed assets policy inputs) (hchronological : Chronological db inputs)
    (hturns : turns (eligibleSymbols assets policy).length policy.discoveryScanLimit
      (startOf assets policy db) q < (completedScans db inputs).length) :
    ∃ scan ∈ completedScans db inputs, (eligibleSymbols assets policy)[q] ∈ scan := by
  have hne : eligibleSymbols assets policy ≠ [] := List.length_pos_iff.1 (Nat.zero_lt_of_lt hq)
  induction inputs generalizing db with
  | nil => exact absurd hturns (Nat.not_lt_zero _)
  | cons input rest ih =>
    obtain ⟨hlast, hrest⟩ := hchronological.cons
    obtain ⟨⟨hassets, hpolicy⟩, hfixed⟩ := List.forall_mem_cons.1 hfixed
    rw [completedScans] at hturns ⊢
    rcases hrun : runAutonomousUniverseLifecycle input db with ⟨- | -, db'⟩
    · -- a failed run leaves the window where it is
      rw [hrun] at hrest hturns
      rw [if_neg (by simp)] at hturns ⊢
      refine ih hfixed hrest ?_
      change turns _ _ (startOf assets policy db') q < _
      rwa [startOf, latestCursor_failed hrun]
    · obtain ⟨hscanned, hstart, -⟩ := run_window hassets hpolicy hL hne hlast hrun
      rw [hrun] at hrest hturns
      rw [if_pos (by simp)] at hturns ⊢
      change Chronological db' rest at hrest
      by_cases hwindow : startOf assets policy db ≤ q ∧
          q < startOf assets policy db + policy.discoveryScanLimit
      · refine ⟨_, List.mem_cons_self, ?_⟩
        rw [hscanned]
        exact getElem_mem_window hq hwindow
      · have hnext := turns_next hL (place_lt (latestCursor db) hne) hq hwindow
        rw [← startOf, ← hstart] at hnext
        rw [List.length_cons] at hturns
        change _ < (completedScans db' rest).length + 1 at hturns
        obtain ⟨scan, hscan, hmem⟩ := ih hfixed hrest (by omega)
        exact ⟨scan, List.mem_cons_of_mem _ hscan, hmem⟩

/-- The places of the window of a place, in a round from the front, up to the place itself. -/
def blockOf (assets : List Asset) (policy : Policy) (q : ℕ) : List String :=
  ((eligibleSymbols assets policy).drop
    (policy.discoveryScanLimit * (q / policy.discoveryScanLimit))).take
      (q % policy.discoveryScanLimit + 1)

/-- How many of them are still to be inserted. -/
def waiting (assets : List Asset) (policy : Policy) (q : ℕ) (existing : List String) : ℕ :=
  ((blockOf assets policy q).filter (· ∉ existing)).length

theorem waiting_mono {existing existing' : List String} (h : existing ⊆ existing') (q : ℕ) :
    waiting assets policy q existing' ≤ waiting assets policy q existing := by
  refine List.Sublist.length_le (List.monotone_filter_right _ fun symbol hsymbol ↦ ?_)
  simp only [decide_eq_true_eq] at hsymbol ⊢
  exact fun hmem ↦ hsymbol (h hmem)

theorem getElem_mem_blockOf {q : ℕ} (hq : q < (eligibleSymbols assets policy).length) :
    (eligibleSymbols assets policy)[q] ∈ blockOf assets policy q := by
  have hdiv := Nat.div_add_mod q policy.discoveryScanLimit
  rw [blockOf, List.mem_take_iff_getElem]
  refine ⟨q % policy.discoveryScanLimit, by rw [List.length_drop]; omega, ?_⟩
  rw [List.getElem_drop]
  congr 1

/-- The window of a run that starts where the window of a place does. -/
theorem nextWindow_eq (hL : 0 < policy.discoveryScanLimit) {q : ℕ} {db : UniverseDb}
    (h : startOf assets policy db =
      policy.discoveryScanLimit * (q / policy.discoveryScanLimit)) :
    ∃ rest, nextWindow assets policy db = blockOf assets policy q ++ rest := by
  have hmod : q % policy.discoveryScanLimit + 1 ≤ policy.discoveryScanLimit := Nat.mod_lt q hL
  refine ⟨(nextWindow assets policy db).drop (q % policy.discoveryScanLimit + 1), ?_⟩
  have hblock : blockOf assets policy q =
      (nextWindow assets policy db).take (q % policy.discoveryScanLimit + 1) := by
    rw [nextWindow, window, ← startOf, h, List.take_take, min_eq_left hmod]
    rfl
  rw [hblock, List.take_append_drop]

/-- **One run at the window of a place** inserts it, or the first ones that wait before it. -/
theorem run_serves (hassets : ∀ listed ∈ input.assets, listed = assets)
    (hpolicy : input.policy = policy) (hL : 0 < policy.discoveryScanLimit) {q : ℕ}
    (hq : q < (eligibleSymbols assets policy).length) (hlast : CompletesLast input db)
    (hstart : startOf assets policy db =
      policy.discoveryScanLimit * (q / policy.discoveryScanLimit))
    (h : runAutonomousUniverseLifecycle input db = (true, db')) :
    (eligibleSymbols assets policy)[q] ∈ symbolsOf db' ∨
      policy.discoveryMaxNewSymbols < waiting assets policy q (symbolsOf db) ∧
        waiting assets policy q (symbolsOf db') ≤
          waiting assets policy q (symbolsOf db) - policy.discoveryMaxNewSymbols := by
  have hne : eligibleSymbols assets policy ≠ [] := List.length_pos_iff.1 (Nat.zero_lt_of_lt hq)
  obtain ⟨-, -, existing, hbefore, hafter, hadmitted⟩ :=
    run_window hassets hpolicy hL hne hlast h
  obtain ⟨rest, hwindow⟩ := nextWindow_eq hL hstart
  rw [hwindow] at hadmitted
  have hmono : waiting assets policy q existing ≤ waiting assets policy q (symbolsOf db) :=
    waiting_mono hbefore q
  have himp : ∀ symbol ∈ blockOf assets policy q, decide (symbol ∉ symbolsOf db') = true →
      decide (symbol ∉ existing) = true := fun symbol _ hsymbol ↦ by
    simp only [decide_eq_true_eq] at hsymbol ⊢
    exact fun hmem ↦ hsymbol (hafter hmem)
  have hserved : ∀ symbol ∈ ((blockOf assets policy q ++ rest).filter (· ∉ existing)).take
      policy.discoveryMaxNewSymbols, decide (symbol ∉ symbolsOf db') = false :=
    fun symbol hsymbol ↦ by simpa using hadmitted symbol hsymbol
  rcases served himp hserved with hall | ⟨hlt, hle⟩
  · exact .inl (by simpa using hall _ (getElem_mem_blockOf hq))
  · exact .inr ⟨hlt.trans_le hmono, hle.trans (Nat.sub_le_sub_right hmono _)⟩

/-- Every place is inserted after as many completed runs as suffice for the visits it needs. -/
theorem inserted_of_rounds (hL : 0 < policy.discoveryScanLimit)
    (hM : 0 < policy.discoveryMaxNewSymbols) {q : ℕ}
    (hq : q < (eligibleSymbols assets policy).length) {db : UniverseDb} {inputs : List RunInput}
    (hfixed : Fixed assets policy inputs) (hchronological : Chronological db inputs)
    (hrounds : rounds (eligibleSymbols assets policy).length policy.discoveryScanLimit
      (startOf assets policy db) q
      (waiting assets policy q (symbolsOf db) ⌈/⌉ policy.discoveryMaxNewSymbols) ≤
        (completedScans db inputs).length) :
    (eligibleSymbols assets policy)[q] ∈ symbolsOf (runAll db inputs) := by
  have hne : eligibleSymbols assets policy ≠ [] := List.length_pos_iff.1 (Nat.zero_lt_of_lt hq)
  induction inputs generalizing db with
  | nil => exact absurd hrounds (not_le.2 (Nat.succ_pos _))
  | cons input rest ih =>
    obtain ⟨hlast, hrest⟩ := hchronological.cons
    obtain ⟨⟨hassets, hpolicy⟩, hfixed⟩ := List.forall_mem_cons.1 hfixed
    have hsymbols := run_symbols input db
    have hwaiting : waiting assets policy q _ ≤ _ := waiting_mono hsymbols q
    have hceil := ceilDiv_le_ceilDiv (L := policy.discoveryMaxNewSymbols) hwaiting
    rw [completedScans] at hrounds
    rcases hrun : runAutonomousUniverseLifecycle input db with ⟨- | -, db'⟩
    · -- a failed run leaves the window where it is, and no more symbols wait
      rw [hrun] at hrest hrounds hceil
      rw [if_neg (by simp)] at hrounds
      change _ ∈ symbolsOf (runAll (runAutonomousUniverseLifecycle input db).2 rest)
      rw [hrun]
      refine ih hfixed hrest (le_trans ?_ hrounds)
      change rounds _ _ (startOf assets policy db') q _ ≤ _
      rw [startOf, latestCursor_failed hrun]
      exact rounds_mono hceil
    · obtain ⟨-, hstart, -⟩ := run_window hassets hpolicy hL hne hlast hrun
      rw [hrun] at hrest hrounds hceil
      rw [if_pos (by simp)] at hrounds
      change rounds _ _ _ _ _ ≤ (completedScans db' rest).length + 1 at hrounds
      change Chronological db' rest at hrest
      change waiting assets policy q (symbolsOf db') ⌈/⌉ _ ≤ _ at hceil
      change _ ∈ symbolsOf (runAll (runAutonomousUniverseLifecycle input db).2 rest)
      rw [hrun]
      change _ ∈ symbolsOf (runAll db' rest)
      have hplace := place_lt (latestCursor db) hne
      by_cases hwindow : startOf assets policy db =
          policy.discoveryScanLimit * (q / policy.discoveryScanLimit)
      · rcases run_serves hassets hpolicy hL hq hlast hwindow hrun with hin | ⟨hmany, hfewer⟩
        · exact symbolsOf_runAll db' rest hin
        · -- fewer symbols wait, so one visit less is needed
          have hvisits := ceilDiv_eq_succ hM hmany
          have hpos := div_lt_ceilDiv hM (Nat.sub_pos_of_lt hmany)
          rw [Nat.zero_div] at hpos
          have hnext := rounds_next_of_window hL hq hwindow
            (r := waiting assets policy q (symbolsOf db) ⌈/⌉ policy.discoveryMaxNewSymbols)
            (by omega)
          have hle := ceilDiv_le_ceilDiv (L := policy.discoveryMaxNewSymbols) hfewer
          refine ih hfixed hrest ?_
          rw [hstart]
          have hvisits' : waiting assets policy q (symbolsOf db') ⌈/⌉
              policy.discoveryMaxNewSymbols ≤ waiting assets policy q (symbolsOf db) ⌈/⌉
                policy.discoveryMaxNewSymbols - 1 := by omega
          exact (rounds_mono hvisits').trans (by omega)
      · have hnext := rounds_next (r := waiting assets policy q (symbolsOf db) ⌈/⌉
          policy.discoveryMaxNewSymbols) hL hplace hq hwindow
        refine ih hfixed hrest ?_
        rw [hstart]
        rw [← startOf] at hnext
        exact (rounds_mono hceil).trans (by omega)

/-- A window has no more places than it is long. -/
theorem waiting_le (hL : 0 < policy.discoveryScanLimit) (q : ℕ) (existing : List String) :
    waiting assets policy q existing ≤ policy.discoveryScanLimit := by
  have hblock : (blockOf assets policy q).length ≤ q % policy.discoveryScanLimit + 1 :=
    List.length_take_le _ _
  exact (List.length_filter_le _ _).trans (hblock.trans (Nat.mod_lt q hL))

/-- **Discovery visits everything**, in whatever state it is taken up, if the completed runs complete
in their order. -/
theorem discovery_visits_everything {inputs : List RunInput} (hL : 1 ≤ policy.discoveryScanLimit)
    (hM : 1 ≤ policy.discoveryMaxNewSymbols) (hfixed : Fixed assets policy inputs)
    (hchronological : Chronological db inputs) :
    ((eligibleSymbols assets policy).length ⌈/⌉ policy.discoveryScanLimit + 1 ≤
        (completedScans db inputs).length →
      ∀ symbol ∈ eligibleSymbols assets policy, ∃ scan ∈ completedScans db inputs,
        symbol ∈ scan) ∧
    ((policy.discoveryScanLimit ⌈/⌉ policy.discoveryMaxNewSymbols) *
          ((eligibleSymbols assets policy).length ⌈/⌉ policy.discoveryScanLimit) +
        (eligibleSymbols assets policy).length ⌈/⌉ policy.discoveryScanLimit + 1 ≤
        (completedScans db inputs).length →
      ∀ symbol ∈ eligibleSymbols assets policy, symbol ∈ symbolsOf (runAll db inputs)) := by
  constructor
  · intro hcount symbol hsymbol
    obtain ⟨q, hq, rfl⟩ := List.getElem_of_mem hsymbol
    have hstart := place_lt (latestCursor db) (List.ne_nil_of_mem hsymbol)
    have hturns := turns_le hL hstart hq
    exact scanned_of_turns hL hq hfixed hchronological (by rw [startOf]; omega)
  · intro hcount symbol hsymbol
    obtain ⟨q, hq, rfl⟩ := List.getElem_of_mem hsymbol
    have hstart := place_lt (latestCursor db) (List.ne_nil_of_mem hsymbol)
    refine inserted_of_rounds hL hM hq hfixed hchronological ?_
    -- at least one visit is counted, so that the measure is bounded by the rounds
    have hvisits : waiting assets policy q (symbolsOf db) ⌈/⌉ policy.discoveryMaxNewSymbols ≤
        policy.discoveryScanLimit ⌈/⌉ policy.discoveryMaxNewSymbols :=
      ceilDiv_le_ceilDiv (waiting_le hL q _)
    have hpos : 0 < policy.discoveryScanLimit ⌈/⌉ policy.discoveryMaxNewSymbols := by
      have h := div_lt_ceilDiv hM hL
      rwa [Nat.zero_div] at h
    have hle : rounds _ _ (startOf assets policy db) q _ ≤ _ := rounds_le hL hq hpos
    exact (rounds_mono hvisits).trans (by omega)

end Coverage

namespace Specimen

/-- An asset that may be discovered. -/
def listed (symbol : String) : Asset where
  symbol
  assetClass := some "us_equity"
  exchange := some "NASDAQ"
  status := some "active"
  tradable := some true

/-- One asset a run, and one new one. -/
def policy : Policy where
  discoveryScanLimit := 1
  discoveryMaxNewSymbols := 1
  assessmentMaxSymbols := 80
  approvedExchanges := ["NASDAQ"]
  requireOptions := false
  maximumDataFailures := 3
  maximumExecutionFailures := 3
  maximumUnderperformingOutcomes := 3
  requiredResearchSelections := 1
  suspensionRetirementDays := 30

/-- A run over some assets. -/
def runOf (assets : List Asset) (runId : String) (completedAt : Time) : RunInput where
  runId
  startedAt := completedAt
  assessedAt _ := completedAt
  completedAt
  seedUniverse := []
  assets := some assets
  policy
  evidence _ :=
    { qualifiesForResearch := false, dataFailures := 0, liquidityFailures := 0,
      executionFailures := 0, underperformingOutcomes := 0, activePositions := 0,
      researchSelections := 0 }

/-- No symbols and no runs. -/
def emptyDb : UniverseDb := ⟨.empty, [], .empty⟩

/-- Four runs of a clock that stands still. -/
def standing : List RunInput :=
  ["d", "c", "b", "a"].map fun runId ↦
    runOf [listed "AAA", listed "BBB", listed "CCC"] runId 1784059200000

/-- Five runs of a clock that goes on. -/
def going : List RunInput :=
  [1, 2, 3, 4, 5].map fun second ↦ runOf [listed "AAA", listed "BBB"] (toString second) second

end Specimen

open Specimen in
/-- With a clock that stands still, every later run takes up the cursor of the first one. -/
theorem scanned_with_standing_clock :
    Fixed [listed "AAA", listed "BBB", listed "CCC"] policy standing ∧
      (eligibleSymbols [listed "AAA", listed "BBB", listed "CCC"] policy).length ⌈/⌉
        policy.discoveryScanLimit + 1 ≤ (completedScans emptyDb standing).length ∧
      "CCC" ∈ eligibleSymbols [listed "AAA", listed "BBB", listed "CCC"] policy ∧
      ∀ scan ∈ completedScans emptyDb standing, "CCC" ∉ scan := by
  have hscans : completedScans emptyDb standing = [["AAA"], ["BBB"], ["BBB"], ["BBB"]] := by
    decide +kernel
  have hsymbols : eligibleSymbols [listed "AAA", listed "BBB", listed "CCC"] policy =
      ["AAA", "BBB", "CCC"] := by decide +kernel
  refine ⟨?_, ?_, ?_, ?_⟩
  · intro input hinput
    obtain ⟨runId, -, rfl⟩ := List.mem_map.1 hinput
    exact ⟨fun listed h ↦ (Option.some.inj h).symm, rfl⟩
  · rw [hscans, hsymbols, Nat.ceilDiv_eq_add_pred_div]
    decide
  · rw [hsymbols]
    decide
  · rw [hscans]
    decide

open Specimen in
theorem both_discovered :
    (∃ scan ∈ completedScans emptyDb going, "BBB" ∈ scan) ∧
      "BBB" ∈ symbolsOf (runAll emptyDb going) := by
  have hscans : completedScans emptyDb going =
      [["AAA"], ["BBB"], ["AAA"], ["BBB"], ["AAA"]] := by decide +kernel
  have hsymbols : eligibleSymbols [listed "AAA", listed "BBB"] policy = ["AAA", "BBB"] := by
    decide +kernel
  have hfixed : Fixed [listed "AAA", listed "BBB"] policy going := by
    intro input hinput
    obtain ⟨second, -, rfl⟩ := List.mem_map.1 hinput
    exact ⟨fun listed h ↦ (Option.some.inj h).symm, rfl⟩
  have hchronological : Chronological emptyDb going := by
    rw [Chronological]
    decide +kernel
  obtain ⟨hscanned, hinserted⟩ := discovery_visits_everything
    (show 1 ≤ policy.discoveryScanLimit from le_rfl)
    (show 1 ≤ policy.discoveryMaxNewSymbols from le_rfl) hfixed hchronological
  rw [hsymbols, hscans, Nat.ceilDiv_eq_add_pred_div] at hscanned
  rw [hsymbols, hscans, Nat.ceilDiv_eq_add_pred_div, Nat.ceilDiv_eq_add_pred_div] at hinserted
  rw [hscans]
  exact ⟨hscanned (by decide) "BBB" (by decide), hinserted (by decide) "BBB" (by decide)⟩

end Universe

end AlpacaTrading
