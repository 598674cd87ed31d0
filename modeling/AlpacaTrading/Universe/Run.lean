import AlpacaTrading.Universe.Lifecycle

/-!
# What a run does to the tables

A run of the lifecycle adds symbols and never takes one away, whether it completes or fails, and it
leaves its cursor behind exactly when it completes.

`Grows` is what holds between the tables before and after any part of a run; `runBody_ok` says what
is known of one that came to its end.
-/

namespace AlpacaTrading

namespace Universe

/-! ## Rules -/

/-- The symbols of the universe. -/
def symbolsOf (db : UniverseDb) : List String := db.symbols.rows.map (·.symbol)

/-- The second tables have the symbols of the first ones, and the same runs. -/
structure Grows (db db' : UniverseDb) : Prop where
  runs : db'.runs = db.runs
  symbols : symbolsOf db ⊆ symbolsOf db'

theorem Grows.refl (db : UniverseDb) : Grows db db := ⟨rfl, fun _ h ↦ h⟩

theorem Grows.trans {db₁ db₂ db₃ : UniverseDb} (h : Grows db₁ db₂) (h' : Grows db₂ db₃) :
    Grows db₁ db₃ := ⟨h'.runs.trans h.runs, fun _ hs ↦ h'.symbols (h.symbols hs)⟩

namespace Lifecycle

variable {α β : Type} {p : Lifecycle α} {f : α → Lifecycle β} {s t : Process} {b : β}

theorem run_bind (p : Lifecycle α) (f : α → Lifecycle β) (s : Process) :
    (p >>= f).run s =
      match p.run s with
      | (.ok a, s') => (f a).run s'
      | (.error e, s') => (.error e, s') := by
  have hbind : (p >>= f).run s =
      (ExceptT.bindCont f (p.run s).1 : StateM Process (Except Unit β)) (p.run s).2 := rfl
  rw [hbind]
  rcases p.run s with ⟨e | a, s'⟩ <;> rfl

theorem bind_ok : (p >>= f).run s = (.ok b, t) ↔
    ∃ a s', p.run s = (.ok a, s') ∧ (f a).run s' = (.ok b, t) := by
  rw [run_bind]
  rcases p.run s with ⟨e | a, s'⟩
  · constructor
    · exact fun h ↦ nomatch (Prod.mk.inj h).1
    · exact fun ⟨_, _, h, _⟩ ↦ nomatch (Prod.mk.inj h).1
  · constructor
    · exact fun h ↦ ⟨a, s', rfl, h⟩
    · rintro ⟨_, _, h, hf⟩
      obtain ⟨ha, rfl⟩ := Prod.mk.inj h
      obtain rfl := Except.ok.inj ha
      exact hf

/-- A sequence stops at the first error. -/
theorem bind_run {x : Except Unit β} (h : (p >>= f).run s = (x, t)) :
    (∃ e, p.run s = (.error e, t) ∧ x = .error e) ∨
      ∃ a s', p.run s = (.ok a, s') ∧ (f a).run s' = (x, t) := by
  rw [run_bind] at h
  rcases hp : p.run s with ⟨e | a, s'⟩
  · rw [hp] at h
    obtain ⟨rfl, rfl⟩ := Prod.mk.inj h
    exact .inl ⟨e, rfl, rfl⟩
  · rw [hp] at h
    exact .inr ⟨a, s', rfl, h⟩

/-- Whatever becomes of it, the computation only adds. -/
def OnlyAdds (p : Lifecycle α) : Prop := ∀ s, Grows s.db (p.run s).2.db

theorem onlyAdds_pure (a : α) : OnlyAdds (pure a) := fun s ↦ .refl s.db

theorem onlyAdds_throw : OnlyAdds (throw () : Lifecycle α) := fun s ↦ .refl s.db

theorem onlyAdds_get : OnlyAdds (get : Lifecycle Process) := fun s ↦ .refl s.db

theorem onlyAdds_note (f : Progress → Progress) : OnlyAdds (note f) := fun s ↦ .refl s.db

theorem OnlyAdds.bind (hp : p.OnlyAdds) (hf : ∀ a, (f a).OnlyAdds) : (p >>= f).OnlyAdds := by
  intro s
  have hbefore := hp s
  rw [run_bind]
  revert hbefore
  rcases p.run s with ⟨e | a, s'⟩
  · exact id
  · exact fun hbefore ↦ hbefore.trans (hf a s')

theorem OnlyAdds.ite {q : Prop} [Decidable q] {p' : Lifecycle α} (hp : p.OnlyAdds)
    (hp' : p'.OnlyAdds) : (if q then p else p').OnlyAdds := by
  split_ifs
  · exact hp
  · exact hp'

theorem onlyAdds_write {g : UniverseDb → UniverseDb} (h : ∀ db, Grows db (g db)) :
    OnlyAdds (write g) := by
  rintro ⟨db, progress, - | - | k⟩
  · exact h db
  · exact .refl db
  · exact h db

theorem onlyAdds_forM {l : List α} {f : α → Lifecycle Unit} (h : ∀ a ∈ l, (f a).OnlyAdds) :
    OnlyAdds (l.forM f) := by
  induction l with
  | nil => exact onlyAdds_pure _
  | cons a l ih =>
    exact (h a List.mem_cons_self).bind fun _ ↦ ih fun b hb ↦ h b (List.mem_cons_of_mem a hb)

theorem OnlyAdds.grows {x : Except Unit α} (hp : p.OnlyAdds) (h : p.run s = (x, t)) :
    Grows s.db t.db := by
  have hs := hp s
  rwa [h] at hs

/-- A write fails and changes nothing, or it succeeds. -/
theorem write_run {g : UniverseDb → UniverseDb} {x : Except Unit Unit}
    (h : (write g).run s = (x, t)) : (∃ e, x = .error e ∧ t = s) ∨ x = .ok () ∧ t.db = g s.db := by
  rcases s with ⟨db, progress, - | - | k⟩
  · obtain ⟨rfl, rfl⟩ := Prod.mk.inj h
    exact .inr ⟨rfl, rfl⟩
  · obtain ⟨rfl, rfl⟩ := Prod.mk.inj h
    exact .inl ⟨(), rfl, rfl⟩
  · obtain ⟨rfl, rfl⟩ := Prod.mk.inj h
    exact .inr ⟨rfl, rfl⟩

theorem write_ok {g : UniverseDb → UniverseDb} {u : Unit} (h : (write g).run s = (.ok u, t)) :
    t.db = g s.db := by
  rcases write_run h with ⟨e, hx, -⟩ | ⟨-, hdb⟩
  · cases hx
  · exact hdb

/-- A loop whose rounds only add. -/
theorem forM_grows {l : List α} {f : α → Lifecycle Unit} {x : Except Unit Unit}
    (hrun : (l.forM f).run s = (x, t)) (h : ∀ a, (f a).OnlyAdds) : Grows s.db t.db :=
  (onlyAdds_forM fun a _ ↦ h a).grows hrun

/-- What each round of a loop brings about, the loop brings about if nothing takes it away. -/
theorem forM_ok {l : List α} {f : α → Lifecycle Unit} {P : α → UniverseDb → Prop} {u : Unit}
    (hadds : ∀ a ∈ l, (f a).OnlyAdds)
    (hround : ∀ a ∈ l, ∀ s t v, (f a).run s = (.ok v, t) → P a t.db)
    (hkeep : ∀ a db db', Grows db db' → P a db → P a db')
    (h : (l.forM f).run s = (.ok u, t)) : ∀ a ∈ l, P a t.db := by
  induction l generalizing s with
  | nil => exact fun _ h ↦ absurd h (List.not_mem_nil)
  | cons a l ih =>
    obtain ⟨v, s', hfirst, hrest⟩ := bind_ok.1 h
    have haddsRest : ∀ b ∈ l, (f b).OnlyAdds := fun b hb ↦ hadds b (List.mem_cons_of_mem a hb)
    refine List.forall_mem_cons.2 ⟨?_, ?_⟩
    · exact hkeep a _ _ ((onlyAdds_forM haddsRest).grows hrest)
        (hround a List.mem_cons_self s s' v hfirst)
    · exact ih haddsRest (fun b hb ↦ hround b (List.mem_cons_of_mem a hb)) hrest

end Lifecycle

open Lifecycle

/-! ## The parts of a run -/

theorem grows_modify {f : SymbolRow → SymbolRow} (hf : Keeps f) (db : UniverseDb)
    (symbol : String) : Grows db { db with symbols := db.symbols.modify symbol f hf } := by
  refine ⟨rfl, fun name hname ↦ ?_⟩
  obtain ⟨row, hrow, rfl⟩ := List.mem_map.1 hname
  have hmem : (if Row.key row = symbol then f row else row) ∈
      (db.symbols.modify symbol f hf).rows := Table.mem_modify.2 ⟨row, hrow, rfl⟩
  refine List.mem_map.2 ⟨_, hmem, ?_⟩
  split_ifs
  · exact hf.key row
  · rfl

theorem symbolsOf_insertSymbol (row : SymbolRow) (db : UniverseDb) :
    Grows db (insertSymbol row db) ∧ row.symbol ∈ symbolsOf (insertSymbol row db) := by
  rw [insertSymbol]
  rcases h : db.symbols.insert? row with - | symbols
  · refine ⟨.refl db, ?_⟩
    -- the insertion fails only if the symbol is there
    by_contra hmem
    obtain ⟨t, ht⟩ := Table.insert?_isSome (t := db.symbols) (r := row) fun x hx hclash ↦
      hmem (List.mem_map.2 ⟨x, hx, hclash⟩)
    simp [h] at ht
  · have hrows := Table.rows_of_insert? h
    refine ⟨⟨rfl, fun name hname ↦ ?_⟩, ?_⟩
    · simp only [symbolsOf, Option.getD_some, hrows, List.map_append]
      exact List.mem_append_left _ hname
    · simp [symbolsOf, hrows]

theorem grows_writeEvent {db db' : UniverseDb} (event : EventRow) (h : Grows db db') :
    Grows db (writeEvent event db') := ⟨h.runs, h.symbols⟩

theorem transitionSymbol_onlyAdds (runId : String) (row : SymbolRow) (toState : LifecycleState)
    (reasonCode : String) (occurredAt : Time) :
    (transitionSymbol runId row toState reasonCode occurredAt).OnlyAdds := by
  refine .ite (onlyAdds_pure _) (.bind (onlyAdds_write fun db ↦ ?_) fun _ ↦ ?_)
  · exact grows_writeEvent _ (grows_modify (by exact ⟨fun _ ↦ rfl, fun _ _ ↦ Iff.rfl⟩) db row.symbol)
  · exact (onlyAdds_note _).bind fun _ ↦ onlyAdds_pure _

theorem recordBaseline_onlyAdds (runId : String) (row : SymbolRow) (occurredAt : Time) :
    (recordBaseline runId row occurredAt).OnlyAdds := by
  refine onlyAdds_get.bind fun process ↦ .ite (onlyAdds_pure _) ?_
  refine .bind (onlyAdds_write fun db ↦ ?_) fun _ ↦ onlyAdds_note _
  exact grows_writeEvent _ (grows_modify (by exact ⟨fun _ ↦ rfl, fun _ _ ↦ Iff.rfl⟩) db row.symbol)

theorem insertDiscoveredSymbol_onlyAdds (runId : String) (asset : Asset) (occurredAt : Time) :
    (insertDiscoveredSymbol runId asset occurredAt).OnlyAdds := by
  refine onlyAdds_get.bind fun process ↦ .ite (onlyAdds_pure _) ?_
  refine .bind (onlyAdds_write fun db ↦ ?_) fun _ ↦ ?_
  · exact grows_writeEvent _ (symbolsOf_insertSymbol _ db).1
  · exact (onlyAdds_note _).bind fun _ ↦ onlyAdds_get.bind fun _ ↦ onlyAdds_pure _

theorem seedInitialUniverse_onlyAdds (seedUniverse : List String) :
    (seedInitialUniverse seedUniverse).OnlyAdds :=
  onlyAdds_get.bind fun _ ↦ onlyAdds_forM fun _ _ ↦
    onlyAdds_write fun db ↦ (symbolsOf_insertSymbol _ db).1

theorem refreshMetadata_onlyAdds (symbol : String) (asset : Option Asset) :
    (refreshMetadata symbol asset).OnlyAdds := by
  rcases asset with - | asset
  · exact onlyAdds_pure _
  · exact onlyAdds_write fun db ↦
      grows_modify (by exact ⟨fun _ ↦ rfl, fun _ _ ↦ Iff.rfl⟩) db symbol

theorem assessSymbol_onlyAdds (runId : String) (row : SymbolRow) (asset : Option Asset)
    (evidence : SymbolEvidence) (policy : Policy) (now : Time) :
    (assessSymbol runId row asset evidence policy now).OnlyAdds := by
  refine .ite (onlyAdds_pure _) ((refreshMetadata_onlyAdds _ _).bind fun _ ↦ ?_)
  rcases assessment row asset evidence policy now with - | ⟨toState, reasonCode⟩
  · exact onlyAdds_pure _
  · refine (transitionSymbol_onlyAdds _ _ _ _ _).bind fun changed ↦ .ite ?_ (onlyAdds_pure _)
    refine onlyAdds_get.bind fun process ↦ ?_
    rcases getUniverseSymbol process.db row.symbol with - | current
    · exact onlyAdds_pure _
    · exact (transitionSymbol_onlyAdds _ _ _ _ _).bind fun _ ↦ onlyAdds_pure _

theorem acceptAsset_onlyAdds (input : RunInput) (asset : Asset) : (acceptAsset input asset).OnlyAdds := by
  refine (insertDiscoveredSymbol_onlyAdds _ _ _).bind fun inserted ↦ ?_
  rcases inserted with - | row
  · exact onlyAdds_pure _
  · exact (onlyAdds_note _).bind fun _ ↦
      (transitionSymbol_onlyAdds _ _ _ _ _).bind fun _ ↦ onlyAdds_pure _

theorem assess_onlyAdds (input : RunInput) (assets : List Asset) (row : SymbolRow) :
    (assess input assets row).OnlyAdds :=
  onlyAdds_get.bind fun _ ↦ (assessSymbol_onlyAdds _ _ _ _ _ _).bind fun _ ↦ onlyAdds_note _

theorem normalizeSymbol_normalizeSymbol (symbol : String) :
    normalizeSymbol (normalizeSymbol symbol) = normalizeSymbol symbol :=
  Text.upper_trim_upper_trim symbol

theorem mem_symbolsOf_of_getUniverseSymbol {db : UniverseDb} {symbol : String} {row : SymbolRow}
    (h : getUniverseSymbol db symbol = some row) : normalizeSymbol symbol ∈ symbolsOf db := by
  obtain ⟨hmem, hkey⟩ := Table.get?_eq_some.1 h
  exact List.mem_map.2 ⟨row, hmem, hkey⟩

/-- A symbol that is to be inserted is there afterwards, by this or another insertion. -/
theorem insertDiscoveredSymbol_ok {runId : String} {asset : Asset} {occurredAt : Time}
    {s t : Process} {inserted : Option SymbolRow} (hne : normalizeSymbol asset.symbol ≠ "")
    (h : (insertDiscoveredSymbol runId asset occurredAt).run s = (.ok inserted, t)) :
    normalizeSymbol asset.symbol ∈ symbolsOf t.db := by
  obtain ⟨_, _, hget, hrest⟩ := bind_ok.1 h
  obtain ⟨hs, rfl⟩ := Prod.mk.inj hget
  obtain rfl := Except.ok.inj hs
  by_cases hthere : getUniverseSymbol s.db (normalizeSymbol asset.symbol) = none
  · rw [if_neg (by simp [hne, hthere])] at hrest
    obtain ⟨_, s₁, hwrite, hlater⟩ := bind_ok.1 hrest
    have hdb := write_ok hwrite
    have hinserted : normalizeSymbol asset.symbol ∈ symbolsOf s₁.db := by
      rw [hdb]
      exact (symbolsOf_insertSymbol _ s.db).2
    have hadds : Grows s₁.db t.db :=
      ((onlyAdds_note _).bind fun _ ↦ onlyAdds_get.bind fun _ ↦ onlyAdds_pure _).grows hlater
    exact hadds.symbols hinserted
  · rw [if_pos (Or.inr hthere)] at hrest
    obtain ⟨-, rfl⟩ := Prod.mk.inj hrest
    obtain ⟨row, hrow⟩ := Option.ne_none_iff_exists'.1 hthere
    have hmem := mem_symbolsOf_of_getUniverseSymbol hrow
    rwa [normalizeSymbol_normalizeSymbol] at hmem

/-- The asset is in the universe, if it has a symbol. -/
def Admitted (asset : Asset) (db : UniverseDb) : Prop :=
  normalizeSymbol asset.symbol ≠ "" → normalizeSymbol asset.symbol ∈ symbolsOf db

theorem Admitted.mono {asset : Asset} {db db' : UniverseDb} (hgrows : Grows db db')
    (h : Admitted asset db) : Admitted asset db' := fun hne ↦ hgrows.symbols (h hne)

theorem acceptAsset_ok {input : RunInput} {asset : Asset} {s t : Process} {u : Unit}
    (h : (acceptAsset input asset).run s = (.ok u, t)) : Admitted asset t.db := by
  intro hne
  obtain ⟨inserted, s₁, hinsert, hrest⟩ := bind_ok.1 h
  refine Grows.symbols ?_ (insertDiscoveredSymbol_ok hne hinsert)
  rcases inserted with - | row
  · exact (onlyAdds_pure _).grows hrest
  · exact ((onlyAdds_note _).bind fun _ ↦
      (transitionSymbol_onlyAdds _ _ _ _ _).bind fun _ ↦ onlyAdds_pure _).grows hrest

/-! ## A run that comes to its end -/

theorem mem_getAllUniverse {db : UniverseDb} {symbol : String} :
    symbol ∈ (getAllUniverse db).map (·.symbol) ↔ symbol ∈ symbolsOf db := by
  simp only [getAllUniverse, symbolsOf, List.mem_map, List.mem_insertionSort]

theorem discoverAndAssess_onlyAdds (input : RunInput) (cursorStart : Option String) :
    (discoverAndAssess input cursorStart).OnlyAdds := by
  refine (seedInitialUniverse_onlyAdds _).bind fun _ ↦ ?_
  rcases input.assets with - | assets
  · exact onlyAdds_throw
  · refine onlyAdds_get.bind fun _ ↦ ?_
    refine (onlyAdds_forM fun row _ ↦ recordBaseline_onlyAdds _ row _).bind fun _ ↦ ?_
    refine (onlyAdds_note _).bind fun _ ↦ ?_
    refine (onlyAdds_forM fun asset _ ↦ acceptAsset_onlyAdds _ asset).bind fun _ ↦ ?_
    refine onlyAdds_get.bind fun _ ↦ ?_
    exact (onlyAdds_forM fun row _ ↦ assess_onlyAdds _ _ row).bind fun _ ↦ onlyAdds_pure _

/-- The discovery of a run that has discovered and assessed: the symbols it takes for existing ones
are there before and after, and what it discovers is admitted. -/
structure Discovered (input : RunInput) (cursorStart : Option String) (db db' : UniverseDb)
    (assets : List Asset) (existing : List String) : Prop where
  listed : input.assets = some assets
  before : symbolsOf db ⊆ existing
  after : existing ⊆ symbolsOf db'
  admitted : ∀ asset ∈ (discover input assets cursorStart existing).discovered,
    Admitted asset db'

theorem discoverAndAssess_ok {input : RunInput} {cursorStart : Option String} {s t : Process}
    {discovery : Discovery}
    (h : (discoverAndAssess input cursorStart).run s = (.ok discovery, t)) :
    ∃ assets existing, Discovered input cursorStart s.db t.db assets existing ∧
      discovery = discover input assets cursorStart existing := by
  rw [discoverAndAssess] at h
  obtain ⟨_, s₁, hseed, h⟩ := bind_ok.1 h
  have hseed := (seedInitialUniverse_onlyAdds _).grows hseed
  rcases hassets : input.assets with - | assets
  · rw [hassets] at h
    cases (Prod.mk.inj h).1
  · rw [hassets] at h
    obtain ⟨_, _, hget, h⟩ := bind_ok.1 h
    obtain ⟨hs, rfl⟩ := Prod.mk.inj hget
    obtain rfl := Except.ok.inj hs
    obtain ⟨_, s₂, hbaseline, h⟩ := bind_ok.1 h
    obtain ⟨_, s₃, hnote, h⟩ := bind_ok.1 h
    obtain ⟨_, s₄, haccept, h⟩ := bind_ok.1 h
    obtain ⟨_, _, hget, h⟩ := bind_ok.1 h
    obtain ⟨hs, rfl⟩ := Prod.mk.inj hget
    obtain ⟨_, s₅, hassess, h⟩ := bind_ok.1 h
    obtain ⟨hdiscovery, rfl⟩ := Prod.mk.inj h
    have hbaseline := forM_grows hbaseline fun row ↦ recordBaseline_onlyAdds _ row _
    have hnote := (onlyAdds_note _).grows hnote
    have hadmitted := forM_grows haccept (acceptAsset_onlyAdds input)
    have hassess := forM_grows hassess (assess_onlyAdds input _)
    have haccept := forM_ok (fun asset _ ↦ acceptAsset_onlyAdds input asset)
      (fun asset _ s t v hrun ↦ acceptAsset_ok hrun) (fun _ _ _ ↦ Admitted.mono) haccept
    refine ⟨assets, (getAllUniverse s₁.db).map (·.symbol), ?_, (Except.ok.inj hdiscovery).symm⟩
    constructor
    · exact hassets
    · exact fun symbol hsymbol ↦ mem_getAllUniverse.2 (hseed.symbols hsymbol)
    · intro symbol hsymbol
      exact (((hbaseline.trans hnote).trans hadmitted).trans hassess).symbols
        (mem_getAllUniverse.1 hsymbol)
    · exact fun asset hasset ↦ (haccept asset hasset).mono hassess

theorem runBody_error {input : RunInput} {cursorStart : Option String} {s t : Process}
    {e : Unit} (h : (runBody input cursorStart).run s = (.error e, t)) : Grows s.db t.db := by
  rcases bind_run h with ⟨_, hrun, -⟩ | ⟨discovery, s₁, hrun, h⟩
  · exact (discoverAndAssess_onlyAdds input cursorStart).grows hrun
  · have hgrows := (discoverAndAssess_onlyAdds input cursorStart).grows hrun
    rcases bind_run h with ⟨_, hget, -⟩ | ⟨_, _, hget, h⟩
    · cases (Prod.mk.inj hget).1
    obtain ⟨hs, rfl⟩ := Prod.mk.inj hget
    rcases write_run h with ⟨_, -, rfl⟩ | ⟨hx, -⟩
    · exact hgrows
    · cases hx

theorem runBody_ok {input : RunInput} {cursorStart : Option String} {s t : Process} {u : Unit}
    (h : (runBody input cursorStart).run s = (.ok u, t)) :
    ∃ t₁ assets existing progress, Discovered input cursorStart s.db t₁ assets existing ∧
      progress.cursorEnd = (discover input assets cursorStart existing).cursorEnd ∧
      Grows s.db t₁ ∧ t.db = finishRun input.runId .completed input.completedAt progress t₁ := by
  obtain ⟨discovery, s₁, hrun, h⟩ := bind_ok.1 h
  obtain ⟨assets, existing, hdiscovered, hdiscovery⟩ := discoverAndAssess_ok hrun
  obtain ⟨_, _, hget, h⟩ := bind_ok.1 h
  obtain ⟨hs, rfl⟩ := Prod.mk.inj hget
  exact ⟨s₁.db, assets, existing, _, hdiscovered, congrArg Discovery.cursorEnd hdiscovery,
    (discoverAndAssess_onlyAdds input cursorStart).grows hrun, write_ok h⟩

/-! ## The records of the runs -/

/-- The runs the cursor may be read from. -/
def cursorRuns (db : UniverseDb) : List RunRow :=
  db.runs.rows.filter fun run ↦ run.LeavesCursor

/-- The record of a run that has begun. -/
def newRun (input : RunInput) (cursorStart : Option String) : RunRow :=
  { id := input.runId, startedAt := input.startedAt, discoveryCursorStart := cursorStart }

/-- The tables of a run that has begun, given those before it. -/
structure Started (input : RunInput) (cursorStart : Option String) (db db' : UniverseDb)
    (others : List RunRow) : Prop where
  symbols : db'.symbols = db.symbols
  rows : db'.runs.rows = others ++ [newRun input cursorStart]
  fresh : ∀ run ∈ others, run.id ≠ input.runId
  cursors : others.filter (fun run ↦ run.LeavesCursor) = cursorRuns db

theorem not_leavesCursor_newRun (input : RunInput) (cursorStart : Option String) :
    ¬ (newRun input cursorStart).LeavesCursor := fun h ↦ nomatch h.1

/-- Recovery changes only runs that leave no cursor, and those leave none afterwards. -/
theorem cursorRuns_recoverIncompleteRuns (recoveredAt : Time) (db : UniverseDb) :
    cursorRuns (recoverIncompleteRuns recoveredAt db) = cursorRuns db := by
  rw [cursorRuns, cursorRuns, recoverIncompleteRuns, Table.update]
  dsimp only
  induction db.runs.rows with
  | nil => rfl
  | cons run rest ih =>
    rw [List.map_cons, List.filter_cons, List.filter_cons, ih]
    by_cases hrunning : run.status = .running
    · simp [hrunning, RunRow.LeavesCursor]
    · simp [hrunning]

/-- Whether a run begins or not, the symbols and the cursors stay. -/
theorem startRun_run {input : RunInput} {cursorStart : Option String} {s t : Process}
    {x : Except Unit Unit} (h : (startRun input cursorStart).run s = (x, t)) :
    t.db.symbols = s.db.symbols ∧ cursorRuns t.db = cursorRuns s.db ∧
      (x = .ok () → ∃ others, Started input cursorStart s.db t.db others) := by
  rcases bind_run h with ⟨e, hrecover, rfl⟩ | ⟨_, s₁, hrecover, h⟩
  · rcases write_run hrecover with ⟨_, -, rfl⟩ | ⟨hx, -⟩
    · exact ⟨rfl, rfl, nofun⟩
    · cases hx
  · have hrecover := write_ok hrecover
    have hsymbols : s₁.db.symbols = s.db.symbols := by rw [hrecover]; rfl
    have hcursors : cursorRuns s₁.db = cursorRuns s.db := by
      rw [hrecover, cursorRuns_recoverIncompleteRuns]
    rcases bind_run h with ⟨_, hget, -⟩ | ⟨_, _, hget, h⟩
    · cases (Prod.mk.inj hget).1
    obtain ⟨hs, rfl⟩ := Prod.mk.inj hget
    obtain rfl := Except.ok.inj hs
    rcases hinsert : s₁.db.runs.insert? (newRun input cursorStart) with - | runs
    · rw [newRun] at hinsert
      dsimp only at h
      rw [hinsert] at h
      obtain ⟨rfl, rfl⟩ := Prod.mk.inj h
      exact ⟨hsymbols, hcursors, nofun⟩
    · have hrows := Table.rows_of_insert? hinsert
      have hfresh := fun run ↦ Table.not_clash_of_insert? (x := run) hinsert
      rw [newRun] at hinsert
      dsimp only at h
      rw [hinsert] at h
      rcases write_run h with ⟨_, rfl, rfl⟩ | ⟨rfl, hdb⟩
      · exact ⟨hsymbols, hcursors, nofun⟩
      · have hfilter : cursorRuns t.db = cursorRuns s₁.db := by
          rw [hdb, cursorRuns, cursorRuns, hrows, List.filter_append, List.filter_singleton]
          simp [not_leavesCursor_newRun]
        refine ⟨by rw [hdb]; exact hsymbols, hfilter.trans hcursors, fun _ ↦
          ⟨s₁.db.runs.rows, by rw [hdb]; exact hsymbols, by rw [hdb]; exact hrows, ?_, hcursors⟩⟩
        exact fun run hrun hid ↦ hfresh run hrun hid

/-- The record of a run that has finished. -/
def finishedRun (status : RunStatus) (completedAt : Time) (progress : Progress) (run : RunRow) :
    RunRow :=
  { run with
    completedAt := some completedAt
    status
    discoveryCursorEnd := progress.cursorEnd
    assetsScanned := progress.assetsScanned
    assetsDiscovered := progress.assetsDiscovered
    symbolsAssessed := progress.symbolsAssessed
    transitionsApplied := progress.transitionsApplied }

theorem rows_finishRun {db : UniverseDb} {others : List RunRow} {run : RunRow}
    (hrows : db.runs.rows = others ++ [run]) (hfresh : ∀ r ∈ others, r.id ≠ run.id)
    (status : RunStatus) (completedAt : Time) (progress : Progress) :
    (finishRun run.id status completedAt progress db).runs.rows =
      others ++ [finishedRun status completedAt progress run] := by
  rw [finishRun, Table.modify, Table.update]
  dsimp only
  rw [hrows, List.map_append]
  congr 1
  · refine (List.map_congr_left fun r hr ↦ ?_).trans (List.map_id _)
    exact if_neg (by simpa [Row.key] using hfresh r hr)
  · rw [List.map_singleton, if_pos (by simp [Row.key])]
    rfl

namespace Started

variable {input : RunInput} {cursorStart : Option String} {db db₁ db₂ : UniverseDb}
  {others : List RunRow}

theorem cursorRuns_finishRun (h : Started input cursorStart db db₁ others) (hgrows : Grows db₁ db₂)
    (status : RunStatus) (progress : Progress) :
    cursorRuns (finishRun input.runId status input.completedAt progress db₂) =
      cursorRuns db ++ [finishedRun status input.completedAt progress
        (newRun input cursorStart)].filter fun run ↦ run.LeavesCursor := by
  have hrows := rows_finishRun (hgrows.runs ▸ h.rows) h.fresh status input.completedAt progress
  rw [← h.cursors, ← List.filter_append, ← hrows]
  rfl

/-- A failed run leaves no cursor. -/
theorem cursorRuns_failed (h : Started input cursorStart db db₁ others) (hgrows : Grows db₁ db₂)
    (progress : Progress) :
    cursorRuns (finishRun input.runId .failed input.completedAt progress db₂) = cursorRuns db := by
  have hleaves : ¬ (finishedRun .failed input.completedAt progress
    (newRun input cursorStart)).LeavesCursor := fun h ↦ nomatch h.1
  rw [h.cursorRuns_finishRun hgrows, List.filter_singleton]
  simp [hleaves]

/-- A completed run leaves its cursor. -/
theorem cursorRuns_completed (h : Started input cursorStart db db₁ others)
    (hgrows : Grows db₁ db₂) {progress : Progress} (hcursor : progress.cursorEnd ≠ none) :
    cursorRuns (finishRun input.runId .completed input.completedAt progress db₂) =
      cursorRuns db ++ [finishedRun .completed input.completedAt progress
        (newRun input cursorStart)] := by
  have hleaves : (finishedRun .completed input.completedAt progress
    (newRun input cursorStart)).LeavesCursor := ⟨rfl, hcursor⟩
  rw [h.cursorRuns_finishRun hgrows, List.filter_singleton]
  simp [hleaves]

end Started

/-! ## Runs -/

variable {input : RunInput} {db db' : UniverseDb}

/-- A run that fails adds symbols at most. -/
theorem run_failed (h : runAutonomousUniverseLifecycle input db = (false, db')) :
    symbolsOf db ⊆ symbolsOf db' ∧ cursorRuns db' = cursorRuns db := by
  rw [runAutonomousUniverseLifecycle] at h
  rcases hstart : (startRun input (latestCursor db)).run
    ⟨db, { cursorEnd := latestCursor db }, input.writesLeft⟩ with ⟨e | u, s⟩
  · obtain ⟨hsymbols, hcursors, -⟩ := startRun_run hstart
    rw [hstart] at h
    obtain ⟨-, rfl⟩ := Prod.mk.inj h
    exact ⟨fun _ hs ↦ by rwa [symbolsOf, hsymbols], hcursors⟩
  · obtain ⟨hsymbols, hcursors, hstarted⟩ := startRun_run hstart
    obtain ⟨others, hstarted⟩ := hstarted rfl
    rw [hstart] at h
    dsimp only at h
    rcases hbody : (runBody input (latestCursor db)).run s with ⟨e | u, t⟩
    · rw [hbody] at h
      obtain ⟨-, rfl⟩ := Prod.mk.inj h
      have hgrows : Grows s.db t.db := runBody_error hbody
      have hsubset : symbolsOf db ⊆ symbolsOf t.db :=
        fun _ hs ↦ hgrows.symbols (by rwa [symbolsOf, hsymbols])
      split_ifs
      · exact ⟨hsubset, by rw [cursorRuns, hgrows.runs]; exact hcursors⟩
      · exact ⟨hsubset, hstarted.cursorRuns_failed hgrows _⟩
    · rw [hbody] at h
      cases (Prod.mk.inj h).1

/-- A run that completes adds what it has discovered and leaves its cursor. -/
theorem run_completed (h : runAutonomousUniverseLifecycle input db = (true, db')) :
    ∃ assets existing progress, Discovered input (latestCursor db) db db' assets existing ∧
      progress.cursorEnd = (discover input assets (latestCursor db) existing).cursorEnd ∧
      (progress.cursorEnd ≠ none → cursorRuns db' = cursorRuns db ++
        [finishedRun .completed input.completedAt progress (newRun input (latestCursor db))]) := by
  rw [runAutonomousUniverseLifecycle] at h
  rcases hstart : (startRun input (latestCursor db)).run
    ⟨db, { cursorEnd := latestCursor db }, input.writesLeft⟩ with ⟨e | u, s⟩
  · rw [hstart] at h
    cases (Prod.mk.inj h).1
  · obtain ⟨hsymbols, -, hstarted⟩ := startRun_run hstart
    obtain ⟨others, hstarted⟩ := hstarted rfl
    rw [hstart] at h
    dsimp only at h
    rcases hbody : (runBody input (latestCursor db)).run s with ⟨e | u, t⟩
    · rw [hbody] at h
      cases (Prod.mk.inj h).1
    · rw [hbody] at h
      obtain ⟨-, rfl⟩ := Prod.mk.inj h
      obtain ⟨t₁, assets, existing, progress, hdiscovered, hcursor, hgrows, hdb⟩ :=
        runBody_ok hbody
      refine ⟨assets, existing, progress, ?_, hcursor, fun hne ↦ ?_⟩
      · rw [hdb]
        exact { hdiscovered with
          before := fun _ hs ↦ hdiscovered.before (by rwa [symbolsOf, hsymbols]) }
      · rw [hdb]
        exact hstarted.cursorRuns_completed hgrows hne

end Universe

end AlpacaTrading
