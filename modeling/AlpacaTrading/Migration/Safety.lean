import AlpacaTrading.Migration.Run

/-!
# Migrations are applied once and in order

The lock makes the database a run sees the database: while a session holds it no other run writes.
So the map a run keeps of what it and others applied names exactly the recorded versions, and the
loop's invariant is `InLoop`: everything before the next migration is recorded.

## The mismatch check

The check for a changed migration stands inside the loop, behind transactions that may have
committed.  When the ledger starts out as a prefix of what the directory offers, it is one for
good: the first version that is not recorded ends the recorded ones.  After the first transaction
of a run nothing ahead is recorded, and the check has nothing left to compare.
-/

namespace AlpacaTrading

namespace Migration

/-! ## Prefixes -/

/-- A prefix that has everything before a position and not the entry at it. -/
theorem prefix_eq_of_first_missing {α : Type*} {l done rest : List α} {v : α}
    (h : l <+: done ++ v :: rest) (hdone : ∀ x ∈ done, x ∈ l) (hv : v ∉ l) (hnodup : done.Nodup) :
    l = done := by
  have hle : l.length ≤ done.length := by
    by_contra hlt
    have hlong : done.length < l.length := by omega
    have hat : l[done.length] = v := by
      rw [h.getElem hlong]
      simp
    exact hv (hat ▸ List.getElem_mem hlong)
  have hbegins : l <+: done := List.prefix_of_prefix_length_le h (List.prefix_append _ _) hle
  exact hbegins.eq_of_length_le (List.subperm_of_subset hnodup hdone).length_le

/-- Of two prefixes of one list the one that lies in the other is its prefix. -/
theorem prefix_of_subset {α : Type*} {l l' whole : List α} (h : l <+: whole) (h' : l' <+: whole)
    (hnodup : l.Nodup) (hsub : ∀ x ∈ l, x ∈ l') : l <+: l' :=
  List.prefix_of_prefix_length_le h h' (List.subperm_of_subset hnodup hsub).length_le

/-! ## The listing -/

theorem sortedMigrations_sorted (checksum : String → String) (directory : List DirectoryEntry) :
    (sortedMigrations checksum directory).Pairwise fun a b ↦ a.version ≤ b.version := by
  have htotal : Std.Total fun a b : PostgresMigration ↦ a.version ≤ b.version :=
    ⟨fun a b ↦ Int.le_total a.version b.version⟩
  have htrans : IsTrans PostgresMigration fun a b ↦ a.version ≤ b.version :=
    ⟨fun _ _ _ ↦ Int.le_trans⟩
  exact List.pairwise_insertionSort _ _

theorem increasing_of_duplicateVersion {l : List PostgresMigration}
    (hsorted : l.Pairwise fun a b ↦ a.version ≤ b.version) (h : duplicateVersion l = none) :
    l.Pairwise fun a b ↦ a.version < b.version := by
  have hchain : l.IsChain fun a b ↦ a.version < b.version := by
    induction l with
    | nil => exact List.IsChain.nil
    | cons m rest ih =>
      cases rest with
      | nil => exact List.IsChain.singleton _
      | cons m' rest =>
        rw [List.pairwise_cons] at hsorted
        have hne : m.version ≠ m'.version := by
          intro heq
          simp [duplicateVersion, heq] at h
        have hle : m.version ≤ m'.version := hsorted.1 m' List.mem_cons_self
        rw [duplicateVersion, if_neg hne] at h
        exact List.isChain_cons_cons.2 ⟨lt_of_le_of_ne hle hne, ih hsorted.2 h⟩
  have htrans : IsTrans PostgresMigration fun a b ↦ a.version < b.version :=
    ⟨fun _ _ _ ↦ Int.lt_trans⟩
  exact List.isChain_iff_pairwise.1 hchain

theorem increasing_of_list {checksum : String → String} {directory : List DirectoryEntry}
    {migrations : List PostgresMigration}
    (h : listPostgresMigrations checksum directory = .ok migrations) :
    migrations = sortedMigrations checksum directory ∧
      migrations.Pairwise fun a b ↦ a.version < b.version := by
  unfold listPostgresMigrations at h
  cases hdup : duplicateVersion (sortedMigrations checksum directory) with
  | some version => simp [hdup] at h
  | none =>
    obtain rfl : sortedMigrations checksum directory = migrations := by simpa [hdup] using h
    exact ⟨rfl, increasing_of_duplicateVersion (sortedMigrations_sorted _ _) hdup⟩

theorem nodup_versions {migrations : List PostgresMigration}
    (h : migrations.Pairwise fun a b ↦ a.version < b.version) :
    (migrations.map (·.version)).Nodup :=
  List.pairwise_map.2 (h.imp fun hlt ↦ Int.ne_of_lt hlt)

/-! ## The ledger -/

namespace Database

variable {σ : Type*} {d : Database σ}

theorem recordedVersions_perm (d : Database σ) :
    d.recordedVersions.Perm (d.recorded.map (·.version)) :=
  List.perm_insertionSort _ _

@[simp] theorem mem_recordedVersions {v : ℤ} :
    v ∈ d.recordedVersions ↔ v ∈ d.recorded.map (·.version) :=
  d.recordedVersions_perm.mem_iff

theorem versions_nodup (d : Database σ) : (d.recorded.map (·.version)).Nodup := by
  unfold recorded
  cases d.ledger with
  | none => exact List.nodup_nil
  | some ledger => exact List.pairwise_map.2 ledger.unique

theorem recordedVersions_nodup (d : Database σ) : d.recordedVersions.Nodup :=
  d.recordedVersions_perm.nodup_iff.2 d.versions_nodup

/-- The sorted ledger is the one sorted list of its versions. -/
theorem recordedVersions_eq {l : List ℤ} (hsorted : l.Pairwise (· ≤ ·))
    (h : l.Perm (d.recorded.map (·.version))) : d.recordedVersions = l :=
  (d.recordedVersions_perm.trans h.symm).eq_of_pairwise' (List.pairwise_insertionSort _ _) hsorted

end Database

section

variable {σ : Type*}

@[simp] theorem recorded_ensureMigrationLedger (d : Database σ) :
    (ensureMigrationLedger d).recorded = d.recorded := by
  unfold ensureMigrationLedger Database.recorded
  cases d.ledger <;> rfl

theorem readAppliedMigrations_perm {d : Database σ} {applied : List AppliedPostgresMigration}
    (h : readAppliedMigrations d = some applied) : applied.Perm d.recorded := by
  obtain ⟨ledger, hledger, rfl⟩ := Option.map_eq_some_iff.1 h
  have hrows : d.recorded = ledger.rows := by
    unfold Database.recorded
    rw [hledger]
    rfl
  rw [hrows]
  exact List.perm_insertionSort _ _

theorem insertApplied_eq_some {d d' : Database σ} {m : PostgresMigration}
    (h : insertApplied d m = some d') :
    d'.schema = d.schema ∧ d'.recorded = d.recorded ++ [m.row] := by
  obtain ⟨ledger', hbind, rfl⟩ := Option.map_eq_some_iff.1 h
  obtain ⟨ledger, hledger, hinsert⟩ := Option.bind_eq_some_iff.1 hbind
  refine ⟨rfl, ?_⟩
  have hrows : d.recorded = ledger.rows := by
    unfold Database.recorded
    rw [hledger]
    rfl
  by_cases hfits : m.version ≤ 2147483647
  · rw [if_pos hfits] at hinsert
    rw [hrows]
    exact Table.rows_of_insert? hinsert
  · rw [if_neg hfits] at hinsert
    cases hinsert

end

/-! ## The loop -/

section Loop

variable {σ : Type*} {ordered : Prop} {d : Database σ} {migrations todo rest : List PostgresMigration}
  {m : PostgresMigration} {progress : Progress}

/-- The state of the loop before `todo`, over the database the run sees.  `ordered` says that the
ledger started out as a prefix. -/
structure InLoop (ordered : Prop) (d : Database σ) (migrations todo : List PostgresMigration)
    (progress : Progress) : Prop where
  /-- The map names the recorded versions. -/
  named : (progress.appliedByVersion.map (·.version)).Perm (d.recorded.map (·.version))
  /-- What lies behind is recorded; and once the run has applied something, nothing else is. -/
  behind : ∃ done, migrations = done ++ todo ∧ (∀ m ∈ done, m.version ∈ d.recordedVersions) ∧
    (ordered → progress.appliedVersions = [] ∨ d.recordedVersions = done.map (·.version))
  /-- The ledger is a prefix of the listing. -/
  leads : ordered → d.recordedVersions <+: migrations.map (·.version)

theorem InLoop.mem_iff (h : InLoop ordered d migrations todo progress) {v : ℤ} :
    v ∈ d.recordedVersions ↔ ∃ row ∈ progress.appliedByVersion, row.version = v := by
  rw [Database.mem_recordedVersions, ← h.named.mem_iff, List.mem_map]

/-- A recorded version ahead means that nothing was applied. -/
theorem InLoop.nothing_applied (h : InLoop ordered d migrations (m :: rest) progress)
    (hinc : migrations.Pairwise fun a b ↦ a.version < b.version) (hord : ordered)
    (hm : m.version ∈ d.recordedVersions) : progress.appliedVersions = [] := by
  obtain ⟨done, rfl, -, hlast⟩ := h.behind
  refine (hlast hord).resolve_right fun heq ↦ ?_
  rw [heq, List.mem_map] at hm
  obtain ⟨m', hm', hversion⟩ := hm
  have hlt : m'.version < m.version :=
    (List.pairwise_append.1 hinc).2.2 m' hm' m List.mem_cons_self
  omega

/-- A recorded migration is passed over. -/
theorem InLoop.continue (h : InLoop ordered d migrations (m :: rest) progress)
    (hinc : migrations.Pairwise fun a b ↦ a.version < b.version)
    (hm : m.version ∈ d.recordedVersions) : InLoop ordered d migrations rest progress := by
  refine ⟨h.named, ?_, h.leads⟩
  obtain ⟨done, hsplit, hdone, -⟩ := h.behind
  refine ⟨done ++ [m], by simpa using hsplit, ?_, fun hord ↦
    .inl (h.nothing_applied hinc hord hm)⟩
  intro m' hm'
  rcases List.mem_append.1 hm' with hold | hnew
  · exact hdone m' hold
  · rw [List.mem_singleton.1 hnew]
    exact hm

/-- The first missing version ends the recorded ones. -/
theorem InLoop.recorded_eq (h : InLoop ordered d migrations (m :: rest) progress)
    (hinc : migrations.Pairwise fun a b ↦ a.version < b.version) (hord : ordered)
    (hm : m.version ∉ d.recordedVersions) :
    ∃ done, migrations = done ++ m :: rest ∧ d.recordedVersions = done.map (·.version) := by
  obtain ⟨done, hsplit, hdone, -⟩ := h.behind
  refine ⟨done, hsplit, ?_⟩
  have hleads : d.recordedVersions <+:
      done.map (·.version) ++ m.version :: rest.map (·.version) := by
    have hwhole := h.leads hord
    rw [hsplit, List.map_append, List.map_cons] at hwhole
    exact hwhole
  have hnodup : (done.map (·.version)).Nodup := by
    rw [hsplit] at hinc
    exact nodup_versions (List.pairwise_append.1 hinc).1
  refine prefix_eq_of_first_missing hleads (fun v hv ↦ ?_) hm hnodup
  obtain ⟨m', hm', rfl⟩ := List.mem_map.1 hv
  exact hdone m' hm'

/-- A migration is recorded by its commit. -/
theorem InLoop.record (h : InLoop ordered d migrations (m :: rest) progress)
    (hinc : migrations.Pairwise fun a b ↦ a.version < b.version)
    (hm : m.version ∉ d.recordedVersions) {d' : Database σ}
    (hd' : d'.recorded = d.recorded ++ [m.row]) :
    InLoop ordered d' migrations rest (progress.record m) := by
  have hversions : d'.recorded.map (·.version) = d.recorded.map (·.version) ++ [m.version] := by
    rw [hd', List.map_append]
    rfl
  have hexact : ordered → ∃ done, migrations = (done ++ [m]) ++ rest ∧
      d'.recordedVersions = (done ++ [m]).map (·.version) := by
    intro hord
    obtain ⟨done, hsplit, hdone⟩ := h.recorded_eq hinc hord hm
    have hsplit' : migrations = (done ++ [m]) ++ rest := by simpa using hsplit
    refine ⟨done, hsplit', Database.recordedVersions_eq ?_ ?_⟩
    · rw [hsplit'] at hinc
      exact List.pairwise_map.2 ((List.pairwise_append.1 hinc).1.imp Int.le_of_lt)
    · rw [hversions, List.map_append, ← hdone]
      exact d.recordedVersions_perm.append_right _
  refine ⟨?_, ?_, fun hord ↦ ?_⟩
  · have happend : (progress.record m).appliedByVersion.map (·.version) =
        progress.appliedByVersion.map (·.version) ++ [m.version] := by
      simp [Progress.record, PostgresMigration.row]
    rw [hversions, happend]
    exact h.named.append_right _
  · obtain ⟨done, hsplit, hdone, -⟩ := h.behind
    refine ⟨done ++ [m], by simpa using hsplit, fun m' hm' ↦ ?_, fun hord ↦ .inr ?_⟩
    · rw [Database.mem_recordedVersions, hversions]
      rcases List.mem_append.1 hm' with hold | hnew
      · exact List.mem_append_left _ (Database.mem_recordedVersions.1 (hdone m' hold))
      · rw [List.mem_singleton.1 hnew]
        exact List.mem_append_right _ List.mem_cons_self
    · obtain ⟨done', hsplit', heq⟩ := hexact hord
      have hsame : done' ++ [m] = done ++ [m] := by
        refine (List.append_left_inj rest).1 ?_
        rw [← hsplit', hsplit]
        simp
      rw [heq, hsame]
  · obtain ⟨done, hsplit, heq⟩ := hexact hord
    rw [heq, hsplit]
    exact (List.prefix_append (done ++ [m]) rest).map _

/-- The loop starts with what the ledger shows. -/
theorem InLoop.start {applied : List AppliedPostgresMigration} (happlied : applied.Perm d.recorded)
    (hleads : ordered → d.recordedVersions <+: migrations.map (·.version)) :
    InLoop ordered d migrations migrations
      { appliedVersions := [], appliedByVersion := applied } :=
  ⟨happlied.map _, ⟨[], rfl, by simp, fun _ ↦ .inl rfl⟩, hleads⟩

end Loop

/-! ## Stages -/

section Stages

variable {σ : Type*}

/-- What a run knows of itself, whatever the others do. -/
def Stage.Settled (ordered : Prop) (w : World σ) (p : ℕ) : Stage σ → Prop
  | .transaction _ _ _ progress => progress.appliedVersions = w.appliedBy p
  | .rollingBack error => error.rejects = false
  | .unlocking (.ok result) => result.appliedVersions = w.appliedBy p
  | .finished (.ok _) => True
  | .unlocking (.error error) => ordered → error.rejects → w.appliedBy p = []
  | .finished (.error error) => ordered → error.rejects → w.appliedBy p = []
  | .locking => w.appliedBy p = []
  | .ensuring => w.appliedBy p = []
  | .reading => w.appliedBy p = []

/-- The database a transaction sees after the SQL, and after the insert. -/
def TransactionStatement.Drafted (execute : String → σ → Option σ) (d : Database σ)
    (m : PostgresMigration) : TransactionStatement σ → Prop
  | .insert draft => execute m.sql d.schema = some draft.schema ∧ draft.recorded = d.recorded
  | .commit draft =>
    execute m.sql d.schema = some draft.schema ∧ draft.recorded = d.recorded ++ [m.row]
  | _ => True

/-- What a run knows of the database, as long as its session holds the lock. -/
def Stage.Current (ordered : Prop) (execute : String → σ → Option σ) (d : Database σ)
    (migrations : List PostgresMigration) : Stage σ → Prop
  | .transaction next m rest progress =>
    InLoop ordered d migrations (m :: rest) progress ∧ m.version ∉ d.recordedVersions ∧
      next.Drafted execute d m
  | .unlocking (.ok result) =>
    result.currentVersions = d.recordedVersions ∧
      result.latestVersion = d.recordedVersions.getLast? ∧
        ∀ m ∈ migrations, m.version ∈ d.recordedVersions
  | _ => True

/-- The run has the lock, unless its session ended. -/
def Stage.Inside : Stage σ → Prop
  | .locking => False
  | .finished _ => False
  | _ => True

/-- A run, in the world. -/
structure Run.Sound (ordered : Prop) (execute : String → σ → Option σ) (w : World σ) (p : ℕ)
    (r : Run σ) : Prop where
  increasing : r.migrations.Pairwise fun a b ↦ a.version < b.version
  settled : r.stage.Settled ordered w p
  holds : r.connected = true → r.stage.Inside →
    w.holder = some p ∧ r.stage.Current ordered execute w.database r.migrations

variable {ordered : Prop} {execute : String → σ → Option σ} {w w' : World σ} {p q : ℕ}
  {r : Run σ} {stage : Stage σ}

/-- The loop ends in a transaction, in a result or in a mismatch. -/
theorem InLoop.advance {migrations todo : List PostgresMigration} {progress : Progress}
    (h : InLoop ordered w.database migrations todo progress)
    (hinc : migrations.Pairwise fun a b ↦ a.version < b.version)
    (happlied : progress.appliedVersions = w.appliedBy p) :
    (advance todo progress : Stage σ).Settled ordered w p ∧
      (advance todo progress : Stage σ).Current ordered execute w.database migrations := by
  induction todo with
  | nil =>
    have hcurrent : w.database.recordedVersions = progress.result.currentVersions :=
      Database.recordedVersions_eq (List.pairwise_insertionSort _ _)
        ((List.perm_insertionSort _ _).trans h.named)
    obtain ⟨done, hsplit, hdone, -⟩ := h.behind
    rw [List.append_nil] at hsplit
    refine ⟨happlied, hcurrent.symm, ?_, ?_⟩
    · rw [hcurrent]
      rfl
    · rw [hsplit]
      exact hdone
  | cons m rest ih =>
    unfold Migration.advance
    cases hfind : progress.appliedByVersion.find? (·.version = m.version) with
    | none =>
      have hmissing : m.version ∉ w.database.recordedVersions := by
        rw [h.mem_iff]
        rintro ⟨row, hrow, hversion⟩
        simpa [hversion] using List.find?_eq_none.1 hfind row hrow
      exact ⟨happlied, h, hmissing, trivial⟩
    | some recorded =>
      have hpresent : m.version ∈ w.database.recordedVersions :=
        h.mem_iff.2 ⟨recorded, List.mem_of_find?_eq_some hfind, by
          simpa using List.find?_some hfind⟩
      by_cases hmatch : recorded.checksum ≠ m.checksum ∨ recorded.name ≠ m.name
      · simp only [if_pos hmatch]
        refine ⟨fun hord _ ↦ ?_, trivial⟩
        rw [← happlied]
        exact h.nothing_applied hinc hord hpresent
      · simp only [if_neg hmatch]
        exact ih (h.continue hinc hpresent)

/-- A statement that throws.  Only the result of an unlock is looked at again. -/
theorem Stage.Settled.failed (h : stage.Settled ordered w p)
    (hsame : (∃ result, stage = .unlocking result ∨ stage = .finished result) →
      w'.appliedBy p = w.appliedBy p) : stage.failed.Settled ordered w' p := by
  have hquiet : ∀ {error : MigrationError}, error.rejects = false →
      ordered → error.rejects = true → w'.appliedBy p = [] := by
    intro error hfalse _ htrue
    rw [hfalse] at htrue
    cases htrue
  rcases stage with _ | _ | _ | ⟨_ | _ | _ | _ | _, m, rest, progress⟩ | error | ⟨_ | _⟩ |
    ⟨_ | _⟩
  case unlocking.error =>
    intro hord hrejects
    rw [hsame ⟨_, .inl rfl⟩]
    exact h hord hrejects
  case finished.error =>
    intro hord hrejects
    rw [hsame ⟨_, .inr rfl⟩]
    exact h hord hrejects
  case finished.ok => trivial
  all_goals first | exact hquiet rfl | rfl

/-- Where a run goes on after an error it has no knowledge of the database. -/
theorem Stage.failed_current {d : Database σ} {migrations : List PostgresMigration}
    (hinside : stage.failed.Inside) : stage.failed.Current ordered execute d migrations := by
  rcases stage with _ | _ | _ | ⟨_ | _ | _ | _ | _, m, rest, progress⟩ | error | ⟨_ | _⟩ | _
  all_goals first | exact hinside.elim | trivial

theorem Stage.inside_of_failed (hinside : stage.failed.Inside) : stage.Inside := by
  rcases stage with _ | _ | _ | ⟨_ | _ | _ | _ | _, m, rest, progress⟩ | error | ⟨_ | _⟩ | _
  all_goals first | exact hinside.elim | trivial

/-! ## Turns -/

/-- What a turn of one run leaves of the world. -/
structure Turn (ordered : Prop) (execute : String → σ → Option σ) (p : ℕ)
    (migrations : List PostgresMigration) (w w' : World σ) : Prop where
  /-- The commits of the others. -/
  others : ∀ q, q ≠ p → w'.appliedBy q = w.appliedBy q
  /-- The database and the lock of another holder. -/
  holder : ∀ q, q ≠ p → w.holder = some q → w'.holder = some q ∧ w'.database = w.database
  /-- Either nothing is applied, or one migration with its row. -/
  writes :
    (w'.commits = w.commits ∧ w'.database.schema = w.database.schema ∧
      w'.database.recorded = w.database.recorded) ∨
    ∃ m ∈ migrations, m.version ∉ w.database.recordedVersions ∧
      w'.commits = w.commits ++ [(p, m)] ∧
      execute m.sql w.database.schema = some w'.database.schema ∧
      w'.database.recorded = w.database.recorded ++ [m.row] ∧
      (ordered → w'.database.recordedVersions <+: migrations.map (·.version))

theorem Turn.idle {migrations : List PostgresMigration} (hcommits : w'.commits = w.commits)
    (hdatabase : w'.database = w.database)
    (hholder : ∀ q, q ≠ p → w.holder = some q → w'.holder = some q) :
    Turn ordered execute p migrations w w' := by
  refine ⟨fun q _ ↦ ?_, fun q hq hw ↦ ⟨hholder q hq hw, hdatabase⟩, .inl ⟨hcommits, ?_, ?_⟩⟩
  · unfold World.appliedBy
    rw [hcommits]
  · rw [hdatabase]
  · rw [hdatabase]

theorem Turn.refl {migrations : List PostgresMigration} :
    Turn ordered execute p migrations w w :=
  .idle rfl rfl fun _ _ h ↦ h

theorem Turn.release {migrations : List PostgresMigration} :
    Turn ordered execute p migrations w (w.release p) := by
  refine .idle rfl rfl fun q hq h ↦ ?_
  have hne : w.holder ≠ some p := by
    rw [h]
    simpa using hq
  exact (if_neg hne).trans h

theorem appliedBy_commit {m : PostgresMigration} (h : w'.commits = w.commits ++ [(p, m)]) :
    w'.appliedBy q = w.appliedBy q ++ if p = q then [m.version] else [] := by
  unfold World.appliedBy
  rw [h]
  by_cases hpq : p = q <;> simp [hpq]

/-- A stage, in the world its turn leaves. -/
def Stage.Fits (ordered : Prop) (execute : String → σ → Option σ) (w : World σ) (p : ℕ)
    (migrations : List PostgresMigration) (stage : Stage σ) : Prop :=
  stage.Settled ordered w p ∧
    (stage.Inside → w.holder = some p ∧ stage.Current ordered execute w.database migrations)

theorem inspect_fits {migrations : List PostgresMigration} {whole : List ℤ}
    {applied : List AppliedPostgresMigration}
    (hinc : migrations.Pairwise fun a b ↦ a.version < b.version)
    (hlisted : migrations.map (·.version) <+: whole)
    (hordered : ordered → w.database.recordedVersions <+: whole)
    (hread : applied.Perm w.database.recorded) (hnone : w.appliedBy p = []) :
    (inspect migrations applied : Stage σ).Settled ordered w p ∧
      (inspect migrations applied : Stage σ).Current ordered execute w.database migrations := by
  unfold inspect
  by_cases hunexpected : (applied.filter fun row ↦ !migrations.any (·.version = row.version)) ≠ []
  · simp only [if_pos hunexpected]
    exact ⟨fun _ _ ↦ hnone, trivial⟩
  · simp only [if_neg hunexpected]
    refine (InLoop.start hread fun hord ↦ ?_).advance hinc hnone.symm
    -- Every recorded version is listed, and both lists are prefixes of the same list.
    refine prefix_of_subset (hordered hord) hlisted w.database.recordedVersions_nodup fun v hv ↦ ?_
    obtain ⟨row, hrow, rfl⟩ := List.mem_map.1 (Database.mem_recordedVersions.1 hv)
    have hknown := List.filter_eq_nil_iff.1 (not_not.1 hunexpected) row (hread.mem_iff.2 hrow)
    simpa [List.any_eq_true] using hknown

/-- A commit applies the migration and records it. -/
theorem commit_turn {migrations rest : List PostgresMigration} {m : PostgresMigration}
    {progress : Progress}
    (hinc : migrations.Pairwise fun a b ↦ a.version < b.version)
    (happlied : progress.appliedVersions = w.appliedBy p)
    (hloop : InLoop ordered w.database migrations (m :: rest) progress)
    (hmissing : m.version ∉ w.database.recordedVersions)
    (hdraft : (TransactionStatement.commit w'.database).Drafted execute w.database m)
    (hholder : w.holder = some p) (hholder' : w'.holder = some p)
    (hcommits : w'.commits = w.commits ++ [(p, m)]) :
    Turn ordered execute p migrations w w' ∧
      (advance rest (progress.record m) : Stage σ).Fits ordered execute w' p migrations := by
  have hloop' : InLoop ordered w'.database migrations rest (progress.record m) :=
    hloop.record hinc hmissing hdraft.2
  refine ⟨⟨fun q hq ↦ ?_, fun q hq hw ↦ ?_, .inr ⟨m, ?_, hmissing, hcommits, hdraft.1, hdraft.2,
    hloop'.leads⟩⟩, ?_⟩
  · rw [appliedBy_commit hcommits, if_neg (Ne.symm hq), List.append_nil]
  · rw [hholder] at hw
    exact absurd (Option.some.inj hw).symm hq
  · obtain ⟨done, hsplit, -⟩ := hloop.behind
    simp [hsplit]
  · have hprogress : (progress.record m).appliedVersions = w'.appliedBy p := by
      rw [appliedBy_commit hcommits, if_pos rfl, ← happlied]
      rfl
    obtain ⟨hsettled, hcurrent⟩ := hloop'.advance hinc hprogress
    exact ⟨hsettled, fun _ ↦ ⟨hholder', hcurrent⟩⟩

/-- **The turn of a statement.** -/
theorem Stage.perform_turn {next : Stage σ} {whole : List ℤ} (hr : r.Sound ordered execute w p)
    (hconnected : r.connected = true) (hlisted : r.migrations.map (·.version) <+: whole)
    (hordered : ordered → w.database.recordedVersions <+: whole)
    (h : r.stage.perform execute w p r.migrations = some (w', next)) :
    Turn ordered execute p r.migrations w w' ∧ next.Fits ordered execute w' p r.migrations := by
  obtain ⟨migrations, connected, stage⟩ := r
  obtain ⟨hinc, hsettled, hholds⟩ := hr
  replace hholds := hholds hconnected
  rcases stage with _ | _ | _ | ⟨next | index | _ | draft | draft, m, rest, progress⟩ | error |
    result | _
  case locking =>
    simp only [Stage.perform, Option.ite_none_right_eq_some, Option.some.injEq,
      Prod.mk.injEq] at h
    obtain ⟨hfree, rfl, rfl⟩ := h
    refine ⟨.idle rfl rfl fun q _ hq ↦ ?_, hsettled, fun _ ↦ ⟨rfl, trivial⟩⟩
    rw [hfree] at hq
    cases hq
  case ensuring =>
    obtain ⟨hholder, -⟩ := hholds trivial
    obtain ⟨rfl, rfl⟩ := Prod.mk.inj (Option.some.inj h)
    refine ⟨⟨fun _ _ ↦ rfl, fun q hq hw ↦ ?_, .inl ⟨rfl, rfl, ?_⟩⟩, hsettled,
      fun _ ↦ ⟨hholder, trivial⟩⟩
    · rw [hholder] at hw
      exact absurd (Option.some.inj hw).symm hq
    · exact recorded_ensureMigrationLedger _
  case reading =>
    obtain ⟨hholder, -⟩ := hholds trivial
    unfold Stage.perform at h
    cases hread : readAppliedMigrations w.database with
    | none =>
      simp only [hread, Option.some.injEq, Prod.mk.injEq] at h
      obtain ⟨rfl, rfl⟩ := h
      exact ⟨.refl, Stage.Settled.failed hsettled fun _ ↦ rfl, fun _ ↦ ⟨hholder, trivial⟩⟩
    | some applied =>
      simp only [hread, Option.some.injEq, Prod.mk.injEq] at h
      obtain ⟨rfl, rfl⟩ := h
      obtain ⟨hsettled', hcurrent⟩ := inspect_fits hinc hlisted hordered
        (readAppliedMigrations_perm hread) hsettled
      exact ⟨.refl, hsettled', fun _ ↦ ⟨hholder, hcurrent⟩⟩
  case transaction.begin =>
    obtain ⟨hholder, hloop, hmissing, -⟩ := hholds trivial
    obtain ⟨rfl, rfl⟩ := Prod.mk.inj (Option.some.inj h)
    exact ⟨.refl, hsettled, fun _ ↦ ⟨hholder, hloop, hmissing, trivial⟩⟩
  case transaction.setting =>
    obtain ⟨hholder, hloop, hmissing, -⟩ := hholds trivial
    obtain ⟨rfl, rfl⟩ := Prod.mk.inj (Option.some.inj h)
    refine ⟨.refl, hsettled, fun _ ↦ ⟨hholder, hloop, hmissing, ?_⟩⟩
    by_cases hmore : index < 4
    · rw [if_pos hmore]
      trivial
    · rw [if_neg hmore]
      trivial
  case transaction.sql =>
    obtain ⟨hholder, hloop, hmissing, -⟩ := hholds trivial
    unfold Stage.perform at h
    cases hsql : execute m.sql w.database.schema with
    | none =>
      simp only [hsql, Option.some.injEq, Prod.mk.injEq] at h
      obtain ⟨rfl, rfl⟩ := h
      exact ⟨.refl, rfl, fun _ ↦ ⟨hholder, trivial⟩⟩
    | some schema =>
      simp only [hsql, Option.some.injEq, Prod.mk.injEq] at h
      obtain ⟨rfl, rfl⟩ := h
      exact ⟨.refl, hsettled, fun _ ↦ ⟨hholder, hloop, hmissing, hsql, rfl⟩⟩
  case transaction.insert =>
    obtain ⟨hholder, hloop, hmissing, hsql, hrows⟩ := hholds trivial
    unfold Stage.perform at h
    cases hinsert : insertApplied draft m with
    | none =>
      simp only [hinsert, Option.some.injEq, Prod.mk.injEq] at h
      obtain ⟨rfl, rfl⟩ := h
      exact ⟨.refl, rfl, fun _ ↦ ⟨hholder, trivial⟩⟩
    | some draft' =>
      simp only [hinsert, Option.some.injEq, Prod.mk.injEq] at h
      obtain ⟨rfl, rfl⟩ := h
      obtain ⟨hschema, happend⟩ := insertApplied_eq_some hinsert
      refine ⟨.refl, hsettled, fun _ ↦ ⟨hholder, hloop, hmissing, ?_, ?_⟩⟩
      · rw [hschema]
        exact hsql
      · rw [happend, hrows]
  case transaction.commit =>
    obtain ⟨hholder, hloop, hmissing, hdraft⟩ := hholds trivial
    obtain ⟨rfl, rfl⟩ := Prod.mk.inj (Option.some.inj h)
    exact commit_turn hinc hsettled hloop hmissing hdraft hholder hholder rfl
  case rollingBack =>
    obtain ⟨hholder, -⟩ := hholds trivial
    obtain ⟨rfl, rfl⟩ := Prod.mk.inj (Option.some.inj h)
    refine ⟨.refl, fun _ hrejects ↦ ?_, fun _ ↦ ⟨hholder, trivial⟩⟩
    rw [show error.rejects = false from hsettled] at hrejects
    cases hrejects
  case unlocking =>
    obtain ⟨rfl, rfl⟩ := Prod.mk.inj (Option.some.inj h)
    refine ⟨.release, ?_, False.elim⟩
    cases result with
    | ok _ => trivial
    | error error => exact hsettled
  case finished => cases h

/-- A statement whose answer is lost leaves the lock where it was, if the run goes on. -/
theorem Stage.perform_holder {next : Stage σ} {migrations : List PostgresMigration}
    (hinside : stage.failed.Inside)
    (h : stage.perform execute w p migrations = some (w', next)) : w'.holder = w.holder := by
  rcases stage with _ | _ | _ | ⟨_ | _ | _ | draft | _, m, rest, progress⟩ | _ | ⟨_ | _⟩ | _
  case reading =>
    unfold Stage.perform at h
    cases hread : readAppliedMigrations w.database <;> simp_all
  case transaction.sql =>
    unfold Stage.perform at h
    cases hsql : execute m.sql w.database.schema <;> simp_all
  case transaction.insert =>
    unfold Stage.perform at h
    cases hinsert : insertApplied draft m <;> simp_all
  case locking => exact hinside.elim
  case unlocking.error => exact hinside.elim
  case unlocking.ok => exact hinside.elim
  case finished => exact hinside.elim
  all_goals
    obtain ⟨rfl, rfl⟩ := Prod.mk.inj (Option.some.inj h)
    rfl

theorem Stage.unlocked_outside (result : Except MigrationError MigrationRunResult) :
    ¬ (Stage.unlocking result : Stage σ).failed.Inside := by
  cases result <;> exact id

/-- **The turn of a run**, whether its statement is answered or throws. -/
theorem Run.statement_turn {next : Stage σ} {whole : List ℤ} {reply : Reply}
    (hr : r.Sound ordered execute w p) (hlisted : r.migrations.map (·.version) <+: whole)
    (hordered : ordered → w.database.recordedVersions <+: whole)
    (h : r.statement execute w p reply = some (w', next)) :
    Turn ordered execute p r.migrations w w' ∧
      Run.Sound ordered execute w' p { r with stage := next } := by
  have hthrows : ∀ w' next, r.throws w p = some (w', next) →
      Turn ordered execute p r.migrations w w' ∧
        Run.Sound ordered execute w' p { r with stage := next } := by
    intro w' next h
    have hcase : next = r.stage.failed ∧
        (w' = w ∨ w' = w.release p ∧ ¬ r.stage.failed.Inside) := by
      unfold Run.throws at h
      split at h
      · cases h
      · next hstage =>
        obtain ⟨rfl, rfl⟩ := Prod.mk.inj (Option.some.inj h)
        refine ⟨rfl, .inr ⟨rfl, ?_⟩⟩
        rw [hstage]
        exact Stage.unlocked_outside _
      · obtain ⟨rfl, rfl⟩ := Prod.mk.inj (Option.some.inj h)
        exact ⟨rfl, .inl rfl⟩
    obtain ⟨rfl, rfl | ⟨rfl, hout⟩⟩ := hcase
    · refine ⟨.refl, hr.increasing, hr.settled.failed fun _ ↦ rfl, fun hconnected hinside ↦ ?_⟩
      exact ⟨(hr.holds hconnected (Stage.inside_of_failed hinside)).1,
        Stage.failed_current hinside⟩
    · exact ⟨.release, hr.increasing, hr.settled.failed fun _ ↦ rfl,
        fun _ hinside ↦ absurd hinside hout⟩
  by_cases hconnected : r.connected = true
  · cases reply with
    | failed => exact hthrows w' next h
    | done =>
      rw [Run.statement, if_pos hconnected] at h
      obtain ⟨hturn, hsettled, hholds⟩ := Stage.perform_turn hr hconnected hlisted hordered h
      exact ⟨hturn, hr.increasing, hsettled, fun _ ↦ hholds⟩
    | lost =>
      rw [Run.statement, if_pos hconnected] at h
      obtain ⟨⟨w₁, next₁⟩, hperform, heq⟩ := Option.map_eq_some_iff.1 h
      obtain ⟨rfl, rfl⟩ := Prod.mk.inj heq
      have hturn := (Stage.perform_turn hr hconnected hlisted hordered hperform).1
      refine ⟨hturn, hr.increasing, hr.settled.failed ?_, fun _ hinside ↦ ?_⟩
      · rintro ⟨result, hstage | hstage⟩
        · rw [hstage] at hperform
          obtain ⟨rfl, -⟩ := Prod.mk.inj (Option.some.inj hperform)
          rfl
        · rw [hstage] at hperform
          cases hperform
      · refine ⟨?_, Stage.failed_current hinside⟩
        rw [Stage.perform_holder hinside hperform]
        exact (hr.holds hconnected (Stage.inside_of_failed hinside)).1
  · have hthrow : r.throws w p = some (w', next) := by
      cases reply with
      | failed => exact h
      | done =>
        rw [Run.statement, if_neg hconnected] at h
        exact h
      | lost =>
        rw [Run.statement, if_neg hconnected] at h
        exact h
    exact hthrows w' next hthrow

end Stages

/-! ## The system -/

section System

variable {σ : Type*} {ordered : Prop} {execute : String → σ → Option σ}
  {checksum : String → String} {database₀ : Database σ} {s s' : Sys σ} {a : Act}

/-- The invariant of the system. -/
structure Sys.Sound (ordered : Prop) (execute : String → σ → Option σ)
    (checksum : String → String) (database₀ : Database σ) (s : Sys σ) : Prop where
  /-- Every directory deployed so far is the beginning of the last one. -/
  deployed : ∀ directory ∈ s.directories,
    sortedMigrations checksum directory <+: sortedMigrations checksum s.directory
  /-- Every run is sound, and listed such a beginning. -/
  runs : ∀ (p : ℕ) (r : Run σ), s.runs[p]? = some r → r.Sound ordered execute s.toWorld p ∧
    r.migrations <+: sortedMigrations checksum s.directory
  /-- Only runs commit. -/
  committers : ∀ c ∈ s.commits, c.1 < s.runs.length
  /-- The ledger holds what it held and a row for every commit. -/
  ledger : s.database.recorded = database₀.recorded ++ s.commits.map (·.2.row)
  /-- The schema is what the committed migrations made of it. -/
  effects : s.commits.foldlM (fun schema c ↦ execute c.2.sql schema) database₀.schema =
    some s.database.schema
  /-- The recorded versions are the first of the available ones. -/
  leads : ordered → s.database.recordedVersions <+: availableVersions checksum s.directory

theorem appliedBy_of_length (hs : s.Sound ordered execute checksum database₀) {p : ℕ}
    (hp : s.runs.length ≤ p) : s.appliedBy p = [] := by
  unfold World.appliedBy
  have hnone : s.commits.filter (fun c ↦ decide (c.1 = p)) = [] := by
    rw [List.filter_eq_nil_iff]
    intro c hc
    have hlt := hs.committers c hc
    simp only [decide_eq_true_eq]
    omega
  rw [hnone]
  rfl

theorem Run.Sound.of_turn {w w' : World σ} {p q : ℕ} {r : Run σ}
    {migrations : List PostgresMigration} (h : r.Sound ordered execute w q) (hne : q ≠ p)
    (hturn : Turn ordered execute p migrations w w') : r.Sound ordered execute w' q := by
  refine ⟨h.increasing, ?_, fun hconnected hinside ↦ ?_⟩
  · have hsettled := h.settled
    unfold Stage.Settled at hsettled ⊢
    rw [hturn.others q hne]
    exact hsettled
  · obtain ⟨hholder, hcurrent⟩ := h.holds hconnected hinside
    obtain ⟨hholder', hdatabase⟩ := hturn.holder q hne hholder
    rw [hdatabase]
    exact ⟨hholder', hcurrent⟩

theorem runPostgresMigrations_sound {purpose : DatabasePurpose}
    {directory : List DirectoryEntry} {w : World σ} {p : ℕ} (hnone : w.appliedBy p = []) :
    (runPostgresMigrations checksum purpose directory).Sound ordered execute w p ∧
      (runPostgresMigrations checksum purpose directory : Run σ).migrations <+:
        sortedMigrations checksum directory := by
  unfold runPostgresMigrations
  by_cases hpurpose : purpose ≠ .migration
  · rw [if_pos hpurpose]
    exact ⟨⟨List.Pairwise.nil, fun _ _ ↦ hnone, fun _ h ↦ h.elim⟩, List.nil_prefix⟩
  · rw [if_neg hpurpose]
    cases hlist : listPostgresMigrations checksum directory with
    | error error => exact ⟨⟨List.Pairwise.nil, fun _ _ ↦ hnone, fun _ h ↦ h.elim⟩, List.nil_prefix⟩
    | ok migrations =>
      obtain ⟨rfl, hinc⟩ := increasing_of_list hlist
      exact ⟨⟨hinc, hnone, fun _ h ↦ h.elim⟩, List.prefix_rfl⟩

/-- A turn of a run keeps the invariant. -/
theorem Sys.Sound.turn (hs : s.Sound ordered execute checksum database₀) {p : ℕ} {r r' : Run σ}
    {w : World σ} (hp : s.runs[p]? = some r) (hmigrations : r'.migrations = r.migrations)
    (hturn : Turn ordered execute p r.migrations s.toWorld w)
    (hr' : r'.Sound ordered execute w p) :
    ({ s with toWorld := w, runs := s.runs.set p r' } : Sys σ).Sound ordered execute checksum
      database₀ := by
  obtain ⟨hp', hget⟩ := List.getElem?_eq_some_iff.1 hp
  have hlisted := (hs.runs p r hp).2
  refine ⟨hs.deployed, fun q r₁ hq ↦ ?_, fun c hc ↦ ?_, ?_, ?_, fun hord ↦ ?_⟩
  · by_cases heq : p = q
    · subst heq
      obtain rfl : r' = r₁ := by
        have hset : (s.runs.set p r')[p]? = some r' := by simp [hp']
        exact Option.some.inj (hset.symm.trans hq)
      rw [hmigrations]
      exact ⟨hr', hlisted⟩
    · have hold : s.runs[q]? = some r₁ := by
        rw [← hq]
        exact (List.getElem?_set_ne heq).symm
      obtain ⟨hsound, hbegins⟩ := hs.runs q r₁ hold
      exact ⟨hsound.of_turn (Ne.symm heq) hturn, hbegins⟩
  · change c.1 < (s.runs.set p r').length
    rw [List.length_set]
    rcases hturn.writes with ⟨hcommits, -⟩ | ⟨m, -, -, hcommits, -⟩
    · rw [show _ = _ from hcommits] at hc
      exact hs.committers c hc
    · rw [show _ = _ from hcommits] at hc
      rcases List.mem_append.1 hc with hold | hnew
      · exact hs.committers c hold
      · rw [List.mem_singleton.1 hnew]
        exact hp'
  · change w.database.recorded = _ ++ w.commits.map _
    rcases hturn.writes with ⟨hcommits, -, hrecorded⟩ | ⟨m, -, -, hcommits, -, hrecorded, -⟩
    · rw [hcommits, hrecorded]
      exact hs.ledger
    · rw [hcommits, hrecorded, hs.ledger, List.map_append, List.append_assoc]
      rfl
  · change w.commits.foldlM _ _ = some w.database.schema
    rcases hturn.writes with ⟨hcommits, hschema, -⟩ | ⟨m, -, -, hcommits, hschema, -⟩
    · rw [hcommits, hschema]
      exact hs.effects
    · rw [hcommits, List.foldlM_append, hs.effects]
      simpa using hschema
  · change w.database.recordedVersions <+: _
    rcases hturn.writes with ⟨-, -, hrecorded⟩ | ⟨m, -, -, -, -, -, hleads⟩
    · unfold Database.recordedVersions
      rw [hrecorded]
      exact hs.leads hord
    · exact (hleads hord).trans (hlisted.map _)

theorem Sys.Sound.step (hs : s.Sound ordered execute checksum database₀)
    (h : step execute checksum a s = some s') : s'.Sound ordered execute checksum database₀ := by
  cases a with
  | deploy directory =>
    obtain ⟨⟨hbegins, -⟩, rfl⟩ : Grows checksum s.directory directory ∧ _ = s' := by
      simpa [Migration.step] using h
    have hlast : ({ s with directories := s.directories ++ [directory] } : Sys σ).directory =
        directory := by
      simp [Sys.directory]
    refine ⟨fun d hd ↦ ?_, fun p r hp ↦ ?_, hs.committers, hs.ledger, hs.effects, fun hord ↦ ?_⟩
    · rw [hlast]
      rcases List.mem_append.1 hd with hold | hnew
      · exact (hs.deployed d hold).trans hbegins
      · exact List.mem_singleton.1 hnew ▸ List.prefix_rfl
    · rw [hlast]
      obtain ⟨hsound, hlisted⟩ := hs.runs p r hp
      exact ⟨hsound, hlisted.trans hbegins⟩
    · rw [hlast]
      exact (hs.leads hord).trans (hbegins.map _)
  | start purpose deployment =>
    obtain ⟨directory, hdirectory, rfl⟩ := Option.map_eq_some_iff.1 h
    have hbegins := hs.deployed directory (List.mem_of_getElem? hdirectory)
    refine ⟨hs.deployed, fun p r hp ↦ ?_, fun c hc ↦ ?_, hs.ledger, hs.effects, hs.leads⟩
    · by_cases hlt : p < s.runs.length
      · have hold : s.runs[p]? = some r := by
          rw [← hp]
          exact (List.getElem?_append_left hlt).symm
        exact hs.runs p r hold
      · have hnew :
            (runPostgresMigrations checksum purpose directory).Sound ordered execute s.toWorld p ∧
              (runPostgresMigrations checksum purpose directory : Run σ).migrations <+:
                sortedMigrations checksum directory :=
          runPostgresMigrations_sound (appliedBy_of_length hs (Nat.le_of_not_lt hlt))
        have hr : runPostgresMigrations checksum purpose directory = r := by
          have hmem : r ∈ [runPostgresMigrations checksum purpose directory] := by
            refine List.mem_of_getElem? (i := p - s.runs.length) ?_
            rw [← hp]
            exact (List.getElem?_append_right (Nat.le_of_not_lt hlt)).symm
          exact (List.mem_singleton.1 hmem).symm
        rw [← hr]
        exact ⟨hnew.1, hnew.2.trans hbegins⟩
    · have hlt := hs.committers c hc
      simp only [List.length_append, List.length_singleton]
      omega
  | statement p reply =>
    obtain ⟨r, hp, hr⟩ := Option.bind_eq_some_iff.1 h
    obtain ⟨⟨w, stage⟩, hstatement, rfl⟩ := Option.map_eq_some_iff.1 hr
    obtain ⟨hsound, hlisted⟩ := hs.runs p r hp
    obtain ⟨hturn, hr'⟩ := Run.statement_turn hsound (hlisted.map _) hs.leads hstatement
    exact hs.turn hp rfl hturn hr'
  | endSession p =>
    obtain ⟨r, hp, rfl⟩ := Option.map_eq_some_iff.1 h
    have hr := (hs.runs p r hp).1
    refine hs.turn hp rfl .release ⟨hr.increasing, hr.settled, fun hconnected ↦ ?_⟩
    cases hconnected

theorem Sys.Sound.initial {directory : List DirectoryEntry} :
    (Sys.initial directory database₀).Sound
      (database₀.recordedVersions <+: availableVersions checksum directory) execute checksum
        database₀ := by
  refine ⟨fun d hd ↦ ?_, fun p r hp ↦ ?_, fun c hc ↦ ?_, ?_, rfl, id⟩
  · rw [List.mem_singleton.1 hd]
    exact List.prefix_rfl
  · cases hp
  · cases hc
  · exact (List.append_nil _).symm

end System

/-! ## The results -/

section Results

variable {σ : Type*} {ordered : Prop} {execute : String → σ → Option σ}
  {checksum : String → String} {database₀ : Database σ} {s s' : Sys σ}

/-- The loop does not return by itself: the unlock comes last. -/
theorem advance_running {todo : List PostgresMigration} {progress : Progress}
    {result : MigrationRunResult} : (advance todo progress : Stage σ) ≠ .finished (.ok result) := by
  induction todo with
  | nil => exact nofun
  | cons m rest ih =>
    unfold advance
    cases progress.appliedByVersion.find? (·.version = m.version) with
    | none => exact nofun
    | some recorded =>
      by_cases hmatch : recorded.checksum ≠ m.checksum ∨ recorded.name ≠ m.name
      · simp only [if_pos hmatch]
        exact nofun
      · simp only [if_neg hmatch]
        exact ih

theorem inspect_running {migrations : List PostgresMigration}
    {applied : List AppliedPostgresMigration} {result : MigrationRunResult} :
    (inspect migrations applied : Stage σ) ≠ .finished (.ok result) := by
  unfold inspect
  by_cases hunexpected : (applied.filter fun row ↦ !migrations.any (·.version = row.version)) ≠ []
  · simp only [if_pos hunexpected]
    exact nofun
  · simp only [if_neg hunexpected]
    exact advance_running

theorem Stage.perform_returns {w w' : World σ} {p : ℕ} {migrations : List PostgresMigration}
    {stage : Stage σ} {result : MigrationRunResult}
    (h : stage.perform execute w p migrations = some (w', .finished (.ok result))) :
    stage = .unlocking (.ok result) ∧ w' = w.release p := by
  rcases stage with _ | _ | _ | ⟨_ | _ | _ | draft | _, m, rest, progress⟩ | error | result' | _
  case locking =>
    simp [Stage.perform] at h
  case reading =>
    unfold Stage.perform at h
    cases hread : readAppliedMigrations w.database with
    | none => simp [hread, Stage.failed] at h
    | some applied =>
      simp only [hread, Option.some.injEq, Prod.mk.injEq] at h
      exact absurd h.2 inspect_running
  case transaction.sql =>
    unfold Stage.perform at h
    cases hsql : execute m.sql w.database.schema <;> simp [hsql] at h
  case transaction.insert =>
    unfold Stage.perform at h
    cases hinsert : insertApplied draft m <;> simp [hinsert] at h
  case transaction.commit =>
    exact absurd (Prod.mk.inj (Option.some.inj h)).2 advance_running
  case unlocking =>
    obtain ⟨rfl, hresult⟩ := Prod.mk.inj (Option.some.inj h)
    rw [Stage.finished.inj hresult]
    exact ⟨rfl, rfl⟩
  all_goals simp [Stage.perform] at h

/-- A run returns when its unlock is answered. -/
theorem Run.statement_returns {w w' : World σ} {p : ℕ} {r : Run σ} {reply : Reply}
    {result : MigrationRunResult}
    (h : r.statement execute w p reply = some (w', .finished (.ok result))) :
    r.connected = true ∧ r.stage = .unlocking (.ok result) ∧ w' = w.release p := by
  have hfailed : ∀ stage : Stage σ, (∀ result, stage ≠ .finished result) →
      stage.failed ≠ .finished (.ok result) := by
    intro stage hrunning
    rcases stage with _ | _ | _ | ⟨_ | _ | _ | _ | _, m, rest, progress⟩ | error | ⟨_ | _⟩ | _
    case finished result => exact absurd rfl (hrunning result)
    all_goals exact nofun
  have hthrows : r.throws w p ≠ some (w', .finished (.ok result)) := by
    intro h
    unfold Run.throws at h
    split at h
    · cases h
    · next hstage =>
      exact hfailed _ (by rw [hstage]; exact nofun) (Prod.mk.inj (Option.some.inj h)).2
    · next hstage _ => exact hfailed _ hstage (Prod.mk.inj (Option.some.inj h)).2
  by_cases hconnected : r.connected = true
  · refine ⟨hconnected, ?_⟩
    cases reply with
    | failed => exact absurd h hthrows
    | done =>
      rw [Run.statement, if_pos hconnected] at h
      exact Stage.perform_returns h
    | lost =>
      rw [Run.statement, if_pos hconnected] at h
      obtain ⟨⟨w₁, next₁⟩, hperform, heq⟩ := Option.map_eq_some_iff.1 h
      refine absurd (Prod.mk.inj heq).2 (hfailed _ fun result hstage ↦ ?_)
      rw [hstage] at hperform
      cases hperform
  · refine absurd ?_ hthrows
    cases reply with
    | failed => exact h
    | done =>
      rw [Run.statement, if_neg hconnected] at h
      exact h
    | lost =>
      rw [Run.statement, if_neg hconnected] at h
      exact h

/-- Everything listed is recorded, and the runs from `first` on over that listing have applied
nothing. -/
structure Sys.Exhausted (migrations : List PostgresMigration) (first : ℕ) (s : Sys σ) : Prop where
  later : first ≤ s.runs.length
  recorded : ∀ m ∈ migrations, m.version ∈ s.database.recordedVersions
  idle : ∀ (q : ℕ) (r : Run σ), first ≤ q → s.runs[q]? = some r → r.migrations = migrations →
    s.appliedBy q = []

theorem Turn.recorded_mono {w w' : World σ} {p : ℕ} {migrations : List PostgresMigration}
    (h : Turn ordered execute p migrations w w') {v : ℤ}
    (hv : v ∈ w.database.recordedVersions) : v ∈ w'.database.recordedVersions := by
  rw [Database.mem_recordedVersions] at hv ⊢
  rcases h.writes with ⟨-, -, hrecorded⟩ | ⟨m, -, -, -, -, hrecorded, -⟩
  · rw [hrecorded]
    exact hv
  · rw [hrecorded, List.map_append]
    exact List.mem_append_left _ hv

/-- A run whose migrations are all recorded has nothing to commit. -/
theorem Turn.appliedBy_eq {w w' : World σ} {p : ℕ} {migrations : List PostgresMigration}
    (h : Turn ordered execute p migrations w w')
    (hall : ∀ m ∈ migrations, m.version ∈ w.database.recordedVersions) :
    w'.appliedBy p = w.appliedBy p := by
  rcases h.writes with ⟨hcommits, -⟩ | ⟨m, hm, hmissing, -⟩
  · unfold World.appliedBy
    rw [hcommits]
  · exact absurd (hall m hm) hmissing

theorem Sys.Exhausted.turn {migrations : List PostgresMigration} {first p : ℕ} {r r' : Run σ}
    {w : World σ} (h : s.Exhausted migrations first) (hp : s.runs[p]? = some r)
    (hmigrations : r'.migrations = r.migrations)
    (hturn : Turn ordered execute p r.migrations s.toWorld w) :
    ({ s with toWorld := w, runs := s.runs.set p r' } : Sys σ).Exhausted migrations first := by
  refine ⟨?_, fun m hm ↦ hturn.recorded_mono (h.recorded m hm), fun q r₁ hq hr₁ hlisting ↦ ?_⟩
  · simpa using h.later
  · change w.appliedBy q = []
    by_cases heq : p = q
    · subst heq
      obtain ⟨hp', -⟩ := List.getElem?_eq_some_iff.1 hp
      obtain rfl : r' = r₁ := by
        have hset : (s.runs.set p r')[p]? = some r' := by simp [hp']
        exact Option.some.inj (hset.symm.trans hr₁)
      rw [hmigrations] at hlisting
      rw [hturn.appliedBy_eq fun m hm ↦ h.recorded m (hlisting ▸ hm)]
      exact h.idle p r hq hp hlisting
    · have hold : s.runs[q]? = some r₁ := by
        rw [← hr₁]
        exact (List.getElem?_set_ne heq).symm
      rw [hturn.others q (Ne.symm heq)]
      exact h.idle q r₁ hq hold hlisting

theorem Sys.Exhausted.step {migrations : List PostgresMigration} {first : ℕ} {a : Act}
    (h : s.Exhausted migrations first) (hs : s.Sound ordered execute checksum database₀)
    (hstep : step execute checksum a s = some s') : s'.Exhausted migrations first := by
  cases a with
  | deploy directory =>
    obtain ⟨-, rfl⟩ : Grows checksum s.directory directory ∧ _ = s' := by
      simpa [Migration.step] using hstep
    exact ⟨h.later, h.recorded, h.idle⟩
  | start purpose deployment =>
    obtain ⟨directory, -, rfl⟩ := Option.map_eq_some_iff.1 hstep
    refine ⟨?_, h.recorded, fun q r hq hr hlisting ↦ ?_⟩
    · simpa using Nat.le_succ_of_le h.later
    · by_cases hlt : q < s.runs.length
      · have hold : s.runs[q]? = some r := by
          rw [← hr]
          exact (List.getElem?_append_left hlt).symm
        exact h.idle q r hq hold hlisting
      · exact appliedBy_of_length hs (Nat.le_of_not_lt hlt)
  | statement p reply =>
    obtain ⟨r, hp, hr⟩ := Option.bind_eq_some_iff.1 hstep
    obtain ⟨⟨w, stage⟩, hstatement, rfl⟩ := Option.map_eq_some_iff.1 hr
    obtain ⟨hsound, hlisted⟩ := hs.runs p r hp
    exact h.turn hp rfl (Run.statement_turn hsound (hlisted.map _) hs.leads hstatement).1
  | endSession p =>
    obtain ⟨r, hp, rfl⟩ := Option.map_eq_some_iff.1 hstep
    exact h.turn hp rfl ((Turn.release : Turn ordered execute p r.migrations _ _))

/-- Once everything a run lists is recorded, a later run over the same listing applies nothing. -/
theorem Sys.Sound.repeated (hs : s.Sound ordered execute checksum database₀)
    {migrations : List PostgresMigration}
    (hall : ∀ m ∈ migrations, m.version ∈ s.database.recordedVersions) {later : List Act}
    {q : ℕ} {r : Run σ} (hlater : runActs (Migration.step execute checksum) s later = some s')
    (hq : s.runs.length ≤ q) (hr : s'.runs[q]? = some r) (hlisting : r.migrations = migrations) :
    s'.appliedBy q = [] := by
  have hstart : s.Exhausted migrations s.runs.length :=
    ⟨le_refl _, hall, fun q _ hq _ _ ↦ appliedBy_of_length hs hq⟩
  have hend : s'.Sound ordered execute checksum database₀ ∧
      s'.Exhausted migrations s.runs.length :=
    invariant_of_run (I := fun t ↦ t.Sound ordered execute checksum database₀ ∧
        t.Exhausted migrations s.runs.length)
      (fun _ _ _ h hstep ↦ ⟨h.1.step hstep, h.2.step h.1 hstep⟩) ⟨hs, hstart⟩ hlater
  exact hend.2.idle q r hq hr hlisting

/-- **Migrations are applied once, in order and all or nothing.** -/
theorem migrations_applied_once {directory : List DirectoryEntry} {database : Database σ}
    {acts : List Act}
    (hrun : runActs (step execute checksum) (Sys.initial directory database) acts = some s) :
    (database.recordedVersions <+: availableVersions checksum directory →
      s.database.recordedVersions <+: availableVersions checksum s.directory ∧
        ∀ (p : ℕ) (r : Run σ) (error : MigrationError), s.runs[p]? = some r →
          r.stage = .finished (.error error) → error.rejects = true → s.appliedBy p = []) ∧
    (s.database.recorded = database.recorded ++ s.commits.map (·.2.row) ∧
      s.commits.foldlM (fun schema c ↦ execute c.2.sql schema) database.schema =
        some s.database.schema ∧
      (s.database.recorded.map (·.version)).Nodup) ∧
    ∀ (p : ℕ) (reply : Reply) (s' : Sys σ) (r : Run σ) (result : MigrationRunResult),
      step execute checksum (.statement p reply) s = some s' → s'.runs[p]? = some r →
        r.stage = .finished (.ok result) →
          result.appliedVersions = s'.appliedBy p ∧
          result.currentVersions = s'.database.recordedVersions ∧
          result.latestVersion = s'.database.recordedVersions.getLast? ∧
          ∀ (later : List Act) (s'' : Sys σ) (q : ℕ) (r' : Run σ),
            runActs (step execute checksum) s' later = some s'' → s'.runs.length ≤ q →
              s''.runs[q]? = some r' → r'.migrations = r.migrations → s''.appliedBy q = [] := by
  have hs : s.Sound (database.recordedVersions <+: availableVersions checksum directory) execute
      checksum database :=
    invariant_of_run (fun _ _ _ hs hstep ↦ hs.step hstep) .initial hrun
  refine ⟨fun hord ↦ ⟨hs.leads hord, fun p r error hp hstage hrejects ↦ ?_⟩,
    ⟨hs.ledger, hs.effects, s.database.versions_nodup⟩, ?_⟩
  · have hsettled := (hs.runs p r hp).1.settled
    rw [hstage] at hsettled
    exact hsettled hord hrejects
  · intro p reply s' r result hstep hr hstage
    have hs' := hs.step hstep
    obtain ⟨r₀, hp, hr₀⟩ := Option.bind_eq_some_iff.1 hstep
    obtain ⟨⟨w, stage⟩, hstatement, rfl⟩ := Option.map_eq_some_iff.1 hr₀
    obtain ⟨hp', -⟩ := List.getElem?_eq_some_iff.1 hp
    obtain rfl : { r₀ with stage := stage } = r := by
      have hset : (s.runs.set p { r₀ with stage := stage })[p]? =
          some { r₀ with stage := stage } := by simp [hp']
      exact Option.some.inj (hset.symm.trans hr)
    obtain rfl : stage = .finished (.ok result) := hstage
    -- The unlock was answered, so the session held the lock to the end.
    obtain ⟨hconnected, hunlocking, rfl⟩ := Run.statement_returns hstatement
    have hsound := (hs.runs p r₀ hp).1
    have hsettled := hsound.settled
    have hholds := hsound.holds hconnected
    rw [hunlocking] at hsettled hholds
    obtain ⟨-, hcurrent, hlatest, hall⟩ := hholds trivial
    exact ⟨hsettled, hcurrent, hlatest, fun later s'' q r' hlater hq hr' hlisting ↦
      hs'.repeated hall hlater hq hr' hlisting⟩

end Results

namespace Specimen

/-- A directory with two migrations and a file that is none. -/
def directory : List DirectoryEntry :=
  [{ isFile := true, name := "002_b.sql", content := "b" },
    { isFile := true, name := "README.md", content := "" },
    { isFile := true, name := "001_a.sql", content := "a" }]

/-- The schema is the list of the statements it saw. -/
def execute (sql : String) (schema : List String) : Option (List String) := some (schema ++ [sql])

/-- Two runs; the first one applies everything, and then the second one takes the lock. -/
def acts : List Act :=
  [.start .migration 0, .start .migration 0] ++ List.replicate 22 (.statement 0 .done) ++
    List.replicate 4 (.statement 1 .done)

end Specimen

/-- Two runs over an empty database. -/
theorem specimen_migrations_applied :
    ∃ s : Sys (List String),
      runActs (step Specimen.execute id)
        (Sys.initial Specimen.directory { schema := [], ledger := none }) Specimen.acts = some s ∧
      s.database.recordedVersions = [1, 2] ∧
      s.database.recordedVersions <+: availableVersions id s.directory ∧
      s.database.recorded = s.commits.map (·.2.row) := by
  have hinitial : (⟨[], none⟩ : Database (List String)).recordedVersions <+:
      availableVersions id Specimen.directory := List.nil_prefix
  have hversions : (runActs (step Specimen.execute id)
      (Sys.initial Specimen.directory { schema := [], ledger := none }) Specimen.acts).map
        (fun s ↦ s.database.recordedVersions) = some [1, 2] := by decide +kernel
  obtain ⟨s, hrun, hrecorded⟩ := Option.map_eq_some_iff.1 hversions
  obtain ⟨hordered, hledger, -⟩ := migrations_applied_once hrun
  exact ⟨s, hrun, hrecorded, (hordered hinitial).1, hledger.1⟩

end Migration

end AlpacaTrading
