import Mathlib.Data.List.Sort
import AlpacaTrading.Lib.Run
import AlpacaTrading.Lib.Table
import AlpacaTrading.Lib.Text

/-!
# Migration runs

`runPostgresMigrations` lists the migration files, takes an advisory lock, reads the ledger
`schema_migrations` and applies what the ledger does not name, each migration in a transaction of
its own together with its ledger row.

Any number of runs are under way at once.  A statement is one step; it is answered, or it fails
without an effect, or it takes effect and the answer is lost.  A session can end between any two
statements: its lock is released and its transaction rolled back, and every later statement of the
run fails.  A process that dies is a session that ended and a run that takes no further step.

The SQL of a migration acts on a schema of any type.  It may fail, and it does not touch the ledger.
-/

namespace AlpacaTrading

namespace Migration

/-! ## The directory -/

/-- An entry of the migration directory. -/
structure DirectoryEntry where
  isFile : Bool
  name : String
  content : String
deriving DecidableEq

/-- A migration file.  The checksum is the digest of its text. -/
structure PostgresMigration where
  version : ℤ
  name : String
  checksum : String
  sql : String
deriving DecidableEq

/-- A row of `schema_migrations`. -/
structure AppliedPostgresMigration where
  version : ℤ
  name : String
  checksum : String
deriving DecidableEq

instance : Row AppliedPostgresMigration ℤ where
  key row := row.version
  clash a b := a.version = b.version
  dec _ _ := inferInstance
  symm h := h.symm
  clash_of_key h := h

/-- The ledger row of a migration. -/
def PostgresMigration.row (m : PostgresMigration) : AppliedPostgresMigration :=
  { version := m.version, name := m.name, checksum := m.checksum }

/-- The class `[a-z0-9]`. -/
def isNameStart (c : Char) : Bool := c.isLower || c.isDigit

/-- `migrationPattern`: three digits or more, an underscore, a name and the extension. -/
def migrationPattern (fileName : String) : Option (ℤ × String) := do
  let digits := fileName.toList.takeWhile Char.isDigit
  let version ← Text.digits? digits
  let stem ← match fileName.toList.drop digits.length with
    | '_' :: rest =>
      if ['.', 's', 'q', 'l'].isSuffixOf rest then some (rest.take (rest.length - 4)) else none
    | _ => none
  match stem with
  | first :: rest =>
    if 3 ≤ digits.length ∧ isNameStart first ∧
        rest.all fun c ↦ isNameStart c || c = '_' || c = '-' then
      some (version, String.ofList stem)
    else none
  | [] => none

/-- What is thrown.  The constructors without a code stand for errors of the database. -/
inductive MigrationError where
  | purposeRequired
  | versionDuplicate (version : ℤ)
  | versionUnknown (versions : List ℤ)
  | checksumMismatch (version : ℤ)
  | statement
  | rollback (operation : MigrationError)
  | unlock
  | aggregate (primary : MigrationError)
deriving DecidableEq

/-- The text of an error of the service itself. -/
def MigrationError.message : MigrationError → Option String
  | .purposeRequired => some "POSTGRES_MIGRATION_PURPOSE_REQUIRED"
  | .versionDuplicate version => some s!"POSTGRES_MIGRATION_VERSION_DUPLICATE:{version}"
  | .versionUnknown versions =>
    some ("POSTGRES_MIGRATION_VERSION_UNKNOWN:" ++ ",".intercalate (versions.map toString))
  | .checksumMismatch version => some s!"POSTGRES_MIGRATION_CHECKSUM_MISMATCH:{version}"
  | .rollback _ => some "PostgreSQL transaction and rollback both failed."
  | .aggregate _ => some "PostgreSQL migration and advisory unlock both failed."
  | .statement => none
  | .unlock => none

/-- `POSTGRES_MIGRATION_VERSION_UNKNOWN` or `POSTGRES_MIGRATION_CHECKSUM_MISMATCH`, also when the
unlock fails afterwards. -/
def MigrationError.rejects : MigrationError → Bool
  | .versionUnknown _ => true
  | .checksumMismatch _ => true
  | .aggregate primary => primary.rejects
  | _ => false

/-- The migration files of a directory, in the order of their versions. -/
def sortedMigrations (checksum : String → String) (directory : List DirectoryEntry) :
    List PostgresMigration :=
  let read (entry : DirectoryEntry) : Option PostgresMigration :=
    (if entry.isFile then migrationPattern entry.name else none).map fun (version, name) ↦
      { version, name, checksum := checksum entry.content, sql := entry.content }
  (directory.filterMap read).insertionSort fun left right ↦ left.version ≤ right.version

/-- The first version that the migration before has, too. -/
def duplicateVersion : List PostgresMigration → Option ℤ
  | m :: m' :: rest => if m.version = m'.version then some m'.version else duplicateVersion (m' :: rest)
  | _ => none

/-- `listPostgresMigrations`. -/
def listPostgresMigrations (checksum : String → String) (directory : List DirectoryEntry) :
    Except MigrationError (List PostgresMigration) :=
  let migrations := sortedMigrations checksum directory
  match duplicateVersion migrations with
  | some version => .error (.versionDuplicate version)
  | none => .ok migrations

/-- The versions a directory offers, sorted. -/
def availableVersions (checksum : String → String) (directory : List DirectoryEntry) : List ℤ :=
  (sortedMigrations checksum directory).map (·.version)

/-! ## The database -/

/-- The schema the migrations build, and the ledger once it exists. -/
structure Database (σ : Type*) where
  schema : σ
  ledger : Option (Table AppliedPostgresMigration)

/-- The rows of the ledger, in the order of insertion. -/
def Database.recorded {σ : Type*} (d : Database σ) : List AppliedPostgresMigration :=
  (d.ledger.map (·.rows)).getD []

/-- The recorded versions, sorted. -/
def Database.recordedVersions {σ : Type*} (d : Database σ) : List ℤ :=
  (d.recorded.map (·.version)).insertionSort (· ≤ ·)

/-- `ensureMigrationLedger`. -/
def ensureMigrationLedger {σ : Type*} (d : Database σ) : Database σ :=
  { d with ledger := some (d.ledger.getD .empty) }

/-- `readAppliedMigrations`: the rows `ORDER BY version`. -/
def readAppliedMigrations {σ : Type*} (d : Database σ) : Option (List AppliedPostgresMigration) :=
  d.ledger.map fun ledger ↦ ledger.rows.insertionSort fun a b ↦ a.version ≤ b.version

/-- The `INSERT` into the ledger.  The version has to fit the `integer` column. -/
def insertApplied {σ : Type*} (d : Database σ) (m : PostgresMigration) : Option (Database σ) :=
  (d.ledger.bind fun ledger ↦
    if m.version ≤ 2147483647 then ledger.insert? m.row else none).map fun ledger ↦
      { d with ledger := some ledger }

/-! ## A run -/

/-- `PostgresMigrationRunResult`. -/
structure MigrationRunResult where
  appliedVersions : List ℤ
  currentVersions : List ℤ
  latestVersion : Option ℤ
deriving DecidableEq

/-- The local variables of the loop. -/
structure Progress where
  appliedVersions : List ℤ
  appliedByVersion : List AppliedPostgresMigration

/-- What the loop notes after a transaction. -/
def Progress.record (progress : Progress) (m : PostgresMigration) : Progress :=
  { appliedVersions := progress.appliedVersions ++ [m.version]
    appliedByVersion := progress.appliedByVersion ++ [m.row] }

/-- What a run returns at the end of the loop. -/
def Progress.result (progress : Progress) : MigrationRunResult :=
  let currentVersions := (progress.appliedByVersion.map (·.version)).insertionSort (· ≤ ·)
  { appliedVersions := progress.appliedVersions
    currentVersions
    latestVersion := currentVersions.getLast? }

/-- The next statement of a transaction.  After the migration's own SQL the transaction sees a
database of its own. -/
inductive TransactionStatement (σ : Type*) where
  | begin
  | setting (index : ℕ)
  | sql
  | insert (draft : Database σ)
  | commit (draft : Database σ)

/-- The next statement of a run. -/
inductive Stage (σ : Type*) where
  | locking
  | ensuring
  | reading
  | transaction (next : TransactionStatement σ) (m : PostgresMigration)
      (rest : List PostgresMigration) (progress : Progress)
  | rollingBack (error : MigrationError)
  | unlocking (result : Except MigrationError MigrationRunResult)
  | finished (result : Except MigrationError MigrationRunResult)

/-- The loop up to its next transaction. -/
def advance {σ : Type*} : List PostgresMigration → Progress → Stage σ
  | [], progress => .unlocking (.ok progress.result)
  | m :: rest, progress =>
    match progress.appliedByVersion.find? (·.version = m.version) with
    | some recorded =>
      if recorded.checksum ≠ m.checksum ∨ recorded.name ≠ m.name then
        .unlocking (.error (.checksumMismatch m.version))
      else advance rest progress
    | none => .transaction .begin m rest progress

/-- What follows the ledger's rows: the check for unknown versions, and the loop. -/
def inspect {σ : Type*} (migrations : List PostgresMigration)
    (applied : List AppliedPostgresMigration) : Stage σ :=
  let unexpected := applied.filter fun row ↦ !migrations.any (·.version = row.version)
  if unexpected ≠ [] then .unlocking (.error (.versionUnknown (unexpected.map (·.version))))
  else advance migrations { appliedVersions := [], appliedByVersion := applied }

/-- Where a run goes on when its next statement throws: the `catch` and `finally` blocks. -/
def Stage.failed {σ : Type*} : Stage σ → Stage σ
  | .locking => .finished (.error .statement)
  | .ensuring => .unlocking (.error .statement)
  | .reading => .unlocking (.error .statement)
  | .transaction .begin _ _ _ => .unlocking (.error .statement)
  | .transaction _ _ _ _ => .rollingBack .statement
  | .rollingBack error => .unlocking (.error (.rollback error))
  | .unlocking (.ok _) => .finished (.error .unlock)
  | .unlocking (.error primary) => .finished (.error (.aggregate primary))
  | .finished result => .finished result

/-- What the runs share: the database, the session that holds the advisory lock, and, for the
statements below, which run committed which migration, in order. -/
structure World (σ : Type*) where
  database : Database σ
  holder : Option ℕ
  commits : List (ℕ × PostgresMigration)

variable {σ : Type*}

/-- The lock of a session is released. -/
def World.release (w : World σ) (p : ℕ) : World σ :=
  { w with holder := if w.holder = some p then none else w.holder }

/-- The versions a run applied, in order. -/
def World.appliedBy (w : World σ) (p : ℕ) : List ℤ :=
  (w.commits.filter (·.1 = p)).map (·.2.version)

/-- The next statement of a run takes effect.  Taking the lock waits until it is free. -/
def Stage.perform (execute : String → σ → Option σ) (w : World σ) (p : ℕ)
    (migrations : List PostgresMigration) : Stage σ → Option (World σ × Stage σ)
  | .locking => if w.holder = none then some ({ w with holder := some p }, .ensuring) else none
  | .ensuring => some ({ w with database := ensureMigrationLedger w.database }, .reading)
  | .reading =>
    match readAppliedMigrations w.database with
    | none => some (w, Stage.failed .reading)
    | some applied => some (w, inspect migrations applied)
  | .transaction .begin m rest progress => some (w, .transaction (.setting 0) m rest progress)
  | .transaction (.setting index) m rest progress =>
    -- The isolation level and four timeouts.
    some (w, .transaction (if index < 4 then .setting (index + 1) else .sql) m rest progress)
  | .transaction .sql m rest progress =>
    match execute m.sql w.database.schema with
    | none => some (w, .rollingBack .statement)
    | some schema =>
      some (w, .transaction (.insert { w.database with schema := schema }) m rest progress)
  | .transaction (.insert draft) m rest progress =>
    match insertApplied draft m with
    | none => some (w, .rollingBack .statement)
    | some draft => some (w, .transaction (.commit draft) m rest progress)
  | .transaction (.commit draft) m rest progress =>
    some ({ w with database := draft, commits := w.commits ++ [(p, m)] },
      advance rest (progress.record m))
  | .rollingBack error => some (w, .unlocking (.error error))
  | .unlocking result => some (w.release p, .finished result)
  | .finished _ => none

/-- How a statement ends. -/
inductive Reply where
  | done
  | failed
  | lost
deriving DecidableEq

/-- A run, with the migrations it listed and whether its session is open. -/
structure Run (σ : Type*) where
  migrations : List PostgresMigration
  connected : Bool
  stage : Stage σ

/-- A statement that throws.  When it was the unlock the session is discarded. -/
def Run.throws (w : World σ) (p : ℕ) (r : Run σ) : Option (World σ × Stage σ) :=
  match r.stage with
  | .finished _ => none
  | .unlocking _ => some (w.release p, r.stage.failed)
  | _ => some (w, r.stage.failed)

/-- The next statement of a run, sent and answered. -/
def Run.statement (execute : String → σ → Option σ) (w : World σ) (p : ℕ) (r : Run σ) :
    Reply → Option (World σ × Stage σ)
  | .done =>
    if r.connected then r.stage.perform execute w p r.migrations else r.throws w p
  | .failed => r.throws w p
  | .lost =>
    if r.connected then
      (r.stage.perform execute w p r.migrations).map fun (w', _) ↦ (w', r.stage.failed)
    else r.throws w p

/-! ## The system -/

/-- `DatabasePurpose`. -/
inductive DatabasePurpose where
  | application
  | migration
  | backfill
deriving DecidableEq

/-- `runPostgresMigrations` up to its first statement. -/
def runPostgresMigrations (checksum : String → String) (purpose : DatabasePurpose)
    (directory : List DirectoryEntry) : Run σ :=
  if purpose ≠ .migration then
    { migrations := [], connected := true, stage := .finished (.error .purposeRequired) }
  else
    match listPostgresMigrations checksum directory with
    | .error error => { migrations := [], connected := true, stage := .finished (.error error) }
    | .ok migrations => { migrations, connected := true, stage := .locking }

/-- The directories that were deployed, oldest first, and all runs so far. -/
structure Sys (σ : Type*) extends World σ where
  directories : List (List DirectoryEntry)
  runs : List (Run σ)

/-- One directory and a database. -/
def Sys.initial (directory : List DirectoryEntry) (database : Database σ) : Sys σ :=
  { database, holder := none, commits := [], directories := [directory], runs := [] }

/-- The directory deployed last. -/
def Sys.directory (s : Sys σ) : List DirectoryEntry := s.directories.getLast?.getD []

/-- A directory grows: it keeps its migrations, and what it gains has higher versions. -/
def Grows (checksum : String → String) (old new : List DirectoryEntry) : Prop :=
  sortedMigrations checksum old <+: sortedMigrations checksum new ∧
    ∀ m ∈ (sortedMigrations checksum new).drop (sortedMigrations checksum old).length,
      ∀ m' ∈ sortedMigrations checksum old, m'.version < m.version

instance (checksum : String → String) : DecidableRel (Grows checksum) :=
  fun _ _ ↦ inferInstanceAs (Decidable (_ ∧ _))

/-- An action: a directory is deployed, a run starts over a directory deployed now or before, a
run has its next statement answered, or a session ends. -/
inductive Act where
  | deploy (directory : List DirectoryEntry)
  | start (purpose : DatabasePurpose) (deployment : ℕ)
  | statement (p : ℕ) (reply : Reply)
  | endSession (p : ℕ)

/-- One action. -/
def step (execute : String → σ → Option σ) (checksum : String → String) :
    Act → Sys σ → Option (Sys σ)
  | .deploy directory, s =>
    if Grows checksum s.directory directory then
      some { s with directories := s.directories ++ [directory] }
    else none
  | .start purpose deployment, s =>
    s.directories[deployment]?.map fun directory ↦
      { s with runs := s.runs ++ [runPostgresMigrations checksum purpose directory] }
  | .statement p reply, s =>
    s.runs[p]?.bind fun r ↦ (r.statement execute s.toWorld p reply).map fun (w, stage) ↦
      { s with toWorld := w, runs := s.runs.set p { r with stage } }
  | .endSession p, s =>
    s.runs[p]?.map fun r ↦
      { s with
        toWorld := s.toWorld.release p
        runs := s.runs.set p { r with connected := false } }

end Migration

end AlpacaTrading
