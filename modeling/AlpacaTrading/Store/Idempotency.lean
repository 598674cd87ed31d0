import AlpacaTrading.Lib.Run
import AlpacaTrading.Lib.Table
import AlpacaTrading.Broker.Response

/-!
# Idempotency records

`PostgresIdempotencyRepository` keeps one row for each scope and key.  A worker begins a request,
and whoever is told `acquired` owns the row at the version it was told; a claim that failed or
expired is reset for the next worker that begins.

## Versions

Every write raises the version, so a version is a claim: `complete` and `fail` write only at the
version their worker holds.  The invariant `IdempotencySystem.Sound` compares what the workers
were told with the row, and `idempotency_exactly_once` reads off what the record promises.
-/

namespace AlpacaTrading

/-! ## The row -/

inductive IdempotencyStatus where
  | inProgress | completed | failed | expired
deriving DecidableEq, Repr

/-- A row of `idempotency_records`.  A JSON value is an `Option J`, where `none` is JSON `null`;
`responseData` is `none` where the column is NULL. -/
structure IdempotencyRow (J : Type) where
  scope : String
  idempotencyKey : String
  requestFingerprint : String
  status : IdempotencyStatus
  responseData : Option (Option J)
  errorCode : Option String
  ownerId : String
  runId : String
  expiresAt : Option Time
  completedAt : Option Time
  version : Nat
  createdAt : Time
  updatedAt : Time
deriving DecidableEq

/-- `IdempotencyRecord`. -/
structure IdempotencyRecord (J : Type) where
  scope : String
  key : String
  requestHash : String
  status : IdempotencyStatus
  response : Option J
  errorCode : Option String
  createdAt : Time
  updatedAt : Time
  expiresAt : Option Time
  version : Nat
deriving DecidableEq

/-- `btrim(value) <> ''`: there is a character that is no space. -/
def nonempty (value : String) : Bool := value.toList.any (· ≠ ' ')

namespace IdempotencyRow

variable {J : Type}

/-- `mapRecord`. -/
def mapRecord (row : IdempotencyRow J) : IdempotencyRecord J :=
  { scope := row.scope
    key := row.idempotencyKey
    requestHash := row.requestFingerprint
    status := row.status
    response := row.responseData.join
    errorCode := row.errorCode
    createdAt := row.createdAt
    updatedAt := row.updatedAt
    expiresAt := row.expiresAt
    version := row.version }

/-- The check constraints of the table, in the order of their names. -/
def check (row : IdempotencyRow J) : Except String Unit := do
  require (row.status ≠ .completed ∨ row.completedAt.isSome)
    "idempotency_records_completion_consistency"
  require (row.expiresAt.all (row.createdAt < ·)) "idempotency_records_expiration_order"
  require (nonempty row.idempotencyKey) "idempotency_records_key_nonempty"
  require (nonempty row.requestFingerprint) "idempotency_records_request_fingerprint_nonempty"
  require (nonempty row.scope) "idempotency_records_scope_nonempty"
  require (row.createdAt ≤ row.updatedAt) "idempotency_records_updated_after_created"
  require (0 < row.version) "idempotency_records_version_positive"

end IdempotencyRow

/-! ## The calls -/

/-- The part of the operation context the repository reads. -/
structure IdempotencyContext where
  actorId : String
  operationId : String
deriving DecidableEq

/-- The input of `begin`. -/
structure IdempotencyBeginInput where
  scope : String
  key : String
  requestHash : String
  startedAt : Time
  expiresAt : Option Time := none
deriving DecidableEq

/-- The input of `complete`. -/
structure IdempotencyCompleteInput (J : Type) where
  scope : String
  key : String
  requestHash : String
  expectedVersion : Nat
  response : Option J
  completedAt : Time
deriving DecidableEq

/-- The input of `fail`. -/
structure IdempotencyFailInput where
  scope : String
  key : String
  requestHash : String
  expectedVersion : Nat
  errorCode : String
  failedAt : Time
deriving DecidableEq

inductive IdempotencyBeginResult (J : Type) where
  | acquired (record : IdempotencyRecord J)
  | replay (record : IdempotencyRecord J)
  | inProgress (record : IdempotencyRecord J)
  | requestConflict (existingRequestHash : String)
deriving DecidableEq

/-- The version a worker was told. -/
def IdempotencyBeginResult.version? {J : Type} : IdempotencyBeginResult J → Option Nat
  | acquired record => some record.version
  | replay record => some record.version
  | inProgress record => some record.version
  | requestConflict _ => none

/-- `VersionedWriteResult`; the repository writes without a fence. -/
inductive VersionedWriteResult where
  | updated (version : Nat)
  | notFound
  | versionConflict (currentVersion : Nat)
deriving DecidableEq

namespace Idempotency

variable {J : Type}

/-- The row `begin` proposes to insert. -/
def proposed (input : IdempotencyBeginInput) (context : IdempotencyContext) : IdempotencyRow J :=
  { scope := input.scope
    idempotencyKey := input.key
    requestFingerprint := input.requestHash
    status := .inProgress
    responseData := none
    errorCode := none
    ownerId := context.actorId
    runId := context.operationId
    expiresAt := input.expiresAt
    completedAt := none
    version := 1
    createdAt := input.startedAt
    updatedAt := input.startedAt }

/-- The claim of a row has expired for a `begin` of the given time. -/
def expired (row : IdempotencyRow J) (startedAt : Time) : Bool :=
  row.expiresAt.any (· ≤ startedAt)

/-- The `UPDATE` of `begin`: the row is claimed anew. -/
def reset (row : IdempotencyRow J) (input : IdempotencyBeginInput) (context : IdempotencyContext) :
    IdempotencyRow J :=
  { row with
    status := .inProgress
    responseData := none
    errorCode := none
    ownerId := context.actorId
    runId := context.operationId
    expiresAt := input.expiresAt
    completedAt := none
    updatedAt := input.startedAt
    version := row.version + 1 }

/-- `begin`, on the row of its scope and key.  The table checks the row the `INSERT` proposes,
also where it is not inserted because of the conflict. -/
def begin (row : Option (IdempotencyRow J)) (input : IdempotencyBeginInput)
    (context : IdempotencyContext) :
    Except String (Option (IdempotencyRow J) × IdempotencyBeginResult J) := do
  let inserted : IdempotencyRow J := proposed input context
  inserted.check
  match row with
  | none => return (some inserted, .acquired inserted.mapRecord)
  | some row =>
    if row.requestFingerprint ≠ input.requestHash then
      return (some row, .requestConflict row.requestFingerprint)
    if row.status = .completed then return (some row, .replay row.mapRecord)
    if row.status = .inProgress ∧ ¬ expired row input.startedAt then
      return (some row, .inProgress row.mapRecord)
    let claimed := reset row input context
    claimed.check
    return (some claimed, .acquired claimed.mapRecord)

/-- `mutationMiss`. -/
def mutationMiss (row : Option (IdempotencyRow J)) (requestHash : String) (expectedVersion : Nat) :
    VersionedWriteResult :=
  match row with
  | none => .notFound
  | some row =>
    if row.requestFingerprint ≠ requestHash ∨ row.version ≠ expectedVersion then
      .versionConflict row.version
    else .notFound

/-- The condition `complete` and `fail` update under. -/
def Owned (row : IdempotencyRow J) (requestHash : String) (expectedVersion : Nat) : Prop :=
  row.requestFingerprint = requestHash ∧ row.version = expectedVersion ∧ row.status = .inProgress

instance (row : IdempotencyRow J) (requestHash : String) (expectedVersion : Nat) :
    Decidable (Owned row requestHash expectedVersion) :=
  inferInstanceAs (Decidable (_ ∧ _ ∧ _))

/-- An `UPDATE` of an owned row. -/
def mutate (row : Option (IdempotencyRow J)) (requestHash : String) (expectedVersion : Nat)
    (write : IdempotencyRow J → IdempotencyRow J) :
    Except String (Option (IdempotencyRow J) × VersionedWriteResult) :=
  match row with
  | none => return (none, mutationMiss (none : Option (IdempotencyRow J)) requestHash expectedVersion)
  | some row =>
    if Owned row requestHash expectedVersion then do
      (write row).check
      return (some (write row), .updated (write row).version)
    else return (some row, mutationMiss (some row) requestHash expectedVersion)

/-- `complete`. -/
def complete (row : Option (IdempotencyRow J)) (input : IdempotencyCompleteInput J) :
    Except String (Option (IdempotencyRow J) × VersionedWriteResult) :=
  mutate row input.requestHash input.expectedVersion fun row ↦
    { row with
      status := .completed
      responseData := some input.response
      completedAt := some input.completedAt
      updatedAt := input.completedAt
      version := row.version + 1 }

/-- `fail`. -/
def fail (row : Option (IdempotencyRow J)) (input : IdempotencyFailInput) :
    Except String (Option (IdempotencyRow J) × VersionedWriteResult) :=
  mutate row input.requestHash input.expectedVersion fun row ↦
    { row with
      status := .failed
      errorCode := some input.errorCode
      updatedAt := input.failedAt
      version := row.version + 1 }

/-! ## What one call does -/

section Calls

variable {row? : Option (IdempotencyRow J)} {input : IdempotencyBeginInput}
  {context : IdempotencyContext}

/-- What a `begin` that returns has done: it inserted the row, left it, or claimed it anew. -/
theorem begin_cases {after : Option (IdempotencyRow J) × IdempotencyBeginResult J}
    (h : begin row? input context = .ok after) :
    (row? = none ∧
      after = (some (proposed input context), .acquired (proposed input context).mapRecord)) ∨
    (∃ row, row? = some row ∧
      (row.requestFingerprint ≠ input.requestHash ∧
          after = (some row, .requestConflict row.requestFingerprint) ∨
        after = (some row, .replay row.mapRecord) ∨ after = (some row, .inProgress row.mapRecord))) ∨
    (∃ row, row? = some row ∧ row.requestFingerprint = input.requestHash ∧ row.status ≠ .completed ∧
      after = (some (reset row input context), .acquired (reset row input context).mapRecord)) := by
  obtain ⟨-, -, h⟩ := bind_eq_ok.1 h
  rcases row? with _ | row
  · exact .inl ⟨rfl, (Except.ok.inj h).symm⟩
  · dsimp only at h
    split_ifs at h with hash done held
    · exact .inr (.inl ⟨row, rfl, .inl ⟨hash, (Except.ok.inj h).symm⟩⟩)
    · exact .inr (.inl ⟨row, rfl, .inr (.inl (Except.ok.inj h).symm)⟩)
    · exact .inr (.inl ⟨row, rfl, .inr (.inr (Except.ok.inj h).symm)⟩)
    · obtain ⟨-, -, h⟩ := bind_eq_ok.1 h
      exact .inr (.inr ⟨row, rfl, not_not.1 hash, done, (Except.ok.inj h).symm⟩)

/-- A completed row is replayed to every `begin` the table accepts. -/
theorem begin_completed {row : IdempotencyRow J} (hdone : row.status = .completed)
    (hash : input.requestHash = row.requestFingerprint)
    (hcheck : (proposed input context : IdempotencyRow J).check = .ok ()) :
    begin (some row) input context = .ok (some row, .replay row.mapRecord) := by
  refine bind_eq_ok.2 ⟨(), hcheck, ?_⟩
  simp [hash, hdone, pure, Except.pure]

/-- A `begin` with another request hash leaves the row. -/
theorem begin_conflict {row : IdempotencyRow J}
    (hash : input.requestHash ≠ row.requestFingerprint)
    {after : Option (IdempotencyRow J) × IdempotencyBeginResult J}
    (h : begin (some row) input context = .ok after) :
    after = (some row, .requestConflict row.requestFingerprint) := by
  obtain ⟨-, -, h⟩ := bind_eq_ok.1 h
  dsimp only at h
  rw [if_pos (Ne.symm hash)] at h
  exact (Except.ok.inj h).symm

/-- What an `UPDATE` of `complete` or `fail` has done. -/
theorem mutate_cases {requestHash : String} {version : Nat}
    {write : IdempotencyRow J → IdempotencyRow J}
    {after : Option (IdempotencyRow J) × VersionedWriteResult}
    (h : mutate row? requestHash version write = .ok after) :
    (after.1 = row? ∧ ∀ v, after.2 ≠ .updated v) ∨
    ∃ row, row? = some row ∧ Owned row requestHash version ∧
      after = (some (write row), .updated (write row).version) := by
  have hmiss : ∀ row v, mutationMiss (J := J) row requestHash version ≠ .updated v := by
    intro row v
    rcases row with _ | row
    · exact nofun
    · rw [mutationMiss]
      split_ifs <;> exact nofun
  rcases row? with _ | row
  · obtain rfl := Except.ok.inj h
    exact .inl ⟨rfl, hmiss none⟩
  · rw [mutate] at h
    split_ifs at h with howned
    · obtain ⟨-, -, h⟩ := bind_eq_ok.1 h
      exact .inr ⟨row, rfl, howned, (Except.ok.inj h).symm⟩
    · obtain rfl := Except.ok.inj h
      exact .inl ⟨rfl, hmiss (some row)⟩

end Calls

end Idempotency

/-! ## Workers -/

/-- One record with the workers that use it. -/
structure IdempotencySystem (J : Type) where
  scope : String
  key : String
  record : Option (IdempotencyRow J) := none
  /-- What the calls of `begin` returned, oldest first. -/
  begun : List (IdempotencyBeginResult J) := []
  /-- The responses of the calls of `complete` that succeeded, oldest first. -/
  completed : List (Option J) := []

/-- A call.  A worker completes or fails with the version its own `begin` returned. -/
inductive IdempotencyAct (J : Type) where
  | begin (requestHash : String) (startedAt : Time) (expiresAt : Option Time)
      (context : IdempotencyContext)
  | complete (claim : Nat) (requestHash : String) (response : Option J) (completedAt : Time)
  | fail (claim : Nat) (requestHash : String) (errorCode : String) (failedAt : Time)
deriving DecidableEq

namespace IdempotencySystem

variable {J : Type}

/-- The version the worker of a `begin` holds. -/
def held (s : IdempotencySystem J) (claim : Nat) : Option Nat :=
  s.begun[claim]?.bind (·.version?)

/-- The input of a `begin` on the record of the system. -/
def beginInput (s : IdempotencySystem J) (requestHash : String) (startedAt : Time)
    (expiresAt : Option Time) : IdempotencyBeginInput :=
  { scope := s.scope, key := s.key, requestHash, startedAt, expiresAt }

/-- One call.  A call that throws is rolled back. -/
def step (act : IdempotencyAct J) (s : IdempotencySystem J) : Option (IdempotencySystem J) :=
  match act with
  | .begin requestHash startedAt expiresAt context =>
    match Idempotency.begin s.record (s.beginInput requestHash startedAt expiresAt) context with
    | .error _ => some s
    | .ok (record, result) => some { s with record, begun := s.begun ++ [result] }
  | .complete claim requestHash response completedAt => do
    let expectedVersion ← s.held claim
    match Idempotency.complete s.record
      { scope := s.scope, key := s.key, requestHash, expectedVersion, response, completedAt } with
    | .ok (record, .updated _) => some { s with record, completed := s.completed ++ [response] }
    | .ok (record, _) => some { s with record }
    | .error _ => some s
  | .fail claim requestHash errorCode failedAt => do
    let expectedVersion ← s.held claim
    match Idempotency.fail s.record
      { scope := s.scope, key := s.key, requestHash, expectedVersion, errorCode, failedAt } with
    | .ok (record, _) => some { s with record }
    | .error _ => some s

/-! ## What one call does to the system -/

/-- The moves of the system. -/
inductive Moves (s : IdempotencySystem J) : IdempotencySystem J → Prop
  /-- A call that throws or misses. -/
  | kept : Moves s s
  /-- A worker is told about a row it does not own. -/
  | told (row : IdempotencyRow J) (result : IdempotencyBeginResult J) (hrow : s.record = some row)
      (hversion : ∀ v, result.version? = some v → v = row.version)
      (hacquired : ∀ record, result ≠ .acquired record) :
      Moves s { s with begun := s.begun ++ [result] }
  /-- A worker takes the row over, or inserts it. -/
  | claimed (row' : IdempotencyRow J)
      (hbefore : ∀ row, s.record = some row →
        row.status ≠ .completed ∧ row.version < row'.version)
      (hstatus : row'.status = .inProgress) :
      Moves s { s with record := some row', begun := s.begun ++ [.acquired row'.mapRecord] }
  /-- The owner completes. -/
  | completed (row row' : IdempotencyRow J) (response : Option J) (hrow : s.record = some row)
      (howned : row.status = .inProgress) (hversion : row.version < row'.version)
      (hstatus : row'.status = .completed) (hresponse : row'.responseData = some response) :
      Moves s { s with record := some row', completed := s.completed ++ [response] }
  /-- The owner fails. -/
  | failed (row row' : IdempotencyRow J) (hrow : s.record = some row)
      (howned : row.status = .inProgress) (hversion : row.version < row'.version)
      (hstatus : row'.status = .failed) :
      Moves s { s with record := some row' }

theorem begin_moves {s s' : IdempotencySystem J} {requestHash : String} {startedAt : Time}
    {expiresAt : Option Time} {context : IdempotencyContext}
    (h : step (.begin requestHash startedAt expiresAt context) s = some s') : s.Moves s' := by
  simp only [step] at h
  split at h
  · obtain rfl := Option.some_inj.1 h
    exact .kept
  next record result hbegin =>
    obtain rfl := Option.some_inj.1 h
    obtain ⟨hnone, hafter⟩ | ⟨row, hrow, hafter⟩ | ⟨row, hrow, -, hstatus, hafter⟩ :=
      Idempotency.begin_cases hbegin
    · obtain ⟨rfl, rfl⟩ := Prod.mk.inj hafter
      exact .claimed _ (fun row hrow ↦ by simp [hnone] at hrow) rfl
    · -- The row is left as it is, and the worker is told of it, or of its request.
      have hkept : record = some row := by
        rcases hafter with ⟨-, h⟩ | h | h <;> exact (Prod.mk.inj h).1
      have hsame : { s with record, begun := s.begun ++ [result] } =
          { s with begun := s.begun ++ [result] } := by rw [hkept, hrow]
      rw [hsame]
      rcases hafter with ⟨-, h⟩ | h | h <;> obtain rfl := (Prod.mk.inj h).2
      · exact .told row _ hrow nofun nofun
      · exact .told row _ hrow (fun v hv ↦ (Option.some_inj.1 hv).symm) nofun
      · exact .told row _ hrow (fun v hv ↦ (Option.some_inj.1 hv).symm) nofun
    · obtain ⟨rfl, rfl⟩ := Prod.mk.inj hafter
      refine .claimed _ (fun other hother ↦ ?_) rfl
      obtain rfl : row = other := Option.some_inj.1 (hrow.symm.trans hother)
      exact ⟨hstatus, Nat.lt_succ_self _⟩

theorem complete_moves {s s' : IdempotencySystem J} {claim : Nat} {requestHash : String}
    {response : Option J} {completedAt : Time}
    (h : step (.complete claim requestHash response completedAt) s = some s') : s.Moves s' := by
  obtain ⟨version, -, h⟩ := Option.bind_eq_some_iff.1 h
  split at h
  next record v hcomplete =>
    obtain rfl := Option.some_inj.1 h
    obtain ⟨-, hmiss⟩ | ⟨row, hrow, ⟨-, -, howned⟩, hafter⟩ := Idempotency.mutate_cases hcomplete
    · exact absurd rfl (hmiss v)
    · obtain ⟨rfl, -⟩ := Prod.mk.inj hafter
      exact .completed row _ response hrow howned (Nat.lt_succ_self _) rfl rfl
  next record result hother hcomplete =>
    obtain rfl := Option.some_inj.1 h
    obtain ⟨rfl, -⟩ | ⟨row, -, -, hafter⟩ := Idempotency.mutate_cases hcomplete
    · exact .kept
    · exact absurd (Prod.mk.inj hafter).2 (hother _)
  · obtain rfl := Option.some_inj.1 h
    exact .kept

theorem fail_moves {s s' : IdempotencySystem J} {claim : Nat} {requestHash errorCode : String}
    {failedAt : Time} (h : step (.fail claim requestHash errorCode failedAt) s = some s') :
    s.Moves s' := by
  obtain ⟨version, -, h⟩ := Option.bind_eq_some_iff.1 h
  split at h
  next record result hfail =>
    obtain rfl := Option.some_inj.1 h
    obtain ⟨rfl, -⟩ | ⟨row, hrow, ⟨-, -, howned⟩, hafter⟩ := Idempotency.mutate_cases hfail
    · exact .kept
    · obtain ⟨rfl, -⟩ := Prod.mk.inj hafter
      exact .failed row _ hrow howned (Nat.lt_succ_self _) rfl
  · obtain rfl := Option.some_inj.1 h
    exact .kept

theorem step_moves {s s' : IdempotencySystem J} {act : IdempotencyAct J}
    (h : step act s = some s') : s.Moves s' := by
  rcases act with _ | _ | _
  · exact begin_moves h
  · exact complete_moves h
  · exact fail_moves h

/-! ## The invariant -/

/-- The responses the row stands for. -/
def settled (s : IdempotencySystem J) : List (Option J) :=
  (s.record.filter (·.status = .completed)).toList.map (·.responseData.join)

structure Sound (s : IdempotencySystem J) : Prop where
  /-- No worker holds a version above the one of the row. -/
  told : ∀ result ∈ s.begun, ∀ v, result.version? = some v →
    ∃ row, s.record = some row ∧ v ≤ row.version
  /-- A claim is above every version that was told before it. -/
  superseded : s.begun.Pairwise fun earlier later ↦ ∀ record v,
    later = .acquired record → earlier.version? = some v → v < record.version
  /-- The completions that succeeded are the one the row stands for. -/
  responses : s.completed = s.settled

theorem Sound.initial (scope key : String) : Sound (J := J) { scope, key } :=
  ⟨nofun, .nil, rfl⟩

theorem settled_of_completed {s : IdempotencySystem J} {row : IdempotencyRow J}
    (hrow : s.record = some row) (hstatus : row.status = .completed) :
    s.settled = [row.responseData.join] := by
  simp [settled, hrow, hstatus]

theorem settled_of_not_completed {s : IdempotencySystem J}
    (h : ∀ row, s.record = some row → row.status ≠ .completed) : s.settled = [] := by
  rw [settled]
  rcases hrow : s.record with _ | row
  · rfl
  · simp [h row hrow]

/-- The versions the workers were told stay below the row as it moves on. -/
theorem Sound.told_of_lt {s : IdempotencySystem J} (hs : s.Sound) {row row' : IdempotencyRow J}
    (hrow : s.record = some row) (hversion : row.version < row'.version)
    {result : IdempotencyBeginResult J} (hresult : result ∈ s.begun) {v : Nat}
    (hv : result.version? = some v) : v ≤ row'.version := by
  obtain ⟨before, hbefore, hle⟩ := hs.told result hresult v hv
  obtain rfl : row = before := Option.some_inj.1 (hrow.symm.trans hbefore)
  exact hle.trans hversion.le

/-- While a claim is open, nothing was completed. -/
theorem Sound.unsettled {s : IdempotencySystem J} (hs : s.Sound) {row : IdempotencyRow J}
    (hrow : s.record = some row) (howned : row.status = .inProgress) : s.completed = [] := by
  refine hs.responses.trans (settled_of_not_completed fun other hother ↦ ?_)
  obtain rfl : row = other := Option.some_inj.1 (hrow.symm.trans hother)
  simp [howned]

theorem Sound.step {s s' : IdempotencySystem J} (hs : s.Sound) (h : s.Moves s') : s'.Sound := by
  rcases h with _ | ⟨row, result, hrow, hversion, hacquired⟩ | ⟨row', hbefore, hstatus⟩ |
    ⟨row, row', response, hrow, howned, hversion, hstatus, hresponse⟩ |
    ⟨row, row', hrow, howned, hversion, hstatus⟩
  · exact hs
  · refine ⟨fun other hother v hv ↦ ?_, ?_, hs.responses⟩
    · obtain hother | rfl := List.mem_append.1 hother |>.imp_right List.mem_singleton.1
      · exact hs.told other hother v hv
      · exact ⟨row, hrow, (hversion v hv).le⟩
    · refine List.pairwise_append.2 ⟨hs.superseded, List.pairwise_singleton _ _, ?_⟩
      rintro earlier - later hlater record v hclaim
      obtain rfl := List.mem_singleton.1 hlater
      exact absurd hclaim (hacquired record)
  · refine ⟨fun other hother v hv ↦ ⟨row', rfl, ?_⟩, ?_, ?_⟩
    · obtain hother | rfl := List.mem_append.1 hother |>.imp_right List.mem_singleton.1
      · obtain ⟨row, hrow, hle⟩ := hs.told other hother v hv
        exact hle.trans (hbefore row hrow).2.le
      · exact (Option.some_inj.1 hv).ge
    · refine List.pairwise_append.2 ⟨hs.superseded, List.pairwise_singleton _ _, ?_⟩
      intro earlier hearlier later hlater record v hclaim hv
      obtain rfl := List.mem_singleton.1 hlater
      obtain rfl := IdempotencyBeginResult.acquired.inj hclaim
      -- A takeover raises the version, which no earlier claim exceeds.
      obtain ⟨row, hrow, hle⟩ := hs.told earlier hearlier v hv
      exact hle.trans_lt (hbefore row hrow).2
    · rw [settled_of_not_completed (s := { s with record := some row', begun := _ })]
      · exact hs.responses.trans (settled_of_not_completed fun row hrow ↦ (hbefore row hrow).1)
      · intro row hrow
        obtain rfl : row' = row := Option.some_inj.1 hrow
        simp [hstatus]
  · refine ⟨fun other hother v hv ↦ ⟨row', rfl, hs.told_of_lt hrow hversion hother hv⟩,
      hs.superseded, ?_⟩
    rw [settled_of_completed rfl hstatus, hs.unsettled hrow howned, hresponse]
    rfl
  · refine ⟨fun other hother v hv ↦ ⟨row', rfl, hs.told_of_lt hrow hversion hother hv⟩,
      hs.superseded, ?_⟩
    rw [settled_of_not_completed (s := { s with record := some row' })]
    · exact hs.unsettled hrow howned
    · intro other hother
      obtain rfl : row' = other := Option.some_inj.1 hother
      simp [hstatus]

/-- A completed row is final. -/
theorem Moves.completed_stays {s s' : IdempotencySystem J} (h : s.Moves s')
    {row : IdempotencyRow J} (hrow : s.record = some row) (hstatus : row.status = .completed) :
    s'.record = some row := by
  have hrow_eq : ∀ {other : IdempotencyRow J}, s.record = some other → other = row :=
    fun hother ↦ Option.some_inj.1 (hother.symm.trans hrow)
  rcases h with _ | ⟨_, _, _, _, _⟩ | ⟨row', hbefore, _⟩ | ⟨before, _, _, hbefore, howned, _, _, _⟩ |
    ⟨before, _, hbefore, howned, _, _⟩
  · exact hrow
  · exact hrow
  · exact absurd hstatus (hbefore row hrow).1
  · simp [hrow_eq hbefore ▸ howned] at hstatus
  · simp [hrow_eq hbefore ▸ howned] at hstatus

theorem sound_of_run {scope key : String} {acts : List (IdempotencyAct J)}
    {s : IdempotencySystem J} (hrun : runActs step { scope, key } acts = some s) : s.Sound :=
  invariant_of_run (fun _ _ _ hs h ↦ hs.step (step_moves h)) (Sound.initial scope key) hrun

/-- A response that was completed is the one of the row, and the row is completed. -/
theorem Sound.row_of_completed {s : IdempotencySystem J} (hs : s.Sound) {response : Option J}
    (h : response ∈ s.completed) :
    ∃ row, s.record = some row ∧ row.status = .completed ∧ row.mapRecord.response = response := by
  rw [hs.responses, settled, List.mem_map] at h
  obtain ⟨row, hrow, rfl⟩ := h
  obtain ⟨hrow, hstatus⟩ := Option.filter_eq_some_iff.1 (Option.mem_toList.1 hrow)
  exact ⟨row, hrow, of_decide_eq_true hstatus, rfl⟩

theorem Sound.completed_length {s : IdempotencySystem J} (hs : s.Sound) :
    s.completed.length ≤ 1 := by
  rw [hs.responses, settled, List.length_map]
  exact Option.length_toList_le

/-! ## Superseded claims -/

/-- A claim that another worker took over is below the row. -/
theorem Sound.superseded_lt {s : IdempotencySystem J} (hs : s.Sound) {i j v : Nat}
    {record : IdempotencyRecord J} (hij : i < j) (hv : s.held i = some v)
    (hj : s.begun[j]? = some (.acquired record)) :
    ∃ row, s.record = some row ∧ v < row.version := by
  obtain ⟨earlier, hi, hv⟩ := Option.bind_eq_some_iff.1 hv
  obtain ⟨hlt, hj⟩ := List.getElem?_eq_some_iff.1 hj
  obtain ⟨_, hi⟩ := List.getElem?_eq_some_iff.1 hi
  have hclaim : v < record.version := by
    refine List.pairwise_iff_getElem.1 hs.superseded i j (hij.trans hlt) hlt hij record v hj ?_
    rwa [hi]
  obtain ⟨row, hrow, hle⟩ := hs.told _ (hj ▸ List.getElem_mem hlt) record.version rfl
  exact ⟨row, hrow, hclaim.trans_le hle⟩

end IdempotencySystem

namespace Idempotency

variable {J : Type}

/-- An `UPDATE` at another version misses. -/
theorem mutate_stale {row : IdempotencyRow J} {requestHash : String} {version : Nat}
    (write : IdempotencyRow J → IdempotencyRow J) (h : version ≠ row.version) :
    mutate (some row) requestHash version write = .ok (some row, .versionConflict row.version) := by
  have hmiss : ¬ Owned row requestHash version := fun howned ↦ h howned.2.1.symm
  have hconflict : row.requestFingerprint ≠ requestHash ∨ row.version ≠ version := .inr h.symm
  rw [mutate, if_neg hmiss, mutationMiss, if_pos hconflict]
  rfl

end Idempotency

open IdempotencySystem in
/-- **One completed result.**  In every state the workers of a record reach, at most one call of
`complete` has succeeded; what it stored stays and is replayed; a `begin` with another request
hash leaves the record alone; and a claim that was taken over can neither complete nor fail. -/
theorem idempotency_exactly_once {J : Type} {scope key : String} {acts : List (IdempotencyAct J)}
    {s : IdempotencySystem J} (hrun : runActs step { scope, key } acts = some s) :
    s.completed.length ≤ 1 ∧
    (∀ response ∈ s.completed, ∃ row, s.record = some row ∧ row.mapRecord.response = response ∧
      ∀ later s', runActs step s later = some s' → s'.record = some row ∧
        ∀ startedAt expiresAt context,
          (Idempotency.proposed (J := J) (s'.beginInput row.requestFingerprint startedAt expiresAt)
            context).check = .ok () →
          Idempotency.begin s'.record (s'.beginInput row.requestFingerprint startedAt expiresAt)
            context = .ok (some row, .replay row.mapRecord)) ∧
    (∀ row requestHash startedAt expiresAt context s', s.record = some row →
      requestHash ≠ row.requestFingerprint →
      step (.begin requestHash startedAt expiresAt context) s = some s' → s'.record = some row) ∧
    (∀ i j v record, i < j → s.held i = some v → s.begun[j]? = some (.acquired record) →
      (∀ requestHash response completedAt,
        step (.complete i requestHash response completedAt) s = some s) ∧
      ∀ requestHash errorCode failedAt,
        step (.fail i requestHash errorCode failedAt) s = some s) := by
  have hs := sound_of_run hrun
  refine ⟨hs.completed_length, fun response hresponse ↦ ?_, ?_, ?_⟩
  · obtain ⟨row, hrow, hstatus, hresponse⟩ := hs.row_of_completed hresponse
    refine ⟨row, hrow, hresponse, fun later s' hlater ↦ ?_⟩
    have hstays : s'.record = some row :=
      invariant_of_run (fun _ _ _ hrow h ↦ (step_moves h).completed_stays hrow hstatus) hrow hlater
    refine ⟨hstays, fun startedAt expiresAt context hcheck ↦ ?_⟩
    rw [hstays]
    exact Idempotency.begin_completed hstatus rfl hcheck
  · intro row requestHash startedAt expiresAt context s' hrow hash h
    simp only [step] at h
    split at h
    · obtain rfl := Option.some_inj.1 h
      exact hrow
    next record result hbegin =>
      obtain rfl := Option.some_inj.1 h
      rw [hrow] at hbegin
      exact (Prod.mk.inj (Idempotency.begin_conflict hash hbegin)).1
  · intro i j v record hij hv hj
    obtain ⟨row, hrow, hlt⟩ := hs.superseded_lt hij hv hj
    have hmiss : ∀ requestHash write, Idempotency.mutate s.record requestHash v write =
        .ok (s.record, .versionConflict row.version) := by
      intro requestHash write
      rw [hrow]
      exact Idempotency.mutate_stale write hlt.ne
    constructor
    · intro requestHash response completedAt
      simp only [step, hv, Idempotency.complete, Option.bind_eq_bind, Option.bind_some]
      rw [hmiss]
    · intro requestHash errorCode failedAt
      simp only [step, hv, Idempotency.fail, Option.bind_eq_bind, Option.bind_some]
      rw [hmiss]

/-! ## A run

The first worker lets its claim expire, the second takes over and completes, and a third one is
told the result. -/

namespace Specimen

/-- The calls: the two claims, a conflicting request, the late completion, and the completion. -/
def sharedRequest : List (IdempotencyAct String) :=
  let worker (name : String) : IdempotencyContext := { actorId := name, operationId := "run" }
  [.begin "hash-1" 0 (some 10) (worker "a"),
    .begin "hash-2" 5 none (worker "b"),
    .begin "hash-1" 20 none (worker "c"),
    .complete 0 "hash-1" (some "late") 25,
    .complete 2 "hash-1" (some "result") 30,
    .begin "hash-1" 40 none (worker "d")]

end Specimen

/-- The completion that counts is the second worker's, and the first worker's is void. -/
theorem shared_request_completed_once :
    ∃ s, runActs IdempotencySystem.step { scope := "research", key := "request-1" }
      Specimen.sharedRequest = some s ∧ s.completed = [some "result"] ∧ s.completed.length ≤ 1 ∧
      IdempotencySystem.step (.complete 0 "hash-1" (some "late") 50) s = some s := by
  obtain ⟨s, hrun, hcompleted, hheld, hclaim⟩ :
      ∃ s, runActs IdempotencySystem.step { scope := "research", key := "request-1" }
        Specimen.sharedRequest = some s ∧ s.completed = [some "result"] ∧ s.held 0 = some 1 ∧
        ∃ record, s.begun[2]? = some (.acquired record) := by
    refine ⟨_, rfl, by decide +kernel, by decide +kernel, _, rfl⟩
  obtain ⟨record, hclaim⟩ := hclaim
  obtain ⟨hlength, -, -, htaken⟩ := idempotency_exactly_once hrun
  exact ⟨s, hrun, hcompleted, hlength, (htaken 0 2 1 record (by decide) hheld hclaim).1 _ _ _⟩

end AlpacaTrading
