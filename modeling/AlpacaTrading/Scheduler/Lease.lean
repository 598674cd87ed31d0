import Mathlib.Logic.Function.Basic
import AlpacaTrading.Lib.Run
import AlpacaTrading.Store.Schema

/-!
# Scheduler leases

`PostgresSchedulerLeaseRepository` keeps one row for each scheduler job.  The worker whose owner,
run and fencing token the row names holds the lease until it releases it or lets it expire, and
`requireCurrentFence` is how a transaction of the worker checks that it still does.

## Clocks, locks and the sequence

A transaction runs in steps, because a statement that wants a locked row waits for the end of the
transaction that locked it.  `now()` is the time a transaction started at, `statement_timestamp()`
the time its statement was sent at, before any wait.  An `INSERT ... ON CONFLICT` draws its token
from the sequence when it is sent, too.  So two waiting acquisitions can take the row in another
order than they drew their tokens, and that is the one thing that breaks the fencing:
`late_token_takes_over`.
-/

namespace AlpacaTrading

/-! ## The row -/

/-- A row of `scheduler_leases`. -/
structure SchedulerLeaseRow extends Lease where
  acquiredAt : Time
  heartbeatAt : Time
  releasedAt : Option Time
  releaseReason : Option String
  version : Nat
deriving DecidableEq

/-- The input of `acquire`. -/
structure SchedulerLeaseAcquireInput where
  jobName : String
  workstream : String
  ownerId : String
  runId : String
  acquiredAt : Time
  expiresAt : Time
deriving DecidableEq

/-- `SchedulerFencingIdentity`. -/
structure SchedulerFencingIdentity where
  jobName : String
  ownerId : String
  runId : String
  fencingToken : Nat
deriving DecidableEq

/-- The input of `heartbeat`. -/
structure SchedulerLeaseHeartbeatInput extends SchedulerFencingIdentity where
  heartbeatAt : Time
  expiresAt : Time
deriving DecidableEq

/-- The input of `release`. -/
structure SchedulerLeaseReleaseInput extends SchedulerFencingIdentity where
  releaseReason : Option String := none
deriving DecidableEq

/-- `leaseTtlMilliseconds`. -/
def leaseTtlMilliseconds (start stop : Time) : Except String Time :=
  let ttlMs := stop - start
  if 2 ^ 53 - 1 < ttlMs ∨ ttlMs ≤ 0 then .error "SCHEDULER_LEASE_TTL_INVALID" else .ok ttlMs

/-- The lease can be taken over by a statement of the given time. -/
def SchedulerLeaseRow.free (row : SchedulerLeaseRow) (statementAt : Time) : Bool :=
  decide (row.status ≠ .held ∨ row.expiresAt ≤ statementAt)

/-- The upsert of `acquire`: the row it leaves, unless the lease is held. -/
def acquireRow (row : Option SchedulerLeaseRow) (input : SchedulerLeaseAcquireInput)
    (ttlMs statementAt : Time) (token : Nat) : Option SchedulerLeaseRow :=
  let fresh : SchedulerLeaseRow :=
    { jobName := input.jobName
      workstream := input.workstream
      ownerId := input.ownerId
      runId := input.runId
      fencingToken := token
      status := .held
      acquiredAt := statementAt
      heartbeatAt := statementAt
      expiresAt := statementAt + ttlMs
      releasedAt := none
      releaseReason := none
      version := 1 }
  match row with
  | none => some fresh
  | some row => if row.free statementAt then some { fresh with version := row.version + 1 } else none

/-- `fenceMatches`, for a row that was locked by a statement of the given time. -/
def fenceMatches (row : SchedulerLeaseRow) (fence : SchedulerFencingIdentity)
    (statementAt : Time) : Bool :=
  decide (row.jobName = fence.jobName ∧ row.ownerId = fence.ownerId ∧ row.runId = fence.runId ∧
    row.fencingToken = fence.fencingToken ∧ row.status = .held ∧ statementAt < row.expiresAt)

/-- The `UPDATE` of `heartbeat`. -/
def heartbeatRow (row : SchedulerLeaseRow) (input : SchedulerLeaseHeartbeatInput)
    (ttlMs statementAt : Time) : Option SchedulerLeaseRow :=
  if fenceMatches row input.toSchedulerFencingIdentity statementAt then
    some { row with
      heartbeatAt := statementAt
      expiresAt := statementAt + ttlMs
      version := row.version + 1 }
  else none

/-- The `UPDATE` of `release`. -/
def releaseRow (row : SchedulerLeaseRow) (input : SchedulerLeaseReleaseInput)
    (statementAt : Time) : Option SchedulerLeaseRow :=
  let reason := Text.trim (input.releaseReason.getD "")
  if fenceMatches row input.toSchedulerFencingIdentity statementAt then
    some { row with
      status := .released
      releasedAt := some statementAt
      releaseReason := some (if reason = "" then "completed" else reason)
      version := row.version + 1 }
  else none

/-- What `requireCurrentFence` returns. -/
structure FenceCheck where
  accepted : Bool
  currentFencingToken : Option Nat
  leaseOwner : Option String
  heartbeatAt : Option Time
  expiresAt : Option Time
  remainingLeaseMs : Option Time
deriving DecidableEq

/-- `requireCurrentFence`, in a transaction that started at `now`. -/
def requireCurrentFence (row : Option SchedulerLeaseRow) (fence : SchedulerFence)
    (now clock : Time) : FenceCheck :=
  let current (row : SchedulerLeaseRow) : Bool := decide (row.status = .held ∧ now < row.expiresAt)
  { accepted := row.any fun row ↦ current row && decide (row.fencingToken = fence.fencingToken ∧
      row.workstream = fence.workstream ∧ row.ownerId = fence.ownerId ∧ row.runId = fence.runId)
    currentFencingToken := (row.filter current).map (·.fencingToken)
    leaseOwner := row.map (·.ownerId)
    heartbeatAt := row.map (·.heartbeatAt)
    expiresAt := row.map (·.expiresAt)
    remainingLeaseMs := row.map fun row ↦ max 0 (row.expiresAt - clock) }

/-! ## Transactions -/

/-- What a transaction is for: a call of the repository, or fenced writes. -/
inductive LeaseOperation where
  | acquire (input : SchedulerLeaseAcquireInput)
  | heartbeat (input : SchedulerLeaseHeartbeatInput)
  | release (input : SchedulerLeaseReleaseInput)
  | guarded (fence : SchedulerFence)
deriving DecidableEq

def LeaseOperation.jobName : LeaseOperation → String
  | acquire input => input.jobName
  | heartbeat input => input.jobName
  | release input => input.jobName
  | guarded fence => fence.jobName

/-- The fence a heartbeat or a release carries. -/
def LeaseOperation.identity? : LeaseOperation → Option SchedulerFencingIdentity
  | heartbeat input => some input.toSchedulerFencingIdentity
  | release input => some input.toSchedulerFencingIdentity
  | _ => none

/-- What an operation returns, or throws. -/
inductive LeaseResult where
  | acquired (lease : SchedulerLeaseRow)
  | held (lease : SchedulerLeaseRow)
  | updated (lease : SchedulerLeaseRow)
  | fenceRejected (currentFencingToken : Nat)
  | notFound
  | rejected (check : FenceCheck)
  | thrown (code : String)
deriving DecidableEq

/-- Where a transaction is. -/
inductive LeaseStage where
  | begun
  /-- The upsert was sent, with the token it drew. -/
  | acquiring (statementAt ttlMs : Time) (token : Nat)
  /-- A `SELECT ... FOR UPDATE` was sent; whether its snapshot has the row. -/
  | locking (statementAt : Time) (found : Bool)
  /-- The fence matches, and the `UPDATE` is next. -/
  | updating (ttlMs : Time)
  /-- The fence was accepted: the transaction writes. -/
  | writing
  | ending (result : LeaseResult)
deriving DecidableEq

/-- The stages that depend on the row lock. -/
def LeaseStage.Locks : LeaseStage → Prop
  | updating _ => True
  | writing => True
  | ending (.acquired _) => True
  | _ => False

structure LeaseTransaction where
  operation : LeaseOperation
  /-- `now()`. -/
  startedAt : Time
  stage : LeaseStage := .begun
deriving DecidableEq

namespace LeaseTransaction

/-- The first statement is sent. -/
def send (tx : LeaseTransaction) (now : Time) (found : Bool) (token : Nat) : LeaseStage :=
  match tx.operation with
  | .acquire input =>
    match leaseTtlMilliseconds input.acquiredAt input.expiresAt with
    | .error code => .ending (.thrown code)
    | .ok ttlMs => .acquiring now ttlMs token
  | .heartbeat input =>
    match leaseTtlMilliseconds input.heartbeatAt input.expiresAt with
    | .error code => .ending (.thrown code)
    | .ok _ => .locking now found
  | .release _ => .locking now found
  | .guarded _ => .locking now found

/-- The result of a `SELECT ... FOR UPDATE` whose snapshot has no row. -/
def missed (tx : LeaseTransaction) (now : Time) : LeaseStage :=
  match tx.operation with
  | .guarded fence => .ending (.rejected (requireCurrentFence none fence tx.startedAt now))
  | _ => .ending .notFound

/-- The first statement gets the row lock: the stage and the row after it. -/
def granted (tx : LeaseTransaction) (row : Option SchedulerLeaseRow) (now : Time) :
    Option (LeaseStage × Option SchedulerLeaseRow) :=
  match tx.operation, tx.stage, row with
  | .acquire input, .acquiring statementAt ttlMs token, row =>
    match acquireRow row input ttlMs statementAt token, row with
    | some row', _ => some (.ending (.acquired row'), some row')
    -- The lock is kept, and the row is read once more.
    | none, some row => some (.ending (.held row), some row)
    | none, none => none
  | .heartbeat input, .locking statementAt true, some row =>
    some (if fenceMatches row input.toSchedulerFencingIdentity statementAt then
        .updating (input.expiresAt - input.heartbeatAt)
      else .ending (.fenceRejected row.fencingToken), some row)
  | .release input, .locking statementAt true, some row =>
    some (if fenceMatches row input.toSchedulerFencingIdentity statementAt then .updating 0
      else .ending (.fenceRejected row.fencingToken), some row)
  | .guarded fence, .locking _ true, some row =>
    let check := requireCurrentFence (some row) fence tx.startedAt now
    some (if check.accepted then .writing else .ending (.rejected check), some row)
  | _, _, _ => none

/-- The `UPDATE` of a heartbeat or a release. -/
def updated (tx : LeaseTransaction) (row : SchedulerLeaseRow) (now : Time) :
    Option (LeaseStage × SchedulerLeaseRow) :=
  let result : Option SchedulerLeaseRow → LeaseStage × SchedulerLeaseRow
    | some row' => (.ending (.updated row'), row')
    | none => (.ending (.fenceRejected row.fencingToken), row)
  match tx.operation, tx.stage with
  | .heartbeat input, .updating ttlMs => some (result (heartbeatRow row input ttlMs now))
  | .release input, .updating _ => some (result (releaseRow row input now))
  | _, _ => none

end LeaseTransaction

/-! ## The system -/

/-- What a commit makes public: an acquisition, or fenced writes. -/
inductive LeaseEvent where
  | acquired (token : Nat)
  | wrote (fence : SchedulerFence)
deriving DecidableEq

/-- The events of a transaction that commits in a stage; `none` where it does not commit. -/
def LeaseTransaction.events (tx : LeaseTransaction) : Option (List LeaseEvent) :=
  match tx.operation, tx.stage with
  | .guarded fence, .writing => some [.wrote fence]
  | _, .ending (.acquired row) => some [.acquired row.fencingToken]
  | _, .ending (.thrown _) => none
  | _, .ending _ => some []
  | _, _ => none

/-- One scheduler job with the workers that use its lease. -/
structure LeaseSystem (W : Type) where
  jobName : String
  now : Time
  /-- The last value of `scheduler_fencing_token_seq`. -/
  sequence : Nat
  /-- The row as the transaction that locks it has left it. -/
  row : Option SchedulerLeaseRow
  /-- The row as it was last committed. -/
  saved : Option SchedulerLeaseRow
  /-- The worker whose transaction has the row lock. -/
  holder : Option W := none
  txs : W → Option LeaseTransaction := fun _ ↦ none
  /-- What was committed, oldest first. -/
  log : List LeaseEvent := []

inductive LeaseAct (W : Type) where
  /-- Time passes. -/
  | tick (now : Time)
  /-- Another job draws from the sequence. -/
  | draw (value : Nat)
  | begin (w : W) (operation : LeaseOperation)
  /-- The first statement is sent; an upsert draws the value. -/
  | send (w : W) (value : Nat)
  /-- The first statement gets the row lock. -/
  | grant (w : W)
  /-- The first statement has no row to lock. -/
  | miss (w : W)
  | update (w : W)
  | commit (w : W)
  /-- An error, a timeout or a crash. -/
  | rollback (w : W)
deriving DecidableEq

/-- The worker whose step it is. -/
def LeaseAct.worker? {W : Type} : LeaseAct W → Option W
  | begin w _ => some w
  | send w _ => some w
  | grant w => some w
  | miss w => some w
  | update w => some w
  | commit w => some w
  | rollback w => some w
  | _ => none

namespace LeaseSystem

variable {W : Type} [DecidableEq W]

/-- The transaction of a worker moves to a stage. -/
def setStage (s : LeaseSystem W) (w : W) (tx : LeaseTransaction) (stage : LeaseStage) :
    LeaseSystem W :=
  { s with txs := Function.update s.txs w (some { tx with stage }) }

/-- The transaction of a worker ends, and leaves the row. -/
def finish (s : LeaseSystem W) (w : W) (row : Option SchedulerLeaseRow)
    (events : List LeaseEvent) : LeaseSystem W :=
  { s with
    row := if s.holder = some w then row else s.row
    saved := if s.holder = some w then row else s.saved
    holder := if s.holder = some w then none else s.holder
    txs := Function.update s.txs w none
    log := s.log ++ events }

/-- One step of the system. -/
def step (act : LeaseAct W) (s : LeaseSystem W) : Option (LeaseSystem W) :=
  match act with
  | .tick now => if s.now ≤ now then some { s with now } else none
  | .draw value => if s.sequence < value then some { s with sequence := value } else none
  | .begin w operation =>
    if s.txs w = none ∧ operation.jobName = s.jobName then
      some { s with
        txs := Function.update s.txs w (some { operation, startedAt := s.now }) }
    else none
  | .send w value => do
    let tx ← s.txs w
    if tx.stage = .begun then
      match tx.send s.now s.saved.isSome value with
      | .acquiring statementAt ttlMs token =>
        if s.sequence < value then
          some { s.setStage w tx (.acquiring statementAt ttlMs token) with sequence := value }
        else none
      | stage => some (s.setStage w tx stage)
    else none
  | .grant w => do
    let tx ← s.txs w
    if s.holder = none then
      let (stage, row) ← tx.granted s.row s.now
      some { s.setStage w tx stage with row, holder := some w }
    else none
  | .miss w => do
    let tx ← s.txs w
    match tx.stage with
    | .locking _ false => some (s.setStage w tx (tx.missed s.now))
    | _ => none
  | .update w => do
    let tx ← s.txs w
    let row ← s.row
    let (stage, row') ← tx.updated row s.now
    some { s.setStage w tx stage with row := some row' }
  | .commit w => do
    let tx ← s.txs w
    let events ← tx.events
    some (s.finish w s.row events)
  | .rollback w => do
    let _ ← s.txs w
    some (s.finish w s.saved [])

/-- No transaction is open. -/
def Idle (s : LeaseSystem W) : Prop :=
  s.row = s.saved ∧ s.holder = none ∧ (∀ w, s.txs w = none) ∧ s.log = []

/-- The acquisitions take the row in the order they drew their tokens: no upsert takes over a row
whose token was drawn after its own. -/
def InOrder (s : LeaseSystem W) (act : LeaseAct W) : Prop :=
  match act with
  | .grant w => ∀ tx ∈ s.txs w, ∀ row ∈ s.row,
    match tx.stage with
    | .acquiring statementAt _ token => row.free statementAt = true → row.fencingToken < token
    | _ => True
  | _ => True

instance (s : LeaseSystem W) (act : LeaseAct W) : Decidable (s.InOrder act) :=
  match act with
  | .grant w =>
    match htx : s.txs w, hrow : s.row with
    | some tx, some row =>
      match hstage : tx.stage with
      | .acquiring statementAt _ token =>
        decidable_of_iff (row.free statementAt = true → row.fencingToken < token)
          (by simp [InOrder, htx, hrow, hstage])
      | .begun | .locking .. | .updating .. | .writing | .ending .. =>
        isTrue (by simp [InOrder, htx, hrow, hstage])
    | none, _ => isTrue (by simp [InOrder, htx])
    | some _, none => isTrue (by simp [InOrder, hrow])
  | .tick _ | .draw _ | .begin .. | .send .. | .miss _ | .update _ | .commit _ | .rollback _ =>
    isTrue trivial

end LeaseSystem

/-! ## What the statements do -/

/-- The row names the owner, the run and the token of the fence. -/
def SchedulerLeaseRow.Names (row : SchedulerLeaseRow)
    (fence : SchedulerFence) : Prop :=
  row.fencingToken = fence.fencingToken ∧ row.workstream = fence.workstream ∧
    row.ownerId = fence.ownerId ∧ row.runId = fence.runId

instance (row : SchedulerLeaseRow) (fence : SchedulerFence) : Decidable (row.Names fence) :=
  inferInstanceAs (Decidable (_ ∧ _))

theorem accepted_names {row : Option SchedulerLeaseRow} {fence : SchedulerFence} {now clock : Time}
    (h : (requireCurrentFence row fence now clock).accepted = true) :
    ∃ r, row = some r ∧ r.Names fence ∧ r.status = .held ∧ now < r.expiresAt := by
  rcases row with - | r
  · cases h
  · have hand : (decide (r.status = .held ∧ now < r.expiresAt) && decide (r.Names fence)) = true := h
    rw [Bool.and_eq_true, decide_eq_true_eq, decide_eq_true_eq] at hand
    exact ⟨r, rfl, hand.2, hand.1⟩

namespace LeaseTransaction

variable {tx : LeaseTransaction} {row : SchedulerLeaseRow} {now : Time} {stage : LeaseStage}

/-- The row lock is granted: an acquisition takes a free lease over with its own token, and every
other statement only reads the row. -/
theorem granted_some {row row' : Option SchedulerLeaseRow}
    (h : tx.granted row now = some (stage, row')) :
    (∃ input statementAt ttlMs token taken, tx.operation = .acquire input ∧
      tx.stage = .acquiring statementAt ttlMs token ∧ stage = .ending (.acquired taken) ∧
      row' = some taken ∧ taken.fencingToken = token ∧ taken.jobName = input.jobName ∧
      ∀ r, row = some r → r.free statementAt = true) ∨
    (∃ r, row = some r ∧ row' = some r ∧ (∀ taken, stage ≠ .ending (.acquired taken)) ∧
      (stage = .writing → ∃ fence, tx.operation = .guarded fence ∧ r.Names fence)) := by
  unfold granted at h
  split at h
  · next input statementAt ttlMs token hoperation hstage =>
    split at h
    · next taken hacquire =>
      obtain ⟨rfl, rfl⟩ := Prod.mk.inj (Option.some_inj.1 h)
      refine Or.inl ⟨input, statementAt, ttlMs, token, taken, hoperation, hstage, rfl, rfl, ?_⟩
      unfold acquireRow at hacquire
      dsimp only at hacquire
      split at hacquire
      · obtain rfl := Option.some_inj.1 hacquire
        exact ⟨rfl, rfl, fun r hr ↦ by cases hr⟩
      · split at hacquire
        · next hfree =>
          obtain rfl := Option.some_inj.1 hacquire
          refine ⟨rfl, rfl, fun r hr ↦ ?_⟩
          rwa [← Option.some_inj.1 hr]
        · cases hacquire
    · obtain ⟨rfl, rfl⟩ := Prod.mk.inj (Option.some_inj.1 h)
      refine Or.inr ⟨_, rfl, rfl, fun _ hne ↦ ?_, fun hne ↦ ?_⟩
      · cases hne
      · cases hne
    · cases h
  · obtain ⟨rfl, rfl⟩ := Prod.mk.inj (Option.some_inj.1 h)
    refine Or.inr ⟨_, rfl, rfl, fun _ hne ↦ ?_, fun hne ↦ ?_⟩
    · split at hne
      · cases hne
      · cases hne
    · split at hne
      · cases hne
      · cases hne
  · obtain ⟨rfl, rfl⟩ := Prod.mk.inj (Option.some_inj.1 h)
    refine Or.inr ⟨_, rfl, rfl, fun _ hne ↦ ?_, fun hne ↦ ?_⟩
    · split at hne
      · cases hne
      · cases hne
    · split at hne
      · cases hne
      · cases hne
  · next fence _ r hoperation _ =>
    obtain ⟨rfl, rfl⟩ := Prod.mk.inj (Option.some_inj.1 h)
    refine Or.inr ⟨_, rfl, rfl, fun _ hne ↦ ?_, fun hwriting ↦ ⟨fence, hoperation, ?_⟩⟩
    · split at hne
      · cases hne
      · cases hne
    · split at hwriting
      · next haccepted =>
        obtain ⟨r', hr', hnames, _⟩ := accepted_names haccepted
        rwa [Option.some_inj.1 hr']
      · cases hwriting
  · cases h

/-- An update keeps the token, and changes nothing unless the fence matches at its time. -/
theorem updated_some {row' : SchedulerLeaseRow} (h : tx.updated row now = some (stage, row')) :
    row'.fencingToken = row.fencingToken ∧ row'.jobName = row.jobName ∧
      (∃ ttlMs, tx.stage = .updating ttlMs) ∧ stage ≠ .writing ∧
      (∀ taken, stage ≠ .ending (.acquired taken)) ∧
      (row' ≠ row → ∃ identity, tx.operation.identity? = some identity ∧
        fenceMatches row identity now = true) := by
  unfold updated at h
  split at h
  · next input ttlMs hoperation hstage =>
    unfold heartbeatRow at h
    by_cases hmatches : fenceMatches row input.toSchedulerFencingIdentity now = true
    · rw [if_pos hmatches] at h
      obtain ⟨rfl, rfl⟩ := Prod.mk.inj (Option.some_inj.1 h)
      refine ⟨rfl, rfl, ⟨ttlMs, hstage⟩, by simp, by simp, fun _ ↦ ⟨_, ?_, hmatches⟩⟩
      rw [hoperation]
      rfl
    · rw [if_neg hmatches] at h
      obtain ⟨rfl, rfl⟩ := Prod.mk.inj (Option.some_inj.1 h)
      exact ⟨rfl, rfl, ⟨ttlMs, hstage⟩, by simp, by simp, fun hne ↦ absurd rfl hne⟩
  · next input ttlMs hoperation hstage =>
    unfold releaseRow at h
    dsimp only at h
    by_cases hmatches : fenceMatches row input.toSchedulerFencingIdentity now = true
    · rw [if_pos hmatches] at h
      obtain ⟨rfl, rfl⟩ := Prod.mk.inj (Option.some_inj.1 h)
      refine ⟨rfl, rfl, ⟨ttlMs, hstage⟩, by simp, by simp, fun _ ↦ ⟨_, ?_, hmatches⟩⟩
      rw [hoperation]
      rfl
    · rw [if_neg hmatches] at h
      obtain ⟨rfl, rfl⟩ := Prod.mk.inj (Option.some_inj.1 h)
      exact ⟨rfl, rfl, ⟨ttlMs, hstage⟩, by simp, by simp, fun hne ↦ absurd rfl hne⟩
  · cases h

theorem send_not_locks {found : Bool} {token : Nat} : ¬ (tx.send now found token).Locks := by
  unfold send
  split
  · split
    · exact id
    · exact id
  · split
    · exact id
    · exact id
  · exact id
  · exact id

theorem missed_not_locks : ¬ (tx.missed now).Locks := by
  unfold missed
  split
  · exact id
  · exact id

theorem events_some {events : List LeaseEvent} (h : tx.events = some events) :
    events = [] ∨
    (∃ taken, tx.stage = .ending (.acquired taken) ∧ events = [.acquired taken.fencingToken]) ∨
    (∃ fence, tx.stage = .writing ∧ tx.operation = .guarded fence ∧ events = [.wrote fence]) := by
  unfold LeaseTransaction.events at h
  split at h
  · next fence hoperation hstage =>
    exact Or.inr (Or.inr ⟨fence, hstage, hoperation, (Option.some_inj.1 h).symm⟩)
  · next taken hstage => exact Or.inr (Or.inl ⟨taken, hstage, (Option.some_inj.1 h).symm⟩)
  · cases h
  · exact Or.inl (Option.some_inj.1 h).symm
  · cases h

end LeaseTransaction

/-! ## Exclusion and fencing -/

namespace LeaseSystem

variable {W : Type} [DecidableEq W] {s s' : LeaseSystem W} {act : LeaseAct W} {w : W}
  {tx : LeaseTransaction}

/-- Every transaction that depends on the row has its lock, and the fence of one that writes is the
one the committed row names. -/
structure Sound (s : LeaseSystem W) : Prop where
  unlocked : s.holder = none → s.row = s.saved
  locks : ∀ w tx, s.txs w = some tx → tx.stage.Locks → s.holder = some w
  writing : ∀ w tx, s.txs w = some tx → tx.stage = .writing →
    ∃ fence row, tx.operation = .guarded fence ∧ s.row = some row ∧ s.saved = some row ∧
      row.Names fence

/-- What a step does: it leaves the row and its lock alone, or it grants the lock, updates the row
or ends a transaction. -/
inductive Steps (s : LeaseSystem W) : LeaseAct W → LeaseSystem W → Prop where
  | quiet {act : LeaseAct W} {s' : LeaseSystem W}
      (hrow : s'.row = s.row) (hsaved : s'.saved = s.saved) (hholder : s'.holder = s.holder)
      (hlog : s'.log = s.log)
      (htxs : ∀ w tx, s'.txs w = some tx → tx.stage.Locks → s.txs w = some tx) : Steps s act s'
  | grant {w : W} {tx : LeaseTransaction} {stage : LeaseStage} {row : Option SchedulerLeaseRow}
      (htx : s.txs w = some tx) (hfree : s.holder = none)
      (hgranted : tx.granted s.row s.now = some (stage, row)) :
      Steps s (.grant w) { s.setStage w tx stage with row, holder := some w }
  | update {w : W} {tx : LeaseTransaction} {row row' : SchedulerLeaseRow} {stage : LeaseStage}
      (htx : s.txs w = some tx) (hrow : s.row = some row)
      (hupdated : tx.updated row s.now = some (stage, row')) :
      Steps s (.update w) { s.setStage w tx stage with row := some row' }
  | commit {w : W} {tx : LeaseTransaction} {events : List LeaseEvent}
      (htx : s.txs w = some tx) (hevents : tx.events = some events) :
      Steps s (.commit w) (s.finish w s.row events)
  | rollback {w : W} {tx : LeaseTransaction} (htx : s.txs w = some tx) :
      Steps s (.rollback w) (s.finish w s.saved [])

theorem setStage_txs {stage : LeaseStage} {w' : W} {tx' : LeaseTransaction}
    (h : (s.setStage w tx stage).txs w' = some tx') :
    (w' = w ∧ tx' = { tx with stage }) ∨ (w' ≠ w ∧ s.txs w' = some tx') := by
  by_cases hw : w' = w
  · subst hw
    exact Or.inl ⟨rfl, (Option.some_inj.1 ((Function.update_self _ _ s.txs).symm.trans h)).symm⟩
  · exact Or.inr ⟨hw, (Function.update_of_ne hw _ s.txs).symm.trans h⟩

/-- **One step.** -/
theorem step_cases (h : step act s = some s') : Steps s act s' := by
  have hquiet : ∀ {w tx stage}, ¬ LeaseStage.Locks stage →
      ∀ w' tx', (s.setStage w tx stage).txs w' = some tx' → tx'.stage.Locks →
        s.txs w' = some tx' := by
    intro w tx stage hstage w' tx' htx' hlocks
    rcases setStage_txs htx' with ⟨_, rfl⟩ | ⟨_, hother⟩
    · exact absurd hlocks hstage
    · exact hother
  unfold step at h
  split at h
  · split at h
    · obtain rfl := Option.some_inj.1 h
      exact .quiet rfl rfl rfl rfl fun _ _ htx _ ↦ htx
    · cases h
  · split at h
    · obtain rfl := Option.some_inj.1 h
      exact .quiet rfl rfl rfl rfl fun _ _ htx _ ↦ htx
    · cases h
  · next w operation =>
    split at h
    · obtain rfl := Option.some_inj.1 h
      refine .quiet rfl rfl rfl rfl fun w' tx' htx' hlocks ↦ ?_
      by_cases hw : w' = w
      · subst hw
        obtain rfl := Option.some_inj.1 ((Function.update_self _ _ s.txs).symm.trans htx')
        exact absurd hlocks id
      · exact (Function.update_of_ne hw _ s.txs).symm.trans htx'
    · cases h
  · next w value =>
    obtain ⟨tx, _, h⟩ := Option.bind_eq_some_iff.1 h
    split at h
    · have hnot := @LeaseTransaction.send_not_locks tx s.now s.saved.isSome value
      split at h
      · next hsend =>
        rw [hsend] at hnot
        split at h
        · obtain rfl := Option.some_inj.1 h
          exact .quiet rfl rfl rfl rfl (hquiet hnot)
        · cases h
      · obtain rfl := Option.some_inj.1 h
        exact .quiet rfl rfl rfl rfl (hquiet hnot)
    · cases h
  · next w =>
    obtain ⟨tx, htx, h⟩ := Option.bind_eq_some_iff.1 h
    split at h
    · next hfree =>
      obtain ⟨⟨stage, row⟩, hgranted, h⟩ := Option.bind_eq_some_iff.1 h
      obtain rfl := Option.some_inj.1 h
      exact .grant htx hfree hgranted
    · cases h
  · next w =>
    obtain ⟨tx, _, h⟩ := Option.bind_eq_some_iff.1 h
    split at h
    · obtain rfl := Option.some_inj.1 h
      exact .quiet rfl rfl rfl rfl (hquiet LeaseTransaction.missed_not_locks)
    · cases h
  · next w =>
    obtain ⟨tx, htx, h⟩ := Option.bind_eq_some_iff.1 h
    obtain ⟨row, hrow, h⟩ := Option.bind_eq_some_iff.1 h
    obtain ⟨⟨stage, row'⟩, hupdated, h⟩ := Option.bind_eq_some_iff.1 h
    obtain rfl := Option.some_inj.1 h
    exact .update htx hrow hupdated
  · next w =>
    obtain ⟨tx, htx, h⟩ := Option.bind_eq_some_iff.1 h
    obtain ⟨events, hevents, h⟩ := Option.bind_eq_some_iff.1 h
    obtain rfl := Option.some_inj.1 h
    exact .commit htx hevents
  · next w =>
    obtain ⟨tx, htx, h⟩ := Option.bind_eq_some_iff.1 h
    obtain rfl := Option.some_inj.1 h
    exact .rollback htx

theorem finish_txs {row : Option SchedulerLeaseRow} {events : List LeaseEvent} {w' : W}
    {tx' : LeaseTransaction} (h : (s.finish w row events).txs w' = some tx') :
    w' ≠ w ∧ s.txs w' = some tx' := by
  by_cases hw : w' = w
  · subst hw
    exact absurd ((Function.update_self _ _ s.txs).symm.trans h) (by simp)
  · exact ⟨hw, (Function.update_of_ne hw _ s.txs).symm.trans h⟩

/-- The end of the transaction that has the lock leaves the row it gives. -/
theorem finish_own {row : Option SchedulerLeaseRow} {events : List LeaseEvent}
    (h : s.holder = some w) : (s.finish w row events).row = row ∧
      (s.finish w row events).saved = row ∧ (s.finish w row events).holder = none :=
  ⟨if_pos h, if_pos h, if_pos h⟩

/-- The end of any other leaves the row and the lock alone. -/
theorem finish_other {row : Option SchedulerLeaseRow} {events : List LeaseEvent}
    (h : s.holder ≠ some w) : (s.finish w row events).row = s.row ∧
      (s.finish w row events).saved = s.saved ∧ (s.finish w row events).holder = s.holder :=
  ⟨if_neg h, if_neg h, if_neg h⟩

/-- After the end of a transaction, the ones that depend on the row are those that did before, and
their lock is not the one that was given up. -/
theorem Sound.finish_locks (hs : s.Sound) {row : Option SchedulerLeaseRow}
    {events : List LeaseEvent} {w' : W} {tx' : LeaseTransaction}
    (h : (s.finish w row events).txs w' = some tx') (hlocks : tx'.stage.Locks) :
    s.txs w' = some tx' ∧ s.holder = some w' ∧ s.holder ≠ some w := by
  obtain ⟨hw, htx⟩ := finish_txs h
  have hholder := hs.locks w' tx' htx hlocks
  exact ⟨htx, hholder, fun hself ↦ hw (Option.some_inj.1 (hholder.symm.trans hself))⟩

theorem Sound.finish (hs : s.Sound) {row : Option SchedulerLeaseRow} {events : List LeaseEvent} :
    (s.finish w row events).Sound := by
  refine ⟨fun hnone ↦ ?_, fun w' tx' htx' hlocks ↦ ?_, fun w' tx' htx' hwriting ↦ ?_⟩
  · by_cases hself : s.holder = some w
    · obtain ⟨hrow, hsaved, _⟩ := @finish_own W _ s w row events hself
      rw [hrow, hsaved]
    · obtain ⟨hrow, hsaved, hholder⟩ := @finish_other W _ s w row events hself
      rw [hrow, hsaved]
      exact hs.unlocked (hholder.symm.trans hnone)
  · obtain ⟨_, hholder, hne⟩ := hs.finish_locks htx' hlocks
    rw [(finish_other hne).2.2]
    exact hholder
  · obtain ⟨htx, _, hne⟩ := hs.finish_locks htx' (by rw [hwriting]; trivial)
    obtain ⟨hrow, hsaved, _⟩ := @finish_other W _ s w row events hne
    rw [hrow, hsaved]
    exact hs.writing w' tx' htx hwriting

/-- **Locks are kept to the end of a transaction.** -/
theorem Sound.step (hs : s.Sound) (h : step act s = some s') : s'.Sound := by
  rcases step_cases h with ⟨hrow, hsaved, hholder, _, htxs⟩ | ⟨htx, hfree, hgranted⟩ |
    ⟨htx, hrow, hupdated⟩ | ⟨htx, hevents⟩ | ⟨htx⟩
  · refine ⟨fun hnone ↦ ?_, fun w tx htx hlocks ↦ ?_, fun w tx htx hwriting ↦ ?_⟩
    · rw [hrow, hsaved]
      exact hs.unlocked (hholder ▸ hnone)
    · rw [hholder]
      exact hs.locks w tx (htxs w tx htx hlocks) hlocks
    · rw [hrow, hsaved]
      exact hs.writing w tx (htxs w tx htx (by rw [hwriting]; trivial)) hwriting
  · -- Nobody had the lock, so no other transaction depends on the row.
    have hother : ∀ w' tx', s.txs w' = some tx' → ¬ tx'.stage.Locks := by
      intro w' tx' htx' hlocks
      rw [hs.locks w' tx' htx' hlocks] at hfree
      cases hfree
    refine ⟨fun hnone ↦ (by cases hnone), fun w' tx' htx' hlocks ↦ ?_,
      fun w' tx' htx' hwriting ↦ ?_⟩
    · rcases setStage_txs htx' with ⟨rfl, _⟩ | ⟨_, htx'⟩
      · rfl
      · exact absurd hlocks (hother w' tx' htx')
    · rcases setStage_txs htx' with ⟨rfl, rfl⟩ | ⟨_, htx'⟩
      · rcases LeaseTransaction.granted_some hgranted with
          ⟨_, _, _, _, _, _, _, hstage, _⟩ | ⟨r, hr, hr', _, hfence⟩
        · rw [hstage] at hwriting
          cases hwriting
        · obtain ⟨fence, hoperation, hnames⟩ := hfence hwriting
          exact ⟨fence, r, hoperation, hr', (hs.unlocked hfree).symm.trans hr, hnames⟩
      · exact absurd (by rw [hwriting]; trivial) (hother w' tx' htx')
  · obtain ⟨htoken, hjob, ⟨ttlMs, hstage⟩, hnot, _, _⟩ := LeaseTransaction.updated_some hupdated
    have hself := hs.locks _ _ htx (by rw [hstage]; trivial)
    refine ⟨fun hnone ↦ ?_, fun w' tx' htx' hlocks ↦ ?_, fun w' tx' htx' hwriting ↦ ?_⟩
    · exact absurd (hself.symm.trans hnone) (by simp)
    · rcases setStage_txs htx' with ⟨rfl, _⟩ | ⟨_, htx'⟩
      · exact hself
      · exact hs.locks w' tx' htx' hlocks
    · rcases setStage_txs htx' with ⟨_, rfl⟩ | ⟨hw, htx'⟩
      · exact absurd hwriting hnot
      · have hholder := hs.locks w' tx' htx' (by rw [hwriting]; trivial)
        exact absurd (Option.some_inj.1 (hholder.symm.trans hself)) hw
  · exact hs.finish
  · exact hs.finish

/-! ### Tokens in order -/

/-- A later event does not contradict an earlier one: tokens grow, and no write is fenced by a
token older than one that was acquired before it. -/
def Follows (earlier later : LeaseEvent) : Prop :=
  ∀ token, earlier = .acquired token →
    (∀ token', later = .acquired token' → token < token') ∧
      ∀ fence, later = .wrote fence → token ≤ fence.fencingToken

/-- The row is as new as everything that was acquired. -/
structure Ordered (s : LeaseSystem W) : Prop where
  saved : ∀ token, .acquired token ∈ s.log → ∃ row, s.saved = some row ∧ token ≤ row.fencingToken
  row : ∀ token, .acquired token ∈ s.log → ∃ row, s.row = some row ∧ token ≤ row.fencingToken
  taken : ∀ w tx taken, s.txs w = some tx → tx.stage = .ending (.acquired taken) →
    s.row = some taken ∧ ∀ token, .acquired token ∈ s.log → token < taken.fencingToken
  follows : s.log.Pairwise Follows

/-- The end of a transaction that commits. -/
theorem Ordered.commit (ho : s.Ordered) (hs : s.Sound) {events : List LeaseEvent}
    (htx : s.txs w = some tx) (hevents : tx.events = some events) :
    (s.finish w s.row events).Ordered := by
  have hlog : (s.finish w s.row events).log = s.log ++ events := rfl
  -- The new events come from a transaction that has the lock, and follow what is logged.
  have hnew : ∀ e ∈ events, s.holder = some w ∧ (∀ earlier ∈ s.log, Follows earlier e) ∧
      ∀ t, e = .acquired t → ∃ row, s.row = some row ∧ t ≤ row.fencingToken := by
    intro e he
    rcases LeaseTransaction.events_some hevents with rfl | ⟨taken, hstage, rfl⟩ |
      ⟨fence, hstage, hoperation, rfl⟩
    · cases he
    · obtain rfl := List.mem_singleton.1 he
      obtain ⟨hrow, hnewer⟩ := ho.taken w tx taken htx hstage
      refine ⟨hs.locks w tx htx (by rw [hstage]; trivial), ?_, ?_⟩
      · rintro _ hearlier t rfl
        refine ⟨fun t' ht' ↦ ?_, fun f hf ↦ by cases hf⟩
        rw [← LeaseEvent.acquired.inj ht']
        exact hnewer t hearlier
      · intro t ht
        exact ⟨taken, hrow, (LeaseEvent.acquired.inj ht).ge⟩
    · obtain rfl := List.mem_singleton.1 he
      obtain ⟨fence', row, hoperation', hrow, _, hnames⟩ := hs.writing w tx htx hstage
      obtain rfl := LeaseOperation.guarded.inj (hoperation.symm.trans hoperation')
      refine ⟨hs.locks w tx htx (by rw [hstage]; trivial), ?_, fun t ht ↦ by cases ht⟩
      rintro _ hearlier t rfl
      refine ⟨fun t' ht' ↦ (by cases ht'), fun f hf ↦ ?_⟩
      obtain ⟨r, hr, hle⟩ := ho.row t hearlier
      rw [← LeaseEvent.wrote.inj hf, ← hnames.1, Option.some_inj.1 (hrow.symm.trans hr)]
      exact hle
  have hpairwise : (s.log ++ events).Pairwise Follows := by
    refine List.pairwise_append.2 ⟨ho.follows, ?_, fun earlier hearlier e he ↦
      (hnew e he).2.1 earlier hearlier⟩
    rcases LeaseTransaction.events_some hevents with rfl | ⟨_, _, rfl⟩ | ⟨_, _, _, rfl⟩
    · exact List.Pairwise.nil
    · exact List.pairwise_singleton _ _
    · exact List.pairwise_singleton _ _
  have hrow : ∀ t, .acquired t ∈ s.log ++ events →
      ∃ row, s.row = some row ∧ t ≤ row.fencingToken := by
    intro t ht
    rcases List.mem_append.1 ht with ht | ht
    · exact ho.row t ht
    · exact (hnew _ ht).2.2 t rfl
  by_cases hself : s.holder = some w
  · obtain ⟨hrow', hsaved', _⟩ := @finish_own W _ s w s.row events hself
    refine ⟨?_, ?_, fun w' tx' taken htx' htaken ↦ ?_, hpairwise⟩
    · rw [hsaved']
      exact hrow
    · rw [hrow']
      exact hrow
    · exact absurd hself (hs.finish_locks htx' (by rw [htaken]; trivial)).2.2
  · obtain ⟨hrow', hsaved', _⟩ := @finish_other W _ s w s.row events hself
    obtain rfl : events = [] := List.eq_nil_iff_forall_not_mem.2 fun e he ↦ hself (hnew e he).1
    rw [List.append_nil] at hlog
    refine ⟨?_, ?_, fun w' tx' taken htx' htaken ↦ ?_, hpairwise⟩
    · rw [hsaved', hlog]
      exact ho.saved
    · rw [hrow', hlog]
      exact ho.row
    · rw [hrow', hlog]
      exact ho.taken w' tx' taken (finish_txs htx').2 htaken

/-- **Acquisitions in order keep the tokens in order.** -/
theorem Ordered.step (ho : s.Ordered) (hs : s.Sound) (hin : s.InOrder act)
    (h : LeaseSystem.step act s = some s') : s'.Ordered := by
  rcases step_cases h with ⟨hrow, hsaved, hholder, hlog, htxs⟩ | ⟨htx, hfree, hgranted⟩ |
    ⟨htx, hrow, hupdated⟩ | ⟨htx, hevents⟩ | ⟨htx⟩
  · refine ⟨?_, ?_, fun w tx taken htx htaken ↦ ?_, ?_⟩
    · rw [hlog, hsaved]
      exact ho.saved
    · rw [hlog, hrow]
      exact ho.row
    · rw [hlog, hrow]
      exact ho.taken w tx taken (htxs w tx htx (by rw [htaken]; trivial)) htaken
    · rw [hlog]
      exact ho.follows
  · next w tx stage row =>
    have hother : ∀ w' tx', s.txs w' = some tx' → ¬ tx'.stage.Locks := by
      intro w' tx' htx' hlocks
      rw [hs.locks w' tx' htx' hlocks] at hfree
      cases hfree
    rcases LeaseTransaction.granted_some hgranted with
      ⟨_, statementAt, _, token, taken, _, hstage, rfl, rfl, htoken, _, htakeable⟩ |
      ⟨r, hr, rfl, hnot, _⟩
    · -- The row that was there is older than the token that takes it over.
      have hnewer : ∀ t, .acquired t ∈ s.log → t < taken.fencingToken := by
        intro t ht
        obtain ⟨r, hr, hle⟩ := ho.row t ht
        have hless := hin tx htx r hr
        rw [hstage] at hless
        rw [htoken]
        exact lt_of_le_of_lt hle (hless (htakeable r hr))
      refine ⟨ho.saved, fun t ht ↦ ⟨taken, rfl, (hnewer t ht).le⟩,
        fun w' tx' taken' htx' htaken ↦ ?_, ho.follows⟩
      rcases setStage_txs htx' with ⟨_, rfl⟩ | ⟨_, htx'⟩
      · obtain rfl := LeaseResult.acquired.inj (LeaseStage.ending.inj htaken)
        exact ⟨rfl, hnewer⟩
      · exact absurd (by rw [htaken]; trivial) (hother w' tx' htx')
    · refine ⟨ho.saved, fun t ht ↦ ?_, fun w' tx' taken' htx' htaken ↦ ?_, ho.follows⟩
      · exact hr ▸ ho.row t ht
      · rcases setStage_txs htx' with ⟨_, rfl⟩ | ⟨_, htx'⟩
        · exact absurd htaken (hnot taken')
        · exact absurd (by rw [htaken]; trivial) (hother w' tx' htx')
  · next w tx row row' stage =>
    obtain ⟨htoken, _, ⟨ttlMs, hstage⟩, _, hnot, _⟩ := LeaseTransaction.updated_some hupdated
    have hself := hs.locks w tx htx (by rw [hstage]; trivial)
    refine ⟨ho.saved, fun t ht ↦ ⟨row', rfl, ?_⟩, fun w' tx' taken' htx' htaken ↦ ?_, ho.follows⟩
    · obtain ⟨r, hr, hle⟩ := ho.row t ht
      rw [htoken, Option.some_inj.1 (hrow.symm.trans hr)]
      exact hle
    · rcases setStage_txs htx' with ⟨_, rfl⟩ | ⟨hw, htx'⟩
      · exact absurd htaken (hnot taken')
      · have hholder := hs.locks w' tx' htx' (by rw [htaken]; trivial)
        exact absurd (Option.some_inj.1 (hholder.symm.trans hself)) hw
  · exact ho.commit hs htx hevents
  · next w tx =>
    have hlog : (s.finish w s.saved []).log = s.log := List.append_nil s.log
    refine ⟨fun t ht ↦ ?_, fun t ht ↦ ?_, fun w' tx' taken htx' htaken ↦ ?_, ?_⟩
    · rw [hlog] at ht
      by_cases hself : s.holder = some w
      · rw [(finish_own hself).2.1]
        exact ho.saved t ht
      · rw [(finish_other hself).2.1]
        exact ho.saved t ht
    · rw [hlog] at ht
      by_cases hself : s.holder = some w
      · rw [(finish_own hself).1]
        exact ho.saved t ht
      · rw [(finish_other hself).1]
        exact ho.row t ht
    · obtain ⟨htx', _, hne⟩ := hs.finish_locks htx' (by rw [htaken]; trivial)
      rw [hlog, (finish_other hne).1]
      exact ho.taken w' tx' taken htx' htaken
    · rw [hlog]
      exact ho.follows

/-! ### Runs -/

/-- One worker at most passes the fence: the row accepts one fence of the job, and one transaction
at a time is past its check, with the fence the row names. -/
structure Exclusive (s : LeaseSystem W) : Prop where
  one : ∀ fence fence' now now' clock clock',
    fence.jobName = s.jobName → fence'.jobName = s.jobName →
    (requireCurrentFence s.row fence now clock).accepted = true →
    (requireCurrentFence s.row fence' now' clock').accepted = true → fence = fence'
  writer : ∀ w w' tx tx', s.txs w = some tx → s.txs w' = some tx' → tx.stage = .writing →
    tx'.stage = .writing → w = w'
  named : ∀ w tx, s.txs w = some tx → tx.stage = .writing →
    ∃ fence row, tx.operation = .guarded fence ∧ s.row = some row ∧ row.Names fence

/-- A heartbeat or a release changes the row only with the token of the row, before it expires. -/
def Mutations (s : LeaseSystem W) : Prop :=
  ∀ w tx identity act s', s.txs w = some tx → tx.operation.identity? = some identity →
    act.worker? = some w → act ≠ .rollback w → step act s = some s' → s'.row ≠ s.row →
      ∃ row, s.row = some row ∧ fenceMatches row identity s.now = true

omit [DecidableEq W] in
theorem Sound.exclusive (hs : s.Sound) : s.Exclusive where
  one fence fence' now now' clock clock' hjob hjob' h h' := by
    obtain ⟨row, hrow, ⟨htoken, hworkstream, howner, hrun⟩, _⟩ := accepted_names h
    obtain ⟨row', hrow', ⟨htoken', hworkstream', howner', hrun'⟩, _⟩ := accepted_names h'
    obtain rfl := Option.some_inj.1 (hrow.symm.trans hrow')
    rcases fence with ⟨_, _, _, _, _⟩
    rcases fence' with ⟨_, _, _, _, _⟩
    simp_all
  writer w w' tx tx' htx htx' hwriting hwriting' := by
    have hholder := hs.locks w tx htx (by rw [hwriting]; trivial)
    have hholder' := hs.locks w' tx' htx' (by rw [hwriting']; trivial)
    exact Option.some_inj.1 (hholder.symm.trans hholder')
  named w tx htx hwriting := by
    obtain ⟨fence, row, hoperation, hrow, _, hnames⟩ := hs.writing w tx htx hwriting
    exact ⟨fence, row, hoperation, hrow, hnames⟩

theorem mutations (s : LeaseSystem W) : s.Mutations := by
  intro w tx identity act s' htx hidentity hworker hroll hstep hne
  rcases step_cases hstep with ⟨hrow, _, _, _, _⟩ | ⟨htx', _, hgranted⟩ |
    ⟨htx', hrow, hupdated⟩ | ⟨_, _⟩ | ⟨_⟩
  · exact absurd hrow hne
  · obtain rfl := Option.some_inj.1 hworker
    obtain rfl := Option.some_inj.1 (htx'.symm.trans htx)
    rcases LeaseTransaction.granted_some hgranted with
      ⟨_, _, _, _, _, hoperation, _⟩ | ⟨r, hr, hr', _⟩
    · rw [hoperation] at hidentity
      cases hidentity
    · exact absurd (hr'.trans hr.symm) hne
  · obtain rfl := Option.some_inj.1 hworker
    obtain rfl := Option.some_inj.1 (htx'.symm.trans htx)
    obtain ⟨_, _, _, _, _, hchanged⟩ := LeaseTransaction.updated_some hupdated
    obtain ⟨identity', hidentity', hmatches⟩ :=
      hchanged fun heq ↦ hne (by rw [heq]; exact hrow.symm)
    obtain rfl := Option.some_inj.1 (hidentity'.symm.trans hidentity)
    exact ⟨_, hrow, hmatches⟩
  · refine absurd ?_ hne
    exact ite_self s.row
  · obtain rfl := Option.some_inj.1 hworker
    exact absurd rfl hroll

omit [DecidableEq W] in
theorem Idle.sound (h : s.Idle) : s.Sound := by
  obtain ⟨hrow, _, htxs, _⟩ := h
  have hnone : ∀ w tx, s.txs w ≠ some tx := by
    intro w tx
    rw [htxs]
    simp
  exact ⟨fun _ ↦ hrow, fun w tx htx ↦ absurd htx (hnone w tx), fun w tx htx ↦ absurd htx (hnone w tx)⟩

omit [DecidableEq W] in
theorem Idle.ordered (h : s.Idle) : s.Ordered := by
  obtain ⟨_, _, htxs, hlog⟩ := h
  have hnone : ∀ w tx, s.txs w ≠ some tx := by
    intro w tx
    rw [htxs]
    simp
  refine ⟨?_, ?_, fun w tx _ htx ↦ absurd htx (hnone w tx), ?_⟩
  · rw [hlog]
    simp
  · rw [hlog]
    simp
  · rw [hlog]
    exact List.Pairwise.nil

end LeaseSystem

open LeaseSystem in
/-- **Leases exclude and fence**, in every interleaving: one worker at most passes the fence, and a
heartbeat or a release changes the row only with its token and before it expires.  When no upsert
takes over a row whose token was drawn after its own, the tokens of successive acquisitions grow,
and no fenced write commits under a token older than one acquired before. -/
theorem leases_fenced {W : Type} [DecidableEq W] {s₀ s : LeaseSystem W} {acts : List (LeaseAct W)}
    (hidle : s₀.Idle) (hrun : runActs LeaseSystem.step s₀ acts = some s) :
    s.Exclusive ∧ s.Mutations ∧
      (Guarded LeaseSystem.step InOrder s₀ acts → s.log.Pairwise Follows) := by
  have hsound : s.Sound := invariant_of_run (fun _ _ _ hs h ↦ hs.step h) hidle.sound hrun
  refine ⟨hsound.exclusive, mutations s, fun hguard ↦ ?_⟩
  have hstep : ∀ (t : LeaseSystem W) act t', t.Sound ∧ t.Ordered → t.InOrder act →
      LeaseSystem.step act t = some t' → t'.Sound ∧ t'.Ordered :=
    fun t act t' hI hin h ↦ ⟨hI.1.step h, hI.2.step hI.1 hin h⟩
  exact (invariant_of_guarded hstep ⟨hidle.sound, hidle.ordered⟩ hguard hrun).2.follows

/-! ### Two acquisitions -/

namespace Specimen

/-- A job nobody has run. -/
def idleLease : LeaseSystem ℕ where
  jobName := "paper-exit"
  now := 0
  sequence := 0
  row := none
  saved := none

/-- The acquisition of an owner, for a minute. -/
def acquireBy (owner : String) : LeaseOperation :=
  .acquire ⟨"paper-exit", "paper_exit", owner, "run", 0, 60000⟩

/-- The fence of an owner. -/
def fenceOf (owner : String) (token : Nat) : SchedulerFence :=
  ⟨"paper-exit", "paper_exit", owner, "run", token⟩

/-- The release of an owner. -/
def releaseBy (owner : String) (token : Nat) : LeaseOperation :=
  .release { jobName := "paper-exit", ownerId := owner, runId := "run", fencingToken := token }

/-- One after the other: the first worker acquires, writes and releases, then the second one
acquires. -/
def successiveActs : List (LeaseAct ℕ) :=
  [.begin 0 (acquireBy "first"), .send 0 1, .grant 0, .commit 0, .tick 10,
    .begin 0 (.guarded (fenceOf "first" 1)), .send 0 0, .grant 0, .commit 0,
    .begin 0 (releaseBy "first" 1), .send 0 0, .grant 0, .update 0, .commit 0, .tick 20,
    .begin 1 (acquireBy "second"), .send 1 2, .grant 1, .commit 1]

/-- The upsert of the first worker waits while the second one acquires and releases. -/
def overtakenActs : List (LeaseAct ℕ) :=
  [.begin 0 (acquireBy "first"), .send 0 1, .begin 1 (acquireBy "second"), .send 1 2,
    .grant 1, .commit 1, .tick 10, .begin 1 (releaseBy "second" 2), .send 1 0, .grant 1,
    .update 1, .commit 1, .grant 0, .commit 0,
    .begin 0 (.guarded (fenceOf "first" 1)), .send 0 0, .grant 0, .commit 0]

end Specimen

theorem idleLease_idle : Specimen.idleLease.Idle := ⟨rfl, rfl, fun _ ↦ rfl, rfl⟩

/-- The theorem at two workers that take turns. -/
theorem successive_leases_fenced :
    ∃ s, runActs LeaseSystem.step Specimen.idleLease Specimen.successiveActs = some s ∧
      s.log = [.acquired 1, .wrote (Specimen.fenceOf "first" 1), .acquired 2] ∧
      s.Exclusive ∧ s.Mutations ∧ s.log.Pairwise LeaseSystem.Follows := by
  have hlog : (runActs LeaseSystem.step Specimen.idleLease Specimen.successiveActs).map (·.log) =
      some [.acquired 1, .wrote (Specimen.fenceOf "first" 1), .acquired 2] := by
    decide +kernel
  have hguard : Guarded LeaseSystem.step LeaseSystem.InOrder Specimen.idleLease
      Specimen.successiveActs := by
    decide +kernel
  obtain ⟨s, hs, hlog⟩ := Option.map_eq_some_iff.1 hlog
  obtain ⟨hexclusive, hmutations, hfollows⟩ := leases_fenced idleLease_idle hs
  exact ⟨s, hs, hlog, hexclusive, hmutations, hfollows hguard⟩

/-- A token that was drawn first takes over last, and fences a write. -/
theorem late_token_takes_over :
    ∃ s, runActs LeaseSystem.step Specimen.idleLease Specimen.overtakenActs = some s ∧
      s.log = [.acquired 2, .acquired 1, .wrote (Specimen.fenceOf "first" 1)] ∧
      ¬ s.log.Pairwise LeaseSystem.Follows := by
  have hlog : (runActs LeaseSystem.step Specimen.idleLease Specimen.overtakenActs).map (·.log) =
      some [.acquired 2, .acquired 1, .wrote (Specimen.fenceOf "first" 1)] := by
    decide +kernel
  obtain ⟨s, hs, hlog⟩ := Option.map_eq_some_iff.1 hlog
  refine ⟨s, hs, hlog, fun hpairwise ↦ ?_⟩
  rw [hlog, List.pairwise_cons] at hpairwise
  have hless := (hpairwise.1 (.acquired 1) (by simp) 2 rfl).1 1 rfl
  omega

end AlpacaTrading
