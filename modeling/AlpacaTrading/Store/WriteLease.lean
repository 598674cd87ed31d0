import AlpacaTrading.Broker.Response
import AlpacaTrading.Lib.Run
import AlpacaTrading.Lib.Tenancy
import Mathlib.Algebra.Order.Floor.Ring
import Mathlib.Data.Rat.Floor

/-!
# The lease of heavy writers

Research and the zero-DTE engine write large batches to one SQLite file from several processes.
`withHeavyPersistenceLease` gives an operation a row of `runtime_write_leases` for a minute, which
it checks and renews between its batches.

A batch is not written in the transaction that checks the lease.  So an operation that is late may
write a batch when the lease is another's, and learns of it only afterwards; it then throws.  What
holds is `completed_serial`: of two operations that return, one has written everything before the
other has written anything.  This needs no clock: processes may read any times, and a lease that is
lost is never got back, since every call draws an id of its own.
-/

namespace AlpacaTrading

namespace WriteLease

open Tenancy

/-! ## The service -/

/-- `LeaseRow`. -/
structure LeaseRow where
  ownerId : String
  expiresAt : Time

/-- The ids of the calls: host, process and a fresh uuid. -/
class OwnerIds where
  ownerId : Nat → String
  injective : Function.Injective ownerId

def clamp (value : Option ℚ) (fallback min max : Int) : Int :=
  match value with
  | none => fallback
  | some value => Min.min max (Max.max min ⌊value⌋)

/-- `HEAVY_PERSISTENCE_LEASE_NAME`. -/
def heavyPersistenceLeaseName : String := "research-options-and-zero-dte-engine"

/-- `LeaseInput`; a number that is not finite is none. -/
structure LeaseInput where
  leaseName : Option String := none
  leaseTtlMs : Option ℚ := none
  maxWaitMs : Option ℚ := none

namespace LeaseInput

def name (input : LeaseInput) : String :=
  (input.leaseName.filter (· ≠ "")).getD heavyPersistenceLeaseName

def ttlMs (input : LeaseInput) : Int := clamp input.leaseTtlMs 60000 100 300000

def waitMs (input : LeaseInput) : Int := clamp input.maxWaitMs 15000 0 300000

end LeaseInput

/-- What an operation does with its lease, and a transaction of its own. -/
inductive LeaseStep where
  | assertOwnership | write | renew
deriving DecidableEq

/-- The operations: batches of contracts or of snapshots, and a transaction of the zero-DTE
engine. -/
inductive Operation where
  | optionBatches (batches : Nat)
  | zeroDtePersistence
deriving DecidableEq

def Operation.steps : Operation → List LeaseStep
  | .optionBatches batches =>
    (List.replicate batches [.assertOwnership, .write, .renew]).flatten
  | .zeroDtePersistence => [.assertOwnership, .write, .assertOwnership]

/-- Where a call of `withHeavyPersistenceLease` is. -/
inductive LeaseStage where
  | acquiring (deadline : Time)
  | running (todo : List LeaseStep)
  | releasing (result : Except Thrown Unit)
  | done (result : Except Thrown Unit)
  | crashed

/-- The call has returned the result of its operation. -/
def LeaseStage.returned : LeaseStage → Bool
  | .done (.ok _) => true
  | _ => false

structure LeaseCall where
  input : LeaseInput
  operation : Operation
  stage : LeaseStage

/-- The steps of a call, with the times it reads and what it throws. -/
inductive LeaseCallAct where
  | acquire (now later : Time) (fault : Option Thrown)
  | operate (now : Time) (fault : Option Thrown)
  | release (fault : Option Thrown)
  | crash

/-- `SqliteWriteLeaseUnavailableError`. -/
def unavailable (leaseName : String) : Thrown :=
  { message := "SQLite write lease " ++ leaseName ++
      " was not acquired within the bounded wait." }

/-- `SqliteWriteLeaseLostError`. -/
def lost (leaseName : String) : Thrown :=
  { message := "SQLite write lease " ++ leaseName ++ " is no longer owned by this process." }

/-- The row is that of the owner, and has not expired: what `assertLeaseOwnership` and the update of
`renewLease` ask. -/
def owns (row : Option LeaseRow) (ownerId : String) (now : Time) : Bool :=
  row.any fun row ↦ row.ownerId = ownerId ∧ now < row.expiresAt

/-- The row is another's, and has not expired. -/
def blocked (row : Option LeaseRow) (ownerId : String) (now : Time) : Bool :=
  row.any fun row ↦ row.ownerId ≠ ownerId ∧ now < row.expiresAt

/-- What a step comes to: the row, the stage, and what is noted. -/
abbrev LeaseCallStep := Option LeaseRow × LeaseStage × Option (Entry Nat)

section Step

variable [OwnerIds]

/-- The end of `withHeavyPersistenceLease`: an error of the release counts where there is no
other. -/
def releaseLease (p : Nat) (row : Option LeaseRow) (result : Except Thrown Unit)
    (fault : Option Thrown) : LeaseCallStep :=
  match fault with
  | some error => (row, .done (result.bind fun _ ↦ .error error), none)
  | none => (row.filter (·.ownerId ≠ OwnerIds.ownerId p), .done result, none)

/-- A step of the operation. -/
def operate (p : Nat) (input : LeaseInput) (row : Option LeaseRow) (step : LeaseStep)
    (todo : List LeaseStep) (now : Time) : LeaseCallStep :=
  match step with
  -- The transaction of a batch does not read the lease.
  | .write => (row, .running todo, some (.worked p))
  | .assertOwnership =>
    if owns row (OwnerIds.ownerId p) now then (row, .running todo, some (.confirmed p))
    else (row, .releasing (.error (lost input.name)), none)
  | .renew =>
    if owns row (OwnerIds.ownerId p) now then
      (some ⟨OwnerIds.ownerId p, now + input.ttlMs⟩, .running todo, some (.confirmed p))
    else (row, .releasing (.error (lost input.name)), none)

/-- The transaction of `acquireLease`. -/
def acquireLease (p : Nat) (call : LeaseCall) (row : Option LeaseRow) (deadline now later : Time) :
    LeaseCallStep :=
  if blocked row (OwnerIds.ownerId p) now then
    if deadline ≤ later then (row, .done (.error (unavailable call.input.name)), none)
    else (row, .acquiring deadline, none)
  else
    (some ⟨OwnerIds.ownerId p, now + call.input.ttlMs⟩,
      .running (.assertOwnership :: call.operation.steps), some (.entered p))

/-- One step of `withHeavyPersistenceLease`. -/
def LeaseCall.step (p : Nat) (call : LeaseCall) (row : Option LeaseRow) (act : LeaseCallAct) :
    Option LeaseCallStep :=
  match call.stage, act with
  | .acquiring _, .acquire _ _ (some error) => some (row, .done (.error error), none)
  | .acquiring deadline, .acquire now later none =>
    some (acquireLease p call row deadline now later)
  | .running (_ :: _), .operate _ (some error) => some (row, .releasing (.error error), none)
  | .running (step :: todo), .operate now none =>
    some (operate p call.input row step todo now)
  | .running [], .release fault => some (releaseLease p row (.ok ()) fault)
  | .releasing result, .release fault => some (releaseLease p row result fault)
  | .done _, _ => none
  | .crashed, _ => none
  | _, .crash => some (row, .crashed, none)
  | _, _ => none

/-- The leases, the calls, and what was noted of each lease. -/
structure LeaseSys where
  leases : String → Option LeaseRow
  calls : List LeaseCall := []
  log : String → List (Entry Nat) := fun _ ↦ []

inductive LeaseSysAct where
  | start (input : LeaseInput) (operation : Operation) (now : Time)
  | call (p : Nat) (act : LeaseCallAct)

/-- One step of any call. -/
def LeaseSys.step (act : LeaseSysAct) (s : LeaseSys) : Option LeaseSys :=
  match act with
  | .start input operation now =>
    some { s with
      calls := s.calls ++ [{ input, operation, stage := .acquiring (now + input.waitMs) }] }
  | .call p act =>
    match s.calls[p]? with
    | none => none
    | some call =>
      (call.step p (s.leases call.input.name) act).map fun (row, stage, entry) ↦
        { leases := Function.update s.leases call.input.name row
          calls := s.calls.set p { call with stage }
          log := Function.update s.log call.input.name
            (s.log call.input.name ++ entry.toList) }

end Step

/-! ## What a call keeps -/

/-- Every write is followed by a check, one that is `pending` included. -/
def settled : (pending : Bool) → List LeaseStep → Bool
  | pending, [] => !pending
  | _, .write :: todo => settled true todo
  | _, .assertOwnership :: todo => settled false todo
  | _, .renew :: todo => settled false todo

theorem settled_steps (operation : Operation) : settled false operation.steps = true := by
  cases operation with
  | zeroDtePersistence => rfl
  | optionBatches batches =>
    induction batches with
    | zero => rfl
    | succ batches ih => exact ih

/-- What the log says of a call. -/
def LeaseStage.Accounted (p : Nat) (log : List (Entry Nat)) : LeaseStage → Prop
  | .acquiring _ => .entered p ∉ log
  | .running todo => .entered p ∈ log ∧ ∃ pending, settled pending todo = true ∧
      (pending = false → Confirmed log p)
  | .releasing (.ok _) | .done (.ok _) => Confirmed log p
  | _ => True

theorem LeaseStage.Accounted.append {p : Nat} {log : List (Entry Nat)} {stage : LeaseStage}
    {e : Entry Nat} (h : stage.Accounted p log) (he : e.tenant ≠ p) :
    stage.Accounted p (log ++ [e]) := by
  have hworked : e ≠ .worked p := fun heq ↦ he (heq ▸ rfl)
  have hentered : e ≠ .entered p := fun heq ↦ he (heq ▸ rfl)
  cases stage with
  | acquiring deadline => simpa [Accounted, hentered.symm] using h
  | running todo =>
    obtain ⟨hin, pending, hsettled, hconfirmed⟩ := h
    exact ⟨List.mem_append_left _ hin, pending, hsettled,
      fun hpending ↦ (hconfirmed hpending).append hworked⟩
  | releasing result =>
    cases result with
    | ok _ => exact Confirmed.append h hworked
    | error error => trivial
  | done result =>
    cases result with
    | ok _ => exact Confirmed.append h hworked
    | error error => trivial
  | crashed => trivial

theorem LeaseStage.Accounted.concat {p : Nat} {log : List (Entry Nat)} {stage : LeaseStage}
    {entry : Option (Entry Nat)} (h : stage.Accounted p log)
    (hentry : ∀ e ∈ entry, e.tenant ≠ p) : stage.Accounted p (log ++ entry.toList) := by
  cases entry with
  | none => simpa using h
  | some e => exact h.append (hentry e rfl)

theorem LeaseStage.Accounted.confirmed {p : Nat} {log : List (Entry Nat)} {stage : LeaseStage}
    (h : stage.Accounted p log) (hreturned : stage.returned) : Confirmed log p := by
  cases stage with
  | done result =>
    cases result with
    | ok _ => exact h
    | error error => cases hreturned
  | _ => cases hreturned

/-- What the log says of the row of a lease. -/
def RowHeld [OwnerIds] (row : Option LeaseRow) (log : List (Entry Nat)) : Prop :=
  ∀ r ∈ row, ∀ p, r.ownerId = OwnerIds.ownerId p → holder log = some p

section Calls

variable [OwnerIds] {p : Nat} {log : List (Entry Nat)} {row : Option LeaseRow} {call : LeaseCall}
  {act : LeaseCallAct} {r : LeaseCallStep}

/-- What holds after a step of a call. -/
structure LeaseCallStep.Sound (p : Nat) (log : List (Entry Nat)) (r : LeaseCallStep) : Prop where
  lawful : Lawful (log ++ r.2.2.toList)
  row : RowHeld r.1 (log ++ r.2.2.toList)
  stage : r.2.1.Accounted p (log ++ r.2.2.toList)
  tenant : ∀ e ∈ r.2.2, e.tenant = p

/-- A step that notes nothing. -/
theorem LeaseCallStep.Sound.silent {stage : LeaseStage} (hlawful : Lawful log)
    (hrow : RowHeld row log) (hstage : stage.Accounted p log) :
    LeaseCallStep.Sound p log (row, stage, none) := by
  refine ⟨?_, ?_, ?_, fun e he ↦ by cases he⟩ <;> simpa

/-- Who owns the row entered last. -/
theorem RowHeld.holder_of_owns (hrow : RowHeld row log) {now : Time}
    (howns : owns row (OwnerIds.ownerId p) now = true) : holder log = some p := by
  cases row with
  | none => cases howns
  | some r =>
    have howner : r.ownerId = OwnerIds.ownerId p ∧ now < r.expiresAt := by
      simpa [owns] using howns
    exact hrow r rfl p howner.1

theorem releaseLease_sound (hlawful : Lawful log) (hrow : RowHeld row log)
    {result : Except Thrown Unit} (hstage : (LeaseStage.releasing result).Accounted p log)
    (fault : Option Thrown) : (releaseLease p row result fault).Sound p log := by
  cases fault with
  | none =>
    refine .silent hlawful (fun r hr ↦ hrow r (Option.mem_filter_iff.1 hr).1) ?_
    cases result <;> exact hstage
  | some error =>
    refine .silent hlawful hrow ?_
    cases result <;> trivial

theorem operate_sound (hlawful : Lawful log) (hrow : RowHeld row log) {input : LeaseInput}
    {step : LeaseStep} {todo : List LeaseStep}
    (hstage : (LeaseStage.running (step :: todo)).Accounted p log) (now : Time) :
    (operate p input row step todo now).Sound p log := by
  obtain ⟨hin, pending, hsettled, -⟩ := hstage
  have hchecked : ∀ {row'}, RowHeld row' log → settled false todo = true →
      owns row (OwnerIds.ownerId p) now = true →
      LeaseCallStep.Sound p log (row', .running todo, some (.confirmed p)) := by
    intro row' hrow' hsettled howns
    refine ⟨hlawful.confirm (hrow.holder_of_owns howns), ?_, ?_, ?_⟩
    · intro r hr q hq
      exact holder_confirmed.trans (hrow' r hr q hq)
    · exact ⟨List.mem_append_left _ hin, false, hsettled, fun _ ↦ .concat⟩
    · rintro e ⟨⟩
      rfl
  cases step with
  | write =>
    refine ⟨hlawful.work hin, ?_, ?_, ?_⟩
    · intro r hr q hq
      exact holder_worked.trans (hrow r hr q hq)
    · exact ⟨List.mem_append_left _ hin, true, hsettled, fun h ↦ by cases h⟩
    · rintro e ⟨⟩
      rfl
  | assertOwnership =>
    rw [operate]
    split
    · next howns => exact hchecked hrow hsettled howns
    · exact .silent hlawful hrow trivial
  | renew =>
    rw [operate]
    split
    · next howns =>
      refine hchecked ?_ hsettled howns
      rintro r ⟨⟩ q hq
      obtain rfl := OwnerIds.injective hq
      exact hrow.holder_of_owns howns
    · exact .silent hlawful hrow trivial

theorem acquireLease_sound (hlawful : Lawful log) (hrow : RowHeld row log)
    (hnew : .entered p ∉ log) (deadline now later : Time) :
    (acquireLease p call row deadline now later).Sound p log := by
  rw [acquireLease]
  split
  · split
    · exact .silent hlawful hrow trivial
    · exact .silent hlawful hrow hnew
  · refine ⟨hlawful.enter hnew, ?_, ?_, ?_⟩
    · rintro r ⟨⟩ q hq
      obtain rfl := OwnerIds.injective hq
      exact holder_entered
    · refine ⟨by simp, false, settled_steps call.operation, fun _ ↦ .of_not_mem fun hworked ↦ ?_⟩
      have hbefore : Entry.worked p ∈ log := by simpa using hworked
      exact hnew (hlawful.entered_of_worked hbefore)
    · rintro e ⟨⟩
      rfl

/-- **A step of a call** keeps the log lawful, and its row with who entered last. -/
theorem LeaseCall.step_sound (hlawful : Lawful log) (hrow : RowHeld row log)
    (hstage : call.stage.Accounted p log) (hstep : call.step p row act = some r) :
    r.Sound p log := by
  unfold LeaseCall.step at hstep
  split at hstep
  · -- acquire, with an error
    cases hstep
    exact .silent hlawful hrow trivial
  · -- acquire
    next deadline now later hcall =>
    cases hstep
    rw [hcall] at hstage
    exact acquireLease_sound hlawful hrow hstage deadline now later
  · -- operate, with an error
    cases hstep
    exact .silent hlawful hrow trivial
  · -- operate
    next step todo now hcall =>
    cases hstep
    rw [hcall] at hstage
    exact operate_sound hlawful hrow hstage now
  · -- the operation has returned
    next fault hcall =>
    cases hstep
    rw [hcall] at hstage
    obtain ⟨-, pending, hsettled, hconfirmed⟩ := hstage
    have hreturned : (LeaseStage.releasing (.ok ())).Accounted p log :=
      hconfirmed (by simpa [settled] using hsettled)
    exact releaseLease_sound hlawful hrow hreturned fault
  · -- the operation has returned or thrown
    next result fault hcall =>
    cases hstep
    rw [hcall] at hstage
    exact releaseLease_sound hlawful hrow hstage fault
  · cases hstep
  · cases hstep
  · cases hstep
    exact .silent hlawful hrow trivial
  · cases hstep

end Calls

/-! ## All calls -/

section Calls

variable [OwnerIds] {s s' start : LeaseSys} {act : LeaseSysAct} {acts : List LeaseSysAct}

/-- What holds of the leases and the calls at any time. -/
structure LeaseSys.Sound (s : LeaseSys) : Prop where
  lawful : ∀ name, Lawful (s.log name)
  row : ∀ name, RowHeld (s.leases name) (s.log name)
  new : ∀ p, s.calls.length ≤ p → ∀ name, .entered p ∉ s.log name
  calls : ∀ p (call : LeaseCall), s.calls[p]? = some call →
    call.stage.Accounted p (s.log call.input.name)

theorem LeaseSys.step_sound (h : s.Sound) (hstep : LeaseSys.step act s = some s') : s'.Sound := by
  cases act with
  | start input operation now =>
    obtain rfl := Option.some_inj.1 hstep
    refine ⟨h.lawful, h.row, fun p hp ↦ h.new p ?_, fun p call hcall ↦ ?_⟩
    · rw [List.length_append] at hp
      omega
    · rw [List.getElem?_append] at hcall
      split at hcall
      · exact h.calls p call hcall
      · next hp =>
        obtain rfl := List.mem_singleton.1 (List.mem_of_getElem? hcall)
        exact h.new p (by omega) _
  | call p act =>
    simp only [LeaseSys.step] at hstep
    split at hstep
    · cases hstep
    next call hcall =>
    obtain ⟨⟨row, stage, entry⟩, hcallStep, rfl⟩ := Option.map_eq_some_iff.1 hstep
    have hsound := LeaseCall.step_sound (h.lawful _) (h.row _) (h.calls p call hcall) hcallStep
    have hp : p < s.calls.length := (List.getElem?_eq_some_iff.1 hcall).1
    refine ⟨?_, fun name ↦ ?_, fun q hq ↦ ?_, fun q other hother ↦ ?_⟩
    · exact (Function.forall_update_iff s.log fun _ ↦ Lawful).2
        ⟨hsound.lawful, fun name _ ↦ h.lawful name⟩
    · -- the rows
      rcases eq_or_ne name call.input.name with rfl | hname
      · simpa using hsound.row
      · simpa [Function.update_of_ne hname] using h.row name
    · -- a call to come is noted nowhere
      have hq' : s.calls.length ≤ q := by simpa using hq
      refine (Function.forall_update_iff s.log fun _ log ↦ Entry.entered q ∉ log).2
        ⟨fun hmem ↦ ?_, fun name _ ↦ h.new q hq' name⟩
      rcases List.mem_append.1 hmem with hmem | hmem
      · exact h.new q hq' _ hmem
      · have htenant : q = p := hsound.tenant (.entered q) (by simpa using hmem)
        omega
    · -- the calls
      rcases eq_or_ne p q with rfl | hpq
      · rw [List.getElem?_set_self hp] at hother
        obtain rfl := Option.some_inj.1 hother
        simpa using hsound.stage
      · rw [List.getElem?_set_ne hpq] at hother
        have hold := h.calls q other hother
        rcases eq_or_ne other.input.name call.input.name with hname | hname
        · simp only [hname, Function.update_self] at hold ⊢
          exact hold.concat fun e he heq ↦ hpq ((hsound.tenant e he).symm.trans heq)
        · simpa [Function.update_of_ne hname] using hold

/-- **Heavy writers are serial.** -/
theorem completed_serial
    (hforeign : ∀ name, ∀ row ∈ start.leases name, ∀ p, row.ownerId ≠ OwnerIds.ownerId p)
    (hcalls : start.calls = []) (hlog : ∀ name, start.log name = [])
    (hrun : runActs LeaseSys.step start acts = some s) {name : String} {p q : Nat}
    {call call' : LeaseCall} (hp : s.calls[p]? = some call) (hq : s.calls[q]? = some call')
    (hne : p ≠ q) (hname : call.input.name = name) (hname' : call'.input.name = name)
    (hreturned : call.stage.returned) (hreturned' : call'.stage.returned) :
    Serial (s.log name) p q := by
  have hstart : start.Sound := by
    refine ⟨fun name ↦ ?_, fun name row hrow p howner ↦ ?_, fun p _ name ↦ ?_, fun p call h ↦ ?_⟩
    · exact hlog name ▸ .nil
    · exact absurd howner (hforeign name row hrow p)
    · rw [hlog name]
      exact List.not_mem_nil
    · rw [hcalls] at h
      cases h
  have hsound : s.Sound :=
    invariant_of_run (fun _ _ _ h hstep ↦ LeaseSys.step_sound h hstep) hstart hrun
  have hconfirmed := (hsound.calls p call hp).confirmed hreturned
  have hconfirmed' := (hsound.calls q call' hq).confirmed hreturned'
  rw [hname] at hconfirmed
  rw [hname'] at hconfirmed'
  exact (hsound.lawful name).serial hconfirmed hconfirmed' hne

end Calls

/-- Ids told apart by their length. -/
@[reducible] def lengthIds : OwnerIds where
  ownerId n := String.ofList (List.replicate n 'x')
  injective n m h := by simpa using congrArg String.length h

def noLeases : LeaseSys := { leases := fun _ ↦ none }

/-- What a run from no leases ends in. -/
def afterActs (acts : List LeaseSysAct) : LeaseSys :=
  letI := lengthIds
  (runActs LeaseSys.step noLeases acts).getD noLeases

theorem runActs_afterActs {acts : List LeaseSysAct}
    (h : (@runActs _ _ (@LeaseSys.step lengthIds) noLeases acts).isSome) :
    @runActs _ _ (@LeaseSys.step lengthIds) noLeases acts = some (afterActs acts) := by
  obtain ⟨s, hs⟩ := Option.isSome_iff_exists.1 h
  rw [afterActs, hs, Option.getD_some]

/-- The rest of a call that runs `n` steps in time. -/
def restOf (p n : Nat) (now : Time) : List LeaseSysAct :=
  List.replicate n (.call p (.operate now none)) ++ [.call p (.release none)]

/-- Two transactions of the engine, the second of which has to wait. -/
def twoEngines : List LeaseSysAct :=
  [.start {} .zeroDtePersistence 0, .start {} .zeroDtePersistence 0,
    .call 0 (.acquire 0 0 none), .call 1 (.acquire 1 1 none)] ++ restOf 0 4 1 ++
  .call 1 (.acquire 2 2 none) :: restOf 1 4 2

theorem twoEngines_serial : letI := lengthIds
    runActs LeaseSys.step noLeases twoEngines = some (afterActs twoEngines) ∧
      .worked 0 ∈ (afterActs twoEngines).log heavyPersistenceLeaseName ∧
      .worked 1 ∈ (afterActs twoEngines).log heavyPersistenceLeaseName ∧
      Serial ((afterActs twoEngines).log heavyPersistenceLeaseName) 0 1 := by
  have hrun : @runActs _ _ (@LeaseSys.step lengthIds) noLeases twoEngines = _ :=
    runActs_afterActs (by decide +kernel)
  refine ⟨hrun, by decide +kernel, by decide +kernel, ?_⟩
  exact @completed_serial lengthIds _ _ _ (fun _ _ hrow ↦ by cases hrow) rfl (fun _ ↦ rfl) hrun
    _ _ _ _ _ (List.getElem?_eq_getElem (by decide +kernel))
    (List.getElem?_eq_getElem (by decide +kernel)) (by decide) (by decide +kernel)
    (by decide +kernel) (by decide +kernel) (by decide +kernel)

/-- A transaction of the engine is late, and is written between two batches of research. -/
def lateEngine : List LeaseSysAct :=
  [.start {} .zeroDtePersistence 0, .start {} (.optionBatches 2) 50000,
    .call 0 (.acquire 0 0 none), .call 0 (.operate 1 none), .call 0 (.operate 2 none),
    .call 1 (.acquire 60000 60000 none)] ++
  List.replicate 3 (.call 1 (.operate 60001 none)) ++
  .call 0 (.operate 60002 none) :: restOf 1 4 60003 ++ restOf 0 1 60004

example : ¬Serial ((afterActs lateEngine).log heavyPersistenceLeaseName) 0 1 := by
  decide +kernel

end WriteLease

end AlpacaTrading
