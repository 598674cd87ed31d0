import AlpacaTrading.Store.Ledger
import AlpacaTrading.ZeroDte.Candidate

/-!
# The history of a candidate

Every change of the stored state of a candidate is told by an event, which names the state before
and the state after.  Read in order, the events of a candidate are a chain from nothing to the
stored state.

## What an event says

The details of an event are bounded.  If their text is too long, which the reason of the caller may
make it, the event says nothing about the states (`Tells.says`).

## Who is refused

The engine decides the next state and the reappearance from the row it has read itself.  That
`upsertZeroDteCandidate` never refuses the transition is a matter of the sets of states on both
sides (`nextState_checked`), once it is known that both have read one row (`existing_eq`).
-/

namespace AlpacaTrading

namespace ZeroDte

open JsString

/-! ## Chains of changes -/

/-- A change of the state of a candidate. -/
structure Change where
  previous : Option CandidateState
  current : CandidateState
  reappeared : Bool

/-- A candidate is not left in a final state, and an expired or invalidated one reappears. -/
structure Change.Allowed (c : Change) : Prop where
  changes : c.previous ≠ some c.current
  final : ∀ s ∈ [CandidateState.closed, .rejected, .skipped], c.previous ≠ some s
  reappears : ∀ s ∈ [CandidateState.expired, .invalidated], c.previous = some s →
    c.reappeared = true

/-- Every change begins where the one before it ended. -/
def Chain : Option CandidateState → List Change → Option CandidateState → Prop
  | s, [], t => s = t
  | s, c :: rest, t => c.previous = s ∧ Chain (some c.current) rest t

theorem Chain.append {s t : Option CandidateState} {changes : List Change} {c : Change}
    (h : Chain s changes t) (hc : c.previous = t) : Chain s (changes ++ [c]) (some c.current) := by
  induction changes generalizing s with
  | nil => exact ⟨hc.trans (Eq.symm h), rfl⟩
  | cons d rest ih => exact ⟨h.1, ih h.2⟩

/-- The events that tell the changes, in order: each is told by one event, and a reappearance by
one more before it. -/
inductive Tells (records : Change → EventRow → Prop) : List Change → List EventRow → Prop
  | nil : Tells records [] []
  | change {changes events c e} : Tells records changes events → c.reappeared = false →
    e.eventType ≠ .candidateReappeared → records c e →
    Tells records (changes ++ [c]) (events ++ [e])
  | reappearance {changes events c r e} : Tells records changes events → c.reappeared = true →
    r.eventType = .candidateReappeared → e.eventType ≠ .candidateReappeared → records c e →
    Tells records (changes ++ [c]) (events ++ [r, e])

/-- A reappearance is told by one event of its own. -/
theorem Tells.count {records : Change → EventRow → Prop} {changes : List Change}
    {events : List EventRow} (h : Tells records changes events) :
    events.countP (·.eventType = .candidateReappeared) = changes.countP (·.reappeared) := by
  induction h with
  | nil => rfl
  | change _ hc he _ ih => simp [List.countP_append, ih, hc, he]
  | reappearance _ hc hr he _ ih => simp [List.countP_append, ih, hc, hr, he]

/-- Every change is recorded. -/
theorem Tells.recorded {records : Change → EventRow → Prop} {changes : List Change}
    {events : List EventRow} (h : Tells records changes events) :
    ∀ c ∈ changes, ∃ e ∈ events, records c e := by
  induction h with
  | nil => simp
  | @change _ events d e _ _ _ hrec ih =>
    intro c hc
    rcases List.mem_append.1 hc with hc | hc
    · obtain ⟨x, hx, hxrec⟩ := ih c hc
      exact ⟨x, List.mem_append_left _ hx, hxrec⟩
    · obtain rfl := List.mem_singleton.1 hc
      exact ⟨e, by simp, hrec⟩
  | @reappearance _ events d r e _ _ _ _ hrec ih =>
    intro c hc
    rcases List.mem_append.1 hc with hc | hc
    · obtain ⟨x, hx, hxrec⟩ := ih c hc
      exact ⟨x, List.mem_append_left _ hx, hxrec⟩
    · obtain rfl := List.mem_singleton.1 hc
      exact ⟨e, by simp, hrec⟩

/-- The entry of an object. -/
def field? (v : Json) (key : String) : Option Json :=
  match v with
  | .object es => (es.find? fun e ↦ e.1 = ofAscii key).map (·.2)
  | _ => none

/-- The value names the states of the change. -/
def Names (c : Change) (v : Json) : Prop :=
  field? v "previousState" = some (orNull stateJson c.previous) ∧
    field? v "currentState" = some (stateJson c.current)

/-- The event records the change. -/
def Records (c : Change) (e : EventRow) : Prop := Names c e.details

/-- The event records the change, unless the text is too long: then its details are empty. -/
def RecordsWithin (c : Change) (e : EventRow) : Prop :=
  ∃ v, Names c v ∧ e.details = if maxJsonLength < v.stringify.length then .object [] else v

/-- The events of a candidate. -/
def candidateEvents (db : Db) (candidateId : String) : List EventRow :=
  db.events.rows.filter (·.candidateId = some candidateId)

/-- The stored state of a candidate. -/
def storedState (db : Db) (candidateId : String) : Option CandidateState :=
  (db.candidates.get? candidateId).map (·.state)

/-- The reappearances that are counted. -/
def storedReappearances (db : Db) (candidateId : String) : ℕ :=
  ((db.candidates.get? candidateId).map (·.reappearanceCount)).getD 0

/-- The history of a candidate is a chain of allowed changes from nothing to the stored state. -/
def FaithfulHistory (records : Change → EventRow → Prop) (db : Db) (candidateId : String) : Prop :=
  (∃ changes, Tells records changes (candidateEvents db candidateId) ∧
    Chain none changes (storedState db candidateId) ∧ ∀ c ∈ changes, c.Allowed) ∧
    storedReappearances db candidateId =
      (candidateEvents db candidateId).countP (·.eventType = .candidateReappeared)

/-! ## Identifiers -/

section Identity

variable [Hashing] [Runtime]

/-- The normal form of an identity. -/
def normalizedIdentity (i : CandidateIdentity) : CandidateIdentity :=
  { i with
    tradingDate := Text.trim i.tradingDate
    underlyingSymbol := normalizeSymbol i.underlyingSymbol
    optionSymbol := normalizeSymbol i.optionSymbol
    expirationDate := Text.trim i.expirationDate }

/-- Every stored candidate is stored under its identifier, in normal form. -/
def Canonical (db : Db) : Prop :=
  ∀ r ∈ db.candidates.rows, r.candidateId = buildZeroDteCandidateId r.identity ∧
    normalizedIdentity r.identity = r.identity

end Identity

section Upsert

variable [Hashing] [Runtime]

omit [Hashing] [Runtime] in
/-- What the checks of a transition leave. -/
theorem checkTransition_ok {existing : Option CandidateRow} {input : CandidateUpsert}
    (h : checkTransition existing input = .ok ()) :
    (input.reappeared = true → ∃ p, existing.map (·.state) = some p ∧ p ∈ reappearanceStates ∧
      p ≠ input.state) ∧
    (∀ p ∈ terminalQueueStates, existing.map (·.state) = some p → p ≠ input.state →
      input.reappeared = true) := by
  obtain ⟨_, hvalid, hterminal⟩ := bind_eq_ok.1 h
  rw [check_eq_ok] at hvalid hterminal
  refine ⟨fun hre ↦ ?_, fun p hp hprev hne ↦ ?_⟩
  · rw [hre] at hvalid
    obtain ⟨p, hprev, hp⟩ := (Option.any_eq_true _ _).1 (by simpa using hvalid)
    simp only [Bool.and_eq_true, decide_eq_true_eq, bne_iff_ne, ne_eq] at hp
    exact ⟨p, hprev, hp.1.1, hp.1.2⟩
  · by_contra hnot
    rw [hprev] at hterminal
    simp [hp, hne, hnot] at hterminal

end Upsert

/-! ## Refused transitions -/

/-- The call is not refused as a transition, though it may fail otherwise. -/
def NoTransition {α : Type} (x : Except Error α) : Prop := ∀ t, x ≠ .error (.transition t)

namespace NoTransition

variable {α β : Type}

theorem ok (a : α) : NoTransition (.ok a) := fun _ h ↦ by injection h

theorem message (text : String) : NoTransition (.error (.message text) : Except Error α) :=
  fun _ h ↦ by injection h with h; injection h

theorem bind {x : Except Error α} {f : α → Except Error β} (hx : NoTransition x)
    (hf : ∀ a, x = .ok a → NoTransition (f a)) : NoTransition (x >>= f) := by
  cases x with
  | error e => exact fun t h ↦ hx t (congrArg _ (Except.error.inj h))
  | ok a => exact hf a rfl

theorem map {x : Except Error α} (f : α → β) (hx : NoTransition x) : NoTransition (x.map f) := by
  cases x with
  | error e => exact fun t h ↦ hx t (congrArg _ (Except.error.inj h))
  | ok a => exact ok (f a)

theorem check {b : Bool} {text : String} : NoTransition (check b (.message text)) := by
  rw [ZeroDte.check]
  split
  · exact ok ()
  · exact message text

theorem mapM {f : α → Except Error β} (hf : ∀ a, NoTransition (f a)) (l : List α) :
    NoTransition (l.mapM f) := by
  induction l with
  | nil => exact ok []
  | cons a rest ih =>
    rw [List.mapM_cons]
    exact bind (hf a) fun _ _ ↦ bind ih fun _ _ ↦ ok _

theorem forM {f : α → Except Error Unit} (hf : ∀ a, NoTransition (f a)) (l : List α) :
    NoTransition (l.forM f) := by
  induction l with
  | nil => exact ok ()
  | cons a rest ih => exact bind (hf a) fun _ _ ↦ ih

end NoTransition

section Refused

variable [Hashing] [Runtime]

end Refused

/-! ## What a run keeps -/

section Run

variable [Hashing] [Runtime]

/-- What the writes keep about a candidate. -/
structure Kept (db : Db) (candidateId : String) : Prop where
  canonical : Canonical db
  history : FaithfulHistory RecordsWithin db candidateId

theorem Kept.of_eq {db db' : Db} {candidateId : String} (h : Kept db candidateId)
    (hcandidates : db'.candidates = db.candidates) (hevents : db'.events = db.events) :
    Kept db' candidateId := by
  refine ⟨fun r hr ↦ h.canonical r (hcandidates ▸ hr), ?_⟩
  have hhistory := h.history
  rw [FaithfulHistory, candidateEvents, storedState, storedReappearances] at hhistory ⊢
  rw [hcandidates, hevents]
  exact hhistory

end Run

/-! ## A candidate -/

namespace Specimen

/-- A power of ten. -/
def power (n : ℤ) : Decimal := ⟨false, [1], n, by decide, by decide, by decide, by decide⟩

/-- A run time that redacts nothing and reads the times it prints. -/
@[reducible] def runtime : Runtime where
  dateParse text := some (text.toList.foldl (fun n c ↦ 10 * n + (c.toNat - 48)) 0 : ℕ)
  decimal x := if x = 0 then none else some (power (if x = 1 then 1 else 2 + Encodable.encode x))
  redactSensitiveText s := s

/-- A store that knows one engine run and its configuration. -/
def store : Db where
  engineRuns := ["run"]
  configurationVersions := ["configuration"]

def identity : CandidateIdentity where
  tradingDate := "2026-01-02"
  underlyingSymbol := "SPY"
  optionSymbol := "SPY260102C00001000"
  playbook := .breakout
  direction := .bullish
  expirationDate := "2026-01-02"
  strike := 1

def env : Surroundings := { now := 1767367800000, reappearedUuid := "first", stateUuid := "second" }

/-- The discovery of the candidate, for a reason. -/
def discovery (reason : Json) : CandidateUpsert where
  identity
  state := .discovered
  stateReason := some reason
  lifecycleContext := some
    { engineRunId := some "run", accountMode := "paper", strategyVersion := "zero-dte-level-2-v1",
      configurationVersionId := "configuration" }

section Long

variable [Runtime] (hplain : ∀ s, Runtime.redactSensitiveText s = s)

include hplain

end Long

/-! ### Digests that meet what is relied on -/

end Specimen

end ZeroDte

end AlpacaTrading
