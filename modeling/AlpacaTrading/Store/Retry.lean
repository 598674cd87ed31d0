import AlpacaTrading.Lib.Extended

/-!
# Repeated database operations

`runWithPostgresRetry` repeats an operation that failed for a reason that may pass, as long as the
caller allows it, an attempt is left and the deadline has not come.  The clock, the random numbers
and the outcomes of the operation are sequences here, read in turn; a thrown value that is
`undefined` is missing.

The numeric options are clamped, and a clamp keeps what is not a number.  For most of them the
comparisons that follow are then false, so that nothing is repeated.  The number of attempts is
compared before the first one.
-/

namespace AlpacaTrading.PostgresRetry

/-! ## Errors -/

/-- `PostgresRetryClass`, without `null`. -/
inductive RetryClass where
  | serialization | deadlock | connection
deriving DecidableEq, Repr

/-- `connectionRetryCodes`. -/
def connectionRetryCodes : List String :=
  ["08001", "08003", "08004", "08006", "57P01", "57P02", "57P03", "ECONNRESET", "ETIMEDOUT",
    "EPIPE"]

/-- The class of an error code. -/
def retryClassOf (code : String) : Option RetryClass :=
  if code = "40001" then some .serialization
  else if code = "40P01" then some .deadlock
  else if code ∈ connectionRetryCodes then some .connection
  else none

/-- An error whose `code` may be a text. -/
class HasCode (ε : Type) where
  code : ε → Option String

/-- `classifyPostgresRetryableError` of a thrown value. -/
def classifyPostgresRetryableError {ε : Type} [HasCode ε] (error : Option ε) :
    Option RetryClass :=
  (error.bind HasCode.code).bind retryClassOf

/-! ## Options -/

/-- `PostgresRetryOptions`. -/
structure PostgresRetryOptions where
  idempotent : Bool
  transactionallySafe : Bool
  maxAttempts : Option ExtendedNumber := none
  retryDelayMs : Option ExtendedNumber := none
  maxRetryDelayMs : Option ExtendedNumber := none
  jitterRatio : Option ExtendedNumber := none
  retryDeadlineMs : Option ExtendedNumber := none

open ExtendedNumber

namespace PostgresRetryOptions

variable (o : PostgresRetryOptions)

/-- `maxAttempts`. -/
def attemptLimit : ExtendedNumber :=
  min (finite 5) (max (finite 1) (floor (o.maxAttempts.getD (finite 3))))

/-- `retryDelayMs`. -/
def baseDelay : ExtendedNumber :=
  min (finite 5000) (max (finite 0) (floor (o.retryDelayMs.getD (finite 50))))

/-- `maxRetryDelayMs`. -/
def delayLimit : ExtendedNumber :=
  min (finite 10000) (max o.baseDelay (floor (o.maxRetryDelayMs.getD (finite 1000))))

/-- `jitterRatio`. -/
def jitter : ExtendedNumber := min (finite 1) (max (finite 0) (o.jitterRatio.getD (finite (2 / 10))))

/-- `retryDeadlineMs`. -/
def timeLimit : ExtendedNumber :=
  min (finite 30000) (max (finite 0) (floor (o.retryDeadlineMs.getD (finite 5000))))

/-- `proposedDelay`, after a number of retries and for a random number. -/
def proposedDelay (retryCount : ℕ) (random : ExtendedNumber) : ExtendedNumber :=
  round ((min o.delayLimit (o.baseDelay.mul (finite (2 ^ retryCount)))).mul
    ((finite 1).add
      ((((min (finite 1) (max (finite 0) random)).mul (finite 2)).sub (finite 1)).mul o.jitter)))

/-- `safe`: the caller allows to repeat the operation after an error of a class. -/
def safe (retryClass : Option RetryClass) : Bool :=
  if retryClass = some .connection then o.idempotent
  else retryClass.isSome && o.transactionallySafe

end PostgresRetryOptions

/-! ## The loop -/

/-- What the loop meets: the outcome of the operation at each attempt, and what the clock and the
random numbers give at each reading. -/
structure World (ε α : Type) where
  outcome : ℕ → Except (Option ε) α
  clock : ℕ → ℚ
  random : ℕ → ExtendedNumber

/-- The `outcome` of a telemetry event. -/
inductive RetryOutcome where
  | retry | success | failed | notRetried
deriving DecidableEq, Repr

/-- `PostgresRetryTelemetry`. -/
structure PostgresRetryTelemetry where
  outcome : RetryOutcome
  retryClass : Option RetryClass
  retryCount : ℕ
  delayMs : Option ExtendedNumber
  remainingDeadlineMs : ExtendedNumber
deriving DecidableEq

/-- A call of the operation: the number of the attempt and the last reading of the clock. -/
structure Call where
  attempt : ℕ
  time : ℚ
deriving DecidableEq

/-- The variables of the loop, and what it has done. -/
structure Loop (ε : Type) where
  retryCount : ℕ := 0
  finalError : Option ε := none
  /-- How often the clock was read. -/
  readings : ℕ := 0
  /-- How many random numbers were drawn. -/
  draws : ℕ := 0
  calls : List Call := []
  telemetry : List PostgresRetryTelemetry := []

/-- What a run has done and how it ended. -/
structure RetryRun (ε α : Type) where
  calls : List Call
  telemetry : List PostgresRetryTelemetry
  result : Except (Option ε) α

section Loop

variable {ε α : Type}

/-- `emit`. -/
def Loop.emit (s : Loop ε) (event : PostgresRetryTelemetry) : Loop ε :=
  { s with telemetry := s.telemetry ++ [event] }

/-- The function returns or throws. -/
def Loop.finish (s : Loop ε) (result : Except (Option ε) α) : RetryRun ε α :=
  { calls := s.calls, telemetry := s.telemetry, result }

/-- The clock is read. -/
def Loop.read (s : Loop ε) : Loop ε := { s with readings := s.readings + 1 }

/-- The deadline is looked at before an attempt that follows an error. -/
def Loop.looksAtDeadline (s : Loop ε) (attempt : ℕ) : Bool :=
  decide (1 < attempt) && s.finalError.isSome

/-- The call of the operation. -/
def Loop.call (w : World ε α) (s : Loop ε) (attempt : ℕ) : Loop ε :=
  { s with calls := s.calls ++ [⟨attempt, w.clock (s.readings - 1)⟩] }

/-- What follows a success. -/
def succeed (w : World ε α) (deadlineAt : ExtendedNumber) (s : Loop ε) (value : α) :
    RetryRun ε α :=
  if 0 < s.retryCount then
    (s.read.emit
      { outcome := .success
        retryClass := none
        retryCount := s.retryCount
        delayMs := none
        remainingDeadlineMs := max (finite 0) (deadlineAt.sub (finite (w.clock s.readings))) }).finish
      (.ok value)
  else s.finish (.ok value)

section Errors

variable [HasCode ε]

/-- What follows an error: another attempt, or the end. -/
def fail (w : World ε α) (o : PostgresRetryOptions) (deadlineAt : ExtendedNumber) (attempt : ℕ)
    (s : Loop ε) (error : Option ε) : RetryRun ε α ⊕ Loop ε :=
  let retryClass := classifyPostgresRetryableError error
  let remaining := max (finite 0) (deadlineAt.sub (finite (w.clock s.readings)))
  let proposedDelay := o.proposedDelay s.retryCount (w.random s.draws)
  let s := { s with finalError := error, readings := s.readings + 1, draws := s.draws + 1 }
  if o.safe retryClass && lt (finite attempt) o.attemptLimit && lt (finite 0) remaining &&
      le proposedDelay remaining then
    .inr (Loop.emit { s with retryCount := s.retryCount + 1 }
      { outcome := .retry
        retryClass
        retryCount := s.retryCount + 1
        delayMs := some proposedDelay
        remainingDeadlineMs := remaining })
  else if retryClass.isSome then
    .inl ((s.emit
      { outcome := if o.safe retryClass then .failed else .notRetried
        retryClass
        retryCount := s.retryCount
        delayMs := some proposedDelay
        remainingDeadlineMs := remaining }).finish (.error error))
  else .inl (s.finish (.error error))

/-- One attempt. -/
def attemptOnce (w : World ε α) (o : PostgresRetryOptions) (deadlineAt : ExtendedNumber)
    (attempt : ℕ) (s : Loop ε) : RetryRun ε α ⊕ Loop ε :=
  match w.outcome attempt with
  | .ok value => .inl (succeed w deadlineAt (s.call w attempt) value)
  | .error error => fail w o deadlineAt attempt (s.call w attempt) error

/-- One round of the loop. -/
def retryRound (w : World ε α) (o : PostgresRetryOptions) (deadlineAt : ExtendedNumber)
    (attempt : ℕ) (s : Loop ε) : RetryRun ε α ⊕ Loop ε :=
  if s.looksAtDeadline attempt then
    if le deadlineAt (finite (w.clock s.readings)) then
      .inl ((s.read.emit
        { outcome := .failed
          retryClass := classifyPostgresRetryableError s.finalError
          retryCount := s.retryCount
          delayMs := none
          remainingDeadlineMs := finite 0 }).finish (.error s.finalError))
    else attemptOnce w o deadlineAt attempt s.read
  else attemptOnce w o deadlineAt attempt s

/-- The loop from an attempt on; `none` if it takes more rounds than given. -/
def loop (w : World ε α) (o : PostgresRetryOptions) (deadlineAt : ExtendedNumber) :
    ℕ → ℕ → Loop ε → Option (RetryRun ε α)
  | 0, _, _ => none
  | rounds + 1, attempt, s =>
    if le (finite attempt) o.attemptLimit then
      match retryRound w o deadlineAt attempt s with
      | .inl run => some run
      | .inr s => loop w o deadlineAt rounds (attempt + 1) s
    else some (s.finish (.error s.finalError))

/-- The deadline of a run. -/
def deadline (w : World ε α) (o : PostgresRetryOptions) : ExtendedNumber :=
  (finite (w.clock 0)).add o.timeLimit

/-- `runWithPostgresRetry`. -/
def runWithPostgresRetry (w : World ε α) (o : PostgresRetryOptions) : Option (RetryRun ε α) :=
  loop w o (deadline w o) 6 1 { readings := 1 }

end Errors

end Loop

/-! ## The statement -/

section Statement

variable {ε α : Type} [HasCode ε]

/-- The operation may be repeated after an error. -/
def MayRepeat (o : PostgresRetryOptions) (error : Option ε) : Prop :=
  (classifyPostgresRetryableError error = some .connection ∧ o.idempotent) ∨
    (∃ c, classifyPostgresRetryableError error = some c ∧ c ≠ .connection ∧ o.transactionallySafe)

/-- A run calls the operation at least once and at most five times; it calls it again only after an
error that allows it and before the deadline; and it ends as the last call did. -/
structure RetrySafe (w : World ε α) (o : PostgresRetryOptions) (run : RetryRun ε α) : Prop where
  numbered : run.calls.map (·.attempt) = List.range' 1 run.calls.length
  called : 1 ≤ run.calls.length
  bounded : run.calls.length ≤ 5
  repeated : ∀ n, 1 ≤ n → n < run.calls.length →
    ∃ error, w.outcome n = .error error ∧ MayRepeat o error
  inTime : ∀ call ∈ run.calls, 1 < call.attempt → lt (finite call.time) (deadline w o) = true
  ended : run.result = w.outcome run.calls.length

end Statement

/-! ## The bounds -/

section Bounds

variable {o : PostgresRetryOptions}

theorem attemptLimit_eq_nan : o.attemptLimit = nan ↔ o.maxAttempts = some nan := by
  rw [PostgresRetryOptions.attemptLimit, min_eq_nan, max_eq_nan, floor_eq_nan]
  rcases o.maxAttempts with - | a <;> simp

theorem one_le_attemptLimit (h : o.maxAttempts ≠ some nan) :
    le (finite 1) o.attemptLimit = true := by
  have hfloor : floor (o.maxAttempts.getD (finite 3)) ≠ nan := by
    rw [Ne, floor_eq_nan]
    rcases hm : o.maxAttempts with - | a
    · simp
    · rw [hm] at h
      simpa using h
  obtain ⟨v, hv, hlo, -⟩ := exists_finite_of_clamped (by norm_num : (1 : ℚ) ≤ 5) hfloor
  rw [PostgresRetryOptions.attemptLimit, hv]
  exact decide_eq_true hlo

theorem attempt_le_five {n : ℕ} (h : le (finite n) o.attemptLimit = true) : n ≤ 5 := by
  by_cases hnan : floor (o.maxAttempts.getD (finite 3)) = nan
  · rw [PostgresRetryOptions.attemptLimit, hnan] at h
    cases h
  · obtain ⟨v, hv, -, hhi⟩ := exists_finite_of_clamped (by norm_num : (1 : ℚ) ≤ 5) hnan
    rw [PostgresRetryOptions.attemptLimit, hv] at h
    have hn : (n : ℚ) ≤ v := of_decide_eq_true h
    exact_mod_cast hn.trans hhi

end Bounds

/-! ## The rounds -/

section Rounds

variable {ε α : Type} [HasCode ε] {w : World ε α} {o : PostgresRetryOptions} {n : ℕ}
  {s : Loop ε} {error : Option ε}

/-- The calls so far are numbered, all but the last failed in a way that allows another, and each
but the first was in time. -/
structure Called (w : World ε α) (o : PostgresRetryOptions) (n : ℕ) (calls : List Call) :
    Prop where
  numbered : calls.map (·.attempt) = List.range' 1 n
  repeated : ∀ i, 1 ≤ i → i < n → ∃ error, w.outcome i = .error error ∧ MayRepeat o error
  inTime : ∀ call ∈ calls, 1 < call.attempt → lt (finite call.time) (deadline w o) = true

/-- What holds before an attempt, after `n` others. -/
structure Entry (w : World ε α) (o : PostgresRetryOptions) (n : ℕ) (s : Loop ε) : Prop where
  called : Called w o n s.calls
  failed : 0 < n → w.outcome n = .error s.finalError ∧ MayRepeat o s.finalError ∧
    s.finalError.isSome ∧ deadline w o ≠ nan

theorem Called.length {calls : List Call} (h : Called w o n calls) : calls.length = n := by
  simpa using congrArg List.length h.numbered

/-- A run that ends as its last call did is safe. -/
theorem Called.safe {run : RetryRun ε α} (h : Called w o n run.calls) (hpos : 1 ≤ n)
    (hfive : n ≤ 5) (hresult : run.result = w.outcome n) : RetrySafe w o run := by
  have hn := h.length
  exact ⟨hn ▸ h.numbered, hn ▸ hpos, hn ▸ hfive, hn ▸ h.repeated, h.inTime, hn ▸ hresult⟩

theorem mayRepeat_of_safe (h : o.safe (classifyPostgresRetryableError error) = true) :
    MayRepeat o error ∧ error.isSome := by
  rw [PostgresRetryOptions.safe] at h
  split at h
  · next hc =>
    refine ⟨Or.inl ⟨hc, h⟩, ?_⟩
    rcases error with - | e
    · cases hc
    · rfl
  · next hc =>
    obtain ⟨hsome, hsafe⟩ := Bool.and_eq_true_iff.1 h
    obtain ⟨c, hclass⟩ := Option.isSome_iff_exists.1 hsome
    refine ⟨Or.inr ⟨c, hclass, ?_, hsafe⟩, ?_⟩
    · rintro rfl
      exact hc hclass
    · rcases error with - | e
      · cases hclass
      · rfl

/-- One more call. -/
theorem Entry.call (h : Entry w o n s) {time : ℚ}
    (htime : 0 < n → lt (finite time) (deadline w o) = true) :
    Called w o (n + 1) (s.calls ++ [⟨n + 1, time⟩]) := by
  refine ⟨?_, fun i hpos hi ↦ ?_, fun call hcall hlater ↦ ?_⟩
  · rw [List.map_append, h.called.numbered, List.range'_1_concat]
    simp [Nat.add_comm]
  · rcases Nat.lt_succ_iff_lt_or_eq.1 hi with hi | rfl
    · exact h.called.repeated i hpos hi
    · obtain ⟨houtcome, hrepeat, -⟩ := h.failed hpos
      exact ⟨_, houtcome, hrepeat⟩
  · rcases List.mem_append.1 hcall with hcall | hcall
    · exact h.called.inTime call hcall hlater
    · obtain rfl := List.mem_singleton.1 hcall
      exact htime (by simpa using hlater)

/-- What an attempt leaves. -/
theorem attemptOnce_spec (h : Entry w o n s) (hfive : n + 1 ≤ 5)
    (htime : 0 < n → lt (finite (w.clock (s.readings - 1))) (deadline w o) = true) :
    match attemptOnce w o (deadline w o) (n + 1) s with
    | .inl run => RetrySafe w o run
    | .inr s' => Entry w o (n + 1) s' := by
  have hcalled := h.call htime
  rw [attemptOnce]
  rcases houtcome : w.outcome (n + 1) with error | value
  · dsimp only
    rw [fail]
    split_ifs with hretry
    · simp only [Bool.and_eq_true] at hretry
      obtain ⟨⟨⟨hsafe, -⟩, hremaining⟩, -⟩ := hretry
      obtain ⟨hrepeat, hsome⟩ := mayRepeat_of_safe hsafe
      refine ⟨hcalled, fun _ ↦ ⟨houtcome, hrepeat, hsome, fun hnan ↦ ?_⟩⟩
      rw [hnan] at hremaining
      cases hremaining
    all_goals exact hcalled.safe (Nat.succ_pos n) hfive houtcome.symm
  · dsimp only
    rw [succeed]
    split_ifs <;> exact hcalled.safe (Nat.succ_pos n) hfive houtcome.symm

/-- What a round leaves. -/
theorem retryRound_spec (h : Entry w o n s) (hfive : n + 1 ≤ 5) :
    match retryRound w o (deadline w o) (n + 1) s with
    | .inl run => RetrySafe w o run
    | .inr s' => Entry w o (n + 1) s' := by
  rw [retryRound]
  rcases Nat.eq_zero_or_pos n with rfl | hn
  · rw [if_neg (by simp [Loop.looksAtDeadline])]
    exact attemptOnce_spec h hfive fun h0 ↦ absurd h0 (lt_irrefl 0)
  · obtain ⟨houtcome, -, hsome, hnan⟩ := h.failed hn
    rw [if_pos (by simp [Loop.looksAtDeadline, hn, hsome])]
    split_ifs with hlate
    · exact h.called.safe hn (by omega) houtcome.symm
    · refine attemptOnce_spec (s := s.read) ⟨h.called, h.failed⟩ hfive fun _ ↦ ?_
      exact lt_of_le_eq_false hnan (by simp) (Bool.eq_false_iff.2 hlate)

/-- The loop ends within its rounds, and safely if it makes an attempt. -/
theorem loop_spec {rounds : ℕ} (h : Entry w o n s) (hfive : n ≤ 5) (hrounds : 6 ≤ n + rounds)
    (hlimit : o.maxAttempts ≠ some nan) :
    ∃ run, loop w o (deadline w o) rounds (n + 1) s = some run ∧ RetrySafe w o run := by
  induction rounds generalizing n s with
  | zero => omega
  | succ rounds ih =>
    rw [loop]
    split_ifs with hle
    · have hfive' := attempt_le_five hle
      have hround := retryRound_spec h hfive'
      rcases hr : retryRound w o (deadline w o) (n + 1) s with run | s'
      · rw [hr] at hround
        exact ⟨run, rfl, hround⟩
      · rw [hr] at hround
        exact ih hround hfive' (by omega)
    · -- The attempts are used up: the last error is thrown.
      have hn : 0 < n := by
        rcases Nat.eq_zero_or_pos n with rfl | hn
        · exact absurd (one_le_attemptLimit hlimit) (by simpa using hle)
        · exact hn
      exact ⟨_, rfl, h.called.safe hn hfive (h.failed hn).1.symm⟩

end Rounds

/-- **Retries are bounded and safe** exactly if the number of attempts is a number: otherwise the
operation is never called. -/
theorem retry_safe_iff {ε α : Type} [HasCode ε] (w : World ε α) (o : PostgresRetryOptions) :
    (∃ run, runWithPostgresRetry w o = some run ∧ RetrySafe w o run) ↔
      o.maxAttempts ≠ some nan := by
  constructor
  · rintro ⟨run, hrun, hsafe⟩ hnan
    rw [runWithPostgresRetry, loop, attemptLimit_eq_nan.2 hnan, le_nan] at hrun
    obtain rfl := Option.some.inj hrun
    exact absurd hsafe.called (by simp [Loop.finish])
  · intro hlimit
    have hstart : Entry w o 0 ({ readings := 1 } : Loop ε) :=
      ⟨⟨rfl, fun i hpos hi ↦ absurd hi (by omega), by simp⟩, fun h ↦ absurd h (lt_irrefl 0)⟩
    exact loop_spec hstart (by omega) (by omega) hlimit

namespace Specimen

/-- An error is its code. -/
@[reducible] def codes : HasCode String := ⟨some⟩

/-- An operation that loses its connection once and succeeds then. -/
def recovering : World String ℕ where
  outcome n := if n = 1 then .error (some "ECONNRESET") else .ok n
  clock n := n
  random _ := finite (1 / 2)

end Specimen

/-- An idempotent operation is repeated after the lost connection. -/
example :
    let _ := Specimen.codes
    (runWithPostgresRetry Specimen.recovering
      { idempotent := true, transactionallySafe := false }).map (·.calls) =
        some [⟨1, 0⟩, ⟨2, 2⟩] := by decide +kernel

/-- Without a number of attempts the operation is not called, and `undefined` is thrown. -/
theorem nan_attempts_never_call :
    let _ := Specimen.codes
    let o : PostgresRetryOptions :=
      { idempotent := true, transactionallySafe := true, maxAttempts := some nan }
    Monotone Specimen.recovering.clock ∧
      (runWithPostgresRetry Specimen.recovering o).map
        (fun run ↦ (run.calls, run.result.toOption, run.telemetry.length)) = some ([], none, 0) ∧
      ¬ ∃ run, runWithPostgresRetry Specimen.recovering o = some run ∧
        RetrySafe Specimen.recovering o run := by
  intro _ o
  refine ⟨fun m n hmn ↦ Nat.cast_le.2 hmn, by decide +kernel, ?_⟩
  rintro ⟨run, hrun, hsafe⟩
  have hcalls : (runWithPostgresRetry Specimen.recovering o).map (·.calls) = some [] := by
    decide +kernel
  rw [hrun] at hcalls
  have hnil : run.calls = [] := Option.some.inj hcalls
  have hcalled := hsafe.called
  rw [hnil] at hcalled
  exact absurd hcalled (by decide)

end AlpacaTrading.PostgresRetry
