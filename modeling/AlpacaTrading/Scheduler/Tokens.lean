import Mathlib.Logic.Function.Basic
import AlpacaTrading.Lib.Run
import AlpacaTrading.Scheduler.Lease

/-!
# Fencing tokens over the time of a lease

Every upsert draws its token from the sequence, and no two draw the same one.  So a token that was
committed once is spent: whoever takes the lease over afterwards leaves a row with another token,
and the row never gets the old token back.

`log_of_kept` is what follows for the log.  When the row that a worker acquired still has its token
in some later state of the run, then nothing was committed in between but writes under the fence of
that acquisition: no other worker had the lease, not even for a while.  This needs no order of the
acquisitions.
-/

namespace AlpacaTrading

/-- The token an upsert has drawn, until its transaction ends. -/
def LeaseStage.token? : LeaseStage → Option Nat
  | acquiring _ _ token => some token
  | ending (.acquired taken) => some taken.fencingToken
  | _ => none

/-- The result of an `UPDATE` that was accepted. -/
def LeaseStage.updated? : LeaseStage → Option SchedulerLeaseRow
  | ending (.updated row) => some row
  | _ => none

namespace LeaseTransaction

variable {tx : LeaseTransaction} {now : Time} {stage : LeaseStage}

/-- The first statement draws a token only where it is an upsert, which is then on its way. -/
theorem send_token {found : Bool} {token : Nat} :
    (tx.send now found token).updated? = none ∧ ((tx.send now found token).token? = none ∨
      ∃ statementAt ttlMs, tx.send now found token = .acquiring statementAt ttlMs token) := by
  unfold send
  split
  · split
    · exact ⟨rfl, Or.inl rfl⟩
    · exact ⟨rfl, Or.inr ⟨_, _, rfl⟩⟩
  · split
    · exact ⟨rfl, Or.inl rfl⟩
    · exact ⟨rfl, Or.inl rfl⟩
  · exact ⟨rfl, Or.inl rfl⟩
  · exact ⟨rfl, Or.inl rfl⟩

theorem missed_token : (tx.missed now).updated? = none ∧ (tx.missed now).token? = none := by
  unfold missed
  split
  · exact ⟨rfl, rfl⟩
  · exact ⟨rfl, rfl⟩

/-- A statement that gets the lock keeps the token it has drawn, or it has none. -/
theorem granted_token {row row' : Option SchedulerLeaseRow}
    (h : tx.granted row now = some (stage, row')) :
    stage.updated? = none ∧ (stage.token? = none ∨ stage.token? = tx.stage.token?) := by
  rcases granted_some h with ⟨_, statementAt, ttlMs, token, taken, _, hstage, rfl, _, htoken, _⟩ |
    ⟨r, _, _, hnot, _⟩
  · rw [hstage, LeaseStage.token?, LeaseStage.token?, htoken]
    exact ⟨rfl, Or.inr rfl⟩
  · unfold granted at h
    split at h
    · split at h
      · obtain ⟨rfl, -⟩ := Prod.mk.inj (Option.some_inj.1 h)
        exact absurd rfl (hnot _)
      · obtain ⟨rfl, -⟩ := Prod.mk.inj (Option.some_inj.1 h)
        exact ⟨rfl, Or.inl rfl⟩
      · cases h
    · obtain ⟨rfl, -⟩ := Prod.mk.inj (Option.some_inj.1 h)
      split
      · exact ⟨rfl, Or.inl rfl⟩
      · exact ⟨rfl, Or.inl rfl⟩
    · obtain ⟨rfl, -⟩ := Prod.mk.inj (Option.some_inj.1 h)
      split
      · exact ⟨rfl, Or.inl rfl⟩
      · exact ⟨rfl, Or.inl rfl⟩
    · obtain ⟨rfl, -⟩ := Prod.mk.inj (Option.some_inj.1 h)
      split
      · exact ⟨rfl, Or.inl rfl⟩
      · exact ⟨rfl, Or.inl rfl⟩
    · cases h

theorem events_acquired {row : SchedulerLeaseRow} (h : tx.stage = .ending (.acquired row)) :
    tx.events = some [.acquired row.fencingToken] := by
  unfold events
  rw [h]
  rcases tx.operation
  all_goals rfl

/-- A heartbeat or a release that was accepted leaves the row under the identity it carries, and a
release leaves it released. -/
theorem updated_ending {row row' : SchedulerLeaseRow}
    (h : tx.updated row now = some (stage, row')) :
    stage.token? = none ∧ (∀ fence, row'.Names fence ↔ row.Names fence) ∧
      ∀ r, stage = .ending (.updated r) → row' = r ∧
        (∀ identity, tx.operation.identity? = some identity →
          r.fencingToken = identity.fencingToken) ∧
        ∀ input, tx.operation = .release input → r.status = .released := by
  unfold updated at h
  split at h
  · next input ttlMs hoperation hstage =>
    unfold heartbeatRow at h
    by_cases hmatches : fenceMatches row input.toSchedulerFencingIdentity now = true
    · rw [if_pos hmatches] at h
      obtain ⟨rfl, rfl⟩ := Prod.mk.inj (Option.some_inj.1 h)
      refine ⟨rfl, fun fence ↦ Iff.rfl, fun r hr ↦ ?_⟩
      obtain rfl := LeaseResult.updated.inj (LeaseStage.ending.inj hr)
      refine ⟨rfl, fun identity hidentity ↦ ?_, fun input' hinput ↦ ?_⟩
      · rw [hoperation] at hidentity
        obtain rfl := Option.some_inj.1 hidentity
        exact (of_decide_eq_true hmatches).2.2.2.1
      · rw [hoperation] at hinput
        cases hinput
    · rw [if_neg hmatches] at h
      obtain ⟨rfl, rfl⟩ := Prod.mk.inj (Option.some_inj.1 h)
      exact ⟨rfl, fun fence ↦ Iff.rfl, fun r hr ↦ by cases hr⟩
  · next input ttlMs hoperation hstage =>
    unfold releaseRow at h
    dsimp only at h
    by_cases hmatches : fenceMatches row input.toSchedulerFencingIdentity now = true
    · rw [if_pos hmatches] at h
      obtain ⟨rfl, rfl⟩ := Prod.mk.inj (Option.some_inj.1 h)
      refine ⟨rfl, fun fence ↦ Iff.rfl, fun r hr ↦ ?_⟩
      obtain rfl := LeaseResult.updated.inj (LeaseStage.ending.inj hr)
      refine ⟨rfl, fun identity hidentity ↦ ?_, fun input' _ ↦ rfl⟩
      rw [hoperation] at hidentity
      obtain rfl := Option.some_inj.1 hidentity
      exact (of_decide_eq_true hmatches).2.2.2.1
    · rw [if_neg hmatches] at h
      obtain ⟨rfl, rfl⟩ := Prod.mk.inj (Option.some_inj.1 h)
      exact ⟨rfl, fun fence ↦ Iff.rfl, fun r hr ↦ by cases hr⟩
  · cases h

end LeaseTransaction

namespace LeaseSystem

variable {W : Type} [DecidableEq W] {s s' : LeaseSystem W} {act : LeaseAct W} {w : W}
  {tx : LeaseTransaction}

/-! ## Tokens are drawn once -/

/-- What a step does to the transactions: it begins one, it leaves them alone, or it moves the one
of its worker, which keeps the token it has drawn or draws the next one, and which ends with an
updated row only after its `UPDATE`. -/
theorem step_txs (h : step act s = some s') :
    s'.jobName = s.jobName ∧ s.sequence ≤ s'.sequence ∧ ∀ w tx', s'.txs w = some tx' →
      s.txs w = some tx' ∨
      (tx'.stage = .begun ∧ tx'.operation.jobName = s.jobName) ∨
      ∃ tx, s.txs w = some tx ∧ tx'.operation = tx.operation ∧ act.worker? = some w ∧
        (act = .update w ∨ tx'.stage.updated? = none) ∧
        (tx'.stage.token? = none ∨ tx'.stage.token? = tx.stage.token? ∨
          ∃ k, tx'.stage.token? = some k ∧ s.sequence < k ∧ s'.sequence = k) := by
  unfold step at h
  split at h
  · split at h
    · obtain rfl := Option.some_inj.1 h
      exact ⟨rfl, le_rfl, fun _ _ htx ↦ Or.inl htx⟩
    · cases h
  · split at h
    · next hless =>
      obtain rfl := Option.some_inj.1 h
      exact ⟨rfl, hless.le, fun _ _ htx ↦ Or.inl htx⟩
    · cases h
  · next w operation =>
    split at h
    · next hjob =>
      obtain rfl := Option.some_inj.1 h
      refine ⟨rfl, le_rfl, fun w' tx' htx' ↦ ?_⟩
      by_cases hw : w' = w
      · subst hw
        obtain rfl := Option.some_inj.1 ((Function.update_self _ _ s.txs).symm.trans htx')
        exact Or.inr (Or.inl ⟨rfl, hjob.2⟩)
      · exact Or.inl ((Function.update_of_ne hw _ s.txs).symm.trans htx')
    · cases h
  · next w value =>
    obtain ⟨tx, htx, h⟩ := Option.bind_eq_some_iff.1 h
    split at h
    · obtain ⟨hupdated, htoken⟩ := @LeaseTransaction.send_token tx s.now s.saved.isSome value
      split at h
      · next statementAt ttlMs token hsend =>
        rw [hsend] at htoken hupdated
        split at h
        · next hless =>
          obtain rfl := Option.some_inj.1 h
          refine ⟨rfl, hless.le, fun w' tx' htx' ↦ ?_⟩
          rcases setStage_txs htx' with ⟨rfl, rfl⟩ | ⟨_, hother⟩
          · refine Or.inr (Or.inr ⟨tx, htx, rfl, rfl, Or.inr hupdated,
              Or.inr (Or.inr ⟨value, ?_, hless, rfl⟩)⟩)
            rcases htoken with hnone | ⟨_, _, hvalue⟩
            · cases hnone
            · rw [(LeaseStage.acquiring.inj hvalue).2.2, LeaseStage.token?]
          · exact Or.inl hother
        · cases h
      · next stage hnot =>
        obtain rfl := Option.some_inj.1 h
        refine ⟨rfl, le_rfl, fun w' tx' htx' ↦ ?_⟩
        rcases setStage_txs htx' with ⟨rfl, rfl⟩ | ⟨_, hother⟩
        · rcases htoken with hnone | ⟨_, _, hsend⟩
          · exact Or.inr (Or.inr ⟨tx, htx, rfl, rfl, Or.inr hupdated, Or.inl hnone⟩)
          · exact absurd hsend (hnot _ _ _)
        · exact Or.inl hother
    · cases h
  · next w =>
    obtain ⟨tx, htx, h⟩ := Option.bind_eq_some_iff.1 h
    split at h
    · obtain ⟨⟨stage, row⟩, hgranted, h⟩ := Option.bind_eq_some_iff.1 h
      obtain rfl := Option.some_inj.1 h
      refine ⟨rfl, le_rfl, fun w' tx' htx' ↦ ?_⟩
      rcases setStage_txs htx' with ⟨rfl, rfl⟩ | ⟨_, hother⟩
      · obtain ⟨hupdated, htoken⟩ := LeaseTransaction.granted_token hgranted
        exact Or.inr (Or.inr ⟨tx, htx, rfl, rfl, Or.inr hupdated, htoken.imp_right Or.inl⟩)
      · exact Or.inl hother
    · cases h
  · next w =>
    obtain ⟨tx, htx, h⟩ := Option.bind_eq_some_iff.1 h
    split at h
    · obtain rfl := Option.some_inj.1 h
      refine ⟨rfl, le_rfl, fun w' tx' htx' ↦ ?_⟩
      rcases setStage_txs htx' with ⟨rfl, rfl⟩ | ⟨_, hother⟩
      · obtain ⟨hupdated, hnone⟩ := @LeaseTransaction.missed_token tx s.now
        exact Or.inr (Or.inr ⟨tx, htx, rfl, rfl, Or.inr hupdated, Or.inl hnone⟩)
      · exact Or.inl hother
    · cases h
  · next w =>
    obtain ⟨tx, htx, h⟩ := Option.bind_eq_some_iff.1 h
    obtain ⟨row, _, h⟩ := Option.bind_eq_some_iff.1 h
    obtain ⟨⟨stage, row'⟩, hupdated, h⟩ := Option.bind_eq_some_iff.1 h
    obtain rfl := Option.some_inj.1 h
    refine ⟨rfl, le_rfl, fun w' tx' htx' ↦ ?_⟩
    rcases setStage_txs htx' with ⟨rfl, rfl⟩ | ⟨_, hother⟩
    · have htoken := (LeaseTransaction.updated_ending hupdated).1
      exact Or.inr (Or.inr ⟨tx, htx, rfl, rfl, Or.inl rfl, Or.inl htoken⟩)
    · exact Or.inl hother
  · obtain ⟨tx, _, h⟩ := Option.bind_eq_some_iff.1 h
    obtain ⟨events, _, h⟩ := Option.bind_eq_some_iff.1 h
    obtain rfl := Option.some_inj.1 h
    exact ⟨rfl, le_rfl, fun w' tx' htx' ↦ Or.inl (finish_txs htx').2⟩
  · obtain ⟨tx, _, h⟩ := Option.bind_eq_some_iff.1 h
    obtain rfl := Option.some_inj.1 h
    exact ⟨rfl, le_rfl, fun w' tx' htx' ↦ Or.inl (finish_txs htx').2⟩

/-- The open transactions are of the job, and the tokens they have drawn are distinct values of
the sequence. -/
structure Drawn (s : LeaseSystem W) : Prop where
  jobs : ∀ w tx, s.txs w = some tx → tx.operation.jobName = s.jobName
  drawn : ∀ w tx k, s.txs w = some tx → tx.stage.token? = some k → k ≤ s.sequence
  distinct : ∀ w w' tx tx' k, s.txs w = some tx → s.txs w' = some tx' →
    tx.stage.token? = some k → tx'.stage.token? = some k → w = w'

/-- A token is spent: the sequence has passed it, and no open transaction has drawn it. -/
structure Spent (token : Nat) (s : LeaseSystem W) : Prop where
  passed : token ≤ s.sequence
  gone : ∀ w tx, s.txs w = some tx → tx.stage.token? ≠ some token

/-- A token that an open transaction has after a step, it had before, or it is a new one. -/
theorem step_token (h : step act s = some s') {tx' : LeaseTransaction} {k : Nat}
    (htx : s'.txs w = some tx') (hk : tx'.stage.token? = some k) :
    (∃ tx, s.txs w = some tx ∧ tx.stage.token? = some k) ∨
      (act.worker? = some w ∧ s.sequence < k ∧ s'.sequence = k) := by
  obtain ⟨_, _, htxs⟩ := step_txs h
  rcases htxs w tx' htx with hold | ⟨hbegun, _⟩ |
    ⟨tx, hold, _, hworker, _, hnone | hsame | hnew⟩
  · exact Or.inl ⟨tx', hold, hk⟩
  · rw [hbegun] at hk
    cases hk
  · rw [hnone] at hk
    cases hk
  · exact Or.inl ⟨tx, hold, hsame.symm.trans hk⟩
  · obtain ⟨k', hk', hless, hsequence⟩ := hnew
    obtain rfl := Option.some_inj.1 (hk'.symm.trans hk)
    exact Or.inr ⟨hworker, hless, hsequence⟩

theorem Drawn.step (hd : s.Drawn) (h : LeaseSystem.step act s = some s') : s'.Drawn := by
  obtain ⟨hjob, hsequence, htxs⟩ := step_txs h
  refine ⟨fun w tx htx ↦ ?_, fun w tx k htx hk ↦ ?_, fun w w' tx tx' k htx htx' hk hk' ↦ ?_⟩
  · rw [hjob]
    rcases htxs w tx htx with hold | ⟨_, hnew⟩ | ⟨tx₀, hold, hoperation, _⟩
    · exact hd.jobs w tx hold
    · exact hnew
    · rw [hoperation]
      exact hd.jobs w tx₀ hold
  · rcases step_token h htx hk with ⟨tx₀, hold, hk₀⟩ | ⟨_, _, hnew⟩
    · exact (hd.drawn w tx₀ k hold hk₀).trans hsequence
    · exact hnew.ge
  · rcases step_token h htx hk with ⟨tx₀, hold, hk₀⟩ | ⟨hworker, hless, _⟩
    · rcases step_token h htx' hk' with ⟨tx₁, hold', hk₁⟩ | ⟨_, hless, _⟩
      · exact hd.distinct w w' tx₀ tx₁ k hold hold' hk₀ hk₁
      · exact absurd (hd.drawn w tx₀ k hold hk₀) (not_le.2 hless)
    · rcases step_token h htx' hk' with ⟨tx₁, hold', hk₁⟩ | ⟨hworker', _, _⟩
      · exact absurd (hd.drawn w' tx₁ k hold' hk₁) (not_le.2 hless)
      · exact Option.some_inj.1 (hworker.symm.trans hworker')

theorem Spent.step {token : Nat} (hs : s.Spent token) (h : LeaseSystem.step act s = some s') :
    s'.Spent token := by
  refine ⟨hs.passed.trans (step_txs h).2.1, fun w tx htx hk ↦ ?_⟩
  rcases step_token h htx hk with ⟨tx₀, hold, hk₀⟩ | ⟨_, hless, _⟩
  · exact hs.gone w tx₀ hold hk₀
  · exact absurd hs.passed (not_le.2 hless)

/-- The token of an acquisition is spent once its transaction has ended. -/
theorem Drawn.spent (hd : s.Drawn) {k : Nat} (htx : s.txs w = some tx)
    (hk : tx.stage.token? = some k) {row : Option SchedulerLeaseRow} {events : List LeaseEvent} :
    (s.finish w row events).Spent k := by
  refine ⟨hd.drawn w tx k htx hk, fun w' tx' htx' hk' ↦ ?_⟩
  obtain ⟨hne, hold⟩ := finish_txs htx'
  exact hne (hd.distinct w' w tx' tx k hold htx hk' hk)

/-! ## Rows at the end of a transaction -/

/-- A transaction that ends with a lease has left it in the row. -/
structure Endings (s : LeaseSystem W) : Prop where
  taken : ∀ w tx row, s.txs w = some tx → tx.stage = .ending (.acquired row) → s.row = some row
  updated : ∀ w tx row, s.txs w = some tx → tx.stage = .ending (.updated row) →
    s.holder = some w ∧ s.row = some row ∧
      (∀ identity, tx.operation.identity? = some identity →
        row.fencingToken = identity.fencingToken) ∧
      ∀ input, tx.operation = .release input → row.status = .released

/-- A transaction that ends with an updated row has ended before, or it is its `UPDATE`. -/
theorem step_updated (h : step act s = some s') {tx' : LeaseTransaction} {row : SchedulerLeaseRow}
    (htx : s'.txs w = some tx') (hstage : tx'.stage = .ending (.updated row)) :
    s.txs w = some tx' ∨ act = .update w := by
  rcases (step_txs h).2.2 w tx' htx with hold | ⟨hbegun, _⟩ | ⟨_, _, _, _, hupdate | hnone, _⟩
  · exact Or.inl hold
  · rw [hstage] at hbegun
    cases hbegun
  · exact Or.inr hupdate
  · rw [hstage] at hnone
    cases hnone

/-- The end of a transaction, whatever it leaves: the others that have ended with a lease keep the
lock, and the row. -/
theorem Endings.finish (he : s.Endings) (hs : s.Sound) {row : Option SchedulerLeaseRow}
    {events : List LeaseEvent} : (s.finish w row events).Endings := by
  refine ⟨fun w' tx r htx hstage ↦ ?_, fun w' tx r htx hstage ↦ ?_⟩
  · obtain ⟨hold, _, hne⟩ := hs.finish_locks htx (by rw [hstage]; trivial)
    rw [(finish_other hne).1]
    exact he.taken w' tx r hold hstage
  · obtain ⟨hw, hold⟩ := finish_txs htx
    obtain ⟨hholder, hrow, hrest⟩ := he.updated w' tx r hold hstage
    have hne : s.holder ≠ some w := fun hself ↦ hw (Option.some_inj.1 (hholder.symm.trans hself))
    rw [(finish_other hne).1, (finish_other hne).2.2]
    exact ⟨hholder, hrow, hrest⟩

theorem update_cases (h : step (.update w) s = some s') :
    ∃ tx row row' stage, s.txs w = some tx ∧ s.row = some row ∧
      tx.updated row s.now = some (stage, row') ∧
      s' = { s.setStage w tx stage with row := some row' } := by
  unfold step at h
  obtain ⟨tx, htx, h⟩ := Option.bind_eq_some_iff.1 h
  obtain ⟨row, hrow, h⟩ := Option.bind_eq_some_iff.1 h
  obtain ⟨⟨stage, row'⟩, hupdated, h⟩ := Option.bind_eq_some_iff.1 h
  exact ⟨tx, row, row', stage, htx, hrow, hupdated, (Option.some_inj.1 h).symm⟩

theorem Endings.step (he : s.Endings) (hs : s.Sound) (h : LeaseSystem.step act s = some s') :
    s'.Endings := by
  have hend : ∀ w tx row, s'.txs w = some tx → tx.stage = .ending (.updated row) →
      s.txs w = some tx ∨ act = .update w := fun w tx row ↦ step_updated h
  rcases step_cases h with ⟨hrow, _, hholder, _, htxs⟩ | ⟨htx, hfree, hgranted⟩ |
    ⟨htx, hrow, hupdate⟩ | ⟨htx, hevents⟩ | ⟨htx⟩
  · refine ⟨fun w tx row htx hstage ↦ ?_, fun w tx row htx hstage ↦ ?_⟩
    · rw [hrow]
      exact he.taken w tx row (htxs w tx htx (by rw [hstage]; trivial)) hstage
    · rcases hend w tx row htx hstage with hold | rfl
      · rw [hrow, hholder]
        exact he.updated w tx row hold hstage
      · -- The `UPDATE` of an identity that the row names already.
        obtain ⟨tx₀, r, r', stage, htx₀, _, hupdated, rfl⟩ := update_cases h
        obtain ⟨_, _, ⟨_, hupdating⟩, _⟩ := LeaseTransaction.updated_some hupdated
        obtain ⟨_, _, hending⟩ := LeaseTransaction.updated_ending hupdated
        rcases setStage_txs htx with ⟨_, rfl⟩ | ⟨hw, _⟩
        · obtain ⟨rfl, hidentity, hrelease⟩ := hending row hstage
          exact ⟨hs.locks w tx₀ htx₀ (by rw [hupdating]; trivial), rfl, hidentity, hrelease⟩
        · exact absurd rfl hw
  · next w₁ tx₁ stage₁ row₁ =>
    have hother : ∀ w' tx', s.txs w' = some tx' → ¬ tx'.stage.Locks := by
      intro w' tx' htx' hlocks
      rw [hs.locks w' tx' htx' hlocks] at hfree
      cases hfree
    refine ⟨fun w tx row htx hstage ↦ ?_, fun w tx row htx hstage ↦ ?_⟩
    · rcases setStage_txs htx with ⟨_, rfl⟩ | ⟨_, hold⟩
      · rcases LeaseTransaction.granted_some hgranted with
          ⟨_, _, _, _, taken, _, _, hending, rfl, _⟩ | ⟨_, _, _, hnot, _⟩
        · rw [LeaseResult.acquired.inj (LeaseStage.ending.inj (hending.symm.trans hstage))]
        · exact absurd hstage (hnot row)
      · exact absurd (by rw [hstage]; trivial) (hother w tx hold)
    · rcases hend w tx row htx hstage with hold | hact
      · rw [(he.updated w tx row hold hstage).1] at hfree
        cases hfree
      · cases hact
  · next w₁ tx₁ r r' stage₁ =>
    obtain ⟨_, _, ⟨_, hupdating⟩, _, hnot, _⟩ := LeaseTransaction.updated_some hupdate
    obtain ⟨_, _, hending⟩ := LeaseTransaction.updated_ending hupdate
    have hself := hs.locks w₁ tx₁ htx (by rw [hupdating]; trivial)
    refine ⟨fun w tx row htx' hstage ↦ ?_, fun w tx row htx' hstage ↦ ?_⟩
    · rcases setStage_txs htx' with ⟨_, rfl⟩ | ⟨hw, hold⟩
      · exact absurd hstage (hnot row)
      · have hholder := hs.locks w tx hold (by rw [hstage]; trivial)
        exact absurd (Option.some_inj.1 (hholder.symm.trans hself)) hw
    · rcases setStage_txs htx' with ⟨rfl, rfl⟩ | ⟨hw, hold⟩
      · obtain ⟨rfl, hidentity, hrelease⟩ := hending row hstage
        exact ⟨hself, rfl, hidentity, hrelease⟩
      · have hholder := (he.updated w tx row hold hstage).1
        exact absurd (Option.some_inj.1 (hholder.symm.trans hself)) hw
  · exact he.finish hs
  · exact he.finish hs

/-! ## The time of a lease -/

/-- The row still has the token of the fence in the committed row, and what was committed since are
writes under that fence; the row may be on its way to another token. -/
structure Kept (fence : SchedulerFence) (log : List LeaseEvent) (s : LeaseSystem W) : Prop where
  saved : ∃ row, s.saved = some row ∧ row.Names fence
  row : ∃ row, s.row = some row ∧ (row.Names fence ∨ row.fencingToken ≠ fence.fencingToken)
  log : ∃ later, s.log = log ++ later ∧ ∀ e ∈ later, e = .wrote fence

/-- The row has lost the token. -/
structure Lost (token : Nat) (s : LeaseSystem W) : Prop where
  saved : ∀ row, s.saved = some row → row.fencingToken ≠ token
  row : ∀ row, s.row = some row → row.fencingToken ≠ token

/-- After an acquisition: the fence is of the job, its token is spent, and the lease is kept or
lost for good. -/
structure After (fence : SchedulerFence) (log : List LeaseEvent) (s : LeaseSystem W) : Prop where
  job : fence.jobName = s.jobName
  spent : s.Spent fence.fencingToken
  kept : s.Kept fence log ∨ s.Lost fence.fencingToken

theorem names_unique {row : SchedulerLeaseRow} {fence fence' : SchedulerFence}
    (hjob : fence.jobName = fence'.jobName) (h : row.Names fence) (h' : row.Names fence') :
    fence = fence' := by
  rcases fence with ⟨_, _, _, _, _⟩
  rcases fence' with ⟨_, _, _, _, _⟩
  obtain ⟨htoken, hworkstream, howner, hrun⟩ := h
  obtain ⟨htoken', hworkstream', howner', hrun'⟩ := h'
  simp_all

/-- A commit: the worker that has the lock publishes its row, and writes only under the fence that
the committed row names. -/
theorem After.commit {fence : SchedulerFence} {log : List LeaseEvent} (ha : s.After fence log)
    (hs : s.Sound) (hd : s.Drawn) (he : s.Endings) {events : List LeaseEvent}
    (htx : s.txs w = some tx) (hevents : tx.events = some events)
    (hspent : (s.finish w s.row events).Spent fence.fencingToken) :
    (s.finish w s.row events).After fence log := by
  refine ⟨ha.job, hspent, ?_⟩
  have hlog : (s.finish w s.row events).log = s.log ++ events := rfl
  -- The rows after it.
  have hrows : (s.finish w s.row events).row = s.row ∧
      ((s.finish w s.row events).saved = s.row ∨ (s.finish w s.row events).saved = s.saved) := by
    by_cases hself : s.holder = some w
    · exact ⟨(finish_own hself).1, Or.inl (finish_own hself).2.1⟩
    · exact ⟨(finish_other hself).1, Or.inr (finish_other hself).2.1⟩
  obtain ⟨hrow, hsaved⟩ := hrows
  have hlost : (∀ row, s.row = some row → row.fencingToken ≠ fence.fencingToken) →
      (s.finish w s.row events).saved = s.row →
        (s.finish w s.row events).Lost fence.fencingToken := by
    intro hne hpublished
    refine ⟨fun row hr ↦ hne row (hpublished.symm.trans hr), fun row hr ↦ ?_⟩
    exact hne row (hrow.symm.trans hr)
  rcases ha.kept with hkept | hgone
  · obtain ⟨r, hr, hnamed⟩ := hkept.row
    have hsame : ∀ {row}, s.row = some row → row = r := fun hrow' ↦
      Option.some_inj.1 (hrow'.symm.trans hr)
    rcases LeaseTransaction.events_some hevents with rfl | ⟨taken, hstage, rfl⟩ |
      ⟨fence', hstage, hoperation, rfl⟩
    · rcases hnamed with hnames | hne
      · refine Or.inl ⟨?_, ⟨r, hrow.trans hr, Or.inl hnames⟩, ?_⟩
        · rcases hsaved with hsaved | hsaved
          · exact ⟨r, hsaved.trans hr, hnames⟩
          · rw [hsaved]
            exact hkept.saved
        · rw [hlog, List.append_nil]
          exact hkept.log
      · rcases hsaved with hsaved | hsaved
        · exact Or.inr (hlost (fun row hrow' ↦ hsame hrow' ▸ hne) hsaved)
        · refine Or.inl ⟨?_, ⟨r, hrow.trans hr, Or.inr hne⟩, ?_⟩
          · rw [hsaved]
            exact hkept.saved
          · rw [hlog, List.append_nil]
            exact hkept.log
    · -- Somebody else acquires it.
      have htaken := he.taken w tx taken htx hstage
      have hne : taken.fencingToken ≠ fence.fencingToken := by
        intro heq
        refine ha.spent.gone w tx htx ?_
        rw [hstage, LeaseStage.token?, heq]
      have hself := hs.locks w tx htx (by rw [hstage]; trivial)
      refine Or.inr (hlost (fun row hrow' ↦ ?_) (finish_own hself).2.1)
      rw [hsame hrow', ← hsame htaken]
      exact hne
    · obtain ⟨fence'', row, hoperation', hrow', hsaved', hnames⟩ := hs.writing w tx htx hstage
      obtain rfl := LeaseOperation.guarded.inj (hoperation.symm.trans hoperation')
      obtain ⟨r', hr', hnames'⟩ := hkept.saved
      obtain rfl := Option.some_inj.1 (hr'.symm.trans hsaved')
      have hjob : fence'.jobName = fence.jobName := by
        have hjob := hd.jobs w tx htx
        rw [hoperation] at hjob
        exact hjob.trans ha.job.symm
      obtain rfl := names_unique hjob hnames hnames'
      obtain ⟨later, hlater, hall⟩ := hkept.log
      refine Or.inl ⟨⟨r', ?_, hnames⟩, ⟨r', hrow.trans hrow', Or.inl hnames⟩,
        later ++ [.wrote fence'], ?_, fun e he ↦ ?_⟩
      · rcases hsaved with hsaved | hsaved
        · exact hsaved.trans hrow'
        · exact hsaved.trans hsaved'
      · rw [hlog, hlater, List.append_assoc]
      · rcases List.mem_append.1 he with he | he
        · exact hall e he
        · exact List.mem_singleton.1 he
  · refine Or.inr ⟨fun row hr ↦ ?_, fun row hr ↦ hgone.row row (hrow.symm.trans hr)⟩
    rcases hsaved with hsaved | hsaved
    · exact hgone.row row (hsaved.symm.trans hr)
    · exact hgone.saved row (hsaved.symm.trans hr)

/-- A step of anybody after the acquisition. -/
theorem After.step {fence : SchedulerFence} {log : List LeaseEvent} (ha : s.After fence log)
    (hs : s.Sound) (hd : s.Drawn) (he : s.Endings) (h : LeaseSystem.step act s = some s') :
    s'.After fence log := by
  have hspent := ha.spent.step h
  have hjob := ha.job.trans (step_txs h).1.symm
  rcases step_cases h with ⟨hrow, hsaved, _, hlog, _⟩ | ⟨htx, _, hgranted⟩ |
    ⟨htx, hrow, hupdate⟩ | ⟨htx, hevents⟩ | ⟨htx⟩
  · refine ⟨hjob, hspent, ha.kept.imp (fun hkept ↦ ⟨?_, ?_, ?_⟩) fun hlost ↦ ⟨?_, ?_⟩⟩
    · rw [hsaved]
      exact hkept.saved
    · rw [hrow]
      exact hkept.row
    · rw [hlog]
      exact hkept.log
    · rw [hsaved]
      exact hlost.saved
    · rw [hrow]
      exact hlost.row
  · rcases LeaseTransaction.granted_some hgranted with
      ⟨_, statementAt, ttlMs, token, taken, _, hstage, rfl, rfl, htoken, _⟩ | ⟨r, hr, rfl, _⟩
    · -- The row is taken over, with a token that is not the spent one.
      have hne : taken.fencingToken ≠ fence.fencingToken := by
        intro heq
        refine ha.spent.gone _ _ htx ?_
        rw [hstage, LeaseStage.token?, ← heq, htoken]
      refine ⟨hjob, hspent, ha.kept.imp (fun hkept ↦ ⟨hkept.saved, ?_, hkept.log⟩) fun hlost ↦
        ⟨hlost.saved, fun row hrow ↦ ?_⟩⟩
      · exact ⟨taken, rfl, Or.inr hne⟩
      · rw [← Option.some_inj.1 hrow]
        exact hne
    · refine ⟨hjob, hspent, ha.kept.imp (fun hkept ↦ ⟨hkept.saved, ?_, hkept.log⟩) fun hlost ↦
        ⟨hlost.saved, fun row hrow ↦ hlost.row row (hr.trans hrow)⟩⟩
      obtain ⟨r', hr', hnamed⟩ := hkept.row
      exact ⟨r', hr.symm.trans hr', hnamed⟩
  · next w tx row row' stage =>
    obtain ⟨htoken, _⟩ := LeaseTransaction.updated_some hupdate
    obtain ⟨_, hnames, _⟩ := LeaseTransaction.updated_ending hupdate
    refine ⟨hjob, hspent, ha.kept.imp (fun hkept ↦ ⟨hkept.saved, ?_, hkept.log⟩) fun hlost ↦
      ⟨hlost.saved, fun r hr ↦ ?_⟩⟩
    · obtain ⟨r, hr, hnamed⟩ := hkept.row
      obtain rfl := Option.some_inj.1 (hr.symm.trans hrow)
      refine ⟨row', rfl, hnamed.imp (hnames fence).2 fun hne ↦ ?_⟩
      rw [htoken]
      exact hne
    · rw [← Option.some_inj.1 hr, htoken]
      exact hlost.row row hrow
  · exact ha.commit hs hd he htx hevents hspent
  · next w tx =>
    have hlog : (s.finish w s.saved []).log = s.log := List.append_nil s.log
    refine ⟨hjob, hspent, ?_⟩
    by_cases hself : s.holder = some w
    · obtain ⟨hrow, hsaved, _⟩ := @finish_own W _ s w s.saved [] hself
      refine ha.kept.imp (fun hkept ↦ ⟨?_, ?_, ?_⟩) fun hlost ↦ ⟨?_, ?_⟩
      · rw [hsaved]
        exact hkept.saved
      · rw [hrow]
        obtain ⟨r, hr, hnames⟩ := hkept.saved
        exact ⟨r, hr, Or.inl hnames⟩
      · rw [hlog]
        exact hkept.log
      · rw [hsaved]
        exact hlost.saved
      · rw [hrow]
        exact hlost.saved
    · obtain ⟨hrow, hsaved, _⟩ := @finish_other W _ s w s.saved [] hself
      refine ha.kept.imp (fun hkept ↦ ⟨?_, ?_, ?_⟩) fun hlost ↦ ⟨?_, ?_⟩
      · rw [hsaved]
        exact hkept.saved
      · rw [hrow]
        exact hkept.row
      · rw [hlog]
        exact hkept.log
      · rw [hsaved]
        exact hlost.saved
      · rw [hrow]
        exact hlost.row

/-! ### Runs -/

/-- What every state of a run has. -/
structure Regular (s : LeaseSystem W) : Prop where
  sound : s.Sound
  drawn : s.Drawn
  endings : s.Endings

theorem Regular.step (hr : s.Regular) (h : LeaseSystem.step act s = some s') : s'.Regular :=
  ⟨hr.sound.step h, hr.drawn.step h, hr.endings.step hr.sound h⟩

omit [DecidableEq W] in
theorem Idle.regular (h : s.Idle) : s.Regular := by
  have hsound := h.sound
  obtain ⟨_, _, htxs, _⟩ := h
  have hnone : ∀ w tx, s.txs w ≠ some tx := by
    intro w tx
    rw [htxs]
    simp
  refine ⟨hsound, ⟨fun w tx htx ↦ ?_, fun w tx k htx ↦ ?_, fun w w' tx tx' k htx ↦ ?_⟩,
    ⟨fun w tx row htx ↦ ?_, fun w tx row htx ↦ ?_⟩⟩
  all_goals exact absurd htx (hnone _ _)

/-- The transaction of a worker commits with a result: its call returns it. -/
def Commits (s : LeaseSystem W) (w : W) (operation : LeaseOperation) (result : LeaseResult)
    (s' : LeaseSystem W) : Prop :=
  (∃ tx, s.txs w = some tx ∧ tx.operation = operation ∧ tx.stage = .ending result) ∧
    LeaseSystem.step (.commit w) s = some s'

/-- The fence of an acquired row. -/
def fenceOf (row : SchedulerLeaseRow) : SchedulerFence where
  jobName := row.jobName
  workstream := row.workstream
  ownerId := row.ownerId
  runId := row.runId
  fencingToken := row.fencingToken

theorem commit_cases (h : LeaseSystem.step (.commit w) s = some s') (htx : s.txs w = some tx) :
    ∃ events, tx.events = some events ∧ s' = s.finish w s.row events := by
  unfold LeaseSystem.step at h
  obtain ⟨tx', htx', h⟩ := Option.bind_eq_some_iff.1 h
  obtain rfl := Option.some_inj.1 (htx'.symm.trans htx)
  obtain ⟨events, hevents, h⟩ := Option.bind_eq_some_iff.1 h
  exact ⟨events, hevents, (Option.some_inj.1 h).symm⟩

/-- The commit of an acquisition. -/
theorem Regular.acquired (hr : s.Regular) {operation : LeaseOperation} {row : SchedulerLeaseRow}
    (hjob : row.jobName = operation.jobName) (h : s.Commits w operation (.acquired row) s') :
    s'.Regular ∧ s'.log = s.log ++ [.acquired row.fencingToken] ∧
      s'.After (fenceOf row) s'.log := by
  obtain ⟨⟨tx, htx, hoperation, hstage⟩, hstep⟩ := h
  have hregular := hr.step hstep
  obtain ⟨events, hevents, rfl⟩ := commit_cases hstep htx
  obtain rfl := Option.some_inj.1 ((LeaseTransaction.events_acquired hstage).symm.trans hevents)
  have hrow := hr.endings.taken w tx row htx hstage
  have hself := hr.sound.locks w tx htx (by rw [hstage]; trivial)
  have hnames : row.Names (fenceOf row) := ⟨rfl, rfl, rfl, rfl⟩
  have hsystem : row.jobName = s.jobName := by
    rw [hjob, ← hoperation]
    exact hr.drawn.jobs w tx htx
  have hspent := @Drawn.spent W _ s w tx hr.drawn row.fencingToken htx (by rw [hstage]; rfl)
  refine ⟨hregular, rfl, hsystem, hspent, Or.inl ⟨?_, ?_, ?_⟩⟩
  · exact ⟨row, (finish_own hself).2.1.trans hrow, hnames⟩
  · exact ⟨row, (finish_own hself).1.trans hrow, Or.inl hnames⟩
  · exact ⟨[], (List.append_nil _).symm, fun e he ↦ by cases he⟩

/-- **The time of a lease.**  Where a heartbeat or a release is accepted under the fence of an
acquisition, everything that was committed since is a write under that fence. -/
theorem log_of_kept {fence : SchedulerFence} {log : List LeaseEvent} (hr : s.Regular)
    (ha : s.After fence log) {operation : LeaseOperation} {row : SchedulerLeaseRow}
    {identity : SchedulerFencingIdentity} (hidentity : operation.identity? = some identity)
    (htoken : identity.fencingToken = fence.fencingToken)
    (h : s.Commits w operation (.updated row) s') :
    (∃ later, s'.log = log ++ later ∧ ∀ e ∈ later, e = .wrote fence) ∧ s'.saved = some row ∧
      row.Names fence ∧ ∀ input, operation = .release input → row.status = .released := by
  obtain ⟨⟨tx, htx, rfl, hstage⟩, hstep⟩ := h
  obtain ⟨hself, hrow, hnamed, hreleased⟩ := hr.endings.updated w tx row htx hstage
  have hsame : row.fencingToken = fence.fencingToken := (hnamed identity hidentity).trans htoken
  obtain ⟨events, hevents, rfl⟩ := commit_cases hstep htx
  have hnil : events = [] := by
    rcases LeaseTransaction.events_some hevents with rfl | ⟨_, hother, _⟩ | ⟨_, hother, _⟩
    · rfl
    · rw [hstage] at hother
      cases hother
    · rw [hstage] at hother
      cases hother
  rcases ha.kept with hkept | hlost
  · obtain ⟨r, hr', hnames⟩ := hkept.row
    obtain rfl := Option.some_inj.1 (hr'.symm.trans hrow)
    refine ⟨?_, (finish_own hself).2.1.trans hrow, ?_, hreleased⟩
    · obtain ⟨later, hlater, hall⟩ := hkept.log
      refine ⟨later, ?_, hall⟩
      rw [hnil]
      exact (List.append_nil s.log).trans hlater
    · exact hnames.resolve_right fun hne ↦ hne hsame
  · exact absurd hsame (hlost.row row hrow)

end LeaseSystem

end AlpacaTrading
