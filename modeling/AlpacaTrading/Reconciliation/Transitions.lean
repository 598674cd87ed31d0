import Mathlib.Data.List.Chain
import Mathlib.Data.List.Sigma
import AlpacaTrading.Reconciliation.Inversion

/-!
# The transition log

`autonomous_trade_lifecycle_transitions` is a log: rows are appended and never changed.  A row of a
broker observation is named by the broker order, the state the observation leads to and a number,
and a row whose name is taken is not stored a second time.

`appendTransitions_rows` says which rows are stored, and `storeObservation_logs` what that means for
an observation: all rows of its path are stored and the intent moves, or some name was taken and
the intent stays.
-/

namespace AlpacaTrading

/-! ## Names -/

/-- `broker-reconciliation:<brokerId>:<target>:<ordinal>`. -/
def reconciliationKey (brokerId : String) (state : LifecycleState) (ordinal : Nat) : String :=
  "broker-reconciliation:" ++ brokerId ++ ":" ++ state.name ++ ":" ++ toString ordinal

theorem toString_inj {m n : Nat} (h : toString m = toString n) : m = n := by
  rw [Nat.toString_eq_ofList_toDigits, Nat.toString_eq_ofList_toDigits] at h
  have hdigits := String.ofList_injective h
  rw [← Nat.ofDigitChars_toDigits (b := 10) (n := m) (by decide) (by decide), hdigits,
    Nat.ofDigitChars_toDigits (by decide) (by decide)]

theorem colon_notMem_toString (n : Nat) : ':' ∉ (toString n).toList := by
  intro h
  rw [Nat.toString_eq_ofList_toDigits, String.toList_ofList] at h
  exact absurd (Nat.isDigit_of_mem_toDigits (by decide) (by decide) h) (by decide)

theorem LifecycleState.name_inj {s t : LifecycleState} (h : s.name = t.name) : s = t := by
  have hnames : ∀ s ∈ all, ∀ t ∈ all, s.name = t.name → s = t := by decide +kernel
  exact hnames s (mem_all s) t (mem_all t) h

theorem LifecycleState.colon_notMem_name (s : LifecycleState) : ':' ∉ s.name.toList := by
  have hnames : ∀ s ∈ all, ':' ∉ s.name.toList := by decide +kernel
  exact hnames s (mem_all s)

/-- A text is cut at its last colon in one way. -/
theorem cut_inj {a b c d : String} (hb : ':' ∉ b.toList) (hd : ':' ∉ d.toList)
    (h : a ++ ":" ++ b = c ++ ":" ++ d) : a = c ∧ b = d := by
  -- Read backwards, a text without a colon ends where the first colon is.
  have hhead : ∀ s t : String, ':' ∉ s.toList →
      ((t ++ ":" ++ s).toList.reverse).takeWhile (· ≠ ':') = s.toList.reverse := by
    intro s t hs
    rw [String.toList_append, String.toList_append, List.reverse_append, List.reverse_append,
      List.takeWhile_append_of_pos]
    · exact List.append_nil _
    · intro c hc
      refine decide_eq_true ?_
      rintro rfl
      exact hs (List.mem_reverse.1 hc)
  have hbd : b = d := by
    have hrev := hhead b a hb
    rw [h, hhead d c hd] at hrev
    exact String.toList_inj.1 (List.reverse_injective hrev.symm)
  subst hbd
  rw [String.append_assoc, String.append_assoc] at h
  exact ⟨(String.append_left_inj _).1 h, rfl⟩

/-- A name says what it is made of. -/
theorem reconciliationKey_inj {brokerId brokerId' : String} {state state' : LifecycleState}
    {n n' : Nat} (h : reconciliationKey brokerId state n = reconciliationKey brokerId' state' n') :
    brokerId = brokerId' ∧ state = state' ∧ n = n' := by
  obtain ⟨hrest, hn⟩ := cut_inj (colon_notMem_toString n) (colon_notMem_toString n') h
  obtain ⟨hrest, hstate⟩ := cut_inj state.colon_notMem_name state'.colon_notMem_name hrest
  exact ⟨(String.append_right_inj _).1 hrest, LifecycleState.name_inj hstate, toString_inj hn⟩

/-! ## Appending -/

/-- The row has a name no row of the list has. -/
def LifecycleTransition.newIn (log : List LifecycleTransition) (r : LifecycleTransition) : Bool :=
  !log.any fun x ↦ x.orderIntentId = r.orderIntentId ∧ x.idempotencyKey = r.idempotencyKey

theorem newIn_append_singleton {log : List LifecycleTransition} {r x : LifecycleTransition}
    (h : x.idempotencyKey ≠ r.idempotencyKey) : r.newIn (log ++ [x]) = r.newIn log := by
  simp [LifecycleTransition.newIn, h]

/-- The rows that are stored are those with a new name. -/
theorem appendTransitions_rows {rows : List LifecycleTransition}
    {t t' : Table LifecycleTransition} {n : Nat}
    (hdistinct : (rows.map (·.idempotencyKey)).Nodup)
    (h : appendTransitions t rows = .ok (t', n)) :
    t'.rows = t.rows ++ rows.filter (·.newIn t.rows) ∧
      n = (rows.filter (·.newIn t.rows)).length := by
  induction rows generalizing t t' n with
  | nil =>
    obtain ⟨rfl, rfl⟩ := Prod.mk.inj (Except.ok.inj h)
    simp
  | cons r rest ih =>
    rw [List.map_cons, List.nodup_cons] at hdistinct
    obtain ⟨hr, hrest⟩ := hdistinct
    rw [appendTransitions] at h
    split at h
    · next htaken =>
      have hold : r.newIn t.rows = false := by
        rw [LifecycleTransition.newIn, htaken]
        rfl
      rw [List.filter_cons_of_neg (by simp [hold])]
      exact ih hrest h
    · next hfree =>
      have hnew : r.newIn t.rows = true := by
        rw [LifecycleTransition.newIn, eq_false_of_ne_true hfree]
        rfl
      simp only [bind_eq_ok, Table.insertOne_eq_ok] at h
      obtain ⟨t₁, hinsert, ⟨t₂, m⟩, hok, hout⟩ := h
      obtain ⟨rfl, rfl⟩ := Prod.mk.inj (Except.ok.inj hout)
      obtain ⟨hrows, hcount⟩ := ih hrest hok
      have ht₁ := Table.rows_of_insert? hinsert
      -- The stored row is none of the rest.
      have hsame : rest.filter (·.newIn t₁.rows) = rest.filter (·.newIn t.rows) := by
        refine List.filter_congr fun x hx ↦ ?_
        rw [ht₁, newIn_append_singleton]
        rintro heq
        exact hr (heq ▸ List.mem_map_of_mem hx)
      rw [hsame] at hrows hcount
      rw [List.filter_cons_of_pos hnew, hrows, hcount, ht₁, List.length_cons]
      exact ⟨by simp, rfl⟩

/-! ## The rows of a path -/

/-- The steps of a path. -/
theorem isChain_zip_tail {α : Type*} (l : List α) :
    (l.zip l.tail).IsChain fun a b ↦ a.2 = b.1 := by
  induction l with
  | nil => exact .nil
  | cons a l ih =>
    rcases l with - | ⟨b, l⟩
    · exact .nil
    · rcases l with - | ⟨c, l⟩
      · exact .singleton _
      · exact .cons_cons rfl ih

theorem getLast?_zip_tail {α : Type*} (l : List α) :
    (l.zip l.tail).getLast?.map Prod.snd = l.tail.getLast? := by
  have hzip : (l.zip l.tail).map Prod.snd = l.tail :=
    List.map_snd_zip (by rw [List.length_tail]; exact Nat.sub_le _ _)
  rw [← List.getLast?_map, hzip]

theorem head?_zip_tail {α : Type*} (l : List α) :
    ∀ x ∈ (l.zip l.tail).head?, l.head? = some x.1 := by
  intro x hx
  rcases l with - | ⟨a, - | ⟨b, l⟩⟩
  · cases hx
  · cases hx
  · obtain rfl := Option.some_inj.1 hx
    rfl

section Rows

variable [Hashing] {target : Target} {obs : Observation} {now : Time}

theorem transitionRows_length :
    (transitionRows target obs now).length = obs.path.tail.length := by
  rw [transitionRows, List.length_map, List.length_zipIdx, List.length_zip, List.length_tail]
  omega

/-- A row is of the intent, and named by its number. -/
theorem mem_transitionRows {r : LifecycleTransition} (h : r ∈ transitionRows target obs now) :
    r.orderIntentId = target.intent.id ∧
      (∃ n, r.idempotencyKey = reconciliationKey obs.brokerId obs.state (n + 1)) ∧
      (r.fromState, r.toState) ∈ obs.path.zip obs.path.tail := by
  obtain ⟨⟨⟨fromState, toState⟩, n⟩, hstep, rfl⟩ := List.mem_map.1 h
  exact ⟨rfl, ⟨n, rfl⟩, List.fst_mem_of_mem_zipIdx hstep⟩

/-- The rows of a path with steps begin with number one. -/
theorem transitionRows_first (h : obs.path.tail ≠ []) :
    ∃ r ∈ transitionRows target obs now,
      r.idempotencyKey = reconciliationKey obs.brokerId obs.state 1 := by
  rcases hpath : obs.path with - | ⟨a, - | ⟨b, rest⟩⟩
  · simp [hpath] at h
  · simp [hpath] at h
  · exact ⟨_, by rw [transitionRows, hpath]; exact List.mem_cons_self, rfl⟩

theorem transitionRows_nodup : ((transitionRows target obs now).map (·.idempotencyKey)).Nodup := by
  have hkeys : (transitionRows target obs now).map (·.idempotencyKey) =
      (((obs.path.zip obs.path.tail).zipIdx.map Prod.snd)).map
        fun n ↦ reconciliationKey obs.brokerId obs.state (n + 1) := by
    rw [transitionRows, List.map_map, List.map_map]
    rfl
  rw [hkeys]
  refine List.Nodup.map (fun m n h ↦ ?_) (List.nodup_zipIdx_map_snd _)
  exact Nat.succ_injective (reconciliationKey_inj h).2.2

/-- The rows go along the path. -/
theorem transitionRows_steps : (transitionRows target obs now).map (fun r ↦ (r.fromState, r.toState)) =
    obs.path.zip obs.path.tail := by
  rw [transitionRows, List.map_map]
  exact List.zipIdx_map_fst 0 _

/-! ## The statement -/

/-- The order an observation proposes is of the intent. -/
theorem observedOrder_intent {order : Order} (h : observedOrder target obs = .ok order) :
    order.orderIntentId = target.intent.id := by
  unfold observedOrder at h
  simp only [bind_eq_ok] at h
  obtain ⟨_, _, _, _, _, _, _, _, _, _, h⟩ := h
  -- The submission time decides only whether the row can be stored.
  repeat' split at h
  all_goals
    obtain ⟨_, _, h⟩ := bind_eq_ok.1 h
    rw [← Except.ok.inj h]

/-- **An observation is stored whole or not at all**: its rows with a new name are appended, and
the intent moves when all of them have one. -/
theorem storeObservation_logs {db db' : Db} {resized : Option Resize} {counts : ObserveCounts}
    (h : storeObservation db target obs now resized = .ok (db', counts)) :
    db'.lifecycleTransitions.rows = db.lifecycleTransitions.rows ++
        (transitionRows target obs now).filter (·.newIn db.lifecycleTransitions.rows) ∧
      (∃ order id, order.orderIntentId = target.intent.id ∧
        upsertOrder db.orders order = .ok (db'.orders, id)) ∧
      ((∀ r ∈ transitionRows target obs now, r.newIn db.lifecycleTransitions.rows = true) ∧
          counts.updatedIntent = true ∧ (∃ submittedAt, db'.intents = db.intents.modify
            target.intent.id (Intent.observe obs submittedAt now) (Intent.observe_keeps _ _ _)) ∨
        (∃ r ∈ transitionRows target obs now, r.newIn db.lifecycleTransitions.rows = false) ∧
          counts.updatedIntent = false ∧ db'.intents = db.intents) := by
  simp only [storeObservation, bind_eq_ok] at h
  obtain ⟨order, horder, ⟨orders, orderId⟩, hups, db₁, hres, ⟨lifecycleTransitions, n⟩, happend,
    h⟩ := h
  have hframe : db₁.lifecycleTransitions = db.lifecycleTransitions ∧ db₁.orders = orders ∧
      db₁.intents = db.intents := by
    rcases resized with - | z
    · rw [applyResize_none hres]
      exact ⟨rfl, rfl, rfl⟩
    · obtain ⟨_, rfl⟩ := applyResize_some hres
      exact ⟨rfl, rfl, rfl⟩
  obtain ⟨htransitions, rfl, hintents⟩ := hframe
  rw [htransitions] at happend
  obtain ⟨hrows, rfl⟩ := appendTransitions_rows transitionRows_nodup happend
  dsimp only at h
  split at h
  · next hall =>
    rw [bind_eq_ok] at h
    obtain ⟨⟨events, stored⟩, _, hout⟩ := h
    obtain ⟨rfl, rfl⟩ := Prod.mk.inj (Except.ok.inj hout)
    refine ⟨hrows, ⟨order, orderId, observedOrder_intent horder, hups⟩, .inl ⟨?_, rfl, ?_⟩⟩
    · rw [← @transitionRows_length _ target obs now] at hall
      exact List.length_filter_eq_length_iff.1 hall
    · exact ⟨order.submittedAt, by rw [hintents]⟩
  · next hsome =>
    obtain ⟨rfl, rfl⟩ := Prod.mk.inj (Except.ok.inj h)
    refine ⟨hrows, ⟨order, orderId, observedOrder_intent horder, hups⟩, .inr ⟨?_, rfl, hintents⟩⟩
    rw [← @transitionRows_length _ target obs now] at hsome
    by_contra hnone
    refine hsome (List.length_filter_eq_length_iff.2 fun r hr ↦ ?_)
    by_contra hr'
    exact hnone ⟨r, hr, eq_false_of_ne_true hr'⟩

end Rows

end AlpacaTrading
