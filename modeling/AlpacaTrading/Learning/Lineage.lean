import AlpacaTrading.Learning.OutcomeRecord

/-!
# Exact records

An `exact` record feeds the historical aggregates as evidence, so its rows have to be the only ones
there are.  Each branch of the join is responsible for the rows it leaves out.  One of them is
not: where one position names its entry order, the other positions of the candidate are never
looked at.

`CompleteFill` says, in terms of the rows alone, what it takes for the record of a filled order to
be exact.  `exact_lineage_iff` is the result: an exact record is a unique lineage unless such rows
come with one more position.
-/

namespace AlpacaTrading

/-! ## The statement -/

/-- The rows of a kind have distinct identifiers. -/
structure DistinctIds (input : OutcomeLearningInput) : Prop where
  reviews : (input.reviews.map (·.id)).Nodup
  intents : (input.intents.map (·.id)).Nodup
  orders : (input.orders.map (·.id)).Nodup

namespace OutcomeLearningInput

variable (input : OutcomeLearningInput)

/-- The positions that name the order as the one that opened them. -/
def linkedPositions (order : OutcomeOrderInput) : List OutcomePositionInput :=
  input.candidatePositions.filter (·.openingOrderId = some order.id)

/-- The entry of the candidate is one review, one intent and one order. -/
structure Entered (review : OutcomeReviewInput) (intent : OutcomeIntentInput)
    (order : OutcomeOrderInput) : Prop where
  reviews : input.entryReviews = [review]
  intents : input.entryIntents = [intent]
  orders : input.entryOrders = [order]
  reviewed : truthy intent.reviewId = some review.id

/-- The rows that closed a position. -/
structure ClosedBy (position : OutcomePositionInput) (order : OutcomeOrderInput)
    (intent : OutcomeIntentInput) : Prop where
  order_mem : order ∈ input.orders
  intent_mem : intent ∈ input.intents
  closing : truthy position.closingOrderId = some order.id
  placed : order.intentId = intent.id
  parent : intent.parentPositionId = some position.id

/-- The exit review of an intent. -/
structure ExitReviewed (intent : OutcomeIntentInput) (review : OutcomeReviewInput) : Prop where
  review_mem : review ∈ input.exitReviews
  reviewed : truthy intent.reviewId = some review.id

end OutcomeLearningInput

/-- The exit rows of a record are the ones that closed the position. -/
def ClosedInRecord (input : OutcomeLearningInput) (record : OutcomeLearningRecord)
    (position : OutcomePositionInput) : Prop :=
  ∃ order intent review, input.ClosedBy position order intent ∧ input.ExitReviewed intent review ∧
    record.exitOrderId = some order.id ∧ record.exitIntentId = some intent.id ∧
    record.exitReviewId = some review.id

/-- The record is a unique connected lineage. -/
structure UniqueLineage (input : OutcomeLearningInput) (record : OutcomeLearningRecord) : Prop where
  arbitrated : ∃ a, input.proposalArbitrations = [a]
  entered : ∃ review intent order, input.entryReviews = [review] ∧ input.entryIntents = [intent] ∧
    input.entryOrders = [order] ∧ intent.reviewId = some review.id ∧ order.intentId = intent.id ∧
    record.reviewId = some review.id ∧ record.intentId = some intent.id ∧
    record.orderRecordId = some order.id ∧
    (order.hasFill → ∃ position, input.candidatePositions = [position] ∧
      record.positionId = some position.id ∧ position.openingOrderId = some order.id ∧
      (position.closed → ClosedInRecord input record position))

section Statement

variable [Locale] (input : OutcomeLearningInput)

/-- The time at which the market is looked up. -/
def OutcomeLearningInput.referenceTime (intent : OutcomeIntentInput) (order : OutcomeOrderInput) :
    Option Time :=
  isoTime ((order.submittedAt.or intent.submittedAt).or
    (firstFillAt (some order) (some intent) input.brokerEvents))

/-- The rows make the record of a filled order exact. -/
structure CompleteFill (review : OutcomeReviewInput) (intent : OutcomeIntentInput)
    (order : OutcomeOrderInput) (position : OutcomePositionInput) : Prop where
  unlimited : input.sourceLimitations = []
  arbitrated : ∃ a, input.proposalArbitrations = [a]
  entered : input.Entered review intent order
  linked : input.linkedPositions order = [position]
  filled : order.hasFill ∧ order.filled ≠ 0
  kept : order.status ≠ some "replaced"
  /-- A closing order that the position names is there, with its intent. -/
  closing : ∀ id, truthy position.closingOrderId = some id →
    ∃ o i, o.id = id ∧ input.ClosedBy position o i
  /-- A closed position has been closed by an order, and after a review. -/
  closed : position.closed → ∃ o i r, input.ClosedBy position o i ∧ input.ExitReviewed i r
  /-- Every event belongs to the order, the exit order or one of their intents. -/
  events : ∀ e ∈ input.brokerEvents, e ∈ input.lifecycleEvents
    ⟨some review, some intent, some order, some position⟩ (input.exitJoin (some position)).1
  timed : order.fillStatus →
    (truthy (firstFillAt (some order) (some intent) input.brokerEvents)).isSome
  /-- The market was observed just before the order. -/
  observed : ∃ time, input.referenceTime intent order = some time ∧
    ∃ o ∈ input.marketObservations, o.eligible input.candidate.symbol time
      (max 0 (min 900000 (input.referenceToleranceMs.getD 60000)))

/-- The rows make the record of a filled order exact, and there is one more position. -/
def HidesPosition : Prop :=
  ∃ review intent order position, CompleteFill input review intent order position ∧
    input.candidatePositions ≠ [position]

end Statement

/-! ## Single rows -/

theorem eq_singleton_of_nodup {α κ : Type*} {key : α → κ} {l : List α} {a : α}
    (hdistinct : (l.map key).Nodup) (ha : a ∈ l) (hall : ∀ x ∈ l, key x = key a) : l = [a] := by
  have hinj : ∀ x ∈ l, x = a := fun x hx ↦ List.inj_on_of_nodup_map hdistinct hx ha (hall x hx)
  have hnodup : l.Nodup := List.Nodup.of_map key hdistinct
  rcases l with - | ⟨b, - | ⟨c, rest⟩⟩
  · exact absurd ha List.not_mem_nil
  · rw [hinj b (List.mem_singleton_self b)]
  · have hb := hinj b (by simp)
    have hc := hinj c (by simp)
    exact absurd (hb.trans hc.symm) (by rw [List.nodup_cons] at hnodup; rintro rfl; simp at hnodup)

/-- At most one row has an identifier. -/
theorem filter_eq_singleton {α κ : Type*} [DecidableEq κ] {key : α → κ} {l : List α} {a : α}
    (hdistinct : (l.map key).Nodup) (ha : a ∈ l) : l.filter (fun x ↦ key x = key a) = [a] := by
  refine eq_singleton_of_nodup (hdistinct.sublist (List.filter_sublist.map key)) ?_ fun x hx ↦ ?_
  · exact List.mem_filter.2 ⟨ha, decide_eq_true rfl⟩
  · exact of_decide_eq_true (List.mem_filter.1 hx).2

theorem find?_eq_of_nodup {α κ : Type*} [DecidableEq κ] {key : α → κ} {l : List α} {a : α}
    (hdistinct : (l.map key).Nodup) (ha : a ∈ l) :
    l.find? (fun x ↦ key x = key a) = some a := by
  rw [← List.head?_filter, filter_eq_singleton hdistinct ha]
  rfl

@[simp] theorem selectSingle_singleton {α : Type*} (a : α) (missingCode ambiguousCode : String) :
    selectSingle [a] missingCode ambiguousCode = (some a, {}) := rfl

theorem selectSingle_clear {α : Type*} {rows : List α} {missingCode ambiguousCode : String}
    (h : (selectSingle rows missingCode ambiguousCode).2 = {}) : ∃ a, rows = [a] := by
  rcases rows with - | ⟨a, - | ⟨b, rest⟩⟩
  · exact absurd h (by simp [selectSingle])
  · exact ⟨a, rfl⟩
  · exact absurd h (by simp [selectSingle])

namespace DistinctIds

variable {input : OutcomeLearningInput}

theorem entryReviews (h : DistinctIds input) : (input.entryReviews.map (·.id)).Nodup :=
  h.reviews.sublist (List.filter_sublist.map _)

theorem exitReviews (h : DistinctIds input) : (input.exitReviews.map (·.id)).Nodup :=
  h.reviews.sublist (List.filter_sublist.map _)

theorem entryIntents (h : DistinctIds input) : (input.entryIntents.map (·.id)).Nodup :=
  h.intents.sublist (List.filter_sublist.map _)

theorem entryOrders (h : DistinctIds input) : (input.entryOrders.map (·.id)).Nodup :=
  h.orders.sublist (List.filter_sublist.map _)

end DistinctIds

/-! ## The entry -/

namespace OutcomeLearningInput

variable {input : OutcomeLearningInput} {review : OutcomeReviewInput} {intent : OutcomeIntentInput}
  {order : OutcomeOrderInput} {position : OutcomePositionInput}

/-- An order of an entry intent was placed for it. -/
theorem Entered.placed (h : input.Entered review intent order) : order.intentId = intent.id := by
  have horder : order ∈ input.entryOrders := by
    rw [h.orders]
    exact List.mem_singleton_self order
  have hplaced := of_decide_eq_true (List.mem_filter.1 horder).2
  rw [h.intents] at hplaced
  exact List.mem_singleton.1 hplaced

/-- A review that is selected in silence is linked to the intent. -/
theorem reviewForIntent_clear (h : (input.reviewForIntent (some intent)).2 = {}) :
    ∃ review ∈ input.entryReviews, (input.reviewForIntent (some intent)).1 = some review ∧
      truthy intent.reviewId = some review.id := by
  rw [reviewForIntent] at h ⊢
  split at h
  · next reviewId htruthy =>
    obtain ⟨review, hrows⟩ := selectSingle_clear h
    have hmem : review ∈ input.entryReviews.filter (·.id = reviewId) := by
      rw [hrows]
      exact List.mem_singleton_self review
    obtain ⟨hreview, hid⟩ := List.mem_filter.1 hmem
    rw [htruthy, hrows]
    exact ⟨review, hreview, rfl, by rw [of_decide_eq_true hid]⟩
  · -- Without a link the review is joined by the candidate, and this is said.
    split at h
    · exact absurd h (by simp)
    · next hno =>
      obtain ⟨review, hrows⟩ := selectSingle_clear h
      exact absurd hrows (hno review)

theorem additionalReviews_clear (hdistinct : DistinctIds input) (hreview : review ∈ input.entryReviews)
    (h : input.additionalReviews (some review) = {}) : input.entryReviews = [review] := by
  refine eq_singleton_of_nodup hdistinct.entryReviews hreview fun r hr ↦ ?_
  by_contra hne
  rw [additionalReviews, JoinReasons.when_eq_empty] at h
  exact absurd (h (List.any_eq_true.2 ⟨r, hr, by simpa using hne⟩)) (by simp)

theorem additionalIntents_clear (hdistinct : DistinctIds input) (hintent : intent ∈ input.entryIntents)
    (h : input.additionalIntents (some intent) = {}) : input.entryIntents = [intent] := by
  refine eq_singleton_of_nodup hdistinct.entryIntents hintent fun i hi ↦ ?_
  by_contra hne
  rw [additionalIntents, JoinReasons.when_eq_empty] at h
  exact absurd (h (List.any_eq_true.2 ⟨i, hi, by simpa using hne⟩)) (by simp)

/-- The chain of a position that names the only order. -/
theorem Entered.chains (h : input.Entered review intent order) : input.positionLinkedChains =
    (input.candidatePositions.filter fun p ↦ truthy p.openingOrderId = some order.id).map
      fun p ↦ ⟨p, order, intent⟩ := by
  rw [positionLinkedChains, h.orders, h.intents]
  induction input.candidatePositions with
  | nil => rfl
  | cons p rest ih =>
    rw [List.filterMap_cons, ih, List.filter_cons]
    by_cases hopening : truthy p.openingOrderId = some order.id
    · simp [hopening, h.placed]
    · rcases hid : truthy p.openingOrderId with - | id
      · simp
      · rw [hid, Option.some_inj] at hopening
        simp [Ne.symm hopening, hopening]

theorem Entered.reviewForIntent (hdistinct : DistinctIds input)
    (h : input.Entered review intent order) :
    input.reviewForIntent (some intent) = (some review, {}) := by
  have hreview : review ∈ input.entryReviews := by
    rw [h.reviews]
    exact List.mem_singleton_self review
  rw [OutcomeLearningInput.reviewForIntent, h.reviewed]
  dsimp only
  rw [filter_eq_singleton hdistinct.entryReviews hreview, selectSingle_singleton]

/-- A chain consists of a position, the entry order it names and the intent of that. -/
theorem mem_positionLinkedChains {chain : EntryChain} (h : chain ∈ input.positionLinkedChains) :
    chain.position ∈ input.candidatePositions ∧ chain.order ∈ input.entryOrders ∧
      chain.intent ∈ input.entryIntents ∧
      truthy chain.position.openingOrderId = some chain.order.id ∧
      chain.order.intentId = chain.intent.id := by
  rw [positionLinkedChains, List.mem_filterMap] at h
  obtain ⟨p, hp, h⟩ := h
  simp only [Option.bind_eq_bind, Option.bind_eq_some_iff] at h
  obtain ⟨id, hid, o, ho, i, hi, h⟩ := h
  obtain rfl := Option.some_inj.1 h
  have hopening : o.id = id := by simpa using List.find?_some ho
  have hplaced : i.id = o.intentId := by simpa using List.find?_some hi
  exact ⟨hp, List.mem_of_find?_eq_some ho, List.mem_of_find?_eq_some hi, by rw [hid, hopening],
    hplaced.symm⟩

/-- A position that is found in silence is the only one that names the order. -/
theorem positionForOrder_clear (h : (input.positionForOrder order).2 = {}) :
    ∃ position, input.linkedPositions order = [position] ∧
      (input.positionForOrder order).1 = some position := by
  rw [positionForOrder] at h ⊢
  split at h
  · next position hlinked => exact ⟨position, hlinked, rfl⟩
  · exact absurd h (by simp)
  · -- The other ways to find a position say so.
    split at h
    · exact absurd h (by simp)
    · exact absurd h (by simp)
    · exact absurd h (by simp)

/-- **An entry that is joined in silence** is one review, one intent and one order, and a fill has
a position that names the order. -/
theorem entryJoin_clear (hdistinct : DistinctIds input) (h : input.entryJoin.2 = {}) :
    ∃ review intent order, input.Entered review intent order ∧
      input.entryJoin.1.review = some review ∧ input.entryJoin.1.intent = some intent ∧
      input.entryJoin.1.order = some order ∧
      (order.hasFill → ∃ position, input.linkedPositions order = [position] ∧
        input.entryJoin.1.position = some position) := by
  rw [entryJoin] at h ⊢
  split at h
  · exact absurd h (by simp)
  · next chain hchains =>
    -- One position names an entry order.
    obtain ⟨_, horder, hintent, hopening, hplaced⟩ := mem_positionLinkedChains
      (by rw [hchains]; exact List.mem_singleton_self chain : chain ∈ input.positionLinkedChains)
    simp only [JoinReasons.append_eq_empty] at h
    obtain ⟨⟨⟨hreasons, horders⟩, hintents⟩, hreviews⟩ := h
    obtain ⟨review, hreview, hselected, hlink⟩ := reviewForIntent_clear hreasons
    rw [hselected] at hreviews
    have hentered : input.Entered review chain.intent chain.order := by
      refine ⟨additionalReviews_clear hdistinct hreview hreviews,
        additionalIntents_clear hdistinct hintent hintents,
        eq_singleton_of_nodup hdistinct.entryOrders horder fun o ho ↦ ?_, hlink⟩
      by_contra hne
      rw [JoinReasons.when_eq_empty] at horders
      exact absurd (horders (List.any_eq_true.2 ⟨o, ho, by simpa using hne⟩)) (by simp)
    refine ⟨review, chain.intent, chain.order, hentered, hselected, rfl, rfl, fun _ ↦
      ⟨chain.position, ?_, rfl⟩⟩
    rw [hentered.chains] at hchains
    obtain ⟨p, hp, hchain⟩ := List.map_eq_singleton_iff.1 hchains
    obtain rfl : p = chain.position := by rw [← hchain]
    rw [← hp, linkedPositions]
    refine List.filter_congr fun q _ ↦ ?_
    simp [(truthy_eq_some.1 hopening).2]
  · next hchains =>
    split at h
    · exact absurd h (by simp)
    · next order horders =>
      simp only [JoinReasons.append_eq_empty] at h
      obtain ⟨⟨⟨⟨hintent, hreasons⟩, hintents⟩, hreviews⟩, hposition⟩ := h
      -- The intent of an entry order is an entry intent.
      rcases hfind : input.entryIntents.find? (·.id = order.intentId) with - | intent
      · rw [hfind] at hintent
        exact absurd hintent (by simp [JoinReasons.when])
      · rw [hfind] at hreasons hintents hreviews ⊢
        obtain ⟨review, hreview, hselected, hlink⟩ := reviewForIntent_clear hreasons
        rw [hselected] at hreviews
        refine ⟨review, intent, order, ⟨additionalReviews_clear hdistinct hreview hreviews,
          additionalIntents_clear hdistinct (List.mem_of_find?_eq_some hfind) hintents, horders,
          hlink⟩, hselected, rfl, rfl, fun hfill ↦ ?_⟩
        rw [if_pos hfill] at hposition ⊢
        exact positionForOrder_clear hposition
    · -- Without an order something is always said.
      split at h
      · exact absurd h (by simp)
      · exact absurd h (by simp)
      · exact absurd h (by simp)

/-- **A unique entry is joined in silence**, with the position that names its order. -/
theorem Entered.entryJoin (hdistinct : DistinctIds input) (h : input.Entered review intent order)
    (hlinked : input.linkedPositions order = [position]) (hfill : order.hasFill) :
    input.entryJoin = (⟨some review, some intent, some order, some position⟩, {}) := by
  have hintents : input.additionalIntents (some intent) = {} := by
    simp [additionalIntents, h.intents]
  have hreviews : input.additionalReviews (some review) = {} := by
    simp [additionalReviews, h.reviews]
  have hfound : input.entryIntents.find? (·.id = order.intentId) = some intent := by
    simp [h.intents, h.placed]
  by_cases hempty : order.id = ""
  · -- No position can name such an order in a chain; the search by the order finds it.
    have hchains : input.positionLinkedChains = [] := by
      rw [h.chains, List.map_eq_nil_iff, List.filter_eq_nil_iff]
      intro p _
      simp [hempty]
    have hposition : input.positionForOrder order = (some position, {}) := by
      rw [positionForOrder]
      rw [linkedPositions] at hlinked
      rw [hlinked]
    rw [OutcomeLearningInput.entryJoin, hchains, h.orders]
    dsimp only
    rw [hfound, h.reviewForIntent hdistinct, if_pos hfill, hposition]
    dsimp only
    rw [hintents, hreviews]
    rfl
  · have hchains : input.positionLinkedChains = [⟨position, order, intent⟩] := by
      rw [h.chains, List.map_eq_singleton_iff]
      refine ⟨position, ?_, rfl⟩
      rw [← hlinked, linkedPositions]
      refine List.filter_congr fun q _ ↦ ?_
      simp [hempty]
    rw [OutcomeLearningInput.entryJoin, hchains]
    dsimp only
    rw [h.reviewForIntent hdistinct, hintents, hreviews, h.orders]
    simp [JoinReasons.when, JoinReasons.append_def, JoinReasons.append]

/-! ## The exit -/

/-- The exit of a position that names its closing order. -/
theorem ClosedBy.exitJoin (hdistinct : DistinctIds input) {o : OutcomeOrderInput}
    {i : OutcomeIntentInput} (h : input.ClosedBy position o i) :
    input.exitJoin (some position) = (⟨some i, some o⟩, {}) := by
  have hintent : input.intents.find? (·.id = o.intentId) = some i := by
    rw [h.placed]
    exact find?_eq_of_nodup hdistinct.intents h.intent_mem
  rw [OutcomeLearningInput.exitJoin, h.closing]
  dsimp only
  rw [filter_eq_singleton hdistinct.orders h.order_mem, selectSingle_singleton]
  dsimp only
  rw [hintent]
  simp [h.parent, JoinReasons.when, JoinReasons.append_def, JoinReasons.append]

/-- **An exit that is joined in silence** has the closing order of the position, if it names one,
and of a closed position it has one. -/
theorem exitJoin_clear (h : (input.exitJoin (some position)).2 = {}) :
    (∀ id, truthy position.closingOrderId = some id →
        ∃ o i, o.id = id ∧ input.ClosedBy position o i) ∧
      (position.closed → (truthy position.closingOrderId).isSome) := by
  rw [exitJoin] at h
  split at h
  · next closingOrderId hclosing =>
    refine ⟨fun id hid ↦ ?_, fun _ ↦ by rw [hclosing]; rfl⟩
    obtain rfl : closingOrderId = id := Option.some_inj.1 (hclosing.symm.trans hid)
    split at h
    · next reasons hselect =>
      have hclear : (selectSingle (input.orders.filter (·.id = closingOrderId)) "EXIT_ORDER_MISSING"
          "EXIT_ORDER_AMBIGUOUS").2 = {} := by rw [hselect]; exact h
      obtain ⟨o, ho⟩ := selectSingle_clear hclear
      rw [ho, selectSingle_singleton] at hselect
      cases hselect
    · next o reasons hselect =>
      split at h
      · exact absurd (JoinReasons.append_eq_empty.1 h).2 (by simp)
      · next i hfind =>
        obtain ⟨hreasons, hparent⟩ := JoinReasons.append_eq_empty.1 h
        have hclear : (selectSingle (input.orders.filter (·.id = closingOrderId))
            "EXIT_ORDER_MISSING" "EXIT_ORDER_AMBIGUOUS").2 = {} := by rw [hselect]; exact hreasons
        obtain ⟨o', ho⟩ := selectSingle_clear hclear
        rw [ho, selectSingle_singleton] at hselect
        obtain rfl : o' = o := Option.some_inj.1 (Prod.mk.inj hselect).1
        have hmem : o' ∈ input.orders.filter (·.id = closingOrderId) := by
          rw [ho]
          exact List.mem_singleton_self o'
        obtain ⟨horder, hid'⟩ := List.mem_filter.1 hmem
        have hoid : o'.id = closingOrderId := of_decide_eq_true hid'
        have hplaced : i.id = o'.intentId := by simpa using List.find?_some hfind
        refine ⟨o', i, hoid, horder, List.mem_of_find?_eq_some hfind, by rw [hclosing, hoid],
          hplaced.symm, ?_⟩
        by_contra hne
        rw [JoinReasons.when_eq_empty] at hparent
        exact absurd (hparent (by simpa using hne)) (by simp)
  · next hclosing =>
    refine ⟨fun id hid ↦ absurd (hclosing.symm.trans hid) (by simp), fun hclosed ↦ ?_⟩
    -- A closed position without a closing order is joined by its intents, and this is said.
    rw [hclosed] at h
    split at h
    · exact absurd h (by simp [JoinReasons.when])
    · exact absurd h (by simp [JoinReasons.when])
    · rw [if_pos rfl] at h
      split at h
      · exact absurd h (by simp)
      · exact absurd h (by simp)
      · exact absurd h (by simp)

/-- A position that is open and names no closing order leaves its exit open. -/
theorem exitJoin_open (hclosing : truthy position.closingOrderId = none)
    (hopen : position.closed = false) : (input.exitJoin (some position)).2 = {} := by
  rw [exitJoin, hclosing, hopen]
  dsimp only
  split
  · rfl
  · rfl
  · rfl

theorem ExitReviewed.exitReviewJoin (hdistinct : DistinctIds input) {closed : Bool}
    (h : input.ExitReviewed intent review) :
    input.exitReviewJoin closed (some intent) = (some review, {}) := by
  rw [OutcomeLearningInput.exitReviewJoin, h.reviewed]
  dsimp only
  rw [filter_eq_singleton hdistinct.exitReviews h.review_mem]

/-- **An exit review that is joined in silence** is, for a closed position, the one its intent
names. -/
theorem exitReviewJoin_clear (h : (input.exitReviewJoin true (some intent)).2 = {}) :
    ∃ r, input.ExitReviewed intent r := by
  rw [exitReviewJoin] at h
  rcases hlink : truthy intent.reviewId with - | reviewId
  · -- Nothing links a review to the intent, and this is said.
    rw [hlink] at h
    dsimp only at h
    rw [if_pos rfl] at h
    split at h
    · exact absurd h (by simp)
    · exact absurd h (by simp)
    · exact absurd h (by simp)
  · rw [hlink] at h
    dsimp only at h
    split at h
    · next review hrows =>
      have hmem : review ∈ input.exitReviews.filter (·.id = reviewId) := by
        rw [hrows]
        exact List.mem_singleton_self review
      obtain ⟨hreview, hid⟩ := List.mem_filter.1 hmem
      exact ⟨review, hreview, by rw [hlink, of_decide_eq_true hid]⟩
    · exact absurd h (by simp)
    · exact absurd h (by simp [JoinReasons.when])

/-- The exit of an open position needs no review. -/
theorem exitReviewJoin_open (hdistinct : DistinctIds input) :
    (input.exitReviewJoin false (some intent)).2 = {} := by
  rw [exitReviewJoin]
  rcases truthy intent.reviewId with - | reviewId
  · rfl
  · dsimp only
    split
    · rfl
    · next a b rest hrows =>
      -- Two reviews with one identifier
      have ha : a ∈ input.exitReviews.filter (·.id = reviewId) := by simp [hrows]
      have hid := of_decide_eq_true (List.mem_filter.1 ha).2
      have hsingle := filter_eq_singleton hdistinct.exitReviews (List.mem_filter.1 ha).1
      rw [hid, hrows] at hsingle
      simp at hsingle
    · rfl

end OutcomeLearningInput

/-! ## The record -/

section Record

variable [Locale] {input : OutcomeLearningInput}

/-- The latest observation is missing only where there is none. -/
theorem latestObservation_isNone {observations : List MarketObservationInput} :
    latestObservation observations = none ↔ observations = [] := by
  rw [latestObservation, List.head?_eq_none_iff]
  constructor
  · intro h
    exact (h ▸ List.perm_insertionSort _ observations).nil_eq.symm
  · rintro rfl
    rfl

/-- A reference is selected where there is an eligible observation. -/
theorem selectReferenceMarketObservation_isSome {instrument eventAt : String} {toleranceMs : ℚ}
    {ids : List String} {observations : List MarketObservationInput} :
    (selectReferenceMarketObservation instrument eventAt toleranceMs ids
        observations).observation.isSome ↔
      ∃ time, isoTime (some eventAt) = some time ∧
        ∃ o ∈ observations, o.eligible instrument time toleranceMs := by
  rw [selectReferenceMarketObservation]
  rcases htime : isoTime (some eventAt) with - | time
  · simp
  · simp only [Option.some_inj, exists_eq_left']
    split
    · next o hexact =>
      -- Evidence is eligible too.
      have hne : observations.filter (·.eligible instrument time toleranceMs) ≠ [] := by
        intro hnil
        rw [hnil, List.filter_nil, latestObservation_isNone.2 rfl] at hexact
        cases hexact
      obtain ⟨o', ho'⟩ := List.exists_mem_of_ne_nil _ hne
      obtain ⟨hmem, heligible⟩ := List.mem_filter.1 ho'
      exact iff_of_true rfl ⟨o', hmem, heligible⟩
    · split
      · next hnone =>
        rw [latestObservation_isNone, List.filter_eq_nil_iff] at hnone
        simp only [Option.isSome_none, Bool.false_eq_true, false_iff, not_exists, not_and]
        exact hnone
      · next o hlatest =>
        have hne : observations.filter (·.eligible instrument time toleranceMs) ≠ [] := by
          intro hnil
          rw [hnil, latestObservation_isNone.2 rfl] at hlatest
          cases hlatest
        obtain ⟨o', ho'⟩ := List.exists_mem_of_ne_nil _ hne
        obtain ⟨hmem, heligible⟩ := List.mem_filter.1 ho'
        exact iff_of_true rfl ⟨o', hmem, heligible⟩

omit [Locale] in
/-- The events are all selected if none is missing. -/
theorem lifecycleEvents_all {entry : EntryJoin} {exit : ExitJoin} :
    ¬ (input.lifecycleEvents entry exit).length < input.brokerEvents.length ↔
      ∀ e ∈ input.brokerEvents, e ∈ input.lifecycleEvents entry exit := by
  rw [OutcomeLearningInput.lifecycleEvents, not_lt]
  constructor
  · intro h e he
    rw [List.filter_sublist.eq_of_length_le h]
    exact he
  · intro h
    rw [List.filter_eq_self.2 fun e he ↦ (List.mem_filter.1 (h e he)).2]

/-- The events of the selected rows. -/
def selectedEvents (input : OutcomeLearningInput) : List OutcomeBrokerEventInput :=
  input.lifecycleEvents input.entryJoin.1 (input.exitJoin input.entryJoin.1.position).1

/-- The time text of the market lookup. -/
def lookupTime (input : OutcomeLearningInput) : Option String :=
  truthy (((input.entryJoin.1.order.bind (·.submittedAt)).or
    (input.entryJoin.1.intent.bind (·.submittedAt))).or
      (firstFillAt input.entryJoin.1.order input.entryJoin.1.intent (selectedEvents input)))

/-- A record is exact if none of its steps said anything. -/
theorem outcome_exact : (buildOutcomeLearningRecord input).joinStatus = .exact ↔
    input.sourceLimitations = [] ∧
    (∃ a, input.proposalArbitrations = [a]) ∧
    input.entryJoin.2 = {} ∧
    fillReasons input.entryJoin.1.order = {} ∧
    (input.exitJoin input.entryJoin.1.position).2 = {} ∧
    (input.exitReviewJoin (input.entryJoin.1.position.any (·.closed))
      (input.exitJoin input.entryJoin.1.position).1.intent).2 = {} ∧
    (∀ e ∈ input.brokerEvents, e ∈ selectedEvents input) ∧
    (input.entryJoin.1.order.any (·.fillStatus) → (truthy (firstFillAt input.entryJoin.1.order
      input.entryJoin.1.intent (selectedEvents input))).isSome) ∧
    ∃ eventAt, lookupTime input = some eventAt ∧ ∃ time, isoTime (some eventAt) = some time ∧
      ∃ o ∈ input.marketObservations, o.eligible input.candidate.symbol time
        (max 0 (min 900000 (input.referenceToleranceMs.getD 60000))) := by
  have hlimits : ({ partialReasons := input.sourceLimitations } : JoinReasons) = {} ↔
      input.sourceLimitations = [] := by
    simp [JoinReasons.ext_iff]
  have hsingle : (selectSingle input.proposalArbitrations "ARBITRATION_DECISION_MISSING"
      "ARBITRATION_DECISION_AMBIGUOUS").2 = {} ↔ ∃ a, input.proposalArbitrations = [a] := by
    constructor
    · exact selectSingle_clear
    · rintro ⟨a, ha⟩
      rw [ha, selectSingle_singleton]
  have hevents := @lifecycleEvents_all input input.entryJoin.1
    (input.exitJoin input.entryJoin.1.position).1
  rw [buildOutcomeLearningRecord]
  dsimp only
  rw [JoinReasons.status_eq_exact]
  simp only [JoinReasons.append_eq_empty, and_assoc, hlimits, hsingle, JoinReasons.when_eq_empty]
  iterate 6 refine and_congr_right fun _ ↦ ?_
  refine and_congr ?_ (and_congr ?_ ?_)
  · rw [selectedEvents, ← hevents]
    simp
  · rw [selectedEvents]
    rcases truthy (firstFillAt input.entryJoin.1.order input.entryJoin.1.intent
      (input.lifecycleEvents input.entryJoin.1
        (input.exitJoin input.entryJoin.1.position).1)) with - | time
    · simp
    · simp
  · rw [lookupTime, selectedEvents]
    rcases truthy (((input.entryJoin.1.order.bind (·.submittedAt)).or
      (input.entryJoin.1.intent.bind (·.submittedAt))).or
        (firstFillAt input.entryJoin.1.order input.entryJoin.1.intent
          (input.lifecycleEvents input.entryJoin.1
            (input.exitJoin input.entryJoin.1.position).1))) with - | eventAt
    · simp
    · dsimp only
      simp only [Option.some_inj, exists_eq_left']
      rw [← @selectReferenceMarketObservation_isSome _ input.candidate.symbol eventAt _
        ((input.entryJoin.1.review.map (·.marketEvidenceIds)).getD []),
        Option.isSome_iff_ne_none, ne_eq, Option.isNone_iff_eq_none]
      simp

variable {review : OutcomeReviewInput} {intent : OutcomeIntentInput} {order : OutcomeOrderInput}
  {position : OutcomePositionInput}

omit [Locale] in
theorem fillReasons_filled (hfill : order.hasFill) :
    fillReasons (some order) = {} ↔ order.filled ≠ 0 ∧ order.status ≠ some "replaced" := by
  have hended : order.terminalUnfilled = false := by
    rw [← Bool.not_eq_true, OutcomeOrderInput.terminalUnfilled, decide_eq_true_eq]
    rintro ⟨hstatus, hzero⟩
    rw [OutcomeOrderInput.hasFill, hzero, OutcomeOrderInput.fillStatus] at hfill
    -- A status that ends an order is none of a fill.
    simp only [List.mem_cons, List.not_mem_nil, or_false] at hstatus
    rcases hstatus with hs | hs | hs | hs
    all_goals
      rw [hs] at hfill
      exact absurd hfill (by decide)
  rw [fillReasons, hended]
  simp

omit [Locale] in
/-- All events are selected. -/
theorem lifecycleEvents_eq {entry : EntryJoin} {exit : ExitJoin}
    (h : ∀ e ∈ input.brokerEvents, e ∈ input.lifecycleEvents entry exit) :
    input.lifecycleEvents entry exit = input.brokerEvents :=
  List.filter_eq_self.2 fun e he ↦ (List.mem_filter.1 (h e he)).2

theorem isoTime_eq_some {value : Option String} {time : Time} :
    isoTime value = some time ↔ ∃ s, truthy value = some s ∧ isoTime (some s) = some time := by
  rw [isoTime, Option.bind_eq_some_iff]
  refine exists_congr fun s ↦ and_congr_right fun hs ↦ ?_
  have hself : truthy (some s) = some s := truthy_eq_some.2 ⟨rfl, (truthy_eq_some.1 hs).2⟩
  rw [isoTime, hself, Option.bind_some]

/-- **The rows of a complete fill** make an exact record. -/
theorem CompleteFill.exact (hdistinct : DistinctIds input)
    (h : CompleteFill input review intent order position) :
    (buildOutcomeLearningRecord input).joinStatus = .exact := by
  have hentry := h.entered.entryJoin hdistinct h.linked h.filled.1
  have hevents := lifecycleEvents_eq h.events
  rw [outcome_exact, lookupTime, selectedEvents, hentry]
  dsimp only
  rw [hevents]
  refine ⟨h.unlimited, h.arbitrated, rfl,
    (fillReasons_filled h.filled.1).2 ⟨h.filled.2, h.kept⟩, ?_, ?_, fun e he ↦ he, h.timed, ?_⟩
  · rcases hclosing : truthy position.closingOrderId with - | id
    · refine OutcomeLearningInput.exitJoin_open hclosing ?_
      rw [← Bool.not_eq_true]
      intro hclosed
      obtain ⟨o, i, _, hby, _⟩ := h.closed hclosed
      rw [hby.closing] at hclosing
      cases hclosing
    · obtain ⟨o, i, _, hby⟩ := h.closing id hclosing
      rw [hby.exitJoin hdistinct]
  · rcases hintent : (input.exitJoin (some position)).1.intent with - | i
    · rfl
    · rw [Option.any_some]
      rcases hclosed : position.closed with - | -
      · exact OutcomeLearningInput.exitReviewJoin_open hdistinct
      · obtain ⟨o, i', r, hby, hreviewed⟩ := h.closed hclosed
        rw [hby.exitJoin hdistinct] at hintent
        obtain rfl : i' = i := Option.some_inj.1 hintent
        rw [hreviewed.exitReviewJoin hdistinct]
  · obtain ⟨time, htime, o, ho, heligible⟩ := h.observed
    obtain ⟨eventAt, hevent, hparsed⟩ := isoTime_eq_some.1 htime
    exact ⟨eventAt, hevent, time, hparsed, o, ho, heligible⟩

/-- **The rows of an exact record**: its entry is unique, and a filled order makes a complete
fill. -/
theorem exact_rows (hdistinct : DistinctIds input)
    (h : (buildOutcomeLearningRecord input).joinStatus = .exact) :
    (∃ a, input.proposalArbitrations = [a]) ∧ ∃ review intent order,
      input.Entered review intent order ∧
      (buildOutcomeLearningRecord input).reviewId = some review.id ∧
      (buildOutcomeLearningRecord input).intentId = some intent.id ∧
      (buildOutcomeLearningRecord input).orderRecordId = some order.id ∧
      (order.hasFill → ∃ position, CompleteFill input review intent order position ∧
        (buildOutcomeLearningRecord input).positionId = some position.id ∧
        (position.closed → ClosedInRecord input (buildOutcomeLearningRecord input) position)) := by
  obtain ⟨hunlimited, harbitrated, hentry, hfill, hexit, hexitReview, hevents, htimed, eventAt,
    hlookup, time, hparsed, hobserved⟩ := outcome_exact.1 h
  obtain ⟨review, intent, order, hentered, hreview, hintent, horder, hposition⟩ :=
    OutcomeLearningInput.entryJoin_clear hdistinct hentry
  refine ⟨harbitrated, review, intent, order, hentered, ?_, ?_, ?_, fun hfilled ↦ ?_⟩
  · rw [buildOutcomeLearningRecord]
    exact congrArg (Option.map _) hreview
  · rw [buildOutcomeLearningRecord]
    exact congrArg (Option.map _) hintent
  · rw [buildOutcomeLearningRecord]
    exact congrArg (Option.map _) horder
  obtain ⟨position, hlinked, hselected⟩ := hposition hfilled
  have hjoin := hentered.entryJoin hdistinct hlinked hfilled
  rw [lookupTime] at hlookup
  rw [selectedEvents, hjoin] at hevents hlookup htimed
  rw [hjoin] at hfill hexit hexitReview
  dsimp only at hevents hlookup htimed hfill hexit hexitReview
  obtain ⟨hcounted, hkept⟩ := (fillReasons_filled hfilled).1 hfill
  obtain ⟨hclosing, hcloses⟩ := OutcomeLearningInput.exitJoin_clear hexit
  rw [lifecycleEvents_eq hevents] at htimed hlookup
  -- The exit of a closed position
  have hclosed : position.closed → ∃ o i r, input.ClosedBy position o i ∧
      input.ExitReviewed i r := by
    intro hclosed
    obtain ⟨id, hid⟩ := Option.isSome_iff_exists.1 (hcloses hclosed)
    obtain ⟨o, i, _, hby⟩ := hclosing id hid
    rw [hby.exitJoin hdistinct, Option.any_some, hclosed] at hexitReview
    obtain ⟨r, hr⟩ := OutcomeLearningInput.exitReviewJoin_clear hexitReview
    exact ⟨o, i, r, hby, hr⟩
  refine ⟨position, ⟨hunlimited, harbitrated, hentered, hlinked, ⟨hfilled, hcounted⟩, hkept,
    hclosing, hclosed, hevents, htimed, time, isoTime_eq_some.2 ⟨eventAt, hlookup, hparsed⟩,
    hobserved⟩, ?_, fun hclosed' ↦ ?_⟩
  · rw [buildOutcomeLearningRecord]
    exact congrArg (Option.map _) hselected
  · obtain ⟨o, i, r, hby, hr⟩ := hclosed hclosed'
    refine ⟨o, i, r, hby, hr, ?_, ?_, ?_⟩
    all_goals
      rw [buildOutcomeLearningRecord, hjoin]
      dsimp only
      rw [hby.exitJoin hdistinct]
    · rfl
    · rfl
    · rw [hr.exitReviewJoin hdistinct]
      rfl

/-- **An exact record is a unique connected lineage** unless its rows come with one more
position. -/
theorem exact_lineage_iff (hdistinct : DistinctIds input) :
    ((buildOutcomeLearningRecord input).joinStatus = .exact →
      UniqueLineage input (buildOutcomeLearningRecord input)) ↔ ¬ HidesPosition input := by
  constructor
  · rintro h ⟨review, intent, order, position, hcomplete, hextra⟩
    obtain ⟨_, _, _, order', _, _, horders, _, _, _, _, _, hunique⟩ := h (hcomplete.exact hdistinct)
    obtain rfl : order' = order := by
      rw [hcomplete.entered.orders] at horders
      exact (List.singleton_inj.1 horders).symm
    obtain ⟨position', hpositions, _, _⟩ := hunique hcomplete.filled.1
    -- The position that names the order is the only one there is.
    have hlinked := hcomplete.linked
    rw [OutcomeLearningInput.linkedPositions, hpositions] at hlinked
    have hmem : position ∈ [position'] :=
      List.mem_of_mem_filter (hlinked ▸ List.mem_singleton_self position)
    obtain rfl := List.mem_singleton.1 hmem
    exact hextra hpositions
  · intro hno hexact
    obtain ⟨harbitrated, review, intent, order, hentered, hreview, hintent, horder, hfill⟩ :=
      exact_rows hdistinct hexact
    refine ⟨harbitrated, review, intent, order, hentered.reviews, hentered.intents, hentered.orders,
      (truthy_eq_some.1 hentered.reviewed).1, hentered.placed, hreview, hintent, horder,
      fun hfilled ↦ ?_⟩
    obtain ⟨position, hcomplete, hselected, hclosed⟩ := hfill hfilled
    refine ⟨position, ?_, hselected, ?_, hclosed⟩
    · by_contra hextra
      exact hno ⟨review, intent, order, position, hcomplete, hextra⟩
    · have hmem : position ∈ input.linkedPositions order := by
        rw [hcomplete.linked]
        exact List.mem_singleton_self position
      exact of_decide_eq_true (List.mem_filter.1 hmem).2

end Record

/-! ## A filled entry -/

namespace Specimen

/-- Two times, and texts compared as they are. -/
@[reducible] def locale : Locale where
  dateParse s :=
    if s = "2026-01-05T15:00:00.000Z" then some 1767625200000
    else if s = "2026-01-05T15:00:20.000Z" then some 1767625220000
    else none
  collates a b := decide (a ≤ b)

/-- A filled entry with its position, and the given other positions. -/
def filledEntry (others : List OutcomePositionInput) : OutcomeLearningInput where
  candidate := { id := "cand", symbol := "XYZ" }
  arbitrations := [{ id := "arbitration", proposalId := "cand" }]
  reviews := [{ id := "review", candidateId := "cand", reviewType := some .entry }]
  intents := [{ id := "intent", candidateId := "cand", reviewId := some "review" }]
  orders := [
    { id := "order", intentId := "intent", status := some "filled", filledQuantity := some 10,
      submittedAt := some "2026-01-05T15:00:20.000Z",
      filledAt := some "2026-01-05T15:00:20.000Z" }]
  positions :=
    { id := "position", candidateId := some "cand", openingOrderId := some "order",
      status := some "open" } :: others
  marketObservations := [
    { id := "quote", instrument := "XYZ", observedAt := "2026-01-05T15:00:00.000Z",
      bid := some 99, ask := some 101 }]

/-- A position of the candidate that names no order. -/
def unlinkedPosition : OutcomePositionInput :=
  { id := "other", candidateId := some "cand", status := some "open" }

theorem filledEntry_distinct (others : List OutcomePositionInput) :
    DistinctIds (filledEntry others) :=
  ⟨List.nodup_singleton _, List.nodup_singleton _, List.nodup_singleton _⟩

end Specimen

/-- The theorem at the specimen: the record is exact, and its lineage unique. -/
theorem specimen_exact_lineage :
    let _ := Specimen.locale
    let record := buildOutcomeLearningRecord (Specimen.filledEntry [])
    record.joinStatus = .exact ∧ UniqueLineage (Specimen.filledEntry []) record := by
  intro _ record
  have hexact : record.joinStatus = .exact := by decide +kernel
  refine ⟨hexact, (exact_lineage_iff (Specimen.filledEntry_distinct [])).2 ?_ hexact⟩
  rintro ⟨review, intent, order, position, hcomplete, hextra⟩
  have hmem : position ∈ (Specimen.filledEntry []).linkedPositions order := by
    rw [hcomplete.linked]
    exact List.mem_singleton_self position
  have hone : (Specimen.filledEntry []).candidatePositions = (Specimen.filledEntry []).positions := by
    decide +kernel
  refine hextra ?_
  rw [OutcomeLearningInput.linkedPositions, hone] at hmem
  rw [hone, List.mem_singleton.1 (List.mem_of_mem_filter hmem)]
  rfl

/-- One more position of the candidate, and the record is exact all the same. -/
theorem hidden_position_exact :
    let _ := Specimen.locale
    let input := Specimen.filledEntry [Specimen.unlinkedPosition]
    let record := buildOutcomeLearningRecord input
    DistinctIds input ∧ record.joinStatus = .exact ∧ ¬ UniqueLineage input record := by
  intro _ input record
  refine ⟨Specimen.filledEntry_distinct _, by decide +kernel, fun hlineage ↦ ?_⟩
  obtain ⟨_, _, order, _, _, horders, _, _, _, _, _, hfill⟩ := hlineage.entered
  have horder : input.entryOrders = input.orders := by decide +kernel
  rw [horder] at horders
  obtain rfl := List.singleton_inj.1 horders
  obtain ⟨position, hpositions, _⟩ := hfill (by decide +kernel)
  have hlength : input.candidatePositions.length = 2 := by decide +kernel
  rw [hpositions] at hlength
  cases hlength

end AlpacaTrading
