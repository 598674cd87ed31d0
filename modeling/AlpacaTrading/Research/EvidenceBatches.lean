import AlpacaTrading.Lib.Batching
import AlpacaTrading.Lib.Json

/-!
# Batches of research evidence

`evidenceBatches` cuts the rows of a research run into batches that are inserted with one statement
each.  A batch has a limited number of rows and a limited size in bytes.  The size is counted along
the way: the bytes of the rows, the commas between them and the two brackets.

## The invariant

While rows are added, the counted bytes are those of the payload that a flush would write
(`Batcher.Holds.bytes`).  A comma is counted for every row but the first of a batch, and the bytes
of a text are those of its parts, since no part ends in half of a pair whose other half begins the
next one: between any two rows there is a comma.
-/

namespace AlpacaTrading

namespace Evidence

open JsString

/-! ## Bytes -/

/-- The bytes of a code unit that is no half of a pair.  Half of a pair alone is replaced by a
character of three bytes. -/
def unitBytes (c : CodeUnit) : ℕ := if c < 0x80 then 1 else if c < 0x800 then 2 else 3

/-- `Buffer.byteLength`, in UTF-8. -/
def byteLength : JsString → ℕ
  | [] => 0
  | [c] => unitBytes c
  | c :: d :: rest =>
    if isLeading c ∧ isTrailing d then 4 + byteLength rest
    else unitBytes c + byteLength (d :: rest)

section Bytes

variable {c : CodeUnit} {s t : JsString}

/-- A code unit that begins no pair is counted alone. -/
theorem byteLength_cons (hc : isLeading c = false) :
    byteLength (c :: s) = unitBytes c + byteLength s := by
  rcases s with - | ⟨d, rest⟩
  · rfl
  · rw [byteLength, if_neg (by simp [hc])]

/-- The bytes of a text are those of its parts, unless a pair is cut. -/
theorem byteLength_append (hc : isTrailing c = false) :
    byteLength (s ++ c :: t) = byteLength s + byteLength (c :: t) := by
  induction s using byteLength.induct with
  | case1 => simp [byteLength]
  | case2 d =>
    change byteLength (d :: c :: t) = unitBytes d + byteLength (c :: t)
    rw [byteLength, if_neg (by simp [hc])]
  | case3 d e rest hpair ih =>
    rw [List.cons_append, List.cons_append, byteLength, if_pos hpair, byteLength, if_pos hpair, ih,
      Nat.add_assoc]
  | case4 d e rest hpair ih =>
    rw [List.cons_append] at ih
    rw [List.cons_append, List.cons_append, byteLength, if_neg hpair, ih, byteLength, if_neg hpair,
      Nat.add_assoc]

end Bytes

/-! ## Payloads -/

/-- The payload of the serialized rows: `[${serializedRows.join(",")}]`. -/
def payloadOf (serializedRows : List JsString) : JsString :=
  91 :: (List.intercalate [44] serializedRows ++ [93])

/-- The payload is the JSON array of the rows. -/
theorem payloadOf_map_stringify (xs : List Json) :
    payloadOf (xs.map Json.stringify) = (Json.array xs).stringify := by
  have htail : ∀ (x : Json) (xs : List Json),
      List.intercalate [44] ((x :: xs).map Json.stringify) ++ [93] =
        x.stringify ++ Json.elementsTail xs := by
    intro x xs
    induction xs generalizing x with
    | nil => simp [Json.elementsTail]
    | cons y ys ih =>
      rw [List.map_cons, List.map_cons, List.intercalate_cons_cons, ← List.map_cons,
        Json.elementsTail, List.append_assoc, List.append_assoc, ih]
      simp
  rcases xs with - | ⟨x, xs⟩
  · rfl
  · rw [payloadOf, htail, Json.stringify]

theorem byteLength_payloadOf (ss : List JsString) :
    byteLength (payloadOf ss) = 2 + byteLength (List.intercalate [44] ss) := by
  rw [payloadOf, byteLength_cons (by decide), byteLength_append (by decide)]
  change 1 + (_ + 1) = _
  omega

/-- What a further row adds: its bytes, and a comma unless it is the first. -/
theorem byteLength_payloadOf_concat (ss : List JsString) (s : JsString) :
    byteLength (payloadOf (ss ++ [s])) =
      byteLength (payloadOf ss) + (byteLength s + if 0 < ss.length then 1 else 0) := by
  have hjoin : ∀ ss : List JsString, ss ≠ [] →
      List.intercalate [44] (ss ++ [s]) = List.intercalate [44] ss ++ 44 :: s := by
    intro ss hss
    induction ss with
    | nil => exact absurd rfl hss
    | cons first rest ih =>
      rcases rest with - | ⟨second, rest⟩
      · simp
      · rw [List.cons_append, List.cons_append, List.intercalate_cons_cons,
          List.intercalate_cons_cons, ← List.cons_append, ih (List.cons_ne_nil _ _)]
        simp
  rw [byteLength_payloadOf, byteLength_payloadOf]
  rcases ss with - | ⟨first, rest⟩
  · simp [byteLength]
  · have hpos : 0 < (first :: rest).length := Nat.zero_lt_succ _
    have hcomma : unitBytes 44 = 1 := rfl
    rw [hjoin _ (List.cons_ne_nil _ _), byteLength_append (by decide), byteLength_cons (by decide),
      if_pos hpos, hcomma]
    omega

/-! ## The function -/

/-- `EVIDENCE_BATCH_SIZE`. -/
def evidenceBatchSize : ℕ := 250

/-- `POSTGRES_RESEARCH_EVIDENCE_BATCH_MAX_BYTES`. -/
def evidenceBatchMaxBytes : ℕ := 4000000

/-- A batch of rows. -/
structure Batch (Row : Type) where
  rows : List Row
  payload : JsString
  bytes : ℕ

/-- The variables of the loop. -/
structure Batcher (Row : Type) where
  batches : List (Batch Row) := []
  currentRows : List Row := []
  serializedRows : List JsString := []
  currentBytes : ℕ := 2

/-- The message of a row that is too large. -/
def rowTooLarge (serializedBytes : ℕ) : String :=
  "POSTGRES_RESEARCH_EVIDENCE_ROW_TOO_LARGE:bytes=" ++ toString serializedBytes ++ ":max=" ++
    toString evidenceBatchMaxBytes

section Batches

variable {Row : Type}

/-- `flush`. -/
def Batcher.flush (b : Batcher Row) : Batcher Row :=
  if b.currentRows = [] then b
  else
    let payload := payloadOf b.serializedRows
    { batches := b.batches ++ [{ rows := b.currentRows, payload, bytes := byteLength payload }] }

/-- `currentRows.push(row)`, with what goes with it. -/
def Batcher.push (b : Batcher Row) (row : Row) (serialized : JsString) : Batcher Row :=
  let currentRows := b.currentRows ++ [row]
  { b with
    currentRows
    serializedRows := b.serializedRows ++ [serialized]
    currentBytes := b.currentBytes +
      (byteLength serialized + if 1 < currentRows.length then 1 else 0) }

variable (json : Row → Json)

/-- A row; `json` is the JSON value of a row, which `JSON.stringify` writes. -/
def Batcher.add (b : Batcher Row) (row : Row) : Except String (Batcher Row) :=
  let serialized := (json row).stringify
  let serializedBytes := byteLength serialized
  if evidenceBatchMaxBytes < serializedBytes + 2 then .error (rowTooLarge serializedBytes)
  else
    let addedBytes := serializedBytes + if 0 < b.currentRows.length then 1 else 0
    let ready := if evidenceBatchSize ≤ b.currentRows.length ∨
        evidenceBatchMaxBytes < b.currentBytes + addedBytes then b.flush else b
    .ok (ready.push row serialized)

/-- `evidenceBatches`. -/
def evidenceBatches (rows : List Row) : Except String (List (Batch Row)) :=
  (rows.foldlM (Batcher.add json) {}).map fun b ↦ b.flush.batches

/-! ## What the batches are -/

/-- The rows make a batch within both limits. -/
def Fits (rows : List Row) : Prop :=
  rows.length ≤ evidenceBatchSize ∧
    byteLength (Json.array (rows.map json)).stringify ≤ evidenceBatchMaxBytes

/-- The row alone is too large for a batch. -/
def TooLarge (row : Row) : Prop := evidenceBatchMaxBytes - 2 < byteLength (json row).stringify

/-- The batches are the rows, cut where the next row does not fit any more, and each one has the
JSON array of its rows for payload. -/
structure Batched (rows : List Row) (batches : List (Batch Row)) : Prop where
  cut : IsBatching (Fits json) rows (batches.map (·.rows))
  payload : ∀ b ∈ batches, b.payload = (Json.array (b.rows.map json)).stringify
  bytes : ∀ b ∈ batches, b.bytes = byteLength b.payload

/-- The batch that is being filled, if it has a row. -/
def Batcher.filling (b : Batcher Row) : List (List Row) :=
  if b.currentRows = [] then [] else [b.currentRows]

/-- What holds while rows are added. -/
structure Batcher.Holds (rows : List Row) (b : Batcher Row) : Prop where
  /-- The batches so far and the one being filled cut the rows so far. -/
  cut : IsBatching (Fits json) rows (b.batches.map (·.rows) ++ b.filling)
  payload : ∀ batch ∈ b.batches, batch.payload = (Json.array (batch.rows.map json)).stringify
  batchBytes : ∀ batch ∈ b.batches, batch.bytes = byteLength batch.payload
  serialized : b.serializedRows = (b.currentRows.map json).map Json.stringify
  /-- The counted bytes are those of the payload. -/
  bytes : b.currentBytes = byteLength (payloadOf b.serializedRows)
  first : b.currentRows = [] → b.batches = []

namespace Batcher

variable {json} {rows : List Row} {row : Row} {b b' : Batcher Row}

theorem Holds.nil : Holds json [] ({} : Batcher Row) where
  cut := .nil
  payload := by simp
  batchBytes := by simp
  serialized := rfl
  bytes := rfl
  first := fun _ ↦ rfl

/-- What a row adds to the payload. -/
theorem Holds.bytes_concat (h : Holds json rows b) (row : Row) :
    byteLength (Json.array ((b.currentRows ++ [row]).map json)).stringify =
      b.currentBytes +
        (byteLength (json row).stringify + if 0 < b.currentRows.length then 1 else 0) := by
  have hlength : b.serializedRows.length = b.currentRows.length := by
    rw [h.serialized, List.length_map, List.length_map]
  rw [← payloadOf_map_stringify, h.bytes, ← hlength, ← byteLength_payloadOf_concat, h.serialized]
  simp

/-- A row that goes into the batch being filled. -/
theorem Holds.push_of_fits (h : Holds json rows b)
    (hfits : Fits json (b.currentRows ++ [row])) :
    Holds json (rows ++ [row]) (b.push row (json row).stringify) where
  cut := by
    have hfilling : (b.push row (json row).stringify).filling = [b.currentRows ++ [row]] := by
      simp [filling, push]
    have hcut := h.cut
    rw [filling] at hcut
    rw [hfilling]
    split_ifs at hcut with hempty
    · -- The first row of all.
      rw [hempty, List.nil_append] at hfits ⊢
      rw [List.append_nil] at hcut
      exact hcut.start hfits (by rw [h.first hempty]; simp)
    · exact hcut.extend hfits
  payload := h.payload
  batchBytes := h.batchBytes
  serialized := by simp [push, h.serialized]
  bytes := by
    have hlength : b.serializedRows.length = b.currentRows.length := by
      rw [h.serialized, List.length_map, List.length_map]
    have hcomma : 1 < (b.currentRows ++ [row]).length ↔ 0 < b.currentRows.length := by simp
    change b.currentBytes + (byteLength (json row).stringify +
      if 1 < (b.currentRows ++ [row]).length then 1 else 0) = _
    rw [push, byteLength_payloadOf_concat, h.bytes, hlength]
    simp only [hcomma]
  first := fun hempty ↦ by simp [push] at hempty

/-- The batch being filled is closed, and all rows so far are in batches. -/
theorem Holds.flush (h : Holds json rows b) : Batched json rows b.flush.batches := by
  rw [Batcher.flush]
  have hcut := h.cut
  rw [filling] at hcut
  split_ifs at hcut ⊢ with hempty
  · exact ⟨by simpa using hcut, h.payload, h.batchBytes⟩
  · refine ⟨by simpa using hcut, fun batch hbatch ↦ ?_, fun batch hbatch ↦ ?_⟩
    · rcases List.mem_append.1 hbatch with hbatch | hbatch
      · exact h.payload batch hbatch
      · rw [List.mem_singleton.1 hbatch, ← payloadOf_map_stringify, ← h.serialized]
    · rcases List.mem_append.1 hbatch with hbatch | hbatch
      · exact h.batchBytes batch hbatch
      · rw [List.mem_singleton.1 hbatch]

/-- A row that starts a new batch. -/
theorem Holds.push_of_flush (h : Holds json rows b) (hne : b.currentRows ≠ [])
    (hfits : Fits json [row]) (hfull : ¬Fits json (b.currentRows ++ [row])) :
    Holds json (rows ++ [row]) (b.flush.push row (json row).stringify) := by
  have hflush := h.flush
  have hclosed : b.flush = { batches := b.flush.batches } := by
    rw [Batcher.flush, if_neg hne]
  have hlast : (b.flush.batches.map (·.rows)).getLast? = some b.currentRows := by
    rw [Batcher.flush, if_neg hne]
    simp
  rw [hclosed]
  refine ⟨?_, hflush.payload, hflush.bytes, rfl, ?_, fun hempty ↦ by simp [push] at hempty⟩
  · have hstart := hflush.cut.start hfits (by rw [hlast]; rintro _ ⟨⟩; exact hfull)
    simpa [filling, push] using hstart
  · change 2 + (byteLength (json row).stringify + 0) = byteLength (payloadOf [(json row).stringify])
    rw [byteLength_payloadOf]
    simp

theorem Holds.fits_concat_iff (h : Holds json rows b) (row : Row) :
    Fits json (b.currentRows ++ [row]) ↔ ¬(evidenceBatchSize ≤ b.currentRows.length ∨
      evidenceBatchMaxBytes < b.currentBytes +
        (byteLength (json row).stringify + if 0 < b.currentRows.length then 1 else 0)) := by
  rw [Fits, h.bytes_concat, List.length_append, List.length_singleton, not_or, not_le, not_lt,
    Nat.succ_le_iff]

theorem fits_singleton_iff (row : Row) : Fits json [row] ↔
    ¬evidenceBatchMaxBytes < byteLength (json row).stringify + 2 := by
  have hsize : ¬evidenceBatchSize ≤ 0 := by decide
  have hnil : Holds json [] ({} : Batcher Row) := .nil
  have hiff := hnil.fits_concat_iff row
  rw [List.nil_append] at hiff
  rw [hiff]
  simp [hsize, Nat.add_comm 2]

/-- **A row that is added keeps the invariant.** -/
theorem Holds.add (h : Holds json rows b) (hadd : b.add json row = .ok b') :
    Holds json (rows ++ [row]) b' := by
  have hlarge : ¬evidenceBatchMaxBytes < byteLength (json row).stringify + 2 := by
    intro hlarge
    rw [Batcher.add, if_pos hlarge] at hadd
    cases hadd
  have hsingle : Fits json [row] := (fits_singleton_iff row).2 hlarge
  rw [Batcher.add, if_neg hlarge] at hadd
  obtain rfl := Except.ok.inj hadd
  by_cases hfits : Fits json (b.currentRows ++ [row])
  · rw [if_neg ((h.fits_concat_iff row).1 hfits)]
    exact h.push_of_fits hfits
  · -- The batch is full, so it has a row: a single one fits.
    have hne : b.currentRows ≠ [] := by
      intro hempty
      rw [hempty] at hfits
      exact hfits hsingle
    rw [if_pos (not_not.1 fun hfull ↦ hfits ((h.fits_concat_iff row).2 hfull))]
    exact h.push_of_flush hne hsingle hfits

theorem add_eq_error {message : String} (h : b.add json row = .error message) :
    TooLarge json row ∧ message = rowTooLarge (byteLength (json row).stringify) := by
  rw [Batcher.add] at h
  by_cases hlarge : evidenceBatchMaxBytes < byteLength (json row).stringify + 2
  · rw [if_pos hlarge] at h
    refine ⟨?_, (Except.error.inj h).symm⟩
    have hmax : evidenceBatchMaxBytes = 4000000 := rfl
    rw [TooLarge]
    omega
  · rw [if_neg hlarge] at h
    cases h

/-- The whole loop: every row is added, or one of them is too large. -/
theorem Holds.foldlM (h : Holds json rows b) (more : List Row) :
    match more.foldlM (Batcher.add json) b with
    | .ok b' => Holds json (rows ++ more) b'
    | .error message => ∃ row ∈ more, TooLarge json row ∧
        message = rowTooLarge (byteLength (json row).stringify) := by
  induction more generalizing rows b with
  | nil =>
    change Holds json (rows ++ []) b
    rwa [List.append_nil]
  | cons row more ih =>
    rw [List.foldlM_cons]
    rcases hadd : b.add json row with message | b'
    · exact ⟨row, List.mem_cons_self, add_eq_error hadd⟩
    · have hrest := ih (h.add hadd)
      have hbind : (Except.ok b' >>= fun b ↦ more.foldlM (Batcher.add json) b) =
          more.foldlM (Batcher.add json) b' := rfl
      rw [hbind]
      rcases hfold : more.foldlM (Batcher.add json) b' with message | b''
      · rw [hfold] at hrest
        obtain ⟨row', hrow', hlarge⟩ := hrest
        exact ⟨row', List.mem_cons_of_mem row hrow', hlarge⟩
      · rw [hfold] at hrest
        simpa using hrest

end Batcher

/-- **Batching loses nothing and respects its limits**: it fails only for a row that is too large
for a batch, and otherwise cuts the rows into batches within both limits, each as long as it can
be. -/
theorem evidenceBatches_batched (rows : List Row) :
    match evidenceBatches json rows with
    | .ok batches => Batched json rows batches
    | .error message => ∃ row ∈ rows, TooLarge json row ∧
        message = rowTooLarge (byteLength (json row).stringify) := by
  have hnil : Batcher.Holds json [] ({} : Batcher Row) := .nil
  have h := hnil.foldlM rows
  rw [evidenceBatches]
  rcases hfold : rows.foldlM (Batcher.add json) {} with message | b
  · rw [hfold] at h
    exact h
  · rw [hfold, List.nil_append] at h
    exact h.flush

end Batches

end Evidence

end AlpacaTrading
