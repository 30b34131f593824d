/-
# What each statement does

One lemma for each statement of `Storage.Database`, saying everything it can do to a row or to
a table.  Later proofs cite these and do not look inside the statements again.

* Inserts append (`insertDelivery_eq_some_iff`, `insertDeliveries_spec`,
  `storeWithDeliveries_spec`).
* An `UPDATE` of deliveries leaves a row alone or finds it in the state its `WHERE` clause asks
  for (`claim_cases`, `reclaimExpired_cases`, `mark_cases`).
-/
import Hookbox.Storage.Database

namespace Hookbox

namespace Database

/-- A limit that is large enough cuts nothing off. -/
theorem paginate_all {α : Type} {limit : Int} {rows : List α} (h : rows.length ≤ limit) :
    paginate limit 0 rows = .ok rows := by
  have hpos : ¬ limit < 0 := by omega
  have htake : rows.take limit.toNat = rows := List.take_of_length_le (by omega)
  rw [paginate, if_neg hpos, if_neg (by simp)]
  show Except.ok ((rows.drop 0).take limit.toNat) = _
  rw [List.drop_zero, htake]

/-- A receipt that was read is a row that decodes. -/
theorem get_eq_ok_some_iff {db : Database} {id : ReceiptId} {receipt : WebhookReceipt} :
    db.get id = .ok (some receipt) ↔
      ∃ row, db.receipts.get? id = some row ∧ receiptFromRow row = .ok receipt := by
  unfold get
  cases db.receipts.get? id with
  | none => simp
  | some row =>
    cases hrow : receiptFromRow row with
    | error e => simp [hrow, Functor.map, Except.map]
    | ok receipt' => simp [hrow, Functor.map, Except.map]

/-- The receipt of the given id can be read. -/
def ReadableAt (db : Database) (id : ReceiptId) : Prop :=
  ∃ row ∈ db.receipts.rows, row.receiptId = id ∧ row.Readable

theorem loadClaimed_succeeds_iff {db : Database} {d : WebhookDelivery} :
    (∃ p, db.loadClaimed d = .ok p) ↔ db.ReadableAt d.receiptId := by
  unfold loadClaimed
  rw [Except.bind_succeeds_iff]
  constructor
  · rintro ⟨found, hget, p, hp⟩
    cases found with
    | none => exact absurd hp (by simp)
    | some receipt =>
      obtain ⟨row, hrow, hreceipt⟩ := get_eq_ok_some_iff.mp hget
      exact ⟨row, Table.mem_of_get? hrow, Table.key_of_get? hrow, readable_iff.mpr ⟨_, hreceipt⟩⟩
  · rintro ⟨row, hrow, hid, hread⟩
    obtain ⟨receipt, hreceipt⟩ := readable_iff.mp hread
    refine ⟨some receipt, get_eq_ok_some_iff.mpr ⟨row, ?_, hreceipt⟩, _, rfl⟩
    exact Table.get?_eq_some_iff.mpr ⟨hrow, hid⟩

/-- **What `retry_failed` does** when the count is in range: it sets the state of one receipt to one
of two. -/
theorem retryFailed_ok {db db' : Database} {id : ReceiptId} {m : Int32}
    (h : db.retryFailed id m = .ok db') :
    ∃ set, ∃ hset : ∀ r, (set r).content = r.content, db' = db.updateReceipts (.sql id set hset) ∧
      ∀ r, ∃ st : ProcessingState, (st = .emitFailed ∨ st = .deadLettered) ∧
        (set r).processingState = st.text := by
  unfold retryFailed at h
  split at h
  · exact absurd h (by simp)
  · rw [Except.ok.injEq] at h
    refine ⟨_, _, h.symm, fun r => ?_⟩
    by_cases hc : r.emitCount + 1 ≥ m
    · exact ⟨.deadLettered, Or.inr rfl, if_pos hc⟩
    · exact ⟨.emitFailed, Or.inl rfl, if_neg hc⟩

/-- What `reset_for_retry` does, as an `UPDATE`. -/
theorem resetForRetry_update {db db' : Database} {id : ReceiptId}
    (h : db.resetForRetry id = .ok db') : id ∈ db.receipts.keys ∧
      db' = db.updateReceipts (.sql id
        (fun r => { r with processingState := "emit_failed", emitCount := 0 }) fun _ => rfl) := by
  unfold resetForRetry at h
  split at h
  · rename_i hid
    rw [Except.ok.injEq] at h
    exact ⟨hid, h.symm⟩
  · exact absurd h (by simp)

/-- **What `reset_for_retry` does**: it sets two columns of one receipt, which must exist. -/
theorem resetForRetry_ok {db db' : Database} {id : ReceiptId} (h : db.resetForRetry id = .ok db') :
    id ∈ db.receipts.keys ∧ db'.deliveries = db.deliveries ∧ db'.receipts.keys = db.receipts.keys ∧
      db'.receipts.rows = db.receipts.rows.map fun r =>
        if r.receiptId = id then { r with processingState := "emit_failed", emitCount := 0 }
        else r := by
  obtain ⟨hid, rfl⟩ := resetForRetry_update h
  exact ⟨hid, rfl, Table.update_keys (ReceiptUpdate.run_receiptId _), rfl⟩

/-! ## 1. Inserts append -/

theorem insertDelivery_eq_some_iff {db db' : Database} {d : WebhookDelivery} :
    db.insertDelivery d = some db' ↔
      d.receiptId ∈ db.receipts.keys ∧ d.deliveryId ∉ db.deliveries.keys ∧
        db'.receipts = db.receipts ∧ db'.deliveries.rows = db.deliveries.rows ++ [d] := by
  unfold insertDelivery
  split
  · rename_i hfk
    split
    · rename_i h
      have hk : d.deliveryId ∈ db.deliveries.keys := by
        by_contra hk
        have := Table.insert?_isSome_iff.mpr hk
        simp [h] at this
      simp [hk]
    · rename_i t h
      obtain ⟨hk, ht⟩ := Table.insert?_eq_some_iff.mp h
      simp only [Option.some.injEq, hfk, hk, not_false_eq_true, true_and]
      constructor
      · rintro rfl; exact ⟨rfl, ht⟩
      · rintro ⟨hr, hd⟩
        exact ext hr.symm (Table.ext (by rw [ht, hd]))
  · rename_i hfk
    simp [hfk]

/-- **The fan-out loop appends one row for each name, or fails.** -/
theorem insertDeliveries_spec {receiptId : ReceiptId} {now : Timestamp} {names : List String} :
    ∀ {db db' : Database} {draw : Nat → DeliveryId},
      db.insertDeliveries receiptId now names draw = some db' →
      db'.receipts = db.receipts ∧
        db'.deliveries.rows = db.deliveries.rows ++ newDeliveries receiptId now names draw := by
  induction names with
  | nil =>
    intro db db' draw h
    rw [insertDeliveries, Option.some.injEq] at h
    subst h
    exact ⟨rfl, (List.append_nil _).symm⟩
  | cons name names ih =>
    intro db db' draw h
    rw [insertDeliveries, Option.bind_eq_some_iff] at h
    obtain ⟨db₁, h₁, h₂⟩ := h
    obtain ⟨-, -, hr₁, hd₁⟩ := insertDelivery_eq_some_iff.mp h₁
    obtain ⟨hr, hd⟩ := ih h₂
    refine ⟨hr.trans hr₁, ?_⟩
    rw [hd, hd₁, newDeliveries, List.append_assoc, List.singleton_append]

/-- Each row of the fan-out is a pending, mutable row of the receipt. -/
theorem mem_newDeliveries {receiptId : ReceiptId} {now : Timestamp} {names : List String} :
    ∀ {draw : Nat → DeliveryId} {d : WebhookDelivery},
      d ∈ newDeliveries receiptId now names draw →
      ∃ i, ∃ name ∈ names, d = newDelivery (draw i) receiptId name now := by
  induction names with
  | nil => intro draw d h; simp [newDeliveries] at h
  | cons name names ih =>
    intro draw d h
    rw [newDeliveries] at h
    rcases List.mem_cons.mp h with rfl | h
    · exact ⟨0, name, List.mem_cons_self, rfl⟩
    · obtain ⟨i, n, hn, hd⟩ := ih h
      exact ⟨i + 1, n, List.mem_cons_of_mem _ hn, hd⟩

/-- The names of the fan-out's rows are the emitter names, in order. -/
theorem newDeliveries_names (receiptId : ReceiptId) (now : Timestamp) (names : List String) :
    ∀ draw : Nat → DeliveryId,
      (newDeliveries receiptId now names draw).map (·.emitterName) = names := by
  induction names with
  | nil => intro draw; rfl
  | cons name names ih =>
    intro draw
    rw [newDeliveries, List.map_cons, ih]
    rfl

theorem insertReceipt_eq_ok_some_iff {db db' : Database} {r : ReceiptRow} :
    db.insertReceipt r = .ok (some db') ↔
      r.dedupeKey ∉ db.receipts.rows.map ReceiptRow.dedupeKey ∧
        r.receiptId ∉ db.receipts.keys ∧
        db'.receipts.rows = db.receipts.rows ++ [r] ∧ db'.deliveries = db.deliveries := by
  unfold insertReceipt
  split
  · rename_i hk
    simp [hk]
  · rename_i hk
    split
    · rename_i h
      have hid : r.receiptId ∈ db.receipts.keys := by
        by_contra hid
        have := Table.insert?_isSome_iff.mpr hid
        simp [h] at this
      simp [hid]
    · rename_i t h
      obtain ⟨hid, ht⟩ := Table.insert?_eq_some_iff.mp h
      simp only [Except.ok.injEq, Option.some.injEq, hk, hid, not_false_eq_true, true_and]
      constructor
      · rintro rfl; exact ⟨ht, rfl⟩
      · rintro ⟨hr, hd⟩
        exact ext (Table.ext (by rw [ht, hr])) hd.symm

theorem insertReceipt_eq_ok_none_iff {db : Database} {r : ReceiptRow} :
    db.insertReceipt r = .ok none ↔ r.dedupeKey ∈ db.receipts.rows.map ReceiptRow.dedupeKey := by
  unfold insertReceipt
  split
  · rename_i hk
    simp [hk]
  · rename_i hk
    split <;> simp [hk]

/-- **A committed `store_with_deliveries`** found the dedupe key and the receipt id unused, and
adds the receipt together with exactly one pending row for each name. -/
theorem storeWithDeliveries_spec {db db' : Database} {receipt : WebhookReceipt}
    {names : List String} {draw : Nat → DeliveryId} {now : Timestamp}
    (h : db.storeWithDeliveries receipt names draw now = .ok (some db')) :
    receipt.dedupeKey ∉ db.receipts.rows.map ReceiptRow.dedupeKey ∧
      receipt.receiptId ∉ db.receipts.keys ∧
      db'.receipts.rows = db.receipts.rows ++ [receipt.toRow] ∧
      db'.deliveries.rows
        = db.deliveries.rows ++ newDeliveries receipt.receiptId now names draw := by
  unfold storeWithDeliveries at h
  split at h
  · exact absurd h (by simp)
  · exact absurd h (by simp)
  · rename_i db₁ h₁
    split at h
    · exact absurd h (by simp)
    · rename_i db₂ h₂
      rw [Except.ok.injEq, Option.some.injEq] at h
      subst h
      obtain ⟨hk, hid, hr₁, hd₁⟩ := insertReceipt_eq_ok_some_iff.mp h₁
      obtain ⟨hr, hd⟩ := insertDeliveries_spec h₂
      exact ⟨hk, hid, by rw [hr, hr₁], by rw [hd, hd₁]⟩

/-- The branch that rolls back is taken exactly when the dedupe key is taken. -/
theorem storeWithDeliveries_conflict_iff {db : Database} {receipt : WebhookReceipt}
    {names : List String} {draw : Nat → DeliveryId} {now : Timestamp} :
    db.storeWithDeliveries receipt names draw now = .ok none ↔
      receipt.dedupeKey ∈ db.receipts.rows.map ReceiptRow.dedupeKey := by
  have hrow : receipt.dedupeKey = receipt.toRow.dedupeKey := rfl
  rw [hrow, ← insertReceipt_eq_ok_none_iff]
  unfold storeWithDeliveries
  cases h : db.insertReceipt receipt.toRow with
  | error e => simp
  | ok o =>
    cases o with
    | none => simp
    | some db₁ =>
      simp only [reduceCtorEq, Except.ok.injEq]
      split <;> simp

/-- Every row `insert_replay` or `insert_replays` adds is new, pending and mutable. -/
theorem mem_of_append_newDeliveries {db db' : Database} {receiptId : ReceiptId}
    {now : Timestamp} {names : List String} {draw : Nat → DeliveryId}
    (h : db'.deliveries.rows = db.deliveries.rows ++ newDeliveries receiptId now names draw)
    {d : WebhookDelivery} (hd : d ∈ db'.deliveries.rows) :
    d ∈ db.deliveries.rows ∨ ∃ i, ∃ name ∈ names, d = newDelivery (draw i) receiptId name now := by
  rw [h] at hd
  rcases List.mem_append.mp hd with hd | hd
  · exact Or.inl hd
  · exact Or.inr (mem_newDeliveries hd)

/-! ## 2. The claim -/

theorem claim_run (picked : List DeliveryId) (now : Timestamp) (d : WebhookDelivery) :
    (DeliveryUpdate.claim picked now).run d
      = if d.deliveryId ∈ picked then { d with state := .inFlight, lastAttemptAt := some now }
        else d := rfl

theorem mem_candidates {db : Database} {e : String} {now : Timestamp} {locked : List DeliveryId}
    {d : WebhookDelivery} :
    d ∈ db.candidates e now locked ↔
      d ∈ db.deliveries.rows ∧ Eligible e now d ∧ d.deliveryId ∉ locked := by
  simp only [candidates, List.mem_filter, decide_eq_true_eq]

/-- A row whose id was picked is eligible: the primary key ties the id to one row. -/
theorem ClaimSelect.eligible {db : Database} {e : String} {n : Nat} {now : Timestamp}
    {locked picked : List DeliveryId} (h : db.ClaimSelect e n now locked picked)
    {d : WebhookDelivery} (hd : d ∈ db.deliveries.rows) (hp : d.deliveryId ∈ picked) :
    Eligible e now d := by
  obtain ⟨d', hd', hid⟩ := List.mem_map.mp (h.2.1 _ hp)
  obtain ⟨hm, hel, -⟩ := mem_candidates.mp hd'
  rwa [← Table.eq_of_key_eq hm hd hid]

/-- A picked id is the id of a row. -/
theorem ClaimSelect.mem_keys {db : Database} {e : String} {n : Nat} {now : Timestamp}
    {locked picked : List DeliveryId} (h : db.ClaimSelect e n now locked picked)
    {id : DeliveryId} (hp : id ∈ picked) :
    ∃ d ∈ db.deliveries.rows, d.deliveryId = id ∧ Eligible e now d := by
  obtain ⟨d, hd, hid⟩ := List.mem_map.mp (h.2.1 _ hp)
  obtain ⟨hm, hel, -⟩ := mem_candidates.mp hd
  exact ⟨d, hm, hid, hel⟩

/-- **What the claim does to a row**: nothing, or an eligible row goes in flight. -/
theorem ClaimSelect.claim_cases {db : Database} {e : String} {n : Nat} {now : Timestamp}
    {locked picked : List DeliveryId} (h : db.ClaimSelect e n now locked picked)
    {d : WebhookDelivery} (hd : d ∈ db.deliveries.rows) :
    (d.deliveryId ∉ picked ∧ (DeliveryUpdate.claim picked now).run d = d) ∨
      (d.deliveryId ∈ picked ∧ Eligible e now d ∧
        (DeliveryUpdate.claim picked now).run d
          = { d with state := .inFlight, lastAttemptAt := some now }) := by
  rw [claim_run]
  by_cases hp : d.deliveryId ∈ picked
  · exact Or.inr ⟨hp, h.eligible hd hp, if_pos hp⟩
  · exact Or.inl ⟨hp, if_neg hp⟩

/-- A row that the claim returned is a picked row, in flight since `now`. -/
theorem mem_claimedRows {db : Database} {picked : List DeliveryId} {now : Timestamp}
    {d : WebhookDelivery} :
    d ∈ db.claimedRows picked now ↔
      ∃ d₀ ∈ db.deliveries.rows, d₀.deliveryId ∈ picked ∧
        d = { d₀ with state := .inFlight, lastAttemptAt := some now } := by
  simp only [claimedRows, List.mem_filterMap, get?_updateDeliveries, Option.map_eq_some_iff,
    Table.get?_eq_some_iff, claim_run]
  constructor
  · rintro ⟨id, hid, d₀, ⟨hd₀, rfl⟩, rfl⟩
    exact ⟨d₀, hd₀, hid, if_pos hid⟩
  · rintro ⟨d₀, hd₀, hid, rfl⟩
    exact ⟨d₀.deliveryId, hid, d₀, ⟨hd₀, rfl⟩, if_pos hid⟩

end Database

namespace DeliveryUpdate

/-! ## 3. Reclaiming and marking -/

theorem reclaimExpired_run (e : String) (lease : Duration) (now : Timestamp)
    (d : WebhookDelivery) :
    (reclaimExpired e lease now).run d
      = if Expired e lease now d then { d with
          state := .failed, lastError := some (reclaimedError d.lastError),
          nextAttemptAt := now }
        else d := rfl

/-- **What `reclaim_expired` does to a row**: nothing, or an expired row fails at once. -/
theorem reclaimExpired_cases (e : String) (lease : Duration) (now : Timestamp)
    (d : WebhookDelivery) :
    (¬ Expired e lease now d ∧ (reclaimExpired e lease now).run d = d) ∨
      (Expired e lease now d ∧
        (reclaimExpired e lease now).run d = { d with
          state := .failed, lastError := some (reclaimedError d.lastError),
          nextAttemptAt := now }) := by
  rw [reclaimExpired_run]
  by_cases h : Expired e lease now d
  · exact Or.inr ⟨h, if_pos h⟩
  · exact Or.inl ⟨h, if_neg h⟩

/-- The three `mark_*` statements. -/
inductive Mark where
  | emitted (now : Timestamp)
  | failed (attemptCount : Int32) (nextAttemptAt : Timestamp) (lastError : String)
  | deadLettered (lastError : String)

/-- The `UPDATE` of a `mark_*` statement. -/
def mark (id : DeliveryId) : Mark → DeliveryUpdate
  | .emitted now => markEmitted id now
  | .failed attemptCount nextAttemptAt lastError =>
    markFailed id attemptCount nextAttemptAt lastError
  | .deadLettered lastError => markDeadLettered id lastError

/-- The `SET` clause of a `mark_*` statement. -/
def Mark.set : Mark → WebhookDelivery → WebhookDelivery
  | .emitted now, d => { d with state := .emitted, emittedAt := some now, lastError := none }
  | .failed attemptCount nextAttemptAt lastError, d =>
    { d with
      state := .failed, attemptCount := attemptCount, nextAttemptAt := nextAttemptAt,
      lastError := some lastError }
  | .deadLettered lastError, d => { d with state := .deadLettered, lastError := some lastError }

/-- **What a `mark_*` does to a row**: nothing, unless the row has the id and is in flight. -/
theorem mark_run (id : DeliveryId) (m : Mark) (d : WebhookDelivery) :
    (mark id m).run d = if d.deliveryId = id ∧ d.state = .inFlight then m.set d else d := by
  cases m <;> rfl

theorem mark_cases (id : DeliveryId) (m : Mark) (d : WebhookDelivery) :
    (¬ (d.deliveryId = id ∧ d.state = .inFlight) ∧ (mark id m).run d = d) ∨
      (d.deliveryId = id ∧ d.state = .inFlight ∧ (mark id m).run d = m.set d) := by
  rw [mark_run]
  by_cases h : d.deliveryId = id ∧ d.state = .inFlight
  · exact Or.inr ⟨h.1, h.2, if_pos h⟩
  · exact Or.inl ⟨h, if_neg h⟩

/-- A mark that takes effect takes the row out of flight. -/
theorem Mark.set_state_ne (m : Mark) (d : WebhookDelivery) : (m.set d).state ≠ .inFlight := by
  cases m <;> simp [Mark.set]

end DeliveryUpdate

end Hookbox
