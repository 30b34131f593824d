/-
# Migration 0002

`hookbox-postgres/migrations/0002_create_webhook_deliveries.sql` creates `webhook_deliveries`
and backfills one immutable `legacy` row for every receipt, in one transaction.  Before it the
database is the receipts table alone (`Receipts`), with its primary key and its unique index.

The backfill maps the `processing_state` TEXT literal by literal, so a text that only
deserialises to a state falls into the `ELSE` branch; nothing below depends on which state the
row gets, only on its being immutable.
-/
import Hookbox.Storage.Statements

namespace Hookbox

/-- The database as migration 0001 leaves it, filled by older versions of the program. -/
structure Receipts where
  receipts : Table ReceiptId ReceiptRow ReceiptRow.receiptId
  dedupeIndex : (receipts.rows.map ReceiptRow.dedupeKey).Nodup

/-- `CASE processing_state WHEN .. END` of the backfill. -/
def backfillState (processingState : String) : DeliveryState :=
  if processingState = "emitted" then .emitted
  else if processingState = "processed" then .emitted
  else if processingState = "replayed" then .emitted
  else if processingState = "emit_failed" then .failed
  else if processingState = "dead_lettered" then .deadLettered
  else if processingState = "stored" then .failed
  else .emitted

/-- The row the backfill selects for a receipt.  `emit_count` is `NOT NULL`, so the
`COALESCE(emit_count, 0)` of the source is `emit_count`. -/
def backfillRow (deliveryId : DeliveryId) (r : ReceiptRow) : WebhookDelivery where
  deliveryId := deliveryId
  receiptId := r.receiptId
  emitterName := "legacy"
  state := backfillState r.processingState
  attemptCount := r.emitCount
  lastError := r.lastError
  lastAttemptAt := r.processedAt
  nextAttemptAt := r.receivedAt
  emittedAt :=
    if r.processingState = "emitted" ∨ r.processingState = "processed" ∨
        r.processingState = "replayed" then r.processedAt
    else none
  immutable := true
  createdAt := r.receivedAt

/-- The rows the backfill inserts, with the `gen_random_uuid()` of each. -/
def backfillRows : List ReceiptRow → (Nat → DeliveryId) → List WebhookDelivery
  | [], _ => []
  | r :: rs, draw => backfillRow (draw 0) r :: backfillRows rs fun i => draw (i + 1)

theorem mem_backfillRows {rs : List ReceiptRow} :
    ∀ {draw : Nat → DeliveryId} {d : WebhookDelivery}, d ∈ backfillRows rs draw →
      ∃ i, ∃ r ∈ rs, d = backfillRow (draw i) r := by
  induction rs with
  | nil => intro draw d h; simp [backfillRows] at h
  | cons r rs ih =>
    intro draw d h
    rw [backfillRows] at h
    rcases List.mem_cons.mp h with rfl | h
    · exact ⟨0, r, List.mem_cons_self, rfl⟩
    · obtain ⟨i, r', hr', hd⟩ := ih h
      exact ⟨i + 1, r', List.mem_cons_of_mem _ hr', hd⟩

/-- Migration 0002.  Two equal draws violate the primary key, and the transaction fails. -/
def migrate0002 (pre : Receipts) (draw : Nat → DeliveryId) : Option Database :=
  if h : ((backfillRows pre.receipts.rows draw).map (·.deliveryId)).Nodup then
    some
      { receipts := pre.receipts
        deliveries := ⟨backfillRows pre.receipts.rows draw, h⟩
        dedupeIndex := pre.dedupeIndex
        receiptFk := by
          intro d hd
          obtain ⟨i, r, hr, rfl⟩ := mem_backfillRows hd
          exact Table.key_mem_keys hr }
  else none

theorem migrate0002_spec {pre : Receipts} {draw : Nat → DeliveryId} {db : Database}
    (h : migrate0002 pre draw = some db) :
    db.receipts = pre.receipts ∧ db.deliveries.rows = backfillRows pre.receipts.rows draw := by
  unfold migrate0002 at h
  split at h
  · rw [Option.some.injEq] at h
    subst h
    exact ⟨rfl, rfl⟩
  · exact absurd h (by simp)

/-- **Everything the migration puts into `webhook_deliveries` is immutable.** -/
theorem migrate0002_immutable {pre : Receipts} {draw : Nat → DeliveryId} {db : Database}
    (h : migrate0002 pre draw = some db) {d : WebhookDelivery} (hd : d ∈ db.deliveries.rows) :
    d.immutable = true := by
  rw [(migrate0002_spec h).2] at hd
  obtain ⟨i, r, -, rfl⟩ := mem_backfillRows hd
  rfl

/-- **Each receipt gets exactly one row.** -/
theorem backfillRows_filter (rs : List ReceiptRow) (hnd : (rs.map (·.receiptId)).Nodup) :
    ∀ (draw : Nat → DeliveryId) {r : ReceiptRow}, r ∈ rs →
      ∃ i, (backfillRows rs draw).filter (fun d => d.receiptId = r.receiptId)
        = [backfillRow (draw i) r] := by
  induction rs with
  | nil => intro draw r hr; simp at hr
  | cons a rs ih =>
    intro draw r hr
    rw [List.map_cons, List.nodup_cons] at hnd
    have htail : ∀ d ∈ backfillRows rs (fun i => draw (i + 1)), d.receiptId ≠ a.receiptId := by
      intro d hd heq
      obtain ⟨i, r', hr', rfl⟩ := mem_backfillRows hd
      exact hnd.1 (heq ▸ List.mem_map_of_mem hr')
    rw [backfillRows]
    rcases List.mem_cons.mp hr with rfl | hr
    · refine ⟨0, ?_⟩
      rw [List.filter_cons_of_pos (by simp [backfillRow])]
      rw [List.filter_eq_nil_iff.mpr (fun d hd => by simpa using htail d hd)]
    · obtain ⟨i, hi⟩ := ih hnd.2 (fun i => draw (i + 1)) hr
      refine ⟨i + 1, ?_⟩
      have hne : ¬ a.receiptId = r.receiptId := by
        intro heq
        exact hnd.1 (heq ▸ List.mem_map_of_mem hr)
      rw [List.filter_cons_of_neg (by simp [backfillRow, hne]), hi]

/-- The fresh server is the migrated server with no old receipts. -/
theorem migrate0002_empty (draw : Nat → DeliveryId) :
    migrate0002 ⟨.empty, List.nodup_nil⟩ draw = some .empty := rfl

end Hookbox
