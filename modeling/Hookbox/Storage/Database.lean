/-
# The database and its statements

`webhook_receipts` and `webhook_deliveries` (`hookbox-postgres/migrations`), and the SQL
statements of `hookbox-postgres/src/storage.rs`, each one atomic.

The constraints PostgreSQL enforces are fields of `Database`: the two primary keys, the unique
index on `dedupe_key` and the foreign key from deliveries to receipts.  An `INSERT` that would
break one fails.  An `UPDATE` of deliveries is a `DeliveryUpdate`, a row function that comes
with the proof that it sets none of the five identity columns; the corresponding fact about
receipts is in `ReceiptUpdate`.

`now` is the database clock (`now()`), and every `gen_random_uuid()` is an argument: a statement
that draws several takes a stream of draws.
-/
import Hookbox.Lib.Table
import Hookbox.Storage.Rows

namespace Hookbox

/-! ## 1. Tables, constraints and updates -/

/-- The columns of a delivery that no `UPDATE` sets: the row with the others blanked. -/
def WebhookDelivery.identity (d : WebhookDelivery) : WebhookDelivery :=
  { d with
    state := .pending, attemptCount := 0, lastError := none, lastAttemptAt := none,
    nextAttemptAt := 0, emittedAt := none }

/-- The two tables, under the constraints of the schema. -/
structure Database where
  receipts : Table ReceiptId ReceiptRow ReceiptRow.receiptId
  deliveries : Table DeliveryId WebhookDelivery WebhookDelivery.deliveryId
  /-- `idx_webhook_receipts_dedupe_key`. -/
  dedupeIndex : (receipts.rows.map ReceiptRow.dedupeKey).Nodup
  /-- `receipt_id UUID NOT NULL REFERENCES webhook_receipts(receipt_id)`. -/
  receiptFk : ∀ d ∈ deliveries.rows, d.receiptId ∈ receipts.keys

/-- The row function of an `UPDATE webhook_deliveries`. -/
@[ext]
structure DeliveryUpdate where
  run : WebhookDelivery → WebhookDelivery
  identity_run : ∀ d, (run d).identity = d.identity

/-- The row function of an `UPDATE webhook_receipts`. -/
@[ext]
structure ReceiptUpdate where
  run : ReceiptRow → ReceiptRow
  content_run : ∀ r, (run r).content = r.content

/-- `UPDATE webhook_deliveries SET set WHERE p`. -/
def DeliveryUpdate.sql (p : WebhookDelivery → Prop) [DecidablePred p]
    (set : WebhookDelivery → WebhookDelivery) (h : ∀ d, (set d).identity = d.identity) :
    DeliveryUpdate where
  run := Table.onRows p set
  identity_run := by
    intro d
    unfold Table.onRows
    split
    · exact h d
    · rfl

/-- `UPDATE webhook_receipts SET set WHERE receipt_id = id`. -/
def ReceiptUpdate.sql (id : ReceiptId) (set : ReceiptRow → ReceiptRow)
    (h : ∀ r, (set r).content = r.content) : ReceiptUpdate where
  run := Table.onRows (fun r => r.receiptId = id) set
  content_run := by
    intro r
    unfold Table.onRows
    split
    · exact h r
    · rfl

namespace DeliveryUpdate

variable (u : DeliveryUpdate) (d : WebhookDelivery)

@[simp] theorem run_deliveryId : (u.run d).deliveryId = d.deliveryId :=
  congrArg (·.deliveryId) (u.identity_run d)

@[simp] theorem run_receiptId : (u.run d).receiptId = d.receiptId :=
  congrArg (·.receiptId) (u.identity_run d)

@[simp] theorem run_emitterName : (u.run d).emitterName = d.emitterName :=
  congrArg (·.emitterName) (u.identity_run d)

@[simp] theorem run_immutable : (u.run d).immutable = d.immutable :=
  congrArg (·.immutable) (u.identity_run d)

@[simp] theorem run_createdAt : (u.run d).createdAt = d.createdAt :=
  congrArg (·.createdAt) (u.identity_run d)

end DeliveryUpdate

namespace ReceiptUpdate

variable (u : ReceiptUpdate) (r : ReceiptRow)

@[simp] theorem run_receiptId : (u.run r).receiptId = r.receiptId :=
  congrArg (·.receiptId) (u.content_run r)

@[simp] theorem run_dedupeKey : (u.run r).dedupeKey = r.dedupeKey :=
  congrArg (·.dedupeKey) (u.content_run r)

end ReceiptUpdate

namespace Database

theorem ext {db db' : Database} (hr : db.receipts = db'.receipts)
    (hd : db.deliveries = db'.deliveries) : db = db' := by
  cases db; cases db'
  simp only at hr hd
  subst hr; subst hd
  rfl

/-- The database the migrations leave on a fresh server. -/
def empty : Database where
  receipts := .empty
  deliveries := .empty
  dedupeIndex := List.nodup_nil
  receiptFk := by intro d hd; simp at hd

/-- Run an `UPDATE webhook_deliveries`. -/
def updateDeliveries (db : Database) (u : DeliveryUpdate) : Database where
  receipts := db.receipts
  deliveries := db.deliveries.update u.run u.run_deliveryId
  dedupeIndex := db.dedupeIndex
  receiptFk := by
    intro d hd
    obtain ⟨d₀, hd₀, rfl⟩ := Table.mem_update.mp hd
    rw [u.run_receiptId]
    exact db.receiptFk d₀ hd₀

/-- Run an `UPDATE webhook_receipts`. -/
def updateReceipts (db : Database) (u : ReceiptUpdate) : Database where
  receipts := db.receipts.update u.run u.run_receiptId
  deliveries := db.deliveries
  dedupeIndex := by
    have h : (db.receipts.rows.map u.run).map ReceiptRow.dedupeKey
        = db.receipts.rows.map ReceiptRow.dedupeKey := by
      rw [List.map_map]
      exact List.map_congr_left fun r _ => u.run_dedupeKey r
    rw [Table.update_rows, h]
    exact db.dedupeIndex
  receiptFk := by
    intro d hd
    rw [Table.update_keys]
    exact db.receiptFk d hd

section

variable (db : Database) (u v : DeliveryUpdate)

@[simp] theorem updateDeliveries_receipts : (db.updateDeliveries u).receipts = db.receipts := rfl

@[simp] theorem updateDeliveries_rows :
    (db.updateDeliveries u).deliveries.rows = db.deliveries.rows.map u.run := rfl

@[simp] theorem updateDeliveries_keys :
    (db.updateDeliveries u).deliveries.keys = db.deliveries.keys :=
  Table.update_keys u.run_deliveryId

@[simp] theorem get?_updateDeliveries (id : DeliveryId) :
    (db.updateDeliveries u).deliveries.get? id = (db.deliveries.get? id).map u.run :=
  Table.get?_update u.run_deliveryId id

@[simp] theorem get?_updateReceipts (w : ReceiptUpdate) (id : ReceiptId) :
    (db.updateReceipts w).receipts.get? id = (db.receipts.get? id).map w.run :=
  Table.get?_update w.run_receiptId id

@[simp] theorem updateReceipts_deliveries (w : ReceiptUpdate) :
    (db.updateReceipts w).deliveries = db.deliveries := rfl

@[simp] theorem updateReceipts_rows (w : ReceiptUpdate) :
    (db.updateReceipts w).receipts.rows = db.receipts.rows.map w.run := rfl

variable {db u v}

theorem updateDeliveries_eq_self (h : ∀ d ∈ db.deliveries.rows, u.run d = d) :
    db.updateDeliveries u = db :=
  ext rfl (Table.update_eq_self u.run_deliveryId h)

theorem updateDeliveries_comm (h : ∀ d ∈ db.deliveries.rows, u.run (v.run d) = v.run (u.run d)) :
    (db.updateDeliveries v).updateDeliveries u = (db.updateDeliveries u).updateDeliveries v :=
  ext rfl (Table.update_comm u.run_deliveryId v.run_deliveryId h)

end

/-- `LIMIT limit OFFSET offset`. -/
def paginate {α : Type} (limit offset : Int) (rows : List α) : Except StorageError (List α) :=
  if limit < 0 then .error (.internal "LIMIT must not be negative")
  else if offset < 0 then .error (.internal "OFFSET must not be negative")
  else .ok ((rows.drop offset.toNat).take limit.toNat)

/-! ## 2. Receipts: reading and inserting -/

/-- `Storage::get`. -/
def get (db : Database) (id : ReceiptId) : Except StorageError (Option WebhookReceipt) :=
  match db.receipts.get? id with
  | none => .ok none
  | some row => some <$> receiptFromRow row

/-- `SELECT receipt_id FROM webhook_receipts WHERE dedupe_key = $1`. -/
def receiptByDedupeKey (db : Database) (key : String) : Option ReceiptRow :=
  db.receipts.rows.find? fun r => r.dedupeKey = key

/-- `INSERT INTO webhook_receipts .. ON CONFLICT (dedupe_key) DO NOTHING RETURNING receipt_id`.
The arbiter index is looked at first; a taken `receipt_id` under a new key is an error. -/
def insertReceipt (db : Database) (r : ReceiptRow) : Except StorageError (Option Database) :=
  if hk : r.dedupeKey ∈ db.receipts.rows.map ReceiptRow.dedupeKey then .ok none
  else
    match h : db.receipts.insert? r with
    | none => .error (.internal "duplicate key value violates unique constraint")
    | some t => .ok <| some
        { receipts := t
          deliveries := db.deliveries
          dedupeIndex := by
            rw [(Table.insert?_eq_some_iff.mp h).2, List.map_append, List.nodup_append]
            refine ⟨db.dedupeIndex, List.nodup_singleton _, ?_⟩
            intro a ha b hb hab
            rw [List.map_singleton, List.mem_singleton] at hb
            exact hk (hb ▸ hab ▸ ha)
          receiptFk := by
            intro d hd
            rw [Table.keys, (Table.insert?_eq_some_iff.mp h).2, List.map_append]
            exact List.mem_append_left _ (db.receiptFk d hd) }

/-! ## 3. Deliveries: inserting -/

/-- The row of `INSERT INTO webhook_deliveries (delivery_id, receipt_id, emitter_name, state,
next_attempt_at [, created_at]) VALUES (.., 'pending', now() [, now()])`, with the defaults of
the schema. -/
def newDelivery (deliveryId : DeliveryId) (receiptId : ReceiptId) (emitterName : String)
    (now : Timestamp) : WebhookDelivery where
  deliveryId := deliveryId
  receiptId := receiptId
  emitterName := emitterName
  state := .pending
  attemptCount := 0
  lastError := none
  lastAttemptAt := none
  nextAttemptAt := now
  emittedAt := none
  immutable := false
  createdAt := now

/-- `INSERT INTO webhook_deliveries`: `none` when a constraint refuses the row. -/
def insertDelivery (db : Database) (d : WebhookDelivery) : Option Database :=
  if hfk : d.receiptId ∈ db.receipts.keys then
    match h : db.deliveries.insert? d with
    | none => none
    | some t => some
        { receipts := db.receipts
          deliveries := t
          dedupeIndex := db.dedupeIndex
          receiptFk := by
            intro d' hd'
            rw [(Table.insert?_eq_some_iff.mp h).2] at hd'
            rcases List.mem_append.mp hd' with hd' | hd'
            · exact db.receiptFk d' hd'
            · rw [List.mem_singleton.mp hd']; exact hfk }
  else none

/-- The loop `for name in emitter_names { INSERT INTO webhook_deliveries .. }`. -/
def insertDeliveries (db : Database) (receiptId : ReceiptId) (now : Timestamp) :
    List String → (Nat → DeliveryId) → Option Database
  | [], _ => some db
  | name :: names, draw =>
    (db.insertDelivery (newDelivery (draw 0) receiptId name now)).bind fun db' =>
      db'.insertDeliveries receiptId now names fun i => draw (i + 1)

/-- The rows that loop inserts. -/
def newDeliveries (receiptId : ReceiptId) (now : Timestamp) :
    List String → (Nat → DeliveryId) → List WebhookDelivery
  | [], _ => []
  | name :: names, draw =>
    newDelivery (draw 0) receiptId name now :: newDeliveries receiptId now names fun i => draw (i + 1)

/-- `PostgresStorage::store_with_deliveries`, up to its commit.  `ok none` is the branch that
rolls back because the `dedupe_key` is taken; nothing is committed on `error`. -/
def storeWithDeliveries (db : Database) (receipt : WebhookReceipt) (emitterNames : List String)
    (draw : Nat → DeliveryId) (now : Timestamp) : Except StorageError (Option Database) :=
  match db.insertReceipt receipt.toRow with
  | .error e => .error e
  | .ok none => .ok none
  | .ok (some db₁) =>
    match db₁.insertDeliveries receipt.receiptId now emitterNames draw with
    | none => .error (.internal "duplicate key value violates unique constraint")
    | some db₂ => .ok (some db₂)

/-- `DeliveryStorage::insert_replay`. -/
def insertReplay (db : Database) (receiptId : ReceiptId) (emitterName : String)
    (deliveryId : DeliveryId) (now : Timestamp) : Option Database :=
  db.insertDelivery (newDelivery deliveryId receiptId emitterName now)

/-- `DeliveryStorage::insert_replays`: one transaction. -/
def insertReplays (db : Database) (receiptId : ReceiptId) (emitterNames : List String)
    (draw : Nat → DeliveryId) (now : Timestamp) : Option Database :=
  db.insertDeliveries receiptId now emitterNames draw

/-! ## 4. Deliveries: claiming and reclaiming -/

/-- The `WHERE` clause of `claim_pending` and of `count_pending`. -/
def Eligible (emitterName : String) (now : Timestamp) (d : WebhookDelivery) : Prop :=
  d.emitterName = emitterName ∧ (d.state = .pending ∨ d.state = .failed) ∧
    d.nextAttemptAt ≤ now ∧ d.immutable = false

instance (emitterName : String) (now : Timestamp) :
    DecidablePred (Eligible emitterName now) := fun d => by
  unfold Eligible; infer_instance

/-- The rows the `SELECT` of `claim_pending` may lock: eligible, and not locked by another
statement (`FOR UPDATE SKIP LOCKED`). -/
def candidates (db : Database) (emitterName : String) (now : Timestamp)
    (locked : List DeliveryId) : List WebhookDelivery :=
  db.deliveries.rows.filter fun d => Eligible emitterName now d ∧ d.deliveryId ∉ locked

/-- `picked` is a possible result of the `SELECT .. ORDER BY next_attempt_at LIMIT n FOR UPDATE
SKIP LOCKED` of `claim_pending`.  Rows with equal `next_attempt_at` may come in any order, so the
result is a choice. -/
def ClaimSelect (db : Database) (emitterName : String) (n : Nat) (now : Timestamp)
    (locked picked : List DeliveryId) : Prop :=
  picked.Nodup ∧
    (∀ id ∈ picked, id ∈ (db.candidates emitterName now locked).map (·.deliveryId)) ∧
    picked.length = min n (db.candidates emitterName now locked).length ∧
    ∀ d ∈ db.candidates emitterName now locked, d.deliveryId ∈ picked →
      ∀ d' ∈ db.candidates emitterName now locked, d'.deliveryId ∉ picked →
        d.nextAttemptAt ≤ d'.nextAttemptAt

instance (db : Database) (emitterName : String) (n : Nat) (now : Timestamp)
    (locked picked : List DeliveryId) :
    Decidable (db.ClaimSelect emitterName n now locked picked) := by
  unfold ClaimSelect; infer_instance

end Database

namespace DeliveryUpdate

/-- `UPDATE .. SET state = 'in_flight', last_attempt_at = now() FROM claimed` of
`claim_pending`. -/
def claim (picked : List DeliveryId) (now : Timestamp) : DeliveryUpdate :=
  .sql (fun d => d.deliveryId ∈ picked)
    (fun d => { d with state := .inFlight, lastAttemptAt := some now }) fun _ => rfl

/-- `last_attempt_at < $2`, which is not true of a `NULL`. -/
def Before (t : Option Timestamp) (u : Timestamp) : Prop :=
  match t with
  | none => False
  | some t => t < u

instance (t : Option Timestamp) (u : Timestamp) : Decidable (Before t u) := by
  unfold Before; cases t <;> infer_instance

/-- The `WHERE` clause of `reclaim_expired`. -/
def Expired (emitterName : String) (leaseDuration : Duration) (now : Timestamp)
    (d : WebhookDelivery) : Prop :=
  d.emitterName = emitterName ∧ d.state = .inFlight ∧
    Before d.lastAttemptAt (now - leaseDuration) ∧ d.immutable = false

instance (emitterName : String) (leaseDuration : Duration) (now : Timestamp) :
    DecidablePred (Expired emitterName leaseDuration now) := fun d => by
  unfold Expired; infer_instance

/-- `COALESCE(last_error || ' ', '') || '[reclaimed: lease expired]'`. -/
def reclaimedError (lastError : Option String) : String :=
  (match lastError with | some e => e ++ " " | none => "") ++ "[reclaimed: lease expired]"

/-- `DeliveryStorage::reclaim_expired`. -/
def reclaimExpired (emitterName : String) (leaseDuration : Duration) (now : Timestamp) :
    DeliveryUpdate :=
  .sql (Expired emitterName leaseDuration now)
    (fun d => { d with
      state := .failed, lastError := some (reclaimedError d.lastError), nextAttemptAt := now })
    fun _ => rfl

/-- `DeliveryStorage::mark_emitted`. -/
def markEmitted (id : DeliveryId) (now : Timestamp) : DeliveryUpdate :=
  .sql (fun d => d.deliveryId = id ∧ d.state = .inFlight)
    (fun d => { d with state := .emitted, emittedAt := some now, lastError := none }) fun _ => rfl

/-- `DeliveryStorage::mark_failed`. -/
def markFailed (id : DeliveryId) (attemptCount : Int32) (nextAttemptAt : Timestamp)
    (lastError : String) : DeliveryUpdate :=
  .sql (fun d => d.deliveryId = id ∧ d.state = .inFlight)
    (fun d => { d with
      state := .failed, attemptCount := attemptCount, nextAttemptAt := nextAttemptAt,
      lastError := some lastError })
    fun _ => rfl

/-- `DeliveryStorage::mark_dead_lettered`.  It does not set `attempt_count`. -/
def markDeadLettered (id : DeliveryId) (lastError : String) : DeliveryUpdate :=
  .sql (fun d => d.deliveryId = id ∧ d.state = .inFlight)
    (fun d => { d with state := .deadLettered, lastError := some lastError }) fun _ => rfl

end DeliveryUpdate

namespace Database

/-- The part of `claim_pending` after its `UPDATE`, for one returned row: load the receipt. -/
def loadClaimed (db : Database) (d : WebhookDelivery) :
    Except StorageError (WebhookDelivery × WebhookReceipt) := do
  match ← db.get d.receiptId with
  | some receipt => return (d, receipt)
  | none => .error (.internal "delivery references missing receipt")

/-- The rows that the `UPDATE` of `claim_pending` returns. -/
def claimedRows (db : Database) (picked : List DeliveryId) (now : Timestamp) :
    List WebhookDelivery :=
  picked.filterMap (db.updateDeliveries (.claim picked now)).deliveries.get?

/-- `DeliveryStorage::claim_pending` run without interference: the `UPDATE`, then one
`SELECT` for each returned row.  The `UPDATE` is committed whatever the rest returns. -/
def claimPending (db : Database) (picked : List DeliveryId) (now : Timestamp) :
    Database × Except StorageError (List (WebhookDelivery × WebhookReceipt)) :=
  let db' := db.updateDeliveries (.claim picked now)
  (db', (db.claimedRows picked now).mapM db'.loadClaimed)

/-! ## 5. Receipts: updating -/

/-- `Storage::update_state`. -/
def updateState (db : Database) (id : ReceiptId) (state : ProcessingState)
    (error : Option String) : Database :=
  db.updateReceipts <| .sql id
    (fun r => { r with processingState := state.text, lastError := error }) fun _ => rfl

/-- `PostgresStorage::retry_failed`.  `emit_count + 1` is an `INTEGER` and fails on overflow. -/
def retryFailed (db : Database) (id : ReceiptId) (maxAttempts : Int32) :
    Except StorageError Database :=
  if ∃ r ∈ db.receipts.rows, r.receiptId = id ∧ r.emitCount = Int32.maxValue then
    .error (.internal "integer out of range")
  else .ok <| db.updateReceipts <| .sql id
    (fun r => { r with
      emitCount := r.emitCount + 1,
      processingState := if r.emitCount + 1 ≥ maxAttempts then "dead_lettered" else "emit_failed" })
    fun _ => rfl

/-- `PostgresStorage::reset_for_retry`. -/
def resetForRetry (db : Database) (id : ReceiptId) : Except StorageError Database :=
  if id ∈ db.receipts.keys then
    .ok <| db.updateReceipts <| .sql id
      (fun r => { r with processingState := "emit_failed", emitCount := 0 }) fun _ => rfl
  else .error (.internal ("no receipt found with id " ++ id.uuid.toString))

/-- A possible answer of `DeliveryStorage::get_deliveries_for_receipt`: the rows of the receipt,
`ORDER BY created_at ASC`.  Rows with equal `created_at` may come in any order. -/
def DeliveriesForReceipt (db : Database) (receiptId : ReceiptId)
    (deliveries : List WebhookDelivery) : Prop :=
  deliveries.Perm (db.deliveries.rows.filter fun d => d.receiptId = receiptId) ∧
    deliveries.Pairwise fun d d' => d.createdAt ≤ d'.createdAt

end Database

end Hookbox
