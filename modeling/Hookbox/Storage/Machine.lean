/-
# The storage as a state machine

Every operation of `PostgresStorage` that writes, as a label of a transition system over the
database.  A call that fails leaves no trace and is no step.  The `mark_*` calls come from
`dispatch_one`, whose ids were all returned by `claim_pending`, possibly long ago: the machine
remembers every id ever returned and allows a mark for those only.

`StorageOp.step_cases` says once what a step can do; the two invariants that carry the results
of `Storage.Safety` are proved here from it.

* `Mutable`: a remembered id belongs to a mutable row.
* `Leased`: a mutable row in flight has a `last_attempt_at`.
-/
import Hookbox.Lib.Lts
import Hookbox.Storage.Statements
import Hookbox.Migration

namespace Hookbox

/-! ## 1. The machine -/

/-- The writing calls of `PostgresStorage`. -/
inductive StorageOp where
  | storeWithDeliveries (receipt : WebhookReceipt) (emitterNames : List String)
      (draw : Nat → DeliveryId) (now : Timestamp)
  | claimPending (emitterName : String) (batchSize : Nat) (now : Timestamp)
      (locked picked : List DeliveryId)
  | reclaimExpired (emitterName : String) (leaseDuration : Duration) (now : Timestamp)
  | mark (id : DeliveryId) (m : DeliveryUpdate.Mark)
  | insertReplay (receiptId : ReceiptId) (emitterName : String) (deliveryId : DeliveryId)
      (now : Timestamp)
  | insertReplays (receiptId : ReceiptId) (emitterNames : List String) (draw : Nat → DeliveryId)
      (now : Timestamp)
  | updateState (id : ReceiptId) (state : ProcessingState) (error : Option String)
  | retryFailed (id : ReceiptId) (maxAttempts : Int32)
  | resetForRetry (id : ReceiptId)

/-- The database, and the delivery ids that `claim_pending` has ever returned. -/
structure StorageState where
  db : Database
  claimed : List DeliveryId

/-- One committed call. -/
def StorageOp.step (s : StorageState) : StorageOp → Option StorageState
  | .storeWithDeliveries receipt emitterNames draw now =>
    match s.db.storeWithDeliveries receipt emitterNames draw now with
    | .ok (some db) => some { s with db }
    | .ok none => some s
    | .error _ => none
  | .claimPending emitterName batchSize now locked picked =>
    if s.db.ClaimSelect emitterName batchSize now locked picked then
      some { db := s.db.updateDeliveries (.claim picked now), claimed := s.claimed ++ picked }
    else none
  | .reclaimExpired emitterName leaseDuration now =>
    some { s with db := s.db.updateDeliveries (.reclaimExpired emitterName leaseDuration now) }
  | .mark id m =>
    if id ∈ s.claimed then some { s with db := s.db.updateDeliveries (.mark id m) } else none
  | .insertReplay receiptId emitterName deliveryId now =>
    (s.db.insertReplay receiptId emitterName deliveryId now).map fun db => { s with db }
  | .insertReplays receiptId emitterNames draw now =>
    (s.db.insertReplays receiptId emitterNames draw now).map fun db => { s with db }
  | .updateState id state error => some { s with db := s.db.updateState id state error }
  | .retryFailed id maxAttempts => (s.db.retryFailed id maxAttempts).toOption.map fun db =>
      { s with db }
  | .resetForRetry id => (s.db.resetForRetry id).toOption.map fun db => { s with db }

/-- The storage as a transition system; nothing is observed. -/
def storage : Lts StorageState StorageOp Empty where
  step := StorageOp.step
  obs _ _ := []

/-! ## 2. What a step can do -/

/-- **Everything a storage step can do.**  It appends new pending rows (and perhaps a receipt),
or updates receipts, or updates deliveries by a claim, a reclaim or a mark. -/
inductive StorageOp.Effect (s : StorageState) : StorageState → Prop where
  | unchanged : Effect s s
  | insert (db : Database) (receipts : List ReceiptRow) (receiptId : ReceiptId)
      (names : List String) (draw : Nat → DeliveryId) (now : Timestamp)
      (hreadable : ∀ r ∈ receipts, r.Readable)
      (hr : db.receipts.rows = s.db.receipts.rows ++ receipts)
      (hd : db.deliveries.rows
        = s.db.deliveries.rows ++ Database.newDeliveries receiptId now names draw) :
      Effect s { s with db }
  | claim (e : String) (n : Nat) (now : Timestamp) (locked picked : List DeliveryId)
      (h : s.db.ClaimSelect e n now locked picked) :
      Effect s
        { db := s.db.updateDeliveries (.claim picked now), claimed := s.claimed ++ picked }
  | reclaim (e : String) (lease : Duration) (now : Timestamp) :
      Effect s { s with db := s.db.updateDeliveries (.reclaimExpired e lease now) }
  | mark (id : DeliveryId) (m : DeliveryUpdate.Mark) (h : id ∈ s.claimed) :
      Effect s { s with db := s.db.updateDeliveries (.mark id m) }
  | receipt (u : ReceiptUpdate) (hreadable : ∀ r, r.Readable → (u.run r).Readable) :
      Effect s { s with db := s.db.updateReceipts u }

/-- An update that writes a serialised state keeps rows readable. -/
theorem readable_sql {id : ReceiptId} {set : ReceiptRow → ReceiptRow}
    {h : ∀ r, (set r).content = r.content}
    (hset : ∀ r, ∃ st : ProcessingState, (set r).processingState = st.text) (r : ReceiptRow)
    (hr : r.Readable) : ((ReceiptUpdate.sql id set h).run r).Readable := by
  obtain ⟨⟨v, hv⟩, hp⟩ := hr
  have hver : ((ReceiptUpdate.sql id set h).run r).verificationStatus = r.verificationStatus :=
    congrArg (·.verificationStatus) ((ReceiptUpdate.sql id set h).content_run r)
  refine ⟨⟨v, by rw [hver]; exact hv⟩, ?_⟩
  by_cases hid : r.receiptId = id
  · obtain ⟨st, hst⟩ := hset r
    refine ⟨st, ?_⟩
    have : (ReceiptUpdate.sql id set h).run r = set r := if_pos hid
    rw [this, hst, ProcessingState.ofText_text]
  · have : (ReceiptUpdate.sql id set h).run r = r := if_neg hid
    rw [this]
    exact hp

theorem StorageOp.step_cases {s s' : StorageState} {op : StorageOp}
    (h : storage.step s op = some s') : StorageOp.Effect s s' := by
  cases op with
  | storeWithDeliveries receipt names draw now =>
    simp only [storage, StorageOp.step] at h
    split at h
    · rename_i db hs
      rw [Option.some.injEq] at h
      subst h
      obtain ⟨-, -, hr, hd⟩ := Database.storeWithDeliveries_spec hs
      refine .insert db [receipt.toRow] receipt.receiptId names draw now ?_ hr hd
      intro r hr
      rw [List.mem_singleton.mp hr]
      exact receipt.toRow_readable
    · rw [Option.some.injEq] at h
      subst h
      exact .unchanged
    · exact absurd h (by simp)
  | claimPending e n now locked picked =>
    simp only [storage, StorageOp.step] at h
    split at h
    · rename_i hc
      rw [Option.some.injEq] at h
      subst h
      exact .claim e n now locked picked hc
    · exact absurd h (by simp)
  | reclaimExpired e lease now =>
    simp only [storage, StorageOp.step, Option.some.injEq] at h
    subst h
    exact .reclaim e lease now
  | mark id m =>
    simp only [storage, StorageOp.step] at h
    split at h
    · rename_i hc
      rw [Option.some.injEq] at h
      subst h
      exact .mark id m hc
    · exact absurd h (by simp)
  | insertReplay receiptId e id now =>
    simp only [storage, StorageOp.step, Option.map_eq_some_iff] at h
    obtain ⟨db, hs, rfl⟩ := h
    obtain ⟨-, -, hr, hd⟩ := Database.insertDelivery_eq_some_iff.mp hs
    exact .insert db [] receiptId [e] (fun _ => id) now (by simp) (by rw [hr, List.append_nil]) hd
  | insertReplays receiptId names draw now =>
    simp only [storage, StorageOp.step, Option.map_eq_some_iff] at h
    obtain ⟨db, hs, rfl⟩ := h
    obtain ⟨hr, hd⟩ := Database.insertDeliveries_spec hs
    exact .insert db [] receiptId names draw now (by simp) (by rw [hr, List.append_nil]) hd
  | updateState id st error =>
    simp only [storage, StorageOp.step, Option.some.injEq] at h
    subst h
    exact .receipt _ (readable_sql fun r => ⟨st, rfl⟩)
  | retryFailed id maxAttempts =>
    simp only [storage, StorageOp.step, Option.map_eq_some_iff] at h
    obtain ⟨db, hs, rfl⟩ := h
    obtain ⟨set, hset, rfl, hstate⟩ := Database.retryFailed_ok (Except.toOption_eq_some_iff.mp hs)
    exact .receipt _ (readable_sql fun r => (hstate r).imp fun _ hst => hst.2)
  | resetForRetry id =>
    simp only [storage, StorageOp.step, Option.map_eq_some_iff] at h
    obtain ⟨db, hs, rfl⟩ := h
    obtain ⟨-, rfl⟩ := Database.resetForRetry_update (Except.toOption_eq_some_iff.mp hs)
    exact .receipt _ (readable_sql fun r => ⟨.emitFailed, rfl⟩)

/-! ## 3. Two invariants -/

/-- Every id that `claim_pending` has returned belongs to a mutable row. -/
def StorageState.Mutable (s : StorageState) : Prop :=
  ∀ id ∈ s.claimed, ∃ d ∈ s.db.deliveries.rows, d.deliveryId = id ∧ d.immutable = false

/-- A mutable row in flight carries the time of its claim, and every receipt can be read. -/
structure Database.Leased (db : Database) : Prop where
  lease : ∀ d ∈ db.deliveries.rows, d.immutable = false → d.state = .inFlight →
    ∃ t, d.lastAttemptAt = some t
  readable : ∀ r ∈ db.receipts.rows, r.Readable

/-- An update of deliveries keeps every row under its identity. -/
theorem mutable_updateDeliveries {db : Database} {u : DeliveryUpdate} {id : DeliveryId}
    (h : ∃ d ∈ db.deliveries.rows, d.deliveryId = id ∧ d.immutable = false) :
    ∃ d ∈ (db.updateDeliveries u).deliveries.rows, d.deliveryId = id ∧ d.immutable = false := by
  obtain ⟨d, hd, hid, hi⟩ := h
  exact ⟨u.run d, List.mem_map_of_mem hd, by rw [u.run_deliveryId, hid],
    by rw [u.run_immutable, hi]⟩

theorem StorageOp.Effect.mutable {s s' : StorageState} (h : StorageOp.Effect s s')
    (hm : s.Mutable) : s'.Mutable := by
  cases h with
  | unchanged => exact hm
  | insert db receipts receiptId names draw now _ _ hd =>
    intro id hid
    obtain ⟨d, hmem, hrest⟩ := hm id hid
    exact ⟨d, by rw [hd]; exact List.mem_append_left _ hmem, hrest⟩
  | claim e n now locked picked hc =>
    intro id hid
    refine mutable_updateDeliveries ?_
    rcases List.mem_append.mp hid with hid | hid
    · exact hm id hid
    · obtain ⟨d, hmem, hd, hel⟩ := hc.mem_keys hid
      exact ⟨d, hmem, hd, hel.2.2.2⟩
  | reclaim e lease now => exact fun id hid => mutable_updateDeliveries (hm id hid)
  | mark id m _ => exact fun id hid => mutable_updateDeliveries (hm id hid)
  | receipt u _ => exact hm

/-- A delivery update keeps the leases if it keeps every row's lease. -/
theorem Database.Leased.updateDeliveries {db : Database} (h : db.Leased) {u : DeliveryUpdate}
    (hu : ∀ d ∈ db.deliveries.rows, (u.run d).state = .inFlight →
      u.run d = d ∨ ∃ t, (u.run d).lastAttemptAt = some t) : (db.updateDeliveries u).Leased where
  lease := by
    intro d' hd' hi hst
    obtain ⟨d, hd, rfl⟩ := List.mem_map.mp hd'
    rcases hu d hd hst with heq | ht
    · rw [heq] at hi hst ⊢
      exact h.lease d hd hi hst
    · exact ht
  readable := h.readable

theorem StorageOp.Effect.leased {s s' : StorageState} (h : StorageOp.Effect s s')
    (hl : s.db.Leased) : s'.db.Leased := by
  cases h with
  | unchanged => exact hl
  | insert db receipts receiptId names draw now hread hr hd =>
    constructor
    · intro d hmem hi hst
      rcases Database.mem_of_append_newDeliveries hd hmem with hmem | ⟨i, name, -, rfl⟩
      · exact hl.lease d hmem hi hst
      · exact absurd hst (by simp [Database.newDelivery])
    · intro r hmem
      rw [hr] at hmem
      rcases List.mem_append.mp hmem with hmem | hmem
      · exact hl.readable r hmem
      · exact hread r hmem
  | claim e n now locked picked hc =>
    refine hl.updateDeliveries fun d hd _ => ?_
    rcases hc.claim_cases hd with ⟨-, h⟩ | ⟨-, -, h⟩
    · exact Or.inl h
    · exact Or.inr ⟨now, by rw [h]⟩
  | reclaim e lease now =>
    refine hl.updateDeliveries fun d hd hst => ?_
    rcases DeliveryUpdate.reclaimExpired_cases e lease now d with ⟨-, h⟩ | ⟨-, h⟩
    · exact Or.inl h
    · rw [h] at hst
      exact absurd hst (by simp)
  | mark id m _ =>
    refine hl.updateDeliveries fun d hd hst => ?_
    rcases DeliveryUpdate.mark_cases id m d with ⟨-, h⟩ | ⟨-, -, h⟩
    · exact Or.inl h
    · rw [h] at hst
      exact absurd hst (m.set_state_ne d)
  | receipt u hread =>
    refine ⟨hl.lease, fun r hmem => ?_⟩
    obtain ⟨r₀, hr₀, rfl⟩ := List.mem_map.mp hmem
    exact hread r₀ (hl.readable r₀ hr₀)

/-- A migrated database whose receipts can be read is leased: its rows are all immutable. -/
theorem migrate0002_leased {pre : Receipts} {draw : Nat → DeliveryId} {db : Database}
    (h : migrate0002 pre draw = some db) (hread : ∀ r ∈ pre.receipts.rows, r.Readable) :
    db.Leased where
  lease := by
    intro d hd hi
    rw [migrate0002_immutable h hd] at hi
    exact absurd hi (by simp)
  readable := by rw [(migrate0002_spec h).1]; exact hread

end Hookbox
