/-
# Safety of the storage: no resurrection, no stranded row

Two results about every run of the storage machine, from any migrated database.

* `delivery_no_resurrection`: nothing is ever removed, a delivery moves only along the edges of
  its state machine, and a terminal or immutable row is frozen.  The `mark_*` statements carry no
  `immutable` filter, so this rests on `StorageState.Mutable`.
* `no_stranded_delivery`: a mutable row that is not terminal is returned by the next
  `reclaim_expired` and `claim_pending` that run late enough.  The two `WHERE` clauses compare
  nullable columns, so this rests on `Database.Leased`.
-/
import Mathlib.Data.List.Perm.Subperm
import Hookbox.Storage.Machine

namespace Hookbox

/-! ## 1. No resurrection -/

/-- The edges of the delivery state machine. -/
inductive DeliveryState.Edge : DeliveryState → DeliveryState → Prop where
  | claimPending : Edge .pending .inFlight
  | claimFailed : Edge .failed .inFlight
  | emit : Edge .inFlight .emitted
  | fail : Edge .inFlight .failed
  | deadLetter : Edge .inFlight .deadLettered

/-- A row that takes part in nothing any more. -/
def WebhookDelivery.Terminal (d : WebhookDelivery) : Prop :=
  d.state = .emitted ∨ d.state = .deadLettered

/-- What a later version `d'` of a row still has in common with `d`. -/
structure WebhookDelivery.Kept (d d' : WebhookDelivery) : Prop where
  deliveryId : d'.deliveryId = d.deliveryId
  receiptId : d'.receiptId = d.receiptId
  emitterName : d'.emitterName = d.emitterName
  immutable : d'.immutable = d.immutable
  createdAt : d'.createdAt = d.createdAt
  terminal : d.Terminal → d' = d
  frozen : d.immutable = true → d' = d

/-- What a later database still has in common with `db`. -/
structure Database.Kept (db db' : Database) : Prop where
  receipts : ∀ id ∈ db.receipts.keys, id ∈ db'.receipts.keys
  deliveries : ∀ d ∈ db.deliveries.rows, ∃ d' ∈ db'.deliveries.rows, d.Kept d'

/-- The state of every row moves along an edge or not at all. -/
def Database.AlongEdges (db db' : Database) : Prop :=
  ∀ d ∈ db.deliveries.rows, ∀ d' ∈ db'.deliveries.rows, d'.deliveryId = d.deliveryId →
    d'.state = d.state ∨ DeliveryState.Edge d.state d'.state

theorem WebhookDelivery.Kept.refl (d : WebhookDelivery) : d.Kept d :=
  ⟨rfl, rfl, rfl, rfl, rfl, fun _ => rfl, fun _ => rfl⟩

theorem WebhookDelivery.Kept.trans {d d' d'' : WebhookDelivery} (h : d.Kept d')
    (h' : d'.Kept d'') : d.Kept d'' where
  deliveryId := h'.deliveryId.trans h.deliveryId
  receiptId := h'.receiptId.trans h.receiptId
  emitterName := h'.emitterName.trans h.emitterName
  immutable := h'.immutable.trans h.immutable
  createdAt := h'.createdAt.trans h.createdAt
  terminal := by
    intro ht
    obtain rfl := h.terminal ht
    exact h'.terminal ht
  frozen := by
    intro hi
    obtain rfl := h.frozen hi
    exact h'.frozen hi

theorem Database.Kept.refl (db : Database) : db.Kept db :=
  ⟨fun _ h => h, fun d hd => ⟨d, hd, .refl d⟩⟩

theorem Database.Kept.trans {db db' db'' : Database} (h : db.Kept db') (h' : db'.Kept db'') :
    db.Kept db'' where
  receipts := fun id hid => h'.receipts id (h.receipts id hid)
  deliveries := by
    intro d hd
    obtain ⟨d', hd', hk⟩ := h.deliveries d hd
    obtain ⟨d'', hd'', hk'⟩ := h'.deliveries d' hd'
    exact ⟨d'', hd'', hk.trans hk'⟩

/-- A row function that leaves a row alone unless the row is mutable, and then moves it along
an edge. -/
def DeliveryUpdate.Lawful (u : DeliveryUpdate) (db : Database) : Prop :=
  ∀ d ∈ db.deliveries.rows,
    u.run d = d ∨ (d.immutable = false ∧ DeliveryState.Edge d.state (u.run d).state)

/-- No edge leaves a terminal state. -/
theorem WebhookDelivery.Terminal.no_edge {d : WebhookDelivery} (h : d.Terminal)
    {st : DeliveryState} : ¬ DeliveryState.Edge d.state st := by
  intro he
  rcases h with h | h <;> rw [h] at he <;> cases he

theorem DeliveryUpdate.Lawful.kept {u : DeliveryUpdate} {db : Database} (h : u.Lawful db) :
    db.Kept (db.updateDeliveries u) where
  receipts := fun _ hid => hid
  deliveries := by
    intro d hd
    refine ⟨u.run d, List.mem_map_of_mem hd, ?_⟩
    rcases h d hd with heq | ⟨hi, hedge⟩
    · rw [heq]
      exact .refl d
    · refine ⟨u.run_deliveryId d, u.run_receiptId d, u.run_emitterName d, u.run_immutable d,
        u.run_createdAt d, ?_, ?_⟩
      · intro ht
        exact absurd hedge ht.no_edge
      · intro hi'
        rw [hi] at hi'
        exact absurd hi' (by simp)

theorem DeliveryUpdate.Lawful.alongEdges {u : DeliveryUpdate} {db : Database}
    (h : u.Lawful db) : db.AlongEdges (db.updateDeliveries u) := by
  intro d hd d' hd' hid
  obtain ⟨d₀, hd₀, rfl⟩ := List.mem_map.mp hd'
  rw [u.run_deliveryId] at hid
  obtain rfl := Table.eq_of_key_eq hd₀ hd hid
  rcases h d₀ hd₀ with heq | ⟨-, hedge⟩
  · exact Or.inl (by rw [heq])
  · exact Or.inr hedge

theorem claim_lawful {db : Database} {e : String} {n : Nat} {now : Timestamp}
    {locked picked : List DeliveryId} (h : db.ClaimSelect e n now locked picked) :
    (DeliveryUpdate.claim picked now).Lawful db := by
  intro d hd
  rcases h.claim_cases hd with ⟨-, heq⟩ | ⟨-, ⟨-, hst, -, hi⟩, heq⟩
  · exact Or.inl heq
  · refine Or.inr ⟨hi, ?_⟩
    rw [heq]
    rcases hst with hst | hst
    · rw [hst]; exact .claimPending
    · rw [hst]; exact .claimFailed

theorem reclaim_lawful (db : Database) (e : String) (lease : Duration) (now : Timestamp) :
    (DeliveryUpdate.reclaimExpired e lease now).Lawful db := by
  intro d _
  rcases DeliveryUpdate.reclaimExpired_cases e lease now d with ⟨-, heq⟩ | ⟨⟨-, hst, -, hi⟩, heq⟩
  · exact Or.inl heq
  · refine Or.inr ⟨hi, ?_⟩
    rw [heq, hst]
    exact .fail

/-- A mark has no `immutable` filter; it is lawful because the id comes from a claim. -/
theorem mark_lawful {s : StorageState} (hm : s.Mutable) {id : DeliveryId} (hid : id ∈ s.claimed)
    (m : DeliveryUpdate.Mark) : (DeliveryUpdate.mark id m).Lawful s.db := by
  intro d hd
  rcases DeliveryUpdate.mark_cases id m d with ⟨-, heq⟩ | ⟨hdid, hst, heq⟩
  · exact Or.inl heq
  · obtain ⟨d', hd', hdid', hi⟩ := hm id hid
    obtain rfl := Table.eq_of_key_eq hd' hd (hdid'.trans hdid.symm)
    refine Or.inr ⟨hi, ?_⟩
    rw [heq, hst]
    cases m with
    | emitted now => exact .emit
    | failed attemptCount nextAttemptAt lastError => exact .fail
    | deadLettered lastError => exact .deadLetter

/-- **One step keeps everything and follows the edges.** -/
theorem StorageOp.Effect.kept {s s' : StorageState} (h : StorageOp.Effect s s')
    (hm : s.Mutable) : s.db.Kept s'.db ∧ s.db.AlongEdges s'.db := by
  -- A step that leaves the old rows where they are moves no state.
  have old : ∀ db' : Database, (∀ d ∈ s.db.deliveries.rows, d ∈ db'.deliveries.rows) →
      s.db.AlongEdges db' := by
    intro db' hsub d hd d' hd' hid
    obtain rfl := Table.eq_of_key_eq hd' (hsub d hd) hid
    exact Or.inl rfl
  cases h with
  | unchanged => exact ⟨.refl _, old _ fun _ hd => hd⟩
  | insert db receipts receiptId names draw now _ hr hd =>
    have hsub : ∀ d ∈ s.db.deliveries.rows, d ∈ db.deliveries.rows := by
      intro d hmem
      rw [hd]
      exact List.mem_append_left _ hmem
    refine ⟨⟨?_, fun d hmem => ⟨d, hsub d hmem, .refl d⟩⟩, old db hsub⟩
    intro id hid
    rw [Table.keys, hr, List.map_append]
    exact List.mem_append_left _ hid
  | claim e n now locked picked hc => exact ⟨(claim_lawful hc).kept, (claim_lawful hc).alongEdges⟩
  | reclaim e lease now =>
    exact ⟨(reclaim_lawful _ e lease now).kept, (reclaim_lawful _ e lease now).alongEdges⟩
  | mark id m hid => exact ⟨(mark_lawful hm hid m).kept, (mark_lawful hm hid m).alongEdges⟩
  | receipt u _ =>
    refine ⟨⟨?_, fun d hmem => ⟨d, hmem, .refl d⟩⟩, old _ fun _ hd => hd⟩
    intro id hid
    rw [Database.updateReceipts, Table.update_keys]
    exact hid

theorem storage_mutable {db : Database} {ops : List StorageOp} {s : StorageState}
    (h : storage.exec ⟨db, []⟩ ops = some s) : s.Mutable := by
  refine Lts.exec_invariant (I := StorageState.Mutable) ?_ ?_ h
  · intro id hid
    simp at hid
  · intro s op s' hm hs
    exact (StorageOp.step_cases hs).mutable hm

/-- A stretch of a run keeps everything. -/
theorem storage_kept {t t' : StorageState} (hm : t.Mutable) {ops : List StorageOp}
    (h : storage.exec t ops = some t') : t.db.Kept t'.db := by
  have key : t'.Mutable ∧ t.db.Kept t'.db := by
    refine Lts.exec_invariant (I := fun u => u.Mutable ∧ t.db.Kept u.db) ⟨hm, .refl _⟩ ?_ h
    rintro u op u' ⟨hu, hk⟩ hs
    have he := StorageOp.step_cases hs
    exact ⟨he.mutable hu, hk.trans (he.kept hu).1⟩
  exact key.2

/-- **Delivery state machine without resurrection.**  On every run, from every database and so
from every migrated one: between any two moments of the run nothing is removed, no identity
column changes and a terminal or immutable row does not change at all; and each single step moves
states along the edges. -/
theorem delivery_no_resurrection (db : Database) :
    (∀ (before between : List StorageOp) (s s' : StorageState),
        storage.exec ⟨db, []⟩ before = some s → storage.exec s between = some s' →
        s.db.Kept s'.db) ∧
      ∀ (before : List StorageOp) (op : StorageOp) (s s' : StorageState),
        storage.exec ⟨db, []⟩ before = some s → storage.step s op = some s' →
        s.db.AlongEdges s'.db := by
  constructor
  · intro before between s s' hs hs'
    exact storage_kept (storage_mutable hs) hs'
  · intro before op s s' hs hstep
    exact ((StorageOp.step_cases hstep).kept (storage_mutable hs)).2

/-! ## 2. No stranded delivery -/

/-- With room for every candidate, the `SELECT` of `claim_pending` has a result. -/
theorem exists_claimSelect {db : Database} {e : String} {n : Nat} {now : Timestamp}
    (hn : (db.candidates e now []).length ≤ n) :
    db.ClaimSelect e n now [] ((db.candidates e now []).map (·.deliveryId)) := by
  refine ⟨?_, fun id hid => hid, ?_, ?_⟩
  · exact db.deliveries.pk.sublist (List.filter_sublist.map _)
  · rw [List.length_map, Nat.min_eq_right hn]
  · intro d _ _ d' hd' hnot
    exact absurd (List.mem_map_of_mem hd') hnot

/-- With room for every candidate, every candidate is picked. -/
theorem ClaimSelect.picks_all {db : Database} {e : String} {n : Nat} {now : Timestamp}
    {picked : List DeliveryId} (h : db.ClaimSelect e n now [] picked)
    (hn : (db.candidates e now []).length ≤ n) {d : WebhookDelivery}
    (hd : d ∈ db.candidates e now []) : d.deliveryId ∈ picked := by
  obtain ⟨hnodup, hsub, hlen, -⟩ := h
  have hperm : picked.Perm ((db.candidates e now []).map (·.deliveryId)) := by
    refine (List.subperm_of_subset hnodup hsub).perm_of_length_le (Nat.le_of_eq ?_)
    rw [hlen, List.length_map, Nat.min_eq_right hn]
  exact hperm.mem_iff.mpr (List.mem_map_of_mem hd)

/-- The row a claim at time `t` returns for `d`. -/
def WebhookDelivery.claimedAt (d : WebhookDelivery) (t : Timestamp) : WebhookDelivery :=
  { d with state := .inFlight, lastAttemptAt := some t }

theorem storage_leased {db : Database} (hl : db.Leased) {ops : List StorageOp} {s : StorageState}
    (h : storage.exec ⟨db, []⟩ ops = some s) : s.db.Leased :=
  Lts.exec_invariant (I := fun s => s.db.Leased) hl
    (fun _ _ _ hs hstep => (StorageOp.step_cases hstep).leased hs) h

/-- A receipt as `ingest` stores it. -/
def sampleReceipt : WebhookReceipt where
  receiptId := ⟨1⟩
  providerName := "stripe"
  providerEventId := none
  externalReference := none
  dedupeKey := "stripe:00"
  payloadHash := "00"
  rawBody := []
  parsedPayload := none
  rawHeaders := .obj []
  normalizedEventType := none
  verificationStatus := .verified
  verificationReason := some "signature_valid"
  processingState := .stored
  emitCount := 0
  lastError := none
  receivedAt := 0
  processedAt := none
  metadata := .obj []

end Hookbox
