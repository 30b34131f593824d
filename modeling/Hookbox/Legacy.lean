/-
# Receipts from before the migration

Migration 0002 gives every old receipt one immutable row, under the name `legacy`.  The state it
maps to is lossy, but nothing reads it: an immutable row does not enter the aggregate, so the
stored `processing_state` is shown as before.  The three predicates by which workers find rows
skip immutable ones, whatever the emitter is called.

* `Sys.Effect.handled_mutable`: what a worker claims, reclaims or marks is mutable.
* `LegacyOnly`: the invariant.  The old receipt is as it was, and all its rows are immutable.
* `migration_preserves_meaning`: the derived state is the old state, and stays so.
-/
import Hookbox.Intake
import Hookbox.Transitions
import Hookbox.Migration

namespace Hookbox

/-! ## 1. What is shown, and what is handled -/

/-- The state shown for a receipt: `receipt_aggregate_state` over `get_deliveries_for_receipt`,
with the stored `processing_state` as fallback. -/
def Database.Shows (db : Database) (id : ReceiptId) (st : ProcessingState) : Prop :=
  ∃ row ∈ db.receipts.rows, row.receiptId = id ∧
    ∃ fallback, ProcessingState.ofText row.processingState = .ok fallback ∧
      ∀ ds, db.DeliveriesForReceipt id ds → receiptAggregateState ds fallback = st

/-- The row that an event claims, reclaims or marks. -/
def Event.handled : Event → Option DeliveryId
  | claimed _ id => some id
  | reclaimed id => some id
  | marked _ id _ _ => some id
  | _ => none

theorem Event.handled_of_call {ev : Event} (h : ev.callOf.isSome) : ev.handled = none := by
  cases ev <;> simp_all [callOf, handled]

/-- **What a worker claims, reclaims or marks is a mutable row**, as long as what it has
outstanding is. -/
theorem Sys.Effect.handled_mutable {dep : Deployment} {s s' : Sys} {es : List Event}
    (heff : Sys.Effect dep s s' es)
    (hout : ∀ i, ∀ x ∈ (s.workers i).outstanding, ∃ d ∈ s.db.deliveries.rows,
      d.deliveryId = x.delivery.deliveryId ∧ d.immutable = false)
    {ev : Event} (hev : ev ∈ es) {id : DeliveryId} (hid : ev.handled = some id) :
    ∃ d ∈ s.db.deliveries.rows, d.deliveryId = id ∧ d.immutable = false := by
  cases heff with
  | environment s' es hworkers hdb hes =>
    rw [Event.handled_of_call (hes ev hev)] at hid
    exact absurd hid (by simp)
  | worker i o heff =>
    cases heff with
    | quiet w' hclaims hout' => simp at hev
    | load w' d receipt hclaims hd hload hout' => simp at hev
    | reclaim w' now hclaims hout' =>
      obtain ⟨d, hd, rfl⟩ := List.mem_map.mp hev
      obtain ⟨hrow, hex⟩ := List.mem_filter.mp hd
      have hexp : DeliveryUpdate.Expired (dep.workers i).name (dep.workers i).leaseDuration now d :=
        of_decide_eq_true hex
      exact ⟨d, hrow, Option.some.inj hid, hexp.2.2.2⟩
    | claim w' now locked picked hclaims hselect hout' =>
      obtain ⟨id', hpick, rfl⟩ := List.mem_map.mp hev
      obtain rfl : id' = id := Option.some.inj hid
      obtain ⟨d, hrow, hdid, hel⟩ := hselect.mem_keys hpick
      exact ⟨d, hrow, hdid, hel.2.2.2⟩
    | call w' d receipt hclaims hd hout' =>
      obtain rfl := List.mem_singleton.mp hev
      exact absurd hid (by simp [Event.handled])
    | returned w' d receipt result hclaims hd hout' =>
      obtain rfl := List.mem_singleton.mp hev
      exact absurd hid (by simp [Event.handled])
    | mark w' d receipt result input hclaims hd hout' hfuture =>
      obtain rfl := List.mem_singleton.mp hev
      obtain rfl : d.deliveryId = id := Option.some.inj hid
      exact hout i _ hd

/-- **No worker ever handles an immutable row.** -/
theorem system_immutable_unhandled {dep : Deployment} {db : Database} {ls : List Label} {s : Sys}
    (h : (system dep).exec (.start dep db) ls = some s) {d : WebhookDelivery}
    (hd : d ∈ db.deliveries.rows) (himm : d.immutable = true) {ev : Event}
    (hev : ev ∈ (system dep).trace (.start dep db) ls) : ev.handled ≠ some d.deliveryId := by
  intro hid
  obtain ⟨before, l, after, t, t', rfl, hbefore, hstep, hobs, -⟩ :=
    Lts.exists_step_of_mem_trace h hev
  obtain ⟨d', hd', hdid, hmut⟩ := (system_step_cases hstep).handled_mutable
    (fun i x hx => system_outstanding_mutable hbefore hx) hobs hid
  -- The immutable row is still there, under the same key.
  have hnil : (system dep).exec (.start dep db) [] = some (.start dep db) := rfl
  obtain ⟨d₀, hd₀, hkept⟩ := (system_kept hnil hbefore).deliveries d hd
  obtain rfl := hkept.frozen himm
  rw [Table.eq_of_key_eq hd' hd₀ hdid, himm] at hmut
  exact absurd hmut (by simp)

/-! ## 2. The invariant of an old receipt -/

/-- The receipt row `r` is unchanged, and its delivery rows are all immutable. -/
structure LegacyOnly (r : ReceiptRow) (db : Database) : Prop where
  receipt : r ∈ db.receipts.rows
  deliveries : ∀ d ∈ db.deliveries.rows, d.receiptId = r.receiptId → d.immutable = true

/-- A receipt without mutable rows shows its stored state. -/
theorem LegacyOnly.shows {r : ReceiptRow} {db : Database} (h : LegacyOnly r db)
    {st : ProcessingState} (hst : ProcessingState.ofText r.processingState = .ok st) :
    db.Shows r.receiptId st := by
  refine ⟨r, h.receipt, rfl, st, hst, fun ds hds => ?_⟩
  refine receiptAggregate_of_immutable st fun d hd => ?_
  have hmem := hds.1.mem_iff.mp hd
  obtain ⟨hrow, hrid⟩ := List.mem_filter.mp hmem
  exact h.deliveries d hrow (of_decide_eq_true hrid)

/-- Rows for another receipt change nothing. -/
theorem LegacyOnly.append {r : ReceiptRow} {db db' : Database} (h : LegacyOnly r db)
    (hreceipt : r ∈ db'.receipts.rows) {receiptId : ReceiptId} {now : Timestamp}
    {names : List String} {draw : Nat → DeliveryId}
    (hrows : db'.deliveries.rows
      = db.deliveries.rows ++ Database.newDeliveries receiptId now names draw)
    (hne : receiptId ≠ r.receiptId) : LegacyOnly r db' := by
  refine ⟨hreceipt, fun d hd hrid => ?_⟩
  rcases Database.mem_of_append_newDeliveries hrows hd with hd | ⟨i, name, -, rfl⟩
  · exact h.deliveries d hd hrid
  · exact absurd hrid hne

/-- **A step keeps an old receipt as it is**, unless an operator addresses it. -/
theorem LegacyOnly.step {dep : Deployment} {r : ReceiptRow} {s s' : Sys} {l : Label}
    (h : LegacyOnly r s.db) (hother : ∀ a, l = .admin a → a.target ≠ r.receiptId)
    (hstep : (system dep).step s l = some s') : LegacyOnly r s'.db := by
  cases l with
  | worker i step =>
    obtain ⟨o, -, rfl, -⟩ := system_worker hstep
    refine ⟨h.receipt, fun d hd hrid => ?_⟩
    obtain ⟨d₀, hd₀, rfl⟩ := List.mem_map.mp hd
    rw [DeliveryUpdate.run_receiptId] at hrid
    rw [DeliveryUpdate.run_immutable]
    exact h.deliveries d₀ hd₀ hrid
  | ingest call step =>
    obtain ⟨o, heff, rfl, -⟩ := system_ingest hstep
    show LegacyOnly r o.db
    rcases heff.commit_cases with ⟨hdb, -⟩ | ⟨k, -, -, hk⟩
    · rw [hdb]
      exact h
    · obtain ⟨now, draw, hrows⟩ := hk.deliveries
      refine h.append ?_ hrows fun heq => hk.id ?_
      · rw [hk.receipts]
        exact List.mem_append_left _ h.receipt
      · rw [heq]
        exact Table.key_mem_keys h.receipt
  | admin a =>
    obtain ⟨db, hdb, rfl, -⟩ := system_admin hstep
    have hne := hother a rfl
    rcases AdminStep.run_cases hdb with ⟨hr, names, draw, now, -, hrows⟩ | ⟨-, u, rfl, hu⟩
    · exact h.append (by rw [hr]; exact h.receipt) hrows hne
    · refine ⟨List.mem_map.mpr ⟨r, h.receipt, hu r (Ne.symm hne)⟩, h.deliveries⟩

/-- A run keeps an old receipt as it is, unless an operator addresses it. -/
theorem system_legacyOnly {dep : Deployment} {db : Database} {r : ReceiptRow}
    (hdb : LegacyOnly r db) {ls : List Label} (hother : ∀ a, .admin a ∈ ls → a.target ≠ r.receiptId)
    {s : Sys} (h : (system dep).exec (.start dep db) ls = some s) : LegacyOnly r s.db := by
  refine Lts.exec_induction_of_everyStep (M := system dep)
    (C := fun _ _ l => ∀ a, l = .admin a → a.target ≠ r.receiptId)
    (I := fun _ s => LegacyOnly r s.db) hdb ?_ ?_ h
  · intro _ s l s' hs hl hstep
    exact hs.step hl hstep
  · rintro before l after s rfl _ a rfl
    exact hother a (List.mem_append_right _ List.mem_cons_self)

/-! ## 3. The migration -/

/-- **Migration 0002 preserves meaning.**  For every table of old receipts and every receipt of it
whose `processing_state` deserialises: the backfill leaves the receipts as they are and gives the
receipt exactly one row, immutable and named `legacy`; the derived state is the old state, and
after every later run in which no operator addresses the receipt it still is.  On no later run
does a worker claim, reclaim or mark a backfilled row. -/
theorem migration_preserves_meaning {pre : Receipts} {draw : Nat → DeliveryId} {db : Database}
    (hdb : migrate0002 pre draw = some db) {r : ReceiptRow} (hr : r ∈ pre.receipts.rows)
    {st : ProcessingState} (hst : ProcessingState.ofText r.processingState = .ok st) :
    db.receipts = pre.receipts ∧
      (∃ d, (db.deliveries.rows.filter fun d => d.receiptId = r.receiptId) = [d] ∧
        d.immutable = true ∧ d.emitterName = "legacy") ∧
      db.Shows r.receiptId st ∧
      ∀ (dep : Deployment) (ls : List Label) (s : Sys),
        (system dep).exec (.start dep db) ls = some s →
        ((∀ a, .admin a ∈ ls → a.target ≠ r.receiptId) → s.db.Shows r.receiptId st) ∧
          ∀ d ∈ db.deliveries.rows, ∀ ev ∈ (system dep).trace (.start dep db) ls,
            ev.handled ≠ some d.deliveryId := by
  obtain ⟨hreceipts, hrows⟩ := migrate0002_spec hdb
  have hlegacy : LegacyOnly r db := by
    refine ⟨by rw [hreceipts]; exact hr, fun d hd _ => migrate0002_immutable hdb hd⟩
  refine ⟨hreceipts, ?_, hlegacy.shows hst, fun dep ls s h => ⟨fun hother => ?_, ?_⟩⟩
  · obtain ⟨i, hi⟩ := backfillRows_filter pre.receipts.rows pre.receipts.pk draw hr
    exact ⟨_, by rw [hrows]; exact hi, rfl, rfl⟩
  · exact (system_legacyOnly hlegacy hother h).shows hst
  · intro d hd ev hev
    exact system_immutable_unhandled h hd (migrate0002_immutable hdb hd) hev

/-- A table with one old receipt. -/
def oldReceipts : Receipts where
  receipts := ⟨[sampleReceipt.toRow], by simp⟩
  dedupeIndex := by simp

/-- The small deployment with an emitter that is really called `legacy`. -/
def legacyDep : Deployment :=
  { sampleDep with
    workers := fun _ =>
      { name := "legacy", policy := {}, concurrency := 1, leaseDuration := 30000000 } }

/-- Long after the migration a worker of `legacy` looks for work, and finds none. -/
def legacyRound : List Label :=
  [.worker 0 .wake, .worker 0 (.reclaimExpired 90000000),
    .worker 0 (.claimPending 90000000 [] [])]

theorem migration_preserves_meaning_legacy_worker :
    ∃ db s, migrate0002 oldReceipts (fun _ => ⟨0⟩) = some db ∧
      (system legacyDep).exec (.start legacyDep db) legacyRound = some s ∧
      s.db.Shows ⟨1⟩ .stored := by
  have h := migration_preserves_meaning
    (show migrate0002 oldReceipts (fun _ => ⟨0⟩) = some _ from rfl)
    (show sampleReceipt.toRow ∈ oldReceipts.receipts.rows from List.mem_cons_self)
    (show ProcessingState.ofText sampleReceipt.toRow.processingState = .ok .stored by decide)
  refine ⟨_, _, rfl, rfl, (h.2.2.2 legacyDep legacyRound _ rfl).1 ?_⟩
  intro a ha
  exact absurd ha (by simp [legacyRound])

end Hookbox
