/-
# The state shown to operators

The admin API and the command line show `receipt_aggregate_state` over
`get_deliveries_for_receipt`.  Here the chain is closed from what is shown back to what happened:
the fan-out put a row for every emitter, rows are never removed, the aggregate looks at one row of
each emitter, and a terminal row is vouched for by the emits.

* `fanOut_kept`: the rows of a commit are still there, whatever happened since.
* `shown_state_truthful`: `emitted` means delivered to every emitter, `deadLettered` means that
  some row ran out of attempts.
-/
import Hookbox.Attempts
import Hookbox.Intake
import Hookbox.Transitions

namespace Hookbox

open Event (errs)

/-! ## 1. The fan-out stays -/

/-- Every emitter name of the fan-out has a row. -/
theorem Database.exists_mem_newDeliveries (receiptId : ReceiptId) (now : Timestamp)
    {names : List String} {name : String} (hname : name ∈ names) (draw : Nat → DeliveryId) :
    ∃ d ∈ newDeliveries receiptId now names draw,
      d.receiptId = receiptId ∧ d.emitterName = name ∧ d.immutable = false := by
  rw [← newDeliveries_names receiptId now names draw] at hname
  obtain ⟨d, hd, hdn⟩ := List.mem_map.mp hname
  obtain ⟨i, name', -, rfl⟩ := mem_newDeliveries hd
  exact ⟨_, hd, rfl, hdn, rfl⟩

section

variable {dep : Deployment} {db : Database} {ls : List Label} {s : Sys} {call : CallId}
  {receipt : WebhookReceipt} {names : List String}
  (h : (system dep).exec (.start dep db) ls = some s)
  (hev : .stored call receipt names ∈ (system dep).trace (.start dep db) ls)

include h hev

/-- **The rows of a commit are kept**: at every later moment the receipt has a mutable row for
every emitter name it was stored with. -/
theorem fanOut_kept {name : String} (hname : name ∈ names) :
    ∃ d ∈ s.db.deliveries.rows,
      d.receiptId = receipt.receiptId ∧ d.emitterName = name ∧ d.immutable = false := by
  obtain ⟨before, after, t, t', hbefore, hafter, hmade⟩ := system_stored h hev
  obtain ⟨now, draw, hrows⟩ := hmade.deliveries
  obtain ⟨d, hd, hrid, hen, himm⟩ :=
    Database.exists_mem_newDeliveries receipt.receiptId now hname draw
  have hd' : d ∈ t'.db.deliveries.rows := by
    rw [hrows]
    exact List.mem_append_right _ hd
  obtain ⟨d', hmem, hkept⟩ := (system_kept hbefore hafter).deliveries d hd'
  exact ⟨d', hmem, hkept.receiptId.trans hrid, hkept.emitterName.trans hen,
    hkept.immutable.trans himm⟩

/-- The only event that the receipt's id can stand for is the receipt's own. -/
theorem eventOf_stored {event : NormalizedEvent} (he : s.db.EventOf receipt.receiptId event) :
    event = .fromReceipt receipt := by
  obtain ⟨row, hrow, hid, rfl⟩ := he
  obtain ⟨row', hrow', hc⟩ := system_stored_row h hev
  have hid' : row'.receiptId = receipt.receiptId := congrArg (·.receiptId) hc
  rw [Table.eq_of_key_eq hrow hrow' (hid.trans hid'.symm)]
  exact event_eq_of_content_eq hc

end

/-! ## 2. What is shown is true -/

theorem Database.DeliveriesForReceipt.mem_iff {db : Database} {id : ReceiptId}
    {ds : List WebhookDelivery} (h : db.DeliveriesForReceipt id ds) {d : WebhookDelivery} :
    d ∈ ds ↔ d ∈ db.deliveries.rows ∧ d.receiptId = id := by
  rw [h.1.mem_iff, List.mem_filter, decide_eq_true_eq]

/-- **The state shown to operators is truthful.**  On every run from a migrated database, for every
receipt stored with a non-empty list of emitter names: if it is shown as emitted, then for every
one of these names a worker of that emitter sent the receipt's event and got `Ok`; if it is shown
as dead-lettered, then one of its rows saw at least `max_attempts` emits return `Err`. -/
theorem shown_state_truthful {dep : Deployment} (hpol : dep.OnePolicy) {pre : Receipts}
    {draw : Nat → DeliveryId} {db : Database} (hdb : migrate0002 pre draw = some db)
    {ls : List Label} {s : Sys} (h : (system dep).exec (.start dep db) ls = some s)
    {call : CallId} {receipt : WebhookReceipt} {names : List String}
    (hev : .stored call receipt names ∈ (system dep).trace (.start dep db) ls) (hne : names ≠ [])
    {ds : List WebhookDelivery} (hds : s.db.DeliveriesForReceipt receipt.receiptId ds)
    (fallback : ProcessingState) :
    (receiptAggregateState ds fallback = .emitted → ∀ name ∈ names, ∃ c id,
      (dep.workers c.worker).name = name ∧
        .emitReturned c id (.fromReceipt receipt) (.ok ())
          ∈ (system dep).trace (.start dep db) ls) ∧
      (receiptAggregateState ds fallback = .deadLettered →
        ∃ d ∈ ds, (∃ i, (dep.workers i).name = d.emitterName) ∧
          ∀ i, (dep.workers i).name = d.emitterName →
            (dep.workers i).policy.maxAttempts.toInt
              ≤ errs ((system dep).trace (.start dep db) ls) d.deliveryId) := by
  have hs := system_sound (fun d hd => migrate0002_immutable hdb hd) h
  constructor
  · intro hagg name hname
    obtain ⟨d, hd, hrid, rfl, himm⟩ := fanOut_kept h hev hname
    obtain ⟨d', hd', himm', hen, hst⟩ :=
      receiptAggregate_emitted (hds.mem_iff.mpr ⟨hd, hrid⟩) himm hagg
    obtain ⟨hrow, hrid'⟩ := hds.mem_iff.mp hd'
    obtain ⟨c, event, hret, hworker, hevent⟩ := (hs.rows d' hrow himm').emitted hst
    rw [hrid'] at hevent
    obtain rfl := eventOf_stored h hev hevent
    exact ⟨c, d'.deliveryId, hworker.trans hen, hret⟩
  · intro hagg
    obtain ⟨name, hname⟩ := List.exists_mem_of_ne_nil names hne
    obtain ⟨d, hd, hrid, -, himm⟩ := fanOut_kept h hev hname
    obtain ⟨d', hd', himm', hst⟩ :=
      receiptAggregate_deadLettered (hds.mem_iff.mpr ⟨hd, hrid⟩) himm hagg
    obtain ⟨hrow, -⟩ := hds.mem_iff.mp hd'
    have hgiven := (hs.rows d' hrow himm').deadLettered hst
    refine ⟨d', hd', ?_, fun i hi => hgiven.errs_ge hpol hi⟩
    obtain ⟨i, hi, -⟩ := hgiven
    exact ⟨i, hi⟩

/-- One request, delivered at the first attempt. -/
def delivered : List Label :=
  acceptOne ++ claimAndCall 0 0 ⟨0⟩ ++ answerAndMark 0 0 ⟨0⟩ (.ok ())

/-- The receipt that request leads to. -/
def sampleStored : WebhookReceipt :=
  (IngestCall.mk ⟨"acme", [], []⟩ ⟨1⟩ .skipped (some "no_verifier_configured")).receipt sampleLib 0

theorem shown_state_truthful_delivered :
    ∃ s ds, (system sampleDep).exec (.start sampleDep .empty) delivered = some s ∧
      s.db.DeliveriesForReceipt sampleStored.receiptId ds ∧
      receiptAggregateState ds .stored = .emitted ∧
      ∃ c id, (sampleDep.workers c.worker).name = "kafka" ∧
        .emitReturned c id (.fromReceipt sampleStored) (.ok ())
          ∈ (system sampleDep).trace (.start sampleDep .empty) delivered := by
  refine ⟨_, _, rfl, ⟨List.Perm.refl _, by decide⟩, by decide, ?_⟩
  have hev : Event.stored ⟨0, 0⟩ sampleStored ["kafka"]
      ∈ (system sampleDep).trace (.start sampleDep .empty) delivered :=
    List.mem_cons_of_mem _ List.mem_cons_self
  exact (shown_state_truthful (fun _ _ _ => rfl) (migrate0002_empty fun _ => ⟨0⟩)
    (show (system sampleDep).exec (.start sampleDep .empty) delivered = some _ from rfl) hev
    (by simp) ⟨List.Perm.refl _, by decide⟩ .stored).1 (by decide) "kafka" List.mem_cons_self

/-! ## 3. The rows that are shown

Rows of equal `created_at` come in any order, and the first of the newest rows of an emitter is the
one that is shown. -/

section Latest

variable {db : Database} {r : ReceiptId} {ds : List WebhookDelivery}

/-- One of the newest mutable rows of its emitter for the receipt. -/
def Database.Latest (db : Database) (r : ReceiptId) (d : WebhookDelivery) : Prop :=
  d ∈ db.deliveries.rows ∧ d.receiptId = r ∧ d.immutable = false ∧
    ∀ d' ∈ db.deliveries.rows, d'.receiptId = r → d'.emitterName = d.emitterName →
      d'.immutable = false → d'.createdAt ≤ d.createdAt

/-- The state shown for an emitter is that of one of its newest rows. -/
theorem Database.DeliveriesForReceipt.latest (hds : db.DeliveriesForReceipt r ds) {e : String}
    {st : DeliveryState} (h : (latestMutablePerEmitter ds)[e]? = some st) :
    ∃ d, db.Latest r d ∧ d.emitterName = e ∧ d.state = st := by
  rw [latestMutable_getElem?, Option.map_eq_some_iff] at h
  obtain ⟨⟨ts, st'⟩, h, rfl⟩ := h
  obtain ⟨d, hd, hi, he, hts, hst⟩ := latestEntries_sound h
  obtain ⟨hrow, hr⟩ := hds.mem_iff.mp hd
  refine ⟨d, ⟨hrow, hr, hi, fun d' hrow' hr' he' hi' => ?_⟩, he, hst⟩
  rw [hts]
  exact latestEntries_newest h d' (hds.mem_iff.mpr ⟨hrow', hr'⟩) hi' (he'.trans he)

/-- The row that is shown for an emitter comes first among its newest rows. -/
theorem Database.DeliveriesForReceipt.exists_first (hds : db.DeliveriesForReceipt r ds)
    {d : WebhookDelivery} (hd : db.Latest r d) :
    ∃ d' as bs, ds = as ++ d' :: bs ∧ db.Latest r d' ∧ d'.emitterName = d.emitterName ∧
      (∀ a ∈ as, db.Latest r a → a.emitterName ≠ d.emitterName) ∧
      (latestMutablePerEmitter ds)[d.emitterName]? = some d'.state := by
  classical
  obtain ⟨d', hfind⟩ : ∃ d', ds.find? (fun x => db.Latest r x ∧ x.emitterName = d.emitterName)
      = some d' := by
    rw [← Option.isSome_iff_exists, List.find?_isSome]
    exact ⟨d, hds.mem_iff.mpr ⟨hd.1, hd.2.1⟩, decide_eq_true ⟨hd, rfl⟩⟩
  rw [List.find?_eq_some_iff_append] at hfind
  obtain ⟨hd', as, bs, rfl, has⟩ := hfind
  obtain ⟨hd', he'⟩ := of_decide_eq_true hd'
  have hbefore : ∀ a ∈ as, db.Latest r a → a.emitterName ≠ d.emitterName := by
    intro a ha hlatest he
    have := has a ha
    simp [hlatest, he] at this
  refine ⟨d', as, bs, rfl, hd', he', hbefore, ?_⟩
  have hentry : (latestEntries (as ++ d' :: bs))[d'.emitterName]?
      = some (d'.createdAt, d'.state) := by
    refine latestEntries_split hd'.2.2.1 (fun a ha hi he => ?_) fun b hb hi he => ?_
    · -- An equally new row before it would be a newest row too.
      obtain ⟨harow, har⟩ := hds.mem_iff.mp (List.mem_append_left _ ha)
      refine lt_of_le_of_ne (hd'.2.2.2 a harow har he hi) fun heq => ?_
      refine hbefore a ha ⟨harow, har, hi, fun x hx hxr hxe hxi => ?_⟩ (he.trans he')
      rw [heq]
      exact hd'.2.2.2 x hx hxr (hxe.trans he) hxi
    · obtain ⟨hbrow, hbr⟩ := hds.mem_iff.mp (List.mem_append_right _ (List.mem_cons_of_mem _ hb))
      exact hd'.2.2.2 b hbrow hbr he hi
  rw [latestMutable_getElem?, ← he', hentry, Option.map_some]

/-- Rows with the property can come first among those of their `created_at`. -/
theorem Database.exists_order_preferring (db : Database) (r : ReceiptId)
    (P : WebhookDelivery → Prop) :
    ∃ ds, db.DeliveriesForReceipt r ds ∧
      ds.Pairwise fun x y => x.createdAt < y.createdAt ∨ (P y → P x) := by
  classical
  let le := fun x y : WebhookDelivery =>
    decide (x.createdAt < y.createdAt ∨ x.createdAt = y.createdAt ∧ (P y → P x))
  have htrans : ∀ x y z, le x y = true → le y z = true → le x z = true := by
    intro x y z hxy hyz
    rw [decide_eq_true_eq] at hxy hyz ⊢
    rcases hxy with hxy | ⟨hxy, hp⟩ <;> rcases hyz with hyz | ⟨hyz, hq⟩
    · exact Or.inl (hxy.trans hyz)
    · exact Or.inl (hyz ▸ hxy)
    · exact Or.inl (hxy ▸ hyz)
    · exact Or.inr ⟨hxy.trans hyz, hp ∘ hq⟩
  have htotal : ∀ x y, (le x y || le y x) = true := by
    intro x y
    rw [Bool.or_eq_true, decide_eq_true_eq, decide_eq_true_eq]
    rcases lt_trichotomy x.createdAt y.createdAt with h | h | h
    · exact Or.inl (Or.inl h)
    · by_cases hx : P x
      · exact Or.inl (Or.inr ⟨h, fun _ => hx⟩)
      · exact Or.inr (Or.inr ⟨h.symm, fun h => absurd h hx⟩)
    · exact Or.inr (Or.inl h)
  have hsorted := List.pairwise_mergeSort htrans htotal
    (db.deliveries.rows.filter fun d => d.receiptId = r)
  refine ⟨_, ⟨List.mergeSort_perm _ le, hsorted.imp fun {x y} h => ?_⟩, hsorted.imp fun {x y} h => ?_⟩
  · rcases of_decide_eq_true h with h | ⟨h, -⟩
    · exact h.le
    · exact h.le
  · rcases of_decide_eq_true h with h | ⟨-, h⟩
    · exact Or.inl h
    · exact Or.inr h

/-- **Ties can be broken either way**: some order shows, for every emitter that has a newest row
with the property, the state of such a row. -/
theorem Database.exists_order_showing (db : Database) (r : ReceiptId)
    (P : WebhookDelivery → Prop) :
    ∃ ds, db.DeliveriesForReceipt r ds ∧ ∀ d, db.Latest r d → P d →
      ∃ d', db.Latest r d' ∧ P d' ∧
        (latestMutablePerEmitter ds)[d.emitterName]? = some d'.state := by
  obtain ⟨ds, hds, hpref⟩ := db.exists_order_preferring r P
  refine ⟨ds, hds, fun d hd hP => ?_⟩
  obtain ⟨d', as, bs, rfl, hd', he', hbefore, hshown⟩ := hds.exists_first hd
  refine ⟨d', hd', ?_, hshown⟩
  rcases List.mem_append.mp (hds.mem_iff.mpr ⟨hd.1, hd.2.1⟩) with hmem | hmem
  · exact absurd rfl (hbefore d hmem hd)
  · rcases List.mem_cons.mp hmem with rfl | hmem
    · exact hP
    · have hle := (List.pairwise_cons.mp (List.pairwise_append.mp hpref).2.1).1 d hmem
      rcases hle with hlt | hle
      · exact absurd hlt (not_lt.mpr (hd'.2.2.2 d hd.1 hd.2.1 he'.symm hd.2.2.1))
      · exact hle hP

end Latest

end Hookbox
