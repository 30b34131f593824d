/-
# The dead-letter view

`list_dlq` and `count_dlq` (`hookbox-postgres/src/storage.rs`) look at rows: every row in state
`dead_lettered` is in the view.  The state that is shown for a receipt looks at the latest mutable
row of each emitter.  The two disagree about a row that migration 0002 backfilled, and about a row
that a replay has superseded: it stays in the view after the replay was emitted.

* `Database.dlqAgrees_iff`: in one database, the view agrees with the derived state exactly when
  every dead-lettered row is the newest of its receipt and emitter.
* `dlq_agrees_iff`: along a run, it agrees in every state exactly when the migration backfilled no
  dead-lettered row, no replay is queued over a dead-lettered row, and only newest rows are
  dead-lettered.
-/
import Hookbox.Accounting
import Hookbox.Replay
import Hookbox.Truthful

namespace Hookbox

/-! ## 1. The view -/

namespace Database

/-- The `WHERE` clause of `list_dlq`, with and without its filter. -/
def InDlq (emitterName : Option String) (d : WebhookDelivery) : Prop :=
  d.state = .deadLettered ∧
    match emitterName with
    | some name => d.emitterName = name
    | none => True

instance (emitterName : Option String) : DecidablePred (InDlq emitterName) := fun d => by
  unfold InDlq; cases emitterName <;> infer_instance

/-- A possible order of the rows of `list_dlq`: `ORDER BY created_at DESC`. -/
def DlqRows (db : Database) (emitterName : Option String) (rows : List WebhookDelivery) : Prop :=
  rows.Perm (db.deliveries.rows.filter fun d => InDlq emitterName d) ∧
    rows.Pairwise fun d d' => d'.createdAt ≤ d.createdAt

/-- `DeliveryStorage::list_dlq` on rows in one of their orders.  The loop that loads the receipts
is the one of `claim_pending`. -/
def listDlq (db : Database) (rows : List WebhookDelivery) (limit offset : Int) :
    Except StorageError (List (WebhookDelivery × WebhookReceipt)) :=
  (paginate limit offset rows).bind fun page => page.mapM db.loadClaimed

/-- A possible answer of `list_dlq`. -/
def ListDlq (db : Database) (emitterName : Option String) (limit offset : Int)
    (result : Except StorageError (List (WebhookDelivery × WebhookReceipt))) : Prop :=
  ∃ rows, db.DlqRows emitterName rows ∧ result = db.listDlq rows limit offset

end Database

/-- The answer contains a row for this receipt and emitter. -/
def Reports (result : Except StorageError (List (WebhookDelivery × WebhookReceipt)))
    (receiptId : ReceiptId) (emitterName : String) : Prop :=
  ∃ items, result = .ok items ∧
    ∃ item ∈ items, item.1.receiptId = receiptId ∧ item.1.emitterName = emitterName

/-- **The view agrees with the derived state**, however rows of equal `created_at` are ordered:
with a limit that cuts nothing off, `list_dlq` has a row for exactly the receipts and emitters that
are shown as dead-lettered, and `count_dlq` is the number of these receipts. -/
structure Database.DlqAgrees (db : Database) : Prop where
  list : ∀ emitterName (limit : Int) result, db.deliveries.rows.length ≤ limit →
    db.ListDlq emitterName limit 0 result →
    ∀ r e, (∀ name, emitterName = some name → name = e) → ∀ ds, db.DeliveriesForReceipt r ds →
      (Reports result r e ↔ (receiptDeliveriesSummary ds)[e]? = some .deadLettered)
  count : ∀ e (ds : ReceiptId → List WebhookDelivery), (∀ r, db.DeliveriesForReceipt r (ds r)) →
    db.countDlq e = (db.receipts.rows.filter fun row =>
      (receiptDeliveriesSummary (ds row.receiptId))[e]? = some .deadLettered).length

/-- A mutable row that was created after every other mutable row of its receipt and emitter. -/
def Database.Newest (db : Database) (d : WebhookDelivery) : Prop :=
  d.immutable = false ∧
    ∀ d' ∈ db.deliveries.rows, d'.immutable = false → d'.receiptId = d.receiptId →
      d'.emitterName = d.emitterName → d'.deliveryId ≠ d.deliveryId → d'.createdAt < d.createdAt

/-- Every dead-lettered row is the newest of its receipt and emitter. -/
def Database.DeadNewest (db : Database) : Prop :=
  ∀ d ∈ db.deliveries.rows, d.state = .deadLettered → db.Newest d

/-! ## 2. The answer of `list_dlq` -/

section List

variable {db : Database} {emitterName : Option String} {limit : Int}
  {result : Except StorageError (List (WebhookDelivery × WebhookReceipt))}

/-- The loop returns its rows, each with a receipt. -/
theorem mapM_loadClaimed_fst {rows : List WebhookDelivery}
    {items : List (WebhookDelivery × WebhookReceipt)}
    (h : rows.mapM db.loadClaimed = .ok items) : rows = items.map (·.1) := by
  have hall := (Except.mapM_eq_ok_iff.mp h).imp fun d p hp => (loadClaimed_fst hp).symm
  rw [← List.forall₂_eq_eq_eq]
  exact List.forall₂_map_right_iff.mpr hall

/-- **What `list_dlq` reports**: the dead-lettered rows of its filter, provided that the receipt of
each of them can be read. -/
theorem reports_iff (hlimit : db.deliveries.rows.length ≤ limit)
    (h : db.ListDlq emitterName limit 0 result) {r : ReceiptId} {e : String} :
    Reports result r e ↔
      (∀ d ∈ db.deliveries.rows, Database.InDlq emitterName d → db.ReadableAt d.receiptId) ∧
        ∃ d ∈ db.deliveries.rows, Database.InDlq emitterName d ∧ d.receiptId = r ∧
          d.emitterName = e := by
  obtain ⟨rows, ⟨hperm, -⟩, rfl⟩ := h
  have hmem : ∀ d, d ∈ rows ↔ d ∈ db.deliveries.rows ∧ Database.InDlq emitterName d := by
    intro d
    rw [hperm.mem_iff, List.mem_filter, decide_eq_true_eq]
  have hlength : (rows.length : Int) ≤ limit := by
    have hle := List.length_filter_le (fun d => decide (Database.InDlq emitterName d))
      db.deliveries.rows
    rw [hperm.length_eq]
    omega
  have hall : db.listDlq rows limit 0 = rows.mapM db.loadClaimed := by
    rw [Database.listDlq, Database.paginate_all hlength]
    rfl
  rw [hall]
  constructor
  · rintro ⟨items, hitems, item, hitem, hr, he⟩
    have hrow : item.1 ∈ rows := mapM_loadClaimed_fst hitems ▸ List.mem_map_of_mem hitem
    refine ⟨fun d hd hin => ?_, item.1, ((hmem _).mp hrow).1, ((hmem _).mp hrow).2, hr, he⟩
    exact Database.loadClaimed_succeeds_iff.mp
      (Except.mapM_succeeds_iff.mp ⟨items, hitems⟩ d ((hmem d).mpr ⟨hd, hin⟩))
  · rintro ⟨hread, d, hd, hin, hr, he⟩
    obtain ⟨items, hitems⟩ := Except.mapM_succeeds_iff.mpr fun d' hd' =>
      Database.loadClaimed_succeeds_iff.mpr (hread d' ((hmem d').mp hd').1 ((hmem d').mp hd').2)
    obtain ⟨item, hitem, hload⟩ :=
      List.Forall₂.exists_left (Except.mapM_eq_ok_iff.mp hitems) ((hmem d).mpr ⟨hd, hin⟩)
    have hfst := loadClaimed_fst hload
    exact ⟨items, hitems, item, hitem, hfst ▸ hr, hfst ▸ he⟩

end List

/-! ## 3. One database -/

section State

variable {db : Database}

/-- The newest row is the one that is shown, in whatever order the rows come. -/
theorem Database.Newest.summary {d : WebhookDelivery} (hnew : db.Newest d)
    (hd : d ∈ db.deliveries.rows) {ds : List WebhookDelivery}
    (hds : db.DeliveriesForReceipt d.receiptId ds) :
    (receiptDeliveriesSummary ds)[d.emitterName]? = some d.state := by
  have hlatest : db.Latest d.receiptId d := by
    refine ⟨hd, rfl, hnew.1, fun d' hd' hr he hi => ?_⟩
    by_cases hid : d'.deliveryId = d.deliveryId
    · rw [Table.eq_of_key_eq hd' hd hid]
    · exact (hnew.2 d' hd' hi hr he hid).le
  obtain ⟨d', as, bs, -, hd', he', -, hshown⟩ := hds.exists_first hlatest
  have hid : d'.deliveryId = d.deliveryId := by
    by_contra hne
    have hlt := hnew.2 d' hd'.1 hd'.2.2.1 hd'.2.1 he' hne
    exact absurd hlt (not_lt.mpr (hd'.2.2.2 d hd rfl he'.symm hnew.1))
  rw [Table.eq_of_key_eq hd'.1 hd hid] at hshown
  exact hshown

theorem Database.inDlq_iff {emitterName : Option String} {d : WebhookDelivery}
    (h : ∀ name, emitterName = some name → name = d.emitterName) :
    InDlq emitterName d ↔ d.state = .deadLettered := by
  unfold InDlq
  cases emitterName with
  | none => simp
  | some name => simp [h name rfl]

/-- The dead-lettered rows of an emitter, which `count_dlq` counts. -/
def Database.deadRows (db : Database) (e : String) : List WebhookDelivery :=
  db.deliveries.rows.filter fun d => d.emitterName = e ∧ d.state = .deadLettered

theorem Database.mem_deadRows {e : String} {d : WebhookDelivery} :
    d ∈ db.deadRows e ↔ d ∈ db.deliveries.rows ∧ d.emitterName = e ∧ d.state = .deadLettered := by
  rw [deadRows, List.mem_filter, decide_eq_true_eq]

theorem Database.countDlq_eq (db : Database) (e : String) :
    db.countDlq e = ((db.deadRows e).map (·.receiptId)).length := by
  rw [countDlq, List.countP_eq_length_filter, List.length_map, deadRows]

/-- The receipts that are shown as dead-lettered for an emitter. -/
def Database.shownDead (db : Database) (ds : ReceiptId → List WebhookDelivery) (e : String) :
    List ReceiptRow :=
  db.receipts.rows.filter fun row =>
    (receiptDeliveriesSummary (ds row.receiptId))[e]? = some .deadLettered

theorem Database.mem_shownDead {ds : ReceiptId → List WebhookDelivery} {e : String}
    {r : ReceiptId} :
    r ∈ (db.shownDead ds e).map (·.receiptId) ↔
      r ∈ db.receipts.keys ∧ (receiptDeliveriesSummary (ds r))[e]? = some .deadLettered := by
  simp only [shownDead, List.mem_map, List.mem_filter, decide_eq_true_eq, Table.mem_keys]
  constructor
  · rintro ⟨row, ⟨hrow, h⟩, rfl⟩
    exact ⟨⟨row, hrow, rfl⟩, h⟩
  · rintro ⟨⟨row, hrow, rfl⟩, h⟩
    exact ⟨row, ⟨hrow, h⟩, rfl⟩

theorem Database.nodup_shownDead (ds : ReceiptId → List WebhookDelivery) (e : String) :
    ((db.shownDead ds e).map (·.receiptId)).Nodup :=
  db.receipts.pk.sublist (List.filter_sublist.map _)

/-- A receipt that is shown as dead-lettered has a dead-lettered row. -/
theorem Database.shownDead_subset {ds : ReceiptId → List WebhookDelivery}
    (hds : ∀ r, db.DeliveriesForReceipt r (ds r)) (e : String) :
    (db.shownDead ds e).map (·.receiptId) ⊆ (db.deadRows e).map (·.receiptId) := by
  intro r hr
  obtain ⟨d, ⟨hd, hrid, -⟩, he, hst⟩ := (hds r).latest (mem_shownDead.mp hr).2
  exact List.mem_map.mpr ⟨d, mem_deadRows.mpr ⟨hd, he, hst⟩, hrid⟩

/-- **Newest dead rows make the view agree.** -/
theorem Database.dlqAgrees_of_newest (hnew : db.DeadNewest)
    (hread : ∀ d ∈ db.deliveries.rows, d.state = .deadLettered → db.ReadableAt d.receiptId) :
    db.DlqAgrees where
  list := by
    intro emitterName limit result hlimit hlist r e hfilter ds hds
    rw [reports_iff hlimit hlist]
    constructor
    · rintro ⟨-, d, hd, hin, rfl, rfl⟩
      have hst := (inDlq_iff hfilter).mp hin
      rw [(hnew d hd hst).summary hd hds, hst]
    · intro h
      obtain ⟨d, ⟨hd, hr, -⟩, rfl, hst⟩ := hds.latest h
      exact ⟨fun d' hd' hin => hread d' hd' hin.1, d, hd, (inDlq_iff hfilter).mpr hst, hr, rfl⟩
  count := by
    intro e ds hds
    have hnodup : ((db.deadRows e).map (·.receiptId)).Nodup := by
      refine (List.nodup_map_iff_inj_on (db.deliveries.nodup_rows.sublist
        List.filter_sublist)).mpr fun d hd d' hd' hr => ?_
      obtain ⟨hrow, he, hst⟩ := mem_deadRows.mp hd
      obtain ⟨hrow', he', hst'⟩ := mem_deadRows.mp hd'
      by_contra hne
      have hid : d.deliveryId ≠ d'.deliveryId := fun hid => hne (Table.eq_of_key_eq hrow hrow' hid)
      have hlt := (hnew d' hrow' hst').2 d hrow (hnew d hrow hst).1 hr (he.trans he'.symm) hid
      have hgt := (hnew d hrow hst).2 d' hrow' (hnew d' hrow' hst').1 hr.symm (he'.trans he.symm)
        hid.symm
      exact lt_asymm hlt hgt
    have hperm : ((db.deadRows e).map (·.receiptId)).Perm
        ((db.shownDead ds e).map (·.receiptId)) := by
      refine (List.perm_ext_iff_of_nodup hnodup (nodup_shownDead ds e)).mpr fun r => ?_
      refine ⟨fun hr => ?_, fun hr => shownDead_subset hds e hr⟩
      obtain ⟨d, hd, rfl⟩ := List.mem_map.mp hr
      obtain ⟨hrow, rfl, hst⟩ := mem_deadRows.mp hd
      refine mem_shownDead.mpr ⟨db.receiptFk d hrow, ?_⟩
      rw [(hnew d hrow hst).summary hrow (hds _), hst]
    rw [countDlq_eq, hperm.length_eq, List.length_map]
    rfl

/-- `list_dlq` has an answer. -/
theorem Database.exists_listDlq (db : Database) (emitterName : Option String) (limit offset : Int) :
    ∃ result, db.ListDlq emitterName limit offset result := by
  let sorted := (db.deliveries.rows.filter fun d => InDlq emitterName d).mergeSort
    fun d d' => d.createdAt ≤ d'.createdAt
  refine ⟨_, sorted.reverse, ⟨?_, ?_⟩, rfl⟩
  · exact (List.reverse_perm _).trans (List.mergeSort_perm _ _)
  · exact List.pairwise_reverse.mpr (sorted_mergeSort _)

/-- In a view that agrees, every dead-lettered row is shown, in every order of the rows. -/
theorem Database.DlqAgrees.shown (h : db.DlqAgrees) {d : WebhookDelivery}
    (hd : d ∈ db.deliveries.rows) (hst : d.state = .deadLettered) :
    db.ReadableAt d.receiptId ∧ ∀ ds, db.DeliveriesForReceipt d.receiptId ds →
      (receiptDeliveriesSummary ds)[d.emitterName]? = some .deadLettered := by
  obtain ⟨result, hlist⟩ := db.exists_listDlq none db.deliveries.rows.length 0
  have hagree := h.list none _ result le_rfl hlist
  -- The count is positive, so some receipt is shown, and `list_dlq` returns.
  have hcount := h.count d.emitterName db.deliveriesForReceipt db.deliveriesForReceipt_spec
  have hpos : 0 < db.countDlq d.emitterName := by
    rw [countDlq, List.countP_pos_iff]
    exact ⟨d, hd, by simp [hst]⟩
  rw [hcount, List.length_pos_iff_exists_mem] at hpos
  obtain ⟨row, hrow⟩ := hpos
  have hshown := of_decide_eq_true (List.mem_filter.mp hrow).2
  have hreports := (hagree row.receiptId d.emitterName (by simp) _
    (db.deliveriesForReceipt_spec _)).mpr hshown
  have hread := ((reports_iff le_rfl hlist).mp hreports).1
  have hin : InDlq none d := ⟨hst, trivial⟩
  refine ⟨hread d hd hin, fun ds hds => (hagree _ _ (by simp) ds hds).mp ?_⟩
  exact (reports_iff le_rfl hlist).mpr ⟨hread, d, hd, hin, rfl, rfl⟩

/-- In a view that agrees, a receipt has one dead-lettered row for each emitter at most. -/
theorem Database.DlqAgrees.unique (h : db.DlqAgrees) {d d' : WebhookDelivery}
    (hd : d ∈ db.deliveries.rows) (hst : d.state = .deadLettered) (hd' : d' ∈ db.deliveries.rows)
    (hst' : d'.state = .deadLettered) (hr : d'.receiptId = d.receiptId)
    (he : d'.emitterName = d.emitterName) : d' = d := by
  have hlength := h.count d.emitterName db.deliveriesForReceipt db.deliveriesForReceipt_spec
  rw [countDlq_eq] at hlength
  have hsub := List.subperm_of_subset (nodup_shownDead db.deliveriesForReceipt d.emitterName)
    (shownDead_subset db.deliveriesForReceipt_spec d.emitterName)
  have hperm := hsub.perm_of_length_le (by rw [hlength, List.length_map]; exact le_rfl)
  have hnodup := hperm.nodup_iff.mp (nodup_shownDead db.deliveriesForReceipt d.emitterName)
  have hinj := List.inj_on_of_nodup_map hnodup
  exact hinj (mem_deadRows.mpr ⟨hd', he, hst'⟩) (mem_deadRows.mpr ⟨hd, rfl, hst⟩) hr

/-- **A view that agrees has newest dead rows only.** -/
theorem Database.DlqAgrees.newest (h : db.DlqAgrees) : db.DeadNewest := by
  intro d hd hst
  obtain ⟨-, hshown⟩ := h.shown hd hst
  -- Whichever of the newest rows comes first is shown, so there is no other than this one.
  have hunique : ∀ m, db.Latest d.receiptId m → m.emitterName = d.emitterName → m = d := by
    intro m hm he
    obtain ⟨ds, hds, hshows⟩ := db.exists_order_showing d.receiptId (· = m)
    obtain ⟨m', -, rfl, hfirst⟩ := hshows m hm rfl
    have hdead := hshown ds hds
    rw [receiptDeliveriesSummary, ← he, hfirst, Option.some.injEq] at hdead
    exact h.unique hd hst hm.1 hdead hm.2.1 he
  have hspec := db.deliveriesForReceipt_spec d.receiptId
  obtain ⟨m, hlatest, he, -⟩ := hspec.latest (hshown _ hspec)
  rw [hunique m hlatest he] at hlatest
  obtain ⟨-, -, hi, hmax⟩ := hlatest
  refine ⟨hi, fun d' hd' hi' hr he hid => lt_of_le_of_ne (hmax d' hd' hr he hi') fun heq => ?_⟩
  have hlatest' : db.Latest d.receiptId d' := by
    refine ⟨hd', hr, hi', fun x hx hxr hxe hxi => ?_⟩
    rw [heq]
    exact hmax x hx hxr (hxe.trans he) hxi
  exact hid (congrArg _ (hunique d' hlatest' he))

/-- **When the view agrees.**  Every dead-lettered row is the newest of its receipt and emitter, and
its receipt can be read. -/
theorem Database.dlqAgrees_iff :
    db.DlqAgrees ↔ db.DeadNewest ∧
      ∀ d ∈ db.deliveries.rows, d.state = .deadLettered → db.ReadableAt d.receiptId := by
  constructor
  · intro h
    exact ⟨h.newest, fun d hd hst => (h.shown hd hst).1⟩
  · rintro ⟨hnew, hread⟩
    exact dlqAgrees_of_newest hnew hread

end State

/-! ## 4. Steps -/

/-- The statement queues a row for this receipt and emitter, created at `t`. -/
def AdminStep.Queues (a : AdminStep) (r : ReceiptId) (e : String) (t : Timestamp) : Prop :=
  a.target = r ∧ ∃ names draw, a.queued = some (names, draw, t) ∧ e ∈ names

/-- **The condition on a step.**  A row that is dead-lettered is the newest of its receipt and
emitter, and no replay is queued, at the time of a dead-lettered row or later, for the receipt and
emitter of that row. -/
structure KeepsNewest (dep : Deployment) (_h : List Event) (s : Sys) (l : Label) : Prop where
  mark : ∀ c id error, .marked c id (.deadLettered error) true ∈ (system dep).obs s l →
    ∀ d ∈ s.db.deliveries.rows, d.deliveryId = id → s.db.Newest d
  replay : ∀ a, l = .admin a → ∀ d ∈ s.db.deliveries.rows, d.state = .deadLettered →
    ∀ t, a.Queues d.receiptId d.emitterName t → t < d.createdAt

section Rows

variable {db db' : Database} {d : WebhookDelivery}

/-- An `UPDATE` does not change which rows are newest. -/
theorem Database.newest_updateDeliveries {u : DeliveryUpdate} :
    (db.updateDeliveries u).Newest (u.run d) ↔ db.Newest d := by
  simp only [Newest, updateDeliveries_rows, List.forall_mem_map, DeliveryUpdate.run_immutable,
    DeliveryUpdate.run_receiptId, DeliveryUpdate.run_emitterName, DeliveryUpdate.run_deliveryId,
    DeliveryUpdate.run_createdAt]

/-- Appended rows leave a row newest if none of them is as new. -/
theorem Database.newest_append {new : List WebhookDelivery}
    (hrows : db'.deliveries.rows = db.deliveries.rows ++ new)
    (hd : d ∈ db.deliveries.rows) (hmut : ∀ x ∈ new, x.immutable = false) :
    db'.Newest d ↔ db.Newest d ∧ ∀ x ∈ new, x.receiptId = d.receiptId →
      x.emitterName = d.emitterName → x.createdAt < d.createdAt := by
  have hpk := db'.deliveries.pk
  rw [hrows, List.map_append, List.nodup_append] at hpk
  have hid : ∀ x ∈ new, x.deliveryId ≠ d.deliveryId := fun x hx heq =>
    hpk.2.2 _ (List.mem_map_of_mem hd) _ (List.mem_map_of_mem hx) heq.symm
  constructor
  · rintro ⟨hi, hall⟩
    rw [hrows] at hall
    refine ⟨⟨hi, fun x hx => hall x (List.mem_append_left _ hx)⟩, fun x hx hr he => ?_⟩
    exact hall x (List.mem_append_right _ hx) (hmut x hx) hr he (hid x hx)
  · rintro ⟨⟨hi, hold⟩, hnew⟩
    refine ⟨hi, fun x hx hxi hr he hxid => ?_⟩
    rw [hrows] at hx
    rcases List.mem_append.mp hx with hx | hx
    · exact hold x hx hxi hr he hxid
    · exact hnew x hx hr he

/-- New pending rows are not dead-lettered: only the old rows count. -/
theorem Database.deadNewest_append {new : List WebhookDelivery}
    (hrows : db'.deliveries.rows = db.deliveries.rows ++ new)
    (hnew : ∀ x ∈ new, x.state = .pending ∧ x.immutable = false) (hdead : db.DeadNewest) :
    db'.DeadNewest ↔ ∀ d ∈ db.deliveries.rows, d.state = .deadLettered →
      ∀ x ∈ new, x.receiptId = d.receiptId → x.emitterName = d.emitterName →
        x.createdAt < d.createdAt := by
  have hmut : ∀ x ∈ new, x.immutable = false := fun x hx => (hnew x hx).2
  constructor
  · intro h d hd hst
    have hd' : d ∈ db'.deliveries.rows := by
      rw [hrows]
      exact List.mem_append_left _ hd
    exact ((newest_append hrows hd hmut).mp (h d hd' hst)).2
  · intro h d hd hst
    rw [hrows] at hd
    rcases List.mem_append.mp hd with hd | hd
    · exact (newest_append hrows hd hmut).mpr ⟨hdead d hd hst, h d hd hst⟩
    · rw [(hnew d hd).1] at hst
      exact absurd hst (by simp)

end Rows

/-- The rows that an admin statement appends are those it queues. -/
theorem AdminStep.run_rows {db db' : Database} {a : AdminStep} (h : a.run db = some db') :
    ∃ new, db'.deliveries.rows = db.deliveries.rows ++ new ∧
      (∀ x ∈ new, x.state = .pending ∧ x.immutable = false) ∧
      ∀ r e t, a.Queues r e t ↔ ∃ x ∈ new, x.receiptId = r ∧ x.emitterName = e ∧ x.createdAt = t := by
  rcases a.run_cases h with ⟨-, names, draw, now, hqueued, hrows⟩ | ⟨hqueued, u, rfl, -⟩
  · refine ⟨_, hrows, fun x hx => ?_, fun r e t => ⟨?_, ?_⟩⟩
    · obtain ⟨i, name, -, rfl⟩ := Database.mem_newDeliveries hx
      exact ⟨rfl, rfl⟩
    · rintro ⟨rfl, names', draw', hqueued', he⟩
      rw [hqueued, Option.some.injEq, Prod.mk.injEq, Prod.mk.injEq] at hqueued'
      obtain ⟨rfl, rfl, rfl⟩ := hqueued'
      rw [← Database.newDeliveries_names a.target now names draw] at he
      obtain ⟨x, hx, hname⟩ := List.mem_map.mp he
      obtain ⟨i, name, -, rfl⟩ := Database.mem_newDeliveries hx
      exact ⟨_, hx, rfl, hname, rfl⟩
    · rintro ⟨x, hx, hr, he, ht⟩
      obtain ⟨i, name, hname, rfl⟩ := Database.mem_newDeliveries hx
      obtain rfl : now = t := ht
      obtain rfl : name = e := he
      exact ⟨hr, names, draw, hqueued, hname⟩
  · refine ⟨[], (List.append_nil _).symm, by simp, fun r e t => ⟨?_, by simp⟩⟩
    rintro ⟨-, names, draw, hqueued', -⟩
    rw [hqueued] at hqueued'
    exact absurd hqueued' (by simp)

/-- **What a worker step does to the dead-lettered rows**: it leaves them, and adds those that it
marks. -/
theorem WorkerStep.Effect.dead_iff {cfg : WorkerConfig} {i : WorkerId} {db : Database}
    {w : WorkerState} {o : WorkerOutcome} (heff : WorkerStep.Effect cfg i db w o)
    {d : WebhookDelivery} (hd : d ∈ db.deliveries.rows) :
    (o.update.run d).state = .deadLettered ↔ d.state = .deadLettered ∨
      ∃ c error, .marked c d.deliveryId (.deadLettered error) true ∈ o.events := by
  cases heff with
  | quiet w' hclaims hout => simp [DeliveryUpdate.nop]
  | load w' d' receipt hclaims hd' hload hout => simp [DeliveryUpdate.nop]
  | reclaim w' now hclaims hout =>
    have hevents : ¬ ∃ c error, Event.marked c d.deliveryId (.deadLettered error) true
        ∈ db.reclaimEvents cfg.name cfg.leaseDuration now := by
      rintro ⟨c, error, hev⟩
      obtain ⟨d', -, heq⟩ := List.mem_map.mp hev
      exact absurd heq (by simp)
    rw [or_iff_left hevents]
    rcases DeliveryUpdate.reclaimExpired_cases cfg.name cfg.leaseDuration now d with
      ⟨-, heq⟩ | ⟨⟨-, hst, -⟩, heq⟩
    · rw [heq]
    · rw [heq, hst]
      simp
  | claim w' now locked picked hclaims hselect hout =>
    have hevents : ¬ ∃ c error, Event.marked c d.deliveryId (.deadLettered error) true
        ∈ picked.map (.claimed ⟨i, w.claims + 1⟩) := by
      rintro ⟨c, error, hev⟩
      obtain ⟨id, -, heq⟩ := List.mem_map.mp hev
      exact absurd heq (by simp)
    rw [or_iff_left hevents]
    rcases hselect.claim_cases hd with ⟨-, heq⟩ | ⟨-, ⟨-, hst, -⟩, heq⟩
    · rw [heq]
    · rw [heq]
      rcases hst with hst | hst <;> simp [hst]
  | call w' d' receipt hclaims hd' hout => simp [DeliveryUpdate.nop]
  | returned w' d' receipt result hclaims hd' hout => simp [DeliveryUpdate.nop]
  | mark w' x receipt result input hclaims hx hout hfuture =>
    simp only [List.mem_singleton, Event.marked.injEq]
    rcases DeliveryUpdate.mark_cases x.deliveryId (dispatchMark cfg x result input) d with
      ⟨hno, heq⟩ | ⟨hid, hst, heq⟩
    · rw [heq]
      refine (or_iff_left ?_).symm
      rintro ⟨c, error, -, hid, -, htook⟩
      rw [← hid, Database.inFlight_of_mem hd, eq_comm, decide_eq_true_eq] at htook
      exact hno ⟨hid, htook⟩
    · have htook : db.inFlight x.deliveryId = true := by
        rw [← hid, Database.inFlight_of_mem hd, decide_eq_true_eq]
        exact hst
      rw [heq, hst, htook]
      cases dispatchMark cfg x result input with
      | emitted now => simp [DeliveryUpdate.Mark.set]
      | failed count next error => simp [DeliveryUpdate.Mark.set]
      | deadLettered error => simp [DeliveryUpdate.Mark.set, hid]

theorem Database.deadNewest_updateDeliveries {db : Database} {u : DeliveryUpdate} :
    (db.updateDeliveries u).DeadNewest ↔
      ∀ d ∈ db.deliveries.rows, (u.run d).state = .deadLettered → db.Newest d := by
  simp only [DeadNewest, updateDeliveries_rows, List.forall_mem_map, newest_updateDeliveries]

section Step

variable {dep : Deployment} {s s' : Sys}

/-- An ingest commits rows of a receipt that had none. -/
theorem IngestStep.Effect.deadNewest {lib : Libraries} {pipe : Pipeline} {call : CallId}
    {db : Database} {cache : InMemoryRecentDedupe} {phase : CallPhase} {o : IngestOutcome}
    (heff : IngestStep.Effect lib pipe call db cache phase o) (hdead : db.DeadNewest) :
    o.db.DeadNewest := by
  have hstore : ∀ {receipt : WebhookReceipt} {names : List String} {draw : Nat → DeliveryId}
      {now : Timestamp} {db' : Database},
      db.storeWithDeliveries receipt names draw now = .ok (some db') → db'.DeadNewest := by
    intro receipt names draw now db' hs
    obtain ⟨-, hfresh, -, hrows⟩ := Database.storeWithDeliveries_spec hs
    refine (Database.deadNewest_append hrows ?_ hdead).mpr ?_
    · intro x hx
      obtain ⟨i, name, -, rfl⟩ := Database.mem_newDeliveries hx
      exact ⟨rfl, rfl⟩
    · intro d hd _ x hx hr
      obtain ⟨i, name, -, rfl⟩ := Database.mem_newDeliveries hx
      have hid : receipt.receiptId = d.receiptId := hr
      exact absurd (db.receiptFk d hd) (hid ▸ hfresh)
  cases heff with
  | turnedAway req utcNow reason hphase hverify => exact hdead
  | started c utcNow hphase hverify => exact hdead
  | proceeded c next hphase hnext => exact hdead
  | failed c e hphase => exact hdead
  | stored c utcNow now draw db' hphase hs => exact hstore hs
  | storedLost c utcNow now draw db' e hphase hs => exact hstore hs
  | duplicate c row hphase hrow => exact hdead
  | accepted c cache' hphase => exact hdead

/-- **A step keeps the dead rows newest exactly when it meets the condition.** -/
theorem deadNewest_step_iff {l : Label} (hstep : (system dep).step s l = some s')
    (hdead : s.db.DeadNewest) (h : List Event) :
    s'.db.DeadNewest ↔ KeepsNewest dep h s l := by
  cases l with
  | worker i step =>
    obtain ⟨o, heff, rfl, hobs⟩ := system_worker hstep
    show (s.db.updateDeliveries o.update).DeadNewest ↔ _
    rw [Database.deadNewest_updateDeliveries]
    constructor
    · intro hnew
      refine ⟨fun c id error hev d hd hid => ?_, fun a ha => absurd ha (by simp)⟩
      subst hid
      rw [hobs] at hev
      exact hnew d hd ((heff.dead_iff hd).mpr (Or.inr ⟨c, error, hev⟩))
    · intro hkeeps d hd hst
      rcases (heff.dead_iff hd).mp hst with hst | ⟨c, error, hev⟩
      · exact hdead d hd hst
      · exact hkeeps.mark c d.deliveryId error (hobs ▸ hev) d hd rfl
  | ingest call step =>
    obtain ⟨o, heff, rfl, hobs⟩ := system_ingest hstep
    refine iff_of_true (heff.deadNewest hdead) ⟨fun c id error hev => ?_, fun a ha => absurd ha (by simp)⟩
    have hcall := heff.callOf _ (hobs ▸ hev)
    exact absurd hcall (by simp [Event.callOf])
  | admin a =>
    obtain ⟨db, hrun, rfl, hobs⟩ := system_admin hstep
    obtain ⟨new, hrows, hnew, hqueues⟩ := a.run_rows hrun
    show db.DeadNewest ↔ _
    rw [Database.deadNewest_append hrows hnew hdead]
    constructor
    · intro hlt
      refine ⟨fun c id error hev => absurd (hobs ▸ hev) (by simp), ?_⟩
      intro a' ha d hd hst t hq
      cases ha
      obtain ⟨x, hx, hr, he, rfl⟩ := (hqueues _ _ t).mp hq
      exact hlt d hd hst x hx hr he
    · intro hkeeps d hd hst x hx hr he
      exact hkeeps.replay a rfl d hd hst x.createdAt ((hqueues _ _ _).mpr ⟨x, hx, hr, he, rfl⟩)

end Step

/-! ## 5. The receipts of dead rows can be read -/

theorem StorageOp.Effect.readableAt {σ σ' : StorageState} (heff : StorageOp.Effect σ σ')
    {id : ReceiptId} (h : σ.db.ReadableAt id) : σ'.db.ReadableAt id := by
  obtain ⟨row, hrow, hid, hread⟩ := h
  cases heff with
  | unchanged => exact ⟨row, hrow, hid, hread⟩
  | insert db receipts receiptId names draw now hreadable hr hd =>
    exact ⟨row, by rw [hr]; exact List.mem_append_left _ hrow, hid, hread⟩
  | claim e n now locked picked hselect => exact ⟨row, hrow, hid, hread⟩
  | reclaim e lease now => exact ⟨row, hrow, hid, hread⟩
  | mark id' m hclaimed => exact ⟨row, hrow, hid, hread⟩
  | receipt u hreadable =>
    exact ⟨u.run row, List.mem_map_of_mem hrow, (u.run_receiptId row).trans hid,
      hreadable row hread⟩

/-- A receipt that can be read stays so. -/
theorem system_readableAt {dep : Deployment} {s s' : Sys} {l : Label}
    (hstep : (system dep).step s l = some s') {id : ReceiptId} (h : s.db.ReadableAt id) :
    s'.db.ReadableAt id := by
  have hexec : ∀ {ops : List StorageOp} {σ' : StorageState},
      storage.exec ⟨s.db, []⟩ ops = some σ' → σ'.db.ReadableAt id := fun hrun =>
    Lts.exec_invariant (I := fun σ => σ.db.ReadableAt id) h
      (fun σ op σ' hσ hop => (StorageOp.step_cases hop).readableAt hσ) hrun
  cases l with
  | worker i step =>
    obtain ⟨o, -, rfl, -⟩ := system_worker hstep
    exact h
  | ingest call step =>
    obtain ⟨o, heff, rfl, -⟩ := system_ingest hstep
    obtain ⟨ops, hrun⟩ := heff.refines (σ := ⟨s.db, []⟩)
    exact hexec hrun
  | admin a =>
    obtain ⟨db, hrun, rfl, -⟩ := system_admin hstep
    exact hexec (AdminStep.refines (σ := ⟨s.db, []⟩) hrun)

/-- Whatever was dispatched, and whatever was given up, had its receipt loaded. -/
structure Sys.Loaded (s : Sys) : Prop where
  outs : ∀ i, ∀ x ∈ (s.workers i).outstanding, x.receipt.isSome →
    s.db.ReadableAt x.delivery.receiptId
  rows : ∀ d ∈ s.db.deliveries.rows, d.immutable = false → d.state = .deadLettered →
    s.db.ReadableAt d.receiptId

section Loaded

variable {dep : Deployment} {h : List Event} {s : Sys}

/-- What the worker that moves has outstanding afterwards. -/
theorem WorkerStep.Effect.loaded {cfg : WorkerConfig} {i : WorkerId} {db : Database}
    {w : WorkerState} {o : WorkerOutcome} (heff : WorkerStep.Effect cfg i db w o)
    (houts : ∀ x ∈ w.outstanding, x.receipt.isSome → db.ReadableAt x.delivery.receiptId)
    {x : Outstanding} (hx : x ∈ o.next.outstanding) (hsome : x.receipt.isSome) :
    db.ReadableAt x.delivery.receiptId := by
  cases heff with
  | quiet w' hclaims hout => exact houts x (hout x hx) hsome
  | load w' d receipt hclaims hd hload hout =>
    rcases hout x hx with hx | rfl
    · exact houts x hx hsome
    · exact Database.loadClaimed_succeeds_iff.mp ⟨_, hload⟩
  | reclaim w' now hclaims hout =>
    rw [hout] at hx
    simp at hx
  | claim w' now locked picked hclaims hselect hout =>
    obtain ⟨d, -, rfl⟩ := hout x hx
    simp at hsome
  | call w' d receipt hclaims hd hout =>
    obtain ⟨r, hmem, -⟩ := hout x hx
    exact houts ⟨x.delivery, x.receipt, r⟩ hmem hsome
  | returned w' d receipt result hclaims hd hout =>
    rcases hout x hx with hx | ⟨-, -, r, hmem⟩
    · exact houts x hx hsome
    · exact houts ⟨x.delivery, x.receipt, r⟩ hmem hsome
  | mark w' d receipt result input hclaims hd hout hfuture => exact houts x (hout x hx).1 hsome

/-- A step keeps the invariant. -/
theorem Sys.Loaded.step (hs : s.Loaded) (hsound : s.Sound dep h) {l : Label} {s' : Sys}
    (hstep : (system dep).step s l = some s') : s'.Loaded := by
  have hkeep : ∀ {id : ReceiptId}, s.db.ReadableAt id → s'.db.ReadableAt id :=
    fun hread => system_readableAt hstep hread
  have heff := system_step_cases hstep
  generalize (system dep).obs s l = es at heff
  cases heff with
  | environment s' es hworkers hdb hes =>
    refine ⟨fun i x hx hsome => ?_, fun d hd hi hst => ?_⟩
    · rw [hworkers] at hx
      exact hkeep (hs.outs i x hx hsome)
    · obtain ⟨receiptId, now, names, draw, hrows⟩ := hdb.deliveries
      rcases Database.mem_of_append_newDeliveries hrows hd with hd | ⟨k, name, -, rfl⟩
      · exact hkeep (hs.rows d hd hi hst)
      · exact absurd hst (by simp [Database.newDelivery])
  | worker i o heff =>
    refine ⟨fun j x hx hsome => ?_, fun d' hd' hi hst => ?_⟩
    · rcases Sys.outstanding_afterWorker hx with ⟨rfl, hx'⟩ | ⟨-, hx'⟩
      · exact heff.loaded (hs.outs _) hx' hsome
      · exact hs.outs j x hx' hsome
    · obtain ⟨d, hd, rfl⟩ := List.mem_map.mp hd'
      rw [DeliveryUpdate.run_immutable] at hi
      rw [DeliveryUpdate.run_receiptId]
      rcases (heff.dead_iff hd).mp hst with hst | ⟨c, error, hev⟩
      · exact hs.rows d hd hi hst
      · -- The dispatch that gives up has loaded the receipt of its snapshot.
        obtain ⟨j, -, -, ⟨x, receipt, result, input, hx, hid, -⟩, -⟩ :=
          (Sys.Effect.worker i o heff).marked hev
        have hrid : d.receiptId = x.receiptId :=
          congrArg (·.receiptId) ((hsound.outs j _ hx).identity_eq hd hid.symm)
        rw [hrid]
        exact hs.outs j _ hx rfl

theorem system_loaded {db : Database} (hdb : ∀ d ∈ db.deliveries.rows, d.immutable = true)
    {ls : List Label} (h : (system dep).exec (.start dep db) ls = some s) : s.Loaded := by
  have hstart : (Sys.start dep db).Loaded := by
    refine ⟨fun i x hx => ?_, fun d hd hi => ?_⟩
    · simp [Sys.start, WorkerState.outstanding, WorkerPhase.outstanding] at hx
    · exact absurd (hdb d hd) (by simp [hi])
  induction ls using List.reverseRecOn generalizing s with
  | nil =>
    rw [Lts.exec_nil, Option.some.injEq] at h
    exact h ▸ hstart
  | append_singleton ls l ih =>
    obtain ⟨t, ht, hstep⟩ := Lts.exec_snoc.mp h
    exact (ih ht).step (system_sound hdb ht) hstep

end Loaded

/-! ## 6. Runs -/

theorem backfillState_deadLettered {processingState : String}
    (h : backfillState processingState = .deadLettered) : processingState = "dead_lettered" := by
  unfold backfillState at h
  repeat' split at h
  all_goals first | assumption | exact absurd h (by simp)

/-- The backfill makes a dead-lettered row of a dead-lettered receipt, and of no other. -/
theorem migrate0002_dead_iff {pre : Receipts} {draw : Nat → DeliveryId} {db : Database}
    (hdb : migrate0002 pre draw = some db) :
    db.DeadNewest ↔ ∀ r ∈ pre.receipts.rows, r.processingState ≠ "dead_lettered" := by
  have hrows := (migrate0002_spec hdb).2
  constructor
  · intro hdead r hr hst
    obtain ⟨i, hfilter⟩ := backfillRows_filter pre.receipts.rows pre.receipts.pk draw hr
    have hd : backfillRow (draw i) r ∈ db.deliveries.rows := by
      rw [hrows]
      have hmem : backfillRow (draw i) r ∈ [backfillRow (draw i) r] := List.mem_cons_self
      rw [← hfilter] at hmem
      exact (List.mem_filter.mp hmem).1
    have hnew := hdead _ hd (by simp [backfillRow, backfillState, hst])
    exact absurd hnew.1 (by simp [backfillRow])
  · intro hnone d hd hst
    rw [hrows] at hd
    obtain ⟨i, r, hr, rfl⟩ := mem_backfillRows hd
    exact absurd (backfillState_deadLettered hst) (hnone r hr)

/-- **Along a run, the view agrees in every state** exactly when the migrated database had no
dead-lettered receipt and every step meets the condition. -/
theorem dlq_agrees_iff {dep : Deployment} {pre : Receipts} {draw : Nat → DeliveryId}
    {db : Database} (hdb : migrate0002 pre draw = some db) {ls : List Label} {s : Sys}
    (h : (system dep).exec (.start dep db) ls = some s) :
    (∀ ls' t, ls' <+: ls → (system dep).exec (.start dep db) ls' = some t → t.db.DlqAgrees) ↔
      (∀ r ∈ pre.receipts.rows, r.processingState ≠ "dead_lettered") ∧
        (system dep).EveryStep (KeepsNewest dep) (.start dep db) ls := by
  have himm : ∀ d ∈ db.deliveries.rows, d.immutable = true :=
    fun d hd => migrate0002_immutable hdb hd
  rw [← migrate0002_dead_iff hdb]
  constructor
  · intro hagrees
    have hnewest : ∀ ls' t, ls' <+: ls → (system dep).exec (.start dep db) ls' = some t →
        t.db.DeadNewest :=
      fun ls' t hls' ht => (Database.dlqAgrees_iff.mp (hagrees ls' t hls' ht)).1
    refine ⟨hnewest [] _ List.nil_prefix rfl, fun before l after t hls ht => ?_⟩
    have hls' : ls = (before ++ [l]) ++ after := by rw [hls, List.append_assoc]; rfl
    rw [hls'] at h
    obtain ⟨t', ht', -⟩ := Lts.exec_prefix h
    obtain ⟨t₀, ht₀, hstep⟩ := Lts.exec_snoc.mp ht'
    obtain rfl : t = t₀ := Option.some.inj (ht.symm.trans ht₀)
    refine (deadNewest_step_iff hstep ?_ _).mp ?_
    · exact hnewest before t ⟨l :: after, hls.symm⟩ ht
    · exact hnewest (before ++ [l]) t' ⟨after, hls'.symm⟩ ht'
  · rintro ⟨hstart, hsteps⟩ ls' t ⟨after, rfl⟩ ht
    have hdead : t.db.DeadNewest := by
      refine Lts.exec_induction_of_everyStep (I := fun _ s => s.db.DeadNewest) hstart ?_
        hsteps.of_append ht
      intro h s l s' hs hkeeps hstep
      exact (deadNewest_step_iff hstep hs h).mpr hkeeps
    refine Database.dlqAgrees_iff.mpr ⟨hdead, fun d hd hst => ?_⟩
    exact (system_loaded himm ht).rows d hd (hdead d hd hst).1 hst

/-- Along the run of one failure there is one row at most, a mutable one, and no operator. -/
theorem oneFailure_keepsNewest :
    (system singleAttempt).EveryStep (KeepsNewest singleAttempt) (.start singleAttempt .empty)
      oneFailure := by
  have hrows : (oneFailure.inits.all fun ls =>
      ((system singleAttempt).exec (.start singleAttempt .empty) ls).all fun t =>
        t.db.deliveries.rows.all fun d => !d.immutable && decide (d.deliveryId = ⟨0⟩)) = true := by
    decide
  have hlabels : (oneFailure.all fun
      | .admin _ => false
      | _ => true) = true := rfl
  intro before l after t hls ht
  have hrow : ∀ d ∈ t.db.deliveries.rows, d.immutable = false ∧ d.deliveryId = ⟨0⟩ := by
    have hprefix := List.all_eq_true.mp hrows before
      ((List.mem_inits _ _).mpr ⟨l :: after, hls.symm⟩)
    rw [ht] at hprefix
    simpa using hprefix
  refine ⟨fun c id error _ d hd _ => ⟨(hrow d hd).1, fun d' hd' _ _ _ hne => ?_⟩, ?_⟩
  · exact absurd ((hrow d' hd').2.trans (hrow d hd).2.symm) hne
  · rintro a rfl
    have hmem : .admin a ∈ oneFailure := by
      rw [hls]
      exact List.mem_append_right _ List.mem_cons_self
    cases List.all_eq_true.mp hlabels _ hmem

/-- A row is dead-lettered, and the views agree about it. -/
theorem dlq_agrees_iff_dead_lettered :
    ∃ s, (system singleAttempt).exec (.start singleAttempt .empty) oneFailure = some s ∧
      (∃ d ∈ s.db.deliveries.rows, d.state = .deadLettered) ∧
      ∀ ls' t, ls' <+: oneFailure →
        (system singleAttempt).exec (.start singleAttempt .empty) ls' = some t → t.db.DlqAgrees := by
  have hdead : ∃ s, (system singleAttempt).exec (.start singleAttempt .empty) oneFailure = some s ∧
      ∃ d ∈ s.db.deliveries.rows, d.state = .deadLettered :=
    ⟨_, rfl, _, List.mem_cons_self, rfl⟩
  obtain ⟨s, hrun, hrow⟩ := hdead
  refine ⟨s, hrun, hrow, ?_⟩
  exact (dlq_agrees_iff (migrate0002_empty fun _ => ⟨0⟩) hrun).mpr
    ⟨fun r hr => absurd hr List.not_mem_nil, oneFailure_keepsNewest⟩

/-- The one attempt of a request fails, the row is replayed, and another worker delivers it. -/
def deadThenReplayed : List Label :=
  oneFailure ++ [.admin (.insertReplay ⟨1⟩ "kafka" ⟨5⟩ 2000000)] ++ claimAndCall 1 2000000 ⟨5⟩ ++
    answerAndMark 1 2000000 ⟨5⟩ (.ok ())

/-- **The replay is emitted, and the view still reports the row.** -/
theorem dlq_reports_replayed :
    ∃ s, (system singleAttempt).exec (.start singleAttempt .empty) deadThenReplayed = some s ∧
      (∃ result, s.db.ListDlq (some "kafka") 2 0 result ∧ Reports result ⟨1⟩ "kafka") ∧
      (∃ ds, s.db.DeliveriesForReceipt ⟨1⟩ ds ∧
        (receiptDeliveriesSummary ds)["kafka"]? = some .emitted) ∧ ¬ s.db.DlqAgrees := by
  have hlist : ∃ s, (system singleAttempt).exec (.start singleAttempt .empty) deadThenReplayed
      = some s ∧
      (∃ result, s.db.ListDlq (some "kafka") 2 0 result ∧ Reports result ⟨1⟩ "kafka") ∧
      (∃ ds, s.db.DeliveriesForReceipt ⟨1⟩ ds ∧
        (receiptDeliveriesSummary ds)["kafka"]? = some .emitted) ∧
      s.db.deliveries.rows.length = 2 := by
    refine ⟨_, rfl, ⟨_, ⟨_, ⟨List.Perm.refl _, by decide⟩, rfl⟩, _, rfl, _, List.mem_cons_self,
      rfl, rfl⟩, ⟨_, ⟨List.Perm.refl _, by decide⟩, by decide⟩, rfl⟩
  obtain ⟨s, hrun, ⟨result, hresult, hreports⟩, ⟨ds, hds, hemitted⟩, hlen⟩ := hlist
  refine ⟨s, hrun, ⟨result, hresult, hreports⟩, ⟨ds, hds, hemitted⟩, fun h => ?_⟩
  have hdead := (h.list _ 2 result (by simp [hlen]) hresult _ "kafka" (by simp) ds hds).mp hreports
  rw [hemitted] at hdead
  exact absurd hdead (by simp)

end Hookbox
