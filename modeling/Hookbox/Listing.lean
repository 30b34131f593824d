/-
# The receipt list

`GET /api/receipts` (`list_receipts` in `hookbox-server/src/routes/admin.rs`) asks `Storage::query`
for the receipts in a state and then shows a derived state for each of them.  The filter is a
`WHERE` clause on the column `processing_state`; what is shown comes from the delivery rows.
Since the fan-out nothing moves the column on: it stays as the ingest, or an older version of the
program, wrote it.

* `filterAgrees_iff`: for one database, the list agrees with what it shows for a state exactly when
  the receipts that show the state are those with the state in their column.
* `aggregate_iff_rowsSay`: what the newest delivery rows must say for every order of equally new rows
  to show one state.
* `system_columns`: ingests, workers and replay commands leave the column as it was written, apart
  from the resets of `replay failed`.
-/
import Hookbox.Replay
import Hookbox.Truthful

namespace Hookbox

/-! ## 1. The query and the handler -/

/-- `ReceiptFilter`. -/
structure ReceiptFilter where
  providerName : Option String := none
  processingState : Option ProcessingState := none
  externalReference : Option String := none
  providerEventId : Option String := none
  limit : Option Int := none
  offset : Option Int := none

/-- `$1::text IS NULL OR column = $1`, which a `NULL` in the column does not satisfy. -/
def NullOrEq (param column : Option String) : Prop := param = none ∨ column = param

instance (param column : Option String) : Decidable (NullOrEq param column) := by
  unfold NullOrEq; infer_instance

/-- The `WHERE` clause of `query`. -/
def ReceiptFilter.Matches (filter : ReceiptFilter) (row : ReceiptRow) : Prop :=
  NullOrEq filter.providerName (some row.providerName) ∧
    NullOrEq (filter.processingState.map (·.text)) (some row.processingState) ∧
    NullOrEq filter.externalReference row.externalReference ∧
    NullOrEq filter.providerEventId row.providerEventId

instance (filter : ReceiptFilter) : DecidablePred filter.Matches := fun row => by
  unfold ReceiptFilter.Matches; infer_instance

namespace Database

/-- A possible order of the rows of `query`: `ORDER BY received_at DESC`. -/
def QueryRows (db : Database) (filter : ReceiptFilter) (rows : List ReceiptRow) : Prop :=
  rows.Perm (db.receipts.rows.filter fun row => filter.Matches row) ∧
    rows.Pairwise fun r r' => r'.receivedAt ≤ r.receivedAt

/-- `Storage::query` on rows in one of their orders. -/
def query (rows : List ReceiptRow) (filter : ReceiptFilter) :
    Except StorageError (List WebhookReceipt) :=
  (paginate (filter.limit.getD 1000) (filter.offset.getD 0) rows).bind fun page =>
    page.mapM receiptFromRow

end Database

/-- The query parameters of `list_receipts`. -/
structure ListReceiptsQuery where
  provider : Option String := none
  state : Option ProcessingState := none
  limit : Option Int := none
  offset : Option Int := none

/-- The filter that `list_receipts` makes of its parameters. -/
def ListReceiptsQuery.filter (params : ListReceiptsQuery) : ReceiptFilter where
  providerName := params.provider
  processingState := params.state
  limit := params.limit
  offset := params.offset

/-- The object of a list item: the receipt, with `processing_state` replaced and
`deliveries_summary` added. -/
structure ReceiptListItem where
  receipt : WebhookReceipt
  processingState : ProcessingState
  deliveriesSummary : Std.ExtTreeMap String DeliveryState

/-- `receipt_list_item_json`. -/
def receiptListItemJson (receipt : WebhookReceipt) (deliveries : List WebhookDelivery) :
    ReceiptListItem where
  receipt := receipt
  processingState := receiptAggregateState deliveries receipt.processingState
  deliveriesSummary := receiptDeliveriesSummary deliveries

/-- `list_receipts`, on a database whose statements succeed: `rows` is what the query selects, and
`scan` answers `get_deliveries_for_receipt`. -/
def listReceipts (state : AppState) (headers : HeaderMap) (params : ListReceiptsQuery)
    (rows : List ReceiptRow) (scan : ReceiptId → List WebhookDelivery) :
    Except Response (List ReceiptListItem) :=
  match checkAuth state headers with
  | .error resp => .error resp
  | .ok () =>
    match Database.query rows params.filter with
    | .error e => .error (.storageError e)
    | .ok receipts =>
      .ok (receipts.map fun receipt => receiptListItemJson receipt (scan receipt.receiptId))

/-! ## 2. What is shown, and what is returned -/

/-- The state shown for a row with these deliveries. -/
def ReceiptRow.Displays (row : ReceiptRow) (deliveries : List WebhookDelivery)
    (st : ProcessingState) : Prop :=
  ∃ receipt, receiptFromRow row = .ok receipt ∧
    (receiptListItemJson receipt deliveries).processingState = st

/-- The response contains the receipt. -/
def Returns (result : Except Response (List ReceiptListItem)) (id : ReceiptId) : Prop :=
  ∃ items, result = .ok items ∧ ∃ item ∈ items, item.receipt.receiptId = id

/-- The provider of the row is the one asked for. -/
def ReceiptRow.OfProvider (provider : Option String) (row : ReceiptRow) : Prop :=
  NullOrEq provider (some row.providerName)

/-- **The list agrees with what it shows.**  Whatever the order of the rows, an authorised
`GET /api/receipts?state=st` with a limit that cuts nothing off returns exactly the receipts of the
provider that show `st`, and every item of the response shows `st`. -/
def Database.FilterAgrees (db : Database) (st : ProcessingState) (provider : Option String) :
    Prop :=
  ∀ (state : AppState) (headers : HeaderMap) (limit : Int) (rows : List ReceiptRow)
    (scan : ReceiptId → List WebhookDelivery) (params : ListReceiptsQuery),
    checkAuth state headers = .ok () → db.receipts.rows.length ≤ limit →
    params = ⟨provider, some st, some limit, some 0⟩ → db.QueryRows params.filter rows →
    (∀ id, db.DeliveriesForReceipt id (scan id)) →
    (∀ row ∈ db.receipts.rows, Returns (listReceipts state headers params rows scan) row.receiptId ↔
      row.Displays (scan row.receiptId) st ∧ row.OfProvider provider) ∧
    ∀ items, listReceipts state headers params rows scan = .ok items →
      ∀ item ∈ items, item.processingState = st

section Query

variable {db : Database} {st : ProcessingState} {provider : Option String} {limit : Int}
  {rows : List ReceiptRow} {scan : ReceiptId → List WebhookDelivery}

theorem ReceiptFilter.matches_iff {row : ReceiptRow} {limit offset : Option Int} :
    (ListReceiptsQuery.mk provider (some st) limit offset).filter.Matches row ↔
      row.OfProvider provider ∧ row.processingState = st.text := by
  simp [Matches, ListReceiptsQuery.filter, NullOrEq, ReceiptRow.OfProvider]

/-- The answer of the handler once it is authorised and nothing is cut off. -/
theorem listReceipts_eq {state : AppState} {headers : HeaderMap}
    (hauth : checkAuth state headers = .ok ()) (hlimit : rows.length ≤ limit) :
    listReceipts state headers ⟨provider, some st, some limit, some 0⟩ rows scan
      = match rows.mapM receiptFromRow with
        | .error e => .error (.storageError e)
        | .ok receipts =>
          .ok (receipts.map fun receipt => receiptListItemJson receipt (scan receipt.receiptId)) := by
  have hquery : Database.query rows
      (ListReceiptsQuery.mk provider (some st) (some limit) (some 0)).filter
        = rows.mapM receiptFromRow := by
    show (Database.paginate limit 0 rows).bind _ = _
    rw [Database.paginate_all hlimit]
    rfl
  rw [listReceipts, hauth, hquery]

/-- The receipts that the query selects can all be read. -/
def Database.SelectedReadable (db : Database) (st : ProcessingState) (provider : Option String) :
    Prop :=
  ∀ row ∈ db.receipts.rows, row.OfProvider provider → row.processingState = st.text → row.Readable

section Answer

variable {state : AppState} {headers : HeaderMap} (hauth : checkAuth state headers = .ok ())
  (hlimit : db.receipts.rows.length ≤ limit)
  (hrows : db.QueryRows (ListReceiptsQuery.mk provider (some st) (some limit) (some 0)).filter rows)

include hauth hlimit hrows

omit hauth hlimit in
theorem Database.QueryRows.mem_iff {row : ReceiptRow} :
    row ∈ rows ↔ row ∈ db.receipts.rows ∧ row.OfProvider provider ∧ row.processingState = st.text := by
  rw [hrows.1.mem_iff, List.mem_filter, decide_eq_true_eq, ReceiptFilter.matches_iff]

omit hauth in
theorem Database.QueryRows.length_le : (rows.length : Int) ≤ limit := by
  have hle := List.length_filter_le (fun row => decide
    ((ListReceiptsQuery.mk provider (some st) (some limit) (some 0)).filter.Matches row))
    db.receipts.rows
  rw [hrows.1.length_eq]
  omega

/-- **The items of a response**: one for each selected row, with the state derived for it. -/
theorem listReceipts_ok {items : List ReceiptListItem}
    (h : listReceipts state headers ⟨provider, some st, some limit, some 0⟩ rows scan = .ok items) :
    List.Forall₂ (fun row item => ∃ receipt, receiptFromRow row = .ok receipt ∧
      item = receiptListItemJson receipt (scan row.receiptId)) rows items := by
  rw [listReceipts_eq hauth (Database.QueryRows.length_le hlimit hrows)] at h
  split at h
  · exact absurd h (by simp)
  · rename_i receipts hreceipts
    rw [Except.ok.injEq] at h
    subst h
    rw [List.forall₂_map_right_iff]
    refine (Except.mapM_eq_ok_iff.mp hreceipts).imp fun row receipt hrow => ⟨receipt, hrow, ?_⟩
    rw [(receiptFromRow_ok hrow).1]

/-- The response is there exactly when every selected row can be read. -/
theorem listReceipts_succeeds_iff :
    (∃ items, listReceipts state headers ⟨provider, some st, some limit, some 0⟩ rows scan
      = .ok items) ↔ db.SelectedReadable st provider := by
  constructor
  · rintro ⟨items, h⟩ row hrow hprovider hst
    obtain ⟨item, -, receipt, hreceipt, -⟩ := List.Forall₂.exists_left
      (listReceipts_ok hauth hlimit hrows h) (hrows.mem_iff.mpr ⟨hrow, hprovider, hst⟩)
    exact readable_iff.mpr ⟨receipt, hreceipt⟩
  · intro hread
    obtain ⟨receipts, hreceipts⟩ := Except.mapM_succeeds_iff.mpr fun row hrow => by
      obtain ⟨hmem, hprovider, hst⟩ := hrows.mem_iff.mp hrow
      exact readable_iff.mp (hread row hmem hprovider hst)
    rw [listReceipts_eq hauth (Database.QueryRows.length_le hlimit hrows), hreceipts]
    exact ⟨_, rfl⟩

/-- **What is returned**: the rows with the state in their column, if all of them can be read. -/
theorem returns_iff {row : ReceiptRow} (hrow : row ∈ db.receipts.rows) :
    Returns (listReceipts state headers ⟨provider, some st, some limit, some 0⟩ rows scan)
        row.receiptId ↔
      db.SelectedReadable st provider ∧ row.OfProvider provider ∧ row.processingState = st.text := by
  constructor
  · rintro ⟨items, h, item, hitem, hid⟩
    refine ⟨(listReceipts_succeeds_iff hauth hlimit hrows).mp ⟨items, h⟩, ?_⟩
    obtain ⟨row', hrow', receipt, hreceipt, rfl⟩ :=
      List.Forall₂.exists_right (listReceipts_ok hauth hlimit hrows h) hitem
    obtain ⟨hmem, hprovider, hst⟩ := hrows.mem_iff.mp hrow'
    have hkey : row'.receiptId = row.receiptId := (receiptFromRow_ok hreceipt).1.symm.trans hid
    obtain rfl := Table.eq_of_key_eq hmem hrow hkey
    exact ⟨hprovider, hst⟩
  · rintro ⟨hread, hprovider, hst⟩
    obtain ⟨items, h⟩ := (listReceipts_succeeds_iff hauth hlimit hrows).mpr hread
    obtain ⟨item, hitem, receipt, hreceipt, rfl⟩ := List.Forall₂.exists_left
      (listReceipts_ok hauth hlimit hrows h) (hrows.mem_iff.mpr ⟨hrow, hprovider, hst⟩)
    exact ⟨items, h, _, hitem, (receiptFromRow_ok hreceipt).1⟩

end Answer

/-- The query has an answer. -/
theorem Database.exists_queryRows (db : Database) (filter : ReceiptFilter) :
    ∃ rows, db.QueryRows filter rows := by
  refine ⟨(db.receipts.rows.filter fun row => filter.Matches row).mergeSort
    fun r r' => r'.receivedAt ≤ r.receivedAt, List.mergeSort_perm _ _, ?_⟩
  refine (List.pairwise_mergeSort ?_ ?_ _).imp fun h => of_decide_eq_true h
  · intro a b c hab hbc
    exact decide_eq_true ((of_decide_eq_true hbc).trans (of_decide_eq_true hab))
  · intro a b
    simpa using Int.le_total b.receivedAt a.receivedAt

/-- The answers for all receipts, with a given one for one of them. -/
theorem Database.DeliveriesForReceipt.exists_scan {r : ReceiptId} {ds : List WebhookDelivery}
    (hds : db.DeliveriesForReceipt r ds) :
    ∃ scan : ReceiptId → List WebhookDelivery,
      (∀ id, db.DeliveriesForReceipt id (scan id)) ∧ scan r = ds := by
  refine ⟨Function.update db.deliveriesForReceipt r ds, fun id => ?_, Function.update_self ..⟩
  by_cases hid : id = r
  · subst hid
    rw [Function.update_self]
    exact hds
  · rw [Function.update_of_ne hid]
    exact db.deliveriesForReceipt_spec id

/-- **When the list agrees with what it shows**: in every order of the deliveries, a receipt of the
provider shows the state exactly if its column holds it, and the query can be answered. -/
theorem Database.filterAgrees_iff :
    db.FilterAgrees st provider ↔
      ∀ row ∈ db.receipts.rows, row.OfProvider provider →
        ∀ ds, db.DeliveriesForReceipt row.receiptId ds →
          (row.Displays ds st ↔ row.processingState = st.text ∧ db.SelectedReadable st provider) := by
  constructor
  · intro h row hrow hprovider ds hds
    obtain ⟨rows, hrows⟩ := db.exists_queryRows
      (ListReceiptsQuery.mk provider (some st) (some db.receipts.rows.length) (some 0)).filter
    obtain ⟨scan, hscan, hself⟩ := hds.exists_scan
    have hauth : checkAuth ⟨⟨[], ∅, 0⟩, none⟩ [] = .ok () := rfl
    have hret := (h _ _ _ rows scan _ hauth le_rfl rfl hrows hscan).1 row hrow
    rw [returns_iff hauth le_rfl hrows hrow] at hret
    rw [hself] at hret
    constructor
    · intro hdisplays
      obtain ⟨hread, -, hst⟩ := hret.mpr ⟨hdisplays, hprovider⟩
      exact ⟨hst, hread⟩
    · rintro ⟨hst, hread⟩
      exact (hret.mp ⟨hread, hprovider, hst⟩).1
  · rintro h state headers limit rows scan params hauth hlimit rfl hrows hscan
    constructor
    · intro row hrow
      rw [returns_iff hauth hlimit hrows hrow]
      constructor
      · rintro ⟨hread, hprovider, hst⟩
        exact ⟨(h row hrow hprovider _ (hscan _)).mpr ⟨hst, hread⟩, hprovider⟩
      · rintro ⟨hdisplays, hprovider⟩
        obtain ⟨hst, hread⟩ := (h row hrow hprovider _ (hscan _)).mp hdisplays
        exact ⟨hread, hprovider, hst⟩
    · intro items hitems item hitem
      have hread := (listReceipts_succeeds_iff hauth hlimit hrows).mp ⟨items, hitems⟩
      obtain ⟨row, hrow, receipt, hreceipt, rfl⟩ :=
        List.Forall₂.exists_right (listReceipts_ok hauth hlimit hrows hitems) hitem
      obtain ⟨hmem, hprovider, hst⟩ := hrows.mem_iff.mp hrow
      obtain ⟨receipt', hreceipt', hshown⟩ := (h row hmem hprovider _ (hscan _)).mpr ⟨hst, hread⟩
      rw [hreceipt, Except.ok.injEq] at hreceipt'
      subst hreceipt'
      exact hshown

end Query

/-! ## 3. The newest delivery rows -/

section Newest

variable {db : Database} {r : ReceiptId} {ds : List WebhookDelivery}

/-- For some emitter, all newest rows are in one of these states. -/
def Database.SomeEmitter (db : Database) (r : ReceiptId) (Q : DeliveryState → Prop) : Prop :=
  ∃ d, db.Latest r d ∧ ∀ d', db.Latest r d' → d'.emitterName = d.emitterName → Q d'.state

/-- The newest rows say of the receipt what a column with the state says. -/
def Database.RowsSay (db : Database) (r : ReceiptId) : ProcessingState → Prop
  | .stored => (∀ d, db.Latest r d → d.state ≠ .deadLettered ∧ d.state ≠ .failed) ∧
      db.SomeEmitter r fun st => st = .pending ∨ st = .inFlight
  | .emitted => ∀ d, db.Latest r d → d.state = .emitted
  | .emitFailed => (∀ d, db.Latest r d → d.state ≠ .deadLettered) ∧ db.SomeEmitter r (· = .failed)
  | .deadLettered => db.SomeEmitter r (· = .deadLettered)
  | _ => False

/-- Every order shows only such states: every newest row is in one. -/
theorem Database.forall_shown_iff {Q : DeliveryState → Prop} :
    (∀ ds, db.DeliveriesForReceipt r ds →
        ∀ st ∈ (latestMutablePerEmitter ds).toList.map (·.2), Q st) ↔
      ∀ d, db.Latest r d → Q d.state := by
  constructor
  · intro h d hd
    obtain ⟨ds, hds, hshows⟩ := db.exists_order_showing r (· = d)
    obtain ⟨d', -, rfl, hshown⟩ := hshows d hd rfl
    exact h ds hds _ (mem_latest_states.mpr ⟨_, hshown⟩)
  · intro h ds hds st hst
    obtain ⟨e, he⟩ := mem_latest_states.mp hst
    obtain ⟨d, hd, -, rfl⟩ := hds.latest he
    exact h d hd

/-- Every order shows such a state: one emitter has only newest rows in one. -/
theorem Database.exists_shown_iff {Q : DeliveryState → Prop} :
    (∀ ds, db.DeliveriesForReceipt r ds →
        ∃ st ∈ (latestMutablePerEmitter ds).toList.map (·.2), Q st) ↔ db.SomeEmitter r Q := by
  constructor
  · intro h
    by_contra hnone
    -- Otherwise every emitter has a newest row in another state, and these can be shown together.
    have hother : ∀ d, db.Latest r d → ∃ d', db.Latest r d' ∧ d'.emitterName = d.emitterName ∧
        ¬ Q d'.state := by
      intro d hd
      by_contra hall
      exact hnone ⟨d, hd, fun d' hd' he' => by_contra fun hQ => hall ⟨d', hd', he', hQ⟩⟩
    obtain ⟨ds, hds, hshows⟩ := db.exists_order_showing r fun d => ¬ Q d.state
    obtain ⟨st, hst, hQ⟩ := h ds hds
    obtain ⟨e, he⟩ := mem_latest_states.mp hst
    obtain ⟨d, hd, rfl, -⟩ := hds.latest he
    obtain ⟨d', hd', he', hQ'⟩ := hother d hd
    obtain ⟨d'', -, hQ'', hshown⟩ := hshows d' hd' hQ'
    rw [he', he, Option.some.injEq] at hshown
    exact hQ'' (hshown ▸ hQ)
  · rintro ⟨d, hd, hall⟩ ds hds
    obtain ⟨d', as, bs, -, hd', he', -, hshown⟩ := hds.exists_first hd
    exact ⟨d'.state, mem_latest_states.mpr ⟨_, hshown⟩, hall d' hd' he'⟩

/-- **When every order shows a state**, for a receipt with a mutable row. -/
theorem Database.aggregate_iff_rowsSay {d : WebhookDelivery} (hd : db.Latest r d)
    {fallback st : ProcessingState} :
    (∀ ds, db.DeliveriesForReceipt r ds → receiptAggregateState ds fallback = st) ↔
      db.RowsSay r st := by
  have hsay : (∀ ds, db.DeliveriesForReceipt r ds → receiptAggregateState ds fallback = st) ↔
      ∀ ds, db.DeliveriesForReceipt r ds →
        StatesSay ((latestMutablePerEmitter ds).toList.map (·.2)) st := by
    refine forall₂_congr fun ds hds => aggregateFromStates_eq_iff ?_
    obtain ⟨d', as, bs, -, -, -, -, hshown⟩ := hds.exists_first hd
    exact List.ne_nil_of_mem (mem_latest_states.mpr ⟨_, hshown⟩)
  rw [hsay]
  cases st with
  | deadLettered => simp only [StatesSay, RowsSay, ← exists_shown_iff, exists_eq_right]
  | emitted => exact forall_shown_iff
  | emitFailed =>
    refine Iff.trans ?_ (and_congr (forall_shown_iff (Q := (· ≠ .deadLettered))) exists_shown_iff)
    simp only [StatesSay, exists_eq_right, forall_and]
  | stored =>
    refine Iff.trans ?_ (and_congr
      (forall_shown_iff (Q := fun st => st ≠ .deadLettered ∧ st ≠ .failed)) exists_shown_iff)
    simp only [StatesSay, forall_and]
  | received | verified | verificationFailed | duplicate | processed | replayed =>
    simp only [StatesSay, RowsSay, iff_false]
    exact fun h => h _ (db.deliveriesForReceipt_spec r)

/-- The receipt has no mutable row, or its newest rows still say what the column does. -/
def Database.ColumnHolds (db : Database) (r : ReceiptId) (column : ProcessingState) : Prop :=
  (∀ d ∈ db.deliveries.rows, d.receiptId = r → d.immutable = true) ∨ db.RowsSay r column

theorem Database.aggregate_iff_columnHolds {column : ProcessingState} :
    (∀ ds, db.DeliveriesForReceipt r ds → receiptAggregateState ds column = column) ↔
      db.ColumnHolds r column := by
  by_cases himm : ∀ d ∈ db.deliveries.rows, d.receiptId = r → d.immutable = true
  · refine ⟨fun _ => Or.inl himm, fun _ ds hds => receiptAggregate_of_immutable _ fun d hd => ?_⟩
    obtain ⟨hrow, hr⟩ := hds.mem_iff.mp hd
    exact himm d hrow hr
  · obtain ⟨d, hd, hr, hi⟩ : ∃ d ∈ db.deliveries.rows, d.receiptId = r ∧ d.immutable = false := by
      simpa using himm
    have hspec := db.deliveriesForReceipt_spec r
    obtain ⟨st, hst⟩ := latestMutable_complete (hspec.mem_iff.mpr ⟨hd, hr⟩) hi
    obtain ⟨d', hd', -⟩ := hspec.latest hst
    rw [aggregate_iff_rowsSay hd', ColumnHolds, or_iff_right himm]

end Newest

theorem ReceiptRow.displays_unique {row : ReceiptRow} {ds : List WebhookDelivery}
    {st st' : ProcessingState} (h : row.Displays ds st) (h' : row.Displays ds st') : st = st' := by
  obtain ⟨receipt, hreceipt, rfl⟩ := h
  obtain ⟨receipt', hreceipt', rfl⟩ := h'
  rw [hreceipt, Except.ok.injEq] at hreceipt'
  rw [hreceipt']

/-- A readable row shows its own column in every order exactly if the newest rows say the same. -/
theorem ReceiptRow.displays_column_iff {db : Database} {row : ReceiptRow} (hread : row.Readable)
    {column : ProcessingState} (hcolumn : row.processingState = column.text) :
    (∀ ds, db.DeliveriesForReceipt row.receiptId ds → row.Displays ds column) ↔
      db.ColumnHolds row.receiptId column := by
  rw [← Database.aggregate_iff_columnHolds]
  obtain ⟨receipt, hreceipt⟩ := readable_iff.mp hread
  have hstate : receipt.processingState = column := by
    obtain ⟨-, hp, -⟩ := receiptFromRow_columns hreceipt
    rw [hcolumn, ProcessingState.ofText_text, Except.ok.injEq] at hp
    exact hp.symm
  refine forall₂_congr fun ds hds => ?_
  rw [← hstate]
  constructor
  · rintro ⟨receipt', hreceipt', hshown⟩
    rw [hreceipt, Except.ok.injEq] at hreceipt'
    subst hreceipt'
    exact hshown
  · exact fun h => ⟨receipt, hreceipt, h⟩

/-- **When the list agrees for every state.** -/
theorem Database.forall_filterAgrees_iff {db : Database} {provider : Option String} :
    (∀ st, db.FilterAgrees st provider) ↔
      ∀ row ∈ db.receipts.rows, row.OfProvider provider → row.Readable →
        ∃ st, row.processingState = st.text ∧ db.SelectedReadable st provider ∧
          db.ColumnHolds row.receiptId st := by
  simp only [filterAgrees_iff]
  constructor
  · intro h row hrow hprovider hread
    obtain ⟨receipt, hreceipt⟩ := readable_iff.mp hread
    have hshown := fun ds => show row.Displays ds _ from ⟨receipt, hreceipt, rfl⟩
    have hspec := db.deliveriesForReceipt_spec row.receiptId
    obtain ⟨hcolumn, hsel⟩ := (h _ row hrow hprovider _ hspec).mp (hshown _)
    refine ⟨_, hcolumn, hsel, (row.displays_column_iff hread hcolumn).mp fun ds hds => ?_⟩
    exact (h _ row hrow hprovider ds hds).mpr ⟨hcolumn, hsel⟩
  · intro h st row hrow hprovider ds hds
    constructor
    · intro hshown
      have hread : row.Readable := by
        obtain ⟨receipt, hreceipt, -⟩ := hshown
        exact readable_iff.mpr ⟨receipt, hreceipt⟩
      obtain ⟨st', hcolumn, hsel, hholds⟩ := h row hrow hprovider hread
      have hshown' := (row.displays_column_iff hread hcolumn).mpr hholds ds hds
      rw [ReceiptRow.displays_unique hshown hshown']
      exact ⟨hcolumn, hsel⟩
    · rintro ⟨hcolumn, hsel⟩
      have hread := hsel row hrow hprovider hcolumn
      obtain ⟨st', hcolumn', -, hholds⟩ := h row hrow hprovider hread
      obtain rfl := ProcessingState.text_injective (hcolumn.symm.trans hcolumn')
      exact (row.displays_column_iff hread hcolumn).mpr hholds ds hds

/-! ## 4. The column on a run -/

/-- A step of an ingest, of a worker or of a replay command. -/
def Label.Ordinary : Label → Prop
  | .admin (.updateState _ _ _) => False
  | .admin (.retryFailed _ _) => False
  | _ => True

/-- The step of `hookbox replay failed` for the receipt. -/
def Label.Resets (id : ReceiptId) : Label → Prop
  | .admin (.resetForRetry id') => id' = id
  | _ => False

instance (id : ReceiptId) : DecidablePred (Label.Resets id) := fun l => by
  unfold Label.Resets; split <;> infer_instance

/-- The state a receipt was written with, in runs that start from `db`. -/
def Database.writtenState (db : Database) (id : ReceiptId) : String :=
  match db.receipts.get? id with
  | some row => row.processingState
  | none => "stored"

/-- The column of a receipt after a run from `db`: as it was written, unless it was reset. -/
def Database.columnAfter (db : Database) (ls : List Label) (id : ReceiptId) : String :=
  if ∃ l ∈ ls, l.Resets id then "emit_failed" else db.writtenState id

theorem Database.columnAfter_snoc (db : Database) (ls : List Label) (l : Label) (id : ReceiptId) :
    db.columnAfter (ls ++ [l]) id
      = if l.Resets id then "emit_failed" else db.columnAfter ls id := by
  unfold columnAfter
  by_cases hl : l.Resets id
  · rw [if_pos hl, if_pos ⟨l, by simp, hl⟩]
  · simp [hl, or_and_right, exists_or]

theorem IngestStep.Effect.receipts_appended {lib : Libraries} {pipe : Pipeline} {call : CallId}
    {db : Database} {cache : InMemoryRecentDedupe} {phase : CallPhase} {o : IngestOutcome}
    (heff : IngestStep.Effect lib pipe call db cache phase o) :
    ∃ new, o.db.receipts.rows = db.receipts.rows ++ new ∧
      ∀ r ∈ new, r.processingState = "stored" := by
  have hnone : ∃ new, db.receipts.rows = db.receipts.rows ++ new ∧
      ∀ r ∈ new, r.processingState = "stored" := ⟨[], by simp, by simp⟩
  have hstore : ∀ {c : IngestCall} {utcNow : Timestamp} {draw : Nat → DeliveryId}
      {now : Timestamp} {db' : Database},
      db.storeWithDeliveries (c.receipt lib utcNow) pipe.emitterNames draw now = .ok (some db') →
      ∃ new, db'.receipts.rows = db.receipts.rows ++ new ∧
        ∀ r ∈ new, r.processingState = "stored" := by
    intro c utcNow draw now db' hs
    obtain ⟨-, -, hrows, -⟩ := Database.storeWithDeliveries_spec hs
    refine ⟨_, hrows, fun r hr => ?_⟩
    rw [List.mem_singleton.mp hr]
    rfl
  cases heff with
  | turnedAway req utcNow reason hphase hverify => exact hnone
  | started c utcNow hphase hverify => exact hnone
  | proceeded c next hphase hnext => exact hnone
  | failed c e hphase => exact hnone
  | stored c utcNow now draw db' hphase hs => exact hstore hs
  | storedLost c utcNow now draw db' e hphase hs => exact hstore hs
  | duplicate c row hphase hrow => exact hnone
  | accepted c cache' hphase => exact hnone

/-- **What a step does to the receipts**: it adds some with the column at `stored`, or resets one
that is there. -/
theorem system_receipts_cases {dep : Deployment} {s s' : Sys} {l : Label} (hl : l.Ordinary)
    (hstep : (system dep).step s l = some s') :
    ((∀ id, ¬ l.Resets id) ∧ ∃ new, s'.db.receipts.rows = s.db.receipts.rows ++ new ∧
      ∀ r ∈ new, r.processingState = "stored") ∨
      ∃ id, l = .admin (.resetForRetry id) ∧ s.db.resetForRetry id = .ok s'.db := by
  cases l with
  | worker i step =>
    obtain ⟨o, -, rfl, -⟩ := system_worker hstep
    exact Or.inl ⟨fun _ => not_false, [], (List.append_nil _).symm, by simp⟩
  | ingest call step =>
    obtain ⟨o, heff, rfl, -⟩ := system_ingest hstep
    exact Or.inl ⟨fun _ => not_false, heff.receipts_appended⟩
  | admin a =>
    obtain ⟨db', hrun, rfl, -⟩ := system_admin hstep
    cases a with
    | updateState id state error => exact absurd hl not_false
    | retryFailed id maxAttempts => exact absurd hl not_false
    | resetForRetry id =>
      refine Or.inr ⟨id, rfl, ?_⟩
      simp only [AdminStep.run, AdminStep.op, StorageOp.step, Option.map_map,
        Option.map_eq_some_iff] at hrun
      obtain ⟨db₁, hs, rfl⟩ := hrun
      exact Except.toOption_eq_some_iff.mp hs
    | insertReplay receiptId e id now =>
      rcases AdminStep.run_cases hrun with ⟨hr, -⟩ | ⟨hqueued, -⟩
      · exact Or.inl ⟨fun _ => not_false, [], by rw [hr, List.append_nil], by simp⟩
      · exact absurd hqueued (by simp [AdminStep.queued])
    | insertReplays receiptId names draw now =>
      rcases AdminStep.run_cases hrun with ⟨hr, -⟩ | ⟨hqueued, -⟩
      · exact Or.inl ⟨fun _ => not_false, [], by rw [hr, List.append_nil], by simp⟩
      · exact absurd hqueued (by simp [AdminStep.queued])

/-- The columns of the receipts after a run, and the receipts that are there. -/
structure Sys.Columns (db : Database) (ls : List Label) (s : Sys) : Prop where
  column : ∀ row ∈ s.db.receipts.rows, row.processingState = db.columnAfter ls row.receiptId
  kept : ∀ id, id ∈ db.receipts.keys ∨ (∃ l ∈ ls, l.Resets id) → id ∈ s.db.receipts.keys

theorem Sys.Columns.start (dep : Deployment) (db : Database) :
    Sys.Columns db [] (.start dep db) where
  column row hrow := by
    rw [Database.columnAfter, if_neg (by simp), Database.writtenState,
      Table.get?_of_mem (show row ∈ db.receipts.rows from hrow)]
  kept id h := by simpa [Sys.start] using h

theorem Sys.Columns.step {dep : Deployment} {db : Database} {ls : List Label} {s s' : Sys}
    (h : Sys.Columns db ls s) {l : Label} (hl : l.Ordinary)
    (hstep : (system dep).step s l = some s') : Sys.Columns db (ls ++ [l]) s' := by
  rcases system_receipts_cases hl hstep with ⟨hreset, new, hrows, hstored⟩ | ⟨id, rfl, hok⟩
  · have hcolumn : ∀ id, db.columnAfter (ls ++ [l]) id = db.columnAfter ls id := fun id => by
      rw [Database.columnAfter_snoc, if_neg (hreset id)]
    have hkept : ∀ id, id ∈ s.db.receipts.keys → id ∈ s'.db.receipts.keys := by
      intro id hid
      rw [Table.keys, hrows, List.map_append]
      exact List.mem_append_left _ hid
    refine ⟨fun row hrow => ?_, fun id hid => hkept id (h.kept id (hid.imp_right ?_))⟩
    · rw [hcolumn]
      rw [hrows] at hrow
      rcases List.mem_append.mp hrow with hold | hnew
      · exact h.column row hold
      · -- The id of a new receipt was not there before, so nothing was written under it.
        have hpk := s'.db.receipts.pk
        rw [hrows, List.map_append, List.nodup_append] at hpk
        have hfresh : row.receiptId ∉ s.db.receipts.keys := fun hmem =>
          hpk.2.2 _ hmem _ (List.mem_map_of_mem hnew) rfl
        have hnot := fun hor => hfresh (h.kept row.receiptId hor)
        rw [hstored row hnew, Database.columnAfter, if_neg fun hr => hnot (Or.inr hr),
          Database.writtenState]
        cases hget : db.receipts.get? row.receiptId with
        | none => rfl
        | some row' =>
          refine absurd (Or.inl ?_) hnot
          rw [← Table.key_of_get? hget]
          exact Table.key_mem_keys (Table.mem_of_get? hget)
    · rintro ⟨l', hl', hid⟩
      rcases List.mem_append.mp hl' with hl' | hl'
      · exact ⟨l', hl', hid⟩
      · rw [List.mem_singleton.mp hl'] at hid
        exact absurd hid (hreset _)
  · obtain ⟨hid, -, hkeys, hrows⟩ := Database.resetForRetry_ok hok
    refine ⟨fun row hrow => ?_, fun id' hid' => ?_⟩
    · rw [hrows] at hrow
      obtain ⟨row₀, hrow₀, rfl⟩ := List.mem_map.mp hrow
      rw [Database.columnAfter_snoc]
      split
      · rename_i heq
        exact (if_pos heq.symm).symm
      · rename_i hne
        have hnot : ¬ Label.Resets row₀.receiptId (.admin (.resetForRetry id)) :=
          fun heq : id = row₀.receiptId => hne heq.symm
        rw [if_neg hnot]
        exact h.column row₀ hrow₀
    · rw [hkeys]
      rcases hid' with hid' | ⟨l', hl', hid'⟩
      · exact h.kept id' (Or.inl hid')
      · rcases List.mem_append.mp hl' with hl' | hl'
        · exact h.kept id' (Or.inr ⟨l', hl', hid'⟩)
        · rw [List.mem_singleton.mp hl'] at hid'
          obtain rfl : id = id' := hid'
          exact hid

/-- **The column after a run** of ingests, workers and replay commands. -/
theorem system_columns {dep : Deployment} {db : Database} {ls : List Label} {s : Sys}
    (hls : ∀ l ∈ ls, l.Ordinary) (h : (system dep).exec (.start dep db) ls = some s) :
    Sys.Columns db ls s := by
  induction ls using List.reverseRecOn generalizing s with
  | nil =>
    rw [Lts.exec_nil, Option.some.injEq] at h
    subst h
    exact .start dep db
  | append_singleton ls l ih =>
    obtain ⟨t, ht, hstep⟩ := Lts.exec_snoc.mp h
    exact (ih (fun l hl => hls l (List.mem_append_left _ hl)) ht).step (hls l (by simp)) hstep

/-- **The list agrees with what it shows** after a run exactly when, of the receipts of the
provider that can be read, each has a column that names a state (as it was written or reset), can be
returned for it, and has no mutable delivery row or newest ones that still say the same. -/
theorem list_filter_iff {dep : Deployment} {db : Database} {ls : List Label} {s : Sys}
    (hls : ∀ l ∈ ls, l.Ordinary) (h : (system dep).exec (.start dep db) ls = some s)
    (provider : Option String) :
    (∀ st, s.db.FilterAgrees st provider) ↔
      ∀ row ∈ s.db.receipts.rows, row.OfProvider provider → row.Readable →
        ∃ st, db.columnAfter ls row.receiptId = st.text ∧ s.db.SelectedReadable st provider ∧
          s.db.ColumnHolds row.receiptId st := by
  rw [Database.forall_filterAgrees_iff]
  refine forall₂_congr fun row hrow => ?_
  rw [(system_columns hls h).column row hrow]

/-- One accepted request, which no worker has claimed yet. -/
theorem list_filter_iff_accepted :
    ∃ s, (system sampleDep).exec (.start sampleDep .empty) acceptOne = some s ∧
      s.db.receipts.rows.length = 1 ∧ ∀ st, s.db.FilterAgrees st none := by
  have hone : ∃ s row d, (system sampleDep).exec (.start sampleDep .empty) acceptOne = some s ∧
      s.db.receipts.rows = [row] ∧ s.db.deliveries.rows = [d] ∧ d.receiptId = row.receiptId ∧
        d.immutable = false ∧ d.state = .pending := ⟨_, _, _, rfl, rfl, rfl, rfl, rfl, rfl⟩
  obtain ⟨s, row, d, hrun, hrows, hds, hid, himm, hst⟩ := hone
  have hordinary : ∀ l ∈ acceptOne, l.Ordinary := by
    intro l hl
    fin_cases hl <;> trivial
  have hmem : ∀ {x}, x ∈ s.db.deliveries.rows → x = d := fun hx => by
    rw [hds] at hx
    exact List.mem_singleton.mp hx
  refine ⟨s, hrun, by rw [hrows]; rfl, (list_filter_iff hordinary hrun none).mpr ?_⟩
  intro row₁ hrow₁ _ hread
  rw [hrows, List.mem_singleton] at hrow₁
  subst hrow₁
  refine ⟨.stored, ?_, fun row₂ hrow₂ _ _ => ?_, Or.inr ⟨fun x hx => ?_, d, ?_, fun x hx _ => ?_⟩⟩
  · have hreset : ¬ ∃ l ∈ acceptOne, l.Resets row₁.receiptId := by
      rintro ⟨l, hl, hreset⟩
      fin_cases hl <;> exact hreset
    rw [Database.columnAfter, if_neg hreset]
    rfl
  · rw [hrows, List.mem_singleton] at hrow₂
    rw [hrow₂]
    exact hread
  · rw [hmem hx.1, hst]
    decide
  · refine ⟨by rw [hds]; exact List.mem_cons_self, hid, himm, fun x hx _ _ _ => ?_⟩
    rw [hmem hx]
  · rw [hmem hx.1]
    exact Or.inl hst

/-- **A delivered receipt is listed as stored and shown as emitted**, and is not listed as
emitted. -/
theorem list_shows_emitted :
    ∃ s, (system sampleDep).exec (.start sampleDep .empty) delivered = some s ∧
      (∃ row ∈ s.db.receipts.rows, row.processingState = "stored" ∧
        ∃ ds, s.db.DeliveriesForReceipt row.receiptId ds ∧ row.Displays ds .emitted) ∧
      ¬ s.db.FilterAgrees .stored none ∧ ¬ s.db.FilterAgrees .emitted none := by
  have hrow : ∃ s row, (system sampleDep).exec (.start sampleDep .empty) delivered = some s ∧
      s.db.receipts.rows = [row] ∧ row.processingState = "stored" ∧ row.Readable ∧
        ∃ ds, s.db.DeliveriesForReceipt row.receiptId ds ∧ row.Displays ds .emitted := by
    refine ⟨_, _, rfl, rfl, rfl, WebhookReceipt.toRow_readable _, _, ⟨List.Perm.refl _, by decide⟩,
      _, rfl, by decide⟩
  obtain ⟨s, row, hrun, hrows, hcolumn, hread, ds, hds, hshown⟩ := hrow
  have hmem : row ∈ s.db.receipts.rows := by rw [hrows]; exact List.mem_cons_self
  refine ⟨s, hrun, ⟨row, hmem, hcolumn, ds, hds, hshown⟩, fun h => ?_, fun h => ?_⟩
  · have hsel : s.db.SelectedReadable .stored none := by
      intro row' hrow' _ _
      rw [hrows] at hrow'
      rw [List.mem_singleton.mp hrow']
      exact hread
    have hstored :=
      (Database.filterAgrees_iff.mp h row hmem (Or.inl rfl) ds hds).mpr ⟨hcolumn, hsel⟩
    exact absurd (ReceiptRow.displays_unique hshown hstored) (by decide)
  · have hemitted := (Database.filterAgrees_iff.mp h row hmem (Or.inl rfl) ds hds).mp hshown
    exact absurd (hcolumn.symm.trans hemitted.1) (by decide)

end Hookbox
