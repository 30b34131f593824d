/-
# Paging through the dead-letter view

A client of `GET /api/dlq` or `hookbox dlq list` asks for `list_dlq` with offsets `0`, `n`, `2 n`, …
until it gets an empty page.  `list_dlq` sorts by `created_at` and by nothing else, and all the rows
that one transaction inserts have the same `created_at`.  The database may return those in another
order for every page.

* `dlq_pagination_iff`: the pages list every dead-lettered row once exactly when no group of rows with
  one `created_at` lies across the end of a page and every receipt can be read.
* `dlq_pagination_fan_out`: one request for two emitters, and pages of one row.
-/
import Hookbox.Lib.Paging
import Hookbox.DeadLetters

namespace Hookbox

namespace Database

/-! ## 1. What is asked for -/

/-- The rows of the view, with and without its filter. -/
def dlqRows (db : Database) (emitterName : Option String) : List WebhookDelivery :=
  db.deliveries.rows.filter fun d => InDlq emitterName d

/-- **The pages are the view**: whatever order each request finds, a client that asks for pages of `n`
rows until one is empty has every dead-lettered row exactly once. -/
def PaginationComplete (db : Database) (emitterName : Option String) (n : ℕ) : Prop :=
  ∀ answer : ℕ → Except StorageError (List (WebhookDelivery × WebhookReceipt)),
    (∀ k : ℕ, db.ListDlq emitterName n (k * n : ℕ) (answer k)) →
    ∃ items, Paging.Collected answer items ∧ (items.map (·.1)).Perm (db.dlqRows emitterName)

/-- No page ends between two rows with the same `created_at`: for no row of the view, a multiple of
`n` lies between the number of rows created after it and the number of rows created with it or
after it. -/
def NoSplitGroup (db : Database) (emitterName : Option String) (n : ℕ) : Prop :=
  ∀ d ∈ db.dlqRows emitterName, ∀ k : ℕ,
    ¬ (((db.dlqRows emitterName).countP fun d' => d.createdAt < d'.createdAt) < k * n ∧
      k * n < (db.dlqRows emitterName).countP fun d' => d.createdAt ≤ d'.createdAt)

/-! ## 2. Pages of the view -/

/-- The rank of a row: `ORDER BY created_at DESC`. -/
def dlqRank (d : WebhookDelivery) : Timestampᵒᵈ := OrderDual.toDual d.createdAt

section Pages

variable {db : Database} {emitterName : Option String} {n : ℕ}

theorem dlqRows_scan_iff {scan : List WebhookDelivery} :
    db.DlqRows emitterName scan ↔ Paging.Scan dlqRank (db.dlqRows emitterName) scan := Iff.rfl

theorem noSplitGroup_iff :
    db.NoSplitGroup emitterName n ↔
      ∀ k, Paging.Clean dlqRank (db.dlqRows emitterName) (k * n) :=
  ⟨fun h k d hd => h d hd k, fun h d hd k => h k d hd⟩

theorem nodup_dlqRows : (db.dlqRows emitterName).Nodup :=
  db.deliveries.nodup_rows.sublist List.filter_sublist

theorem listDlq_page (scan : List WebhookDelivery) (k : ℕ) :
    db.listDlq scan n (k * n : ℕ) = (Paging.page n k scan).mapM db.loadClaimed := by
  have hoffset : ¬ (((k * n : ℕ) : ℤ) < 0) := by omega
  have hlimit : ¬ ((n : ℤ) < 0) := by omega
  rw [listDlq, paginate, if_neg hlimit, if_neg hoffset, Int.toNat_natCast, Int.toNat_natCast]
  rfl

/-- The scans behind the answers. -/
theorem exists_scans {answer : ℕ → Except StorageError (List (WebhookDelivery × WebhookReceipt))}
    (h : ∀ k : ℕ, db.ListDlq emitterName n (k * n : ℕ) (answer k)) :
    ∃ scans : ℕ → List WebhookDelivery,
      (∀ k, Paging.Scan dlqRank (db.dlqRows emitterName) (scans k)) ∧
        ∀ k, answer k = (Paging.page n k (scans k)).mapM db.loadClaimed := by
  choose scans hscans hanswer using h
  exact ⟨scans, hscans, fun k => (hanswer k).trans (listDlq_page _ k)⟩

/-- What is collected, in terms of the scans. -/
theorem map_fst_collected {scans : ℕ → List WebhookDelivery} {m : ℕ}
    {pages : ℕ → List (WebhookDelivery × WebhookReceipt)}
    (h : ∀ k < m, (Paging.page n k (scans k)).mapM db.loadClaimed = .ok (pages k)) :
    ((List.range m).flatMap pages).map (·.1) = Paging.pages n scans m := by
  rw [List.map_flatMap, Paging.pages]
  exact List.flatMap_congr fun k hk => (mapM_loadClaimed_fst (h k (List.mem_range.mp hk))).symm

/-- A scan of the view exists. -/
theorem exists_scan (db : Database) (emitterName : Option String) :
    ∃ scan, Paging.Scan dlqRank (db.dlqRows emitterName) scan := by
  obtain ⟨-, scan, hscan, -⟩ := db.exists_listDlq emitterName 0 0
  exact ⟨scan, hscan⟩

/-- The answers of some scans are answers of `list_dlq`. -/
theorem listDlq_of_scans {scans : ℕ → List WebhookDelivery}
    (h : ∀ k, Paging.Scan dlqRank (db.dlqRows emitterName) (scans k)) (k : ℕ) :
    db.ListDlq emitterName n (k * n : ℕ) ((Paging.page n k (scans k)).mapM db.loadClaimed) :=
  ⟨scans k, h k, (listDlq_page _ k).symm⟩

/-! ## 3. Enough, and needed -/

/-- **Clean boundaries and readable receipts are enough.** -/
theorem paginationComplete_of_noSplit (hn : 1 ≤ n) (hclean : db.NoSplitGroup emitterName n)
    (hread : ∀ d ∈ db.dlqRows emitterName, db.ReadableAt d.receiptId) :
    db.PaginationComplete emitterName n := by
  intro answer hanswer
  obtain ⟨scans, hscans, heq⟩ := exists_scans hanswer
  -- Every page can be loaded.
  have hload : ∀ k, ∃ items, (Paging.page n k (scans k)).mapM db.loadClaimed = .ok items :=
    fun k => Except.mapM_succeeds_iff.mpr fun d hd => by
      have hmem := (hscans k).1.mem_iff.mp (List.mem_of_mem_drop (List.mem_of_mem_take hd))
      exact loadClaimed_succeeds_iff.mpr (hread d hmem)
  choose pages hpages using hload
  have hnil : ∀ k, pages k = [] ↔ (db.dlqRows emitterName).length ≤ k * n := fun k => by
    rw [← (hscans k).page_eq_nil_iff hn, mapM_loadClaimed_fst (hpages k), List.map_eq_nil_iff]
  -- The first empty page is page `m`.
  have hempty : ∃ k, (db.dlqRows emitterName).length ≤ k * n :=
    ⟨_, Nat.le_mul_of_pos_right _ hn⟩
  have hend := Nat.find_spec hempty
  refine ⟨(List.range (Nat.find hempty)).flatMap pages,
    ⟨Nat.find hempty, pages, fun k hk => ⟨(heq k).trans (hpages k), fun h => ?_⟩, ?_, rfl⟩, ?_⟩
  · exact Nat.find_min hempty hk ((hnil k).mp h)
  · rw [heq, hpages, (hnil _).mpr hend]
  · rw [map_fst_collected fun k _ => hpages k]
    exact Paging.pages_perm hscans (noSplitGroup_iff.mp hclean) hend

/-- What a complete pagination returns was loaded, so its receipts can be read. -/
theorem PaginationComplete.readable (h : db.PaginationComplete emitterName n)
    {d : WebhookDelivery} (hd : d ∈ db.dlqRows emitterName) : db.ReadableAt d.receiptId := by
  obtain ⟨scan, hscan⟩ := db.exists_scan emitterName
  have hanswer : ∀ k : ℕ, db.ListDlq emitterName n (k * n : ℕ)
      ((Paging.page n k scan).mapM db.loadClaimed) := listDlq_of_scans fun _ => hscan
  obtain ⟨items, ⟨m, pages, hpages, -, rfl⟩, hperm⟩ := h _ hanswer
  have hmem : d ∈ ((List.range m).flatMap pages).map (·.1) := hperm.mem_iff.mpr hd
  rw [map_fst_collected fun k hk => (hpages k hk).1] at hmem
  obtain ⟨k, hk, hdk⟩ := List.mem_flatMap.mp hmem
  exact loadClaimed_succeeds_iff.mp
    (Except.mapM_succeeds_iff.mp ⟨_, (hpages k (List.mem_range.mp hk)).1⟩ d hdk)

/-- **A group across the end of a page spoils the pagination**: some orders show a row twice. -/
theorem PaginationComplete.noSplit (hn : 1 ≤ n) (h : db.PaginationComplete emitterName n) :
    db.NoSplitGroup emitterName n := by
  rw [noSplitGroup_iff]
  intro k
  by_contra hsplit
  obtain ⟨scan, hscan⟩ := db.exists_scan emitterName
  obtain ⟨scans, hscans, i, d, hd, hd'⟩ := Paging.exists_overlap hscan hsplit
  obtain ⟨items, ⟨m, pages, hpages, hend, rfl⟩, hperm⟩ := h _ (listDlq_of_scans hscans)
  rw [map_fst_collected fun k hk => (hpages k hk).1] at hperm
  have hnodup : (Paging.pages n scans m).Nodup := hperm.nodup_iff.mpr nodup_dlqRows
  -- Pages with a row in them come before the empty one.
  have hlt : ∀ {j}, d ∈ Paging.page n j (scans j) → j < m := fun {j} hmem => by
    by_contra hle
    have hnil : Paging.page n m (scans m) = [] := by
      rw [mapM_loadClaimed_fst hend]
      rfl
    have hlength := ((hscans m).page_eq_nil_iff hn m).mp hnil
    have hmono : m * n ≤ j * n := Nat.mul_le_mul_right n (not_lt.mp hle)
    rw [((hscans j).page_eq_nil_iff hn j).mpr (hlength.trans hmono)] at hmem
    exact absurd hmem List.not_mem_nil
  have heq := Paging.eq_of_mem_page hnodup (hlt hd) (hlt hd') hd hd'
  omega

end Pages

end Database

/-- **When the pages are the view**: no group of rows with one `created_at` lies across the end of a
page, and the receipt of every row of the view can be read. -/
theorem dlq_pagination_iff (db : Database) (emitterName : Option String) {n : ℕ} (hn : 1 ≤ n) :
    db.PaginationComplete emitterName n ↔ db.NoSplitGroup emitterName n ∧
      ∀ d ∈ db.dlqRows emitterName, db.ReadableAt d.receiptId := by
  constructor
  · intro h
    exact ⟨h.noSplit hn, fun _ hd => h.readable hd⟩
  · rintro ⟨hclean, hread⟩
    exact Database.paginationComplete_of_noSplit hn hclean hread

/-- A receipt is stored for two emitters, and both deliveries end dead-lettered. -/
def fanOutDead : List StorageOp :=
  [.storeWithDeliveries sampleReceipt ["kafka", "nats"] (fun i => ⟨BitVec.ofNat 128 i⟩) 0,
    .claimPending "kafka" 1 0 [] [⟨0⟩], .claimPending "nats" 1 0 [] [⟨1⟩],
    .mark ⟨0⟩ (.deadLettered "emit error: down"), .mark ⟨1⟩ (.deadLettered "emit error: down")]

/-- One of the rows it leaves. -/
def deadRow (deliveryId : DeliveryId) (emitterName : String) : WebhookDelivery :=
  { Database.newDelivery deliveryId sampleReceipt.receiptId emitterName 0 with
    state := .deadLettered, lastError := some "emit error: down", lastAttemptAt := some 0 }

theorem fanOutDead_run :
    ∃ s, storage.exec ⟨.empty, []⟩ fanOutDead = some s ∧
      s.db.dlqRows none = [deadRow ⟨0⟩ "kafka", deadRow ⟨1⟩ "nats"] ∧
      s.db.ReadableAt sampleReceipt.receiptId :=
  ⟨_, rfl, by decide, _, List.mem_cons_self, rfl, sampleReceipt.toRow_readable⟩

theorem dlq_pagination_iff_one_page :
    ∃ s, storage.exec ⟨.empty, []⟩ fanOutDead = some s ∧ s.db.PaginationComplete none 2 := by
  obtain ⟨s, hrun, hrows, hread⟩ := fanOutDead_run
  refine ⟨s, hrun, (dlq_pagination_iff _ none (by decide)).mpr ⟨?_, ?_⟩⟩
  · intro d hd k
    rw [hrows] at hd ⊢
    have hlength : [deadRow ⟨0⟩ "kafka", deadRow ⟨1⟩ "nats"].countP
        (fun d' => d.createdAt ≤ d'.createdAt) ≤ 2 := List.countP_le_length
    have hfront : [deadRow ⟨0⟩ "kafka", deadRow ⟨1⟩ "nats"].countP
        (fun d' => d.createdAt < d'.createdAt) = 0 := by
      rcases List.mem_pair.mp hd with rfl | rfl <;> decide
    omega
  · intro d hd
    rw [hrows] at hd
    rcases List.mem_pair.mp hd with rfl | rfl <;> exact hread

/-- **The second page repeats the first.**  Both rows have the same `created_at`; with pages of one
row the database may put either first in both answers. -/
theorem dlq_pagination_fan_out :
    ∃ s, storage.exec ⟨.empty, []⟩ fanOutDead = some s ∧
      (∃ item, s.db.ListDlq none 1 0 (.ok [item]) ∧ s.db.ListDlq none 1 1 (.ok [item])) ∧
      ¬ s.db.PaginationComplete none 1 := by
  obtain ⟨s, hrun, hrows, hread⟩ := fanOutDead_run
  refine ⟨s, hrun, ?_, fun h => ?_⟩
  · obtain ⟨item, hitem⟩ := (Database.loadClaimed_succeeds_iff (d := deadRow ⟨0⟩ "kafka")).mpr hread
    have hpage : [deadRow ⟨0⟩ "kafka"].mapM s.db.loadClaimed = .ok [item] :=
      Except.mapM_eq_ok_iff.mpr (.cons hitem .nil)
    refine ⟨item, ⟨[deadRow ⟨0⟩ "kafka", deadRow ⟨1⟩ "nats"], ?_, hpage.symm⟩,
      [deadRow ⟨1⟩ "nats", deadRow ⟨0⟩ "kafka"], ?_, hpage.symm⟩
    · rw [Database.dlqRows_scan_iff, hrows]
      exact ⟨.refl _, by decide⟩
    · rw [Database.dlqRows_scan_iff, hrows]
      exact ⟨.swap _ _ _, by decide⟩
  · have hclean := h.noSplit le_rfl (deadRow ⟨0⟩ "kafka") (by rw [hrows]; exact List.mem_cons_self) 1
    rw [hrows] at hclean
    exact hclean (by decide)

end Hookbox
