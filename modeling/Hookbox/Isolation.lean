/-
# Emitter isolation

What one emitter's workers do is of no consequence to any other emitter.  The two-run part of
this is an instance of the unwinding conditions of `Lib.Lts`: the labels of `e`'s workers are
hidden, and everything but the mutable columns of `e`'s rows and the state of `e`'s workers can
be seen.

* `Sys.viewBut`: what can be seen.
* `isolation`: the unwinding conditions hold.
* `emitter_isolation`: the frame, the commutation, and what deleting or replacing the steps of
  `e`'s workers leaves as it was.
-/
import Hookbox.Frame

namespace Hookbox

/-! ## 1. The view -/

/-- What is left of a row of `e`: the columns no `UPDATE` sets. -/
def blank (e : String) (d : WebhookDelivery) : WebhookDelivery :=
  if d.emitterName = e then d.identity else d

/-- The database without the mutable columns of one emitter's rows. -/
structure DatabaseView where
  receipts : Table ReceiptId ReceiptRow ReceiptRow.receiptId
  rows : List WebhookDelivery

def Database.viewBut (e : String) (db : Database) : DatabaseView :=
  ⟨db.receipts, db.deliveries.rows.map (blank e)⟩

/-- The system without the mutable columns and the workers of one emitter. -/
structure SysView where
  db : DatabaseView
  workers : WorkerId → WorkerState
  caches : ServerId → InMemoryRecentDedupe
  calls : CallId → CallPhase

def Sys.viewBut (dep : Deployment) (e : String) (s : Sys) : SysView where
  db := s.db.viewBut e
  workers i := if (dep.workers i).name = e then {} else s.workers i
  caches := s.caches
  calls := s.calls

section Blank

variable (e : String) (d : WebhookDelivery)

@[simp] theorem blank_deliveryId : (blank e d).deliveryId = d.deliveryId := by
  unfold blank
  split <;> rfl

@[simp] theorem blank_emitterName : (blank e d).emitterName = d.emitterName := by
  unfold blank
  split <;> rfl

variable {e d}

theorem blank_of_ne (h : d.emitterName ≠ e) : blank e d = d := if_neg h

/-- An update of one of `e`'s rows cannot be seen. -/
theorem blank_run (u : DeliveryUpdate) (h : d.emitterName = e) :
    blank e (u.run d) = blank e d := by
  have hu : (u.run d).emitterName = e := by rw [u.run_emitterName, h]
  rw [blank, blank, if_pos hu, if_pos h, u.identity_run]

end Blank

section View

variable {e : String} {db db' : Database}

theorem Database.viewBut_keys (h : db.viewBut e = db'.viewBut e) :
    db.deliveries.keys = db'.deliveries.keys := by
  have hkeys : ∀ rows : List WebhookDelivery,
      (rows.map (blank e)).map (·.deliveryId) = rows.map (·.deliveryId) := by
    intro rows
    rw [List.map_map]
    exact List.map_congr_left fun d _ => blank_deliveryId e d
  have hrows := congrArg (fun v => v.rows.map (·.deliveryId)) h
  simp only [Database.viewBut, hkeys] at hrows
  exact hrows

/-- The rows of another emitter, read off the view. -/
theorem Database.deliveriesOf_viewBut (db : Database) {f : String} (hf : f ≠ e) :
    ((db.viewBut e).rows.filter fun d => d.emitterName = f) = db.deliveriesOf f := by
  have hp : ((fun d : WebhookDelivery => decide (d.emitterName = f)) ∘ blank e)
      = fun d => decide (d.emitterName = f) := by
    funext d
    simp
  rw [Database.viewBut, List.filter_map, hp]
  refine (List.map_congr_left fun d hd => ?_).trans (List.map_id _)
  have hname : d.emitterName = f := of_decide_eq_true (List.mem_filter.mp hd).2
  exact blank_of_ne (by rw [hname]; exact hf)

/-- Databases that look the same cannot be told apart by a worker of another emitter. -/
theorem Database.agreeOn_of_viewBut (h : db.viewBut e = db'.viewBut e) {f : String} (hf : f ≠ e) :
    db.AgreeOn f db' := by
  refine ⟨congrArg (·.receipts) h, ?_⟩
  rw [← db.deliveriesOf_viewBut hf, ← db'.deliveriesOf_viewBut hf, h]

/-- An update that leaves the rows of `e` alone, whatever they hold, can be seen through. -/
theorem Database.viewBut_updateDeliveries {u : DeliveryUpdate}
    (hu : ∀ d ∈ db.deliveries.rows, d.emitterName = e → u.run d = d ∧ u.run d.identity = d.identity) :
    (db.updateDeliveries u).viewBut e = ⟨db.receipts, (db.viewBut e).rows.map u.run⟩ := by
  simp only [Database.viewBut, Database.updateDeliveries_receipts, Database.updateDeliveries_rows,
    List.map_map, DatabaseView.mk.injEq, true_and]
  refine List.map_congr_left fun d hd => ?_
  by_cases hname : d.emitterName = e
  · obtain ⟨hsame, hident⟩ := hu d hd hname
    simp only [Function.comp_apply, hsame, blank, if_pos hname, hident]
  · have hname' : (u.run d).emitterName ≠ e := by rw [u.run_emitterName]; exact hname
    simp only [Function.comp_apply, blank_of_ne hname, blank_of_ne hname']

end View

/-! ## 2. What the rest of the system does, seen through the view -/

theorem Database.exists_insertDelivery {db : Database} {d : WebhookDelivery}
    (hfk : d.receiptId ∈ db.receipts.keys) (hpk : d.deliveryId ∉ db.deliveries.keys) :
    ∃ db', db.insertDelivery d = some db' := by
  unfold insertDelivery
  rw [dif_pos hfk]
  split
  · rename_i hnone
    have := Table.insert?_isSome_iff.mpr hpk
    simp [hnone] at this
  · exact ⟨_, rfl⟩

theorem Database.exists_insertReceipt {db : Database} {r : ReceiptRow}
    (hkey : r.dedupeKey ∉ db.receipts.rows.map ReceiptRow.dedupeKey)
    (hpk : r.receiptId ∉ db.receipts.keys) : ∃ db', db.insertReceipt r = .ok (some db') := by
  unfold insertReceipt
  rw [dif_neg hkey]
  split
  · rename_i hnone
    have := Table.insert?_isSome_iff.mpr hpk
    simp [hnone] at this
  · exact ⟨_, rfl⟩

/-- Two results of a statement that look the same. -/
theorem map_eq_map_of_imp {α β : Type} {x y : Option α} {v : α → β}
    (h : ∀ a, x = some a → ∃ b, y = some b ∧ v a = v b)
    (h' : ∀ b, y = some b → ∃ a, x = some a ∧ v b = v a) : x.map v = y.map v := by
  cases x with
  | none =>
    cases y with
    | none => rfl
    | some b =>
      obtain ⟨a, ha, -⟩ := h' b rfl
      exact absurd ha (by simp)
  | some a =>
    obtain ⟨b, rfl, heq⟩ := h a rfl
    rw [Option.map_some, Option.map_some, heq]

section Inserts

variable {e : String}

theorem Database.insertDelivery_viewBut {db db' db₁ : Database} (h : db.viewBut e = db'.viewBut e)
    {d : WebhookDelivery} (hi : db.insertDelivery d = some db₁) :
    ∃ db₁', db'.insertDelivery d = some db₁' ∧ db₁.viewBut e = db₁'.viewBut e := by
  have hr : db.receipts = db'.receipts := congrArg (·.receipts) h
  have hrows : db.deliveries.rows.map (blank e) = db'.deliveries.rows.map (blank e) :=
    congrArg (·.rows) h
  obtain ⟨hfk, hpk, hr₁, hd₁⟩ := insertDelivery_eq_some_iff.mp hi
  rw [hr] at hfk
  rw [viewBut_keys h] at hpk
  obtain ⟨db₁', hi'⟩ := exists_insertDelivery hfk hpk
  obtain ⟨-, -, hr₁', hd₁'⟩ := insertDelivery_eq_some_iff.mp hi'
  refine ⟨db₁', hi', ?_⟩
  simp only [viewBut, hr₁, hr₁', hr, hd₁, hd₁', List.map_append, hrows]

theorem Database.insertDeliveries_viewBut {receiptId : ReceiptId} {now : Timestamp}
    {names : List String} :
    ∀ {db db' db₁ : Database} {draw : Nat → DeliveryId}, db.viewBut e = db'.viewBut e →
      db.insertDeliveries receiptId now names draw = some db₁ →
      ∃ db₁', db'.insertDeliveries receiptId now names draw = some db₁' ∧
        db₁.viewBut e = db₁'.viewBut e := by
  induction names with
  | nil =>
    intro db db' db₁ draw h hi
    rw [insertDeliveries, Option.some.injEq] at hi
    subst hi
    exact ⟨db', rfl, h⟩
  | cons name names ih =>
    intro db db' db₁ draw h hi
    rw [insertDeliveries, Option.bind_eq_some_iff] at hi
    obtain ⟨db₂, hi₂, hi₁⟩ := hi
    obtain ⟨db₂', hi₂', h₂⟩ := insertDelivery_viewBut h hi₂
    obtain ⟨db₁', hi₁', h₁⟩ := ih h₂ hi₁
    exact ⟨db₁', by rw [insertDeliveries, hi₂', Option.bind_some, hi₁'], h₁⟩

/-- A committed `store_with_deliveries` is committed in every database that looks the same. -/
theorem Database.storeWithDeliveries_viewBut {db db' db₁ : Database}
    (h : db.viewBut e = db'.viewBut e) {receipt : WebhookReceipt} {names : List String}
    {draw : Nat → DeliveryId} {now : Timestamp}
    (hs : db.storeWithDeliveries receipt names draw now = .ok (some db₁)) :
    ∃ db₁', db'.storeWithDeliveries receipt names draw now = .ok (some db₁') ∧
      db₁.viewBut e = db₁'.viewBut e := by
  have hr : db.receipts = db'.receipts := congrArg (·.receipts) h
  have hrows : db.deliveries.rows.map (blank e) = db'.deliveries.rows.map (blank e) :=
    congrArg (·.rows) h
  unfold storeWithDeliveries at hs
  split at hs
  · exact absurd hs (by simp)
  · exact absurd hs (by simp)
  · rename_i db₂ hi
    obtain ⟨hkey, hid, hr₂, hd₂⟩ := insertReceipt_eq_ok_some_iff.mp hi
    rw [hr] at hkey hid
    obtain ⟨db₂', hi'⟩ := exists_insertReceipt hkey hid
    obtain ⟨-, -, hr₂', hd₂'⟩ := insertReceipt_eq_ok_some_iff.mp hi'
    have h₂ : db₂.viewBut e = db₂'.viewBut e := by
      have ht : db₂.receipts = db₂'.receipts := Table.ext (by rw [hr₂, hr₂', hr])
      simp only [viewBut, ht, hd₂, hd₂', hrows]
    split at hs
    · exact absurd hs (by simp)
    · rename_i db₃ hd
      rw [Except.ok.injEq, Option.some.injEq] at hs
      subst hs
      obtain ⟨db₃', hd', h₃⟩ := insertDeliveries_viewBut h₂ hd
      exact ⟨db₃', by simp only [storeWithDeliveries, hi', hd'], h₃⟩

theorem Database.storeWithDeliveries_error {db : Database} {receipt : WebhookReceipt}
    {names : List String} {draw : Nat → DeliveryId} {now : Timestamp} {err : StorageError}
    (hs : db.storeWithDeliveries receipt names draw now = .error err) :
    err = .internal "duplicate key value violates unique constraint" := by
  unfold storeWithDeliveries at hs
  split at hs
  · rename_i err' hi
    rw [Except.error.injEq] at hs
    subst hs
    unfold insertReceipt at hi
    split at hi
    · exact absurd hi (by simp)
    · split at hi
      · rw [← Except.error.inj hi]
      · exact absurd hi (by simp)
  · exact absurd hs (by simp)
  · split at hs
    · rw [← Except.error.inj hs]
    · exact absurd hs (by simp)

/-- **`store_with_deliveries` looks the same in databases that look the same.** -/
theorem Database.storeWithDeliveries_congr {db db' : Database} (h : db.viewBut e = db'.viewBut e)
    (receipt : WebhookReceipt) (names : List String) (draw : Nat → DeliveryId) (now : Timestamp) :
    (db.storeWithDeliveries receipt names draw now).map (Option.map (viewBut e))
      = (db'.storeWithDeliveries receipt names draw now).map (Option.map (viewBut e)) := by
  have hr : db.receipts = db'.receipts := congrArg (·.receipts) h
  have hconflict : db.storeWithDeliveries receipt names draw now = .ok none ↔
      db'.storeWithDeliveries receipt names draw now = .ok none := by
    rw [storeWithDeliveries_conflict_iff, storeWithDeliveries_conflict_iff, hr]
  cases hs : db.storeWithDeliveries receipt names draw now with
  | ok o =>
    cases o with
    | none => rw [hconflict.mp hs]
    | some db₁ =>
      obtain ⟨db₁', hs', h₁⟩ := storeWithDeliveries_viewBut h hs
      simp only [hs', Except.map, Option.map_some, h₁]
  | error err =>
    cases hs' : db'.storeWithDeliveries receipt names draw now with
    | error err' => rw [storeWithDeliveries_error hs, storeWithDeliveries_error hs']
    | ok o =>
      cases o with
      | none => rw [hconflict.mpr hs'] at hs; exact absurd hs (by simp)
      | some db₁' =>
        obtain ⟨db₁, hs₁, -⟩ := storeWithDeliveries_viewBut h.symm hs'
        rw [hs₁] at hs
        exact absurd hs (by simp)

end Inserts

/-- What an ingest step comes to, with its database seen through the view. -/
def IngestOutcome.viewBut (e : String) (o : IngestOutcome) :
    DatabaseView × InMemoryRecentDedupe × CallPhase × List Event :=
  (o.db.viewBut e, o.cache, o.next, o.events)

/-- **An ingest step looks the same in databases that look the same.** -/
theorem IngestStep.run_viewBut {e : String} {lib : Libraries} {pipe : Pipeline} {call : CallId}
    {db db' : Database} (h : db.viewBut e = db'.viewBut e) (cache : InMemoryRecentDedupe)
    (phase : CallPhase) (step : IngestStep) :
    (step.run lib pipe call db cache phase).map (IngestOutcome.viewBut e)
      = (step.run lib pipe call db' cache phase).map (IngestOutcome.viewBut e) := by
  have hr : db.receipts = db'.receipts := congrArg (·.receipts) h
  cases step with
  | start req receiptId utcNow =>
    simp only [run]
    split
    · split <;> simp only [Option.map_some, IngestOutcome.viewBut, h]
    · rfl
  | checkFast =>
    simp only [run]
    split
    · split <;> simp only [Option.map_some, IngestOutcome.viewBut, h]
    · rfl
  | checkStorage =>
    simp only [run, storageDedupeCheck, Database.receiptByDedupeKey, hr]
    split
    · simp only [Option.map_some, IngestOutcome.viewBut, h]
    · rfl
  | checkFailed msg =>
    simp only [run, callFailed]
    split
    · simp only [Option.map_some, IngestOutcome.viewBut, h]
    · rfl
  | store utcNow now draw outcome msg =>
    simp only [run, callFailed]
    split
    · rename_i c advisory
      split
      · simp only [Option.map_some, IngestOutcome.viewBut, h]
      · have hstore := Database.storeWithDeliveries_congr h (c.receipt lib utcNow)
          pipe.emitterNames draw now
        cases hs : db.storeWithDeliveries (c.receipt lib utcNow) pipe.emitterNames draw now with
        | error err =>
          cases hs' : db'.storeWithDeliveries (c.receipt lib utcNow) pipe.emitterNames draw now with
          | error err' =>
            simp only [hs, hs', Except.map, Except.error.injEq] at hstore
            simp only [Option.map_some, IngestOutcome.viewBut, h, hstore]
          | ok o' => simp [hs, hs', Except.map] at hstore
        | ok o =>
          cases hs' : db'.storeWithDeliveries (c.receipt lib utcNow) pipe.emitterNames draw now with
          | error err' => simp [hs, hs', Except.map] at hstore
          | ok o' =>
            simp only [hs, hs', Except.map, Except.ok.injEq] at hstore
            cases o with
            | none =>
              obtain rfl : o' = none := by simpa using hstore.symm
              simp only
              split <;> simp only [Option.map_some, IngestOutcome.viewBut, h]
            | some db₁ =>
              obtain ⟨db₁', rfl, h₁⟩ := Option.map_eq_some_iff.mp hstore.symm
              simp only
              split <;> simp only [Option.map_some, IngestOutcome.viewBut, h₁]
    · rfl
  | fetchExisting =>
    simp only [run, callFailed, Database.receiptByDedupeKey, hr]
    split
    · split <;> simp only [Option.map_some, IngestOutcome.viewBut, h]
    · rfl
  | fetchFailed msg =>
    simp only [run, callFailed]
    split
    · simp only [Option.map_some, IngestOutcome.viewBut, h]
    · rfl
  | record =>
    simp only [run]
    split
    · simp only [Option.map_some, IngestOutcome.viewBut, h]
    · rfl

theorem Database.updateReceipts_viewBut {e : String} {db db' : Database}
    (h : db.viewBut e = db'.viewBut e) (u : ReceiptUpdate) :
    (db.updateReceipts u).viewBut e = (db'.updateReceipts u).viewBut e := by
  have hr : db.receipts = db'.receipts := congrArg (·.receipts) h
  have hrows : db.deliveries.rows.map (blank e) = db'.deliveries.rows.map (blank e) :=
    congrArg (·.rows) h
  simp only [viewBut, updateReceipts, hr, hrows]

/-- **An admin statement looks the same in databases that look the same.** -/
theorem AdminStep.run_viewBut {e : String} {db db' : Database} (h : db.viewBut e = db'.viewBut e)
    (a : AdminStep) :
    (a.run db).map (Database.viewBut e) = (a.run db').map (Database.viewBut e) := by
  have hr : db.receipts = db'.receipts := congrArg (·.receipts) h
  cases a with
  | insertReplay receiptId name id now =>
    simp only [run, op, StorageOp.step, Option.map_map]
    exact map_eq_map_of_imp (fun _ hi => Database.insertDelivery_viewBut h hi)
      fun _ hi => Database.insertDelivery_viewBut h.symm hi
  | insertReplays receiptId names draw now =>
    simp only [run, op, StorageOp.step, Option.map_map]
    exact map_eq_map_of_imp (fun _ hi => Database.insertDeliveries_viewBut h hi)
      fun _ hi => Database.insertDeliveries_viewBut h.symm hi
  | updateState id st error =>
    simp only [run, op, StorageOp.step, Option.map_some, Database.updateState,
      Database.updateReceipts_viewBut h]
  | retryFailed id maxAttempts =>
    simp only [run, op, StorageOp.step, Option.map_map, Database.retryFailed, hr]
    split
    · rfl
    · simp only [Except.toOption, Option.map_some, Function.comp_apply,
        Database.updateReceipts_viewBut h]
  | resetForRetry id =>
    simp only [run, op, StorageOp.step, Option.map_map, Database.resetForRetry, hr]
    split
    · simp only [Except.toOption, Option.map_some, Function.comp_apply,
        Database.updateReceipts_viewBut h]
    · rfl

/-! ## 3. The unwinding conditions -/

/-- The label is a step of one of `e`'s workers. -/
def Label.isWorkerOf (dep : Deployment) (e : String) : Label → Bool
  | .worker i _ => (dep.workers i).name = e
  | _ => false

/-- The view after an ingest step. -/
def SysView.afterIngest (v : SysView) (call : CallId)
    (o : DatabaseView × InMemoryRecentDedupe × CallPhase × List Event) : SysView :=
  { v with
    db := o.1
    caches := Function.update v.caches call.server o.2.1
    calls := Function.update v.calls call o.2.2.1 }

section Conditions

variable {dep : Deployment} {e : String}

theorem Sys.viewBut_workers {s t : Sys} (h : s.viewBut dep e = t.viewBut dep e) {i : WorkerId}
    (hi : (dep.workers i).name ≠ e) : s.workers i = t.workers i := by
  have hw := congrFun (congrArg (·.workers) h) i
  simpa only [Sys.viewBut, if_neg hi] using hw

/-- **A step of `e`'s workers cannot be seen.** -/
theorem viewBut_afterWorker_own {s : Sys} (hown : s.OwnRows dep) {i : WorkerId}
    (hi : (dep.workers i).name = e) {o : WorkerOutcome}
    (heff : WorkerStep.Effect (dep.workers i) i s.db (s.workers i) o) :
    (s.afterWorker i o).viewBut dep e = s.viewBut dep e := by
  have hrows : (s.afterWorker i o).db.viewBut e = s.db.viewBut e := by
    simp only [Sys.afterWorker, Database.viewBut, Database.updateDeliveries_receipts,
      Database.updateDeliveries_rows, List.map_map, DatabaseView.mk.injEq, true_and]
    refine List.map_congr_left fun d hd => ?_
    rw [Function.comp_apply]
    by_cases hname : d.emitterName = e
    · exact blank_run o.update hname
    · rw [heff.frame (hown i) hd (by rw [hi]; exact hname) rfl]
  have hworkers : (fun j => if (dep.workers j).name = e then {} else (s.afterWorker i o).workers j)
      = fun j => if (dep.workers j).name = e then {} else s.workers j := by
    funext j
    by_cases hj : (dep.workers j).name = e
    · rw [if_pos hj, if_pos hj]
    · have hne : j ≠ i := by
        rintro rfl
        exact hj hi
      rw [if_neg hj, if_neg hj, Sys.afterWorker_of_ne s hne]
  simp only [Sys.viewBut, hrows, hworkers]
  rfl

/-- A step of another worker acts on what can be seen. -/
theorem viewBut_afterWorker_other {s : Sys} (hown : s.OwnRows dep) {i : WorkerId}
    (hi : (dep.workers i).name ≠ e) {o : WorkerOutcome}
    (heff : WorkerStep.Effect (dep.workers i) i s.db (s.workers i) o) :
    (s.afterWorker i o).viewBut dep e
      = { s.viewBut dep e with
          db := ⟨s.db.receipts, (s.db.viewBut e).rows.map o.update.run⟩
          workers := Function.update (s.viewBut dep e).workers i o.next } := by
  have hrows : (s.afterWorker i o).db.viewBut e
      = ⟨s.db.receipts, (s.db.viewBut e).rows.map o.update.run⟩ := by
    refine Database.viewBut_updateDeliveries fun d hd hname => ?_
    have hne : d.emitterName ≠ (dep.workers i).name := by rw [hname]; exact Ne.symm hi
    exact ⟨heff.frame (hown i) hd hne rfl, heff.frame (hown i) hd hne rfl⟩
  have hworkers : (fun j => if (dep.workers j).name = e then {} else (s.afterWorker i o).workers j)
      = Function.update (fun j => if (dep.workers j).name = e then {} else s.workers j) i
          o.next := by
    funext j
    by_cases hj : j = i
    · subst hj
      rw [if_neg hi, Function.update_self, Sys.afterWorker_self]
    · rw [Function.update_of_ne hj, Sys.afterWorker_of_ne s hj]
  simp only [Sys.viewBut, hrows, hworkers]
  rfl

/-- A worker of another emitter does the same in states that look the same. -/
theorem workerRun_viewBut {s t : Sys} (hs : s.OwnRows dep)
    (h : s.viewBut dep e = t.viewBut dep e) {i : WorkerId} (hi : (dep.workers i).name ≠ e)
    (step : WorkerStep) : s.workerRun dep i step = t.workerRun dep i step := by
  have hagree : s.db.AgreeOn (dep.workers i).name t.db :=
    Database.agreeOn_of_viewBut (congrArg (·.db) h) hi
  rw [Sys.workerRun, Sys.workerRun, ← Sys.viewBut_workers h hi]
  exact WorkerStep.run_congr hagree (hs i) step

/-- A call of `ingest` does the same in states that look the same. -/
theorem ingestRun_viewBut {s t : Sys} (h : s.viewBut dep e = t.viewBut dep e) (call : CallId)
    (step : IngestStep) :
    (s.ingestRun dep call step).map (IngestOutcome.viewBut e)
      = (t.ingestRun dep call step).map (IngestOutcome.viewBut e) := by
  have hcaches : s.caches = t.caches := congrArg (·.caches) h
  have hcalls : s.calls = t.calls := congrArg (·.calls) h
  rw [Sys.ingestRun, Sys.ingestRun, ← hcaches, ← hcalls]
  exact IngestStep.run_viewBut (congrArg (·.db) h) _ _ step

/-- **What a visible label does to the view depends only on the view.** -/
theorem step_viewBut {s t : Sys} (hs : s.OwnRows dep) (ht : t.OwnRows dep)
    (h : s.viewBut dep e = t.viewBut dep e) {l : Label} (hl : l.isWorkerOf dep e = false) :
    ((system dep).step s l).map (Sys.viewBut dep e)
      = ((system dep).step t l).map (Sys.viewBut dep e) := by
  have hdb : s.db.viewBut e = t.db.viewBut e := congrArg (·.db) h
  cases l with
  | worker i step =>
    have hi : (dep.workers i).name ≠ e := by simpa [Label.isWorkerOf] using hl
    have hrun := workerRun_viewBut hs h hi step
    simp only [system, Label.step]
    cases ho : s.workerRun dep i step with
    | none => rw [← hrun, ho]; rfl
    | some o =>
      have ho' := ho
      rw [hrun] at ho'
      simp only [ho', Option.map_some, Option.some.injEq]
      rw [viewBut_afterWorker_other hs hi (WorkerStep.run_cases ho),
        viewBut_afterWorker_other ht hi (WorkerStep.run_cases ho'), h, hdb]
      have hr : s.db.receipts = t.db.receipts := congrArg (·.receipts) hdb
      rw [hr]
  | ingest call step =>
    -- The new view is made from the old one and the outcome as it is seen.
    have hnext : ∀ u : Sys, Sys.viewBut dep e ∘ u.afterIngest call
        = (u.viewBut dep e).afterIngest call ∘ IngestOutcome.viewBut e := fun u => rfl
    simp only [system, Label.step]
    rw [Option.map_map, Option.map_map, hnext, hnext, ← Option.map_map, ← Option.map_map,
      ingestRun_viewBut h call step, h]
  | admin a =>
    have hnext : ∀ u : Sys, (Sys.viewBut dep e ∘ fun db => { u with db })
        = (fun v => { u.viewBut dep e with db := v }) ∘ Database.viewBut e := fun u => rfl
    simp only [system, Label.step]
    rw [Option.map_map, Option.map_map, hnext, hnext, ← Option.map_map, ← Option.map_map,
      AdminStep.run_viewBut hdb a, h]

/-- A visible label lets the same be heard in states that look the same. -/
theorem obs_viewBut {s t : Sys} (hs : s.OwnRows dep) (h : s.viewBut dep e = t.viewBut dep e)
    {l : Label} (hl : l.isWorkerOf dep e = false) :
    (system dep).obs s l = (system dep).obs t l := by
  cases l with
  | worker i step =>
    have hi : (dep.workers i).name ≠ e := by simpa [Label.isWorkerOf] using hl
    simp only [system, Label.obs, workerRun_viewBut hs h hi step]
  | ingest call step =>
    have hrun := congrArg (Option.map (·.2.2.2)) (ingestRun_viewBut h call step)
    rw [Option.map_map, Option.map_map] at hrun
    have hevents : (s.ingestRun dep call step).map (·.events)
        = (t.ingestRun dep call step).map (·.events) := hrun
    simp only [system, Label.obs, hevents]
  | admin a => rfl

end Conditions

/-- **The unwinding conditions**: `e`'s workers are hidden. -/
def isolation (dep : Deployment) (e : String) : (system dep).Unwinding SysView where
  view := Sys.viewBut dep e
  hidden := Label.isWorkerOf dep e
  Inv := Sys.OwnRows dep
  inv_step hs hstep := (system_step_cases hstep).ownRows hs
  hide := by
    intro s l s' hs hl hstep
    cases l with
    | worker i step =>
      obtain ⟨o, heff, rfl, -⟩ := system_worker hstep
      have hi : (dep.workers i).name = e := by simpa [Label.isWorkerOf] using hl
      exact viewBut_afterWorker_own hs hi heff
    | ingest call step => exact absurd hl (by simp [Label.isWorkerOf])
    | admin a => exact absurd hl (by simp [Label.isWorkerOf])
  visible hs ht h hl := step_viewBut hs ht h hl

/-! ## 4. Isolation -/

/-- The labels of a run without the steps of `e`'s workers. -/
def withoutWorkersOf (dep : Deployment) (e : String) (ls : List Label) : List Label :=
  ls.filter fun l => !l.isWorkerOf dep e

/-- The contents that the rows of `f` go through along a run, each change once. -/
def contentsAlong (dep : Deployment) (f : String) (s : Sys) (ls : List Label) :
    List (List WebhookDelivery) :=
  ((s :: (system dep).path s ls).map fun t => t.db.deliveriesOf f).destutter (· ≠ ·)

/-- The event is an emit call by one of `f`'s workers. -/
def Event.isEmitBy (dep : Deployment) (f : String) : Event → Bool
  | .emitCalled c _ _ => (dep.workers c.worker).name = f
  | _ => false

/-- What `f`'s emitter has received. -/
def received (dep : Deployment) (f : String) (h : List Event) : List Event :=
  h.filter (Event.isEmitBy dep f)

theorem hidden_not_received {dep : Deployment} {e f : String} (hef : e ≠ f) (s : Sys) {l : Label}
    (hl : l.isWorkerOf dep e = true) : received dep f ((system dep).obs s l) = [] := by
  cases l with
  | worker i step =>
    have hi : (dep.workers i).name = e := by simpa [Label.isWorkerOf] using hl
    simp only [system, Label.obs]
    cases ho : s.workerRun dep i step with
    | none => rfl
    | some o =>
      rw [received, List.filter_eq_nil_iff]
      intro ev hev hby
      cases ev with
      | emitCalled c id event =>
        have hc : c.worker = i := congrArg _ ((WorkerStep.run_cases ho).of_emitCalled hev).1
        simp only [Event.isEmitBy, hc, hi, decide_eq_true_eq] at hby
        exact hef hby
      | _ => exact absurd hby (by simp [Event.isEmitBy])
  | ingest call step => exact absurd hl (by simp [Label.isWorkerOf])
  | admin a => exact absurd hl (by simp [Label.isWorkerOf])

section Runs

variable (dep : Deployment) (db : Database) {e f : String} (hef : e ≠ f) {ls : List Label} {s : Sys}
  (h : (system dep).exec (.start dep db) ls = some s)

include hef h

theorem contentsAlong_without :
    contentsAlong dep f (.start dep db) ls
      = contentsAlong dep f (.start dep db) (withoutWorkersOf dep e ls) := by
  have hcontent : (fun t : Sys => t.db.deliveriesOf f)
      = fun t => ((isolation dep e).view t).db.rows.filter fun d => d.emitterName = f := by
    funext t
    exact (t.db.deliveriesOf_viewBut (Ne.symm hef)).symm
  have hinv := Sys.start_ownRows dep db
  rw [contentsAlong, contentsAlong, hcontent]
  exact (isolation dep e).path_purge (fun v => v.db.rows.filter fun d => d.emitterName = f) hinv hinv
    rfl h

theorem received_without :
    received dep f ((system dep).trace (.start dep db) ls)
      = received dep f ((system dep).trace (.start dep db) (withoutWorkersOf dep e ls)) := by
  have hinv := Sys.start_ownRows dep db
  exact (isolation dep e).trace_purge (fun s l hl => hidden_not_received hef s hl)
    (fun s t l hs _ hst hl => obs_viewBut hs hst hl) hinv hinv rfl h

end Runs

/-- **Emitter isolation.**  Let `e` and `f` be different emitters and `s` a state that a run `ls`
leads to.
* A step of one of `e`'s workers leaves all rows of `f` and all receipts as they are.
* It commutes with every step of one of `f`'s workers.
* Without the steps of `e`'s workers, `ls` is still a run; the rows of `f` go through the same
  contents, and `f`'s emitter receives the same events.
* The same holds when the steps of `e`'s workers are replaced by any others: no remaining step is
  disabled by them, and `f` sees no difference. -/
theorem emitter_isolation (dep : Deployment) (db : Database) {e f : String} (hef : e ≠ f)
    {ls : List Label} {s : Sys} (h : (system dep).exec (.start dep db) ls = some s) :
    (∀ i step s', (dep.workers i).name = e → (system dep).step s (.worker i step) = some s' →
      s'.db.receipts = s.db.receipts ∧ s'.db.deliveriesOf f = s.db.deliveriesOf f) ∧
    (∀ i j a b, (dep.workers i).name = e → (dep.workers j).name = f →
      (system dep).exec s [.worker i a, .worker j b]
        = (system dep).exec s [.worker j b, .worker i a]) ∧
    ((∃ t, (system dep).exec (.start dep db) (withoutWorkersOf dep e ls) = some t) ∧
      contentsAlong dep f (.start dep db) ls
        = contentsAlong dep f (.start dep db) (withoutWorkersOf dep e ls) ∧
      received dep f ((system dep).trace (.start dep db) ls)
        = received dep f ((system dep).trace (.start dep db) (withoutWorkersOf dep e ls))) ∧
    (∀ ms, withoutWorkersOf dep e ms = withoutWorkersOf dep e ls →
      (∀ before l after t, ms = before ++ l :: after →
        (system dep).exec (.start dep db) before = some t → l.isWorkerOf dep e = false →
        ∃ t', (system dep).step t l = some t') ∧
      ∀ t, (system dep).exec (.start dep db) ms = some t →
        contentsAlong dep f (.start dep db) ms = contentsAlong dep f (.start dep db) ls ∧
        received dep f ((system dep).trace (.start dep db) ms)
          = received dep f ((system dep).trace (.start dep db) ls)) := by
  have hown := system_ownRows h
  have hinv := Sys.start_ownRows dep db
  refine ⟨?_, ?_, ⟨?_, contentsAlong_without dep db hef h, received_without dep db hef h⟩, ?_⟩
  · intro i step s' hi hstep
    obtain ⟨o, heff, rfl, -⟩ := system_worker hstep
    have hagree := hown.agreeOn heff (by rw [hi]; exact hef)
    exact ⟨hagree.receipts.symm, hagree.rows.symm⟩
  · intro i j a b hi hj
    exact worker_steps_commute hown (by rw [hi, hj]; exact hef) a b
  · obtain ⟨t, ht, -⟩ := (isolation dep e).exec_purge hinv hinv rfl h
    exact ⟨t, ht⟩
  · intro ms hms
    refine ⟨?_, ?_⟩
    · intro before l after t hsplit ht hl
      exact (isolation dep e).enabled_of_purge_eq hinv h hms hsplit ht hl
    · intro t ht
      constructor
      · rw [contentsAlong_without dep db hef ht, hms, ← contentsAlong_without dep db hef h]
      · rw [received_without dep db hef ht, hms, ← received_without dep db hef h]

/-- Worker 0 serves `kafka`, all others serve `sqs`. -/
def twoEmitters : Deployment :=
  { sampleDep with
    servers := fun _ => { emitterNames := ["kafka", "sqs"], verifiers := ∅, lruCapacity := 100 }
    workers := fun i =>
      { name := if i = 0 then "kafka" else "sqs", policy := {}, concurrency := 1,
        leaseDuration := 30000000 } }

/-- One receipt for both: `kafka` is down, and `sqs` takes it. -/
def kafkaDown : List Label :=
  acceptOne ++ claimAndCall 0 0 ⟨0⟩ ++ claimAndCall 1 0 ⟨1⟩ ++
    answerAndMark 0 0 ⟨0⟩ (.error (.timeout "down")) ++ answerAndMark 1 0 ⟨1⟩ (.ok ())

theorem emitter_isolation_kafka_down :
    ∃ s, (system twoEmitters).exec (.start twoEmitters .empty) kafkaDown = some s ∧
      (received twoEmitters "sqs"
        ((system twoEmitters).trace (.start twoEmitters .empty) kafkaDown)).length = 1 ∧
      (∃ t, (system twoEmitters).exec (.start twoEmitters .empty)
        (withoutWorkersOf twoEmitters "kafka" kafkaDown) = some t) ∧
      contentsAlong twoEmitters "sqs" (.start twoEmitters .empty) kafkaDown
        = contentsAlong twoEmitters "sqs" (.start twoEmitters .empty)
          (withoutWorkersOf twoEmitters "kafka" kafkaDown) := by
  refine ⟨_, rfl, by decide, ?_⟩
  have h := (emitter_isolation twoEmitters .empty (show "kafka" ≠ "sqs" by decide)
    (show (system twoEmitters).exec (.start twoEmitters .empty) kafkaDown = some _ from rfl)).2.2.1
  exact ⟨h.1, h.2.1⟩

end Hookbox
