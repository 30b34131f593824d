/-
# Replaying what failed

`hookbox replay failed` (`ReplayCommand::Failed` in `hookbox-cli/src/commands/replay.rs`) is from
before the fan-out.  It selects receipts by the column `processing_state` and resets that column
and `emit_count`; no worker that `serve` spawns reads either of them.  What the workers claim are
delivery rows, and the command does not write one.

* `replayFailed_exec`: the command is a run of reset steps of the system.
* `replay_failed_requeues_iff`: it leaves a receipt with a row to claim exactly when there was one
  before.
-/
import Hookbox.Accounting
import Hookbox.Listing

namespace Hookbox

/-! ## 1. The command -/

/-- The `WHERE` clause of `query_failed_since`. -/
def ReceiptRow.FailedSince (provider : Option String) (since : Timestamp) (row : ReceiptRow) :
    Prop :=
  (row.processingState = "emit_failed" ∨ row.processingState = "dead_lettered") ∧
    since ≤ row.receivedAt ∧ row.OfProvider provider

instance (provider : Option String) (since : Timestamp) :
    DecidablePred (ReceiptRow.FailedSince provider since) := fun row => by
  unfold ReceiptRow.FailedSince ReceiptRow.OfProvider; infer_instance

namespace Database

/-- A possible order of the rows of `query_failed_since`: `ORDER BY received_at ASC`. -/
def FailedRows (db : Database) (provider : Option String) (since : Timestamp)
    (rows : List ReceiptRow) : Prop :=
  rows.Perm (db.receipts.rows.filter fun row => row.FailedSince provider since) ∧
    rows.Pairwise fun r r' => r.receivedAt ≤ r'.receivedAt

/-- `PostgresStorage::query_failed_since` on rows in one of their orders. -/
def queryFailedSince (rows : List ReceiptRow) (limit : Option Int) :
    Except StorageError (List WebhookReceipt) :=
  (paginate (limit.getD 100) 0 rows).bind fun page => page.mapM receiptFromRow

end Database

/-- The arguments of `ReplayCommand::Failed`. -/
structure FailedArgs where
  provider : Option String := none
  since : String
  limit : Int := 100

/-- What the command meets: the connection and the migrations, which find nothing to do on a
migrated database, the reading of its window, the clock, the statements that the driver fails, and
the order of rows that were received at the same time. -/
structure FailedEnv where
  connect : Option String
  migrate : Option String
  parseDuration : String → Except AnyhowError Int
  now : Timestamp
  failure : Nat → Option String
  scan : Database → Option String → Timestamp → List ReceiptRow
  scan_spec : ∀ (db : Database) (provider : Option String) (since : Timestamp),
    db.FailedRows provider since (scan db provider since)

namespace FailedEnv

variable (env : FailedEnv)

/-- The loop over the selected receipts.  A reset that was made stays when a later one fails. -/
def resetEach : Nat → List WebhookReceipt → Database → Except StorageError Unit × Database
  | _, [], db => (.ok (), db)
  | k, r :: rs, db =>
    match env.failure k with
    | some msg => (.error (.internal msg), db)
    | none =>
      match db.resetForRetry r.receiptId with
      | .error e => (.error e, db)
      | .ok db' => resetEach (k + 1) rs db'

/-- The rows that the command selects, decoded. -/
def selected (args : FailedArgs) (since : Timestamp) (db : Database) :
    Except StorageError (List WebhookReceipt) :=
  match env.failure 0 with
  | some msg => .error (.internal msg)
  | none => Database.queryFailedSince (env.scan db args.provider since) (some args.limit)

/-- `ReplayCommand::Failed`. -/
def replayFailed (args : FailedArgs) (db : Database) : Except AnyhowError Unit × Database :=
  match env.connect with
  | some e => (.error ["failed to connect to database", e], db)
  | none =>
    match env.migrate with
    | some e => (.error ["migration failed", e], db)
    | none =>
      match env.parseDuration args.since with
      | .error e => (.error e, db)
      | .ok duration =>
        match env.selected args (env.now - duration) db with
        | .error e => (.error [e.toString], db)
        | .ok receipts =>
          match env.resetEach 1 receipts db with
          | (.error e, db') => (.error [e.toString], db')
          | (.ok (), db') => (.ok (), db')

end FailedEnv

/-! ## 2. What it is asked for -/

/-- The receipts of the provider and the window that show as failed or dead-lettered when `scan`
answers `get_deliveries_for_receipt`, oldest first. -/
structure Database.ShownFailed (db : Database) (provider : Option String) (since : Timestamp)
    (scan : ReceiptId → List WebhookDelivery) (rows : List ReceiptRow) : Prop where
  nodup : rows.Nodup
  mem_iff : ∀ row, row ∈ rows ↔ row ∈ db.receipts.rows ∧ row.OfProvider provider ∧
    since ≤ row.receivedAt ∧ (row.Displays (scan row.receiptId) .emitFailed ∨
      row.Displays (scan row.receiptId) .deadLettered)
  oldestFirst : rows.Pairwise fun r r' => r.receivedAt ≤ r'.receivedAt

/-- The receipt is among those the command is asked for. -/
def Database.InScope (db : Database) (args : FailedArgs) (since : Timestamp) (row : ReceiptRow) :
    Prop :=
  ∃ scan rows, (∀ id, db.DeliveriesForReceipt id (scan id)) ∧
    db.ShownFailed args.provider since scan rows ∧ row ∈ rows.take args.limit.toNat

/-- The receipt has a mutable row, pending or failed, that `claim_pending` offers to the worker of
a configured emitter once its time has come. -/
def Database.Requeued (db : Database) (cfg : HookboxConfig) (id : ReceiptId) : Prop :=
  ∃ d ∈ db.deliveries.rows, d.receiptId = id ∧ d.immutable = false ∧
    (d.state = .pending ∨ d.state = .failed) ∧ ∃ entry ∈ cfg.emitters,
      ∀ now locked, d.nextAttemptAt ≤ now → d.deliveryId ∉ locked →
        d ∈ db.candidates entry.worker.name now locked

/-- The receipt has a mutable row of a configured emitter that is pending or failed. -/
def Database.Unfinished (db : Database) (cfg : HookboxConfig) (id : ReceiptId) : Prop :=
  ∃ d ∈ db.deliveries.rows, d.receiptId = id ∧ d.immutable = false ∧
    (d.state = .pending ∨ d.state = .failed) ∧ d.emitterName ∈ cfg.emitterNames

/-- A row is offered to the worker of its emitter. -/
theorem Database.requeued_iff {db : Database} {cfg : HookboxConfig} {id : ReceiptId} :
    db.Requeued cfg id ↔ db.Unfinished cfg id := by
  constructor
  · rintro ⟨d, hd, hid, himm, hst, entry, hentry, hoffered⟩
    have hcand := hoffered d.nextAttemptAt [] le_rfl List.not_mem_nil
    obtain ⟨-, heligible, -⟩ := mem_candidates.mp hcand
    exact ⟨d, hd, hid, himm, hst, List.mem_map.mpr ⟨entry, hentry, heligible.1.symm⟩⟩
  · rintro ⟨d, hd, hid, himm, hst, hname⟩
    obtain ⟨entry, hentry, hname⟩ := List.mem_map.mp hname
    refine ⟨d, hd, hid, himm, hst, entry, hentry, fun now locked hnow hlocked => ?_⟩
    exact mem_candidates.mpr ⟨hd, ⟨hname.symm, hst, hnow, himm⟩, hlocked⟩

/-! ## 3. What it does -/

section Effect

variable {env : FailedEnv} {dep : Deployment}

/-- The loop is a run of reset steps, and leaves the delivery rows alone. -/
theorem FailedEnv.resetEach_ok {receipts : List WebhookReceipt} :
    ∀ {k : Nat} {s : Sys} {db' : Database}, env.resetEach k receipts s.db = (.ok (), db') →
      db'.deliveries = s.db.deliveries ∧
        (system dep).exec s (receipts.map fun r => .admin (.resetForRetry r.receiptId))
          = some { s with db := db' } := by
  induction receipts with
  | nil =>
    intro k s db' h
    obtain rfl : s.db = db' := congrArg Prod.snd h
    exact ⟨rfl, rfl⟩
  | cons r rs ih =>
    intro k s db' h
    unfold resetEach at h
    split at h
    · exact absurd (congrArg Prod.fst h) (by simp)
    · split at h
      · exact absurd (congrArg Prod.fst h) (by simp)
      · rename_i db₁ hreset
        obtain ⟨hds, hexec⟩ := ih (s := { s with db := db₁ }) h
        refine ⟨hds.trans (Database.resetForRetry_ok hreset).2.1, ?_⟩
        have hrun : AdminStep.run s.db (.resetForRetry r.receiptId) = some db₁ := by
          simp [AdminStep.run, AdminStep.op, StorageOp.step, hreset, Except.toOption]
        have hstep : (system dep).step s (.admin (.resetForRetry r.receiptId))
            = some { s with db := db₁ } := Option.map_eq_some_iff.mpr ⟨db₁, hrun, rfl⟩
        exact Lts.exec_cons_eq_some.mpr ⟨_, hstep, hexec⟩

/-- What a command that returns `Ok` went through. -/
theorem FailedEnv.replayFailed_ok {args : FailedArgs} {db db' : Database}
    (h : env.replayFailed args db = (.ok (), db')) :
    ∃ duration receipts, env.parseDuration args.since = .ok duration ∧
      env.selected args (env.now - duration) db = .ok receipts ∧
      env.resetEach 1 receipts db = (.ok (), db') := by
  unfold replayFailed at h
  split at h
  · exact absurd (congrArg Prod.fst h) (by simp)
  · split at h
    · exact absurd (congrArg Prod.fst h) (by simp)
    · split at h
      · exact absurd (congrArg Prod.fst h) (by simp)
      · rename_i duration hduration
        split at h
        · exact absurd (congrArg Prod.fst h) (by simp)
        · rename_i receipts hreceipts
          split at h
          · exact absurd (congrArg Prod.fst h) (by simp)
          · rename_i db₁ hreset
            obtain rfl : db₁ = db' := congrArg Prod.snd h
            exact ⟨duration, receipts, hduration, hreceipts, hreset⟩

/-- **The command is a run of reset steps**, none of which touches a delivery row. -/
theorem FailedEnv.replayFailed_exec {args : FailedArgs} {s : Sys} {db' : Database}
    (h : env.replayFailed args s.db = (.ok (), db')) :
    db'.deliveries = s.db.deliveries ∧ ∃ ms : List Label,
      (∀ l ∈ ms, ∃ id, l.Resets id) ∧ (system dep).exec s ms = some { s with db := db' } := by
  obtain ⟨duration, receipts, -, -, hreset⟩ := replayFailed_ok h
  have hok : _ ∧ (system dep).exec s _ = _ := resetEach_ok hreset
  refine ⟨hok.1, _, fun l hl => ?_, hok.2⟩
  obtain ⟨r, -, rfl⟩ := List.mem_map.mp hl
  exact ⟨r.receiptId, rfl⟩

/-- **What is left to claim after the command**: in every reachable state, every receipt it is asked
for has a row that will be offered exactly when each of them had an unfinished row of a configured
emitter before. -/
theorem replay_failed_requeues_iff {db : Database} {ls : List Label} {s : Sys}
    (h : (system dep).exec (.start dep db) ls = some s) {args : FailedArgs} {db' : Database}
    (hrun : env.replayFailed args s.db = (.ok (), db')) (cfg : HookboxConfig) :
    ∃ duration ms, env.parseDuration args.since = .ok duration ∧
      (system dep).exec (.start dep db) (ls ++ ms) = some { s with db := db' } ∧
      ((∀ row, s.db.InScope args (env.now - duration) row → db'.Requeued cfg row.receiptId) ↔
        ∀ row, s.db.InScope args (env.now - duration) row →
          s.db.Unfinished cfg row.receiptId) := by
  obtain ⟨duration, -, hduration, -⟩ := FailedEnv.replayFailed_ok hrun
  obtain ⟨hds, ms, -, hexec⟩ : _ ∧ ∃ ms : List Label, _ ∧ (system dep).exec s ms = _ :=
    FailedEnv.replayFailed_exec hrun
  refine ⟨duration, ms, hduration, ?_, forall₂_congr fun row _ => ?_⟩
  · rw [Lts.exec_append, h]
    exact hexec
  · rw [Database.requeued_iff, Database.Unfinished, Database.Unfinished, hds]

end Effect

/-! ## 4. One receipt -/

/-- A database that answers, with the window as given in microseconds. -/
def sampleFailedEnv (duration : Int) : FailedEnv where
  connect := none
  migrate := none
  parseDuration _ := .ok duration
  now := 0
  failure _ := none
  scan db provider since :=
    (db.receipts.rows.filter fun row => row.FailedSince provider since).mergeSort
      fun r r' => r.receivedAt ≤ r'.receivedAt
  scan_spec db provider since := by
    refine ⟨List.mergeSort_perm _ _, (List.pairwise_mergeSort ?_ ?_ _).imp of_decide_eq_true⟩
    · intro a b c hab hbc
      exact decide_eq_true ((of_decide_eq_true hab).trans (of_decide_eq_true hbc))
    · intro a b
      simpa using Int.le_total a.receivedAt b.receivedAt

/-- Nothing is selected where no column says that an emit failed. -/
theorem sampleFailedEnv_ok {duration : Int} {args : FailedArgs} {db : Database}
    (hlimit : 0 ≤ args.limit) (hrows : ∀ row ∈ db.receipts.rows, row.processingState = "stored") :
    (sampleFailedEnv duration).replayFailed args db = (.ok (), db) := by
  have hnil : (sampleFailedEnv duration).scan db args.provider (0 - duration) = [] := by
    refine List.Perm.eq_nil (((sampleFailedEnv duration).scan_spec db _ _).1.trans ?_)
    rw [List.filter_eq_nil_iff.mpr]
    intro row hrow hfailed
    have hst := (of_decide_eq_true hfailed).1
    rw [hrows row hrow] at hst
    exact absurd hst (by decide)
  have hselected : (sampleFailedEnv duration).selected args (0 - duration) db = .ok [] := by
    show Database.queryFailedSince _ (some args.limit) = _
    rw [hnil, Database.queryFailedSince, Option.getD_some,
      Database.paginate_all (by simpa using hlimit)]
    rfl
  show (match (sampleFailedEnv duration).selected args (0 - duration) db with
    | .error e => _
    | .ok receipts => _) = _
  rw [hselected]
  rfl

/-- One receipt whose deliveries are one list is in scope if it shows as failed. -/
theorem Database.inScope_singleton {db : Database} {row : ReceiptRow} {args : FailedArgs}
    {since : Timestamp} (hrows : db.receipts.rows = [row]) (hprovider : row.OfProvider args.provider)
    (hsince : since ≤ row.receivedAt) (hlimit : 0 < args.limit) {ds : List WebhookDelivery}
    (hds : db.DeliveriesForReceipt row.receiptId ds)
    (hshown : row.Displays ds .emitFailed ∨ row.Displays ds .deadLettered) :
    db.InScope args since row := by
  obtain ⟨scan, hscan, hself⟩ := hds.exists_scan
  refine ⟨scan, [row], hscan, ⟨by simp, fun row' => ?_, by simp⟩, ?_⟩
  · rw [hrows, List.mem_singleton]
    constructor
    · rintro rfl
      rw [hself]
      exact ⟨rfl, hprovider, hsince, hshown⟩
    · exact fun hmem => hmem.1
  · rw [List.take_of_length_le (by simp; omega)]
    exact List.mem_cons_self

/-- One emit has failed and is due again: the receipt shows as failed, and its row is offered. -/
theorem replay_failed_requeues_iff_due :
    ∃ s db', (system sampleDep).exec (.start sampleDep .empty) oneFailure = some s ∧
      (sampleFailedEnv 3600000000).replayFailed { since := "1h" } s.db = (.ok (), db') ∧
      (∃ row, s.db.InScope { since := "1h" } (0 - 3600000000) row) ∧
      ∀ row, s.db.InScope { since := "1h" } (0 - 3600000000) row →
        db'.Requeued (sampleConfig 1) row.receiptId := by
  have hone : ∃ s row d, (system sampleDep).exec (.start sampleDep .empty) oneFailure = some s ∧
      s.db.receipts.rows = [row] ∧ row.processingState = "stored" ∧ row.receivedAt = 0 ∧
        (∃ ds, s.db.DeliveriesForReceipt row.receiptId ds ∧ row.Displays ds .emitFailed) ∧
        s.db.deliveries.rows = [d] ∧ d.receiptId = row.receiptId ∧ d.immutable = false ∧
        d.state = .failed ∧ d.emitterName = "kafka" :=
    ⟨_, _, _, rfl, rfl, rfl, rfl, ⟨_, ⟨List.Perm.refl _, by decide⟩, _, rfl, by decide⟩, rfl, rfl,
      rfl, rfl, rfl⟩
  obtain ⟨s, row, d, hexec, hrows, hcolumn, hat, ⟨ds, hds, hshown⟩, hdels, hid, himm, hst, hname⟩ :=
    hone
  have hcolumns : ∀ row' ∈ s.db.receipts.rows, row'.processingState = "stored" := by
    simp [hrows, hcolumn]
  have hrun : (sampleFailedEnv 3600000000).replayFailed { since := "1h" } s.db = (.ok (), s.db) :=
    sampleFailedEnv_ok (by decide) hcolumns
  obtain ⟨duration, ms, hduration, -, hiff⟩ :=
    replay_failed_requeues_iff hexec hrun (sampleConfig 1)
  obtain rfl : (3600000000 : Int) = duration := Except.ok.inj hduration
  refine ⟨s, s.db, hexec, hrun, ⟨row, ?_⟩, hiff.mpr fun row' hrow' => ?_⟩
  · exact Database.inScope_singleton hrows (Or.inl rfl) (by rw [hat]; decide) (by decide) hds
      (Or.inl hshown)
  · obtain ⟨scan, rows, -, hfailed, hmem⟩ := hrow'
    have hrow' := ((hfailed.mem_iff row').mp (List.mem_of_mem_take hmem)).1
    rw [hrows, List.mem_singleton] at hrow'
    rw [hrow']
    refine ⟨d, by rw [hdels]; exact List.mem_cons_self, hid, himm, Or.inr hst, ?_⟩
    rw [hname]
    decide

/-- **A dead-lettered receipt is not queued**: the command returns `Ok` and changes nothing. -/
theorem replay_failed_leaves_dead :
    ∃ s, (system singleAttempt).exec (.start singleAttempt .empty) oneFailure = some s ∧
      (sampleFailedEnv 3600000000).replayFailed { since := "1h" } s.db = (.ok (), s.db) ∧
      ∃ row, s.db.InScope { since := "1h" } (0 - 3600000000) row ∧
        ∀ cfg, ¬ s.db.Requeued cfg row.receiptId := by
  have hone : ∃ s row d,
      (system singleAttempt).exec (.start singleAttempt .empty) oneFailure = some s ∧
      s.db.receipts.rows = [row] ∧ row.processingState = "stored" ∧ row.receivedAt = 0 ∧
        (∃ ds, s.db.DeliveriesForReceipt row.receiptId ds ∧ row.Displays ds .deadLettered) ∧
        s.db.deliveries.rows = [d] ∧ d.state = .deadLettered :=
    ⟨_, _, _, rfl, rfl, rfl, rfl, ⟨_, ⟨List.Perm.refl _, by decide⟩, _, rfl, by decide⟩, rfl, rfl⟩
  obtain ⟨s, row, d, hexec, hrows, hcolumn, hat, ⟨ds, hds, hshown⟩, hdels, hst⟩ := hone
  have hcolumns : ∀ row' ∈ s.db.receipts.rows, row'.processingState = "stored" := by
    simp [hrows, hcolumn]
  refine ⟨s, hexec, sampleFailedEnv_ok (by decide) hcolumns, row, ?_, fun cfg hrequeued => ?_⟩
  · exact Database.inScope_singleton hrows (Or.inl rfl) (by rw [hat]; decide) (by decide) hds
      (Or.inr hshown)
  · obtain ⟨d', hd', -, -, hst', -⟩ := hrequeued
    rw [hdels, List.mem_singleton] at hd'
    rw [hd', hst] at hst'
    exact absurd hst' (by decide)

end Hookbox
