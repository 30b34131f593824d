/-
# Draining the backlog

The table of deliveries is a queue for each emitter, and its worker is there to empty it.  Here the
worker of one emitter is left undisturbed: its storage calls go through, its emitter answers `Ok`, no
signal comes and the process does not crash.  Everybody else goes on as before: requests are accepted,
replays are queued, the workers of other emitters run into whatever errors they like.

`backlog_drains` says how long it takes until every row that was owing at the start is emitted.  It is
counted in steps of the worker, and rests on two ledgers:

* over the steps: every step is one less to come before the next claim (`left_ledger`);
* over the claims: a claim takes `concurrency` rows off the queue, or it takes all of the old ones
  (`Sys.Drains.paid`), and it is made only when what the last one took is done (`Sys.Drains.done`).
-/
import Hookbox.Claiming
import Hookbox.DeadLetters
import Hookbox.Rounds
import Hookbox.Shutdown
import Hookbox.Truthful

namespace Hookbox

/-! ## 1. What is owing -/

/-- A row that still has to be dealt with. -/
def WebhookDelivery.Owing (d : WebhookDelivery) : Prop := d.immutable = false ∧ ¬ d.Terminal

instance : DecidablePred WebhookDelivery.Owing := fun d => by
  unfold WebhookDelivery.Owing WebhookDelivery.Terminal; infer_instance

/-- When a row can be claimed: at its `next_attempt_at`, or once its lease has run out. -/
def WebhookDelivery.DueBy (leaseDuration : Duration) (t : Timestamp) (d : WebhookDelivery) : Prop :=
  (d.state = .inFlight → DeliveryUpdate.Before d.lastAttemptAt (t - leaseDuration)) ∧
    (d.state = .pending ∨ d.state = .failed → d.nextAttemptAt ≤ t)

/-- The rows of an emitter that are owing, but for those in somebody's hands. -/
def Database.owing (db : Database) (emitterName : String) (held : List DeliveryId) : Nat :=
  db.deliveries.rows.countP fun d => d.emitterName = emitterName ∧ d.Owing ∧ d.deliveryId ∉ held

/-- The mutable rows that were ever queued for an emitter. -/
def Database.queued (db : Database) (emitterName : String) : Nat :=
  db.deliveries.rows.countP fun d => d.emitterName = emitterName ∧ d.immutable = false

theorem WebhookDelivery.Owing.waiting_or {d : WebhookDelivery} (h : d.Owing) :
    (d.state = .pending ∨ d.state = .failed) ∨ d.state = .inFlight := by
  have hterm := h.2
  unfold WebhookDelivery.Terminal at hterm
  cases hst : d.state <;> simp_all

theorem Database.Eligible.owing {e : String} {now : Timestamp} {d : WebhookDelivery}
    (h : Eligible e now d) : d.Owing := by
  refine ⟨h.2.2.2, ?_⟩
  rcases h.2.1 with hst | hst <;> simp [WebhookDelivery.Terminal, hst]

section Counts

variable {db : Database} {e : String} {held held' : List DeliveryId} {now : Timestamp}

theorem Database.owing_eq_zero (h : db.owing e held = 0) {d : WebhookDelivery}
    (hd : d ∈ db.deliveries.rows) (hname : d.emitterName = e) (howing : d.Owing) :
    d.deliveryId ∈ held := by
  by_contra hnot
  exact List.countP_eq_zero.mp h d hd (decide_eq_true ⟨hname, howing, hnot⟩)

/-- An update after which less is owing. -/
theorem Database.owing_le {u : DeliveryUpdate}
    (h : ∀ d ∈ db.deliveries.rows, d.emitterName = e → (u.run d).Owing → d.deliveryId ∉ held' →
      d.Owing ∧ d.deliveryId ∉ held) :
    (db.updateDeliveries u).owing e held' ≤ db.owing e held := by
  rw [owing, updateDeliveries_rows, List.countP_map, owing]
  refine List.countP_mono_left fun d hd hcount => ?_
  simp only [Function.comp_apply, u.run_emitterName, u.run_deliveryId, decide_eq_true_eq] at hcount
  obtain ⟨hname, howing, hnot⟩ := hcount
  exact decide_eq_true ⟨hname, h d hd hname howing hnot⟩

/-- No update changes what was ever queued. -/
theorem Database.queued_updateDeliveries (u : DeliveryUpdate) :
    (db.updateDeliveries u).queued e = db.queued e := by
  rw [queued, updateDeliveries_rows, List.countP_map, queued]
  congr 1
  funext d
  simp

/-- **A claim takes what it picks off the queue.** -/
theorem Database.ClaimSelect.owing {n : Nat} {picked : List DeliveryId}
    (h : db.ClaimSelect e n now [] picked) :
    (db.updateDeliveries (.claim picked now)).owing e picked + picked.length ≤ db.owing e [] := by
  have hpicked : db.deliveries.rows.countP (fun d => d.deliveryId ∈ picked) = picked.length := by
    refine Table.countP_key_mem h.1 fun id hid => ?_
    obtain ⟨d, hd, rfl, -⟩ := h.mem_keys hid
    exact Table.key_mem_keys hd
  rw [← hpicked, Database.owing, updateDeliveries_rows, List.countP_map, Database.owing]
  refine Nat.le_of_eq (countP_add_of_disjoint fun d hd => ?_).symm
  simp only [Function.comp_apply, decide_eq_true_eq, DeliveryUpdate.run_emitterName,
    DeliveryUpdate.run_deliveryId, List.not_mem_nil, not_false_eq_true, and_true]
  rcases h.claim_cases hd with ⟨hnot, heq⟩ | ⟨hp, hel, heq⟩
  · simp [heq, hnot]
  · simp [hp, hel.1, hel.owing]

end Counts

/-! ## 2. The undisturbed worker -/

/-- The system, with the last time that a statement of the worker has read off the database clock. -/
structure Clocked where
  sys : Sys
  clock : Timestamp

/-- When a step may be taken, and what the clock then shows: the storage calls go through, with no row
locked by anybody else, and read the clock in order; the emitter answers `Ok`; nobody stops the loop. -/
def WorkerStep.undisturbed (clock : Timestamp) : WorkerStep → Option Timestamp
  | .wake | .loadReceipt | .callEmit _ | .emitReturned _ (.ok ()) | .mark _ _ .ok
  | .refreshGauges _ _ _ _ false => some clock
  | .reclaimExpired now | .claimPending now [] _ => if clock ≤ now then some now else none
  | _ => none

/-- The others are not held to anything. -/
def Label.undisturbed (i : WorkerId) (clock : Timestamp) : Label → Option Timestamp
  | .worker j step => if j = i then step.undisturbed clock else some clock
  | _ => some clock

/-- The system around an undisturbed worker. -/
def undisturbed (dep : Deployment) (i : WorkerId) : Lts Clocked Label Event where
  step c l := do
    let clock ← l.undisturbed i c.clock
    return { sys := ← (system dep).step c.sys l, clock }
  obs c l := (system dep).obs c.sys l

section Undisturbed

variable {dep : Deployment} {i : WorkerId} {c c' : Clocked} {l : Label}

theorem undisturbed_step_iff :
    (undisturbed dep i).step c l = some c' ↔
      l.undisturbed i c.clock = some c'.clock ∧ (system dep).step c.sys l = some c'.sys := by
  simp only [undisturbed, Option.bind_eq_bind, Option.bind_eq_some_iff]
  constructor
  · rintro ⟨clock, hclock, sys, hsys, heq⟩
    cases heq
    exact ⟨hclock, hsys⟩
  · rintro ⟨hclock, hsys⟩
    exact ⟨c'.clock, hclock, c'.sys, hsys, rfl⟩

end Undisturbed

/-- **What an undisturbed step of the worker comes to**, for the rows. -/
inductive WorkerStep.Undisturbed (cfg : WorkerConfig) (db : Database) (w : WorkerState)
    (clock : Timestamp) : WorkerStep → WorkerOutcome → Timestamp → Prop where
  /-- No statement, and the same rows in hand. -/
  | still (step : WorkerStep) (o : WorkerOutcome) (hcalls : step.claimCall = 0)
      (hupdate : o.update = .nop) (hids : ∀ id, id ∈ o.next.rowIds ↔ id ∈ w.rowIds)
      (hphase : (w.phase = .polling ∧ o.next.phase = .reclaiming) ∨
        (w.phase ≠ .polling ∧ w.phase ≠ .reclaiming)) : Undisturbed cfg db w clock step o clock
  | reclaim (now : Timestamp) (o : WorkerOutcome) (hclock : clock ≤ now)
      (hphase : w.phase = .reclaiming) (hnext : o.next.rowIds = [])
      (hupdate : o.update = .reclaimExpired cfg.name cfg.leaseDuration now) :
      Undisturbed cfg db w clock (.reclaimExpired now) o now
  | claim (now : Timestamp) (picked : List DeliveryId) (o : WorkerOutcome) (hclock : clock ≤ now)
      (hphase : w.phase = .claiming)
      (hselect : db.ClaimSelect cfg.name cfg.concurrency now [] picked)
      (hids : ∀ id, id ∈ o.next.rowIds ↔ id ∈ picked) (hupdate : o.update = .claim picked now) :
      Undisturbed cfg db w clock (.claimPending now [] picked) o now
  | mark (id : DeliveryId) (input : MarkInput) (batch : List Dispatch) (o : WorkerOutcome)
      (hphase : w.phase = .dispatching batch) (hid : id ∈ w.rowIds)
      (hids : ∀ id', id' ∈ o.next.rowIds ↔ id' ∈ w.rowIds ∧ id' ≠ id)
      (hupdate : o.update = .mark id (.emitted input.dbNow)) :
      Undisturbed cfg db w clock (.mark id input .ok) o clock

section Cases

variable {cfg : WorkerConfig} {i : WorkerId} {db : Database} {w : WorkerState} {o : WorkerOutcome}
  {clock clock' : Timestamp}

theorem WorkerStep.undisturbed_cases {step : WorkerStep} (h : step.run cfg i db w = some o)
    (hstep : step.undisturbed clock = some clock')
    (hanswered : ∀ x ∈ w.outstanding, ∀ r, x.result = some r → r = .ok ())
    (hread : ∀ x ∈ w.outstanding, db.ReadableAt x.delivery.receiptId) :
    Undisturbed cfg db w clock step o clock' := by
  cases step with
  | wake =>
    cases hstep
    obtain ⟨hphase, rfl⟩ := run_wake h
    refine .still _ _ rfl rfl (fun id => ?_) (Or.inl ⟨hphase, rfl⟩)
    rw [rowIds_of_idle (w := w) (by rw [hphase]; rfl)]
    exact Iff.rfl
  | reclaimExpired now =>
    simp only [undisturbed, Option.ite_none_right_eq_some, Option.some.injEq] at hstep
    obtain ⟨hclock, rfl⟩ := hstep
    obtain ⟨hphase, rfl⟩ := run_reclaimExpired h
    exact .reclaim now _ hclock hphase rfl rfl
  | claimPending now locked picked =>
    cases locked with
    | cons id locked => cases hstep
    | nil =>
      simp only [undisturbed, Option.ite_none_right_eq_some, Option.some.injEq] at hstep
      obtain ⟨hclock, rfl⟩ := hstep
      obtain ⟨hphase, hselect, rfl⟩ := run_claimPending h
      refine .claim now picked _ hclock hphase hselect (fun id => ?_) rfl
      refine ⟨fun hid => ?_, fun hid => mem_rowIds_claimed hselect rfl hid⟩
      rw [rowIds_afterLoad _ _ _ rfl, List.map_nil, List.append_nil] at hid
      exact (claimedRows_sublist db picked now).subset hid
  | loadReceipt =>
    cases hstep
    obtain ⟨d, todo, done, hphase, ⟨p, hload, rfl⟩ | ⟨err, herr, -⟩⟩ := run_loadReceipt h
    · refine .still _ _ rfl rfl (fun id => ?_) (Or.inr (by simp [hphase]))
      rw [rowIds_afterLoad _ _ _ rfl, rowIds_afterLoad w (d :: todo) done hphase]
      simp [loadClaimed_fst hload, or_left_comm, eq_comm, or_comm]
    · -- The receipt of the row can be read.
      have hmem : ⟨d, none, none⟩ ∈ w.outstanding := by
        rw [WorkerState.outstanding, hphase]
        exact List.mem_append_left _ List.mem_cons_self
      obtain ⟨p, hp⟩ := Database.loadClaimed_succeeds_iff.mpr (hread _ hmem)
      rw [hp] at herr
      cases herr
  | callEmit id =>
    cases hstep
    obtain ⟨batch, d, receipt, hphase, -, rfl⟩ := run_callEmit h
    refine .still _ _ rfl rfl (fun id' => ?_) (Or.inr (by simp [hphase]))
    rw [rowIds_dispatching rfl, rowIds_dispatching hphase, advance_rowIds]
  | emitReturned id result =>
    have hok : clock' = clock := by
      cases result with
      | error e => cases hstep
      | ok u =>
        cases hstep
        rfl
    subst hok
    obtain ⟨batch, d, receipt, hphase, -, rfl⟩ := run_emitReturned h
    refine .still _ _ rfl rfl (fun id' => ?_) (Or.inr (by simp [hphase]))
    rw [rowIds_dispatching rfl, rowIds_dispatching hphase, advance_rowIds]
  | mark id input outcome =>
    cases outcome with
    | failed => cases hstep
    | lost => cases hstep
    | ok =>
      cases hstep
      obtain ⟨batch, d, receipt, result, hphase, hf, next, hnext, -, -, hcases⟩ := run_mark h
      obtain ⟨hmem, hid⟩ := future_eq_some hf
      have hids := rowIds_dispatching hphase
      obtain rfl : result = .ok () := by
        refine hanswered (Dispatch.outstanding ⟨d, receipt, .marking result⟩) ?_ result rfl
        rw [outstanding_dispatching hphase]
        exact List.mem_map_of_mem hmem
      rcases hcases with ⟨hfailed, -⟩ | ⟨-, rfl⟩
      · cases hfailed
      · refine .mark id input batch _ hphase ?_ (fun id' => ?_) rfl
        · rw [hids, ← hid]
          exact List.mem_map_of_mem hmem
        · rw [WorkerState.rowIds, WorkerState.outstanding, hnext, outstanding_afterMark, hids,
            List.map_map, Function.comp_def]
          simp only [Dispatch.outstanding, List.mem_map, List.mem_filter, decide_eq_true_eq]
          grind
  | refreshGauges now dlqOk pendingOk utcNow stop =>
    cases stop with
    | true => cases hstep
    | false =>
      cases hstep
      obtain ⟨afterBatch, health, hphase, rfl⟩ := run_refreshGauges h
      refine .still _ _ rfl rfl (fun id => ?_) (Or.inr (by simp [hphase]))
      rw [rowIds_of_idle (w := w) (by rw [hphase]; rfl), rowIds_of_idle (by simp [WorkerPhase.outstanding])]
  | _ => cases hstep

/-- The emitter goes on answering `Ok`. -/
theorem WorkerStep.undisturbed_answered {step : WorkerStep} (h : step.run cfg i db w = some o)
    (hstep : step.undisturbed clock = some clock')
    (hanswered : ∀ x ∈ w.outstanding, ∀ r, x.result = some r → r = .ok ()) {x : Outstanding}
    (hx : x ∈ o.next.outstanding) {r : Except EmitError Unit} (hr : x.result = some r) :
    r = .ok () := by
  cases step with
  | wake =>
    obtain ⟨-, rfl⟩ := run_wake h
    cases hx
  | reclaimExpired now =>
    obtain ⟨-, rfl⟩ := run_reclaimExpired h
    cases hx
  | claimPending now locked picked =>
    obtain ⟨-, -, rfl⟩ := run_claimPending h
    rcases mem_outstanding_afterLoad hx with ⟨d, -, rfl⟩ | ⟨p, -, rfl⟩ <;> cases hr
  | loadReceipt =>
    obtain ⟨d, todo, done, -, ⟨p, -, rfl⟩ | ⟨e, -, rfl⟩⟩ := run_loadReceipt h
    · rcases mem_outstanding_afterLoad hx with ⟨d, -, rfl⟩ | ⟨p, -, rfl⟩ <;> cases hr
    · cases hx
  | callEmit id =>
    obtain ⟨batch, d, receipt, hphase, -, rfl⟩ := run_callEmit h
    obtain ⟨y, hy, rfl⟩ := List.mem_map.mp hx
    rcases mem_advance hy with ⟨hy, -⟩ | ⟨-, hp, -⟩
    · exact hanswered _ (outstanding_dispatching hphase ▸ List.mem_map_of_mem hy) r hr
    · rw [Dispatch.outstanding, hp] at hr
      cases hr
  | emitReturned id result =>
    obtain ⟨batch, d, receipt, hphase, -, rfl⟩ := run_emitReturned h
    obtain ⟨y, hy, rfl⟩ := List.mem_map.mp hx
    rcases mem_advance hy with ⟨hy, -⟩ | ⟨-, hp, -⟩
    · exact hanswered _ (outstanding_dispatching hphase ▸ List.mem_map_of_mem hy) r hr
    · rw [Dispatch.outstanding, hp] at hr
      cases hr
      cases r with
      | error e => cases hstep
      | ok u => rfl
  | mark id input outcome =>
    obtain ⟨batch, d, receipt, result, hphase, -, next, hnext, -, -, hcases⟩ := run_mark h
    have hx' : x ∈ next.outstanding := by
      rcases hcases with ⟨-, rfl⟩ | ⟨-, rfl⟩ <;> exact hx
    rw [WorkerState.outstanding, hnext, outstanding_afterMark] at hx'
    obtain ⟨y, hy, rfl⟩ := List.mem_map.mp hx'
    refine hanswered _ (outstanding_dispatching hphase ▸ List.mem_map_of_mem ?_) r hr
    exact (List.mem_filter.mp hy).1
  | refreshGauges now dlqOk pendingOk utcNow stop =>
    cases stop with
    | true => cases hstep
    | false =>
      obtain ⟨afterBatch, health, -, rfl⟩ := run_refreshGauges h
      simp [WorkerState.outstanding, WorkerPhase.outstanding] at hx
  | _ => cases hstep

/-- What the worker has outstanding, its receipts can be read. -/
theorem WorkerStep.Effect.readable (heff : WorkerStep.Effect cfg i db w o) (hleased : db.Leased)
    (hread : ∀ x ∈ w.outstanding, db.ReadableAt x.delivery.receiptId) {x : Outstanding}
    (hx : x ∈ o.next.outstanding) : db.ReadableAt x.delivery.receiptId := by
  rcases heff.outstanding_id hx with ⟨y, hy, heq, -⟩ | ⟨now, locked, picked, -, -, hclaimed, -⟩
  · exact heq ▸ hread y hy
  · obtain ⟨d, hd, -, heq⟩ := Database.mem_claimedRows.mp hclaimed
    obtain ⟨row, hrow, hid⟩ := Table.mem_keys.mp (db.receiptFk d hd)
    exact ⟨row, hrow, by rw [heq, hid], hleased.readable row hrow⟩

end Cases

/-! ## 3. The others -/

/-- What the others do to the rows of an emitter: they leave them alone, and queue new ones. -/
def Database.Frames (e : String) (db db' : Database) : Prop :=
  ∃ (u : DeliveryUpdate) (new : List WebhookDelivery),
    db'.deliveries.rows = db.deliveries.rows.map u.run ++ new ∧
      (∀ d ∈ db.deliveries.rows, d.emitterName = e → u.run d = d) ∧
      ∀ d ∈ new, d.state = .pending ∧ d.immutable = false

theorem Database.Grows.frames {db db' : Database} (h : db.Grows db') (e : String) :
    db.Frames e db' := by
  obtain ⟨receiptId, now, names, draw, hrows⟩ := h.deliveries
  refine ⟨.nop, newDeliveries receiptId now names draw, ?_, fun _ _ _ => rfl, fun d hd => ?_⟩
  · rw [hrows]
    exact congrArg (· ++ _) (List.map_id _).symm
  · obtain ⟨k, name, -, rfl⟩ := mem_newDeliveries hd
    exact ⟨rfl, rfl⟩

theorem system_frames {dep : Deployment} {i : WorkerId} {s s' : Sys} {l : Label}
    (hname : ∀ j, j ≠ i → (dep.workers j).name ≠ (dep.workers i).name) (hown : s.OwnRows dep)
    (hl : ∀ step, l ≠ .worker i step) (h : (system dep).step s l = some s') :
    s.db.Frames (dep.workers i).name s'.db := by
  cases l with
  | worker j step =>
    obtain ⟨o, heff, rfl, -⟩ := system_worker h
    have hj : j ≠ i := fun hj => hl step (by rw [hj])
    refine ⟨o.update, [], (List.append_nil _).symm, fun d hd hemit => ?_, by simp⟩
    exact heff.frame (hown j) hd (by rw [hemit]; exact Ne.symm (hname j hj)) rfl
  | ingest call step =>
    obtain ⟨o, heff, rfl, -⟩ := system_ingest h
    exact heff.grows.frames _
  | admin a =>
    obtain ⟨db, hrun, rfl, -⟩ := system_admin h
    exact (AdminStep.grows hrun).frames _

section Frames

variable {e : String} {db db' : Database} (h : db.Frames e db')

include h

theorem Database.Frames.mem {d : WebhookDelivery} (hd : d ∈ db.deliveries.rows)
    (hname : d.emitterName = e) : d ∈ db'.deliveries.rows := by
  obtain ⟨u, new, hrows, hu, -⟩ := h
  rw [hrows]
  exact List.mem_append_left _ (List.mem_map.mpr ⟨d, hd, hu d hd hname⟩)

theorem Database.Frames.cases {d : WebhookDelivery} (hd : d ∈ db'.deliveries.rows)
    (hname : d.emitterName = e) :
    d ∈ db.deliveries.rows ∨ (d.state = .pending ∧ d.deliveryId ∉ db.deliveries.keys) := by
  obtain ⟨u, new, hrows, hu, hnew⟩ := h
  have hpk := db'.deliveries.pk
  rw [hrows, List.map_append, List.nodup_append] at hpk
  rw [hrows] at hd
  rcases List.mem_append.mp hd with hd | hd
  · obtain ⟨d₀, hd₀, rfl⟩ := List.mem_map.mp hd
    rw [u.run_emitterName] at hname
    rw [hu d₀ hd₀ hname]
    exact Or.inl hd₀
  · refine Or.inr ⟨(hnew d hd).1, fun hmem => ?_⟩
    obtain ⟨d₀, hd₀, hid⟩ := Table.mem_keys.mp hmem
    refine hpk.2.2 d.deliveryId ?_ _ (List.mem_map_of_mem hd) rfl
    exact List.mem_map.mpr ⟨u.run d₀, List.mem_map_of_mem hd₀, (u.run_deliveryId d₀).trans hid⟩

/-- What is owing grows by what is queued. -/
theorem Database.Frames.owing {held : List DeliveryId}
    (hheld : ∀ id ∈ held, id ∈ db.deliveries.keys) :
    db'.owing e held + db.queued e = db.owing e held + db'.queued e := by
  obtain ⟨u, new, hrows, hu, hnew⟩ := h
  have hpk := db'.deliveries.pk
  rw [hrows, List.map_append, List.nodup_append] at hpk
  -- The rows there were before are counted as before.
  have hsame : ∀ p : WebhookDelivery → Bool, (∀ d, p d = true → d.emitterName = e) →
      (db.deliveries.rows.map u.run).countP p = db.deliveries.rows.countP p := by
    intro p hp
    rw [List.countP_map]
    refine List.countP_congr fun d hd => ?_
    by_cases hname : d.emitterName = e
    · rw [Function.comp_apply, hu d hd hname]
    · exact ⟨fun hc => absurd ((u.run_emitterName d).symm.trans (hp _ hc)) hname,
        fun hc => absurd (hp d hc) hname⟩
  have hcount : new.countP (fun d => d.emitterName = e ∧ d.Owing ∧ d.deliveryId ∉ held)
      = new.countP fun d => d.emitterName = e ∧ d.immutable = false := by
    refine List.countP_congr fun d hd => ?_
    obtain ⟨hst, himm⟩ := hnew d hd
    have hnot : d.deliveryId ∉ held := fun hid => by
      obtain ⟨d₀, hd₀, heq⟩ := Table.mem_keys.mp (hheld _ hid)
      refine hpk.2.2 d.deliveryId ?_ _ (List.mem_map_of_mem hd) rfl
      exact List.mem_map.mpr ⟨u.run d₀, List.mem_map_of_mem hd₀, (u.run_deliveryId d₀).trans heq⟩
    simp [WebhookDelivery.Owing, WebhookDelivery.Terminal, hst, himm, hnot]
  simp only [Database.owing, Database.queued, hrows, List.countP_append]
  rw [hsame _ fun d hd => (of_decide_eq_true hd).1, hsame _ fun d hd => (of_decide_eq_true hd).1,
    hcount]
  omega

end Frames

/-! ## 4. The invariant -/

/-- The row with this id is owing to the emitter. -/
def Database.OwingId (db : Database) (e : String) (id : DeliveryId) : Prop :=
  ∃ d ∈ db.deliveries.rows, d.deliveryId = id ∧ d.emitterName = e ∧ d.Owing

/-- The rows of `db₀` that are still owing are all in somebody's hands. -/
def Database.InHand (db₀ : Database) (e : String) (db : Database) (held : List DeliveryId) : Prop :=
  ∀ d ∈ db.deliveries.rows, db₀.OwingId e d.deliveryId → d.Owing → d.deliveryId ∈ held

/-- **The invariant**, after the steps `h` from a state `s₀` in which everything was due by `t`. -/
structure Sys.Drains (dep : Deployment) (i : WorkerId) (s₀ : Sys) (t : Timestamp) (h : List Label)
    (c : Clocked) : Prop where
  run : (system dep).exec s₀ h = some c.sys
  clock : t ≤ c.clock
  proper : (c.sys.workers i).phase.Proper
  running : (c.sys.workers i).phase ≠ .stopped
  /-- The worker holds its rows, their receipts can be read, and the emitter has answered `Ok`. -/
  held : ∀ x ∈ (c.sys.workers i).outstanding, c.sys.db.Held x
  readable : ∀ x ∈ (c.sys.workers i).outstanding, c.sys.db.ReadableAt x.delivery.receiptId
  answered : ∀ x ∈ (c.sys.workers i).outstanding, ∀ r, x.result = some r → r = .ok ()
  /-- What is in flight is in the worker's hands, or was left behind and is reclaimed next. -/
  flying : ∀ d ∈ c.sys.db.deliveries.rows, d.emitterName = (dep.workers i).name → d.Owing →
    d.state = .inFlight → d.deliveryId ∈ (c.sys.workers i).rowIds ∨
      (((c.sys.workers i).phase = .polling ∨ (c.sys.workers i).phase = .reclaiming) ∧
        DeliveryUpdate.Before d.lastAttemptAt (t - (dep.workers i).leaseDuration))
  /-- The old rows are still rows of the emitter, none is given up, and they are due. -/
  old : ∀ d ∈ c.sys.db.deliveries.rows, s₀.db.OwingId (dep.workers i).name d.deliveryId →
    d.emitterName = (dep.workers i).name ∧ d.immutable = false ∧ d.state ≠ .deadLettered ∧
      (d.state = .pending ∨ d.state = .failed → d.nextAttemptAt ≤ c.clock)
  /-- The ledger of the claims. -/
  paid : s₀.db.InHand (dep.workers i).name c.sys.db (c.sys.workers i).rowIds ∨
    c.sys.db.owing (dep.workers i).name (c.sys.workers i).rowIds
        + (dep.workers i).concurrency * claimCallsOf i h + s₀.db.queued (dep.workers i).name
      ≤ s₀.db.owing (dep.workers i).name [] + c.sys.db.queued (dep.workers i).name
  /-- The ledger of the batches that are done: all but the last one. -/
  done : s₀.db.InHand (dep.workers i).name c.sys.db [] ∨
    c.sys.db.owing (dep.workers i).name []
        + (dep.workers i).concurrency * claimCallsOf i h + s₀.db.queued (dep.workers i).name
      ≤ s₀.db.owing (dep.workers i).name [] + c.sys.db.queued (dep.workers i).name
        + (dep.workers i).concurrency

section Step

variable {dep : Deployment} {i : WorkerId} {db : Database} {before h : List Label} {s₀ : Sys}
  {t : Timestamp} {c c' : Clocked}

theorem Sys.Drains.start (hpolling : (s₀.workers i).phase = .polling)
    (hdue : ∀ d ∈ s₀.db.deliveries.rows, d.emitterName = (dep.workers i).name → d.Owing →
      d.DueBy (dep.workers i).leaseDuration t) : Sys.Drains dep i s₀ t [] ⟨s₀, t⟩ := by
  have hidle : (s₀.workers i).outstanding = [] := by
    rw [WorkerState.outstanding, hpolling]
    rfl
  have hids : (s₀.workers i).rowIds = [] := by
    rw [WorkerState.rowIds, hidle]
    rfl
  have hnone : ∀ x, x ∉ (s₀.workers i).outstanding := fun x hx => by simp [hidle] at hx
  refine ⟨rfl, Int.le_refl _, by simp [hpolling, WorkerPhase.Proper], by simp [hpolling],
    fun x hx => absurd hx (hnone x), fun x hx => absurd hx (hnone x),
    fun x hx => absurd hx (hnone x), fun d hd hname howing hst => ?_, ?_,
    Or.inr (by rw [hids]; exact Nat.le_refl _), Or.inr (Nat.le_add_right _ _)⟩
  · exact Or.inr ⟨Or.inl hpolling, (hdue d hd hname howing).1 hst⟩
  · rintro d hd ⟨d₀, hd₀, hid, hname, howing⟩
    obtain rfl := Table.eq_of_key_eq hd₀ hd hid
    refine ⟨hname, howing.1, fun hst => howing.2 (Or.inr hst), (hdue d₀ hd hname howing).2⟩

/-- An old row is still there. -/
theorem Database.OwingId.mem_keys (h₀ : (system dep).exec (.start dep db) before = some s₀)
    {s : Sys} (hrun : (system dep).exec s₀ h = some s) {e : String} {id : DeliveryId}
    (hid : s₀.db.OwingId e id) : id ∈ s.db.deliveries.keys := by
  obtain ⟨d, hd, rfl, -⟩ := hid
  obtain ⟨d', hd', hkept⟩ := (system_kept h₀ hrun).deliveries d hd
  exact Table.mem_keys.mpr ⟨d', hd', hkept.deliveryId⟩

theorem claimCallsOf_snoc (l : Label) :
    claimCallsOf i (h ++ [l]) = claimCallsOf i h + l.ofWorker i WorkerStep.claimCall := by
  simp [claimCallsOf]

/-- A step of somebody else keeps the invariant. -/
theorem Sys.Drains.other_step (hname : ∀ j, j ≠ i → (dep.workers j).name ≠ (dep.workers i).name)
    (h₀ : (system dep).exec (.start dep db) before = some s₀) (hs : Sys.Drains dep i s₀ t h c)
    {l : Label} (hl : ∀ step, l ≠ .worker i step) (hstep : (undisturbed dep i).step c l = some c') :
    Sys.Drains dep i s₀ t (h ++ [l]) c' := by
  obtain ⟨hclock, hsys⟩ := undisturbed_step_iff.mp hstep
  have hrun := hs.run
  have hreach : (system dep).exec (.start dep db) (before ++ h) = some c.sys := by
    rw [Lts.exec_append, h₀, Option.bind_some, hrun]
  have hown := system_ownRows hreach
  have hframes := system_frames hname hown hl hsys
  have hw := system_workers_of_ne hl hsys
  have hsame : c'.clock = c.clock := by
    cases l with
    | worker j step =>
      rw [Label.undisturbed, if_neg fun hj => hl step (by rw [hj]), Option.some.injEq] at hclock
      exact hclock.symm
    | ingest call step => exact (Option.some.inj hclock).symm
    | admin a => exact (Option.some.inj hclock).symm
  have hcalls : claimCallsOf i (h ++ [l]) = claimCallsOf i h := by
    rw [claimCallsOf_snoc, Label.ofWorker_of_ne hl, Nat.add_zero]
  -- An old row of the new state was there before.
  have hbefore : ∀ d ∈ c'.sys.db.deliveries.rows, s₀.db.OwingId (dep.workers i).name d.deliveryId →
      d ∈ c.sys.db.deliveries.rows := by
    intro d hd hid
    obtain ⟨d₁, hd₁, heq⟩ := Table.mem_keys.mp (hid.mem_keys h₀ hrun)
    have hname₁ := (hs.old d₁ hd₁ (heq ▸ hid)).1
    rwa [← Table.eq_of_key_eq (hframes.mem hd₁ hname₁) hd heq]
  have hheld : ∀ id ∈ (c.sys.workers i).rowIds, id ∈ c.sys.db.deliveries.keys := by
    intro id hid
    obtain ⟨x, hx, rfl⟩ := List.mem_map.mp hid
    obtain ⟨d, hd, hid, -⟩ := hs.held x hx
    exact Table.mem_keys.mpr ⟨d, hd, hid⟩
  have hgrows := hframes.owing hheld
  have hgrows₀ := hframes.owing fun id (hid : id ∈ []) => absurd hid List.not_mem_nil
  refine ⟨Lts.exec_snoc.mpr ⟨_, hrun, hsys⟩, hsame ▸ hs.clock, hw ▸ hs.proper, hw ▸ hs.running,
    ?_, ?_, by rw [hw]; exact hs.answered, ?_, ?_, ?_, ?_⟩
  · intro x hx
    rw [hw] at hx
    obtain ⟨d, hd, hid, hrest⟩ := hs.held x hx
    obtain ⟨d₀, hd₀, hid₀, hemit⟩ := hown i x hx
    obtain rfl := Table.eq_of_key_eq hd₀ hd (hid₀.trans hid.symm)
    exact ⟨d₀, hframes.mem hd hemit, hid, hrest⟩
  · intro x hx
    rw [hw] at hx
    exact system_readableAt hsys (hs.readable x hx)
  · intro d hd hemit howing hst
    rw [hw]
    rcases hframes.cases hd hemit with hd | ⟨hpending, -⟩
    · exact hs.flying d hd hemit howing hst
    · rw [hpending] at hst
      cases hst
  · intro d hd hid
    rw [hsame]
    exact hs.old d (hbefore d hd hid) hid
  · rw [hw, hcalls]
    rcases hs.paid with hin | hle
    · exact Or.inl fun d hd hid => hin d (hbefore d hd hid) hid
    · exact Or.inr (by omega)
  · rw [hcalls]
    rcases hs.done with hin | hle
    · exact Or.inl fun d hd hid => hin d (hbefore d hd hid) hid
    · exact Or.inr (by omega)

/-- What the worker's own step does to an old row. -/
theorem Sys.Drains.own_old (hs : Sys.Drains dep i s₀ t h c) {step : WorkerStep} {o : WorkerOutcome}
    {clock : Timestamp}
    (hund : WorkerStep.Undisturbed (dep.workers i) c.sys.db (c.sys.workers i) c.clock step o clock)
    {d : WebhookDelivery} (hd : d ∈ c.sys.db.deliveries.rows)
    (hid : s₀.db.OwingId (dep.workers i).name d.deliveryId) :
    (o.update.run d).state ≠ .deadLettered ∧
      ((o.update.run d).state = .pending ∨ (o.update.run d).state = .failed →
        (o.update.run d).nextAttemptAt ≤ clock) := by
  obtain ⟨-, -, hdead, hdue⟩ := hs.old d hd hid
  cases hund with
  | still step o hcalls hupdate hids hphase =>
    rw [hupdate]
    exact ⟨hdead, hdue⟩
  | reclaim now o hclock hphase hnext hupdate =>
    rw [hupdate]
    rcases DeliveryUpdate.reclaimExpired_cases (dep.workers i).name (dep.workers i).leaseDuration
      clock d with ⟨-, heq⟩ | ⟨-, heq⟩
    · rw [heq]
      exact ⟨hdead, fun hst => Int.le_trans (hdue hst) hclock⟩
    · rw [heq]
      exact ⟨by simp, fun _ => Int.le_refl _⟩
  | claim now picked o hclock hphase hselect hids hupdate =>
    rw [hupdate]
    rcases hselect.claim_cases hd with ⟨-, heq⟩ | ⟨-, -, heq⟩
    · rw [heq]
      exact ⟨hdead, fun hst => Int.le_trans (hdue hst) hclock⟩
    · rw [heq]
      exact ⟨by simp, fun hst => by simp at hst⟩
  | mark id input batch o hphase hid hids hupdate =>
    rw [hupdate]
    rcases DeliveryUpdate.mark_cases id (.emitted input.dbNow) d with ⟨-, heq⟩ | ⟨-, -, heq⟩
    · rw [heq]
      exact ⟨hdead, hdue⟩
    · rw [heq]
      simp [DeliveryUpdate.Mark.set]

/-- What is in flight after the worker's own step. -/
theorem Sys.Drains.own_flying (hs : Sys.Drains dep i s₀ t h c) {step : WorkerStep}
    {o : WorkerOutcome} {clock : Timestamp}
    (hund : WorkerStep.Undisturbed (dep.workers i) c.sys.db (c.sys.workers i) c.clock step o clock)
    {d : WebhookDelivery} (hd : d ∈ c.sys.db.deliveries.rows)
    (hname : d.emitterName = (dep.workers i).name) (howing : (o.update.run d).Owing)
    (hst : (o.update.run d).state = .inFlight) : d.deliveryId ∈ o.next.rowIds ∨
      ((o.next.phase = .polling ∨ o.next.phase = .reclaiming) ∧
        DeliveryUpdate.Before (o.update.run d).lastAttemptAt
          (t - (dep.workers i).leaseDuration)) := by
  cases hund with
  | still step o hcalls hupdate hids hphase =>
    rw [hupdate] at howing hst ⊢
    rcases hs.flying d hd hname howing hst with hid | ⟨hpoll, hbefore⟩
    · exact Or.inl ((hids _).mpr hid)
    · rcases hphase with ⟨-, hnext⟩ | ⟨hnot, hnot'⟩
      · exact Or.inr ⟨Or.inr hnext, hbefore⟩
      · rcases hpoll with hpoll | hpoll
        · exact absurd hpoll hnot
        · exact absurd hpoll hnot'
  | reclaim now o hclock hphase hnext hupdate =>
    rw [hupdate] at howing hst
    rcases DeliveryUpdate.reclaimExpired_cases (dep.workers i).name (dep.workers i).leaseDuration
      clock d with ⟨hnot, heq⟩ | ⟨-, heq⟩
    · -- What was left behind has run out of its lease by now.
      rw [heq] at howing hst
      have hidle := rowIds_of_idle (w := c.sys.workers i) (by rw [hphase]; rfl)
      rcases hs.flying d hd hname howing hst with hid | ⟨-, hbefore⟩
      · rw [hidle] at hid
        cases hid
      · refine absurd ⟨hname, hst, ?_, howing.1⟩ hnot
        cases hlast : d.lastAttemptAt with
        | none =>
          rw [hlast] at hbefore
          exact hbefore
        | some last =>
          rw [hlast] at hbefore
          have hle : t ≤ clock := Int.le_trans hs.clock hclock
          exact Int.lt_of_lt_of_le hbefore (Int.sub_le_sub_right hle _)
    · rw [heq] at hst
      cases hst
  | claim now picked o hclock hphase hselect hids hupdate =>
    rw [hupdate] at howing hst
    rcases hselect.claim_cases hd with ⟨hnot, heq⟩ | ⟨hp, -, -⟩
    · rw [heq] at howing hst
      have hidle := rowIds_of_idle (w := c.sys.workers i) (by rw [hphase]; rfl)
      rcases hs.flying d hd hname howing hst with hid | ⟨hpoll, -⟩
      · rw [hidle] at hid
        cases hid
      · rw [hphase] at hpoll
        simp at hpoll
    · exact Or.inl ((hids _).mpr hp)
  | mark id input batch o hphase hid hids hupdate =>
    rw [hupdate] at howing hst
    rcases DeliveryUpdate.mark_cases id (.emitted input.dbNow) d with ⟨hnot, heq⟩ | ⟨-, -, heq⟩
    · rw [heq] at howing hst
      rcases hs.flying d hd hname howing hst with hheld | ⟨hpoll, -⟩
      · exact Or.inl ((hids _).mpr ⟨hheld, fun heq => hnot ⟨heq, hst⟩⟩)
      · rw [hphase] at hpoll
        simp at hpoll
    · rw [heq] at hst
      cases hst

/-- No step makes a row owing that was not. -/
theorem WorkerStep.Undisturbed.owing {cfg : WorkerConfig} {db : Database} {w : WorkerState}
    {clock clock' : Timestamp} {step : WorkerStep} {o : WorkerOutcome}
    (hund : WorkerStep.Undisturbed cfg db w clock step o clock') {d : WebhookDelivery}
    (hd : d ∈ db.deliveries.rows) (h : (o.update.run d).Owing) : d.Owing := by
  cases hund with
  | still step o hcalls hupdate hids hphase =>
    rw [hupdate] at h
    exact h
  | reclaim now o hclock hphase hnext hupdate =>
    rw [hupdate] at h
    rcases DeliveryUpdate.reclaimExpired_cases cfg.name cfg.leaseDuration clock' d with
      ⟨-, heq⟩ | ⟨⟨-, hst, -, himm⟩, -⟩
    · rwa [heq] at h
    · exact ⟨himm, by simp [WebhookDelivery.Terminal, hst]⟩
  | claim now picked o hclock hphase hselect hids hupdate =>
    rw [hupdate] at h
    rcases hselect.claim_cases hd with ⟨-, heq⟩ | ⟨-, hel, -⟩
    · rwa [heq] at h
    · exact hel.owing
  | mark id input batch o hphase hid hids hupdate =>
    rw [hupdate] at h
    rcases DeliveryUpdate.mark_cases id (.emitted input.dbNow) d with ⟨-, heq⟩ | ⟨-, -, heq⟩
    · rwa [heq] at h
    · rw [heq] at h
      exact absurd (Or.inl rfl) h.2

/-- Rows that were all in hand are all in hand after a step that keeps hold of the owing ones. -/
theorem WorkerStep.Undisturbed.inHand {cfg : WorkerConfig} {db db₀ : Database} {w : WorkerState}
    {clock clock' : Timestamp} {step : WorkerStep} {o : WorkerOutcome} {e : String}
    {held held' : List DeliveryId} (hund : WorkerStep.Undisturbed cfg db w clock step o clock')
    (hin : db₀.InHand e db held)
    (hheld : ∀ d ∈ db.deliveries.rows, (o.update.run d).Owing → d.deliveryId ∈ held →
      d.deliveryId ∈ held') :
    db₀.InHand e (db.updateDeliveries o.update) held' := by
  intro d' hd' hid howing
  obtain ⟨d, hd, rfl⟩ := List.mem_map.mp hd'
  rw [DeliveryUpdate.run_deliveryId] at hid ⊢
  exact hheld d hd howing (hin d hd hid (hund.owing hd howing))

/-- **The ledger of the claims**, over the worker's own step.  A claim with room left picks every
candidate, and the old rows are all candidates. -/
theorem Sys.Drains.own_paid (hs : Sys.Drains dep i s₀ t h c) {step : WorkerStep} {o : WorkerOutcome}
    {clock : Timestamp}
    (hund : WorkerStep.Undisturbed (dep.workers i) c.sys.db (c.sys.workers i) c.clock step o clock) :
    s₀.db.InHand (dep.workers i).name (c.sys.db.updateDeliveries o.update) o.next.rowIds ∨
      (c.sys.db.updateDeliveries o.update).owing (dep.workers i).name o.next.rowIds
          + (dep.workers i).concurrency * (claimCallsOf i h + step.claimCall)
          + s₀.db.queued (dep.workers i).name
        ≤ s₀.db.owing (dep.workers i).name [] + c.sys.db.queued (dep.workers i).name := by
  have hund' := hund
  cases hund with
  | still step o hcalls hupdate hids hphase =>
    rcases hs.paid with hin | hle
    · exact Or.inl (hund'.inHand hin fun d _ _ hheld => (hids _).mpr hheld)
    · rw [hcalls]
      refine Or.inr (Nat.le_trans (Nat.add_le_add_right (Nat.add_le_add_right ?_ _) _) hle)
      exact Database.owing_le fun d hd _ howing hnot =>
        ⟨hund'.owing hd howing, fun hid => hnot ((hids _).mpr hid)⟩
  | reclaim now o hclock hphase hnext hupdate =>
    have hidle := rowIds_of_idle (w := c.sys.workers i) (by rw [hphase]; rfl)
    rw [hnext]
    rcases hs.paid with hin | hle
    · rw [hidle] at hin
      exact Or.inl (hund'.inHand hin fun _ _ _ hheld => hheld)
    · rw [hidle] at hle
      refine Or.inr (Nat.le_trans (Nat.add_le_add_right (Nat.add_le_add_right ?_ _) _) hle)
      exact Database.owing_le fun d hd _ howing _ => ⟨hund'.owing hd howing, List.not_mem_nil⟩
  | claim now picked o hclock hphase hselect hids hupdate =>
    have hidle := rowIds_of_idle (w := c.sys.workers i) (by rw [hphase]; rfl)
    rcases hs.paid with hin | hle
    · rw [hidle] at hin
      exact Or.inl (hund'.inHand hin fun d _ _ hheld => absurd hheld List.not_mem_nil)
    rw [hidle] at hle
    rw [hupdate]
    by_cases hroom : (c.sys.db.candidates (dep.workers i).name clock []).length
        ≤ (dep.workers i).concurrency
    · -- All candidates are picked.
      refine Or.inl fun d' hd' hid howing => ?_
      obtain ⟨d, hd, rfl⟩ := List.mem_map.mp hd'
      rw [DeliveryUpdate.run_deliveryId] at hid ⊢
      refine (hids _).mpr ?_
      rcases hselect.claim_cases hd with ⟨-, heq⟩ | ⟨hp, -, -⟩
      · rw [heq] at howing
        obtain ⟨hname, himm, -, hdue⟩ := hs.old d hd hid
        have hwaiting : d.state = .pending ∨ d.state = .failed := by
          refine howing.waiting_or.resolve_right fun hst => ?_
          rcases hs.flying d hd hname howing hst with hheld | ⟨hpoll, -⟩
          · rw [hidle] at hheld
            cases hheld
          · simp [hphase] at hpoll
        exact ClaimSelect.picks_all hselect hroom (Database.mem_candidates.mpr
          ⟨hd, ⟨hname, hwaiting, Int.le_trans (hdue hwaiting) hclock, himm⟩, List.not_mem_nil⟩)
      · exact hp
    · -- As many rows leave the queue as the limit allows.
      have hlength : picked.length = (dep.workers i).concurrency :=
        hselect.2.2.1.trans (Nat.min_eq_left (Nat.le_of_not_le hroom))
      have htaken := Database.ClaimSelect.owing hselect
      have hsame : (c.sys.db.updateDeliveries (.claim picked clock)).owing (dep.workers i).name
          o.next.rowIds = (c.sys.db.updateDeliveries (.claim picked clock)).owing
            (dep.workers i).name picked := by
        refine List.countP_congr fun d _ => ?_
        simp only [hids]
      rw [hlength] at htaken
      refine Or.inr ?_
      rw [hsame, WorkerStep.claimCall, Nat.mul_add, Nat.mul_one]
      omega
  | mark id input batch o hphase hid hids hupdate =>
    -- The row that is marked is owing no more.
    have hother : ∀ d ∈ c.sys.db.deliveries.rows, (o.update.run d).Owing →
        d.deliveryId ∈ (c.sys.workers i).rowIds → d.deliveryId ∈ o.next.rowIds := by
      intro d hd howing hheld
      refine (hids _).mpr ⟨hheld, fun hsame => ?_⟩
      obtain ⟨x, hx, hxid⟩ := List.mem_map.mp hheld
      obtain ⟨d₀, hd₀, hid₀, hst, -⟩ := hs.held x hx
      obtain rfl := Table.eq_of_key_eq hd hd₀ (hxid.symm.trans hid₀.symm)
      rw [hupdate, DeliveryUpdate.mark_run, if_pos ⟨hsame, hst⟩] at howing
      exact howing.2 (Or.inl rfl)
    rcases hs.paid with hin | hle
    · exact Or.inl (hund'.inHand hin hother)
    · refine Or.inr (Nat.le_trans (Nat.add_le_add_right (Nat.add_le_add_right ?_ _) _) hle)
      exact Database.owing_le fun d hd _ howing hnot =>
        ⟨hund'.owing hd howing, fun hheld => hnot (hother d hd howing hheld)⟩

/-- **The ledger of the batches**, over the worker's own step: nothing is in its hands when it claims,
so what the ledger of the claims says then is true of what is done. -/
theorem Sys.Drains.own_done (hs : Sys.Drains dep i s₀ t h c) {step : WorkerStep} {o : WorkerOutcome}
    {clock : Timestamp}
    (hund : WorkerStep.Undisturbed (dep.workers i) c.sys.db (c.sys.workers i) c.clock step o clock) :
    s₀.db.InHand (dep.workers i).name (c.sys.db.updateDeliveries o.update) [] ∨
      (c.sys.db.updateDeliveries o.update).owing (dep.workers i).name []
          + (dep.workers i).concurrency * (claimCallsOf i h + step.claimCall)
          + s₀.db.queued (dep.workers i).name
        ≤ s₀.db.owing (dep.workers i).name [] + c.sys.db.queued (dep.workers i).name
          + (dep.workers i).concurrency := by
  have hle : (c.sys.db.updateDeliveries o.update).owing (dep.workers i).name []
      ≤ c.sys.db.owing (dep.workers i).name [] :=
    Database.owing_le fun d hd _ howing hnot => ⟨hund.owing hd howing, hnot⟩
  have hkeep : s₀.db.InHand (dep.workers i).name c.sys.db [] →
      s₀.db.InHand (dep.workers i).name (c.sys.db.updateDeliveries o.update) [] :=
    fun hin => hund.inHand hin fun _ _ _ hheld => hheld
  by_cases hcalls : step.claimCall = 0
  · rw [hcalls, Nat.add_zero]
    rcases hs.done with hin | hdone
    · exact Or.inl (hkeep hin)
    · exact Or.inr (by omega)
  · cases hund with
    | still step o hzero => exact absurd hzero hcalls
    | reclaim => exact absurd rfl hcalls
    | mark => exact absurd rfl hcalls
    | claim now picked o hclock hphase hselect hids hupdate =>
      have hidle := rowIds_of_idle (w := c.sys.workers i) (by rw [hphase]; rfl)
      have hpaid := hs.paid
      rw [hidle] at hpaid
      rcases hpaid with hin | hpaid
      · exact Or.inl (hkeep hin)
      · rw [WorkerStep.claimCall, Nat.mul_add, Nat.mul_one]
        exact Or.inr (by omega)

/-- The worker's own step keeps the invariant. -/
theorem Sys.Drains.own_step (hdb : db.Leased)
    (h₀ : (system dep).exec (.start dep db) before = some s₀) (hs : Sys.Drains dep i s₀ t h c)
    {step : WorkerStep} (hstep : (undisturbed dep i).step c (.worker i step) = some c') :
    Sys.Drains dep i s₀ t (h ++ [.worker i step]) c' := by
  obtain ⟨hclock, hsys⟩ := undisturbed_step_iff.mp hstep
  rw [Label.undisturbed, if_pos rfl] at hclock
  obtain ⟨s', clock⟩ := c'
  have hreach : (system dep).exec (.start dep db) (before ++ h) = some c.sys := by
    rw [Lts.exec_append, h₀, Option.bind_some, hs.run]
  have hleased : c.sys.db.Leased := by
    obtain ⟨ops, σ, hσ, hR⟩ := system_refines_storage (Sys.start_refines dep db) hreach
    rw [← hR.db]
    exact storage_leased hdb hσ
  have hrun' := Lts.exec_snoc.mpr ⟨_, hs.run, hsys⟩
  obtain ⟨o, ho, rfl⟩ := Option.map_eq_some_iff.mp hsys
  have hund := WorkerStep.undisturbed_cases ho hclock hs.answered hs.readable
  have heff := WorkerStep.run_cases ho
  have hw := Sys.afterWorker_self c.sys i o
  have hcalls : claimCallsOf i (h ++ [.worker i step]) = claimCallsOf i h + step.claimCall := by
    rw [claimCallsOf_snoc, Label.ofWorker_self]
  have hqueued : (c.sys.afterWorker i o).db.queued (dep.workers i).name
      = c.sys.db.queued (dep.workers i).name := Database.queued_updateDeliveries _
  refine ⟨hrun', ?_, ?_, ?_, ?_, ?_, ?_, ?_, ?_, ?_, ?_⟩
  · cases hund with
    | still => exact hs.clock
    | reclaim now o hle => exact Int.le_trans hs.clock hle
    | claim now picked o hle => exact Int.le_trans hs.clock hle
    | mark => exact hs.clock
  · rw [hw]
    exact WorkerStep.run_proper ho hs.proper
  · rw [hw]
    intro hended
    rcases WorkerStep.run_ended ho hended with rfl | ⟨now, dlqOk, pendingOk, utcNow, rfl⟩
    · cases hclock
    · cases hclock
  · rw [hw]
    exact fun x hx => heff.held hs.held hx
  · rw [hw]
    exact fun x hx => heff.readable hleased hs.readable hx
  · rw [hw]
    exact fun x hx r hr => WorkerStep.undisturbed_answered ho hclock hs.answered hx hr
  · intro d' hd' hname howing hst
    obtain ⟨d, hd, rfl⟩ := List.mem_map.mp hd'
    rw [DeliveryUpdate.run_emitterName] at hname
    rw [hw, DeliveryUpdate.run_deliveryId]
    exact hs.own_flying hund hd hname howing hst
  · intro d' hd' hid
    obtain ⟨d, hd, rfl⟩ := List.mem_map.mp hd'
    rw [DeliveryUpdate.run_deliveryId] at hid
    obtain ⟨hname, himm, -, -⟩ := hs.old d hd hid
    exact ⟨(o.update.run_emitterName d).trans hname, (o.update.run_immutable d).trans himm,
      hs.own_old hund hd hid⟩
  · rw [hw, hcalls, hqueued]
    exact hs.own_paid hund
  · rw [hcalls, hqueued]
    exact hs.own_done hund

/-- **Every run keeps the invariant.** -/
theorem undisturbed_drains (hname : ∀ j, j ≠ i → (dep.workers j).name ≠ (dep.workers i).name)
    (hdb : db.Leased) (h₀ : (system dep).exec (.start dep db) before = some s₀)
    (hpolling : (s₀.workers i).phase = .polling)
    (hdue : ∀ d ∈ s₀.db.deliveries.rows, d.emitterName = (dep.workers i).name → d.Owing →
      d.DueBy (dep.workers i).leaseDuration t)
    {ls : List Label} (h : (undisturbed dep i).exec ⟨s₀, t⟩ ls = some c) :
    Sys.Drains dep i s₀ t ls c := by
  refine Lts.labels_induction (M := undisturbed dep i) (I := Sys.Drains dep i s₀ t)
    (Sys.Drains.start hpolling hdue) ?_ h
  intro h c l c' _ hs hstep
  by_cases hl : ∃ step, l = .worker i step
  · obtain ⟨step, rfl⟩ := hl
    exact hs.own_step hdb h₀ hstep
  · exact hs.other_step hname h₀ (fun step heq => hl ⟨step, heq⟩) hstep

/-- **The worker is never stuck.** -/
theorem Sys.Drains.progress (hlimit : (dep.workers i).LimitOk) (hs : Sys.Drains dep i s₀ t h c) :
    ∃ step c', (undisturbed dep i).step c (.worker i step) = some c' := by
  have htake : ∀ (step : WorkerStep) {o : WorkerOutcome} {clock : Timestamp},
      step.undisturbed c.clock = some clock → c.sys.workerRun dep i step = some o →
      ∃ step c', (undisturbed dep i).step c (.worker i step) = some c' := by
    intro step o clock hclock ho
    refine ⟨step, ⟨c.sys.afterWorker i o, clock⟩, undisturbed_step_iff.mpr ⟨?_, ?_⟩⟩
    · rw [Label.undisturbed, if_pos rfl, hclock]
    · exact congrArg (Option.map _) ho
  have hproper := hs.proper
  have hrunning := hs.running
  cases hphase : (c.sys.workers i).phase with
  | polling =>
    exact htake .wake rfl (by rw [Sys.workerRun, WorkerStep.run, hphase])
  | reclaiming =>
    exact htake (.reclaimExpired c.clock) (if_pos (Int.le_refl _))
      (by rw [Sys.workerRun, WorkerStep.run, hphase])
  | claiming =>
    obtain ⟨picked, hselect⟩ := c.sys.db.exists_claimSelect (dep.workers i).name
      (dep.workers i).concurrency c.clock []
    exact htake (.claimPending c.clock [] picked) (if_pos (Int.le_refl _))
      (by rw [Sys.workerRun, WorkerStep.run, hphase]; exact if_pos ⟨hlimit, hselect⟩)
  | loading todo done =>
    rw [hphase] at hproper
    obtain ⟨d, todo, rfl⟩ := List.exists_cons_of_ne_nil hproper
    have hmem : ⟨d, none, none⟩ ∈ (c.sys.workers i).outstanding := by
      rw [WorkerState.outstanding, hphase]
      exact List.mem_append_left _ List.mem_cons_self
    obtain ⟨p, hp⟩ := Database.loadClaimed_succeeds_iff.mpr (hs.readable _ hmem)
    exact htake .loadReceipt rfl (by rw [Sys.workerRun, WorkerStep.run, hphase]; simp only [hp]; rfl)
  | dispatching batch =>
    rw [hphase] at hproper
    obtain ⟨⟨d, receipt, phase⟩, batch, rfl⟩ := List.exists_cons_of_ne_nil hproper
    have hf : future d.deliveryId (⟨d, receipt, phase⟩ :: batch) = some ⟨d, receipt, phase⟩ :=
      List.find?_cons_of_pos (by simp)
    cases phase with
    | ready =>
      exact htake (.callEmit d.deliveryId) rfl
        (by rw [Sys.workerRun, WorkerStep.run, hphase]; simp only [hf]; rfl)
    | emitting =>
      exact htake (.emitReturned d.deliveryId (.ok ())) rfl
        (by rw [Sys.workerRun, WorkerStep.run, hphase]; simp only [hf]; rfl)
    | marking result =>
      exact htake (.mark d.deliveryId ⟨c.clock, c.clock, 0, c.clock, c.clock⟩ .ok) rfl
        (by rw [Sys.workerRun, WorkerStep.run, hphase]; simp only [hf, reduceCtorEq, if_false]; rfl)
  | refreshing afterBatch =>
    exact htake (.refreshGauges c.clock true true c.clock false) rfl
      (by rw [Sys.workerRun, WorkerStep.run, hphase])
  | stopped => exact absurd hphase hrunning

/-- When the claims outnumber what was owing, every old row is emitted. -/
theorem Sys.Drains.emitted (h₀ : (system dep).exec (.start dep db) before = some s₀)
    (hs : Sys.Drains dep i s₀ t h c)
    (hclaims : s₀.db.owing (dep.workers i).name []
        + (c.sys.db.queued (dep.workers i).name - s₀.db.queued (dep.workers i).name)
        + (dep.workers i).concurrency ≤ (dep.workers i).concurrency * claimCallsOf i h)
    {d : WebhookDelivery} (hd : d ∈ s₀.db.deliveries.rows)
    (hname : d.emitterName = (dep.workers i).name) (howing : d.Owing) :
    ∃ d' ∈ c.sys.db.deliveries.rows, d'.deliveryId = d.deliveryId ∧ d'.state = .emitted := by
  have hold : s₀.db.OwingId (dep.workers i).name d.deliveryId := ⟨d, hd, rfl, hname, howing⟩
  obtain ⟨d', hd', hid⟩ := Table.mem_keys.mp (hold.mem_keys h₀ hs.run)
  obtain ⟨hname', himm, hdead, -⟩ := hs.old d' hd' (hid ▸ hold)
  refine ⟨d', hd', hid, ?_⟩
  by_contra hst
  have howing' : d'.Owing := ⟨himm, fun hterm => hterm.elim hst hdead⟩
  rcases hs.done with hin | hle
  · exact absurd (hin d' hd' (hid ▸ hold) howing') List.not_mem_nil
  · have hzero : c.sys.db.owing (dep.workers i).name [] = 0 := by omega
    exact absurd (Database.owing_eq_zero hzero hd' hname' howing') List.not_mem_nil

/-- So many steps bring enough claims. -/
theorem enough_claims {n u calls steps : Nat} (hn : 1 ≤ n)
    (hsteps : 3 + (4 * n + 4) * ((u + n - 1) / n) ≤ steps)
    (hle : steps ≤ 2 + (4 * n + 4) * calls) : u + n ≤ n * calls := by
  have hlt : (u + n - 1) / n < calls := by
    by_contra hge
    have hmul := Nat.mul_le_mul_left (4 * n + 4) (not_lt.mp hge)
    omega
  have hceil : u ≤ n * ((u + n - 1) / n) := by
    have hdiv := Nat.div_add_mod (u + n - 1) n
    have hmod := Nat.mod_lt (u + n - 1) hn
    omega
  calc u + n ≤ n * ((u + n - 1) / n) + n := Nat.add_le_add_right hceil n
    _ = n * ((u + n - 1) / n + 1) := by rw [Nat.mul_add, Nat.mul_one]
    _ ≤ n * calls := Nat.mul_le_mul_left n hlt

/-- An undisturbed worker does not crash. -/
theorem undisturbed_crashes {ls : List Label} (h : (undisturbed dep i).exec c ls = some c') :
    crashesOf i ls = 0 := by
  induction ls generalizing c with
  | nil => rfl
  | cons l ls ih =>
    obtain ⟨c₁, hstep, hr⟩ := Lts.exec_cons_eq_some.mp h
    have hzero : l.ofWorker i WorkerStep.crashes = 0 := by
      obtain ⟨hclock, -⟩ := undisturbed_step_iff.mp hstep
      cases l with
      | worker j step =>
        by_cases hj : j = i
        · rw [Label.undisturbed, if_pos hj] at hclock
          rw [Label.ofWorker, if_pos hj]
          cases step with
          | crash => cases hclock
          | _ => rfl
        · exact if_neg hj
      | ingest call step => rfl
      | admin a => rfl
    have hrest := ih hr
    simp only [crashesOf, Lts.total, List.map_cons, List.sum_cons] at hrest ⊢
    rw [hzero, hrest]

end Step

section Runs

variable {dep : Deployment} {i : WorkerId} {db : Database} {before ls : List Label} {s₀ : Sys}
  {t : Timestamp} {c : Clocked}

/-- The steps that a worker with `concurrency` slots needs for `rows` rows. -/
def stepsFor (concurrency rows : Nat) : Nat :=
  3 + (4 * concurrency + 4) * ((rows + concurrency - 1) / concurrency)

/-- How much work there is until `db`: what was owing in `db₀`, and what was queued since. -/
def Database.backlog (db₀ : Database) (e : String) (db : Database) : Nat :=
  db₀.owing e [] + (db.queued e - db₀.queued e)

/-- After enough steps, what was owing is emitted. -/
theorem Sys.Drains.emitted_of_steps (hn : 1 ≤ (dep.workers i).concurrency)
    (h₀ : (system dep).exec (.start dep db) before = some s₀)
    (hpolling : (s₀.workers i).phase = .polling)
    (h : (undisturbed dep i).exec ⟨s₀, t⟩ ls = some c) (hs : Sys.Drains dep i s₀ t ls c)
    (hsteps : stepsFor (dep.workers i).concurrency
      (s₀.db.backlog (dep.workers i).name c.sys.db) ≤ stepsOf i ls)
    {d : WebhookDelivery} (hd : d ∈ s₀.db.deliveries.rows)
    (hname : d.emitterName = (dep.workers i).name) (howing : d.Owing) :
    ∃ d' ∈ c.sys.db.deliveries.rows, d'.deliveryId = d.deliveryId ∧ d'.state = .emitted := by
  have hrounds := left_ledger h₀ hs.run i
  rw [undisturbed_crashes h, hpolling] at hrounds
  refine hs.emitted h₀ (enough_claims hn hsteps ?_) hd hname howing
  simp only [WorkerPhase.left] at hrounds
  omega

/-- **The backlog drains.**  Worker `i` is the only one of its emitter, and is in its `select!`, in any
reachable state; whatever is owing is due by `t`.  In every run in which it is undisturbed from then
on, among any steps of the others: it always has a step to take; and once it has taken three steps and
`4 * concurrency + 4` more for each `concurrency` rows that were owing or have been queued since, every
row that was owing is emitted. -/
theorem backlog_drains (hname : ∀ j, j ≠ i → (dep.workers j).name ≠ (dep.workers i).name)
    (hlimit : (dep.workers i).LimitOk) (hn : 1 ≤ (dep.workers i).concurrency) (hdb : db.Leased)
    (h₀ : (system dep).exec (.start dep db) before = some s₀)
    (hpolling : (s₀.workers i).phase = .polling)
    (hdue : ∀ d ∈ s₀.db.deliveries.rows, d.emitterName = (dep.workers i).name → d.Owing →
      d.DueBy (dep.workers i).leaseDuration t)
    (h : (undisturbed dep i).exec ⟨s₀, t⟩ ls = some c) :
    (∃ step c', (undisturbed dep i).step c (.worker i step) = some c') ∧
      (stepsFor (dep.workers i).concurrency (s₀.db.backlog (dep.workers i).name c.sys.db)
          ≤ stepsOf i ls →
        ∀ d ∈ s₀.db.deliveries.rows, d.emitterName = (dep.workers i).name → d.Owing →
          ∃ d' ∈ c.sys.db.deliveries.rows, d'.deliveryId = d.deliveryId ∧ d'.state = .emitted) := by
  have hs := undisturbed_drains hname hdb h₀ hpolling hdue h
  exact ⟨hs.progress hlimit, fun hsteps d hd hemit howing =>
    hs.emitted_of_steps hn h₀ hpolling h hsteps hd hemit howing⟩

end Runs

/-- One row is delivered, and a claim of the next round finds no more. -/
def drainOne : List Label :=
  claimAndCall 1 0 ⟨0⟩ ++ answerAndMark 1 0 ⟨0⟩ (.ok ()) ++
    [.worker 1 (.refreshGauges 0 true true 0 false), .worker 1 .wake, .worker 1 (.reclaimExpired 0),
      .worker 1 (.claimPending 0 [] [])]

theorem soloDep_alone : ∀ j, j ≠ 1 → (soloDep.workers j).name ≠ (soloDep.workers 1).name := by
  intro j hj hname
  refine hj ?_
  simpa using congrArg List.length (String.ofList_injective hname)

/-- The row of the request is due at once. -/
theorem acceptOne_due : ∀ d ∈ [Database.newDelivery ⟨0⟩ ⟨1⟩ "k" 0], d.DueBy 30000000 0 := by
  intro d hd
  obtain rfl := List.mem_singleton.mp hd
  exact ⟨fun hst => absurd hst (by simp [Database.newDelivery]), fun _ => Int.le_refl _⟩

theorem empty_leased : Database.empty.Leased :=
  ⟨fun _ hd => absurd hd List.not_mem_nil, fun _ hr => absurd hr List.not_mem_nil⟩

theorem backlog_drains_one :
    ∃ s₀ c, (system soloDep).exec (.start soloDep .empty) acceptOne = some s₀ ∧
      s₀.db.owing "k" [] = 1 ∧ (undisturbed soloDep 1).exec ⟨s₀, 0⟩ drainOne = some c ∧
      ∀ d ∈ s₀.db.deliveries.rows, d.emitterName = "k" → d.Owing →
        ∃ d' ∈ c.sys.db.deliveries.rows, d'.deliveryId = d.deliveryId ∧ d'.state = .emitted := by
  refine ⟨_, _, rfl, by decide, rfl, ?_⟩
  exact (backlog_drains soloDep_alone (by decide) (by decide) empty_leased
    (show (system soloDep).exec (.start soloDep .empty) acceptOne = some _ from rfl) rfl
    (fun d hd _ _ => acceptOne_due d hd)
    (show (undisturbed soloDep 1).exec _ drainOne = some _ from rfl)).2 (by decide)

/-! ## 5. From the request to the downstream -/

/-- What was not given up is delivered, after enough steps. -/
theorem backlog_delivered {dep : Deployment} {i : WorkerId}
    (hname : ∀ j, j ≠ i → (dep.workers j).name ≠ (dep.workers i).name)
    (hn : 1 ≤ (dep.workers i).concurrency) {pre : Receipts} {draw : Nat → DeliveryId}
    {db : Database} (hdb : migrate0002 pre draw = some db)
    (hread : ∀ r ∈ pre.receipts.rows, r.Readable) {before : List Label} {s₀ : Sys}
    (h₀ : (system dep).exec (.start dep db) before = some s₀)
    (hpolling : (s₀.workers i).phase = .polling) {t : Timestamp}
    (hdue : ∀ d ∈ s₀.db.deliveries.rows, d.emitterName = (dep.workers i).name → d.Owing →
      d.DueBy (dep.workers i).leaseDuration t)
    {ls : List Label} {c : Clocked} (h : (undisturbed dep i).exec ⟨s₀, t⟩ ls = some c)
    (hsteps : stepsFor (dep.workers i).concurrency
      (s₀.db.backlog (dep.workers i).name c.sys.db) ≤ stepsOf i ls)
    {d : WebhookDelivery} (hd : d ∈ s₀.db.deliveries.rows)
    (hemit : d.emitterName = (dep.workers i).name) (himm : d.immutable = false)
    (halive : d.state ≠ .deadLettered) :
    (system dep).exec (.start dep db) (before ++ ls) = some c.sys ∧
      ∃ d' ∈ c.sys.db.deliveries.rows, d.Kept d' ∧
        Delivered dep ((system dep).trace (.start dep db) (before ++ ls)) c.sys.db d' := by
  have hs := undisturbed_drains hname (migrate0002_leased hdb hread) h₀ hpolling hdue h
  have hrun : (system dep).exec (.start dep db) (before ++ ls) = some c.sys := by
    rw [Lts.exec_append, h₀, Option.bind_some, hs.run]
  obtain ⟨d', hd', hkept⟩ := (system_kept h₀ hs.run).deliveries d hd
  have hst : d'.state = .emitted := by
    by_cases howing : d.Owing
    · obtain ⟨d₁, hd₁, hid, hst⟩ := hs.emitted_of_steps hn h₀ hpolling h hsteps hd hemit howing
      rwa [Table.eq_of_key_eq hd' hd₁ (hkept.deliveryId.trans hid.symm)]
    · have hterm : d.Terminal := by
        by_contra hnot
        exact howing ⟨himm, hnot⟩
      rw [hkept.terminal hterm]
      exact hterm.resolve_right halive
  have hsound := system_sound (fun d hd => migrate0002_immutable hdb hd) hrun
  exact ⟨hrun, d', hd', hkept, (hsound.rows d' hd' (hkept.immutable.trans himm)).emitted hst⟩

/-- **What was accepted is delivered.**  A receipt was stored, in any run from a migrated database, for an
emitter whose only worker is then undisturbed from its `select!` on, with everything due.  Unless the
row was given up before, a worker of that emitter has sent exactly this receipt's event and was answered
`Ok`, once it has taken the steps for its backlog. -/
theorem accepted_is_delivered {dep : Deployment} {i : WorkerId}
    (hname : ∀ j, j ≠ i → (dep.workers j).name ≠ (dep.workers i).name)
    (hn : 1 ≤ (dep.workers i).concurrency) {pre : Receipts} {draw : Nat → DeliveryId}
    {db : Database} (hdb : migrate0002 pre draw = some db)
    (hread : ∀ r ∈ pre.receipts.rows, r.Readable) {before : List Label} {s₀ : Sys}
    (h₀ : (system dep).exec (.start dep db) before = some s₀) {call : CallId}
    {receipt : WebhookReceipt} {names : List String}
    (hev : .stored call receipt names ∈ (system dep).trace (.start dep db) before)
    (hin : (dep.workers i).name ∈ names)
    (halive : ∀ d ∈ s₀.db.deliveries.rows, d.receiptId = receipt.receiptId →
      d.emitterName = (dep.workers i).name → d.immutable = false → d.state ≠ .deadLettered)
    (hpolling : (s₀.workers i).phase = .polling) {t : Timestamp}
    (hdue : ∀ d ∈ s₀.db.deliveries.rows, d.emitterName = (dep.workers i).name → d.Owing →
      d.DueBy (dep.workers i).leaseDuration t)
    {ls : List Label} {c : Clocked} (h : (undisturbed dep i).exec ⟨s₀, t⟩ ls = some c)
    (hsteps : stepsFor (dep.workers i).concurrency
      (s₀.db.backlog (dep.workers i).name c.sys.db) ≤ stepsOf i ls) :
    ∃ k id, (dep.workers k.worker).name = (dep.workers i).name ∧
      .emitReturned k id (.fromReceipt receipt) (.ok ())
        ∈ (system dep).trace (.start dep db) (before ++ ls) := by
  have hev' : .stored call receipt names ∈ (system dep).trace (.start dep db) (before ++ ls) := by
    rw [Lts.trace_append h₀]
    exact List.mem_append_left _ hev
  obtain ⟨d, hd, hrid, hemit, himm⟩ := fanOut_kept h₀ hev hin
  obtain ⟨hrun, d₁, hd₁, hkept, k, event, hret, hworker, hevent⟩ :=
    backlog_delivered hname hn hdb hread h₀ hpolling hdue h hsteps hd hemit himm
      (halive d hd hrid hemit himm)
  -- The event that was delivered for the row of the fan-out is the receipt's.
  rw [hkept.receiptId, hrid] at hevent
  obtain rfl := eventOf_stored hrun hev' hevent
  exact ⟨k, d₁.deliveryId, hworker.trans (hkept.emitterName.trans hemit), hret⟩

theorem accepted_is_delivered_one :
    ∃ s₀ c, (system soloDep).exec (.start soloDep .empty) acceptOne = some s₀ ∧
      (undisturbed soloDep 1).exec ⟨s₀, 0⟩ drainOne = some c ∧
      ∃ k id, (soloDep.workers k.worker).name = "k" ∧
        .emitReturned k id (.fromReceipt sampleStored) (.ok ())
          ∈ (system soloDep).trace (.start soloDep .empty) (acceptOne ++ drainOne) := by
  have hrun : (system soloDep).exec (.start soloDep .empty) acceptOne = some _ := rfl
  have hev : Event.stored ⟨0, 0⟩ sampleStored ["k"]
      ∈ (system soloDep).trace (.start soloDep .empty) acceptOne :=
    List.mem_cons_of_mem _ List.mem_cons_self
  have halive : ∀ d ∈ [Database.newDelivery ⟨0⟩ ⟨1⟩ "k" 0], d.state ≠ .deadLettered := by
    intro d hd
    obtain rfl := List.mem_singleton.mp hd
    simp [Database.newDelivery]
  refine ⟨_, _, hrun, rfl, ?_⟩
  exact accepted_is_delivered soloDep_alone (by decide) (migrate0002_empty fun _ => ⟨0⟩)
    (fun r hr => absurd hr List.not_mem_nil) hrun hev List.mem_cons_self
    (fun d hd _ _ _ => halive d hd) rfl (fun d hd _ _ => acceptOne_due d hd)
    (show (undisturbed soloDep 1).exec _ drainOne = some _ from rfl) (by decide)

end Hookbox
