/-
# The system

Any number of server instances and emitter workers over one database.  A label says who moves
and what the environment decides for it; the steps of different parties interleave freely, and
each SQL statement is one step.

* `Sys.Effect`: a step is a worker's, or it belongs to the environment of the workers and only
  adds pending rows.  Every result about workers is proved from this.
* `system_refines_storage`: what a run does to the database is a run of the storage machine, in
  which every row a worker has outstanding was returned by a claim.
-/
import Hookbox.Worker
import Hookbox.Pipeline
import Hookbox.Storage.Safety

namespace Hookbox

/-! ## 1. States and labels -/

/-- What is fixed for a run: the libraries and the configurations of all instances. -/
structure Deployment where
  lib : Libraries
  servers : ServerId → Pipeline
  workers : WorkerId → WorkerConfig

/-- The database and the state of every party. -/
structure Sys where
  db : Database
  workers : WorkerId → WorkerState
  caches : ServerId → InMemoryRecentDedupe
  calls : CallId → CallPhase

/-- All instances freshly started on a database. -/
def Sys.start (dep : Deployment) (db : Database) : Sys where
  db := db
  workers _ := {}
  caches i := { capacity := (dep.servers i).lruCapacity }
  calls _ := .idle

/-- The statements that operators issue, through the admin API, the command line or a receipt
retry worker: replays, and updates of one receipt. -/
inductive AdminStep where
  | insertReplay (receiptId : ReceiptId) (emitterName : String) (deliveryId : DeliveryId)
      (now : Timestamp)
  | insertReplays (receiptId : ReceiptId) (emitterNames : List String) (draw : Nat → DeliveryId)
      (now : Timestamp)
  | updateState (id : ReceiptId) (state : ProcessingState) (error : Option String)
  | retryFailed (id : ReceiptId) (maxAttempts : Int32)
  | resetForRetry (id : ReceiptId)

/-- The receipt a statement is about. -/
def AdminStep.target : AdminStep → ReceiptId
  | insertReplay receiptId _ _ _ => receiptId
  | insertReplays receiptId _ _ _ => receiptId
  | updateState id _ _ => id
  | retryFailed id _ => id
  | resetForRetry id => id

/-- The names for which a replay queues a row each, with the ids it draws and its time. -/
def AdminStep.queued : AdminStep → Option (List String × (Nat → DeliveryId) × Timestamp)
  | insertReplay _ emitterName deliveryId now => some ([emitterName], fun _ => deliveryId, now)
  | insertReplays _ emitterNames draw now => some (emitterNames, draw, now)
  | updateState _ _ _ => none
  | retryFailed _ _ => none
  | resetForRetry _ => none

def AdminStep.op : AdminStep → StorageOp
  | insertReplay receiptId emitterName deliveryId now =>
    .insertReplay receiptId emitterName deliveryId now
  | insertReplays receiptId emitterNames draw now =>
    .insertReplays receiptId emitterNames draw now
  | updateState id state error => .updateState id state error
  | retryFailed id maxAttempts => .retryFailed id maxAttempts
  | resetForRetry id => .resetForRetry id

def AdminStep.run (db : Database) (a : AdminStep) : Option Database :=
  (a.op.step ⟨db, []⟩).map (·.db)

inductive Label where
  | worker (i : WorkerId) (step : WorkerStep)
  | ingest (call : CallId) (step : IngestStep)
  | admin (step : AdminStep)

/-- The state after a worker step. -/
def Sys.afterWorker (s : Sys) (i : WorkerId) (o : WorkerOutcome) : Sys :=
  { s with db := s.db.updateDeliveries o.update, workers := Function.update s.workers i o.next }

/-- The state after a step of an ingest call. -/
def Sys.afterIngest (s : Sys) (call : CallId) (o : IngestOutcome) : Sys :=
  { s with
    db := o.db
    caches := Function.update s.caches call.server o.cache
    calls := Function.update s.calls call o.next }

section

variable (dep : Deployment) (s : Sys)

/-- What a worker step comes to. -/
def Sys.workerRun (i : WorkerId) (step : WorkerStep) : Option WorkerOutcome :=
  step.run (dep.workers i) i s.db (s.workers i)

/-- What a step of an ingest call comes to. -/
def Sys.ingestRun (call : CallId) (step : IngestStep) : Option IngestOutcome :=
  step.run dep.lib (dep.servers call.server) call s.db (s.caches call.server) (s.calls call)

def Label.step : Label → Option Sys
  | .worker i step => (s.workerRun dep i step).map (s.afterWorker i)
  | .ingest call step => (s.ingestRun dep call step).map (s.afterIngest call)
  | .admin a => (a.run s.db).map fun db => { s with db }

def Label.obs : Label → List Event
  | .worker i step => ((s.workerRun dep i step).map (·.events)).getD []
  | .ingest call step => ((s.ingestRun dep call step).map (·.events)).getD []
  | .admin _ => []

end

/-- The system as a transition system. -/
def system (dep : Deployment) : Lts Sys Label Event where
  step := Label.step dep
  obs := Label.obs dep

/-! ## 2. What a step can do -/

/-- The receipts of one database are still there in the other, with the same content. -/
def Database.SameReceipts (db db' : Database) : Prop :=
  ∀ r ∈ db.receipts.rows, ∃ r' ∈ db'.receipts.rows, r'.content = r.content

theorem Database.SameReceipts.trans {db db' db'' : Database} (h : db.SameReceipts db')
    (h' : db'.SameReceipts db'') : db.SameReceipts db'' := by
  intro r hr
  obtain ⟨r₁, hr₁, hc₁⟩ := h r hr
  obtain ⟨r₂, hr₂, hc₂⟩ := h' r₁ hr₁
  exact ⟨r₂, hr₂, hc₂.trans hc₁⟩

theorem sameReceipts_updateDeliveries (db : Database) (u : DeliveryUpdate) :
    db.SameReceipts (db.updateDeliveries u) := fun r hr => ⟨r, hr, rfl⟩

/-- What the rest of the system does to a database, as far as workers can tell: the receipts keep
their content, and new pending rows are appended. -/
structure Database.Grows (db db' : Database) : Prop where
  receipts : db.SameReceipts db'
  deliveries : ∃ receiptId now names draw,
    db'.deliveries.rows = db.deliveries.rows ++ newDeliveries receiptId now names draw

theorem Database.Grows.refl (db : Database) : db.Grows db :=
  ⟨fun r hr => ⟨r, hr, rfl⟩, ⟨0⟩, 0, [], fun _ => ⟨0⟩, (List.append_nil _).symm⟩

/-- **Everything a step can do, as far as the workers are concerned.** -/
inductive Sys.Effect (dep : Deployment) (s : Sys) : Sys → List Event → Prop where
  | worker (i : WorkerId) (o : WorkerOutcome)
      (h : WorkerStep.Effect (dep.workers i) i s.db (s.workers i) o) :
      Effect dep s (s.afterWorker i o) o.events
  | environment (s' : Sys) (es : List Event) (hworkers : s'.workers = s.workers)
      (hdb : s.db.Grows s'.db) (hes : ∀ ev ∈ es, (Event.callOf ev).isSome) : Effect dep s s' es

theorem Database.grows_of_store {db db' : Database} {receipt : WebhookReceipt}
    {names : List String} {draw : Nat → DeliveryId} {now : Timestamp}
    (h : db.storeWithDeliveries receipt names draw now = .ok (some db')) : db.Grows db' := by
  obtain ⟨-, -, hr, hd⟩ := storeWithDeliveries_spec h
  refine ⟨fun r hmem => ⟨r, ?_, rfl⟩, _, now, names, draw, hd⟩
  rw [hr]
  exact List.mem_append_left _ hmem

theorem IngestStep.Effect.grows {lib : Libraries} {pipe : Pipeline} {call : CallId}
    {db : Database} {cache : InMemoryRecentDedupe} {phase : CallPhase} {o : IngestOutcome}
    (h : IngestStep.Effect lib pipe call db cache phase o) : db.Grows o.db := by
  cases h with
  | turnedAway req utcNow reason hphase hverify => exact .refl _
  | started c utcNow hphase hverify => exact .refl _
  | proceeded c next hphase hnext => exact .refl _
  | failed c e hphase => exact .refl _
  | stored c utcNow now draw db' hphase hstore => exact Database.grows_of_store hstore
  | storedLost c utcNow now draw db' e hphase hstore => exact Database.grows_of_store hstore
  | duplicate c row hphase hrow => exact .refl _
  | accepted c cache' hphase => exact .refl _

theorem Database.grows_updateReceipts (db : Database) (u : ReceiptUpdate) :
    db.Grows (db.updateReceipts u) := by
  refine ⟨fun r hr => ⟨u.run r, List.mem_map_of_mem hr, u.content_run r⟩, ?_⟩
  exact ⟨⟨0⟩, 0, [], fun _ => ⟨0⟩, (List.append_nil _).symm⟩

/-- **What an admin statement does**: it appends the pending rows it queues for its receipt, or
changes the state columns of that receipt. -/
theorem AdminStep.run_cases {db db' : Database} {a : AdminStep} (h : a.run db = some db') :
    (db'.receipts = db.receipts ∧ ∃ names draw now, a.queued = some (names, draw, now) ∧
      db'.deliveries.rows
        = db.deliveries.rows ++ Database.newDeliveries a.target now names draw) ∨
      (a.queued = none ∧ ∃ u : ReceiptUpdate, db' = db.updateReceipts u ∧
        ∀ r : ReceiptRow, r.receiptId ≠ a.target → u.run r = r) := by
  cases a with
  | insertReplay receiptId e id now =>
    simp only [run, op, StorageOp.step, Option.map_map, Option.map_eq_some_iff] at h
    obtain ⟨db₁, hs, rfl⟩ := h
    obtain ⟨-, -, hr, hd⟩ := Database.insertDelivery_eq_some_iff.mp hs
    exact Or.inl ⟨hr, [e], fun _ => id, now, rfl, hd⟩
  | insertReplays receiptId names draw now =>
    simp only [run, op, StorageOp.step, Option.map_map, Option.map_eq_some_iff] at h
    obtain ⟨db₁, hs, rfl⟩ := h
    obtain ⟨hr, hd⟩ := Database.insertDeliveries_spec hs
    exact Or.inl ⟨hr, names, draw, now, rfl, hd⟩
  | updateState id st error =>
    simp only [run, op, StorageOp.step, Option.map_some, Option.some.injEq] at h
    exact Or.inr ⟨rfl, _, h.symm, fun r hr => if_neg hr⟩
  | retryFailed id maxAttempts =>
    simp only [run, op, StorageOp.step, Option.map_map, Option.map_eq_some_iff] at h
    obtain ⟨db₁, hs, rfl⟩ := h
    obtain ⟨set, hset, rfl, -⟩ := Database.retryFailed_ok (Except.toOption_eq_some_iff.mp hs)
    exact Or.inr ⟨rfl, _, rfl, fun r hr => if_neg hr⟩
  | resetForRetry id =>
    simp only [run, op, StorageOp.step, Option.map_map, Option.map_eq_some_iff] at h
    obtain ⟨db₁, hs, rfl⟩ := h
    obtain ⟨-, rfl⟩ := Database.resetForRetry_update (Except.toOption_eq_some_iff.mp hs)
    exact Or.inr ⟨rfl, _, rfl, fun r hr => if_neg hr⟩

theorem AdminStep.grows {db db' : Database} {a : AdminStep} (h : a.run db = some db') :
    db.Grows db' := by
  rcases a.run_cases h with ⟨hr, names, draw, now, -, hd⟩ | ⟨-, u, rfl, -⟩
  · exact ⟨fun r hmem => ⟨r, by rw [hr]; exact hmem, rfl⟩, _, now, names, draw, hd⟩
  · exact db.grows_updateReceipts u

section

variable {dep : Deployment} {s s' : Sys}

/-- What a worker's label comes to. -/
theorem system_worker {i : WorkerId} {step : WorkerStep}
    (h : (system dep).step s (.worker i step) = some s') :
    ∃ o, WorkerStep.Effect (dep.workers i) i s.db (s.workers i) o ∧ s' = s.afterWorker i o ∧
      (system dep).obs s (.worker i step) = o.events := by
  obtain ⟨o, ho, rfl⟩ := Option.map_eq_some_iff.mp h
  exact ⟨o, WorkerStep.run_cases ho, rfl, by simp [system, Label.obs, ho]⟩

/-- What the label of an ingest call comes to. -/
theorem system_ingest {call : CallId} {step : IngestStep}
    (h : (system dep).step s (.ingest call step) = some s') :
    ∃ o, IngestStep.Effect dep.lib (dep.servers call.server) call s.db (s.caches call.server)
        (s.calls call) o ∧
      s' = s.afterIngest call o ∧ (system dep).obs s (.ingest call step) = o.events := by
  obtain ⟨o, ho, rfl⟩ := Option.map_eq_some_iff.mp h
  exact ⟨o, IngestStep.run_cases ho, rfl, by simp [system, Label.obs, ho]⟩

/-- What an operator's label comes to. -/
theorem system_admin {a : AdminStep} (h : (system dep).step s (.admin a) = some s') :
    ∃ db, a.run s.db = some db ∧ s' = { s with db } ∧ (system dep).obs s (.admin a) = [] := by
  obtain ⟨db, hdb, rfl⟩ := Option.map_eq_some_iff.mp h
  exact ⟨db, hdb, rfl, rfl⟩

end

theorem system_step_cases {dep : Deployment} {s s' : Sys} {l : Label}
    (h : (system dep).step s l = some s') : Sys.Effect dep s s' ((system dep).obs s l) := by
  cases l with
  | worker i step =>
    obtain ⟨o, heff, rfl, hobs⟩ := system_worker h
    rw [hobs]
    exact .worker i o heff
  | ingest call step =>
    obtain ⟨o, heff, rfl, hobs⟩ := system_ingest h
    rw [hobs]
    exact .environment _ _ rfl heff.grows fun ev hev => by rw [heff.callOf ev hev]; rfl
  | admin a =>
    obtain ⟨db, hdb, rfl, hobs⟩ := system_admin h
    rw [hobs]
    exact .environment _ _ rfl (AdminStep.grows hdb) (by simp)

theorem Sys.Effect.sameReceipts {dep : Deployment} {s s' : Sys} {es : List Event}
    (h : Sys.Effect dep s s' es) : s.db.SameReceipts s'.db := by
  cases h with
  | worker i o heff => exact sameReceipts_updateDeliveries _ _
  | environment s' es hworkers hdb hes => exact hdb.receipts

/-- **Receipts keep their content**, along every run from any state. -/
theorem system_sameReceipts {dep : Deployment} {s s' : Sys} {ls : List Label}
    (h : (system dep).exec s ls = some s') : s.db.SameReceipts s'.db := by
  refine Lts.exec_invariant (I := fun t => s.db.SameReceipts t.db) (fun r hr => ⟨r, hr, rfl⟩) ?_ h
  intro t l t' ht hstep
  exact ht.trans (system_step_cases hstep).sameReceipts

/-- **A mark is issued by an outstanding dispatch of the worker's current claim.** -/
theorem Sys.Effect.marked {dep : Deployment} {s s' : Sys} {es : List Event}
    (h : Sys.Effect dep s s' es) {c : ClaimId} {id : DeliveryId} {m : DeliveryUpdate.Mark}
    {took : Bool} (hm : .marked c id m took ∈ es) :
    ∃ i, c = ⟨i, (s.workers i).claims⟩ ∧ took = s.db.inFlight id ∧
      (∃ d receipt result input, ⟨d, some receipt, some result⟩ ∈ (s.workers i).outstanding ∧
        d.deliveryId = id ∧ m = dispatchMark (dep.workers i) d result input ∧
        (s.workers i).dispatchOf id = some ⟨d, receipt, .marking result⟩) ∧
      s'.db = s.db.updateDeliveries (.mark id m) := by
  cases h with
  | worker i o heff =>
    obtain ⟨hevents, hupdate, hdispatch⟩ := heff.of_marked hm
    rw [hevents, List.mem_singleton, Event.marked.injEq] at hm
    refine ⟨i, hm.1, hm.2.2.2, hdispatch, ?_⟩
    rw [← hupdate]
    rfl
  | environment s' es hworkers hdb hes =>
    have := hes _ hm
    simp [Event.callOf] at this

/-- A label with an observation is enabled. -/
theorem system_enabled {dep : Deployment} {s : Sys} {l : Label} {ev : Event}
    (h : ev ∈ (system dep).obs s l) : ∃ s', (system dep).step s l = some s' := by
  cases l with
  | worker i step =>
    cases ho : s.workerRun dep i step with
    | none => simp [system, Label.obs, ho] at h
    | some o => exact ⟨s.afterWorker i o, by simp [system, Label.step, ho]⟩
  | ingest call step =>
    cases ho : s.ingestRun dep call step with
    | none => simp [system, Label.obs, ho] at h
    | some o => exact ⟨s.afterIngest call o, by simp [system, Label.step, ho]⟩
  | admin a => simp [system, Label.obs] at h

/-! ## 3. The storage machine underneath -/

theorem Sys.afterWorker_self (s : Sys) (i : WorkerId) (o : WorkerOutcome) :
    (s.afterWorker i o).workers i = o.next := Function.update_self _ _ _

theorem Sys.afterWorker_of_ne (s : Sys) {i j : WorkerId} (hj : j ≠ i) (o : WorkerOutcome) :
    (s.afterWorker i o).workers j = s.workers j := Function.update_of_ne hj _ _

/-- A worker step moves one worker: what it has outstanding afterwards is its new state's, and
the others have what they had. -/
theorem Sys.outstanding_afterWorker {s : Sys} {i j : WorkerId} {o : WorkerOutcome}
    {x : Outstanding} (h : x ∈ ((s.afterWorker i o).workers j).outstanding) :
    (j = i ∧ x ∈ o.next.outstanding) ∨ (j ≠ i ∧ x ∈ (s.workers j).outstanding) := by
  by_cases hj : j = i
  · subst hj
    rw [Sys.afterWorker_self] at h
    exact Or.inl ⟨rfl, h⟩
  · rw [Sys.afterWorker_of_ne s hj] at h
    exact Or.inr ⟨hj, h⟩

/-- **A step adds nothing to what is outstanding**, except by a claim: every row a worker has
outstanding afterwards it had before, or a claim of its own has just picked it. -/
theorem WorkerStep.Effect.outstanding_id {cfg : WorkerConfig} {i : WorkerId} {db : Database}
    {w : WorkerState} {o : WorkerOutcome} (h : WorkerStep.Effect cfg i db w o) {x : Outstanding}
    (hx : x ∈ o.next.outstanding) :
    (∃ y ∈ w.outstanding, y.delivery = x.delivery ∧ o.next.claims = w.claims) ∨
      ∃ now locked picked, db.ClaimSelect cfg.name cfg.concurrency now locked picked ∧
        o.update = .claim picked now ∧ x.delivery ∈ db.claimedRows picked now ∧
        x.receipt = none ∧ x.result = none ∧ o.next.claims = w.claims + 1 := by
  cases h with
  | quiet w' hclaims hout => exact Or.inl ⟨x, hout x hx, rfl, hclaims⟩
  | load w' d receipt hclaims hd hload hout =>
    rcases hout x hx with hx | rfl
    · exact Or.inl ⟨x, hx, rfl, hclaims⟩
    · exact Or.inl ⟨_, hd, rfl, hclaims⟩
  | reclaim w' now hclaims hout =>
    rw [hout] at hx
    simp at hx
  | claim w' now locked picked hclaims hselect hout =>
    obtain ⟨d, hd, rfl⟩ := hout x hx
    exact Or.inr ⟨now, locked, picked, hselect, rfl, hd, rfl, rfl, hclaims⟩
  | call w' d receipt hclaims hd hout =>
    obtain ⟨r, hr, -⟩ := hout x hx
    exact Or.inl ⟨_, hr, rfl, hclaims⟩
  | returned w' d receipt result hclaims hd hout =>
    rcases hout x hx with hx | ⟨-, -, r, hr⟩
    · exact Or.inl ⟨x, hx, rfl, hclaims⟩
    · exact Or.inl ⟨_, hr, rfl, hclaims⟩
  | mark w' d receipt result input hclaims hd hout => exact Or.inl ⟨x, (hout x hx).1, rfl, hclaims⟩

/-- The storage machine has the same database, and has handed out every outstanding row. -/
structure Sys.Refines (s : Sys) (σ : StorageState) : Prop where
  db : σ.db = s.db
  claimed : ∀ i, ∀ x ∈ (s.workers i).outstanding, x.delivery.deliveryId ∈ σ.claimed

theorem updateDeliveries_nop (db : Database) : db.updateDeliveries .nop = db :=
  Database.updateDeliveries_eq_self fun _ _ => rfl

/-- What a worker step does to the database is nothing, or one storage operation. -/
theorem WorkerStep.Effect.refines {cfg : WorkerConfig} {i : WorkerId} {σ : StorageState}
    {w : WorkerState} {o : WorkerOutcome} (h : WorkerStep.Effect cfg i σ.db w o)
    (hw : ∀ x ∈ w.outstanding, x.delivery.deliveryId ∈ σ.claimed) :
    ∃ ops σ', storage.exec σ ops = some σ' ∧ σ'.db = σ.db.updateDeliveries o.update ∧
      (∀ id ∈ σ.claimed, id ∈ σ'.claimed) ∧
      ∀ x ∈ o.next.outstanding, x.delivery.deliveryId ∈ σ'.claimed := by
  cases h with
  | quiet w' hclaims hout =>
    exact ⟨[], σ, rfl, (updateDeliveries_nop _).symm, fun _ hid => hid,
      fun x hx => hw x (hout x hx)⟩
  | load w' d receipt hclaims hd hload hout =>
    refine ⟨[], σ, rfl, (updateDeliveries_nop _).symm, fun _ hid => hid, fun x hx => ?_⟩
    rcases hout x hx with hx | rfl
    · exact hw x hx
    · exact hw ⟨d, none, none⟩ hd
  | reclaim w' now hclaims hout =>
    refine ⟨[.reclaimExpired cfg.name cfg.leaseDuration now], _, rfl, rfl, fun _ hid => hid, ?_⟩
    rw [hout]
    simp
  | claim w' now locked picked hclaims hselect hout =>
    refine ⟨[.claimPending cfg.name cfg.concurrency now locked picked],
      ⟨σ.db.updateDeliveries (.claim picked now), σ.claimed ++ picked⟩, ?_, rfl,
      fun _ hid => List.mem_append_left _ hid, fun x hx => ?_⟩
    · simp [Lts.exec, storage, StorageOp.step, hselect]
    · obtain ⟨d, hd, rfl⟩ := hout x hx
      obtain ⟨d₀, -, hpick, rfl⟩ := Database.mem_claimedRows.mp hd
      exact List.mem_append_right _ hpick
  | call w' d receipt hclaims hd hout =>
    refine ⟨[], σ, rfl, (updateDeliveries_nop _).symm, fun _ hid => hid, fun x hx => ?_⟩
    obtain ⟨r, hr, -⟩ := hout x hx
    exact hw ⟨x.delivery, x.receipt, r⟩ hr
  | returned w' d receipt result hclaims hd hout =>
    refine ⟨[], σ, rfl, (updateDeliveries_nop _).symm, fun _ hid => hid, fun x hx => ?_⟩
    rcases hout x hx with hx | ⟨-, -, r, hr⟩
    · exact hw x hx
    · exact hw ⟨x.delivery, x.receipt, r⟩ hr
  | mark w' d receipt result input hclaims hd hout =>
    refine ⟨[.mark d.deliveryId (dispatchMark cfg d result input)],
      { σ with db := σ.db.updateDeliveries (.mark d.deliveryId (dispatchMark cfg d result input)) },
      ?_, rfl, fun _ hid => hid, fun x hx => hw x (hout x hx).1⟩
    have hid : d.deliveryId ∈ σ.claimed := hw _ hd
    simp [Lts.exec, storage, StorageOp.step, hid]

/-- What an ingest step does to the database is nothing, or one committed
`store_with_deliveries`. -/
theorem IngestStep.Effect.refines {lib : Libraries} {pipe : Pipeline} {call : CallId}
    {σ : StorageState} {cache : InMemoryRecentDedupe} {phase : CallPhase} {o : IngestOutcome}
    (h : IngestStep.Effect lib pipe call σ.db cache phase o) :
    ∃ ops, storage.exec σ ops = some { σ with db := o.db } := by
  cases h with
  | turnedAway => exact ⟨[], rfl⟩
  | started => exact ⟨[], rfl⟩
  | proceeded => exact ⟨[], rfl⟩
  | failed => exact ⟨[], rfl⟩
  | stored c utcNow now draw db' hphase hstore =>
    refine ⟨[.storeWithDeliveries (c.receipt lib utcNow) pipe.emitterNames draw now], ?_⟩
    simp [Lts.exec, storage, StorageOp.step, hstore]
  | storedLost c utcNow now draw db' e hphase hstore =>
    refine ⟨[.storeWithDeliveries (c.receipt lib utcNow) pipe.emitterNames draw now], ?_⟩
    simp [Lts.exec, storage, StorageOp.step, hstore, callFailed]
  | duplicate => exact ⟨[], rfl⟩
  | accepted => exact ⟨[], rfl⟩

theorem AdminStep.refines {σ : StorageState} {a : AdminStep} {db : Database}
    (h : a.run σ.db = some db) : storage.exec σ [a.op] = some { σ with db } := by
  have hstep : a.op.step σ = some { σ with db } := by
    cases a <;> simp_all [AdminStep.run, AdminStep.op, StorageOp.step, Option.map_eq_some_iff]
  simp [Lts.exec, storage, hstep]

theorem system_step_refines {dep : Deployment} {s s' : Sys} {l : Label} {σ : StorageState}
    (hR : s.Refines σ) (h : (system dep).step s l = some s') :
    ∃ ops σ', storage.exec σ ops = some σ' ∧ s'.Refines σ' := by
  obtain ⟨hdb, hclaimed⟩ := hR
  cases l with
  | worker i step =>
    obtain ⟨o, heff, rfl, -⟩ := system_worker h
    rw [← hdb] at heff
    obtain ⟨ops, σ', hexec, hdb', hkeep, hnew⟩ := heff.refines (hclaimed i)
    refine ⟨ops, σ', hexec, by rw [hdb', hdb]; rfl, fun j x hx => ?_⟩
    rcases Sys.outstanding_afterWorker hx with ⟨rfl, hx'⟩ | ⟨-, hx'⟩
    · exact hnew x hx'
    · exact hkeep _ (hclaimed j x hx')
  | ingest call step =>
    obtain ⟨o, heff, rfl, -⟩ := system_ingest h
    rw [← hdb] at heff
    obtain ⟨ops, hexec⟩ := heff.refines
    exact ⟨ops, _, hexec, rfl, hclaimed⟩
  | admin a =>
    obtain ⟨db, hrun, rfl, -⟩ := system_admin h
    rw [← hdb] at hrun
    exact ⟨_, _, AdminStep.refines hrun, rfl, hclaimed⟩

/-- **The system refines the storage machine.**  Along every run the database goes through a run
of the storage machine that has handed out every row outstanding with a worker. -/
theorem system_refines_storage {dep : Deployment} {s s' : Sys} {ls : List Label}
    {σ : StorageState} (hR : s.Refines σ) (h : (system dep).exec s ls = some s') :
    ∃ ops σ', storage.exec σ ops = some σ' ∧ s'.Refines σ' := by
  refine Lts.exec_invariant
    (I := fun t => ∃ ops σ', storage.exec σ ops = some σ' ∧ t.Refines σ') ⟨[], σ, rfl, hR⟩ ?_ h
  rintro t l t' ⟨ops, σ₁, h₁, hR₁⟩ hstep
  obtain ⟨ops', σ₂, h₂, hR₂⟩ := system_step_refines hR₁ hstep
  refine ⟨ops ++ ops', σ₂, ?_, hR₂⟩
  rw [Lts.exec_append, h₁, Option.bind_some, h₂]

theorem Sys.start_refines (dep : Deployment) (db : Database) : (Sys.start dep db).Refines ⟨db, []⟩ :=
  ⟨rfl, fun _ x hx => by simp [Sys.start, WorkerState.outstanding, WorkerPhase.outstanding] at hx⟩

/-- **A run keeps everything**, from any moment of it on. -/
theorem system_kept {dep : Deployment} {db : Database} {before between : List Label} {s s' : Sys}
    (h : (system dep).exec (.start dep db) before = some s)
    (h' : (system dep).exec s between = some s') : s.db.Kept s'.db := by
  obtain ⟨ops, σ, hσ, hR⟩ := system_refines_storage (Sys.start_refines dep db) h
  obtain ⟨ops', σ', hσ', hR'⟩ := system_refines_storage hR h'
  rw [← hR.db, ← hR'.db]
  exact storage_kept (storage_mutable hσ) hσ'

/-- **A worker only ever has mutable rows outstanding.** -/
theorem system_outstanding_mutable {dep : Deployment} {db : Database} {ls : List Label} {s : Sys}
    (h : (system dep).exec (.start dep db) ls = some s) {i : WorkerId} {x : Outstanding}
    (hx : x ∈ (s.workers i).outstanding) :
    ∃ d ∈ s.db.deliveries.rows, d.deliveryId = x.delivery.deliveryId ∧ d.immutable = false := by
  obtain ⟨ops, σ, hσ, hR⟩ := system_refines_storage (Sys.start_refines dep db) h
  rw [← hR.db]
  exact storage_mutable hσ _ (hR.claimed i x hx)

/-! ## 4. A small deployment

Two workers of one emitter and one server without verifiers, for the concrete runs that show the
hypotheses of later results to be satisfiable, or a property to fail. -/

/-- Libraries that know the SHA-256 digest of the empty body and its HMAC under `secret`. -/
def sampleLib : Libraries where
  sha256 body :=
    if body = [] then
      [0xe3, 0xb0, 0xc4, 0x42, 0x98, 0xfc, 0x1c, 0x14, 0x9a, 0xfb, 0xf4, 0xc8, 0x99, 0x6f, 0xb9, 0x24,
        0x27, 0xae, 0x41, 0xe4, 0x64, 0x9b, 0x93, 0x4c, 0xa4, 0x95, 0x99, 0x1b, 0x78, 0x52, 0xb8, 0x55]
    else []
  hmacSha256 key message :=
    if key = [115, 101, 99, 114, 101, 116] ∧ message = [] then
      some [0xf9, 0xe6, 0x6e, 0x17, 0x9b, 0x67, 0x47, 0xae, 0x54, 0x10, 0x8f, 0x82, 0xf8, 0xad, 0xe8,
        0xb3, 0xc2, 0x5d, 0x76, 0xfd, 0x30, 0xaf, 0xde, 0x6c, 0x39, 0x58, 0x22, 0xc5, 0x30, 0x19, 0x61,
        0x69]
    else none
  base64Decode _ := none
  base64Encode _ := []
  pemAccepts _ := false
  rsaSignature _ := false
  rsaVerify _ _ _ := false
  parseJson _ := none

/-- Every worker serves `kafka`, with a lease of 30 seconds. -/
def sampleDep : Deployment where
  lib := sampleLib
  servers _ := { emitterNames := ["kafka"], verifiers := ∅, lruCapacity := 100 }
  workers _ := { name := "kafka", policy := {}, concurrency := 1, leaseDuration := 30000000 }

/-- One request is accepted as receipt `1`, with delivery row `0`. -/
def acceptOne : List Label :=
  [.ingest ⟨0, 0⟩ (.start ⟨"acme", [], []⟩ ⟨1⟩ 0), .ingest ⟨0, 0⟩ .checkFast,
    .ingest ⟨0, 0⟩ .checkStorage,
    .ingest ⟨0, 0⟩ (.store 0 0 (fun i => ⟨BitVec.ofNat 128 i⟩) .ok ""), .ingest ⟨0, 0⟩ .record]

/-- A worker goes round its loop until it has called the emitter for one row. -/
def claimAndCall (i : WorkerId) (now : Timestamp) (id : DeliveryId) : List Label :=
  [.worker i .wake, .worker i (.reclaimExpired now), .worker i (.claimPending now [] [id]),
    .worker i .loadReceipt, .worker i (.callEmit id)]

/-- The emitter answers, and the worker records the answer, with all clocks at `now`. -/
def answerAndMark (i : WorkerId) (now : Timestamp) (id : DeliveryId)
    (result : Except EmitError Unit) : List Label :=
  [.worker i (.emitReturned id result), .worker i (.mark id ⟨now, now, 1000000, now, now⟩ .ok)]

end Hookbox
