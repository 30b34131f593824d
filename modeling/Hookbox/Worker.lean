/-
# The emitter worker

`EmitterWorker::spawn` and `dispatch_one` (`hookbox-server/src/worker.rs`), as a state machine
between await points.  One round of the loop is

    polling → reclaiming → claiming → loading → dispatching → refreshing → polling

and the futures of `join_all` advance independently of each other while the batch runs.  Every
storage call can fail, with or without its statement having been committed, and the process can
crash anywhere.

What the environment decides is carried by the step: the database clock, the worker's clock, the
rows a claim picks, what the downstream answers, and the delay of `compute_backoff`, which draws
its jitter at random.

`WorkerStep.Effect` says once what a step can do to the deliveries and to the dispatches that are
still outstanding.
-/
import Mathlib.Algebra.Group.Nat.Defs
import Hookbox.History

namespace Hookbox

/-! ## 1. Health -/

/-- Coarse health classification. -/
inductive HealthStatus where
  | healthy
  | degraded
  | unhealthy
deriving DecidableEq

/-- Snapshot of a worker's operational health. -/
structure EmitterHealth where
  lastSuccessAt : Option Timestamp := none
  lastFailureAt : Option Timestamp := none
  consecutiveFailures : UInt32 := 0
  status : HealthStatus := .healthy
  dlqDepth : Nat := 0
  pendingCount : Nat := 0
deriving DecidableEq

/-- `derive_status`; `num_seconds` rounds towards zero. -/
def deriveStatus (consecutiveFailures : UInt32) (lastFailureAt : Option Timestamp)
    (utcNow : Timestamp) : HealthStatus :=
  if consecutiveFailures ≥ 10 then .unhealthy
  else if lastFailureAt.any fun t => Int.tdiv (utcNow - t) 1000000 < 60 then .degraded
  else .healthy

/-- `EmitterWorker::update_health`.  The clock is read twice, here and in `derive_status`. -/
def EmitterHealth.update (health : EmitterHealth) (success : Bool) (utcNow statusNow : Timestamp) :
    EmitterHealth :=
  let next := if success then { health with lastSuccessAt := some utcNow, consecutiveFailures := 0 }
    else { health with
      lastFailureAt := some utcNow, consecutiveFailures := health.consecutiveFailures + 1 }
  { next with status := deriveStatus next.consecutiveFailures next.lastFailureAt statusNow }

/-- `DeliveryStorage::count_dlq`. -/
def Database.countDlq (db : Database) (emitterName : String) : Nat :=
  db.deliveries.rows.countP fun d => d.emitterName = emitterName ∧ d.state = .deadLettered

/-- `DeliveryStorage::count_pending`. -/
def Database.countPending (db : Database) (emitterName : String) (now : Timestamp) : Nat :=
  db.deliveries.rows.countP fun d => Eligible emitterName now d

/-- The part of `refresh_gauges` that writes the snapshot; a failed count is `0`. -/
def EmitterHealth.refresh (health : EmitterHealth) (dlq pending : Nat) (utcNow : Timestamp) :
    EmitterHealth :=
  { health with
    dlqDepth := dlq, pendingCount := pending,
    status := deriveStatus health.consecutiveFailures health.lastFailureAt utcNow }

/-! ## 2. States -/

/-- The fields of `EmitterWorker` that its logic reads; the poll interval only times `wake`. -/
structure WorkerConfig where
  name : String
  policy : RetryPolicy
  concurrency : Nat
  leaseDuration : Duration

/-- Where one `dispatch_one` future is. -/
inductive DispatchPhase where
  | ready
  | emitting
  | marking (result : Except EmitError Unit)

/-- One `dispatch_one` future, with the values it was given. -/
structure Dispatch where
  delivery : WebhookDelivery
  receipt : WebhookReceipt
  phase : DispatchPhase

/-- Where the loop of `spawn` is. -/
inductive WorkerPhase where
  | polling
  | reclaiming
  | claiming
  /-- Inside `claim_pending`, after its `UPDATE`: rows whose receipt is still to be loaded, and
  pairs already loaded. -/
  | loading (todo : List WebhookDelivery) (done : List (WebhookDelivery × WebhookReceipt))
  /-- Inside `join_all`: the futures that have not completed. -/
  | dispatching (batch : List Dispatch)
  | refreshing (afterBatch : Bool)
  | stopped

/-- A worker.  `claims` numbers its claims; a restart does not reset it. -/
structure WorkerState where
  phase : WorkerPhase := .polling
  health : EmitterHealth := {}
  claims : Nat := 0

/-- What `claim_pending` goes on to do: load the next receipt, or return. -/
def afterLoad (todo : List WebhookDelivery) (done : List (WebhookDelivery × WebhookReceipt)) :
    WorkerPhase :=
  if todo.isEmpty then
    if done.isEmpty then .refreshing false
    else .dispatching (done.map fun p => ⟨p.1, p.2, .ready⟩)
  else .loading todo done

/-- What `join_all` goes on to do. -/
def afterMark (batch : List Dispatch) : WorkerPhase :=
  if batch.isEmpty then .refreshing true else .dispatching batch

/-! ## 3. Steps -/

/-- What `dispatch_one` reads from its environment when it records an outcome. -/
structure MarkInput where
  /-- `now()` of the `UPDATE`. -/
  dbNow : Timestamp
  /-- `Utc::now()` and `next_delta`, for `next_at`. -/
  utcNow : Timestamp
  nextDelta : Duration
  /-- The two clock readings of `update_health`. -/
  healthNow : Timestamp
  statusNow : Timestamp

/-- One step of a worker. -/
inductive WorkerStep where
  /-- The sleep ended, or the shutdown value changed to something else than `true`. -/
  | wake
  /-- The shutdown signal, or its sender was dropped. -/
  | shutdown
  | reclaimExpired (now : Timestamp)
  | reclaimFailed
  | claimPending (now : Timestamp) (locked picked : List DeliveryId)
  /-- The `UPDATE` of `claim_pending` was committed, but the caller got an error. -/
  | claimLost (now : Timestamp) (locked picked : List DeliveryId)
  | claimFailed
  | loadReceipt
  | loadFailed
  | callEmit (id : DeliveryId)
  | emitReturned (id : DeliveryId) (result : Except EmitError Unit)
  | mark (id : DeliveryId) (input : MarkInput) (outcome : CallOutcome)
  | refreshGauges (now : Timestamp) (dlqOk pendingOk : Bool) (utcNow : Timestamp)
      (stop : Bool)
  /-- The process dies with everything it had outstanding, and is started again. -/
  | crash

/-- The decision of `dispatch_one`: which `mark_*` to call once the emit has returned. -/
def dispatchMark (cfg : WorkerConfig) (d : WebhookDelivery) (result : Except EmitError Unit)
    (input : MarkInput) : DeliveryUpdate.Mark :=
  let nextAttempt := d.attemptCount + 1
  match result with
  | .ok () => .emitted input.dbNow
  | .error err =>
    if nextAttempt ≥ cfg.policy.maxAttempts then .deadLettered err.toString
    else .failed nextAttempt (input.utcNow + input.nextDelta) err.toString

/-- The `UPDATE` that changes nothing. -/
def DeliveryUpdate.nop : DeliveryUpdate := ⟨id, fun _ => rfl⟩

/-- `concurrency as i64` is negative from `2^63` on, and PostgreSQL refuses a negative `LIMIT`. -/
def WorkerConfig.LimitOk (cfg : WorkerConfig) : Prop := cfg.concurrency < 2 ^ 63

instance (cfg : WorkerConfig) : Decidable cfg.LimitOk := by
  unfold WorkerConfig.LimitOk; infer_instance

/-- Advance the future of row `id` from phase `p`. -/
def advance (id : DeliveryId) (p : DispatchPhase) (batch : List Dispatch) : List Dispatch :=
  batch.map fun x => if x.delivery.deliveryId = id then { x with phase := p } else x

/-- The future of row `id`.  The futures of a batch have distinct rows. -/
def future (id : DeliveryId) (batch : List Dispatch) : Option Dispatch :=
  batch.find? fun x => x.delivery.deliveryId = id

/-- What a step comes to: the update it runs, the worker's next state, and what is seen. -/
structure WorkerOutcome where
  update : DeliveryUpdate
  next : WorkerState
  events : List Event

/-- Whether a row is in flight, which is what a `mark_*` asks. -/
def Database.inFlight (db : Database) (id : DeliveryId) : Bool :=
  (db.deliveries.get? id).any fun d => d.state = .inFlight

/-- The rows that `reclaim_expired` changes, as events. -/
def Database.reclaimEvents (db : Database) (emitterName : String) (leaseDuration : Duration)
    (now : Timestamp) : List Event :=
  (db.deliveries.rows.filter fun d => DeliveryUpdate.Expired emitterName leaseDuration now d).map
    fun d => .reclaimed d.deliveryId

/-- One step of worker `i`. -/
def WorkerStep.run (cfg : WorkerConfig) (i : WorkerId) (db : Database) (w : WorkerState) :
    WorkerStep → Option WorkerOutcome
  | .wake =>
    match w.phase with
    | .polling => some ⟨.nop, { w with phase := .reclaiming }, []⟩
    | _ => none
  | .shutdown =>
    match w.phase with
    | .polling => some ⟨.nop, { w with phase := .stopped }, []⟩
    | _ => none
  | .reclaimExpired now =>
    match w.phase with
    | .reclaiming =>
      some ⟨.reclaimExpired cfg.name cfg.leaseDuration now, { w with phase := .claiming },
        db.reclaimEvents cfg.name cfg.leaseDuration now⟩
    | _ => none
  | .reclaimFailed =>
    match w.phase with
    | .reclaiming => some ⟨.nop, { w with phase := .claiming }, []⟩
    | _ => none
  | .claimPending now locked picked =>
    match w.phase with
    | .claiming =>
      if cfg.LimitOk ∧ db.ClaimSelect cfg.name cfg.concurrency now locked picked then
        some ⟨.claim picked now,
          { w with phase := afterLoad (db.claimedRows picked now) [], claims := w.claims + 1 },
          picked.map (.claimed ⟨i, w.claims + 1⟩)⟩
      else none
    | _ => none
  | .claimLost now locked picked =>
    match w.phase with
    | .claiming =>
      if cfg.LimitOk ∧ db.ClaimSelect cfg.name cfg.concurrency now locked picked then
        some ⟨.claim picked now, { w with phase := .polling, claims := w.claims + 1 },
          picked.map (.claimed ⟨i, w.claims + 1⟩)⟩
      else none
    | _ => none
  | .claimFailed =>
    match w.phase with
    | .claiming => some ⟨.nop, { w with phase := .polling }, []⟩
    | _ => none
  | .loadReceipt =>
    match w.phase with
    | .loading (d :: todo) done =>
      match db.loadClaimed d with
      | .ok p => some ⟨.nop, { w with phase := afterLoad todo (done ++ [p]) }, []⟩
      | .error _ => some ⟨.nop, { w with phase := .polling }, []⟩
    | _ => none
  | .loadFailed =>
    match w.phase with
    | .loading _ _ => some ⟨.nop, { w with phase := .polling }, []⟩
    | _ => none
  | .callEmit id =>
    match w.phase with
    | .dispatching batch =>
      match future id batch with
      | some ⟨_, receipt, .ready⟩ =>
        some ⟨.nop, { w with phase := .dispatching (advance id .emitting batch) },
          [.emitCalled ⟨i, w.claims⟩ id (.fromReceipt receipt)]⟩
      | _ => none
    | _ => none
  | .emitReturned id result =>
    match w.phase with
    | .dispatching batch =>
      match future id batch with
      | some ⟨_, receipt, .emitting⟩ =>
        some ⟨.nop, { w with phase := .dispatching (advance id (.marking result) batch) },
          [.emitReturned ⟨i, w.claims⟩ id (.fromReceipt receipt) result]⟩
      | _ => none
    | _ => none
  | .mark id input outcome =>
    match w.phase with
    | .dispatching batch =>
      match future id batch with
      | some ⟨d, _, .marking result⟩ =>
        -- The error of a failed call is only logged, and `update_health` runs all the same.
        let next : WorkerState := { w with
          phase := afterMark (batch.filter fun x => x.delivery.deliveryId ≠ id)
          health := w.health.update result.isOk input.healthNow input.statusNow }
        if outcome = .failed then some ⟨.nop, next, []⟩
        else some ⟨.mark id (dispatchMark cfg d result input), next,
          [.marked ⟨i, w.claims⟩ id (dispatchMark cfg d result input) (db.inFlight id)]⟩
      | _ => none
    | _ => none
  | .refreshGauges now dlqOk pendingOk utcNow stop =>
    match w.phase with
    | .refreshing afterBatch =>
      some ⟨.nop, { w with
        -- The shutdown value is looked at only after a batch.
        phase := if afterBatch ∧ stop then .stopped else .polling
        health := w.health.refresh (if dlqOk then db.countDlq cfg.name else 0)
          (if pendingOk then db.countPending cfg.name now else 0) utcNow }, []⟩
    | _ => none
  | .crash => some ⟨.nop, { phase := .polling, health := {}, claims := w.claims }, []⟩

/-! ## 4. What a step can do -/

theorem Database.inFlight_iff {db : Database} {id : DeliveryId} :
    db.inFlight id = true ↔ ∃ d ∈ db.deliveries.rows, d.deliveryId = id ∧ d.state = .inFlight := by
  simp only [inFlight, Option.any_eq_true, Table.get?_eq_some_iff, decide_eq_true_eq]
  constructor
  · rintro ⟨d, ⟨hd, hid⟩, hst⟩; exact ⟨d, hd, hid, hst⟩
  · rintro ⟨d, hd, hid, hst⟩; exact ⟨d, ⟨hd, hid⟩, hst⟩

/-- A row in flight, found through its id. -/
theorem Database.inFlight_of_mem {db : Database} {d : WebhookDelivery}
    (hd : d ∈ db.deliveries.rows) : db.inFlight d.deliveryId = decide (d.state = .inFlight) := by
  rw [inFlight, Table.get?_of_mem hd]
  rfl

/-- A row that a worker has claimed and still has to deal with, as it was when it was claimed,
with the receipt once it is loaded and the answer of the downstream once there is one. -/
structure Outstanding where
  delivery : WebhookDelivery
  receipt : Option WebhookReceipt
  result : Option (Except EmitError Unit)

/-- The answer a future has received. -/
def DispatchPhase.result : DispatchPhase → Option (Except EmitError Unit)
  | .marking result => some result
  | _ => none

def Dispatch.outstanding (x : Dispatch) : Outstanding := ⟨x.delivery, some x.receipt, x.phase.result⟩

/-- Everything a worker has outstanding. -/
def WorkerPhase.outstanding : WorkerPhase → List Outstanding
  | .loading todo done =>
    todo.map (fun d => ⟨d, none, none⟩) ++ done.map fun p => ⟨p.1, some p.2, none⟩
  | .dispatching batch => batch.map Dispatch.outstanding
  | _ => []

def WorkerState.outstanding (w : WorkerState) : List Outstanding := w.phase.outstanding

/-- The future of row `id` in the running batch. -/
def WorkerState.dispatchOf (w : WorkerState) (id : DeliveryId) : Option Dispatch :=
  match w.phase with
  | .dispatching batch => future id batch
  | _ => none

/-- **Everything a worker step can do.** -/
inductive WorkerStep.Effect (cfg : WorkerConfig) (i : WorkerId) (db : Database)
    (w : WorkerState) : WorkerOutcome → Prop where
  | quiet (w' : WorkerState) (hclaims : w'.claims = w.claims)
      (hout : ∀ o ∈ w'.outstanding, o ∈ w.outstanding) : Effect cfg i db w ⟨.nop, w', []⟩
  | load (w' : WorkerState) (d : WebhookDelivery) (receipt : WebhookReceipt)
      (hclaims : w'.claims = w.claims) (hd : ⟨d, none, none⟩ ∈ w.outstanding)
      (hload : db.loadClaimed d = .ok (d, receipt))
      (hout : ∀ o ∈ w'.outstanding, o ∈ w.outstanding ∨ o = ⟨d, some receipt, none⟩) :
      Effect cfg i db w ⟨.nop, w', []⟩
  | reclaim (w' : WorkerState) (now : Timestamp) (hclaims : w'.claims = w.claims)
      (hout : w'.outstanding = []) :
      Effect cfg i db w ⟨.reclaimExpired cfg.name cfg.leaseDuration now, w',
        db.reclaimEvents cfg.name cfg.leaseDuration now⟩
  | claim (w' : WorkerState) (now : Timestamp) (locked picked : List DeliveryId)
      (hclaims : w'.claims = w.claims + 1)
      (hselect : db.ClaimSelect cfg.name cfg.concurrency now locked picked)
      (hout : ∀ o ∈ w'.outstanding, ∃ d ∈ db.claimedRows picked now, o = ⟨d, none, none⟩) :
      Effect cfg i db w ⟨.claim picked now, w', picked.map (.claimed ⟨i, w.claims + 1⟩)⟩
  | call (w' : WorkerState) (d : WebhookDelivery) (receipt : WebhookReceipt)
      (hclaims : w'.claims = w.claims) (hd : ⟨d, some receipt, none⟩ ∈ w.outstanding)
      (hout : ∀ o ∈ w'.outstanding, ∃ r, ⟨o.delivery, o.receipt, r⟩ ∈ w.outstanding ∧
        (o.result = none ∨ o.result = r)) :
      Effect cfg i db w ⟨.nop, w',
        [.emitCalled ⟨i, w.claims⟩ d.deliveryId (.fromReceipt receipt)]⟩
  | returned (w' : WorkerState) (d : WebhookDelivery) (receipt : WebhookReceipt)
      (result : Except EmitError Unit) (hclaims : w'.claims = w.claims)
      (hd : ⟨d, some receipt, none⟩ ∈ w.outstanding)
      (hout : ∀ o ∈ w'.outstanding, o ∈ w.outstanding ∨
        (o.delivery.deliveryId = d.deliveryId ∧ o.result = some result ∧
          ∃ r, ⟨o.delivery, o.receipt, r⟩ ∈ w.outstanding)) :
      Effect cfg i db w ⟨.nop, w',
        [.emitReturned ⟨i, w.claims⟩ d.deliveryId (.fromReceipt receipt) result]⟩
  | mark (w' : WorkerState) (d : WebhookDelivery) (receipt : WebhookReceipt)
      (result : Except EmitError Unit) (input : MarkInput) (hclaims : w'.claims = w.claims)
      (hd : ⟨d, some receipt, some result⟩ ∈ w.outstanding)
      (hout : ∀ o ∈ w'.outstanding, o ∈ w.outstanding ∧ o.delivery.deliveryId ≠ d.deliveryId)
      (hfuture : w.dispatchOf d.deliveryId = some ⟨d, receipt, .marking result⟩) :
      Effect cfg i db w ⟨.mark d.deliveryId (dispatchMark cfg d result input), w',
        [.marked ⟨i, w.claims⟩ d.deliveryId (dispatchMark cfg d result input)
          (db.inFlight d.deliveryId)]⟩

theorem mem_outstanding_afterLoad {todo : List WebhookDelivery}
    {done : List (WebhookDelivery × WebhookReceipt)} {o : Outstanding}
    (h : o ∈ (afterLoad todo done).outstanding) :
    (∃ d ∈ todo, o = ⟨d, none, none⟩) ∨ ∃ p ∈ done, o = ⟨p.1, some p.2, none⟩ := by
  unfold afterLoad at h
  split at h
  · split at h
    · simp [WorkerPhase.outstanding] at h
    · simp only [WorkerPhase.outstanding, List.map_map, List.mem_map] at h
      obtain ⟨p, hp, rfl⟩ := h
      exact Or.inr ⟨p, hp, rfl⟩
  · simp only [WorkerPhase.outstanding, List.mem_append, List.mem_map] at h
    rcases h with ⟨d, hd, rfl⟩ | ⟨p, hp, rfl⟩
    · exact Or.inl ⟨d, hd, rfl⟩
    · exact Or.inr ⟨p, hp, rfl⟩

theorem outstanding_afterMark (batch : List Dispatch) :
    (afterMark batch).outstanding = batch.map Dispatch.outstanding := by
  unfold afterMark
  split
  · rename_i h
    rw [List.isEmpty_iff.mp h]
    rfl
  · rfl

/-- Advancing a future changes nothing but its phase. -/
theorem mem_advance {id : DeliveryId} {p : DispatchPhase} {batch : List Dispatch} {x : Dispatch}
    (h : x ∈ advance id p batch) :
    (x ∈ batch ∧ x.delivery.deliveryId ≠ id) ∨ (x.delivery.deliveryId = id ∧ x.phase = p ∧
      ∃ q, ⟨x.delivery, x.receipt, q⟩ ∈ batch) := by
  obtain ⟨y, hy, rfl⟩ := List.mem_map.mp h
  by_cases hid : y.delivery.deliveryId = id
  · rw [if_pos hid]
    exact Or.inr ⟨hid, rfl, y.phase, hy⟩
  · rw [if_neg hid]
    exact Or.inl ⟨hy, hid⟩

theorem future_eq_some {id : DeliveryId} {batch : List Dispatch} {x : Dispatch}
    (h : future id batch = some x) : x ∈ batch ∧ x.delivery.deliveryId = id :=
  ⟨List.mem_of_find?_eq_some h, by simpa using List.find?_some h⟩

/-- A step into a phase with nothing outstanding that runs no statement. -/
theorem WorkerStep.Effect.idle {cfg : WorkerConfig} {i : WorkerId} {db : Database}
    {w w' : WorkerState} (hclaims : w'.claims = w.claims) (hout : w'.outstanding = []) :
    Effect cfg i db w ⟨.nop, w', []⟩ :=
  .quiet w' hclaims fun o ho => by rw [hout] at ho; simp at ho

/-- Loading the receipt of a row returns that row. -/
theorem loadClaimed_fst {db : Database} {d : WebhookDelivery}
    {p : WebhookDelivery × WebhookReceipt} (h : db.loadClaimed d = .ok p) : p.1 = d := by
  obtain ⟨r, -, h⟩ := Except.bind_eq_ok.mp h
  cases r with
  | none => exact absurd h (by simp)
  | some receipt =>
    cases h
    rfl

/-! Each step with rows of the batch in its hands, inverted: the phase it is enabled in, and what it
comes to. -/

section Inversion

variable {cfg : WorkerConfig} {i : WorkerId} {db : Database} {w : WorkerState} {o : WorkerOutcome}

theorem WorkerStep.run_claimPending {now : Timestamp} {locked picked : List DeliveryId}
    (h : (WorkerStep.claimPending now locked picked).run cfg i db w = some o) :
    w.phase = .claiming ∧ db.ClaimSelect cfg.name cfg.concurrency now locked picked ∧
      o = ⟨.claim picked now,
        { w with phase := afterLoad (db.claimedRows picked now) [], claims := w.claims + 1 },
        picked.map (.claimed ⟨i, w.claims + 1⟩)⟩ := by
  simp only [run] at h
  split at h
  · rename_i hphase
    split at h
    · rename_i hc
      cases h
      exact ⟨hphase, hc.2, rfl⟩
    · cases h
  · cases h

theorem WorkerStep.run_loadReceipt (h : WorkerStep.loadReceipt.run cfg i db w = some o) :
    ∃ d todo done, w.phase = .loading (d :: todo) done ∧
      ((∃ p, db.loadClaimed d = .ok p ∧
          o = ⟨.nop, { w with phase := afterLoad todo (done ++ [p]) }, []⟩) ∨
        ∃ e, db.loadClaimed d = .error e ∧ o = ⟨.nop, { w with phase := .polling }, []⟩) := by
  simp only [run] at h
  split at h
  · rename_i d todo done hphase
    refine ⟨d, todo, done, hphase, ?_⟩
    split at h
    · rename_i p hload
      cases h
      exact Or.inl ⟨p, hload, rfl⟩
    · rename_i e hload
      cases h
      exact Or.inr ⟨e, hload, rfl⟩
  · cases h

theorem WorkerStep.run_callEmit {id : DeliveryId}
    (h : (WorkerStep.callEmit id).run cfg i db w = some o) :
    ∃ batch d receipt, w.phase = .dispatching batch ∧ future id batch = some ⟨d, receipt, .ready⟩ ∧
      o = ⟨.nop, { w with phase := .dispatching (advance id .emitting batch) },
        [.emitCalled ⟨i, w.claims⟩ id (.fromReceipt receipt)]⟩ := by
  simp only [run] at h
  split at h
  · rename_i batch hphase
    split at h
    · rename_i d receipt hf
      cases h
      exact ⟨batch, d, receipt, hphase, hf, rfl⟩
    · cases h
  · cases h

theorem WorkerStep.run_emitReturned {id : DeliveryId} {result : Except EmitError Unit}
    (h : (WorkerStep.emitReturned id result).run cfg i db w = some o) :
    ∃ batch d receipt, w.phase = .dispatching batch ∧
      future id batch = some ⟨d, receipt, .emitting⟩ ∧
      o = ⟨.nop, { w with phase := .dispatching (advance id (.marking result) batch) },
        [.emitReturned ⟨i, w.claims⟩ id (.fromReceipt receipt) result]⟩ := by
  simp only [run] at h
  split at h
  · rename_i batch hphase
    split at h
    · rename_i d receipt hf
      cases h
      exact ⟨batch, d, receipt, hphase, hf, rfl⟩
    · cases h
  · cases h

theorem WorkerStep.run_mark {id : DeliveryId} {input : MarkInput} {outcome : CallOutcome}
    (h : (WorkerStep.mark id input outcome).run cfg i db w = some o) :
    ∃ batch d receipt result, w.phase = .dispatching batch ∧
      future id batch = some ⟨d, receipt, .marking result⟩ ∧
      ∃ next : WorkerState,
        next.phase = afterMark (batch.filter fun x => x.delivery.deliveryId ≠ id) ∧
        next.claims = w.claims ∧
        next.health = w.health.update result.isOk input.healthNow input.statusNow ∧
        ((outcome = .failed ∧ o = ⟨.nop, next, []⟩) ∨
          (outcome ≠ .failed ∧ o = ⟨.mark id (dispatchMark cfg d result input), next,
            [.marked ⟨i, w.claims⟩ id (dispatchMark cfg d result input) (db.inFlight id)]⟩)) := by
  simp only [run] at h
  split at h
  · rename_i batch hphase
    split at h
    · rename_i d receipt result hf
      refine ⟨batch, d, receipt, result, hphase, hf, ?_⟩
      split at h
      · rename_i hfailed
        cases h
        refine ⟨_, ?_, ?_, ?_, Or.inl ⟨hfailed, rfl⟩⟩ <;> rfl
      · rename_i hfailed
        cases h
        refine ⟨_, ?_, ?_, ?_, Or.inr ⟨hfailed, rfl⟩⟩ <;> rfl
    · cases h
  · cases h

theorem WorkerStep.loadReceipt_cases (h : WorkerStep.loadReceipt.run cfg i db w = some o) :
    Effect cfg i db w o := by
  obtain ⟨d, todo, done, hphase, ⟨⟨d', receipt⟩, hload, rfl⟩ | ⟨e, -, rfl⟩⟩ := run_loadReceipt h
  · have hw : w.outstanding = (WorkerPhase.loading (d :: todo) done).outstanding := by
      rw [WorkerState.outstanding, hphase]
    obtain rfl : d' = d := loadClaimed_fst hload
    refine .load _ d' receipt rfl (by rw [hw]; simp [WorkerPhase.outstanding]) hload ?_
    intro o ho
    rw [hw]
    rcases mem_outstanding_afterLoad ho with ⟨d, hd, rfl⟩ | ⟨p, hp, rfl⟩
    · exact Or.inl (by simp [WorkerPhase.outstanding, hd])
    · rcases List.mem_append.mp hp with hp | hp
      · exact Or.inl (by simp only [WorkerPhase.outstanding, List.mem_append, List.mem_map]
                         exact Or.inr ⟨p, hp, rfl⟩)
      · exact Or.inr (by rw [List.mem_singleton.mp hp])
  · exact .idle rfl rfl

/-- What is outstanding in a running batch. -/
theorem outstanding_dispatching {batch : List Dispatch} (hphase : w.phase = .dispatching batch) :
    w.outstanding = batch.map Dispatch.outstanding := by
  rw [WorkerState.outstanding, hphase, WorkerPhase.outstanding]

theorem WorkerStep.callEmit_cases {id : DeliveryId}
    (h : (WorkerStep.callEmit id).run cfg i db w = some o) : Effect cfg i db w o := by
  obtain ⟨batch, d, receipt, hphase, hf, rfl⟩ := run_callEmit h
  have hw := outstanding_dispatching hphase
  obtain ⟨hmem, rfl⟩ := future_eq_some hf
  refine .call _ d receipt rfl (by rw [hw]; exact List.mem_map_of_mem hmem) ?_
  intro o ho
  obtain ⟨x, hx, rfl⟩ := List.mem_map.mp ho
  rw [hw]
  rcases mem_advance hx with ⟨hx, -⟩ | ⟨-, hp, q, hq⟩
  · exact ⟨_, List.mem_map_of_mem hx, Or.inr rfl⟩
  · refine ⟨q.result, List.mem_map_of_mem (f := Dispatch.outstanding) hq, Or.inl ?_⟩
    simp only [Dispatch.outstanding, hp, DispatchPhase.result]

theorem WorkerStep.emitReturned_cases {id : DeliveryId} {result : Except EmitError Unit}
    (h : (WorkerStep.emitReturned id result).run cfg i db w = some o) : Effect cfg i db w o := by
  obtain ⟨batch, d, receipt, hphase, hf, rfl⟩ := run_emitReturned h
  have hw := outstanding_dispatching hphase
  obtain ⟨hmem, rfl⟩ := future_eq_some hf
  refine .returned _ d receipt result rfl (by rw [hw]; exact List.mem_map_of_mem hmem) ?_
  intro o ho
  obtain ⟨x, hx, rfl⟩ := List.mem_map.mp ho
  rw [hw]
  rcases mem_advance hx with ⟨hx, -⟩ | ⟨hid, hp, q, hq⟩
  · exact Or.inl (List.mem_map_of_mem hx)
  · refine Or.inr ⟨hid, ?_, q.result, List.mem_map_of_mem (f := Dispatch.outstanding) hq⟩
    simp only [Dispatch.outstanding, hp, DispatchPhase.result]

theorem WorkerStep.mark_cases {id : DeliveryId} {input : MarkInput} {outcome : CallOutcome}
    (h : (WorkerStep.mark id input outcome).run cfg i db w = some o) : Effect cfg i db w o := by
  obtain ⟨batch, d, receipt, result, hphase, hf, next, hnext, hclaims, -, hcases⟩ := run_mark h
  have hw := outstanding_dispatching hphase
  obtain ⟨hmem, rfl⟩ := future_eq_some hf
  have hrest : ∀ x ∈ next.outstanding,
      x ∈ w.outstanding ∧ x.delivery.deliveryId ≠ d.deliveryId := by
    intro x hx
    rw [WorkerState.outstanding, hnext, outstanding_afterMark] at hx
    obtain ⟨y, hy, rfl⟩ := List.mem_map.mp hx
    obtain ⟨hy, hne⟩ := List.mem_filter.mp hy
    rw [hw]
    exact ⟨List.mem_map_of_mem hy, by simpa [Dispatch.outstanding] using hne⟩
  rcases hcases with ⟨-, rfl⟩ | ⟨-, rfl⟩
  · exact .quiet _ hclaims fun x hx => (hrest x hx).1
  · refine .mark _ d receipt result input hclaims (by rw [hw]; exact List.mem_map_of_mem hmem) hrest
      ?_
    rw [WorkerState.dispatchOf, hphase]
    exact hf

theorem WorkerStep.run_cases {step : WorkerStep} (h : step.run cfg i db w = some o) :
    Effect cfg i db w o := by
  cases step with
  | reclaimExpired now =>
    simp only [run] at h
    split at h
    · cases h
      exact .reclaim _ now rfl rfl
    · cases h
  | claimPending now locked picked =>
    obtain ⟨-, hselect, rfl⟩ := run_claimPending h
    refine .claim _ now locked picked rfl hselect fun o ho => ?_
    rcases mem_outstanding_afterLoad ho with ⟨d, hd, rfl⟩ | ⟨p, hp, -⟩
    · exact ⟨d, hd, rfl⟩
    · exact absurd hp List.not_mem_nil
  | claimLost now locked picked =>
    simp only [run] at h
    split at h
    · split at h
      · rename_i hc
        cases h
        exact .claim _ now locked picked rfl hc.2 fun o ho => absurd ho List.not_mem_nil
      · cases h
    · cases h
  | loadReceipt => exact loadReceipt_cases h
  | callEmit id => exact callEmit_cases h
  | emitReturned id result => exact emitReturned_cases h
  | mark id input outcome => exact mark_cases h
  | refreshGauges now dlqOk pendingOk utcNow stop =>
    simp only [run] at h
    split at h
    · cases h
      refine .idle rfl ?_
      simp only [WorkerState.outstanding]
      split <;> rfl
    · cases h
  | crash =>
    cases h
    exact .idle rfl rfl
  | _ =>
    -- The other steps run no statement, and nothing is outstanding after them.
    simp only [run] at h
    split at h
    · cases h
      exact .idle rfl rfl
    · cases h

end Inversion

/-- The events of a worker belong to no call. -/
theorem WorkerStep.Effect.callOf {cfg : WorkerConfig} {i : WorkerId} {db : Database}
    {w : WorkerState} {o : WorkerOutcome} (heff : WorkerStep.Effect cfg i db w o) :
    ∀ ev ∈ o.events, ev.callOf = none := by
  cases heff with
  | quiet w' hclaims hout => simp
  | load w' d receipt hclaims hd hload hout => simp
  | reclaim w' now hclaims hout =>
    intro ev hev
    obtain ⟨d, -, rfl⟩ := List.mem_map.mp hev
    rfl
  | claim w' now locked picked hclaims hselect hout => simp [Event.callOf]
  | call w' d receipt hclaims hd hout => simp [Event.callOf]
  | returned w' d receipt result hclaims hd hout => simp [Event.callOf]
  | mark w' d receipt result input hclaims hd hout hfuture => simp [Event.callOf]

/-! ## 5. Whose event it is -/

section Events

variable {cfg : WorkerConfig} {i : WorkerId} {db : Database} {w : WorkerState} {o : WorkerOutcome}
  (heff : WorkerStep.Effect cfg i db w o) {c : ClaimId} {id : DeliveryId}

include heff

/-- **A claim** is the worker's next one, of rows that its `SELECT` chose. -/
theorem WorkerStep.Effect.of_claimed (hev : .claimed c id ∈ o.events) :
    c = ⟨i, w.claims + 1⟩ ∧ ∃ now locked picked,
      db.ClaimSelect cfg.name cfg.concurrency now locked picked ∧ id ∈ picked := by
  cases heff with
  | quiet w' hclaims hout => simp at hev
  | load w' d receipt hclaims hd hload hout => simp at hev
  | reclaim w' now hclaims hout => simp [Database.reclaimEvents] at hev
  | claim w' now locked picked hclaims hselect hout =>
    obtain ⟨id', hid', heq⟩ := List.mem_map.mp hev
    cases heq
    exact ⟨rfl, now, locked, picked, hselect, hid'⟩
  | call w' d receipt hclaims hd hout => simp at hev
  | returned w' d receipt result hclaims hd hout => simp at hev
  | mark w' d receipt result input hclaims hd hout hfuture => simp at hev

/-- **An emit call** sends the event of a receipt that the worker has loaded under its claim. -/
theorem WorkerStep.Effect.of_emitCalled {event : NormalizedEvent}
    (hev : .emitCalled c id event ∈ o.events) :
    c = ⟨i, w.claims⟩ ∧ ∃ d receipt, ⟨d, some receipt, none⟩ ∈ w.outstanding ∧
      event = .fromReceipt receipt := by
  cases heff with
  | quiet w' hclaims hout => simp at hev
  | load w' d receipt hclaims hd hload hout => simp at hev
  | reclaim w' now hclaims hout => simp [Database.reclaimEvents] at hev
  | claim w' now locked picked hclaims hselect hout => simp at hev
  | call w' d receipt hclaims hd hout =>
    simp only [List.mem_singleton, Event.emitCalled.injEq] at hev
    exact ⟨hev.1, d, receipt, hd, hev.2.2⟩
  | returned w' d receipt result hclaims hd hout => simp at hev
  | mark w' d receipt result input hclaims hd hout hfuture => simp at hev

/-- **A mark** is the only event of its step, which runs the update of an outstanding dispatch. -/
theorem WorkerStep.Effect.of_marked {m : DeliveryUpdate.Mark} {took : Bool}
    (hev : .marked c id m took ∈ o.events) :
    o.events = [.marked ⟨i, w.claims⟩ id m (db.inFlight id)] ∧ o.update = .mark id m ∧
      ∃ d receipt result input, ⟨d, some receipt, some result⟩ ∈ w.outstanding ∧
        d.deliveryId = id ∧ m = dispatchMark cfg d result input ∧
        w.dispatchOf id = some ⟨d, receipt, .marking result⟩ := by
  cases heff with
  | quiet w' hclaims hout => simp at hev
  | load w' d receipt hclaims hd hload hout => simp at hev
  | reclaim w' now hclaims hout => simp [Database.reclaimEvents] at hev
  | claim w' now locked picked hclaims hselect hout => simp at hev
  | call w' d receipt hclaims hd hout => simp at hev
  | returned w' d receipt result hclaims hd hout => simp at hev
  | mark w' d receipt result input hclaims hd hout hfuture =>
    simp only [List.mem_singleton, Event.marked.injEq] at hev
    obtain ⟨-, rfl, rfl, -⟩ := hev
    exact ⟨rfl, rfl, d, receipt, result, input, hd, rfl, rfl, hfuture⟩

end Events

end Hookbox
