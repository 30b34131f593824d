/-
# Receipt-level retry workers

Any number of `RetryWorker`s (`hookbox-server/src/worker.rs`) over one database.  A worker reads up to
100 receipts with `query_for_retry`, and then emits them and writes down the results one at a time,
each statement without looking at the state of the row.  What it writes about a receipt may be about
a row that another worker has moved on since.

* `RetrySys.Effect`: everything a step can do.
* `retrySystem_refines_storage`: the workers do to the database what runs of the storage machine do.
* `watched`: an emitted receipt in a worker's hands was recorded as emitted after the worker's query.
* `neverRegresses_of_fresh`: so emitted receipts stay emitted if no worker records a failure for such
  a receipt, and `fresh_of_keepsEmitted`: in no other runs.
* `neverRegresses_alone`: one worker records none.
-/
import Hookbox.Lib.Since
import Hookbox.RetryState

namespace Hookbox

/-! ## 1. The query -/

namespace Database

/-- The rows of the given receipts, in the given order. -/
def receiptRows (db : Database) (ids : List ReceiptId) : List ReceiptRow :=
  ids.filterMap db.receipts.get?

/-- A possible order of the receipts of `query_for_retry`. -/
def RetryOrder (db : Database) (maxAttempts : Int32) (ids : List ReceiptId) : Prop :=
  ids.Perm ((db.receipts.rows.filter fun row => ForRetry maxAttempts row).map (·.receiptId)) ∧
    (db.receiptRows ids).Pairwise fun r r' => r.receivedAt ≤ r'.receivedAt

instance (db : Database) (maxAttempts : Int32) (ids : List ReceiptId) :
    Decidable (db.RetryOrder maxAttempts ids) := by unfold RetryOrder; infer_instance

/-- **Choosing an order of the receipts is choosing an order of the rows.** -/
theorem retryRows_iff {db : Database} {m : Int32} {rows : List ReceiptRow} :
    db.RetryRows m rows ↔ ∃ ids, db.RetryOrder m ids ∧ rows = db.receiptRows ids := by
  have hfind : ∀ {rs : List ReceiptRow}, (∀ r ∈ rs, r ∈ db.receipts.rows) →
      db.receiptRows (rs.map (·.receiptId)) = rs := fun h => Table.filterMap_get? h
  constructor
  · rintro ⟨hperm, hsorted⟩
    have hmem : ∀ r ∈ rows, r ∈ db.receipts.rows := fun r hr =>
      List.mem_of_mem_filter (hperm.mem_iff.mp hr)
    exact ⟨rows.map (·.receiptId), ⟨hperm.map _, by rwa [hfind hmem]⟩, (hfind hmem).symm⟩
  · rintro ⟨ids, ⟨hperm, hsorted⟩, rfl⟩
    have hrows := hperm.filterMap db.receipts.get?
    have hfilter := hfind fun r (hr : r ∈ db.receipts.rows.filter fun row => ForRetry m row) =>
      List.mem_of_mem_filter hr
    exact ⟨hfilter ▸ hrows, hsorted⟩

end Database

/-! ## 2. One worker -/

/-- A spawned `RetryWorker`, in any process. -/
abbrev RetryWorkerId := Nat

/-- Where a worker stands: asleep, in its `for` loop, or in `retry_one`, before the emitter has
returned or after. -/
inductive RetryPhase where
  | sleeping
  | looping (receipts : List WebhookReceipt)
  | emitting (receipt : WebhookReceipt) (receipts : List WebhookReceipt)
  | recording (receipt : WebhookReceipt) (result : Except EmitError Unit)
      (receipts : List WebhookReceipt)

/-- The receipts a worker has yet to deal with. -/
def RetryPhase.held : RetryPhase → List ReceiptId
  | sleeping => []
  | looping receipts => receipts.map (·.receiptId)
  | emitting receipt receipts => (receipt :: receipts).map (·.receiptId)
  | recording receipt _ receipts => (receipt :: receipts).map (·.receiptId)

/-- What an observer of the workers sees. -/
inductive RetryEvent where
  /-- `query_for_retry` answered worker `i`. -/
  | queried (i : RetryWorkerId)
  /-- Worker `i` handed an event to its emitter. -/
  | called (i : RetryWorkerId) (event : NormalizedEvent)
  /-- `update_state` to `Emitted` was committed. -/
  | wroteEmitted (id : ReceiptId)
  /-- `retry_failed` of worker `i` was committed. -/
  | wroteFailure (i : RetryWorkerId) (id : ReceiptId)
  /-- `reset_for_retry` was committed. -/
  | reset (id : ReceiptId)

inductive RetryStep where
  | query (ids : List ReceiptId)
  | next
  | finish
  | emitReturned (result : Except EmitError Unit)
  | record (outcome : CallOutcome)
  | crash

/-- What a step comes to. -/
structure RetryOutcome where
  store : StorageState
  next : RetryPhase
  events : List RetryEvent := []

/-- The statement that `retry_one` issues for a result of the emitter. -/
def retryOp (maxAttempts : Int32) (id : ReceiptId) : Except EmitError Unit → StorageOp
  | .ok _ => .updateState id .emitted none
  | .error _ => .retryFailed id maxAttempts

/-- The event of that statement. -/
def retryEvent (i : RetryWorkerId) (id : ReceiptId) : Except EmitError Unit → RetryEvent
  | .ok _ => .wroteEmitted id
  | .error _ => .wroteFailure i id

/-- `RetryWorker::run` and `retry_one`, one step.  A query that fails on the way is no step. -/
def RetryStep.run (maxAttempts : Int32) (i : RetryWorkerId) (store : StorageState) :
    RetryPhase → RetryStep → Option RetryOutcome
  | .sleeping, .query ids =>
    if store.db.RetryOrder maxAttempts ids then
      match Database.queryForRetry (store.db.receiptRows ids) with
      | .ok receipts => some { store, next := .looping receipts, events := [.queried i] }
      | .error _ => some { store, next := .sleeping, events := [.queried i] }
    else none
  | .looping (receipt :: receipts), .next =>
    some
      { store
        next := .emitting receipt receipts
        events := [.called i (NormalizedEvent.fromReceipt receipt)] }
  | .looping [], .finish => some { store, next := .sleeping }
  | .emitting receipt receipts, .emitReturned result =>
    some { store, next := .recording receipt result receipts }
  | .recording receipt result receipts, .record outcome =>
    -- An error of the statement is logged, and the loop goes on.
    match outcome, (retryOp maxAttempts receipt.receiptId result).step store with
    | .failed, _ => some { store, next := .looping receipts }
    | _, none => some { store, next := .looping receipts }
    | _, some store' =>
      some
        { store := store'
          next := .looping receipts
          events := [retryEvent i receipt.receiptId result] }
  | _, .crash => some { store, next := .sleeping }
  | _, _ => none

/-! ## 3. The system -/

/-- The database and the state of every worker. -/
structure RetrySys where
  store : StorageState
  workers : RetryWorkerId → RetryPhase

/-- All workers freshly started. -/
def RetrySys.start (store : StorageState) : RetrySys := ⟨store, fun _ => .sleeping⟩

/-- The calls that set columns of a receipt. -/
def StorageOp.updatesReceipt : StorageOp → Bool
  | .updateState .. => true
  | .retryFailed .. => true
  | .resetForRetry .. => true
  | _ => false

/-- Who moves.  Nobody but the workers calls `update_state` and `retry_failed`; every other call of
the storage may come from elsewhere. -/
inductive RetryLabel where
  | worker (i : RetryWorkerId) (step : RetryStep)
  | reset (id : ReceiptId)
  | elsewhere (op : StorageOp)

/-- The state after a worker's step. -/
def RetrySys.afterRetry (s : RetrySys) (i : RetryWorkerId) (o : RetryOutcome) : RetrySys :=
  ⟨o.store, Function.update s.workers i o.next⟩

section

variable (maxAttempts : RetryWorkerId → Int32) (s : RetrySys)

/-- What a worker's step comes to. -/
def RetrySys.retryRun (i : RetryWorkerId) (step : RetryStep) : Option RetryOutcome :=
  step.run (maxAttempts i) i s.store (s.workers i)

def RetryLabel.step : RetryLabel → Option RetrySys
  | .worker i step => (s.retryRun maxAttempts i step).map (s.afterRetry i)
  | .reset id => ((StorageOp.resetForRetry id).step s.store).map fun store => { s with store }
  | .elsewhere op =>
    if op.updatesReceipt then none else (op.step s.store).map fun store => { s with store }

def RetryLabel.obs : RetryLabel → List RetryEvent
  | .worker i step => ((s.retryRun maxAttempts i step).map (·.events)).getD []
  | .reset id => [.reset id]
  | .elsewhere _ => []

end

/-- The workers as a transition system. -/
def retrySystem (maxAttempts : RetryWorkerId → Int32) : Lts RetrySys RetryLabel RetryEvent where
  step := RetryLabel.step maxAttempts
  obs := RetryLabel.obs maxAttempts

/-! ## 4. What a step can do -/

namespace Database

/-- The receipt is in this processing state. -/
def InState (db : Database) (id : ReceiptId) (st : ProcessingState) : Prop :=
  (db.receipts.get? id).map (·.processingState) = some st.text

/-- The states that `retry_failed` writes. -/
def Failed (db : Database) (id : ReceiptId) : Prop :=
  db.InState id .emitFailed ∨ db.InState id .deadLettered

theorem InState.unique {db : Database} {id : ReceiptId} {st st' : ProcessingState}
    (h : db.InState id st) (h' : db.InState id st') : st = st' :=
  ProcessingState.text_injective (Option.some.inj (h.symm.trans h'))

theorem InState.mem_keys {db : Database} {id : ReceiptId} {st : ProcessingState}
    (h : db.InState id st) : id ∈ db.receipts.keys := by
  obtain ⟨row, hrow, -⟩ := Option.map_eq_some_iff.mp h
  rw [← Table.key_of_get? hrow]
  exact Table.key_mem_keys (Table.mem_of_get? hrow)

theorem InState.not_failed {db : Database} {id : ReceiptId} (h : db.InState id .emitted) :
    ¬ db.Failed id := by
  rintro (hfailed | hfailed)
  · exact absurd (h.unique hfailed) (by decide)
  · exact absurd (h.unique hfailed) (by decide)

/-- **A statement on one receipt**: that one gets a state with `p`, the others keep theirs. -/
structure Writes (db db' : Database) (id : ReceiptId) (p : ProcessingState → Prop) : Prop where
  keys : db'.receipts.keys = db.receipts.keys
  self : id ∈ db.receipts.keys → ∃ st, p st ∧ db'.InState id st
  others : ∀ {id' st}, id' ≠ id → (db'.InState id' st ↔ db.InState id' st)

theorem writes_sql {db : Database} {id : ReceiptId} {p : ProcessingState → Prop}
    {set : ReceiptRow → ReceiptRow} {hset : ∀ row, (set row).content = row.content}
    (h : ∀ row, ∃ st, p st ∧ (set row).processingState = st.text) :
    db.Writes (db.updateReceipts (.sql id set hset)) id p where
  keys := Table.update_keys (ReceiptUpdate.run_receiptId _)
  self := by
    intro hid
    obtain ⟨row, hrow⟩ := Table.exists_get? hid
    obtain ⟨st, hp, hst⟩ := h row
    have hrun : (ReceiptUpdate.sql id set hset).run row = set row := if_pos (Table.key_of_get? hrow)
    refine ⟨st, hp, ?_⟩
    rw [InState, get?_updateReceipts, hrow, Option.map_some, Option.map_some, hrun, hst]
  others := by
    intro id' st hne
    have hrun : ∀ row, db.receipts.get? id' = some row →
        (ReceiptUpdate.sql id set hset).run row = row := fun row hrow =>
      if_neg fun heq => hne ((Table.key_of_get? hrow).symm.trans heq)
    rw [InState, InState, get?_updateReceipts]
    cases hrow : db.receipts.get? id' with
    | none => rfl
    | some row => rw [Option.map_some, hrun row hrow]

theorem writes_updateState (db : Database) (id : ReceiptId) (st : ProcessingState)
    (error : Option String) : db.Writes (db.updateState id st error) id (· = st) :=
  writes_sql fun _ => ⟨st, rfl, rfl⟩

theorem writes_retryFailed {db db' : Database} {id : ReceiptId} {m : Int32}
    (h : db.retryFailed id m = .ok db') :
    db.Writes db' id fun st => st = .emitFailed ∨ st = .deadLettered := by
  obtain ⟨set, hset, rfl, hstate⟩ := retryFailed_ok h
  exact writes_sql hstate

theorem writes_resetForRetry {db db' : Database} {id : ReceiptId}
    (h : db.resetForRetry id = .ok db') : db.Writes db' id (· = .emitFailed) := by
  obtain ⟨-, rfl⟩ := resetForRetry_update h
  exact writes_sql fun _ => ⟨.emitFailed, rfl, rfl⟩

/-- Appended receipts leave the states of the old ones alone. -/
theorem inState_append_iff {db db' : Database} {rows : List ReceiptRow} {id : ReceiptId}
    {st : ProcessingState} (h : db'.receipts.rows = db.receipts.rows ++ rows)
    (hid : id ∈ db.receipts.keys) : db'.InState id st ↔ db.InState id st := by
  obtain ⟨row, hrow⟩ := Table.exists_get? hid
  obtain ⟨hmem, hkey⟩ := Table.get?_eq_some_iff.mp hrow
  have hrow' : db'.receipts.get? id = some row :=
    Table.get?_eq_some_iff.mpr ⟨by rw [h]; exact List.mem_append_left _ hmem, hkey⟩
  rw [InState, InState, hrow, hrow']

/-- What `query_for_retry` answers was found in `emit_failed`, no receipt twice. -/
theorem RetryRows.held {db : Database} {m : Int32} {rows : List ReceiptRow}
    {receipts : List WebhookReceipt} (h : db.RetryRows m rows)
    (hok : queryForRetry rows = .ok receipts) :
    (receipts.map (·.receiptId)).Nodup ∧
      ∀ id ∈ receipts.map (·.receiptId), db.InState id .emitFailed := by
  rw [queryForRetry_eq, Except.mapM_eq_ok_iff] at hok
  have hids : (rows.take 100).map (·.receiptId) = receipts.map (·.receiptId) := by
    rw [← List.forall₂_eq_eq_eq]
    exact List.forall₂_map_left_iff.mpr <| List.forall₂_map_right_iff.mpr <|
      hok.imp fun row receipt hdecode => (receiptFromRow_ok hdecode).1.symm
  rw [← hids]
  constructor
  · have hfound : ((db.receipts.rows.filter fun row => ForRetry m row).map (·.receiptId)).Nodup :=
      db.receipts.pk.sublist (List.filter_sublist.map _)
    exact ((h.1.map _).nodup_iff.mpr hfound).sublist ((List.take_sublist _ _).map _)
  · intro id hid
    obtain ⟨row, hrow, rfl⟩ := List.mem_map.mp hid
    obtain ⟨hmem, hst, -⟩ := h.mem_iff.mp (List.mem_of_mem_take hrow)
    rw [InState, Table.get?_of_mem hmem, Option.map_some, hst]
    rfl

end Database

/-- **Everything a worker's step can do**: it goes on with less to do, or starts on the answer of a
query, or issues the statement for its next receipt. -/
inductive RetryStep.Effect (maxAttempts : Int32) (i : RetryWorkerId) (store : StorageState)
    (phase : RetryPhase) : RetryOutcome → Prop where
  | quiet (next : RetryPhase) (events : List RetryEvent) (hheld : next.held <:+ phase.held)
      (hevents : ∀ ev ∈ events, ∃ event, ev = .called i event) :
      Effect maxAttempts i store phase ⟨store, next, events⟩
  | queried (next : RetryPhase) (hnodup : next.held.Nodup)
      (hfailed : ∀ id ∈ next.held, store.db.InState id .emitFailed) :
      Effect maxAttempts i store phase ⟨store, next, [.queried i]⟩
  | wrote (id : ReceiptId) (result : Except EmitError Unit) (next : RetryPhase)
      (store' : StorageState) (hheld : phase.held = id :: next.held)
      (hop : (retryOp maxAttempts id result).step store = some store') :
      Effect maxAttempts i store phase ⟨store', next, [retryEvent i id result]⟩

theorem RetryStep.run_cases {maxAttempts : Int32} {i : RetryWorkerId} {store : StorageState}
    {phase : RetryPhase} {step : RetryStep} {o : RetryOutcome}
    (h : step.run maxAttempts i store phase = some o) :
    RetryStep.Effect maxAttempts i store phase o := by
  unfold RetryStep.run at h
  split at h
  · -- `query_for_retry`
    rename_i ids
    split at h
    · rename_i horder
      split at h
      · rename_i receipts hok
        rw [Option.some.injEq] at h
        subst h
        have hrows := Database.retryRows_iff.mpr ⟨ids, horder, rfl⟩
        obtain ⟨hnodup, hfailed⟩ := hrows.held hok
        exact .queried (.looping receipts) hnodup hfailed
      · rw [Option.some.injEq] at h
        subst h
        exact .queried .sleeping List.nodup_nil (by simp [RetryPhase.held])
    · exact absurd h (by simp)
  · rw [Option.some.injEq] at h
    subst h
    exact .quiet _ _ (List.suffix_refl _) (by simp)
  · rw [Option.some.injEq] at h
    subst h
    exact .quiet _ _ (List.suffix_refl _) (by simp)
  · rw [Option.some.injEq] at h
    subst h
    exact .quiet _ _ (List.suffix_refl _) (by simp)
  · -- the statement of `retry_one`
    split at h
    · rw [Option.some.injEq] at h
      subst h
      exact .quiet _ _ (List.suffix_cons _ _) (by simp)
    · rw [Option.some.injEq] at h
      subst h
      exact .quiet _ _ (List.suffix_cons _ _) (by simp)
    · rename_i hop
      rw [Option.some.injEq] at h
      subst h
      exact .wrote _ _ (.looping _) _ rfl hop
  · rw [Option.some.injEq] at h
    subst h
    exact .quiet _ _ (List.nil_suffix) (by simp)
  · exact absurd h (by simp)

/-- **Everything a step can do.** -/
inductive RetrySys.Effect (maxAttempts : RetryWorkerId → Int32) (s : RetrySys) :
    RetrySys → List RetryEvent → Prop where
  | worker (i : RetryWorkerId) (o : RetryOutcome)
      (h : RetryStep.Effect (maxAttempts i) i s.store (s.workers i) o) :
      Effect maxAttempts s (s.afterRetry i o) o.events
  | reset (id : ReceiptId) (store : StorageState)
      (hop : (StorageOp.resetForRetry id).step s.store = some store) :
      Effect maxAttempts s { s with store } [.reset id]
  | elsewhere (op : StorageOp) (store : StorageState) (hnot : op.updatesReceipt = false)
      (hop : op.step s.store = some store) : Effect maxAttempts s { s with store } []

section

variable {maxAttempts : RetryWorkerId → Int32} {s s' : RetrySys}

/-- The other labels leave the workers alone. -/
theorem retrySystem_other {l : RetryLabel} (h : (retrySystem maxAttempts).step s l = some s')
    (hl : ∀ i step, l ≠ .worker i step) : s'.workers = s.workers ∧
      ∀ ev ∈ (retrySystem maxAttempts).obs s l, ∃ id, ev = .reset id := by
  cases l with
  | worker i step => exact absurd rfl (hl i step)
  | reset id =>
    obtain ⟨store, -, rfl⟩ := Option.map_eq_some_iff.mp h
    exact ⟨rfl, fun ev hev => ⟨id, List.mem_singleton.mp hev⟩⟩
  | elsewhere op =>
    simp only [retrySystem, RetryLabel.step] at h
    split at h
    · exact absurd h (by simp)
    · obtain ⟨store, -, rfl⟩ := Option.map_eq_some_iff.mp h
      exact ⟨rfl, fun ev hev => absurd hev List.not_mem_nil⟩

/-- What a worker's label comes to. -/
theorem retrySystem_worker {i : RetryWorkerId} {step : RetryStep}
    (h : (retrySystem maxAttempts).step s (.worker i step) = some s') :
    ∃ o, RetryStep.Effect (maxAttempts i) i s.store (s.workers i) o ∧ s' = s.afterRetry i o ∧
      (retrySystem maxAttempts).obs s (.worker i step) = o.events := by
  obtain ⟨o, ho, rfl⟩ := Option.map_eq_some_iff.mp h
  exact ⟨o, RetryStep.run_cases ho, rfl, by simp [retrySystem, RetryLabel.obs, ho]⟩

/-- Workers do not reset receipts. -/
theorem RetryStep.Effect.reset_notMem {m : Int32} {i : RetryWorkerId} {store : StorageState}
    {phase : RetryPhase} {o : RetryOutcome} (h : RetryStep.Effect m i store phase o)
    (id : ReceiptId) : .reset id ∉ o.events := by
  intro hev
  cases h with
  | quiet next events hheld hevents =>
    obtain ⟨event, heq⟩ := hevents _ hev
    exact absurd heq (by simp)
  | queried next hnodup hfailed => exact absurd hev (by simp)
  | wrote id₀ result next store' hheld hop => cases result <;> exact absurd hev (by simp [retryEvent])

/-- **A reset that is observed is a label of the run.** -/
theorem reset_mem_of_trace {ls : List RetryLabel} {id : ReceiptId}
    (h : (retrySystem maxAttempts).exec s ls = some s')
    (hev : .reset id ∈ (retrySystem maxAttempts).trace s ls) : .reset id ∈ ls := by
  obtain ⟨pre, l, post, t, t', rfl, -, hstep, hobs, -⟩ := Lts.exists_step_of_mem_trace h hev
  cases l with
  | worker i step =>
    obtain ⟨o, heff, -, heq⟩ := retrySystem_worker hstep
    rw [heq] at hobs
    exact absurd hobs (heff.reset_notMem id)
  | reset id' =>
    obtain rfl := RetryEvent.reset.inj (List.mem_singleton.mp hobs)
    simp
  | elsewhere op => exact absurd hobs List.not_mem_nil

theorem retrySystem_step_cases {l : RetryLabel}
    (h : (retrySystem maxAttempts).step s l = some s') :
    RetrySys.Effect maxAttempts s s' ((retrySystem maxAttempts).obs s l) := by
  cases l with
  | worker i step =>
    obtain ⟨o, heff, rfl, hobs⟩ := retrySystem_worker h
    rw [hobs]
    exact .worker i o heff
  | reset id =>
    obtain ⟨store, hop, rfl⟩ := Option.map_eq_some_iff.mp h
    exact .reset id store hop
  | elsewhere op =>
    simp only [retrySystem, RetryLabel.step] at h
    split at h
    · exact absurd h (by simp)
    · rename_i hnot
      obtain ⟨store, hop, rfl⟩ := Option.map_eq_some_iff.mp h
      exact .elsewhere op store (Bool.eq_false_iff.mpr hnot) hop

/-- A call that sets no column of a receipt appends receipts. -/
theorem StorageOp.appends {op : StorageOp} {store store' : StorageState}
    (h : op.step store = some store') (hnot : op.updatesReceipt = false) :
    ∃ rows, store'.db.receipts.rows = store.db.receipts.rows ++ rows := by
  cases op with
  | storeWithDeliveries receipt names draw now =>
    simp only [StorageOp.step] at h
    split at h
    · rename_i db hs
      rw [Option.some.injEq] at h
      subst h
      exact ⟨[receipt.toRow], (Database.storeWithDeliveries_spec hs).2.2.1⟩
    · rw [Option.some.injEq] at h
      subst h
      exact ⟨[], (List.append_nil _).symm⟩
    · exact absurd h (by simp)
  | claimPending e n now locked picked =>
    simp only [StorageOp.step] at h
    split at h
    · rw [Option.some.injEq] at h
      subst h
      exact ⟨[], (List.append_nil _).symm⟩
    · exact absurd h (by simp)
  | reclaimExpired e lease now =>
    simp only [StorageOp.step, Option.some.injEq] at h
    subst h
    exact ⟨[], (List.append_nil _).symm⟩
  | mark id m =>
    simp only [StorageOp.step] at h
    split at h
    · rw [Option.some.injEq] at h
      subst h
      exact ⟨[], (List.append_nil _).symm⟩
    · exact absurd h (by simp)
  | insertReplay receiptId e id now =>
    obtain ⟨db, hs, rfl⟩ := Option.map_eq_some_iff.mp h
    exact ⟨[], by rw [(Database.insertDelivery_eq_some_iff.mp hs).2.2.1, List.append_nil]⟩
  | insertReplays receiptId names draw now =>
    obtain ⟨db, hs, rfl⟩ := Option.map_eq_some_iff.mp h
    exact ⟨[], by rw [(Database.insertDeliveries_spec hs).1, List.append_nil]⟩
  | updateState id st error => exact absurd hnot (by simp [updatesReceipt])
  | retryFailed id m => exact absurd hnot (by simp [updatesReceipt])
  | resetForRetry id => exact absurd hnot (by simp [updatesReceipt])

/-- A step leaves the storage alone or is a step of it. -/
theorem RetrySys.Effect.storage {es : List RetryEvent} (h : RetrySys.Effect maxAttempts s s' es) :
    s'.store = s.store ∨ ∃ op : StorageOp, op.step s.store = some s'.store := by
  cases h with
  | worker i o heff =>
    cases heff with
    | quiet next events hheld hevents => exact Or.inl rfl
    | queried next hnodup hfailed => exact Or.inl rfl
    | wrote id result next store' hheld hop => exact Or.inr ⟨_, hop⟩
  | reset id store hop => exact Or.inr ⟨_, hop⟩
  | elsewhere op store hnot hop => exact Or.inr ⟨op, hop⟩

/-- **The workers run the storage machine**: the database a run leaves is one that calls of the
storage leave. -/
theorem retrySystem_refines_storage {ls : List RetryLabel}
    (h : (retrySystem maxAttempts).exec s ls = some s') :
    ∃ ops, storage.exec s.store ops = some s'.store := by
  refine Lts.exec_invariant (I := fun t => ∃ ops, storage.exec s.store ops = some t.store)
    ⟨[], rfl⟩ ?_ h
  rintro t l t' ⟨ops, hops⟩ hstep
  rcases (retrySystem_step_cases hstep).storage with heq | ⟨op, hop⟩
  · exact ⟨ops, by rw [heq]; exact hops⟩
  · exact ⟨ops ++ [op], Lts.exec_snoc.mpr ⟨t.store, hops, hop⟩⟩

/-! ## 5. Receipts that a worker holds -/

/-- The states that the statement for a result writes. -/
def retryStates (result : Except EmitError Unit) (st : ProcessingState) : Prop :=
  match result with
  | .ok _ => st = .emitted
  | .error _ => st = .emitFailed ∨ st = .deadLettered

theorem writes_retryOp {m : Int32} {id : ReceiptId} {result : Except EmitError Unit}
    {store store' : StorageState} (h : (retryOp m id result).step store = some store') :
    store.db.Writes store'.db id (retryStates result) := by
  cases result with
  | ok _ =>
    simp only [retryOp, StorageOp.step, Option.some.injEq] at h
    subst h
    exact Database.writes_updateState _ _ _ _
  | error e =>
    obtain ⟨db, hdb, rfl⟩ := Option.map_eq_some_iff.mp h
    exact Database.writes_retryFailed (Except.toOption_eq_some_iff.mp hdb)

/-- A receipt in a worker's hands was recorded as emitted, and since then it was not reset, nor did
the worker ask the database again. -/
def Stale (h : List RetryEvent) (i : RetryWorkerId) (id : ReceiptId) : Prop :=
  Since (· = .wroteEmitted id) (fun ev => ev = .reset id ∨ ev = .queried i) h

/-- The receipts that workers hold exist, and those that are emitted were recorded as emitted since
the worker's query. -/
structure Watched (h : List RetryEvent) (s : RetrySys) : Prop where
  known : ∀ {i id}, id ∈ (s.workers i).held → id ∈ s.store.db.receipts.keys
  stale : ∀ {i id}, id ∈ (s.workers i).held → s.store.db.InState id .emitted → Stale h i id

theorem RetrySys.afterRetry_self (s : RetrySys) (i : RetryWorkerId) (o : RetryOutcome) :
    (s.afterRetry i o).workers i = o.next := Function.update_self _ _ _

theorem RetrySys.afterRetry_of_ne (s : RetrySys) {i j : RetryWorkerId} (hj : j ≠ i)
    (o : RetryOutcome) : (s.afterRetry i o).workers j = s.workers j := Function.update_of_ne hj _ _

/-- Who holds what after a worker's step. -/
theorem held_afterRetry {i j : RetryWorkerId} {o : RetryOutcome} {id : ReceiptId}
    (h : id ∈ ((s.afterRetry i o).workers j).held) :
    (j = i ∧ id ∈ o.next.held) ∨ (j ≠ i ∧ id ∈ (s.workers j).held) := by
  by_cases hj : j = i
  · subst hj
    rw [s.afterRetry_self] at h
    exact Or.inl ⟨rfl, h⟩
  · rw [s.afterRetry_of_ne hj] at h
    exact Or.inr ⟨hj, h⟩

/-- Only the answer of a query puts receipts into a worker's hands. -/
theorem held_of_subset {i j : RetryWorkerId} {o : RetryOutcome} {id : ReceiptId}
    (hsub : o.next.held ⊆ (s.workers i).held) (h : id ∈ ((s.afterRetry i o).workers j).held) :
    id ∈ (s.workers j).held := by
  rcases held_afterRetry h with ⟨rfl, hid⟩ | ⟨-, hid⟩
  · exact hsub hid
  · exact hid

/-- A receipt that is emitted after a statement was emitted before, or the statement says so. -/
theorem Watched.of_writes {h : List RetryEvent} (hw : Watched h s) {db : Database}
    {id₀ : ReceiptId} {p : ProcessingState → Prop} (hwrites : s.store.db.Writes db id₀ p)
    {j : RetryWorkerId} {id : ReceiptId} (hid : id ∈ (s.workers j).held)
    (hst : db.InState id .emitted) : (id = id₀ ∧ p .emitted) ∨ (id ≠ id₀ ∧ Stale h j id) := by
  by_cases heq : id = id₀
  · subst heq
    obtain ⟨st, hp, hst'⟩ := hwrites.self (hw.known hid)
    obtain rfl : st = .emitted := hst'.unique hst
    exact Or.inl ⟨rfl, hp⟩
  · exact Or.inr ⟨heq, hw.stale hid ((hwrites.others heq).mp hst)⟩

theorem RetrySys.Effect.watched {es h : List RetryEvent}
    (heff : RetrySys.Effect maxAttempts s s' es) (hw : Watched h s) : Watched (h ++ es) s' := by
  cases heff with
  | worker i o heff =>
    cases heff with
    | quiet next events hheld hevents =>
      refine ⟨fun hid => hw.known (held_of_subset hheld.subset hid), fun hid hst => ?_⟩
      refine (since_append_iff fun ev hev => ?_).mpr (hw.stale (held_of_subset hheld.subset hid) hst)
      obtain ⟨event, rfl⟩ := hevents ev hev
      simp
    | queried next hnodup hfailed =>
      constructor
      · intro j id hid
        rcases held_afterRetry hid with ⟨-, hid⟩ | ⟨-, hid⟩
        · exact (hfailed id hid).mem_keys
        · exact hw.known hid
      · intro j id hid hst
        rcases held_afterRetry hid with ⟨-, hid⟩ | ⟨hj, hid⟩
        · exact absurd ((hfailed id hid).unique hst) (by decide)
        · exact since_snoc.mpr (Or.inr ⟨hw.stale hid hst, by simp [hj.symm]⟩)
    | wrote id₀ result next store' hheld hop =>
      have hsub : next.held ⊆ (s.workers i).held := by
        rw [hheld]
        exact List.subset_cons_self _ _
      have hwrites := writes_retryOp hop
      constructor
      · intro j id hid
        have hid' := hw.known (held_of_subset hsub hid)
        rwa [← hwrites.keys] at hid'
      · intro j id hid hst
        rcases hw.of_writes hwrites (held_of_subset hsub hid) hst with ⟨rfl, hp⟩ | ⟨-, hstale⟩
        · cases result with
          | ok _ => exact since_snoc.mpr (Or.inl rfl)
          | error e => exact absurd hp (by simp [retryStates])
        · refine since_snoc.mpr (Or.inr ⟨hstale, ?_⟩)
          cases result <;> simp [retryEvent]
  | reset id₀ store hop =>
    obtain ⟨db, hdb, rfl⟩ := Option.map_eq_some_iff.mp hop
    have hwrites := Database.writes_resetForRetry (Except.toOption_eq_some_iff.mp hdb)
    refine ⟨fun hid => by rw [hwrites.keys]; exact hw.known hid, fun {j id} hid hst => ?_⟩
    rcases hw.of_writes hwrites hid hst with ⟨-, hp⟩ | ⟨hne, hstale⟩
    · exact absurd hp (by decide)
    · exact since_snoc.mpr (Or.inr ⟨hstale, by simp [hne.symm]⟩)
  | elsewhere op store hnot hop =>
    obtain ⟨rows, hrows⟩ := StorageOp.appends hop hnot
    rw [List.append_nil]
    refine ⟨fun hid => ?_, fun hid hst =>
      hw.stale hid ((Database.inState_append_iff hrows (hw.known hid)).mp hst)⟩
    rw [Table.keys, hrows, List.map_append]
    exact List.mem_append_left _ (hw.known hid)

theorem watched_start (store : StorageState) : Watched [] (.start store) :=
  ⟨fun hid => absurd hid List.not_mem_nil, fun hid => absurd hid List.not_mem_nil⟩

/-- **Emitted receipts in a worker's hands are stale**, in every run. -/
theorem watched {store : StorageState} {ls : List RetryLabel}
    (h : (retrySystem maxAttempts).exec (.start store) ls = some s) :
    Watched ((retrySystem maxAttempts).trace (.start store) ls) s :=
  Lts.exec_induction (watched_start store)
    (fun _ _ _ _ hw hstep => (retrySystem_step_cases hstep).watched hw) h

/-! ## 6. Regressing -/

/-- **A step from `Emitted`**: unless the receipt is reset, it stays emitted or a worker records a
failure. -/
theorem RetrySys.Effect.emitted_cases {es : List RetryEvent}
    (heff : RetrySys.Effect maxAttempts s s' es) {id : ReceiptId}
    (hst : s.store.db.InState id .emitted) (hno : .reset id ∉ es) :
    s'.store.db.InState id .emitted ∨ ∃ i, .wroteFailure i id ∈ es := by
  cases heff with
  | worker i o heff =>
    cases heff with
    | quiet next events hheld hevents => exact Or.inl hst
    | queried next hnodup hfailed => exact Or.inl hst
    | wrote id₀ result next store' hheld hop =>
      have hwrites := writes_retryOp hop
      by_cases heq : id = id₀
      · subst heq
        cases result with
        | ok _ =>
          obtain ⟨st, rfl, hst'⟩ := hwrites.self hst.mem_keys
          exact Or.inl hst'
        | error e => exact Or.inr ⟨i, List.mem_singleton_self _⟩
      · exact Or.inl ((hwrites.others heq).mpr hst)
  | reset id₀ store hop =>
    obtain ⟨db, hdb, rfl⟩ := Option.map_eq_some_iff.mp hop
    have hwrites := Database.writes_resetForRetry (Except.toOption_eq_some_iff.mp hdb)
    have hne : id ≠ id₀ := fun heq => hno (by rw [heq]; exact List.mem_singleton_self _)
    exact Or.inl ((hwrites.others hne).mpr hst)
  | elsewhere op store hnot hop =>
    obtain ⟨rows, hrows⟩ := StorageOp.appends hop hnot
    exact Or.inl ((Database.inState_append_iff hrows hst.mem_keys).mpr hst)

/-- **What an event says of its step**: a statement about a receipt is the only event of its step,
and the worker held the receipt. -/
theorem RetrySys.Effect.event_cases {es : List RetryEvent}
    (heff : RetrySys.Effect maxAttempts s s' es) {ev : RetryEvent} (hev : ev ∈ es) :
    (∃ i event, ev = .called i event) ∨ (∃ i, ev = .queried i) ∨ (∃ id, ev = .reset id) ∨
      ∃ i id result, ev = retryEvent i id result ∧ es = [ev] ∧ id ∈ (s.workers i).held ∧
        s.store.db.Writes s'.store.db id (retryStates result) := by
  cases heff with
  | worker i o heff =>
    cases heff with
    | quiet next events hheld hevents => exact Or.inl ⟨i, hevents ev hev⟩
    | queried next hnodup hfailed => exact Or.inr (Or.inl ⟨i, List.mem_singleton.mp hev⟩)
    | wrote id result next store' hheld hop =>
      obtain rfl := List.mem_singleton.mp hev
      have hmem : id ∈ (s.workers i).held := by
        rw [hheld]
        exact List.mem_cons_self
      exact Or.inr (Or.inr (Or.inr ⟨i, id, result, rfl, rfl, hmem, writes_retryOp hop⟩))
  | reset id store hop => exact Or.inr (Or.inr (Or.inl ⟨id, List.mem_singleton.mp hev⟩))
  | elsewhere op store hnot hop => exact absurd hev List.not_mem_nil

/-- **A recorded failure**: the worker held the receipt, and leaves it failed. -/
theorem RetrySys.Effect.wroteFailure {es h : List RetryEvent}
    (heff : RetrySys.Effect maxAttempts s s' es) (hw : Watched h s) {i : RetryWorkerId}
    {id : ReceiptId} (hev : .wroteFailure i id ∈ es) :
    es = [.wroteFailure i id] ∧ id ∈ (s.workers i).held ∧ s'.store.db.Failed id := by
  rcases heff.event_cases hev with
    ⟨j, event, heq⟩ | ⟨j, heq⟩ | ⟨id', heq⟩ | ⟨j, id', result, heq, hes, hheld, hwrites⟩
  · exact absurd heq (by simp)
  · exact absurd heq (by simp)
  · exact absurd heq (by simp)
  · cases result with
    | ok _ => exact absurd heq (by simp [retryEvent])
    | error e =>
      obtain ⟨rfl, rfl⟩ := RetryEvent.wroteFailure.inj heq
      obtain ⟨st, hp, hst⟩ := hwrites.self (hw.known hheld)
      refine ⟨hes, hheld, ?_⟩
      rcases hp with rfl | rfl
      · exact Or.inl hst
      · exact Or.inr hst

/-- **A recorded success** leaves the receipt emitted. -/
theorem RetrySys.Effect.wroteEmitted {es h : List RetryEvent}
    (heff : RetrySys.Effect maxAttempts s s' es) (hw : Watched h s) {id : ReceiptId}
    (hev : .wroteEmitted id ∈ es) : s'.store.db.InState id .emitted := by
  rcases heff.event_cases hev with
    ⟨j, event, heq⟩ | ⟨j, heq⟩ | ⟨id', heq⟩ | ⟨j, id', result, heq, -, hheld, hwrites⟩
  · exact absurd heq (by simp)
  · exact absurd heq (by simp)
  · exact absurd heq (by simp)
  · cases result with
    | ok _ =>
      obtain rfl := RetryEvent.wroteEmitted.inj heq
      obtain ⟨st, rfl, hst⟩ := hwrites.self (hw.known hheld)
      exact hst
    | error e => exact absurd heq (by simp [retryEvent])

/-- **No regress**: in no stretch of the run does a receipt go from `Emitted` to `EmitFailed` or
`DeadLettered` without a `reset_for_retry` of it. -/
def NeverRegresses (maxAttempts : RetryWorkerId → Int32) (s₀ : RetrySys) (ls : List RetryLabel) :
    Prop :=
  ∀ before between after t t' id, ls = before ++ between ++ after →
    (retrySystem maxAttempts).exec s₀ before = some t →
    (retrySystem maxAttempts).exec t between = some t' →
    t.store.db.InState id .emitted → t'.store.db.Failed id →
    .reset id ∈ (retrySystem maxAttempts).trace t between

/-- A step keeps emitted receipts emitted, unless it resets them. -/
def KeepsEmitted (maxAttempts : RetryWorkerId → Int32) (_ : List RetryEvent) (s : RetrySys)
    (l : RetryLabel) : Prop :=
  ∀ s' id, (retrySystem maxAttempts).step s l = some s' → s.store.db.InState id .emitted →
    .reset id ∉ (retrySystem maxAttempts).obs s l → s'.store.db.InState id .emitted

/-- A step that records a failure does so for a receipt that is not stale. -/
def Fresh (maxAttempts : RetryWorkerId → Int32) (h : List RetryEvent) (s : RetrySys)
    (l : RetryLabel) : Prop :=
  ∀ i id, .wroteFailure i id ∈ (retrySystem maxAttempts).obs s l → ¬ Stale h i id

/-- Along a stretch without a reset, an emitted receipt stays emitted. -/
theorem emitted_of_keepsEmitted {s₀ t t' : RetrySys} {before between : List RetryLabel}
    {id : ReceiptId}
    (hkeeps : (retrySystem maxAttempts).EveryStep (KeepsEmitted maxAttempts) s₀ (before ++ between))
    (hbefore : (retrySystem maxAttempts).exec s₀ before = some t)
    (hbetween : (retrySystem maxAttempts).exec t between = some t')
    (hst : t.store.db.InState id .emitted)
    (hno : .reset id ∉ (retrySystem maxAttempts).trace t between) :
    t'.store.db.InState id .emitted := by
  induction between using List.reverseRecOn generalizing t' with
  | nil =>
    rw [Lts.exec_nil, Option.some.injEq] at hbetween
    subst hbetween
    exact hst
  | append_singleton between l ih =>
    obtain ⟨u, hu, hl⟩ := Lts.exec_snoc.mp hbetween
    rw [Lts.trace_snoc hu hl, List.mem_append, not_or] at hno
    rw [← List.append_assoc, Lts.everyStep_snoc] at hkeeps
    have hrun : (retrySystem maxAttempts).exec s₀ (before ++ between) = some u := by
      rw [Lts.exec_append, hbefore, Option.bind_some, hu]
    exact hkeeps.2 u hrun t' id hl (ih hkeeps.1 hu hno.1) hno.2

/-- **No regress is a matter of single steps.** -/
theorem neverRegresses_iff_keepsEmitted {store : StorageState} {ls : List RetryLabel} :
    NeverRegresses maxAttempts (.start store) ls ↔
      (retrySystem maxAttempts).EveryStep (KeepsEmitted maxAttempts) (.start store) ls := by
  constructor
  · intro hnever pre l post t hsplit hpre t' id hstep hst hno
    have heff := retrySystem_step_cases hstep
    rcases heff.emitted_cases hst hno with hst' | ⟨i, hev⟩
    · exact hst'
    · -- The step alone is a stretch of the run.
      have hfailed := (heff.wroteFailure (watched hpre) hev).2.2
      have hone : (retrySystem maxAttempts).exec t [l] = some t' := by
        rw [Lts.exec_cons, hstep, Option.bind_some, Lts.exec_nil]
      have hreset := hnever pre [l] post t t' id (by rw [hsplit]; simp) hpre hone hst hfailed
      rw [Lts.trace_cons hstep, Lts.trace_nil, List.append_nil] at hreset
      exact absurd hreset hno
  · intro hkeeps before between after t t' id hsplit hbefore hbetween hst hfailed
    rw [hsplit] at hkeeps
    by_contra hno
    exact (emitted_of_keepsEmitted hkeeps.of_append hbefore hbetween hst hno).not_failed hfailed

/-! ## 7. Fresh failures -/

/-- **Fresh failures are enough**: an emitted receipt in a worker's hands is stale. -/
theorem keepsEmitted_of_fresh {store : StorageState} {ls : List RetryLabel}
    (hfresh : (retrySystem maxAttempts).EveryStep (Fresh maxAttempts) (.start store) ls) :
    (retrySystem maxAttempts).EveryStep (KeepsEmitted maxAttempts) (.start store) ls := by
  intro pre l post t hsplit hpre t' id hstep hst hno
  have heff := retrySystem_step_cases hstep
  have hw := watched hpre
  rcases heff.emitted_cases hst hno with hst' | ⟨i, hev⟩
  · exact hst'
  · have hheld := (heff.wroteFailure hw hev).2.1
    exact absurd (hw.stale hheld hst) (hfresh pre l post t hsplit hpre i id hev)

/-- A receipt was recorded as emitted, and not reset since then. -/
def MarkedEmitted (h : List RetryEvent) (id : ReceiptId) : Prop :=
  Since (· = .wroteEmitted id) (· = .reset id) h

/-- **While emitted receipts stay emitted**, what was recorded as emitted is. -/
theorem emitted_of_marked {store : StorageState} {ls : List RetryLabel}
    (hkeeps : (retrySystem maxAttempts).EveryStep (KeepsEmitted maxAttempts) (.start store) ls)
    (h : (retrySystem maxAttempts).exec (.start store) ls = some s) {id : ReceiptId}
    (hmarked : MarkedEmitted ((retrySystem maxAttempts).trace (.start store) ls) id) :
    s.store.db.InState id .emitted := by
  let I : List RetryEvent → RetrySys → Prop := fun h s =>
    Watched h s ∧ (MarkedEmitted h id → s.store.db.InState id .emitted)
  have hI : I ((retrySystem maxAttempts).trace (.start store) ls) s := by
    refine Lts.exec_induction_of_everyStep
      ⟨watched_start store, fun hnil => absurd hnil not_since_nil⟩ ?_ hkeeps h
    rintro h s l s' ⟨hw, hin⟩ hkeep hstep
    have heff := retrySystem_step_cases hstep
    refine ⟨heff.watched hw, fun hsince => ?_⟩
    rcases since_append_cases hsince with ⟨ev, hev, rfl⟩ | ⟨hold, hno⟩
    · exact heff.wroteEmitted hw hev
    · exact hkeep s' id hstep (hin hold) fun hreset => hno _ hreset rfl
  exact hI.2 hmarked

/-- **Fresh failures are needed**: a failure recorded for a stale receipt fails an emitted one. -/
theorem fresh_of_keepsEmitted {store : StorageState} {ls : List RetryLabel}
    (h : (retrySystem maxAttempts).exec (.start store) ls = some s)
    (hkeeps : (retrySystem maxAttempts).EveryStep (KeepsEmitted maxAttempts) (.start store) ls) :
    (retrySystem maxAttempts).EveryStep (Fresh maxAttempts) (.start store) ls := by
  intro pre l post t hsplit hpre i id hev hstale
  have hmarked : MarkedEmitted _ id := Since.mono hstale fun ev heq => Or.inl heq
  have hst := emitted_of_marked (hsplit ▸ hkeeps).of_append hpre hmarked
  -- The run goes on from `t` with `l`.
  rw [hsplit, Lts.exec_append, hpre, Option.bind_some] at h
  obtain ⟨t', hstep, -⟩ := Lts.exec_cons_eq_some.mp h
  obtain ⟨hobs, -, hfailed⟩ := (retrySystem_step_cases hstep).wroteFailure (watched hpre) hev
  exact (hkeeps pre l post t hsplit hpre t' id hstep hst (by rw [hobs]; simp)).not_failed hfailed

theorem neverRegresses_of_fresh {store : StorageState} {ls : List RetryLabel}
    (hfresh : (retrySystem maxAttempts).EveryStep (Fresh maxAttempts) (.start store) ls) :
    NeverRegresses maxAttempts (.start store) ls :=
  neverRegresses_iff_keepsEmitted.mpr (keepsEmitted_of_fresh hfresh)

/-! ## 8. One worker -/

/-- Only one worker makes steps. -/
def Alone (i : RetryWorkerId) (ls : List RetryLabel) : Prop :=
  ∀ j step, .worker j step ∈ ls → j = i

/-- The receipts that a worker holds are distinct, and none of them is stale; no other worker holds
any. -/
structure Current (i : RetryWorkerId) (h : List RetryEvent) (s : RetrySys) : Prop where
  others : ∀ j, j ≠ i → (s.workers j).held = []
  nodup : (s.workers i).held.Nodup
  fresh : ∀ id ∈ (s.workers i).held, ¬ Stale h i id

/-- **One worker's step.**  What it has recorded as emitted it no longer holds. -/
theorem Current.worker {i : RetryWorkerId} {h : List RetryEvent} {o : RetryOutcome}
    (hc : Current i h s) (heff : RetryStep.Effect (maxAttempts i) i s.store (s.workers i) o) :
    Current i (h ++ o.events) (s.afterRetry i o) := by
  constructor
  · intro j hj
    rw [s.afterRetry_of_ne hj]
    exact hc.others j hj
  · rw [s.afterRetry_self]
    cases heff with
    | quiet next events hheld hevents => exact hc.nodup.sublist hheld.sublist
    | queried next hnodup hfailed => exact hnodup
    | wrote id result next store' hheld hop =>
      have hnodup := hc.nodup
      rw [hheld] at hnodup
      exact (List.nodup_cons.mp hnodup).2
  · rw [s.afterRetry_self]
    intro id hid hstale
    cases heff with
    | quiet next events hheld hevents =>
      refine hc.fresh id (hheld.subset hid) ((since_append_iff fun ev hev => ?_).mp hstale)
      obtain ⟨event, rfl⟩ := hevents ev hev
      simp
    | queried next hnodup hfailed =>
      rcases since_snoc.mp hstale with heq | ⟨-, hend⟩
      · exact absurd heq (by simp)
      · exact hend (Or.inr rfl)
    | wrote id₀ result next store' hheld hop =>
      have hnodup := hc.nodup
      rw [hheld] at hnodup
      rcases since_snoc.mp hstale with heq | ⟨hold, -⟩
      · cases result with
        | ok _ =>
          obtain rfl := RetryEvent.wroteEmitted.inj heq
          exact (List.nodup_cons.mp hnodup).1 hid
        | error e => exact absurd heq (by simp [retryEvent])
      · exact hc.fresh id (by rw [hheld]; exact List.mem_cons_of_mem _ hid) hold

theorem current {i : RetryWorkerId} {store : StorageState} {ls : List RetryLabel}
    (halone : Alone i ls) (h : (retrySystem maxAttempts).exec (.start store) ls = some s) :
    Current i ((retrySystem maxAttempts).trace (.start store) ls) s := by
  have hsteps : (retrySystem maxAttempts).EveryStep
      (fun _ _ l => ∀ j step, l = .worker j step → j = i) (.start store) ls := by
    rintro pre l post t rfl - j step rfl
    exact halone j step (by simp)
  refine Lts.exec_induction_of_everyStep
    ⟨fun _ _ => rfl, List.nodup_nil, fun id hid => absurd hid List.not_mem_nil⟩ ?_ hsteps h
  intro h s l s' hc hl hstep
  by_cases hworker : ∃ j step, l = .worker j step
  · obtain ⟨j, step, rfl⟩ := hworker
    obtain rfl := hl j step rfl
    obtain ⟨o, heff, rfl, hobs⟩ := retrySystem_worker hstep
    rw [hobs]
    exact hc.worker heff
  · obtain ⟨hworkers, hobs⟩ := retrySystem_other hstep fun j step heq => hworker ⟨j, step, heq⟩
    refine ⟨by rw [hworkers]; exact hc.others, by rw [hworkers]; exact hc.nodup,
      fun id hid hstale => ?_⟩
    rw [hworkers] at hid
    rcases since_append_cases hstale with ⟨ev, hev, rfl⟩ | ⟨hold, -⟩
    · obtain ⟨id', heq⟩ := hobs _ hev
      exact absurd heq (by simp)
    · exact hc.fresh id hid hold

/-- **One worker is safe**: it records failures of fresh receipts only. -/
theorem fresh_of_alone {i : RetryWorkerId} {store : StorageState} {ls : List RetryLabel}
    (halone : Alone i ls) (h : (retrySystem maxAttempts).exec (.start store) ls = some s) :
    (retrySystem maxAttempts).EveryStep (Fresh maxAttempts) (.start store) ls := by
  intro pre l post t hsplit hpre j id hev hstale
  have hpart : Alone i pre := fun k step hmem =>
    halone k step (by rw [hsplit]; exact List.mem_append_left _ hmem)
  have hc := current hpart hpre
  rw [hsplit, Lts.exec_append, hpre, Option.bind_some] at h
  obtain ⟨t', hstep, -⟩ := Lts.exec_cons_eq_some.mp h
  obtain ⟨-, hheld, -⟩ := (retrySystem_step_cases hstep).wroteFailure (watched hpre) hev
  obtain rfl : j = i := by
    by_contra hj
    rw [hc.others j hj] at hheld
    exact List.not_mem_nil hheld
  exact hc.fresh id hheld hstale

theorem neverRegresses_alone {i : RetryWorkerId} {store : StorageState} {ls : List RetryLabel}
    (halone : Alone i ls) (h : (retrySystem maxAttempts).exec (.start store) ls = some s) :
    NeverRegresses maxAttempts (.start store) ls :=
  neverRegresses_of_fresh (fresh_of_alone halone h)

end

/-- **When no receipt regresses**: exactly in the runs in which no worker records a failure for a
receipt that was recorded as emitted since the worker's query, and not reset after that. -/
theorem retry_no_regress_iff {maxAttempts : RetryWorkerId → Int32} {store : StorageState}
    {ls : List RetryLabel} {s : RetrySys}
    (h : (retrySystem maxAttempts).exec (.start store) ls = some s) :
    NeverRegresses maxAttempts (.start store) ls ↔
      (retrySystem maxAttempts).EveryStep (Fresh maxAttempts) (.start store) ls := by
  rw [neverRegresses_iff_keepsEmitted]
  constructor
  · exact fresh_of_keepsEmitted h
  · exact keepsEmitted_of_fresh

/-- One worker fails a receipt, asks again, and succeeds. -/
def retryTwice : List RetryLabel :=
  [.worker 0 (.query [sampleReceipt.receiptId]), .worker 0 .next,
    .worker 0 (.emitReturned (.error (.timeout "slow"))), .worker 0 (.record .ok),
    .worker 0 .finish, .worker 0 (.query [sampleReceipt.receiptId]), .worker 0 .next,
    .worker 0 (.emitReturned (.ok ())), .worker 0 (.record .ok)]

/-- Two workers read the same receipt and emit it.  The first one succeeds, the second one does not,
and says so last. -/
def retryRace : List RetryLabel :=
  [.worker 0 (.query [sampleReceipt.receiptId]), .worker 1 (.query [sampleReceipt.receiptId]),
    .worker 0 .next, .worker 1 .next,
    .worker 0 (.emitReturned (.ok ())), .worker 1 (.emitReturned (.error (.timeout "slow"))),
    .worker 0 (.record .ok), .worker 1 (.record .ok)]

/-- One failed receipt, and workers that give up at the fifth failure. -/
def retryStart : RetrySys := .start ⟨storing (0, .emitFailed), []⟩

/-- The state of the receipt after a run. -/
def stateAfter (ls : List RetryLabel) : Option (Option String) :=
  ((retrySystem fun _ => 5).exec retryStart ls).map fun s =>
    (s.store.db.receipts.get? sampleReceipt.receiptId).map (·.processingState)

theorem exec_of_stateAfter {ls : List RetryLabel} {st : ProcessingState}
    (h : stateAfter ls = some (some st.text)) :
    ∃ s, (retrySystem fun _ => 5).exec retryStart ls = some s ∧
      s.store.db.InState sampleReceipt.receiptId st :=
  Option.map_eq_some_iff.mp h

theorem retry_no_regress_iff_alone :
    ∃ s, (retrySystem fun _ => 5).exec retryStart retryTwice = some s ∧
      s.store.db.InState sampleReceipt.receiptId .emitted ∧
      NeverRegresses (fun _ => 5) retryStart retryTwice := by
  have hstate : stateAfter retryTwice = some (some ProcessingState.emitted.text) := by
    decide +kernel
  obtain ⟨s, hrun, hst⟩ := exec_of_stateAfter hstate
  have halone : Alone 0 retryTwice := by
    intro j step hmem
    simp only [retryTwice, List.mem_cons, RetryLabel.worker.injEq, List.not_mem_nil,
      or_false] at hmem
    rcases hmem with h | h | h | h | h | h | h | h | h <;> exact h.1
  exact ⟨s, hrun, hst, (retry_no_regress_iff hrun).mpr (fresh_of_alone halone hrun)⟩

/-- **The slower of two workers fails an emitted receipt.** -/
theorem retry_regresses :
    ∃ t s, (retrySystem fun _ => 5).exec retryStart (retryRace.take 7) = some t ∧
      t.store.db.InState sampleReceipt.receiptId .emitted ∧
      (retrySystem fun _ => 5).exec retryStart retryRace = some s ∧
      s.store.db.InState sampleReceipt.receiptId .emitFailed ∧
      ¬ NeverRegresses (fun _ => 5) retryStart retryRace := by
  have hstate : stateAfter (retryRace.take 7) = some (some ProcessingState.emitted.text) := by
    decide +kernel
  have hstate' : stateAfter retryRace = some (some ProcessingState.emitFailed.text) := by
    decide +kernel
  obtain ⟨t, hrun, hst⟩ := exec_of_stateAfter hstate
  obtain ⟨s, hrun', hst'⟩ := exec_of_stateAfter hstate'
  refine ⟨t, s, hrun, hst, hrun', hst', fun hnever => ?_⟩
  have hlast : (retrySystem fun _ => 5).exec t [.worker 1 (.record .ok)] = some s := by
    have hsplit : retryRace = retryRace.take 7 ++ [.worker 1 (.record .ok)] := rfl
    rwa [hsplit, Lts.exec_append, hrun, Option.bind_some] at hrun'
  have hreset := hnever (retryRace.take 7) [.worker 1 (.record .ok)] [] t s sampleReceipt.receiptId
    rfl hrun hlast hst (Or.inl hst')
  exact absurd (reset_mem_of_trace hlast hreset) (by simp)

end Hookbox
