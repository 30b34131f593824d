/-
# A claim that fails

`claim_pending` commits its `UPDATE` first.  Then it decodes the rows and loads their receipts one
by one, and the first `?` that fails drops all of them: the worker sees an error and dispatches
nothing, while every row of the batch is in flight until its lease runs out.

* `ClaimFaults`, `Database.claimPendingWith`: the call, with any of its accesses failing.
* `claim_call_is_run`: it is a run of the worker's steps, which ends where `spawn` goes on.
* `claim_leaves_no_trace_iff`: when a failing call leaves the table as it was.
-/
import Hookbox.Claiming
import Hookbox.System

namespace Hookbox

/-! ## 1. The call -/

/-- Which accesses of one `claim_pending` fail, and with what. -/
structure ClaimFaults where
  /-- The `UPDATE`, and the error its caller sees unless it is `ok`. -/
  update : CallOutcome := .ok
  updateError : StorageError := .internal ""
  /-- `pg_row_to_delivery_row` or `delivery_from_row`, for the `k`th row returned. -/
  decode : Nat → Option StorageError := fun _ => none
  /-- The query of `Storage::get`, for the receipt of the `k`th row returned. -/
  get : Nat → Option StorageError := fun _ => none

/-- The loop `for row in &rows`, from the `k`th row on. -/
def Database.loadFrom (db : Database) (faults : ClaimFaults) :
    Nat → List WebhookDelivery → Except StorageError (List (WebhookDelivery × WebhookReceipt))
  | _, [] => .ok []
  | k, d :: rows =>
    match faults.decode k, faults.get k with
    | some err, _ => .error err
    | none, some err => .error err
    | none, none => do
      let pair ← db.loadClaimed d
      let pairs ← db.loadFrom faults (k + 1) rows
      return pair :: pairs

/-- `DeliveryStorage::claim_pending` under faults.  `picked` are the rows its `SELECT` chooses. -/
def Database.claimPendingWith (db : Database) (faults : ClaimFaults) (batchSize : Int)
    (picked : List DeliveryId) (now : Timestamp) :
    Database × Except StorageError (List (WebhookDelivery × WebhookReceipt)) :=
  if batchSize < 0 then (db, .error (.internal "LIMIT must not be negative"))
  else
    let db' := db.updateDeliveries (.claim picked now)
    match faults.update with
    | .failed => (db, .error faults.updateError)
    | .lost => (db', .error faults.updateError)
    | .ok => (db', db'.loadFrom faults 0 (db.claimedRows picked now))

/-- Without faults this is `claimPending`. -/
theorem claimPendingWith_ok (db : Database) (n : Nat) (picked : List DeliveryId)
    (now : Timestamp) : db.claimPendingWith {} n picked now = db.claimPending picked now := by
  have hloop : ∀ (db : Database) (rows : List WebhookDelivery) (k : Nat),
      db.loadFrom {} k rows = rows.mapM db.loadClaimed := by
    intro db rows
    induction rows with
    | nil => intro k; rfl
    | cons d rows ih =>
      intro k
      rw [List.mapM_cons, ← ih (k + 1)]
      rfl
  rw [Database.claimPendingWith, if_neg (by omega), Database.claimPending]
  simp only [hloop]

/-! ## 2. The worker that makes the call -/

/-- Where the loop of `spawn` goes on after `claim_pending`. -/
def afterClaim : Except StorageError (List (WebhookDelivery × WebhookReceipt)) → WorkerPhase
  | .ok pairs => afterLoad [] pairs
  | .error _ => .polling

/-- `self.concurrency as i64`. -/
def WorkerConfig.batchSize (cfg : WorkerConfig) : Int := (BitVec.ofNat 64 cfg.concurrency).toInt

theorem WorkerConfig.batchSize_neg_iff {cfg : WorkerConfig} (h : cfg.concurrency < 2 ^ 64) :
    cfg.batchSize < 0 ↔ ¬ cfg.LimitOk := by
  rw [batchSize, LimitOk, BitVec.toInt_eq_toNat_cond, BitVec.toNat_ofNat, Nat.mod_eq_of_lt h]
  split <;> omega

/-- Worker `i` gets from `s` to `s'` by steps of its own. -/
def Sys.WorkerRuns (dep : Deployment) (i : WorkerId) (s s' : Sys) : Prop :=
  ∃ steps : List WorkerStep, (system dep).exec s (steps.map (.worker i)) = some s'

section

variable {dep : Deployment} {i : WorkerId} {s s' : Sys}

theorem Sys.WorkerRuns.cons {step : WorkerStep} {o : WorkerOutcome}
    (hstep : s.workerRun dep i step = some o) (h : (s.afterWorker i o).WorkerRuns dep i s') :
    s.WorkerRuns dep i s' := by
  obtain ⟨steps, hexec⟩ := h
  refine ⟨step :: steps, ?_⟩
  rw [List.map_cons, Lts.exec_cons]
  simp only [system, Label.step, hstep, Option.map_some, Option.bind_some]
  exact hexec

/-- One step. -/
theorem Sys.WorkerRuns.one {step : WorkerStep} {o : WorkerOutcome}
    (hstep : s.workerRun dep i step = some o) : s.WorkerRuns dep i (s.afterWorker i o) :=
  .cons hstep ⟨[], rfl⟩

/-- The loop over the rows is a run of the worker. -/
theorem loadFrom_is_run (faults : ClaimFaults) (todo : List WebhookDelivery) :
    ∀ (s : Sys) (k : Nat) (done : List (WebhookDelivery × WebhookReceipt)),
      (s.workers i).phase = afterLoad todo done →
      ∃ s', s.WorkerRuns dep i s' ∧ s'.db = s.db ∧
        (s'.workers i).phase = afterClaim ((done ++ ·) <$> s.db.loadFrom faults k todo) := by
  induction todo with
  | nil =>
    intro s k done hphase
    refine ⟨s, ⟨[], rfl⟩, rfl, ?_⟩
    rw [hphase, Database.loadFrom]
    simp [Functor.map, Except.map, afterClaim]
  | cons d todo ih =>
    intro s k done hphase
    rw [afterLoad, if_neg (by simp)] at hphase
    -- A failing access of this row is the last step.
    have hfail : ∀ err, s.db.loadFrom faults k (d :: todo) = .error err →
        ∃ s', s.WorkerRuns dep i s' ∧ s'.db = s.db ∧ (s'.workers i).phase
          = afterClaim ((done ++ ·) <$> s.db.loadFrom faults k (d :: todo)) := by
      intro err herr
      have hstep : s.workerRun dep i .loadFailed
          = some ⟨.nop, { s.workers i with phase := .polling }, []⟩ := by
        simp only [Sys.workerRun, WorkerStep.run, hphase]
      refine ⟨_, .one hstep, updateDeliveries_nop s.db, ?_⟩
      rw [Sys.afterWorker_self, herr]
      rfl
    cases hdec : faults.decode k with
    | some err => exact hfail err (by rw [Database.loadFrom, hdec])
    | none =>
      cases hget : faults.get k with
      | some err => exact hfail err (by rw [Database.loadFrom, hdec, hget])
      | none =>
        cases hload : s.db.loadClaimed d with
        | error err =>
          exact hfail err (by simp [Database.loadFrom, hdec, hget, hload, bind, Except.bind])
        | ok pair =>
          obtain ⟨o, ho⟩ : ∃ o : WorkerOutcome,
              o = ⟨.nop, { s.workers i with phase := afterLoad todo (done ++ [pair]) }, []⟩ :=
            ⟨_, rfl⟩
          have hstep : s.workerRun dep i .loadReceipt = some o := by
            simp only [Sys.workerRun, WorkerStep.run, hphase, hload, ho]
          have hsame : (s.afterWorker i o).db = s.db := by
            rw [ho]
            exact updateDeliveries_nop s.db
          obtain ⟨s', hruns, hdb, hphase'⟩ := ih (s.afterWorker i o) (k + 1) (done ++ [pair])
            (by rw [Sys.afterWorker_self, ho])
          refine ⟨s', .cons hstep hruns, hdb.trans hsame, ?_⟩
          rw [hphase', hsame, Database.loadFrom, hdec, hget]
          simp only [hload]
          cases s.db.loadFrom faults (k + 1) todo with
          | error err => rfl
          | ok pairs => simp [bind, Except.bind, pure, Except.pure, Functor.map, Except.map]

/-- **The call is a run of the worker**, whatever fails in it, and the worker goes on with what it
returns: with an error it dispatches nothing. -/
theorem claim_call_is_run (hphase : (s.workers i).phase = .claiming)
    (hsize : (dep.workers i).concurrency < 2 ^ 64) (faults : ClaimFaults) {now : Timestamp}
    {locked picked : List DeliveryId}
    (hselect : 0 ≤ (dep.workers i).batchSize →
      s.db.ClaimSelect (dep.workers i).name (dep.workers i).concurrency now locked picked) :
    ∃ s', s.WorkerRuns dep i s' ∧
      s'.db = (s.db.claimPendingWith faults (dep.workers i).batchSize picked now).1 ∧
      (s'.workers i).phase
        = afterClaim (s.db.claimPendingWith faults (dep.workers i).batchSize picked now).2 := by
  have hfailed : ∃ s', s.WorkerRuns dep i s' ∧ s'.db = s.db ∧ (s'.workers i).phase = .polling := by
    have hstep : s.workerRun dep i .claimFailed
        = some ⟨.nop, { s.workers i with phase := .polling }, []⟩ := by
      simp only [Sys.workerRun, WorkerStep.run, hphase]
    exact ⟨_, .one hstep, updateDeliveries_nop s.db,
      congrArg WorkerState.phase (Sys.afterWorker_self s i _)⟩
  unfold Database.claimPendingWith
  split
  · exact hfailed
  · rename_i hneg
    have hlimit : (dep.workers i).LimitOk := by
      by_contra hbad
      exact hneg ((WorkerConfig.batchSize_neg_iff hsize).mpr hbad)
    have hguard := And.intro hlimit (hselect (Int.not_lt.mp hneg))
    cases faults.update with
    | failed => exact hfailed
    | lost =>
      have hstep : s.workerRun dep i (.claimLost now locked picked) = some
          ⟨.claim picked now,
            { s.workers i with phase := .polling, claims := (s.workers i).claims + 1 },
            picked.map (.claimed ⟨i, (s.workers i).claims + 1⟩)⟩ := by
        simp only [Sys.workerRun, WorkerStep.run, hphase, if_pos hguard]
      exact ⟨_, .one hstep, rfl, congrArg WorkerState.phase (Sys.afterWorker_self s i _)⟩
    | ok =>
      obtain ⟨o, ho⟩ : ∃ o : WorkerOutcome, o = ⟨.claim picked now,
          { s.workers i with
            phase := afterLoad (s.db.claimedRows picked now) [],
            claims := (s.workers i).claims + 1 },
          picked.map (.claimed ⟨i, (s.workers i).claims + 1⟩)⟩ := ⟨_, rfl⟩
      have hstep : s.workerRun dep i (.claimPending now locked picked) = some o := by
        simp only [Sys.workerRun, WorkerStep.run, hphase, if_pos hguard, ho]
      have hclaimed : (s.afterWorker i o).db = s.db.updateDeliveries (.claim picked now) := by
        rw [ho]
        rfl
      obtain ⟨s', hruns, hdb, hphase'⟩ := @loadFrom_is_run dep i faults
        (s.db.claimedRows picked now) (s.afterWorker i o) 0 []
        (by rw [Sys.afterWorker_self, ho])
      rw [hclaimed] at hdb hphase'
      refine ⟨s', .cons hstep hruns, hdb, ?_⟩
      rw [hphase']
      simp only [List.nil_append]
      congr 1
      exact LawfulFunctor.id_map _

end

/-! ## 3. What a failing call leaves -/

/-- **A failing claim leaves no trace.** -/
def Database.LeavesNoTrace (db : Database) (faults : ClaimFaults) (batchSize : Int)
    (picked : List DeliveryId) (now : Timestamp) : Prop :=
  ∀ err, (db.claimPendingWith faults batchSize picked now).2 = .error err →
    (db.claimPendingWith faults batchSize picked now).1.deliveries = db.deliveries

/-- Every access for the `k`th row, with this id, goes through. -/
structure ClaimFaults.Spares (faults : ClaimFaults) (db : Database) (k : Nat) (id : DeliveryId) :
    Prop where
  decode : faults.decode k = none
  get : faults.get k = none
  readable : ∀ d ∈ db.deliveries.rows, d.deliveryId = id →
    ∀ r ∈ db.receipts.rows, r.receiptId = d.receiptId → r.Readable

/-- The loop succeeds when every access in it does. -/
theorem loadFrom_succeeds_iff {db : Database} {faults : ClaimFaults}
    {rows : List WebhookDelivery} : ∀ {k : Nat},
    (∃ pairs, db.loadFrom faults k rows = .ok pairs) ↔
      ∀ j d, rows[j]? = some d → faults.decode (k + j) = none ∧ faults.get (k + j) = none ∧
        ∃ p, db.loadClaimed d = .ok p := by
  induction rows with
  | nil =>
    intro k
    simp [Database.loadFrom]
  | cons d rows ih =>
    intro k
    have hsplit : (∀ j d', (d :: rows)[j]? = some d' → faults.decode (k + j) = none ∧
        faults.get (k + j) = none ∧ ∃ p, db.loadClaimed d' = .ok p) ↔
        (faults.decode k = none ∧ faults.get k = none ∧ ∃ p, db.loadClaimed d = .ok p) ∧
          ∃ pairs, db.loadFrom faults (k + 1) rows = .ok pairs := by
      rw [ih]
      constructor
      · intro h
        refine ⟨h 0 d rfl, fun j d' hd' => ?_⟩
        have hj := h (j + 1) d' hd'
        rwa [← Nat.add_assoc, Nat.add_right_comm] at hj
      · rintro ⟨h₀, h⟩ j d' hd'
        cases j with
        | zero =>
          rw [List.getElem?_cons_zero, Option.some.injEq] at hd'
          subst hd'
          exact h₀
        | succ j =>
          have hj := h j d' hd'
          rwa [Nat.add_right_comm, Nat.add_assoc] at hj
    rw [hsplit, Database.loadFrom]
    cases hdec : faults.decode k with
    | some err => simp
    | none =>
      cases hget : faults.get k with
      | some err => simp
      | none =>
        simp only [true_and]
        rw [Except.bind_succeeds_iff]
        constructor
        · rintro ⟨p, hp, hrest⟩
          obtain ⟨pairs, hpairs, -⟩ := Except.bind_succeeds_iff.mp hrest
          exact ⟨⟨p, hp⟩, pairs, hpairs⟩
        · rintro ⟨⟨p, hp⟩, pairs, hpairs⟩
          exact ⟨p, hp, Except.bind_succeeds_iff.mpr ⟨pairs, hpairs, _, rfl⟩⟩

/-- A receipt that is there is the only one, so reading it only depends on its text columns. -/
theorem readableAt_iff {db : Database} {id : ReceiptId} (hid : id ∈ db.receipts.keys) :
    db.ReadableAt id ↔ ∀ r ∈ db.receipts.rows, r.receiptId = id → r.Readable := by
  constructor
  · rintro ⟨row, hrow, rfl, hread⟩ r hr hrid
    rwa [Table.eq_of_key_eq hr hrow hrid]
  · intro h
    obtain ⟨row, hrow⟩ := Table.exists_get? hid
    have hmem := Table.mem_of_get? hrow
    have hkey := Table.key_of_get? hrow
    exact ⟨row, hmem, hkey, h row hmem hkey⟩

section

variable {db : Database} {e : String} {n : Nat} {now : Timestamp} {locked picked : List DeliveryId}

/-- The rows that the `UPDATE` returns, by their place. -/
theorem getElem?_claimedRows (h : db.ClaimSelect e n now locked picked) {k : Nat}
    {d : WebhookDelivery} :
    (db.claimedRows picked now)[k]? = some d ↔ ∃ d₀ ∈ db.deliveries.rows,
      picked[k]? = some d₀.deliveryId ∧ d = d₀.claimedAt now := by
  have hids : (db.claimedRows picked now).map (·.deliveryId) = picked := by
    refine Database.claimedRows_ids fun id hid => ?_
    obtain ⟨d, hd, rfl, -⟩ := h.mem_keys hid
    exact Table.key_mem_keys hd
  have hplace : picked[k]? = (db.claimedRows picked now)[k]?.map (·.deliveryId) := by
    rw [← List.getElem?_map, hids]
  constructor
  · intro hd
    obtain ⟨d₀, hd₀, -, rfl⟩ := Database.mem_claimedRows.mp (List.mem_of_getElem? hd)
    exact ⟨d₀, hd₀, by rw [hplace, hd]; rfl, rfl⟩
  · rintro ⟨d₀, hd₀, hk, rfl⟩
    rw [hplace, Option.map_eq_some_iff] at hk
    obtain ⟨d', hd', hid⟩ := hk
    obtain ⟨d₁, hd₁, -, rfl⟩ := Database.mem_claimedRows.mp (List.mem_of_getElem? hd')
    obtain rfl := Table.eq_of_key_eq hd₁ hd₀ hid
    exact hd'

/-- The loop after the `UPDATE` succeeds when every picked row is spared. -/
theorem load_claimed_succeeds_iff (h : db.ClaimSelect e n now locked picked)
    (faults : ClaimFaults) :
    (∃ pairs, (db.updateDeliveries (.claim picked now)).loadFrom faults 0
        (db.claimedRows picked now) = .ok pairs) ↔
      ∀ k id, picked[k]? = some id → faults.Spares db k id := by
  rw [loadFrom_succeeds_iff]
  simp only [Nat.zero_add, getElem?_claimedRows h]
  have hload : ∀ d ∈ db.deliveries.rows,
      (∃ p, (db.updateDeliveries (.claim picked now)).loadClaimed (d.claimedAt now) = .ok p) ↔
        ∀ r ∈ db.receipts.rows, r.receiptId = d.receiptId → r.Readable :=
    fun d hd => Database.loadClaimed_succeeds_iff.trans (readableAt_iff (db.receiptFk d hd))
  constructor
  · intro hall k id hk
    obtain ⟨d, hd, rfl, -⟩ := h.mem_keys (List.mem_of_getElem? hk)
    obtain ⟨hdec, hget, hp⟩ := hall k _ ⟨d, hd, hk, rfl⟩
    refine ⟨hdec, hget, fun d' hd' hid => ?_⟩
    obtain rfl := Table.eq_of_key_eq hd' hd hid
    exact (hload d' hd').mp hp
  · rintro hall k _ ⟨d, hd, hk, rfl⟩
    have hspares := hall k _ hk
    exact ⟨hspares.decode, hspares.get, (hload d hd).mpr (hspares.readable d hd rfl)⟩

/-- A claim that picks a row changes the table. -/
theorem claim_changes (h : db.ClaimSelect e n now locked picked) :
    (db.updateDeliveries (.claim picked now)).deliveries = db.deliveries ↔ picked = [] := by
  constructor
  · intro hsame
    by_contra hne
    obtain ⟨id, hid⟩ := List.exists_mem_of_ne_nil picked hne
    obtain ⟨d, hd, rfl, hel⟩ := h.mem_keys hid
    have hrow : d.claimedAt now ∈ db.deliveries.rows := by
      rw [← hsame, Database.updateDeliveries_rows]
      refine List.mem_map.mpr ⟨d, hd, ?_⟩
      rw [Database.claim_run, if_pos hid]
      rfl
    have hstate := congrArg (·.state) (Table.eq_of_key_eq hrow hd rfl)
    rcases hel.2.1 with hst | hst <;> rw [hst] at hstate <;> cases hstate
  · rintro rfl
    refine congrArg Database.deliveries (Database.updateDeliveries_eq_self fun d _ => ?_)
    rw [Database.claim_run, if_neg List.not_mem_nil]

/-- Nothing is picked when there is no room, or no row to pick. -/
theorem picked_eq_nil_iff (h : db.ClaimSelect e n now locked picked) :
    picked = [] ↔ n = 0 ∨ db.candidates e now locked = [] := by
  rw [← List.length_eq_zero_iff, h.2.2.1, ← List.length_eq_zero_iff]
  omega

end

/-- **When a failing claim leaves no trace.**  For every database, emitter, batch size and way the
accesses can fail: a failed call has left the deliveries as they were exactly when there was nothing
to claim, or the `UPDATE` itself failed without being committed, or no access after it fails, so that
the call does not fail. -/
theorem claim_leaves_no_trace_iff {db : Database} {e : String} {batchSize : Int} {now : Timestamp}
    {locked picked : List DeliveryId} (faults : ClaimFaults)
    (hselect : 0 ≤ batchSize → db.ClaimSelect e batchSize.toNat now locked picked) :
    db.LeavesNoTrace faults batchSize picked now ↔
      batchSize ≤ 0 ∨ db.candidates e now locked = [] ∨ faults.update = .failed ∨
        (faults.update = .ok ∧ ∀ k id, picked[k]? = some id → faults.Spares db k id) := by
  unfold Database.LeavesNoTrace Database.claimPendingWith
  split
  · rename_i hneg
    simp [Int.le_of_lt hneg]
  · rename_i hneg
    have h := hselect (Int.not_lt.mp hneg)
    have hnil : picked = [] ↔ batchSize ≤ 0 ∨ db.candidates e now locked = [] := by
      rw [picked_eq_nil_iff h]
      have : batchSize.toNat = 0 ↔ batchSize ≤ 0 := by omega
      rw [this]
    have hgoal : ∀ p : Prop, (batchSize ≤ 0 ∨ db.candidates e now locked = [] ∨ p) ↔
        (picked = [] ∨ p) := by
      intro p
      rw [← or_assoc, hnil]
    rw [hgoal, ← load_claimed_succeeds_iff h faults]
    cases faults.update with
    | failed => simp
    | lost =>
      simp only [Except.error.injEq, forall_eq', claim_changes h]
      simp
    | ok =>
      simp only [claim_changes h, reduceCtorEq, true_and, false_or]
      cases (db.updateDeliveries (.claim picked now)).loadFrom faults 0
        (db.claimedRows picked now) with
      | error err => simp
      | ok pairs => simp

/-- Two deliveries of one receipt wait for one emitter. -/
def twoPending : Database where
  receipts := ⟨[sampleReceipt.toRow], List.nodup_singleton _⟩
  deliveries := ⟨[Database.newDelivery ⟨0⟩ ⟨1⟩ "kafka" 0, Database.newDelivery ⟨1⟩ ⟨1⟩ "kafka" 0],
    by decide⟩
  dedupeIndex := List.nodup_singleton _
  receiptFk := by decide

/-- The connection is lost while the receipt of the second row is loaded. -/
def secondLost : ClaimFaults where
  get k := if k = 1 then some (.internal "connection closed") else none

theorem claim_leaves_no_trace_second_lost :
    ¬ twoPending.LeavesNoTrace secondLost 2 [⟨0⟩, ⟨1⟩] 0 := by
  have hselect : (0 : Int) ≤ 2 → twoPending.ClaimSelect "kafka" 2 0 [] [⟨0⟩, ⟨1⟩] := fun _ => by decide
  rw [claim_leaves_no_trace_iff secondLost hselect]
  rintro (h | h | h | ⟨-, h⟩)
  · exact absurd h (by decide)
  · exact absurd h (by decide)
  · cases h
  · exact absurd (h 1 ⟨1⟩ rfl).get (by decide)

/-- The call fails at the second row, and both rows are in flight. -/
theorem claim_failure_leaves_trace :
    ¬ ∀ (db : Database) (e : String) (batchSize : Int) (now : Timestamp)
        (locked picked : List DeliveryId) (faults : ClaimFaults),
        (0 ≤ batchSize → db.ClaimSelect e batchSize.toNat now locked picked) →
        db.LeavesNoTrace faults batchSize picked now := by
  intro h
  have hsame := h twoPending "kafka" 2 0 [] [⟨0⟩, ⟨1⟩] secondLost (fun _ => by decide) _ rfl
  exact absurd (congrArg (·.rows.map (·.state)) hsame) (by decide)

end Hookbox
