/-
# No row is passed over for ever

`claim_pending` takes rows in the order of `next_attempt_at`, and whatever puts a row back (a failed
dispatch, a reclaim) or adds one (a fan-out, a replay) gives it a `next_attempt_at` of the present or of
the future.  So the rows that can be claimed before a row that is due only grow fewer.

* `Database.ahead`: how many there are.
* `WorkerStep.Statement`: which statement a step runs, and at what time.
* `no_starvation`: with the slots of every claim that passes the row over, they are used up.
-/
import Hookbox.Claiming
import Hookbox.Lib.Ledger
import Hookbox.Rounds

namespace Hookbox

/-! ## 1. The rows ahead -/

/-- A row that can be claimed in place of row `id`, which has been due since `t`. -/
def Ahead (e : String) (t : Timestamp) (id : DeliveryId) (d : WebhookDelivery) : Prop :=
  d.emitterName = e ∧ (d.state = .pending ∨ d.state = .failed) ∧ d.immutable = false ∧
    d.nextAttemptAt ≤ t ∧ d.deliveryId ≠ id

instance (e : String) (t : Timestamp) (id : DeliveryId) : DecidablePred (Ahead e t id) := fun d => by
  unfold Ahead; infer_instance

def Database.ahead (db : Database) (e : String) (t : Timestamp) (id : DeliveryId) : Nat :=
  db.deliveries.rows.countP fun d => Ahead e t id d

/-- The `next_attempt_at` of the rows that a step adds or puts back. -/
def Label.queuesAt : Label → Option Timestamp
  | .worker _ (.reclaimExpired now) => some now
  | .worker _ (.mark _ input _) => some (input.utcNow + input.nextDelta)
  | .ingest _ (.store _ now _ _ _) => some now
  | .admin a => a.queued.map fun q => q.2.2
  | _ => none

/-- A claim finds row `id`, due since `t`, among its candidates, and leaves it. -/
def Database.PassesOver (db : Database) (e : String) (t : Timestamp) (id : DeliveryId)
    (now : Timestamp) (locked picked : List DeliveryId) : Prop :=
  id ∉ picked ∧ ∃ d ∈ db.candidates e now locked, d.deliveryId = id ∧ d.nextAttemptAt ≤ t

instance (db : Database) (e : String) (t : Timestamp) (id : DeliveryId) (now : Timestamp)
    (locked picked : List DeliveryId) : Decidable (db.PassesOver e t id now locked picked) := by
  unfold Database.PassesOver; infer_instance

/-- What the `UPDATE` of a claim selects, whether its caller hears of it or not. -/
def WorkerStep.selection : WorkerStep → Option (Timestamp × List DeliveryId × List DeliveryId)
  | .claimPending now locked picked | .claimLost now locked picked => some (now, locked, picked)
  | _ => none

/-- The slots of the claims of emitter `e` that pass row `id` over. -/
def passedOver (dep : Deployment) (e : String) (t : Timestamp) (id : DeliveryId) (s : Sys) :
    Label → Nat
  | .worker i step =>
    match step.selection with
    | some (now, locked, picked) =>
      if (dep.workers i).name = e ∧ s.db.PassesOver e t id now locked picked then
        (dep.workers i).concurrency
      else 0
    | none => 0
  | _ => 0

/-- The system, observed by these slots. -/
def passing (dep : Deployment) (e : String) (t : Timestamp) (id : DeliveryId) : Lts Sys Label Nat where
  step := (system dep).step
  obs s l := [passedOver dep e t id s l]

/-! ## 2. Steps -/

/-- **The statement that a step runs**, if it runs one that changes deliveries. -/
inductive WorkerStep.Statement (cfg : WorkerConfig) (db : Database) : WorkerStep → DeliveryUpdate →
    Prop where
  | none (step : WorkerStep) (h : step.selection = none) : Statement cfg db step .nop
  | claim (step : WorkerStep) (now : Timestamp) (locked picked : List DeliveryId)
      (h : step.selection = some (now, locked, picked))
      (hselect : db.ClaimSelect cfg.name cfg.concurrency now locked picked) :
      Statement cfg db step (.claim picked now)
  | reclaim (now : Timestamp) :
      Statement cfg db (.reclaimExpired now) (.reclaimExpired cfg.name cfg.leaseDuration now)
  | mark (id : DeliveryId) (input : MarkInput) (outcome : CallOutcome) (d : WebhookDelivery)
      (result : Except EmitError Unit) :
      Statement cfg db (.mark id input outcome) (.mark id (dispatchMark cfg d result input))

theorem WorkerStep.run_statement {cfg : WorkerConfig} {i : WorkerId} {db : Database}
    {w : WorkerState} {o : WorkerOutcome} {step : WorkerStep} (h : step.run cfg i db w = some o) :
    Statement cfg db step o.update := by
  cases step with
  | reclaimExpired now =>
    obtain ⟨-, rfl⟩ := run_reclaimExpired h
    exact .reclaim now
  | claimPending now locked picked =>
    obtain ⟨-, hselect, rfl⟩ := run_claimPending h
    exact .claim _ now locked picked rfl hselect
  | claimLost now locked picked =>
    simp only [run] at h
    split at h
    · split at h
      · rename_i hc
        cases h
        exact .claim _ now locked picked rfl hc.2
      · cases h
    · cases h
  | loadReceipt =>
    obtain ⟨d, todo, done, -, ⟨p, -, rfl⟩ | ⟨e, -, rfl⟩⟩ := run_loadReceipt h <;>
      exact .none _ rfl
  | callEmit id =>
    obtain ⟨batch, d, receipt, -, -, rfl⟩ := run_callEmit h
    exact .none _ rfl
  | emitReturned id result =>
    obtain ⟨batch, d, receipt, -, -, rfl⟩ := run_emitReturned h
    exact .none _ rfl
  | mark id input outcome =>
    obtain ⟨batch, d, receipt, result, -, -, next, -, -, -, ⟨-, rfl⟩ | ⟨-, rfl⟩⟩ := run_mark h
    · exact .none _ rfl
    · exact .mark id input outcome d result
  | crash =>
    cases h
    exact .none _ rfl
  | _ =>
    simp only [run] at h
    split at h
    · cases h
      exact .none _ rfl
    · cases h

section Step

variable {dep : Deployment} {db db' : Database} {e : String} {t : Timestamp} {id : DeliveryId}

/-- An update that puts no row ahead. -/
theorem Database.ahead_le {u : DeliveryUpdate}
    (h : ∀ d ∈ db.deliveries.rows, Ahead e t id (u.run d) → Ahead e t id d) :
    (db.updateDeliveries u).ahead e t id ≤ db.ahead e t id := by
  rw [ahead, updateDeliveries_rows, List.countP_map, ahead]
  exact List.countP_mono_left fun d hd hcount => decide_eq_true (h d hd (of_decide_eq_true hcount))

/-- Rows queued after `t` are not ahead. -/
theorem Database.ahead_newDeliveries {receiptId : ReceiptId} {now : Timestamp} {names : List String}
    {draw : Nat → DeliveryId} (hafter : t < now)
    (h : db'.deliveries.rows = db.deliveries.rows ++ newDeliveries receiptId now names draw) :
    db'.ahead e t id = db.ahead e t id := by
  rw [ahead, h, List.countP_append, ahead]
  refine Nat.add_eq_left.mpr (List.countP_eq_zero.mpr fun d hd hcount => ?_)
  obtain ⟨k, name, -, rfl⟩ := mem_newDeliveries hd
  exact Int.not_le.mpr hafter (of_decide_eq_true hcount).2.2.2.1

/-- A claim puts no row ahead. -/
theorem Ahead.of_claim {picked : List DeliveryId} {now : Timestamp} {d : WebhookDelivery}
    (h : Ahead e t id ((DeliveryUpdate.claim picked now).run d)) : Ahead e t id d := by
  rw [Database.claim_run] at h
  split at h
  · obtain ⟨-, hst | hst, -⟩ := h <;> cases hst
  · exact h

/-- **A claim that passes the row over** fills all its slots with rows ahead of it. -/
theorem Database.ClaimSelect.ahead {n : Nat} {now : Timestamp} {locked picked : List DeliveryId}
    (h : db.ClaimSelect e n now locked picked) (hpass : db.PassesOver e t id now locked picked) :
    (db.updateDeliveries (.claim picked now)).ahead e t id + n ≤ db.ahead e t id := by
  obtain ⟨hnot, row, hrow, rfl, hdue⟩ := hpass
  obtain ⟨hrowmem, hrowel, hrowlock⟩ := mem_candidates.mp hrow
  have hlength : picked.length = n := by
    have hlt : picked.length ≠ (db.candidates e now locked).length := by
      intro heq
      have hperm : picked.Perm ((db.candidates e now locked).map (·.deliveryId)) :=
        (List.subperm_of_subset h.1 h.2.1).perm_of_length_le (by rw [List.length_map, heq])
      exact hnot (hperm.mem_iff.mpr (List.mem_map_of_mem hrow))
    have hmin := h.2.2.1
    omega
  have hpicked : db.deliveries.rows.countP (fun d => d.deliveryId ∈ picked) = picked.length := by
    refine Table.countP_key_mem h.1 fun id hid => ?_
    obtain ⟨d, hd, rfl, -⟩ := h.mem_keys hid
    exact Table.key_mem_keys hd
  rw [← hlength, ← hpicked, Database.ahead, updateDeliveries_rows, List.countP_map, Database.ahead]
  refine Nat.le_of_eq (countP_add_of_disjoint fun d hd => ?_).symm
  simp only [Function.comp_apply, decide_eq_true_eq]
  rcases h.claim_cases hd with ⟨hnot', heq⟩ | ⟨hp, hel, heq⟩
  · simp [heq, hnot']
  · -- It comes before the row that is passed over.
    obtain ⟨d', hd', hid'⟩ := List.mem_map.mp (h.2.1 _ hp)
    obtain rfl := Table.eq_of_key_eq (mem_candidates.mp hd').1 hd hid'
    have hbefore := h.2.2.2 d' hd' hp row hrow hnot
    have hahead : Ahead e t row.deliveryId d' :=
      ⟨hel.1, hel.2.1, hel.2.2.2, Int.le_trans hbefore hdue, fun heq => hnot (heq ▸ hp)⟩
    have hgone : ¬ Ahead e t row.deliveryId
        { d' with state := .inFlight, lastAttemptAt := some now } := by
      rintro ⟨-, hst | hst, -⟩ <;> cases hst
    simp [heq, hp, hahead, hgone]

/-- What a mark writes is not ahead, if it is due after `t`. -/
theorem Ahead.of_mark {cfg : WorkerConfig} {d x : WebhookDelivery} {id' : DeliveryId}
    {result : Except EmitError Unit} {input : MarkInput} (hafter : t < input.utcNow + input.nextDelta)
    (h : Ahead e t id ((DeliveryUpdate.mark id' (dispatchMark cfg x result input)).run d)) :
    Ahead e t id d := by
  rcases DeliveryUpdate.mark_cases id' (dispatchMark cfg x result input) d with
    ⟨-, heq⟩ | ⟨-, -, heq⟩
  · rwa [heq] at h
  · rw [heq] at h
    obtain ⟨-, hst, -, hdue, -⟩ := h
    cases result with
    | ok u => rcases hst with hst | hst <;> cases hst
    | error err =>
      simp only [dispatchMark] at hst hdue
      split at hst
      · rcases hst with hst | hst <;> cases hst
      · rename_i hlimit
        rw [if_neg hlimit] at hdue
        exact absurd hdue (Int.not_le.mpr hafter)

theorem Ahead.of_reclaim {e' : String} {lease : Duration} {now : Timestamp} {d : WebhookDelivery}
    (hafter : t < now) (h : Ahead e t id ((DeliveryUpdate.reclaimExpired e' lease now).run d)) :
    Ahead e t id d := by
  rcases DeliveryUpdate.reclaimExpired_cases e' lease now d with ⟨-, heq⟩ | ⟨-, heq⟩
  · rwa [heq] at h
  · rw [heq] at h
    exact absurd h.2.2.2.1 (Int.not_le.mpr hafter)

end Step

/-- **The rows that a step of an ingest call queues**, and at what time. -/
theorem IngestStep.run_rows {lib : Libraries} {pipe : Pipeline} {call : CallId} {db : Database}
    {cache : InMemoryRecentDedupe} {phase : CallPhase} {o : IngestOutcome} {step : IngestStep}
    (h : step.run lib pipe call db cache phase = some o) :
    o.db = db ∨ ∃ utcNow now draw outcome msg receiptId names,
      step = .store utcNow now draw outcome msg ∧
        o.db.deliveries.rows
          = db.deliveries.rows ++ Database.newDeliveries receiptId now names draw := by
  cases step with
  | store utcNow now draw outcome msg =>
    simp only [run] at h
    split at h
    · rename_i c advisory
      split at h
      · cases h
        exact Or.inl rfl
      · split at h
        · cases h
          exact Or.inl rfl
        · split at h <;> cases h <;> exact Or.inl rfl
        · rename_i db' hstore
          obtain ⟨-, -, -, hrows⟩ := Database.storeWithDeliveries_spec hstore
          refine Or.inr ⟨utcNow, now, draw, outcome, msg, (c.receipt lib utcNow).receiptId,
            pipe.emitterNames, rfl, ?_⟩
          split at h <;> cases h <;> exact hrows
    · cases h
  | start req receiptId utcNow =>
    simp only [run] at h
    repeat' split at h
    all_goals cases h <;> exact Or.inl rfl
  | _ =>
    simp only [run] at h
    repeat' split at h
    all_goals cases h <;> exact Or.inl rfl

section Runs

variable {dep : Deployment} {e : String} {t : Timestamp} {id : DeliveryId}

/-- **One step** uses up as many rows ahead as the slots with which it passes the row over. -/
theorem system_ahead {s s' : Sys} {l : Label} (hafter : ∀ u, l.queuesAt = some u → t < u)
    (h : (system dep).step s l = some s') :
    s'.db.ahead e t id + passedOver dep e t id s l ≤ s.db.ahead e t id := by
  cases l with
  | ingest call step =>
    obtain ⟨o, ho, rfl⟩ := Option.map_eq_some_iff.mp h
    have hle : o.db.ahead e t id = s.db.ahead e t id := by
      rcases IngestStep.run_rows ho with hsame | ⟨utcNow, now, draw, outcome, msg, _, _, rfl, hrows⟩
      · rw [hsame]
      · exact Database.ahead_newDeliveries (hafter now rfl) hrows
    exact Nat.le_of_eq hle
  | admin a =>
    obtain ⟨db, hrun, rfl, -⟩ := system_admin h
    rcases a.run_cases hrun with ⟨-, names, draw, now, hq, hrows⟩ | ⟨-, u, rfl, -⟩
    · have hlt : t < now := hafter now (by rw [Label.queuesAt, hq]; rfl)
      exact Nat.le_of_eq (Database.ahead_newDeliveries hlt hrows)
    · exact Nat.le_refl _
  | worker i step =>
    obtain ⟨o, ho, rfl⟩ := Option.map_eq_some_iff.mp h
    show (s.db.updateDeliveries o.update).ahead e t id + _ ≤ _
    have hstatement := WorkerStep.run_statement ho
    generalize o.update = u at hstatement
    cases hstatement with
    | none step hnone =>
      simp only [passedOver, hnone]
      exact Database.ahead_le fun d _ hd => hd
    | claim step now locked picked hsome hselect =>
      simp only [passedOver, hsome]
      split
      · rename_i hpass
        exact Database.ClaimSelect.ahead (hpass.1 ▸ hselect) hpass.2
      · exact Database.ahead_le fun d _ hd => hd.of_claim
    | reclaim now => exact Database.ahead_le fun d _ hd => hd.of_reclaim (hafter now rfl)
    | mark id' input outcome d result =>
      exact Database.ahead_le fun d _ hd => hd.of_mark (hafter _ rfl)

/-- **No row is passed over for ever.**  Row `id` has been due since `t`, and from then on every row
that is added or put back is due after `t`.  In every run of the system, from any state and with any
number of workers of its emitter: the claims that find the row among their candidates and leave it have
no more slots together than there are rows ahead of it at the start. -/
theorem no_starvation {s₀ s : Sys} {ls : List Label}
    (hafter : ∀ l ∈ ls, ∀ u, l.queuesAt = some u → t < u)
    (h : (system dep).exec s₀ ls = some s) :
    ((passing dep e t id).trace s₀ ls).sum ≤ s₀.db.ahead e t id := by
  have hC : (passing dep e t id).EveryStep (fun _ _ l => ∀ u, l.queuesAt = some u → t < u) s₀ ls := by
    rintro pre l post s rfl -
    exact hafter l (List.mem_append_right _ List.mem_cons_self)
  have hrun : (passing dep e t id).exec s₀ ls = some s :=
    (Lts.exec_congr (M := system dep) (N := passing dep e t id) rfl s₀ ls).trans h
  have hle := (Lts.ledger_of_everyStep (M := passing dep e t id) (I := fun _ _ => True)
    (B := fun s => s.db.ahead e t id) (E := fun _ => 0) (P := fun n => n) trivial ?_ hC
    hrun).2
  · simp only [Lts.total, List.map_id', List.map_const', List.sum_replicate, smul_zero] at hle
    omega
  · intro _ s l s' _ hl hstep
    refine ⟨trivial, ?_⟩
    have hone : s'.db.ahead e t id + passedOver dep e t id s l ≤ s.db.ahead e t id :=
      system_ahead hl hstep
    simpa [passing, Lts.total] using hone

end Runs

/-- A row and its replay are due at once; the worker has one slot, and takes the first. -/
def twoRows : List Label := acceptOne ++ [.admin (.insertReplay ⟨1⟩ "kafka" ⟨1⟩ 0)]

def takeFirst : List Label :=
  [.worker 0 .wake, .worker 0 (.reclaimExpired 1), .worker 0 (.claimPending 1 [] [⟨0⟩])]

theorem no_starvation_two :
    ∃ s₀ s, (system sampleDep).exec (.start sampleDep .empty) twoRows = some s₀ ∧
      (system sampleDep).exec s₀ takeFirst = some s ∧
      ((passing sampleDep "kafka" 0 ⟨1⟩).trace s₀ takeFirst).sum = 1 ∧
      ((passing sampleDep "kafka" 0 ⟨1⟩).trace s₀ takeFirst).sum ≤ s₀.db.ahead "kafka" 0 ⟨1⟩ := by
  refine ⟨_, _, rfl, rfl, by decide, no_starvation (fun l hl u hu => ?_) rfl⟩
  simp only [takeFirst, List.mem_cons, List.not_mem_nil, or_false] at hl
  rcases hl with rfl | rfl | rfl
  · cases hu
  · cases hu
    decide
  · cases hu

end Hookbox
