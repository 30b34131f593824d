/-
# The rounds of a worker

One round of the loop of `EmitterWorker::spawn` is a bounded number of steps.  `WorkerPhase.left` is
the number of steps that a worker can still take before its next `claim_pending`, whatever the
database, the downstream and the signal do: a claim brings at most `concurrency` rows, each of them is
loaded, sent, answered and marked, and nothing else is done twice.

* `WorkerStep.run_left`: every step but a claim or a crash has one step less left.
* `WorkerPhase.Proper`: a worker is never left waiting for a batch or a list that is empty.
* `rounds_bounded`: the bound on whole runs, among any other parties.
-/
import Hookbox.Lib.Ledger
import Hookbox.SingleWorker

namespace Hookbox

/-! ## 1. Steps left -/

/-- The steps of a `dispatch_one` that are still to come. -/
def DispatchPhase.left : DispatchPhase → Nat
  | .ready => 3
  | .emitting => 2
  | .marking _ => 1

/-- The steps of a batch that are still to come. -/
def batchLeft (batch : List Dispatch) : Nat := (batch.map fun x => x.phase.left).sum

/-- At most so many steps of a worker come before its next claim. -/
def WorkerPhase.left : WorkerPhase → Nat
  | .polling => 2
  | .reclaiming => 1
  | .claiming => 0
  | .loading todo done => 3 + 4 * todo.length + 3 * done.length
  | .dispatching batch => 3 + batchLeft batch
  | .refreshing _ => 3
  | .stopped => 0

/-- A phase in which some step is due, if the loop has not ended. -/
def WorkerPhase.Proper : WorkerPhase → Prop
  | .loading todo _ => todo ≠ []
  | .dispatching batch => batch ≠ []
  | _ => True

section Batch

variable {batch as bs : List Dispatch} {x : Dispatch} {id : DeliveryId} {p : DispatchPhase}

theorem batchLeft_append (batch batch' : List Dispatch) :
    batchLeft (batch ++ batch') = batchLeft batch + batchLeft batch' := by
  simp [batchLeft]

theorem batchLeft_cons (x : Dispatch) (batch : List Dispatch) :
    batchLeft (x :: batch) = x.phase.left + batchLeft batch := by
  simp [batchLeft]

/-- The futures of a batch have distinct rows, so that of row `id` stands alone. -/
theorem future_split (hnd : (batch.map (·.delivery.deliveryId)).Nodup)
    (hx : future id batch = some x) :
    ∃ as bs, batch = as ++ x :: bs ∧ x.delivery.deliveryId = id ∧
      (∀ y ∈ as, y.delivery.deliveryId ≠ id) ∧ ∀ y ∈ bs, y.delivery.deliveryId ≠ id := by
  obtain ⟨hmem, rfl⟩ := future_eq_some hx
  obtain ⟨as, bs, rfl⟩ := List.append_of_mem hmem
  rw [List.map_append, List.map_cons, List.nodup_append, List.nodup_cons] at hnd
  obtain ⟨-, ⟨hbs, -⟩, has⟩ := hnd
  refine ⟨as, bs, rfl, rfl, fun y hy heq => ?_, fun y hy heq => ?_⟩
  · exact has _ (List.mem_map_of_mem hy) _ List.mem_cons_self heq
  · exact hbs (heq ▸ List.mem_map_of_mem hy)

theorem advance_of_forall_ne (h : ∀ y ∈ batch, y.delivery.deliveryId ≠ id) :
    advance id p batch = batch :=
  (List.map_congr_left fun y hy => if_neg (h y hy)).trans (List.map_id _)

/-- Advancing a future takes as many steps off the batch as off the future. -/
theorem batchLeft_advance (hnd : (batch.map (·.delivery.deliveryId)).Nodup)
    (hx : future id batch = some x) :
    batchLeft (advance id p batch) + x.phase.left = batchLeft batch + p.left := by
  obtain ⟨as, bs, rfl, hid, has, hbs⟩ := future_split hnd hx
  have hadvance : advance id p (as ++ x :: bs) = as ++ { x with phase := p } :: bs := by
    have hsplit : advance id p (as ++ x :: bs)
        = advance id p as ++ (if x.delivery.deliveryId = id then { x with phase := p } else x)
          :: advance id p bs := List.map_append
    rw [hsplit, advance_of_forall_ne has, advance_of_forall_ne hbs, if_pos hid]
  rw [hadvance]
  simp only [batchLeft_append, batchLeft_cons]
  omega

/-- A future that leaves the batch takes its steps with it. -/
theorem batchLeft_filter (hx : future id batch = some x) :
    batchLeft (batch.filter fun y => y.delivery.deliveryId ≠ id) + x.phase.left
      ≤ batchLeft batch := by
  obtain ⟨hmem, hid⟩ := future_eq_some hx
  induction batch with
  | nil => cases hmem
  | cons y batch ih =>
    by_cases hy : y.delivery.deliveryId = id
    · have hfirst : future id (y :: batch) = some y := List.find?_cons_of_pos (by simpa using hy)
      rw [hfirst, Option.some.injEq] at hx
      have hle : batchLeft (batch.filter fun y => y.delivery.deliveryId ≠ id) ≤ batchLeft batch :=
        (List.filter_sublist.map _).sum_le_sum fun _ _ => Nat.zero_le _
      rw [List.filter_cons_of_neg (by simpa using hy), batchLeft_cons, hx]
      omega
    · have hrest : future id (y :: batch) = future id batch :=
        List.find?_cons_of_neg (by simpa using hy)
      rw [hrest] at hx
      have hle := ih hx (future_eq_some hx).1
      rw [List.filter_cons_of_pos (by simpa using hy), batchLeft_cons, batchLeft_cons]
      omega

end Batch

theorem batchLeft_ready (done : List (WebhookDelivery × WebhookReceipt)) :
    batchLeft (done.map fun p => ⟨p.1, p.2, .ready⟩) = 3 * done.length := by
  induction done with
  | nil => rfl
  | cons p done ih =>
    rw [List.map_cons, batchLeft_cons, ih, List.length_cons, DispatchPhase.left]
    omega

theorem left_afterLoad (todo : List WebhookDelivery)
    (done : List (WebhookDelivery × WebhookReceipt)) :
    (afterLoad todo done).left = 3 + 4 * todo.length + 3 * done.length := by
  cases todo with
  | cons d todo => rfl
  | nil =>
    cases done with
    | nil => rfl
    | cons p done => exact congrArg (3 + ·) (batchLeft_ready (p :: done))

theorem left_afterMark (batch : List Dispatch) : (afterMark batch).left = 3 + batchLeft batch := by
  cases batch <;> rfl

theorem proper_afterLoad (todo : List WebhookDelivery)
    (done : List (WebhookDelivery × WebhookReceipt)) : (afterLoad todo done).Proper := by
  cases todo with
  | cons d todo => simp [afterLoad, WorkerPhase.Proper]
  | nil => cases done <;> simp [afterLoad, WorkerPhase.Proper]

theorem proper_afterMark (batch : List Dispatch) : (afterMark batch).Proper := by
  cases batch <;> simp [afterMark, WorkerPhase.Proper]

/-! ## 2. What a step takes off -/

/-- The step calls `claim_pending`, whatever comes of it. -/
def WorkerStep.claimCall : WorkerStep → Nat
  | .claimPending _ _ _ | .claimLost _ _ _ | .claimFailed => 1
  | _ => 0

def WorkerStep.crashes : WorkerStep → Nat
  | .crash => 1
  | _ => 0

/-- What a step can add to the steps left: a call of `claim_pending` a whole round, and a crash the
way back to the next call. -/
def WorkerStep.brings (concurrency : Nat) (step : WorkerStep) : Nat :=
  (4 * concurrency + 4) * step.claimCall + 3 * step.crashes

section Steps

variable {cfg : WorkerConfig} {i : WorkerId} {db : Database} {w : WorkerState} {o : WorkerOutcome}
  {now : Timestamp}

theorem WorkerStep.run_wake (h : WorkerStep.wake.run cfg i db w = some o) :
    w.phase = .polling ∧ o = ⟨.nop, { w with phase := .reclaiming }, []⟩ := by
  simp only [run] at h
  split at h
  · rename_i hphase
    cases h
    exact ⟨hphase, rfl⟩
  · cases h

theorem WorkerStep.run_reclaimExpired (h : (reclaimExpired now).run cfg i db w = some o) :
    w.phase = .reclaiming ∧
      o = ⟨.reclaimExpired cfg.name cfg.leaseDuration now, { w with phase := .claiming },
        db.reclaimEvents cfg.name cfg.leaseDuration now⟩ := by
  simp only [run] at h
  split at h
  · rename_i hphase
    cases h
    exact ⟨hphase, rfl⟩
  · cases h

theorem WorkerStep.run_refreshGauges {dlqOk pendingOk stop : Bool} {utcNow : Timestamp}
    (h : (refreshGauges now dlqOk pendingOk utcNow stop).run cfg i db w = some o) :
    ∃ afterBatch health, w.phase = .refreshing afterBatch ∧
      o = ⟨.nop, { w with
        phase := if afterBatch ∧ stop then .stopped else .polling, health := health }, []⟩ := by
  simp only [run] at h
  split at h
  · rename_i afterBatch hphase
    cases h
    exact ⟨afterBatch, _, hphase, rfl⟩
  · cases h

/-- A claim brings at most `concurrency` rows, with four steps each. -/
theorem left_claimed {locked picked : List DeliveryId}
    (h : db.ClaimSelect cfg.name cfg.concurrency now locked picked) :
    (afterLoad (db.claimedRows picked now) []).left ≤ 3 + 4 * cfg.concurrency := by
  have hlength : (db.claimedRows picked now).length ≤ picked.length := by
    rw [← List.length_map (f := (·.deliveryId))]
    exact (claimedRows_sublist db picked now).length_le
  have hlimit := h.2.2.1
  rw [left_afterLoad, List.length_nil]
  omega

/-- **Every step of a worker is one less to come**, unless it calls `claim_pending` or the process
crashes. -/
theorem WorkerStep.run_left {step : WorkerStep} (h : step.run cfg i db w = some o)
    (hnd : w.rowIds.Nodup) :
    o.next.phase.left + 1 ≤ w.phase.left + step.brings cfg.concurrency := by
  cases step with
  | wake =>
    obtain ⟨hphase, rfl⟩ := run_wake h
    rw [hphase]
    simp [WorkerPhase.left]
  | reclaimExpired now =>
    obtain ⟨hphase, rfl⟩ := run_reclaimExpired h
    rw [hphase]
    simp [WorkerPhase.left]
  | claimPending now locked picked =>
    obtain ⟨hphase, hselect, rfl⟩ := run_claimPending h
    have hle := left_claimed hselect
    simp only [brings, claimCall, crashes]
    omega
  | loadReceipt =>
    obtain ⟨d, todo, done, hphase, ⟨p, -, rfl⟩ | ⟨e, -, rfl⟩⟩ := run_loadReceipt h
    · rw [hphase, left_afterLoad]
      simp only [WorkerPhase.left, List.length_append, List.length_cons, List.length_nil]
      omega
    · rw [hphase]
      simp only [WorkerPhase.left, List.length_cons]
      omega
  | callEmit id =>
    obtain ⟨batch, d, receipt, hphase, hf, rfl⟩ := run_callEmit h
    rw [rowIds_dispatching hphase] at hnd
    have hleft := batchLeft_advance (p := .emitting) hnd hf
    rw [hphase]
    simp only [WorkerPhase.left, DispatchPhase.left] at hleft ⊢
    omega
  | emitReturned id result =>
    obtain ⟨batch, d, receipt, hphase, hf, rfl⟩ := run_emitReturned h
    rw [rowIds_dispatching hphase] at hnd
    have hleft := batchLeft_advance (p := .marking result) hnd hf
    rw [hphase]
    simp only [WorkerPhase.left, DispatchPhase.left] at hleft ⊢
    omega
  | mark id input outcome =>
    obtain ⟨batch, d, receipt, result, hphase, hf, next, hnext, -, -, hcases⟩ := run_mark h
    have hle : next.phase.left + 1 ≤ w.phase.left := by
      have hfilter := batchLeft_filter hf
      rw [hnext, hphase, left_afterMark]
      simp only [WorkerPhase.left, DispatchPhase.left] at hfilter ⊢
      omega
    rcases hcases with ⟨-, rfl⟩ | ⟨-, rfl⟩ <;> exact hle
  | refreshGauges now dlqOk pendingOk utcNow stop =>
    obtain ⟨afterBatch, health, hphase, rfl⟩ := run_refreshGauges h
    have hle : (if afterBatch ∧ stop then WorkerPhase.stopped else .polling).left ≤ 2 := by
      by_cases hstop : afterBatch ∧ stop
      · rw [if_pos hstop]
        exact Nat.zero_le _
      · rw [if_neg hstop]
        exact Nat.le_refl _
    rw [hphase]
    simp only [WorkerPhase.left] at hle ⊢
    omega
  | claimLost now locked picked =>
    simp only [run] at h
    split at h
    · split at h
      · cases h
        simp only [brings, claimCall, crashes, WorkerPhase.left]
        omega
      · cases h
    · cases h
  | crash =>
    cases h
    simp only [brings, claimCall, crashes, WorkerPhase.left]
    omega
  | _ =>
    -- The other steps leave a phase that has a step to come.
    simp only [run] at h
    split at h
    · rename_i hphase
      cases h
      rw [hphase]
      simp only [brings, claimCall, crashes, WorkerPhase.left]
      omega
    · cases h

/-- **Every phase is proper**, after every step. -/
theorem WorkerStep.run_proper {step : WorkerStep} (h : step.run cfg i db w = some o)
    (hproper : w.phase.Proper) : o.next.phase.Proper := by
  cases step with
  | claimPending now locked picked =>
    obtain ⟨-, -, rfl⟩ := run_claimPending h
    exact proper_afterLoad _ _
  | loadReceipt =>
    obtain ⟨d, todo, done, -, ⟨p, -, rfl⟩ | ⟨e, -, rfl⟩⟩ := run_loadReceipt h
    · exact proper_afterLoad _ _
    · trivial
  | callEmit id =>
    obtain ⟨batch, d, receipt, hphase, hf, rfl⟩ := run_callEmit h
    rw [hphase] at hproper
    simpa [WorkerPhase.Proper, advance] using hproper
  | emitReturned id result =>
    obtain ⟨batch, d, receipt, hphase, hf, rfl⟩ := run_emitReturned h
    rw [hphase] at hproper
    simpa [WorkerPhase.Proper, advance] using hproper
  | mark id input outcome =>
    obtain ⟨batch, d, receipt, result, -, -, next, hnext, -, -, hcases⟩ := run_mark h
    have hmark : next.phase.Proper := hnext ▸ proper_afterMark _
    rcases hcases with ⟨-, rfl⟩ | ⟨-, rfl⟩ <;> exact hmark
  | refreshGauges now dlqOk pendingOk utcNow stop =>
    obtain ⟨afterBatch, health, -, rfl⟩ := run_refreshGauges h
    show (if _ then _ else _ : WorkerPhase).Proper
    split <;> trivial
  | claimLost now locked picked =>
    simp only [run] at h
    split at h
    · split at h
      · cases h
        trivial
      · cases h
    · cases h
  | crash =>
    cases h
    trivial
  | _ =>
    simp only [run] at h
    split at h
    · cases h
      trivial
    · cases h

/-- The loop ends only by the signal. -/
theorem WorkerStep.run_ended {step : WorkerStep} (h : step.run cfg i db w = some o)
    (hnext : o.next.phase = .stopped) :
    step = .shutdown ∨ ∃ now dlqOk pendingOk utcNow,
      step = .refreshGauges now dlqOk pendingOk utcNow true := by
  cases step with
  | shutdown => exact Or.inl rfl
  | claimPending now locked picked =>
    obtain ⟨-, -, rfl⟩ := run_claimPending h
    simp only [afterLoad] at hnext
    split at hnext
    · split at hnext <;> cases hnext
    · cases hnext
  | loadReceipt =>
    obtain ⟨d, todo, done, -, ⟨p, -, rfl⟩ | ⟨e, -, rfl⟩⟩ := run_loadReceipt h
    · simp only [afterLoad] at hnext
      split at hnext
      · split at hnext <;> cases hnext
      · cases hnext
    · cases hnext
  | callEmit id =>
    obtain ⟨batch, d, receipt, -, -, rfl⟩ := run_callEmit h
    cases hnext
  | emitReturned id result =>
    obtain ⟨batch, d, receipt, -, -, rfl⟩ := run_emitReturned h
    cases hnext
  | mark id input outcome =>
    obtain ⟨batch, d, receipt, result, -, -, next, hmark, -, -, hcases⟩ := run_mark h
    have hphase : next.phase = .stopped := by
      rcases hcases with ⟨-, rfl⟩ | ⟨-, rfl⟩ <;> exact hnext
    rw [hmark, afterMark] at hphase
    split at hphase <;> cases hphase
  | refreshGauges now dlqOk pendingOk utcNow stop =>
    obtain ⟨afterBatch, health, -, rfl⟩ := run_refreshGauges h
    cases stop with
    | true => exact Or.inr ⟨now, dlqOk, pendingOk, utcNow, rfl⟩
    | false => simp at hnext
  | claimLost now locked picked =>
    simp only [run] at h
    split at h
    · split at h
      · cases h
        cases hnext
      · cases h
    · cases h
  | crash =>
    cases h
    cases hnext
  | _ =>
    simp only [run] at h
    split at h
    · cases h
      cases hnext
    · cases h

end Steps

/-! ## 3. Rounds of a run -/

/-- An amount that belongs to the steps of worker `i`. -/
def Label.ofWorker (i : WorkerId) (amount : WorkerStep → Nat) : Label → Nat
  | .worker j step => if j = i then amount step else 0
  | _ => 0

theorem Label.ofWorker_self (i : WorkerId) (amount : WorkerStep → Nat) (step : WorkerStep) :
    (Label.worker i step).ofWorker i amount = amount step := if_pos rfl

/-- How many steps worker `i` took, how often it called `claim_pending`, and how often it crashed. -/
def stepsOf (i : WorkerId) (ls : List Label) : Nat := Lts.total (Label.ofWorker i fun _ => 1) ls

def claimCallsOf (i : WorkerId) (ls : List Label) : Nat :=
  Lts.total (Label.ofWorker i WorkerStep.claimCall) ls

def crashesOf (i : WorkerId) (ls : List Label) : Nat :=
  Lts.total (Label.ofWorker i WorkerStep.crashes) ls

theorem total_brings (i : WorkerId) (n : Nat) (ls : List Label) :
    Lts.total (Label.ofWorker i (WorkerStep.brings n)) ls
      = (4 * n + 4) * claimCallsOf i ls + 3 * crashesOf i ls := by
  induction ls with
  | nil => rfl
  | cons l ls ih =>
    simp only [Lts.total, claimCallsOf, crashesOf, List.map_cons, List.sum_cons] at ih ⊢
    rw [ih]
    cases l with
    | worker j step =>
      by_cases hj : j = i
      · simp only [Label.ofWorker, if_pos hj, WorkerStep.brings]
        ring
      · simp only [Label.ofWorker, if_neg hj, Nat.zero_add]
    | ingest call step => simp only [Label.ofWorker, Nat.zero_add]
    | admin a => simp only [Label.ofWorker, Nat.zero_add]

/-- Nobody moves a worker but itself. -/
theorem system_workers_of_ne {dep : Deployment} {s s' : Sys} {l : Label} {i : WorkerId}
    (hl : ∀ step, l ≠ .worker i step) (h : (system dep).step s l = some s') :
    s'.workers i = s.workers i := by
  cases l with
  | worker j step =>
    obtain ⟨o, -, rfl⟩ := Option.map_eq_some_iff.mp h
    exact Sys.afterWorker_of_ne s (fun hj => hl step (by rw [hj])) o
  | ingest call step =>
    obtain ⟨o, -, rfl, -⟩ := system_ingest h
    rfl
  | admin a =>
    obtain ⟨db, -, rfl, -⟩ := system_admin h
    rfl

theorem Label.ofWorker_of_ne {i : WorkerId} {l : Label} (hl : ∀ step, l ≠ .worker i step)
    (amount : WorkerStep → Nat) : l.ofWorker i amount = 0 := by
  cases l with
  | worker j step => exact if_neg fun hj => hl step (by rw [hj])
  | ingest call step => rfl
  | admin a => rfl

theorem system_left {dep : Deployment} {s s' : Sys} {l : Label} {i : WorkerId}
    (hnd : (s.workers i).rowIds.Nodup) (h : (system dep).step s l = some s') :
    (s'.workers i).phase.left + l.ofWorker i (fun _ => 1)
      ≤ (s.workers i).phase.left + l.ofWorker i (WorkerStep.brings (dep.workers i).concurrency) := by
  by_cases hl : ∃ step, l = .worker i step
  · obtain ⟨step, rfl⟩ := hl
    obtain ⟨o, ho, rfl⟩ := Option.map_eq_some_iff.mp h
    rw [Sys.afterWorker_self, Label.ofWorker_self, Label.ofWorker_self]
    exact WorkerStep.run_left ho hnd
  · have hne : ∀ step, l ≠ .worker i step := fun step heq => hl ⟨step, heq⟩
    rw [system_workers_of_ne hne h, Label.ofWorker_of_ne hne, Label.ofWorker_of_ne hne]

theorem left_ledger {dep : Deployment} {db : Database} {before ls : List Label} {s₀ s : Sys}
    (h₀ : (system dep).exec (.start dep db) before = some s₀)
    (h : (system dep).exec s₀ ls = some s) (i : WorkerId) :
    (s.workers i).phase.left + stepsOf i ls ≤ (s₀.workers i).phase.left
      + ((4 * (dep.workers i).concurrency + 4) * claimCallsOf i ls + 3 * crashesOf i ls) := by
  rw [← total_brings]
  refine Lts.ledger_labels (M := system dep)
    (I := fun s => ∃ ls, (system dep).exec (.start dep db) ls = some s)
    (B := fun s => (s.workers i).phase.left) ⟨before, h₀⟩ ?_ h
  rintro s l s' ⟨ls, hs⟩ hstep
  exact ⟨⟨ls ++ [l], Lts.exec_snoc.mpr ⟨s, hs, hstep⟩⟩, system_left (system_rowIds_nodup hs i) hstep⟩

/-- **The rounds of a worker are bounded.**  From every reachable state, in every run among any other
parties, and whatever the database and the downstream answer: but for the rest of its current round,
a worker takes at most `4 * concurrency + 4` steps for each of its calls of `claim_pending`, and three
for each crash. -/
theorem rounds_bounded {dep : Deployment} {db : Database} {before ls : List Label} {s₀ s : Sys}
    (h₀ : (system dep).exec (.start dep db) before = some s₀)
    (h : (system dep).exec s₀ ls = some s) (i : WorkerId) :
    stepsOf i ls ≤ (s₀.workers i).phase.left
      + (4 * (dep.workers i).concurrency + 4) * claimCallsOf i ls + 3 * crashesOf i ls := by
  have hle := left_ledger h₀ h i
  omega

theorem rounds_bounded_claimAndCall :
    ∃ s₀ s, (system soloDep).exec (.start soloDep .empty) acceptOne = some s₀ ∧
      (system soloDep).exec s₀ (claimAndCall 1 0 ⟨0⟩) = some s ∧
      stepsOf 1 (claimAndCall 1 0 ⟨0⟩) = 5 ∧
      stepsOf 1 (claimAndCall 1 0 ⟨0⟩) ≤ (s₀.workers 1).phase.left
        + (4 * (soloDep.workers 1).concurrency + 4) * claimCallsOf 1 (claimAndCall 1 0 ⟨0⟩)
        + 3 * crashesOf 1 (claimAndCall 1 0 ⟨0⟩) :=
  ⟨_, _, rfl, rfl, rfl, rounds_bounded
    (show (system soloDep).exec (.start soloDep .empty) acceptOne = some _ from rfl) rfl 1⟩

end Hookbox
