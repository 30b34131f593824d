/-
# The shutdown of a server process ends

Once `true` has been sent and `drain_worker_handles` has been entered, after a shutdown as after a
failed start, the process can take only so many steps more, whatever the database, the downstreams and
everybody else do, and it is never stuck on a handle.  So it returns.

A worker that is in its `select!` when the signal is sent can still lose the race against its sleep,
and go round its loop once more: `Server.stopLeft` counts that round in full.

* `Server.Moves.left`: every step of a task is one less to come.
* `Server.Inv.can_step`: some step can be taken, as long as the process has not returned.
* `shutdown_completes`: both on whole runs, with the bound in terms of the configuration.
-/
import Mathlib.Algebra.Order.BigOperators.Group.Finset
import Hookbox.ServeRuns

namespace Hookbox

/-! ## 1. Steps to the end -/

/-- A claim comes before the loop looks at the signal again. -/
def WorkerPhase.claimDue : WorkerPhase → Nat
  | .reclaiming | .claiming => 1
  | _ => 0

/-- A worker that has been told to stop takes at most so many steps. -/
def EmitterTasks.stopLeft (concurrency : Nat) (t : EmitterTasks) (phase : WorkerPhase) : Nat :=
  if t.worker.isSome then 0
  else if t.notified then 1
  else phase.left + (4 * concurrency + 4) *
    (phase.claimDue + if phase.isPolling && !t.pending then 1 else 0)

/-- The steps of the tasks of an entry. -/
def Boot.entryLeft {Emitter Receiver : Type} (boot : Boot Emitter Receiver) (i : WorkerId)
    (t : EmitterTasks) (w : WorkerState) : Nat :=
  t.stopLeft (boot.dep.workers i).concurrency w.phase + (if t.supervisor.isSome then 0 else 1)
    + if boot.hasDrain i && t.drain.isNone then 1 else 0

/-- The steps of `drain_worker_handles` and of what follows it. -/
def ServePhase.left : ServePhase → Nat
  | .draining _ todo _ => todo.length + 1
  | _ => 0

/-- The process has nothing more to do than to end its tasks. -/
def ServePhase.ending : ServePhase → Bool
  | .draining _ _ _ | .returned _ => true
  | _ => false

def Server.stopLeft {Emitter Receiver : Type} (boot : Boot Emitter Receiver) (s : Server) : Nat :=
  ∑ i ∈ Finset.range s.spawned, boot.entryLeft i (s.tasks i) (s.sys.workers i) + s.phase.left

/-- A step of the process itself. -/
def ServeLabel.own : ServeLabel → Nat
  | .other _ => 0
  | _ => 1

/-! ## 2. What a step takes off -/

section Steps

variable {cfg : WorkerConfig} {i : WorkerId} {db : Database} {w : WorkerState} {o : WorkerOutcome}

theorem claimDue_afterLoad (todo : List WebhookDelivery)
    (done : List (WebhookDelivery × WebhookReceipt)) : (afterLoad todo done).claimDue = 0 := by
  cases todo with
  | cons d todo => rfl
  | nil => cases done <;> rfl

theorem claimDue_afterMark (batch : List Dispatch) : (afterMark batch).claimDue = 0 := by
  cases batch <;> rfl

/-- Only the `select!` makes a claim due, and a claim pays it off. -/
theorem WorkerStep.run_claimDue {step : WorkerStep} (h : step.run cfg i db w = some o)
    (hwake : step ≠ .wake) : o.next.phase.claimDue + step.claimCall ≤ w.phase.claimDue := by
  cases step with
  | wake => exact absurd rfl hwake
  | claimPending now locked picked =>
    obtain ⟨hphase, -, rfl⟩ := run_claimPending h
    rw [hphase, claimDue_afterLoad]
    exact Nat.le_refl 1
  | loadReceipt =>
    obtain ⟨d, todo, done, -, ⟨p, -, rfl⟩ | ⟨e, -, rfl⟩⟩ := run_loadReceipt h
    · rw [claimDue_afterLoad]
      exact Nat.zero_le _
    · exact Nat.zero_le _
  | callEmit id =>
    obtain ⟨batch, d, receipt, -, -, rfl⟩ := run_callEmit h
    exact Nat.zero_le _
  | emitReturned id result =>
    obtain ⟨batch, d, receipt, -, -, rfl⟩ := run_emitReturned h
    exact Nat.zero_le _
  | mark id input outcome =>
    obtain ⟨batch, d, receipt, result, -, -, next, hnext, -, -, hcases⟩ := run_mark h
    have hdue : next.phase.claimDue = 0 := by rw [hnext, claimDue_afterMark]
    rcases hcases with ⟨-, rfl⟩ | ⟨-, rfl⟩ <;> simp [hdue, claimCall]
  | refreshGauges now dlqOk pendingOk utcNow stop =>
    obtain ⟨afterBatch, health, -, rfl⟩ := run_refreshGauges h
    have hdue : (if afterBatch ∧ stop then WorkerPhase.stopped else .polling).claimDue = 0 := by
      split <;> rfl
    simp only [hdue, claimCall]
    exact Nat.zero_le _
  | claimLost now locked picked =>
    simp only [run] at h
    split at h
    · rename_i hphase
      split at h
      · cases h
        rw [hphase]
        exact Nat.le_refl 1
      · cases h
    · cases h
  | crash =>
    cases h
    exact Nat.zero_le _
  | _ =>
    simp only [run] at h
    split at h
    · rename_i hphase
      cases h
      rw [hphase]
      exact Nat.le_refl _
    · cases h

/-- A worker that has come back to its `select!` after the signal, or has stopped, or is still on its
way, has one step less to take. -/
theorem WorkerStep.run_stopLeft {step : WorkerStep} (h : step.run cfg i db w = some o)
    (hnd : w.rowIds.Nodup) (hwake : step ≠ .wake) (hcrash : step ≠ .crash) :
    o.next.phase.left + (4 * cfg.concurrency + 4) * o.next.phase.claimDue
      < w.phase.left + (4 * cfg.concurrency + 4) * w.phase.claimDue := by
  have hleft := run_left h hnd
  have hdue := Nat.mul_le_mul_left (4 * cfg.concurrency + 4) (run_claimDue h hwake)
  have hno : step.crashes = 0 := by
    cases step with
    | crash => exact absurd rfl hcrash
    | _ => rfl
  rw [brings, hno, Nat.mul_zero, Nat.add_zero] at hleft
  rw [Nat.mul_add] at hdue
  omega

end Steps

section Entry

variable {Emitter Receiver : Type} {boot : Boot Emitter Receiver} {s : Server} {i : WorkerId}
  {t : EmitterTasks} {w : WorkerState} {phase : WorkerPhase}

theorem EmitterTasks.stopLeft_of_ended {n : Nat} {how : TaskEnd} (h : t.worker = some how) :
    t.stopLeft n phase = 0 := by
  simp [stopLeft, h]

theorem EmitterTasks.stopLeft_of_notified {n : Nat} (hrun : t.worker = none)
    (hn : t.notified = true) : t.stopLeft n phase = 1 := by
  simp [stopLeft, hrun, hn]

theorem EmitterTasks.stopLeft_of_running {n : Nat} (hrun : t.worker = none)
    (hn : t.notified = false) : t.stopLeft n phase = phase.left + (4 * n + 4) *
      (phase.claimDue + if phase.isPolling && !t.pending then 1 else 0) := by
  simp [stopLeft, hrun, hn]

/-- A task that has not ended has a step to take. -/
theorem EmitterTasks.stopLeft_pos {n : Nat} (hrun : t.worker = none) (hphase : phase ≠ .stopped) :
    0 < t.stopLeft n phase := by
  cases hn : t.notified with
  | true =>
    rw [stopLeft_of_notified hrun hn]
    exact Nat.one_pos
  | false =>
    rw [stopLeft_of_running hrun hn]
    cases phase with
    | stopped => exact absurd rfl hphase
    | claiming =>
      simp only [WorkerPhase.claimDue, Nat.mul_add]
      omega
    | _ =>
      simp only [WorkerPhase.left]
      omega

/-- **Every step of the loop is one less to come**, once the signal has been sent. -/
theorem Server.loop_stopLeft {l : LoopStep} {st : WorkerStep} {o : WorkerOutcome}
    (hinv : (s.tasks i).Inv s.version (s.sys.workers i)) (hstop : s.version ≠ 0)
    (hnd : (s.sys.workers i).rowIds.Nodup) (hrun : (s.tasks i).worker = none)
    (hl : LoopStep.Receives s i l t (some st)) (ho : s.sys.workerRun boot.dep i st = some o) :
    (t.settle o.next.phase s.version).stopLeft (boot.dep.workers i).concurrency o.next.phase
      < (s.tasks i).stopLeft (boot.dep.workers i).concurrency (s.sys.workers i).phase := by
  have hreceived := (received hinv hrun hl ho).2.2
  have hpos := EmitterTasks.stopLeft_pos (n := (boot.dep.workers i).concurrency) hrun
    (hinv.running.mp hrun)
  by_cases hnext : o.next.phase = .stopped
  · rw [hnext]
    exact hpos
  obtain ⟨hn', hseen⟩ := hreceived.resolve_left hnext
  -- Back in its `select!`, the receiver finds a version that it has not seen.
  have hafter : ∀ {p}, o.next.phase = p → (t.settle p s.version).stopLeft
      (boot.dep.workers i).concurrency p
        = p.left + (4 * (boot.dep.workers i).concurrency + 4) * p.claimDue := by
    rintro p rfl
    rw [EmitterTasks.stopLeft_of_running ((t.settle_running _ _).mpr hnext) hn']
    simp [EmitterTasks.settle, hseen, hstop.symm]
  rw [hafter rfl]
  cases hl with
  | elapsed hn hp =>
    obtain ⟨hphase, rfl⟩ := WorkerStep.run_wake ho
    rw [EmitterTasks.stopLeft_of_running hrun hn, hphase, hp]
    simp [WorkerPhase.left, WorkerPhase.claimDue, WorkerPhase.isPolling]
  | borrow hn =>
    have hstopping : s.stopping = true := by simpa [stopping] using hstop
    rw [if_pos hstopping] at ho
    simp only [Sys.workerRun, WorkerStep.run] at ho
    split at ho
    · cases ho
      exact absurd rfl hnext
    · cases ho
  | refresh now dlqOk pendingOk utcNow =>
    obtain ⟨afterBatch, health, hphase, -⟩ := WorkerStep.run_refreshGauges ho
    have hn : (s.tasks i).notified = false := by
      rw [Bool.eq_false_iff]
      intro hn
      rw [(hinv.notified hrun hn).2] at hphase
      cases hphase
    have hlt := WorkerStep.run_stopLeft ho hnd (by simp) (by simp)
    rw [EmitterTasks.stopLeft_of_running hrun hn, Nat.mul_add]
    omega
  | inner st hst =>
    have hn : (s.tasks i).notified = false := by
      rw [Bool.eq_false_iff]
      exact fun hn => WorkerStep.run_polling ho hst (hinv.notified hrun hn).2
    have hlt := WorkerStep.run_stopLeft ho hnd (by rintro rfl; cases hst) (by rintro rfl; cases hst)
    rw [EmitterTasks.stopLeft_of_running hrun hn, Nat.mul_add]
    omega

/-- **Every step of a task is one less to come**, once the signal has been sent. -/
theorem Server.Moves.left (h : Server.Moves boot s i t w)
    (hinv : (s.tasks i).Inv s.version (s.sys.workers i)) (hstop : s.version ≠ 0)
    (hnd : (s.tasks i).worker = none → (s.sys.workers i).rowIds.Nodup) :
    boot.entryLeft i t w < boot.entryLeft i (s.tasks i) (s.sys.workers i) := by
  cases h with
  | receive l t hrun hl =>
    cases LoopStep.receive_cases hl with
    | changed hphase hn hseen =>
      simp only [Boot.entryLeft, EmitterTasks.stopLeft_of_running hrun hn,
        EmitterTasks.stopLeft_of_notified (t := { s.tasks i with seen := s.version, notified := true })
          hrun rfl]
      rw [hphase]
      simp only [WorkerPhase.left]
      omega
  | loop l t st o hrun hl ho =>
    have hlt := loop_stopLeft hinv hstop (hnd hrun) hrun (LoopStep.receive_cases hl) ho
    have hkept : t.supervisor = (s.tasks i).supervisor ∧ t.drain = (s.tasks i).drain := by
      cases LoopStep.receive_cases hl with
      | refresh now dlqOk pendingOk utcNow => split <;> exact ⟨rfl, rfl⟩
      | _ => exact ⟨rfl, rfl⟩
    simp only [Boot.entryLeft, EmitterTasks.settle_supervisor, EmitterTasks.settle_drain, hkept.1,
      hkept.2]
    omega
  | panic hrun =>
    have hpos := EmitterTasks.stopLeft_pos (n := (boot.dep.workers i).concurrency) hrun
      (hinv.running.mp hrun)
    simp only [Boot.entryLeft, EmitterTasks.stopLeft_of_ended (t := { s.tasks i with
      worker := some .panicked }) rfl]
    omega
  | supervise how health hrun hended hhealth =>
    simp only [Boot.entryLeft, EmitterTasks.stopLeft_of_ended hended, hrun,
      EmitterTasks.stopLeft_of_ended (t := { s.tasks i with supervisor := some how }) hended]
    simp
  | drainEnds how hdrain hrun hended =>
    simp only [Boot.entryLeft, EmitterTasks.stopLeft, hdrain, hrun]
    simp

end Entry

/-! ## 3. The process -/

/-- A worker of the system is at most a claim away from the end of its round. -/
theorem system_left_le {dep : Deployment} {db : Database} {ls : List Label} {s : Sys}
    (h : (system dep).exec (.start dep db) ls = some s) (i : WorkerId) :
    (s.workers i).phase.left + (4 * (dep.workers i).concurrency + 4) * (s.workers i).phase.claimDue
      ≤ 4 * (dep.workers i).concurrency + 5 := by
  refine Lts.labels_induction (M := system dep)
    (I := fun _ s => (s.workers i).phase.left
      + (4 * (dep.workers i).concurrency + 4) * (s.workers i).phase.claimDue
        ≤ 4 * (dep.workers i).concurrency + 5) ?_ ?_ h
  · show 2 + (4 * (dep.workers i).concurrency + 4) * 0 ≤ _
    omega
  intro ls s l s' hs hle hstep
  by_cases hl : ∃ step, l = .worker i step
  · obtain ⟨step, rfl⟩ := hl
    obtain ⟨o, ho, rfl⟩ := Option.map_eq_some_iff.mp hstep
    rw [Sys.afterWorker_self]
    by_cases hwake : step = .wake
    · subst hwake
      obtain ⟨-, rfl⟩ := WorkerStep.run_wake ho
      simp only [WorkerPhase.left, WorkerPhase.claimDue]
      omega
    by_cases hcrash : step = .crash
    · subst hcrash
      cases ho
      simp only [WorkerPhase.left, WorkerPhase.claimDue]
      omega
    exact Nat.le_trans
      (Nat.le_of_lt (WorkerStep.run_stopLeft ho (system_rowIds_nodup hs i) hwake hcrash)) hle
  · rw [system_workers_of_ne (fun step heq => hl ⟨step, heq⟩) hstep]
    exact hle

section

variable {Emitter Receiver : Type} {boot : Boot Emitter Receiver} {s s' : Server}
  {l : ServeLabel} {ls : List ServeLabel} {es : List Event} {db : Database}

/-- What the workers of a server owe to the system underneath. -/
theorem serving_worker (h : (serving boot).exec (.start boot db) ls = some s) {i : WorkerId}
    (hrun : (s.tasks i).worker = none) :
    (s.sys.workers i).rowIds.Nodup ∧ (s.sys.workers i).phase.left
      + (4 * (boot.dep.workers i).concurrency + 4) * (s.sys.workers i).phase.claimDue
        ≤ 4 * (boot.dep.workers i).concurrency + 5 := by
  obtain ⟨-, ls', t, ht, hm, -⟩ := serving_matches h
  have hsame := hm.workers i (by rw [hrun]; simp)
  rw [← hsame]
  exact ⟨system_rowIds_nodup ht i, system_left_le ht i⟩

/-- Draining ends in a return, and in nothing else. -/
theorem Server.Effect.ending (h : Server.Effect boot s l s' es) (hending : s.phase.ending = true) :
    s'.phase.ending = true ∧ s'.spawned = s.spawned := by
  cases h with
  | spawned built hphase | failed e hphase | up hphase | signal hphase | serveEnds r hphase =>
    rw [hphase] at hending
    cases hending
  | join | finish => exact ⟨rfl, rfl⟩
  | supervise i utcNow how => cases how <;> exact ⟨hending, rfl⟩
  | _ => exact ⟨hending, rfl⟩

theorem Server.PhaseInv.stopping (h : s.PhaseInv boot ls) (hending : s.phase.ending = true)
    (hnot : ∀ result, s.phase ≠ .returned result) : s.version ≠ 0 := by
  unfold PhaseInv at h
  split at h
  · rename_i hphase
    rw [hphase] at hending
    cases hending
  · rename_i hphase
    rw [hphase] at hending
    cases hending
  · exact h.1
  · rename_i result hphase
    exact absurd hphase (hnot result)

/-- **Every step of the process is one less to come**, from the drain on. -/
theorem Server.Effect.stopLeft (h : Server.Effect boot s l s' es)
    (hs : (serving boot).exec (.start boot db) ls = some s) (hending : s.phase.ending = true) :
    s'.stopLeft boot + l.own ≤ s.stopLeft boot := by
  have hinv := serving_inv hs
  have hspawned := (h.ending hending).2
  cases hm : l.mover with
  | none =>
    -- The tasks stand still.
    have hsum : ∑ i ∈ Finset.range s.spawned, boot.entryLeft i (s'.tasks i) (s'.sys.workers i)
        = ∑ i ∈ Finset.range s.spawned, boot.entryLeft i (s.tasks i) (s.sys.workers i) := by
      refine Finset.sum_congr rfl fun j hj => ?_
      have hstill := h.still (j := j) (by rw [hm]; simp)
      have hlen := Nat.lt_of_lt_of_le (Finset.mem_range.mp hj) hinv.spawned_le
      rw [hstill.1, hstill.2 hlen]
    have hphase : s'.phase.left + l.own ≤ s.phase.left := by
      cases h with
      | spawned built hphase | failed e hphase | up hphase | signal hphase | serveEnds r hphase =>
        rw [hphase] at hending
        cases hending
      | join why x todo panicked how hphase =>
        rw [hphase]
        exact Nat.le_refl _
      | finish why panicked hphase =>
        rw [hphase]
        exact Nat.le_refl _
      | other => exact Nat.le_refl _
      | _ => cases hm
    rw [Server.stopLeft, Server.stopLeft, hspawned, hsum]
    omega
  | some i =>
    have hi := (h.moves hm).1
    have hrest : ∀ result, s.phase ≠ .returned result := by
      intro result hphase
      obtain ⟨⟨l', rfl⟩, -⟩ := h.returned hinv hphase
      cases hm
    have hstop := hinv.phase.stopping hending hrest
    have hlt : ∑ j ∈ Finset.range s.spawned, boot.entryLeft j (s'.tasks j) (s'.sys.workers j)
        < ∑ j ∈ Finset.range s.spawned, boot.entryLeft j (s.tasks j) (s.sys.workers j) := by
      have hmove := (h.moves hm).2.left (hinv.task i hi) hstop fun hrun => (serving_worker hs hrun).1
      refine Finset.sum_lt_sum (fun j hj => ?_) ⟨i, Finset.mem_range.mpr hi, hmove⟩
      by_cases hji : j = i
      · rw [hji]
        exact Nat.le_of_lt hmove
      · have hstill := h.still (j := j) fun heq => hji (Option.some.inj (heq.symm.trans hm))
        have hlen := Nat.lt_of_lt_of_le (Finset.mem_range.mp hj) hinv.spawned_le
        rw [hstill.1, hstill.2 hlen]
    have hown : l.own ≤ 1 := by cases l <;> simp [ServeLabel.own]
    have hphase : s'.phase = s.phase := by
      cases h with
      | supervise i utcNow how => cases how <;> rfl
      | receive | loop | panic | drainEnds => rfl
      | _ => cases hm
    rw [Server.stopLeft, Server.stopLeft, hspawned, hphase]
    omega

/-! ## 4. No step is waited for in vain -/

/-- A step of the process that is no panic. -/
def ServeLabel.orderly : ServeLabel → Bool
  | .panic _ | .drainEnds _ .panicked | .other _ => false
  | _ => true

/-- A worker that runs can take a step, once the signal has been sent. -/
theorem Server.Inv.loop_can_step (hinv : s.Inv boot ls) (hstop : s.version ≠ 0) {i : WorkerId}
    (hi : i < s.spawned) (hrun : (s.tasks i).worker = none) :
    ∃ l s', (serving boot).step s (.loop i l) = some s' := by
  have htask := hinv.task i hi
  -- A step of the loop that can be received, and that the worker can run.
  have hstep : ∀ {l : LoopStep} {t : EmitterTasks} {st : WorkerStep},
      l.receive s i = some (t, some st) → (s.sys.workerRun boot.dep i st).isSome →
      ∃ l s', (serving boot).step s (.loop i l) = some s' := by
    intro l t st hl ho
    obtain ⟨o, ho⟩ := Option.isSome_iff_exists.mp ho
    refine ⟨l, s.afterLoop i t o, ?_⟩
    simp only [serving, ServeLabel.run, LoopStep.run, if_pos (And.intro hi hrun), hl]
    show (s.sys.workerRun boot.dep i st).bind _ = _
    rw [ho]
    rfl
  cases hn : (s.tasks i).notified with
  | true =>
    have hpolling := (htask.notified hrun hn).2
    have hstopping : s.stopping = true := by simpa [stopping] using hstop
    exact hstep (l := .borrow) (by simp only [LoopStep.receive, if_pos hn]; rfl)
      (by simp [Sys.workerRun, hstopping, WorkerStep.run, hpolling])
  | false =>
    have hseen := htask.seen hrun hn
    cases hphase : (s.sys.workers i).phase with
    | polling =>
      refine ⟨.changed, s.setTasks i { s.tasks i with seen := s.version, notified := true }, ?_⟩
      simp only [serving, ServeLabel.run, LoopStep.run, if_pos (And.intro hi hrun),
        LoopStep.receive, hphase, hn, hseen]
      simp [WorkerPhase.isPolling, hstop.symm]
    | reclaiming =>
      exact hstep (l := .step (.reclaimExpired 0)) rfl (by simp [Sys.workerRun, WorkerStep.run, hphase])
    | claiming =>
      exact hstep (l := .step .claimFailed) rfl (by simp [Sys.workerRun, WorkerStep.run, hphase])
    | loading todo done =>
      exact hstep (l := .step .loadFailed) rfl (by simp [Sys.workerRun, WorkerStep.run, hphase])
    | dispatching batch =>
      have hproper := htask.proper
      rw [hphase] at hproper
      obtain ⟨x, batch, rfl⟩ := List.exists_cons_of_ne_nil hproper
      have hfuture : future x.delivery.deliveryId (x :: batch) = some x :=
        List.find?_cons_of_pos (by simp)
      obtain ⟨d, receipt, p⟩ := x
      cases p with
      | ready =>
        exact hstep (l := .step (.callEmit d.deliveryId)) rfl
          (by simp [Sys.workerRun, WorkerStep.run, hphase, hfuture])
      | emitting =>
        exact hstep (l := .step (.emitReturned d.deliveryId (.ok ()))) rfl
          (by simp [Sys.workerRun, WorkerStep.run, hphase, hfuture])
      | marking result =>
        exact hstep (l := .step (.mark d.deliveryId ⟨0, 0, 0, 0, 0⟩ .failed)) rfl
          (by simp [Sys.workerRun, WorkerStep.run, hphase, hfuture])
    | refreshing afterBatch =>
      exact hstep (l := .step (.refreshGauges 0 true true 0 s.stopping))
        (by simp only [LoopStep.receive, if_pos]; rfl)
        (by simp [Sys.workerRun, WorkerStep.run, hphase])
    | stopped => exact absurd hphase (htask.running.mp hrun)

/-- **The drain is never stuck.** -/
theorem Server.Inv.can_step (hinv : s.Inv boot ls) (hending : s.phase.ending = true) :
    (∃ result, s.phase = .returned result) ∨
      ∃ l s', l.orderly = true ∧ (serving boot).step s l = some s' := by
  have hp := hinv.phase
  unfold PhaseInv at hp
  split at hp
  · rename_i hphase
    rw [hphase] at hending
    cases hending
  · rename_i hphase
    rw [hphase] at hending
    cases hending
  · rename_i why todo panicked hphase
    obtain ⟨hstop, -, joined, hhandles, -, -⟩ := hp
    refine Or.inr ?_
    cases todo with
    | nil => exact ⟨.finish, _, rfl, by simp only [serving, ServeLabel.run, hphase]; rfl⟩
    | cons x todo =>
      cases hx : s.ended x with
      | some how =>
        exact ⟨.join, _, rfl, by simp only [serving, ServeLabel.run, hphase, hx]; rfl⟩
      | none =>
        have hmem : x ∈ boot.handles s.spawned := by
          rw [hhandles]
          exact List.mem_append_right _ List.mem_cons_self
        obtain ⟨i, hi, hcase⟩ := Boot.mem_handles hmem
        cases hrun : (s.tasks i).worker with
        | none =>
          obtain ⟨l, s', hs'⟩ := hinv.loop_can_step hstop hi hrun
          exact ⟨.loop i l, s', rfl, hs'⟩
        | some how =>
          rcases hcase with rfl | ⟨rfl, hdrain⟩
          · refine ⟨.supervise i 0, s.superviseWorker i 0 how, rfl, ?_⟩
            have hsup : i < s.spawned ∧ (s.tasks i).supervisor = none := ⟨hi, hx⟩
            simp only [serving, ServeLabel.run, if_pos hsup, hrun, Option.map_some]
          · have hends : i < s.spawned ∧ boot.hasDrain i = true ∧ (s.tasks i).drain = none ∧
                (TaskEnd.exited = .exited → (s.tasks i).worker ≠ none) :=
              ⟨hi, hdrain, hx, fun _ => by rw [hrun]; simp⟩
            exact ⟨.drainEnds i .exited, _, rfl, if_pos hends⟩
  · rename_i result hphase
    exact Or.inl ⟨result, hphase⟩

/-! ## 5. Whole runs -/

theorem Boot.length_handles (n : Nat) : (boot.handles n).length ≤ 2 * n := by
  induction n with
  | zero => exact Nat.le_refl _
  | succ n ih =>
    have hlast : (boot.handlesOf n).length ≤ 2 := by
      simp only [Boot.handlesOf]
      split <;> simp
    rw [Boot.handles, List.range_succ, List.flatMap_append, List.length_append,
      List.flatMap_singleton]
    rw [Boot.handles] at ih
    omega

theorem Server.stopLeft_le (hs : (serving boot).exec (.start boot db) ls = some s) :
    s.stopLeft boot
      ≤ ∑ i ∈ Finset.range s.spawned, (4 * (boot.dep.workers i).concurrency + 10) + 1 := by
  have hinv := serving_inv hs
  have hentry : ∀ i ∈ Finset.range s.spawned, boot.entryLeft i (s.tasks i) (s.sys.workers i)
      ≤ 4 * (boot.dep.workers i).concurrency + 8 := by
    intro i hi
    have hle : (s.tasks i).stopLeft (boot.dep.workers i).concurrency (s.sys.workers i).phase
        ≤ 4 * (boot.dep.workers i).concurrency + 6 := by
      cases hrun : (s.tasks i).worker with
      | some how =>
        rw [EmitterTasks.stopLeft_of_ended hrun]
        exact Nat.zero_le _
      | none =>
        cases hn : (s.tasks i).notified with
        | true =>
          rw [EmitterTasks.stopLeft_of_notified hrun hn]
          omega
        | false =>
          have hround := (serving_worker hs hrun).2
          rw [EmitterTasks.stopLeft_of_running hrun hn, Nat.mul_add]
          split
          · rename_i hpolling
            rw [WorkerPhase.isPolling_iff.mp (Bool.and_elim_left hpolling)]
            simp only [WorkerPhase.left, WorkerPhase.claimDue]
            omega
          · omega
    have hsup : (if (s.tasks i).supervisor.isSome then 0 else 1) ≤ 1 := by split <;> omega
    have hdrain : (if boot.hasDrain i && (s.tasks i).drain.isNone then 1 else 0) ≤ 1 := by
      split <;> omega
    rw [Boot.entryLeft]
    omega
  have htodo : s.phase.left ≤ 2 * s.spawned + 1 := by
    have hp := hinv.phase
    unfold PhaseInv at hp
    split at hp
    · rename_i hphase; rw [hphase]; exact Nat.zero_le _
    · rename_i hphase; rw [hphase]; exact Nat.zero_le _
    · rename_i why todo panicked hphase
      obtain ⟨-, -, joined, hhandles, -, -⟩ := hp
      have hlength := boot.length_handles s.spawned
      rw [hhandles, List.length_append] at hlength
      rw [hphase]
      simp only [ServePhase.left]
      omega
    · rename_i result hphase; rw [hphase]; exact Nat.zero_le _
  have hsum := Finset.sum_le_sum hentry
  have hten : ∑ i ∈ Finset.range s.spawned, (4 * (boot.dep.workers i).concurrency + 10)
      = ∑ i ∈ Finset.range s.spawned, (4 * (boot.dep.workers i).concurrency + 8)
        + 2 * s.spawned := by
    rw [show (fun i => 4 * (boot.dep.workers i).concurrency + 10)
        = fun i => (4 * (boot.dep.workers i).concurrency + 8) + 2 from rfl,
      Finset.sum_add_distrib, Finset.sum_const, Finset.card_range, smul_eq_mul, Nat.mul_comm]
  rw [Server.stopLeft, hten]
  omega

/-- **The shutdown ends.**  From the moment at which `drain_worker_handles` is entered, after a
shutdown as after a failed start, and whatever the database, the downstreams and everybody else do:
the process takes a bounded number of steps more, each entry at most `4 * concurrency + 10` of them,
and until it has returned there is a step it can take. -/
theorem shutdown_completes {before : List ServeLabel} {s₀ : Server}
    (h₀ : (serving boot).exec (.start boot db) before = some s₀)
    (hending : s₀.phase.ending = true) (h : (serving boot).exec s₀ ls = some s) :
    Lts.total ServeLabel.own ls
        ≤ ∑ i ∈ Finset.range s₀.spawned, (4 * (boot.dep.workers i).concurrency + 10) + 1 ∧
      ((∃ result, s.phase = .returned result) ∨
        ∃ l s', l.orderly = true ∧ (serving boot).step s l = some s') := by
  have hreach : ∃ ls, (serving boot).exec (.start boot db) ls = some s :=
    ⟨before ++ ls, by rw [Lts.exec_append, h₀, Option.bind_some, h]⟩
  have hkeep : s.phase.ending = true :=
    Lts.exec_invariant (M := serving boot) (I := fun s => s.phase.ending = true) hending
      (fun s l s' hI hstep => ((serving_step_cases hstep).ending hI).1) h
  refine ⟨?_, ?_⟩
  · have hle := Lts.ledger_labels (M := serving boot)
      (I := fun s => (∃ ls, (serving boot).exec (.start boot db) ls = some s) ∧
        s.phase.ending = true)
      (B := Server.stopLeft boot) (E := fun _ => 0) (P := ServeLabel.own)
      ⟨⟨before, h₀⟩, hending⟩ ?_ h
    · have hbound := Server.stopLeft_le h₀
      have hzero : Lts.total (fun _ : ServeLabel => 0) ls = 0 := by
        simp [Lts.total]
      omega
    · rintro s l s' ⟨⟨ls, hs⟩, hI⟩ hstep
      have heff := serving_step_cases hstep
      exact ⟨⟨⟨ls ++ [l], Lts.exec_snoc.mpr ⟨s, hs, hstep⟩⟩, (heff.ending hI).1⟩,
        heff.stopLeft hs hI⟩
  · obtain ⟨ls', hs⟩ := hreach
    exact (serving_inv hs).can_step hkeep

end

/-- The signal is sent while the worker sleeps. -/
def stopAsleep : List ServeLabel := [.spawnNext, .up, .signal, .serveEnds (.ok ())]

/-- The worker is woken, and everything ends. -/
def endAll : List ServeLabel :=
  [.loop 0 .changed, .loop 0 .borrow, .supervise 0 0, .drainEnds 0 .exited, .join, .join, .finish]

theorem shutdown_completes_asleep :
    ∃ s₀ s, (serving oneChannel).exec (.start oneChannel .empty) stopAsleep = some s₀ ∧
      s₀.phase.ending = true ∧ (serving oneChannel).exec s₀ endAll = some s ∧
      Lts.total ServeLabel.own endAll = 7 ∧ Lts.total ServeLabel.own endAll ≤
        ∑ i ∈ Finset.range s₀.spawned, (4 * (oneChannel.dep.workers i).concurrency + 10) + 1 ∧
      ((∃ result, s.phase = .returned result) ∨
        ∃ l s', l.orderly = true ∧ (serving oneChannel).step s l = some s') :=
  ⟨_, _, rfl, rfl, rfl, rfl, shutdown_completes
    (show (serving oneChannel).exec (.start oneChannel .empty) stopAsleep = some _ from rfl) rfl rfl⟩

end Hookbox
