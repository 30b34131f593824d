/-
# Backoff and the two clocks

After a failed dispatch the worker computes `Utc::now() + next_delta` on its own host and stores
it as `next_attempt_at`.  `claim_pending` compares that column with `now()` of the database.
`store_with_deliveries` takes the database clock for the same column, and says why.

Write `o` for the offset of the host's clock against the database's and `b` for the delay that
`compute_backoff` returned.  A failure at database time `t` is scheduled for `t + o + b`, and for
`t + o` plus one day when `b` is out of the range of a `chrono::Duration`.

* `system_scheduled`: `next_attempt_at` stays what a mark has made it until a reclaim or a newer
  mark of the row.
* `backoff_respected_iff`: the delay is waited out on every run exactly when the offset is not
  negative and the delay in range (`SafeOffset`, which also lists the odd cases).
* `backoff_not_respected`: a host that is a minute behind.
-/
import Hookbox.System

namespace Hookbox

/-! ## 1. The property and its condition -/

/-- The greatest `chrono::Duration`, `i64::MAX` milliseconds. -/
def chronoMax : Duration := (2 ^ 63 - 1) * 1000

/-- `chrono::Duration::days(1)`. -/
def oneDay : Duration := 86400000000

/-- `chrono::Duration::from_std(backoff)`, with the fallback of `dispatch_one`. -/
def nextDelta (backoff : Duration) : Duration := if backoff ≤ chronoMax then backoff else oneDay

/-- The database time of a failure, seen from a host whose clock is `offset` ahead of the
database's. -/
def MarkInput.failedAt (input : MarkInput) (offset : Int) : Timestamp := input.utcNow - offset

/-- A reclaim of the row, or a mark that took effect on it. -/
def Event.reschedules (id : DeliveryId) : Event → Bool
  | .reclaimed id' => id' = id
  | .marked _ id' _ true => id' = id
  | _ => false

/-- The label claims the row at database time `now`. -/
def Label.ClaimsAt (id : DeliveryId) (now : Timestamp) : Label → Prop
  | .worker _ (.claimPending t _ picked) => t = now ∧ id ∈ picked
  | .worker _ (.claimLost t _ picked) => t = now ∧ id ∈ picked
  | _ => False

/-- **Every delay of `backoff` is waited out**, on every run from `db`.  Worker `i` marks row `id`
failed and the mark takes effect; nothing reschedules the row; then some worker claims it at `now`.
When that is after the failure, it is `backoff` after it. -/
def BackoffRespected (dep : Deployment) (offset : WorkerId → Int) (backoff : Duration)
    (db : Database) : Prop :=
  ∀ (pre mid : List Label) (s s₁ s₂ s₃ : Sys) (i : WorkerId) (id : DeliveryId) (input : MarkInput)
    (outcome : CallOutcome) (c : ClaimId) (attempt : Int32) (nextAt : Timestamp) (err : String)
    (l : Label) (now : Timestamp),
    (system dep).exec (.start dep db) pre = some s →
    (system dep).step s (.worker i (.mark id input outcome)) = some s₁ →
    .marked c id (.failed attempt nextAt err) true
      ∈ (system dep).obs s (.worker i (.mark id input outcome)) →
    input.nextDelta = nextDelta backoff →
    (system dep).exec s₁ mid = some s₂ →
    (∀ ev ∈ (system dep).trace s₁ mid, ev.reschedules id = false) →
    (system dep).step s₂ l = some s₃ → l.ClaimsAt id now →
    input.failedAt (offset i) ≤ now → input.failedAt (offset i) + backoff ≤ now

/-- The offsets that do no harm to a delay. -/
def SafeOffset (offset : Int) (backoff : Duration) : Prop :=
  backoff = 0 ∨ (backoff ≤ chronoMax ∧ 0 ≤ offset) ∨
    (chronoMax < backoff ∧ (backoff : Int) ≤ offset + oneDay)

theorem safeOffset_iff {offset : Int} {backoff : Duration} :
    SafeOffset offset backoff ↔ backoff = 0 ∨ (backoff : Int) ≤ offset + nextDelta backoff := by
  unfold SafeOffset nextDelta
  by_cases h : backoff ≤ chronoMax
  · rw [if_pos h]
    have hnot : ¬ chronoMax < backoff := Nat.not_lt.mpr h
    have hoffset : 0 ≤ offset ↔ (backoff : Int) ≤ offset + backoff := by omega
    simp only [h, hnot, hoffset, true_and, false_and, or_false]
  · rw [if_neg h]
    have hlt : chronoMax < backoff := Nat.lt_of_not_le h
    simp only [h, hlt, true_and, false_and, false_or]

/-! ## 2. The schedule of a row -/

/-- The row is there, and scheduled for `t`. -/
def Database.Scheduled (db : Database) (id : DeliveryId) (t : Timestamp) : Prop :=
  ∃ d ∈ db.deliveries.rows, d.deliveryId = id ∧ d.nextAttemptAt = t

theorem Database.Scheduled.updateDeliveries {db : Database} {id : DeliveryId} {t : Timestamp}
    (h : db.Scheduled id t) {u : DeliveryUpdate}
    (hu : ∀ d ∈ db.deliveries.rows, d.deliveryId = id → (u.run d).nextAttemptAt = d.nextAttemptAt) :
    (db.updateDeliveries u).Scheduled id t := by
  obtain ⟨d, hd, hid, ht⟩ := h
  exact ⟨u.run d, List.mem_map_of_mem hd, by rw [u.run_deliveryId, hid], by rw [hu d hd hid, ht]⟩

/-- **A step keeps the schedule**, unless it reclaims or marks the row. -/
theorem Sys.Effect.scheduled {dep : Deployment} {s s' : Sys} {es : List Event}
    (heff : Sys.Effect dep s s' es) {id : DeliveryId} {t : Timestamp} (h : s.db.Scheduled id t)
    (hes : ∀ ev ∈ es, ev.reschedules id = false) : s'.db.Scheduled id t := by
  cases heff with
  | environment s' es hworkers hdb hes' =>
    obtain ⟨d, hd, hid, ht⟩ := h
    obtain ⟨receiptId, now, names, draw, hrows⟩ := hdb.deliveries
    exact ⟨d, by rw [hrows]; exact List.mem_append_left _ hd, hid, ht⟩
  | worker i o heff =>
    refine Database.Scheduled.updateDeliveries h ?_
    intro d hd hid
    cases heff with
    | quiet | load | call | returned => rfl
    | reclaim w' now hclaims hout =>
      rcases DeliveryUpdate.reclaimExpired_cases (dep.workers i).name (dep.workers i).leaseDuration
        now d with ⟨-, heq⟩ | ⟨hex, -⟩
      · exact congrArg _ heq
      · have hmem : Event.reclaimed d.deliveryId
            ∈ s.db.reclaimEvents (dep.workers i).name (dep.workers i).leaseDuration now :=
          List.mem_map_of_mem (List.mem_filter.mpr ⟨hd, by simpa using hex⟩)
        exact absurd (hes _ hmem) (by simp [Event.reschedules, hid])
    | claim w' now locked picked hclaims hselect hout =>
      rcases hselect.claim_cases hd with ⟨-, heq⟩ | ⟨-, -, heq⟩
      · exact congrArg _ heq
      · show ((DeliveryUpdate.claim picked now).run d).nextAttemptAt = d.nextAttemptAt
        rw [heq]
    | mark w' d' receipt result input hclaims hd' hout hfuture =>
      rcases DeliveryUpdate.mark_cases d'.deliveryId (dispatchMark (dep.workers i) d' result input) d
        with ⟨-, heq⟩ | ⟨hsame, hst, -⟩
      · exact congrArg _ heq
      · have htook : s.db.inFlight d'.deliveryId = true :=
          Database.inFlight_iff.mpr ⟨d, hd, hsame, hst⟩
        have hev := hes _ (List.mem_singleton_self _)
        rw [htook] at hev
        exact absurd hev (by simp [Event.reschedules, ← hsame, hid])

/-- **A run keeps the schedule** of a row that it neither reclaims nor marks. -/
theorem system_scheduled {dep : Deployment} {s s' : Sys} {ls : List Label} {id : DeliveryId}
    {t : Timestamp} (h : s.db.Scheduled id t) (he : (system dep).exec s ls = some s')
    (hes : ∀ ev ∈ (system dep).trace s ls, ev.reschedules id = false) : s'.db.Scheduled id t := by
  induction ls generalizing s with
  | nil =>
    rw [Lts.exec_nil, Option.some.injEq] at he
    exact he ▸ h
  | cons l ls ih =>
    obtain ⟨s₁, hs₁, hrest⟩ := Lts.exec_cons_eq_some.mp he
    rw [Lts.trace_cons hs₁] at hes
    refine ih ?_ hrest fun ev hev => hes ev (List.mem_append_right _ hev)
    exact (system_step_cases hs₁).scheduled h fun ev hev => hes ev (List.mem_append_left _ hev)

/-- The time that `dispatch_one` hands to `mark_failed`. -/
theorem nextAttemptAt_of_dispatchMark {cfg : WorkerConfig} {d row : WebhookDelivery}
    {result : Except EmitError Unit} {input : MarkInput} {attempt : Int32} {nextAt : Timestamp}
    {err : String} (h : .failed attempt nextAt err = dispatchMark cfg d result input) :
    (DeliveryUpdate.Mark.set (.failed attempt nextAt err) row).nextAttemptAt
      = input.utcNow + input.nextDelta := by
  simp only [dispatchMark] at h
  split at h
  · exact absurd h (by simp)
  · split at h
    · exact absurd h (by simp)
    · cases h
      rfl

/-- A failure mark that takes effect schedules the row by the clock of the host. -/
theorem scheduled_of_mark {dep : Deployment} {s s' : Sys} {i : WorkerId} {id : DeliveryId}
    {input : MarkInput} {outcome : CallOutcome} {c : ClaimId} {attempt : Int32}
    {nextAt : Timestamp} {err : String}
    (hstep : (system dep).step s (.worker i (.mark id input outcome)) = some s')
    (hev : .marked c id (.failed attempt nextAt err) true
      ∈ (system dep).obs s (.worker i (.mark id input outcome))) :
    s'.db.Scheduled id (input.utcNow + input.nextDelta) := by
  obtain ⟨o, ho, rfl⟩ := Option.map_eq_some_iff.mp hstep
  have hobs : (system dep).obs s (.worker i (.mark id input outcome)) = o.events := by
    simp [system, Label.obs, ho]
  rw [hobs] at hev
  obtain ⟨batch, d, receipt, result, -, -, next, -, -, -, ⟨-, rfl⟩ | ⟨-, rfl⟩⟩ :=
    WorkerStep.run_mark ho
  · exact absurd hev List.not_mem_nil
  · simp only [List.mem_singleton, Event.marked.injEq, true_and] at hev
    obtain ⟨-, hmark, htook⟩ := hev
    obtain ⟨row, hrow, hid, hst⟩ := Database.inFlight_iff.mp htook.symm
    refine ⟨_, List.mem_map_of_mem hrow, ?_, ?_⟩
    · rw [DeliveryUpdate.run_deliveryId, hid]
    · rw [DeliveryUpdate.mark_run, if_pos ⟨hid, hst⟩, ← hmark]
      exact nextAttemptAt_of_dispatchMark hmark

/-- A claim picks a row that is due. -/
theorem due_of_claim {dep : Deployment} {s s' : Sys} {l : Label} {id : DeliveryId}
    {now t : Timestamp} (h : s.db.Scheduled id t) (hstep : (system dep).step s l = some s')
    (hclaim : l.ClaimsAt id now) : t ≤ now := by
  obtain ⟨d, hd, rfl, rfl⟩ := h
  unfold Label.ClaimsAt at hclaim
  split at hclaim
  case h_3 => exact hclaim.elim
  all_goals
    obtain ⟨rfl, hpicked⟩ := hclaim
    obtain ⟨o, ho, -⟩ := Option.map_eq_some_iff.mp hstep
    simp only [Sys.workerRun, WorkerStep.run] at ho
    split at ho
    · split at ho
      · rename_i hc
        exact (hc.2.eligible hd hpicked).2.2.1
      · exact absurd ho (by simp)
    · exact absurd ho (by simp)

/-- A safe offset is enough, whatever the deployment. -/
theorem respected_of_safe {offset : WorkerId → Int} {backoff : Duration}
    (hsafe : ∀ i, SafeOffset (offset i) backoff) (dep : Deployment) (db : Database) :
    BackoffRespected dep offset backoff db := by
  intro pre mid s s₁ s₂ s₃ i id input outcome c attempt nextAt err l now hpre hmark hev hdelta hmid
    hquiet hclaim hat hafter
  have hdue : input.utcNow + input.nextDelta ≤ now :=
    due_of_claim (system_scheduled (scheduled_of_mark hmark hev) hmid hquiet) hclaim hat
  rw [hdelta] at hdue
  rcases safeOffset_iff.mp (hsafe i) with hzero | hle
  · rw [hzero]
    simpa using hafter
  · calc input.failedAt (offset i) + (backoff : Int)
        ≤ input.utcNow - offset i + (offset i + nextDelta backoff) := add_le_add_right hle _
      _ = input.utcNow + nextDelta backoff := by ring
      _ ≤ now := hdue

/-! ## 3. A worker on its own -/

/-- One worker, as a machine. -/
def workerMachine (cfg : WorkerConfig) (i : WorkerId) :
    Lts (Database × WorkerState) WorkerStep Event where
  step s step := (step.run cfg i s.1 s.2).map fun o => (s.1.updateDeliveries o.update, o.next)
  obs s step := ((step.run cfg i s.1 s.2).map (·.events)).getD []

/-- What the machine of a worker sees of the system. -/
def Sys.ofWorker (s : Sys) (i : WorkerId) : Database × WorkerState := (s.db, s.workers i)

section Alone

variable {dep : Deployment} {i : WorkerId}

theorem step_worker {s : Sys} {step : WorkerStep} {t : Database × WorkerState}
    (h : (workerMachine (dep.workers i) i).step (s.ofWorker i) step = some t) :
    ∃ s', (system dep).step s (.worker i step) = some s' ∧ s'.ofWorker i = t := by
  obtain ⟨o, ho, rfl⟩ := Option.map_eq_some_iff.mp h
  refine ⟨s.afterWorker i o, Option.map_eq_some_iff.mpr ⟨o, ho, rfl⟩, ?_⟩
  rw [Sys.ofWorker, Sys.afterWorker_self]
  rfl

/-- **A run of one worker is a run of the system**, in which the other parties wait. -/
theorem exec_worker {steps : List WorkerStep} {s : Sys} {t : Database × WorkerState}
    (h : (workerMachine (dep.workers i) i).exec (s.ofWorker i) steps = some t) :
    ∃ s', (system dep).exec s (steps.map (.worker i)) = some s' ∧ s'.ofWorker i = t ∧
      (system dep).trace s (steps.map (.worker i))
        = (workerMachine (dep.workers i) i).trace (s.ofWorker i) steps := by
  induction steps generalizing s with
  | nil =>
    rw [Lts.exec_nil, Option.some.injEq] at h
    exact ⟨s, rfl, h, rfl⟩
  | cons step steps ih =>
    obtain ⟨t₁, ht₁, hrest⟩ := Lts.exec_cons_eq_some.mp h
    obtain ⟨s₁, hs₁, rfl⟩ := step_worker ht₁
    obtain ⟨s', hs', ht, htrace⟩ := ih hrest
    refine ⟨s', Lts.exec_cons_eq_some.mpr ⟨s₁, hs₁, hs'⟩, ht, ?_⟩
    rw [List.map_cons, Lts.trace_cons hs₁, Lts.trace_cons ht₁, htrace]
    rfl

/-- A worker that has come to its claim can make any claim the database allows. -/
theorem claim_enabled {s : Sys} {now : Timestamp} {locked picked : List DeliveryId}
    (hphase : (s.workers i).phase = .claiming) (hlimit : (dep.workers i).LimitOk)
    (hselect : s.db.ClaimSelect (dep.workers i).name (dep.workers i).concurrency now locked picked) :
    ∃ s', (system dep).step s (.worker i (.claimPending now locked picked)) = some s' := by
  cases ho : s.workerRun dep i (.claimPending now locked picked) with
  | some o => exact ⟨s.afterWorker i o, Option.map_eq_some_iff.mpr ⟨o, ho, rfl⟩⟩
  | none => simp [Sys.workerRun, WorkerStep.run, hphase, hlimit, hselect] at ho

end Alone

/-! ## 4. An offset that does harm -/

/-- The worker's steps up to the failure of its first dispatch. -/
def failOnce : List WorkerStep :=
  [.wake, .reclaimExpired 0, .claimPending 0 [] [⟨0⟩], .loadReceipt, .callEmit ⟨0⟩,
    .emitReturned ⟨0⟩ (.error (.timeout ""))]

/-- The worker's steps from the mark to the next claim. -/
def goRound : List WorkerStep := [.refreshGauges 0 false false 0 false, .wake, .reclaimFailed]

/-- The failed row of that run. -/
def failedRow (nextAttemptAt : Timestamp) : WebhookDelivery where
  deliveryId := ⟨0⟩
  receiptId := ⟨1⟩
  emitterName := "kafka"
  state := .failed
  attemptCount := 1
  lastError := some "emit timeout: "
  lastAttemptAt := some 0
  nextAttemptAt := nextAttemptAt
  emittedAt := none
  immutable := false
  createdAt := 0

/-- A row alone in its table is claimed as soon as it is due. -/
theorem claimSelect_failedRow {db : Database} {t now : Timestamp}
    (hrows : db.deliveries.rows = [failedRow t]) (hdue : t ≤ now) :
    db.ClaimSelect "kafka" 1 now [] [⟨0⟩] := by
  have hcandidates : db.candidates "kafka" now [] = [failedRow t] := by
    rw [Database.candidates, hrows]
    simp [Database.Eligible, failedRow, hdue]
  have hselect : db.ClaimSelect "kafka" 1 now []
      ((db.candidates "kafka" now []).map (·.deliveryId)) :=
    exists_claimSelect (by rw [hcandidates]; simp)
  rwa [hcandidates] at hselect

section Harm

variable (i : WorkerId) (utcNow : Timestamp) (delta : Duration)

/-- The mark of that run. -/
def failureMark : WorkerStep := .mark ⟨0⟩ ⟨0, utcNow, delta, 0, 0⟩ .ok

/-- The first dispatch of a worker fails, and the worker comes round to its next claim. -/
theorem exists_failure :
    ∃ s₀ t₁ t₂ t₃ c, (system sampleDep).exec (.start sampleDep .empty) acceptOne = some s₀ ∧
      (workerMachine (sampleDep.workers i) i).exec (s₀.ofWorker i) failOnce = some t₁ ∧
      (workerMachine (sampleDep.workers i) i).step t₁ (failureMark utcNow delta) = some t₂ ∧
      .marked c ⟨0⟩ (.failed 1 (utcNow + delta) "emit timeout: ") true
        ∈ (workerMachine (sampleDep.workers i) i).obs t₁ (failureMark utcNow delta) ∧
      (workerMachine (sampleDep.workers i) i).exec t₂ goRound = some t₃ ∧
      (workerMachine (sampleDep.workers i) i).trace t₂ goRound = [] ∧
      t₃.1.deliveries.rows = [failedRow (utcNow + delta)] ∧ t₃.2.phase = .claiming := by
  refine ⟨_, _, _, _, ⟨i, 1⟩, rfl, rfl, rfl, ?_, rfl, rfl, rfl, rfl⟩
  exact List.mem_singleton.mpr rfl

end Harm

/-- An offset that is not safe lets a row be claimed too early. -/
theorem not_respected {offset : WorkerId → Int} {backoff : Duration} {i : WorkerId}
    (hbad : ¬ SafeOffset (offset i) backoff) :
    ¬ BackoffRespected sampleDep offset backoff .empty := by
  intro h
  obtain ⟨hpos, hlt⟩ := not_or.mp (mt safeOffset_iff.mpr hbad)
  -- The failure is at database time 0, and the row is due before `backoff`.
  let now : Timestamp := max 0 (offset i + nextDelta backoff)
  obtain ⟨s₀, t₁, t₂, t₃, c, hs₀, h₁, h₂, hev, h₃, htrace, hrows, hphase⟩ :=
    exists_failure i (offset i) (nextDelta backoff)
  obtain ⟨s₁, hs₁, rfl, -⟩ := exec_worker h₁
  obtain ⟨s₂, hs₂, rfl⟩ := step_worker h₂
  obtain ⟨s₃, hs₃, rfl, htr⟩ := exec_worker h₃
  have hselect := claimSelect_failedRow hrows (le_max_right 0 (offset i + (nextDelta backoff : Int)))
  have hlimit : (sampleDep.workers i).LimitOk := show 1 < 2 ^ 63 by decide
  obtain ⟨s₄, hs₄⟩ := claim_enabled hphase hlimit hselect
  have hpre : (system sampleDep).exec (.start sampleDep .empty)
      (acceptOne ++ failOnce.map (.worker i)) = some s₁ := by
    rw [Lts.exec_append, hs₀, Option.bind_some, hs₁]
  have hearly := h _ _ s₁ s₂ s₃ s₄ i ⟨0⟩ _ .ok c 1 _ _ _ now hpre hs₂ hev rfl hs₃
    (by rw [htr, htrace]; simp) hs₄ ⟨rfl, List.mem_singleton_self _⟩
  have hfailed : (offset i : Int) - offset i = 0 := sub_self _
  simp only [MarkInput.failedAt, hfailed, zero_add] at hearly
  rcases le_max_iff.mp (hearly (le_max_left _ _)) with hzero | hdue
  · exact hpos (Nat.le_zero.mp (Int.ofNat_le.mp hzero))
  · exact hlt hdue

/-- **Backoff and clock offset.**  For every offset of each worker's host against the database and
every delay: the delay is waited out on every run of every deployment if and only if every offset
is safe for it. -/
theorem backoff_respected_iff (offset : WorkerId → Int) (backoff : Duration) :
    (∀ dep db, BackoffRespected dep offset backoff db) ↔ ∀ i, SafeOffset (offset i) backoff := by
  constructor
  · intro h i
    by_contra hbad
    exact not_respected hbad (h sampleDep .empty)
  · exact fun hsafe dep db => respected_of_safe hsafe dep db

/-- **A host one minute behind**: a delay of 30 seconds is not waited out. -/
theorem backoff_not_respected :
    ¬ BackoffRespected sampleDep (fun _ => -60000000) 30000000 .empty := by
  refine not_respected (i := 0) ?_
  rw [safeOffset_iff]
  decide

end Hookbox
