/-
# The health snapshot under concurrency

The futures of a batch and `refresh_gauges` all load, change and store one snapshot
(`EmitterWorker::update_health`, `refresh_gauges`), and none of them takes a lock.  A comment in the
source expects two of them to race.  They cannot: they are futures of one task, and from the load to
the store there is no await.

* `healthFutures`: the futures, one access of the snapshot after the other.
* `snapshot_eq_foldl`: the snapshot is what the writes so far make of it, one after the other.
* `reports`: what the answers of the emitter and the completions of the futures say the snapshot
  should be made of.
* `health_exact`: it is made of them, so the counters and the status say exactly what has happened.
* `WorkerStep.reports_eq`: a step of the worker writes what its own answers and completions say, so the
  snapshot of the worker machine is exact too (`system_health_exact`).
-/
import Mathlib.Data.List.DropRight
import Hookbox.Lib.Cooperative
import Hookbox.System

namespace Hookbox

/-! ## 1. The futures -/

/-- What is written to the snapshot, with the clock readings of the write. -/
inductive HealthWrite where
  /-- `update_health`, at the end of a dispatch. -/
  | outcome (success : Bool) (utcNow statusNow : Timestamp)
  /-- The end of `refresh_gauges`. -/
  | gauges (dlq pending : Nat) (statusNow : Timestamp)
deriving DecidableEq

/-- The clock reading of `derive_status`. -/
def HealthWrite.statusNow : HealthWrite → Timestamp
  | outcome _ _ statusNow => statusNow
  | gauges _ _ statusNow => statusNow

def HealthWrite.apply (health : EmitterHealth) : HealthWrite → EmitterHealth
  | outcome success utcNow statusNow => health.update success utcNow statusNow
  | gauges dlq pending statusNow => health.refresh dlq pending statusNow

/-- A write before it has read the clock. -/
inductive HealthEdit where
  | outcome (success : Bool)
  | gauges (dlq pending : Nat)

def HealthEdit.at (utcNow statusNow : Timestamp) : HealthEdit → HealthWrite
  | outcome success => .outcome success utcNow statusNow
  | gauges dlq pending => .gauges dlq pending statusNow

/-- Where a `dispatch_one` or a `refresh_gauges` is in its code. -/
inductive HealthFuture where
  /-- `emitter.emit(..).await`. -/
  | emitting
  /-- `storage.mark_*(..).await`. -/
  | marking (success : Bool)
  /-- `storage.count_dlq(..).await` and the two after it. -/
  | countingDlq
  | countingPending (dlq : Nat)
  | countingInFlight (dlq pending : Nat)
  /-- Before `health.load()`. -/
  | editing (edit : HealthEdit)
  | loaded (edit : HealthEdit) (current : EmitterHealth)
  /-- `next` is a copy of what was loaded, which is changed and stored. -/
  | cloned (edit : HealthEdit) (next : EmitterHealth)
  | done

inductive HealthInput where
  | emitted (success : Bool)
  | marked
  /-- The count, or `0` when the query failed. -/
  | counted (n : Nat)
  | load
  | clone
  /-- `health.store(..)`, and the clock readings that went into `next`. -/
  | store (utcNow statusNow : Timestamp)

def HealthFuture.yields : HealthFuture → Bool
  | editing _ => false
  | loaded _ _ => false
  | cloned _ _ => false
  | _ => true

def HealthFuture.step (health : EmitterHealth) :
    HealthFuture → HealthInput → Option (HealthFuture × EmitterHealth)
  | emitting, .emitted success => some (marking success, health)
  | marking success, .marked => some (editing (.outcome success), health)
  | countingDlq, .counted dlq => some (countingPending dlq, health)
  | countingPending dlq, .counted pending => some (countingInFlight dlq pending, health)
  -- The third count is a gauge for the operator only.
  | countingInFlight dlq pending, .counted _ => some (editing (.gauges dlq pending), health)
  | editing edit, .load => some (loaded edit health, health)
  | loaded edit current, .clone => some (cloned edit current, health)
  | cloned edit next, .store utcNow statusNow => some (done, (edit.at utcNow statusNow).apply next)
  | _, _ => none

/-- The writes that a step stores. -/
def HealthFuture.obs : HealthFuture → HealthInput → List HealthWrite
  | cloned edit _, .store utcNow statusNow => [edit.at utcNow statusNow]
  | _, _ => []

/-- The futures of a worker: any number of dispatches and refreshes. -/
def healthFutures : Cooperative HealthFuture EmitterHealth HealthInput HealthWrite where
  step t health x := t.step health x
  obs t _ x := t.obs x
  yields := HealthFuture.yields

/-! ## 2. No write is lost -/

/-- **What a step does.**  Between two awaits a future loads the snapshot, copies it, and stores the
copy with a write applied to it. -/
theorem HealthFuture.step_cases {t t' : HealthFuture} {health health' : EmitterHealth}
    {x : HealthInput} (h : t.step health x = some (t', health')) :
    (t.yields = true ∧ (t'.yields = true ∨ ∃ edit, t' = editing edit) ∧ health' = health ∧
        t.obs x = []) ∨
      (∃ edit, t = editing edit ∧ t' = loaded edit health ∧ health' = health ∧ t.obs x = []) ∨
      (∃ edit current, t = loaded edit current ∧ t' = cloned edit current ∧ health' = health ∧
        t.obs x = []) ∨
      ∃ edit next write, t = cloned edit next ∧ t' = done ∧ health' = write.apply next ∧
        t.obs x = [write] := by
  unfold step at h
  split at h
  · cases h
    exact Or.inl ⟨rfl, Or.inl rfl, rfl, rfl⟩
  · cases h
    exact Or.inl ⟨rfl, Or.inr ⟨_, rfl⟩, rfl, rfl⟩
  · cases h
    exact Or.inl ⟨rfl, Or.inl rfl, rfl, rfl⟩
  · cases h
    exact Or.inl ⟨rfl, Or.inl rfl, rfl, rfl⟩
  · cases h
    exact Or.inl ⟨rfl, Or.inr ⟨_, rfl⟩, rfl, rfl⟩
  · cases h
    exact Or.inr (Or.inl ⟨_, rfl, rfl, rfl, rfl⟩)
  · cases h
    exact Or.inr (Or.inr (Or.inl ⟨_, _, rfl, rfl, rfl, rfl⟩))
  · cases h
    exact Or.inr (Or.inr (Or.inr ⟨_, _, _, rfl, rfl, rfl, rfl⟩))
  · cases h

/-- What a future has done since its last await: it has stored nothing, and what it has loaded is the
snapshot that is still there. -/
theorem health_partial {t₀ t : HealthFuture} {health₀ health : EmitterHealth}
    {es : List HealthWrite} (h : healthFutures.Partial t₀ health₀ es t health)
    (hy : t₀.yields = true) :
    es = [] ∧ health = health₀ ∧ (t = t₀ ∨ (∃ edit, t = .editing edit) ∨
      (∃ edit, t = .loaded edit health₀) ∨ ∃ edit, t = .cloned edit health₀) := by
  induction h with
  | refl => exact ⟨rfl, rfl, Or.inl rfl⟩
  | snoc _ hstep hgo ih =>
    obtain ⟨rfl, rfl, ht⟩ := ih
    rcases HealthFuture.step_cases hstep with ⟨-, hnext, rfl, hobs⟩ |
      ⟨edit, -, rfl, rfl, hobs⟩ | ⟨edit, current, rfl, rfl, rfl, hobs⟩ |
      ⟨edit, next, write, -, rfl, -, -⟩
    · have hbusy : HealthFuture.yields _ = false := hgo
      refine ⟨hobs, rfl, Or.inr (Or.inl (hnext.resolve_left fun hrest => ?_))⟩
      rw [hbusy] at hrest
      cases hrest
    · exact ⟨hobs, rfl, Or.inr (Or.inr (Or.inl ⟨edit, rfl⟩))⟩
    · refine ⟨hobs, rfl, Or.inr (Or.inr (Or.inr ⟨edit, ?_⟩))⟩
      rcases ht with rfl | ⟨edit', heq⟩ | ⟨edit', heq⟩ | ⟨edit', heq⟩
      · cases hy
      · cases heq
      · cases heq
        rfl
      · cases heq
    · cases hgo

/-- **A section is atomic**: it stores nothing, or it applies one write to the snapshot it found. -/
theorem health_section {t₀ t : HealthFuture} {health₀ health : EmitterHealth}
    {es : List HealthWrite} (h : healthFutures.Section t₀ health₀ es t health)
    (hy : t₀.yields = true) :
    t.yields = true ∧ ((es = [] ∧ health = health₀) ∨
      ∃ write, es = [write] ∧ health = write.apply health₀) := by
  cases h with
  | mk hpart hstep hyields =>
    obtain ⟨rfl, rfl, ht⟩ := health_partial hpart hy
    refine ⟨hyields, ?_⟩
    rcases HealthFuture.step_cases hstep with ⟨-, -, rfl, hobs⟩ | ⟨edit, -, rfl, -, -⟩ |
      ⟨edit, current, -, rfl, -, -⟩ | ⟨edit, next, write, rfl, rfl, rfl, hobs⟩
    · exact Or.inl ⟨hobs, rfl⟩
    · cases hyields
    · cases hyields
    · refine Or.inr ⟨write, hobs, ?_⟩
      rcases ht with rfl | ⟨edit', heq⟩ | ⟨edit', heq⟩ | ⟨edit', heq⟩
      · cases hy
      · cases heq
      · cases heq
      · cases heq
        rfl

/-- The futures of a worker, all of them at an await, over its first snapshot. -/
abbrev HealthState := Cooperative.State Nat HealthFuture EmitterHealth

/-- Between two sections all futures are at an await, and the snapshot is what the writes of `log` make
of the first one. -/
def WritesKept (health : EmitterHealth) (log : List HealthWrite) (futures : Nat → HealthFuture)
    (current : EmitterHealth) : Prop :=
  (∀ k, (futures k).yields = true) ∧ current = log.foldl HealthWrite.apply health

theorem WritesKept.of_section {health current next : EmitterHealth} {log es : List HealthWrite}
    {futures : Nat → HealthFuture} {k : Nat} {t : HealthFuture}
    (h : WritesKept health log futures current)
    (hsection : healthFutures.Section (futures k) current es t next) :
    WritesKept health (log ++ es) (Function.update futures k t) next := by
  obtain ⟨hy, rfl⟩ := h
  obtain ⟨ht, hwrite⟩ := health_section hsection (hy k)
  refine ⟨fun j => ?_, ?_⟩
  · by_cases hj : j = k
    · rw [hj, Function.update_self]
      exact ht
    · rw [Function.update_of_ne hj]
      exact hy j
  · rcases hwrite with ⟨rfl, rfl⟩ | ⟨write, rfl, rfl⟩
    · rw [List.append_nil]
    · rw [List.foldl_append, List.foldl_cons, List.foldl_nil]

/-- **No write is lost.**  At every moment, also while a future has the thread, the snapshot is what
the writes stored so far make of the first one, each applied to what the one before it left. -/
theorem snapshot_eq_foldl {futures : Nat → HealthFuture} (hstart : ∀ k, (futures k).yields = true)
    {health : EmitterHealth} {ls : List (Nat × HealthInput)} {s : HealthState}
    (h : (healthFutures.machine Nat).exec (.start futures health) ls = some s) :
    s.shared = ((healthFutures.machine Nat).trace (.start futures health) ls).foldl
      HealthWrite.apply health := by
  have hstart : WritesKept health [] futures health := ⟨hstart, rfl⟩
  have hrun := Cooperative.machine_induction hstart
    (fun log fs v k es t v' hkept hsection => hkept.of_section hsection) h
  cases hrun with
  | rest hI hfree => exact hI.2
  | inside h₀ es fs v k hI hbusy hhist hfut hpart =>
    obtain ⟨rfl, hshared, -⟩ := health_partial hpart (hI.1 k)
    rw [hhist, List.append_nil, hshared]
    exact hI.2

/-! ## 3. What has happened

The outcome of a dispatch is what its `emit` answered, and it counts from when the dispatch has
completed: from then on its outcome is in the snapshot, and not before. -/

/-- What can be seen of the futures `κ` from outside. -/
inductive HealthEvent (κ : Type) where
  /-- The `emit` of a `dispatch_one` has returned. -/
  | emitted (k : κ) (success : Bool)
  /-- The `dispatch_one` has completed; the clock readings are those of its `update_health`. -/
  | completed (k : κ) (utcNow statusNow : Timestamp)
  /-- A `refresh_gauges` has completed. -/
  | refreshed (statusNow : Timestamp)

/-- What the snapshot owes to one completion: the outcome of a dispatch with its time, and the time of
the status. -/
structure HealthReport where
  outcome? : Option (Bool × Timestamp)
  statusNow : Timestamp

section Reports

variable {κ : Type} [DecidableEq κ]

/-- The latest answer to the `emit` of `k`. -/
def answer (k : κ) (history : List (HealthEvent κ)) : Option Bool :=
  (history.filterMap fun
    | .emitted j success => if j = k then some success else none
    | _ => none).getLast?

def HealthEvent.report (past : List (HealthEvent κ)) : HealthEvent κ → List HealthReport
  | emitted _ _ => []
  | completed k utcNow statusNow => [⟨(answer k past).map (·, utcNow), statusNow⟩]
  | refreshed statusNow => [⟨none, statusNow⟩]

/-- The reports of `events`, which have happened after `past`. -/
def reportsAfter (past : List (HealthEvent κ)) : List (HealthEvent κ) → List HealthReport
  | [] => []
  | event :: events => event.report past ++ reportsAfter (past ++ [event]) events

/-- The completions of a history, in their order, with the outcome that was answered. -/
def reports (history : List (HealthEvent κ)) : List HealthReport := reportsAfter [] history

theorem reportsAfter_append (past history events : List (HealthEvent κ)) :
    reportsAfter past (history ++ events) =
      reportsAfter past history ++ reportsAfter (past ++ history) events := by
  induction history generalizing past with
  | nil => simp [reportsAfter]
  | cons event history ih =>
    simp only [List.cons_append, reportsAfter]
    rw [ih, List.append_assoc, List.append_assoc, List.singleton_append]

theorem reports_append (history events : List (HealthEvent κ)) :
    reports (history ++ events) = reports history ++ reportsAfter history events := by
  rw [reports, reportsAfter_append, List.nil_append]
  rfl

theorem answer_append_emitted (k j : κ) (history : List (HealthEvent κ)) (success : Bool) :
    answer k (history ++ [.emitted j success]) =
      if j = k then some success else answer k history := by
  by_cases hj : j = k <;> simp [answer, hj]

theorem answer_append_of_forall (k : κ) (history : List (HealthEvent κ))
    {events : List (HealthEvent κ)} (h : ∀ success, .emitted k success ∉ events) :
    answer k (history ++ events) = answer k history := by
  have hnone : (events.filterMap fun
      | .emitted j success => if j = k then some success else none
      | _ => none) = [] := by
    refine List.filterMap_eq_nil_iff.mpr fun event hevent => ?_
    cases event with
    | emitted j success =>
      refine if_neg fun hj => h success ?_
      rw [← hj]
      exact hevent
    | completed j utcNow statusNow => rfl
    | refreshed statusNow => rfl
  rw [answer, List.filterMap_append, hnone, List.append_nil]
  rfl

/-- Only a completion of a dispatch reports an outcome. -/
theorem outcome?_eq_none_of_mem {past events : List (HealthEvent κ)}
    (h : ∀ k utcNow statusNow, .completed k utcNow statusNow ∉ events) {report : HealthReport}
    (hreport : report ∈ reportsAfter past events) : report.outcome? = none := by
  induction events generalizing past with
  | nil => cases hreport
  | cons event events ih =>
    rcases List.mem_append.mp hreport with hmem | hmem
    · cases event with
      | emitted k success => cases hmem
      | completed k utcNow statusNow => exact absurd List.mem_cons_self (h k utcNow statusNow)
      | refreshed statusNow =>
        obtain rfl := List.mem_singleton.mp hmem
        rfl
    · exact ih (fun k u t hcompleted => h k u t (List.mem_cons_of_mem _ hcompleted)) hmem

/-- An answer was given. -/
theorem mem_of_answer {k : κ} {history : List (HealthEvent κ)} {success : Bool}
    (h : answer k history = some success) : .emitted k success ∈ history := by
  obtain ⟨event, hevent, hsome⟩ := List.mem_filterMap.mp (List.mem_of_getLast? h)
  cases event with
  | emitted j result =>
    simp only [Option.ite_none_right_eq_some, Option.some.injEq] at hsome
    obtain ⟨rfl, rfl⟩ := hsome
    exact hevent
  | completed j utcNow statusNow => cases hsome
  | refreshed statusNow => cases hsome

end Reports

/-! ## 4. What the snapshot says -/

/-- The dispatches completed, in the order of their completion. -/
def outcomes (log : List HealthReport) : List (Bool × Timestamp) :=
  log.filterMap HealthReport.outcome?

/-- The failed dispatches since the last successful one. -/
def failuresSince (log : List HealthReport) : Nat := ((outcomes log).rtakeWhile fun o => !o.1).length

/-- The time of the latest success, or failure. -/
def lastTime (success : Bool) (log : List HealthReport) : Option Timestamp :=
  ((outcomes log).filter fun o => o.1 = success).getLast?.map Prod.snd

/-- The status after that many failures, the latest one at `lastFailure`, at time `T`. -/
def statusAt (failures : Nat) (lastFailure : Option Timestamp) (T : Timestamp) : HealthStatus :=
  if 10 ≤ failures then .unhealthy
  else if lastFailure.any fun t => T - t < 60 * 1000000 then .degraded
  else .healthy

/-- The parts of the snapshot that only a completed dispatch changes. -/
def EmitterHealth.counters (health : EmitterHealth) :
    UInt32 × Option Timestamp × Option Timestamp :=
  (health.consecutiveFailures, health.lastSuccessAt, health.lastFailureAt)

/-- **The snapshot is exact** after the completions `log`. -/
structure HealthExact (log : List HealthReport) (health : EmitterHealth) : Prop where
  failures : health.consecutiveFailures.toNat = failuresSince log
  lastSuccess : health.lastSuccessAt = lastTime true log
  lastFailure : health.lastFailureAt = lastTime false log
  initial : log = [] → health.status = .healthy
  status : ∀ report, log.getLast? = some report →
    health.status = statusAt (failuresSince log) (lastTime false log) report.statusNow

/-- The number of failed dispatches. -/
def failureCount (log : List HealthReport) : Nat := (outcomes log).countP fun o => !o.1

/-- What a write reports. -/
def HealthWrite.report : HealthWrite → HealthReport
  | outcome success utcNow statusNow => ⟨some (success, utcNow), statusNow⟩
  | gauges _ _ statusNow => ⟨none, statusNow⟩

/-- `num_seconds` rounds towards zero, so it is below 60 exactly when the 60 seconds are not over. -/
theorem numSeconds_lt_iff (x : Int) : Int.tdiv x 1000000 < 60 ↔ x < 60 * 1000000 := by
  constructor
  · exact Int.lt_mul_of_tdiv_lt (by decide)
  · intro h
    rcases Int.le_total 0 x with hx | hx
    · have := Int.mul_tdiv_self_le (k := 1000000) hx
      omega
    · have : Int.tdiv x 1000000 ≤ Int.tdiv 0 1000000 := Int.tdiv_le_tdiv (by decide) hx
      rw [Int.zero_tdiv] at this
      omega

theorem deriveStatus_eq (failures : UInt32) (lastFailure : Option Timestamp) (T : Timestamp) :
    deriveStatus failures lastFailure T = statusAt failures.toNat lastFailure T := by
  have hten : failures ≥ 10 ↔ 10 ≤ failures.toNat := UInt32.le_iff_toNat_le
  have hminute (t : Timestamp) : Int.tdiv (T - t) 1000000 < 60 ↔ T - t < 60 * 1000000 :=
    numSeconds_lt_iff (T - t)
  simp only [deriveStatus, statusAt, hten, hminute]

/-! ## 5. What a write keeps -/

theorem outcomes_append (log more : List HealthReport) :
    outcomes (log ++ more) = outcomes log ++ outcomes more := List.filterMap_append

theorem failureCount_append (log more : List HealthReport) :
    failureCount (log ++ more) = failureCount log + failureCount more := by
  rw [failureCount, outcomes_append, List.countP_append]
  rfl

/-- The failures since the last success are some of the failures. -/
theorem failuresSince_le (log : List HealthReport) : failuresSince log ≤ failureCount log := by
  have hall := List.countP_eq_length.mpr fun o (ho : o ∈ (outcomes log).rtakeWhile fun o => !o.1) =>
    List.mem_rtakeWhile_imp ho
  rw [failuresSince, ← hall]
  exact (List.rtakeWhile_suffix _ _).sublist.countP_le

theorem outcomes_snoc (log : List HealthReport) (write : HealthWrite) :
    outcomes (log ++ [write.report]) =
      match write with
      | .outcome result utcNow _ => outcomes log ++ [(result, utcNow)]
      | .gauges _ _ _ => outcomes log := by
  rw [outcomes_append]
  cases write with
  | outcome result utcNow statusNow => rfl
  | gauges dlq pending statusNow => exact List.append_nil _

theorem lastTime_snoc (success : Bool) (log : List HealthReport) (write : HealthWrite) :
    lastTime success (log ++ [write.report]) =
      match write with
      | .outcome result utcNow _ => if result = success then some utcNow else lastTime success log
      | .gauges _ _ _ => lastTime success log := by
  rw [lastTime, outcomes_snoc]
  cases write with
  | outcome result utcNow statusNow =>
    by_cases h : result = success <;> simp [lastTime, List.filter_append, h]
  | gauges dlq pending statusNow => rfl

theorem failuresSince_snoc (log : List HealthReport) (write : HealthWrite) :
    failuresSince (log ++ [write.report]) =
      match write with
      | .outcome result _ _ => if result then 0 else failuresSince log + 1
      | .gauges _ _ _ => failuresSince log := by
  rw [failuresSince, outcomes_snoc]
  cases write with
  | outcome result utcNow statusNow =>
    simp only [List.rtakeWhile_concat]
    cases result with
    | true => rfl
    | false => simp [failuresSince]
  | gauges dlq pending statusNow => rfl

/-- The status that a write stores comes from the counters that it stores. -/
theorem HealthWrite.apply_status (health : EmitterHealth) (write : HealthWrite) :
    (write.apply health).status = statusAt (write.apply health).consecutiveFailures.toNat
      (write.apply health).lastFailureAt write.report.statusNow := by
  rw [← deriveStatus_eq]
  cases write with
  | outcome success utcNow statusNow => rfl
  | gauges dlq pending statusNow => rfl

/-- A write to an exact snapshot leaves it exact. -/
theorem HealthExact.snoc {log : List HealthReport} {health : EmitterHealth}
    (h : HealthExact log health) (write : HealthWrite)
    (hfew : failureCount (log ++ [write.report]) < 2 ^ 32) :
    HealthExact (log ++ [write.report]) (write.apply health) := by
  have hfailures : (write.apply health).consecutiveFailures.toNat =
      failuresSince (log ++ [write.report]) := by
    rw [failuresSince_snoc]
    cases write with
    | gauges dlq pending statusNow => exact h.failures
    | outcome success utcNow statusNow =>
      cases success with
      | true => rfl
      | false =>
        -- `consecutive_failures += 1` does not overflow.
        have hle := failuresSince_le (log ++ [(HealthWrite.outcome false utcNow statusNow).report])
        rw [failuresSince_snoc] at hle
        have hlt : failuresSince log + 1 < 2 ^ 32 := Nat.lt_of_le_of_lt hle hfew
        change (health.consecutiveFailures + 1).toNat = failuresSince log + 1
        rw [UInt32.toNat_add, h.failures]
        exact Nat.mod_eq_of_lt hlt
  have hsuccess : (write.apply health).lastSuccessAt = lastTime true (log ++ [write.report]) := by
    rw [lastTime_snoc]
    cases write with
    | gauges dlq pending statusNow => exact h.lastSuccess
    | outcome success utcNow statusNow =>
      cases success with
      | true => rfl
      | false => exact h.lastSuccess
  have hfailure : (write.apply health).lastFailureAt = lastTime false (log ++ [write.report]) := by
    rw [lastTime_snoc]
    cases write with
    | gauges dlq pending statusNow => exact h.lastFailure
    | outcome success utcNow statusNow =>
      cases success with
      | true => exact h.lastFailure
      | false => rfl
  refine ⟨hfailures, hsuccess, hfailure, fun hnil => ?_, fun last hlast => ?_⟩
  · exact absurd hnil (List.append_ne_nil_of_right_ne_nil _ (List.cons_ne_nil _ _))
  · rw [List.getLast?_concat, Option.some.injEq] at hlast
    rw [← hlast, HealthWrite.apply_status, hfailures, hfailure]

/-- So do any number of writes. -/
theorem HealthExact.append {log : List HealthReport} {health : EmitterHealth}
    (h : HealthExact log health) (writes : List HealthWrite)
    (hfew : failureCount (log ++ writes.map HealthWrite.report) < 2 ^ 32) :
    HealthExact (log ++ writes.map HealthWrite.report)
      (writes.foldl HealthWrite.apply health) := by
  induction writes using List.reverseRecOn with
  | nil => simpa using h
  | append_singleton writes write ih =>
    rw [List.map_append, List.map_singleton, ← List.append_assoc] at hfew ⊢
    have hfewer : failureCount (log ++ writes.map HealthWrite.report) < 2 ^ 32 := by
      rw [failureCount_append] at hfew
      omega
    rw [List.foldl_append]
    exact (ih hfewer).snoc write hfew

/-- The snapshot that a worker starts with. -/
theorem HealthExact.start : HealthExact [] {} where
  failures := rfl
  lastSuccess := rfl
  lastFailure := rfl
  initial _ := rfl
  status := by
    intro report h
    cases h

theorem HealthWrite.apply_counters (health : EmitterHealth) {write : HealthWrite}
    (h : write.report.outcome? = none) : (write.apply health).counters = health.counters := by
  cases write with
  | outcome success utcNow statusNow => cases h
  | gauges dlq pending statusNow => rfl

theorem foldl_counters (health : EmitterHealth) {writes : List HealthWrite}
    (h : ∀ write ∈ writes, write.report.outcome? = none) :
    (writes.foldl HealthWrite.apply health).counters = health.counters := by
  induction writes generalizing health with
  | nil => rfl
  | cons write writes ih =>
    rw [List.foldl_cons, ih _ fun w hw => h w (List.mem_cons_of_mem _ hw)]
    exact HealthWrite.apply_counters health (h write List.mem_cons_self)

/-! ## 6. The snapshot is exact -/

/-- The two kinds of futures that write the snapshot. -/
inductive HealthTask where
  | dispatchOne
  | refreshGauges
deriving DecidableEq

def HealthTask.start : HealthTask → HealthFuture
  | dispatchOne => .emitting
  | refreshGauges => .countingDlq

/-- A worker that has just been started, and the futures it is going to poll. -/
def healthStart (tasks : Nat → HealthTask) : HealthState :=
  .start (fun k => (tasks k).start) {}

theorem HealthTask.start_yields (task : HealthTask) : task.start.yields = true := by
  cases task with
  | dispatchOne => rfl
  | refreshGauges => rfl

/-- What is seen of future `k` when it goes on: its last step is the one that stores. -/
def HealthInput.events (task : HealthTask) (k : Nat) : HealthInput → List (HealthEvent Nat)
  | emitted success => [.emitted k success]
  | store utcNow statusNow =>
    match task with
    | .dispatchOne => [.completed k utcNow statusNow]
    | .refreshGauges => [.refreshed statusNow]
  | _ => []

/-- What has happened along a run, by what its labels say. -/
def healthHistory (tasks : Nat → HealthTask) (ls : List (Nat × HealthInput)) :
    List (HealthEvent Nat) :=
  ls.flatMap fun l => l.2.events (tasks l.1) l.1

/-- A future of this kind may have this edit in hand, after that answer. -/
def HealthEdit.Of (task : HealthTask) (answered : Option Bool) : HealthEdit → Prop
  | outcome success => task = .dispatchOne ∧ answered = some success
  | gauges _ _ => task = .refreshGauges

/-- **What a future knows**: the answer that its `emit` got. -/
def HealthFuture.Knows (task : HealthTask) (k : Nat) (history : List (HealthEvent Nat)) :
    HealthFuture → Prop
  | emitting => task = .dispatchOne
  | marking success => task = .dispatchOne ∧ answer k history = some success
  | countingDlq | countingPending _ | countingInFlight _ _ => task = .refreshGauges
  | editing edit | loaded edit _ | cloned edit _ => edit.Of task (answer k history)
  | done => task = .dispatchOne → ∃ success utcNow statusNow,
      .emitted k success ∈ history ∧ .completed k utcNow statusNow ∈ history

/-- **A step of a future** lets it know what it has to know, and it writes what its answer and its
completion report. -/
theorem HealthFuture.Knows.step {task : HealthTask} {k : Nat} {past : List (HealthEvent Nat)}
    {t t' : HealthFuture} {health health' : EmitterHealth} {x : HealthInput}
    (h : t.Knows task k past) (hstep : t.step health x = some (t', health')) :
    t'.Knows task k (past ++ x.events task k) ∧
      reportsAfter past (x.events task k) = (t.obs x).map HealthWrite.report := by
  have hsame : ∀ {t : HealthFuture}, t.Knows task k past → t.Knows task k (past ++ []) := by
    intro t ht
    rw [List.append_nil]
    exact ht
  unfold HealthFuture.step at hstep
  split at hstep <;> cases hstep
  · -- The answer of `emit`.
    refine ⟨⟨h, ?_⟩, rfl⟩
    rw [HealthInput.events, answer_append_emitted, if_pos rfl]
  · exact ⟨hsame h, rfl⟩
  · exact ⟨hsame h, rfl⟩
  · exact ⟨hsame h, rfl⟩
  · exact ⟨hsame h, rfl⟩
  · exact ⟨hsame h, rfl⟩
  · exact ⟨hsame h, rfl⟩
  · -- The store, and the completion.
    rename_i edit next utcNow statusNow
    cases edit with
    | outcome success =>
      obtain ⟨rfl, hanswer⟩ := h
      refine ⟨fun _ => ⟨success, utcNow, statusNow, ?_, ?_⟩, ?_⟩
      · exact List.mem_append_left _ (mem_of_answer hanswer)
      · exact List.mem_append_right _ List.mem_cons_self
      · simp [HealthInput.events, reportsAfter, HealthEvent.report, hanswer, HealthFuture.obs,
          HealthEdit.at, HealthWrite.report]
    | gauges dlq pending =>
      obtain rfl : task = .refreshGauges := h
      exact ⟨fun htask => HealthTask.noConfusion htask, rfl⟩

/-- What another future does is not about this one. -/
theorem HealthFuture.Knows.of_ne {task other : HealthTask} {j k : Nat} (hjk : j ≠ k)
    {past : List (HealthEvent Nat)} {t : HealthFuture} (h : t.Knows task k past) (x : HealthInput) :
    t.Knows task k (past ++ x.events other j) := by
  have hanswer : answer k (past ++ x.events other j) = answer k past := by
    refine answer_append_of_forall k past fun success hmem => hjk ?_
    cases x with
    | emitted result =>
      cases List.mem_singleton.mp hmem
      rfl
    | store utcNow statusNow => cases other <;> simp [HealthInput.events] at hmem
    | _ => simp [HealthInput.events] at hmem
  cases t with
  | done =>
    intro htask
    obtain ⟨success, utcNow, statusNow, hemitted, hcompleted⟩ := h htask
    exact ⟨success, utcNow, statusNow, List.mem_append_left _ hemitted,
      List.mem_append_left _ hcompleted⟩
  | _ =>
    simp only [HealthFuture.Knows, hanswer] at h ⊢
    exact h

theorem healthHistory_snoc (tasks : Nat → HealthTask) (ls : List (Nat × HealthInput))
    (l : Nat × HealthInput) :
    healthHistory tasks (ls ++ [l]) = healthHistory tasks ls ++ healthHistory tasks [l] :=
  List.flatMap_append

/-- **A step of the worker's task**, which is one of some future. -/
theorem healthFutures_step {tasks : Nat → HealthTask} {past : List (HealthEvent Nat)}
    {s s' : HealthState} {l : Nat × HealthInput}
    (h : ∀ k, (s.futures k).Knows (tasks k) k past)
    (hstep : (healthFutures.machine Nat).step s l = some s') :
    (∀ k, (s'.futures k).Knows (tasks k) k (past ++ healthHistory tasks [l])) ∧
      reportsAfter past (healthHistory tasks [l]) =
        ((healthFutures.machine Nat).obs s l).map HealthWrite.report := by
  obtain ⟨k, x⟩ := l
  have hevents : healthHistory tasks [(k, x)] = x.events (tasks k) k := List.flatMap_singleton ..
  rw [hevents]
  simp only [Cooperative.machine, Cooperative.run] at hstep
  split at hstep
  · obtain ⟨⟨t', health'⟩, hfuture, rfl⟩ := Option.map_eq_some_iff.mp hstep
    have hmoved := (h k).step hfuture
    refine ⟨fun j => ?_, hmoved.2⟩
    by_cases hj : j = k
    · subst hj
      simpa using hmoved.1
    · simpa [Function.update_of_ne hj] using (h j).of_ne (Ne.symm hj) x
  · cases hstep

/-- **Along a run** the writes are what the answers and the completions report. -/
theorem healthFutures_reports {tasks : Nat → HealthTask} {ls : List (Nat × HealthInput)}
    {s : HealthState} (h : (healthFutures.machine Nat).exec (healthStart tasks) ls = some s) :
    (∀ k, (s.futures k).Knows (tasks k) k (healthHistory tasks ls)) ∧
      reports (healthHistory tasks ls) =
        ((healthFutures.machine Nat).trace (healthStart tasks) ls).map HealthWrite.report := by
  induction ls using List.reverseRecOn generalizing s with
  | nil =>
    cases h
    refine ⟨fun k => ?_, rfl⟩
    show (tasks k).start.Knows (tasks k) k []
    cases htask : tasks k <;> rfl
  | append_singleton ls l ih =>
    obtain ⟨t, ht, hstep⟩ := Lts.exec_snoc.mp h
    obtain ⟨hknows, hreports⟩ := ih ht
    obtain ⟨hnext, hreport⟩ := healthFutures_step hknows hstep
    rw [Lts.trace_snoc ht hstep, healthHistory_snoc]
    refine ⟨hnext, ?_⟩
    rw [reports_append, List.map_append, hreports, hreport]

/-- **Health is exact.**  Take any dispatches and refreshes of a worker, interleaved in any way at
their awaits; those of its loop, where the batches come one after the other, are some of them.  As
long as there are fewer than `2 ^ 32` failures the snapshot is exact at every moment about the
dispatches that have completed, each with the outcome that its `emit` has answered.  These are all the
dispatches that are done, and a step that completes none leaves the counters as they are. -/
theorem health_exact (tasks : Nat → HealthTask) {ls : List (Nat × HealthInput)} {s : HealthState}
    (h : (healthFutures.machine Nat).exec (healthStart tasks) ls = some s)
    (hfew : failureCount (reports (healthHistory tasks ls)) < 2 ^ 32) :
    HealthExact (reports (healthHistory tasks ls)) s.shared ∧
      (∀ k, tasks k = .dispatchOne → s.futures k = .done → ∃ success utcNow statusNow,
        .emitted k success ∈ healthHistory tasks ls ∧
        .completed k utcNow statusNow ∈ healthHistory tasks ls) ∧
      ∀ l s', (healthFutures.machine Nat).step s l = some s' →
        (∀ k utcNow statusNow, .completed k utcNow statusNow ∉ healthHistory tasks [l]) →
        s'.shared.counters = s.shared.counters := by
  have hstart : ∀ k, ((tasks k).start).yields = true := fun k => (tasks k).start_yields
  have hs : s.shared = ((healthFutures.machine Nat).trace (healthStart tasks) ls).foldl
      HealthWrite.apply {} := snapshot_eq_foldl hstart h
  obtain ⟨hknows, hreports⟩ := healthFutures_reports h
  refine ⟨?_, fun k htask hdone => ?_, fun l s' hstep hnone => ?_⟩
  · rw [hreports] at hfew ⊢
    rw [hs]
    exact HealthExact.start.append _ hfew
  · have hk := hknows k
    rw [hdone] at hk
    exact hk htask
  · have h' : (healthFutures.machine Nat).exec (healthStart tasks) (ls ++ [l]) = some s' :=
      Lts.exec_snoc.mpr ⟨s, h, hstep⟩
    have hs' := snapshot_eq_foldl hstart h'
    change s'.shared = ((healthFutures.machine Nat).trace (healthStart tasks) (ls ++ [l])).foldl
      HealthWrite.apply {} at hs'
    rw [Lts.trace_snoc h hstep, List.foldl_append, ← hs] at hs'
    rw [hs']
    refine foldl_counters s.shared fun write hwrite => ?_
    have hreport := List.mem_map_of_mem (f := HealthWrite.report) hwrite
    rw [← (healthFutures_step hknows hstep).2] at hreport
    exact outcome?_eq_none_of_mem hnone hreport

/-- Two dispatches that fail, and a refresh.  The first dispatch gets its answer first and completes
last, in the middle of the queries of the refresh. -/
def twoFailures : List (Nat × HealthInput) :=
  [(0, .emitted false), (1, .emitted false), (1, .marked), (1, .load), (1, .clone), (1, .store 5 6),
    (2, .counted 0), (0, .marked), (0, .load), (0, .clone), (0, .store 8 9),
    (2, .counted 3), (2, .counted 0), (2, .load), (2, .clone), (2, .store 10 (59 * 1000000))]

def twoDispatches : Nat → HealthTask
  | 2 => .refreshGauges
  | _ => .dispatchOne

theorem health_exact_two_failures :
    ∃ s, (healthFutures.machine Nat).exec (healthStart twoDispatches) twoFailures = some s ∧
      s.shared = ⟨none, some 8, 2, .degraded, 0, 3⟩ ∧
      failuresSince (reports (healthHistory twoDispatches twoFailures)) = 2 ∧
      HealthExact (reports (healthHistory twoDispatches twoFailures)) s.shared :=
  ⟨_, rfl, by rfl, by decide, (health_exact twoDispatches rfl (by decide)).1⟩

/-! ## 7. The worker's steps -/

/-- What a step of the worker writes to the snapshot: a section of `healthFutures` is one step. -/
def WorkerStep.healthWrites (cfg : WorkerConfig) (db : Database) (w : WorkerState) :
    WorkerStep → List HealthWrite
  | .mark id input _ =>
    match w.dispatchOf id with
    | some ⟨_, _, .marking result⟩ => [.outcome result.isOk input.healthNow input.statusNow]
    | _ => []
  | .refreshGauges now dlqOk pendingOk utcNow _ =>
    [.gauges (if dlqOk then db.countDlq cfg.name else 0)
      (if pendingOk then db.countPending cfg.name now else 0) utcNow]
  | _ => []

/-- What is seen of a step: the dispatch of a row completes when its `mark_*` has returned. -/
def WorkerStep.healthEvents : WorkerStep → List (HealthEvent DeliveryId)
  | .emitReturned id result => [.emitted id result.isOk]
  | .mark id input _ => [.completed id input.healthNow input.statusNow]
  | .refreshGauges _ _ _ utcNow _ => [.refreshed utcNow]
  | _ => []

/-- The rows that wait for their mark are those whose `emit` has been answered, with that answer. -/
def WorkerState.Told (history : List (HealthEvent DeliveryId)) (w : WorkerState) : Prop :=
  ∀ x ∈ w.outstanding, ∀ result, x.result = some result →
    answer x.delivery.deliveryId history = some result.isOk

section Worker

variable {cfg : WorkerConfig} {i : WorkerId} {db : Database} {w : WorkerState} {step : WorkerStep}
  {o : WorkerOutcome} {past : List (HealthEvent DeliveryId)}

/-- A worker's snapshot is changed by these writes only, until it crashes and starts anew. -/
theorem WorkerStep.run_health (h : step.run cfg i db w = some o) (hcrash : step ≠ .crash) :
    o.next.health = (step.healthWrites cfg db w).foldl HealthWrite.apply w.health := by
  cases step with
  | crash => exact absurd rfl hcrash
  | mark id input outcome =>
    obtain ⟨batch, d, receipt, result, hphase, hfuture, next, -, -, hhealth, hcases⟩ := run_mark h
    have hdispatch : w.dispatchOf id = some ⟨d, receipt, .marking result⟩ := by
      rw [WorkerState.dispatchOf, hphase]
      exact hfuture
    rw [healthWrites, hdispatch]
    rcases hcases with ⟨-, rfl⟩ | ⟨-, rfl⟩ <;> exact hhealth
  | refreshGauges now dlqOk pendingOk utcNow stop =>
    simp only [run] at h
    split at h
    · cases h
      rfl
    · cases h
  | _ =>
    simp only [run] at h
    repeat' split at h
    all_goals cases h <;> rfl

/-- Answers to other rows are not about this one. -/
theorem WorkerStep.answer_eq {id : DeliveryId} (h : ∀ result, step ≠ .emitReturned id result) :
    answer id (past ++ step.healthEvents) = answer id past := by
  refine answer_append_of_forall id past fun success hmem => ?_
  cases step with
  | emitReturned j result =>
    obtain ⟨rfl, -⟩ := HealthEvent.emitted.inj (List.mem_singleton.mp hmem)
    exact h result rfl
  | _ => simp [healthEvents] at hmem

/-- Unless an `emit` returns, the rows with an answer had it before. -/
theorem WorkerStep.mem_of_result (h : step.run cfg i db w = some o)
    (hnone : ∀ id result, step ≠ .emitReturned id result) {x : Outstanding}
    (hx : x ∈ o.next.outstanding) {result : Except EmitError Unit} (hresult : x.result = some result) :
    x ∈ w.outstanding := by
  cases step with
  | emitReturned id result => exact absurd rfl (hnone id result)
  | claimPending now locked picked =>
    obtain ⟨-, -, rfl⟩ := run_claimPending h
    rcases mem_outstanding_afterLoad hx with ⟨d, -, rfl⟩ | ⟨p, -, rfl⟩ <;> cases hresult
  | loadReceipt =>
    obtain ⟨d, todo, done, -, ⟨p, -, rfl⟩ | ⟨e, -, rfl⟩⟩ := run_loadReceipt h
    · rcases mem_outstanding_afterLoad hx with ⟨d, -, rfl⟩ | ⟨p, -, rfl⟩ <;> cases hresult
    · cases hx
  | callEmit id =>
    obtain ⟨batch, d, receipt, hphase, -, rfl⟩ := run_callEmit h
    obtain ⟨y, hy, rfl⟩ := List.mem_map.mp hx
    rw [outstanding_dispatching hphase]
    rcases mem_advance hy with ⟨hy, -⟩ | ⟨-, hp, -⟩
    · exact List.mem_map_of_mem hy
    · rw [Dispatch.outstanding, hp] at hresult
      cases hresult
  | mark id input outcome =>
    obtain ⟨batch, d, receipt, answered, hphase, -, next, hnext, -, -, hcases⟩ := run_mark h
    have hmem : x ∈ next.outstanding := by
      rcases hcases with ⟨-, rfl⟩ | ⟨-, rfl⟩ <;> exact hx
    rw [WorkerState.outstanding, hnext, outstanding_afterMark] at hmem
    rw [outstanding_dispatching hphase]
    exact (List.filter_sublist.map Dispatch.outstanding).subset hmem
  | refreshGauges now dlqOk pendingOk utcNow stop =>
    simp only [run] at h
    split at h
    · cases h
      simp only [WorkerState.outstanding] at hx
      split at hx <;> cases hx
    · cases h
  | _ =>
    -- After the other steps nothing is outstanding.
    simp only [run] at h
    repeat' split at h
    all_goals cases h <;> cases hx

/-- **A step of the worker** leaves it with the answers it has got. -/
theorem WorkerState.Told.after (h : w.Told past) (hstep : step.run cfg i db w = some o) :
    o.next.Told (past ++ step.healthEvents) := by
  intro x hx result hresult
  by_cases hreturned : ∃ id answered, step = .emitReturned id answered
  · obtain ⟨id, answered, rfl⟩ := hreturned
    obtain ⟨batch, d, receipt, hphase, -, rfl⟩ := WorkerStep.run_emitReturned hstep
    obtain ⟨y, hy, rfl⟩ := List.mem_map.mp hx
    change answer y.delivery.deliveryId _ = _
    rw [WorkerStep.healthEvents, answer_append_emitted]
    rcases mem_advance hy with ⟨hmem, hne⟩ | ⟨hid, hp, -⟩
    · rw [if_neg (Ne.symm hne)]
      refine h y.outstanding ?_ result hresult
      rw [outstanding_dispatching hphase]
      exact List.mem_map_of_mem hmem
    · rw [Dispatch.outstanding, hp] at hresult
      cases hresult
      exact if_pos hid.symm
  · have hnone : ∀ id answered, step ≠ .emitReturned id answered :=
      fun id answered heq => hreturned ⟨id, answered, heq⟩
    rw [WorkerStep.answer_eq (hnone _)]
    exact h x (WorkerStep.mem_of_result hstep hnone hx hresult) result hresult

/-- **What a step writes** is what its answer and its completion report. -/
theorem WorkerStep.reports_eq (h : w.Told past) (hstep : step.run cfg i db w = some o) :
    reportsAfter past step.healthEvents = (step.healthWrites cfg db w).map HealthWrite.report := by
  cases step with
  | mark id input outcome =>
    obtain ⟨batch, d, receipt, result, hphase, hfuture, -⟩ := run_mark hstep
    have hdispatch : w.dispatchOf id = some ⟨d, receipt, .marking result⟩ := by
      rw [WorkerState.dispatchOf, hphase]
      exact hfuture
    obtain ⟨hmem, rfl⟩ := future_eq_some hfuture
    have hanswer : answer d.deliveryId past = some result.isOk := by
      refine h ⟨d, some receipt, some result⟩ ?_ result rfl
      rw [outstanding_dispatching hphase]
      exact List.mem_map_of_mem (f := Dispatch.outstanding) hmem
    rw [healthWrites, hdispatch]
    simp [healthEvents, reportsAfter, HealthEvent.report, hanswer, HealthWrite.report]
  | _ => rfl

/-- **The snapshot of a worker after a step**, if it was exact before. -/
theorem WorkerStep.run_healthExact (h : w.Told past) (hexact : HealthExact (reports past) w.health)
    (hstep : step.run cfg i db w = some o) (hcrash : step ≠ .crash)
    (hfew : failureCount (reports (past ++ step.healthEvents)) < 2 ^ 32) :
    HealthExact (reports (past ++ step.healthEvents)) o.next.health := by
  rw [reports_append, reports_eq h hstep] at hfew ⊢
  rw [run_health hstep hcrash]
  exact hexact.append _ hfew

end Worker

/-! ## 8. The system -/

/-- What is seen of worker `i`. -/
def Label.healthEvents (i : WorkerId) : Label → List (HealthEvent DeliveryId)
  | .worker j step => if j = i then step.healthEvents else []
  | .ingest _ _ => []
  | .admin _ => []

/-- What has happened to worker `i` along a run. -/
def workerHistory (i : WorkerId) (ls : List Label) : List (HealthEvent DeliveryId) :=
  ls.flatMap (Label.healthEvents i)

/-- A worker that has been told the answers of a history, of which its snapshot is exact. -/
def WorkerState.HealthInv (history : List (HealthEvent DeliveryId)) (w : WorkerState) : Prop :=
  w.Told history ∧
    (failureCount (reports history) < 2 ^ 32 → HealthExact (reports history) w.health)

theorem WorkerState.HealthInv.start : HealthInv [] {} := by
  refine ⟨fun x hx => ?_, fun _ => HealthExact.start⟩
  exact absurd hx List.not_mem_nil

theorem failureCount_of_append {past events : List (HealthEvent DeliveryId)}
    (h : failureCount (reports (past ++ events)) < 2 ^ 32) :
    failureCount (reports past) < 2 ^ 32 := by
  rw [reports_append, failureCount_append] at h
  omega

theorem WorkerState.HealthInv.after {cfg : WorkerConfig} {i : WorkerId} {db : Database}
    {w : WorkerState} {step : WorkerStep} {o : WorkerOutcome}
    {past : List (HealthEvent DeliveryId)} (h : w.HealthInv past)
    (hstep : step.run cfg i db w = some o) (hcrash : step ≠ .crash) :
    o.next.HealthInv (past ++ step.healthEvents) := by
  refine ⟨h.1.after hstep, fun hfew => ?_⟩
  exact WorkerStep.run_healthExact h.1 (h.2 (failureCount_of_append hfew)) hstep hcrash hfew

section System

variable {dep : Deployment} {i : WorkerId} {ls : List Label} {s s' : Sys}

/-- **A step of the system** that does not crash the worker. -/
theorem system_step_health {l : Label} {past : List (HealthEvent DeliveryId)}
    (hinv : (s.workers i).HealthInv past) (h : (system dep).step s l = some s')
    (hcrash : l ≠ .worker i .crash) : (s'.workers i).HealthInv (past ++ l.healthEvents i) := by
  cases l with
  | worker j step =>
    obtain ⟨o, ho, rfl⟩ := Option.map_eq_some_iff.mp h
    by_cases hj : j = i
    · subst hj
      rw [Label.healthEvents, if_pos rfl, Sys.afterWorker_self]
      exact hinv.after ho fun hstep => hcrash (hstep ▸ rfl)
    · rw [Label.healthEvents, if_neg hj, List.append_nil, Sys.afterWorker_of_ne s (Ne.symm hj)]
      exact hinv
  | ingest call step =>
    obtain ⟨o, -, rfl⟩ := Option.map_eq_some_iff.mp h
    rw [Label.healthEvents, List.append_nil]
    exact hinv
  | admin a =>
    obtain ⟨db, -, rfl⟩ := Option.map_eq_some_iff.mp h
    rw [Label.healthEvents, List.append_nil]
    exact hinv

/-- **The worker machine has an exact snapshot**, along every run of the system in which the worker does
not crash. -/
theorem system_health_exact {db : Database} (h : (system dep).exec (.start dep db) ls = some s)
    (hcrash : .worker i .crash ∉ ls) (hfew : failureCount (reports (workerHistory i ls)) < 2 ^ 32) :
    HealthExact (reports (workerHistory i ls)) (s.workers i).health := by
  suffices hinv : (s.workers i).HealthInv (workerHistory i ls) from hinv.2 hfew
  induction ls using List.reverseRecOn generalizing s with
  | nil =>
    cases h
    exact WorkerState.HealthInv.start
  | append_singleton ls l ih =>
    obtain ⟨t, ht, hstep⟩ := Lts.exec_snoc.mp h
    rw [workerHistory, List.flatMap_append, List.flatMap_singleton] at hfew ⊢
    have hinv := ih ht (fun hmem => hcrash (List.mem_append_left _ hmem))
      (failureCount_of_append hfew)
    exact system_step_health hinv hstep fun heq =>
      hcrash (List.mem_append_right _ (heq ▸ List.mem_cons_self))

end System

end Hookbox
