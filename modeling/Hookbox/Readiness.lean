/-
# The readiness probe

`GET /readyz` (`hookbox-server/src/routes/health.rs`) reads the snapshots of the workers through the map
that `spawn_emitter_workers` has filled, adds an entry for every configured emitter without one, and
answers `503` as soon as one of them, or the database, is unhealthy.  The supervisor of a worker writes
to the same snapshot when its worker has panicked.

* `synthesize_getElem?`, `computeOverallStatus_eq`: the two helpers.
* `EmitterTasks.HealthInv`: a snapshot is exact about the answers and completions of the run, until the
  supervisor has seen a panic.
* `readyz_exact`: what the probe of a running server says.
* `panic_visible`: it never forgets a panic.
-/
import Hookbox.Health
import Hookbox.ServeRuns

namespace Hookbox

/-! ## 1. The probe -/

/-- `EmitterHealthSnapshot`. -/
structure EmitterHealthSnapshot where
  status : HealthStatus
  lastSuccessAt : Option Timestamp
  lastFailureAt : Option Timestamp
  consecutiveFailures : UInt32
  dlqDepth : Nat
  pendingCount : Nat
deriving DecidableEq

def EmitterHealth.snapshot (h : EmitterHealth) : EmitterHealthSnapshot where
  status := h.status
  lastSuccessAt := h.lastSuccessAt
  lastFailureAt := h.lastFailureAt
  consecutiveFailures := h.consecutiveFailures
  dlqDepth := h.dlqDepth
  pendingCount := h.pendingCount

/-- `synthesize_missing_emitters`. -/
def synthesizeMissingEmitters (emitters : Std.ExtTreeMap String EmitterHealthSnapshot)
    (configured : List String) : Std.ExtTreeMap String EmitterHealthSnapshot :=
  configured.foldl
    (fun emitters name => emitters.insertIfNew name
      { status := .unhealthy
        lastSuccessAt := none
        lastFailureAt := none
        consecutiveFailures := 0
        dlqDepth := 0
        pendingCount := 0 })
    emitters

/-- `compute_overall_status`. -/
def computeOverallStatus (db : HealthStatus)
    (emitters : Std.ExtTreeMap String EmitterHealthSnapshot) : HealthStatus :=
  if db = .unhealthy then .unhealthy
  else if emitters.toList.any fun e => e.2.status = .unhealthy then .unhealthy
  else if emitters.toList.any fun e => e.2.status = .degraded then .degraded
  else .healthy

/-- What comes of `SELECT 1` within two seconds. -/
inductive Ping where
  | ok
  | failed
  | timedOut
deriving DecidableEq

inductive ProbeStatus where
  | ok
  | serviceUnavailable
deriving DecidableEq

/-- `ReadyzResponse`. -/
structure ReadyzResponse where
  status : HealthStatus
  database : HealthStatus
  emitters : Std.ExtTreeMap String EmitterHealthSnapshot

/-- `readyz`; a server without a pool cannot ping. -/
def readyz (pool : Option Ping) (emitterHealth : Std.ExtTreeMap String EmitterHealth)
    (emitterNames : List String) : ProbeStatus × ReadyzResponse :=
  let dbStatus : HealthStatus :=
    match pool with
    | some .ok => .healthy
    | some .failed | some .timedOut => .unhealthy
    | none => .unhealthy
  let emitters := synthesizeMissingEmitters (emitterHealth.map fun _ h => h.snapshot) emitterNames
  let overall := computeOverallStatus dbStatus emitters
  (match overall with
    | .unhealthy => .serviceUnavailable
    | .degraded | .healthy => .ok,
    ⟨overall, dbStatus, emitters⟩)

/-- The map that `spawn_emitter_workers` has filled, with what its handles read. -/
def Boot.emitterHealth {Emitter Receiver : Type} (boot : Boot Emitter Receiver) (s : Server) :
    Std.ExtTreeMap String EmitterHealth :=
  (List.range s.spawned).foldl
    (fun map i => map.insert (boot.entryName i) (s.sys.workers i).health) ∅

/-- The probe of a server, with the emitter names of its pipeline. -/
def Boot.readyz {Emitter Receiver : Type} (boot : Boot Emitter Receiver) (s : Server)
    (pool : Option Ping) : ProbeStatus × ReadyzResponse :=
  Hookbox.readyz pool (boot.emitterHealth s) (boot.entries.map (·.name))

/-! ## 2. The helpers -/

/-- A configured emitter keeps its snapshot, or gets the one of an emitter that never registered. -/
theorem synthesize_getElem? (emitters : Std.ExtTreeMap String EmitterHealthSnapshot)
    (configured : List String) (name : String) :
    (synthesizeMissingEmitters emitters configured)[name]? =
      if name ∈ configured then some (emitters[name]?.getD ⟨.unhealthy, none, none, 0, 0, 0⟩)
      else emitters[name]? := by
  induction configured generalizing emitters with
  | nil => simp [synthesizeMissingEmitters]
  | cons first rest ih =>
    rw [synthesizeMissingEmitters, List.foldl_cons]
    refine (ih _).trans ?_
    rw [Std.ExtTreeMap.getElem?_insertIfNew]
    by_cases hname : name = first
    · subst hname
      cases hold : emitters[name]? with
      | none =>
        have hmem : name ∉ emitters := by
          rw [Std.ExtTreeMap.mem_iff_isSome_getElem?, hold]
          simp
        simp [hmem]
      | some snapshot =>
        have hmem : name ∈ emitters := by
          rw [Std.ExtTreeMap.mem_iff_isSome_getElem?, hold]
          rfl
        simp [hmem]
    · simp [hname, Ne.symm hname]

/-- `503` is for the database and for every snapshot. -/
theorem computeOverallStatus_eq_unhealthy_iff {db : HealthStatus}
    {emitters : Std.ExtTreeMap String EmitterHealthSnapshot} :
    computeOverallStatus db emitters = .unhealthy ↔
      db = .unhealthy ∨ ∃ (name : String) (snapshot : EmitterHealthSnapshot),
        emitters[name]? = some snapshot ∧ snapshot.status = .unhealthy := by
  have hany : (emitters.toList.any fun e => e.2.status = .unhealthy) = true ↔
      ∃ (name : String) (snapshot : EmitterHealthSnapshot), emitters[name]? = some snapshot ∧
        snapshot.status = .unhealthy := by
    simp only [List.any_eq_true, Prod.exists, decide_eq_true_eq,
      Std.ExtTreeMap.mem_toList_iff_getElem?_eq_some]
  rw [← hany]
  unfold computeOverallStatus
  split
  · simp [*]
  · split
    · simp [*]
    · split <;> simp [*]

section

variable {Emitter Receiver : Type} {boot : Boot Emitter Receiver} {s s' : Server}
  {ls : List ServeLabel} {es : List Event} {db : Database} {l : ServeLabel}

theorem Boot.entryName_of_getElem? {i : WorkerId} {e : EmitterEntry}
    (he : boot.entries[i]? = some e) : boot.entryName i = e.name := by
  simp [Boot.entryName, he]

/-- The map as far as the entries up to `n`. -/
def Boot.healthMap (boot : Boot Emitter Receiver) (s : Server) (n : Nat) :
    Std.ExtTreeMap String EmitterHealth :=
  (List.range n).foldl (fun map i => map.insert (boot.entryName i) (s.sys.workers i).health) ∅

theorem Boot.healthMap_succ (n : Nat) : boot.healthMap s (n + 1)
    = (boot.healthMap s n).insert (boot.entryName n) (s.sys.workers n).health := by
  rw [healthMap, List.range_succ, List.foldl_append]
  rfl

/-- A name is in the map if an entry has it. -/
theorem Boot.healthMap_getElem?_eq_none {n : Nat} {name : String}
    (h : ∀ i < n, boot.entryName i ≠ name) : (boot.healthMap s n)[name]? = none := by
  induction n with
  | zero => exact Std.ExtTreeMap.getElem?_empty
  | succ n ih =>
    rw [healthMap_succ, Std.ExtTreeMap.getElem?_insert]
    simp only [Std.LawfulEqCmp.compare_eq_iff_eq, h n (Nat.lt_succ_self n), if_false]
    exact ih fun i hi => h i (Nat.lt_succ_of_lt hi)

/-- The handle of an entry is that of its worker, when no later entry has its name. -/
theorem Boot.healthMap_getElem? {n i : Nat} (hi : i < n)
    (hlater : ∀ j < n, i < j → boot.entryName j ≠ boot.entryName i) :
    (boot.healthMap s n)[boot.entryName i]? = some (s.sys.workers i).health := by
  induction n with
  | zero => exact absurd hi (Nat.not_lt_zero i)
  | succ n ih =>
    rw [healthMap_succ, Std.ExtTreeMap.getElem?_insert]
    rcases Nat.lt_or_eq_of_le (Nat.le_of_lt_succ hi) with hi | rfl
    · simp only [Std.LawfulEqCmp.compare_eq_iff_eq, hlater n (Nat.lt_succ_self n) hi, if_false]
      exact ih hi fun j hj => hlater j (Nat.lt_succ_of_lt hj)
    · simp

/-! ## 3. What a snapshot says -/

/-- What is seen of worker `i`. -/
def ServeLabel.healthEvents (i : WorkerId) : ServeLabel → List (HealthEvent DeliveryId)
  | .loop j (.step st) => if j = i then st.healthEvents else []
  | _ => []

/-- What has happened to worker `i` along a run of the server. -/
def servingHistory (i : WorkerId) (ls : List ServeLabel) : List (HealthEvent DeliveryId) :=
  ls.flatMap (ServeLabel.healthEvents i)

/-- The snapshot of an entry is exact, until its supervisor has seen a panic and flagged it. -/
def EmitterTasks.HealthInv (t : EmitterTasks) (history : List (HealthEvent DeliveryId))
    (w : WorkerState) : Prop :=
  if t.supervisor = some .panicked then w.health.status = .unhealthy else w.HealthInv history

theorem LoopStep.Receives.ne_crash {i : WorkerId} {l : LoopStep} {t : EmitterTasks}
    {taken : Option WorkerStep} (h : LoopStep.Receives s i l t taken) : taken ≠ some .crash := by
  cases h with
  | elapsed | changed | refresh => simp
  | borrow => split <;> simp
  | inner st hst =>
    rintro ⟨⟩
    cases hst

/-- What is seen of a step of the loop is what is seen of the worker's step that it comes to. -/
theorem LoopStep.Receives.healthEvents {i : WorkerId} {l : LoopStep} {t : EmitterTasks}
    {taken : Option WorkerStep} (h : LoopStep.Receives s i l t taken) :
    (ServeLabel.loop i l).healthEvents i = (taken.map WorkerStep.healthEvents).getD [] := by
  cases h with
  | elapsed | changed => rfl
  | borrow => split <;> rfl
  | refresh | inner => exact if_pos rfl

theorem LoopStep.Receives.supervisor {i : WorkerId} {l : LoopStep} {t : EmitterTasks}
    {taken : Option WorkerStep} (h : LoopStep.Receives s i l t taken) :
    t.supervisor = (s.tasks i).supervisor := by
  cases h with
  | refresh => split <;> rfl
  | _ => rfl

theorem ServeLabel.healthEvents_of_ne {i : WorkerId} (h : l.mover ≠ some i) :
    l.healthEvents i = [] := by
  cases l with
  | loop j step =>
    cases step with
    | step st => exact if_neg fun hj => h (congrArg some hj)
    | _ => rfl
  | _ => rfl

/-- A panic leaves the snapshot as it is. -/
theorem WorkerState.HealthInv.stopped {w : WorkerState} {past : List (HealthEvent DeliveryId)}
    (h : w.HealthInv past) : HealthInv past { w with phase := .stopped } :=
  ⟨fun _ hx => absurd hx List.not_mem_nil, h.2⟩

/-- **A step of the server** keeps the snapshot of every entry exact. -/
theorem Server.Effect.healthInv (h : Server.Effect boot s l s' es) (hinv : s.Inv boot ls)
    {i : WorkerId} (hi : i < boot.entries.length) {past : List (HealthEvent DeliveryId)}
    (hhealth : (s.tasks i).HealthInv past (s.sys.workers i)) :
    (s'.tasks i).HealthInv (past ++ l.healthEvents i) (s'.sys.workers i) := by
  by_cases hm : l.mover = some i
  · cases h with
    | receive i l t hlt hrun hl =>
      cases hm
      have hreceives := LoopStep.receive_cases hl
      rw [hreceives.healthEvents, setTasks_tasks_self, setTasks_sys, EmitterTasks.HealthInv,
        hreceives.supervisor]
      simpa [EmitterTasks.HealthInv] using hhealth
    | loop i l t st o hlt hrun hl ho =>
      cases hm
      have hreceives := LoopStep.receive_cases hl
      rw [EmitterTasks.HealthInv, (hinv.task i hlt).supervisor_none hrun] at hhealth
      rw [hreceives.healthEvents, afterLoop, setTasks_tasks_self, setTasks_sys,
        Sys.afterWorker_self, EmitterTasks.HealthInv, EmitterTasks.settle_supervisor,
        hreceives.supervisor, (hinv.task i hlt).supervisor_none hrun]
      simp only [reduceCtorEq, if_false, Option.map_some, Option.getD_some] at hhealth ⊢
      exact hhealth.after ho fun hst => hreceives.ne_crash (congrArg some hst)
    | panic i hlt hrun =>
      cases hm
      rw [EmitterTasks.HealthInv, (hinv.task i hlt).supervisor_none hrun] at hhealth
      rw [afterPanic, setTasks_tasks_self, setTasks_sys, setWorker_self, EmitterTasks.HealthInv]
      simp only [(hinv.task i hlt).supervisor_none hrun, reduceCtorEq, if_false] at hhealth ⊢
      simpa [ServeLabel.healthEvents] using hhealth.stopped
    | supervise i utcNow how hlt hrun hended =>
      cases hm
      cases how with
      | exited =>
        rw [EmitterTasks.HealthInv, hrun] at hhealth
        simpa [superviseWorker, EmitterTasks.HealthInv, ServeLabel.healthEvents] using hhealth
      | panicked =>
        rw [superviseWorker, setTasks_tasks_self, setTasks_sys, setWorker_self,
          EmitterTasks.HealthInv, if_pos rfl]
        rfl
    | drainEnds i how hlt hdrain hrun hended =>
      cases hm
      simpa [EmitterTasks.HealthInv, ServeLabel.healthEvents] using hhealth
    | _ => cases hm
  · rw [ServeLabel.healthEvents_of_ne hm, List.append_nil, (h.still hm).1, (h.still hm).2 hi]
    exact hhealth

theorem serving_healthInv (h : (serving boot).exec (.start boot db) ls = some s) {i : WorkerId}
    (hi : i < boot.entries.length) :
    (s.tasks i).HealthInv (servingHistory i ls) (s.sys.workers i) := by
  refine Lts.labels_induction (M := serving boot)
    (I := fun ls s => s.Inv boot ls ∧
      (s.tasks i).HealthInv (servingHistory i ls) (s.sys.workers i))
    ⟨Server.start_inv boot db, ?_⟩ ?_ h |>.2
  · exact WorkerState.HealthInv.start
  · rintro ls s l s' - ⟨hinv, hhealth⟩ hstep
    have heff := serving_step_cases hstep
    refine ⟨heff.inv hinv, ?_⟩
    rw [servingHistory, List.flatMap_append, List.flatMap_singleton]
    exact heff.healthInv hinv hi hhealth

/-- An exact snapshot is unhealthy after ten failures in a row. -/
theorem HealthExact.unhealthy_iff {log : List HealthReport} {health : EmitterHealth}
    (h : HealthExact log health) : health.status = .unhealthy ↔ 10 ≤ failuresSince log := by
  cases hlast : log.getLast? with
  | none =>
    obtain rfl := List.getLast?_eq_none_iff.mp hlast
    rw [h.initial rfl]
    simp [failuresSince, outcomes]
  | some report =>
    rw [h.status report hlast, statusAt]
    split
    · simp [*]
    · split <;> simp [*]

/-- **What the status of a snapshot says.** -/
theorem EmitterTasks.HealthInv.unhealthy_iff {t : EmitterTasks} {w : WorkerState}
    {history : List (HealthEvent DeliveryId)} (h : t.HealthInv history w)
    (hfew : failureCount (reports history) < 2 ^ 32) :
    w.health.status = .unhealthy ↔
      t.supervisor = some .panicked ∨ 10 ≤ failuresSince (reports history) := by
  unfold EmitterTasks.HealthInv at h
  split at h
  · simp [*]
  · rw [(h.2 hfew).unhealthy_iff]
    simp [*]

/-! ## 4. What the probe says -/

/-- The snapshots of a probe. -/
theorem Boot.readyz_getElem? (hnodup : (boot.entries.map (·.name)).Nodup)
    (hspawned : s.spawned = boot.entries.length) (pool : Option Ping) {i : WorkerId}
    {e : EmitterEntry} (he : boot.entries[i]? = some e) :
    (boot.readyz s pool).2.emitters[e.name]? = some (s.sys.workers i).health.snapshot := by
  obtain ⟨hi, hget⟩ := List.getElem?_eq_some_iff.mp he
  have hlater : ∀ j < s.spawned, i < j → boot.entryName j ≠ boot.entryName i := by
    intro j hj hij heq
    rw [hspawned] at hj
    have hname : (boot.entries.map (·.name))[i]? = (boot.entries.map (·.name))[j]? := by
      simp only [Boot.entryName, List.getElem?_eq_getElem hi, List.getElem?_eq_getElem hj,
        Option.map_some, Option.getD_some] at heq
      simp only [List.getElem?_map, List.getElem?_eq_getElem hi, List.getElem?_eq_getElem hj,
        Option.map_some, heq]
    have hlen : i < (boot.entries.map (·.name)).length := by simpa using hi
    exact absurd ((List.getElem?_inj hlen hnodup).mp hname) (Nat.ne_of_lt hij)
  have hmap := healthMap_getElem? (s := s) (hspawned ▸ hi : i < s.spawned) hlater
  rw [entryName_of_getElem? he] at hmap
  show (synthesizeMissingEmitters ((boot.emitterHealth s).map fun _ h => h.snapshot) _)[e.name]? = _
  rw [synthesize_getElem?, if_pos (List.mem_map_of_mem (List.mem_of_getElem? he)),
    Std.ExtTreeMap.getElem?_map]
  show some (((boot.healthMap s s.spawned)[e.name]?.map _).getD _) = _
  rw [hmap]
  rfl

/-- No snapshot is made up. -/
theorem Boot.readyz_getElem?_eq_none (hspawned : s.spawned = boot.entries.length)
    (pool : Option Ping) {name : String} (hname : name ∉ boot.entries.map (·.name)) :
    (boot.readyz s pool).2.emitters[name]? = none := by
  have hne : ∀ i < s.spawned, boot.entryName i ≠ name := by
    intro i hi heq
    rw [hspawned] at hi
    refine hname (List.mem_map.mpr ⟨boot.entries[i], List.getElem_mem hi, ?_⟩)
    rw [← heq, entryName_of_getElem? (List.getElem?_eq_getElem hi)]
  show (synthesizeMissingEmitters ((boot.emitterHealth s).map fun _ h => h.snapshot) _)[name]? = _
  rw [synthesize_getElem?, if_neg hname, Std.ExtTreeMap.getElem?_map]
  show (boot.healthMap s s.spawned)[name]?.map _ = none
  rw [healthMap_getElem?_eq_none hne]
  rfl

theorem Server.Inv.all_spawned (hinv : s.Inv boot ls) (hphase : s.phase = .serving) :
    s.spawned = boot.entries.length := by
  have hp := hinv.phase
  unfold PhaseInv at hp
  rw [hphase] at hp
  refine Nat.le_antisymm hinv.spawned_le (Nat.le_of_not_lt fun hlt => ?_)
  rw [← Boot.build_isSome, hp.1] at hlt
  cases hlt

theorem readyz_status (pool : Option Ping) (emitterHealth : Std.ExtTreeMap String EmitterHealth)
    (emitterNames : List String) :
    (readyz pool emitterHealth emitterNames).1 = .serviceUnavailable ↔ pool ≠ some .ok ∨
      ∃ (name : String) (snapshot : EmitterHealthSnapshot),
        (readyz pool emitterHealth emitterNames).2.emitters[name]? = some snapshot ∧
          snapshot.status = .unhealthy := by
  have hstatus : (readyz pool emitterHealth emitterNames).1 = .serviceUnavailable ↔
      (readyz pool emitterHealth emitterNames).2.status = .unhealthy := by
    simp only [readyz]
    split <;> simp [*]
  have hdb : (readyz pool emitterHealth emitterNames).2.database = .unhealthy ↔
      pool ≠ some .ok := by
    simp only [readyz]
    split <;> simp
  rw [hstatus, ← hdb]
  exact computeOverallStatus_eq_unhealthy_iff

section Serving

variable {raw config : HookboxConfig} {warnings : List String}
  (hconfig : normalize raw = .ok (config, warnings)) (hboot : boot.entries = config.emitters)

include hconfig hboot

/-- **The probe reads the snapshots of the workers**, one for each configured emitter. -/
theorem readyz_snapshots (h : (serving boot).exec (.start boot db) ls = some s)
    (hphase : s.phase = .serving) (pool : Option Ping) :
    (∀ name, (boot.readyz s pool).2.emitters[name]? = none ↔
      name ∉ config.emitters.map (·.name)) ∧
    (∀ i e, config.emitters[i]? = some e →
      (boot.readyz s pool).2.emitters[e.name]? = some (s.sys.workers i).health.snapshot) ∧
    ((boot.readyz s pool).1 = .serviceUnavailable ↔ pool ≠ some .ok ∨
      ∃ i < config.emitters.length, (s.sys.workers i).health.status = .unhealthy) := by
  have hnodup := (normalize_spec hconfig).nodup
  rw [← hboot] at hnodup ⊢
  have hspawned := (serving_inv h).all_spawned hphase
  have hentry : ∀ i e, boot.entries[i]? = some e →
      (boot.readyz s pool).2.emitters[e.name]? = some (s.sys.workers i).health.snapshot :=
    fun i e he => Boot.readyz_getElem? hnodup hspawned pool he
  refine ⟨fun name => ⟨fun hnone hmem => ?_, Boot.readyz_getElem?_eq_none hspawned pool⟩, hentry, ?_⟩
  · obtain ⟨e, he, rfl⟩ := List.mem_map.mp hmem
    obtain ⟨i, hi⟩ := List.mem_iff_getElem?.mp he
    rw [hentry i e hi] at hnone
    cases hnone
  refine (readyz_status _ _ _).trans (or_congr_right ⟨?_, ?_⟩)
  · rintro ⟨name, snapshot, hsnapshot, hstatus⟩
    by_cases hmem : name ∈ boot.entries.map (·.name)
    · obtain ⟨e, he, rfl⟩ := List.mem_map.mp hmem
      obtain ⟨i, hi⟩ := List.mem_iff_getElem?.mp he
      obtain rfl : (s.sys.workers i).health.snapshot = snapshot :=
        Option.some.inj ((hentry i e hi).symm.trans hsnapshot)
      obtain ⟨hlt, -⟩ := List.getElem?_eq_some_iff.mp hi
      exact ⟨i, hlt, hstatus⟩
    · rw [show (readyz pool (boot.emitterHealth s) _).2.emitters[name]? = none from
        Boot.readyz_getElem?_eq_none hspawned pool hmem] at hsnapshot
      cases hsnapshot
  · rintro ⟨i, hlt, hstatus⟩
    exact ⟨boot.entries[i].name, _, hentry i _ (List.getElem?_eq_getElem hlt), hstatus⟩

/-- A panic that the supervisor has seen fails the probe. -/
theorem readyz_of_panicked (h : (serving boot).exec (.start boot db) ls = some s)
    (hphase : s.phase = .serving) (pool : Option Ping) {i : WorkerId}
    (hi : i < config.emitters.length) (hsup : (s.tasks i).supervisor = some .panicked) :
    (boot.readyz s pool).1 = .serviceUnavailable := by
  have hhealth := serving_healthInv h (hboot ▸ hi)
  rw [EmitterTasks.HealthInv, if_pos hsup] at hhealth
  exact (readyz_snapshots hconfig hboot h hphase pool).2.2.mpr (Or.inr ⟨i, hi, hhealth⟩)

/-- **What `/readyz` says.**  While a server with a normalised configuration serves, the body of the
probe has one snapshot for each configured emitter, the one of its worker, and no other; and as long
as every worker has fewer than `2 ^ 32` failures, the probe answers `503` exactly if the ping did not
come back, or the supervisor of some worker has seen it panic, or the last ten dispatches of some
worker to complete have all been answered with a failure. -/
theorem readyz_exact (h : (serving boot).exec (.start boot db) ls = some s)
    (hphase : s.phase = .serving) (pool : Option Ping)
    (hfew : ∀ i < config.emitters.length, failureCount (reports (servingHistory i ls)) < 2 ^ 32) :
    (∀ name, (boot.readyz s pool).2.emitters[name]? = none ↔
      name ∉ config.emitters.map (·.name)) ∧
    (∀ i e, config.emitters[i]? = some e →
      (boot.readyz s pool).2.emitters[e.name]? = some (s.sys.workers i).health.snapshot) ∧
    ((boot.readyz s pool).1 = .serviceUnavailable ↔ pool ≠ some .ok ∨
      ∃ i < config.emitters.length, (s.tasks i).supervisor = some .panicked ∨
        10 ≤ failuresSince (reports (servingHistory i ls))) := by
  obtain ⟨hnames, hentries, hstatus⟩ := readyz_snapshots hconfig hboot h hphase pool
  refine ⟨hnames, hentries, hstatus.trans (or_congr_right (exists_congr fun i => ?_))⟩
  refine and_congr_right fun hi => ?_
  exact (serving_healthInv h (hboot ▸ hi)).unhealthy_iff (hfew i hi)

omit hconfig hboot in
/-- A worker that has panicked is gone for good. -/
theorem serving_panicked {i : WorkerId} {after : List ServeLabel}
    (hpanic : (s.tasks i).worker = some .panicked) (h : (serving boot).exec s after = some s') :
    (s'.tasks i).worker = some .panicked ∧ ∀ step, .loop i step ∉ after := by
  refine Lts.labels_induction (M := serving boot)
    (I := fun after s => (s.tasks i).worker = some .panicked ∧ ∀ step, .loop i step ∉ after)
    ⟨hpanic, by simp⟩ ?_ h
  rintro after s l s' - ⟨hp, hnone⟩ hstep
  have heff := serving_step_cases hstep
  refine ⟨?_, fun step hmem => ?_⟩
  · by_cases hm : l.mover = some i
    · exact (heff.moves hm).2.ended.1 _ hp
    · rw [(heff.still hm).1]
      exact hp
  · rcases List.mem_append.mp hmem with hmem | hmem
    · exact hnone step hmem
    · obtain rfl := List.mem_singleton.mp hmem
      generalize (serving boot).obs s (.loop i step) = es at heff
      cases heff with
      | receive i l t hi hrun => rw [hp] at hrun; cases hrun
      | loop i l t st o hi hrun => rw [hp] at hrun; cases hrun

/-- **A panic is never silent.**  On the entries of a configuration that `normalize` accepted: after the
worker of an entry has panicked it takes no further step, and as long as the process serves, its
supervisor has flagged it, and every probe answers `503`, or the supervisor can do so at once. -/
theorem panic_visible (h : (serving boot).exec (.start boot db) ls = some s) {i : WorkerId}
    (hpanic : (s.tasks i).worker = some .panicked) {after : List ServeLabel}
    (h' : (serving boot).exec s after = some s') (hphase : s'.phase = .serving)
    (pool : Option Ping) :
    (∀ step, .loop i step ∉ after) ∧
      ((s'.tasks i).supervisor ≠ none → (boot.readyz s' pool).1 = .serviceUnavailable) ∧
      ((s'.tasks i).supervisor = none → ∀ utcNow, ∃ s'',
        (serving boot).step s' (.supervise i utcNow) = some s'' ∧
          (boot.readyz s'' pool).1 = .serviceUnavailable) := by
  obtain ⟨hgone, hnone⟩ := serving_panicked hpanic h'
  have hs' : (serving boot).exec (.start boot db) (ls ++ after) = some s' := by
    rw [Lts.exec_append, h, Option.bind_some, h']
  have hinv := serving_inv hs'
  have hlt : i < s'.spawned := by
    by_contra hge
    rw [(hinv.unspawned i (Nat.le_of_not_lt hge)).1] at hgone
    cases hgone
  have hlen : i < config.emitters.length := hboot ▸ Nat.lt_of_lt_of_le hlt hinv.spawned_le
  refine ⟨hnone, fun hsup => ?_, fun hsup utcNow => ?_⟩
  · obtain ⟨how, hhow⟩ := Option.ne_none_iff_exists'.mp hsup
    obtain rfl : how = .panicked :=
      Option.some.inj (((hinv.task i hlt).supervised how hhow).symm.trans hgone)
    exact readyz_of_panicked hconfig hboot hs' hphase pool hlen hhow
  · have hstep : (serving boot).step s' (.supervise i utcNow)
        = some (s'.superviseWorker i utcNow .panicked) := by
      simp only [serving, ServeLabel.run, if_pos (And.intro hlt hsup), hgone, Option.map_some]
    refine ⟨_, hstep, ?_⟩
    have hs'' : (serving boot).exec (.start boot db) ((ls ++ after) ++ [.supervise i utcNow])
        = some (s'.superviseWorker i utcNow .panicked) := Lts.exec_snoc.mpr ⟨s', hs', hstep⟩
    refine readyz_of_panicked hconfig hboot hs'' hphase pool hlen ?_
    rw [Server.superviseWorker, Server.setTasks_tasks_self]

end Serving

end

/-- A server that serves. -/
def sampleBoot : Boot (List String) Unit := bootOf (sampleConfig 1).emitters

/-- Its worker dispatches a row, whose `emit` fails, and panics. -/
def failAndPanic : List ServeLabel :=
  acceptOne.map .other ++ [.spawnNext, .up, .loop 0 .elapsed, .loop 0 (.step (.reclaimExpired 0)),
    .loop 0 (.step (.claimPending 0 [] [⟨0⟩])), .loop 0 (.step .loadReceipt),
    .loop 0 (.step (.callEmit ⟨0⟩)), .loop 0 (.step (.emitReturned ⟨0⟩ (.error (.timeout "")))),
    .loop 0 (.step (.mark ⟨0⟩ ⟨0, 0, 1000000, 0, 0⟩ .ok)), .panic 0, .supervise 0 0]

theorem readyz_exact_panicked :
    ∃ s, (serving sampleBoot).exec (.start sampleBoot .empty) failAndPanic = some s ∧
      (s.tasks 0).supervisor = some .panicked ∧
      failuresSince (reports (servingHistory 0 failAndPanic)) = 1 ∧
      (∀ name, (sampleBoot.readyz s (some .ok)).2.emitters[name]? = none ↔
        name ∉ (sampleConfig 1).emitters.map (·.name)) ∧
      (∀ i e, (sampleConfig 1).emitters[i]? = some e →
        (sampleBoot.readyz s (some .ok)).2.emitters[e.name]?
          = some (s.sys.workers i).health.snapshot) ∧
      ((sampleBoot.readyz s (some .ok)).1 = .serviceUnavailable ↔ some Ping.ok ≠ some .ok ∨
        ∃ i < (sampleConfig 1).emitters.length, (s.tasks i).supervisor = some .panicked ∨
          10 ≤ failuresSince (reports (servingHistory i failAndPanic))) :=
  ⟨_, rfl, rfl, by decide, readyz_exact (sampleConfig_normal 1)
    (show sampleBoot.entries = (sampleConfig 1).emitters from rfl)
    (show (serving sampleBoot).exec (.start sampleBoot .empty) failAndPanic = some _ from rfl) rfl
    (some .ok) (by decide)⟩

theorem panic_visible_at_once :
    ∃ s s', (serving sampleBoot).exec (.start sampleBoot .empty) [.spawnNext, .up, .panic 0] = some s ∧
      (serving sampleBoot).exec s [] = some s' ∧
      (∀ step, ServeLabel.loop 0 step ∉ []) ∧
      ((s'.tasks 0).supervisor ≠ none → (sampleBoot.readyz s' (some .ok)).1 = .serviceUnavailable) ∧
      ((s'.tasks 0).supervisor = none → ∀ utcNow, ∃ s'',
        (serving sampleBoot).step s' (.supervise 0 utcNow) = some s'' ∧
          (sampleBoot.readyz s'' (some .ok)).1 = .serviceUnavailable) :=
  ⟨_, _, rfl, rfl, panic_visible (sampleConfig_normal 1)
    (show sampleBoot.entries = (sampleConfig 1).emitters from rfl)
    (show (serving sampleBoot).exec (.start sampleBoot .empty) [.spawnNext, .up, .panic 0]
      = some _ from rfl) rfl rfl rfl (some .ok)⟩

end Hookbox
