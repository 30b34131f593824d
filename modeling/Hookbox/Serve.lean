/-
# The life of a server process

`serve_inner` (`hookbox-server/src/serve.rs`) after the migrations: `spawn_emitter_workers` with its
rollback, the tasks it leaves behind, `axum::serve`, the shutdown channel, and `drain_worker_handles`.

An entry has up to three tasks: the worker, the supervisor that `supervise_worker` wraps around it,
and for the development channel the task of `drain_emitter`.  The worker task goes through the loop of
`EmitterWorker::spawn`, with its receiver of the channel; it can panic anywhere.  All of it runs over
the system of `System.lean`, among the requests, the operators and the workers of other processes.

* `Server.Effect`: everything a step can do, and `Server.Moves`: what it does to one entry.
* `EmitterTasks.Inv`: what is always true of the tasks of an entry and of its receiver.
* `Server.Inv`: what is always true of the process, by its phase.
-/
import Hookbox.EmitterFactory
import Hookbox.Rounds
import Hookbox.Shutdown

namespace Hookbox

/-! ## 1. Tasks and phases -/

/-- How a task ended. -/
inductive TaskEnd where
  | exited
  | panicked
deriving DecidableEq

/-- The tasks of one entry, as far as they have ended, and the receiver of its worker. -/
structure EmitterTasks where
  worker : Option TaskEnd := none
  supervisor : Option TaskEnd := none
  drain : Option TaskEnd := none
  /-- The last version of the channel that the receiver has marked seen. -/
  seen : Nat := 0
  /-- `changed` has returned, and the value is still to be borrowed. -/
  notified : Bool := false
  /-- `changed` was ready when the `select!` was entered.  Its sleep was not: it takes a second. -/
  pending : Bool := false

/-- An entry of `worker_handles`. -/
inductive Handle where
  | drain (i : WorkerId)
  | worker (i : WorkerId)
deriving DecidableEq

/-- Why `serve_inner` returns an error. -/
inductive ServeError where
  | build (e : FactoryError)
  | serve (cause : AnyhowError)
  | panicked (tasks : List String)
deriving DecidableEq

/-- The chain of an error; `debug` is `{:?}` of a string and `debugs` that of a list of strings. -/
def ServeError.chain (debug : String → String) (debugs : List String → String) :
    ServeError → AnyhowError
  | build e => e.chain debug
  | serve cause => "server encountered a fatal error" :: cause
  | panicked tasks =>
    ["shutdown completed but " ++ toString tasks.length ++ " emitter task(s) panicked: "
      ++ debugs tasks]

/-- Why `drain_worker_handles` is called. -/
inductive Ending where
  /-- An emitter failed to build, and `spawn_emitter_workers` rolls back. -/
  | rollback (e : FactoryError)
  /-- `axum::serve` has ended. -/
  | shutdown (serveResult : Except AnyhowError Unit)

/-- What `serve_inner` returns once the drain is over. -/
def Ending.result (why : Ending) (panicked : List String) : Except ServeError Unit :=
  match why with
  | .rollback e => .error (.build e)
  | .shutdown (.error cause) => .error (.serve cause)
  | .shutdown (.ok ()) => if panicked.isEmpty then .ok () else .error (.panicked panicked)

/-- Where `serve_inner` is. -/
inductive ServePhase where
  /-- In the loop of `spawn_emitter_workers`. -/
  | spawning
  /-- In `axum::serve`. -/
  | serving
  /-- In `drain_worker_handles`, with the handles still to await and the tasks found panicked. -/
  | draining (why : Ending) (todo : List Handle) (panicked : List String)
  | returned (result : Except ServeError Unit)

/-- What a process is started with.  Worker `i` of the system is that of entry `i`. -/
structure Boot (Emitter Receiver : Type) where
  dep : Deployment
  entries : List EmitterEntry
  new : Constructors Emitter Receiver
  worker : ∀ (i : Nat) (e : EmitterEntry), entries[i]? = some e → dep.workers i = e.worker

/-- A server process over the system. -/
structure Server where
  sys : Sys
  tasks : WorkerId → EmitterTasks := fun _ => {}
  /-- The entries that were dealt with, and the sends on the shutdown channel, all of them of `true`. -/
  spawned : Nat := 0
  version : Nat := 0
  phase : ServePhase := .spawning

namespace Boot

variable {Emitter Receiver : Type} (boot : Boot Emitter Receiver)

/-- `build_emitter_for_entry`, for entry `i`. -/
def build (i : WorkerId) : Option (Except FactoryError (BuiltEmitter Emitter Receiver)) :=
  boot.entries[i]?.map fun e => buildEmitter boot.new e.toEmitterConfig

/-- The entry has a `drain_emitter` task. -/
def hasDrain (i : WorkerId) : Bool :=
  match boot.build i with
  | some (.ok (.channel _ _)) => true
  | _ => false

/-- What entry `i` pushes to `worker_handles`. -/
def handlesOf (i : WorkerId) : List Handle :=
  if boot.hasDrain i then [.drain i, .worker i] else [.worker i]

/-- `worker_handles` after `n` entries. -/
def handles (n : Nat) : List Handle := (List.range n).flatMap boot.handlesOf

def entryName (i : WorkerId) : String := (boot.entries[i]?.map (·.name)).getD ""

/-- The name under which a handle was pushed. -/
def taskName : Handle → String
  | .drain i => boot.entryName i ++ "-drain"
  | .worker i => boot.entryName i

end Boot

/-! ## 2. Steps -/

/-- The value of the channel. -/
def Server.stopping (s : Server) : Bool := s.version ≠ 0

/-- One step of the loop of a worker task. -/
inductive LoopStep where
  /-- The sleep of the `select!` is over. -/
  | elapsed
  /-- `changed()` returns `Ok(())`. -/
  | changed
  /-- `*shutdown_rx.borrow()`, after `changed`. -/
  | borrow
  /-- The rest of the loop, up to its next await point. -/
  | step (step : WorkerStep)

inductive ServeLabel where
  /-- The next round of the loop of `spawn_emitter_workers`. -/
  | spawnNext
  /-- The loop is over, and `axum::serve` begins. -/
  | up
  /-- The shutdown future is ready, and `true` is sent. -/
  | signal
  | serveEnds (result : Except AnyhowError Unit)
  /-- The next handle of `drain_worker_handles` is ready. -/
  | join
  | finish
  | loop (i : WorkerId) (step : LoopStep)
  | panic (i : WorkerId)
  /-- `inner.await` returns in `supervise_worker`, with its clock. -/
  | supervise (i : WorkerId) (utcNow : Timestamp)
  /-- `drain_emitter` ends.  It does so by itself once its senders are dropped, with the worker. -/
  | drainEnds (i : WorkerId) (how : TaskEnd)
  /-- Somebody else moves. -/
  | other (l : Label)

/-- What `supervise_worker` stores after a panic. -/
def EmitterHealth.supervised (health : EmitterHealth) (utcNow : Timestamp) : EmitterHealth :=
  { health with
    lastFailureAt := some utcNow
    consecutiveFailures :=
      if health.consecutiveFailures + 1 = 0 then health.consecutiveFailures
      else health.consecutiveFailures + 1
    status := .unhealthy }

section Steps

variable {Emitter Receiver : Type} (boot : Boot Emitter Receiver) (s : Server)

/-- When a step of the loop of worker `i` can occur: the receiver afterwards, and the step of the
worker it comes to, if any. -/
def LoopStep.receive (i : WorkerId) : LoopStep → Option (EmitterTasks × Option WorkerStep)
  | .elapsed =>
    if ¬ (s.tasks i).notified ∧ ¬ (s.tasks i).pending then some (s.tasks i, some .wake) else none
  | .changed =>
    if (s.sys.workers i).phase.isPolling ∧ ¬ (s.tasks i).notified ∧ (s.tasks i).seen ≠ s.version
    then some ({ s.tasks i with seen := s.version, notified := true }, none)
    else none
  | .borrow =>
    if (s.tasks i).notified then
      some ({ s.tasks i with notified := false }, some (if s.stopping then .shutdown else .wake))
    else none
  | .step .wake | .step .shutdown | .step .crash => none
  | .step (.refreshGauges now dlqOk pendingOk utcNow stop) =>
    -- `borrow_and_update` follows the refresh without an await, and only after a batch.
    if stop = s.stopping then
      some (if (s.sys.workers i).phase.afterBatch then { s.tasks i with seen := s.version }
        else s.tasks i, some (.refreshGauges now dlqOk pendingOk utcNow stop))
    else none
  | .step st => some (s.tasks i, some st)

/-- The task after a step that has left the loop in a phase. -/
def EmitterTasks.settle (t : EmitterTasks) (phase : WorkerPhase) (version : Nat) : EmitterTasks :=
  { t with
    worker := match phase with
      | .stopped => some .exited
      | _ => none
    pending := phase.isPolling && t.seen ≠ version }

def Server.setTasks (i : WorkerId) (t : EmitterTasks) : Server :=
  { s with tasks := Function.update s.tasks i t }

def Server.setWorker (i : WorkerId) (w : WorkerState) : Server :=
  { s with sys := { s.sys with workers := Function.update s.sys.workers i w } }

/-- The server after a step of the loop of worker `i`. -/
def Server.afterLoop (i : WorkerId) (t : EmitterTasks) (o : WorkerOutcome) : Server :=
  { s with sys := s.sys.afterWorker i o }.setTasks i (t.settle o.next.phase s.version)

/-- The worker task is gone, with everything the worker had outstanding. -/
def Server.afterPanic (i : WorkerId) : Server :=
  (s.setWorker i { s.sys.workers i with phase := .stopped }).setTasks i
    { s.tasks i with worker := some .panicked }

/-- `supervise_worker`, once `inner.await` has returned: it resumes a panic. -/
def Server.superviseWorker (i : WorkerId) (utcNow : Timestamp) : TaskEnd → Server
  | .exited => s.setTasks i { s.tasks i with supervisor := some .exited }
  | .panicked =>
    (s.setWorker i { s.sys.workers i with
        health := (s.sys.workers i).health.supervised utcNow }).setTasks i
      { s.tasks i with supervisor := some .panicked }

/-- How the task behind a handle has ended. -/
def Server.ended : Handle → Option TaskEnd
  | .drain i => (s.tasks i).drain
  | .worker i => (s.tasks i).supervisor

/-- `panicked_tasks` after a handle. -/
def Boot.collect (panicked : List String) (h : Handle) : TaskEnd → List String
  | .exited => panicked
  | .panicked => panicked ++ [boot.taskName h]

/-- A step of the task of worker `i`. -/
def LoopStep.run (i : WorkerId) (l : LoopStep) : Option Server :=
  if i < s.spawned ∧ (s.tasks i).worker = none then do
    let (t, taken) ← l.receive s i
    match taken with
    | none => return s.setTasks i t
    | some st =>
      let o ← s.sys.workerRun boot.dep i st
      return s.afterLoop i t o
  else none

def LoopStep.obs (i : WorkerId) (l : LoopStep) : List Event :=
  match l.receive s i with
  | some (_, some st) => ((s.sys.workerRun boot.dep i st).map (·.events)).getD []
  | _ => []

def ServeLabel.run : ServeLabel → Option Server
  | .spawnNext =>
    match s.phase, boot.build s.spawned with
    | .spawning, some (.ok _) => some { s with spawned := s.spawned + 1 }
    | .spawning, some (.error e) =>
      some { s with
        version := s.version + 1
        phase := .draining (.rollback e) (boot.handles s.spawned) [] }
    | _, _ => none
  | .up =>
    match s.phase, boot.build s.spawned with
    | .spawning, none => some { s with phase := .serving }
    | _, _ => none
  | .signal =>
    match s.phase with
    | .serving => if s.version = 0 then some { s with version := s.version + 1 } else none
    | _ => none
  | .serveEnds result =>
    match s.phase with
    | .serving =>
      -- Without the signal, `axum::serve` only ends with an error.
      if result.isOk → s.version ≠ 0 then
        some { s with
          version := s.version + 1
          phase := .draining (.shutdown result) (boot.handles s.spawned) [] }
      else none
    | _ => none
  | .join =>
    match s.phase with
    | .draining why (h :: todo) panicked =>
      (s.ended h).map fun how =>
        { s with phase := .draining why todo (boot.collect panicked h how) }
    | _ => none
  | .finish =>
    match s.phase with
    | .draining why [] panicked => some { s with phase := .returned (why.result panicked) }
    | _ => none
  | .loop i l => LoopStep.run boot s i l
  | .panic i =>
    if i < s.spawned ∧ (s.tasks i).worker = none then some (s.afterPanic i) else none
  | .supervise i utcNow =>
    if i < s.spawned ∧ (s.tasks i).supervisor = none then
      (s.tasks i).worker.map (s.superviseWorker i utcNow)
    else none
  | .drainEnds i how =>
    if i < s.spawned ∧ boot.hasDrain i ∧ (s.tasks i).drain = none ∧
        (how = .exited → (s.tasks i).worker ≠ none) then
      some (s.setTasks i { s.tasks i with drain := some how })
    else none
  | .other (.worker j step) =>
    if j < boot.entries.length then none
    else ((system boot.dep).step s.sys (.worker j step)).map fun sys => { s with sys }
  | .other l => ((system boot.dep).step s.sys l).map fun sys => { s with sys }

def ServeLabel.obs : ServeLabel → List Event
  | .loop i l => LoopStep.obs boot s i l
  | .other l => (system boot.dep).obs s.sys l
  | _ => []

end Steps

/-- The server process as a transition system. -/
def serving {Emitter Receiver : Type} (boot : Boot Emitter Receiver) : Lts Server ServeLabel Event where
  step := ServeLabel.run boot
  obs := ServeLabel.obs boot

/-- `serve_inner` has migrated the database. -/
def Server.start {Emitter Receiver : Type} (boot : Boot Emitter Receiver) (db : Database) : Server where
  sys := .start boot.dep db

/-! ## 3. What a step can do -/

/-- **Everything a step can do.** -/
inductive Server.Effect {Emitter Receiver : Type} (boot : Boot Emitter Receiver) (s : Server) :
    ServeLabel → Server → List Event → Prop
  | spawned (built : BuiltEmitter Emitter Receiver) (hphase : s.phase = .spawning)
      (hbuild : boot.build s.spawned = some (.ok built)) :
      Effect boot s .spawnNext { s with spawned := s.spawned + 1 } []
  | failed (e : FactoryError) (hphase : s.phase = .spawning)
      (hbuild : boot.build s.spawned = some (.error e)) :
      Effect boot s .spawnNext
        { s with
          version := s.version + 1
          phase := .draining (.rollback e) (boot.handles s.spawned) [] } []
  | up (hphase : s.phase = .spawning) (hbuild : boot.build s.spawned = none) :
      Effect boot s .up { s with phase := .serving } []
  | signal (hphase : s.phase = .serving) :
      Effect boot s .signal { s with version := s.version + 1 } []
  | serveEnds (result : Except AnyhowError Unit) (hphase : s.phase = .serving) :
      Effect boot s (.serveEnds result)
        { s with
          version := s.version + 1
          phase := .draining (.shutdown result) (boot.handles s.spawned) [] } []
  | join (why : Ending) (h : Handle) (todo : List Handle) (panicked : List String) (how : TaskEnd)
      (hphase : s.phase = .draining why (h :: todo) panicked) (hended : s.ended h = some how) :
      Effect boot s .join { s with phase := .draining why todo (boot.collect panicked h how) } []
  | finish (why : Ending) (panicked : List String) (hphase : s.phase = .draining why [] panicked) :
      Effect boot s .finish { s with phase := .returned (why.result panicked) } []
  | receive (i : WorkerId) (l : LoopStep) (t : EmitterTasks) (hi : i < s.spawned)
      (hrun : (s.tasks i).worker = none) (hl : l.receive s i = some (t, none)) :
      Effect boot s (.loop i l) (s.setTasks i t) []
  | loop (i : WorkerId) (l : LoopStep) (t : EmitterTasks) (st : WorkerStep) (o : WorkerOutcome)
      (hi : i < s.spawned) (hrun : (s.tasks i).worker = none)
      (hl : l.receive s i = some (t, some st)) (ho : s.sys.workerRun boot.dep i st = some o) :
      Effect boot s (.loop i l) (s.afterLoop i t o) o.events
  | panic (i : WorkerId) (hi : i < s.spawned) (hrun : (s.tasks i).worker = none) :
      Effect boot s (.panic i) (s.afterPanic i) []
  | supervise (i : WorkerId) (utcNow : Timestamp) (how : TaskEnd) (hi : i < s.spawned)
      (hrun : (s.tasks i).supervisor = none) (hended : (s.tasks i).worker = some how) :
      Effect boot s (.supervise i utcNow) (s.superviseWorker i utcNow how) []
  | drainEnds (i : WorkerId) (how : TaskEnd) (hi : i < s.spawned) (hdrain : boot.hasDrain i = true)
      (hrun : (s.tasks i).drain = none) (hended : how = .exited → (s.tasks i).worker ≠ none) :
      Effect boot s (.drainEnds i how) (s.setTasks i { s.tasks i with drain := some how }) []
  | other (l : Label) (sys : Sys) (hl : ∀ j step, l = .worker j step → boot.entries.length ≤ j)
      (hs : (system boot.dep).step s.sys l = some sys) :
      Effect boot s (.other l) { s with sys } ((system boot.dep).obs s.sys l)

section

variable {Emitter Receiver : Type} {boot : Boot Emitter Receiver} {s s' : Server}

theorem serving_loop {i : WorkerId} {l : LoopStep}
    (h : (serving boot).step s (.loop i l) = some s') :
    Server.Effect boot s (.loop i l) s' ((serving boot).obs s (.loop i l)) := by
  simp only [serving, ServeLabel.run, ServeLabel.obs, LoopStep.run, LoopStep.obs] at h ⊢
  split at h
  · rename_i hrun
    obtain ⟨⟨t, taken⟩, hl, h⟩ := Option.bind_eq_some_iff.mp h
    rw [hl]
    cases taken with
    | none =>
      cases h
      exact .receive i l t hrun.1 hrun.2 hl
    | some st =>
      obtain ⟨o, ho, h⟩ := Option.bind_eq_some_iff.mp h
      cases h
      simp only [ho, Option.map_some, Option.getD_some]
      exact .loop i l t st o hrun.1 hrun.2 hl ho
  · cases h

theorem serving_step_cases {l : ServeLabel} (h : (serving boot).step s l = some s') :
    Server.Effect boot s l s' ((serving boot).obs s l) := by
  cases l with
  | loop i l => exact serving_loop h
  | spawnNext =>
    simp only [serving, ServeLabel.run] at h
    split at h
    · rename_i built hphase hbuild
      cases h
      exact .spawned built hphase hbuild
    · rename_i e hphase hbuild
      cases h
      exact .failed e hphase hbuild
    · cases h
  | up =>
    simp only [serving, ServeLabel.run] at h
    split at h
    · rename_i hphase hbuild
      cases h
      exact .up hphase hbuild
    · cases h
  | signal =>
    simp only [serving, ServeLabel.run] at h
    split at h
    · rename_i hphase
      split at h
      · cases h
        exact .signal hphase
      · cases h
    · cases h
  | serveEnds result =>
    simp only [serving, ServeLabel.run] at h
    split at h
    · rename_i hphase
      split at h
      · cases h
        exact .serveEnds result hphase
      · cases h
    · cases h
  | join =>
    simp only [serving, ServeLabel.run] at h
    split at h
    · rename_i why hd todo panicked hphase
      obtain ⟨how, hended, rfl⟩ := Option.map_eq_some_iff.mp h
      exact .join why hd todo panicked how hphase hended
    · cases h
  | finish =>
    simp only [serving, ServeLabel.run] at h
    split at h
    · rename_i why panicked hphase
      cases h
      exact .finish why panicked hphase
    · cases h
  | panic i =>
    simp only [serving, ServeLabel.run] at h
    split at h
    · rename_i hrun
      cases h
      exact .panic i hrun.1 hrun.2
    · cases h
  | supervise i utcNow =>
    simp only [serving, ServeLabel.run] at h
    split at h
    · rename_i hrun
      obtain ⟨how, hended, rfl⟩ := Option.map_eq_some_iff.mp h
      exact .supervise i utcNow how hrun.1 hrun.2 hended
    · cases h
  | drainEnds i how =>
    simp only [serving, ServeLabel.run] at h
    split at h
    · rename_i hrun
      cases h
      exact .drainEnds i how hrun.1 hrun.2.1 hrun.2.2.1 hrun.2.2.2
    · cases h
  | other l =>
    cases l with
    | worker j step =>
      simp only [serving, ServeLabel.run] at h
      split at h
      · cases h
      · rename_i hj
        obtain ⟨sys, hs, rfl⟩ := Option.map_eq_some_iff.mp h
        refine .other _ sys (fun j' step' heq => ?_) hs
        cases heq
        exact Nat.le_of_not_lt hj
    | ingest call step =>
      obtain ⟨sys, hs, rfl⟩ := Option.map_eq_some_iff.mp h
      exact .other _ sys (by simp) hs
    | admin a =>
      obtain ⟨sys, hs, rfl⟩ := Option.map_eq_some_iff.mp h
      exact .other _ sys (by simp) hs

end

/-! ## 4. The tasks -/

section Fields

variable (s : Server) (i : WorkerId) (t : EmitterTasks)

@[simp] theorem Server.setTasks_tasks_self : (s.setTasks i t).tasks i = t :=
  Function.update_self _ _ _

theorem Server.setTasks_tasks_of_ne {j : WorkerId} (hj : j ≠ i) :
    (s.setTasks i t).tasks j = s.tasks j := Function.update_of_ne hj _ _

@[simp] theorem Server.setTasks_sys : (s.setTasks i t).sys = s.sys := rfl

@[simp] theorem Server.setTasks_spawned : (s.setTasks i t).spawned = s.spawned := rfl

@[simp] theorem Server.setTasks_version : (s.setTasks i t).version = s.version := rfl

@[simp] theorem Server.setTasks_phase : (s.setTasks i t).phase = s.phase := rfl

end Fields

/-- The entry whose tasks move. -/
def ServeLabel.mover : ServeLabel → Option WorkerId
  | .loop i _ | .panic i | .supervise i _ | .drainEnds i _ => some i
  | _ => none

/-- **What a step does to the tasks of the entry that moves and to its worker.** -/
inductive Server.Moves {Emitter Receiver : Type} (boot : Boot Emitter Receiver) (s : Server)
    (i : WorkerId) : EmitterTasks → WorkerState → Prop
  | receive (l : LoopStep) (t : EmitterTasks) (hrun : (s.tasks i).worker = none)
      (hl : l.receive s i = some (t, none)) : Moves boot s i t (s.sys.workers i)
  | loop (l : LoopStep) (t : EmitterTasks) (st : WorkerStep) (o : WorkerOutcome)
      (hrun : (s.tasks i).worker = none) (hl : l.receive s i = some (t, some st))
      (ho : s.sys.workerRun boot.dep i st = some o) :
      Moves boot s i (t.settle o.next.phase s.version) o.next
  | panic (hrun : (s.tasks i).worker = none) :
      Moves boot s i { s.tasks i with worker := some .panicked }
        { s.sys.workers i with phase := .stopped }
  | supervise (how : TaskEnd) (health : EmitterHealth) (hrun : (s.tasks i).supervisor = none)
      (hended : (s.tasks i).worker = some how)
      (hhealth : health = (s.sys.workers i).health ∧ how = .exited ∨
        health.status = .unhealthy ∧ how = .panicked) :
      Moves boot s i { s.tasks i with supervisor := some how }
        { s.sys.workers i with health := health }
  | drainEnds (how : TaskEnd) (hdrain : boot.hasDrain i = true) (hrun : (s.tasks i).drain = none)
      (hended : how = .exited → (s.tasks i).worker ≠ none) :
      Moves boot s i { s.tasks i with drain := some how } (s.sys.workers i)

section

variable {Emitter Receiver : Type} {boot : Boot Emitter Receiver} {s s' : Server}
  {l : ServeLabel} {es : List Event}

theorem Server.setWorker_of_ne (s : Server) {i j : WorkerId} (hj : j ≠ i) (w : WorkerState) :
    (s.setWorker i w).sys.workers j = s.sys.workers j := Function.update_of_ne hj _ _

theorem Server.setWorker_self (s : Server) (i : WorkerId) (w : WorkerState) :
    (s.setWorker i w).sys.workers i = w := Function.update_self _ _ _

theorem Server.Effect.moves (h : Server.Effect boot s l s' es) {i : WorkerId}
    (hi : l.mover = some i) :
    i < s.spawned ∧ Server.Moves boot s i (s'.tasks i) (s'.sys.workers i) := by
  cases h with
  | receive i l t hlt hrun hl =>
    cases hi
    rw [setTasks_tasks_self]
    exact ⟨hlt, .receive l t hrun hl⟩
  | loop i l t st o hlt hrun hl ho =>
    cases hi
    rw [afterLoop, setTasks_tasks_self, setTasks_sys, Sys.afterWorker_self]
    exact ⟨hlt, .loop l t st o hrun hl ho⟩
  | panic i hlt hrun =>
    cases hi
    rw [afterPanic, setTasks_tasks_self, setTasks_sys, setWorker_self]
    exact ⟨hlt, .panic hrun⟩
  | supervise i utcNow how hlt hrun hended =>
    cases hi
    cases how with
    | exited =>
      rw [superviseWorker, setTasks_tasks_self]
      exact ⟨hlt, .supervise .exited _ hrun hended (Or.inl ⟨rfl, rfl⟩)⟩
    | panicked =>
      rw [superviseWorker, setTasks_tasks_self, setTasks_sys, setWorker_self]
      exact ⟨hlt, .supervise .panicked _ hrun hended (Or.inr ⟨rfl, rfl⟩)⟩
  | drainEnds i how hlt hdrain hrun hended =>
    cases hi
    rw [setTasks_tasks_self]
    exact ⟨hlt, .drainEnds how hdrain hrun hended⟩
  | _ => cases hi

/-- **Everybody else stands still.** -/
theorem Server.Effect.still (h : Server.Effect boot s l s' es) {j : WorkerId}
    (hj : l.mover ≠ some j) :
    s'.tasks j = s.tasks j ∧ (j < boot.entries.length → s'.sys.workers j = s.sys.workers j) := by
  have hne : ∀ {i}, l.mover = some i → j ≠ i := fun hi hji => hj (hji ▸ hi)
  cases h with
  | receive i l t hlt hrun hl => exact ⟨setTasks_tasks_of_ne _ _ _ (hne rfl), fun _ => rfl⟩
  | loop i l t st o hlt hrun hl ho =>
    exact ⟨setTasks_tasks_of_ne _ _ _ (hne rfl), fun _ => Sys.afterWorker_of_ne s.sys (hne rfl) o⟩
  | panic i hlt hrun =>
    exact ⟨setTasks_tasks_of_ne _ _ _ (hne rfl), fun _ => setWorker_of_ne s (hne rfl) _⟩
  | supervise i utcNow how hlt hrun hended =>
    cases how with
    | exited => exact ⟨setTasks_tasks_of_ne _ _ _ (hne rfl), fun _ => rfl⟩
    | panicked =>
      exact ⟨setTasks_tasks_of_ne _ _ _ (hne rfl), fun _ => setWorker_of_ne s (hne rfl) _⟩
  | drainEnds i how hlt hdrain hrun hended =>
    exact ⟨setTasks_tasks_of_ne _ _ _ (hne rfl), fun _ => rfl⟩
  | other l sys hl hs =>
    refine ⟨rfl, fun hlen => system_workers_of_ne (fun step heq => ?_) hs⟩
    exact absurd (hl j step heq) (Nat.not_le_of_lt hlen)
  | _ => exact ⟨rfl, fun _ => rfl⟩

/-- The number of spawned entries and of sends only grows. -/
theorem Server.Effect.version_le (h : Server.Effect boot s l s' es) : s.version ≤ s'.version := by
  cases h with
  | supervise i utcNow how hi hrun hended => cases how <;> exact Nat.le_refl _
  | failed | signal | serveEnds => exact Nat.le_succ _
  | _ => exact Nat.le_refl _

theorem Server.Effect.spawned_cases (h : Server.Effect boot s l s' es) :
    s'.spawned = s.spawned ∨
      (s'.spawned = s.spawned + 1 ∧ s.phase = .spawning ∧
        ∃ built, boot.build s.spawned = some (.ok built)) := by
  cases h with
  | spawned built hphase hbuild => exact Or.inr ⟨rfl, hphase, built, hbuild⟩
  | supervise i utcNow how hi hrun hended => cases how <;> exact Or.inl rfl
  | _ => exact Or.inl rfl

end

/-! ## 5. What is always true of a task -/

/-- A step between two await points of the loop that is neither the `select!` nor the end of a round. -/
def WorkerStep.inner : WorkerStep → Bool
  | .wake | .shutdown | .crash | .refreshGauges _ _ _ _ _ => false
  | _ => true

/-- **Everything that can be received.** -/
inductive LoopStep.Receives (s : Server) (i : WorkerId) :
    LoopStep → EmitterTasks → Option WorkerStep → Prop
  | elapsed (hn : (s.tasks i).notified = false) (hp : (s.tasks i).pending = false) :
      Receives s i .elapsed (s.tasks i) (some .wake)
  | changed (hphase : (s.sys.workers i).phase = .polling) (hn : (s.tasks i).notified = false)
      (hseen : (s.tasks i).seen ≠ s.version) :
      Receives s i .changed { s.tasks i with seen := s.version, notified := true } none
  | borrow (hn : (s.tasks i).notified = true) :
      Receives s i .borrow { s.tasks i with notified := false }
        (some (if s.stopping then .shutdown else .wake))
  | refresh (now : Timestamp) (dlqOk pendingOk : Bool) (utcNow : Timestamp) :
      Receives s i (.step (.refreshGauges now dlqOk pendingOk utcNow s.stopping))
        (if (s.sys.workers i).phase.afterBatch then { s.tasks i with seen := s.version }
          else s.tasks i)
        (some (.refreshGauges now dlqOk pendingOk utcNow s.stopping))
  | inner (st : WorkerStep) (hst : st.inner = true) : Receives s i (.step st) (s.tasks i) (some st)

theorem WorkerPhase.isPolling_iff {phase : WorkerPhase} :
    phase.isPolling = true ↔ phase = .polling := by
  cases phase <;> simp [isPolling]

theorem LoopStep.receive_cases {s : Server} {i : WorkerId} {l : LoopStep} {t : EmitterTasks}
    {taken : Option WorkerStep} (h : l.receive s i = some (t, taken)) :
    LoopStep.Receives s i l t taken := by
  cases l with
  | elapsed =>
    simp only [receive] at h
    split at h
    · rename_i hnot
      cases h
      exact .elapsed (by simpa using hnot.1) (by simpa using hnot.2)
    · cases h
  | changed =>
    simp only [receive] at h
    split at h
    · rename_i hready
      cases h
      exact .changed (WorkerPhase.isPolling_iff.mp hready.1) (by simpa using hready.2.1) hready.2.2
    · cases h
  | borrow =>
    simp only [receive] at h
    split at h
    · rename_i hn
      cases h
      exact .borrow hn
    · cases h
  | step st =>
    cases st with
    | wake | shutdown | crash => cases h
    | refreshGauges now dlqOk pendingOk utcNow stop =>
      simp only [receive] at h
      split at h
      · rename_i hstop
        cases h
        rw [hstop]
        exact .refresh now dlqOk pendingOk utcNow
      · cases h
    | _ =>
      cases h
      exact .inner _ rfl

/-- Only the `select!` leaves it. -/
theorem WorkerStep.run_polling {cfg : WorkerConfig} {i : WorkerId} {db : Database} {w : WorkerState}
    {o : WorkerOutcome} {step : WorkerStep} (h : step.run cfg i db w = some o)
    (hst : step.inner = true) : w.phase ≠ .polling := by
  intro hphase
  cases step with
  | wake | shutdown | crash | refreshGauges => cases hst
  | _ =>
    simp only [run, hphase] at h
    cases h

/-- **The invariant of the tasks of an entry.**  A worker that is told to stop by a version that it
has marked seen is at the `borrow` of its `select!`. -/
structure EmitterTasks.Inv (version : Nat) (t : EmitterTasks) (w : WorkerState) : Prop where
  running : t.worker = none ↔ w.phase ≠ .stopped
  proper : w.phase.Proper
  supervised : ∀ how, t.supervisor = some how → t.worker = some how
  drained : t.drain = some .exited → t.worker ≠ none
  notified : t.worker = none → t.notified = true → version ≠ 0 ∧ w.phase = .polling
  seen : t.worker = none → t.notified = false → t.seen = 0
  pending : t.worker = none → t.pending = true → w.phase = .polling

section Settle

variable (t : EmitterTasks) (phase : WorkerPhase) (version : Nat)

theorem EmitterTasks.settle_running :
    (t.settle phase version).worker = none ↔ phase ≠ .stopped := by
  cases phase <;> simp [settle]

@[simp] theorem EmitterTasks.settle_supervisor :
    (t.settle phase version).supervisor = t.supervisor := rfl

@[simp] theorem EmitterTasks.settle_drain : (t.settle phase version).drain = t.drain := rfl

@[simp] theorem EmitterTasks.settle_seen : (t.settle phase version).seen = t.seen := rfl

@[simp] theorem EmitterTasks.settle_notified : (t.settle phase version).notified = t.notified := rfl

theorem EmitterTasks.settle_pending (h : (t.settle phase version).pending = true) :
    phase = .polling := by
  simp only [settle, Bool.and_eq_true] at h
  exact WorkerPhase.isPolling_iff.mp h.1

end Settle

section

variable {Emitter Receiver : Type} {boot : Boot Emitter Receiver} {s : Server} {i : WorkerId}
  {t : EmitterTasks} {w : WorkerState}

theorem EmitterTasks.Inv.mono {version version' : Nat} (hle : version ≤ version')
    (h : t.Inv version w) : t.Inv version' w where
  running := h.running
  proper := h.proper
  supervised := h.supervised
  drained := h.drained
  notified hrun hn :=
    ⟨Nat.ne_of_gt (Nat.lt_of_lt_of_le (Nat.pos_of_ne_zero (h.notified hrun hn).1) hle),
      (h.notified hrun hn).2⟩
  seen := h.seen
  pending := h.pending

/-- A task that runs has no supervisor that has seen its end. -/
theorem EmitterTasks.Inv.supervisor_none {version : Nat} (h : t.Inv version w)
    (hrun : t.worker = none) : t.supervisor = none := by
  cases hsup : t.supervisor with
  | none => rfl
  | some how => rw [h.supervised how hsup] at hrun; cases hrun

theorem EmitterTasks.Inv.drain_ne {version : Nat} (h : t.Inv version w)
    (hrun : t.worker = none) : t.drain ≠ some .exited := fun hdrain => h.drained hdrain hrun

/-- The receiver after a step of the loop. -/
theorem Server.received {st : WorkerStep} {o : WorkerOutcome} {l : LoopStep}
    (hinv : (s.tasks i).Inv s.version (s.sys.workers i)) (hrun : (s.tasks i).worker = none)
    (hl : LoopStep.Receives s i l t (some st)) (ho : s.sys.workerRun boot.dep i st = some o) :
    t.supervisor = none ∧ t.drain ≠ some .exited ∧
      (o.next.phase = .stopped ∨ (t.notified = false ∧ t.seen = 0)) := by
  have hsup := hinv.supervisor_none hrun
  have hdrain := hinv.drain_ne hrun
  cases hl with
  | elapsed hn hp => exact ⟨hsup, hdrain, Or.inr ⟨hn, hinv.seen hrun hn⟩⟩
  | borrow hn =>
    have hstopping : s.stopping = true := by
      simpa [stopping] using (hinv.notified hrun hn).1
    rw [if_pos hstopping] at ho
    refine ⟨hsup, hdrain, Or.inl ?_⟩
    simp only [Sys.workerRun, WorkerStep.run] at ho
    split at ho
    · cases ho
      rfl
    · cases ho
  | refresh now dlqOk pendingOk utcNow =>
    obtain ⟨afterBatch, health, hphase, rfl⟩ := WorkerStep.run_refreshGauges ho
    have hn : (s.tasks i).notified = false := by
      rw [Bool.eq_false_iff]
      intro hn
      rw [(hinv.notified hrun hn).2] at hphase
      cases hphase
    have hseen := hinv.seen hrun hn
    rw [hphase]
    cases afterBatch with
    | false => exact ⟨hsup, hdrain, Or.inr ⟨hn, hseen⟩⟩
    | true =>
      refine ⟨hsup, hdrain, ?_⟩
      by_cases hstopping : s.stopping = true
      · exact Or.inl (by simp [hstopping])
      · exact Or.inr ⟨hn, by simpa [stopping, WorkerPhase.afterBatch] using hstopping⟩
  | inner st hst =>
    have hpolling := WorkerStep.run_polling ho hst
    have hn : (s.tasks i).notified = false := by
      rw [Bool.eq_false_iff]
      exact fun hn => hpolling (hinv.notified hrun hn).2
    exact ⟨hsup, hdrain, Or.inr ⟨hn, hinv.seen hrun hn⟩⟩

theorem Server.Moves.inv (h : Server.Moves boot s i t w)
    (hinv : (s.tasks i).Inv s.version (s.sys.workers i)) : t.Inv s.version w := by
  cases h with
  | receive l t hrun hl =>
    cases LoopStep.receive_cases hl with
    | changed hphase hn hseen =>
      refine ⟨hinv.running, hinv.proper, hinv.supervised, hinv.drained, fun _ _ => ⟨?_, hphase⟩,
        by simp, hinv.pending⟩
      rw [hinv.seen hrun hn] at hseen
      exact Ne.symm hseen
  | loop l t st o hrun hl ho =>
    obtain ⟨hsup, hdrain, hreceiver⟩ := received hinv hrun (LoopStep.receive_cases hl) ho
    have hnext : ∀ {p : Prop}, (t.settle o.next.phase s.version).worker = none →
        (o.next.phase = .stopped ∨ p) → p :=
      fun hr hor => hor.resolve_left ((t.settle_running _ _).mp hr)
    refine ⟨t.settle_running _ _, WorkerStep.run_proper ho hinv.proper, ?_, ?_, ?_, ?_, ?_⟩
    · intro how hs
      rw [EmitterTasks.settle_supervisor, hsup] at hs
      cases hs
    · exact fun hd => absurd hd hdrain
    · intro hr hn
      rw [EmitterTasks.settle_notified, (hnext hr hreceiver).1] at hn
      cases hn
    · exact fun hr _ => (hnext hr hreceiver).2
    · exact fun _ hp => t.settle_pending _ _ hp
  | panic hrun =>
    refine ⟨by simp, trivial, fun how hs => ?_, by simp, by simp, by simp, by simp⟩
    rw [hinv.supervisor_none hrun] at hs
    cases hs
  | supervise how health hrun hended hhealth =>
    refine ⟨hinv.running, hinv.proper, fun how' hs => ?_, hinv.drained, hinv.notified, hinv.seen,
      hinv.pending⟩
    cases hs
    exact hended
  | drainEnds how hdrain hrun hended =>
    refine ⟨hinv.running, hinv.proper, hinv.supervised, fun hd => ?_, hinv.notified, hinv.seen,
      hinv.pending⟩
    exact hended (Option.some.inj hd)

/-- Whatever has ended has ended for good. -/
theorem Server.Moves.ended (h : Server.Moves boot s i t w) :
    (∀ how, (s.tasks i).worker = some how → t.worker = some how) ∧
      (∀ how, (s.tasks i).supervisor = some how → t.supervisor = some how) ∧
      ∀ how, (s.tasks i).drain = some how → t.drain = some how := by
  cases h with
  | receive l t hrun hl =>
    cases LoopStep.receive_cases hl with
    | changed hphase hn hseen => exact ⟨fun _ h => h, fun _ h => h, fun _ h => h⟩
  | loop l t st o hrun hl ho =>
    have hkept : t.supervisor = (s.tasks i).supervisor ∧ t.drain = (s.tasks i).drain := by
      cases LoopStep.receive_cases hl with
      | refresh now dlqOk pendingOk utcNow => split <;> exact ⟨rfl, rfl⟩
      | _ => exact ⟨rfl, rfl⟩
    refine ⟨fun how hw => ?_, fun _ h => hkept.1.trans h, fun _ h => hkept.2.trans h⟩
    rw [hrun] at hw
    cases hw
  | panic hrun =>
    refine ⟨fun how hw => ?_, fun _ h => h, fun _ h => h⟩
    rw [hrun] at hw
    cases hw
  | supervise how health hrun hended hhealth =>
    refine ⟨fun _ h => h, fun how' hs => ?_, fun _ h => h⟩
    rw [hrun] at hs
    cases hs
  | drainEnds how hdrain hrun hended =>
    refine ⟨fun _ h => h, fun _ h => h, fun how' hd => ?_⟩
    rw [hrun] at hd
    cases hd

end

/-! ## 6. What is always true of the process -/

/-- The tasks among these handles that have panicked, by name. -/
def Boot.panickedTasks {Emitter Receiver : Type} (boot : Boot Emitter Receiver) (s : Server)
    (handles : List Handle) : List String :=
  (handles.filter fun h => s.ended h = some .panicked).map boot.taskName

/-- Why the process drains its tasks, after `n` entries: entry `n` failed to build, or there is none
and `axum::serve` has ended. -/
def Boot.EndsWith {Emitter Receiver : Type} (boot : Boot Emitter Receiver) (n : Nat)
    (ls : List ServeLabel) : Ending → Prop
  | .rollback e => boot.build n = some (.error e) ∧ ∀ result, .serveEnds result ∉ ls
  | .shutdown result =>
    boot.build n = none ∧ ∀ result', .serveEnds result' ∈ ls ↔ result' = result

/-- What is true in a phase, after the steps `ls`. -/
def Server.PhaseInv {Emitter Receiver : Type} (boot : Boot Emitter Receiver) (ls : List ServeLabel)
    (s : Server) : Prop :=
  match s.phase with
  | .spawning => s.version = 0 ∧ ∀ result, .serveEnds result ∉ ls
  | .serving => boot.build s.spawned = none ∧ ∀ result, .serveEnds result ∉ ls
  | .draining why todo panicked => s.version ≠ 0 ∧ boot.EndsWith s.spawned ls why ∧
      ∃ joined, boot.handles s.spawned = joined ++ todo ∧ (∀ h ∈ joined, (s.ended h).isSome) ∧
        panicked = boot.panickedTasks s joined
  | .returned result => ∃ why, boot.EndsWith s.spawned ls why ∧
      (∀ h ∈ boot.handles s.spawned, (s.ended h).isSome) ∧
        result = why.result (boot.panickedTasks s (boot.handles s.spawned))

/-- **The invariant of a server process.** -/
structure Server.Inv {Emitter Receiver : Type} (boot : Boot Emitter Receiver) (ls : List ServeLabel)
    (s : Server) : Prop where
  built : ∀ i < s.spawned, ∃ built, boot.build i = some (.ok built)
  unspawned : ∀ i, s.spawned ≤ i →
    s.tasks i = {} ∧ (i < boot.entries.length → s.sys.workers i = {})
  task : ∀ i < s.spawned, (s.tasks i).Inv s.version (s.sys.workers i)
  phase : s.PhaseInv boot ls

section

variable {Emitter Receiver : Type} {boot : Boot Emitter Receiver} {s s' : Server}
  {l : ServeLabel} {ls : List ServeLabel} {es : List Event}

theorem Boot.build_isSome {i : WorkerId} :
    (boot.build i).isSome = true ↔ i < boot.entries.length := by
  simp [Boot.build]

theorem Server.Inv.spawned_le (h : s.Inv boot ls) : s.spawned ≤ boot.entries.length := by
  by_contra hlt
  obtain ⟨built, hbuild⟩ := h.built _ (Nat.lt_of_not_le hlt)
  have hsome : (boot.build boot.entries.length).isSome = true := by rw [hbuild]; rfl
  exact absurd (Boot.build_isSome.mp hsome) (Nat.lt_irrefl _)

/-- The entry of a handle was spawned. -/
theorem Boot.mem_handles {n : Nat} {h : Handle} (hmem : h ∈ boot.handles n) :
    ∃ i < n, h = .worker i ∨ (h = .drain i ∧ boot.hasDrain i = true) := by
  obtain ⟨i, hi, hmem⟩ := List.mem_flatMap.mp hmem
  refine ⟨i, List.mem_range.mp hi, ?_⟩
  simp only [Boot.handlesOf] at hmem
  split at hmem
  · rename_i hdrain
    simp only [List.mem_cons, List.not_mem_nil, or_false] at hmem
    exact hmem.symm.imp id fun h => ⟨h, hdrain⟩
  · simp only [List.mem_cons, List.not_mem_nil, or_false] at hmem
    exact Or.inl hmem

theorem Boot.worker_mem_handles {n i : Nat} (hi : i < n) : .worker i ∈ boot.handles n := by
  refine List.mem_flatMap.mpr ⟨i, List.mem_range.mpr hi, ?_⟩
  simp only [Boot.handlesOf]
  split <;> simp

theorem Boot.drain_mem_handles {n i : Nat} (hi : i < n) (hdrain : boot.hasDrain i = true) :
    .drain i ∈ boot.handles n := by
  refine List.mem_flatMap.mpr ⟨i, List.mem_range.mpr hi, ?_⟩
  simp [Boot.handlesOf, hdrain]

/-- **A handle that is ready stays ready, with the same outcome.** -/
theorem Server.Effect.ended (h : Server.Effect boot s l s' es) {x : Handle}
    {how : TaskEnd} (hx : s.ended x = some how) : s'.ended x = some how := by
  have hkeep : ∀ i, (∀ how, (s.tasks i).supervisor = some how → (s'.tasks i).supervisor = some how) ∧
      ∀ how, (s.tasks i).drain = some how → (s'.tasks i).drain = some how := by
    intro i
    by_cases hi : l.mover = some i
    · exact (h.moves hi).2.ended.2
    · rw [(h.still hi).1]
      exact ⟨fun _ h => h, fun _ h => h⟩
  cases x with
  | drain i => exact (hkeep i).2 how hx
  | worker i => exact (hkeep i).1 how hx

theorem Boot.panickedTasks_congr {handles : List Handle}
    (h : ∀ x ∈ handles, s'.ended x = s.ended x) :
    boot.panickedTasks s' handles = boot.panickedTasks s handles := by
  have hfilter : (handles.filter fun x => s'.ended x = some .panicked)
      = handles.filter fun x => s.ended x = some .panicked :=
    List.filter_congr fun x hx => by rw [h x hx]
  rw [panickedTasks, panickedTasks, hfilter]

theorem Boot.panickedTasks_snoc (joined : List Handle) {x : Handle} {how : TaskEnd}
    (hx : s.ended x = some how) :
    boot.panickedTasks s (joined ++ [x]) = boot.collect (boot.panickedTasks s joined) x how := by
  cases how <;> simp [panickedTasks, collect, List.filter_append, hx]

theorem Boot.EndsWith.mono {n : Nat} {why : Ending} (hl : ∀ result, l ≠ .serveEnds result)
    (h : boot.EndsWith n ls why) : boot.EndsWith n (ls ++ [l]) why := by
  have hmem : ∀ result, .serveEnds result ∈ ls ++ [l] ↔ .serveEnds result ∈ ls := by
    intro result
    simp only [List.mem_append, List.mem_singleton, or_iff_left_iff_imp]
    exact fun heq => absurd heq.symm (hl result)
  cases why with
  | rollback e => exact ⟨h.1, fun result hm => h.2 result ((hmem result).mp hm)⟩
  | shutdown result => exact ⟨h.1, fun result' => (hmem result').trans (h.2 result')⟩

/-- A step that leaves the phase alone, and ends no `axum::serve`. -/
theorem Server.PhaseInv.keep (hinv : s.PhaseInv boot ls) (hl : ∀ result, l ≠ .serveEnds result)
    (hphase : s'.phase = s.phase) (hspawned : s'.spawned = s.spawned)
    (hversion : s'.version = s.version)
    (hended : ∀ x how, s.ended x = some how → s'.ended x = some how) :
    s'.PhaseInv boot (ls ++ [l]) := by
  have hnone : (∀ result, .serveEnds result ∉ ls) → ∀ result, .serveEnds result ∉ ls ++ [l] := by
    intro h result hm
    rcases List.mem_append.mp hm with hm | hm
    · exact h result hm
    · exact hl result (List.mem_singleton.mp hm).symm
  have hsome : ∀ x, (s.ended x).isSome → (s'.ended x).isSome ∧ s'.ended x = s.ended x := by
    intro x hx
    obtain ⟨how, hhow⟩ := Option.isSome_iff_exists.mp hx
    rw [hended x how hhow, hhow]
    exact ⟨rfl, rfl⟩
  unfold PhaseInv at hinv ⊢
  rw [hphase, hspawned, hversion]
  split at hinv
  · exact ⟨hinv.1, hnone hinv.2⟩
  · exact ⟨hinv.1, hnone hinv.2⟩
  · obtain ⟨hv, hends, joined, hhandles, hjoined, hpanicked⟩ := hinv
    refine ⟨hv, hends.mono hl, joined, hhandles, fun x hx => (hsome x (hjoined x hx)).1, ?_⟩
    rw [hpanicked, Boot.panickedTasks_congr fun x hx => (hsome x (hjoined x hx)).2]
  · obtain ⟨why, hends, hjoined, hresult⟩ := hinv
    refine ⟨why, hends.mono hl, fun x hx => (hsome x (hjoined x hx)).1, ?_⟩
    rw [hresult, Boot.panickedTasks_congr fun x hx => (hsome x (hjoined x hx)).2]

theorem Server.Effect.phaseInv (h : Server.Effect boot s l s' es) (hinv : s.PhaseInv boot ls) :
    s'.PhaseInv boot (ls ++ [l]) := by
  have hended : ∀ x how, s.ended x = some how → s'.ended x = some how := fun x how => h.ended
  cases h with
  | spawned built hphase hbuild =>
    simp only [PhaseInv, hphase] at hinv ⊢
    exact ⟨hinv.1, by simpa using hinv.2⟩
  | failed e hphase hbuild =>
    simp only [PhaseInv, hphase] at hinv ⊢
    refine ⟨Nat.succ_ne_zero _, ⟨hbuild, by simpa using hinv.2⟩, [], rfl, by simp, rfl⟩
  | up hphase hbuild =>
    simp only [PhaseInv, hphase] at hinv ⊢
    exact ⟨hbuild, by simpa using hinv.2⟩
  | signal hphase =>
    simp only [PhaseInv, hphase] at hinv ⊢
    exact ⟨hinv.1, by simpa using hinv.2⟩
  | serveEnds result hphase =>
    simp only [PhaseInv, hphase] at hinv ⊢
    refine ⟨Nat.succ_ne_zero _, ⟨hinv.1, fun result' => ?_⟩, [], rfl, by simp, rfl⟩
    simp only [List.mem_append, List.mem_singleton, ServeLabel.serveEnds.injEq,
      or_iff_right (hinv.2 result')]
  | join why x todo panicked how hphase hx =>
    simp only [PhaseInv, hphase] at hinv ⊢
    obtain ⟨hv, hends, joined, hhandles, hjoined, rfl⟩ := hinv
    refine ⟨hv, hends.mono (by simp), joined ++ [x], ?_, ?_, ?_⟩
    · rw [hhandles, List.append_assoc, List.singleton_append]
    · intro y hy
      rcases List.mem_append.mp hy with hy | hy
      · exact hjoined y hy
      · rw [List.mem_singleton.mp hy]
        exact Option.isSome_iff_exists.mpr ⟨how, hx⟩
    · exact (Boot.panickedTasks_snoc joined hx).symm
  | finish why panicked hphase =>
    simp only [PhaseInv, hphase] at hinv ⊢
    obtain ⟨-, hends, joined, hhandles, hjoined, rfl⟩ := hinv
    rw [List.append_nil] at hhandles
    rw [hhandles]
    exact ⟨why, hends.mono (by simp), hjoined, rfl⟩
  | supervise i utcNow how hi hrun hw =>
    cases how <;> exact hinv.keep (by simp) rfl rfl rfl hended
  | _ => exact hinv.keep (by simp) rfl rfl rfl hended

theorem Server.Effect.inv (h : Server.Effect boot s l s' es) (hinv : s.Inv boot ls) :
    s'.Inv boot (ls ++ [l]) := by
  have hlen := hinv.spawned_le
  have hunspawned : ∀ i, s.spawned ≤ i →
      s'.tasks i = {} ∧ (i < boot.entries.length → s'.sys.workers i = {}) := by
    intro i hi
    have hne : l.mover ≠ some i := fun hm => absurd (h.moves hm).1 (Nat.not_lt_of_le hi)
    obtain ⟨htasks, hworkers⟩ := hinv.unspawned i hi
    exact ⟨(h.still hne).1.trans htasks, fun hi => ((h.still hne).2 hi).trans (hworkers hi)⟩
  refine ⟨?_, ?_, ?_, h.phaseInv hinv.phase⟩
  · intro i hi
    rcases h.spawned_cases with heq | ⟨heq, -, hbuilt⟩
    · exact hinv.built i (heq ▸ hi)
    · rw [heq] at hi
      rcases Nat.lt_or_eq_of_le (Nat.le_of_lt_succ hi) with hi | rfl
      · exact hinv.built i hi
      · exact hbuilt
  · intro i hi
    refine hunspawned i ?_
    rcases h.spawned_cases with heq | ⟨heq, -, -⟩ <;> omega
  · intro i hi
    by_cases hi' : i < s.spawned
    · refine EmitterTasks.Inv.mono h.version_le ?_
      by_cases hm : l.mover = some i
      · exact (h.moves hm).2.inv (hinv.task i hi')
      · rw [(h.still hm).1, (h.still hm).2 (Nat.lt_of_lt_of_le hi' hlen)]
        exact hinv.task i hi'
    · -- The entry was spawned by this very step.
      obtain ⟨heq, -, built, hbuilt⟩ := h.spawned_cases.resolve_left fun heq => hi' (heq ▸ hi)
      obtain rfl : i = s.spawned := by omega
      obtain ⟨htasks, hworkers⟩ := hunspawned _ (Nat.le_refl s.spawned)
      rw [htasks, hworkers (Boot.build_isSome.mp (by rw [hbuilt]; rfl))]
      exact ⟨by simp, trivial, by simp, by simp, by simp, by simp, by simp⟩

theorem Server.start_inv (boot : Boot Emitter Receiver) (db : Database) :
    (Server.start boot db).Inv boot [] := by
  refine ⟨fun i hi => absurd hi (Nat.not_lt_zero i), fun i _ => ⟨rfl, fun _ => rfl⟩,
    fun i hi => absurd hi (Nat.not_lt_zero i), ?_⟩
  exact ⟨rfl, by simp⟩

/-- **The invariant holds in every state that is reached.** -/
theorem serving_inv {db : Database} (h : (serving boot).exec (.start boot db) ls = some s) :
    s.Inv boot ls :=
  Lts.labels_induction (I := fun ls s => s.Inv boot ls) (Server.start_inv boot db)
    (fun _ _ _ _ _ hinv hstep => (serving_step_cases hstep).inv hinv) h

end

/-! ## 7. A small server -/

/-- A server with these entries, whose constructors only write down their arguments. -/
def bootOf (entries : List EmitterEntry) : Boot (List String) Unit where
  dep := { sampleDep with
    workers := fun i => ((entries[i]?).map (·.worker)).getD (sampleDep.workers i) }
  entries := entries
  new := loggingConstructors
  worker i e h := by simp [h]

/-- One channel. -/
def oneChannel : Boot (List String) Unit := bootOf [{ name := "a", emitterType := "channel" }]

/-- Its worker panics, and the server is stopped. -/
def panicAndStop : List ServeLabel :=
  [.spawnNext, .up, .panic 0, .supervise 0 0, .drainEnds 0 .exited, .signal, .serveEnds (.ok ()),
    .join, .join, .finish]

end Hookbox
