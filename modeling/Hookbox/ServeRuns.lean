/-
# What a server process does

Two results about the runs of a server process.  They hold for every order of its steps, among the
requests, the operators and the other processes, and wherever its tasks panic.

* `serving_refines`: for the database and the events, a server process is a run of the system, and a
  panic is a crash.
* `serve_returns`: what `serve_inner` returns, and what it leaves behind: nothing.
-/
import Hookbox.Serve

namespace Hookbox

/-! ## 1. The system underneath -/

/-- The same state of the system, in which a worker that panicked has crashed. -/
structure Server.Matches (s : Server) (t : Sys) : Prop where
  db : t.db = s.sys.db
  caches : t.caches = s.sys.caches
  calls : t.calls = s.sys.calls
  workers : ∀ i, (s.tasks i).worker ≠ some .panicked → t.workers i = s.sys.workers i
  panicked : ∀ i, (s.tasks i).worker = some .panicked →
    t.workers i = { claims := (s.sys.workers i).claims }

section

variable {Emitter Receiver : Type} {boot : Boot Emitter Receiver} {s s' : Server}
  {l : ServeLabel} {ls : List ServeLabel} {es : List Event} {t : Sys}

/-- A step of anybody but a panicked worker can be taken in the system as well, with the same
events. -/
theorem Server.Matches.step {sys : Sys} {l : Label} (hm : s.Matches t)
    (hl : ∀ j step, l = .worker j step → (s.tasks j).worker ≠ some .panicked)
    (hs : (system boot.dep).step s.sys l = some sys) :
    ∃ t', (system boot.dep).step t l = some t' ∧
      (system boot.dep).obs t l = (system boot.dep).obs s.sys l ∧
      Server.Matches { s with sys } t' := by
  cases l with
  | worker j step =>
    have hj := hl j step rfl
    obtain ⟨o, ho, rfl⟩ := Option.map_eq_some_iff.mp hs
    have hrun : t.workerRun boot.dep j step = some o := by
      rw [Sys.workerRun, hm.db, hm.workers j hj]
      exact ho
    refine ⟨t.afterWorker j o, by simp [system, Label.step, hrun],
      by simp [system, Label.obs, hrun, ho], ?_, hm.caches, hm.calls, fun i hi => ?_, fun i hi => ?_⟩
    · exact congrArg (·.updateDeliveries o.update) hm.db
    · by_cases hij : i = j
      · subst hij
        rw [Sys.afterWorker_self, Sys.afterWorker_self]
      · rw [Sys.afterWorker_of_ne t hij, Sys.afterWorker_of_ne s.sys hij]
        exact hm.workers i hi
    · have hij : i ≠ j := fun hij => hj (hij ▸ hi)
      rw [Sys.afterWorker_of_ne t hij, Sys.afterWorker_of_ne s.sys hij]
      exact hm.panicked i hi
  | ingest call step =>
    obtain ⟨o, ho, rfl⟩ := Option.map_eq_some_iff.mp hs
    have hrun : t.ingestRun boot.dep call step = some o := by
      rw [Sys.ingestRun, hm.db, hm.caches, hm.calls]
      exact ho
    refine ⟨t.afterIngest call o, by simp [system, Label.step, hrun],
      by simp [system, Label.obs, hrun, ho], rfl, ?_, ?_, hm.workers, hm.panicked⟩
    · exact congrArg (Function.update · call.server o.cache) hm.caches
    · exact congrArg (Function.update · call o.next) hm.calls
  | admin a =>
    obtain ⟨db, hrun, rfl⟩ := Option.map_eq_some_iff.mp hs
    rw [← hm.db] at hrun
    exact ⟨{ t with db }, by simp [system, Label.step, hrun], rfl,
      rfl, hm.caches, hm.calls, hm.workers, hm.panicked⟩

/-- A step that moves no party of the system. -/
theorem Server.Matches.of_tasks (hm : s.Matches t) (hsys : s'.sys = s.sys)
    (htasks : ∀ i, (s'.tasks i).worker = (s.tasks i).worker) : s'.Matches t where
  db := by rw [hsys, hm.db]
  caches := by rw [hsys, hm.caches]
  calls := by rw [hsys, hm.calls]
  workers i hi := by rw [hsys, hm.workers i (htasks i ▸ hi)]
  panicked i hi := by rw [hsys, hm.panicked i (htasks i ▸ hi)]

theorem Server.setTasks_worker {i : WorkerId} {tasks : EmitterTasks}
    (h : tasks.worker = (s.tasks i).worker) (j : WorkerId) :
    ((s.setTasks i tasks).tasks j).worker = (s.tasks j).worker := by
  by_cases hj : j = i
  · rw [hj, setTasks_tasks_self, h]
  · rw [setTasks_tasks_of_ne _ _ _ hj]

/-- **One step of the process is at most one step of the system.** -/
theorem Server.Effect.matches (h : Server.Effect boot s l s' es) (hinv : s.Inv boot ls)
    (hm : s.Matches t) :
    ∃ ls' t', (system boot.dep).exec t ls' = some t' ∧
      (system boot.dep).trace t ls' = es ∧ s'.Matches t' := by
  cases h with
  | receive i l tasks hi hrun hl =>
    refine ⟨[], t, rfl, rfl, hm.of_tasks rfl (setTasks_worker ?_)⟩
    cases LoopStep.receive_cases hl with
    | changed hphase hn hseen => rfl
  | loop i l tasks st o hi hrun hl ho =>
    have hne : (s.tasks i).worker ≠ some .panicked := by rw [hrun]; simp
    have hs : (system boot.dep).step s.sys (.worker i st) = some (s.sys.afterWorker i o) := by
      simp [system, Label.step, ho]
    obtain ⟨t', ht', hobs, hm'⟩ := hm.step (fun j step heq => by cases heq; exact hne) hs
    have hev : (system boot.dep).obs s.sys (.worker i st) = o.events := by
      simp [system, Label.obs, ho]
    refine ⟨[.worker i st], t', by rw [Lts.exec_cons, ht', Option.bind_some, Lts.exec_nil], ?_, ?_⟩
    · rw [Lts.trace_cons ht', Lts.trace_nil, List.append_nil, hobs, hev]
    · have hrunning : (tasks.settle o.next.phase s.version).worker ≠ some .panicked := by
        simp only [EmitterTasks.settle]
        split <;> simp
      refine ⟨hm'.db, hm'.caches, hm'.calls, fun j hj => ?_, fun j hj => ?_⟩
      · by_cases hji : j = i
        · rw [hji]
          exact hm'.workers i hne
        · rw [afterLoop, setTasks_tasks_of_ne _ _ _ hji] at hj
          exact hm'.workers j hj
      · by_cases hji : j = i
        · rw [hji, afterLoop, setTasks_tasks_self] at hj
          exact absurd hj hrunning
        · rw [afterLoop, setTasks_tasks_of_ne _ _ _ hji] at hj
          exact hm'.panicked j hj
  | panic i hi hrun =>
    have hne : (s.tasks i).worker ≠ some .panicked := by rw [hrun]; simp
    refine ⟨[.worker i .crash], t.afterWorker i _, rfl, rfl, ?_, hm.caches, hm.calls,
      fun j hj => ?_, fun j hj => ?_⟩
    · rw [Sys.afterWorker]
      exact (updateDeliveries_nop t.db).trans hm.db
    · have hji : j ≠ i := by
        rintro rfl
        rw [afterPanic, setTasks_tasks_self] at hj
        exact hj rfl
      rw [afterPanic, setTasks_tasks_of_ne _ _ _ hji] at hj
      rw [Sys.afterWorker_of_ne t hji, hm.workers j hj]
      exact (setWorker_of_ne s hji _).symm
    · by_cases hji : j = i
      · subst hji
        rw [Sys.afterWorker_self, hm.workers j hne, afterPanic, setTasks_sys, setWorker_self]
      · rw [afterPanic, setTasks_tasks_of_ne _ _ _ hji] at hj
        rw [Sys.afterWorker_of_ne t hji, hm.panicked j hj, afterPanic, setTasks_sys,
          setWorker_of_ne s hji]
  | supervise i utcNow how hi hrun hended =>
    cases how with
    | exited => exact ⟨[], t, rfl, rfl, hm.of_tasks rfl (setTasks_worker rfl)⟩
    | panicked =>
      -- The worker has nothing left but its health, which the system has forgotten.
      have hkeep : ∀ j, ((s.superviseWorker i utcNow .panicked).tasks j).worker = (s.tasks j).worker :=
        setTasks_worker (s := s.setWorker i _) rfl
      refine ⟨[], t, rfl, rfl, hm.db, hm.caches, hm.calls, fun j hj => ?_, fun j hj => ?_⟩
      · rw [hkeep] at hj
        have hji : j ≠ i := fun hji => hj (hji ▸ hended)
        rw [superviseWorker, setTasks_sys, setWorker_of_ne s hji]
        exact hm.workers j hj
      · rw [hkeep] at hj
        rw [superviseWorker, setTasks_sys]
        by_cases hji : j = i
        · rw [hji, setWorker_self]
          exact hm.panicked i hended
        · rw [setWorker_of_ne s hji]
          exact hm.panicked j hj
  | drainEnds i how hi hdrain hrun hended =>
    exact ⟨[], t, rfl, rfl, hm.of_tasks rfl (setTasks_worker rfl)⟩
  | other l sys hl hs =>
    have hne : ∀ j step, l = .worker j step → (s.tasks j).worker ≠ some .panicked := by
      intro j step heq
      rw [(hinv.unspawned j (Nat.le_trans hinv.spawned_le (hl j step heq))).1]
      simp
    obtain ⟨t', ht', hobs, hm'⟩ := hm.step hne hs
    refine ⟨[l], t', by rw [Lts.exec_cons, ht', Option.bind_some, Lts.exec_nil], ?_, hm'⟩
    rw [Lts.trace_cons ht', Lts.trace_nil, List.append_nil, hobs]
  | _ => exact ⟨[], t, rfl, rfl, hm.of_tasks rfl fun _ => rfl⟩

/-- **Along a run** the server keeps its invariant and matches a state of the system. -/
theorem serving_matches {db : Database} (h : (serving boot).exec (.start boot db) ls = some s) :
    (∃ ls, s.Inv boot ls) ∧ ∃ ls' t, (system boot.dep).exec (.start boot.dep db) ls' = some t ∧
      s.Matches t ∧
      (system boot.dep).trace (.start boot.dep db) ls' = (serving boot).trace (.start boot db) ls := by
  have hstart : (Server.start boot db).Matches (.start boot.dep db) :=
    ⟨rfl, rfl, rfl, fun _ _ => rfl, fun _ hi => by cases hi⟩
  refine Lts.exec_induction (M := serving boot)
    (I := fun h s => (∃ ls, s.Inv boot ls) ∧ ∃ ls' t,
      (system boot.dep).exec (.start boot.dep db) ls' = some t ∧ s.Matches t ∧
        (system boot.dep).trace (.start boot.dep db) ls' = h)
    ⟨⟨[], Server.start_inv boot db⟩, [], _, rfl, hstart, rfl⟩ ?_ h
  rintro h s l s' ⟨⟨ls, hinv⟩, ls', t, ht, hm, rfl⟩ hstep
  have heff := serving_step_cases hstep
  obtain ⟨ms, t', ht', htrace, hm'⟩ := heff.matches hinv hm
  refine ⟨⟨_, heff.inv hinv⟩, ls' ++ ms, t', ?_, hm', ?_⟩
  · rw [Lts.exec_append, ht, Option.bind_some, ht']
  · rw [Lts.trace_append ht, htrace]

/-- **A server process refines the system.**  Whatever is spawned, supervised, signalled, joined or
rolled back, and whichever tasks panic, the database, the requests, the workers and everything that can
be observed go through a run of the system, in which a panic is a crash without a restart. -/
theorem serving_refines {db : Database} (h : (serving boot).exec (.start boot db) ls = some s) :
    ∃ ls' t, (system boot.dep).exec (.start boot.dep db) ls' = some t ∧ s.Matches t ∧
      (system boot.dep).trace (.start boot.dep db) ls' = (serving boot).trace (.start boot db) ls :=
  (serving_matches h).2

theorem serving_refines_panic :
    ∃ s, (serving oneChannel).exec (.start oneChannel .empty) panicAndStop = some s ∧
      ∃ ls' t, (system oneChannel.dep).exec (.start oneChannel.dep .empty) ls' = some t ∧
        s.Matches t ∧ (system oneChannel.dep).trace (.start oneChannel.dep .empty) ls'
          = (serving oneChannel).trace (.start oneChannel .empty) panicAndStop :=
  ⟨_, rfl, serving_refines
    (show (serving oneChannel).exec (.start oneChannel .empty) panicAndStop = some _ from rfl)⟩

/-! ## 2. The end of the process -/

/-- Once `serve_inner` has returned, everything moves but the process. -/
theorem Server.Effect.returned (h : Server.Effect boot s l s' es) (hinv : s.Inv boot ls)
    {result : Except ServeError Unit} (hphase : s.phase = .returned result) :
    (∃ l', l = .other l') ∧ s'.phase = s.phase := by
  have hall : ∀ x ∈ boot.handles s.spawned, (s.ended x).isSome := by
    have hp := hinv.phase
    unfold PhaseInv at hp
    rw [hphase] at hp
    obtain ⟨why, -, hall, -⟩ := hp
    exact hall
  -- No supervisor is still to end, and so no worker.
  have hsup : ∀ i < s.spawned, (s.tasks i).supervisor ≠ none := fun i hi heq => by
    have hsome := hall _ (Boot.worker_mem_handles hi)
    simp [Server.ended, heq] at hsome
  have hworker : ∀ i < s.spawned, (s.tasks i).worker ≠ none := fun i hi hrun =>
    hsup i hi ((hinv.task i hi).supervisor_none hrun)
  cases h with
  | other l sys hl hs => exact ⟨⟨l, rfl⟩, rfl⟩
  | spawned built hphase' | failed e hphase' | up hphase' | signal hphase' | serveEnds r hphase'
  | join why x todo panicked how hphase' | finish why panicked hphase' =>
    rw [hphase] at hphase'
    cases hphase'
  | receive i l tasks hi hrun | loop i l tasks st o hi hrun | panic i hi hrun =>
    exact absurd hrun (hworker i hi)
  | supervise i utcNow how hi hrun => exact absurd hrun (hsup i hi)
  | drainEnds i how hi hdrain hrun =>
    have hsome := hall _ (Boot.drain_mem_handles hi hdrain)
    simp [Server.ended, hrun] at hsome

theorem serving_returned {result : Except ServeError Unit} (hinv : s.Inv boot ls)
    (hphase : s.phase = .returned result) {after : List ServeLabel}
    (h : (serving boot).exec s after = some s') : ∀ l ∈ after, ∃ l', l = .other l' := by
  induction after generalizing s ls with
  | nil => simp
  | cons l after ih =>
    obtain ⟨s₁, hs₁, hr⟩ := Lts.exec_cons_eq_some.mp h
    have heff := serving_step_cases hs₁
    obtain ⟨hl, hphase₁⟩ := heff.returned hinv hphase
    intro l' hl'
    rcases List.mem_cons.mp hl' with rfl | hl'
    · exact hl
    · exact ih (heff.inv hinv) (hphase₁.trans hphase) hr l' hl'

/-- **What `serve_inner` returns, and what it leaves behind.**  Once the pipeline is built: when it has
returned, after a failed start as after a shutdown, every task that it spawned has ended, and none of
them moves again.  It returns the error of the first entry that failed to build; else the error of
`axum::serve`; else the names of the tasks that panicked, in the order in which they were spawned; else
nothing. -/
theorem serve_returns {db : Database} {result : Except ServeError Unit}
    (h : (serving boot).exec (.start boot db) ls = some s) (hphase : s.phase = .returned result) :
    (∃ why, boot.EndsWith s.spawned ls why ∧
      result = why.result (boot.panickedTasks s (boot.handles s.spawned))) ∧
    (∀ i < s.spawned, (∃ built, boot.build i = some (.ok built)) ∧ (s.tasks i).worker.isSome ∧
      (s.tasks i).supervisor = (s.tasks i).worker ∧
      (boot.hasDrain i = true → (s.tasks i).drain.isSome)) ∧
    ∀ after s', (serving boot).exec s after = some s' → ∀ l ∈ after, ∃ l', l = .other l' := by
  have hinv := serving_inv h
  have hp := hinv.phase
  simp only [Server.PhaseInv, hphase] at hp
  obtain ⟨why, hends, hall, hresult⟩ := hp
  refine ⟨⟨why, hends, hresult⟩, fun i hi => ?_, fun after s' h' => serving_returned hinv hphase h'⟩
  obtain ⟨how, hhow⟩ := Option.isSome_iff_exists.mp (hall _ (Boot.worker_mem_handles hi))
  have hworker := (hinv.task i hi).supervised how hhow
  refine ⟨hinv.built i hi, by rw [hworker]; rfl, hhow.trans hworker.symm, fun hdrain => ?_⟩
  exact hall _ (Boot.drain_mem_handles hi hdrain)

end

theorem serve_returns_panicked :
    ∃ s, (serving oneChannel).exec (.start oneChannel .empty) panicAndStop = some s ∧
      s.phase = .returned (.error (.panicked ["a"])) ∧
      (∃ why, oneChannel.EndsWith s.spawned panicAndStop why ∧ .error (.panicked ["a"])
        = why.result (oneChannel.panickedTasks s (oneChannel.handles s.spawned))) ∧
      (∀ i < s.spawned, (∃ built, oneChannel.build i = some (.ok built)) ∧ (s.tasks i).worker.isSome ∧
        (s.tasks i).supervisor = (s.tasks i).worker ∧
        (oneChannel.hasDrain i = true → (s.tasks i).drain.isSome)) ∧
      ∀ after s', (serving oneChannel).exec s after = some s' → ∀ l ∈ after, ∃ l', l = .other l' :=
  ⟨_, rfl, rfl, serve_returns
    (show (serving oneChannel).exec (.start oneChannel .empty) panicAndStop = some _ from rfl) rfl⟩

end Hookbox
