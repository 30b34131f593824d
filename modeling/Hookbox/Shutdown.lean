/-
# Graceful shutdown

The loop of `EmitterWorker::spawn` listens to a `tokio::sync::watch` channel at two places: in the
`select!` beside the sleep, where `changed()` tells of a version it has not seen and the value is
borrowed afterwards, and with `borrow_and_update` after a batch.  In between anything can be sent,
and the senders can go away.

* `Signal`: the channel, and what the receiver of this loop has seen of it.
* `spawned`: the system in which the steps of one worker are driven by its signal, and all its
  storage calls succeed.  `spawned_step_cases`: its steps are steps of the system.
* `Sys.Owed`: the invariant.  What the worker claimed it has outstanding, or has marked.
* `graceful_shutdown`: when the loop has ended, nothing it claimed is in flight.
-/
import Hookbox.SingleWorker

namespace Hookbox

open Event (claims)

/-! ## 1. The signal and the loop -/

/-- The state of a `watch` channel of `bool`, and of one receiver. -/
structure Signal where
  value : Bool
  version : Nat
  /-- Every sender was dropped. -/
  closed : Bool
  /-- The last version that `changed` or `borrow_and_update` has marked seen. -/
  seen : Nat
  /-- `changed` has returned `Ok(())`, and the value is still to be borrowed. -/
  notified : Bool := false

/-- What can happen around one worker. -/
inductive LoopLabel where
  | send (value : Bool)
  | dropSender
  /-- The sleep of the `select!` is over. -/
  | elapsed
  /-- `changed()` returns `Ok(())`. -/
  | changed
  /-- `changed()` returns an error: nothing new was sent, and nothing will be. -/
  | disconnected
  /-- `*shutdown_rx.borrow()`, after `changed`. -/
  | borrow
  /-- The rest of the loop, up to its next await point. -/
  | step (step : WorkerStep)
  /-- Somebody else moves. -/
  | other (l : Label)

/-- The storage calls of the step succeed. -/
def WorkerStep.succeeds (db : Database) (w : WorkerState) : WorkerStep → Bool
  | .reclaimFailed | .claimLost _ _ _ | .claimFailed | .loadFailed | .crash => false
  | .loadReceipt =>
    match w.phase with
    | .loading (d :: _) _ => (db.loadClaimed d).isOk
    | _ => true
  | .mark _ _ outcome => outcome = .ok
  | .refreshGauges _ dlqOk pendingOk _ _ => dlqOk && pendingOk
  | _ => true

/-- The loop is in its `select!`. -/
def WorkerPhase.isPolling : WorkerPhase → Bool
  | .polling => true
  | _ => false

/-- The loop has run a batch and looks at the signal next. -/
def WorkerPhase.afterBatch : WorkerPhase → Bool
  | .refreshing afterBatch => afterBatch
  | _ => false

/-- The database, the parties, and the signal of one worker. -/
structure Spawned where
  sys : Sys
  signal : Signal

section

variable (dep : Deployment) (i : WorkerId) (s : Spawned)

/-- When a label can occur, and what it does to the signal. -/
def LoopLabel.signal : LoopLabel → Option Signal
  | .send value =>
    if s.signal.closed then none
    else some { s.signal with value := value, version := s.signal.version + 1 }
  | .dropSender => some { s.signal with closed := true }
  | .elapsed => if s.signal.notified then none else some s.signal
  | .changed =>
    if (s.sys.workers i).phase.isPolling ∧ ¬ s.signal.notified ∧ s.signal.seen ≠ s.signal.version
    then some { s.signal with seen := s.signal.version, notified := true }
    else none
  | .disconnected =>
    if ¬ s.signal.notified ∧ s.signal.seen = s.signal.version ∧ s.signal.closed then some s.signal
    else none
  | .borrow => if s.signal.notified then some { s.signal with notified := false } else none
  | .step .wake => none
  | .step .shutdown => none
  | .step (.refreshGauges now dlqOk pendingOk utcNow stop) =>
    -- `borrow_and_update` follows the refresh without an await, and only after a batch.
    if stop = s.signal.value ∧
        (WorkerStep.refreshGauges now dlqOk pendingOk utcNow stop).succeeds s.sys.db
          (s.sys.workers i) then
      some (if (s.sys.workers i).phase.afterBatch then { s.signal with seen := s.signal.version }
        else s.signal)
    else none
  | .step st => if st.succeeds s.sys.db (s.sys.workers i) then some s.signal else none
  | .other (.worker j _) => if j = i then none else some s.signal
  | .other _ => some s.signal

/-- The step of the system that a label comes to, if any. -/
def LoopLabel.label : LoopLabel → Option Label
  | .send _ | .dropSender | .changed => none
  | .elapsed => some (.worker i .wake)
  | .disconnected => some (.worker i .shutdown)
  | .borrow => some (.worker i (if s.signal.value then .shutdown else .wake))
  | .step st => some (.worker i st)
  | .other l => some l

def LoopLabel.run (l : LoopLabel) : Option Spawned := do
  let signal ← l.signal i s
  match l.label i s with
  | none => return { s with signal }
  | some l' => return { sys := ← (system dep).step s.sys l', signal }

def LoopLabel.obs (l : LoopLabel) : List Event :=
  match l.label i s with
  | none => []
  | some l' => (system dep).obs s.sys l'

end

/-- The system around the loop of worker `i`.  A panic takes the task down without ending its loop, and
is no step of this system. -/
def spawned (dep : Deployment) (i : WorkerId) : Lts Spawned LoopLabel Event where
  step := LoopLabel.run dep i
  obs := LoopLabel.obs dep i

/-- The worker is spawned with a receiver of the channel. -/
def Spawned.start (dep : Deployment) (db : Database) (signal : Signal) : Spawned :=
  ⟨.start dep db, signal⟩

/-- **A step of the loop is a step of the system**, in which the storage calls of the worker succeed,
or nobody moves. -/
theorem spawned_step_cases {dep : Deployment} {i : WorkerId} {s s' : Spawned} {l : LoopLabel}
    (h : (spawned dep i).step s l = some s') :
    (s'.sys = s.sys ∧ (spawned dep i).obs s l = []) ∨
      ∃ l', (system dep).step s.sys l' = some s'.sys ∧
        (spawned dep i).obs s l = (system dep).obs s.sys l' ∧
        ∀ step, l' = .worker i step → step.succeeds s.sys.db (s.sys.workers i) = true := by
  simp only [spawned, LoopLabel.run, Option.bind_eq_bind, Option.bind_eq_some_iff] at h ⊢
  obtain ⟨signal, hsignal, h⟩ := h
  cases hl : l.label i s with
  | none =>
    rw [hl] at h
    cases h
    exact Or.inl ⟨rfl, by simp only [LoopLabel.obs, hl]⟩
  | some l' =>
    rw [hl] at h
    obtain ⟨sys, hsys, h⟩ := Option.bind_eq_some_iff.mp h
    cases h
    refine Or.inr ⟨l', hsys, by simp only [LoopLabel.obs, hl], ?_⟩
    rintro step rfl
    cases l with
    | send value => cases hl
    | dropSender => cases hl
    | changed => cases hl
    | elapsed =>
      cases hl
      rfl
    | disconnected =>
      cases hl
      rfl
    | borrow =>
      simp only [LoopLabel.label, Option.some.injEq, Label.worker.injEq, true_and] at hl
      subst hl
      split <;> rfl
    | step step' =>
      cases hl
      have hguard : ∀ (g : Signal) {c : Prop} [Decidable c],
          (if c then some g else none) = some signal → c := by
        intro g c _ hite
        by_contra hc
        rw [if_neg hc] at hite
        cases hite
      cases step with
      | wake => cases hsignal
      | shutdown => cases hsignal
      | refreshGauges now dlqOk pendingOk utcNow stop => exact (hguard _ hsignal).2
      | _ => exact hguard s.signal hsignal
    | other l' =>
      cases hl
      simp [LoopLabel.signal] at hsignal

/-! ## 2. What a successful step does with the rows of the batch -/

/-- **A step whose storage calls succeed drops no row**, unless it marks it. -/
inductive WorkerStep.Progress (i : WorkerId) (db : Database) (w : WorkerState)
    (o : WorkerOutcome) : Prop where
  | keep (hclaims : o.next.claims = w.claims) (hkeep : ∀ id ∈ w.rowIds, id ∈ o.next.rowIds)
      (hnone : ∀ c id, .claimed c id ∉ o.events)
  | claim (hidle : w.rowIds = []) (hclaims : o.next.claims = w.claims + 1)
      (hpicked : ∀ c id, .claimed c id ∈ o.events → c = ⟨i, w.claims + 1⟩ ∧ id ∈ o.next.rowIds)
  | mark (id : DeliveryId) (m : DeliveryUpdate.Mark) (hclaims : o.next.claims = w.claims)
      (hkeep : ∀ id' ∈ w.rowIds, id' ≠ id → id' ∈ o.next.rowIds)
      (hevents : o.events = [.marked ⟨i, w.claims⟩ id m (db.inFlight id)])

/-- A phase in which nothing is outstanding has no row to drop. -/
theorem rowIds_of_idle {w : WorkerState} (h : w.phase.outstanding = []) : w.rowIds = [] := by
  rw [WorkerState.rowIds, WorkerState.outstanding, h, List.map_nil]

/-- The rows that a claim returns, as the worker has them. -/
theorem mem_rowIds_claimed {db : Database} {e : String} {n : Nat} {now : Timestamp}
    {locked picked : List DeliveryId} (h : db.ClaimSelect e n now locked picked) {w : WorkerState}
    (hphase : w.phase = afterLoad (db.claimedRows picked now) []) {id : DeliveryId}
    (hid : id ∈ picked) : id ∈ w.rowIds := by
  rw [rowIds_afterLoad w _ _ hphase, List.map_nil, List.append_nil]
  obtain ⟨d, hd, rfl, -⟩ := h.mem_keys hid
  exact List.mem_map.mpr ⟨_, Database.mem_claimedRows.mpr ⟨d, hd, hid, rfl⟩, rfl⟩

/-- A step from a phase in which nothing is outstanding, if it is no claim. -/
theorem WorkerStep.Progress.idle {i : WorkerId} {db : Database} {w : WorkerState} {o : WorkerOutcome}
    (hidle : w.phase.outstanding = []) (hclaims : o.next.claims = w.claims)
    (hnone : ∀ c id, .claimed c id ∉ o.events) : WorkerStep.Progress i db w o := by
  refine .keep hclaims (fun id hid => ?_) hnone
  rw [rowIds_of_idle hidle] at hid
  cases hid

/-- A row that the step claims is in the new batch. -/
theorem WorkerStep.Progress.claimed {i : WorkerId} {db : Database} {w : WorkerState}
    {o : WorkerOutcome} (h : WorkerStep.Progress i db w o) {k : Nat} {id : DeliveryId}
    (hev : .claimed ⟨i, k⟩ id ∈ o.events) : k = o.next.claims ∧ id ∈ o.next.rowIds := by
  cases h with
  | keep hclaims hkeep hnone => exact absurd hev (hnone _ _)
  | claim hidle hclaims hpicked =>
    obtain ⟨hc, hid⟩ := hpicked _ _ hev
    cases hc
    exact ⟨hclaims.symm, hid⟩
  | mark id m hclaims hkeep hevents =>
    rw [hevents] at hev
    simp at hev

theorem WorkerStep.progress {cfg : WorkerConfig} {i : WorkerId} {db : Database} {w : WorkerState}
    {o : WorkerOutcome} {step : WorkerStep} (h : step.run cfg i db w = some o)
    (hok : step.succeeds db w = true) : WorkerStep.Progress i db w o := by
  cases step with
  | reclaimFailed => cases hok
  | claimLost => cases hok
  | claimFailed => cases hok
  | loadFailed => cases hok
  | crash => cases hok
  | claimPending now locked picked =>
    obtain ⟨hphase, hselect, rfl⟩ := run_claimPending h
    refine .claim (rowIds_of_idle (by rw [hphase]; rfl)) rfl fun c id hev => ?_
    obtain ⟨id', hid', heq⟩ := List.mem_map.mp hev
    cases heq
    exact ⟨rfl, mem_rowIds_claimed hselect rfl hid'⟩
  | loadReceipt =>
    obtain ⟨d, todo, done, hphase, ⟨p, hload, rfl⟩ | ⟨e, hload, -⟩⟩ := run_loadReceipt h
    · refine .keep rfl (fun id hid => ?_) (by simp)
      rw [rowIds_afterLoad w (d :: todo) done hphase] at hid
      rw [rowIds_afterLoad _ todo (done ++ [p]) rfl, List.map_append, List.map_singleton,
        loadClaimed_fst hload]
      simp only [List.map_cons, List.cons_append, List.mem_cons, List.mem_append,
        List.not_mem_nil, or_false] at hid ⊢
      tauto
    · rw [succeeds, hphase] at hok
      simp only [hload] at hok
      cases hok
  | callEmit id =>
    obtain ⟨batch, d, receipt, hphase, -, rfl⟩ := run_callEmit h
    refine .keep rfl (fun id' hid => ?_) (by simp)
    rwa [rowIds_dispatching rfl, advance_rowIds, ← rowIds_dispatching hphase]
  | emitReturned id result =>
    obtain ⟨batch, d, receipt, hphase, -, rfl⟩ := run_emitReturned h
    refine .keep rfl (fun id' hid => ?_) (by simp)
    rwa [rowIds_dispatching rfl, advance_rowIds, ← rowIds_dispatching hphase]
  | mark id input outcome =>
    simp only [succeeds, decide_eq_true_eq] at hok
    subst hok
    obtain ⟨batch, d, receipt, result, hphase, -, next, hnext, hclaims, -, hcases⟩ := run_mark h
    obtain ⟨-, rfl⟩ := hcases.resolve_left fun hfailed => absurd hfailed.1 (by decide)
    refine .mark id _ hclaims (fun id' hid hne => ?_) rfl
    rw [rowIds_dispatching hphase] at hid
    rw [WorkerState.rowIds, WorkerState.outstanding, hnext, outstanding_afterMark, List.map_map]
    obtain ⟨x, hx, rfl⟩ := List.mem_map.mp hid
    exact List.mem_map.mpr ⟨x, List.mem_filter.mpr ⟨hx, by simpa using hne⟩, rfl⟩
  | _ =>
    -- Between two batches nothing is outstanding.
    simp only [run] at h
    split at h
    · rename_i hphase
      cases h
      exact .idle (by rw [hphase]; rfl) rfl (by simp [Database.reclaimEvents])
    · cases h

/-! ## 3. What a worker owes -/

section Rows

variable {cfg : WorkerConfig} {i : WorkerId} {db : Database} {w : WorkerState} {o : WorkerOutcome}

theorem Database.not_inFlight_updateDeliveries {u : DeliveryUpdate} {id : DeliveryId}
    (h : ∀ d ∈ db.deliveries.rows, d.deliveryId = id → (u.run d).state ≠ .inFlight) :
    (db.updateDeliveries u).inFlight id = false := by
  rw [Bool.eq_false_iff]
  intro hin
  obtain ⟨d', hd', hid, hst⟩ := Database.inFlight_iff.mp hin
  obtain ⟨d, hd, rfl⟩ := List.mem_map.mp hd'
  rw [u.run_deliveryId] at hid
  exact h d hd hid hst

/-- **Only a claim puts a row in flight.** -/
theorem WorkerStep.Effect.inFlight (heff : WorkerStep.Effect cfg i db w o) {id : DeliveryId}
    (hout : db.inFlight id = false) :
    (db.updateDeliveries o.update).inFlight id = false ∨ ∃ c, .claimed c id ∈ o.events := by
  have hrow : ∀ d ∈ db.deliveries.rows, d.deliveryId = id → d.state ≠ .inFlight := by
    intro d hd hid hst
    rw [Database.inFlight_iff.mpr ⟨d, hd, hid, hst⟩] at hout
    cases hout
  cases heff with
  | quiet | load | call | returned =>
    exact Or.inl (Database.not_inFlight_updateDeliveries fun d hd hid => hrow d hd hid)
  | reclaim w' now hclaims hout =>
    refine Or.inl (Database.not_inFlight_updateDeliveries fun d hd hid => ?_)
    rcases DeliveryUpdate.reclaimExpired_cases cfg.name cfg.leaseDuration now d with
      ⟨-, heq⟩ | ⟨-, heq⟩
    · rw [heq]
      exact hrow d hd hid
    · rw [heq]
      simp
  | claim w' now locked picked hclaims hselect hout =>
    by_cases hp : id ∈ picked
    · exact Or.inr ⟨_, List.mem_map_of_mem hp⟩
    · refine Or.inl (Database.not_inFlight_updateDeliveries fun d hd hid => ?_)
      rw [Database.claim_run, if_neg (by rwa [hid])]
      exact hrow d hd hid
  | mark w' x receipt result input hclaims hx hout hfuture =>
    refine Or.inl (Database.not_inFlight_updateDeliveries fun d hd hid => ?_)
    rcases DeliveryUpdate.mark_cases x.deliveryId (dispatchMark cfg x result input) d with
      ⟨-, heq⟩ | ⟨-, -, heq⟩
    · rw [heq]
      exact hrow d hd hid
    · rw [heq]
      exact DeliveryUpdate.Mark.set_state_ne _ _

/-- A mark leaves its row out of flight. -/
theorem WorkerStep.Effect.marked_out (heff : WorkerStep.Effect cfg i db w o) {c : ClaimId}
    {id : DeliveryId} {m : DeliveryUpdate.Mark} {took : Bool}
    (hev : .marked c id m took ∈ o.events) :
    (db.updateDeliveries o.update).inFlight id = false := by
  obtain ⟨-, hupdate, -⟩ := heff.of_marked hev
  rw [hupdate]
  refine Database.not_inFlight_updateDeliveries fun d hd hid => ?_
  rw [DeliveryUpdate.mark_run]
  split
  · exact DeliveryUpdate.Mark.set_state_ne _ _
  · rename_i hnot
    exact fun hst => hnot ⟨hid, hst⟩

end Rows

/-- **The invariant**, after the history `h`.  What worker `i` claimed it has outstanding, or has
marked; and only what it has outstanding is in flight. -/
structure Sys.Owed (dep : Deployment) (i : WorkerId) (h : List Event) (s : Sys) : Prop where
  own : s.OwnRows dep
  held : ∀ x ∈ (s.workers i).outstanding, s.db.Held x
  claimed : ∀ k id, .claimed ⟨i, k⟩ id ∈ h →
    (k = (s.workers i).claims ∧ id ∈ (s.workers i).rowIds) ∨ ∃ m, .marked ⟨i, k⟩ id m true ∈ h
  out : ∀ k id, .claimed ⟨i, k⟩ id ∈ h → s.db.Owns (dep.workers i).name id ∧
    (id ∈ (s.workers i).rowIds ∨ s.db.inFlight id = false)

theorem Sys.start_owed (dep : Deployment) (i : WorkerId) (db : Database) :
    (Sys.start dep db).Owed dep i [] :=
  ⟨Sys.start_ownRows dep db, fun x hx => by
    simp [Sys.start, WorkerState.outstanding, WorkerPhase.outstanding] at hx, by simp, by simp⟩

section Step

variable {dep : Deployment} {i : WorkerId} {h es : List Event} {s s' : Sys}

/-- A step of somebody else, which leaves the rows of the worker's emitter where they are. -/
theorem Sys.Owed.frame (hs : s.Owed dep i h) (hown : s'.OwnRows dep)
    (hsame : s'.workers i = s.workers i)
    (hrows : ∀ d ∈ s.db.deliveries.rows, d.emitterName = (dep.workers i).name →
      d ∈ s'.db.deliveries.rows)
    (hes : ∀ k id, .claimed ⟨i, k⟩ id ∉ es) : s'.Owed dep i (h ++ es) where
  own := hown
  held := by
    intro x hx
    rw [hsame] at hx
    obtain ⟨d, hd, hid, hrest⟩ := hs.held x hx
    obtain ⟨d₀, hd₀, hid₀, hname⟩ := hs.own i x hx
    obtain rfl := Table.eq_of_key_eq hd₀ hd (hid₀.trans hid.symm)
    exact ⟨d₀, hrows d₀ hd₀ hname, hid, hrest⟩
  claimed := by
    intro k id hev
    rw [hsame]
    rcases List.mem_append.mp hev with hev | hev
    · rcases hs.claimed k id hev with hout | ⟨m, hm⟩
      · exact Or.inl hout
      · exact Or.inr ⟨m, List.mem_append_left _ hm⟩
    · exact absurd hev (hes k id)
  out := by
    intro k id hev
    rw [hsame]
    rcases List.mem_append.mp hev with hev | hev
    · obtain ⟨⟨d, hd, rfl, hname⟩, hout⟩ := hs.out k id hev
      have hd' := hrows d hd hname
      refine ⟨⟨d, hd', rfl, hname⟩, ?_⟩
      rwa [Database.inFlight_of_mem hd', ← Database.inFlight_of_mem hd]
    · exact absurd hev (hes k id)

/-- A step of the worker itself, whose storage calls succeed. -/
theorem Sys.Owed.own_step {o : WorkerOutcome} {step : WorkerStep} (hs : s.Owed dep i h)
    (hrun : s.workerRun dep i step = some o)
    (hok : step.succeeds s.db (s.workers i) = true) :
    (s.afterWorker i o).Owed dep i (h ++ o.events) := by
  have heff := WorkerStep.run_cases hrun
  have hprog := WorkerStep.progress hrun hok
  have hfresh : ∀ k id, .claimed ⟨i, k⟩ id ∈ o.events →
      k = o.next.claims ∧ id ∈ o.next.rowIds := fun k id hev => hprog.claimed hev
  refine ⟨(Sys.Effect.worker i o heff).ownRows hs.own, ?_, ?_, ?_⟩
  · intro x hx
    rw [Sys.afterWorker_self] at hx
    exact heff.held hs.held hx
  · intro k id hev
    rw [Sys.afterWorker_self]
    rcases List.mem_append.mp hev with hev | hev
    · rcases hs.claimed k id hev with ⟨hk, hid⟩ | ⟨m, hm⟩
      · cases hprog with
        | keep hclaims hkeep hnone => exact Or.inl ⟨hk.trans hclaims.symm, hkeep id hid⟩
        | claim hidle hclaims hpicked =>
          rw [hidle] at hid
          cases hid
        | mark id' m hclaims hkeep hevents =>
          by_cases hne : id = id'
          · -- The row is held, so the mark takes effect.
            subst hne
            obtain ⟨x, hx, rfl⟩ := List.mem_map.mp hid
            obtain ⟨d, hd, hdid, hst, -⟩ := hs.held x hx
            have htook := Database.inFlight_iff.mpr ⟨d, hd, hdid, hst⟩
            refine Or.inr ⟨m, List.mem_append_right _ ?_⟩
            rw [hevents, hk, htook]
            exact List.mem_cons_self
          · exact Or.inl ⟨hk.trans hclaims.symm, hkeep id hid hne⟩
      · exact Or.inr ⟨m, List.mem_append_left _ hm⟩
    · exact Or.inl (hfresh k id hev)
  · intro k id hev
    rw [Sys.afterWorker_self]
    rcases List.mem_append.mp hev with hev | hev
    · obtain ⟨howns, hout⟩ := hs.out k id hev
      refine ⟨howns.updateDeliveries _, ?_⟩
      rcases hout with hid | hout
      · cases hprog with
        | keep hclaims hkeep hnone => exact Or.inl (hkeep id hid)
        | claim hidle hclaims hpicked =>
          rw [hidle] at hid
          cases hid
        | mark id' m hclaims hkeep hevents =>
          by_cases hne : id = id'
          · subst hne
            exact Or.inr (heff.marked_out (hevents ▸ List.mem_cons_self))
          · exact Or.inl (hkeep id hid hne)
      · rcases heff.inFlight hout with hout | ⟨c, hc⟩
        · exact Or.inr hout
        · obtain ⟨rfl, -⟩ := heff.of_claimed hc
          exact Or.inl (hfresh _ id hc).2
    · obtain ⟨now, d, hd, hdid, hel⟩ := heff.claimed hev
      have howns : s.db.Owns (dep.workers i).name id := ⟨d, hd, hdid, hel.1⟩
      exact ⟨howns.updateDeliveries _, Or.inl (hfresh k id hev).2⟩

/-- **A step of the system keeps the invariant**, when the storage calls of the worker succeed and
nobody else serves its emitter. -/
theorem Sys.Owed.step (hname : ∀ j, j ≠ i → (dep.workers j).name ≠ (dep.workers i).name)
    (hs : s.Owed dep i h) {l : Label} (hstep : (system dep).step s l = some s')
    (hok : ∀ step, l = .worker i step → step.succeeds s.db (s.workers i) = true) :
    s'.Owed dep i (h ++ (system dep).obs s l) := by
  have hown := (system_step_cases hstep).ownRows hs.own
  cases l with
  | worker j step =>
    obtain ⟨o, ho, rfl⟩ := Option.map_eq_some_iff.mp hstep
    have hobs : (system dep).obs s (.worker j step) = o.events := by
      simp [system, Label.obs, ho]
    rw [hobs]
    by_cases hj : j = i
    · subst hj
      exact hs.own_step ho (hok step rfl)
    · have heff := WorkerStep.run_cases ho
      refine hs.frame hown (Sys.afterWorker_of_ne s (Ne.symm hj) o) ?_ ?_
      · intro d hd hemit
        refine List.mem_map.mpr ⟨d, hd, ?_⟩
        exact heff.frame (hs.own j) hd (by rw [hemit]; exact Ne.symm (hname j hj)) rfl
      · exact fun k id hev => hj (congrArg ClaimId.worker (heff.of_claimed hev).1).symm
  | ingest call step =>
    obtain ⟨o, heff, rfl, hobs⟩ := system_ingest hstep
    rw [hobs]
    obtain ⟨receiptId, now, names, draw, hrows⟩ := heff.grows.deliveries
    refine hs.frame hown rfl (fun d hd _ => ?_) fun k id hev => ?_
    · exact hrows ▸ List.mem_append_left _ hd
    · exact absurd (heff.callOf _ hev) (by simp [Event.callOf])
  | admin a =>
    obtain ⟨db, hrun, rfl, hobs⟩ := system_admin hstep
    rw [hobs]
    obtain ⟨receiptId, now, names, draw, hrows⟩ := (AdminStep.grows hrun).deliveries
    refine hs.frame hown rfl (fun d hd _ => ?_) (by simp)
    exact hrows ▸ List.mem_append_left _ hd

end Step

/-! ## 4. When the loop has ended -/

/-- **Nothing is in flight** of what worker `i` claimed: each row was taken out by the mark of its
own dispatch, and is still out. -/
structure NothingInFlight (i : WorkerId) (h : List Event) (db : Database) : Prop where
  marked : ∀ k id, .claimed ⟨i, k⟩ id ∈ h → ∃ m, .marked ⟨i, k⟩ id m true ∈ h
  out : ∀ k id, .claimed ⟨i, k⟩ id ∈ h → db.inFlight id = false

section Runs

variable {dep : Deployment} {i : WorkerId} {s s' : Spawned} {ls : List LoopLabel}

theorem spawned_owed (hname : ∀ j, j ≠ i → (dep.workers j).name ≠ (dep.workers i).name)
    {db : Database} {signal : Signal}
    (h : (spawned dep i).exec (.start dep db signal) ls = some s) :
    s.sys.Owed dep i ((spawned dep i).trace (.start dep db signal) ls) := by
  refine Lts.exec_induction (M := spawned dep i) (I := fun h s => s.sys.Owed dep i h)
    (Sys.start_owed dep i db) ?_ h
  intro h s l s' hs hstep
  rcases spawned_step_cases hstep with ⟨hsys, hobs⟩ | ⟨l', hsys, hobs, hok⟩
  · rw [hsys, hobs, List.append_nil]
    exact hs
  · rw [hobs]
    exact hs.step hname hsys hok

/-- A worker that has stopped takes no step. -/
theorem WorkerStep.run_stopped {cfg : WorkerConfig} {db : Database} {w : WorkerState}
    (hphase : w.phase = .stopped) {step : WorkerStep} (hok : step.succeeds db w = true) :
    step.run cfg i db w = none := by
  cases step with
  | crash => cases hok
  | _ => simp only [run, hphase]

/-- **Once the loop has ended**, it stays so, and it claims nothing. -/
theorem spawned_stopped {l : LoopLabel} (hstop : (s.sys.workers i).phase = .stopped)
    (h : (spawned dep i).step s l = some s') :
    (s'.sys.workers i).phase = .stopped ∧ ∀ k id, .claimed ⟨i, k⟩ id ∉ (spawned dep i).obs s l := by
  rcases spawned_step_cases h with ⟨hsys, hobs⟩ | ⟨l', hsys, hobs, hok⟩
  · rw [hsys, hobs]
    exact ⟨hstop, by simp⟩
  · rw [hobs]
    cases l' with
    | worker j step =>
      obtain ⟨o, ho, heq⟩ := Option.map_eq_some_iff.mp hsys
      have hj : i ≠ j := by
        rintro rfl
        rw [Sys.workerRun, WorkerStep.run_stopped hstop (hok step rfl)] at ho
        cases ho
      have hobs' : (system dep).obs s.sys (.worker j step) = o.events := by
        simp [system, Label.obs, ho]
      rw [← heq, Sys.afterWorker_of_ne s.sys hj o, hobs']
      have heff := WorkerStep.run_cases ho
      exact ⟨hstop, fun k id hev => hj (congrArg ClaimId.worker (heff.of_claimed hev).1)⟩
    | ingest call step =>
      obtain ⟨o, heff, heq, hobs'⟩ := system_ingest hsys
      rw [heq, hobs']
      exact ⟨hstop, fun k id hev => absurd (heff.callOf _ hev) (by simp [Event.callOf])⟩
    | admin a =>
      obtain ⟨db, -, heq, hobs'⟩ := system_admin hsys
      rw [heq, hobs']
      exact ⟨hstop, by simp⟩

theorem spawned_stopped_run (hstop : (s.sys.workers i).phase = .stopped)
    (h : (spawned dep i).exec s ls = some s') :
    (s'.sys.workers i).phase = .stopped ∧
      ∀ k id, .claimed ⟨i, k⟩ id ∉ (spawned dep i).trace s ls := by
  refine Lts.exec_induction (M := spawned dep i) (I := fun h s =>
    (s.sys.workers i).phase = .stopped ∧ ∀ k id, .claimed ⟨i, k⟩ id ∉ h) ⟨hstop, by simp⟩ ?_ h
  rintro h s l s' ⟨hphase, hnone⟩ hstep
  obtain ⟨hphase', hnone'⟩ := spawned_stopped hphase hstep
  refine ⟨hphase', fun k id hev => ?_⟩
  rcases List.mem_append.mp hev with hev | hev
  · exact hnone k id hev
  · exact hnone' k id hev

theorem spawned_nothing_in_flight
    (hname : ∀ j, j ≠ i → (dep.workers j).name ≠ (dep.workers i).name) {db : Database}
    {signal : Signal} (h : (spawned dep i).exec (.start dep db signal) ls = some s)
    (hstop : (s.sys.workers i).phase = .stopped) :
    NothingInFlight i ((spawned dep i).trace (.start dep db signal) ls) s.sys.db := by
  have howed := spawned_owed hname h
  have hidle : (s.sys.workers i).rowIds = [] := rowIds_of_idle (by rw [hstop]; rfl)
  refine ⟨fun k id hev => ?_, fun k id hev => ?_⟩
  · rcases howed.claimed k id hev with ⟨-, hid⟩ | hmarked
    · rw [hidle] at hid
      cases hid
    · exact hmarked
  · rcases (howed.out k id hev).2 with hid | hout
    · rw [hidle] at hid
      cases hid
    · exact hout

/-- **Graceful shutdown leaves nothing in flight.**  On every run around the single worker of an
emitter, from any database and any state of its signal, whenever values are sent or the senders are
dropped: if the loop has ended, then every row it ever claimed was taken out of flight by the mark of
its own dispatch, and is out of flight; and so it stays, and the loop claims nothing any more. -/
theorem graceful_shutdown
    (hname : ∀ j, j ≠ i → (dep.workers j).name ≠ (dep.workers i).name) {db : Database}
    {signal : Signal} (h : (spawned dep i).exec (.start dep db signal) ls = some s)
    (hstop : (s.sys.workers i).phase = .stopped) :
    NothingInFlight i ((spawned dep i).trace (.start dep db signal) ls) s.sys.db ∧
      ∀ ls' s', (spawned dep i).exec s ls' = some s' →
        (s'.sys.workers i).phase = .stopped ∧
          (∀ k id, .claimed ⟨i, k⟩ id ∉ (spawned dep i).trace s ls') ∧
          NothingInFlight i ((spawned dep i).trace (.start dep db signal) (ls ++ ls'))
            s'.sys.db := by
  refine ⟨spawned_nothing_in_flight hname h hstop, fun ls' s' h' => ?_⟩
  obtain ⟨hphase, hnone⟩ := spawned_stopped_run hstop h'
  refine ⟨hphase, hnone, spawned_nothing_in_flight hname ?_ hphase⟩
  rw [Lts.exec_append, h, Option.bind_some, h']

end Runs

/-- The worker claims a row; the signal comes while its emitter is being called, and is found after
the batch. -/
def signalDuringBatch : List LoopLabel :=
  acceptOne.map .other ++ [.elapsed, .step (.reclaimExpired 0), .step (.claimPending 0 [] [⟨0⟩]),
    .step .loadReceipt, .step (.callEmit ⟨0⟩), .send true, .step (.emitReturned ⟨0⟩ (.ok ())),
    .step (.mark ⟨0⟩ ⟨0, 0, 1000000, 0, 0⟩ .ok), .step (.refreshGauges 0 true true 0 true)]

theorem graceful_shutdown_during_batch :
    ∃ s, (spawned soloDep 1).exec (.start soloDep .empty ⟨false, 0, false, 0, false⟩)
        signalDuringBatch = some s ∧ (s.sys.workers 1).phase = .stopped ∧
      claims ((spawned soloDep 1).trace (.start soloDep .empty ⟨false, 0, false, 0, false⟩)
        signalDuringBatch) ⟨0⟩ = 1 ∧
      NothingInFlight 1 ((spawned soloDep 1).trace
        (.start soloDep .empty ⟨false, 0, false, 0, false⟩) signalDuringBatch) s.sys.db := by
  have hname : ∀ j, j ≠ 1 → (soloDep.workers j).name ≠ (soloDep.workers 1).name := by
    intro j hj hname
    refine hj ?_
    simpa using congrArg List.length (String.ofList_injective hname)
  exact ⟨_, rfl, rfl, by decide, (graceful_shutdown hname rfl rfl).1⟩

end Hookbox
