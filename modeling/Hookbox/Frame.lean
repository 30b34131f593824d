/-
# Workers and the rows of their emitter

A `mark_*` names a row by its id alone.  That it never hits a row of another emitter rests on an
invariant: what a worker has outstanding are rows of its own emitter (`Sys.OwnRows`).  From it:

* `WorkerStep.Effect.frame`: a worker step leaves the rows of other emitters alone.
* `WorkerStep.run_congr`: what a worker step comes to depends only on the receipts and on the rows
  of the worker's own emitter.
* `worker_steps_commute`: steps of workers of different emitters commute.
-/
import Hookbox.System

namespace Hookbox

/-! ## 1. Own rows -/

/-- The rows of one emitter, in all their columns. -/
def Database.deliveriesOf (db : Database) (f : String) : List WebhookDelivery :=
  db.deliveries.rows.filter fun d => d.emitterName = f

/-- The row with this id is one of the emitter's. -/
def Database.Owns (db : Database) (e : String) (id : DeliveryId) : Prop :=
  ∃ d ∈ db.deliveries.rows, d.deliveryId = id ∧ d.emitterName = e

/-- Every row a worker has outstanding is a row of its own emitter. -/
def Sys.OwnRows (dep : Deployment) (s : Sys) : Prop :=
  ∀ i, ∀ x ∈ (s.workers i).outstanding, s.db.Owns (dep.workers i).name x.delivery.deliveryId

theorem Database.Owns.updateDeliveries {db : Database} {e : String} {id : DeliveryId}
    (h : db.Owns e id) (u : DeliveryUpdate) : (db.updateDeliveries u).Owns e id := by
  obtain ⟨d, hd, hid, he⟩ := h
  exact ⟨u.run d, List.mem_map_of_mem hd, by rw [u.run_deliveryId, hid],
    by rw [u.run_emitterName, he]⟩

theorem Database.Owns.grows {db db' : Database} {e : String} {id : DeliveryId} (h : db.Owns e id)
    (hg : db.Grows db') : db'.Owns e id := by
  obtain ⟨d, hd, hrest⟩ := h
  obtain ⟨receiptId, now, names, draw, hrows⟩ := hg.deliveries
  exact ⟨d, by rw [hrows]; exact List.mem_append_left _ hd, hrest⟩

theorem Sys.Effect.ownRows {dep : Deployment} {s s' : Sys} {es : List Event}
    (heff : Sys.Effect dep s s' es) (h : s.OwnRows dep) : s'.OwnRows dep := by
  cases heff with
  | environment s' es hworkers hdb hes =>
    intro i x hx
    rw [hworkers] at hx
    exact (h i x hx).grows hdb
  | worker i o heff =>
    intro j x hx
    rcases Sys.outstanding_afterWorker hx with ⟨rfl, hx'⟩ | ⟨-, hx'⟩
    · rcases heff.outstanding_id hx' with ⟨y, hy, hxy, -⟩ | ⟨now, locked, picked, hselect, -, hd, -⟩
      · rw [← hxy]
        exact (h j y hy).updateDeliveries _
      · obtain ⟨d₀, hd₀, hpick, heq⟩ := Database.mem_claimedRows.mp hd
        have howns : s.db.Owns (dep.workers j).name x.delivery.deliveryId :=
          ⟨d₀, hd₀, by rw [heq], (hselect.eligible hd₀ hpick).1⟩
        exact howns.updateDeliveries _
    · exact (h j x hx').updateDeliveries _

theorem Sys.start_ownRows (dep : Deployment) (db : Database) : (Sys.start dep db).OwnRows dep := by
  intro i x hx
  simp [Sys.start, WorkerState.outstanding, WorkerPhase.outstanding] at hx

/-- **On every run, workers only have rows of their own emitter outstanding.** -/
theorem system_ownRows {dep : Deployment} {db : Database} {ls : List Label} {s : Sys}
    (h : (system dep).exec (.start dep db) ls = some s) : s.OwnRows dep := by
  refine Lts.exec_invariant (I := fun s => s.OwnRows dep) (Sys.start_ownRows dep db) ?_ h
  intro s l s' hs hstep
  exact (system_step_cases hstep).ownRows hs

/-! ## 2. What a worker step leaves alone -/

section Frame

variable {cfg : WorkerConfig} {i : WorkerId} {db : Database} {w : WorkerState} {o : WorkerOutcome}

/-- **A worker step leaves the rows of other emitters alone**, whatever their columns hold. -/
theorem WorkerStep.Effect.frame (heff : WorkerStep.Effect cfg i db w o)
    (hown : ∀ x ∈ w.outstanding, db.Owns cfg.name x.delivery.deliveryId) {d : WebhookDelivery}
    (hd : d ∈ db.deliveries.rows) (hne : d.emitterName ≠ cfg.name) {d' : WebhookDelivery}
    (hid : d'.identity = d.identity) : o.update.run d' = d' := by
  have hdid : d'.deliveryId = d.deliveryId := congrArg (·.deliveryId) hid
  have hen : d'.emitterName = d.emitterName := congrArg (·.emitterName) hid
  cases heff with
  | quiet w' hclaims hout => rfl
  | load w' x receipt hclaims hx hload hout => rfl
  | reclaim w' now hclaims hout =>
    rcases DeliveryUpdate.reclaimExpired_cases cfg.name cfg.leaseDuration now d' with
      ⟨-, heq⟩ | ⟨hex, -⟩
    · exact heq
    · exact absurd (hen.symm.trans hex.1) hne
  | claim w' now locked picked hclaims hselect hout =>
    rw [Database.claim_run, if_neg]
    intro hpick
    rw [hdid] at hpick
    exact hne (hselect.eligible hd hpick).1
  | call w' x receipt hclaims hx hout => rfl
  | returned w' x receipt result hclaims hx hout => rfl
  | mark w' x receipt result input hclaims hx hout hfuture =>
    rw [DeliveryUpdate.mark_run, if_neg]
    rintro ⟨hx', -⟩
    obtain ⟨d₀, hd₀, hid₀, hen₀⟩ := hown _ hx
    -- The key leads back to `d`, which belongs to somebody else.
    have hkey : d₀.deliveryId = d.deliveryId := (hid₀.trans hx'.symm).trans hdid
    rw [Table.eq_of_key_eq hd₀ hd hkey] at hen₀
    exact hne hen₀

theorem deliveriesOf_updateDeliveries {u : DeliveryUpdate} {f : String}
    (h : ∀ d ∈ db.deliveries.rows, d.emitterName = f → u.run d = d) :
    (db.updateDeliveries u).deliveriesOf f = db.deliveriesOf f := by
  have hp : ((fun d : WebhookDelivery => decide (d.emitterName = f)) ∘ u.run)
      = fun d => decide (d.emitterName = f) := by
    funext d
    simp
  rw [Database.deliveriesOf, Database.updateDeliveries_rows, List.filter_map, hp]
  refine (List.map_congr_left fun d hd => ?_).trans (List.map_id _)
  obtain ⟨hmem, hname⟩ := List.mem_filter.mp hd
  exact h d hmem (of_decide_eq_true hname)

end Frame

/-! ## 3. What a worker step depends on -/

/-- Two databases that a worker of `f` cannot tell apart. -/
structure Database.AgreeOn (f : String) (db db' : Database) : Prop where
  receipts : db.receipts = db'.receipts
  rows : db.deliveriesOf f = db'.deliveriesOf f

section Agree

variable {f : String} {db db' : Database} (h : db.AgreeOn f db')

include h

theorem Database.AgreeOn.filter_rows {p : WebhookDelivery → Bool}
    (hp : ∀ d, p d = true → d.emitterName = f) :
    db.deliveries.rows.filter p = db'.deliveries.rows.filter p := by
  have hown : ∀ rows : List WebhookDelivery,
      rows.filter p = (rows.filter fun d => d.emitterName = f).filter p := by
    intro rows
    rw [List.filter_filter]
    refine List.filter_congr fun d _ => ?_
    cases hd : p d with
    | false => simp
    | true => simp [hp d hd]
  have hrows := h.rows
  simp only [Database.deliveriesOf] at hrows
  rw [hown db.deliveries.rows, hown db'.deliveries.rows, hrows]

theorem Database.AgreeOn.get?_eq {id : DeliveryId} (hown : db.Owns f id) :
    db.deliveries.get? id = db'.deliveries.get? id := by
  obtain ⟨d, hd, hid, he⟩ := hown
  have hmem : d ∈ db'.deliveriesOf f := by
    rw [← h.rows]
    exact List.mem_filter.mpr ⟨hd, by simpa using he⟩
  have hd' : d ∈ db'.deliveries.rows := List.mem_of_mem_filter hmem
  rw [Table.get?_eq_some_iff.mpr ⟨hd, hid⟩, Table.get?_eq_some_iff.mpr ⟨hd', hid⟩]

theorem Database.AgreeOn.candidates_eq (now : Timestamp) (locked : List DeliveryId) :
    db.candidates f now locked = db'.candidates f now locked := by
  refine h.filter_rows fun d hd => ?_
  exact (of_decide_eq_true hd).1.1

theorem Database.AgreeOn.claimSelect_iff {n : Nat} {now : Timestamp}
    {locked picked : List DeliveryId} :
    db.ClaimSelect f n now locked picked ↔ db'.ClaimSelect f n now locked picked := by
  rw [Database.ClaimSelect, Database.ClaimSelect, h.candidates_eq]

theorem Database.AgreeOn.claimedRows_eq {n : Nat} {now : Timestamp}
    {locked picked : List DeliveryId} (hselect : db.ClaimSelect f n now locked picked) :
    db.claimedRows picked now = db'.claimedRows picked now := by
  refine List.filterMap_congr fun id hid => ?_
  obtain ⟨d, hd, hdid, hel⟩ := hselect.mem_keys hid
  rw [Database.get?_updateDeliveries, Database.get?_updateDeliveries,
    h.get?_eq ⟨d, hd, hdid, hel.1⟩]

theorem Database.AgreeOn.reclaimEvents_eq (lease : Duration) (now : Timestamp) :
    db.reclaimEvents f lease now = db'.reclaimEvents f lease now := by
  rw [Database.reclaimEvents, Database.reclaimEvents,
    h.filter_rows fun d hd => (of_decide_eq_true hd).1]

theorem Database.AgreeOn.countDlq_eq : db.countDlq f = db'.countDlq f := by
  rw [Database.countDlq, Database.countDlq, List.countP_eq_length_filter,
    List.countP_eq_length_filter, h.filter_rows fun d hd => (of_decide_eq_true hd).1]

theorem Database.AgreeOn.countPending_eq (now : Timestamp) :
    db.countPending f now = db'.countPending f now := by
  rw [Database.countPending, Database.countPending, List.countP_eq_length_filter,
    List.countP_eq_length_filter, h.filter_rows fun d hd => (of_decide_eq_true hd).1]

theorem Database.AgreeOn.loadClaimed_eq (d : WebhookDelivery) :
    db.loadClaimed d = db'.loadClaimed d := by
  simp only [Database.loadClaimed, Database.get, h.receipts]

theorem Database.AgreeOn.inFlight_eq {id : DeliveryId} (hown : db.Owns f id) :
    db.inFlight id = db'.inFlight id := by
  rw [Database.inFlight, Database.inFlight, h.get?_eq hown]

end Agree

/-- **What a worker step comes to depends only on the receipts and the worker's own rows.** -/
theorem WorkerStep.run_congr {cfg : WorkerConfig} {i : WorkerId} {db db' : Database}
    {w : WorkerState} (h : db.AgreeOn cfg.name db')
    (hown : ∀ x ∈ w.outstanding, db.Owns cfg.name x.delivery.deliveryId) (step : WorkerStep) :
    step.run cfg i db w = step.run cfg i db' w := by
  cases step with
  | reclaimExpired now => simp only [run, h.reclaimEvents_eq]
  | claimPending now locked picked =>
    by_cases hs : db.ClaimSelect cfg.name cfg.concurrency now locked picked
    · simp only [run, hs, h.claimSelect_iff.mp hs, h.claimedRows_eq hs]
    · have hs' : ¬ db'.ClaimSelect cfg.name cfg.concurrency now locked picked :=
        fun hs' => hs (h.claimSelect_iff.mpr hs')
      simp only [run, hs, hs', and_false, if_false]
  | claimLost now locked picked =>
    simp only [run, h.claimSelect_iff]
  | loadReceipt => simp only [run, h.loadClaimed_eq]
  | mark id input outcome =>
    simp only [run]
    split
    · rename_i batch hphase
      split
      · rename_i d receipt result hf
        obtain ⟨hmem, rfl⟩ := future_eq_some hf
        have hx : ⟨d, some receipt, some result⟩ ∈ w.outstanding := by
          rw [WorkerState.outstanding, hphase]
          exact List.mem_map_of_mem (f := Dispatch.outstanding) hmem
        rw [h.inFlight_eq (hown _ hx)]
      · rfl
    · rfl
  | refreshGauges now dlqOk pendingOk utcNow stop =>
    simp only [run, h.countDlq_eq, h.countPending_eq]
  | wake => rfl
  | shutdown => rfl
  | reclaimFailed => rfl
  | claimFailed => rfl
  | loadFailed => rfl
  | callEmit id => rfl
  | emitReturned id result => rfl
  | crash => rfl

/-! ## 4. Steps of different emitters -/

section Commute

variable {dep : Deployment} {s : Sys} (hown : s.OwnRows dep) {i j : WorkerId}

include hown

/-- The rows of `f` and the receipts do not notice a worker of another emitter. -/
theorem Sys.OwnRows.agreeOn {o : WorkerOutcome}
    (heff : WorkerStep.Effect (dep.workers i) i s.db (s.workers i) o) {f : String}
    (hf : (dep.workers i).name ≠ f) : s.db.AgreeOn f (s.afterWorker i o).db := by
  refine ⟨rfl, (deliveriesOf_updateDeliveries fun d hd hname => ?_).symm⟩
  exact heff.frame (hown i) hd (by rw [hname]; exact Ne.symm hf) rfl

/-- What a worker step comes to is the same before and after a step of another emitter's worker. -/
theorem Sys.OwnRows.workerRun_afterWorker
    (hij : (dep.workers i).name ≠ (dep.workers j).name) {a : WorkerStep} {o : WorkerOutcome}
    (ho : s.workerRun dep i a = some o) (b : WorkerStep) :
    (s.afterWorker i o).workerRun dep j b = s.workerRun dep j b := by
  have hne : j ≠ i := by
    rintro rfl
    exact hij rfl
  rw [Sys.workerRun, Sys.workerRun, Sys.afterWorker_of_ne s hne]
  exact (WorkerStep.run_congr (hown.agreeOn (WorkerStep.run_cases ho) hij) (hown j) b).symm

/-- The two steps lead to the same state, in either order. -/
theorem Sys.OwnRows.afterWorker_comm (hij : (dep.workers i).name ≠ (dep.workers j).name)
    {a b : WorkerStep} {o o' : WorkerOutcome} (ho : s.workerRun dep i a = some o)
    (ho' : s.workerRun dep j b = some o') :
    (s.afterWorker i o).afterWorker j o' = (s.afterWorker j o').afterWorker i o := by
  have hne : i ≠ j := by
    rintro rfl
    exact hij rfl
  have heff := WorkerStep.run_cases ho
  have heff' := WorkerStep.run_cases ho'
  have hrows : ∀ d ∈ s.db.deliveries.rows,
      o'.update.run (o.update.run d) = o.update.run (o'.update.run d) := by
    intro d hd
    by_cases hi : d.emitterName = (dep.workers i).name
    · have hj : d.emitterName ≠ (dep.workers j).name := by rw [hi]; exact hij
      rw [heff'.frame (hown j) hd hj (DeliveryUpdate.identity_run _ d), heff'.frame (hown j) hd hj rfl]
    · rw [heff.frame (hown i) hd hi rfl, heff.frame (hown i) hd hi (DeliveryUpdate.identity_run _ d)]
  simp only [Sys.afterWorker]
  rw [Database.updateDeliveries_comm hrows, Function.update_comm hne]

/-- **Steps of workers of different emitters commute**: in either order they are enabled alike and
lead to the same state. -/
theorem worker_steps_commute (hij : (dep.workers i).name ≠ (dep.workers j).name)
    (a b : WorkerStep) :
    (system dep).exec s [.worker i a, .worker j b]
      = (system dep).exec s [.worker j b, .worker i a] := by
  simp only [Lts.exec, system, Label.step]
  cases ho : s.workerRun dep i a with
  | none =>
    cases ho' : s.workerRun dep j b with
    | none => rfl
    | some o' =>
      simp only [Option.map_none, Option.bind_none, Option.map_some, Option.bind_some,
        hown.workerRun_afterWorker (Ne.symm hij) ho' a, ho]
  | some o =>
    cases ho' : s.workerRun dep j b with
    | none =>
      simp only [Option.map_none, Option.bind_none, Option.map_some, Option.bind_some,
        hown.workerRun_afterWorker hij ho b, ho']
    | some o' =>
      simp only [Option.map_some, Option.bind_some, hown.workerRun_afterWorker hij ho b,
        hown.workerRun_afterWorker (Ne.symm hij) ho' a, ho, ho',
        hown.afterWorker_comm hij ho ho']

end Commute

end Hookbox
