/-
# One worker for each emitter

With several workers of one emitter a dispatch can outlive its claim (`Lease.lean`).  With one
worker it cannot: `reclaim_expired` and `claim_pending` only run when the batch of the round before
has been dealt with, or has died with its process.  So leases are exact, and every claim of a row is
paid for, by a counted failure, by a reclaim, or by the row's end.

* `Sys.Solo`: the invariant.  An outstanding dispatch holds its row in flight, with the count that
  the row has; and a row was claimed at most once for each failure counted and each reclaim, and
  once more while it is in flight or after it has ended.
* `WorkerStep.rowIds_cases`: a worker never has a row outstanding twice.
* `single_worker_exact`: all of it, on every run.
-/
import Hookbox.Frame
import Hookbox.Attempts
import Hookbox.Legacy

namespace Hookbox

/-! ## 1. Counting claims and reclaims -/

namespace Event

def isClaim (id : DeliveryId) : Event → Bool
  | claimed _ id' => id' = id
  | _ => false

def isReclaim (id : DeliveryId) : Event → Bool
  | reclaimed id' => id' = id
  | _ => false

/-- How often the row was claimed. -/
def claims (h : List Event) (id : DeliveryId) : Nat := h.countP (isClaim id)

/-- How often the row was reclaimed. -/
def reclaims (h : List Event) (id : DeliveryId) : Nat := h.countP (isReclaim id)

theorem claims_append (h es : List Event) (id : DeliveryId) :
    claims (h ++ es) id = claims h id + claims es id := List.countP_append

theorem reclaims_append (h es : List Event) (id : DeliveryId) :
    reclaims (h ++ es) id = reclaims h id + reclaims es id := List.countP_append

theorem claims_eq_zero {es : List Event} {id : DeliveryId} (h : ∀ c, .claimed c id ∉ es) :
    claims es id = 0 := by
  rw [claims, List.countP_eq_zero]
  intro ev hev hclaim
  cases ev with
  | claimed c id' => exact h c (of_decide_eq_true hclaim ▸ hev)
  | _ => exact absurd hclaim (by simp [isClaim])

/-- A claim counts once for each row it picks. -/
theorem claims_map_claimed {picked : List DeliveryId} (hnd : picked.Nodup) (c : ClaimId)
    (id : DeliveryId) : claims (picked.map (.claimed c)) id = if id ∈ picked then 1 else 0 := by
  have hcount : claims (picked.map (.claimed c)) id = picked.count id := by
    rw [claims, List.countP_map, List.count]
    rfl
  rw [hcount, hnd.count]

theorem reclaims_pos {es : List Event} {id : DeliveryId} (h : .reclaimed id ∈ es) :
    1 ≤ reclaims es id :=
  List.countP_pos_iff.mpr ⟨_, h, by simp [isReclaim]⟩

end Event

open Event (claims reclaims)

/-! ## 2. The invariant -/

/-- One worker for each emitter, and every policy allows an attempt, as `validate_emitter_entries`
sees to. -/
structure Deployment.Single (dep : Deployment) : Prop where
  names : ∀ i j, (dep.workers i).name = (dep.workers j).name → i = j
  maxAttempts : ∀ i, 1 ≤ (dep.workers i).policy.maxAttempts

/-- The claims of a row are paid for, and its count is below the limit. -/
structure RowBound (h : List Event) (maxAttempts : Int32) (d : WebhookDelivery) : Prop where
  nonneg : 0 ≤ d.attemptCount.toInt
  below : d.attemptCount < maxAttempts
  paid : (claims h d.deliveryId : Int) ≤ d.attemptCount.toInt + reclaims h d.deliveryId +
    if d.state = .pending ∨ d.state = .failed then 0 else 1

/-- A dispatch holds its row: in flight, and with the count of its snapshot. -/
def Database.Held (db : Database) (x : Outstanding) : Prop :=
  ∃ d ∈ db.deliveries.rows, d.deliveryId = x.delivery.deliveryId ∧ d.state = .inFlight ∧
    d.attemptCount = x.delivery.attemptCount

/-- **The invariant.** -/
structure Sys.Solo (dep : Deployment) (h : List Event) (s : Sys) : Prop where
  bound : ∀ d ∈ s.db.deliveries.rows, d.immutable = false → ∀ i,
    (dep.workers i).name = d.emitterName → RowBound h (dep.workers i).policy.maxAttempts d
  immutable : ∀ d ∈ s.db.deliveries.rows, d.immutable = true → claims h d.deliveryId = 0
  absent : ∀ id, id ∉ s.db.deliveries.keys → claims h id = 0
  held : ∀ i, ∀ x ∈ (s.workers i).outstanding, s.db.Held x

/-! ## 3. Claims of a step -/

/-- **What a worker claims is eligible.** -/
theorem WorkerStep.Effect.claimed {cfg : WorkerConfig} {i : WorkerId} {db : Database}
    {w : WorkerState} {o : WorkerOutcome} (heff : WorkerStep.Effect cfg i db w o) {c : ClaimId}
    {id : DeliveryId} (hev : .claimed c id ∈ o.events) :
    ∃ now, ∃ d ∈ db.deliveries.rows, d.deliveryId = id ∧ Database.Eligible cfg.name now d := by
  obtain ⟨-, now, locked, picked, hselect, hid⟩ := heff.of_claimed hev
  exact ⟨now, hselect.mem_keys hid⟩

/-- Nothing is claimed of a row that is immutable or does not exist. -/
theorem Sys.Effect.claims_eq_zero {dep : Deployment} {s s' : Sys} {es : List Event}
    (heff : Sys.Effect dep s s' es) {id : DeliveryId}
    (hid : ∀ d ∈ s.db.deliveries.rows, d.deliveryId = id → d.immutable = true) :
    claims es id = 0 := by
  refine Event.claims_eq_zero fun c hev => ?_
  cases heff with
  | environment s' es hworkers hdb hes => exact absurd (hes _ hev) (by simp [Event.callOf])
  | worker i o heff =>
    obtain ⟨now, d, hd, hdid, hel⟩ := heff.claimed hev
    exact absurd (hid d hd hdid) (by rw [hel.2.2.2]; simp)

/-- Claims of other rows and reclaims only make the bound wider. -/
theorem RowBound.mono {h es : List Event} {maxAttempts : Int32} {d : WebhookDelivery}
    (hb : RowBound h maxAttempts d) (hes : claims es d.deliveryId = 0) :
    RowBound (h ++ es) maxAttempts d := by
  refine ⟨hb.nonneg, hb.below, ?_⟩
  have hpaid := hb.paid
  rw [Event.claims_append, Event.reclaims_append, hes]
  omega

theorem RowBound.not_full {h : List Event} {maxAttempts : Int32} {d : WebhookDelivery}
    (hb : RowBound h maxAttempts d) : (d.attemptCount + 1).toInt = d.attemptCount.toInt + 1 := by
  have hlt := Int32.lt_iff_toInt_lt.mp hb.below
  have hmax := maxAttempts.toInt_lt
  exact toInt_add_one hb.nonneg (by omega)

/-- **A mark by the dispatch that holds the row** pays for the claim, or ends the row. -/
theorem RowBound.marked {h es : List Event} {cfg : WorkerConfig} {d x : WebhookDelivery}
    {result : Except EmitError Unit} {input : MarkInput}
    (hb : RowBound h cfg.policy.maxAttempts d) (hst : d.state = .inFlight)
    (hcount : d.attemptCount = x.attemptCount) (hes : claims es d.deliveryId = 0) :
    RowBound (h ++ es) cfg.policy.maxAttempts ((dispatchMark cfg x result input).set d) := by
  obtain ⟨hnonneg, hbelow, hpaid⟩ := hb.mono hes
  rw [hst] at hpaid
  simp only [reduceCtorEq, or_self, if_false] at hpaid
  cases result with
  | ok u =>
    refine ⟨hnonneg, hbelow, ?_⟩
    simpa only [dispatchMark, DeliveryUpdate.Mark.set, reduceCtorEq, or_self, if_false] using hpaid
  | error e =>
    simp only [dispatchMark]
    split
    · refine ⟨hnonneg, hbelow, ?_⟩
      simpa only [DeliveryUpdate.Mark.set, reduceCtorEq, or_self, if_false] using hpaid
    · rename_i hlimit
      have hnext : (x.attemptCount + 1).toInt = d.attemptCount.toInt + 1 := by
        rw [← hcount]
        exact hb.not_full
      refine ⟨?_, Int32.not_le.mp hlimit, ?_⟩
      · simp only [DeliveryUpdate.Mark.set, hnext]
        omega
      · simp only [DeliveryUpdate.Mark.set, hnext, or_true, if_true]
        omega

/-- **What a worker step does to the bound of a row of its emitter.** -/
theorem WorkerStep.Effect.rowBound {cfg : WorkerConfig} {i : WorkerId} {db : Database}
    {w : WorkerState} {o : WorkerOutcome} (heff : WorkerStep.Effect cfg i db w o)
    (hheld : ∀ x ∈ w.outstanding, db.Held x) {h : List Event} {d : WebhookDelivery}
    (hd : d ∈ db.deliveries.rows) (hb : RowBound h cfg.policy.maxAttempts d) :
    RowBound (h ++ o.events) cfg.policy.maxAttempts (o.update.run d) := by
  have hpaid := hb.paid
  cases heff with
  | quiet | load | call | returned =>
    exact hb.mono (Event.claims_eq_zero fun c hev => by simp at hev)
  | reclaim w' now hclaims hout =>
    have hnone : claims (db.reclaimEvents cfg.name cfg.leaseDuration now) d.deliveryId = 0 :=
      Event.claims_eq_zero fun c hev => by simp [Database.reclaimEvents] at hev
    rcases DeliveryUpdate.reclaimExpired_cases cfg.name cfg.leaseDuration now d with
      ⟨-, heq⟩ | ⟨hex, heq⟩
    · rw [heq]
      exact hb.mono hnone
    · have hone : 1 ≤ reclaims (db.reclaimEvents cfg.name cfg.leaseDuration now) d.deliveryId :=
        Event.reclaims_pos
          (List.mem_map_of_mem (List.mem_filter.mpr ⟨hd, by simpa using hex⟩))
      rw [heq]
      refine ⟨hb.nonneg, hb.below, ?_⟩
      rw [hex.2.1] at hpaid
      simp only [Event.claims_append, Event.reclaims_append, hnone]
      simp only [reduceCtorEq, or_self, if_false, or_true, if_true] at hpaid ⊢
      omega
  | claim w' now locked picked hclaims hselect hout =>
    rcases hselect.claim_cases hd with ⟨hnot, heq⟩ | ⟨hpicked, hel, heq⟩
    · rw [heq]
      exact hb.mono (by rw [Event.claims_map_claimed hselect.1, if_neg hnot])
    · rw [heq]
      refine ⟨hb.nonneg, hb.below, ?_⟩
      have hone : claims (picked.map (.claimed ⟨i, w.claims + 1⟩)) d.deliveryId = 1 := by
        rw [Event.claims_map_claimed hselect.1, if_pos hpicked]
      rw [if_pos hel.2.1] at hpaid
      simp only [Event.claims_append, Event.reclaims_append, hone]
      simp only [reduceCtorEq, or_self, if_false]
      omega
  | mark w' x receipt result input hclaims hx hout hfuture =>
    have hnone : ∀ took, claims [.marked ⟨i, w.claims⟩ x.deliveryId
        (dispatchMark cfg x result input) took] d.deliveryId = 0 :=
      fun took => Event.claims_eq_zero fun c hev => by simp at hev
    rcases DeliveryUpdate.mark_cases x.deliveryId (dispatchMark cfg x result input) d with
      ⟨-, heq⟩ | ⟨hid, hst, heq⟩
    · rw [heq]
      exact hb.mono (hnone _)
    · -- The dispatch holds the row, so it writes one more than the row has.
      obtain ⟨d₀, hd₀, hid₀, -, hcount⟩ := hheld _ hx
      obtain rfl := Table.eq_of_key_eq hd₀ hd (hid₀.trans hid.symm)
      rw [heq]
      exact hb.marked hst hcount (hnone _)

/-! ## 4. Steps and runs -/

/-- A step that leaves a held row alone leaves it held. -/
theorem Database.Held.updateDeliveries {db : Database} {x : Outstanding} (h : db.Held x)
    {u : DeliveryUpdate}
    (hu : ∀ d ∈ db.deliveries.rows, d.deliveryId = x.delivery.deliveryId → d.state = .inFlight →
      u.run d = d) : (db.updateDeliveries u).Held x := by
  obtain ⟨d, hd, hid, hst, hcount⟩ := h
  refine ⟨u.run d, List.mem_map_of_mem hd, ?_⟩
  rw [hu d hd hid hst]
  exact ⟨hid, hst, hcount⟩

theorem Database.Held.grows {db db' : Database} {x : Outstanding} (h : db.Held x)
    (hg : db.Grows db') : db'.Held x := by
  obtain ⟨d, hd, hrest⟩ := h
  obtain ⟨receiptId, now, names, draw, hrows⟩ := hg.deliveries
  exact ⟨d, by rw [hrows]; exact List.mem_append_left _ hd, hrest⟩

/-- What the worker that moves has outstanding afterwards, it holds. -/
theorem WorkerStep.Effect.held {cfg : WorkerConfig} {i : WorkerId} {db : Database}
    {w : WorkerState} {o : WorkerOutcome} (heff : WorkerStep.Effect cfg i db w o)
    (hheld : ∀ x ∈ w.outstanding, db.Held x) {x : Outstanding} (hx : x ∈ o.next.outstanding) :
    (db.updateDeliveries o.update).Held x := by
  cases heff with
  | quiet w' hclaims hout =>
    exact (hheld x (hout x hx)).updateDeliveries fun _ _ _ _ => rfl
  | load w' d receipt hclaims hd hload hout =>
    refine Database.Held.updateDeliveries ?_ fun _ _ _ _ => rfl
    rcases hout x hx with hx | rfl
    · exact hheld x hx
    · have hrow := hheld _ hd
      exact hrow
  | reclaim w' now hclaims hout =>
    simp only at hx
    rw [hout] at hx
    simp at hx
  | claim w' now locked picked hclaims hselect hout =>
    obtain ⟨d, hd, rfl⟩ := hout x hx
    obtain ⟨d₀, hd₀, hpicked, rfl⟩ := Database.mem_claimedRows.mp hd
    refine ⟨_, List.mem_map_of_mem hd₀, ?_⟩
    rw [Database.claim_run, if_pos hpicked]
    exact ⟨rfl, rfl, rfl⟩
  | call w' d receipt hclaims hd hout =>
    obtain ⟨r, hr, -⟩ := hout x hx
    exact (hheld _ hr).updateDeliveries fun _ _ _ _ => rfl
  | returned w' d receipt result hclaims hd hout =>
    refine Database.Held.updateDeliveries ?_ fun _ _ _ _ => rfl
    rcases hout x hx with hx | ⟨-, -, r, hr⟩
    · exact hheld x hx
    · have hrow := hheld _ hr
      exact hrow
  | mark w' d receipt result input hclaims hd hout hfuture =>
    obtain ⟨hx, hne⟩ := hout x hx
    refine (hheld x hx).updateDeliveries fun row _ hid _ => ?_
    rw [DeliveryUpdate.mark_run, if_neg]
    rintro ⟨hsame, -⟩
    exact hne (hid.symm.trans hsame)

section Step

variable {dep : Deployment} {h es : List Event} {s s' : Sys}

/-- What the other workers hold they go on holding: their rows belong to other emitters. -/
theorem Sys.Solo.held_other (hsingle : dep.Single) (hs : s.Solo dep h) (hown : s.OwnRows dep)
    {i j : WorkerId} {o : WorkerOutcome}
    (heff : WorkerStep.Effect (dep.workers i) i s.db (s.workers i) o) (hj : j ≠ i)
    {x : Outstanding} (hx : x ∈ (s.workers j).outstanding) : (s.db.updateDeliveries o.update).Held x := by
  refine (hs.held j x hx).updateDeliveries fun d hd hid _ => ?_
  refine heff.frame (hown i) hd ?_ rfl
  obtain ⟨d₀, hd₀, hid₀, hname⟩ := hown j x hx
  rw [Table.eq_of_key_eq hd hd₀ (hid.trans hid₀.symm), hname]
  exact fun hname => hj (hsingle.names j i hname)

/-- New rows were never claimed, and start at zero. -/
theorem Sys.Solo.environment (hsingle : dep.Single) (hs : s.Solo dep h)
    (hworkers : s'.workers = s.workers) (hdb : s.db.Grows s'.db)
    (hnone : ∀ id, claims es id = 0) : s'.Solo dep (h ++ es) := by
  obtain ⟨receiptId, now, names, draw, hrows⟩ := hdb.deliveries
  have hpk := s'.db.deliveries.pk
  rw [hrows, List.map_append, List.nodup_append] at hpk
  refine ⟨?_, ?_, ?_, ?_⟩
  · intro d hd hmut i hname
    rw [hrows] at hd
    rcases List.mem_append.mp hd with hd | hnew
    · exact (hs.bound d hd hmut i hname).mono (hnone _)
    · have habsent : d.deliveryId ∉ s.db.deliveries.keys :=
        fun hmem => hpk.2.2 _ hmem _ (List.mem_map_of_mem hnew) rfl
      have hclaims : claims (h ++ es) d.deliveryId = 0 := by
        rw [Event.claims_append, hs.absent _ habsent, hnone]
      obtain ⟨k, name, -, rfl⟩ := Database.mem_newDeliveries hnew
      have hmax := Int32.le_iff_toInt_le.mp (hsingle.maxAttempts i)
      have hstart : 0 ≤ (0 : Int32).toInt := by decide
      refine ⟨hstart, Int32.lt_iff_toInt_lt.mpr ?_, ?_⟩
      · exact hmax
      · rw [hclaims]
        simp [Database.newDelivery]
  · intro d hd himm
    rw [Event.claims_append, hnone, Nat.add_zero]
    rw [hrows] at hd
    rcases List.mem_append.mp hd with hd | hnew
    · exact hs.immutable d hd himm
    · obtain ⟨k, name, -, rfl⟩ := Database.mem_newDeliveries hnew
      exact absurd himm (by simp [Database.newDelivery])
  · intro id hid
    rw [Event.claims_append, hnone, Nat.add_zero]
    refine hs.absent id fun hmem => hid ?_
    rw [Table.keys, hrows, List.map_append]
    exact List.mem_append_left _ hmem
  · intro i x hx
    rw [hworkers] at hx
    exact (hs.held i x hx).grows hdb

/-- A worker's step, which claims mutable rows of its own emitter only. -/
theorem Sys.Solo.worker (hsingle : dep.Single) (hs : s.Solo dep h) (hown : s.OwnRows dep)
    {i : WorkerId} {o : WorkerOutcome}
    (heff : WorkerStep.Effect (dep.workers i) i s.db (s.workers i) o) :
    (s.afterWorker i o).Solo dep (h ++ o.events) := by
  have hzero : ∀ {id : DeliveryId},
      (∀ d ∈ s.db.deliveries.rows, d.deliveryId = id → d.immutable = true) →
      claims o.events id = 0 := fun h => (Sys.Effect.worker i o heff).claims_eq_zero h
  refine ⟨?_, ?_, ?_, ?_⟩
  · intro d' hd' hmut j hname
    obtain ⟨d, hd, rfl⟩ := List.mem_map.mp hd'
    rw [o.update.run_immutable] at hmut
    rw [o.update.run_emitterName] at hname
    have hb := hs.bound d hd hmut j hname
    by_cases hij : j = i
    · subst hij
      exact heff.rowBound (hs.held j) hd hb
    · have hne : d.emitterName ≠ (dep.workers i).name :=
        fun h' => hij (hsingle.names j i (hname.trans h'))
      rw [heff.frame (hown i) hd hne rfl]
      refine hb.mono (Event.claims_eq_zero fun c hev => ?_)
      obtain ⟨now, d₀, hd₀, hid₀, hel⟩ := heff.claimed hev
      rw [Table.eq_of_key_eq hd₀ hd hid₀] at hel
      exact hne hel.1
  · intro d' hd' himm
    obtain ⟨d, hd, rfl⟩ := List.mem_map.mp hd'
    rw [o.update.run_immutable] at himm
    rw [o.update.run_deliveryId, Event.claims_append, hs.immutable d hd himm]
    refine (Nat.zero_add _).trans (hzero fun d' hd' hid => ?_)
    rw [Table.eq_of_key_eq hd' hd hid, himm]
  · intro id hid
    rw [Sys.afterWorker, Database.updateDeliveries_keys] at hid
    rw [Event.claims_append, hs.absent id hid]
    refine (Nat.zero_add _).trans (hzero fun d hd hdid => ?_)
    exact absurd (hdid ▸ Table.key_mem_keys hd) hid
  · intro j x hx
    rcases Sys.outstanding_afterWorker hx with ⟨rfl, hx'⟩ | ⟨hj, hx'⟩
    · exact heff.held (hs.held j) hx'
    · exact hs.held_other hsingle hown heff hj hx'

/-- **A step keeps the invariant.** -/
theorem Sys.Solo.step (hsingle : dep.Single) (hs : s.Solo dep h) (hown : s.OwnRows dep)
    (heff : Sys.Effect dep s s' es) : s'.Solo dep (h ++ es) := by
  cases heff with
  | environment s' es hworkers hdb hes =>
    refine hs.environment hsingle hworkers hdb fun id => Event.claims_eq_zero fun c hev => ?_
    exact absurd (hes _ hev) (by simp [Event.callOf])
  | worker i o heff => exact hs.worker hsingle hown heff

end Step

/-! ## 5. No row is outstanding twice -/

/-- The rows a worker has outstanding. -/
def WorkerState.rowIds (w : WorkerState) : List DeliveryId :=
  w.outstanding.map (·.delivery.deliveryId)

theorem claimedRows_sublist (db : Database) (picked : List DeliveryId) (now : Timestamp) :
    ((db.claimedRows picked now).map (·.deliveryId)).Sublist picked := by
  unfold Database.claimedRows
  generalize (db.updateDeliveries (.claim picked now)).deliveries = table
  induction picked with
  | nil => exact List.Sublist.refl _
  | cons id ids ih =>
    cases hid : table.get? id with
    | none =>
      rw [List.filterMap_cons_none hid]
      exact ih.cons id
    | some d =>
      rw [List.filterMap_cons_some hid, List.map_cons, Table.key_of_get? hid]
      exact ih.cons_cons id

theorem rowIds_afterLoad (w : WorkerState) (todo : List WebhookDelivery)
    (done : List (WebhookDelivery × WebhookReceipt)) (hphase : w.phase = afterLoad todo done) :
    w.rowIds = todo.map (·.deliveryId) ++ done.map (·.1.deliveryId) := by
  rw [WorkerState.rowIds, WorkerState.outstanding, hphase]
  cases todo with
  | nil => cases done <;> simp [afterLoad, WorkerPhase.outstanding, Dispatch.outstanding]
  | cons d todo => simp [afterLoad, WorkerPhase.outstanding, Function.comp_def]

theorem rowIds_dispatching {w : WorkerState} {batch : List Dispatch}
    (hphase : w.phase = .dispatching batch) : w.rowIds = batch.map (·.delivery.deliveryId) := by
  rw [WorkerState.rowIds, WorkerState.outstanding, hphase, WorkerPhase.outstanding, List.map_map]
  rfl

/-- Advancing a future moves no row. -/
theorem advance_rowIds (id : DeliveryId) (p : DispatchPhase) (batch : List Dispatch) :
    (advance id p batch).map (·.delivery.deliveryId) = batch.map (·.delivery.deliveryId) := by
  rw [advance, List.map_map]
  refine List.map_congr_left fun x _ => ?_
  simp only [Function.comp_apply]
  split <;> rfl

/-- A step into a phase with nothing outstanding. -/
theorem rowIds_idle {w w' : WorkerState} (h : w'.outstanding = []) :
    w'.rowIds.Subperm w.rowIds := by
  rw [WorkerState.rowIds, h]
  exact List.nil_subperm

/-- **A step adds no row to a batch**: it only shuffles or drops rows, unless it claims. -/
theorem WorkerStep.rowIds_cases {cfg : WorkerConfig} {i : WorkerId} {db : Database}
    {w : WorkerState} {o : WorkerOutcome} {step : WorkerStep} (h : step.run cfg i db w = some o) :
    o.next.rowIds.Subperm w.rowIds ∨
      ∃ picked, picked.Nodup ∧ o.next.rowIds.Sublist picked := by
  cases step with
  | claimPending now locked picked =>
    obtain ⟨-, hselect, rfl⟩ := run_claimPending h
    refine Or.inr ⟨picked, hselect.1, ?_⟩
    rw [rowIds_afterLoad _ _ _ rfl, List.map_nil, List.append_nil]
    exact claimedRows_sublist db picked now
  | loadReceipt =>
    left
    obtain ⟨d, todo, done, hphase, ⟨p, hload, rfl⟩ | ⟨e, -, rfl⟩⟩ := run_loadReceipt h
    · have hbefore : w.rowIds = (d :: todo).map (·.deliveryId) ++ done.map (·.1.deliveryId) :=
        rowIds_afterLoad _ _ _ hphase
      rw [rowIds_afterLoad _ _ _ rfl, hbefore, List.map_append, List.map_singleton,
        loadClaimed_fst hload, ← List.append_assoc]
      exact (List.perm_append_singleton _ _).subperm
    · exact rowIds_idle rfl
  | callEmit id =>
    obtain ⟨batch, d, receipt, hphase, -, rfl⟩ := run_callEmit h
    left
    rw [rowIds_dispatching hphase, rowIds_dispatching rfl, advance_rowIds]
  | emitReturned id result =>
    obtain ⟨batch, d, receipt, hphase, -, rfl⟩ := run_emitReturned h
    left
    rw [rowIds_dispatching hphase, rowIds_dispatching rfl, advance_rowIds]
  | mark id input outcome =>
    obtain ⟨batch, d, receipt, result, hphase, -, next, hnext, -, -, hcases⟩ := run_mark h
    have hkeep : next.rowIds.Subperm w.rowIds := by
      rw [rowIds_dispatching hphase, WorkerState.rowIds, WorkerState.outstanding, hnext,
        outstanding_afterMark, List.map_map]
      exact (List.filter_sublist.map _).subperm
    left
    rcases hcases with ⟨-, rfl⟩ | ⟨-, rfl⟩ <;> exact hkeep
  | refreshGauges now dlqOk pendingOk utcNow stop =>
    simp only [run] at h
    split at h
    · rw [Option.some.injEq] at h
      subst h
      refine Or.inl (rowIds_idle ?_)
      simp only [WorkerState.outstanding]
      split <;> rfl
    · exact absurd h (by simp)
  | _ =>
    left
    simp only [run] at h
    repeat' split at h
    all_goals cases h <;> exact rowIds_idle rfl

section Runs

variable {dep : Deployment} {db : Database} {ls : List Label} {s : Sys}
  (h : (system dep).exec (.start dep db) ls = some s)

include h

/-- **No worker ever has a row outstanding twice.** -/
theorem system_rowIds_nodup (i : WorkerId) : (s.workers i).rowIds.Nodup := by
  have hstart : ∀ i, ((Sys.start dep db).workers i).rowIds.Nodup := fun i => List.nodup_nil
  refine Lts.exec_invariant (I := fun s => ∀ i, (s.workers i).rowIds.Nodup) hstart ?_ h i
  intro s l s' hs hstep j
  cases l with
  | ingest call step =>
    obtain ⟨o, -, rfl, -⟩ := system_ingest hstep
    exact hs j
  | admin a =>
    obtain ⟨db, -, rfl, -⟩ := system_admin hstep
    exact hs j
  | worker k step =>
    obtain ⟨o, ho, rfl⟩ := Option.map_eq_some_iff.mp hstep
    by_cases hj : j = k
    · subst hj
      rw [Sys.afterWorker_self]
      rcases WorkerStep.rowIds_cases ho with ⟨ids, hperm, hsub⟩ | ⟨picked, hnd, hsub⟩
      · exact hperm.nodup_iff.mp ((hs j).sublist hsub)
      · exact hnd.sublist hsub
    · rw [Sys.afterWorker_of_ne s hj]
      exact hs j

/-- **The invariant holds on every run** from a migrated database. -/
theorem system_solo (hsingle : dep.Single)
    (hdb : ∀ d ∈ db.deliveries.rows, d.immutable = true) :
    s.Solo dep ((system dep).trace (.start dep db) ls) := by
  have hstart : (Sys.start dep db).Solo dep [] := by
    refine ⟨?_, fun d _ _ => rfl, fun id _ => rfl, ?_⟩
    · intro d hd hmut
      exact absurd (hdb d hd) (by rw [hmut]; simp)
    · intro i x hx
      simp [Sys.start, WorkerState.outstanding, WorkerPhase.outstanding] at hx
  have hboth : s.OwnRows dep ∧ s.Solo dep ((system dep).trace (.start dep db) ls) := by
    refine Lts.exec_induction (M := system dep) (I := fun h s => s.OwnRows dep ∧ s.Solo dep h)
      ⟨Sys.start_ownRows dep db, hstart⟩ ?_ h
    rintro h s l s' ⟨hown, hs⟩ hstep
    have heff := system_step_cases hstep
    exact ⟨heff.ownRows hown, hs.step hsingle hown heff⟩
  exact hboth.2

end Runs

/-! ## 6. Exact leases and bounded attempts -/

/-- What one worker for each emitter guarantees, after the history `h`. -/
structure SingleWorkerExact (dep : Deployment) (h : List Event) (s : Sys) : Prop where
  /-- When `reclaim_expired` runs, none of the rows it touches is outstanding. -/
  reclaim : ∀ i now s', (system dep).step s (.worker i (.reclaimExpired now)) = some s' →
    ∀ d ∈ s.db.deliveries.rows,
      DeliveryUpdate.Expired (dep.workers i).name (dep.workers i).leaseDuration now d →
      ∀ j, d.deliveryId ∉ (s.workers j).rowIds
  /-- No row is outstanding twice, neither with one worker nor with two. -/
  once : ∀ i, (s.workers i).rowIds.Nodup
  apart : ∀ i j id, id ∈ (s.workers i).rowIds → id ∈ (s.workers j).rowIds → i = j
  /-- A row that can be claimed has an attempt left, and its count can be incremented. -/
  claimable : ∀ i now, ∀ d ∈ s.db.deliveries.rows, Database.Eligible (dep.workers i).name now d →
    d.attemptCount < (dep.workers i).policy.maxAttempts ∧
      (d.attemptCount + 1).toInt = d.attemptCount.toInt + 1
  /-- A row is claimed at most `max_attempts` times, not counting those that were reclaimed. -/
  bounded : ∀ i, ∀ d ∈ s.db.deliveries.rows, d.emitterName = (dep.workers i).name →
    (claims h d.deliveryId : Int)
      ≤ (dep.workers i).policy.maxAttempts.toInt + reclaims h d.deliveryId

/-- Only a worker with an empty batch reclaims. -/
theorem rowIds_of_reclaim {dep : Deployment} {s s' : Sys} {i : WorkerId} {now : Timestamp}
    (h : (system dep).step s (.worker i (.reclaimExpired now)) = some s') :
    (s.workers i).rowIds = [] := by
  obtain ⟨o, ho, -⟩ := Option.map_eq_some_iff.mp h
  simp only [Sys.workerRun, WorkerStep.run] at ho
  split at ho
  · rename_i hphase
    rw [WorkerState.rowIds, WorkerState.outstanding, hphase]
    rfl
  · exact absurd ho (by simp)

/-- The row a worker has outstanding is one of its emitter's. -/
theorem Sys.OwnRows.emitterName {dep : Deployment} {s : Sys} (hown : s.OwnRows dep) {i : WorkerId}
    {d : WebhookDelivery} (hd : d ∈ s.db.deliveries.rows)
    (hid : d.deliveryId ∈ (s.workers i).rowIds) : d.emitterName = (dep.workers i).name := by
  obtain ⟨x, hx, hxid⟩ := List.mem_map.mp hid
  obtain ⟨d₀, hd₀, hid₀, hname⟩ := hown i x hx
  rw [← Table.eq_of_key_eq hd₀ hd (hid₀.trans hxid), hname]

/-- **One worker for each emitter.**  From any database that migration 0002 leaves, on every run in
which each emitter has one worker, which may crash and be restarted at any point and whose storage
calls may fail: leases are exact and attempts are bounded. -/
theorem single_worker_exact {dep : Deployment} (hsingle : dep.Single) {pre : Receipts}
    {draw : Nat → DeliveryId} {db : Database} (hdb : migrate0002 pre draw = some db)
    {ls : List Label} {s : Sys} (h : (system dep).exec (.start dep db) ls = some s) :
    SingleWorkerExact dep ((system dep).trace (.start dep db) ls) s := by
  have hown := system_ownRows h
  have hsolo := system_solo h hsingle fun d hd => migrate0002_immutable hdb hd
  refine ⟨?_, system_rowIds_nodup h, ?_, ?_, ?_⟩
  · intro i now s' hstep d hd hex j hid
    obtain rfl := hsingle.names j i ((hown.emitterName hd hid).symm.trans hex.1)
    rw [rowIds_of_reclaim hstep] at hid
    simp at hid
  · intro i j id hi hj
    obtain ⟨x, hx, rfl⟩ := List.mem_map.mp hi
    obtain ⟨d, hd, hdid, hname⟩ := hown i x hx
    rw [← hdid] at hj
    exact hsingle.names i j (hname.symm.trans (hown.emitterName hd hj))
  · intro i now d hd hel
    have hb := hsolo.bound d hd hel.2.2.2 i hel.1.symm
    exact ⟨hb.below, hb.not_full⟩
  · intro i d hd hname
    cases himm : d.immutable with
    | true =>
      have hmax := Int32.le_iff_toInt_le.mp (hsingle.maxAttempts i)
      have hone : (1 : Int32).toInt = 1 := rfl
      rw [hsolo.immutable d hd himm]
      omega
    | false =>
      have hb := hsolo.bound d hd himm i hname.symm
      have hlt := Int32.lt_iff_toInt_lt.mp hb.below
      have hpaid := hb.paid
      split at hpaid <;> omega

/-- Worker `i` serves an emitter of its own, whose name is `i` times the letter `k`. -/
def soloDep : Deployment where
  lib := sampleLib
  servers _ := { emitterNames := ["k"], verifiers := ∅, lruCapacity := 100 }
  workers i := { name := String.ofList (List.replicate i 'k'), policy := {}, concurrency := 1,
                 leaseDuration := 30000000 }

/-- A worker calls the emitter and crashes; half a minute later it reclaims the row and claims it
again. -/
def crashAndReclaim : List Label :=
  acceptOne ++ claimAndCall 1 0 ⟨0⟩ ++ [.worker 1 .crash] ++ claimAndCall 1 31000000 ⟨0⟩

theorem single_worker_exact_after_crash :
    ∃ s, (system soloDep).exec (.start soloDep .empty) crashAndReclaim = some s ∧
      SingleWorkerExact soloDep ((system soloDep).trace (.start soloDep .empty) crashAndReclaim) s ∧
      claims ((system soloDep).trace (.start soloDep .empty) crashAndReclaim) ⟨0⟩ = 2 ∧
      reclaims ((system soloDep).trace (.start soloDep .empty) crashAndReclaim) ⟨0⟩ = 1 := by
  have hsingle : soloDep.Single := by
    refine ⟨fun i j hname => ?_, fun i => show (1 : Int32) ≤ 5 by decide⟩
    simpa using congrArg List.length (String.ofList_injective hname)
  refine ⟨_, rfl, ?_, by decide, by decide⟩
  exact single_worker_exact hsingle (migrate0002_empty fun _ => ⟨0⟩) rfl

end Hookbox
