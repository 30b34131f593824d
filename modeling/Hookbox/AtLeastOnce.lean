/-
# At least once

What the system is for, in two sentences: a webhook that was acknowledged is kept, and every emitter
that it was accepted for is told about it until it says that it knows, or has refused often enough.
The specification is an `Outbox`: its items are receipts, its jobs are the mutable delivery rows, and
a call is known by the claim under which it was made.

Servers, caches, claims, leases, retries, crashes and the races between them are not part of it.

* `system_simulation`: every step of the system is matched by steps of the outbox.
* `system_implements_outbox`: every run shows what some run of the outbox shows.
-/
import Hookbox.Attempts
import Hookbox.Calls
import Hookbox.Intake
import Hookbox.Lib.Outbox
import Hookbox.Lib.Simulation

namespace Hookbox

/-! ## 1. A state as an outbox -/

/-- A row in one of the three states that workers move it between is still owed. -/
def DeliveryState.status : DeliveryState → Outbox.Status
  | pending => .owed
  | failed => .owed
  | inFlight => .owed
  | emitted => .done
  | deadLettered => .givenUp

def WebhookDelivery.job (d : WebhookDelivery) : Outbox.Job ReceiptId DeliveryId String :=
  ⟨d.deliveryId, d.receiptId, d.emitterName, d.state.status⟩

@[simp] theorem WebhookDelivery.job_id (d : WebhookDelivery) : d.job.id = d.deliveryId := rfl

def ReceiptRow.item (row : ReceiptRow) : ReceiptId × NormalizedEvent := (row.receiptId, row.event)

def Database.jobs (db : Database) : List (Outbox.Job ReceiptId DeliveryId String) :=
  (db.deliveries.rows.filter fun d => !d.immutable).map WebhookDelivery.job

/-- **What a state comes to after a history.** -/
def outboxOf (h : List Event) (db : Database) :
    Outbox.State ReceiptId DeliveryId String ClaimId NormalizedEvent where
  items := db.receipts.rows.map ReceiptRow.item
  jobs := db.jobs
  calls := h.filterMap Event.call?
  answers := h.filterMap Event.answer?

/-- What providers and downstreams see.  Both `200`s acknowledge a receipt. -/
def Event.seen (dep : Deployment) :
    Event → Option (Outbox.Seen ReceiptId DeliveryId String ClaimId NormalizedEvent)
  | stored _ receipt names => some (.accepted receipt.receiptId (.fromReceipt receipt) names)
  | returned _ (.ok (.accepted id)) => some (.acknowledged id)
  | returned _ (.ok (.duplicate id)) => some (.acknowledged id)
  | emitCalled c id event => some (.sent c (dep.workers c.worker).name id event)
  | emitReturned c id _ result => some (.answered c id result.isOk)
  | _ => none

/-- No worker gives a row up before it has failed as often as `limit` says of its emitter. -/
def Deployment.Insists (dep : Deployment) (limit : String → Nat) : Prop :=
  ∀ i, (limit (dep.workers i).name : Int) ≤ (dep.workers i).policy.maxAttempts.toInt

/-! ## 2. Every step is matched -/

/-- What a step of the system shows, and does to its outbox, is what some steps of the outbox do. -/
def Matched (dep : Deployment) (limit : String → Nat) (h : List Event) (db : Database)
    (es : List Event) (db' : Database) : Prop :=
  ∃ as, (Outbox.machine limit).exec (outboxOf h db) as = some (outboxOf (h ++ es) db') ∧
    (Outbox.machine limit).trace (outboxOf h db) as = es.filterMap (Event.seen dep)

section Matched

variable {dep : Deployment} {limit : String → Nat} {h es : List Event} {db db' : Database}

theorem Matched.stutter (hsame : outboxOf (h ++ es) db' = outboxOf h db)
    (hseen : es.filterMap (Event.seen dep) = []) : Matched dep limit h db es db' :=
  ⟨[], congrArg some hsame.symm, hseen.symm⟩

theorem Matched.action {a : Outbox.Action ReceiptId DeliveryId String ClaimId NormalizedEvent}
    (hstep : a.step limit (outboxOf h db) = some (outboxOf (h ++ es) db'))
    (hseen : a.seen = es.filterMap (Event.seen dep)) : Matched dep limit h db es db' := by
  obtain ⟨hexec, htrace⟩ := Outbox.exec_single hstep
  exact ⟨[a], hexec, htrace.trans hseen⟩

/-- An outbox after a step without calls and answers. -/
theorem outboxOf_append (db : Database)
    (hevents : ∀ ev ∈ es, ev.call? = none ∧ ev.answer? = none) :
    outboxOf (h ++ es) db' =
      { outboxOf h db with
        items := db'.receipts.rows.map ReceiptRow.item
        jobs := db'.jobs } := by
  obtain ⟨hcall, hanswer⟩ := filterMap_call_nil hevents
  simp only [outboxOf, List.filterMap_append, hcall, hanswer, List.append_nil]

theorem Database.mem_jobs {j : Outbox.Job ReceiptId DeliveryId String} :
    j ∈ db.jobs ↔ ∃ d ∈ db.deliveries.rows, d.immutable = false ∧ d.job = j := by
  simp [jobs, and_assoc]

/-- The jobs after an update, row by row. -/
theorem Database.jobs_updateDeliveries (u : DeliveryUpdate) :
    (db.updateDeliveries u).jobs
      = (db.deliveries.rows.filter fun d => !d.immutable).map fun d => (u.run d).job := by
  have hsame : ((fun d : WebhookDelivery => !d.immutable) ∘ u.run) = fun d => !d.immutable :=
    funext fun d => by rw [Function.comp_apply, u.run_immutable]
  rw [jobs, updateDeliveries_rows, List.filter_map, hsame, List.map_map]
  rfl

/-- An update that leaves owed what is owed. -/
theorem Database.jobs_eq_of_status {u : DeliveryUpdate}
    (h : ∀ d ∈ db.deliveries.rows, (u.run d).state.status = d.state.status) :
    (db.updateDeliveries u).jobs = db.jobs := by
  rw [jobs_updateDeliveries]
  refine List.map_congr_left fun d hd => ?_
  rw [WebhookDelivery.job, WebhookDelivery.job, u.run_deliveryId, u.run_receiptId,
    u.run_emitterName, h d (List.mem_of_mem_filter hd)]

theorem claim_status {e : String} {n : Nat} {now : Timestamp} {locked picked : List DeliveryId}
    (hselect : db.ClaimSelect e n now locked picked) {d : WebhookDelivery}
    (hd : d ∈ db.deliveries.rows) :
    ((DeliveryUpdate.claim picked now).run d).state.status = d.state.status := by
  rcases hselect.claim_cases hd with ⟨-, heq⟩ | ⟨-, hel, heq⟩
  · rw [heq]
  · rw [heq]
    rcases hel.2.1 with hst | hst <;> rw [hst] <;> rfl

theorem reclaim_status (e : String) (lease : Duration) (now : Timestamp) (d : WebhookDelivery) :
    ((DeliveryUpdate.reclaimExpired e lease now).run d).state.status = d.state.status := by
  rcases DeliveryUpdate.reclaimExpired_cases e lease now d with ⟨-, heq⟩ | ⟨hexp, heq⟩
  · rw [heq]
  · rw [heq, hexp.2.1]
    rfl

/-- What the history counts is what the outbox counts. -/
theorem refusals_outboxOf (h : List Event) (db : Database) (id : DeliveryId) :
    (outboxOf h db).refusals id = Event.errs h id := by
  rw [Outbox.State.refusals, outboxOf, Event.errs, List.countP_filterMap]
  refine List.countP_congr fun ev _ => ?_
  cases ev with
  | emitReturned c id' event result =>
    cases result <;> simp [Event.answer?, Event.isErr, Except.isOk, Except.toBool]
  | _ => simp [Event.answer?, Event.isErr]

/-- A mark that finds the row in flight settles its job, or leaves it owed. -/
theorem Database.jobs_mark {d : WebhookDelivery} (hd : d ∈ db.deliveries.rows)
    (hst : d.state = .inFlight) (m : DeliveryUpdate.Mark) :
    (db.updateDeliveries (.mark d.deliveryId m)).jobs = db.jobs.map fun j =>
      if j.id = d.deliveryId then { j with status := (m.set d).state.status } else j := by
  rw [jobs_updateDeliveries, jobs, List.map_map]
  refine List.map_congr_left fun d' hd' => ?_
  rw [Function.comp_apply, DeliveryUpdate.mark_run, d'.job_id]
  by_cases hid : d'.deliveryId = d.deliveryId
  · obtain rfl := Table.eq_of_key_eq (List.mem_of_mem_filter hd') hd hid
    rw [if_pos ⟨rfl, hst⟩, if_pos rfl]
    cases m <;> rfl
  · rw [if_neg fun h => hid h.1, if_neg hid]

theorem Database.updateDeliveries_mark_stale {id : DeliveryId} (hstale : db.inFlight id = false)
    (m : DeliveryUpdate.Mark) : db.updateDeliveries (.mark id m) = db := by
  refine updateDeliveries_eq_self fun d hd => ?_
  rw [DeliveryUpdate.mark_run, if_neg]
  rintro ⟨rfl, hst⟩
  rw [inFlight_of_mem hd, hst] at hstale
  cases hstale

variable (hlimit : dep.Insists limit)

include hlimit

/-- **A mark that takes effect is matched**: what it says of its row is vouched for. -/
theorem matched_settle {d : WebhookDelivery} (hd : d ∈ db.deliveries.rows)
    (himm : d.immutable = false) (hst : d.state = .inFlight) {m : DeliveryUpdate.Mark}
    {c : ClaimId} {took : Bool}
    (hsound : RowSound dep (h ++ [.marked c d.deliveryId m took])
      (db.updateDeliveries (.mark d.deliveryId m)) (m.set d)) :
    Matched dep limit h db [.marked c d.deliveryId m took]
      (db.updateDeliveries (.mark d.deliveryId m)) := by
  have howed : (outboxOf h db).Owed d.job :=
    ⟨Database.mem_jobs.mpr ⟨d, hd, himm, rfl⟩, by rw [WebhookDelivery.job, hst]; rfl⟩
  have hafter : outboxOf (h ++ [.marked c d.deliveryId m took])
        (db.updateDeliveries (.mark d.deliveryId m))
      = (outboxOf h db).settle d.deliveryId (m.set d).state.status := by
    rw [outboxOf_append db (by simp [Event.call?, Event.answer?]), db.jobs_mark hd hst]
    rfl
  cases m with
  | emitted now =>
    obtain ⟨c', event, hmem, -, -⟩ := hsound.emitted rfl
    have hanswer : ∃ call, (call, d.deliveryId, true) ∈ (outboxOf h db).answers := by
      have hmem' : .emitReturned c' d.deliveryId event (.ok ()) ∈ h := by
        rcases List.mem_append.mp hmem with hmem | hmem
        · exact hmem
        · cases List.mem_singleton.mp hmem
      exact ⟨c', List.mem_filterMap.mpr ⟨_, hmem', rfl⟩⟩
    refine .action (a := .complete d.deliveryId) ?_ rfl
    rw [Outbox.Action.step, if_pos ⟨⟨d.job, howed, rfl⟩, hanswer⟩, hafter]
    rfl
  | failed attemptCount nextAttemptAt lastError =>
    refine .stutter ?_ rfl
    rw [outboxOf_append db (by simp [Event.call?, Event.answer?]),
      Database.jobs_eq_of_status]
    · rfl
    · intro d' _
      rcases DeliveryUpdate.mark_cases d.deliveryId
        (.failed attemptCount nextAttemptAt lastError) d' with ⟨-, heq⟩ | ⟨-, hst', heq⟩
      · rw [heq]
      · rw [heq, hst']
        rfl
  | deadLettered lastError =>
    obtain ⟨i, hname, hmax⟩ := hsound.deadLettered rfl
    have hle : limit d.emitterName ≤ (outboxOf h db).refusals d.deliveryId := by
      have herrs : Event.errs (h ++ [.marked c d.deliveryId (.deadLettered lastError) took])
          d.deliveryId = Event.errs h d.deliveryId := by
        rw [Event.errs_append]
        rfl
      have hlim := hlimit i
      have hname' : (dep.workers i).name = d.emitterName := hname
      have hmax' : (dep.workers i).policy.maxAttempts.toInt ≤ Event.errs h d.deliveryId :=
        herrs ▸ hmax
      rw [refusals_outboxOf]
      rw [hname'] at hlim
      omega
    refine .action (a := .giveUp d.deliveryId) ?_ rfl
    rw [Outbox.Action.step, if_pos ⟨d.job, howed, rfl, hle⟩, hafter]
    rfl

/-- **A mark is matched**, whoever holds the lease. -/
theorem matched_mark {i : WorkerId} {x : Outstanding} {result : Except EmitError Unit}
    (hx : OutSound dep h db i x) (hres : x.result = some result) (input : MarkInput)
    {c : ClaimId} {took : Bool}
    (hrows : ∀ d ∈ db.deliveries.rows, d.immutable = false → RowSound dep h db d) :
    Matched dep limit h db
      [.marked c x.delivery.deliveryId (dispatchMark (dep.workers i) x.delivery result input) took]
      (db.updateDeliveries (.mark x.delivery.deliveryId
        (dispatchMark (dep.workers i) x.delivery result input))) := by
  cases hflight : db.inFlight x.delivery.deliveryId with
  | false =>
    rw [db.updateDeliveries_mark_stale hflight]
    refine .stutter ?_ rfl
    rw [outboxOf_append db (by simp [Event.call?, Event.answer?])]
    rfl
  | true =>
    obtain ⟨d, hd, hid, hst⟩ := Database.inFlight_iff.mp hflight
    have hident := hx.identity_eq hd hid
    have himm : d.immutable = false :=
      (congrArg WebhookDelivery.immutable hident).trans hx.mutable
    rw [← hid]
    exact matched_settle hlimit hd himm hst
      (RowSound.mark hx hres input _ hident (hrows d hd himm))

/-- **A worker's step is matched.** -/
theorem WorkerStep.Effect.matched {s : Sys} (hs : s.Sound dep h) (honce : s.CallsOnce h)
    {i : WorkerId} {o : WorkerOutcome}
    (heff : WorkerStep.Effect (dep.workers i) i s.db (s.workers i) o)
    (hcalls : WorkerStep.Calls i (s.workers i) o) :
    Matched dep limit h s.db o.events (s.db.updateDeliveries o.update) := by
  cases heff with
  | quiet w' hclaims hout =>
    refine .stutter ?_ rfl
    rw [updateDeliveries_nop, List.append_nil]
  | load w' d receipt hclaims hd hload hout =>
    refine .stutter ?_ rfl
    rw [updateDeliveries_nop, List.append_nil]
  | reclaim w' now hclaims hout =>
    have hevents : ∀ ev ∈ s.db.reclaimEvents (dep.workers i).name (dep.workers i).leaseDuration now,
        ∃ id, ev = .reclaimed id := fun ev hev => by
      obtain ⟨d, -, rfl⟩ := List.mem_map.mp hev
      exact ⟨_, rfl⟩
    refine .stutter ?_ (List.filterMap_eq_nil_iff.mpr fun ev hev => ?_)
    · rw [outboxOf_append s.db, Database.jobs_eq_of_status fun d _ => reclaim_status _ _ _ d]
      · rfl
      · intro ev hev
        obtain ⟨id, rfl⟩ := hevents ev hev
        exact ⟨rfl, rfl⟩
    · obtain ⟨id, rfl⟩ := hevents ev hev
      rfl
  | claim w' now locked picked hclaims hselect hout =>
    refine .stutter ?_ (by simp [Event.seen])
    rw [outboxOf_append s.db (by simp [Event.call?, Event.answer?]),
      Database.jobs_eq_of_status fun d hd => claim_status hselect hd]
    rfl
  | call w' d receipt hclaims hd hout =>
    have hx := hs.outs i _ hd
    obtain ⟨d₀, hd₀, hident⟩ := hx.row
    obtain ⟨row, hrow, hid, hevent⟩ := hx.receipt receipt rfl
    have himm : d₀.immutable = false :=
      (congrArg WebhookDelivery.immutable hident).trans hx.mutable
    have hdid : d₀.deliveryId = d.deliveryId := congrArg (·.deliveryId) hident
    have hrid : d₀.receiptId = d.receiptId := congrArg (·.receiptId) hident
    have hen : d₀.emitterName = d.emitterName := congrArg (·.emitterName) hident
    have hjob : ∃ j ∈ (outboxOf h s.db).jobs, j.id = d.deliveryId ∧
        j.dest = (dep.workers i).name ∧
        (j.item, NormalizedEvent.fromReceipt receipt) ∈ (outboxOf h s.db).items := by
      refine ⟨d₀.job, Database.mem_jobs.mpr ⟨d₀, hd₀, himm, rfl⟩, hdid, hen.trans hx.name,
        List.mem_map.mpr ⟨row, hrow, ?_⟩⟩
      rw [ReceiptRow.item, hid, hevent]
      exact Prod.ext hrid.symm rfl
    have hnew := (honce.workers i).uncalled _ (hcalls.uncalled rfl)
    refine .action (a := .send ⟨i, (s.workers i).claims⟩ (dep.workers i).name d.deliveryId
      (.fromReceipt receipt)) ?_ rfl
    rw [Outbox.Action.step, if_pos ⟨hjob, hnew⟩, updateDeliveries_nop]
    simp [outboxOf, Event.call?, Event.answer?]
  | returned w' d receipt result hclaims hd hout =>
    obtain ⟨hasked, hnew⟩ := (honce.workers i).calling _ (hcalls.calling rfl)
    refine .action (a := .answer ⟨i, (s.workers i).claims⟩ d.deliveryId result.isOk) ?_ rfl
    rw [Outbox.Action.step, if_pos ⟨hasked, hnew⟩, updateDeliveries_nop]
    simp [outboxOf, Event.call?, Event.answer?]
  | mark w' d receipt result input hclaims hd hout hfuture =>
    exact matched_mark hlimit (hs.outs i _ hd) rfl input hs.rows

omit hlimit

/-- The jobs that a fan-out or a replay adds. -/
def queuedJobs (receiptId : ReceiptId) (now : Timestamp) (names : List String)
    (draw : Nat → DeliveryId) : List (DeliveryId × String) :=
  (Database.newDeliveries receiptId now names draw).map fun d => (d.deliveryId, d.emitterName)

theorem queuedJobs_names (receiptId : ReceiptId) (now : Timestamp) (names : List String)
    (draw : Nat → DeliveryId) : (queuedJobs receiptId now names draw).map (·.2) = names := by
  rw [queuedJobs, List.map_map]
  exact Database.newDeliveries_names receiptId now names draw

/-- Appended rows are appended jobs, under ids that were not in use. -/
theorem Database.jobs_append {receiptId : ReceiptId} {now : Timestamp} {names : List String}
    {draw : Nat → DeliveryId} (hrows : db'.deliveries.rows
      = db.deliveries.rows ++ newDeliveries receiptId now names draw) (h : List Event) :
    db'.jobs = db.jobs ++ Outbox.newJobs receiptId (queuedJobs receiptId now names draw) ∧
      (outboxOf h db).Fresh (queuedJobs receiptId now names draw) := by
  have hall : (newDeliveries receiptId now names draw).filter (fun d => !d.immutable)
      = newDeliveries receiptId now names draw := by
    rw [List.filter_eq_self]
    intro d hd
    obtain ⟨i, name, -, rfl⟩ := mem_newDeliveries hd
    rfl
  constructor
  · rw [jobs, hrows, List.filter_append, hall, List.map_append, Outbox.newJobs, queuedJobs,
      List.map_map]
    refine congrArg _ (List.map_congr_left fun d hd => ?_)
    obtain ⟨i, name, -, rfl⟩ := mem_newDeliveries hd
    rfl
  · have hnd : (db'.deliveries.rows.map (·.deliveryId)).Nodup := db'.deliveries.pk
    rw [hrows, List.map_append] at hnd
    have hold : (outboxOf h db).jobs.map (·.id)
        = (db.deliveries.rows.filter fun d => !d.immutable).map (·.deliveryId) := by
      rw [outboxOf, jobs, List.map_map]
      rfl
    rw [Outbox.State.Fresh, hold, queuedJobs, List.map_map]
    exact hnd.sublist ((List.filter_sublist.map _).append (List.Sublist.refl _))

theorem outboxOf_items (h : List Event) (db : Database) :
    (outboxOf h db).items.map (·.1) = db.receipts.keys := by
  rw [outboxOf, List.map_map]
  rfl

/-- A step that changes nothing, and is neither call nor answer. -/
theorem Matched.same (hquiet : ∀ ev ∈ es, ev.call? = none ∧ ev.answer? = none)
    (hseen : es.filterMap (Event.seen dep) = []) : Matched dep limit h db es db :=
  .stutter (outboxOf_append db hquiet) hseen

/-- **A commit is matched**: the receipt is accepted for the names of its fan-out. -/
theorem Commit.Made.matched {k : Commit} {pipe : Pipeline} (hk : k.Made pipe db db')
    (hquiet : ∀ ev ∈ es, ev.call? = none ∧ ev.answer? = none)
    (hseen : es.filterMap (Event.seen dep)
      = [.accepted k.receipt.receiptId (.fromReceipt k.receipt) k.emitterNames]) :
    Matched dep limit h db es db' := by
  obtain ⟨now, draw, hrows⟩ := hk.deliveries
  obtain ⟨hjobs, hfresh⟩ := Database.jobs_append hrows h
  have hitem : k.receipt.receiptId ∉ (outboxOf h db).items.map (·.1) := by
    rw [outboxOf_items]
    exact hk.id
  refine .action (a := .accept k.receipt.receiptId (.fromReceipt k.receipt)
    (queuedJobs k.receipt.receiptId now k.emitterNames draw)) ?_ ?_
  · rw [Outbox.Action.step, if_pos ⟨hitem, hfresh⟩, outboxOf_append db hquiet, hjobs,
      hk.receipts, List.map_append]
    rfl
  · rw [hseen, Outbox.Action.seen, queuedJobs_names]

theorem Matched.acknowledge {call : CallId} {id : ReceiptId} {result : IngestResult}
    (hid : id ∈ db.receipts.keys) (hresult : result = .accepted id ∨ result = .duplicate id) :
    Matched dep limit h db [.returned call (.ok result)] db := by
  refine .action (a := .acknowledge id) ?_ ?_
  · rw [Outbox.Action.step, if_pos (by rw [outboxOf_items]; exact hid),
      outboxOf_append db (by simp [Event.call?, Event.answer?])]
    rfl
  · rcases hresult with rfl | rfl <;> rfl

/-- **A step of an ingest call is matched.**  A call that has its receipt stored, and is about to
answer, has a receipt to name. -/
theorem IngestStep.Effect.matched {call : CallId} {cache : InMemoryRecentDedupe} {phase : CallPhase}
    {o : IngestOutcome}
    (heff : IngestStep.Effect dep.lib (dep.servers call.server) call db cache phase o)
    (hrecording : ∀ c, phase = .recording c → c.receiptId ∈ db.receipts.keys) :
    Matched dep limit h db o.events o.db := by
  cases heff with
  | turnedAway req utcNow reason hphase hverify =>
    exact .same (by simp [Event.call?, Event.answer?]) rfl
  | started c utcNow hphase hverify => exact .same (by simp [Event.call?, Event.answer?]) rfl
  | proceeded c next hphase hnext => exact .same (by simp) rfl
  | failed c e hphase => exact .same (by simp [callFailed, Event.call?, Event.answer?]) rfl
  | stored c utcNow now draw db' hphase hstore =>
    have hmade : Commit.Made ⟨call, _, _⟩ (dep.servers call.server) db db' :=
      Commit.made_of_store rfl hstore
    exact hmade.matched (by simp [Event.call?, Event.answer?]) rfl
  | storedLost c utcNow now draw db' e hphase hstore =>
    have hmade : Commit.Made ⟨call, _, _⟩ (dep.servers call.server) db db' :=
      Commit.made_of_store rfl hstore
    exact hmade.matched (by simp [callFailed, Event.call?, Event.answer?]) rfl
  | duplicate c row hphase hrow =>
    exact .acknowledge (Table.key_mem_keys (List.mem_of_find?_eq_some hrow)) (.inr rfl)
  | accepted c cache' hphase => exact .acknowledge (hrecording c hphase) (.inl rfl)

/-- **An operator's statement is matched**: it queues jobs for an item, or changes what the outbox
does not look at. -/
theorem AdminStep.matched {a : AdminStep} (hrun : a.run db = some db') :
    Matched dep limit h db [] db' := by
  rcases AdminStep.run_cases hrun with ⟨hr, names, draw, now, -, hrows⟩ | ⟨-, u, rfl, -⟩
  · obtain ⟨hjobs, hfresh⟩ := Database.jobs_append hrows h
    have hafter : outboxOf (h ++ []) db' = { outboxOf h db with
        jobs := db.jobs ++ Outbox.newJobs a.target (queuedJobs a.target now names draw) } := by
      rw [outboxOf_append db (by simp), hjobs, hr]
      rfl
    cases hnew : Database.newDeliveries a.target now names draw with
    | nil =>
      -- A replay of no emitter at all does not look at the receipt.
      refine .stutter ?_ rfl
      rw [hafter, queuedJobs, hnew]
      simp [Outbox.newJobs, outboxOf]
    | cons d ds =>
      have hd : d ∈ Database.newDeliveries a.target now names draw := by
        rw [hnew]
        exact List.mem_cons_self
      have hkey : a.target ∈ db.receipts.keys := by
        have hfk := db'.receiptFk d (by rw [hrows]; exact List.mem_append_right _ hd)
        obtain ⟨i, name, -, rfl⟩ := Database.mem_newDeliveries hd
        rw [hr] at hfk
        exact hfk
      refine .action (a := .requeue a.target (queuedJobs a.target now names draw)) ?_ rfl
      rw [Outbox.Action.step, if_pos ⟨by rw [outboxOf_items]; exact hkey, hfresh⟩, hafter]
      rfl
  · refine .stutter ?_ rfl
    rw [outboxOf_append db (by simp), Database.updateReceipts_rows, List.map_map]
    have hitem : (ReceiptRow.item ∘ u.run) = ReceiptRow.item := funext fun r => by
      rw [Function.comp_apply, ReceiptRow.item, ReceiptRow.item, u.run_receiptId,
        event_eq_of_content_eq (u.content_run r)]
    rw [hitem]
    rfl

end Matched

/-! ## 3. The system implements the outbox -/

section Runs

variable {dep : Deployment} {limit : String → Nat}
  (hlimit : dep.Insists limit) {db : Database}

/-- A run from a start, with its history. -/
def Reached (dep : Deployment) (db : Database) (h : List Event) (s : Sys) : Prop :=
  ∃ ls, (system dep).exec (.start dep db) ls = some s ∧ (system dep).trace (.start dep db) ls = h

/-- A call that is about to answer has its receipt in the database. -/
theorem Reached.recording {h : List Event} {s : Sys} (hs : Reached dep db h s) {call : CallId}
    {c : IngestCall} (hphase : s.calls call = .recording c) : c.receiptId ∈ s.db.receipts.keys := by
  obtain ⟨ls, hrun, rfl⟩ := hs
  have htrace := system_callTrace hrun call
  rw [hphase] at htrace
  generalize hes : Event.ofCall call ((system dep).trace (.start dep db) ls) = es at htrace
  cases htrace with
  | undecided phase c' utcNow hundecided hverify => cases hundecided
  | recording c utcNow receivedAt hverify =>
    have hev : .stored call (c.receipt dep.lib receivedAt) (dep.servers call.server).emitterNames
        ∈ (system dep).trace (.start dep db) ls :=
      Event.mem_of_mem_ofCall (by rw [hes]; simp)
    obtain ⟨row, hrow, hcontent⟩ := system_stored_row hrun hev
    exact Table.mem_keys.mpr ⟨row, hrow, congrArg (·.receiptId) hcontent⟩

include hlimit

/-- **The simulation.** -/
theorem system_simulation (hdb : ∀ d ∈ db.deliveries.rows, d.immutable = true) :
    Lts.Simulation (system dep) (Outbox.machine limit) (Event.seen dep) (Reached dep db)
      (fun h s o => o = outboxOf h s.db) where
  step := by
    rintro h s l s' o hs rfl hstep
    obtain ⟨ls, hrun, rfl⟩ := id hs
    have hmatched : Matched dep limit ((system dep).trace (.start dep db) ls) s.db
        ((system dep).obs s l) s'.db := by
      cases l with
      | worker i step =>
        obtain ⟨o, ho, rfl⟩ := Option.map_eq_some_iff.mp hstep
        have hobs : (system dep).obs s (.worker i step) = o.events := by
          simp [system, Label.obs, ho]
        rw [hobs]
        exact (WorkerStep.run_cases ho).matched hlimit (system_sound hdb hrun)
          (system_callsOnce hrun) (WorkerStep.run_calls ho)
      | ingest call step =>
        obtain ⟨o, heff, rfl, hobs⟩ := system_ingest hstep
        rw [hobs]
        exact heff.matched fun c hphase => hs.recording hphase
      | admin a =>
        obtain ⟨db', hrun', rfl, hobs⟩ := system_admin hstep
        rw [hobs]
        exact AdminStep.matched hrun'
    obtain ⟨as, hexec, htrace⟩ := hmatched
    exact ⟨as, _, hexec, htrace, rfl⟩

/-- **The system implements the outbox.** -/
theorem system_outbox (hdb : ∀ d ∈ db.deliveries.rows, d.immutable = true) {ls : List Label}
    {s : Sys} (h : (system dep).exec (.start dep db) ls = some s) :
    ∃ as, (Outbox.machine limit).exec (outboxOf [] db) as
        = some (outboxOf ((system dep).trace (.start dep db) ls) s.db) ∧
      (Outbox.machine limit).trace (outboxOf [] db) as
        = ((system dep).trace (.start dep db) ls).filterMap (Event.seen dep) := by
  have hstart : outboxOf [] db = outboxOf [] (Sys.start dep db).db := rfl
  obtain ⟨as, o, hexec, htrace, rfl⟩ := (system_simulation hlimit hdb).exec
    (fun ls s h => ⟨ls, h, rfl⟩) hstart h
  exact ⟨as, hexec, htrace⟩

/-- **At least once.**  On every run from a migrated database, whatever moves and in whichever order:
what providers and downstreams see of it is what a run of the outbox shows, which starts with the
old receipts and without jobs, and ends with the receipts and the mutable rows that the run left. -/
theorem system_implements_outbox {pre : Receipts} {draw : Nat → DeliveryId}
    (hdb : migrate0002 pre draw = some db) {ls : List Label} {s : Sys}
    (h : (system dep).exec (.start dep db) ls = some s) :
    ∃ as o, (Outbox.machine limit).exec
        ⟨pre.receipts.rows.map ReceiptRow.item, [], [], []⟩ as = some o ∧
      (Outbox.machine limit).trace ⟨pre.receipts.rows.map ReceiptRow.item, [], [], []⟩ as
        = ((system dep).trace (.start dep db) ls).filterMap (Event.seen dep) ∧
      o.items = s.db.receipts.rows.map ReceiptRow.item ∧ o.jobs = s.db.jobs := by
  have himm : ∀ d ∈ db.deliveries.rows, d.immutable = true := fun d hd =>
    migrate0002_immutable hdb hd
  have hstart : outboxOf [] db = ⟨pre.receipts.rows.map ReceiptRow.item, [], [], []⟩ := by
    have hjobs : db.jobs = [] := by
      rw [Database.jobs, List.map_eq_nil_iff, List.filter_eq_nil_iff]
      intro d hd
      simp [himm d hd]
    rw [outboxOf, hjobs, (migrate0002_spec hdb).1]
    rfl
  obtain ⟨as, hexec, htrace⟩ := system_outbox hlimit himm h
  rw [hstart] at hexec htrace
  exact ⟨as, _, hexec, htrace, rfl, rfl⟩

end Runs

theorem sampleDep_insists : sampleDep.Insists fun _ => 5 := by
  intro i
  have hfive : ((5 : Nat) : Int) ≤ (5 : Int32).toInt := by decide
  exact hfive

theorem system_implements_outbox_after_five :
    ∃ s, (system sampleDep).exec (.start sampleDep .empty) fiveFailures = some s ∧
      ∃ as o, (Outbox.machine fun _ => 5).exec ⟨[], [], [], []⟩ as = some o ∧
        (Outbox.machine fun _ => 5).trace ⟨[], [], [], []⟩ as
          = ((system sampleDep).trace (.start sampleDep .empty) fiveFailures).filterMap
              (Event.seen sampleDep) ∧
        o.jobs = [⟨⟨0⟩, ⟨1⟩, "kafka", .givenUp⟩] := by
  have hrun : (system sampleDep).exec (.start sampleDep .empty) fiveFailures = some _ := rfl
  obtain ⟨as, o, hexec, htrace, -, hjobs⟩ :=
    system_implements_outbox sampleDep_insists (migrate0002_empty fun _ => ⟨0⟩) hrun
  exact ⟨_, hrun, as, o, hexec, htrace, hjobs.trans rfl⟩

end Hookbox
