/-
# What the rows say about the emits

`attempt_count` is read when a row is claimed and written back, plus one, by a dispatch that may
long have lost its lease.  This module relates what the rows and the outstanding dispatches say
to what the downstream really answered.

* `Sys.Sound`: the invariant.  A snapshot never counts more than the emits that have failed, and a
  dispatch that has seen a failure has one to spare.
* `no_premature_dead_letter`: an emitted row was really delivered, a dead-lettered row really
  failed `max_attempts` times, and no count overshoots.
-/
import Hookbox.System

namespace Hookbox

open Event (errs oks)

/-! ## 1. Counters that do not wrap -/

theorem toInt_add_one {a : Int32} (h₀ : 0 ≤ a.toInt) (h₁ : a.toInt < 2 ^ 31 - 1) :
    (a + 1).toInt = a.toInt + 1 := by
  have hone : (1 : Int32).toInt = 1 := rfl
  rw [Int32.toInt_add, hone]
  exact Int.bmod_eq_of_le_mul_two (by omega) (by omega)

theorem toInt_lt_of_not_ge {a b : Int32} (h : ¬ a ≥ b) : a.toInt < b.toInt := by
  rw [ge_iff_le, Int32.le_iff_toInt_le] at h
  omega

/-! ## 2. The invariant -/

/-- `event` is what a receipt of the database gives rise to. -/
def Database.EventOf (db : Database) (id : ReceiptId) (event : NormalizedEvent) : Prop :=
  ∃ row ∈ db.receipts.rows, row.receiptId = id ∧ row.event = event

/-- A worker of the row's emitter sent the receipt's event for this row, and got `Ok`. -/
def Delivered (dep : Deployment) (h : List Event) (db : Database) (d : WebhookDelivery) : Prop :=
  ∃ c event, .emitReturned c d.deliveryId event (.ok ()) ∈ h ∧
    (dep.workers c.worker).name = d.emitterName ∧ db.EventOf d.receiptId event

/-- The row failed as often as some worker of its emitter asks for. -/
def GivenUp (dep : Deployment) (h : List Event) (d : WebhookDelivery) : Prop :=
  ∃ i, (dep.workers i).name = d.emitterName ∧
    (dep.workers i).policy.maxAttempts.toInt ≤ errs h d.deliveryId

/-- A count that is backed by failures and far from wrapping. -/
structure CountSound (h : List Event) (d : WebhookDelivery) : Prop where
  nonneg : 0 ≤ d.attemptCount.toInt
  small : d.attemptCount.toInt < 2 ^ 31 - 1
  backed : d.attemptCount.toInt ≤ errs h d.deliveryId

/-- What a mutable row says is true. -/
structure RowSound (dep : Deployment) (h : List Event) (db : Database) (d : WebhookDelivery) :
    Prop where
  count : CountSound h d
  emitted : d.state = .emitted → Delivered dep h db d
  deadLettered : d.state = .deadLettered → GivenUp dep h d

/-- What worker `i` has outstanding is a snapshot of one of its own mutable rows, and what it
knows of receipt and answer is true. -/
structure OutSound (dep : Deployment) (h : List Event) (db : Database) (i : WorkerId)
    (x : Outstanding) : Prop where
  row : ∃ d ∈ db.deliveries.rows, d.identity = x.delivery.identity
  mutable : x.delivery.immutable = false
  name : x.delivery.emitterName = (dep.workers i).name
  count : CountSound h x.delivery
  receipt : ∀ r, x.receipt = some r → db.EventOf x.delivery.receiptId (.fromReceipt r)
  ok : x.result = some (.ok ()) → Delivered dep h db x.delivery
  error : ∀ e, x.result = some (.error e) →
    x.delivery.attemptCount.toInt + 1 ≤ errs h x.delivery.deliveryId

/-- **The invariant**, over history and state. -/
structure Sys.Sound (dep : Deployment) (h : List Event) (s : Sys) : Prop where
  rows : ∀ d ∈ s.db.deliveries.rows, d.immutable = false → RowSound dep h s.db d
  outs : ∀ i, ∀ x ∈ (s.workers i).outstanding, OutSound dep h s.db i x

/-! ## 3. Truths stay true -/

theorem Database.EventOf.mono {db db' : Database} (h : db.SameReceipts db') {id : ReceiptId}
    {event : NormalizedEvent} (he : db.EventOf id event) : db'.EventOf id event := by
  obtain ⟨row, hrow, rfl, rfl⟩ := he
  obtain ⟨row', hrow', hc⟩ := h row hrow
  exact ⟨row', hrow', congrArg (·.receiptId) hc, event_eq_of_content_eq hc⟩

section Mono

variable {dep : Deployment} {h : List Event} {db db' : Database} (es : List Event)

theorem Delivered.mono (hr : db.SameReceipts db') {d d' : WebhookDelivery}
    (hid : d'.identity = d.identity) (hd : Delivered dep h db d) :
    Delivered dep (h ++ es) db' d' := by
  obtain ⟨c, event, hmem, hname, hev⟩ := hd
  have hdid : d'.deliveryId = d.deliveryId := congrArg (·.deliveryId) hid
  have hrid : d'.receiptId = d.receiptId := congrArg (·.receiptId) hid
  have hen : d'.emitterName = d.emitterName := congrArg (·.emitterName) hid
  refine ⟨c, event, ?_, ?_, ?_⟩
  · rw [hdid]
    exact List.mem_append_left _ hmem
  · rw [hen, hname]
  · rw [hrid]
    exact hev.mono hr

theorem GivenUp.mono {d d' : WebhookDelivery} (hid : d'.identity = d.identity)
    (hd : GivenUp dep h d) : GivenUp dep (h ++ es) d' := by
  obtain ⟨i, hname, hmax⟩ := hd
  have hdid : d'.deliveryId = d.deliveryId := congrArg (·.deliveryId) hid
  have hen : d'.emitterName = d.emitterName := congrArg (·.emitterName) hid
  have hle := Event.errs_le_append h es d.deliveryId
  exact ⟨i, by rw [hen, hname], by rw [hdid]; omega⟩

theorem CountSound.mono {d d' : WebhookDelivery} (hdid : d'.deliveryId = d.deliveryId)
    (ha : d'.attemptCount = d.attemptCount) (hd : CountSound h d) : CountSound (h ++ es) d' := by
  obtain ⟨h₀, h₁, h₂⟩ := hd
  have hle := Event.errs_le_append h es d.deliveryId
  refine ⟨by rw [ha]; exact h₀, by rw [ha]; exact h₁, ?_⟩
  rw [ha, hdid]
  omega

/-- A row that keeps its count and does not move to a terminal state stays sound. -/
theorem RowSound.mono (hr : db.SameReceipts db') {d d' : WebhookDelivery}
    (hid : d'.identity = d.identity) (ha : d'.attemptCount = d.attemptCount)
    (hst : d'.state = d.state ∨ d'.state = .inFlight ∨ d'.state = .failed)
    (hd : RowSound dep h db d) : RowSound dep (h ++ es) db' d' := by
  refine ⟨hd.count.mono es (congrArg (·.deliveryId) hid) ha, fun he => ?_, fun he => ?_⟩
  · rcases hst with hst | hst | hst
    · exact (hd.emitted (hst ▸ he)).mono es hr hid
    · rw [hst] at he; exact absurd he (by simp)
    · rw [hst] at he; exact absurd he (by simp)
  · rcases hst with hst | hst | hst
    · exact (hd.deadLettered (hst ▸ he)).mono es hid
    · rw [hst] at he; exact absurd he (by simp)
    · rw [hst] at he; exact absurd he (by simp)

/-- What is outstanding stays true when its row keeps its identity. -/
theorem OutSound.mono (hr : db.SameReceipts db')
    (hrows : ∀ d ∈ db.deliveries.rows, ∃ d' ∈ db'.deliveries.rows, d'.identity = d.identity)
    {i : WorkerId} {x : Outstanding} (hx : OutSound dep h db i x) :
    OutSound dep (h ++ es) db' i x where
  row := by
    obtain ⟨d, hd, hid⟩ := hx.row
    obtain ⟨d', hd', hid'⟩ := hrows d hd
    exact ⟨d', hd', hid'.trans hid⟩
  mutable := hx.mutable
  name := hx.name
  count := hx.count.mono es rfl rfl
  receipt := fun r h => (hx.receipt r h).mono hr
  ok := fun h => (hx.ok h).mono es hr rfl
  error := by
    intro e he
    have h₁ := hx.error e he
    have h₂ := Event.errs_le_append h es x.delivery.deliveryId
    omega

end Mono

theorem identity_updateDeliveries (db : Database) (u : DeliveryUpdate) :
    ∀ d ∈ db.deliveries.rows, ∃ d' ∈ (db.updateDeliveries u).deliveries.rows,
      d'.identity = d.identity :=
  fun d hd => ⟨u.run d, List.mem_map_of_mem hd, u.identity_run d⟩

/-! ## 4. One step -/

/-- The row of an outstanding snapshot: the primary key leaves no choice. -/
theorem OutSound.identity_eq {dep : Deployment} {h : List Event} {db : Database} {i : WorkerId}
    {x : Outstanding} (hx : OutSound dep h db i x) {d : WebhookDelivery}
    (hd : d ∈ db.deliveries.rows) (hid : d.deliveryId = x.delivery.deliveryId) :
    d.identity = x.delivery.identity := by
  obtain ⟨d₀, hd₀, hid₀⟩ := hx.row
  have hkey : d₀.deliveryId = x.delivery.deliveryId := congrArg (·.deliveryId) hid₀
  rw [Table.eq_of_key_eq hd hd₀ (hid.trans hkey.symm), hid₀]

/-- A fresh row is sound. -/
theorem newDelivery_sound (dep : Deployment) (h : List Event) (db : Database) (id : DeliveryId)
    (receiptId : ReceiptId) (name : String) (now : Timestamp) :
    RowSound dep h db (Database.newDelivery id receiptId name now) where
  count := by
    have hzero : (Database.newDelivery id receiptId name now).attemptCount.toInt = 0 := rfl
    constructor <;> omega
  emitted := fun he => absurd he (by simp [Database.newDelivery])
  deadLettered := fun he => absurd he (by simp [Database.newDelivery])

section Step

variable {dep : Deployment} {h : List Event} {s : Sys}

theorem Sys.Sound.environment (hs : s.Sound dep h) {s' : Sys} {es : List Event}
    (hworkers : s'.workers = s.workers) (hdb : s.db.Grows s'.db) : s'.Sound dep (h ++ es) := by
  have hr := hdb.receipts
  obtain ⟨receiptId, now, names, draw, hrows⟩ := hdb.deliveries
  constructor
  · intro d hd hi
    rcases Database.mem_of_append_newDeliveries hrows hd with hd | ⟨k, name, -, rfl⟩
    · exact (hs.rows d hd hi).mono es hr rfl rfl (Or.inl rfl)
    · exact newDelivery_sound dep _ _ _ _ _ _
  · intro i x hx
    rw [hworkers] at hx
    refine (hs.outs i x hx).mono es hr fun d hd => ⟨d, ?_, rfl⟩
    rw [hrows]
    exact List.mem_append_left _ hd

/-- **The row a mark writes is sound**, whoever held the lease: the snapshot vouches for it. -/
theorem RowSound.mark {db : Database} {i : WorkerId} {x : Outstanding}
    {result : Except EmitError Unit} (hx : OutSound dep h db i x) (hres : x.result = some result)
    (input : MarkInput) (ev : Event) {d : WebhookDelivery} (hid : d.identity = x.delivery.identity)
    (hd : RowSound dep h db d) :
    RowSound dep (h ++ [ev])
      (db.updateDeliveries (.mark d.deliveryId (dispatchMark (dep.workers i) x.delivery result input)))
      ((dispatchMark (dep.workers i) x.delivery result input).set d) := by
  have hdid : d.deliveryId = x.delivery.deliveryId := congrArg (·.deliveryId) hid
  have hen : d.emitterName = x.delivery.emitterName := congrArg (·.emitterName) hid
  have hle := Event.errs_le_append h [ev] d.deliveryId
  cases result with
  | ok u =>
    -- `mark_emitted` keeps the count.
    refine ⟨CountSound.mono (d := d) [ev] rfl rfl hd.count, fun _ => ?_, fun he => absurd he (by
      simp [dispatchMark, DeliveryUpdate.Mark.set])⟩
    exact (hx.ok hres).mono _ (sameReceipts_updateDeliveries _ _) hid
  | error e =>
    obtain ⟨h₀, h₁, -⟩ := hx.count
    have herr := hx.error e hres
    have hsucc := toInt_add_one h₀ h₁
    rw [← hdid] at herr
    by_cases hmax : x.delivery.attemptCount + 1 ≥ (dep.workers i).policy.maxAttempts
    · have hm : dispatchMark (dep.workers i) x.delivery (.error e) input
          = .deadLettered e.toString := by simp [dispatchMark, hmax]
      rw [hm]
      refine ⟨CountSound.mono (d := d) [ev] rfl rfl hd.count, fun he => absurd he (by simp [DeliveryUpdate.Mark.set]),
        fun _ => ⟨i, ?_, ?_⟩⟩
      · rw [← hx.name, ← hen]
        rfl
      · have hge := Int32.le_iff_toInt_le.mp hmax
        show (dep.workers i).policy.maxAttempts.toInt ≤ errs (h ++ [ev]) d.deliveryId
        omega
    · have hm : dispatchMark (dep.workers i) x.delivery (.error e) input
          = .failed (x.delivery.attemptCount + 1) (input.utcNow + input.nextDelta) e.toString := by
        simp [dispatchMark, hmax]
      rw [hm]
      refine ⟨⟨?_, ?_, ?_⟩, fun he => absurd he (by simp [DeliveryUpdate.Mark.set]),
        fun he => absurd he (by simp [DeliveryUpdate.Mark.set])⟩
      · show 0 ≤ (x.delivery.attemptCount + 1).toInt
        omega
      · -- Below `max_attempts` there is room for one more.
        have hlt := toInt_lt_of_not_ge hmax
        have htop := (dep.workers i).policy.maxAttempts.toInt_lt
        show (x.delivery.attemptCount + 1).toInt < 2 ^ 31 - 1
        omega
      · show (x.delivery.attemptCount + 1).toInt ≤ errs (h ++ [ev]) d.deliveryId
        omega

/-- A loaded receipt gives rise to its row's event. -/
theorem loadClaimed_eventOf {db : Database} {d : WebhookDelivery} {receipt : WebhookReceipt}
    (h : db.loadClaimed d = .ok (d, receipt)) : db.EventOf d.receiptId (.fromReceipt receipt) := by
  obtain ⟨found, hget, hrest⟩ := Except.bind_eq_ok.mp h
  cases found with
  | none => exact absurd hrest (by simp)
  | some receipt' =>
    cases hrest
    obtain ⟨row, hrow, hfrom⟩ := Database.get_eq_ok_some_iff.mp hget
    exact ⟨row, Table.mem_of_get? hrow, Table.key_of_get? hrow, (receiptFromRow_ok hfrom).2.symm⟩

section Worker

variable {i : WorkerId} {db : Database} {w : WorkerState} {o : WorkerOutcome}
  (heff : WorkerStep.Effect (dep.workers i) i db w o)
  (hrows : ∀ d ∈ db.deliveries.rows, d.immutable = false → RowSound dep h db d)
  (houts : ∀ x ∈ w.outstanding, OutSound dep h db i x)

include heff hrows houts

/-- Rows under a worker step. -/
theorem WorkerStep.Effect.rowSound {d : WebhookDelivery} (hd : d ∈ db.deliveries.rows)
    (hi : d.immutable = false) :
    RowSound dep (h ++ o.events) (db.updateDeliveries o.update) (o.update.run d) := by
  have hr := sameReceipts_updateDeliveries db o.update
  have hsound := hrows d hd hi
  cases heff with
  | quiet w' hclaims hout => exact hsound.mono _ hr rfl rfl (Or.inl rfl)
  | load w' d' receipt hclaims hd' hload hout => exact hsound.mono _ hr rfl rfl (Or.inl rfl)
  | reclaim w' now hclaims hout =>
    rcases DeliveryUpdate.reclaimExpired_cases (dep.workers i).name (dep.workers i).leaseDuration
      now d with ⟨-, heq⟩ | ⟨-, heq⟩
    · rw [heq]
      exact hsound.mono _ hr rfl rfl (Or.inl rfl)
    · refine hsound.mono _ hr (DeliveryUpdate.identity_run _ d) ?_ ?_
      · rw [heq]
      · exact Or.inr (Or.inr (by rw [heq]))
  | claim w' now locked picked hclaims hselect hout =>
    rcases hselect.claim_cases hd with ⟨-, heq⟩ | ⟨-, -, heq⟩
    · rw [heq]
      exact hsound.mono _ hr rfl rfl (Or.inl rfl)
    · refine hsound.mono _ hr (DeliveryUpdate.identity_run _ d) ?_ ?_
      · rw [heq]
      · exact Or.inr (Or.inl (by rw [heq]))
  | call w' d' receipt hclaims hd' hout => exact hsound.mono _ hr rfl rfl (Or.inl rfl)
  | returned w' d' receipt result hclaims hd' hout => exact hsound.mono _ hr rfl rfl (Or.inl rfl)
  | mark w' d' receipt result input hclaims hd' hout =>
    rcases DeliveryUpdate.mark_cases d'.deliveryId
      (dispatchMark (dep.workers i) d' result input) d with ⟨-, heq⟩ | ⟨hid, -, heq⟩
    · rw [heq]
      exact hsound.mono _ hr rfl rfl (Or.inl rfl)
    · have hx := houts _ hd'
      rw [heq, ← hid]
      exact RowSound.mark hx rfl input _ (hx.identity_eq hd hid) hsound

/-- What the worker that moves has outstanding afterwards. -/
theorem WorkerStep.Effect.outSound {x : Outstanding} (hx : x ∈ o.next.outstanding) :
    OutSound dep (h ++ o.events) (db.updateDeliveries o.update) i x := by
  have hr := sameReceipts_updateDeliveries db o.update
  have hident := identity_updateDeliveries db o.update
  cases heff with
  | quiet w' hclaims hout => exact (houts x (hout x hx)).mono _ hr hident
  | load w' d receipt hclaims hd hload hout =>
    rcases hout x hx with hx | rfl
    · exact (houts x hx).mono _ hr hident
    · have hold := (houts _ hd).mono [] hr hident
      refine ⟨hold.row, hold.mutable, hold.name, hold.count, fun r hreq => ?_,
        fun he => absurd he (by simp), fun e he => absurd he (by simp)⟩
      obtain rfl : receipt = r := by simpa using hreq
      exact (loadClaimed_eventOf hload).mono hr
  | reclaim w' now hclaims hout =>
    rw [hout] at hx
    simp at hx
  | claim w' now locked picked hclaims hselect hout =>
    obtain ⟨d, hd, rfl⟩ := hout x hx
    obtain ⟨d₀, hd₀, hpick, rfl⟩ := Database.mem_claimedRows.mp hd
    obtain ⟨hname, -, -, hi⟩ := hselect.eligible hd₀ hpick
    obtain ⟨d', hd', hid'⟩ := hident d₀ hd₀
    exact ⟨⟨d', hd', hid'⟩, hi, hname, CountSound.mono (d := d₀) _ rfl rfl (hrows d₀ hd₀ hi).count,
      fun r hreq => absurd hreq (by simp), fun he => absurd he (by simp),
      fun e he => absurd he (by simp)⟩
  | call w' d receipt hclaims hd hout =>
    obtain ⟨r, hmem, hres⟩ := hout x hx
    have hold := (houts _ hmem).mono [.emitCalled ⟨i, w.claims⟩ d.deliveryId (.fromReceipt receipt)]
      hr hident
    refine ⟨hold.row, hold.mutable, hold.name, hold.count, hold.receipt, fun he => ?_,
      fun e he => ?_⟩
    · rcases hres with hres | hres
      · rw [hres] at he; exact absurd he (by simp)
      · exact hold.ok (hres ▸ he)
    · rcases hres with hres | hres
      · rw [hres] at he; exact absurd he (by simp)
      · exact hold.error e (hres ▸ he)
  | returned w' d receipt result hclaims hd hout =>
    rcases hout x hx with hx | ⟨hid, hres, r, hmem⟩
    · exact (houts x hx).mono _ hr hident
    · have hold := (houts _ hmem).mono
        [.emitReturned ⟨i, w.claims⟩ d.deliveryId (.fromReceipt receipt) result] hr hident
      refine ⟨hold.row, hold.mutable, hold.name, hold.count, hold.receipt, fun he => ?_,
        fun e he => ?_⟩
      · -- The call that has just returned is the delivery.
        obtain rfl : result = .ok () := by simpa [hres] using he
        have hd' := houts _ hd
        obtain ⟨d₀, hd₀, hid₀⟩ := (houts _ hmem).row
        have hsame : x.delivery.identity = d.identity := by
          rw [← hid₀]
          exact hd'.identity_eq hd₀ ((congrArg (·.deliveryId) hid₀).trans hid)
        have hrid : x.delivery.receiptId = d.receiptId := congrArg (·.receiptId) hsame
        refine ⟨⟨i, w.claims⟩, .fromReceipt receipt, ?_, hold.name.symm, ?_⟩
        · rw [hid]
          exact List.mem_append_right _ (List.mem_singleton.mpr rfl)
        · rw [hrid]
          exact (hd'.receipt receipt rfl).mono hr
      · obtain rfl : result = .error e := by simpa [hres] using he
        have hback := (houts _ hmem).count.backed
        have hone : errs [.emitReturned ⟨i, w.claims⟩ d.deliveryId (.fromReceipt receipt)
            (.error e)] x.delivery.deliveryId = 1 := by
          simp [errs, Event.isErr, hid]
        have happ := Event.errs_append h [.emitReturned ⟨i, w.claims⟩ d.deliveryId
          (.fromReceipt receipt) (.error e)] x.delivery.deliveryId
        simp only at hback ⊢
        omega
  | mark w' d receipt result input hclaims hd hout =>
    exact (houts x (hout x hx).1).mono _ hr hident

end Worker

/-- **One step keeps everything true.** -/
theorem Sys.Effect.sound {s' : Sys} {es : List Event} (heff : Sys.Effect dep s s' es)
    (hs : s.Sound dep h) : s'.Sound dep (h ++ es) := by
  cases heff with
  | environment s' es hworkers hdb hes => exact hs.environment hworkers hdb
  | worker i o heff =>
    constructor
    · intro d' hd' hi
      obtain ⟨d, hd, rfl⟩ := List.mem_map.mp hd'
      rw [DeliveryUpdate.run_immutable] at hi
      exact heff.rowSound hs.rows (hs.outs i) hd hi
    · intro j x hx
      rcases Sys.outstanding_afterWorker hx with ⟨rfl, hx'⟩ | ⟨-, hx'⟩
      · exact heff.outSound hs.rows (hs.outs j) hx'
      · exact (hs.outs j x hx').mono _ (sameReceipts_updateDeliveries _ _)
          (identity_updateDeliveries _ _)

end Step

/-- The invariant holds on every run from a database whose rows are all immutable. -/
theorem system_sound {dep : Deployment} {db : Database}
    (hdb : ∀ d ∈ db.deliveries.rows, d.immutable = true) {ls : List Label} {s : Sys}
    (h : (system dep).exec (.start dep db) ls = some s) :
    s.Sound dep ((system dep).trace (.start dep db) ls) := by
  refine Lts.exec_induction (I := fun h s => s.Sound dep h) ?_ ?_ h
  · constructor
    · intro d hd hi
      rw [hdb d hd] at hi
      exact absurd hi (by simp)
    · intro i x hx
      simp [Sys.start, WorkerState.outstanding, WorkerPhase.outstanding] at hx
  · intro h s l s' hs hstep
    exact (system_step_cases hstep).sound hs

/-! ## 5. No premature dead letter, no unsound success -/

/-- All workers of one emitter have the same policy. -/
def Deployment.OnePolicy (dep : Deployment) : Prop :=
  ∀ i j, (dep.workers i).name = (dep.workers j).name → (dep.workers i).policy = (dep.workers j).policy

theorem Delivered.oks_pos {dep : Deployment} {h : List Event} {db : Database}
    {d : WebhookDelivery} (hd : Delivered dep h db d) : 1 ≤ oks h d.deliveryId := by
  obtain ⟨c, event, hmem, -⟩ := hd
  exact List.countP_pos_iff.mpr ⟨_, hmem, by simp [Event.isOk]⟩

theorem GivenUp.errs_ge {dep : Deployment} (hpol : dep.OnePolicy) {h : List Event}
    {d : WebhookDelivery} (hd : GivenUp dep h d) {i : WorkerId}
    (hi : (dep.workers i).name = d.emitterName) :
    (dep.workers i).policy.maxAttempts.toInt ≤ errs h d.deliveryId := by
  obtain ⟨j, hj, hmax⟩ := hd
  rw [hpol i j (hi.trans hj.symm)]
  exact hmax

/-- **No premature dead letter and no unsound success.**  On every run from a migrated database,
for every mutable row: if it is emitted, an emit for it returned `Ok`; if it is dead-lettered, at
least `max_attempts` emits for it returned `Err`; and its `attempt_count` is at most the number of
emits for it that returned `Err`. -/
theorem no_premature_dead_letter {dep : Deployment} (hpol : dep.OnePolicy) {pre : Receipts}
    {draw : Nat → DeliveryId} {db : Database} (hdb : migrate0002 pre draw = some db)
    {ls : List Label} {s : Sys} (h : (system dep).exec (.start dep db) ls = some s)
    {d : WebhookDelivery} (hd : d ∈ s.db.deliveries.rows) (hmut : d.immutable = false) :
    (d.state = .emitted → 1 ≤ oks ((system dep).trace (.start dep db) ls) d.deliveryId) ∧
      (d.state = .deadLettered → ∀ i, (dep.workers i).name = d.emitterName →
        (dep.workers i).policy.maxAttempts.toInt
          ≤ errs ((system dep).trace (.start dep db) ls) d.deliveryId) ∧
      d.attemptCount.toInt ≤ errs ((system dep).trace (.start dep db) ls) d.deliveryId := by
  have hs := (system_sound (fun d hd => migrate0002_immutable hdb hd) h).rows d hd hmut
  refine ⟨fun he => (hs.emitted he).oks_pos, fun he i hi => ?_, hs.count.backed⟩
  exact (hs.deadLettered he).errs_ge hpol hi

/-- Five failures, the policy's limit, dead-letter the row. -/
def fiveFailures : List Label :=
  acceptOne ++ [0, 2000000, 4000000, 6000000, 8000000].flatMap fun now =>
    claimAndCall 0 now ⟨0⟩ ++ answerAndMark 0 now ⟨0⟩ (.error (.downstream "503")) ++
      [.worker 0 (.refreshGauges now true true now false)]

theorem no_premature_dead_letter_after_five :
    ∃ s, (system sampleDep).exec (.start sampleDep .empty) fiveFailures = some s ∧
      ∃ d ∈ s.db.deliveries.rows, d.state = .deadLettered ∧
        (5 : Int) ≤ errs ((system sampleDep).trace (.start sampleDep .empty) fiveFailures)
          d.deliveryId := by
  refine ⟨_, rfl, _, List.mem_cons_self, rfl, ?_⟩
  exact (no_premature_dead_letter (fun _ _ _ => rfl) (migrate0002_empty fun _ => ⟨0⟩)
    (show (system sampleDep).exec (.start sampleDep .empty) fiveFailures = some _ from rfl)
    List.mem_cons_self rfl).2.1 rfl 0 rfl

end Hookbox
