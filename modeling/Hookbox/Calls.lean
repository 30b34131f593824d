/-
# Emit calls

An emit call is known by the claim under which it was made and by its row.  Nothing in the database
says so: that a row is not sent twice under one claim, and that a call is answered at most once, lies
in the phases of the futures and in the number of the claim.

* `WorkerStep.run_calls`: what a step does to the rows that a worker has still to send, and to those
  that it has sent.
* `system_callsOnce`: on every run every call is made once, and every answer is to a call that has
  none yet.
-/
import Hookbox.System

namespace Hookbox

/-! ## 1. One step -/

/-- The emit calls of a history. -/
def Event.call? : Event → Option (ClaimId × DeliveryId)
  | emitCalled c id _ => some (c, id)
  | _ => none

/-- The answers to emit calls. -/
def Event.answer? : Event → Option (ClaimId × DeliveryId × Bool)
  | emitReturned c id _ result => some (c, id, result.isOk)
  | _ => none

/-- A row that the worker has claimed and not sent. -/
def WorkerPhase.Uncalled : WorkerPhase → DeliveryId → Prop
  | loading todo done, id =>
    (∃ d ∈ todo, d.deliveryId = id) ∨ ∃ p ∈ done, p.1.deliveryId = id
  | dispatching batch, id => ∃ x ∈ batch, x.delivery.deliveryId = id ∧ x.phase = .ready
  | _, _ => False

/-- A row that the worker has sent, and waits for the answer. -/
def WorkerPhase.Calling : WorkerPhase → DeliveryId → Prop
  | dispatching batch, id => ∃ x ∈ batch, x.delivery.deliveryId = id ∧ x.phase = .emitting
  | _, _ => False

theorem uncalled_afterLoad {todo : List WebhookDelivery}
    {done : List (WebhookDelivery × WebhookReceipt)} {id : DeliveryId}
    (h : (afterLoad todo done).Uncalled id) :
    (∃ d ∈ todo, d.deliveryId = id) ∨ ∃ p ∈ done, p.1.deliveryId = id := by
  unfold afterLoad at h
  split at h
  · split at h
    · exact h.elim
    · obtain ⟨x, hx, hid, -⟩ := h
      obtain ⟨p, hp, rfl⟩ := List.mem_map.mp hx
      exact .inr ⟨p, hp, hid⟩
  · exact h

theorem not_calling_afterLoad {todo : List WebhookDelivery}
    {done : List (WebhookDelivery × WebhookReceipt)} {id : DeliveryId} :
    ¬ (afterLoad todo done).Calling id := by
  unfold afterLoad
  split
  · split
    · exact fun h => h
    · rintro ⟨x, hx, -, hphase⟩
      obtain ⟨p, hp, rfl⟩ := List.mem_map.mp hx
      cases hphase
  · exact fun h => h

/-- **What a worker step does to the calls.** -/
inductive WorkerStep.Calls (i : WorkerId) (w : WorkerState) (o : WorkerOutcome) : Prop where
  | called (id : DeliveryId) (event : NormalizedEvent)
      (hevents : o.events = [.emitCalled ⟨i, w.claims⟩ id event]) (hid : w.phase.Uncalled id)
      (hclaims : o.next.claims = w.claims)
      (huncalled : ∀ x, o.next.phase.Uncalled x → w.phase.Uncalled x ∧ x ≠ id)
      (hcalling : ∀ x, o.next.phase.Calling x → w.phase.Calling x ∨ x = id)
  | answered (id : DeliveryId) (event : NormalizedEvent) (result : Except EmitError Unit)
      (hevents : o.events = [.emitReturned ⟨i, w.claims⟩ id event result])
      (hid : w.phase.Calling id) (hclaims : o.next.claims = w.claims)
      (huncalled : ∀ x, o.next.phase.Uncalled x → w.phase.Uncalled x)
      (hcalling : ∀ x, o.next.phase.Calling x → w.phase.Calling x ∧ x ≠ id)
  | none (hevents : ∀ ev ∈ o.events, ev.call? = none ∧ ev.answer? = none)
      (hclaims : o.next.claims = w.claims)
      (huncalled : ∀ x, o.next.phase.Uncalled x → w.phase.Uncalled x)
      (hcalling : ∀ x, o.next.phase.Calling x → w.phase.Calling x)
  | claimed (hevents : ∀ ev ∈ o.events, ev.call? = none ∧ ev.answer? = none)
      (hclaims : o.next.claims = w.claims + 1) (hcalling : ∀ x, ¬ o.next.phase.Calling x)

section Calls

variable {cfg : WorkerConfig} {i : WorkerId} {db : Database} {w : WorkerState} {o : WorkerOutcome}

/-- A future after one was advanced. -/
theorem exists_advance {id x : DeliveryId} {p q : DispatchPhase} {batch : List Dispatch}
    (h : ∃ y ∈ advance id p batch, y.delivery.deliveryId = x ∧ y.phase = q) :
    (x = id ∧ q = p) ∨ (x ≠ id ∧ ∃ y ∈ batch, y.delivery.deliveryId = x ∧ y.phase = q) := by
  obtain ⟨y, hy, rfl, rfl⟩ := h
  obtain ⟨z, hz, rfl⟩ := List.mem_map.mp hy
  by_cases hid : z.delivery.deliveryId = id
  · rw [if_pos hid]
    exact .inl ⟨hid, rfl⟩
  · rw [if_neg hid]
    exact .inr ⟨hid, z, hz, rfl, rfl⟩

theorem WorkerStep.run_calls {step : WorkerStep} (h : step.run cfg i db w = some o) :
    Calls i w o := by
  cases step with
  | callEmit id =>
    obtain ⟨batch, d, receipt, hphase, hf, rfl⟩ := run_callEmit h
    obtain ⟨hmem, rfl⟩ := future_eq_some hf
    refine .called d.deliveryId _ rfl ?_ rfl (fun x hx => ?_) fun x hx => ?_
    · rw [hphase]
      exact ⟨_, hmem, rfl, rfl⟩
    · rw [hphase]
      rcases exists_advance hx with ⟨-, hq⟩ | ⟨hne, hy⟩
      · cases hq
      · exact ⟨hy, hne⟩
    · rw [hphase]
      rcases exists_advance hx with ⟨hid, -⟩ | ⟨-, hy⟩
      · exact .inr hid
      · exact .inl hy
  | emitReturned id result =>
    obtain ⟨batch, d, receipt, hphase, hf, rfl⟩ := run_emitReturned h
    obtain ⟨hmem, rfl⟩ := future_eq_some hf
    refine .answered d.deliveryId _ result rfl ?_ rfl (fun x hx => ?_) fun x hx => ?_
    · rw [hphase]
      exact ⟨_, hmem, rfl, rfl⟩
    · rw [hphase]
      rcases exists_advance hx with ⟨-, hq⟩ | ⟨-, hy⟩
      · cases hq
      · exact hy
    · rw [hphase]
      rcases exists_advance hx with ⟨-, hq⟩ | ⟨hne, hy⟩
      · cases hq
      · exact ⟨hy, hne⟩
  | mark id input outcome =>
    obtain ⟨batch, d, receipt, result, hphase, hf, next, hnext, hclaims, -, hcases⟩ := run_mark h
    have hrest : ∀ {x q}, (∃ y ∈ batch.filter fun y => y.delivery.deliveryId ≠ id,
        y.delivery.deliveryId = x ∧ y.phase = q) →
        ∃ y ∈ batch, y.delivery.deliveryId = x ∧ y.phase = q :=
      fun ⟨y, hy, hx⟩ => ⟨y, (List.mem_filter.mp hy).1, hx⟩
    have huncalled : ∀ x, next.phase.Uncalled x → w.phase.Uncalled x := by
      intro x hx
      rw [hnext, afterMark] at hx
      rw [hphase]
      split at hx
      · exact hx.elim
      · exact hrest hx
    have hcalling : ∀ x, next.phase.Calling x → w.phase.Calling x := by
      intro x hx
      rw [hnext, afterMark] at hx
      rw [hphase]
      split at hx
      · exact hx.elim
      · exact hrest hx
    rcases hcases with ⟨-, rfl⟩ | ⟨-, rfl⟩
    · exact .none (by simp) hclaims huncalled hcalling
    · exact .none (by simp [Event.call?, Event.answer?]) hclaims huncalled hcalling
  | loadReceipt =>
    obtain ⟨d, todo, done, hphase, ⟨p, hload, rfl⟩ | ⟨e, -, rfl⟩⟩ := run_loadReceipt h
    · refine .none (by simp) rfl (fun x hx => ?_) fun x hx => absurd hx not_calling_afterLoad
      rw [hphase]
      rcases uncalled_afterLoad hx with ⟨d', hd', hid⟩ | ⟨q, hq, hid⟩
      · exact .inl ⟨d', List.mem_cons_of_mem _ hd', hid⟩
      · rcases List.mem_append.mp hq with hq | hq
        · exact .inr ⟨q, hq, hid⟩
        · obtain rfl := List.mem_singleton.mp hq
          exact .inl ⟨d, List.mem_cons_self, by rw [← loadClaimed_fst hload]; exact hid⟩
    · exact .none (by simp) rfl (fun x hx => hx.elim) fun x hx => hx.elim
  | claimPending now locked picked =>
    obtain ⟨-, -, rfl⟩ := run_claimPending h
    exact .claimed (by simp [Event.call?, Event.answer?]) rfl fun x => not_calling_afterLoad
  | claimLost now locked picked =>
    simp only [run] at h
    split at h
    · split at h
      · cases h
        exact .claimed (by simp [Event.call?, Event.answer?]) rfl fun x hx => hx
      · cases h
    · cases h
  | reclaimExpired now =>
    simp only [run] at h
    split at h
    · cases h
      refine .none (fun ev hev => ?_) rfl (fun x hx => hx.elim) fun x hx => hx.elim
      obtain ⟨d, -, rfl⟩ := List.mem_map.mp hev
      exact ⟨rfl, rfl⟩
    · cases h
  | refreshGauges now dlqOk pendingOk utcNow stop =>
    simp only [run] at h
    split at h
    · cases h
      refine .none (by simp) rfl (fun x hx => ?_) fun x hx => ?_
      all_goals
        dsimp only at hx
        split at hx <;> exact hx.elim
    · cases h
  | crash =>
    cases h
    exact .none (by simp) rfl (fun x hx => hx.elim) fun x hx => hx.elim
  | _ =>
    simp only [run] at h
    split at h
    · cases h
      exact .none (by simp) rfl (fun x hx => hx.elim) fun x hx => hx.elim
    · cases h

theorem WorkerStep.Calls.uncalled {i : WorkerId} {w : WorkerState} {o : WorkerOutcome}
    (hstep : WorkerStep.Calls i w o) {c : ClaimId} {id : DeliveryId} {event : NormalizedEvent}
    (hevents : o.events = [.emitCalled c id event]) : w.phase.Uncalled id := by
  cases hstep with
  | called id' event' hevents' hid =>
    rw [hevents] at hevents'
    cases hevents'
    exact hid
  | answered id' event' result hevents' =>
    rw [hevents] at hevents'
    cases hevents'
  | none hnone | claimed hnone => exact absurd (hnone (.emitCalled c id event) (by simp [hevents])).1 nofun

theorem WorkerStep.Calls.calling {i : WorkerId} {w : WorkerState} {o : WorkerOutcome}
    (hstep : WorkerStep.Calls i w o) {c : ClaimId} {id : DeliveryId} {event : NormalizedEvent}
    {result : Except EmitError Unit} (hevents : o.events = [.emitReturned c id event result]) :
    w.phase.Calling id := by
  cases hstep with
  | called id' event' hevents' =>
    rw [hevents] at hevents'
    cases hevents'
  | answered id' event' result' hevents' hid =>
    rw [hevents] at hevents'
    cases hevents'
    exact hid
  | none hnone | claimed hnone =>
    exact absurd (hnone (.emitReturned c id event result) (by simp [hevents])).2 nofun

end Calls

/-! ## 2. Every run -/

/-- Every answer is to a call. -/
def Asked (h : List Event) : Prop :=
  ∀ a ∈ h.filterMap Event.answer?, (a.1, a.2.1) ∈ h.filterMap Event.call?

/-- **Worker `i` makes every call once, and takes one answer to it.** -/
structure WorkerState.CallsOnce (h : List Event) (i : WorkerId) (w : WorkerState) : Prop where
  number : ∀ p ∈ h.filterMap Event.call?, p.1.worker = i → p.1.number ≤ w.claims
  uncalled : ∀ id, w.phase.Uncalled id → (⟨i, w.claims⟩, id) ∉ h.filterMap Event.call?
  calling : ∀ id, w.phase.Calling id → (⟨i, w.claims⟩, id) ∈ h.filterMap Event.call? ∧
    ∀ b, (⟨i, w.claims⟩, id, b) ∉ h.filterMap Event.answer?

/-- **The invariant**, over history and state. -/
structure Sys.CallsOnce (h : List Event) (s : Sys) : Prop where
  asked : Asked h
  workers : ∀ i, (s.workers i).CallsOnce h i

section CallsOnce

variable {h es : List Event} {i j : WorkerId} {w : WorkerState} {o : WorkerOutcome}

/-- What others call and answer does not matter. -/
theorem WorkerState.CallsOnce.frame (hw : w.CallsOnce h j)
    (hcall : ∀ p ∈ es.filterMap Event.call?, p.1.worker ≠ j)
    (hanswer : ∀ a ∈ es.filterMap Event.answer?, a.1.worker ≠ j) : w.CallsOnce (h ++ es) j := by
  constructor <;> simp only [List.filterMap_append]
  · intro p hp hworker
    rcases List.mem_append.mp hp with hp | hp
    · exact hw.number p hp hworker
    · exact absurd hworker (hcall p hp)
  · intro id hid hmem
    rcases List.mem_append.mp hmem with hmem | hmem
    · exact hw.uncalled id hid hmem
    · exact hcall _ hmem rfl
  · intro id hid
    obtain ⟨hmem, hno⟩ := hw.calling id hid
    refine ⟨List.mem_append_left _ hmem, fun b hb => ?_⟩
    rcases List.mem_append.mp hb with hb | hb
    · exact hno b hb
    · exact hanswer _ hb rfl

theorem filterMap_call_nil (hevents : ∀ ev ∈ es, ev.call? = none ∧ ev.answer? = none) :
    es.filterMap Event.call? = [] ∧ es.filterMap Event.answer? = [] :=
  ⟨List.filterMap_eq_nil_iff.mpr fun ev hev => (hevents ev hev).1,
    List.filterMap_eq_nil_iff.mpr fun ev hev => (hevents ev hev).2⟩

/-- **A step of the worker itself.** -/
theorem WorkerState.CallsOnce.step (hw : w.CallsOnce h i) (hasked : Asked h)
    (hstep : WorkerStep.Calls i w o) :
    o.next.CallsOnce (h ++ o.events) i ∧ Asked (h ++ o.events) := by
  cases hstep with
  | called id event hevents hid hclaims huncalled hcalling =>
    have hcall : o.events.filterMap Event.call? = [(⟨i, w.claims⟩, id)] := by rw [hevents]; rfl
    have hanswer : o.events.filterMap Event.answer? = [] := by rw [hevents]; rfl
    refine ⟨?_, ?_⟩
    · constructor <;>
        simp only [List.filterMap_append, hcall, hanswer, List.append_nil, hclaims]
      · intro p hp hworker
        rcases List.mem_append.mp hp with hp | hp
        · exact hw.number p hp hworker
        · rw [List.mem_singleton.mp hp]
      · intro x hx hmem
        obtain ⟨hx, hne⟩ := huncalled x hx
        rcases List.mem_append.mp hmem with hmem | hmem
        · exact hw.uncalled x hx hmem
        · exact hne (congrArg Prod.snd (List.mem_singleton.mp hmem))
      · intro x hx
        rcases hcalling x hx with hx | rfl
        · obtain ⟨hmem, hno⟩ := hw.calling x hx
          exact ⟨List.mem_append_left _ hmem, hno⟩
        · -- An answer to the new call would have been an answer to nothing.
          exact ⟨List.mem_append_right _ (List.mem_singleton.mpr rfl),
            fun b hb => hw.uncalled x hid (hasked _ hb)⟩
    · simp only [Asked, List.filterMap_append, hcall, hanswer, List.append_nil]
      exact fun a ha => List.mem_append_left _ (hasked a ha)
  | answered id event result hevents hid hclaims huncalled hcalling =>
    have hcall : o.events.filterMap Event.call? = [] := by rw [hevents]; rfl
    have hanswer : o.events.filterMap Event.answer? = [(⟨i, w.claims⟩, id, result.isOk)] := by
      rw [hevents]; rfl
    refine ⟨?_, ?_⟩
    · constructor <;>
        simp only [List.filterMap_append, hcall, hanswer, List.append_nil, hclaims]
      · exact hw.number
      · exact fun x hx => hw.uncalled x (huncalled x hx)
      · intro x hx
        obtain ⟨hx, hne⟩ := hcalling x hx
        obtain ⟨hmem, hno⟩ := hw.calling x hx
        refine ⟨hmem, fun b hb => ?_⟩
        rcases List.mem_append.mp hb with hb | hb
        · exact hno b hb
        · exact hne (congrArg (fun a => a.2.1) (List.mem_singleton.mp hb))
    · simp only [Asked, List.filterMap_append, hcall, hanswer, List.append_nil]
      intro a ha
      rcases List.mem_append.mp ha with ha | ha
      · exact hasked a ha
      · obtain rfl := List.mem_singleton.mp ha
        exact (hw.calling id hid).1
  | none hevents hclaims huncalled hcalling =>
    obtain ⟨hcall, hanswer⟩ := filterMap_call_nil hevents
    refine ⟨?_, ?_⟩
    · constructor <;>
        simp only [List.filterMap_append, hcall, hanswer, List.append_nil, hclaims]
      · exact hw.number
      · exact fun x hx => hw.uncalled x (huncalled x hx)
      · exact fun x hx => hw.calling x (hcalling x hx)
    · simp only [Asked, List.filterMap_append, hcall, hanswer, List.append_nil]
      exact hasked
  | claimed hevents hclaims hcalling =>
    obtain ⟨hcall, hanswer⟩ := filterMap_call_nil hevents
    refine ⟨?_, ?_⟩
    · constructor <;>
        simp only [List.filterMap_append, hcall, hanswer, List.append_nil, hclaims]
      · exact fun p hp hworker => Nat.le_succ_of_le (hw.number p hp hworker)
      · -- The claim is a new one.
        exact fun x _ hmem => absurd (hw.number _ hmem rfl) (by simp)
      · exact fun x hx => absurd hx (hcalling x)
    · simp only [Asked, List.filterMap_append, hcall, hanswer, List.append_nil]
      exact hasked

/-- The calls and answers of a step are the worker's own. -/
theorem WorkerStep.Calls.own (hstep : WorkerStep.Calls i w o) (hj : j ≠ i) :
    (∀ p ∈ o.events.filterMap Event.call?, p.1.worker ≠ j) ∧
      ∀ a ∈ o.events.filterMap Event.answer?, a.1.worker ≠ j := by
  cases hstep with
  | called id event hevents =>
    rw [hevents]
    simpa [Event.call?, Event.answer?] using Ne.symm hj
  | answered id event result hevents =>
    rw [hevents]
    simpa [Event.call?, Event.answer?] using Ne.symm hj
  | none hevents => simp [filterMap_call_nil hevents]
  | claimed hevents => simp [filterMap_call_nil hevents]

theorem Sys.CallsOnce.worker {s : Sys} (hs : s.CallsOnce h)
    (hstep : WorkerStep.Calls i (s.workers i) o) :
    (s.afterWorker i o).CallsOnce (h ++ o.events) := by
  obtain ⟨hself, hasked⟩ := (hs.workers i).step hs.asked hstep
  refine ⟨hasked, fun j => ?_⟩
  by_cases hj : j = i
  · subst hj
    rw [Sys.afterWorker_self]
    exact hself
  · rw [Sys.afterWorker_of_ne s hj]
    obtain ⟨hcall, hanswer⟩ := hstep.own hj
    exact (hs.workers j).frame hcall hanswer

/-- What ingests and operators do is no call and no answer. -/
theorem filterMap_calls_of_callOf (hes : ∀ ev ∈ es, (Event.callOf ev).isSome) :
    ∀ ev ∈ es, ev.call? = none ∧ ev.answer? = none := by
  intro ev hev
  have hcall := hes ev hev
  cases ev <;> simp_all [Event.callOf, Event.call?, Event.answer?]

theorem Sys.CallsOnce.environment {s s' : Sys} (hs : s.CallsOnce h)
    (hworkers : s'.workers = s.workers) (hes : ∀ ev ∈ es, (Event.callOf ev).isSome) :
    s'.CallsOnce (h ++ es) := by
  obtain ⟨hcall, hanswer⟩ := filterMap_call_nil (filterMap_calls_of_callOf hes)
  refine ⟨?_, fun j => ?_⟩
  · simp only [Asked, List.filterMap_append, hcall, hanswer, List.append_nil]
    exact hs.asked
  · rw [hworkers]
    exact (hs.workers j).frame (by simp [hcall]) (by simp [hanswer])

end CallsOnce

/-- The invariant holds on every run. -/
theorem system_callsOnce {dep : Deployment} {db : Database} {ls : List Label} {s : Sys}
    (h : (system dep).exec (.start dep db) ls = some s) :
    s.CallsOnce ((system dep).trace (.start dep db) ls) := by
  refine Lts.exec_induction (I := fun h s => s.CallsOnce h) ?_ ?_ h
  · refine ⟨by simp [Asked], fun i => ⟨by simp, fun id hid => ?_, fun id hid => ?_⟩⟩ <;>
      exact hid.elim
  · intro h s l s' hs hstep
    cases l with
    | worker i step =>
      obtain ⟨o, ho, rfl⟩ := Option.map_eq_some_iff.mp hstep
      have hobs : (system dep).obs s (.worker i step) = o.events := by simp [system, Label.obs, ho]
      rw [hobs]
      exact hs.worker (WorkerStep.run_calls ho)
    | ingest call step =>
      obtain ⟨o, heff, rfl, hobs⟩ := system_ingest hstep
      rw [hobs]
      exact hs.environment rfl fun ev hev => by rw [heff.callOf ev hev]; rfl
    | admin a =>
      obtain ⟨db', -, rfl, hobs⟩ := system_admin hstep
      rw [hobs]
      exact hs.environment rfl (by simp)

end Hookbox
