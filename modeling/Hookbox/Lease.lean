/-
# Leases and fencing

A `mark_*` asks only whether the row is in flight, not whose claim put it there.  So a dispatch
that has lost its claim to `reclaim_expired` still marks the row if a later claim has put it in
flight again, and the later dispatch then finds the row taken out of its hands.

* `lease_fencing_iff`: on every run, stale marks leave rows alone and the holder's mark takes
  effect if and only if no stale mark is issued while the row is in flight.
* `lease_fencing_violated`: a run of two workers where the success of the holder is dropped.

The invariant (`Sys.LeaseInv`): an outstanding dispatch has lost its claim, or its claim is the
row's latest and the row is in flight.
-/
import Hookbox.System

namespace Hookbox

open Event (claimFate lastClaim)

/-! ## 1. The property and its condition -/

/-- **Fencing of one step.**  A mark by a dispatch whose claim was reclaimed leaves the row as it
was; a mark by the dispatch with the row's latest, not yet reclaimed claim takes effect. -/
def Fenced (dep : Deployment) (h : List Event) (s : Sys) (l : Label) : Prop :=
  ∀ (s' : Sys) (c : ClaimId) (id : DeliveryId) (m : DeliveryUpdate.Mark) (took : Bool),
    (system dep).step s l = some s' → .marked c id m took ∈ (system dep).obs s l →
    (claimFate h c id = .lost → s'.db.deliveries.get? id = s.db.deliveries.get? id) ∧
      (lastClaim h id = some c → claimFate h c id = .held →
        ∃ d, s.db.deliveries.get? id = some d ∧ d.state = .inFlight ∧
          s'.db.deliveries.get? id = some (m.set d))

/-- No dispatch whose claim was reclaimed issues its mark while the row is in flight again. -/
def NoStaleMark (dep : Deployment) (h : List Event) (s : Sys) (l : Label) : Prop :=
  ∀ (c : ClaimId) (id : DeliveryId) (m : DeliveryUpdate.Mark) (took : Bool),
    .marked c id m took ∈ (system dep).obs s l → claimFate h c id = .lost →
    s.db.inFlight id = false

/-! ## 2. Rows in flight -/

/-- A row in flight stays in flight under an update that leaves it alone. -/
theorem Database.inFlight_updateDeliveries {db : Database} {u : DeliveryUpdate} {id : DeliveryId}
    (h : db.inFlight id = true)
    (hu : ∀ d ∈ db.deliveries.rows, d.deliveryId = id → d.state = .inFlight → u.run d = d) :
    (db.updateDeliveries u).inFlight id = true := by
  obtain ⟨d, hd, hid, hst⟩ := inFlight_iff.mp h
  refine inFlight_iff.mpr ⟨u.run d, List.mem_map_of_mem hd, ?_, ?_⟩
  · rw [u.run_deliveryId, hid]
  · rw [hu d hd hid hst, hst]

theorem Database.Grows.inFlight {db db' : Database} (h : db.Grows db') {id : DeliveryId}
    (hf : db.inFlight id = true) : db'.inFlight id = true := by
  obtain ⟨d, hd, hid, hst⟩ := inFlight_iff.mp hf
  obtain ⟨receiptId, now, names, draw, hrows⟩ := h.deliveries
  exact inFlight_iff.mpr ⟨d, by rw [hrows]; exact List.mem_append_left _ hd, hid, hst⟩

/-- What a mark does to its row, seen through the table. -/
theorem Database.get?_mark (db : Database) (id : DeliveryId) (m : DeliveryUpdate.Mark) :
    (db.updateDeliveries (.mark id m)).deliveries.get? id
      = (db.deliveries.get? id).map fun d => if d.state = .inFlight then m.set d else d := by
  rw [get?_updateDeliveries]
  cases hd : db.deliveries.get? id with
  | none => rfl
  | some d =>
    have hid : d.deliveryId = id := Table.key_of_get? hd
    simp only [Option.map_some, DeliveryUpdate.mark_run, hid, true_and]

/-! ## 3. The invariant -/

/-- Claim `c` on row `id` was lost to a reclaim, or it is the latest and the row is in flight. -/
def LeaseOk (h : List Event) (db : Database) (c : ClaimId) (id : DeliveryId) : Prop :=
  (lastClaim h id = some c ∧ claimFate h c id = .held ∧ db.inFlight id = true) ∨
    claimFate h c id = .lost

/-- Every outstanding row is in order. -/
def Sys.LeaseInv (h : List Event) (s : Sys) : Prop :=
  ∀ i, ∀ x ∈ (s.workers i).outstanding,
    LeaseOk h s.db ⟨i, (s.workers i).claims⟩ x.delivery.deliveryId

section

variable {h es : List Event} {db db' : Database} {c : ClaimId} {id : DeliveryId}

/-- Steps that touch no claim and leave the row in flight. -/
theorem LeaseOk.untouched (hok : LeaseOk h db c id) (hes : ∀ ev ∈ es, Event.touches id ev = false)
    (hf : db.inFlight id = true → db'.inFlight id = true) : LeaseOk (h ++ es) db' c id := by
  rcases hok with ⟨hl, hc, hfl⟩ | hlost
  · refine Or.inl ⟨?_, ?_, hf hfl⟩
    · rw [Event.lastClaim_append_of_untouched hes, hl]
    · rw [Event.claimFate_append_of_untouched hes, hc]
  · exact Or.inr (by rw [Event.claimFate_append_of_untouched hes, hlost])

/-- A reclaim takes the claim away, or leaves the row alone. -/
theorem LeaseOk.reclaim (hok : LeaseOk h db c id) (e : String) (lease : Duration)
    (now : Timestamp) :
    LeaseOk (h ++ db.reclaimEvents e lease now)
      (db.updateDeliveries (.reclaimExpired e lease now)) c id := by
  have hes : db.reclaimEvents e lease now
      = ((db.deliveries.rows.filter fun d => DeliveryUpdate.Expired e lease now d).map
          (·.deliveryId)).map Event.reclaimed := by
    rw [List.map_map]
    rfl
  set ids := (db.deliveries.rows.filter fun d => DeliveryUpdate.Expired e lease now d).map
    (·.deliveryId) with hids
  rcases hok with ⟨hl, hc, hfl⟩ | hlost
  · by_cases hmem : id ∈ ids
    · exact Or.inr (by rw [hes, Event.claimFate_append_reclaims, if_pos ⟨hmem, hc⟩])
    · have huntouched : ∀ ev ∈ db.reclaimEvents e lease now, Event.touches id ev = false := by
        rw [hes]
        intro ev hev
        obtain ⟨id', hid', rfl⟩ := List.mem_map.mp hev
        simp only [Event.touches, decide_eq_false_iff_not]
        rintro rfl
        exact hmem hid'
      refine LeaseOk.untouched (Or.inl ⟨hl, hc, hfl⟩) huntouched fun hf => ?_
      refine Database.inFlight_updateDeliveries hf fun d hd hid _ => ?_
      rcases DeliveryUpdate.reclaimExpired_cases e lease now d with ⟨-, heq⟩ | ⟨hex, -⟩
      · exact heq
      · refine absurd ?_ hmem
        rw [hids]
        exact List.mem_map.mpr ⟨d, List.mem_filter.mpr ⟨hd, by simpa using hex⟩, hid⟩
  · exact Or.inr (by rw [hes, Event.claimFate_append_reclaims, hlost]; simp)

/-- A claim by another dispatch cannot pick a row that is in flight. -/
theorem LeaseOk.claim_other (hok : LeaseOk h db c id) {e : String} {n : Nat} {now : Timestamp}
    {locked picked : List DeliveryId} (hselect : db.ClaimSelect e n now locked picked)
    {c' : ClaimId} (hne : c' ≠ c) :
    LeaseOk (h ++ picked.map (.claimed c')) (db.updateDeliveries (.claim picked now)) c id := by
  rcases hok with ⟨hl, hc, hfl⟩ | hlost
  · obtain ⟨d, hd, hid, hst⟩ := Database.inFlight_iff.mp hfl
    have hnot : id ∉ picked := by
      intro hp
      have hel := hselect.eligible hd (hid ▸ hp)
      rcases hel.2.1 with h' | h'
      · rw [hst] at h'; exact absurd h' (by simp)
      · rw [hst] at h'; exact absurd h' (by simp)
    have huntouched : ∀ ev ∈ picked.map (Event.claimed c'), Event.touches id ev = false := by
      intro ev hev
      obtain ⟨id', hid', rfl⟩ := List.mem_map.mp hev
      simp only [Event.touches, decide_eq_false_iff_not]
      rintro rfl
      exact hnot hid'
    refine LeaseOk.untouched (Or.inl ⟨hl, hc, hfl⟩) huntouched fun hf => ?_
    refine Database.inFlight_updateDeliveries hf fun d' _ hid' _ => ?_
    rw [Database.claim_run, if_neg (hid' ▸ hnot)]
  · exact Or.inr (by rw [Event.claimFate_append_claims hne, hlost])

/-- The rows of a new claim are in flight under it. -/
theorem leaseOk_claim_self {now : Timestamp} {picked : List DeliveryId} (hid : id ∈ picked)
    (hkey : ∃ d ∈ db.deliveries.rows, d.deliveryId = id) :
    LeaseOk (h ++ picked.map (.claimed c)) (db.updateDeliveries (.claim picked now)) c id := by
  obtain ⟨d, hd, hdid⟩ := hkey
  refine Or.inl ⟨Event.lastClaim_append_self hid, Event.claimFate_append_self hid, ?_⟩
  refine Database.inFlight_iff.mpr ⟨_, List.mem_map_of_mem hd, ?_, ?_⟩
  · rw [DeliveryUpdate.run_deliveryId, hdid]
  · rw [Database.claim_run, if_pos (hdid ▸ hid)]

/-- A mark that is not for this row, while the row is held, changes nothing. -/
theorem LeaseOk.mark (hok : LeaseOk h db c id) {c' : ClaimId} {id' : DeliveryId}
    {m : DeliveryUpdate.Mark} {took : Bool}
    (hid : lastClaim h id = some c → db.inFlight id = true → id' ≠ id) :
    LeaseOk (h ++ [.marked c' id' m took]) (db.updateDeliveries (.mark id' m)) c id := by
  have huntouched : ∀ ev ∈ [Event.marked c' id' m took], Event.touches id ev = false := by
    simp [Event.touches]
  rcases hok with ⟨hl, hc, hfl⟩ | hlost
  · refine LeaseOk.untouched (Or.inl ⟨hl, hc, hfl⟩) huntouched fun hf => ?_
    refine Database.inFlight_updateDeliveries hf fun d _ hdid _ => ?_
    rw [DeliveryUpdate.mark_run, if_neg]
    rintro ⟨heq, -⟩
    exact hid hl hf (heq.symm.trans hdid)
  · exact Or.inr (by rw [Event.claimFate_append_of_untouched huntouched, hlost])

/-- A step that runs no statement and touches no claim. -/
theorem LeaseOk.nop (hok : LeaseOk h db c id) (hes : ∀ ev ∈ es, Event.touches id ev = false) :
    LeaseOk (h ++ es) (db.updateDeliveries .nop) c id := by
  rw [updateDeliveries_nop]
  exact hok.untouched hes fun hf => hf

end

section

variable {dep : Deployment} {h : List Event} {s : Sys} {i : WorkerId} {o : WorkerOutcome}

/-- The rows of the worker that moves. -/
theorem WorkerStep.Effect.leaseOk_self {cfg : WorkerConfig} {db : Database} {w : WorkerState}
    (heff : WorkerStep.Effect cfg i db w o)
    (hinv : ∀ x ∈ w.outstanding, LeaseOk h db ⟨i, w.claims⟩ x.delivery.deliveryId)
    {x : Outstanding} (hx : x ∈ o.next.outstanding) :
    LeaseOk (h ++ o.events) (db.updateDeliveries o.update) ⟨i, o.next.claims⟩
      x.delivery.deliveryId := by
  cases heff with
  | quiet w' hclaims hout =>
    rw [hclaims]
    exact (hinv x (hout x hx)).nop (by simp)
  | load w' d receipt hclaims hd hload hout =>
    rw [hclaims]
    rcases hout x hx with hx | rfl
    · exact (hinv x hx).nop (by simp)
    · exact (hinv ⟨d, none, none⟩ hd).nop (by simp)
  | reclaim w' now hclaims hout =>
    rw [hout] at hx
    simp at hx
  | claim w' now locked picked hclaims hselect hout =>
    rw [hclaims]
    obtain ⟨d, hd, rfl⟩ := hout x hx
    obtain ⟨d₀, hd₀, hpick, rfl⟩ := Database.mem_claimedRows.mp hd
    exact leaseOk_claim_self hpick ⟨d₀, hd₀, rfl⟩
  | call w' d receipt hclaims hd hout =>
    rw [hclaims]
    obtain ⟨r, hr, -⟩ := hout x hx
    exact (hinv ⟨x.delivery, x.receipt, r⟩ hr).nop (by simp [Event.touches])
  | returned w' d receipt result hclaims hd hout =>
    rw [hclaims]
    rcases hout x hx with hx | ⟨-, -, r, hr⟩
    · exact (hinv x hx).nop (by simp [Event.touches])
    · exact (hinv ⟨x.delivery, x.receipt, r⟩ hr).nop (by simp [Event.touches])
  | mark w' d receipt result input hclaims hd hout =>
    rw [hclaims]
    obtain ⟨hx, hne⟩ := hout x hx
    exact (hinv x hx).mark fun _ _ heq => hne heq.symm

/-- The rows of the other workers.  Only a mark for the same row could hurt, and the claim it
belongs to is not the latest, so it was lost. -/
theorem WorkerStep.Effect.leaseOk_other {cfg : WorkerConfig} {db : Database} {w : WorkerState}
    (heff : WorkerStep.Effect cfg i db w o)
    (hinv : ∀ x ∈ w.outstanding, LeaseOk h db ⟨i, w.claims⟩ x.delivery.deliveryId)
    (hstale : ∀ c id m took, .marked c id m took ∈ o.events → claimFate h c id = .lost →
      db.inFlight id = false)
    {c : ClaimId} (hc : c.worker ≠ i) {id : DeliveryId} (hok : LeaseOk h db c id) :
    LeaseOk (h ++ o.events) (db.updateDeliveries o.update) c id := by
  cases heff with
  | quiet w' hclaims hout => exact hok.nop (by simp)
  | load w' d receipt hclaims hd hload hout => exact hok.nop (by simp)
  | reclaim w' now hclaims hout => exact hok.reclaim cfg.name cfg.leaseDuration now
  | claim w' now locked picked hclaims hselect hout =>
    refine hok.claim_other hselect ?_
    rintro rfl
    exact hc rfl
  | call w' d receipt hclaims hd hout => exact hok.nop (by simp [Event.touches])
  | returned w' d receipt result hclaims hd hout => exact hok.nop (by simp [Event.touches])
  | mark w' d receipt result input hclaims hd hout =>
    refine hok.mark fun hlast hfl heq => ?_
    rcases hinv _ hd with ⟨hlast', -, -⟩ | hlost
    · simp only [heq, hlast, Option.some.injEq] at hlast'
      exact hc (by rw [hlast'])
    · have := hstale _ _ _ _ (List.mem_singleton.mpr rfl) hlost
      simp only [heq, hfl] at this
      exact absurd this (by simp)

end

/-- **One step keeps the leases in order, unless it is a stale mark on a row in flight.** -/
theorem Sys.Effect.leaseInv {dep : Deployment} {h : List Event} {s s' : Sys} {es : List Event}
    (heff : Sys.Effect dep s s' es) (hinv : s.LeaseInv h)
    (hstale : ∀ c id m took, .marked c id m took ∈ es → claimFate h c id = .lost →
      s.db.inFlight id = false) : s'.LeaseInv (h ++ es) := by
  intro j x hx
  cases heff with
  | environment s' es hworkers hdb hes =>
    rw [hworkers] at hx ⊢
    exact (hinv j x hx).untouched (Event.untouched_of_calls hes) hdb.inFlight
  | worker i o heff =>
    rcases Sys.outstanding_afterWorker hx with ⟨rfl, hx'⟩ | ⟨hj, hx'⟩
    · have hw : (s.afterWorker j o).workers j = o.next := by simp [Sys.afterWorker]
      rw [hw]
      exact heff.leaseOk_self (hinv j) hx'
    · have hw : (s.afterWorker i o).workers j = s.workers j := by
        simp [Sys.afterWorker, Function.update_of_ne hj]
      rw [hw]
      exact heff.leaseOk_other (hinv i) hstale hj (hinv j x hx')

theorem leaseInv_start (dep : Deployment) (db : Database) : (Sys.start dep db).LeaseInv [] := by
  intro i x hx
  simp [Sys.start, WorkerState.outstanding, WorkerPhase.outstanding] at hx

/-! ## 4. Fencing -/

/-- In a state with its leases in order, a step is fenced exactly when it is no stale mark on a
row in flight. -/
theorem fenced_of_noStaleMark {dep : Deployment} {h : List Event} {s : Sys} {l : Label}
    (hinv : s.LeaseInv h) (hstale : NoStaleMark dep h s l) : Fenced dep h s l := by
  intro s' c id m took hstep hm
  obtain ⟨i, rfl, -, ⟨d, receipt, result, input, hd, rfl, -⟩, hdb⟩ :=
    (system_step_cases hstep).marked hm
  rw [hdb, Database.get?_mark]
  constructor
  · intro hlost
    have hfl := hstale _ _ _ _ hm hlost
    cases hget : s.db.deliveries.get? d.deliveryId with
    | none => rfl
    | some row =>
      have hst : ¬ row.state = .inFlight := by
        intro hst
        simp [Database.inFlight, hget, hst] at hfl
      rw [Option.map_some, if_neg hst]
  · intro _ hheld
    rcases hinv i _ hd with ⟨-, -, hfl⟩ | hlost
    · obtain ⟨row, hrow, hid, hst⟩ := Database.inFlight_iff.mp hfl
      have hget : s.db.deliveries.get? d.deliveryId = some row :=
        Table.get?_eq_some_iff.mpr ⟨hrow, hid⟩
      exact ⟨row, hget, hst, by rw [hget, Option.map_some, if_pos hst]⟩
    · simp only [hheld] at hlost
      exact absurd hlost (by simp)

/-- A fenced step is no stale mark on a row in flight: such a mark would change the row. -/
theorem noStaleMark_of_fenced {dep : Deployment} {h : List Event} {s : Sys} {l : Label}
    (hf : Fenced dep h s l) : NoStaleMark dep h s l := by
  intro c id m took hm hlost
  obtain ⟨s', hstep⟩ := system_enabled hm
  obtain ⟨-, -, -, -, hdb⟩ := (system_step_cases hstep).marked hm
  have hsame := (hf s' c id m took hstep hm).1 hlost
  rw [hdb, Database.get?_mark] at hsame
  by_contra hfl
  obtain ⟨row, hrow, hid, hst⟩ := Database.inFlight_iff.mp (by simpa using hfl)
  rw [Table.get?_eq_some_iff.mpr ⟨hrow, hid⟩, Option.map_some, if_pos hst,
    Option.some.injEq] at hsame
  exact m.set_state_ne row (by rw [hsame, hst])

/-- **Lease fencing.**  On every run: all steps are fenced if and only if no dispatch whose claim
was reclaimed issues its mark while the row is in flight again. -/
theorem lease_fencing_iff (dep : Deployment) (db : Database) (ls : List Label) :
    (system dep).EveryStep (Fenced dep) (.start dep db) ls ↔
      (system dep).EveryStep (NoStaleMark dep) (.start dep db) ls := by
  constructor
  · intro hf
    exact hf.mono fun h s l => noStaleMark_of_fenced
  · intro hstale before l after s hls hs
    refine fenced_of_noStaleMark ?_ (hstale before l after s hls hs)
    refine Lts.exec_induction_of_everyStep (C := NoStaleMark dep) (I := fun h s => s.LeaseInv h)
      (leaseInv_start dep db) ?_ ?_ hs
    · intro h t l t' hinv hC hstep
      exact (system_step_cases hstep).leaseInv hinv hC
    · intro pre l' post t hpre ht
      refine hstale pre l' (post ++ l :: after) t ?_ ht
      rw [hls, hpre, List.append_assoc, List.cons_append]

/-- Worker 0 is slow and loses its lease to worker 1.  Its answer comes while worker 1 holds the
row, and fails the row under worker 1's feet. -/
def staleFailure : List Label :=
  acceptOne ++ claimAndCall 0 0 ⟨0⟩ ++ claimAndCall 1 31000000 ⟨0⟩ ++
    answerAndMark 0 32000000 ⟨0⟩ (.error (.timeout "slow"))

/-- Worker 1, the holder of the row's latest claim, then reports a success that is dropped. -/
theorem lease_fencing_violated :
    ¬ (system sampleDep).EveryStep (Fenced sampleDep) (.start sampleDep .empty)
      (staleFailure ++ answerAndMark 1 33000000 ⟨0⟩ (.ok ())) := by
  intro h
  have hf := h (staleFailure ++ [.worker 1 (.emitReturned ⟨0⟩ (.ok ()))]) _ [] _ rfl rfl
  obtain ⟨d, hd, hst, -⟩ :=
    (hf _ ⟨1, 1⟩ ⟨0⟩ (.emitted 33000000) false rfl List.mem_cons_self).2 rfl rfl
  have hfailed : (some d).map (·.state) = some DeliveryState.failed := by
    rw [← hd]
    rfl
  simp [hst] at hfailed

end Hookbox
