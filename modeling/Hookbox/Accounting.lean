/-
# Attempt accounting

`attempt_count` is meant to be the number of failed dispatches of a row whose outcome was
recorded.  Two things break this: `mark_dead_lettered` does not write the count, and `mark_failed`
writes an absolute value computed from a snapshot that a stale dispatch may have taken long ago.

* `attempt_accounting_iff`: on every run, the accounting is exact after every step if and only if
  every failure mark that takes effect stays below `max_attempts` and comes from a dispatch whose
  snapshot still shows the row's count.
* `attempt_accounting_violated`: with `max_attempts = 1` the first failure already goes uncounted.
-/
import Hookbox.Attempts

namespace Hookbox

open Event (failuresTaken)

/-! ## 1. The property and its condition -/

/-- No row changes its count. -/
def CountsUnchanged (s s' : Sys) : Prop :=
  ∀ d ∈ s.db.deliveries.rows, ∀ d' ∈ s'.db.deliveries.rows, d'.deliveryId = d.deliveryId →
    d'.attemptCount = d.attemptCount

/-- **Accounting after one step.**  No count has decreased; the count of every mutable row is the
number of failure marks that took effect on it; `reclaim_expired` and `mark_emitted` have changed
no count; and a row dead-lettered by its `max_attempts`-th failure shows `max_attempts`. -/
def Accounted (dep : Deployment) (h : List Event) (s : Sys) (l : Label) : Prop :=
  ∀ s', (system dep).step s l = some s' →
    (∀ d ∈ s.db.deliveries.rows, ∀ d' ∈ s'.db.deliveries.rows, d'.deliveryId = d.deliveryId →
      d.attemptCount ≤ d'.attemptCount) ∧
    (∀ d' ∈ s'.db.deliveries.rows, d'.immutable = false →
      d'.attemptCount.toInt = failuresTaken (h ++ (system dep).obs s l) d'.deliveryId) ∧
    (∀ i now, l = .worker i (.reclaimExpired now) → CountsUnchanged s s') ∧
    (∀ c id now took, .marked c id (.emitted now) took ∈ (system dep).obs s l →
      CountsUnchanged s s') ∧
    (∀ d' ∈ s'.db.deliveries.rows, d'.immutable = false → d'.state = .deadLettered →
      ∀ i, (dep.workers i).name = d'.emitterName →
        failuresTaken (h ++ (system dep).obs s l) d'.deliveryId
          = (dep.workers i).policy.maxAttempts.toInt →
        d'.attemptCount = (dep.workers i).policy.maxAttempts)

/-- When a dispatch whose emit failed marks a row in flight, its snapshot shows the row's current
count, and one more is still below `max_attempts`. -/
def CountsFresh (dep : Deployment) (_h : List Event) (s : Sys) (l : Label) : Prop :=
  ∀ c id m took x e, .marked c id m took ∈ (system dep).obs s l →
    (s.workers c.worker).dispatchOf id = some x → x.phase = .marking (.error e) →
    ∀ d ∈ s.db.deliveries.rows, d.deliveryId = id → d.state = .inFlight →
      x.delivery.attemptCount = d.attemptCount ∧
        x.delivery.attemptCount + 1 < (dep.workers c.worker).policy.maxAttempts

/-! ## 2. What a step does to the counts -/

/-- `mark_failed` and `mark_dead_lettered`. -/
def DeliveryUpdate.Mark.isFailure : DeliveryUpdate.Mark → Bool
  | .emitted _ => false
  | _ => true

/-- A failure mark counts once, for its own row, when it took effect. -/
theorem failuresTaken_mark (c : ClaimId) (id id' : DeliveryId) (m : DeliveryUpdate.Mark)
    (took : Bool) :
    failuresTaken [.marked c id' m took] id
      = if id' = id ∧ took = true ∧ m.isFailure = true then 1 else 0 := by
  cases m <;> cases took <;>
    simp [failuresTaken, Event.isFailureTaken, DeliveryUpdate.Mark.isFailure, List.countP_cons]

/-- A failure mark that takes effect on row `d` and turns it into `d'`. -/
def FailureTaken (dep : Deployment) (s : Sys) (es : List Event) (d d' : WebhookDelivery) : Prop :=
  d.state = .inFlight ∧ ∃ i x receipt e input took,
    ⟨x, some receipt, some (.error e)⟩ ∈ (s.workers i).outstanding ∧
    (s.workers i).dispatchOf d.deliveryId = some ⟨x, receipt, .marking (.error e)⟩ ∧
    .marked ⟨i, (s.workers i).claims⟩ d.deliveryId (dispatchMark (dep.workers i) x (.error e) input)
      took ∈ es ∧
    d' = (dispatchMark (dep.workers i) x (.error e) input).set d

/-- **A step leaves a row's count alone, or it is a failure mark on that row.** -/
theorem WorkerStep.Effect.count_cases {dep : Deployment} {s : Sys} {i : WorkerId}
    {o : WorkerOutcome} (heff : WorkerStep.Effect (dep.workers i) i s.db (s.workers i) o)
    {d : WebhookDelivery} (hd : d ∈ s.db.deliveries.rows) :
    ((o.update.run d).attemptCount = d.attemptCount ∧ failuresTaken o.events d.deliveryId = 0) ∨
      (failuresTaken o.events d.deliveryId = 1 ∧ FailureTaken dep s o.events d (o.update.run d)) := by
  cases heff with
  | quiet w' hclaims hout => exact Or.inl ⟨rfl, rfl⟩
  | load w' d' receipt hclaims hd' hload hout => exact Or.inl ⟨rfl, rfl⟩
  | reclaim w' now hclaims hout =>
    refine Or.inl ⟨?_, ?_⟩
    · rcases DeliveryUpdate.reclaimExpired_cases (dep.workers i).name
        (dep.workers i).leaseDuration now d with ⟨-, heq⟩ | ⟨-, heq⟩
      · rw [heq]
      · rw [heq]
    · rw [failuresTaken, List.countP_eq_zero]
      intro ev hev
      obtain ⟨d', -, rfl⟩ := List.mem_map.mp hev
      simp [Event.isFailureTaken]
  | claim w' now locked picked hclaims hselect hout =>
    refine Or.inl ⟨?_, ?_⟩
    · rcases hselect.claim_cases hd with ⟨-, heq⟩ | ⟨-, -, heq⟩
      · rw [heq]
      · rw [heq]
    · rw [failuresTaken, List.countP_eq_zero]
      intro ev hev
      obtain ⟨id, -, rfl⟩ := List.mem_map.mp hev
      simp [Event.isFailureTaken]
  | call w' d' receipt hclaims hd' hout => exact Or.inl ⟨rfl, rfl⟩
  | returned w' d' receipt result hclaims hd' hout => exact Or.inl ⟨rfl, rfl⟩
  | mark w' x receipt result input hclaims hx hout hfuture =>
    simp only [failuresTaken_mark]
    rcases DeliveryUpdate.mark_cases x.deliveryId
      (dispatchMark (dep.workers i) x result input) d with ⟨hno, heq⟩ | ⟨hid, hst, heq⟩
    · refine Or.inl ⟨by rw [heq], if_neg ?_⟩
      rintro ⟨hid, htook, -⟩
      rw [hid, Database.inFlight_of_mem hd, decide_eq_true_eq] at htook
      exact hno ⟨hid.symm, htook⟩
    · cases result with
      | ok u =>
        refine Or.inl ⟨by rw [heq]; rfl, if_neg ?_⟩
        rintro ⟨-, -, hfail⟩
        exact absurd hfail (by simp [dispatchMark, DeliveryUpdate.Mark.isFailure])
      | error e =>
        have htook : s.db.inFlight x.deliveryId = true := by
          rw [← hid, Database.inFlight_of_mem hd, decide_eq_true_eq]
          exact hst
        have hfail : (dispatchMark (dep.workers i) x (.error e) input).isFailure = true := by
          simp only [dispatchMark]
          split <;> rfl
        have hfut : (s.workers i).dispatchOf d.deliveryId
            = some ⟨x, receipt, .marking (.error e)⟩ := by
          rw [hid]
          exact hfuture
        refine Or.inr ⟨if_pos ⟨hid.symm, htook, hfail⟩, hst, i, x, receipt, e, input,
          s.db.inFlight x.deliveryId, hx, hfut, ?_, heq⟩
        rw [hid]
        exact List.mem_singleton.mpr rfl

theorem Sys.Effect.count_cases {dep : Deployment} {s s' : Sys} {es : List Event}
    (heff : Sys.Effect dep s s' es) {d' : WebhookDelivery} (hd' : d' ∈ s'.db.deliveries.rows) :
    (d'.deliveryId ∉ s.db.deliveries.keys ∧ d'.attemptCount = 0 ∧
        failuresTaken es d'.deliveryId = 0) ∨
      ∃ d ∈ s.db.deliveries.rows, d.deliveryId = d'.deliveryId ∧ d.immutable = d'.immutable ∧
        ((d'.attemptCount = d.attemptCount ∧ failuresTaken es d.deliveryId = 0) ∨
          (failuresTaken es d.deliveryId = 1 ∧ FailureTaken dep s es d d')) := by
  cases heff with
  | worker i o heff =>
    obtain ⟨d, hd, rfl⟩ := List.mem_map.mp hd'
    exact Or.inr ⟨d, hd, (DeliveryUpdate.run_deliveryId _ d).symm,
      (DeliveryUpdate.run_immutable _ d).symm, heff.count_cases hd⟩
  | environment s' es hworkers hdb hes =>
    have hzero := Event.failuresTaken_of_calls d'.deliveryId hes
    obtain ⟨receiptId, now, names, draw, hrows⟩ := hdb.deliveries
    have hpk := s'.db.deliveries.pk
    rw [hrows] at hd' hpk
    rcases List.mem_append.mp hd' with hd | hnew
    · exact Or.inr ⟨d', hd, rfl, rfl, Or.inl ⟨rfl, hzero⟩⟩
    · refine Or.inl ⟨?_, ?_, hzero⟩
      · rw [List.map_append, List.nodup_append] at hpk
        intro hmem
        exact hpk.2.2 _ hmem _ (List.mem_map_of_mem hnew) rfl
      · obtain ⟨k, name, -, rfl⟩ := Database.mem_newDeliveries hnew
        rfl

/-! ## 3. Exact counts -/

/-- The counts are exact, and nothing was counted for a row that does not exist. -/
structure Sys.Counted (h : List Event) (s : Sys) : Prop where
  exact : ∀ d ∈ s.db.deliveries.rows, d.immutable = false →
    d.attemptCount.toInt = failuresTaken h d.deliveryId
  existing : ∀ id, id ∉ s.db.deliveries.keys → failuresTaken h id = 0

/-- A step keeps the keys, and counts nothing for a row that does not exist. -/
theorem Sys.Effect.existing {dep : Deployment} {s s' : Sys} {es : List Event}
    (heff : Sys.Effect dep s s' es) {id : DeliveryId} (hid : id ∉ s'.db.deliveries.keys) :
    id ∉ s.db.deliveries.keys ∧ failuresTaken es id = 0 := by
  cases heff with
  | environment s' es hworkers hdb hes =>
    obtain ⟨receiptId, now, names, draw, hrows⟩ := hdb.deliveries
    refine ⟨fun hmem => hid ?_, Event.failuresTaken_of_calls id hes⟩
    rw [Table.keys, hrows, List.map_append]
    exact List.mem_append_left _ hmem
  | worker i o heff =>
    have hid' : id ∉ s.db.deliveries.keys := by
      intro hmem
      refine hid ?_
      rw [Sys.afterWorker, Database.updateDeliveries_keys]
      exact hmem
    refine ⟨hid', ?_⟩
    rw [failuresTaken, List.countP_eq_zero]
    intro ev hev htaken
    -- A failure mark that took effect found its row.
    have hsome : ∃ c m, ev = .marked c id m true := by
      unfold Event.isFailureTaken at htaken
      split at htaken
      · exact ⟨_, _, by rw [of_decide_eq_true htaken]⟩
      · exact ⟨_, _, by rw [of_decide_eq_true htaken]⟩
      · exact absurd htaken (by simp)
    obtain ⟨c, m, rfl⟩ := hsome
    obtain ⟨-, -, htook, -, -⟩ := (Sys.Effect.worker i o heff).marked hev
    obtain ⟨d, hd, hdid, -⟩ := Database.inFlight_iff.mp htook.symm
    exact hid' (hdid ▸ Table.key_mem_keys hd)

section Step

variable {dep : Deployment} {h : List Event} {s s' : Sys} {l : Label}

/-- What a fresh failure mark writes: one more than the row has. -/
theorem FailureTaken.fresh (hs : s.Sound dep h) (hfresh : CountsFresh dep h s l)
    {d d' : WebhookDelivery} (hd : d ∈ s.db.deliveries.rows)
    (ht : FailureTaken dep s ((system dep).obs s l) d d') :
    d'.attemptCount.toInt = d.attemptCount.toInt + 1 ∧ d'.state = .failed := by
  obtain ⟨hst, i, x, receipt, e, input, took, hx, hfut, hev, rfl⟩ := ht
  obtain ⟨hsame, hlt⟩ := hfresh _ _ _ _ _ e hev hfut rfl d hd rfl hst
  simp only at hsame hlt
  have hcount := (hs.outs i _ hx).count
  have hmax : ¬ x.attemptCount + 1 ≥ (dep.workers i).policy.maxAttempts := Int32.not_le.mpr hlt
  have hm : dispatchMark (dep.workers i) x (.error e) input
      = .failed (x.attemptCount + 1) (input.utcNow + input.nextDelta) e.toString := by
    simp [dispatchMark, hmax]
  rw [hm]
  refine ⟨?_, rfl⟩
  show (x.attemptCount + 1).toInt = d.attemptCount.toInt + 1
  rw [toInt_add_one hcount.nonneg hcount.small, hsame]

/-- **A step that meets the condition keeps the counts exact.** -/
theorem Sys.Counted.step (hs : s.Sound dep h) (hc : s.Counted h)
    (hfresh : CountsFresh dep h s l) (hstep : (system dep).step s l = some s') :
    s'.Counted (h ++ (system dep).obs s l) := by
  have heff := system_step_cases hstep
  constructor
  · intro d' hd' hmut
    rw [Event.failuresTaken_append]
    rcases heff.count_cases hd' with ⟨hnew, hzero, hnone⟩ | ⟨d, hd, hid, hi, hcase⟩
    · have hstart : (0 : Int32).toInt = 0 := rfl
      rw [hzero, hc.existing _ hnew, hnone, hstart]
      rfl
    · have hold := hc.exact d hd (hi.trans hmut)
      rw [← hid]
      rcases hcase with ⟨hsame, hnone⟩ | ⟨hone, ht⟩
      · rw [hsame, hold, hnone]
        rfl
      · rw [(ht.fresh hs hfresh hd).1, hold, hone]
        rfl
  · intro id hid
    obtain ⟨hid', hnone⟩ := heff.existing hid
    rw [Event.failuresTaken_append, hc.existing id hid', hnone]

/-- Rows of the old and the new state with the same id are the ones `count_cases` relates. -/
theorem Sys.Effect.count_of_mem {es : List Event} (heff : Sys.Effect dep s s' es)
    {d d' : WebhookDelivery} (hd : d ∈ s.db.deliveries.rows) (hd' : d' ∈ s'.db.deliveries.rows)
    (hid : d'.deliveryId = d.deliveryId) :
    d'.attemptCount = d.attemptCount ∨ FailureTaken dep s es d d' := by
  rcases heff.count_cases hd' with ⟨hnew, -⟩ | ⟨d₀, hd₀, hid₀, -, hcase⟩
  · exact absurd (hid ▸ Table.key_mem_keys hd) hnew
  · obtain rfl := Table.eq_of_key_eq hd₀ hd (hid₀.trans hid)
    rcases hcase with ⟨hsame, -⟩ | ⟨-, ht⟩
    · exact Or.inl hsame
    · exact Or.inr ht

/-- A step without a failure mark changes no count. -/
theorem Sys.Effect.countsUnchanged {es : List Event} (heff : Sys.Effect dep s s' es)
    (hno : ∀ c id m took, .marked c id m took ∈ es → m.isFailure = false) :
    CountsUnchanged s s' := by
  intro d hd d' hd' hid
  rcases heff.count_of_mem hd hd' hid with hsame | ⟨-, i, x, receipt, e, input, took, -, -, hev, -⟩
  · exact hsame
  · have := hno _ _ _ _ hev
    simp only [dispatchMark] at this
    split at this <;> exact absurd this (by simp [DeliveryUpdate.Mark.isFailure])

/-- `reclaim_expired` issues no mark. -/
theorem reclaim_no_mark {i : WorkerId} {now : Timestamp} {c : ClaimId} {id : DeliveryId}
    {m : DeliveryUpdate.Mark} {took : Bool} :
    .marked c id m took ∉ (system dep).obs s (.worker i (.reclaimExpired now)) := by
  intro hm
  simp only [system, Label.obs, Sys.workerRun, WorkerStep.run] at hm
  split at hm
  · simp [Database.reclaimEvents] at hm
  · simp at hm

/-- A step issues at most one mark. -/
theorem one_mark {c c' : ClaimId} {id id' : DeliveryId} {m m' : DeliveryUpdate.Mark}
    {took took' : Bool} (hm : .marked c id m took ∈ (system dep).obs s l)
    (hm' : .marked c' id' m' took' ∈ (system dep).obs s l) : m = m' := by
  obtain ⟨s', hstep⟩ := system_enabled hm
  have heff := system_step_cases hstep
  generalize (system dep).obs s l = es at hm hm' heff
  cases heff with
  | environment s' es hworkers hdb hes => exact absurd (hes _ hm) (by simp [Event.callOf])
  | worker i o heff =>
    rw [(heff.of_marked hm).1, List.mem_singleton, Event.marked.injEq] at hm'
    exact hm'.2.2.1.symm

/-! ## 4. Accounting -/

/-- **A step that meets the condition accounts for its failures.** -/
theorem accounted_of_fresh (hs : s.Sound dep h) (hc : s.Counted h)
    (hfresh : CountsFresh dep h s l) : Accounted dep h s l := by
  intro s' hstep
  have heff := system_step_cases hstep
  have hc' := hc.step hs hfresh hstep
  refine ⟨?_, hc'.exact, ?_, ?_, ?_⟩
  · intro d hd d' hd' hid
    rw [Int32.le_iff_toInt_le]
    rcases heff.count_of_mem hd hd' hid with hsame | ht
    · rw [hsame]
    · have hone := (ht.fresh hs hfresh hd).1
      omega
  · rintro i now rfl
    exact heff.countsUnchanged fun c id m took hm => absurd hm reclaim_no_mark
  · intro c id now took hm
    refine heff.countsUnchanged fun c' id' m' took' hm' => ?_
    rw [← one_mark hm hm']
    rfl
  · intro d' hd' hmut _ i _ hmax
    rw [← Int32.toInt_inj, hc'.exact d' hd' hmut, hmax]

/-- A failure mark that took effect is counted. -/
theorem failuresTaken_pos {es : List Event} {c : ClaimId} {id : DeliveryId}
    {m : DeliveryUpdate.Mark} (hm : .marked c id m true ∈ es) (hfail : m.isFailure = true) :
    0 < failuresTaken es id := by
  refine List.countP_pos_iff.mpr ⟨_, hm, ?_⟩
  cases m with
  | emitted now => exact absurd hfail (by simp [DeliveryUpdate.Mark.isFailure])
  | failed count next error => simp [Event.isFailureTaken]
  | deadLettered error => simp [Event.isFailureTaken]

/-- **A step that accounts for its failures meets the condition**, when the counts were exact
before it: a dead letter leaves the count behind, and a stale snapshot writes another number. -/
theorem fresh_of_accounted (hs : s.Sound dep h)
    (hexact : ∀ d ∈ s.db.deliveries.rows, d.immutable = false →
      d.attemptCount.toInt = failuresTaken h d.deliveryId)
    (hacc : Accounted dep h s l) : CountsFresh dep h s l := by
  intro c id m took x e hm hx hphase d hd hid hst
  subst hid
  obtain ⟨s', hstep⟩ := system_enabled hm
  have heff := system_step_cases hstep
  obtain ⟨i, rfl, rfl, ⟨d₀, receipt, result, input, hout, hid₀, rfl, hfut⟩, hdb⟩ := heff.marked hm
  rw [hx, Option.some.injEq] at hfut
  subst hfut
  obtain rfl : result = .error e := by simpa using hphase
  have hsnap := hs.outs i _ hout
  have hmut : d.immutable = false := by
    rw [← hsnap.mutable]
    exact congrArg (·.immutable) (hsnap.identity_eq hd hid₀.symm)
  have htook : s.db.inFlight d.deliveryId = true := by
    rw [Database.inFlight_of_mem hd, hst]
    rfl
  -- The row after the step, and how far it is counted.
  set m := dispatchMark (dep.workers i) d₀ (.error e) input with hmdef
  have hfail : m.isFailure = true := by
    simp only [hmdef, dispatchMark]
    split <;> rfl
  have hd' : m.set d ∈ s'.db.deliveries.rows := by
    rw [hdb]
    refine List.mem_map.mpr ⟨d, hd, ?_⟩
    rw [DeliveryUpdate.mark_run, if_pos ⟨rfl, hst⟩]
  have hmid : (m.set d).deliveryId = d.deliveryId := by cases m <;> rfl
  have hmmut : (m.set d).immutable = false := by cases m <;> exact hmut
  have hone : failuresTaken ((system dep).obs s l) d.deliveryId = 1 := by
    rw [htook] at hm
    have hpos := failuresTaken_pos hm hfail
    rcases heff.count_cases hd' with ⟨hnew, -⟩ | ⟨d₁, -, hid₁, -, ⟨-, hnone⟩ | ⟨hone, -⟩⟩
    · exact absurd (hmid ▸ Table.key_mem_keys hd) hnew
    · rw [hid₁, hmid] at hnone
      omega
    · rw [← hone, hid₁, hmid]
  have hafter := (hacc s' hstep).2.1 _ hd' hmmut
  rw [hmid, Event.failuresTaken_append, hone] at hafter
  have hbefore := hexact d hd hmut
  by_cases hmax : d₀.attemptCount + 1 ≥ (dep.workers i).policy.maxAttempts
  · have hdead : m = .deadLettered e.toString := by simp [hmdef, dispatchMark, hmax]
    rw [hdead] at hafter
    simp only [DeliveryUpdate.Mark.set] at hafter
    omega
  · have hfailed : m = .failed (d₀.attemptCount + 1) (input.utcNow + input.nextDelta)
        e.toString := by simp [hmdef, dispatchMark, hmax]
    rw [hfailed] at hafter
    simp only [DeliveryUpdate.Mark.set] at hafter
    have hsucc : (d₀.attemptCount + 1).toInt = d₀.attemptCount.toInt + 1 :=
      toInt_add_one hsnap.count.nonneg hsnap.count.small
    rw [hsucc] at hafter
    refine ⟨?_, Int32.not_le.mp hmax⟩
    rw [← Int32.toInt_inj]
    show d₀.attemptCount.toInt = d.attemptCount.toInt
    omega

end Step

/-- **Attempt accounting.**  On every run from a migrated database: the accounting is right after
every step if and only if every failure mark that takes effect stays below `max_attempts` and comes
from a dispatch whose snapshot shows the row's current count. -/
theorem attempt_accounting_iff (dep : Deployment) {pre : Receipts} {draw : Nat → DeliveryId}
    {db : Database} (hdb : migrate0002 pre draw = some db) (ls : List Label) :
    (system dep).EveryStep (Accounted dep) (.start dep db) ls ↔
      (system dep).EveryStep (CountsFresh dep) (.start dep db) ls := by
  have himm : ∀ d ∈ db.deliveries.rows, d.immutable = true :=
    fun d hd => migrate0002_immutable hdb hd
  constructor
  · intro hacc before l after s hls hs
    refine fresh_of_accounted (system_sound himm hs) ?_ (hacc before l after s hls hs)
    -- The counts were exact after the step before, or this is the first step.
    rcases List.eq_nil_or_concat before with rfl | ⟨before', l', rfl⟩
    · intro d hd hmut
      rw [Lts.exec_nil, Option.some.injEq] at hs
      subst hs
      rw [himm d hd] at hmut
      exact absurd hmut (by simp)
    · rw [List.concat_eq_append] at hs hls ⊢
      obtain ⟨t, ht, hstep⟩ := Lts.exec_snoc.mp hs
      rw [Lts.trace_snoc ht hstep]
      refine (hacc before' l' (l :: after) t ?_ ht s hstep).2.1
      rw [hls, List.append_assoc, List.singleton_append]
  · intro hfresh before l after s hls hs
    refine accounted_of_fresh (system_sound himm hs) ?_ (hfresh before l after s hls hs)
    have hnil : (system dep).exec (.start dep db) [] = some (.start dep db) := rfl
    refine (Lts.exec_induction_of_everyStep (C := CountsFresh dep)
      (I := fun h s => s.Sound dep h ∧ s.Counted h) ⟨system_sound himm hnil, ?_, ?_⟩ ?_ ?_ hs).2
    · intro d hd hmut
      rw [himm d hd] at hmut
      exact absurd hmut (by simp)
    · intro id _
      rfl
    · rintro h t l t' ⟨hsound, hcounted⟩ hC hstep
      exact ⟨(system_step_cases hstep).sound hsound, hcounted.step hsound hC hstep⟩
    · intro pre' l' post t hpre ht
      refine hfresh pre' l' (post ++ l :: after) t ?_ ht
      rw [hls, hpre, List.append_assoc, List.cons_append]

/-- One failed dispatch, recorded by the worker that holds the row. -/
def oneFailure : List Label :=
  acceptOne ++ claimAndCall 0 0 ⟨0⟩ ++ answerAndMark 0 1000000 ⟨0⟩ (.error (.downstream "503"))

theorem attempt_accounting_one_failure :
    ∃ s, (system sampleDep).exec (.start sampleDep .empty) oneFailure = some s ∧
      ((system sampleDep).EveryStep (Accounted sampleDep) (.start sampleDep .empty) oneFailure ↔
        (system sampleDep).EveryStep (CountsFresh sampleDep) (.start sampleDep .empty)
          oneFailure) :=
  ⟨_, rfl, attempt_accounting_iff sampleDep (migrate0002_empty fun _ => ⟨0⟩) oneFailure⟩

/-- The small deployment with `max_attempts = 1`. -/
def singleAttempt : Deployment :=
  { sampleDep with
    workers := fun _ =>
      { name := "kafka", policy := ⟨1⟩, concurrency := 1, leaseDuration := 30000000 } }

/-- The one failure that is allowed dead-letters the row, whose count stays at zero. -/
theorem attempt_accounting_violated :
    ¬ (system singleAttempt).EveryStep (Accounted singleAttempt) (.start singleAttempt .empty)
      oneFailure := by
  intro h
  have hacc := h (acceptOne ++ claimAndCall 0 0 ⟨0⟩ ++
    [.worker 0 (.emitReturned ⟨0⟩ (.error (.downstream "503")))]) _ [] _ rfl rfl _ rfl
  have hcount := hacc.2.1 _ List.mem_cons_self rfl
  exact absurd hcount (by decide)

end Hookbox
