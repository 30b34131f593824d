/-
# Metrics

What `ingest` and the workers tell Prometheus: the counters, and the histograms by the number of
their samples.  A run has the measurements of all its processes, before and after restarts.

* `IngestStep.Measured`: everything a step of a call can measure.
* `ingest_metrics_account`: the requests that were received are the results that were counted and
  the calls under way, and the results say how many receipts there are.
-/
import Hookbox.Attempts
import Hookbox.Lib.Census
import Hookbox.Lib.Ledger

namespace Hookbox

open Census (tally census members members_mono finite_update census_update census_none)

/-! ## 1. Measurements -/

/-- An increment of a counter, or a sample of a histogram. -/
structure Measurement where
  name : String
  labels : List (String × String)
  amount : Nat

/-- `dedupe_decision_label`. -/
def DedupeDecision.label : DedupeDecision → String
  | .new => "new"
  | .duplicate => "duplicate"
  | .conflict => "conflict"

/-- `verification_status_label`. -/
def VerificationStatus.label : VerificationStatus → String
  | .verified => "verified"
  | .failed => "failed"
  | .skipped => "skipped"

@[simp] theorem VerificationStatus.label_failed : VerificationStatus.failed.label = "failed" := rfl

@[simp] def labelAccepted : String := "accepted"
@[simp] def labelDuplicate : String := "duplicate"
@[simp] def labelVerificationFailed : String := "verification_failed"
@[simp] def labelStoreFailed : String := "store_failed"
@[simp] def labelDedupeFailed : String := "dedupe_failed"

/-- `INGEST_RESULT_LABELS`. -/
def ingestResultLabels : List String :=
  [labelAccepted, labelDuplicate, labelVerificationFailed, labelStoreFailed, labelDedupeFailed]

namespace Measurement

@[simp] def webhooksReceived (provider : String) : Measurement :=
  ⟨"hookbox_webhooks_received_total", [("provider", provider)], 1⟩

@[simp] def verificationResults (provider status reason : String) : Measurement :=
  ⟨"hookbox_verification_results_total",
    [("provider", provider), ("status", status), ("reason", reason)], 1⟩

@[simp] def ingestResults (provider result : String) : Measurement :=
  ⟨"hookbox_ingest_results_total", [("provider", provider), ("result", result)], 1⟩

@[simp] def dedupeChecks (provider result : String) : Measurement :=
  ⟨"hookbox_dedupe_checks_total", [("provider", provider), ("result", result)], 1⟩

@[simp] def ingestDuration : Measurement := ⟨"hookbox_ingest_duration_seconds", [], 1⟩

@[simp] def storeDuration : Measurement := ⟨"hookbox_store_duration_seconds", [], 1⟩

@[simp] def emitReclaimed (emitter : String) (n : Nat) : Measurement :=
  ⟨"hookbox_emit_reclaimed_total", [("emitter", emitter)], n⟩

@[simp] def emitDuration (emitter : String) : Measurement :=
  ⟨"hookbox_emit_duration_seconds", [("emitter", emitter)], 1⟩

@[simp] def emitResults (provider emitter result : String) : Measurement :=
  ⟨"hookbox_emit_results_total",
    [("provider", provider), ("emitter", emitter), ("result", result)], 1⟩

@[simp] def emitAttemptCount (emitter : String) : Measurement :=
  ⟨"hookbox_emit_attempt_count", [("emitter", emitter)], 1⟩

/-- Whether a measurement has a name and, among others, some labels. -/
def Selected (name : String) (selector : List (String × String)) (m : Measurement) : Prop :=
  m.name = name ∧ ∀ l ∈ selector, l ∈ m.labels

instance (name : String) (selector : List (String × String)) :
    DecidablePred (Selected name selector) := fun m =>
  inferInstanceAs (Decidable (m.name = name ∧ ∀ l ∈ selector, l ∈ m.labels))

/-- The query `sum(name{selector})`. -/
def sum (name : String) (selector : List (String × String)) (h : List Measurement) : Nat :=
  Lts.total (fun m => if m.Selected name selector then m.amount else 0) h

section Sum

variable (name : String) (selector : List (String × String))

@[simp] theorem sum_nil : sum name selector [] = 0 := rfl

@[simp] theorem sum_cons (m : Measurement) (h : List Measurement) :
    sum name selector (m :: h) = (if m.Selected name selector then m.amount else 0)
      + sum name selector h := by
  simp [sum, Lts.total]

variable {name} in
theorem sum_eq_zero {h : List Measurement} (hnames : ∀ m ∈ h, m.name ≠ name) :
    sum name selector h = 0 := by
  induction h with
  | nil => rfl
  | cons m h ih =>
    obtain ⟨hm, hh⟩ := List.forall_mem_cons.mp hnames
    rw [sum_cons, if_neg fun hsel => hm hsel.1, ih hh]

/-- Measurements of other names do not count. -/
theorem sum_eq_zero_of_names {names : List String} {h : List Measurement}
    (hnames : ∀ m ∈ h, m.name ∉ names) (name : String) (hname : name ∈ names)
    (selector : List (String × String)) : sum name selector h = 0 :=
  sum_eq_zero selector fun m hm heq => hnames m hm (heq ▸ hname)

theorem sum_append (h h' : List Measurement) :
    sum name selector (h ++ h') = sum name selector h + sum name selector h' :=
  Lts.total_append _ h h'

end Sum

end Measurement

open Measurement

/-! ## 2. What the steps measure -/

/-- What a step of a call of `ingest` measures, by the phases before and after it. -/
def IngestStep.measures (phase next : CallPhase) : IngestStep → List Measurement
  | .start req _ _ =>
    webhooksReceived req.provider ::
      match next with
      | .checking c =>
        [verificationResults req.provider c.verificationStatus.label
          (c.verificationReason.getD "none")]
      | .done (.ok (.verificationFailed reason)) =>
        [verificationResults req.provider VerificationStatus.failed.label reason,
          ingestResults req.provider labelVerificationFailed, ingestDuration]
      | _ => []
  | .checkFast | .checkStorage =>
    match next with
    | .storing c advisory => [dedupeChecks c.req.provider advisory.label]
    | _ => []
  | .checkFailed _ =>
    match phase with
    | .checkingStorage c => [ingestResults c.req.provider labelDedupeFailed, ingestDuration]
    | _ => []
  | .store .. =>
    match phase, next with
    | .storing c _, .done (.error _) =>
      [ingestResults c.req.provider labelStoreFailed, ingestDuration]
    | .storing _ _, .recording _ => [storeDuration]
    | _, _ => []
  | .fetchExisting =>
    match phase, next with
    | .fetching c, .done (.ok (.duplicate _)) =>
      [storeDuration, ingestResults c.req.provider labelDuplicate, ingestDuration]
    | .fetching c, .done (.error _) =>
      [ingestResults c.req.provider labelStoreFailed, ingestDuration]
    | _, _ => []
  | .fetchFailed _ =>
    match phase with
    | .fetching c => [ingestResults c.req.provider labelStoreFailed, ingestDuration]
    | _ => []
  | .record =>
    match phase with
    | .recording c => [ingestResults c.req.provider labelAccepted, ingestDuration]
    | _ => []

/-- What a step of a worker measures. -/
def WorkerStep.measures (cfg : WorkerConfig) (db : Database) (w : WorkerState) :
    WorkerStep → List Measurement
  | .reclaimExpired now =>
    let n := (db.reclaimEvents cfg.name cfg.leaseDuration now).length
    if n > 0 then [emitReclaimed cfg.name n] else []
  | .emitReturned id result =>
    match w.dispatchOf id with
    | some ⟨d, receipt, .emitting⟩ =>
      emitDuration cfg.name ::
        match result with
        | .ok () =>
          [emitResults receipt.providerName cfg.name "success", emitAttemptCount cfg.name]
        | .error _ =>
          emitResults receipt.providerName cfg.name "failure" ::
            if d.attemptCount + 1 ≥ cfg.policy.maxAttempts then [emitAttemptCount cfg.name] else []
    | _ => []
  | _ => []

/-- The system, observed by what it measures. -/
def metering (dep : Deployment) : Lts Sys Label Measurement where
  step := (system dep).step
  obs s l :=
    match l with
    | .worker i step => step.measures (dep.workers i) s.db (s.workers i)
    | .ingest call step =>
      ((s.ingestRun dep call step).map fun o => step.measures (s.calls call) o.next).getD []
    | .admin _ => []

/-- The number of receipts of a provider. -/
def Database.receiptsOf (db : Database) (p : String) : Nat :=
  db.receipts.rows.countP fun r => r.providerName = p

/-! ## 3. What a call can measure -/

/-- **Everything a step of a call can measure**, with the phases, the databases and the events. -/
inductive IngestStep.Measured (call : CallId) (phase : CallPhase) (db : Database) :
    CallPhase → Database → List Event → List Measurement → Prop where
  | turnedAway (req : Request) (utcNow : Timestamp) (reason : String) (hphase : phase = .idle) :
      Measured call phase db (.done (.ok (.verificationFailed reason))) db
        [.requested call req utcNow, .returned call (.ok (.verificationFailed reason))]
        [webhooksReceived req.provider,
          verificationResults req.provider VerificationStatus.failed.label reason,
          ingestResults req.provider labelVerificationFailed, ingestDuration]
  | started (c : IngestCall) (utcNow : Timestamp) (hphase : phase = .idle)
      (hstatus : c.verificationStatus ≠ .failed) :
      Measured call phase db (.checking c) db [.requested call c.req utcNow]
        [webhooksReceived c.req.provider, verificationResults c.req.provider
          c.verificationStatus.label (c.verificationReason.getD "none")]
  | missed (c : IngestCall) (hphase : phase = .checking c) :
      Measured call phase db (.checkingStorage c) db [] []
  | checked (c : IngestCall) (advisory : DedupeDecision)
      (hphase : phase = .checking c ∨ phase = .checkingStorage c) :
      Measured call phase db (.storing c advisory) db []
        [dedupeChecks c.req.provider advisory.label]
  | checkFailed (c : IngestCall) (e : DedupeError) (hphase : phase = .checkingStorage c) :
      Measured call phase db (.done (.error (.dedupe e))) db [.returned call (.error (.dedupe e))]
        [ingestResults c.req.provider labelDedupeFailed, ingestDuration]
  | stored (c : IngestCall) (advisory : DedupeDecision) (receipt : WebhookReceipt)
      (names : List String) (db' : Database) (hphase : phase = .storing c advisory)
      (hrows : ∀ p, db'.receiptsOf p = db.receiptsOf p + if c.req.provider = p then 1 else 0) :
      Measured call phase db (.recording c) db' [.stored call receipt names] [storeDuration]
  | conflict (c : IngestCall) (advisory : DedupeDecision) (hphase : phase = .storing c advisory) :
      Measured call phase db (.fetching c) db [] []
  | lost (c : IngestCall) (advisory : DedupeDecision) (receipt : WebhookReceipt)
      (names : List String) (e : StorageError) (db' : Database)
      (hphase : phase = .storing c advisory)
      (hrows : ∀ p, db'.receiptsOf p = db.receiptsOf p + if c.req.provider = p then 1 else 0) :
      Measured call phase db (.done (.error (.storage e))) db'
        [.stored call receipt names, .returned call (.error (.storage e))]
        [ingestResults c.req.provider labelStoreFailed, ingestDuration]
  | failed (c : IngestCall) (e : StorageError)
      (hphase : (∃ advisory, phase = .storing c advisory) ∨ phase = .fetching c) :
      Measured call phase db (.done (.error (.storage e))) db [.returned call (.error (.storage e))]
        [ingestResults c.req.provider labelStoreFailed, ingestDuration]
  | duplicate (c : IngestCall) (id : ReceiptId) (hphase : phase = .fetching c) :
      Measured call phase db (.done (.ok (.duplicate id))) db [.returned call (.ok (.duplicate id))]
        [storeDuration, ingestResults c.req.provider labelDuplicate, ingestDuration]
  | accepted (c : IngestCall) (hphase : phase = .recording c) :
      Measured call phase db (.done (.ok (.accepted c.receiptId))) db
        [.returned call (.ok (.accepted c.receiptId))]
        [ingestResults c.req.provider labelAccepted, ingestDuration]

section Measured

variable {lib : Libraries} {pipe : Pipeline} {call : CallId} {db : Database}
  {cache : InMemoryRecentDedupe} {phase : CallPhase} {step : IngestStep} {o : IngestOutcome}

/-- Who passes verification has not failed it. -/
theorem Pipeline.verify_ok_ne_failed {utcNow : Timestamp} {req : Request}
    {v : VerificationStatus × Option String} (h : pipe.verify utcNow req = .ok v) :
    v.1 ≠ .failed := by
  unfold verify at h
  split at h
  · simp only at h
    split at h
    · cases h
    · cases h
      nofun
    · cases h
      nofun
  · cases h
    nofun

/-- A commit adds one receipt, of the call's provider. -/
theorem Database.receiptsOf_store {c : IngestCall} {utcNow now : Timestamp} {names : List String}
    {draw : Nat → DeliveryId} {db' : Database}
    (h : db.storeWithDeliveries (c.receipt lib utcNow) names draw now = .ok (some db'))
    (p : String) :
    db'.receiptsOf p = db.receiptsOf p + if c.req.provider = p then 1 else 0 := by
  obtain ⟨-, -, hrows, -⟩ := storeWithDeliveries_spec h
  have hprovider : (c.receipt lib utcNow).toRow.providerName = c.req.provider := rfl
  rw [receiptsOf, hrows, List.countP_append, List.countP_singleton, hprovider]
  simp only [decide_eq_true_eq]
  rfl

theorem IngestStep.run_measured (h : step.run lib pipe call db cache phase = some o) :
    Measured call phase db o.next o.db o.events (step.measures phase o.next) := by
  cases step with
  | start req receiptId utcNow =>
    simp only [run] at h
    split at h
    · split at h
      · rename_i reason hverify
        cases h
        exact .turnedAway req utcNow reason rfl
      · rename_i status reason hverify
        cases h
        exact .started ⟨req, receiptId, status, reason⟩ utcNow rfl
          (Pipeline.verify_ok_ne_failed hverify)
    · cases h
  | checkFast =>
    simp only [run] at h
    split at h
    · rename_i c
      split at h
      · cases h
        exact .missed c rfl
      · rename_i advisory hne
        cases h
        exact .checked c _ (.inl rfl)
    · cases h
  | checkStorage =>
    simp only [run] at h
    split at h
    · rename_i c
      cases h
      exact .checked c _ (.inr rfl)
    · cases h
  | checkFailed msg =>
    simp only [run] at h
    split at h
    · rename_i c
      cases h
      exact .checkFailed c _ rfl
    · cases h
  | store utcNow now draw outcome msg =>
    simp only [run] at h
    split at h
    · rename_i c advisory
      split at h
      · cases h
        exact .failed c _ (.inl ⟨_, rfl⟩)
      · split at h
        · cases h
          exact .failed c _ (.inl ⟨_, rfl⟩)
        · split at h
          · cases h
            exact .conflict c advisory rfl
          · cases h
            exact .failed c _ (.inl ⟨_, rfl⟩)
        · rename_i db' hstore
          split at h
          · cases h
            exact .stored c advisory _ _ db' rfl (Database.receiptsOf_store hstore)
          · cases h
            exact .lost c advisory _ _ _ db' rfl (Database.receiptsOf_store hstore)
    · cases h
  | fetchExisting =>
    simp only [run] at h
    split at h
    · rename_i c
      split at h
      · rename_i row hrow
        cases h
        exact .duplicate c row.receiptId rfl
      · cases h
        exact .failed c _ (.inr rfl)
    · cases h
  | fetchFailed msg =>
    simp only [run] at h
    split at h
    · rename_i c
      cases h
      exact .failed c _ (.inr rfl)
    · cases h
  | record =>
    simp only [run] at h
    split at h
    · rename_i c
      cases h
      exact .accepted c rfl
    · cases h

end Measured

/-! ## 4. The accounts of one provider -/

section Provider

variable (p : String)

/-- A request of the provider was received and is not answered. -/
@[simp] def CallPhase.Underway : CallPhase → Prop
  | .idle | .done _ => False
  | .checking c | .checkingStorage c | .storing c _ | .fetching c | .recording c =>
    c.req.provider = p

/-- It is still to be checked for a duplicate. -/
@[simp] def CallPhase.Unchecked : CallPhase → Prop
  | .checking c | .checkingStorage c => c.req.provider = p
  | _ => False

/-- Its receipt is stored. -/
@[simp] def CallPhase.Recording : CallPhase → Prop
  | .recording c => c.req.provider = p
  | _ => False

/-- The results of the provider's requests that were counted under a label. -/
def resultsAs (result : String) (h : List Measurement) : Nat :=
  sum "hookbox_ingest_results_total" [("provider", p), ("result", result)] h

end Provider

theorem resultsAs_append (p r : String) (h h' : List Measurement) :
    resultsAs p r (h ++ h') = resultsAs p r h + resultsAs p r h' := sum_append _ _ h h'

/-- **What a step enters into the accounts of a provider**: `phase` and `db` before it, `next` and
`db'` after it, and what it measures. -/
structure IngestEntry (p : String) (phase next : CallPhase) (db db' : Database)
    (h : List Measurement) : Prop where
  received : sum "hookbox_webhooks_received_total" [("provider", p)] h
      + tally (phase.Underway p)
    = sum "hookbox_ingest_results_total" [("provider", p)] h + tally (next.Underway p)
  labels : sum "hookbox_ingest_results_total" [("provider", p)] h
    = (ingestResultLabels.map fun r => resultsAs p r h).sum
  verified : sum "hookbox_verification_results_total" [("provider", p)] h
    = sum "hookbox_webhooks_received_total" [("provider", p)] h
  turnedAway : sum "hookbox_verification_results_total" [("provider", p), ("status", "failed")] h
    = resultsAs p labelVerificationFailed h
  checked : sum "hookbox_dedupe_checks_total" [("provider", p)] h
      + resultsAs p labelVerificationFailed h + resultsAs p labelDedupeFailed h
      + tally (next.Unchecked p)
    = sum "hookbox_webhooks_received_total" [("provider", p)] h + tally (phase.Unchecked p)
  stored : db.receiptsOf p + resultsAs p labelAccepted h + tally (next.Recording p)
    ≤ db'.receiptsOf p + tally (phase.Recording p)
  lost : db'.receiptsOf p + tally (phase.Recording p)
    ≤ db.receiptsOf p + resultsAs p labelAccepted h + tally (next.Recording p)
      + resultsAs p labelStoreFailed h
  timed : sum "hookbox_ingest_duration_seconds" [] h = sum "hookbox_ingest_results_total" [] h

/-- The measurements that the accounts of requests are about. -/
def ingestMetrics : List String :=
  ["hookbox_webhooks_received_total", "hookbox_verification_results_total",
    "hookbox_ingest_results_total", "hookbox_dedupe_checks_total", "hookbox_ingest_duration_seconds"]

section Entries

variable {p : String} {phase next : CallPhase} {db db' : Database} {h : List Measurement}

/-- A step that does nothing to the requests of any provider. -/
theorem IngestEntry.still (hrows : db'.receiptsOf p = db.receiptsOf p)
    (hnames : ∀ m ∈ h, m.name ∉ ingestMetrics) : IngestEntry p phase phase db db' h := by
  have hzero := sum_eq_zero_of_names hnames
  have hreceived := hzero "hookbox_webhooks_received_total" (by decide)
  have hverified := hzero "hookbox_verification_results_total" (by decide)
  have hresults := hzero "hookbox_ingest_results_total" (by decide)
  have hchecked := hzero "hookbox_dedupe_checks_total" (by decide)
  have htimed := hzero "hookbox_ingest_duration_seconds" (by decide)
  constructor <;> simp [resultsAs, hreceived, hverified, hresults, hchecked, htimed, hrows]

end Entries

/-- **The entries of a call's steps.** -/
theorem IngestStep.Measured.entry {call : CallId} {phase next : CallPhase} {db db' : Database}
    {es : List Event} {h : List Measurement} (hstep : Measured call phase db next db' es h)
    (p : String) : IngestEntry p phase next db db' h := by
  cases hstep with
  | turnedAway req utcNow reason hphase =>
    subst hphase
    rcases eq_or_ne p req.provider with rfl | hp
    · constructor <;> simp [resultsAs, ingestResultLabels, Selected]
    · constructor <;> simp [resultsAs, ingestResultLabels, Selected, hp]
  | started c utcNow hphase hstatus =>
    subst hphase
    have hlabel : "failed" ≠ c.verificationStatus.label := by
      cases hst : c.verificationStatus with
      | failed => exact absurd hst hstatus
      | verified => decide
      | skipped => decide
    rcases eq_or_ne p c.req.provider with rfl | hp
    · constructor <;> simp [resultsAs, ingestResultLabels, Selected, hlabel]
    · constructor <;> simp [resultsAs, ingestResultLabels, Selected, hp, hp.symm]
  | missed c hphase =>
    subst hphase
    constructor <;> simp [resultsAs, ingestResultLabels]
  | checked c advisory hphase =>
    rcases eq_or_ne p c.req.provider with rfl | hp <;> rcases hphase with rfl | rfl
    · constructor <;> simp [resultsAs, ingestResultLabels, Selected]
    · constructor <;> simp [resultsAs, ingestResultLabels, Selected]
    · constructor <;> simp [resultsAs, ingestResultLabels, Selected, hp, hp.symm]
    · constructor <;> simp [resultsAs, ingestResultLabels, Selected, hp, hp.symm]
  | checkFailed c e hphase =>
    subst hphase
    rcases eq_or_ne p c.req.provider with rfl | hp
    · constructor <;> simp [resultsAs, ingestResultLabels, Selected]
    · constructor <;> simp [resultsAs, ingestResultLabels, Selected, hp, hp.symm]
  | stored c advisory receipt names _ hphase hrows =>
    subst hphase
    rcases eq_or_ne p c.req.provider with rfl | hp
    · constructor <;> simp [resultsAs, ingestResultLabels, Selected, hrows]
    · constructor <;> simp [resultsAs, ingestResultLabels, Selected, hrows, hp.symm]
  | conflict c advisory hphase =>
    subst hphase
    constructor <;> simp [resultsAs, ingestResultLabels]
  | lost c advisory receipt names e _ hphase hrows =>
    subst hphase
    rcases eq_or_ne p c.req.provider with rfl | hp
    · constructor <;> simp [resultsAs, ingestResultLabels, Selected, hrows]
    · constructor <;> simp [resultsAs, ingestResultLabels, Selected, hrows, hp, hp.symm]
  | failed c e hphase =>
    rcases eq_or_ne p c.req.provider with rfl | hp <;> rcases hphase with ⟨advisory, rfl⟩ | rfl
    · constructor <;> simp [resultsAs, ingestResultLabels, Selected]
    · constructor <;> simp [resultsAs, ingestResultLabels, Selected]
    · constructor <;> simp [resultsAs, ingestResultLabels, Selected, hp, hp.symm]
    · constructor <;> simp [resultsAs, ingestResultLabels, Selected, hp, hp.symm]
  | duplicate c id hphase =>
    subst hphase
    rcases eq_or_ne p c.req.provider with rfl | hp
    · constructor <;> simp [resultsAs, ingestResultLabels, Selected]
    · constructor <;> simp [resultsAs, ingestResultLabels, Selected, hp, hp.symm]
  | accepted c hphase =>
    subst hphase
    rcases eq_or_ne p c.req.provider with rfl | hp
    · constructor <;> simp [resultsAs, ingestResultLabels, Selected]
    · constructor <;> simp [resultsAs, ingestResultLabels, Selected, hp, hp.symm]

/-! ## 5. The accounts of a run -/

/-- **The accounts of a provider**, over what was measured and the state it led to. -/
structure IngestAccounts (p : String) (h : List Measurement) (s : Sys) : Prop where
  received : sum "hookbox_webhooks_received_total" [("provider", p)] h
    = sum "hookbox_ingest_results_total" [("provider", p)] h
      + census s.calls (CallPhase.Underway p)
  labels : sum "hookbox_ingest_results_total" [("provider", p)] h
    = (ingestResultLabels.map fun r => resultsAs p r h).sum
  verified : sum "hookbox_verification_results_total" [("provider", p)] h
    = sum "hookbox_webhooks_received_total" [("provider", p)] h
  turnedAway : sum "hookbox_verification_results_total" [("provider", p), ("status", "failed")] h
    = resultsAs p labelVerificationFailed h
  checked : sum "hookbox_webhooks_received_total" [("provider", p)] h
    = sum "hookbox_dedupe_checks_total" [("provider", p)] h
      + resultsAs p labelVerificationFailed h + resultsAs p labelDedupeFailed h
      + census s.calls (CallPhase.Unchecked p)
  stored : resultsAs p labelAccepted h + census s.calls (CallPhase.Recording p)
    ≤ s.db.receiptsOf p
  lost : s.db.receiptsOf p ≤ resultsAs p labelAccepted h
    + census s.calls (CallPhase.Recording p) + resultsAs p labelStoreFailed h
  timed : sum "hookbox_ingest_duration_seconds" [] h = sum "hookbox_ingest_results_total" [] h

/-- The phases of a call that its provider's accounts look at are those of a call under way. -/
theorem CallPhase.Unchecked.underway {p : String} {phase : CallPhase} (h : phase.Unchecked p) :
    phase.Underway p := by
  cases phase <;> first | exact h | exact h.elim

theorem CallPhase.Recording.underway {p : String} {phase : CallPhase} (h : phase.Recording p) :
    phase.Underway p := by
  cases phase <;> first | exact h | exact h.elim

/-- **An entry keeps the accounts.** -/
theorem IngestAccounts.step {p : String} {h h' : List Measurement} {s s' : Sys} {call : CallId}
    {next : CallPhase} (hs : IngestAccounts p h s)
    (hfin : (members s.calls (CallPhase.Underway p)).Finite)
    (hcalls : s'.calls = Function.update s.calls call next)
    (hentry : IngestEntry p (s.calls call) next s.db s'.db h') :
    IngestAccounts p (h ++ h') s' := by
  have hunder := census_update hfin (i := call) (a := next)
  have hchecking : members s.calls (CallPhase.Unchecked p)
      ⊆ members s.calls (CallPhase.Underway p) :=
    members_mono _ fun _ => CallPhase.Unchecked.underway
  have hunchecked := census_update (hfin.subset hchecking) (i := call) (a := next)
  have hstoring : members s.calls (CallPhase.Recording p)
      ⊆ members s.calls (CallPhase.Underway p) :=
    members_mono _ fun _ => CallPhase.Recording.underway
  have hrecording := census_update (hfin.subset hstoring) (i := call) (a := next)
  rw [← hcalls] at hunder hunchecked hrecording
  constructor
  case received =>
    have hold := hs.received
    have hnew := hentry.received
    simp only [sum_append]
    omega
  case labels =>
    simp only [sum_append, resultsAs_append, List.sum_map_add]
    rw [hs.labels, hentry.labels]
  case verified =>
    simp only [sum_append]
    rw [hs.verified, hentry.verified]
  case turnedAway =>
    simp only [sum_append, resultsAs_append]
    rw [hs.turnedAway, hentry.turnedAway]
  case checked =>
    have hold := hs.checked
    have hnew := hentry.checked
    simp only [sum_append, resultsAs_append]
    omega
  case stored =>
    have hold := hs.stored
    have hnew := hentry.stored
    simp only [resultsAs_append]
    omega
  case lost =>
    have hold := hs.lost
    have hnew := hentry.lost
    simp only [resultsAs_append]
    omega
  case timed =>
    simp only [sum_append]
    rw [hs.timed, hentry.timed]

/-- A step that no request has to do with. -/
theorem IngestAccounts.frame {p : String} {h h' : List Measurement} {s s' : Sys}
    (hs : IngestAccounts p h s) (hfin : (members s.calls (CallPhase.Underway p)).Finite)
    (hcalls : s'.calls = s.calls) (hrows : s'.db.receiptsOf p = s.db.receiptsOf p)
    (hnames : ∀ m ∈ h', m.name ∉ ingestMetrics) : IngestAccounts p (h ++ h') s' := by
  have hcall : s'.calls = Function.update s.calls ⟨0, 0⟩ (s.calls ⟨0, 0⟩) := by
    rw [hcalls, Function.update_eq_self]
  exact hs.step hfin hcall (.still hrows hnames)

/-- Workers have measurements of their own. -/
theorem WorkerStep.measures_names {cfg : WorkerConfig} {db : Database} {w : WorkerState}
    {step : WorkerStep} : ∀ m ∈ step.measures cfg db w, m.name ∉ ingestMetrics := by
  cases step with
  | reclaimExpired now =>
    simp only [measures]
    split <;> simp [ingestMetrics]
  | emitReturned id result =>
    simp only [measures]
    split
    · cases result with
      | ok u => simp [ingestMetrics]
      | error e =>
        simp only
        split <;> simp [ingestMetrics]
    · simp
  | _ => simp [measures]

/-- An operator's statement adds no receipt. -/
theorem AdminStep.receiptsOf {a : AdminStep} {db db' : Database} (h : a.run db = some db')
    (p : String) : db'.receiptsOf p = db.receiptsOf p := by
  rcases run_cases h with ⟨hreceipts, -⟩ | ⟨-, u, rfl, -⟩
  · rw [Database.receiptsOf, hreceipts]
    rfl
  · have hsame : ∀ r, (u.run r).providerName = r.providerName := fun r =>
      congrArg (·.providerName) (u.content_run r)
    simp only [Database.receiptsOf, Database.updateReceipts_rows, List.countP_map,
      Function.comp_def, hsame]

/-- What a step of a call does to the calls and the database, shows and measures. -/
theorem metering_ingest {dep : Deployment} {s s' : Sys} {call : CallId} {step : IngestStep}
    (h : (system dep).step s (.ingest call step) = some s') :
    ∃ o : IngestOutcome, s'.calls = Function.update s.calls call o.next ∧ s'.db = o.db ∧
      (system dep).obs s (.ingest call step) = o.events ∧
      IngestStep.Measured call (s.calls call) s.db o.next o.db o.events
        ((metering dep).obs s (.ingest call step)) := by
  obtain ⟨o, ho, rfl⟩ := Option.map_eq_some_iff.mp h
  have hobs : (metering dep).obs s (.ingest call step) = step.measures (s.calls call) o.next := by
    simp [metering, ho]
  rw [hobs]
  exact ⟨o, rfl, rfl, by simp [system, Label.obs, ho], IngestStep.run_measured ho⟩

/-- **The accounts are kept by every run.** -/
theorem metering_accounts {dep : Deployment} {ls : List Label} {s : Sys}
    (h : (system dep).exec (.start dep .empty) ls = some s) (p : String) :
    (members s.calls (CallPhase.Underway p)).Finite ∧
      IngestAccounts p ((metering dep).trace (.start dep .empty) ls) s := by
  have hexec : (metering dep).exec (.start dep .empty) ls = some s :=
    (Lts.exec_congr (M := system dep) (N := metering dep) rfl _ _).trans h
  refine Lts.exec_induction (M := metering dep)
    (I := fun h s => (members s.calls (CallPhase.Underway p)).Finite ∧ IngestAccounts p h s)
    ⟨?_, ?_⟩ ?_ hexec
  · have hnone : members (Sys.start dep .empty).calls (CallPhase.Underway p) = ∅ :=
      Set.eq_empty_iff_forall_notMem.mpr fun _ hmem => hmem
    rw [hnone]
    exact Set.finite_empty
  · have hunder : census (Sys.start dep .empty).calls (CallPhase.Underway p) = 0 :=
      census_none fun _ hmem => hmem
    have hunchecked : census (Sys.start dep .empty).calls (CallPhase.Unchecked p) = 0 :=
      census_none fun _ hmem => hmem
    have hrecording : census (Sys.start dep .empty).calls (CallPhase.Recording p) = 0 :=
      census_none fun _ hmem => hmem
    constructor <;> simp [hunder, hunchecked, hrecording, resultsAs, ingestResultLabels]
    rfl
  · rintro h s l s' ⟨hfin, hs⟩ hstep
    cases l with
    | worker i step =>
      obtain ⟨o, -, rfl⟩ := Option.map_eq_some_iff.mp hstep
      exact ⟨hfin, hs.frame hfin rfl rfl WorkerStep.measures_names⟩
    | ingest call step =>
      obtain ⟨o, hcalls, hdb, -, hmeasured⟩ := metering_ingest hstep
      rw [hcalls]
      exact ⟨finite_update hfin, hs.step hfin hcalls (hdb ▸ hmeasured.entry p)⟩
    | admin a =>
      obtain ⟨db', hrun, rfl⟩ := Option.map_eq_some_iff.mp hstep
      exact ⟨hfin, hs.frame hfin rfl (a.receiptsOf hrun p) (by simp [metering])⟩

/-! ## 6. Results and answers -/

/-- The label a result is to be counted under. -/
def resultLabel : Except IngestError IngestResult → String
  | .ok (.accepted _) => labelAccepted
  | .ok (.duplicate _) => labelDuplicate
  | .ok (.verificationFailed _) => labelVerificationFailed
  | .error (.storage _) => labelStoreFailed
  | .error (.dedupe _) => labelDedupeFailed

/-- A call that was answered with a result of the label. -/
def Event.answersAs (r : String) : Event → Bool
  | returned _ result => resultLabel result = r
  | _ => false

theorem total_countP (q : Event → Bool) (h : List Event) :
    Lts.total (fun ev => if q ev then 1 else 0) h = h.countP q := (Census.countP_eq_sum q h).symm

/-- **A call that returns is counted once, under the label of its result.** -/
theorem IngestStep.Measured.answers {call : CallId} {phase next : CallPhase} {db db' : Database}
    {es : List Event} {h : List Measurement} (hstep : Measured call phase db next db' es h)
    (r : String) :
    sum "hookbox_ingest_results_total" [("result", r)] h = es.countP (Event.answersAs r) := by
  cases hstep <;>
    simp [Selected, Event.answersAs, resultLabel, List.countP_cons, eq_comm]

section Runs

variable {dep : Deployment} {db : Database} {ls : List Label} {s s' : Sys}

/-- What a step of a worker shows. -/
theorem metering_worker {i : WorkerId} {step : WorkerStep}
    (h : (system dep).step s (.worker i step) = some s') :
    ∃ o : WorkerOutcome, (system dep).obs s (.worker i step) = o.events ∧
      step.run (dep.workers i) i s.db (s.workers i) = some o := by
  obtain ⟨o, ho, rfl⟩ := Option.map_eq_some_iff.mp h
  exact ⟨o, by simp [system, Label.obs, ho], ho⟩

/-- The calls that were answered are counted, each under the label of its result. -/
theorem metering_ingest_answers (h : (system dep).exec (.start dep db) ls = some s) (r : String) :
    sum "hookbox_ingest_results_total" [("result", r)] ((metering dep).trace (.start dep db) ls)
      = ((system dep).trace (.start dep db) ls).countP (Event.answersAs r) := by
  rw [← total_countP]
  refine Lts.total_trace_eq (M := system dep) (N := metering dep) rfl (fun t l t' hstep => ?_) h
  rw [total_countP]
  cases l with
  | worker i step =>
    obtain ⟨o, hevents, ho⟩ := metering_worker hstep
    have hnone : o.events.countP (Event.answersAs r) = 0 := by
      rw [List.countP_eq_zero]
      intro ev hev hanswers
      have hcall := (WorkerStep.run_cases ho).callOf ev hev
      cases ev with
      | returned call result => cases hcall
      | _ => cases hanswers
    rw [hevents, hnone]
    exact sum_eq_zero_of_names WorkerStep.measures_names _ (by decide) _
  | ingest call step =>
    obtain ⟨o, -, -, hevents, hmeasured⟩ := metering_ingest hstep
    rw [hevents]
    exact hmeasured.answers r
  | admin a => rfl

end Runs

/-- **The accounts of requests.**  On every run on a fresh database: for each provider, the requests
that were received are the results that were counted, under one of five labels each, and the calls
that are under way; each was verified, and those that were not turned away were checked for
duplicates; the results say how many receipts of the provider there are, up to commits whose answer
was lost.  Each label counts the calls that returned so. -/
theorem ingest_metrics_account {dep : Deployment} {ls : List Label} {s : Sys}
    (h : (system dep).exec (.start dep .empty) ls = some s) :
    (∀ p, IngestAccounts p ((metering dep).trace (.start dep .empty) ls) s) ∧
      ∀ r, sum "hookbox_ingest_results_total" [("result", r)]
          ((metering dep).trace (.start dep .empty) ls)
        = ((system dep).trace (.start dep .empty) ls).countP (Event.answersAs r) :=
  ⟨fun p => (metering_accounts h p).2, metering_ingest_answers h⟩

/-- One call is told `accepted`, and one is under way. -/
theorem ingest_metrics_account_one :
    ∃ s, (system sampleDep).exec (.start sampleDep .empty)
        (acceptOne ++ [.ingest ⟨1, 0⟩ (.start ⟨"acme", [], []⟩ ⟨2⟩ 0)]) = some s ∧
      2 = 1 + census s.calls (CallPhase.Underway "acme") := by
  have hrun : (system sampleDep).exec (.start sampleDep .empty)
      (acceptOne ++ [.ingest ⟨1, 0⟩ (.start ⟨"acme", [], []⟩ ⟨2⟩ 0)]) = some _ := rfl
  exact ⟨_, hrun, ((ingest_metrics_account hrun).1 "acme").received⟩

end Hookbox
