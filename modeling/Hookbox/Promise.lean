/-
# What a `200` is worth

A provider sends a webhook again and again until it is answered with a `2xx`.  From then on the event
is the server's business.  `acknowledged_is_promised` says what the provider can rely on: the promise
of an outbox (`Outbox.promise`), read in rows and emit calls.

It does not matter whether the answer was `accepted` or `duplicate`, which server gave it, and what
has happened to that server since.
-/
import Hookbox.Acceptance
import Hookbox.AtLeastOnce
import Hookbox.Http

namespace Hookbox

/-! ## 1. What is promised -/

/-- A `200` names a receipt. -/
theorem ingestResponse_ok {result : Except IngestError IngestResult}
    (h : (ingestResponse result).code = 200) :
    ∃ id, result = .ok (.accepted id) ∨ result = .ok (.duplicate id) := by
  unfold ingestResponse at h
  split at h
  · exact ⟨_, .inl rfl⟩
  · exact ⟨_, .inr rfl⟩
  · cases h
  · cases h

/-- **What is promised about a receipt for an emitter**, after a history: there is a row for it, and
the row says that it was emitted or given up only if this emitter was sent the receipt's event and
answered `Ok`, or answered `Err` often enough. -/
def Promised (dep : Deployment) (limit : String → Nat) (h : List Event) (db : Database)
    (receipt : WebhookReceipt) (name : String) : Prop :=
  ∃ d ∈ db.deliveries.rows, d.receiptId = receipt.receiptId ∧ d.emitterName = name ∧
    d.immutable = false ∧
    (d.state = .emitted → ∃ c, (dep.workers c.worker).name = name ∧
      .emitCalled c d.deliveryId (.fromReceipt receipt) ∈ h ∧
      ∃ event, .emitReturned c d.deliveryId event (.ok ()) ∈ h) ∧
    (d.state = .deadLettered → limit name ≤ Event.errs h d.deliveryId)

/-! ## 2. Reading the outbox -/

/-- What the outbox has counted of a history. -/
theorem refused_seen (dep : Deployment) (h : List Event) (id : DeliveryId) :
    Outbox.refused (h.filterMap (Event.seen dep)) id = Event.errs h id := by
  rw [Outbox.refused, List.filterMap_filterMap, Event.errs, List.countP_filterMap]
  refine List.countP_congr fun ev _ => ?_
  cases ev with
  | emitReturned c id' event result =>
    cases result <;> simp [Event.seen, Outbox.Seen.answer?, Event.isErr, Except.isOk, Except.toBool]
  | returned call result =>
    rcases result with e | (id' | id' | reason) <;>
      simp [Event.seen, Outbox.Seen.answer?, Event.isErr]
  | _ => simp [Event.seen, Outbox.Seen.answer?, Event.isErr]

theorem sent_of_seen {dep : Deployment} {h : List Event} {c : ClaimId} {name : String}
    {id : DeliveryId} {event : NormalizedEvent}
    (hsent : .sent c name id event ∈ h.filterMap (Event.seen dep)) :
    (dep.workers c.worker).name = name ∧ .emitCalled c id event ∈ h := by
  obtain ⟨ev, hev, heq⟩ := List.mem_filterMap.mp hsent
  cases ev with
  | emitCalled c' id' event' =>
    cases heq
    exact ⟨rfl, hev⟩
  | returned call result => rcases result with e | (id' | id' | reason) <;> cases heq
  | _ => cases heq

theorem answered_of_seen {dep : Deployment} {h : List Event} {c : ClaimId} {id : DeliveryId}
    (hanswered : .answered c id true ∈ h.filterMap (Event.seen dep)) :
    ∃ event, .emitReturned c id event (.ok ()) ∈ h := by
  obtain ⟨ev, hev, heq⟩ := List.mem_filterMap.mp hanswered
  cases ev with
  | emitReturned c' id' event result =>
    cases result with
    | ok u =>
      cases heq
      exact ⟨event, hev⟩
    | error e => cases heq
  | returned call result => rcases result with e | (id' | id' | reason) <;> cases heq
  | _ => cases heq

/-! ## 3. The promise -/

section Promise

variable {dep : Deployment} {limit : String → Nat} {ls : List Label} {s : Sys}

/-- What a commit promises, in every later state. -/
theorem stored_promised (hlimit : dep.Insists limit)
    (h : (system dep).exec (.start dep .empty) ls = some s) {call : CallId}
    {receipt : WebhookReceipt} {names : List String}
    (hev : .stored call receipt names ∈ (system dep).trace (.start dep .empty) ls) {name : String}
    (hname : name ∈ names) :
    Promised dep limit ((system dep).trace (.start dep .empty) ls) s.db receipt name := by
  have hnone : ∀ d ∈ Database.empty.deliveries.rows, d.immutable = true := fun d hd =>
    absurd hd List.not_mem_nil
  obtain ⟨as, hexec, htrace⟩ := system_outbox hlimit hnone h
  have hsound : (outboxOf [] .empty).Sound limit := by
    constructor <;> simp [outboxOf, Database.jobs, Database.empty]
  have hacc : .accepted receipt.receiptId (.fromReceipt receipt) names
      ∈ (Outbox.machine limit).trace (outboxOf [] .empty) as := by
    rw [htrace]
    exact List.mem_filterMap.mpr ⟨_, hev, rfl⟩
  obtain ⟨j, hj, hitem, hdest, hdone, hgiven⟩ :=
    Outbox.promise hsound rfl rfl hexec hacc hname
  obtain ⟨d, hd, himm, rfl⟩ := Database.mem_jobs.mp hj
  rw [htrace] at hdone hgiven
  refine ⟨d, hd, hitem, hdest, himm, fun hst => ?_, fun hst => ?_⟩
  · obtain ⟨c, hsent, hanswered⟩ := hdone (by rw [WebhookDelivery.job, hst]; rfl)
    obtain ⟨hworker, hcalled⟩ := sent_of_seen hsent
    exact ⟨c, hworker, hcalled, answered_of_seen hanswered⟩
  · have hle := hgiven (by rw [WebhookDelivery.job, hst]; rfl)
    rwa [refused_seen] at hle

/-- The receipt that a `200` names was stored by some call, for the provider and the body of the
request. -/
theorem system_acknowledged (h : (system dep).exec (.start dep .empty) ls = some s)
    (hsha : Set.InjOn dep.lib.sha256 (bodies ((system dep).trace (.start dep .empty) ls) .empty))
    {call : CallId} {result : Except IngestError IngestResult}
    (hret : .returned call result ∈ (system dep).trace (.start dep .empty) ls)
    (hcode : (ingestResponse result).code = 200) {req : Request} {utcNow : Timestamp}
    (hreq : .requested call req utcNow ∈ (system dep).trace (.start dep .empty) ls) :
    ∃ call' receipt, .stored call' receipt (dep.servers call'.server).emitterNames
        ∈ (system dep).trace (.start dep .empty) ls ∧
      (result = .ok (.accepted receipt.receiptId) ∨ result = .ok (.duplicate receipt.receiptId)) ∧
      receipt.providerName = req.provider ∧ receipt.rawBody = req.body := by
  have hnone : ∀ r ∈ Database.empty.receipts.rows, r.Canonical dep.lib := fun r hr =>
    absurd hr List.not_mem_nil
  have hstored : ∀ {call' receipt names},
      .stored call' receipt names ∈ (system dep).trace (.start dep .empty) ls →
      .stored call' receipt (dep.servers call'.server).emitterNames
        ∈ (system dep).trace (.start dep .empty) ls := by
    intro call' receipt names hev
    obtain ⟨c, -, receivedAt, -, -, -, rfl⟩ := system_stored_request h hev
    exact hev
  obtain ⟨id, rfl | rfl⟩ := ingestResponse_ok hcode
  · obtain ⟨receipt, names, hev, rfl, hprovider, hbody⟩ := system_accepted_row h hret hreq
    exact ⟨call, receipt, hstored hev, Or.inl rfl, hprovider, hbody⟩
  · obtain ⟨row, hrow, rfl, hkey⟩ := system_duplicate_row h hret hreq
    obtain ⟨-, hprovider, hbody⟩ := system_key_pair h hnone hsha hreq hrow hkey
    rcases system_row_origin h hrow with ⟨r, hr, -⟩ | ⟨call', receipt, names, hev, hcontent⟩
    · exact absurd hr List.not_mem_nil
    · have hid : row.receiptId = receipt.receiptId := congrArg (·.receiptId) hcontent
      have hprovider' : row.providerName = receipt.providerName :=
        congrArg (·.providerName) hcontent
      have hbody' : row.rawBody = receipt.rawBody := congrArg (·.rawBody) hcontent
      exact ⟨call', receipt, hstored hev, Or.inr (by rw [hid]), hprovider'.symm.trans hprovider,
        hbody'.symm.trans hbody⟩

/-- **A `200` is a promise.**  On every run on a fresh database, with no collision of SHA-256 among
the bodies at hand: when the webhook endpoint has answered a request with `200`, be it `accepted` or
`duplicate`, then the receipt that it names was stored, by this call or another, with the provider and
the body of the request; and in every later state every emitter of the server that stored it has been
sent the receipt's event and has answered `Ok`, or is owed it, or has answered `Err` as often as its
policy asks for. -/
theorem acknowledged_is_promised (hlimit : dep.Insists limit)
    (h : (system dep).exec (.start dep .empty) ls = some s)
    (hsha : Set.InjOn dep.lib.sha256 (bodies ((system dep).trace (.start dep .empty) ls) .empty))
    {call : CallId} {result : Except IngestError IngestResult}
    (hret : .returned call result ∈ (system dep).trace (.start dep .empty) ls)
    (hcode : (ingestResponse result).code = 200) {req : Request} {utcNow : Timestamp}
    (hreq : .requested call req utcNow ∈ (system dep).trace (.start dep .empty) ls) :
    ∃ (call' : CallId) (receipt : WebhookReceipt),
      .stored call' receipt (dep.servers call'.server).emitterNames
        ∈ (system dep).trace (.start dep .empty) ls ∧
      (result = .ok (.accepted receipt.receiptId) ∨ result = .ok (.duplicate receipt.receiptId)) ∧
      receipt.providerName = req.provider ∧ receipt.rawBody = req.body ∧
      ∀ later t, (system dep).exec s later = some t →
        ∀ name ∈ (dep.servers call'.server).emitterNames,
          Promised dep limit ((system dep).trace (.start dep .empty) (ls ++ later)) t.db receipt
            name := by
  obtain ⟨call', receipt, hev, hnamed, hprovider, hbody⟩ :=
    system_acknowledged h hsha hret hcode hreq
  refine ⟨call', receipt, hev, hnamed, hprovider, hbody, fun later t hlater name hname => ?_⟩
  have hall : (system dep).exec (.start dep .empty) (ls ++ later) = some t := by
    rw [Lts.exec_append, h]
    exact hlater
  have hev' : .stored call' receipt (dep.servers call'.server).emitterNames
      ∈ (system dep).trace (.start dep .empty) (ls ++ later) := by
    rw [Lts.trace_append h]
    exact List.mem_append_left _ hev
  exact stored_promised hlimit hall hev' hname

end Promise

/-- The loser of the race is told `duplicate`, and what the winner was promised holds for it. -/
theorem acknowledged_is_promised_race :
    ∃ s, (system sampleDep).exec (.start sampleDep .empty) raceForOne = some s ∧
      ∃ (call' : CallId) (receipt : WebhookReceipt),
        .stored call' receipt ["kafka"]
          ∈ (system sampleDep).trace (.start sampleDep .empty) raceForOne ∧
        receipt.receiptId = ⟨1⟩ ∧ receipt.providerName = "acme" ∧ receipt.rawBody = [] ∧
        Promised sampleDep (fun _ => 5)
          ((system sampleDep).trace (.start sampleDep .empty) raceForOne) s.db receipt "kafka" := by
  have hrun : (system sampleDep).exec (.start sampleDep .empty) raceForOne = some _ := rfl
  have hbodies : ((system sampleDep).trace (.start sampleDep .empty) raceForOne).all
      (fun ev => match ev with
        | .requested _ req _ => decide (req.body = [])
        | _ => true) = true := by decide
  have hsha : Set.InjOn sampleDep.lib.sha256
      (bodies ((system sampleDep).trace (.start sampleDep .empty) raceForOne) .empty) := by
    have hnil : ∀ b ∈ bodies ((system sampleDep).trace (.start sampleDep .empty) raceForOne) .empty,
        b = [] := by
      rintro b (⟨call, req, utcNow, hreq, rfl⟩ | ⟨row, hrow, -⟩)
      · simpa using List.all_eq_true.mp hbodies _ hreq
      · exact absurd hrow List.not_mem_nil
    intro b hb b' hb' _
    rw [hnil b hb, hnil b' hb']
  have hret : Event.returned ⟨1, 0⟩ (.ok (.duplicate ⟨1⟩))
      ∈ (system sampleDep).trace (.start sampleDep .empty) raceForOne := List.mem_of_getLast? rfl
  have hreq : Event.requested ⟨1, 0⟩ ⟨"acme", [], []⟩ 0
      ∈ (system sampleDep).trace (.start sampleDep .empty) raceForOne :=
    List.mem_cons_of_mem _ List.mem_cons_self
  obtain ⟨call', receipt, hev, hnamed, hprovider, hbody, hpromised⟩ :=
    acknowledged_is_promised sampleDep_insists hrun hsha hret rfl hreq
  have hid : receipt.receiptId = ⟨1⟩ := by
    rcases hnamed with heq | heq
    · cases heq
    · exact (IngestResult.duplicate.inj (Except.ok.inj heq)).symm
  exact ⟨_, hrun, call', receipt, hev, hid, hprovider, hbody,
    hpromised [] _ rfl "kafka" List.mem_cons_self⟩

end Hookbox
