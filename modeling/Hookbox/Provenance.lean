/-
# Verified provenance

From the emit of an event back to the request it stands for: the event was made from a receipt
row, the row was committed by an ingest call, the call passed the verifier the pipeline found
under the provider's name, and that verifier was built from the provider's own entry.

* `Deployment.Configured`: all servers run verifiers built from one `[providers]` section.
* `verified_provenance`: an event of a configured provider stems from a request that the
  provider's verifier accepted, and a request that it does not accept leaves no trace in the
  database.
-/
import Hookbox.Attempts
import Hookbox.Intake

namespace Hookbox

open Event (commits)

/-! ## 1. Configured providers -/

/-- Every server registers the verifiers that bootstrap builds from `providers`. -/
def Deployment.Configured (dep : Deployment) (providers : Std.ExtTreeMap String ProviderConfig) :
    Prop :=
  ∃ vs, buildProviderVerifiers dep.lib.toCrypto providers = .ok vs ∧
    ∀ i, (dep.servers i).verifiers = registerVerifiers vs

section

variable {dep : Deployment} {providers : Std.ExtTreeMap String ProviderConfig}
  (hcfg : dep.Configured providers)

include hcfg

/-- **A request passes only with the consent of its provider's own verifier.** -/
theorem Deployment.Configured.verify_ok {i : ServerId} {req : Request} {utcNow : Timestamp}
    {v : VerificationStatus × Option String} {cfg : ProviderConfig}
    (hp : providers[req.provider]? = some cfg) (h : (dep.servers i).verify utcNow req = .ok v) :
    ∃ verifier, buildOneVerifier dep.lib.toCrypto req.provider cfg = .ok verifier ∧
      (verifier.verify utcNow req.headers req.body).status = .verified := by
  obtain ⟨vs, hvs, hservers⟩ := hcfg
  have hget := verifiers_getElem? hvs req.provider
  rw [hp] at hget
  obtain ⟨verifier, hbuild, hlookup⟩ := hget
  refine ⟨verifier, hbuild, ?_⟩
  unfold Pipeline.verify at h
  rw [hservers, hlookup] at h
  have hdecided := (buildOneVerifier_for hbuild).decided utcNow req.headers req.body
  cases hst : (verifier.verify utcNow req.headers req.body).status with
  | verified => rfl
  | failed => simp [hst] at h
  | skipped => exact absurd hst hdecided

end

/-! ## 2. Emitted events -/

/-- An emit call sends the event of a receipt that the dispatch has loaded. -/
theorem Sys.Effect.emitCalled {dep : Deployment} {s s' : Sys} {es : List Event}
    (h : Sys.Effect dep s s' es) {c : ClaimId} {id : DeliveryId} {event : NormalizedEvent}
    (hev : .emitCalled c id event ∈ es) :
    ∃ i d receipt, ⟨d, some receipt, none⟩ ∈ (s.workers i).outstanding ∧
      event = .fromReceipt receipt := by
  cases h with
  | worker i o heff =>
    obtain ⟨-, d, receipt, hd, hevent⟩ := heff.of_emitCalled hev
    exact ⟨i, d, receipt, hd, hevent⟩
  | environment s' es hworkers hdb hes =>
    have := hes _ hev
    simp [Event.callOf] at this

section

variable {dep : Deployment} {ls : List Label} {s : Sys}
  (h : (system dep).exec (.start dep .empty) ls = some s)

include h

/-- **Every emitted event is the event of a committed receipt.** -/
theorem emitCalled_stored {c : ClaimId} {id : DeliveryId} {event : NormalizedEvent}
    (hev : .emitCalled c id event ∈ (system dep).trace (.start dep .empty) ls) :
    ∃ call receipt names,
      .stored call receipt names ∈ (system dep).trace (.start dep .empty) ls ∧
      event = .fromReceipt receipt := by
  obtain ⟨before, l, after, t, t', rfl, hbefore, hstep, hobs, -⟩ :=
    Lts.exists_step_of_mem_trace h hev
  obtain ⟨i, d, receipt, hout, rfl⟩ := (system_step_cases hstep).emitCalled hobs
  have hsound := system_sound (by simp [Database.empty]) hbefore
  obtain ⟨row, hrow, -, hevent⟩ := (hsound.outs i _ hout).receipt receipt rfl
  rcases system_row_origin hbefore hrow with ⟨r, hr, -⟩ | ⟨call, receipt', names, hst, hc⟩
  · exact absurd hr (by simp [Database.empty])
  · refine ⟨call, receipt', names, ?_, ?_⟩
    · rw [Lts.trace_append hbefore]
      exact List.mem_append_left _ hst
    · rw [← hevent]
      exact event_eq_of_content_eq hc

end

/-- A call that commits nothing never changes the database. -/
theorem db_unchanged_of_no_commit {dep : Deployment} {ls : List Label} {call : CallId}
    (hno : ∀ k ∈ commits ((system dep).trace (.start dep .empty) ls), k.call ≠ call)
    {before after : List Label} {step : IngestStep} (hls : ls = before ++ .ingest call step :: after)
    {t t' : Sys} (ht : (system dep).exec (.start dep .empty) before = some t)
    (hstep : (system dep).step t (.ingest call step) = some t') : t'.db = t.db := by
  have hrest : ∀ k ∈ commits ((system dep).obs t (.ingest call step)), k.call ≠ call := by
    intro k hk
    refine hno k ?_
    rw [hls, Lts.trace_append ht, Lts.trace_cons hstep, Event.commits_append,
      Event.commits_append]
    exact List.mem_append_right _ (List.mem_append_left _ hk)
  obtain ⟨o, heff, rfl, hobs⟩ := system_ingest hstep
  rw [hobs] at hrest
  rcases heff.commit_cases with ⟨hdb, -⟩ | ⟨k, hone, hcall, -⟩
  · exact hdb
  · exact absurd hcall (hrest k (by rw [hone]; exact List.mem_singleton.mpr rfl))

/-- **Verified provenance of every emitted event.**  Let all servers run a configuration that
bootstrap accepts, on a fresh database.  Whenever a worker calls emit with an event of a
configured provider, there was a request for that provider on which the verifier built from its
own entry returned `Verified`, the event's receipt is the one stored by that request, and its
payload hash is the SHA-256 of that body in hex.  A request for a configured provider on which the
verifier did not return `Verified` stores nothing, and no step of its call changes the database. -/
theorem verified_provenance {dep : Deployment} {providers : Std.ExtTreeMap String ProviderConfig}
    (hcfg : dep.Configured providers) {ls : List Label} {s : Sys}
    (h : (system dep).exec (.start dep .empty) ls = some s) :
    (∀ {c id event cfg}, .emitCalled c id event ∈ (system dep).trace (.start dep .empty) ls →
      providers[event.providerName]? = some cfg →
      ∃ verifier call req utcNow receipt names,
        buildOneVerifier dep.lib.toCrypto event.providerName cfg = .ok verifier ∧
        .requested call req utcNow ∈ (system dep).trace (.start dep .empty) ls ∧
        req.provider = event.providerName ∧
        (verifier.verify utcNow req.headers req.body).status = .verified ∧
        .stored call receipt names ∈ (system dep).trace (.start dep .empty) ls ∧
        event.receiptId = receipt.receiptId ∧
        event.payloadHash = hexEncode (dep.lib.sha256 req.body)) ∧
    (∀ {call req utcNow cfg verifier},
      .requested call req utcNow ∈ (system dep).trace (.start dep .empty) ls →
      providers[req.provider]? = some cfg →
      buildOneVerifier dep.lib.toCrypto req.provider cfg = .ok verifier →
      (verifier.verify utcNow req.headers req.body).status ≠ .verified →
      (∀ receipt names,
        .stored call receipt names ∉ (system dep).trace (.start dep .empty) ls) ∧
      ∀ {before step after t t'}, ls = before ++ .ingest call step :: after →
        (system dep).exec (.start dep .empty) before = some t →
        (system dep).step t (.ingest call step) = some t' → t'.db = t.db) := by
  constructor
  · intro c id event cfg hev hp
    obtain ⟨call, receipt, names, hst, rfl⟩ := emitCalled_stored h hev
    obtain ⟨k, utcNow, receivedAt, hreq, hverify, rfl, -⟩ := system_stored_request h hst
    obtain ⟨verifier, hbuild, hok⟩ := hcfg.verify_ok hp hverify
    exact ⟨verifier, call, k.req, utcNow, _, names, hbuild, hreq, rfl, hok, hst, rfl, rfl⟩
  · intro call req utcNow cfg verifier hreq hp hbuild hnot
    have hno : ∀ receipt names,
        .stored call receipt names ∉ (system dep).trace (.start dep .empty) ls := by
      intro receipt names hst
      obtain ⟨k, utcNow', receivedAt, hreq', hverify, -, -⟩ := system_stored_request h hst
      obtain ⟨rfl, rfl⟩ := (system_callTrace h call).request_unique (Event.mem_ofCall hreq rfl)
        (Event.mem_ofCall hreq' rfl)
      obtain ⟨verifier', hbuild', hok⟩ := hcfg.verify_ok hp hverify
      rw [hbuild, Except.ok.injEq] at hbuild'
      subst hbuild'
      exact hnot hok
    refine ⟨hno, fun hls ht hstep => db_unchanged_of_no_commit ?_ hls ht hstep⟩
    rintro k hk rfl
    exact hno k.receipt k.emitterNames (Event.mem_commits.mp hk)

/-- One provider, `acme`, with an HMAC secret. -/
def acmeProviders : Std.ExtTreeMap String ProviderConfig :=
  (∅ : Std.ExtTreeMap String ProviderConfig).insert "acme" { secret := some "secret" }

/-- The small deployment with the verifiers that bootstrap builds for `acme`. -/
def acmeDep : Deployment :=
  { sampleDep with
    servers := fun _ =>
      { emitterNames := ["kafka"]
        verifiers := registerVerifiers
          ((buildProviderVerifiers sampleLib.toCrypto acmeProviders).toOption.getD [])
        lruCapacity := 100 } }

/-- A correctly signed request with an empty body. -/
def signedRequest : Request :=
  ⟨"acme", [("x-acme-signature",
    asBytes "f9e66e179b6747ae54108f82f8ade8b3c25d76fd30afde6c395822c530196169")], []⟩

/-- It is accepted, and a worker calls the emitter. -/
def signedAndEmitted : List Label :=
  [.ingest ⟨0, 0⟩ (.start signedRequest ⟨1⟩ 0), .ingest ⟨0, 0⟩ .checkFast,
    .ingest ⟨0, 0⟩ .checkStorage,
    .ingest ⟨0, 0⟩ (.store 0 0 (fun i => ⟨BitVec.ofNat 128 i⟩) .ok ""), .ingest ⟨0, 0⟩ .record] ++
    claimAndCall 0 0 ⟨0⟩

theorem verified_provenance_signed :
    ∃ s c id event, (system acmeDep).exec (.start acmeDep .empty) signedAndEmitted = some s ∧
      .emitCalled c id event ∈ (system acmeDep).trace (.start acmeDep .empty) signedAndEmitted ∧
      ∃ verifier call req utcNow receipt names,
        buildOneVerifier acmeDep.lib.toCrypto event.providerName { secret := some "secret" }
          = .ok verifier ∧
        .requested call req utcNow
          ∈ (system acmeDep).trace (.start acmeDep .empty) signedAndEmitted ∧
        req.provider = event.providerName ∧
        (verifier.verify utcNow req.headers req.body).status = .verified ∧
        .stored call receipt names
          ∈ (system acmeDep).trace (.start acmeDep .empty) signedAndEmitted ∧
        event.receiptId = receipt.receiptId ∧
        event.payloadHash = hexEncode (acmeDep.lib.sha256 req.body) := by
  have hcfg : acmeDep.Configured acmeProviders := ⟨_, rfl, fun _ => rfl⟩
  refine ⟨_, ⟨0, 1⟩, ⟨0⟩, _, rfl, List.mem_of_getLast? rfl, ?_⟩
  exact (verified_provenance hcfg (show (system acmeDep).exec (.start acmeDep .empty)
    signedAndEmitted = some _ from rfl)).1 (List.mem_of_getLast? rfl)
    Std.ExtTreeMap.getElem?_insert_self

end Hookbox
