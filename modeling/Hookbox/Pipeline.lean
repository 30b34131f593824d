/-
# The ingest pipeline

`HookboxPipeline::ingest` (`hookbox/src/pipeline.rs`) with the dedupe layers that `build_pipeline`
gives it (`hookbox/src/dedupe.rs`, `hookbox-postgres/src/dedupe.rs`), as a state machine between
await points.  A call goes through

    idle → checking → checkingStorage → storing → fetching  → done
                                                → recording → done

and every storage access can fail; a failed `store_with_deliveries` may have been committed.

`store_with_deliveries` is one atomic step up to its commit or rollback.  After a rollback the
id of the existing receipt is read by a statement of its own (`fetching`).
-/
import Hookbox.Providers
import Hookbox.History

namespace Hookbox

/-! ## 1. Advisory dedupe -/

/-- `InMemoryRecentDedupe`: the map and the queue of its keys, oldest first. -/
structure InMemoryRecentDedupe where
  capacity : Nat
  map : Std.ExtTreeMap String String := ∅
  order : List String := []

/-- What a dedupe layer answers, given the hash it has for the key. -/
def dedupeDecision (stored : Option String) (payloadHash : String) : DedupeDecision :=
  match stored with
  | none => .new
  | some h => if h = payloadHash then .duplicate else .conflict

/-- `InMemoryRecentDedupe::check`. -/
def InMemoryRecentDedupe.check (cache : InMemoryRecentDedupe) (dedupeKey payloadHash : String) :
    DedupeDecision :=
  dedupeDecision cache.map[dedupeKey]? payloadHash

/-- `InMemoryRecentDedupe::record`. -/
def InMemoryRecentDedupe.record (cache : InMemoryRecentDedupe) (dedupeKey payloadHash : String) :
    InMemoryRecentDedupe :=
  if cache.map.contains dedupeKey then cache
  else
    let evicted :=
      if cache.map.size ≥ cache.capacity then
        match cache.order with
        | oldest :: rest => { cache with map := cache.map.erase oldest, order := rest }
        | [] => cache
      else cache
    { evicted with
      map := evicted.map.insert dedupeKey payloadHash, order := evicted.order ++ [dedupeKey] }

/-- `StorageDedupe::check`. -/
def storageDedupeCheck (db : Database) (dedupeKey payloadHash : String) : DedupeDecision :=
  dedupeDecision ((db.receiptByDedupeKey dedupeKey).map (·.payloadHash)) payloadHash

/-! ## 2. The call -/

/-- The environment of a pipeline: the third-party code it calls. -/
structure Libraries extends Crypto where
  /-- `serde_json::from_slice(..).ok()`. -/
  parseJson : Bytes → Option Json

/-- The configuration of a `HookboxPipeline`. -/
structure Pipeline where
  emitterNames : List String
  verifiers : Verifiers
  lruCapacity : Nat

/-- `compute_payload_hash`. -/
def computePayloadHash (lib : Libraries) (body : Bytes) : String := hexEncode (lib.sha256 body)

/-- The local variables of a call once it has passed verification. -/
structure IngestCall where
  req : Request
  receiptId : ReceiptId
  verificationStatus : VerificationStatus
  verificationReason : Option String

def IngestCall.payloadHash (lib : Libraries) (c : IngestCall) : String :=
  computePayloadHash lib c.req.body

def IngestCall.dedupeKey (lib : Libraries) (c : IngestCall) : String :=
  Hookbox.dedupeKey c.req.provider (c.payloadHash lib)

/-- Where a call of `ingest` is. -/
inductive CallPhase where
  | idle
  | checking (c : IngestCall)
  | checkingStorage (c : IngestCall)
  | storing (c : IngestCall) (advisory : DedupeDecision)
  | fetching (c : IngestCall)
  | recording (c : IngestCall)
  | done (result : Except IngestError IngestResult)

/-- Stage 2: the verdict on a request, or the reason it is turned away for. -/
def Pipeline.verify (pipe : Pipeline) (utcNow : Timestamp) (req : Request) :
    Except String (VerificationStatus × Option String) :=
  match pipe.verifiers[req.provider]? with
  | some verifier =>
    let result := verifier.verify utcNow req.headers req.body
    match result.status with
    | .failed => .error (result.reason.getD "verification_failed")
    | .verified => .ok (.verified, result.reason)
    | .skipped => .ok (.skipped, result.reason)
  | none => .ok (.skipped, some "no_verifier_configured")

/-- `headers_to_json`. -/
def headersToJson (headers : HeaderMap) : Json :=
  .obj <| (headers.map (·.1)).eraseDups.map fun key =>
    let values := (headers.filter fun h => h.1 = key).filterMap fun h => toStr h.2
    (key, .str (", ".intercalate
      (values.map fun v => String.ofList (v.map fun b => Char.ofNat b.toNat))))

/-- The receipt that stage 4 builds. -/
def IngestCall.receipt (lib : Libraries) (c : IngestCall) (utcNow : Timestamp) :
    WebhookReceipt where
  receiptId := c.receiptId
  providerName := c.req.provider
  providerEventId := none
  externalReference := none
  dedupeKey := c.dedupeKey lib
  payloadHash := c.payloadHash lib
  rawBody := c.req.body
  parsedPayload := lib.parseJson c.req.body
  rawHeaders := headersToJson c.req.headers
  normalizedEventType := none
  verificationStatus := c.verificationStatus
  verificationReason := c.verificationReason
  processingState := .stored
  emitCount := 0
  lastError := none
  receivedAt := utcNow
  processedAt := none
  metadata := .obj []

/-! ## 3. Steps -/

/-- One step of a call.  `msg` is the text of a database error. -/
inductive IngestStep where
  | start (req : Request) (receiptId : ReceiptId) (utcNow : Timestamp)
  | checkFast
  | checkStorage
  | checkFailed (msg : String)
  | store (utcNow now : Timestamp) (draw : Nat → DeliveryId) (outcome : CallOutcome) (msg : String)
  | fetchExisting
  | fetchFailed (msg : String)
  | record

/-- What a step comes to. -/
structure IngestOutcome where
  db : Database
  cache : InMemoryRecentDedupe
  next : CallPhase
  events : List Event

/-- The call returns `Err`. -/
def callFailed (call : CallId) (db : Database) (cache : InMemoryRecentDedupe)
    (events : List Event) (e : IngestError) : IngestOutcome :=
  ⟨db, cache, .done (.error e), events ++ [.returned call (.error e)]⟩

/-- One step of a call on a server with pipeline `pipe` and cache `cache`. -/
def IngestStep.run (lib : Libraries) (pipe : Pipeline) (call : CallId) (db : Database)
    (cache : InMemoryRecentDedupe) (phase : CallPhase) : IngestStep → Option IngestOutcome
  | .start req receiptId utcNow =>
    match phase with
    | .idle =>
      match pipe.verify utcNow req with
      | .error reason =>
        some ⟨db, cache, .done (.ok (.verificationFailed reason)),
          [.requested call req utcNow, .returned call (.ok (.verificationFailed reason))]⟩
      | .ok (status, reason) =>
        some ⟨db, cache, .checking ⟨req, receiptId, status, reason⟩,
          [.requested call req utcNow]⟩
    | _ => none
  | .checkFast =>
    match phase with
    | .checking c =>
      match cache.check (c.dedupeKey lib) (c.payloadHash lib) with
      | .new => some ⟨db, cache, .checkingStorage c, []⟩
      | advisory => some ⟨db, cache, .storing c advisory, []⟩
    | _ => none
  | .checkStorage =>
    match phase with
    | .checkingStorage c =>
      let advisory := storageDedupeCheck db (c.dedupeKey lib) (c.payloadHash lib)
      some ⟨db, cache, .storing c advisory, []⟩
    | _ => none
  | .checkFailed msg =>
    match phase with
    | .checkingStorage _ => some (callFailed call db cache [] (.dedupe (.internal msg)))
    | _ => none
  | .store utcNow now draw outcome msg =>
    match phase with
    -- The advisory answer is logged and counted, and decides nothing.
    | .storing c _ =>
      if outcome = .failed then some (callFailed call db cache [] (.storage (.internal msg)))
      else
        match db.storeWithDeliveries (c.receipt lib utcNow) pipe.emitterNames draw now with
        | .error e => some (callFailed call db cache [] (.storage e))
        | .ok none =>
          -- An error here comes from the rollback.
          if outcome = .ok then some ⟨db, cache, .fetching c, []⟩
          else some (callFailed call db cache [] (.storage (.internal msg)))
        | .ok (some db') =>
          if outcome = .ok then
            some ⟨db', cache, .recording c,
              [.stored call (c.receipt lib utcNow) pipe.emitterNames]⟩
          else
            some (callFailed call db' cache
              [.stored call (c.receipt lib utcNow) pipe.emitterNames] (.storage (.internal msg)))
    | _ => none
  | .fetchExisting =>
    match phase with
    | .fetching c =>
      match db.receiptByDedupeKey (c.dedupeKey lib) with
      | some row =>
        some ⟨db, cache, .done (.ok (.duplicate row.receiptId)),
          [.returned call (.ok (.duplicate row.receiptId))]⟩
      | none =>
        some (callFailed call db cache [] (.storage (.internal
          "no rows returned by a query that expected to return at least one row")))
    | _ => none
  | .fetchFailed msg =>
    match phase with
    | .fetching _ => some (callFailed call db cache [] (.storage (.internal msg)))
    | _ => none
  | .record =>
    match phase with
    | .recording c =>
      -- `StorageDedupe::record` does nothing.
      some ⟨db, cache.record (c.dedupeKey lib) (c.payloadHash lib),
        .done (.ok (.accepted c.receiptId)), [.returned call (.ok (.accepted c.receiptId))]⟩
    | _ => none

/-! ## 4. What a step can do -/

/-- The call data of a phase between verification and the commit. -/
def CallPhase.undecided : CallPhase → Option IngestCall
  | .checking c => some c
  | .checkingStorage c => some c
  | .storing c _ => some c
  | .fetching c => some c
  | _ => none

/-- **Everything an ingest step can do.** -/
inductive IngestStep.Effect (lib : Libraries) (pipe : Pipeline) (call : CallId) (db : Database)
    (cache : InMemoryRecentDedupe) (phase : CallPhase) : IngestOutcome → Prop where
  | turnedAway (req : Request) (utcNow : Timestamp) (reason : String) (hphase : phase = .idle)
      (hverify : pipe.verify utcNow req = .error reason) :
      Effect lib pipe call db cache phase
        ⟨db, cache, .done (.ok (.verificationFailed reason)),
          [.requested call req utcNow, .returned call (.ok (.verificationFailed reason))]⟩
  | started (c : IngestCall) (utcNow : Timestamp) (hphase : phase = .idle)
      (hverify : pipe.verify utcNow c.req = .ok (c.verificationStatus, c.verificationReason)) :
      Effect lib pipe call db cache phase ⟨db, cache, .checking c, [.requested call c.req utcNow]⟩
  | proceeded (c : IngestCall) (next : CallPhase) (hphase : phase.undecided = some c)
      (hnext : next.undecided = some c) : Effect lib pipe call db cache phase ⟨db, cache, next, []⟩
  | failed (c : IngestCall) (e : IngestError) (hphase : phase.undecided = some c) :
      Effect lib pipe call db cache phase (callFailed call db cache [] e)
  | stored (c : IngestCall) (utcNow now : Timestamp) (draw : Nat → DeliveryId) (db' : Database)
      (hphase : phase.undecided = some c)
      (hstore : db.storeWithDeliveries (c.receipt lib utcNow) pipe.emitterNames draw now
        = .ok (some db')) :
      Effect lib pipe call db cache phase
        ⟨db', cache, .recording c, [.stored call (c.receipt lib utcNow) pipe.emitterNames]⟩
  | storedLost (c : IngestCall) (utcNow now : Timestamp) (draw : Nat → DeliveryId)
      (db' : Database) (e : IngestError) (hphase : phase.undecided = some c)
      (hstore : db.storeWithDeliveries (c.receipt lib utcNow) pipe.emitterNames draw now
        = .ok (some db')) :
      Effect lib pipe call db cache phase
        (callFailed call db' cache [.stored call (c.receipt lib utcNow) pipe.emitterNames] e)
  | duplicate (c : IngestCall) (row : ReceiptRow) (hphase : phase.undecided = some c)
      (hrow : db.receiptByDedupeKey (c.dedupeKey lib) = some row) :
      Effect lib pipe call db cache phase
        ⟨db, cache, .done (.ok (.duplicate row.receiptId)),
          [.returned call (.ok (.duplicate row.receiptId))]⟩
  | accepted (c : IngestCall) (cache' : InMemoryRecentDedupe) (hphase : phase = .recording c) :
      Effect lib pipe call db cache phase
        ⟨db, cache', .done (.ok (.accepted c.receiptId)),
          [.returned call (.ok (.accepted c.receiptId))]⟩

section Cases

variable {lib : Libraries} {pipe : Pipeline} {call : CallId} {db : Database}
  {cache : InMemoryRecentDedupe} {phase : CallPhase} {o : IngestOutcome}

theorem IngestStep.start_cases {req : Request} {receiptId : ReceiptId} {utcNow : Timestamp}
    (h : (IngestStep.start req receiptId utcNow).run lib pipe call db cache phase = some o) :
    Effect lib pipe call db cache phase o := by
  simp only [run] at h
  split at h
  · split at h
    · rename_i reason hv
      rw [Option.some.injEq] at h
      subst h
      exact .turnedAway req utcNow reason rfl hv
    · rename_i status reason hv
      rw [Option.some.injEq] at h
      subst h
      exact .started ⟨req, receiptId, status, reason⟩ utcNow rfl hv
  · exact absurd h (by simp)

theorem IngestStep.store_cases {utcNow now : Timestamp} {draw : Nat → DeliveryId}
    {outcome : CallOutcome} {msg : String}
    (h : (IngestStep.store utcNow now draw outcome msg).run lib pipe call db cache phase = some o) :
    Effect lib pipe call db cache phase o := by
  simp only [run] at h
  split at h
  · rename_i c advisory
    split at h
    · rw [Option.some.injEq] at h
      subst h
      exact .failed c _ rfl
    · split at h
      · rw [Option.some.injEq] at h
        subst h
        exact .failed c _ rfl
      · split at h
        · rw [Option.some.injEq] at h
          subst h
          exact .proceeded c _ rfl rfl
        · rw [Option.some.injEq] at h
          subst h
          exact .failed c _ rfl
      · rename_i db' hs
        split at h
        · rw [Option.some.injEq] at h
          subst h
          exact .stored c utcNow now draw db' rfl hs
        · rw [Option.some.injEq] at h
          subst h
          exact .storedLost c utcNow now draw db' _ rfl hs
  · exact absurd h (by simp)

theorem IngestStep.run_cases {step : IngestStep} (h : step.run lib pipe call db cache phase = some o) :
    Effect lib pipe call db cache phase o := by
  cases step with
  | start req receiptId utcNow => exact start_cases h
  | checkFast =>
    simp only [run] at h
    split at h
    · rename_i c
      split at h
      · rw [Option.some.injEq] at h
        subst h
        exact .proceeded c _ rfl rfl
      · rw [Option.some.injEq] at h
        subst h
        exact .proceeded c _ rfl rfl
    · exact absurd h (by simp)
  | checkStorage =>
    simp only [run] at h
    split at h
    · rename_i c
      rw [Option.some.injEq] at h
      subst h
      exact .proceeded c _ rfl rfl
    · exact absurd h (by simp)
  | checkFailed msg =>
    simp only [run] at h
    split at h
    · rename_i c
      rw [Option.some.injEq] at h
      subst h
      exact .failed c _ rfl
    · exact absurd h (by simp)
  | store utcNow now draw outcome msg => exact store_cases h
  | fetchExisting =>
    simp only [run] at h
    split at h
    · rename_i c
      split at h
      · rename_i row hrow
        rw [Option.some.injEq] at h
        subst h
        exact .duplicate c row rfl hrow
      · rw [Option.some.injEq] at h
        subst h
        exact .failed c _ rfl
    · exact absurd h (by simp)
  | fetchFailed msg =>
    simp only [run] at h
    split at h
    · rename_i c
      rw [Option.some.injEq] at h
      subst h
      exact .failed c _ rfl
    · exact absurd h (by simp)
  | record =>
    simp only [run] at h
    split at h
    · rename_i c
      rw [Option.some.injEq] at h
      subst h
      exact .accepted c _ rfl
    · exact absurd h (by simp)

/-- The events of a step belong to the call. -/
theorem IngestStep.Effect.callOf (heff : IngestStep.Effect lib pipe call db cache phase o) :
    ∀ ev ∈ o.events, ev.callOf = some call := by
  cases heff with
  | turnedAway req utcNow reason hphase hverify => simp [Event.callOf]
  | started c utcNow hphase hverify => simp [Event.callOf]
  | proceeded c next hphase hnext => simp
  | failed c e hphase => simp [callFailed, Event.callOf]
  | stored c utcNow now draw db' hphase hstore => simp [Event.callOf]
  | storedLost c utcNow now draw db' e hphase hstore => simp [callFailed, Event.callOf]
  | duplicate c row hphase hrow => simp [Event.callOf]
  | accepted c cache' hphase => simp [Event.callOf]

/-- A step that answers `Duplicate` has just found the row of its key. -/
theorem IngestStep.Effect.duplicate_row (heff : IngestStep.Effect lib pipe call db cache phase o)
    {id : ReceiptId} (hev : .returned call (.ok (.duplicate id)) ∈ o.events) :
    ∃ c row, phase.undecided = some c ∧ db.receiptByDedupeKey (c.dedupeKey lib) = some row ∧
      row.receiptId = id := by
  cases heff with
  | duplicate c row hphase hrow =>
    simp only [List.mem_singleton, Event.returned.injEq, Except.ok.injEq,
      IngestResult.duplicate.injEq, true_and] at hev
    exact ⟨c, row, hphase, hrow, hev.symm⟩
  | turnedAway req utcNow reason hphase hverify => simp at hev
  | started c utcNow hphase hverify => simp at hev
  | proceeded c next hphase hnext => simp at hev
  | failed c e hphase => simp [callFailed] at hev
  | stored c utcNow now draw db' hphase hstore => simp at hev
  | storedLost c utcNow now draw db' e hphase hstore => simp [callFailed] at hev
  | accepted c cache' hphase => simp at hev

end Cases

end Hookbox
