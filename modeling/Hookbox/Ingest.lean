/-
# The pipeline over any storage and any dedupe strategy

`HookboxPipeline<S, D>` (`hookbox/src/pipeline.rs`) is generic in its storage and in its dedupe
strategy.  Here `ingest` is the whole call, for any two of them, and the storage and the strategies
that `build_pipeline` puts in are instances.

* `ingest_unadvised`: as long as the strategy answers, the result of a call and what it does to
  the storage are those of a call that asks no strategy at all (`unadvised`).
* `advisory_dedupe_irrelevant`: so two pipelines that differ in their strategy cannot be told
  apart by their results, nor by what their storage was asked.
* `ingest_is_run`: with the production instances, a call is a run of the steps of `Pipeline.lean`.
-/
import Hookbox.System

namespace Hookbox

/-! ## 1. Storage and strategies -/

/-- The `DedupeStrategy` trait: a strategy with a state of its own, that may also look at the
storage. -/
structure DedupeStrategy (σ δ : Type) where
  check : (dedupeKey payloadHash : String) → σ → δ → Except DedupeError DedupeDecision × δ
  record : (dedupeKey payloadHash : String) → σ → δ → Except DedupeError Unit × δ

/-- The part of the `Storage` trait that `ingest` uses. -/
structure Storage (σ : Type) where
  storeWithDeliveries : WebhookReceipt → List String → σ → Except StorageError StoreResult × σ

/-- The calls of `check` never fail. -/
def DedupeStrategy.AlwaysAnswers {σ δ : Type} (strategy : DedupeStrategy σ δ) : Prop :=
  ∀ key hash storage state, ∃ decision, (strategy.check key hash storage state).1 = .ok decision

/-- `InMemoryRecentDedupe` as a strategy. -/
def inMemoryDedupe (σ : Type) : DedupeStrategy σ InMemoryRecentDedupe where
  check key hash _ cache := (.ok (cache.check key hash), cache)
  record key hash _ cache := (.ok (), cache.record key hash)

/-- `StorageDedupe` as a strategy; `failure` is the error its query runs into, if any. -/
def storageDedupe (failure : Option String) : DedupeStrategy Database Unit where
  check key hash db _ :=
    match failure with
    | some msg => (.error (.internal msg), ())
    | none => (.ok (storageDedupeCheck db key hash), ())
  record _ _ _ _ := (.ok (), ())

/-- `LayeredDedupe`. -/
def layeredDedupe {σ φ α : Type} (fast : DedupeStrategy σ φ) (authoritative : DedupeStrategy σ α) :
    DedupeStrategy σ (φ × α) where
  check key hash storage state :=
    match fast.check key hash storage state.1 with
    | (.error e, f) => (.error e, (f, state.2))
    | (.ok .new, f) =>
      match authoritative.check key hash storage state.2 with
      | (answer, a) => (answer, (f, a))
    | (.ok other, f) => (.ok other, (f, state.2))
  record key hash storage state :=
    match fast.record key hash storage state.1 with
    | (.error e, f) => (.error e, (f, state.2))
    | (.ok (), f) =>
      match authoritative.record key hash storage state.2 with
      | (answer, a) => (answer, (f, a))

theorem layeredDedupe_alwaysAnswers {σ φ α : Type} {fast : DedupeStrategy σ φ}
    {authoritative : DedupeStrategy σ α} (hfast : fast.AlwaysAnswers)
    (hauth : authoritative.AlwaysAnswers) :
    (layeredDedupe fast authoritative).AlwaysAnswers := by
  intro key hash storage state
  obtain ⟨decision, hd⟩ := hfast key hash storage state.1
  obtain ⟨answer, ha⟩ := hauth key hash storage state.2
  unfold layeredDedupe
  simp only
  split
  · rename_i heq
    rw [heq] at hd
    exact absurd hd (by simp)
  · exact ⟨answer, ha⟩
  · exact ⟨_, rfl⟩

theorem inMemoryDedupe_alwaysAnswers (σ : Type) : (inMemoryDedupe σ).AlwaysAnswers :=
  fun _ _ _ _ => ⟨_, rfl⟩

theorem storageDedupe_alwaysAnswers : (storageDedupe none).AlwaysAnswers :=
  fun _ _ _ _ => ⟨_, rfl⟩

/-! ## 2. The call -/

/-- What a call is given: the request, the id `ReceiptId::new` draws, and its two readings of the
clock. -/
structure IngestInput where
  req : Request
  receiptId : ReceiptId
  verifyNow : Timestamp
  utcNow : Timestamp

/-- The storage, the state of the strategy, and the calls of `store_with_deliveries` so far. -/
structure World (σ δ : Type) where
  storage : σ
  dedupe : δ
  storeCalls : List (WebhookReceipt × List String) := []

section Call

variable {σ δ : Type} (lib : Libraries) (pipe : Pipeline) (storage : Storage σ)
  (dedupe : DedupeStrategy σ δ)

/-- `HookboxPipeline::ingest`. -/
def ingest (input : IngestInput) (w : World σ δ) :
    Except IngestError IngestResult × World σ δ :=
  match pipe.verify input.verifyNow input.req with
  | .error reason => (.ok (.verificationFailed reason), w)
  | .ok (status, reason) =>
    let c : IngestCall := ⟨input.req, input.receiptId, status, reason⟩
    match dedupe.check (c.dedupeKey lib) (c.payloadHash lib) w.storage w.dedupe with
    | (.error e, d) => (.error (.dedupe e), { w with dedupe := d })
    -- The answer is counted and logged, and decides nothing.
    | (.ok _, d) =>
      let receipt := c.receipt lib input.utcNow
      let storeCalls := w.storeCalls ++ [(receipt, pipe.emitterNames)]
      match storage.storeWithDeliveries receipt pipe.emitterNames w.storage with
      | (.error e, s) => (.error (.storage e), ⟨s, d, storeCalls⟩)
      | (.ok (.duplicate existingId), s) => (.ok (.duplicate existingId), ⟨s, d, storeCalls⟩)
      | (.ok .stored, s) =>
        -- A failed `record` is only logged.
        let d := (dedupe.record (c.dedupeKey lib) (c.payloadHash lib) s d).2
        (.ok (.accepted c.receiptId), ⟨s, d, storeCalls⟩)

/-- A sequence of calls. -/
def ingestAll : List IngestInput → World σ δ → List (Except IngestError IngestResult) × World σ δ
  | [], w => ([], w)
  | input :: inputs, w =>
    match ingest lib pipe storage dedupe input w with
    | (result, w) =>
      match ingestAll inputs w with
      | (results, w) => (result :: results, w)

/-! ## 3. A call that asks nobody -/

/-- What can be seen of a world from outside the strategy. -/
def World.visible (w : World σ δ) : World σ Unit := { w with dedupe := () }

/-- The call without stage 3: verify, store, answer. -/
def unadvised (input : IngestInput) (w : World σ Unit) :
    Except IngestError IngestResult × World σ Unit :=
  match pipe.verify input.verifyNow input.req with
  | .error reason => (.ok (.verificationFailed reason), w)
  | .ok (status, reason) =>
    let c : IngestCall := ⟨input.req, input.receiptId, status, reason⟩
    let receipt := c.receipt lib input.utcNow
    let storeCalls := w.storeCalls ++ [(receipt, pipe.emitterNames)]
    match storage.storeWithDeliveries receipt pipe.emitterNames w.storage with
    | (.error e, s) => (.error (.storage e), ⟨s, (), storeCalls⟩)
    | (.ok (.duplicate existingId), s) => (.ok (.duplicate existingId), ⟨s, (), storeCalls⟩)
    | (.ok .stored, s) => (.ok (.accepted c.receiptId), ⟨s, (), storeCalls⟩)

def unadvisedAll :
    List IngestInput → World σ Unit → List (Except IngestError IngestResult) × World σ Unit
  | [], w => ([], w)
  | input :: inputs, w =>
    match unadvised lib pipe storage input w with
    | (result, w) =>
      match unadvisedAll inputs w with
      | (results, w) => (result :: results, w)

end Call

section Irrelevant

variable {σ δ : Type} {lib : Libraries} {pipe : Pipeline} {storage : Storage σ}
  {dedupe : DedupeStrategy σ δ}

/-- **One call.**  Whatever the strategy answers, as long as it answers, nothing of it can be
seen. -/
theorem ingest_of_answer (pipe : Pipeline) (storage : Storage σ) (input : IngestInput)
    (w : World σ δ)
    (h : ∃ decision, (dedupe.check
      (dedupeKey input.req.provider (computePayloadHash lib input.req.body))
      (computePayloadHash lib input.req.body) w.storage w.dedupe).1 = .ok decision) :
    Prod.map id World.visible (ingest lib pipe storage dedupe input w)
      = unadvised lib pipe storage input w.visible := by
  unfold ingest unadvised
  cases pipe.verify input.verifyNow input.req with
  | error reason => rfl
  | ok verdict =>
    obtain ⟨status, reason⟩ := verdict
    let c : IngestCall := ⟨input.req, input.receiptId, status, reason⟩
    obtain ⟨decision, hd⟩ := h
    simp only [World.visible]
    split
    · rename_i heq
      exact absurd ((congrArg Prod.fst heq).symm.trans hd) (by simp)
    · rcases storage.storeWithDeliveries (c.receipt lib input.utcNow) pipe.emitterNames w.storage
        with ⟨(e | result), st⟩
      · rfl
      · cases result <;> rfl

theorem ingest_unadvised (h : dedupe.AlwaysAnswers) (input : IngestInput) (w : World σ δ) :
    Prod.map id World.visible (ingest lib pipe storage dedupe input w)
      = unadvised lib pipe storage input w.visible :=
  ingest_of_answer pipe storage input w (h _ _ _ _)

/-- **A sequence of calls**, by induction on it. -/
theorem ingestAll_unadvised (h : dedupe.AlwaysAnswers) (inputs : List IngestInput)
    (w : World σ δ) :
    Prod.map id World.visible (ingestAll lib pipe storage dedupe inputs w)
      = unadvisedAll lib pipe storage inputs w.visible := by
  induction inputs generalizing w with
  | nil => rfl
  | cons input inputs ih =>
    rw [unadvisedAll, ← ingest_unadvised h]
    have htail := ih (ingest lib pipe storage dedupe input w).2
    simp only [Prod.map, id] at htail ⊢
    rw [← htail]
    rfl

end Irrelevant

/-! ## 4. The production instances -/

/-- What the environment decides for one call. -/
structure StoreEnv where
  /-- The error of the query of `StorageDedupe`, if it fails. -/
  checkFailure : Option String := none
  now : Timestamp
  draw : Nat → DeliveryId
  outcome : CallOutcome := .ok
  msg : String := ""
  /-- The error of the query that reads the existing id, if it fails. -/
  fetchFailure : Option String := none

/-- `PostgresStorage::store_with_deliveries`, with the read of the existing id. -/
def postgresStorage (env : StoreEnv) : Storage Database where
  storeWithDeliveries receipt emitterNames db :=
    if env.outcome = .failed then (.error (.internal env.msg), db)
    else
      match db.storeWithDeliveries receipt emitterNames env.draw env.now with
      | .error e => (.error e, db)
      | .ok none =>
        if env.outcome = .ok then
          match env.fetchFailure with
          | some msg => (.error (.internal msg), db)
          | none =>
            match db.receiptByDedupeKey receipt.dedupeKey with
            | some row => (.ok (.duplicate row.receiptId), db)
            | none => (.error (.internal
                "no rows returned by a query that expected to return at least one row"), db)
        else (.error (.internal env.msg), db)
      | .ok (some db') =>
        if env.outcome = .ok then (.ok .stored, db') else (.error (.internal env.msg), db')

/-- The strategy of `build_pipeline`. -/
def productionDedupe (env : StoreEnv) : DedupeStrategy Database (InMemoryRecentDedupe × Unit) :=
  layeredDedupe (inMemoryDedupe Database) (storageDedupe env.checkFailure)

/-- What it answers, from the cache and the database.  `check` changes neither. -/
theorem productionDedupe_check (env : StoreEnv) (key hash : String) (db : Database)
    (cache : InMemoryRecentDedupe) :
    (productionDedupe env).check key hash db (cache, ()) =
      (match cache.check key hash with
        | .new =>
          match env.checkFailure with
          | some msg => .error (.internal msg)
          | none => .ok (storageDedupeCheck db key hash)
        | other => .ok other, (cache, ())) := by
  simp only [productionDedupe, layeredDedupe, inMemoryDedupe, storageDedupe]
  cases cache.check key hash with
  | new => cases env.checkFailure <;> rfl
  | duplicate => rfl
  | conflict => rfl

/-- One call on its own, as a machine. -/
def callMachine (lib : Libraries) (pipe : Pipeline) (call : CallId) :
    Lts (Database × InMemoryRecentDedupe × CallPhase) IngestStep Event where
  step s step := (step.run lib pipe call s.1 s.2.1 s.2.2).map fun o => (o.db, o.cache, o.next)
  obs s step := ((step.run lib pipe call s.1 s.2.1 s.2.2).map (·.events)).getD []

/-- A run of one call is a run of the system, in which the other parties wait. -/
theorem exec_call {dep : Deployment} {call : CallId} {steps : List IngestStep} {s : Sys}
    {db : Database} {cache : InMemoryRecentDedupe} {phase : CallPhase}
    (h : (callMachine dep.lib (dep.servers call.server) call).exec
      (s.db, s.caches call.server, s.calls call) steps = some (db, cache, phase)) :
    ∃ s', (system dep).exec s (steps.map (.ingest call)) = some s' ∧ s'.db = db ∧
      s'.caches call.server = cache ∧ s'.calls call = phase := by
  induction steps generalizing s with
  | nil =>
    simp only [Lts.exec_nil, Option.some.injEq, Prod.mk.injEq] at h
    exact ⟨s, rfl, h⟩
  | cons step steps ih =>
    obtain ⟨t, ht, hrest⟩ := Lts.exec_cons_eq_some.mp h
    obtain ⟨o, ho, rfl⟩ := Option.map_eq_some_iff.mp ht
    have hlocal : (o.db, o.cache, o.next) = ((s.afterIngest call o).db,
        (s.afterIngest call o).caches call.server, (s.afterIngest call o).calls call) := by
      simp [Sys.afterIngest]
    rw [hlocal] at hrest
    obtain ⟨s', hs', hrest⟩ := ih hrest
    refine ⟨s', Lts.exec_cons_eq_some.mpr ⟨s.afterIngest call o, ?_, hs'⟩, hrest⟩
    exact Option.map_eq_some_iff.mpr ⟨o, ho, rfl⟩

section Runs

variable (lib : Libraries) (pipe : Pipeline) (call : CallId) (db : Database)
  (cache : InMemoryRecentDedupe) (c : IngestCall) (env : StoreEnv)

/-- The `checkFast` step of a call on its own. -/
theorem callMachine_checkFast :
    (callMachine lib pipe call).step (db, cache, .checking c) .checkFast = some (db, cache,
      match cache.check (c.dedupeKey lib) (c.payloadHash lib) with
      | .new => .checkingStorage c
      | advisory => .storing c advisory) := by
  simp only [callMachine, IngestStep.run]
  cases cache.check (c.dedupeKey lib) (c.payloadHash lib) <;> rfl

/-- The strategy answers, and the call goes on as it says. -/
theorem check_is_run :
    ∃ steps, (callMachine lib pipe call).exec (db, cache, .checking c) steps = some
      (db, cache,
        match ((productionDedupe env).check (c.dedupeKey lib) (c.payloadHash lib) db (cache, ())).1 with
        | .error e => .done (.error (.dedupe e))
        | .ok advisory => .storing c advisory) := by
  have hfast := callMachine_checkFast lib pipe call db cache c
  rw [productionDedupe_check]
  cases hcache : cache.check (c.dedupeKey lib) (c.payloadHash lib) with
  | new =>
    rw [hcache] at hfast
    cases hfailure : env.checkFailure with
    | some msg =>
      refine ⟨[.checkFast, .checkFailed msg], ?_⟩
      rw [Lts.exec_cons, hfast]
      rfl
    | none =>
      refine ⟨[.checkFast, .checkStorage], ?_⟩
      rw [Lts.exec_cons, hfast]
      rfl
  | duplicate =>
    rw [hcache] at hfast
    exact ⟨[.checkFast], by rw [Lts.exec_cons, hfast]; rfl⟩
  | conflict =>
    rw [hcache] at hfast
    exact ⟨[.checkFast], by rw [Lts.exec_cons, hfast]; rfl⟩

/-- The `store` step of a call on its own. -/
theorem callMachine_store (advisory : DedupeDecision) (utcNow now : Timestamp)
    (draw : Nat → DeliveryId) (outcome : CallOutcome) (msg : String) :
    (callMachine lib pipe call).step (db, cache, .storing c advisory)
        (.store utcNow now draw outcome msg) = some
      (if outcome = .failed then (db, cache, .done (.error (.storage (.internal msg))))
      else
        match db.storeWithDeliveries (c.receipt lib utcNow) pipe.emitterNames draw now with
        | .error e => (db, cache, .done (.error (.storage e)))
        | .ok none => (db, cache,
            if outcome = .ok then .fetching c else .done (.error (.storage (.internal msg))))
        | .ok (some db') => (db', cache,
            if outcome = .ok then .recording c else .done (.error (.storage (.internal msg))))) := by
  simp only [callMachine, IngestStep.run]
  split
  · rfl
  · cases db.storeWithDeliveries (c.receipt lib utcNow) pipe.emitterNames draw now with
    | error e => rfl
    | ok stored =>
      cases stored with
      | none => dsimp only; split <;> rfl
      | some db' => dsimp only; split <;> rfl

/-- The `fetchExisting` step of a call on its own. -/
theorem callMachine_fetchExisting :
    (callMachine lib pipe call).step (db, cache, .fetching c) .fetchExisting = some (db, cache, .done
      (match db.receiptByDedupeKey (c.dedupeKey lib) with
      | some row => .ok (.duplicate row.receiptId)
      | none => .error (.storage (.internal
          "no rows returned by a query that expected to return at least one row")))) := by
  simp only [callMachine, IngestStep.run]
  cases db.receiptByDedupeKey (c.dedupeKey lib) <;> rfl

/-- The rest of a call, once the strategy has answered. -/
theorem store_is_run (utcNow : Timestamp) (advisory : DedupeDecision) :
    ∃ steps, (callMachine lib pipe call).exec (db, cache, .storing c advisory) steps = some
      (match (postgresStorage env).storeWithDeliveries (c.receipt lib utcNow) pipe.emitterNames db with
        | (.error e, db) => (db, cache, .done (.error (.storage e)))
        | (.ok (.duplicate id), db) => (db, cache, .done (.ok (.duplicate id)))
        | (.ok .stored, db) => (db, cache.record (c.dedupeKey lib) (c.payloadHash lib),
            .done (.ok (.accepted c.receiptId)))) := by
  have hstore := callMachine_store lib pipe call db cache c advisory utcNow env.now env.draw
    env.outcome env.msg
  let store := IngestStep.store utcNow env.now env.draw env.outcome env.msg
  simp only [postgresStorage]
  by_cases hfailed : env.outcome = .failed
  · rw [if_pos hfailed] at hstore ⊢
    exact ⟨[store], by rw [Lts.exec_cons, hstore]; rfl⟩
  · rw [if_neg hfailed] at hstore ⊢
    cases hdb : db.storeWithDeliveries (c.receipt lib utcNow) pipe.emitterNames env.draw env.now with
    | error e =>
      rw [hdb] at hstore
      exact ⟨[store], by rw [Lts.exec_cons, hstore]; rfl⟩
    | ok stored =>
      rw [hdb] at hstore
      by_cases hok : env.outcome = .ok
      · cases stored with
        | none =>
          simp only [if_pos hok] at hstore ⊢
          cases hfetch : env.fetchFailure with
          | some msg =>
            refine ⟨[store, .fetchFailed msg], ?_⟩
            rw [Lts.exec_cons, hstore]
            rfl
          | none =>
            refine ⟨[store, .fetchExisting], ?_⟩
            rw [Lts.exec_cons, hstore, Option.bind_some, Lts.exec_cons, callMachine_fetchExisting,
              Option.bind_some, Lts.exec_nil]
            have hkey : (c.receipt lib utcNow).dedupeKey = c.dedupeKey lib := rfl
            rw [hkey]
            cases db.receiptByDedupeKey (c.dedupeKey lib) <;> rfl
        | some db' =>
          simp only [if_pos hok] at hstore ⊢
          refine ⟨[store, .record], ?_⟩
          rw [Lts.exec_cons, hstore]
          rfl
      · refine ⟨[store], ?_⟩
        rw [Lts.exec_cons]
        cases stored with
        | none =>
          simp only [if_neg hok] at hstore ⊢
          rw [hstore]
          rfl
        | some db' =>
          simp only [if_neg hok] at hstore ⊢
          rw [hstore]
          rfl

/-- What a world of the production instances is to the machine of a call that has returned. -/
def World.returned (out : Except IngestError IngestResult × World Database (InMemoryRecentDedupe × Unit)) :
    Database × InMemoryRecentDedupe × CallPhase :=
  (out.2.storage, out.2.dedupe.1, .done out.1)

theorem ingest_is_callRun (input : IngestInput) :
    ∃ steps, (callMachine lib pipe call).exec (db, cache, .idle) steps = some
      (World.returned (ingest lib pipe (postgresStorage env) (productionDedupe env) input
        ⟨db, (cache, ()), []⟩)) := by
  unfold ingest
  cases hv : pipe.verify input.verifyNow input.req with
  | error reason =>
    refine ⟨[.start input.req input.receiptId input.verifyNow], ?_⟩
    simp [Lts.exec, callMachine, IngestStep.run, hv, World.returned]
  | ok verdict =>
    obtain ⟨status, reason⟩ := verdict
    let c : IngestCall := ⟨input.req, input.receiptId, status, reason⟩
    have hstart : (callMachine lib pipe call).step (db, cache, .idle)
        (.start input.req input.receiptId input.verifyNow) = some (db, cache, .checking c) := by
      simp [callMachine, IngestStep.run, hv, c]
    obtain ⟨check, hcheck⟩ := check_is_run lib pipe call db cache c env
    have hstate := congrArg Prod.snd
      (productionDedupe_check env (c.dedupeKey lib) (c.payloadHash lib) db cache)
    simp only
    rcases hanswer : (productionDedupe env).check (c.dedupeKey lib) (c.payloadHash lib) db (cache, ())
      with ⟨answer, d⟩
    rw [hanswer] at hstate hcheck
    obtain rfl : d = (cache, ()) := hstate
    cases answer with
    | error e =>
      refine ⟨.start input.req input.receiptId input.verifyNow :: check, ?_⟩
      rw [Lts.exec_cons, hstart, Option.bind_some, hcheck]
      rfl
    | ok advisory =>
      obtain ⟨store, hstore⟩ := store_is_run lib pipe call db cache c env input.utcNow
        advisory
      refine ⟨.start input.req input.receiptId input.verifyNow :: (check ++ store), ?_⟩
      rw [Lts.exec_cons, hstart, Option.bind_some, Lts.exec_append, hcheck, Option.bind_some, hstore]
      rcases (postgresStorage env).storeWithDeliveries (c.receipt lib input.utcNow) pipe.emitterNames db
        with ⟨(e | result), db'⟩
      · rfl
      · cases result <;> rfl

end Runs

/-- **A call is a run.**  With the storage and the strategy that `build_pipeline` puts in, what
`ingest` computes is what the steps of the call come to when nobody else moves. -/
theorem ingest_is_run {dep : Deployment} {s : Sys} {call : CallId} (env : StoreEnv) (hidle : s.calls call = .idle)
    (input : IngestInput) :
    ∃ (steps : List IngestStep) (s' : Sys),
      (system dep).exec s (steps.map (.ingest call)) = some s' ∧
      (s'.db, s'.caches call.server, s'.calls call) = World.returned
        (ingest dep.lib (dep.servers call.server) (postgresStorage env) (productionDedupe env) input
          ⟨s.db, (s.caches call.server, ()), []⟩) := by
  obtain ⟨steps, hsteps⟩ := ingest_is_callRun dep.lib (dep.servers call.server) call s.db
    (s.caches call.server) env input
  rw [← hidle] at hsteps
  obtain ⟨s', hs', hdb, hcache, hphase⟩ := exec_call hsteps
  refine ⟨steps, s', hs', ?_⟩
  rw [hdb, hcache, hphase]
  rfl

/-- **Irrelevance of advisory dedupe.**  Take any verifiers, any storage and any two strategies
whose `check` always answers, whatever it answers and whatever `record` returns.  From the same
storage, every sequence of calls gives the same results and the same calls of
`store_with_deliveries`, and leaves the same storage. -/
theorem advisory_dedupe_irrelevant {σ δ₁ δ₂ : Type} (lib : Libraries) (pipe : Pipeline)
    (storage : Storage σ) {dedupe₁ : DedupeStrategy σ δ₁} {dedupe₂ : DedupeStrategy σ δ₂}
    (h₁ : dedupe₁.AlwaysAnswers) (h₂ : dedupe₂.AlwaysAnswers) (inputs : List IngestInput) (s : σ)
    (d₁ : δ₁) (d₂ : δ₂) :
    (ingestAll lib pipe storage dedupe₁ inputs ⟨s, d₁, []⟩).1
        = (ingestAll lib pipe storage dedupe₂ inputs ⟨s, d₂, []⟩).1 ∧
    (ingestAll lib pipe storage dedupe₁ inputs ⟨s, d₁, []⟩).2.storeCalls
        = (ingestAll lib pipe storage dedupe₂ inputs ⟨s, d₂, []⟩).2.storeCalls ∧
    (ingestAll lib pipe storage dedupe₁ inputs ⟨s, d₁, []⟩).2.storage
        = (ingestAll lib pipe storage dedupe₂ inputs ⟨s, d₂, []⟩).2.storage := by
  have hsame : Prod.map id World.visible (ingestAll lib pipe storage dedupe₁ inputs ⟨s, d₁, []⟩)
      = Prod.map id World.visible (ingestAll lib pipe storage dedupe₂ inputs ⟨s, d₂, []⟩) := by
    rw [ingestAll_unadvised h₁, ingestAll_unadvised h₂]
    rfl
  have hworld := congrArg Prod.snd hsame
  exact ⟨congrArg Prod.fst hsame, congrArg World.storeCalls hworld, congrArg World.storage hworld⟩

/-- A strategy that takes everything for a conflict and fails to record. -/
def contrarian : DedupeStrategy Database Unit where
  check _ _ _ _ := (.ok .conflict, ())
  record _ _ _ _ := (.error (.internal "full"), ())

/-- An environment in which nothing fails. -/
def quietEnv : StoreEnv where
  now := 0
  draw i := ⟨BitVec.ofNat 128 i⟩

/-- The same request twice. -/
def sentTwice : List IngestInput :=
  [⟨⟨"acme", [], []⟩, ⟨1⟩, 0, 0⟩, ⟨⟨"acme", [], []⟩, ⟨2⟩, 0, 0⟩]

/-- The strategy of `build_pipeline` and `contrarian` come to the same: accepted once, and then a
duplicate. -/
theorem advisory_dedupe_irrelevant_contrarian :
    (ingestAll sampleLib (sampleDep.servers 0) (postgresStorage quietEnv)
        (productionDedupe quietEnv) sentTwice ⟨.empty, (⟨100, ∅, []⟩, ()), []⟩).1
      = [.ok (.accepted ⟨1⟩), .ok (.duplicate ⟨1⟩)] ∧
    (ingestAll sampleLib (sampleDep.servers 0) (postgresStorage quietEnv) contrarian sentTwice
        ⟨.empty, (), []⟩).1
      = [.ok (.accepted ⟨1⟩), .ok (.duplicate ⟨1⟩)] := by
  have hproduction : (productionDedupe quietEnv).AlwaysAnswers :=
    layeredDedupe_alwaysAnswers (inMemoryDedupe_alwaysAnswers _) storageDedupe_alwaysAnswers
  have hcontrarian : contrarian.AlwaysAnswers := fun _ _ _ _ => ⟨_, rfl⟩
  have hresults : (ingestAll sampleLib (sampleDep.servers 0) (postgresStorage quietEnv)
      (productionDedupe quietEnv) sentTwice ⟨.empty, (⟨100, ∅, []⟩, ()), []⟩).1
      = [.ok (.accepted ⟨1⟩), .ok (.duplicate ⟨1⟩)] := rfl
  refine ⟨hresults, ?_⟩
  rw [← hresults]
  exact (advisory_dedupe_irrelevant sampleLib (sampleDep.servers 0) (postgresStorage quietEnv)
    hcontrarian hproduction sentTwice .empty () (⟨100, ∅, []⟩, ())).1

end Hookbox
