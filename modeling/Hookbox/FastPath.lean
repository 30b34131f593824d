/-
# The fast path of the dedupe check

`LayeredDedupe` asks the in-memory cache first and the database only when the cache knows nothing.
Each server instance has a cache of its own, filled after the commit and emptied by evictions, so
agreement of the two answers is not local to a call: it rests on an invariant over all instances
and all calls under way.

* `Sys.Backed`: every cached entry, and every entry about to be cached, is backed by a receipt with
  that key and that hash.  Receipts are never removed, so nothing invalidates an entry.
* `fast_path_agrees`: the layered answer is the answer of the database, and never `Conflict`.
-/
import Hookbox.Acceptance

namespace Hookbox

/-! ## 1. The layered check and the cache -/

/-- `LayeredDedupe::check`, over an `InMemoryRecentDedupe` and a `StorageDedupe`. -/
def layeredDedupeCheck (cache : InMemoryRecentDedupe) (db : Database)
    (dedupeKey payloadHash : String) : DedupeDecision :=
  match cache.check dedupeKey payloadHash with
  | .new => storageDedupeCheck db dedupeKey payloadHash
  | other => other

/-- What `record` leaves in the cache was there before, or is the new entry. -/
theorem InMemoryRecentDedupe.of_record {cache : InMemoryRecentDedupe} {key hash k h : String}
    (hk : (cache.record key hash).map[k]? = some h) :
    cache.map[k]? = some h ∨ (k = key ∧ h = hash) := by
  -- Whatever is evicted to make room, nothing else is changed.
  have hinsert : ∀ evicted : Std.ExtTreeMap String String,
      (∀ k h : String, evicted[k]? = some h → cache.map[k]? = some h) →
      (evicted.insert key hash)[k]? = some h → cache.map[k]? = some h ∨ (k = key ∧ h = hash) := by
    intro evicted hev hk
    rw [Std.ExtTreeMap.getElem?_insert] at hk
    split at hk
    · rename_i heq
      exact Or.inr ⟨(Std.LawfulEqCmp.eq_of_compare heq).symm, (Option.some.inj hk).symm⟩
    · exact Or.inl (hev k h hk)
  unfold record at hk
  split at hk
  · exact Or.inl hk
  · split at hk
    · split at hk
      · refine hinsert _ (fun k' h' hk' => ?_) hk
        rw [Std.ExtTreeMap.getElem?_erase] at hk'
        split at hk'
        · exact absurd hk' (by simp)
        · exact hk'
      · exact hinsert _ (fun _ _ hk' => hk') hk
    · exact hinsert _ (fun _ _ hk' => hk') hk

/-- A step leaves the cache alone, or it is the `record` after a commit. -/
theorem IngestStep.cache_cases {lib : Libraries} {pipe : Pipeline} {call : CallId} {db : Database}
    {cache : InMemoryRecentDedupe} {phase : CallPhase} {step : IngestStep} {o : IngestOutcome}
    (h : step.run lib pipe call db cache phase = some o) :
    o.cache = cache ∨ ∃ c, phase = .recording c ∧
      o.cache = cache.record (c.dedupeKey lib) (c.payloadHash lib) := by
  cases step with
  | record =>
    simp only [run] at h
    split at h
    · rename_i c
      rw [Option.some.injEq] at h
      subst h
      exact Or.inr ⟨c, rfl, rfl⟩
    · exact absurd h (by simp)
  | _ =>
    left
    simp only [run] at h
    repeat' split at h
    all_goals cases h <;> rfl

/-! ## 2. Backed entries -/

/-- A receipt as `ingest` stores it: its key and its hash are computed from provider and body. -/
structure ReceiptRow.Hashed (lib : Libraries) (row : ReceiptRow) : Prop where
  canonical : row.Canonical lib
  payloadHash : row.payloadHash = computePayloadHash lib row.rawBody

/-- Some receipt has this key and this hash. -/
def Database.Backs (db : Database) (key hash : String) : Prop :=
  ∃ row ∈ db.receipts.rows, row.dedupeKey = key ∧ row.payloadHash = hash

/-- **The invariant**: what is cached, or will be cached by a call under way, is stored. -/
structure Sys.Backed (lib : Libraries) (s : Sys) : Prop where
  cached : ∀ i k h, (s.caches i).map[k]? = some h → s.db.Backs k h
  recording : ∀ call c, s.calls call = .recording c →
    s.db.Backs (c.dedupeKey lib) (c.payloadHash lib)

theorem Database.Backs.mono {db db' : Database} (hr : db.SameReceipts db') {key hash : String}
    (h : db.Backs key hash) : db'.Backs key hash := by
  obtain ⟨row, hrow, rfl, rfl⟩ := h
  obtain ⟨row', hrow', hc⟩ := hr row hrow
  exact ⟨row', hrow', congrArg (·.dedupeKey) hc, congrArg (·.payloadHash) hc⟩

/-- A call is about to record only what it has just committed. -/
theorem IngestStep.Effect.backs {lib : Libraries} {pipe : Pipeline} {call : CallId}
    {db : Database} {cache : InMemoryRecentDedupe} {phase : CallPhase} {o : IngestOutcome}
    (heff : IngestStep.Effect lib pipe call db cache phase o) {c : IngestCall}
    (hnext : o.next = .recording c) : o.db.Backs (c.dedupeKey lib) (c.payloadHash lib) := by
  cases heff with
  | stored c' utcNow now draw db' hphase hstore =>
    obtain rfl : c' = c := by simpa using hnext
    obtain ⟨-, -, hrows, -⟩ := Database.storeWithDeliveries_spec hstore
    refine ⟨(c'.receipt lib utcNow).toRow, ?_, rfl, rfl⟩
    rw [hrows]
    exact List.mem_append_right _ List.mem_cons_self
  | proceeded c' next hphase hundecided =>
    simp only at hnext
    subst hnext
    exact absurd hundecided (by simp [CallPhase.undecided])
  | turnedAway => simp at hnext
  | started => simp at hnext
  | failed => simp [callFailed] at hnext
  | storedLost => simp [callFailed] at hnext
  | duplicate => simp at hnext
  | accepted => simp at hnext

theorem Sys.Backed.step {dep : Deployment} {s s' : Sys} {l : Label} (hs : s.Backed dep.lib)
    (hstep : (system dep).step s l = some s') : s'.Backed dep.lib := by
  have hsame := (system_step_cases hstep).sameReceipts
  cases l with
  | worker i step =>
    obtain ⟨o, -, rfl, -⟩ := system_worker hstep
    exact ⟨fun i k h hk => (hs.cached i k h hk).mono hsame,
      fun call c hc => (hs.recording call c hc).mono hsame⟩
  | admin a =>
    obtain ⟨db, -, rfl, -⟩ := system_admin hstep
    exact ⟨fun i k h hk => (hs.cached i k h hk).mono hsame,
      fun call c hc => (hs.recording call c hc).mono hsame⟩
  | ingest call step =>
    obtain ⟨o, ho, rfl⟩ := Option.map_eq_some_iff.mp hstep
    constructor
    · intro i k h hk
      refine Database.Backs.mono hsame ?_
      by_cases hi : i = call.server
      · subst hi
        simp only [afterIngest, Function.update_self] at hk
        rcases IngestStep.cache_cases ho with heq | ⟨c, hphase, heq⟩
        · rw [heq] at hk
          exact hs.cached _ k h hk
        · rw [heq] at hk
          rcases InMemoryRecentDedupe.of_record hk with hk | ⟨rfl, rfl⟩
          · exact hs.cached _ k h hk
          · exact hs.recording call c hphase
      · simp only [afterIngest, Function.update_of_ne hi] at hk
        exact hs.cached i k h hk
    · intro call' c hc
      by_cases hcall : call' = call
      · subst hcall
        simp only [afterIngest, Function.update_self] at hc
        exact (IngestStep.run_cases ho).backs hc
      · simp only [afterIngest, Function.update_of_ne hcall] at hc
        exact (hs.recording call' c hc).mono hsame

section Runs

variable {dep : Deployment} {db : Database} {ls : List Label} {s : Sys}
  (h : (system dep).exec (.start dep db) ls = some s)

include h

/-- **Every cached entry is backed**, on every run. -/
theorem system_backed : s.Backed dep.lib := by
  have hstart : (Sys.start dep db).Backed dep.lib := by
    constructor
    · intro i k h hk
      simp [Sys.start] at hk
    · intro call c hc
      simp [Sys.start] at hc
  exact Lts.exec_invariant (I := fun s => s.Backed dep.lib) hstart
    (fun s l s' hs hstep => hs.step hstep) h

/-- A run keeps the receipts hashed. -/
theorem system_hashed (hdb : ∀ r ∈ db.receipts.rows, r.Hashed dep.lib) {row : ReceiptRow}
    (hrow : row ∈ s.db.receipts.rows) : row.Hashed dep.lib := by
  refine ⟨system_canonical h (fun r hr => (hdb r hr).canonical) hrow, ?_⟩
  rcases system_row_origin h hrow with ⟨r, hr, hc⟩ | ⟨call, receipt, names, hev, hc⟩
  · have hhash : r.payloadHash = row.payloadHash := congrArg (·.payloadHash) hc
    have hbody : r.rawBody = row.rawBody := congrArg (·.rawBody) hc
    rw [← hhash, ← hbody]
    exact (hdb r hr).payloadHash
  · obtain ⟨c, utcNow, receivedAt, -, -, rfl, -⟩ := system_stored_request h hev
    have hhash : row.payloadHash = c.payloadHash dep.lib := congrArg (·.payloadHash) hc
    have hbody : row.rawBody = c.req.body := congrArg (·.rawBody) hc
    rw [hhash, hbody]
    rfl

end Runs

/-! ## 3. Agreement -/

/-- Among hashed receipts, the key of a pair belongs to the hash of the pair. -/
theorem ReceiptRow.Hashed.hash_of_key {lib : Libraries} {row : ReceiptRow} (h : row.Hashed lib)
    {provider : String} {body : Bytes}
    (hkey : row.dedupeKey = Hookbox.dedupeKey provider (computePayloadHash lib body)) :
    row.payloadHash = computePayloadHash lib body := by
  have hcan := h.canonical
  rw [Canonical, hkey] at hcan
  obtain ⟨-, hsha⟩ := dedupeKey_injective hcan
  rw [h.payloadHash, computePayloadHash, computePayloadHash, hsha]

/-- What the database answers for the key of a pair, when all its receipts are hashed. -/
theorem storageDedupeCheck_of_hashed {lib : Libraries} {db : Database}
    (hdb : ∀ r ∈ db.receipts.rows, r.Hashed lib) (provider : String) (body : Bytes) :
    storageDedupeCheck db (dedupeKey provider (computePayloadHash lib body))
        (computePayloadHash lib body)
      = if dedupeKey provider (computePayloadHash lib body)
          ∈ db.receipts.rows.map ReceiptRow.dedupeKey then .duplicate else .new := by
  unfold storageDedupeCheck
  cases hrow : db.receiptByDedupeKey (dedupeKey provider (computePayloadHash lib body)) with
  | none =>
    have hno : dedupeKey provider (computePayloadHash lib body)
        ∉ db.receipts.rows.map ReceiptRow.dedupeKey := by
      intro hmem
      obtain ⟨r, hr, hkey⟩ := List.mem_map.mp hmem
      have := List.find?_eq_none.mp hrow r hr
      exact this (decide_eq_true hkey)
    rw [if_neg hno]
    rfl
  | some row =>
    have hmem : row ∈ db.receipts.rows := List.mem_of_find?_eq_some hrow
    have hkey : row.dedupeKey = dedupeKey provider (computePayloadHash lib body) := by
      simpa using List.find?_some hrow
    rw [if_pos (hkey ▸ List.mem_map_of_mem hmem), Option.map_some, dedupeDecision,
      if_pos ((hdb row hmem).hash_of_key hkey)]

/-- **The fast path agrees with the authoritative one.**  Start any number of servers, with caches
of any capacity, on a database whose receipts are as `ingest` stores them.  In every state that any
interleaving of their calls leads to, for every server, provider and body: the layered check
answers what the check of the database alone answers, and that is never `Conflict`. -/
theorem fast_path_agrees {dep : Deployment} {db : Database}
    (hdb : ∀ r ∈ db.receipts.rows, r.Hashed dep.lib) {ls : List Label} {s : Sys}
    (h : (system dep).exec (.start dep db) ls = some s) (i : ServerId) (provider : String)
    (body : Bytes) :
    layeredDedupeCheck (s.caches i) s.db (dedupeKey provider (computePayloadHash dep.lib body))
        (computePayloadHash dep.lib body)
      = storageDedupeCheck s.db (dedupeKey provider (computePayloadHash dep.lib body))
        (computePayloadHash dep.lib body) ∧
    storageDedupeCheck s.db (dedupeKey provider (computePayloadHash dep.lib body))
        (computePayloadHash dep.lib body) ≠ .conflict := by
  have hhashed : ∀ r ∈ s.db.receipts.rows, r.Hashed dep.lib := fun r hr => system_hashed h hdb hr
  have hstorage := storageDedupeCheck_of_hashed hhashed provider body
  rw [hstorage]
  constructor
  · unfold layeredDedupeCheck InMemoryRecentDedupe.check
    cases hcached : (s.caches i).map[dedupeKey provider (computePayloadHash dep.lib body)]? with
    | none => exact hstorage
    | some stored =>
      -- A cached entry is backed by a receipt, whose hash is the one asked for.
      obtain ⟨row, hrow, hkey, rfl⟩ := (system_backed h).cached i _ _ hcached
      rw [dedupeDecision, if_pos ((hhashed row hrow).hash_of_key hkey),
        if_pos (hkey ▸ List.mem_map_of_mem hrow)]
  · split <;> simp

/-- One accepted request is in the cache of its server and not in that of another, and both
answer alike. -/
theorem fast_path_agrees_two_servers :
    ∃ s, (system sampleDep).exec (.start sampleDep .empty) acceptOne = some s ∧
      (s.caches 0).map.contains (dedupeKey "acme" (computePayloadHash sampleLib [])) = true ∧
      (s.caches 1).map.contains (dedupeKey "acme" (computePayloadHash sampleLib [])) = false ∧
      ∀ i, layeredDedupeCheck (s.caches i) s.db
          (dedupeKey "acme" (computePayloadHash sampleLib [])) (computePayloadHash sampleLib [])
        = storageDedupeCheck s.db (dedupeKey "acme" (computePayloadHash sampleLib []))
          (computePayloadHash sampleLib []) := by
  refine ⟨_, rfl, ?_, ?_, fun i => ?_⟩
  · decide
  · decide
  · have hempty : ∀ r ∈ Database.empty.receipts.rows, r.Hashed sampleDep.lib := by
      intro r hr
      simp [Database.empty] at hr
    have hrun : (system sampleDep).exec (.start sampleDep .empty) acceptOne = some _ := rfl
    exact (fast_path_agrees hempty hrun i "acme" []).1

end Hookbox
