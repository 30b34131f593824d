/-
# What PostgreSQL accepts

The body of a webhook is stored three times: as bytes, as the text of its hash, and, when it is
JSON, as a document.  `BYTEA` takes every byte string.  `TEXT` refuses a NUL character, and `JSONB`
refuses a document with U+0000 in a string or in a key, although `\u0000` is a valid JSON escape
that `serde_json` decodes.

`boundStorage` is `store_with_deliveries` on a database that fails for no other reason.

* `receipt_bindable_iff`: of everything the pipeline binds, only the parsed payload can be refused.
* `authentic_stored_iff`: an authentic webhook is stored, or found stored, exactly when its body is
  not JSON or is JSON without U+0000.
* `authentic_refused`: an authentic body that no retry can get stored.
-/
import Hookbox.Startup
import Hookbox.Ingest

namespace Hookbox

/-! ## 1. Text and documents -/

/-- No character is a NUL: what `TEXT` accepts. -/
def nulFree (s : String) : Bool := decide (Char.ofNat 0 ∉ s.toList)

mutual

/-- No string and no key has a NUL: what `JSONB` accepts. -/
def Json.nulFree : Json → Bool
  | .null => true
  | .bool _ => true
  | .num _ => true
  | .str s => Hookbox.nulFree s
  | .arr elems => nulFreeElems elems
  | .obj fields => nulFreeFields fields

def Json.nulFreeElems : List Json → Bool
  | [] => true
  | j :: js => j.nulFree && Json.nulFreeElems js

def Json.nulFreeFields : List (String × Json) → Bool
  | [] => true
  | (k, v) :: fields => Hookbox.nulFree k && v.nulFree && Json.nulFreeFields fields

end

/-- Every value the `INSERT` into `webhook_receipts` binds is accepted by its column. -/
def ReceiptRow.bindable (r : ReceiptRow) : Bool :=
  [r.providerName, r.dedupeKey, r.payloadHash, r.verificationStatus, r.processingState].all nulFree &&
    [r.providerEventId, r.externalReference, r.normalizedEventType, r.verificationReason,
      r.lastError].all (fun text => text.all nulFree) &&
    r.parsedPayload.all Json.nulFree && r.rawHeaders.nulFree && r.metadata.nulFree

/-! ## 2. A healthy database -/

section Healthy

variable (rejection : String) (draw : Nat → DeliveryId) (now : Timestamp)

/-- `store_with_deliveries` where only a bound value can be refused; `rejection` is the text of
that error. -/
def boundStorage : Storage Database where
  storeWithDeliveries receipt emitterNames db :=
    if receipt.toRow.bindable then
      match (postgresStorage { now := now, draw := draw }).storeWithDeliveries receipt emitterNames db
        with
      -- The names are bound once the receipt is in.
      | (.ok .stored, db') =>
        if emitterNames.all nulFree then (.ok .stored, db') else (.error (.internal rejection), db)
      | other => other
    else (.error (.internal rejection), db)

/-- `StorageDedupe`, whose query binds the key. -/
def boundDedupe : DedupeStrategy Database Unit where
  check key hash db _ :=
    if nulFree key then (.ok (storageDedupeCheck db key hash), ())
    else (.error (.internal rejection), ())
  record _ _ _ _ := (.ok (), ())

/-- `ingest` of a server on that database. -/
def healthyIngest (lib : Libraries) (pipe : Pipeline) (input : IngestInput) (db : Database)
    (cache : InMemoryRecentDedupe) : Except IngestError IngestResult :=
  (ingest lib pipe (boundStorage rejection draw now)
    (layeredDedupe (inMemoryDedupe Database) (boundDedupe rejection)) input
    ⟨db, (cache, ()), []⟩).1

end Healthy

/-! ## 3. What the pipeline binds -/

theorem nulFree_iff {s : String} : nulFree s = true ↔ Char.ofNat 0 ∉ s.toList :=
  decide_eq_true_iff

theorem nulFree_append {s t : String} : nulFree (s ++ t) = (nulFree s && nulFree t) := by
  simp [nulFree, not_or]

theorem nulFree_hexEncode (bs : Bytes) : nulFree (hexEncode bs) = true := by
  rw [nulFree_iff, hexEncode, String.toList_ofList]
  intro h
  exact absurd (isAlphanum_of_mem_digits h) (by decide)

theorem nulFree_dedupeKey {provider : String} (h : nulFree provider = true) (bs : Bytes) :
    nulFree (dedupeKey provider (hexEncode bs)) = true := by
  rw [dedupeKey, nulFree_append, nulFree_append, h, nulFree_hexEncode]
  rfl

theorem nulFree_intercalate {xs : List String} (h : ∀ x ∈ xs, nulFree x = true) :
    nulFree (", ".intercalate xs) = true := by
  induction xs with
  | nil => decide
  | cons x xs ih =>
    obtain ⟨hx, hxs⟩ := List.forall_mem_cons.mp h
    by_cases hnil : xs = []
    · subst hnil
      simpa using hx
    · rw [String.intercalate_cons_of_ne_nil hnil, nulFree_append, nulFree_append, hx, ih hxs]
      rfl

/-- A text that `to_str` lets through has no NUL. -/
theorem nulFree_of_toStr {bytes text : Bytes} (h : toStr bytes = some text) :
    nulFree (String.ofList (text.map fun b => Char.ofNat b.toNat)) = true := by
  unfold toStr at h
  split at h
  · rename_i hall
    rw [Option.some.injEq] at h
    subst h
    rw [nulFree_iff, String.toList_ofList]
    intro hmem
    obtain ⟨b, hb, hchar⟩ := List.mem_map.mp hmem
    have hb := List.all_eq_true.mp hall b hb
    have hrange : 0 < b.toNat ∧ b.toNat < 128 := by
      simp only [Bool.or_eq_true, Bool.and_eq_true, decide_eq_true_eq, beq_iff_eq,
        UInt8.le_iff_toNat_le, UInt8.lt_iff_toNat_lt] at hb
      rcases hb with ⟨hlo, hhi⟩ | rfl
      · exact ⟨Nat.lt_of_lt_of_le (by decide) hlo, Nat.lt_trans hhi (by decide)⟩
      · decide
    have hne : ∀ n : Fin 128, 0 < n.val → Char.ofNat n ≠ Char.ofNat 0 := by decide
    exact hne ⟨b.toNat, hrange.2⟩ hrange.1 hchar
  · exact absurd h (by simp)

theorem nulFreeFields_map {α : Type} {xs : List α} {field : α → String × Json}
    (h : ∀ x ∈ xs, nulFree (field x).1 = true ∧ (field x).2.nulFree = true) :
    Json.nulFreeFields (xs.map field) = true := by
  induction xs with
  | nil => rfl
  | cons x xs ih =>
    obtain ⟨⟨hk, hv⟩, hxs⟩ := List.forall_mem_cons.mp h
    rw [List.map_cons, Json.nulFreeFields, hk, hv, ih hxs]
    rfl

/-- `http` only builds header names out of token characters. -/
def HeaderMap.Tokens (headers : HeaderMap) : Prop := ∀ h ∈ headers, nulFree h.1 = true

theorem nulFree_headersToJson {headers : HeaderMap} (h : headers.Tokens) :
    (headersToJson headers).nulFree = true := by
  rw [headersToJson, Json.nulFree]
  refine nulFreeFields_map fun key hkey => ?_
  obtain ⟨header, hheader, rfl⟩ := List.mem_map.mp (List.mem_eraseDups.mp hkey)
  refine ⟨h header hheader, ?_⟩
  rw [Json.nulFree]
  refine nulFree_intercalate fun x hx => ?_
  obtain ⟨v, hv, rfl⟩ := List.mem_map.mp hx
  obtain ⟨bytes, -, hstr⟩ := List.mem_filterMap.mp hv
  exact nulFree_of_toStr hstr

/-- **Only the parsed payload can be refused**, of everything a receipt of the pipeline binds. -/
theorem receipt_bindable_eq (lib : Libraries) {c : IngestCall} (utcNow : Timestamp)
    (hprovider : nulFree c.req.provider = true) (hheaders : c.req.headers.Tokens)
    (hreason : c.verificationReason.all nulFree = true) :
    (c.receipt lib utcNow).toRow.bindable = (lib.parseJson c.req.body).all Json.nulFree := by
  have hstatus : nulFree c.verificationStatus.text = true := by
    cases c.verificationStatus <;> decide
  have hstored : nulFree ProcessingState.stored.text = true := by decide
  have hkey : nulFree (c.dedupeKey lib) = true := nulFree_dedupeKey hprovider _
  have hhash : nulFree (c.payloadHash lib) = true := nulFree_hexEncode _
  have hmetadata : (Json.obj []).nulFree = true := rfl
  simp only [ReceiptRow.bindable, WebhookReceipt.toRow, IngestCall.receipt, List.all_cons,
    List.all_nil, hprovider, hkey, hhash, hstatus, hstored, hreason, Option.all_none,
    nulFree_headersToJson hheaders, hmetadata, Bool.and_true, Bool.true_and]

/-! ## 4. Authentic webhooks -/

/-- The verifier of the provider is absent, or answers `Verified`. -/
def Pipeline.Authentic (pipe : Pipeline) (input : IngestInput) : Prop :=
  ∀ v, pipe.verifiers[input.req.provider]? = some v →
    (v.verify input.verifyNow input.req.headers input.req.body).status = .verified

/-- A server from a validated configuration lets an authentic webhook through, for a reason that
can be stored. -/
theorem Pipeline.Authentic.verify_ok {crypto : Crypto} {cfg : HookboxConfig} {pipe : Pipeline}
    (hpipe : buildPipeline crypto cfg = .ok pipe) {input : IngestInput}
    (h : pipe.Authentic input) :
    ∃ status reason, pipe.verify input.verifyNow input.req = .ok (status, reason) ∧
      reason.all nulFree = true := by
  obtain ⟨vs, hvs, rfl⟩ := buildPipeline_spec hpipe
  have hfind := verifiers_getElem? hvs input.req.provider
  unfold Pipeline.verify
  cases hentry : cfg.providers[input.req.provider]? with
  | none =>
    rw [hentry] at hfind
    simp only [hfind]
    exact ⟨.skipped, some "no_verifier_configured", rfl, by decide⟩
  | some entry =>
    rw [hentry] at hfind
    obtain ⟨v, hbuilt, hv⟩ := hfind
    have hverified := h v hv
    simp only [hv]
    rcases (buildOneVerifier_plain hbuilt).plain input.verifyNow input.req.headers input.req.body
      with ⟨reason, hr⟩ | hr
    · rw [hr] at hverified
      exact absurd hverified (by simp [VerificationResult.failed])
    · rw [hr]
      exact ⟨.verified, some "signature_valid", rfl, by decide⟩

/-- The names of a validated configuration can be bound. -/
theorem emitterNames_nulFree {config cfg : HookboxConfig} {warnings : List String}
    (h : normalize config = .ok (cfg, warnings)) :
    (cfg.emitters.map (·.name)).all nulFree = true := by
  rw [List.all_map, List.all_eq_true]
  intro e he
  exact nulFree_iff.mpr (isValidEmitterName_nul ((normalize_spec h).valid e he).name)

/-- `ingest` ended with the webhook stored. -/
def IngestStored (result : Except IngestError IngestResult) : Prop :=
  (∃ id, result = .ok (.accepted id)) ∨ ∃ id, result = .ok (.duplicate id)

/-- No constraint is in the way of a call: the ids it draws are not taken. -/
def IngestInput.FreshIds (input : IngestInput) (lib : Libraries) (names : List String)
    (draw : Nat → DeliveryId) (now : Timestamp) (db : Database) : Prop :=
  ∀ status reason e, db.storeWithDeliveries
    (IngestCall.receipt lib ⟨input.req, input.receiptId, status, reason⟩ input.utcNow) names draw now
      ≠ .error e

section Bound

variable {rejection : String} {draw : Nat → DeliveryId} {now : Timestamp} {receipt : WebhookReceipt}
  {names : List String} {db : Database}

theorem boundStorage_refused (h : receipt.toRow.bindable = false) :
    (boundStorage rejection draw now).storeWithDeliveries receipt names db
      = (.error (.internal rejection), db) := by
  simp [boundStorage, h]

/-- Without a refusal the receipt is stored, or it was there before. -/
theorem boundStorage_stored (hbind : receipt.toRow.bindable = true)
    (hnames : names.all nulFree = true)
    (hfresh : ∀ e, db.storeWithDeliveries receipt names draw now ≠ .error e) :
    ∃ result db', (boundStorage rejection draw now).storeWithDeliveries receipt names db
      = (.ok result, db') := by
  unfold boundStorage postgresStorage
  simp only [hbind, if_true, hnames]
  cases hstore : db.storeWithDeliveries receipt names draw now with
  | error e => exact absurd hstore (hfresh e)
  | ok stored =>
    cases stored with
    | some db' => exact ⟨.stored, db', rfl⟩
    | none =>
      have hkey := Database.storeWithDeliveries_conflict_iff.mp hstore
      obtain ⟨r, hr, hrkey⟩ := List.mem_map.mp hkey
      cases hrow : db.receiptByDedupeKey receipt.dedupeKey with
      | some row => exact ⟨.duplicate row.receiptId, db, by simp⟩
      | none => exact absurd (List.find?_eq_none.mp hrow r hr) (by simpa using hrkey)

end Bound

/-- Once verification has passed, the storage decides the result. -/
theorem healthyIngest_eq (rejection : String) (draw : Nat → DeliveryId) (now : Timestamp)
    (db : Database) (cache : InMemoryRecentDedupe) {lib : Libraries} {pipe : Pipeline}
    {input : IngestInput} (hprovider : nulFree input.req.provider = true)
    {status : VerificationStatus} {reason : Option String}
    (hverify : pipe.verify input.verifyNow input.req = .ok (status, reason)) :
    healthyIngest rejection draw now lib pipe input db cache =
      match ((boundStorage rejection draw now).storeWithDeliveries
          (IngestCall.receipt lib ⟨input.req, input.receiptId, status, reason⟩ input.utcNow)
          pipe.emitterNames db).1 with
      | .error e => .error (.storage e)
      | .ok (.duplicate existingId) => .ok (.duplicate existingId)
      | .ok .stored => .ok (.accepted input.receiptId) := by
  have hanswer : ∃ decision, ((layeredDedupe (inMemoryDedupe Database) (boundDedupe rejection)).check
      (dedupeKey input.req.provider (computePayloadHash lib input.req.body))
      (computePayloadHash lib input.req.body) db (cache, ())).1 = .ok decision := by
    have hkey : nulFree (dedupeKey input.req.provider (computePayloadHash lib input.req.body)) = true :=
      nulFree_dedupeKey hprovider _
    simp only [layeredDedupe, inMemoryDedupe, boundDedupe, hkey, if_true]
    split
    · rename_i heq
      exact absurd (congrArg Prod.fst heq) (by simp)
    · exact ⟨_, rfl⟩
    · exact ⟨_, rfl⟩
  refine (congrArg Prod.fst (ingest_of_answer pipe (boundStorage rejection draw now) input
    ⟨db, (cache, ()), []⟩ hanswer)).trans ?_
  unfold unadvised
  rw [hverify]
  simp only [World.visible]
  rcases (boundStorage rejection draw now).storeWithDeliveries
      (IngestCall.receipt lib ⟨input.req, input.receiptId, status, reason⟩ input.utcNow)
      pipe.emitterNames db with ⟨(e | result), st⟩
  · rfl
  · cases result <;> rfl

/-- **Exactly which authentic webhooks can be stored.**  Take a server from a validated
configuration on a database that refuses nothing but bound values, a provider name without NUL, and
a request that the provider's verifier, if there is one, accepts.  `ingest` answers `Accepted` or
`Duplicate` if and only if the body is not JSON, or is JSON without U+0000. -/
theorem authentic_stored_iff {lib : Libraries} {config cfg : HookboxConfig}
    {warnings : List String} {pipe : Pipeline} (hnorm : normalize config = .ok (cfg, warnings))
    (hpipe : buildPipeline lib.toCrypto cfg = .ok pipe) {input : IngestInput}
    (hprovider : nulFree input.req.provider = true) (hheaders : input.req.headers.Tokens)
    (hauth : pipe.Authentic input) (rejection : String) {draw : Nat → DeliveryId} {now : Timestamp}
    {db : Database} (hfresh : input.FreshIds lib pipe.emitterNames draw now db)
    (cache : InMemoryRecentDedupe) :
    IngestStored (healthyIngest rejection draw now lib pipe input db cache) ↔
      ∀ json, lib.parseJson input.req.body = some json → json.nulFree = true := by
  obtain ⟨status, reason, hverify, hreason⟩ := hauth.verify_ok hpipe
  let c : IngestCall := ⟨input.req, input.receiptId, status, reason⟩
  have hnames : pipe.emitterNames.all nulFree = true := by
    obtain ⟨vs, -, rfl⟩ := buildPipeline_spec hpipe
    exact emitterNames_nulFree hnorm
  have hbind : (c.receipt lib input.utcNow).toRow.bindable
      = (lib.parseJson input.req.body).all Json.nulFree :=
    receipt_bindable_eq lib input.utcNow hprovider hheaders hreason
  rw [healthyIngest_eq rejection draw now db cache hprovider hverify]
  constructor
  · intro hstored json hjson
    by_contra hnul
    have hrefused : (c.receipt lib input.utcNow).toRow.bindable = false := by
      rw [hbind, hjson]
      simpa using hnul
    rw [boundStorage_refused hrefused] at hstored
    rcases hstored with ⟨id, h⟩ | ⟨id, h⟩ <;> exact absurd h (by simp)
  · intro hjson
    have hbindable : (c.receipt lib input.utcNow).toRow.bindable = true := by
      rw [hbind, Option.all_eq_true]
      exact hjson
    obtain ⟨result, db', hstore⟩ :=
      boundStorage_stored hbindable hnames (hfresh status reason)
    rw [hstore]
    cases result with
    | stored => exact Or.inl ⟨_, rfl⟩
    | duplicate id => exact Or.inr ⟨_, rfl⟩

/-- Libraries that parse one body: `{"a":"\u0000"}`. -/
def nulLib : Libraries where
  toCrypto := sampleLib.toCrypto
  parseJson body :=
    if body = asBytes "\x7b\"a\":\"\\u0000\"\x7d" then some (.obj [("a", .str "\x00")]) else none

/-- A body of one byte, `x`, which is not JSON. -/
theorem authentic_stored_iff_not_json :
    ∃ pipe, buildPipeline nulLib.toCrypto (sampleConfig 1) = .ok pipe ∧
      IngestStored (healthyIngest "" quietEnv.draw quietEnv.now nulLib pipe
        ⟨⟨"acme", [], [120]⟩, ⟨1⟩, 0, 0⟩ .empty { capacity := 1 }) := by
  have hfresh : IngestInput.FreshIds ⟨⟨"acme", [], [120]⟩, ⟨1⟩, 0, 0⟩ nulLib ["kafka"] quietEnv.draw
      quietEnv.now .empty := by
    intro status reason e h
    have hok : Database.empty.storeWithDeliveries (IngestCall.receipt nulLib
        ⟨⟨"acme", [], [120]⟩, ⟨1⟩, status, reason⟩ 0) ["kafka"] quietEnv.draw quietEnv.now
        = .ok (some _) := rfl
    exact absurd (h.symm.trans hok) (by simp)
  have hauth : Pipeline.Authentic ⟨["kafka"], ∅, 1⟩ ⟨⟨"acme", [], [120]⟩, ⟨1⟩, 0, 0⟩ := by
    intro v hv
    simp at hv
  refine ⟨⟨["kafka"], ∅, 1⟩, rfl, ?_⟩
  refine (authentic_stored_iff (sampleConfig_normal 1) rfl (by decide) (by simp [HeaderMap.Tokens])
    hauth "" hfresh { capacity := 1 }).mpr ?_
  intro json hjson
  have hnone : nulLib.parseJson [120] = none := rfl
  exact absurd (hnone.symm.trans hjson) (by simp)

/-- **An authentic body that cannot be stored**: a JSON document with an escaped NUL. -/
theorem authentic_refused :
    normalize (sampleConfig 1) = .ok (sampleConfig 1, []) ∧
    ∃ pipe, buildPipeline nulLib.toCrypto (sampleConfig 1) = .ok pipe ∧
      pipe.verifiers["acme"]? = none ∧
      healthyIngest "unsupported Unicode escape sequence" quietEnv.draw quietEnv.now nulLib pipe
          ⟨⟨"acme", [], asBytes "\x7b\"a\":\"\\u0000\"\x7d"⟩, ⟨1⟩, 0, 0⟩ .empty { capacity := 1 }
        = .error (.storage (.internal "unsupported Unicode escape sequence")) := by
  refine ⟨sampleConfig_normal 1, _, rfl, ?_, ?_⟩
  · rfl
  · rfl

end Hookbox
