/-
# Signature verifiers and their construction

The seven verifiers of `hookbox-providers`, the bootstrap that builds them from the `[providers]`
section (`hookbox-server/src/bootstrap.rs`), and the map the pipeline builder keeps them in.

The cryptography and the Base64 and PEM codecs are third-party code and come as a parameter,
`Crypto`.  Constant-time comparison is comparison.  The clock is an argument of `verify`.

* `buildOneVerifier_plain`: a verifier that bootstrap builds carries the name of its entry, never
  answers `Skipped`, and has one reason for every success.
* `verifiers_getElem?`: when bootstrap accepts a configuration, the verifier the pipeline looks up
  for a provider is the one built from that provider's own entry, and there is none otherwise.
-/
import Mathlib
import Hookbox.Encoding

namespace Hookbox

/-- The third-party functions the verifiers and the pipeline call. -/
structure Crypto where
  /-- `Sha256::digest`. -/
  sha256 : Bytes → Bytes
  /-- `HmacSha256::new_from_slice(key)`, `update(message)`, `finalize()`. -/
  hmacSha256 : (key message : Bytes) → Option Bytes
  /-- `base64::STANDARD`. -/
  base64Decode : Bytes → Option Bytes
  base64Encode : Bytes → Bytes
  /-- `RsaPublicKey::from_public_key_pem(..).is_ok()`. -/
  pemAccepts : String → Bool
  /-- `Signature::try_from(..).is_ok()`, for PKCS#1 v1.5. -/
  rsaSignature : Bytes → Bool
  /-- `VerifyingKey::<Sha512>::verify` under the key of a PEM text. -/
  rsaVerify : (pem : String) → (body signature : Bytes) → Bool

/-- `Box<dyn SignatureVerifier>`. -/
structure SignatureVerifier where
  providerName : String
  verify : (utcNow : Timestamp) → HeaderMap → Bytes → VerificationResult

/-- `Self::failed`. -/
def VerificationResult.failed (reason : String) : VerificationResult := ⟨.failed, some reason⟩

/-- `Self::verified`. -/
def VerificationResult.verified (reason : String) : VerificationResult := ⟨.verified, some reason⟩

/-- `HeaderMap::get`, which ignores the case of ASCII letters. -/
def HeaderMap.get (headers : HeaderMap) (name : String) : Option Bytes :=
  List.lookup (String.ofList (name.toList.map Char.toLower)) headers

/-! ## 1. Signatures over the body alone -/

/-- `verify` of the three verifiers that compare one HMAC of the body with one header. -/
def verifyBodyHmac (crypto : Crypto) (key : Bytes) (header : String)
    (decode : Bytes → Option Bytes) (undecodable badKey : String) (headers : HeaderMap)
    (body : Bytes) : VerificationResult :=
  match headers.get header with
  | none => .failed "missing_signature_header"
  | some value =>
    match toStr value with
    | none => .failed "invalid_signature_header_encoding"
    | some text =>
      match decode text with
      | none => .failed undecodable
      | some provided =>
        match crypto.hmacSha256 key body with
        | none => .failed badKey
        | some expected =>
          if expected = provided then .verified "signature_valid" else .failed "signature_mismatch"

structure GenericHmacVerifier where
  provider : String
  secret : Bytes
  headerName : String

def GenericHmacVerifier.verify (crypto : Crypto) (v : GenericHmacVerifier) :
    HeaderMap → Bytes → VerificationResult :=
  verifyBodyHmac crypto v.secret v.headerName hexDecode "invalid_hex_signature"
    "invalid_secret_length"

structure AdyenVerifier where
  provider : String
  keyBytes : Bytes

/-- `AdyenVerifier::new`. -/
def AdyenVerifier.new (provider hexKey : String) : Option AdyenVerifier :=
  if hexKey.isEmpty then none
  else (hexDecode (asBytes hexKey)).map fun keyBytes => ⟨provider, keyBytes⟩

def AdyenVerifier.verify (crypto : Crypto) (v : AdyenVerifier) :
    HeaderMap → Bytes → VerificationResult :=
  verifyBodyHmac crypto v.keyBytes "HmacSignature" crypto.base64Decode "invalid_base64_signature"
    "invalid_key_length"

structure BvnkVerifier where
  provider : String
  secret : Bytes

def BvnkVerifier.verify (crypto : Crypto) (v : BvnkVerifier) :
    HeaderMap → Bytes → VerificationResult :=
  verifyBodyHmac crypto v.secret "x-signature" crypto.base64Decode "invalid_base64_signature"
    "invalid_secret_length"

structure TripleAFiatVerifier where
  provider : String
  verifyingKey : String

/-- `TripleAFiatVerifier::new`. -/
def TripleAFiatVerifier.new (crypto : Crypto) (provider pem : String) :
    Option TripleAFiatVerifier :=
  if crypto.pemAccepts pem then some ⟨provider, pem⟩ else none

def TripleAFiatVerifier.verify (crypto : Crypto) (v : TripleAFiatVerifier) (headers : HeaderMap)
    (body : Bytes) : VerificationResult :=
  match headers.get "TripleA-Signature" with
  | none => .failed "missing_signature_header"
  | some value =>
    match toStr value with
    | none => .failed "invalid_signature_header_encoding"
    | some text =>
      match crypto.base64Decode text with
      | none => .failed "invalid_base64_signature"
      | some signature =>
        if !crypto.rsaSignature signature then .failed "invalid_rsa_signature_format"
        else if crypto.rsaVerify v.verifyingKey body signature then .verified "signature_valid"
        else .failed "signature_mismatch"

/-! ## 2. Signatures over a timestamp and the body -/

/-- `DEFAULT_TOLERANCE_SECS`. -/
def defaultToleranceSecs : Nat := 300

/-- `now.abs_diff(timestamp) > tolerance`, with a clock before the epoch read as `0`. -/
def expired (utcNow : Timestamp) (timestamp tolerance : Nat) : Bool :=
  let now := (utcNow / 1000000).toNat
  (now - timestamp) + (timestamp - now) > tolerance

/-- One round of the loop over the comma-separated parts of a `t=..,v1=..` header. -/
def signaturePart (acc : Option Bytes × List Bytes) (part : Bytes) : Option Bytes × List Bytes :=
  match stripPrefix (asBytes "t=") part with
  | some ts => (some ts, acc.2)
  | none =>
    match stripPrefix (asBytes "v1=") part with
    | some sig => (acc.1, acc.2 ++ [sig])
    | none => acc

/-- The `t=` text and the `v1=` texts of a header. -/
def signatureParts (text : Bytes) : Option Bytes × List Bytes :=
  (split 44 text).foldl signaturePart (none, [])

/-- The loop over the `v1=` texts: malformed ones are skipped. -/
def anyHexMatch (expected : Bytes) (sigs : List Bytes) : Bool :=
  sigs.any fun sig => hexDecode sig = some expected

structure StripeVerifier where
  provider : String
  secret : String
  tolerance : Nat

/-- `StripeVerifier::verify`; the body must be UTF-8. -/
def StripeVerifier.verify (crypto : Crypto) (v : StripeVerifier) (utcNow : Timestamp)
    (headers : HeaderMap) (body : Bytes) : VerificationResult :=
  match headers.get "Stripe-Signature" with
  | none => .failed "missing_signature_header"
  | some value =>
    match toStr value with
    | none => .failed "invalid_signature_header_encoding"
    | some text =>
      match signatureParts text with
      | (none, _) => .failed "missing_timestamp"
      | (some ts, sigs) =>
        if sigs.isEmpty then .failed "missing_v1_signature"
        else
          match parseU64 ts with
          | none => .failed "invalid_timestamp"
          | some timestamp =>
            if expired utcNow timestamp v.tolerance then .failed "timestamp_expired"
            else if !isUtf8 body then .failed "invalid_body_encoding"
            else
              match crypto.hmacSha256 (asBytes v.secret) (ts ++ asBytes "." ++ body) with
              | none => .failed "invalid_secret_length"
              | some expected =>
                if anyHexMatch expected sigs then .verified "signature_valid"
                else .failed "signature_mismatch"

structure TripleACryptoVerifier where
  provider : String
  secret : String
  tolerance : Nat

/-- `TripleACryptoVerifier::verify`; the body may be any bytes. -/
def TripleACryptoVerifier.verify (crypto : Crypto) (v : TripleACryptoVerifier)
    (utcNow : Timestamp) (headers : HeaderMap) (body : Bytes) : VerificationResult :=
  match headers.get "triplea-signature" with
  | none => .failed "missing_signature_header"
  | some value =>
    match toStr value with
    | none => .failed "invalid_signature_header_encoding"
    | some text =>
      match signatureParts text with
      | (none, _) => .failed "missing_timestamp"
      | (some ts, sigs) =>
        if sigs.isEmpty then .failed "missing_v1_signature"
        else
          match parseU64 ts with
          | none => .failed "invalid_timestamp"
          | some timestamp =>
            if expired utcNow timestamp v.tolerance then .failed "timestamp_expired"
            else
              match crypto.hmacSha256 (asBytes v.secret) (ts ++ asBytes "." ++ body) with
              | none => .failed "invalid_secret_length"
              | some expected =>
                if anyHexMatch expected sigs then .verified "signature_valid"
                else .failed "signature_mismatch"

structure WalapayVerifier where
  provider : String
  key : Bytes
  tolerance : Nat

/-- `WalapayVerifier::new`. -/
def WalapayVerifier.new (crypto : Crypto) (provider secret : String) : Option WalapayVerifier := do
  let b64 ← stripPrefix (asBytes "whsec_") (asBytes secret)
  let key ← crypto.base64Decode b64
  if key.isEmpty then none else some ⟨provider, key, defaultToleranceSecs⟩

/-- The loop over the entries of `svix-signature`: other versions are skipped. -/
def anyV1Match (expected : Bytes) (text : Bytes) : Bool :=
  (splitWhitespace text).any fun entry => stripPrefix (asBytes "v1,") entry = some expected

def WalapayVerifier.verify (crypto : Crypto) (v : WalapayVerifier) (utcNow : Timestamp)
    (headers : HeaderMap) (body : Bytes) : VerificationResult :=
  match headers.get "svix-id" with
  | none => .failed "missing_svix_id_header"
  | some idValue =>
    match headers.get "svix-timestamp" with
    | none => .failed "missing_svix_timestamp_header"
    | some tsValue =>
      match headers.get "svix-signature" with
      | none => .failed "missing_svix_signature_header"
      | some sigValue =>
        match toStr idValue with
        | none => .failed "invalid_svix_id_encoding"
        | some msgId =>
          match toStr tsValue with
          | none => .failed "invalid_svix_timestamp_encoding"
          | some ts =>
            match toStr sigValue with
            | none => .failed "invalid_svix_signature_encoding"
            | some sigs =>
              match parseU64 ts with
              | none => .failed "invalid_timestamp"
              | some timestamp =>
                if expired utcNow timestamp v.tolerance then .failed "timestamp_expired"
                else
                  match crypto.hmacSha256 v.key
                      (msgId ++ asBytes "." ++ ts ++ asBytes "." ++ body) with
                  | none => .failed "invalid_key_length"
                  | some expected =>
                    if anyV1Match (crypto.base64Encode expected) sigs then
                      .verified "signature_valid"
                    else .failed "signature_mismatch"

/-! ## 3. Bootstrap -/

/-- `ProviderConfig`. -/
structure ProviderConfig where
  verifierType : String := "hmac-sha256"
  secret : Option String := none
  publicKey : Option String := none
  header : Option String := none
  toleranceSeconds : Option Nat := none

/-- An `anyhow::Error`: the contexts, outermost first, and the root cause. -/
abbrev AnyhowError := List String

/-- `.as_deref().filter(|s| !s.is_empty()).ok_or_else(..)`. -/
def nonEmpty (value : Option String) (error : String) : Except AnyhowError String :=
  match value with
  | some s => if s.isEmpty then .error [error] else .ok s
  | none => .error [error]

/-- `non_empty_secret`. -/
def nonEmptySecret (name : String) (provider : ProviderConfig) : Except AnyhowError String :=
  nonEmpty provider.secret ("provider '" ++ name ++ "' requires a non-empty secret")

section Boxed

variable (crypto : Crypto)

def GenericHmacVerifier.boxed (v : GenericHmacVerifier) : SignatureVerifier :=
  ⟨v.provider, fun _ => v.verify crypto⟩

def AdyenVerifier.boxed (v : AdyenVerifier) : SignatureVerifier :=
  ⟨v.provider, fun _ => v.verify crypto⟩

def BvnkVerifier.boxed (v : BvnkVerifier) : SignatureVerifier :=
  ⟨v.provider, fun _ => v.verify crypto⟩

def TripleAFiatVerifier.boxed (v : TripleAFiatVerifier) : SignatureVerifier :=
  ⟨v.provider, fun _ => v.verify crypto⟩

def StripeVerifier.boxed (v : StripeVerifier) : SignatureVerifier := ⟨v.provider, v.verify crypto⟩

def TripleACryptoVerifier.boxed (v : TripleACryptoVerifier) : SignatureVerifier :=
  ⟨v.provider, v.verify crypto⟩

def WalapayVerifier.boxed (v : WalapayVerifier) : SignatureVerifier :=
  ⟨v.provider, v.verify crypto⟩

/-- The two arms of `build_one_verifier` that take any HMAC provider, `hmac-sha256` and an
unknown type. -/
def buildGeneric (name : String) (provider : ProviderConfig) :
    Except AnyhowError SignatureVerifier := do
  let secret ← nonEmptySecret name provider
  let header := provider.header.getD ("X-" ++ name ++ "-Signature")
  return (GenericHmacVerifier.mk name (asBytes secret) header).boxed crypto

/-- `build_one_verifier`. -/
def buildOneVerifier (name : String) (provider : ProviderConfig) :
    Except AnyhowError SignatureVerifier :=
  match provider.verifierType with
  | "stripe" => do
    let secret ← nonEmptySecret name provider
    return (StripeVerifier.mk name secret
      (provider.toleranceSeconds.getD defaultToleranceSecs)).boxed crypto
  | "adyen" => do
    let secret ← nonEmpty provider.secret
      ("adyen provider '" ++ name ++ "' requires a non-empty secret (hex-encoded HMAC key)")
    match AdyenVerifier.new name secret with
    | none => .error ["invalid hex key for Adyen provider '" ++ name ++ "'"]
    | some verifier => return verifier.boxed crypto
  | "bvnk" => do
    let secret ← nonEmpty provider.secret
      ("bvnk provider '" ++ name ++ "' requires a non-empty secret")
    return (BvnkVerifier.mk name (asBytes secret)).boxed crypto
  | "triplea-fiat" => do
    let pem ← nonEmpty provider.publicKey
      ("triplea-fiat provider '" ++ name ++ "' requires a non-empty public_key")
    match TripleAFiatVerifier.new crypto name pem with
    | none => .error ["invalid PEM public key for Triple-A fiat provider '" ++ name ++ "'"]
    | some verifier => return verifier.boxed crypto
  | "triplea-crypto" => do
    let secret ← nonEmpty provider.secret
      ("triplea-crypto provider '" ++ name ++ "' requires a non-empty secret (notify_secret)")
    return (TripleACryptoVerifier.mk name secret
      (provider.toleranceSeconds.getD defaultToleranceSecs)).boxed crypto
  | "walapay" => do
    let secret ← nonEmpty provider.secret
      ("walapay provider '" ++ name ++ "' requires a non-empty secret (whsec_...)")
    match WalapayVerifier.new crypto name secret with
    | none =>
      .error ["invalid Svix secret for Walapay provider '" ++ name ++ "' (expected whsec_...)"]
    | some verifier =>
      return { verifier with
        tolerance := provider.toleranceSeconds.getD verifier.tolerance }.boxed crypto
  | "checkout" => do
    let secret ← nonEmpty provider.secret
      ("checkout provider '" ++ name ++ "' requires a non-empty secret")
    let header := provider.header.getD "Cko-Signature"
    return (GenericHmacVerifier.mk name (asBytes secret) header).boxed crypto
  | "hmac-sha256" => buildGeneric crypto name provider
  | _ => buildGeneric crypto name provider

/-- One round of the loop of `build_provider_verifiers`, with its error context. -/
def buildEntry (entry : String × ProviderConfig) : Except AnyhowError SignatureVerifier :=
  match buildOneVerifier crypto entry.1 entry.2 with
  | .ok v => .ok v
  | .error e => .error (("provider '" ++ entry.1 ++ "'") :: e)

/-- `build_provider_verifiers`.  The source sorts the entries of a hash map by name; the entries
of an ordered map come sorted. -/
def buildProviderVerifiers (providers : Std.ExtTreeMap String ProviderConfig) :
    Except AnyhowError (List SignatureVerifier) :=
  providers.toList.mapM (buildEntry crypto)

end Boxed

/-- The verifiers of a pipeline, by provider name. -/
abbrev Verifiers := Std.ExtTreeMap String SignatureVerifier

/-- `HookboxPipelineBuilder::verifier_boxed`. -/
def verifierBoxed (verifiers : Verifiers) (v : SignatureVerifier) : Verifiers :=
  verifiers.insert v.providerName v

/-- The loop of `build_pipeline` that registers the verifiers. -/
def registerVerifiers (vs : List SignatureVerifier) : Verifiers := vs.foldl verifierBoxed ∅

/-! ## 4. What bootstrap guarantees -/

section Guarantees

variable {crypto : Crypto}

/-- A verdict that is not `Skipped`. -/
def VerificationResult.Decided (r : VerificationResult) : Prop := r.status ≠ .skipped

/-- What the verifiers of this crate answer: a failure, or a success with the one reason for it. -/
def VerificationResult.Plain (r : VerificationResult) : Prop :=
  (∃ reason, r = .failed reason) ∨ r = .verified "signature_valid"

theorem VerificationResult.failed_plain (reason : String) :
    (VerificationResult.failed reason).Plain := Or.inl ⟨reason, rfl⟩

theorem VerificationResult.verified_plain :
    (VerificationResult.verified "signature_valid").Plain := Or.inr rfl

theorem VerificationResult.Plain.decided {r : VerificationResult} (h : r.Plain) : r.Decided := by
  rcases h with ⟨reason, rfl⟩ | rfl
  · simp [Decided, failed]
  · simp [Decided, verified]

open VerificationResult (failed_plain verified_plain)

theorem verifyBodyHmac_plain (key : Bytes) (header : String) (decode : Bytes → Option Bytes)
    (undecodable badKey : String) (headers : HeaderMap) (body : Bytes) :
    (verifyBodyHmac crypto key header decode undecodable badKey headers body).Plain := by
  unfold verifyBodyHmac
  split
  · exact failed_plain _
  · split
    · exact failed_plain _
    · split
      · exact failed_plain _
      · split
        · exact failed_plain _
        · split
          · exact verified_plain
          · exact failed_plain _

theorem TripleAFiatVerifier.verify_plain (v : TripleAFiatVerifier) (headers : HeaderMap)
    (body : Bytes) : (v.verify crypto headers body).Plain := by
  unfold TripleAFiatVerifier.verify
  split
  · exact failed_plain _
  · split
    · exact failed_plain _
    · split
      · exact failed_plain _
      · split
        · exact failed_plain _
        · split
          · exact verified_plain
          · exact failed_plain _

theorem StripeVerifier.verify_plain (v : StripeVerifier) (utcNow : Timestamp)
    (headers : HeaderMap) (body : Bytes) : (v.verify crypto utcNow headers body).Plain := by
  unfold StripeVerifier.verify
  repeat' split
  all_goals first | exact failed_plain _ | exact verified_plain

theorem TripleACryptoVerifier.verify_plain (v : TripleACryptoVerifier) (utcNow : Timestamp)
    (headers : HeaderMap) (body : Bytes) : (v.verify crypto utcNow headers body).Plain := by
  unfold TripleACryptoVerifier.verify
  repeat' split
  all_goals first | exact failed_plain _ | exact verified_plain

theorem WalapayVerifier.verify_plain (v : WalapayVerifier) (utcNow : Timestamp)
    (headers : HeaderMap) (body : Bytes) : (v.verify crypto utcNow headers body).Plain := by
  unfold WalapayVerifier.verify
  repeat' split
  all_goals first | exact failed_plain _ | exact verified_plain

/-- What every verifier that bootstrap builds for `name` is like. -/
structure SignatureVerifier.For (v : SignatureVerifier) (name : String) : Prop where
  providerName : v.providerName = name
  decided : ∀ utcNow headers body, (v.verify utcNow headers body).Decided

/-- A verifier with the name of its entry that answers plainly. -/
structure SignatureVerifier.PlainFor (v : SignatureVerifier) (name : String) : Prop where
  providerName : v.providerName = name
  plain : ∀ utcNow headers body, (v.verify utcNow headers body).Plain

theorem buildGeneric_plain {name : String} {provider : ProviderConfig} {v : SignatureVerifier}
    (h : buildGeneric crypto name provider = .ok v) : v.PlainFor name := by
  obtain ⟨secret, -, h⟩ := Except.bind_eq_ok.mp h
  cases h
  exact ⟨rfl, fun _ headers body => verifyBodyHmac_plain _ _ _ _ _ headers body⟩

theorem AdyenVerifier.new_provider {provider hexKey : String} {v : AdyenVerifier}
    (h : AdyenVerifier.new provider hexKey = some v) : v.provider = provider := by
  unfold AdyenVerifier.new at h
  split at h
  · exact absurd h (by simp)
  · obtain ⟨key, -, rfl⟩ := Option.map_eq_some_iff.mp h
    rfl

theorem TripleAFiatVerifier.new_provider {provider pem : String} {v : TripleAFiatVerifier}
    (h : TripleAFiatVerifier.new crypto provider pem = some v) : v.provider = provider := by
  unfold TripleAFiatVerifier.new at h
  split at h
  · rw [← Option.some.inj h]
  · exact absurd h (by simp)

theorem WalapayVerifier.new_provider {provider secret : String} {v : WalapayVerifier}
    (h : WalapayVerifier.new crypto provider secret = some v) : v.provider = provider := by
  obtain ⟨b64, -, h⟩ := Option.bind_eq_some_iff.mp h
  obtain ⟨key, -, h⟩ := Option.bind_eq_some_iff.mp h
  split at h
  · exact absurd h (by simp)
  · rw [← Option.some.inj h]

/-- **Every verifier built for a name carries that name and answers plainly.** -/
theorem buildOneVerifier_plain {name : String} {provider : ProviderConfig} {v : SignatureVerifier}
    (h : buildOneVerifier crypto name provider = .ok v) : v.PlainFor name := by
  unfold buildOneVerifier at h
  split at h
  · obtain ⟨secret, -, h⟩ := Except.bind_eq_ok.mp h
    cases h
    exact ⟨rfl, StripeVerifier.verify_plain _⟩
  · obtain ⟨secret, -, h⟩ := Except.bind_eq_ok.mp h
    split at h
    · exact absurd h (by simp)
    · rename_i verifier hnew
      cases h
      exact ⟨AdyenVerifier.new_provider hnew,
        fun _ headers body => verifyBodyHmac_plain _ _ _ _ _ headers body⟩
  · obtain ⟨secret, -, h⟩ := Except.bind_eq_ok.mp h
    cases h
    exact ⟨rfl, fun _ headers body => verifyBodyHmac_plain _ _ _ _ _ headers body⟩
  · obtain ⟨pem, -, h⟩ := Except.bind_eq_ok.mp h
    split at h
    · exact absurd h (by simp)
    · rename_i verifier hnew
      cases h
      exact ⟨TripleAFiatVerifier.new_provider hnew, fun _ => verifier.verify_plain⟩
  · obtain ⟨secret, -, h⟩ := Except.bind_eq_ok.mp h
    cases h
    exact ⟨rfl, TripleACryptoVerifier.verify_plain _⟩
  · obtain ⟨secret, -, h⟩ := Except.bind_eq_ok.mp h
    split at h
    · exact absurd h (by simp)
    · rename_i verifier hnew
      cases h
      exact ⟨WalapayVerifier.new_provider hnew, WalapayVerifier.verify_plain _⟩
  · obtain ⟨secret, -, h⟩ := Except.bind_eq_ok.mp h
    cases h
    exact ⟨rfl, fun _ headers body => verifyBodyHmac_plain _ _ _ _ _ headers body⟩
  · exact buildGeneric_plain h
  · exact buildGeneric_plain h

/-- So it never skips. -/
theorem buildOneVerifier_for {name : String} {provider : ProviderConfig} {v : SignatureVerifier}
    (h : buildOneVerifier crypto name provider = .ok v) : v.For name :=
  ⟨(buildOneVerifier_plain h).providerName,
    fun utcNow headers body => ((buildOneVerifier_plain h).plain utcNow headers body).decided⟩

theorem buildEntry_ok {entry : String × ProviderConfig} {v : SignatureVerifier}
    (h : buildEntry crypto entry = .ok v) : buildOneVerifier crypto entry.1 entry.2 = .ok v := by
  unfold buildEntry at h
  split at h
  · rename_i v' hv
    rw [hv, Except.ok.inj h]
  · exact absurd h (by simp)

/-- Registering the verifiers of entries with distinct names: each name gets the verifier of its
own entry, and every other name keeps what it had. -/
theorem register_getElem? {es : List (String × ProviderConfig)}
    (hdis : es.Pairwise fun a b => a.1 ≠ b.1) :
    ∀ {vs : List SignatureVerifier}, es.mapM (buildEntry crypto) = .ok vs →
      ∀ (m : Verifiers) (p : String),
        (∀ e ∈ es, e.1 = p → ∃ v, buildOneVerifier crypto p e.2 = .ok v ∧
          (vs.foldl verifierBoxed m)[p]? = some v) ∧
        ((∀ e ∈ es, e.1 ≠ p) → (vs.foldl verifierBoxed m)[p]? = m[p]?) := by
  induction es with
  | nil =>
    intro vs h m p
    cases h
    exact ⟨fun e he => absurd he (by simp), fun _ => rfl⟩
  | cons e es ih =>
    intro vs h m p
    rw [List.mapM_cons] at h
    obtain ⟨v, hv, h⟩ := Except.bind_eq_ok.mp h
    obtain ⟨vs', hvs, h⟩ := Except.bind_eq_ok.mp h
    cases h
    obtain ⟨hhead, htail⟩ := List.pairwise_cons.mp hdis
    have hv' := buildEntry_ok hv
    have hname : v.providerName = e.1 := (buildOneVerifier_for hv').providerName
    obtain ⟨ihmem, ihother⟩ := ih htail hvs (verifierBoxed m v) p
    rw [List.foldl_cons]
    constructor
    · intro e' he' hp
      rcases List.mem_cons.mp he' with rfl | he'
      · refine ⟨v, hp ▸ hv', ?_⟩
        rw [ihother fun a ha => hp ▸ (hhead a ha).symm, verifierBoxed, hname, hp]
        exact Std.ExtTreeMap.getElem?_insert_self
      · exact ihmem e' he' hp
    · intro hne
      rw [ihother fun a ha => hne a (List.mem_cons_of_mem _ ha), verifierBoxed, hname,
        Std.ExtTreeMap.getElem?_insert, if_neg]
      intro hcmp
      exact hne e List.mem_cons_self (Std.LawfulEqCmp.eq_of_compare hcmp)

/-- **The verifier a pipeline finds for a provider is the one built from that provider's own
entry**, and there is none for a name without an entry. -/
theorem verifiers_getElem? {providers : Std.ExtTreeMap String ProviderConfig}
    {vs : List SignatureVerifier} (h : buildProviderVerifiers crypto providers = .ok vs)
    (p : String) :
    match providers[p]? with
    | some cfg => ∃ v, buildOneVerifier crypto p cfg = .ok v ∧ (registerVerifiers vs)[p]? = some v
    | none => (registerVerifiers vs)[p]? = none := by
  have hdis : providers.toList.Pairwise fun a b => a.1 ≠ b.1 :=
    providers.distinct_keys_toList.imp fun hne heq => hne (by rw [heq]; exact Std.ReflCmp.compare_self)
  obtain ⟨hmem, hother⟩ := register_getElem? hdis h ∅ p
  cases hp : providers[p]? with
  | some cfg =>
    exact hmem (p, cfg) (Std.ExtTreeMap.mem_toList_iff_getElem?_eq_some.mpr hp) rfl
  | none =>
    refine (hother ?_).trans (by simp)
    rintro ⟨p', cfg⟩ he rfl
    rw [Std.ExtTreeMap.mem_toList_iff_getElem?_eq_some.mp he] at hp
    exact absurd hp (by simp)

end Guarantees

end Hookbox
