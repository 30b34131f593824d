/-
# What the timestamped signatures accept, and what they bind

The `t=..,v1=..` header of `StripeVerifier` and `TripleACryptoVerifier` and the `svix-*` headers of
`WalapayVerifier` (`hookbox-providers`).  All three sign a text joined by dots.

* `signatureParts_eq`: the loop over the parts of a header keeps the last `t=` and every `v1=`.
* `signature_header_exact`: the accepted headers, what the verdict does not depend on, and that the
  signed text determines its timestamp and its body, because a timestamp that parses has no dot.
* `walapay_binding_iff`: the message id, which is not checked, may contain dots.  Two requests accepted
  by one signature then agree in all three fields exactly when their ids have equally many dots.
-/
import Hookbox.Providers
import Hookbox.Lib.Separator

namespace Hookbox

/-! ## 1. Parts of a header -/

theorem stripPrefix_eq_some {p bs rest : Bytes} : stripPrefix p bs = some rest ↔ bs = p ++ rest := by
  induction p generalizing bs with
  | nil => simp [stripPrefix, eq_comm]
  | cons a p ih =>
    cases bs with
    | nil => simp [stripPrefix]
    | cons b bs =>
      by_cases hab : a = b
      · simp [stripPrefix, hab, ih]
      · simp [stripPrefix, hab, Ne.symm hab]

/-- The text of the last part that starts with `t=`. -/
def lastTimestamp (text : Bytes) : Option Bytes :=
  ((split 44 text).filterMap (stripPrefix (asBytes "t="))).getLast?

/-- The texts of the parts that start with `v1=`. -/
def v1Signatures (text : Bytes) : List Bytes :=
  (split 44 text).filterMap (stripPrefix (asBytes "v1="))

/-- A part does not start with both. -/
theorem stripPrefix_v1_of_t {part ts : Bytes} (h : stripPrefix (asBytes "t=") part = some ts) :
    stripPrefix (asBytes "v1=") part = none := by
  obtain rfl := stripPrefix_eq_some.mp h
  rfl

theorem foldl_signaturePart (parts : List Bytes) (acc : Option Bytes × List Bytes) :
    parts.foldl signaturePart acc
      = ((parts.filterMap (stripPrefix (asBytes "t="))).getLast?.or acc.1,
          acc.2 ++ parts.filterMap (stripPrefix (asBytes "v1="))) := by
  induction parts generalizing acc with
  | nil => simp
  | cons part parts ih =>
    rw [List.foldl_cons, ih, signaturePart, List.filterMap_cons, List.filterMap_cons]
    cases ht : stripPrefix (asBytes "t=") part with
    | some ts =>
      rw [stripPrefix_v1_of_t ht]
      simp only [List.getLast?_cons, Option.some_or, Prod.mk.injEq, and_true]
      cases (parts.filterMap (stripPrefix (asBytes "t="))).getLast? <;> rfl
    | none =>
      cases stripPrefix (asBytes "v1=") part with
      | some sig => simp
      | none => rfl

/-- **The loop keeps the last `t=` and every `v1=`.** -/
theorem signatureParts_eq (text : Bytes) :
    signatureParts text = (lastTimestamp text, v1Signatures text) := by
  rw [signatureParts, foldl_signaturePart, Option.or_none, List.nil_append]
  rfl

theorem anyHexMatch_iff {expected : Bytes} {sigs : List Bytes} :
    anyHexMatch expected sigs = true ↔ ∃ sig ∈ sigs, hexDecode sig = some expected := by
  simp [anyHexMatch]

/-! ## 2. Timestamps have no dot -/

theorem decimal?_digits {bs : Bytes} {acc n : Nat} (h : decimal? acc bs = some n) :
    ∀ b ∈ bs, 48 ≤ b := by
  induction bs generalizing acc with
  | nil => intro b hb; exact absurd hb List.not_mem_nil
  | cons b bs ih =>
    rw [decimal?] at h
    split at h
    · rename_i hdigit
      intro c hc
      rcases List.mem_cons.mp hc with rfl | hc
      · exact hdigit.1
      · exact ih h c hc
    · exact absurd h (by simp)

/-- **A text that parses as a number contains no dot.** -/
theorem dot_notMem_of_parseU64 {bs : Bytes} {n : Nat} (h : parseU64 bs = some n) : 46 ∉ bs := by
  have hdigits : ∀ digits : Bytes, (decimal? 0 digits).filter (fun n => n < 2 ^ 64) = some n →
      46 ∉ digits := by
    intro digits hd hmem
    obtain ⟨hd, -⟩ := Option.filter_eq_some_iff.mp hd
    exact absurd (decimal?_digits hd 46 hmem) (by decide)
  unfold parseU64 at h
  dsimp only at h
  split at h
  · split at h
    · exact absurd h (by simp)
    · intro hmem
      rcases List.mem_cons.mp hmem with heq | hmem
      · exact absurd heq (by decide)
      · exact hdigits _ h hmem
  · split at h
    · exact absurd h (by simp)
    · exact hdigits _ h

/-- The tolerance check, spelled out. -/
theorem expired_eq_false_iff {utcNow : Timestamp} {timestamp tolerance : Nat} :
    expired utcNow timestamp tolerance = false ↔
      (utcNow / 1000000).toNat ≤ timestamp + tolerance ∧
        timestamp ≤ (utcNow / 1000000).toNat + tolerance := by
  unfold expired
  simp only [gt_iff_lt, decide_eq_false_iff_not]
  generalize (utcNow / 1000000).toNat = now
  omega

/-! ## 3. The two verifiers of the `t=..,v1=..` header -/

/-- What both verifiers do once they have the header text; `bodyOk` is the check of the body. -/
def timestampedVerdict (crypto : Crypto) (secret : String) (tolerance : Nat) (utcNow : Timestamp)
    (bodyOk : Bool) (text body : Bytes) : VerificationResult :=
  match signatureParts text with
  | (none, _) => .failed "missing_timestamp"
  | (some ts, sigs) =>
    if sigs.isEmpty then .failed "missing_v1_signature"
    else
      match parseU64 ts with
      | none => .failed "invalid_timestamp"
      | some timestamp =>
        if expired utcNow timestamp tolerance then .failed "timestamp_expired"
        else if !bodyOk then .failed "invalid_body_encoding"
        else
          match crypto.hmacSha256 (asBytes secret) (ts ++ asBytes "." ++ body) with
          | none => .failed "invalid_secret_length"
          | some expected =>
            if anyHexMatch expected sigs then .verified "signature_valid"
            else .failed "signature_mismatch"

section Timestamped

variable (crypto : Crypto) (utcNow : Timestamp) (headers : HeaderMap) (body : Bytes)

theorem StripeVerifier.verify_eq (v : StripeVerifier) :
    v.verify crypto utcNow headers body =
      match headers.get "Stripe-Signature" with
      | none => .failed "missing_signature_header"
      | some value =>
        match toStr value with
        | none => .failed "invalid_signature_header_encoding"
        | some text =>
          timestampedVerdict crypto v.secret v.tolerance utcNow (isUtf8 body) text body := rfl

theorem TripleACryptoVerifier.verify_eq (v : TripleACryptoVerifier) :
    v.verify crypto utcNow headers body =
      match headers.get "triplea-signature" with
      | none => .failed "missing_signature_header"
      | some value =>
        match toStr value with
        | none => .failed "invalid_signature_header_encoding"
        | some text =>
          timestampedVerdict crypto v.secret v.tolerance utcNow true text body := rfl

end Timestamped

/-- The header text `text` is accepted for `body` on the strength of its part `v1=sig`, with `ts` as
its timestamp. -/
structure AcceptsOn (crypto : Crypto) (secret : String) (tolerance : Nat) (utcNow : Timestamp)
    (text body ts sig : Bytes) : Prop where
  timestamp : lastTimestamp text = some ts
  window : ∃ n, parseU64 ts = some n ∧ (utcNow / 1000000).toNat ≤ n + tolerance ∧
    n ≤ (utcNow / 1000000).toNat + tolerance
  signature : sig ∈ v1Signatures text
  mac : ∃ expected, crypto.hmacSha256 (asBytes secret) (ts ++ asBytes "." ++ body) = some expected ∧
    hexDecode sig = some expected

section Verdict

variable {crypto : Crypto} {secret : String} {tolerance : Nat} {utcNow utcNow' : Timestamp}
  {bodyOk : Bool} {text text' body body' ts ts' sig : Bytes}

/-- **When the verdict is `Verified`.** -/
theorem timestampedVerdict_verified_iff :
    (timestampedVerdict crypto secret tolerance utcNow bodyOk text body).status = .verified ↔
      bodyOk = true ∧ ∃ ts sig, AcceptsOn crypto secret tolerance utcNow text body ts sig := by
  have hfailed : ∀ reason, ¬ (VerificationResult.failed reason).status = .verified :=
    fun reason h => absurd h (by simp [VerificationResult.failed])
  unfold timestampedVerdict
  rw [signatureParts_eq]
  constructor
  · intro h
    split at h
    · exact absurd h (hfailed _)
    · rename_i ts sigs hparts
      obtain ⟨hts, rfl⟩ := Prod.mk.inj hparts
      split at h
      · exact absurd h (hfailed _)
      · split at h
        · exact absurd h (hfailed _)
        · rename_i n hn
          split at h
          · exact absurd h (hfailed _)
          · rename_i hexp
            split at h
            · exact absurd h (hfailed _)
            · rename_i hbody
              split at h
              · exact absurd h (hfailed _)
              · rename_i expected hmac
                split at h
                · rename_i hmatch
                  obtain ⟨sig, hsig, hhex⟩ := anyHexMatch_iff.mp hmatch
                  exact ⟨by simpa using hbody, ts, sig, hts,
                    ⟨n, hn, expired_eq_false_iff.mp (by simpa using hexp)⟩, hsig,
                    ⟨expected, hmac, hhex⟩⟩
                · exact absurd h (hfailed _)
  · rintro ⟨rfl, ts, sig, hts, ⟨n, hn, hwindow⟩, hsig, expected, hmac, hhex⟩
    have hne : (v1Signatures text).isEmpty = false := by
      rw [List.isEmpty_eq_false_iff]
      exact List.ne_nil_of_mem hsig
    have hmatch := anyHexMatch_iff.mpr ⟨sig, hsig, hhex⟩
    have hexp := expired_eq_false_iff.mpr hwindow
    simp only [hts, hne, hn, hexp, hmac, hmatch, Bool.not_true, Bool.false_eq_true, if_false,
      if_true, VerificationResult.verified]

/-- The verdict depends on the last timestamp and on the set of signatures. -/
theorem timestampedVerdict_congr (hts : lastTimestamp text = lastTimestamp text')
    (hsigs : ∀ sig, sig ∈ v1Signatures text ↔ sig ∈ v1Signatures text') :
    timestampedVerdict crypto secret tolerance utcNow bodyOk text body
      = timestampedVerdict crypto secret tolerance utcNow bodyOk text' body := by
  have hempty : (v1Signatures text).isEmpty = (v1Signatures text').isEmpty := by
    rw [Bool.eq_iff_iff, List.isEmpty_iff, List.isEmpty_iff, List.eq_nil_iff_forall_not_mem,
      List.eq_nil_iff_forall_not_mem]
    simp only [hsigs]
  have hmatch : ∀ expected, anyHexMatch expected (v1Signatures text)
      = anyHexMatch expected (v1Signatures text') := by
    intro expected
    rw [Bool.eq_iff_iff, anyHexMatch_iff, anyHexMatch_iff]
    simp only [hsigs]
  unfold timestampedVerdict
  rw [signatureParts_eq, signatureParts_eq, ← hts]
  cases lastTimestamp text with
  | none => rfl
  | some ts => simp only [hempty, hmatch]

/-- Only the signatures that match matter to acceptance. -/
theorem AcceptsOn.congr (hts : lastTimestamp text = lastTimestamp text')
    (hsigs : ∀ ts sig expected, lastTimestamp text = some ts →
      crypto.hmacSha256 (asBytes secret) (ts ++ asBytes "." ++ body) = some expected →
      hexDecode sig = some expected → sig ∈ v1Signatures text → sig ∈ v1Signatures text')
    (h : AcceptsOn crypto secret tolerance utcNow text body ts sig) :
    AcceptsOn crypto secret tolerance utcNow text' body ts sig := by
  obtain ⟨expected, hmac, hhex⟩ := h.mac
  exact ⟨hts ▸ h.timestamp, h.window, hsigs ts sig expected h.timestamp hmac hhex h.signature, h.mac⟩

/-- **The signed text is unambiguous**, because the timestamp contains no dot. -/
theorem AcceptsOn.binding
    (hinj : ∀ m m' out, crypto.hmacSha256 (asBytes secret) m = some out →
      crypto.hmacSha256 (asBytes secret) m' = some out → m = m')
    (h : AcceptsOn crypto secret tolerance utcNow text body ts sig)
    (h' : AcceptsOn crypto secret tolerance utcNow' text' body' ts' sig) : ts = ts' ∧ body = body' := by
  obtain ⟨expected, hmac, hhex⟩ := h.mac
  obtain ⟨expected', hmac', hhex'⟩ := h'.mac
  rw [hhex, Option.some.injEq] at hhex'
  subst hhex'
  obtain ⟨n, hn, -⟩ := h.window
  obtain ⟨n', hn', -⟩ := h'.window
  have hsigned := hinj _ _ _ hmac hmac'
  rw [List.append_assoc, List.append_assoc] at hsigned
  exact Separator.append_sep_inj (dot_notMem_of_parseU64 hn) (dot_notMem_of_parseU64 hn') hsigned

end Verdict

/-- **Acceptance of the `t=..,v1=..` header.**  `StripeVerifier` accepts exactly the headers whose last
timestamp is recent and one of whose signatures is the HMAC of that timestamp and the body, which is
UTF-8.  Order, number and content of the other parts do not matter; `TripleACryptoVerifier` agrees on
every UTF-8 body; and one signature, if HMAC is injective, vouches for one timestamp and one body. -/
theorem signature_header_exact (crypto : Crypto) (v : StripeVerifier) :
    (∀ utcNow headers body, (v.verify crypto utcNow headers body).status = .verified ↔
      isUtf8 body = true ∧ ∃ value text ts sig, headers.get "Stripe-Signature" = some value ∧
        toStr value = some text ∧ AcceptsOn crypto v.secret v.tolerance utcNow text body ts sig) ∧
    (∀ utcNow headers headers' body value value' text text',
      headers.get "Stripe-Signature" = some value → toStr value = some text →
      headers'.get "Stripe-Signature" = some value' → toStr value' = some text' →
      lastTimestamp text = lastTimestamp text' →
      ((∀ sig, sig ∈ v1Signatures text ↔ sig ∈ v1Signatures text') →
        v.verify crypto utcNow headers body = v.verify crypto utcNow headers' body) ∧
      ((∀ ts sig expected, lastTimestamp text = some ts →
          crypto.hmacSha256 (asBytes v.secret) (ts ++ asBytes "." ++ body) = some expected →
          hexDecode sig = some expected → (sig ∈ v1Signatures text ↔ sig ∈ v1Signatures text')) →
        ((v.verify crypto utcNow headers body).status = .verified ↔
          (v.verify crypto utcNow headers' body).status = .verified))) ∧
    (∀ provider utcNow headers headers' body,
      headers'.get "triplea-signature" = headers.get "Stripe-Signature" → isUtf8 body = true →
      (TripleACryptoVerifier.mk provider v.secret v.tolerance).verify crypto utcNow headers' body
        = v.verify crypto utcNow headers body) ∧
    ((∀ m m' out, crypto.hmacSha256 (asBytes v.secret) m = some out →
        crypto.hmacSha256 (asBytes v.secret) m' = some out → m = m') →
      ∀ utcNow utcNow' text text' body body' ts ts' sig,
        AcceptsOn crypto v.secret v.tolerance utcNow text body ts sig →
        AcceptsOn crypto v.secret v.tolerance utcNow' text' body' ts' sig →
        ts = ts' ∧ body = body') := by
  have hiff : ∀ utcNow headers body value text, headers.get "Stripe-Signature" = some value →
      toStr value = some text → ((v.verify crypto utcNow headers body).status = .verified ↔
        isUtf8 body = true ∧
          ∃ ts sig, AcceptsOn crypto v.secret v.tolerance utcNow text body ts sig) := by
    intro utcNow headers body value text hvalue htext
    rw [v.verify_eq, hvalue]
    simp only [htext]
    exact timestampedVerdict_verified_iff
  refine ⟨?_, ?_, ?_, ?_⟩
  · intro utcNow headers body
    constructor
    · intro h
      cases hvalue : headers.get "Stripe-Signature" with
      | none =>
        rw [v.verify_eq, hvalue] at h
        exact absurd h (by simp [VerificationResult.failed])
      | some value =>
        cases htext : toStr value with
        | none =>
          rw [v.verify_eq, hvalue] at h
          simp [htext, VerificationResult.failed] at h
        | some text =>
          obtain ⟨hbody, ts, sig, hacc⟩ := (hiff utcNow headers body value text hvalue htext).mp h
          exact ⟨hbody, value, text, ts, sig, rfl, htext, hacc⟩
    · rintro ⟨hbody, value, text, ts, sig, hvalue, htext, hacc⟩
      exact (hiff utcNow headers body value text hvalue htext).mpr ⟨hbody, ts, sig, hacc⟩
  · intro utcNow headers headers' body value value' text text' hvalue htext hvalue' htext' hts
    refine ⟨fun hsigs => ?_, fun hsigs => ?_⟩
    · rw [v.verify_eq, v.verify_eq, hvalue, hvalue']
      simp only [htext, htext']
      exact timestampedVerdict_congr hts hsigs
    · rw [hiff utcNow headers body value text hvalue htext,
        hiff utcNow headers' body value' text' hvalue' htext']
      refine and_congr_right fun _ => exists_congr fun ts => exists_congr fun sig => ⟨?_, ?_⟩
      · exact AcceptsOn.congr hts fun ts sig expected hlast hmac hhex =>
          (hsigs ts sig expected hlast hmac hhex).mp
      · exact AcceptsOn.congr hts.symm fun ts sig expected hlast hmac hhex =>
          (hsigs ts sig expected (hts.trans hlast) hmac hhex).mpr
  · intro provider utcNow headers headers' body hvalue hbody
    rw [TripleACryptoVerifier.verify_eq, v.verify_eq, hvalue, hbody]
  · intro hinj utcNow utcNow' text text' body body' ts ts' sig h h'
    exact h.binding hinj h'

/-! ## 4. The `svix-*` headers -/

/-- The request is accepted on the strength of its entry `v1,sig`, with `id` and `ts` as the texts of
its other two headers.  `verified_iff` says that these are the requests that `verify` accepts. -/
structure WalapayVerifier.AcceptsOn (crypto : Crypto) (v : WalapayVerifier) (utcNow : Timestamp)
    (headers : HeaderMap) (body id ts sig : Bytes) : Prop where
  msgId : (headers.get "svix-id").bind toStr = some id
  timestamp : (headers.get "svix-timestamp").bind toStr = some ts
  window : ∃ n, parseU64 ts = some n ∧ (utcNow / 1000000).toNat ≤ n + v.tolerance ∧
    n ≤ (utcNow / 1000000).toNat + v.tolerance
  signature : ∃ text, (headers.get "svix-signature").bind toStr = some text ∧
    asBytes "v1," ++ sig ∈ splitWhitespace text
  mac : ∃ expected, crypto.hmacSha256 v.key (id ++ asBytes "." ++ ts ++ asBytes "." ++ body)
    = some expected ∧ crypto.base64Encode expected = sig

theorem anyV1Match_iff {expected text : Bytes} :
    anyV1Match expected text = true ↔ asBytes "v1," ++ expected ∈ splitWhitespace text := by
  simp only [anyV1Match, List.any_eq_true, decide_eq_true_eq, stripPrefix_eq_some]
  constructor
  · rintro ⟨entry, hentry, rfl⟩; exact hentry
  · intro h; exact ⟨_, h, rfl⟩

section Walapay

variable {crypto : Crypto} {v : WalapayVerifier} {utcNow utcNow' : Timestamp}
  {headers headers' : HeaderMap} {body body' id id' ts ts' sig : Bytes}

/-- **When `WalapayVerifier` accepts.** -/
theorem WalapayVerifier.verified_iff :
    (v.verify crypto utcNow headers body).status = .verified ↔
      ∃ id ts sig, v.AcceptsOn crypto utcNow headers body id ts sig := by
  have hfailed : ∀ reason, ¬ (VerificationResult.failed reason).status = .verified :=
    fun reason h => absurd h (by simp [VerificationResult.failed])
  unfold WalapayVerifier.verify
  constructor
  · intro h
    split at h
    · exact absurd h (hfailed _)
    rename_i idValue hid
    split at h
    · exact absurd h (hfailed _)
    rename_i tsValue hts
    split at h
    · exact absurd h (hfailed _)
    rename_i sigValue hsig
    split at h
    · exact absurd h (hfailed _)
    rename_i id hid'
    split at h
    · exact absurd h (hfailed _)
    rename_i ts hts'
    split at h
    · exact absurd h (hfailed _)
    rename_i text htext
    split at h
    · exact absurd h (hfailed _)
    rename_i n hn
    split at h
    · exact absurd h (hfailed _)
    rename_i hexp
    split at h
    · exact absurd h (hfailed _)
    rename_i expected hmac
    split at h
    · rename_i hmatch
      exact ⟨id, ts, crypto.base64Encode expected, by rw [hid]; exact hid', by rw [hts]; exact hts',
        ⟨n, hn, expired_eq_false_iff.mp (by simpa using hexp)⟩,
        ⟨text, by rw [hsig]; exact htext, anyV1Match_iff.mp hmatch⟩, ⟨expected, hmac, rfl⟩⟩
    · exact absurd h (hfailed _)
  · rintro ⟨id, ts, sig, hid, hts, ⟨n, hn, hwindow⟩, ⟨text, htext, hentry⟩, expected, hmac, rfl⟩
    obtain ⟨idValue, hidValue, hid⟩ := Option.bind_eq_some_iff.mp hid
    obtain ⟨tsValue, htsValue, hts⟩ := Option.bind_eq_some_iff.mp hts
    obtain ⟨sigValue, hsigValue, htext⟩ := Option.bind_eq_some_iff.mp htext
    have hmatch := anyV1Match_iff.mpr hentry
    have hexp := expired_eq_false_iff.mpr hwindow
    simp only [hidValue, htsValue, hsigValue, hid, hts, htext, hn, hexp, hmac, hmatch,
      Bool.false_eq_true, if_false, if_true, VerificationResult.verified]

/-- **What a Walapay signature binds.**  Two requests accepted on the strength of one entry agree in
id, timestamp and body exactly when their ids have equally many dots. -/
theorem walapay_binding_iff
    (hb64 : ∀ bs, crypto.base64Decode (crypto.base64Encode bs) = some bs)
    (hinj : ∀ m m' out, crypto.hmacSha256 v.key m = some out →
      crypto.hmacSha256 v.key m' = some out → m = m')
    (h : v.AcceptsOn crypto utcNow headers body id ts sig)
    (h' : v.AcceptsOn crypto utcNow' headers' body' id' ts' sig) :
    (id = id' ∧ ts = ts' ∧ body = body') ↔ id.count 46 = id'.count 46 := by
  refine ⟨fun hsame => by rw [hsame.1], fun hcount => ?_⟩
  obtain ⟨expected, hmac, henc⟩ := h.mac
  obtain ⟨expected', hmac', henc'⟩ := h'.mac
  have hexpected : some expected = some expected' := by rw [← hb64, ← hb64, henc, henc']
  rw [← Option.some.inj hexpected] at hmac'
  obtain ⟨n, hn, -⟩ := h.window
  obtain ⟨n', hn', -⟩ := h'.window
  have hsigned := hinj _ _ _ hmac hmac'
  simp only [List.append_assoc] at hsigned
  -- The dots of the ids are counted, and a timestamp has none.
  obtain ⟨hid, hrest⟩ := Separator.append_sep_inj_of_count hcount hsigned
  exact ⟨hid,
    Separator.append_sep_inj (dot_notMem_of_parseU64 hn) (dot_notMem_of_parseU64 hn') hrest⟩

end Walapay

/-! ## 5. Concrete requests -/

/-- An injective function that knows the HMAC of one message. -/
def hmacKnowing (key₀ message₀ digest key message : Bytes) : Option Bytes :=
  some (if key = key₀ ∧ message = message₀ then digest else message ++ List.replicate 33 0)

theorem hmacKnowing_inj {key₀ message₀ digest key m m' out : Bytes} (hlen : digest.length = 32)
    (h : hmacKnowing key₀ message₀ digest key m = some out)
    (h' : hmacKnowing key₀ message₀ digest key m' = some out) : m = m' := by
  have hne : ∀ bs : Bytes, digest ≠ bs ++ List.replicate 33 0 := by
    intro bs heq
    have := congrArg List.length heq
    rw [hlen, List.length_append, List.length_replicate] at this
    omega
  obtain rfl := Option.some.inj h
  have heq := Option.some.inj h'
  split at heq
  · rename_i hm'
    split at heq
    · rename_i hm
      rw [hm.2, hm'.2]
    · exact absurd heq (hne _)
  · split at heq
    · exact absurd heq.symm (hne _)
    · exact (List.append_cancel_right heq).symm

/-- The HMAC of `1700000000.ok` under `secret`. -/
def okDigest : Bytes :=
  [0x43, 0xe6, 0xb7, 0xc9, 0x2b, 0x12, 0x43, 0x91, 0xa3, 0x56, 0x71, 0x3c, 0x56, 0xde, 0xc5, 0x2b,
    0xb2, 0x89, 0x6a, 0xe6, 0xac, 0xea, 0xaa, 0x39, 0xd7, 0xc7, 0xe6, 0x2f, 0xcf, 0xe1, 0x38, 0xac]

/-- The HMAC of `msg_1.1700000000.x.1700009999.y` under `walapay-key`. -/
def dottedDigest : Bytes :=
  [0xee, 0x11, 0x87, 0x45, 0x13, 0xe0, 0x22, 0xee, 0x0b, 0xc3, 0xad, 0x49, 0x28, 0x50, 0xc1, 0x43,
    0x0e, 0x3c, 0x23, 0xcc, 0x16, 0x1d, 0xb8, 0x62, 0xe3, 0xeb, 0x56, 0x35, 0x8e, 0x33, 0xa4, 0x4f]

/-- Its Base64 form. -/
def dottedBase64 : Bytes := asBytes "7hGHRRPgIu4Lw61JKFDBQw48I8wWHbhi4+tWNY4zpE8="

/-- Cryptography that knows the HMAC of one message, and the Base64 form of `dottedDigest`. -/
def cryptoKnowing (key message digest : Bytes) : Crypto where
  sha256 _ := []
  hmacSha256 := hmacKnowing key message digest
  base64Decode c :=
    if c = dottedBase64 then some dottedDigest
    else match c with
      | 0 :: bs => some bs
      | _ => none
  base64Encode bs := if bs = dottedDigest then dottedBase64 else 0 :: bs
  pemAccepts _ := false
  rsaSignature _ := false
  rsaVerify _ _ _ := false

theorem cryptoKnowing_roundTrip (key message digest bs : Bytes) :
    (cryptoKnowing key message digest).base64Decode
      ((cryptoKnowing key message digest).base64Encode bs) = some bs := by
  by_cases h : bs = dottedDigest
  · subst h
    rfl
  · have hne : (0 :: bs : Bytes) ≠ dottedBase64 := by
      intro heq
      have hhead : some 0 = dottedBase64.head? := congrArg List.head? heq
      exact absurd hhead (by decide)
    simp only [cryptoKnowing, if_neg h, if_neg hne]

/-- A header with an unknown part, two timestamps and two signatures: the last timestamp counts, and
one signature matches. -/
theorem signature_header_exact_rotation :
    ((StripeVerifier.mk "stripe" "secret" 300).verify
      (cryptoKnowing (asBytes "secret") (asBytes "1700000000.ok") okDigest) 1700000100000000
      [("stripe-signature", asBytes
        "t=1,v1=00,v0=x,t=1700000000,v1=43e6b7c92b124391a356713c56dec52bb2896ae6aceaaa39d7c7e62fcfe138ac")]
      (asBytes "ok")).status = .verified := by
  refine ((signature_header_exact _ _).1 _ _ _).mpr ⟨by decide, _, _, asBytes "1700000000",
    asBytes "43e6b7c92b124391a356713c56dec52bb2896ae6aceaaa39d7c7e62fcfe138ac", rfl, rfl, ?_⟩
  exact ⟨by decide, ⟨1700000000, by decide, by decide, by decide⟩, by decide,
    ⟨okDigest, by decide, by decide⟩⟩

/-- The verifier of `walapay-key`. -/
def walapaySample : WalapayVerifier := ⟨"walapay", asBytes "walapay-key", 300⟩

/-- Cryptography that knows the signature of the message below. -/
def walapayCrypto : Crypto :=
  cryptoKnowing (asBytes "walapay-key") (asBytes "msg_1.1700000000.x.1700009999.y") dottedDigest

/-- The headers of a request with the signature of that message. -/
def svixHeaders (id ts : String) : HeaderMap :=
  [("svix-id", asBytes id), ("svix-timestamp", asBytes ts),
    ("svix-signature", asBytes "v1," ++ dottedBase64)]

/-- A captured request. -/
theorem captured_accepted : walapaySample.AcceptsOn walapayCrypto 1700000000000000
    (svixHeaders "msg_1" "1700000000") (asBytes "x.1700009999.y") (asBytes "msg_1")
    (asBytes "1700000000") dottedBase64 :=
  ⟨by decide, by decide, ⟨1700000000, by decide, by decide, by decide⟩, ⟨_, rfl, by decide⟩,
    ⟨dottedDigest, by decide, rfl⟩⟩

/-- The same signature, with a dotted id, a later timestamp and what is left of the body. -/
theorem forged_accepted : walapaySample.AcceptsOn walapayCrypto 1700009999000000
    (svixHeaders "msg_1.1700000000.x" "1700009999") (asBytes "y") (asBytes "msg_1.1700000000.x")
    (asBytes "1700009999") dottedBase64 :=
  ⟨by decide, by decide, ⟨1700009999, by decide, by decide, by decide⟩, ⟨_, rfl, by decide⟩,
    ⟨dottedDigest, by decide, rfl⟩⟩

/-- The headers of the captured request when it is sent again, with a second entry. -/
def svixResent : HeaderMap :=
  [("svix-id", asBytes "msg_1"), ("svix-timestamp", asBytes "1700000000"),
    ("svix-signature", asBytes "v1,AAAA v1," ++ dottedBase64)]

theorem resent_accepted : walapaySample.AcceptsOn walapayCrypto 1700000123000000 svixResent
    (asBytes "x.1700009999.y") (asBytes "msg_1") (asBytes "1700000000") dottedBase64 :=
  ⟨by decide, by decide, ⟨1700000000, by decide, by decide, by decide⟩, ⟨_, rfl, by decide⟩,
    ⟨dottedDigest, by decide, rfl⟩⟩

/-- The captured request, sent again two minutes later with another entry besides. -/
theorem walapay_binding_captured :
    (walapaySample.verify walapayCrypto 1700000000000000 (svixHeaders "msg_1" "1700000000")
      (asBytes "x.1700009999.y")).status = .verified ∧
    (walapaySample.verify walapayCrypto 1700000123000000 svixResent
      (asBytes "x.1700009999.y")).status = .verified ∧
    ((asBytes "msg_1" = asBytes "msg_1" ∧ asBytes "1700000000" = asBytes "1700000000" ∧
      asBytes "x.1700009999.y" = asBytes "x.1700009999.y") ↔
      (asBytes "msg_1").count 46 = (asBytes "msg_1").count 46) :=
  ⟨WalapayVerifier.verified_iff.mpr ⟨_, _, _, captured_accepted⟩,
    WalapayVerifier.verified_iff.mpr ⟨_, _, _, resent_accepted⟩,
    walapay_binding_iff (cryptoKnowing_roundTrip _ _ _) (fun _ _ _ => hmacKnowing_inj rfl)
      captured_accepted resent_accepted⟩

/-- **A signature that binds less**: two accepted requests with one signature, under an injective HMAC,
with different ids, timestamps and bodies. -/
theorem walapay_binding_violated :
    (∀ m m' out, walapayCrypto.hmacSha256 walapaySample.key m = some out →
      walapayCrypto.hmacSha256 walapaySample.key m' = some out → m = m') ∧
    ∃ headers headers' body body' id id' ts ts' sig,
      walapaySample.AcceptsOn walapayCrypto 1700000000000000 headers body id ts sig ∧
      walapaySample.AcceptsOn walapayCrypto 1700009999000000 headers' body' id' ts' sig ∧
      (walapaySample.verify walapayCrypto 1700000000000000 headers body).status = .verified ∧
      (walapaySample.verify walapayCrypto 1700009999000000 headers' body').status = .verified ∧
      id ≠ id' ∧ ts ≠ ts' ∧ body ≠ body' :=
  ⟨fun _ _ _ => hmacKnowing_inj rfl, _, _, _, _, _, _, _, _, _, captured_accepted, forged_accepted,
    WalapayVerifier.verified_iff.mpr ⟨_, _, _, captured_accepted⟩,
    WalapayVerifier.verified_iff.mpr ⟨_, _, _, forged_accepted⟩, by decide, by decide, by decide⟩

end Hookbox
