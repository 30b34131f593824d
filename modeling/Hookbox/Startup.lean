/-
# Start-up

The part of `serve_inner` (`hookbox-server/src/serve.rs`) that does not touch the database:
`validate_retry_config`, `build_pipeline` with the constructor of the cache, and the settings that
`spawn_emitter_workers` gives its workers.

`hookbox config validate` runs `normalize` and nothing else, and `normalize` looks at the emitter
entries only.  What start-up checks is checked later, elsewhere, and on other fields:

* `startup_succeeds_iff`: a configuration that `normalize` accepts starts exactly when it is
  `Startable`, which is about `[retry]`, `[dedupe]` and `[providers]`.
* `startup_zero_capacity`: one that `normalize` accepts and that panics.
-/
import Hookbox.Config
import Hookbox.System

namespace Hookbox

/-! ## 1. The steps -/

/-- How a start-up step fails. -/
inductive StartupFailure where
  | error (e : AnyhowError)
  | panicked (message : String)
deriving DecidableEq

/-- The operator `?`, where an error is returned and a panic goes through. -/
def orError {α : Type} (r : Except AnyhowError α) : Except StartupFailure α :=
  match r with
  | .ok a => .ok a
  | .error e => .error (.error e)

/-- `validate_retry_config`. -/
def validateRetryConfig (retry : RetryConfig) : Except AnyhowError Unit :=
  if ¬ retry.intervalSeconds ≥ 1 then .error ["retry.interval_seconds must be >= 1"]
  else if ¬ retry.maxAttempts ≥ 1 then .error ["retry.max_attempts must be >= 1"]
  else .ok ()

/-- `InMemoryRecentDedupe::new`, with its assertion. -/
def InMemoryRecentDedupe.new (capacity : Nat) : Except StartupFailure InMemoryRecentDedupe :=
  if capacity > 0 then .ok { capacity := capacity }
  else .error (.panicked "InMemoryRecentDedupe capacity must be > 0")

section Steps

variable (crypto : Crypto)

/-- `build_pipeline`. -/
def buildPipeline (config : HookboxConfig) : Except StartupFailure Pipeline := do
  let lru ← InMemoryRecentDedupe.new config.dedupe.lruCapacity
  let emitterNames := config.emitters.map (·.name)
  let verifiers ← orError (buildProviderVerifiers crypto config.providers)
  return ⟨emitterNames, registerVerifiers verifiers, lru.capacity⟩

/-- The database-independent steps of `serve_inner`, in their order. -/
def startup (config : HookboxConfig) : Except StartupFailure Pipeline := do
  orError (validateRetryConfig config.retry)
  buildPipeline crypto config

end Steps

/-- `DEFAULT_LEASE_DURATION`, in microseconds. -/
def defaultLeaseDuration : Duration := 30000000

/-- The worker that `spawn_emitter_workers` makes of an entry. -/
def EmitterEntry.worker (entry : EmitterEntry) : WorkerConfig where
  name := entry.name
  policy := entry.retry.intoPolicy
  concurrency := entry.concurrency
  leaseDuration := match entry.leaseDurationSeconds with
    | some seconds => seconds * 1000000
    | none => defaultLeaseDuration

/-! ## 2. When each step succeeds -/

/-- The value is there and not empty. -/
def NonEmpty (value : Option String) (s : String) : Prop := value = some s ∧ s ≠ ""

/-- The key material that a provider's verifier type asks for is there, and its decoder accepts
it. -/
def ProviderConfig.Complete (crypto : Crypto) (provider : ProviderConfig) : Prop :=
  match provider.verifierType with
  | "adyen" => ∃ s, NonEmpty provider.secret s ∧ (hexDecode (asBytes s)).isSome
  | "triplea-fiat" => ∃ pem, NonEmpty provider.publicKey pem ∧ crypto.pemAccepts pem
  | "walapay" => ∃ s, NonEmpty provider.secret s ∧ ∃ b64 key,
      stripPrefix (asBytes "whsec_") (asBytes s) = some b64 ∧
      crypto.base64Decode b64 = some key ∧ key ≠ []
  | _ => ∃ s, NonEmpty provider.secret s

/-- What start-up asks of a configuration. -/
structure HookboxConfig.Startable (crypto : Crypto) (config : HookboxConfig) : Prop where
  interval : 1 ≤ config.retry.intervalSeconds
  maxAttempts : 1 ≤ config.retry.maxAttempts
  capacity : 1 ≤ config.dedupe.lruCapacity
  providers : ∀ entry ∈ config.providers.toList, entry.2.Complete crypto

theorem orError_eq_ok_iff {α : Type} {r : Except AnyhowError α} {a : α} :
    orError r = .ok a ↔ r = .ok a := by
  cases r <;> simp [orError]

theorem nonEmpty_eq_ok_iff {value : Option String} {error s : String} :
    nonEmpty value error = .ok s ↔ NonEmpty value s := by
  unfold nonEmpty NonEmpty
  cases value with
  | none => simp
  | some t =>
    by_cases ht : t = ""
    · subst ht
      simp
    · simp only [String.isEmpty_iff, ht, if_false, Except.ok.injEq, Option.some.injEq]
      exact ⟨fun h => ⟨h, h ▸ ht⟩, And.left⟩

section Succeeds

variable {crypto : Crypto} {provider : ProviderConfig}

/-- An arm of `build_one_verifier`: it takes its text and goes on. -/
theorem nonEmpty_bind_succeeds_iff {value : Option String} {error : String}
    {next : String → Except AnyhowError SignatureVerifier} {P : String → Prop}
    (hnext : ∀ s, NonEmpty value s → ((∃ v, next s = .ok v) ↔ P s)) :
    (∃ v, (nonEmpty value error >>= next) = .ok v) ↔ ∃ s, NonEmpty value s ∧ P s := by
  rw [Except.bind_succeeds_iff]
  refine exists_congr fun s => ?_
  rw [nonEmpty_eq_ok_iff]
  exact and_congr_right fun hs => hnext s hs

/-- An arm that cannot fail once it has its text. -/
theorem nonEmpty_return_succeeds_iff {value : Option String} {error : String}
    {make : String → SignatureVerifier} :
    (∃ v, (nonEmpty value error >>= fun s => Except.ok (make s)) = .ok v)
      ↔ ∃ s, NonEmpty value s := by
  rw [Except.bind_succeeds_iff]
  simp only [nonEmpty_eq_ok_iff, Except.ok.injEq, exists_eq', and_true]

theorem AdyenVerifier.new_isSome_iff (name : String) {s : String} (hs : s ≠ "") :
    (AdyenVerifier.new name s).isSome ↔ (hexDecode (asBytes s)).isSome := by
  rw [AdyenVerifier.new, if_neg (by simpa using hs), Option.isSome_map]

theorem TripleAFiatVerifier.new_isSome_iff (name : String) {pem : String} :
    (TripleAFiatVerifier.new crypto name pem).isSome ↔ crypto.pemAccepts pem := by
  unfold TripleAFiatVerifier.new
  split <;> simp_all

theorem WalapayVerifier.new_isSome_iff (name : String) {s : String} :
    (WalapayVerifier.new crypto name s).isSome ↔ ∃ b64 key,
      stripPrefix (asBytes "whsec_") (asBytes s) = some b64 ∧
      crypto.base64Decode b64 = some key ∧ key ≠ [] := by
  unfold WalapayVerifier.new
  cases stripPrefix (asBytes "whsec_") (asBytes s) with
  | none => simp
  | some b64 =>
    cases hkey : crypto.base64Decode b64 with
    | none => simp [hkey]
    | some key => cases key <;> simp [hkey]

theorem buildGeneric_succeeds_iff (name : String) :
    (∃ v, buildGeneric crypto name provider = .ok v) ↔ ∃ s, NonEmpty provider.secret s :=
  nonEmpty_return_succeeds_iff

/-- **A verifier is built exactly from a complete entry.** -/
theorem buildOneVerifier_succeeds_iff (name : String) :
    (∃ v, buildOneVerifier crypto name provider = .ok v) ↔ provider.Complete crypto := by
  unfold buildOneVerifier ProviderConfig.Complete
  split
  · rename_i h
    simp only [h]
    exact nonEmpty_return_succeeds_iff
  · rename_i h
    simp only [h]
    refine nonEmpty_bind_succeeds_iff fun s hs => ?_
    rw [← AdyenVerifier.new_isSome_iff name hs.2]
    cases AdyenVerifier.new name s <;> simp [pure, Except.pure]
  · rename_i h
    simp only [h]
    exact nonEmpty_return_succeeds_iff
  · rename_i h
    simp only [h]
    refine nonEmpty_bind_succeeds_iff fun pem _ => ?_
    rw [← TripleAFiatVerifier.new_isSome_iff name]
    cases TripleAFiatVerifier.new crypto name pem <;> simp [pure, Except.pure]
  · rename_i h
    simp only [h]
    exact nonEmpty_return_succeeds_iff
  · rename_i h
    simp only [h]
    refine nonEmpty_bind_succeeds_iff fun s _ => ?_
    rw [← WalapayVerifier.new_isSome_iff name]
    cases WalapayVerifier.new crypto name s <;> simp [pure, Except.pure]
  · rename_i h
    simp only [h]
    exact nonEmpty_return_succeeds_iff
  · rename_i h
    simp only [h]
    exact buildGeneric_succeeds_iff name
  · rename_i hadyen _ hfiat _ hwalapay _ _
    refine (buildGeneric_succeeds_iff name).trans ?_
    split
    · rename_i h; exact absurd h hadyen
    · rename_i h; exact absurd h hfiat
    · rename_i h; exact absurd h hwalapay
    · exact Iff.rfl

theorem buildEntry_succeeds_iff {entry : String × ProviderConfig} :
    (∃ v, buildEntry crypto entry = .ok v) ↔ entry.2.Complete crypto := by
  rw [← buildOneVerifier_succeeds_iff entry.1]
  unfold buildEntry
  cases buildOneVerifier crypto entry.1 entry.2 <;> simp

/-- The loop of `build_provider_verifiers` succeeds when each of its rounds does. -/
theorem mapM_buildEntry_succeeds_iff {entries : List (String × ProviderConfig)} :
    (∃ vs, entries.mapM (buildEntry crypto) = .ok vs) ↔ ∀ e ∈ entries, e.2.Complete crypto := by
  rw [Except.mapM_succeeds_iff]
  exact forall₂_congr fun e _ => buildEntry_succeeds_iff

theorem validateRetryConfig_eq_ok_iff {retry : RetryConfig} :
    validateRetryConfig retry = .ok () ↔ 1 ≤ retry.intervalSeconds ∧ 1 ≤ retry.maxAttempts := by
  unfold validateRetryConfig
  rw [Except.ite_error_eq_ok_iff, Except.ite_error_eq_ok_iff, not_not, not_not]
  simp

theorem InMemoryRecentDedupe.new_succeeds_iff {capacity : Nat} :
    (∃ lru, InMemoryRecentDedupe.new capacity = .ok lru) ↔ 1 ≤ capacity := by
  unfold InMemoryRecentDedupe.new
  split
  · rename_i h
    exact ⟨fun _ => h, fun _ => ⟨_, rfl⟩⟩
  · rename_i h
    refine iff_of_false (by simp) ?_
    omega

theorem buildPipeline_succeeds_iff {config : HookboxConfig} :
    (∃ pipe, buildPipeline crypto config = .ok pipe) ↔
      1 ≤ config.dedupe.lruCapacity ∧ ∀ e ∈ config.providers.toList, e.2.Complete crypto := by
  rw [← mapM_buildEntry_succeeds_iff, ← InMemoryRecentDedupe.new_succeeds_iff]
  constructor
  · intro h
    obtain ⟨lru, hlru, h⟩ := Except.bind_succeeds_iff.mp h
    obtain ⟨vs, hvs, -⟩ := Except.bind_succeeds_iff.mp h
    exact ⟨⟨lru, hlru⟩, vs, orError_eq_ok_iff.mp hvs⟩
  · rintro ⟨⟨lru, hlru⟩, vs, hvs⟩
    refine Except.bind_succeeds_iff.mpr ⟨lru, hlru, Except.bind_succeeds_iff.mpr ⟨vs, ?_, _, rfl⟩⟩
    exact orError_eq_ok_iff.mpr hvs

/-- What `build_pipeline` returns. -/
theorem buildPipeline_spec {config : HookboxConfig} {pipe : Pipeline}
    (h : buildPipeline crypto config = .ok pipe) :
    ∃ vs, buildProviderVerifiers crypto config.providers = .ok vs ∧
      pipe = ⟨config.emitters.map (·.name), registerVerifiers vs, config.dedupe.lruCapacity⟩ := by
  obtain ⟨lru, hlru, h⟩ := Except.bind_eq_ok.mp h
  obtain ⟨vs, hvs, h⟩ := Except.bind_eq_ok.mp h
  cases h
  refine ⟨vs, orError_eq_ok_iff.mp hvs, ?_⟩
  unfold InMemoryRecentDedupe.new at hlru
  split at hlru
  · cases hlru
    rfl
  · exact absurd hlru (by simp)

/-- **When start-up succeeds.** -/
theorem startup_eq_ok_iff {config : HookboxConfig} :
    (∃ pipe, startup crypto config = .ok pipe) ↔ config.Startable crypto := by
  constructor
  · intro h
    obtain ⟨u, hretry, hpipe⟩ := Except.bind_succeeds_iff.mp h
    obtain ⟨hinterval, hmax⟩ := validateRetryConfig_eq_ok_iff.mp (orError_eq_ok_iff.mp hretry)
    obtain ⟨hcapacity, hproviders⟩ := buildPipeline_succeeds_iff.mp hpipe
    exact ⟨hinterval, hmax, hcapacity, hproviders⟩
  · rintro ⟨hinterval, hmax, hcapacity, hproviders⟩
    refine Except.bind_succeeds_iff.mpr ⟨(), ?_, ?_⟩
    · exact orError_eq_ok_iff.mpr (validateRetryConfig_eq_ok_iff.mpr ⟨hinterval, hmax⟩)
    · exact buildPipeline_succeeds_iff.mpr ⟨hcapacity, hproviders⟩

end Succeeds

/-! ## 3. A validated configuration -/

/-- **A validated configuration starts exactly when it is `Startable`.**  `Startable` is about the
file as written: normalisation changes neither `[retry]` nor `[dedupe]` nor `[providers]`. -/
theorem startup_succeeds_iff (crypto : Crypto) {config cfg : HookboxConfig}
    {warnings : List String} (h : normalize config = .ok (cfg, warnings)) :
    (∃ pipe, startup crypto cfg = .ok pipe) ↔ config.Startable crypto := by
  rw [startup_eq_ok_iff]
  have hrest := (normalize_spec h).rest
  have hproviders : cfg.providers = config.providers := congrArg (·.providers) hrest
  have hdedupe : cfg.dedupe = config.dedupe := congrArg (·.dedupe) hrest
  have hretry : cfg.retry = config.retry := congrArg (·.retry) hrest
  constructor
  · rintro ⟨hinterval, hmax, hcapacity, hentries⟩
    rw [hproviders] at hentries
    rw [hdedupe] at hcapacity
    rw [hretry] at hinterval hmax
    exact ⟨hinterval, hmax, hcapacity, hentries⟩
  · rintro ⟨hinterval, hmax, hcapacity, hentries⟩
    rw [← hproviders] at hentries
    rw [← hdedupe] at hcapacity
    rw [← hretry] at hinterval hmax
    exact ⟨hinterval, hmax, hcapacity, hentries⟩

/-- One channel emitter, a cache of the given capacity, and the defaults. -/
def sampleConfig (lruCapacity : Nat) : HookboxConfig where
  database := { url := "postgres://localhost/hookbox" }
  dedupe := ⟨lruCapacity⟩
  emitters := [{ name := "kafka", emitterType := "channel" }]

theorem sampleConfig_normal (lruCapacity : Nat) :
    normalize (sampleConfig lruCapacity) = .ok (sampleConfig lruCapacity, []) := by
  refine normalize_of_valid rfl (by simp [sampleConfig]) ?_ (by simp [sampleConfig])
  intro e he
  rw [List.mem_singleton.mp he]
  exact EmitterEntry.valid_default (by decide)

theorem startup_succeeds_iff_one_entry :
    normalize (sampleConfig 1) = .ok (sampleConfig 1, []) ∧
      ∃ pipe, startup sampleLib.toCrypto (sampleConfig 1) = .ok pipe := by
  have h := sampleConfig_normal 1
  refine ⟨h, (startup_succeeds_iff _ h).mpr ⟨by decide, by decide, by decide, ?_⟩⟩
  have hnone : (sampleConfig 1).providers.toList = [] := rfl
  simp [hnone]

/-- **A configuration that validates and panics**: a cache without room. -/
theorem startup_zero_capacity :
    normalize (sampleConfig 0) = .ok (sampleConfig 0, []) ∧
      startup sampleLib.toCrypto (sampleConfig 0)
        = .error (.panicked "InMemoryRecentDedupe capacity must be > 0") :=
  ⟨sampleConfig_normal 0, rfl⟩

end Hookbox
