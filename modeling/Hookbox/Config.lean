/-
# The configuration

`hookbox-server/src/config.rs`: the parsed TOML file, the rewriting of the legacy `[emitter]`
section, and the validation of the `[[emitters]]` entries.  The `toml` parser itself is left out:
`HookboxConfig` starts where the parser ends.

* `validateEmitterEntries_eq_ok_iff`: what the validator asks for, as one predicate of an entry and
  the distinctness of the names.
* `normalize_spec`: what a normalised configuration is made of.

A float is a rational, an infinity or NaN, with the comparisons of IEEE 754.  The messages of
`ConfigError` keep what they quote; `Violation.text` puts them into words, given the `Debug` form
of a string.
-/
import Mathlib
import Hookbox.Providers

namespace Hookbox

/-! ## 1. Floats -/

/-- An `f64`, as TOML can express it. -/
inductive F64 where
  | finite (q : ℚ)
  | posInf
  | negInf
  | nan
deriving DecidableEq

/-- `<` of IEEE 754. -/
def F64.lt : F64 → F64 → Bool
  | .finite p, .finite q => p < q
  | .finite _, .posInf => true
  | .negInf, .finite _ => true
  | .negInf, .posInf => true
  | _, _ => false

/-! ## 2. Sections -/

structure KafkaEmitterConfig where
  brokers : String
  topic : String
  clientId : String := "hookbox"
  acks : String := "all"
  timeoutMs : Nat := 5000

structure NatsEmitterConfig where
  url : String
  subject : String

structure SqsEmitterConfig where
  queueUrl : String
  region : Option String := none
  fifo : Bool := false
  endpointUrl : Option String := none

structure RedisEmitterConfig where
  url : String
  stream : String
  maxlen : Option Nat := none
  timeoutMs : Nat := 5000

/-- `[emitter]`, the legacy section. -/
structure EmitterConfig where
  emitterType : String := "channel"
  kafka : Option KafkaEmitterConfig := none
  nats : Option NatsEmitterConfig := none
  sqs : Option SqsEmitterConfig := none
  redis : Option RedisEmitterConfig := none

/-- `[emitters.retry]`. -/
structure RetryPolicyConfig where
  maxAttempts : Int32 := 5
  initialBackoffSeconds : Nat := 30
  maxBackoffSeconds : Nat := 3600
  backoffMultiplier : F64 := .finite 2
  jitter : F64 := .finite (1 / 5)

/-- `RetryPolicyConfig::into_policy`. -/
def RetryPolicyConfig.intoPolicy (retry : RetryPolicyConfig) : RetryPolicy where
  maxAttempts := retry.maxAttempts

/-- One `[[emitters]]` entry.  The defaults are those of its `Default` instance. -/
structure EmitterEntry where
  name : String := ""
  emitterType : String := ""
  pollIntervalSeconds : Nat := 5
  concurrency : Nat := 1
  leaseDurationSeconds : Option Nat := none
  kafka : Option KafkaEmitterConfig := none
  nats : Option NatsEmitterConfig := none
  sqs : Option SqsEmitterConfig := none
  redis : Option RedisEmitterConfig := none
  retry : RetryPolicyConfig := {}

/-- `[server]`. -/
structure ServerConfig where
  host : String := "0.0.0.0"
  port : UInt16 := 8080
  bodyLimit : Nat := 1048576

/-- `[database]`; the one section without a default. -/
structure DatabaseConfig where
  url : String
  maxConnections : UInt32 := 10

/-- `[dedupe]`. -/
structure DedupeConfig where
  lruCapacity : Nat := 10000

/-- `[admin]`. -/
structure AdminConfig where
  bearerToken : Option String := none

/-- `[retry]`, the global section. -/
structure RetryConfig where
  intervalSeconds : Nat := 30
  maxAttempts : Int32 := 5

structure HookboxConfig where
  server : ServerConfig := {}
  database : DatabaseConfig
  providers : Std.ExtTreeMap String ProviderConfig := ∅
  dedupe : DedupeConfig := {}
  admin : AdminConfig := {}
  retry : RetryConfig := {}
  emitter : Option EmitterConfig := none
  emitters : List EmitterEntry := []

/-! ## 3. Errors -/

/-- The messages of `ConfigError::Validation`, with what they quote. -/
inductive Violation where
  | bothSections
  | noEmitters
  | badName (name : String)
  | duplicateName (name : String)
  | concurrency (name : String)
  | pollInterval (name : String)
  | jitter (name : String)
  | maxAttempts (name : String)
  | leaseDuration (name : String)
  | missingSection (name section_ : String)
  | unknownType (name emitterType : String)
deriving DecidableEq

/-- The text of a message; `debug` is `{:?}` of a string. -/
def Violation.text (debug : String → String) : Violation → String
  | bothSections => "use either `[emitter]` (legacy) or `[[emitters]]` (preferred), not both"
  | noEmitters => "no emitters configured"
  | badName name => "emitter name " ++ debug name ++ " does not match [a-zA-Z0-9_-]\x7b1,64\x7d"
  | duplicateName name => "duplicate emitter name " ++ debug name
  | concurrency name => "emitter " ++ debug name ++ ": concurrency must be >= 1"
  | pollInterval name =>
    "emitter " ++ debug name ++
      ": poll_interval_seconds must be >= 1 (0 would busy-loop against Postgres)"
  | jitter name => "emitter " ++ debug name ++ ": retry.jitter must be in [0.0, 1.0]"
  | maxAttempts name => "emitter " ++ debug name ++ ": retry.max_attempts must be >= 1"
  | leaseDuration name => "emitter " ++ debug name ++ ": lease_duration_seconds must be > 0"
  | missingSection name section_ =>
    "emitter " ++ debug name ++ ": type = \"" ++ section_ ++ "\" requires a [emitters." ++
      section_ ++ "] section"
  | unknownType name emitterType =>
    "emitter " ++ debug name ++ ": unknown type " ++ debug emitterType ++
      "; expected one of \"channel\", \"kafka\", \"nats\", \"sqs\", \"redis\""

/-! ## 4. Validation -/

/-- `is_valid_emitter_name`. -/
def isValidEmitterName (name : String) : Bool :=
  let len := name.toList.length
  if ¬ (1 ≤ len ∧ len ≤ 64) then false
  else name.toList.all fun c => c.isAlphanum || c = '_' || c = '-'

/-- The `match` on the type of an entry. -/
def validateType (e : EmitterEntry) : Except Violation Unit :=
  match e.emitterType with
  | "channel" => .ok ()
  | "kafka" => if e.kafka.isNone then .error (.missingSection e.name "kafka") else .ok ()
  | "nats" => if e.nats.isNone then .error (.missingSection e.name "nats") else .ok ()
  | "sqs" => if e.sqs.isNone then .error (.missingSection e.name "sqs") else .ok ()
  | "redis" => if e.redis.isNone then .error (.missingSection e.name "redis") else .ok ()
  | other => .error (.unknownType e.name other)

/-- One round of the loop of `validate_emitter_entries`. -/
def validateEntry (seen : List String) (e : EmitterEntry) : Except Violation Unit :=
  if !isValidEmitterName e.name then .error (.badName e.name)
  else if e.name ∈ seen then .error (.duplicateName e.name)
  else if e.concurrency = 0 then .error (.concurrency e.name)
  else if e.pollIntervalSeconds = 0 then .error (.pollInterval e.name)
  else if e.retry.jitter.lt (.finite 0) || (F64.finite 1).lt e.retry.jitter then
    .error (.jitter e.name)
  else if e.retry.maxAttempts < 1 then .error (.maxAttempts e.name)
  else if e.leaseDurationSeconds = some 0 then .error (.leaseDuration e.name)
  else validateType e

/-- The loop of `validate_emitter_entries`, with the names it has seen. -/
def validateEntries : List String → List EmitterEntry → Except Violation Unit
  | _, [] => .ok ()
  | seen, e :: es => do
    validateEntry seen e
    validateEntries (e.name :: seen) es

/-- `validate_emitter_entries`. -/
def validateEmitterEntries (entries : List EmitterEntry) : Except Violation Unit :=
  validateEntries [] entries

/-! ## 5. Normalisation -/

/-- `EmitterEntry::from_legacy`. -/
def EmitterEntry.fromLegacy (legacy : EmitterConfig) (globalRetry : RetryConfig) : EmitterEntry where
  name := "default"
  emitterType := legacy.emitterType
  pollIntervalSeconds := globalRetry.intervalSeconds
  kafka := legacy.kafka
  nats := legacy.nats
  sqs := legacy.sqs
  redis := legacy.redis
  retry := { maxAttempts := globalRetry.maxAttempts }

/-- The `match` of `normalize`: the two sections become one, with a warning for the legacy one. -/
def mergeSections (config : HookboxConfig) : Except Violation (HookboxConfig × List String) :=
  match config.emitter, config.emitters.isEmpty with
  | some _, false => .error .bothSections
  | none, true => .error .noEmitters
  | some legacy, true =>
    .ok ({ config with emitters := [.fromLegacy legacy config.retry], emitter := none },
      ["`[emitter]` is deprecated; migrate to `[[emitters]]`"])
  | none, false => .ok (config, [])

/-- `normalize`: the configuration and the warnings. -/
def normalize (config : HookboxConfig) : Except Violation (HookboxConfig × List String) := do
  let merged ← mergeSections config
  validateEmitterEntries merged.1.emitters
  return merged

/-! ## 6. What validation guarantees -/

/-- The backend section an entry's type asks for is there. -/
def EmitterEntry.TypeOk (e : EmitterEntry) : Prop :=
  e.emitterType = "channel" ∨ (e.emitterType = "kafka" ∧ e.kafka.isSome) ∨
    (e.emitterType = "nats" ∧ e.nats.isSome) ∨ (e.emitterType = "sqs" ∧ e.sqs.isSome) ∨
    (e.emitterType = "redis" ∧ e.redis.isSome)

/-- The rules for one entry. -/
structure EmitterEntry.Valid (e : EmitterEntry) : Prop where
  name : isValidEmitterName e.name = true
  concurrency : 1 ≤ e.concurrency
  pollInterval : 1 ≤ e.pollIntervalSeconds
  jitter : e.retry.jitter.lt (.finite 0) = false ∧ (F64.finite 1).lt e.retry.jitter = false
  maxAttempts : 1 ≤ e.retry.maxAttempts
  leaseDuration : e.leaseDurationSeconds ≠ some 0
  type : e.TypeOk

theorem validateType_eq_ok_iff {e : EmitterEntry} : validateType e = .ok () ↔ e.TypeOk := by
  unfold validateType EmitterEntry.TypeOk
  split
  · rename_i h; simp [h]
  · rename_i h; cases hk : e.kafka <;> simp [h]
  · rename_i h; cases hk : e.nats <;> simp [h]
  · rename_i h; cases hk : e.sqs <;> simp [h]
  · rename_i h; cases hk : e.redis <;> simp [h]
  · rename_i h₁ h₂ h₃ h₄ h₅
    refine iff_of_false (by simp) ?_
    rintro (h | ⟨h, -⟩ | ⟨h, -⟩ | ⟨h, -⟩ | ⟨h, -⟩)
    exacts [h₁ h, h₂ h, h₃ h, h₄ h, h₅ h]

theorem validateEntry_eq_ok_iff {seen : List String} {e : EmitterEntry} :
    validateEntry seen e = .ok () ↔ e.Valid ∧ e.name ∉ seen := by
  unfold validateEntry
  simp only [Except.ite_error_eq_ok_iff, validateType_eq_ok_iff]
  constructor
  · rintro ⟨h₁, h₂, h₃, h₄, h₅, h₆, h₇, h₈⟩
    refine ⟨⟨by simpa using h₁, by omega, by omega, by simpa using h₅, ?_, h₇, h₈⟩, h₂⟩
    exact Int32.not_lt.mp h₆
  · rintro ⟨⟨h₁, h₃, h₄, h₅, h₆, h₇, h₈⟩, h₂⟩
    refine ⟨by simpa using h₁, h₂, by omega, by omega, by simpa using h₅, ?_, h₇, h₈⟩
    exact Int32.not_lt.mpr h₆

theorem validateEntries_eq_ok_iff {es : List EmitterEntry} :
    ∀ {seen : List String}, validateEntries seen es = .ok () ↔
      (∀ e ∈ es, e.Valid) ∧ (es.map (·.name)).Nodup ∧ ∀ e ∈ es, e.name ∉ seen := by
  induction es with
  | nil => intro seen; simp [validateEntries]
  | cons e es ih =>
    intro seen
    have hcons : validateEntries seen (e :: es) = .ok () ↔
        validateEntry seen e = .ok () ∧ validateEntries (e.name :: seen) es = .ok () := by
      rw [validateEntries, Except.bind_eq_ok]
      exact ⟨fun ⟨_, h, h'⟩ => ⟨h, h'⟩, fun ⟨h, h'⟩ => ⟨(), h, h'⟩⟩
    rw [hcons, validateEntry_eq_ok_iff, ih, List.forall_mem_cons, List.forall_mem_cons,
      List.map_cons, List.nodup_cons]
    simp only [List.mem_cons, not_or, List.mem_map, not_exists, not_and]
    constructor
    · rintro ⟨⟨hv, hs⟩, hvs, hnd, hrest⟩
      exact ⟨⟨hv, hvs⟩, ⟨fun a ha heq => (hrest a ha).1 heq, hnd⟩, hs, fun a ha => (hrest a ha).2⟩
    · rintro ⟨⟨hv, hvs⟩, ⟨hne, hnd⟩, hs, hrest⟩
      exact ⟨⟨hv, hs⟩, hvs, hnd, fun a ha => ⟨fun heq => hne a ha heq, hrest a ha⟩⟩

/-- **What `validate_emitter_entries` asks for.** -/
theorem validateEmitterEntries_eq_ok_iff {es : List EmitterEntry} :
    validateEmitterEntries es = .ok () ↔ (∀ e ∈ es, e.Valid) ∧ (es.map (·.name)).Nodup := by
  rw [validateEmitterEntries, validateEntries_eq_ok_iff]
  simp

/-- **A normalised configuration** has valid entries with distinct names, at least one of them, no
legacy section, and every other section as it was. -/
structure HookboxConfig.NormalOf (cfg config : HookboxConfig) : Prop where
  valid : ∀ e ∈ cfg.emitters, e.Valid
  nodup : (cfg.emitters.map (·.name)).Nodup
  nonempty : cfg.emitters ≠ []
  noLegacy : cfg.emitter = none
  rest : cfg = { config with emitter := none, emitters := cfg.emitters }

theorem normalize_spec {config cfg : HookboxConfig} {warnings : List String}
    (h : normalize config = .ok (cfg, warnings)) : cfg.NormalOf config := by
  obtain ⟨merged, hmerge, h⟩ := Except.bind_eq_ok.mp h
  obtain ⟨u, hvalid, h⟩ := Except.bind_eq_ok.mp h
  cases h
  obtain ⟨hvalid, hnd⟩ := validateEmitterEntries_eq_ok_iff.mp hvalid
  unfold mergeSections at hmerge
  split at hmerge
  · exact absurd hmerge (by simp)
  · exact absurd hmerge (by simp)
  · cases hmerge
    exact ⟨hvalid, hnd, by simp, rfl, rfl⟩
  · rename_i hemitter hemitters
    cases hmerge
    refine ⟨hvalid, hnd, ?_, hemitter, ?_⟩
    · intro hnil
      rw [hnil] at hemitters
      exact absurd hemitters (by simp)
    · rw [← hemitter]

/-- A configuration without the legacy section whose entries are valid is normal already. -/
theorem normalize_of_valid {config : HookboxConfig} (hlegacy : config.emitter = none)
    (hne : config.emitters ≠ []) (hvalid : ∀ e ∈ config.emitters, e.Valid)
    (hnd : (config.emitters.map (·.name)).Nodup) : normalize config = .ok (config, []) := by
  have hmerge : mergeSections config = .ok (config, []) := by
    unfold mergeSections
    cases hes : config.emitters with
    | nil => exact absurd hes hne
    | cons e es => rw [hlegacy]; rfl
  refine Except.bind_eq_ok.mpr ⟨(config, []), hmerge, Except.bind_eq_ok.mpr ⟨(), ?_, rfl⟩⟩
  exact validateEmitterEntries_eq_ok_iff.mpr ⟨hvalid, hnd⟩

/-- The defaults of an entry pass their own checks. -/
theorem EmitterEntry.valid_default {name : String} (hname : isValidEmitterName name = true) :
    EmitterEntry.Valid { name := name, emitterType := "channel" } where
  name := hname
  concurrency := by simp
  pollInterval := by simp
  jitter := by
    constructor
    · simp [F64.lt]
    · simp only [F64.lt, decide_eq_false_iff_not]
      norm_num
  maxAttempts := show (1 : Int32) ≤ 5 by decide
  leaseDuration := by simp
  type := Or.inl rfl

/-- No character of a valid name is a NUL. -/
theorem isValidEmitterName_nul {name : String} (h : isValidEmitterName name = true) :
    Char.ofNat 0 ∉ name.toList := by
  intro hmem
  unfold isValidEmitterName at h
  simp only [] at h
  split at h
  · exact absurd h (by simp)
  · have := List.all_eq_true.mp h _ hmem
    exact absurd this (by decide)

end Hookbox
