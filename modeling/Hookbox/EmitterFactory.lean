/-
# From the configuration to an emitter

`hookbox-server/src/emitter_factory.rs`: `build_emitter`, which `hookbox serve` applies to every entry
of a normalised configuration.  It has a `match` on the type of its own, beside the one of
`validate_emitter_entries`.  The constructors of the backends open connections through client
libraries, so they are a parameter (`Constructors`); what the factory passes them is not.

* `normalize_succeeds_iff`: when a configuration normalises.
* `normalize_result`: what it normalises to, and that it stays there.
* `buildEmitter_selects`: a valid entry reaches the constructor of its backend.
* `normalize_exact`: the three of them together.
-/
import Mathlib
import Hookbox.Startup

namespace Hookbox

/-! ## 1. The factory -/

/-- `EmitterEntry::to_emitter_config`. -/
def EmitterEntry.toEmitterConfig (e : EmitterEntry) : EmitterConfig where
  emitterType := e.emitterType
  kafka := e.kafka
  nats := e.nats
  sqs := e.sqs
  redis := e.redis

/-- The constructors of the backends, with their arguments in order.  `Emitter` is
`Arc<dyn Emitter + Send + Sync>` and `Receiver` the receiving end of the development channel. -/
structure Constructors (Emitter Receiver : Type) where
  kafka : (brokers topic clientId acks : String) → (timeoutMs : Nat) → Except String Emitter
  nats : (url subject : String) → Except String Emitter
  sqs : (queueUrl : String) → (region : Option String) → (fifo : Bool) →
    (endpointUrl : Option String) → Except String Emitter
  redis : (url stream : String) → (maxlen : Option Nat) → (timeoutMs : Nat) →
    Except String Emitter
  channel : (buffer : Nat) → Emitter × Receiver

/-- `BuiltEmitter`. -/
inductive BuiltEmitter (Emitter Receiver : Type) where
  | ready (emitter : Emitter)
  | channel (emitter : Emitter) (rx : Receiver)
deriving DecidableEq

/-- Why `build_emitter` fails. -/
inductive FactoryError where
  | missingSection (section_ : String)
  | unknownType (other : String)
  | failedToCreate (backend cause : String)
deriving DecidableEq

/-- The chain of an error; `debug` is `{:?}` of a string. -/
def FactoryError.chain (debug : String → String) : FactoryError → AnyhowError
  | missingSection section_ =>
    ["[emitter." ++ section_ ++ "] section required when type = \"" ++ section_ ++ "\""]
  | unknownType other =>
    ["unknown emitter type " ++ debug other ++
      "; valid values: kafka, nats, sqs, redis, channel"]
  | failedToCreate backend cause => ["failed to create " ++ backend ++ " emitter", cause]

section Factory

variable {Emitter Receiver : Type}

/-- A constructor's result, with `.context("failed to create … emitter")` on its error. -/
def created (backend : String) (r : Except String Emitter) :
    Except FactoryError (BuiltEmitter Emitter Receiver) :=
  match r with
  | .ok emitter => .ok (.ready emitter)
  | .error cause => .error (.failedToCreate backend cause)

/-- `build_emitter`. -/
def buildEmitter (new : Constructors Emitter Receiver) (cfg : EmitterConfig) :
    Except FactoryError (BuiltEmitter Emitter Receiver) :=
  match cfg.emitterType with
  | "kafka" =>
    match cfg.kafka with
    | none => .error (.missingSection "kafka")
    | some kafka =>
      created "Kafka"
        (new.kafka kafka.brokers kafka.topic kafka.clientId kafka.acks kafka.timeoutMs)
  | "nats" =>
    match cfg.nats with
    | none => .error (.missingSection "nats")
    | some nats => created "NATS" (new.nats nats.url nats.subject)
  | "sqs" =>
    match cfg.sqs with
    | none => .error (.missingSection "sqs")
    | some sqs => created "SQS" (new.sqs sqs.queueUrl sqs.region sqs.fifo sqs.endpointUrl)
  | "redis" =>
    match cfg.redis with
    | none => .error (.missingSection "redis")
    | some redis =>
      created "Redis" (new.redis redis.url redis.stream redis.maxlen redis.timeoutMs)
  | "channel" =>
    let (emitter, rx) := new.channel 1024
    .ok (.channel emitter rx)
  | other => .error (.unknownType other)

/-- What reaching the constructor of an entry's backend means: the outcome is the one of the
constructor its type names, called with the settings of the entry's own section. -/
inductive EmitterEntry.Reaches (new : Constructors Emitter Receiver) (e : EmitterEntry) :
    Except FactoryError (BuiltEmitter Emitter Receiver) → Prop
  | channel (htype : e.emitterType = "channel") :
      Reaches new e (.ok (.channel (new.channel 1024).1 (new.channel 1024).2))
  | kafka {k : KafkaEmitterConfig} (htype : e.emitterType = "kafka") (hsome : e.kafka = some k) :
      Reaches new e
        (created "Kafka" (new.kafka k.brokers k.topic k.clientId k.acks k.timeoutMs))
  | nats {n : NatsEmitterConfig} (htype : e.emitterType = "nats") (hsome : e.nats = some n) :
      Reaches new e (created "NATS" (new.nats n.url n.subject))
  | sqs {q : SqsEmitterConfig} (htype : e.emitterType = "sqs") (hsome : e.sqs = some q) :
      Reaches new e (created "SQS" (new.sqs q.queueUrl q.region q.fifo q.endpointUrl))
  | redis {r : RedisEmitterConfig} (htype : e.emitterType = "redis") (hsome : e.redis = some r) :
      Reaches new e (created "Redis" (new.redis r.url r.stream r.maxlen r.timeoutMs))

/-- A constructor fails in its own way only. -/
theorem created_ne_error {backend : String} {r : Except String Emitter} {e : FactoryError}
    (he : ∀ backend cause, e ≠ .failedToCreate backend cause) :
    (created backend r : Except FactoryError (BuiltEmitter Emitter Receiver)) ≠ .error e := by
  intro h
  cases r with
  | ok emitter => exact absurd h (by simp [created])
  | error cause => exact he backend cause (Except.error.inj h).symm

theorem EmitterEntry.Reaches.ne_error {new : Constructors Emitter Receiver} {e : EmitterEntry}
    {r : Except FactoryError (BuiltEmitter Emitter Receiver)} (h : e.Reaches new r)
    {err : FactoryError} (herr : ∀ backend cause, err ≠ .failedToCreate backend cause) :
    r ≠ .error err := by
  cases h with
  | channel => simp
  | kafka => exact created_ne_error herr
  | nats => exact created_ne_error herr
  | sqs => exact created_ne_error herr
  | redis => exact created_ne_error herr

/-- **The two dispatches agree**: what the validator lets through, the factory hands to the backend's
constructor. -/
theorem buildEmitter_reaches (new : Constructors Emitter Receiver) {e : EmitterEntry}
    (he : e.TypeOk) : e.Reaches new (buildEmitter new e.toEmitterConfig) := by
  rcases he with htype | ⟨htype, hsome⟩ | ⟨htype, hsome⟩ | ⟨htype, hsome⟩ | ⟨htype, hsome⟩
  · have hbuild : buildEmitter new e.toEmitterConfig
        = .ok (.channel (new.channel 1024).1 (new.channel 1024).2) := by
      simp [buildEmitter, EmitterEntry.toEmitterConfig, htype]
    rw [hbuild]
    exact .channel htype
  · obtain ⟨k, hk⟩ := Option.isSome_iff_exists.mp hsome
    have hbuild : buildEmitter new e.toEmitterConfig
        = created "Kafka" (new.kafka k.brokers k.topic k.clientId k.acks k.timeoutMs) := by
      simp [buildEmitter, EmitterEntry.toEmitterConfig, htype, hk]
    rw [hbuild]
    exact .kafka htype hk
  · obtain ⟨n, hn⟩ := Option.isSome_iff_exists.mp hsome
    have hbuild : buildEmitter new e.toEmitterConfig
        = created "NATS" (new.nats n.url n.subject) := by
      simp [buildEmitter, EmitterEntry.toEmitterConfig, htype, hn]
    rw [hbuild]
    exact .nats htype hn
  · obtain ⟨q, hq⟩ := Option.isSome_iff_exists.mp hsome
    have hbuild : buildEmitter new e.toEmitterConfig
        = created "SQS" (new.sqs q.queueUrl q.region q.fifo q.endpointUrl) := by
      simp [buildEmitter, EmitterEntry.toEmitterConfig, htype, hq]
    rw [hbuild]
    exact .sqs htype hq
  · obtain ⟨r, hr⟩ := Option.isSome_iff_exists.mp hsome
    have hbuild : buildEmitter new e.toEmitterConfig
        = created "Redis" (new.redis r.url r.stream r.maxlen r.timeoutMs) := by
      simp [buildEmitter, EmitterEntry.toEmitterConfig, htype, hr]
    rw [hbuild]
    exact .redis htype hr

end Factory

/-! ## 2. The rules of an entry, in their own words -/

/-- `[a-zA-Z0-9_-]{1,64}`. -/
def EmitterName (name : String) : Prop :=
  (1 ≤ name.length ∧ name.length ≤ 64) ∧
    ∀ c ∈ name.toList, ('a' ≤ c ∧ c ≤ 'z') ∨ ('A' ≤ c ∧ c ≤ 'Z') ∨ ('0' ≤ c ∧ c ≤ '9') ∨
      c = '_' ∨ c = '-'

/-- The rules for the entries of a configuration. -/
structure EntryRules (entries : List EmitterEntry) : Prop where
  name : ∀ e ∈ entries, EmitterName e.name
  distinct : entries.Pairwise fun e e' => e.name ≠ e'.name
  concurrency : ∀ e ∈ entries, 1 ≤ e.concurrency
  pollInterval : ∀ e ∈ entries, 1 ≤ e.pollIntervalSeconds
  maxAttempts : ∀ e ∈ entries, 1 ≤ e.retry.maxAttempts
  leaseDuration : ∀ e ∈ entries, e.leaseDurationSeconds ≠ some 0
  jitterBelow : ∀ e ∈ entries, ¬ e.retry.jitter.lt (.finite 0)
  jitterAbove : ∀ e ∈ entries, ¬ (F64.finite 1).lt e.retry.jitter
  type : ∀ e ∈ entries, e.TypeOk

theorem isAlphanum_iff {c : Char} : c.isAlphanum = true ↔
    ('a' ≤ c ∧ c ≤ 'z') ∨ ('A' ≤ c ∧ c ≤ 'Z') ∨ ('0' ≤ c ∧ c ≤ '9') := by
  simp only [Char.isAlphanum, Char.isAlpha, Char.isUpper, Char.isLower, Char.isDigit, Char.le_def,
    Bool.or_eq_true, Bool.and_eq_true, decide_eq_true_eq, ge_iff_le]
  tauto

/-- `is_valid_emitter_name` is the regular expression of its message. -/
theorem isValidEmitterName_iff {name : String} :
    isValidEmitterName name = true ↔ EmitterName name := by
  unfold isValidEmitterName EmitterName
  simp only [String.length_toList]
  split
  · rename_i hlen
    exact iff_of_false (by simp) fun h => hlen h.1
  · rename_i hlen
    rw [List.all_eq_true]
    simp only [Bool.or_eq_true, isAlphanum_iff, decide_eq_true_eq, not_not.mp hlen, true_and,
      or_assoc]

/-- `validate_emitter_entries` lets exactly the entries with these rules through. -/
theorem validateEmitterEntries_eq_ok_iff_rules {entries : List EmitterEntry} :
    validateEmitterEntries entries = .ok () ↔ EntryRules entries := by
  rw [validateEmitterEntries_eq_ok_iff, List.Nodup, List.pairwise_map]
  constructor
  · rintro ⟨hvalid, hdistinct⟩
    exact
      { name := fun e he => isValidEmitterName_iff.mp (hvalid e he).name
        distinct := hdistinct
        concurrency := fun e he => (hvalid e he).concurrency
        pollInterval := fun e he => (hvalid e he).pollInterval
        maxAttempts := fun e he => (hvalid e he).maxAttempts
        leaseDuration := fun e he => (hvalid e he).leaseDuration
        jitterBelow := fun e he => by simp [(hvalid e he).jitter.1]
        jitterAbove := fun e he => by simp [(hvalid e he).jitter.2]
        type := fun e he => (hvalid e he).type }
  · intro h
    refine ⟨fun e he => ?_, h.distinct⟩
    exact
      { name := isValidEmitterName_iff.mpr (h.name e he)
        concurrency := h.concurrency e he
        pollInterval := h.pollInterval e he
        jitter := ⟨by simpa using h.jitterBelow e he, by simpa using h.jitterAbove e he⟩
        maxAttempts := h.maxAttempts e he
        leaseDuration := h.leaseDuration e he
        type := h.type e he }

/-! ## 3. Normalisation -/

/-- The entries a configuration comes to: its own list, or the legacy section as an entry. -/
def HookboxConfig.resulting (config : HookboxConfig) : List EmitterEntry :=
  match config.emitter with
  | none => config.emitters
  | some legacy => [.fromLegacy legacy config.retry]

/-- Exactly one of the two sections is there. -/
def HookboxConfig.OneSection (config : HookboxConfig) : Prop :=
  Xor config.emitter.isSome (config.emitters ≠ [])

/-- What a configuration normalises to. -/
structure HookboxConfig.NormalForm (cfg config : HookboxConfig) : Prop where
  noLegacy : cfg.emitter = none
  given : config.emitter = none → cfg.emitters = config.emitters
  legacy : ∀ l, config.emitter = some l → cfg.emitters = [.fromLegacy l config.retry]
  carried : ∀ l, config.emitter = some l → ∀ e ∈ cfg.emitters,
    e.pollIntervalSeconds = config.retry.intervalSeconds ∧
      e.retry.maxAttempts = config.retry.maxAttempts
  rest : cfg = { config with emitter := none, emitters := cfg.emitters }
  again : normalize cfg = .ok (cfg, [])

/-- `mergeSections` succeeds on exactly one section, and then yields the resulting entries. -/
theorem mergeSections_eq_ok_iff {config cfg : HookboxConfig} {warnings : List String} :
    mergeSections config = .ok (cfg, warnings) ↔
      config.OneSection ∧ cfg = { config with emitter := none, emitters := config.resulting } ∧
        warnings = if config.emitter.isSome
          then ["`[emitter]` is deprecated; migrate to `[[emitters]]`"] else [] := by
  unfold mergeSections HookboxConfig.OneSection HookboxConfig.resulting
  cases hlegacy : config.emitter with
  | none =>
    cases hlist : config.emitters with
    | nil => simp [Xor]
    | cons e es =>
      have hself : { config with emitter := none, emitters := e :: es } = config := by
        rw [← hlegacy, ← hlist]
      simp only [List.isEmpty_cons, hself]
      simp [Xor, eq_comm]
  | some legacy =>
    cases hlist : config.emitters with
    | nil => simp [Xor, eq_comm]
    | cons e es => simp [Xor]

/-- The run of `normalize`: it merges, then validates. -/
theorem normalize_eq_ok_iff {config cfg : HookboxConfig} {warnings : List String} :
    normalize config = .ok (cfg, warnings) ↔
      mergeSections config = .ok (cfg, warnings) ∧ EntryRules cfg.emitters := by
  rw [← validateEmitterEntries_eq_ok_iff_rules]
  constructor
  · intro h
    obtain ⟨merged, hmerge, h⟩ := Except.bind_eq_ok.mp h
    obtain ⟨u, hvalid, h⟩ := Except.bind_eq_ok.mp h
    cases h
    exact ⟨hmerge, hvalid⟩
  · rintro ⟨hmerge, hvalid⟩
    exact Except.bind_eq_ok.mpr ⟨(cfg, warnings), hmerge, Except.bind_eq_ok.mpr ⟨(), hvalid, rfl⟩⟩

/-- **When a configuration normalises.** -/
theorem normalize_succeeds_iff {config : HookboxConfig} :
    (∃ r, normalize config = .ok r) ↔ config.OneSection ∧ EntryRules config.resulting := by
  constructor
  · rintro ⟨⟨cfg, warnings⟩, h⟩
    obtain ⟨hmerge, hrules⟩ := normalize_eq_ok_iff.mp h
    obtain ⟨hone, rfl, -⟩ := mergeSections_eq_ok_iff.mp hmerge
    exact ⟨hone, hrules⟩
  · rintro ⟨hone, hrules⟩
    exact ⟨(_, _), normalize_eq_ok_iff.mpr ⟨mergeSections_eq_ok_iff.mpr ⟨hone, rfl, rfl⟩, hrules⟩⟩

/-- What a normalised configuration is made of; it is its own normal form, so a second run changes
nothing. -/
theorem normalize_result {config cfg : HookboxConfig} {warnings : List String}
    (h : normalize config = .ok (cfg, warnings)) : cfg.NormalForm config := by
  have hnormal := normalize_spec h
  obtain ⟨hmerge, hrules⟩ := normalize_eq_ok_iff.mp h
  obtain ⟨hone, hcfg, -⟩ := mergeSections_eq_ok_iff.mp hmerge
  have hentries : cfg.emitters = config.resulting := congrArg (·.emitters) hcfg
  have hlegacy : ∀ l, config.emitter = some l →
      cfg.emitters = [.fromLegacy l config.retry] := fun l hl => by
    rw [hentries, HookboxConfig.resulting, hl]
  exact
    { noLegacy := hnormal.noLegacy
      given := fun hnone => by rw [hentries, HookboxConfig.resulting, hnone]
      legacy := hlegacy
      carried := fun l hl e he => by
        rw [hlegacy l hl] at he
        rw [List.mem_singleton.mp he]
        exact ⟨rfl, rfl⟩
      rest := hnormal.rest
      again := normalize_of_valid hnormal.noLegacy hnormal.nonempty hnormal.valid hnormal.nodup }

/-- **Normalisation is correct and idempotent**: it succeeds on exactly the configurations with one
emitter section whose resulting entries obey the rules; its result differs from the input in that
section only and normalises to itself; and the factory hands every entry to the constructor of its
backend, whatever the constructors do. -/
theorem normalize_exact {Emitter Receiver : Type} (new : Constructors Emitter Receiver)
    (config : HookboxConfig) :
    ((∃ r, normalize config = .ok r) ↔ config.OneSection ∧ EntryRules config.resulting) ∧
      ∀ cfg warnings, normalize config = .ok (cfg, warnings) → cfg.NormalForm config ∧
        ∀ e ∈ cfg.emitters, e.Reaches new (buildEmitter new e.toEmitterConfig) ∧
          (∀ section_, buildEmitter new e.toEmitterConfig ≠ .error (.missingSection section_)) ∧
          ∀ other, buildEmitter new e.toEmitterConfig ≠ .error (.unknownType other) := by
  refine ⟨normalize_succeeds_iff, fun cfg warnings h => ⟨normalize_result h, fun e he => ?_⟩⟩
  have hreaches := buildEmitter_reaches new ((normalize_spec h).valid e he).type
  exact ⟨hreaches, fun section_ => hreaches.ne_error (by simp),
    fun other => hreaches.ne_error (by simp)⟩

/-- A file with the legacy section only, for Kafka. -/
def legacyConfig : HookboxConfig where
  database := { url := "postgres://localhost/hookbox" }
  retry := { intervalSeconds := 60, maxAttempts := 8 }
  emitter := some
    { emitterType := "kafka", kafka := some { brokers := "localhost:9092", topic := "events" } }

/-- What `legacyConfig` comes to. -/
def migratedConfig : HookboxConfig where
  database := { url := "postgres://localhost/hookbox" }
  retry := { intervalSeconds := 60, maxAttempts := 8 }
  emitters := [{
    name := "default", emitterType := "kafka", pollIntervalSeconds := 60,
    kafka := some { brokers := "localhost:9092", topic := "events" },
    retry := { maxAttempts := 8 } }]

/-- Constructors that report what they were called with. -/
def loggingConstructors : Constructors (List String) Unit where
  kafka := fun brokers topic clientId acks _ => .ok [brokers, topic, clientId, acks]
  nats := fun url _ => .error ("cannot connect to " ++ url)
  sqs := fun queueUrl _ _ _ => .ok [queueUrl]
  redis := fun url stream _ _ => .ok [url, stream]
  channel := fun _ => (["channel"], ())

theorem normalize_exact_legacy :
    migratedConfig.NormalForm legacyConfig ∧ ∀ e ∈ migratedConfig.emitters,
      e.Reaches loggingConstructors (buildEmitter loggingConstructors e.toEmitterConfig) ∧
        buildEmitter loggingConstructors e.toEmitterConfig
          = .ok (.ready ["localhost:9092", "events", "hookbox", "all"]) := by
  have hvalid : validateEmitterEntries migratedConfig.emitters = .ok () := by decide +kernel
  have hnormalize : normalize legacyConfig
      = .ok (migratedConfig, ["`[emitter]` is deprecated; migrate to `[[emitters]]`"]) :=
    normalize_eq_ok_iff.mpr ⟨rfl, validateEmitterEntries_eq_ok_iff_rules.mp hvalid⟩
  have h := (normalize_exact loggingConstructors legacyConfig).2 _ _ hnormalize
  refine ⟨h.1, fun e he => ⟨(h.2 e he).1, ?_⟩⟩
  rw [List.mem_singleton.mp he]
  rfl

end Hookbox
