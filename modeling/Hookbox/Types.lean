/-
# The domain types of the inbox

The types of `hookbox/src/state.rs`, `types.rs` and `error.rs` that the ingest pipeline, the
PostgreSQL storage and the emitter workers exchange.

Timestamps are microseconds since the epoch (the resolution of `TIMESTAMPTZ`), durations are
microseconds, request bodies are byte lists, and the counters that the source declares `i32`
are `Int32`, so that their wrap-around is the machine's.  Metrics, log lines and the wall-clock
latency histograms are left out: nothing reads them back.
-/
import Mathlib.Algebra.Group.Nat.Defs
import Hookbox.Lib.Except

namespace Hookbox

/-! ## 1. Identifiers and primitive data -/

/-- A hexadecimal digit, in lower case. -/
def hexChar (n : Nat) : Char :=
  if n < 10 then Char.ofNat (48 + n) else Char.ofNat (87 + n)

/-- A `Uuid`. -/
abbrev Uuid := BitVec 128

/-- `Uuid::to_string`: hyphenated, in lower case. -/
def Uuid.toString (u : Uuid) : String :=
  let digits := (List.range 32).map fun i => hexChar (u.toNat / 16 ^ (31 - i) % 16)
  let piece (start len : Nat) := String.ofList ((digits.drop start).take len)
  "-".intercalate [piece 0 8, piece 8 4, piece 12 4, piece 16 4, piece 20 12]

/-- `DateTime<Utc>` and `TIMESTAMPTZ`: microseconds since the epoch. -/
abbrev Timestamp := Int

/-- A `Duration`, in microseconds. -/
abbrev Duration := Nat

/-- `Bytes`, `Vec<u8>` and `BYTEA`. -/
abbrev Bytes := List UInt8

/-- `ReceiptId(pub Uuid)`. -/
structure ReceiptId where
  uuid : Uuid
deriving DecidableEq

/-- `DeliveryId(pub Uuid)`. -/
structure DeliveryId where
  uuid : Uuid
deriving DecidableEq

/-- A `serde_json::Value`.  A number is the text that `serde_json` writes for it. -/
inductive Json where
  | null
  | bool (b : Bool)
  | num (text : String)
  | str (s : String)
  | arr (elems : List Json)
  | obj (fields : List (String × Json))

/-- A `http::HeaderMap`: lower-case names with their values, in order. -/
abbrev HeaderMap := List (String × Bytes)

/-- The arguments of one `ingest` call. -/
structure Request where
  provider : String
  headers : HeaderMap
  body : Bytes

/-! ## 2. States and decisions (`state.rs`) -/

/-- Lifecycle state of a receipt.  `stored` is the durable acceptance boundary. -/
inductive ProcessingState where
  | received
  | verified
  | verificationFailed
  | duplicate
  | stored
  | emitted
  | processed
  | emitFailed
  | deadLettered
  | replayed
deriving DecidableEq

/-- Outcome of signature verification. -/
inductive VerificationStatus where
  | verified
  | failed
  | skipped
deriving DecidableEq

/-- Result of one verification attempt, with its machine-readable reason. -/
structure VerificationResult where
  status : VerificationStatus
  reason : Option String
deriving DecidableEq

/-- Advisory answer of a dedupe strategy. -/
inductive DedupeDecision where
  | new
  | duplicate
  | conflict
deriving DecidableEq

/-- Authoritative answer of the storage layer. -/
inductive StoreResult where
  | stored
  | duplicate (existingId : ReceiptId)
deriving DecidableEq

/-- State of one delivery row. -/
inductive DeliveryState where
  | pending
  | inFlight
  | emitted
  | failed
  | deadLettered
deriving DecidableEq

/-- What `HookboxPipeline::ingest` returns on success. -/
inductive IngestResult where
  | accepted (receiptId : ReceiptId)
  | duplicate (existingId : ReceiptId)
  | verificationFailed (reason : String)
deriving DecidableEq

/-- Per-emitter retry policy; the dispatch decision reads `max_attempts`. -/
structure RetryPolicy where
  maxAttempts : Int32 := 5
deriving DecidableEq

/-! ## 3. Errors (`error.rs`) -/

/-- `StorageError`. -/
inductive StorageError where
  | internal (msg : String)
  | serialization (msg : String)
  | fanOutNotImplemented
deriving DecidableEq

/-- `DedupeError`. -/
inductive DedupeError where
  | internal (msg : String)
deriving DecidableEq

/-- `EmitError`. -/
inductive EmitError where
  | downstream (msg : String)
  | timeout (msg : String)
deriving DecidableEq

/-- `EmitError::to_string`. -/
def EmitError.toString : EmitError → String
  | .downstream msg => "emit error: " ++ msg
  | .timeout msg => "emit timeout: " ++ msg

/-- `IngestError`, as far as `ingest` raises it. -/
inductive IngestError where
  | storage (e : StorageError)
  | dedupe (e : DedupeError)
deriving DecidableEq

/-- What a storage call can come to: it succeeds, it fails after its statement was committed, or it
fails without effect. -/
inductive CallOutcome where
  | ok
  | lost
  | failed
deriving DecidableEq

/-! ## 4. Deliveries, receipts and events (`state.rs`, `types.rs`) -/

/-- One delivery row: one attempt of one receipt against one emitter. -/
structure WebhookDelivery where
  deliveryId : DeliveryId
  receiptId : ReceiptId
  emitterName : String
  state : DeliveryState
  attemptCount : Int32
  lastError : Option String
  lastAttemptAt : Option Timestamp
  nextAttemptAt : Timestamp
  emittedAt : Option Timestamp
  immutable : Bool
  createdAt : Timestamp
deriving DecidableEq

/-- Durable record of one inbound webhook event. -/
structure WebhookReceipt where
  receiptId : ReceiptId
  providerName : String
  providerEventId : Option String
  externalReference : Option String
  dedupeKey : String
  payloadHash : String
  rawBody : Bytes
  parsedPayload : Option Json
  rawHeaders : Json
  normalizedEventType : Option String
  verificationStatus : VerificationStatus
  verificationReason : Option String
  processingState : ProcessingState
  emitCount : Int32
  lastError : Option String
  receivedAt : Timestamp
  processedAt : Option Timestamp
  metadata : Json

/-- What downstream consumers are sent. -/
structure NormalizedEvent where
  receiptId : ReceiptId
  providerName : String
  eventType : Option String
  externalReference : Option String
  parsedPayload : Option Json
  payloadHash : String
  receivedAt : Timestamp
  metadata : Json

/-- `NormalizedEvent::from_receipt`. -/
def NormalizedEvent.fromReceipt (receipt : WebhookReceipt) : NormalizedEvent where
  receiptId := receipt.receiptId
  providerName := receipt.providerName
  eventType := receipt.normalizedEventType
  externalReference := receipt.externalReference
  parsedPayload := receipt.parsedPayload
  payloadHash := receipt.payloadHash
  receivedAt := receipt.receivedAt
  metadata := receipt.metadata

end Hookbox
