/-
# Receipt rows and their text columns

`webhook_receipts` keeps `processing_state` and `verification_status` as `TEXT`.  The code
writes them with `serialize_enum` and reads them back with `deserialize_enum`
(`hookbox-postgres/src/storage.rs`), which wraps the text in quotes and hands it to
`serde_json`.  So the text is read as the inside of a JSON string: escapes are decoded, and a
bare quote or a control character is refused.  The model keeps the text, because a row of an
old database may hold any text at all, and `deserializeEnum` follows the decoder.

`webhook_deliveries.state` is also `TEXT`, but every statement that writes it writes one of
five literals, so the model's column is the enumeration itself.
-/
import Hookbox.Types

namespace Hookbox

/-! ## 1. Enumerations as text -/

/-- `#[serde(rename_all = "snake_case")]` on `ProcessingState`. -/
def ProcessingState.text : ProcessingState → String
  | .received => "received"
  | .verified => "verified"
  | .verificationFailed => "verification_failed"
  | .duplicate => "duplicate"
  | .stored => "stored"
  | .emitted => "emitted"
  | .processed => "processed"
  | .emitFailed => "emit_failed"
  | .deadLettered => "dead_lettered"
  | .replayed => "replayed"

/-- The variants of `ProcessingState`, in declaration order. -/
def ProcessingState.variants : List ProcessingState :=
  [.received, .verified, .verificationFailed, .duplicate, .stored, .emitted, .processed,
    .emitFailed, .deadLettered, .replayed]

/-- `#[serde(rename_all = "snake_case")]` on `VerificationStatus`. -/
def VerificationStatus.text : VerificationStatus → String
  | .verified => "verified"
  | .failed => "failed"
  | .skipped => "skipped"

/-- The variants of `VerificationStatus`, in declaration order. -/
def VerificationStatus.variants : List VerificationStatus := [.verified, .failed, .skipped]

/-- The value of one hexadecimal digit. -/
def hexDigit? (c : Char) : Option Nat :=
  if '0' ≤ c ∧ c ≤ '9' then some (c.toNat - '0'.toNat)
  else if 'a' ≤ c ∧ c ≤ 'f' then some (c.toNat - 'a'.toNat + 10)
  else if 'A' ≤ c ∧ c ≤ 'F' then some (c.toNat - 'A'.toNat + 10)
  else none

/-- The code unit of a `\uXXXX` escape. -/
def codeUnit? (a b c d : Char) : Option Nat := do
  let a ← hexDigit? a
  let b ← hexDigit? b
  let c ← hexDigit? c
  let d ← hexDigit? d
  return ((a * 16 + b) * 16 + c) * 16 + d

/-- The inside of a JSON string literal, decoded.  A surrogate is refused: a pair would
decode to a character beyond the basic plane, which no variant name contains. -/
def jsonUnescape : List Char → Option (List Char)
  | [] => some []
  | '\\' :: 'u' :: a :: b :: c :: d :: cs =>
    match codeUnit? a b c d with
    | some n => if 0xD800 ≤ n ∧ n ≤ 0xDFFF then none else (Char.ofNat n :: ·) <$> jsonUnescape cs
    | none => none
  | '\\' :: c :: cs =>
    match c with
    | '"' => ('"' :: ·) <$> jsonUnescape cs
    | '\\' => ('\\' :: ·) <$> jsonUnescape cs
    | '/' => ('/' :: ·) <$> jsonUnescape cs
    | 'b' => (Char.ofNat 8 :: ·) <$> jsonUnescape cs
    | 'f' => (Char.ofNat 12 :: ·) <$> jsonUnescape cs
    | 'n' => ('\n' :: ·) <$> jsonUnescape cs
    | 'r' => ('\r' :: ·) <$> jsonUnescape cs
    | 't' => ('\t' :: ·) <$> jsonUnescape cs
    | _ => none
  | c :: cs =>
    -- An unescaped quote ends the literal early, and what follows it is refused.
    if c = '"' ∨ c = '\\' ∨ c.toNat < 0x20 then none else (c :: ·) <$> jsonUnescape cs

/-- `deserialize_enum`, for a type given by its variants and their texts. -/
def deserializeEnum {α : Type} (variants : List α) (text : α → String) (s : String) :
    Except StorageError α :=
  match (jsonUnescape s.toList).bind fun cs => variants.find? fun a => (text a).toList = cs with
  | some a => .ok a
  | none => .error (.serialization s)

/-- `deserialize_enum::<ProcessingState>`. -/
def ProcessingState.ofText : String → Except StorageError ProcessingState :=
  deserializeEnum variants text

/-- `deserialize_enum::<VerificationStatus>`. -/
def VerificationStatus.ofText : String → Except StorageError VerificationStatus :=
  deserializeEnum variants text

/-- **What the code writes it can read back.** -/
@[simp] theorem ProcessingState.ofText_text (st : ProcessingState) : ofText st.text = .ok st := by
  cases st <;> decide

@[simp] theorem VerificationStatus.ofText_text (st : VerificationStatus) :
    ofText st.text = .ok st := by
  cases st <;> decide

theorem ProcessingState.text_injective {st st' : ProcessingState} (h : st.text = st'.text) :
    st = st' := by
  have hok := ofText_text st
  rw [h, ofText_text, Except.ok.injEq] at hok
  exact hok.symm

/-- The decoder also accepts spellings that the code never writes. -/
example : ProcessingState.ofText "stor\\u0065d" = .ok .stored := by decide

/-! ## 2. Rows of `webhook_receipts` -/

/-- `ReceiptRow`: one row of `webhook_receipts`. -/
structure ReceiptRow where
  receiptId : ReceiptId
  providerName : String
  providerEventId : Option String
  externalReference : Option String
  dedupeKey : String
  payloadHash : String
  rawBody : Bytes
  parsedPayload : Option Json
  rawHeaders : Json
  normalizedEventType : Option String
  verificationStatus : String
  verificationReason : Option String
  processingState : String
  emitCount : Int32
  lastError : Option String
  receivedAt : Timestamp
  processedAt : Option Timestamp
  metadata : Json

/-- The values bound by the `INSERT` of `store` and `store_with_deliveries`. -/
def WebhookReceipt.toRow (r : WebhookReceipt) : ReceiptRow where
  receiptId := r.receiptId
  providerName := r.providerName
  providerEventId := r.providerEventId
  externalReference := r.externalReference
  dedupeKey := r.dedupeKey
  payloadHash := r.payloadHash
  rawBody := r.rawBody
  parsedPayload := r.parsedPayload
  rawHeaders := r.rawHeaders
  normalizedEventType := r.normalizedEventType
  verificationStatus := r.verificationStatus.text
  verificationReason := r.verificationReason
  processingState := r.processingState.text
  emitCount := r.emitCount
  lastError := r.lastError
  receivedAt := r.receivedAt
  processedAt := r.processedAt
  metadata := r.metadata

/-- `receipt_from_row`. -/
def receiptFromRow (row : ReceiptRow) : Except StorageError WebhookReceipt := do
  let verificationStatus ← VerificationStatus.ofText row.verificationStatus
  let processingState ← ProcessingState.ofText row.processingState
  return {
    receiptId := row.receiptId
    providerName := row.providerName
    providerEventId := row.providerEventId
    externalReference := row.externalReference
    dedupeKey := row.dedupeKey
    payloadHash := row.payloadHash
    rawBody := row.rawBody
    parsedPayload := row.parsedPayload
    rawHeaders := row.rawHeaders
    normalizedEventType := row.normalizedEventType
    verificationStatus
    verificationReason := row.verificationReason
    processingState
    emitCount := row.emitCount
    lastError := row.lastError
    receivedAt := row.receivedAt
    processedAt := row.processedAt
    metadata := row.metadata }

/-- A row whose two text columns deserialise. -/
def ReceiptRow.Readable (row : ReceiptRow) : Prop :=
  (∃ v, VerificationStatus.ofText row.verificationStatus = .ok v) ∧
    ∃ p, ProcessingState.ofText row.processingState = .ok p

/-- A readable row is exactly one that `receipt_from_row` accepts. -/
theorem readable_iff {row : ReceiptRow} :
    row.Readable ↔ ∃ receipt, receiptFromRow row = .ok receipt := by
  constructor
  · rintro ⟨⟨v, hv⟩, ⟨p, hp⟩⟩
    exact ⟨_, Except.bind_eq_ok.mpr ⟨v, hv, Except.bind_eq_ok.mpr ⟨p, hp, rfl⟩⟩⟩
  · rintro ⟨receipt, h⟩
    obtain ⟨v, hv, h⟩ := Except.bind_eq_ok.mp h
    obtain ⟨p, hp, -⟩ := Except.bind_eq_ok.mp h
    exact ⟨⟨v, hv⟩, ⟨p, hp⟩⟩

theorem WebhookReceipt.toRow_readable (r : WebhookReceipt) : r.toRow.Readable :=
  ⟨⟨_, VerificationStatus.ofText_text _⟩, ⟨_, ProcessingState.ofText_text _⟩⟩

/-- The columns that no `UPDATE` sets: the row with the three it may set blanked. -/
def ReceiptRow.content (row : ReceiptRow) : ReceiptRow :=
  { row with processingState := "", emitCount := 0, lastError := none }

/-- The event a row gives rise to, whatever its two text columns say. -/
def ReceiptRow.event (row : ReceiptRow) : NormalizedEvent where
  receiptId := row.receiptId
  providerName := row.providerName
  eventType := row.normalizedEventType
  externalReference := row.externalReference
  parsedPayload := row.parsedPayload
  payloadHash := row.payloadHash
  receivedAt := row.receivedAt
  metadata := row.metadata

theorem event_eq_of_content_eq {r r' : ReceiptRow} (h : r.content = r'.content) :
    r.event = r'.event := by
  simp only [ReceiptRow.content, ReceiptRow.mk.injEq] at h
  simp only [ReceiptRow.event, h]

/-- A row that was decoded is that of the receipt, up to the spelling of its two text columns. -/
theorem receiptFromRow_columns {row : ReceiptRow} {receipt : WebhookReceipt}
    (h : receiptFromRow row = .ok receipt) :
    VerificationStatus.ofText row.verificationStatus = .ok receipt.verificationStatus ∧
      ProcessingState.ofText row.processingState = .ok receipt.processingState ∧
      row = { receipt.toRow with
        verificationStatus := row.verificationStatus
        processingState := row.processingState } := by
  obtain ⟨v, hv, h⟩ := Except.bind_eq_ok.mp h
  obtain ⟨p, hp, h⟩ := Except.bind_eq_ok.mp h
  cases h
  exact ⟨hv, hp, rfl⟩

/-- What a decoded receipt still knows of its row. -/
theorem receiptFromRow_ok {row : ReceiptRow} {receipt : WebhookReceipt}
    (h : receiptFromRow row = .ok receipt) :
    receipt.receiptId = row.receiptId ∧ NormalizedEvent.fromReceipt receipt = row.event := by
  obtain ⟨-, -, hrow⟩ := receiptFromRow_columns h
  rw [hrow]
  exact ⟨rfl, rfl⟩

end Hookbox
