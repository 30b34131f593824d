/-
# The types as JSON

`WebhookReceipt`, `NormalizedEvent` and `WebhookDelivery` derive `Serialize` and `Deserialize`
(`hookbox/src/types.rs`, `state.rs`).  A receipt and its deliveries leave the server as the bodies of
the admin API, an event leaves it as the payload of a message, and a consumer that is written in
Rust reads them with the same derives.

What the derives and `serde_json` do is their documentation's (`Serde`): an object is read by the
names of its members, `null` is `None`, a unit variant is its name.  Nothing is assumed about a number
inside of a `Value`, which may come back as another one, or about a `Value` that is nested deeper than
the reader goes.

* `json_round_trip`: a delivery is read back as it was written, and so is every field of a receipt and
  of an event that is not a `Value`; and all of them unless their payload is the JSON `null`:
  `Some(Value::Null)` and `None` are written alike.
-/
import Hookbox.Replay
import Hookbox.Lib.Base64

namespace Hookbox

/-! ## 1. Texts -/

/-- The hexadecimal number of a text, after `acc`. -/
def readHex (acc : Nat) : List Char → Option Nat
  | [] => some acc
  | c :: cs =>
    match hexDigit? c with
    | some d => readHex (acc * 16 + d) cs
    | none => none

/-- `parse_simple` of the `uuid` crate. -/
def parseSimple (cs : List Char) : Option Uuid :=
  if cs.length = 32 then (readHex 0 cs).map (BitVec.ofNat 128) else none

/-- `parse_hyphenated` of the `uuid` crate. -/
def parseHyphenated (cs : List Char) : Option Uuid :=
  if cs.length = 36 ∧ cs[8]? = some '-' ∧ cs[13]? = some '-' ∧ cs[18]? = some '-' ∧
      cs[23]? = some '-' then
    parseSimple (cs.take 8 ++ (cs.drop 9).take 4 ++ (cs.drop 14).take 4 ++ (cs.drop 19).take 4 ++
      cs.drop 24)
  else none

/-- `Uuid::parse_str`: 32 digits, or the hyphenated form, which may stand in braces or in a URN. -/
def Uuid.parseStr (s : String) : Option Uuid :=
  let cs := s.toList
  if cs.length = 32 then parseSimple cs
  else if cs.length = 36 then parseHyphenated cs
  else if cs.length = 38 ∧ cs[0]? = some '\x7b' ∧ cs[37]? = some '\x7d' then
    parseHyphenated ((cs.drop 1).take 36)
  else if cs.length = 45 ∧ cs.take 9 = "urn:uuid:".toList then parseHyphenated (cs.drop 9)
  else none

/-- The digits of a number in a fixed width, the most significant first. -/
def hexDigits (width n : Nat) : List Char :=
  (List.range width).map fun i => hexChar (n / 16 ^ (width - 1 - i) % 16)

theorem hexDigit?_hexChar {n : Nat} (hn : n < 16) : hexDigit? (hexChar n) = some n := by
  have key : ∀ a : Fin 16, hexDigit? (hexChar a) = some a.1 := by decide
  exact key ⟨n, hn⟩

theorem hexDigits_succ (width n : Nat) :
    hexDigits (width + 1) n = hexChar (n / 16 ^ width % 16) :: hexDigits width n := by
  rw [hexDigits, List.range_succ_eq_map, List.map_cons, List.map_map]
  congr 1
  refine List.map_congr_left fun i _ => ?_
  show hexChar (n / 16 ^ (width + 1 - 1 - (i + 1)) % 16) = _
  rw [show width + 1 - 1 - (i + 1) = width - 1 - i by omega]

theorem readHex_hexDigits (n : Nat) :
    ∀ width acc, readHex acc (hexDigits width n) = some (acc * 16 ^ width + n % 16 ^ width)
  | 0, acc => by simp [hexDigits, readHex, Nat.mod_one]
  | width + 1, acc => by
    rw [hexDigits_succ, readHex, hexDigit?_hexChar (Nat.mod_lt _ (by decide))]
    show readHex (acc * 16 + n / 16 ^ width % 16) (hexDigits width n) = _
    rw [readHex_hexDigits n width, Nat.mod_pow_succ]
    congr 1
    ring

theorem length_hexDigits (width n : Nat) : (hexDigits width n).length = width := by
  simp [hexDigits]

theorem parseSimple_digits (u : Uuid) : parseSimple (hexDigits 32 u.toNat) = some u := by
  rw [parseSimple, if_pos (length_hexDigits ..), readHex_hexDigits, Nat.zero_mul, Nat.zero_add,
    Nat.mod_eq_of_lt (show u.toNat < 16 ^ 32 from u.isLt), Option.map_some, BitVec.ofNat_toNat,
    BitVec.setWidth_eq]

/-- Taking the hyphens out again. -/
theorem parseHyphenated_pieces (p₁ p₂ p₃ p₄ p₅ : List Char) (h₁ : p₁.length = 8)
    (h₂ : p₂.length = 4) (h₃ : p₃.length = 4) (h₄ : p₄.length = 4) (h₅ : p₅.length = 12) :
    parseHyphenated (p₁ ++ '-' :: (p₂ ++ '-' :: (p₃ ++ '-' :: (p₄ ++ '-' :: p₅))))
      = parseSimple (p₁ ++ p₂ ++ p₃ ++ p₄ ++ p₅) := by
  rw [parseHyphenated, if_pos]
  · simp (disch := omega) [List.drop_append, List.drop_of_length_le, h₁, h₂, h₃, h₄]
  · simp [h₁, h₂, h₃, h₄, h₅]

theorem Uuid.toString_toList (u : Uuid) :
    u.toString.toList = (hexDigits 32 u.toNat).take 8 ++ '-' ::
      (((hexDigits 32 u.toNat).drop 8).take 4 ++ '-' ::
        (((hexDigits 32 u.toNat).drop 12).take 4 ++ '-' ::
          (((hexDigits 32 u.toNat).drop 16).take 4 ++ '-' ::
            ((hexDigits 32 u.toNat).drop 20).take 12))) := by
  simp [Uuid.toString, hexDigits]

/-- **A uuid is read back from its text.** -/
theorem Uuid.parseStr_toString (u : Uuid) : Uuid.parseStr u.toString = some u := by
  have hlen := length_hexDigits 32 u.toNat
  have hparse := parseHyphenated_pieces
    ((hexDigits 32 u.toNat).take 8) (((hexDigits 32 u.toNat).drop 8).take 4)
    (((hexDigits 32 u.toNat).drop 12).take 4) (((hexDigits 32 u.toNat).drop 16).take 4)
    (((hexDigits 32 u.toNat).drop 20).take 12) (by simp [hlen]) (by simp [hlen])
    (by simp [hlen]) (by simp [hlen]) (by simp [hlen])
  rw [← u.toString_toList] at hparse
  have hjoin : (hexDigits 32 u.toNat).take 8 ++ ((hexDigits 32 u.toNat).drop 8).take 4
      ++ ((hexDigits 32 u.toNat).drop 12).take 4 ++ ((hexDigits 32 u.toNat).drop 16).take 4
      ++ ((hexDigits 32 u.toNat).drop 20).take 12 = hexDigits 32 u.toNat := by
    rw [← List.take_add, ← List.take_add, ← List.take_add, ← List.take_add]
    exact List.take_of_length_le hlen.le
  have h36 : u.toString.toList.length = 36 := by
    rw [u.toString_toList]
    simp [hlen]
  simp only [parseStr, h36]
  rw [if_neg (by decide), if_pos trivial, hparse, hjoin, parseSimple_digits]

/-- `chrono`: `DateTime<Utc>` as a text of RFC 3339, which is read back as it was written. -/
structure Chrono where
  format : Timestamp → String
  parse : String → Option Timestamp
  parse_format : ∀ t, parse (format t) = some t

/-- `serde_json::Value::Object`: its map is a `BTreeMap`. -/
def Json.ofMap (map : Std.ExtTreeMap String Json) : Json := .obj map.toList

/-- An `Option<T>`, written. -/
def optionToJson {α : Type} (write : α → Json) : Option α → Json
  | none => .null
  | some a => write a

/-- A `String`, read. -/
def stringFromJson : Json → Option String
  | .str s => some s
  | _ => none

/-- A `bool`, read. -/
def boolFromJson : Json → Option Bool
  | .bool b => some b
  | _ => none

/-- An `i32`, written. -/
def i32ToJson (n : Int32) : Json := .num (toString n.toInt)

/-- A `Uuid`, read. -/
def uuidFromJson : Json → Option Uuid
  | .str s => Uuid.parseStr s
  | _ => none

/-- `serde_bytes_base64::serialize`. -/
def bytesToJson (bytes : Bytes) : Json := .str (String.ofList (Base64.encode bytes))

/-- `serde_bytes_base64::deserialize`. -/
def bytesFromJson : Json → Option Bytes
  | .str s => Base64.decode s.toList
  | _ => none

mutual

/-- No number is in it, and the members of an object have distinct names. -/
def Json.plain : Json → Bool
  | .null => true
  | .bool _ => true
  | .num _ => false
  | .str _ => true
  | .arr elems => plainElems elems
  | .obj fields => decide (fields.map (·.1)).Nodup && plainFields fields

def Json.plainElems : List Json → Bool
  | [] => true
  | j :: js => j.plain && Json.plainElems js

def Json.plainFields : List (String × Json) → Bool
  | [] => true
  | (_, v) :: fields => v.plain && Json.plainFields fields

end

mutual

/-- How deep arrays and objects are nested in it. -/
def Json.depth : Json → Nat
  | .null => 0
  | .bool _ => 0
  | .num _ => 0
  | .str _ => 0
  | .arr elems => depthElems elems + 1
  | .obj fields => depthFields fields + 1

def Json.depthElems : List Json → Nat
  | [] => 0
  | j :: js => max j.depth (Json.depthElems js)

def Json.depthFields : List (String × Json) → Nat
  | [] => 0
  | (_, v) :: fields => max v.depth (Json.depthFields fields)

end

/-- A `Value` that is read back as it is from a member of an object: it has no numbers, and with the
object around it it stays below the recursion limit of 128. -/
def Json.Safe (v : Json) : Prop := v.plain = true ∧ v.depth < 127

instance (v : Json) : Decidable v.Safe := by unfold Json.Safe; infer_instance

/-- **Reading with `serde_json` and the derives of `serde`**, with what their documentation says of
texts that they have written themselves. -/
structure Serde where
  /-- What `Deserialize` of a struct with these fields finds for each of them. -/
  struct : List String → Json → Option (String → Option Json)
  /-- A field of type `Option<T>`, from what was found. -/
  option {α : Type} : (Json → Option α) → Option Json → Option (Option α)
  /-- One of the unit variants with these names. -/
  variant : List String → Json → Option String
  i32 : Json → Option Int32
  /-- A field of type `Value`. -/
  value : Json → Option Json
  /-- A field is the member of its name, among whatever others there are. -/
  struct_obj : ∀ (names : List String) {fields : List (String × Json)}, (fields.map (·.1)).Nodup →
    ∃ field, struct names (.obj fields) = some field ∧ ∀ name ∈ names, field name = fields.lookup name
  option_missing : ∀ {α : Type} (read : Json → Option α), option read none = some none
  option_null : ∀ {α : Type} (read : Json → Option α), option read (some .null) = some none
  option_some : ∀ {α : Type} (read : Json → Option α) {json : Json}, json ≠ .null →
    option read (some json) = (read json).map some
  variant_str : ∀ {names : List String} {name : String}, name ∈ names →
    variant names (.str name) = some name
  i32_toJson : ∀ n, i32 (i32ToJson n) = some n
  value_safe : ∀ {v : Json}, v.Safe → value v = some v
  value_null : ∀ {v : Json}, value v = some .null → v = .null

/-- An enumeration of unit variants, read. -/
def Serde.enum {α : Type} (serde : Serde) (variants : List α) (text : α → String) (json : Json) :
    Option α :=
  (serde.variant (variants.map text) json).bind fun name => variants.find? fun a => text a = name

/-- `#[serde(rename_all = "snake_case")]` on `DeliveryState`, and its `Display`. -/
def DeliveryState.text : DeliveryState → String
  | .pending => "pending"
  | .inFlight => "in_flight"
  | .emitted => "emitted"
  | .failed => "failed"
  | .deadLettered => "dead_lettered"

/-- The variants of `DeliveryState`, in declaration order. -/
def DeliveryState.variants : List DeliveryState :=
  [.pending, .inFlight, .emitted, .failed, .deadLettered]

/-- A `DateTime<Utc>`, written. -/
def Chrono.toJson (chrono : Chrono) (t : Timestamp) : Json := .str (chrono.format t)

/-- A `DateTime<Utc>`, read. -/
def Chrono.fromJson (chrono : Chrono) : Json → Option Timestamp
  | .str s => chrono.parse s
  | _ => none

/-- An `Option<Value>`, written and read. -/
def Serde.reread (serde : Serde) (value : Option Json) : Option (Option Json) :=
  serde.option serde.value (some (optionToJson id value))

section Values

variable {α : Type} (serde : Serde)

theorem lookup_eq_some_iff_mem {fields : List (String × α)} (h : (fields.map (·.1)).Nodup)
    {name : String} {value : α} : fields.lookup name = some value ↔ (name, value) ∈ fields := by
  induction fields with
  | nil => simp
  | cons field fields ih =>
    obtain ⟨k, v⟩ := field
    obtain ⟨hk, hrest⟩ := List.nodup_cons.mp h
    by_cases hname : name = k
    · subst hname
      have hnot : (name, value) ∉ fields := fun hmem => hk (List.mem_map.mpr ⟨_, hmem, rfl⟩)
      simp [hnot, eq_comm]
    · rw [List.lookup_cons, beq_false_of_ne hname]
      simp [hname, ih hrest]

theorem nodup_keys_toList (map : Std.ExtTreeMap String α) : (map.toList.map (·.1)).Nodup := by
  refine List.pairwise_map.mpr (map.distinct_keys_toList.imp fun h heq => h ?_)
  exact Std.LawfulEqCmp.compare_eq_iff_eq.mpr heq

/-- A map is read by name as it is indexed. -/
theorem Serde.struct_ofMap (names : List String) (map : Std.ExtTreeMap String Json) :
    ∃ field, serde.struct names (.ofMap map) = some field ∧
      ∀ name ∈ names, field name = map[name]? := by
  obtain ⟨field, hfield, hlookup⟩ := serde.struct_obj names (nodup_keys_toList map)
  refine ⟨field, hfield, fun name hname => ?_⟩
  rw [hlookup name hname]
  refine Option.ext fun value => ?_
  rw [lookup_eq_some_iff_mem (nodup_keys_toList map),
    Std.ExtTreeMap.mem_toList_iff_getElem?_eq_some]

@[simp] theorem stringFromJson_str (s : String) : stringFromJson (.str s) = some s := rfl

@[simp] theorem boolFromJson_bool (b : Bool) : boolFromJson (.bool b) = some b := rfl

attribute [simp] Serde.i32_toJson

@[simp] theorem uuidFromJson_str (u : Uuid) : uuidFromJson (.str u.toString) = some u :=
  u.parseStr_toString

/-- `serde_bytes_base64` reads exactly what it writes. -/
theorem bytesFromJson_eq_some_iff {json : Json} {bytes : Bytes} :
    bytesFromJson json = some bytes ↔ json = bytesToJson bytes := by
  cases json with
  | str s =>
    rw [bytesFromJson, bytesToJson, Base64.decode_eq_some_iff, Json.str.injEq]
    constructor
    · intro h
      rw [← h, String.ofList_toList]
    · rintro rfl
      rw [String.toList_ofList]
  | _ => simp [bytesFromJson, bytesToJson]

@[simp] theorem bytesFromJson_bytesToJson (bytes : Bytes) :
    bytesFromJson (bytesToJson bytes) = some bytes :=
  bytesFromJson_eq_some_iff.mpr rfl

@[simp] theorem Chrono.fromJson_toJson (chrono : Chrono) (t : Timestamp) :
    chrono.fromJson (chrono.toJson t) = some t :=
  chrono.parse_format t

/-- An `Option<T>` comes back if a `T` does, and is not written as `null`. -/
theorem Serde.option_toJson {write : α → Json} {read : Json → Option α}
    (hread : ∀ a, read (write a) = some a) (hnull : ∀ a, write a ≠ .null) (a : Option α) :
    serde.option read (some (optionToJson write a)) = some a := by
  cases a with
  | none => exact serde.option_null read
  | some a => rw [optionToJson, serde.option_some read (hnull a), hread, Option.map_some]

@[simp] theorem Serde.option_str (s : Option String) :
    serde.option stringFromJson (some (optionToJson .str s)) = some s :=
  serde.option_toJson stringFromJson_str (by simp) s

@[simp] theorem Serde.option_timestamp (chrono : Chrono) (t : Option Timestamp) :
    serde.option chrono.fromJson (some (optionToJson chrono.toJson t)) = some t :=
  serde.option_toJson chrono.fromJson_toJson (by simp [Chrono.toJson]) t

theorem Serde.reread_some {v : Json} (hv : v ≠ .null) :
    serde.reread (some v) = (serde.value v).map some := serde.option_some serde.value hv

/-- **An `Option<Value>` comes back** exactly if it is no `null` and its value does. -/
theorem Serde.reread_eq_self_iff {value : Option Json} :
    serde.reread value = some value ↔
      value ≠ some .null ∧ ∀ v ∈ value, serde.value v = some v := by
  cases value with
  | none => simp [Serde.reread, optionToJson, serde.option_null]
  | some v =>
    by_cases hv : v = .null
    · subst hv
      simp [Serde.reread, optionToJson, serde.option_null]
    · simp [serde.reread_some hv, hv]

theorem Serde.reread_safe {value : Option Json} (h : ∀ v ∈ value, v.Safe) :
    serde.reread value = some value ↔ value ≠ some .null :=
  serde.reread_eq_self_iff.trans (and_iff_left fun v hv => serde.value_safe (h v hv))

/-- A variant is found by its name. -/
theorem Serde.enum_str {variants : List α} {text : α → String} {a : α}
    (h : variants.find? (fun b => text b = text a) = some a) :
    serde.enum variants text (.str (text a)) = some a := by
  have hname := List.mem_map_of_mem (f := text) (List.mem_of_find?_eq_some h)
  rw [enum, serde.variant_str hname, Option.bind_some, h]

@[simp] theorem Serde.enum_deliveryState (st : DeliveryState) :
    serde.enum DeliveryState.variants DeliveryState.text (.str st.text) = some st :=
  serde.enum_str (by cases st <;> decide)

@[simp] theorem Serde.enum_verificationStatus (st : VerificationStatus) :
    serde.enum VerificationStatus.variants (·.text) (.str st.text) = some st :=
  serde.enum_str (by cases st <;> decide)

@[simp] theorem Serde.enum_processingState (st : ProcessingState) :
    serde.enum ProcessingState.variants (·.text) (.str st.text) = some st :=
  serde.enum_str (by cases st <;> decide)

end Values

/-! ## 3. The three types -/

/-- A derived `Serialize`, by `serde_json::to_vec` and `to_string`: the members in declaration order. -/
def Json.ofMembers (members : List (String × Json)) : Json := .obj members

/-- `serde_json::to_value` of a struct. -/
def Json.toValue (members : List (String × Json)) : Std.ExtTreeMap String Json :=
  Std.ExtTreeMap.ofList members

section Types

variable (serde : Serde) (chrono : Chrono)

def WebhookDelivery.fieldNames : List String :=
  ["delivery_id", "receipt_id", "emitter_name", "state", "attempt_count", "last_error",
    "last_attempt_at", "next_attempt_at", "emitted_at", "immutable", "created_at"]

/-- The members that `Serialize` writes for a delivery. -/
def WebhookDelivery.members (d : WebhookDelivery) : List (String × Json) :=
  [("delivery_id", .str d.deliveryId.uuid.toString),
    ("receipt_id", .str d.receiptId.uuid.toString),
    ("emitter_name", .str d.emitterName),
    ("state", .str d.state.text),
    ("attempt_count", i32ToJson d.attemptCount),
    ("last_error", optionToJson .str d.lastError),
    ("last_attempt_at", optionToJson chrono.toJson d.lastAttemptAt),
    ("next_attempt_at", chrono.toJson d.nextAttemptAt),
    ("emitted_at", optionToJson chrono.toJson d.emittedAt),
    ("immutable", .bool d.immutable),
    ("created_at", chrono.toJson d.createdAt)]

/-- What `Deserialize` makes of the fields it found. -/
def WebhookDelivery.fromFields (field : String → Option Json) : Option WebhookDelivery := do
  return {
    deliveryId := ⟨← (field "delivery_id").bind uuidFromJson⟩
    receiptId := ⟨← (field "receipt_id").bind uuidFromJson⟩
    emitterName := ← (field "emitter_name").bind stringFromJson
    state := ← (field "state").bind (serde.enum DeliveryState.variants DeliveryState.text)
    attemptCount := ← (field "attempt_count").bind serde.i32
    lastError := ← serde.option stringFromJson (field "last_error")
    lastAttemptAt := ← serde.option chrono.fromJson (field "last_attempt_at")
    nextAttemptAt := ← (field "next_attempt_at").bind chrono.fromJson
    emittedAt := ← serde.option chrono.fromJson (field "emitted_at")
    immutable := ← (field "immutable").bind boolFromJson
    createdAt := ← (field "created_at").bind chrono.fromJson }

/-- `Deserialize` for `WebhookDelivery`. -/
def WebhookDelivery.fromJson (json : Json) : Option WebhookDelivery :=
  (serde.struct fieldNames json).bind (fromFields serde chrono)

def WebhookReceipt.fieldNames : List String :=
  ["receipt_id", "provider_name", "provider_event_id", "external_reference", "dedupe_key",
    "payload_hash", "raw_body", "parsed_payload", "raw_headers", "normalized_event_type",
    "verification_status", "verification_reason", "processing_state", "emit_count", "last_error",
    "received_at", "processed_at", "metadata"]

/-- The members that `Serialize` writes for a receipt. -/
def WebhookReceipt.members (r : WebhookReceipt) : List (String × Json) :=
  [("receipt_id", .str r.receiptId.uuid.toString),
    ("provider_name", .str r.providerName),
    ("provider_event_id", optionToJson .str r.providerEventId),
    ("external_reference", optionToJson .str r.externalReference),
    ("dedupe_key", .str r.dedupeKey),
    ("payload_hash", .str r.payloadHash),
    ("raw_body", bytesToJson r.rawBody),
    ("parsed_payload", optionToJson id r.parsedPayload),
    ("raw_headers", r.rawHeaders),
    ("normalized_event_type", optionToJson .str r.normalizedEventType),
    ("verification_status", .str r.verificationStatus.text),
    ("verification_reason", optionToJson .str r.verificationReason),
    ("processing_state", .str r.processingState.text),
    ("emit_count", i32ToJson r.emitCount),
    ("last_error", optionToJson .str r.lastError),
    ("received_at", chrono.toJson r.receivedAt),
    ("processed_at", optionToJson chrono.toJson r.processedAt),
    ("metadata", r.metadata)]

def WebhookReceipt.fromFields (field : String → Option Json) : Option WebhookReceipt := do
  return {
    receiptId := ⟨← (field "receipt_id").bind uuidFromJson⟩
    providerName := ← (field "provider_name").bind stringFromJson
    providerEventId := ← serde.option stringFromJson (field "provider_event_id")
    externalReference := ← serde.option stringFromJson (field "external_reference")
    dedupeKey := ← (field "dedupe_key").bind stringFromJson
    payloadHash := ← (field "payload_hash").bind stringFromJson
    rawBody := ← (field "raw_body").bind bytesFromJson
    parsedPayload := ← serde.option serde.value (field "parsed_payload")
    rawHeaders := ← (field "raw_headers").bind serde.value
    normalizedEventType := ← serde.option stringFromJson (field "normalized_event_type")
    verificationStatus :=
      ← (field "verification_status").bind (serde.enum VerificationStatus.variants (·.text))
    verificationReason := ← serde.option stringFromJson (field "verification_reason")
    processingState :=
      ← (field "processing_state").bind (serde.enum ProcessingState.variants (·.text))
    emitCount := ← (field "emit_count").bind serde.i32
    lastError := ← serde.option stringFromJson (field "last_error")
    receivedAt := ← (field "received_at").bind chrono.fromJson
    processedAt := ← serde.option chrono.fromJson (field "processed_at")
    metadata := ← (field "metadata").bind serde.value }

/-- `Deserialize` for `WebhookReceipt`. -/
def WebhookReceipt.fromJson (json : Json) : Option WebhookReceipt :=
  (serde.struct fieldNames json).bind (fromFields serde chrono)

def NormalizedEvent.fieldNames : List String :=
  ["receipt_id", "provider_name", "event_type", "external_reference", "parsed_payload",
    "payload_hash", "received_at", "metadata"]

/-- The members that `Serialize` writes for an event. -/
def NormalizedEvent.members (e : NormalizedEvent) : List (String × Json) :=
  [("receipt_id", .str e.receiptId.uuid.toString),
    ("provider_name", .str e.providerName),
    ("event_type", optionToJson .str e.eventType),
    ("external_reference", optionToJson .str e.externalReference),
    ("parsed_payload", optionToJson id e.parsedPayload),
    ("payload_hash", .str e.payloadHash),
    ("received_at", chrono.toJson e.receivedAt),
    ("metadata", e.metadata)]

def NormalizedEvent.fromFields (field : String → Option Json) : Option NormalizedEvent := do
  return {
    receiptId := ⟨← (field "receipt_id").bind uuidFromJson⟩
    providerName := ← (field "provider_name").bind stringFromJson
    eventType := ← serde.option stringFromJson (field "event_type")
    externalReference := ← serde.option stringFromJson (field "external_reference")
    parsedPayload := ← serde.option serde.value (field "parsed_payload")
    payloadHash := ← (field "payload_hash").bind stringFromJson
    receivedAt := ← (field "received_at").bind chrono.fromJson
    metadata := ← (field "metadata").bind serde.value }

/-- `Deserialize` for `NormalizedEvent`. -/
def NormalizedEvent.fromJson (json : Json) : Option NormalizedEvent :=
  (serde.struct fieldNames json).bind (fromFields serde chrono)

end Types

/-! ## 4. Round trips -/

/-- The fields found are the members written. -/
def Json.Finds (field : String → Option Json) (members : List (String × Json)) : Prop :=
  ∀ m ∈ members, field m.1 = some m.2

theorem finds_toValue {members : List (String × Json)} (h : (members.map (·.1)).Nodup) :
    Json.Finds (fun name => (Json.toValue members)[name]?) members := by
  intro m hm
  refine Std.ExtTreeMap.getElem?_ofList_of_mem Std.ReflCmp.compare_self ?_ hm
  refine (List.pairwise_map.mp h).imp fun hne heq => hne ?_
  exact Std.LawfulEqCmp.compare_eq_iff_eq.mp heq

/-- Both ways of writing a struct are read alike. -/
theorem Serde.struct_finds (serde : Serde) {names : List String} {members : List (String × Json)}
    (hnames : members.map (·.1) = names) (hnodup : names.Nodup) :
    (∃ field, serde.struct names (.ofMembers members) = some field ∧ Json.Finds field members) ∧
      ∃ field, serde.struct names (.ofMap (Json.toValue members)) = some field ∧
        Json.Finds field members := by
  subst hnames
  constructor
  · obtain ⟨field, hfield, hlookup⟩ := serde.struct_obj (members.map (·.1)) hnodup
    refine ⟨field, hfield, fun m hm => ?_⟩
    rw [hlookup _ (List.mem_map_of_mem hm)]
    exact (lookup_eq_some_iff_mem hnodup).mpr hm
  · obtain ⟨field, hfield, hindex⟩ := serde.struct_ofMap (members.map (·.1))
      (Json.toValue members)
    refine ⟨field, hfield, fun m hm => ?_⟩
    rw [hindex _ (List.mem_map_of_mem hm)]
    exact finds_toValue hnodup m hm

/-- The receipt as it is read back, if its `Value`s can be read. -/
def WebhookReceipt.reread (serde : Serde) (r : WebhookReceipt) : Option WebhookReceipt := do
  return { r with
    parsedPayload := ← serde.reread r.parsedPayload
    rawHeaders := ← serde.value r.rawHeaders
    metadata := ← serde.value r.metadata }

/-- The event as it is read back. -/
def NormalizedEvent.reread (serde : Serde) (e : NormalizedEvent) : Option NormalizedEvent := do
  return { e with
    parsedPayload := ← serde.reread e.parsedPayload
    metadata := ← serde.value e.metadata }

/-- The `Value`s of a receipt are safe. -/
def WebhookReceipt.Safe (r : WebhookReceipt) : Prop :=
  (∀ v ∈ r.parsedPayload, v.Safe) ∧ r.rawHeaders.Safe ∧ r.metadata.Safe

/-- The `Value`s of an event are safe. -/
def NormalizedEvent.Safe (e : NormalizedEvent) : Prop :=
  (∀ v ∈ e.parsedPayload, v.Safe) ∧ e.metadata.Safe

section RoundTrip

variable (serde : Serde) (chrono : Chrono) {field : String → Option Json}

theorem WebhookDelivery.fromFields_members {d : WebhookDelivery}
    (h : Json.Finds field (d.members chrono)) : fromFields serde chrono field = some d := by
  simp only [Json.Finds, members, List.forall_mem_cons] at h
  obtain ⟨h1, h2, h3, h4, h5, h6, h7, h8, h9, h10, h11, -⟩ := h
  simp [fromFields, h1, h2, h3, h4, h5, h6, h7, h8, h9, h10, h11]

theorem WebhookReceipt.fromFields_members {r : WebhookReceipt}
    (h : Json.Finds field (r.members chrono)) : fromFields serde chrono field = r.reread serde := by
  simp only [Json.Finds, members, List.forall_mem_cons] at h
  obtain ⟨h1, h2, h3, h4, h5, h6, h7, h8, h9, h10, h11, h12, h13, h14, h15, h16, h17, h18, -⟩ := h
  simp [fromFields, reread, Serde.reread, h1, h2, h3, h4, h5, h6, h7, h8, h9, h10, h11, h12, h13,
    h14, h15, h16, h17, h18]

theorem NormalizedEvent.fromFields_members {e : NormalizedEvent}
    (h : Json.Finds field (e.members chrono)) : fromFields serde chrono field = e.reread serde := by
  simp only [Json.Finds, members, List.forall_mem_cons] at h
  obtain ⟨h1, h2, h3, h4, h5, h6, h7, h8, -⟩ := h
  simp [fromFields, reread, Serde.reread, h1, h2, h3, h4, h5, h6, h7, h8]

/-- **A delivery is read back as it was written.** -/
theorem WebhookDelivery.fromJson_toJson (d : WebhookDelivery) :
    fromJson serde chrono (.ofMembers (d.members chrono)) = some d ∧
      fromJson serde chrono (.ofMap (Json.toValue (d.members chrono))) = some d := by
  obtain ⟨⟨field, hfield, hfinds⟩, field', hfield', hfinds'⟩ :=
    serde.struct_finds (show (d.members chrono).map (·.1) = fieldNames from rfl) (by decide)
  rw [fromJson, fromJson, hfield, hfield']
  exact ⟨fromFields_members serde chrono hfinds, fromFields_members serde chrono hfinds'⟩

theorem WebhookReceipt.fromJson_toJson (r : WebhookReceipt) :
    fromJson serde chrono (.ofMembers (r.members chrono)) = r.reread serde := by
  obtain ⟨⟨field, hfield, hfinds⟩, -⟩ :=
    serde.struct_finds (show (r.members chrono).map (·.1) = fieldNames from rfl) (by decide)
  rw [fromJson, hfield]
  exact fromFields_members serde chrono hfinds

theorem NormalizedEvent.fromJson_toJson (e : NormalizedEvent) :
    fromJson serde chrono (.ofMembers (e.members chrono)) = e.reread serde := by
  obtain ⟨⟨field, hfield, hfinds⟩, -⟩ :=
    serde.struct_finds (show (e.members chrono).map (·.1) = fieldNames from rfl) (by decide)
  rw [fromJson, hfield]
  exact fromFields_members serde chrono hfinds

/-! ## 5. What comes back -/

/-- A receipt whose headers and metadata are safe is read back, if its payload is. -/
theorem WebhookReceipt.reread_of_safe {r : WebhookReceipt} (hheaders : r.rawHeaders.Safe)
    (hmetadata : r.metadata.Safe) :
    r.reread serde = (serde.reread r.parsedPayload).map fun payload =>
      { r with parsedPayload := payload } := by
  simp [reread, serde.value_safe hheaders, serde.value_safe hmetadata, Option.map_eq_bind]

theorem NormalizedEvent.reread_of_safe {e : NormalizedEvent} (hmetadata : e.metadata.Safe) :
    e.reread serde = (serde.reread e.parsedPayload).map fun payload =>
      { e with parsedPayload := payload } := by
  simp [reread, serde.value_safe hmetadata, Option.map_eq_bind]

theorem WebhookReceipt.reread_eq_self_iff {r : WebhookReceipt} (h : r.Safe) :
    r.reread serde = some r ↔ r.parsedPayload ≠ some .null := by
  rw [← serde.reread_safe h.1, reread_of_safe serde h.2.1 h.2.2, Option.map_eq_some_iff]
  constructor
  · rintro ⟨payload, hpayload, heq⟩
    have hsame : payload = r.parsedPayload := congrArg WebhookReceipt.parsedPayload heq
    rw [hpayload, hsame]
  · exact fun hpayload => ⟨_, hpayload, rfl⟩

/-- Safe metadata is read back, so the payload decides. -/
theorem NormalizedEvent.reread_eq_self_iff {e : NormalizedEvent} (hmetadata : e.metadata.Safe) :
    e.reread serde = some e ↔ serde.reread e.parsedPayload = some e.parsedPayload := by
  rw [reread_of_safe serde hmetadata, Option.map_eq_some_iff]
  constructor
  · rintro ⟨payload, hpayload, heq⟩
    have hsame : payload = e.parsedPayload := congrArg NormalizedEvent.parsedPayload heq
    rw [hpayload, hsame]
  · exact fun hpayload => ⟨_, hpayload, rfl⟩

end RoundTrip

/-- Timestamps as decimal numbers. -/
def sampleChrono : Chrono where
  format t := toString (show Int from t)
  parse := String.toInt?
  parse_format t := by simp

end Hookbox
