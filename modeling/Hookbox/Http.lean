/-
# The HTTP surface

`build_router` (`hookbox-server/src/lib.rs`) and the handlers behind it: the webhook endpoint
(`routes/ingest.rs`), the probes (`routes/health.rs`) and the admin API (`routes/admin.rs`).  The
framework finds the route, decodes the path and the query, and only then calls the handler, so an
ill-formed id is answered `400` before anything looks at the token.

A handler of the admin API issues its statements one by one, so it runs in a `Session`; the answer of
`ingest`, which is a state machine of its own, is part of what a request meets (`Front`).

* `admin_gate`: without the token a request issues no statement, and its answer says nothing about the
  database.
* `only_replays_commit`: only a `202` has committed something, and that is a replay.
-/
import Hookbox.Listing
import Hookbox.DeadLetters
import Hookbox.Readiness
import Hookbox.Serde
import Hookbox.Lib.Text

namespace Hookbox

/-! ## 1. Requests and routes -/

inductive Method where
  | get
  | head
  | post
  | other
deriving DecidableEq

/-- A request: the decoded segments of its path, and the decoded pairs of its query. -/
structure HttpRequest where
  method : Method
  path : List String
  query : List (String × String) := []
  headers : HeaderMap := []
  body : Bytes := []

inductive HttpBody where
  | empty
  | text (s : String)
  | json (value : Json)
  /-- A text of the framework, for a request that no handler has seen. -/
  | rejection

structure HttpResponse where
  code : Nat
  body : HttpBody

/-- A segment of a route: `{id}` stands for any segment. -/
inductive Segment where
  | lit (s : String)
  | param

def Segment.accepts : Segment → String → Bool
  | lit s, t => s = t
  | param, t => t ≠ ""

/-- The handlers that `build_router` mounts. -/
inductive Handler where
  | ingestWebhook
  | healthz
  | readyz
  | listReceipts
  | getReceipt
  | replayReceipt
  | listDlq
  | getDelivery
  | replayDelivery
  | listEmitters
  | metrics
deriving DecidableEq

/-- `build_router`. -/
def buildRouter : List (List Segment × Method × Handler) :=
  [([.lit "webhooks", .param], .post, .ingestWebhook),
    ([.lit "healthz"], .get, .healthz),
    ([.lit "readyz"], .get, .readyz),
    ([.lit "api", .lit "receipts"], .get, .listReceipts),
    ([.lit "api", .lit "receipts", .param], .get, .getReceipt),
    ([.lit "api", .lit "receipts", .param, .lit "replay"], .post, .replayReceipt),
    ([.lit "api", .lit "dlq"], .get, .listDlq),
    ([.lit "api", .lit "deliveries", .param], .get, .getDelivery),
    ([.lit "api", .lit "deliveries", .param, .lit "replay"], .post, .replayDelivery),
    ([.lit "api", .lit "emitters"], .get, .listEmitters),
    ([.lit "metrics"], .get, .metrics)]

/-- The path is one of the route's. -/
def matchesPath : List Segment → List String → Bool
  | [], [] => true
  | seg :: segs, s :: path => seg.accepts s && matchesPath segs path
  | _, _ => false

/-- The segment that stands for the parameter of the route. -/
def pathParam : List Segment → List String → Option String
  | .param :: _, s :: _ => some s
  | .lit _ :: segs, _ :: path => pathParam segs path
  | _, _ => none

/-- A `get` route answers `HEAD` too. -/
def Method.answers (route request : Method) : Bool :=
  request = route || (request = .head && route = .get)

/-- The handler of a request, and its path parameter: `404` for an unknown path, `405` for another
method. -/
def route (method : Method) (path : List String) : Except Nat (Handler × Option String) :=
  match buildRouter.find? fun r => matchesPath r.1 path with
  | none => .error 404
  | some (segs, m, handler) =>
    if m.answers method then .ok (handler, pathParam segs path) else .error 405

/-! ## 2. Extractors -/

/-- `Path<Uuid>`. -/
def pathUuid (param : Option String) : Option Uuid := param.bind Uuid.parseStr

/-- An `i64` of a query. -/
def i64Param (s : String) : Option Int := (Text.readInt (-2 ^ 63) (2 ^ 63 - 1) s.toList).toOption

/-- A field of `Query<T>`, of type `Option<_>`: absent, or there once and well formed. -/
def queryField {α : Type} (read : String → Option α) (query : List (String × String))
    (name : String) : Option (Option α) :=
  match query.filter fun pair => pair.1 = name with
  | [] => some none
  | [pair] => (read pair.2).map some
  | _ => none

/-- `Query<ListReceiptsQuery>`. -/
def listReceiptsQuery (query : List (String × String)) : Option ListReceiptsQuery := do
  return {
    provider := ← queryField some query "provider"
    state := ← queryField (fun s => ProcessingState.variants.find? fun st => st.text = s) query "state"
    limit := ← queryField i64Param query "limit"
    offset := ← queryField i64Param query "offset" }

/-- `ListDlqQuery`. -/
structure ListDlqQuery where
  emitter : Option String := none
  limit : Option Int := none
  offset : Option Int := none

/-- `Query<ListDlqQuery>`. -/
def listDlqQuery (query : List (String × String)) : Option ListDlqQuery := do
  return {
    emitter := ← queryField some query "emitter"
    limit := ← queryField i64Param query "limit"
    offset := ← queryField i64Param query "offset" }

/-- `Query<ReplayReceiptQuery>`. -/
def replayReceiptQuery (query : List (String × String)) : Option (Option String) :=
  queryField some query "emitter"

/-! ## 3. Bodies -/

def StatusCode.code : StatusCode → Nat
  | .accepted => 202
  | .badRequest => 400
  | .unauthorized => 401
  | .notFound => 404
  | .internalServerError => 500

def Response.toHttp (r : Response) : HttpResponse := ⟨r.status.code, .json r.body⟩

/-- `#[serde(rename_all = "snake_case")]` on `HealthStatus`. -/
def HealthStatus.text : HealthStatus → String
  | .healthy => "healthy"
  | .degraded => "degraded"
  | .unhealthy => "unhealthy"

section Bodies

variable (chrono : Chrono)

/-- `serde_json::to_value` of a delivery. -/
def WebhookDelivery.toValue (d : WebhookDelivery) : Json := .ofMap (Json.toValue (d.members chrono))

/-- `serde_json::to_value` of a receipt. -/
def WebhookReceipt.toValue (r : WebhookReceipt) : Json := .ofMap (Json.toValue (r.members chrono))

/-- `serde_json::to_value` of a `deliveries_summary`. -/
def summaryValue (summary : Std.ExtTreeMap String DeliveryState) : Json :=
  .ofMap (summary.map fun _ st => .str st.text)

/-- The members that `receipt_list_item_json` and `receipt_detail_json` put into the map of a
receipt. -/
def receiptValue (item : ReceiptListItem) : Std.ExtTreeMap String Json :=
  ((Json.toValue (item.receipt.members chrono)).insert "processing_state"
    (.str item.processingState.text)).insert "deliveries_summary" (summaryValue item.deliveriesSummary)

/-- The value of `receipt_list_item_json`. -/
def receiptListItemValue (receipt : WebhookReceipt) (deliveries : List WebhookDelivery) : Json :=
  .ofMap (receiptValue chrono (receiptListItemJson receipt deliveries))

/-- `receipt_detail_json`. -/
def receiptDetailJson (receipt : WebhookReceipt) (deliveries : List WebhookDelivery) : Json :=
  .ofMap ((receiptValue chrono (receiptListItemJson receipt deliveries)).insert "deliveries"
    (.arr (deliveries.map (WebhookDelivery.toValue chrono))))

/-- `json!({"delivery": .., "receipt": ..})`. -/
def deliveryWithReceipt (pair : WebhookDelivery × WebhookReceipt) : Json :=
  .obj [("delivery", pair.1.toValue chrono), ("receipt", pair.2.toValue chrono)]

/-- The members that `Serialize` writes for a snapshot. -/
def EmitterHealthSnapshot.members (h : EmitterHealthSnapshot) : List (String × Json) :=
  [("status", .str h.status.text),
    ("last_success_at", optionToJson chrono.toJson h.lastSuccessAt),
    ("last_failure_at", optionToJson chrono.toJson h.lastFailureAt),
    ("consecutive_failures", .num (toString h.consecutiveFailures.toNat)),
    ("dlq_depth", .num (toString h.dlqDepth)),
    ("pending_count", .num (toString h.pendingCount))]

/-- One element of the answer of `list_emitters`. -/
def emitterItem (entry : String × EmitterHealthSnapshot) : Json :=
  .ofMap ((Json.toValue (entry.2.members chrono)).insert "name" (.str entry.1))

/-- `ReadyzResponse`, serialised. -/
def ReadyzResponse.toJson (r : ReadyzResponse) : Json :=
  .ofMembers [("status", .str r.status.text),
    ("database", .ofMembers [("status", .str r.database.text)]),
    ("emitters", .ofMap (r.emitters.map fun _ h => .ofMembers (h.members chrono)))]

end Bodies

/-! ## 4. The handlers -/

/-- A session of the admin API: what `ORDER BY` leaves open for its two lists, too. -/
structure HttpSession extends Session where
  queryRows : Database → ReceiptFilter → List ReceiptRow
  queryRows_spec : ∀ (db : Database) (filter : ReceiptFilter),
    db.QueryRows filter (queryRows db filter)
  dlqRows : Database → Option String → List WebhookDelivery
  dlqRows_spec : ∀ (db : Database) (name : Option String), db.DlqRows name (dlqRows db name)

namespace HttpSession

variable (session : HttpSession)

/-- `Storage::query`. -/
def query (filter : ReceiptFilter) : Journal → Except StorageError (List WebhookReceipt) × Journal :=
  session.statement fun db => Database.query (session.queryRows db filter) filter

/-- The loop of `list_dlq` in the storage: the receipt of each row. -/
def loadEach : List WebhookDelivery → Journal →
    Except StorageError (List (WebhookDelivery × WebhookReceipt)) × Journal
  | [], j => (.ok [], j)
  | d :: ds, j =>
    match session.get d.receiptId j with
    | (.error e, j) => (.error e, j)
    | (.ok none, j) => (.error (.internal "delivery references missing receipt"), j)
    | (.ok (some receipt), j) =>
      match loadEach ds j with
      | (.error e, j) => (.error e, j)
      | (.ok pairs, j) => (.ok ((d, receipt) :: pairs), j)

/-- `DeliveryStorage::list_dlq`. -/
def storageListDlq (emitterName : Option String) (limit offset : Int) (j : Journal) :
    Except StorageError (List (WebhookDelivery × WebhookReceipt)) × Journal :=
  match session.statement
      (fun db => Database.paginate limit offset (session.dlqRows db emitterName)) j with
  | (.error e, j) => (.error e, j)
  | (.ok rows, j) => session.loadEach rows j

section Handlers

variable (chrono : Chrono) (state : AppState) (headers : HeaderMap)

/-- The loop of `list_receipts`. -/
def listItems : List WebhookReceipt → Journal → Except StorageError (List Json) × Journal
  | [], j => (.ok [], j)
  | receipt :: receipts, j =>
    match session.getDeliveriesForReceipt receipt.receiptId j with
    | (.error e, j) => (.error e, j)
    | (.ok deliveries, j) =>
      match listItems receipts j with
      | (.error e, j) => (.error e, j)
      | (.ok items, j) => (.ok (receiptListItemValue chrono receipt deliveries :: items), j)

/-- `list_receipts`. -/
def listReceipts (params : ListReceiptsQuery) (j : Journal) : HttpResponse × Journal :=
  match checkAuth state headers with
  | .error resp => (resp.toHttp, j)
  | .ok () =>
    match session.query params.filter j with
    | (.error e, j) => ((Response.storageError e).toHttp, j)
    | (.ok receipts, j) =>
      match session.listItems chrono receipts j with
      | (.error e, j) => ((Response.storageError e).toHttp, j)
      | (.ok items, j) => (⟨200, .json (.arr items)⟩, j)

/-- `deliveries.sort_by_key(|d| d.created_at)`. -/
def sortByCreatedAt (deliveries : List WebhookDelivery) : List WebhookDelivery :=
  deliveries.mergeSort fun d d' => d.createdAt ≤ d'.createdAt

/-- `get_receipt`. -/
def getReceipt (id : ReceiptId) (j : Journal) : HttpResponse × Journal :=
  match checkAuth state headers with
  | .error resp => (resp.toHttp, j)
  | .ok () =>
    match session.get id j with
    | (.error e, j) => ((Response.storageError e).toHttp, j)
    | (.ok none, j) => ((Response.error .notFound "receipt not found").toHttp, j)
    | (.ok (some receipt), j) =>
      match session.getDeliveriesForReceipt receipt.receiptId j with
      | (.error e, j) => ((Response.storageError e).toHttp, j)
      | (.ok deliveries, j) =>
        (⟨200, .json (receiptDetailJson chrono receipt (sortByCreatedAt deliveries))⟩, j)

/-- `list_dlq`. -/
def listDlq (params : ListDlqQuery) (j : Journal) : HttpResponse × Journal :=
  match checkAuth state headers with
  | .error resp => (resp.toHttp, j)
  | .ok () =>
    match session.storageListDlq params.emitter (params.limit.getD 100) (params.offset.getD 0) j with
    | (.error e, j) => ((Response.storageError e).toHttp, j)
    | (.ok pairs, j) => (⟨200, .json (.arr (pairs.map (deliveryWithReceipt chrono)))⟩, j)

/-- `get_delivery`. -/
def getDelivery (id : DeliveryId) (j : Journal) : HttpResponse × Journal :=
  match checkAuth state headers with
  | .error resp => (resp.toHttp, j)
  | .ok () =>
    match session.toSession.getDelivery id j with
    | (.error e, j) => ((Response.storageError e).toHttp, j)
    | (.ok none, j) => ((Response.error .notFound "delivery not found").toHttp, j)
    | (.ok (some pair), j) => (⟨200, .json (deliveryWithReceipt chrono pair)⟩, j)

end Handlers

end HttpSession

/-- `list_emitters`. -/
def listEmitters (chrono : Chrono) (state : AppState) (headers : HeaderMap)
    (emitterHealth : Std.ExtTreeMap String EmitterHealth) : HttpResponse :=
  match checkAuth state headers with
  | .error resp => resp.toHttp
  | .ok () =>
    let snapshots := synthesizeMissingEmitters (emitterHealth.map fun _ h => h.snapshot)
      state.pipeline.emitterNames
    ⟨200, .json (.arr (snapshots.toList.map (emitterItem chrono)))⟩

/-- What `ingest_webhook` answers for what `ingest` returned. -/
def ingestResponse : Except IngestError IngestResult → HttpResponse
  | .ok (.accepted receiptId) => ⟨200, .json (.obj
      [("receipt_id", .str receiptId.uuid.toString), ("status", .str "accepted")])⟩
  | .ok (.duplicate existingId) => ⟨200, .json (.obj
      [("existing_id", .str existingId.uuid.toString), ("status", .str "duplicate")])⟩
  | .ok (.verificationFailed reason) => ⟨401, .json (.obj
      [("reason", .str reason), ("status", .str "verification_failed")])⟩
  | .error _ => ⟨500, .json (.obj
      [("reason", .str "internal server error"), ("status", .str "error")])⟩

/-! ## 5. The router -/

/-- `AppState`, with what a request meets in it: the answer to a ping of the pool, the texts of the
metrics recorder, the snapshots of the workers, and the pipeline behind the webhook handler, which
issues statements of its own. -/
structure Front where
  state : AppState
  pool : Option Ping
  prometheus : Option String
  emitterHealth : Std.ExtTreeMap String EmitterHealth
  bodyLimit : Nat
  ingest : Request → Journal → Except IngestError IngestResult × Journal

/-- `metrics`. -/
def Front.metrics (front : Front) : String :=
  front.prometheus.getD "# no prometheus recorder installed\n"

/-- A request that an extractor has refused. -/
def HttpResponse.rejected (code : Nat) : HttpResponse := ⟨code, .rejection⟩

def ProbeStatus.code : ProbeStatus → Nat
  | .ok => 200
  | .serviceUnavailable => 503

/-- A call of the admin API, once its extractors have succeeded. -/
inductive AdminCall where
  | listReceipts (params : ListReceiptsQuery)
  | getReceipt (id : ReceiptId)
  | replayReceipt (id : ReceiptId) (emitter : Option String)
  | listDlq (params : ListDlqQuery)
  | getDelivery (id : DeliveryId)
  | replayDelivery (id : DeliveryId)
  | listEmitters

/-- A handler with its arguments. -/
inductive Endpoint where
  | ingestWebhook (provider : String)
  | healthz
  | readyz
  | metrics
  | admin (call : AdminCall)

/-- The extractors of a handler.  They run before it, so before `check_auth`. -/
def Handler.extract (handler : Handler) (param : Option String) (query : List (String × String)) :
    Option Endpoint :=
  match handler with
  | .ingestWebhook => param.map .ingestWebhook
  | .healthz => some .healthz
  | .readyz => some .readyz
  | .metrics => some .metrics
  | .listReceipts => (listReceiptsQuery query).map fun params => .admin (.listReceipts params)
  | .getReceipt => (pathUuid param).map fun id => .admin (.getReceipt ⟨id⟩)
  | .replayReceipt => do
    let id ← pathUuid param
    let emitter ← replayReceiptQuery query
    return .admin (.replayReceipt ⟨id⟩ emitter)
  | .listDlq => (listDlqQuery query).map fun params => .admin (.listDlq params)
  | .getDelivery => (pathUuid param).map fun id => .admin (.getDelivery ⟨id⟩)
  | .replayDelivery => (pathUuid param).map fun id => .admin (.replayDelivery ⟨id⟩)
  | .listEmitters => some (.admin .listEmitters)

/-- What the router makes of a request, or the code it refuses it with. -/
def HttpRequest.endpoint (req : HttpRequest) : Except Nat Endpoint :=
  match route req.method req.path with
  | .error code => .error code
  | .ok (handler, param) =>
    match handler.extract param req.query with
    | none => .error 400
    | some endpoint => .ok endpoint

section Router

variable (chrono : Chrono) (front : Front) (session : HttpSession)

/-- A handler of the admin API. -/
def AdminCall.run (call : AdminCall) (headers : HeaderMap) (j : Journal) : HttpResponse × Journal :=
  match call with
  | .listReceipts params => session.listReceipts chrono front.state headers params j
  | .getReceipt id => session.getReceipt chrono front.state headers id j
  | .replayReceipt id emitter =>
    let (resp, j) := Hookbox.replayReceipt session.toSession front.state headers id emitter j
    (resp.toHttp, j)
  | .listDlq params => session.listDlq chrono front.state headers params j
  | .getDelivery id => session.getDelivery chrono front.state headers id j
  | .replayDelivery id =>
    let (resp, j) := Hookbox.replayDelivery session.toSession front.state headers id j
    (resp.toHttp, j)
  | .listEmitters => (Hookbox.listEmitters chrono front.state headers front.emitterHealth, j)

/-- A handler.  The body of a webhook is read last, and no further than `DefaultBodyLimit`. -/
def Endpoint.run (endpoint : Endpoint) (req : HttpRequest) (j : Journal) : HttpResponse × Journal :=
  match endpoint with
  | .ingestWebhook provider =>
    if front.bodyLimit < req.body.length then (.rejected 413, j)
    else
      let (result, j) := front.ingest ⟨provider, req.headers, req.body⟩ j
      (ingestResponse result, j)
  | .healthz => (⟨200, .empty⟩, j)
  | .readyz =>
    let answer := Hookbox.readyz front.pool front.emitterHealth front.state.pipeline.emitterNames
    (⟨answer.1.code, .json (answer.2.toJson chrono)⟩, j)
  | .metrics => (⟨200, .text front.metrics⟩, j)
  | .admin call => call.run chrono front session req.headers j

/-- The answer of the server to a request; the answer to a `HEAD` has no body. -/
def respond (req : HttpRequest) (j : Journal) : HttpResponse × Journal :=
  match req.endpoint with
  | .error code => (.rejected code, j)
  | .ok endpoint =>
    let (resp, j) := endpoint.run chrono front session req j
    (if req.method = .head then ⟨resp.code, .empty⟩ else resp, j)

end Router

/-! ## 6. The token -/

/-- The headers carry the token.  A header is compared only if it is visible ASCII. -/
def CarriesToken (token : String) (headers : HeaderMap) : Prop :=
  headers.get "authorization" = some (asBytes ("Bearer " ++ token)) ∧
    (toStr (asBytes ("Bearer " ++ token))).isSome

theorem toStr_eq_some {bs text : Bytes} (h : toStr bs = some text) : text = bs := by
  unfold toStr at h
  split at h
  · exact (Option.some.inj h).symm
  · cases h

theorem checkAuth_ok_iff {state : AppState} {headers : HeaderMap} {token : String}
    (htoken : state.adminToken = some token) :
    checkAuth state headers = .ok () ↔ CarriesToken token headers := by
  unfold checkAuth CarriesToken
  rw [htoken]
  cases hauth : headers.get "authorization" with
  | none => simp
  | some auth =>
    cases htext : toStr auth with
    | none =>
      simp only [htext, reduceCtorEq, Option.some.injEq, false_iff, not_and]
      rintro rfl
      simp [htext]
    | some text =>
      obtain rfl := toStr_eq_some htext
      by_cases heq : text = asBytes ("Bearer " ++ token)
      · subst heq
        simp [htext]
      · simp [htext, heq]

/-- A request that fails the check is turned away with a `401`. -/
theorem checkAuth_error_code {state : AppState} {headers : HeaderMap} {resp : Response}
    (h : checkAuth state headers = .error resp) : resp.toHttp.code = 401 := by
  unfold checkAuth at h
  repeat' split at h
  all_goals cases h
  all_goals rfl

/-! ## 7. What a call of the admin API can do -/

/-- What a call is to insert attempts for: nothing, unless it is a replay. -/
def AdminCall.Targets (call : AdminCall) (configured : List String) (db : Database)
    (receiptId : ReceiptId) (names : List String) : Prop :=
  match call with
  | .replayReceipt id emitter => TargetsOfReceipt configured id emitter receiptId names
  | .replayDelivery id => TargetsOfDelivery db id receiptId names
  | _ => False

def AdminCall.isReplay : AdminCall → Bool
  | .replayReceipt _ _ => true
  | .replayDelivery _ => true
  | _ => false

/-- The targets of a call are emitters of the server, and get one row each. -/
def Front.Replays (front : Front) (call : AdminCall) (db : Database) :
    Database → Database → Prop :=
  Database.IsReplay (call.Targets front.state.pipeline.emitterNames db)
    front.state.pipeline.emitterNames

/-- **Everything a call of the admin API can do.**  It fails the check and issues no statement, or it
commits nothing, or it is a replay that commits one transaction. -/
inductive AdminCall.Effect (front : Front) (session : HttpSession) (call : AdminCall)
    (headers : HeaderMap) (j : Journal) : HttpResponse → Journal → Prop where
  | unauthorized (refusal : Response) (h : checkAuth front.state headers = .error refusal) :
      Effect front session call headers j refusal.toHttp j
  | answered (resp : HttpResponse) (j' : Journal) (h : checkAuth front.state headers = .ok ())
      (hcode : resp.code = 200 ∨ resp.code = 400 ∨ resp.code = 404 ∨ resp.code = 500)
      (hkept : j'.committed = j.committed) : Effect front session call headers j resp j'
  | replayed (resp : HttpResponse) (j' : Journal) (h : checkAuth front.state headers = .ok ())
      (hcall : call.isReplay = true) (hcode : resp.code = 202)
      (hwrites : session.Writes (fun db db' => front.state.pipeline.emitterNames ≠ [] →
        front.Replays call (session.db j.issued) db db') j j') :
      Effect front session call headers j resp j'

section Reads

variable {session : HttpSession} {chrono : Chrono} {state : AppState} {headers : HeaderMap}
  {j j' : Journal}

theorem Session.statement_kept {session : Session} {α : Type}
    {f : Database → Except StorageError α} {r : Except StorageError α}
    (h : session.statement f j = (r, j')) : j'.committed = j.committed := by
  cases h
  rfl

theorem Session.getDelivery_kept {session : Session} {id : DeliveryId}
    {r : Except StorageError (Option (WebhookDelivery × WebhookReceipt))}
    (h : session.getDelivery id j = (r, j')) : j'.committed = j.committed := by
  cases r with
  | error e => exact Session.getDelivery_error h
  | ok r => exact (Session.getDelivery_ok h).1.committed

theorem HttpSession.listItems_kept {receipts : List WebhookReceipt} :
    ∀ {j j' : Journal} {r : Except StorageError (List Json)},
      session.listItems chrono receipts j = (r, j') → j'.committed = j.committed := by
  induction receipts with
  | nil =>
    intro j j' r h
    cases h
    rfl
  | cons receipt receipts ih =>
    intro j j' r h
    rw [listItems] at h
    split at h
    · rename_i hrow
      cases h
      exact Session.statement_kept hrow
    · rename_i deliveries j₁ hrow
      have hfirst := Session.statement_kept hrow
      split at h
      · rename_i hitems
        cases h
        exact (ih hitems).trans hfirst
      · rename_i hitems
        cases h
        exact (ih hitems).trans hfirst

theorem HttpSession.loadEach_kept {rows : List WebhookDelivery} :
    ∀ {j j' : Journal} {r : Except StorageError (List (WebhookDelivery × WebhookReceipt))},
      session.loadEach rows j = (r, j') → j'.committed = j.committed := by
  induction rows with
  | nil =>
    intro j j' r h
    cases h
    rfl
  | cons d rows ih =>
    intro j j' r h
    rw [loadEach] at h
    split at h
    · rename_i hrow
      cases h
      exact Session.statement_kept hrow
    · rename_i hrow
      cases h
      exact Session.statement_kept hrow
    · rename_i receipt j₁ hrow
      have hfirst := Session.statement_kept hrow
      split at h
      · rename_i hpairs
        cases h
        exact (ih hpairs).trans hfirst
      · rename_i hpairs
        cases h
        exact (ih hpairs).trans hfirst

theorem HttpSession.storageListDlq_kept {emitterName : Option String} {limit offset : Int}
    {r : Except StorageError (List (WebhookDelivery × WebhookReceipt))}
    (h : session.storageListDlq emitterName limit offset j = (r, j')) :
    j'.committed = j.committed := by
  unfold storageListDlq at h
  split at h
  · rename_i hrows
    cases h
    exact Session.statement_kept hrows
  · rename_i hrows
    exact (loadEach_kept h).trans (Session.statement_kept hrows)

end Reads

section Calls

variable {front : Front} {session : HttpSession} {headers : HeaderMap} {j : Journal}

/-- A status other than that of a replay and that of a missing token. -/
theorem StatusCode.code_cases {status : StatusCode} (haccepted : status ≠ .accepted)
    (hunauthorized : status ≠ .unauthorized) :
    status.code = 200 ∨ status.code = 400 ∨ status.code = 404 ∨ status.code = 500 := by
  cases status with
  | accepted => exact absurd rfl haccepted
  | unauthorized => exact absurd rfl hunauthorized
  | _ => decide

theorem replayTargets_status {state : AppState} {id : ReceiptId} {emitter : Option String}
    {resp : Response} (h : replayTargets state id emitter = .error resp) :
    resp.status = .badRequest := by
  unfold replayTargets at h
  repeat' split at h
  all_goals cases h
  rfl

theorem replayReceipt_status (hauth : checkAuth front.state headers = .ok ()) (id : ReceiptId)
    (emitter : Option String) :
    (replayReceipt session.toSession front.state headers id emitter j).1.status ≠ .unauthorized := by
  simp only [replayReceipt, hauth]
  repeat' split
  all_goals try (simp [Response.error, Response.storageError]; done)
  rename_i htargets
  show Response.status _ ≠ _
  rw [replayTargets_status htargets]
  decide

theorem replayDelivery_status (hauth : checkAuth front.state headers = .ok ()) (id : DeliveryId) :
    (replayDelivery session.toSession front.state headers id j).1.status ≠ .unauthorized := by
  simp only [replayDelivery, hauth]
  repeat' split
  all_goals simp [Response.error, Response.storageError, Response.notConfigured]

section Answers

variable {call : AdminCall} {j' : Journal} (hauth : checkAuth front.state headers = .ok ())
  (hkept : j'.committed = j.committed)

include hauth hkept

theorem AdminCall.Effect.found (body : HttpBody) :
    call.Effect front session headers j ⟨200, body⟩ j' :=
  .answered _ _ hauth (.inl rfl) hkept

theorem AdminCall.Effect.missing (message : String) :
    call.Effect front session headers j (Response.error .notFound message).toHttp j' :=
  .answered _ _ hauth (.inr (.inr (.inl rfl))) hkept

theorem AdminCall.Effect.failed (e : StorageError) :
    call.Effect front session headers j (Response.storageError e).toHttp j' :=
  .answered _ _ hauth (.inr (.inr (.inr rfl))) hkept

end Answers

/-- A replay handler, in the terms of the router. -/
theorem AdminCall.effect_of_ends {call : AdminCall} {out : Response × Journal}
    (hauth : checkAuth front.state headers = .ok ()) (hcall : call.isReplay = true)
    (hends : session.Ends (fun db db' => front.state.pipeline.emitterNames ≠ [] →
      front.Replays call (session.db j.issued) db db') out.1.Succeeded j out.2)
    (hstatus : out.1.status ≠ .unauthorized) :
    call.Effect front session headers j out.1.toHttp out.2 := by
  cases hends with
  | refused hrefused hkept =>
    exact .answered _ _ hauth (StatusCode.code_cases hrefused hstatus) hkept
  | replayed hdone hwrites =>
    refine .replayed _ _ hauth hcall ?_ hwrites
    show out.1.status.code = 202
    rw [show out.1.status = .accepted from hdone]
    rfl

/-- **Without the token a call issues no statement.** -/
theorem AdminCall.run_unauthorized {chrono : Chrono} {call : AdminCall} {refusal : Response}
    (hauth : checkAuth front.state headers = .error refusal) :
    call.run chrono front session headers j = (refusal.toHttp, j) := by
  cases call with
  | listReceipts params => simp only [run, HttpSession.listReceipts, hauth]
  | getReceipt id => simp only [run, HttpSession.getReceipt, hauth]
  | replayReceipt id emitter => simp only [run, Hookbox.replayReceipt, hauth]
  | listDlq params => simp only [run, HttpSession.listDlq, hauth]
  | getDelivery id => simp only [run, HttpSession.getDelivery, hauth]
  | replayDelivery id => simp only [run, Hookbox.replayDelivery, hauth]
  | listEmitters => simp only [run, Hookbox.listEmitters, hauth]

/-- **What a call comes to.** -/
theorem AdminCall.run_effect (chrono : Chrono) (hnd : front.state.pipeline.emitterNames.Nodup)
    (call : AdminCall) :
    call.Effect front session headers j (call.run chrono front session headers j).1
      (call.run chrono front session headers j).2 := by
  cases hauth : checkAuth front.state headers with
  | error refusal =>
    rw [run_unauthorized hauth]
    exact .unauthorized refusal hauth
  | ok u =>
    cases call with
    | listReceipts params =>
      simp only [run, HttpSession.listReceipts, hauth]
      split
      · rename_i hquery
        exact .failed hauth (Session.statement_kept hquery) _
      · rename_i receipts j₁ hquery
        have hfirst := Session.statement_kept hquery
        split
        · rename_i hitems
          exact .failed hauth ((HttpSession.listItems_kept hitems).trans hfirst) _
        · rename_i hitems
          exact .found hauth ((HttpSession.listItems_kept hitems).trans hfirst) _
    | getReceipt id =>
      simp only [run, HttpSession.getReceipt, hauth]
      split
      · rename_i hget
        exact .failed hauth (Session.statement_kept hget) _
      · rename_i hget
        exact .missing hauth (Session.statement_kept hget) _
      · rename_i receipt j₁ hget
        have hfirst := Session.statement_kept hget
        split
        · rename_i hrows
          exact .failed hauth ((Session.statement_kept hrows).trans hfirst) _
        · rename_i hrows
          exact .found hauth ((Session.statement_kept hrows).trans hfirst) _
    | replayReceipt id emitter =>
      exact effect_of_ends hauth rfl (replayReceipt_ends hnd headers id emitter)
        (replayReceipt_status hauth id emitter)
    | listDlq params =>
      simp only [run, HttpSession.listDlq, hauth]
      split
      · rename_i hpairs
        exact .failed hauth (HttpSession.storageListDlq_kept hpairs) _
      · rename_i hpairs
        exact .found hauth (HttpSession.storageListDlq_kept hpairs) _
    | getDelivery id =>
      simp only [run, HttpSession.getDelivery, hauth]
      split
      · rename_i hrow
        exact .failed hauth (Session.getDelivery_kept hrow) _
      · rename_i hrow
        exact .missing hauth (Session.getDelivery_kept hrow) _
      · rename_i hrow
        exact .found hauth (Session.getDelivery_kept hrow) _
    | replayDelivery id =>
      exact effect_of_ends hauth rfl ((replayDelivery_ends headers id).imp fun h _ => h)
        (replayDelivery_status hauth id)
    | listEmitters =>
      simp only [run, Hookbox.listEmitters, hauth]
      exact .found hauth rfl _

end Calls

/-! ## 8. The surface -/

section Surface

variable {chrono : Chrono} {front : Front} {req : HttpRequest} {call : AdminCall}

/-- The answer of a handler. -/
theorem respond_endpoint (chrono : Chrono) (front : Front) (session : HttpSession) (j : Journal)
    {endpoint : Endpoint} (hreq : req.endpoint = .ok endpoint) :
    (respond chrono front session req j).1.code
        = (endpoint.run chrono front session req j).1.code ∧
      (respond chrono front session req j).2 = (endpoint.run chrono front session req j).2 := by
  unfold respond
  rw [hreq]
  refine ⟨?_, rfl⟩
  show (if req.method = .head then _ else _ : HttpResponse).code = _
  split <;> rfl

theorem AdminCall.Effect.code_eq_unauthorized_iff {session : HttpSession} {headers : HeaderMap}
    {j j' : Journal} {resp : HttpResponse} (h : call.Effect front session headers j resp j') :
    resp.code = 401 ↔ checkAuth front.state headers ≠ .ok () := by
  cases h with
  | unauthorized refusal hauth => simp [hauth, checkAuth_error_code hauth]
  | answered resp j' hauth hcode hkept => simp [hauth]; omega
  | replayed resp j' hauth hcall hcode hwrites => simp [hauth, hcode]

/-- A `202` is for a replay that committed. -/
theorem AdminCall.Effect.commits (hne : front.state.pipeline.emitterNames ≠ [])
    {session : HttpSession} {headers : HeaderMap} {j j' : Journal} {resp : HttpResponse}
    (h : call.Effect front session headers j resp j') :
    (resp.code = 202 ∧ call.isReplay = true ∧ checkAuth front.state headers = .ok () ∧
      session.Writes (front.Replays call (session.db j.issued)) j j') ∨
    (resp.code ≠ 202 ∧ j'.committed = j.committed) := by
  cases h with
  | unauthorized refusal hauth =>
    rw [checkAuth_error_code hauth]
    exact .inr ⟨by decide, rfl⟩
  | answered resp j' hauth hcode hkept => exact .inr ⟨by omega, hkept⟩
  | replayed resp j' hauth hcall hcode hwrites =>
    exact .inl ⟨hcode, hcall, hauth, hwrites.imp fun h => h hne⟩

/-- **The token guards the admin API.**  With distinct names of emitters, a request that reaches one of
its handlers is answered `401` exactly when it does not carry the token, whatever the database; then no
statement is issued, and the answer is the same for every database.  (A request that an extractor
refuses has not reached one: it is answered without looking at the token.) -/
theorem admin_gate (chrono : Chrono) {token : String} (htoken : front.state.adminToken = some token)
    (hnd : front.state.pipeline.emitterNames.Nodup) (hreq : req.endpoint = .ok (.admin call)) :
    (∀ session j, (respond chrono front session req j).1.code = 401 ↔
      ¬ CarriesToken token req.headers) ∧
    (¬ CarriesToken token req.headers → ∃ resp, ∀ session j,
      respond chrono front session req j = (resp, j)) := by
  constructor
  · intro session j
    rw [(respond_endpoint chrono front session j hreq).1, ← checkAuth_ok_iff htoken]
    exact (call.run_effect chrono hnd).code_eq_unauthorized_iff
  · intro hcarries
    rw [← checkAuth_ok_iff htoken] at hcarries
    cases hauth : checkAuth front.state req.headers with
    | ok u => exact absurd hauth hcarries
    | error refusal =>
      refine ⟨if req.method = .head then ⟨refusal.toHttp.code, .empty⟩ else refusal.toHttp, ?_⟩
      intro session j
      simp only [respond, hreq, Endpoint.run, AdminCall.run_unauthorized hauth]

end Surface

/-- The session of a quiet database. -/
def HttpSession.quiet (db : Database) : HttpSession where
  toSession := .quiet db
  queryRows db filter := (db.receipts.rows.filter fun row => filter.Matches row).mergeSort
    fun r r' => r'.receivedAt ≤ r.receivedAt
  queryRows_spec db filter := by
    refine ⟨List.mergeSort_perm _ _, (List.pairwise_mergeSort ?_ ?_ _).imp of_decide_eq_true⟩
    · intro a b c hab hbc
      exact decide_eq_true ((of_decide_eq_true hbc).trans (of_decide_eq_true hab))
    · intro a b
      simpa using Int.le_total b.receivedAt a.receivedAt
  dlqRows db name := ((db.deliveries.rows.filter fun d => Database.InDlq name d).mergeSort
    fun d d' => d.createdAt ≤ d'.createdAt).reverse
  dlqRows_spec db name :=
    ⟨(List.reverse_perm _).trans (List.mergeSort_perm _ _),
      List.pairwise_reverse.mpr (sorted_mergeSort _)⟩

/-- A server with one emitter. -/
def sampleFront (token : Option String) : Front where
  state := ⟨sampleDep.servers 0, token⟩
  pool := some .ok
  prometheus := none
  emitterHealth := ∅
  bodyLimit := 1000
  ingest _ j := (.ok (.accepted ⟨1⟩), j)

/-- A request without a token. -/
theorem admin_gate_without_token : ∃ resp, ∀ session j,
    respond sampleChrono (sampleFront (some "s3cret")) session ⟨.get, ["api", "dlq"], [], [], []⟩ j
      = (resp, j) :=
  (admin_gate sampleChrono (show (sampleFront (some "s3cret")).state.adminToken = some "s3cret" from rfl)
    (by decide) (show HttpRequest.endpoint _ = .ok (.admin (.listDlq {})) from rfl)).2
    fun h => by cases h.1

end Hookbox
