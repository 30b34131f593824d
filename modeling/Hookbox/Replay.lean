/-
# Replay

The four ways in which an operator asks for another attempt: `replay_receipt` and
`replay_delivery` of the admin API (`hookbox-server/src/routes/admin.rs`), `hookbox replay id`
(`hookbox-cli/src/commands/replay.rs`) and `hookbox dlq retry` (`commands/dlq.rs`).  They were
written separately and compute their targets differently: from the names the server runs with,
from the names in the receipt's history, or from the row that is retried.

Each of them reads, decides and inserts.  Other parties move between its statements, so a
`Session` gives every statement a database of its own, and lets any of them fail.  A `Journal`
counts the statements that were issued and keeps what they committed.

* `ReplayPath.run_spec`: whatever the session, a path commits nothing and reports a failure, or
  commits one `Database.Replayed` and reports success.
-/
import Hookbox.Startup

namespace Hookbox

/-! ## 1. Statements in a session -/

/-- What the environment decides for one path: the database that the `k`-th statement finds, the
statements that the driver fails, the rows `ORDER BY` leaves in no particular order, the ids that
`gen_random_uuid()` draws, and the clock of the insert. -/
structure Session where
  db : Nat → Database
  failure : Nat → Option String
  scan : Database → ReceiptId → List WebhookDelivery
  scan_spec : ∀ (db : Database) (id : ReceiptId), db.DeliveriesForReceipt id (scan db id)
  draw : Nat → DeliveryId
  now : Timestamp

/-- The statements a path has issued, and what they committed: the database before and after. -/
structure Journal where
  issued : Nat := 0
  committed : List (Database × Database) := []

/-- `StorageError::to_string`. -/
def StorageError.toString : StorageError → String
  | .internal msg => "storage error: " ++ msg
  | .serialization msg => "serialization error: " ++ msg
  | .fanOutNotImplemented =>
    "fan-out not implemented by this Storage backend; override store_with_deliveries to " ++
      "transactionally insert delivery rows"

/-- A constraint refused a row. -/
def constraintViolation : StorageError := .internal "insert or update violates constraint"

namespace Session

variable (session : Session)

/-- One statement that changes nothing. -/
def statement {α : Type} (f : Database → Except StorageError α) (j : Journal) :
    Except StorageError α × Journal :=
  ((match session.failure j.issued with
    | some msg => .error (.internal msg)
    | none => f (session.db j.issued)), { j with issued := j.issued + 1 })

/-- One statement that commits, or fails without effect. -/
def commit (f : Database → Option Database) (j : Journal) : Except StorageError Unit × Journal :=
  match session.failure j.issued, f (session.db j.issued) with
  | some msg, _ => (.error (.internal msg), { j with issued := j.issued + 1 })
  | none, none => (.error constraintViolation, { j with issued := j.issued + 1 })
  | none, some db' => (.ok (), ⟨j.issued + 1, j.committed ++ [(session.db j.issued, db')]⟩)

/-- `Storage::get`. -/
def get (id : ReceiptId) : Journal → Except StorageError (Option WebhookReceipt) × Journal :=
  session.statement fun db => db.get id

/-- `DeliveryStorage::get_deliveries_for_receipt`. -/
def getDeliveriesForReceipt (id : ReceiptId) :
    Journal → Except StorageError (List WebhookDelivery) × Journal :=
  session.statement fun db => .ok (session.scan db id)

/-- `DeliveryStorage::get_delivery`. -/
def getDelivery (id : DeliveryId) (j : Journal) :
    Except StorageError (Option (WebhookDelivery × WebhookReceipt)) × Journal :=
  match session.statement (fun db => .ok (db.deliveries.get? id)) j with
  | (.error e, j) => (.error e, j)
  | (.ok none, j) => (.ok none, j)
  | (.ok (some delivery), j) =>
    match session.get delivery.receiptId j with
    | (.error e, j) => (.error e, j)
    | (.ok none, j) => (.error (.internal "delivery references missing receipt"), j)
    | (.ok (some receipt), j) => (.ok (some (delivery, receipt)), j)

/-- `DeliveryStorage::insert_replay`. -/
def insertReplay (receiptId : ReceiptId) (emitterName : String) (j : Journal) :
    Except StorageError DeliveryId × Journal :=
  match session.commit
      (fun db => db.insertReplay receiptId emitterName (session.draw 0) session.now) j with
  | (.error e, j) => (.error e, j)
  | (.ok (), j) => (.ok (session.draw 0), j)

/-- The loop of `insert_replays`.  Its rows are visible to the transaction only: an `INSERT` here
is accepted or refused, and takes effect at the commit. -/
def insertEach (receiptId : ReceiptId) : List String → (Nat → DeliveryId) → Journal →
    Except StorageError (List DeliveryId) × Journal
  | [], _, j => (.ok [], j)
  | name :: names, draw, j =>
    let row := Database.newDelivery (draw 0) receiptId name session.now
    match session.statement
        (fun db => if (db.insertDelivery row).isSome then .ok () else .error constraintViolation)
        j with
    | (.error e, j) => (.error e, j)
    | (.ok (), j) =>
      match insertEach receiptId names (fun i => draw (i + 1)) j with
      | (.error e, j) => (.error e, j)
      | (.ok ids, j) => (.ok (draw 0 :: ids), j)

/-- `DeliveryStorage::insert_replays`: `BEGIN`, the loop, `COMMIT`. -/
def insertReplays (receiptId : ReceiptId) (emitterNames : List String) (j : Journal) :
    Except StorageError (List DeliveryId) × Journal :=
  match session.statement (fun _ => .ok ()) j with
  | (.error e, j) => (.error e, j)
  | (.ok (), j) =>
    match session.insertEach receiptId emitterNames session.draw j with
    | (.error e, j) => (.error e, j)
    | (.ok ids, j) =>
      match session.commit
          (fun db => db.insertReplays receiptId emitterNames session.draw session.now) j with
      | (.error e, j) => (.error e, j)
      | (.ok (), j) => (.ok ids, j)

end Session

/-! ## 2. The admin API -/

inductive StatusCode where
  | accepted
  | badRequest
  | unauthorized
  | notFound
  | internalServerError
deriving DecidableEq

structure Response where
  status : StatusCode
  body : Json

/-- `Json(json!({"error": ..}))`. -/
def Response.error (status : StatusCode) (message : String) : Response :=
  ⟨status, .obj [("error", .str message)]⟩

/-- The response to a storage error. -/
def Response.storageError (e : StorageError) : Response :=
  .error .internalServerError e.toString

/-- The two fields of `AppState` that the replay handlers use. -/
structure AppState where
  pipeline : Pipeline
  adminToken : Option String

/-- `check_auth`. -/
def checkAuth (state : AppState) (headers : HeaderMap) : Except Response Unit :=
  match state.adminToken with
  | none => .ok ()
  | some expected =>
    match headers.get "authorization" with
    | none => .error (.error .unauthorized "missing authorization header")
    | some auth =>
      match toStr auth with
      | none => .error (.error .unauthorized "invalid authorization header")
      | some authStr =>
        if authStr ≠ asBytes ("Bearer " ++ expected) then
          .error (.error .unauthorized "invalid token")
        else .ok ()

/-- The response to a replay for an emitter that the server does not run. -/
def Response.notConfigured (emitterName : String) (receiptId : ReceiptId) : Response :=
  ⟨.badRequest, .obj
    [("error", .str ("emitter '" ++ emitterName ++ "' is not currently configured")),
      ("hint", .str ("use POST /api/receipts/" ++ Uuid.toString receiptId.uuid ++
        "/replay?emitter=<configured-name>"))]⟩

/-- The `emitter_names` of `replay_receipt`. -/
def replayTargets (state : AppState) (id : ReceiptId) : Option String → Except Response (List String)
  | some name =>
    if name ∉ state.pipeline.emitterNames then .error (.notConfigured name id) else .ok [name]
  | none => .ok state.pipeline.emitterNames

section Handlers

variable (session : Session) (state : AppState) (headers : HeaderMap)

/-- `replay_receipt`. -/
def replayReceipt (id : ReceiptId) (emitter : Option String) (j : Journal) : Response × Journal :=
  match checkAuth state headers with
  | .error resp => (resp, j)
  | .ok () =>
    match session.get id j with
    | (.error e, j) => (.storageError e, j)
    | (.ok none, j) => (.error .notFound "receipt not found", j)
    | (.ok (some receipt), j) =>
      match replayTargets state id emitter with
      | .error resp => (resp, j)
      | .ok emitterNames =>
        match session.insertReplays receipt.receiptId emitterNames j with
        | (.error e, j) => (.storageError e, j)
        | (.ok ids, j) =>
          (⟨.accepted, .obj [("delivery_ids", .arr (ids.map fun d => .str d.uuid.toString))]⟩, j)

/-- `replay_delivery`. -/
def replayDelivery (id : DeliveryId) (j : Journal) : Response × Journal :=
  match checkAuth state headers with
  | .error resp => (resp, j)
  | .ok () =>
    match session.getDelivery id j with
    | (.error e, j) => (.storageError e, j)
    | (.ok none, j) => (.error .notFound "delivery not found", j)
    | (.ok (some (delivery, _)), j) =>
      if delivery.emitterName ∉ state.pipeline.emitterNames then
        (.notConfigured delivery.emitterName delivery.receiptId, j)
      else
        match session.insertReplay delivery.receiptId delivery.emitterName j with
        | (.error e, j) => (.storageError e, j)
        | (.ok newId, j) => (⟨.accepted, .obj [("delivery_id", .str newId.uuid.toString)]⟩, j)

end Handlers

/-! ## 3. The command line -/

/-- What a command meets outside of the database: files, the TOML parser, the error stream and
the connection.  `debug` is `{:?}` of a string. -/
structure CliEnv where
  readToString : String → Except String String
  tomlFromStr : String → Except String HookboxConfig
  writeWarning : String → Option String
  connect : Option String
  debug : String → String

/-- `parse_and_normalize`, with the text of its errors. -/
def CliEnv.parseAndNormalize (cli : CliEnv) (raw : String) :
    Except String (HookboxConfig × List String) :=
  match cli.tomlFromStr raw with
  | .error e => .error ("failed to parse TOML: " ++ e)
  | .ok config =>
    match normalize config with
    | .error violation => .error ("invalid configuration: " ++ violation.text cli.debug)
    | .ok normal => .ok normal

/-- The first lines of `run_replay_id` and of `DlqCommand::Retry`: read the configuration and
print its warnings. -/
def CliEnv.loadConfig (cli : CliEnv) (path : String) : Except AnyhowError HookboxConfig :=
  match cli.readToString path with
  | .error e => .error ["failed to read config file: " ++ path, e]
  | .ok raw =>
    match cli.parseAndNormalize raw with
    | .error e => .error ["failed to parse config: " ++ path, e]
    | .ok (parsed, warnings) =>
      match warnings.findSome? cli.writeWarning with
      | some e => .error ["failed to write warning", e]
      | none => .ok parsed

/-- The names of the emitters of a configuration. -/
def HookboxConfig.emitterNames (config : HookboxConfig) : List String :=
  config.emitters.map (·.name)

/-- `{:?}` of a `BTreeSet<String>`. -/
def CliEnv.debugSet (cli : CliEnv) (names : Std.ExtTreeSet String) : String :=
  "\x7b" ++ ", ".intercalate (names.toList.map cli.debug) ++ "\x7d"

/-- `{:?}` of a `Vec<String>`. -/
def CliEnv.debugVec (cli : CliEnv) (names : List String) : String :=
  "[" ++ ", ".intercalate (names.map cli.debug) ++ "]"

/-- `{:?}` of a `DeliveryState`. -/
def DeliveryState.debug : DeliveryState → String
  | .pending => "Pending"
  | .inFlight => "InFlight"
  | .emitted => "Emitted"
  | .failed => "Failed"
  | .deadLettered => "DeadLettered"

section Commands

variable (session : Session) (cli : CliEnv) (config : String)

/-- `run_replay_id`, after the configuration is loaded and the connection is there. -/
def replayId (parsed : HookboxConfig) (receiptId : ReceiptId) (emitter : Option String)
    (j : Journal) : Except AnyhowError Unit × Journal :=
  let configured := Std.ExtTreeSet.ofList parsed.emitterNames
  let receipt := Uuid.toString receiptId.uuid
  match emitter with
  | some name =>
    if name ∉ configured then
      (.error ["refusing to replay receipt " ++ receipt ++ ": emitter " ++ cli.debug name ++
        " is not present in " ++ config ++ "; configured emitters: " ++
        cli.debugSet configured], j)
    else
      match session.insertReplay receiptId name j with
      | (.error e, j) =>
        (.error ["insert_replay failed for receipt " ++ receipt ++ " emitter " ++ name,
          e.toString], j)
      | (.ok _, j) => (.ok (), j)
  | none =>
    match session.getDeliveriesForReceipt receiptId j with
    | (.error e, j) =>
      (.error ["get_deliveries_for_receipt failed for " ++ receipt, e.toString], j)
    | (.ok deliveries, j) =>
      if deliveries.isEmpty then
        (.error ["receipt " ++ receipt ++ " has no existing deliveries — cannot infer emitter " ++
          "set; pass --emitter explicitly"], j)
      else
        let historical := Std.ExtTreeSet.ofList (deliveries.map (·.emitterName))
        let stale := historical.toList.filter (· ∉ configured)
        if stale ≠ [] then
          (.error ["refusing to replay receipt " ++ receipt ++ ": historical emitters " ++
            cli.debugVec stale ++ " are no longer present in " ++ config ++
            "; configured emitters: " ++ cli.debugSet configured], j)
        else
          match session.insertReplays receiptId historical.toList j with
          | (.error e, j) =>
            (.error ["insert_replays failed for receipt " ++ receipt, e.toString], j)
          | (.ok _, j) => (.ok (), j)

/-- `run_replay_id`. -/
def runReplayId (receiptId : ReceiptId) (emitter : Option String) (j : Journal) :
    Except AnyhowError Unit × Journal :=
  match cli.loadConfig config with
  | .error e => (.error e, j)
  | .ok parsed =>
    match cli.connect with
    | some e => (.error ["failed to connect to database", e], j)
    | none => replayId session cli config parsed receiptId emitter j

/-- `DlqCommand::Retry`, after the configuration is loaded and the connection is there. -/
def retryDelivery (parsed : HookboxConfig) (deliveryId : DeliveryId) (j : Journal) :
    Except AnyhowError Unit × Journal :=
  let target := Uuid.toString deliveryId.uuid
  match session.getDelivery deliveryId j with
  | (.error e, j) => (.error ["failed to fetch delivery", e.toString], j)
  | (.ok none, j) => (.error ["delivery " ++ target ++ " not found"], j)
  | (.ok (some (delivery, receipt)), j) =>
    if delivery.state ≠ .deadLettered then
      (.error ["refusing to replay delivery " ++ target ++ ": state is " ++
        delivery.state.debug ++ ", expected DeadLettered. Use `hookbox replay id` for non-DLQ " ++
        "receipts."], j)
    else if delivery.emitterName ∉ parsed.emitterNames then
      (.error ["refusing to replay delivery " ++ target ++ ": emitter " ++
        cli.debug delivery.emitterName ++ " is no longer present in " ++ config ++
        "; configured emitters: " ++ cli.debugVec parsed.emitterNames], j)
    else
      match session.insertReplay receipt.receiptId delivery.emitterName j with
      | (.error e, j) => (.error ["failed to insert replay delivery", e.toString], j)
      | (.ok _, j) => (.ok (), j)

/-- `DlqCommand::Retry`. -/
def dlqRetry (deliveryId : DeliveryId) (j : Journal) : Except AnyhowError Unit × Journal :=
  match cli.loadConfig config with
  | .error e => (.error e, j)
  | .ok parsed =>
    match cli.connect with
    | some e => (.error ["failed to connect to database", e], j)
    | none => retryDelivery session cli config parsed deliveryId j

end Commands

/-! ## 4. What a statement can do to the journal -/

/-- `db'` is `db` with one new attempt of a receipt for each of `names`, in this order: a fresh
pending row.  The insert is a step of the system. -/
structure Database.Inserted (db db' : Database) (receiptId : ReceiptId) (names : List String) :
    Prop where
  receipts : db'.receipts = db.receipts
  rows : ∃ new, db'.deliveries.rows = db.deliveries.rows ++ new ∧
    new.map (·.emitterName) = names ∧
    ∀ d ∈ new, d.receiptId = receiptId ∧ d.state = .pending ∧ d.immutable = false ∧
      d.attemptCount = 0
  step : ∃ a : AdminStep, ∀ (dep : Deployment) (s : Sys), s.db = db →
    (system dep).step s (.admin a) = some { s with db := db' }

/-- `db'` is `db` with the rows of one replay: there is at least one target, no name is a target
twice, and all of them are configured. -/
structure Database.Replayed (db db' : Database) (targets : ReceiptId → List String → Prop)
    (configured : List String) (receiptId : ReceiptId) (names : List String) : Prop
    extends db.Inserted db' receiptId names where
  targets : targets receiptId names
  nonempty : names ≠ []
  nodup : names.Nodup
  configured : ∀ name ∈ names, name ∈ configured

/-- Some receipt and some names are the targets of a replay that leads from `db` to `db'`. -/
def Database.IsReplay (targets : ReceiptId → List String → Prop) (configured : List String)
    (db db' : Database) : Prop :=
  ∃ receiptId names, db.Replayed db' targets configured receiptId names

/-- An admin statement is a step of the system wherever it finds its database. -/
theorem AdminStep.system_step {db db' : Database} {a : AdminStep} (h : a.run db = some db') :
    ∃ a : AdminStep, ∀ (dep : Deployment) (s : Sys), s.db = db →
      (system dep).step s (.admin a) = some { s with db := db' } := by
  refine ⟨a, ?_⟩
  rintro dep s rfl
  exact Option.map_eq_some_iff.mpr ⟨db', h, rfl⟩

section Inserted

variable {db db' : Database} {receiptId : ReceiptId}

theorem Database.inserted_of_insertReplays {names : List String} {draw : Nat → DeliveryId}
    {now : Timestamp} (h : db.insertReplays receiptId names draw now = some db') :
    db.Inserted db' receiptId names := by
  obtain ⟨hr, hd⟩ := insertDeliveries_spec h
  refine ⟨hr, ⟨_, hd, newDeliveries_names _ _ _ _, ?_⟩, ?_⟩
  · intro d hd
    obtain ⟨i, name, -, rfl⟩ := mem_newDeliveries hd
    exact ⟨rfl, rfl, rfl, rfl⟩
  · refine AdminStep.system_step (a := .insertReplays receiptId names draw now) ?_
    simp [AdminStep.run, AdminStep.op, StorageOp.step, h]

theorem Database.inserted_of_insertReplay {name : String} {id : DeliveryId} {now : Timestamp}
    (h : db.insertReplay receiptId name id now = some db') :
    db.Inserted db' receiptId [name] := by
  obtain ⟨-, -, hr, hd⟩ := insertDelivery_eq_some_iff.mp h
  refine ⟨hr, ⟨_, hd, rfl, ?_⟩, ?_⟩
  · intro d hd
    rw [List.mem_singleton.mp hd]
    exact ⟨rfl, rfl, rfl, rfl⟩
  · refine AdminStep.system_step (a := .insertReplay receiptId name id now) ?_
    simp [AdminStep.run, AdminStep.op, StorageOp.step, h]

/-- A replay with one target. -/
theorem Database.Inserted.isReplay {name : String} {targets : ReceiptId → List String → Prop}
    {configured : List String} (h : db.Inserted db' receiptId [name])
    (htargets : targets receiptId [name]) (hname : name ∈ configured) :
    Database.IsReplay targets configured db db' :=
  ⟨receiptId, [name], h, htargets, by simp, List.nodup_singleton _, by simpa using hname⟩

end Inserted

namespace Session

/-- No statement issued so far was failed by the driver. -/
def Clean (session : Session) (j : Journal) : Prop := ∀ k < j.issued, session.failure k = none

/-- Between the two journals statements succeeded, and changed nothing. -/
structure Reads (session : Session) (j j' : Journal) : Prop where
  committed : j'.committed = j.committed
  clean : session.Clean j → session.Clean j'

/-- Between the two journals statements succeeded, and one of them committed. -/
structure Writes (session : Session) (P : Database → Database → Prop) (j j' : Journal) :
    Prop where
  clean : session.Clean j → session.Clean j'
  committed : ∃ k db', j'.committed = j.committed ++ [(session.db k, db')] ∧ P (session.db k) db'

section Specs

variable {session : Session} {j j' j'' : Journal} {e : StorageError}

theorem Reads.trans (h : session.Reads j j') (h' : session.Reads j' j'') : session.Reads j j'' :=
  ⟨h'.committed.trans h.committed, fun hj => h'.clean (h.clean hj)⟩

theorem Writes.imp {P Q : Database → Database → Prop} (h : session.Writes P j j')
    (hPQ : ∀ {db db' : Database}, P db db' → Q db db') : session.Writes Q j j' := by
  obtain ⟨k, db', hcommitted, hP⟩ := h.committed
  exact ⟨h.clean, k, db', hcommitted, hPQ hP⟩

theorem Reads.writes {P : Database → Database → Prop} (h : session.Reads j j')
    (h' : session.Writes P j' j'') : session.Writes P j j'' := by
  obtain ⟨k, db', hcommitted, hP⟩ := h'.committed
  exact ⟨fun hj => h'.clean (h.clean hj), k, db', by rw [hcommitted, h.committed], hP⟩

/-- One more statement, and it did not fail. -/
theorem Clean.succ (h : session.Clean j) (hnone : session.failure j.issued = none)
    (hissued : j'.issued = j.issued + 1) : session.Clean j' := by
  intro k hk
  rw [hissued] at hk
  rcases Nat.lt_succ_iff_lt_or_eq.mp hk with hk | rfl
  · exact h k hk
  · exact hnone

theorem statement_ok {α : Type} {f : Database → Except StorageError α} {a : α}
    (h : session.statement f j = (.ok a, j')) :
    session.Reads j j' ∧ f (session.db j.issued) = .ok a := by
  unfold statement at h
  split at h
  · exact absurd h (by simp)
  · rename_i hnone
    rw [Prod.mk.injEq] at h
    obtain ⟨hf, rfl⟩ := h
    exact ⟨⟨rfl, fun hj => hj.succ hnone rfl⟩, hf⟩

theorem statement_error {α : Type} {f : Database → Except StorageError α}
    (h : session.statement f j = (.error e, j')) : j'.committed = j.committed := by
  unfold statement at h
  rw [Prod.mk.injEq] at h
  obtain ⟨-, rfl⟩ := h
  rfl

theorem commit_ok {f : Database → Option Database} {P : Database → Database → Prop}
    (hP : ∀ {db db' : Database}, f db = some db' → P db db')
    (h : session.commit f j = (.ok (), j')) : session.Writes P j j' := by
  unfold commit at h
  split at h
  · exact absurd h (by simp)
  · exact absurd h (by simp)
  · rename_i db' hnone hf
    rw [Prod.mk.injEq] at h
    obtain ⟨-, rfl⟩ := h
    exact ⟨fun hj => hj.succ hnone rfl, _, db', rfl, hP hf⟩

theorem commit_error {f : Database → Option Database}
    (h : session.commit f j = (.error e, j')) : j'.committed = j.committed := by
  unfold commit at h
  split at h
  · rw [Prod.mk.injEq] at h
    obtain ⟨-, rfl⟩ := h
    rfl
  · rw [Prod.mk.injEq] at h
    obtain ⟨-, rfl⟩ := h
    rfl
  · exact absurd h (by simp)

theorem get_ok {id : ReceiptId} {r : Option WebhookReceipt}
    (h : session.get id j = (.ok r, j')) :
    session.Reads j j' ∧ ∀ receipt, r = some receipt → receipt.receiptId = id := by
  obtain ⟨hreads, hget⟩ := statement_ok h
  refine ⟨hreads, ?_⟩
  rintro receipt rfl
  obtain ⟨row, hrow, hreceipt⟩ := Database.get_eq_ok_some_iff.mp hget
  rw [(receiptFromRow_ok hreceipt).1]
  exact Table.key_of_get? hrow

theorem getDelivery_ok {id : DeliveryId} {r : Option (WebhookDelivery × WebhookReceipt)}
    (h : session.getDelivery id j = (.ok r, j')) :
    session.Reads j j' ∧ ∀ d receipt, r = some (d, receipt) →
      (session.db j.issued).deliveries.get? id = some d ∧ receipt.receiptId = d.receiptId := by
  unfold getDelivery at h
  split at h
  · exact absurd h (by simp)
  · rename_i hrow
    cases h
    exact ⟨(statement_ok hrow).1, by simp⟩
  · rename_i d j₁ hrow
    obtain ⟨hreads, hget⟩ := statement_ok hrow
    split at h
    · exact absurd h (by simp)
    · exact absurd h (by simp)
    · rename_i receipt j₂ hreceipt
      cases h
      obtain ⟨hreads', hid⟩ := get_ok hreceipt
      refine ⟨hreads.trans hreads', ?_⟩
      intro d' receipt' hsome
      cases hsome
      exact ⟨Except.ok.inj hget, hid receipt rfl⟩

theorem getDelivery_error {id : DeliveryId} (h : session.getDelivery id j = (.error e, j')) :
    j'.committed = j.committed := by
  unfold getDelivery at h
  split at h
  · rename_i hrow
    cases h
    exact statement_error hrow
  · exact absurd h (by simp)
  · rename_i d j₁ hrow
    have hfirst := (statement_ok hrow).1.committed
    split at h
    · rename_i hreceipt
      cases h
      exact (statement_error hreceipt).trans hfirst
    · rename_i hreceipt
      cases h
      exact (get_ok hreceipt).1.committed.trans hfirst
    · exact absurd h (by simp)

theorem insertReplay_ok {receiptId : ReceiptId} {name : String} {id : DeliveryId}
    (h : session.insertReplay receiptId name j = (.ok id, j')) :
    session.Writes (Database.Inserted · · receiptId [name]) j j' := by
  unfold insertReplay at h
  split at h
  · exact absurd h (by simp)
  · rename_i hcommit
    cases h
    exact commit_ok Database.inserted_of_insertReplay hcommit

theorem insertReplay_error {receiptId : ReceiptId} {name : String}
    (h : session.insertReplay receiptId name j = (.error e, j')) :
    j'.committed = j.committed := by
  unfold insertReplay at h
  split at h
  · rename_i hcommit
    cases h
    exact commit_error hcommit
  · exact absurd h (by simp)

/-- The loop commits nothing, whether it ends or not. -/
theorem insertEach_spec {receiptId : ReceiptId} {names : List String} :
    ∀ {draw : Nat → DeliveryId} {j j' : Journal} {r : Except StorageError (List DeliveryId)},
      session.insertEach receiptId names draw j = (r, j') →
      j'.committed = j.committed ∧ ∀ ids, r = .ok ids → session.Clean j → session.Clean j' := by
  induction names with
  | nil =>
    intro draw j j' r h
    cases h
    exact ⟨rfl, fun _ _ hj => hj⟩
  | cons name names ih =>
    intro draw j j' r h
    rw [insertEach] at h
    split at h
    · rename_i hrow
      cases h
      exact ⟨statement_error hrow, by simp⟩
    · rename_i j₁ hrow
      obtain ⟨hreads, -⟩ := statement_ok hrow
      split at h
      · rename_i hrest
        cases h
        exact ⟨(ih hrest).1.trans hreads.committed, by simp⟩
      · rename_i ids j₂ hrest
        cases h
        obtain ⟨hkept, hclean⟩ := ih hrest
        exact ⟨hkept.trans hreads.committed, fun _ _ hj => hclean ids rfl (hreads.clean hj)⟩

theorem insertReplays_ok {receiptId : ReceiptId} {names : List String} {ids : List DeliveryId}
    (h : session.insertReplays receiptId names j = (.ok ids, j')) :
    session.Writes (Database.Inserted · · receiptId names) j j' := by
  unfold insertReplays at h
  split at h
  · exact absurd h (by simp)
  · rename_i j₁ hbegin
    split at h
    · exact absurd h (by simp)
    · rename_i ids' j₂ heach
      split at h
      · exact absurd h (by simp)
      · rename_i hcommit
        cases h
        obtain ⟨hkept, hclean⟩ := insertEach_spec heach
        refine ((statement_ok hbegin).1.trans ⟨hkept, hclean _ rfl⟩).writes ?_
        exact commit_ok Database.inserted_of_insertReplays hcommit

/-- **A transaction that fails anywhere has committed nothing.** -/
theorem insertReplays_error {receiptId : ReceiptId} {names : List String}
    (h : session.insertReplays receiptId names j = (.error e, j')) :
    j'.committed = j.committed := by
  unfold insertReplays at h
  split at h
  · rename_i hbegin
    cases h
    exact statement_error hbegin
  · rename_i j₁ hbegin
    have hfirst := (statement_ok hbegin).1.committed
    split at h
    · rename_i heach
      cases h
      exact (insertEach_spec heach).1.trans hfirst
    · rename_i ids j₂ heach
      have hloop := (insertEach_spec heach).1.trans hfirst
      split at h
      · rename_i hcommit
        cases h
        exact (commit_error hcommit).trans hloop
      · exact absurd h (by simp)

end Specs

end Session

/-! ## 5. What a path can do -/

/-- The two ways in which a path ends: it reports a failure and has committed nothing, or it
reports success, no statement failed, and one of them committed. -/
inductive Session.Ends (session : Session) (P : Database → Database → Prop) (succeeded : Prop)
    (j j' : Journal) : Prop where
  | refused (hrefused : ¬ succeeded) (hkept : j'.committed = j.committed) : Ends session P succeeded j j'
  | replayed (hdone : succeeded) (hwrites : session.Writes P j j') : Ends session P succeeded j j'

/-- A response other than `202 Accepted` is a refusal. -/
def Response.Succeeded (r : Response) : Prop := r.status = .accepted

theorem checkAuth_error {state : AppState} {headers : HeaderMap} {resp : Response}
    (h : checkAuth state headers = .error resp) : ¬ resp.Succeeded := by
  unfold checkAuth at h
  repeat' split at h
  all_goals cases h
  all_goals simp [Response.Succeeded, Response.error]

theorem replayTargets_error {state : AppState} {id : ReceiptId} {emitter : Option String}
    {resp : Response} (h : replayTargets state id emitter = .error resp) : ¬ resp.Succeeded := by
  unfold replayTargets at h
  repeat' split at h
  all_goals cases h
  all_goals simp [Response.Succeeded, Response.notConfigured]

/-- What the operator asked of `replay_receipt`. -/
def AskedReceipt (id : ReceiptId) (emitter : Option String) (receiptId : ReceiptId)
    (name : String) : Prop :=
  receiptId = id ∧ ∀ e, emitter = some e → name = e

/-- What the operator asked by naming a delivery row of `db`. -/
def AskedDelivery (db : Database) (id : DeliveryId) (receiptId : ReceiptId) (name : String) :
    Prop :=
  ∃ d ∈ db.deliveries.rows, d.deliveryId = id ∧ d.receiptId = receiptId ∧ d.emitterName = name

/-- What the operator asked of `hookbox replay id`: one emitter, or those of the rows in `db`. -/
def AskedId (db : Database) (id : ReceiptId) (emitter : Option String) (receiptId : ReceiptId)
    (name : String) : Prop :=
  receiptId = id ∧ match emitter with
    | some e => name = e
    | none => ∃ d ∈ db.deliveries.rows, d.receiptId = id ∧ d.emitterName = name

/-- The names of the rows of a receipt, in the order of a `BTreeSet`. -/
def Database.historicalNames (db : Database) (receiptId : ReceiptId) : List String :=
  (Std.ExtTreeSet.ofList ((db.deliveries.rows.filter fun d => d.receiptId = receiptId).map
    (·.emitterName))).toList

/-- The targets of `replay_receipt`: the emitter that was named, or all that the server runs. -/
def TargetsOfReceipt (configured : List String) (id : ReceiptId) (emitter : Option String)
    (receiptId : ReceiptId) (names : List String) : Prop :=
  receiptId = id ∧ names = match emitter with
    | some name => [name]
    | none => configured

/-- The target of the replay of a delivery row of `db`: its own receipt and emitter. -/
def TargetsOfDelivery (db : Database) (id : DeliveryId) (receiptId : ReceiptId)
    (names : List String) : Prop :=
  ∃ d, db.deliveries.get? id = some d ∧ receiptId = d.receiptId ∧ names = [d.emitterName]

/-- The targets of `hookbox replay id`: the emitter that was named, or those of the rows in `db`. -/
def TargetsOfId (db : Database) (id : ReceiptId) (emitter : Option String) (receiptId : ReceiptId)
    (names : List String) : Prop :=
  receiptId = id ∧ names = match emitter with
    | some name => [name]
    | none => db.historicalNames id

section Targets

variable {db : Database} {receiptId : ReceiptId} {names : List String} {name : String}

theorem Database.mem_historicalNames {id : ReceiptId} :
    name ∈ db.historicalNames id ↔
      ∃ d ∈ db.deliveries.rows, d.receiptId = id ∧ d.emitterName = name := by
  simp [historicalNames, Std.ExtTreeSet.mem_toList, Std.ExtTreeSet.mem_ofList, and_assoc]

theorem TargetsOfReceipt.asked {configured : List String} {id : ReceiptId} {emitter : Option String}
    (h : TargetsOfReceipt configured id emitter receiptId names) (hname : name ∈ names) :
    AskedReceipt id emitter receiptId name := by
  obtain ⟨rfl, rfl⟩ := h
  refine ⟨rfl, ?_⟩
  rintro e rfl
  exact List.mem_singleton.mp hname

theorem TargetsOfDelivery.asked {id : DeliveryId} (h : TargetsOfDelivery db id receiptId names)
    (hname : name ∈ names) : AskedDelivery db id receiptId name := by
  obtain ⟨d, hrow, rfl, rfl⟩ := h
  exact ⟨d, Table.mem_of_get? hrow, Table.key_of_get? hrow, rfl, (List.mem_singleton.mp hname).symm⟩

theorem TargetsOfId.asked {id : ReceiptId} {emitter : Option String}
    (h : TargetsOfId db id emitter receiptId names) (hname : name ∈ names) :
    AskedId db id emitter receiptId name := by
  obtain ⟨rfl, rfl⟩ := h
  refine ⟨rfl, ?_⟩
  cases emitter with
  | some e => exact List.mem_singleton.mp hname
  | none => exact Database.mem_historicalNames.mp hname

end Targets

theorem replayTargets_ok {state : AppState} {id : ReceiptId} {emitter : Option String}
    {names : List String} (hnd : state.pipeline.emitterNames.Nodup)
    (h : replayTargets state id emitter = .ok names) :
    TargetsOfReceipt state.pipeline.emitterNames id emitter id names ∧ names.Nodup ∧
      (∀ name ∈ names, name ∈ state.pipeline.emitterNames) ∧
      (state.pipeline.emitterNames ≠ [] → names ≠ []) := by
  unfold replayTargets at h
  split at h
  · rename_i e
    split at h
    · exact absurd h (by simp)
    · rename_i hmem
      cases h
      exact ⟨⟨rfl, rfl⟩, List.nodup_singleton _, by simpa using not_not.mp hmem, by simp⟩
  · cases h
    exact ⟨⟨rfl, rfl⟩, hnd, fun _ hname => hname, fun hne => hne⟩

section Paths

variable {session : Session} {j : Journal}

/-- **`replay_receipt`.** -/
theorem replayReceipt_ends {state : AppState} (hnd : state.pipeline.emitterNames.Nodup)
    (headers : HeaderMap) (id : ReceiptId) (emitter : Option String) :
    session.Ends (fun db db' => state.pipeline.emitterNames ≠ [] →
        Database.IsReplay (TargetsOfReceipt state.pipeline.emitterNames id emitter)
          state.pipeline.emitterNames db db')
      (replayReceipt session state headers id emitter j).1.Succeeded j
      (replayReceipt session state headers id emitter j).2 := by
  unfold replayReceipt
  split
  · rename_i hauth
    exact .refused (checkAuth_error hauth) rfl
  · split
    · rename_i hget
      exact .refused (by simp [Response.Succeeded, Response.storageError, Response.error])
        (Session.statement_error hget)
    · rename_i hget
      exact .refused (by simp [Response.Succeeded, Response.error]) (Session.get_ok hget).1.committed
    · rename_i receipt j₁ hget
      obtain ⟨hreads, hid⟩ := Session.get_ok hget
      obtain rfl := hid receipt rfl
      split
      · rename_i htargets
        exact .refused (replayTargets_error htargets) hreads.committed
      · rename_i names htargets
        obtain ⟨hasked, hnodup, hnames, hnonempty⟩ := replayTargets_ok hnd htargets
        split
        · rename_i hins
          exact .refused (by simp [Response.Succeeded, Response.storageError, Response.error])
            ((Session.insertReplays_error hins).trans hreads.committed)
        · rename_i hins
          exact .replayed rfl ((hreads.writes (Session.insertReplays_ok hins)).imp
            fun h hne => ⟨_, names, h, hasked, hnonempty hne, hnodup, hnames⟩)

/-- **`replay_delivery`.** -/
theorem replayDelivery_ends {state : AppState} (headers : HeaderMap) (id : DeliveryId) :
    session.Ends (Database.IsReplay (TargetsOfDelivery (session.db j.issued) id)
        state.pipeline.emitterNames)
      (replayDelivery session state headers id j).1.Succeeded j
      (replayDelivery session state headers id j).2 := by
  unfold replayDelivery
  split
  · rename_i hauth
    exact .refused (checkAuth_error hauth) rfl
  · split
    · rename_i hget
      exact .refused (by simp [Response.Succeeded, Response.storageError, Response.error])
        (Session.getDelivery_error hget)
    · rename_i hget
      exact .refused (by simp [Response.Succeeded, Response.error])
        (Session.getDelivery_ok hget).1.committed
    · rename_i d receipt j₁ hget
      obtain ⟨hreads, hrow⟩ := Session.getDelivery_ok hget
      obtain ⟨hrow, -⟩ := hrow d receipt rfl
      have hasked : TargetsOfDelivery (session.db j.issued) id d.receiptId [d.emitterName] :=
        ⟨d, hrow, rfl, rfl⟩
      split
      · exact .refused (by simp [Response.Succeeded, Response.notConfigured]) hreads.committed
      · rename_i hmem
        split
        · rename_i hins
          exact .refused (by simp [Response.Succeeded, Response.storageError, Response.error])
            ((Session.insertReplay_error hins).trans hreads.committed)
        · rename_i hins
          exact .replayed rfl ((hreads.writes (Session.insertReplay_ok hins)).imp
            fun h => h.isReplay hasked (not_not.mp hmem))

/-- A `BTreeSet` does not depend on the order in which the names are put in. -/
theorem ofList_eq_of_perm {names names' : List String} (h : names.Perm names') :
    Std.ExtTreeSet.ofList names = Std.ExtTreeSet.ofList names' := by
  refine Std.ExtTreeSet.ext_mem fun name => ?_
  rw [Std.ExtTreeSet.mem_ofList, Std.ExtTreeSet.mem_ofList, List.contains_iff_mem,
    List.contains_iff_mem, h.mem_iff]

/-- The names in a `BTreeSet` are those put in, each once. -/
theorem nodup_toList_ofList (names : List String) : (Std.ExtTreeSet.ofList names).toList.Nodup := by
  refine (Std.ExtTreeSet.distinct_toList).imp ?_
  rintro a b h rfl
  exact h Std.ReflCmp.compare_self

theorem mem_toList_ofList {names : List String} {name : String} :
    name ∈ (Std.ExtTreeSet.ofList names).toList ↔ name ∈ names := by
  rw [Std.ExtTreeSet.mem_toList, Std.ExtTreeSet.mem_ofList, List.contains_iff_mem]

/-- **`hookbox replay id`.** -/
theorem replayId_ends (cli : CliEnv) (config : String) (parsed : HookboxConfig)
    (receiptId : ReceiptId) (emitter : Option String) :
    session.Ends (Database.IsReplay (TargetsOfId (session.db j.issued) receiptId emitter)
        parsed.emitterNames)
      ((replayId session cli config parsed receiptId emitter j).1 = .ok ()) j
      (replayId session cli config parsed receiptId emitter j).2 := by
  cases emitter with
  | some name =>
    simp only [replayId]
    split
    · exact .refused (by simp) rfl
    · rename_i hmem
      have hname : name ∈ parsed.emitterNames := by
        simpa [Std.ExtTreeSet.mem_ofList] using hmem
      split
      · rename_i hins
        exact .refused (by simp) (Session.insertReplay_error hins)
      · rename_i hins
        exact .replayed rfl
          ((Session.insertReplay_ok hins).imp fun h => h.isReplay ⟨rfl, rfl⟩ hname)
  | none =>
    simp only [replayId]
    split
    · rename_i hget
      exact .refused (by simp) (Session.statement_error hget)
    · rename_i deliveries j₁ hget
      obtain ⟨hreads, hscan⟩ := Session.statement_ok hget
      have hscan := Except.ok.inj hscan
      split
      · exact .refused (by simp) hreads.committed
      · rename_i hrows
        split
        · exact .refused (by simp) hreads.committed
        · rename_i hstale
          split
          · rename_i hins
            exact .refused (by simp) ((Session.insertReplays_error hins).trans hreads.committed)
          · rename_i hins
            refine .replayed rfl ((hreads.writes (Session.insertReplays_ok hins)).imp
              fun h => ⟨_, _, h, ⟨rfl, ?_⟩, ?_, nodup_toList_ofList _, fun name hname => ?_⟩)
            · rw [← hscan]
              exact congrArg _ (ofList_eq_of_perm ((session.scan_spec _ _).1.map _))
            · obtain ⟨d, ds, rfl⟩ := List.exists_cons_of_ne_nil (mt List.isEmpty_iff.mpr hrows)
              exact List.ne_nil_of_mem (mem_toList_ofList.mpr List.mem_cons_self)
            · have hall := List.filter_eq_nil_iff.mp (not_not.mp hstale) name hname
              simpa [Std.ExtTreeSet.mem_ofList] using hall

/-- **`hookbox dlq retry`.** -/
theorem retryDelivery_ends (cli : CliEnv) (config : String) (parsed : HookboxConfig)
    (id : DeliveryId) :
    session.Ends (Database.IsReplay (TargetsOfDelivery (session.db j.issued) id)
        parsed.emitterNames)
      ((retryDelivery session cli config parsed id j).1 = .ok ()) j
      (retryDelivery session cli config parsed id j).2 := by
  unfold retryDelivery
  split
  · rename_i hget
    exact .refused (by simp) (Session.getDelivery_error hget)
  · rename_i hget
    exact .refused (by simp) (Session.getDelivery_ok hget).1.committed
  · rename_i d receipt j₁ hget
    obtain ⟨hreads, hrow⟩ := Session.getDelivery_ok hget
    obtain ⟨hrow, hreceipt⟩ := hrow d receipt rfl
    have hasked : TargetsOfDelivery (session.db j.issued) id receipt.receiptId [d.emitterName] :=
      ⟨d, hrow, hreceipt, rfl⟩
    split
    · exact .refused (by simp) hreads.committed
    · split
      · exact .refused (by simp) hreads.committed
      · rename_i hmem
        split
        · rename_i hins
          exact .refused (by simp) ((Session.insertReplay_error hins).trans hreads.committed)
        · rename_i hins
          exact .replayed rfl ((hreads.writes (Session.insertReplay_ok hins)).imp
            fun h => h.isReplay hasked (not_not.mp hmem))

end Paths

/-! ## 6. All four -/

/-- A replay, with the arguments of its path.  The two commands name a configuration file. -/
inductive ReplayPath where
  | replayReceipt (headers : HeaderMap) (id : ReceiptId) (emitter : Option String)
  | replayDelivery (headers : HeaderMap) (id : DeliveryId)
  | replayId (config : String) (receiptId : ReceiptId) (emitter : Option String)
  | dlqRetry (config : String) (deliveryId : DeliveryId)

/-- What the operator gets to see. -/
inductive ReplayAnswer where
  | http (response : Response)
  | cli (result : Except AnyhowError Unit)

def ReplayAnswer.Succeeded : ReplayAnswer → Prop
  | http response => response.Succeeded
  | cli result => result = .ok ()

namespace ReplayPath

/-- The answer of a path, and the journal of its statements. -/
def run (session : Session) (state : AppState) (cli : CliEnv) : ReplayPath → ReplayAnswer × Journal
  | replayReceipt headers id emitter =>
    let out := Hookbox.replayReceipt session state headers id emitter {}
    (.http out.1, out.2)
  | replayDelivery headers id =>
    let out := Hookbox.replayDelivery session state headers id {}
    (.http out.1, out.2)
  | replayId config receiptId emitter =>
    let out := runReplayId session cli config receiptId emitter {}
    (.cli out.1, out.2)
  | dlqRetry config deliveryId =>
    let out := Hookbox.dlqRetry session cli config deliveryId {}
    (.cli out.1, out.2)

/-- The receipt and the emitters that were asked for. -/
def Asked (session : Session) : ReplayPath → ReceiptId → String → Prop
  | replayReceipt _ id emitter => AskedReceipt id emitter
  | replayDelivery _ id => AskedDelivery (session.db 0) id
  | replayId _ receiptId emitter => AskedId (session.db 0) receiptId emitter
  | dlqRetry _ deliveryId => AskedDelivery (session.db 0) deliveryId

/-- The receipt and the list of emitters that a path is to insert attempts for. -/
def Targets (session : Session) (configured : List String) :
    ReplayPath → ReceiptId → List String → Prop
  | replayReceipt _ id emitter => TargetsOfReceipt configured id emitter
  | replayDelivery _ id => TargetsOfDelivery (session.db 0) id
  | replayId _ receiptId emitter => TargetsOfId (session.db 0) receiptId emitter
  | dlqRetry _ deliveryId => TargetsOfDelivery (session.db 0) deliveryId

/-- A target was asked for. -/
theorem Targets.asked {session : Session} {configured names : List String} {path : ReplayPath}
    {receiptId : ReceiptId} {name : String} (h : path.Targets session configured receiptId names)
    (hname : name ∈ names) : path.Asked session receiptId name := by
  cases path with
  | replayReceipt headers id emitter => exact TargetsOfReceipt.asked h hname
  | replayDelivery headers id => exact TargetsOfDelivery.asked h hname
  | replayId config id emitter => exact TargetsOfId.asked h hname
  | dlqRetry config id => exact TargetsOfDelivery.asked h hname

/-- The configuration that a path consults: the server's own, or the file as the command reads
it. -/
def Consulted (cfg : HookboxConfig) (cli : CliEnv) : ReplayPath → HookboxConfig → Prop
  | replayReceipt _ _ _, consulted => consulted = cfg
  | replayDelivery _ _, consulted => consulted = cfg
  | replayId config _ _, consulted => cli.loadConfig config = .ok consulted
  | dlqRetry config _, consulted => cli.loadConfig config = .ok consulted

/-- What a path comes to. -/
def Ends (path : ReplayPath) (session : Session) (cfg : HookboxConfig) (cli : CliEnv)
    (out : ReplayAnswer × Journal) : Prop :=
  session.Ends
    (fun db db' => ∃ consulted, path.Consulted cfg cli consulted ∧
      Database.IsReplay (path.Targets session consulted.emitterNames) consulted.emitterNames db db')
    out.1.Succeeded {} out.2

end ReplayPath

theorem Session.Ends.imp {session : Session} {P Q : Database → Database → Prop}
    {succeeded : Prop} {j j' : Journal} (h : session.Ends P succeeded j j')
    (hPQ : ∀ {db db' : Database}, P db db' → Q db db') : session.Ends Q succeeded j j' := by
  cases h with
  | refused hrefused hkept => exact .refused hrefused hkept
  | replayed hdone hwrites => exact .replayed hdone (hwrites.imp hPQ)

/-- **Every path ends in one of the two ways.** -/
theorem ReplayPath.run_spec (state : AppState) {cfg : HookboxConfig}
    (hnames : state.pipeline.emitterNames = cfg.emitterNames) (hne : cfg.emitterNames ≠ [])
    (hnd : cfg.emitterNames.Nodup) (session : Session) (cli : CliEnv) (path : ReplayPath) :
    path.Ends session cfg cli (path.run session state cli) := by
  cases path with
  | replayReceipt headers id emitter =>
    refine (replayReceipt_ends (hnames ▸ hnd) headers id emitter).imp fun h => ⟨cfg, rfl, ?_⟩
    rw [hnames] at h
    exact h hne
  | replayDelivery headers id =>
    refine (replayDelivery_ends headers id).imp fun h => ⟨cfg, rfl, ?_⟩
    rwa [hnames] at h
  | replayId config receiptId emitter =>
    simp only [Ends, run, runReplayId]
    split
    · exact .refused (by simp [ReplayAnswer.Succeeded]) rfl
    · rename_i parsed hload
      split
      · exact .refused (by simp [ReplayAnswer.Succeeded]) rfl
      · exact (replayId_ends cli config parsed receiptId emitter).imp fun h => ⟨parsed, hload, h⟩
  | dlqRetry config deliveryId =>
    simp only [Ends, run, Hookbox.dlqRetry]
    split
    · exact .refused (by simp [ReplayAnswer.Succeeded]) rfl
    · rename_i parsed hload
      split
      · exact .refused (by simp [ReplayAnswer.Succeeded]) rfl
      · exact (retryDelivery_ends cli config parsed deliveryId).imp fun h => ⟨parsed, hload, h⟩

/-- So it is on a server that was started from a normalised configuration. -/
theorem ReplayPath.run_started {crypto : Crypto} {config cfg : HookboxConfig}
    {warnings : List String} (hnormal : normalize config = .ok (cfg, warnings)) {pipeline : Pipeline}
    (hstart : startup crypto cfg = .ok pipeline) (cli : CliEnv) (session : Session)
    (path : ReplayPath) :
    path.Ends session cfg cli (path.run session ⟨pipeline, cfg.admin.bearerToken⟩ cli) := by
  have hnames : pipeline.emitterNames = cfg.emitterNames := by
    obtain ⟨_, -, hpipeline⟩ := Except.bind_eq_ok.mp hstart
    obtain ⟨vs, -, rfl⟩ := buildPipeline_spec hpipeline
    rfl
  have hnormalOf := normalize_spec hnormal
  exact path.run_spec ⟨pipeline, cfg.admin.bearerToken⟩ hnames
    (mt List.map_eq_nil_iff.mp hnormalOf.nonempty) hnormalOf.nodup session cli

/-- **A replay is safe on every path.**  On a server started from a normalised configuration, for
every argument, every database each statement may find and every pattern of failures: a path that
refuses or meets a failed statement commits nothing; a path that succeeds commits once, and adds to
the database it found one fresh pending row for each of its targets, which are at least one, distinct
and emitters of the configuration it consulted, with every receipt and every older row as it was. -/
theorem replay_safe {crypto : Crypto} {config cfg : HookboxConfig} {warnings : List String}
    (hnormal : normalize config = .ok (cfg, warnings)) {pipeline : Pipeline}
    (hstart : startup crypto cfg = .ok pipeline) (cli : CliEnv) (session : Session)
    (path : ReplayPath) :
    let out := path.run session ⟨pipeline, cfg.admin.bearerToken⟩ cli
    (¬ out.1.Succeeded ∧ out.2.committed = []) ∨
      (out.1.Succeeded ∧ (∀ k < out.2.issued, session.failure k = none) ∧
        ∃ k db' consulted receiptId names, out.2.committed = [(session.db k, db')] ∧
          path.Consulted cfg cli consulted ∧
          (session.db k).Replayed db' (path.Targets session consulted.emitterNames)
            consulted.emitterNames receiptId names) := by
  have hends := path.run_started hnormal hstart cli session
  cases hends with
  | refused hrefused hkept => exact Or.inl ⟨hrefused, hkept⟩
  | replayed hdone hwrites =>
    obtain ⟨k, db', hcommitted, consulted, hconsulted, receiptId, names, hreplayed⟩ :=
      hwrites.committed
    exact Or.inr ⟨hdone, hwrites.clean fun k hk => absurd hk (by simp), k, db', consulted, receiptId,
      names, hcommitted, hconsulted, hreplayed⟩

/-- The rows of a receipt as `ORDER BY created_at ASC` may return them. -/
def Database.deliveriesForReceipt (db : Database) (receiptId : ReceiptId) : List WebhookDelivery :=
  (db.deliveries.rows.filter fun d => d.receiptId = receiptId).mergeSort
    fun d d' => d.createdAt ≤ d'.createdAt

theorem sorted_mergeSort (ds : List WebhookDelivery) :
    (ds.mergeSort fun d d' => d.createdAt ≤ d'.createdAt).Pairwise
      fun d d' => d.createdAt ≤ d'.createdAt := by
  refine (List.pairwise_mergeSort ?_ ?_ ds).imp fun h => of_decide_eq_true h
  · intro a b c hab hbc
    exact decide_eq_true ((of_decide_eq_true hab).trans (of_decide_eq_true hbc))
  · intro a b
    simpa using Int.le_total a.createdAt b.createdAt

theorem Database.deliveriesForReceipt_spec (db : Database) (receiptId : ReceiptId) :
    db.DeliveriesForReceipt receiptId (db.deliveriesForReceipt receiptId) :=
  ⟨List.mergeSort_perm _ _, sorted_mergeSort _⟩

/-- A session in which the statements all find one database, and none fails. -/
def Session.quiet (db : Database) : Session where
  db _ := db
  failure _ := none
  scan := Database.deliveriesForReceipt
  scan_spec := Database.deliveriesForReceipt_spec
  draw i := ⟨BitVec.ofNat 128 (i + 1)⟩
  now := 0

/-- A command line that finds one configuration in every file. -/
def sampleCli : CliEnv where
  readToString := .ok
  tomlFromStr _ := .ok (sampleConfig 1)
  writeWarning _ := none
  connect := none
  debug s := s

/-- The database after one request was accepted. -/
def acceptedDb : Database :=
  match (system sampleDep).exec (.start sampleDep .empty) acceptOne with
  | some s => s.db
  | none => .empty

/-- The one row of a replay that has one target. -/
theorem Database.Replayed.single {db db' : Database} {targets : ReceiptId → List String → Prop}
    {configured : List String} {receiptId : ReceiptId} {name : String}
    (h : db.Replayed db' targets configured receiptId [name]) :
    ∃ d, db'.deliveries.rows = db.deliveries.rows ++ [d] ∧ d.receiptId = receiptId ∧
      d.emitterName = name ∧ d.state = .pending ∧ d.immutable = false ∧ d.attemptCount = 0 := by
  obtain ⟨new, hrows, hnames, hnew⟩ := h.rows
  obtain ⟨d, rfl, hname⟩ := List.map_eq_singleton_iff.mp hnames
  obtain ⟨hid, hfresh⟩ := hnew d List.mem_cons_self
  exact ⟨d, hrows, hid, hname, hfresh⟩

theorem replay_safe_one_receipt :
    ∃ pipeline, startup sampleLib.toCrypto (sampleConfig 1) = .ok pipeline ∧
      ∃ db', (ReplayPath.run (.quiet acceptedDb) ⟨pipeline, none⟩ sampleCli
          (.replayReceipt [] ⟨1⟩ none)).2.committed = [(acceptedDb, db')] ∧
        ∃ d, db'.deliveries.rows = acceptedDb.deliveries.rows ++ [d] ∧ d.receiptId = ⟨1⟩ ∧
          d.emitterName = "kafka" ∧ d.state = .pending ∧ d.immutable = false ∧
          d.attemptCount = 0 := by
  refine ⟨_, rfl, ?_⟩
  have hstart : startup sampleLib.toCrypto (sampleConfig 1) = .ok _ := rfl
  rcases replay_safe (sampleConfig_normal 1) hstart sampleCli (.quiet acceptedDb)
      (.replayReceipt [] ⟨1⟩ none) with
    ⟨hrefused, -⟩ | ⟨-, -, k, db', consulted, receiptId, names, hcommitted, rfl, h⟩
  · exact absurd rfl hrefused
  · obtain ⟨rfl, rfl⟩ := h.targets
    exact ⟨db', hcommitted, h.single⟩

end Hookbox
