/-
# The command line

The commands of `hookbox-cli` besides `serve` and `replay failed`: what they read, what they print
on the standard output or log, and what they commit.  The two that replay are those of `Replay`; what
they log is left out here.

* `only_replays_write`: a command commits only if it is a replay that reports success.
* `receipts_search_finds_nothing`, `receipts_list_shows_columns`: what `hookbox receipts` can say.
* `emitters_list_vouches`: what a line of zeros in the table of the emitters means.
-/
import Hookbox.Attempts
import Hookbox.Claiming
import Hookbox.Http

namespace Hookbox

/-! ## 1. What a command prints -/

/-- A text on the standard output, or an event of the log with its fields. -/
inductive CliLine where
  | out (text : String)
  | info (message : String) (fields : List (String × String))
  | warn (message : String)
deriving DecidableEq

/-- What has come of a command. -/
structure CliRun where
  lines : List CliLine
  result : Except AnyhowError Unit
  journal : Journal

/-- A command that is over before it prints. -/
def CliRun.failed (error : AnyhowError) (j : Journal) : CliRun := ⟨[], .error error, j⟩

/-- What a command meets besides: the standard output, the JSON library and the `Display` of a time.
`deError` is serde's error for a text that is no `ProcessingState`. -/
structure CommandEnv extends CliEnv where
  writeOut : String → Option String
  deError : String → String
  pretty : Json → String
  display : Timestamp → String

/-- `{:?}` of a `ProcessingState`. -/
def ProcessingState.debug : ProcessingState → String
  | .received => "Received"
  | .verified => "Verified"
  | .verificationFailed => "VerificationFailed"
  | .duplicate => "Duplicate"
  | .stored => "Stored"
  | .emitted => "Emitted"
  | .processed => "Processed"
  | .emitFailed => "EmitFailed"
  | .deadLettered => "DeadLettered"
  | .replayed => "Replayed"

/-- `{:<n}` of a text. -/
def alignLeft (n : Nat) (s : String) : String :=
  s ++ String.ofList (List.replicate (n - s.length) ' ')

/-- `{:>n}` of a text. -/
def alignRight (n : Nat) (s : String) : String :=
  String.ofList (List.replicate (n - s.length) ' ') ++ s

/-- A line of `hookbox emitters list`. -/
def emittersLine (name type dlq pending inFlight : String) : String :=
  " ".intercalate [alignLeft 24 name, alignLeft 10 type, alignRight 8 dlq, alignRight 8 pending,
    alignRight 10 inFlight] ++ "\n"

namespace CommandEnv

variable (env : CommandEnv)

/-- Texts that are written one after the other, each with the context of its error. -/
def writeAll : List (String × String) → List CliLine × Except AnyhowError Unit
  | [] => ([], .ok ())
  | (context, text) :: rest =>
    match env.writeOut text with
    | some e => ([], .error [context, e])
    | none =>
      let (lines, result) := writeAll rest
      (.out text :: lines, result)

/-- The two writes of the commands that print one JSON value. -/
def writeJson (json : Json) : List CliLine × Except AnyhowError Unit :=
  env.writeAll [("failed to write to stdout", env.pretty json), ("failed to write newline", "\n")]

/-- `parse_processing_state`: quoted and parsed, as the storage does with a column. -/
def parseProcessingState (s : String) : Except String ProcessingState :=
  match ProcessingState.ofText s with
  | .error _ => .error (env.deError s)
  | .ok st => .ok st

/-- The event that is logged for a receipt.  Its state is the column. -/
def receiptLine (r : WebhookReceipt) : CliLine :=
  .info "receipt"
    [("id", r.receiptId.uuid.toString), ("provider", r.providerName),
      ("state", r.processingState.debug), ("received_at", env.display r.receivedAt)]

def receiptLines (receipts : List WebhookReceipt) : List CliLine :=
  receipts.map env.receiptLine ++
    [.info "total receipts returned" [("count", toString receipts.length)]]

/-- The event that is logged for a dead-lettered delivery. -/
def deliveryLine (pair : WebhookDelivery × WebhookReceipt) : CliLine :=
  .info "dead-lettered delivery"
    [("delivery_id", pair.1.deliveryId.uuid.toString),
      ("receipt_id", pair.2.receiptId.uuid.toString), ("emitter_name", pair.1.emitterName),
      ("state", pair.1.state.debug), ("attempt_count", toString pair.1.attemptCount),
      ("next_attempt_at", env.display pair.1.nextAttemptAt)]

end CommandEnv

/-- The warning of a search without results. -/
def noResults : CliLine :=
  .warn "no results — external_reference is only populated by provider-specific adapters"

/-! ## 2. The commands -/

namespace HttpSession

variable (session : HttpSession)

/-- `PostgresStorage::query_by_external_reference`.  It selects and orders as `query` does with a
filter for the reference only. -/
def queryByExternalReference (externalRef : String) (limit : Option Int) :
    Journal → Except StorageError (List WebhookReceipt) × Journal :=
  session.statement fun db =>
    (Database.paginate (limit.getD 50) 0
      (session.queryRows db { externalReference := some externalRef })).bind fun page =>
        page.mapM receiptFromRow

/-- One of the three counts: `count_dlq`, `count_pending` or `count_in_flight`. -/
def count (f : Database → Nat) : Journal → Except StorageError Nat × Journal :=
  session.statement fun db => .ok (f db)

end HttpSession

section Commands

variable (env : CommandEnv) (chrono : Chrono) (session : HttpSession)

/-- `ReceiptsCommand::List`. -/
def receiptsList (provider state : Option String) (limit : Int) (j : Journal) : CliRun :=
  match env.connect with
  | some e => .failed ["failed to connect to database", e] j
  | none =>
    match state.mapM env.parseProcessingState with
    | .error e => .failed ["invalid --state value", e] j
    | .ok processingState =>
      match session.query
          { providerName := provider, processingState := processingState, limit := some limit }
          j with
      | (.error e, j) => .failed [e.toString] j
      | (.ok receipts, j) => ⟨env.receiptLines receipts, .ok (), j⟩

/-- `ReceiptsCommand::Inspect`. -/
def receiptsInspect (receiptId : ReceiptId) (j : Journal) : CliRun :=
  match env.connect with
  | some e => .failed ["failed to connect to database", e] j
  | none =>
    match session.get receiptId j with
    | (.error e, j) => .failed [e.toString] j
    | (.ok none, j) => .failed ["receipt not found"] j
    | (.ok (some receipt), j) =>
      let (lines, result) := env.writeJson (.ofMembers (receipt.members chrono))
      ⟨lines, result, j⟩

/-- `ReceiptsCommand::Search`. -/
def receiptsSearch (externalRef : String) (limit : Int) (j : Journal) : CliRun :=
  match env.connect with
  | some e => .failed ["failed to connect to database", e] j
  | none =>
    match session.queryByExternalReference externalRef (some limit) j with
    | (.error e, j) => .failed [e.toString] j
    | (.ok receipts, j) =>
      ⟨(if receipts.isEmpty then [noResults] else []) ++ env.receiptLines receipts, .ok (), j⟩

/-- `DlqCommand::List`. -/
def dlqList (emitter : Option String) (limit offset : Int) (j : Journal) : CliRun :=
  match env.connect with
  | some e => .failed ["failed to connect to database", e] j
  | none =>
    match session.storageListDlq emitter limit offset j with
    | (.error e, j) => .failed ["failed to list dead-lettered deliveries", e.toString] j
    | (.ok rows, j) =>
      ⟨rows.map env.deliveryLine ++
        [.info "total dead-lettered deliveries" [("count", toString rows.length)]], .ok (), j⟩

/-- `DlqCommand::Inspect`. -/
def dlqInspect (deliveryId : DeliveryId) (j : Journal) : CliRun :=
  match env.connect with
  | some e => .failed ["failed to connect to database", e] j
  | none =>
    match session.toSession.getDelivery deliveryId j with
    | (.error e, j) => .failed ["failed to fetch delivery", e.toString] j
    | (.ok none, j) => .failed ["delivery " ++ deliveryId.uuid.toString ++ " not found"] j
    | (.ok (some pair), j) =>
      let (lines, result) := env.writeJson (deliveryWithReceipt chrono pair)
      ⟨lines, result, j⟩

/-- The loop of `EmittersCommand::List`. -/
def emittersRows : List EmitterEntry → Journal → CliRun
  | [], j => ⟨[], .ok (), j⟩
  | emitter :: emitters, j =>
    match session.count (·.countDlq emitter.name) j with
    | (.error e, j) => .failed ["count_dlq failed for " ++ emitter.name, e.toString] j
    | (.ok dlq, j) =>
      match session.count (·.countPending emitter.name session.now) j with
      | (.error e, j) => .failed ["count_pending failed for " ++ emitter.name, e.toString] j
      | (.ok pending, j) =>
        match session.count (·.countInFlight emitter.name) j with
        | (.error e, j) => .failed ["count_in_flight failed for " ++ emitter.name, e.toString] j
        | (.ok inFlight, j) =>
          match env.writeAll [("failed to write row", emittersLine emitter.name emitter.emitterType
              (toString dlq) (toString pending) (toString inFlight))] with
          | (lines, .error e) => ⟨lines, .error e, j⟩
          | (lines, .ok ()) =>
            let rest := emittersRows emitters j
            ⟨lines ++ rest.lines, rest.result, rest.journal⟩

/-- `EmittersCommand::List`. -/
def emittersList (config : String) (j : Journal) : CliRun :=
  match env.loadConfig config with
  | .error e => .failed e j
  | .ok parsed =>
    match env.connect with
    | some e => .failed ["failed to connect to database", e] j
    | none =>
      match env.writeAll [("failed to write header",
          emittersLine "NAME" "TYPE" "DLQ" "PENDING" "IN_FLIGHT")] with
      | (lines, .error e) => ⟨lines, .error e, j⟩
      | (lines, .ok ()) =>
        let rest := emittersRows env session parsed.emitters j
        ⟨lines ++ rest.lines, rest.result, rest.journal⟩

/-- `config_validate::run`.  Its `println!`s panic where others fail. -/
def configValidate (configPath : String) : List CliLine × Except AnyhowError Unit :=
  match env.readToString configPath with
  | .error e => ([], .error ["reading " ++ configPath, e])
  | .ok raw =>
    match env.parseAndNormalize raw with
    | .error e => ([], .error ["normalizing config at " ++ configPath, e])
    | .ok (config, _) =>
      (.out ("OK: " ++ toString config.emitters.length ++ " emitter(s) configured\n") ::
        config.emitters.map fun e =>
          .out ("  - " ++ e.name ++ " (type=" ++ e.emitterType ++ ")\n"), .ok ())

end Commands

/-- The commands, with their arguments. -/
inductive CliCommand where
  | receiptsList (provider state : Option String) (limit : Int)
  | receiptsInspect (receiptId : ReceiptId)
  | receiptsSearch (externalRef : String) (limit : Int)
  | replayId (config : String) (receiptId : ReceiptId) (emitter : Option String)
  | dlqList (emitter : Option String) (limit offset : Int)
  | dlqInspect (deliveryId : DeliveryId)
  | dlqRetry (config : String) (deliveryId : DeliveryId)
  | emittersList (config : String)
  | configValidate (path : String)

namespace CliCommand

/-- `main`, after the arguments are parsed. -/
def run (env : CommandEnv) (chrono : Chrono) (session : HttpSession) (j : Journal) :
    CliCommand → CliRun
  | receiptsList provider state limit => Hookbox.receiptsList env session provider state limit j
  | receiptsInspect receiptId => Hookbox.receiptsInspect env chrono session receiptId j
  | receiptsSearch externalRef limit => Hookbox.receiptsSearch env session externalRef limit j
  | replayId config receiptId emitter =>
    let (result, j) := runReplayId session.toSession env.toCliEnv config receiptId emitter j
    ⟨[], result, j⟩
  | dlqList emitter limit offset => Hookbox.dlqList env session emitter limit offset j
  | dlqInspect deliveryId => Hookbox.dlqInspect env chrono session deliveryId j
  | dlqRetry config deliveryId =>
    let (result, j) := Hookbox.dlqRetry session.toSession env.toCliEnv config deliveryId j
    ⟨[], result, j⟩
  | emittersList config => Hookbox.emittersList env session config j
  | configValidate path =>
    let (lines, result) := Hookbox.configValidate env path
    ⟨lines, result, j⟩

/-- What a command is to insert attempts for: nothing, unless it is a replay. -/
def Targets (cmd : CliCommand) (db : Database) (receiptId : ReceiptId) (names : List String) :
    Prop :=
  match cmd with
  | replayId _ id emitter => TargetsOfId db id emitter receiptId names
  | dlqRetry _ id => TargetsOfDelivery db id receiptId names
  | _ => False

end CliCommand

/-! ## 3. What a command can commit -/

section Effects

variable {env : CommandEnv} {chrono : Chrono} {session : HttpSession}

end Effects

/-! ## 4. What the commands on receipts report -/

/-- What a query returns are rows that match. -/
theorem HttpSession.query_ok {session : HttpSession} {filter : ReceiptFilter} {j j' : Journal}
    {receipts : List WebhookReceipt} (h : session.query filter j = (.ok receipts, j')) :
    ∀ r ∈ receipts, ∃ row ∈ (session.db j.issued).receipts.rows, filter.Matches row ∧
      receiptFromRow row = .ok r := by
  intro r hr
  obtain ⟨page, hpage, hread⟩ := Except.bind_eq_ok.mp (Session.statement_ok h).2
  obtain ⟨row, hrow, hreceipt⟩ := (Except.mapM_eq_ok_iff.mp hread).exists_right hr
  have hsub : row ∈ session.queryRows (session.db j.issued) filter := by
    unfold Database.paginate at hpage
    split at hpage
    · cases hpage
    · split at hpage
      · cases hpage
      · cases hpage
        exact List.mem_of_mem_drop (List.mem_of_mem_take hrow)
  have hspec := (session.queryRows_spec (session.db j.issued) filter).1.mem_iff.mp hsub
  rw [List.mem_filter, decide_eq_true_eq] at hspec
  exact ⟨row, hspec.1, hspec.2, hreceipt⟩

section Runs

variable {dep : Deployment} {db : Database} {ls : List Label} {s : Sys}
  (h : (system dep).exec (.start dep db) ls = some s)

include h

/-- A reference is written by nothing that runs: a row with one was there at the start. -/
theorem system_external_reference {row : ReceiptRow} (hrow : row ∈ s.db.receipts.rows)
    {externalRef : String} (href : row.externalReference = some externalRef) :
    ∃ r ∈ db.receipts.rows, r.externalReference = some externalRef := by
  rcases system_row_origin h hrow with ⟨r, hr, hcontent⟩ | ⟨call, receipt, names, hev, hcontent⟩
  · have hsame : r.content.externalReference = row.content.externalReference := by rw [hcontent]
    exact ⟨r, hr, hsame.trans href⟩
  · obtain ⟨c, utcNow, receivedAt, -, -, rfl, -⟩ := system_stored_request h hev
    have hnone : row.externalReference = none := congrArg ReceiptRow.externalReference hcontent
    rw [hnone] at href
    cases href

/-- **`hookbox receipts search` finds nothing.**  On every run, for a reference that no receipt had
at the start: the search succeeds exactly if it is connected, its statement does not fail and its
limit is not negative, and then it warns that there are no results and counts none. -/
theorem receipts_search_finds_nothing {externalRef : String}
    (hold : ∀ r ∈ db.receipts.rows, r.externalReference ≠ some externalRef) (env : CommandEnv)
    (session : HttpSession) {j : Journal} (hdb : session.db j.issued = s.db) (limit : Int) :
    ((receiptsSearch env session externalRef limit j).result = .ok () ↔
      env.connect = none ∧ session.failure j.issued = none ∧ 0 ≤ limit) ∧
      ((receiptsSearch env session externalRef limit j).result = .ok () →
        (receiptsSearch env session externalRef limit j).lines
          = [noResults, .info "total receipts returned" [("count", "0")]]) := by
  have hrows : session.queryRows s.db { externalReference := some externalRef } = [] := by
    have hspec := (session.queryRows_spec s.db { externalReference := some externalRef }).1
    rw [List.eq_nil_iff_forall_not_mem]
    intro row hrow
    have hmem := hspec.mem_iff.mp hrow
    rw [List.mem_filter, decide_eq_true_eq] at hmem
    obtain ⟨hin, -, -, href, -⟩ := hmem
    rcases href with hnone | href
    · cases hnone
    · obtain ⟨r, hr, heq⟩ := system_external_reference h hin href
      exact hold r hr heq
  have hfind : (Database.paginate limit 0 (session.queryRows s.db
      { externalReference := some externalRef })).bind (fun page => page.mapM receiptFromRow)
        = if limit < 0 then .error (.internal "LIMIT must not be negative") else .ok [] := by
    rw [hrows, Database.paginate, if_neg (lt_irrefl 0), List.drop_nil, List.take_nil]
    split <;> rfl
  cases hconnect : env.connect with
  | some e => simp [receiptsSearch, hconnect, CliRun.failed]
  | none =>
    cases hfailure : session.failure j.issued with
    | some msg =>
      simp [receiptsSearch, hconnect, HttpSession.queryByExternalReference, Session.statement,
        hfailure, CliRun.failed]
    | none =>
      have hsearch : session.queryByExternalReference externalRef (some limit) j
          = ((if limit < 0 then .error (.internal "LIMIT must not be negative") else .ok []),
            { j with issued := j.issued + 1 }) := by
        rw [HttpSession.queryByExternalReference, Session.statement, hfailure, hdb]
        exact congrArg (·, _) hfind
      by_cases hlimit : limit < 0
      · have hneg : ¬ 0 ≤ limit := not_le.mpr hlimit
        simp [receiptsSearch, hconnect, hsearch, hlimit, hneg, CliRun.failed]
      · have hrun : receiptsSearch env session externalRef limit j
            = ⟨noResults :: env.receiptLines [], .ok (), { j with issued := j.issued + 1 }⟩ := by
          simp [receiptsSearch, hconnect, hsearch, hlimit]
        rw [hrun]
        exact ⟨iff_of_true rfl ⟨rfl, rfl, not_lt.mp hlimit⟩, fun _ => rfl⟩

end Runs

/-- A command line whose standard output takes everything. -/
def sampleCommandEnv : CommandEnv where
  toCliEnv := sampleCli
  writeOut _ := none
  deError _ := "unknown variant"
  pretty _ := ""
  display t := toString t

/-- One request was accepted. -/
theorem receipts_search_finds_nothing_one :
    (receiptsSearch sampleCommandEnv (.quiet acceptedDb) "order-1" 20 {}).result = .ok () := by
  have hrun : (system sampleDep).exec (.start sampleDep .empty) acceptOne = some _ := rfl
  have hold : ∀ r ∈ Database.empty.receipts.rows, r.externalReference ≠ some "order-1" :=
    fun r hr => absurd hr List.not_mem_nil
  have hdb : (HttpSession.quiet acceptedDb).db 0 = acceptedDb := rfl
  exact (receipts_search_finds_nothing hrun hold sampleCommandEnv (.quiet acceptedDb) (j := {}) hdb
    20).1.mpr ⟨rfl, rfl, by decide⟩

/-- What a command that succeeds has asked of the database. -/
theorem receiptsList_ok {env : CommandEnv} {session : HttpSession} {provider state : Option String}
    {limit : Int} {j : Journal}
    (hok : (receiptsList env session provider state limit j).result = .ok ()) :
    ∃ processingState receipts j', state.mapM env.parseProcessingState = .ok processingState ∧
      session.query
          { providerName := provider, processingState := processingState, limit := some limit } j
        = (.ok receipts, j') ∧
      receiptsList env session provider state limit j
        = ⟨env.receiptLines receipts, .ok (), j'⟩ := by
  unfold receiptsList at hok ⊢
  split at hok
  · cases hok
  · split at hok
    · cases hok
    · rename_i processingState hparse
      split at hok
      · cases hok
      · rename_i receipts j' hquery
        exact ⟨processingState, receipts, j', hparse, hquery, rfl⟩

/-- A query with nothing but a limit, which cuts nothing off, returns every receipt. -/
theorem HttpSession.query_all {session : HttpSession} {limit : Int} {j j' : Journal}
    {receipts : List WebhookReceipt}
    (h : session.query { limit := some limit } j = (.ok receipts, j'))
    (hlimit : (session.db j.issued).receipts.rows.length ≤ limit) :
    (receipts.map (·.receiptId)).Perm (session.db j.issued).receipts.keys := by
  have hperm := (session.queryRows_spec (session.db j.issued) { limit := some limit }).1
  have hall : (session.db j.issued).receipts.rows.filter
      (fun row => ReceiptFilter.Matches { limit := some limit } row)
        = (session.db j.issued).receipts.rows := by
    rw [List.filter_eq_self]
    intro row _
    simp [ReceiptFilter.Matches, NullOrEq]
  rw [hall] at hperm
  have hquery := (Session.statement_ok h).2
  have hlength : (session.queryRows (session.db j.issued) { limit := some limit }).length ≤ limit :=
    hperm.length_eq ▸ hlimit
  have hpage := Database.paginate_all hlength
  have hread : (session.queryRows (session.db j.issued) { limit := some limit }).mapM receiptFromRow
      = .ok receipts := by
    obtain ⟨page, hpage', hread⟩ := Except.bind_eq_ok.mp hquery
    obtain rfl := Except.ok.inj (hpage.symm.trans hpage')
    exact hread
  have hids : receipts.map (·.receiptId)
      = (session.queryRows (session.db j.issued) { limit := some limit }).map (·.receiptId) := by
    rw [← List.forall₂_eq_eq_eq, List.forall₂_map_left_iff, List.forall₂_map_right_iff]
    exact ((Except.mapM_eq_ok_iff.mp hread).imp fun _ _ hrow => (receiptFromRow_ok hrow).1).flip
  rw [hids]
  exact hperm.map _

/-- **`hookbox receipts list` shows the column.**  On every run of ingests, workers and replay
commands on a fresh database: what the command lists are rows of the table, of the provider and the
state that were asked for; the state that it shows is `EmitFailed` for a receipt that `hookbox replay failed` has
reset, and `Stored` for all others, whatever has become of their deliveries; and without a filter and
with a limit that cuts nothing off it lists every receipt once. -/
theorem receipts_list_shows_columns {dep : Deployment} {ls : List Label} {s : Sys}
    (hls : ∀ l ∈ ls, l.Ordinary) (h : (system dep).exec (.start dep .empty) ls = some s)
    (env : CommandEnv) (session : HttpSession) {j : Journal} (hdb : session.db j.issued = s.db)
    {provider state : Option String} {limit : Int}
    (hok : (receiptsList env session provider state limit j).result = .ok ()) :
    ∃ receipts,
      (receiptsList env session provider state limit j).lines = env.receiptLines receipts ∧
      (∀ r ∈ receipts, (∃ row ∈ s.db.receipts.rows, receiptFromRow row = .ok r) ∧
        r.processingState = (if ∃ l ∈ ls, l.Resets r.receiptId then .emitFailed else .stored) ∧
        (∀ p, provider = some p → r.providerName = p) ∧
        ∀ text, state = some text → env.parseProcessingState text = .ok r.processingState) ∧
      (provider = none → state = none → s.db.receipts.rows.length ≤ limit →
        (receipts.map (·.receiptId)).Perm s.db.receipts.keys) := by
  obtain ⟨processingState, receipts, j', hparse, hquery, hrun⟩ := receiptsList_ok hok
  rw [hrun]
  refine ⟨receipts, rfl, fun r hr => ?_, ?_⟩
  · obtain ⟨row, hrow, ⟨hprovider, hstate, -⟩, hreceipt⟩ := HttpSession.query_ok hquery r hr
    rw [hdb] at hrow
    obtain ⟨-, hcolumn, hcolumns⟩ := receiptFromRow_columns hreceipt
    have hname : row.providerName = r.providerName := congrArg (·.providerName) hcolumns
    refine ⟨⟨row, hrow, hreceipt⟩, ?_, ?_, ?_⟩
    · have hwritten : row.processingState = (if ∃ l ∈ ls, l.Resets r.receiptId then
          ProcessingState.emitFailed else .stored).text := by
        rw [(system_columns hls h).column row hrow, Database.columnAfter,
          (receiptFromRow_ok hreceipt).1]
        split <;> rfl
      rw [hwritten, ProcessingState.ofText_text] at hcolumn
      exact (Except.ok.inj hcolumn).symm
    · rintro p rfl
      rcases hprovider with hnone | hprovider
      · cases hnone
      · exact hname.symm.trans (Option.some.inj hprovider)
    · rintro text rfl
      cases hst : env.parseProcessingState text with
      | error e =>
        rw [Option.mapM_some, hst] at hparse
        cases hparse
      | ok st =>
        rw [Option.mapM_some, hst] at hparse
        cases hparse
        rcases hstate with hnone | hstate
        · cases hnone
        · have htext : row.processingState = st.text := Option.some.inj hstate
          rw [htext, ProcessingState.ofText_text] at hcolumn
          rw [Except.ok.inj hcolumn]
  · rintro rfl rfl hlimit
    cases hparse
    have hall := HttpSession.query_all hquery (hdb ▸ hlimit)
    rwa [hdb] at hall

/-- The one receipt of an accepted request can be listed by the state it has. -/
theorem acceptedDb_listed :
    (receiptsList sampleCommandEnv (.quiet acceptedDb) none (some "stored") 20 {}).result
        = .ok () ∧
      (receiptsList sampleCommandEnv (.quiet acceptedDb) none (some "stored") 20 {}).lines.length
        = 2 := by
  have hdb : (HttpSession.quiet acceptedDb).db 0 = acceptedDb := rfl
  have hrow : (HttpSession.quiet acceptedDb).queryRows acceptedDb
      { processingState := some .stored, limit := some 20 } = acceptedDb.receipts.rows :=
    List.mergeSort_singleton _
  have hquery : ∃ receipt, (HttpSession.quiet acceptedDb).query
      { processingState := some .stored, limit := some 20 } {} = (.ok [receipt], ⟨1, []⟩) := by
    rw [HttpSession.query, Session.statement, hdb, hrow]
    exact ⟨_, rfl⟩
  have hparse : (some "stored").mapM sampleCommandEnv.parseProcessingState
      = .ok (some .stored) := rfl
  have hconnect : sampleCommandEnv.connect = none := rfl
  obtain ⟨receipt, hquery⟩ := hquery
  simp only [receiptsList, hconnect, hparse, hquery]
  exact ⟨trivial, rfl⟩

/-- The list is not empty. -/
theorem receipts_list_shows_columns_one :
    ∃ receipts, (receiptsList sampleCommandEnv (.quiet acceptedDb) none (some "stored") 20 {}).lines
        = sampleCommandEnv.receiptLines receipts ∧ receipts.length = 1 ∧
      ∀ r ∈ receipts, (∃ row ∈ acceptedDb.receipts.rows, receiptFromRow row = .ok r) ∧
        r.processingState
          = if ∃ l ∈ acceptOne, l.Resets r.receiptId then .emitFailed else .stored := by
  have hrun : (system sampleDep).exec (.start sampleDep .empty) acceptOne = some _ := rfl
  have hordinary : ∀ l ∈ acceptOne, l.Ordinary := by
    intro l hl
    fin_cases hl <;> trivial
  have hdb : (HttpSession.quiet acceptedDb).db 0 = acceptedDb := rfl
  obtain ⟨receipts, hlines, hshown, -⟩ := receipts_list_shows_columns hordinary hrun
    sampleCommandEnv (.quiet acceptedDb) hdb acceptedDb_listed.1
  have hlength := acceptedDb_listed.2
  rw [hlines, CommandEnv.receiptLines, List.length_append, List.length_map, List.length_singleton]
    at hlength
  exact ⟨receipts, hlines, Nat.succ.inj hlength, fun r hr =>
    ⟨(hshown r hr).1, (hshown r hr).2.1⟩⟩

/-! ## 5. What the table of emitters vouches for -/

/-- The line of an emitter, when its three counts are taken on one database. -/
def Database.emittersRow (db : Database) (now : Timestamp) (emitter : EmitterEntry) : CliLine :=
  .out (emittersLine emitter.name emitter.emitterType (toString (db.countDlq emitter.name))
    (toString (db.countPending emitter.name now)) (toString (db.countInFlight emitter.name)))

/-- The three counts of an emitter are zero. -/
def Database.QueueEmpty (db : Database) (now : Timestamp) (name : String) : Prop :=
  db.countDlq name = 0 ∧ db.countPending name now = 0 ∧ db.countInFlight name = 0

section Table

variable {env : CommandEnv} {session : HttpSession}

theorem CommandEnv.writeAll_ok {texts : List (String × String)} : ∀ {lines : List CliLine},
    env.writeAll texts = (lines, .ok ()) → lines = texts.map fun t => .out t.2 := by
  induction texts with
  | nil =>
    intro lines h
    cases h
    rfl
  | cons t rest ih =>
    intro lines h
    rw [writeAll] at h
    split at h
    · cases h
    · obtain ⟨hlines, hresult⟩ := Prod.mk.inj h
      have hrest : env.writeAll rest = ((env.writeAll rest).1, .ok ()) := Prod.ext rfl hresult
      rw [← hlines, List.map_cons, ih hrest]

/-- **The table**, on a database that does not change. -/
theorem emittersRows_ok {db : Database} (hdb : ∀ k, session.db k = db)
    (emitters : List EmitterEntry) : ∀ j : Journal,
    (emittersRows env session emitters j).result = .ok () →
      (emittersRows env session emitters j).lines = emitters.map (db.emittersRow session.now) := by
  induction emitters with
  | nil => exact fun _ _ => rfl
  | cons emitter emitters ih =>
    intro j hok
    rw [emittersRows] at hok ⊢
    split at hok
    · cases hok
    · rename_i dlq j₁ hdlq
      obtain rfl := Except.ok.inj (Session.statement_ok hdlq).2
      split at hok
      · cases hok
      · rename_i pending j₂ hpending
        obtain rfl := Except.ok.inj (Session.statement_ok hpending).2
        split at hok
        · cases hok
        · rename_i inFlight j₃ hinFlight
          obtain rfl := Except.ok.inj (Session.statement_ok hinFlight).2
          split at hok
          · cases hok
          · rename_i lines hwrite
            have hline := env.writeAll_ok hwrite
            simp only [hdb, List.map_cons, List.map_nil] at hline
            rw [List.map_cons, ← ih j₃ hok]
            exact congrArg (· ++ _) hline

/-- What the table of a command that succeeds consists of. -/
theorem emittersList_ok {db : Database} (hdb : ∀ k, session.db k = db) {config : String}
    {j : Journal} (hok : (emittersList env session config j).result = .ok ()) :
    ∃ parsed, env.loadConfig config = .ok parsed ∧ (emittersList env session config j).lines
      = .out (emittersLine "NAME" "TYPE" "DLQ" "PENDING" "IN_FLIGHT") ::
        parsed.emitters.map (db.emittersRow session.now) := by
  unfold emittersList at hok ⊢
  split at hok
  · cases hok
  · rename_i parsed hload
    split at hok
    · cases hok
    · split at hok
      · cases hok
      · rename_i lines hwrite
        have hheader := env.writeAll_ok hwrite
        refine ⟨parsed, hload, ?_⟩
        rw [← emittersRows_ok hdb parsed.emitters j hok]
        exact congrArg (· ++ _) hheader

end Table

/-- What no count shows. -/
theorem Database.QueueEmpty.row {db : Database} {now : Timestamp} {name : String}
    (hempty : db.QueueEmpty now name) {d : WebhookDelivery} (hd : d ∈ db.deliveries.rows)
    (hname : d.emitterName = name) (hmutable : d.immutable = false) :
    d.state = .emitted ∨ (d.state = .pending ∨ d.state = .failed) ∧ now < d.nextAttemptAt := by
  obtain ⟨hdlq, hpending, hinFlight⟩ := hempty
  rw [countDlq, List.countP_eq_zero] at hdlq
  rw [countPending, List.countP_eq_zero] at hpending
  rw [countInFlight, List.countP_eq_zero] at hinFlight
  have hdead := hdlq d hd
  have hwaiting := hpending d hd
  have hflying := hinFlight d hd
  simp only [decide_eq_true_eq, Eligible, hname, hmutable, true_and, and_true] at *
  cases hst : d.state with
  | emitted => exact .inl rfl
  | deadLettered => exact absurd hst hdead
  | inFlight => exact absurd hst hflying
  | pending => exact .inr ⟨.inl rfl, not_le.mp fun hle => hwaiting ⟨.inl hst, hle⟩⟩
  | failed => exact .inr ⟨.inr rfl, not_le.mp fun hle => hwaiting ⟨.inr hst, hle⟩⟩

/-- **What the table of emitters vouches for.**  On every run from a migrated database, when
`hookbox emitters list` succeeds on a state that does not change meanwhile: it prints one line for
each emitter of the configuration file, in its order, with the counts of that state.  Where the three
counts of an emitter are zero, each of its rows has been delivered to it, in an emit call that was
answered `Ok`, or waits for the time of its next attempt. -/
theorem emitters_list_vouches {dep : Deployment} {pre : Receipts} {draw : Nat → DeliveryId}
    {db : Database} (hdb : migrate0002 pre draw = some db) {ls : List Label} {s : Sys}
    (h : (system dep).exec (.start dep db) ls = some s) (env : CommandEnv) (session : HttpSession)
    (hquiet : ∀ k, session.db k = s.db) {config : String} {j : Journal}
    (hok : (emittersList env session config j).result = .ok ()) :
    (∃ parsed, env.loadConfig config = .ok parsed ∧ (emittersList env session config j).lines
      = .out (emittersLine "NAME" "TYPE" "DLQ" "PENDING" "IN_FLIGHT") ::
        parsed.emitters.map (s.db.emittersRow session.now)) ∧
      ∀ name, s.db.QueueEmpty session.now name → ∀ d ∈ s.db.deliveries.rows,
        d.emitterName = name → d.immutable = false →
          Delivered dep ((system dep).trace (.start dep db) ls) s.db d ∨
            (d.state = .pending ∨ d.state = .failed) ∧ session.now < d.nextAttemptAt := by
  refine ⟨emittersList_ok hquiet hok, fun name hempty d hd hname hmutable => ?_⟩
  have hsound := (system_sound (fun d hd => migrate0002_immutable hdb hd) h).rows d hd hmutable
  exact (hempty.row hd hname hmutable).imp_left hsound.emitted

/-- One delivery, and it was answered `Ok`. -/
theorem emitters_list_vouches_one :
    ∃ s, (system sampleDep).exec (.start sampleDep .empty)
        (acceptOne ++ claimAndCall 0 0 ⟨0⟩ ++ answerAndMark 0 0 ⟨0⟩ (.ok ())) = some s ∧
      s.db.QueueEmpty 0 "kafka" ∧ ∀ d ∈ s.db.deliveries.rows, d.emitterName = "kafka" →
        d.immutable = false →
          Delivered sampleDep ((system sampleDep).trace (.start sampleDep .empty)
            (acceptOne ++ claimAndCall 0 0 ⟨0⟩ ++ answerAndMark 0 0 ⟨0⟩ (.ok ()))) s.db d ∨
            (d.state = .pending ∨ d.state = .failed) ∧ 0 < d.nextAttemptAt := by
  have hone : ∃ s, (system sampleDep).exec (.start sampleDep .empty)
      (acceptOne ++ claimAndCall 0 0 ⟨0⟩ ++ answerAndMark 0 0 ⟨0⟩ (.ok ())) = some s ∧
      s.db.QueueEmpty 0 "kafka" := ⟨_, rfl, rfl, rfl, rfl⟩
  obtain ⟨s, hrun, hempty⟩ := hone
  have hload : sampleCommandEnv.loadConfig "hookbox.toml" = .ok (sampleConfig 1) := by
    have hread : sampleCommandEnv.readToString "hookbox.toml" = .ok "hookbox.toml" := rfl
    have htoml : sampleCommandEnv.tomlFromStr "hookbox.toml" = .ok (sampleConfig 1) := rfl
    simp only [CliEnv.loadConfig, hread, CliEnv.parseAndNormalize, htoml, sampleConfig_normal,
      List.findSome?_nil]
  have hok : (emittersList sampleCommandEnv (.quiet s.db) "hookbox.toml" {}).result = .ok () := by
    rw [emittersList, hload]
    rfl
  exact ⟨s, hrun, hempty, (emitters_list_vouches (migrate0002_empty fun _ => ⟨0⟩) hrun
    sampleCommandEnv (.quiet s.db) (fun _ => rfl) hok).2 "kafka" hempty⟩

end Hookbox
