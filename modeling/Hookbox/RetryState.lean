/-
# The retry state of a receipt

The receipt-level retry is written twice.  `retry_failed`, `reset_for_retry` and `query_for_retry` of
`hookbox-postgres/src/storage.rs` do it in SQL; `retry_next_state`, `reset_state` and
`is_findable_by_worker` of `hookbox/src/transitions.rs` say it again as functions of
`(emit_count, processing_state)`, for the model checker.

They part where `emit_count` is at its maximum: the function saturates and dead-letters, the
`UPDATE` fails and leaves the row alone.

* `Database.storedAt_retryFailed`, `Database.storedAt_resetForRetry`: what one call does to the pair.
* `Database.storedAt_runCalls_iff`: a sequence of calls ends where the fold ends, except from one
  kind of start.
* `Database.queryForRetry_spec`: the worker's query against `is_findable_by_worker`.
* `retry_mirrors_iff`: when the SQL and the functions agree.
-/
import Mathlib
import Hookbox.Storage.Safety

namespace Hookbox

/-! ## 1. The functions -/

/-- `i32::saturating_add`. -/
def saturatingAdd (a b : Int32) : Int32 :=
  Int32.ofInt (max Int32.minValue.toInt (min Int32.maxValue.toInt (a.toInt + b.toInt)))

/-- `retry_next_state`. -/
def retryNextState (emitCount maxAttempts : Int32) : Int32 × ProcessingState :=
  let newCount := saturatingAdd emitCount 1
  let newState := if newCount ≥ maxAttempts then ProcessingState.deadLettered else .emitFailed
  (newCount, newState)

/-- `reset_state`. -/
def resetState : Int32 × ProcessingState := (0, .emitFailed)

/-- `is_findable_by_worker`. -/
def isFindableByWorker (emitCount : Int32) (state : ProcessingState) (maxAttempts : Int32) : Bool :=
  state == .emitFailed && emitCount < maxAttempts

/-- A call of one of the two statements, on a receipt that is known from the context. -/
inductive RetryCall where
  | retryFailed (maxAttempts : Int32)
  | resetForRetry
deriving DecidableEq

/-- What the functions make of a call. -/
def RetryCall.next (p : Int32 × ProcessingState) : RetryCall → Int32 × ProcessingState
  | .retryFailed maxAttempts => retryNextState p.1 maxAttempts
  | .resetForRetry => resetState

/-! ## 2. The statements -/

namespace Database

/-- The row of the receipt holds this `emit_count` and this `processing_state`. -/
def StoredAt (db : Database) (id : ReceiptId) (p : Int32 × ProcessingState) : Prop :=
  ∃ row, db.receipts.get? id = some row ∧ row.emitCount = p.1 ∧ row.processingState = p.2.text

/-- One call.  A statement that fails leaves the database as it was. -/
def runCall (id : ReceiptId) (db : Database) : RetryCall → Database
  | .retryFailed maxAttempts => (db.retryFailed id maxAttempts).toOption.getD db
  | .resetForRetry => (db.resetForRetry id).toOption.getD db

/-- A sequence of calls. -/
def runCalls (id : ReceiptId) (db : Database) (calls : List RetryCall) : Database :=
  calls.foldl (runCall id) db

/-- The `WHERE` clause of `query_for_retry`. -/
def ForRetry (maxAttempts : Int32) (row : ReceiptRow) : Prop :=
  row.processingState = "emit_failed" ∧ row.emitCount < maxAttempts

instance (maxAttempts : Int32) : DecidablePred (ForRetry maxAttempts) := fun row => by
  unfold ForRetry; infer_instance

/-- A possible order of the rows of `query_for_retry`: `ORDER BY received_at ASC`. -/
def RetryRows (db : Database) (maxAttempts : Int32) (rows : List ReceiptRow) : Prop :=
  rows.Perm (db.receipts.rows.filter fun row => ForRetry maxAttempts row) ∧
    rows.Pairwise fun r r' => r.receivedAt ≤ r'.receivedAt

/-- `PostgresStorage::query_for_retry` on rows in one of their orders. -/
def queryForRetry (rows : List ReceiptRow) : Except StorageError (List WebhookReceipt) :=
  (paginate 100 0 rows).bind fun page => page.mapM receiptFromRow

end Database

/-! ## 3. One call -/

theorem toInt_succ {n : Int32} (h : n ≠ Int32.maxValue) : (n + 1).toInt = n.toInt + 1 := by
  have hmax : Int32.maxValue.toInt = 2147483647 := rfl
  have hmin : Int32.minValue.toInt = -2147483648 := rfl
  have hone : (1 : Int32).toInt = 1 := rfl
  have hne : n.toInt ≠ Int32.maxValue.toInt := fun heq => h (Int32.toInt_inj.mp heq)
  have hle := n.toInt_le
  have hge := n.minValue_le_toInt
  rw [Int32.toInt_add, hone]
  exact Int.bmod_eq_of_le (by omega) (by omega)

/-- **The saturating and the failing addition agree** except where one saturates and the other
fails. -/
theorem saturatingAdd_one (n : Int32) :
    saturatingAdd n 1 = if n = Int32.maxValue then n else n + 1 := by
  have hone : (1 : Int32).toInt = 1 := rfl
  split
  · rename_i h
    subst h
    decide
  · rename_i h
    have hsucc := toInt_succ h
    have hle := (n + 1).toInt_le
    have hge := (n + 1).minValue_le_toInt
    rw [saturatingAdd, hone, ← hsucc, Int.min_eq_right hle, Int.max_eq_right hge,
      Int32.ofInt_toInt]

theorem retryNextState_of_ne {n m : Int32} (h : n ≠ Int32.maxValue) :
    retryNextState n m = (n + 1, if n + 1 ≥ m then .deadLettered else .emitFailed) := by
  simp only [retryNextState, saturatingAdd_one, if_neg h]

/-- At the maximum the function dead-letters, whatever the limit. -/
theorem retryNextState_max (m : Int32) :
    retryNextState Int32.maxValue m = (Int32.maxValue, .deadLettered) := by
  have hle : m ≤ Int32.maxValue := Int32.le_iff_toInt_le.mpr m.toInt_le
  simp only [retryNextState, saturatingAdd_one, if_true, ge_iff_le, if_pos hle]

namespace Database

variable {db : Database} {id : ReceiptId} {c : Int32} {st : ProcessingState}

/-- The pair that a receipt stores is one. -/
theorem StoredAt.unique {p q : Int32 × ProcessingState} (hp : db.StoredAt id p)
    (hq : db.StoredAt id q) : p = q := by
  obtain ⟨row, hrow, hcount, hstate⟩ := hp
  obtain ⟨row', hrow', hcount', hstate'⟩ := hq
  rw [hrow, Option.some.injEq] at hrow'
  subst hrow'
  exact Prod.ext (hcount.symm.trans hcount')
    (ProcessingState.text_injective (hstate.symm.trans hstate'))

/-- A statement of the two on the receipt sets its pair. -/
theorem StoredAt.update {p : Int32 × ProcessingState} (h : db.StoredAt id p)
    {set : ReceiptRow → ReceiptRow} {hset : ∀ row, (set row).content = row.content}
    {q : Int32 × ProcessingState}
    (hq : ∀ row, row.emitCount = p.1 →
      (set row).emitCount = q.1 ∧ (set row).processingState = q.2.text) :
    (db.updateReceipts (.sql id set hset)).StoredAt id q := by
  obtain ⟨row, hrow, hcount, -⟩ := h
  have hid := Table.key_of_get? hrow
  refine ⟨set row, ?_, hq row hcount⟩
  rw [get?_updateReceipts, hrow, Option.map_some]
  exact congrArg some (if_pos hid)

/-- **`retry_failed` below the maximum** does what `retry_next_state` says. -/
theorem storedAt_retryFailed (h : db.StoredAt id (c, st)) (hc : c ≠ Int32.maxValue) (m : Int32) :
    ∃ db', db.retryFailed id m = .ok db' ∧ db'.StoredAt id (retryNextState c m) := by
  obtain ⟨row, hrow, hcount, hstate⟩ := h
  have hno : ¬ ∃ r ∈ db.receipts.rows, r.receiptId = id ∧ r.emitCount = Int32.maxValue := by
    rintro ⟨r, hr, hid, hmax⟩
    have hget : db.receipts.get? id = some r := Table.get?_eq_some_iff.mpr ⟨hr, hid⟩
    rw [hrow, Option.some.injEq] at hget
    exact hc (by rw [← hmax, ← hget, hcount])
  refine ⟨_, if_neg hno, ?_⟩
  refine StoredAt.update ⟨row, hrow, hcount, hstate⟩ fun row' hcount' => ?_
  rw [retryNextState_of_ne hc]
  simp only at hcount'
  subst hcount'
  refine ⟨rfl, ?_⟩
  show (if row'.emitCount + 1 ≥ m then "dead_lettered" else "emit_failed") = _
  split <;> rfl

/-- **`retry_failed` at the maximum** fails: the addition is out of range. -/
theorem retryFailed_max (h : db.StoredAt id (Int32.maxValue, st)) (m : Int32) :
    db.retryFailed id m = .error (.internal "integer out of range") := by
  obtain ⟨row, hrow, hcount, -⟩ := h
  exact if_pos ⟨row, Table.mem_of_get? hrow, Table.key_of_get? hrow, hcount⟩

/-- **`reset_for_retry`** does what `reset_state` says. -/
theorem storedAt_resetForRetry {p : Int32 × ProcessingState} (h : db.StoredAt id p) :
    ∃ db', db.resetForRetry id = .ok db' ∧ db'.StoredAt id resetState := by
  have hkey : id ∈ db.receipts.keys := by
    obtain ⟨row, hrow, -⟩ := h
    rw [← Table.key_of_get? hrow]
    exact Table.key_mem_keys (Table.mem_of_get? hrow)
  exact ⟨_, if_pos hkey, h.update fun row _ => ⟨rfl, rfl⟩⟩

/-! ## 4. Sequences of calls -/

/-- A pair at the maximal count is dead-lettered.  Both statements and both functions leave such a
pair behind. -/
def Settled (p : Int32 × ProcessingState) : Prop := p.1 = Int32.maxValue → p.2 = .deadLettered

theorem settled_resetState : Settled resetState := fun h => absurd h (by decide)

theorem settled_retryNextState (n m : Int32) : Settled (retryNextState n m) := by
  intro h
  by_cases hn : n = Int32.maxValue
  · rw [hn, retryNextState_max]
  · rw [retryNextState_of_ne hn] at h ⊢
    have hle : m ≤ Int32.maxValue := Int32.le_iff_toInt_le.mpr m.toInt_le
    simp only at h
    rw [h]
    exact if_pos hle

theorem settled_next (p : Int32 × ProcessingState) (call : RetryCall) :
    Settled (RetryCall.next p call) := by
  cases call with
  | retryFailed m => exact settled_retryNextState p.1 m
  | resetForRetry => exact settled_resetState

/-- A call at the maximal count leaves the row as it is, unless it is a reset. -/
theorem runCall_max (h : db.StoredAt id (Int32.maxValue, st)) (m : Int32) :
    runCall id db (.retryFailed m) = db := by
  rw [runCall, retryFailed_max h]
  rfl

theorem storedAt_runCall_reset {p : Int32 × ProcessingState} (h : db.StoredAt id p) :
    (runCall id db .resetForRetry).StoredAt id resetState := by
  obtain ⟨db', hok, hstored⟩ := storedAt_resetForRetry h
  rw [runCall, hok]
  exact hstored

/-- A step of the SQL is a step of the functions, from a settled pair. -/
theorem Settled.storedAt_runCall {p : Int32 × ProcessingState} (hs : Settled p)
    (h : db.StoredAt id p) (call : RetryCall) :
    (runCall id db call).StoredAt id (RetryCall.next p call) := by
  cases call with
  | resetForRetry => exact storedAt_runCall_reset h
  | retryFailed m =>
    obtain ⟨c, st⟩ := p
    by_cases hc : c = Int32.maxValue
    · -- The statement fails, and the saturated pair is the one already stored.
      subst hc
      have hst : st = .deadLettered := hs rfl
      rw [runCall_max h]
      show db.StoredAt id (retryNextState Int32.maxValue m)
      rwa [retryNextState_max, ← hst]
    · obtain ⟨db', hok, hstored⟩ := storedAt_retryFailed h hc m
      rw [runCall, hok]
      exact hstored

/-- **A run of the SQL is a run of the functions, from a settled pair.** -/
theorem Settled.storedAt_runCalls {calls : List RetryCall} :
    ∀ {db : Database} {p : Int32 × ProcessingState}, Settled p → db.StoredAt id p →
      (db.runCalls id calls).StoredAt id (calls.foldl RetryCall.next p) := by
  induction calls with
  | nil => intro db p _ h; exact h
  | cons call calls ih =>
    intro db p hs h
    exact ih (settled_next p call) (hs.storedAt_runCall h call)

/-- Whatever the pair, a call leaves some pair behind. -/
theorem exists_storedAt_runCalls {calls : List RetryCall} :
    ∀ {db : Database} {p : Int32 × ProcessingState}, db.StoredAt id p →
      ∃ q, (db.runCalls id calls).StoredAt id q := by
  induction calls with
  | nil => intro db p h; exact ⟨p, h⟩
  | cons call calls ih =>
    intro db p h
    by_cases hs : Settled p
    · exact ih (hs.storedAt_runCall h call)
    · cases call with
      | resetForRetry =>
        exact ih (storedAt_runCall_reset h)
      | retryFailed m =>
        obtain ⟨c, st⟩ := p
        have hc : c = Int32.maxValue := by_contra fun hc => hs fun h => absurd h hc
        subst hc
        have hkept : (runCall id db (.retryFailed m)).StoredAt id (Int32.maxValue, st) := by
          rwa [runCall_max h]
        exact ih hkept

theorem runCalls_append (calls calls' : List RetryCall) :
    db.runCalls id (calls ++ calls') = (db.runCalls id calls).runCalls id calls' :=
  List.foldl_append

/-- A reset brings the two sides together, wherever they were. -/
theorem storedAt_runCalls_of_reset {calls : List RetryCall} {p q : Int32 × ProcessingState}
    (h : db.StoredAt id p) (hreset : RetryCall.resetForRetry ∈ calls) :
    (db.runCalls id calls).StoredAt id (calls.foldl RetryCall.next q) := by
  obtain ⟨before, after, rfl⟩ := List.append_of_mem hreset
  obtain ⟨p', hp'⟩ : ∃ p', (db.runCalls id before).StoredAt id p' := exists_storedAt_runCalls h
  have hafter : ((runCall id (db.runCalls id before) .resetForRetry).runCalls id after).StoredAt id
      (after.foldl RetryCall.next resetState) :=
    settled_resetState.storedAt_runCalls (storedAt_runCall_reset hp')
  rw [runCalls_append, List.foldl_append]
  exact hafter

/-- Without a reset, a receipt at the maximal count keeps its row. -/
theorem runCalls_max {calls : List RetryCall} (h : db.StoredAt id (Int32.maxValue, st))
    (hno : RetryCall.resetForRetry ∉ calls) : db.runCalls id calls = db := by
  induction calls with
  | nil => rfl
  | cons call calls ih =>
    rw [List.mem_cons, not_or] at hno
    cases call with
    | resetForRetry => exact absurd rfl hno.1
    | retryFailed m =>
      show (runCall id db (.retryFailed m)).runCalls id calls = db
      rw [runCall_max h, ih hno.2]

/-- Without a reset, the fold from the maximal count ends dead-lettered. -/
theorem foldl_next_max {calls : List RetryCall} (hne : calls ≠ [])
    (hno : RetryCall.resetForRetry ∉ calls) :
    calls.foldl RetryCall.next (Int32.maxValue, st) = (Int32.maxValue, .deadLettered) := by
  induction calls generalizing st with
  | nil => exact absurd rfl hne
  | cons call calls ih =>
    rw [List.mem_cons, not_or] at hno
    cases call with
    | resetForRetry => exact absurd rfl hno.1
    | retryFailed m =>
      rw [List.foldl_cons, RetryCall.next, retryNextState_max]
      by_cases hcalls : calls = []
      · rw [hcalls, List.foldl_nil]
      · exact ih hcalls hno.2

/-- The count is at its maximum, the receipt is not dead-lettered, and a retry is counted that no
reset makes up for. -/
def Overflows (p : Int32 × ProcessingState) (calls : List RetryCall) : Prop :=
  p.1 = Int32.maxValue ∧ p.2 ≠ .deadLettered ∧ calls ≠ [] ∧ RetryCall.resetForRetry ∉ calls

/-- **The SQL ends where the fold ends, unless the count overflows.** -/
theorem storedAt_runCalls_iff {p : Int32 × ProcessingState} {calls : List RetryCall}
    (h : db.StoredAt id p) :
    (db.runCalls id calls).StoredAt id (calls.foldl RetryCall.next p) ↔ ¬ Overflows p calls := by
  constructor
  · rintro hstored ⟨hmax, hst, hne, hno⟩
    obtain ⟨c, st⟩ := p
    simp only at hmax hst
    subst hmax
    rw [runCalls_max h hno, foldl_next_max hne hno] at hstored
    exact hst (congrArg Prod.snd (h.unique hstored))
  · intro hover
    by_cases hs : Settled p
    · exact hs.storedAt_runCalls h
    by_cases hreset : RetryCall.resetForRetry ∈ calls
    · exact storedAt_runCalls_of_reset h hreset
    · -- Not settled and no reset: there is no call at all.
      have hmax : p.1 = Int32.maxValue := by_contra fun hc => hs fun h => absurd h hc
      have hst : p.2 ≠ .deadLettered := fun hst => hs fun _ => hst
      have hnil : calls = [] := by_contra fun hne => hover ⟨hmax, hst, hne, hreset⟩
      rw [hnil]
      exact h

/-! ## 5. The query of the worker -/

/-- The row stores a state with which `is_findable_by_worker` holds. -/
def Findable (maxAttempts : Int32) (row : ReceiptRow) : Prop :=
  ∃ st : ProcessingState, row.processingState = st.text ∧
    isFindableByWorker row.emitCount st maxAttempts = true

theorem isFindableByWorker_iff {n m : Int32} {st : ProcessingState} :
    isFindableByWorker n st m = true ↔ st = .emitFailed ∧ n < m := by
  simp [isFindableByWorker]

/-- **The `WHERE` clause is `is_findable_by_worker`.** -/
theorem forRetry_iff {m : Int32} {row : ReceiptRow} : ForRetry m row ↔ Findable m row := by
  constructor
  · rintro ⟨hst, hcount⟩
    exact ⟨.emitFailed, hst, isFindableByWorker_iff.mpr ⟨rfl, hcount⟩⟩
  · rintro ⟨st, hst, hfind⟩
    obtain ⟨rfl, hcount⟩ := isFindableByWorker_iff.mp hfind
    exact ⟨hst, hcount⟩

instance (maxAttempts : Int32) : DecidablePred (Findable maxAttempts) := fun _ =>
  decidable_of_iff _ forRetry_iff

/-- What `query_for_retry` answers, on any order of the rows that the database may choose. -/
structure QueryMirrors (db : Database) (maxAttempts : Int32) : Prop where
  only : ∀ rows receipts, db.RetryRows maxAttempts rows → queryForRetry rows = .ok receipts →
    ∀ receipt ∈ receipts,
      isFindableByWorker receipt.emitCount receipt.processingState maxAttempts = true ∧
        ∃ row ∈ db.receipts.rows, receiptFromRow row = .ok receipt
  all : (db.receipts.rows.countP fun row => Findable maxAttempts row) ≤ 100 →
    ∀ rows receipts, db.RetryRows maxAttempts rows → queryForRetry rows = .ok receipts →
      ∀ row ∈ db.receipts.rows, Findable maxAttempts row →
        ∃ receipt ∈ receipts, receiptFromRow row = .ok receipt
  returns : (∀ row ∈ db.receipts.rows, row.Readable) →
    ∀ rows, db.RetryRows maxAttempts rows → ∃ receipts, queryForRetry rows = .ok receipts

theorem queryForRetry_eq (rows : List ReceiptRow) :
    queryForRetry rows = (rows.take 100).mapM receiptFromRow := rfl

theorem RetryRows.mem_iff {m : Int32} {rows : List ReceiptRow} (h : db.RetryRows m rows)
    {row : ReceiptRow} : row ∈ rows ↔ row ∈ db.receipts.rows ∧ ForRetry m row := by
  rw [h.1.mem_iff, List.mem_filter, decide_eq_true_eq]

theorem RetryRows.length_eq {m : Int32} {rows : List ReceiptRow} (h : db.RetryRows m rows) :
    rows.length = db.receipts.rows.countP fun row => Findable m row := by
  rw [h.1.length_eq, ← List.countP_eq_length_filter]
  exact List.countP_congr fun row _ => by simp only [decide_eq_true_eq, forRetry_iff]

/-- **`query_for_retry` is `is_findable_by_worker`**, on every database and for every limit. -/
theorem queryForRetry_spec (db : Database) (m : Int32) : db.QueryMirrors m where
  only := by
    intro rows receipts hrows hok receipt hreceipt
    rw [queryForRetry_eq, Except.mapM_eq_ok_iff] at hok
    obtain ⟨row, hrow, hdecode⟩ := hok.exists_right hreceipt
    obtain ⟨hmem, hst, hcount⟩ := hrows.mem_iff.mp (List.mem_of_mem_take hrow)
    obtain ⟨-, hst', hcolumns⟩ := receiptFromRow_columns hdecode
    have hcount' : row.emitCount = receipt.emitCount := congrArg (·.emitCount) hcolumns
    have hfailed : receipt.processingState = .emitFailed := by
      have htext : ProcessingState.ofText row.processingState = .ok .emitFailed := by
        rw [hst]
        exact ProcessingState.ofText_text .emitFailed
      rw [hst', Except.ok.injEq] at htext
      exact htext
    exact ⟨isFindableByWorker_iff.mpr ⟨hfailed, hcount' ▸ hcount⟩, row, hmem, hdecode⟩
  all := by
    intro hlength rows receipts hrows hok row hrow hfind
    rw [queryForRetry_eq, List.take_of_length_le (hrows.length_eq ▸ hlength),
      Except.mapM_eq_ok_iff] at hok
    exact hok.exists_left (hrows.mem_iff.mpr ⟨hrow, forRetry_iff.mpr hfind⟩)
  returns := by
    intro hread rows hrows
    rw [queryForRetry_eq, Except.mapM_succeeds_iff]
    intro row hrow
    exact readable_iff.mp (hread row (hrows.mem_iff.mp (List.mem_of_mem_take hrow)).1)

/-! ## 6. From a reset to the dead letter -/

/-- The pair after a reset and `k` failed retries under the limit `m`. -/
def afterRetries (m : Int32) (k : Nat) : Int32 × ProcessingState :=
  (Int32.ofNat k, if k < m.toInt.toNat then .emitFailed else .deadLettered)

/-- One failed retry under the limit is one step of the count. -/
theorem retryNextState_ofNat {m : Int32} {k : Nat} (hk : k < m.toInt.toNat) :
    retryNextState (Int32.ofNat k) m = afterRetries m (k + 1) := by
  have hmax : Int32.maxValue.toInt = 2147483647 := rfl
  have hm := m.toInt_le
  have hint : (Int32.ofNat k).toInt = k := Int32.toInt_ofNat_of_lt (by omega)
  have hint' : (Int32.ofNat (k + 1)).toInt = (k + 1 : Nat) := Int32.toInt_ofNat_of_lt (by omega)
  have hne : Int32.ofNat k ≠ Int32.maxValue := fun heq => by
    have := congrArg Int32.toInt heq
    omega
  have hsucc : Int32.ofNat k + 1 = Int32.ofNat (k + 1) :=
    Int32.toInt_inj.mp (by rw [toInt_succ hne, hint, hint', Nat.cast_succ])
  have hlimit : Int32.ofNat (k + 1) ≥ m ↔ ¬ k + 1 < m.toInt.toNat := by
    rw [ge_iff_le, Int32.le_iff_toInt_le, hint']
    omega
  rw [retryNextState_of_ne hne, hsucc, afterRetries]
  simp only [hlimit, ite_not]

/-- **The failed retries after a reset**, one after the other. -/
theorem foldl_retryFailed {m : Int32} (hm : 1 ≤ m) {p : Int32 × ProcessingState} {k : Nat}
    (hk : k ≤ m.toInt.toNat) :
    (RetryCall.resetForRetry :: List.replicate k (.retryFailed m)).foldl RetryCall.next p
      = afterRetries m k := by
  have hone : 1 ≤ m.toInt := Int32.le_iff_toInt_le.mp hm
  rw [List.foldl_cons]
  show (List.replicate k (.retryFailed m)).foldl RetryCall.next resetState = _
  induction k with
  | zero =>
    have hpos : 0 < m.toInt.toNat := by omega
    rw [List.replicate_zero, List.foldl_nil, afterRetries, if_pos hpos]
    rfl
  | succ k ih =>
    rw [List.replicate_succ', List.foldl_append, ih (by omega), List.foldl_cons, List.foldl_nil]
    exact retryNextState_ofNat (by omega)

/-- Only the last of them takes the receipt from the worker. -/
theorem isFindable_afterRetries {m : Int32} {k : Nat} (hk : k ≤ m.toInt.toNat) :
    isFindableByWorker (afterRetries m k).1 (afterRetries m k).2 m
      = decide (k < m.toInt.toNat) := by
  have hmax : Int32.maxValue.toInt = 2147483647 := rfl
  have hm := m.toInt_le
  have hint : (Int32.ofNat k).toInt = k := Int32.toInt_ofNat_of_lt (by omega)
  by_cases hlt : k < m.toInt.toNat
  · have hcount : Int32.ofNat k < m := by
      rw [Int32.lt_iff_toInt_lt, hint]
      omega
    rw [afterRetries, if_pos hlt, decide_eq_true hlt]
    exact isFindableByWorker_iff.mpr ⟨rfl, hcount⟩
  · rw [afterRetries, if_neg hlt, decide_eq_false hlt]
    rfl

/-- What a receipt stores `k` failed retries after a reset, for every `k` up to the limit. -/
def LeadsToDeadLetter (db : Database) (id : ReceiptId) (m : Int32) : Prop :=
  ∀ k ≤ m.toInt.toNat, ∃ n st,
    (db.runCalls id (.resetForRetry :: List.replicate k (.retryFailed m))).StoredAt id (n, st) ∧
      n.toInt = k ∧
      (k < m.toInt.toNat → st = .emitFailed ∧ isFindableByWorker n st m = true) ∧
      (k = m.toInt.toNat → st = .deadLettered ∧ isFindableByWorker n st m = false)

theorem leadsToDeadLetter {p : Int32 × ProcessingState} (h : db.StoredAt id p) {m : Int32}
    (hm : 1 ≤ m) : db.LeadsToDeadLetter id m := by
  intro k hk
  have hbound := m.toInt_le
  have hmax : Int32.maxValue.toInt = 2147483647 := rfl
  have hstored := storedAt_runCalls_of_reset (q := p) h
    (List.mem_cons_self : RetryCall.resetForRetry ∈ .resetForRetry :: List.replicate k (.retryFailed m))
  rw [foldl_retryFailed hm hk] at hstored
  have hfind := isFindable_afterRetries hk
  refine ⟨_, _, hstored, Int32.toInt_ofNat_of_lt (by omega), ?_, ?_⟩
  · intro hlt
    exact ⟨if_pos hlt, hfind.trans (decide_eq_true hlt)⟩
  · intro heq
    have hnot : ¬ k < m.toInt.toNat := by omega
    exact ⟨if_neg hnot, hfind.trans (decide_eq_false hnot)⟩

/-! ## 7. Agreement -/

/-- The SQL mirrors the functions: along the calls, in the worker's query, and on the way from a
reset to the dead letter. -/
structure RetryMirrors (db : Database) (id : ReceiptId) (p : Int32 × ProcessingState)
    (calls : List RetryCall) (maxAttempts : Int32) : Prop where
  folds : (db.runCalls id calls).StoredAt id (calls.foldl RetryCall.next p)
  query : db.QueryMirrors maxAttempts
  deadLetters : 1 ≤ maxAttempts → db.LeadsToDeadLetter id maxAttempts

end Database

/-- **The SQL mirrors the functions exactly if the count does not overflow.**  The receipt may store
any pair, each call may have a limit of its own, and the database may hold other receipts. -/
theorem retry_mirrors_iff {db : Database} {id : ReceiptId} {p : Int32 × ProcessingState}
    (h : db.StoredAt id p) (calls : List RetryCall) (maxAttempts : Int32) :
    db.RetryMirrors id p calls maxAttempts ↔ ¬ Database.Overflows p calls := by
  constructor
  · intro hmirrors
    exact (Database.storedAt_runCalls_iff h).mp hmirrors.folds
  · intro hover
    exact
      { folds := (Database.storedAt_runCalls_iff h).mpr hover
        query := Database.queryForRetry_spec db maxAttempts
        deadLetters := Database.leadsToDeadLetter h }

/-- One receipt with the given pair. -/
def storing (p : Int32 × ProcessingState) : Database where
  receipts := ⟨[{ sampleReceipt.toRow with emitCount := p.1, processingState := p.2.text }],
    List.nodup_singleton _⟩
  deliveries := .empty
  dedupeIndex := List.nodup_singleton _
  receiptFk := by intro d hd; simp at hd

theorem storedAt_storing (p : Int32 × ProcessingState) :
    (storing p).StoredAt sampleReceipt.receiptId p :=
  ⟨_, Table.get?_eq_some_iff.mpr ⟨List.mem_singleton.mpr rfl, rfl⟩, rfl, rfl⟩

theorem retry_mirrors_iff_below_max :
    (storing (2, .emitFailed)).RetryMirrors sampleReceipt.receiptId (2, .emitFailed)
      [.retryFailed 5, .resetForRetry, .retryFailed 5] 5 :=
  (retry_mirrors_iff (storedAt_storing _) _ 5).mpr fun h => absurd h.1 (by decide)

/-- **One failed retry at the maximum**: the function dead-letters the receipt, the statement fails
and the receipt stays where the worker does not find it. -/
theorem retry_overflows :
    (storing (2147483647, .emitFailed)).StoredAt sampleReceipt.receiptId
        (2147483647, .emitFailed) ∧
      (storing (2147483647, .emitFailed)).retryFailed sampleReceipt.receiptId 5
        = .error (.internal "integer out of range") ∧
      retryNextState 2147483647 5 = (2147483647, .deadLettered) ∧
      ¬ (storing (2147483647, .emitFailed)).RetryMirrors sampleReceipt.receiptId
        (2147483647, .emitFailed) [.retryFailed 5] 5 := by
  have h := storedAt_storing (2147483647, .emitFailed)
  refine ⟨h, Database.retryFailed_max h 5, retryNextState_max 5, fun hmirrors => ?_⟩
  have hstored := hmirrors.folds
  rw [Database.runCalls_max h (by simp)] at hstored
  have hpair := h.unique hstored
  exact absurd hpair (by decide)

end Hookbox
