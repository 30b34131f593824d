/-
# Exactly-once acceptance

Acceptance is decided across many awaits, by many callers at once, and any of their storage calls
can fail.  What decides is the unique index on `dedupe_key`, inside the transaction that also
inserts the delivery rows; the advisory checks before it and the cache after it decide nothing.

* `ReceiptRow.Canonical`: the key of a row is computed from its provider and its body.  Every row
  `ingest` commits is canonical, so with SHA-256 free of collisions the index identifies
  `(provider, body)`.
* `exactly_once_acceptance`: at most one receipt and one `Accepted` for each pair, every other
  answer names that receipt, and the fan-out is atomic.
-/
import Hookbox.Intake

namespace Hookbox

open Event (commits)

/-! ## 1. Dedupe keys and pairs -/

/-- The row's key is the one `ingest` computes from its provider and its body. -/
def ReceiptRow.Canonical (lib : Libraries) (row : ReceiptRow) : Prop :=
  row.dedupeKey = Hookbox.dedupeKey row.providerName (computePayloadHash lib row.rawBody)

/-- The row of a pair. -/
def Database.ReceiptFor (db : Database) (provider : String) (body : Bytes) (row : ReceiptRow) :
    Prop :=
  row ∈ db.receipts.rows ∧ row.providerName = provider ∧ row.rawBody = body

/-- The bodies that a run has to do with: those of its requests and those stored at its start. -/
def bodies (h : List Event) (db : Database) : Set Bytes :=
  {body | (∃ call req utcNow, .requested call req utcNow ∈ h ∧ req.body = body) ∨
    ∃ row ∈ db.receipts.rows, row.rawBody = body}

theorem ReceiptRow.Canonical.of_content {lib : Libraries} {row row' : ReceiptRow}
    (hc : row'.content = row.content) (h : row.Canonical lib) : row'.Canonical lib := by
  have hkey : row'.dedupeKey = row.dedupeKey := congrArg (·.dedupeKey) hc
  have hprov : row'.providerName = row.providerName := congrArg (·.providerName) hc
  have hbody : row'.rawBody = row.rawBody := congrArg (·.rawBody) hc
  rw [Canonical, hkey, hprov, hbody]
  exact h

theorem IngestCall.receipt_canonical (lib : Libraries) (c : IngestCall) (utcNow : Timestamp) :
    (c.receipt lib utcNow).toRow.Canonical lib := rfl

section Runs

variable {dep : Deployment} {db : Database} {ls : List Label} {s : Sys}
  (h : (system dep).exec (.start dep db) ls = some s)

include h

/-- A run keeps the rows canonical. -/
theorem system_canonical (hdb : ∀ r ∈ db.receipts.rows, r.Canonical dep.lib) {row : ReceiptRow}
    (hrow : row ∈ s.db.receipts.rows) : row.Canonical dep.lib := by
  rcases system_row_origin h hrow with ⟨r, hr, hc⟩ | ⟨call, receipt, names, hev, hc⟩
  · exact (hdb r hr).of_content hc.symm
  · obtain ⟨c, utcNow, receivedAt, -, -, rfl, -⟩ := system_stored_request h hev
    exact (c.receipt_canonical dep.lib receivedAt).of_content hc

/-- The body of a row is one the run has to do with. -/
theorem system_row_body {row : ReceiptRow} (hrow : row ∈ s.db.receipts.rows) :
    row.rawBody ∈ bodies ((system dep).trace (.start dep db) ls) db := by
  rcases system_row_origin h hrow with ⟨r, hr, hc⟩ | ⟨call, receipt, names, hev, hc⟩
  · exact Or.inr ⟨r, hr, congrArg (·.rawBody) hc⟩
  · obtain ⟨c, utcNow, receivedAt, hreq, -, rfl, -⟩ := system_stored_request h hev
    exact Or.inl ⟨call, c.req, utcNow, hreq, (congrArg (·.rawBody) hc).symm⟩

/-- **No two commits have the same dedupe key.** -/
theorem system_commits_nodup :
    ((commits ((system dep).trace (.start dep db) ls)).map (·.receipt.dedupeKey)).Nodup := by
  have hkeys : s.db.receipts.rows.map ReceiptRow.dedupeKey
      = (s.db.receipts.rows.map (·.content)).map ReceiptRow.dedupeKey := by
    rw [List.map_map]
    rfl
  have hnd := s.db.dedupeIndex
  rw [hkeys, system_receipts h, List.map_append, List.nodup_append] at hnd
  have hcommits := hnd.2.1
  rw [List.map_map] at hcommits
  exact hcommits

/-- A call that answers `Duplicate` names a row with the key of its request. -/
theorem system_duplicate_row {call : CallId} {id : ReceiptId}
    (hret : .returned call (.ok (.duplicate id)) ∈ (system dep).trace (.start dep db) ls)
    {req : Request} {utcNow : Timestamp}
    (hreq : .requested call req utcNow ∈ (system dep).trace (.start dep db) ls) :
    ∃ row ∈ s.db.receipts.rows, row.receiptId = id ∧
      row.dedupeKey = dedupeKey req.provider (computePayloadHash dep.lib req.body) := by
  obtain ⟨before, l, after, t, t', rfl, hbefore, hstep, hobs, hafter⟩ :=
    Lts.exists_step_of_mem_trace h hret
  rcases system_call_cases hstep with ⟨call', o, heff, rfl, hes⟩ | ⟨-, hnone⟩
  · rw [hes] at hobs
    obtain rfl : call' = call := by
      have := heff.callOf _ hobs
      simpa [Event.callOf] using this.symm
    obtain ⟨c, row, hphase, hrow, rfl⟩ := heff.duplicate_row hobs
    -- The request in the history is the one the call works on.
    obtain ⟨utcNow', hown, -⟩ := (system_callTrace hbefore call').of_undecided hphase
    have hreq' : .requested call' c.req utcNow'
        ∈ (system dep).trace (.start dep db) (before ++ l :: after) := by
      rw [Lts.trace_append hbefore]
      have hmem : .requested call' c.req utcNow'
          ∈ Event.ofCall call' ((system dep).trace (.start dep db) before) := by
        rw [hown]
        exact List.mem_singleton.mpr rfl
      exact List.mem_append_left _ (Event.mem_of_mem_ofCall hmem)
    obtain ⟨rfl, -⟩ := (system_callTrace h call').request_unique (Event.mem_ofCall hreq rfl)
      (Event.mem_ofCall hreq' rfl)
    have hmem : row ∈ t.db.receipts.rows := List.mem_of_find?_eq_some hrow
    have hkey : row.dedupeKey = c.dedupeKey dep.lib := by simpa using List.find?_some hrow
    obtain ⟨row', hrow', hc⟩ :=
      ((system_step_cases hstep).sameReceipts.trans (system_sameReceipts hafter)) row hmem
    exact ⟨row', hrow', congrArg (·.receiptId) hc, (congrArg (·.dedupeKey) hc).trans hkey⟩
  · exact absurd (hnone _ hobs) (by simp [Event.callOf])

end Runs

/-! ## 2. Atomic fan-out -/

/-- **The fan-out of one step.**  A commit adds one receipt, and with it exactly one pending,
mutable row for each emitter name; these are all the rows the receipt then has.  Without a commit
no receipt is added, and an ingest step changes nothing in the database. -/
def AtomicFanOut (dep : Deployment) (names : List String) (_h : List Event) (s : Sys) (l : Label) :
    Prop :=
  ∀ s', (system dep).step s l = some s' →
    (∀ k ∈ commits ((system dep).obs s l),
      s'.db.receipts.rows = s.db.receipts.rows ++ [k.receipt.toRow] ∧
      ∃ new, s'.db.deliveries.rows = s.db.deliveries.rows ++ new ∧
        (s'.db.deliveries.rows.filter fun d => d.receiptId = k.receipt.receiptId) = new ∧
        (∀ name ∈ names, ∃! d, d ∈ new ∧ d.emitterName = name) ∧
        ∀ d ∈ new, d.emitterName ∈ names ∧ d.state = .pending ∧ d.immutable = false) ∧
    (commits ((system dep).obs s l) = [] →
      s'.db.receipts.keys = s.db.receipts.keys ∧ ∀ call step, l = .ingest call step → s'.db = s.db)

/-- With distinct names, the fan-out has exactly one row for each of them. -/
theorem Database.existsUnique_mem_newDeliveries (receiptId : ReceiptId) (now : Timestamp)
    {names : List String} (hnd : names.Nodup) (draw : Nat → DeliveryId) {name : String}
    (hname : name ∈ names) :
    ∃! d, d ∈ newDeliveries receiptId now names draw ∧ d.emitterName = name := by
  have hmap := newDeliveries_names receiptId now names draw
  rw [← hmap] at hname hnd
  obtain ⟨d, hd, hdn⟩ := List.mem_map.mp hname
  refine ⟨d, ⟨hd, hdn⟩, ?_⟩
  rintro d' ⟨hd', hdn'⟩
  exact List.inj_on_of_nodup_map hnd hd' hd (hdn'.trans hdn.symm)

theorem Commit.Made.fanOut {k : Commit} {pipe : Pipeline} {db db' : Database}
    (hk : k.Made pipe db db') (hnd : pipe.emitterNames.Nodup) :
    ∃ new, db'.deliveries.rows = db.deliveries.rows ++ new ∧
      (db'.deliveries.rows.filter fun d => d.receiptId = k.receipt.receiptId) = new ∧
      (∀ name ∈ pipe.emitterNames, ∃! d, d ∈ new ∧ d.emitterName = name) ∧
      ∀ d ∈ new, d.emitterName ∈ pipe.emitterNames ∧ d.state = .pending ∧ d.immutable = false := by
  obtain ⟨now, draw, hrows⟩ := hk.deliveries
  rw [hk.names] at hrows
  refine ⟨_, hrows, ?_, ?_, ?_⟩
  · -- No older row refers to the new receipt.
    have hold : (db.deliveries.rows.filter fun d => d.receiptId = k.receipt.receiptId) = [] := by
      rw [List.filter_eq_nil_iff]
      intro d hd hrid
      rw [decide_eq_true_eq] at hrid
      exact hk.id (hrid ▸ db.receiptFk d hd)
    rw [hrows, List.filter_append, hold, List.nil_append, List.filter_eq_self]
    intro d hd
    obtain ⟨i, name, -, rfl⟩ := Database.mem_newDeliveries hd
    simp [Database.newDelivery]
  · intro name hname
    exact Database.existsUnique_mem_newDeliveries _ now hnd draw hname
  · intro d hd
    obtain ⟨i, name, hname, rfl⟩ := Database.mem_newDeliveries hd
    exact ⟨hname, rfl, rfl⟩

theorem atomicFanOut {dep : Deployment} {names : List String}
    (hnames : ∀ i, (dep.servers i).emitterNames = names) (hnd : names.Nodup) (h : List Event)
    (s : Sys) (l : Label) : AtomicFanOut dep names h s l := by
  intro s' hstep
  constructor
  · intro k hk
    rcases system_commit_cases hstep with ⟨k', hone, hmade⟩ | ⟨hnone, -⟩
    · rw [hone, List.mem_singleton] at hk
      subst hk
      have hfan := hmade.fanOut (by rw [hnames]; exact hnd)
      rw [hnames] at hfan
      exact ⟨hmade.receipts, hfan⟩
    · rw [hnone] at hk
      exact absurd hk (by simp)
  · intro hnone
    constructor
    · rcases system_commit_cases hstep with ⟨k, hone, -⟩ | ⟨-, hsame⟩
      · rw [hone] at hnone
        exact absurd hnone (by simp)
      · have hkeys := congrArg (List.map ReceiptRow.receiptId) hsame
        rw [List.map_map, List.map_map] at hkeys
        exact hkeys
    · rintro call step rfl
      obtain ⟨o, heff, rfl, hobs⟩ := system_ingest hstep
      rw [hobs] at hnone
      rcases heff.commit_cases with ⟨hdb, -⟩ | ⟨k, hone, -⟩
      · exact hdb
      · rw [hone] at hnone
        exact absurd hnone (by simp)

/-! ## 3. Exactly once -/

/-- **Exactly-once acceptance**, as a property of a history and the database it led to. -/
structure ExactlyOnce (dep : Deployment) (h : List Event) (db : Database) : Prop where
  /-- No two receipts are for the same pair, ... -/
  oneReceipt : db.receipts.rows.Pairwise fun r r' =>
    ¬ (r.providerName = r'.providerName ∧ r.rawBody = r'.rawBody)
  /-- ... and no two were ever committed. -/
  oneCommit : (commits h).Pairwise fun k k' =>
    ¬ (k.receipt.providerName = k'.receipt.providerName ∧ k.receipt.rawBody = k'.receipt.rawBody)
  /-- At most one call for a pair returns `Accepted`. -/
  oneAccepted : ∀ {call call' req req' utcNow utcNow' id id'},
    .requested call req utcNow ∈ h → .requested call' req' utcNow' ∈ h →
    req.provider = req'.provider → req.body = req'.body →
    .returned call (.ok (.accepted id)) ∈ h → .returned call' (.ok (.accepted id')) ∈ h →
    call = call'
  /-- A call that returns `Accepted` returns the id of the receipt it stored. -/
  acceptedOwn : ∀ {call id}, .returned call (.ok (.accepted id)) ∈ h →
    ∃ receipt names, .stored call receipt names ∈ h ∧ receipt.receiptId = id
  /-- A call that passed verification and returns `Ok` names the one receipt of its pair, as its
  own or as the one that was there. -/
  answer : ∀ {call req utcNow v res}, .requested call req utcNow ∈ h →
    (dep.servers call.server).verify utcNow req = .ok v → .returned call (.ok res) ∈ h →
    ∃ row, db.ReceiptFor req.provider req.body row ∧
      (res = .accepted row.receiptId ∨ res = .duplicate row.receiptId)
  /-- A call that returns `Ok` otherwise than with `Accepted` has stored nothing. -/
  notStored : ∀ {call res}, .returned call (.ok res) ∈ h → (∀ id, res ≠ .accepted id) →
    ∀ k ∈ commits h, k.call ≠ call

section

variable {dep : Deployment} {db : Database} {ls : List Label} {s : Sys}
  (h : (system dep).exec (.start dep db) ls = some s)

include h

/-- The row that a call has accepted. -/
theorem system_accepted_row {call : CallId} {id : ReceiptId}
    (hret : .returned call (.ok (.accepted id)) ∈ (system dep).trace (.start dep db) ls)
    {req : Request} {utcNow : Timestamp}
    (hreq : .requested call req utcNow ∈ (system dep).trace (.start dep db) ls) :
    ∃ receipt names, .stored call receipt names ∈ (system dep).trace (.start dep db) ls ∧
      receipt.receiptId = id ∧ receipt.providerName = req.provider ∧ receipt.rawBody = req.body := by
  have htrace := system_callTrace h call
  obtain ⟨receipt, hstored, hid⟩ := htrace.of_accepted (Event.mem_ofCall hret rfl)
  obtain ⟨c, utcNow', receivedAt, hreq', -, rfl, -⟩ := htrace.of_stored hstored
  obtain ⟨rfl, -⟩ := htrace.request_unique (Event.mem_ofCall hreq rfl) hreq'
  exact ⟨_, _, Event.mem_of_mem_ofCall hstored, hid, rfl, rfl⟩

/-- Two commits for one pair are the same commit. -/
theorem system_commit_unique {k k' : Commit}
    (hk : k ∈ commits ((system dep).trace (.start dep db) ls))
    (hk' : k' ∈ commits ((system dep).trace (.start dep db) ls))
    (hp : k.receipt.providerName = k'.receipt.providerName)
    (hb : k.receipt.rawBody = k'.receipt.rawBody) : k = k' := by
  obtain ⟨c, -, receivedAt, -, -, hc, -⟩ := system_stored_request h (Event.mem_commits.mp hk)
  obtain ⟨c', -, receivedAt', -, -, hc', -⟩ := system_stored_request h (Event.mem_commits.mp hk')
  refine List.inj_on_of_nodup_map (system_commits_nodup h) hk hk' ?_
  rw [hc, hc'] at hp hb ⊢
  simp only [IngestCall.receipt] at hp hb ⊢
  rw [IngestCall.dedupeKey, IngestCall.dedupeKey, IngestCall.payloadHash, IngestCall.payloadHash,
    hp, hb]

/-- The key of a row leads back to its pair, unless two bodies collide. -/
theorem system_key_pair (hdb : ∀ r ∈ db.receipts.rows, r.Canonical dep.lib)
    (hsha : Set.InjOn dep.lib.sha256 (bodies ((system dep).trace (.start dep db) ls) db))
    {call : CallId} {req : Request} {utcNow : Timestamp}
    (hreq : .requested call req utcNow ∈ (system dep).trace (.start dep db) ls) {row : ReceiptRow}
    (hrow : row ∈ s.db.receipts.rows)
    (hkey : row.dedupeKey = dedupeKey req.provider (computePayloadHash dep.lib req.body)) :
    s.db.ReceiptFor req.provider req.body row := by
  rw [system_canonical h hdb hrow] at hkey
  obtain ⟨hp, hdigest⟩ := dedupeKey_injective hkey
  exact ⟨hrow, hp, hsha (system_row_body h hrow) (Or.inl ⟨call, req, utcNow, hreq, rfl⟩) hdigest⟩

end

/-- **Exactly-once acceptance with atomic fan-out.**  On every run of any number of servers with the
same distinct emitter names, from a database whose keys `ingest` computed, and with no collision
of SHA-256 among the bodies at hand: for each pair of provider and body at most one receipt and
one `Accepted`, every `Ok` answer names that receipt, and every commit is an atomic fan-out. -/
theorem exactly_once_acceptance {dep : Deployment} {names : List String}
    (hnames : ∀ i, (dep.servers i).emitterNames = names) (hnd : names.Nodup) {db : Database}
    (hdb : ∀ r ∈ db.receipts.rows, r.Canonical dep.lib) {ls : List Label} {s : Sys}
    (h : (system dep).exec (.start dep db) ls = some s)
    (hsha : Set.InjOn dep.lib.sha256 (bodies ((system dep).trace (.start dep db) ls) db)) :
    ExactlyOnce dep ((system dep).trace (.start dep db) ls) s.db ∧
      (system dep).EveryStep (AtomicFanOut dep names) (.start dep db) ls := by
  refine ⟨⟨?_, ?_, ?_, ?_, ?_, ?_⟩, fun _ l _ t _ _ => atomicFanOut hnames hnd _ t l⟩
  · refine s.db.receipts.nodup_rows.imp_of_mem fun {r r'} hr hr' hne hpair => hne ?_
    refine List.inj_on_of_nodup_map s.db.dedupeIndex hr hr' ?_
    rw [system_canonical h hdb hr, system_canonical h hdb hr', hpair.1, hpair.2]
  · refine (system_commits_nodup h).of_map.imp_of_mem fun {k k'} hk hk' hne hpair => hne ?_
    exact system_commit_unique h hk hk' hpair.1 hpair.2
  · intro call call' req req' utcNow utcNow' id id' hreq hreq' hp hb hret hret'
    obtain ⟨r, ns, hst, -, hrp, hrb⟩ := system_accepted_row h hret hreq
    obtain ⟨r', ns', hst', -, hrp', hrb'⟩ := system_accepted_row h hret' hreq'
    have hk : (⟨call, r, ns⟩ : Commit) ∈ commits ((system dep).trace (.start dep db) ls) :=
      Event.mem_commits.mpr hst
    have hk' : (⟨call', r', ns'⟩ : Commit) ∈ commits ((system dep).trace (.start dep db) ls) :=
      Event.mem_commits.mpr hst'
    have heq := system_commit_unique h hk hk' ((hrp.trans hp).trans hrp'.symm)
      ((hrb.trans hb).trans hrb'.symm)
    exact congrArg (·.call) heq
  · intro call id hret
    obtain ⟨receipt, hst, hid⟩ := (system_callTrace h call).of_accepted (Event.mem_ofCall hret rfl)
    exact ⟨receipt, _, Event.mem_of_mem_ofCall hst, hid⟩
  · intro call req utcNow v res hreq hverify hret
    cases res with
    | verificationFailed reason =>
      exact absurd (Event.mem_ofCall hret rfl) ((system_callTrace h call).not_turnedAway
        (Event.mem_ofCall hreq rfl) hverify reason)
    | accepted id =>
      obtain ⟨receipt, ns, hst, rfl, hp, hb⟩ := system_accepted_row h hret hreq
      obtain ⟨row, hrow, hc⟩ := system_stored_row h hst
      have hid : row.receiptId = receipt.receiptId := congrArg (·.receiptId) hc
      have hprov : row.providerName = receipt.providerName := congrArg (·.providerName) hc
      have hbody : row.rawBody = receipt.rawBody := congrArg (·.rawBody) hc
      exact ⟨row, ⟨hrow, hprov.trans hp, hbody.trans hb⟩, Or.inl (by rw [hid])⟩
    | duplicate id =>
      obtain ⟨row, hrow, rfl, hkey⟩ := system_duplicate_row h hret hreq
      exact ⟨row, system_key_pair h hdb hsha hreq hrow hkey, Or.inr rfl⟩
  · intro call res hret hres k hk hcall
    subst hcall
    exact (system_callTrace h k.call).not_stored (Event.mem_ofCall hret rfl) hres k.receipt
      k.emitterNames (Event.mem_ofCall (Event.mem_commits.mp hk) rfl)

/-- A second server gets the same request while the first is at work, and loses the race. -/
def raceForOne : List Label :=
  [.ingest ⟨0, 0⟩ (.start ⟨"acme", [], []⟩ ⟨1⟩ 0), .ingest ⟨1, 0⟩ (.start ⟨"acme", [], []⟩ ⟨2⟩ 0),
    .ingest ⟨0, 0⟩ .checkFast, .ingest ⟨1, 0⟩ .checkFast, .ingest ⟨0, 0⟩ .checkStorage,
    .ingest ⟨1, 0⟩ .checkStorage,
    .ingest ⟨0, 0⟩ (.store 0 0 (fun i => ⟨BitVec.ofNat 128 i⟩) .ok ""),
    .ingest ⟨1, 0⟩ (.store 0 0 (fun i => ⟨BitVec.ofNat 128 (i + 1)⟩) .ok ""),
    .ingest ⟨0, 0⟩ .record, .ingest ⟨1, 0⟩ .fetchExisting]

theorem exactly_once_acceptance_race :
    ∃ s, (system sampleDep).exec (.start sampleDep .empty) raceForOne = some s ∧
      ∃ row, s.db.ReceiptFor "acme" [] row ∧
        (IngestResult.duplicate ⟨1⟩ = .accepted row.receiptId ∨
          IngestResult.duplicate ⟨1⟩ = .duplicate row.receiptId) := by
  refine ⟨_, rfl, ?_⟩
  have hbodies : ((system sampleDep).trace (.start sampleDep .empty) raceForOne).all
      (fun ev => match ev with
        | .requested _ req _ => decide (req.body = [])
        | _ => true) = true := by decide
  have hsha : Set.InjOn sampleDep.lib.sha256
      (bodies ((system sampleDep).trace (.start sampleDep .empty) raceForOne) .empty) := by
    have hnil : ∀ b ∈ bodies ((system sampleDep).trace (.start sampleDep .empty) raceForOne) .empty,
        b = [] := by
      rintro b (⟨call, req, utcNow, hreq, rfl⟩ | ⟨row, hrow, -⟩)
      · simpa using List.all_eq_true.mp hbodies _ hreq
      · exact absurd hrow (by simp [Database.empty])
    intro b hb b' hb' _
    rw [hnil b hb, hnil b' hb']
  exact (exactly_once_acceptance (fun _ => rfl) (List.nodup_singleton "kafka") (by simp [Database.empty])
    (show (system sampleDep).exec (.start sampleDep .empty) raceForOne = some _ from rfl)
    hsha).1.answer (List.mem_cons_of_mem _ List.mem_cons_self)
    (show (sampleDep.servers 1).verify 0 ⟨"acme", [], []⟩ = .ok _ from rfl)
    (List.mem_of_getLast? rfl)

end Hookbox
