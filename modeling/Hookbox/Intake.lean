/-
# What the intake leaves behind

Every ingest call leaves its own little history: a request, a commit if there was one, and an
answer.  `CallTrace` lists the histories a call can have in each of its phases; what a result
needs to know about one call is read off it.

* `system_callTrace`: on every run, every call has one of these histories.
* `system_stored`: a commit adds the receipt together with one pending row for each emitter name.
* `system_stored_row`, `system_row_origin`: the receipt rows are, by content, those of the start
  and those of the commits.
-/
import Hookbox.System

namespace Hookbox

/-! ## 1. One call -/

/-- The events of one call. -/
def Event.ofCall (call : CallId) (h : List Event) : List Event :=
  h.filter fun ev => ev.callOf = some call

/-- **The history of a call in each of its phases.** -/
inductive CallTrace (lib : Libraries) (pipe : Pipeline) (call : CallId) :
    CallPhase → List Event → Prop where
  | idle : CallTrace lib pipe call .idle []
  | turnedAway (req : Request) (utcNow : Timestamp) (reason : String)
      (hverify : pipe.verify utcNow req = .error reason) :
      CallTrace lib pipe call (.done (.ok (.verificationFailed reason)))
        [.requested call req utcNow, .returned call (.ok (.verificationFailed reason))]
  | undecided (phase : CallPhase) (c : IngestCall) (utcNow : Timestamp)
      (hphase : phase.undecided = some c)
      (hverify : pipe.verify utcNow c.req = .ok (c.verificationStatus, c.verificationReason)) :
      CallTrace lib pipe call phase [.requested call c.req utcNow]
  | failed (c : IngestCall) (utcNow : Timestamp) (e : IngestError)
      (hverify : pipe.verify utcNow c.req = .ok (c.verificationStatus, c.verificationReason)) :
      CallTrace lib pipe call (.done (.error e))
        [.requested call c.req utcNow, .returned call (.error e)]
  | recording (c : IngestCall) (utcNow receivedAt : Timestamp)
      (hverify : pipe.verify utcNow c.req = .ok (c.verificationStatus, c.verificationReason)) :
      CallTrace lib pipe call (.recording c)
        [.requested call c.req utcNow,
          .stored call (c.receipt lib receivedAt) pipe.emitterNames]
  | storedLost (c : IngestCall) (utcNow receivedAt : Timestamp) (e : IngestError)
      (hverify : pipe.verify utcNow c.req = .ok (c.verificationStatus, c.verificationReason)) :
      CallTrace lib pipe call (.done (.error e))
        [.requested call c.req utcNow,
          .stored call (c.receipt lib receivedAt) pipe.emitterNames, .returned call (.error e)]
  | duplicate (c : IngestCall) (utcNow : Timestamp) (id : ReceiptId)
      (hverify : pipe.verify utcNow c.req = .ok (c.verificationStatus, c.verificationReason)) :
      CallTrace lib pipe call (.done (.ok (.duplicate id)))
        [.requested call c.req utcNow, .returned call (.ok (.duplicate id))]
  | accepted (c : IngestCall) (utcNow receivedAt : Timestamp)
      (hverify : pipe.verify utcNow c.req = .ok (c.verificationStatus, c.verificationReason)) :
      CallTrace lib pipe call (.done (.ok (.accepted c.receiptId)))
        [.requested call c.req utcNow,
          .stored call (c.receipt lib receivedAt) pipe.emitterNames,
          .returned call (.ok (.accepted c.receiptId))]

section

variable {lib : Libraries} {pipe : Pipeline} {call : CallId} {db : Database}
  {cache : InMemoryRecentDedupe} {phase : CallPhase} {o : IngestOutcome} {es : List Event}

/-- A call between verification and the commit has only been requested. -/
theorem CallTrace.of_undecided (h : CallTrace lib pipe call phase es) {c : IngestCall}
    (hphase : phase.undecided = some c) :
    ∃ utcNow, es = [.requested call c.req utcNow] ∧
      pipe.verify utcNow c.req = .ok (c.verificationStatus, c.verificationReason) := by
  cases h with
  | undecided phase c' utcNow hphase' hverify =>
    rw [hphase', Option.some.injEq] at hphase
    subst hphase
    exact ⟨utcNow, rfl, hverify⟩
  | _ => exact absurd hphase (by simp [CallPhase.undecided])

/-- **A step of the call prolongs its history.** -/
theorem CallTrace.step (h : CallTrace lib pipe call phase es)
    (heff : IngestStep.Effect lib pipe call db cache phase o) :
    CallTrace lib pipe call o.next (es ++ o.events) := by
  cases heff with
  | turnedAway req utcNow reason hphase hverify =>
    subst hphase
    cases h with
    | idle => exact .turnedAway req utcNow reason hverify
    | undecided phase c utcNow' hphase hverify' =>
      exact absurd hphase (by simp [CallPhase.undecided])
  | started c utcNow hphase hverify =>
    subst hphase
    cases h with
    | idle => exact .undecided _ c utcNow rfl hverify
    | undecided phase c' utcNow' hphase hverify' =>
      exact absurd hphase (by simp [CallPhase.undecided])
  | proceeded c next hphase hnext =>
    obtain ⟨utcNow, rfl, hverify⟩ := h.of_undecided hphase
    exact .undecided next c utcNow hnext hverify
  | failed c e hphase =>
    obtain ⟨utcNow, rfl, hverify⟩ := h.of_undecided hphase
    exact .failed c utcNow e hverify
  | stored c receivedAt now draw db' hphase hstore =>
    obtain ⟨utcNow, rfl, hverify⟩ := h.of_undecided hphase
    exact .recording c utcNow receivedAt hverify
  | storedLost c receivedAt now draw db' e hphase hstore =>
    obtain ⟨utcNow, rfl, hverify⟩ := h.of_undecided hphase
    exact .storedLost c utcNow receivedAt e hverify
  | duplicate c row hphase hrow =>
    obtain ⟨utcNow, rfl, hverify⟩ := h.of_undecided hphase
    exact .duplicate c utcNow row.receiptId hverify
  | accepted c cache' hphase =>
    subst hphase
    cases h with
    | recording c utcNow receivedAt hverify => exact .accepted c utcNow receivedAt hverify
    | undecided phase c' utcNow hphase hverify =>
      exact absurd hphase (by simp [CallPhase.undecided])

end

/-! ## 2. All calls -/

/-- What a label comes to for the ingest calls: it is a step of one call, or all calls stay as
they were and no call is heard of. -/
theorem system_call_cases {dep : Deployment} {s s' : Sys} {l : Label}
    (h : (system dep).step s l = some s') :
    (∃ call o, IngestStep.Effect dep.lib (dep.servers call.server) call s.db
        (s.caches call.server) (s.calls call) o ∧
      s' = s.afterIngest call o ∧ (system dep).obs s l = o.events) ∨
      (s'.calls = s.calls ∧ ∀ ev ∈ (system dep).obs s l, ev.callOf = none) := by
  cases l with
  | ingest call step =>
    obtain ⟨o, heff, rfl, hobs⟩ := system_ingest h
    exact Or.inl ⟨call, o, heff, rfl, hobs⟩
  | worker i step =>
    obtain ⟨o, heff, rfl, hobs⟩ := system_worker h
    rw [hobs]
    exact Or.inr ⟨rfl, heff.callOf⟩
  | admin a =>
    obtain ⟨db, -, rfl, hobs⟩ := system_admin h
    exact Or.inr ⟨rfl, by simp [hobs]⟩

theorem Event.ofCall_append (call : CallId) (h es : List Event) :
    ofCall call (h ++ es) = ofCall call h ++ ofCall call es := List.filter_append _ _

theorem Event.ofCall_none {call : CallId} {es : List Event} (hes : ∀ ev ∈ es, ev.callOf = none) :
    ofCall call es = [] := by
  rw [ofCall, List.filter_eq_nil_iff]
  intro ev hev
  simp [hes ev hev]

theorem Event.mem_ofCall {call : CallId} {h : List Event} {ev : Event} (hev : ev ∈ h)
    (hcall : ev.callOf = some call) : ev ∈ ofCall call h :=
  List.mem_filter.mpr ⟨hev, by simp [hcall]⟩

theorem Event.mem_of_mem_ofCall {call : CallId} {h : List Event} {ev : Event}
    (hev : ev ∈ ofCall call h) : ev ∈ h := List.mem_of_mem_filter hev

/-- **Every call has one of the histories of `CallTrace`**, on every run. -/
theorem system_callTrace {dep : Deployment} {db : Database} {ls : List Label} {s : Sys}
    (h : (system dep).exec (.start dep db) ls = some s) (call : CallId) :
    CallTrace dep.lib (dep.servers call.server) call (s.calls call)
      (Event.ofCall call ((system dep).trace (.start dep db) ls)) := by
  refine Lts.exec_induction (I := fun h s => CallTrace dep.lib (dep.servers call.server) call
    (s.calls call) (Event.ofCall call h)) .idle ?_ h
  intro h s l s' hinv hstep
  rw [Event.ofCall_append]
  rcases system_call_cases hstep with ⟨call', o, heff, rfl, hobs⟩ | ⟨hcalls, hnone⟩
  · rw [hobs]
    have hown := heff.callOf
    by_cases hc : call' = call
    · subst hc
      have hall : Event.ofCall call' o.events = o.events :=
        List.filter_eq_self.mpr fun ev hev => by simp [hown ev hev]
      rw [hall]
      simpa [Sys.afterIngest] using hinv.step heff
    · have hnil : Event.ofCall call o.events = [] := by
        rw [Event.ofCall, List.filter_eq_nil_iff]
        intro ev hev
        simp [hown ev hev, hc]
      have hsame : (s.afterIngest call' o).calls call = s.calls call :=
        Function.update_of_ne (Ne.symm hc) _ _
      rw [hnil, List.append_nil, hsame]
      exact hinv
  · rw [hcalls, Event.ofCall_none hnone, List.append_nil]
    exact hinv

section

variable {lib : Libraries} {pipe : Pipeline} {call : CallId} {phase : CallPhase} {es : List Event}
  (h : CallTrace lib pipe call phase es)

include h

/-- A call is requested once. -/
theorem CallTrace.request_unique {req req' : Request} {utcNow utcNow' : Timestamp}
    (hr : .requested call req utcNow ∈ es) (hr' : .requested call req' utcNow' ∈ es) :
    req = req' ∧ utcNow = utcNow' := by
  cases h <;> simp_all

/-- A call that committed had its request verified, and committed what the request says. -/
theorem CallTrace.of_stored {receipt : WebhookReceipt} {names : List String}
    (hs : .stored call receipt names ∈ es) :
    ∃ (c : IngestCall) (utcNow receivedAt : Timestamp), .requested call c.req utcNow ∈ es ∧
      pipe.verify utcNow c.req = .ok (c.verificationStatus, c.verificationReason) ∧
      receipt = c.receipt lib receivedAt ∧ names = pipe.emitterNames := by
  cases h with
  | recording c utcNow receivedAt hverify =>
    exact ⟨c, utcNow, receivedAt, by simp, hverify, by simpa using hs⟩
  | storedLost c utcNow receivedAt e hverify =>
    exact ⟨c, utcNow, receivedAt, by simp, hverify, by simpa using hs⟩
  | accepted c utcNow receivedAt hverify =>
    exact ⟨c, utcNow, receivedAt, by simp, hverify, by simpa using hs⟩
  | _ => simp at hs

/-- A call that returns `Accepted` returns the id of what it committed. -/
theorem CallTrace.of_accepted {id : ReceiptId} (hr : .returned call (.ok (.accepted id)) ∈ es) :
    ∃ receipt, .stored call receipt pipe.emitterNames ∈ es ∧ receipt.receiptId = id := by
  cases h with
  | accepted c utcNow receivedAt hverify =>
    simp only [List.mem_cons, reduceCtorEq, Event.returned.injEq, Except.ok.injEq,
      IngestResult.accepted.injEq, true_and, List.not_mem_nil, or_false, false_or] at hr
    exact ⟨c.receipt lib receivedAt, by simp, hr.symm⟩
  | _ => simp at hr

/-- A call that returns another `Ok` committed nothing. -/
theorem CallTrace.not_stored {res : IngestResult} (hr : .returned call (.ok res) ∈ es)
    (hres : ∀ id, res ≠ .accepted id) (receipt : WebhookReceipt) (names : List String) :
    .stored call receipt names ∉ es := by
  cases h with
  | accepted c utcNow receivedAt hverify =>
    simp only [List.mem_cons, reduceCtorEq, Event.returned.injEq, Except.ok.injEq, true_and,
      List.not_mem_nil, or_false, false_or] at hr
    exact absurd hr (hres c.receiptId)
  | _ => simp_all

/-- A call whose request passed verification is not turned away. -/
theorem CallTrace.not_turnedAway {req : Request} {utcNow : Timestamp}
    {v : VerificationStatus × Option String} (hr : .requested call req utcNow ∈ es)
    (hverify : pipe.verify utcNow req = .ok v) (reason : String) :
    .returned call (.ok (.verificationFailed reason)) ∉ es := by
  cases h with
  | turnedAway req' utcNow' reason' hverify' =>
    simp only [List.mem_cons, Event.requested.injEq, true_and, reduceCtorEq, List.not_mem_nil,
      or_false] at hr
    obtain ⟨rfl, rfl⟩ := hr
    rw [hverify'] at hverify
    exact absurd hverify (by simp)
  | _ => simp

end

/-! ## 3. Commits -/

/-- A committed `store_with_deliveries`. -/
structure Commit where
  call : CallId
  receipt : WebhookReceipt
  emitterNames : List String

/-- The commit an event reports. -/
def Event.commit? : Event → Option Commit
  | stored call receipt emitterNames => some ⟨call, receipt, emitterNames⟩
  | _ => none

/-- The commits so far, in order. -/
def Event.commits (h : List Event) : List Commit := h.filterMap commit?

theorem Event.commits_append (h es : List Event) : commits (h ++ es) = commits h ++ commits es :=
  List.filterMap_append

theorem Event.commits_of_no_call {es : List Event} (hes : ∀ ev ∈ es, ev.callOf = none) :
    commits es = [] := by
  rw [commits, List.filterMap_eq_nil_iff]
  intro ev hev
  have := hes ev hev
  cases ev <;> simp_all [callOf, commit?]

theorem Event.mem_commits {h : List Event} {k : Commit} :
    k ∈ commits h ↔ .stored k.call k.receipt k.emitterNames ∈ h := by
  simp only [commits, List.mem_filterMap]
  constructor
  · rintro ⟨ev, hev, hk⟩
    cases ev <;> simp [commit?] at hk
    subst hk
    exact hev
  · intro hev
    exact ⟨_, hev, rfl⟩

/-- **What a commit does**: the receipt comes into being together with its delivery rows, under a
dedupe key and an id that were not in use. -/
structure Commit.Made (k : Commit) (pipe : Pipeline) (db db' : Database) : Prop where
  names : k.emitterNames = pipe.emitterNames
  key : k.receipt.dedupeKey ∉ db.receipts.rows.map ReceiptRow.dedupeKey
  id : k.receipt.receiptId ∉ db.receipts.keys
  receipts : db'.receipts.rows = db.receipts.rows ++ [k.receipt.toRow]
  deliveries : ∃ now draw, db'.deliveries.rows = db.deliveries.rows ++
    Database.newDeliveries k.receipt.receiptId now k.emitterNames draw

theorem Commit.made_of_store {k : Commit} {pipe : Pipeline} {db db' : Database}
    {draw : Nat → DeliveryId} {now : Timestamp} (hnames : k.emitterNames = pipe.emitterNames)
    (h : db.storeWithDeliveries k.receipt k.emitterNames draw now = .ok (some db')) :
    k.Made pipe db db' := by
  obtain ⟨hkey, hid, hr, hd⟩ := Database.storeWithDeliveries_spec h
  exact ⟨hnames, hkey, hid, hr, now, draw, hd⟩

/-- **What an ingest step does to the database**: nothing, or one commit, and it shows. -/
theorem IngestStep.Effect.commit_cases {lib : Libraries} {pipe : Pipeline} {call : CallId}
    {db : Database} {cache : InMemoryRecentDedupe} {phase : CallPhase} {o : IngestOutcome}
    (heff : IngestStep.Effect lib pipe call db cache phase o) :
    (o.db = db ∧ Event.commits o.events = []) ∨
      ∃ k, Event.commits o.events = [k] ∧ k.call = call ∧ k.Made pipe db o.db := by
  cases heff with
  | turnedAway req utcNow reason hphase hverify => exact Or.inl ⟨rfl, rfl⟩
  | started c utcNow hphase hverify => exact Or.inl ⟨rfl, rfl⟩
  | proceeded c next hphase hnext => exact Or.inl ⟨rfl, rfl⟩
  | failed c e hphase => exact Or.inl ⟨rfl, rfl⟩
  | stored c utcNow now draw db' hphase hstore =>
    exact Or.inr ⟨⟨call, _, _⟩, rfl, rfl, Commit.made_of_store rfl hstore⟩
  | storedLost c utcNow now draw db' e hphase hstore =>
    exact Or.inr ⟨⟨call, _, _⟩, rfl, rfl, Commit.made_of_store rfl hstore⟩
  | duplicate c row hphase hrow => exact Or.inl ⟨rfl, rfl⟩
  | accepted c cache' hphase => exact Or.inl ⟨rfl, rfl⟩

/-- **What a step does to the receipts**: one commit, or nothing but a change of state columns. -/
theorem system_commit_cases {dep : Deployment} {s s' : Sys} {l : Label}
    (h : (system dep).step s l = some s') :
    (∃ k, Event.commits ((system dep).obs s l) = [k] ∧
        k.Made (dep.servers k.call.server) s.db s'.db) ∨
      (Event.commits ((system dep).obs s l) = [] ∧
        s'.db.receipts.rows.map (·.content) = s.db.receipts.rows.map (·.content)) := by
  cases l with
  | ingest call step =>
    obtain ⟨o, heff, rfl, hobs⟩ := system_ingest h
    rw [hobs]
    rcases heff.commit_cases with ⟨hdb, hnone⟩ | ⟨k, hone, rfl, hk⟩
    · refine Or.inr ⟨hnone, ?_⟩
      rw [Sys.afterIngest, hdb]
    · exact Or.inl ⟨k, hone, hk⟩
  | worker i step =>
    obtain ⟨o, heff, rfl, hobs⟩ := system_worker h
    rw [hobs]
    exact Or.inr ⟨Event.commits_of_no_call heff.callOf, rfl⟩
  | admin a =>
    obtain ⟨db, hdb, rfl, hobs⟩ := system_admin h
    refine Or.inr ⟨by rw [hobs]; rfl, ?_⟩
    rcases AdminStep.run_cases hdb with ⟨hr, -⟩ | ⟨-, u, rfl, -⟩
    · rw [hr]
    · simp only [Database.updateReceipts_rows, List.map_map]
      exact List.map_congr_left fun r _ => u.content_run r

section

variable {dep : Deployment} {db : Database} {ls : List Label} {s : Sys}
  (h : (system dep).exec (.start dep db) ls = some s)

include h

/-- **The receipts are a log of the commits.**  By content, the rows are those of the start,
followed by the committed ones, in order. -/
theorem system_receipts :
    s.db.receipts.rows.map (·.content) = db.receipts.rows.map (·.content) ++
      (Event.commits ((system dep).trace (.start dep db) ls)).map (·.receipt.toRow.content) := by
  refine Lts.exec_induction (I := fun h s => s.db.receipts.rows.map (·.content)
    = db.receipts.rows.map (·.content) ++ (Event.commits h).map (·.receipt.toRow.content))
    (List.append_nil _).symm ?_ h
  intro h s l s' hinv hstep
  rw [Event.commits_append, List.map_append, ← List.append_assoc, ← hinv]
  rcases system_commit_cases hstep with ⟨k, hone, hk⟩ | ⟨hnone, hsame⟩
  · rw [hone, hk.receipts, List.map_append]
    rfl
  · rw [hnone, hsame, List.map_nil, List.append_nil]

/-- Every committed receipt has its row. -/
theorem system_stored_row {call : CallId} {receipt : WebhookReceipt} {names : List String}
    (hev : .stored call receipt names ∈ (system dep).trace (.start dep db) ls) :
    ∃ row ∈ s.db.receipts.rows, row.content = receipt.toRow.content := by
  have hmem : receipt.toRow.content ∈ s.db.receipts.rows.map (·.content) := by
    rw [system_receipts h]
    refine List.mem_append_right _ (List.mem_map.mpr ⟨⟨call, receipt, names⟩, ?_, rfl⟩)
    exact Event.mem_commits.mpr hev
  exact List.mem_map.mp hmem

/-- Every row was there at the start, or was committed. -/
theorem system_row_origin {row : ReceiptRow} (hrow : row ∈ s.db.receipts.rows) :
    (∃ r ∈ db.receipts.rows, r.content = row.content) ∨
      ∃ call receipt names, .stored call receipt names ∈ (system dep).trace (.start dep db) ls ∧
        row.content = receipt.toRow.content := by
  have hmem : row.content ∈ s.db.receipts.rows.map (·.content) := List.mem_map_of_mem hrow
  rw [system_receipts h] at hmem
  rcases List.mem_append.mp hmem with hmem | hmem
  · exact Or.inl (List.mem_map.mp hmem)
  · obtain ⟨k, hk, heq⟩ := List.mem_map.mp hmem
    exact Or.inr ⟨k.call, k.receipt, k.emitterNames, Event.mem_commits.mp hk, heq.symm⟩

/-- What a commit says about its call: the request was verified, and is what was committed. -/
theorem system_stored_request {call : CallId} {receipt : WebhookReceipt} {names : List String}
    (hev : .stored call receipt names ∈ (system dep).trace (.start dep db) ls) :
    ∃ (c : IngestCall) (utcNow receivedAt : Timestamp),
      .requested call c.req utcNow ∈ (system dep).trace (.start dep db) ls ∧
      (dep.servers call.server).verify utcNow c.req
        = .ok (c.verificationStatus, c.verificationReason) ∧
      receipt = c.receipt dep.lib receivedAt ∧ names = (dep.servers call.server).emitterNames := by
  obtain ⟨c, utcNow, receivedAt, hreq, hrest⟩ :=
    (system_callTrace h call).of_stored (Event.mem_ofCall hev rfl)
  exact ⟨c, utcNow, receivedAt, Event.mem_of_mem_ofCall hreq, hrest⟩

/-- **A commit, at the moment it was made**: just before `t'`, and the run went on to `s`. -/
theorem system_stored {call : CallId} {receipt : WebhookReceipt} {names : List String}
    (hev : .stored call receipt names ∈ (system dep).trace (.start dep db) ls) :
    ∃ (before after : List Label) (t t' : Sys),
      (system dep).exec (.start dep db) before = some t' ∧
      (system dep).exec t' after = some s ∧
      (⟨call, receipt, names⟩ : Commit).Made (dep.servers call.server) t.db t'.db := by
  obtain ⟨before, l, after, t, t', -, hbefore, hstep, hobs, hafter⟩ :=
    Lts.exists_step_of_mem_trace h hev
  refine ⟨before ++ [l], after, t, t', Lts.exec_snoc.mpr ⟨t, hbefore, hstep⟩, hafter, ?_⟩
  have hmem : (⟨call, receipt, names⟩ : Commit) ∈ Event.commits ((system dep).obs t l) :=
    Event.mem_commits.mpr hobs
  rcases system_commit_cases hstep with ⟨k, hone, hk⟩ | ⟨hnone, -⟩
  · rw [hone, List.mem_singleton] at hmem
    subst hmem
    exact hk
  · rw [hnone] at hmem
    exact absurd hmem (by simp)

end

end Hookbox
