/-
# From a replay to the downstream

An operator asks for another attempt, by one of the four paths of `Replay`, and is told that it was
queued.  `Backlog` says what the worker of the emitter makes of the queue.

* `replayed_is_delivered`: what a replay has queued is delivered, once the worker has had its steps.
-/
import Hookbox.Backlog
import Hookbox.Replay

namespace Hookbox

/-- What is new after a replay is for one of its targets, and is owing. -/
theorem Database.Inserted.new_row {db db' : Database} {receiptId : ReceiptId}
    {names : List String} (h : db.Inserted db' receiptId names) {d : WebhookDelivery}
    (hd : d ∈ db'.deliveries.rows) (hnew : d ∉ db.deliveries.rows) :
    d.state = .pending ∧ d.immutable = false ∧ d.receiptId = receiptId ∧ d.emitterName ∈ names := by
  obtain ⟨new, hrows, hnames, hspec⟩ := h.rows
  rw [hrows] at hd
  have hmem := (List.mem_append.mp hd).resolve_left hnew
  obtain ⟨hid, hst, himm, -⟩ := hspec d hmem
  exact ⟨hst, himm, hid, hnames ▸ List.mem_map_of_mem hmem⟩

/-- **What was replayed is delivered.**  On a server started from a normalised configuration, a
replay by any of the four paths has committed in a state of any run from a migrated database.  The
only worker of an emitter is in its `select!` then, with everything due, and undisturbed from there
on.  Once it has taken the steps for its backlog, each row that the replay has added for that
emitter, for what was asked, has been delivered: the event of its receipt was sent for this row and
answered `Ok`. -/
theorem replayed_is_delivered {crypto : Crypto} {config cfg : HookboxConfig}
    {warnings : List String} (hnormal : normalize config = .ok (cfg, warnings))
    {pipeline : Pipeline} (hstart : startup crypto cfg = .ok pipeline) {cli : CliEnv} {session : Session}
    {path : ReplayPath} {dep : Deployment} {i : WorkerId}
    (hname : ∀ j, j ≠ i → (dep.workers j).name ≠ (dep.workers i).name)
    (hn : 1 ≤ (dep.workers i).concurrency) {pre : Receipts} {draw : Nat → DeliveryId}
    {db : Database} (hdb : migrate0002 pre draw = some db)
    (hread : ∀ r ∈ pre.receipts.rows, r.Readable) {before : List Label} {s₁ : Sys}
    (h₁ : (system dep).exec (.start dep db) before = some s₁) {db' : Database}
    (hcommitted : (path.run session ⟨pipeline, cfg.admin.bearerToken⟩ cli).2.committed
      = [(s₁.db, db')])
    (hpolling : (s₁.workers i).phase = .polling) {t : Timestamp}
    (hdue : ∀ d ∈ db'.deliveries.rows, d.emitterName = (dep.workers i).name → d.Owing →
      d.DueBy (dep.workers i).leaseDuration t)
    {ls : List Label} {c : Clocked}
    (h : (undisturbed dep i).exec ⟨{ s₁ with db := db' }, t⟩ ls = some c)
    (hsteps : stepsFor (dep.workers i).concurrency
      (db'.backlog (dep.workers i).name c.sys.db) ≤ stepsOf i ls) :
    ∃ a, (system dep).exec (.start dep db) (before ++ [.admin a]) = some { s₁ with db := db' } ∧
      ∀ d ∈ db'.deliveries.rows, d ∉ s₁.db.deliveries.rows →
        d.emitterName = (dep.workers i).name → path.Asked session d.receiptId d.emitterName ∧
          ∃ k event, (dep.workers k.worker).name = d.emitterName ∧
            .emitReturned k d.deliveryId event (.ok ())
              ∈ (system dep).trace (.start dep db) (before ++ [.admin a] ++ ls) ∧
            c.sys.db.EventOf d.receiptId event := by
  have hends := path.run_started hnormal hstart cli session
  generalize path.run session ⟨pipeline, cfg.admin.bearerToken⟩ cli = out at hends hcommitted
  cases hends with
  | refused hrefused hnone =>
    rw [hcommitted] at hnone
    cases hnone
  | replayed hdone hwrites =>
    obtain ⟨k, db₁, hone, consulted, -, receiptId, names, hreplayed⟩ := hwrites.committed
    rw [hcommitted] at hone
    obtain ⟨hfound, hmade⟩ := Prod.mk.inj (List.singleton_inj.mp hone)
    rw [← hfound, ← hmade] at hreplayed
    obtain ⟨a, hstep⟩ := hreplayed.step
    have h₀ : (system dep).exec (.start dep db) (before ++ [.admin a])
        = some { s₁ with db := db' } :=
      Lts.exec_snoc.mpr ⟨s₁, h₁, hstep dep s₁ rfl⟩
    refine ⟨a, h₀, fun d hd hnew hemit => ?_⟩
    obtain ⟨hst, himm, hid, htarget⟩ := hreplayed.new_row hd hnew
    have hasked := hid ▸ hreplayed.targets.asked htarget
    have halive : d.state ≠ .deadLettered := by simp [hst]
    obtain ⟨-, d', -, hkept, k, event, hret, hworker, hevent⟩ :=
      backlog_delivered hname hn hdb hread h₀ hpolling hdue h hsteps hd hemit himm halive
    rw [hkept.deliveryId] at hret
    rw [hkept.receiptId] at hevent
    exact ⟨hasked, k, event, hworker.trans hkept.emitterName, hret, hevent⟩

/-- A server with the one emitter `k`. -/
def soloConfig : HookboxConfig :=
  { sampleConfig 1 with emitters := [{ name := "k", emitterType := "channel" }] }

theorem soloConfig_normal : normalize soloConfig = .ok (soloConfig, []) := by
  refine normalize_of_valid rfl (by simp [soloConfig]) ?_ (by simp [soloConfig])
  intro e he
  rw [List.mem_singleton.mp he]
  exact EmitterEntry.valid_default (by decide)

/-- The worker delivers one row and goes back to its `select!`. -/
def deliverOne (id : DeliveryId) : List Label :=
  claimAndCall 1 0 id ++ answerAndMark 1 0 id (.ok ()) ++
    [.worker 1 (.refreshGauges 0 true true 0 false)]

/-- It delivers one row, and a claim of the next round finds no more. -/
def deliverLast (id : DeliveryId) : List Label :=
  deliverOne id ++
    [.worker 1 .wake, .worker 1 (.reclaimExpired 0), .worker 1 (.claimPending 0 [] [])]

/-- A receipt that was delivered is replayed. -/
theorem replayed_once : ∃ pipeline, startup sampleLib.toCrypto soloConfig = .ok pipeline ∧
    ∃ s₁, (system soloDep).exec (.start soloDep .empty) (acceptOne ++ deliverOne ⟨0⟩) = some s₁ ∧
      (s₁.workers 1).phase = .polling ∧ ∃ db',
      ((ReplayPath.replayReceipt [] ⟨1⟩ none).run (.quiet s₁.db)
        ⟨pipeline, soloConfig.admin.bearerToken⟩ sampleCli).2.committed = [(s₁.db, db')] ∧
      (∃ d, s₁.db.deliveries.rows = [d] ∧ d.deliveryId = ⟨0⟩ ∧ d.state = .emitted ∧
        db'.deliveries.rows = [d, Database.newDelivery ⟨1⟩ ⟨1⟩ "k" 0]) ∧
      ∃ c, (undisturbed soloDep 1).exec ⟨{ s₁ with db := db' }, 0⟩ (deliverLast ⟨1⟩) = some c ∧
        stepsFor 1 (db'.backlog "k" c.sys.db) ≤ stepsOf 1 (deliverLast ⟨1⟩) :=
  ⟨_, rfl, _, rfl, rfl, _, rfl, ⟨_, rfl, rfl, rfl, rfl⟩, _, rfl, by decide⟩

/-- It is delivered again. -/
theorem replayed_is_delivered_again :
    ∃ a k event, .emitReturned k ⟨1⟩ event (.ok ()) ∈ (system soloDep).trace (.start soloDep .empty)
      (acceptOne ++ deliverOne ⟨0⟩ ++ [.admin a] ++ deliverLast ⟨1⟩) := by
  obtain ⟨pipeline, hstart, s₁, hrun, hpolling, db', hcommitted, ⟨d, hold, hid, hst, hrows⟩, c,
    hdrain, hsteps⟩ := replayed_once
  have hdue : ∀ x ∈ db'.deliveries.rows, x.emitterName = "k" → x.Owing → x.DueBy 30000000 0 := by
    intro x hx _ howing
    rw [hrows, List.mem_pair] at hx
    rcases hx with rfl | rfl
    · exact absurd (.inl hst) howing.2
    · exact ⟨fun hflying => absurd hflying (by simp [Database.newDelivery]), fun _ => le_refl _⟩
  have hnew : Database.newDelivery ⟨1⟩ ⟨1⟩ "k" 0 ∉ s₁.db.deliveries.rows := by
    rw [hold, List.mem_singleton]
    rintro rfl
    cases hid
  have hmem : Database.newDelivery ⟨1⟩ ⟨1⟩ "k" 0 ∈ db'.deliveries.rows := by simp [hrows]
  obtain ⟨a, -, hdelivered⟩ := replayed_is_delivered soloConfig_normal hstart soloDep_alone
    (by decide) (migrate0002_empty fun _ => ⟨0⟩) (fun r hr => absurd hr List.not_mem_nil) hrun
    hcommitted hpolling hdue hdrain hsteps
  obtain ⟨-, k, event, -, hret, -⟩ := hdelivered _ hmem hnew rfl
  exact ⟨a, k, event, hret⟩

end Hookbox
