/-
# Claims against the gauges, and against each other

`claim_pending`, `count_pending` and `count_in_flight` (`hookbox-postgres/src/storage.rs`) are three
statements with three `WHERE` clauses of their own.

* `Database.ClaimExact`: what a claim does, told by the two gauges.
* `claimQueue`: concurrent claims, lock by lock, as an instance of `SkipLocked`.
* `concurrent_claims`: every interleaving of claims comes to a sequence of atomic claims, the ones
  `StorageOp.claimPending` stands for, each made while the others held some rows locked; and no row
  is returned twice.
-/
import Hookbox.Lib.SkipLocked
import Hookbox.Worker
import Hookbox.Storage.Safety

namespace Hookbox

namespace Database

/-! ## 1. The gauges -/

/-- `DeliveryStorage::count_in_flight`. -/
def countInFlight (db : Database) (emitterName : String) : Nat :=
  db.deliveries.rows.countP fun d =>
    d.emitterName = emitterName ∧ d.state = .inFlight ∧ d.immutable = false

/-- A count that splits in two. -/
theorem countP_add_of_disjoint {α : Type} {p q r : α → Bool} {xs : List α}
    (h : ∀ x ∈ xs, (p x ↔ q x ∨ r x) ∧ ¬ (q x ∧ r x)) :
    xs.countP p = xs.countP q + xs.countP r := by
  induction xs with
  | nil => rfl
  | cons x xs ih =>
    obtain ⟨hx, hxs⟩ := List.forall_mem_cons.mp h
    rw [List.countP_cons, List.countP_cons, List.countP_cons, ih hxs]
    obtain ⟨hsplit, hdisj⟩ := hx
    cases hq : q x <;> cases hr : r x <;> simp_all <;> omega

/-- Without locks, the candidates are the rows that `count_pending` counts. -/
theorem length_candidates (db : Database) (e : String) (now : Timestamp) :
    (db.candidates e now []).length = db.countPending e now := by
  rw [countPending, List.countP_eq_length_filter, candidates]
  congr 1
  exact List.filter_congr fun d _ => by simp

/-- **The `SELECT` of a claim has a result**, whatever its limit: the first rows in order. -/
theorem exists_claimSelect (db : Database) (e : String) (n : Nat) (now : Timestamp)
    (locked : List DeliveryId) : ∃ picked, db.ClaimSelect e n now locked picked := by
  have hperm := List.mergeSort_perm (db.candidates e now locked)
    fun d d' => decide (d.nextAttemptAt ≤ d'.nextAttemptAt)
  have hsorted := @List.pairwise_mergeSort _
    (fun d d' : WebhookDelivery => decide (d.nextAttemptAt ≤ d'.nextAttemptAt))
    (fun a b c hab hbc => by simp only [decide_eq_true_eq] at *; exact Int.le_trans hab hbc)
    (fun a b => by simpa using Int.le_total _ _) (db.candidates e now locked)
  generalize (db.candidates e now locked).mergeSort
    (fun d d' => decide (d.nextAttemptAt ≤ d'.nextAttemptAt)) = sorted at hperm hsorted
  have hnd : ((sorted.take n).map (·.deliveryId) ++ (sorted.drop n).map (·.deliveryId)).Nodup := by
    rw [← List.map_append, List.take_append_drop]
    exact (hperm.map _).nodup_iff.mpr (db.deliveries.pk.sublist (List.filter_sublist.map _))
  rw [← List.take_append_drop n sorted, List.pairwise_append] at hsorted
  refine ⟨(sorted.take n).map (·.deliveryId), (List.nodup_append.mp hnd).1, ?_, ?_, ?_⟩
  · intro id hid
    obtain ⟨d, hd, rfl⟩ := List.mem_map.mp hid
    exact List.mem_map_of_mem (hperm.mem_iff.mp (List.mem_of_mem_take hd))
  · rw [List.length_map, List.length_take, hperm.length_eq]
  · intro d hd hpicked d' hd' hnot
    have hsplit : ∀ x ∈ db.candidates e now locked, x ∈ sorted.take n ∨ x ∈ sorted.drop n := by
      intro x hx
      rw [← List.mem_append, List.take_append_drop]
      exact hperm.mem_iff.mpr hx
    have htake : d ∈ sorted.take n := by
      refine (hsplit d hd).resolve_right fun hdrop => ?_
      exact (List.nodup_append.mp hnd).2.2 _ hpicked _ (List.mem_map_of_mem hdrop) rfl
    have hdrop : d' ∈ sorted.drop n :=
      (hsplit d' hd').resolve_left fun htake => hnot (List.mem_map_of_mem htake)
    simpa using hsorted.2.2 d htake d' hdrop

/-! ## 2. One claim -/

/-- **What a claim does**, told by the gauges.  `picked` are the rows that its `SELECT` chose. -/
structure ClaimExact (db : Database) (e : String) (n : Nat) (now : Timestamp)
    (picked : List DeliveryId) : Prop where
  /-- Exactly `min(n, count_pending)` distinct rows are claimed. -/
  length : picked.length = min n (db.countPending e now)
  distinct : picked.Nodup
  claimed : (db.claimedRows picked now).map (·.deliveryId) = picked
  /-- What is returned, when every receipt can be loaded, are these rows. -/
  returned : ∀ pairs, (db.claimPending picked now).2 = .ok pairs →
    pairs.map Prod.fst = db.claimedRows picked now
  /-- They are counted by `count_pending`, and no other counted row comes before one of them. -/
  counted : ∀ id ∈ picked, ∃ d ∈ db.deliveries.rows, d.deliveryId = id ∧ Eligible e now d
  first : ∀ d ∈ db.deliveries.rows, d.deliveryId ∈ picked →
    ∀ d' ∈ db.deliveries.rows, Eligible e now d' → d'.deliveryId ∉ picked →
      d.nextAttemptAt ≤ d'.nextAttemptAt
  /-- The gauges move by the number of rows claimed. -/
  pending : (db.claimPending picked now).1.countPending e now + picked.length
    = db.countPending e now
  inFlight : (db.claimPending picked now).1.countInFlight e
    = db.countInFlight e + picked.length
  /-- Everything else stays: the rows of other emitters, the rows not claimed, the receipts. -/
  others : ∀ d ∈ db.deliveries.rows, d.emitterName ≠ e ∨ d.deliveryId ∉ picked →
    (db.claimPending picked now).1.deliveries.get? d.deliveryId = some d
  keys : (db.claimPending picked now).1.deliveries.keys = db.deliveries.keys
  receipts : (db.claimPending picked now).1.receipts = db.receipts

section

variable {db : Database} {e : String} {n : Nat} {now : Timestamp} {picked : List DeliveryId}

/-- The rows the `UPDATE` returns are the picked ones, one each. -/
theorem claimedRows_ids (hkeys : ∀ id ∈ picked, id ∈ db.deliveries.keys) :
    (db.claimedRows picked now).map (·.deliveryId) = picked := by
  rw [claimedRows, List.map_filterMap]
  have hone : ∀ id ∈ picked, Option.map (·.deliveryId)
      ((db.updateDeliveries (.claim picked now)).deliveries.get? id) = some id := by
    intro id hid
    obtain ⟨d, hd⟩ := Table.exists_get? (hkeys id hid)
    rw [get?_updateDeliveries, hd, Option.map_some, Option.map_some, DeliveryUpdate.run_deliveryId,
      Table.key_of_get? hd]
  rw [List.filterMap_congr hone, List.filterMap_some]

/-- A claimed row is counted by one gauge before, and by the other one afterwards. -/
theorem ClaimSelect.gauges (h : db.ClaimSelect e n now [] picked) :
    (db.updateDeliveries (.claim picked now)).countPending e now + picked.length
        = db.countPending e now ∧
      (db.updateDeliveries (.claim picked now)).countInFlight e
        = db.countInFlight e + picked.length := by
  have hpicked : db.deliveries.rows.countP (fun d => d.deliveryId ∈ picked) = picked.length := by
    refine Table.countP_key_mem h.1 fun id hid => ?_
    obtain ⟨d, hd, rfl, -⟩ := h.mem_keys hid
    exact Table.key_mem_keys hd
  rw [← hpicked]
  constructor
  · rw [countPending, updateDeliveries_rows, List.countP_map, countPending]
    refine (countP_add_of_disjoint fun d hd => ?_).symm
    simp only [Function.comp_apply, decide_eq_true_eq]
    rcases h.claim_cases hd with ⟨hnot, heq⟩ | ⟨hp, hel, heq⟩
    · simp [heq, hnot]
    · have hnone : ¬ Eligible e now { d with state := .inFlight, lastAttemptAt := some now } :=
        fun hel' => by simp [Eligible] at hel'
      rw [heq]
      simp [hp, hel, hnone]
  · rw [countInFlight, updateDeliveries_rows, List.countP_map, countInFlight]
    refine countP_add_of_disjoint fun d hd => ?_
    simp only [Function.comp_apply, decide_eq_true_eq]
    rcases h.claim_cases hd with ⟨hnot, heq⟩ | ⟨hp, ⟨hname, hst, -, himm⟩, heq⟩
    · simp [heq, hnot]
    · have hnone : d.state ≠ .inFlight := by
        rcases hst with hst | hst <;> simp [hst]
      rw [heq]
      simp [hp, hname, himm, hnone]

/-- **A claim agrees with the gauges.** -/
theorem ClaimSelect.exact (h : db.ClaimSelect e n now [] picked) :
    db.ClaimExact e n now picked where
  length := by rw [h.2.2.1, length_candidates]
  distinct := h.1
  claimed := by
    refine claimedRows_ids fun id hid => ?_
    obtain ⟨d, hd, rfl, -⟩ := h.mem_keys hid
    exact Table.key_mem_keys hd
  returned := by
    intro pairs hok
    have hpairs := Except.mapM_eq_ok_iff.mp hok
    clear hok
    generalize db.claimedRows picked now = rows at hpairs
    induction hpairs with
    | nil => rfl
    | cons hp _ ih => rw [List.map_cons, loadClaimed_fst hp, ih]
  counted := fun id hid => h.mem_keys hid
  first := by
    intro d hd hp d' hd' hel' hnot
    exact h.2.2.2 d (mem_candidates.mpr ⟨hd, h.eligible hd hp, by simp⟩) hp d'
      (mem_candidates.mpr ⟨hd', hel', by simp⟩) hnot
  pending := h.gauges.1
  inFlight := h.gauges.2
  others := by
    intro d hd hother
    have hnot : d.deliveryId ∉ picked := by
      rcases hother with hname | hnot
      · exact fun hp => hname (h.eligible hd hp).1
      · exact hnot
    rw [claimPending, get?_updateDeliveries, Table.get?_of_mem hd, Option.map_some, claim_run,
      if_neg hnot]
  keys := updateDeliveries_keys _ _
  receipts := rfl

end

end Database

/-! ## 3. Claims that run concurrently -/

/-- The arguments of a `claim_pending`, with its `now()`. -/
structure ClaimRequest where
  emitterName : String
  batchSize : Nat
  now : Timestamp

/-- `claim_pending`, row by row. -/
def claimQueue : SkipLocked DeliveryId WebhookDelivery ClaimRequest WebhookDelivery.deliveryId where
  rank d := d.nextAttemptAt
  limit x := x.batchSize
  Eligible x d := Database.Eligible x.emitterName x.now d
  decEligible _ := inferInstance
  take x d := { d with state := .inFlight, lastAttemptAt := some x.now }
  key_take _ _ := rfl
  not_eligible_take _ _ _ _ hel := by simp [Database.Eligible] at hel

/-- The atomic claim that a concurrent one comes to. -/
def claimOp (ev : SkipLocked.Returned DeliveryId ClaimRequest) : StorageOp :=
  .claimPending ev.request.emitterName ev.request.batchSize ev.request.now ev.locked ev.picked

/-- A selection of the queue is a selection of the statement. -/
theorem claimSelect_of_selects {db : Database} {x : ClaimRequest} {locked picked : List DeliveryId}
    (h : claimQueue.Selects db.deliveries x locked picked) :
    db.ClaimSelect x.emitterName x.batchSize x.now locked picked :=
  ⟨h.nodup, h.mem, h.length, h.first⟩

/-- **What concurrent claims come to**: `history` is what they returned, in the order of their
commits, and `table` what they leave. -/
structure ClaimsSerial (db : Database)
    (history : List (SkipLocked.Returned DeliveryId ClaimRequest))
    (table : Table DeliveryId WebhookDelivery WebhookDelivery.deliveryId) : Prop where
  /-- One atomic claim after the other, from the rows that nobody else has locked. -/
  serial : ∃ σ, storage.exec ⟨db, []⟩ (history.map claimOp) = some σ ∧ σ.db.deliveries = table ∧
    σ.db.receipts = db.receipts
  disjoint : history.Pairwise fun ev ev' => List.Disjoint ev.picked ev'.picked
  eligible : ∀ ev ∈ history, ∀ id ∈ ev.picked, ∃ d ∈ db.deliveries.rows, d.deliveryId = id ∧
    Database.Eligible ev.request.emitterName ev.request.now d

section

variable {db : Database} {ls : List (SkipLocked.Step WebhookDelivery ClaimRequest)}
  {s : SkipLocked.State DeliveryId WebhookDelivery ClaimRequest WebhookDelivery.deliveryId}

/-- Every interleaving of claims is a run of the storage machine. -/
theorem claims_serial (h : claimQueue.claims.exec (.start db.deliveries) ls = some s) :
    ∃ σ, storage.exec ⟨db, []⟩ ((claimQueue.claims.trace (.start db.deliveries) ls).map claimOp)
        = some σ ∧ σ.db.deliveries = s.table ∧ σ.db.receipts = db.receipts := by
  refine SkipLocked.claims_induction (P := fun h t => ∃ σ, storage.exec ⟨db, []⟩ (h.map claimOp)
    = some σ ∧ σ.db.deliveries = t ∧ σ.db.receipts = db.receipts) ⟨⟨db, []⟩, rfl, rfl, rfl⟩ ?_ h
  rintro history t ev ⟨σ, hσ, rfl, hr⟩ hsel
  refine ⟨{ db := σ.db.updateDeliveries (.claim ev.picked ev.request.now)
            claimed := σ.claimed ++ ev.picked }, ?_, rfl, hr⟩
  rw [List.map_append, List.map_singleton]
  refine Lts.exec_snoc.mpr ⟨σ, hσ, ?_⟩
  exact if_pos (claimSelect_of_selects hsel)

/-- A row that somebody can still claim is one of the rows there were at the start. -/
theorem claims_eligible (h : claimQueue.claims.exec (.start db.deliveries) ls = some s) :
    ∀ ev ∈ claimQueue.claims.trace (.start db.deliveries) ls, ∀ id ∈ ev.picked,
      ∃ d ∈ db.deliveries.rows, d.deliveryId = id ∧
        Database.Eligible ev.request.emitterName ev.request.now d := by
  have key : (∀ ev ∈ claimQueue.claims.trace (.start db.deliveries) ls, ∀ id ∈ ev.picked,
      ∃ d ∈ db.deliveries.rows, d.deliveryId = id ∧
        Database.Eligible ev.request.emitterName ev.request.now d) ∧
      ∀ d ∈ s.table.rows, d ∈ db.deliveries.rows ∨ claimQueue.Taken d := by
    refine SkipLocked.claims_induction (P := fun h t => (∀ ev ∈ h, ∀ id ∈ ev.picked,
      ∃ d ∈ db.deliveries.rows, d.deliveryId = id ∧
        Database.Eligible ev.request.emitterName ev.request.now d) ∧
      ∀ d ∈ t.rows, d ∈ db.deliveries.rows ∨ claimQueue.Taken d)
      ⟨by simp, fun d hd => Or.inl hd⟩ ?_ h
    rintro history t ev ⟨hev, hold⟩ hsel
    refine ⟨fun ev' hev' id hid => ?_, fun d hd => ?_⟩
    · rcases List.mem_append.mp hev' with hev' | hev'
      · exact hev ev' hev' id hid
      · obtain rfl := List.mem_singleton.mp hev'
        obtain ⟨d, hd, rfl⟩ := List.mem_map.mp (hsel.mem id hid)
        obtain ⟨hrow, hel, -⟩ := SkipLocked.mem_candidates.mp hd
        exact ⟨d, (hold d hrow).resolve_right fun htaken => htaken _ hel, rfl, hel⟩
    · rcases SkipLocked.mem_takeRows.mp hd with ⟨hd, -⟩ | ⟨d₀, hd₀, hp, rfl⟩
      · exact hold d hd
      · obtain ⟨d₁, hd₁, hid⟩ := List.mem_map.mp (hsel.mem _ hp)
        obtain ⟨hrow, hel, -⟩ := SkipLocked.mem_candidates.mp hd₁
        obtain rfl := Table.eq_of_key_eq hrow hd₀ hid
        exact Or.inr fun y => claimQueue.not_eligible_take _ y d₁ hel
  exact key.1

/-- **Concurrent claims are serial**, whatever the interleaving of their steps. -/
theorem concurrent_claims (h : claimQueue.claims.exec (.start db.deliveries) ls = some s) :
    ClaimsSerial db (claimQueue.claims.trace (.start db.deliveries) ls) s.table :=
  ⟨claims_serial h, SkipLocked.returned_disjoint h, claims_eligible h⟩

end

/-- **Claiming agrees with the gauges.**  For every database, emitter, limit and time, a claim with
no rows locked by others has a result, and any result it has is told exactly by the gauges; and from
the same database, claims of any emitters that run concurrently return disjoint sets of eligible
rows, as if they had run one after the other. -/
theorem claim_matches_gauges (db : Database) (e : String) (n : Nat) (now : Timestamp) :
    (∃ picked, db.ClaimSelect e n now [] picked) ∧
      (∀ picked, db.ClaimSelect e n now [] picked → db.ClaimExact e n now picked) ∧
      ∀ ls s, claimQueue.claims.exec (.start db.deliveries) ls = some s →
        ClaimsSerial db (claimQueue.claims.trace (.start db.deliveries) ls) s.table :=
  ⟨db.exists_claimSelect e n now [], fun _ h => h.exact, fun _ _ h => concurrent_claims h⟩

/-- Two claims of one row each, of the same two rows: the second one passes over the row that the
first one has locked. -/
example :
    let rows := [Database.newDelivery ⟨0⟩ ⟨0⟩ "kafka" 0, Database.newDelivery ⟨1⟩ ⟨0⟩ "kafka" 0]
    let ls := [.begin 0 ⟨"kafka", 1, 0⟩ rows, .begin 1 ⟨"kafka", 1, 0⟩ rows, .visit 0, .visit 1,
      .visit 1, .commit 1, .commit 0]
    (claimQueue.claims.trace (.start ⟨rows, by decide⟩) ls).map (fun ev => (ev.locked, ev.picked))
      = [([⟨0⟩], [⟨1⟩]), ([], [⟨0⟩])] := by decide

end Hookbox
