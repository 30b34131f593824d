/-
# Histories

What an observer of the whole system can see: the claims, reclaims, emits and marks of the
emitter workers, and the requests, commits and answers of the ingest calls.  A run of the system
has a history, and the results about "how often" and "since when" are stated over it.

* `errs` and `oks` count the emit calls for one row that returned `Err` and `Ok`.
* `failuresTaken` counts the failure marks that took effect on a row.
* `claimFate` says what became of one claim on one row, and `lastClaim` which claim on a row is
  the latest.  Together they say who holds the row's lease.
-/
import Hookbox.Storage.Statements

namespace Hookbox

/-- A spawned `EmitterWorker`, in any process. -/
abbrev WorkerId := Nat

/-- A server instance. -/
abbrev ServerId := Nat

/-- One call of `ingest`: the `number`th one on a server. -/
structure CallId where
  server : ServerId
  number : Nat
deriving DecidableEq

/-- One successful `UPDATE` of `claim_pending`: the `number`th one of `worker`.  The dispatches
of a batch all belong to one claim. -/
structure ClaimId where
  worker : WorkerId
  number : Nat
deriving DecidableEq

/-- What can be observed of a step. -/
inductive Event where
  | claimed (c : ClaimId) (id : DeliveryId)
  | reclaimed (id : DeliveryId)
  | emitCalled (c : ClaimId) (id : DeliveryId) (event : NormalizedEvent)
  | emitReturned (c : ClaimId) (id : DeliveryId) (event : NormalizedEvent)
      (result : Except EmitError Unit)
  /-- A `mark_*` was committed; `took` says whether it found the row in flight. -/
  | marked (c : ClaimId) (id : DeliveryId) (m : DeliveryUpdate.Mark) (took : Bool)
  | requested (call : CallId) (req : Request) (utcNow : Timestamp)
  | stored (call : CallId) (receipt : WebhookReceipt) (emitterNames : List String)
  | returned (call : CallId) (result : Except IngestError IngestResult)

namespace Event

/-- The ingest call an event belongs to. -/
def callOf : Event → Option CallId
  | requested call _ _ => some call
  | stored call _ _ => some call
  | returned call _ => some call
  | _ => none

/-! ## 1. Counting -/

/-- An emit call for the row that returned `Err`. -/
def isErr (id : DeliveryId) : Event → Bool
  | emitReturned _ id' _ (.error _) => id' = id
  | _ => false

/-- An emit call for the row that returned `Ok`. -/
def isOk (id : DeliveryId) : Event → Bool
  | emitReturned _ id' _ (.ok _) => id' = id
  | _ => false

/-- A `mark_failed` or `mark_dead_lettered` that took effect on the row. -/
def isFailureTaken (id : DeliveryId) : Event → Bool
  | marked _ id' (.failed _ _ _) true => id' = id
  | marked _ id' (.deadLettered _) true => id' = id
  | _ => false

/-- The number of emit calls for the row that returned `Err`. -/
def errs (h : List Event) (id : DeliveryId) : Nat := h.countP (isErr id)

/-- The number of emit calls for the row that returned `Ok`. -/
def oks (h : List Event) (id : DeliveryId) : Nat := h.countP (isOk id)

/-- The number of failure marks that took effect on the row. -/
def failuresTaken (h : List Event) (id : DeliveryId) : Nat := h.countP (isFailureTaken id)

section

variable (h h' : List Event) (id : DeliveryId)

theorem errs_append : errs (h ++ h') id = errs h id + errs h' id := List.countP_append

theorem failuresTaken_append :
    failuresTaken (h ++ h') id = failuresTaken h id + failuresTaken h' id := List.countP_append

theorem errs_le_append : errs h id ≤ errs (h ++ h') id := by
  rw [errs_append]; omega

variable {h}

/-- The events of ingest calls count for nothing. -/
theorem failuresTaken_of_calls (hes : ∀ ev ∈ h, (callOf ev).isSome) : failuresTaken h id = 0 := by
  rw [failuresTaken, List.countP_eq_zero]
  intro ev hev
  have := hes ev hev
  cases ev <;> simp_all [callOf, isFailureTaken]

end

/-! ## 2. Claims -/

/-- What became of a claim on a row. -/
inductive Fate where
  | never
  | held
  | lost
deriving DecidableEq

/-- One event's effect on the fate of claim `c` on row `id`. -/
def fateStep (c : ClaimId) (id : DeliveryId) (f : Fate) : Event → Fate
  | claimed c' id' => if c' = c ∧ id' = id then .held else f
  | reclaimed id' => if id' = id ∧ f = .held then .lost else f
  | _ => f

/-- `held` since the claim was made, `lost` since `reclaim_expired` took it away. -/
def claimFate (h : List Event) (c : ClaimId) (id : DeliveryId) : Fate :=
  h.foldl (fateStep c id) .never

/-- One event's effect on which claim on row `id` is the latest. -/
def lastStep (id : DeliveryId) (last : Option ClaimId) : Event → Option ClaimId
  | claimed c id' => if id' = id then some c else last
  | _ => last

/-- The most recent claim on a row. -/
def lastClaim (h : List Event) (id : DeliveryId) : Option ClaimId :=
  h.foldl (lastStep id) none

/-- The event is a claim or a reclaim of the row. -/
def touches (id : DeliveryId) : Event → Bool
  | claimed _ id' => id' = id
  | reclaimed id' => id' = id
  | _ => false

section

variable {α β : Type} {f : α → β → α} {a : α}

/-- A fold that every item leaves where it is. -/
theorem foldl_eq_self {bs : List β} (h : ∀ b ∈ bs, f a b = a) : bs.foldl f a = a := by
  induction bs with
  | nil => rfl
  | cons b bs ih =>
    obtain ⟨hb, hbs⟩ := List.forall_mem_cons.mp h
    rw [List.foldl_cons, hb, ih hbs]

/-- A fold that one item brings to `a` from anywhere, and none moves away from there. -/
theorem foldl_eq_of_mem {bs : List β} {b : β} (hb : b ∈ bs) (hto : ∀ a', f a' b = a)
    (hstay : ∀ b' ∈ bs, f a b' = a) (a₀ : α) : bs.foldl f a₀ = a := by
  obtain ⟨before, after, rfl⟩ := List.append_of_mem hb
  rw [List.foldl_append, List.foldl_cons, hto]
  refine foldl_eq_self fun b' hb' => hstay b' ?_
  exact List.mem_append_right _ (List.mem_cons_of_mem _ hb')

end

section

variable {h es : List Event} {c c' : ClaimId} {id : DeliveryId}

theorem untouched_of_calls (hes : ∀ ev ∈ es, (callOf ev).isSome) :
    ∀ ev ∈ es, touches id ev = false := by
  intro ev hev
  have := hes ev hev
  cases ev <;> simp_all [callOf, touches]

/-- Events that do not touch a row change neither its latest claim nor any fate on it. -/
theorem claimFate_append_of_untouched (hes : ∀ ev ∈ es, touches id ev = false) :
    claimFate (h ++ es) c id = claimFate h c id := by
  rw [claimFate, List.foldl_append]
  refine foldl_eq_self fun ev hev => ?_
  have := hes ev hev
  cases ev <;> simp_all [touches, fateStep]

theorem lastClaim_append_of_untouched (hes : ∀ ev ∈ es, touches id ev = false) :
    lastClaim (h ++ es) id = lastClaim h id := by
  rw [lastClaim, List.foldl_append]
  refine foldl_eq_self fun ev hev => ?_
  have := hes ev hev
  cases ev <;> simp_all [touches, lastStep]

/-- A claim says nothing about the fate of any other claim. -/
theorem claimFate_append_claims (hne : c' ≠ c) (picked : List DeliveryId) :
    claimFate (h ++ picked.map (claimed c')) c id = claimFate h c id := by
  rw [claimFate, List.foldl_append]
  refine foldl_eq_self fun ev hev => ?_
  obtain ⟨p, -, rfl⟩ := List.mem_map.mp hev
  exact if_neg fun hc => hne hc.1

/-- The rows of a claim are held by it, and it is their latest. -/
theorem claimFate_append_self {picked : List DeliveryId} (hid : id ∈ picked) :
    claimFate (h ++ picked.map (claimed c)) c id = .held := by
  rw [claimFate, List.foldl_append]
  have hmem : claimed c id ∈ picked.map (claimed c) := List.mem_map_of_mem hid
  refine foldl_eq_of_mem hmem (fun f => ?_) (fun ev hev => ?_) _
  · exact if_pos ⟨rfl, rfl⟩
  · obtain ⟨p, -, rfl⟩ := List.mem_map.mp hev
    exact ite_self _

theorem lastClaim_append_self {picked : List DeliveryId} (hid : id ∈ picked) :
    lastClaim (h ++ picked.map (claimed c)) id = some c := by
  rw [lastClaim, List.foldl_append]
  have hmem : claimed c id ∈ picked.map (claimed c) := List.mem_map_of_mem hid
  refine foldl_eq_of_mem hmem (fun last => ?_) (fun ev hev => ?_) _
  · exact if_pos rfl
  · obtain ⟨p, -, rfl⟩ := List.mem_map.mp hev
    exact ite_self _

/-- Reclaims take a held claim away exactly from the rows they name. -/
theorem claimFate_append_reclaims (ids : List DeliveryId) :
    claimFate (h ++ ids.map reclaimed) c id
      = if id ∈ ids ∧ claimFate h c id = .held then .lost else claimFate h c id := by
  have key : ∀ f : Fate, (ids.map reclaimed).foldl (fateStep c id) f
      = if id ∈ ids ∧ f = .held then .lost else f := by
    induction ids with
    | nil => intro f; simp
    | cons p ids ih =>
      intro f
      rw [List.map_cons, List.foldl_cons, ih, fateStep]
      by_cases hp : p = id
      · cases f <;> simp [hp]
      · have hp' : ¬ id = p := fun heq => hp heq.symm
        simp [hp, hp']
  rw [claimFate, List.foldl_append, key]
  rfl

end

end Event

end Hookbox
