/-
# The aggregate as a projection

What `latest_mutable_per_emitter` (`hookbox/src/transitions.rs`) computes, whatever the order of the
rows: for each emitter the first of its newest mutable rows, `List.argmax` of `created_at` over the
mutable rows of the emitter.

* `latestEntries_getElem?`: the loop is that projection.  One round is one step of `argmax`.
* `argmax_perm`: with distinct timestamps the order of the rows does not matter.
* `severity_aggregate_le`: an aggregate gets no worse when its states are replaced by `emitted`.
* `latest_mutable_projection`: the laws together.
-/
import Hookbox.Transitions

namespace Hookbox

/-! ## 1. The projection -/

/-- The mutable rows of an emitter, in their order. -/
def mutableRows (e : String) (ds : List WebhookDelivery) : List WebhookDelivery :=
  ds.filter fun d => d.immutable = false ∧ d.emitterName = e

/-- The first of the newest mutable rows of an emitter. -/
noncomputable def newestMutable (e : String) (ds : List WebhookDelivery) : Option WebhookDelivery :=
  (mutableRows e ds).argmax (·.createdAt)

theorem mem_mutableRows {e : String} {ds : List WebhookDelivery} {d : WebhookDelivery} :
    d ∈ mutableRows e ds ↔ d ∈ ds ∧ d.immutable = false ∧ d.emitterName = e := by
  simp [mutableRows]

theorem mutableRows_snoc (e : String) (ds : List WebhookDelivery) (d : WebhookDelivery) :
    mutableRows e (ds ++ [d])
      = if d.immutable = false ∧ d.emitterName = e then mutableRows e ds ++ [d]
        else mutableRows e ds := by
  unfold mutableRows
  rw [List.filter_append, List.filter_singleton]
  by_cases h : d.immutable = false ∧ d.emitterName = e
  · simp [h]
  · simp only [h, decide_false, cond_false, if_false, List.append_nil]

/-- **The loop is the projection.** -/
theorem latestEntries_getElem? (ds : List WebhookDelivery) (e : String) :
    (latestEntries ds)[e]? = (newestMutable e ds).map fun d => (d.createdAt, d.state) := by
  induction ds using List.reverseRecOn with
  | nil => simp [latestEntries, newestMutable, mutableRows]
  | append_singleton ds d ih =>
    rw [latestEntries_snoc, newestMutable, mutableRows_snoc]
    by_cases hd : d.immutable = false ∧ d.emitterName = e
    · obtain ⟨hi, rfl⟩ := hd
      rw [if_pos ⟨hi, rfl⟩, List.argmax_concat, noteDelivery, if_neg (by simp [hi]),
        Std.ExtTreeMap.getElem?_alter_self, ih, newestMutable]
      cases (mutableRows d.emitterName ds).argmax (·.createdAt) with
      | none => rfl
      | some newest =>
        by_cases hgt : d.createdAt > newest.createdAt
        · simp [hgt]
        · simp [hgt]
    · rw [if_neg hd, noteDelivery_of_ne fun hi he => hd ⟨hi, he⟩, ih, newestMutable]

/-- **The summary is the projection.** -/
theorem summary_getElem? (ds : List WebhookDelivery) (e : String) :
    (receiptDeliveriesSummary ds)[e]? = (newestMutable e ds).map (·.state) := by
  rw [receiptDeliveriesSummary, latestMutable_getElem?, latestEntries_getElem?, Option.map_map]
  rfl

/-- The emitters of the summary are those with a mutable row. -/
theorem mem_summary {ds : List WebhookDelivery} {e : String} :
    e ∈ receiptDeliveriesSummary ds ↔ ∃ d ∈ ds, d.immutable = false ∧ d.emitterName = e := by
  rw [Std.ExtTreeMap.mem_iff_isSome_getElem?, summary_getElem?, Option.isSome_map,
    Option.isSome_iff_ne_none, newestMutable, Ne, List.argmax_eq_none, List.eq_nil_iff_forall_not_mem]
  simp only [mem_mutableRows, not_forall, not_not]

/-! ## 2. What the projection does not depend on -/

/-- Summaries are equal when they show the same newest rows, and then so are the aggregates. -/
theorem summary_congr {ds ds' : List WebhookDelivery}
    (h : ∀ e, newestMutable e ds' = newestMutable e ds) :
    receiptDeliveriesSummary ds' = receiptDeliveriesSummary ds ∧
      ∀ fallback, receiptAggregateState ds' fallback = receiptAggregateState ds fallback := by
  have heq : receiptDeliveriesSummary ds' = receiptDeliveriesSummary ds :=
    Std.ExtTreeMap.ext_getElem? fun {e} => by rw [summary_getElem?, summary_getElem?, h]
  refine ⟨heq, fun fallback => ?_⟩
  rw [receiptAggregateState, receiptAggregateState]
  exact congrArg (fun m => aggregateFromStates (m.toList.map (·.2)) fallback) heq

/-- With distinct keys the order of the elements does not matter to `argmax`. -/
theorem argmax_perm {α β : Type} [DecidableEq α] [LinearOrder β] {f : α → β} {l l' : List α}
    (hp : l'.Perm l) (hf : (l.map f).Nodup) : l'.argmax f = l.argmax f := by
  have hinj := List.inj_on_of_nodup_map hf
  cases h : l.argmax f with
  | none => rw [List.argmax_eq_none.mp h] at hp; rw [List.perm_nil.mp hp, List.argmax_nil]
  | some m =>
    obtain ⟨hm, hmax, -⟩ := List.argmax_eq_some_iff.mp h
    cases h' : l'.argmax f with
    | none =>
      rw [List.argmax_eq_none.mp h'] at hp
      rw [List.nil_perm.mp hp] at hm
      exact absurd hm List.not_mem_nil
    | some m' =>
      obtain ⟨hm', hmax', -⟩ := List.argmax_eq_some_iff.mp h'
      have hle := hmax m' (hp.subset hm')
      have hge := hmax' m (hp.symm.subset hm)
      rw [hinj (hp.subset hm') hm (le_antisymm hle hge)]

/-- A row newer than all others of its emitter is the one that is shown, wherever it stands. -/
theorem summary_insert {as bs : List WebhookDelivery} {d : WebhookDelivery}
    (hi : d.immutable = false)
    (hlater : ∀ a ∈ as ++ bs, a.immutable = false → a.emitterName = d.emitterName →
      a.createdAt < d.createdAt) :
    receiptDeliveriesSummary (as ++ d :: bs)
      = (receiptDeliveriesSummary (as ++ bs)).insert d.emitterName d.state := by
  refine Std.ExtTreeMap.ext_getElem? fun {e} => ?_
  rw [Std.ExtTreeMap.getElem?_insert]
  split
  · rename_i heq
    obtain rfl : d.emitterName = e := Std.LawfulEqCmp.eq_of_compare heq
    rw [receiptDeliveriesSummary, latestMutable_getElem?, latestEntries_split hi
      (fun a ha => hlater a (List.mem_append_left _ ha))
      (fun b hb hbi hbe => (hlater b (List.mem_append_right _ hb) hbi hbe).le)]
    rfl
  · rename_i hne
    have he : d.emitterName ≠ e := by
      rintro rfl
      exact hne Std.ReflCmp.compare_self
    have hrows : mutableRows e (as ++ d :: bs) = mutableRows e (as ++ bs) := by
      simp [mutableRows, he]
    rw [summary_getElem?, summary_getElem?, newestMutable, hrows, newestMutable]

/-! ## 3. Getting no worse -/

/-- The order of the aggregates, best first; the other states are no aggregates. -/
def ProcessingState.severity : ProcessingState → Option Nat
  | .emitted => some 0
  | .stored => some 1
  | .emitFailed => some 2
  | .deadLettered => some 3
  | _ => none

/-- **More `emitted` is no worse**: every state of the new list is `emitted` or one of the old. -/
theorem severity_aggregate_le {states states' : List DeliveryState} (hne : states ≠ [])
    (hne' : states' ≠ []) (h : ∀ st ∈ states', st = .emitted ∨ st ∈ states)
    (fallback : ProcessingState) :
    ∃ s s', (aggregateFromStates states fallback).severity = some s ∧
      (aggregateFromStates states' fallback).severity = some s' ∧ s' ≤ s := by
  have hold := statesSay_aggregate hne fallback
  have hnew := statesSay_aggregate hne' fallback
  have hkeep : ∀ st, st ≠ .emitted → st ∈ states' → st ∈ states :=
    fun st hst hmem => (h st hmem).resolve_left hst
  generalize aggregateFromStates states fallback = p at hold ⊢
  generalize aggregateFromStates states' fallback = p' at hnew ⊢
  cases p' with
  | deadLettered =>
    have hdead := hkeep _ (by decide) hnew
    cases p with
    | deadLettered => exact ⟨3, 3, rfl, rfl, le_rfl⟩
    | emitFailed => exact absurd rfl (hold.1 _ hdead)
    | stored => exact absurd rfl (hold.1 _ hdead).1
    | emitted => exact absurd (hold _ hdead) (by decide)
    | _ => exact hold.elim
  | emitFailed =>
    have hfailed := hkeep _ (by decide) hnew.2
    cases p with
    | deadLettered => exact ⟨3, 2, rfl, rfl, by decide⟩
    | emitFailed => exact ⟨2, 2, rfl, rfl, le_rfl⟩
    | stored => exact absurd rfl (hold.1 _ hfailed).2
    | emitted => exact absurd (hold _ hfailed) (by decide)
    | _ => exact hold.elim
  | stored =>
    obtain ⟨-, st, hst, hopen⟩ := hnew
    have hst' := hkeep st (by rintro rfl; exact absurd hopen (by decide)) hst
    cases p with
    | deadLettered => exact ⟨3, 1, rfl, rfl, by decide⟩
    | emitFailed => exact ⟨2, 1, rfl, rfl, by decide⟩
    | stored => exact ⟨1, 1, rfl, rfl, le_rfl⟩
    | emitted => rw [hold st hst'] at hopen; exact absurd hopen (by decide)
    | _ => exact hold.elim
  | emitted =>
    cases p with
    | deadLettered => exact ⟨3, 0, rfl, rfl, by decide⟩
    | emitFailed => exact ⟨2, 0, rfl, rfl, by decide⟩
    | stored => exact ⟨1, 0, rfl, rfl, by decide⟩
    | emitted => exact ⟨0, 0, rfl, rfl, le_rfl⟩
    | _ => exact hold.elim
  | _ => exact hnew.elim

/-! ## 4. The laws -/

/-- The states that `receipt_aggregate_state` looks at. -/
theorem mem_summary_states {ds : List WebhookDelivery} {st : DeliveryState} :
    st ∈ (receiptDeliveriesSummary ds).toList.map (·.2) ↔
      ∃ e : String, (receiptDeliveriesSummary ds)[e]? = some st :=
  mem_latest_states

/-- **Aggregation is the latest-mutable projection.**  The summary shows, for exactly the emitters
with a mutable row, the first of the newest ones.  Summary and aggregate do not depend on the order of
rows with distinct timestamps, nor on immutable rows.  A row later than the other mutable rows of its
emitter replaces that emitter's entry alone, and if it is `emitted`, and some mutable row existed, the
aggregate gets no worse. -/
theorem latest_mutable_projection (ds : List WebhookDelivery) :
    (∀ e : String, (receiptDeliveriesSummary ds)[e]?
        = ((mutableRows e ds).argmax (·.createdAt)).map (·.state)) ∧
    (∀ e, e ∈ receiptDeliveriesSummary ds ↔ ∃ d ∈ ds, d.immutable = false ∧ d.emitterName = e) ∧
    (∀ ds', ds'.Perm ds → (∀ e, ((mutableRows e ds).map (·.createdAt)).Nodup) →
      receiptDeliveriesSummary ds' = receiptDeliveriesSummary ds ∧
        ∀ fallback, receiptAggregateState ds' fallback = receiptAggregateState ds fallback) ∧
    (∀ ds', ds'.filter (fun d => d.immutable = false) = ds.filter (fun d => d.immutable = false) →
      receiptDeliveriesSummary ds' = receiptDeliveriesSummary ds ∧
        ∀ fallback, receiptAggregateState ds' fallback = receiptAggregateState ds fallback) ∧
    (∀ as d bs, ds = as ++ bs → d.immutable = false →
      (∀ a ∈ ds, a.immutable = false → a.emitterName = d.emitterName → a.createdAt < d.createdAt) →
      receiptDeliveriesSummary (as ++ d :: bs)
          = (receiptDeliveriesSummary ds).insert d.emitterName d.state ∧
        (d.state = .emitted → (∃ a ∈ ds, a.immutable = false) → ∀ fallback, ∃ s s',
          (receiptAggregateState ds fallback).severity = some s ∧
            (receiptAggregateState (as ++ d :: bs) fallback).severity = some s' ∧ s' ≤ s)) := by
  refine ⟨summary_getElem? ds, fun e => mem_summary, ?_, ?_, ?_⟩
  · intro ds' hp hdistinct
    exact summary_congr fun e => argmax_perm (hp.filter _) (hdistinct e)
  · intro ds' hfilter
    refine summary_congr fun e => ?_
    have hrows : ∀ rows : List WebhookDelivery, mutableRows e rows
        = (rows.filter fun d => d.immutable = false).filter fun d => d.emitterName = e := by
      intro rows
      simp [mutableRows, List.filter_filter, Bool.and_comm]
    rw [newestMutable, newestMutable, hrows, hrows, hfilter]
  · rintro as d bs rfl hi hlater
    have hinsert := summary_insert hi hlater
    refine ⟨hinsert, fun hemitted hmutable fallback => ?_⟩
    obtain ⟨a, ha, hai⟩ := hmutable
    obtain ⟨st, hst⟩ := latestMutable_complete ha hai
    refine severity_aggregate_le (List.ne_nil_of_mem (mem_summary_states.mpr ⟨_, hst⟩)) ?_ ?_ fallback
    · have hd : (receiptDeliveriesSummary (as ++ d :: bs))[d.emitterName]? = some d.state := by
        rw [hinsert, Std.ExtTreeMap.getElem?_insert_self]
      exact List.ne_nil_of_mem (mem_summary_states.mpr ⟨_, hd⟩)
    · intro st' hst'
      obtain ⟨e, he⟩ := mem_summary_states.mp hst'
      rw [hinsert, Std.ExtTreeMap.getElem?_insert] at he
      split at he
      · exact Or.inl ((Option.some.inj he).symm.trans hemitted)
      · exact Or.inr (mem_summary_states.mpr ⟨e, he⟩)

end Hookbox
