/-
# The derived state of a receipt

`hookbox/src/transitions.rs`: the state shown for a receipt is not stored.  It is computed from
the latest mutable delivery row of each emitter (`latest_mutable_per_emitter`), by precedence
(`aggregate_from_states`), with the stored `processing_state` as the answer when no mutable row
exists.

The `BTreeMap` is Std's extensional tree map, so two summaries with the same entries are equal.
-/
import Mathlib
import Hookbox.Types

namespace Hookbox

/-! ## 1. The latest mutable row of each emitter -/

/-- One round of the loop of `latest_mutable_per_emitter`. -/
def noteDelivery (map : Std.ExtTreeMap String (Timestamp × DeliveryState)) (d : WebhookDelivery) :
    Std.ExtTreeMap String (Timestamp × DeliveryState) :=
  if d.immutable then map
  else map.alter d.emitterName fun
    | some (ts, st) => if d.createdAt > ts then some (d.createdAt, d.state) else some (ts, st)
    | none => some (d.createdAt, d.state)

/-- The map built by the loop of `latest_mutable_per_emitter`. -/
def latestEntries (deliveries : List WebhookDelivery) :
    Std.ExtTreeMap String (Timestamp × DeliveryState) :=
  deliveries.foldl noteDelivery ∅

/-- `latest_mutable_per_emitter`. -/
def latestMutablePerEmitter (deliveries : List WebhookDelivery) :
    Std.ExtTreeMap String DeliveryState :=
  (latestEntries deliveries).map fun _ entry => entry.2

/-- `receipt_deliveries_summary`. -/
def receiptDeliveriesSummary (deliveries : List WebhookDelivery) :
    Std.ExtTreeMap String DeliveryState :=
  latestMutablePerEmitter deliveries

/-- `aggregate_from_states`. -/
def aggregateFromStates (states : List DeliveryState) (fallback : ProcessingState) :
    ProcessingState :=
  if states.isEmpty then fallback
  else if states.contains .deadLettered then .deadLettered
  else if states.contains .failed then .emitFailed
  else if states.all (· == .emitted) then .emitted
  else .stored

/-- `receipt_aggregate_state`. -/
def receiptAggregateState (deliveries : List WebhookDelivery) (fallback : ProcessingState) :
    ProcessingState :=
  aggregateFromStates ((latestMutablePerEmitter deliveries).toList.map (·.2)) fallback

/-! ## 2. What an entry of the map says -/

theorem latestEntries_snoc (ds : List WebhookDelivery) (d : WebhookDelivery) :
    latestEntries (ds ++ [d]) = noteDelivery (latestEntries ds) d := by
  simp [latestEntries, List.foldl_append]

/-- Every entry comes from a mutable row of its emitter. -/
theorem latestEntries_sound {ds : List WebhookDelivery} :
    ∀ {e : String} {ts : Timestamp} {st : DeliveryState},
      (latestEntries ds)[e]? = some (ts, st) →
      ∃ d ∈ ds, d.immutable = false ∧ d.emitterName = e ∧ d.createdAt = ts ∧ d.state = st := by
  induction ds using List.reverseRecOn with
  | nil =>
    intro e ts st h
    simp [latestEntries] at h
  | append_singleton ds d ih =>
    intro e ts st h
    have keep : (latestEntries ds)[e]? = some (ts, st) → ∃ d' ∈ ds ++ [d],
        d'.immutable = false ∧ d'.emitterName = e ∧ d'.createdAt = ts ∧ d'.state = st := by
      intro h'
      obtain ⟨d', hd', hrest⟩ := ih h'
      exact ⟨d', List.mem_append_left _ hd', hrest⟩
    have take : d.immutable = false → d.emitterName = e → (d.createdAt, d.state) = (ts, st) →
        ∃ d' ∈ ds ++ [d],
          d'.immutable = false ∧ d'.emitterName = e ∧ d'.createdAt = ts ∧ d'.state = st := by
      intro hi he hp
      rw [Prod.mk.injEq] at hp
      exact ⟨d, List.mem_append_right _ List.mem_cons_self, hi, he, hp.1, hp.2⟩
    rw [latestEntries_snoc, noteDelivery] at h
    split at h
    · exact keep h
    · rename_i hi
      rw [Std.ExtTreeMap.getElem?_alter] at h
      split at h
      · rename_i he
        have he' : d.emitterName = e := Std.LawfulEqCmp.eq_of_compare he
        split at h
        · rename_i ts' st' hold
          split at h
          · exact take (by simpa using hi) he' (Option.some.inj h)
          · rw [he'] at hold
            exact keep (hold.trans h)
        · exact take (by simpa using hi) he' (Option.some.inj h)
      · exact keep h

/-- Every mutable row has an entry for its emitter. -/
theorem latestEntries_complete {ds : List WebhookDelivery} :
    ∀ {d : WebhookDelivery}, d ∈ ds → d.immutable = false →
      ∃ entry, (latestEntries ds)[d.emitterName]? = some entry := by
  induction ds using List.reverseRecOn with
  | nil => intro d hd; simp at hd
  | append_singleton ds a ih =>
    intro d hd hi
    rw [latestEntries_snoc, noteDelivery]
    rcases List.mem_append.mp hd with hd | hd
    · obtain ⟨entry, hentry⟩ := ih hd hi
      split
      · exact ⟨entry, hentry⟩
      · rw [Std.ExtTreeMap.getElem?_alter]
        split
        · split
          · split <;> exact ⟨_, rfl⟩
          · exact ⟨_, rfl⟩
        · exact ⟨entry, hentry⟩
    · obtain rfl := List.mem_singleton.mp hd
      rw [if_neg (by simp [hi]), Std.ExtTreeMap.getElem?_alter_self]
      split
      · split <;> exact ⟨_, rfl⟩
      · exact ⟨_, rfl⟩

theorem noteDelivery_of_ne {map : Std.ExtTreeMap String (Timestamp × DeliveryState)}
    {d : WebhookDelivery} {e : String} (h : d.immutable = false → d.emitterName ≠ e) :
    (noteDelivery map d)[e]? = map[e]? := by
  unfold noteDelivery
  split
  · rfl
  · rename_i hi
    rw [Std.ExtTreeMap.getElem?_alter, if_neg]
    intro heq
    exact h (by simpa using hi) (Std.LawfulEqCmp.eq_of_compare heq)

/-- Rows that are not newer leave an entry alone. -/
theorem foldl_noteDelivery_of_le {bs : List WebhookDelivery} {e : String} {ts : Timestamp}
    {st : DeliveryState} :
    ∀ {map : Std.ExtTreeMap String (Timestamp × DeliveryState)}, map[e]? = some (ts, st) →
      (∀ b ∈ bs, b.immutable = false → b.emitterName = e → b.createdAt ≤ ts) →
      (bs.foldl noteDelivery map)[e]? = some (ts, st) := by
  induction bs with
  | nil => intro map h _; exact h
  | cons b bs ih =>
    intro map h hle
    refine ih ?_ fun b' hb' => hle b' (List.mem_cons_of_mem _ hb')
    by_cases hb : b.immutable = false ∧ b.emitterName = e
    · obtain ⟨hi, rfl⟩ := hb
      have hnot : ¬ b.createdAt > ts := not_lt.mpr (hle b List.mem_cons_self hi rfl)
      rw [noteDelivery, if_neg (by simp [hi]), Std.ExtTreeMap.getElem?_alter_self, h]
      exact if_neg hnot
    · rw [noteDelivery_of_ne fun hi he => hb ⟨hi, he⟩, h]

/-- **The row an entry shows**: newer than those before it in the list, and at least as new as
those after it. -/
theorem latestEntries_split {as bs : List WebhookDelivery} {d : WebhookDelivery}
    (hi : d.immutable = false)
    (ha : ∀ a ∈ as, a.immutable = false → a.emitterName = d.emitterName → a.createdAt < d.createdAt)
    (hb : ∀ b ∈ bs, b.immutable = false → b.emitterName = d.emitterName →
      b.createdAt ≤ d.createdAt) :
    (latestEntries (as ++ d :: bs))[d.emitterName]? = some (d.createdAt, d.state) := by
  have hd : (noteDelivery (latestEntries as) d)[d.emitterName]? = some (d.createdAt, d.state) := by
    rw [noteDelivery, if_neg (by simp [hi]), Std.ExtTreeMap.getElem?_alter_self]
    split
    · rename_i ts st hentry
      obtain ⟨a, hmem, hai, hae, rfl, -⟩ := latestEntries_sound hentry
      exact if_pos (ha a hmem hai hae)
    · rfl
  rw [latestEntries, List.foldl_append, List.foldl_cons]
  exact foldl_noteDelivery_of_le hd hb

/-- No mutable row of the emitter is newer than its entry. -/
theorem latestEntries_newest {ds : List WebhookDelivery} :
    ∀ {e : String} {ts : Timestamp} {st : DeliveryState},
      (latestEntries ds)[e]? = some (ts, st) →
      ∀ d ∈ ds, d.immutable = false → d.emitterName = e → d.createdAt ≤ ts := by
  induction ds using List.reverseRecOn with
  | nil =>
    intro e ts st _ d hd
    exact absurd hd List.not_mem_nil
  | append_singleton ds d ih =>
    intro e ts st h d' hd' hi' he'
    by_cases hd : d.immutable = false ∧ d.emitterName = e
    · obtain ⟨hi, rfl⟩ := hd
      rw [latestEntries_snoc, noteDelivery, if_neg (by simp [hi]),
        Std.ExtTreeMap.getElem?_alter_self] at h
      rcases List.mem_append.mp hd' with hd' | hd'
      · -- The entry can only have moved forward.
        obtain ⟨⟨ts', st'⟩, hold⟩ := latestEntries_complete hd' hi'
        rw [he'] at hold
        have hle := ih hold d' hd' hi' he'
        rw [hold] at h
        dsimp only at h
        split at h
        · rename_i hgt
          obtain ⟨rfl, -⟩ := Prod.mk.inj (Option.some.inj h)
          exact hle.trans (le_of_lt hgt)
        · obtain ⟨rfl, -⟩ := Prod.mk.inj (Option.some.inj h)
          exact hle
      · rw [List.mem_singleton.mp hd']
        split at h
        · split at h
          · obtain ⟨rfl, -⟩ := Prod.mk.inj (Option.some.inj h)
            exact le_rfl
          · rename_i hgt
            obtain ⟨rfl, -⟩ := Prod.mk.inj (Option.some.inj h)
            exact not_lt.mp hgt
        · obtain ⟨rfl, -⟩ := Prod.mk.inj (Option.some.inj h)
          exact le_rfl
    · rw [latestEntries_snoc, noteDelivery_of_ne fun hi he => hd ⟨hi, he⟩] at h
      rcases List.mem_append.mp hd' with hd' | hd'
      · exact ih h d' hd' hi' he'
      · rw [List.mem_singleton.mp hd'] at hi' he'
        exact absurd ⟨hi', he'⟩ hd

theorem mem_latest_states {ds : List WebhookDelivery} {st : DeliveryState} :
    st ∈ (latestMutablePerEmitter ds).toList.map (·.2) ↔
      ∃ e : String, (latestMutablePerEmitter ds)[e]? = some st := by
  simp only [List.mem_map, Prod.exists, Std.ExtTreeMap.mem_toList_iff_getElem?_eq_some]
  constructor
  · rintro ⟨e, st', h, rfl⟩; exact ⟨e, h⟩
  · rintro ⟨e, h⟩; exact ⟨e, st, h, rfl⟩

theorem latestMutable_getElem? {ds : List WebhookDelivery} {e : String} :
    (latestMutablePerEmitter ds)[e]? = (latestEntries ds)[e]?.map (·.2) := by
  rw [latestMutablePerEmitter, Std.ExtTreeMap.getElem?_map]

/-- The state shown for an emitter is the state of one of its mutable rows. -/
theorem latestMutable_sound {ds : List WebhookDelivery} {e : String} {st : DeliveryState}
    (h : (latestMutablePerEmitter ds)[e]? = some st) :
    ∃ d ∈ ds, d.immutable = false ∧ d.emitterName = e ∧ d.state = st := by
  rw [latestMutable_getElem?, Option.map_eq_some_iff] at h
  obtain ⟨⟨ts, st'⟩, h, rfl⟩ := h
  obtain ⟨d, hd, hi, he, -, hst⟩ := latestEntries_sound h
  exact ⟨d, hd, hi, he, hst⟩

/-- Every emitter with a mutable row has a state. -/
theorem latestMutable_complete {ds : List WebhookDelivery} {d : WebhookDelivery} (hd : d ∈ ds)
    (hi : d.immutable = false) : ∃ st, (latestMutablePerEmitter ds)[d.emitterName]? = some st := by
  obtain ⟨entry, h⟩ := latestEntries_complete hd hi
  exact ⟨entry.2, by rw [latestMutable_getElem?, h, Option.map_some]⟩

/-! ## 3. Reading the aggregate back -/

/-- What the states of its emitters make of a receipt. -/
def StatesSay (states : List DeliveryState) : ProcessingState → Prop
  | .deadLettered => .deadLettered ∈ states
  | .emitFailed => (∀ st ∈ states, st ≠ .deadLettered) ∧ .failed ∈ states
  | .emitted => ∀ st ∈ states, st = .emitted
  | .stored => (∀ st ∈ states, st ≠ .deadLettered ∧ st ≠ .failed) ∧
      ∃ st ∈ states, st = .pending ∨ st = .inFlight
  | _ => False

theorem aggregate_of_statesSay {states : List DeliveryState} (hne : states ≠ [])
    {fallback p : ProcessingState} (h : StatesSay states p) :
    aggregateFromStates states fallback = p := by
  have hnot : ∀ st, (∀ st' ∈ states, st' ≠ st) → ¬ states.contains st = true :=
    fun st hall hc => hall st (List.contains_iff_mem.mp hc) rfl
  unfold aggregateFromStates
  rw [if_neg (by simpa using hne)]
  cases p with
  | deadLettered => exact if_pos (List.contains_iff_mem.mpr h)
  | emitFailed => rw [if_neg (hnot _ h.1), if_pos (List.contains_iff_mem.mpr h.2)]
  | emitted =>
    have hother : ∀ st, st ≠ .emitted → ∀ st' ∈ states, st' ≠ st :=
      fun st hst st' hst' heq => hst (heq ▸ h st' hst')
    have hall : states.all (· == .emitted) = true :=
      List.all_eq_true.mpr fun st hst => by rw [h st hst]; rfl
    rw [if_neg (hnot _ (hother _ (by decide))), if_neg (hnot _ (hother _ (by decide))), if_pos hall]
  | stored =>
    obtain ⟨hno, st, hst, hopen⟩ := h
    have hall : ¬ states.all (· == .emitted) = true := by
      intro hall
      have hemitted : st = .emitted := by simpa using List.all_eq_true.mp hall st hst
      rw [hemitted] at hopen
      exact absurd hopen (by decide)
    rw [if_neg (hnot _ fun st hst => (hno st hst).1), if_neg (hnot _ fun st hst => (hno st hst).2),
      if_neg hall]
  | received | verified | verificationFailed | duplicate | processed | replayed => exact h.elim

theorem statesSay_aggregate {states : List DeliveryState} (hne : states ≠ [])
    (fallback : ProcessingState) : StatesSay states (aggregateFromStates states fallback) := by
  unfold aggregateFromStates
  rw [if_neg (by simpa using hne)]
  split
  · rename_i hdead
    exact List.contains_iff_mem.mp hdead
  · rename_i hdead
    have hdead' : ∀ st ∈ states, st ≠ .deadLettered := by
      rintro st hst rfl
      exact hdead (List.contains_iff_mem.mpr hst)
    split
    · rename_i hfailed
      exact ⟨hdead', List.contains_iff_mem.mp hfailed⟩
    · rename_i hfailed
      have hfailed' : ∀ st ∈ states, st ≠ .failed := by
        rintro st hst rfl
        exact hfailed (List.contains_iff_mem.mpr hst)
      split
      · rename_i hall
        intro st hst
        simpa using List.all_eq_true.mp hall st hst
      · rename_i hall
        refine ⟨fun st hst => ⟨hdead' st hst, hfailed' st hst⟩, ?_⟩
        obtain ⟨st, hst, hne⟩ : ∃ st ∈ states, st ≠ .emitted := by simpa using hall
        have h₁ := hdead' st hst
        have h₂ := hfailed' st hst
        refine ⟨st, hst, ?_⟩
        cases st <;> simp_all

/-- **The aggregate** of the states of some emitters. -/
theorem aggregateFromStates_eq_iff {states : List DeliveryState} (hne : states ≠ [])
    {fallback p : ProcessingState} :
    aggregateFromStates states fallback = p ↔ StatesSay states p := by
  constructor
  · rintro rfl
    exact statesSay_aggregate hne fallback
  · exact aggregate_of_statesSay hne

/-- **A receipt shown as emitted**: every emitter with a mutable row has one that is emitted. -/
theorem receiptAggregate_emitted {ds : List WebhookDelivery} {fallback : ProcessingState}
    {d : WebhookDelivery} (hd : d ∈ ds) (hi : d.immutable = false)
    (h : receiptAggregateState ds fallback = .emitted) :
    ∃ d' ∈ ds, d'.immutable = false ∧ d'.emitterName = d.emitterName ∧ d'.state = .emitted := by
  obtain ⟨st, hst⟩ := latestMutable_complete hd hi
  have hmem := mem_latest_states.mpr ⟨d.emitterName, hst⟩
  obtain rfl := (aggregateFromStates_eq_iff (List.ne_nil_of_mem hmem)).mp h st hmem
  exact latestMutable_sound hst

/-- **A receipt shown as dead-lettered**: some mutable row of it is. -/
theorem receiptAggregate_deadLettered {ds : List WebhookDelivery} {fallback : ProcessingState}
    {d : WebhookDelivery} (hd : d ∈ ds) (hi : d.immutable = false)
    (h : receiptAggregateState ds fallback = .deadLettered) :
    ∃ d' ∈ ds, d'.immutable = false ∧ d'.state = .deadLettered := by
  obtain ⟨st, hst⟩ := latestMutable_complete hd hi
  have hmem := mem_latest_states.mpr ⟨d.emitterName, hst⟩
  obtain ⟨e, he⟩ := mem_latest_states.mp ((aggregateFromStates_eq_iff (List.ne_nil_of_mem hmem)).mp h)
  obtain ⟨d', hd', hi', -, hst'⟩ := latestMutable_sound he
  exact ⟨d', hd', hi', hst'⟩

/-- **Immutable rows alone say nothing**: the stored state is shown. -/
theorem receiptAggregate_of_immutable {ds : List WebhookDelivery} (fallback : ProcessingState)
    (h : ∀ d ∈ ds, d.immutable = true) : receiptAggregateState ds fallback = fallback := by
  have hnil : (latestMutablePerEmitter ds).toList.map (·.2) = [] := by
    rw [List.eq_nil_iff_forall_not_mem]
    intro st hst
    obtain ⟨e, he⟩ := mem_latest_states.mp hst
    obtain ⟨d, hd, hi, -⟩ := latestMutable_sound he
    rw [h d hd] at hi
    exact absurd hi (by simp)
  unfold receiptAggregateState aggregateFromStates
  rw [hnil]
  rfl

end Hookbox
