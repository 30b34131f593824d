/-
# The bounded dedupe cache

`InMemoryRecentDedupe` (`hookbox/src/dedupe.rs`) against a model that knows nothing of its map and
queue: the history of the recordings that were effective, of which the last `capacity` count.  The
mutex makes each call atomic, so whatever the callers do is a sequence of calls.

* `Tracks`: the queue and the map both say what the window of the history says.  `record` keeps it,
  whether it is a no-op, makes room by evicting, or finds room.
* `recent_cache_exact`: after any calls the two structures agree, stay within the capacity, and
  `check` answers what the last `capacity` effective recordings say.
-/
import Hookbox.Lib.Recent
import Hookbox.Startup

namespace Hookbox

open Recent (window keys)

/-! ## 1. Calls -/

/-- A call on the cache. -/
inductive CacheCall where
  | check (dedupeKey payloadHash : String)
  | record (dedupeKey payloadHash : String)

/-- What a call leaves of the cache. -/
def InMemoryRecentDedupe.call (cache : InMemoryRecentDedupe) : CacheCall → InMemoryRecentDedupe
  | .check _ _ => cache
  | .record dedupeKey payloadHash => cache.record dedupeKey payloadHash

/-- The effective recordings of a sequence of calls, on a cache of the given capacity. -/
def effectiveRecordings (capacity : Nat) (calls : List CacheCall) : List (String × String) :=
  calls.foldl (fun log call =>
    match call with
    | .check _ _ => log
    | .record dedupeKey payloadHash => Recent.record capacity log dedupeKey payloadHash) []

/-! ## 2. The invariant -/

/-- The cache shows the end of a history of effective recordings. -/
structure InMemoryRecentDedupe.Tracks (cache : InMemoryRecentDedupe)
    (log : List (String × String)) : Prop where
  order : cache.order = keys cache.capacity log
  map : ∀ k h, cache.map[k]? = some h ↔ (k, h) ∈ window cache.capacity log
  nodup : (keys cache.capacity log).Nodup
  size : cache.map.size = cache.order.length

namespace InMemoryRecentDedupe

variable {cache : InMemoryRecentDedupe} {log : List (String × String)}

/-- The keys of the map are those of the queue. -/
theorem Tracks.mem_map (ht : cache.Tracks log) {k : String} :
    k ∈ cache.map ↔ k ∈ keys cache.capacity log := by
  rw [Std.ExtTreeMap.mem_iff_isSome_getElem?, Option.isSome_iff_exists, keys, List.mem_map]
  constructor
  · rintro ⟨h, hk⟩
    exact ⟨(k, h), (ht.map k h).mp hk, rfl⟩
  · rintro ⟨⟨k, h⟩, hk, rfl⟩
    exact ⟨h, (ht.map k h).mpr hk⟩

theorem tracks_new (capacity : Nat) :
    ({ capacity := capacity } : InMemoryRecentDedupe).Tracks [] where
  order := by simp
  map := by simp
  nodup := by simp
  size := by simp

/-- Insert an entry under a fresh key, behind entries that the map shows. -/
theorem insert_shows {map : Std.ExtTreeMap String String} {entries : List (String × String)}
    (hmap : ∀ k h, map[k]? = some h ↔ (k, h) ∈ entries) {key : String} (hash : String)
    (hkey : key ∉ entries.map Prod.fst) (k h : String) :
    (map.insert key hash)[k]? = some h ↔ (k, h) ∈ entries ++ [(key, hash)] := by
  rw [Std.ExtTreeMap.getElem?_insert, List.mem_append, List.mem_singleton, Prod.mk.injEq]
  split
  · rename_i heq
    obtain rfl : key = k := Std.LawfulEqCmp.eq_of_compare heq
    have hnot : (key, h) ∉ entries := fun hmem => hkey (List.mem_map_of_mem hmem)
    simp [hnot, eq_comm]
  · rename_i hne
    have hkk : k ≠ key := by
      rintro rfl
      exact hne Std.ReflCmp.compare_self
    simp [hmap, hkk]

/-- Evict the oldest of the entries that the map shows. -/
theorem erase_shows {map : Std.ExtTreeMap String String} {oldest : String × String}
    {entries : List (String × String)}
    (hmap : ∀ k h, map[k]? = some h ↔ (k, h) ∈ oldest :: entries)
    (hnodup : ((oldest :: entries).map Prod.fst).Nodup) (k h : String) :
    (map.erase oldest.1)[k]? = some h ↔ (k, h) ∈ entries := by
  rw [List.map_cons, List.nodup_cons] at hnodup
  rw [Std.ExtTreeMap.getElem?_erase]
  split
  · rename_i heq
    obtain rfl : oldest.1 = k := Std.LawfulEqCmp.eq_of_compare heq
    have hnot : (oldest.1, h) ∉ entries := fun hmem => hnodup.1 (List.mem_map.mpr ⟨_, hmem, rfl⟩)
    simp [hnot]
  · rename_i hne
    have hkk : (k, h) ≠ oldest := by
      rintro rfl
      exact hne Std.ReflCmp.compare_self
    simp [hmap, hkk]

/-- **`record` keeps the cache on the history.** -/
theorem Tracks.record (ht : cache.Tracks log) (hcap : 0 < cache.capacity) (key hash : String) :
    (cache.record key hash).Tracks (Recent.record cache.capacity log key hash) := by
  have hnodup := Recent.nodup_keys_record hcap ht.nodup key hash
  have hlen : cache.map.size = (window cache.capacity log).length := by
    rw [ht.size, ht.order, keys, List.length_map]
  by_cases hkey : key ∈ keys cache.capacity log
  · rw [InMemoryRecentDedupe.record, if_pos (Std.ExtTreeMap.mem_iff_contains.mp (ht.mem_map.mpr hkey)),
      Recent.record, if_pos hkey]
    exact ht
  · have hmem : key ∉ cache.map := fun h => hkey (ht.mem_map.mp h)
    rw [Recent.record, if_neg hkey] at hnodup ⊢
    rw [InMemoryRecentDedupe.record, if_neg (by simpa using hmem)]
    have hwindow := Recent.window_snoc hcap log (key, hash)
    by_cases hfull : cache.map.size ≥ cache.capacity
    · -- The window is full: its first entry is the oldest key of the queue.
      obtain ⟨oldest, entries, hw⟩ : ∃ o es, window cache.capacity log = o :: es :=
        List.exists_cons_of_length_pos (by omega)
      have horder : cache.order = oldest.1 :: entries.map Prod.fst := by
        rw [ht.order, keys, hw, List.map_cons]
      rw [if_pos (hlen ▸ hfull), hw, List.tail_cons] at hwindow
      rw [if_pos hfull, horder]
      have hshows := erase_shows (by simpa [hw] using ht.map) (by simpa [keys, hw] using ht.nodup)
      have hfresh : key ∉ entries.map Prod.fst := by
        intro h
        rw [keys, hw, List.map_cons] at hkey
        exact hkey (List.mem_cons_of_mem _ h)
      refine ⟨?_, ?_, hnodup, ?_⟩
      · simp [keys, hwindow]
      · rw [hwindow]
        exact insert_shows hshows hash hfresh
      · have hold : oldest.1 ∈ cache.map := ht.mem_map.mpr (by rw [keys, hw]; simp)
        have hsize : cache.map.size = entries.length + 1 := by rw [hlen, hw, List.length_cons]
        simp [Std.ExtTreeMap.size_insert, hmem, Std.ExtTreeMap.size_erase, hold, hsize]
    · rw [if_neg (hlen ▸ hfull)] at hwindow
      rw [if_neg hfull]
      refine ⟨?_, ?_, hnodup, ?_⟩
      · simp only [ht.order, keys, hwindow, List.map_append, List.map_singleton]
      · rw [hwindow]
        exact insert_shows ht.map hash hkey
      · simp [Std.ExtTreeMap.size_insert, hmem, ht.size]

@[simp] theorem capacity_record (key hash : String) :
    (cache.record key hash).capacity = cache.capacity := by
  unfold InMemoryRecentDedupe.record
  split
  · rfl
  · dsimp only
    split
    · split <;> rfl
    · rfl

/-- After any calls the cache has its capacity and shows the effective recordings. -/
theorem tracks_calls {capacity : Nat} (hcap : 0 < capacity) (calls : List CacheCall) :
    (calls.foldl call { capacity := capacity }).capacity = capacity ∧
      (calls.foldl call { capacity := capacity }).Tracks (effectiveRecordings capacity calls) := by
  induction calls using List.reverseRecOn with
  | nil => exact ⟨rfl, tracks_new capacity⟩
  | append_singleton calls c ih =>
    obtain ⟨hc, ht⟩ := ih
    rw [effectiveRecordings, List.foldl_append, List.foldl_append]
    cases c with
    | check key hash => exact ⟨hc, ht⟩
    | record key hash =>
      have hrec := ht.record (hc.symm ▸ hcap) key hash
      rw [hc] at hrec
      exact ⟨by simp [call, hc], hrec⟩

/-- What `check` answers, in terms of the remembered recordings. -/
theorem Tracks.check (ht : cache.Tracks log) (k h : String) :
    (cache.check k h = .new ↔ ∀ h', (k, h') ∉ window cache.capacity log) ∧
    (cache.check k h = .duplicate ↔ (k, h) ∈ window cache.capacity log) ∧
    (cache.check k h = .conflict ↔ ∃ h', h' ≠ h ∧ (k, h') ∈ window cache.capacity log) := by
  simp only [← ht.map, InMemoryRecentDedupe.check]
  cases cache.map[k]? with
  | none => simp [dedupeDecision]
  | some stored =>
    by_cases heq : stored = h
    · subst heq
      simp +contextual [dedupeDecision, eq_comm]
    · simp [dedupeDecision, heq]

end InMemoryRecentDedupe

/-! ## 3. The cache and its history -/

/-- **The bounded cache is the end of its history.**  After any sequence of calls on a cache of
positive capacity, the queue and the map hold the same keys, each once and no more than the capacity;
a recording is effective exactly when its key is not in the map at that moment; and `check` answers
what the last `capacity` effective recordings say. -/
theorem recent_cache_exact {capacity : Nat} {lru : InMemoryRecentDedupe}
    (hnew : InMemoryRecentDedupe.new capacity = .ok lru) (calls : List CacheCall) :
    let cache := calls.foldl InMemoryRecentDedupe.call lru
    let log := effectiveRecordings capacity calls
    cache.order.Nodup ∧ (∀ k, k ∈ cache.order ↔ k ∈ cache.map) ∧
      cache.order.length ≤ capacity ∧ cache.map.size ≤ capacity ∧
      (∀ k h, effectiveRecordings capacity (calls ++ [.record k h])
        = if k ∈ cache.map then log else log ++ [(k, h)]) ∧
      ∀ k h,
        (cache.check k h = .new ↔ ∀ h', (k, h') ∉ log.rtake capacity) ∧
        (cache.check k h = .duplicate ↔ (k, h) ∈ log.rtake capacity) ∧
        (cache.check k h = .conflict ↔ ∃ h', h' ≠ h ∧ (k, h') ∈ log.rtake capacity) := by
  obtain ⟨hcap, rfl⟩ : capacity > 0 ∧ { capacity := capacity } = lru := by
    unfold InMemoryRecentDedupe.new at hnew
    split at hnew
    · rename_i hcap
      exact ⟨hcap, Except.ok.inj hnew⟩
    · exact absurd hnew (by simp)
  obtain ⟨hc, ht⟩ := InMemoryRecentDedupe.tracks_calls hcap calls
  have hlen : (calls.foldl InMemoryRecentDedupe.call { capacity := capacity }).order.length
      ≤ capacity := by
    rw [ht.order, keys, List.length_map, hc]
    exact Recent.length_window_le _ _
  refine ⟨ht.order ▸ ht.nodup, fun k => by rw [ht.order, ht.mem_map], hlen, ht.size ▸ hlen, ?_, ?_⟩
  · intro k h
    rw [effectiveRecordings, List.foldl_append]
    simp only [List.foldl_cons, List.foldl_nil, ht.mem_map, hc]
    rfl
  · intro k h
    have := ht.check k h
    rwa [hc] at this

/-- Four recordings on a cache of two: the third is a no-op and does not keep `a` from being evicted. -/
theorem recent_cache_exact_eviction :
    let cache := [.record "a" "1", .record "b" "2", .record "a" "3", .record "c" "4"].foldl
      InMemoryRecentDedupe.call { capacity := 2 }
    cache.check "a" "1" = .new ∧ cache.check "b" "2" = .duplicate ∧ cache.check "c" "5" = .conflict := by
  obtain ⟨-, -, -, -, -, hcheck⟩ := @recent_cache_exact 2 _ rfl
    [.record "a" "1", .record "b" "2", .record "a" "3", .record "c" "4"]
  have hlog : (effectiveRecordings 2 [.record "a" "1", .record "b" "2", .record "a" "3",
      .record "c" "4"]).rtake 2 = [("b", "2"), ("c", "4")] := by decide
  simp only [hlog] at hcheck
  refine ⟨(hcheck "a" "1").1.mpr (by simp), (hcheck "b" "2").2.1.mpr (by simp),
    (hcheck "c" "5").2.2.mpr ⟨"4", by simp⟩⟩

end Hookbox
