/-
# The last few recordings

What a bounded first-in first-out store remembers, told by its history alone.  `log` is everything
that was ever recorded, oldest first, and `window n log` is the end of it that is still remembered.
A key that is remembered is not recorded again (`record`), so

* no key is remembered twice (`nodup_keys_record`), although it may occur many times in the log, and
* recording one more entry drops exactly the oldest one, once the window is full (`window_snoc`).
-/
import Mathlib.Data.List.DropRight
import Mathlib.Data.List.Nodup

namespace Recent

variable {κ ν : Type}

/-- The last `n` entries of a log. -/
def window (n : Nat) (log : List (κ × ν)) : List (κ × ν) := log.rtake n

/-- The keys that are remembered. -/
def keys (n : Nat) (log : List (κ × ν)) : List κ := (window n log).map Prod.fst

/-- Record an entry, unless its key is remembered. -/
def record [DecidableEq κ] (n : Nat) (log : List (κ × ν)) (k : κ) (v : ν) : List (κ × ν) :=
  if k ∈ keys n log then log else log ++ [(k, v)]

@[simp] theorem window_nil (n : Nat) : window n ([] : List (κ × ν)) = [] := List.rtake_nil n

@[simp] theorem keys_nil (n : Nat) : keys n ([] : List (κ × ν)) = [] := by simp [keys]

theorem length_window (n : Nat) (log : List (κ × ν)) :
    (window n log).length = min n log.length := by
  rw [window, List.rtake_eq_reverse_take_reverse, List.length_reverse, List.length_take,
    List.length_reverse]

theorem length_window_le (n : Nat) (log : List (κ × ν)) : (window n log).length ≤ n := by
  rw [length_window]
  exact Nat.min_le_left _ _

/-- Looking one entry less far back. -/
theorem window_pred (n : Nat) (log : List (κ × ν)) :
    window n log = if n + 1 ≤ (window (n + 1) log).length then (window (n + 1) log).tail
      else window (n + 1) log := by
  rw [length_window, window, window, List.rtake, List.rtake]
  split
  · rename_i h
    have hlen : n + 1 ≤ log.length := h.trans (Nat.min_le_right _ _)
    rw [List.tail_drop]
    congr 1
    omega
  · rename_i h
    have hlen : log.length ≤ n := by omega
    congr 1
    omega

/-- **One more entry** drops the oldest one, once the window is full. -/
theorem window_snoc {n : Nat} (hn : 0 < n) (log : List (κ × ν)) (x : κ × ν) :
    window n (log ++ [x])
      = (if n ≤ (window n log).length then (window n log).tail else window n log) ++ [x] := by
  obtain ⟨m, rfl⟩ := Nat.exists_eq_add_of_lt hn
  rw [Nat.zero_add, window, List.rtake_concat_succ, ← window_pred]
  rfl

/-- **No key is remembered twice.** -/
theorem nodup_keys_record [DecidableEq κ] {n : Nat} (hn : 0 < n) {log : List (κ × ν)}
    (h : (keys n log).Nodup) (k : κ) (v : ν) : (keys n (record n log k v)).Nodup := by
  unfold record
  split
  · exact h
  · rename_i hk
    have hsub : ((if n ≤ (window n log).length then (window n log).tail
        else window n log).map Prod.fst).Sublist (keys n log) := by
      refine List.Sublist.map _ ?_
      split
      · exact List.tail_sublist _
      · exact List.Sublist.refl _
    rw [keys, window_snoc hn, List.map_append, List.map_singleton]
    refine List.Nodup.append (h.sublist hsub) (List.nodup_singleton _) ?_
    intro a ha hka
    rw [List.mem_singleton.mp hka] at ha
    exact hk (hsub.subset ha)

end Recent
