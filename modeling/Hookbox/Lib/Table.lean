/-
# Keyed tables

A table is a list of rows with pairwise distinct keys: what a relational store keeps under
a primary key.  The constraint is a field of the structure, so a table that violates it
cannot be built and no proof downstream has to re-establish it.

Three operations are enough for the statements of a store:

* `get?`    -- `SELECT .. WHERE key = k`;
* `update`  -- `UPDATE .. SET .. WHERE ..`, a row function that keeps the key;
* `insert?` -- `INSERT`, which fails on a key that is already there.

The lemmas read a table as a finite partial function from keys to rows (`get?_update`,
`get?_eq_some_iff`), so that a proof about a statement never looks at the list.
-/
import Mathlib.Data.List.Nodup
import Mathlib.Data.List.Basic

/-- A list of rows whose keys are pairwise distinct. -/
@[ext]
structure Table (κ ρ : Type) (key : ρ → κ) where
  rows : List ρ
  pk : (rows.map key).Nodup

namespace Table

variable {κ ρ : Type} {key : ρ → κ}

/-! ## 1. Reading -/

/-- The table with no rows. -/
def empty : Table κ ρ key := ⟨[], List.nodup_nil⟩

/-- The keys in use. -/
def keys (t : Table κ ρ key) : List κ := t.rows.map key

/-- The row with a given key. -/
def get? [DecidableEq κ] (t : Table κ ρ key) (k : κ) : Option ρ :=
  t.rows.find? (fun r => key r = k)

@[simp] theorem empty_rows : (empty : Table κ ρ key).rows = [] := rfl

theorem mem_keys {t : Table κ ρ key} {k : κ} : k ∈ t.keys ↔ ∃ r ∈ t.rows, key r = k :=
  List.mem_map

theorem key_mem_keys {t : Table κ ρ key} {r : ρ} (h : r ∈ t.rows) : key r ∈ t.keys :=
  List.mem_map_of_mem h

/-- **The primary key identifies the row.** -/
theorem eq_of_key_eq {t : Table κ ρ key} {r r' : ρ} (h : r ∈ t.rows) (h' : r' ∈ t.rows)
    (hk : key r = key r') : r = r' :=
  List.inj_on_of_nodup_map t.pk h h' hk

theorem nodup_rows (t : Table κ ρ key) : t.rows.Nodup := t.pk.of_map

/-- Distinct keys of the table are the keys of as many rows. -/
theorem countP_key_mem [DecidableEq κ] {t : Table κ ρ key} {ks : List κ} (hnd : ks.Nodup)
    (hks : ∀ k ∈ ks, k ∈ t.keys) : t.rows.countP (fun r => key r ∈ ks) = ks.length := by
  have hperm : ((t.rows.filter fun r => key r ∈ ks).map key).Perm ks := by
    refine (List.perm_ext_iff_of_nodup ?_ hnd).mpr fun k => ?_
    · exact t.pk.sublist (List.filter_sublist.map _)
    · simp only [List.mem_map, List.mem_filter, decide_eq_true_eq]
      constructor
      · rintro ⟨r, ⟨-, hr⟩, rfl⟩
        exact hr
      · intro hk
        obtain ⟨r, hr, rfl⟩ := mem_keys.mp (hks k hk)
        exact ⟨r, ⟨hr, hk⟩, rfl⟩
  rw [List.countP_eq_length_filter, ← List.length_map (f := key), hperm.length_eq]

section Get

variable [DecidableEq κ]

theorem get?_eq_some_iff {t : Table κ ρ key} {k : κ} {r : ρ} :
    t.get? k = some r ↔ r ∈ t.rows ∧ key r = k := by
  constructor
  · intro h
    exact ⟨List.mem_of_find?_eq_some h, by simpa using List.find?_some h⟩
  · rintro ⟨hm, rfl⟩
    cases hf : t.get? (key r) with
    | none =>
      have := List.find?_eq_none.mp hf r hm
      simp at this
    | some r' =>
      have hm' : r' ∈ t.rows := List.mem_of_find?_eq_some hf
      have hk' : key r' = key r := by simpa using List.find?_some hf
      rw [eq_of_key_eq hm' hm hk']

theorem get?_of_mem {t : Table κ ρ key} {r : ρ} (h : r ∈ t.rows) : t.get? (key r) = some r :=
  get?_eq_some_iff.mpr ⟨h, rfl⟩

theorem mem_of_get? {t : Table κ ρ key} {k : κ} {r : ρ} (h : t.get? k = some r) : r ∈ t.rows :=
  (get?_eq_some_iff.mp h).1

theorem key_of_get? {t : Table κ ρ key} {k : κ} {r : ρ} (h : t.get? k = some r) : key r = k :=
  (get?_eq_some_iff.mp h).2

theorem exists_get? {t : Table κ ρ key} {k : κ} (h : k ∈ t.keys) : ∃ r, t.get? k = some r := by
  obtain ⟨r, hr, rfl⟩ := mem_keys.mp h
  exact ⟨r, get?_of_mem hr⟩

/-- Rows are found again under their keys. -/
theorem filterMap_get? {t : Table κ ρ key} {rs : List ρ} (h : ∀ r ∈ rs, r ∈ t.rows) :
    (rs.map key).filterMap t.get? = rs := by
  rw [List.filterMap_map]
  calc rs.filterMap (t.get? ∘ key) = rs.filterMap some :=
        List.filterMap_congr fun r hr => get?_of_mem (h r hr)
    _ = rs := List.filterMap_some

end Get

/-! ## 2. Updating in place -/

/-- Apply a row function that keeps the key to every row. -/
def update (t : Table κ ρ key) (f : ρ → ρ) (hf : ∀ r, key (f r) = key r) : Table κ ρ key where
  rows := t.rows.map f
  pk := by
    have h : (t.rows.map f).map key = t.rows.map key := by
      rw [List.map_map]
      exact List.map_congr_left fun r _ => hf r
    rw [h]
    exact t.pk

/-- The row function of `UPDATE .. SET set WHERE p`. -/
def onRows (p : ρ → Prop) [DecidablePred p] (set : ρ → ρ) : ρ → ρ :=
  fun r => if p r then set r else r

section Update

variable {t : Table κ ρ key} {f g : ρ → ρ} (hf : ∀ r, key (f r) = key r)
  (hg : ∀ r, key (g r) = key r)

@[simp] theorem update_rows : (t.update f hf).rows = t.rows.map f := rfl

theorem mem_update {hf : ∀ r, key (f r) = key r} {r : ρ} : r ∈ (t.update f hf).rows ↔ ∃ r₀ ∈ t.rows, f r₀ = r :=
  List.mem_map

@[simp] theorem update_keys : (t.update f hf).keys = t.keys := by
  simp only [keys, update_rows, List.map_map]
  exact List.map_congr_left fun r _ => hf r

@[simp] theorem get?_update [DecidableEq κ] (k : κ) :
    (t.update f hf).get? k = (t.get? k).map f := by
  simp only [get?, update_rows, List.find?_map]
  congr 2
  funext r
  simp [hf r]

/-- A statement whose `WHERE` matches nothing leaves the table as it was. -/
theorem update_eq_self (h : ∀ r ∈ t.rows, f r = r) : t.update f hf = t := by
  refine Table.ext ?_
  rw [update_rows, List.map_congr_left h, List.map_id']

/-- Statements that commute on every row commute on the table. -/
theorem update_comm (h : ∀ r ∈ t.rows, f (g r) = g (f r)) :
    (t.update g hg).update f hf = (t.update f hf).update g hg := by
  refine Table.ext ?_
  simp only [update_rows, List.map_map]
  exact List.map_congr_left h

end Update

/-! ## 3. Inserting -/

section Insert

variable [DecidableEq κ]

/-- Add a row at the end; `none` when its key is taken. -/
def insert? (t : Table κ ρ key) (r : ρ) : Option (Table κ ρ key) :=
  if h : key r ∈ t.keys then none
  else some
    { rows := t.rows ++ [r]
      pk := by
        rw [List.map_append, List.nodup_append]
        refine ⟨t.pk, List.nodup_singleton _, ?_⟩
        intro a ha b hb hab
        rw [List.map_singleton, List.mem_singleton] at hb
        exact h (hb ▸ hab ▸ ha) }

theorem insert?_eq_some_iff {t t' : Table κ ρ key} {r : ρ} :
    t.insert? r = some t' ↔ key r ∉ t.keys ∧ t'.rows = t.rows ++ [r] := by
  unfold insert?
  split
  · rename_i h
    simp [h]
  · rename_i h
    simp only [Option.some.injEq, h, not_false_eq_true, true_and]
    constructor
    · rintro rfl; rfl
    · intro h'; exact Table.ext h'.symm

theorem insert?_isSome_iff {t : Table κ ρ key} {r : ρ} :
    (t.insert? r).isSome ↔ key r ∉ t.keys := by
  unfold insert?
  split <;> simp_all

end Insert

end Table
