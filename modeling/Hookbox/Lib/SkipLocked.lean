/-
# A queue in a table, claimed under row locks

Claims that run concurrently on one table, as a relational store executes

    UPDATE t SET .. FROM (SELECT .. WHERE p ORDER BY rank LIMIT n FOR UPDATE SKIP LOCKED) ..

* `begin`: the statement takes its snapshot, the eligible rows in order;
* `visit`: it goes to the next row of the snapshot, passes over it when another claim has locked it
  or when its current version is not eligible any more, and locks it otherwise;
* `commit`: with `n` rows, or at the end of the snapshot, it updates the rows it has locked and
  releases them.

The steps of different claims interleave freely.  `State.Sound.selects` says that every one of them
nevertheless ends as one atomic selection from the rows nobody else has locked, and
`returned_disjoint` that no row is returned twice.
-/
import Mathlib.Data.List.Perm.Subperm
import Mathlib.Logic.Function.Basic
import Hookbox.Lib.Lts
import Hookbox.Lib.Table

/-- What the claims of a table are about: requests `χ`, each with a condition, a limit and what it
does to a row.  A row that was taken is eligible to nobody. -/
structure SkipLocked (κ ρ χ : Type) (key : ρ → κ) where
  rank : ρ → Int
  limit : χ → Nat
  Eligible : χ → ρ → Prop
  decEligible : ∀ x, DecidablePred (Eligible x)
  take : χ → ρ → ρ
  key_take : ∀ x r, key (take x r) = key r
  not_eligible_take : ∀ x y r, Eligible x r → ¬ Eligible y (take x r)

namespace SkipLocked

/-! ## 1. The machine -/

variable {κ ρ χ : Type} {key : ρ → κ}

/-- A claim under way: the rows of its snapshot that it has not visited, and the keys it has
locked. -/
structure Claim (κ ρ χ : Type) where
  request : χ
  todo : List ρ
  picked : List κ

/-- The table, who has locked which row, and the claims under way. -/
structure State (κ ρ χ : Type) (key : ρ → κ) where
  table : Table κ ρ key
  locks : κ → Option Nat
  active : Nat → Option (Claim κ ρ χ)

/-- No claim is under way. -/
def State.start (t : Table κ ρ key) : State κ ρ χ key := ⟨t, fun _ => none, fun _ => none⟩

inductive Step (ρ χ : Type) where
  | begin (c : Nat) (request : χ) (snapshot : List ρ)
  | visit (c : Nat)
  | commit (c : Nat)

/-- Claim `c` goes on as `o`, or is over. -/
def State.put (s : State κ ρ χ key) (c : Nat) (o : Option (Claim κ ρ χ)) : State κ ρ χ key :=
  { s with active := Function.update s.active c o }

/-- Claim `c` locks row `k`. -/
def State.lock [DecidableEq κ] (s : State κ ρ χ key) (c : Nat) (k : κ) : State κ ρ χ key :=
  { s with locks := Function.update s.locks k (some c) }

section

variable (s : State κ ρ χ key) (c : Nat) (o : Option (Claim κ ρ χ))

@[simp] theorem State.put_table : (s.put c o).table = s.table := rfl

@[simp] theorem State.put_locks : (s.put c o).locks = s.locks := rfl

@[simp] theorem State.put_self : (s.put c o).active c = o := Function.update_self _ _ _

theorem State.put_of_ne {c' : Nat} (h : c' ≠ c) : (s.put c o).active c' = s.active c' :=
  Function.update_of_ne h _ _

variable [DecidableEq κ] (k : κ)

@[simp] theorem State.lock_table : (s.lock c k).table = s.table := rfl

@[simp] theorem State.lock_active : (s.lock c k).active = s.active := rfl

@[simp] theorem State.lock_self : (s.lock c k).locks k = some c := Function.update_self _ _ _

theorem State.lock_of_ne {k' : κ} (h : k' ≠ k) : (s.lock c k).locks k' = s.locks k' :=
  Function.update_of_ne h _ _

end

/-- What a claim returns, and what the others had locked at that moment. -/
structure Returned (κ χ : Type) where
  request : χ
  locked : List κ
  picked : List κ

section Machine

variable [DecidableEq κ] (q : SkipLocked κ ρ χ key)

instance (x : χ) : DecidablePred (q.Eligible x) := q.decEligible x

/-- The rows that a statement may take: eligible, and not locked by another one. -/
def candidates (t : Table κ ρ key) (x : χ) (locked : List κ) : List ρ :=
  t.rows.filter fun r => q.Eligible x r ∧ key r ∉ locked

/-- `picked` is a possible result of the `SELECT` when it runs at once. -/
structure Selects (t : Table κ ρ key) (x : χ) (locked picked : List κ) : Prop where
  nodup : picked.Nodup
  mem : ∀ k ∈ picked, k ∈ (q.candidates t x locked).map key
  length : picked.length = min (q.limit x) (q.candidates t x locked).length
  first : ∀ r ∈ q.candidates t x locked, key r ∈ picked →
    ∀ r' ∈ q.candidates t x locked, key r' ∉ picked → q.rank r ≤ q.rank r'

/-- The rows that claims other than `c` have locked. -/
def State.lockedByOthers (s : State κ ρ χ key) (c : Nat) : List κ :=
  s.table.keys.filter fun k => (s.locks k).any fun c' => c' ≠ c

/-- The `UPDATE` of the rows a request has locked. -/
def takeRows (t : Table κ ρ key) (x : χ) (picked : List κ) : Table κ ρ key :=
  t.update (Table.onRows (fun r => key r ∈ picked) (q.take x)) fun r => by
    unfold Table.onRows
    split
    · exact q.key_take x r
    · rfl

/-- Going to the next row of the snapshot. -/
def State.visit (s : State κ ρ χ key) (c : Nat) (x : χ) (r : ρ) (todo : List ρ)
    (picked : List κ) : State κ ρ χ key :=
  if s.locks (key r) = none ∧ (s.table.get? (key r)).any fun r' => q.Eligible x r' then
    (s.lock c (key r)).put c (some ⟨x, todo, picked ++ [key r]⟩)
  else s.put c (some ⟨x, todo, picked⟩)

/-- The update is committed, and the locks of the claim are gone. -/
def State.commit (s : State κ ρ χ key) (c : Nat) (cl : Claim κ ρ χ) : State κ ρ χ key :=
  { s with
    table := q.takeRows s.table cl.request cl.picked
    locks := fun k => if s.locks k = some c then none else s.locks k }.put c none

variable [DecidableEq ρ]

def Step.run (s : State κ ρ χ key) : Step ρ χ → Option (State κ ρ χ key)
  | .begin c x snapshot =>
    if s.active c = none ∧ snapshot.Perm (s.table.rows.filter fun r => q.Eligible x r) ∧
        snapshot.Pairwise (fun r r' => q.rank r ≤ q.rank r') then
      some (s.put c (some ⟨x, snapshot, []⟩))
    else none
  | .visit c =>
    match s.active c with
    | some ⟨x, r :: todo, picked⟩ =>
      if picked.length < q.limit x then some (s.visit q c x r todo picked) else none
    | _ => none
  | .commit c =>
    match s.active c with
    | some cl =>
      if cl.todo = [] ∨ cl.picked.length = q.limit cl.request then some (s.commit q c cl) else none
    | none => none

def Step.obs (s : State κ ρ χ key) : Step ρ χ → List (Returned κ χ)
  | .commit c =>
    match s.active c with
    | some cl => [⟨cl.request, s.lockedByOthers c, cl.picked⟩]
    | none => []
  | _ => []

/-- Concurrent claims as a transition system; what a commit returns is observed. -/
def claims : Lts (State κ ρ χ key) (Step ρ χ) (Returned κ χ) where
  step := Step.run q
  obs := Step.obs

end Machine

/-! ## 2. The invariant -/

variable {q : SkipLocked κ ρ χ key}

/-- Nobody can take the row any more. -/
def Taken (q : SkipLocked κ ρ χ key) (r : ρ) : Prop := ∀ y, ¬ q.Eligible y r

/-- **What is true of a claim under way.** -/
structure Claim.Sound (q : SkipLocked κ ρ χ key) (s : State κ ρ χ key) (c : Nat)
    (cl : Claim κ ρ χ) : Prop where
  nodup : (cl.picked ++ cl.todo.map key).Nodup
  le : cl.picked.length ≤ q.limit cl.request
  picked : ∀ k ∈ cl.picked, ∃ r ∈ s.table.rows, key r = k ∧ q.Eligible cl.request r
  /-- An eligible row was locked by this claim, or is still to be visited, or is somebody else's. -/
  covers : ∀ r ∈ s.table.rows, q.Eligible cl.request r →
    key r ∈ cl.picked ∨ r ∈ cl.todo ∨ ∃ c', c' ≠ c ∧ s.locks (key r) = some c'
  sorted : cl.todo.Pairwise fun r r' => q.rank r ≤ q.rank r'
  /-- A row of the snapshot is as it was, or was taken. -/
  current : ∀ r₀ ∈ cl.todo, ∀ r ∈ s.table.rows, key r = key r₀ → r = r₀ ∨ q.Taken r
  first : ∀ r ∈ s.table.rows, key r ∈ cl.picked → ∀ r' ∈ cl.todo, q.rank r ≤ q.rank r'

/-- **The invariant.**  A lock belongs to the claim that picked the row. -/
structure State.Sound (q : SkipLocked κ ρ χ key) (s : State κ ρ χ key) : Prop where
  locks : ∀ k c, s.locks k = some c ↔ ∃ cl, s.active c = some cl ∧ k ∈ cl.picked
  active : ∀ c cl, s.active c = some cl → cl.Sound q s c

theorem State.start_sound (t : Table κ ρ key) : (State.start t : State κ ρ χ key).Sound q :=
  ⟨fun k c => by simp [State.start], fun c cl h => by simp [State.start] at h⟩

section

variable {s s' : State κ ρ χ key} {c : Nat} {cl : Claim κ ρ χ}

/-- Two claims never pick the same row. -/
theorem State.Sound.apart (hs : s.Sound q) {c' : Nat} {cl' : Claim κ ρ χ} (h : s.active c = some cl)
    (h' : s.active c' = some cl') {k : κ} (hk : k ∈ cl.picked) (hk' : k ∈ cl'.picked) : c = c' := by
  have hlock := (hs.locks k c).mpr ⟨cl, h, hk⟩
  have hlock' := (hs.locks k c').mpr ⟨cl', h', hk'⟩
  rw [hlock, Option.some.injEq] at hlock'
  exact hlock'

/-- A row still to be visited is not locked by the claim itself. -/
theorem State.Sound.unlocked (hs : s.Sound q) (h : s.active c = some cl) {r : ρ} (hr : r ∈ cl.todo) :
    s.locks (key r) ≠ some c := by
  intro hlock
  obtain ⟨cl', h', hk⟩ := (hs.locks _ c).mp hlock
  rw [h, Option.some.injEq] at h'
  subst h'
  exact (List.nodup_append.mp (hs.active c cl h).nodup).2.2 _ hk _ (List.mem_map_of_mem hr) rfl

/-- Others may lock more rows. -/
theorem Claim.Sound.mono (h : cl.Sound q s c) (htable : s'.table = s.table)
    (hlocks : ∀ k c', c' ≠ c → s.locks k = some c' → s'.locks k = some c') : cl.Sound q s' c where
  nodup := h.nodup
  le := h.le
  picked := by rw [htable]; exact h.picked
  covers := by
    rw [htable]
    intro r hr hel
    rcases h.covers r hr hel with hp | ht | ⟨c', hne, hlock⟩
    · exact Or.inl hp
    · exact Or.inr (Or.inl ht)
    · exact Or.inr (Or.inr ⟨c', hne, hlocks _ _ hne hlock⟩)
  sorted := h.sorted
  current := by rw [htable]; exact h.current
  first := by rw [htable]; exact h.first

/-- Passing over the next row, which somebody else has locked or which was taken. -/
theorem Claim.Sound.skip {x : χ} {r : ρ} {todo : List ρ} {picked : List κ}
    (h : Claim.Sound q s c ⟨x, r :: todo, picked⟩)
    (hskip : (∃ c', c' ≠ c ∧ s.locks (key r) = some c') ∨ ¬ (r ∈ s.table.rows ∧ q.Eligible x r)) :
    Claim.Sound q s c ⟨x, todo, picked⟩ where
  nodup := h.nodup.sublist (List.Sublist.append_left (List.sublist_cons_self _ _) _)
  le := h.le
  picked := h.picked
  covers := by
    intro r' hr' hel
    rcases h.covers r' hr' hel with hp | ht | hlock
    · exact Or.inl hp
    · rcases List.mem_cons.mp ht with rfl | ht
      · rcases hskip with hlock | hnot
        · exact Or.inr (Or.inr hlock)
        · exact absurd ⟨hr', hel⟩ hnot
      · exact Or.inr (Or.inl ht)
    · exact Or.inr (Or.inr hlock)
  sorted := (List.pairwise_cons.mp h.sorted).2
  current := fun r₀ hr₀ => h.current r₀ (List.mem_cons_of_mem _ hr₀)
  first := fun r' hr' hp r₀ hr₀ => h.first r' hr' hp r₀ (List.mem_cons_of_mem _ hr₀)

/-- Locking the next row, whose current version is eligible. -/
theorem Claim.Sound.lock {x : χ} {r : ρ} {todo : List ρ} {picked : List κ}
    (h : Claim.Sound q s c ⟨x, r :: todo, picked⟩) (hlt : picked.length < q.limit x)
    (hcur : ∃ r' ∈ s.table.rows, key r' = key r ∧ q.Eligible x r') :
    Claim.Sound q s c ⟨x, todo, picked ++ [key r]⟩ where
  nodup := by
    have hnd := h.nodup
    simp only [List.map_cons] at hnd
    rwa [List.append_assoc, List.singleton_append]
  le := by
    simp only [List.length_append, List.length_singleton]
    exact hlt
  picked := by
    intro k hk
    rcases List.mem_append.mp hk with hk | hk
    · exact h.picked k hk
    · obtain ⟨r', hr', hkey, hel⟩ := hcur
      exact ⟨r', hr', by rw [hkey, List.mem_singleton.mp hk], hel⟩
  covers := by
    intro r' hr' hel
    rcases h.covers r' hr' hel with hp | ht | hlock
    · exact Or.inl (List.mem_append_left _ hp)
    · rcases List.mem_cons.mp ht with rfl | ht
      · exact Or.inl (List.mem_append_right _ List.mem_cons_self)
      · exact Or.inr (Or.inl ht)
    · exact Or.inr (Or.inr hlock)
  sorted := (List.pairwise_cons.mp h.sorted).2
  current := fun r₀ hr₀ => h.current r₀ (List.mem_cons_of_mem _ hr₀)
  first := by
    intro r' hr' hp r₀ hr₀
    rcases List.mem_append.mp hp with hp | hp
    · exact h.first r' hr' hp r₀ (List.mem_cons_of_mem _ hr₀)
    · -- The row that is locked is still the one of the snapshot.
      obtain ⟨r'', hr'', hkey, hel⟩ := hcur
      obtain rfl := Table.eq_of_key_eq hr' hr'' ((List.mem_singleton.mp hp).trans hkey.symm)
      rcases h.current r List.mem_cons_self r' hr'' hkey with rfl | htaken
      · exact (List.pairwise_cons.mp h.sorted).1 r₀ hr₀
      · exact absurd hel (htaken x)

/-- One claim goes on, and the others see at most that more rows are locked. -/
theorem State.Sound.put (hs : s.Sound q) (htable : s'.table = s.table)
    (hactive : s'.active = s.active) (hmine : cl.Sound q s' c)
    (hkeep : ∀ k, s.locks k = some c → k ∈ cl.picked)
    (hlocks : ∀ k c', s'.locks k = some c' ↔
      if c' = c then k ∈ cl.picked else s.locks k = some c') :
    (s'.put c (some cl)).Sound q := by
  refine ⟨fun k c' => ?_, fun c' cl' h => ?_⟩
  · rw [State.put_locks, hlocks]
    split
    · rename_i hcc
      subst hcc
      simp
    · rename_i hcc
      rw [State.put_of_ne _ _ _ hcc, hactive]
      exact hs.locks k c'
  · by_cases hcc : c' = c
    · subst hcc
      rw [State.put_self, Option.some.injEq] at h
      subst h
      exact hmine.mono rfl fun k c'' _ hlock => hlock
    · rw [State.put_of_ne _ _ _ hcc, hactive] at h
      refine (hs.active c' cl' h).mono htable fun k c'' hne hlock => ?_
      rw [State.put_locks, hlocks]
      split
      · rename_i heq
        exact hkeep k (heq ▸ hlock)
      · exact hlock

theorem State.Sound.begin (hs : s.Sound q) (hc : s.active c = none) {x : χ} {snapshot : List ρ}
    (hperm : snapshot.Perm (s.table.rows.filter fun r => q.Eligible x r))
    (hsorted : snapshot.Pairwise fun r r' => q.rank r ≤ q.rank r') :
    (s.put c (some ⟨x, snapshot, []⟩)).Sound q := by
  have hmem : ∀ {r : ρ}, r ∈ snapshot ↔ r ∈ s.table.rows ∧ q.Eligible x r := by
    intro r
    rw [hperm.mem_iff, List.mem_filter, decide_eq_true_eq]
  have hnone : ∀ k, s.locks k ≠ some c := by
    intro k hlock
    obtain ⟨cl, h, -⟩ := (hs.locks k c).mp hlock
    rw [hc] at h
    exact absurd h (by simp)
  refine hs.put rfl rfl ⟨?_, Nat.zero_le _, by simp, ?_, hsorted, ?_, by simp⟩ ?_ ?_
  · rw [List.nil_append]
    refine (hperm.map key).nodup_iff.mpr ?_
    exact s.table.pk.sublist (List.filter_sublist.map _)
  · exact fun r hr hel => Or.inr (Or.inl (hmem.mpr ⟨hr, hel⟩))
  · exact fun r₀ hr₀ r hr hkey => Or.inl (Table.eq_of_key_eq hr (hmem.mp hr₀).1 hkey)
  · exact fun k hlock => absurd hlock (hnone k)
  · intro k c'
    split
    · rename_i hcc
      subst hcc
      simp [hnone k]
    · exact Iff.rfl

end

/-! ## 3. Steps keep it -/

section Steps

variable [DecidableEq κ] {s s' : State κ ρ χ key} {c : Nat} {cl : Claim κ ρ χ}

theorem mem_candidates {t : Table κ ρ key} {x : χ} {locked : List κ} {r : ρ} :
    r ∈ q.candidates t x locked ↔ r ∈ t.rows ∧ q.Eligible x r ∧ key r ∉ locked := by
  simp only [candidates, List.mem_filter, decide_eq_true_eq]

/-- A row after the update is an old row that was not picked, or a taken one. -/
theorem mem_takeRows {t : Table κ ρ key} {x : χ} {picked : List κ} {r : ρ} :
    r ∈ (q.takeRows t x picked).rows ↔
      (r ∈ t.rows ∧ key r ∉ picked) ∨ ∃ r₀ ∈ t.rows, key r₀ ∈ picked ∧ r = q.take x r₀ := by
  rw [takeRows, Table.update_rows, List.mem_map]
  constructor
  · rintro ⟨r₀, hr₀, rfl⟩
    unfold Table.onRows
    split
    · rename_i hp
      exact Or.inr ⟨r₀, hr₀, hp, rfl⟩
    · rename_i hp
      exact Or.inl ⟨hr₀, hp⟩
  · rintro (⟨hr, hp⟩ | ⟨r₀, hr₀, hp, rfl⟩)
    · exact ⟨r, hr, if_neg hp⟩
    · exact ⟨r₀, hr₀, if_pos hp⟩

/-- What the commit of a claim leaves of a row: it was not picked, or nobody can take it. -/
theorem State.Sound.takeRows_cases (hs : s.Sound q) (h : s.active c = some cl) {r : ρ}
    (hr : r ∈ (q.takeRows s.table cl.request cl.picked).rows) :
    (r ∈ s.table.rows ∧ key r ∉ cl.picked) ∨ (key r ∈ cl.picked ∧ q.Taken r) := by
  rcases mem_takeRows.mp hr with hold | ⟨r₀, hr₀, hp, rfl⟩
  · exact Or.inl hold
  · obtain ⟨r₁, hr₁, hkey, hel⟩ := (hs.active c cl h).picked _ hp
    obtain rfl := Table.eq_of_key_eq hr₁ hr₀ hkey
    refine Or.inr ⟨by rwa [q.key_take], fun y => q.not_eligible_take cl.request y r₁ hel⟩

theorem State.Sound.visit (hs : s.Sound q) {x : χ} {r : ρ} {todo : List ρ} {picked : List κ}
    (h : s.active c = some ⟨x, r :: todo, picked⟩) (hlt : picked.length < q.limit x) :
    (s.visit q c x r todo picked).Sound q := by
  have hcl := hs.active c _ h
  have hown : ∀ k, s.locks k = some c ↔ k ∈ picked := by
    intro k
    rw [hs.locks k c, h]
    simp
  unfold State.visit
  split
  · rename_i hguard
    obtain ⟨hfree, hcur⟩ := hguard
    simp only [Option.any_eq_true, Table.get?_eq_some_iff, decide_eq_true_eq] at hcur
    obtain ⟨r', ⟨hr', hkey⟩, hel⟩ := hcur
    have hlocked : ∀ k c', (s.lock c (key r)).locks k = some c' ↔
        if c' = c then k ∈ picked ++ [key r] else s.locks k = some c' := by
      intro k c'
      by_cases hk : k = key r
      · subst hk
        rw [State.lock_self, Option.some.injEq, hfree]
        split
        · rename_i hcc
          simp [hcc]
        · rename_i hcc
          simp [Ne.symm hcc]
      · rw [State.lock_of_ne _ _ _ hk]
        split
        · rename_i hcc
          simp [hcc, hown, hk]
        · exact Iff.rfl
    refine hs.put rfl rfl ((hcl.lock hlt ⟨r', hr', hkey, hel⟩).mono rfl ?_) ?_ hlocked
    · intro k c' hne hlock
      exact (hlocked k c').mpr (by rwa [if_neg hne])
    · exact fun k hlock => List.mem_append_left _ ((hown k).mp hlock)
  · rename_i hguard
    refine hs.put rfl rfl (hcl.skip ?_) (fun k hlock => (hown k).mp hlock) fun k c' => ?_
    · cases hlock : s.locks (key r) with
      | some c' =>
        refine Or.inl ⟨c', ?_, rfl⟩
        rintro rfl
        exact hs.unlocked h (r := r) List.mem_cons_self hlock
      | none =>
        refine Or.inr fun hrow => hguard ⟨hlock, ?_⟩
        rw [Table.get?_of_mem hrow.1]
        simpa using hrow.2
    · split
      · rename_i hcc
        rw [hcc, hown]
      · exact Iff.rfl

theorem State.Sound.commit (hs : s.Sound q) (h : s.active c = some cl) :
    (s.commit q c cl).Sound q := by
  have hlocks : ∀ k c', (s.commit q c cl).locks k = some c' ↔ c' ≠ c ∧ s.locks k = some c' := by
    intro k c'
    simp only [State.commit, State.put_locks]
    split
    · rename_i hlock
      rw [hlock, Option.some.injEq]
      simp only [reduceCtorEq, false_iff, not_and]
      exact fun hne heq => hne heq.symm
    · rename_i hlock
      constructor
      · intro hk
        exact ⟨fun hcc => hlock (hcc ▸ hk), hk⟩
      · exact fun hk => hk.2
  have hother : ∀ {c' : Nat}, c' ≠ c → (s.commit q c cl).active c' = s.active c' := by
    intro c' hcc
    rw [State.commit, State.put_of_ne _ _ _ hcc]
  refine ⟨fun k c' => ?_, fun c' cl' h' => ?_⟩
  · rw [hlocks]
    by_cases hcc : c' = c
    · subst hcc
      simp [State.commit]
    · rw [hother hcc, ← hs.locks k c']
      simp [hcc]
  · have hcc : c' ≠ c := by
      rintro rfl
      simp [State.commit] at h'
    rw [hother hcc] at h'
    have hcl' := hs.active c' cl' h'
    have hapart : ∀ {k : κ}, k ∈ cl'.picked → k ∉ cl.picked :=
      fun hk' hk => hcc (hs.apart h' h hk' hk)
    refine ⟨hcl'.nodup, hcl'.le, ?_, ?_, hcl'.sorted, ?_, ?_⟩
    · intro k hk
      obtain ⟨r, hr, rfl, hel⟩ := hcl'.picked k hk
      exact ⟨r, mem_takeRows.mpr (Or.inl ⟨hr, hapart hk⟩), rfl, hel⟩
    · intro r hr hel
      rcases hs.takeRows_cases h hr with ⟨hold, hnot⟩ | ⟨-, htaken⟩
      · rcases hcl'.covers r hold hel with hp | ht | ⟨c'', hne, hlock⟩
        · exact Or.inl hp
        · exact Or.inr (Or.inl ht)
        · -- The lock is not one of those that were released, since the row was not picked.
          refine Or.inr (Or.inr ⟨c'', hne, (hlocks _ _).mpr ⟨?_, hlock⟩⟩)
          rintro rfl
          obtain ⟨cl₁, h₁, hp⟩ := (hs.locks _ _).mp hlock
          rw [h, Option.some.injEq] at h₁
          exact hnot (h₁ ▸ hp)
      · exact absurd hel (htaken _)
    · intro r₀ hr₀ r hr hkey
      rcases hs.takeRows_cases h hr with ⟨hold, -⟩ | ⟨-, htaken⟩
      · exact hcl'.current r₀ hr₀ r hold hkey
      · exact Or.inr htaken
    · intro r hr hp
      rcases hs.takeRows_cases h hr with ⟨hold, -⟩ | ⟨hpicked, -⟩
      · exact hcl'.first r hold hp
      · exact absurd hpicked (hapart hp)

/-- **A commit returns a selection** from the rows that nobody else has locked. -/
theorem State.Sound.selects (hs : s.Sound q) (h : s.active c = some cl)
    (hend : cl.todo = [] ∨ cl.picked.length = q.limit cl.request) :
    q.Selects s.table cl.request (s.lockedByOthers c) cl.picked := by
  have hcl := hs.active c cl h
  have hfree : ∀ {r : ρ}, r ∈ s.table.rows → (key r ∉ s.lockedByOthers c ↔
      ∀ c', s.locks (key r) = some c' → c' = c) := by
    intro r hr
    simp only [State.lockedByOthers, List.mem_filter, Table.key_mem_keys hr, true_and,
      Option.any_eq_true, decide_eq_true_eq, not_exists, not_and, not_not]
  have hmem : ∀ k ∈ cl.picked,
      k ∈ (q.candidates s.table cl.request (s.lockedByOthers c)).map key := by
    intro k hk
    obtain ⟨r, hr, rfl, hel⟩ := hcl.picked k hk
    refine List.mem_map_of_mem (mem_candidates.mpr ⟨hr, hel, (hfree hr).mpr fun c' hlock => ?_⟩)
    obtain ⟨cl', h', hk'⟩ := (hs.locks _ c').mp hlock
    exact hs.apart h' h hk' hk
  -- A candidate that was not picked is still to be visited.
  have hrest : ∀ r ∈ q.candidates s.table cl.request (s.lockedByOthers c),
      key r ∉ cl.picked → r ∈ cl.todo := by
    intro r hr hnot
    obtain ⟨hrow, hel, hun⟩ := mem_candidates.mp hr
    rcases hcl.covers r hrow hel with hp | ht | ⟨c', hne, hlock⟩
    · exact absurd hp hnot
    · exact ht
    · exact absurd ((hfree hrow).mp hun c' hlock) hne
  have hnd : cl.picked.Nodup := (List.nodup_append.mp hcl.nodup).1
  have hle : cl.picked.length ≤ (q.candidates s.table cl.request (s.lockedByOthers c)).length := by
    rw [← List.length_map (f := key)]
    exact (List.subperm_of_subset hnd hmem).length_le
  refine ⟨hnd, hmem, ?_, fun r hr hp r' hr' hnot => ?_⟩
  · rcases hend with htodo | hfull
    · -- Nothing is left to visit, so every candidate was picked.
      have hall : ((q.candidates s.table cl.request (s.lockedByOthers c)).map key).length
          ≤ cl.picked.length := by
        refine (List.subperm_of_subset ?_ fun k hk => ?_).length_le
        · exact s.table.pk.sublist (List.filter_sublist.map _)
        · obtain ⟨r, hr, rfl⟩ := List.mem_map.mp hk
          by_contra hnot
          have hmem := hrest r hr hnot
          rw [htodo] at hmem
          simp at hmem
      rw [List.length_map] at hall
      have := hcl.le
      omega
    · omega
  · exact hcl.first r (mem_candidates.mp hr).1 hp r' (hrest r' hr' hnot)

end Steps

/-! ## 4. Runs -/

section Runs

variable [DecidableEq κ] [DecidableEq ρ]

/-- **What a step does to the table**: nothing, or it returns a selection and takes those rows. -/
theorem step_cases {s s' : State κ ρ χ key} {l : Step ρ χ} (hs : s.Sound q)
    (h : (claims q).step s l = some s') :
    s'.Sound q ∧ ((s'.table = s.table ∧ (claims q).obs s l = []) ∨
      ∃ ev, (claims q).obs s l = [ev] ∧ q.Selects s.table ev.request ev.locked ev.picked ∧
        s'.table = q.takeRows s.table ev.request ev.picked) := by
  cases l with
  | begin c x snapshot =>
    simp only [claims, Step.run] at h
    split at h
    · rename_i hguard
      rw [Option.some.injEq] at h
      subst h
      exact ⟨hs.begin hguard.1 hguard.2.1 hguard.2.2, Or.inl ⟨rfl, rfl⟩⟩
    · exact absurd h (by simp)
  | visit c =>
    simp only [claims, Step.run] at h
    split at h
    · rename_i x r todo picked hcl
      split at h
      · rename_i hlt
        rw [Option.some.injEq] at h
        subst h
        refine ⟨hs.visit hcl hlt, Or.inl ⟨?_, rfl⟩⟩
        unfold State.visit
        split <;> rfl
      · exact absurd h (by simp)
    · exact absurd h (by simp)
  | commit c =>
    simp only [claims, Step.run] at h
    split at h
    · rename_i cl hcl
      split at h
      · rename_i hend
        rw [Option.some.injEq] at h
        subst h
        refine ⟨hs.commit hcl, Or.inr ⟨⟨cl.request, s.lockedByOthers c, cl.picked⟩, ?_, ?_, rfl⟩⟩
        · simp only [claims, Step.obs, hcl]
        · exact hs.selects hcl hend
      · exact absurd h (by simp)
    · exact absurd h (by simp)

/-- **The rule for concurrent claims.**  What one selection after the other keeps, holds after every
interleaving of claims, of what they returned and of the table. -/
theorem claims_induction {P : List (Returned κ χ) → Table κ ρ key → Prop} {t : Table κ ρ key}
    (h₀ : P [] t)
    (hselect : ∀ h t ev, P h t → q.Selects t ev.request ev.locked ev.picked →
      P (h ++ [ev]) (q.takeRows t ev.request ev.picked))
    {ls : List (Step ρ χ)} {s : State κ ρ χ key} (h : (claims q).exec (.start t) ls = some s) :
    P ((claims q).trace (.start t) ls) s.table := by
  have key : s.Sound q ∧ P ((claims q).trace (.start t) ls) s.table := by
    refine Lts.exec_induction (M := claims q) (I := fun h s => s.Sound q ∧ P h s.table)
      ⟨State.start_sound t, h₀⟩ ?_ h
    rintro h s l s' ⟨hs, hP⟩ hstep
    obtain ⟨hs', ⟨htable, hobs⟩ | ⟨ev, hobs, hsel, htable⟩⟩ := step_cases hs hstep
    · rw [hobs, List.append_nil, htable]
      exact ⟨hs', hP⟩
    · rw [hobs, htable]
      exact ⟨hs', hselect h s.table ev hP hsel⟩
  exact key.2

/-- **No row is returned twice**: what was returned, nobody can take any more. -/
theorem returned_disjoint {t : Table κ ρ key} {ls : List (Step ρ χ)} {s : State κ ρ χ key}
    (h : (claims q).exec (.start t) ls = some s) :
    ((claims q).trace (.start t) ls).Pairwise fun ev ev' => List.Disjoint ev.picked ev'.picked := by
  have key : ((claims q).trace (.start t) ls).Pairwise (fun ev ev' =>
      List.Disjoint ev.picked ev'.picked) ∧ ∀ ev ∈ (claims q).trace (.start t) ls,
        ∀ k ∈ ev.picked, ∀ r ∈ s.table.rows, key r = k → q.Taken r := by
    refine claims_induction (P := fun h t => h.Pairwise (fun ev ev' =>
      List.Disjoint ev.picked ev'.picked) ∧ ∀ ev ∈ h, ∀ k ∈ ev.picked, ∀ r ∈ t.rows, key r = k →
        q.Taken r) ⟨.nil, by simp⟩ ?_ h
    rintro h t ev ⟨hpair, htaken⟩ hsel
    have heligible : ∀ k ∈ ev.picked, ∃ r ∈ t.rows, key r = k ∧ q.Eligible ev.request r := by
      intro k hk
      obtain ⟨r, hr, hkey⟩ := List.mem_map.mp (hsel.mem k hk)
      obtain ⟨hrow, hel, -⟩ := mem_candidates.mp hr
      exact ⟨r, hrow, hkey, hel⟩
    refine ⟨List.pairwise_append.mpr ⟨hpair, List.pairwise_singleton _ _, ?_⟩, ?_⟩
    · intro ev₀ hev₀ ev₁ hev₁ k hk hk'
      rw [List.mem_singleton.mp hev₁] at hk'
      obtain ⟨r, hr, hkey, hel⟩ := heligible k hk'
      exact htaken ev₀ hev₀ k hk r hr hkey _ hel
    · intro ev₀ hev₀ k hk r hr hkey
      rcases mem_takeRows.mp hr with ⟨hold, hnot⟩ | ⟨r₀, hr₀, hp, rfl⟩
      · rcases List.mem_append.mp hev₀ with hev₀ | hev₀
        · exact htaken ev₀ hev₀ k hk r hold hkey
        · rw [List.mem_singleton.mp hev₀] at hk
          exact absurd (hkey ▸ hk) hnot
      · obtain ⟨r₁, hr₁, hkey₁, hel⟩ := heligible _ hp
        obtain rfl := Table.eq_of_key_eq hr₁ hr₀ hkey₁
        exact fun y => q.not_eligible_take ev.request y r₁ hel
  exact key.1

end Runs

end SkipLocked
