/-
# Pages of a sorted scan

A store answers each page request with a window of its rows, sorted by a key.  Rows with equal keys
may come in another order in every answer.  Whether the pages together are the table then depends on
where the pages end: a group of equal keys must not lie on both sides of a page's end.

* `lt_countP_iff`: in a sorted scan the position of a row is compared with a count of the table.
* `pages_perm`: without a group across a boundary, the pages of any scans are the table.
* `exists_overlap`: with one, there are scans in which two neighbouring pages share a row.
* `Collected`: what a client has that asks for page after page until it gets an empty one.
-/
import Mathlib

namespace Paging

variable {α κ : Type} [LinearOrder κ]

/-! ## 1. Scans and boundaries -/

/-- A possible answer to a query for all of `rows`, sorted by `rank`. -/
def Scan (rank : α → κ) (rows scan : List α) : Prop :=
  scan.Perm rows ∧ scan.Pairwise fun a b => rank a ≤ rank b

/-- Page `k` of pages of `n` rows. -/
def page (n k : ℕ) (scan : List α) : List α := (scan.drop (k * n)).take n

/-- The number of rows in front of every row of the rank. -/
def before (rank : α → κ) (rows : List α) (r : κ) : ℕ := rows.countP fun b => rank b < r

/-- The number of rows up to the last row of the rank. -/
def upto (rank : α → κ) (rows : List α) (r : κ) : ℕ := rows.countP fun b => rank b ≤ r

/-- No group of rows with equal ranks lies on both sides of the boundary. -/
def Clean (rank : α → κ) (rows : List α) (j : ℕ) : Prop :=
  ∀ a ∈ rows, ¬ (before rank rows (rank a) < j ∧ j < upto rank rows (rank a))

/-- **Positions are counts.**  Of a predicate that holds on a front of the scan, the number of rows
that satisfy it says where the front ends. -/
theorem lt_countP_iff {p : α → Bool} {as bs : List α} {a : α}
    (h : (as ++ a :: bs).Pairwise fun x y => p y = true → p x = true) :
    as.length < (as ++ a :: bs).countP p ↔ p a = true := by
  rw [List.pairwise_append, List.pairwise_cons] at h
  obtain ⟨-, ⟨hbs, -⟩, has⟩ := h
  rw [List.countP_append, List.countP_cons]
  constructor
  · intro hlt
    by_contra hp
    have hzero : bs.countP p = 0 := List.countP_eq_zero.mpr fun b hb hpb => hp (hbs b hb hpb)
    have hle := List.countP_le_length (p := p) (l := as)
    rw [if_neg hp, hzero] at hlt
    omega
  · intro hp
    have hall : as.countP p = as.length :=
      List.countP_eq_length.mpr fun x hx => has x hx a List.mem_cons_self hp
    rw [hall, if_pos hp]
    omega

namespace Scan

variable {rank : α → κ} {rows scan as bs : List α} {a : α}

theorem lt_before_iff (h : Scan rank rows (as ++ a :: bs)) {r : κ} :
    as.length < before rank rows r ↔ rank a < r := by
  have hpairs : (as ++ a :: bs).Pairwise fun x y =>
      decide (rank y < r) = true → decide (rank x < r) = true :=
    h.2.imp fun hle hlt => decide_eq_true (lt_of_le_of_lt hle (of_decide_eq_true hlt))
  rw [before, ← h.1.countP_eq, lt_countP_iff hpairs, decide_eq_true_eq]

theorem lt_upto_iff (h : Scan rank rows (as ++ a :: bs)) {r : κ} :
    as.length < upto rank rows r ↔ rank a ≤ r := by
  have hpairs : (as ++ a :: bs).Pairwise fun x y =>
      decide (rank y ≤ r) = true → decide (rank x ≤ r) = true :=
    h.2.imp fun hle hlt => decide_eq_true (hle.trans (of_decide_eq_true hlt))
  rw [upto, ← h.1.countP_eq, lt_countP_iff hpairs, decide_eq_true_eq]

/-- A row lies in front of a clean boundary exactly if its whole group does. -/
theorem lt_clean_iff (h : Scan rank rows (as ++ a :: bs)) {j : ℕ} (hclean : Clean rank rows j) :
    as.length < j ↔ upto rank rows (rank a) ≤ j := by
  have hmem : a ∈ rows := h.1.mem_iff.mp (by simp)
  have hfront : ¬ as.length < before rank rows (rank a) := fun hlt =>
    lt_irrefl _ (h.lt_before_iff.mp hlt)
  have hback : as.length < upto rank rows (rank a) := h.lt_upto_iff.mpr le_rfl
  have hgroup := hclean a hmem
  omega

/-- **What lies in front of a clean boundary does not depend on the scan.** -/
theorem take_perm (h : Scan rank rows scan) {j : ℕ} (hclean : Clean rank rows j) :
    (scan.take j).Perm (rows.filter fun a => upto rank rows (rank a) ≤ j) := by
  have hfront : ∀ a ∈ scan.take j, decide (upto rank rows (rank a) ≤ j) = true := fun a ha => by
    obtain ⟨as, bs, hsplit⟩ := List.append_of_mem ha
    have hscan : scan = as ++ a :: (bs ++ scan.drop j) := by
      rw [← List.cons_append, ← List.append_assoc, ← hsplit, List.take_append_drop]
    have hlen : as.length < j := by
      have hle := List.length_take_le j scan
      rw [hsplit, List.length_append, List.length_cons] at hle
      omega
    rw [hscan] at h
    exact decide_eq_true ((h.lt_clean_iff hclean).mp hlen)
  have hback : ∀ a ∈ scan.drop j, ¬ decide (upto rank rows (rank a) ≤ j) = true := fun a ha => by
    obtain ⟨as, bs, hsplit⟩ := List.append_of_mem ha
    have hscan : scan = (scan.take j ++ as) ++ a :: bs := by
      rw [List.append_assoc, ← hsplit, List.take_append_drop]
    have hlen : ¬ (scan.take j ++ as).length < j := by
      have hpos : 0 < (scan.drop j).length := List.length_pos_of_mem ha
      rw [List.length_drop] at hpos
      rw [List.length_append, List.length_take]
      omega
    rw [hscan] at h
    intro hle
    exact hlen ((h.lt_clean_iff hclean).mpr (of_decide_eq_true hle))
  have hfilter : scan.filter (fun a => upto rank rows (rank a) ≤ j) = scan.take j := by
    conv_lhs => rw [← List.take_append_drop j scan]
    rw [List.filter_append, List.filter_eq_self.mpr hfront, List.filter_eq_nil_iff.mpr hback,
      List.append_nil]
  rw [← hfilter]
  exact h.1.filter _

end Scan

/-! ## 2. Clean boundaries -/

section Pages

variable {rank : α → κ} {rows : List α} {n : ℕ}

/-- The pages of the scans, one after the other. -/
def pages (n : ℕ) (scans : ℕ → List α) (m : ℕ) : List α :=
  (List.range m).flatMap fun k => page n k (scans k)

theorem take_succ_page (n k : ℕ) (scan : List α) :
    scan.take ((k + 1) * n) = scan.take (k * n) ++ page n k scan := by
  rw [page, Nat.succ_mul, List.take_add]

/-- The first pages hold the rows in front of their last boundary. -/
theorem pages_perm_filter {scans : ℕ → List α} (hscan : ∀ k, Scan rank rows (scans k))
    (hclean : ∀ k, Clean rank rows (k * n)) (m : ℕ) :
    (pages n scans m).Perm (rows.filter fun a => upto rank rows (rank a) ≤ m * n) := by
  induction m with
  | zero =>
    have hnone : rows.filter (fun a => upto rank rows (rank a) ≤ 0 * n) = [] := by
      rw [List.filter_eq_nil_iff]
      intro a ha hle
      have hpos : 0 < upto rank rows (rank a) := List.countP_pos_iff.mpr ⟨a, ha, by simp⟩
      have hle := of_decide_eq_true hle
      omega
    rw [hnone]
    exact .nil
  | succ m ih =>
    have hrange : pages n scans (m + 1) = pages n scans m ++ page n m (scans m) := by
      rw [pages, pages, List.range_succ, List.flatMap_append, List.flatMap_singleton]
    -- The pages so far and the front of the next scan hold the same rows.
    have hfront := ih.trans ((hscan m).take_perm (hclean m)).symm
    rw [hrange]
    refine (hfront.append_right _).trans ?_
    rw [← take_succ_page]
    exact (hscan m).take_perm (hclean (m + 1))

/-- **Clean boundaries**: the pages of any scans are a permutation of the table. -/
theorem pages_perm {scans : ℕ → List α} (hscan : ∀ k, Scan rank rows (scans k))
    (hclean : ∀ k, Clean rank rows (k * n)) {m : ℕ} (hm : rows.length ≤ m * n) :
    (pages n scans m).Perm rows := by
  have hall : rows.filter (fun a => upto rank rows (rank a) ≤ m * n) = rows :=
    List.filter_eq_self.mpr fun a _ => decide_eq_true (List.countP_le_length.trans hm)
  have hperm := pages_perm_filter hscan hclean m
  rwa [hall] at hperm

/-! ## 3. A group across a boundary -/

/-- Two neighbours of equal rank may change places. -/
theorem Scan.swap {as bs : List α} {x y : α} (h : Scan rank rows (as ++ x :: y :: bs))
    (heq : rank x = rank y) : Scan rank rows (as ++ y :: x :: bs) := by
  refine ⟨((List.Perm.swap x y bs).append_left as).trans h.1, ?_⟩
  have hpairs := h.2
  simp only [List.pairwise_append, List.pairwise_cons, List.forall_mem_cons] at hpairs ⊢
  obtain ⟨has, ⟨⟨-, hx⟩, hy, hbs⟩, hcross⟩ := hpairs
  refine ⟨has, ⟨⟨heq.symm.le, hy⟩, hx, hbs⟩, fun a ha => ?_⟩
  obtain ⟨hax, hay, hab⟩ := hcross a ha
  exact ⟨hay, hax, hab⟩

/-- The rows on both sides of a boundary inside a group belong to the group. -/
theorem Scan.exists_neighbours {scan : List α} (h : Scan rank rows scan) {a : α} {j : ℕ}
    (hbefore : before rank rows (rank a) < j) (hupto : j < upto rank rows (rank a)) :
    ∃ as x y bs, scan = as ++ x :: y :: bs ∧ as.length + 1 = j ∧ rank x = rank y := by
  have hlen : j < scan.length := by
    rw [h.1.length_eq]
    exact lt_of_lt_of_le hupto List.countP_le_length
  have hlen' : j - 1 < scan.length := by omega
  have hsplit : scan = scan.take (j - 1) ++ scan[j - 1] :: scan[j] :: scan.drop (j + 1) := by
    have hdrop : scan.drop (j - 1) = scan[j - 1] :: scan.drop j := by
      rw [List.drop_eq_getElem_cons hlen']
      congr 2
      omega
    rw [← List.drop_eq_getElem_cons hlen, ← hdrop, List.take_append_drop]
  have htake : (scan.take (j - 1)).length = j - 1 := by
    rw [List.length_take]
    omega
  have hx : Scan rank rows (scan.take (j - 1) ++ scan[j - 1] :: scan[j] :: scan.drop (j + 1)) :=
    hsplit ▸ h
  have hy : Scan rank rows
      ((scan.take (j - 1) ++ [scan[j - 1]]) ++ scan[j] :: scan.drop (j + 1)) := by
    rw [List.append_assoc]
    exact hx
  have hylen : (scan.take (j - 1) ++ [scan[j - 1]]).length = j := by
    rw [List.length_append, htake, List.length_singleton]
    omega
  refine ⟨_, _, _, _, hsplit, by omega, le_antisymm ?_ ?_⟩
  · exact (List.pairwise_cons.mp (List.pairwise_append.mp hx.2).2.1).1 _ List.mem_cons_self
  · have hyle : rank scan[j] ≤ rank a := hy.lt_upto_iff.mp (by omega)
    have hxge : ¬ rank scan[j - 1] < rank a := fun hlt => by
      have := hx.lt_before_iff.mpr hlt
      omega
    exact hyle.trans (not_lt.mp hxge)

theorem mem_page {as bs : List α} {x : α} {k : ℕ} (hfirst : k * n ≤ as.length)
    (hlast : as.length < (k + 1) * n) : x ∈ page n k (as ++ x :: bs) := by
  rw [Nat.succ_mul] at hlast
  refine List.mem_of_getElem? (i := as.length - k * n) ?_
  rw [page, List.getElem?_take_of_lt (by omega), List.getElem?_drop, Nat.add_sub_cancel' hfirst,
    List.getElem?_append_right le_rfl, Nat.sub_self]
  rfl

/-- **A group across a boundary**: there are scans with which the pages on both sides of it share a
row. -/
theorem exists_overlap {scan : List α} (h : Scan rank rows scan) {k : ℕ}
    (hsplit : ¬ Clean rank rows (k * n)) :
    ∃ scans : ℕ → List α, (∀ i, Scan rank rows (scans i)) ∧
      ∃ i x, x ∈ page n i (scans i) ∧ x ∈ page n (i + 1) (scans (i + 1)) := by
  simp only [Clean, not_forall, not_not] at hsplit
  obtain ⟨a, -, hbefore, hupto⟩ := hsplit
  obtain ⟨as, x, y, bs, rfl, hlen, heq⟩ := h.exists_neighbours hbefore hupto
  have hk : 0 < k := Nat.pos_of_ne_zero fun hk => by simp [hk] at hlen
  have hn : 0 < n := Nat.pos_of_ne_zero fun hn => by simp [hn] at hlen
  obtain ⟨i, rfl⟩ := Nat.exists_eq_succ_of_ne_zero hk.ne'
  have hmul : (i + 1) * n = i * n + n := Nat.succ_mul i n
  have hmul' : (i + 1 + 1) * n = (i + 1) * n + n := Nat.succ_mul (i + 1) n
  rw [Nat.succ_eq_add_one] at hlen
  -- Page `i` ends with `x`, and the next one starts with it.
  have hlast : x ∈ page n i (as ++ x :: y :: bs) := mem_page (by omega) (by omega)
  have hfirst : x ∈ page n (i + 1) (as ++ y :: x :: bs) := by
    have happend : as ++ y :: x :: bs = (as ++ [y]) ++ x :: bs := by simp
    have hlength : (as ++ [y]).length = (i + 1) * n := by
      rw [List.length_append, List.length_singleton]
      exact hlen
    rw [happend]
    exact mem_page (by omega) (by omega)
  refine ⟨fun m => if m = i then as ++ x :: y :: bs else as ++ y :: x :: bs, fun m => ?_,
    i, x, ?_, ?_⟩
  · show Scan rank rows (if m = i then _ else _)
    split
    · exact h
    · exact h.swap heq
  · show x ∈ page n i (if i = i then _ else _)
    rwa [if_pos rfl]
  · show x ∈ page n (i + 1) (if i + 1 = i then _ else _)
    rwa [if_neg (by omega)]

end Pages

/-! ## 4. The client -/

/-- What a client has that asks for page `0`, page `1` and so on until it gets an empty page. -/
def Collected {ε β : Type} (answer : ℕ → Except ε (List β)) (items : List β) : Prop :=
  ∃ (m : ℕ) (pages : ℕ → List β), (∀ k < m, answer k = .ok (pages k) ∧ pages k ≠ []) ∧
    answer m = .ok [] ∧ items = (List.range m).flatMap pages

/-- Where the pages end: page `k` is empty exactly if there are not more than `k * n` rows. -/
theorem Scan.page_eq_nil_iff {rank : α → κ} {rows scan : List α} (h : Scan rank rows scan) {n : ℕ}
    (hn : 0 < n) (k : ℕ) : page n k scan = [] ↔ rows.length ≤ k * n := by
  rw [page, List.take_eq_nil_iff, List.drop_eq_nil_iff, h.1.length_eq]
  omega

/-- Two pages do not share a row if no row is collected twice. -/
theorem eq_of_mem_page {n m : ℕ} {scans : ℕ → List α} (h : (pages n scans m).Nodup) {i j : ℕ}
    (hi : i < m) (hj : j < m) {x : α} (hxi : x ∈ page n i (scans i))
    (hxj : x ∈ page n j (scans j)) : i = j := by
  by_contra hne
  have hdisjoint := (List.nodup_flatMap.mp h).2
  have hsymm : Std.Symm (Function.onFun List.Disjoint fun k => page n k (scans k)) :=
    ⟨fun _ _ hd => hd.symm⟩
  exact hdisjoint.forall (List.mem_range.mpr hi) (List.mem_range.mpr hj) hne hxi hxj

end Paging
