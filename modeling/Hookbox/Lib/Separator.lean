/-
# Texts joined by a separator

A separator between two texts can be found again when it is known how often it occurs in the first:
`append_sep_inj_of_count`.  A first text without separators is the usual case (`append_sep_inj`); with
nothing known about it, the join is ambiguous.
-/
import Mathlib.Data.List.Basic

namespace Separator

variable {α : Type} [DecidableEq α] {sep : α} {xs ys xs' ys' : List α}

/-- **Equally many separators in front** determine where the texts were joined. -/
theorem append_sep_inj_of_count (hcount : xs.count sep = xs'.count sep)
    (h : xs ++ sep :: ys = xs' ++ sep :: ys') : xs = xs' ∧ ys = ys' := by
  -- Of two different fronts, the longer one continues with the separator of the shorter one.
  have hlonger : ∀ {as bs cs ds : List α}, as.count sep = cs.count sep →
      ∀ rest, cs = as ++ rest → sep :: bs = rest ++ sep :: ds → as = cs ∧ bs = ds := by
    intro as bs cs ds hc rest hcs hrest
    cases rest with
    | nil => exact ⟨by rw [hcs, List.append_nil], (List.cons.inj hrest).2⟩
    | cons r rest =>
      obtain ⟨rfl, -⟩ := List.cons.inj hrest
      rw [hcs, List.count_append, List.count_cons_self] at hc
      omega
  rcases List.append_eq_append_iff.mp h with ⟨rest, hxs', hys⟩ | ⟨rest, hxs, hys'⟩
  · exact hlonger hcount rest hxs' hys
  · obtain ⟨hx, hy⟩ := hlonger hcount.symm rest hxs hys'
    exact ⟨hx.symm, hy.symm⟩

/-- Two texts of which the first has no separator. -/
theorem append_sep_inj (hxs : sep ∉ xs) (hxs' : sep ∉ xs') (h : xs ++ sep :: ys = xs' ++ sep :: ys') :
    xs = xs' ∧ ys = ys' :=
  append_sep_inj_of_count
    (by rw [List.count_eq_zero_of_not_mem hxs, List.count_eq_zero_of_not_mem hxs']) h

end Separator
