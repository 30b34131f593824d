/-
# Since

A history is a list of events, the latest one last.  `Since p q h` says that an event with `p` has
happened and no event with `q` after it.  All a proof needs is what one more event does to it
(`since_snoc`), so an invariant over histories is a case split over the events of a step.
-/
import Mathlib.Data.List.Basic
import Mathlib.Data.List.Induction

/-- An event with `p` has happened, and none with `q` after it. -/
def Since {ε : Type} (p q : ε → Prop) (h : List ε) : Prop :=
  ∃ before e after, h = before ++ e :: after ∧ p e ∧ ∀ e' ∈ after, ¬ q e'

section

variable {ε : Type} {p q q' : ε → Prop} {h : List ε}

@[simp] theorem not_since_nil : ¬ Since p q ([] : List ε) := by
  rintro ⟨before, e, after, h, -⟩
  simp at h

/-- **One more event.**  Either it is the event asked for, or the event had happened before and this
one does not end it. -/
theorem since_snoc {e : ε} : Since p q (h ++ [e]) ↔ p e ∨ (Since p q h ∧ ¬ q e) := by
  constructor
  · rintro ⟨before, e', after, heq, hp, hq⟩
    rcases List.eq_nil_or_concat after with rfl | ⟨after', b, rfl⟩
    · obtain ⟨-, hlast⟩ := List.append_inj' heq rfl
      obtain rfl : e = e' := List.singleton_inj.mp hlast
      exact Or.inl hp
    · rw [List.concat_eq_append, ← List.cons_append, ← List.append_assoc] at heq
      obtain ⟨rfl, hlast⟩ := List.append_inj' heq rfl
      obtain rfl : e = b := List.singleton_inj.mp hlast
      rw [List.concat_eq_append] at hq
      exact Or.inr ⟨⟨before, e', after', rfl, hp, fun x hx => hq x (List.mem_append_left _ hx)⟩,
        hq e (List.mem_append_right _ List.mem_cons_self)⟩
  · rintro (hp | ⟨⟨before, e', after, rfl, hp, hq⟩, hqe⟩)
    · exact ⟨h, e, [], rfl, hp, by simp⟩
    · refine ⟨before, e', after ++ [e], by simp, hp, fun x hx => ?_⟩
      rcases List.mem_append.mp hx with hx | hx
      · exact hq x hx
      · rwa [List.mem_singleton.mp hx]

/-- **Events that are neither.** -/
theorem since_append_iff {es : List ε} (hes : ∀ e ∈ es, ¬ p e ∧ ¬ q e) :
    Since p q (h ++ es) ↔ Since p q h := by
  induction es using List.reverseRecOn with
  | nil => rw [List.append_nil]
  | append_singleton es e ih =>
    obtain ⟨hp, hq⟩ := hes e (by simp)
    rw [← List.append_assoc, since_snoc, ih fun x hx => hes x (List.mem_append_left _ hx)]
    simp only [hp, hq, not_false_eq_true, and_true, false_or]

/-- Either one of the last events is the one asked for, or none of them ends it. -/
theorem since_append_cases {es : List ε} (hsince : Since p q (h ++ es)) :
    (∃ e ∈ es, p e) ∨ (Since p q h ∧ ∀ e ∈ es, ¬ q e) := by
  induction es using List.reverseRecOn with
  | nil =>
    rw [List.append_nil] at hsince
    exact Or.inr ⟨hsince, by simp⟩
  | append_singleton es e ih =>
    rw [← List.append_assoc, since_snoc] at hsince
    rcases hsince with hp | ⟨hsince, hq⟩
    · exact Or.inl ⟨e, by simp, hp⟩
    · rcases ih hsince with ⟨x, hx, hpx⟩ | ⟨hold, hes⟩
      · exact Or.inl ⟨x, List.mem_append_left _ hx, hpx⟩
      · refine Or.inr ⟨hold, fun x hx => ?_⟩
        rcases List.mem_append.mp hx with hx | hx
        · exact hes x hx
        · rwa [List.mem_singleton.mp hx]

/-- Fewer events that end it. -/
theorem Since.mono (hsince : Since p q h) (hqq : ∀ e, q' e → q e) : Since p q' h := by
  obtain ⟨before, e, after, rfl, hp, hq⟩ := hsince
  exact ⟨before, e, after, rfl, hp, fun x hx hq' => hq x hx (hqq x hq')⟩

end
