/-
# Texts as lists of characters

What a program does to a short text before it knows what the text means.

* `splitAt`: cutting at a byte position, which must not fall inside a character
  (`splitAt_eq_some_iff`, `splitAt_pred`).
* `trim`: dropping what satisfies a predicate from both ends (`trim_append`, `exists_trim`).
* `readInt`: a signed decimal numeral, read digit by digit with a range check at each
  (`readInt_eq_ok_iff`).  That an intermediate value never leaves the range before the final one does
  is what makes the checks exact.
-/
import Mathlib

namespace Text

/-! ## 1. Byte positions -/

/-- The length in UTF-8. -/
def byteLen (cs : List Char) : Nat := (cs.map Char.utf8Size).sum

@[simp] theorem byteLen_nil : byteLen [] = 0 := rfl

@[simp] theorem byteLen_cons (c : Char) (cs : List Char) :
    byteLen (c :: cs) = c.utf8Size + byteLen cs := by
  rw [byteLen, List.map_cons, List.sum_cons, ← byteLen]

@[simp] theorem byteLen_append (cs ds : List Char) :
    byteLen (cs ++ ds) = byteLen cs + byteLen ds := by
  rw [byteLen, List.map_append, List.sum_append, ← byteLen, ← byteLen]

/-- Cut at a byte position; `none` inside a character and past the end. -/
def splitAt : Nat → List Char → Option (List Char × List Char)
  | 0, cs => some ([], cs)
  | _ + 1, [] => none
  | n + 1, c :: cs =>
    if c.utf8Size ≤ n + 1 then
      (splitAt (n + 1 - c.utf8Size) cs).map fun p => (c :: p.1, p.2)
    else none

/-- **Where a text can be cut**: in front of each character and at the end. -/
theorem splitAt_eq_some_iff {n : Nat} {cs as bs : List Char} :
    splitAt n cs = some (as, bs) ↔ cs = as ++ bs ∧ byteLen as = n := by
  induction cs generalizing n as with
  | nil =>
    cases n with
    | zero =>
      rw [splitAt, Option.some.injEq, Prod.mk.injEq]
      constructor
      · rintro ⟨rfl, rfl⟩
        exact ⟨rfl, rfl⟩
      · rintro ⟨happend, -⟩
        obtain ⟨rfl, rfl⟩ := List.append_eq_nil_iff.mp happend.symm
        exact ⟨rfl, rfl⟩
    | succ n =>
      refine iff_of_false (by simp [splitAt]) ?_
      rintro ⟨happend, hlen⟩
      obtain ⟨rfl, -⟩ := List.append_eq_nil_iff.mp happend.symm
      simp at hlen
  | cons c cs ih =>
    cases n with
    | zero =>
      rw [splitAt, Option.some.injEq, Prod.mk.injEq]
      constructor
      · rintro ⟨rfl, rfl⟩
        exact ⟨rfl, rfl⟩
      · rintro ⟨happend, hlen⟩
        cases as with
        | nil => exact ⟨rfl, happend⟩
        | cons a as =>
          have hpos := a.utf8Size_pos
          rw [byteLen_cons] at hlen
          omega
    | succ n =>
      have hpos := c.utf8Size_pos
      rw [splitAt]
      split
      · rename_i hle
        rw [Option.map_eq_some_iff]
        constructor
        · rintro ⟨⟨as', bs'⟩, hsplit, hp⟩
          obtain ⟨rfl, rfl⟩ := Prod.mk.inj hp
          obtain ⟨rfl, hlen⟩ := ih.mp hsplit
          refine ⟨rfl, ?_⟩
          rw [byteLen_cons, hlen]
          omega
        · rintro ⟨happend, hlen⟩
          cases as with
          | nil => simp at hlen
          | cons a as =>
            obtain ⟨rfl, rfl⟩ := List.cons.inj happend
            rw [byteLen_cons] at hlen
            exact ⟨(as, bs), ih.mpr ⟨rfl, by omega⟩, rfl⟩
      · rename_i hlt
        refine iff_of_false (by simp) ?_
        rintro ⟨happend, hlen⟩
        cases as with
        | nil => simp at hlen
        | cons a as =>
          obtain ⟨rfl, -⟩ := List.cons.inj happend
          rw [byteLen_cons] at hlen
          omega

/-- **Cutting off the last byte** cuts off the last character if it is one byte long, and is not
possible otherwise. -/
theorem splitAt_pred (cs : List Char) (c : Char) :
    splitAt (byteLen (cs ++ [c]) - 1) (cs ++ [c])
      = if c.utf8Size = 1 then some (cs, [c]) else none := by
  have hpos := c.utf8Size_pos
  have hlen : byteLen (cs ++ [c]) = byteLen cs + c.utf8Size := by simp
  split
  · rename_i hone
    exact splitAt_eq_some_iff.mpr ⟨rfl, by omega⟩
  · rename_i hmore
    rw [Option.eq_none_iff_forall_not_mem]
    rintro ⟨as, bs⟩ hsplit
    obtain ⟨happend, hcut⟩ := splitAt_eq_some_iff.mp hsplit
    -- The cut lies behind `cs` and before the end, so inside the last character.
    rcases List.append_eq_append_iff.mp happend with ⟨rest, has, hlast⟩ | ⟨rest, hcs, -⟩
    · cases rest with
      | nil =>
        rw [has, List.append_nil] at hcut
        omega
      | cons r rest =>
        obtain ⟨rfl, hnil⟩ := List.cons.inj hlast
        obtain ⟨rfl, -⟩ := List.append_eq_nil_iff.mp hnil.symm
        rw [has, hlen] at hcut
        omega
    · have hcs' := congrArg byteLen hcs
      rw [byteLen_append] at hcs'
      omega

/-! ## 2. Trimming -/

/-- Drop what satisfies `p` from both ends. -/
def trim (p : Char → Bool) (cs : List Char) : List Char := (cs.dropWhile p).rdropWhile p

/-- A text is its trimmed middle with a margin on each side. -/
theorem exists_trim (p : Char → Bool) (cs : List Char) :
    ∃ pre post, cs = pre ++ trim p cs ++ post ∧ (∀ c ∈ pre, p c = true) ∧
      ∀ c ∈ post, p c = true := by
  refine ⟨cs.takeWhile p, (cs.dropWhile p).rtakeWhile p, ?_, ?_, ?_⟩
  · rw [List.append_assoc, trim, List.rdropWhile_append_rtakeWhile, List.takeWhile_append_dropWhile]
  · exact fun c hc => List.mem_takeWhile_imp hc
  · exact fun c hc => List.mem_rtakeWhile_imp hc

/-- **The middle is found again** if it neither starts nor ends with what is dropped. -/
theorem trim_append {p : Char → Bool} {pre mid post : List Char} (hpre : ∀ c ∈ pre, p c = true)
    (hpost : ∀ c ∈ post, p c = true) (hfirst : ∀ c ∈ mid.head?, p c = false)
    (hlast : ∀ c ∈ mid.getLast?, p c = false) : trim p (pre ++ mid ++ post) = mid := by
  have hdrop : (mid ++ post).dropWhile p = if mid = [] then [] else mid ++ post := by
    cases mid with
    | nil => rw [List.nil_append, if_pos rfl, List.dropWhile_eq_nil_iff.mpr hpost]
    | cons c cs =>
      have hc : ¬ p c = true := by simp [hfirst c (by simp)]
      rw [List.cons_append, List.dropWhile_cons_of_neg hc, if_neg (by simp)]
  have hmid : mid.reverse.dropWhile p = mid.reverse := by
    cases hrev : mid.reverse with
    | nil => rfl
    | cons c cs =>
      have hc : ¬ p c = true := by
        have hmem : c ∈ mid.getLast? := by rw [← List.head?_reverse, hrev]; rfl
        simp [hlast c hmem]
      exact List.dropWhile_cons_of_neg hc
  rw [trim, List.append_assoc, List.dropWhile_append_of_pos hpre, hdrop]
  split
  · rename_i hnil
    rw [hnil, List.rdropWhile_nil]
  · have hpost' : ∀ c ∈ post.reverse, p c = true := fun c hc => hpost c (List.mem_reverse.mp hc)
    rw [List.rdropWhile, List.reverse_append, List.dropWhile_append_of_pos hpost', hmid,
      List.reverse_reverse]

/-! ## 3. Signed decimals -/

/-- `IntErrorKind` of the standard library, as far as a decimal numeral can raise it. -/
inductive IntErrorKind where
  | empty
  | invalidDigit
  | posOverflow
  | negOverflow
deriving DecidableEq

/-- The value of a decimal digit. -/
def digit? (c : Char) : Option Nat := if c.isDigit then some (c.toNat - 48) else none

/-- The digits from the left, each added with the sign; every intermediate value must lie between
`lo` and `hi`. -/
def readDigits (lo hi sign : ℤ) (overflow : IntErrorKind) : ℤ → List Char → Except IntErrorKind ℤ
  | acc, [] => .ok acc
  | acc, c :: cs =>
    match digit? c with
    | none => .error .invalidDigit
    | some x =>
      if acc * 10 < lo ∨ hi < acc * 10 then .error overflow
      else if acc * 10 + sign * x < lo ∨ hi < acc * 10 + sign * x then .error overflow
      else readDigits lo hi sign overflow (acc * 10 + sign * x) cs

/-- A decimal numeral between `lo` and `hi`, with an optional sign. -/
def readInt (lo hi : ℤ) : List Char → Except IntErrorKind ℤ
  | [] => .error .empty
  | ['+'] => .error .invalidDigit
  | ['-'] => .error .invalidDigit
  | '+' :: ds => readDigits lo hi 1 .posOverflow 0 ds
  | '-' :: ds => readDigits lo hi (-1) .negOverflow 0 ds
  | ds => readDigits lo hi 1 .posOverflow 0 ds

/-- The number that digits denote. -/
def digitsValue (ds : List Char) : ℕ := Nat.ofDigits 10 (ds.reverse.map fun c => c.toNat - 48)

/-- A numeral and its number. -/
inductive Numeral : List Char → ℤ → Prop
  | plain {ds : List Char} (hne : ds ≠ []) (hds : ∀ c ∈ ds, c.isDigit = true) :
      Numeral ds (digitsValue ds)
  | plus {ds : List Char} (hne : ds ≠ []) (hds : ∀ c ∈ ds, c.isDigit = true) :
      Numeral ('+' :: ds) (digitsValue ds)
  | minus {ds : List Char} (hne : ds ≠ []) (hds : ∀ c ∈ ds, c.isDigit = true) :
      Numeral ('-' :: ds) (-(digitsValue ds : ℤ))

theorem digitsValue_cons (c : Char) (cs : List Char) :
    digitsValue (c :: cs) = (c.toNat - 48) * 10 ^ cs.length + digitsValue cs := by
  rw [digitsValue, List.reverse_cons, List.map_append, Nat.ofDigits_append, List.length_map,
    List.length_reverse, ← digitsValue]
  simp only [List.map_cons, List.map_nil, Nat.ofDigits_singleton]
  ring

/-- With a sign and a value on the same side of zero, the digits that follow only lead away from
it. -/
theorem le_readDigits {acc : ℤ} (h : 0 ≤ acc) (v len : ℕ) : acc ≤ acc * 10 ^ len + v := by
  have hpow : (1 : ℤ) ≤ 10 ^ len := one_le_pow₀ (by norm_num)
  have hmul : acc * 1 ≤ acc * 10 ^ len := mul_le_mul_of_nonneg_left hpow h
  omega

/-- One digit more leads away from zero, or stays there. -/
theorem addDigit_away {sign acc : ℤ} (hsign : sign = 1 ∨ sign = -1) (h : 0 ≤ sign * acc) (x : ℕ) :
    0 ≤ sign * (acc * 10 + sign * x) ∧ sign * acc ≤ sign * (acc * 10) ∧
      sign * (acc * 10) ≤ sign * (acc * 10 + sign * x) := by
  rcases hsign with rfl | rfl <;> omega

/-- A value that has left the range does not come back. -/
theorem readDigits_out {lo hi sign acc : ℤ} (hsign : sign = 1 ∨ sign = -1) (h : 0 ≤ sign * acc)
    (hout : if sign = 1 then hi < acc else acc < lo) (v len : ℕ) :
    ¬ (lo ≤ acc * 10 ^ len + sign * v ∧ acc * 10 ^ len + sign * v ≤ hi) := by
  rcases hsign with rfl | rfl
  · have hle := le_readDigits (by omega : 0 ≤ acc) v len
    rw [if_pos rfl] at hout
    omega
  · have hle := le_readDigits (by omega : 0 ≤ -acc) v len
    rw [if_neg (by decide)] at hout
    rw [neg_mul] at hle
    omega

/-- **The loop reads digits and nothing else, and its checks are those of the final value.** -/
theorem readDigits_eq_ok_iff {lo hi sign : ℤ} (hsign : sign = 1 ∨ sign = -1)
    {overflow : IntErrorKind} {ds : List Char} :
    ∀ {acc n : ℤ}, 0 ≤ sign * acc → lo ≤ acc → acc ≤ hi →
      (readDigits lo hi sign overflow acc ds = .ok n ↔ (∀ c ∈ ds, c.isDigit = true) ∧
        n = acc * 10 ^ ds.length + sign * digitsValue ds ∧ lo ≤ n ∧ n ≤ hi) := by
  induction ds with
  | nil =>
    intro acc n _ hlo hhi
    rw [readDigits, Except.ok.injEq]
    simp only [List.not_mem_nil, false_implies, implies_true, true_and, List.length_nil, pow_zero,
      mul_one, digitsValue, List.reverse_nil, List.map_nil, Nat.ofDigits_nil, Nat.cast_zero,
      mul_zero, add_zero]
    constructor
    · rintro rfl
      exact ⟨rfl, hlo, hhi⟩
    · rintro ⟨rfl, -⟩
      rfl
  | cons c cs ih =>
    intro acc n hacc hlo hhi
    by_cases hc : c.isDigit = true
    · have hdigit : digit? c = some (c.toNat - 48) := if_pos hc
      obtain ⟨hacc', hfirst, hsecond⟩ := addDigit_away hsign hacc (c.toNat - 48)
      have hvalue : acc * 10 ^ (c :: cs).length + sign * digitsValue (c :: cs)
          = (acc * 10 + sign * (c.toNat - 48 : ℕ)) * 10 ^ cs.length + sign * digitsValue cs := by
        rw [digitsValue_cons, List.length_cons]
        push_cast
        ring
      rw [hvalue, List.forall_mem_cons, readDigits, hdigit]
      simp only [hc, true_and]
      generalize hnext : acc * 10 + sign * (c.toNat - 48 : ℕ) = acc' at hacc' hsecond ⊢
      by_cases hout : if sign = 1 then hi < acc' else acc' < lo
      · -- Both sides fail: one of the two checks, and the final value.
        refine iff_of_false ?_ ?_
        · have hcheck : acc' < lo ∨ hi < acc' := by
            split at hout
            · exact Or.inr hout
            · exact Or.inl hout
          rw [if_pos hcheck, ite_self]
          simp
        · rintro ⟨-, rfl, hrange⟩
          exact readDigits_out hsign hacc' hout _ _ hrange
      · have hrange : lo ≤ acc' ∧ acc' ≤ hi := by
          rcases hsign with rfl | rfl
          · rw [if_pos rfl] at hout
            omega
          · rw [if_neg (by decide)] at hout
            omega
        have hmul : ¬ (acc * 10 < lo ∨ hi < acc * 10) := by
          rcases hsign with rfl | rfl <;> omega
        have hadd : ¬ (acc' < lo ∨ hi < acc') := by omega
        rw [if_neg hmul, if_neg hadd]
        exact ih hacc' hrange.1 hrange.2
    · have hdigit : digit? c = none := if_neg hc
      rw [readDigits, hdigit]
      refine iff_of_false (by simp) ?_
      rintro ⟨hds, -⟩
      exact hc (hds c List.mem_cons_self)

/-- The loop from zero. -/
theorem readDigits_zero_iff {lo hi sign n : ℤ} (hsign : sign = 1 ∨ sign = -1) (hlo : lo ≤ 0)
    (hhi : 0 ≤ hi) {overflow : IntErrorKind} {ds : List Char} :
    readDigits lo hi sign overflow 0 ds = .ok n ↔ (∀ c ∈ ds, c.isDigit = true) ∧
      n = sign * digitsValue ds ∧ lo ≤ n ∧ n ≤ hi := by
  rw [readDigits_eq_ok_iff hsign (by omega) hlo hhi, zero_mul, zero_add]

/-- **`readInt` reads exactly the numerals of the range.** -/
theorem readInt_eq_ok_iff {lo hi n : ℤ} (hlo : lo ≤ 0) (hhi : 0 ≤ hi) {cs : List Char} :
    readInt lo hi cs = .ok n ↔ Numeral cs n ∧ lo ≤ n ∧ n ≤ hi := by
  have hplus : ¬ '+'.isDigit = true := by decide
  have hminus : ¬ '-'.isDigit = true := by decide
  constructor
  · intro h
    unfold readInt at h
    split at h
    · exact absurd h (by simp)
    · exact absurd h (by simp)
    · exact absurd h (by simp)
    · rename_i ds hne
      obtain ⟨hds, rfl, hrange⟩ := (readDigits_zero_iff (Or.inl rfl) hlo hhi).mp h
      rw [one_mul] at hrange ⊢
      exact ⟨.plus (by rintro rfl; exact hne rfl) hds, hrange⟩
    · rename_i ds hne
      obtain ⟨hds, rfl, hrange⟩ := (readDigits_zero_iff (Or.inr rfl) hlo hhi).mp h
      rw [neg_one_mul] at hrange ⊢
      exact ⟨.minus (by rintro rfl; exact hne rfl) hds, hrange⟩
    · rename_i hne _ _ _ _
      obtain ⟨hds, rfl, hrange⟩ := (readDigits_zero_iff (Or.inl rfl) hlo hhi).mp h
      rw [one_mul] at hrange ⊢
      exact ⟨.plain hne hds, hrange⟩
  · rintro ⟨hnum, hrange⟩
    cases hnum with
    | plain hne hds =>
      have hread : readDigits lo hi 1 .posOverflow 0 cs = .ok (digitsValue cs : ℤ) :=
        (readDigits_zero_iff (Or.inl rfl) hlo hhi).mpr ⟨hds, (one_mul _).symm, hrange⟩
      unfold readInt
      split
      · exact absurd rfl hne
      · exact absurd (hds '+' (by simp)) hplus
      · exact absurd (hds '-' (by simp)) hminus
      · exact absurd (hds '+' (by simp)) hplus
      · exact absurd (hds '-' (by simp)) hminus
      · exact hread
    | @plus ds hne hds =>
      have hread : readDigits lo hi 1 .posOverflow 0 ds = .ok (digitsValue ds : ℤ) :=
        (readDigits_zero_iff (Or.inl rfl) hlo hhi).mpr ⟨hds, (one_mul _).symm, hrange⟩
      cases ds with
      | nil => exact absurd rfl hne
      | cons d ds => exact hread
    | @minus ds hne hds =>
      have hread : readDigits lo hi (-1) .negOverflow 0 ds = .ok (-(digitsValue ds : ℤ)) :=
        (readDigits_zero_iff (Or.inr rfl) hlo hhi).mpr ⟨hds, (neg_one_mul _).symm, hrange⟩
      cases ds with
      | nil => exact absurd rfl hne
      | cons d ds => exact hread

end Text
