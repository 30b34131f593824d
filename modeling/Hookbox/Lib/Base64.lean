/-
# Base64

The standard alphabet, with the padding that the encoder writes and no other: three bytes are four
digits of six bits, and a last group of one or two bytes is filled up with `=`.  A decoder that insists
on the padding, and on zero for the bits that the last digit has to spare, accepts exactly what the
encoder writes (`decode_eq_some_iff`).
-/
import Mathlib.Data.UInt
import Mathlib.Tactic.Common

namespace Base64

/-! ## 1. Digits -/

/-- The digit of a number below 64. -/
def digitChar (n : Nat) : Char :=
  if n < 26 then Char.ofNat (65 + n)
  else if n < 52 then Char.ofNat (71 + n)
  else if n < 62 then Char.ofNat (n - 4)
  else if n = 62 then '+'
  else '/'

/-- The value of a digit. -/
def digit? (c : Char) : Option Nat :=
  if 65 ≤ c.toNat ∧ c.toNat ≤ 90 then some (c.toNat - 65)
  else if 97 ≤ c.toNat ∧ c.toNat ≤ 122 then some (c.toNat - 71)
  else if 48 ≤ c.toNat ∧ c.toNat ≤ 57 then some (c.toNat + 4)
  else if c = '+' then some 62
  else if c = '/' then some 63
  else none

theorem digit?_digitChar {n : Nat} (hn : n < 64) : digit? (digitChar n) = some n := by
  have key : ∀ m : Fin 64, digit? (digitChar m) = some m.1 := by decide
  exact key ⟨n, hn⟩

theorem digitChar_of_digit? {c : Char} {n : Nat} (h : digit? c = some n) :
    n < 64 ∧ digitChar n = c := by
  unfold digit? at h
  split at h
  · rename_i hc
    obtain rfl := Option.some.inj h
    refine ⟨by omega, ?_⟩
    rw [digitChar, if_pos (by omega), Nat.add_sub_cancel' hc.1, Char.ofNat_toNat]
  split at h
  · rename_i hc
    obtain rfl := Option.some.inj h
    refine ⟨by omega, ?_⟩
    rw [digitChar, if_neg (by omega), if_pos (by omega), Nat.add_sub_cancel' (by omega),
      Char.ofNat_toNat]
  split at h
  · rename_i hc
    obtain rfl := Option.some.inj h
    refine ⟨by omega, ?_⟩
    rw [digitChar, if_neg (by omega), if_neg (by omega), if_pos (by omega), Nat.add_sub_cancel,
      Char.ofNat_toNat]
  split at h
  · rename_i hc
    obtain rfl := Option.some.inj h
    exact ⟨by decide, hc.symm⟩
  split at h
  · rename_i hc
    obtain rfl := Option.some.inj h
    exact ⟨by decide, hc.symm⟩
  · cases h

/-- The padding is no digit. -/
theorem digitChar_ne_pad {n : Nat} (hn : n < 64) : digitChar n ≠ '=' := by
  intro heq
  have h := digit?_digitChar hn
  rw [heq] at h
  cases h

/-! ## 2. Both ways -/

def encode : List UInt8 → List Char
  | [] => []
  | [a] => [digitChar (a.toNat / 4), digitChar (a.toNat % 4 * 16), '=', '=']
  | [a, b] =>
    [digitChar (a.toNat / 4), digitChar (a.toNat % 4 * 16 + b.toNat / 16),
      digitChar (b.toNat % 16 * 4), '=']
  | a :: b :: c :: bs =>
    digitChar (a.toNat / 4) :: digitChar (a.toNat % 4 * 16 + b.toNat / 16) ::
      digitChar (b.toNat % 16 * 4 + c.toNat / 64) :: digitChar (c.toNat % 64) :: encode bs

/-- The three bytes of four digits. -/
def first (x y : Nat) : UInt8 := UInt8.ofNat (x * 4 + y / 16)

def second (y z : Nat) : UInt8 := UInt8.ofNat (y % 16 * 16 + z / 4)

def third (z w : Nat) : UInt8 := UInt8.ofNat (z % 4 * 64 + w)

/-- A last group of one byte or two. -/
def decodeLast (a b c : Char) : Option (List UInt8) := do
  let x ← digit? a
  let y ← digit? b
  if c = '=' then
    if y % 16 = 0 then return [first x y] else none
  else
    let z ← digit? c
    if z % 4 = 0 then return [first x y, second y z] else none

def decode : List Char → Option (List UInt8)
  | [] => some []
  | a :: b :: c :: d :: cs =>
    if d = '=' ∧ cs = [] then decodeLast a b c
    else do
      let x ← digit? a
      let y ← digit? b
      let z ← digit? c
      let w ← digit? d
      let bs ← decode cs
      return first x y :: second y z :: third z w :: bs
  | _ => none

/-! ## 3. Round trips -/

section Bytes

variable (a b c : UInt8) {x y z w n : Nat}

theorem first_eq (hn : n < 16) : first (a.toNat / 4) (a.toNat % 4 * 16 + n) = a := by
  have ha : a.toNat < 256 := a.toNat_lt
  rw [first, show a.toNat / 4 * 4 + (a.toNat % 4 * 16 + n) / 16 = a.toNat by omega,
    UInt8.ofNat_toNat]

theorem second_eq (hn : n < 4) :
    second (a.toNat % 4 * 16 + b.toNat / 16) (b.toNat % 16 * 4 + n) = b := by
  have hb : b.toNat < 256 := b.toNat_lt
  rw [second, show (a.toNat % 4 * 16 + b.toNat / 16) % 16 * 16 + (b.toNat % 16 * 4 + n) / 4
    = b.toNat by omega, UInt8.ofNat_toNat]

theorem third_eq : third (b.toNat % 16 * 4 + c.toNat / 64) (c.toNat % 64) = c := by
  have hc : c.toNat < 256 := c.toNat_lt
  rw [third, show (b.toNat % 16 * 4 + c.toNat / 64) % 4 * 64 + c.toNat % 64 = c.toNat by omega,
    UInt8.ofNat_toNat]

theorem first_toNat (hx : x < 64) (hy : y < 64) : (first x y).toNat = x * 4 + y / 16 := by
  rw [first, UInt8.toNat_ofNat']
  omega

theorem second_toNat (hz : z < 64) : (second y z).toNat = y % 16 * 16 + z / 4 := by
  rw [second, UInt8.toNat_ofNat']
  omega

theorem third_toNat (hw : w < 64) : (third z w).toNat = z % 4 * 64 + w := by
  rw [third, UInt8.toNat_ofNat']
  omega

end Bytes

/-- **What was encoded is decoded.** -/
theorem decode_encode (bs : List UInt8) : decode (encode bs) = some bs := by
  fun_induction encode bs with
  | case1 => rfl
  | case2 a =>
    have ha : a.toNat < 256 := a.toNat_lt
    have hfirst : first (a.toNat / 4) (a.toNat % 4 * 16) = a := first_eq a (n := 0) (by decide)
    rw [decode, if_pos ⟨rfl, rfl⟩, decodeLast, digit?_digitChar (by omega),
      digit?_digitChar (by omega)]
    simp only [Option.bind_eq_bind, Option.bind_some, if_true,
      if_pos (show a.toNat % 4 * 16 % 16 = 0 by omega)]
    rw [hfirst]
    rfl
  | case3 a b =>
    have ha : a.toNat < 256 := a.toNat_lt
    have hb : b.toNat < 256 := b.toNat_lt
    have hsecond : second (a.toNat % 4 * 16 + b.toNat / 16) (b.toNat % 16 * 4) = b :=
      second_eq a b (n := 0) (by decide)
    rw [decode, if_pos ⟨rfl, rfl⟩, decodeLast, digit?_digitChar (by omega),
      digit?_digitChar (by omega), digit?_digitChar (by omega)]
    simp only [Option.bind_eq_bind, Option.bind_some, if_neg (digitChar_ne_pad
      (show b.toNat % 16 * 4 < 64 by omega)), if_pos (show b.toNat % 16 * 4 % 4 = 0 by omega)]
    rw [first_eq a (by omega), hsecond]
    rfl
  | case4 a b c bs ih =>
    have ha : a.toNat < 256 := a.toNat_lt
    have hb : b.toNat < 256 := b.toNat_lt
    have hc : c.toNat < 256 := c.toNat_lt
    have hpad : ¬ (digitChar (c.toNat % 64) = '=' ∧ encode bs = []) :=
      fun h => digitChar_ne_pad (by omega) h.1
    rw [decode, if_neg hpad, digit?_digitChar (by omega), digit?_digitChar (by omega),
      digit?_digitChar (by omega), digit?_digitChar (by omega), ih]
    simp only [Option.bind_eq_bind, Option.bind_some]
    rw [first_eq a (by omega), second_eq a b (by omega), third_eq]
    rfl

theorem decodeLast_eq_some {a b c : Char} {bs : List UInt8} (h : decodeLast a b c = some bs) :
    encode bs = [a, b, c, '='] := by
  simp only [decodeLast, Option.bind_eq_bind, Option.bind_eq_some_iff] at h
  obtain ⟨x, hx, y, hy, h⟩ := h
  obtain ⟨hx64, rfl⟩ := digitChar_of_digit? hx
  obtain ⟨hy64, rfl⟩ := digitChar_of_digit? hy
  split at h
  · rename_i hc
    split at h
    · obtain rfl := Option.some.inj h
      rw [encode, first_toNat hx64 hy64, hc, show (x * 4 + y / 16) / 4 = x by omega,
        show (x * 4 + y / 16) % 4 * 16 = y by omega]
    · cases h
  · obtain ⟨z, hz, hrest⟩ := Option.bind_eq_some_iff.mp h
    obtain ⟨hz64, rfl⟩ := digitChar_of_digit? hz
    clear h
    split at hrest
    · obtain rfl := Option.some.inj hrest
      rw [encode, first_toNat hx64 hy64, second_toNat hz64,
        show (x * 4 + y / 16) / 4 = x by omega,
        show (x * 4 + y / 16) % 4 * 16 + (y % 16 * 16 + z / 4) / 16 = y by omega,
        show (y % 16 * 16 + z / 4) % 16 * 4 = z by omega]
    · cases hrest

/-- **What is decoded was encoded**, by this encoder. -/
theorem encode_of_decode {cs : List Char} {bs : List UInt8} (h : decode cs = some bs) :
    encode bs = cs := by
  fun_induction decode cs generalizing bs with
  | case1 =>
    obtain rfl := Option.some.inj h
    rfl
  | case2 a b c d cs hlast =>
    rw [decodeLast_eq_some h, hlast.1, hlast.2]
  | case3 a b c d cs hlast ih =>
    simp only [Option.bind_eq_bind, Option.bind_eq_some_iff] at h
    obtain ⟨x, hx, y, hy, z, hz, w, hw, rest, hrest, h⟩ := h
    obtain ⟨hx64, rfl⟩ := digitChar_of_digit? hx
    obtain ⟨hy64, rfl⟩ := digitChar_of_digit? hy
    obtain ⟨hz64, rfl⟩ := digitChar_of_digit? hz
    obtain ⟨hw64, rfl⟩ := digitChar_of_digit? hw
    obtain rfl := Option.some.inj h
    rw [encode, ih hrest, first_toNat hx64 hy64, second_toNat hz64, third_toNat hw64,
      show (x * 4 + y / 16) / 4 = x by omega,
      show (x * 4 + y / 16) % 4 * 16 + (y % 16 * 16 + z / 4) / 16 = y by omega,
      show (y % 16 * 16 + z / 4) % 16 * 4 + (z % 4 * 64 + w) / 64 = z by omega,
      show (z % 4 * 64 + w) % 64 = w by omega]
  | case4 => cases h

/-- **The decoder accepts exactly what the encoder writes.** -/
theorem decode_eq_some_iff {cs : List Char} {bs : List UInt8} :
    decode cs = some bs ↔ cs = encode bs :=
  ⟨fun h => (encode_of_decode h).symm, fun h => h ▸ decode_encode bs⟩

end Base64
