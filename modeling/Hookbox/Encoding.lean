/-
# Text, hex and the dedupe key

The byte-level functions of the standard library and of the `hex` crate that the verifiers and
the pipeline call, and what the pipeline relies on: the dedupe key `provider:hash` determines the
provider and the digest, although a provider name may contain a colon itself
(`dedupeKey_injective`).

Header texts stay byte lists: `HeaderValue::to_str` only lets visible ASCII through, so bytes and
characters are the same thing there.
-/
import Mathlib.Algebra.Group.Nat.Defs
import Hookbox.Storage.Rows

namespace Hookbox

/-! ## 1. Byte strings -/

/-- `str::as_bytes`. -/
def asBytes (s : String) : Bytes := s.toUTF8.data.toList

/-- `std::str::from_utf8(..).is_ok()`. -/
def isUtf8 (bs : Bytes) : Bool := (ByteArray.mk bs.toArray).validateUTF8

/-- `HeaderValue::to_str`: visible ASCII and tab. -/
def toStr (bs : Bytes) : Option Bytes :=
  if bs.all fun b => (32 ≤ b && b < 127) || b == 9 then some bs else none

/-- `str::split` at one ASCII character.  There is always a first piece. -/
def split (sep : UInt8) : Bytes → List Bytes
  | [] => [[]]
  | b :: bs =>
    if b = sep then [] :: split sep bs
    else
      match split sep bs with
      | [] => [[b]]
      | piece :: pieces => (b :: piece) :: pieces

/-- `str::split_whitespace`; a text that `to_str` accepts has no other whitespace than blanks
and tabs. -/
def splitWhitespace (bs : Bytes) : List Bytes :=
  ((split 32 bs).flatMap (split 9)).filter fun piece => !piece.isEmpty

/-- `str::strip_prefix`. -/
def stripPrefix : Bytes → Bytes → Option Bytes
  | [], bs => some bs
  | _ :: _, [] => none
  | p :: ps, b :: bs => if p = b then stripPrefix ps bs else none

/-- The value of a list of decimal digits; `none` on anything else. -/
def decimal? (acc : Nat) : Bytes → Option Nat
  | [] => some acc
  | b :: bs => if 48 ≤ b ∧ b ≤ 57 then decimal? (acc * 10 + (b.toNat - 48)) bs else none

/-- `str::parse::<u64>`: digits after at most one plus sign, and no overflow. -/
def parseU64 (bs : Bytes) : Option Nat :=
  let digits := match bs with | 43 :: rest => rest | _ => bs
  if digits.isEmpty then none
  else (decimal? 0 digits).filter fun n => n < 2 ^ 64

/-- `hex::decode`. -/
def hexDecode : Bytes → Option Bytes
  | [] => some []
  | [_] => none
  | a :: b :: bs => do
    let hi ← hexDigit? (Char.ofNat a.toNat)
    let lo ← hexDigit? (Char.ofNat b.toNat)
    let rest ← hexDecode bs
    return UInt8.ofNat (hi * 16 + lo) :: rest

/-- The two digits of a byte. -/
def byteDigits (b : UInt8) : List Char := [hexChar (b.toNat / 16), hexChar (b.toNat % 16)]

/-- `hex::encode`. -/
def hexEncode (bs : Bytes) : String := String.ofList (bs.flatMap byteDigits)

/-! ## 2. The dedupe key -/

/-- `format!("{provider}:{payload_hash}")`. -/
def dedupeKey (provider payloadHash : String) : String := provider ++ ":" ++ payloadHash

theorem hexChar_inj {m n : Nat} (hm : m < 16) (hn : n < 16) (h : hexChar m = hexChar n) :
    m = n := by
  have key : ∀ a b : Fin 16, hexChar a = hexChar b → a = b := by decide
  exact Fin.mk.inj_iff.mp (key ⟨m, hm⟩ ⟨n, hn⟩ h)

theorem hexChar_isAlphanum {n : Nat} (hn : n < 16) : (hexChar n).isAlphanum = true := by
  have key : ∀ a : Fin 16, (hexChar a).isAlphanum = true := by decide
  exact key ⟨n, hn⟩

theorem byteDigits_inj {a b : UInt8} (h : byteDigits a = byteDigits b) : a = b := by
  simp only [byteDigits, List.cons.injEq, and_true] at h
  have ha : a.toNat < 256 := a.toNat_lt
  have hb : b.toNat < 256 := b.toNat_lt
  have hhi := hexChar_inj (by omega) (by omega) h.1
  have hlo := hexChar_inj (by omega) (by omega) h.2
  exact UInt8.toNat_inj.mp (by omega)

theorem digits_inj {as bs : Bytes} (h : as.flatMap byteDigits = bs.flatMap byteDigits) :
    as = bs := by
  induction as generalizing bs with
  | nil =>
    cases bs with
    | nil => rfl
    | cons b bs => simp [byteDigits] at h
  | cons a as ih =>
    cases bs with
    | nil => simp [byteDigits] at h
    | cons b bs =>
      rw [List.flatMap_cons, List.flatMap_cons] at h
      obtain ⟨hhead, htail⟩ := List.append_inj h rfl
      rw [byteDigits_inj hhead, ih htail]

theorem isAlphanum_of_mem_digits {bs : Bytes} {c : Char} (h : c ∈ bs.flatMap byteDigits) :
    c.isAlphanum = true := by
  obtain ⟨b, -, hc⟩ := List.mem_flatMap.mp h
  have hb : b.toNat < 256 := b.toNat_lt
  simp only [byteDigits, List.mem_cons, List.not_mem_nil, or_false] at hc
  rcases hc with rfl | rfl
  · exact hexChar_isAlphanum (by omega)
  · exact hexChar_isAlphanum (by omega)

theorem colon_notMem_hexEncode (bs : Bytes) : ':' ∉ bs.flatMap byteDigits := by
  intro h
  exact absurd (isAlphanum_of_mem_digits h) (by decide)

/-- A list is determined by what it has before and after the last colon. -/
theorem append_colon_inj : ∀ {ps qs hs gs : List Char}, ':' ∉ hs → ':' ∉ gs →
    ps ++ ':' :: hs = qs ++ ':' :: gs → ps = qs ∧ hs = gs
  | [], [], hs, gs, _, _, h => by simpa using h
  | [], q :: qs, hs, gs, hh, _, h => by
    rw [List.nil_append, List.cons_append, List.cons.injEq] at h
    exact absurd (by rw [h.2]; simp) hh
  | p :: ps, [], hs, gs, _, hg, h => by
    rw [List.nil_append, List.cons_append, List.cons.injEq] at h
    exact absurd (by rw [← h.2]; simp) hg
  | p :: ps, q :: qs, hs, gs, hh, hg, h => by
    rw [List.cons_append, List.cons_append, List.cons.injEq] at h
    obtain ⟨hp, hr⟩ := append_colon_inj hh hg h.2
    exact ⟨by rw [h.1, hp], hr⟩

/-- **The dedupe key determines provider and digest**, because no hex digit is a colon. -/
theorem dedupeKey_injective {p q : String} {as bs : Bytes}
    (h : dedupeKey p (hexEncode as) = dedupeKey q (hexEncode bs)) : p = q ∧ as = bs := by
  have hl : p.toList ++ ':' :: as.flatMap byteDigits = q.toList ++ ':' :: bs.flatMap byteDigits := by
    have := congrArg String.toList h
    simpa [dedupeKey, hexEncode] using this
  obtain ⟨hp, hr⟩ := append_colon_inj (colon_notMem_hexEncode as) (colon_notMem_hexEncode bs) hl
  exact ⟨String.toList_injective hp, digits_inj hr⟩

end Hookbox
