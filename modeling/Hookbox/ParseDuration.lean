/-
# The window of `hookbox replay failed`

`parse_duration` (`hookbox-cli/src/commands/replay.rs`) and the line that uses it,
`Utc::now() - duration`.  The argument is a text that the user typed.

* `parseDuration_trimmed`: what the function does, by the last character of the trimmed text.
* `parse_duration_iff`: it parses totally and exactly, and the date stays in the calendar, exactly
  when the last character is one byte long and a well-formed argument is not too long a time.

Three steps panic instead of returning an error: `split_at` inside a character, the constructors of
`chrono::Duration` out of their range, and the subtraction out of the calendar.
-/
import Hookbox.Lib.Text
import Hookbox.RetrySafety
import Hookbox.Providers

namespace Hookbox

/-! ## 1. Durations and dates -/

/-- `chrono::Duration`, in nanoseconds: at most `i64::MAX` milliseconds either way. -/
@[ext]
structure TimeDelta where
  nanos : ℤ
  inRange : -((2 ^ 63 - 1) * 10 ^ 6) ≤ nanos ∧ nanos ≤ (2 ^ 63 - 1) * 10 ^ 6
deriving DecidableEq

/-- `i64::checked_mul`. -/
def checkedMul (a b : ℤ) : Option ℤ :=
  if -2 ^ 63 ≤ a * b ∧ a * b ≤ 2 ^ 63 - 1 then some (a * b) else none

namespace TimeDelta

/-- `TimeDelta::try_seconds`. -/
def trySeconds (n : ℤ) : Option TimeDelta :=
  if h : -((2 ^ 63 - 1) * 10 ^ 6) ≤ n * 10 ^ 9 ∧ n * 10 ^ 9 ≤ (2 ^ 63 - 1) * 10 ^ 6 then
    some ⟨n * 10 ^ 9, h⟩
  else none

/-- `TimeDelta::try_minutes`. -/
def tryMinutes (n : ℤ) : Option TimeDelta := (checkedMul n 60).bind trySeconds

/-- `TimeDelta::try_hours`. -/
def tryHours (n : ℤ) : Option TimeDelta := (checkedMul n 3600).bind trySeconds

/-- `TimeDelta::try_days`. -/
def tryDays (n : ℤ) : Option TimeDelta := (checkedMul n 86400).bind trySeconds

end TimeDelta

/-- The panics on the way from the argument to the date. -/
inductive DurationPanic where
  /-- `str::split_at`. -/
  | notCharBoundary (index : ℕ)
  /-- `TimeDelta::seconds` and the like: `TimeDelta::seconds out of bounds`. -/
  | outOfBounds (unit : String)
  /-- `DateTime - TimeDelta`. -/
  | dateTimeOverflow
deriving DecidableEq

/-- `DateTime - TimeDelta`. -/
def subDelta (utcNow : ℤ) (delta : TimeDelta) : Except DurationPanic ℤ :=
  if minUtc ≤ utcNow - delta.nanos ∧ utcNow - delta.nanos ≤ maxUtc then .ok (utcNow - delta.nanos)
  else .error .dateTimeOverflow

/-! ## 2. The function -/

/-- `char::is_whitespace`. -/
def isWhitespace (c : Char) : Bool :=
  (9 ≤ c.toNat && c.toNat ≤ 13) || c.toNat == 32 || c.toNat == 0x85 || c.toNat == 0xA0 ||
    c.toNat == 0x1680 || (0x2000 ≤ c.toNat && c.toNat ≤ 0x200A) || c.toNat == 0x2028 ||
    c.toNat == 0x2029 || c.toNat == 0x202F || c.toNat == 0x205F || c.toNat == 0x3000

/-- `str::trim`. -/
def trim (s : String) : List Char := Text.trim isWhitespace s.toList

/-- `ParseIntError::to_string`. -/
def parseIntErrorText : Text.IntErrorKind → String
  | .empty => "cannot parse integer from empty string"
  | .invalidDigit => "invalid digit found in string"
  | .posOverflow => "number too large to fit in target type"
  | .negOverflow => "number too small to fit in target type"

/-- `str::parse::<i64>`. -/
def parseI64 (cs : List Char) : Except Text.IntErrorKind ℤ :=
  Text.readInt (-2 ^ 63) (2 ^ 63 - 1) cs

/-- A constructor of `chrono` that panics where its `try_` form returns nothing. -/
def orPanic (unit : String) : Option TimeDelta → Except DurationPanic (Except AnyhowError TimeDelta)
  | some d => .ok (.ok d)
  | none => .error (.outOfBounds unit)

/-- `parse_duration`: it panics, or returns a `Result`.  `debug` is `{:?}` of a string. -/
def parseDuration (debug : String → String) (s : String) :
    Except DurationPanic (Except AnyhowError TimeDelta) :=
  let cs := trim s
  if cs.isEmpty then .ok (.error ["duration string must not be empty"])
  else
    match Text.splitAt (Text.byteLen cs - 1) cs with
    | none => .error (.notCharBoundary (Text.byteLen cs - 1))
    | some (numStr, unit) =>
      match parseI64 numStr with
      | .error e =>
        .ok (.error ["invalid duration number: " ++ debug (String.ofList numStr),
          parseIntErrorText e])
      | .ok n =>
        match unit with
        | ['s'] => orPanic "seconds" (TimeDelta.trySeconds n)
        | ['m'] => orPanic "minutes" (TimeDelta.tryMinutes n)
        | ['h'] => orPanic "hours" (TimeDelta.tryHours n)
        | ['d'] => orPanic "days" (TimeDelta.tryDays n)
        | _ =>
          .ok (.error ["unknown duration unit " ++ debug (String.ofList unit) ++
            " — expected s, m, h, or d"])

/-- `since_dt` of `ReplayCommand::Failed`, with the current date in nanoseconds since the epoch. -/
def sinceDt (debug : String → String) (since : String) (utcNow : ℤ) :
    Except DurationPanic (Except AnyhowError ℤ) :=
  match parseDuration debug since with
  | .error panic => .error panic
  | .ok (.error e) => .ok (.error e)
  | .ok (.ok duration) =>
    match subDelta utcNow duration with
    | .error panic => .error panic
    | .ok sinceDt => .ok (.ok sinceDt)

/-! ## 3. What an argument means -/

/-- The seconds of a unit. -/
def unitSecs : Char → Option ℤ
  | 's' => some 1
  | 'm' => some 60
  | 'h' => some 3600
  | 'd' => some 86400
  | _ => none

/-- The name of its constructor. -/
def unitName : Char → String
  | 's' => "seconds"
  | 'm' => "minutes"
  | 'h' => "hours"
  | _ => "days"

/-- The argument, without whitespace around it, is an `i64` literal and a unit, and denotes this many
seconds. -/
def Denotes (s : String) (secs : ℤ) : Prop :=
  ∃ pre literal unit post n k, s.toList = pre ++ (literal ++ [unit]) ++ post ∧
    (∀ c ∈ pre, isWhitespace c = true) ∧ (∀ c ∈ post, isWhitespace c = true) ∧
    Text.Numeral literal n ∧ -2 ^ 63 ≤ n ∧ n ≤ 2 ^ 63 - 1 ∧ unitSecs unit = some k ∧ secs = n * k

theorem unitSecs_eq_some_iff {c : Char} {k : ℤ} : unitSecs c = some k ↔
    (c = 's' ∧ k = 1) ∨ (c = 'm' ∧ k = 60) ∨ (c = 'h' ∧ k = 3600) ∨ (c = 'd' ∧ k = 86400) := by
  unfold unitSecs
  split <;> simp_all [eq_comm]

/-- A unit is one byte long and not whitespace. -/
theorem unit_ascii {c : Char} {k : ℤ} (h : unitSecs c = some k) :
    c.utf8Size = 1 ∧ isWhitespace c = false ∧ 1 ≤ k ∧ k ≤ 86400 := by
  rcases unitSecs_eq_some_iff.mp h with ⟨rfl, rfl⟩ | ⟨rfl, rfl⟩ | ⟨rfl, rfl⟩ | ⟨rfl, rfl⟩ <;> decide

theorem isWhitespace_of_isDigit {c : Char} (h : c.isDigit = true) : isWhitespace c = false := by
  have hrange : 48 ≤ c.toNat ∧ c.toNat ≤ 57 := Char.isDigit_iff_toNat.mp h
  simp only [isWhitespace, Bool.or_eq_false_iff, Bool.and_eq_false_iff, decide_eq_false_iff_not,
    beq_eq_false_iff_ne]
  omega

/-- A numeral starts with a digit or a sign. -/
theorem numeral_head {literal : List Char} {n : ℤ} (h : Text.Numeral literal n) :
    ∃ c cs, literal = c :: cs ∧ isWhitespace c = false := by
  cases h with
  | plain hne hds =>
    cases literal with
    | nil => exact absurd rfl hne
    | cons c cs => exact ⟨c, cs, rfl, isWhitespace_of_isDigit (hds c List.mem_cons_self)⟩
  | @plus ds _ _ => exact ⟨'+', ds, rfl, by decide⟩
  | @minus ds _ _ => exact ⟨'-', ds, rfl, by decide⟩

theorem parseI64_eq_ok_iff {cs : List Char} {n : ℤ} :
    parseI64 cs = .ok n ↔ Text.Numeral cs n ∧ -2 ^ 63 ≤ n ∧ n ≤ 2 ^ 63 - 1 :=
  Text.readInt_eq_ok_iff (by decide) (by decide)

/-- The meaning, read off the trimmed text as the code reads it. -/
theorem denotes_iff {s : String} {secs : ℤ} : Denotes s secs ↔
    ∃ literal unit n k, trim s = literal ++ [unit] ∧ parseI64 literal = .ok n ∧
      unitSecs unit = some k ∧ secs = n * k := by
  constructor
  · rintro ⟨pre, literal, unit, post, n, k, hs, hpre, hpost, hnum, hlo, hhi, hunit, hsecs⟩
    refine ⟨literal, unit, n, k, ?_, parseI64_eq_ok_iff.mpr ⟨hnum, hlo, hhi⟩, hunit, hsecs⟩
    rw [trim, hs]
    refine Text.trim_append hpre hpost ?_ ?_
    · obtain ⟨c, cs, rfl, hc⟩ := numeral_head hnum
      rintro c' hc'
      obtain rfl := Option.some.inj hc'
      exact hc
    · rintro c hc
      rw [List.getLast?_concat, Option.mem_some] at hc
      rw [← hc]
      exact (unit_ascii hunit).2.1
  · rintro ⟨literal, unit, n, k, htrim, hread, hunit, hsecs⟩
    obtain ⟨hnum, hlo, hhi⟩ := parseI64_eq_ok_iff.mp hread
    obtain ⟨pre, post, hs, hpre, hpost⟩ := Text.exists_trim isWhitespace s.toList
    rw [← trim, htrim] at hs
    exact ⟨pre, literal, unit, post, n, k, hs, hpre, hpost, hnum, hlo, hhi, hunit, hsecs⟩

/-! ## 4. What the function does -/

/-- A product that leaves `i64` is out of the range of a duration as well, so the checked
multiplications add nothing. -/
theorem checkedMul_bind_trySeconds (n k : ℤ) :
    (checkedMul n k).bind TimeDelta.trySeconds = TimeDelta.trySeconds (n * k) := by
  unfold checkedMul
  split
  · rfl
  · rename_i hout
    have hrange : ¬ (-((2 ^ 63 - 1) * 10 ^ 6) ≤ n * k * 10 ^ 9 ∧
        n * k * 10 ^ 9 ≤ (2 ^ 63 - 1) * 10 ^ 6) := by omega
    rw [TimeDelta.trySeconds, dif_neg hrange]
    rfl

section Cases

variable {debug : String → String} {s : String} {literal : List Char} {unit : Char}

/-- **The last character decides**: a longer one panics, and of the others one byte is cut off. -/
theorem parseDuration_trimmed (h : trim s = literal ++ [unit]) : parseDuration debug s =
    if unit.utf8Size = 1 then
      match parseI64 literal with
      | .error e =>
        .ok (.error ["invalid duration number: " ++ debug (String.ofList literal),
          parseIntErrorText e])
      | .ok n =>
        match unitSecs unit with
        | some k => orPanic (unitName unit) (TimeDelta.trySeconds (n * k))
        | none =>
          .ok (.error ["unknown duration unit " ++ debug (String.ofList [unit]) ++
            " — expected s, m, h, or d"])
    else .error (.notCharBoundary (Text.byteLen (literal ++ [unit]) - 1)) := by
  have hne : (literal ++ [unit]).isEmpty = false := by simp
  simp only [parseDuration, h, hne, Bool.false_eq_true, if_false, Text.splitAt_pred]
  by_cases hone : unit.utf8Size = 1
  · rw [if_pos hone, if_pos hone]
    cases hread : parseI64 literal with
    | error e => simp only [hread]
    | ok n =>
      simp only [hread, TimeDelta.tryMinutes, TimeDelta.tryHours, TimeDelta.tryDays,
        checkedMul_bind_trySeconds]
      cases hunit : unitSecs unit with
      | some k =>
        rcases unitSecs_eq_some_iff.mp hunit with ⟨rfl, rfl⟩ | ⟨rfl, rfl⟩ | ⟨rfl, rfl⟩ | ⟨rfl, rfl⟩
        · exact congrArg (orPanic "seconds" <| TimeDelta.trySeconds ·) (mul_one n).symm
        · rfl
        · rfl
        · rfl
      | none =>
        -- The last branch is left: the others take a unit.
        have hnot : ∀ {c k}, unitSecs c = some k → [unit] ≠ [c] := fun hc heq => by
          rw [List.cons.inj heq |>.1, hc] at hunit
          exact absurd hunit (by simp)
        split
        · exact absurd ‹_› (hnot (rfl : unitSecs 's' = _))
        · exact absurd ‹_› (hnot (rfl : unitSecs 'm' = _))
        · exact absurd ‹_› (hnot (rfl : unitSecs 'h' = _))
        · exact absurd ‹_› (hnot (rfl : unitSecs 'd' = _))
        · rfl
  · rw [if_neg hone, if_neg hone]

theorem parseDuration_blank (h : trim s = []) :
    parseDuration debug s = .ok (.error ["duration string must not be empty"]) := by
  simp [parseDuration, h]

/-- A text is blank or has a last character. -/
theorem trim_cases (s : String) : trim s = [] ∨ ∃ literal unit, trim s = literal ++ [unit] := by
  rcases List.eq_nil_or_concat (trim s) with h | ⟨literal, unit, h⟩
  · exact Or.inl h
  · exact Or.inr ⟨literal, unit, by rw [h, List.concat_eq_append]⟩

/-- On a well-formed argument only the range of a duration is left to check. -/
theorem Denotes.parseDuration_eq {secs : ℤ} (h : Denotes s secs) :
    ∃ unit, parseDuration debug s = orPanic unit (TimeDelta.trySeconds secs) := by
  obtain ⟨literal, unit, n, k, htrim, hread, hunit, rfl⟩ := denotes_iff.mp h
  refine ⟨unitName unit, ?_⟩
  rw [parseDuration_trimmed htrim, if_pos (unit_ascii hunit).1, hread]
  simp only [hunit]

/-- **A duration is returned exactly for a well-formed argument**, and it is the time denoted. -/
theorem parseDuration_ok_iff {d : TimeDelta} : parseDuration debug s = .ok (.ok d) ↔
    ∃ secs, Denotes s secs ∧ d.nanos = secs * 10 ^ 9 := by
  constructor
  · intro h
    rcases trim_cases s with hblank | ⟨literal, unit, htrim⟩
    · rw [parseDuration_blank hblank] at h
      exact absurd h (by simp)
    · rw [parseDuration_trimmed htrim] at h
      split at h
      · cases hread : parseI64 literal with
        | error e =>
          rw [hread] at h
          exact absurd h (by simp)
        | ok n =>
          rw [hread] at h
          cases hunit : unitSecs unit with
          | none =>
            rw [hunit] at h
            exact absurd h (by simp)
          | some k =>
            refine ⟨n * k, denotes_iff.mpr ⟨literal, unit, n, k, htrim, hread, hunit, rfl⟩, ?_⟩
            simp only [hunit, TimeDelta.trySeconds] at h
            split at h
            · obtain rfl := Except.ok.inj (Except.ok.inj h)
              rfl
            · exact absurd h (by simp [orPanic])
      · exact absurd h (by simp)
  · rintro ⟨secs, hdenotes, hnanos⟩
    obtain ⟨unit, heq⟩ : ∃ unit, parseDuration debug s = orPanic unit (TimeDelta.trySeconds secs) :=
      hdenotes.parseDuration_eq
    have hrange := d.inRange
    rw [hnanos] at hrange
    rw [heq, TimeDelta.trySeconds, dif_pos hrange]
    exact congrArg (fun d => Except.ok (Except.ok d)) (TimeDelta.ext hnanos.symm)

/-- **Nothing panics** in the function exactly when the last character is one byte long and the time
denoted is in the range of a duration. -/
theorem parseDuration_total_iff : (∃ r, parseDuration debug s = .ok r) ↔
    (∀ c ∈ (trim s).getLast?, c.utf8Size = 1) ∧
      ∀ secs, Denotes s secs →
        -((2 ^ 63 - 1) * 10 ^ 6) ≤ secs * 10 ^ 9 ∧ secs * 10 ^ 9 ≤ (2 ^ 63 - 1) * 10 ^ 6 := by
  constructor
  · rintro ⟨r, hr⟩
    constructor
    · rcases trim_cases s with hblank | ⟨literal, unit, htrim⟩
      · simp [hblank]
      · rw [htrim, List.getLast?_concat]
        rintro c hc
        obtain rfl := Option.some.inj hc
        by_contra hone
        rw [parseDuration_trimmed htrim, if_neg hone] at hr
        exact absurd hr (by simp)
    · intro secs hdenotes
      obtain ⟨unit, heq⟩ : ∃ unit,
          parseDuration debug s = orPanic unit (TimeDelta.trySeconds secs) :=
        hdenotes.parseDuration_eq
      by_contra hout
      rw [heq, TimeDelta.trySeconds, dif_neg hout] at hr
      exact absurd hr (by simp [orPanic])
  · rintro ⟨hlast, hrange⟩
    rcases trim_cases s with hblank | ⟨literal, unit, htrim⟩
    · exact ⟨_, parseDuration_blank hblank⟩
    · have hone : unit.utf8Size = 1 := hlast unit (by rw [htrim, List.getLast?_concat]; rfl)
      rw [parseDuration_trimmed htrim, if_pos hone]
      cases hread : parseI64 literal with
      | error e => exact ⟨_, rfl⟩
      | ok n =>
        cases hunit : unitSecs unit with
        | none => exact ⟨_, rfl⟩
        | some k =>
          have hdenotes : Denotes s (n * k) :=
            denotes_iff.mpr ⟨literal, unit, n, k, htrim, hread, hunit, rfl⟩
          simp only [TimeDelta.trySeconds, dif_pos (hrange _ hdenotes)]
          exact ⟨_, rfl⟩

end Cases

/-! ## 5. The date -/

/-- The seconds from the first instant of the calendar to the epoch; `Utc::now()` panics on a clock
before the epoch, so no current date is nearer to that end. -/
def secsBeforeEpoch : ℤ := 8334601228800

/-- **The subtraction stays in the calendar**, for every current date before the year 10000. -/
theorem subDelta_fits_iff {d : TimeDelta} :
    (∀ utcNow, 0 ≤ utcNow → utcNow < year10000 → ∃ t, subDelta utcNow d = .ok t) ↔
      -(calendarSecs * 10 ^ 9) ≤ d.nanos ∧ d.nanos ≤ secsBeforeEpoch * 10 ^ 9 := by
  have hfits : ∀ utcNow, (∃ t, subDelta utcNow d = .ok t) ↔
      minUtc ≤ utcNow - d.nanos ∧ utcNow - d.nanos ≤ maxUtc := fun utcNow => by
    unfold subDelta
    split
    · rename_i h
      exact iff_of_true ⟨_, rfl⟩ h
    · rename_i h
      exact iff_of_false (by simp) h
  simp only [hfits]
  unfold minUtc maxUtc year10000 calendarSecs secsBeforeEpoch
  constructor
  · intro h
    have hfirst := h 0 (by omega) (by omega)
    have hlast := h (253402300800 * 10 ^ 9 - 1) (by omega) (by omega)
    omega
  · intro h utcNow hnow hyear
    omega

/-- What the claims about `--since` come to, for one argument. -/
structure DurationExact (debug : String → String) (s : String) : Prop where
  /-- No panic in the function. -/
  total : ∃ r, parseDuration debug s = .ok r
  /-- The argument is well formed and in range, and the duration is what it denotes. -/
  exact : ∀ d, parseDuration debug s = .ok (.ok d) ↔ ∃ secs, Denotes s secs ∧
    d.nanos = secs * 10 ^ 9
  /-- No panic in `Utc::now() - duration`. -/
  dates : (∃ d, parseDuration debug s = .ok (.ok d)) → ∀ utcNow, 0 ≤ utcNow → utcNow < year10000 →
    ∃ t, sinceDt debug s utcNow = .ok (.ok t)

/-- The last character is one byte long, and a well-formed argument denotes a time that every current
date can be moved by. -/
structure SafeDuration (s : String) : Prop where
  lastByte : ∀ c ∈ (trim s).getLast?, c.utf8Size = 1
  notTooLong : ∀ secs, Denotes s secs → -calendarSecs ≤ secs ∧ secs ≤ secsBeforeEpoch

theorem sinceDt_ok {debug : String → String} {s : String} {d : TimeDelta}
    (h : parseDuration debug s = .ok (.ok d)) (utcNow : ℤ) :
    (∃ t, sinceDt debug s utcNow = .ok (.ok t)) ↔ ∃ t, subDelta utcNow d = .ok t := by
  unfold sinceDt
  rw [h]
  simp only []
  cases hsub : subDelta utcNow d with
  | error panic => simp
  | ok t => simp

/-- **`parse_duration` is total and exact, and the date that follows is in the calendar, exactly for
the safe arguments.** -/
theorem parse_duration_iff (debug : String → String) (s : String) :
    DurationExact debug s ↔ SafeDuration s := by
  constructor
  · intro h
    obtain ⟨hlast, hrange⟩ := parseDuration_total_iff.mp h.total
    refine ⟨hlast, fun secs hdenotes => ?_⟩
    have hok : parseDuration debug s = .ok (.ok ⟨secs * 10 ^ 9, hrange secs hdenotes⟩) :=
      (h.exact _).mpr ⟨secs, hdenotes, rfl⟩
    have hfits := subDelta_fits_iff.mp fun utcNow hnow hyear =>
      (sinceDt_ok hok utcNow).mp (h.dates ⟨_, hok⟩ utcNow hnow hyear)
    simp only at hfits
    omega
  · intro h
    have hrange : ∀ secs, Denotes s secs →
        -((2 ^ 63 - 1) * 10 ^ 6) ≤ secs * 10 ^ 9 ∧ secs * 10 ^ 9 ≤ (2 ^ 63 - 1) * 10 ^ 6 :=
      fun secs hdenotes => by
        have hlong := h.notTooLong secs hdenotes
        unfold calendarSecs secsBeforeEpoch at hlong
        omega
    refine ⟨parseDuration_total_iff.mpr ⟨h.lastByte, hrange⟩, fun d => parseDuration_ok_iff, ?_⟩
    rintro ⟨d, hd⟩ utcNow hnow hyear
    obtain ⟨secs, hdenotes, hnanos⟩ := parseDuration_ok_iff.mp hd
    have hlong := h.notTooLong secs hdenotes
    have hfits : -(calendarSecs * 10 ^ 9) ≤ d.nanos ∧ d.nanos ≤ secsBeforeEpoch * 10 ^ 9 := by
      omega
    exact (sinceDt_ok hd utcNow).mpr (subDelta_fits_iff.mpr hfits utcNow hnow hyear)

example : parseDuration id " -90m" = .ok (.ok ⟨-5400 * 10 ^ 9, by decide⟩) := by decide +kernel

/-- `{:?}` of a text with nothing to escape in it. -/
def quoted (s : String) : String := "\"" ++ s ++ "\""

/-- **Three arguments that panic**: one that ends in a character of two bytes, one too long for a
duration, and one too long for the calendar. -/
theorem parse_duration_panics :
    parseDuration quoted "5µ" = .error (.notCharBoundary 2) ∧
      parseDuration quoted "9223372036854775807s" = .error (.outOfBounds "seconds") ∧
      sinceDt quoted "100000000000d" 0 = .error .dateTimeOverflow ∧
      ¬ DurationExact quoted "5µ" := by
  have hlast : parseDuration quoted "5µ" = .error (.notCharBoundary 2) := by decide +kernel
  refine ⟨hlast, by decide +kernel, by decide +kernel, fun h => ?_⟩
  obtain ⟨r, hr⟩ := h.total
  rw [hlast] at hr
  exact absurd hr (by simp)

end Hookbox
