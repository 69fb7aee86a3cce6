import Mathlib.Computability.RegularExpressions
import SchedulingService.Js.Value

/-!
# The shared validators

`CronUtil` and `TimezoneUtil`, as far as the scheduling requests use them, and
`@IsISO8601WithOffset()`: a cron expression is one the regular expression
`CRON_REGEX` matches, a time one that `ISO_8601_WITH_OFFSET` matches, a timezone
is one of a fixed list.

All are called on run-time values. A value that is not a string is matched
through its string form, and of those only a one-element array has the form of
its element; no other has five fields with single spaces between them.
-/

namespace SchedulingService.Common

open Js

/-! ## Cron expressions -/

/-- The character class `[first-last]`. -/
def charClass (first last : Char) : RegularExpression Char :=
  ((List.range' first.toNat (last.toNat + 1 - first.toNat)).map fun n =>
    RegularExpression.char (Char.ofNat n)).foldr (· + ·) 0

/-- `first` followed by one of the class, as in `1[0-9]`. -/
def tens (first : Char) (low high : Char) : RegularExpression Char :=
  RegularExpression.char first * charClass low high

/-- One field: `(\*|(value)|\*\/(value))`. -/
def cronField (value : RegularExpression Char) : RegularExpression Char :=
  RegularExpression.char '*' + value +
    RegularExpression.char '*' * RegularExpression.char '/' * value

def minuteValue : RegularExpression Char :=
  charClass '0' '9' + tens '1' '0' '9' + tens '2' '0' '9' + tens '3' '0' '9' +
    tens '4' '0' '9' + tens '5' '0' '9'

def hourValue : RegularExpression Char :=
  charClass '0' '9' + tens '1' '0' '9' + tens '2' '0' '3'

def dayOfMonthValue : RegularExpression Char :=
  charClass '1' '9' + tens '1' '0' '9' + tens '2' '0' '9' + tens '3' '0' '1'

def monthValue : RegularExpression Char :=
  charClass '1' '9' + tens '1' '0' '2'

def dayOfWeekValue : RegularExpression Char :=
  charClass '0' '6'

/-- `CRON_REGEX`, anchored at both ends. -/
def cronRegex : RegularExpression Char :=
  cronField minuteValue * RegularExpression.char ' ' *
    cronField hourValue * RegularExpression.char ' ' *
    cronField dayOfMonthValue * RegularExpression.char ' ' *
    cronField monthValue * RegularExpression.char ' ' *
    cronField dayOfWeekValue

/-- `CronUtil.isValidCronExpression` on a string: `validateCronExpression`
throws for the empty one and for one the expression does not match. -/
def isValidCronString (cronExpression : String) : Bool :=
  cronExpression ≠ "" && cronRegex.rmatch cronExpression.toList

/-- `CronUtil.isValidCronExpression`. -/
def isValidCronExpression : Value → Bool
  | .str s => isValidCronString s
  | .arr [v] => isValidCronExpression v
  | _ => false

example : isValidCronString "*/30 9 * 12 1" = true := by decide
example : isValidCronString "60 9 * * 1" = false := by decide

/-- The length of the longest word an expression without repetition matches. -/
def longest : RegularExpression Char → Nat
  | .zero => 0
  | .epsilon => 0
  | .char _ => 1
  | .plus P Q => max (longest P) (longest Q)
  | .comp P Q => longest P + longest Q
  | .star _ => 0

def repetitionFree : RegularExpression Char → Bool
  | .zero => true
  | .epsilon => true
  | .char _ => true
  | .plus P Q => repetitionFree P && repetitionFree Q
  | .comp P Q => repetitionFree P && repetitionFree Q
  | .star _ => false

theorem length_le_longest {r : RegularExpression Char} (hr : repetitionFree r) {x : List Char}
    (hx : x ∈ r.matches') : x.length ≤ longest r := by
  induction r generalizing x with
  | zero => exact absurd hx (Language.notMem_zero x)
  | epsilon =>
    obtain rfl : x = [] := Language.mem_one x |>.mp hx
    exact Nat.le_refl 0
  | char c =>
    obtain rfl : x = [c] := hx
    exact Nat.le_refl 1
  | plus P Q hP hQ =>
    rw [repetitionFree, Bool.and_eq_true] at hr
    rcases Language.mem_add _ _ x |>.mp hx with h | h
    · exact (hP hr.1 h).trans (Nat.le_max_left _ _)
    · exact (hQ hr.2 h).trans (Nat.le_max_right _ _)
  | comp P Q hP hQ =>
    rw [repetitionFree, Bool.and_eq_true] at hr
    obtain ⟨a, ha, b, hb, rfl⟩ := Language.mem_mul.mp hx
    rw [List.length_append]
    exact Nat.add_le_add (hP hr.1 ha) (hQ hr.2 hb)
  | star P _ => cases hr

/-- The words that an expression without repetition matches. -/
def words : RegularExpression Char → List (List Char)
  | .zero => []
  | .epsilon => [[]]
  | .char c => [[c]]
  | .plus P Q => words P ++ words Q
  | .comp P Q => (words P).flatMap fun x => (words Q).map (x ++ ·)
  | .star _ => []

theorem mem_words {r : RegularExpression Char} (hr : repetitionFree r = true) (x : List Char) :
    x ∈ r.matches' ↔ x ∈ words r := by
  induction r generalizing x with
  | zero => exact iff_of_false (Language.notMem_zero x) List.not_mem_nil
  | epsilon => exact (Language.mem_one x).trans List.mem_singleton.symm
  | char c => exact List.mem_singleton.symm
  | plus P Q hP hQ =>
    rw [repetitionFree, Bool.and_eq_true] at hr
    rw [words, List.mem_append, ← hP hr.1, ← hQ hr.2]
    exact Language.mem_add _ _ x
  | comp P Q hP hQ =>
    rw [repetitionFree, Bool.and_eq_true] at hr
    rw [words, List.mem_flatMap]
    refine Language.mem_mul.trans ⟨?_, ?_⟩
    · rintro ⟨a, ha, b, hb, rfl⟩
      exact ⟨a, (hP hr.1 a).mp ha, List.mem_map.mpr ⟨b, (hQ hr.2 b).mp hb, rfl⟩⟩
    · rintro ⟨a, ha, hx⟩
      obtain ⟨b, hb, rfl⟩ := List.mem_map.mp hx
      exact ⟨a, (hP hr.1 a).mpr ha, b, (hQ hr.2 b).mpr hb, rfl⟩
  | star P _ => cases hr

/-- An accepted cron expression fits its column. -/
theorem length_of_isValidCronString {s : String} (h : isValidCronString s = true) :
    s.length ≤ 100 := by
  have hfree : repetitionFree cronRegex = true := by decide
  have hlong : longest cronRegex ≤ 100 := by decide
  -- `rmatch` decides the language of the expression
  have hmatch : s.toList ∈ cronRegex.matches' := by
    rw [← RegularExpression.rmatch_iff_matches']
    rw [isValidCronString, Bool.and_eq_true] at h
    exact h.2
  have hlength := length_le_longest hfree hmatch
  rw [String.length_toList] at hlength
  exact hlength.trans hlong

/-! ## Times with an offset -/

/-- Two digits. -/
def twoDigits : RegularExpression Char := charClass '0' '9' * charClass '0' '9'

/-- `(?:\.\d{1,3})?`. -/
def milliseconds : RegularExpression Char :=
  1 + RegularExpression.char '.' * charClass '0' '9' * (1 + charClass '0' '9') *
    (1 + charClass '0' '9')

/-- `(?:Z|[+-]\d{2}:\d{2})`. -/
def offset : RegularExpression Char :=
  RegularExpression.char 'Z' +
    (RegularExpression.char '+' + RegularExpression.char '-') * twoDigits *
      RegularExpression.char ':' * twoDigits

/-- `ISO_8601_WITH_OFFSET`, anchored at both ends. -/
def iso8601WithOffset : RegularExpression Char :=
  twoDigits * twoDigits * RegularExpression.char '-' * twoDigits *
    RegularExpression.char '-' * twoDigits * RegularExpression.char 'T' *
    twoDigits * RegularExpression.char ':' * twoDigits *
    RegularExpression.char ':' * twoDigits * milliseconds * offset

/-- `@IsISO8601WithOffset()`: a string of that form that `new Date` reads. -/
def isISO8601WithOffset (newDate : String → Date) : Value → Bool
  | .str s => iso8601WithOffset.rmatch s.toList && newDate s ≠ .invalid
  | _ => false

/-! ## Timezones -/

/-- `VALID_TIMEZONES`. -/
def validTimezones : List String :=
  ["UTC", "Europe/Paris", "America/New_York", "America/Los_Angeles", "Asia/Tokyo",
    "Asia/Shanghai", "Australia/Sydney"]

/-- `TimezoneUtil.isValidTimezone`: `includes` finds only an equal string. -/
def isValidTimezone : Value → Bool
  | .str s => validTimezones.contains s
  | _ => false

end SchedulingService.Common
