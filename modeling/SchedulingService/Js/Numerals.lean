import SchedulingService.Lib.Numerals

/-!
# Numbers read from digits

`parseInt` on a text that a regular expression or a URL has already found to be
digits. The result is a double: of the number that the digits spell it keeps 53
bits, and past the largest double it is Infinity.
-/

namespace SchedulingService.Js

open Lib.Numerals

/-- The integers below are doubles, each with a text of its own. -/
def safe : Nat := Nat.pow 2 53

/-- Where Infinity begins. -/
def infinity : Nat := Nat.pow 2 1024

/-- `parseInt(digits, 10)` of one digit or more; `none` is Infinity. -/
def parseInt (digits : List Char) : Option Nat :=
  let n := nearest 53 (value digits)
  if n < infinity then some n else none

theorem nearest_of_lt_safe {n : Nat} (h : n < safe) : nearest 53 n = n :=
  nearest_of_lt (by decide) h

theorem parseInt_of_lt_safe {digits : List Char} (h : value digits < safe) :
    parseInt digits = some (value digits) := by
  have hfinite : safe ≤ infinity := by decide +kernel
  rw [parseInt, nearest_of_lt_safe h, if_pos (Nat.lt_of_lt_of_le h hfinite)]

theorem parseInt_eq_some {digits : List Char} {n : Nat} (h : parseInt digits = some n) :
    nearest 53 (value digits) = n := by
  rw [parseInt] at h
  split at h
  · exact Option.some.inj h
  · cases h

/-- A result that is safe is what the digits spell. -/
theorem value_of_parseInt_lt_safe {digits : List Char} {n : Nat} (h : parseInt digits = some n)
    (hn : n < safe) : value digits = n := by
  have hnearest := parseInt_eq_some h
  exact (eq_of_nearest_lt (by decide) (hnearest ▸ hn)).trans hnearest

/-- The text of a safe number is read back. -/
theorem parseInt_toDigits {n : Nat} (h : n < safe) : parseInt (Nat.toDigits 10 n) = some n := by
  have hvalue := value_toDigits n
  rw [parseInt_of_lt_safe (by rw [hvalue]; exact h), hvalue]

end SchedulingService.Js
