import Mathlib.Order.Basic

/-!
# The calendar

Days and milliseconds since 1970 against years, months, days and times of day, in
the Gregorian calendar continued both ways without end.

Main result: `civil_instant_iff` — a clock shows a date and a time of day at their
instant exactly if they are real.
-/

namespace SchedulingService.Lib.Calendar

def isLeap (year : Int) : Bool :=
  year % 4 = 0 && (year % 100 ≠ 0 || year % 400 = 0)

/-! ## Months -/

/-- The days of the months before `month`, counted from 1. -/
def daysBefore (leap : Bool) : Nat → Nat
  | 0 => 0
  | 1 => 0
  | 2 => 31
  | n + 3 => [59, 90, 120, 151, 181, 212, 243, 273, 304, 334, 365].getD n 365 + leap.toNat

def daysInMonth (leap : Bool) (month : Nat) : Nat :=
  daysBefore leap (month + 1) - daysBefore leap month

/-- The month that the `n`-th day of the year, counted from 0, belongs to. -/
def monthOf (leap : Bool) (n : Nat) : Nat :=
  (List.range' 1 12).countP fun month => daysBefore leap month ≤ n

example : daysInMonth true 2 = 29 ∧ daysInMonth false 12 = 31 := by decide

/-- A day of a month is found in that month. -/
theorem monthOf_daysBefore {leap : Bool} {month day : Nat} (hmonth : 1 ≤ month ∧ month ≤ 12)
    (hday : day < daysInMonth leap month) : monthOf leap (daysBefore leap month + day) = month := by
  have hall : ∀ leap, ∀ month < 13, 1 ≤ month → ∀ day < daysInMonth leap month,
      monthOf leap (daysBefore leap month + day) = month := by decide +kernel
  exact hall leap month (by omega) hmonth.1 day hday

/-- Every day of a year belongs to a month. -/
theorem monthOf_spec (leap : Bool) (n : Nat) (h : n < 365 + leap.toNat) :
    1 ≤ monthOf leap n ∧ monthOf leap n ≤ 12 ∧ daysBefore leap (monthOf leap n) ≤ n ∧
      n - daysBefore leap (monthOf leap n) < daysInMonth leap (monthOf leap n) := by
  have hall : ∀ leap : Bool, ∀ n < 365 + leap.toNat,
      1 ≤ monthOf leap n ∧ monthOf leap n ≤ 12 ∧ daysBefore leap (monthOf leap n) ≤ n ∧
        n - daysBefore leap (monthOf leap n) < daysInMonth leap (monthOf leap n) := by
    decide +kernel
  exact hall leap n h

/-! ## Years -/

/-- The number of the first day of a year. -/
def dayFromYear (year : Int) : Int :=
  365 * (year - 1970) + (year - 1969) / 4 - (year - 1901) / 100 + (year - 1601) / 400

theorem toNat_isLeap (year : Int) :
    (isLeap year).toNat = if year % 4 = 0 ∧ (year % 100 ≠ 0 ∨ year % 400 = 0) then 1 else 0 := by
  unfold isLeap
  split <;> simp_all

theorem dayFromYear_succ (year : Int) :
    dayFromYear (year + 1) = dayFromYear year + 365 + (isLeap year).toNat := by
  rw [toNat_isLeap, dayFromYear, dayFromYear]
  split <;> omega

/-- The year of a day: near the mean, and there the last that has begun. -/
def yearOf (n : Int) : Int :=
  let near := n * 400 / 146097 + 1970
  if dayFromYear (near + 1) ≤ n then near + 1
  else if dayFromYear near ≤ n then near else near - 1

theorem yearOf_spec (n : Int) : dayFromYear (yearOf n) ≤ n ∧ n < dayFromYear (yearOf n + 1) := by
  have hlow : dayFromYear (n * 400 / 146097 + 1970 - 1) ≤ n := by
    rw [dayFromYear]
    omega
  have hhigh : n < dayFromYear (n * 400 / 146097 + 1970 + 1 + 1) := by
    rw [dayFromYear]
    omega
  rw [yearOf]
  split
  · exact ⟨by assumption, hhigh⟩
  · split
    · exact ⟨by assumption, by omega⟩
    · rw [Int.sub_add_cancel]
      exact ⟨hlow, by omega⟩

theorem dayFromYear_mono {y y' : Int} (h : y ≤ y') : dayFromYear y ≤ dayFromYear y' := by
  rw [dayFromYear, dayFromYear]
  omega

/-- The days of a year are those from its first to the next year's. -/
theorem yearOf_eq {n y : Int} (hlow : dayFromYear y ≤ n) (hhigh : n < dayFromYear (y + 1)) :
    yearOf n = y := by
  obtain ⟨hlow', hhigh'⟩ := yearOf_spec n
  by_contra hne
  rcases Int.lt_or_gt_of_ne hne with hlt | hgt
  · have hle := dayFromYear_mono (show yearOf n + 1 ≤ y by omega)
    omega
  · have hle := dayFromYear_mono (show y + 1 ≤ yearOf n by omega)
    omega

/-! ## Days -/

structure Day where
  year : Int
  month : Nat
  day : Nat
  deriving DecidableEq

/-- A day of the calendar. -/
structure Day.Real (d : Day) : Prop where
  inYear : 1 ≤ d.month ∧ d.month ≤ 12
  inMonth : 1 ≤ d.day ∧ d.day ≤ daysInMonth (isLeap d.year) d.month

/-- The number of a day. A day past the end of its month is one of the next. -/
def Day.number (d : Day) : Int :=
  dayFromYear d.year + daysBefore (isLeap d.year) d.month + d.day - 1

/-- The day with a number. -/
def dayOf (n : Int) : Day :=
  let year := yearOf n
  let k := (n - dayFromYear year).toNat
  let month := monthOf (isLeap year) k
  ⟨year, month, k - daysBefore (isLeap year) month + 1⟩

theorem dayOf_number {d : Day} (h : d.Real) : dayOf d.number = d := by
  obtain ⟨year, month, day⟩ := d
  obtain ⟨hmonth, hday⟩ := h
  dsimp only at hmonth hday
  have hend : daysBefore (isLeap year) month + daysInMonth (isLeap year) month ≤
      365 + (isLeap year).toNat := by
    have hall : ∀ leap : Bool, ∀ month < 13,
        daysBefore leap month + daysInMonth leap month ≤ 365 + leap.toNat := by decide
    exact hall _ month (by omega)
  have hnext := dayFromYear_succ year
  have hnumber : (Day.mk year month day).number =
      dayFromYear year + (daysBefore (isLeap year) month + (day - 1) : Nat) := by
    rw [Day.number]
    dsimp only
    omega
  have hyear : yearOf (Day.mk year month day).number = year :=
    yearOf_eq (by omega) (by omega)
  have hk : ((Day.mk year month day).number - dayFromYear year).toNat =
      daysBefore (isLeap year) month + (day - 1) := by
    omega
  have hfound : monthOf (isLeap year) (daysBefore (isLeap year) month + (day - 1)) = month :=
    monthOf_daysBefore hmonth (by omega)
  simp only [dayOf, hyear, hk, hfound, Day.mk.injEq, true_and]
  omega

theorem real_dayOf (n : Int) : (dayOf n).Real := by
  obtain ⟨hlow, hhigh⟩ := yearOf_spec n
  have hnext := dayFromYear_succ (yearOf n)
  obtain ⟨hfirst, hlast, hbegun, hday⟩ :=
    monthOf_spec (isLeap (yearOf n)) (n - dayFromYear (yearOf n)).toNat (by omega)
  exact ⟨⟨hfirst, hlast⟩, Nat.succ_pos _, hday⟩

/-! ## Times -/

/-- The milliseconds of a day. -/
def msPerDay : Int := 86400000

structure DateTime extends Day where
  hour : Nat
  minute : Nat
  second : Nat
  millisecond : Nat
  deriving DecidableEq

/-- A time of a day of the calendar. -/
structure DateTime.Real (c : DateTime) : Prop where
  day : c.toDay.Real
  hour : c.hour ≤ 23
  minute : c.minute ≤ 59
  second : c.second ≤ 59
  millisecond : c.millisecond ≤ 999

/-- Milliseconds since the beginning of 1970, UTC. What is too much of one field is
carried into the next. -/
def DateTime.instant (c : DateTime) : Int :=
  c.number * msPerDay + (((c.hour * 60 + c.minute) * 60 + c.second) * 1000 + c.millisecond : Nat)

/-- What a clock in UTC shows. -/
def civil (t : Int) : DateTime :=
  let ms := (t % msPerDay).toNat
  { toDay := dayOf (t / msPerDay)
    hour := ms / 3600000
    minute := ms / 60000 % 60
    second := ms / 1000 % 60
    millisecond := ms % 1000 }

/-- A real time is what the clock shows at its instant. -/
theorem civil_instant {c : DateTime} (h : c.Real) : civil c.instant = c := by
  obtain ⟨day, hour, minute, second, millisecond⟩ := c
  obtain ⟨hday, hhour, hminute, hsecond, hms⟩ := h
  dsimp only at hday hhour hminute hsecond hms
  have hnumber : (DateTime.mk day hour minute second millisecond).instant / msPerDay =
      day.number := by
    simp only [DateTime.instant, msPerDay]
    omega
  have htime : ((DateTime.mk day hour minute second millisecond).instant % msPerDay).toNat =
      ((hour * 60 + minute) * 60 + second) * 1000 + millisecond := by
    simp only [DateTime.instant, msPerDay]
    omega
  simp only [civil, hnumber, htime, dayOf_number hday, DateTime.mk.injEq, true_and]
  omega

theorem real_civil (t : Int) : (civil t).Real where
  day := real_dayOf _
  hour := by
    simp only [civil, msPerDay]
    omega
  minute := by
    simp only [civil]
    omega
  second := by
    simp only [civil]
    omega
  millisecond := by
    simp only [civil]
    omega

/-- **The clock shows** a date and time of day at their instant exactly if they are
real. -/
theorem civil_instant_iff {c : DateTime} : civil c.instant = c ↔ c.Real := by
  constructor
  · intro h
    rw [← h]
    exact real_civil c.instant
  · exact civil_instant

example : civil 0 = ⟨⟨1970, 1, 1⟩, 0, 0, 0, 0⟩ := by decide
example : civil 951782400000 = ⟨⟨2000, 2, 29⟩, 0, 0, 0, 0⟩ := by decide

end SchedulingService.Lib.Calendar
