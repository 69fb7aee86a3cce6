import SchedulingService.Common.Validation
import SchedulingService.Lib.Calendar
import SchedulingService.Lib.Numerals

/-!
# Times with an offset

What `ISO_8601_WITH_OFFSET` matches, group by group, and what V8 makes of it. The
expression is about digits alone. V8 checks each field for itself: it takes every
day up to the 31st of every month, and 24:00:00.

Main results:

* `exists_spelling` — an accepted text is the text of its groups;
* `read_eq_ms` — the instant of a text that V8 reads;
* `shown_iff` — when a clock shows what the text spells.
-/

namespace SchedulingService.Common

open Js Lib.Numerals Lib.Calendar

/-- The groups of digits of a time. -/
structure Spelling where
  year : List Char
  month : List Char
  day : List Char
  hour : List Char
  minute : List Char
  second : List Char
  /-- What follows the point; empty without one. -/
  fraction : List Char
  /-- Sign, hours and minutes; `none` for `Z`. -/
  zone : Option (Char × List Char × List Char)
  deriving DecidableEq

/-- `\d{n}`. -/
def Digits (n : Nat) (ds : List Char) : Prop := ds.length = n ∧ ∀ c ∈ ds, c.isDigit = true

namespace Spelling

structure WellFormed (i : Spelling) : Prop where
  year : Digits 4 i.year
  month : Digits 2 i.month
  day : Digits 2 i.day
  hour : Digits 2 i.hour
  minute : Digits 2 i.minute
  second : Digits 2 i.second
  fraction : i.fraction.length ≤ 3 ∧ ∀ c ∈ i.fraction, c.isDigit = true
  zone : ∀ z ∈ i.zone, (z.1 = '+' ∨ z.1 = '-') ∧ Digits 2 z.2.1 ∧ Digits 2 z.2.2

/-- `YYYY-MM-DDTHH:mm:ss`. -/
def clock (i : Spelling) : List Char :=
  i.year ++ ['-'] ++ i.month ++ ['-'] ++ i.day ++ ['T'] ++ i.hour ++ [':'] ++ i.minute ++ [':'] ++
    i.second

def fractionText (i : Spelling) : List Char :=
  if i.fraction = [] then [] else '.' :: i.fraction

def zoneText (i : Spelling) : List Char :=
  match i.zone with
  | none => ['Z']
  | some (sign, hours, minutes) => sign :: hours ++ [':'] ++ minutes

def text (i : Spelling) : List Char := i.clock ++ i.fractionText ++ i.zoneText

/-- The digits of a fraction, if `rest` begins with one. -/
def fractionOf (rest : List Char) : List Char :=
  if rest.head? = some '.' then (rest.drop 1).takeWhile Char.isDigit else []

/-- What is left of `rest` behind the fraction. -/
def afterFraction (rest : List Char) : List Char :=
  if rest.head? = some '.' then (rest.drop 1).dropWhile Char.isDigit else rest

def zoneOf (rest : List Char) : Option (Char × List Char × List Char) :=
  if rest = ['Z'] then none
  else some (rest.headD '+', (rest.drop 1).take 2, (rest.drop 4).take 2)

/-- The groups of a text, by their places. -/
def of (s : List Char) : Spelling where
  year := s.take 4
  month := (s.drop 5).take 2
  day := (s.drop 8).take 2
  hour := (s.drop 11).take 2
  minute := (s.drop 14).take 2
  second := (s.drop 17).take 2
  fraction := fractionOf (s.drop 19)
  zone := zoneOf (afterFraction (s.drop 19))

end Spelling

/-! ## The expression -/

section Expression

variable {x : List Char}

theorem mem_comp {P Q : RegularExpression Char} (h : x ∈ (P * Q).matches') :
    ∃ a ∈ P.matches', ∃ b ∈ Q.matches', a ++ b = x :=
  Language.mem_mul.mp h

theorem Digits.append {m n : Nat} {a b : List Char} (ha : Digits m a) (hb : Digits n b) :
    Digits (m + n) (a ++ b) := by
  refine ⟨by rw [List.length_append, ha.1, hb.1], fun c hc => ?_⟩
  exact (List.mem_append.mp hc).elim (ha.2 c) (hb.2 c)

theorem digits_of_mem_charClass (h : x ∈ (charClass '0' '9').matches') : Digits 1 x := by
  have hall : (words (charClass '0' '9')).all (fun y => y.length == 1 && y.all Char.isDigit) =
      true := by
    decide
  have hx := List.all_eq_true.mp hall x ((mem_words (by decide) x).mp h)
  rw [Bool.and_eq_true, beq_iff_eq, List.all_eq_true] at hx
  exact hx

theorem digits_of_mem_twoDigits (h : x ∈ twoDigits.matches') : Digits 2 x := by
  obtain ⟨a, ha, b, hb, rfl⟩ := mem_comp h
  exact (digits_of_mem_charClass ha).append (digits_of_mem_charClass hb)

/-- One more digit, or none. -/
theorem digits_of_mem_optional (h : x ∈ (1 + charClass '0' '9').matches') :
    x.length ≤ 1 ∧ ∀ c ∈ x, c.isDigit = true := by
  rcases (Language.mem_add _ _ x).mp h with h | h
  · obtain rfl : x = [] := (Language.mem_one x).mp h
    exact ⟨Nat.zero_le _, fun _ hc => nomatch hc⟩
  · obtain ⟨hlength, hdigits⟩ := digits_of_mem_charClass h
    exact ⟨Nat.le_of_eq hlength, hdigits⟩

theorem of_mem_milliseconds (h : x ∈ milliseconds.matches') :
    ∃ ds, (ds.length ≤ 3 ∧ ∀ c ∈ ds, c.isDigit = true) ∧
      x = if ds = [] then [] else '.' :: ds := by
  rcases (Language.mem_add _ _ x).mp h with h | h
  · obtain rfl : x = [] := (Language.mem_one x).mp h
    exact ⟨[], by simp, rfl⟩
  · obtain ⟨_, h₁, c, hc, rfl⟩ := mem_comp h
    obtain ⟨_, h₂, b, hb, rfl⟩ := mem_comp h₁
    obtain ⟨_, rfl, a, ha, rfl⟩ := mem_comp h₂
    obtain ⟨hlengthA, hdigitsA⟩ := digits_of_mem_charClass ha
    obtain ⟨hlengthB, hdigitsB⟩ := digits_of_mem_optional hb
    obtain ⟨hlengthC, hdigitsC⟩ := digits_of_mem_optional hc
    refine ⟨a ++ b ++ c, ⟨?_, fun d hd => ?_⟩, ?_⟩
    · rw [List.length_append, List.length_append]
      omega
    · rcases List.mem_append.mp hd with hd | hd
      · exact (List.mem_append.mp hd).elim (hdigitsA d) (hdigitsB d)
      · exact hdigitsC d hd
    · have hne : a ++ b ++ c ≠ [] := by
        intro hnil
        have hlength := congrArg List.length hnil
        rw [List.length_append, List.length_append, List.length_nil] at hlength
        omega
      rw [if_neg hne]
      simp

theorem of_mem_offset (h : x ∈ offset.matches') :
    ∃ zone : Option (Char × List Char × List Char),
      (∀ z ∈ zone, (z.1 = '+' ∨ z.1 = '-') ∧ Digits 2 z.2.1 ∧ Digits 2 z.2.2) ∧
        x = zone.elim ['Z'] fun z => z.1 :: z.2.1 ++ [':'] ++ z.2.2 := by
  rcases (Language.mem_add _ _ x).mp h with rfl | h
  · exact ⟨none, by simp, rfl⟩
  · obtain ⟨_, h₁, minutes, hminutes, rfl⟩ := mem_comp h
    obtain ⟨_, h₂, _, rfl, rfl⟩ := mem_comp h₁
    obtain ⟨sign, hsign, hours, hhours, rfl⟩ := mem_comp h₂
    have hhours := digits_of_mem_twoDigits hhours
    have hminutes := digits_of_mem_twoDigits hminutes
    rcases (Language.mem_add _ _ sign).mp hsign with rfl | rfl
    · exact ⟨some ('+', hours, minutes), by simp [hhours, hminutes], rfl⟩
    · exact ⟨some ('-', hours, minutes), by simp [hhours, hminutes], rfl⟩

/-- **The expression.** What it matches is spelled by groups of digits. -/
theorem exists_spelling {s : List Char} (h : iso8601WithOffset.rmatch s = true) :
    ∃ i : Spelling, i.WellFormed ∧ s = i.text := by
  rw [RegularExpression.rmatch_iff_matches'] at h
  -- the groups from the last to the first
  obtain ⟨_, h₁, _, hzone, rfl⟩ := mem_comp h
  obtain ⟨_, h₂, _, hfraction, rfl⟩ := mem_comp h₁
  obtain ⟨_, h₃, second, hsecond, rfl⟩ := mem_comp h₂
  obtain ⟨_, h₄, _, rfl, rfl⟩ := mem_comp h₃
  obtain ⟨_, h₅, minute, hminute, rfl⟩ := mem_comp h₄
  obtain ⟨_, h₆, _, rfl, rfl⟩ := mem_comp h₅
  obtain ⟨_, h₇, hour, hhour, rfl⟩ := mem_comp h₆
  obtain ⟨_, h₈, _, rfl, rfl⟩ := mem_comp h₇
  obtain ⟨_, h₉, day, hday, rfl⟩ := mem_comp h₈
  obtain ⟨_, h₁₀, _, rfl, rfl⟩ := mem_comp h₉
  obtain ⟨_, h₁₁, month, hmonth, rfl⟩ := mem_comp h₁₀
  obtain ⟨_, h₁₂, _, rfl, rfl⟩ := mem_comp h₁₁
  obtain ⟨century, hcentury, rest, hrest, rfl⟩ := mem_comp h₁₂
  obtain ⟨fraction, hfraction', rfl⟩ := of_mem_milliseconds hfraction
  obtain ⟨zone, hzone', rfl⟩ := of_mem_offset hzone
  refine ⟨⟨century ++ rest, month, day, hour, minute, second, fraction, zone⟩,
    ⟨(digits_of_mem_twoDigits hcentury).append (digits_of_mem_twoDigits hrest),
      digits_of_mem_twoDigits hmonth, digits_of_mem_twoDigits hday,
      digits_of_mem_twoDigits hhour, digits_of_mem_twoDigits hminute,
      digits_of_mem_twoDigits hsecond, hfraction', hzone'⟩, ?_⟩
  cases zone <;> rfl

end Expression

/-! ## Reading the groups -/

theorem Digits.four {ds : List Char} (h : Digits 4 ds) : ∃ a b c d, ds = [a, b, c, d] := by
  obtain ⟨hlength, -⟩ := h
  match ds, hlength with
  | [a, b, c, d], _ => exact ⟨a, b, c, d, rfl⟩

theorem Digits.two {ds : List Char} (h : Digits 2 ds) : ∃ a b, ds = [a, b] :=
  List.length_eq_two.mp h.1

namespace Spelling

variable {i : Spelling}

/-- The clock is the first 19 characters. -/
theorem length_clock (h : i.WellFormed) : i.clock.length = 19 := by
  simp [clock, h.year.1, h.month.1, h.day.1, h.hour.1, h.minute.1, h.second.1]

theorem take_text (h : i.WellFormed) : i.text.take 19 = i.clock := by
  rw [text, List.append_assoc, ← length_clock h, List.take_left]

/-- The zone does not begin with a digit or a point. -/
theorem zoneText_spec (h : i.WellFormed) :
    ∃ c rest, i.zoneText = c :: rest ∧ c.isDigit = false ∧ c ≠ '.' := by
  rw [zoneText]
  cases hzone : i.zone with
  | none => exact ⟨'Z', [], rfl, rfl, by decide⟩
  | some z =>
    obtain ⟨sign, hours, minutes⟩ := z
    have hsign : sign = '+' ∨ sign = '-' := (h.zone _ hzone).1
    rcases hsign with rfl | rfl
    · exact ⟨'+', _, rfl, rfl, by decide⟩
    · exact ⟨'-', _, rfl, rfl, by decide⟩

/-- The fraction ends where the zone begins. -/
theorem fraction_text (h : i.WellFormed) :
    fractionOf (i.fractionText ++ i.zoneText) = i.fraction ∧
      afterFraction (i.fractionText ++ i.zoneText) = i.zoneText := by
  obtain ⟨c, rest, hzone, hdigit, hpoint⟩ := zoneText_spec h
  rw [fractionText, hzone, fractionOf, afterFraction]
  by_cases hempty : i.fraction = []
  · -- no point, no fraction
    have hhead : ¬ some c = some '.' := fun heq => hpoint (Option.some.inj heq)
    rw [if_pos hempty, List.nil_append, List.head?_cons, if_neg hhead, if_neg hhead, hempty]
    exact ⟨rfl, rfl⟩
  · -- the digits behind the point, up to the zone
    rw [if_neg hempty, List.cons_append, List.head?_cons, if_pos rfl, if_pos rfl,
      List.drop_succ_cons, List.drop_zero, List.takeWhile_append_of_pos h.fraction.2,
      List.dropWhile_append_of_pos h.fraction.2, List.takeWhile_cons_of_neg (by simp [hdigit]),
      List.dropWhile_cons_of_neg (by simp [hdigit]), List.append_nil]
    exact ⟨rfl, rfl⟩

theorem zone_text (h : i.WellFormed) : zoneOf i.zoneText = i.zone := by
  rw [zoneText]
  cases hzone : i.zone with
  | none => rfl
  | some z =>
    obtain ⟨sign, hours, minutes⟩ := z
    obtain ⟨hsign, hhours, hminutes⟩ := h.zone _ hzone
    obtain ⟨a, b, rfl⟩ := hhours.two
    obtain ⟨c, d, rfl⟩ := hminutes.two
    rw [zoneOf, if_neg (by simp)]
    rfl

/-- The groups are found at their places. -/
theorem of_text (h : i.WellFormed) : of i.text = i := by
  obtain ⟨hfraction, hafter⟩ := fraction_text h
  have hzone := zone_text h
  obtain ⟨year, month, day, hour, minute, second, fraction, zone⟩ := i
  obtain ⟨y₁, y₂, y₃, y₄, rfl⟩ := h.year.four
  obtain ⟨m₁, m₂, rfl⟩ := h.month.two
  obtain ⟨d₁, d₂, rfl⟩ := h.day.two
  obtain ⟨h₁, h₂, rfl⟩ := h.hour.two
  obtain ⟨n₁, n₂, rfl⟩ := h.minute.two
  obtain ⟨s₁, s₂, rfl⟩ := h.second.two
  rw [of, text, List.append_assoc]
  simp only [clock, List.cons_append, List.nil_append, List.take_succ_cons, List.take_zero,
    List.drop_succ_cons, List.drop_zero, hfraction, hafter, hzone]

end Spelling

/-- An accepted text is that of its groups. -/
theorem spelling_of_rmatch {s : List Char} (h : iso8601WithOffset.rmatch s = true) :
    (Spelling.of s).WellFormed ∧ (Spelling.of s).text = s := by
  obtain ⟨i, hi, rfl⟩ := exists_spelling h
  rw [Spelling.of_text hi]
  exact ⟨hi, rfl⟩

/-! ## The instant -/

namespace Spelling

/-- The fields as numbers, with the fraction in milliseconds. -/
def fields (i : Spelling) : DateTime where
  year := value i.year
  month := value i.month
  day := value i.day
  hour := value i.hour
  minute := value i.minute
  second := value i.second
  millisecond := value ((i.fraction ++ ['0', '0', '0']).take 3)

/-- The offset in minutes. -/
def offset (i : Spelling) : Int :=
  match i.zone with
  | none => 0
  | some (sign, hours, minutes) =>
    let east : Int := value hours * 60 + value minutes
    if sign = '-' then -east else east

/-- Its hours are less than 24 and its minutes less than 60. -/
def zoneInRange (i : Spelling) : Bool :=
  match i.zone with
  | none => true
  | some (_, hours, minutes) => value hours ≤ 23 && value minutes ≤ 59

/-- The instant that the clock and the offset give. -/
def instant (i : Spelling) : Int := i.fields.instant - i.offset * 60000

/-- The fields that V8 takes: each for itself, and 24 hours with nothing more. -/
def inRange (i : Spelling) : Bool :=
  let f := i.fields
  (1 ≤ f.month && f.month ≤ 12) && (1 ≤ f.day && f.day ≤ 31) &&
    ((f.hour ≤ 23 && f.minute ≤ 59 && f.second ≤ 59) ||
      (f.hour = 24 && f.minute = 0 && f.second = 0 && f.millisecond = 0)) &&
    i.zoneInRange

/-- What V8's parser makes of the text. -/
def read (i : Spelling) : Date := if i.inRange then .ms i.instant else .invalid

/-- A text that V8 reads is one of its instant. -/
theorem read_eq_ms {i : Spelling} {t : Int} :
    i.read = .ms t ↔ i.inRange = true ∧ t = i.instant := by
  rw [read]
  split
  · rename_i h
    rw [Date.ms.injEq]
    exact ⟨fun heq => ⟨h, heq.symm⟩, fun heq => heq.2.symm⟩
  · rename_i h
    exact iff_of_false (fun heq => Date.noConfusion heq) fun heq => h heq.1

/-- A clock at the offset shows the fields exactly if they are real. -/
theorem shown_iff {i : Spelling} {t : Int} (h : i.read = .ms t) :
    civil (t + i.offset * 60000) = i.fields ↔ i.fields.Real := by
  obtain ⟨-, rfl⟩ := read_eq_ms.mp h
  rw [instant, Int.sub_add_cancel]
  exact civil_instant_iff

theorem millisecond_le {i : Spelling} (h : i.WellFormed) : i.fields.millisecond ≤ 999 := by
  have hdigits : ∀ c ∈ (i.fraction ++ ['0', '0', '0']).take 3, c.isDigit = true := by
    intro c hc
    rcases List.mem_append.mp (List.mem_of_mem_take hc) with hc | hc
    · exact h.fraction.2 c hc
    · have hzeros : ['0', '0', '0'].all Char.isDigit = true := by decide
      exact List.all_eq_true.mp hzeros c hc
  have hlength : ((i.fraction ++ ['0', '0', '0']).take 3).length = 3 := by
    rw [List.length_take, List.length_append]
    exact Nat.min_eq_left (Nat.le_add_left 3 _)
  have hlt := value_lt hdigits
  rw [hlength] at hlt
  exact Nat.le_of_lt_succ hlt

/-- What V8 has checked. -/
theorem inRange_iff {i : Spelling} : i.inRange = true ↔
    (1 ≤ i.fields.month ∧ i.fields.month ≤ 12) ∧ (1 ≤ i.fields.day ∧ i.fields.day ≤ 31) ∧
      (i.fields.hour ≤ 23 ∧ i.fields.minute ≤ 59 ∧ i.fields.second ≤ 59 ∨
        i.fields.hour = 24 ∧ i.fields.minute = 0 ∧ i.fields.second = 0 ∧
          i.fields.millisecond = 0) ∧ i.zoneInRange = true := by
  simp only [inRange, Bool.and_eq_true, Bool.or_eq_true, decide_eq_true_eq, and_assoc]

/-- Fields in range are real but for the end of a month and the 24th hour. -/
theorem real_fields_iff {i : Spelling} (h : i.WellFormed) (hrange : i.inRange = true) :
    i.fields.Real ↔
      i.fields.day ≤ daysInMonth (isLeap i.fields.year) i.fields.month ∧ i.fields.hour ≠ 24 := by
  obtain ⟨hmonth, hday, htime, -⟩ := inRange_iff.mp hrange
  constructor
  · intro hreal
    have hhour := hreal.hour
    exact ⟨hreal.day.inMonth.2, by omega⟩
  · -- with the hour not 24 the first of V8's two cases is left
    rintro ⟨hend, hhour⟩
    exact ⟨⟨hmonth, hday.1, hend⟩, by omega, by omega, by omega, millisecond_le h⟩

end Spelling

/-! ## Printing -/

/-- A clock's year, month, day, hour, minute and second, as `YYYY-MM-DDTHH:mm:ss`. -/
def clockText (c : DateTime) : List Char :=
  padded 4 c.year.toNat ++ ['-'] ++ padded 2 c.month ++ ['-'] ++ padded 2 c.day ++ ['T'] ++
    padded 2 c.hour ++ [':'] ++ padded 2 c.minute ++ [':'] ++ padded 2 c.second

theorem Digits.padded {n : Nat} {ds : List Char} (h : Digits n ds) :
    Lib.Numerals.padded n (value ds) = ds := by
  rw [← h.1, padded_value h.2]

/-- Fields are printed as they were spelled. -/
theorem clockText_fields {i : Spelling} (h : i.WellFormed) : clockText i.fields = i.clock := by
  rw [clockText, Spelling.fields, Spelling.clock]
  dsimp only
  rw [Int.toNat_natCast, h.year.padded, h.month.padded, h.day.padded, h.hour.padded,
    h.minute.padded, h.second.padded]

/-- `new Date` reads the texts of the pattern as V8 does. -/
def ReadsAsV8 (newDate : String → Date) : Prop :=
  ∀ s, iso8601WithOffset.rmatch s.toList = true → newDate s = (Spelling.of s.toList).read

end SchedulingService.Common
