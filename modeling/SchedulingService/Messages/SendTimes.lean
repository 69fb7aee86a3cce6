import SchedulingService.Common.Iso8601
import SchedulingService.Messages.Validity

/-!
# The times that requests give

`scheduledAt` arrives as a text that `@IsISO8601WithOffset()` accepted and is
stored as the instant `new Date` makes of it.

Main result: `denotes_iff` — for which accepted texts that is the instant the text
spells.
-/

namespace SchedulingService.Messages

open Js Common Lib.Calendar

/-- Creations and updates that are given the time `s` store the instant `t`: the
row has it wherever they changed the table. -/
structure StoresTime (newDate : String → Date) (s : String) (t : Int) : Prop where
  create : ∀ (uuids : Uuids) (P : Platform) (now : Int) (fresh : Id) (userId : Slot String)
    (dto : CreateScheduledMessageDto) (T : Table) (i : Id) (row : Row),
    P.newDate = newDate → dto.scheduledAt = s →
    (create uuids P now fresh userId dto T).1.get i = some row → T.get i ≠ some row →
    row.scheduledAt = t
  update : ∀ (uuids : Uuids) (P : Platform) (now : Int) (id : String) (userId : Slot String)
    (dto : UpdateScheduledMessageDto) (T : Table) (i : Id) (row : Row),
    P.newDate = newDate → dto.scheduledAt = .val s →
    (update uuids P now id userId dto T).1.get i = some row → T.get i ≠ some row →
    row.scheduledAt = t

/-- The text denotes the instant it spells: its fields are a real time, `new Date`
is that time less the offset and is what is stored, and a clock at the offset shows
the fields at that instant. -/
structure Denotes (newDate : String → Date) (s : String) : Prop where
  real : (Spelling.of s.toList).fields.Real
  instant : newDate s =
    .ms ((Spelling.of s.toList).fields.instant - (Spelling.of s.toList).offset * 60000)
  stored : ∀ t, newDate s = .ms t → StoresTime newDate s t
  shown : ∀ t, newDate s = .ms t →
    civil (t + (Spelling.of s.toList).offset * 60000) = (Spelling.of s.toList).fields
  printed : ∀ t, newDate s = .ms t →
    clockText (civil (t + (Spelling.of s.toList).offset * 60000)) = s.toList.take 19

section Stored

variable {newDate : String → Date} {s : String} {t : Int}

theorem storesTime_of_newDate (hs : s ≠ "") (h : newDate s = .ms t) : StoresTime newDate s t where
  create uuids P now fresh userId dto T i row hP hdto hget hnew := by
    rcases create_spec uuids P now fresh userId dto T with
      hsame | ⟨m, m', row', hm, ⟨-, -, hat⟩, hrow, hins⟩
    · rw [hsame] at hget
      exact absurd hget hnew
    · -- the row that is new is the inserted one
      rw [hins.after] at hget
      split at hget
      · obtain rfl := Option.some.inj hget
        obtain ⟨-, rfl⟩ := createMessage_spec hm
        have hstored := (newRow_spec hrow).2.2
        rw [hat, hP, hdto, h] at hstored
        exact (Date.ms.inj (Slot.val.inj hstored)).symm
      · exact absurd hget hnew
  update uuids P now id userId dto T i row hP hdto hget hnew := by
    rcases update_spec uuids P now id userId dto T with
      hsame | ⟨r, m, r', -, hupdated, hsaved⟩
    · rw [hsame] at hget
      exact absurd hget hnew
    · have hnewAt : dto.newScheduledAt P = some (.ms t) := by
        rw [UpdateScheduledMessageDto.newScheduledAt, hdto]
        dsimp only
        rw [if_neg hs, hP, h]
      -- only the row of the request has changed
      by_cases hi : i = r.id
      · rw [hi, hsaved.get_self] at hget
        obtain rfl := Option.some.inj hget
        have hstored := hsaved.scheduledAt
        rw [hupdated.scheduledAt, hnewAt] at hstored
        exact (Option.some.inj hstored).symm
      · rw [hsaved.get_of_ne hi] at hget
        exact absurd hget hnew

end Stored

/-- **Times.** An accepted text denotes the instant it spells exactly if its day is
one of its month and its hour is not the 24th. -/
theorem denotes_iff {newDate : String → Date} (hV8 : ReadsAsV8 newDate) {s : String}
    (hs : isISO8601WithOffset newDate (.str s) = true) :
    Denotes newDate s ↔
      (Spelling.of s.toList).fields.day ≤
          daysInMonth (isLeap (Spelling.of s.toList).fields.year)
            (Spelling.of s.toList).fields.month ∧
        (Spelling.of s.toList).fields.hour ≠ 24 := by
  have hvalid := isISO8601WithOffset_str hs
  rw [isISO8601WithOffset, Bool.and_eq_true] at hs
  obtain ⟨hform, htext⟩ := spelling_of_rmatch hs.1
  have hread : newDate s = (Spelling.of s.toList).read := hV8 s hs.1
  obtain ⟨t, hinstant⟩ : ∃ t, newDate s = .ms t := by
    cases hdate : newDate s with
    | ms t => exact ⟨t, rfl⟩
    | invalid => exact absurd hdate hvalid
  -- the second check of the decorator has found it in range
  obtain ⟨hrange, rfl⟩ := Spelling.read_eq_ms.mp (hread.symm.trans hinstant)
  rw [← Spelling.real_fields_iff hform hrange]
  constructor
  · exact Denotes.real
  · intro hreal
    -- the clock at the offset is back at the fields
    have hshown : ∀ t, newDate s = .ms t →
        civil (t + (Spelling.of s.toList).offset * 60000) = (Spelling.of s.toList).fields :=
      fun t ht => (Spelling.shown_iff (hread.symm.trans ht)).mpr hreal
    have hne : s ≠ "" := by
      rintro rfl
      exact absurd hs.1 (by decide)
    refine ⟨hreal, hinstant, fun t => storesTime_of_newDate hne, hshown, fun t ht => ?_⟩
    rw [hshown t ht, clockText_fields hform, ← Spelling.take_text hform, htext]

/-- A `new Date` that reads the texts of the pattern as V8 does, and no others. -/
def v8Date (s : String) : Date :=
  if iso8601WithOffset.rmatch s.toList then (Spelling.of s.toList).read else .invalid

theorem readsAsV8_v8Date : ReadsAsV8 v8Date := fun _ h => if_pos h

/-- The 30th of February is accepted, and stored as the 2nd of March. -/
theorem february_30_accepted :
    isISO8601WithOffset v8Date (.str "2026-02-30T09:00:00Z") = true ∧
      v8Date "2026-02-30T09:00:00Z" = v8Date "2026-03-02T09:00:00Z" ∧
      ¬ Denotes v8Date "2026-02-30T09:00:00Z" := by
  refine ⟨by decide +kernel, by decide +kernel, fun h => ?_⟩
  have hday := h.real.day.inMonth.2
  exact absurd hday (by decide +kernel)

theorem denotes_may_9 : Denotes v8Date "2026-05-09T09:00:00.5+02:00" :=
  (denotes_iff readsAsV8_v8Date (by decide +kernel)).mpr (by decide +kernel)

end SchedulingService.Messages
