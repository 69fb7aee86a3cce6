import SchedulingService.Scheduler.Service

/-!
# What `scheduleJob` leaves behind

A call of `scheduleJob` either is turned down before it writes, or it saves a
row and then asks the queue; nothing undoes the save.

Main results:

* `turnedDown_or_saved`, `saveSchedule_of_turnedDown`, `saveSchedule_of_saved`
  — the two ways the first half goes;
* `enqueue_eq`, `optionsFor_eq_none`, `carrying_of_enqueue` — when `addToQueue` asks the queue,
  and what is then in it;
* `scheduleJob_all_or_nothing` — exactly when a call is all or nothing;
* `stored_schedule_well_formed` — exactly when a stored row is well formed for
  its type.
-/

namespace SchedulingService.Scheduler

open Js Common Queues

/-! ## The first half -/

section Save

variable (rt : Runtime) (db : Database) (calls : SchedulingCalls) (dto : ScheduleJobDto)
  (st : Store)

/-- A request is turned down before anything is written. -/
inductive TurnedDown : Prop
  | invalid (h : dto.validate rt ≠ [])
  | lookupThrew (h : calls.lookup = false)
  | idRefused (h : findOneById db Job.id st.jobs.rows dto.jobId = .error ())
  | noJob (h : findOneById db Job.id st.jobs.rows dto.jobId = .ok none)
  | inactive (job : Job) (h : findOneById db Job.id st.jobs.rows dto.jobId = .ok (some job))
      (hinactive : job.isActive = false)
  | rowRefused (h : newSchedule rt db st.jobs calls.id dto = none)
  | idTaken (schedule : Schedule) (h : newSchedule rt db st.jobs calls.id dto = some schedule)
      (htaken : st.schedules.insert schedule = none)

/-- It gets as far as the save of `schedule`, on behalf of `job`. -/
structure Saved (job : Job) (schedule : Schedule) (schedules : Keyed Schedule.id) : Prop where
  valid : dto.validate rt = []
  lookup : calls.lookup = true
  found : findOneById db Job.id st.jobs.rows dto.jobId = .ok (some job)
  active : job.isActive = true
  row : newSchedule rt db st.jobs calls.id dto = some schedule
  inserted : st.schedules.insert schedule = some schedules

variable {rt db calls dto st}

theorem saveSchedule_of_turnedDown (h : TurnedDown rt db calls dto st) :
    ∃ e, saveSchedule rt db calls dto st = (st, .error e) := by
  -- a call may be turned down for a check that comes after another, so the ones
  -- before are gone through first
  unfold saveSchedule
  by_cases hvalid : dto.validate rt ≠ []
  · exact ⟨_, if_pos hvalid⟩
  · rw [if_neg hvalid]
    by_cases hlookup : calls.lookup = false
    · exact ⟨_, if_pos (by simp [hlookup])⟩
    · rw [if_neg (by simpa using hlookup)]
      cases h with
      | invalid h => exact absurd h hvalid
      | lookupThrew h => exact absurd h hlookup
      | idRefused h => rw [h]; exact ⟨_, rfl⟩
      | noJob h => rw [h]; exact ⟨_, rfl⟩
      | inactive job h hinactive =>
        rw [h]
        exact ⟨_, if_pos (by simp [hinactive])⟩
      | rowRefused h =>
        split
        · exact ⟨_, rfl⟩
        · exact ⟨_, rfl⟩
        · rw [h]
          split <;> exact ⟨_, rfl⟩
      | idTaken schedule h htaken =>
        split
        · exact ⟨_, rfl⟩
        · exact ⟨_, rfl⟩
        · rw [h]
          simp only [htaken]
          split <;> exact ⟨_, rfl⟩

theorem saveSchedule_of_saved {job : Job} {schedule : Schedule}
    {schedules : Keyed Schedule.id} (h : Saved rt db calls dto st job schedule schedules) :
    saveSchedule rt db calls dto st =
      (if calls.save.stored then { st with schedules } else st,
        if calls.save.returned then .ok (job, schedule) else .error failedToSchedule) := by
  simp [saveSchedule, h.valid, h.lookup, h.found, h.active, h.row, h.inserted]

variable (rt db calls dto st) in
theorem turnedDown_or_saved :
    TurnedDown rt db calls dto st ∨
      ∃ job schedule schedules, Saved rt db calls dto st job schedule schedules := by
  -- in the order in which the code checks
  by_cases hvalid : dto.validate rt = []
  swap
  · exact .inl (.invalid hvalid)
  cases hlookup : calls.lookup with
  | false => exact .inl (.lookupThrew hlookup)
  | true =>
    cases hfound : findOneById db Job.id st.jobs.rows dto.jobId with
    | error e => exact .inl (.idRefused hfound)
    | ok found =>
      cases found with
      | none => exact .inl (.noJob hfound)
      | some job =>
        cases hactive : job.isActive with
        | false => exact .inl (.inactive job hfound hactive)
        | true =>
          cases hrow : newSchedule rt db st.jobs calls.id dto with
          | none => exact .inl (.rowRefused hrow)
          | some schedule =>
            cases hinserted : st.schedules.insert schedule with
            | none => exact .inl (.idTaken schedule hrow hinserted)
            | some schedules =>
              exact .inr ⟨job, schedule, schedules,
                ⟨hvalid, hlookup, hfound, hactive, hrow, hinserted⟩⟩

end Save

/-! ## The row -/

/-- The columns of `s` are what is stored for the dto. -/
structure RowOf (rt : Runtime) (id : Uuid) (dto : ScheduleJobDto) (s : Schedule) : Prop where
  id_eq : s.id = id
  scheduleType : s.scheduleType = dto.scheduleType
  cron : nullable (readVarchar 100) (truthyOr dto.cronExpression .null) = some s.cronExpression
  interval : nullable readInteger (truthyOr dto.intervalSeconds .null) = some s.intervalSeconds
  scheduledAt : nullable readTimestamp (dateOrNull rt dto.scheduledAt) = some s.scheduledAt
  startsAt : nullable readTimestamp (dateOrNull rt dto.startsAt) = some s.startsAt
  endsAt : nullable readTimestamp (dateOrNull rt dto.endsAt) = some s.endsAt

theorem newSchedule_spec {rt : Runtime} {db : Database} {jobs : Keyed Job.id} {id : Uuid}
    {dto : ScheduleJobDto} {s : Schedule} (h : newSchedule rt db jobs id dto = some s) :
    RowOf rt id dto s := by
  simp only [newSchedule, Option.bind_eq_bind, Option.bind_eq_some_iff, Option.some.injEq] at h
  obtain ⟨jobId, -, job, -, cron, hcron, interval, hinterval, scheduledAt, hscheduled, timezone,
    -, startsAt, hstarts, endsAt, hends, rfl⟩ := h
  exact ⟨rfl, rfl, hcron, hinterval, hscheduled, hstarts, hends⟩

/-- A time that was given is stored, and is the instant it names. -/
theorem scheduledTime {rt : Runtime} {v : Value} {t : Option Int}
    (h : nullable readTimestamp (dateOrNull rt v) = some t) (hv : v.truthy) :
    ∃ n, t = some n ∧ rt.newDate v = .ms n := by
  rw [dateOrNull, if_pos hv] at h
  cases hd : rt.newDate v with
  | invalid => rw [hd] at h; cases h
  | ms n => rw [hd] at h; exact ⟨n, (Option.some.inj h).symm, rfl⟩

/-- One that was not is NULL. -/
theorem scheduledTime_none {rt : Runtime} {v : Value} {t : Option Int}
    (h : nullable readTimestamp (dateOrNull rt v) = some t) (hv : v.truthy = false) :
    t = none := by
  rw [dateOrNull, if_neg (by simp [hv])] at h
  exact (Option.some.inj h).symm

/-- A stored time was given. -/
theorem newDate_of_stored {rt : Runtime} {v : Value} {n : Int}
    (h : nullable readTimestamp (dateOrNull rt v) = some (some n)) :
    v.truthy = true ∧ rt.newDate v = .ms n := by
  cases hv : v.truthy with
  | false => cases scheduledTime_none h hv
  | true =>
    obtain ⟨m, hm, hdate⟩ := scheduledTime h hv
    rw [Option.some.inj hm]
    exact ⟨rfl, hdate⟩

/-- What is given in a nullable column of falsy-is-null properties. -/
theorem stored_of_truthy {α : Type} {read : Value → Option α} {v : Value} {a : Option α}
    (h : nullable read (truthyOr v .null) = some a) (hv : v.truthy = true) :
    ∃ x, a = some x ∧ read v = some x := by
  rw [truthyOr, if_pos hv] at h
  unfold nullable column at h
  split at h
  case h_1 => cases hv
  case h_2 => cases hv
  case h_3 =>
    obtain ⟨x, hx, rfl⟩ := Option.map_eq_some_iff.mp h
    exact ⟨x, rfl, hx⟩

theorem null_of_falsy {α : Type} {read : Value → Option α} {v : Value} {a : Option α}
    (h : nullable read (truthyOr v .null) = some a) (hv : v.truthy = false) : a = none := by
  rw [truthyOr, if_neg (by simp [hv])] at h
  exact (Option.some.inj h).symm

/-! ## The queue -/

/-- `{ cron, tz }`. -/
def cronRepeat (cronExpression timezone : String) : RepeatOptions where
  cron := some cronExpression
  tz := some timezone
  every := none
  startDate := none
  endDate := none
  limit := none

/-- `{ every }`. -/
def everyRepeat (intervalSeconds : Int) : RepeatOptions where
  cron := none
  tz := none
  every := some (intervalSeconds * 1000)
  startDate := none
  endDate := none
  limit := none

/-- The options of the entry made for `s`, if one is made. -/
def optionsFor (now : Int) (s : Schedule) : Option JobsOptions :=
  match s.scheduleType with
  | .immediate => some (jobOptions .none)
  | .once => s.scheduledAt.map fun scheduledAt =>
      jobOptions { JobsOptions.none with
        delay := some (max 0 (scheduledAt - now))
        jobId := some s.id }
  | .cron => (s.cronExpression.filter (· ≠ "")).map fun cronExpression =>
      repeatableOptions (cronRepeat cronExpression s.timezone) s.id
  | .interval => (s.intervalSeconds.filter (· ≠ 0)).map fun intervalSeconds =>
      repeatableOptions (everyRepeat intervalSeconds) s.id

/-- The four branches differ in the options only. -/
theorem enqueue_eq (stamp : Stamp) (now : Int) (job : Job) (s : Schedule) (qs : Contents) :
    enqueue stamp now job s qs = (optionsFor now s).map
      (qs.add stamp (getQueueName job.priority) "execute-job" ⟨job.id, s.id⟩) := by
  unfold enqueue optionsFor
  cases s.scheduleType with
  | immediate => rfl
  | once => rw [Option.map_map]; rfl
  | cron => rw [Option.map_map]; rfl
  | interval => rw [Option.map_map]; rfl

/-- An entry with an id of its own has the schedule's. -/
theorem jobId_of_optionsFor {now : Int} {s : Schedule} {opts : JobsOptions}
    (h : optionsFor now s = some opts) :
    (s.scheduleType = .immediate ∧ opts.jobId = none) ∨
      (s.scheduleType ≠ .immediate ∧ opts.jobId = some s.id) := by
  unfold optionsFor at h
  split at h
  case h_1 htype =>
    rw [← Option.some.inj h]
    exact .inl ⟨htype, rfl⟩
  -- the other three name the entry
  all_goals
    rename_i htype
    obtain ⟨x, -, rfl⟩ := Option.map_eq_some_iff.mp h
    exact .inr ⟨by rw [htype]; decide, rfl⟩

/-- The field that says when a schedule of this type runs is given. -/
def ScheduleJobDto.hasTiming (dto : ScheduleJobDto) : Bool :=
  match dto.scheduleType with
  | .immediate => true
  | .once => dto.scheduledAt.truthy
  | .cron => dto.cronExpression.truthy
  | .interval => dto.intervalSeconds.truthy

/-- Without it no entry is made, and no error says so. -/
theorem optionsFor_eq_none {rt : Runtime} {id : Uuid} {dto : ScheduleJobDto} {s : Schedule}
    (hs : RowOf rt id dto s) (now : Int) :
    optionsFor now s = none ↔ dto.hasTiming = false := by
  unfold optionsFor ScheduleJobDto.hasTiming
  rw [hs.scheduleType]
  cases dto.scheduleType with
  | immediate => simp
  | once =>
    cases hv : dto.scheduledAt.truthy with
    | false => simp [scheduledTime_none hs.scheduledAt hv]
    | true =>
      obtain ⟨n, hn, -⟩ := scheduledTime hs.scheduledAt hv
      simp [hn]
  | cron =>
    cases hv : dto.cronExpression.truthy with
    | false => simp [null_of_falsy hs.cron hv]
    | true =>
      obtain ⟨e, he, hread⟩ := stored_of_truthy hs.cron hv
      -- the column cuts a text off, but not to nothing
      have hne := ne_empty_of_readVarchar (by omega) hread hv
      simp [he, Option.filter, hne]
  | interval =>
    cases hv : dto.intervalSeconds.truthy with
    | false => simp [null_of_falsy hs.interval hv]
    | true =>
      obtain ⟨n, hn, hread⟩ := stored_of_truthy hs.interval hv
      -- a truthy number is stored as it is, and not zero
      have hne : n ≠ 0 := by
        rintro rfl
        rw [readInteger_eq_some hread] at hv
        exact absurd hv (by decide)
      simp [hn, Option.filter, hne]

/-- What the database generates as a new id is in no row and in no queue. -/
structure FreshId (st : Store) (id : Uuid) : Prop where
  row : st.schedules.get id = none
  entry : ∀ q, ∀ e ∈ st.queues q, e.id ≠ id
  data : st.queues.carrying id = []

theorem carrying_of_enqueue {stamp : Stamp} {now : Int} {job : Job} {s : Schedule}
    {qs qs' : Contents} (h : enqueue stamp now job s qs = some qs')
    (hentry : ∀ q, ∀ e ∈ qs q, e.id ≠ s.id) (hdata : qs.carrying s.id = []) :
    ∃ e, qs'.carrying s.id = [e] := by
  rw [enqueue_eq] at h
  obtain ⟨opts, hopts, rfl⟩ := Option.map_eq_some_iff.mp h
  -- the queue drops an entry whose id it has, and has none of this id
  have hfree : ∀ jobId, opts.jobId = some jobId →
      ∀ e ∈ qs (getQueueName job.priority), e.id ≠ jobId := by
    intro jobId hid e he
    rcases jobId_of_optionsFor hopts with ⟨-, hnone⟩ | ⟨-, hsome⟩
    · rw [hnone] at hid
      cases hid
    · obtain rfl := Option.some.inj (hsome.symm.trans hid)
      exact hentry _ e he
  rw [Contents.add_eq hfree]
  exact ⟨_, Contents.carrying_append hdata _ (decide_eq_true rfl)⟩

/-! ## All or nothing -/

/-- A call that resolves has added one row and one entry that carries its id; a
call that throws has changed neither the table nor a queue. -/
structure AllOrNothing (st : Store) (r : Store × Except HttpException Schedule) : Prop where
  all : ∀ schedule, r.2 = .ok schedule →
    (∃ row, r.1.schedules.rows = row :: st.schedules.rows ∧ row.id = schedule.id) ∧
      ∃ e, r.1.queues.carrying schedule.id = [e]
  nothing : ∀ e, r.2 = .error e → r.1.schedules = st.schedules ∧ r.1.queues = st.queues

/-- From its save on a call goes through, or its save fails without a trace. -/
def GoesThrough (calls : SchedulingCalls) (dto : ScheduleJobDto) : Prop :=
  calls.save = .threw false ∨
    calls.save = .done ∧ dto.hasTiming = true ∧ calls.add = .done

theorem Saved.not_turnedDown {rt : Runtime} {db : Database} {calls : SchedulingCalls}
    {dto : ScheduleJobDto} {st : Store} {job : Job} {s : Schedule}
    {schedules : Keyed Schedule.id} (h : Saved rt db calls dto st job s schedules) :
    ¬ TurnedDown rt db calls dto st := by
  intro hdown
  cases hdown with
  | invalid hinvalid => exact hinvalid h.valid
  | lookupThrew hthrew => rw [h.lookup] at hthrew; cases hthrew
  | idRefused hrefused => rw [h.found] at hrefused; cases hrefused
  | noJob hnone => rw [h.found] at hnone; cases hnone
  | inactive job' hfound hinactive =>
    obtain rfl : job = job' := Option.some.inj (Except.ok.inj (h.found.symm.trans hfound))
    rw [h.active] at hinactive
    cases hinactive
  | rowRefused hnone => rw [h.row] at hnone; cases hnone
  | idTaken s' hrow htaken =>
    obtain rfl : s = s' := Option.some.inj (h.row.symm.trans hrow)
    rw [h.inserted] at htaken
    cases htaken

section Whole

variable {rt : Runtime} {db : Database} {calls : SchedulingCalls} {dto : ScheduleJobDto}
  {st : Store}

/-- A call that throws and has changed nothing is. -/
theorem allOrNothing_unchanged (e : HttpException) : AllOrNothing st (st, .error e) where
  all schedule hok := by cases hok
  nothing _ _ := ⟨rfl, rfl⟩

/-- A result that leaves a new row behind an error is not all or nothing. -/
theorem not_allOrNothing_of_row {s : Schedule} {schedules : Keyed Schedule.id}
    (hinserted : st.schedules.insert s = some schedules)
    {r : Store × Except HttpException Schedule} (hrow : r.1.schedules = schedules)
    {e : HttpException} (he : r.2 = .error e) : ¬ AllOrNothing st r := by
  intro h
  have hsame : schedules = st.schedules := hrow.symm.trans (h.nothing e he).1
  have hrows := Keyed.rows_insert hinserted
  rw [hsame] at hrows
  exact absurd (congrArg List.length hrows) (by simp)

theorem scheduleJob_of_turnedDown (h : TurnedDown rt db calls dto st) :
    ∃ e, scheduleJob rt db calls dto st = (st, .error e) := by
  obtain ⟨e, he⟩ := saveSchedule_of_turnedDown h
  exact ⟨e, by rw [scheduleJob, he]⟩

theorem scheduleJob_of_saveThrew {job : Job} {s : Schedule} {schedules : Keyed Schedule.id}
    (h : Saved rt db calls dto st job s schedules) {stored : Bool}
    (hsave : calls.save = .threw stored) :
    scheduleJob rt db calls dto st =
      (if stored then { st with schedules } else st, .error failedToSchedule) := by
  rw [scheduleJob, saveSchedule_of_saved h, hsave]
  rfl

theorem scheduleJob_of_saveDone {job : Job} {s : Schedule} {schedules : Keyed Schedule.id}
    (h : Saved rt db calls dto st job s schedules) (hsave : calls.save = .done) :
    scheduleJob rt db calls dto st =
      ({ st with schedules, queues := (addToQueue calls rt.now job s st.queues).1 },
        if (addToQueue calls rt.now job s st.queues).2 then .ok s
        else .error failedToSchedule) := by
  rw [scheduleJob, saveSchedule_of_saved h, hsave]
  rfl

/-- After a save that returned, all turns on the queue. -/
theorem allOrNothing_of_saveDone (hfresh : FreshId st calls.id) {job : Job} {s : Schedule}
    {schedules : Keyed Schedule.id} (h : Saved rt db calls dto st job s schedules)
    (hsave : calls.save = .done) :
    AllOrNothing st (scheduleJob rt db calls dto st) ↔
      dto.hasTiming = true ∧ calls.add = .done := by
  have hs := newSchedule_spec h.row
  have hid : calls.id = s.id := hs.id_eq.symm
  rw [hid] at hfresh
  have hrows := Keyed.rows_insert h.inserted
  rw [scheduleJob_of_saveDone h hsave]
  cases hqueue : enqueue calls.stamp rt.now job s st.queues with
  | none =>
    -- the call resolves, and no entry carries the new row's id
    have hadd : addToQueue calls rt.now job s st.queues = (st.queues, true) := by
      rw [addToQueue, hqueue]
    have htiming : dto.hasTiming = false := by
      rw [enqueue_eq, Option.map_eq_none_iff] at hqueue
      exact (optionsFor_eq_none hs rt.now).mp hqueue
    rw [hadd, htiming]
    constructor
    · intro hall
      obtain ⟨-, e, he⟩ := hall.all s rfl
      rw [hfresh.data] at he
      cases he
    · rintro ⟨hfalse, -⟩
      cases hfalse
  | some qs =>
    have hadd : addToQueue calls rt.now job s st.queues =
        (if calls.add.stored then qs else st.queues, calls.add.returned) := by
      rw [addToQueue, hqueue]
    have htiming : dto.hasTiming = true := by
      by_contra hnot
      have hnone := (optionsFor_eq_none hs rt.now).mpr (by simpa using hnot)
      rw [enqueue_eq, hnone] at hqueue
      cases hqueue
    rw [hadd]
    cases hcall : calls.add with
    | done =>
      refine iff_of_true ⟨?_, ?_⟩ ⟨htiming, rfl⟩
      · intro schedule hok
        obtain rfl : s = schedule := Except.ok.inj hok
        exact ⟨⟨s, hrows, rfl⟩, carrying_of_enqueue hqueue hfresh.entry hfresh.data⟩
      · intro e he
        cases he
    | threw stored =>
      -- the row is there, and nothing takes it back
      refine iff_of_false (not_allOrNothing_of_row h.inserted rfl rfl) ?_
      rintro ⟨-, hdone⟩
      cases hdone

/-- **All or nothing.** A call is all or nothing exactly when it is turned down
before its save, or goes through from there on. -/
theorem scheduleJob_all_or_nothing (hfresh : FreshId st calls.id) :
    AllOrNothing st (scheduleJob rt db calls dto st) ↔
      TurnedDown rt db calls dto st ∨ GoesThrough calls dto := by
  rcases turnedDown_or_saved rt db calls dto st with hdown | ⟨job, s, schedules, hsaved⟩
  · obtain ⟨e, he⟩ := scheduleJob_of_turnedDown hdown
    rw [he]
    exact iff_of_true (allOrNothing_unchanged e) (.inl hdown)
  · rw [or_iff_right hsaved.not_turnedDown, GoesThrough]
    cases hsave : calls.save with
    | done =>
      rw [allOrNothing_of_saveDone hfresh hsaved hsave]
      simp
    | threw stored =>
      rw [scheduleJob_of_saveThrew hsaved hsave]
      cases stored with
      | false =>
        -- nothing has happened
        exact iff_of_true (allOrNothing_unchanged failedToSchedule) (.inl rfl)
      | true =>
        -- the insert took effect before it threw
        refine iff_of_false (not_allOrNothing_of_row hsaved.inserted rfl rfl) ?_
        simp

end Whole

/-! ## The counterexample -/

/-- `{ scheduleType }` for a job. -/
def bareDto (job : Job) (scheduleType : ScheduleType) : ScheduleJobDto where
  jobId := .str job.id
  scheduleType := scheduleType
  cronExpression := .undefined
  intervalSeconds := .undefined
  scheduledAt := .undefined
  timezone := .undefined
  startsAt := .undefined
  endsAt := .undefined

/-- The calls of a `scheduleJob` whose `queue.add` comes out as given. -/
def callsWith (add : Write) : SchedulingCalls where
  lookup := true
  save := .done
  add
  id := "00000000-0000-4000-8000-00000000000b"
  stamp := { id := "1", key := "", now := 0 }

theorem freshId_oneJob (job : Job) (id : Uuid) : FreshId (oneJob job) id where
  row := rfl
  entry q e he := by cases he
  data := rfl

/-- The queue is unreachable when an IMMEDIATE schedule is added: the call
throws and its row stays. -/
theorem unqueued_row_stays :
    ¬ AllOrNothing (oneJob cleanupJob)
      (scheduleJob quietRuntime plainDatabase (callsWith (.threw false))
        (bareDto cleanupJob .immediate) (oneJob cleanupJob)) := by
  intro h
  have hunchanged := h.nothing failedToSchedule rfl
  -- one row against none
  exact absurd (congrArg (fun t => t.rows.length) hunchanged.1) (by decide)

/-- On a store with one job, whatever the request and the calls. -/
theorem scheduleJob_all_or_nothing_oneJob :
    AllOrNothing (oneJob cleanupJob)
        (scheduleJob quietRuntime plainDatabase (callsWith .done)
          (bareDto cleanupJob .immediate) (oneJob cleanupJob)) ↔
      TurnedDown quietRuntime plainDatabase (callsWith .done) (bareDto cleanupJob .immediate)
          (oneJob cleanupJob) ∨
        GoesThrough (callsWith .done) (bareDto cleanupJob .immediate) :=
  scheduleJob_all_or_nothing (freshId_oneJob cleanupJob _)

/-! ## Well-formed schedules -/

/-- What a schedule of its type needs, at the moment `now` it is accepted. -/
structure WellFormed (now : Int) (s : Schedule) : Prop where
  cron : s.scheduleType = .cron →
    ∃ e, s.cronExpression = some e ∧ isValidCronString e = true
  interval : s.scheduleType = .interval → ∃ n, s.intervalSeconds = some n ∧ 60 ≤ n
  once : s.scheduleType = .once → ∃ t, s.scheduledAt = some t ∧ now < t
  window : ∀ a b, s.startsAt = some a → s.endsAt = some b → a < b

/-- `v >= 60`. -/
def atLeastSixty : Value → Bool
  | .num n => Number.le 60 n
  | _ => false

/-- The field its type needs is given, and an interval is long enough. -/
structure ScheduleJobDto.Configured (dto : ScheduleJobDto) : Prop where
  cron : dto.scheduleType = .cron → dto.cronExpression.truthy = true
  interval : dto.scheduleType = .interval → atLeastSixty dto.intervalSeconds = true
  once : dto.scheduleType = .once → dto.scheduledAt.truthy = true

/-- What `validate` found nothing wrong with. -/
structure Validated (rt : Runtime) (dto : ScheduleJobDto) : Prop where
  cron : dto.cronExpression.truthy = true → isValidCronExpression dto.cronExpression = true
  window : dto.startsAt.truthy = true → dto.endsAt.truthy = true →
    (rt.newDate dto.endsAt).le (rt.newDate dto.startsAt) = false
  once : dto.scheduleType = .once → dto.scheduledAt.truthy = true →
    (rt.newDate dto.scheduledAt).le (.ms rt.now) = false

theorem validated_of_validate {rt : Runtime} {dto : ScheduleJobDto}
    (h : dto.validate rt = []) : Validated rt dto := by
  unfold ScheduleJobDto.validate at h
  simp only [List.append_eq_nil_iff, ite_eq_right_iff, List.cons_ne_nil, imp_false,
    Bool.and_eq_true, Bool.not_eq_true', decide_eq_true_eq, not_and] at h
  obtain ⟨⟨⟨hcron, -⟩, hwindow⟩, honce⟩ := h
  exact {
    cron := fun hv => by simpa using hcron hv
    window := fun hs he => by simpa using hwindow ⟨hs, he⟩
    once := fun ht hv => by simpa using honce ⟨ht, hv⟩ }

/-- A row that was not there before is the one the call saved. -/
theorem saved_of_stored {rt : Runtime} {db : Database} {calls : SchedulingCalls}
    {dto : ScheduleJobDto} {st : Store} {s : Schedule}
    (hstored : s ∈ (scheduleJob rt db calls dto st).1.schedules.rows)
    (hnew : s ∉ st.schedules.rows) :
    ∃ job schedules, Saved rt db calls dto st job s schedules := by
  rcases turnedDown_or_saved rt db calls dto st with hdown | ⟨job, s', schedules, hsaved⟩
  · obtain ⟨e, he⟩ := scheduleJob_of_turnedDown hdown
    rw [he] at hstored
    exact absurd hstored hnew
  · have hrows := Keyed.rows_insert hsaved.inserted
    have hmem : s ∈ schedules.rows := by
      cases hsave : calls.save with
      | done => rwa [scheduleJob_of_saveDone hsaved hsave] at hstored
      | threw stored =>
        rw [scheduleJob_of_saveThrew hsaved hsave] at hstored
        cases stored with
        | true => exact hstored
        | false => exact absurd hstored hnew
    rw [hrows] at hmem
    rcases List.mem_cons.mp hmem with rfl | hold
    · exact ⟨job, schedules, hsaved⟩
    · exact absurd hold hnew

/-- An accepted expression is stored as it is. -/
theorem readVarchar_cron {v : Value} {e : String} (h : readVarchar 100 v = some e)
    (hv : isValidCronExpression v = true) : isValidCronString e = true := by
  unfold readVarchar at h
  obtain ⟨text, htext, hcut⟩ := Option.bind_eq_some_iff.mp h
  rw [readText_eq_some htext] at hv
  have hvalid : isValidCronString text = true := hv
  -- what the pattern accepts fits into the column
  rw [if_pos (length_of_isValidCronString hvalid)] at hcut
  rwa [← Option.some.inj hcut]

/-- A falsy interval is no interval of 60 seconds. -/
theorem atLeastSixty_of_falsy {v : Value} (hv : v.truthy = false) : atLeastSixty v = false := by
  cases v with
  | num n =>
    cases n with
    | nan => rfl
    | inf negative => cases negative <;> exact absurd hv (by decide)
    | fin q =>
      have hzero : q = 0 := by
        by_contra hne
        have htrue : (Value.num (.fin q)).truthy = true := by
          simp only [Value.truthy, decide_eq_true_eq]
          exact fun h => hne (Number.fin.inj h)
        rw [htrue] at hv
        cases hv
      rw [hzero]
      decide
  | _ => rfl

theorem atLeastSixty_fin (n : Int) : atLeastSixty (.num (.fin n)) = decide (60 ≤ n) := by
  show decide ((60 : ℚ) ≤ n) = decide (60 ≤ n)
  have hcast : ((60 : ℚ) ≤ n) ↔ 60 ≤ n := by exact_mod_cast Iff.rfl
  rw [decide_eq_decide]
  exact hcast

section Stored

variable {rt : Runtime} {id : Uuid} {dto : ScheduleJobDto} {s : Schedule}

/-- Whether an accepted expression is stored turns on whether one was given. -/
theorem stored_cron_iff (hs : RowOf rt id dto s) (hvalid : Validated rt dto) :
    (∃ e, s.cronExpression = some e ∧ isValidCronString e = true) ↔
      dto.cronExpression.truthy = true := by
  constructor
  · rintro ⟨e, he, -⟩
    by_contra hfalsy
    rw [null_of_falsy hs.cron (by simpa using hfalsy)] at he
    cases he
  · intro hv
    obtain ⟨e, he, hread⟩ := stored_of_truthy hs.cron hv
    exact ⟨e, he, readVarchar_cron hread (hvalid.cron hv)⟩

theorem stored_interval_iff (hs : RowOf rt id dto s) :
    (∃ n, s.intervalSeconds = some n ∧ 60 ≤ n) ↔ atLeastSixty dto.intervalSeconds = true := by
  cases hv : dto.intervalSeconds.truthy with
  | false =>
    rw [null_of_falsy hs.interval hv, atLeastSixty_of_falsy hv]
    simp
  | true =>
    obtain ⟨n, hn, hread⟩ := stored_of_truthy hs.interval hv
    rw [hn, readInteger_eq_some hread, atLeastSixty_fin]
    simp

/-- A time that is not in the future does not get this far. -/
theorem stored_once_iff (hs : RowOf rt id dto s) (hvalid : Validated rt dto)
    (htype : dto.scheduleType = .once) :
    (∃ t, s.scheduledAt = some t ∧ rt.now < t) ↔ dto.scheduledAt.truthy = true := by
  constructor
  · rintro ⟨t, ht, -⟩
    exact (newDate_of_stored (hs.scheduledAt.trans (congrArg some ht))).1
  · intro hv
    obtain ⟨t, ht, hdate⟩ := scheduledTime hs.scheduledAt hv
    have hfuture := hvalid.once htype hv
    rw [hdate, Date.le, decide_eq_false_iff_not] at hfuture
    exact ⟨t, ht, by omega⟩

/-- Two stored bounds are a window. -/
theorem stored_window (hs : RowOf rt id dto s) (hvalid : Validated rt dto) {a b : Int}
    (ha : s.startsAt = some a) (hb : s.endsAt = some b) : a < b := by
  obtain ⟨hstarts, hstart⟩ := newDate_of_stored (hs.startsAt.trans (congrArg some ha))
  obtain ⟨hends, hend⟩ := newDate_of_stored (hs.endsAt.trans (congrArg some hb))
  have hwindow := hvalid.window hstarts hends
  rw [hstart, hend, Date.le, decide_eq_false_iff_not] at hwindow
  omega

end Stored

/-- **Stored schedules.** A row that `scheduleJob` stores is well formed exactly
when the request gave the field its type needs, and an interval of at least 60
seconds. -/
theorem stored_schedule_well_formed {rt : Runtime} {db : Database} {calls : SchedulingCalls}
    {dto : ScheduleJobDto} {st : Store} {s : Schedule}
    (hstored : s ∈ (scheduleJob rt db calls dto st).1.schedules.rows)
    (hnew : s ∉ st.schedules.rows) : WellFormed rt.now s ↔ dto.Configured := by
  obtain ⟨job, schedules, hsaved⟩ := saved_of_stored hstored hnew
  have hs := newSchedule_spec hsaved.row
  have hvalid := validated_of_validate hsaved.valid
  have htype := hs.scheduleType
  constructor
  · intro h
    exact {
      cron := fun ht => (stored_cron_iff hs hvalid).mp (h.cron (htype.trans ht))
      interval := fun ht => (stored_interval_iff hs).mp (h.interval (htype.trans ht))
      once := fun ht => (stored_once_iff hs hvalid ht).mp (h.once (htype.trans ht)) }
  · intro h
    exact {
      cron := fun ht => (stored_cron_iff hs hvalid).mpr (h.cron (htype.symm.trans ht))
      interval := fun ht => (stored_interval_iff hs).mpr (h.interval (htype.symm.trans ht))
      once := fun ht =>
        (stored_once_iff hs hvalid (htype.symm.trans ht)).mpr (h.once (htype.symm.trans ht))
      window := fun a b ha hb => stored_window hs hvalid ha hb }

/-- A ONCE schedule without a time is stored. -/
theorem once_without_time_is_stored :
    ∃ s, s ∈ (scheduleJob quietRuntime plainDatabase (callsWith .done)
        (bareDto cleanupJob .once) (oneJob cleanupJob)).1.schedules.rows ∧
      s ∉ (oneJob cleanupJob).schedules.rows ∧ ¬ WellFormed quietRuntime.now s := by
  refine ⟨_, List.mem_singleton.mpr rfl, List.not_mem_nil, ?_⟩
  intro h
  obtain ⟨t, ht, -⟩ := h.once rfl
  cases ht

/-- Its clock is at 0, and it reads two times of the first hour. -/
def firstHour : Runtime where
  parseJson _ := none
  newDate
    | .str "1970-01-01T00:01:00Z" => .ms 60000
    | .str "1970-01-01T01:00:00Z" => .ms 3600000
    | _ => .invalid
  toISOString _ := ""
  now := 0

/-- Every minute, from the first to the end of the hour. -/
def minuteDto : ScheduleJobDto :=
  { bareDto cleanupJob .interval with
    intervalSeconds := .num (.fin 60)
    startsAt := .str "1970-01-01T00:01:00Z"
    endsAt := .str "1970-01-01T01:00:00Z" }

theorem stored_schedule_well_formed_minute :
    ∃ s ∈ (scheduleJob firstHour plainDatabase (callsWith .done) minuteDto
        (oneJob cleanupJob)).1.schedules.rows,
      s.intervalSeconds = some 60 ∧ s.startsAt = some 60000 ∧ s.endsAt = some 3600000 ∧
        (WellFormed firstHour.now s ↔ minuteDto.Configured) :=
  ⟨_, List.mem_singleton.mpr rfl, rfl, rfl, rfl,
    @stored_schedule_well_formed firstHour plainDatabase (callsWith .done) minuteDto
      (oneJob cleanupJob) _ (List.mem_singleton.mpr rfl) List.not_mem_nil⟩

end SchedulingService.Scheduler
