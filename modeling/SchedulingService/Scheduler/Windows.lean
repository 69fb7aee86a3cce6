import SchedulingService.Scheduler.Sanity

/-!
# Validity windows

`startsAt` and `endsAt` are checked against each other and stored. Neither is in
the options of an entry, and no worker looks at the row; so the time of an
execution is the time its entry is released at, or a later one.

* `release_newEntry` — when the entry `addToQueue` makes is released;
* `keepsWindows` — what it takes for entries to be released and picked up inside
  their windows;
* `Punctual.step` — then every execution is started inside its own.
-/

namespace SchedulingService.Scheduler

open Js Queues

/-! ## The property -/

/-- `startsAt` and `endsAt`. -/
structure Window where
  startsAt : Option Int
  endsAt : Option Int
  deriving DecidableEq

def Schedule.window (row : Schedule) : Window where
  startsAt := row.startsAt
  endsAt := row.endsAt

/-- The window has begun. -/
def Window.begun (w : Window) (t : Int) : Bool := w.startsAt.all (· ≤ t)

/-- It is not over. -/
def Window.lasts (w : Window) (t : Int) : Bool := w.endsAt.all (t ≤ ·)

def Window.covers (w : Window) (t : Int) : Bool := w.begun t && w.lasts t

/-- The window stored for a schedule is as `p` says. -/
def System.hasWindow (s : System) (id : Uuid) (p : Window → Bool) : Bool :=
  s.store.schedules.rows.all fun row => decide (row.id ≠ id) || p row.window

/-- Every execution was started inside the window of its schedule. -/
def System.inWindows (s : System) : Bool :=
  s.trace.all fun o => match o with
    | .started scheduleId time => s.hasWindow scheduleId (·.covers time)
    | .cancelled _ => true

/-! ## The condition -/

/-- When the entry `addToQueue` makes is released, if it is run itself. -/
def releaseTime (now : Int) (row : Schedule) : Option Int :=
  match row.scheduleType with
  | .immediate => some now
  | .once => row.scheduledAt.map fun scheduledAt => max now scheduledAt
  | .cron => none
  | .interval => none

/-- Entries are released inside the window of their schedule, and it does not end
while one waits for a worker, or before one comes back to the queue. -/
def keepsWindows (env : Env) (s : System) : Event → Bool
  | .enqueue n calls =>
    match s.enqueuing[n]? with
    | some (_, row) => !calls.add.stored || (releaseTime s.now row).all row.window.covers
    | none => true
  | .fire _ e _ => s.hasWindow e.data.scheduleId (·.covers s.now)
  | .elapse d => decide (∀ q, ∀ e ∈ s.store.queues q,
      (e.repeatable || e.active || s.hasWindow e.data.scheduleId (·.lasts (s.now + d))) = true)
  | .settle _ e calls => !retries env s e calls || s.hasWindow e.data.scheduleId (·.lasts s.now)
  | .stall _ e => s.hasWindow e.data.scheduleId (·.lasts s.now)
  | _ => true

/-! ## Rows -/

section Rows

variable {env : Env} {s s' : System} {event : Event} {id : Uuid} {p : Window → Bool}

theorem hasWindow_iff :
    s.hasWindow id p = true ↔
      ∀ row ∈ s.store.schedules.rows, row.id = id → p row.window = true := by
  simp only [System.hasWindow, List.all_eq_true, Bool.or_eq_true, decide_eq_true_eq]
  constructor
  · intro h row hrow hid
    exact (h row hrow).resolve_left (absurd hid)
  · intro h row hrow
    by_cases hid : row.id = id
    · exact .inr (h row hrow hid)
    · exact .inl hid

theorem hasWindow_mono {p' : Window → Bool} (hp : ∀ w, p w = true → p' w = true)
    (h : s.hasWindow id p = true) : s.hasWindow id p' = true :=
  hasWindow_iff.mpr fun row hrow hid => hp _ (hasWindow_iff.mp h row hrow hid)

/-- The window of a saved schedule never changes. -/
theorem hasWindow_step (hstep : step env s event = some s') (hknown : s.Known id)
    (h : s.hasWindow id p = true) : s'.hasWindow id p = true := by
  rw [hasWindow_iff] at h ⊢
  cases step_cases hstep with
  | saved dto calls job row schedules enqueuing hfresh hsaved henqueuing =>
    intro row' hrow' hid
    rw [Keyed.rows_insert hsaved.inserted] at hrow'
    rcases List.mem_cons.mp hrow' with rfl | hold
    · -- the new row has another id
      exact absurd (hid ▸ hknown) (unknown_of_insert hsaved.inserted)
    · exact h row' hold hid
  | deactivated scheduleId calls row removing hfound hremoving =>
    intro row' hrow' hid
    obtain ⟨old, hold, rfl⟩ := List.mem_map.mp hrow'
    by_cases hsame : old.id = row.id
    · -- only `isActive` has changed
      rw [if_pos hsame] at hid ⊢
      exact h row (mem_of_findOneById hfound) hid
    · rw [if_neg hsame] at hid ⊢
      exact h old hold hid
  | _ => exact h

end Rows

/-! ## Entries -/

/-- The entry made for a schedule is released when its type says, or repeats. -/
theorem release_newEntry {stamp : Stamp} {q : QueueName} {data : JobData} {row : Schedule}
    {opts : JobsOptions} (hopts : optionsFor stamp.now row = some opts)
    (hone : (newEntry stamp q "execute-job" data opts).repeatable = false) :
    releaseTime stamp.now row = some (newEntry stamp q "execute-job" data opts).release := by
  unfold optionsFor at hopts
  unfold releaseTime
  cases htype : row.scheduleType with
  | immediate =>
    simp only [htype] at hopts ⊢
    obtain rfl := Option.some.inj hopts
    simp [Entry.release, newEntry, JobsOptions.spread, jobOptions, JobsOptions.none,
      QueueName.defaultJobOptions]
  | once =>
    simp only [htype] at hopts ⊢
    obtain ⟨scheduledAt, hscheduled, rfl⟩ := Option.map_eq_some_iff.mp hopts
    rw [hscheduled]
    -- the delay is what is left until then, and none when it is past
    simp only [Option.map_some, Entry.release, newEntry, JobsOptions.spread, jobOptions,
      Option.some_or, Option.getD_some, Option.some.injEq]
    omega
  | cron =>
    simp only [htype] at hopts
    obtain ⟨cron, -, rfl⟩ := Option.map_eq_some_iff.mp hopts
    -- its entry repeats
    cases hone
  | interval =>
    simp only [htype] at hopts
    obtain ⟨interval, -, rfl⟩ := Option.map_eq_some_iff.mp hopts
    cases hone

theorem le_release {now t : Int} {row : Schedule} (h : releaseTime now row = some t) :
    now ≤ t := by
  unfold releaseTime at h
  cases htype : row.scheduleType with
  | immediate =>
    simp only [htype, Option.some.injEq] at h
    omega
  | once =>
    simp only [htype] at h
    obtain ⟨scheduledAt, -, rfl⟩ := Option.map_eq_some_iff.mp h
    omega
  | cron => simp [htype] at h
  | interval => simp [htype] at h

/-- Where an entry stands: its window has begun when it is released, and lasts as
long as it waits. -/
structure OnTime (s : System) (e : Entry) : Prop where
  begun : s.hasWindow e.data.scheduleId (·.begun e.release) = true
  lasts : e.active = false → s.hasWindow e.data.scheduleId (·.lasts s.now) = true

/-- The invariant. -/
structure Punctual (s : System) : Prop where
  sane : Sane s
  /-- The row of a call under way is the stored one, as far as the window goes. -/
  pending : ∀ c ∈ s.enqueuing, s.hasWindow c.2.id (fun w => decide (w = c.2.window)) = true
  entries : ∀ q, ∀ e ∈ s.store.queues q, e.repeatable = false → OnTime s e
  started : ∀ id t, .started id t ∈ s.trace →
    s.Known id ∧ s.hasWindow id (·.covers t) = true

section Steps

variable {env : Env} {s s' : System} {event : Event}

/-- An entry that does no more than stay stays on time. -/
theorem OnTime.step {e e' : Entry} (h : OnTime s e) (hstep : step env s event = some s')
    (hknown : s.Known e.data.scheduleId) (hnow : s'.now = s.now) (hsame : e'.Same e)
    (hactive : e'.active = false → e.active = false) : OnTime s' e' where
  begun := by
    rw [hsame.data, hsame.release]
    exact hasWindow_step hstep hknown h.begun
  lasts hidle := by
    rw [hsame.data, hnow]
    exact hasWindow_step hstep hknown (h.lasts (hactive hidle))

/-- An entry that is put in inside its window is on time. -/
theorem onTime_of_covers {e : Entry} (hnow : s.now ≤ e.release)
    (h : s.hasWindow e.data.scheduleId (·.covers e.release) = true) : OnTime s e where
  begun := hasWindow_mono (fun w hw => (Bool.and_eq_true_iff.mp hw).1) h
  lasts _ := by
    refine hasWindow_mono (fun w hw => ?_) h
    have hlasts := (Bool.and_eq_true_iff.mp hw).2
    unfold Window.lasts at hlasts ⊢
    cases hend : w.endsAt with
    | none => rfl
    | some b =>
      rw [hend, Option.all_some, decide_eq_true_eq] at hlasts
      exact decide_eq_true (by omega)

/-- What waits again came back before its window ended. -/
theorem OnTime.back {e : Entry} (h : s.hasWindow e.data.scheduleId (·.begun e.release) = true)
    (hlasts : s.hasWindow e.data.scheduleId (·.lasts s.now) = true) : OnTime s e.back :=
  ⟨h, fun _ => hlasts⟩

/-- **Step lemma for the entries.** -/
theorem Punctual.entries_step (h : Punctual s) (hC : keepsWindows env s event = true)
    (hstep : step env s event = some s') {q : QueueName} {e' : Entry}
    (he' : e' ∈ s'.store.queues q) (hone : e'.repeatable = false) : OnTime s' e' := by
  have hstays : ∀ {e : Entry}, e ∈ s.store.queues q → s'.now = s.now → e'.Same e →
      (e'.active = false → e.active = false) → OnTime s' e' := by
    intro e he hnow hsame hactive
    -- it does not repeat either
    refine (h.entries q e he ?_).step hstep (h.sane.known q e he) hnow hsame hactive
    rw [← hsame.repeatable]
    exact hone
  cases step_cases hstep with
  | elapse d =>
    -- windows end as time goes by, and the condition is that this one does not
    refine ⟨(h.entries q e' he' hone).begun, fun hidle => ?_⟩
    have hlasts := of_decide_eq_true hC q e' he'
    rw [hone, hidle, Bool.false_or, Bool.false_or] at hlasts
    exact hlasts
  | enqueued n calls job row stamp queues hn hnow hfresh hqueues =>
    rcases hqueues with rfl | ⟨opts, hstored, hopts, rfl⟩
    · exact hstays he' rfl .rfl id
    · rcases Contents.mem_add he' with hold | ⟨rfl, rfl⟩
      · exact hstays hold rfl .rfl id
      · -- the condition speaks of the row of the call, the entry of the stored one
        have hpending := h.pending (job, row) (List.mem_of_getElem? hn)
        have hrelease := release_newEntry (hnow ▸ hopts) hone
        have hlate := le_release hrelease
        simp only [keepsWindows, hn, hstored, Bool.not_true, Bool.false_or, ← hnow, hrelease,
          Option.all_some] at hC
        have hcovers : s.hasWindow row.id (·.covers
            (newEntry stamp (getQueueName job.priority) "execute-job" ⟨job.id, row.id⟩
              opts).release) = true := by
          refine hasWindow_mono (fun w hw => ?_) hpending
          rw [of_decide_eq_true hw]
          exact hC
        exact onTime_of_covers (hnow ▸ hlate) hcovers
  | searched n calls scheduleId given q' rest hn => exact hstays (mem_search he') rfl .rfl id
  | fired q' e stamp stamp' he hfires hnow hfresh =>
    rcases mem_append he' with hold | ⟨rfl, rfl⟩
    · rcases mem_swap hold with hold | ⟨rfl, -, rfl⟩
      · exact hstays hold rfl .rfl id
      · exact hstays he rfl (Entry.same_noted s.now e) id
    · -- an occurrence is released at once
      have hrelease : (occurrence stamp' e).release = s.now := by
        simp [Entry.release, occurrence, hnow]
      refine onTime_of_covers hrelease.ge ?_
      rw [hrelease]
      exact hC
  | taken q' e trace he hready htrace =>
    rcases mem_swap he' with hold | ⟨rfl, -, rfl⟩
    · exact hstays hold rfl .rfl id
    · exact hstays he rfl (Entry.same_taken e) (fun hidle => by cases hidle)
  | dropped q' e calls he hactive =>
    exact hstays (mem_of_sublist List.filter_sublist he') rfl .rfl id
  | retried q' e calls he hactive hretries =>
    rcases mem_swap he' with hold | ⟨rfl, -, rfl⟩
    · exact hstays hold rfl .rfl id
    · simp only [keepsWindows, hretries, Bool.not_true, Bool.false_or] at hC
      exact OnTime.back (h.entries q e he hone).begun hC
  | stalled q' e he hactive =>
    rcases mem_swap he' with hold | ⟨rfl, -, rfl⟩
    · exact hstays hold rfl .rfl id
    · exact OnTime.back (h.entries q e he hone).begun hC
  | _ => exact hstays he' rfl .rfl id

/-- A worker only takes what is released. -/
theorem OnTime.covers {e : Entry} (h : OnTime s e) (hready : e.ready s.now = true) :
    s.hasWindow e.data.scheduleId (·.covers s.now) = true := by
  simp only [Entry.ready, Bool.and_eq_true, Bool.not_eq_true', decide_eq_true_eq] at hready
  obtain ⟨⟨-, hidle⟩, hreleased⟩ := hready
  -- begun at its release, and now is later
  have hbegun := hasWindow_iff.mp h.begun
  have hlasts := hasWindow_iff.mp (h.lasts hidle)
  refine hasWindow_iff.mpr fun row hrow hid => ?_
  rw [Window.covers, hlasts row hrow hid, Bool.and_true]
  have hstart := hbegun row hrow hid
  unfold Window.begun at hstart ⊢
  cases hstarts : row.window.startsAt with
  | none => rfl
  | some a =>
    rw [hstarts, Option.all_some, decide_eq_true_eq] at hstart
    exact decide_eq_true (by omega)

/-- **Step lemma.** -/
theorem Punctual.step (h : Punctual s) (hC : keepsWindows env s event = true)
    (hstep : step env s event = some s') : Punctual s' where
  sane := h.sane.step hstep
  pending c hc := by
    rcases call_origin hstep hc with hold | ⟨hnew, hrows⟩
    · exact hasWindow_step hstep (h.sane.pending c hold).1 (h.pending c hold)
    · -- the row has just been saved, and is the only one with its id
      refine hasWindow_iff.mpr fun row hrow hid => ?_
      rw [hrows] at hrow
      rcases List.mem_cons.mp hrow with rfl | hrow
      · exact decide_eq_true rfl
      · exact absurd (List.mem_map.mpr ⟨row, hrow, hid⟩) hnew
  entries q e he hone := h.entries_step hC hstep he hone
  started id t ht := by
    have hold : ∀ id t, .started id t ∈ s.trace →
        s'.Known id ∧ s'.hasWindow id (·.covers t) = true := by
      intro id t ht
      obtain ⟨hknown, hcovers⟩ := h.started id t ht
      exact ⟨Known.step hstep hknown, hasWindow_step hstep hknown hcovers⟩
    cases step_cases hstep with
    | resolved n scheduleId given hn =>
      exact hold id t ((List.mem_cons.mp ht).resolve_left (by simp))
    | taken q e trace he hready htrace =>
      rcases htrace with rfl | rfl
      · rcases List.mem_cons.mp ht with hnew | ht
        · obtain ⟨rfl, rfl⟩ := Observation.started.inj hnew
          -- a repeatable entry is not handed to workers
          have hone : e.repeatable = false := by
            simp only [Entry.ready, Bool.and_eq_true, Bool.not_eq_true'] at hready
            exact hready.1.1
          exact ⟨h.sane.known q e he, (h.entries q e he hone).covers hready⟩
        · exact hold id t ht
      · exact hold id t ht
    | _ => exact hold id t ht

end Steps

end SchedulingService.Scheduler
