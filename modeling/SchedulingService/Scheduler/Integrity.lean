import SchedulingService.Scheduler.Sanity

/-!
# What the rows and the entries say of each other

No step takes a row of `jobs` or `schedules` away, and of a stored schedule only
`isActive` changes, from true to false. So what a schedule was saved for stays
true of it, and of the entries that were made for it.

* `Kept` — the rows of one state in a later one; `kept_step` and `kept` say that
  steps and runs keep them.
* `Accounted` — an entry of a queue, its schedule and its job fit together.
* `accounted` — in every reachable state, every entry does.
-/

namespace SchedulingService.Scheduler

open Js Queues

/-- A schedule of this type has one entry, which is not repeated. -/
def ScheduleType.oneShot : ScheduleType → Bool
  | immediate => true
  | once => true
  | _ => false

/-! ## Rows stay -/

/-- `row'` is `row` later on. -/
structure Schedule.Becomes (row row' : Schedule) : Prop where
  id : row'.id = row.id
  jobId : row'.jobId = row.jobId
  scheduleType : row'.scheduleType = row.scheduleType
  config : row'.cronExpression = row.cronExpression ∧
    row'.intervalSeconds = row.intervalSeconds ∧ row'.scheduledAt = row.scheduledAt ∧
    row'.timezone = row.timezone
  window : row'.startsAt = row.startsAt ∧ row'.endsAt = row.endsAt
  isActive : row'.isActive = true → row.isActive = true

theorem Schedule.Becomes.rfl {row : Schedule} : row.Becomes row :=
  ⟨.refl _, .refl _, .refl _, ⟨.refl _, .refl _, .refl _, .refl _⟩, ⟨.refl _, .refl _⟩, fun h => h⟩

theorem Schedule.Becomes.trans {a b c : Schedule} (hab : a.Becomes b) (hbc : b.Becomes c) :
    a.Becomes c where
  id := hbc.id.trans hab.id
  jobId := hbc.jobId.trans hab.jobId
  scheduleType := hbc.scheduleType.trans hab.scheduleType
  config := ⟨hbc.config.1.trans hab.config.1, hbc.config.2.1.trans hab.config.2.1,
    hbc.config.2.2.1.trans hab.config.2.2.1, hbc.config.2.2.2.trans hab.config.2.2.2⟩
  window := ⟨hbc.window.1.trans hab.window.1, hbc.window.2.trans hab.window.2⟩
  isActive h := hab.isActive (hbc.isActive h)

/-- Every row of `s` is still there in `s'`. -/
structure Kept (s s' : System) : Prop where
  jobs : ∀ job ∈ s.store.jobs.rows, job ∈ s'.store.jobs.rows
  schedules : ∀ row ∈ s.store.schedules.rows,
    ∃ row' ∈ s'.store.schedules.rows, row.Becomes row'

section Rows

variable {env : Env} {s s' s'' : System}

theorem Kept.rfl : Kept s s := ⟨fun _ h => h, fun row h => ⟨row, h, .rfl⟩⟩

theorem Kept.trans (h : Kept s s') (h' : Kept s' s'') : Kept s s'' where
  jobs job hjob := h'.jobs job (h.jobs job hjob)
  schedules row hrow := by
    obtain ⟨row', hrow', hbecomes⟩ := h.schedules row hrow
    obtain ⟨row'', hrow'', hbecomes'⟩ := h'.schedules row' hrow'
    exact ⟨row'', hrow'', hbecomes.trans hbecomes'⟩

/-- `createJob` keeps the jobs there are. -/
theorem createJob_keeps (db : Database) (id : Uuid) (dto : CreateJobDto) (st : Store) :
    ∀ job ∈ st.jobs.rows, job ∈ (createJob db id dto st).1.jobs.rows := by
  intro job hjob
  unfold createJob
  split
  · exact hjob
  · exact hjob
  · split
    · exact hjob
    · split
      · exact hjob
      · rename_i hinsert
        show job ∈ Keyed.rows _
        rw [Keyed.rows_insert hinsert]
        exact List.mem_cons_of_mem _ hjob

/-- A row that is deactivated keeps all else, and so do the others. -/
theorem becomes_deactivated {t : Keyed Schedule.id} {row : Schedule} (hrow : row ∈ t.rows)
    {x : Schedule} (hx : x ∈ t.rows) :
    ∃ x' ∈ (t.put { row with isActive := false }).rows, x.Becomes x' := by
  by_cases hid : x.id = row.id
  · obtain rfl := t.eq_of_key_eq hx hrow hid
    refine ⟨{ x with isActive := false }, List.mem_map.mpr ⟨x, hx, if_pos (.refl _)⟩, ?_⟩
    exact ⟨.refl _, .refl _, .refl _, ⟨.refl _, .refl _, .refl _, .refl _⟩, ⟨.refl _, .refl _⟩,
      fun h => by cases h⟩
  · exact ⟨x, List.mem_map.mpr ⟨x, hx, if_neg hid⟩, .rfl⟩

/-- **Step lemma.** Only three kinds of step touch a table. -/
theorem kept_step {event : Event} (hstep : step env s event = some s') : Kept s s' := by
  cases step_cases hstep with
  | createJob id dto jobs =>
    have hjobs : jobs = (createJob env.db id dto s.store).1.jobs := by
      have h := Option.some.inj hstep
      exact (congrArg (fun s => s.store.jobs) h).symm
    refine ⟨?_, fun row h => ⟨row, h, .rfl⟩⟩
    show ∀ job ∈ s.store.jobs.rows, job ∈ jobs.rows
    rw [hjobs]
    exact createJob_keeps env.db id dto s.store
  | saved dto calls job row schedules enqueuing hfresh hsaved henqueuing =>
    refine ⟨fun _ h => h, fun x hx => ⟨x, ?_, .rfl⟩⟩
    show x ∈ schedules.rows
    rw [Keyed.rows_insert hsaved.inserted]
    exact List.mem_cons_of_mem _ hx
  | deactivated scheduleId calls row removing hfound hremoving =>
    exact ⟨fun _ h => h, fun x hx => becomes_deactivated (mem_of_findOneById hfound) hx⟩
  | _ => exact ⟨fun _ h => h, fun row h => ⟨row, h, .rfl⟩⟩

/-- **Run lemma.** -/
theorem kept {C : System → Event → Prop} (h : (machine env).Run C s s') : Kept s s' := by
  induction h with
  | refl => exact .rfl
  | tail _ _ hstep ih => exact ih.trans (kept_step hstep)

end Rows

/-! ## Entries fit their rows -/

/-- The attempts of an entry: those `addJob` asks for, or for one that repeats
those its queue was registered with. -/
def attemptsOf (q : QueueName) (scheduleType : ScheduleType) : Nat :=
  if scheduleType.oneShot then 3
  else match q with
    | .high => 5
    | .medium => 3
    | .low => 2

/-- `e` stands in queue `q` for `row`, a schedule of `job`. -/
structure Stands (q : QueueName) (e : Entry) (row : Schedule) (job : Job) : Prop where
  scheduleId : e.data.scheduleId = row.id
  jobId : e.data.jobId = row.jobId
  queue : q = getQueueName job.priority
  owner : row.jobId = job.id
  name : e.name = "execute-job"
  attempts : e.opts.attempts = some (attemptsOf q row.scheduleType)
  repeats : e.repeatable = true → row.scheduleType.oneShot = false

/-- It stands for rows that are stored. -/
def System.Accounted (s : System) (q : QueueName) (e : Entry) : Prop :=
  ∃ row ∈ s.store.schedules.rows, ∃ job ∈ s.store.jobs.rows, Stands q e row job

/-- Every schedule is one of a stored job, every entry stands for stored rows,
and a call that has still to ask the queue has stored its own. -/
structure Whole (s : System) : Prop where
  jobs : ∀ row ∈ s.store.schedules.rows, ∃ job ∈ s.store.jobs.rows, row.jobId = job.id
  entries : ∀ q, ∀ e ∈ s.store.queues q, s.Accounted q e
  calls : ∀ p ∈ s.enqueuing, p.1 ∈ s.store.jobs.rows ∧ p.2.jobId = p.1.id ∧
    ∃ row ∈ s.store.schedules.rows, p.2.Becomes row

section Entries

variable {env : Env} {s s' : System}

theorem Stands.same {q : QueueName} {e e' : Entry} {row : Schedule} {job : Job}
    (h : Stands q e row job) (hsame : e'.Same e) : Stands q e' row job where
  scheduleId := by rw [hsame.data, h.scheduleId]
  jobId := by rw [hsame.data, h.jobId]
  queue := h.queue
  owner := h.owner
  name := by rw [hsame.name, h.name]
  attempts := by rw [hsame.opts, h.attempts]
  repeats hrep := h.repeats (hsame.repeatable ▸ hrep)

theorem Stands.becomes {q : QueueName} {e : Entry} {row row' : Schedule} {job : Job}
    (h : Stands q e row job) (hbecomes : row.Becomes row') : Stands q e row' job where
  scheduleId := by rw [hbecomes.id, h.scheduleId]
  jobId := by rw [hbecomes.jobId, h.jobId]
  queue := h.queue
  owner := by rw [hbecomes.jobId, h.owner]
  name := h.name
  attempts := by rw [hbecomes.scheduleType, h.attempts]
  repeats hrep := by rw [hbecomes.scheduleType, h.repeats hrep]

theorem System.Accounted.kept {q : QueueName} {e : Entry} (h : s.Accounted q e)
    (hkept : Kept s s') : s'.Accounted q e := by
  obtain ⟨row, hrow, job, hjob, hstands⟩ := h
  obtain ⟨row', hrow', hbecomes⟩ := hkept.schedules row hrow
  exact ⟨row', hrow', job, hkept.jobs job hjob, hstands.becomes hbecomes⟩

theorem System.Accounted.same {q : QueueName} {e e' : Entry} (h : s.Accounted q e)
    (hsame : e'.Same e) : s.Accounted q e' := by
  obtain ⟨row, hrow, job, hjob, hstands⟩ := h
  exact ⟨row, hrow, job, hjob, hstands.same hsame⟩

/-- The job that was found is the one the row refers to. -/
theorem job_of_saved {rt : Runtime} {db : Database} {calls : SchedulingCalls}
    {dto : ScheduleJobDto} {st : Store} {job : Job} {row : Schedule}
    {schedules : Keyed Schedule.id} (h : Saved rt db calls dto st job row schedules) :
    row.jobId = job.id := by
  have hrow := h.row
  have hfound := h.found
  simp only [newSchedule, Option.bind_eq_bind, Option.bind_eq_some_iff, Option.some.injEq]
    at hrow
  obtain ⟨jobId, hread, -, -, -, -, -, -, -, -, -, -, -, -, -, -, rfl⟩ := hrow
  -- an id that is missing is refused by the column
  unfold findOneById at hfound
  split at hfound
  case h_1 hv => simp [hv, notNull, column] at hread
  case h_2 hv => simp [hv, notNull, column] at hread
  case h_3 hdefined hnull =>
    have huuid : db.readUuid dto.jobId = some jobId := by
      rw [← hread]
      refine (notNull_of_not_isNullish ?_).symm
      cases hv : dto.jobId with
      | undefined => exact absurd hv hdefined
      | null => exact absurd hv hnull
      | _ => rfl
    rw [huuid] at hfound
    have hid := List.find?_some (Except.ok.inj hfound)
    exact (of_decide_eq_true hid).symm

/-- What `addToQueue` puts in stands for the schedule. -/
theorem stands_newEntry {now : Int} {row : Schedule} {job : Job} {opts : JobsOptions}
    (stamp : Stamp) (hjob : row.jobId = job.id) (hopts : optionsFor now row = some opts) :
    Stands (getQueueName job.priority)
      (newEntry stamp (getQueueName job.priority) "execute-job" ⟨job.id, row.id⟩ opts) row
      job := by
  have hfits : ∀ q : QueueName, (q.defaultJobOptions.spread opts).attempts =
      some (attemptsOf q row.scheduleType) ∧
      ((q.defaultJobOptions.spread opts).repeatOpts.isSome = true →
        row.scheduleType.oneShot = false) := by
    intro q
    unfold optionsFor at hopts
    split at hopts
    case h_1 htype =>
      obtain rfl := Option.some.inj hopts
      rw [htype]
      cases q <;> exact ⟨rfl, fun h => by cases h⟩
    case h_2 htype =>
      obtain ⟨scheduledAt, -, rfl⟩ := Option.map_eq_some_iff.mp hopts
      rw [htype]
      cases q <;> exact ⟨rfl, fun h => by cases h⟩
    -- a repeatable entry asks for no number of attempts
    case h_3 htype =>
      obtain ⟨cronExpression, -, rfl⟩ := Option.map_eq_some_iff.mp hopts
      rw [htype]
      cases q <;> exact ⟨rfl, fun _ => rfl⟩
    case h_4 htype =>
      obtain ⟨intervalSeconds, -, rfl⟩ := Option.map_eq_some_iff.mp hopts
      rw [htype]
      cases q <;> exact ⟨rfl, fun _ => rfl⟩
  obtain ⟨hattempts, hrepeats⟩ := hfits (getQueueName job.priority)
  exact ⟨rfl, hjob.symm, rfl, hjob, rfl, hattempts, hrepeats⟩

/-- An occurrence stands for what its source stands for. -/
theorem Stands.occurrence {q : QueueName} {e : Entry} {row : Schedule} {job : Job}
    (h : Stands q e row job) (stamp : Stamp) :
    Stands q (Queues.occurrence stamp e) row job where
  scheduleId := h.scheduleId
  jobId := h.jobId
  queue := h.queue
  owner := h.owner
  name := h.name
  attempts := h.attempts
  repeats hrep := by cases hrep

/-- A step that changes no table and puts in nothing new. -/
theorem Whole.within (h : Whole s) (hkept : Kept s s')
    (hrows : ∀ row ∈ s'.store.schedules.rows,
      ∃ row₀ ∈ s.store.schedules.rows, row₀.Becomes row)
    (henqueuing : s'.enqueuing.Sublist s.enqueuing)
    (hq : ∀ q, ∀ e' ∈ s'.store.queues q, ∃ e ∈ s.store.queues q, e'.Same e) : Whole s' where
  jobs row hrow := by
    obtain ⟨row₀, hrow₀, hbecomes⟩ := hrows row hrow
    obtain ⟨job, hjob, hid⟩ := h.jobs row₀ hrow₀
    exact ⟨job, hkept.jobs job hjob, hbecomes.jobId.trans hid⟩
  entries q e' he' := by
    obtain ⟨e, he, hsame⟩ := hq q e' he'
    exact ((h.entries q e he).kept hkept).same hsame
  calls p hp := by
    obtain ⟨hjob, hid, row, hrow, hbecomes⟩ := h.calls p (henqueuing.subset hp)
    obtain ⟨row', hrow', hbecomes'⟩ := hkept.schedules row hrow
    exact ⟨hkept.jobs _ hjob, hid, row', hrow', hbecomes.trans hbecomes'⟩

/-! ## Steps and runs -/

/-- **Step lemma.** -/
theorem Whole.step {event : Event} (h : Whole s) (hstep : step env s event = some s') :
    Whole s' := by
  have hkept := kept_step hstep
  -- most steps leave the tables alone and at most work on entries that are there
  have hquiet : s'.store.schedules = s.store.schedules →
      s'.enqueuing.Sublist s.enqueuing → Within s'.store.queues s.store.queues → Whole s' := by
    intro hrows henqueuing hq
    exact h.within hkept (fun row hrow => ⟨row, hrows ▸ hrow, .rfl⟩) henqueuing hq.same
  cases step_cases hstep with
  | elapse d => exact hquiet rfl (.refl _) .rfl
  | createJob id dto jobs => exact hquiet rfl (.refl _) .rfl
  | notSaved dto calls => exact h
  | saved dto calls job row schedules enqueuing hfresh hsaved henqueuing =>
    have hjob : job ∈ s.store.jobs.rows := mem_of_findOneById hsaved.found
    have hid := job_of_saved hsaved
    have hrows : schedules.rows = row :: s.store.schedules.rows :=
      Keyed.rows_insert hsaved.inserted
    constructor
    · intro x hx
      change x ∈ schedules.rows at hx
      rw [hrows, List.mem_cons] at hx
      rcases hx with rfl | hx
      · exact ⟨job, hjob, hid⟩
      · exact h.jobs x hx
    · intro q e he
      exact (h.entries q e he).kept hkept
    · intro p hp
      have hcases : p ∈ s.enqueuing ∨ p = (job, row) := by
        rcases henqueuing with rfl | rfl
        · exact .inl hp
        · rw [List.mem_append, List.mem_singleton] at hp
          exact hp
      rcases hcases with hp | rfl
      · obtain ⟨hmem, hown, x, hx, hbecomes⟩ := h.calls p hp
        obtain ⟨x', hx', hbecomes'⟩ := hkept.schedules x hx
        exact ⟨hmem, hown, x', hx', hbecomes.trans hbecomes'⟩
      · refine ⟨hjob, hid, row, ?_, .rfl⟩
        show row ∈ schedules.rows
        rw [hrows]
        exact List.mem_cons_self
  | enqueued n calls job row stamp queues hn hnow hfresh hqueues =>
    have hsub : (s.enqueuing.eraseIdx n).Sublist s.enqueuing := List.eraseIdx_sublist ..
    rcases hqueues with rfl | ⟨opts, -, hopts, rfl⟩
    · exact hquiet rfl hsub .rfl
    · obtain ⟨hjob, hid, x, hx, hbecomes⟩ := h.calls (job, row) (List.mem_of_getElem? hn)
      refine ⟨h.jobs, fun q e he => ?_, fun p hp => h.calls p (hsub.subset hp)⟩
      rcases Contents.mem_add he with hold | ⟨rfl, rfl⟩
      · exact h.entries q e hold
      · exact ⟨x, hx, job, hjob, (stands_newEntry stamp hid hopts).becomes hbecomes⟩
  | notDeactivated scheduleId calls => exact h
  | deactivated scheduleId calls row removing hfound hremoving =>
    have hqueues : Within s.store.queues s.store.queues := .rfl
    refine h.within hkept (fun x hx => ?_) (.refl _) hqueues.same
    obtain ⟨x₀, hx₀, rfl⟩ := List.mem_map.mp hx
    have hmem : row ∈ s.store.schedules.rows := mem_of_findOneById hfound
    by_cases hid : x₀.id = row.id
    · obtain rfl := s.store.schedules.eq_of_key_eq hx₀ hmem hid
      obtain ⟨x', hx', hbecomes⟩ := becomes_deactivated hmem hmem
      refine ⟨x₀, hmem, ?_⟩
      rw [if_pos rfl]
      exact ⟨rfl, rfl, rfl, ⟨rfl, rfl, rfl, rfl⟩, ⟨rfl, rfl⟩, fun h => by cases h⟩
    · exact ⟨x₀, hx₀, by rw [if_neg hid]; exact .rfl⟩
  | searched n calls scheduleId given q rest hn =>
    exact hquiet rfl (.refl _) (within_search given calls q _)
  | resolved n scheduleId given hn => exact hquiet rfl (.refl _) .rfl
  | fired q e stamp stamp' he hfires hnow hfresh =>
    refine ⟨h.jobs, fun q' x hx => ?_, h.calls⟩
    rcases mem_append hx with hold | ⟨rfl, rfl⟩
    · -- the source has noted the instant
      rcases mem_swap hold with hold | ⟨rfl, -, rfl⟩
      · exact h.entries q' x hold
      · exact (h.entries q' e he).same (Entry.same_noted s.now e)
    · obtain ⟨row, hrow, job, hjob, hstands⟩ := h.entries q' e he
      exact ⟨row, hrow, job, hjob, hstands.occurrence stamp'⟩
  | taken q e trace he hready htrace =>
    exact hquiet rfl (.refl _) (within_swap _ q (Entry.same_taken e))
  | dropped q e calls he hactive => exact hquiet rfl (.refl _) (within_drop _ q e)
  | retried q e calls he hactive hretries =>
    exact hquiet rfl (.refl _) (within_swap _ q (Entry.same_back e))
  | stalled q e he hactive =>
    exact hquiet rfl (.refl _) (within_swap _ q (Entry.same_back e))

theorem Initial.whole {s₀ : System} (h₀ : Initial s₀) : Whole s₀ where
  jobs row hrow := by simp [h₀.schedules] at hrow
  entries q e he := absurd he h₀.no_entry
  calls p hp := by simp [h₀.enqueuing] at hp

/-- **Run lemma.** -/
theorem whole {C : System → Event → Prop} (h : (machine env).Reachable C s) : Whole s :=
  h.invariant (I := Whole) (fun _ h₀ => Initial.whole h₀) fun _ _ _ hs _ hstep => hs.step hstep

/-- **What was scheduled is what runs.** A stored schedule stays stored, for the job
it was saved for, and whatever happens in between, an entry that carries its id
runs that job, from the queue of the job's priority. -/
theorem entries_stand {C : System → Event → Prop} (hs : (machine env).Reachable C s)
    (hrun : (machine env).Run C s s') {row : Schedule} (hrow : row ∈ s.store.schedules.rows) :
    ∃ row' ∈ s'.store.schedules.rows, row.Becomes row' ∧
      ∃ job ∈ s.store.jobs.rows, job ∈ s'.store.jobs.rows ∧ row.jobId = job.id ∧
        ∀ q, ∀ e ∈ s'.store.queues q, e.carries row.id = true → Stands q e row' job := by
  have hkept := kept hrun
  obtain ⟨row', hrow', hbecomes⟩ := hkept.schedules row hrow
  obtain ⟨job, hjob, hid⟩ := (whole hs).jobs row hrow
  have hjob' := hkept.jobs job hjob
  refine ⟨row', hrow', hbecomes, job, hjob, hjob', hid, fun q e he hcarries => ?_⟩
  obtain ⟨x, hx, y, hy, hstands⟩ := (whole (hs.run hrun)).entries q e he
  -- ids are unique in both tables
  have hx' : x.id = row'.id := by
    rw [hbecomes.id, ← of_decide_eq_true hcarries, hstands.scheduleId]
  obtain rfl := s'.store.schedules.eq_of_key_eq hx hrow' hx'
  have hy' : y.id = job.id := by
    rw [← hid, ← hbecomes.jobId, hstands.owner]
  obtain rfl := s'.store.jobs.eq_of_key_eq hy hjob' hy'
  exact hstands

end Entries

/-- An INTERVAL schedule of a job of MEDIUM priority, and its entry. -/
theorem entries_stand_interval :
    ∃ (s : System) (row : Schedule) (e : Entry), e ∈ s.store.queues .medium ∧
      ∃ row' ∈ s.store.schedules.rows, row.Becomes row' ∧ ∃ job, Stands .medium e row' job := by
  have hexec : ((machine smallEnv).exec atRest (scheduling { bareDto cleanupJob .interval with
      intervalSeconds := .num (.fin 60) })).map (fun s => s.store.schedules.rows.any fun row =>
        (s.store.queues .medium).any fun e => e.carries row.id) = some true := by decide
  obtain ⟨s, hs, hthere⟩ := Machine.Reachable.of_exec (C := Machine.always) initial_atRest
    (fun _ _ _ => trivial) hexec
  simp only [List.any_eq_true] at hthere
  obtain ⟨row, hrow, e, he, hcarries⟩ := hthere
  obtain ⟨row', hrow', hbecomes, job, -, -, -, hstands⟩ := entries_stand hs .refl hrow
  exact ⟨s, row, e, he, row', hrow', hbecomes, job, hstands .medium e he hcarries⟩

end SchedulingService.Scheduler
