import SchedulingService.Scheduler.Entity

/-!
# The three queues and `QueueService`

A BullMQ queue is a list of entries. `queue.add` stores one entry under the
`jobId` of its options, or under a generated id when they have none; an id that
is taken is not stored twice. A repeatable entry is listed under its `jobId`
and under a key of its own, and each of its occurrences becomes an entry with a
generated id.

An awaited call may throw. `Write` says whether one that changes something had
taken effect when it did.

* `mem_add` — what one `add` puts where.
* `removeFrom_sublist`, `removeFrom_clears_iff` — what the loop of `removeJob`
  takes out of a queue, by how the calls on it come out.
-/

namespace SchedulingService.Queues

open Js Scheduler

/-- How an awaited call that writes comes out. -/
inductive Write
  | done
  | threw (stored : Bool)

/-- The call returned. -/
def Write.returned : Write → Bool
  | done => true
  | threw _ => false

/-- What it writes is stored. -/
def Write.stored : Write → Bool
  | done => true
  | threw stored => stored

inductive QueueName
  | high
  | medium
  | low
  deriving DecidableEq

def QueueName.text : QueueName → String
  | high => "high-priority"
  | medium => "medium-priority"
  | low => "low-priority"

/-! ## Options -/

/-- BullMQ's `RepeatOptions`, with the key `cron` that the scheduler gives. -/
structure RepeatOptions where
  cron : Option String
  tz : Option String
  every : Option Int
  startDate : Option Int
  endDate : Option Int
  limit : Option Nat
  deriving DecidableEq

/-- BullMQ's `JobsOptions`. -/
structure JobsOptions where
  attempts : Option Nat
  delay : Option Int
  jobId : Option Uuid
  repeatOpts : Option RepeatOptions
  deriving DecidableEq

/-- `{}`. -/
def JobsOptions.none : JobsOptions where
  attempts := .none
  delay := .none
  jobId := .none
  repeatOpts := .none

/-- `{ ...a, ...b }`. -/
def JobsOptions.spread (a b : JobsOptions) : JobsOptions where
  attempts := b.attempts.or a.attempts
  delay := b.delay.or a.delay
  jobId := b.jobId.or a.jobId
  repeatOpts := b.repeatOpts.or a.repeatOpts

/-- The `defaultJobOptions` the queue is registered with. -/
def QueueName.defaultJobOptions (q : QueueName) : JobsOptions :=
  { JobsOptions.none with
    attempts := some (match q with
      | high => 5
      | medium => 3
      | low => 2) }

/-! ## Entries -/

/-- The data of a job named `execute-job`. -/
structure JobData where
  jobId : Uuid
  scheduleId : Uuid
  deriving DecidableEq

structure Entry where
  id : Uuid
  /-- The key a repeatable entry is listed under. -/
  key : String
  name : String
  data : JobData
  opts : JobsOptions
  addedAt : Int
  attemptsMade : Nat
  /-- A worker holds it. -/
  active : Bool
  /-- The instants a repeatable entry has fired at. -/
  fired : List Int
  deriving DecidableEq

/-- The instants a cron expression or an interval produces for an entry added at
a time. -/
abbrev Calendar := RepeatOptions → Int → Int → Bool

namespace Entry

/-- Entered by `add` with a `repeat` option: a source of occurrences, never run
itself. -/
def repeatable (e : Entry) : Bool := e.opts.repeatOpts.isSome

/-- The entry carries the id of schedule `s`. -/
def carries (s : Uuid) (e : Entry) : Bool := e.data.scheduleId = s

/-- From then on a worker may take it. -/
def release (e : Entry) : Int := e.addedAt + e.opts.delay.getD 0

/-- A worker may take it now. -/
def ready (now : Int) (e : Entry) : Bool :=
  !e.repeatable && !e.active && decide (e.release ≤ now)

/-- A repeatable entry fires at the instants of its calendar, once each, that a
start date, an end date or a limit among its options leaves. -/
def firesAt (calendar : Calendar) (t : Int) (e : Entry) : Bool :=
  e.opts.repeatOpts.any fun r =>
    calendar r e.addedAt t && r.startDate.all (· ≤ t) && r.endDate.all (t ≤ ·) &&
      r.limit.all (e.fired.length < ·) && decide (t ∉ e.fired)

/-- A worker takes it. -/
def taken (e : Entry) : Entry :=
  { e with
    active := true
    attemptsMade := e.attemptsMade + 1 }

/-- It waits again. -/
def back (e : Entry) : Entry := { e with active := false }

/-- It has fired at `t`. -/
def noted (t : Int) (e : Entry) : Entry := { e with fired := t :: e.fired }

/-- `e'` is `e` at another moment: only what workers and the calendar do to an
entry may differ. -/
structure Same (e' e : Entry) : Prop where
  id : e'.id = e.id
  key : e'.key = e.key
  name : e'.name = e.name
  data : e'.data = e.data
  opts : e'.opts = e.opts
  addedAt : e'.addedAt = e.addedAt

theorem Same.rfl {e : Entry} : Same e e := ⟨.refl _, .refl _, .refl _, .refl _, .refl _, .refl _⟩

theorem Same.trans {a b c : Entry} (hab : Same a b) (hbc : Same b c) : Same a c :=
  ⟨hab.id.trans hbc.id, hab.key.trans hbc.key, hab.name.trans hbc.name, hab.data.trans hbc.data,
    hab.opts.trans hbc.opts, hab.addedAt.trans hbc.addedAt⟩

theorem same_taken (e : Entry) : Same e.taken e := ⟨rfl, rfl, rfl, rfl, rfl, rfl⟩

theorem same_back (e : Entry) : Same e.back e := ⟨rfl, rfl, rfl, rfl, rfl, rfl⟩

theorem same_noted (t : Int) (e : Entry) : Same (e.noted t) e := ⟨rfl, rfl, rfl, rfl, rfl, rfl⟩

theorem Same.carries {e' e : Entry} (h : Same e' e) (s : Uuid) : e'.carries s = e.carries s := by
  rw [Entry.carries, Entry.carries, h.data]

theorem Same.repeatable {e' e : Entry} (h : Same e' e) : e'.repeatable = e.repeatable := by
  rw [Entry.repeatable, Entry.repeatable, h.opts]

theorem Same.release {e' e : Entry} (h : Same e' e) : e'.release = e.release := by
  rw [Entry.release, Entry.release, h.opts, h.addedAt]

end Entry

/-- What the three queues hold. -/
abbrev Contents := QueueName → List Entry

instance {p : QueueName → Prop} [DecidablePred p] : Decidable (∀ q, p q) :=
  decidable_of_iff (p .high ∧ p .medium ∧ p .low)
    ⟨fun h q => match q with
      | .high => h.1
      | .medium => h.2.1
      | .low => h.2.2,
    fun h => ⟨h .high, h .medium, h .low⟩⟩

/-- All entries that carry the id of schedule `s`. -/
def Contents.carrying (qs : Contents) (s : Uuid) : List Entry :=
  (qs .high ++ qs .medium ++ qs .low).filter (Entry.carries s)

/-- What BullMQ generates for an entry: an id for one without a `jobId`, a key
for a repeatable one, and the time. -/
structure Stamp where
  id : Uuid
  key : String
  now : Int

/-- The entry `queue.add(name, data, opts)` makes. -/
def newEntry (stamp : Stamp) (q : QueueName) (name : String) (data : JobData)
    (opts : JobsOptions) : Entry where
  id := opts.jobId.getD stamp.id
  key := stamp.key
  name
  data
  opts := q.defaultJobOptions.spread opts
  addedAt := stamp.now
  attemptsMade := 0
  active := false
  fired := []

/-- The entry one occurrence of `e` becomes. -/
def occurrence (stamp : Stamp) (e : Entry) : Entry :=
  { e with
    id := stamp.id
    opts := { e.opts with delay := none, repeatOpts := none }
    addedAt := stamp.now
    attemptsMade := 0
    active := false
    fired := [] }

/-- `queue.add(name, data, opts)`: nothing is stored under a `jobId` that is
taken. -/
def Contents.add (qs : Contents) (stamp : Stamp) (q : QueueName) (name : String)
    (data : JobData) (opts : JobsOptions) : Contents :=
  if opts.jobId.any fun jobId => (qs q).any fun e => e.id = jobId then qs
  else Function.update qs q (qs q ++ [newEntry stamp q name data opts])

/-- Under an id that is not taken, or under a generated one, the entry is
stored. -/
theorem Contents.add_eq {qs : Contents} {stamp : Stamp} {q : QueueName} {name : String}
    {data : JobData} {opts : JobsOptions}
    (hfree : ∀ jobId, opts.jobId = some jobId → ∀ e ∈ qs q, e.id ≠ jobId) :
    qs.add stamp q name data opts =
      Function.update qs q (qs q ++ [newEntry stamp q name data opts]) := by
  unfold Contents.add
  rw [if_neg]
  intro htaken
  cases hid : opts.jobId with
  | none => simp [hid] at htaken
  | some jobId =>
    simp only [hid, Option.any_some, List.any_eq_true, decide_eq_true_eq] at htaken
    obtain ⟨e, he, hsame⟩ := htaken
    exact hfree jobId hid e he hsame

/-- `e` becomes `e'`. -/
def Contents.swap (qs : Contents) (q : QueueName) (e e' : Entry) : Contents :=
  Function.update qs q ((qs q).map fun x => if x = e then e' else x)

/-- `e` is gone. -/
def Contents.drop (qs : Contents) (q : QueueName) (e : Entry) : Contents :=
  Function.update qs q ((qs q).filter (· ≠ e))

/-- `e` is put in. -/
def Contents.append (qs : Contents) (q : QueueName) (e : Entry) : Contents :=
  Function.update qs q (qs q ++ [e])

/-- What one `add` puts where. -/
theorem Contents.mem_add {qs : Contents} {stamp : Stamp} {q q' : QueueName} {name : String}
    {data : JobData} {opts : JobsOptions} {e : Entry}
    (he : e ∈ qs.add stamp q name data opts q') :
    e ∈ qs q' ∨ (q' = q ∧ e = newEntry stamp q name data opts) := by
  unfold Contents.add at he
  split at he
  · exact .inl he
  · by_cases hq : q' = q
    · subst hq
      rw [Function.update_self, List.mem_append, List.mem_singleton] at he
      rcases he with he | rfl
      · exact .inl he
      · exact .inr ⟨rfl, rfl⟩
    · rw [Function.update_of_ne hq] at he
      exact .inl he

/-- A first entry for schedule `s` is its only one. -/
theorem Contents.carrying_append {qs : Contents} {s : Uuid} (hnone : qs.carrying s = [])
    (q : QueueName) {e : Entry} (he : e.carries s = true) :
    Contents.carrying (Function.update qs q (qs q ++ [e])) s = [e] := by
  rw [Contents.carrying, List.filter_append, List.filter_append, List.append_eq_nil_iff,
    List.append_eq_nil_iff] at hnone
  obtain ⟨⟨hhigh, hmedium⟩, hlow⟩ := hnone
  cases q <;> simp [Contents.carrying, List.filter_append, hhigh, hmedium, hlow, he]

/-! ## `QueueService` -/

/-- The options `addJob` passes on. -/
def jobOptions (options : JobsOptions) : JobsOptions :=
  ({ JobsOptions.none with attempts := some 3 }).spread options

def addJob (qs : Contents) (stamp : Stamp) (q : QueueName) (jobType : String) (data : JobData)
    (options : JobsOptions) : Contents :=
  qs.add stamp q jobType data (jobOptions options)

/-- The options `addRepeatableJob` passes on. -/
def repeatableOptions (repeatOpts : RepeatOptions) (customJobId : Uuid) : JobsOptions :=
  { JobsOptions.none with
    jobId := some customJobId
    repeatOpts := some repeatOpts }

def addRepeatableJob (qs : Contents) (stamp : Stamp) (q : QueueName) (jobType : String)
    (data : JobData) (repeatOpts : RepeatOptions) (customJobId : Uuid) : Contents :=
  qs.add stamp q jobType data (repeatableOptions repeatOpts customJobId)

/-- How the calls of `removeJob` on one queue come out. -/
structure RemovalCalls where
  getJob : Bool
  remove : Write
  getRepeatableJobs : Bool
  removeRepeatableByKey : Write

/-- All of them answer. -/
def RemovalCalls.fine : RemovalCalls where
  getJob := true
  remove := .done
  getRepeatableJobs := true
  removeRepeatableByKey := .done

/-- `queue.getJob(jobId)`: a repeatable entry is no job. -/
def getJob (entries : List Entry) (jobId : Uuid) : Option Entry :=
  entries.find? fun e => !e.repeatable && decide (e.id = jobId)

/-- The entry of `getRepeatableJobs()` that `find` picks. -/
def findRepeatable (entries : List Entry) (jobId : Uuid) : Option Entry :=
  entries.find? fun e => e.repeatable && (decide (e.id = jobId) || decide (e.key = jobId))

/-- `job.remove()`. -/
def withoutJob (entries : List Entry) (jobId : Uuid) : List Entry :=
  entries.filter fun e => e.repeatable || decide (e.id ≠ jobId)

/-- `removeRepeatableByKey(key)`. -/
def withoutKey (entries : List Entry) (key : String) : List Entry :=
  entries.filter fun e => !e.repeatable || decide (e.key ≠ key)

/-- The body of the loop for one queue: its entries after it, and whether the
loop is left. An error ends the body, not the loop. -/
def removeFrom (entries : List Entry) (jobId : Uuid) (calls : RemovalCalls) :
    List Entry × Bool :=
  if !calls.getJob then (entries, false)
  else match getJob entries jobId with
    | some job =>
      -- an entry that a worker holds is locked, and `remove` throws
      if job.active then (entries, false)
      else (if calls.remove.stored then withoutJob entries jobId else entries,
        calls.remove.returned)
    | none =>
      if !calls.getRepeatableJobs then (entries, false)
      else match findRepeatable entries jobId with
        | some job =>
          (if calls.removeRepeatableByKey.stored then withoutKey entries job.key else entries,
            calls.removeRepeatableByKey.returned)
        | none => (entries, false)

/-- The body for queue `q`, given the id as it was passed; one that is no text
names no entry. -/
def searchQueue (jobId : Value) (calls : RemovalCalls) (q : QueueName) (qs : Contents) :
    Contents × Bool :=
  match jobId with
  | .str id =>
    let (entries, left) := removeFrom (qs q) id calls
    (Function.update qs q entries, left)
  | _ => (qs, false)

/-- The loop over the queues that are left. -/
def removeJobIn (jobId : Value) (calls : QueueName → RemovalCalls) :
    List QueueName → Contents → Contents
  | [], qs => qs
  | q :: rest, qs =>
    let (qs', left) := searchQueue jobId (calls q) q qs
    if left then qs' else removeJobIn jobId calls rest qs'

/-- The queues in the order `removeJob` searches them. -/
def searchOrder : List QueueName := [.high, .medium, .low]

theorem mem_searchOrder (q : QueueName) : q ∈ searchOrder := by
  cases q <;> decide

/-- `removeJob`. That it found nothing is logged, not reported. -/
def removeJob (qs : Contents) (jobId : Value) (calls : QueueName → RemovalCalls) : Contents :=
  removeJobIn jobId calls searchOrder qs

/-! ## What is taken out -/

/-- The calls of the loop on its queue find `e` and take it out. -/
def RemovalCalls.takesOut (calls : RemovalCalls) (e : Entry) : Bool :=
  calls.getJob &&
    if e.repeatable then calls.getRepeatableJobs && calls.removeRepeatableByKey.stored
    else !e.active && calls.remove.stored

/-- How the entries of a queue are named, as far as the id of schedule `s` goes:
ids are distinct, an entry with this id is for `s`, a repeatable one for `s` has
it, and it is no key. -/
structure Named (entries : List Entry) (s : Uuid) : Prop where
  nodup : (entries.map Entry.id).Nodup
  own : ∀ e ∈ entries, e.id = s → e.carries s = true
  source : ∀ e ∈ entries, e.carries s = true → e.repeatable = true → e.id = s
  key : ∀ e ∈ entries, e.key ≠ s

theorem getJob_eq_some {entries : List Entry} {jobId : Uuid} {e : Entry}
    (h : getJob entries jobId = some e) :
    e ∈ entries ∧ e.repeatable = false ∧ e.id = jobId := by
  have hfound := List.find?_some h
  simp only [Bool.and_eq_true, Bool.not_eq_true', decide_eq_true_eq] at hfound
  exact ⟨List.mem_of_find?_eq_some h, hfound⟩

theorem findRepeatable_eq_some {entries : List Entry} {jobId : Uuid} {e : Entry}
    (h : findRepeatable entries jobId = some e) :
    e ∈ entries ∧ e.repeatable = true ∧ (e.id = jobId ∨ e.key = jobId) := by
  have hfound := List.find?_some h
  simp only [Bool.and_eq_true, Bool.or_eq_true, decide_eq_true_eq] at hfound
  exact ⟨List.mem_of_find?_eq_some h, hfound⟩

/-- Nothing else gets in. -/
theorem removeFrom_sublist (entries : List Entry) (jobId : Uuid) (calls : RemovalCalls) :
    (removeFrom entries jobId calls).1.Sublist entries := by
  -- in each branch the entries are what they were, or filtered
  unfold removeFrom
  split
  · exact .refl _
  · split
    · split
      · exact .refl _
      · split
        · exact List.filter_sublist
        · exact .refl _
    · split
      · exact .refl _
      · split
        · split
          · exact List.filter_sublist
          · exact .refl _
        · exact .refl _

section Clears

variable {entries : List Entry} {s : Uuid} {calls : RemovalCalls}

theorem Named.eq_of_id (hnamed : Named entries s) {e e' : Entry} (he : e ∈ entries)
    (he' : e' ∈ entries) (hid : e.id = s) (hid' : e'.id = s) : e = e' :=
  List.inj_on_of_nodup_map hnamed.nodup he he' (hid.trans hid'.symm)

/-- The repeatable entry that is found is the one for `s`. -/
theorem Named.findRepeatable (hnamed : Named entries s) {e : Entry}
    (h : findRepeatable entries s = some e) : e ∈ entries ∧ e.repeatable = true ∧ e.id = s := by
  obtain ⟨hmem, hrep, hid | hkey⟩ := findRepeatable_eq_some h
  · exact ⟨hmem, hrep, hid⟩
  · exact absurd hkey (hnamed.key e hmem)

/-- The loop is left where an entry for `s` was found. -/
theorem exists_of_left (hnamed : Named entries s) (h : (removeFrom entries s calls).2 = true) :
    ∃ e ∈ entries, e.carries s = true := by
  unfold removeFrom at h
  split at h
  · cases h
  · cases hjob : getJob entries s with
    | some job =>
      obtain ⟨hmem, -, hid⟩ := getJob_eq_some hjob
      exact ⟨job, hmem, hnamed.own job hmem hid⟩
    | none =>
      rw [hjob] at h
      simp only at h
      split at h
      · cases h
      · cases hrep : findRepeatable entries s with
        | none => rw [hrep] at h; cases h
        | some job =>
          obtain ⟨hmem, -, hid⟩ := hnamed.findRepeatable hrep
          exact ⟨job, hmem, hnamed.own job hmem hid⟩

/-- What is left of the entries for `s` is what has another id, or what a call
did not take out. -/
theorem mem_removeFrom (hnamed : Named entries s) {e : Entry} (he : e ∈ entries)
    (hcarries : e.carries s = true) :
    e ∈ (removeFrom entries s calls).1 ↔ ¬ (e.id = s ∧ calls.takesOut e = true) := by
  unfold removeFrom RemovalCalls.takesOut
  cases hgetJob : calls.getJob with
  | false => simpa using he
  | true =>
    cases hjob : getJob entries s with
    | some job =>
      -- a job with this id is the only entry with it
      obtain ⟨hmem, hrep, hid⟩ := getJob_eq_some hjob
      by_cases hsame : e.id = s
      · obtain rfl := hnamed.eq_of_id he hmem hsame hid
        cases hactive : e.active with
        | true => simp [hrep, he, hactive]
        | false =>
          cases hstored : calls.remove.stored with
          | true => simp [hrep, withoutJob, hsame, hactive]
          | false => simp [hrep, he, hactive]
      · cases hactive : job.active with
        | true => simp [hsame, he, hactive]
        | false =>
          cases hstored : calls.remove.stored with
          | true => simp [hsame, he, withoutJob, hactive]
          | false => simp [hsame, he, hactive]
    | none =>
      -- no job has this id, so an entry that has it repeats
      have hrepeatable : e.id = s → e.repeatable = true := by
        intro hid
        have hnot := List.find?_eq_none.mp hjob e he
        simpa [hid] using hnot
      cases hlist : calls.getRepeatableJobs with
      | false =>
        simp only [Bool.not_true, Bool.false_eq_true, if_false, Bool.not_false, if_true, he,
          Bool.true_and, Bool.false_and, true_iff, not_and, Bool.not_eq_true]
        intro hid
        rw [if_pos (hrepeatable hid)]
      | true =>
        cases hfound : Queues.findRepeatable entries s with
        | none =>
          have hnot := List.find?_eq_none.mp hfound e he
          have hid : e.id ≠ s := by
            intro hid
            simp [hid, hrepeatable hid] at hnot
          simp [hid, he]
        | some job =>
          obtain ⟨hmem, hrep, hid⟩ := hnamed.findRepeatable hfound
          by_cases hsame : e.id = s
          · obtain rfl := hnamed.eq_of_id he hmem hsame hid
            cases hstored : calls.removeRepeatableByKey.stored with
            | true => simp [hrep, withoutKey, hsame]
            | false => simp [hrep, he]
          · -- an occurrence stays, whatever key is removed
            have hone : e.repeatable = false := by
              cases hrep' : e.repeatable with
              | false => rfl
              | true => exact absurd (hnamed.source e he hcarries hrep') hsame
            cases hstored : calls.removeRepeatableByKey.stored with
            | true => simp [hsame, he, withoutKey, hone]
            | false => simp [hsame, he]

/-- **Removal.** The loop clears a queue of the entries for `s` exactly when each
has the id of `s` as its own and the calls on the queue take it out. -/
theorem removeFrom_clears_iff (hnamed : Named entries s) :
    (∀ e ∈ (removeFrom entries s calls).1, e.carries s = false) ↔
      ∀ e ∈ entries, e.carries s = true → e.id = s ∧ calls.takesOut e = true := by
  constructor
  · intro h e he hcarries
    by_contra hstays
    have hleft := h e ((mem_removeFrom hnamed he hcarries).mpr hstays)
    rw [hcarries] at hleft
    cases hleft
  · intro h e he
    have hmem : e ∈ entries := (removeFrom_sublist entries s calls).subset he
    cases hcarries : e.carries s with
    | false => rfl
    | true => exact absurd (h e hmem hcarries) ((mem_removeFrom hnamed hmem hcarries).mp he)

end Clears

end SchedulingService.Queues
