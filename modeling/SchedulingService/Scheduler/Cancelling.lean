import SchedulingService.Scheduler.Sanity

/-!
# What a cancellation is worth

`cancelSchedule` searches the queues for an entry with the id of the schedule.
An IMMEDIATE entry and an occurrence of a repeatable one have ids of their own;
an entry that a worker holds is locked; and the loop logs what the queue throws
and goes on. Whatever comes of it the call resolves, and a worker that is handed
an entry does not look at the schedule again.

* `takesEverything` — what a cancellation would have to meet;
* `Cleared.step` — a queue without entries for a saved schedule stays without,
  once no call is to put one in;
* `cleared_of_search` — a search that meets the condition leaves its queue so.
-/

namespace SchedulingService.Scheduler

open Js Queues

/-! ## The property -/

/-- `o` may be observed after `older`. -/
def Observation.mayFollow (older : List Observation) : Observation → Bool
  | .started scheduleId _ => decide (.cancelled scheduleId ∉ older)
  | .cancelled _ => true

/-- No execution for a schedule is started once its cancellation has
resolved. -/
def quietAfterCancel : List Observation → Bool
  | [] => true
  | o :: older => o.mayFollow older && quietAfterCancel older

/-! ## The condition -/

/-- The id given is the text of the id found. -/
def namesRow : Value → Schedule → Bool
  | .str id, row => decide (id = row.id)
  | _, _ => false

/-- A cancellation that goes on to the queues names its schedule as it is
stored, and finds no `scheduleJob` for it that has still to ask the queue; and
each search takes out what its queue holds for the schedule. -/
def takesEverything (env : Env) (s : System) : Event → Bool
  | .deactivate scheduleId calls =>
    match findOneById env.db Schedule.id s.store.schedules.rows scheduleId with
    | .ok (some row) => !calls.lookup || !calls.save.returned ||
        (namesRow scheduleId row && s.enqueuing.all fun p => decide (p.2.id ≠ row.id))
    | _ => true
  | .search n calls =>
    match s.removing[n]? with
    | some ⟨scheduleId, _, q :: _⟩ => (s.store.queues q).all fun e =>
        !e.carries scheduleId || decide (e.id = scheduleId) && calls.takesOut e
    | _ => true
  | _ => true

/-! ## A queue without entries for a schedule -/

/-- No `scheduleJob` has still to ask the queue for this saved schedule. -/
structure Retired (s : System) (id : Uuid) : Prop where
  known : s.Known id
  none : ∀ p ∈ s.enqueuing, p.2.id ≠ id

/-- `q` holds nothing for the schedule. -/
def Cleared (s : System) (id : Uuid) (q : QueueName) : Prop :=
  ∀ e ∈ s.store.queues q, e.carries id = false

section Run

variable {env : Env} {s s' : System} {event : Event} {id : Uuid}

theorem Retired.step (h : Retired s id) (hstep : step env s event = some s') :
    Retired s' id where
  known := Known.step hstep h.known
  none p hp := by
    rcases call_origin hstep hp with hold | ⟨hnew, -⟩
    · exact h.none p hold
    · intro hid
      exact hnew (hid ▸ h.known)

/-- **Step lemma.** -/
theorem Cleared.step (hretired : Retired s id) {q : QueueName} (h : Cleared s id q)
    (hstep : step env s event = some s') : Cleared s' id q := by
  intro e' he'
  rcases entry_origin hstep he' with ⟨e, he, hdata⟩ | ⟨p, hp, hid⟩
  · rw [Entry.carries, hdata]
    exact h e he
  · have hne := hretired.none p hp
    rw [← hid] at hne
    exact decide_eq_false hne

/-- The search of one queue leaves it cleared; and if it was the last, because an
entry was found there, the other queues hold none. -/
theorem cleared_of_search (hs : Sane s) (hknown : s.Known id) {q : QueueName}
    {calls : RemovalCalls}
    (htakes : ∀ e ∈ s.store.queues q, e.carries id = true →
      e.id = id ∧ calls.takesOut e = true)
    {queues : Contents} {left : Bool}
    (hsearch : searchQueue (.str id) calls q s.store.queues = (queues, left)) :
    (∀ e ∈ queues q, e.carries id = false) ∧
      (left = true → ∀ q', ∀ e ∈ queues q', e.carries id = false) := by
  have hnamed := hs.named hknown q
  rw [searchQueue, Prod.mk.injEq] at hsearch
  obtain ⟨rfl, rfl⟩ := hsearch
  have hcleared : ∀ e ∈ (removeFrom (s.store.queues q) id calls).1, e.carries id = false :=
    (removeFrom_clears_iff hnamed).mpr htakes
  constructor
  · rwa [Function.update_self]
  · intro hleft q' e he
    by_cases hq : q' = q
    · subst hq
      rw [Function.update_self] at he
      exact hcleared e he
    · rw [Function.update_of_ne hq] at he
      -- one was found in `q`, and all of them are in one queue
      obtain ⟨x, hx, hcarries⟩ := exists_of_left hnamed hleft
      refine decide_eq_false fun hid => hq ?_
      exact hs.oneQueue q' q e he x hx (hid.trans (of_decide_eq_true hcarries).symm)

/-- A cancellation that goes on names its schedule, and none of its entries is still to
come. -/
theorem deactivates_named {scheduleId : Value} {calls : CancellingCalls} {row : Schedule}
    (hC : takesEverything env s (.deactivate scheduleId calls) = true)
    (hfound : findOneById env.db Schedule.id s.store.schedules.rows scheduleId = .ok (some row))
    (hlookup : calls.lookup = true) (hreturned : calls.save.returned = true) :
    scheduleId = .str row.id ∧ Retired s row.id := by
  simp only [takesEverything, hfound, hlookup, hreturned, Bool.not_true, Bool.false_or,
    Bool.and_eq_true, List.all_eq_true, decide_eq_true_eq] at hC
  obtain ⟨hnames, hnone⟩ := hC
  have hknown : s.Known row.id := List.mem_map_of_mem (mem_of_findOneById hfound)
  refine ⟨?_, hknown, hnone⟩
  unfold namesRow at hnames
  split at hnames
  · rw [of_decide_eq_true hnames]
  · cases hnames

end Run

end SchedulingService.Scheduler
