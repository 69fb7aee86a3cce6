import SchedulingService.Operations.Shelved
import SchedulingService.Scheduler.Cancelling

/-!
# A cancellation and what has failed

An entry that has failed for good is in none of the queues that workers take from,
and still it may be run: `retryFailedJobs` puts it back, and no one looks at its
schedule then either. `removeJob` finds it under its id, like any other, and not if it
is the entry of an IMMEDIATE schedule or an occurrence.

So a schedule is done with when its queues neither hold an entry for it nor list one
that has failed.

* `Emptied.step` — a queue that is done with a schedule stays so;
* `no_execution_after_cancel` — no execution follows a cancellation, in every run in
  which each search takes out what its queue holds and lists for the schedule.
-/

namespace SchedulingService.Operations

open Js Queues
open Scheduler (Uuid System Removal Observation Retired Cleared quietAfterCancel)

/-! ## The condition -/

/-- A search takes out what its queue lists as failed for the schedule. -/
def takesFailed (s : Sys) : Scheduler.Event → Bool
  | .search n calls =>
    match s.base.removing[n]? with
    | some ⟨scheduleId, _, q :: _⟩ => (s.failed q).all fun f =>
        !f.entry.carries scheduleId ||
          decide (f.entry.id = scheduleId) && (calls.getJob && calls.remove.stored)
    | _ => true
  | _ => true

/-- And a cancellation does with the queues what it should. -/
def takesEverything (env : Scheduler.Env) (s : Sys) : Event → Bool
  | .schedule event => Scheduler.takesEverything env s.base event && takesFailed s event
  | _ => true

/-! ## The invariant -/

/-- `q` has nothing for the schedule that is run, or may be put back. -/
structure Emptied (s : Sys) (id : Uuid) (q : QueueName) : Prop where
  held : Cleared s.base id q
  failed : ∀ f ∈ s.failed q, f.entry.carries id = false

structure Quiet (env : Scheduler.Env) (s : Sys) : Prop where
  sound : Sound env s
  /-- A cancellation under way has emptied the queues it has left. -/
  removing : ∀ r ∈ s.base.removing, r.given = .str r.scheduleId ∧ Retired s.base r.scheduleId ∧
    ∀ q, q ∉ r.left → Emptied s r.scheduleId q
  cancelled : ∀ id, .cancelled id ∈ s.base.trace → Retired s.base id ∧ ∀ q, Emptied s id q
  quiet : quietAfterCancel s.base.trace = true

section Steps

variable {env : Scheduler.Env} {s s' : Sys} {event : Event} {id : Uuid} {q : QueueName}

theorem retired_step (h : Retired s.base id) (hstep : Stepped env s event s') :
    Retired s'.base id := by
  rcases hstep.scheduler_or with ⟨event', -, hbase⟩ | haside
  · exact h.step hbase
  · refine ⟨?_, ?_⟩
    · unfold System.Known
      rw [haside.schedules]
      exact h.known
    · rw [haside.enqueuing]
      exact h.none

/-- **Step lemma.** Only `scheduleJob` makes entries, and only what is listed is put
back. -/
theorem Emptied.step (hretired : Retired s.base id) (h : Emptied s id q)
    (hstep : Stepped env s event s') : Emptied s' id q := by
  cases hstep with
  | base event base hfresh hstep hretries hstall hsearch =>
    exact ⟨h.held.step hretired hstep, h.failed⟩
  | stalled q' e base he hactive hstalls hstep => exact ⟨h.held.step hretired hstep, h.failed⟩
  | finished event type q' e he hactive hends =>
    have hdrop := drop_sublist s.base.store.queues q' e q
    have hheld : ∀ x ∈ s.base.store.queues.drop q' e q, x.carries id = false :=
      fun x hx => h.held x (hdrop.subset hx)
    cases type with
    | completed => exact ⟨hheld, h.failed⟩
    | failed =>
      refine ⟨hheld, fun f hf => ?_⟩
      rcases Listing.mem_push hf with hold | ⟨rfl, rfl⟩
      · exact h.failed f hold
      · -- it was in the queue
        exact h.held e he
  | removed n calls scheduleId id' q' rest f hn hf hid =>
    refine ⟨?_, fun f hf => h.failed f ((remove_failed s n _ q' id' _ q).subset hf)⟩
    rw [remove_base]
    exact h.held
  | cleaned q' grace clean =>
    exact ⟨h.held, fun f hf => h.failed f ((s.failed.clean_sublist q' q _ grace).subset hf)⟩
  | putBack n retry r f left retriedCount hn hf hstored hcount =>
    refine ⟨fun x hx => ?_, fun x hx => h.failed x (Listing.mem_without hx).1⟩
    rcases Scheduler.mem_append hx with hold | ⟨rfl, rfl⟩
    · exact h.held x hold
    · exact h.failed f hf
  | _ => exact ⟨h.held, h.failed⟩

/-- What is under way or resolved stays as it is, whatever else happens. -/
theorem Quiet.old (h : Quiet env s) (hstep : Stepped env s event s') :
    (∀ r ∈ s.base.removing, r.given = .str r.scheduleId ∧ Retired s'.base r.scheduleId ∧
      ∀ q, q ∉ r.left → Emptied s' r.scheduleId q) ∧
    (∀ id, .cancelled id ∈ s.base.trace → Retired s'.base id ∧ ∀ q, Emptied s' id q) := by
  constructor
  · intro r hr
    obtain ⟨hgiven, hretired, hemptied⟩ := h.removing r hr
    exact ⟨hgiven, retired_step hretired hstep,
      fun q hq => (hemptied q hq).step hretired hstep⟩
  · intro id hid
    obtain ⟨hretired, hemptied⟩ := h.cancelled id hid
    exact ⟨retired_step hretired hstep, fun q => (hemptied q).step hretired hstep⟩

/-! ## Searches -/

/-- An entry that is listed under the id of a saved schedule is for it. -/
theorem Sound.own (h : Sound env s) (hknown : s.base.Known id) {f : Finished}
    (hf : f ∈ s.listed q) (hid : f.entry.id = id) : f.entry.data.scheduleId = id := by
  have hshelved := h.shelved q f hf
  rw [← hshelved.fits.own (hid ▸ hknown), hid]

/-- So what else there is for the schedule is in the same queue. -/
theorem Sound.emptied_of_ne (h : Sound env s) {x : Entry} (hx : s.base.Accounted q x)
    (hlive : ∀ q', ∀ e ∈ s.base.store.queues q', e.data.scheduleId = x.data.scheduleId → q' = q)
    (hid : x.data.scheduleId = id) {q' : QueueName} (hne : q' ≠ q) : Emptied s id q' := by
  constructor
  · intro e he
    exact decide_eq_false fun hcarries => hne (hlive q' e he (hcarries.trans hid.symm))
  · intro f hf
    refine decide_eq_false fun hcarries => hne ?_
    have hstands := (h.shelved q' f (mem_listed.mpr (.inr hf))).stands
    exact queue_of_accounted hx hstands (hcarries.trans hid.symm)

/-- What the condition says of one search. -/
theorem takes_of_search {n : Nat} {calls : RemovalCalls} {given : Value}
    {rest : List QueueName}
    (hC : takesEverything env s (.schedule (.search n calls)) = true)
    (hn : s.base.removing[n]? = some ⟨id, given, q :: rest⟩) :
    (∀ e ∈ s.base.store.queues q, e.carries id = true →
      e.id = id ∧ calls.takesOut e = true) ∧
    ∀ f ∈ s.failed q, f.entry.carries id = true →
      f.entry.id = id ∧ calls.getJob = true ∧ calls.remove.stored = true := by
  simp only [takesEverything, Scheduler.takesEverything, takesFailed, hn, List.all_eq_true,
    Bool.or_eq_true, Bool.not_eq_true', Bool.and_eq_true, decide_eq_true_eq] at hC
  obtain ⟨hheld, hfailed⟩ := hC
  constructor
  · intro e he hcarries
    rcases hheld e he with hnot | htakes
    · rw [hcarries] at hnot
      cases hnot
    · exact htakes
  · intro f hf hcarries
    rcases hfailed f hf with hnot | htakes
    · rw [hcarries] at hnot
      cases hnot
    · exact htakes

/-- A search that finds no entry that is listed empties its queue, and if it is the
last, it found one there and the other queues have none. -/
theorem Quiet.search_empties (h : Quiet env s) {n : Nat} {calls : RemovalCalls}
    (hC : takesEverything env s (.schedule (.search n calls)) = true) {rest : List QueueName}
    (hn : s.base.removing[n]? = some ⟨id, .str id, q :: rest⟩)
    (hlisted : calls.getJob = true → ∀ f ∈ s.listed q, f.entry.id ≠ id)
    {base : System} (hqueues : base.store.queues = (searchQueue (.str id) calls q
      s.base.store.queues).1) {q' : QueueName}
    (hq' : q' ∉ if (searchQueue (.str id) calls q s.base.store.queues).2 then [] else rest) :
    Emptied { s with base } id q' := by
  obtain ⟨-, hretired, hemptied⟩ := h.removing _ (List.mem_of_getElem? hn)
  obtain ⟨hheld, hfailed⟩ := takes_of_search hC hn
  have hnamed := h.sound.sane.named hretired.known q
  obtain ⟨hthis, hall⟩ := Scheduler.cleared_of_search h.sound.sane hretired.known hheld rfl
  -- what has failed for it would have been found
  have hnone : ∀ f ∈ s.failed q, f.entry.carries id = false := by
    intro f hf
    by_contra hcarries
    obtain ⟨hid, hgetJob, -⟩ := hfailed f hf (by simpa using hcarries)
    exact hlisted hgetJob f (mem_listed.mpr (.inr hf)) hid
  by_cases hq : q' = q
  · subst hq
    refine ⟨fun e he => ?_, hnone⟩
    rw [hqueues] at he
    exact hthis e he
  · have hsame : base.store.queues q' = s.base.store.queues q' := by
      rw [hqueues]
      exact Function.update_of_ne hq _ _
    have hwas : Emptied s id q' := by
      cases hleft : (searchQueue (.str id) calls q s.base.store.queues).2 with
      | true =>
        -- the loop is left here, the other queues unsearched
        obtain ⟨x, hx, hcarries⟩ := exists_of_left hnamed hleft
        have hstands := h.sound.traceable.whole.entries q x hx
        refine h.sound.emptied_of_ne hstands ?_ (of_decide_eq_true hcarries) hq
        exact fun q₁ e he hid => h.sound.sane.oneQueue q₁ q e he x hx hid
      | false =>
        rw [hleft] at hq'
        exact hemptied q' (by simpa [hq] using hq')
    refine ⟨fun e he => ?_, hwas.failed⟩
    rw [hsame] at he
    exact hwas.held e he

/-- One that finds an entry that is listed takes it out, and there is no other. -/
theorem Quiet.removal_empties (h : Quiet env s) {n : Nat} {calls : RemovalCalls}
    (hC : takesEverything env s (.schedule (.search n calls)) = true) {rest : List QueueName}
    (hn : s.base.removing[n]? = some ⟨id, .str id, q :: rest⟩) {f : Finished}
    (hf : f ∈ s.listed q) (hid : f.entry.id = id) {removal : Removal} {q' : QueueName}
    (hq' : q' ∉ if calls.remove.returned then [] else rest) :
    Emptied (s.remove n removal q id calls.remove.stored) id q' := by
  obtain ⟨-, hretired, hemptied⟩ := h.removing _ (List.mem_of_getElem? hn)
  obtain ⟨hheld, hfailed⟩ := takes_of_search hC hn
  have hshelved := h.sound.shelved q f hf
  have hcarries := h.sound.own hretired.known hf hid
  by_cases hq : q' = q
  · subst hq
    constructor
    · rw [remove_base]
      intro e he
      by_contra hcarries'
      -- it would have the id of the one that is listed
      have hsame := (hheld e he (by simpa using hcarries')).1
      exact hshelved.fits.fresh e he (hsame.trans hid.symm)
    · intro x hx
      have hxold := (remove_failed s n removal q' id calls.remove.stored q').subset hx
      by_contra hcarries'
      obtain ⟨hxid, -, hstored⟩ := hfailed x hxold (by simpa using hcarries')
      rw [hstored] at hx
      have hx' : x ∈ s.failed.without q' id q' := hx
      exact (Listing.mem_without hx').2 rfl hxid
  · have hwas : Emptied s id q' := by
      cases hreturned : calls.remove.returned with
      | true =>
        exact h.sound.emptied_of_ne hshelved.stands hshelved.fits.queue hcarries hq
      | false =>
        rw [hreturned] at hq'
        exact hemptied q' (by simpa [hq] using hq')
    refine ⟨?_, fun x hx => hwas.failed x ((remove_failed s n removal q id _ q').subset hx)⟩
    rw [remove_base]
    exact hwas.held

/-! ## Steps and runs -/

/-- A step of the scheduler. -/
theorem Quiet.base_step (h : Quiet env s) {event : Scheduler.Event} {base : System}
    (hC : takesEverything env s (.schedule event) = true)
    (hstepped : Stepped env s (.schedule event) { s with base })
    (hstep : Scheduler.step env s.base event = some base)
    (hsearch : ∀ n calls scheduleId id q rest, event = .search n calls →
      s.base.removing[n]? = some ⟨scheduleId, .str id, q :: rest⟩ → calls.getJob = true →
        ∀ f ∈ s.listed q, f.entry.id ≠ id) : Quiet env { s with base } := by
  have hsound := h.sound.step hstepped
  obtain ⟨hremoving, hcancelled⟩ := h.old hstepped
  have hCbase : Scheduler.takesEverything env s.base event = true :=
    (Bool.and_eq_true_iff.mp hC).1
  cases Scheduler.step_cases hstep with
  | deactivated scheduleId calls row removing hfound hnew =>
    refine ⟨hsound, ?_, hcancelled, h.quiet⟩
    rcases hnew with rfl | ⟨hlookup, hreturned, rfl⟩
    · -- the call has rejected
      exact hremoving
    · intro r hr
      rcases List.mem_append.mp hr with hr | hr
      · exact hremoving r hr
      · obtain rfl := List.mem_singleton.mp hr
        obtain ⟨hgiven, hretired⟩ :=
          Scheduler.deactivates_named hCbase hfound hlookup hreturned
        refine ⟨hgiven, hretired.step hstep, fun q hq => ?_⟩
        -- no queue has been left yet
        exact absurd (mem_searchOrder q) hq
  | searched n calls scheduleId given q rest hn =>
    refine ⟨hsound, ?_, hcancelled, h.quiet⟩
    intro r hr
    rcases List.mem_or_eq_of_mem_set hr with hr | rfl
    · exact hremoving r hr
    · obtain ⟨hgiven, hretired, -⟩ := hremoving _ (List.mem_of_getElem? hn)
      obtain rfl : given = .str scheduleId := hgiven
      refine ⟨rfl, hretired, fun q' hq' => h.search_empties hC hn ?_ rfl hq'⟩
      exact hsearch n calls scheduleId scheduleId q rest rfl hn
  | resolved n scheduleId given hn =>
    refine ⟨hsound, fun r hr => hremoving r (List.mem_of_mem_eraseIdx hr), ?_, h.quiet⟩
    intro id hid
    rcases List.mem_cons.mp hid with hid | hid
    · -- no queue is left to it, so all are emptied
      obtain ⟨-, hretired, hemptied⟩ := hremoving _ (List.mem_of_getElem? hn)
      obtain rfl := Observation.cancelled.inj hid
      exact ⟨hretired, fun q => hemptied q List.not_mem_nil⟩
    · exact hcancelled id hid
  | taken q e trace he hready htrace =>
    refine ⟨hsound, hremoving, ?_, ?_⟩
    · intro id hid
      rcases htrace with rfl | rfl
      · exact hcancelled id ((List.mem_cons.mp hid).resolve_left (by simp))
      · exact hcancelled id hid
    · rcases htrace with rfl | rfl
      · show quietAfterCancel (_ :: s.base.trace) = true
        rw [quietAfterCancel, h.quiet, Bool.and_true]
        refine decide_eq_true fun hgone => ?_
        -- the entry itself is for the schedule
        obtain ⟨-, hemptied⟩ := h.cancelled _ hgone
        have hnot := (hemptied q).held e he
        rw [Entry.carries, decide_eq_false_iff_not] at hnot
        exact hnot rfl
      · exact h.quiet
  | _ => exact ⟨hsound, hremoving, hcancelled, h.quiet⟩

/-- **Step lemma.** -/
theorem Quiet.step (h : Quiet env s) (hC : takesEverything env s event = true)
    (hstep : Stepped env s event s') : Quiet env s' := by
  have hsound := h.sound.step hstep
  obtain ⟨hremoving, hcancelled⟩ := h.old hstep
  cases hstep with
  | base event base hfresh hbase hretries hstall hsearch =>
    exact h.base_step hC (.base event base hfresh hbase hretries hstall hsearch) hbase hsearch
  | stalled q e base he hactive hstalls hbase =>
    -- the entry stays, and nothing else changes
    cases Scheduler.step_cases hbase
    exact ⟨hsound, hremoving, hcancelled, h.quiet⟩
  | finished event type q e he hactive hends =>
    cases type <;> exact ⟨hsound, hremoving, hcancelled, h.quiet⟩
  | removed n calls scheduleId id q rest f hn hf hid =>
    have hgiven := (h.removing _ (List.mem_of_getElem? hn)).1
    obtain rfl := Value.str.inj hgiven
    refine ⟨hsound, ?_, ?_, ?_⟩
    · rw [remove_base] at hremoving ⊢
      intro r hr
      rcases List.mem_or_eq_of_mem_set hr with hr | rfl
      · exact hremoving r hr
      · have hretired := (hremoving _ (List.mem_of_getElem? hn)).2.1
        exact ⟨rfl, hretired, fun q' hq' => h.removal_empties hC hn hf hid hq'⟩
    · rw [remove_base] at hcancelled ⊢
      exact hcancelled
    · rw [remove_base]
      exact h.quiet
  | _ => exact ⟨hsound, hremoving, hcancelled, h.quiet⟩

end Steps

/-- **Cancellation.** In a run in which every cancellation takes out what the queues
hold and list for its schedule, no execution of a schedule is started once its
cancellation has resolved, whatever is paused, cleaned or put back. -/
theorem no_execution_after_cancel {env : Scheduler.Env} {s : Sys}
    (h : (machine env).Reachable (fun s e => takesEverything env s e = true) s) :
    quietAfterCancel s.base.trace = true := by
  have hquiet : Quiet env s := by
    refine h.invariant (fun s₀ h₀ => ?_) fun s e s' hs hC hstep => hs.step hC (step_cases hstep)
    refine ⟨Initial.sound h₀, ?_, ?_, ?_⟩
    · intro r hr
      simp [h₀.base.removing] at hr
    · intro id hid
      simp [h₀.base.trace] at hid
    · rw [h₀.base.trace]
      rfl
  exact hquiet.quiet

/-- An IMMEDIATE schedule is cancelled while its entry waits, and then run. -/
theorem cancelled_schedule_runs :
    ∃ s, (machine Scheduler.smallEnv).Reachable Machine.always s ∧
      quietAfterCancel s.base.trace = false := by
  have hexec : ((machine Scheduler.smallEnv).exec atRest
      (scheduled (Scheduler.scheduling (Scheduler.bareDto Scheduler.cleanupJob .immediate) ++
        Scheduler.cancelling (Scheduler.callsWith .done).id 3 ++
          [.take .medium (Scheduler.immediateEntry 0)]))).map
      (fun s => !quietAfterCancel s.base.trace) = some true := by decide
  obtain ⟨s, hs, htrace⟩ := Machine.Reachable.of_exec (C := Machine.always) initial_atRest
    (fun _ _ _ => trivial) hexec
  exact ⟨s, hs, by simpa using htrace⟩

/-- A ONCE schedule fails for good and is cancelled: its entry is taken off the list, and
`retryFailedJobs` finds none. -/
theorem no_execution_after_cancel_failed :
    ∃ s : Sys, .cancelled (Scheduler.callsWith .done).id ∈ s.base.trace ∧
      .failed (Scheduler.callsWith .done).id ∈ s.notices ∧ .retried 0 ∈ s.notices ∧
      quietAfterCancel s.base.trace = true := by
  have hexec : (((machine Scheduler.minuteEnv).restrict
      (takesEverything Scheduler.minuteEnv)).exec atRest
      (scheduled (Scheduler.scheduling onceDto ++ [.elapse 60000] ++ failingForGood onceEntry ++
        Scheduler.cancelling (Scheduler.callsWith .done).id 2) ++
          [.getFailed .medium, .retried 0])).map
      (fun s => decide (.cancelled (Scheduler.callsWith .done).id ∈ s.base.trace ∧
        .failed (Scheduler.callsWith .done).id ∈ s.notices ∧ .retried 0 ∈ s.notices)) =
      some true := by
    decide
  obtain ⟨s, hs, hthere⟩ := Machine.Reachable.of_restrict initial_atRest hexec
  obtain ⟨hcancelled, hfailed, hretried⟩ := of_decide_eq_true hthere
  exact ⟨s, hcancelled, hfailed, hretried, no_execution_after_cancel hs⟩

end SchedulingService.Operations
