import SchedulingService.Operations.Shelved
import SchedulingService.Scheduler.Windows

/-!
# Windows and what is put back

An entry that has failed for good stays listed while the window of its schedule ends,
and `retryFailedJobs` puts it back whenever it is called. No worker looks at the window
when it takes it then.

* `Punctual.step` — executions are inside their windows, and what has failed was
  released after the window began;
* `executions_in_window` — every execution is in its schedule's window, in every run
  in which entries are released, picked up and put back inside it.
-/

namespace SchedulingService.Operations

open Js Queues
open Scheduler (Uuid System Window OnTime hasWindow_iff hasWindow_step)

/-! ## The condition -/

/-- An entry is put back while its window lasts, and an entry that comes back from a
stalled worker too often does not come back. -/
def keepsWindows (env : Scheduler.Env) (s : Sys) : Event → Bool
  | .schedule (.stall q e) => decide (MAX_STALLED_COUNT ≤ s.stalls q e.id) ||
      Scheduler.keepsWindows env s.base (.stall q e)
  | .schedule event => Scheduler.keepsWindows env s.base event
  | .retry n id retry =>
    match s.retrying[n]? with
    | some r => !retry.stored || (s.failed r.queue).all fun f => decide (f.entry.id ≠ id) ||
        s.base.hasWindow f.entry.data.scheduleId (·.lasts s.base.now)
    | none => true
  | _ => true

/-! ## The invariant -/

structure Punctual (env : Scheduler.Env) (s : Sys) : Prop where
  sound : Sound env s
  base : Scheduler.Punctual s.base
  failed : ∀ q, ∀ f ∈ s.failed q,
    s.base.hasWindow f.entry.data.scheduleId (·.begun f.entry.release) = true

section Steps

variable {env : Scheduler.Env} {s s' : Sys} {base base' : System} {event : Event}

/-- The same rows have the same windows. -/
theorem hasWindow_aside (h : Aside base base') (id : Uuid) (p : Window → Bool) :
    base'.hasWindow id p = base.hasWindow id p := by
  unfold System.hasWindow
  rw [h.schedules]

theorem onTime_aside (h : Aside base base') {e : Entry} (he : OnTime base e) :
    OnTime base' e where
  begun := by
    rw [hasWindow_aside h]
    exact he.begun
  lasts hidle := by
    rw [hasWindow_aside h, h.now]
    exact he.lasts hidle

/-- Beside the scheduler's steps, only what becomes of the entries matters. -/
theorem punctual_aside (h : Scheduler.Punctual base) (haside : Aside base base')
    (hsane : Scheduler.Sane base')
    (hentries : ∀ q, ∀ e ∈ base'.store.queues q, e.repeatable = false → OnTime base e) :
    Scheduler.Punctual base' where
  sane := hsane
  pending c hc := by
    rw [haside.enqueuing] at hc
    rw [hasWindow_aside haside]
    exact h.pending c hc
  entries q e he hone := onTime_aside haside (hentries q e he hone)
  started id t ht := by
    rw [haside.trace] at ht
    obtain ⟨hknown, hcovers⟩ := h.started id t ht
    refine ⟨?_, ?_⟩
    · unfold System.Known
      rw [haside.schedules]
      exact hknown
    · rw [hasWindow_aside haside]
      exact hcovers

/-- The scheduler takes a step, and what has failed stays. -/
theorem Punctual.base_step (h : Punctual env s) {event : Scheduler.Event}
    (hC : Scheduler.keepsWindows env s.base event = true)
    (hstep : Scheduler.step env s.base event = some s'.base) (hfailed : s'.failed = s.failed)
    (hsound : Sound env s') : Punctual env s' where
  sound := hsound
  base := h.base.step hC hstep
  failed q f hf := by
    rw [hfailed] at hf
    have hknown := (h.sound.shelved q f (mem_listed.mpr (.inr hf))).fits.known
    exact hasWindow_step hstep hknown (h.failed q f hf)

/-- The queues and what has failed only lose. -/
theorem Punctual.aside (h : Punctual env s) (hsound : Sound env s')
    (haside : Aside s.base s'.base)
    (hqueues : ∀ q, ∀ e ∈ s'.base.store.queues q, e ∈ s.base.store.queues q)
    (hfailed : ∀ q, ∀ f ∈ s'.failed q, f ∈ s.failed q) : Punctual env s' where
  sound := hsound
  base := punctual_aside h.base haside hsound.sane fun q e he => h.base.entries q e (hqueues q e he)
  failed q f hf := by
    rw [hasWindow_aside haside]
    exact h.failed q f (hfailed q f hf)

/-- What a worker is done with was on time. -/
theorem Punctual.finish (h : Punctual env s) {q : QueueName} {e : Entry} (type : FinishedType)
    (he : e ∈ s.base.store.queues q) (hactive : e.active = true) :
    Punctual env (s.finish type q e) := by
  have hsound := h.sound.finish type he hactive
  have hbegun := (h.base.entries q e he (h.sound.traceable.begun q e he hactive).1).begun
  have hdrop := drop_sublist s.base.store.queues q e
  cases type with
  | completed =>
    exact h.aside hsound ⟨rfl, rfl, rfl, rfl, rfl⟩ (fun q' x hx => (hdrop q').subset hx)
      fun q' f hf => hf
  | failed =>
    have haside : Aside s.base (s.finish .failed q e).base := ⟨rfl, rfl, rfl, rfl, rfl⟩
    refine ⟨hsound, punctual_aside h.base haside hsound.sane fun q' x hx =>
      h.base.entries q' x ((hdrop q').subset hx), fun q' f hf => ?_⟩
    rw [hasWindow_aside haside]
    rcases Listing.mem_push hf with hf | ⟨rfl, rfl⟩
    · exact h.failed q' f hf
    · exact hbegun

/-- What is put back while its window lasts waits on time. -/
theorem Punctual.putBack (h : Punctual env s) {q : QueueName} {f : Finished}
    (hf : f ∈ s.failed q)
    (hlasts : s.base.hasWindow f.entry.data.scheduleId (·.lasts s.base.now) = true) :
    Punctual env (s.putBack q f) where
  sound := h.sound.putBack hf
  base := by
    refine punctual_aside h.base ⟨rfl, rfl, rfl, rfl, rfl⟩ (h.sound.putBack hf).sane ?_
    intro q' x hx hone
    rcases Scheduler.mem_append hx with hold | ⟨rfl, rfl⟩
    · exact h.base.entries q' x hold hone
    · exact OnTime.back (h.failed q' f hf) hlasts
  failed q' x hx := h.failed q' x (Listing.mem_without hx).1

/-- **Step lemma.** -/
theorem Punctual.step (h : Punctual env s) (hC : keepsWindows env s event = true)
    (hstep : Stepped env s event s') : Punctual env s' := by
  have hsound := h.sound.step hstep
  cases hstep with
  | base event base hfresh hbase hretries hstall hsearch =>
    have hCbase : Scheduler.keepsWindows env s.base event = true := by
      cases event with
      | stall q e => exact absurd rfl (hstall q e)
      | _ => exact hC
    exact h.base_step hCbase hbase rfl hsound
  | stalled q e base he hactive hstalls hbase =>
    -- the limit is not reached, so the entry comes back
    have hcomes : Scheduler.keepsWindows env s.base (.stall q e) = true := by
      rcases Bool.or_eq_true_iff.mp hC with hlimit | hcomes
      · exact absurd (of_decide_eq_true hlimit) (Nat.not_le_of_lt hstalls)
      · exact hcomes
    exact h.base_step hcomes hbase rfl hsound
  | finished event type q e he hactive hends => exact h.finish type he hactive
  | removed n calls scheduleId id q rest f hn hf hid =>
    refine h.aside hsound ?_ ?_ fun q' f hf => (remove_failed s n _ q id _ q').subset hf
    · rw [remove_base]
      exact ⟨rfl, rfl, rfl, rfl, rfl⟩
    · rw [remove_base]
      exact fun q' x hx => hx
  | cleaned q grace clean =>
    exact h.aside hsound ⟨rfl, rfl, rfl, rfl, rfl⟩ (fun q' x hx => hx)
      fun q' f hf => (s.failed.clean_sublist q q' _ grace).subset hf
  | putBack n retry r f left retriedCount hn hf hstored hcount =>
    simp only [keepsWindows, hn, hstored, Bool.not_true, Bool.false_or, List.all_eq_true,
      Bool.or_eq_true, decide_eq_true_eq] at hC
    have hput := h.putBack hf ((hC f hf).resolve_left (by simp))
    exact ⟨hsound, hput.base, hput.failed⟩
  | _ =>
    exact h.aside hsound ⟨rfl, rfl, rfl, rfl, rfl⟩ (fun q' x hx => hx) fun q' f hf => hf

end Steps

/-! ## Runs -/

/-- **Windows.** In a run in which entries are released, picked up and put back inside
the window of their schedule, every execution is started inside it. -/
theorem executions_in_window {env : Scheduler.Env} {s : Sys}
    (h : (machine env).Reachable (fun s e => keepsWindows env s e = true) s) :
    s.base.inWindows = true := by
  have hpunctual : Punctual env s := by
    refine h.invariant (fun s₀ h₀ => ?_) fun s e s' hs hC hstep => hs.step hC (step_cases hstep)
    refine ⟨Initial.sound h₀, ⟨h₀.base.sane, ?_, ?_, ?_⟩, ?_⟩
    · intro c hc
      simp [h₀.base.enqueuing] at hc
    · intro q e he
      exact absurd he h₀.base.no_entry
    · intro id t ht
      simp [h₀.base.trace] at ht
    · intro q f hf
      simp [h₀.failed] at hf
  refine List.all_eq_true.mpr fun o ho => ?_
  cases o with
  | started id t => exact (hpunctual.base.started id t ho).2
  | cancelled id => rfl

/-- An IMMEDIATE schedule that is valid from then on. -/
def fromMinuteOne : Scheduler.ScheduleJobDto :=
  { Scheduler.bareDto Scheduler.cleanupJob .immediate with
    startsAt := .str "1970-01-01T00:01:00.000Z" }

/-- It is run at the epoch. -/
theorem schedule_runs_before_start :
    ∃ s, (machine Scheduler.minuteEnv).Reachable Machine.always s ∧
      s.base.inWindows = false := by
  have hexec : ((machine Scheduler.minuteEnv).exec atRest
      (scheduled (Scheduler.scheduling fromMinuteOne ++
        [.take .medium (Scheduler.immediateEntry 0)]))).map
      (fun s => !s.base.inWindows) = some true := by decide
  obtain ⟨s, hs, htrace⟩ := Machine.Reachable.of_exec (C := Machine.always) initial_atRest
    (fun _ _ _ => trivial) hexec
  exact ⟨s, hs, by simpa using htrace⟩

/-- A minute passes before the queue is asked; then three attempts fail, the entry is put
back, and a fourth is made, all inside the window. -/
theorem executions_in_window_putBack :
    ∃ s : Sys, s.base.trace =
        List.replicate 4 (.started (Scheduler.callsWith .done).id 60000) ∧
      s.base.inWindows = true := by
  let e := Scheduler.immediateEntry 60000
  have hexec : (((machine Scheduler.minuteEnv).restrict
      (keepsWindows Scheduler.minuteEnv)).exec atRest
      (scheduled ([.save fromMinuteOne (Scheduler.callsWith .done), .elapse 60000,
        .enqueue 0 (Scheduler.callsWith .done)] ++ failingForGood e) ++
        [.getFailed .medium, .retry 0 e.id .done] ++
        scheduled [.take .medium e.taken.back.taken.back.taken.back])).map
      (fun s => decide (s.base.trace =
        List.replicate 4 (.started (Scheduler.callsWith .done).id 60000))) = some true := by
    decide
  obtain ⟨s, hs, htrace⟩ := Machine.Reachable.of_restrict initial_atRest hexec
  exact ⟨s, of_decide_eq_true htrace, executions_in_window hs⟩

end SchedulingService.Operations
