import SchedulingService.Operations.System

/-!
# What has failed is kept

An entry that has failed for good is listed until it is put back, cleaned, cancelled
under its id, or pushed out by newer ones. It can be put back at any time, so whatever
happens to the queues meanwhile, it has to fit into its queue again.

* `Shelved` — what holds of an entry that has failed; `Shelved.step` keeps it along the
  steps of the scheduler.
* `Sound` — the lists fit the queues they belong to; `sound` — they do in every state
  that is reached.
-/

namespace SchedulingService.Operations

open Js Queues
open Scheduler (Uuid System Sane Traceable Within Fits keysFresh)

/-! ## The scheduler's steps -/

section Scheduler

variable {env : Scheduler.Env} {s s' : System} {event : Scheduler.Event} {q : QueueName}
  {e x : Entry}

/-- Where an entry that is in a queue after a step comes from. -/
inductive Origin (s : System) (q : QueueName) (x : Entry) : Scheduler.Event → Prop
  | same {event : Scheduler.Event} (e : Entry) (he : e ∈ s.store.queues q) (hsame : x.Same e) :
      Origin s q x event
  | enqueued {n : Nat} {calls : Scheduler.SchedulingCalls} (p : Scheduler.Job × Scheduler.Schedule)
      (hp : p ∈ s.enqueuing) (hdata : x.data.scheduleId = p.2.id)
      (hid : x.id = p.2.id ∨ x.id = calls.stamp.id) : Origin s q x (.enqueue n calls)
  | fired {e : Entry} {stamp : Stamp} (he : e ∈ s.store.queues q) (hdata : x.data = e.data)
      (hid : x.id = stamp.id) : Origin s q x (.fire q e stamp)

/-- An occurrence is put in under the id BullMQ generated. -/
theorem fire_adds {stamp : Stamp} (hstep : Scheduler.step env s (.fire q e stamp) = some s') :
    s'.store.queues = (s.store.queues.swap q e (e.noted s.now)).append q
      (occurrence { stamp with now := s.now } e) := by
  simp only [Scheduler.step] at hstep
  split at hstep
  · rw [← Option.some.inj hstep]
    rfl
  · cases hstep

theorem origin (hstep : Scheduler.step env s event = some s') (hx : x ∈ s'.store.queues q) :
    Origin s q x event := by
  have hwithin : Within s'.store.queues s.store.queues → Origin s q x event := by
    intro h
    obtain ⟨e, he, hsame⟩ := h.same q x hx
    exact .same e he hsame
  cases Scheduler.step_cases hstep with
  | enqueued n calls job row stamp queues hn hnow hfresh hqueues =>
    rcases Scheduler.enqueue_adds hstep with hsame | ⟨p, hp, opts, hopts, hadd⟩
    · rw [hsame] at hx
      exact .same x hx .rfl
    · rw [hadd] at hx
      rcases Contents.mem_add hx with hold | ⟨rfl, rfl⟩
      · exact .same x hold .rfl
      · refine .enqueued p hp rfl ?_
        rcases Scheduler.jobId_of_optionsFor hopts with ⟨-, hid⟩ | ⟨-, hid⟩
        · exact .inr (by simp [newEntry, hid])
        · exact .inl (by simp [newEntry, hid])
  | fired q₁ e stamp stamp' he hfires hnow hfresh =>
    rw [fire_adds hstep] at hx
    rcases Scheduler.mem_append hx with hold | ⟨rfl, rfl⟩
    · obtain ⟨y, hy, hsame⟩ := (Scheduler.within_swap s.store.queues q₁
        (Entry.same_noted s.now e)).same q x hold
      exact .same y hy hsame
    · exact .fired he rfl rfl
  | searched n calls scheduleId given q' rest hn =>
    exact hwithin (Scheduler.within_search given calls q' _)
  | taken q' y trace hy hready htrace =>
    exact hwithin (Scheduler.within_swap _ q' (Entry.same_taken y))
  | dropped q' y calls hy hactive => exact hwithin (Scheduler.within_drop _ q' y)
  | retried q' y calls hy hactive hretries =>
    exact hwithin (Scheduler.within_swap _ q' (Entry.same_back y))
  | stalled q' y hy hactive => exact hwithin (Scheduler.within_swap _ q' (Entry.same_back y))
  | _ => exact hwithin .rfl

/-- The only id that becomes one of a schedule is the one the database generates. -/
theorem known_origin (hstep : Scheduler.step env s event = some s') {id : Uuid}
    (h : s'.Known id) : s.Known id ∨ ∃ dto calls, event = .save dto calls ∧ id = calls.id := by
  cases Scheduler.step_cases hstep with
  | saved dto calls job row schedules enqueuing hfresh hsaved henqueuing =>
    rcases (Scheduler.known_insert hsaved.inserted id).mp h with hid | hold
    · have hrow : row.id = calls.id := (Scheduler.newSchedule_spec hsaved.row).id_eq
      exact .inr ⟨dto, calls, rfl, hid.trans hrow⟩
    · exact .inl hold
  | deactivated scheduleId calls row removing hfound hremoving =>
    exact .inl ((congrArg (id ∈ ·) (Keyed.map_key_replace _ _)).mp h)
  | _ => exact .inl h

/-- What was observed stays observed. -/
theorem trace_grows (hstep : Scheduler.step env s event = some s') :
    ∀ o ∈ s.trace, o ∈ s'.trace := by
  intro o ho
  cases Scheduler.step_cases hstep with
  | resolved n scheduleId given hn => exact List.mem_cons_of_mem _ ho
  | taken q e trace he hready htrace =>
    rcases htrace with rfl | rfl
    · exact List.mem_cons_of_mem _ ho
    · exact ho
  | _ => exact ho

end Scheduler

/-! ## Listed entries -/

/-- The event generates no name that the entry has. -/
def Avoids (e : Entry) : Scheduler.Event → Prop
  | .save _ calls => calls.id ≠ e.id ∧ calls.id ≠ e.key
  | .enqueue _ calls => calls.stamp.id ≠ e.id
  | .fire _ _ stamp => stamp.id ≠ e.id
  | _ => True

/-- An entry that a worker is done with would fit into its queue again. -/
structure Shelved (s : System) (q : QueueName) (e : Entry) : Prop where
  once : e.repeatable = false
  /-- As the worker held it. -/
  held : e.active = true
  fits : Fits s q e
  served : ∀ p ∈ s.enqueuing, p.2.id ≠ e.data.scheduleId
  stands : s.Accounted q e
  begun : ∃ t, .started e.data.scheduleId t ∈ s.trace

section Shelf

variable {env : Scheduler.Env} {s s' : System} {event : Scheduler.Event} {q q' : QueueName}
  {e x : Entry}

/-- The entries for one schedule stand in one queue. -/
theorem queue_of_accounted (h : s.Accounted q e) (h' : s.Accounted q' x)
    (hid : x.data.scheduleId = e.data.scheduleId) : q' = q := by
  obtain ⟨row, hrow, job, hjob, hstands⟩ := h
  obtain ⟨row', hrow', job', hjob', hstands'⟩ := h'
  have hrows : row'.id = row.id :=
    hstands'.scheduleId.symm.trans (hid.trans hstands.scheduleId)
  obtain rfl := s.store.schedules.eq_of_key_eq hrow' hrow hrows
  have hjobs : job'.id = job.id := hstands'.owner.symm.trans hstands.owner
  obtain rfl := s.store.jobs.eq_of_key_eq hjob' hjob hjobs
  exact hstands'.queue.trans hstands.queue.symm

/-- **Step lemma.** -/
theorem Shelved.step (h : Shelved s q e) (hsane : Sane s) (havoids : Avoids e event)
    (hstep : Scheduler.step env s event = some s') : Shelved s' q e where
  once := h.once
  held := h.held
  fits :=
    { known := Scheduler.Known.step hstep h.fits.known
      fresh := by
        intro x hx
        cases origin hstep hx with
        | same y hy hsame =>
          rw [hsame.id]
          exact h.fits.fresh y hy
        | enqueued p hp hdata hid =>
          rcases hid with hid | hid
          · -- the id of a schedule is the id of an entry for it
            intro hsame
            have hknown : s.Known e.id := by
              rw [← hsame, hid]
              exact (hsane.pending p hp).1
            exact h.served p hp (hid.symm.trans (hsame.trans (h.fits.own hknown)))
          · rw [hid]
            exact havoids
        | fired hy hdata hid =>
          rw [hid]
          exact havoids
      queue := by
        intro q₁ x hx hsame
        cases origin hstep hx with
        | same y hy hsame' => exact h.fits.queue q₁ y hy (hsame'.data ▸ hsame)
        | enqueued p hp hdata hid => exact absurd (hdata.symm.trans hsame) (h.served p hp)
        | fired hy hdata hid => exact h.fits.queue q₁ _ hy (hdata ▸ hsame)
      own := by
        intro hknown
        rcases known_origin hstep hknown with hold | ⟨dto, calls, rfl, hid⟩
        · exact h.fits.own hold
        · exact absurd hid.symm havoids.1
      source := h.fits.source
      key := by
        intro hknown
        rcases known_origin hstep hknown with hold | ⟨dto, calls, rfl, hid⟩
        · exact h.fits.key hold
        · exact absurd hid.symm havoids.2 }
  served := by
    intro p hp
    rcases Scheduler.call_origin hstep hp with hold | ⟨hnew, -⟩
    · exact h.served p hold
    · -- a row that no one knew is not this one's
      intro hid
      exact hnew (hid ▸ h.fits.known)
  stands := h.stands.kept (Scheduler.kept_step hstep)
  begun := by
    obtain ⟨t, ht⟩ := h.begun
    exact ⟨t, trace_grows hstep _ ht⟩

/-- A state that knows, awaits and has seen the same. -/
theorem Shelved.congr (h : Shelved s q e) (hrows : s'.store.schedules = s.store.schedules)
    (hjobs : s'.store.jobs = s.store.jobs) (hcalls : s'.enqueuing = s.enqueuing)
    (htrace : s'.trace = s.trace) (hfresh : ∀ x ∈ s'.store.queues q, x.id ≠ e.id)
    (hqueue : ∀ q', ∀ x ∈ s'.store.queues q', x.data.scheduleId = e.data.scheduleId → q' = q) :
    Shelved s' q e := by
  have hknown : ∀ id, s'.Known id ↔ s.Known id := by
    intro id
    unfold System.Known
    rw [hrows]
  constructor
  · exact h.once
  · exact h.held
  · exact ⟨(hknown _).mpr h.fits.known, hfresh, hqueue, fun hk => h.fits.own ((hknown _).mp hk),
      h.fits.source, fun hk => h.fits.key ((hknown _).mp hk)⟩
  · rw [hcalls]
    exact h.served
  · obtain ⟨row, hrow, job, hjob, hstands⟩ := h.stands
    exact ⟨row, hrows ▸ hrow, job, hjobs ▸ hjob, hstands⟩
  · rw [htrace]
    exact h.begun

/-- One that was held, and is in the queue no more. -/
theorem Shelved.of_held (hsane : Sane s) (htraceable : Traceable env s)
    (he : e ∈ s.store.queues q) (hactive : e.active = true) {s' : System}
    (hs' : s' = s.withQueues (s.store.queues.drop q e)) : Shelved s' q e := by
  subst hs'
  obtain ⟨honce, hstarted⟩ := htraceable.begun q e he hactive
  have hold : ∀ q', ∀ x ∈ s.store.queues.drop q e q', x ∈ s.store.queues q' :=
    fun q' x hx => Scheduler.mem_of_sublist List.filter_sublist hx
  refine ⟨honce, hactive, ⟨hsane.known q e he, ?_, ?_, hsane.own q e he, hsane.source q e he,
    hsane.key q e he⟩, ?_, htraceable.whole.entries q e he, hstarted⟩
  · -- the ids of a queue are distinct, and it is gone
    intro x hx hid
    have hxold := hold q x hx
    have hsame := List.inj_on_of_nodup_map (hsane.nodup q) hxold he hid
    have hdrop : x ∈ s.store.queues.drop q e q := hx
    rw [Contents.drop, Function.update_self, List.mem_filter] at hdrop
    exact of_decide_eq_true hdrop.2 hsame
  · exact fun q' x hx hid => hsane.oneQueue q' q x (hold q' x hx) e he hid
  · exact fun p hp hid => (hsane.pending p hp).2 q e he hid.symm

/-- It fits as it is put back, too. -/
theorem Shelved.fits_back (h : Shelved s q e) : Fits s q e.back :=
  ⟨h.fits.known, h.fits.fresh, h.fits.queue, h.fits.own, h.fits.source, h.fits.key⟩

end Shelf

/-! ## The base -/

section Base

variable {env : Scheduler.Env} {s s' : System} {q : QueueName} {e : Entry}

/-- Queues that only lose, and cancellations that go on. -/
theorem traceable_within (h : Traceable env s) (hrows : s'.store.schedules = s.store.schedules)
    (hjobs : s'.store.jobs = s.store.jobs) (hcalls : s'.enqueuing = s.enqueuing)
    (htrace : s'.trace = s.trace) (hqueues : ∀ q, (s'.store.queues q).Sublist (s.store.queues q))
    (hremoving : ∀ r ∈ s'.removing, ∃ r₀ ∈ s.removing, r.scheduleId = r₀.scheduleId ∧
      r.given = r₀.given) : Traceable env s' := by
  have hsame : ∀ q, ∀ x ∈ s'.store.queues q, ∃ y ∈ s.store.queues q, x.Same y :=
    fun q x hx => ⟨x, (hqueues q).subset hx, .rfl⟩
  have hkept : Scheduler.Kept s s' :=
    ⟨fun job hjob => hjobs ▸ hjob, fun row hrow => ⟨row, hrows ▸ hrow, .rfl⟩⟩
  constructor
  · refine h.whole.within hkept (fun row hrow => ⟨row, hrows ▸ hrow, .rfl⟩) ?_ hsame
    rw [hcalls]
  · exact h.keys.within ⟨hsame, fun q hnodup => hnodup.sublist ((hqueues q).map _)⟩
  · refine h.begun.quiet (fun q x hx hactive => ⟨x, (hqueues q).subset hx, hactive, .rfl⟩) ?_
    rw [htrace]
    exact fun o ho => ho
  · intro r hr text hgiven
    obtain ⟨r₀, hr₀, hid, hgiven₀⟩ := hremoving r hr
    rw [hid]
    exact h.reads r₀ hr₀ text (hgiven₀ ▸ hgiven)

theorem sane_within (h : Sane s) (hrows : s'.store.schedules = s.store.schedules)
    (hcalls : s'.enqueuing = s.enqueuing)
    (hqueues : ∀ q, (s'.store.queues q).Sublist (s.store.queues q)) : Sane s' := by
  refine h.within (fun id => ?_) ?_ ⟨fun q x hx => ⟨x, (hqueues q).subset hx, .rfl⟩,
    fun q hnodup => hnodup.sublist ((hqueues q).map _)⟩
  · unfold System.Known
    rw [hrows]
  · rw [hcalls]

theorem drop_sublist (qs : Contents) (q : QueueName) (e : Entry) (q' : QueueName) :
    (qs.drop q e q').Sublist (qs q') := by
  unfold Contents.drop
  by_cases hq : q' = q
  · subst hq
    rw [Function.update_self]
    exact List.filter_sublist
  · rw [Function.update_of_ne hq]

/-- What is put back waits, as what it was put in for. -/
theorem traceable_putBack (h : Traceable env s) (hshelved : Shelved s q e) :
    Traceable env (s.withQueues (s.store.queues.append q e.back)) where
  whole :=
    { jobs := h.whole.jobs
      entries := by
        intro q' x hx
        rcases Scheduler.mem_append hx with hold | ⟨rfl, rfl⟩
        · exact h.whole.entries q' x hold
        · exact hshelved.stands.same (Entry.same_back e)
      calls := h.whole.calls }
  keys := by
    refine h.keys.put (fun q' x hx => Scheduler.mem_append hx) fun hrep => ?_
    have honce : e.back.repeatable = false := hshelved.once
    rw [honce] at hrep
    cases hrep
  begun := by
    refine h.begun.quiet (fun q' x hx hactive => ?_) fun o ho => ho
    rcases Scheduler.mem_append hx with hold | ⟨rfl, rfl⟩
    · exact ⟨x, hold, hactive, .rfl⟩
    · cases hactive
  reads := h.reads

theorem sane_putBack (h : Sane s) (hshelved : Shelved s q e) :
    Sane (s.withQueues (s.store.queues.append q e.back)) :=
  h.append hshelved.fits_back (fun _ => Iff.rfl) (.refl _) hshelved.served rfl

/-- The others fit as before, under other ids. -/
theorem Shelved.putBack {q' : QueueName} {x : Entry} (h : Shelved s q' x)
    (hshelved : Shelved s q e) (hne : q' = q → x.id ≠ e.id) :
    Shelved (s.withQueues (s.store.queues.append q e.back)) q' x := by
  refine h.congr rfl rfl rfl rfl ?_ ?_
  · intro y hy
    rcases Scheduler.mem_append hy with hold | ⟨rfl, rfl⟩
    · exact h.fits.fresh y hold
    · exact (hne rfl).symm
  · intro q₁ y hy hid
    rcases Scheduler.mem_append hy with hold | ⟨rfl, rfl⟩
    · exact h.fits.queue q₁ y hold hid
    · exact queue_of_accounted h.stands hshelved.stands hid

end Base

/-! ## Every state -/

/-- What the lists hold fits the queues they belong to. -/
structure Sound (env : Scheduler.Env) (s : Sys) : Prop where
  sane : Sane s.base
  traceable : Traceable env s.base
  shelved : ∀ q, ∀ f ∈ s.listed q, Shelved s.base q f.entry
  apart : ∀ q, ∀ f ∈ s.completed q, ∀ f' ∈ s.failed q, f.entry.id ≠ f'.entry.id
  distinct : ∀ q, ((s.failed q).map fun f => f.entry.id).Nodup

section Steps

variable {env : Scheduler.Env} {s s' : Sys} {event : Event} {q : QueueName}

theorem mem_listed {f : Finished} : f ∈ s.listed q ↔ f ∈ s.completed q ∨ f ∈ s.failed q :=
  List.mem_append

/-- What is generated is not on a list. -/
theorem avoids_of_fresh {event : Scheduler.Event} (hfresh : s.fresh event = true) {f : Finished}
    (hf : f ∈ s.listed q) : Avoids f.entry event := by
  have hunlisted : ∀ id, s.unlisted id = true → id ≠ f.entry.id := by
    intro id h
    simp only [Sys.unlisted, List.all_eq_true, Bool.and_eq_true, decide_eq_true_eq] at h
    exact ((h q (mem_searchOrder q)).2 f hf).symm
  cases event with
  | save dto calls =>
    simp only [Sys.fresh, List.all_eq_true, Bool.and_eq_true, decide_eq_true_eq] at hfresh
    exact ⟨hunlisted _ hfresh.1, (hfresh.2 q (mem_searchOrder q) f hf).symm⟩
  | enqueue n calls =>
    simp only [Sys.fresh, Bool.and_eq_true] at hfresh
    exact hunlisted _ hfresh.1
  | fire q' e stamp => exact hunlisted _ hfresh
  | _ => trivial

theorem keysFresh_of_fresh {event : Scheduler.Event} (hfresh : s.fresh event = true) :
    keysFresh s.base event = true := by
  cases event with
  | enqueue n calls =>
    simp only [Sys.fresh, Bool.and_eq_true] at hfresh
    exact hfresh.2
  | _ => rfl

/-- The lists only lose, and what is left on them still fits. -/
theorem Sound.of_lists (h : Sound env s) (hsane : Sane s'.base)
    (htraceable : Traceable env s'.base)
    (hcompleted : ∀ q, (s'.completed q).Sublist (s.completed q))
    (hfailed : ∀ q, (s'.failed q).Sublist (s.failed q))
    (hshelved : ∀ q, ∀ f ∈ s'.listed q, Shelved s.base q f.entry → Shelved s'.base q f.entry) :
    Sound env s' where
  sane := hsane
  traceable := htraceable
  shelved q f hf := by
    refine hshelved q f hf (h.shelved q f (mem_listed.mpr ?_))
    exact (mem_listed.mp hf).imp (fun h => (hcompleted q).subset h) fun h => (hfailed q).subset h
  apart q f hf f' hf' := h.apart q f ((hcompleted q).subset hf) f' ((hfailed q).subset hf')
  distinct q := (h.distinct q).sublist ((hfailed q).map _)

/-- A step of the scheduler leaves the lists alone. -/
theorem Sound.base (h : Sound env s) (event : Scheduler.Event) (hfresh : s.fresh event = true)
    (hstep : Scheduler.step env s.base event = some s'.base)
    (hcompleted : s'.completed = s.completed) (hfailed : s'.failed = s.failed) :
    Sound env s' := by
  have hlisted : s'.listed = s.listed := by
    unfold Sys.listed
    rw [hcompleted, hfailed]
  refine h.of_lists (h.sane.step hstep) (h.traceable.step (keysFresh_of_fresh hfresh) hstep)
    (fun q => ?_) (fun q => ?_) fun q f hf hshelved => ?_
  · rw [hcompleted]
  · rw [hfailed]
  · rw [hlisted] at hf
    exact hshelved.step h.sane (avoids_of_fresh hfresh hf) hstep

/-- What is listed then was listed before, or is that entry. -/
theorem mem_listed_finish {q' : QueueName} {e : Entry} {type : FinishedType} {f : Finished}
    (hf : f ∈ (s.finish type q e).listed q') : f ∈ s.listed q' ∨ q' = q ∧ f.entry = e := by
  have hpush : ∀ {listing : Listing}, f ∈ listing.push type q ⟨e, s.base.now⟩ q' →
      (∀ x ∈ listing q', x ∈ s.listed q') → f ∈ s.listed q' ∨ q' = q ∧ f.entry = e := by
    intro listing hf hold
    rcases Listing.mem_push hf with hf | ⟨rfl, rfl⟩
    · exact .inl (hold f hf)
    · exact .inr ⟨rfl, rfl⟩
  have hcompleted : ∀ x ∈ s.completed q', x ∈ s.listed q' := fun x hx => mem_listed.mpr (.inl hx)
  have hfailed : ∀ x ∈ s.failed q', x ∈ s.listed q' := fun x hx => mem_listed.mpr (.inr hx)
  cases type with
  | completed =>
    rcases mem_listed.mp hf with hf | hf
    · exact hpush hf hcompleted
    · exact .inl (hfailed f hf)
  | failed =>
    rcases mem_listed.mp hf with hf | hf
    · exact .inl (hcompleted f hf)
    · exact hpush hf hfailed

/-- A list with one more id that is new. -/
theorem Sound.distinct_push (h : Sound env s) {f : Finished}
    (hnew : ∀ x ∈ s.failed q, x.entry.id ≠ f.entry.id) (q' : QueueName) :
    ((s.failed.push .failed q f q').map fun x => x.entry.id).Nodup := by
  refine List.Nodup.sublist ((s.failed.push_sublist q q' .failed f).map _) ?_
  split
  · rename_i hq
    subst hq
    rw [List.map_append, List.nodup_append]
    refine ⟨h.distinct q', List.nodup_singleton _, fun id hid id' hid' => ?_⟩
    obtain ⟨x, hx, rfl⟩ := List.mem_map.mp hid
    rw [List.map_singleton, List.mem_singleton] at hid'
    rw [hid']
    exact hnew x hx
  · exact h.distinct q'

/-- One more on a list, from its queue. -/
theorem Sound.finish (h : Sound env s) {e : Entry} (type : FinishedType)
    (he : e ∈ s.base.store.queues q) (hactive : e.active = true) :
    Sound env (s.finish type q e) := by
  have hdrop := drop_sublist s.base.store.queues q e
  have hbase : (s.finish type q e).base = s.base.withQueues (s.base.store.queues.drop q e) := by
    cases type <;> rfl
  have hnew : Shelved (s.finish type q e).base q e :=
    Shelved.of_held h.sane h.traceable he hactive hbase
  have hold : ∀ q', ∀ f ∈ s.listed q', Shelved (s.finish type q e).base q' f.entry := by
    intro q' f hf
    rw [hbase]
    have hf' := h.shelved q' f hf
    exact hf'.congr rfl rfl rfl rfl (fun x hx => hf'.fits.fresh x ((hdrop q').subset hx))
      fun q₁ x hx => hf'.fits.queue q₁ x ((hdrop q₁).subset hx)
  -- an entry of the queue has another id than those that are listed
  have hother : ∀ f ∈ s.listed q, f.entry.id ≠ e.id :=
    fun f hf => (h.shelved q f hf).fits.fresh e he |>.symm
  constructor
  · rw [hbase]
    exact sane_within h.sane rfl rfl hdrop
  · rw [hbase]
    exact traceable_within h.traceable rfl rfl rfl rfl hdrop fun r hr => ⟨r, hr, rfl, rfl⟩
  · intro q' f hf
    rcases mem_listed_finish hf with hf | ⟨rfl, rfl⟩
    · exact hold q' f hf
    · exact hnew
  · intro q' f hf f' hf'
    cases type with
    | completed =>
      rcases Listing.mem_push hf with hf | ⟨rfl, rfl⟩
      · exact h.apart q' f hf f' hf'
      · exact (hother f' (mem_listed.mpr (.inr hf'))).symm
    | failed =>
      rcases Listing.mem_push hf' with hf' | ⟨rfl, rfl⟩
      · exact h.apart q' f hf f' hf'
      · exact hother f (mem_listed.mpr (.inl hf))
  · intro q'
    cases type with
    | completed => exact h.distinct q'
    | failed => exact h.distinct_push (fun f hf => hother f (mem_listed.mpr (.inr hf))) q'

/-- One less on a list, and back in its queue. -/
theorem Sound.putBack (h : Sound env s) {f : Finished} (hf : f ∈ s.failed q) :
    Sound env (s.putBack q f) := by
  have hshelved := h.shelved q f (mem_listed.mpr (.inr hf))
  refine h.of_lists (sane_putBack h.sane hshelved) (traceable_putBack h.traceable hshelved)
    (fun q' => .refl _) (s.failed.without_sublist q · f.entry.id) fun q' x hx hx' => ?_
  refine hx'.putBack hshelved ?_
  rintro rfl
  rcases mem_listed.mp hx with hx | hx
  · exact h.apart q' x hx f hf
  · exact (Listing.mem_without hx).2 rfl

/-- **Step lemma.** -/
theorem Sound.step (h : Sound env s) (hstep : Stepped env s event s') : Sound env s' := by
  have hsame : ∀ q, ∀ f ∈ s'.listed q, Shelved s.base q f.entry → Shelved s.base q f.entry :=
    fun q f _ hshelved => hshelved
  cases hstep with
  | base event base hfresh hstep hretries hstall hsearch => exact h.base event hfresh hstep rfl rfl
  | stalled q e base he hactive hstalls hstep =>
    exact h.base (.stall q e) rfl hstep rfl rfl
  | finished event type q e he hactive hends => exact h.finish type he hactive
  | removed n calls scheduleId id q rest f hn hf hid =>
    have hbase := remove_base s n ⟨scheduleId, .str id, if calls.remove.returned then [] else rest⟩
      q id calls.remove.stored
    refine h.of_lists ?_ ?_ (remove_completed s n _ q id _) (remove_failed s n _ q id _) ?_
    · rw [hbase]
      exact sane_within h.sane rfl rfl fun q => .refl _
    · rw [hbase]
      refine traceable_within h.traceable rfl rfl rfl rfl (fun q => .refl _) fun r hr => ?_
      -- the cancellation is the one it was
      rcases List.mem_or_eq_of_mem_set hr with hr | rfl
      · exact ⟨r, hr, rfl, rfl⟩
      · exact ⟨_, List.mem_of_getElem? hn, rfl, rfl⟩
    · intro q f _ hf
      rw [hbase]
      exact hf.congr rfl rfl rfl rfl hf.fits.fresh hf.fits.queue
  | quiet event paused completed hother hcompleted =>
    exact h.of_lists h.sane h.traceable hcompleted (fun q => .refl _) hsame
  | cleaned q grace clean =>
    exact h.of_lists h.sane h.traceable (fun q => .refl _)
      (s.failed.clean_sublist q · s.base.now grace) hsame
  | listed q => exact h.of_lists h.sane h.traceable (fun q => .refl _) (fun q => .refl _) hsame
  | putBack n retry r f left retriedCount hn hf hstored hcount =>
    have hput := h.putBack hf
    exact hput.of_lists hput.sane hput.traceable (fun q => .refl _) (fun q => .refl _)
      fun q f _ hshelved => hshelved
  | notPutBack n id retry r left hn =>
    exact h.of_lists h.sane h.traceable (fun q => .refl _) (fun q => .refl _) hsame
  | answered n r hn =>
    exact h.of_lists h.sane h.traceable (fun q => .refl _) (fun q => .refl _) hsame

theorem Initial.sound (h₀ : Initial s) : Sound env s where
  sane := h₀.base.sane
  traceable := by
    refine ⟨h₀.base.whole, fun q e he => absurd he h₀.base.no_entry,
      fun q e he => absurd he h₀.base.no_entry, fun r hr => ?_⟩
    simp [h₀.base.removing] at hr
  shelved q f hf := by simp [Sys.listed, h₀.completed, h₀.failed] at hf
  apart q f hf := by simp [h₀.completed] at hf
  distinct q := by simp [h₀.failed]

/-- **Run lemma.** -/
theorem sound {C : Sys → Event → Prop} (h : (machine env).Reachable C s) : Sound env s :=
  h.invariant (I := Sound env) (fun _ h₀ => Initial.sound h₀) fun _ _ _ hs _ hstep =>
    hs.step (step_cases hstep)

end Steps

end SchedulingService.Operations
