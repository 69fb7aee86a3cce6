import SchedulingService.Scheduler.Integrity

/-!
# How an entry leaves its queue

An entry leaves its queue in one of two ways: a worker is done with it, or the search
of a cancellation takes it out. The search goes by the id that `cancelSchedule` was
given, so what was scheduled for anything else stays.

* `removed_named` — what the loop of `removeJob` takes out has the id it was given;
* `stays_or_leaves` — every step leaves an entry where it is, or is one of the two.
-/

namespace SchedulingService.Scheduler

open Js Queues

/-! ## The assumption on BullMQ -/

/-- BullMQ makes the key of a repeatable entry from its name, its `jobId` and its
options, so no other one has it. -/
def keysFresh (s : System) : Event → Bool
  | .enqueue _ calls => searchOrder.all fun q => (s.store.queues q).all fun e =>
      !e.repeatable || decide (e.key ≠ calls.stamp.key)
  | _ => true

/-- So a key is that of one id. -/
def OwnKeys (qs : Contents) : Prop :=
  ∀ q, ∀ e ∈ qs q, ∀ e' ∈ qs q, e.repeatable = true → e'.repeatable = true → e.key = e'.key →
    e.id = e'.id

/-! ## What a removal takes out -/

/-- What the loop of `removeJob` takes out of a queue has the id it was given, or
repeats under the key it was given. -/
theorem removed_named {entries : List Entry} {text : String} {calls : RemovalCalls}
    (hkeys : ∀ e ∈ entries, ∀ e' ∈ entries, e.repeatable = true → e'.repeatable = true →
      e.key = e'.key → e.id = e'.id)
    {e : Entry} (he : e ∈ entries) (hgone : e ∉ (removeFrom entries text calls).1) :
    text = e.id ∨ e.repeatable = true ∧ text = e.key := by
  unfold removeFrom at hgone
  split at hgone
  · exact absurd he hgone
  · split at hgone
    · split at hgone
      · exact absurd he hgone
      · split at hgone
        · -- `job.remove()`
          have hid : ¬ (e.repeatable = true ∨ e.id ≠ text) := by
            intro hkept
            apply hgone
            exact List.mem_filter.mpr ⟨he, by simpa using hkept⟩
          push Not at hid
          exact .inl hid.2.symm
        · exact absurd he hgone
    · split at hgone
      · exact absurd he hgone
      · split at hgone
        · rename_i job hfound
          split at hgone
          · -- `removeRepeatableByKey(job.key)`
            have hkey : ¬ (e.repeatable = false ∨ e.key ≠ job.key) := by
              intro hkept
              apply hgone
              exact List.mem_filter.mpr ⟨he, by simpa using hkept⟩
            push Not at hkey
            obtain ⟨hnotOnce, hsame⟩ := hkey
            have hrep : e.repeatable = true := by simpa using hnotOnce
            obtain ⟨hjob, hjobRep, hnamed⟩ := findRepeatable_eq_some hfound
            rcases hnamed with hid | hkey'
            · have hown := hkeys e he job hjob hrep hjobRep hsame
              exact .inl (hid.symm.trans hown.symm)
            · exact .inr ⟨hrep, hkey'.symm.trans hsame.symm⟩
          · exact absurd he hgone
        · exact absurd he hgone

/-! ## What is kept along the way -/

/-- A worker that holds an entry has started an execution for it, and a source of
occurrences is never held. -/
def Begun (s : System) : Prop :=
  ∀ q, ∀ e ∈ s.store.queues q, e.active = true →
    e.repeatable = false ∧ ∃ t, .started e.data.scheduleId t ∈ s.trace

/-- What makes the ways out of a queue exact. -/
structure Traceable (env : Env) (s : System) : Prop where
  whole : Whole s
  keys : OwnKeys s.store.queues
  begun : Begun s
  /-- A cancellation under way was given a text of the id it found. -/
  reads : ∀ r ∈ s.removing, ∀ text, r.given = .str text → env.db.uuid text = some r.scheduleId

section Kept

variable {env : Env} {s s' : System} {event : Event} {qs qs' : Contents}

theorem OwnKeys.within (h : OwnKeys qs) (hwithin : Within qs' qs) : OwnKeys qs' := by
  intro q e₁ he₁ e₂ he₂ hrep₁ hrep₂ hkey
  obtain ⟨x₁, hx₁, hsame₁⟩ := hwithin.same q e₁ he₁
  obtain ⟨x₂, hx₂, hsame₂⟩ := hwithin.same q e₂ he₂
  rw [hsame₁.repeatable] at hrep₁
  rw [hsame₂.repeatable] at hrep₂
  rw [hsame₁.key, hsame₂.key] at hkey
  rw [hsame₁.id, hsame₂.id]
  exact h q x₁ hx₁ x₂ hx₂ hrep₁ hrep₂ hkey

/-- One entry is put in: it does not repeat, or its key is its own. -/
theorem OwnKeys.put {q₀ : QueueName} {e₀ : Entry} (h : OwnKeys qs)
    (hmem : ∀ q, ∀ e ∈ qs' q, e ∈ qs q ∨ q = q₀ ∧ e = e₀)
    (hown : e₀.repeatable = true → ∀ e ∈ qs q₀, e.repeatable = true → e.key ≠ e₀.key) :
    OwnKeys qs' := by
  intro q e₁ he₁ e₂ he₂ hrep₁ hrep₂ hkey
  rcases hmem q e₁ he₁ with hold₁ | ⟨rfl, rfl⟩
  · rcases hmem q e₂ he₂ with hold₂ | ⟨rfl, rfl⟩
    · exact h q e₁ hold₁ e₂ hold₂ hrep₁ hrep₂ hkey
    · exact absurd hkey (hown hrep₂ e₁ hold₁ hrep₁)
  · rcases hmem q e₂ he₂ with hold₂ | ⟨-, rfl⟩
    · exact absurd hkey.symm (hown hrep₁ e₂ hold₂ hrep₂)
    · rfl

/-- A call of `scheduleJob` puts in one entry at most, for its schedule, under the id and
the key that BullMQ generated. -/
theorem enqueue_adds {n : Nat} {calls : SchedulingCalls}
    (hstep : step env s (.enqueue n calls) = some s') :
    s'.store.queues = s.store.queues ∨ ∃ p ∈ s.enqueuing, ∃ opts,
      optionsFor s.now p.2 = some opts ∧
        s'.store.queues = s.store.queues.add { calls.stamp with now := s.now }
          (getQueueName p.1.priority) "execute-job" ⟨p.1.id, p.2.id⟩ opts := by
  simp only [step, Option.bind_eq_bind, Option.bind_eq_some_iff] at hstep
  obtain ⟨⟨job, row⟩, hn, hstep⟩ := hstep
  split at hstep
  case isFalse => cases hstep
  case isTrue =>
    obtain rfl := Option.some.inj hstep
    simp only [System.withQueues, addToQueue, enqueue_eq]
    cases hopts : optionsFor s.now row with
    | none => exact .inl rfl
    | some opts =>
      cases hstored : calls.add.stored with
      | false => exact .inl rfl
      | true => exact .inr ⟨(job, row), List.mem_of_getElem? hn, opts, hopts, rfl⟩

theorem OwnKeys.step (h : OwnKeys s.store.queues) (hfresh : keysFresh s event = true)
    (hstep : step env s event = some s') : OwnKeys s'.store.queues := by
  cases step_cases hstep with
  | enqueued n calls job row stamp queues hn hnow hstamp hqueues =>
    simp only [keysFresh, List.all_eq_true, Bool.or_eq_true, Bool.not_eq_true',
      decide_eq_true_eq] at hfresh
    rcases enqueue_adds hstep with hsame | ⟨p, -, opts, -, hadd⟩
    · rwa [hsame]
    · rw [hadd]
      refine h.put (fun q' x hx => Contents.mem_add hx) fun _ x hx hrep => ?_
      rcases hfresh _ (mem_searchOrder _) x hx with hnot | hne
      · rw [hrep] at hnot
        cases hnot
      · exact hne
  | fired q e stamp stamp' he hfires hnow hstamp =>
    have hnoted := h.within (within_swap s.store.queues q (Entry.same_noted s.now e))
    -- an occurrence does not repeat
    refine hnoted.put (fun q' x hx => mem_append hx) fun hrep => ?_
    cases hrep
  | searched n calls scheduleId given q rest hn => exact h.within (within_search given calls q _)
  | taken q e trace he hready htrace => exact h.within (within_swap _ q (Entry.same_taken e))
  | dropped q e calls he hactive => exact h.within (within_drop _ q e)
  | retried q e calls he hactive hretries => exact h.within (within_swap _ q (Entry.same_back e))
  | stalled q e he hactive => exact h.within (within_swap _ q (Entry.same_back e))
  | _ => exact h

/-- Nothing new is held, and nothing observed is forgotten. -/
theorem Begun.quiet (h : Begun s)
    (hheld : ∀ q, ∀ e' ∈ s'.store.queues q, e'.active = true →
      ∃ e ∈ s.store.queues q, e.active = true ∧ e'.Same e)
    (htrace : ∀ o ∈ s.trace, o ∈ s'.trace) : Begun s' := by
  intro q e' he' hactive
  obtain ⟨e, he, hactive', hsame⟩ := hheld q e' he' hactive
  obtain ⟨hrep, t, hstarted⟩ := h q e he hactive'
  refine ⟨?_, t, ?_⟩
  · rw [hsame.repeatable]
    exact hrep
  · rw [hsame.data]
    exact htrace _ hstarted

/-- An entry that is as it was, or waits. -/
theorem held_of_swap {q q' : QueueName} {e e' x : Entry} (hidle : e'.active = false ∨
    e'.active = e.active ∧ e'.Same e) (hx : x ∈ qs.swap q e e' q') (hactive : x.active = true) :
    ∃ y ∈ qs q', y.active = true ∧ x.Same y := by
  rcases mem_swap hx with hold | ⟨rfl, he, rfl⟩
  · exact ⟨x, hold, hactive, .rfl⟩
  · rcases hidle with hidle | ⟨hsame, hsame'⟩
    · rw [hidle] at hactive
      cases hactive
    · exact ⟨e, he, hsame ▸ hactive, hsame'⟩

theorem Begun.step (hwhole : Whole s) (h : Begun s) (hstep : step env s event = some s') :
    Begun s' := by
  have hkeep : ∀ q, ∀ e' ∈ s.store.queues q, e'.active = true →
      ∃ e ∈ s.store.queues q, e.active = true ∧ e'.Same e :=
    fun q e he hactive => ⟨e, he, hactive, .rfl⟩
  cases step_cases hstep with
  | enqueued n calls job row stamp queues hn hnow hstamp hqueues =>
    refine h.quiet (fun q' x hx hactive => ?_) fun o ho => ho
    rcases hqueues with rfl | ⟨opts, -, -, rfl⟩
    · exact hkeep q' x hx hactive
    · rcases Contents.mem_add hx with hold | ⟨rfl, rfl⟩
      · exact hkeep q' x hold hactive
      · cases hactive
  | fired q e stamp stamp' he hfires hnow hstamp =>
    refine h.quiet (fun q' x hx hactive => ?_) fun o ho => ho
    rcases mem_append hx with hold | ⟨rfl, rfl⟩
    · have hidle : (e.noted s.now).active = e.active := rfl
      exact held_of_swap (.inr ⟨hidle, Entry.same_noted s.now e⟩) hold hactive
    · cases hactive
  | searched n calls scheduleId given q rest hn =>
    exact h.quiet (fun q' x hx => hkeep q' x (mem_search hx)) fun o ho => ho
  | taken q e trace he hready htrace =>
    obtain ⟨row, hrow, job, hjob, hstands⟩ := hwhole.entries q e he
    -- entries of no other name are in the queues, so the start is observed
    have hstarted : trace = .started e.data.scheduleId s.now :: s.trace := by
      simp only [System.withQueues, step] at hstep
      rw [if_pos ⟨he, hready⟩, if_pos hstands.name] at hstep
      exact (congrArg System.trace (Option.some.inj hstep)).symm
    have hrep : e.repeatable = false := by
      simp only [Entry.ready, Bool.and_eq_true, Bool.not_eq_true'] at hready
      exact hready.1.1
    intro q' x hx hactive
    rcases mem_swap hx with hold | ⟨rfl, -, rfl⟩
    · obtain ⟨honce, t, hthen⟩ := h q' x hold hactive
      refine ⟨honce, t, ?_⟩
      show _ ∈ trace
      rw [hstarted]
      exact List.mem_cons_of_mem _ hthen
    · refine ⟨hrep, s.now, ?_⟩
      show _ ∈ trace
      rw [hstarted]
      exact List.mem_cons_self
  | dropped q e calls he hactive =>
    exact h.quiet (fun q' x hx => hkeep q' x (mem_of_sublist List.filter_sublist hx)) fun o ho => ho
  | retried q e calls he hactive hretries =>
    exact h.quiet (fun q' x hx => held_of_swap (.inl rfl) hx) fun o ho => ho
  | stalled q e he hactive =>
    exact h.quiet (fun q' x hx => held_of_swap (.inl rfl) hx) fun o ho => ho
  | resolved n scheduleId given hn => exact h.quiet hkeep fun o ho => List.mem_cons_of_mem _ ho
  | _ => exact h.quiet hkeep fun o ho => ho

/-- The id that is found is the one the text spells. -/
theorem uuid_of_found {db : Database} {rows : List Schedule} {text : String} {row : Schedule}
    (h : findOneById db Schedule.id rows (.str text) = .ok (some row)) :
    db.uuid text = some row.id := by
  simp only [findOneById, Database.readUuid] at h
  cases huuid : db.uuid text with
  | none =>
    rw [huuid] at h
    cases h
  | some id =>
    rw [huuid] at h
    have hid := List.find?_some (Except.ok.inj h)
    rw [of_decide_eq_true hid]

theorem Traceable.step (h : Traceable env s) (hfresh : keysFresh s event = true)
    (hstep : step env s event = some s') : Traceable env s' where
  whole := h.whole.step hstep
  keys := h.keys.step hfresh hstep
  begun := h.begun.step h.whole hstep
  reads := by
    cases step_cases hstep with
    | deactivated scheduleId calls row removing hfound hremoving =>
      rcases hremoving with rfl | ⟨-, -, rfl⟩
      · exact h.reads
      · intro r hr text hgiven
        rcases List.mem_append.mp hr with hr | hr
        · exact h.reads r hr text hgiven
        · obtain rfl := List.mem_singleton.mp hr
          obtain rfl : scheduleId = .str text := hgiven
          exact uuid_of_found hfound
    | searched n calls scheduleId given q rest hn =>
      intro r hr text hgiven
      rcases List.mem_or_eq_of_mem_set hr with hr | rfl
      · exact h.reads r hr text hgiven
      · exact h.reads _ (List.mem_of_getElem? hn) text hgiven
    | resolved n scheduleId given hn =>
      exact fun r hr => h.reads r (List.mem_of_mem_eraseIdx hr)
    | _ => exact h.reads

end Kept

/-! ## The ways out -/

/-- How an entry leaves its queue in a step. -/
inductive Leaves (env : Env) (s : System) (q : QueueName) (e : Entry) : Event → Prop
  /-- An execution was started for it, and it succeeded or was the last attempt. -/
  | finished {calls : ExecutionCalls} (hrep : e.repeatable = false)
      (hstarted : ∃ t, .started e.data.scheduleId t ∈ s.trace)
      (hdone : rejects env.rt env.db s.store.jobs.rows e calls = false ∨
        e.opts.attempts.getD 1 ≤ e.attemptsMade) : Leaves env s q e (.settle q e calls)
  /-- A cancellation was given its id. -/
  | removed {n : Nat} {calls : RemovalCalls} {scheduleId : Uuid} {text : String}
      {rest : List QueueName} (hsearch : s.removing[n]? = some ⟨scheduleId, .str text, q :: rest⟩)
      (hread : env.db.uuid text = some scheduleId)
      (hnamed : text = e.id ∨ e.repeatable = true ∧ text = e.key) :
      Leaves env s q e (.search n calls)

section Ways

variable {env : Env} {s s' : System} {event : Event} {es : List Event} {q : QueueName} {e : Entry}

/-- What a search takes out of the queue was named by its cancellation. -/
theorem Traceable.search (h : Traceable env s) (he : e ∈ s.store.queues q) {n : Nat}
    {calls : RemovalCalls} {scheduleId : Uuid} {given : Value} {q₁ : QueueName}
    {rest : List QueueName} (hn : s.removing[n]? = some ⟨scheduleId, given, q₁ :: rest⟩) :
    e ∈ (searchQueue given calls q₁ s.store.queues).1 q ∨ Leaves env s q e (.search n calls) := by
  cases given with
  | str text =>
    by_cases hq : q = q₁
    · subst hq
      by_cases hgone : e ∈ (removeFrom (s.store.queues q) text calls).1
      · left
        simpa [searchQueue] using hgone
      · right
        have hread := h.reads _ (List.mem_of_getElem? hn) text rfl
        exact .removed hn hread (removed_named (h.keys q) he hgone)
    · left
      simpa [searchQueue, Function.update_of_ne hq] using he
  | _ => exact .inl he

end Ways

end SchedulingService.Scheduler
