import SchedulingService.Scheduler.System

/-!
# What the queues hold

Every entry is for a schedule whose row was saved, the entries for one schedule
are in one queue, and the id of a schedule is the id of no entry but its own.
A `scheduleJob` that has still to ask the queue is the only one that will, and
no entry is there before it does.

* `Sane.step` — a step keeps this, whatever it is;
* `sane` — so it holds in every reachable state;
* `Sane.named` — what `removeJob` needs of it;
* `entry_origin`, `call_origin`, `Known.step` — where what is there after a step
  comes from.
-/

namespace SchedulingService.Scheduler

open Js Queues

/-- A schedule with this id has been saved. -/
def System.Known (s : System) (id : Uuid) : Prop := id ∈ s.store.schedules.rows.map Schedule.id

/-- The queues hold what the rows and the calls under way account for. -/
structure Sane (s : System) : Prop where
  known : ∀ q, ∀ e ∈ s.store.queues q, s.Known e.data.scheduleId
  nodup : ∀ q, ((s.store.queues q).map Entry.id).Nodup
  /-- The entries for a schedule are in one queue. -/
  oneQueue : ∀ q q', ∀ e ∈ s.store.queues q, ∀ e' ∈ s.store.queues q',
    e.data.scheduleId = e'.data.scheduleId → q = q'
  own : ∀ q, ∀ e ∈ s.store.queues q, s.Known e.id → e.id = e.data.scheduleId
  source : ∀ q, ∀ e ∈ s.store.queues q, e.repeatable = true → e.id = e.data.scheduleId
  key : ∀ q, ∀ e ∈ s.store.queues q, ¬ s.Known e.key
  /-- A call that has still to ask the queue has saved its schedule. -/
  pending : ∀ p ∈ s.enqueuing, s.Known p.2.id ∧
    ∀ q, ∀ e ∈ s.store.queues q, e.data.scheduleId ≠ p.2.id
  distinct : (s.enqueuing.map fun p => p.2.id).Nodup

/-- What is in the queues was there before, as the same entries or earlier
versions of them. -/
structure Within (qs' qs : Contents) : Prop where
  same : ∀ q, ∀ e' ∈ qs' q, ∃ e ∈ qs q, e'.Same e
  nodup : ∀ q, ((qs q).map Entry.id).Nodup → ((qs' q).map Entry.id).Nodup

/-! ## Ways to keep it -/

section Preserved

variable {qs qs' : Contents} {s s' : System}

theorem Within.rfl : Within qs qs := ⟨fun _ e he => ⟨e, he, .rfl⟩, fun _ h => h⟩

theorem mem_swap {q q' : QueueName} {e e' x : Entry} (hx : x ∈ qs.swap q e e' q') :
    x ∈ qs q' ∨ (q' = q ∧ e ∈ qs q ∧ x = e') := by
  unfold Contents.swap at hx
  by_cases hq : q' = q
  · subst hq
    rw [Function.update_self, List.mem_map] at hx
    obtain ⟨y, hy, rfl⟩ := hx
    by_cases hye : y = e
    · rw [if_pos hye]
      exact .inr ⟨rfl, hye ▸ hy, rfl⟩
    · rw [if_neg hye]
      exact .inl hy
  · rw [Function.update_of_ne hq] at hx
    exact .inl hx

theorem within_swap (qs : Contents) (q : QueueName) {e e' : Entry} (h : e'.Same e) :
    Within (qs.swap q e e') qs := by
  -- the ids of the queue are the ones it had
  have hid : (fun x => Entry.id (if x = e then e' else x)) = Entry.id := by
    funext x
    by_cases hx : x = e
    · rw [if_pos hx, h.id, hx]
    · rw [if_neg hx]
  constructor
  · intro q' x hx
    rcases mem_swap hx with hold | ⟨rfl, he, rfl⟩
    · exact ⟨x, hold, .rfl⟩
    · exact ⟨e, he, h⟩
  · intro q' hnodup
    unfold Contents.swap
    by_cases hq : q' = q
    · subst hq
      rw [Function.update_self, List.map_map]
      exact (congrArg (fun f => ((qs q').map f).Nodup) hid).mpr hnodup
    · rwa [Function.update_of_ne hq]

theorem swap_mem {q : QueueName} {e : Entry} (he : e ∈ qs q) (e' : Entry) :
    e' ∈ qs.swap q e e' q := by
  unfold Contents.swap
  rw [Function.update_self]
  exact List.mem_map.mpr ⟨e, he, if_pos rfl⟩

theorem mem_of_sublist {q q' : QueueName} {entries : List Entry} {x : Entry}
    (h : entries.Sublist (qs q)) (hx : x ∈ Function.update qs q entries q') : x ∈ qs q' := by
  by_cases hq : q' = q
  · subst hq
    rw [Function.update_self] at hx
    exact h.subset hx
  · rwa [Function.update_of_ne hq] at hx

theorem within_sublist {q : QueueName} {entries : List Entry} (h : entries.Sublist (qs q)) :
    Within (Function.update qs q entries) qs := by
  refine ⟨fun q' x hx => ⟨x, mem_of_sublist h hx, .rfl⟩, fun q' hnodup => ?_⟩
  by_cases hq : q' = q
  · subst hq
    rw [Function.update_self]
    exact hnodup.sublist (h.map Entry.id)
  · rwa [Function.update_of_ne hq]

theorem within_drop (qs : Contents) (q : QueueName) (e : Entry) : Within (qs.drop q e) qs :=
  within_sublist List.filter_sublist

theorem within_search (jobId : Value) (calls : RemovalCalls) (q : QueueName) (qs : Contents) :
    Within (searchQueue jobId calls q qs).1 qs := by
  unfold searchQueue
  split
  · exact within_sublist (removeFrom_sublist _ _ _)
  · exact .rfl

theorem mem_search {jobId : Value} {calls : RemovalCalls} {q q' : QueueName} {x : Entry}
    (hx : x ∈ (searchQueue jobId calls q qs).1 q') : x ∈ qs q' := by
  unfold searchQueue at hx
  split at hx
  · exact mem_of_sublist (removeFrom_sublist _ _ _) hx
  · exact hx

/-- A step that adds no row, no call and no entry. -/
theorem Sane.within (h : Sane s) (hrows : ∀ id, s'.Known id ↔ s.Known id)
    (henqueuing : s'.enqueuing.Sublist s.enqueuing) (hq : Within s'.store.queues s.store.queues) :
    Sane s' where
  -- an entry of now is one of before, up to its attempts and its state
  known q e' he' := by
    obtain ⟨e, he, hsame⟩ := hq.same q e' he'
    rw [hrows, hsame.data]
    exact h.known q e he
  nodup q := hq.nodup q (h.nodup q)
  oneQueue q q' e₁ he₁ e₂ he₂ hid := by
    obtain ⟨e, he, hsame⟩ := hq.same q e₁ he₁
    obtain ⟨e', he', hsame'⟩ := hq.same q' e₂ he₂
    rw [hsame.data, hsame'.data] at hid
    exact h.oneQueue q q' e he e' he' hid
  own q e' he' hknown := by
    obtain ⟨e, he, hsame⟩ := hq.same q e' he'
    rw [hrows, hsame.id] at hknown
    rw [hsame.id, hsame.data]
    exact h.own q e he hknown
  source q e' he' hrep := by
    obtain ⟨e, he, hsame⟩ := hq.same q e' he'
    rw [hsame.repeatable] at hrep
    rw [hsame.id, hsame.data]
    exact h.source q e he hrep
  key q e' he' := by
    obtain ⟨e, he, hsame⟩ := hq.same q e' he'
    rw [hrows, hsame.key]
    exact h.key q e he
  pending p hp := by
    obtain ⟨hknown, hnone⟩ := h.pending p (henqueuing.subset hp)
    refine ⟨(hrows _).mpr hknown, fun q e' he' => ?_⟩
    obtain ⟨e, he, hsame⟩ := hq.same q e' he'
    rw [hsame.data]
    exact hnone q e he
  distinct := h.distinct.sublist (henqueuing.map _)

theorem mem_append {q q' : QueueName} {e x : Entry} (hx : x ∈ qs.append q e q') :
    x ∈ qs q' ∨ (q' = q ∧ x = e) := by
  unfold Contents.append at hx
  by_cases hq : q' = q
  · subst hq
    rw [Function.update_self, List.mem_append, List.mem_singleton] at hx
    exact hx.imp_right fun h => ⟨rfl, h⟩
  · rw [Function.update_of_ne hq] at hx
    exact .inl hx

/-- What has to hold of an entry that is put into `q`. -/
structure Fits (s : System) (q : QueueName) (e : Entry) : Prop where
  known : s.Known e.data.scheduleId
  fresh : ∀ x ∈ s.store.queues q, x.id ≠ e.id
  queue : ∀ q', ∀ x ∈ s.store.queues q', x.data.scheduleId = e.data.scheduleId → q' = q
  own : s.Known e.id → e.id = e.data.scheduleId
  source : e.repeatable = true → e.id = e.data.scheduleId
  key : ¬ s.Known e.key

/-- A step that adds one. -/
theorem Sane.append (h : Sane s) {q : QueueName} {e : Entry} (hfits : Fits s q e)
    (hrows : ∀ id, s'.Known id ↔ s.Known id) (henqueuing : s'.enqueuing.Sublist s.enqueuing)
    (hpending : ∀ p ∈ s'.enqueuing, p.2.id ≠ e.data.scheduleId)
    (hq : s'.store.queues = s.store.queues.append q e) : Sane s' where
  known q' x hx := by
    rw [hq] at hx
    rw [hrows]
    rcases mem_append hx with hx | ⟨rfl, rfl⟩
    · exact h.known q' x hx
    · exact hfits.known
  nodup q' := by
    rw [hq]
    -- only the queue it is put into changes
    unfold Contents.append
    by_cases hsame : q' = q
    · subst hsame
      rw [Function.update_self, List.map_append, List.nodup_append]
      refine ⟨h.nodup q', List.nodup_singleton _, fun a ha b hb => ?_⟩
      obtain ⟨x, hx, rfl⟩ := List.mem_map.mp ha
      rw [List.map_singleton, List.mem_singleton] at hb
      rw [hb]
      exact hfits.fresh x hx
    · rw [Function.update_of_ne hsame]
      exact h.nodup q'
  oneQueue q₁ q₂ x hx y hy hid := by
    rw [hq] at hx hy
    -- either of the two may be the new one
    rcases mem_append hx with hxold | ⟨rfl, rfl⟩
    · rcases mem_append hy with hyold | ⟨rfl, rfl⟩
      · exact h.oneQueue q₁ q₂ x hxold y hyold hid
      · exact hfits.queue q₁ x hxold hid
    · rcases mem_append hy with hyold | ⟨rfl, rfl⟩
      · exact (hfits.queue q₂ y hyold hid.symm).symm
      · rfl
  own q' x hx hknown := by
    rw [hq] at hx
    rw [hrows] at hknown
    rcases mem_append hx with hx | ⟨rfl, rfl⟩
    · exact h.own q' x hx hknown
    · exact hfits.own hknown
  source q' x hx hrep := by
    rw [hq] at hx
    rcases mem_append hx with hx | ⟨rfl, rfl⟩
    · exact h.source q' x hx hrep
    · exact hfits.source hrep
  key q' x hx := by
    rw [hq] at hx
    rw [hrows]
    rcases mem_append hx with hx | ⟨rfl, rfl⟩
    · exact h.key q' x hx
    · exact hfits.key
  pending p hp := by
    obtain ⟨hknown, hnone⟩ := h.pending p (henqueuing.subset hp)
    refine ⟨(hrows _).mpr hknown, fun q' x hx => ?_⟩
    rw [hq] at hx
    rcases mem_append hx with hx | ⟨rfl, rfl⟩
    · exact hnone q' x hx
    · exact (hpending p hp).symm
  distinct := h.distinct.sublist (henqueuing.map _)

/-- A step that adds a row, and a call that has saved it. -/
theorem Sane.save (h : Sane s) {row : Schedule} {job : Job} (hnew : ¬ s.Known row.id)
    (hfresh : s.freshRow row.id) (hrows : ∀ id, s'.Known id ↔ id = row.id ∨ s.Known id)
    (henqueuing : s'.enqueuing = s.enqueuing ∨ s'.enqueuing = s.enqueuing ++ [(job, row)])
    (hq : s'.store.queues = s.store.queues) : Sane s' where
  known q e he := by
    rw [hq] at he
    exact (hrows _).mpr (.inr (h.known q e he))
  nodup q := by
    rw [hq]
    exact h.nodup q
  oneQueue q q' e he e' he' hid := by
    rw [hq] at he he'
    exact h.oneQueue q q' e he e' he' hid
  own q e he hknown := by
    rw [hq] at he
    rcases (hrows _).mp hknown with hid | hknown
    · -- the id the database generated is not that of an entry
      exact absurd hid (hfresh q e he).1
    · exact h.own q e he hknown
  source q e he hrep := by
    rw [hq] at he
    exact h.source q e he hrep
  key q e he hknown := by
    rw [hq] at he
    rcases (hrows _).mp hknown with hkey | hknown
    · exact (hfresh q e he).2 hkey
    · exact h.key q e he hknown
  pending p hp := by
    have hcases : p ∈ s.enqueuing ∨ p = (job, row) := by
      rcases henqueuing with henq | henq
      · exact .inl (henq ▸ hp)
      · rw [henq, List.mem_append, List.mem_singleton] at hp
        exact hp
    rw [hq]
    rcases hcases with hp | rfl
    · obtain ⟨hknown, hnone⟩ := h.pending p hp
      exact ⟨(hrows _).mpr (.inr hknown), hnone⟩
    · -- no entry can be for a row that was not there
      refine ⟨(hrows _).mpr (.inl rfl), fun q e he hid => hnew ?_⟩
      rw [← hid]
      exact h.known q e he
  distinct := by
    rcases henqueuing with henq | henq
    · rw [henq]
      exact h.distinct
    · rw [henq, List.map_append, List.nodup_append]
      refine ⟨h.distinct, List.nodup_singleton _, fun a ha b hb => ?_⟩
      obtain ⟨p, hp, rfl⟩ := List.mem_map.mp ha
      rw [List.map_singleton, List.mem_singleton] at hb
      -- a call under way has saved its row, and this one was not there
      rintro hid
      exact hnew (hb ▸ hid ▸ (h.pending p hp).1)

end Preserved

/-! ## Steps and runs -/

section Steps

variable {env : Env} {s s' : System}

theorem Sane.fired (h : Sane s) {q : QueueName} {e : Entry} {stamp : Stamp}
    (he : e ∈ s.store.queues q) (hfresh : s.freshStamp stamp) :
    Fits s q (occurrence stamp e) where
  known := h.known q e he
  fresh := hfresh.1 q
  queue q' x hx hid := h.oneQueue q' q x hx e he hid
  own hknown := by
    obtain ⟨row, hrow, hid⟩ := List.mem_map.mp hknown
    exact absurd hid (hfresh.2 row hrow).1
  source hrep := by cases hrep
  key := h.key q e he

theorem Sane.enqueued (h : Sane s) {p : Job × Schedule} {stamp : Stamp} {q : QueueName}
    {opts : JobsOptions} {now : Int} (hp : p ∈ s.enqueuing)
    (hopts : optionsFor now p.2 = some opts) (hfresh : s.freshStamp stamp) :
    Fits s q (newEntry stamp q "execute-job" ⟨p.1.id, p.2.id⟩ opts) ∧
      ∀ jobId, opts.jobId = some jobId → ∀ e ∈ s.store.queues q, e.id ≠ jobId := by
  obtain ⟨hknown, hnone⟩ := h.pending p hp
  have hid := jobId_of_optionsFor hopts
  -- the schedule's id is the id of an entry only if that entry is for it
  have hfree : ∀ e ∈ s.store.queues q, e.id ≠ p.2.id := by
    intro e he hsame
    have hown := h.own q e he (hsame ▸ hknown)
    exact hnone q e he (hown.symm.trans hsame)
  -- what Redis generates is not the id of a row
  have hunknown : ∀ id, (id = stamp.id ∨ id = stamp.key) → ¬ s.Known id := by
    intro id hid hknown
    obtain ⟨row, hrow, rfl⟩ := List.mem_map.mp hknown
    rcases hid with hid | hid
    · exact (hfresh.2 row hrow).1 hid
    · exact (hfresh.2 row hrow).2 hid
  constructor
  · refine ⟨hknown, ?_, fun q' x hx hsame => absurd hsame (hnone q' x hx), ?_, ?_,
      hunknown stamp.key (.inr rfl)⟩
    · -- an IMMEDIATE entry takes a generated id, any other that of its schedule
      intro x hx
      rcases hid with ⟨-, hjob⟩ | ⟨-, hjob⟩
      · simpa [newEntry, hjob] using hfresh.1 q x hx
      · simpa [newEntry, hjob] using hfree x hx
    · intro hk
      rcases hid with ⟨-, hjob⟩ | ⟨-, hjob⟩
      · refine absurd hk (hunknown _ (.inl ?_))
        simp [newEntry, hjob]
      · simp [newEntry, hjob]
    · intro hrep
      rcases hid with ⟨htype, hjob⟩ | ⟨-, hjob⟩
      · -- an IMMEDIATE entry does not repeat
        rw [optionsFor, htype] at hopts
        obtain rfl := Option.some.inj hopts
        cases q <;> cases hrep
      · simp [newEntry, hjob]
  · intro jobId hjobId e he
    rcases hid with ⟨-, hjob⟩ | ⟨-, hjob⟩
    · rw [hjob] at hjobId
      cases hjobId
    · rw [hjob] at hjobId
      rw [← Option.some.inj hjobId]
      exact hfree e he

/-- A row is found under its own id only. -/
theorem known_insert {t t' : Keyed Schedule.id} {row : Schedule} (h : t.insert row = some t')
    (id : Uuid) :
    id ∈ t'.rows.map Schedule.id ↔ id = row.id ∨ id ∈ t.rows.map Schedule.id := by
  rw [Keyed.rows_insert h, List.map_cons, List.mem_cons]

theorem unknown_of_insert {t t' : Keyed Schedule.id} {row : Schedule}
    (h : t.insert row = some t') : row.id ∉ t.rows.map Schedule.id := by
  intro hmem
  obtain ⟨old, hold, hid⟩ := List.mem_map.mp hmem
  exact Keyed.get_eq_none.mp (Keyed.get_insert h row.id).1 old hold hid

/-- The call that asks the queue is no longer under way. -/
theorem distinct_eraseIdx {calls : List (Job × Schedule)} {n : Nat} {p : Job × Schedule}
    (hdistinct : (calls.map fun p => p.2.id).Nodup) (hn : calls[n]? = some p) :
    ∀ p' ∈ calls.eraseIdx n, p'.2.id ≠ p.2.id := by
  obtain ⟨hlt, hget⟩ := List.getElem?_eq_some_iff.mp hn
  -- the call and the ones that are left are the calls there were
  have hperm := (List.getElem_cons_eraseIdx_perm hlt).map fun p : Job × Schedule => p.2.id
  have hnodup := hperm.nodup_iff.mpr hdistinct
  rw [List.map_cons, List.nodup_cons, hget] at hnodup
  intro p' hp' hid
  exact hnodup.1 (List.mem_map.mpr ⟨p', hp', hid⟩)

/-- **Step lemma.** -/
theorem Sane.step {event : Event} (h : Sane s) (hstep : step env s event = some s') :
    Sane s' := by
  cases step_cases hstep with
  | elapse d => exact h.within (fun _ => Iff.rfl) (.refl _) .rfl
  | createJob id dto jobs => exact h.within (fun _ => Iff.rfl) (.refl _) .rfl
  | notSaved dto calls => exact h
  | saved dto calls job row schedules enqueuing hfresh hsaved henqueuing =>
    have hid : row.id = calls.id := (newSchedule_spec hsaved.row).id_eq
    refine h.save (unknown_of_insert hsaved.inserted) ?_ (known_insert hsaved.inserted)
      henqueuing rfl
    rw [hid]
    exact hfresh
  | enqueued n calls job row stamp queues hn hnow hfresh hqueues =>
    have hsub : (s.enqueuing.eraseIdx n).Sublist s.enqueuing := List.eraseIdx_sublist ..
    rcases hqueues with rfl | ⟨opts, -, hopts, rfl⟩
    · -- the queue was not asked, or lost the entry
      exact h.within (fun _ => Iff.rfl) hsub .rfl
    · obtain ⟨hfits, hfree⟩ := h.enqueued (q := getQueueName job.priority)
        (List.mem_of_getElem? hn) hopts hfresh
      exact h.append hfits (fun _ => Iff.rfl) hsub (distinct_eraseIdx h.distinct hn)
        (Contents.add_eq hfree)
  | notDeactivated scheduleId calls => exact h
  | deactivated scheduleId calls row removing hfound hremoving =>
    -- the row that is replaced keeps its id
    refine h.within (fun id => ?_) (.refl _) .rfl
    exact iff_of_eq (congrArg (id ∈ ·) (Keyed.map_key_replace _ _))
  | searched n calls scheduleId given q rest hn =>
    exact h.within (fun _ => Iff.rfl) (.refl _) (within_search given calls q _)
  | resolved n scheduleId given hn => exact h.within (fun _ => Iff.rfl) (.refl _) .rfl
  | fired q e stamp stamp' he hfires hnow hfresh =>
    -- the entry notes the instant, and its occurrence is put in
    have hswap : Within (s.store.queues.swap q e (e.noted s.now))
        s.store.queues := within_swap _ q (Entry.same_noted s.now e)
    have hnoted : Sane (s.withQueues
        (s.store.queues.swap q e (e.noted s.now))) :=
      h.within (fun _ => Iff.rfl) (.refl _) hswap
    have hfresh' : System.freshStamp (s.withQueues
        (s.store.queues.swap q e (e.noted s.now))) stamp' := by
      refine ⟨fun q' x hx => ?_, hfresh.2⟩
      obtain ⟨y, hy, hsame⟩ := hswap.same q' x hx
      rw [hsame.id]
      exact hfresh.1 q' y hy
    have hfits := hnoted.fired (swap_mem he _) hfresh'
    exact hnoted.append hfits (fun _ => Iff.rfl) (.refl _)
      (fun p hp hid => (h.pending p hp).2 q e he hid.symm) rfl
  | taken q e trace he hready htrace =>
    exact h.within (fun _ => Iff.rfl) (.refl _) (within_swap _ q (Entry.same_taken e))
  | dropped q e calls he hactive =>
    exact h.within (fun _ => Iff.rfl) (.refl _) (within_drop _ q e)
  | retried q e calls he hactive hretries =>
    exact h.within (fun _ => Iff.rfl) (.refl _) (within_swap _ q (Entry.same_back e))
  | stalled q e he hactive =>
    exact h.within (fun _ => Iff.rfl) (.refl _) (within_swap _ q (Entry.same_back e))

theorem Initial.no_entry {s₀ : System} (h : Initial s₀) {q : QueueName} {e : Entry} :
    e ∉ s₀.store.queues q := by
  rw [h.queues q]
  exact List.not_mem_nil

theorem Initial.sane {s₀ : System} (h₀ : Initial s₀) : Sane s₀ where
  known q e he := absurd he h₀.no_entry
  nodup q := by simp [h₀.queues q]
  oneQueue q q' e he := absurd he h₀.no_entry
  own q e he := absurd he h₀.no_entry
  source q e he := absurd he h₀.no_entry
  key q e he := absurd he h₀.no_entry
  pending p hp := by simp [h₀.enqueuing] at hp
  distinct := by simp [h₀.enqueuing]

/-- **Run lemma.** -/
theorem sane {C : System → Event → Prop} (h : (machine env).Reachable C s) : Sane s :=
  h.invariant (I := Sane) (fun _ h₀ => Initial.sane h₀) fun _ _ _ hs _ hstep => hs.step hstep

/-- Around the id of a saved schedule the entries are named as `removeJob`
expects. -/
theorem Sane.named (h : Sane s) {id : Uuid} (hknown : s.Known id) (q : QueueName) :
    Named (s.store.queues q) id where
  nodup := h.nodup q
  own e he hid := decide_eq_true ((h.own q e he (hid ▸ hknown)).symm.trans hid)
  source e he hcarries hrep := (h.source q e he hrep).trans (of_decide_eq_true hcarries)
  key e he hkey := h.key q e he (hkey ▸ hknown)

/-! ## Where things come from -/

/-- An entry is for the schedule of one that was in its queue, or of a call that
had still to ask the queue. -/
theorem entry_origin {event : Event} (hstep : step env s event = some s') {q : QueueName}
    {e' : Entry} (he' : e' ∈ s'.store.queues q) :
    (∃ e ∈ s.store.queues q, e'.data = e.data) ∨
      ∃ p ∈ s.enqueuing, e'.data.scheduleId = p.2.id := by
  -- only `enqueued` and `fired` put an entry in
  have hwithin : Within s'.store.queues s.store.queues →
      ∃ e ∈ s.store.queues q, e'.data = e.data := by
    intro h
    obtain ⟨e, he, hsame⟩ := h.same q e' he'
    exact ⟨e, he, hsame.data⟩
  cases step_cases hstep with
  | elapse d => exact .inl (hwithin .rfl)
  | createJob id dto jobs => exact .inl (hwithin .rfl)
  | notSaved dto calls => exact .inl (hwithin .rfl)
  | saved dto calls job row schedules enqueuing hfresh hsaved henqueuing =>
    exact .inl (hwithin .rfl)
  | enqueued n calls job row stamp queues hn hnow hfresh hqueues =>
    rcases hqueues with rfl | ⟨opts, -, hopts, rfl⟩
    · exact .inl (hwithin .rfl)
    · rcases Contents.mem_add he' with hold | ⟨rfl, rfl⟩
      · exact .inl ⟨e', hold, rfl⟩
      · exact .inr ⟨(job, row), List.mem_of_getElem? hn, rfl⟩
  | notDeactivated scheduleId calls => exact .inl (hwithin .rfl)
  | deactivated scheduleId calls row removing hfound hremoving => exact .inl (hwithin .rfl)
  | searched n calls scheduleId given q' rest hn =>
    exact .inl (hwithin (within_search given calls q' _))
  | resolved n scheduleId given hn => exact .inl (hwithin .rfl)
  | fired q' e stamp stamp' he hfires hnow hfresh =>
    rcases mem_append he' with hold | ⟨rfl, rfl⟩
    · obtain ⟨x, hx, hsame⟩ := (within_swap s.store.queues q'
        (Entry.same_noted s.now e)).same q e' hold
      exact .inl ⟨x, hx, hsame.data⟩
    · exact .inl ⟨e, he, rfl⟩
  | taken q' e trace he hready htrace =>
    exact .inl (hwithin (within_swap _ q' (Entry.same_taken e)))
  | dropped q' e calls he hactive => exact .inl (hwithin (within_drop _ q' e))
  | retried q' e calls he hactive hretries =>
    exact .inl (hwithin (within_swap _ q' (Entry.same_back e)))
  | stalled q' e he hactive =>
    exact .inl (hwithin (within_swap _ q' (Entry.same_back e)))

/-- A call that has still to ask the queue did so before, or has just saved a
row no one knew. -/
theorem call_origin {event : Event} (hstep : step env s event = some s')
    {p : Job × Schedule} (hp : p ∈ s'.enqueuing) :
    p ∈ s.enqueuing ∨ (¬ s.Known p.2.id ∧
      s'.store.schedules.rows = p.2 :: s.store.schedules.rows) := by
  cases step_cases hstep with
  | saved dto calls job row schedules enqueuing hfresh hsaved henqueuing =>
    rcases henqueuing with rfl | rfl
    · exact .inl hp
    · rcases List.mem_append.mp hp with hp | hp
      · exact .inl hp
      · obtain rfl := List.mem_singleton.mp hp
        exact .inr ⟨unknown_of_insert hsaved.inserted, Keyed.rows_insert hsaved.inserted⟩
  | enqueued n calls job row stamp queues hn hnow hfresh hqueues =>
    exact .inl (List.mem_of_mem_eraseIdx hp)
  | _ => exact .inl hp

/-- Rows stay. -/
theorem Known.step {event : Event} (hstep : step env s event = some s') {id : Uuid}
    (h : s.Known id) : s'.Known id := by
  cases step_cases hstep with
  | saved dto calls job row schedules enqueuing hfresh hsaved henqueuing =>
    exact (known_insert hsaved.inserted id).mpr (.inr h)
  | deactivated scheduleId calls row removing hfound hremoving =>
    exact (congrArg (id ∈ ·) (Keyed.map_key_replace _ _)).mpr h
  | _ => exact h

end Steps

end SchedulingService.Scheduler
