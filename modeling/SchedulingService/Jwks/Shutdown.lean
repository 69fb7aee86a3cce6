import SchedulingService.Jwks.Newest

/-!
# After `onModuleDestroy`

It clears the timers that are armed and sets a flag. The two loops look at the
flag after each of their awaits. A reload does not: its `finally` arms the timer
of the debounce window, and a call for an unknown kid starts one.

Main result: `quiescent_iff` — exactly when the service stays quiet.
-/

namespace SchedulingService.Jwks

open Js

/-- What comes after `onModuleDestroy` is no fetch. -/
def NotFetched (later earlier : Obs) : Prop := earlier = .destroyed → ∀ ℓ, later ≠ .fetched ℓ

/-- After `onModuleDestroy` no timer is armed, and no fetch starts. -/
structure Quiescent (s : Sys) : Prop where
  timers : s.destroyed = true → s.timers = []
  fetches : s.trace.Pairwise NotFetched

/-- The step does not come to the `finally` of a reload after the module is gone,
and is no call that then finds no reload in flight, where there is an endpoint to
ask. -/
structure Ignored (E : Env) (s : Sys) (e : Event) : Prop where
  settle : s.destroyed = true → ∀ ℓ, e = .settle ℓ → ¬ s.InFlight ℓ
  call : s.destroyed = true → e = .scheduleReload → s.reloadPromise ≠ none ∨ E.jwksUri = none

/-- The flag is set once `onModuleDestroy` was called. -/
def Flagged (s : Sys) : Prop := s.destroyed = true ↔ .destroyed ∈ s.trace

section Step

variable {E : Env} {s s' : Sys} {e : Event}

theorem destroyed_mem_fetches (ℓ : LoadId) (trace : List Obs) :
    .destroyed ∈ E.fetches ℓ ++ trace ↔ .destroyed ∈ trace := by
  unfold Env.fetches
  split <;> simp

theorem Flagged.step (h : Flagged s) (hs : Step E s e s') : Flagged s' := by
  unfold Flagged at h ⊢
  cases hs with
  | init =>
    rw [loadPublicKey_eq]
    exact h.trans (destroyed_mem_fetches _ _).symm
  | retried =>
    rw [loadPublicKey_eq]
    exact h.trans (destroyed_mem_fetches _ _).symm
  | reloadStarted =>
    rw [loadPublicKey_eq]
    simp only [List.mem_cons, reduceCtorEq, false_or, destroyed_mem_fetches]
    exact h
  | destroy => simp [Sys.onModuleDestroy]
  | fired =>
    unfold Sys.fired
    split <;> exact h
  | loaded => simpa [Sys.setLoad] using h
  | reloadSettled => simpa [Sys.reloadFinally, Sys.arm, Sys.dropLoad] using h
  | elapse | progress | ended | slept | woken | reloadSkipped => exact h

/-- What is added to a trace without a fetch, or before the module is gone,
changes nothing. -/
theorem fetches_cons {trace : List Obs} {obs : Obs} (h : trace.Pairwise NotFetched)
    (hobs : .destroyed ∉ trace ∨ ∀ ℓ, obs ≠ .fetched ℓ) :
    (obs :: trace).Pairwise NotFetched := by
  refine List.pairwise_cons.mpr ⟨fun earlier hearlier hdestroyed => ?_, h⟩
  rcases hobs with hnot | hother
  · exact absurd (hdestroyed ▸ hearlier) hnot
  · exact hother

/-- The start of a load is quiet exactly if nothing is fetched or the module is
there. -/
theorem fetches_append_iff {trace : List Obs} (ℓ : LoadId) (h : trace.Pairwise NotFetched) :
    (E.fetches ℓ ++ trace).Pairwise NotFetched ↔ (.destroyed ∈ trace → E.jwksUri = none) := by
  unfold Env.fetches
  cases huri : E.jwksUri with
  -- `getOrThrow` throws before the fetch
  | none => exact iff_of_true h fun _ => rfl
  | some uri =>
    constructor
    · intro hpair hmem
      exact absurd rfl ((List.pairwise_cons.mp hpair).1 _ hmem rfl ℓ)
    · intro hnot
      exact fetches_cons h (.inl fun hmem => by cases hnot hmem)

/-- Before the module is gone, and while its loops end, the service is quiet. -/
theorem quiescent_of_alive (hflagged : Flagged s) (h : Quiescent s) (ht : Tracked s)
    (halive : s.destroyed = false) (hs : Step E s e s') : Quiescent s' := by
  have hnot : .destroyed ∉ s.trace := fun hmem => by
    rw [hflagged.mpr hmem] at halive
    cases halive
  -- so a load may start
  have hfetches : ∀ ℓ, (E.fetches ℓ ++ s.trace).Pairwise NotFetched := fun ℓ =>
    (fetches_append_iff ℓ h.fetches).mpr fun hmem => absurd hmem hnot
  have hstill : ∀ {p : Prop}, s.destroyed = true → p := fun hgone => by
    rw [halive] at hgone
    cases hgone
  cases hs with
  | init =>
    rw [loadPublicKey_eq]
    exact ⟨fun hgone => hstill hgone, hfetches _⟩
  | retried =>
    rw [loadPublicKey_eq]
    exact ⟨fun hgone => hstill hgone, hfetches _⟩
  | reloadStarted =>
    rw [loadPublicKey_eq]
    exact ⟨fun hgone => hstill hgone, fetches_cons (hfetches _) (.inr (by simp))⟩
  | destroy => exact ⟨fun _ => ht.timers_destroy, fetches_cons h.fetches (.inr (by simp))⟩
  | fired =>
    unfold Sys.fired
    split <;> exact ⟨fun hgone => hstill hgone, h.fetches⟩
  | loaded => exact ⟨fun hgone => hstill hgone, fetches_cons h.fetches (.inr (by simp))⟩
  | reloadSettled => exact ⟨fun hgone => hstill hgone, fetches_cons h.fetches (.inr (by simp))⟩
  | elapse | progress | ended | slept | woken | reloadSkipped =>
    exact ⟨fun hgone => hstill hgone, h.fetches⟩

/-- **One step** out of a quiet state. -/
theorem quiescent_step (hflagged : Flagged s) (ht : Tracked s) (h : Quiescent s)
    (hs : Step E s e s') : Quiescent s' ↔ Ignored E s e := by
  cases hgone : s.destroyed with
  | false =>
    refine iff_of_true (quiescent_of_alive hflagged h ht hgone hs) ⟨?_, ?_⟩
    · exact fun hdestroyed => by rw [hgone] at hdestroyed; cases hdestroyed
    · exact fun hdestroyed => by rw [hgone] at hdestroyed; cases hdestroyed
  | true =>
    have htimers := h.timers hgone
    have hmem := hflagged.mp hgone
    -- no window is open any more
    have hclosed : s.reloadDebounceTimer = none := by
      cases htimer : s.reloadDebounceTimer with
      | none => rfl
      | some handle =>
        obtain ⟨t, hmem, -⟩ := ht.timers.debounced handle htimer
        rw [htimers] at hmem
        cases hmem
    cases hs with
    -- the loops look at the flag before they go on
    | init _ halive | slept _ _ _ _ halive | retried _ halive =>
      rw [hgone] at halive
      cases halive
    | fired hmem =>
      rw [htimers] at hmem
      cases hmem
    | elapse | woken =>
      exact iff_of_true ⟨fun _ => htimers, h.fetches⟩ ⟨by simp, by simp⟩
    | destroy =>
      exact iff_of_true ⟨fun _ => ht.timers_destroy, fetches_cons h.fetches (.inr (by simp))⟩
        ⟨by simp, by simp⟩
    | loaded =>
      exact iff_of_true ⟨fun _ => htimers, fetches_cons h.fetches (.inr (by simp))⟩
        ⟨by simp, by simp⟩
    | progress stage' hload hrunning hbody hevent =>
      exact iff_of_true ⟨fun _ => htimers, h.fetches⟩
        ⟨fun _ ℓ hsettle => absurd hsettle (hevent.2.2 ℓ),
          fun _ hcall => absurd hcall hevent.2.1⟩
    | @ended ℓ origin ok hload horigin =>
      -- what ends is a loop, and no reload
      refine iff_of_true ⟨fun _ => htimers, h.fetches⟩ ⟨fun _ ℓ' hsettle => ?_, by simp⟩
      obtain rfl := Event.settle.inj hsettle
      rintro ⟨stage, hreload⟩
      rw [hload] at hreload
      exact horigin (Load.mk.inj (Option.some.inj hreload)).1
    | @reloadSettled ℓ ok hload =>
      refine iff_of_false (fun h' => ?_) (fun hignored => ?_)
      · -- the window's timer is armed
        have := h'.timers hgone
        cases this
      · exact hignored.settle hgone ℓ rfl ⟨_, hload⟩
    | reloadSkipped hbusy =>
      refine iff_of_true h ⟨by simp, fun _ _ => .inl ?_⟩
      exact hbusy.resolve_right fun hopen => hopen hclosed
    | reloadStarted hpromise htimer =>
      rw [loadPublicKey_eq]
      -- it is quiet only if there is no endpoint to ask
      have hpair := fetches_append_iff (E := E) s.nextLoad h.fetches
      constructor
      · intro h'
        refine ⟨by simp, fun _ _ => .inr ?_⟩
        exact hpair.mp (List.pairwise_cons.mp h'.fetches).2 hmem
      · intro hignored
        have huri := (hignored.call hgone rfl).resolve_left fun hbusy => hbusy hpromise
        exact ⟨fun _ => htimers, fetches_cons (hpair.mpr fun _ => huri) (.inr (by simp))⟩

end Step

/-- **Runs.** The service is quiet in every state of a run after
`onModuleDestroy`, exactly when no reload comes to its `finally` and no call
starts one after it. -/
theorem quiescent_iff {E : Env} {s₀ s : Sys} {es : List Event} (hinit : (machine E).Init s₀)
    (hrun : (machine E).exec s₀ es = some s) :
    (machine E).Throughout Quiescent s₀ es ↔ (machine E).Along (Ignored E) s₀ es := by
  obtain ⟨now, rfl⟩ := hinit
  have hstart : Quiescent (.start now) := ⟨fun _ => rfl, List.Pairwise.nil⟩
  have hflagged : Flagged (.start now) := by simp [Flagged, Sys.start]
  refine Machine.throughout_iff_along (J := fun s => Flagged s ∧ Tracked s)
    (fun s e s' hj h hstep => ?_) (fun s e s' hj hstep => ?_) hrun
    ⟨hflagged, tracked_start now⟩ hstart
  · exact quiescent_step hj.1 hj.2 h (step_spec hstep)
  · exact ⟨hj.1.step (step_spec hstep), hj.2.step (step_spec hstep)⟩

/-! ## The counterexample -/

/-- The keys are loaded at startup. -/
def loadedStartup : List Event :=
  [.init, .respond 0 true, .body 0 (some (oneKey "first")), .settle 0]

theorem quiescent_iff_loadedStartup :
    (machine plainKeys).Throughout Quiescent (.start 0) (loadedStartup ++ [.destroy]) ↔
      (machine plainKeys).Along (Ignored plainKeys) (.start 0) (loadedStartup ++ [.destroy]) := by
  obtain ⟨s, hrun⟩ : ∃ s,
      (machine plainKeys).exec (.start 0) (loadedStartup ++ [.destroy]) = some s := ⟨_, rfl⟩
  exact quiescent_iff ⟨0, rfl⟩ hrun

/-- A reload is in flight when the module goes, and arms a timer when it ends;
and a request after that has a kid that is unknown, and starts a fetch. -/
theorem not_quiescent_after_destroy :
    (∃ s, (machine plainKeys).exec (.start 0)
        (loadedStartup ++ [.scheduleReload, .destroy, .fetchError 1, .settle 1]) = some s ∧
      s.destroyed = true ∧ s.timers = [⟨0, .debounce, 5000⟩] ∧ ¬ Quiescent s) ∧
    ∃ s, (machine plainKeys).exec (.start 0) (loadedStartup ++ [.destroy, .scheduleReload]) =
        some s ∧
      s.trace.take 3 = [.reloadStarted 1 0, .fetched 1, .destroyed] ∧ ¬ Quiescent s := by
  constructor
  · refine ⟨_, rfl, rfl, rfl, fun h => ?_⟩
    have := h.timers rfl
    cases this
  · refine ⟨_, rfl, rfl, fun h => ?_⟩
    have hfetch := (List.pairwise_cons.mp (List.pairwise_cons.mp h.fetches).2).1
    exact hfetch .destroyed List.mem_cons_self rfl 1 rfl

end SchedulingService.Jwks
