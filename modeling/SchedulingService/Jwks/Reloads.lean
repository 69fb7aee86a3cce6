import SchedulingService.Jwks.Tracking
import SchedulingService.Lib.Spacing

/-!
# How often the keys are reloaded

`scheduleReloadForUnknownKid` may be called at any time and any number of times;
whoever sends a token chooses its kid. A reload starts only where none is in
flight and no debounce window is open, and a window opens when a reload ends.

Main results:

* `Paced` and its lemmas — the windows, in terms of what the trace shows;
* `boundedReloads` — how many reloads there are before the module goes.
-/

namespace SchedulingService.Jwks

/-- It is about a reload. -/
def Obs.ofReload : Obs → Bool
  | reloadStarted _ _ => true
  | reloadSettled _ _ => true
  | _ => false

/-- When a reload started. -/
def Obs.startTime : Obs → Option Int
  | reloadStarted _ time => some time
  | _ => none

/-- The starts of reloads, newest first. -/
def Sys.starts (s : Sys) : List Int := s.trace.filterMap Obs.startTime

/-- What the trace shows of reloads. -/
def Sys.reloads (s : Sys) : List Obs := s.trace.filter Obs.ofReload

/-- A start comes a debounce time after an end that is behind it. -/
def Apart (later earlier : Obs) : Prop :=
  ∀ ℓ t ℓ' t', later = .reloadStarted ℓ t → earlier = .reloadSettled ℓ' t' →
    t' + RELOAD_DEBOUNCE_MS ≤ t

/-- The reloads so far, at `now`, with `promise` in flight and `timers` armed. -/
structure Paced (now : Int) (promise : Option LoadId) (timers : List Timer)
    (reloads : List Obs) : Prop where
  past : ∀ ℓ t, .reloadStarted ℓ t ∈ reloads → t ≤ now
  /-- What has started has ended, if nothing is in flight. -/
  ended : promise = none → ∀ ℓ t, .reloadStarted ℓ t ∈ reloads →
    ∃ ℓ' t', .reloadSettled ℓ' t' ∈ reloads ∧ t ≤ t'
  /-- The window after an end is over, or its timer is armed. -/
  window : ∀ ℓ t, .reloadSettled ℓ t ∈ reloads → t + RELOAD_DEBOUNCE_MS ≤ now ∨
    ∃ timer ∈ timers, timer.purpose = .debounce ∧ t + RELOAD_DEBOUNCE_MS ≤ timer.deadline
  apart : reloads.Pairwise Apart
  starts : Spaced RELOAD_DEBOUNCE_MS (reloads.filterMap Obs.startTime)

namespace Paced

variable {now : Int} {promise : Option LoadId} {timers : List Timer} {reloads : List Obs}

theorem nil (now : Int) : Paced now none [] [] where
  past _ _ h := absurd h List.not_mem_nil
  ended _ _ _ h := absurd h List.not_mem_nil
  window _ _ h := absurd h List.not_mem_nil
  apart := List.Pairwise.nil
  starts := .nil

/-- Time passes. -/
theorem elapse (h : Paced now promise timers reloads) (ms : Nat) :
    Paced (now + ms) promise timers reloads where
  past ℓ t ht := by
    have := h.past ℓ t ht
    omega
  ended := h.ended
  window ℓ t ht := (h.window ℓ t ht).imp (fun hover => by omega) id
  apart := h.apart
  starts := h.starts

/-- Another timer is armed. -/
theorem addTimer (h : Paced now promise timers reloads) (timer : Timer) :
    Paced now promise (timer :: timers) reloads where
  past := h.past
  ended := h.ended
  window ℓ t ht := (h.window ℓ t ht).imp id fun ⟨timer', hmem, hrest⟩ =>
    ⟨timer', List.mem_cons_of_mem _ hmem, hrest⟩
  apart := h.apart
  starts := h.starts

/-- A timer fires; if it is that of a window, the window is over. -/
theorem fire (h : Paced now promise timers reloads) {timer : Timer}
    (hdue : timer.deadline ≤ now) : Paced now promise (timers.erase timer) reloads where
  past := h.past
  ended := h.ended
  window ℓ t ht := by
    rcases h.window ℓ t ht with hover | ⟨timer', hmem, hdebounce, hdeadline⟩
    · exact .inl hover
    · by_cases hsame : timer' = timer
      · -- it fires at its deadline or later
        subst hsame
        exact .inl (by omega)
      · exact .inr ⟨timer', (List.mem_erase_of_ne hsame).mpr hmem, hdebounce, hdeadline⟩
  apart := h.apart
  starts := h.starts

/-- Without a window, every end is a debounce time ago. -/
theorem closed (h : Paced now promise timers reloads)
    (hclosed : ∀ timer ∈ timers, timer.purpose ≠ .debounce) {ℓ : LoadId} {t : Int}
    (ht : .reloadSettled ℓ t ∈ reloads) : t + RELOAD_DEBOUNCE_MS ≤ now :=
  (h.window ℓ t ht).resolve_right fun ⟨timer, hmem, hdebounce, _⟩ => hclosed timer hmem hdebounce

/-- **A reload starts** where none is in flight and no window is open. -/
theorem start (h : Paced now none timers reloads)
    (hclosed : ∀ timer ∈ timers, timer.purpose ≠ .debounce) (ℓ : LoadId) :
    Paced now (some ℓ) timers (.reloadStarted ℓ now :: reloads) where
  past ℓ' t ht := by
    rcases List.mem_cons.mp ht with hnew | ht
    · obtain ⟨-, rfl⟩ := Obs.reloadStarted.inj hnew
      exact Int.le_refl t
    · exact h.past ℓ' t ht
  ended hnone := by cases hnone
  window ℓ' t ht := by
    have hold := (List.mem_cons.mp ht).resolve_left (by simp)
    exact .inl (h.closed hclosed hold)
  apart := by
    refine List.pairwise_cons.mpr ⟨fun earlier hearlier => ?_, h.apart⟩
    intro ℓ₁ t ℓ₂ t' hstart hend
    subst hend
    obtain ⟨-, rfl⟩ := Obs.reloadStarted.inj hstart
    exact h.closed hclosed hearlier
  starts := by
    rw [List.filterMap_cons_some (show Obs.startTime (.reloadStarted ℓ now) = some now from rfl)]
    refine h.starts.cons fun t ht => ?_
    -- an earlier start is before an end, which is a debounce time ago
    obtain ⟨obs, hobs, htime⟩ := List.mem_filterMap.mp ht
    obtain ⟨ℓ', rfl⟩ : ∃ ℓ', obs = .reloadStarted ℓ' t := by
      cases obs with
      | reloadStarted ℓ' t' =>
        obtain rfl := Option.some.inj htime
        exact ⟨ℓ', rfl⟩
      | _ => cases htime
    obtain ⟨ℓ'', t', hended, hle⟩ := h.ended rfl ℓ' t hobs
    have hover := h.closed hclosed hended
    omega

/-- **A reload ends**, and its window opens. -/
theorem settle (h : Paced now promise timers reloads) (ℓ : LoadId) (handle : Handle) :
    Paced now none (⟨handle, .debounce, now + RELOAD_DEBOUNCE_MS⟩ :: timers)
      (.reloadSettled ℓ now :: reloads) where
  past ℓ' t ht := h.past ℓ' t ((List.mem_cons.mp ht).resolve_left (by simp))
  ended _ ℓ' t ht := by
    have hold := (List.mem_cons.mp ht).resolve_left (by simp)
    exact ⟨ℓ, now, List.mem_cons_self, h.past ℓ' t hold⟩
  window ℓ' t ht := by
    rcases List.mem_cons.mp ht with hnew | ht
    · obtain ⟨-, rfl⟩ := Obs.reloadSettled.inj hnew
      exact .inr ⟨_, List.mem_cons_self, rfl, Int.le_refl _⟩
    · exact (h.addTimer _).window ℓ' t ht
  apart := by
    refine List.pairwise_cons.mpr ⟨fun earlier _ => ?_, h.apart⟩
    rintro ℓ₁ t ℓ₂ t' hstart
    cases hstart
  starts := by
    rw [List.filterMap_cons_none (show Obs.startTime (.reloadSettled ℓ now) = none from rfl)]
    exact h.starts

end Paced

/-! ## The service -/

theorem filter_fetches (E : Env) (ℓ : LoadId) (trace : List Obs) :
    (E.fetches ℓ ++ trace).filter Obs.ofReload = trace.filter Obs.ofReload := by
  unfold Env.fetches
  split <;> rfl

/-- The reloads before the module goes. -/
def Sys.Paced (s : Sys) : Prop :=
  s.destroyed = false → Jwks.Paced s.now s.reloadPromise s.timers s.reloads

theorem paced_start (now : Int) : (Sys.start now).Paced := fun _ => .nil now

/-- **Every step** keeps the pace. -/
theorem Sys.Paced.step {E : Env} {s s' : Sys} {e : Event} (ht : Tracked s) (h : s.Paced)
    (hs : Step E s e s') : s'.Paced := by
  intro halive
  cases hs with
  | elapse ms => exact (h halive).elapse ms
  | init hfirst _ =>
    rw [loadPublicKey_eq] at halive ⊢
    show Jwks.Paced _ _ _ ((E.fetches s.nextLoad ++ s.trace).filter Obs.ofReload)
    rw [filter_fetches]
    exact h halive
  | destroy => cases halive
  | progress => exact h halive
  | loaded => exact h halive
  | ended => exact h halive
  | slept purpose ms => exact (h halive).addTimer _
  | reloadSettled => exact (h halive).settle _ _
  | @fired handle t hmem hhandle hdue =>
    unfold Sys.fired at halive ⊢
    split at halive <;> exact (h halive).fire hdue
  | woken => exact h halive
  | retried hwoken _ =>
    rw [loadPublicKey_eq] at halive ⊢
    show Jwks.Paced _ _ _ ((E.fetches s.nextLoad ++ s.trace).filter Obs.ofReload)
    rw [filter_fetches]
    exact h halive
  | reloadSkipped => exact h halive
  | reloadStarted hpromise htimer =>
    rw [loadPublicKey_eq] at halive ⊢
    have hpaced := h halive
    rw [hpromise] at hpaced
    -- a window that is open would have its handle stored
    have hclosed : ∀ timer ∈ s.timers, timer.purpose ≠ .debounce := by
      intro timer hmem hdebounce
      have hstored := ht.timers.debouncing timer hmem hdebounce
      rw [htimer] at hstored
      cases hstored
    show Jwks.Paced _ _ _ (.reloadStarted s.nextLoad s.now ::
      (E.fetches s.nextLoad ++ s.trace).filter Obs.ofReload)
    rw [filter_fetches]
    exact hpaced.start hclosed s.nextLoad

/-- **Runs.** -/
theorem paced_of_reachable {E : Env} {C : Sys → Event → Prop} {s : Sys}
    (h : (machine E).Reachable C s) : s.Paced := by
  have hboth : Tracked s ∧ s.Paced := by
    refine h.invariant (I := fun s => Tracked s ∧ s.Paced) ?_ fun s e s' hs _ hstep => ?_
    · rintro s ⟨now, rfl⟩
      exact ⟨tracked_start now, paced_start now⟩
    · exact ⟨hs.1.step (step_spec hstep), hs.2.step hs.1 (step_spec hstep)⟩
  exact hboth.2

/-- The reloads of an unknown kid are bounded. -/
structure BoundedReloads (E : Env) (s : Sys) : Prop where
  single : ∀ ℓ ℓ', s.InFlight ℓ → s.InFlight ℓ' → ℓ = ℓ'
  spaced : ∀ later ℓ (t : Int) earlier, s.trace = later ++ .reloadStarted ℓ t :: earlier →
    ∀ ℓ' (t' : Int), .reloadSettled ℓ' t' ∈ earlier → t' + RELOAD_DEBOUNCE_MS ≤ t
  /-- A call is not lost where none is in flight and no window is open. -/
  prompt : (∀ ℓ, ¬ s.InFlight ℓ) → (∀ timer ∈ s.timers, timer.purpose ≠ .debounce) →
    ∃ s', step E s .scheduleReload = some s' ∧ s'.InFlight s.nextLoad ∧
      s'.trace.head? = some (.reloadStarted s.nextLoad s.now)
  bounded : ∀ (a : Int) (L : Nat),
    (s.starts.filter fun t => a ≤ t ∧ t ≤ a + L).length ≤ L / RELOAD_DEBOUNCE_MS + 1

theorem starts_eq (s : Sys) : s.starts = s.reloads.filterMap Obs.startTime := by
  rw [Sys.starts, Sys.reloads, List.filterMap_filter]
  refine congrFun (congrArg List.filterMap (funext fun obs => ?_)) _
  cases obs <;> rfl

/-- **Reloads.** In every state before `onModuleDestroy` was called, whatever
happened. -/
theorem boundedReloads {E : Env} {s : Sys} (h : (machine E).Reachable Machine.always s)
    (halive : s.destroyed = false) : BoundedReloads E s := by
  have htracked := tracked_of_reachable h
  have hpaced := paced_of_reachable h halive
  constructor
  · -- the promise stands for each of them
    intro ℓ ℓ' hℓ hℓ'
    have hpromise := (htracked.loads.reload ℓ).mp hℓ
    have hpromise' := (htracked.loads.reload ℓ').mp hℓ'
    exact Option.some.inj (hpromise.symm.trans hpromise')
  · -- the end stands behind the start in the trace
    intro later ℓ t earlier htrace ℓ' t' hsettled
    have hapart := hpaced.apart
    rw [Sys.reloads, htrace, List.filter_append, List.pairwise_append] at hapart
    have hbehind := (List.pairwise_cons.mp hapart.2.1).1 (.reloadSettled ℓ' t')
      (List.mem_filter.mpr ⟨hsettled, rfl⟩)
    exact hbehind ℓ t ℓ' t' rfl rfl
  · -- then neither field holds anything, and the call goes through
    intro hnone hclosed
    have hpromise : s.reloadPromise = none := by
      cases hpromise : s.reloadPromise with
      | none => rfl
      | some ℓ => exact absurd ((htracked.loads.reload ℓ).mpr hpromise) (hnone ℓ)
    have htimer : s.reloadDebounceTimer = none := by
      cases htimer : s.reloadDebounceTimer with
      | none => rfl
      | some handle =>
        obtain ⟨timer, hmem, -, hdebounce⟩ := htracked.timers.debounced handle htimer
        exact absurd hdebounce (hclosed timer hmem)
    refine ⟨_, rfl, ?_, ?_⟩
    · simp [Sys.scheduleReloadForUnknownKid, hpromise, htimer, loadPublicKey_eq, Sys.InFlight]
    · simp [Sys.scheduleReloadForUnknownKid, hpromise, htimer]
  · intro a L
    rw [starts_eq]
    exact hpaced.starts.length_filter_le (by decide) a L

/-- An endpoint whose every key is read. -/
def anyKeys : Env where
  jwksUri := some "https://auth/.well-known/jwks.json"
  importKey _ := some "pem"

/-- Unknown kids come in before, during and after a failing reload. -/
def unknownKids : List Event :=
  [.scheduleReload, .scheduleReload, .fetchError 0, .settle 0, .scheduleReload, .elapse 5000,
    .fire 0, .scheduleReload, .scheduleReload]

theorem boundedReloads_unknownKids :
    ∃ s, (machine anyKeys).exec (.start 0) unknownKids = some s ∧ s.starts = [5000, 0] ∧
      BoundedReloads anyKeys s := by
  obtain ⟨s, hexec, hstarts, halive⟩ : ∃ s,
      (machine anyKeys).exec (.start 0) unknownKids = some s ∧ s.starts = [5000, 0] ∧
        s.destroyed = false := ⟨_, rfl, by decide, rfl⟩
  have hrun : Machine.Run (machine anyKeys) Machine.always (.start 0) s :=
    .of_exec (fun _ _ _ => trivial) hexec
  exact ⟨s, hexec, hstarts, boundedReloads ⟨_, ⟨0, rfl⟩, hrun⟩ halive⟩

end SchedulingService.Jwks
