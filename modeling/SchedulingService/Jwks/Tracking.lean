import Mathlib.Data.List.Nodup
import SchedulingService.Jwks.System

/-!
# What the fields keep track of

`reloadPromise`, `reloadDebounceTimer` and `pendingTimers` say which reload is in
flight and which timers are armed. `Tracked` is that they say it truly; every
step keeps it, those after `onModuleDestroy` too.

Main result: `tracked_of_reachable`.
-/

namespace SchedulingService.Jwks

/-- Where a load that starts stands at first. -/
def Env.firstStage (E : Env) : Stage :=
  if E.jwksUri.isSome then .fetching else .settled false

/-- What its start shows. -/
def Env.fetches (E : Env) (ℓ : LoadId) : List Obs :=
  if E.jwksUri.isSome then [.fetched ℓ] else []

theorem loadPublicKey_eq (E : Env) (s : Sys) (origin : Origin) :
    s.loadPublicKey E origin = { s with
      loads := Function.update s.loads s.nextLoad (some ⟨origin, E.firstStage⟩)
      nextLoad := s.nextLoad + 1
      trace := E.fetches s.nextLoad ++ s.trace } := by
  unfold Sys.loadPublicKey Env.firstStage Env.fetches
  cases E.jwksUri <;> rfl

/-- The reload `ℓ` has started and not come to its `finally`. -/
def Sys.InFlight (s : Sys) (ℓ : LoadId) : Prop :=
  ∃ stage, s.loads ℓ = some ⟨.reload, stage⟩

/-! ## Loads -/

/-- The reload in flight is the one the promise stands for. -/
structure LoadsTracked (loads : LoadId → Option Load) (next : LoadId)
    (promise : Option LoadId) : Prop where
  fresh : ∀ ℓ, next ≤ ℓ → loads ℓ = none
  reload : ∀ ℓ, (∃ stage, loads ℓ = some ⟨.reload, stage⟩) ↔ promise = some ℓ

namespace LoadsTracked

variable {loads : LoadId → Option Load} {next ℓ : LoadId} {promise : Option LoadId}
  {origin : Origin} {stage : Stage}

/-- A load that is stored has started. -/
theorem lt_next (h : LoadsTracked loads next promise) {load : Load} (hload : loads ℓ = some load) :
    ℓ < next := by
  by_contra hle
  rw [h.fresh ℓ (Nat.le_of_not_lt hle)] at hload
  cases hload

/-- A write under a number that is taken keeps the others free. -/
theorem fresh_update (h : LoadsTracked loads next promise) {next' : LoadId} (hnext : next ≤ next')
    (hℓ : ℓ < next') (load : Option Load) :
    ∀ ℓ', next' ≤ ℓ' → Function.update loads ℓ load ℓ' = none := by
  intro ℓ' hℓ'
  have hne : ℓ' ≠ ℓ := (Nat.lt_of_lt_of_le hℓ hℓ').ne'
  rw [Function.update_of_ne hne]
  exact h.fresh ℓ' (hnext.trans hℓ')

/-- A load of one of the loops starts. -/
theorem add (h : LoadsTracked loads next promise) (horigin : origin ≠ .reload) :
    LoadsTracked (Function.update loads next (some ⟨origin, stage⟩)) (next + 1) promise where
  fresh := h.fresh_update (Nat.le_succ next) (Nat.lt_succ_self next) _
  reload ℓ := by
    rw [← h.reload ℓ]
    by_cases hℓ : ℓ = next
    · -- nothing was stored under the new number, and what is now is no reload
      subst hℓ
      rw [Function.update_self, h.fresh ℓ (Nat.le_refl ℓ)]
      simp [horigin]
    · rw [Function.update_of_ne hℓ]

/-- A reload starts where there is none. -/
theorem addReload (h : LoadsTracked loads next none) :
    LoadsTracked (Function.update loads next (some ⟨.reload, stage⟩)) (next + 1) (some next) where
  fresh := h.fresh_update (Nat.le_succ next) (Nat.lt_succ_self next) _
  reload ℓ := by
    by_cases hℓ : ℓ = next
    · subst hℓ
      rw [Function.update_self]
      exact iff_of_true ⟨stage, rfl⟩ rfl
    · rw [Function.update_of_ne hℓ, h.reload ℓ, Option.some.injEq]
      exact iff_of_false (by simp) (fun hsame => hℓ hsame.symm)

/-- A load moves on. -/
theorem move (h : LoadsTracked loads next promise) (hload : loads ℓ = some ⟨origin, stage⟩)
    (stage' : Stage) :
    LoadsTracked (Function.update loads ℓ (some ⟨origin, stage'⟩)) next promise where
  fresh := h.fresh_update (Nat.le_refl next) (h.lt_next hload) _
  reload ℓ' := by
    rw [← h.reload ℓ']
    by_cases hℓ : ℓ' = ℓ
    · subst hℓ
      rw [Function.update_self, hload]
      simp
    · rw [Function.update_of_ne hℓ]

/-- A load of one of the loops ends. -/
theorem drop (h : LoadsTracked loads next promise) (hload : loads ℓ = some ⟨origin, stage⟩)
    (horigin : origin ≠ .reload) : LoadsTracked (Function.update loads ℓ none) next promise where
  fresh := h.fresh_update (Nat.le_refl next) (h.lt_next hload) _
  reload ℓ' := by
    rw [← h.reload ℓ']
    by_cases hℓ : ℓ' = ℓ
    · subst hℓ
      rw [Function.update_self, hload]
      simp [horigin]
    · rw [Function.update_of_ne hℓ]

/-- The reload ends. -/
theorem dropReload (h : LoadsTracked loads next promise)
    (hload : loads ℓ = some ⟨.reload, stage⟩) :
    LoadsTracked (Function.update loads ℓ none) next none where
  fresh := h.fresh_update (Nat.le_refl next) (h.lt_next hload) _
  reload ℓ' := by
    have hpromise : promise = some ℓ := (h.reload ℓ).mp ⟨stage, hload⟩
    by_cases hℓ : ℓ' = ℓ
    · subst hℓ
      rw [Function.update_self]
      simp
    · -- no other reload was in flight
      rw [Function.update_of_ne hℓ, h.reload ℓ', hpromise, Option.some.injEq]
      exact iff_of_false (fun hsame => hℓ hsame.symm) (by simp)

end LoadsTracked

/-! ## Timers -/

/-- The armed timers are those whose handles the fields hold. -/
structure TimersTracked (timers : List Timer) (next : Handle) (debounce : Option Handle)
    (pending : List Handle) : Prop where
  fresh : ∀ t ∈ timers, t.handle < next
  distinct : (timers.map Timer.handle).Nodup
  debouncing : ∀ t ∈ timers, t.purpose = .debounce → debounce = some t.handle
  debounced : ∀ h, debounce = some h → ∃ t ∈ timers, t.handle = h ∧ t.purpose = .debounce
  sleeping : ∀ t ∈ timers, t.purpose ≠ .debounce → t.handle ∈ pending

namespace TimersTracked

variable {timers : List Timer} {next : Handle} {debounce : Option Handle} {pending : List Handle}
  {t : Timer} {purpose : Purpose} {deadline : Int}

theorem eq_of_handle (h : TimersTracked timers next debounce pending) {t' : Timer}
    (ht : t ∈ timers) (ht' : t' ∈ timers) (hsame : t.handle = t'.handle) : t = t' :=
  List.inj_on_of_nodup_map h.distinct ht ht' hsame

/-- A timer that is left after another was taken out has another handle. -/
theorem of_mem_erase (h : TimersTracked timers next debounce pending) {t' : Timer}
    (ht : t ∈ timers) (ht' : t' ∈ timers.erase t) : t' ∈ timers ∧ t'.handle ≠ t.handle := by
  have hnodup : timers.Nodup := List.Nodup.of_map _ h.distinct
  obtain ⟨hne, hmem⟩ := hnodup.mem_erase_iff.mp ht'
  exact ⟨hmem, fun hsame => hne (h.eq_of_handle hmem ht hsame)⟩

theorem nodup_cons (h : TimersTracked timers next debounce pending) :
    ((⟨next, purpose, deadline⟩ :: timers).map Timer.handle).Nodup := by
  rw [List.map_cons, List.nodup_cons]
  refine ⟨fun hmem => ?_, h.distinct⟩
  -- a handle that is given out is below the next one
  obtain ⟨t, ht, hhandle⟩ := List.mem_map.mp hmem
  exact absurd (h.fresh t ht) (by rw [hhandle]; exact Nat.lt_irrefl _)

theorem fresh_cons (h : TimersTracked timers next debounce pending) :
    ∀ t ∈ (⟨next, purpose, deadline⟩ :: timers : List Timer), t.handle < next + 1 := by
  intro t ht
  rcases List.mem_cons.mp ht with rfl | ht
  · exact Nat.lt_succ_self _
  · exact Nat.lt_succ_of_lt (h.fresh t ht)

/-- A sleep begins. -/
theorem addSleep (h : TimersTracked timers next debounce pending) (hpurpose : purpose ≠ .debounce) :
    TimersTracked (⟨next, purpose, deadline⟩ :: timers) (next + 1) debounce (next :: pending) where
  fresh := h.fresh_cons
  distinct := h.nodup_cons
  debouncing t ht hdebounce := by
    rcases List.mem_cons.mp ht with rfl | ht
    · exact absurd hdebounce hpurpose
    · exact h.debouncing t ht hdebounce
  debounced handle hhandle := by
    obtain ⟨t, ht, hrest⟩ := h.debounced handle hhandle
    exact ⟨t, List.mem_cons_of_mem _ ht, hrest⟩
  sleeping t ht hsleep := by
    rcases List.mem_cons.mp ht with rfl | ht
    · exact List.mem_cons_self
    · exact List.mem_cons_of_mem _ (h.sleeping t ht hsleep)

/-- The debounce window opens, and none was open. -/
theorem addDebounce (h : TimersTracked timers next none pending) :
    TimersTracked (⟨next, .debounce, deadline⟩ :: timers) (next + 1) (some next) pending where
  fresh := h.fresh_cons
  distinct := h.nodup_cons
  debouncing t ht hdebounce := by
    rcases List.mem_cons.mp ht with rfl | ht
    · rfl
    · exact absurd (h.debouncing t ht hdebounce) (by simp)
  debounced handle hhandle := by
    obtain rfl := Option.some.inj hhandle
    exact ⟨_, List.mem_cons_self, rfl, rfl⟩
  sleeping t ht hsleep := by
    rcases List.mem_cons.mp ht with rfl | ht
    · exact absurd rfl hsleep
    · exact h.sleeping t ht hsleep

/-- It closes. -/
theorem fireDebounce (h : TimersTracked timers next debounce pending) (ht : t ∈ timers)
    (hpurpose : t.purpose = .debounce) :
    TimersTracked (timers.erase t) next none pending where
  fresh t' ht' := h.fresh t' (h.of_mem_erase ht ht').1
  distinct := h.distinct.sublist (List.erase_sublist.map _)
  debouncing t' ht' hdebounce := by
    -- both would be the one whose handle is stored
    obtain ⟨hmem, hne⟩ := h.of_mem_erase ht ht'
    have hsame := (h.debouncing t' hmem hdebounce).symm.trans (h.debouncing t ht hpurpose)
    exact absurd (Option.some.inj hsame) hne
  debounced handle hhandle := by cases hhandle
  sleeping t' ht' hsleep := h.sleeping t' (h.of_mem_erase ht ht').1 hsleep

/-- A sleep is over. -/
theorem fireSleep (h : TimersTracked timers next debounce pending) (ht : t ∈ timers)
    (hpurpose : t.purpose ≠ .debounce) :
    TimersTracked (timers.erase t) next debounce (pending.erase t.handle) where
  fresh t' ht' := h.fresh t' (h.of_mem_erase ht ht').1
  distinct := h.distinct.sublist (List.erase_sublist.map _)
  debouncing t' ht' hdebounce := h.debouncing t' (h.of_mem_erase ht ht').1 hdebounce
  debounced handle hhandle := by
    obtain ⟨t', ht', hhandle', hdebounce⟩ := h.debounced handle hhandle
    -- the timer of the window is not the one that fired
    have hne : t' ≠ t := fun hsame => hpurpose (hsame ▸ hdebounce)
    exact ⟨t', (List.mem_erase_of_ne hne).mpr ht', hhandle', hdebounce⟩
  sleeping t' ht' hsleep := by
    obtain ⟨hmem, hne⟩ := h.of_mem_erase ht ht'
    exact (List.mem_erase_of_ne hne).mpr (h.sleeping t' hmem hsleep)

theorem nil (next : Handle) : TimersTracked [] next none [] where
  fresh t ht := absurd ht List.not_mem_nil
  distinct := List.nodup_nil
  debouncing t ht := absurd ht List.not_mem_nil
  debounced h hh := by cases hh
  sleeping t ht := absurd ht List.not_mem_nil

end TimersTracked

/-! ## The service -/

structure Tracked (s : Sys) : Prop where
  loads : LoadsTracked s.loads s.nextLoad s.reloadPromise
  timers : TimersTracked s.timers s.nextHandle s.reloadDebounceTimer s.pendingTimers
  /-- No window is open while a reload is in flight. -/
  exclusive : s.reloadPromise = none ∨ s.reloadDebounceTimer = none

theorem tracked_start (now : Int) : Tracked (.start now) where
  loads := ⟨fun _ _ => rfl, fun ℓ => by simp [Sys.start]⟩
  timers := .nil 0
  exclusive := .inl rfl

/-- `onModuleDestroy` clears every timer. -/
theorem Tracked.timers_destroy {s : Sys} (h : Tracked s) : s.onModuleDestroy.timers = [] := by
  rw [Sys.onModuleDestroy, List.filter_eq_nil_iff]
  intro t ht
  rw [Bool.not_eq_true', Bool.not_eq_false, Sys.clears, Bool.or_eq_true, decide_eq_true_eq,
    decide_eq_true_eq]
  -- a timer is that of the window, or a sleep whose handle is pending
  by_cases hpurpose : t.purpose = .debounce
  · exact .inr (h.timers.debouncing t ht hpurpose)
  · exact .inl (h.timers.sleeping t ht hpurpose)

/-- **Every step** keeps track. -/
theorem Tracked.step {E : Env} {s s' : Sys} {e : Event} (h : Tracked s) (hs : Step E s e s') :
    Tracked s' := by
  cases hs with
  | elapse ms => exact ⟨h.loads, h.timers, h.exclusive⟩
  | init hfirst halive =>
    rw [loadPublicKey_eq]
    exact ⟨h.loads.add (by simp), h.timers, h.exclusive⟩
  | destroy =>
    have htimers : TimersTracked s.onModuleDestroy.timers s.nextHandle none [] := by
      rw [h.timers_destroy]
      exact .nil _
    exact ⟨h.loads, htimers, .inr rfl⟩
  | progress stage' hload => exact ⟨h.loads.move hload stage', h.timers, h.exclusive⟩
  | loaded hload => exact ⟨h.loads.move hload _, h.timers, h.exclusive⟩
  | ended hload horigin => exact ⟨h.loads.drop hload horigin, h.timers, h.exclusive⟩
  | slept purpose ms hload horigin halive hpurpose =>
    exact ⟨h.loads.drop hload horigin, h.timers.addSleep hpurpose, h.exclusive⟩
  | @reloadSettled ℓ ok hload =>
    have hpromise : s.reloadPromise = some ℓ := (h.loads.reload ℓ).mp ⟨_, hload⟩
    -- the timer that is stored now replaces none
    have hclosed : s.reloadDebounceTimer = none :=
      h.exclusive.resolve_left (by rw [hpromise]; simp)
    have htimers := h.timers
    rw [hclosed] at htimers
    exact ⟨h.loads.dropReload hload, htimers.addDebounce, .inl rfl⟩
  | @fired handle t hmem hhandle hdue =>
    unfold Sys.fired
    split
    · rename_i hpurpose
      exact ⟨h.loads, h.timers.fireDebounce hmem hpurpose, .inr rfl⟩
    · rename_i purpose hpurpose
      exact ⟨h.loads, h.timers.fireSleep hmem hpurpose, h.exclusive⟩
  | woken hwoken => exact ⟨h.loads, h.timers, h.exclusive⟩
  | retried hwoken halive horigin =>
    rw [loadPublicKey_eq]
    exact ⟨h.loads.add horigin, h.timers, h.exclusive⟩
  | reloadSkipped => exact h
  | reloadStarted hpromise htimer =>
    rw [loadPublicKey_eq]
    have hloads := h.loads
    rw [hpromise] at hloads
    exact ⟨hloads.addReload, h.timers, .inr htimer⟩

/-- **Runs.** -/
theorem tracked_of_reachable {E : Env} {C : Sys → Event → Prop} {s : Sys}
    (h : (machine E).Reachable C s) : Tracked s := by
  refine h.invariant ?_ fun s e s' hs _ hstep => hs.step (step_spec hstep)
  rintro s ⟨now, rfl⟩
  exact tracked_start now

end SchedulingService.Jwks
