import Mathlib.Logic.Function.Basic
import SchedulingService.Jwks.Keys
import SchedulingService.Lib.Transition

/-!
# `JwksService`

The startup loop, the background loop and the reloads for an unknown kid, over
the fields they share. Each code between two awaits is one event, and so is every
answer and every timer, so a run is any interleaving of them with
`onModuleDestroy` and calls of `scheduleReloadForUnknownKid`.

* A load is known by a number; numbers are given in the order in which loads
  start.
* A request may fail, or end in any document, at any time; the timer that aborts
  it is left out for that.
* A timer fires at its deadline or later, and not once it is cleared. What its
  callback resolves goes on in an event of its own.

`step_spec` is all a step can do. `trace` records, newest first, what happened.
It decides nothing.
-/

namespace SchedulingService.Jwks

open Js

/-- Milliseconds. -/
def RELOAD_DEBOUNCE_MS : Nat := 5000

def BACKOFF_INITIAL_MS : Nat := 2000

def BACKOFF_MAX_ATTEMPTS : Nat := 3

def BACKGROUND_RETRY_MS : Nat := 30000

/-- `delay` in the `attempt`-th round of the startup loop. -/
def backoffDelay : Nat → Nat
  | 0 => BACKOFF_INITIAL_MS
  | 1 => BACKOFF_INITIAL_MS
  | n + 2 => backoffDelay (n + 1) * 2

abbrev LoadId := Nat

abbrev Handle := Nat

/-- Who awaits a load. -/
inductive Origin
  | startup (attempt : Nat)
  | background
  | reload
  deriving DecidableEq

/-- Where a load stands. -/
inductive Stage
  /-- At `await fetch(…)`. -/
  | fetching
  /-- At `await response.json()`. -/
  | reading
  /-- It resolved or rejected, and what awaits it has not gone on yet. -/
  | settled (ok : Bool)
  deriving DecidableEq

structure Load where
  origin : Origin
  stage : Stage
  deriving DecidableEq

/-- What a timer is for. -/
inductive Purpose
  /-- The sleep after an attempt of the startup loop. -/
  | startup (attempt : Nat)
  /-- The sleep of the background loop. -/
  | background
  | debounce
  deriving DecidableEq

structure Timer where
  handle : Handle
  purpose : Purpose
  deadline : Int
  deriving DecidableEq

inductive Obs
  | fetched (ℓ : LoadId)
  | loaded (ℓ : LoadId) (keys : KeyMap)
  | reloadStarted (ℓ : LoadId) (time : Int)
  | reloadSettled (ℓ : LoadId) (time : Int)
  | destroyed

structure Sys where
  now : Int
  keyMap : KeyMap
  primaryPem : Option Pem
  reloadPromise : Option LoadId
  reloadDebounceTimer : Option Handle
  pendingTimers : List Handle
  destroyed : Bool
  /-- `onModuleInit` was called. -/
  initialised : Bool
  loads : LoadId → Option Load
  nextLoad : LoadId
  /-- The armed timers. -/
  timers : List Timer
  nextHandle : Handle
  /-- The sleeps whose timer has fired. -/
  woken : List Purpose
  trace : List Obs

namespace Sys

/-- The service as constructed. -/
def start (now : Int) : Sys where
  now := now
  keyMap := []
  primaryPem := none
  reloadPromise := none
  reloadDebounceTimer := none
  pendingTimers := []
  destroyed := false
  initialised := false
  loads _ := none
  nextLoad := 0
  timers := []
  nextHandle := 0
  woken := []
  trace := []

def isReady (s : Sys) : Bool := s.primaryPem.isSome

def getPublicKeyPem (s : Sys) : Option String → Option Pem
  | some kid => s.keyMap.get kid
  | none => s.primaryPem

/-- `setTimeout`. -/
def arm (s : Sys) (purpose : Purpose) (ms : Nat) : Sys :=
  { s with
    timers := { handle := s.nextHandle, purpose, deadline := s.now + ms } :: s.timers
    nextHandle := s.nextHandle + 1 }

/-- `sleep`, up to its await. -/
def sleep (s : Sys) (purpose : Purpose) (ms : Nat) : Sys :=
  { s.arm purpose ms with pendingTimers := s.nextHandle :: s.pendingTimers }

/-- Load `ℓ` moves on to `stage`. -/
def setLoad (s : Sys) (ℓ : LoadId) (origin : Origin) (stage : Stage) : Sys :=
  { s with loads := Function.update s.loads ℓ (some { origin, stage }) }

/-- What awaited load `ℓ` goes on. -/
def dropLoad (s : Sys) (ℓ : LoadId) : Sys :=
  { s with loads := Function.update s.loads ℓ none }

/-- `loadPublicKey`, up to its first await. -/
def loadPublicKey (E : Env) (s : Sys) (origin : Origin) : Sys :=
  match E.jwksUri with
  | some _ =>
    { s.setLoad s.nextLoad origin .fetching with
      nextLoad := s.nextLoad + 1
      trace := .fetched s.nextLoad :: s.trace }
  -- `getOrThrow` throws before the fetch
  | none => { s.setLoad s.nextLoad origin (.settled false) with nextLoad := s.nextLoad + 1 }

/-- The head of the loop of `continueBackgroundRetry`. -/
def continueBackgroundRetry (s : Sys) : Sys :=
  if !s.isReady && !s.destroyed then s.sleep .background BACKGROUND_RETRY_MS else s

/-- The `finally` of a reload. -/
def reloadFinally (s : Sys) (ℓ : LoadId) : Sys :=
  { s.arm .debounce RELOAD_DEBOUNCE_MS with
    reloadPromise := none
    reloadDebounceTimer := some s.nextHandle
    trace := .reloadSettled ℓ s.now :: s.trace }

/-- What follows load `ℓ`. -/
def afterLoad (s : Sys) (ℓ : LoadId) (ok : Bool) : Origin → Sys
  | .startup attempt =>
    if ok || s.destroyed then s
    else if attempt < BACKOFF_MAX_ATTEMPTS then
      s.sleep (.startup attempt) (backoffDelay attempt)
    else s.continueBackgroundRetry
  | .background => s.continueBackgroundRetry
  | .reload => s.reloadFinally ℓ

/-- What follows a sleep. -/
def afterSleep (E : Env) (s : Sys) : Purpose → Sys
  | .startup attempt =>
    if s.destroyed then s else s.loadPublicKey E (.startup (attempt + 1))
  | .background =>
    if s.destroyed || s.isReady then s else s.loadPublicKey E .background
  | .debounce => s

/-- The callback of a timer. -/
def fired (s : Sys) (t : Timer) : Sys :=
  match t.purpose with
  | .debounce => { s with timers := s.timers.erase t, reloadDebounceTimer := none }
  | purpose =>
    { s with
      timers := s.timers.erase t
      pendingTimers := s.pendingTimers.erase t.handle
      woken := purpose :: s.woken }

def scheduleReloadForUnknownKid (E : Env) (s : Sys) : Sys :=
  if s.reloadPromise.isSome then s
  else if s.reloadDebounceTimer.isSome then s
  else
    let started := s.loadPublicKey E .reload
    { started with
      reloadPromise := some s.nextLoad
      trace := .reloadStarted s.nextLoad s.now :: started.trace }

/-- `clearTimeout` is called for the handle. -/
def clears (s : Sys) (h : Handle) : Bool :=
  h ∈ s.pendingTimers || s.reloadDebounceTimer = some h

def onModuleDestroy (s : Sys) : Sys :=
  { s with
    destroyed := true
    timers := s.timers.filter fun t => !s.clears t.handle
    pendingTimers := []
    reloadDebounceTimer := none
    trace := .destroyed :: s.trace }

end Sys

inductive Event
  | elapse (ms : Nat)
  /-- `onModuleInit` is called; it is called once, and before the module goes. -/
  | init
  /-- `onModuleDestroy` is called. -/
  | destroy
  /-- The fetch of load `ℓ` answers; `ok` is that of the response. -/
  | respond (ℓ : LoadId) (ok : Bool)
  /-- It throws, or is aborted. -/
  | fetchError (ℓ : LoadId)
  /-- The body arrives, or cannot be read. -/
  | body (ℓ : LoadId) (document : Option Value)
  /-- What awaits load `ℓ` goes on. -/
  | settle (ℓ : LoadId)
  | fire (h : Handle)
  /-- A sleep is over. -/
  | wake (purpose : Purpose)
  /-- `scheduleReloadForUnknownKid` is called. -/
  | scheduleReload

/-- One event; `none` where it cannot happen. -/
def step (E : Env) (s : Sys) : Event → Option Sys
  | .elapse ms => some { s with now := s.now + ms }
  | .init =>
    if s.initialised || s.destroyed then none
    else some { s.loadPublicKey E (.startup 1) with initialised := true }
  | .destroy => some s.onModuleDestroy
  | .respond ℓ ok =>
    match s.loads ℓ with
    | some ⟨origin, .fetching⟩ =>
      some (s.setLoad ℓ origin (if ok then .reading else .settled false))
    | _ => none
  | .fetchError ℓ =>
    match s.loads ℓ with
    | some ⟨origin, .fetching⟩ => some (s.setLoad ℓ origin (.settled false))
    | _ => none
  | .body ℓ document =>
    match s.loads ℓ with
    | some ⟨origin, .reading⟩ =>
      match document.bind (loadKeys E) with
      | some keys =>
        some { s.setLoad ℓ origin (.settled true) with
          keyMap := keys
          primaryPem := keys.first
          trace := .loaded ℓ keys :: s.trace }
      | none => some (s.setLoad ℓ origin (.settled false))
    | _ => none
  | .settle ℓ =>
    match s.loads ℓ with
    | some ⟨origin, .settled ok⟩ => some ((s.dropLoad ℓ).afterLoad ℓ ok origin)
    | _ => none
  | .fire h =>
    match s.timers.find? fun t => t.handle = h with
    | some t => if t.deadline ≤ s.now then some (s.fired t) else none
    | none => none
  | .wake purpose =>
    if purpose ∈ s.woken then
      some ({ s with woken := s.woken.erase purpose }.afterSleep E purpose)
    else none
  | .scheduleReload => some (s.scheduleReloadForUnknownKid E)

def machine (E : Env) : Machine Sys Event where
  Init s := ∃ now, s = .start now
  step := step E

/-! ## What a step can do -/

/-- One step, by what it does. -/
inductive Step (E : Env) (s : Sys) : Event → Sys → Prop
  | elapse (ms : Nat) : Step E s (.elapse ms) { s with now := s.now + ms }
  | init (hfirst : s.initialised = false) (halive : s.destroyed = false) :
      Step E s .init { s.loadPublicKey E (.startup 1) with initialised := true }
  | destroy : Step E s .destroy s.onModuleDestroy
  /-- A load moves on and has not brought keys. -/
  | progress {ℓ : LoadId} {origin : Origin} {stage : Stage} {e : Event} (stage' : Stage)
      (hload : s.loads ℓ = some ⟨origin, stage⟩) (hrunning : stage = .fetching ∨ stage = .reading)
      (hbody : ∀ ℓ' document, e = .body ℓ' (some document) → loadKeys E document = none)
      (hevent : e ≠ .destroy ∧ e ≠ .scheduleReload ∧ ∀ ℓ', e ≠ .settle ℓ') :
      Step E s e (s.setLoad ℓ origin stage')
  | loaded {ℓ : LoadId} {origin : Origin} {document : Value} {keys : KeyMap}
      (hload : s.loads ℓ = some ⟨origin, .reading⟩) (hkeys : loadKeys E document = some keys) :
      Step E s (.body ℓ (some document)) { s.setLoad ℓ origin (.settled true) with
        keyMap := keys
        primaryPem := keys.first
        trace := .loaded ℓ keys :: s.trace }
  /-- The startup or the background loop ends. -/
  | ended {ℓ : LoadId} {origin : Origin} {ok : Bool}
      (hload : s.loads ℓ = some ⟨origin, .settled ok⟩) (horigin : origin ≠ .reload) :
      Step E s (.settle ℓ) (s.dropLoad ℓ)
  /-- It goes to sleep. -/
  | slept {ℓ : LoadId} {origin : Origin} {ok : Bool} (purpose : Purpose) (ms : Nat)
      (hload : s.loads ℓ = some ⟨origin, .settled ok⟩) (horigin : origin ≠ .reload)
      (halive : s.destroyed = false) (hpurpose : purpose ≠ .debounce) :
      Step E s (.settle ℓ) ((s.dropLoad ℓ).sleep purpose ms)
  | reloadSettled {ℓ : LoadId} {ok : Bool} (hload : s.loads ℓ = some ⟨.reload, .settled ok⟩) :
      Step E s (.settle ℓ) ((s.dropLoad ℓ).reloadFinally ℓ)
  | fired {h : Handle} {t : Timer} (hmem : t ∈ s.timers) (hhandle : t.handle = h)
      (hdue : t.deadline ≤ s.now) : Step E s (.fire h) (s.fired t)
  /-- The loop that slept ends. -/
  | woken {purpose : Purpose} (hwoken : purpose ∈ s.woken) :
      Step E s (.wake purpose) { s with woken := s.woken.erase purpose }
  /-- It tries again. -/
  | retried {purpose : Purpose} {origin : Origin} (hwoken : purpose ∈ s.woken)
      (halive : s.destroyed = false) (horigin : origin ≠ .reload) :
      Step E s (.wake purpose)
        ({ s with woken := s.woken.erase purpose }.loadPublicKey E origin)
  | reloadSkipped (hbusy : s.reloadPromise ≠ none ∨ s.reloadDebounceTimer ≠ none) :
      Step E s .scheduleReload s
  | reloadStarted (hpromise : s.reloadPromise = none) (htimer : s.reloadDebounceTimer = none) :
      Step E s .scheduleReload { s.loadPublicKey E .reload with
        reloadPromise := some s.nextLoad
        trace := .reloadStarted s.nextLoad s.now :: (s.loadPublicKey E .reload).trace }

theorem continueBackgroundRetry_cases (s : Sys) :
    s.continueBackgroundRetry = s ∨
      s.destroyed = false ∧
        s.continueBackgroundRetry = s.sleep .background BACKGROUND_RETRY_MS := by
  unfold Sys.continueBackgroundRetry
  split
  · rename_i h
    rw [Bool.and_eq_true, Bool.not_eq_true', Bool.not_eq_true'] at h
    exact .inr ⟨h.2, rfl⟩
  · exact .inl rfl

theorem step_spec {E : Env} {s s' : Sys} {e : Event} (h : step E s e = some s') :
    Step E s e s' := by
  cases e with
  | elapse ms =>
    obtain rfl := Option.some.inj h
    exact .elapse ms
  | init =>
    simp only [step] at h
    split at h
    · cases h
    · rename_i hfirst
      rw [Bool.or_eq_true, not_or, Bool.not_eq_true, Bool.not_eq_true] at hfirst
      obtain rfl := Option.some.inj h
      exact .init hfirst.1 hfirst.2
  | destroy =>
    obtain rfl := Option.some.inj h
    exact .destroy
  | respond ℓ ok =>
    simp only [step] at h
    split at h
    · rename_i origin hload
      obtain rfl := Option.some.inj h
      exact .progress _ hload (.inl rfl) (by simp) (by simp)
    · cases h
  | fetchError ℓ =>
    simp only [step] at h
    split at h
    · rename_i origin hload
      obtain rfl := Option.some.inj h
      exact .progress _ hload (.inl rfl) (by simp) (by simp)
    · cases h
  | body ℓ document =>
    simp only [step] at h
    split at h
    · rename_i origin hload
      split at h
      · rename_i keys hkeys
        obtain rfl := Option.some.inj h
        obtain ⟨document, rfl, hkeys⟩ := Option.bind_eq_some_iff.mp hkeys
        exact .loaded hload hkeys
      · rename_i hnone
        obtain rfl := Option.some.inj h
        refine .progress _ hload (.inr rfl) (fun ℓ' d hd => ?_) (by simp)
        obtain ⟨-, rfl⟩ := Event.body.inj hd
        exact hnone
    · cases h
  | settle ℓ =>
    simp only [step] at h
    split at h
    · rename_i origin ok hload
      obtain rfl := Option.some.inj h
      -- the loops go on as their conditions have it
      cases origin with
      | startup attempt =>
        simp only [Sys.afterLoad]
        split
        · exact .ended hload (by simp)
        · rename_i hgoes
          rw [Bool.or_eq_true, not_or, Bool.not_eq_true, Bool.not_eq_true] at hgoes
          split
          · exact .slept _ _ hload (by simp) hgoes.2 (by simp)
          · rcases continueBackgroundRetry_cases (s.dropLoad ℓ) with hends | ⟨halive, hsleeps⟩
            · rw [hends]
              exact .ended hload (by simp)
            · rw [hsleeps]
              exact .slept _ _ hload (by simp) halive (by simp)
      | background =>
        simp only [Sys.afterLoad]
        rcases continueBackgroundRetry_cases (s.dropLoad ℓ) with hends | ⟨halive, hsleeps⟩
        · rw [hends]
          exact .ended hload (by simp)
        · rw [hsleeps]
          exact .slept _ _ hload (by simp) halive (by simp)
      | reload => exact .reloadSettled hload
    · cases h
  | fire handle =>
    simp only [step] at h
    split at h
    · rename_i t hfind
      split at h
      · rename_i hdue
        obtain rfl := Option.some.inj h
        have hhandle : t.handle = handle := by simpa using List.find?_some hfind
        exact .fired (List.mem_of_find?_eq_some hfind) hhandle hdue
      · cases h
    · cases h
  | wake purpose =>
    simp only [step] at h
    split at h
    · rename_i hwoken
      obtain rfl := Option.some.inj h
      cases purpose with
      | startup attempt =>
        simp only [Sys.afterSleep]
        split
        · exact .woken hwoken
        · rename_i halive
          exact .retried hwoken (by simpa using halive) (by simp)
      | background =>
        simp only [Sys.afterSleep]
        split
        · exact .woken hwoken
        · rename_i hgoes
          rw [Bool.or_eq_true, not_or, Bool.not_eq_true, Bool.not_eq_true] at hgoes
          exact .retried hwoken hgoes.1 (by simp)
      | debounce => exact .woken hwoken
    · cases h
  | scheduleReload =>
    simp only [step, Option.some.injEq] at h
    unfold Sys.scheduleReloadForUnknownKid at h
    split at h
    · rename_i hpromise
      subst h
      exact .reloadSkipped (.inl (Option.isSome_iff_ne_none.mp hpromise))
    · split at h
      · rename_i htimer
        subst h
        exact .reloadSkipped (.inr (Option.isSome_iff_ne_none.mp htimer))
      · rename_i hpromise htimer
        subst h
        exact .reloadStarted (by simpa using hpromise) (by simpa using htimer)

end SchedulingService.Jwks
