import SchedulingService.Jwks.Tracking

/-!
# Which keys are installed

Every load writes `keyMap` and `primaryPem` when its answer has arrived. The
loops and the reloads do not wait for one another, so answers may arrive in
another order than that in which the loads started.

Main results:

* `newestInstalled_iff` — exactly when the installed keys are always those of the
  load that started last.
* `isReady_iff`, `getPublicKeyPem_latest` — the service is ready once a load has
  completed, and a key that is found was stored by the load that completed last.
-/

namespace SchedulingService.Jwks

open Js

/-- The load that brought keys, and the keys. -/
def Obs.broughtKeys : Obs → Option (LoadId × KeyMap)
  | loaded ℓ keys => some (ℓ, keys)
  | _ => none

/-- The successful loads, the one that completed last first. -/
def Sys.completed (s : Sys) : List (LoadId × KeyMap) := s.trace.filterMap Obs.broughtKeys

/-- The installed keys are those of the load that started last among those that
have completed. -/
structure NewestInstalled (s : Sys) : Prop where
  none : s.completed = [] → s.keyMap = [] ∧ s.primaryPem = none
  newest : ∀ ℓ keys, (ℓ, keys) ∈ s.completed → (∀ p ∈ s.completed, p.1 ≤ ℓ) →
    s.keyMap = keys ∧ s.primaryPem = keys.first

/-- A load that brings keys started after all that have completed, or brings the
installed keys. -/
def InOrder (E : Env) (s : Sys) (e : Event) : Prop :=
  ∀ ℓ document keys, e = .body ℓ (some document) → loadKeys E document = some keys →
    (∀ p ∈ s.completed, p.1 < ℓ) ∨ s.keyMap = keys

/-! ## One step -/

section Step

variable {E : Env} {s s' : Sys} {e : Event}

theorem completed_fetches (ℓ : LoadId) (trace : List Obs) :
    (E.fetches ℓ ++ trace).filterMap Obs.broughtKeys = trace.filterMap Obs.broughtKeys := by
  unfold Env.fetches
  split <;> rfl

/-- A step brings keys, or leaves the keys alone. -/
theorem keys_step (hs : Step E s e s') :
    (∃ ℓ document keys, e = .body ℓ (some document) ∧ loadKeys E document = some keys ∧
      s'.completed = (ℓ, keys) :: s.completed ∧ s'.keyMap = keys ∧ s'.primaryPem = keys.first) ∨
    (∀ ℓ document, e = .body ℓ (some document) → loadKeys E document = none) ∧
      s'.completed = s.completed ∧ s'.keyMap = s.keyMap ∧ s'.primaryPem = s.primaryPem := by
  cases hs with
  | @loaded ℓ origin document keys hload hkeys =>
    exact .inl ⟨ℓ, document, keys, rfl, hkeys, rfl, rfl, rfl⟩
  | progress stage' hload hrunning hbody => exact .inr ⟨hbody, rfl, rfl, rfl⟩
  | init =>
    rw [loadPublicKey_eq]
    exact .inr ⟨by simp, completed_fetches _ _, rfl, rfl⟩
  | retried =>
    rw [loadPublicKey_eq]
    exact .inr ⟨by simp, completed_fetches _ _, rfl, rfl⟩
  | reloadStarted =>
    rw [loadPublicKey_eq]
    exact .inr ⟨by simp, completed_fetches _ _, rfl, rfl⟩
  | fired =>
    unfold Sys.fired
    split <;> exact .inr ⟨by simp, rfl, rfl, rfl⟩
  | elapse | destroy | ended | slept | reloadSettled | woken | reloadSkipped =>
    exact .inr ⟨by simp, rfl, rfl, rfl⟩

/-- One of several loads started last. -/
theorem exists_newest {loads : List (LoadId × KeyMap)} (h : loads ≠ []) :
    ∃ p ∈ loads, ∀ q ∈ loads, q.1 ≤ p.1 := by
  induction loads with
  | nil => exact absurd rfl h
  | cons p rest ih =>
    by_cases hrest : rest = []
    · subst hrest
      exact ⟨p, List.mem_cons_self, fun q hq => by rw [List.mem_singleton.mp hq]⟩
    · -- the first one, or the newest of the others
      obtain ⟨m, hm, hmax⟩ := ih hrest
      by_cases hle : p.1 ≤ m.1
      · refine ⟨m, List.mem_cons_of_mem _ hm, fun q hq => ?_⟩
        rcases List.mem_cons.mp hq with rfl | hq
        · exact hle
        · exact hmax q hq
      · have hlt : m.1 ≤ p.1 := Nat.le_of_lt (Nat.lt_of_not_le hle)
        refine ⟨p, List.mem_cons_self, fun q hq => ?_⟩
        rcases List.mem_cons.mp hq with rfl | hq
        · exact Nat.le_refl _
        · exact (hmax q hq).trans hlt

/-- **One step** out of a state with the newest keys. -/
theorem newestInstalled_step (h : NewestInstalled s) (hs : Step E s e s') :
    NewestInstalled s' ↔ InOrder E s e := by
  rcases keys_step hs with ⟨ℓ, document, keys, rfl, hkeys, hcompleted, hmap, hprimary⟩ |
    ⟨hbody, hcompleted, hmap, hprimary⟩
  · constructor
    · rintro h' ℓ' document' keys' he hkeys'
      obtain ⟨rfl, hdocument⟩ := Event.body.inj he
      obtain rfl := Option.some.inj hdocument
      obtain rfl := Option.some.inj (hkeys.symm.trans hkeys')
      by_cases hlast : ∀ p ∈ s.completed, p.1 < ℓ
      · exact .inl hlast
      · -- the newest load of before is still the newest, and its keys are to be installed
        right
        obtain ⟨p, hp, hnot⟩ := not_forall₂.mp hlast
        obtain ⟨m, hm, hmax⟩ := exists_newest (List.ne_nil_of_mem hp)
        have hmax' : ∀ q ∈ s'.completed, q.1 ≤ m.1 := fun q hq => by
          rw [hcompleted] at hq
          rcases List.mem_cons.mp hq with rfl | hq
          · exact (Nat.le_of_not_lt hnot).trans (hmax p hp)
          · exact hmax q hq
        have hold := (h.newest m.1 m.2 hm hmax).1
        have hnew := (h'.newest m.1 m.2 (by rw [hcompleted]; exact List.mem_cons_of_mem _ hm)
          hmax').1
        rw [hold, ← hnew, hmap]
    · intro hin
      -- the newest load is this one, or it brings the keys of the newest
      refine ⟨fun hnil => absurd (hcompleted.symm.trans hnil) (by simp),
        fun ℓ₁ keys₁ hmem hmax => ?_⟩
      rw [hmap, hprimary]
      rw [hcompleted] at hmem hmax
      rcases List.mem_cons.mp hmem with hnew | hold
      · obtain ⟨-, rfl⟩ := Prod.mk.inj hnew
        exact ⟨rfl, rfl⟩
      · rcases hin ℓ document keys rfl hkeys with hlast | hsame
        · -- the new load started after this one
          have hlt : ℓ₁ < ℓ := hlast (ℓ₁, keys₁) hold
          have hle : ℓ ≤ ℓ₁ := hmax (ℓ, keys) List.mem_cons_self
          exact absurd hlt (Nat.not_lt.mpr hle)
        · have hinstalled := (h.newest ℓ₁ keys₁ hold fun p hp =>
            hmax p (List.mem_cons_of_mem _ hp)).1
          rw [← hsame, hinstalled]
          exact ⟨rfl, rfl⟩
  · -- nothing is installed
    refine iff_of_true ?_ fun ℓ document keys he hkeys => ?_
    · refine ⟨fun hnil => ?_, fun ℓ keys hmem hmax => ?_⟩
      · rw [hmap, hprimary]
        exact h.none (hcompleted ▸ hnil)
      · rw [hmap, hprimary]
        rw [hcompleted] at hmem hmax
        exact h.newest ℓ keys hmem hmax
    · rw [hbody ℓ document he] at hkeys
      cases hkeys

end Step

/-- **Runs.** In every state of a run the newest keys are installed, exactly when
no load of it brings other keys than the installed ones after a load that started
later. -/
theorem newestInstalled_iff {E : Env} {s₀ s : Sys} {es : List Event}
    (hinit : (machine E).Init s₀) (hrun : (machine E).exec s₀ es = some s) :
    (machine E).Throughout NewestInstalled s₀ es ↔ (machine E).Along (InOrder E) s₀ es := by
  have hstart : NewestInstalled s₀ := by
    obtain ⟨now, rfl⟩ := hinit
    exact ⟨fun _ => ⟨rfl, rfl⟩, fun ℓ keys hmem => absurd hmem List.not_mem_nil⟩
  refine Machine.throughout_iff_along (J := fun _ => True) (fun s e s' _ h hstep => ?_)
    (fun _ _ _ _ _ => trivial) hrun trivial hstart
  exact newestInstalled_step h (step_spec hstep)

/-! ## The load that completed last -/

/-- The key of a load for a token: that of its kid, or the first one. -/
def KeyMap.storedFor (m : KeyMap) : Option String → Option Pem
  | some kid => m.get kid
  | none => m.first

/-- The installed keys are those of the load that completed last, and there is a
first one. -/
def LatestInstalled (s : Sys) : Prop :=
  (s.completed = [] ∧ s.keyMap = [] ∧ s.primaryPem = none) ∨
    ∃ ℓ keys, s.completed.head? = some (ℓ, keys) ∧ s.keyMap = keys ∧
      s.primaryPem = keys.first ∧ keys.first.isSome = true

theorem LatestInstalled.step {E : Env} {s s' : Sys} {e : Event} (h : LatestInstalled s)
    (hs : Step E s e s') : LatestInstalled s' := by
  rcases keys_step hs with ⟨ℓ, document, keys, -, hkeys, hcompleted, hmap, hprimary⟩ |
    ⟨-, hcompleted, hmap, hprimary⟩
  · have hhead : s'.completed.head? = some (ℓ, keys) := by rw [hcompleted]; rfl
    obtain ⟨pem, hfirst⟩ := first_loadKeys hkeys
    exact .inr ⟨ℓ, keys, hhead, hmap, hprimary, by rw [hfirst]; rfl⟩
  · rw [LatestInstalled, hcompleted, hmap, hprimary]
    exact h

theorem latestInstalled_of_reachable {E : Env} {s : Sys}
    (h : Machine.Reachable (machine E) Machine.always s) : LatestInstalled s := by
  refine h.invariant (fun s₀ hinit => ?_) fun s₁ e s₂ h₁ _ hstep => h₁.step (step_spec hstep)
  obtain ⟨now, rfl⟩ := hinit
  exact .inl ⟨rfl, rfl, rfl⟩

/-- The service is ready once a load has completed, and for ever. -/
theorem isReady_iff {E : Env} {s : Sys} (h : Machine.Reachable (machine E) Machine.always s) :
    s.isReady = true ↔ s.completed ≠ [] := by
  rw [Sys.isReady]
  rcases latestInstalled_of_reachable h with ⟨hnone, -, hprimary⟩ |
    ⟨ℓ, keys, hhead, -, hprimary, hfirst⟩
  · rw [hprimary]
    exact iff_of_false (by simp) (fun hsome => hsome hnone)
  · rw [hprimary]
    refine iff_of_true hfirst fun hnone => ?_
    rw [hnone] at hhead
    cases hhead

/-- A key that is found was stored by the load that completed last. -/
theorem getPublicKeyPem_latest {E : Env} {s : Sys}
    (h : Machine.Reachable (machine E) Machine.always s) {kid : Option String} {pem : Pem}
    (hpem : s.getPublicKeyPem kid = some pem) :
    ∃ ℓ keys, s.completed.head? = some (ℓ, keys) ∧ keys.storedFor kid = some pem := by
  rcases latestInstalled_of_reachable h with ⟨-, hmap, hprimary⟩ |
    ⟨ℓ, keys, hhead, hmap, hprimary, -⟩
  · -- no load has completed
    cases kid with
    | none =>
      rw [Sys.getPublicKeyPem, hprimary] at hpem
      cases hpem
    | some kid =>
      rw [Sys.getPublicKeyPem, hmap] at hpem
      cases hpem
  · refine ⟨ℓ, keys, hhead, ?_⟩
    cases kid with
    | none =>
      rw [Sys.getPublicKeyPem, hprimary] at hpem
      exact hpem
    | some kid =>
      rw [Sys.getPublicKeyPem, hmap] at hpem
      exact hpem

/-! ## The counterexample -/

/-- The key of a document is its `x`. -/
def plainKeys : Env where
  jwksUri := some "https://auth/.well-known/jwks.json"
  importKey k :=
    match k.get "x" with
    | .str x => some x
    | _ => none

/-- A document with one key. -/
def oneKey (x : String) : Value :=
  .obj [("keys", .arr [.obj [("kty", .str "EC"), ("crv", .str "P-256"), ("use", .str "sig"),
    ("x", .str x), ("y", .str "y"), ("kid", .str "key-1")]])]

/-- The three attempts at startup fail. -/
def failingStartup : List Event :=
  [.init, .fetchError 0, .settle 0, .elapse 2000, .fire 0, .wake (.startup 1),
    .fetchError 1, .settle 1, .elapse 4000, .fire 1, .wake (.startup 2),
    .fetchError 2, .settle 2]

/-- Then a token asks for a reload, the background loop wakes up, the key is
changed, and the loop's answer arrives before that of the reload. -/
def crossingLoads : List Event :=
  failingStartup ++
    [.elapse 30000, .scheduleReload, .fire 2, .wake .background, .respond 3 true, .respond 4 true,
      .body 4 (some (oneKey "new")), .body 3 (some (oneKey "old"))]

theorem newestInstalled_iff_crossingLoads :
    (machine plainKeys).Throughout NewestInstalled (.start 0) crossingLoads ↔
      (machine plainKeys).Along (InOrder plainKeys) (.start 0) crossingLoads := by
  obtain ⟨s, hrun⟩ : ∃ s, (machine plainKeys).exec (.start 0) crossingLoads = some s := ⟨_, rfl⟩
  exact newestInstalled_iff ⟨0, rfl⟩ hrun

/-- The key of the load that started first is installed. -/
theorem older_load_replaces_newer :
    ∃ s old new, (machine plainKeys).exec (.start 0) crossingLoads = some s ∧
      s.completed = [(3, old), (4, new)] ∧ new.first = some "new" ∧
      s.primaryPem = some "old" ∧ ¬ NewestInstalled s := by
  obtain ⟨s, old, new, hrun, hloads, hnew, hprimary⟩ : ∃ s old new,
      (machine plainKeys).exec (.start 0) crossingLoads = some s ∧
      s.completed = [(3, old), (4, new)] ∧ new.first = some "new" ∧
      s.primaryPem = some "old" := ⟨_, _, _, rfl, rfl, by decide, by decide⟩
  refine ⟨s, old, new, hrun, hloads, hnew, hprimary, fun h => ?_⟩
  have hnewest : ∀ p ∈ s.completed, p.1 ≤ 4 := by
    rw [hloads]
    simp
  have hinstalled := (h.newest 4 new (by rw [hloads]; simp) hnewest).2
  rw [hprimary, hnew] at hinstalled
  exact absurd hinstalled (by decide)

end SchedulingService.Jwks
