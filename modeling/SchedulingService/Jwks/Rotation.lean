import SchedulingService.Jwks.Recovery

/-!
# Rotating keys

The endpoint starts to publish a key under a new kid. The service does not know, and
the guard asks for a reload when a token with that kid comes; a reload in flight or the
window after the last one makes it wait. What waits is over `RELOAD_DEBOUNCE_MS` later:
from then on a token with the new kid finds the key, or finds a reload that awaits the
endpoint's answer.

* `Sys.Place` — what may stand between such a token and its key.
* `place_step` — what one step makes of it.
* `Rotating.reload` — what a request for a reload finds once the time is over.
-/

namespace SchedulingService.Jwks

/-- Every document that arrives has a key under `kid` that the guard can use. -/
def publishes (E : Env) (kid : String) : Event → Bool
  | .body _ document =>
    (document.bind (loadKeys E)).any fun keys => (keys.get kid).any fun pem => decide (pem ≠ "")
  | _ => true

/-- The key is there. -/
def Sys.Has (s : Sys) (kid : String) : Prop := ∃ pem, s.keyMap.get kid = some pem ∧ pem ≠ ""

/-- A reload awaits the endpoint's answer. -/
def Sys.ReloadAwaiting (s : Sys) : Prop :=
  ∃ ℓ load, s.loads ℓ = some load ∧ load.origin = .reload ∧ load.awaits = true

/-- What may stand between a token with a new kid and its key, until `limit`. -/
inductive Sys.Place (s : Sys) (kid : String) (limit : Int) : Prop
  | has (h : s.Has kid)
  | awaiting (h : s.ReloadAwaiting)
  /-- A reload is over, and the window that follows ends by `limit`. -/
  | settled {ℓ : LoadId} {ok : Bool} (hload : s.loads ℓ = some ⟨.reload, .settled ok⟩)
      (htime : s.now + RELOAD_DEBOUNCE_MS ≤ limit)
  | window {t : Timer} (ht : t ∈ s.timers) (hpurpose : t.purpose = .debounce)
      (hdeadline : t.deadline ≤ limit) (hnow : s.now ≤ limit)
  /-- The next one starts a reload. -/
  | free (hpromise : s.reloadPromise = none) (htimer : s.reloadDebounceTimer = none)

/-! ## The window -/

/-- A window is not longer than it should be. -/
def WindowsBounded (s : Sys) : Prop :=
  ∀ t ∈ s.timers, t.purpose = .debounce → t.deadline ≤ s.now + RELOAD_DEBOUNCE_MS

section Step

variable {E : Env} {s s' : Sys} {e : Event} {kid : String} {limit : Int}

theorem WindowsBounded.step (h : WindowsBounded s) (hs : Step E s e s') : WindowsBounded s' := by
  cases hs with
  | elapse ms =>
    intro t ht hpurpose
    have hold := h t ht hpurpose
    show t.deadline ≤ s.now + ms + RELOAD_DEBOUNCE_MS
    omega
  | destroy => exact fun t ht hpurpose => h t (List.mem_filter.mp ht).1 hpurpose
  | slept purpose ms hload horigin halive hsleep =>
    intro t ht hpurpose
    rcases List.mem_cons.mp ht with rfl | ht
    · exact absurd hpurpose hsleep
    · exact h t ht hpurpose
  | reloadSettled =>
    intro t ht hpurpose
    rcases List.mem_cons.mp ht with rfl | ht
    · exact Int.le_refl _
    · exact h t ht hpurpose
  | fired =>
    unfold Sys.fired
    split <;> exact fun t ht hpurpose => h t (List.mem_of_mem_erase ht) hpurpose
  | init | retried | reloadStarted =>
    rw [loadPublicKey_eq]
    exact h
  | progress | loaded | ended | woken | reloadSkipped => exact h

theorem windowsBounded_of_reachable {C : Sys → Event → Prop} (h : (machine E).Reachable C s) :
    WindowsBounded s := by
  refine h.invariant ?_ fun s e s' hs _ hstep => hs.step (step_spec hstep)
  rintro s ⟨now, rfl⟩ t ht
  exact absurd ht List.not_mem_nil

/-! ## What one step leaves -/

/-- The keys of a document that arrived have it. -/
theorem has_of_body {ℓ : LoadId} {document : Js.Value} {keys : KeyMap}
    (hpublished : publishes E kid (.body ℓ (some document)) = true)
    (hkeys : loadKeys E document = some keys) (hmap : s'.keyMap = keys) : s'.Has kid := by
  simp only [publishes, Option.bind_some, hkeys, Option.any_some, Option.any_eq_true,
    decide_eq_true_eq] at hpublished
  obtain ⟨pem, hget, hne⟩ := hpublished
  exact ⟨pem, by rw [hmap]; exact hget, hne⟩

/-- A key that is published stays. -/
theorem has_step (h : s.Has kid) (hpublished : publishes E kid e = true)
    (hs : Step E s e s') : s'.Has kid := by
  rcases keys_step hs with ⟨ℓ, document, keys, rfl, hkeys, -, hmap, -⟩ | ⟨-, -, hmap, -⟩
  · exact has_of_body hpublished hkeys hmap
  · obtain ⟨pem, hget, hne⟩ := h
    exact ⟨pem, by rw [hmap]; exact hget, hne⟩

/-- A reload that awaits an answer gets the key with it. -/
theorem reloadAwaiting_step (ht : Tracked s) (h : s.ReloadAwaiting)
    (hhealthy : healthy E e = true) (hpublished : publishes E kid e = true)
    (hstep : step E s e = some s') : s'.Has kid ∨ s'.ReloadAwaiting := by
  obtain ⟨ℓ, load, hload, horigin, hawaits⟩ := h
  rcases awaits_step ht hload hawaits hstep with
    ⟨load', hload', hsame, hawaits'⟩ | ⟨document, keys, rfl, hkeys⟩ | ⟨-, -, hsick⟩
  · exact .inr ⟨ℓ, load', hload', hsame.trans horigin, hawaits'⟩
  · left
    rcases keys_step (step_spec hstep) with ⟨ℓ', document', keys', he, hkeys', -, hmap, -⟩ |
      ⟨hnone, -⟩
    · rw [he] at hpublished
      exact has_of_body hpublished hkeys' hmap
    · rw [hnone ℓ document rfl] at hkeys
      cases hkeys
  · rw [hsick] at hhealthy
    cases hhealthy

/-- A reload that is over opens the window before time goes on. -/
theorem settled_step (ht : Tracked s) {ℓ : LoadId} {ok : Bool}
    (hload : s.loads ℓ = some ⟨.reload, .settled ok⟩) (hprompt : s.prompt e = true)
    (htime : s.now + RELOAD_DEBOUNCE_MS ≤ limit) (hstep : step E s e = some s') :
    s'.Place kid limit := by
  by_cases hsettle : e = .settle ℓ
  · subst hsettle
    simp only [step, hload, Option.some.injEq] at hstep
    subst hstep
    refine .window List.mem_cons_self rfl htime ?_
    show s.now ≤ limit
    omega
  · have hnow : ∀ ms, e ≠ .elapse ms := by
      rintro ms rfl
      simp only [Sys.prompt, Bool.and_eq_true, List.all_eq_true, List.mem_range] at hprompt
      have hwaits := hprompt.1.2 ℓ (ht.loads.lt_next hload)
      rw [hload] at hwaits
      cases hwaits
    have hrespond : ∀ ok, e ≠ .respond ℓ ok := by
      rintro ok rfl
      simp [step, hload] at hstep
    have herror : e ≠ .fetchError ℓ := by
      rintro rfl
      simp [step, hload] at hstep
    have hbody : ∀ document, e ≠ .body ℓ document := by
      rintro document rfl
      simp [step, hload] at hstep
    have hsame := (frame_step (step_spec hstep)).1 hnow
    have hkept := loads_step ht hload hstep hrespond herror hbody hsettle
    exact .settled hkept (by rw [hsame]; exact htime)

/-- The window closes in time. -/
theorem window_step (ht : Tracked s) {t : Timer} (hmem : t ∈ s.timers)
    (hpurpose : t.purpose = .debounce) (hdeadline : t.deadline ≤ limit) (hnow : s.now ≤ limit)
    (hprompt : s.prompt e = true) (hdestroy : e ≠ .destroy) (hstep : step E s e = some s') :
    s'.Place kid limit := by
  rcases timer_step hmem hdestroy hstep with hmem' | rfl
  · refine .window hmem' hpurpose hdeadline ?_
    by_cases helapse : ∃ ms, e = .elapse ms
    · obtain ⟨ms, rfl⟩ := helapse
      obtain rfl := Option.some.inj hstep
      simp only [Sys.prompt, Bool.and_eq_true, List.all_eq_true, decide_eq_true_eq] at hprompt
      exact Int.le_trans (hprompt.2 t hmem) hdeadline
    · rw [(frame_step (step_spec hstep)).1 (not_exists.mp helapse)]
      exact hnow
  · -- no reload was in flight
    have hopen : s.reloadDebounceTimer = some t.handle := ht.timers.debouncing t hmem hpurpose
    have hpromise : s.reloadPromise = none :=
      ht.exclusive.resolve_right (by rw [hopen]; simp)
    unfold Sys.fired
    rw [hpurpose]
    exact .free hpromise rfl

/-- Where nothing stands in the way, a request for a reload starts one. -/
theorem free_step (ht : Tracked s) (huri : E.jwksUri ≠ none) (hpromise : s.reloadPromise = none)
    (htimer : s.reloadDebounceTimer = none) (hs : Step E s e s') :
    (e ≠ .scheduleReload ∧ s'.reloadPromise = none ∧ s'.reloadDebounceTimer = none) ∨
      s'.ReloadAwaiting := by
  cases hs with
  | reloadSettled hload =>
    have hflight := (ht.loads.reload _).mp ⟨_, hload⟩
    rw [hpromise] at hflight
    cases hflight
  | reloadStarted =>
    right
    refine ⟨s.nextLoad, ⟨.reload, .fetching⟩, ?_, rfl, rfl⟩
    rw [loadPublicKey_eq]
    have hstage : E.firstStage = .fetching := if_pos (Option.isSome_iff_ne_none.mpr huri)
    rw [hstage]
    exact Function.update_self ..
  | reloadSkipped hbusy =>
    rcases hbusy with hbusy | hbusy
    · exact absurd hpromise hbusy
    · exact absurd htimer hbusy
  | progress stage' hload hrunning hbody hevent => exact .inl ⟨hevent.2.1, hpromise, htimer⟩
  | init | retried =>
    rw [loadPublicKey_eq]
    exact .inl ⟨by simp, hpromise, htimer⟩
  | fired =>
    unfold Sys.fired
    split
    · exact .inl ⟨by simp, hpromise, rfl⟩
    · exact .inl ⟨by simp, hpromise, htimer⟩
  | destroy => exact .inl ⟨by simp, hpromise, rfl⟩
  | elapse | loaded | ended | slept | woken => exact .inl ⟨by simp, hpromise, htimer⟩

/-- **One step.** -/
theorem place_step (ht : Tracked s) (h : s.Place kid limit) (huri : E.jwksUri ≠ none)
    (hprompt : s.prompt e = true) (hhealthy : healthy E e = true)
    (hpublished : publishes E kid e = true) (hstep : step E s e = some s') :
    s'.Place kid limit := by
  have hdestroy : e ≠ .destroy := by
    rintro rfl
    cases hhealthy
  cases h with
  | has h => exact .has (has_step h hpublished (step_spec hstep))
  | awaiting h =>
    rcases reloadAwaiting_step ht h hhealthy hpublished hstep with hhas | hawaiting
    · exact .has hhas
    · exact .awaiting hawaiting
  | settled hload htime => exact settled_step ht hload hprompt htime hstep
  | window hmem hpurpose hdeadline hnow =>
    exact window_step ht hmem hpurpose hdeadline hnow hprompt hdestroy hstep
  | free hpromise htimer =>
    rcases free_step ht huri hpromise htimer (step_spec hstep) with ⟨-, hp, hd⟩ | hawaiting
    · exact .free hp hd
    · exact .awaiting hawaiting

end Step

/-! ## Runs -/

/-- What a run keeps. -/
structure Rotating (kid : String) (limit : Int) (s : Sys) : Prop where
  tracked : Tracked s
  place : s.Place kid limit

section Run

variable {E : Env} {s s' : Sys} {e : Event} {kid : String} {limit : Int}

/-- Whatever state it is in, the window is over in time. -/
theorem rotating_of_reachable (h : Machine.Reachable (machine E) Machine.always s) (kid : String) :
    Rotating kid (s.now + RELOAD_DEBOUNCE_MS) s := by
  have ht := tracked_of_reachable h
  refine ⟨ht, ?_⟩
  cases hpromise : s.reloadPromise with
  | none =>
    cases htimer : s.reloadDebounceTimer with
    | none => exact .free hpromise htimer
    | some handle =>
      obtain ⟨t, hmem, -, hpurpose⟩ := ht.timers.debounced handle htimer
      refine .window hmem hpurpose (windowsBounded_of_reachable h t hmem hpurpose) ?_
      omega
  | some ℓ =>
    obtain ⟨stage, hload⟩ := (ht.loads.reload ℓ).mpr hpromise
    cases stage with
    | fetching => exact .awaiting ⟨ℓ, _, hload, rfl, rfl⟩
    | reading => exact .awaiting ⟨ℓ, _, hload, rfl, rfl⟩
    | settled ok => exact .settled hload (Int.le_refl _)

theorem Rotating.step (h : Rotating kid limit s) (huri : E.jwksUri ≠ none)
    (hprompt : s.prompt e = true) (hhealthy : healthy E e = true)
    (hpublished : publishes E kid e = true) (hstep : step E s e = some s') :
    Rotating kid limit s' :=
  ⟨h.tracked.step (step_spec hstep),
    place_step h.tracked h.place huri hprompt hhealthy hpublished hstep⟩

/-- **The time is over.** A request for a reload finds the key, or leaves a reload that
awaits the endpoint's answer. -/
theorem Rotating.reload (h : Rotating kid limit s) (huri : E.jwksUri ≠ none)
    (hover : limit < s.now) : s.Has kid ∨ (s.scheduleReloadForUnknownKid E).ReloadAwaiting := by
  have hstep : Jwks.step E s .scheduleReload = some (s.scheduleReloadForUnknownKid E) := rfl
  cases h.place with
  | has h => exact .inl h
  | awaiting hawaiting =>
    -- one is enough
    right
    obtain ⟨ℓ, ⟨origin, stage⟩, hload, rfl, hawaits⟩ := hawaiting
    have hflight := (h.tracked.loads.reload ℓ).mp ⟨stage, hload⟩
    unfold Sys.scheduleReloadForUnknownKid
    rw [if_pos (by rw [hflight]; rfl)]
    exact ⟨ℓ, _, hload, rfl, hawaits⟩
  | settled hload htime => omega
  | window hmem hpurpose hdeadline hnow => omega
  | free hpromise htimer =>
    rcases free_step h.tracked huri hpromise htimer (step_spec hstep) with ⟨hne, -⟩ | hawaiting
    · exact absurd rfl hne
    · exact .inr hawaiting

end Run

end SchedulingService.Jwks
