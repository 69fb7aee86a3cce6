import SchedulingService.Jwks.Newest

/-!
# Getting ready after all

The startup loop makes three attempts, the background loop goes on where they
have failed, and each takes over from the other in an event of its own. Whatever
has gone wrong until then, the service recovers once the endpoint does: as long as
it is not destroyed, somebody will try again within `BACKGROUND_RETRY_MS`.

* `Sys.Trying` — a loop awaits a load, is about to go on, or sleeps and wakes up
  in time.
* `trying_step` — what one step makes of that.
* `trying_of_reachable` — a service that is not ready is always trying.
* `recovers` — from any state of any run: with an endpoint that answers and timers
  that fire on time, half a minute later it is ready, or waits for that answer.
-/

namespace SchedulingService.Jwks

/-- It stands at an await of `loadPublicKey`. -/
def Load.awaits (load : Load) : Bool := load.stage = .fetching || load.stage = .reading

/-- One of the loops waits for the endpoint. -/
def Sys.Awaiting (s : Sys) : Prop :=
  ∃ ℓ load, s.loads ℓ = some load ∧ load.origin ≠ .reload ∧ load.awaits = true

/-- A load of one of the loops has failed, and a sleep that follows is over by
`limit`. -/
def Sys.Failing (s : Sys) (limit : Int) : Prop :=
  ∃ ℓ origin, s.loads ℓ = some ⟨origin, .settled false⟩ ∧ origin ≠ .reload ∧
    s.now + BACKGROUND_RETRY_MS ≤ limit

/-- One of the loops sleeps until `limit` at most. -/
def Sys.Sleeping (s : Sys) (limit : Int) : Prop :=
  ∃ t ∈ s.timers, t.purpose ≠ .debounce ∧ t.deadline ≤ limit

/-- One of the loops has slept. -/
def Sys.Waking (s : Sys) : Prop := ∃ purpose ∈ s.woken, purpose ≠ .debounce

/-- The next attempt is under way, or begins by `limit`. -/
def Sys.Trying (s : Sys) (limit : Int) : Prop :=
  s.Awaiting ∨ s.Failing limit ∨ s.Sleeping limit ∨ s.Waking

/-! ## The endpoint and the clock -/

/-- Every timer fires when it is due and what it resolves goes on at once: time
passes only while the loops wait. -/
def Sys.prompt (s : Sys) : Event → Bool
  | .elapse ms =>
    s.woken.isEmpty && ((List.range s.nextLoad).all fun ℓ => (s.loads ℓ).all Load.awaits) &&
      s.timers.all fun t => s.now + ms ≤ t.deadline
  | _ => true

/-- The endpoint answers, with keys that can be used, and the module stays. -/
def healthy (E : Env) : Event → Bool
  | .respond _ ok => ok
  | .fetchError _ => false
  | .body _ document => (document.bind (loadKeys E)).isSome
  | .destroy => false
  | _ => true

/-! ## What one step leaves -/

section Step

variable {E : Env} {s s' : Sys} {e : Event} {limit : Int}

theorem isReady_step (h : s.isReady = true) (hs : Step E s e s') : s'.isReady = true := by
  rcases keys_step hs with ⟨ℓ, document, keys, -, hkeys, -, -, hprimary⟩ | ⟨-, -, -, hprimary⟩
  · obtain ⟨pem, hfirst⟩ := first_loadKeys hkeys
    rw [Sys.isReady, hprimary, hfirst]
    rfl
  · rw [Sys.isReady, hprimary]
    exact h

/-- Only `elapse`, `init` and `destroy` write these. -/
theorem frame_step (hs : Step E s e s') :
    ((∀ ms, e ≠ .elapse ms) → s'.now = s.now) ∧
      (e ≠ .init → s'.initialised = s.initialised) ∧
      (e ≠ .destroy → s'.destroyed = s.destroyed) := by
  cases hs with
  | init =>
    rw [loadPublicKey_eq]
    exact ⟨fun _ => rfl, fun h => absurd rfl h, fun _ => rfl⟩
  | retried =>
    rw [loadPublicKey_eq]
    exact ⟨fun _ => rfl, fun _ => rfl, fun _ => rfl⟩
  | reloadStarted =>
    rw [loadPublicKey_eq]
    exact ⟨fun _ => rfl, fun _ => rfl, fun _ => rfl⟩
  | fired =>
    unfold Sys.fired
    split <;> exact ⟨fun _ => rfl, fun _ => rfl, fun _ => rfl⟩
  | elapse ms => exact ⟨fun h => absurd rfl (h ms), fun _ => rfl, fun _ => rfl⟩
  | destroy => exact ⟨fun _ => rfl, fun _ => rfl, fun h => absurd rfl h⟩
  | progress | loaded | ended | slept | reloadSettled | woken | reloadSkipped =>
    exact ⟨fun _ => rfl, fun _ => rfl, fun _ => rfl⟩

theorem backoffDelay_le {attempt : Nat} (h : attempt < BACKOFF_MAX_ATTEMPTS) :
    backoffDelay attempt ≤ BACKGROUND_RETRY_MS := by
  have hcases : attempt = 0 ∨ attempt = 1 ∨ attempt = 2 := by
    unfold BACKOFF_MAX_ATTEMPTS at h
    omega
  rcases hcases with rfl | rfl | rfl <;> decide

/-- A loop whose load has failed ends, or goes to sleep. -/
theorem afterLoad_cases {ℓ : LoadId} {origin : Origin} (horigin : origin ≠ .reload)
    (halive : s.destroyed = false) :
    s.afterLoad ℓ false origin = s ∧ s.isReady = true ∨
      ∃ purpose ms, purpose ≠ .debounce ∧ ms ≤ BACKGROUND_RETRY_MS ∧
        s.afterLoad ℓ false origin = s.sleep purpose ms := by
  have hbackground : s.continueBackgroundRetry = s ∧ s.isReady = true ∨
      ∃ purpose ms, purpose ≠ .debounce ∧ ms ≤ BACKGROUND_RETRY_MS ∧
        s.continueBackgroundRetry = s.sleep purpose ms := by
    unfold Sys.continueBackgroundRetry
    by_cases hready : s.isReady = true
    · exact .inl ⟨if_neg (by simp [hready]), hready⟩
    · exact .inr ⟨.background, BACKGROUND_RETRY_MS, by simp, Nat.le_refl _,
        if_pos (by simp [hready, halive])⟩
  cases origin with
  | startup attempt =>
    by_cases hmore : attempt < BACKOFF_MAX_ATTEMPTS
    · refine .inr ⟨.startup attempt, _, by simp, backoffDelay_le hmore, ?_⟩
      show (if false || s.destroyed then s else if _ then _ else _) = _
      rw [halive, if_neg (by simp), if_pos hmore]
    · have hgoes : s.afterLoad ℓ false (.startup attempt) = s.continueBackgroundRetry := by
        show (if false || s.destroyed then s else if _ then _ else _) = _
        rw [halive, if_neg (by simp), if_neg hmore]
      rw [hgoes]
      exact hbackground
  | background => exact hbackground
  | reload => exact absurd rfl horigin

/-- A loop that has slept ends, or tries again. -/
theorem afterSleep_cases {purpose : Purpose} (hpurpose : purpose ≠ .debounce)
    (halive : s.destroyed = false) :
    s.afterSleep E purpose = s ∧ s.isReady = true ∨
      ∃ origin, origin ≠ .reload ∧ s.afterSleep E purpose = s.loadPublicKey E origin := by
  cases purpose with
  | startup attempt =>
    refine .inr ⟨.startup (attempt + 1), by simp, ?_⟩
    show (if s.destroyed then s else s.loadPublicKey E (.startup (attempt + 1))) = _
    rw [if_neg (by simp [halive])]
  | background =>
    show (if s.destroyed || s.isReady then s else s.loadPublicKey E .background) = s ∧ _ ∨
      ∃ origin, _ ∧ (if s.destroyed || s.isReady then s else s.loadPublicKey E .background) = _
    rw [halive, Bool.false_or]
    by_cases hready : s.isReady = true
    · rw [if_pos hready]
      exact .inl ⟨rfl, hready⟩
    · rw [if_neg hready]
      exact .inr ⟨.background, by simp, rfl⟩
  | debounce => exact absurd rfl hpurpose

/-! ## What becomes of an attempt -/

theorem loads_afterLoad (s : Sys) (ℓ : LoadId) (ok : Bool) (origin : Origin) :
    (s.afterLoad ℓ ok origin).loads = s.loads := by
  have hbackground : s.continueBackgroundRetry.loads = s.loads := by
    unfold Sys.continueBackgroundRetry
    split <;> rfl
  cases origin with
  | startup attempt =>
    simp only [Sys.afterLoad]
    split
    · rfl
    · split
      · rfl
      · exact hbackground
  | background => exact hbackground
  | reload => rfl

/-- A load changes by events of its own only. -/
theorem loads_step (ht : Tracked s) {ℓ : LoadId} {load : Load} (hload : s.loads ℓ = some load)
    (hstep : step E s e = some s') (hrespond : ∀ ok, e ≠ .respond ℓ ok)
    (herror : e ≠ .fetchError ℓ) (hbody : ∀ document, e ≠ .body ℓ document)
    (hsettle : e ≠ .settle ℓ) : s'.loads ℓ = some load := by
  rw [← hload]
  -- a new load has a number of its own
  have hstarted (woken : List Purpose) (origin : Origin) :
      (Sys.loadPublicKey E { s with woken } origin).loads ℓ = s.loads ℓ := by
    rw [loadPublicKey_eq]
    exact Function.update_of_ne (ht.loads.lt_next hload).ne _ _
  cases e with
  | elapse ms =>
    obtain rfl := Option.some.inj hstep
    rfl
  | init =>
    simp only [step] at hstep
    split at hstep
    · cases hstep
    · obtain rfl := Option.some.inj hstep
      exact hstarted s.woken _
  | destroy =>
    obtain rfl := Option.some.inj hstep
    rfl
  | respond ℓ' ok =>
    have hne : ℓ ≠ ℓ' := fun h => hrespond ok (h ▸ rfl)
    simp only [step] at hstep
    split at hstep
    · obtain rfl := Option.some.inj hstep
      exact Function.update_of_ne hne _ _
    · cases hstep
  | fetchError ℓ' =>
    have hne : ℓ ≠ ℓ' := fun h => herror (h ▸ rfl)
    simp only [step] at hstep
    split at hstep
    · obtain rfl := Option.some.inj hstep
      exact Function.update_of_ne hne _ _
    · cases hstep
  | body ℓ' document =>
    have hne : ℓ ≠ ℓ' := fun h => hbody document (h ▸ rfl)
    simp only [step] at hstep
    split at hstep
    · split at hstep
      all_goals
        obtain rfl := Option.some.inj hstep
        exact Function.update_of_ne hne _ _
    · cases hstep
  | settle ℓ' =>
    have hne : ℓ ≠ ℓ' := fun h => hsettle (h ▸ rfl)
    simp only [step] at hstep
    split at hstep
    · obtain rfl := Option.some.inj hstep
      rw [loads_afterLoad]
      exact Function.update_of_ne hne _ _
    · cases hstep
  | fire h =>
    simp only [step] at hstep
    split at hstep
    · split at hstep
      · obtain rfl := Option.some.inj hstep
        unfold Sys.fired
        split <;> rfl
      · cases hstep
    · cases hstep
  | wake purpose =>
    simp only [step] at hstep
    split at hstep
    · obtain rfl := Option.some.inj hstep
      -- the loop ends, or starts a load
      unfold Sys.afterSleep
      split
      · split
        · rfl
        · exact hstarted _ _
      · split
        · rfl
        · exact hstarted _ _
      · rfl
    · cases hstep
  | scheduleReload =>
    obtain rfl := Option.some.inj hstep
    unfold Sys.scheduleReloadForUnknownKid
    split
    · rfl
    · split
      · rfl
      · exact hstarted s.woken _

/-- A load that awaits something is left alone, brings keys, or has failed, which is
nothing an endpoint that is up does. -/
theorem awaits_step (ht : Tracked s) {ℓ : LoadId} {load : Load} (hload : s.loads ℓ = some load)
    (hawaits : load.awaits = true) (hstep : step E s e = some s') :
    (∃ load', s'.loads ℓ = some load' ∧ load'.origin = load.origin ∧ load'.awaits = true) ∨
      (∃ document keys, e = .body ℓ (some document) ∧ loadKeys E document = some keys) ∨
      s'.loads ℓ = some ⟨load.origin, .settled false⟩ ∧ s'.now = s.now ∧ healthy E e = false := by
  obtain ⟨origin, stage⟩ := load
  by_cases hrespond : ∃ ok, e = .respond ℓ ok
  · obtain ⟨ok, rfl⟩ := hrespond
    simp only [step, hload] at hstep
    split at hstep
    · rename_i horigin' hfetching
      obtain ⟨rfl, rfl⟩ := Load.mk.inj (Option.some.inj hfetching)
      obtain rfl := Option.some.inj hstep
      cases ok with
      | true => exact .inl ⟨_, Function.update_self .., rfl, rfl⟩
      | false => exact .inr (.inr ⟨Function.update_self .., rfl, rfl⟩)
    · cases hstep
  · by_cases herror : e = .fetchError ℓ
    · subst herror
      simp only [step, hload] at hstep
      split at hstep
      · rename_i horigin' hfetching
        obtain ⟨rfl, rfl⟩ := Load.mk.inj (Option.some.inj hfetching)
        obtain rfl := Option.some.inj hstep
        exact .inr (.inr ⟨Function.update_self .., rfl, rfl⟩)
      · cases hstep
    · by_cases hbody : ∃ document, e = .body ℓ document
      · obtain ⟨document, rfl⟩ := hbody
        simp only [step, hload] at hstep
        split at hstep
        · rename_i horigin' hreading
          obtain ⟨rfl, rfl⟩ := Load.mk.inj (Option.some.inj hreading)
          split at hstep
          · rename_i keys hkeys
            obtain ⟨document, rfl, hkeys⟩ := Option.bind_eq_some_iff.mp hkeys
            exact .inr (.inl ⟨document, keys, rfl, hkeys⟩)
          · rename_i hnone
            obtain rfl := Option.some.inj hstep
            exact .inr (.inr ⟨Function.update_self .., rfl, congrArg Option.isSome hnone⟩)
        · cases hstep
      · have hsettle : e ≠ .settle ℓ := by
          rintro rfl
          simp only [step, hload] at hstep
          split at hstep
          · rename_i hsettled
            obtain ⟨rfl, rfl⟩ := Load.mk.inj (Option.some.inj hsettled)
            exact absurd hawaits (by simp [Load.awaits])
          · cases hstep
        have hkept := loads_step ht hload hstep (not_exists.mp hrespond) herror
          (not_exists.mp hbody) hsettle
        exact .inl ⟨_, hkept, rfl, hawaits⟩

/-- So does one of the loops. -/
theorem awaiting_step (ht : Tracked s) (h : s.Awaiting)
    (hin : s.now + BACKGROUND_RETRY_MS ≤ limit ∨ healthy E e = true)
    (hstep : step E s e = some s') : s'.isReady = true ∨ s'.Awaiting ∨ s'.Failing limit := by
  obtain ⟨ℓ, load, hload, horigin, hawaits⟩ := h
  rcases awaits_step ht hload hawaits hstep with
    ⟨load', hload', hsame, hawaits'⟩ | ⟨document, keys, rfl, hkeys⟩ | ⟨hsettled, hnow, hsick⟩
  · exact .inr (.inl ⟨ℓ, load', hload', by rw [hsame]; exact horigin, hawaits'⟩)
  · rcases keys_step (step_spec hstep) with ⟨ℓ', document', keys', -, hkeys', -, -, hprimary⟩ |
      ⟨hnone, -⟩
    · obtain ⟨pem, hfirst⟩ := first_loadKeys hkeys'
      exact .inl (by rw [Sys.isReady, hprimary, hfirst]; rfl)
    · rw [hnone ℓ document rfl] at hkeys
      cases hkeys
  · have htime := hin.resolve_right (by rw [hsick]; simp)
    exact .inr (.inr ⟨ℓ, load.origin, hsettled, horigin, by rw [hnow]; exact htime⟩)

/-- A loop whose load has failed goes on. -/
theorem failing_step (ht : Tracked s) (halive : s.destroyed = false) (h : s.Failing limit)
    (hnow : ∀ ms, e ≠ .elapse ms) (hstep : step E s e = some s') :
    s'.isReady = true ∨ s'.Failing limit ∨ s'.Sleeping limit := by
  obtain ⟨ℓ, origin, hload, horigin, htime⟩ := h
  by_cases hsettle : e = .settle ℓ
  · subst hsettle
    simp only [step, hload, Option.some.injEq] at hstep
    subst hstep
    rcases afterLoad_cases (s := s.dropLoad ℓ) (ℓ := ℓ) horigin halive with
      ⟨hends, hready⟩ | ⟨purpose, ms, hpurpose, hms, hsleeps⟩
    · rw [hends]
      exact .inl hready
    · rw [hsleeps]
      refine .inr (.inr ⟨_, List.mem_cons_self, hpurpose, ?_⟩)
      show s.now + (ms : Int) ≤ limit
      omega
  · -- the endpoint has nothing more to say to it
    have hrespond : ∀ ok, e ≠ .respond ℓ ok := by
      rintro ok rfl
      simp [step, hload] at hstep
    have herror : e ≠ .fetchError ℓ := by
      rintro rfl
      simp [step, hload] at hstep
    have hbody : ∀ document, e ≠ .body ℓ document := by
      rintro document rfl
      simp [step, hload] at hstep
    have hkept := loads_step ht hload hstep hrespond herror hbody hsettle
    have hsame := (frame_step (step_spec hstep)).1 hnow
    exact .inr (.inl ⟨ℓ, origin, hkept, horigin, by rw [hsame]; exact htime⟩)

/-- A timer stays armed, or fires. -/
theorem timer_step {t : Timer} (ht : t ∈ s.timers) (hdestroy : e ≠ .destroy)
    (hstep : step E s e = some s') : t ∈ s'.timers ∨ s' = s.fired t := by
  cases step_spec hstep with
  | destroy => exact absurd rfl hdestroy
  | slept purpose ms => exact .inl (List.mem_cons_of_mem _ ht)
  | reloadSettled => exact .inl (List.mem_cons_of_mem _ ht)
  | @fired handle t' hmem hhandle hdue =>
    by_cases hsame : t = t'
    · subst hsame
      exact .inr rfl
    · have hleft : (s.fired t').timers = s.timers.erase t' := by
        unfold Sys.fired
        split <;> rfl
      rw [hleft]
      exact .inl ((List.mem_erase_of_ne hsame).mpr ht)
  | init =>
    rw [loadPublicKey_eq]
    exact .inl ht
  | retried =>
    rw [loadPublicKey_eq]
    exact .inl ht
  | reloadStarted =>
    rw [loadPublicKey_eq]
    exact .inl ht
  | elapse | progress | loaded | ended | woken | reloadSkipped => exact .inl ht

/-- A loop sleeps on, or its timer fires. -/
theorem sleeping_step (h : s.Sleeping limit) (hdestroy : e ≠ .destroy)
    (hstep : step E s e = some s') : s'.Sleeping limit ∨ s'.Waking := by
  obtain ⟨t, ht, hpurpose, hdeadline⟩ := h
  rcases timer_step ht hdestroy hstep with hmem | rfl
  · exact .inl ⟨t, hmem, hpurpose, hdeadline⟩
  · -- the callback of a sleep
    have hwoken : (s.fired t).woken = t.purpose :: s.woken := by
      unfold Sys.fired
      split
      · rename_i hdebounce
        exact absurd hdebounce hpurpose
      · rfl
    exact .inr ⟨t.purpose, by rw [hwoken]; exact List.mem_cons_self, hpurpose⟩

/-- A load of one of the loops starts. -/
theorem trying_loadPublicKey (s : Sys) {origin : Origin} (horigin : origin ≠ .reload)
    (hin : s.now + BACKGROUND_RETRY_MS ≤ limit ∨ E.jwksUri ≠ none) :
    (s.loadPublicKey E origin).Awaiting ∨ (s.loadPublicKey E origin).Failing limit := by
  rw [loadPublicKey_eq]
  by_cases huri : E.jwksUri.isSome = true
  · have hstage : E.firstStage = .fetching := if_pos huri
    exact .inl ⟨s.nextLoad, _, Function.update_self .., horigin, by rw [hstage]; rfl⟩
  · have hstage : E.firstStage = .settled false := if_neg huri
    have htime := hin.resolve_right fun h => huri (Option.isSome_iff_ne_none.mpr h)
    exact .inr ⟨s.nextLoad, origin, by rw [hstage]; exact Function.update_self .., horigin, htime⟩

/-- A loop that has slept goes on when its turn comes. -/
theorem waking_step (halive : s.destroyed = false) (h : s.Waking)
    (hin : s.now + BACKGROUND_RETRY_MS ≤ limit ∨ E.jwksUri ≠ none)
    (hstep : step E s e = some s') :
    s'.isReady = true ∨ s'.Awaiting ∨ s'.Failing limit ∨ s'.Waking := by
  obtain ⟨purpose, hwoken, hpurpose⟩ := h
  have hkept (hmem : purpose ∈ s'.woken) :
      s'.isReady = true ∨ s'.Awaiting ∨ s'.Failing limit ∨ s'.Waking :=
    .inr (.inr (.inr ⟨purpose, hmem, hpurpose⟩))
  by_cases hturn : e = .wake purpose
  · subst hturn
    simp only [step, if_pos hwoken, Option.some.injEq] at hstep
    subst hstep
    rcases afterSleep_cases (E := E) (s := { s with woken := s.woken.erase purpose }) hpurpose
      halive with ⟨hends, hready⟩ | ⟨origin, horigin, hloads⟩
    · rw [hends]
      exact .inl hready
    · rw [hloads]
      have hstarted := trying_loadPublicKey { s with woken := s.woken.erase purpose } horigin hin
      exact .inr (hstarted.imp_right .inl)
  · cases step_spec hstep with
    | @woken purpose' hwoken' =>
      have hne : purpose ≠ purpose' := fun hsame => hturn (hsame ▸ rfl)
      exact hkept ((List.mem_erase_of_ne hne).mpr hwoken)
    | @retried purpose' origin hwoken' =>
      have hne : purpose ≠ purpose' := fun hsame => hturn (hsame ▸ rfl)
      refine hkept ?_
      rw [loadPublicKey_eq]
      exact (List.mem_erase_of_ne hne).mpr hwoken
    | fired =>
      refine hkept ?_
      unfold Sys.fired
      split
      · exact hwoken
      · exact List.mem_cons_of_mem _ hwoken
    | init =>
      refine hkept ?_
      rw [loadPublicKey_eq]
      exact hwoken
    | reloadStarted =>
      refine hkept ?_
      rw [loadPublicKey_eq]
      exact hwoken
    | elapse | destroy | progress | loaded | ended | slept | reloadSettled | reloadSkipped =>
      exact hkept hwoken

/-- **One step.** Whoever was trying goes on, or the service is ready. -/
theorem trying_step (ht : Tracked s) (halive : s.destroyed = false) (h : s.Trying limit)
    (hin : s.now + BACKGROUND_RETRY_MS ≤ limit ∨ healthy E e = true ∧ E.jwksUri ≠ none)
    (hnow : ∀ ms, e ≠ .elapse ms) (hdestroy : e ≠ .destroy) (hstep : step E s e = some s') :
    s'.isReady = true ∨ s'.Trying limit := by
  rcases h with h | h | h | h
  · rcases awaiting_step ht h (hin.imp_right And.left) hstep with hready | hafter | hafter
    · exact .inl hready
    · exact .inr (.inl hafter)
    · exact .inr (.inr (.inl hafter))
  · rcases failing_step ht halive h hnow hstep with hready | hafter | hafter
    · exact .inl hready
    · exact .inr (.inr (.inl hafter))
    · exact .inr (.inr (.inr (.inl hafter)))
  · rcases sleeping_step h hdestroy hstep with hafter | hafter
    · exact .inr (.inr (.inr (.inl hafter)))
    · exact .inr (.inr (.inr (.inr hafter)))
  · rcases waking_step halive h (hin.imp_right And.right) hstep with
      hready | hafter | hafter | hafter
    · exact .inl hready
    · exact .inr (.inl hafter)
    · exact .inr (.inr (.inl hafter))
    · exact .inr (.inr (.inr (.inr hafter)))

end Step

/-! ## Runs -/

/-- A service in use that is not ready tries again within `BACKGROUND_RETRY_MS`. -/
def Sys.KeepsTrying (s : Sys) : Prop :=
  s.initialised = true → s.destroyed = false →
    s.isReady = true ∨ s.Trying (s.now + BACKGROUND_RETRY_MS)

theorem keepsTrying_step {E : Env} {s s' : Sys} {e : Event} (ht : Tracked s) (h : s.KeepsTrying)
    (hstep : step E s e = some s') : s'.KeepsTrying := by
  intro hinit halive
  by_cases helapse : ∃ ms, e = .elapse ms
  · -- the next attempt has come nearer
    obtain ⟨ms, rfl⟩ := helapse
    obtain rfl := Option.some.inj hstep
    refine (h hinit halive).imp_right fun htrying => ?_
    rcases htrying with h | ⟨ℓ, origin, hload, horigin, -⟩ | ⟨t, ht, hpurpose, hdeadline⟩ | h
    · exact .inl h
    · exact .inr (.inl ⟨ℓ, origin, hload, horigin, Int.le_refl _⟩)
    · refine .inr (.inr (.inl ⟨t, ht, hpurpose, ?_⟩))
      show t.deadline ≤ s.now + ms + BACKGROUND_RETRY_MS
      omega
    · exact .inr (.inr (.inr h))
  · by_cases hdestroy : e = .destroy
    · subst hdestroy
      obtain rfl := Option.some.inj hstep
      cases halive
    · obtain ⟨hnow, hfirst, hgone⟩ := frame_step (step_spec hstep)
      rw [hgone hdestroy] at halive
      rw [hnow (not_exists.mp helapse)]
      by_cases hbegins : e = .init
      · -- the first attempt
        subst hbegins
        simp only [step] at hstep
        split at hstep
        · cases hstep
        · obtain rfl := Option.some.inj hstep
          have hstarted : (s.loadPublicKey E (.startup 1)).Awaiting ∨
              (s.loadPublicKey E (.startup 1)).Failing (s.now + BACKGROUND_RETRY_MS) :=
            trying_loadPublicKey s (by simp) (.inl (Int.le_refl _))
          exact .inr (hstarted.imp_right .inl)
      · rw [hfirst hbegins] at hinit
        rcases h hinit halive with hready | htrying
        · exact .inl (isReady_step hready (step_spec hstep))
        · exact trying_step ht halive htrying (.inl (Int.le_refl _)) (not_exists.mp helapse)
            hdestroy hstep

/-- **Every run.** Nobody gives up before the service is ready. -/
theorem trying_of_reachable {E : Env} {s : Sys}
    (h : Machine.Reachable (machine E) Machine.always s) : s.KeepsTrying := by
  refine (h.invariant (I := fun s => Tracked s ∧ s.KeepsTrying) ?_ ?_).2
  · rintro s ⟨now, rfl⟩
    refine ⟨tracked_start now, fun hinit => ?_⟩
    cases hinit
  · intro s e s' hs _ hstep
    exact ⟨hs.1.step (step_spec hstep), keepsTrying_step hs.1 hs.2 hstep⟩

/-- What a run with a healthy endpoint keeps: it is not yet `limit`, or the last
answer is on its way. -/
structure InTime (limit : Int) (s : Sys) : Prop where
  tracked : Tracked s
  alive : s.destroyed = false
  trying : s.isReady = true ∨ s.Awaiting ∨ s.now ≤ limit ∧ s.Trying limit

/-- Time passes only while it may. -/
theorem inTime_elapse {s : Sys} {limit : Int} {ms : Nat} (ht : Tracked s)
    (hprompt : s.prompt (.elapse ms) = true) (h : s.now ≤ limit ∧ s.Trying limit) :
    s.Awaiting ∨ s.now + ms ≤ limit ∧ s.Sleeping limit := by
  simp only [Sys.prompt, Bool.and_eq_true, List.all_eq_true, List.mem_range,
    decide_eq_true_eq] at hprompt
  obtain ⟨⟨hwoken, hloads⟩, htimers⟩ := hprompt
  rcases h.2 with h | ⟨ℓ, origin, hload, -, -⟩ | ⟨t, ht, hpurpose, hdeadline⟩ |
    ⟨purpose, hmem, -⟩
  · exact .inl h
  · -- what has failed goes on first
    have hwaits := hloads ℓ (ht.loads.lt_next hload)
    rw [hload] at hwaits
    cases hwaits
  · exact .inr ⟨Int.le_trans (htimers t ht) hdeadline, t, ht, hpurpose, hdeadline⟩
  · rw [List.isEmpty_iff.mp hwoken] at hmem
    cases hmem

theorem InTime.step {E : Env} {s s' : Sys} {e : Event} {limit : Int} (h : InTime limit s)
    (huri : E.jwksUri ≠ none) (hprompt : s.prompt e = true) (hhealthy : healthy E e = true)
    (hstep : step E s e = some s') : InTime limit s' := by
  have hdestroy : e ≠ .destroy := by
    rintro rfl
    cases hhealthy
  obtain ⟨hnow, -, hgone⟩ := frame_step (step_spec hstep)
  refine ⟨h.tracked.step (step_spec hstep), (hgone hdestroy).trans h.alive, ?_⟩
  by_cases helapse : ∃ ms, e = .elapse ms
  · obtain ⟨ms, rfl⟩ := helapse
    obtain rfl := Option.some.inj hstep
    rcases h.trying with hready | hawaiting | htrying
    · exact .inl hready
    · exact .inr (.inl hawaiting)
    · rcases inTime_elapse h.tracked hprompt htrying with hawaiting | ⟨htime, hsleeping⟩
      · exact .inr (.inl hawaiting)
      · exact .inr (.inr ⟨htime, .inr (.inr (.inl hsleeping))⟩)
  · have hsame := hnow (not_exists.mp helapse)
    rcases h.trying with hready | hawaiting | ⟨htime, htrying⟩
    · exact .inl (isReady_step hready (step_spec hstep))
    · have hnext : s'.isReady = true ∨ s'.Awaiting ∨ s'.Failing limit :=
        awaiting_step h.tracked hawaiting (.inr hhealthy) hstep
      rcases hnext with hready | hafter | hafter
      · exact .inl hready
      · exact .inr (.inl hafter)
      · have hleft : s'.now ≤ limit := by
          obtain ⟨ℓ, origin, -, -, htime⟩ := hafter
          omega
        exact .inr (.inr ⟨hleft, .inr (.inl hafter)⟩)
    · rcases trying_step h.tracked h.alive htrying (.inr ⟨hhealthy, huri⟩)
        (not_exists.mp helapse) hdestroy hstep with hready | hafter
      · exact .inl hready
      · exact .inr (.inr ⟨by rw [hsame]; exact htime, hafter⟩)

/-- **Recovery.** Whatever has gone wrong in a service that is in use: with an
endpoint that answers and timers that fire on time, `BACKGROUND_RETRY_MS` later it
is ready, or one of its loops waits for that answer. -/
theorem recovers {E : Env} {s s' : Sys} (huri : E.jwksUri ≠ none)
    (h : Machine.Reachable (machine E) Machine.always s) (hinit : s.initialised = true)
    (halive : s.destroyed = false)
    (hrun : Machine.Run (machine E) (fun s e => (s.prompt e && healthy E e) = true) s s')
    (hlate : s.now + BACKGROUND_RETRY_MS < s'.now) : s'.isReady = true ∨ s'.Awaiting := by
  have hstart : InTime (s.now + BACKGROUND_RETRY_MS) s := by
    refine ⟨tracked_of_reachable h, halive, ?_⟩
    rcases trying_of_reachable h hinit halive with hready | htrying
    · exact .inl hready
    · refine .inr (.inr ⟨?_, htrying⟩)
      omega
  have hend : InTime (s.now + BACKGROUND_RETRY_MS) s' := by
    refine hrun.invariant (fun s₁ e s₂ h₁ hC hstep => ?_) hstart
    obtain ⟨hprompt, hhealthy⟩ := Bool.and_eq_true_iff.mp hC
    exact h₁.step huri hprompt hhealthy hstep
  rcases hend.trying with hready | hawaiting | ⟨hnow, -⟩
  · exact .inl hready
  · exact .inr hawaiting
  · omega

/-- The endpoint is back by the time the background loop wakes up. -/
def recoveredLoad : List Event :=
  [.elapse 30000, .fire 2, .wake .background, .respond 3 true,
    .body 3 (some (oneKey "new")), .settle 3, .elapse 1]

theorem recovers_failingStartup :
    ∃ s s', (machine plainKeys).exec (.start 0) failingStartup = some s ∧ s.isReady = false ∧
      (machine plainKeys).exec s recoveredLoad = some s' ∧
      (s'.isReady = true ∨ s'.Awaiting) := by
  obtain ⟨s, hs, hinit, halive, hready, s', hs', hrestrict, hlate⟩ : ∃ s,
      (machine plainKeys).exec (.start 0) failingStartup = some s ∧ s.initialised = true ∧
        s.destroyed = false ∧ s.isReady = false ∧ ∃ s',
          (machine plainKeys).exec s recoveredLoad = some s' ∧
          (Machine.restrict (machine plainKeys)
            fun s e => s.prompt e && healthy plainKeys e).exec s recoveredLoad = some s' ∧
          s.now + BACKGROUND_RETRY_MS < s'.now :=
    ⟨_, rfl, rfl, rfl, rfl, _, rfl, rfl, by decide⟩
  have hreach : Machine.Reachable (machine plainKeys) Machine.always s :=
    ⟨_, ⟨0, rfl⟩, .of_exec (fun _ _ _ => trivial) hs⟩
  have hrun := Machine.Run.of_restrict
    (Machine.Run.of_exec (C := Machine.always) (fun _ _ _ => trivial) hrestrict)
  exact ⟨s, s', hs, hready, hs', recovers (by simp [plainKeys]) hreach hinit halive hrun hlate⟩

end SchedulingService.Jwks
