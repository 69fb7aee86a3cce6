import SchedulingService.Auth.Soundness
import SchedulingService.Jwks.Rotation

/-!
# Tokens under a new key

The same from where the guard stands. A token whose kid the service does not know is
turned away, and has the service look again; a reload in flight, or the window after
the last one, may make that wait. `rotated_key_reaches` says how long: once the endpoint
has published the key for longer than `RELOAD_DEBOUNCE_MS`, the next token is checked
under it, or leaves a reload that brings it with the endpoint's next answer.
-/

namespace SchedulingService.Auth

open Js
open Jwks (Pem)

/-- The endpoint answers with the new key, timers fire on time, and the module stays;
requests, verifications and marks come as they like. -/
def rotated (E : Env) (kid : String) (s : Sys) : Event → Bool
  | .jwks e => s.jwks.prompt e && Jwks.healthy E.jwks e && Jwks.publishes E.jwks kid e
  | _ => true

section Rotation

variable {E : Env} {s s' : Sys} {e : Event} {r : RequestId} {request : Request}
  {token kid : String} {limit : Int}

/-- Seen from the service, a step is one of its own, a request for a reload, or none. -/
theorem jwks_step (hrotated : rotated E kid s e = true) (hstep : step E s e = some s') :
    s'.jwks = s.jwks ∨ ∃ event, Jwks.step E.jwks s.jwks event = some s'.jwks ∧
      s.jwks.prompt event = true ∧ Jwks.healthy E.jwks event = true ∧
      Jwks.publishes E.jwks kid event = true := by
  cases step_spec hstep with
  | @jwks event jwks hjwks =>
    simp only [rotated, Bool.and_eq_true] at hrotated
    exact .inr ⟨event, hjwks, hrotated.1.1, hrotated.1.2, hrotated.2⟩
  | canActivate request hnew =>
    rcases canActivate_jwks (E := E) s request with hkept | hreload
    · exact .inl hkept
    · exact .inr ⟨.scheduleReload, congrArg some hreload.symm, rfl, rfl, rfl⟩
  | cacheWrite | verified | readToken | readDevice | readError => exact .inl rfl

/-- What the service keeps it keeps under the guard. -/
theorem rotating_step (h : Jwks.Rotating kid limit s.jwks) (huri : E.jwks.jwksUri ≠ none)
    (hrotated : rotated E kid s e = true) (hstep : step E s e = some s') :
    Jwks.Rotating kid limit s'.jwks := by
  rcases jwks_step hrotated hstep with hsame | ⟨event, hjwks, hprompt, hhealthy, hpublished⟩
  · rw [hsame]
    exact h
  · exact h.step huri hprompt hhealthy hpublished hjwks

/-- The key comes, and stays. -/
theorem answered_step (ht : Jwks.Tracked s.jwks) (h : s.jwks.Has kid ∨ s.jwks.ReloadAwaiting)
    (hrotated : rotated E kid s e = true) (hstep : step E s e = some s') :
    Jwks.Tracked s'.jwks ∧ (s'.jwks.Has kid ∨ s'.jwks.ReloadAwaiting) := by
  rcases jwks_step hrotated hstep with hsame | ⟨event, hjwks, -, hhealthy, hpublished⟩
  · rw [hsame]
    exact ⟨ht, h⟩
  · refine ⟨ht.step (Jwks.step_spec hjwks), ?_⟩
    rcases h with hhas | hawaiting
    · exact .inl (Jwks.has_step hhas hpublished (Jwks.step_spec hjwks))
    · exact Jwks.reloadAwaiting_step ht hawaiting hhealthy hpublished hjwks

/-- A token with a kid is checked under its key, or asks for a reload. -/
theorem canActivate_kid (s : Sys) (hprotected : request.isPublic = false)
    (htoken : extractBearerToken request.authorization = some token)
    (hkid : peekKid E token = some kid) :
    (∀ pem, s.jwks.getPublicKeyPem (some kid) = some pem → pem ≠ "" →
      s.canActivate E request = (s.jwks, .verifying token pem)) ∧
    (¬ s.jwks.Has kid →
      s.canActivate E request = (s.jwks.scheduleReloadForUnknownKid E.jwks, .unauthorized)) := by
  constructor
  · intro pem hget hne
    have hfound : (s.jwks.getPublicKeyPem (some kid)).filter (· ≠ "") = some pem := by
      rw [hget]
      exact if_pos (decide_eq_true hne)
    simp only [Sys.canActivate, hprotected, htoken, hkid, hfound, Bool.false_eq_true, if_false]
  · intro hnone
    have hmissing : (s.jwks.getPublicKeyPem (some kid)).filter (· ≠ "") = none := by
      rw [Option.filter_eq_none_iff]
      intro pem hget hne
      exact hnone ⟨pem, hget, by simpa using hne⟩
    simp only [Sys.canActivate, hprotected, htoken, hkid, hmissing, Bool.false_eq_true, if_false]

/-- **A rotated key reaches the guard.** From every state of every run: once the
endpoint has published a key under a kid for longer than `RELOAD_DEBOUNCE_MS`, a token
with that kid is checked under it, or a reload awaits the endpoint's answer; and from
then on the key is there, or that answer is still to come. -/
theorem rotated_key_reaches (huri : E.jwks.jwksUri ≠ none)
    (h : Machine.Reachable (machine E) Machine.always s)
    (hrun : Machine.Run (machine E) (fun s e => rotated E kid s e = true) s s')
    (hlate : s.jwks.now + Jwks.RELOAD_DEBOUNCE_MS < s'.jwks.now)
    (hprotected : request.isPublic = false)
    (htoken : extractBearerToken request.authorization = some token)
    (hkid : peekKid E token = some kid) {s₁ : Sys}
    (hstep : step E s' (.canActivate r request) = some s₁) :
    ((∃ call pem, s₁.calls r = some call ∧ s'.jwks.getPublicKeyPem (some kid) = some pem ∧
        call.phase = .verifying token pem) ∨ s₁.jwks.ReloadAwaiting) ∧
      ∀ s₂, Machine.Run (machine E) (fun s e => rotated E kid s e = true) s₁ s₂ →
        s₂.jwks.Has kid ∨ s₂.jwks.ReloadAwaiting := by
  have hrotating : Jwks.Rotating kid (s.jwks.now + Jwks.RELOAD_DEBOUNCE_MS) s'.jwks := by
    refine hrun.invariant (I := fun s' => Jwks.Rotating kid _ s'.jwks) ?_
      (Jwks.rotating_of_reachable (jwks_reachable h) kid)
    intro s₁ e s₂ h₁ hrotated hstep
    exact rotating_step h₁ huri hrotated hstep
  have hfirst : (s₁.jwks.Has kid ∧ ∃ call pem, s₁.calls r = some call ∧
      s'.jwks.getPublicKeyPem (some kid) = some pem ∧ call.phase = .verifying token pem) ∨
      s₁.jwks.ReloadAwaiting := by
    obtain ⟨hknown, hunknown⟩ := canActivate_kid (E := E) s' hprotected htoken hkid
    cases step_spec hstep with
    | canActivate request hnew =>
      by_cases hhas : s'.jwks.Has kid
      · obtain ⟨pem, hget, hne⟩ := hhas
        have hverifies := hknown pem hget hne
        rw [hverifies]
        exact .inl ⟨⟨pem, hget, hne⟩, _, pem, Function.update_self .., hget, rfl⟩
      · rw [hunknown hhas]
        exact .inr ((hrotating.reload huri hlate).resolve_left hhas)
  refine ⟨hfirst.imp_left And.right, fun s₂ hrun₂ => ?_⟩
  have hnext := rotating_step hrotating huri rfl hstep
  have hrest : Jwks.Tracked s₂.jwks ∧ (s₂.jwks.Has kid ∨ s₂.jwks.ReloadAwaiting) := by
    refine hrun₂.invariant
      (I := fun s => Jwks.Tracked s.jwks ∧ (s.jwks.Has kid ∨ s.jwks.ReloadAwaiting)) ?_
      ⟨hnext.tracked, hfirst.imp_left And.left⟩
    rintro s₃ e s₄ ⟨ht, hanswered⟩ hrotated hstep₃
    exact answered_step ht hanswered hrotated hstep₃
  exact hrest.2

end Rotation

/-- The request of `guardedRequest`. -/
def bearer : Request := ⟨none, none, some "Bearer eyJraWQiOiJrZXktMSJ9.payload.sig"⟩

/-- A document without its key. -/
def retiredKey : Value :=
  .obj [("keys", .arr [.obj [("kty", .str "EC"), ("crv", .str "P-256"), ("use", .str "sig"),
    ("x", .str "old"), ("y", .str "y"), ("kid", .str "key-0")]])]

/-- It comes too early: the reload it asks for brings the old key, and opens the window. -/
def tooEarly : List Event :=
  [.canActivate 0 bearer, .jwks (.respond 0 true), .jwks (.body 0 (some retiredKey)),
    .jwks (.settle 0)]

theorem rotated_key_reaches_tooEarly : ∃ s s' s₁,
    (machine oneToken).exec emptyStart tooEarly = some s ∧
      (machine oneToken).exec s [.jwks (.elapse 5000), .jwks (.fire 0), .jwks (.elapse 1)] =
        some s' ∧ step oneToken s' (.canActivate 1 bearer) = some s₁ ∧
      ((∃ call pem, s₁.calls 1 = some call ∧
          s'.jwks.getPublicKeyPem (some "key-1") = some pem ∧
          call.phase = .verifying "eyJraWQiOiJrZXktMSJ9.payload.sig" pem) ∨
        s₁.jwks.ReloadAwaiting) := by
  obtain ⟨s, hs, s', hs', hrestrict, hlate, s₁, hstep⟩ : ∃ s,
      (machine oneToken).exec emptyStart tooEarly = some s ∧ ∃ s',
        (machine oneToken).exec s [.jwks (.elapse 5000), .jwks (.fire 0), .jwks (.elapse 1)] =
          some s' ∧
        (Machine.restrict (machine oneToken) (rotated oneToken "key-1")).exec s
          [.jwks (.elapse 5000), .jwks (.fire 0), .jwks (.elapse 1)] = some s' ∧
        s.jwks.now + Jwks.RELOAD_DEBOUNCE_MS < s'.jwks.now ∧ ∃ s₁,
          step oneToken s' (.canActivate 1 bearer) = some s₁ :=
    ⟨_, rfl, _, rfl, rfl, by decide, _, rfl⟩
  have hreach : Machine.Reachable (machine oneToken) Machine.always s :=
    ⟨_, ⟨⟨0, rfl⟩, rfl⟩, .of_exec (fun _ _ _ => trivial) hs⟩
  have hrun := Machine.Run.of_restrict
    (Machine.Run.of_exec (C := Machine.always) (fun _ _ _ => trivial) hrestrict)
  exact ⟨s, s', s₁, hs, hs', hstep, (rotated_key_reaches (by simp [oneToken, Jwks.plainKeys]) hreach
    hrun hlate rfl rfl rfl hstep).1⟩

end SchedulingService.Auth
