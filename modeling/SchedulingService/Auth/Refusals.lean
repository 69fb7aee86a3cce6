import SchedulingService.Auth.Soundness

/-!
# Who is turned away

The other half of the guard: a request that gets an `UnauthorizedException` has a
reason in the run's past, which is one of six, and one that is still being guarded
can go on by itself.

* `unauthorized_for_reason` — the reasons;
* `guard_finishes` — from every state of a run on, a call has its answer after three
  events of its own at most.
-/

namespace SchedulingService.Auth

open Js
open Jwks (Pem)

variable {E : Env} {s₀ s s' : Sys} {es : List Event} {e : Event} {r : RequestId}
  {request : Request} {token : String} {pem : Pem} {payload : JwtPayload}

@[simp] theorem Call.afterRead_request (call : Call) (payload : JwtPayload)
    (tokenRevoked deviceRevoked : Option Value) :
    (call.afterRead payload tokenRevoked deviceRevoked).request = call.request := by
  unfold Call.afterRead
  split
  · split
    · rfl
    · split <;> rfl
  · rfl

/-- Who has been authenticated stays so. -/
theorem Authenticated.append (h : Authenticated E s₀ es r request token pem payload)
    (fs : List Event) : Authenticated E s₀ (es ++ fs) r request token pem payload := by
  obtain ⟨v, hv, hunmarked⟩ := h.tokenUnmarked
  obtain ⟨w, hw, hunmarked'⟩ := h.deviceUnmarked
  exact ⟨h.lookedUp.append fs, h.verified.append fs, ⟨v, hv.append fs, hunmarked⟩,
    ⟨w, hw.append fs, hunmarked'⟩⟩

/-- The load that had completed last had no key for the token; an empty one counts as
none. -/
def KeyMissing (E : Env) (s : Sys) (token : String) : Prop :=
  ∀ ℓ keys, s.jwks.completed.head? = some (ℓ, keys) →
    ∀ pem, keys.storedFor (peekKid E token) = some pem → pem = ""

/-- Why a request is turned away. -/
inductive Refused (E : Env) (s₀ : Sys) (es : List Event) (r : RequestId) (request : Request) :
    Prop
  | noToken (hbearer : extractBearerToken request.authorization = none)
  | noKey {token : String} {s : Sys}
      (hbearer : extractBearerToken request.authorization = some token)
      (htaken : (machine E).Taken s₀ es (.canActivate r request) s) (hkey : KeyMissing E s token)
  | notVerified {token : String} {pem : Pem} {s : Sys}
      (hlooked : LookedUp E s₀ es r request token pem)
      (htaken : (machine E).Taken s₀ es (.verified r) s)
      (hverify :
        E.verifyAsync s.jwks.now token { publicKey := pem, algorithms := ["ES256"] } = none)
  | claimsMissing {token : String} {pem : Pem} {payload : JwtPayload} {s : Sys}
      (hlooked : LookedUp E s₀ es r request token pem)
      (htaken : (machine E).Taken s₀ es (.verified r) s)
      (hverify : E.verifyAsync s.jwks.now token { publicKey := pem, algorithms := ["ES256"] } =
        some payload)
      (hclaims : payload.sub.truthy = false ∨ payload.jti.truthy = false ∨
        payload.deviceId.truthy = false)
  | tokenRevoked {token : String} {pem : Pem} {payload : JwtPayload} {v : Value}
      (hverified : Verified E s₀ es r token pem payload)
      (hread : ReadAs E s₀ es (.readToken r) (revokedKey E payload.jti) v)
      (hmarked : v.isNullish = false)
  | deviceRevoked {token : String} {pem : Pem} {payload : JwtPayload} {v : Value}
      (hverified : Verified E s₀ es r token pem payload)
      (hread : ReadAs E s₀ es (.readDevice r) (revokedDeviceKey E payload.deviceId) v)
      (hmarked : v.isNullish = false)

theorem Refused.append (h : Refused E s₀ es r request) (fs : List Event) :
    Refused E s₀ (es ++ fs) r request := by
  cases h with
  | noToken hbearer => exact .noToken hbearer
  | noKey hbearer htaken hkey => exact .noKey hbearer (htaken.append fs) hkey
  | notVerified hlooked htaken hverify =>
    exact .notVerified (hlooked.append fs) (htaken.append fs) hverify
  | claimsMissing hlooked htaken hverify hclaims =>
    exact .claimsMissing (hlooked.append fs) (htaken.append fs) hverify hclaims
  | tokenRevoked hverified hread hmarked =>
    exact .tokenRevoked (hverified.append fs) (hread.append fs) hmarked
  | deviceRevoked hverified hread hmarked =>
    exact .deviceRevoked (hverified.append fs) (hread.append fs) hmarked

/-- A lookup that finds nothing, or an empty key. -/
theorem keyMissing_of_filter (hreachable : Machine.Reachable (machine E) Machine.always s)
    (hfilter : (s.jwks.getPublicKeyPem (peekKid E token)).filter (· ≠ "") = none) :
    KeyMissing E s token := by
  intro ℓ keys hhead pem hstored
  -- the keys that are installed are those of that load
  have hinstalled : s.jwks.getPublicKeyPem (peekKid E token) = some pem := by
    rcases Jwks.latestInstalled_of_reachable (jwks_reachable hreachable) with ⟨hnone, -, -⟩ |
      ⟨ℓ', keys', hhead', hmap, hprimary, -⟩
    · rw [hnone] at hhead
      cases hhead
    · obtain ⟨rfl, rfl⟩ := Prod.mk.inj (Option.some.inj (hhead'.symm.trans hhead))
      rw [← hstored]
      cases peekKid E token with
      | none => exact hprimary
      | some kid => exact congrArg (Jwks.KeyMap.get · kid) hmap
  rw [hinstalled, Option.filter_some] at hfilter
  by_contra hne
  simp [hne] at hfilter

/-- The guard is called, and answers at once. -/
theorem refused_canActivate (hexec : (machine E).exec s₀ es = some s)
    (hreachable : Machine.Reachable (machine E) Machine.always s)
    (hphase : (s.canActivate E request).2 = .unauthorized) :
    Refused E s₀ (es ++ [.canActivate r request]) r request := by
  unfold Sys.canActivate at hphase
  split at hphase
  · cases hphase
  · split at hphase
    · rename_i hbearer
      exact .noToken hbearer
    · rename_i token hbearer
      dsimp only at hphase
      split at hphase
      · cases hphase
      · rename_i hfilter
        exact .noKey hbearer (Machine.taken_last hexec _) (keyMissing_of_filter hreachable hfilter)

/-- `verifyAsync` is answered, and that is the end. -/
theorem refused_verified (hexec : (machine E).exec s₀ es = some s)
    (hlooked : LookedUp E s₀ es r request token pem)
    (hphase : afterVerify
      (E.verifyAsync s.jwks.now token { publicKey := pem, algorithms := ["ES256"] }) =
        .unauthorized) : Refused E s₀ (es ++ [.verified r]) r request := by
  have htaken := Machine.taken_last hexec (.verified r)
  cases hverify : E.verifyAsync s.jwks.now token { publicKey := pem, algorithms := ["ES256"] } with
  | none => exact .notVerified (hlooked.append _) htaken hverify
  | some payload =>
    refine .claimsMissing (hlooked.append _) htaken hverify ?_
    rw [hverify, afterVerify] at hphase
    split at hphase
    · rename_i hclaims
      simpa [or_assoc] using hclaims
    · split at hphase <;> cases hphase

/-- The second read is there, and one of the two found a mark. -/
theorem refused_afterRead {call : Call} {tokenRevoked deviceRevoked : Option Value}
    (hverified : Verified E s₀ es r token pem payload)
    (htoken : ∀ v ∈ tokenRevoked, ReadAs E s₀ es (.readToken r) (revokedKey E payload.jti) v)
    (hdevice : ∀ v ∈ deviceRevoked,
      ReadAs E s₀ es (.readDevice r) (revokedDeviceKey E payload.deviceId) v)
    (hphase : (call.afterRead payload tokenRevoked deviceRevoked).phase = .unauthorized) :
    Refused E s₀ es r request := by
  unfold Call.afterRead at hphase
  split at hphase
  · rename_i v w
    split at hphase
    · rename_i hmarked
      exact .tokenRevoked hverified (htoken v rfl) (by simpa using hmarked)
    · split at hphase
      · rename_i hmarked
        exact .deviceRevoked hverified (hdevice w rfl) (by simpa using hmarked)
      · cases hphase
  · cases hphase

/-- Whoever was turned away has a reason. -/
def Reasoned (E : Env) (s₀ : Sys) (es : List Event) (s : Sys) : Prop :=
  ∀ r call, s.calls r = some call → call.phase = .unauthorized →
    Refused E s₀ es r call.request

theorem reasoned_setCall (h : Reasoned E s₀ es s) {call : Call}
    (hcall : call.phase = .unauthorized → Refused E s₀ (es ++ [e]) r call.request) :
    Reasoned E s₀ (es ++ [e]) (s.setCall r call) := by
  intro r' call' hcall' hphase
  by_cases hr : r' = r
  · subst hr
    have hsame : some call = some call' := by
      rw [← hcall']
      exact (Function.update_self r' (some call) s.calls).symm
    obtain rfl := Option.some.inj hsame
    exact hcall hphase
  · have hother : s.calls r' = some call' := by
      rw [← hcall']
      exact (Function.update_of_ne hr (some call) s.calls).symm
    exact (h r' call' hother hphase).append [e]

/-- **Step lemma.** -/
theorem reasoned_step (hexec : (machine E).exec s₀ es = some s)
    (hreachable : Machine.Reachable (machine E) Machine.always s)
    (hexplained : Explained E s₀ es s) (h : Reasoned E s₀ es s) (hs : Step E s e s') :
    Reasoned E s₀ (es ++ [e]) s' := by
  cases hs with
  | jwks | cacheWrite => exact fun r call hcall hphase => (h r call hcall hphase).append _
  | canActivate request hnew =>
    exact reasoned_setCall h fun hphase => refused_canActivate hexec hreachable hphase
  | @verified r call token pem hcall hphase =>
    refine reasoned_setCall h fun hafter => ?_
    have hhistory := hexplained r call hcall
    cases hhistory with
    | verifying hlooked =>
      obtain ⟨rfl, rfl⟩ := Phase.verifying.inj hphase
      exact refused_verified hexec hlooked hafter
    | isPublic | reading | resolved | unauthorized | cacheError | typeError => cases hphase
  | @readToken r call payload deviceRevoked hcall hphase =>
    refine reasoned_setCall h fun hafter => ?_
    obtain ⟨token, pem, -, hverified, -, -, hdevice⟩ := (hexplained r call hcall).of_reading hphase
    have hread : ReadAs E s₀ (es ++ [.readToken r]) (.readToken r) (revokedKey E payload.jti)
        (s.cache (revokedKey E payload.jti)) := ⟨s, Machine.taken_last hexec _, rfl⟩
    rw [Call.afterRead_request]
    refine refused_afterRead (hverified.append _) (fun v hv => ?_)
      (fun w hw => (hdevice w hw).append _) hafter
    obtain rfl := Option.some.inj hv
    exact hread
  | @readDevice r call payload tokenRevoked hcall hphase =>
    refine reasoned_setCall h fun hafter => ?_
    obtain ⟨token, pem, -, hverified, -, htoken, -⟩ := (hexplained r call hcall).of_reading hphase
    have hread : ReadAs E s₀ (es ++ [.readDevice r]) (.readDevice r)
        (revokedDeviceKey E payload.deviceId) (s.cache (revokedDeviceKey E payload.deviceId)) :=
      ⟨s, Machine.taken_last hexec _, rfl⟩
    rw [Call.afterRead_request]
    refine refused_afterRead (hverified.append _) (fun v hv => (htoken v hv).append _)
      (fun w hw => ?_) hafter
    obtain rfl := Option.some.inj hw
    exact hread
  | readError error hcall hphase => exact reasoned_setCall h fun hafter => by cases hafter

/-- **Nobody is turned away without a reason.** However calls, loads and cache writes
interleave: where the guard threw an `UnauthorizedException`, the request had no bearer
token, the load that had completed last no key for it, the token did not verify or
lacked a claim, or a mark was found on it or its device. -/
theorem unauthorized_for_reason (hinit : (machine E).Init s₀)
    (hrun : (machine E).exec s₀ es = some s) {call : Call} (hcall : s.calls r = some call)
    (hphase : call.phase = .unauthorized) : Refused E s₀ es r call.request := by
  have hstart : Reasoned E s₀ [] s₀ := by
    intro r call hcall
    rw [hinit.2] at hcall
    cases hcall
  have hreasoned : Reasoned E s₀ es s := by
    refine Machine.exec_history (fun es s₁ e s₂ hexec₁ h₁ hstep => ?_) hrun hstart
    exact reasoned_step hexec₁ (reachable_of_exec hinit hexec₁) (explained_of_exec hinit hexec₁)
      h₁ (step_spec hstep)
  exact hreasoned r call hcall hphase

/-- A token that verifies and was revoked. -/
theorem unauthorized_for_reason_revoked : ∃ s call,
    (machine oneToken).exec emptyStart
        (.cacheWrite "revoked:token-jti-1" (.bool true) :: guardedRequest) = some s ∧
      s.calls 0 = some call ∧ call.phase = .unauthorized ∧
        Refused oneToken emptyStart
          (.cacheWrite "revoked:token-jti-1" (.bool true) :: guardedRequest) 0 call.request := by
  obtain ⟨s, call, hrun, hcall, hphase⟩ : ∃ s call, (machine oneToken).exec emptyStart
        (.cacheWrite "revoked:token-jti-1" (.bool true) :: guardedRequest) = some s ∧
      s.calls 0 = some call ∧ call.phase = .unauthorized := ⟨_, _, rfl, rfl, rfl⟩
  exact ⟨s, call, hrun, hcall, hphase,
    unauthorized_for_reason ⟨⟨0, rfl⟩, rfl⟩ hrun hcall hphase⟩

/-! ## Going on -/

/-- A call that reads waits for one of the two reads. -/
def Awaiting (s : Sys) : Prop :=
  ∀ r call payload tokenRevoked deviceRevoked, s.calls r = some call →
    call.phase = .reading payload tokenRevoked deviceRevoked →
    tokenRevoked = none ∨ deviceRevoked = none

theorem awaiting_setCall (h : Awaiting s) {call : Call}
    (hcall : ∀ payload tokenRevoked deviceRevoked,
      call.phase = .reading payload tokenRevoked deviceRevoked →
        tokenRevoked = none ∨ deviceRevoked = none) : Awaiting (s.setCall r call) := by
  intro r' call' payload tokenRevoked deviceRevoked hcall' hphase
  by_cases hr : r' = r
  · subst hr
    have hsame : some call = some call' := by
      rw [← hcall']
      exact (Function.update_self r' (some call) s.calls).symm
    obtain rfl := Option.some.inj hsame
    exact hcall payload tokenRevoked deviceRevoked hphase
  · have hother : s.calls r' = some call' := by
      rw [← hcall']
      exact (Function.update_of_ne hr (some call) s.calls).symm
    exact h r' call' payload tokenRevoked deviceRevoked hother hphase

/-- When both are there the call is over. -/
theorem awaiting_afterRead (call : Call) (payload : JwtPayload)
    (tokenRevoked deviceRevoked : Option Value) :
    ∀ payload' v w, (call.afterRead payload tokenRevoked deviceRevoked).phase =
      .reading payload' v w → v = none ∨ w = none := by
  intro payload' v w hphase
  unfold Call.afterRead at hphase
  split at hphase
  · split at hphase
    · cases hphase
    · split at hphase <;> cases hphase
  · rename_i hboth
    obtain ⟨-, rfl, rfl⟩ := Phase.reading.inj hphase
    cases tokenRevoked with
    | none => exact .inl rfl
    | some v =>
      cases deviceRevoked with
      | none => exact .inr rfl
      | some w => exact (hboth v w rfl rfl).elim

theorem awaiting_step (h : Awaiting s) (hs : Step E s e s') : Awaiting s' := by
  cases hs with
  | jwks | cacheWrite => exact h
  | @canActivate r request hnew =>
    refine awaiting_setCall h fun payload v w hphase => ?_
    dsimp only [Sys.canActivate] at hphase
    split at hphase
    · cases hphase
    · split at hphase
      · cases hphase
      · split at hphase
        · cases hphase
        · split at hphase <;> cases hphase
  | verified hcall hphase =>
    refine awaiting_setCall h fun payload v w hafter => ?_
    dsimp only at hafter
    unfold afterVerify at hafter
    split at hafter
    · cases hafter
    · split at hafter
      · cases hafter
      · split at hafter
        · cases hafter
        · obtain ⟨-, rfl, -⟩ := Phase.reading.inj hafter
          exact .inl rfl
  | readToken hcall hphase => exact awaiting_setCall h (awaiting_afterRead _ _ _ _)
  | readDevice hcall hphase => exact awaiting_setCall h (awaiting_afterRead _ _ _ _)
  | readError error hcall hphase => exact awaiting_setCall h fun _ _ _ hafter => by cases hafter

theorem awaiting_of_reachable (h : Machine.Reachable (machine E) Machine.always s) :
    Awaiting s := by
  refine h.invariant (I := Awaiting) (fun s₁ hinit => ?_)
    fun _ _ _ h₁ _ hstep => awaiting_step h₁ (step_spec hstep)
  intro r call payload v w hcall
  rw [hinit.2] at hcall
  cases hcall

/-- How many answers a call awaits at most. -/
def Phase.awaits : Phase → Nat
  | .verifying _ _ => 3
  | .reading _ none none => 2
  | .reading _ _ _ => 1
  | _ => 0

/-- The event answers something to this call. -/
def Event.answers (r : RequestId) : Event → Bool
  | .verified r' => r' = r
  | .readToken r' => r' = r
  | .readDevice r' => r' = r
  | .readError r' _ => r' = r
  | _ => false

/-- The call is over. -/
def Phase.isOver (phase : Phase) : Bool := !phase.isPending

/-- Answers of the libraries and the cache bring the call to its end. -/
def Finishes (E : Env) (s : Sys) (r : RequestId) (n : Nat) : Prop :=
  ∃ fs s' call, fs.length ≤ n ∧ (∀ f ∈ fs, f.answers r = true) ∧
    (machine E).exec s fs = some s' ∧ s'.calls r = some call ∧ call.phase.isOver = true

theorem Finishes.cons {n : Nat} (hown : e.answers r = true)
    (hstep : (machine E).step s e = some s') (h : Finishes E s' r n) :
    Finishes E s r (n + 1) := by
  obtain ⟨fs, s'', call, hlength, hfs, hexec, hcall, hphase⟩ := h
  refine ⟨e :: fs, s'', call, ?_, ?_, ?_, hcall, hphase⟩
  · rw [List.length_cons]
    omega
  · intro f hf
    rcases List.mem_cons.mp hf with rfl | hf
    · exact hown
    · exact hfs f hf
  · rw [Machine.exec_cons hstep]
    exact hexec

theorem finishes_over {call : Call} (hcall : s.calls r = some call)
    (hphase : call.phase.isOver = true) (n : Nat) : Finishes E s r n := by
  refine ⟨[], s, call, Nat.zero_le n, ?_, rfl, hcall, hphase⟩
  intro f hf
  cases hf

theorem afterRead_over (call : Call) (payload : JwtPayload) (v w : Value) :
    (call.afterRead payload (some v) (some w)).phase.isOver = true := by
  simp only [Call.afterRead]
  split
  · rfl
  · split <;> rfl

/-- The read of the device is missing. -/
theorem finishes_of_token {call : Call} {v : Value} (hcall : s.calls r = some call)
    (hphase : call.phase = .reading payload (some v) none) : Finishes E s r 1 := by
  have hstep : (machine E).step s (.readDevice r) = some (s.setCall r
      (call.afterRead payload (some v)
        (some (s.cache (revokedDeviceKey E payload.deviceId))))) := by
    show step E s (.readDevice r) = _
    simp only [step, hcall, hphase]
  have hown : (Event.readDevice r).answers r = true := decide_eq_true rfl
  exact .cons hown hstep
    (finishes_over (Function.update_self r _ s.calls) (afterRead_over call payload _ _) 0)

/-- The read of the token is missing. -/
theorem finishes_of_device {call : Call} {w : Value} (hcall : s.calls r = some call)
    (hphase : call.phase = .reading payload none (some w)) : Finishes E s r 1 := by
  have hstep : (machine E).step s (.readToken r) = some (s.setCall r
      (call.afterRead payload (some (s.cache (revokedKey E payload.jti))) (some w))) := by
    show step E s (.readToken r) = _
    simp only [step, hcall, hphase]
  have hown : (Event.readToken r).answers r = true := decide_eq_true rfl
  exact .cons hown hstep
    (finishes_over (Function.update_self r _ s.calls) (afterRead_over call payload _ _) 0)

/-- Both are. -/
theorem finishes_of_reading {call : Call} (hcall : s.calls r = some call)
    (hphase : call.phase = .reading payload none none) : Finishes E s r 2 := by
  have hstep : (machine E).step s (.readToken r) = some (s.setCall r
      (call.afterRead payload (some (s.cache (revokedKey E payload.jti))) none)) := by
    show step E s (.readToken r) = _
    simp only [step, hcall, hphase]
  have hown : (Event.readToken r).answers r = true := decide_eq_true rfl
  exact .cons hown hstep
    (finishes_of_token (Function.update_self r _ s.calls) (by rfl))

/-- What `verifyAsync` answers ends the call, or has it read. -/
theorem afterVerify_over (answer : Option JwtPayload) :
    (afterVerify answer).isOver = true ∨
      ∃ payload, afterVerify answer = .reading payload none none := by
  cases answer with
  | none => exact .inl rfl
  | some payload =>
    rw [afterVerify]
    split
    · exact .inl rfl
    · split
      · exact .inl rfl
      · exact .inr ⟨payload, rfl⟩

/-- What a call awaits can come, whatever else stands still. -/
theorem finishes_of_awaiting {call : Call} (hawaiting : Awaiting s)
    (hcall : s.calls r = some call) : Finishes E s r call.phase.awaits := by
  cases hphase : call.phase with
  | verifying token publicKey =>
    have hstep : (machine E).step s (.verified r) = some (s.setCall r { call with
        phase := afterVerify
          (E.verifyAsync s.jwks.now token { publicKey, algorithms := ["ES256"] }) }) := by
      show step E s (.verified r) = _
      simp only [step, hcall, hphase]
    have hown : (Event.verified r).answers r = true := decide_eq_true rfl
    refine .cons hown hstep ?_
    rcases afterVerify_over
      (E.verifyAsync s.jwks.now token { publicKey, algorithms := ["ES256"] }) with
      hover | ⟨payload, hreading⟩
    · exact finishes_over (Function.update_self r _ s.calls) hover 2
    · exact finishes_of_reading (Function.update_self r _ s.calls) hreading
  | reading payload tokenRevoked deviceRevoked =>
    rcases hawaiting r call payload tokenRevoked deviceRevoked hcall hphase with rfl | rfl
    · cases deviceRevoked with
      | none => exact finishes_of_reading hcall hphase
      | some w => exact finishes_of_device hcall hphase
    · cases tokenRevoked with
      | none => exact finishes_of_reading hcall hphase
      | some v => exact finishes_of_token hcall hphase
  | resolved | unauthorized | cacheError | typeError =>
    exact finishes_over hcall (by rw [hphase]; rfl) _

/-! ## How long it takes -/

theorem awaits_afterVerify (answer : Option JwtPayload) : (afterVerify answer).awaits ≤ 2 := by
  rcases afterVerify_over answer with hover | ⟨payload, hreading⟩
  · cases hafter : afterVerify answer with
    | verifying | reading =>
      rw [hafter] at hover
      cases hover
    | _ => exact Nat.zero_le 2
  · rw [hreading]
    exact Nat.le_refl 2

theorem awaits_afterRead_token (call : Call) (payload : JwtPayload) (v : Value)
    (deviceRevoked : Option Value) :
    (call.afterRead payload (some v) deviceRevoked).phase.awaits + 1 ≤
      (Phase.reading payload none deviceRevoked).awaits := by
  cases deviceRevoked with
  | none => exact Nat.le_refl 2
  | some w =>
    simp only [Call.afterRead]
    split
    · exact Nat.le_refl 1
    · split <;> exact Nat.le_refl 1

theorem awaits_afterRead_device (call : Call) (payload : JwtPayload) (w : Value)
    (tokenRevoked : Option Value) :
    (call.afterRead payload tokenRevoked (some w)).phase.awaits + 1 ≤
      (Phase.reading payload tokenRevoked none).awaits := by
  cases tokenRevoked with
  | none => exact Nat.le_refl 2
  | some v =>
    simp only [Call.afterRead]
    split
    · exact Nat.le_refl 1
    · split <;> exact Nat.le_refl 1

theorem awaits_reading (payload : JwtPayload) (tokenRevoked deviceRevoked : Option Value) :
    0 + 1 ≤ (Phase.reading payload tokenRevoked deviceRevoked).awaits := by
  cases tokenRevoked with
  | none =>
    cases deviceRevoked with
    | none => exact Nat.le_succ 1
    | some w => exact Nat.le_refl 1
  | some v => exact Nat.le_refl 1

/-- What a call awaits goes down by one with each answer to it, and stays with all
else. -/
theorem awaits_step {call : Call} (hcall : s.calls r = some call) (hs : Step E s e s') :
    ∃ call', s'.calls r = some call' ∧
      (if e.answers r then 1 else 0) + call'.phase.awaits ≤ call.phase.awaits := by
  have hother : ∀ r' (next : Call), r' ≠ r → (s.setCall r' next).calls r = some call := by
    intro r' next hne
    rw [← hcall]
    exact Function.update_of_ne hne.symm (some next) s.calls
  -- an answer to another call leaves this one alone
  have hset : ∀ r' (next : Call), (∀ call', s.calls r' = some call' →
      next.phase.awaits + 1 ≤ call'.phase.awaits) →
      ∃ call', (s.setCall r' next).calls r = some call' ∧
        (if decide (r' = r) then 1 else 0) + call'.phase.awaits ≤ call.phase.awaits := by
    intro r' next hnext
    by_cases hr : r' = r
    · subst hr
      have hthis : (s.setCall r' next).calls r' = some next := by
        show Function.update s.calls r' (some next) r' = some next
        rw [Function.update_self]
      refine ⟨next, hthis, ?_⟩
      have hle := hnext call hcall
      rw [if_pos (decide_eq_true rfl)]
      omega
    · refine ⟨call, hother r' next hr, ?_⟩
      rw [if_neg (by simpa using hr)]
      omega
  cases hs with
  | jwks | cacheWrite => exact ⟨call, hcall, (Nat.zero_add _).le⟩
  | @canActivate r' request hnew =>
    -- a request is guarded once
    have hne : r' ≠ r := by
      rintro rfl
      rw [hnew] at hcall
      cases hcall
    exact ⟨call, hother r' _ hne, (Nat.zero_add _).le⟩
  | verified hcall' hphase =>
    refine hset _ _ fun call₁ h₁ => ?_
    obtain rfl := Option.some.inj (hcall'.symm.trans h₁)
    rw [hphase]
    exact Nat.succ_le_succ (awaits_afterVerify _)
  | readToken hcall' hphase =>
    refine hset _ _ fun call₁ h₁ => ?_
    obtain rfl := Option.some.inj (hcall'.symm.trans h₁)
    rw [hphase]
    exact awaits_afterRead_token _ _ _ _
  | readDevice hcall' hphase =>
    refine hset _ _ fun call₁ h₁ => ?_
    obtain rfl := Option.some.inj (hcall'.symm.trans h₁)
    rw [hphase]
    exact awaits_afterRead_device _ _ _ _
  | readError error hcall' hphase =>
    refine hset _ _ fun call₁ h₁ => ?_
    obtain rfl := Option.some.inj (hcall'.symm.trans h₁)
    rw [hphase]
    exact awaits_reading _ _ _

/-- **A guarded request gets its answer.** From every state of a run on, whatever else
happens: a call of the guard that was there is there, it has been given no more answers
than it was awaiting, and as many as it awaits now bring it to its end at most. -/
theorem guard_finishes (hinit : (machine E).Init s₀) (hrun : (machine E).exec s₀ es = some s)
    {call : Call} (hcall : s.calls r = some call) {fs : List Event}
    (hmore : (machine E).exec s fs = some s') :
    ∃ call', s'.calls r = some call' ∧
      fs.countP (Event.answers r) + call'.phase.awaits ≤ call.phase.awaits ∧
        Finishes E s' r call'.phase.awaits := by
  have hlater : ∃ call', s'.calls r = some call' ∧
      fs.countP (Event.answers r) + call'.phase.awaits ≤ call.phase.awaits := by
    refine Machine.exec_history (I := fun fs s' => ∃ call', s'.calls r = some call' ∧
      fs.countP (Event.answers r) + call'.phase.awaits ≤ call.phase.awaits)
      (fun fs s₁ e s₂ _ h₁ hstep => ?_) hmore ⟨call, hcall, (Nat.zero_add _).le⟩
    obtain ⟨call₁, hcall₁, hle₁⟩ := h₁
    obtain ⟨call₂, hcall₂, hle₂⟩ := awaits_step hcall₁ (step_spec hstep)
    refine ⟨call₂, hcall₂, ?_⟩
    rw [List.countP_append, List.countP_singleton]
    omega
  obtain ⟨call', hcall', hle⟩ := hlater
  have hexec : (machine E).exec s₀ (es ++ fs) = some s' := by
    rw [Machine.exec_append, hrun]
    exact hmore
  have hawaiting := awaiting_of_reachable (reachable_of_exec hinit hexec)
  exact ⟨call', hcall', hle, finishes_of_awaiting hawaiting hcall'⟩

/-- A request that has been looked up; its token is revoked before it goes on. -/
theorem guard_finishes_verifying : ∃ s s',
    (machine oneToken).exec emptyStart (guardedRequest.take 4) = some s ∧
      (machine oneToken).exec s [.cacheWrite "revoked:token-jti-1" (.bool true), .verified 0,
        .readDevice 0] = some s' ∧
      ∃ call', s'.calls 0 = some call' ∧ 2 + call'.phase.awaits ≤ 3 ∧
        Finishes oneToken s' 0 call'.phase.awaits := by
  obtain ⟨s, call, s', hrun, hcall, hawaits, hmore⟩ : ∃ s call s',
      (machine oneToken).exec emptyStart (guardedRequest.take 4) = some s ∧
        s.calls 0 = some call ∧ call.phase.awaits = 3 ∧
        (machine oneToken).exec s [.cacheWrite "revoked:token-jti-1" (.bool true), .verified 0,
          .readDevice 0] = some s' := ⟨_, _, _, rfl, rfl, rfl, rfl⟩
  obtain ⟨call', hcall', hle, hfinishes⟩ := guard_finishes ⟨⟨0, rfl⟩, rfl⟩ hrun hcall hmore
  rw [hawaits] at hle
  exact ⟨s, s', hrun, hmore, call', hcall', hle, hfinishes⟩

end SchedulingService.Auth
