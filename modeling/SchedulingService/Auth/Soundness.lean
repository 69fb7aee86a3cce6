import SchedulingService.Auth.Guard
import SchedulingService.Jwks.Newest

/-!
# Who is let through

A request that is let through has a history: the key was looked up, the token was
verified under it, and the two marks were read, each in a state of its own, since
loads and cache writes go on in between. `History` says of every call what must
have happened for it to stand where it stands.

Main result: `canActivate_sound` — a protected request that is let through carries
a token that verified under a key of the load that had completed last, and every
other one is turned down without a user.
-/

namespace SchedulingService.Auth

open Js
open Jwks (Pem hasText)

variable {E : Env} {s₀ s s' : Sys} {es : List Event} {e : Event} {r : RequestId}
  {request : Request} {token : String} {pem : Pem} {payload : JwtPayload} {key : String}
  {value : Value}

/-! ## What has happened -/

/-- The token of the request, and the key for its kid in the load that had completed
last when the guard was called. -/
structure LookedUp (E : Env) (s₀ : Sys) (es : List Event) (r : RequestId) (request : Request)
    (token : String) (pem : Pem) : Prop where
  bearer : extractBearerToken request.authorization = some token
  key : ∃ s ℓ keys, (machine E).Taken s₀ es (.canActivate r request) s ∧
    s.jwks.completed.head? = some (ℓ, keys) ∧ keys.storedFor (peekKid E token) = some pem

/-- The token verified, and the claims the guard asks for are there. -/
structure Verified (E : Env) (s₀ : Sys) (es : List Event) (r : RequestId) (token : String)
    (pem : Pem) (payload : JwtPayload) : Prop where
  verified : ∃ s, (machine E).Taken s₀ es (.verified r) s ∧
    E.verifyAsync s.jwks.now token { publicKey := pem, algorithms := ["ES256"] } = some payload
  sub : payload.sub.truthy = true
  jti : payload.jti.truthy = true
  deviceId : payload.deviceId.truthy = true

/-- `e` read `value` under `key`. -/
def ReadAs (E : Env) (s₀ : Sys) (es : List Event) (e : Event) (key : String) (value : Value) :
    Prop :=
  ∃ s, (machine E).Taken s₀ es e s ∧ s.cache key = value

/-- What has to have happened for a request to be let through. -/
structure Authenticated (E : Env) (s₀ : Sys) (es : List Event) (r : RequestId)
    (request : Request) (token : String) (pem : Pem) (payload : JwtPayload) : Prop where
  lookedUp : LookedUp E s₀ es r request token pem
  verified : Verified E s₀ es r token pem payload
  tokenUnmarked : ∃ v, ReadAs E s₀ es (.readToken r) (revokedKey E payload.jti) v ∧
    v.isNullish = true
  deviceUnmarked : ∃ v, ReadAs E s₀ es (.readDevice r) (revokedDeviceKey E payload.deviceId) v ∧
    v.isNullish = true

/-- `request.user`, from the payload. -/
def userOf (payload : JwtPayload) : User where
  userId := payload.sub
  jti := payload.jti
  deviceId := payload.deviceId
  fingerprint := payload.fingerprint

/-- What has happened to a call that stands where it stands. -/
inductive History (E : Env) (s₀ : Sys) (es : List Event) (r : RequestId) : Call → Prop
  | isPublic {request : Request} (hpublic : request.isPublic = true) :
      History E s₀ es r ⟨request, .resolved, none⟩
  | verifying {request : Request} {token : String} {pem : Pem}
      (hlooked : LookedUp E s₀ es r request token pem) :
      History E s₀ es r ⟨request, .verifying token pem, none⟩
  | reading {request : Request} {token : String} {pem : Pem} {payload : JwtPayload}
      {tokenRevoked deviceRevoked : Option Value}
      (hlooked : LookedUp E s₀ es r request token pem)
      (hverified : Verified E s₀ es r token pem payload)
      (htoken : ∀ v ∈ tokenRevoked,
        ReadAs E s₀ es (.readToken r) (revokedKey E payload.jti) v)
      (hdevice : ∀ v ∈ deviceRevoked,
        ReadAs E s₀ es (.readDevice r) (revokedDeviceKey E payload.deviceId) v) :
      History E s₀ es r ⟨request, .reading payload tokenRevoked deviceRevoked, none⟩
  | resolved {request : Request} {token : String} {pem : Pem} {payload : JwtPayload}
      (hauthenticated : Authenticated E s₀ es r request token pem payload) :
      History E s₀ es r ⟨request, .resolved, some (userOf payload)⟩
  | unauthorized {request : Request} : History E s₀ es r ⟨request, .unauthorized, none⟩
  | cacheError {request : Request} {error : Value} {s : Sys}
      (hread : (machine E).Taken s₀ es (.readError r error) s) :
      History E s₀ es r ⟨request, .cacheError error, none⟩
  | typeError {request : Request} {token : String} {pem : Pem} {payload : JwtPayload}
      (hlooked : LookedUp E s₀ es r request token pem)
      (hverified : Verified E s₀ es r token pem payload)
      (htext : (hasText payload.jti && hasText payload.deviceId) = false) :
      History E s₀ es r ⟨request, .typeError, none⟩

/-! ## What has happened stays so -/

theorem LookedUp.append (h : LookedUp E s₀ es r request token pem) (fs : List Event) :
    LookedUp E s₀ (es ++ fs) r request token pem := by
  obtain ⟨s, ℓ, keys, htaken, hlatest, hpem⟩ := h.key
  exact ⟨h.bearer, s, ℓ, keys, htaken.append fs, hlatest, hpem⟩

theorem Verified.append (h : Verified E s₀ es r token pem payload) (fs : List Event) :
    Verified E s₀ (es ++ fs) r token pem payload := by
  obtain ⟨s, htaken, hpayload⟩ := h.verified
  exact ⟨⟨s, htaken.append fs, hpayload⟩, h.sub, h.jti, h.deviceId⟩

theorem ReadAs.append (h : ReadAs E s₀ es e key value) (fs : List Event) :
    ReadAs E s₀ (es ++ fs) e key value := by
  obtain ⟨s, htaken, hvalue⟩ := h
  exact ⟨s, htaken.append fs, hvalue⟩

theorem History.append {call : Call} (h : History E s₀ es r call) (fs : List Event) :
    History E s₀ (es ++ fs) r call := by
  cases h with
  | isPublic hpublic => exact .isPublic hpublic
  | verifying hlooked => exact .verifying (hlooked.append fs)
  | reading hlooked hverified htoken hdevice =>
    exact .reading (hlooked.append fs) (hverified.append fs)
      (fun v hv => (htoken v hv).append fs) (fun v hv => (hdevice v hv).append fs)
  | resolved h =>
    obtain ⟨v, hv, hunmarked⟩ := h.tokenUnmarked
    obtain ⟨w, hw, hunmarked'⟩ := h.deviceUnmarked
    exact .resolved ⟨h.lookedUp.append fs, h.verified.append fs, ⟨v, hv.append fs, hunmarked⟩,
      ⟨w, hw.append fs, hunmarked'⟩⟩
  | unauthorized => exact .unauthorized
  | cacheError hread => exact .cacheError (hread.append fs)
  | typeError hlooked hverified htext =>
    exact .typeError (hlooked.append fs) (hverified.append fs) htext

/-! ## One step -/

/-- The guard is called. -/
theorem history_canActivate (hexec : (machine E).exec s₀ es = some s)
    (hreachable : Machine.Reachable (machine E) Machine.always s) :
    History E s₀ (es ++ [.canActivate r request]) r
      { request, phase := (s.canActivate E request).2, user := none } := by
  unfold Sys.canActivate
  split
  · rename_i hpublic
    exact .isPublic hpublic
  · split
    · exact .unauthorized
    · rename_i token hbearer
      dsimp only
      split
      · rename_i pem hfilter
        -- the key that was found was stored by the load that completed last
        have hpem : s.jwks.getPublicKeyPem (peekKid E token) = some pem :=
          (Option.filter_eq_some_iff.mp hfilter).1
        obtain ⟨ℓ, keys, hlatest, hstored⟩ :=
          Jwks.getPublicKeyPem_latest (jwks_reachable hreachable) hpem
        have htaken := Machine.taken_last hexec (.canActivate r request)
        exact .verifying ⟨hbearer, s, ℓ, keys, htaken, hlatest, hstored⟩
      · split <;> exact .unauthorized

/-- `verifyAsync` is answered. -/
theorem history_verified (hexec : (machine E).exec s₀ es = some s)
    (hlooked : LookedUp E s₀ es r request token pem) :
    History E s₀ (es ++ [.verified r]) r
      { request
        phase := afterVerify
          (E.verifyAsync s.jwks.now token { publicKey := pem, algorithms := ["ES256"] })
        user := none } := by
  have htaken := Machine.taken_last hexec (.verified r)
  cases hverify : E.verifyAsync s.jwks.now token { publicKey := pem, algorithms := ["ES256"] } with
  | none => exact .unauthorized
  | some payload =>
    rw [afterVerify]
    split
    · exact .unauthorized
    · rename_i hclaims
      simp only [Bool.or_eq_true, Bool.not_eq_true', not_or, Bool.not_eq_false] at hclaims
      obtain ⟨⟨hsub, hjti⟩, hdeviceId⟩ := hclaims
      have hverified : Verified E s₀ (es ++ [.verified r]) r token pem payload :=
        ⟨⟨s, htaken, hverify⟩, hsub, hjti, hdeviceId⟩
      split
      · rename_i htext
        refine .typeError (hlooked.append _) hverified ?_
        rwa [← Bool.not_and, Bool.not_eq_true'] at htext
      · exact .reading (hlooked.append _) hverified (by simp) (by simp)

/-- What has been read decides, as soon as both reads are there. -/
theorem history_afterRead {tokenRevoked deviceRevoked : Option Value}
    (hlooked : LookedUp E s₀ es r request token pem)
    (hverified : Verified E s₀ es r token pem payload)
    (htoken : ∀ v ∈ tokenRevoked, ReadAs E s₀ es (.readToken r) (revokedKey E payload.jti) v)
    (hdevice : ∀ v ∈ deviceRevoked,
      ReadAs E s₀ es (.readDevice r) (revokedDeviceKey E payload.deviceId) v)
    {phase : Phase} :
    History E s₀ es r
      (Call.afterRead ⟨request, phase, none⟩ payload tokenRevoked deviceRevoked) := by
  unfold Call.afterRead
  split
  · rename_i v w
    split
    · exact .unauthorized
    · rename_i hunmarked
      split
      · exact .unauthorized
      · rename_i hunmarked'
        have hv : v.isNullish = true := by simpa using hunmarked
        have hw : w.isNullish = true := by simpa using hunmarked'
        exact .resolved ⟨hlooked, hverified, ⟨v, htoken v rfl, hv⟩, ⟨w, hdevice w rfl, hw⟩⟩
  · exact .reading hlooked hverified htoken hdevice

/-- A call that is reading has been looked up and verified. -/
theorem History.of_reading {call : Call} {tokenRevoked deviceRevoked : Option Value}
    (h : History E s₀ es r call)
    (hphase : call.phase = .reading payload tokenRevoked deviceRevoked) :
    ∃ token pem, LookedUp E s₀ es r call.request token pem ∧
      Verified E s₀ es r token pem payload ∧ call.user = none ∧
      (∀ v ∈ tokenRevoked, ReadAs E s₀ es (.readToken r) (revokedKey E payload.jti) v) ∧
      ∀ v ∈ deviceRevoked,
        ReadAs E s₀ es (.readDevice r) (revokedDeviceKey E payload.deviceId) v := by
  cases h with
  | reading hlooked hverified htoken hdevice =>
    obtain ⟨rfl, rfl, rfl⟩ := Phase.reading.inj hphase
    exact ⟨_, _, hlooked, hverified, rfl, htoken, hdevice⟩
  | isPublic | verifying | resolved | unauthorized | cacheError | typeError => cases hphase

/-- Every call has its history. -/
def Explained (E : Env) (s₀ : Sys) (es : List Event) (s : Sys) : Prop :=
  ∀ r call, s.calls r = some call → History E s₀ es r call

theorem explained_setCall (h : Explained E s₀ es s) {call : Call}
    (hcall : History E s₀ (es ++ [e]) r call) :
    Explained E s₀ (es ++ [e]) (s.setCall r call) := by
  intro r' call' hcall'
  by_cases hr : r' = r
  · subst hr
    have hsame : some call = some call' := by
      rw [← hcall']
      exact (Function.update_self r' (some call) s.calls).symm
    exact Option.some.inj hsame ▸ hcall
  · -- the other calls stand where they stood
    have hother : s.calls r' = some call' := by
      rw [← hcall']
      exact (Function.update_of_ne hr (some call) s.calls).symm
    exact (h r' call' hother).append [e]

/-- **One step.** -/
theorem explained_step (hexec : (machine E).exec s₀ es = some s)
    (hreachable : Machine.Reachable (machine E) Machine.always s) (h : Explained E s₀ es s)
    (hs : Step E s e s') : Explained E s₀ (es ++ [e]) s' := by
  cases hs with
  -- no call moves
  | jwks | cacheWrite => exact fun r call hcall => (h r call hcall).append _
  | canActivate request hnew =>
    exact explained_setCall h (history_canActivate hexec hreachable)
  | @verified r call token pem hcall hphase =>
    refine explained_setCall h ?_
    have hhistory := h r call hcall
    cases hhistory with
    | verifying hlooked =>
      obtain ⟨rfl, rfl⟩ := Phase.verifying.inj hphase
      exact history_verified hexec hlooked
    | isPublic | reading | resolved | unauthorized | cacheError | typeError => cases hphase
  | @readToken r call payload deviceRevoked hcall hphase =>
    refine explained_setCall h ?_
    obtain ⟨token, pem, hlooked, hverified, huser, -, hdevice⟩ :=
      (h r call hcall).of_reading hphase
    -- the mark is read in the state before this step
    have hread : ReadAs E s₀ (es ++ [.readToken r]) (.readToken r) (revokedKey E payload.jti)
        (s.cache (revokedKey E payload.jti)) := ⟨s, Machine.taken_last hexec _, rfl⟩
    obtain ⟨request, phase, user⟩ := call
    obtain rfl := huser
    refine history_afterRead (hlooked.append _) (hverified.append _) (fun v hv => ?_)
      fun w hw => (hdevice w hw).append _
    obtain rfl := Option.some.inj hv
    exact hread
  | @readDevice r call payload tokenRevoked hcall hphase =>
    refine explained_setCall h ?_
    obtain ⟨token, pem, hlooked, hverified, huser, htoken, -⟩ :=
      (h r call hcall).of_reading hphase
    have hread : ReadAs E s₀ (es ++ [.readDevice r]) (.readDevice r)
        (revokedDeviceKey E payload.deviceId) (s.cache (revokedDeviceKey E payload.deviceId)) :=
      ⟨s, Machine.taken_last hexec _, rfl⟩
    obtain ⟨request, phase, user⟩ := call
    obtain rfl := huser
    refine history_afterRead (hlooked.append _) (hverified.append _)
      (fun v hv => (htoken v hv).append _) fun w hw => ?_
    obtain rfl := Option.some.inj hw
    exact hread
  | @readError r call payload tokenRevoked deviceRevoked error hcall hphase =>
    -- nobody has set the user before
    refine explained_setCall h ?_
    obtain ⟨token, pem, -, -, huser, -, -⟩ := (h r call hcall).of_reading hphase
    obtain ⟨request, phase, user⟩ := call
    obtain rfl := huser
    exact .cacheError (Machine.taken_last hexec (.readError r error))

/-! ## Runs -/

/-- Every state of a run from a start is reachable. -/
theorem reachable_of_exec (hinit : (machine E).Init s₀) (hexec : (machine E).exec s₀ es = some s) :
    Machine.Reachable (machine E) Machine.always s :=
  ⟨s₀, hinit, .of_exec (fun _ _ _ => trivial) hexec⟩

theorem explained_of_exec (hinit : (machine E).Init s₀)
    (hexec : (machine E).exec s₀ es = some s) : Explained E s₀ es s := by
  have hstart : Explained E s₀ [] s₀ := by
    intro r call hcall
    rw [hinit.2] at hcall
    cases hcall
  refine Machine.exec_history (fun es s₁ e s₂ hexec₁ h₁ hstep => ?_) hexec hstart
  exact explained_step hexec₁ (reachable_of_exec hinit hexec₁) h₁ (step_spec hstep)

/-- The guard has not answered yet. -/
def Phase.isPending : Phase → Bool
  | .verifying _ _ => true
  | .reading _ _ _ => true
  | _ => false

/-- **Runs.** A protected request that is let through carries a token that verified
under the key that the load completed last had for it, with claims, and without a
mark on the token or the device. Every other one has no user: the guard has not
answered yet, has thrown an `UnauthorizedException`, or what the cache threw, or, for
a verified token, the `TypeError` of a template literal that cannot write one of its
claims. -/
theorem canActivate_sound (hinit : (machine E).Init s₀)
    (hrun : (machine E).exec s₀ es = some s) {call : Call} (hcall : s.calls r = some call)
    (hprotected : call.request.isPublic = false) :
    (call.phase = .resolved ∧ ∃ token pem payload,
      Authenticated E s₀ es r call.request token pem payload ∧
        call.user = some (userOf payload)) ∨
    call.user = none ∧ (call.phase = .unauthorized ∨
      (∃ error s₁, call.phase = .cacheError error ∧
        (machine E).Taken s₀ es (.readError r error) s₁) ∨
      (call.phase = .typeError ∧ ∃ token pem payload,
        LookedUp E s₀ es r call.request token pem ∧ Verified E s₀ es r token pem payload ∧
          (hasText payload.jti && hasText payload.deviceId) = false) ∨
      call.phase.isPending = true) := by
  have hhistory := explained_of_exec hinit hrun r call hcall
  cases hhistory with
  | isPublic hpublic => exact absurd (hpublic.symm.trans hprotected) (by simp)
  | verifying => exact .inr ⟨rfl, .inr (.inr (.inr rfl))⟩
  | reading => exact .inr ⟨rfl, .inr (.inr (.inr rfl))⟩
  | resolved hauthenticated => exact .inl ⟨rfl, _, _, _, hauthenticated, rfl⟩
  | unauthorized => exact .inr ⟨rfl, .inl rfl⟩
  | cacheError hread => exact .inr ⟨rfl, .inr (.inl ⟨_, _, rfl, hread⟩)⟩
  | typeError hlooked hverified htext =>
    exact .inr ⟨rfl, .inr (.inr (.inl ⟨rfl, _, _, _, hlooked, hverified, htext⟩))⟩

/-- One token verifies, under the key of `oneKey "pem"`. -/
def oneToken : Env where
  jwks := Jwks.plainKeys
  fromBase64url s := if s = "eyJraWQiOiJrZXktMSJ9" then "\x7b\"kid\":\"key-1\"\x7d" else ""
  parse s := if s = "\x7b\"kid\":\"key-1\"\x7d" then some (.obj [("kid", .str "key-1")]) else none
  verifyAsync _ token options :=
    if token = "eyJraWQiOiJrZXktMSJ9.payload.sig" ∧
        options = { publicKey := "pem", algorithms := ["ES256"] } then
      some
        { sub := .str "user-uuid-1"
          jti := .str "token-jti-1"
          deviceId := .str "device-id-1"
          fingerprint := .undefined }
    else none
  text
    | .str s => s
    | _ => ""

/-- The keys are loaded, a request comes with a token, and it is verified and its
marks are read. -/
def guardedRequest : List Event :=
  [.jwks .init, .jwks (.respond 0 true), .jwks (.body 0 (some (Jwks.oneKey "pem"))),
    .canActivate 0 ⟨none, none, some "Bearer eyJraWQiOiJrZXktMSJ9.payload.sig"⟩,
    .verified 0, .readDevice 0, .readToken 0]

def emptyStart : Sys where
  jwks := .start 0
  cache _ := .undefined
  calls _ := none

theorem canActivate_sound_guardedRequest :
    ∃ s call, (machine oneToken).exec emptyStart guardedRequest = some s ∧
      s.calls 0 = some call ∧ ∃ token pem payload,
        Authenticated oneToken emptyStart guardedRequest 0 call.request token pem payload ∧
          call.user = some (userOf payload) := by
  obtain ⟨s, call, hrun, hcall, hprotected, hphase⟩ : ∃ s call,
      (machine oneToken).exec emptyStart guardedRequest = some s ∧ s.calls 0 = some call ∧
      call.request.isPublic = false ∧ call.phase = .resolved := ⟨_, _, rfl, rfl, rfl, rfl⟩
  refine ⟨s, call, hrun, hcall, ?_⟩
  rcases canActivate_sound ⟨⟨0, rfl⟩, rfl⟩ hrun hcall hprotected with
    ⟨-, hauthenticated⟩ | ⟨-, hthrown | ⟨error, s₁, hthrown, -⟩ | ⟨hthrown, -⟩ | hpending⟩
  · exact hauthenticated
  · rw [hphase] at hthrown
    cases hthrown
  · rw [hphase] at hthrown
    cases hthrown
  · rw [hphase] at hthrown
    cases hthrown
  · rw [hphase] at hpending
    cases hpending

/-- A protected request is let through as `canActivate_sound` says, or has no user, and
then only an `UnauthorizedException` or what the cache threw ends the call. -/
def SoundGuard (E : Env) : Prop :=
  ∀ s₀ es s r call, (machine E).Init s₀ → (machine E).exec s₀ es = some s →
    s.calls r = some call → call.request.isPublic = false →
      (call.phase = .resolved ∧ ∃ token pem payload,
        Authenticated E s₀ es r call.request token pem payload ∧
          call.user = some (userOf payload)) ∨
      call.user = none ∧ (call.phase = .unauthorized ∨
        (∃ error s₁, call.phase = .cacheError error ∧
          (machine E).Taken s₀ es (.readError r error) s₁) ∨
        call.phase.isPending = true)

/-- The token verifies, and its `jti` is no string. -/
def objectJti : Env :=
  { oneToken with
    verifyAsync := fun now token options => (oneToken.verifyAsync now token options).map
      fun payload => { payload with jti := .obj [("toString", .null)] } }

/-- The call ends in the `TypeError` of a template literal. -/
theorem object_jti_throws : ¬ SoundGuard objectJti := by
  intro h
  obtain ⟨s, call, hrun, hcall, hprotected, hphase⟩ : ∃ s call,
      (machine objectJti).exec emptyStart (guardedRequest.take 5) = some s ∧
        s.calls 0 = some call ∧ call.request.isPublic = false ∧ call.phase = .typeError :=
    ⟨_, _, rfl, rfl, rfl, rfl⟩
  rcases h emptyStart _ s 0 call ⟨⟨0, rfl⟩, rfl⟩ hrun hcall hprotected with
    ⟨hresolved, -⟩ | ⟨-, hthrown | ⟨error, s₁, hthrown, -⟩ | hpending⟩
  · rw [hphase] at hresolved
    cases hresolved
  · rw [hphase] at hthrown
    cases hthrown
  · rw [hphase] at hthrown
    cases hthrown
  · rw [hphase] at hpending
    cases hpending

end SchedulingService.Auth
