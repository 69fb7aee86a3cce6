import Mathlib.Data.List.DropRight
import SchedulingService.Jwks.System

/-!
# `JwtAuthGuard`

The guard of every route, over the keys that `JwksService` holds and the marks of
revoked tokens and devices in the cache. Any number of requests are guarded at a
time: what the guard does between two awaits is one event, and between two of them
loads may bring other keys and the cache may change.

`canActivate` reads the key from the token's own header, which nobody has verified
yet. What `verifyAsync`, `JSON.parse` and the import of a key answer is up to the
environment.

The module of the guard and that of the keys are one machine here. Seen from the
keys it is the machine of `JwksService`: `jwks_reachable`.
-/

namespace SchedulingService.Auth

open Js
open Jwks (Pem hasText)

/-- The claims the guard reads. They are declared strings, and nothing checks it. -/
structure JwtPayload where
  sub : Value
  jti : Value
  deviceId : Value
  fingerprint : Value

/-- The options of `verifyAsync`. -/
structure VerifyOptions where
  publicKey : Pem
  algorithms : List String
  deriving DecidableEq

/-- What the guard asks of the libraries. -/
structure Env where
  jwks : Jwks.Env
  /-- `Buffer.from(s, 'base64url').toString('utf8')`; it skips what it cannot read. -/
  fromBase64url : String → String
  /-- `JSON.parse`; `none` where it throws. -/
  parse : String → Option Value
  /-- `verifyAsync`, at the time it is answered; `none` where it rejects. -/
  verifyAsync : Int → String → VerifyOptions → Option JwtPayload
  /-- `String(v)`, of a value of which it does not throw. -/
  text : Value → String

/-! ## The request -/

/-- What the guard reads of a request: the metadata of its handler and of its
controller, and the header. -/
structure Request where
  handlerIsPublic : Option Bool
  controllerIsPublic : Option Bool
  authorization : Option String

/-- `request.user`. -/
structure User where
  userId : Value
  jti : Value
  deviceId : Value
  fingerprint : Value

/-- `Reflector.getAllAndOverride`: the first that is there. -/
def getAllAndOverride (metadata : List (Option Bool)) : Option Bool := metadata.findSome? id

def Request.isPublic (request : Request) : Bool :=
  (getAllAndOverride [request.handlerIsPublic, request.controllerIsPublic]).getD false

/-- What `String.prototype.trim` takes away. -/
def isWhiteSpace (c : Char) : Bool :=
  c.toNat ∈ [0x9, 0xA, 0xB, 0xC, 0xD, 0x20, 0xA0, 0x1680, 0x2028, 0x2029, 0x202F, 0x205F,
    0x3000, 0xFEFF] || (0x2000 ≤ c.toNat && c.toNat ≤ 0x200A)

def trim (s : List Char) : List Char := (s.dropWhile isWhiteSpace).rdropWhile isWhiteSpace

/-- No letter but the ASCII ones becomes a letter of "bearer " in lower case. -/
def extractBearerToken (authorization : Option String) : Option String :=
  match authorization with
  | none => none
  | some authHeader =>
    if authHeader = "" then none
    else if (authHeader.toList.take 7).map Char.toLower ≠ "bearer ".toList then none
    else
      let token := trim (authHeader.toList.drop 7)
      if 0 < token.length then some (String.ofList token) else none

/-- `const [headerB64] = token.split('.')`. -/
def headerB64 (token : String) : String := String.ofList (token.toList.takeWhile (· ≠ '.'))

def peekKid (E : Env) (token : String) : Option String :=
  match E.parse (E.fromBase64url (headerB64 token)) with
  | some header =>
    match header.get "kid" with
    | .str kid => some kid
    | _ => none
  | none => none

/-- `revoked:${jti}`. -/
def revokedKey (E : Env) (jti : Value) : String := "revoked:" ++ E.text jti

/-- `revoked_device:${deviceId}`. -/
def revokedDeviceKey (E : Env) (deviceId : Value) : String :=
  "revoked_device:" ++ E.text deviceId

/-! ## The guard -/

abbrev RequestId := Nat

/-- Where a call of `canActivate` stands. -/
inductive Phase
  /-- At `await verifyAsync(…)`. -/
  | verifying (token : String) (publicKeyPem : Pem)
  /-- At `await Promise.all([…])`, with what has been read. -/
  | reading (payload : JwtPayload) (tokenRevoked deviceRevoked : Option Value)
  /-- It resolved to `true`. -/
  | resolved
  /-- It threw an `UnauthorizedException`. -/
  | unauthorized
  /-- It threw what the cache threw. -/
  | cacheError (error : Value)
  /-- It threw the `TypeError` of a template literal. -/
  | typeError

structure Call where
  request : Request
  phase : Phase
  user : Option User

structure Sys where
  jwks : Jwks.Sys
  cache : String → Value
  calls : RequestId → Option Call

namespace Sys

def setCall (s : Sys) (r : RequestId) (call : Call) : Sys :=
  { s with calls := Function.update s.calls r (some call) }

/-- `canActivate`, up to its first await. -/
def canActivate (E : Env) (s : Sys) (request : Request) : Jwks.Sys × Phase :=
  if request.isPublic then (s.jwks, .resolved)
  else
    match extractBearerToken request.authorization with
    | none => (s.jwks, .unauthorized)
    | some token =>
      let kid := peekKid E token
      -- an empty PEM counts as none
      match (s.jwks.getPublicKeyPem kid).filter (· ≠ "") with
      | some publicKeyPem => (s.jwks, .verifying token publicKeyPem)
      | none =>
        match kid with
        | some _ => (s.jwks.scheduleReloadForUnknownKid E.jwks, .unauthorized)
        | none => (s.jwks, .unauthorized)

end Sys

/-- What follows `verifyAsync`. -/
def afterVerify : Option JwtPayload → Phase
  | none => .unauthorized
  | some payload =>
    if !payload.sub.truthy || !payload.jti.truthy || !payload.deviceId.truthy then .unauthorized
    -- the keys of the two reads are written outside of any `try`
    else if !hasText payload.jti || !hasText payload.deviceId then .typeError
    else .reading payload none none

/-- What follows a read; `Promise.all` waits for both. -/
def Call.afterRead (call : Call) (payload : JwtPayload) : Option Value → Option Value → Call
  | some tokenRevoked, some deviceRevoked =>
    if !tokenRevoked.isNullish then { call with phase := .unauthorized }
    else if !deviceRevoked.isNullish then { call with phase := .unauthorized }
    else
      { call with
        phase := .resolved
        user := some
          { userId := payload.sub
            jti := payload.jti
            deviceId := payload.deviceId
            fingerprint := payload.fingerprint } }
  | tokenRevoked, deviceRevoked =>
    { call with phase := .reading payload tokenRevoked deviceRevoked }

inductive Event
  | jwks (e : Jwks.Event)
  /-- A mark is set or goes. -/
  | cacheWrite (key : String) (value : Value)
  /-- The guard is called for a request. -/
  | canActivate (r : RequestId) (request : Request)
  /-- `verifyAsync` is answered. -/
  | verified (r : RequestId)
  | readToken (r : RequestId)
  | readDevice (r : RequestId)
  /-- One of the two reads rejects. -/
  | readError (r : RequestId) (error : Value)

/-- One event; `none` where it cannot happen. -/
def step (E : Env) (s : Sys) : Event → Option Sys
  | .jwks e => (Jwks.step E.jwks s.jwks e).map fun jwks => { s with jwks }
  | .cacheWrite key value => some { s with cache := Function.update s.cache key value }
  | .canActivate r request =>
    match s.calls r with
    | some _ => none
    | none =>
      let (jwks, phase) := s.canActivate E request
      some { s.setCall r { request, phase, user := none } with jwks }
  | .verified r =>
    match s.calls r with
    | some call =>
      match call.phase with
      | .verifying token publicKey =>
        let payload := E.verifyAsync s.jwks.now token { publicKey, algorithms := ["ES256"] }
        some (s.setCall r { call with phase := afterVerify payload })
      | _ => none
    | none => none
  | .readToken r =>
    match s.calls r with
    | some call =>
      match call.phase with
      | .reading payload none deviceRevoked =>
        let tokenRevoked := s.cache (revokedKey E payload.jti)
        some (s.setCall r (call.afterRead payload (some tokenRevoked) deviceRevoked))
      | _ => none
    | none => none
  | .readDevice r =>
    match s.calls r with
    | some call =>
      match call.phase with
      | .reading payload tokenRevoked none =>
        let deviceRevoked := s.cache (revokedDeviceKey E payload.deviceId)
        some (s.setCall r (call.afterRead payload tokenRevoked (some deviceRevoked)))
      | _ => none
    | none => none
  | .readError r error =>
    match s.calls r with
    | some call =>
      match call.phase with
      | .reading _ _ _ => some (s.setCall r { call with phase := .cacheError error })
      | _ => none
    | none => none

def machine (E : Env) : Machine Sys Event where
  Init s := (∃ now, s.jwks = .start now) ∧ s.calls = fun _ => none
  step := step E

/-! ## What a step can do -/

section Step

variable {E : Env}

/-- One step, by what it does. -/
inductive Step (E : Env) (s : Sys) : Event → Sys → Prop
  | jwks {e : Jwks.Event} {jwks : Jwks.Sys} (hjwks : Jwks.step E.jwks s.jwks e = some jwks) :
      Step E s (.jwks e) { s with jwks }
  | cacheWrite (key : String) (value : Value) :
      Step E s (.cacheWrite key value) { s with cache := Function.update s.cache key value }
  | canActivate {r : RequestId} (request : Request) (hnew : s.calls r = none) :
      Step E s (.canActivate r request)
        { s.setCall r { request, phase := (s.canActivate E request).2, user := none } with
          jwks := (s.canActivate E request).1 }
  | verified {r : RequestId} {call : Call} {token : String} {publicKey : Pem}
      (hcall : s.calls r = some call) (hphase : call.phase = .verifying token publicKey) :
      Step E s (.verified r) (s.setCall r { call with
        phase := afterVerify
          (E.verifyAsync s.jwks.now token { publicKey, algorithms := ["ES256"] }) })
  | readToken {r : RequestId} {call : Call} {payload : JwtPayload} {deviceRevoked : Option Value}
      (hcall : s.calls r = some call) (hphase : call.phase = .reading payload none deviceRevoked) :
      Step E s (.readToken r) (s.setCall r
        (call.afterRead payload (some (s.cache (revokedKey E payload.jti))) deviceRevoked))
  | readDevice {r : RequestId} {call : Call} {payload : JwtPayload} {tokenRevoked : Option Value}
      (hcall : s.calls r = some call) (hphase : call.phase = .reading payload tokenRevoked none) :
      Step E s (.readDevice r) (s.setCall r
        (call.afterRead payload tokenRevoked
          (some (s.cache (revokedDeviceKey E payload.deviceId)))))
  | readError {r : RequestId} {call : Call} {payload : JwtPayload}
      {tokenRevoked deviceRevoked : Option Value} (error : Value) (hcall : s.calls r = some call)
      (hphase : call.phase = .reading payload tokenRevoked deviceRevoked) :
      Step E s (.readError r error) (s.setCall r { call with phase := .cacheError error })

theorem step_spec {s s' : Sys} {e : Event} (h : step E s e = some s') : Step E s e s' := by
  cases e with
  | jwks e =>
    obtain ⟨jwks, hjwks, rfl⟩ := Option.map_eq_some_iff.mp h
    exact .jwks hjwks
  | cacheWrite key value =>
    obtain rfl := Option.some.inj h
    exact .cacheWrite key value
  | canActivate r request =>
    simp only [step] at h
    split at h
    -- a request is guarded once
    · cases h
    · rename_i hnew
      obtain rfl := Option.some.inj h
      exact .canActivate request hnew
  | verified r =>
    simp only [step] at h
    split at h
    · rename_i call hcall
      split at h
      · rename_i hphase
        obtain rfl := Option.some.inj h
        exact .verified hcall hphase
      · cases h
    · cases h
  | readToken r =>
    simp only [step] at h
    split at h
    · rename_i call hcall
      split at h
      · rename_i hphase
        obtain rfl := Option.some.inj h
        exact .readToken hcall hphase
      · cases h
    · cases h
  | readDevice r =>
    simp only [step] at h
    split at h
    · rename_i call hcall
      split at h
      · rename_i hphase
        obtain rfl := Option.some.inj h
        exact .readDevice hcall hphase
      · cases h
    · cases h
  | readError r error =>
    simp only [step] at h
    split at h
    · rename_i call hcall
      split at h
      · rename_i hphase
        obtain rfl := Option.some.inj h
        exact .readError error hcall hphase
      · cases h
    · cases h

end Step

/-! ## The keys under the guard -/

section Keys

variable {E : Env}

/-- All that `canActivate` does to the keys is to ask for a reload. -/
theorem canActivate_jwks (s : Sys) (request : Request) :
    (s.canActivate E request).1 = s.jwks ∨
      (s.canActivate E request).1 = s.jwks.scheduleReloadForUnknownKid E.jwks := by
  unfold Sys.canActivate
  split
  · exact .inl rfl
  · split
    · exact .inl rfl
    · dsimp only
      split
      · exact .inl rfl
      · split
        · exact .inr rfl
        · exact .inl rfl

/-- The guarded system refines `JwksService`. -/
theorem simulation_jwks :
    Machine.Simulation (machine E) Machine.always (fun _ => True)
      (Jwks.machine E.jwks) Machine.always Sys.jwks where
  init s h := ⟨trivial, h.1⟩
  step s e s' _ _ h := by
    refine ⟨trivial, ?_⟩
    cases step_spec h with
    | jwks hjwks => exact .single trivial hjwks
    | canActivate request hnew =>
      rcases canActivate_jwks (E := E) s request with hkept | hreload
      · dsimp only
        rw [hkept]
        exact .refl
      · dsimp only
        rw [hreload]
        have hstep : (Jwks.machine E.jwks).step s.jwks .scheduleReload =
            some (s.jwks.scheduleReloadForUnknownKid E.jwks) := rfl
        exact .single trivial hstep
    -- the calls and the cache are no part of `JwksService`
    | cacheWrite | verified | readToken | readDevice | readError => exact .refl

theorem jwks_reachable {s : Sys} (h : Machine.Reachable (machine E) Machine.always s) :
    Machine.Reachable (Jwks.machine E.jwks) Machine.always s.jwks :=
  (simulation_jwks.reachable h).2

end Keys

end SchedulingService.Auth
