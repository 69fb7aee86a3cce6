import SchedulingService.Auth.Refusals
import SchedulingService.Http.Controllers

/-!
# Requests over HTTP

The guard and the handlers as one machine. A request arrives and is guarded, with
key loads and revocations in between; once the guard has let it through it is
handled, and answered. Seen from the guard this is the machine of `Auth`, seen from
the messages it is a sequence of calls of `Messages.perform`.

Main results:

* `answered_entitled` — whoever is answered, and whatever is changed, was entitled;
* `schedules_wellFormed_over_http` — every stored schedule was well formed when an
  entitled request stored it;
* `users_isolated_over_http` — to its user, a run of requests is the run of the
  user's own.

A handler is one step: the calls of `Messages.Isolation` are. What can come between
the statements of one is in `Messages.System` and `Scheduler.System`.
-/

namespace SchedulingService.Http

open Auth (RequestId)

structure Sys where
  auth : Auth.Sys
  data : Data
  requests : RequestId → Option Request
  answers : RequestId → Option Answer
  /-- The calls of `ScheduledMessagesService` so far, in their order, with what they
  answered. -/
  served : List (Messages.Call × Messages.Reply)

inductive Event
  /-- Something happens to the guard that is no new request. -/
  | auth (e : Auth.Event)
  | arrive (r : RequestId) (request : Request)
  /-- What follows the guard. -/
  | handle (r : RequestId) (o : Outcome)

/-- The call of the service that a request makes, if it gets there. -/
def callOf (E : Env) (o : Outcome) (request : Request) (user : Option Auth.User) :
    Option Messages.Call :=
  match request.route with
  | .messages route =>
    match currentUser user, route.operation E o.fresh with
    | some (.str userId), some operation => some ⟨.val userId, o.now, operation⟩
    | _, _ => none
  | _ => none

/-- That call with its reply. -/
def servedOf (E : Env) (o : Outcome) (t : Messages.Table) (request : Request)
    (user : Option Auth.User) : List (Messages.Call × Messages.Reply) :=
  (callOf E o request user).toList.map fun call =>
    (call, (Messages.perform E.uuids E.platform t call).2)

/-- The database generates ids that no row has. -/
def callFresh (t : Messages.Table) : Option Messages.Call → Bool
  | some ⟨_, _, .create fresh _⟩ => (t.get fresh).isNone
  | _ => true

/-- One event; `none` where it cannot happen. -/
def step (E : Env) (s : Sys) : Event → Option Sys
  | .auth (.canActivate _ _) => none
  | .auth e => (Auth.step E.auth s.auth e).map fun auth => { s with auth }
  | .arrive r request =>
    (Auth.step E.auth s.auth (.canActivate r request.guarded)).map fun auth =>
      { s with auth, requests := Function.update s.requests r (some request) }
  | .handle r o =>
    match s.requests r, s.auth.calls r, s.answers r with
    | some request, some call, none =>
      match call.phase with
      | .resolved =>
        if callFresh s.data.messages (callOf E o request call.user) then
          let (data, answer) := handle E o s.data request call.user
          some { s with
            data
            answers := Function.update s.answers r (some answer)
            served := s.served ++ servedOf E o s.data.messages request call.user }
        else none
      | _ => none
    | _, _, _ => none

structure Initial (s : Sys) : Prop where
  auth : (∃ now, s.auth.jwks = .start now) ∧ s.auth.calls = fun _ => none
  requests : s.requests = fun _ => none
  answers : s.answers = fun _ => none
  served : s.served = []

def machine (E : Env) : Machine Sys Event where
  Init := Initial
  step := step E

/-! ## What a step does -/

/-- What the guard sees of an event. -/
def Event.guard : Event → Option Auth.Event
  | .auth e => some e
  | .arrive r request => some (.canActivate r request.guarded)
  | .handle _ _ => none

/-- The steps by what they do to the state. -/
inductive Step (E : Env) (s : Sys) : Event → Sys → Prop
  | auth {e : Auth.Event} {auth : Auth.Sys} (hstep : Auth.step E.auth s.auth e = some auth)
      (hother : ∀ r request, e ≠ .canActivate r request) :
      Step E s (.auth e) { s with auth }
  | arrive {r : RequestId} {request : Request} {auth : Auth.Sys}
      (hstep : Auth.step E.auth s.auth (.canActivate r request.guarded) = some auth) :
      Step E s (.arrive r request)
        { s with auth, requests := Function.update s.requests r (some request) }
  | handle {r : RequestId} {o : Outcome} {request : Request} {call : Auth.Call}
      (hrequest : s.requests r = some request) (hcall : s.auth.calls r = some call)
      (hnew : s.answers r = none) (hphase : call.phase = .resolved)
      (hfresh : callFresh s.data.messages (callOf E o request call.user) = true) :
      Step E s (.handle r o)
        { s with
          data := (Http.handle E o s.data request call.user).1
          answers := Function.update s.answers r
            (some (Http.handle E o s.data request call.user).2)
          served := s.served ++ servedOf E o s.data.messages request call.user }

section Steps

variable {E : Env} {s₀ s s' : Sys} {es : List Event} {e : Event}

theorem step_spec (h : step E s e = some s') : Step E s e s' := by
  cases e with
  | auth e =>
    cases e with
    | canActivate r request => cases h
    | _ =>
      simp only [step, Option.map_eq_some_iff] at h
      obtain ⟨auth, hstep, rfl⟩ := h
      exact .auth hstep (by simp)
  | arrive r request =>
    simp only [step, Option.map_eq_some_iff] at h
    obtain ⟨auth, hstep, rfl⟩ := h
    exact .arrive hstep
  | handle r o =>
    simp only [step] at h
    split at h
    · rename_i request call hrequest hcall hnew
      split at h
      · rename_i hphase
        split at h
        · rename_i hfresh
          obtain rfl := Option.some.inj h
          exact .handle hrequest hcall hnew hphase hfresh
        · cases h
      · cases h
    · cases h

/-- Seen from the guard, a step is a step of the guard or none. -/
theorem guard_step (h : step E s e = some s') :
    (Auth.machine E.auth).exec s.auth e.guard.toList = some s'.auth := by
  cases step_spec h with
  | @auth e auth hstep _ =>
    have hguard : (Auth.machine E.auth).step s.auth e = some auth := hstep
    exact Machine.exec_cons hguard []
  | @arrive r request auth hstep =>
    have hguard : (Auth.machine E.auth).step s.auth (.canActivate r request.guarded) =
      some auth := hstep
    exact Machine.exec_cons hguard []
  | handle => rfl

/-- **Refinement.** A run over HTTP is a run of the guard. -/
theorem guard_exec (h : (machine E).exec s₀ es = some s) :
    (Auth.machine E.auth).exec s₀.auth (es.filterMap Event.guard) = some s.auth :=
  Machine.exec_project Sys.auth Event.guard (fun _ _ _ hstep => guard_step hstep) h

/-- A call of the guard stays the call for its request. -/
theorem request_of_step {auth auth' : Auth.Sys} {e : Auth.Event}
    (h : Auth.step E.auth auth e = some auth') {r : RequestId} {call' : Auth.Call}
    (hcall' : auth'.calls r = some call') :
    (∃ call, auth.calls r = some call ∧ call'.request = call.request) ∨
      e = .canActivate r call'.request := by
  -- every step of a call keeps its request
  have hset : ∀ (r' : RequestId) (call : Auth.Call) (moved : Auth.Call),
      auth.calls r' = some call → moved.request = call.request →
      Function.update auth.calls r' (some moved) r = some call' →
      ∃ call, auth.calls r = some call ∧ call'.request = call.request := by
    intro r' call moved hcall hmoved hset
    by_cases hr : r = r'
    · subst hr
      rw [Function.update_self] at hset
      obtain rfl := Option.some.inj hset
      exact ⟨call, hcall, hmoved⟩
    · rw [Function.update_of_ne hr] at hset
      exact ⟨call', hset, rfl⟩
  cases Auth.step_spec h with
  | jwks hjwks => exact .inl ⟨call', hcall', rfl⟩
  | cacheWrite key value => exact .inl ⟨call', hcall', rfl⟩
  | @canActivate r' request hnew =>
    by_cases hr : r = r'
    · subst hr
      have hself := (Function.update_self r _ auth.calls).symm.trans hcall'
      obtain rfl := Option.some.inj hself
      exact .inr rfl
    · exact .inl ⟨call', (Function.update_of_ne hr _ auth.calls).symm.trans hcall', rfl⟩
  | @verified r' call token publicKey hcall hphase =>
    exact .inl (hset r' call _ hcall (by rfl) hcall')
  | @readToken r' call payload deviceRevoked hcall hphase =>
    exact .inl (hset _ _ _ hcall (Auth.Call.afterRead_request _ _ _ _) hcall')
  | @readDevice r' call payload tokenRevoked hcall hphase =>
    exact .inl (hset _ _ _ hcall (Auth.Call.afterRead_request _ _ _ _) hcall')
  | @readError r' call payload tokenRevoked deviceRevoked error hcall hphase =>
    exact .inl (hset r' call _ hcall (by rfl) hcall')

/-- What is guarded is the request that arrived. -/
def Paired (s : Sys) : Prop :=
  ∀ r call, s.auth.calls r = some call →
    ∃ request, s.requests r = some request ∧ call.request = request.guarded

theorem paired_step (hpaired : Paired s) (h : step E s e = some s') : Paired s' := by
  intro r call hcall
  cases step_spec h with
  | auth hstep hother =>
    rcases request_of_step hstep hcall with ⟨call₀, hcall₀, hsame⟩ | hnew
    · obtain ⟨request, hrequest, hguarded⟩ := hpaired r call₀ hcall₀
      exact ⟨request, hrequest, hsame.trans hguarded⟩
    · exact absurd hnew (hother r call.request)
  | @arrive r' request auth hstep =>
    rcases request_of_step hstep hcall with ⟨call₀, hcall₀, hsame⟩ | hnew
    · -- the requests that were there are not the one that arrives
      have hr : r ≠ r' := by
        rintro rfl
        simp only [Auth.step, hcall₀] at hstep
        cases hstep
      obtain ⟨request₀, hrequest₀, hguarded⟩ := hpaired r call₀ hcall₀
      refine ⟨request₀, ?_, hsame.trans hguarded⟩
      show Function.update s.requests r' (some request) r = some request₀
      rw [Function.update_of_ne hr, hrequest₀]
    · obtain ⟨rfl, hrequest⟩ := Auth.Event.canActivate.inj hnew
      refine ⟨request, ?_, hrequest.symm⟩
      show Function.update s.requests r' (some request) r' = some request
      rw [Function.update_self]
  | handle => exact hpaired r call hcall

theorem paired_of_exec (h₀ : Initial s₀) (h : (machine E).exec s₀ es = some s) : Paired s := by
  have hstart : Paired s₀ := by
    intro r call hcall
    rw [h₀.auth.2] at hcall
    cases hcall
  exact Machine.exec_history (I := fun _ s => Paired s)
    (fun _ _ _ _ _ hs hstep => paired_step hs hstep) h hstart

end Steps

/-! ## Who is answered -/

/-- The request passed the guards of its route: its token verified, and on an
internal route it has the token of the peers. -/
structure Entitled (E : Env) (s₀ : Sys) (es : List Event) (r : RequestId) (request : Request)
    (payload : Auth.JwtPayload) : Prop where
  authenticated : ∃ token pem, Auth.Authenticated E.auth s₀.auth (es.filterMap Event.guard) r
    request.guarded token pem payload
  internal : request.route.isInternal = true →
    ∃ token, E.internalToken = some token ∧ token ≠ "" ∧ request.internalToken = some token

section Entitlement

variable {E : Env} {s₀ s s' : Sys} {es : List Event} {o : Outcome} {d : Data} {r : RequestId}
  {request : Request}

theorem internalAllowed_iff : internalAllowed E request = true ↔
    ∃ token, E.internalToken = some token ∧ token ≠ "" ∧ request.internalToken = some token := by
  unfold internalAllowed
  cases htoken : E.internalToken with
  | none => simp
  | some token =>
    by_cases hempty : token = ""
    · simp [hempty]
    · cases hprovided : request.internalToken with
      | none => simp [hempty]
      | some provided =>
        simp only [hempty, if_false, Bool.and_eq_true, decide_eq_true_eq, Option.some.injEq]
        constructor
        · rintro ⟨-, rfl⟩
          exact ⟨provided, rfl, hempty, rfl⟩
        · rintro ⟨_, rfl, hne, rfl⟩
          exact ⟨hne, rfl⟩

/-- A route that is not public is a protected one to the guard. -/
theorem guarded_isPublic (hroute : request.route.controllerIsPublic = none) :
    request.guarded.isPublic = false := by
  simp [Request.guarded, Auth.Request.isPublic, hroute, Auth.getAllAndOverride]

theorem handle_health {route : HealthRoute} (hroute : request.route = .health route)
    (user : Option Auth.User) : handle E o d request user = handleHealth o d route := by
  simp [handle, hroute, Route.isInternal]

/-- Without the token of the peers an internal route does nothing. -/
theorem handle_refused (hinternal : request.route.isInternal = true)
    (hnot : internalAllowed E request = false) (user : Option Auth.User) :
    handle E o d request user = (d, .unauthorized) := by
  simp [handle, hinternal, hnot]

/-- A request that the guard let through on a protected route is authenticated, and
its user is that of its token. -/
theorem authenticated_of_resolved (h₀ : Initial s₀) (h : (machine E).exec s₀ es = some s)
    {call : Auth.Call} (hrequest : s.requests r = some request)
    (hcall : s.auth.calls r = some call) (hphase : call.phase = .resolved)
    (hroute : request.route.controllerIsPublic = none) :
    ∃ token pem payload, Auth.Authenticated E.auth s₀.auth (es.filterMap Event.guard) r
      request.guarded token pem payload ∧ call.user = some (Auth.userOf payload) := by
  obtain ⟨request', hrequest', hguarded⟩ := paired_of_exec h₀ h r call hcall
  obtain rfl := Option.some.inj (hrequest'.symm.trans hrequest)
  have hhistory := Auth.explained_of_exec h₀.auth (guard_exec h) r call hcall
  cases hhistory with
  | isPublic hpublic =>
    have hprotected := guarded_isPublic hroute
    obtain rfl : _ = request'.guarded := hguarded
    rw [hprotected] at hpublic
    cases hpublic
  | resolved hauthenticated =>
    obtain rfl : _ = request'.guarded := hguarded
    exact ⟨_, _, _, hauthenticated, rfl⟩
  | verifying | reading | unauthorized | cacheError | typeError => cases hphase

theorem entitled_of_resolved (h₀ : Initial s₀) (h : (machine E).exec s₀ es = some s)
    {call : Auth.Call} (hrequest : s.requests r = some request)
    (hcall : s.auth.calls r = some call) (hphase : call.phase = .resolved)
    (hroute : request.route.controllerIsPublic = none)
    (hallowed : request.route.isInternal = true → internalAllowed E request = true) :
    ∃ payload, Entitled E s₀ es r request payload ∧ call.user = some (Auth.userOf payload) := by
  obtain ⟨token, pem, payload, hauthenticated, huser⟩ :=
    authenticated_of_resolved h₀ h hrequest hcall hphase hroute
  refine ⟨payload, ⟨⟨token, pem, hauthenticated⟩, ?_⟩, huser⟩
  intro hinternal
  exact internalAllowed_iff.mp (hallowed hinternal)

theorem Entitled.append {payload : Auth.JwtPayload} (h : Entitled E s₀ es r request payload)
    (e : Event) : Entitled E s₀ (es ++ [e]) r request payload := by
  obtain ⟨token, pem, hauthenticated⟩ := h.authenticated
  refine ⟨⟨token, pem, ?_⟩, h.internal⟩
  rw [List.filterMap_append]
  exact hauthenticated.append _

/-- Request `r` was handled in the state `s`: it had arrived as `request`, and was
entitled by then. -/
structure HandledFor (E : Env) (s₀ : Sys) (es : List Event) (r : RequestId) (o : Outcome)
    (request : Request) (payload : Auth.JwtPayload) (s : Sys) : Prop where
  taken : ∃ before after, es = before ++ .handle r o :: after ∧
    (machine E).exec s₀ before = some s ∧ Entitled E s₀ before r request payload
  arrived : s.requests r = some request

theorem HandledFor.append {payload : Auth.JwtPayload}
    (h : HandledFor E s₀ es r o request payload s) (e : Event) :
    HandledFor E s₀ (es ++ [e]) r o request payload s := by
  obtain ⟨before, after, rfl, hexec, hentitled⟩ := h.taken
  exact ⟨⟨before, after ++ [e], by simp, hexec, hentitled⟩, h.arrived⟩

/-- The step that handles it. -/
theorem handledFor_last {payload : Auth.JwtPayload} (h : (machine E).exec s₀ es = some s)
    (hrequest : s.requests r = some request) (hentitled : Entitled E s₀ es r request payload)
    (o : Outcome) : HandledFor E s₀ (es ++ [.handle r o]) r o request payload s :=
  ⟨⟨es, [], rfl, h, hentitled⟩, hrequest⟩

end Entitlement

/-! ## A small run -/

/-- One token verifies, and the peers have another. -/
def oneClient : Env where
  auth := Auth.oneToken
  conversion := Messages.plainConversion
  validators := { isUuid := fun _ => true, stringify := fun _ => none }
  uuids := Messages.plainIds
  platform := Messages.carrying fun _ => .invalid
  runtime := Scheduler.quietRuntime
  database := Scheduler.plainDatabase
  internalToken := some "peer"
  parseUuid _ := true
  isISO8601 _ := false

/-- A message and a job are stored. -/
def atRest : Sys where
  auth := Auth.emptyStart
  data :=
    { messages := Messages.someTable
      scheduler := Scheduler.oneJob Scheduler.cleanupJob
      executions := []
      cache _ := .undefined }
  requests _ := none
  answers _ := none
  served := []

theorem initial_atRest : Initial atRest := ⟨⟨⟨0, rfl⟩, rfl⟩, rfl, rfl, rfl⟩

/-- The keys are loaded, and a request comes for this route and passes the guard. -/
def passing (route : Route) : List Event :=
  [.auth (.jwks .init), .auth (.jwks (.respond 0 true)),
    .auth (.jwks (.body 0 (some (Jwks.oneKey "pem")))),
    .arrive 0 ⟨route, some "Bearer eyJraWQiOiJrZXktMSJ9.payload.sig", some "peer"⟩,
    .auth (.verified 0), .auth (.readDevice 0), .auth (.readToken 0)]

/-- Every call of the database and of the queues is fine. -/
def allFine : Outcome where
  now := 0
  fresh := "m-2"
  jobId := "00000000-0000-4000-8000-00000000000c"
  scheduling := Scheduler.callsWith .done
  execution := { Scheduler.completeThrows with complete := .done }
  cancelling := { lookup := true, save := .done, removal := fun _ => .fine }
  health := { select := true, set := .done, get := true, message := .undefined }

section Schedules

variable {E : Env} {s₀ s s' : Sys} {es : List Event}

/-- A request stored the row: it is there after the request was handled, and was not
before. -/
structure StoredBy (E : Env) (s₀ : Sys) (es : List Event) (row : Scheduler.Schedule)
    (r : RequestId) (o : Outcome) (request : Request) (payload : Auth.JwtPayload) : Prop where
  handled : ∃ s s', HandledFor E s₀ es r o request payload s ∧
    (machine E).step s (.handle r o) = some s' ∧
    row ∉ s.data.scheduler.schedules.rows ∧ row ∈ s'.data.scheduler.schedules.rows
  internal : request.route.isInternal = true

/-- Where a row of `schedules` comes from: it is one of the start, or a request stored
it well formed; since then at most deactivated. -/
def Accounted (E : Env) (s₀ : Sys) (es : List Event) (row : Scheduler.Schedule) : Prop :=
  (∃ row₀ ∈ s₀.data.scheduler.schedules.rows, row₀.Becomes row) ∨
    ∃ row₀ r o request payload, StoredBy E s₀ es row₀ r o request payload ∧
      Scheduler.WellFormed o.now row₀ ∧ row₀.Becomes row

theorem Accounted.append {row : Scheduler.Schedule} (h : Accounted E s₀ es row) (e : Event) :
    Accounted E s₀ (es ++ [e]) row := by
  rcases h with hold | ⟨row₀, r, o, request, payload, hstored, hwell, hbecomes⟩
  · exact .inl hold
  · obtain ⟨s₁, s₂, hhandled, hrest⟩ := hstored.handled
    exact .inr ⟨row₀, r, o, request, payload,
      ⟨⟨s₁, s₂, hhandled.append e, hrest⟩, hstored.internal⟩, hwell, hbecomes⟩

theorem Accounted.becomes {row row' : Scheduler.Schedule} (h : Accounted E s₀ es row)
    (hbecomes : row.Becomes row') : Accounted E s₀ es row' := by
  rcases h with ⟨row₀, hrow₀, hold⟩ | ⟨row₀, r, o, request, payload, hstored, hwell, hold⟩
  · exact .inl ⟨row₀, hrow₀, hold.trans hbecomes⟩
  · exact .inr ⟨row₀, r, o, request, payload, hstored, hwell, hold.trans hbecomes⟩

/-- The routes of messages leave the schedules alone. -/
theorem handle_schedules {o : Outcome} {d : Data} {request : Request}
    (hinternal : request.route.isInternal = false) (user : Option Auth.User) :
    (handle E o d request user).1.scheduler = d.scheduler := by
  cases hroute : request.route with
  | jobs route =>
    rw [hroute] at hinternal
    cases hinternal
  | health route =>
    rw [handle_health hroute]
    exact (handleHealth_spec o d route).1.scheduler
  | messages route =>
    unfold handle
    rw [hinternal, hroute]
    dsimp only [Bool.false_and]
    cases currentUser user with
    | none => rfl
    | some userId =>
      show (handleMessages E o d route userId).1.scheduler = d.scheduler
      unfold handleMessages
      split
      · rfl
      · split <;> rfl

/-- **Step lemma.** -/
theorem accounted_step (hempty : E.isISO8601 "" = false) (h₀ : Initial s₀)
    (h : (machine E).exec s₀ es = some s)
    (hs : ∀ row ∈ s.data.scheduler.schedules.rows, Accounted E s₀ es row) {e : Event}
    (hstep : step E s e = some s') :
    ∀ row ∈ s'.data.scheduler.schedules.rows, Accounted E s₀ (es ++ [e]) row := by
  intro row hrow
  cases step_spec hstep with
  | auth => exact (hs row hrow).append _
  | arrive => exact (hs row hrow).append _
  | @handle r o request call hrequest hcall hnew hphase hfresh =>
    by_cases hinternal : request.route.isInternal = true
    · by_cases hallowed : internalAllowed E request = true
      · by_cases hold : row ∈ s.data.scheduler.schedules.rows
        · exact (hs row hold).append _
        · rcases oldOrWellFormed_handle hempty request call.user row hrow with
            ⟨row₀, hrow₀, hbecomes⟩ | hwell
          · exact ((hs row₀ hrow₀).becomes hbecomes).append _
          · have hroute : request.route.controllerIsPublic = none := by
              cases hr : request.route with
              | jobs route => rfl
              | messages route | health route => simp [hr, Route.isInternal] at hinternal
            obtain ⟨payload, hentitled, -⟩ := entitled_of_resolved h₀ h hrequest hcall hphase
              hroute fun _ => hallowed
            -- the row is there after this step, and was not before
            have hhandled := handledFor_last h hrequest hentitled o
            exact .inr ⟨row, r, o, request, payload,
              ⟨⟨s, _, hhandled, hstep, hold, hrow⟩, hinternal⟩, hwell, .rfl⟩
      · have hrefused := handle_refused (o := o) (d := s.data) hinternal (by simpa using hallowed)
          call.user
        refine (hs row ?_).append _
        have hrow' : row ∈ (handle E o s.data request call.user).1.scheduler.schedules.rows := hrow
        rw [hrefused] at hrow'
        exact hrow'
    · have hsame : (handle E o s.data request call.user).1.scheduler = s.data.scheduler :=
        handle_schedules (by simpa using hinternal) call.user
      refine (hs row ?_).append _
      rw [← hsame]
      exact hrow

/-- **Every schedule is sound.** Whoever wrote to the scheduler over HTTP, in whatever
order: a row of `schedules` is one of the start, or one that the handling of a request
stored well formed, and is at most deactivated since; that request had a verified token
and the token of the peers. -/
theorem schedules_wellFormed_over_http (hempty : E.isISO8601 "" = false) (h₀ : Initial s₀)
    (h : (machine E).exec s₀ es = some s) :
    ∀ row ∈ s.data.scheduler.schedules.rows, Accounted E s₀ es row :=
  Machine.exec_history
    (I := fun es s => ∀ row ∈ s.data.scheduler.schedules.rows, Accounted E s₀ es row)
    (fun _ _ _ _ hexec hs hstep => accounted_step hempty h₀ hexec hs hstep) h
    fun row hrow => .inl ⟨row, hrow, .rfl⟩

end Schedules

/-- Every minute, for the job there is. -/
def everyMinute : Route :=
  .jobs (.scheduleJob Scheduler.cleanupJob.id
    { Scheduler.bareDto Scheduler.cleanupJob .interval with intervalSeconds := .num (.fin 60) })

theorem schedules_wellFormed_over_http_everyMinute : ∃ s row,
    (machine oneClient).exec atRest (passing everyMinute ++ [.handle 0 allFine]) = some s ∧
      row ∈ s.data.scheduler.schedules.rows ∧ row.intervalSeconds = some 60 ∧
        Accounted oneClient atRest (passing everyMinute ++ [.handle 0 allFine]) row := by
  obtain ⟨s, hexec, hlength⟩ : ∃ s,
      (machine oneClient).exec atRest (passing everyMinute ++ [.handle 0 allFine]) = some s ∧
        s.data.scheduler.schedules.rows.map Scheduler.Schedule.intervalSeconds = [some 60] :=
    ⟨_, rfl, rfl⟩
  obtain ⟨row, hrow, hinterval⟩ : ∃ row ∈ s.data.scheduler.schedules.rows,
      row.intervalSeconds = some 60 := by
    have hmem : some 60 ∈ s.data.scheduler.schedules.rows.map
        Scheduler.Schedule.intervalSeconds := by
      rw [hlength]
      exact List.mem_singleton.mpr rfl
    exact List.mem_map.mp hmem
  exact ⟨s, row, hexec, hrow, hinterval,
    schedules_wellFormed_over_http rfl initial_atRest hexec row hrow⟩

/-! ## Whose messages -/

section Isolation

variable {E : Env} {s₀ s s' : Sys} {es : List Event} {o : Outcome} {r : RequestId}
  {request : Request} {payload : Auth.JwtPayload}

/-- The service of the messages, as its users see it. -/
abbrev messages (E : Env) := Messages.service E.uuids E.platform

/-- A request made the call, for the user of its token. -/
structure MadeBy (E : Env) (s₀ : Sys) (es : List Event) (c : Messages.Call) (r : RequestId)
    (o : Outcome) (request : Request) (payload : Auth.JwtPayload) (s : Sys) : Prop where
  handled : HandledFor E s₀ es r o request payload s
  call : callOf E o request (some (Auth.userOf payload)) = some c
  user : ∃ text, payload.sub = .str text ∧ c.userId = .val text

/-- What has been served so far is a run of the service, and a request made every call
in it for the user of its token. -/
structure Served (E : Env) (s₀ : Sys) (es : List Event) (s : Sys) : Prop where
  table : s.data.messages = (messages E).final s₀.data.messages (s.served.map Prod.fst)
  allowed : (messages E).Allowed Messages.Kept s₀.data.messages (s.served.map Prod.fst)
  replies : ∀ user, (messages E).replies user s₀.data.messages (s.served.map Prod.fst) =
    (s.served.filter fun c => c.1.owner E.uuids = user).map Prod.snd
  users : ∀ c ∈ s.served, ∃ r o request payload s₁, MadeBy E s₀ es c.1 r o request payload s₁

theorem handle_without_user {d : Data} {user : Option Auth.User} {route : MessagesRoute}
    (hroute : request.route = .messages route) (huser : currentUser user = none) :
    handle E o d request user = (d, .unauthorized) := by
  simp [handle, hroute, Route.isInternal, huser]

theorem handle_for_user {d : Data} {user : Option Auth.User} {route : MessagesRoute}
    {userId : Js.Value} (hroute : request.route = .messages route)
    (huser : currentUser user = some userId) :
    handle E o d request user = handleMessages E o d route userId := by
  simp [handle, hroute, Route.isInternal, huser]

variable (E o request) in
/-- A handled request makes one call of the service, or leaves the messages alone. -/
theorem handle_messages (d : Data) (user : Option Auth.User) :
    (callOf E o request user = none ∧ (handle E o d request user).1.messages = d.messages) ∨
      ∃ call userId, callOf E o request user = some call ∧ call.userId = .val userId ∧
        currentUser user = some (.str userId) ∧ request.route.controllerIsPublic = none ∧
        (handle E o d request user).1.messages =
          (Messages.perform E.uuids E.platform d.messages call).1 := by
  cases hroute : request.route with
  | health route =>
    refine .inl ⟨by simp [callOf, hroute], ?_⟩
    rw [handle_health hroute]
    exact (handleHealth_spec o d route).1.messages
  | jobs route =>
    refine .inl ⟨by simp [callOf, hroute], ?_⟩
    simp only [handle, hroute, Route.isInternal, Bool.true_and]
    split
    · rfl
    · exact handleJobs_messages E o d route
  | messages route =>
    cases huser : currentUser user with
    | none =>
      refine .inl ⟨by simp [callOf, hroute, huser], ?_⟩
      rw [handle_without_user hroute huser]
    | some value =>
      rw [handle_for_user hroute huser]
      cases hoperation : route.operation E o.fresh with
      | none =>
        refine .inl ⟨by simp [callOf, hroute, huser, hoperation], ?_⟩
        simp [handleMessages, hoperation]
      | some operation =>
        cases value with
        | str userId =>
          refine .inr ⟨⟨.val userId, o.now, operation⟩, userId, ?_, rfl, rfl, ?_, ?_⟩
          · simp [callOf, hroute, huser, hoperation]
          · rfl
          · simp [handleMessages, hoperation]
        | _ =>
          refine .inl ⟨by simp [callOf, hroute, huser], ?_⟩
          simp [handleMessages, hoperation]

/-- `CurrentUser` gives the subject of the token, where that is set. -/
theorem sub_of_currentUser {userId : Js.Value}
    (h : currentUser (some (Auth.userOf payload)) = some userId) : payload.sub = userId := by
  unfold currentUser Auth.userOf at h
  by_cases htruthy : payload.sub.truthy = true
  · simpa [htruthy] using h
  · simp [htruthy] at h

theorem isFresh_of_callFresh {t : Messages.Table} {call : Messages.Call}
    (h : callFresh t (some call) = true) : call.isFresh t := by
  obtain ⟨userId, now, operation⟩ := call
  cases operation with
  | create fresh dto => exact Option.isNone_iff_eq_none.mp h
  | _ => exact trivial

/-- Who is let through to the messages has a token, for the user of the call. -/
theorem entitled_of_call (h₀ : Initial s₀) (h : (machine E).exec s₀ es = some s) {r : RequestId}
    {call : Auth.Call} {made : Messages.Call} {userId : String}
    (hrequest : s.requests r = some request) (hcall : s.auth.calls r = some call)
    (hphase : call.phase = .resolved) (hroute : request.route.controllerIsPublic = none)
    (hmade : callOf E o request call.user = some made)
    (hcurrent : currentUser call.user = some (.str userId)) :
    ∃ payload, Entitled E s₀ es r request payload ∧ call.user = some (Auth.userOf payload) ∧
      payload.sub = .str userId := by
  have hexternal : request.route.isInternal = true → internalAllowed E request = true := by
    intro hinternal
    -- the routes of messages are not internal
    cases hr : request.route with
    | messages route =>
      rw [hr] at hinternal
      cases hinternal
    | jobs route => simp [callOf, hr] at hmade
    | health route => simp [callOf, hr] at hmade
  obtain ⟨payload, hentitled, huser⟩ :=
    entitled_of_resolved h₀ h hrequest hcall hphase hroute hexternal
  rw [huser] at hcurrent
  exact ⟨payload, hentitled, huser, sub_of_currentUser hcurrent⟩

/-- **History.** -/
theorem served_step (h₀ : Initial s₀) (h : (machine E).exec s₀ es = some s)
    (hs : Served E s₀ es s) {e : Event} (hstep : step E s e = some s') :
    Served E s₀ (es ++ [e]) s' := by
  have husers : ∀ c ∈ s.served, ∃ r o request payload s₁,
      MadeBy E s₀ (es ++ [e]) c.1 r o request payload s₁ := by
    intro c hc
    obtain ⟨r, o, request, payload, s₁, hmade⟩ := hs.users c hc
    exact ⟨r, o, request, payload, s₁, hmade.handled.append e, hmade.call, hmade.user⟩
  cases step_spec hstep with
  | auth => exact ⟨hs.table, hs.allowed, hs.replies, husers⟩
  | arrive => exact ⟨hs.table, hs.allowed, hs.replies, husers⟩
  | @handle r o request call hrequest hcall hnew hphase hfresh =>
    rcases handle_messages E o request s.data call.user with
      ⟨hnone, hsame⟩ | ⟨made, userId, hsome, hmade, hcurrent, hroute, hperform⟩
    · have hserved : s.served ++ servedOf E o s.data.messages request call.user = s.served := by
        simp [servedOf, hnone]
      constructor
      · simp only [hserved, hsame]
        exact hs.table
      · simpa only [hserved] using hs.allowed
      · simpa only [hserved] using hs.replies
      · simpa only [hserved] using husers
    · -- the call is one of the service, in the state it has come to
      have hserved : s.served ++ servedOf E o s.data.messages request call.user = s.served ++
          [(made, (Messages.perform E.uuids E.platform s.data.messages made).2)] := by
        simp [servedOf, hsome]
      rw [hsome] at hfresh
      have hkept : Messages.Kept s.data.messages made := by
        refine ⟨isFresh_of_callFresh hfresh, ?_⟩
        obtain ⟨_, now, operation⟩ := made
        obtain rfl := hmade
        cases operation <;> rfl
      obtain ⟨payload, hentitled, huser, hsub⟩ :=
        entitled_of_call h₀ h hrequest hcall hphase hroute hsome hcurrent
      constructor
      · simp only [hserved, hperform, List.map_append, List.map_cons, List.map_nil]
        rw [Noninterference.Service.final_append, ← hs.table]
        rfl
      · simp only [hserved, List.map_append, List.map_cons, List.map_nil]
        refine Noninterference.Service.allowed_append hs.allowed ?_
        rw [← hs.table]
        exact hkept
      · intro user
        simp only [hserved, List.map_append, List.map_cons, List.map_nil, List.filter_append]
        rw [Noninterference.Service.replies_append, hs.replies, ← hs.table]
        refine congrArg (_ ++ ·) ?_
        show (if made.owner E.uuids = user then _ else []) = _
        by_cases howner : made.owner E.uuids = user
        · rw [if_pos howner, List.filter_cons_of_pos (by simpa using howner)]
          rfl
        · rw [if_neg howner, List.filter_cons_of_neg (by simpa using howner)]
          rfl
      · intro c hc
        simp only [hserved, List.mem_append, List.mem_singleton] at hc
        rcases hc with hc | rfl
        · exact husers c hc
        · refine ⟨r, o, request, payload, s, handledFor_last h hrequest hentitled o, ?_,
            userId, hsub, hmade⟩
          rw [← huser]
          exact hsome

theorem served_of_exec (h₀ : Initial s₀) (h : (machine E).exec s₀ es = some s) :
    Served E s₀ es s := by
  have hstart : Served E s₀ [] s₀ := by
    constructor
    · rw [h₀.served]
      rfl
    · rw [h₀.served]
      exact trivial
    · intro user
      rw [h₀.served]
      rfl
    · intro c hc
      rw [h₀.served] at hc
      cases hc
  exact Machine.exec_history (fun _ _ _ _ hexec hs hstep => served_step h₀ hexec hs hstep) h
    hstart

/-- **Users are isolated over HTTP.** Each call the service gets is made by a request
that was handled, for the user of its token, so the list of everybody's messages is out
of reach: whatever requests came, every user got the replies, and is left the messages,
of a run of that user's calls alone. -/
theorem users_isolated_over_http (h₀ : Initial s₀) (h : (machine E).exec s₀ es = some s) :
    (∀ c ∈ s.served, ∃ r o request payload s₁, MadeBy E s₀ es c.1 r o request payload s₁) ∧
    ∀ (user : Option Messages.Id) (t : Messages.Table),
      Messages.ownedBy user s₀.data.messages = Messages.ownedBy user t →
      (messages E).Allowed Messages.Kept t ((messages E).purge user (s.served.map Prod.fst)) →
      (s.served.filter fun c => c.1.owner E.uuids = user).map Prod.snd =
          (messages E).replies user t ((messages E).purge user (s.served.map Prod.fst)) ∧
        Messages.ownedBy user s.data.messages = Messages.ownedBy user
          ((messages E).final t ((messages E).purge user (s.served.map Prod.fst))) := by
  have hs := served_of_exec h₀ h
  refine ⟨hs.users, fun user t hsame hallowed => ?_⟩
  rw [← hs.replies, hs.table]
  exact (Messages.isolates E.uuids E.platform).noninterference hs.allowed hallowed hsame

end Isolation

/-- The user of the token lists the messages, and gets what it would get alone. -/
theorem users_isolated_over_http_listing : ∃ s,
    (machine oneClient).exec atRest (passing (.messages .findAll) ++ [.handle 0 allFine]) = some s ∧
      s.served.length = 1 ∧
      (s.served.filter fun c => c.1.owner Messages.plainIds = some "user-uuid-1").map Prod.snd =
        (messages oneClient).replies (some "user-uuid-1") Messages.someTable
          ((messages oneClient).purge (some "user-uuid-1") (s.served.map Prod.fst)) := by
  obtain ⟨s, hexec, hserved⟩ : ∃ s,
      (machine oneClient).exec atRest (passing (.messages .findAll) ++ [.handle 0 allFine]) =
          some s ∧
        s.served.map Prod.fst = [⟨.val "user-uuid-1", 0, .findAllByUser⟩] := ⟨_, rfl, rfl⟩
  refine ⟨s, hexec, ?_, ?_⟩
  · have hlength := congrArg List.length hserved
    simpa using hlength
  · refine ((users_isolated_over_http initial_atRest hexec).2 (some "user-uuid-1")
      Messages.someTable rfl ?_).1
    rw [hserved]
    exact ⟨⟨trivial, rfl⟩, trivial⟩

end SchedulingService.Http
