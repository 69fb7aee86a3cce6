import SchedulingService.Http.System
import SchedulingService.Messages.Authorship

/-!
# From the bearer token to the messaging service

The guard, the requests on messages and the ticks of all pods as one system. Nothing
is one step here that the code awaits: a request is guarded while keys are loaded
and tokens are revoked, its handler reads and saves while ticks claim and send.

Seen from the guard it is the system over HTTP in which no request is handled yet
(`http_exec`), seen from the messages it is the interleaving system (`Traced`). The
two have a clock each, and nothing here compares them.

Main result: `sent_posted` — whatever is stored or sent was posted by its owner, in
a request whose token verified.
-/

namespace SchedulingService.EndToEnd

open Js Http
open Auth (RequestId)

structure Sys where
  auth : Auth.Sys
  requests : RequestId → Option Request
  messages : Messages.Sys
  /-- The steps of ticks and service calls so far. -/
  taken : List Messages.Event

inductive Event
  /-- Something happens to the guard that is no new request. -/
  | auth (e : Auth.Event)
  | arrive (r : RequestId) (request : Request)
  /-- The handler of a request begins. -/
  | begin (r : RequestId)
  /-- A step of a tick, or of a service call that goes on. -/
  | messages (e : Messages.Event)

/-- The first step of the service call of a request: a creation is checked, or the
message is looked up for its user. There is none where a pipe or the database
refuses a parameter, and a request that only reads is left out. -/
def firstStep (E : Env) (r : RequestId) (route : MessagesRoute) (user : String) :
    Option Messages.Event := do
  let userId ← E.uuids.read user
  match route with
  | .create body =>
    let dto ← body.accepted E.conversion E.validators E.platform.newDate
    let conversationId ← E.uuids.read dto.conversationId
    some (.create r (.val userId) { dto with conversationId })
  | .update id body =>
    if E.parseUuid id then
      let dto ← body.accepted E.conversion E.platform.newDate
      let i ← E.uuids.read id
      some (.find r i (.val userId) (.update dto))
    else none
  | .cancel id =>
    if E.parseUuid id then
      let i ← E.uuids.read id
      some (.find r i (.val userId) .cancel)
    else none
  | .findAll => none
  | .findOne _ => none

/-- What the handler of `request` begins with, on a route of messages whose
`CurrentUser` is a text. -/
def begins (E : Env) (r : RequestId) (request : Request) (user : Option Auth.User) :
    Option Messages.Event :=
  match request.route, currentUser user with
  | .messages route, some (.str userId) => firstStep E r route userId
  | _, _ => none

/-- A service call begins with it. -/
def isFirst : Messages.Event → Bool
  | .create _ _ _ => true
  | .find _ _ _ _ => true
  | _ => false

/-- A step of the messages. -/
def stepMessages (E : Env) (s : Sys) (e : Messages.Event) : Option Sys :=
  (Messages.step E.platform s.messages e).map fun messages =>
    { s with messages, taken := s.taken ++ [e] }

/-- One event; `none` where it cannot happen. -/
def step (E : Env) (s : Sys) : Event → Option Sys
  | .auth (.canActivate _ _) => none
  | .auth e => (Auth.step E.auth s.auth e).map fun auth => { s with auth }
  | .arrive r request =>
    (Auth.step E.auth s.auth (.canActivate r request.guarded)).map fun auth =>
      { s with auth, requests := Function.update s.requests r (some request) }
  | .begin r =>
    match s.requests r, s.auth.calls r with
    | some request, some call =>
      match call.phase with
      | .resolved => (begins E r request call.user).bind (stepMessages E s)
      | _ => none
    | _, _ => none
  | .messages e => if isFirst e then none else stepMessages E s e

structure Initial (s : Sys) : Prop where
  auth : (∃ now, s.auth.jwks = .start now) ∧ s.auth.calls = fun _ => none
  requests : s.requests = fun _ => none
  messages : Messages.Init s.messages
  taken : s.taken = []

def machine (E : Env) : Machine Sys Event where
  Init := Initial
  step := step E

/-! ## What a step does -/

/-- What the guard sees of an event. -/
def Event.http : Event → Option Http.Event
  | .auth e => some (.auth e)
  | .arrive r request => some (.arrive r request)
  | .begin _ => none
  | .messages _ => none

/-- What the guard sees of the state: nothing is stored and nobody is answered. -/
def Sys.http (s : Sys) : Http.Sys where
  auth := s.auth
  data :=
    { messages := ⟨[], List.nodup_nil⟩
      scheduler :=
        { categories := []
          jobs := ⟨[], List.nodup_nil⟩
          schedules := ⟨[], List.nodup_nil⟩
          queues _ := [] }
      executions := []
      cache _ := .undefined }
  requests := s.requests
  answers _ := none
  served := []

section Steps

variable {E : Env} {s₀ s s' : Sys} {es : List Event} {e : Event}

/-- A step of the messages that is allowed now. -/
structure Moves (E : Env) (s : Sys) (e : Event) (f : Messages.Event) (s' : Sys) : Prop where
  auth : s'.auth = s.auth
  requests : s'.requests = s.requests
  messages : Messages.step E.platform s.messages f = some s'.messages
  taken : s'.taken = s.taken ++ [f]
  /-- A service call begins for a request that was let through. -/
  first : isFirst f = true → ∃ r request call, s.requests r = some request ∧
    s.auth.calls r = some call ∧ call.phase = .resolved ∧ begins E r request call.user = some f
  other : isFirst f = false → e = .messages f

theorem moves_of_stepMessages {f : Messages.Event} (h : stepMessages E s f = some s')
    (hfirst : isFirst f = true → ∃ r request call, s.requests r = some request ∧
      s.auth.calls r = some call ∧ call.phase = .resolved ∧ begins E r request call.user = some f)
    (hother : isFirst f = false → e = .messages f) : Moves E s e f s' := by
  simp only [stepMessages, Option.map_eq_some_iff] at h
  obtain ⟨messages, hstep, rfl⟩ := h
  exact ⟨rfl, rfl, hstep, rfl, hfirst, hother⟩

theorem isFirst_of_begins {r : RequestId} {request : Request} {user : Option Auth.User}
    {f : Messages.Event} (h : begins E r request user = some f) : isFirst f = true := by
  unfold begins at h
  split at h
  · rename_i route userId hroute huser
    cases hr : E.uuids.read userId with
    | none => simp [firstStep, hr] at h
    | some u =>
      cases route with
      | create body =>
        simp only [firstStep, hr, Option.bind_eq_bind, Option.bind_some,
          Option.bind_eq_some_iff, Option.some.injEq] at h
        obtain ⟨dto, -, conversationId, -, rfl⟩ := h
        rfl
      | update id body =>
        simp only [firstStep, hr, Option.bind_eq_bind, Option.bind_some] at h
        split at h
        · simp only [Option.bind_eq_some_iff, Option.some.injEq] at h
          obtain ⟨dto, -, i, -, rfl⟩ := h
          rfl
        · cases h
      | cancel id =>
        simp only [firstStep, hr, Option.bind_eq_bind, Option.bind_some] at h
        split at h
        · simp only [Option.bind_eq_some_iff, Option.some.injEq] at h
          obtain ⟨i, -, rfl⟩ := h
          rfl
        · cases h
      | findAll => simp [firstStep] at h
      | findOne id => simp [firstStep] at h
  · cases h

/-- A step is one of the guard, or one of the messages. -/
theorem step_cases (h : step E s e = some s') :
    (∃ f, e.http = some f ∧ (Http.machine E).step s.http f = some s'.http ∧
      s'.messages = s.messages ∧ s'.taken = s.taken) ∨
    (e.http = none ∧ ∃ f, Moves E s e f s') := by
  cases e with
  | auth e =>
    left
    cases e with
    | canActivate r request => cases h
    | _ =>
      simp only [step, Option.map_eq_some_iff] at h
      obtain ⟨auth, hstep, rfl⟩ := h
      refine ⟨_, rfl, ?_, rfl, rfl⟩
      simp only [Http.machine, Http.step, Sys.http, hstep, Option.map_some]
  | arrive r request =>
    left
    simp only [step, Option.map_eq_some_iff] at h
    obtain ⟨auth, hstep, rfl⟩ := h
    refine ⟨_, rfl, ?_, rfl, rfl⟩
    simp only [Http.machine, Http.step, Sys.http, hstep, Option.map_some]
  | begin r =>
    right
    simp only [step] at h
    split at h
    · rename_i request call hrequest hcall
      split at h
      · rename_i hphase
        obtain ⟨f, hbegins, hstep⟩ := Option.bind_eq_some_iff.mp h
        refine ⟨rfl, f, moves_of_stepMessages hstep (fun _ => ?_) fun hnot => ?_⟩
        · exact ⟨r, request, call, hrequest, hcall, hphase, hbegins⟩
        · rw [isFirst_of_begins hbegins] at hnot
          cases hnot
      · cases h
    · cases h
  | messages f =>
    right
    simp only [step] at h
    split at h
    · cases h
    · rename_i hnot
      exact ⟨rfl, f, moves_of_stepMessages h (fun hfirst => absurd hfirst hnot) fun _ => rfl⟩

/-- **Refinement.** To the guard it is a run over HTTP. -/
theorem http_exec (h : (machine E).exec s₀ es = some s) :
    (Http.machine E).exec s₀.http (es.filterMap Event.http) = some s.http := by
  refine Machine.exec_project Sys.http Event.http (fun s e s' hstep => ?_) h
  rcases step_cases hstep with ⟨f, hview, hfirst, -, -⟩ | ⟨hview, f, hmoves⟩
  · rw [hview]
    exact Machine.exec_cons hfirst []
  · -- it does not see the messages
    have hsame : s'.http = s.http := by
      unfold Sys.http
      rw [hmoves.auth, hmoves.requests]
    rw [hview, hsame]
    rfl

end Steps

/-! ## Who asked for it -/

/-- A request that arrived, and whose token verified for the user `text`. -/
structure Asked (E : Env) (s₀ : Sys) (es : List Event) (r : RequestId) (request : Request)
    (text : String) : Prop where
  arrived : .arrive r request ∈ es
  authenticated : ∃ token pem payload,
    Auth.Authenticated E.auth s₀.auth ((es.filterMap Event.http).filterMap Http.Event.guard) r
      request.guarded token pem payload ∧ payload.sub = .str text

theorem Asked.append {E : Env} {s₀ : Sys} {es : List Event} {r : RequestId} {request : Request}
    {text : String} (h : Asked E s₀ es r request text) (e : Event) :
    Asked E s₀ (es ++ [e]) r request text := by
  obtain ⟨token, pem, payload, hauthenticated, hsub⟩ := h.authenticated
  refine ⟨List.mem_append_left _ h.arrived, token, pem, payload, ?_, hsub⟩
  rw [List.filterMap_append, List.filterMap_append]
  exact hauthenticated.append _

/-- How the run looks from the messages. -/
structure Traced (E : Env) (s₀ : Sys) (es : List Event) (s : Sys) : Prop where
  arrived : ∀ r request, s.requests r = some request → .arrive r request ∈ es
  exec : (Messages.machine E.platform).exec s₀.messages s.taken = some s.messages
  first : ∀ f ∈ s.taken, isFirst f = true → ∃ r request text route,
    Asked E s₀ es r request text ∧ request.route = .messages route ∧
      firstStep E r route text = some f
  other : ∀ f ∈ s.taken, isFirst f = false → .messages f ∈ es

section History

variable {E : Env} {s₀ s s' : Sys} {es : List Event} {e : Event}

theorem initial_http (h₀ : Initial s₀) : Http.Initial s₀.http :=
  ⟨h₀.auth, h₀.requests, rfl, rfl⟩

/-- A handler that begins has a request whose token verified. -/
theorem asked_of_begins (h₀ : Initial s₀) (h : (machine E).exec s₀ es = some s)
    (harrived : ∀ r request, s.requests r = some request → .arrive r request ∈ es)
    {r : RequestId} {request : Request} {call : Auth.Call} {f : Messages.Event}
    (hrequest : s.requests r = some request) (hcall : s.auth.calls r = some call)
    (hphase : call.phase = .resolved) (hbegins : begins E r request call.user = some f) :
    ∃ text route, Asked E s₀ es r request text ∧ request.route = .messages route ∧
      firstStep E r route text = some f := by
  unfold begins at hbegins
  split at hbegins
  · rename_i route text hroute hcurrent
    obtain ⟨token, pem, payload, hauthenticated, huser⟩ :=
      authenticated_of_resolved (s := s.http) (initial_http h₀) (http_exec h) hrequest hcall hphase
        (by rw [hroute]; rfl)
    rw [huser] at hcurrent
    have hsub : payload.sub = .str text := sub_of_currentUser hcurrent
    exact ⟨text, route, ⟨harrived r request hrequest, token, pem, payload, hauthenticated, hsub⟩,
      hroute, hbegins⟩
  · cases hbegins

theorem arrived_step {f : Http.Event} (hview : e.http = some f)
    (hstep : (Http.machine E).step s.http f = some s'.http)
    (harrived : ∀ r request, s.requests r = some request → .arrive r request ∈ es) (r : RequestId)
    (request : Request) (hrequest : s'.requests r = some request) :
    .arrive r request ∈ es ++ [e] := by
  have hrequest' : s'.http.requests r = some request := hrequest
  have hhttp : Http.Step E s.http f s'.http := Http.step_spec hstep
  cases e with
  | auth a =>
    obtain rfl := Option.some.inj hview
    have hsame : s'.http.requests = s.http.requests := by
      generalize s'.http = u at hhttp
      cases hhttp
      rfl
    rw [hsame] at hrequest'
    exact List.mem_append_left _ (harrived r request hrequest')
  | arrive q asked =>
    obtain rfl := Option.some.inj hview
    have hset : s'.http.requests = Function.update s.http.requests q (some asked) := by
      generalize s'.http = u at hhttp
      cases hhttp
      rfl
    by_cases hr : r = q
    · subst hr
      rw [hset, Function.update_self] at hrequest'
      obtain rfl := Option.some.inj hrequest'
      exact List.mem_append_right _ List.mem_cons_self
    · rw [hset, Function.update_of_ne hr] at hrequest'
      exact List.mem_append_left _ (harrived r request hrequest')
  | begin q => cases hview
  | messages f => cases hview

/-- **History.** -/
theorem Traced.step (h₀ : Initial s₀) (h : (machine E).exec s₀ es = some s)
    (hs : Traced E s₀ es s) (hstep : EndToEnd.step E s e = some s') :
    Traced E s₀ (es ++ [e]) s' := by
  have hfirst : ∀ f ∈ s.taken, isFirst f = true → ∃ r request text route,
      Asked E s₀ (es ++ [e]) r request text ∧ request.route = .messages route ∧
        firstStep E r route text = some f := by
    intro f hf hkind
    obtain ⟨r, request, text, route, hasked, hroute, heq⟩ := hs.first f hf hkind
    exact ⟨r, request, text, route, hasked.append e, hroute, heq⟩
  rcases step_cases hstep with ⟨g, hview, hhttp, hmessages, htaken⟩ | ⟨hview, g, hmoves⟩
  · refine ⟨arrived_step hview hhttp hs.arrived, ?_, ?_, ?_⟩
    · rw [hmessages, htaken]
      exact hs.exec
    · rw [htaken]
      exact hfirst
    · intro f hf hkind
      rw [htaken] at hf
      exact List.mem_append_left _ (hs.other f hf hkind)
  · refine ⟨fun r request hrequest => ?_, ?_, ?_, ?_⟩
    · rw [hmoves.requests] at hrequest
      exact List.mem_append_left _ (hs.arrived r request hrequest)
    · rw [hmoves.taken, Machine.exec_append, hs.exec, Option.bind_some]
      have hlast : (Messages.machine E.platform).step s.messages g = some s'.messages :=
        hmoves.messages
      exact Machine.exec_cons hlast []
    · intro f hf hkind
      rw [hmoves.taken, List.mem_append, List.mem_singleton] at hf
      rcases hf with hf | rfl
      · exact hfirst f hf hkind
      · obtain ⟨r, request, call, hrequest, hcall, hphase, hbegins⟩ := hmoves.first hkind
        obtain ⟨text, route, hasked, hroute, heq⟩ :=
          asked_of_begins h₀ h hs.arrived hrequest hcall hphase hbegins
        exact ⟨r, request, text, route, hasked.append e, hroute, heq⟩
    · intro f hf hkind
      rw [hmoves.taken, List.mem_append, List.mem_singleton] at hf
      rcases hf with hf | rfl
      · exact List.mem_append_left _ (hs.other f hf hkind)
      · rw [hmoves.other hkind]
        exact List.mem_append_right _ List.mem_cons_self

theorem traced_of_exec (h₀ : Initial s₀) (h : (machine E).exec s₀ es = some s) :
    Traced E s₀ es s := by
  refine Machine.exec_history (fun es s e s' hexec hs hstep => hs.step h₀ hexec hstep) h ?_
  refine ⟨fun r request hrequest => ?_, ?_, fun f hf => ?_, fun f hf => ?_⟩
  · rw [h₀.requests] at hrequest
    cases hrequest
  · rw [h₀.taken]
    rfl
  · rw [h₀.taken] at hf
    cases hf
  · rw [h₀.taken] at hf
    cases hf

end History

/-! ## What was posted -/

/-- What `user` has posted for message `i` so far: what the message was at the start,
and what the bodies of authenticated requests of that user give once the pipe has
converted them and the database has read their ids. -/
inductive Posted (E : Env) (s₀ : Sys) (es : List Event) (i user : Messages.Id) :
    Messages.Given → Prop
  | start {row : Messages.Row} : s₀.messages.table.get i = some row → row.userId = user →
      Posted E s₀ es i user row.given
  | created {r : RequestId} {request : Request} {text : String} {body : Messages.CreateBody}
      {dto : Messages.CreateScheduledMessageDto} {conversationId : Messages.Id}
      (hasked : Asked E s₀ es r request text) (huser : E.uuids.read text = some user)
      (hroute : request.route = .messages (.create body))
      (hbody : body.accepted E.conversion E.validators E.platform.newDate = some dto)
      (hconversation : E.uuids.read dto.conversationId = some conversationId)
      (hsaved : .messages (.requestSaved r i) ∈ es) :
      Posted E s₀ es i user (Messages.CreateScheduledMessageDto.given E.platform
        { dto with conversationId })
  | updated {r : RequestId} {request : Request} {text id : String} {body : Messages.UpdateBody}
      {dto : Messages.UpdateScheduledMessageDto} (hasked : Asked E s₀ es r request text)
      (huser : E.uuids.read text = some user)
      (hroute : request.route = .messages (.update id body)) (hid : E.uuids.read id = some i)
      (hbody : body.accepted E.conversion E.platform.newDate = some dto) :
      Posted E s₀ es i user (dto.given E.platform)

section Posting

variable {E : Env} {s₀ s : Sys} {es : List Event} {r q : RequestId} {route : MessagesRoute}
  {text : String} {userId : Slot Messages.Id}

/-- A creation begins for a body that was accepted, with its conversation read. -/
theorem of_firstStep_create {dto : Messages.CreateScheduledMessageDto}
    (h : firstStep E r route text = some (.create q userId dto)) :
    ∃ user body dto₀ conversationId, q = r ∧ E.uuids.read text = some user ∧
      userId = .val user ∧ route = .create body ∧
        body.accepted E.conversion E.validators E.platform.newDate = some dto₀ ∧
          E.uuids.read dto₀.conversationId = some conversationId ∧
            dto = { dto₀ with conversationId } := by
  cases hr : E.uuids.read text with
  | none => simp [firstStep, hr] at h
  | some user =>
    cases route with
    | create body =>
      simp only [firstStep, hr, Option.bind_eq_bind, Option.bind_some, Option.bind_eq_some_iff,
        Option.some.injEq] at h
      obtain ⟨dto₀, hbody, conversationId, hconversation, heq⟩ := h
      obtain ⟨rfl, rfl, rfl⟩ := Messages.Event.create.inj heq
      exact ⟨user, body, dto₀, conversationId, rfl, rfl, rfl, rfl, hbody, hconversation, rfl⟩
    | update id body =>
      simp only [firstStep, hr, Option.bind_eq_bind, Option.bind_some] at h
      split at h
      · simp [Option.bind_eq_some_iff] at h
      · cases h
    | cancel id =>
      simp only [firstStep, hr, Option.bind_eq_bind, Option.bind_some] at h
      split at h
      · simp [Option.bind_eq_some_iff] at h
      · cases h
    | findAll => simp [firstStep] at h
    | findOne id => simp [firstStep] at h

/-- And so does an update. -/
theorem of_firstStep_update {i : Messages.Id} {dto : Messages.UpdateScheduledMessageDto}
    (h : firstStep E r route text = some (.find q i userId (.update dto))) :
    ∃ user id body, q = r ∧ E.uuids.read text = some user ∧ userId = .val user ∧
      route = .update id body ∧ E.uuids.read id = some i ∧
        body.accepted E.conversion E.platform.newDate = some dto := by
  cases hr : E.uuids.read text with
  | none => simp [firstStep, hr] at h
  | some user =>
    cases route with
    | create body => simp [firstStep, hr, Option.bind_eq_some_iff] at h
    | update id body =>
      simp only [firstStep, hr, Option.bind_eq_bind, Option.bind_some] at h
      split at h
      · simp only [Option.bind_eq_some_iff, Option.some.injEq] at h
        obtain ⟨dto', hbody, i', hid, heq⟩ := h
        obtain ⟨rfl, rfl, rfl, hchange⟩ := Messages.Event.find.inj heq
        obtain rfl := Messages.Change.update.inj hchange
        exact ⟨user, id, body, rfl, rfl, rfl, rfl, hid, hbody⟩
      · cases h
    | cancel id =>
      simp only [firstStep, hr, Option.bind_eq_bind, Option.bind_some] at h
      split at h
      · simp [Option.bind_eq_some_iff] at h
      · cases h
    | findAll => simp [firstStep] at h
    | findOne id => simp [firstStep] at h

/-- What the messages see given was posted. -/
theorem posted_of_gave (htraced : Traced E s₀ es s) {i user : Messages.Id}
    {g : Messages.Given} (h : Messages.Gave E.platform s₀.messages s.taken i user g) :
    Posted E s₀ es i user g := by
  cases h with
  | start hrow huser => exact .start hrow huser
  | @created q dto hcreate hsaved =>
    obtain ⟨r, request, text, route, hasked, hroute, hfirst⟩ := htraced.first _ hcreate rfl
    obtain ⟨user', body, dto₀, conversationId, rfl, huser, hval, rfl, hbody, hconversation, rfl⟩ :=
      of_firstStep_create hfirst
    obtain rfl := Slot.val.inj hval
    exact .created hasked huser hroute hbody hconversation (htraced.other _ hsaved rfl)
  | @updated q dto hfind =>
    obtain ⟨r, request, text, route, hasked, hroute, hfirst⟩ := htraced.first _ hfind rfl
    obtain ⟨user', id, body, rfl, huser, hval, rfl, hid, hbody⟩ := of_firstStep_update hfirst
    obtain rfl := Slot.val.inj hval
    exact .updated hasked huser hroute hid hbody

/-- **From end to end.** However key loads, revocations, requests and the ticks of
all pods interleave: the conversation, content, metadata and time of a stored message,
and every content and metadata that the messaging service was called with, were there
at the start or came in the body of a request whose token verified, without a mark,
for the message's owner. -/
theorem sent_posted {newDate : String → Date} (hplatform : E.platform = Messages.typeorm newDate)
    (h₀ : Initial s₀) (h : (machine E).exec s₀ es = some s) :
    (∀ i row, s.messages.table.get i = some row →
      row.Authored (Posted E s₀ es i row.userId)) ∧
    ∀ key request time, .called key request time ∈ s.messages.trace →
      ∃ row, s.messages.table.get row.id = some row ∧ key = .val row.id ∧
        request.Authored (Posted E s₀ es row.id row.userId) := by
  have htraced := traced_of_exec h₀ h
  have hexec := htraced.exec
  rw [hplatform] at hexec
  have hall := Messages.authoredIn_of_exec h₀.messages hexec
  have hposted : ∀ i user g,
      Messages.Gave (Messages.typeorm newDate) s₀.messages s.taken i user g →
        Posted E s₀ es i user g := by
    intro i user g hgave
    rw [← hplatform] at hgave
    exact posted_of_gave htraced hgave
  refine ⟨fun i row hrow => ?_, fun key request time hcalled => ?_⟩
  · have hgave := hall.rows i row hrow
    exact hgave.mono (hposted i row.userId)
  · obtain ⟨row, hrow, hkey, hgave⟩ := hall.sent key request time hcalled
    exact ⟨row, hrow, hkey, hgave.mono (hposted row.id row.userId)⟩

end Posting

/-! ## A small run -/

def oneSender : Env := { oneClient with platform := Messages.typeorm fun _ => .ms 60000 }

def nothingStored : Sys where
  auth := Auth.emptyStart
  requests _ := none
  messages := .start 0 ⟨[], List.nodup_nil⟩
  taken := []

theorem initial_nothingStored : Initial nothingStored := by
  have hmessages : Messages.Init nothingStored.messages := by
    refine Messages.init_start 0 fun r hr => ?_
    cases hr
  exact ⟨⟨⟨0, rfl⟩, rfl⟩, rfl, hmessages, rfl⟩

def seeYou : Messages.CreateBody where
  conversationId := .str "c"
  content := .str "see you at nine"
  metadata := .undefined
  scheduledAt := .str "1970-01-01T00:01:00Z"

/-- The keys are loaded, a creation passes the guard and its handler begins. -/
def creating : List Event :=
  [.auth (.jwks .init), .auth (.jwks (.respond 0 true)),
    .auth (.jwks (.body 0 (some (Jwks.oneKey "pem")))),
    .arrive 0 ⟨.messages (.create seeYou), some "Bearer eyJraWQiOiJrZXktMSJ9.payload.sig",
      some "peer"⟩,
    .auth (.verified 0), .auth (.readDevice 0), .auth (.readToken 0), .begin 0]

/-- The message is saved, and a tick calls the messaging service with it. -/
def sending : List Messages.Event :=
  [.requestSaved 0 "m-2", .elapse 60000, .acquire ⟨"pod", 0⟩] ++
    Messages.claimEvents ⟨"pod", 0⟩ 60000 ["m-2"] ["m-2"] ++ [.send ⟨"pod", 0⟩]

theorem sent_posted_seeYou : ∃ s row,
    (machine oneSender).exec nothingStored (creating ++ sending.map .messages) = some s ∧
      s.messages.table.get "m-2" = some row ∧ row.content = "see you at nine" ∧
        row.Authored (Posted oneSender nothingStored (creating ++ sending.map .messages) "m-2"
          row.userId) := by
  obtain ⟨s, row, hexec, hrow, hcontent⟩ : ∃ s row,
      (machine oneSender).exec nothingStored (creating ++ sending.map .messages) = some s ∧
        s.messages.table.get "m-2" = some row ∧ row.content = "see you at nine" :=
    ⟨_, _, rfl, rfl, rfl⟩
  exact ⟨s, row, hexec, hrow, hcontent,
    (sent_posted rfl initial_nothingStored hexec).1 "m-2" row hrow⟩

end SchedulingService.EndToEnd
