import SchedulingService.Messages.Delivery

/-!
# Who writes what

The runs of the service on TypeORM as it is (`typeorm`): the entities that a tick
makes of the rows it claimed carry an id, a content, metadata and a status, and no
more, while the entity of a request is its whole row. So a save of either leaves
alone who a message is from, where it goes and how often it was retried.

Main result: `row_written` — what each step of a run may write to a row, and who asked
for it.
-/

namespace SchedulingService.Messages

open Js

/-- The messages in the hands of a tick, those included that are being claimed. -/
def Phase.messages (P : Platform) : Phase → List ScheduledMessage
  | claiming _ _ raw => raw.map P.materialize
  | sending m rest => m :: rest
  | calling m rest => m :: rest
  | saving m _ rest => m :: rest
  | _ => []

@[simp] theorem Phase.messages_loop (P : Platform) (ms : List ScheduledMessage) :
    (loop ms).messages P = ms := by
  cases ms <;> rfl

theorem afterSave_messages (P : Platform) (site : SaveSite) (rest : List ScheduledMessage) :
    (afterSave site rest).messages P = rest ∨ (afterSave site rest).messages P = [] := by
  unfold afterSave
  split
  · exact .inl (Phase.messages_loop P rest)
  · exact .inr rfl

/-- What TypeORM makes of a claimed row. -/
structure ScheduledMessage.Bare (m : ScheduledMessage) : Prop where
  userId : m.userId = .undefined
  conversationId : m.conversationId = .undefined
  scheduledAt : m.scheduledAt = .undefined
  retryCount : m.retryCount = .undefined
  content : ∃ c, m.content = .val c
  metadata : m.metadata.isDefined = true

/-- The entity says of the row's owner, conversation and retries what the row does. -/
structure ScheduledMessage.Of (m : ScheduledMessage) (r : Row) : Prop where
  id : m.id = .val r.id
  userId : m.userId = .val r.userId
  conversationId : m.conversationId = .val r.conversationId
  retryCount : m.retryCount = .val r.retryCount

/-- The same owner, conversation and number of retries. -/
structure Row.SameOwner (r r' : Row) : Prop where
  id : r'.id = r.id
  userId : r'.userId = r.userId
  conversationId : r'.conversationId = r.conversationId
  retryCount : r'.retryCount = r.retryCount

theorem Row.SameOwner.rfl {r : Row} : r.SameOwner r := ⟨.refl _, .refl _, .refl _, .refl _⟩

theorem Row.SameOwner.trans {r₁ r₂ r₃ : Row} (h : r₁.SameOwner r₂) (h' : r₂.SameOwner r₃) :
    r₁.SameOwner r₃ :=
  ⟨h'.id.trans h.id, h'.userId.trans h.userId, h'.conversationId.trans h.conversationId,
    h'.retryCount.trans h.retryCount⟩

theorem ScheduledMessage.Of.sameOwner {m : ScheduledMessage} {r r' : Row} (h : m.Of r)
    (hsame : r.SameOwner r') : m.Of r' := by
  constructor
  · rw [hsame.id]
    exact h.id
  · rw [hsame.userId]
    exact h.userId
  · rw [hsame.conversationId]
    exact h.conversationId
  · rw [hsame.retryCount]
    exact h.retryCount

/-! ## One save -/

theorem writeColumn_same {α : Type} {old new : α} {v : Slot α}
    (h : writeColumn old v = some new) (hv : v = .undefined ∨ v = .val old) : new = old := by
  rcases hv with rfl | rfl <;> exact (Option.some.inj h).symm

/-- Neither kind of entity writes another owner, conversation or count. -/
theorem save_sameOwner {t t' : Table} {m : ScheduledMessage} (h : save t m = some t') {i : Id}
    {r : Row} (hr : t.get i = some r) (hm : m.Bare ∨ (m.id = .val i → m.Of r)) :
    ∃ r', t'.get i = some r' ∧ r.SameOwner r' := by
  simp only [save, ScheduledMessage.overwrite, Option.bind_eq_bind,
    Option.bind_eq_some_iff, Option.some.injEq] at h
  obtain ⟨id, hid, q, hq, q', ⟨u, hu, c, hc, txt, htxt, at', hat, st, hst, n, hn, rfl⟩, rfl⟩ := h
  by_cases hi : i = id
  · subst hi
    obtain rfl := Option.some.inj (hq.symm.trans hr)
    obtain rfl := Keyed.key_of_get hq
    have hmid : m.id = .val q.id := by
      cases hm : m.id with
      | val i =>
        rw [hm] at hid
        simpa using hid
      | undefined | null => simp [hm, Slot.toOption] at hid
    refine ⟨_, Keyed.get_put_self hq, ?_⟩
    rcases hm with hbare | hof
    · exact ⟨rfl, writeColumn_same hu (.inl hbare.userId),
        writeColumn_same hc (.inl hbare.conversationId),
        writeColumn_same hn (.inl hbare.retryCount)⟩
    · have hof := hof hmid
      exact ⟨rfl, writeColumn_same hu (.inr hof.userId),
        writeColumn_same hc (.inr hof.conversationId), writeColumn_same hn (.inr hof.retryCount)⟩
  · have hne : i ≠ q.id := by rwa [Keyed.key_of_get hq]
    refine ⟨r, ?_, .rfl⟩
    rw [Keyed.get_put_of_ne]
    · exact hr
    · exact hne

/-! ## What is in flight -/

/-- Ticks hold bare entities. -/
def TicksBare (P : Platform) (s : Sys) : Prop := ∀ t, ∀ m ∈ (s.phase t).messages P, m.Bare

/-- A request that is past its read has read the row of its user. -/
def RequestsOwned (es : List Event) (s : Sys) : Prop :=
  ∀ q change m, s.request q = .loaded change m ∨ s.request q = .saving change m →
    ∃ r, s.table.get r.id = some r ∧ m.Of r ∧ .find q r.id (.val r.userId) change ∈ es

theorem bare_materialize (newDate : String → Date) (r : Row) :
    ((typeorm newDate).materialize r).Bare := by
  have h : (typeorm newDate).materialize r = repositoryCreate r.returningAll := rfl
  rw [h, repositoryCreate_returningAll]
  refine ⟨rfl, rfl, rfl, rfl, ⟨_, rfl⟩, ?_⟩
  show (Slot.ofNullable r.metadata).isDefined = true
  cases r.metadata <;> rfl

theorem ScheduledMessage.Bare.status {m : ScheduledMessage} (h : m.Bare)
    (status : Slot ScheduledMessageStatus) : ScheduledMessage.Bare { m with status } :=
  ⟨h.userId, h.conversationId, h.scheduledAt, h.retryCount, h.content, h.metadata⟩

/-- Without a count there is no retry. -/
theorem ScheduledMessage.Bare.onSendError {m : ScheduledMessage} (h : m.Bare) (error : Value) :
    onSendError error m = { m with status := .val .failed } := by
  have hretry : canRetry error m = false := by
    unfold canRetry
    rw [h.retryCount, retryBelowLimit, Bool.and_false]
  unfold Messages.onSendError
  rw [if_neg (by simp [hretry])]

theorem of_ofRow (r : Row) : (ScheduledMessage.ofRow r).Of r := ⟨rfl, rfl, rfl, rfl⟩

theorem ScheduledMessage.Of.apply {P : Platform} {now : Int} {change : Change}
    {m m' : ScheduledMessage} {r : Row} (h : m.Of r) (happly : change.apply P now m = .ok m') :
    m'.Of r := by
  cases change with
  | update dto =>
    obtain ⟨-, -, rfl⟩ := updateMessage_eq_ok.mp happly
    exact ⟨h.id, h.userId, h.conversationId, h.retryCount⟩
  | cancel =>
    obtain ⟨-, rfl⟩ := cancelMessage_spec happly
    exact ⟨h.id, h.userId, h.conversationId, h.retryCount⟩

/-! ## One step -/

section Steps

variable {newDate : String → Date} {s s' : Sys} {es : List Event} {e : Event} {i : Id} {r : Row}

theorem save_of_saved {P : Platform} {t : TickId} {m : ScheduledMessage} {site : SaveSite}
    {rest : List ScheduledMessage} (h : step P s (.saved t) = some s')
    (hph : s.phase t = .saving m site rest) : save s.table m = some s'.table := by
  simp only [step, hph] at h
  split at h
  · rename_i table hsave
    obtain rfl := Option.some.inj h
    exact hsave
  · cases h

theorem save_of_requestSaved {P : Platform} {q : ReqId} {fresh : Id} {change : Change}
    {m : ScheduledMessage} (h : step P s (.requestSaved q fresh) = some s')
    (hreq : s.request q = .saving change m) : save s.table m = some s'.table := by
  simp only [step, hreq] at h
  split at h
  · rename_i table hsave
    obtain rfl := Option.some.inj h
    exact hsave
  · cases h

theorem sameOwner_step {P : Platform} (hticks : TicksBare P s) (hrequests : RequestsOwned es s)
    (h : step P s e = some s') (hr : s.table.get i = some r) :
    ∃ r', s'.table.get i = some r' ∧ r.SameOwner r' := by
  obtain ⟨r', hr', hrow⟩ := row_step (step_spec h) hr
  cases hrow with
  | same => exact ⟨r, hr', .rfl⟩
  | claim hph hi hpending => exact ⟨_, hr', rfl, rfl, rfl, rfl⟩
  | @tick t m site rest _ hph hid hover =>
    have hbare : m.Bare := by
      refine hticks t m ?_
      rw [hph]
      exact List.mem_cons_self
    exact save_sameOwner (save_of_saved h hph) hr (.inl hbare)
  | @owner q fresh change m _ hreq hid hover =>
    refine save_sameOwner (save_of_requestSaved h hreq) hr (.inr fun hmid => ?_)
    -- the row that was read is the one under this id
    obtain ⟨q₀, hq₀, hof, -⟩ := hrequests q change m (.inr hreq)
    obtain rfl : q₀.id = i := Slot.val.inj (hof.id.symm.trans hmid)
    obtain rfl := Option.some.inj (hq₀.symm.trans hr)
    exact hof

/-- What a tick holds after a step it held before, but for the status, or has just
claimed. -/
theorem messages_step (h : step (typeorm newDate) s e = some s') (hticks : ∀ t,
    ∀ m ∈ (s.phase t).messages (typeorm newDate), m.Bare) {t : TickId} {m : ScheduledMessage}
    (hm : m ∈ (s'.phase t).messages (typeorm newDate)) :
    (∃ m₀ ∈ (s.phase t).messages (typeorm newDate), ∃ status, m = { m₀ with status }) ∨
      ∃ r r', Claimed s.table s'.table r r' ∧ m = (typeorm newDate).materialize r' := by
  rcases phase_step (step_spec h) t with hsame | hstep
  · rw [hsame] at hm
    exact .inl ⟨m, hm, m.status, rfl⟩
  · have hold := hticks t
    generalize hp : s.phase t = p at hstep hold
    generalize hp' : s'.phase t = p' at hstep hm
    have hrest : ∀ m₀ rest, m ∈ rest → m ∈ m₀ :: rest := fun m₀ rest => List.mem_cons_of_mem m₀
    cases hstep with
    | @claimRow now i ids raw r r' hi hclaim =>
      rw [Phase.messages, List.map_append, List.mem_append] at hm
      rcases hm with hm | hm
      · exact .inl ⟨m, hm, m.status, rfl⟩
      · exact .inr ⟨r, r', hclaim, List.mem_singleton.mp hm⟩
    | missRow => exact .inl ⟨m, hm, m.status, rfl⟩
    | claimed =>
      rw [Phase.messages_loop] at hm
      exact .inl ⟨m, hm, m.status, rfl⟩
    | send => exact .inl ⟨m, hm, m.status, rfl⟩
    | @ack m₀ rest =>
      rcases List.mem_cons.mp hm with rfl | hm
      · exact .inl ⟨m₀, List.mem_cons_self, _, rfl⟩
      · exact .inl ⟨m, hrest m₀ rest hm, m.status, rfl⟩
    | @sendError error m₀ rest =>
      rcases List.mem_cons.mp hm with rfl | hm
      · exact .inl ⟨m₀, List.mem_cons_self, _, (hold m₀ List.mem_cons_self).onSendError error⟩
      · exact .inl ⟨m, hrest m₀ rest hm, m.status, rfl⟩
    | @saved m₀ site rest =>
      rcases afterSave_messages (typeorm newDate) site rest with hafter | hafter
      · rw [hafter] at hm
        exact .inl ⟨m, hrest m₀ rest hm, m.status, rfl⟩
      · rw [hafter] at hm
        cases hm
    | @saveError error m₀ site rest =>
      cases site with
      | afterSend =>
        rcases List.mem_cons.mp hm with rfl | hm
        · exact .inl ⟨m₀, List.mem_cons_self, _, (hold m₀ List.mem_cons_self).onSendError error⟩
        · exact .inl ⟨m, hrest m₀ rest hm, m.status, rfl⟩
      | onError error' => cases hm
    | _ => cases hm

theorem ticksBare_step (hticks : TicksBare (typeorm newDate) s)
    (h : step (typeorm newDate) s e = some s') : TicksBare (typeorm newDate) s' := by
  intro t m hm
  rcases messages_step h hticks hm with ⟨m₀, hm₀, status, rfl⟩ | ⟨r, r', -, rfl⟩
  · exact (hticks t m₀ hm₀).status status
  · exact bare_materialize newDate r'

/-- What a step did to the request `q`. -/
inductive RequestStep (P : Platform) (s : Sys) (q : ReqId) : Event → Request → Request → Prop
  | create {userId : Slot Id} {dto : CreateScheduledMessageDto} {m : ScheduledMessage} :
      createMessage P s.now userId dto = .ok m →
      RequestStep P s q (.create q userId dto) .idle (.creating m)
  | find {id : Id} {userId : Slot Id} {change : Change} {m : ScheduledMessage} :
      findOwnedOrThrow s.table id userId = .ok m →
      RequestStep P s q (.find q id userId change) .idle (.loaded change m)
  | check {change : Change} {m m' : ScheduledMessage} : change.apply P s.now m = .ok m' →
      RequestStep P s q (.check q) (.loaded change m) (.saving change m')
  | ended {e : Event} {before after : Request} : after = .resolved ∨ after = .rejected →
      RequestStep P s q e before after

theorem request_step_of_update {P : Platform} {q₀ : ReqId} {after : Request}
    (hrequest : s'.request = Function.update s.request q₀ after)
    (h : RequestStep P s q₀ e (s.request q₀) after) (q : ReqId) :
    s'.request q = s.request q ∨ RequestStep P s q e (s.request q) (s'.request q) := by
  by_cases hq : q = q₀
  · subst hq
    right
    rwa [hrequest, Function.update_self]
  · left
    rw [hrequest, Function.update_of_ne hq]

theorem request_step {P : Platform} (hs : Step P s e s') (q : ReqId) :
    s'.request q = s.request q ∨ RequestStep P s q e (s.request q) (s'.request q) := by
  cases hs with
  | create hreq hm => exact request_step_of_update rfl (by rw [hreq]; exact .create hm) q
  | find hreq hm => exact request_step_of_update rfl (by rw [hreq]; exact .find hm) q
  | check hreq hm => exact request_step_of_update rfl (by rw [hreq]; exact .check hm) q
  | createRejected | findRejected | checkRejected | requestError =>
    exact request_step_of_update rfl (.ended (.inr rfl)) q
  | inserted | requestSaved => exact request_step_of_update rfl (.ended (.inl rfl)) q
  | _ => exact .inl rfl

theorem requestsOwned_step {P : Platform} (hticks : TicksBare P s)
    (hrequests : RequestsOwned es s) (h : step P s e = some s') :
    RequestsOwned (es ++ [e]) s' := by
  -- the rows of the requests that were there are still theirs
  have hkept : ∀ q change m, s.request q = .loaded change m ∨ s.request q = .saving change m →
      ∃ r, s'.table.get r.id = some r ∧ m.Of r ∧
        .find q r.id (.val r.userId) change ∈ es ++ [e] := by
    intro q change m hq
    obtain ⟨r, hr, hof, hfind⟩ := hrequests q change m hq
    obtain ⟨r', hr', hsame⟩ := sameOwner_step hticks hrequests h hr
    refine ⟨r', by rw [hsame.id]; exact hr', hof.sameOwner hsame, ?_⟩
    rw [hsame.id, hsame.userId]
    exact List.mem_append_left _ hfind
  intro q change m hq
  rcases request_step (step_spec h) q with hsame | hstep
  · rw [hsame] at hq
    exact hkept q change m hq
  · generalize hbefore : s.request q = before at hstep
    generalize hafter : s'.request q = after at hstep hq
    cases hstep with
    | create hm => rcases hq with hq | hq <;> cases hq
    | @find id userId change' m' hm =>
      obtain ⟨rfl, rfl⟩ : change' = change ∧ m' = m := by
        rcases hq with hq | hq
        · exact Request.loaded.inj hq
        · cases hq
      obtain ⟨r, hr, rfl, rfl⟩ := findOwnedOrThrow_spec hm
      obtain rfl := Keyed.key_of_get hr
      -- reading writes nothing
      have htable : s'.table = s.table := by
        cases step_spec h <;> rfl
      refine ⟨r, by rw [htable]; exact hr, of_ofRow r, ?_⟩
      exact List.mem_append_right _ List.mem_cons_self
    | @check change' m₀ m' hm =>
      obtain ⟨rfl, rfl⟩ : change' = change ∧ m' = m := by
        rcases hq with hq | hq
        · cases hq
        · exact Request.saving.inj hq
      obtain ⟨r, hr, hof, hfind⟩ := hkept q change' m₀ (.inl hbefore)
      exact ⟨r, hr, hof.apply hm, hfind⟩
    | ended hended => rcases hended with rfl | rfl <;> rcases hq with hq | hq <;> cases hq

/-- A tick that saves has sent its message or given it up. -/
def SavesFinal (s : Sys) : Prop :=
  ∀ t m site rest, s.phase t = .saving m site rest →
    m.status = .val .sent ∨ m.status = .val .failed

theorem savesFinal_step (hticks : TicksBare (typeorm newDate) s) (hfinal : SavesFinal s)
    (h : step (typeorm newDate) s e = some s') : SavesFinal s' := by
  intro t m site rest hph
  rcases phase_step (step_spec h) t with hsame | hstep
  · rw [hsame] at hph
    exact hfinal t m site rest hph
  · have hold := hticks t
    rw [hph] at hstep
    generalize s.phase t = p at hstep hold
    -- a saving phase is entered from the call, or from the save that threw
    generalize hp : Phase.saving m site rest = p' at hstep
    cases hstep with
    | ack =>
      obtain ⟨rfl, -, -⟩ := Phase.saving.inj hp
      exact .inl rfl
    | @sendError error m₀ rest₀ =>
      obtain ⟨rfl, -, -⟩ := Phase.saving.inj hp
      rw [(hold m₀ List.mem_cons_self).onSendError error]
      exact .inr rfl
    | @saveError error m₀ site₀ rest₀ =>
      cases site₀ with
      | afterSend =>
        obtain ⟨rfl, -, -⟩ := Phase.saving.inj hp
        rw [(hold m₀ List.mem_cons_self).onSendError error]
        exact .inr rfl
      | onError error' => cases hp
    | @claimed now raw => cases raw <;> cases hp
    | @saved m₀ site₀ rest₀ =>
      unfold afterSave at hp
      split at hp
      · cases rest₀ <;> cases hp
      · cases hp
    | _ => cases hp

/-! ## A run -/

/-- What the runs of the service on TypeORM keep. -/
structure Known (newDate : String → Date) (es : List Event) (s : Sys) : Prop where
  bare : TicksBare (typeorm newDate) s
  final : SavesFinal s
  owned : RequestsOwned es s
  wf : Wf (typeorm newDate) s

theorem known_step (hknown : Known newDate es s) (h : step (typeorm newDate) s e = some s') :
    Known newDate (es ++ [e]) s' where
  bare := ticksBare_step hknown.bare h
  final := savesFinal_step hknown.bare hknown.final h
  owned := requestsOwned_step hknown.bare hknown.owned h
  wf := wf_step hknown.wf (step_spec h)

theorem known_of_exec {s₀ : Sys} (h₀ : Init s₀)
    (h : (machine (typeorm newDate)).exec s₀ es = some s) : Known newDate es s := by
  obtain ⟨-, hphase, -, hrequest, -⟩ := id h₀
  refine Machine.exec_history (fun _ _ _ _ _ hknown hstep => known_step hknown hstep) h
    ⟨?_, ?_, ?_, wf_init h₀⟩
  · intro t m hm
    rw [hphase t] at hm
    cases hm
  · intro t m site rest ht
    rw [hphase t] at ht
    cases ht
  · intro q change m hq
    rw [hrequest q] at hq
    rcases hq with hq | hq <;> cases hq

/-- What a step may make of the row `r` under `i`. -/
inductive Written (es : List Event) (s : Sys) (i : Id) (r r' : Row) : Event → Prop
  | untouched {e : Event} : r' = r → Written es s i r r' e
  | claimed {t : TickId} : r.status = .pending → r' = { r with status := .processing } →
      Written es s i r r' (.claimRow t i)
  /-- A tick that had claimed it saves. -/
  | settled {t : TickId} {content : String} {metadata : Option Metadata}
      {status : ScheduledMessageStatus} : s.Holds t (.val i) →
      (status = .sent ∨ status = .failed) → r' = { r with content, metadata, status } →
      Written es s i r r' (.saved t)
  /-- Its owner had asked for it. -/
  | updated {q : ReqId} {fresh : Id} {dto : UpdateScheduledMessageDto} {content : String}
      {metadata : Option Metadata} {scheduledAt : Int} :
      .find q i (.val r.userId) (.update dto) ∈ es →
      r' = { r with content, metadata, scheduledAt, status := .pending } →
      Written es s i r r' (.requestSaved q fresh)
  | cancelled {q : ReqId} {fresh : Id} {content : String} {metadata : Option Metadata}
      {scheduledAt : Int} : .find q i (.val r.userId) .cancel ∈ es →
      r' = { r with content, metadata, scheduledAt, status := .cancelled } →
      Written es s i r r' (.requestSaved q fresh)

theorem Row.SameOwner.eq_with {r r' : Row} (h : r.SameOwner r') :
    r' = { r with
      content := r'.content
      metadata := r'.metadata
      scheduledAt := r'.scheduledAt
      status := r'.status } := by
  obtain ⟨hid, huser, hconversation, hretry⟩ := h
  cases r'
  simp_all

theorem status_of_gave {P : Platform} {change : Change} {m : ScheduledMessage}
    (h : change.Gave P m) : (∃ dto, change = .update dto ∧ m.status = .val .pending) ∨
      change = .cancel ∧ m.status = .val .cancelled := by
  obtain ⟨now, m₀, happly⟩ := h
  cases change with
  | update dto =>
    have hupdated := updateMessage_spec happly
    exact .inl ⟨dto, rfl, hupdated.status.trans hupdated.wasPending⟩
  | cancel =>
    obtain ⟨-, rfl⟩ := cancelMessage_spec happly
    exact .inr ⟨rfl, rfl⟩

/-- **Who writes what.** On TypeORM as it is, however ticks and requests interleave: no
row is ever lost, nothing changes its owner, its conversation or its count of retries,
only its owner's requests change its time or make it PENDING or CANCELLED, and a tick
only takes it, or leaves it SENT or FAILED. -/
theorem row_written {s₀ : Sys} (h₀ : Init s₀)
    (h : (machine (typeorm newDate)).exec s₀ es = some s)
    (hstep : (machine (typeorm newDate)).step s e = some s') (hr : s.table.get i = some r) :
    ∃ r', s'.table.get i = some r' ∧ Written es s i r r' e := by
  have hknown := known_of_exec h₀ h
  obtain ⟨r', hr', hsame⟩ := sameOwner_step hknown.bare hknown.owned hstep hr
  obtain ⟨r'', hr'', hrow⟩ := row_step (step_spec hstep) hr
  obtain rfl := Option.some.inj (hr'.symm.trans hr'')
  refine ⟨r', hr', ?_⟩
  cases hrow with
  | same => exact .untouched rfl
  | claim hph hi hpending => exact .claimed hpending rfl
  | @tick t m site rest _ hph hid hover =>
    have hbare : m.Bare := by
      refine hknown.bare t m ?_
      rw [hph]
      exact List.mem_cons_self
    have htime : r'.scheduledAt = r.scheduledAt := by
      have hwritten := hover.scheduledAt
      rw [hbare.scheduledAt] at hwritten
      exact (Option.some.inj hwritten).symm
    have hheld : s.Holds t (.val i) := by
      show Slot.val i ∈ (s.phase t).held
      rw [hph, Phase.held, hid]
      exact List.mem_cons_self
    have heq := hsame.eq_with
    rw [htime] at heq
    rcases hknown.final t m site rest hph with hst | hst
    · exact .settled hheld (.inl (hover.status_eq hst)) heq
    · exact .settled hheld (.inr (hover.status_eq hst)) heq
  | @owner q fresh change m _ hreq hid hover =>
    obtain ⟨r₀, hr₀, hof, hfind⟩ := hknown.owned q change m (.inr hreq)
    obtain rfl : r₀.id = i := Slot.val.inj (hof.id.symm.trans hid)
    obtain rfl := Option.some.inj (hr₀.symm.trans hr)
    have heq := hsame.eq_with
    rcases status_of_gave (hknown.wf.changing q change m hreq) with
      ⟨dto, rfl, hst⟩ | ⟨rfl, hst⟩
    · rw [hover.status_eq hst] at heq
      exact .updated hfind heq
    · rw [hover.status_eq hst] at heq
      exact .cancelled hfind heq

end Steps

/-- A tick leaves the message of `dueTable` SENT. -/
theorem row_written_sent : ∃ s s' r r', (machine (typeorm fun _ => .invalid)).exec
      (Sys.start 60000 dueTable) (tickUntilCall ⟨"pod", 0⟩ 60000 ++ [.ack ⟨"pod", 0⟩]) = some s ∧
    (machine (typeorm fun _ => .invalid)).step s (.saved ⟨"pod", 0⟩) = some s' ∧
      s'.table.get "msg-1" = some r' ∧ r'.status = .sent ∧
        Written (tickUntilCall ⟨"pod", 0⟩ 60000 ++ [.ack ⟨"pod", 0⟩]) s "msg-1" r r'
          (.saved ⟨"pod", 0⟩) := by
  obtain ⟨s, s', r, r₁, hexec, hstep, hr, hr₁, hsent⟩ : ∃ s s' r r₁,
      (machine (typeorm fun _ => .invalid)).exec (Sys.start 60000 dueTable)
          (tickUntilCall ⟨"pod", 0⟩ 60000 ++ [.ack ⟨"pod", 0⟩]) = some s ∧
        (machine (typeorm fun _ => .invalid)).step s (.saved ⟨"pod", 0⟩) = some s' ∧
          s.table.get "msg-1" = some r ∧ s'.table.get "msg-1" = some r₁ ∧ r₁.status = .sent :=
    ⟨_, _, _, _, rfl, rfl, rfl, rfl, rfl⟩
  obtain ⟨r', hr', hwritten⟩ := row_written
    (init_start 60000 (show ∀ r ∈ dueTable.rows, _ by decide)) hexec hstep hr
  obtain rfl := Option.some.inj (hr₁.symm.trans hr')
  exact ⟨s, s', r, r₁, hexec, hstep, hr₁, hsent, hwritten⟩

end SchedulingService.Messages
