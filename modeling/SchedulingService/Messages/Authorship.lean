import SchedulingService.Messages.Delivery
import SchedulingService.Messages.Writes

/-!
# Whose words

What a message says is what its owner said: the conversation, content, metadata and
time of a stored row, and every content and metadata handed to the messaging service,
were given for that message by a request of its owner, or were there at the start.
Stale values come back (a save writes what was read), those of somebody else do not.
-/

namespace SchedulingService.Messages

open Js

/-- What an owner gives for a message: the fields of an edit, and the conversation. -/
structure Given extends Edit where
  conversationId : Option Id

/-- What was given for a row that was there at the start. -/
def Row.given (r : Row) : Given where
  toEdit := r.edit
  conversationId := some r.conversationId

/-- What a creation gives. -/
def CreateScheduledMessageDto.given (P : Platform) (dto : CreateScheduledMessageDto) :
    Given where
  content := some dto.content
  metadata := some (metadataOrNull dto.metadata).toOption
  scheduledAt := timestamp (P.newDate dto.scheduledAt)
  conversationId := some dto.conversationId

/-- An update gives no conversation. -/
def UpdateScheduledMessageDto.given (P : Platform) (dto : UpdateScheduledMessageDto) :
    Given where
  toEdit := dto.edit P
  conversationId := none

/-- What `user` has given for message `i` so far. -/
inductive Gave (P : Platform) (s₀ : Sys) (es : List Event) (i user : Id) : Given → Prop
  | start {r : Row} : s₀.table.get i = some r → r.userId = user → Gave P s₀ es i user r.given
  | created {q : ReqId} {dto : CreateScheduledMessageDto} : .create q (.val user) dto ∈ es →
      .requestSaved q i ∈ es → Gave P s₀ es i user (dto.given P)
  | updated {q : ReqId} {dto : UpdateScheduledMessageDto} :
      .find q i (.val user) (.update dto) ∈ es → Gave P s₀ es i user (dto.given P)

theorem Gave.append {P : Platform} {s₀ : Sys} {es : List Event} {i user : Id} {g : Given}
    (h : Gave P s₀ es i user g) (e : Event) : Gave P s₀ (es ++ [e]) i user g := by
  cases h with
  | start hr huser => exact .start hr huser
  | created hcreate hsaved =>
    exact .created (List.mem_append_left _ hcreate) (List.mem_append_left _ hsaved)
  | updated hfind => exact .updated (List.mem_append_left _ hfind)

/-- Each field of the row is one that was given. -/
structure Row.Authored (G : Given → Prop) (r : Row) : Prop where
  conversationId : ∃ g, G g ∧ g.conversationId = some r.conversationId
  content : ∃ g, G g ∧ g.content = some r.content
  metadata : ∃ g, G g ∧ g.metadata = some r.metadata
  scheduledAt : ∃ g, G g ∧ g.scheduledAt = some r.scheduledAt

/-- Each of these properties that the entity carries is. -/
structure ScheduledMessage.Authored (G : Given → Prop) (m : ScheduledMessage) : Prop where
  content : ∀ c, m.content = .val c → ∃ g, G g ∧ g.content = some c
  metadata : m.metadata.isDefined = true → ∃ g, G g ∧ g.metadata = some m.metadata.toOption
  scheduledAt : ∀ d t, m.scheduledAt = .val d → timestamp d = some t →
    ∃ g, G g ∧ g.scheduledAt = some t

/-- What a request to the messaging service carries is. -/
structure SendScheduledMessageRequest.Authored (G : Given → Prop)
    (request : SendScheduledMessageRequest) : Prop where
  content : ∃ g c, G g ∧ g.content = some c ∧ request.content = .val c
  metadata : ∃ g metadata, G g ∧ g.metadata = some metadata ∧
    request.metadata = metadataOrEmpty metadata

section Entities

variable {G G' : Given → Prop} {P : Platform} {m : ScheduledMessage} {r r' : Row}

theorem Row.Authored.mono (hG : ∀ g, G g → G' g) (h : r.Authored G) : r.Authored G' := by
  obtain ⟨⟨b, hb, hb'⟩, ⟨c, hc, hc'⟩, ⟨d, hd, hd'⟩, ⟨t, ht, ht'⟩⟩ := h
  exact ⟨⟨b, hG b hb, hb'⟩, ⟨c, hG c hc, hc'⟩, ⟨d, hG d hd, hd'⟩, ⟨t, hG t ht, ht'⟩⟩

theorem ScheduledMessage.Authored.mono (hG : ∀ g, G g → G' g) (h : m.Authored G) :
    m.Authored G' := by
  refine ⟨fun c hc => ?_, fun hd => ?_, fun d t hd ht => ?_⟩
  · obtain ⟨g, hg, heq⟩ := h.content c hc
    exact ⟨g, hG g hg, heq⟩
  · obtain ⟨g, hg, heq⟩ := h.metadata hd
    exact ⟨g, hG g hg, heq⟩
  · obtain ⟨g, hg, heq⟩ := h.scheduledAt d t hd ht
    exact ⟨g, hG g hg, heq⟩

theorem SendScheduledMessageRequest.Authored.mono {request : SendScheduledMessageRequest}
    (hG : ∀ g, G g → G' g) (h : request.Authored G) : request.Authored G' := by
  obtain ⟨⟨g, c, hg, hc⟩, ⟨g', metadata, hg', hmetadata⟩⟩ := h
  exact ⟨⟨g, c, hG g hg, hc⟩, ⟨g', metadata, hG g' hg', hmetadata⟩⟩

/-- What a save writes is the entity's, and what it leaves the row's. -/
theorem Row.Authored.overwritten (h : r.Authored G) (hm : m.Authored G)
    (hover : Overwritten m r r') (hsame : r.SameOwner r') : r'.Authored G := by
  constructor
  · rw [hsame.conversationId]
    exact h.conversationId
  · have hwritten := hover.content
    cases hc : m.content with
    | undefined =>
      rw [hc] at hwritten
      rw [← Option.some.inj hwritten]
      exact h.content
    | null =>
      rw [hc] at hwritten
      cases hwritten
    | val c =>
      rw [hc] at hwritten
      rw [← Option.some.inj hwritten]
      exact hm.content c hc
  · have hwritten := hover.metadata
    rw [← hwritten]
    cases hd : m.metadata with
    | undefined => exact h.metadata
    | null =>
      have hgiven := hm.metadata (by rw [hd]; rfl)
      rw [hd] at hgiven
      exact hgiven
    | val metadata =>
      have hgiven := hm.metadata (by rw [hd]; rfl)
      rw [hd] at hgiven
      exact hgiven
  · have hwritten := hover.scheduledAt
    cases ht : m.scheduledAt with
    | undefined =>
      rw [ht] at hwritten
      rw [← Option.some.inj hwritten]
      exact h.scheduledAt
    | null =>
      rw [ht] at hwritten
      cases hwritten
    | val d =>
      rw [ht] at hwritten
      exact hm.scheduledAt d _ ht hwritten

theorem Row.Authored.ofRow (h : r.Authored G) : (ScheduledMessage.ofRow r).Authored G := by
  refine ⟨fun c hc => ?_, fun _ => ?_, fun d t hd ht => ?_⟩
  · obtain rfl := Slot.val.inj hc
    exact h.content
  · have hslot : (ScheduledMessage.ofRow r).metadata.toOption = r.metadata := by
      show (Slot.ofNullable r.metadata).toOption = r.metadata
      cases r.metadata <;> rfl
    rw [hslot]
    exact h.metadata
  · obtain rfl := Slot.val.inj hd
    obtain rfl := Option.some.inj ht
    exact h.scheduledAt

theorem Row.Authored.materialize {newDate : String → Date} (h : r.Authored G) :
    ((typeorm newDate).materialize r).Authored G := by
  have heq : (typeorm newDate).materialize r = repositoryCreate r.returningAll := rfl
  rw [heq, repositoryCreate_returningAll]
  have hofRow := h.ofRow
  exact ⟨hofRow.content, hofRow.metadata, fun _ _ hd => by cases hd⟩

theorem ScheduledMessage.Authored.status (h : m.Authored G)
    (status : Slot ScheduledMessageStatus) :
    ScheduledMessage.Authored G { m with status } :=
  ⟨h.content, h.metadata, h.scheduledAt⟩

/-- A request changes what its body gives. -/
theorem ScheduledMessage.Authored.apply {now : Int} {change : Change} {m' : ScheduledMessage}
    (h : m.Authored G) (hG : ∀ dto, change = .update dto → G (dto.given P))
    (happly : change.apply P now m = .ok m') : m'.Authored G := by
  cases change with
  | cancel =>
    obtain ⟨-, rfl⟩ := cancelMessage_spec happly
    exact h.status _
  | update dto =>
    obtain ⟨-, -, rfl⟩ := updateMessage_eq_ok.mp happly
    have hgiven := hG dto rfl
    refine ⟨fun c hc => ?_, fun hd => ?_, fun d t hd ht => ?_⟩
    · by_cases hdefined : dto.content.isDefined = true
      · refine ⟨_, hgiven, ?_⟩
        simp only [hdefined, if_true] at hc
        show dto.content.toOption = some c
        rw [hc]
        rfl
      · simp only [hdefined] at hc
        exact h.content c hc
    · by_cases hdefined : dto.metadata.isDefined = true
      · refine ⟨_, hgiven, ?_⟩
        show (if dto.metadata.isDefined then some dto.metadata.toOption else none) = _
        simp [hdefined]
      · simp only [hdefined] at hd ⊢
        exact h.metadata hd
    · cases hdate : dto.newScheduledAt P with
      | none =>
        rw [hdate] at hd
        exact h.scheduledAt d t hd ht
      | some date =>
        rw [hdate] at hd
        obtain rfl := Slot.val.inj hd
        refine ⟨_, hgiven, ?_⟩
        show (dto.newScheduledAt P).bind timestamp = some t
        rw [hdate, Option.bind_some, ht]

/-- The request to the messaging service carries the entity's content and metadata. -/
theorem ScheduledMessage.Authored.sendRequest (h : m.Authored G) (hbare : m.Bare) :
    (sendRequest m).Authored G := by
  obtain ⟨c, hc⟩ := hbare.content
  obtain ⟨g, hg, heq⟩ := h.content c hc
  obtain ⟨g', hg', heq'⟩ := h.metadata hbare.metadata
  exact ⟨⟨g, c, hg, heq, hc⟩, ⟨g', m.metadata.toOption, hg', heq', rfl⟩⟩

end Entities

/-! ## A run -/

section Runs

variable {newDate : String → Date} {s₀ s s' : Sys} {es : List Event} {e : Event}

/-- What is known by this key is a stored message, and `A` holds of what its owner gave. -/
def Theirs (P : Platform) (s₀ : Sys) (es : List Event) (s : Sys) (key : MsgKey)
    (A : (Given → Prop) → Prop) : Prop :=
  ∃ r, s.table.get r.id = some r ∧ key = .val r.id ∧ A (Gave P s₀ es r.id r.userId)

/-- The row stays, its owner too, and what was given stays given. -/
theorem Theirs.step {P : Platform} {key : MsgKey} {A : (Given → Prop) → Prop}
    (hA : ∀ G G', (∀ g, G g → G' g) → A G → A G') (hticks : TicksBare P s)
    (howned : RequestsOwned es s) (h : step P s e = some s') (htheirs : Theirs P s₀ es s key A) :
    Theirs P s₀ (es ++ [e]) s' key A := by
  obtain ⟨r, hr, hkey, hgiven⟩ := htheirs
  obtain ⟨r', hr', hsame⟩ := sameOwner_step hticks howned h hr
  refine ⟨r', by rw [hsame.id]; exact hr', by rw [hsame.id]; exact hkey, ?_⟩
  rw [hsame.id, hsame.userId]
  exact hA _ _ (fun g hg => hg.append e) hgiven

/-- The row that `Theirs` speaks of. -/
theorem Theirs.of_row {P : Platform} {i : Id} {A : (Given → Prop) → Prop} {r : Row}
    (htheirs : Theirs P s₀ es s (.val i) A) (hr : s.table.get i = some r) :
    A (Gave P s₀ es i r.userId) := by
  obtain ⟨r₀, hr₀, hkey, hgiven⟩ := htheirs
  obtain rfl := Slot.val.inj hkey
  obtain rfl := Option.some.inj (hr₀.symm.trans hr)
  exact hgiven

structure AuthoredIn (newDate : String → Date) (s₀ : Sys) (es : List Event) (s : Sys) :
    Prop where
  rows : ∀ i r, s.table.get i = some r →
    r.Authored (Gave (typeorm newDate) s₀ es i r.userId)
  ticks : ∀ t, ∀ m ∈ (s.phase t).messages (typeorm newDate),
    Theirs (typeorm newDate) s₀ es s m.id fun G => m.Authored G
  requests : ∀ q change m, s.request q = .loaded change m ∨ s.request q = .saving change m →
    Theirs (typeorm newDate) s₀ es s m.id fun G => m.Authored G
  creating : ∀ q m, s.request q = .creating m → ∃ userId dto now,
    .create q userId dto ∈ es ∧ createMessage (typeorm newDate) now userId dto = .ok m
  sent : ∀ key request time, .called key request time ∈ s.trace →
    Theirs (typeorm newDate) s₀ es s key fun G => request.Authored G

theorem insert_of_requestSaved {P : Platform} {q : ReqId} {fresh : Id} {m : ScheduledMessage}
    (h : step P s (.requestSaved q fresh) = some s') (hreq : s.request q = .creating m) :
    ∃ row, insertNew s.table fresh m = some (s'.table, row) := by
  simp only [Messages.step, hreq] at h
  split at h
  · rename_i table row hinsert
    obtain rfl := Option.some.inj h
    exact ⟨row, hinsert⟩
  · cases h

/-- A row that is inserted says what the creation gave. -/
theorem authored_of_insert {P : Platform} {q : ReqId} {fresh : Id} {m : ScheduledMessage}
    {userId : Slot Id} {dto : CreateScheduledMessageDto} {now : Int} {t t' : Table} {row : Row}
    (hm : createMessage P now userId dto = .ok m) (h : insertNew t fresh m = some (t', row))
    (hcreate : .create q userId dto ∈ es) (hsaved : .requestSaved q fresh ∈ es) :
    row.Authored (Gave P s₀ es fresh row.userId) := by
  obtain ⟨-, rfl⟩ := createMessage_spec hm
  simp only [insertNew, newRow, Option.bind_eq_bind, Option.bind_eq_some_iff,
    Option.some.injEq, Prod.mk.injEq] at h
  obtain ⟨row', ⟨u, hu, c, hc, txt, htxt, at', hat, st, hst, n, hn, rfl⟩, t₁, ht, rfl, rfl⟩ := h
  have huser : userId = .val u := by
    cases userId with
    | val v =>
      obtain rfl := Option.some.inj hu
      rfl
    | undefined | null => cases hu
  have hgave : Gave P s₀ es fresh u (dto.given P) := by
    rw [huser] at hcreate
    exact .created hcreate hsaved
  refine ⟨⟨_, hgave, hc⟩, ⟨_, hgave, htxt⟩, ⟨_, hgave, ?_⟩, ⟨_, hgave, ?_⟩⟩
  · show some (metadataOrNull dto.metadata).toOption = some (writeNullable none _)
    cases metadataOrNull dto.metadata <;> rfl
  · obtain ⟨date, hdate, hat⟩ := hat
    obtain rfl := Option.some.inj hdate
    exact hat

theorem rows_step (hknown : Known newDate es s) (hall : AuthoredIn newDate s₀ es s)
    (h : step (typeorm newDate) s e = some s') (i : Id) (r' : Row)
    (hr' : s'.table.get i = some r') :
    r'.Authored (Gave (typeorm newDate) s₀ (es ++ [e]) i r'.userId) := by
  have hgrow : ∀ user g, Gave (typeorm newDate) s₀ es i user g →
      Gave (typeorm newDate) s₀ (es ++ [e]) i user g := fun _ _ hgave => hgave.append e
  cases hr : s.table.get i with
  | none =>
    obtain ⟨q, fresh, m, rfl, hreq, hid, -, -⟩ := row_appears (step_spec h) hr hr'
    obtain ⟨row, hinsert⟩ := insert_of_requestSaved h hreq
    obtain ⟨userId, dto, now, hcreate, hm⟩ := hall.creating q m hreq
    -- the only row that is new is the one that was inserted
    obtain ⟨hfresh, hinserted⟩ := insertNew_spec hinsert
    have hrow : r' = row := by
      have hi : i = row.id := by
        by_contra hne
        have hget := hinserted.after i
        rw [if_neg hne, hr, hr'] at hget
        cases hget
      have hget := hinserted.after i
      rw [if_pos hi, hr'] at hget
      exact Option.some.inj hget
    subst hrow
    obtain rfl : r'.id = i := hid
    rw [hfresh]
    exact authored_of_insert hm hinsert (List.mem_append_left _ hcreate)
      (List.mem_append_right _ List.mem_cons_self)
  | some r =>
    obtain ⟨r'', hr'', hrow⟩ := row_step (step_spec h) hr
    obtain rfl := Option.some.inj (hr'.symm.trans hr'')
    obtain ⟨r₃, hr₃, hsame⟩ := sameOwner_step hknown.bare hknown.owned h hr
    obtain rfl := Option.some.inj (hr'.symm.trans hr₃)
    have hold := hall.rows i r hr
    rw [hsame.userId]
    refine Row.Authored.mono (hgrow r.userId) ?_
    cases hrow with
    | same => exact hold
    | claim hph hi hpending =>
      exact ⟨hold.conversationId, hold.content, hold.metadata, hold.scheduledAt⟩
    | @tick t m site rest _ hph hid hover =>
      have htheirs := hall.ticks t m (by rw [hph]; exact List.mem_cons_self)
      rw [hid] at htheirs
      exact hold.overwritten (htheirs.of_row hr) hover hsame
    | @owner q fresh change m _ hreq hid hover =>
      have htheirs := hall.requests q change m (.inr hreq)
      rw [hid] at htheirs
      exact hold.overwritten (htheirs.of_row hr) hover hsame

/-- An entity stays its owner's. -/
theorem theirs_step (hknown : Known newDate es s) (h : step (typeorm newDate) s e = some s')
    {key : MsgKey} {m : ScheduledMessage}
    (hold : Theirs (typeorm newDate) s₀ es s key fun G => m.Authored G) :
    Theirs (typeorm newDate) s₀ (es ++ [e]) s' key fun G => m.Authored G :=
  hold.step (fun _ _ hG => ScheduledMessage.Authored.mono hG) hknown.bare hknown.owned h

theorem ticks_step (hknown : Known newDate es s) (hall : AuthoredIn newDate s₀ es s)
    (h : step (typeorm newDate) s e = some s') (t : TickId) (m : ScheduledMessage)
    (hm : m ∈ (s'.phase t).messages (typeorm newDate)) :
    Theirs (typeorm newDate) s₀ (es ++ [e]) s' m.id fun G => m.Authored G := by
  rcases messages_step h hknown.bare hm with ⟨m₀, hm₀, status, rfl⟩ | ⟨r, r', hclaim, rfl⟩
  · obtain ⟨r, hr, hkey, hgiven⟩ := theirs_step hknown h (hall.ticks t m₀ hm₀)
    exact ⟨r, hr, hkey, hgiven.status status⟩
  · have hget : s'.table.get r'.id = some r' := by
      rw [hclaim.id_eq]
      exact hclaim.get_self
    have hrow := rows_step hknown hall h r'.id r' hget
    exact ⟨r', hget, (typeorm newDate).materialize_id r', hrow.materialize⟩

theorem requests_step (hknown : Known newDate es s) (hall : AuthoredIn newDate s₀ es s)
    (h : step (typeorm newDate) s e = some s') (q : ReqId) (change : Change)
    (m : ScheduledMessage) (hq : s'.request q = .loaded change m ∨ s'.request q = .saving change m) :
    Theirs (typeorm newDate) s₀ (es ++ [e]) s' m.id fun G => m.Authored G := by
  rcases request_step (step_spec h) q with hsame | hstep
  · rw [hsame] at hq
    exact theirs_step hknown h (hall.requests q change m hq)
  · generalize hbefore : s.request q = before at hstep
    generalize hafter : s'.request q = after at hstep hq
    cases hstep with
    | create hm => rcases hq with hq | hq <;> cases hq
    | @find id userId change' m' hm =>
      obtain ⟨rfl, rfl⟩ : change' = change ∧ m' = m := by
        rcases hq with hq | hq
        · exact Request.loaded.inj hq
        · cases hq
      obtain ⟨r, hr, -, rfl⟩ := findOwnedOrThrow_spec hm
      obtain rfl := Keyed.key_of_get hr
      have htable : s'.table = s.table := by
        cases step_spec h <;> rfl
      have hr' : s'.table.get r.id = some r := by rw [htable, hr]
      exact ⟨r, hr', rfl, (rows_step hknown hall h r.id r hr').ofRow⟩
    | @check change' m₀ m' hm =>
      obtain ⟨rfl, rfl⟩ : change' = change ∧ m' = m := by
        rcases hq with hq | hq
        · cases hq
        · exact Request.saving.inj hq
      obtain ⟨r, hr, hof, hfind⟩ := hknown.owned q change' m₀ (.inl hbefore)
      have hold := hall.requests q change' m₀ (.inl hbefore)
      rw [hof.id] at hold
      have hgiven := hold.of_row hr
      have hkey := (hof.apply hm).id
      rw [hkey]
      refine theirs_step hknown h ⟨r, hr, rfl, hgiven.apply ?_ hm⟩
      rintro dto rfl
      exact .updated hfind
    | ended hended => rcases hended with rfl | rfl <;> rcases hq with hq | hq <;> cases hq

theorem creating_step (hall : AuthoredIn newDate s₀ es s)
    (h : step (typeorm newDate) s e = some s') (q : ReqId) (m : ScheduledMessage)
    (hq : s'.request q = .creating m) : ∃ userId dto now,
      .create q userId dto ∈ es ++ [e] ∧ createMessage (typeorm newDate) now userId dto = .ok m := by
  rcases request_step (step_spec h) q with hsame | hstep
  · rw [hsame] at hq
    obtain ⟨userId, dto, now, hcreate, hm⟩ := hall.creating q m hq
    exact ⟨userId, dto, now, List.mem_append_left _ hcreate, hm⟩
  · rw [hq] at hstep
    generalize s.request q = before at hstep
    generalize hafter : Request.creating m = after at hstep
    cases hstep with
    | create hm =>
      obtain rfl := Request.creating.inj hafter
      exact ⟨_, _, _, List.mem_append_right _ List.mem_cons_self, hm⟩
    | find hm => cases hafter
    | check hm => cases hafter
    | ended hended => rcases hended with rfl | rfl <;> cases hafter

/-- Only a tick that calls the service is observed to. -/
theorem called_step (hknown : Known newDate es s) (hall : AuthoredIn newDate s₀ es s)
    (h : step (typeorm newDate) s e = some s') (key : MsgKey)
    (request : SendScheduledMessageRequest) (time : Int)
    (hcalled : .called key request time ∈ s'.trace) :
    Theirs (typeorm newDate) s₀ (es ++ [e]) s' key fun G => request.Authored G := by
  have hold : .called key request time ∈ s.trace →
      Theirs (typeorm newDate) s₀ (es ++ [e]) s' key fun G => request.Authored G :=
    fun hmem => (hall.sent key request time hmem).step
      (fun _ _ hG => SendScheduledMessageRequest.Authored.mono hG) hknown.bare hknown.owned h
  cases step_spec h with
  | @send t m rest hph =>
    rcases List.mem_cons.mp hcalled with hnew | hmem
    · obtain ⟨rfl, rfl, -⟩ := Obs.called.inj hnew
      have hmem : m ∈ (s.phase t).messages (typeorm newDate) := by
        rw [hph]
        exact List.mem_cons_self
      obtain ⟨r, hr, hkey, hgiven⟩ := theirs_step hknown h (hall.ticks t m hmem)
      exact ⟨r, hr, hkey, hgiven.sendRequest (hknown.bare t m hmem)⟩
    · exact hold hmem
  | ack | inserted =>
    rcases List.mem_cons.mp hcalled with hnew | hmem
    · cases hnew
    · exact hold hmem
  | @requestSaved r fresh change m table row row' hreq hsaved =>
    rcases List.mem_cons.mp hcalled with hnew | hmem
    · cases change <;> cases hnew
    · exact hold hmem
  | _ => exact hold hcalled

/-- **Step lemma.** -/
theorem authoredIn_step (hknown : Known newDate es s) (hall : AuthoredIn newDate s₀ es s)
    (h : step (typeorm newDate) s e = some s') : AuthoredIn newDate s₀ (es ++ [e]) s' where
  rows := rows_step hknown hall h
  ticks := ticks_step hknown hall h
  requests := requests_step hknown hall h
  creating := creating_step hall h
  sent := called_step hknown hall h

theorem authoredIn_of_exec (h₀ : Init s₀)
    (h : (machine (typeorm newDate)).exec s₀ es = some s) : AuthoredIn newDate s₀ es s := by
  have hstart : AuthoredIn newDate s₀ [] s₀ := by
    obtain ⟨-, hphase, -, hrequest, htrace⟩ := id h₀
    refine ⟨?_, ?_, ?_, ?_, ?_⟩
    · intro i r hr
      have hgave : Gave (typeorm newDate) s₀ [] i r.userId r.given := .start hr rfl
      exact ⟨⟨_, hgave, rfl⟩, ⟨_, hgave, rfl⟩, ⟨_, hgave, rfl⟩, ⟨_, hgave, rfl⟩⟩
    · intro t m hm
      rw [hphase t] at hm
      cases hm
    · intro q change m hq
      rw [hrequest q] at hq
      rcases hq with hq | hq <;> cases hq
    · intro q m hq
      rw [hrequest q] at hq
      cases hq
    · intro key request time hcalled
      rw [htrace, List.mem_map] at hcalled
      obtain ⟨r, -, hr⟩ := hcalled
      cases hr
  exact Machine.exec_history (fun _ _ _ _ hexec hs hstep =>
    authoredIn_step (known_of_exec h₀ hexec) hs hstep) h hstart

/-- **Whose words.** However ticks and requests interleave: the conversation, content,
metadata and time of a stored message, and every content and metadata that the
messaging service was called with, were given for that message by its owner. -/
theorem content_authored (h₀ : Init s₀) (h : (machine (typeorm newDate)).exec s₀ es = some s) :
    (∀ i r, s.table.get i = some r →
      r.Authored (Gave (typeorm newDate) s₀ es i r.userId)) ∧
    ∀ key request time, .called key request time ∈ s.trace →
      ∃ r, s.table.get r.id = some r ∧ key = .val r.id ∧
        request.Authored (Gave (typeorm newDate) s₀ es r.id r.userId) := by
  have hall := authoredIn_of_exec h₀ h
  exact ⟨hall.rows, hall.sent⟩

end Runs

/-- The owner of the message of `dueTable` writes another content, and a tick calls the
messaging service with it. -/
def editedThenCalled : List Event :=
  [.find 0 "msg-1" (.val "u") (.update ⟨.val "bye", .undefined, .undefined⟩), .check 0,
    .requestSaved 0 ""] ++ tickUntilCall ⟨"pod", 0⟩ 60000

theorem content_authored_called : ∃ s r request, (machine (typeorm fun _ => .invalid)).exec
      (Sys.start 60000 dueTable) editedThenCalled = some s ∧
    s.table.get "msg-1" = some r ∧ r.content = "bye" ∧
      r.Authored (Gave (typeorm fun _ => .invalid) (Sys.start 60000 dueTable)
        editedThenCalled "msg-1" r.userId) ∧
    .called (.val "msg-1") request 60000 ∈ s.trace ∧ request.content = .val "bye" ∧
      request.Authored (Gave (typeorm fun _ => .invalid) (Sys.start 60000 dueTable)
        editedThenCalled "msg-1" r.userId) := by
  obtain ⟨s, r, request, hexec, hr, hcontent, hcalled, hsent⟩ : ∃ s r request,
      (machine (typeorm fun _ => .invalid)).exec (Sys.start 60000 dueTable) editedThenCalled =
          some s ∧
        s.table.get "msg-1" = some r ∧ r.content = "bye" ∧
          .called (.val "msg-1") request 60000 ∈ s.trace ∧ request.content = .val "bye" :=
    ⟨_, _, _, rfl, rfl, rfl, List.mem_cons_self, rfl⟩
  obtain ⟨hrows, hcalls⟩ := content_authored
    (init_start 60000 (show ∀ r ∈ dueTable.rows, _ by decide)) hexec
  obtain ⟨r', hr', hkey, hauthored⟩ := hcalls _ request 60000 hcalled
  rw [← Slot.val.inj hkey] at hr' hauthored
  obtain rfl := Option.some.inj (hr'.symm.trans hr)
  exact ⟨s, r', request, hexec, hr, hcontent, hrows "msg-1" r' hr, hcalled, hsent, hauthored⟩

end SchedulingService.Messages
