import SchedulingService.Common.Decorators
import SchedulingService.Common.Validation
import SchedulingService.Lib.Transition
import SchedulingService.Messages.Isolation

/-!
# What the requests store

Creations and updates as they arrive, with bodies whose properties may hold any
value: the validators of the request class accept a body, the service checks the
time, and the repository saves. The two classes do not ask for the same.

Main results:

* `valid_serve_iff` — what one request does to a valid store;
* `validStores_iff` — exactly which sequences of requests keep every store valid.
-/

namespace SchedulingService.Messages

open Js Common

/-! ## Bodies -/

/-- The body of a creation, as it came: a property that it lacks is `undefined`. -/
structure CreateBody where
  conversationId : Value
  content : Value
  metadata : Value
  scheduledAt : Value

/-- The body of an update. -/
structure UpdateBody where
  content : Value
  metadata : Value
  scheduledAt : Value

def MAX_CONTENT_LENGTH : Nat := 4000

section Bodies

variable (C : Conversion) (V : Validators) (newDate : String → Date)

/-- The instance that the pipe makes of a body; `none` where it throws. -/
def CreateBody.converted (b : CreateBody) : Option CreateBody := do
  let conversationId ← C.toText b.conversationId
  let content ← C.toText b.content
  let metadata ← C.toRecord b.metadata
  let scheduledAt ← C.toText b.scheduledAt
  some { conversationId, content, metadata, scheduledAt }

def UpdateBody.converted (b : UpdateBody) : Option UpdateBody := do
  let content ← C.toText b.content
  let metadata ← C.toRecord b.metadata
  let scheduledAt ← C.toText b.scheduledAt
  some { content, metadata, scheduledAt }

/-- The decorators of `CreateScheduledMessageDto`. -/
def CreateBody.passes (b : CreateBody) : Bool :=
  isUUID V b.conversationId && isNotEmpty b.conversationId &&
  isString b.content && isNotEmpty b.content && maxLength MAX_CONTENT_LENGTH b.content &&
  isOptional isObject b.metadata &&
  isISO8601WithOffset newDate b.scheduledAt && isNotEmpty b.scheduledAt

/-- The decorators of `UpdateScheduledMessageDto`. -/
def UpdateBody.passes (b : UpdateBody) : Bool :=
  -- no `@IsNotEmpty()` here
  isOptional (fun v => isString v && maxLength MAX_CONTENT_LENGTH v) b.content &&
  isOptional isObject b.metadata &&
  isOptional (isISO8601WithOffset newDate) b.scheduledAt

/-- A property of type `string`. -/
def readText : Value → Option (Slot String)
  | .undefined => some .undefined
  | .null => some .null
  | .str s => some (.val s)
  | _ => none

/-- The body as the service takes it, if the pipe lets it through. -/
def CreateBody.accepted (b : CreateBody) : Option CreateScheduledMessageDto := do
  let b ← b.converted C
  guard (b.passes V newDate)
  let conversationId ← (← readText b.conversationId).toOption
  let content ← (← readText b.content).toOption
  let scheduledAt ← (← readText b.scheduledAt).toOption
  some { conversationId, content, metadata := readSlot decodeJson b.metadata, scheduledAt }

def UpdateBody.accepted (b : UpdateBody) : Option UpdateScheduledMessageDto := do
  let b ← b.converted C
  guard (b.passes newDate)
  let content ← readText b.content
  let scheduledAt ← readText b.scheduledAt
  some { content, metadata := readSlot decodeJson b.metadata, scheduledAt }

end Bodies

/-! ## Requests one after the other -/

inductive OwnerAction
  /-- `fresh` is the id the database generates. -/
  | create (fresh : Id) (body : CreateBody)
  | update (id : String) (body : UpdateBody)

structure OwnerRequest where
  userId : Slot String
  now : Int
  action : OwnerAction

/-- The table, and for each row when its `scheduledAt` was written. -/
structure Store where
  table : Table
  writtenAt : Id → Int

/-- The store after a request at `now` left the table `table`. -/
def Store.write (s : Store) (now : Int) (table : Table) : Store where
  table := table
  writtenAt i :=
    if (table.get i).map Row.scheduledAt = (s.table.get i).map Row.scheduledAt then s.writtenAt i
    else now

section Requests

variable (uuids : Uuids) (C : Conversion) (V : Validators) (P : Platform)

/-- One request. -/
def serve (s : Store) (q : OwnerRequest) : Store :=
  match q.action with
  | .create fresh body =>
    match body.accepted C V P.newDate with
    | some dto => s.write q.now (create uuids P q.now fresh q.userId dto s.table).1
    | none => s
  | .update id body =>
    match body.accepted C P.newDate with
    | some dto => s.write q.now (update uuids P q.now id q.userId dto s.table).1
    | none => s

/-- Requests, from no message at all. -/
def requests : Machine Store OwnerRequest where
  Init s := s.table.rows = []
  step s q := some (serve uuids C V P s q)

end Requests

/-- A row as it should be, if its time was written at `writtenAt`. -/
structure Row.Valid (writtenAt : Int) (r : Row) : Prop where
  content : r.content ≠ ""
  short : characters r.content ≤ MAX_CONTENT_LENGTH
  metadata : ∀ m, r.metadata = some m → isObject m.value = true
  future : writtenAt < r.scheduledAt
  horizon : r.scheduledAt ≤ writtenAt + MAX_SCHEDULE_HORIZON_MS

def Store.Valid (s : Store) : Prop :=
  ∀ i r, s.table.get i = some r → r.Valid (s.writtenAt i)

/-- The request is an update that is let through with an empty content, and
carried out: it finds a PENDING message of its caller, and its new time, if any,
is accepted. -/
def OwnerRequest.Empties (uuids : Uuids) (C : Conversion) (P : Platform) (s : Store)
    (q : OwnerRequest) : Prop :=
  ∃ id body dto m, q.action = .update id body ∧ body.accepted C P.newDate = some dto ∧
    dto.content = .val "" ∧ findOwnedByText uuids s.table id q.userId = .ok m ∧
    m.status = .val .pending ∧ ∀ d ∈ dto.newScheduledAt P, checkScheduledAt d q.now = .ok ()

/-! ## What an accepted body has -/

section Accepted

variable {C : Conversion} {V : Validators} {newDate : String → Date}

theorem readText_eq_some {v : Value} {slot : Slot String} (h : readText v = some slot) :
    v = slot.toValue .str := by
  cases v with
  | undefined | null | str => obtain rfl := Option.some.inj h; rfl
  | _ => cases h

theorem toOption_eq_some {α : Type} {slot : Slot α} {a : α} (h : slot.toOption = some a) :
    slot = .val a := by
  cases slot with
  | val b => obtain rfl := Option.some.inj h; rfl
  | _ => cases h

/-- A text that must be there. -/
theorem readText_toOption {v : Value} {slot : Slot String} {s : String}
    (h : readText v = some slot) (hs : slot.toOption = some s) : v = .str s := by
  rw [readText_eq_some h, toOption_eq_some hs]
  rfl

theorem isISO8601WithOffset_str {s : String}
    (h : isISO8601WithOffset newDate (.str s) = true) : newDate s ≠ .invalid := by
  rw [isISO8601WithOffset, Bool.and_eq_true] at h
  exact of_decide_eq_true h.2

/-- Metadata that passed `@IsOptional() @IsObject()` are an object. -/
theorem isObject_of_read {v : Value} {m : Metadata} (h : isOptional isObject v = true)
    (hread : readSlot decodeJson v = .val m) : isObject m.value = true := by
  have hv : v = m.value := by
    cases v with
    | undefined | null => cases hread
    | _ => obtain rfl := Slot.val.inj hread; rfl
  rw [← hv]
  simpa [isOptional, hv, m.isNullish_value] using h

/-- The content of a creation is a text of 1 to 4000 characters, its metadata are an
object, and its time is one that `new Date` reads. -/
theorem CreateBody.accepted_spec {b : CreateBody} {dto : CreateScheduledMessageDto}
    (h : b.accepted C V newDate = some dto) :
    (dto.content ≠ "" ∧ characters dto.content ≤ MAX_CONTENT_LENGTH) ∧
      (∀ m, dto.metadata = .val m → isObject m.value = true) ∧
      newDate dto.scheduledAt ≠ .invalid := by
  simp only [accepted, Option.bind_eq_bind, Option.bind_eq_some_iff, Option.some.injEq,
    Option.guard_eq_some'] at h
  obtain ⟨b', -, -, hpasses, c, -, conversationId, -, txt, htxt, content, hcontent, time, htime,
    scheduledAt, hat, rfl⟩ := h
  have hcontent : b'.content = .str content := readText_toOption htxt hcontent
  have hat : b'.scheduledAt = .str scheduledAt := readText_toOption htime hat
  simp only [passes, Bool.and_eq_true, hcontent, hat] at hpasses
  obtain ⟨⟨⟨⟨⟨-, hnotEmpty⟩, hshort⟩, hobject⟩, hiso⟩, -⟩ := hpasses
  exact ⟨⟨of_decide_eq_true hnotEmpty, of_decide_eq_true hshort⟩,
    fun m hm => isObject_of_read hobject hm, isISO8601WithOffset_str hiso⟩

/-- What an update gives: a content is a text of at most 4000 characters, metadata are
an object, and a time is one that `new Date` reads. -/
theorem UpdateBody.accepted_spec {b : UpdateBody} {dto : UpdateScheduledMessageDto}
    (h : b.accepted C newDate = some dto) :
    (∀ content, dto.content = .val content → characters content ≤ MAX_CONTENT_LENGTH) ∧
      (∀ m, dto.metadata = .val m → isObject m.value = true) ∧
      ∀ scheduledAt, dto.scheduledAt = .val scheduledAt → newDate scheduledAt ≠ .invalid := by
  simp only [accepted, Option.bind_eq_bind, Option.bind_eq_some_iff, Option.some.injEq,
    Option.guard_eq_some'] at h
  obtain ⟨b', -, -, hpasses, content, hcontent, scheduledAt, hat, rfl⟩ := h
  simp only [passes, Bool.and_eq_true] at hpasses
  obtain ⟨⟨hshort, hobject⟩, hiso⟩ := hpasses
  refine ⟨?_, fun m hm => isObject_of_read hobject hm, ?_⟩
  · rintro text rfl
    -- a text that is there is not skipped
    rw [readText_eq_some hcontent] at hshort
    simp only [Slot.toValue, isOptional, Value.isNullish, Bool.false_or, Bool.and_eq_true] at hshort
    exact of_decide_eq_true hshort.2
  · rintro time rfl
    rw [readText_eq_some hat] at hiso
    exact isISO8601WithOffset_str hiso

end Accepted

/-! ## One request -/

section Serve

variable {uuids : Uuids} {C : Conversion} {V : Validators} {P : Platform} {s : Store}

/-- A time that passes the checks is after `now`, and not too far. -/
theorem checkScheduledAt_spec {d : Date} {now : Int} (hvalid : d ≠ .invalid)
    (h : checkScheduledAt d now = .ok ()) :
    ∃ t, d = .ms t ∧ now < t ∧ t ≤ now + MAX_SCHEDULE_HORIZON_MS := by
  cases d with
  | invalid => exact absurd rfl hvalid
  | ms t =>
    have hfuture : ¬ t ≤ now := fun hle => by
      simp [checkScheduledAt, Date.le, hle, bind, Except.bind, throw, throwThe,
        MonadExceptOf.throw] at h
    have hhorizon : ¬ ((MAX_SCHEDULE_HORIZON_MS : Int) < t - now) := fun hlt => by
      have hfar : Number.lt (.fin MAX_SCHEDULE_HORIZON_MS) (Date.minus (.ms t) (.ms now)) = true :=
        decide_eq_true (by exact_mod_cast hlt)
      simp only [checkScheduledAt, hfar, bind, Except.bind, throw, throwThe, MonadExceptOf.throw,
        if_true] at h
      split at h <;> cases h
    exact ⟨t, rfl, by omega, by omega⟩

/-- Only the row under `i` is new or other than it was. -/
theorem Store.Valid.write {now : Int} {table : Table} {i : Id} {r : Row} (h : s.Valid)
    (hget : table.get i = some r)
    (hother : ∀ j, j ≠ i → table.get j = s.table.get j)
    (hrow : r.Valid ((s.write now table).writtenAt i)) : (s.write now table).Valid := by
  intro j q hq
  by_cases hj : j = i
  · subst hj
    obtain rfl := Option.some.inj (hget.symm.trans hq)
    exact hrow
  · -- the other rows are as they were, and were written when they were
    have hsame := hother j hj
    have hwritten : (s.write now table).writtenAt j = s.writtenAt j := by
      simp [Store.write, hsame]
    rw [hwritten]
    exact h j q (hsame ▸ hq)

/-- A store whose table stays as it is stays as it is. -/
theorem Store.write_same (now : Int) : s.write now s.table = s := by
  cases s
  simp [Store.write]

/-- What an insert stores. -/
theorem newRow_spec {id : Id} {m : ScheduledMessage} {row : Row} (h : newRow id m = some row) :
    m.content = .val row.content ∧ row.metadata = writeNullable none m.metadata ∧
      m.scheduledAt = .val (.ms row.scheduledAt) := by
  simp only [newRow, Option.bind_eq_bind, Option.bind_eq_some_iff, Option.some.injEq] at h
  obtain ⟨u, -, c, -, content, hcontent, time, ⟨d, hd, htime⟩, st, -, n, -, rfl⟩ := h
  refine ⟨toOption_eq_some hcontent, rfl, ?_⟩
  cases d with
  | invalid => cases htime
  | ms t =>
    obtain rfl := Option.some.inj htime
    exact toOption_eq_some hd

/-- A creation leaves the table as it is, or inserts a row under the new id. -/
theorem create_spec (uuids : Uuids) (P : Platform) (now : Int) (fresh : Id)
    (userId : Slot String) (dto : CreateScheduledMessageDto) (t : Table) :
    (create uuids P now fresh userId dto t).1 = t ∨
      ∃ m m' row, createMessage P now userId dto = .ok m ∧ (m'.content = m.content ∧
        m'.metadata = m.metadata ∧ m'.scheduledAt = m.scheduledAt) ∧ newRow fresh m' = some row ∧
        Inserted t m' (create uuids P now fresh userId dto t).1 row := by
  unfold create
  cases hm : createMessage P now userId dto with
  | error e => exact .inl rfl
  | ok m =>
    cases hids : readIds uuids m with
    -- an id that is no uuid is refused by the database
    | none => exact .inl (by simp [hids])
    | some m' =>
      have hsame : m'.content = m.content ∧ m'.metadata = m.metadata ∧
          m'.scheduledAt = m.scheduledAt := by
        simp only [readIds, Option.bind_eq_bind, Option.bind_eq_some_iff, Option.some.injEq] at hids
        obtain ⟨u, -, c, -, rfl⟩ := hids
        exact ⟨rfl, rfl, rfl⟩
      cases hinsert : insertNew t fresh m' with
      | none => exact .inl (by simp [hids, hinsert])
      | some inserted =>
        obtain ⟨t', row⟩ := inserted
        have hrow : newRow fresh m' = some row := by
          simp only [insertNew, Option.bind_eq_bind, Option.bind_eq_some_iff, Option.some.injEq,
            Prod.mk.injEq] at hinsert
          obtain ⟨row', hrow', table', -, -, rfl⟩ := hinsert
          exact hrow'
        refine .inr ⟨m, m', row, rfl, hsame, hrow, ?_⟩
        simpa [hids, hinsert] using (insertNew_spec hinsert).2

/-- A nullable column that a save fills has the property's value, or the old one. -/
theorem writeNullable_spec {α : Type} {old : Option α} {slot : Slot α} {a : α}
    (h : writeNullable old slot = some a) : slot = .val a ∨ old = some a := by
  cases slot with
  | undefined => exact .inr h
  | null => cases h
  | val b => exact .inl (congrArg Slot.val (Option.some.inj h))

/-- Metadata that a creation stores are those of its body. -/
theorem metadataOrNull_eq_val {slot : Slot Metadata} {m : Metadata}
    (h : metadataOrNull slot = .val m) : slot = .val m := by
  unfold metadataOrNull at h
  split at h
  · split at h
    · exact h
    · cases h
  · cases h

/-- **Creations** store valid rows. -/
theorem valid_create (hs : s.Valid) {now : Int} {fresh : Id} {userId : Slot String}
    {body : CreateBody} {dto : CreateScheduledMessageDto}
    (hdto : body.accepted C V P.newDate = some dto) :
    (s.write now (create uuids P now fresh userId dto s.table).1).Valid := by
  obtain ⟨⟨hnotEmpty, hshort⟩, hobject, htime⟩ := CreateBody.accepted_spec hdto
  rcases create_spec uuids P now fresh userId dto s.table with
    hsame | ⟨m, m', row, hm, ⟨hcontent', hmetadata', hat'⟩, hrow, hins⟩
  · rwa [hsame, Store.write_same]
  · -- the content is that of the body, and the time passed the check
    obtain ⟨hchecked, rfl⟩ := createMessage_spec hm
    obtain ⟨hrowContent, hrowMetadata, hrowAt⟩ := newRow_spec hrow
    obtain ⟨t, ht, hlater, hwithin⟩ := checkScheduledAt_spec htime hchecked
    have hstored : row.content = dto.content :=
      Slot.val.inj (hrowContent.symm.trans hcontent')
    have hobjects : ∀ m, row.metadata = some m → isObject m.value = true := by
      intro m hm
      rw [hrowMetadata, hmetadata'] at hm
      rcases writeNullable_spec hm with hgiven | hnone
      · exact hobject m (metadataOrNull_eq_val hgiven)
      · cases hnone
    have hinstant : row.scheduledAt = t :=
      Date.ms.inj ((Slot.val.inj (hrowAt.symm.trans hat')).trans ht)
    generalize (create uuids P now fresh userId dto s.table).1 = table at hins ⊢
    have hget : table.get row.id = some row := by
      rw [hins.after, if_pos rfl]
    have hwritten : (s.write now table).writtenAt row.id = now := by
      simp [Store.write, hget, hins.fresh]
    refine hs.write hget (fun j hj => by rw [hins.after, if_neg hj]) ?_
    rw [hwritten]
    exact ⟨hstored ▸ hnotEmpty, hstored ▸ hshort, hobjects, hinstant ▸ hlater,
      hinstant ▸ hwithin⟩

section Update

variable {now : Int} {id : String} {userId : Slot String} {body : UpdateBody}
  {dto : UpdateScheduledMessageDto} {r r' : Row} {m : ScheduledMessage} {table : Table}

/-- An update leaves the table as it is, or finds a row and saves it. -/
theorem update_spec (uuids : Uuids) (P : Platform) (now : Int) (id : String)
    (userId : Slot String) (dto : UpdateScheduledMessageDto) (t : Table) :
    (update uuids P now id userId dto t).1 = t ∨
      ∃ r m r', findOwnedByText uuids t id userId = .ok (.ofRow r) ∧
        Updated P now dto (.ofRow r) m ∧ Saved t m (update uuids P now id userId dto t).1 r r' := by
  unfold update changeOwned
  cases hfound : findOwnedByText uuids t id userId with
  | error e => exact .inl rfl
  | ok loaded =>
    obtain ⟨r, hget, -, rfl⟩ := findOwnedByText_spec hfound
    cases hchange : updateMessage P now dto (.ofRow r) with
    | error e => exact .inl (by simp [saveChange, hchange])
    | ok m =>
      cases hsave : save t m with
      | none => exact .inl (by simp [saveChange, hchange, hsave])
      | some t' =>
        have hupdated := updateMessage_spec hchange
        obtain ⟨r₀, r', hsaved⟩ := save_spec hsave
        -- the row that is saved is the one that was loaded
        have hid : r₀.id = r.id :=
          Slot.val.inj (hsaved.key.symm.trans hupdated.id_eq)
        have hrow : r₀ = r := by
          have hbefore := hsaved.before
          rw [hid, hget] at hbefore
          exact (Option.some.inj hbefore).symm
        subst hrow
        refine .inr ⟨r₀, m, r', rfl, hupdated, ?_⟩
        simpa [saveChange, hchange, hsave] using hsaved

/-- A saved update stores the content it gives, which is not `null`, or the old
one. -/
theorem updated_content (hupdated : Updated P now dto (.ofRow r) m)
    (hsaved : Saved s.table m table r r') :
    dto.content = .val r'.content ∨ r'.content = r.content := by
  have hcontent := hsaved.content
  rw [hupdated.content] at hcontent
  cases hc : dto.content with
  | undefined =>
    rw [hc] at hcontent
    exact .inr (Option.some.inj hcontent).symm
  | null =>
    -- the column is NOT NULL
    rw [hc] at hcontent
    cases hcontent
  | val content =>
    rw [hc] at hcontent
    obtain rfl := Option.some.inj hcontent
    exact .inl rfl

/-- The new time of an accepted body is one that `new Date` reads. -/
theorem newScheduledAt_ne_invalid (hdto : body.accepted C P.newDate = some dto) {d : Date}
    (hd : dto.newScheduledAt P = some d) : d ≠ .invalid := by
  unfold UpdateScheduledMessageDto.newScheduledAt at hd
  split at hd
  · rename_i text htext
    split at hd
    · cases hd
    · obtain rfl := Option.some.inj hd
      exact (UpdateBody.accepted_spec hdto).2.2 text htext
  · cases hd

/-- The metadata it gives, an object, or the old ones. -/
theorem updated_metadata (hdto : body.accepted C P.newDate = some dto)
    (hupdated : Updated P now dto (.ofRow r) m) (hsaved : Saved s.table m table r r')
    {metadata : Metadata} (h : r'.metadata = some metadata) :
    isObject metadata.value = true ∨ r.metadata = some metadata := by
  rw [← hsaved.metadata, hupdated.metadata] at h
  rcases writeNullable_spec h with hslot | hold
  · by_cases hdefined : dto.metadata.isDefined = true
    · rw [if_pos hdefined] at hslot
      exact .inl ((UpdateBody.accepted_spec hdto).2.1 metadata hslot)
    · rw [if_neg hdefined] at hslot
      -- the slot of a loaded entity is the row's column
      have hcolumn : Slot.ofNullable r.metadata = .val metadata := hslot
      exact .inr (by simpa using congrArg Slot.toOption hcolumn)
  · exact .inr hold

/-- And the time it gives, which passed the checks, or the old one. -/
theorem updated_scheduledAt (hdto : body.accepted C P.newDate = some dto)
    (hupdated : Updated P now dto (.ofRow r) m) (hsaved : Saved s.table m table r r') :
    (now < r'.scheduledAt ∧ r'.scheduledAt ≤ now + MAX_SCHEDULE_HORIZON_MS) ∨
      r'.scheduledAt = r.scheduledAt := by
  have htime := hsaved.scheduledAt
  rw [hupdated.scheduledAt] at htime
  cases hd : dto.newScheduledAt P with
  | none =>
    rw [hd] at htime
    exact .inr (Option.some.inj htime).symm
  | some d =>
    obtain ⟨t, rfl, hlater, hwithin⟩ :=
      checkScheduledAt_spec (newScheduledAt_ne_invalid hdto hd) (hupdated.checked d hd)
    rw [hd] at htime
    obtain rfl : t = r'.scheduledAt := Option.some.inj htime
    exact .inl ⟨hlater, hwithin⟩

/-- **Updates** store valid rows, but for the content. -/
theorem valid_updated (hs : s.Valid) (hdto : body.accepted C P.newDate = some dto)
    (hupdated : Updated P now dto (.ofRow r) m) (hsaved : Saved s.table m table r r')
    (hnotEmpty : dto.content ≠ .val "") : (s.write now table).Valid := by
  have hold := hs r.id r hsaved.before
  refine hs.write hsaved.get_self (fun j hj => hsaved.get_of_ne hj) ?_
  have hcontent : r'.content ≠ "" ∧ characters r'.content ≤ MAX_CONTENT_LENGTH := by
    rcases updated_content hupdated hsaved with hgiven | hsame
    · exact ⟨fun hempty => hnotEmpty (hempty ▸ hgiven),
        (UpdateBody.accepted_spec hdto).1 _ hgiven⟩
    · rw [hsame]
      exact ⟨hold.content, hold.short⟩
  have hmetadata : ∀ metadata, r'.metadata = some metadata → isObject metadata.value = true := by
    intro metadata hm
    rcases updated_metadata hdto hupdated hsaved hm with hobject | hsame
    · exact hobject
    · exact hold.metadata metadata hsame
  have hwritten : (s.write now table).writtenAt r.id =
      if r'.scheduledAt = r.scheduledAt then s.writtenAt r.id else now := by
    simp [Store.write, hsaved.get_self, hsaved.before]
  rw [hwritten]
  -- a time that stays was written before, a new one is written now
  refine ⟨hcontent.1, hcontent.2, hmetadata, ?_, ?_⟩
  · split
    · rename_i hsame
      rw [hsame]
      exact hold.future
    · rename_i hnew
      exact ((updated_scheduledAt hdto hupdated hsaved).resolve_right hnew).1
  · split
    · rename_i hsame
      rw [hsame]
      exact hold.horizon
    · rename_i hnew
      exact ((updated_scheduledAt hdto hupdated hsaved).resolve_right hnew).2

/-- Saving a loaded entity with a new time, content and metadata. -/
theorem save_edited {t : Table} (hget : t.get r.id = some r) (time : Int) (content : String)
    (metadata : Slot Metadata) :
    ∃ row : Row, row.id = r.id ∧ row.content = content ∧
      save t { ScheduledMessage.ofRow r with
        scheduledAt := .val (.ms time), content := .val content, metadata } =
      some (t.put row) := by
  refine ⟨{ r with
    scheduledAt := time, content, metadata := writeNullable r.metadata metadata }, rfl, rfl, ?_⟩
  simp [save, ScheduledMessage.ofRow, ScheduledMessage.overwrite, hget, writeColumn,
    writeTimestamp, timestamp]

/-- **The defect.** An update that is let through with an empty content and
carried out stores it. -/
theorem update_empties (hdto : body.accepted C P.newDate = some dto)
    (hempty : dto.content = .val "") {t : Table}
    (hfound : findOwnedByText uuids t id userId = .ok m) (hpending : m.status = .val .pending)
    (hchecked : ∀ d ∈ dto.newScheduledAt P, checkScheduledAt d now = .ok ()) :
    ∃ i r', (update uuids P now id userId dto t).1.get i = some r' ∧ r'.content = "" := by
  obtain ⟨r, hget, -, rfl⟩ := findOwnedByText_spec hfound
  have hchange := updateMessage_eq_ok.mpr ⟨hpending, hchecked, rfl⟩
  -- the time it writes is an instant
  obtain ⟨time, htime⟩ : ∃ time, (dto.newScheduledAt P).elim
      (ScheduledMessage.ofRow r).scheduledAt .val = (.val (.ms time) : Slot Date) := by
    cases hd : dto.newScheduledAt P with
    | none => exact ⟨r.scheduledAt, rfl⟩
    | some d =>
      obtain ⟨time, rfl, -, -⟩ :=
        checkScheduledAt_spec (newScheduledAt_ne_invalid hdto hd) (hchecked d hd)
      exact ⟨time, rfl⟩
  rw [htime, hempty, Slot.isDefined_val, if_pos rfl] at hchange
  -- so the database refuses nothing
  obtain ⟨row, hid, hcontent, hsave⟩ := save_edited hget time ""
    (if dto.metadata.isDefined then dto.metadata else (ScheduledMessage.ofRow r).metadata)
  have hupdate : (update uuids P now id userId dto t).1 = t.put row := by
    rw [update, changeOwned, hfound]
    simp only [saveChange, hchange, hsave]
  refine ⟨row.id, row, ?_, hcontent⟩
  rw [hupdate]
  exact Keyed.get_put_self (by rw [hid, hget])

end Update

/-- **One request.** It keeps a valid store valid exactly when it does not empty a
message. -/
theorem valid_serve_iff (hs : s.Valid) (q : OwnerRequest) :
    (serve uuids C V P s q).Valid ↔ ¬ q.Empties uuids C P s := by
  obtain ⟨userId, now, action⟩ := q
  cases action with
  | create fresh body =>
    refine iff_of_true ?_ (by rintro ⟨id, body', dto, m, haction, -⟩; cases haction)
    cases hdto : body.accepted C V P.newDate with
    | none => simpa only [serve, hdto] using hs
    | some dto => simpa only [serve, hdto] using valid_create hs hdto
  | update id body =>
    cases hdto : body.accepted C P.newDate with
    | none =>
      refine iff_of_true (by simpa only [serve, hdto] using hs) ?_
      rintro ⟨id', body', dto, m, haction, hdto', -⟩
      obtain ⟨rfl, rfl⟩ := OwnerAction.update.inj haction
      rw [hdto] at hdto'
      cases hdto'
    | some dto =>
      have hserve : serve uuids C V P s ⟨userId, now, .update id body⟩ =
          s.write now (update uuids P now id userId dto s.table).1 := by
        simp only [serve, hdto]
      rw [hserve]
      constructor
      · rintro hvalid ⟨id', body', dto', m, haction, hdto', hempty, hfound, hpending, hchecked⟩
        obtain ⟨rfl, rfl⟩ := OwnerAction.update.inj haction
        obtain rfl := Option.some.inj (hdto.symm.trans hdto')
        -- the row that is saved has no content
        obtain ⟨i, r', hget, hcontent⟩ := update_empties hdto hempty hfound hpending hchecked
        exact (hvalid i r' hget).content hcontent
      · intro hnot
        -- an update that is not carried out changes nothing
        rcases update_spec uuids P now id userId dto s.table with
          hsame | ⟨r, m, r', hfound, hupdated, hsaved⟩
        · rwa [hsame, Store.write_same]
        · refine valid_updated hs hdto hupdated hsaved fun hempty => hnot ?_
          exact ⟨id, body, dto, _, rfl, hdto, hempty, hfound, hupdated.wasPending,
            hupdated.checked⟩

/-- **Stores.** In every state that a sequence of requests leads through all rows
are valid, exactly when no request of it empties a message. -/
theorem validStores_iff (uuids : Uuids) (C : Conversion) (V : Validators) (P : Platform)
    {s : Store}
    (hinit : (requests uuids C V P).Init s) (qs : List OwnerRequest) :
    (requests uuids C V P).Throughout Store.Valid s qs ↔
      (requests uuids C V P).Along (fun s q => ¬ q.Empties uuids C P s) s qs := by
  have hempty : s.Valid := fun i r hget => by
    have hmem := (Keyed.get_eq_some.mp hget).1
    rw [show s.table.rows = [] from hinit] at hmem
    cases hmem
  obtain ⟨s', hexec⟩ : ∃ s', (requests uuids C V P).exec s qs = some s' := by
    clear hempty hinit
    -- a request is never stuck
    induction qs generalizing s with
    | nil => exact ⟨s, rfl⟩
    | cons q qs ih => exact ih
  refine Machine.throughout_iff_along (J := fun _ => True) ?_ (fun _ _ _ _ _ => trivial) hexec
    trivial hempty
  intro s₁ q s₂ _ hvalid hstep
  obtain rfl := Option.some.inj hstep
  exact valid_serve_iff hvalid q

end Serve

/-! ## The counterexample -/

/-- A body with only a content. -/
def contentOnly (content : String) : UpdateBody where
  content := .str content
  metadata := .undefined
  scheduledAt := .undefined

/-- A reminder for the next minute. -/
def reminderBody : CreateBody where
  conversationId := .str "b2c3d4e5-6789-4bcd-8f01-23456789abcd"
  content := .str "Hello!"
  metadata := .undefined
  scheduledAt := .str "2026-04-15T10:00:00+02:00"

def plainValidators : Validators where
  isUuid _ := true
  stringify _ := none

/-- Of what is no text already only booleans are converted. -/
def plainConversion : Conversion where
  text
    | .bool b => some (if b then "true" else "false")
    | _ => none
  copy props := some props

/-- A content that is no text is stored as one. -/
example : (UpdateBody.accepted plainConversion (fun _ => .invalid)
      { contentOnly "" with content := .bool true }).map (·.content) = some (.val "true") := rfl

/-- Every text is read as the first minute. -/
def firstMinute : Platform := typeorm fun _ => .ms 60000

def emptyStore : Store where
  table := { rows := [], nodup := List.nodup_nil }
  writtenAt _ := 0

/-- A message is created, and its owner empties it; both bodies are let through. -/
def emptyingRequests : List OwnerRequest :=
  [{ userId := .val "u", now := 0, action := .create "msg-1" reminderBody },
   { userId := .val "u", now := 1, action := .update "msg-1" (contentOnly "") }]

/-- The requests of these clients. -/
abbrev plainRequests : Machine Store OwnerRequest :=
  requests plainIds plainConversion plainValidators firstMinute

theorem validStores_iff_emptyStore :
    plainRequests.Throughout Store.Valid emptyStore emptyingRequests ↔
      plainRequests.Along (fun s q => ¬ q.Empties plainIds plainConversion firstMinute s)
        emptyStore emptyingRequests :=
  validStores_iff plainIds plainConversion plainValidators firstMinute (s := emptyStore) rfl
    emptyingRequests

/-- An empty message is stored, and will be sent. -/
theorem emptied_message_stays_pending :
    ∃ s, plainRequests.exec emptyStore emptyingRequests = some s ∧
      (s.table.get "msg-1").map (fun r => (r.content, r.status)) = some ("", .pending) ∧
      ¬ plainRequests.Throughout Store.Valid emptyStore emptyingRequests := by
  obtain ⟨s, hs, hrow⟩ : ∃ s, plainRequests.exec emptyStore emptyingRequests = some s ∧
      (s.table.get "msg-1").map (fun r => (r.content, r.status)) = some ("", .pending) :=
    ⟨_, rfl, by decide⟩
  refine ⟨s, hs, hrow, fun h => ?_⟩
  obtain ⟨r, hget, hr⟩ := Option.map_eq_some_iff.mp hrow
  exact (h.last hs "msg-1" r hget).content (Prod.mk.inj hr).1

end SchedulingService.Messages
