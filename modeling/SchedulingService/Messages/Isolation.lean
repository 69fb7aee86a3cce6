import SchedulingService.Lib.Noninterference
import SchedulingService.Messages.Service

/-!
# Users are isolated, with an id

The five operations of `ScheduledMessagesService`, called with the id its
caller's token gives. An update, a cancellation and the lookup of one message go
through `findOwnedOrThrow`, which looks no row up without a user id. The list
does not, and a criterion without a value is dropped from its query.

Main results:

* `isolated_of_caller`, `not_isolated_findAllByUser` — the operations one by one;
* `users_isolated_iff` — exactly which calls keep to their caller's rows, and that
  sequences of them do.
-/

namespace SchedulingService.Messages

open Js Noninterference

/-- How PostgreSQL reads a text as a `uuid`. -/
structure Uuids where
  read : String → Option Id
  /-- The empty text is none. -/
  read_empty : read "" = none

/-- What a request may end with instead of a response. -/
inductive Failure
  | http (e : HttpException)
  /-- The database refuses a statement. -/
  | database
  deriving DecidableEq

structure ScheduledMessageResponseDto where
  id : Slot Id
  userId : Slot Id
  conversationId : Slot Id
  content : Slot String
  metadata : Slot Metadata
  scheduledAt : Slot Date
  status : Slot ScheduledMessageStatus

/-- `toResponse`. -/
def toResponse (message : ScheduledMessage) : ScheduledMessageResponseDto where
  id := message.id
  userId := message.userId
  conversationId := message.conversationId
  content := message.content
  metadata := message.metadata
  scheduledAt := message.scheduledAt
  status := message.status

/-! ## The operations -/

inductive Operation
  /-- `fresh` is the id the database generates. -/
  | create (fresh : Id) (dto : CreateScheduledMessageDto)
  | findAllByUser
  | findOne (id : String)
  | update (id : String) (dto : UpdateScheduledMessageDto)
  | cancel (id : String)

/-- A call, with the user id it is made with and the time it is made at. -/
structure Call where
  userId : Slot String
  now : Int
  operation : Operation

/-- What a call answers: the messages of the response, none for a
cancellation. -/
abbrev Reply := Except Failure (List ScheduledMessageResponseDto)

section Operations

variable (uuids : Uuids) (P : Platform)

/-- The rows `find({ where: { userId } })` answers; a criterion without a value is
dropped. -/
def rowsOf (t : Table) : Slot String → Except Failure (List Row)
  | .val userId => match uuids.read userId with
    | some u => .ok (t.rows.filter fun r => r.userId = u)
    | none => .error .database
  | _ => .ok t.rows

/-- `order: { scheduledAt: 'ASC' }`, rows of one time in the order they come. -/
def byTime (rows : List Row) : List Row :=
  rows.mergeSort fun a b => a.scheduledAt ≤ b.scheduledAt

def findAllByUser (t : Table) (userId : Slot String) : Reply :=
  (rowsOf uuids t userId).map fun rows => (byTime rows).map fun r => toResponse (.ofRow r)

/-- `findOwnedOrThrow` on texts. -/
def findOwnedByText (t : Table) (id : String) (userId : Slot String) :
    Except Failure ScheduledMessage :=
  match userId with
  | .val u =>
    if u = "" then .error (.http (messageNotFound id))
    else match uuids.read id, uuids.read u with
      | some i, some owner => match findOwned t i owner with
        | some r => .ok (.ofRow r)
        | none => .error (.http (messageNotFound id))
      | _, _ => .error .database
  | _ => .error (.http (messageNotFound id))

/-- The entity as the columns of its ids read it. -/
def readIds (message : ScheduledMessage) : Option ScheduledMessage := do
  let userId ← message.userId.toOption.bind uuids.read
  let conversationId ← message.conversationId.toOption.bind uuids.read
  some { message with
    userId := .val userId
    conversationId := .val conversationId }

/-- `create`. -/
def create (now : Int) (fresh : Id) (userId : Slot String) (dto : CreateScheduledMessageDto)
    (t : Table) : Table × Reply :=
  match createMessage P now userId dto with
  | .error e => (t, .error (.http e))
  | .ok message => match (readIds uuids message).bind (insertNew t fresh) with
    | none => (t, .error .database)
    -- the entity that was saved, with the id the database gave it
    | some (t', _) => (t', .ok [toResponse { message with id := .val fresh }])

/-- The save of what the code made of a loaded entity, and the messages `answer`
gives of it. -/
def saveChange (t : Table) (answer : ScheduledMessage → List ScheduledMessageResponseDto) :
    Except HttpException ScheduledMessage → Table × Reply
  | .error e => (t, .error (.http e))
  | .ok message => match save t message with
    | none => (t, .error .database)
    | some t' => (t', .ok (answer message))

/-- What `update` and `cancel` share. -/
def changeOwned (id : String) (userId : Slot String)
    (change : ScheduledMessage → Except HttpException ScheduledMessage)
    (answer : ScheduledMessage → List ScheduledMessageResponseDto) (t : Table) : Table × Reply :=
  match findOwnedByText uuids t id userId with
  | .error e => (t, .error e)
  | .ok message => saveChange t answer (change message)

def update (now : Int) (id : String) (userId : Slot String) (dto : UpdateScheduledMessageDto) :
    Table → Table × Reply :=
  changeOwned uuids id userId (updateMessage P now dto) fun message => [toResponse message]

def cancel (id : String) (userId : Slot String) : Table → Table × Reply :=
  changeOwned uuids id userId cancelMessage fun _ => []

/-- One call, from the table it finds. -/
def perform (t : Table) (call : Call) : Table × Reply :=
  match call.operation with
  | .create fresh dto => create uuids P call.now fresh call.userId dto t
  | .findAllByUser => (t, findAllByUser uuids t call.userId)
  | .findOne id =>
    (t, (findOwnedByText uuids t id call.userId).map fun message => [toResponse message])
  | .update id dto => update uuids P call.now id call.userId dto t
  | .cancel id => cancel uuids id call.userId t

/-! ## Who owns what -/

/-- The user a call is made for, if there is one. -/
def Call.owner (call : Call) : Option Id := call.userId.toOption.bind uuids.read

/-- The rows of a user; a caller without an id has none. -/
def ownedBy (user : Option Id) (t : Table) : List Row :=
  t.rows.filter fun r => some r.userId = user

/-- The rows of the others. -/
def notOwnedBy (user : Option Id) (t : Table) : List Row :=
  t.rows.filter fun r => some r.userId ≠ user

/-- A generated id is in no row. -/
def Call.isFresh (t : Table) (call : Call) : Prop :=
  match call.operation with
  | .create fresh _ => t.get fresh = none
  | _ => True

/-- The call alters only the rows of its caller, replies by them alone, and shows
a caller without an id nothing. -/
structure Isolated (call : Call) : Prop where
  alters : ∀ t, call.isFresh t →
    notOwnedBy (call.owner uuids) (perform uuids P t call).1 = notOwnedBy (call.owner uuids) t
  reads : ∀ t t', call.isFresh t → call.isFresh t' →
    ownedBy (call.owner uuids) t = ownedBy (call.owner uuids) t' →
    (perform uuids P t call).2 = (perform uuids P t' call).2
  nothing : call.owner uuids = none → ∀ t, call.isFresh t →
    ∀ shown, (perform uuids P t call).2 = .ok shown → shown = []

/-- The list is asked for without a user id. -/
def Call.listsAll (call : Call) : Bool :=
  match call.operation, call.userId with
  | .findAllByUser, .val _ => false
  | .findAllByUser, _ => true
  | _, _ => false

end Operations

/-! ## Writes and whose rows they are -/

section Writes

variable {t t' : Table} {r r' : Row} {user : Option Id}

/-- Only the row that is overwritten has the id of the row that comes. -/
theorem eq_of_id_eq {q : Row} (hr : t.get r.id = some r) (hid : r'.id = r.id) (hq : q ∈ t.rows)
    (hsame : q.id = r'.id) : q = r :=
  t.eq_of_key_eq hq (Keyed.get_eq_some.mp hr).1 (hsame.trans hid)

/-- Overwriting a row of the user replaces it among the user's rows. -/
theorem ownedBy_put (hr : t.get r.id = some r) (hid : r'.id = r.id)
    (huser : r'.userId = r.userId) (howner : some r.userId = user) :
    ownedBy user (t.put r') = Keyed.replace (ownedBy user t) Row.id r' := by
  show (Keyed.replace t.rows Row.id r').filter _ = _
  rw [Keyed.replace, List.filter_map, Keyed.replace]
  refine congrArg (List.map _) (List.filter_congr fun q hq => ?_)
  by_cases hsame : q.id = r'.id
  · obtain rfl := eq_of_id_eq hr hid hq hsame
    simp [hsame, huser]
  · simp [hsame]

/-- And leaves the others' rows alone. -/
theorem notOwnedBy_put (hr : t.get r.id = some r) (hid : r'.id = r.id)
    (huser : r'.userId = r.userId) (howner : some r.userId = user) :
    notOwnedBy user (t.put r') = notOwnedBy user t := by
  show (Keyed.replace t.rows Row.id r').filter _ = t.rows.filter _
  rw [Keyed.replace, List.filter_map]
  have hfilter : t.rows.filter ((fun q => decide (some q.userId ≠ user)) ∘
      fun q => if q.id = r'.id then r' else q) =
      t.rows.filter fun q => decide (some q.userId ≠ user) := by
    refine List.filter_congr fun q hq => ?_
    by_cases hsame : q.id = r'.id
    · obtain rfl := eq_of_id_eq hr hid hq hsame
      simp [hsame, huser]
    · simp [hsame]
  rw [hfilter]
  -- none of the others' rows is the one that is overwritten
  have hsame : ∀ q ∈ t.rows.filter fun q => decide (some q.userId ≠ user),
      (if q.id = r'.id then r' else q) = id q := by
    intro q hq
    obtain ⟨hmem, hother⟩ := List.mem_filter.mp hq
    refine if_neg fun hsame => ?_
    obtain rfl := eq_of_id_eq hr hid hmem hsame
    exact of_decide_eq_true hother howner
  rw [List.map_congr_left hsame, List.map_id]

/-- A new row of the user joins the user's rows. -/
theorem ownedBy_insert (h : t.insert r = some t') (howner : some r.userId = user) :
    ownedBy user t' = r :: ownedBy user t := by
  rw [ownedBy, Keyed.rows_insert h, List.filter_cons_of_pos (by simpa using howner)]
  rfl

theorem notOwnedBy_insert (h : t.insert r = some t') (howner : some r.userId = user) :
    notOwnedBy user t' = notOwnedBy user t := by
  rw [notOwnedBy, Keyed.rows_insert h, List.filter_cons_of_neg (by simpa using howner)]
  rfl

theorem insert_of_fresh (h : t.get r.id = none) : ∃ t', t.insert r = some t' := by
  have hfresh : r.id ∉ t.rows.map Row.id := by
    intro hmem
    obtain ⟨q, hq, hid⟩ := List.mem_map.mp hmem
    exact Keyed.get_eq_none.mp h q hq hid
  exact ⟨_, dif_pos hfresh⟩

end Writes

/-! ## What the code does with ids -/

section Code

variable {uuids : Uuids} {P : Platform} {now : Int}

theorem createMessage_userId {userId : Slot Id} {dto : CreateScheduledMessageDto}
    {m : ScheduledMessage} (h : createMessage P now userId dto = .ok m) :
    m.userId = userId := by
  obtain ⟨-, rfl⟩ := createMessage_spec h
  rfl

/-- A change keeps the two ids of the entity. -/
structure KeepsIds (change : ScheduledMessage → Except HttpException ScheduledMessage) :
    Prop where
  keeps : ∀ m m', change m = .ok m' → m'.id = m.id ∧ m'.userId = m.userId

theorem keepsIds_update (dto : UpdateScheduledMessageDto) :
    KeepsIds (updateMessage P now dto) := by
  refine ⟨fun m m' h => ?_⟩
  obtain ⟨-, -, rfl⟩ := updateMessage_eq_ok.mp h
  exact ⟨rfl, rfl⟩

theorem keepsIds_cancel : KeepsIds cancelMessage := by
  refine ⟨fun m m' h => ?_⟩
  obtain ⟨-, rfl⟩ := cancelMessage_spec h
  exact ⟨rfl, rfl⟩

theorem overwrite_ids {m : ScheduledMessage} {r r' : Row} (h : m.overwrite r = some r')
    (huser : m.userId = .val r.userId) : r'.id = r.id ∧ r'.userId = r.userId := by
  simp only [ScheduledMessage.overwrite, Option.bind_eq_bind, Option.bind_eq_some_iff,
    Option.some.injEq] at h
  obtain ⟨u, hu, c, -, txt, -, time, -, st, -, n, -, rfl⟩ := h
  rw [huser, writeColumn, Option.some.injEq] at hu
  exact ⟨rfl, hu.symm⟩

theorem readIds_userId {m m' : ScheduledMessage} (h : readIds uuids m = some m') :
    m.userId.toOption.bind uuids.read = m'.userId.toOption := by
  simp only [readIds, Option.bind_eq_bind, Option.bind_eq_some_iff, Option.some.injEq] at h
  obtain ⟨u, hu, c, -, rfl⟩ := h
  exact Option.bind_eq_some_iff.mpr hu

theorem newRow_ids {m : ScheduledMessage} {fresh : Id} {row : Row}
    (h : newRow fresh m = some row) : row.id = fresh ∧ m.userId.toOption = some row.userId := by
  simp only [newRow, Option.bind_eq_bind, Option.bind_eq_some_iff, Option.some.injEq] at h
  obtain ⟨u, hu, c, -, txt, -, time, -, st, -, n, -, rfl⟩ := h
  exact ⟨rfl, hu⟩

/-- Without an owner no row is looked up. -/
theorem findOwnedByText_of_no_owner {userId : Slot String}
    (h : userId.toOption.bind uuids.read = none) (id : String) :
    ∃ e, ∀ t, findOwnedByText uuids t id userId = .error e := by
  cases userId with
  | undefined => exact ⟨_, fun _ => rfl⟩
  | null => exact ⟨_, fun _ => rfl⟩
  | val u =>
    have hread : uuids.read u = none := h
    by_cases hempty : u = ""
    · exact ⟨_, fun _ => if_pos hempty⟩
    · refine ⟨.database, fun t => ?_⟩
      simp only [findOwnedByText, hempty, if_false, hread]
      cases uuids.read id <;> rfl

/-- With one, only that owner's rows are. -/
theorem findOwnedByText_congr {t t' : Table} {userId : Slot String} {owner : Id}
    (h : userId.toOption.bind uuids.read = some owner)
    (hsame : ownedBy (some owner) t = ownedBy (some owner) t') (id : String) :
    findOwnedByText uuids t id userId = findOwnedByText uuids t' id userId := by
  -- the query asks for the owner as well as for the id
  have hfind : ∀ (T : Table) (i : Id), findOwned T i owner =
      (ownedBy (some owner) T).find? fun r => r.id = i := by
    intro T i
    rw [findOwned, ownedBy, List.find?_filter]
    refine congrArg (T.rows.find? ·) (funext fun r => ?_)
    simp [and_comm]
  cases userId with
  | undefined => cases h
  | null => cases h
  | val u =>
    have hread : uuids.read u = some owner := h
    unfold findOwnedByText
    simp only [hread]
    cases uuids.read id with
    | none => rfl
    | some i => simp only [hfind, hsame]

/-- On ids that PostgreSQL reads, the lookup is `findOwnedOrThrow`. -/
theorem findOwnedByText_eq_ok {t : Table} {id userId : String} {i owner : Id}
    {m : ScheduledMessage} (hid : uuids.read id = some i) (howner : uuids.read userId = some owner)
    (hne : owner ≠ "") :
    findOwnedByText uuids t id (.val userId) = .ok m ↔
      findOwnedOrThrow t i (.val owner) = .ok m := by
  have hgiven : userId ≠ "" := by
    rintro rfl
    rw [uuids.read_empty] at howner
    cases howner
  cases hfound : findOwned t i owner with
  | none =>
    simp [findOwnedByText, findOwnedOrThrow, hid, howner, hgiven, hne, hfound, throw, throwThe,
      MonadExceptOf.throw]
  | some r =>
    simp [findOwnedByText, findOwnedOrThrow, hid, howner, hgiven, hne, hfound, pure, Except.pure]

/-- What is found is a row of the owner. -/
theorem findOwnedByText_spec {t : Table} {userId : Slot String} {id : String}
    {m : ScheduledMessage} (h : findOwnedByText uuids t id userId = .ok m) :
    ∃ r, t.get r.id = some r ∧ userId.toOption.bind uuids.read = some r.userId ∧
      m = .ofRow r := by
  cases userId with
  | undefined => cases h
  | null => cases h
  | val u =>
    unfold findOwnedByText at h
    simp only at h
    split at h
    · cases h
    · split at h
      case h_1 i owner hi howner =>
        split at h
        case h_1 r hr =>
          obtain rfl := Except.ok.inj h
          obtain ⟨hget, rfl⟩ := findOwned_eq_some hr
          have hid : r.id = i := (Keyed.get_eq_some.mp hget).2
          exact ⟨r, hid ▸ hget, howner, rfl⟩
        case h_2 => cases h
      case h_2 => cases h

end Code

/-! ## Calls one by one -/

section Calls

variable {uuids : Uuids} {P : Platform} {call : Call}

/-- The service of the abstract layer: a caller sees the rows it owns. -/
def service (uuids : Uuids) (P : Platform) :
    Service Table Call Reply (Option Id) (List Row) where
  perform := perform uuids P
  caller := Call.owner uuids
  view := ownedBy

/-- A call that keeps to its caller's rows, on two tables in which they are the
same. -/
structure Confined (uuids : Uuids) (P : Platform) (call : Call) : Prop where
  alters : ∀ t, call.isFresh t →
    notOwnedBy (call.owner uuids) (perform uuids P t call).1 = notOwnedBy (call.owner uuids) t
  own : ∀ t t', call.isFresh t → call.isFresh t' →
    ownedBy (call.owner uuids) t = ownedBy (call.owner uuids) t' →
    (perform uuids P t call).2 = (perform uuids P t' call).2 ∧
      ownedBy (call.owner uuids) (perform uuids P t call).1 =
        ownedBy (call.owner uuids) (perform uuids P t' call).1

/-- A call without an owner, but for the list, is turned down and changes
nothing. -/
theorem perform_of_no_owner (howner : call.owner uuids = none) (hlist : call.listsAll = false) :
    ∃ e, ∀ t, perform uuids P t call = (t, .error e) := by
  obtain ⟨userId, now, operation⟩ := call
  have hread : userId.toOption.bind uuids.read = none := howner
  cases operation with
  | create fresh dto =>
    cases hcreate : createMessage P now userId dto with
    | error e => exact ⟨.http e, fun t => by simp [perform, create, hcreate]⟩
    | ok m =>
      -- the new row would have the caller's id
      have hids : readIds uuids m = none := by
        simp [readIds, createMessage_userId hcreate, hread]
      exact ⟨.database, fun t => by simp [perform, create, hcreate, hids]⟩
  | findAllByUser =>
    cases userId with
    | undefined => cases hlist
    | null => cases hlist
    | val u =>
      have hnone : uuids.read u = none := hread
      exact ⟨.database, fun t => by simp [perform, findAllByUser, rowsOf, hnone, Except.map]⟩
  | findOne id =>
    obtain ⟨e, he⟩ := findOwnedByText_of_no_owner hread id
    exact ⟨e, fun t => by simp [perform, he, Except.map]⟩
  | update id dto =>
    obtain ⟨e, he⟩ := findOwnedByText_of_no_owner hread id
    exact ⟨e, fun t => by simp [perform, update, changeOwned, he]⟩
  | cancel id =>
    obtain ⟨e, he⟩ := findOwnedByText_of_no_owner hread id
    exact ⟨e, fun t => by simp [perform, cancel, changeOwned, he]⟩

/-- The save of a changed row of the owner. -/
theorem saveChange_ofRow (r : Row)
    {change : ScheduledMessage → Except HttpException ScheduledMessage} (hkeeps : KeepsIds change)
    (answer : ScheduledMessage → List ScheduledMessageResponseDto) :
    (∃ e, ∀ T : Table, T.get r.id = some r →
      saveChange T answer (change (.ofRow r)) = (T, .error e)) ∨
    ∃ m r', r'.id = r.id ∧ r'.userId = r.userId ∧ ∀ T : Table, T.get r.id = some r →
      saveChange T answer (change (.ofRow r)) = (T.put r', .ok (answer m)) := by
  cases hchange : change (.ofRow r) with
  | error e => exact .inl ⟨.http e, fun T _ => rfl⟩
  | ok m =>
    obtain ⟨hid, huser⟩ := hkeeps.keeps _ _ hchange
    have hid' : m.id = .val r.id := hid
    cases hover : m.overwrite r with
    | none =>
      exact .inl ⟨.database, fun T hT => by simp [saveChange, save, hid', hT, hover]⟩
    | some r' =>
      obtain ⟨hsame, hsameUser⟩ := overwrite_ids hover huser
      exact .inr ⟨m, r', hsame, hsameUser, fun T hT => by
        simp [saveChange, save, hid', hT, hover]⟩

/-- What is the same in two tables as far as the user goes is a row of both. -/
theorem get_of_ownedBy {t t' : Table} {user : Option Id} {r : Row}
    (hsame : ownedBy user t = ownedBy user t') (hr : t.get r.id = some r)
    (howner : some r.userId = user) : t'.get r.id = some r := by
  have hmem : r ∈ ownedBy user t :=
    List.mem_filter.mpr ⟨(Keyed.get_eq_some.mp hr).1, decide_eq_true howner⟩
  rw [hsame] at hmem
  exact Keyed.get_eq_some.mpr ⟨(List.mem_filter.mp hmem).1, rfl⟩

theorem confined_of_change {owner : Id} (howner : call.owner uuids = some owner) {id : String}
    {change : ScheduledMessage → Except HttpException ScheduledMessage}
    {answer : ScheduledMessage → List ScheduledMessageResponseDto} (hkeeps : KeepsIds change)
    (hperform : ∀ t, perform uuids P t call =
      changeOwned uuids id call.userId change answer t) :
    Confined uuids P call := by
  -- a call that finds a row of the owner, on any table that has the row
  have hfound : ∀ t m, findOwnedByText uuids t id call.userId = .ok m →
      ∃ r, m = .ofRow r ∧ t.get r.id = some r ∧ some r.userId = call.owner uuids := by
    intro t m hm
    obtain ⟨r, hr, huser, rfl⟩ := findOwnedByText_spec hm
    exact ⟨r, rfl, hr, huser.symm⟩
  constructor
  · intro t _
    rw [hperform t, changeOwned]
    cases hm : findOwnedByText uuids t id call.userId with
    | error e => rfl
    | ok m =>
      obtain ⟨r, rfl, hr, huser⟩ := hfound t m hm
      rcases saveChange_ofRow r hkeeps answer with ⟨e, he⟩ | ⟨m', r', hid, hsame, he⟩
      · simp only [he t hr]
      · simp only [he t hr]
        exact notOwnedBy_put hr hid hsame huser
  · intro t t' _ _ hsame
    have hcongr : findOwnedByText uuids t id call.userId =
        findOwnedByText uuids t' id call.userId :=
      findOwnedByText_congr howner (howner ▸ hsame) id
    rw [hperform t, hperform t', changeOwned, changeOwned, ← hcongr]
    cases hm : findOwnedByText uuids t id call.userId with
    | error e => exact ⟨rfl, hsame⟩
    | ok m =>
      obtain ⟨r, rfl, hr, huser⟩ := hfound t m hm
      -- the row is in both tables, and the save is the same
      have hr' := get_of_ownedBy hsame hr huser
      rcases saveChange_ofRow r hkeeps answer with ⟨e, he⟩ | ⟨m', r', hid, hkept, he⟩
      · simp only [he t hr, he t' hr']
        exact ⟨trivial, hsame⟩
      · simp only [he t hr, he t' hr']
        refine ⟨trivial, ?_⟩
        rw [ownedBy_put hr hid hkept huser, ownedBy_put hr' hid hkept huser, hsame]

theorem confined_of_create {fresh : Id} {dto : CreateScheduledMessageDto}
    (hop : call.operation = .create fresh dto) : Confined uuids P call := by
  have hperform : ∀ t, perform uuids P t call =
      create uuids P call.now fresh call.userId dto t := by
    intro t
    simp only [perform, hop]
  have hfresh : ∀ t, call.isFresh t → t.get fresh = none := by
    intro t ht
    simpa only [Call.isFresh, hop] using ht
  -- the call is turned down, or inserts one row of the owner, whatever the table
  have hcases : (∃ e, ∀ t, perform uuids P t call = (t, .error e)) ∨
      ∃ row reply, some row.userId = call.owner uuids ∧ row.id = fresh ∧
        ∀ t t', t.insert row = some t' → perform uuids P t call = (t', .ok reply) := by
    cases hcreate : createMessage P call.now call.userId dto with
    | error e => exact .inl ⟨.http e, fun t => by simp [hperform, create, hcreate]⟩
    | ok m =>
      cases hids : readIds uuids m with
      | none => exact .inl ⟨.database, fun t => by simp [hperform, create, hcreate, hids]⟩
      | some m' =>
        cases hrow : newRow fresh m' with
        | none =>
          exact .inl ⟨.database, fun t => by
            simp [hperform, create, hcreate, hids, insertNew, hrow]⟩
        | some row =>
          obtain ⟨hid, huser⟩ := newRow_ids hrow
          have hread := readIds_userId hids
          rw [createMessage_userId hcreate] at hread
          refine .inr ⟨row, [toResponse { m with id := .val fresh }], ?_, hid,
            fun t t' ht => ?_⟩
          · rw [huser] at hread
            exact hread.symm
          · simp [hperform, create, hcreate, hids, insertNew, hrow, ht]
  rcases hcases with ⟨e, he⟩ | ⟨row, reply, huser, hid, he⟩
  · exact ⟨fun t _ => by rw [he], fun t t' _ _ hsame => by rw [he, he]; exact ⟨rfl, hsame⟩⟩
  · constructor
    · intro t ht
      obtain ⟨t₁, h₁⟩ := insert_of_fresh (hid.symm ▸ hfresh t ht)
      rw [he t t₁ h₁]
      exact notOwnedBy_insert h₁ huser
    · intro t t' ht ht' hsame
      obtain ⟨t₁, h₁⟩ := insert_of_fresh (hid.symm ▸ hfresh t ht)
      obtain ⟨t₂, h₂⟩ := insert_of_fresh (hid.symm ▸ hfresh t' ht')
      rw [he t t₁ h₁, he t' t₂ h₂]
      refine ⟨rfl, ?_⟩
      rw [ownedBy_insert h₁ huser, ownedBy_insert h₂ huser, hsame]

/-- A look-up changes nothing; what it answers follows from the owner's rows. -/
theorem confined_of_read (reply : Table → Reply)
    (hperform : ∀ t, perform uuids P t call = (t, reply t))
    (hreply : ∀ t t', ownedBy (call.owner uuids) t = ownedBy (call.owner uuids) t' →
      reply t = reply t') :
    Confined uuids P call := by
  constructor
  · intro t _
    rw [hperform]
  · intro t t' _ _ hsame
    rw [hperform, hperform]
    exact ⟨hreply t t' hsame, hsame⟩

/-- Every call but the list without a user id is confined. -/
theorem confined (hlist : call.listsAll = false) : Confined uuids P call := by
  cases howner : call.owner uuids with
  | none =>
    -- it is turned down, the same on every table
    obtain ⟨e, he⟩ := perform_of_no_owner (P := P) howner hlist
    exact confined_of_read _ he fun _ _ _ => rfl
  | some owner =>
    -- the reads ask for the owner's rows, the changes find a row of theirs first
    cases hop : call.operation with
    | create fresh dto => exact confined_of_create hop
    | findAllByUser =>
      obtain ⟨userId, now, operation⟩ := call
      cases userId with
      | undefined => cases howner
      | null => cases howner
      | val u =>
        have hread : uuids.read u = some owner := howner
        have hrows : ∀ t : Table, rowsOf uuids t (.val u) = .ok (ownedBy (some owner) t) := by
          intro t
          simp [rowsOf, hread, ownedBy]
        obtain rfl : operation = .findAllByUser := hop
        refine confined_of_read (fun t => findAllByUser uuids t (.val u)) (fun t => rfl)
          fun t t' hsame => ?_
        rw [howner] at hsame
        simp only [findAllByUser, hrows, hsame]
    | findOne id =>
      have hperform : ∀ t, perform uuids P t call = (t, (findOwnedByText uuids t id
          call.userId).map fun message => [toResponse message]) := by
        intro t
        simp only [perform, hop]
      refine confined_of_read _ hperform fun t t' hsame => ?_
      rw [findOwnedByText_congr howner (howner ▸ hsame) id]
    | update id dto =>
      have hperform : ∀ t, perform uuids P t call =
          update uuids P call.now id call.userId dto t := by
        intro t
        simp only [perform, hop]
      exact confined_of_change howner (keepsIds_update dto) hperform
    | cancel id =>
      have hperform : ∀ t, perform uuids P t call = cancel uuids id call.userId t := by
        intro t
        simp only [perform, hop]
      exact confined_of_change howner keepsIds_cancel hperform

theorem isolated_of_caller (hlist : call.listsAll = false) : Isolated uuids P call where
  alters := (confined hlist).alters
  reads t t' hfresh hfresh' hsame := ((confined hlist).own t t' hfresh hfresh' hsame).1
  nothing howner t _ shown hshown := by
    obtain ⟨e, he⟩ := perform_of_no_owner (P := P) howner hlist
    rw [he] at hshown
    cases hshown

/-- A message of some user. -/
def someMessage : Row where
  id := "m"
  userId := "owner"
  conversationId := "conversation"
  content := "hello"
  metadata := none
  scheduledAt := 0
  status := .pending
  retryCount := 0

def someTable : Table where
  rows := [someMessage]
  nodup := List.nodup_singleton _

/-- The list without a user id is the list of everybody's messages. -/
theorem not_isolated_findAllByUser (hlist : call.listsAll = true) :
    ¬ Isolated uuids P call := by
  obtain ⟨userId, now, operation⟩ := call
  intro hisolated
  cases operation with
  | findAllByUser =>
    -- the caller has no rows, and the one row there is is shown to it
    have hshown : ∀ id : Slot String, id.toOption = none →
        (perform uuids P someTable ⟨id, now, .findAllByUser⟩).2 =
          .ok [toResponse (.ofRow someMessage)] := by
      intro id hid
      cases id with
      | undefined => simp [perform, findAllByUser, rowsOf, byTime, someTable, Except.map]
      | null => simp [perform, findAllByUser, rowsOf, byTime, someTable, Except.map]
      | val u => cases hid
    have hnone : userId.toOption = none := by
      cases userId with
      | undefined => rfl
      | null => rfl
      | val u => cases hlist
    have howner : (Call.mk userId now .findAllByUser).owner uuids = none := by
      simp [Call.owner, hnone]
    have := hisolated.nothing howner someTable trivial _ (hshown userId hnone)
    cases this
  | create => cases hlist
  | findOne => cases hlist
  | update => cases hlist
  | cancel => cases hlist

end Calls

/-! ## Sequences of calls -/

section Sequences

variable (uuids : Uuids) (P : Platform)

/-- The calls that keep to their caller's rows, with the ids the database has not
given before. -/
def Kept (t : Table) (call : Call) : Prop := call.isFresh t ∧ call.listsAll = false

theorem isolates : Isolates (service uuids P) Kept where
  others t call user hkept hother := by
    -- the rows of another user are some of those the call leaves alone
    have hsub : ∀ T : Table, ownedBy user T =
        (notOwnedBy (call.owner uuids) T).filter fun r => some r.userId = user := by
      intro T
      rw [notOwnedBy, List.filter_filter]
      refine List.filter_congr fun r _ => ?_
      by_cases huser : some r.userId = user
      · have hne : user ≠ call.owner uuids := fun h => hother h.symm
        simp [huser, hne]
      · simp [huser]
    show ownedBy user (perform uuids P t call).1 = ownedBy user t
    rw [hsub, hsub, (confined hkept.2).alters t hkept.1]
  own t t' call hkept hkept' hsame := (confined hkept.2).own t t' hkept.1 hkept'.1 hsame

/-- **Users are isolated, with an id.** A call keeps to its caller's rows on every
table exactly when it is not the list without a user id; and in a sequence of
such calls every user gets the replies, and is left the rows, that it would have
without the calls of the others. -/
theorem users_isolated_iff :
    (∀ call, Isolated uuids P call ↔ call.listsAll = false) ∧
    ∀ (user : Option Id) (calls : List Call) (t t' : Table),
      (service uuids P).Allowed Kept t calls →
      (service uuids P).Allowed Kept t' ((service uuids P).purge user calls) →
      ownedBy user t = ownedBy user t' →
      (service uuids P).replies user t calls =
          (service uuids P).replies user t' ((service uuids P).purge user calls) ∧
        ownedBy user ((service uuids P).final t calls) =
          ownedBy user ((service uuids P).final t' ((service uuids P).purge user calls)) := by
  constructor
  · intro call
    constructor
    · intro hisolated
      cases hlist : call.listsAll with
      | false => rfl
      | true => exact absurd hisolated (not_isolated_findAllByUser hlist)
    · exact isolated_of_caller
  · intro user calls t t' hkept hkept' hsame
    exact (isolates uuids P).noninterference hkept hkept' hsame

end Sequences

/-- Texts that are their own ids. -/
def plainIds : Uuids where
  read text := if text = "" then none else some text
  read_empty := rfl

/-- Another user asks to cancel the message of `someTable`, and its owner lists
the messages: the list is the one without the first call. -/
theorem users_isolated_iff_twoUsers :
    (service plainIds (carrying fun _ => .invalid)).replies (some "owner") someTable
        [⟨.val "other", 0, .cancel "m"⟩, ⟨.val "owner", 0, .findAllByUser⟩] =
      (service plainIds (carrying fun _ => .invalid)).replies (some "owner") someTable
        [⟨.val "owner", 0, .findAllByUser⟩] :=
  ((users_isolated_iff plainIds (carrying fun _ => .invalid)).2 (some "owner")
    [⟨.val "other", 0, .cancel "m"⟩, ⟨.val "owner", 0, .findAllByUser⟩] someTable someTable
    ⟨⟨trivial, rfl⟩, ⟨trivial, rfl⟩, trivial⟩ ⟨⟨trivial, rfl⟩, trivial⟩ rfl).1

/-- A caller without an id lists the message of `someTable`. -/
theorem undefined_user_lists_all :
    ¬ ∀ call, Isolated plainIds (carrying fun _ => .invalid) call := fun h =>
  not_isolated_findAllByUser (show Call.listsAll ⟨.undefined, 0, .findAllByUser⟩ = true from rfl)
    (h _)

end SchedulingService.Messages
