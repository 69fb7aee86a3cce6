import SchedulingService.Js.ProtobufEncode
import SchedulingService.Grpc.Requests
import SchedulingService.Messages.Service
import SchedulingService.Scheduler.Targets

/-!
# The messaging client

`MessagingGrpcClient.sendScheduledMessage` hands its argument to the client
that the loader made of `messaging.proto`. `grpc.module.ts` has that loader
keep the names of the `.proto`, while the argument has the keys of the
TypeScript interface, so all that is put on the wire of a request is its
content and its metadata.

Main results:

* `fromObject_request` — what the encoder makes of any request.
* `survives_iff` — a request survives exactly when it has nothing to lose.
* `sendMessage_never_survives` — no request of `sendMessage` does.
* `fromObject_under_interface` — with the option the interface is written for,
  all fields are put on the wire, the time as the epoch.
-/

namespace SchedulingService.Grpc

open Js Js.Protobuf

/-! ## The message of messaging.proto -/

/-- `enum MessageType`. -/
def messageTypeNames : List (Int32 × String) :=
  [(0, "MESSAGE_TYPE_UNSPECIFIED"), (1, "TEXT"), (2, "IMAGE"), (3, "VIDEO"), (4, "AUDIO"),
    (5, "FILE"), (6, "SYSTEM")]

structure SendScheduledMessageRequest where
  conversation_id : String
  sender_id : String
  message_type : Int32
  content : String
  metadata : List (String × String)
  scheduled_for : Option Timestamp
  deriving DecidableEq

/-- The loader options of `grpc.module.ts`. -/
def messagingLoader : LoaderOptions where
  keepCase := true
  enumsAsString := true

/-- The message encoded for the object `d`. -/
def SendScheduledMessageRequest.fromObject (o : LoaderOptions) (C : Conversions) (d : Value) :
    Option SendScheduledMessageRequest := do
  let conversation_id ← C.readString (d.get (o.key "conversation_id"))
  let sender_id ← C.readString (d.get (o.key "sender_id"))
  let content ← C.readString (d.get (o.key "content"))
  let metadata ← C.readStringMap (d.get (o.key "metadata"))
  let scheduled_for ← C.readTimestamp (d.get (o.key "scheduled_for"))
  some {
    conversation_id
    sender_id
    message_type := readEnum messageTypeNames (d.get (o.key "message_type"))
    content
    metadata
    scheduled_for }

/-! ## The requests that are passed -/

/-- The object `sendMessage` passes. -/
def sentObject (request : Messages.SendScheduledMessageRequest) : Value :=
  .obj [
    ("conversationId", request.conversationId.toValue .str),
    ("senderId", request.senderId.toValue .str),
    ("messageType", .str request.messageType),
    ("content", request.content.toValue .str),
    ("metadata", request.metadata.value),
    ("scheduledFor", request.scheduledFor.toValue .date)]

/-- A call of `sendScheduledMessage`, by where it comes from. -/
inductive Caller
  | sendMessage (message : Messages.ScheduledMessage)
  | executeMessagingJob (payload : Value)

/-- The request object it passes. -/
def Caller.request (rt : Scheduler.Runtime) : Caller → Value
  | sendMessage message => sentObject (Messages.sendRequest message)
  | executeMessagingJob payload => Scheduler.scheduledMessageRequest rt payload

/-- The keys of the interface, in the order of the object literals. -/
theorem request_keys (rt : Scheduler.Runtime) (caller : Caller) :
    ∃ v₁ v₂ v₃ v₄ v₅ v₆, caller.request rt = .obj [("conversationId", v₁), ("senderId", v₂),
      ("messageType", v₃), ("content", v₄), ("metadata", v₅), ("scheduledFor", v₆)] := by
  cases caller
  case sendMessage message => exact ⟨_, _, _, _, _, _, rfl⟩
  case executeMessagingJob payload => exact ⟨_, _, _, _, _, _, rfl⟩

/-! ## What a message says -/

/-- An enum value by its name or its number; UNSPECIFIED is as good as
missing. -/
def SaysType (v : Value) (n : Int32) : Prop :=
  (∃ name, v = .str name ∧ messageTypeNames.lookup n = some name) ∨ v = int32Value n ∨
    n = 0 ∧ v.isNullish

/-- The same keys with the same values. -/
def SaysMap (v : Value) (m : List (String × String)) : Prop :=
  v = .obj (m.map fun e => (e.1, .str e.2)) ∨ m = [] ∧ v.isNullish

/-- The same instant; an Invalid Date is none. -/
def SaysInstant (v : Value) : Option Timestamp → Prop
  | none => v.isNullish ∨ v = .date .invalid
  | some t => v = .date (.ms t.millis)

/-- The message says what the request object does. -/
structure SendScheduledMessageRequest.Says (m : SendScheduledMessageRequest) (r : Value) :
    Prop where
  conversation : SaysText (r.get "conversationId") m.conversation_id
  sender : SaysText (r.get "senderId") m.sender_id
  messageType : SaysType (r.get "messageType") m.message_type
  content : SaysText (r.get "content") m.content
  metadata : SaysMap (r.get "metadata") m.metadata
  time : SaysInstant (r.get "scheduledFor") m.scheduled_for

/-- A message is put on the wire that says what the request does. -/
def Survives (o : LoaderOptions) (C : Conversions) (r : Value) : Prop :=
  ∃ m, SendScheduledMessageRequest.fromObject o C r = some m ∧ m.Says r

/-- A request with nothing in the fields the encoder passes over, and with
text only in the other two. -/
structure NothingToLose (r : Value) : Prop where
  conversation : SaysText (r.get "conversationId") ""
  sender : SaysText (r.get "senderId") ""
  messageType : SaysType (r.get "messageType") 0
  time : SaysInstant (r.get "scheduledFor") none
  content : ∃ s, SaysText (r.get "content") s
  metadata : ∃ m, SaysMap (r.get "metadata") m

/-! ## What is put on the wire -/

/-- **Of a request the content and the metadata arrive.** -/
theorem fromObject_request (rt : Scheduler.Runtime) (C : Conversions) (caller : Caller) :
    SendScheduledMessageRequest.fromObject messagingLoader C (caller.request rt) = (do
      let content ← C.readString ((caller.request rt).get "content")
      let metadata ← C.readStringMap ((caller.request rt).get "metadata")
      some {
        conversation_id := ""
        sender_id := ""
        message_type := 0
        content
        metadata
        scheduled_for := none }) := by
  obtain ⟨v₁, v₂, v₃, v₄, v₅, v₆, hr⟩ := request_keys rt caller
  rw [hr]
  -- with `keepCase` the names of the `.proto` are asked for
  simp [SendScheduledMessageRequest.fromObject, LoaderOptions.key, messagingLoader, Value.get,
    List.lookup_cons]

/-- A text that is said is the one that is read. -/
theorem readString_of_saysText (C : Conversions) {v : Value} {s : String} (h : SaysText v s) :
    C.readString v = some s := by
  rcases h with rfl | ⟨rfl, hv⟩
  · exact C.readString_str s
  · rw [Conversions.readString, if_pos hv]

/-- So is a map. -/
theorem readStringMap_of_saysMap (C : Conversions) {v : Value} {m : List (String × String)}
    (h : SaysMap v m) : C.readStringMap v = some m := by
  rcases h with rfl | ⟨rfl, hv⟩
  · rw [C.readStringMap_obj]
    exact C.mapM_readEntry_strings m
  · -- nullish values are falsy
    cases v <;> first | rfl | cases hv

/-- **Survival.** A request object passed to the client survives its encoding
exactly when it has nothing to lose. -/
theorem survives_iff (rt : Scheduler.Runtime) (C : Conversions) (caller : Caller) :
    Survives messagingLoader C (caller.request rt) ↔ NothingToLose (caller.request rt) := by
  unfold Survives
  rw [fromObject_request]
  constructor
  · rintro ⟨m, hm, hsays⟩
    simp only [Option.bind_eq_bind, Option.bind_eq_some_iff, Option.some.injEq] at hm
    obtain ⟨content, -, metadata, -, rfl⟩ := hm
    exact {
      conversation := hsays.conversation
      sender := hsays.sender
      messageType := hsays.messageType
      time := hsays.time
      content := ⟨content, hsays.content⟩
      metadata := ⟨metadata, hsays.metadata⟩ }
  · intro h
    obtain ⟨content, hcontent⟩ := h.content
    obtain ⟨metadata, hmetadata⟩ := h.metadata
    rw [readString_of_saysText C hcontent, readStringMap_of_saysMap C hmetadata]
    exact ⟨_, rfl, h.conversation, h.sender, h.messageType, hcontent, hmetadata, h.time⟩

/-- `TEXT` is not the type of an unset field, so nothing that `sendMessage`
passes survives. -/
theorem sendMessage_never_survives (rt : Scheduler.Runtime) (C : Conversions)
    (message : Messages.ScheduledMessage) :
    ¬ Survives messagingLoader C ((Caller.sendMessage message).request rt) := by
  rw [survives_iff]
  intro h
  have htype : SaysType (.str "TEXT") 0 := h.messageType
  rcases htype with ⟨name, hname, hlookup⟩ | hnum | ⟨-, hnullish⟩
  · obtain rfl := Value.str.inj hname
    exact absurd hlookup (by decide)
  · cases hnum
  · cases hnullish

/-! ## The counterexample -/

/-- A job's payload with everything a message needs. -/
def reminderPayload : Value :=
  .obj [
    ("conversationId", .str "7d1f3c52-0000-4000-8000-000000000001"),
    ("senderId", .str "7d1f3c52-0000-4000-8000-000000000002"),
    ("messageType", .str "TEXT"),
    ("content", .str "hello"),
    ("metadata", .obj [("type", .str "reminder")]),
    ("scheduledFor", .str "2026-01-01T10:00:00.000Z")]

/-- Of the reminder only the text and its metadata are put on the wire. -/
theorem reminder_does_not_survive :
    let rt : Scheduler.Runtime :=
      { parseJson := fun _ => none
        newDate := fun _ => .ms 1767261600000
        toISOString := fun _ => "2026-01-01T09:00:00.000Z"
        now := 1767258000000 }
    let C : Conversions :=
      { numberString := fun _ => ""
        dateString := fun _ => ""
        long := fun _ => none
        int32 := fun _ => none }
    let r := (Caller.executeMessagingJob reminderPayload).request rt
    SendScheduledMessageRequest.fromObject messagingLoader C r =
      some {
        conversation_id := ""
        sender_id := ""
        message_type := 0
        content := "hello"
        metadata := [("type", "reminder")]
        scheduled_for := none } ∧
      ¬ Survives messagingLoader C r := by
  intro rt C r
  have hmetadata : C.readStringMap (r.get "metadata") = some [("type", "reminder")] :=
    readStringMap_of_saysMap C (.inl rfl)
  have hcontent : C.readString (r.get "content") = some "hello" :=
    readString_of_saysText C (.inl rfl)
  refine ⟨?_, ?_⟩
  · rw [fromObject_request, hcontent, hmetadata]
    rfl
  · rw [survives_iff]
    intro h
    -- the conversation's id is set
    have hlost : SaysText (.str "7d1f3c52-0000-4000-8000-000000000001") "" := h.conversation
    rcases hlost with hempty | ⟨-, hnullish⟩
    · exact absurd (Value.str.inj hempty) (by decide)
    · cases hnullish

/-! ## With the option the interface is written for -/

/-- Without `keepCase` every field of a complete request is put on the wire,
but a `Date` is no `Timestamp`: the time becomes the epoch. -/
theorem fromObject_under_interface (C : Conversions) (conversation sender content : String)
    (metadata : List (String × String)) (time : Date) :
    SendScheduledMessageRequest.fromObject interfaceLoader C (sentObject {
        conversationId := .val conversation
        senderId := .val sender
        messageType := "TEXT"
        content := .val content
        metadata := .obj (metadata.map fun e => (e.1, .str e.2))
        scheduledFor := .val time }) =
      some {
        conversation_id := conversation
        sender_id := sender
        message_type := 1
        content
        metadata
        scheduled_for := some { seconds := 0, nanos := 0 } } := by
  have hconversation : interfaceLoader.key "conversation_id" = "conversationId" := by decide
  have hsender : interfaceLoader.key "sender_id" = "senderId" := by decide
  have htype : interfaceLoader.key "message_type" = "messageType" := by decide
  have hcontent : interfaceLoader.key "content" = "content" := by decide
  have hmetadata : interfaceLoader.key "metadata" = "metadata" := by decide
  have htime : interfaceLoader.key "scheduled_for" = "scheduledFor" := by decide
  have hmap := readStringMap_of_saysMap C (v := .obj (metadata.map fun e => (e.1, .str e.2)))
    (.inl rfl)
  have hnumber : readEnum messageTypeNames (.str "TEXT") = 1 := by decide
  simp [SendScheduledMessageRequest.fromObject, hconversation, hsender, htype, hcontent,
    hmetadata, htime, sentObject, Slot.toValue, Value.get, List.lookup_cons, hmap, hnumber,
    Conversions.readTimestamp_date]

end SchedulingService.Grpc
