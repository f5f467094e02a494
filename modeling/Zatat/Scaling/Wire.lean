import Zatat.Core.SocketId
import Zatat.Lib.Wire
import Zatat.Protocol.Primitives
import Zatat.Scaling.Message

/-! # Envelopes on the wire

An envelope is one object: its own fields, the tag of its payload and the
payload's fields. The records below give for each field its name, whether it
may be left out and what stands for it when it is missing, in the order in which
they are written.
-/

namespace Zatat

open Wire Wire.Field
open Wire.Record (field)

/-! ## JSON values -/

namespace Value

variable {α : Type}

def text : Format Value String := ⟨.string, asStr⟩

def asBool : Value → Option Bool
  | .bool value => some value
  | _ => none

def flag : Format Value Bool := ⟨.bool, asBool⟩

/-- The number that a text of digits stands for, if the type has it. -/
def asUnsigned (bits : Nat) : Value → Option Nat
  | .number text =>
    if isDigits text.toList then
      (some (Nat.ofDigitChars 10 text.toList 0)).filter fun n => n < 2 ^ bits
    else none
  | _ => none

def unsigned (bits : Nat) : Format Value Nat := ⟨fun n => .number (toString n), asUnsigned bits⟩

/-- `usize` on the platforms the server is built for. -/
def size : Format Value Nat := unsigned 64

def any : Format Value Value := ⟨id, some⟩

/-- `null` stands for a value that is not there. -/
def readOption (f : Format Value α) : Value → Option (Option α)
  | .null => some none
  | value => (f.read value).map some

def option (f : Format Value α) : Format Value (Option α) where
  write a := a.elim .null f.write
  read := readOption f

def asArray : Value → Option (List Value)
  | .array items => some items
  | _ => none

def list (f : Format Value α) : Format Value (List α) where
  write items := .array (items.map f.write)
  read value := value.asArray.bind fun items => items.mapM f.read

def asObject : Value → Option (List (String × Value))
  | .object fields => some fields
  | _ => none

def struct (r : Record Value α) : Format Value α where
  write a := .object (r.write a)
  read value := value.asObject.bind r.read

/-- `default, skip_serializing_if = "Option::is_none"`. -/
def optional (name : String) (f : Format Value α) : Field Value (Option α) :=
  skipIf name (option f) Option.isNone none

/-- `default, skip_serializing_if = "std::ops::Not::not"`. -/
def flagged (name : String) : Field Value Bool := skipIf name flag not false

end Value

open Value

/-! ## The parts of a payload -/

def AppRef.record : Record Value AppRef :=
  ((field (required "id" text)).and (field (required "key" text))).imap
    ⟨fun t => ⟨t.1, t.2⟩, fun a => (a.id, a.key), fun _ => rfl, fun _ => rfl⟩

def ChannelCount.record : Record Value ChannelCount :=
  ((field (required "channel" text)).and (field (required "count" size))).imap
    ⟨fun t => ⟨t.1, t.2⟩, fun c => (c.channel, c.count), fun _ => rfl, fun _ => rfl⟩

def MetricsQuery.record : Record Value MetricsQuery :=
  ((field (withDefault "filter_by_prefix" (option text) none)).and <|
    (field (withDefault "info" (option text) none)).and <|
    field (withDefault "connections_only" flag false)).imap
    ⟨fun t => ⟨t.1, t.2.1, t.2.2⟩, fun q => (q.filterByPrefix, q.info, q.connectionsOnly),
      fun _ => rfl, fun _ => rfl⟩

def ChannelMetric.record : Record Value ChannelMetric :=
  ((field (required "name" text)).and <| (field (required "occupied" flag)).and <|
    (field (required "subscription_count" size)).and <|
    (field (optional "user_count" size)).and <|
    (field (withDefault "has_cached_payload" flag false)).and <|
    field (skipIf "presence_user_ids" (list text) List.isEmpty [])).imap
    ⟨fun t => ⟨t.1, t.2.1, t.2.2.1, t.2.2.2.1, t.2.2.2.2.1, t.2.2.2.2.2⟩,
      fun m => (m.name, m.occupied, m.subscriptionCount, m.userCount, m.hasCachedPayload,
        m.presenceUserIds), fun _ => rfl, fun _ => rfl⟩

def PresenceSnapshotMember.record : Record Value PresenceSnapshotMember :=
  ((field (required "user_id" text)).and (field (optional "user_info" any))).imap
    ⟨fun t => ⟨t.1, t.2⟩, fun m => (m.userId, m.userInfo), fun _ => rfl, fun _ => rfl⟩

/-! ## Payloads -/

namespace ScalingPayload

def message : Variant Value ScalingPayload where
  tag := "message"
  Body := String × String × String × String × Option String
  body := (field (withDefault "origin_node_id" text "")).and <|
    (field (required "channel" text)).and <| (field (required "event" text)).and <|
    (field (required "data" text)).and <| field (optional "except_socket_id" text)
  make t := .Message t.1 t.2.1 t.2.2.1 t.2.2.2.1 t.2.2.2.2
  make_injective := by
    rintro ⟨_, _, _, _, _⟩ ⟨_, _, _, _, _⟩ ⟨⟩
    rfl

def terminate : Variant Value ScalingPayload where
  tag := "terminate"
  Body := String
  body := field (required "socket_id" text)
  make := .Terminate
  make_injective := by
    rintro _ _ ⟨⟩
    rfl

def terminateUser : Variant Value ScalingPayload where
  tag := "terminate_user"
  Body := String × String
  body := (field (withDefault "origin_node_id" text "")).and (field (required "user_id" text))
  make t := .TerminateUser t.1 t.2
  make_injective := by
    rintro ⟨_, _⟩ ⟨_, _⟩ ⟨⟩
    rfl

def clientEvent : Variant Value ScalingPayload where
  tag := "client_event"
  Body := String × String × String × String × String × Option String
  body := (field (withDefault "origin_node_id" text "")).and <|
    (field (required "channel" text)).and <| (field (required "event" text)).and <|
    (field (required "data" text)).and <| (field (required "socket_id" text)).and <|
    field (optional "user_id" text)
  make t := .ClientEvent t.1 t.2.1 t.2.2.1 t.2.2.2.1 t.2.2.2.2.1 t.2.2.2.2.2
  make_injective := by
    rintro ⟨_, _, _, _, _, _⟩ ⟨_, _, _, _, _, _⟩ ⟨⟩
    rfl

def presenceSnapshot : Variant Value ScalingPayload where
  tag := "presence_snapshot"
  Body := String × String × List PresenceSnapshotMember
  body := (field (required "node_id" text)).and <| (field (required "channel" text)).and <|
    field (required "members" (list (struct PresenceSnapshotMember.record)))
  make t := .PresenceSnapshot t.1 t.2.1 t.2.2
  make_injective := by
    rintro ⟨_, _, _⟩ ⟨_, _, _⟩ ⟨⟩
    rfl

def userEvent : Variant Value ScalingPayload where
  tag := "user_event"
  Body := String × String × String × String
  body := (field (withDefault "origin_node_id" text "")).and <|
    (field (required "user_id" text)).and <| (field (required "event" text)).and <|
    field (required "data" text)
  make t := .UserEvent t.1 t.2.1 t.2.2.1 t.2.2.2
  make_injective := by
    rintro ⟨_, _, _, _⟩ ⟨_, _, _, _⟩ ⟨⟩
    rfl

def metricsRequest : Variant Value ScalingPayload where
  tag := "metrics_request"
  Body := String × String × MetricsQuery
  body := (field (required "request_id" text)).and <|
    (field (required "requester_node_id" text)).and <|
    field (required "query" (struct MetricsQuery.record))
  make t := .MetricsRequest t.1 t.2.1 t.2.2
  make_injective := by
    rintro ⟨_, _, _⟩ ⟨_, _, _⟩ ⟨⟩
    rfl

def metricsResponse : Variant Value ScalingPayload where
  tag := "metrics_response"
  Body := String × String × List ChannelMetric × Nat
  body := (field (required "request_id" text)).and <| (field (required "node_id" text)).and <|
    (field (required "channels" (list (struct ChannelMetric.record)))).and <|
    field (withDefault "connections" size 0)
  make t := .MetricsResponse t.1 t.2.1 t.2.2.1 t.2.2.2
  make_injective := by
    rintro ⟨_, _, _, _⟩ ⟨_, _, _, _⟩ ⟨⟩
    rfl

def memberAdded : Variant Value ScalingPayload where
  tag := "member_added"
  Body := String × String × String × Option Value
  body := (field (required "origin_node_id" text)).and <|
    (field (required "channel" text)).and <| (field (required "user_id" text)).and <|
    field (optional "user_info" any)
  make t := .MemberAdded t.1 t.2.1 t.2.2.1 t.2.2.2
  make_injective := by
    rintro ⟨_, _, _, _⟩ ⟨_, _, _, _⟩ ⟨⟩
    rfl

def memberRemoved : Variant Value ScalingPayload where
  tag := "member_removed"
  Body := String × String × String × Bool × Bool
  body := (field (required "origin_node_id" text)).and <|
    (field (required "channel" text)).and <| (field (required "user_id" text)).and <|
    (field (flagged "webhook_withheld")).and <| field (flagged "vacated_withheld")
  make t := .MemberRemoved t.1 t.2.1 t.2.2.1 t.2.2.2.1 t.2.2.2.2
  make_injective := by
    rintro ⟨_, _, _, _, _⟩ ⟨_, _, _, _, _⟩ ⟨⟩
    rfl

def subscriptionCount : Variant Value ScalingPayload where
  tag := "subscription_count"
  Body := String × String × Nat × Bool
  body := (field (required "origin_node_id" text)).and <|
    (field (required "channel" text)).and <| (field (required "count" size)).and <|
    field (flagged "vacated_withheld")
  make t := .SubscriptionCount t.1 t.2.1 t.2.2.1 t.2.2.2
  make_injective := by
    rintro ⟨_, _, _, _⟩ ⟨_, _, _, _⟩ ⟨⟩
    rfl

def userOnline : Variant Value ScalingPayload where
  tag := "user_online"
  Body := String × String
  body := (field (required "origin_node_id" text)).and (field (required "user_id" text))
  make t := .UserOnline t.1 t.2
  make_injective := by
    rintro ⟨_, _⟩ ⟨_, _⟩ ⟨⟩
    rfl

def userOffline : Variant Value ScalingPayload where
  tag := "user_offline"
  Body := String × String
  body := (field (required "origin_node_id" text)).and (field (required "user_id" text))
  make t := .UserOffline t.1 t.2
  make_injective := by
    rintro ⟨_, _⟩ ⟨_, _⟩ ⟨⟩
    rfl

def channelCountSnapshot : Variant Value ScalingPayload where
  tag := "channel_count_snapshot"
  Body := String × List ChannelCount
  body := (field (required "node_id" text)).and
    (field (required "counts" (list (struct ChannelCount.record))))
  make t := .ChannelCountSnapshot t.1 t.2
  make_injective := by
    rintro ⟨_, _⟩ ⟨_, _⟩ ⟨⟩
    rfl

def userSessionSnapshot : Variant Value ScalingPayload where
  tag := "user_session_snapshot"
  Body := String × List String
  body := (field (required "node_id" text)).and (field (required "user_ids" (list text)))
  make t := .UserSessionSnapshot t.1 t.2
  make_injective := by
    rintro ⟨_, _⟩ ⟨_, _⟩ ⟨⟩
    rfl

def variants : List (Variant Value ScalingPayload) :=
  [message, terminate, terminateUser, clientEvent, presenceSnapshot, userEvent, metricsRequest,
    metricsResponse, memberAdded, memberRemoved, subscriptionCount, userOnline, userOffline,
    channelCountSnapshot, userSessionSnapshot]

def split : ScalingPayload → (variant : Variant Value ScalingPayload) × variant.Body
  | .Message origin channel event data except => ⟨message, (origin, channel, event, data, except)⟩
  | .Terminate socketId => ⟨terminate, socketId⟩
  | .TerminateUser origin userId => ⟨terminateUser, (origin, userId)⟩
  | .ClientEvent origin channel event data socketId userId =>
    ⟨clientEvent, (origin, channel, event, data, socketId, userId)⟩
  | .PresenceSnapshot nodeId channel members => ⟨presenceSnapshot, (nodeId, channel, members)⟩
  | .UserEvent origin userId event data => ⟨userEvent, (origin, userId, event, data)⟩
  | .MetricsRequest requestId requester query => ⟨metricsRequest, (requestId, requester, query)⟩
  | .MetricsResponse requestId nodeId channels connections =>
    ⟨metricsResponse, (requestId, nodeId, channels, connections)⟩
  | .MemberAdded origin channel userId userInfo =>
    ⟨memberAdded, (origin, channel, userId, userInfo)⟩
  | .MemberRemoved origin channel userId webhookWithheld vacatedWithheld =>
    ⟨memberRemoved, (origin, channel, userId, webhookWithheld, vacatedWithheld)⟩
  | .SubscriptionCount origin channel count vacatedWithheld =>
    ⟨subscriptionCount, (origin, channel, count, vacatedWithheld)⟩
  | .UserOnline origin userId => ⟨userOnline, (origin, userId)⟩
  | .UserOffline origin userId => ⟨userOffline, (origin, userId)⟩
  | .ChannelCountSnapshot nodeId counts => ⟨channelCountSnapshot, (nodeId, counts)⟩
  | .UserSessionSnapshot nodeId userIds => ⟨userSessionSnapshot, (nodeId, userIds)⟩

/-- `tag = "type", rename_all = "snake_case"`. -/
def union : Union Value ScalingPayload where
  tagName := "type"
  text := text
  variants := variants
  split := split
  split_mem a := by cases a <;> simp [split, variants]
  make_split a := by cases a <;> rfl
  tags_nodup := by decide
  tagName_notMem := by decide
  text_keeps _ := rfl

end ScalingPayload

/-! ## Envelopes -/

def isZero (n : Nat) : Bool := n == 0

/-- The payload is flattened: its tag and fields stand beside those of the envelope, whose
names it does not use. -/
def ScalingEnvelope.record : Record Value ScalingEnvelope :=
  ((field (required "v" (unsigned 8))).and <| (field (skipIf "seq" (unsigned 64) isZero 0)).and <|
    (field (required "app" (struct AppRef.record))).and ScalingPayload.union.record).imap
    ⟨fun t => ⟨t.1, t.2.1, t.2.2.1, t.2.2.2⟩, fun e => (e.version, e.seq, e.app, e.payload),
      fun _ => rfl, fun _ => rfl⟩

def ScalingEnvelope.format : Format Value ScalingEnvelope := struct ScalingEnvelope.record

example : ScalingEnvelope.format.write ⟨2, 0, ⟨"app", "key"⟩, .Terminate "1.2"⟩ =
    .object [("v", .number "2"), ("app", .object [("id", .string "app"), ("key", .string "key")]),
      ("type", .string "terminate"), ("socket_id", .string "1.2")] := by
  rfl

structure SerdeJson where
  toVec : Value → List UInt8
  fromSlice : List UInt8 → Option Value

/-- The text printed for an envelope is read as the value it was printed from. -/
def SerdeJson.ReadsBack (json : SerdeJson) (env : ScalingEnvelope) : Prop :=
  json.fromSlice (json.toVec (ScalingEnvelope.format.write env)) =
    some (ScalingEnvelope.format.write env)

def ScalingEnvelope.toVec (json : SerdeJson) (env : ScalingEnvelope) : List UInt8 :=
  json.toVec (ScalingEnvelope.format.write env)

def parse (json : SerdeJson) (bytes : List UInt8) : Option ScalingEnvelope :=
  (json.fromSlice bytes).bind ScalingEnvelope.format.read

end Zatat
