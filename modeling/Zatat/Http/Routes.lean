import Zatat.Scaling.Publish

/-! # Publishing over HTTP

`publish_event` and `publish_batch_events` from the point where the application
is resolved, the signature verified and the body parsed. All events of a request
are checked before the first one is dispatched. Then the requests about one user.
-/

namespace Zatat.Http

open FiniteMap

structure EventPayload where
  name : String
  data : Value
  channels : Option (List String)
  channel : Option String
  socketId : Option String
  info : Option String

structure ApiError where
  code : Nat
  message : String
deriving DecidableEq, Repr

def maxChannelsPerEvent : Nat := 100

def userChannelStart : String := "#server-to-user-"

/-- `strip_prefix("#server-to-user-")`. -/
def userOfChannel (channel : String) : Option String :=
  if startsWith channel userChannelStart then
    some (String.ofList (channel.toList.drop userChannelStart.length))
  else none

def eventChannels (ev : EventPayload) : List String :=
  match ev.channels with
  | some list => list
  | none =>
    match ev.channel with
    | some one => [one]
    | none => []

section

variable (prims : Primitives)

def dataToString : Value → String
  | .string s => s
  | v => prims.toText v

/-! ## Validation -/

def validateEventName (name : String) : Except ApiError Unit :=
  if name.isEmpty then .error ⟨400, "event name is required"⟩
  else if name.utf8ByteSize > maxEventNameLen then
    .error ⟨422, "event name exceeds " ++ toString maxEventNameLen ++ " bytes"⟩
  else .ok ()

def validateChannelName (ch : String) : Except ApiError Unit :=
  match userOfChannel ch with
  | some userId =>
    if userId.isEmpty then .error ⟨400, "invalid channel name: " ++ ch⟩ else .ok ()
  | none =>
    if !isValidChannelName ch then .error ⟨400, "invalid channel name: " ++ ch⟩ else .ok ()

/-- The body of the loop over an event's channels. -/
def validateChannel (app : Application) (data ch : String) : Except ApiError Unit :=
  if ch.isEmpty then .error ⟨400, "channel name must not be empty"⟩
  else if ch.utf8ByteSize > maxChannelNameLen then
    .error ⟨422, "channel name exceeds " ++ toString maxChannelNameLen ++ " bytes: " ++ ch⟩
  else
    match validateChannelName ch with
    | .error err => .error err
    | .ok () =>
      match validatePublish prims app ch data with
      | .error err => .error ⟨400, ch ++ ": " ++ err.display⟩
      | .ok () => .ok ()

/-- The loops of the source that leave at the first error. -/
def forAll {α : Type} (check : α → Except ApiError Unit) : List α → Except ApiError Unit
  | [] => .ok ()
  | x :: rest =>
    match check x with
    | .error err => .error err
    | .ok () => forAll check rest

def validateEventPayload (app : Application) (ev : EventPayload) : Except ApiError Unit :=
  match validateEventName ev.name with
  | .error err => .error err
  | .ok () =>
    let channels := eventChannels ev
    if channels.length > maxChannelsPerEvent then
      .error ⟨400, "an event may target at most " ++ toString maxChannelsPerEvent ++ " channels"⟩
    else if channels.isEmpty then .error ⟨400, "event must specify `channel` or `channels`"⟩
    else forAll (validateChannel prims app (dataToString prims ev.data)) channels

/-! ## Channel stats in a response -/

structure ChannelStats where
  occupied : Bool
  subscriptionCount : Nat
  userCount : Option Nat
  hasCachedPayload : Bool

/-- The characters of Unicode's `White_Space`, which `str::trim` drops. -/
def isWhiteSpace (c : Char) : Bool :=
  let n := c.toNat
  (0x9 ≤ n && n ≤ 0xD) || (0x2000 ≤ n && n ≤ 0x200A) ||
    [0x20, 0x85, 0xA0, 0x1680, 0x2028, 0x2029, 0x202F, 0x205F, 0x3000].contains n

def trim (text : List Char) : List Char :=
  ((text.dropWhile isWhiteSpace).reverse.dropWhile isWhiteSpace).reverse

def wants (infoCsv : Option String) (field : String) : Bool :=
  match infoCsv with
  | some s => (s.toList.splitOn ',').any fun part => trim part == field.toList
  | none => false

/-- `channel_stats_object` without a cached event to report. -/
def channelStatsObject (s : ChannelStats) (infoCsv : Option String) : Value :=
  .object
    ((if wants infoCsv "occupied" then [("occupied", .bool s.occupied)] else []) ++
      (if wants infoCsv "subscription_count" then
        [("subscription_count", .number (toString s.subscriptionCount))] else []) ++
      (match s.userCount with
        | some u => if wants infoCsv "user_count" then
          [("user_count", .number (toString u))] else []
        | none => []) ++
      (if wants infoCsv "cache" then [("cache", .null)] else []))

def localUserIds (found : Option Channel) : List String :=
  match found with
  | some ch => ch.members.entries.filterMap fun e => e.2.user
  | none => []

def fleetChannelStats (node : Node) (now : Instant) (app : Application) (channel : String) :
    ChannelStats :=
  let found := node.findChannel app.id channel
  let localCount := (found.map Channel.len).getD 0
  let hasCachedPayload := (found.map fun ch => (ch.cachedPayloadAt now).isSome).getD false
  if (ChannelKind.fromName channel).isPresence then
    let remoteMembers := node.presenceCache.remoteMembersFor now app.id channel
    let userIds := localUserIds found ++ remoteMembers.map PresenceSnapshotMember.userId
    ⟨decide (localCount > 0) || !remoteMembers.isEmpty, localCount, some userIds.dedup.length,
      hasCachedPayload⟩
  else
    let peerSum := node.dispatcher.peerChannelCounts.sum now app.id channel
    ⟨decide (localCount > 0) || decide (peerSum > 0), localCount + peerSum, none, hasCachedPayload⟩

/-! ## Dispatch -/

/-- The loop of `dispatch_event`; the `k`-th publication of the request draws the
`k`-th moment. -/
def dispatchChannels (moments : Nat → Moment) (app : Application) (event data : String)
    (except : Option String) : Node → Nat → List String → Except ApiError Unit × Node
  | node, _, [] => (.ok (), node)
  | node, k, channel :: channels =>
    match node.dispatchMessage prims (moments k) app channel event data except with
    | (.error err, node) => (.error ⟨500, err.display⟩, node)
    | (.ok (), node) => dispatchChannels moments app event data except node (k + 1) channels

def dispatchEvent (moments : Nat → Moment) (app : Application) (node : Node) (k : Nat)
    (ev : EventPayload) : Except ApiError Unit × Node :=
  dispatchChannels prims moments app ev.name (dataToString prims ev.data) ev.socketId node k
    (eventChannels ev)

def publishEvent (moments : Nat → Moment) (now : Instant) (app : Application) (node : Node)
    (payload : EventPayload) : Except ApiError Value × Node :=
  match validateEventPayload prims app payload with
  | .error err => (.error err, node)
  | .ok () =>
    match dispatchEvent prims moments app node 0 payload with
    | (.error err, node) => (.error err, node)
    | (.ok (), node) =>
      match payload.info with
      | some info =>
        let perChannel := (eventChannels payload).dedup.map fun ch =>
          (ch, channelStatsObject (fleetChannelStats node now app ch) (some info))
        (.ok (.object [("channels", .object perChannel)]), node)
      | none => (.ok (.object []), node)

def batchEntry (now : Instant) (app : Application) (node : Node) (ev : EventPayload) : Value :=
  match ev.info, (eventChannels ev).head? with
  | some info, some ch => channelStatsObject (fleetChannelStats node now app ch) (some info)
  | _, _ => .object []

/-- The loop over a batch, with the entries of the answer collected so far. -/
def dispatchBatch (moments : Nat → Moment) (now : Instant) (app : Application) :
    Node → Nat → List Value → List EventPayload → Except ApiError (List Value) × Node
  | node, _, out, [] => (.ok out, node)
  | node, k, out, ev :: batch =>
    match dispatchEvent prims moments app node k ev with
    | (.error err, node) => (.error err, node)
    | (.ok (), node) =>
      dispatchBatch moments now app node (k + (eventChannels ev).length)
        (out ++ [batchEntry now app node ev]) batch

def publishBatchEvents (moments : Nat → Moment) (now : Instant) (app : Application) (node : Node)
    (batch : List EventPayload) : Except ApiError Value × Node :=
  if batch.isEmpty then (.error ⟨400, "batch must contain at least one event"⟩, node)
  else
    match forAll (validateEventPayload prims app) batch with
    | .error err => (.error err, node)
    | .ok () =>
      match dispatchBatch prims moments now app node 0 [] batch with
      | (.error err, node) => (.error err, node)
      | (.ok out, node) =>
        if batch.any fun ev => ev.info.isSome then (.ok (.object [("batch", .array out)]), node)
        else (.ok (.object []), node)

structure UserEventPayload where
  name : String
  data : Value

def userEvents (app : Application) (node : Node) (userId : String) (payload : UserEventPayload) :
    Except ApiError Value × Node :=
  match validateEventName payload.name with
  | .error err => (.error err, node)
  | .ok () =>
    if userId.isEmpty then (.error ⟨400, "user id is required"⟩, node)
    else
      let handlesBefore := ((node.apps app.id).connectionsForUser userId).length
      (.ok (.object [("delivered", .number (toString handlesBefore))]),
        node.dispatchUserEvent app userId payload.name (dataToString prims payload.data))

end

def terminateUser (app : Application) (node : Node) (userId : String) : Value × Node :=
  let handles := (node.apps app.id).connectionsForUser userId
  (.object [("terminated", .number (toString handles.length))],
    (node.closeSockets app.id handles).publishTerminateUser app userId)

/-! ## What the publications of a request keep

A reflexive and transitive relation that every publication keeps, the request keeps.
-/

section

variable {prims : Primitives} {moments : Nat → Moment} {app : Application}

theorem dispatchChannels_cons (event data : String) (except : Option String) (node : Node)
    (k : Nat) (channel : String) (channels : List String) :
    dispatchChannels prims moments app event data except node k (channel :: channels) =
      match node.dispatchMessage prims (moments k) app channel event data except with
      | (.error err, node) => (.error ⟨500, err.display⟩, node)
      | (.ok (), node) =>
        dispatchChannels prims moments app event data except node (k + 1) channels := rfl

variable {R : Node → Node → Prop} (hRefl : ∀ node, R node node)
  (hTrans : ∀ {first second third}, R first second → R second third → R first third)

include hRefl hTrans

theorem dispatchChannels_keeps {event data : String} {except : Option String}
    {channels : List String} (hMessage : ∀ node moment, ∀ channel ∈ channels,
      R node (node.dispatchMessage prims moment app channel event data except).2)
    (node : Node) (k : Nat) :
    R node (dispatchChannels prims moments app event data except node k channels).2 := by
  induction channels generalizing node k with
  | nil => exact hRefl node
  | cons channel channels ih =>
    have hFirst := hMessage node (moments k) channel List.mem_cons_self
    have hRest := ih fun node moment other hMem =>
      hMessage node moment other (List.mem_cons_of_mem _ hMem)
    rw [dispatchChannels_cons]
    split
    · rename_i hDispatched
      rw [hDispatched] at hFirst
      exact hFirst
    · rename_i hDispatched
      rw [hDispatched] at hFirst
      exact hTrans hFirst (hRest _ _)

theorem dispatchBatch_keeps {now : Instant} {batch : List EventPayload}
    (hEvent : ∀ node k, ∀ ev ∈ batch, R node (dispatchEvent prims moments app node k ev).2)
    (node : Node) (k : Nat) (out : List Value) :
    R node (dispatchBatch prims moments now app node k out batch).2 := by
  induction batch generalizing node k out with
  | nil => exact hRefl node
  | cons ev batch ih =>
    have hFirst := hEvent node k ev List.mem_cons_self
    have hRest := ih fun node k ev hMem => hEvent node k ev (List.mem_cons_of_mem _ hMem)
    rw [dispatchBatch]
    split
    · rename_i hDispatched
      rw [hDispatched] at hFirst
      exact hFirst
    · rename_i hDispatched
      rw [hDispatched] at hFirst
      exact hTrans hFirst (hRest _ _ _)

omit hTrans in
theorem publishEvent_keeps {now : Instant} {payload : EventPayload} {node : Node}
    (hEvent : R node (dispatchEvent prims moments app node 0 payload).2) :
    R node (publishEvent prims moments now app node payload).2 := by
  rw [publishEvent]
  split
  · exact hRefl node
  · split
    · rename_i hDispatched
      rw [hDispatched] at hEvent
      exact hEvent
    · rename_i hDispatched
      rw [hDispatched] at hEvent
      split <;> exact hEvent

theorem publishBatchEvents_keeps {now : Instant} {batch : List EventPayload}
    (hEvent : ∀ node k, ∀ ev ∈ batch, R node (dispatchEvent prims moments app node k ev).2)
    (node : Node) : R node (publishBatchEvents prims moments now app node batch).2 := by
  have hBatch : R node (dispatchBatch prims moments now app node 0 [] batch).2 :=
    dispatchBatch_keeps hRefl hTrans hEvent node 0 []
  rw [publishBatchEvents]
  split
  · exact hRefl node
  · split
    · exact hRefl node
    · split
      · rename_i hDispatched
        rw [hDispatched] at hBatch
        exact hBatch
      · rename_i hDispatched
        rw [hDispatched] at hBatch
        split <;> exact hBatch

end

end Zatat.Http
