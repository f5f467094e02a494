import Zatat.Ws.State

/-! # Messages arriving from the bus

The presence updates are split as the source splits them: `find_channel`, then a
part that runs under the found channel's transition lock. That second part
takes the channel it was given, which need not be the one stored by then.
-/

namespace Zatat

open FiniteMap

namespace Server

def acceptSeq (srv : Server) (now : Instant) (node : String) (app : Application) (key : String)
    (seq : Nat) : Bool × Server :=
  let (accepted, dispatcher) := srv.dispatcher.acceptSeq now node app key seq
  (accepted, { srv with dispatcher := dispatcher })

def claimWithheld (srv : Server) (now : Instant) (app : Application) (channel : String)
    (userId : Option String) : Bool × Server :=
  let (claimed, dispatcher) := srv.dispatcher.claimWithheld now app channel userId
  (claimed, { srv with dispatcher := dispatcher })

/-- `report_transition`: the sink of a server enqueues the matching webhook. -/
def reportTransition (srv : Server) (app : Application) (event : WebhookEvent) : Server :=
  srv.enqueueWebhook app.id event

def presentIn (found : Option Channel) (userId : String) : Bool :=
  match found with
  | some ch => ch.hasUserId userId
  | none => false

def emptyOrAbsent (found : Option Channel) : Bool :=
  match found with
  | some ch => ch.isEmpty
  | none => true

def announce (srv : Server) (appId : String) (found : Option Channel) (frame : Frame) : Server :=
  match found with
  | some ch => srv.broadcastProtocol appId ch frame none
  | none => srv

def applyRemoteMemberAdded (srv : Server) (now : Instant) (app : Application)
    (originNodeId channel userId : String) (userInfo : Option Value) (found : Option Channel) :
    Server :=
  let locallyPresent := presentIn found userId
  let remotePresent :=
    srv.presenceCache.isPresentExcluding now app.id channel userId (some originNodeId)
  let srv := srv.withPresenceCache
    (srv.presenceCache.addLive now app.id channel originNodeId userId userInfo).2
  if locallyPresent || remotePresent then srv
  else srv.announce app.id found (.memberAdded channel userId userInfo)

/-- The locked part of a remote removal: the new roster and the local frame. -/
def removeRemoteMember (srv : Server) (now : Instant) (app : Application)
    (originNodeId channel userId : String) (found : Option Channel) : Bool × Bool × Server :=
  let srv := srv.withPresenceCache
    (srv.presenceCache.removeLive now app.id channel originNodeId userId).2
  let gone := !presentIn found userId &&
    !srv.presenceCache.isPresentExcluding now app.id channel userId none
  let empty := emptyOrAbsent found &&
    (srv.presenceCache.remoteMembersFor now app.id channel).isEmpty
  (gone, empty,
    if gone then srv.announce app.id found (.memberRemoved channel userId) else srv)

/-- Both nodes withheld their webhook because each saw the other: the node with
the lower id reports. -/
def reportWithheld (srv : Server) (now : Instant) (app : Application)
    (originNodeId channel : String) (userId : Option String) (due : Bool)
    (event : WebhookEvent) : Server :=
  if due && decide (srv.dispatcher.nodeId < originNodeId) then
    let (claimed, srv) := srv.claimWithheld now app channel userId
    if claimed then srv.reportTransition app event else srv
  else srv

def applyRemoteMemberRemoved (srv : Server) (now : Instant) (app : Application)
    (originNodeId channel userId : String) (webhookWithheld vacatedWithheld : Bool)
    (found : Option Channel) : Server :=
  let (gone, empty, srv) := srv.removeRemoteMember now app originNodeId channel userId found
  let srv := srv.reportWithheld now app originNodeId channel (some userId)
    (gone && webhookWithheld) (.MemberRemoved channel userId)
  srv.reportWithheld now app originNodeId channel none (empty && vacatedWithheld)
    (.ChannelVacated channel)

/-- The frames a snapshot makes up for: users who went, then users who came. -/
def diffFrames (channel : String) (ch : Channel) (before after : List String)
    (infoOf : String → Option Value) : List Frame :=
  (before.filter fun u => u ∉ after && !ch.hasUserId u).map (Frame.memberRemoved channel) ++
    (after.filter fun u => u ∉ before && !ch.hasUserId u).map fun u =>
      Frame.memberAdded channel u (infoOf u)

def announceAll (srv : Server) (appId : String) (ch : Channel) (frames : List Frame) : Server :=
  frames.foldl (fun srv frame => srv.broadcastProtocol appId ch frame none) srv

def applyRemotePresenceSnapshot (srv : Server) (now : Instant) (app : Application)
    (nodeId channel : String) (members : List PresenceSnapshotMember)
    (found : Option Channel) : Server :=
  let before := srv.presenceCache.announcedUserIds app.id channel
  let infoByUser := collect (members.map fun m => (m.userId, m.userInfo))
  let srv := srv.withPresenceCache
    (srv.presenceCache.insertSnapshot now app.id channel nodeId members)
  match found with
  | none => srv
  | some ch =>
    let after := srv.presenceCache.announcedUserIds app.id channel
    srv.announceAll app.id ch
      (diffFrames channel ch before after fun u => (infoByUser.lookup u).join)

def touchPresence (srv : Server) (now : Instant) (app : Application) (channel nodeId : String) :
    Server :=
  srv.withPresenceCache (srv.presenceCache.touch now app.id channel nodeId)

def applyRemoteSubscriptionCount (srv : Server) (now : Instant) (app : Application)
    (originNodeId channel : String) (count : Nat) (vacatedWithheld : Bool)
    (found : Option Channel) : Server :=
  let counts := srv.dispatcher.peerChannelCounts.set now app.id channel originNodeId count
  let srv : Server :=
    { srv with dispatcher := { srv.dispatcher with peerChannelCounts := counts } }
  let due := decide (count = 0) && vacatedWithheld && emptyOrAbsent found &&
    decide (counts.sum now app.id channel = 0)
  let srv := srv.reportWithheld now app originNodeId channel none due (.ChannelVacated channel)
  match found with
  | none => srv
  | some ch =>
    if ch.kind.isPresence || !app.emitSubscriptionCount then srv
    else srv.broadcastProtocol app.id ch
      (.subscriptionCount channel (ch.len + counts.sum now app.id channel)) none

end Server

namespace Node

def emitLocalWatchlistEvent (node : Node) (appId userId eventName : String) : Node :=
  node.setServer (node.sendAll appId ((node.apps appId).watcherConnections userId)
    (.text (.watchlistEvents eventName [userId])))

def withSessions (node : Node) (sessions : PeerUserSessions) : Node :=
  { node with dispatcher := { node.dispatcher with peerUserSessions := sessions } }

def applyRemoteUserOnline (node : Node) (now : Instant) (app : Application)
    (originNodeId userId : String) : Node :=
  let sessions := node.dispatcher.peerUserSessions
  let wasGloballyOnline := (node.apps app.id).isUserOnline userId ||
    sessions.isPresentExcluding now app.id userId (some originNodeId)
  let node := node.withSessions (sessions.add now app.id originNodeId userId)
  if wasGloballyOnline then node else node.emitLocalWatchlistEvent app.id userId "online"

def applyRemoteUserOffline (node : Node) (now : Instant) (app : Application)
    (originNodeId userId : String) : Node :=
  let sessions := node.dispatcher.peerUserSessions.remove now app.id originNodeId userId
  let node := node.withSessions sessions
  if (node.apps app.id).isUserOnline userId ||
      sessions.isPresentExcluding now app.id userId none then node
  else node.emitLocalWatchlistEvent app.id userId "offline"

/-- Runs `f` if the peer's state for `key` at `seq` is newer than what was applied. -/
def ifNewer (node : Node) (now : Instant) (origin : String) (app : Application) (key : String)
    (seq : Nat) (f stale : Node → Node) : Node :=
  let result := node.acceptSeq now origin app key seq
  if result.1 then f (node.setServer result.2) else stale (node.setServer result.2)

def setPeerCount (node : Node) (counts : PeerChannelCounts) : Node :=
  { node with dispatcher := { node.dispatcher with peerChannelCounts := counts } }

/-- The channels an omitting snapshot really drops, and the state after it. -/
def retainNodeChannels (node : Node) (now : Instant) (app : Application) (nodeId : String)
    (seq : Nat) (present : List String) : List String × Node :=
  (node.dispatcher.peerChannelCounts.omittedChannels app.id nodeId present).foldl
    (fun (acc : List String × Node) channel =>
      let (accepted, srv) := acc.2.acceptSeq now nodeId app ("c:" ++ channel) seq
      let node := acc.2.setServer srv
      if accepted then
        (acc.1 ++ [channel],
          node.setPeerCount (node.dispatcher.peerChannelCounts.remove app.id channel nodeId))
      else (acc.1, node))
    ([], node)

def emitFleetTotal (node : Node) (now : Instant) (app : Application) (channel : String) : Node :=
  match node.findChannel app.id channel with
  | none => node
  | some ch =>
    if ch.kind.isPresence then node
    else node.setServer (node.broadcastProtocol app.id ch
      (.subscriptionCount channel
        (ch.len + node.dispatcher.peerChannelCounts.sum now app.id channel)) none)

def applyRemoteChannelCountSnapshot (node : Node) (now : Instant) (app : Application)
    (nodeId : String) (counts : List ChannelCount) (seq : Nat) : Node :=
  let present := counts.map ChannelCount.channel
  let node := counts.foldl
    (fun (node : Node) c => node.ifNewer now nodeId app ("c:" ++ c.channel) seq
      (fun node => node.setPeerCount
        (node.dispatcher.peerChannelCounts.set now app.id c.channel nodeId c.count))
      (fun node => node.setPeerCount
        (node.dispatcher.peerChannelCounts.touch now app.id c.channel nodeId)))
    node
  let (dropped, node) := node.retainNodeChannels now app nodeId seq present
  if app.emitSubscriptionCount then
    (present ++ dropped).foldl (fun node channel => node.emitFleetTotal now app channel) node
  else node

def applyRemoteUserSessionSnapshot (node : Node) (now : Instant) (app : Application)
    (nodeId : String) (userIds : List String) (seq : Nat) : Node :=
  let node := node.withSessions (node.dispatcher.peerUserSessions.touch now app.id nodeId)
  let reported := userIds.dedup
  let previous := node.dispatcher.peerUserSessions.usersOf app.id nodeId
  let node := (reported.filter fun u => u ∉ previous).foldl
    (fun (node : Node) u => node.ifNewer now nodeId app ("u:" ++ u) seq
      (fun node => node.applyRemoteUserOnline now app nodeId u) id) node
  (previous.filter fun u => u ∉ reported).foldl
    (fun (node : Node) u => node.ifNewer now nodeId app ("u:" ++ u) seq
      (fun node => node.applyRemoteUserOffline now app nodeId u) id) node

def deliverUserEventLocally (node : Node) (appId userId event data : String) : Node :=
  node.setServer (node.sendAll appId ((node.apps appId).connectionsForUser userId)
    (.text (.event ⟨event, data, "#server-to-user-" ++ userId⟩)))

/-- `Channel::broadcast` on the channel an application table gives access to. -/
def broadcastLocallyWithApp (node : Node) (now : Instant) (app : Application)
    (channel event data : String) (except : Option String) : Node :=
  if startsWith channel "#server-to-user-" then
    node.deliverUserEventLocally app.id
      (String.ofList (channel.toList.drop "#server-to-user-".length)) event data
  else
    let (found, slot) := (node.apps app.id).getOrCreateCacheChannel app channel
    match found with
    | none => node
    | some ch =>
      let payload : EventPayload := ⟨event, data, channel⟩
      let node := node.setApp app.id (slot.setChannel channel (ch.setCachedPayload now payload))
      node.setServer (node.broadcastProtocol app.id ch (.event payload) except)

def closeSockets (node : Node) (appId : String) (sockets : List String) : Node :=
  node.setServer (node.sendAll appId sockets (.close 4009 "terminated"))

def presenceUserIds (ch : Channel) : List String :=
  if ch.kind.isPresence then
    (ch.members.entries.foldl (fun (ids : SortedMap String Unit) e =>
      match e.2.user with
      | some u => ids.orInsert u ()
      | none => ids) SortedMap.empty).keys
  else []

def channelMetric (now : Instant) (ch : Channel) : ChannelMetric where
  name := ch.name
  occupied := !ch.isEmpty
  subscriptionCount := ch.len
  userCount := if ch.kind.isPresence then some ch.userCount else none
  hasCachedPayload := (ch.cachedPayloadAt now).isSome
  presenceUserIds := presenceUserIds ch

def respondToMetricsRequest (node : Node) (now : Instant) (app : Application)
    (requestId : String) (query : MetricsQuery) : Node :=
  let channels := if query.connectionsOnly then []
    else (node.apps app.id).channels.entries.map fun e => e.2
  let matching := channels.filter fun ch => match query.filterByPrefix with
    | some p => startsWith ch.name p
    | none => true
  { node with
    dispatcher := node.dispatcher.spawnPublish (EventDispatcher.envelope app 0
      (.MetricsResponse requestId node.dispatcher.nodeId (matching.map (channelMetric now))
        (node.apps app.id).connections.entries.length)) }

def recordMetricsResponse (node : Node) (requestId nodeId : String)
    (channels : List ChannelMetric) (connections : Nat) : Node :=
  match node.dispatcher.metricsInflight.lookup requestId with
  | none => node
  | some responses =>
    { node with
      dispatcher := { node.dispatcher with
        metricsInflight := node.dispatcher.metricsInflight.insert requestId
          (responses ++ [(nodeId, channels, connections)]) } }

/-- The sender the branch of a message compares with the node itself. -/
def originOf : ScalingPayload → Option String
  | .MetricsResponse _ _ _ _ => none
  | payload => payloadNodeId payload

/-- The branches of `handle_incoming` once a message is known not to be the node's own. -/
def applyPayload (node : Node) (now : Instant) (app : Application) (seq : Nat) :
    ScalingPayload → Node
  | .Message _ channel event data except =>
    node.broadcastLocallyWithApp now app channel event data except
  | .ClientEvent _ channel event data socketId userId =>
    match node.findChannel app.id channel with
    | none => node
    | some ch => node.setServer (node.broadcastProtocol app.id ch
        (.clientEvent event data channel (userId.filter fun _ => ch.kind.isPresence))
        (some socketId))
  | .Terminate socketId =>
    node.closeSockets app.id
      (if socketId ∈ (node.apps app.id).connections then [socketId] else [])
  | .TerminateUser _ userId =>
    node.closeSockets app.id ((node.apps app.id).connectionsForUser userId)
  | .PresenceSnapshot nodeId channel members =>
    node.ifNewer now nodeId app ("p:" ++ channel) seq
      (fun node => node.setServer (node.applyRemotePresenceSnapshot now app nodeId channel members
        (node.findChannel app.id channel)))
      (fun node => node.setServer (node.touchPresence now app channel nodeId))
  | .UserEvent _ userId event data => node.deliverUserEventLocally app.id userId event data
  | .MetricsRequest requestId _ query => node.respondToMetricsRequest now app requestId query
  | .MetricsResponse requestId nodeId channels connections =>
    node.recordMetricsResponse requestId nodeId channels connections
  | .MemberAdded origin channel userId userInfo =>
    node.ifNewer now origin app ("p:" ++ channel) seq
      (fun node => node.setServer (node.applyRemoteMemberAdded now app origin channel userId
        userInfo (node.findChannel app.id channel))) id
  | .MemberRemoved origin channel userId webhookWithheld vacatedWithheld =>
    node.ifNewer now origin app ("p:" ++ channel) seq
      (fun node => node.setServer (node.applyRemoteMemberRemoved now app origin channel userId
        webhookWithheld vacatedWithheld (node.findChannel app.id channel))) id
  | .SubscriptionCount origin channel count vacatedWithheld =>
    node.ifNewer now origin app ("c:" ++ channel) seq
      (fun node => node.setServer (node.applyRemoteSubscriptionCount now app origin channel count
        vacatedWithheld (node.findChannel app.id channel))) id
  | .UserOnline origin userId =>
    node.ifNewer now origin app ("u:" ++ userId) seq
      (fun node => node.applyRemoteUserOnline now app origin userId) id
  | .UserOffline origin userId =>
    node.ifNewer now origin app ("u:" ++ userId) seq
      (fun node => node.applyRemoteUserOffline now app origin userId) id
  | .ChannelCountSnapshot nodeId counts =>
    node.applyRemoteChannelCountSnapshot now app nodeId counts seq
  | .UserSessionSnapshot nodeId userIds =>
    node.applyRemoteUserSessionSnapshot now app nodeId userIds seq

/-- The dispatch on the payload, for the live settings of the envelope's application. -/
def handlePayload (node : Node) (now : Instant) (app : Application) (seq : Nat)
    (payload : ScalingPayload) : Node :=
  if originOf payload = some node.dispatcher.nodeId then node
  else node.applyPayload now app seq payload

variable (node : Node) (now : Instant) (app : Application) (seq : Nat) (payload : ScalingPayload)

theorem handlePayload_of_own {node : Node} {payload : ScalingPayload} {origin : String}
    (hPayload : originOf payload = some origin) (hOwn : origin = node.dispatcher.nodeId) :
    node.handlePayload now app seq payload = node :=
  if_pos (hPayload.trans (congrArg some hOwn))

theorem handlePayload_of_peer {node : Node} {payload : ScalingPayload} {origin : String}
    (hPayload : originOf payload = some origin) (hPeer : origin ≠ node.dispatcher.nodeId) :
    node.handlePayload now app seq payload = node.applyPayload now app seq payload :=
  if_neg fun hOwn => hPeer (Option.some.inj (hPayload.symm.trans hOwn))

theorem handlePayload_of_applied {P : Node → Prop} (hOwn : P node)
    (hApplied : P (node.applyPayload now app seq payload)) :
    P (node.handlePayload now app seq payload) := by
  rw [handlePayload]
  split
  · exact hOwn
  · exact hApplied

/-- Every message of a peer proves it alive, whatever the message carries. -/
def seePeer (node : Node) (now : Instant) (payload : ScalingPayload) : Node :=
  match payloadNodeId payload with
  | some id =>
    if id = node.dispatcher.nodeId then node
    else { node with
      dispatcher := { node.dispatcher with
        peersSeen := node.dispatcher.peersSeen.insert id now } }
  | none => node

theorem seePeer_same : (node.seePeer now payload).apps = node.apps ∧
      (node.seePeer now payload).sent = node.sent ∧
      (node.seePeer now payload).config = node.config ∧
      (node.seePeer now payload).dispatcher.nodeId = node.dispatcher.nodeId ∧
      (node.seePeer now payload).dispatcher.scalingEnabled = node.dispatcher.scalingEnabled ∧
      (node.seePeer now payload).dispatcher.published = node.dispatcher.published := by
  rw [seePeer]
  split
  · split <;> exact ⟨rfl, rfl, rfl, rfl, rfl, rfl⟩
  · exact ⟨rfl, rfl, rfl, rfl, rfl, rfl⟩

def handleIncoming (node : Node) (now : Instant) (env : ScalingEnvelope) : Node :=
  if env.version > scalingVersion then node
  else
    let node := node.seePeer now env.payload
    match node.config env.app.id with
    | none => node
    | some app => node.handlePayload now app env.seq env.payload

end Node

end Zatat
