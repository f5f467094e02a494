import Zatat.Channels.Users
import Zatat.Protocol.Auth
import Zatat.Scaling.Publish
import Zatat.Ws.JoinLeave

/-! # Frames of a client

`handle_inbound` and its branches, and what is undone when a connection closes.
The source returns the reply to the connection's own loop; in `handleInbound` it is
handed to the connection like everything else it is sent. The loop's rate limit and
size limit only drop frames and are left out.
-/

namespace Zatat

open FiniteMap

structure Connection where
  app : Application
  socketId : String
  userId : Option String
  watchlist : List String
  subscriptions : KeySet String

namespace Connection

def new (app : Application) (socketId : String) : Connection := ⟨app, socketId, none, [], ∅⟩

def isSubscribed (conn : Connection) (channel : String) : Bool :=
  decide (channel ∈ conn.subscriptions)

def addSubscription (conn : Connection) (channel : String) : Connection :=
  { conn with subscriptions := conn.subscriptions.insert channel () }

def removeSubscription (conn : Connection) (channel : String) : Connection :=
  { conn with subscriptions := conn.subscriptions.erase channel }

def subscriptionCount (conn : Connection) : Nat := conn.subscriptions.entries.length

end Connection

def maxWatchlistSize : Nat := 100

def presenceMember (parsed : Value) : Option PresenceMember :=
  ((parsed.get "user_id").bind Value.asUserId).map fun userId =>
    ⟨userId, parsed.get "user_info"⟩

section

variable (prims : Primitives)

def parseOrNull (text : String) : Value := (prims.fromStr text).getD .null

/-- `data_object`: the fields of the data, which may be an object or its text. -/
def dataObject : Value → Value
  | .string text => parseOrNull prims text
  | data => data

def textField (data : Value) (key : String) : Option String :=
  ((dataObject prims data).get key).bind Value.asStr

def dataText : Value → String
  | .string text => text
  | data => prims.toText data

/-- The authorisation that private channels need. -/
def authorised (app : Application) (socketId channel : String)
    (channelData auth : Option String) : Bool :=
  match auth with
  | none => false
  | some auth =>
    (verifyChannelAuth prims.hmacHex app.key socketId channel channelData auth app.secret).isOk

/-- The member a request for a presence channel joins as, or the refusal. -/
def requestedMember (app : Application) (channelData : Option String) :
    Except Frame PresenceMember :=
  match channelData with
  | none => .error PusherError.InvalidMessageFormat.frame
  | some text =>
    if text.utf8ByteSize > app.maxPresenceMemberSizeBytes then
      .error (.errorWithMessage 4301 "Presence member data exceeds limit")
    else match presenceMember (parseOrNull prims text) with
      | none => .error PusherError.InvalidMessageFormat.frame
      | some member => .ok member

/-- The checks of `handle_subscribe`: the channel to join and the member to join it
as, or the refusal. -/
def subscribeRequest (app : Application) (conn : Connection) (data : Value) :
    Except Frame (String × Option PresenceMember) :=
  match textField prims data "channel" with
  | none => .error PusherError.InvalidMessageFormat.frame
  | some channel =>
    let kind := ChannelKind.fromName channel
    let channelData := textField prims data "channel_data"
    if channel.utf8ByteSize > maxChannelNameLen then .error PusherError.InvalidMessageFormat.frame
    else if !isValidChannelName channel then .error PusherError.InvalidMessageFormat.frame
    else if kind.isPrivate &&
        !authorised prims app conn.socketId channel channelData (textField prims data "auth") then
      .error PusherError.Unauthorized.frame
    else if !conn.isSubscribed channel &&
        decide (conn.subscriptionCount ≥ app.maxChannelsPerConnection) then
      .error (.errorWithMessage 4301 "Connection is subscribed to the maximum number of channels")
    else if kind.isPresence then
      match requestedMember prims app channelData with
      | .error frame => .error frame
      | .ok member => .ok (channel, some member)
    else .ok (channel, none)

/-- The watchlist of a sign-in and whether it was cut, or the refusal. -/
def requestedWatchlist (parsed : Value) : Except Frame (Option (List String) × Bool) :=
  match parsed.get "watchlist" with
  | none => .ok (none, false)
  | some (.array items) =>
    .ok (some ((items.take maxWatchlistSize).filterMap Value.asStr),
      decide (items.length > maxWatchlistSize))
  | some _ => .error PusherError.InvalidMessageFormat.frame

structure SigninRequest where
  userId : String
  userData : String
  watchlist : Option (List String)
  watchlistTruncated : Bool

/-- The checks of `handle_signin`; a repeated sign-in ends here as well. -/
def signinRequest (app : Application) (conn : Connection) (data : Value) :
    Except Frame SigninRequest :=
  match textField prims data "auth", textField prims data "user_data" with
  | some auth, some userData =>
    if !(verifyUserAuth prims.hmacHex app.key conn.socketId userData auth app.secret).isOk then
      .error PusherError.Unauthorized.frame
    else
      let parsed := parseOrNull prims userData
      match (parsed.get "id").bind Value.asUserId with
      | none => .error PusherError.InvalidMessageFormat.frame
      | some userId =>
        if userId.isEmpty then .error PusherError.InvalidMessageFormat.frame
        else match conn.userId with
          | some existingUser =>
            .error (if existingUser = userId then .signinSuccess userData
              else PusherError.Unauthorized.frame)
          | none =>
            match requestedWatchlist parsed with
            | .error frame => .error frame
            | .ok (watchlist, truncated) => .ok ⟨userId, userData, watchlist, truncated⟩
  | _, _ => .error PusherError.Unauthorized.frame

end

def Channel.presenceUserId (ch : Channel) (socketId : String) : Option String :=
  (ch.members.lookup socketId).bind Member.user

namespace Node

/-- The settings a connection's frames are handled with. -/
def liveApp (node : Node) (conn : Connection) : Application :=
  (node.config conn.app.id).getD conn.app

/-! ## Signing in and out, under the user's lock -/

def onlineNow (node : Node) (now : Instant) (app : Application) (userId : String) : Bool :=
  (node.apps app.id).isUserOnline userId ||
    node.dispatcher.peerUserSessions.isPresentExcluding now app.id userId none

def watch (node : Node) (now : Instant) (app : Application) (socketId userId : String)
    (watchlist : List String) : Node :=
  let node := node.setApp app.id
    (watchlist.foldl (fun slot watched => slot.addWatcher watched userId) (node.apps app.id))
  node.replyTo app.id socketId
    (.watchlistEvents "online" (watchlist.filter fun u => node.onlineNow now app u))

def signIn (node : Node) (now : Instant) (app : Application) (socketId userId : String)
    (watchlist : Option (List String)) : Node :=
  let wasOnline := node.onlineNow now app userId
  let (firstLocalSocket, slot) := (node.apps app.id).bindUser userId socketId
  let node := node.setApp app.id slot
  let node := match watchlist with
    | none => node
    | some list => node.watch now app socketId userId list
  let node := if wasOnline then node else node.emitLocalWatchlistEvent app.id userId "online"
  if firstLocalSocket then node.publishUserOnline app userId else node

def signOut (node : Node) (now : Instant) (app : Application) (socketId userId : String) : Node :=
  let (lastSocket, slot) := (node.apps app.id).unbindUser userId socketId
  let node := node.setApp app.id slot
  if lastSocket then
    let stillRemotely :=
      node.dispatcher.peerUserSessions.isPresentExcluding now app.id userId none
    let node := if stillRemotely then node
      else node.emitLocalWatchlistEvent app.id userId "offline"
    let node := node.publishUserOffline app userId
    node.setApp app.id ((node.apps app.id).removeAllWatchesFor userId)
  else node

def watchAny (node : Node) (now : Instant) (app : Application) (socketId userId : String)
    (watchlist : Option (List String)) : Node :=
  match watchlist with
  | none => node
  | some list => node.watch now app socketId userId list

def signOutAny (node : Node) (now : Instant) (conn : Connection) : Node :=
  match conn.userId with
  | none => node
  | some userId => node.signOut now conn.app conn.socketId userId

/-! ## Client events -/

def relayClientEvent (node : Node) (app : Application) (conn : Connection)
    (channel event data : String) (ch : Channel) : Node :=
  let sender := if (ChannelKind.fromName channel).isPresence then ch.presenceUserId conn.socketId
    else none
  let node := node.setServer (node.broadcastProtocol app.id ch
    (.clientEvent event data channel sender) (some conn.socketId))
  let node := node.publishClientEvent app channel event data conn.socketId sender
  node.setServer (node.enqueueWebhook app.id
    (.ClientEvent channel event data (some conn.socketId) (sender.or conn.userId)))

end Node

namespace Inbound

section

variable (prims : Primitives)

def handleSubscribe (node : Node) (now : Instant) (app : Application) (conn : Connection)
    (data : Value) : Answer (Option Frame) × Connection :=
  match subscribeRequest prims app conn data with
  | .error frame => (.replied node frame, conn)
  | .ok (channel, presence) =>
    ((node.decideSubscribe now app conn.socketId channel presence).map some,
      if (node.admission now app channel presence).admitted then conn.addSubscription channel
      else conn)

def handleUnsubscribe (node : Node) (now : Instant) (app : Application) (conn : Connection)
    (data : Value) : Answer (Option Frame) × Connection :=
  match textField prims data "channel" with
  | none => (.silent node, conn)
  | some channel =>
    (.silent (node.leaveChannel now app conn.socketId channel), conn.removeSubscription channel)

/-- An accepted `handle_signin`. -/
def acceptSignin (node : Node) (now : Instant) (app : Application) (conn : Connection)
    (req : SigninRequest) : Answer (Option Frame) × Connection :=
  (⟨some (.signinSuccess req.userData), node, fun node =>
      let node := node.signIn now app conn.socketId req.userId req.watchlist
      if req.watchlistTruncated then
        node.replyTo app.id conn.socketId (.errorWithMessage 4302
          "Watchlist exceeds 100 users; only the first 100 are watched")
      else node⟩,
    { conn with userId := some req.userId, watchlist := req.watchlist.getD conn.watchlist })

def handleSignin (node : Node) (now : Instant) (app : Application) (conn : Connection)
    (data : Value) : Answer (Option Frame) × Connection :=
  match signinRequest prims app conn data with
  | .error frame => (.replied node frame, conn)
  | .ok req => acceptSignin node now app conn req

def handleClientEvent (node : Node) (app : Application) (conn : Connection) (event : String)
    (frame : InboundFrame) : Answer (Option Frame) :=
  if app.acceptClientEventsFrom = .None then .replied node PusherError.ClientEventsDisabled.frame
  else match frame.channel with
    | none => .replied node PusherError.InvalidMessageFormat.frame
    | some channel =>
      if !(ChannelKind.fromName channel).isPrivate then
        .replied node PusherError.ClientEventsDisabled.frame
      else match node.findChannel app.id channel with
        | none => .replied node PusherError.NotChannelMember.frame
        | some ch =>
          if !ch.contains conn.socketId then .replied node PusherError.NotChannelMember.frame
          else .silent
            (node.relayClientEvent app conn channel event (dataText prims frame.data) ch)

def handleFrame (node : Node) (now : Instant) (app : Application) (conn : Connection)
    (frame : InboundFrame) : Answer (Option Frame) × Connection :=
  if frame.event = "pusher:ping" then (.replied node .pong, conn)
  else if frame.event = "pusher:subscribe" then
    handleSubscribe prims node now app conn frame.data
  else if frame.event = "pusher:unsubscribe" then
    handleUnsubscribe prims node now app conn frame.data
  else if frame.event = "pusher:signin" then handleSignin prims node now app conn frame.data
  else if startsWith frame.event "client-" then
    if frame.event.utf8ByteSize > maxEventNameLen then
      (.replied node PusherError.InvalidMessageFormat.frame, conn)
    else (handleClientEvent prims node app conn frame.event frame, conn)
  else (.silent node, conn)

/-- `handle_inbound`: the answer to a frame. -/
def answerInbound (node : Node) (now : Instant) (conn : Connection) (text : String) :
    Answer (Option Frame) × Connection :=
  match prims.parseInbound text with
  | none => (.replied node PusherError.InvalidMessageFormat.frame, conn)
  | some frame => handleFrame prims node now (node.liveApp conn) conn frame

/-- `handle_inbound` with its reply queued. -/
def handleInbound (node : Node) (now : Instant) (conn : Connection) (text : String) :
    Node × Connection :=
  ((answerInbound prims node now conn text).1.queued (node.liveApp conn).id conn.socketId,
    (answerInbound prims node now conn text).2)

end

def cleanupConnection (node : Node) (now : Instant) (conn : Connection) : Node :=
  let node := conn.subscriptions.keys.foldl
    (fun (node : Node) name => node.leaveChannel now conn.app conn.socketId name) node
  let node := match conn.userId with
    | none => node
    | some userId => node.signOut now conn.app conn.socketId userId
  node.setApp conn.app.id ((node.apps conn.app.id).unregisterConnection conn.socketId)

end Inbound

end Zatat
