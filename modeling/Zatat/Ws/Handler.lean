import Zatat.Ws.State

/-! # Joining and leaving a channel

`handle_subscribe` from the point where the request is parsed and authorised,
and `leave_channel`. What the source issues inside the closures of the channel
manager is a function of the server and of the channel the closure is given.
-/

namespace Zatat

open FiniteMap

/-- One step of the merge loop: a user the roster has already is skipped. -/
def mergeMember (acc : SortedMap String Value × SortedMap String Unit)
    (m : PresenceSnapshotMember) : SortedMap String Value × SortedMap String Unit :=
  if acc.1.containsKey m.userId then acc
  else (acc.1.orInsert m.userId (m.userInfo.getD .null), acc.2.orInsert m.userId ())

def mergePresence (data : PresenceData) (remote : List PresenceSnapshotMember) : PresenceData :=
  let merged := remote.foldl mergeMember
    (data.hash, data.ids.foldl (fun ids u => ids.orInsert u ()) SortedMap.empty)
  ⟨merged.2.keys.length, merged.2.keys, merged.1⟩

/-- What `admit` reads and decides, all under the channel's transition lock. -/
structure Admission where
  remoteMembers : List PresenceSnapshotMember
  remotelyPresent : Bool
  admitted : Bool

namespace Server

def publish (srv : Server) (dispatcher : EventDispatcher) : Server :=
  { srv with dispatcher := dispatcher }

def admitJoin (srv : Server) (now : Instant) (app : Application) (channel : String)
    (presence : Option PresenceMember) (ch : Channel) : Admission :=
  match presence with
  | none => ⟨[], false, true⟩
  | some pm =>
    let remoteMembers := srv.presenceCache.remoteMembersFor now app.id channel
    let remotelyPresent :=
      srv.presenceCache.isPresentExcluding now app.id channel pm.userId none
    let remoteOnly := ((remoteMembers.map PresenceSnapshotMember.userId).filter fun u =>
      !ch.hasUserId u).dedup
    ⟨remoteMembers, remotelyPresent,
      ch.hasUserId pm.userId || remotelyPresent ||
        decide (ch.userCount + remoteOnly.length < app.maxPresenceMembersPerChannel)⟩

def announceSubscriptionCount (srv : Server) (now : Instant) (app : Application) (ch : Channel)
    (localCount : Nat) (vacatedWithheld : Bool) : Server :=
  let total := localCount + srv.dispatcher.peerChannelCounts.sum now app.id ch.name
  let srv := if app.emitSubscriptionCount then
      (srv.broadcastProtocol app.id ch (.subscriptionCount ch.name total) none).enqueueWebhook
        app.id (.SubscriptionCount ch.name total)
    else srv
  srv.publish (srv.dispatcher.publishSubscriptionCount app ch.name localCount vacatedWithheld)

/-- The first connection of a user: told to the other members unless a peer
announced the user before, and always to the peers. -/
def announceMemberAdded (srv : Server) (app : Application) (channel socketId : String)
    (pm : PresenceMember) (remotelyPresent : Bool) (ch : Channel) : Server :=
  let srv := if remotelyPresent then srv
    else (srv.broadcastProtocol app.id ch (.memberAdded channel pm.userId pm.userInfo)
      (some socketId)).enqueueWebhook app.id (.MemberAdded channel pm.userId)
  srv.publish (srv.dispatcher.publishMemberAdded app channel pm.userId pm.userInfo)

def onSubscribed (srv : Server) (now : Instant) (app : Application) (channel socketId : String)
    (presence : Option PresenceMember) (occupiedElsewhere remotelyPresent : Bool)
    (ch : Channel) (r : SubscribeResult) : Server :=
  if r.wasNew then
    let srv := if r.memberCount = 1 ∧ occupiedElsewhere = false then
        srv.enqueueWebhook app.id (.ChannelOccupied channel)
      else srv
    match presence with
    | none => srv.announceSubscriptionCount now app ch r.memberCount false
    | some pm =>
      if r.userAdded then srv.announceMemberAdded app channel socketId pm remotelyPresent ch
      else srv
  else srv

/-- The last connection of a user: withheld while a peer still lists the user. -/
def announceMemberRemoved (srv : Server) (now : Instant) (app : Application)
    (channel userId : String) (vacatedWithheld : Bool) (ch : Channel) : Server :=
  let stillRemotely := srv.presenceCache.isPresentExcluding now app.id channel userId none
  let srv := if stillRemotely then
      srv.publish (srv.dispatcher.noteWithheld now app channel (some userId))
    else
      (srv.broadcastProtocol app.id ch (.memberRemoved channel userId) none).enqueueWebhook
        app.id (.MemberRemoved channel userId)
  srv.publish
    (srv.dispatcher.publishMemberRemoved app channel userId stillRemotely vacatedWithheld)

/-- The last local member left: withheld while a peer still occupies the channel. -/
def announceVacated (srv : Server) (now : Instant) (app : Application) (channel : String)
    (memberCount : Nat) (vacatedWithheld : Bool) : Server :=
  if vacatedWithheld then srv.publish (srv.dispatcher.noteWithheld now app channel none)
  else if memberCount = 0 then srv.enqueueWebhook app.id (.ChannelVacated channel)
  else srv

def onUnsubscribed (srv : Server) (now : Instant) (app : Application) (channel : String)
    (ch : Channel) (outcome : UnsubscribeOutcome) : Server :=
  if outcome.wasMember then
    let kind := ChannelKind.fromName channel
    let vacatedWithheld :=
      decide (outcome.memberCount = 0) && srv.occupiedOnPeers now app channel kind
    let srv := srv.announceVacated now app channel outcome.memberCount vacatedWithheld
    if kind.isPresence then
      match outcome.userRemoved with
      | none => srv
      | some userId => srv.announceMemberRemoved now app channel userId vacatedWithheld ch
    else srv.announceSubscriptionCount now app ch outcome.memberCount vacatedWithheld
  else srv

def reply (srv : Server) (appId socketId : String) (frame : Frame) : Server :=
  srv.sendAll appId [socketId] (.text frame)

end Server

def succeeded (channel : String) (outcome : SubscribeOutcome)
    (remoteMembers : List PresenceSnapshotMember) : Frame :=
  if (ChannelKind.fromName channel).isPresence then
    .subscriptionSucceeded channel (outcome.presenceSnapshot.map fun data =>
      if remoteMembers.isEmpty then data else mergePresence data remoteMembers)
  else .subscriptionSucceeded channel none

def Node.replyTo (node : Node) (appId socketId : String) (frame : Frame) : Node :=
  node.setServer (node.reply appId socketId frame)

/-- What the handler of a frame comes to: its reply, the node when the reply is decided,
and what the handler still does after that. -/
structure Answer (ρ : Type) where
  reply : ρ
  decided : Node
  rest : Node → Node

namespace Answer

def map {ρ ρ' : Type} (f : ρ → ρ') (answer : Answer ρ) : Answer ρ' :=
  ⟨f answer.reply, answer.decided, answer.rest⟩

def replied (node : Node) (frame : Frame) : Answer (Option Frame) := ⟨some frame, node, id⟩

def silent (node : Node) : Answer (Option Frame) := ⟨none, node, id⟩

/-- The reply is returned to the loop of the connection, as in the source. -/
def returned {ρ : Type} (answer : Answer ρ) : ρ × Node :=
  (answer.reply, answer.rest answer.decided)

/-- The reply is queued for the connection where it is decided. -/
def queued (answer : Answer (Option Frame)) (appId socketId : String) : Node :=
  answer.rest (match answer.reply with
    | none => answer.decided
    | some frame => answer.decided.replyTo appId socketId frame)

end Answer

namespace Node

/-- A joiner of a cache channel gets the stored payload, or a miss that may be
worth a webhook. -/
def replayCache (node : Node) (now : Instant) (app : Application) (socketId channel : String)
    (cachedPayload : Option EventPayload) : Node :=
  match cachedPayload with
  | some payload => node.setServer (node.reply app.id socketId (.event payload))
  | none =>
    match node.findChannel app.id channel with
    | none => node.setServer (node.reply app.id socketId (.cacheMiss channel))
    | some ch =>
      let (notify, ch) := ch.claimCacheMissNotification now
      let node := node.setApp app.id ((node.apps app.id).setChannel channel ch)
      let node := if notify then
          node.setServer (node.enqueueWebhook app.id (.CacheMiss channel))
        else node
      node.setServer (node.reply app.id socketId (.cacheMiss channel))

/-- `handle_subscribe` from the parsed request on. -/
def decideSubscribe (node : Node) (now : Instant) (app : Application)
    (socketId channel : String) (presence : Option PresenceMember) : Answer Frame :=
  let kind := ChannelKind.fromName channel
  let occupiedElsewhere := node.occupiedOnPeers now app channel kind
  let slot := node.apps app.id
  let admission := node.admitJoin now app channel presence (slot.entryOrNew app channel)
  match slot.subscribeWith now app channel socketId presence (fun _ => admission.admitted) with
  | (none, slot) =>
    ⟨.errorWithMessage 4301 "Presence channel is over capacity", node.setApp app.id slot, id⟩
  | (some (r, outcome, ch), slot) =>
    let srv := node.onSubscribed now app channel socketId presence occupiedElsewhere
      admission.remotelyPresent ch r
    ⟨succeeded channel outcome admission.remoteMembers, (node.setApp app.id slot).setServer srv,
      fun node => if kind.isCache then
          node.replayCache now app socketId channel outcome.cachedPayload
        else node⟩

def handleSubscribe (node : Node) (now : Instant) (app : Application)
    (socketId channel : String) (presence : Option PresenceMember) : Node :=
  ((node.decideSubscribe now app socketId channel presence).map some).queued app.id socketId

def leaveChannel (node : Node) (now : Instant) (app : Application) (socketId channel : String) :
    Node :=
  match (node.apps app.id).unsubscribeWith now channel socketId with
  | (none, _) => node
  | (some (outcome, ch), slot) =>
    (node.setApp app.id slot).setServer (node.onUnsubscribed now app channel ch outcome)

end Node

end Zatat
