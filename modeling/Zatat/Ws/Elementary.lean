import Zatat.Scaling.Incoming
import Zatat.Ws.Handler
import Zatat.Ws.Tasks

/-! # What the operations are made of

Joins, leaves, heartbeats and the messages of a peer are made of a few elementary effects: a
frame to some connections, a message on the bus, a webhook, an update of what is known of the
peer. A reflexive and transitive relation that the elementary effects keep is kept by the
operations.
-/

namespace Zatat

open FiniteMap EventDispatcher.PeerKnowledge Outbound

def Outbound.isProtocol : Outbound → Bool
  | .text (.event _) => false
  | .text (.clientEvent _ _ _ _) => false
  | _ => true

def ScalingPayload.isProtocol : ScalingPayload → Bool
  | .Message _ _ _ _ _ => false
  | .ClientEvent _ _ _ _ _ _ => false
  | .UserEvent _ _ _ _ => false
  | _ => true

namespace Server

def withCounts (srv : Server) (counts : PeerChannelCounts) : Server :=
  { srv with dispatcher := { srv.dispatcher with peerChannelCounts := counts } }

def withSessions (srv : Server) (sessions : PeerUserSessions) : Server :=
  { srv with dispatcher := { srv.dispatcher with peerUserSessions := sessions } }

/-- The relation is kept by what a node does for an application on its own account. -/
structure Kept (now : Instant) (app : Application) (R : Server → Server → Prop) : Prop where
  refl : ∀ srv, R srv srv
  trans : ∀ {first second third}, R first second → R second third → R first third
  send : ∀ srv sockets {item : Outbound}, item.isProtocol = true →
    R srv (srv.sendAll app.id sockets item)
  enqueue : ∀ srv event, R srv (srv.enqueueWebhook app.id event)
  publish : ∀ srv seq {payload : ScalingPayload}, payload.isProtocol = true →
    R srv (srv.publish (srv.dispatcher.spawnPublish (EventDispatcher.envelope app seq payload)))
  takeSeq : ∀ srv, R srv srv.takeSeq.2
  note : ∀ srv channel userId,
    R srv (srv.publish (srv.dispatcher.noteWithheld now app channel userId))

/-- The relation is kept as well by what a message of a peer leads to. -/
structure KeptBy (now : Instant) (app : Application) (origin : String)
    (R : Server → Server → Prop) : Prop extends Kept now app R where
  claim : ∀ srv channel userId, R srv (srv.claimWithheld now app channel userId).2
  accept : ∀ srv key seq, R srv (srv.acceptSeq now origin app key seq).2
  addLive : ∀ srv channel userId userInfo, R srv (srv.withPresenceCache
    (srv.presenceCache.addLive now app.id channel origin userId userInfo).2)
  removeLive : ∀ srv channel userId, R srv (srv.withPresenceCache
    (srv.presenceCache.removeLive now app.id channel origin userId).2)
  insertSnapshot : ∀ srv channel members, R srv (srv.withPresenceCache
    (srv.presenceCache.insertSnapshot now app.id channel origin members))
  touch : ∀ srv channel, R srv (srv.touchPresence now app channel origin)
  setCount : ∀ srv channel count, R srv (srv.withCounts
    (srv.dispatcher.peerChannelCounts.set now app.id channel origin count))
  touchCount : ∀ srv channel, R srv (srv.withCounts
    (srv.dispatcher.peerChannelCounts.touch now app.id channel origin))
  removeCount : ∀ srv channel, R srv (srv.withCounts
    (srv.dispatcher.peerChannelCounts.remove app.id channel origin))
  addSession : ∀ srv userId, R srv (srv.withSessions
    (srv.dispatcher.peerUserSessions.add now app.id origin userId))
  removeSession : ∀ srv userId, R srv (srv.withSessions
    (srv.dispatcher.peerUserSessions.remove now app.id origin userId))
  touchSessions : ∀ srv, R srv (srv.withSessions
    (srv.dispatcher.peerUserSessions.touch now app.id origin))

variable {now : Instant} {app : Application} {origin : String} {R : Server → Server → Prop}

/-! ## Joins, leaves and heartbeats -/

namespace Kept

variable (h : Kept now app R) (srv : Server) (channel : String) (ch : Channel)
include h

theorem broadcastProtocol {frame : Frame} (hFrame : (text frame).isProtocol = true)
    (except : Option String) : R srv (srv.broadcastProtocol app.id ch frame except) :=
  h.send srv _ hFrame

theorem foldl {τ ρ : Type} (view : τ → Server) {body : τ → ρ → τ}
    (hBody : ∀ t r, R (view t) (view (body t r))) (records : List ρ) (t : τ) :
    R (view t) (view (records.foldl body t)) :=
  records.foldlRecOn (motive := fun t' => R (view t) (view t')) body (h.refl _)
    fun t' hSoFar r _ => h.trans hSoFar (hBody t' r)

theorem announceSubscriptionCount (localCount : Nat) (vacatedWithheld : Bool) :
    R srv (srv.announceSubscriptionCount now app ch localCount vacatedWithheld) := by
  rw [Server.announceSubscriptionCount]
  refine h.trans ?_ (h.publish _ 0 rfl)
  split
  · exact h.trans (h.broadcastProtocol srv ch rfl none) (h.enqueue _ _)
  · exact h.refl srv

theorem announceMemberAdded (socketId : String) (pm : PresenceMember) (remotelyPresent : Bool) :
    R srv (srv.announceMemberAdded app channel socketId pm remotelyPresent ch) := by
  rw [Server.announceMemberAdded]
  refine h.trans ?_ (h.publish _ 0 rfl)
  split
  · exact h.refl srv
  · exact h.trans (h.broadcastProtocol srv ch rfl _) (h.enqueue _ _)

theorem onSubscribed (socketId : String) (presence : Option PresenceMember)
    (occupiedElsewhere remotelyPresent : Bool) (r : SubscribeResult) :
    R srv (srv.onSubscribed now app channel socketId presence occupiedElsewhere remotelyPresent
      ch r) := by
  have hOccupied : R srv (if r.memberCount = 1 ∧ occupiedElsewhere = false then
      srv.enqueueWebhook app.id (.ChannelOccupied channel) else srv) := by
    split
    · exact h.enqueue srv _
    · exact h.refl srv
  unfold Server.onSubscribed
  split
  · dsimp only
    refine h.trans hOccupied ?_
    cases presence with
    | none => exact h.announceSubscriptionCount _ ch _ _
    | some pm =>
      cases r.userAdded with
      | true => exact h.announceMemberAdded _ channel ch _ pm _
      | false => exact h.refl _
  · exact h.refl srv

theorem announceMemberRemoved (userId : String) (vacatedWithheld : Bool) :
    R srv (srv.announceMemberRemoved now app channel userId vacatedWithheld ch) := by
  rw [Server.announceMemberRemoved]
  refine h.trans ?_ (h.publish _ 0 rfl)
  split
  · exact h.note srv _ _
  · exact h.trans (h.broadcastProtocol srv ch rfl none) (h.enqueue _ _)

theorem announceVacated (memberCount : Nat) (vacatedWithheld : Bool) :
    R srv (srv.announceVacated now app channel memberCount vacatedWithheld) := by
  rw [Server.announceVacated]
  split
  · exact h.note srv _ _
  · split
    · exact h.enqueue srv _
    · exact h.refl srv

theorem onUnsubscribed (outcome : UnsubscribeOutcome) :
    R srv (srv.onUnsubscribed now app channel ch outcome) := by
  unfold Server.onUnsubscribed
  split
  · dsimp only
    refine h.trans (h.announceVacated srv channel outcome.memberCount
      (decide (outcome.memberCount = 0) &&
        srv.occupiedOnPeers now app channel (ChannelKind.fromName channel))) ?_
    split
    · cases outcome.userRemoved with
      | none => exact h.refl _
      | some userId => exact h.announceMemberRemoved _ channel ch userId _
    · exact h.announceSubscriptionCount _ ch _ _
  · exact h.refl srv

theorem publishChannel (acc : Server × List ChannelCount) :
    R acc.1 (publishChannel app acc ch).1 := by
  rw [Server.publishChannel]
  split
  · dsimp only
    refine h.trans (h.takeSeq acc.1) ?_
    unfold publishRoster
    split
    · exact h.refl _
    · split
      · exact h.refl _
      · exact h.publish _ _ rfl
  · split
    · exact h.refl _
    · exact h.refl _

end Kept

theorem Kept.publishSnapshotsForApp (h : Kept now app R) (node : Node) :
    R node.toServer (node.publishSnapshotsForApp app).toServer := by
  have hChannels : R node.toServer.takeSeq.2 _ :=
    h.foldl Prod.fst (fun acc ch => h.publishChannel ch acc)
      ((node.apps app.id).channels.entries.map fun e => e.2) (node.toServer.takeSeq.2, [])
  rw [Node.publishSnapshotsForApp]
  exact h.trans (h.takeSeq _) (h.trans hChannels (h.trans (h.publish _ _ rfl)
    (h.trans (h.takeSeq _) (h.publish _ _ rfl))))

/-! ## What is known of a peer -/

theorem isProtocol_of_mem_diffFrames {channel : String} {ch : Channel}
    {before after : List String} {infoOf : String → Option Value} {frame : Frame}
    (h : frame ∈ diffFrames channel ch before after infoOf) :
    (text frame).isProtocol = true := by
  rw [diffFrames, List.mem_append, List.mem_map, List.mem_map] at h
  rcases h with ⟨u, -, rfl⟩ | ⟨u, -, rfl⟩ <;> rfl

namespace KeptBy

variable (h : KeptBy now app origin R) (srv : Server) (channel userId : String)
  (found : Option Channel)
include h

theorem announce {frame : Frame} (hFrame : (text frame).isProtocol = true) :
    R srv (srv.announce app.id found frame) := by
  cases found with
  | none => exact h.refl srv
  | some ch => exact h.broadcastProtocol srv ch hFrame none

theorem announceAll (ch : Channel) {frames : List Frame}
    (hFrames : ∀ frame ∈ frames, (text frame).isProtocol = true) :
    R srv (srv.announceAll app.id ch frames) := by
  induction frames generalizing srv with
  | nil => exact h.refl srv
  | cons frame frames ih =>
    exact h.trans (h.broadcastProtocol srv ch (hFrames frame List.mem_cons_self) none)
      (ih _ fun fr hfr => hFrames fr (List.mem_cons_of_mem _ hfr))

theorem reportWithheld (userId : Option String) (due : Bool) (event : WebhookEvent) :
    R srv (srv.reportWithheld now app origin channel userId due event) := by
  rw [Server.reportWithheld]
  split
  · dsimp only
    split
    · exact h.trans (h.claim srv channel userId) (h.enqueue _ _)
    · exact h.claim srv channel userId
  · exact h.refl srv

theorem applyRemoteMemberAdded (userInfo : Option Value) :
    R srv (srv.applyRemoteMemberAdded now app origin channel userId userInfo found) := by
  rw [Server.applyRemoteMemberAdded]
  split
  · exact h.addLive srv channel userId userInfo
  · exact h.trans (h.addLive srv channel userId userInfo) (h.announce _ found rfl)

theorem applyRemoteMemberRemoved (webhookWithheld vacatedWithheld : Bool) :
    R srv (srv.applyRemoteMemberRemoved now app origin channel userId webhookWithheld
      vacatedWithheld found) := by
  have hRemoved : R srv (srv.removeRemoteMember now app origin channel userId found).2.2 := by
    rw [removeRemoteMember]
    dsimp only
    split
    · exact h.trans (h.removeLive srv channel userId) (h.announce _ found rfl)
    · exact h.removeLive srv channel userId
  rw [Server.applyRemoteMemberRemoved]
  exact h.trans hRemoved (h.trans (h.reportWithheld _ channel _ _ _)
    (h.reportWithheld _ channel _ _ _))

theorem applyRemotePresenceSnapshot (members : List PresenceSnapshotMember) :
    R srv (srv.applyRemotePresenceSnapshot now app origin channel members found) := by
  unfold Server.applyRemotePresenceSnapshot
  cases found with
  | none => exact h.insertSnapshot srv channel members
  | some ch =>
    exact h.trans (h.insertSnapshot srv channel members)
      (h.announceAll _ ch fun _ => isProtocol_of_mem_diffFrames)

theorem applyRemoteSubscriptionCount (count : Nat) (vacatedWithheld : Bool) :
    R srv (srv.applyRemoteSubscriptionCount now app origin channel count vacatedWithheld
      found) := by
  unfold Server.applyRemoteSubscriptionCount
  dsimp only
  refine h.trans (h.setCount srv channel count) (h.trans (h.reportWithheld _ channel none
    (decide (count = 0) && vacatedWithheld && emptyOrAbsent found && decide
      ((srv.dispatcher.peerChannelCounts.set now app.id channel origin count).sum now app.id
        channel = 0)) (.ChannelVacated channel)) ?_)
  cases found with
  | none => exact h.refl _
  | some ch =>
    dsimp only
    split
    · exact h.refl _
    · exact h.broadcastProtocol _ ch rfl none

end KeptBy

end Server

/-! ## Messages of a peer -/

def Server.SameName (srv srv' : Server) : Prop := srv'.dispatcher.nodeId = srv.dispatcher.nodeId

theorem Server.sameName_kept (now : Instant) (app : Application) : Kept now app SameName where
  refl _ := rfl
  trans hFirst hSecond := hSecond.trans hFirst
  send _ _ _ _ := rfl
  enqueue _ _ := rfl
  publish _ _ _ _ :=
    congrArg nodeId (EventDispatcher.known_spawnPublish ..)
  takeSeq _ := rfl
  note _ _ _ := rfl

theorem Server.sameName_keptBy (now : Instant) (app : Application) (origin : String) :
    KeptBy now app origin SameName where
  toKept := sameName_kept now app
  claim _ _ _ :=
    congrArg nodeId (EventDispatcher.known_claimWithheld ..)
  accept _ _ _ :=
    congrArg nodeId (EventDispatcher.known_acceptSeq ..)
  addLive _ _ _ _ := rfl
  removeLive _ _ _ := rfl
  insertSnapshot _ _ _ := rfl
  touch _ _ := rfl
  setCount _ _ _ := rfl
  touchCount _ _ := rfl
  removeCount _ _ := rfl
  addSession _ _ := rfl
  removeSession _ _ := rfl
  touchSessions _ := rfl

namespace Node

/-- The channels are the same, and the rest is related. -/
structure Moves (R : Server → Server → Prop) (node after : Node) : Prop where
  apps : after.apps = node.apps
  server : R node.toServer after.toServer

end Node

namespace Server.KeptBy

open Node (Moves)

variable {now : Instant} {app : Application} {origin : String} {R : Server → Server → Prop}
  (h : KeptBy now app origin R) (node : Node) (seq : Nat)
include h

theorem moves_refl : Moves R node node := ⟨rfl, h.refl _⟩

theorem moves_trans {node node' node'' : Node} (hFirst : Moves R node node')
    (hSecond : Moves R node' node'') : Moves R node node'' :=
  ⟨hSecond.apps.trans hFirst.apps, h.trans hFirst.server hSecond.server⟩

theorem moves_foldl {τ ρ : Type} (view : τ → Node) {body : τ → ρ → τ}
    (hBody : ∀ t r, Moves R (view t) (view (body t r))) (records : List ρ) (t : τ) :
    Moves R (view t) (view (records.foldl body t)) :=
  records.foldlRecOn (motive := fun t' => Moves R (view t) (view t')) body (h.moves_refl _)
    fun t' hSoFar r _ => h.moves_trans hSoFar (hBody t' r)

theorem moves_ifNewer (key : String) {f stale : Node → Node}
    (hNew : ∀ node, Moves R node (f node)) (hStale : ∀ node, Moves R node (stale node)) :
    Moves R node (node.ifNewer now origin app key seq f stale) := by
  have hAccept : Moves R node (node.setServer (node.acceptSeq now origin app key seq).2) :=
    ⟨rfl, h.accept _ key seq⟩
  rw [Node.ifNewer]
  split
  · exact h.moves_trans hAccept (hNew _)
  · exact h.moves_trans hAccept (hStale _)

theorem moves_emitLocalWatchlistEvent (userId eventName : String) :
    Moves R node (node.emitLocalWatchlistEvent app.id userId eventName) :=
  ⟨rfl, h.send _ _ rfl⟩

theorem moves_applyRemoteUserOnline (userId : String) :
    Moves R node (node.applyRemoteUserOnline now app origin userId) := by
  have hAdded : Moves R node (node.withSessions
      (node.dispatcher.peerUserSessions.add now app.id origin userId)) :=
    ⟨rfl, h.addSession _ userId⟩
  rw [Node.applyRemoteUserOnline]
  split
  · exact hAdded
  · exact h.moves_trans hAdded (h.moves_emitLocalWatchlistEvent _ userId "online")

theorem moves_applyRemoteUserOffline (userId : String) :
    Moves R node (node.applyRemoteUserOffline now app origin userId) := by
  have hRemoved : Moves R node (node.withSessions
      (node.dispatcher.peerUserSessions.remove now app.id origin userId)) :=
    ⟨rfl, h.removeSession _ userId⟩
  rw [Node.applyRemoteUserOffline]
  split
  · exact hRemoved
  · exact h.moves_trans hRemoved (h.moves_emitLocalWatchlistEvent _ userId "offline")

theorem moves_retainNodeChannels (present : List String) :
    Moves R node (node.retainNodeChannels now app origin seq present).2 := by
  rw [Node.retainNodeChannels]
  refine h.moves_foldl (fun acc : List String × Node => acc.2) (fun acc channel => ?_) _ ([], node)
  have hAccept : Moves R acc.2 (acc.2.setServer
      (acc.2.acceptSeq now origin app ("c:" ++ channel) seq).2) := ⟨rfl, h.accept _ _ seq⟩
  dsimp only
  split
  · exact h.moves_trans hAccept ⟨rfl, h.removeCount _ channel⟩
  · exact hAccept

theorem moves_emitFleetTotal (channel : String) :
    Moves R node (node.emitFleetTotal now app channel) := by
  rw [Node.emitFleetTotal]
  split
  · exact h.moves_refl node
  · split
    · exact h.moves_refl node
    · exact ⟨rfl, h.send _ _ rfl⟩

theorem moves_applyRemoteChannelCountSnapshot (counts : List ChannelCount) :
    Moves R node (node.applyRemoteChannelCountSnapshot now app origin counts seq) := by
  have hSet (node : Node) (x : ChannelCount) : Moves R node
      (node.ifNewer now origin app ("c:" ++ x.channel) seq (fun node => node.setPeerCount
          (node.dispatcher.peerChannelCounts.set now app.id x.channel origin x.count))
        (fun node => node.setPeerCount
          (node.dispatcher.peerChannelCounts.touch now app.id x.channel origin))) :=
    h.moves_ifNewer node seq _ (fun _ => ⟨rfl, h.setCount _ _ _⟩) (fun _ => ⟨rfl, h.touchCount _ _⟩)
  have hRetained := h.moves_trans (h.moves_foldl id hSet counts node)
    (h.moves_retainNodeChannels _ seq (counts.map ChannelCount.channel))
  unfold Node.applyRemoteChannelCountSnapshot
  dsimp only
  split
  · exact h.moves_trans hRetained (h.moves_foldl id h.moves_emitFleetTotal _ _)
  · exact hRetained

theorem moves_applyRemoteUserSessionSnapshot (userIds : List String) :
    Moves R node (node.applyRemoteUserSessionSnapshot now app origin userIds seq) := by
  have hTouched : Moves R node (node.withSessions
      (node.dispatcher.peerUserSessions.touch now app.id origin)) := ⟨rfl, h.touchSessions _⟩
  rw [Node.applyRemoteUserSessionSnapshot]
  refine h.moves_trans hTouched (h.moves_trans (h.moves_foldl id (fun node u => ?_) _ _)
    (h.moves_foldl id (fun node u => ?_) _ _))
  · exact h.moves_ifNewer node seq _ (fun node => h.moves_applyRemoteUserOnline node u) h.moves_refl
  · exact h.moves_ifNewer node seq _ (fun node => h.moves_applyRemoteUserOffline node u)
      h.moves_refl

end Server.KeptBy

namespace Node

variable (node : Node) {now : Instant} {app : Application} {R : Server → Server → Prop}
  {payload : ScalingPayload}

/-- A message that carries no event. Requests and answers for metrics are the one thing that is
not an update of what is known of the sender. -/
theorem moves_applyPayload (seq : Nat) (hKept : Server.Kept now app R)
    (hKeptBy : ∀ origin, payloadNodeId payload = some origin → Server.KeptBy now app origin R)
    (hRecord : ∀ srv : Server, ∀ inflight, R srv { srv with
      dispatcher := { srv.dispatcher with metricsInflight := inflight } })
    (hPayload : payload.isProtocol = true) :
    Moves R node (node.applyPayload now app seq payload) := by
  cases payload with
  | Message | ClientEvent | UserEvent => cases hPayload
  | Terminate | TerminateUser => exact ⟨rfl, hKept.send _ _ rfl⟩
  | MetricsRequest requestId requester query => exact ⟨rfl, hKept.publish _ 0 rfl⟩
  | MetricsResponse requestId nodeId channels connections =>
    rw [applyPayload, recordMetricsResponse]
    split
    · exact ⟨rfl, hKept.refl _⟩
    · exact ⟨rfl, hRecord _ _⟩
  | PresenceSnapshot origin channel members =>
    have h := hKeptBy origin rfl
    rw [applyPayload]
    exact h.moves_ifNewer node seq _
      (fun _ => ⟨rfl, h.applyRemotePresenceSnapshot _ channel _ members⟩)
      (fun _ => ⟨rfl, h.touch _ channel⟩)
  | MemberAdded origin channel userId userInfo =>
    have h := hKeptBy origin rfl
    rw [applyPayload]
    exact h.moves_ifNewer node seq _
      (fun _ => ⟨rfl, h.applyRemoteMemberAdded _ channel userId _ userInfo⟩) h.moves_refl
  | MemberRemoved origin channel userId webhookWithheld vacatedWithheld =>
    have h := hKeptBy origin rfl
    rw [applyPayload]
    exact h.moves_ifNewer node seq _
      (fun _ => ⟨rfl, h.applyRemoteMemberRemoved _ channel userId _ _ _⟩) h.moves_refl
  | SubscriptionCount origin channel count vacatedWithheld =>
    have h := hKeptBy origin rfl
    rw [applyPayload]
    exact h.moves_ifNewer node seq _
      (fun _ => ⟨rfl, h.applyRemoteSubscriptionCount _ channel _ count _⟩) h.moves_refl
  | UserOnline origin userId =>
    have h := hKeptBy origin rfl
    exact h.moves_ifNewer node seq _ (fun node => h.moves_applyRemoteUserOnline node userId)
      h.moves_refl
  | UserOffline origin userId =>
    have h := hKeptBy origin rfl
    exact h.moves_ifNewer node seq _ (fun node => h.moves_applyRemoteUserOffline node userId)
      h.moves_refl
  | ChannelCountSnapshot origin counts =>
    exact (hKeptBy origin rfl).moves_applyRemoteChannelCountSnapshot node seq counts
  | UserSessionSnapshot origin userIds =>
    exact (hKeptBy origin rfl).moves_applyRemoteUserSessionSnapshot node seq userIds

/-- Only an event from a peer touches a channel, and nothing touches the name. -/
theorem moves_unless_message (now : Instant) (app : Application) (seq : Nat)
    (hOther : ∀ origin channel event data except,
      payload ≠ .Message origin channel event data except) :
    Moves Server.SameName node (node.handlePayload now app seq payload) := by
  refine handlePayload_of_applied (P := Moves Server.SameName node) node now app seq payload
    ⟨rfl, rfl⟩ ?_
  have hProtocol : payload.isProtocol = true →
      Moves Server.SameName node (node.applyPayload now app seq payload) :=
    node.moves_applyPayload seq (Server.sameName_kept now app)
      (fun origin _ => Server.sameName_keptBy now app origin) (fun _ _ => rfl)
  cases payload with
  | Message origin channel event data except =>
    exact absurd rfl (hOther origin channel event data except)
  | ClientEvent origin channel event data socketId userId =>
    rw [applyPayload]
    split <;> exact ⟨rfl, rfl⟩
  | UserEvent origin userId event data => exact ⟨rfl, rfl⟩
  | _ => exact hProtocol rfl

theorem moves_seePeer (hRefl : ∀ srv, R srv srv)
    (hSeen : ∀ srv : Server, ∀ seen, R srv { srv with
      dispatcher := { srv.dispatcher with peersSeen := seen } }) (payload : ScalingPayload) :
    Moves R node (node.seePeer now payload) := by
  rw [seePeer]
  split
  · split
    · exact ⟨rfl, hRefl _⟩
    · exact ⟨rfl, hSeen _ _⟩
  · exact ⟨rfl, hRefl _⟩

end Node

end Zatat
