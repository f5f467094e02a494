import Zatat.Ws.State

/-! # The periodic tasks: publishing snapshots and sweeping expired peers

Each of the three loops of a sweep walks through the records its cache dropped;
the body of each loop is a function of one record.
-/

namespace Zatat

open FiniteMap

def snapshotMember (entry : String × Value) : PresenceSnapshotMember :=
  ⟨entry.1, match entry.2 with
    | .null => none
    | info => some info⟩

namespace Server

/-- The snapshot of one presence channel, published under a sequence number
taken before the roster was captured. -/
def publishRoster (srv : Server) (app : Application) (seq : Nat) (ch : Channel) : Server :=
  match ch.presenceSnapshot with
  | none => srv
  | some roster =>
    if roster.count = 0 then srv
    else { srv with
      dispatcher := srv.dispatcher.publishPresenceSnapshot app ch.name
        (roster.hash.entries.map snapshotMember) seq }

def takeSeq (srv : Server) : Nat × Server :=
  (srv.dispatcher.nextSeq.1, { srv with dispatcher := srv.dispatcher.nextSeq.2 })

/-- One turn of the snapshot loop, with the counts collected so far. -/
def publishChannel (app : Application) (acc : Server × List ChannelCount) (ch : Channel) :
    Server × List ChannelCount :=
  if ch.kind.isPresence then
    let (seq, srv) := acc.1.takeSeq
    (srv.publishRoster app seq ch, acc.2)
  else if ch.len > 0 then (acc.1, acc.2 ++ [⟨ch.name, ch.len⟩])
  else acc

/-- A vanished member: announced under the channel's lock unless the user is
still somewhere; the first flag says so, the second that nobody is left. -/
def announceExpired (srv : Server) (now : Instant) (app : Application) (member : ExpiredMember)
    (ch : Channel) : Bool × Bool × Server :=
  let remaining := srv.presenceCache.remoteMembersFor now member.appId member.channel
  let stillRemotely := remaining.any fun m => m.userId == member.userId
  if stillRemotely || ch.hasUserId member.userId then (false, false, srv)
  else (true, ch.isEmpty && remaining.isEmpty,
    srv.broadcastProtocol app.id ch (.memberRemoved member.channel member.userId) none)

/-- One surviving node reports what the vanished peer could not. -/
def reportExpired (srv : Server) (now : Instant) (app : Application) (member : ExpiredMember)
    (gone empty : Bool) : Server :=
  if gone && srv.dispatcher.isFleetLeader now then
    let srv := srv.enqueueWebhook app.id (.MemberRemoved member.channel member.userId)
    if empty then srv.enqueueWebhook app.id (.ChannelVacated member.channel) else srv
  else srv

end Server

namespace Node

def publishSnapshotsForApp (node : Node) (app : Application) : Node :=
  let (countsSeq, srv) := node.toServer.takeSeq
  let channels := (node.apps app.id).channels.entries.map fun e => e.2
  let (srv, counts) := channels.foldl (Server.publishChannel app) (srv, [])
  let srv : Server :=
    { srv with dispatcher := srv.dispatcher.publishChannelCountSnapshot app counts countsSeq }
  let (sessionsSeq, srv) := srv.takeSeq
  node.setServer
    { srv with
      dispatcher := srv.dispatcher.publishUserSessionSnapshot app
        (node.apps app.id).localUserIds sessionsSeq }

def gcMember (now : Instant) (node : Node) (member : ExpiredMember) : Node :=
  match node.config member.appId with
  | none => node
  | some app =>
    match node.findChannel app.id member.channel with
    | none => node
    | some ch =>
      let (gone, empty, srv) := node.announceExpired now app member ch
      node.setServer (srv.reportExpired now app member gone empty)

def gcCount (now : Instant) (node : Node) (expired : ExpiredCount) : Node :=
  match node.config expired.appId with
  | none => node
  | some app =>
    let found := node.findChannel app.id expired.channel
    let sum := node.dispatcher.peerChannelCounts.sum now expired.appId expired.channel
    let vacant := match found with
      | some ch => ch.isEmpty
      | none => true
    let srv := if expired.staleCount > 0 && vacant && decide (sum = 0) &&
          node.dispatcher.isFleetLeader now then
        node.enqueueWebhook app.id (.ChannelVacated expired.channel)
      else node.toServer
    match found with
    | none => node.setServer srv
    | some ch =>
      if ch.kind.isPresence || !app.emitSubscriptionCount then node.setServer srv
      else node.setServer (srv.broadcastProtocol app.id ch
        (.subscriptionCount expired.channel (ch.len + sum)) none)

def gcSession (now : Instant) (node : Node) (expired : ExpiredSession) : Node :=
  match node.config expired.appId with
  | none => node
  | some app =>
    if (node.apps app.id).isUserOnline expired.userId ||
        node.dispatcher.peerUserSessions.isPresentExcluding now expired.appId expired.userId none
    then node
    else node.setServer (node.sendAll app.id
      ((node.apps app.id).watcherConnections expired.userId)
      (.text (.watchlistEvents "offline" [expired.userId])))

def sweepMembers (node : Node) (now : Instant) : List ExpiredMember × Node :=
  let (expired, cache) := node.presenceCache.gcExpired now
  (expired, node.setServer (node.withPresenceCache cache))

def sweepCounts (node : Node) (now : Instant) : List ExpiredCount × Node :=
  let (expired, counts) := node.dispatcher.peerChannelCounts.gcExpired now
  (expired, { node with dispatcher := { node.dispatcher with peerChannelCounts := counts } })

def sweepSessions (node : Node) (now : Instant) : List ExpiredSession × Node :=
  let (expired, sessions) := node.dispatcher.peerUserSessions.gcExpired now
  (expired, { node with dispatcher := { node.dispatcher with peerUserSessions := sessions } })

def presenceCacheGc (node : Node) (now : Instant) : Node :=
  let (members, node) := node.sweepMembers now
  let node := members.foldl (gcMember now) node
  let (counts, node) := node.sweepCounts now
  let node := counts.foldl (gcCount now) node
  let (sessions, node) := node.sweepSessions now
  let node := sessions.foldl (gcSession now) node
  { node with dispatcher := node.dispatcher.gcPeerSequences now }

theorem presenceCacheGc_keeps {R : Node → Node → Prop} {now : Instant} (hRefl : ∀ node, R node node)
    (hTrans : ∀ {first second third}, R first second → R second third → R first third)
    (hMembers : ∀ node, R node (node.sweepMembers now).2)
    (hCounts : ∀ node, R node (node.sweepCounts now).2)
    (hSessions : ∀ node, R node (node.sweepSessions now).2)
    (hSequences : ∀ node : Node,
      R node { node with dispatcher := node.dispatcher.gcPeerSequences now })
    (hMember : ∀ node expired, R node (gcMember now node expired))
    (hCount : ∀ node expired, R node (gcCount now node expired))
    (hSession : ∀ node expired, R node (gcSession now node expired)) (node : Node) :
    R node (node.presenceCacheGc now) := by
  have hLoop {ρ : Type} {body : Node → ρ → Node}
      (hBody : ∀ node expired, R node (body node expired)) (records : List ρ) (node : Node) :
      R node (records.foldl body node) := by
    induction records generalizing node with
    | nil => exact hRefl node
    | cons expired records ih => exact hTrans (hBody node expired) (ih _)
  have hFirst (node : Node) :
      R node ((node.sweepMembers now).1.foldl (gcMember now) (node.sweepMembers now).2) :=
    hTrans (hMembers node) (hLoop hMember _ _)
  have hSecond (node : Node) :
      R node ((node.sweepCounts now).1.foldl (gcCount now) (node.sweepCounts now).2) :=
    hTrans (hCounts node) (hLoop hCount _ _)
  have hThird (node : Node) :
      R node ((node.sweepSessions now).1.foldl (gcSession now) (node.sweepSessions now).2) :=
    hTrans (hSessions node) (hLoop hSession _ _)
  rw [presenceCacheGc]
  dsimp only
  exact hTrans (hFirst node) (hTrans (hSecond _) (hTrans (hThird _) (hSequences _)))

def gcEmptyCacheChannels (node : Node) (now : Instant) : Node :=
  { node with apps := fun appId => (node.apps appId).gcEmptyCacheChannels now }

end Node

end Zatat
