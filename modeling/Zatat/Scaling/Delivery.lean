import Zatat.Scaling.Incoming
import Zatat.Ws.View

/-! # What a presence update from a peer does

For each kind of update: the rosters it leaves, and the change each local socket
is told about each user. A withheld report that becomes due changes neither.
-/

namespace Zatat

open FiniteMap EventDispatcher List PresenceCache

namespace Server

variable (srv : Server) (now : Instant) (app : Application) (origin node channel u : String)
  (members : List PresenceSnapshotMember) (a : String) (info : Option Value)
  (webhookWithheld vacatedWithheld : Bool) (found : Option Channel) (frame : Frame)
  (appId socketId c v : String) {ch : Channel} {before after : List String}

def reaches (found : Option Channel) (socketId : String) : Bool :=
  match found with
  | some ch => decide (socketId ∈ ch.members)
  | none => false

theorem reportWithheld_same (userId : Option String) (due : Bool) (event : WebhookEvent) :
    (srv.reportWithheld now app origin channel userId due event).known = srv.known ∧
      (srv.reportWithheld now app origin channel userId due event).sent = srv.sent ∧
      (srv.reportWithheld now app origin channel userId due event).config = srv.config := by
  have hKnown := known_claimWithheld srv.dispatcher now app channel userId
  rw [reportWithheld, claimWithheld]
  dsimp only
  split
  · split
    · exact ⟨hKnown, rfl, rfl⟩
    · exact ⟨hKnown, rfl, rfl⟩
  · exact ⟨rfl, rfl, rfl⟩

theorem announce_same (found : Option Channel) (frame : Frame) :
    (srv.announce appId found frame).known = srv.known ∧
      (srv.announce appId found frame).config = srv.config := by
  cases found <;> exact ⟨rfl, rfl⟩

theorem framesTo_announce : framesTo (srv.announce a found frame).sent appId socketId =
      framesTo srv.sent appId socketId ++
        if a = appId ∧ reaches found socketId = true then [frame] else [] := by
  cases found with
  | none => simp [announce, reaches]
  | some ch =>
    rw [announce, framesTo_broadcastProtocol]
    simp [reaches]

/-! ## A user who came -/

theorem known_applyRemoteMemberAdded :
    (srv.applyRemoteMemberAdded now app origin channel u info found).known = { srv.known with
        presenceCache := (srv.presenceCache.addLive now app.id channel origin u info).2 } := by
  rw [applyRemoteMemberAdded]
  dsimp only
  split
  · rfl
  · exact (announce_same ..).1

theorem config_applyRemoteMemberAdded :
    (srv.applyRemoteMemberAdded now app origin channel u info found).config = srv.config := by
  rw [applyRemoteMemberAdded]
  split
  · rfl
  · exact (announce_same ..).2

theorem framesTo_applyRemoteMemberAdded :
    framesTo (srv.applyRemoteMemberAdded now app origin channel u info found).sent appId socketId =
      framesTo srv.sent appId socketId ++
        if (app.id = appId ∧ reaches found socketId = true) ∧ presentIn found u = false ∧
          srv.presenceCache.isPresentExcluding now app.id channel u (some origin) = false then
          [.memberAdded channel u info] else [] := by
  rw [applyRemoteMemberAdded]
  split
  · rename_i hPresent
    rw [if_neg, append_nil]
    · rfl
    · rintro ⟨-, hLocal, hRemote⟩
      rw [hLocal, hRemote] at hPresent
      cases hPresent
  · rename_i hAbsent
    rw [Bool.or_eq_true, not_or, Bool.not_eq_true, Bool.not_eq_true] at hAbsent
    rw [framesTo_announce]
    simp [hAbsent, withPresenceCache]

/-! ## A user who went -/

theorem known_removeRemoteMember :
    (srv.removeRemoteMember now app origin channel u found).2.2.known = { srv.known with
        presenceCache := (srv.presenceCache.removeLive now app.id channel origin u).2 } := by
  rw [removeRemoteMember]
  dsimp only
  split
  · exact (announce_same ..).1
  · rfl

theorem config_removeRemoteMember :
    (srv.removeRemoteMember now app origin channel u found).2.2.config = srv.config := by
  rw [removeRemoteMember]
  dsimp only
  split
  · exact (announce_same ..).2
  · rfl

theorem applyRemoteMemberRemoved_same :
    (srv.applyRemoteMemberRemoved now app origin channel u webhookWithheld vacatedWithheld
        found).known = (srv.removeRemoteMember now app origin channel u found).2.2.known ∧
      (srv.applyRemoteMemberRemoved now app origin channel u webhookWithheld vacatedWithheld
        found).sent = (srv.removeRemoteMember now app origin channel u found).2.2.sent ∧
      (srv.applyRemoteMemberRemoved now app origin channel u webhookWithheld vacatedWithheld
        found).config = (srv.removeRemoteMember now app origin channel u found).2.2.config := by
  rw [applyRemoteMemberRemoved]
  dsimp only
  obtain ⟨hKnown, hSent, hConfig⟩ := reportWithheld_same
    (srv.removeRemoteMember now app origin channel u found).2.2 now app origin channel (some u)
    ((srv.removeRemoteMember now app origin channel u found).1 && webhookWithheld)
    (.MemberRemoved channel u)
  obtain ⟨hKnown', hSent', hConfig'⟩ := reportWithheld_same
    ((srv.removeRemoteMember now app origin channel u found).2.2.reportWithheld now app origin
      channel (some u) ((srv.removeRemoteMember now app origin channel u found).1 &&
        webhookWithheld)
      (.MemberRemoved channel u)) now app origin channel none
    ((srv.removeRemoteMember now app origin channel u found).2.1 && vacatedWithheld)
    (.ChannelVacated channel)
  exact ⟨hKnown'.trans hKnown, hSent'.trans hSent, hConfig'.trans hConfig⟩

theorem framesTo_applyRemoteMemberRemoved :
    framesTo (srv.applyRemoteMemberRemoved now app origin channel u webhookWithheld
      vacatedWithheld found).sent appId socketId = framesTo srv.sent appId socketId ++
        if (app.id = appId ∧ reaches found socketId = true) ∧ presentIn found u = false ∧
          (srv.presenceCache.removeLive now app.id channel origin u).2.isPresentExcluding now
            app.id channel u none = false then
          [.memberRemoved channel u] else [] := by
  rw [(applyRemoteMemberRemoved_same ..).2.1, removeRemoteMember]
  dsimp only
  split
  · rename_i hGone
    rw [Bool.and_eq_true, Bool.not_eq_true', Bool.not_eq_true'] at hGone
    rw [framesTo_announce]
    have hCache : (srv.withPresenceCache
        (srv.presenceCache.removeLive now app.id channel origin u).2).presenceCache =
        (srv.presenceCache.removeLive now app.id channel origin u).2 := rfl
    rw [hCache] at hGone
    simp [hGone, withPresenceCache]
  · rename_i hStill
    rw [if_neg, append_nil]
    · rfl
    · rintro ⟨-, hLocal, hRemote⟩
      apply hStill
      rw [Bool.and_eq_true, Bool.not_eq_true', Bool.not_eq_true']
      exact ⟨hLocal, hRemote⟩

/-! ## A whole roster -/

theorem announceAll_same (ch : Channel) (frames : List Frame) :
    (srv.announceAll appId ch frames).known = srv.known ∧
      (srv.announceAll appId ch frames).config = srv.config := by
  induction frames generalizing srv with
  | nil => exact ⟨rfl, rfl⟩
  | cons frame frames ih => exact ih (srv.broadcastProtocol appId ch frame none)

theorem framesTo_announceAll (ch : Channel) (frames : List Frame) (appId socketId : String) :
    framesTo (srv.announceAll a ch frames).sent appId socketId = framesTo srv.sent appId socketId ++
        if a = appId ∧ socketId ∈ ch.members then frames else [] := by
  induction frames generalizing srv with
  | nil => simp [announceAll]
  | cons frame frames ih =>
    have hCons : srv.announceAll a ch (frame :: frames) =
        (srv.broadcastProtocol a ch frame none).announceAll a ch frames := rfl
    rw [hCons, ih, framesTo_broadcastProtocol]
    by_cases hTo : a = appId ∧ socketId ∈ ch.members
    · simp [hTo]
    · have hNone : ¬ (a = appId ∧ socketId ∈ ch.members ∧ none ≠ some socketId) :=
        fun hAll => hTo ⟨hAll.1, hAll.2.1⟩
      rw [if_neg hNone, if_neg hTo, if_neg hTo, append_nil]

theorem known_applyRemotePresenceSnapshot :
    (srv.applyRemotePresenceSnapshot now app node channel members found).known = { srv.known with
        presenceCache := srv.presenceCache.insertSnapshot now app.id channel node members } := by
  cases found with
  | none => rfl
  | some ch => exact (announceAll_same ..).1

theorem config_applyRemotePresenceSnapshot :
    (srv.applyRemotePresenceSnapshot now app node channel members found).config = srv.config := by
  cases found with
  | none => rfl
  | some ch => exact (announceAll_same ..).2

def rosterChange (before after : List String) (found : Option Channel) (u : String) : List Bool :=
  if presentIn found u then []
  else if u ∈ before then (if u ∈ after then [] else [false])
  else if u ∈ after then [true] else []

theorem filterMap_change_map {l : List String} (hNodup : l.Nodup) (channel u : String)
    (b : Bool) (f : String → Frame)
    (hf : ∀ x, (f x).change channel u = if x = u then some b else none) :
    (l.map f).filterMap (Frame.change channel u) = if u ∈ l then [b] else [] := by
  induction l with
  | nil => simp
  | cons x l ih =>
    obtain ⟨hHead, hTail⟩ := nodup_cons.mp hNodup
    rw [map_cons, filterMap_cons, hf, ih hTail]
    by_cases hx : x = u
    · subst hx
      simp [hHead]
    · simp [hx, Ne.symm hx]

theorem roster_diffFrames {channel : String} {infoOf : String → Option Value} {f : Frame}
    (hf : f ∈ diffFrames channel ch before after infoOf) (c : String) : f.roster c = none := by
  rcases mem_append.mp hf with hf | hf
  · obtain ⟨u, -, rfl⟩ := mem_map.mp hf
    rfl
  · obtain ⟨u, -, rfl⟩ := mem_map.mp hf
    rfl

theorem filterMap_change_diffFrames {channel : String} (hBefore : before.Nodup)
    (hAfter : after.Nodup) (infoOf : String → Option Value) (c u : String) :
    (diffFrames channel ch before after infoOf).filterMap (Frame.change c u) =
      if channel = c then rosterChange before after (some ch) u else [] := by
  rw [diffFrames, filterMap_append]
  by_cases hc : channel = c
  · subst hc
    rw [filterMap_change_map (hBefore.filter _) channel u false _ (by intro x; simp [Frame.change]),
      filterMap_change_map (hAfter.filter _) channel u true _ (by intro x; simp [Frame.change]),
      if_pos rfl, rosterChange, presentIn]
    cases hLocal : ch.hasUserId u <;> by_cases hIn : u ∈ before <;>
      by_cases hOut : u ∈ after <;> simp [hLocal, hIn, hOut]
  · rw [if_neg hc]
    simp [filterMap_map, Frame.change, hc, Function.comp_def]

/-! ## What the local sockets hear -/

theorem heard_applyRemoteMemberAdded :
    heard c v (framesTo (srv.applyRemoteMemberAdded now app origin channel u info found).sent
      appId socketId) = (heard c v (framesTo srv.sent appId socketId)).hear
        (if (app.id = appId ∧ channel = c ∧ reaches found socketId = true) ∧ u = v ∧
          presentIn found v = false ∧
          srv.presenceCache.isPresentExcluding now app.id channel v (some origin) = false
        then [true] else []) := by
  rw [framesTo_applyRemoteMemberAdded]
  exact heard_append_change (Q := fun w => presentIn found w = false ∧
    srv.presenceCache.isPresentExcluding now app.id channel w (some origin) = false) rfl rfl

theorem heard_applyRemoteMemberRemoved :
    heard c v (framesTo (srv.applyRemoteMemberRemoved now app origin channel u webhookWithheld
      vacatedWithheld found).sent appId socketId) =
      (heard c v (framesTo srv.sent appId socketId)).hear
        (if (app.id = appId ∧ channel = c ∧ reaches found socketId = true) ∧ u = v ∧
          presentIn found v = false ∧
          (srv.presenceCache.removeLive now app.id channel origin u).2.isPresentExcluding now
            app.id channel v none = false then [false] else []) := by
  rw [framesTo_applyRemoteMemberRemoved]
  exact heard_append_change (Q := fun w => presentIn found w = false ∧
    (srv.presenceCache.removeLive now app.id channel origin u).2.isPresentExcluding now
      app.id channel w none = false) rfl rfl

theorem heard_applyRemotePresenceSnapshot :
    heard c v (framesTo (srv.applyRemotePresenceSnapshot now app node channel members found).sent
      appId socketId) = (heard c v (framesTo srv.sent appId socketId)).hear
        (if app.id = appId ∧ channel = c ∧ reaches found socketId = true then
          rosterChange (srv.presenceCache.announcedUserIds app.id channel)
            ((srv.presenceCache.insertSnapshot now app.id channel node members).announcedUserIds
              app.id channel) found v else []) := by
  cases found with
  | none => simp [applyRemotePresenceSnapshot, withPresenceCache, reaches]
  | some ch =>
    have hFrames := framesTo_announceAll (srv.withPresenceCache
      (srv.presenceCache.insertSnapshot now app.id channel node members)) app.id ch
      (diffFrames channel ch (srv.presenceCache.announcedUserIds app.id channel)
        ((srv.presenceCache.insertSnapshot now app.id channel node members).announcedUserIds
          app.id channel)
        fun u => ((collect (members.map fun m => (m.userId, m.userInfo))).lookup u).join)
      appId socketId
    rw [applyRemotePresenceSnapshot]
    refine (congrArg (heard c v) hFrames).trans ?_
    rw [heard_append, foldl_hearStep_of_changes]
    · congr 1
      by_cases hTo : app.id = appId ∧ socketId ∈ ch.members
      · rw [if_pos hTo, filterMap_change_diffFrames (announcedUserIds_nodup ..)
          (announcedUserIds_nodup ..)]
        simp [hTo, reaches]
      · have hNot : ¬ (app.id = appId ∧ channel = c ∧ reaches (some ch) socketId = true) := by
          rintro ⟨hApp, -, hReach⟩
          exact hTo ⟨hApp, by simpa [reaches] using hReach⟩
        rw [if_neg hTo, if_neg hNot]
        rfl
    · intro f hf
      split at hf
      · exact roster_diffFrames hf c
      · cases hf

end Server

/-! ## The three updates as one -/

inductive PresenceUpdate where
  | added (userId : String) (userInfo : Option Value)
  | removed (userId : String) (webhookWithheld vacatedWithheld : Bool)
  | roster (members : List PresenceSnapshotMember)

def PresenceUpdate.payload (origin channel : String) : PresenceUpdate → ScalingPayload
  | .added u info => .MemberAdded origin channel u info
  | .removed u webhookWithheld vacatedWithheld =>
    .MemberRemoved origin channel u webhookWithheld vacatedWithheld
  | .roster members => .PresenceSnapshot origin channel members

def PresenceUpdate.cache (now : Instant) (appId origin channel : String)
    (cache : PresenceCache) : PresenceUpdate → PresenceCache
  | .added u info => (cache.addLive now appId channel origin u info).2
  | .removed u _ _ => (cache.removeLive now appId channel origin u).2
  | .roster members => cache.insertSnapshot now appId channel origin members

/-- The cache a stale update leaves: a snapshot still proves its sender alive. -/
def PresenceUpdate.staleCache (now : Instant) (appId origin channel : String)
    (cache : PresenceCache) : PresenceUpdate → PresenceCache
  | .roster _ => cache.touch now appId channel origin
  | _ => cache

def Server.applyUpdate (srv : Server) (now : Instant) (app : Application)
    (origin channel : String) (found : Option Channel) : PresenceUpdate → Server
  | .added u info => srv.applyRemoteMemberAdded now app origin channel u info found
  | .removed u webhookWithheld vacatedWithheld =>
    srv.applyRemoteMemberRemoved now app origin channel u webhookWithheld vacatedWithheld found
  | .roster members => srv.applyRemotePresenceSnapshot now app origin channel members found

variable (srv : Server) (node : Node) (now : Instant) (env : ScalingEnvelope) (app : Application)
  (origin channel : String) (found : Option Channel) (update : PresenceUpdate)

theorem Server.known_applyUpdate : (srv.applyUpdate now app origin channel found update).known =
      { srv.known with
        presenceCache := update.cache now app.id origin channel srv.presenceCache } := by
  cases update with
  | added u info => exact srv.known_applyRemoteMemberAdded ..
  | removed u w v =>
    exact (srv.applyRemoteMemberRemoved_same ..).1.trans (srv.known_removeRemoteMember ..)
  | roster members => exact srv.known_applyRemotePresenceSnapshot ..

theorem Server.config_applyUpdate :
    (srv.applyUpdate now app origin channel found update).config = srv.config := by
  cases update with
  | added u info => exact srv.config_applyRemoteMemberAdded ..
  | removed u w v =>
    exact (srv.applyRemoteMemberRemoved_same ..).2.2.trans (srv.config_removeRemoteMember ..)
  | roster members => exact srv.config_applyRemotePresenceSnapshot ..

/-- What an applied update announces about a user to the members of the channel. -/
def PresenceUpdate.change (now : Instant) (appId origin channel : String)
    (cache : PresenceCache) (found : Option Channel) (v : String) : PresenceUpdate → List Bool
  | .added u _ =>
    if u = v ∧ Server.presentIn found v = false ∧
      cache.isPresentExcluding now appId channel v (some origin) = false then [true] else []
  | .removed u _ _ =>
    if u = v ∧ Server.presentIn found v = false ∧
      (cache.removeLive now appId channel origin u).2.isPresentExcluding now appId channel v
        none = false then [false] else []
  | .roster members =>
    Server.rosterChange (cache.announcedUserIds appId channel)
      ((cache.insertSnapshot now appId channel origin members).announcedUserIds appId channel)
      found v

theorem Server.heard_applyUpdate (a s c v : String) :
    heard c v (framesTo (srv.applyUpdate now app origin channel found update).sent a s) =
      (heard c v (framesTo srv.sent a s)).hear
        (if app.id = a ∧ channel = c ∧ reaches found s = true then
          update.change now app.id origin channel srv.presenceCache found v else []) := by
  cases update with
  | added u info =>
    rw [PresenceUpdate.change, ← ite_and]
    exact srv.heard_applyRemoteMemberAdded ..
  | removed u w v =>
    rw [PresenceUpdate.change, ← ite_and]
    exact srv.heard_applyRemoteMemberRemoved ..
  | roster members => exact srv.heard_applyRemotePresenceSnapshot ..

/-- The server once a message of a peer is seen and its number recorded. -/
def Server.observe (srv : Server) (now : Instant) (origin : String) (app : Application)
    (key : String) (seq : Nat) : Server :=
  (({ srv with
      dispatcher := { srv.dispatcher with
        peersSeen := srv.dispatcher.peersSeen.insert origin now } } : Server).acceptSeq now origin
    app key seq).2

theorem EventDispatcher.acceptSeq_peersSeen (d : EventDispatcher) (seen : Map String Instant)
    (now : Instant) (origin : String) (app : Application) (key : String) (seq : Nat) :
    (EventDispatcher.acceptSeq { d with peersSeen := seen } now origin app key seq).1 =
        (d.acceptSeq now origin app key seq).1 ∧
      (EventDispatcher.acceptSeq { d with peersSeen := seen } now origin app key seq).2.peerSeqs =
        (d.acceptSeq now origin app key seq).2.peerSeqs := by
  rw [acceptSeq, acceptSeq]
  dsimp only
  split
  · exact ⟨rfl, rfl⟩
  · split <;> exact ⟨rfl, rfl⟩

theorem Server.known_observe (app : Application) (key : String) (seq : Nat) :
    (srv.observe now origin app key seq).known =
      { srv.known with
        peersSeen := srv.dispatcher.peersSeen.insert origin now
        peerSeqs := (srv.dispatcher.acceptSeq now origin app key seq).2.peerSeqs } := by
  have hKnown := known_acceptSeq { srv.dispatcher with
    peersSeen := srv.dispatcher.peersSeen.insert origin now } now origin app key seq
  rw [(srv.dispatcher.acceptSeq_peersSeen _ now origin app key seq).2] at hKnown
  exact hKnown

theorem Node.seePeer_update (hOrigin : origin ≠ node.dispatcher.nodeId) :
    node.seePeer now (update.payload origin channel) =
      { node with
        dispatcher := { node.dispatcher with
          peersSeen := node.dispatcher.peersSeen.insert origin now } } := by
  have hNode : payloadNodeId (update.payload origin channel) = some origin := by
    cases update <;> rfl
  rw [seePeer, hNode]
  exact if_neg hOrigin

/-- Handling an update: it is recorded, and then applied if it is newer than
everything applied from its sender for the channel. -/
theorem Node.handleIncoming_update (hVersion : env.version ≤ scalingVersion)
    (hApp : node.config env.app.id = some app)
    (hPayload : env.payload = update.payload origin channel)
    (hOrigin : origin ≠ node.dispatcher.nodeId) : node.handleIncoming now env = node.setServer
      (if (node.dispatcher.acceptSeq now origin app ("p:" ++ channel) env.seq).1 = true then
        (node.observe now origin app ("p:" ++ channel) env.seq).applyUpdate now app origin channel
          (node.findChannel app.id channel) update else
        (node.observe now origin app ("p:" ++ channel) env.seq).withPresenceCache
          (update.staleCache now app.id origin channel node.presenceCache)) := by
  have hSame := (node.dispatcher.acceptSeq_peersSeen
    (node.dispatcher.peersSeen.insert origin now) now origin app ("p:" ++ channel) env.seq).1
  have hCache : (node.observe now origin app ("p:" ++ channel) env.seq).presenceCache =
      node.presenceCache :=
    congrArg PeerKnowledge.presenceCache (Server.known_observe ..)
  rw [handleIncoming, if_neg (Nat.not_lt.mpr hVersion), hPayload, node.seePeer_update now origin
    channel update hOrigin]
  dsimp only
  rw [hApp]
  dsimp only
  rw [← hSame]
  by_cases hNewer : (EventDispatcher.acceptSeq { node.dispatcher with
      peersSeen := node.dispatcher.peersSeen.insert origin now } now origin app ("p:" ++ channel)
      env.seq).1 = true
  · rw [if_pos hNewer]
    cases update with
    | _ =>
      exact Eq.trans (handlePayload_of_peer _ _ _ rfl hOrigin) (if_pos hNewer)
  · rw [if_neg hNewer, ← hCache]
    cases update with
    | _ =>
      exact Eq.trans (handlePayload_of_peer _ _ _ rfl hOrigin) (if_neg hNewer)

/-- The application for which an update is applied; `none` when it is ignored: a
newer protocol, the node's own message, an unknown application or a stale number. -/
def Node.accepting (node : Node) (now : Instant) (env : ScalingEnvelope)
    (origin channel : String) : Option Application :=
  if env.version ≤ scalingVersion ∧ origin ≠ node.dispatcher.nodeId then
    (node.config env.app.id).filter fun app =>
      (node.dispatcher.acceptSeq now origin app ("p:" ++ channel) env.seq).1
  else none

theorem Server.observe_same (app : Application) (key : String) (seq : Nat) :
    (srv.observe now origin app key seq).sent = srv.sent ∧
      (srv.observe now origin app key seq).config = srv.config ∧
      (srv.observe now origin app key seq).presenceCache = srv.presenceCache :=
  ⟨rfl, rfl, congrArg PeerKnowledge.presenceCache (srv.known_observe ..)⟩

theorem Node.handleIncoming_accepted {app : Application}
    (hPayload : env.payload = update.payload origin channel)
    (hAccept : node.accepting now env origin channel = some app) :
    node.handleIncoming now env = node.setServer
      ((node.observe now origin app ("p:" ++ channel) env.seq).applyUpdate now app origin channel
        (node.findChannel app.id channel) update) := by
  rw [accepting] at hAccept
  split at hAccept
  · rename_i hGuard
    obtain ⟨hApp, hNewer⟩ := Option.filter_eq_some_iff.mp hAccept
    rw [node.handleIncoming_update now env app origin channel update hGuard.1 hApp hPayload
      hGuard.2, if_pos hNewer]
  · cases hAccept

theorem PresenceUpdate.lists_staleCache (appId origin channel : String) (cache : PresenceCache)
    (update : PresenceUpdate) (a c n v : String) :
    (update.staleCache now appId origin channel cache).Lists a c n v ↔ cache.Lists a c n v := by
  cases update with
  | added | removed => rfl
  | roster members => exact lists_touch ..

theorem Node.handleIncoming_ignored (hPayload : env.payload = update.payload origin channel)
    (hIgnore : node.accepting now env origin channel = none) :
    (node.handleIncoming now env).apps = node.apps ∧
      (node.handleIncoming now env).sent = node.sent ∧
      (node.handleIncoming now env).config = node.config ∧
      ∀ a c n v, (node.handleIncoming now env).presenceCache.Lists a c n v ↔
        node.presenceCache.Lists a c n v := by
  by_cases hVersion : env.version ≤ scalingVersion
  · by_cases hOrigin : origin = node.dispatcher.nodeId
    · have hNode : payloadNodeId (update.payload origin channel) = some origin := by
        cases update <;> rfl
      have hSeen : node.seePeer now (update.payload origin channel) = node := by
        rw [seePeer, hNode]
        exact if_pos hOrigin
      have hSame : node.handleIncoming now env = node := by
        rw [handleIncoming, if_neg (Nat.not_lt.mpr hVersion), hPayload, hSeen]
        dsimp only
        cases node.config env.app.id with
        | none => rfl
        | some app => cases update <;> exact if_pos (congrArg some hOrigin)
      rw [hSame]
      exact ⟨rfl, rfl, rfl, fun _ _ _ _ => Iff.rfl⟩
    · cases hApp : node.config env.app.id with
      | none =>
        have hSame : node.handleIncoming now env = node.seePeer now env.payload := by
          rw [handleIncoming, if_neg (Nat.not_lt.mpr hVersion), hPayload,
            node.seePeer_update now origin channel update hOrigin]
          dsimp only
          rw [hApp]
        rw [hSame, hPayload, node.seePeer_update now origin channel update hOrigin]
        exact ⟨rfl, rfl, rfl, fun _ _ _ _ => Iff.rfl⟩
      | some app =>
        have hStale : ¬ (node.dispatcher.acceptSeq now origin app ("p:" ++ channel)
            env.seq).1 = true := by
          intro hNewer
          rw [accepting, if_pos ⟨hVersion, hOrigin⟩, hApp] at hIgnore
          simp [hNewer] at hIgnore
        rw [node.handleIncoming_update now env app origin channel update hVersion hApp hPayload
          hOrigin, if_neg hStale]
        exact ⟨rfl, rfl, rfl,
          fun a c n v => update.lists_staleCache now app.id origin channel _ a c n v⟩
  · have hSame : node.handleIncoming now env = node := by
      rw [handleIncoming, if_pos (Nat.not_le.mp hVersion)]
    rw [hSame]
    exact ⟨rfl, rfl, rfl, fun _ _ _ _ => Iff.rfl⟩

end Zatat
