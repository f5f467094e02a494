import Zatat.Ws.UserIndex

/-! # One publication reaches every socket once

A fleet of nodes with the same settings, and a bus that hands every envelope to
every node, its origin included. The origin has served its own sockets by then and
skips the echo.
-/

namespace Zatat

open Function FiniteMap EventDispatcher Node List

namespace Node

/-- The user index lists open connections only and none twice, and every channel is
of the kind its name stands for. -/
structure Sound (node : Node) : Prop where
  once : ∀ a u, ((node.apps a).socketsOf u).Nodup
  registered : ∀ a u s, s ∈ (node.apps a).socketsOf u → s ∈ (node.apps a).connections
  kinds : node.KindsByName

/-- Between the two states every socket that is a `target` is handed the frame once, and
nothing else is handed to anybody. -/
def Delivers (node after : Node) (a : String) (frame : Frame) (target : String → Prop) : Prop :=
  ∃ targets : List String,
    after.sent = node.sent ++ targets.map (fun s => ⟨a, s, .text frame⟩) ∧
    targets.Nodup ∧ ∀ s, s ∈ targets ↔ target s

def IsMember (node : Node) (a c s : String) : Prop := (node.memberOf a c s).isSome = true

variable (node : Node) (now : Instant) (app : Application)

def publishedSince (node after : Node) : List ScalingEnvelope :=
  after.dispatcher.published.drop node.dispatcher.published.length

theorem delivers_sendAll (a : String) {targets : List String} (frame : Frame)
    {target : String → Prop} (hNodup : targets.Nodup) (hTarget : ∀ s, s ∈ targets ↔ target s) :
    Delivers node (node.setServer (node.sendAll a targets (.text frame))) a frame target :=
  ⟨targets, rfl, hNodup, hTarget⟩

theorem delivers_broadcastProtocol {a c : String} {ch : Channel}
    (hMembers : ∀ s, ch.members.lookup s = node.memberOf a c s) (frame : Frame)
    (except : Option String) :
    Delivers node (node.setServer (node.broadcastProtocol a ch frame except)) a frame
      fun s => node.IsMember a c s ∧ except ≠ some s := by
  refine delivers_sendAll node a frame (ch.recipients_nodup except) fun s => ?_
  rw [Channel.mem_recipients, IsMember, ← hMembers, AList.lookup_isSome]

theorem delivers_deliverUserEventLocally {node : Node} (h : node.Sound) (a u event data : String) :
    Delivers node (node.deliverUserEventLocally a u event data) a
      (.event ⟨event, data, "#server-to-user-" ++ u⟩) fun s => s ∈ (node.apps a).socketsOf u := by
  refine delivers_sendAll node a _ ((h.once a u).filter _) fun s => ?_
  rw [AppChannels.connectionsForUser, mem_filter, decide_eq_true_eq]
  exact and_iff_left_of_imp (h.registered a u s)

theorem delivers_broadcastLocallyWithApp {channel : String}
    (hOrdinary : startsWith channel "#server-to-user-" = false) (event data : String)
    (except : Option String) :
    Delivers node (node.broadcastLocallyWithApp now app channel event data except) app.id
      (.event ⟨event, data, channel⟩)
      fun s => node.IsMember app.id channel s ∧ except ≠ some s := by
  have hStored {ch : Channel} {slot : AppChannels}
      (hMembers : ∀ s, ch.members.lookup s = node.memberOf app.id channel s) :
      Delivers node ((node.setApp app.id slot).setServer
        ((node.setApp app.id slot).broadcastProtocol
        app.id ch (.event ⟨event, data, channel⟩) except)) app.id (.event ⟨event, data, channel⟩)
        fun s => node.IsMember app.id channel s ∧ except ≠ some s :=
    node.delivers_broadcastProtocol hMembers _ except
  rw [broadcastLocallyWithApp, if_neg (by rw [hOrdinary]; exact Bool.false_ne_true)]
  unfold AppChannels.getOrCreateCacheChannel
  by_cases hCache : (ChannelKind.fromName channel).isCache = true
  · rw [if_pos hCache]
    exact hStored fun s => AppChannels.lookup_entryOrNew ..
  · rw [if_neg hCache]
    dsimp only
    cases hFind : (node.apps app.id).findChannel channel with
    | none =>
      refine ⟨[], (append_nil _).symm, nodup_nil, fun s => ?_⟩
      have hNone : node.memberOf app.id channel s = none := by
        rw [memberOf, AppChannels.memberOf, hFind]
        rfl
      simp [IsMember, hNone]
    | some ch => exact hStored fun s => (AppChannels.memberOf_of_find hFind s).symm

theorem broadcastLocallyWithApp_user (u event data : String) (except : Option String) :
    node.broadcastLocallyWithApp now app ("#server-to-user-" ++ u) event data except =
      node.deliverUserEventLocally app.id u event data := by
  have hStart : startsWith ("#server-to-user-" ++ u) "#server-to-user-" = true := by
    rw [startsWith, String.toList_append]
    exact isPrefixOf_iff_prefix.mpr (prefix_append ..)
  have hRest : String.ofList
      (("#server-to-user-" ++ u).toList.drop "#server-to-user-".length) = u := by
    rw [String.toList_append, ← String.length_toList, drop_left, String.ofList_toList]
  rw [broadcastLocallyWithApp, if_pos hStart, hRest]

theorem broadcastLocallyWithApp_same (channel event data : String) (except : Option String) :
    (node.broadcastLocallyWithApp now app channel event data except).dispatcher = node.dispatcher ∧
      (node.broadcastLocallyWithApp now app channel event data except).config = node.config := by
  rw [broadcastLocallyWithApp]
  split
  · exact ⟨rfl, rfl⟩
  · dsimp only
    split <;> exact ⟨rfl, rfl⟩

/-! ## What a peer does with an envelope -/

theorem handleIncoming_envelope {node : Node} {app : Application}
    (hApp : node.config app.id = some app) (now : Instant) (seq : Nat) (payload : ScalingPayload) :
    node.handleIncoming now (envelope app seq payload) =
      (node.seePeer now payload).handlePayload now app seq payload := by
  have hSeen : (node.seePeer now payload).config app.id = some app := by
    rw [(node.seePeer_same now payload).2.2.1]
    exact hApp
  have hVersion : ¬ (envelope app seq payload).version > scalingVersion :=
    Nat.lt_irrefl _
  rw [handleIncoming, if_neg hVersion]
  dsimp only [envelope]
  rw [hSeen]

theorem Sound.of_within {node after : Node} (h : node.Sound)
    (hWithin : Within .unbound node after) : after.Sound := by
  refine ⟨fun a u => ?_, fun a u s => ?_, hWithin.kindsByName h.kinds⟩
  · rw [hWithin.socketsOf_eq]
    exact h.once a u
  · rw [hWithin.socketsOf_eq, hWithin.connections_eq]
    exact h.registered a u s

end Node

namespace FanOut

variable {ι : Type}

/-- Nodes that share the settings of the application and are connected by a bus. -/
structure Fleet (nodes : ι → Node) (app : Application) : Prop where
  table : ∀ i, (nodes i).config app.id = some app
  distinct : ∀ i j, (nodes i).dispatcher.nodeId = (nodes j).dispatcher.nodeId → i = j
  scaling : ∀ i, (nodes i).dispatcher.scalingEnabled = true
  sound : ∀ i, (nodes i).Sound

/-- An operation that binds nobody and changes nothing of what makes the node part of
its fleet. -/
structure Remains (node after : Node) : Prop where
  within : Node.Within .unbound node after
  nodeId : after.dispatcher.nodeId = node.dispatcher.nodeId
  scaling : after.dispatcher.scalingEnabled = node.dispatcher.scalingEnabled

theorem nodeId_update [DecidableEq ι] {nodes : ι → Node} {i : ι} {after : Node}
    (h : Remains (nodes i) after) (j : ι) :
    (update nodes i after j).dispatcher.nodeId = (nodes j).dispatcher.nodeId := by
  rw [update_apply]
  split
  · rename_i hj
    rw [hj, h.nodeId]
  · rfl

theorem Fleet.update [DecidableEq ι] {nodes : ι → Node} {app : Application}
    (h : Fleet nodes app) {i : ι} {after : Node} (hRemains : Remains (nodes i) after) :
    Fleet (update nodes i after) app := by
  refine ⟨fun j => ?_, fun j k => ?_, fun j => ?_, fun j => ?_⟩
  · rw [update_apply]
    split
    · rw [hRemains.within.server.config]
      exact h.table i
    · exact h.table j
  · rw [nodeId_update hRemains, nodeId_update hRemains]
    exact h.distinct j k
  · rw [update_apply]
    split
    · rw [hRemains.scaling]
      exact h.scaling i
    · exact h.scaling j
  · rw [update_apply]
    split
    · exact (h.sound i).of_within hRemains.within
    · exact h.sound j

def fanOut [DecidableEq ι] (nodes : ι → Node) (o : ι) (after : Node) (nows : ι → Instant) (i : ι) :
    Node :=
  ((nodes o).publishedSince after).foldl (fun node env => node.handleIncoming (nows i) env)
    (update nodes o after i)

section

variable [DecidableEq ι] {nodes : ι → Node} {app : Application}

theorem delivers_fanOut (hFleet : Fleet nodes app) {o : ι} {after : Node}
    (payload : ScalingPayload) {frame : Frame} (target : ι → String → Prop)
    (hPublished : ∃ seq, after.dispatcher.published =
      (nodes o).dispatcher.published ++ [envelope app seq payload])
    (hConfig : after.config = (nodes o).config)
    (hNodeId : after.dispatcher.nodeId = (nodes o).dispatcher.nodeId)
    (hLocal : (nodes o).Delivers after app.id frame (target o))
    (hEcho : ∀ node : Node, node.dispatcher.nodeId = (nodes o).dispatcher.nodeId →
      ∀ now seq, node.handlePayload now app seq payload = node)
    (hPeer : ∀ node : Node, (nodes o).dispatcher.nodeId ≠ node.dispatcher.nodeId → node.Sound →
      ∀ now seq i, node.apps = (nodes i).apps →
        node.Delivers (node.handlePayload now app seq payload) app.id frame (target i))
    (nows : ι → Instant) (i : ι) :
    (nodes i).Delivers (fanOut nodes o after nows i) app.id frame (target i) := by
  obtain ⟨seq, hPublished⟩ := hPublished
  have hBus : (nodes o).publishedSince after = [envelope app seq payload] := by
    rw [publishedSince, hPublished, drop_left]
  rw [fanOut, hBus, foldl_cons, foldl_nil]
  by_cases hi : i = o
  · subst hi
    obtain ⟨-, hSent, -, hId, -⟩ := after.seePeer_same (nows i) payload
    rw [update_self, handleIncoming_envelope (by rw [hConfig]; exact hFleet.table i),
      hEcho _ (hId.trans hNodeId)]
    obtain ⟨targets, hTargets, hNodup, hMem⟩ := hLocal
    exact ⟨targets, hSent.trans hTargets, hNodup, hMem⟩
  · obtain ⟨hApps, hSent, -, hId, -⟩ := (nodes i).seePeer_same (nows i) payload
    rw [update_of_ne hi, handleIncoming_envelope (hFleet.table i)]
    obtain ⟨targets, hTargets, hNodup, hMem⟩ := hPeer _
      (by rw [hId]; exact fun hEq => hi (hFleet.distinct o i hEq).symm)
      ((hFleet.sound i).of_within ((nodes i).within_seePeer ..)) (nows i) seq i hApps
    rw [hSent] at hTargets
    exact ⟨targets, hTargets, hNodup, hMem⟩

def published (node : Node) (now : Instant) (app : Application) (channel event data : String)
    (except : Option String) : Node :=
  (node.broadcastLocallyWithApp now app channel event data except).publishMessage app channel
    event data except

theorem dispatchMessage_of_sealed {prims : Primitives} {node : Node}
    (hScaling : node.dispatcher.scalingEnabled = true) {moment : Moment} {app : Application}
    {channel data sealedData : String} (event : String) (except : Option String)
    (hSealed : maybeEncrypt prims moment.nonce app (ChannelKind.fromName channel) channel data =
      .ok sealedData) : (node.dispatchMessage prims moment app channel event data except).2 =
      published node moment.now app channel event sealedData except := by
  obtain ⟨hSame, -⟩ :=
    node.broadcastLocallyWithApp_same moment.now app channel event sealedData except
  rw [dispatchMessage, hSealed]
  dsimp only
  rw [hSame, if_pos hScaling, published]

theorem delivers_published (hFleet : Fleet nodes app) (o : ι) (now : Instant)
    (channel event data : String) (except : Option String) {frame : Frame}
    (target : ι → String → Prop)
    (hBroadcast : ∀ node : Node, node.Sound → ∀ now i, node.apps = (nodes i).apps →
      node.Delivers (node.broadcastLocallyWithApp now app channel event data except) app.id frame
        (target i)) (nows : ι → Instant) (i : ι) : (nodes i).Delivers
      (fanOut nodes o (published (nodes o) now app channel event data except) nows i) app.id
      frame (target i) := by
  obtain ⟨hSame, hConfig⟩ :=
    (nodes o).broadcastLocallyWithApp_same now app channel event data except
  have hScaling := hFleet.scaling o
  have hAfter : (published (nodes o) now app channel event data except).dispatcher =
      (nodes o).dispatcher.spawnPublish (envelope app 0
        (.Message (nodes o).dispatcher.nodeId channel event data except)) := by
    rw [published, publishMessage, hSame]
  refine delivers_fanOut hFleet (.Message (nodes o).dispatcher.nodeId channel event data except)
    target ?_ ?_ ?_ ?_ ?_ ?_ nows i
  · rw [hAfter]
    exact published_spawnPublish _ hScaling ..
  · exact hConfig
  · rw [hAfter]
    exact congrArg EventDispatcher.PeerKnowledge.nodeId (known_spawnPublish ..)
  · exact hBroadcast (nodes o) (hFleet.sound o) now o rfl
  · intro node hOwn now seq
    exact handlePayload_of_own _ _ _ rfl hOwn.symm
  · intro node hOther hSound now seq i hApps
    rw [handlePayload_of_peer _ _ _ rfl hOther]
    exact hBroadcast node hSound now i hApps

theorem delivers_dispatchUserEvent (hFleet : Fleet nodes app) (o : ι) (u event data : String)
    (nows : ι → Instant) (i : ι) :
    (nodes i).Delivers (fanOut nodes o ((nodes o).dispatchUserEvent app u event data) nows i)
      app.id (.event ⟨event, data, "#server-to-user-" ++ u⟩)
      fun s => s ∈ ((nodes i).apps app.id).socketsOf u := by
  have hScaling := hFleet.scaling o
  have hAfter : (nodes o).dispatchUserEvent app u event data =
      { (nodes o).deliverUserEventLocally app.id u event data with
        dispatcher := (nodes o).dispatcher.spawnPublish (envelope app 0
          (.UserEvent (nodes o).dispatcher.nodeId u event data)) } := if_pos hScaling
  refine delivers_fanOut hFleet (.UserEvent (nodes o).dispatcher.nodeId u event data)
    (fun i s => s ∈ ((nodes i).apps app.id).socketsOf u) ?_ ?_ ?_ ?_ ?_ ?_ nows i
  · rw [hAfter]
    exact published_spawnPublish _ hScaling ..
  · rw [hAfter]
    rfl
  · rw [hAfter]
    exact congrArg EventDispatcher.PeerKnowledge.nodeId (known_spawnPublish ..)
  · rw [hAfter]
    exact delivers_deliverUserEventLocally (hFleet.sound o) ..
  · intro node hOwn now seq
    exact handlePayload_of_own _ _ _ rfl hOwn.symm
  · intro node hOther hSound now seq i hApps
    rw [handlePayload_of_peer _ _ _ rfl hOther, ← hApps]
    exact delivers_deliverUserEventLocally hSound ..

theorem delivers_relayClientEvent (hFleet : Fleet nodes app) (o : ι) (conn : Connection)
    {channel : String} (event data : String) {ch : Channel}
    (hFind : (nodes o).findChannel app.id channel = some ch) (nows : ι → Instant) (i : ι) :
    (nodes i).Delivers
      (fanOut nodes o ((nodes o).relayClientEvent app conn channel event data ch) nows i) app.id
      (.clientEvent event data channel (Serving.senderOf channel conn.socketId ch))
      fun s => (nodes i).IsMember app.id channel s ∧ some conn.socketId ≠ some s := by
  have hScaling := hFleet.scaling o
  have hAfter : ((nodes o).relayClientEvent app conn channel event data ch).dispatcher =
      (nodes o).dispatcher.spawnPublish (envelope app 0
        (.ClientEvent (nodes o).dispatcher.nodeId channel event data conn.socketId
          (Serving.senderOf channel conn.socketId ch))) :=
    congrArg (fun node : Node => node.dispatcher) (if_pos hScaling)
  refine delivers_fanOut hFleet (.ClientEvent (nodes o).dispatcher.nodeId channel event data
      conn.socketId (Serving.senderOf channel conn.socketId ch))
    (fun i s => (nodes i).IsMember app.id channel s ∧ some conn.socketId ≠ some s)
    ?_ ?_ ?_ ?_ ?_ ?_ nows i
  · rw [hAfter]
    exact published_spawnPublish _ hScaling ..
  · exact ((nodes o).within_relayClientEvent app conn (fun _ => trivial) fun _ =>
      trivial).server.config (f := .unbound)
  · rw [hAfter]
    exact congrArg EventDispatcher.PeerKnowledge.nodeId (known_spawnPublish ..)
  · have hLocal := (nodes o).delivers_broadcastProtocol (a := app.id) (c := channel)
      (fun s => (AppChannels.memberOf_of_find hFind s).symm)
      (.clientEvent event data channel (Serving.senderOf channel conn.socketId ch))
      (some conn.socketId)
    have hSent : ((nodes o).relayClientEvent app conn channel event data ch).sent =
        ((nodes o).broadcastProtocol app.id ch
          (.clientEvent event data channel (Serving.senderOf channel conn.socketId ch))
          (some conn.socketId)).sent :=
      congrArg (fun node : Node => node.sent) (if_pos hScaling)
    rw [Node.Delivers, hSent]
    exact hLocal
  · intro node hOwn now seq
    exact handlePayload_of_own _ _ _ rfl hOwn.symm
  · intro node hOther hSound now seq i hApps
    have hMember (s : String) : node.IsMember app.id channel s ↔
        (nodes i).IsMember app.id channel s := by
      rw [Node.IsMember, memberOf, hApps]
      rfl
    rw [handlePayload_of_peer _ _ _ rfl hOther, applyPayload]
    cases hPeer : node.findChannel app.id channel with
    | none =>
      have hNone (s : String) : ¬ (nodes i).IsMember app.id channel s := by
        rw [← hMember, Node.IsMember, memberOf, AppChannels.memberOf]
        rw [findChannel] at hPeer
        rw [hPeer]
        exact Bool.false_ne_true
      exact ⟨[], (append_nil _).symm, nodup_nil, fun s =>
        ⟨fun h => absurd h not_mem_nil, fun h => absurd h.1 (hNone s)⟩⟩
    | some peer =>
      have hSender : (Serving.senderOf channel conn.socketId ch).filter
          (fun _ => peer.kind.isPresence) = Serving.senderOf channel conn.socketId ch := by
        rw [hSound.kinds _ _ _ hPeer, Serving.senderOf]
        split
        · rename_i hPresence
          rw [hPresence]
          cases ch.presenceUserId conn.socketId <;> rfl
        · rfl
      dsimp only
      rw [hSender]
      simp only [← hMember]
      exact node.delivers_broadcastProtocol
        (fun s => (AppChannels.memberOf_of_find hPeer s).symm) ..

/-- Between the two states every socket that is a `target` is told once to close, nothing else
is handed to anybody, and no channel and no user changes. -/
def Closes (node after : Node) (a : String) (target : String → Prop) : Prop :=
  after.apps = node.apps ∧ ∃ targets : List String,
    after.sent = node.sent ++ targets.map (fun s => ⟨a, s, .close 4009 "terminated"⟩) ∧
    targets.Nodup ∧ ∀ s, s ∈ targets ↔ target s

theorem closes_closeSockets {node : Node} (h : node.Sound) (a u : String) :
    Closes node (node.closeSockets a ((node.apps a).connectionsForUser u)) a
      fun s => s ∈ (node.apps a).socketsOf u := by
  refine ⟨rfl, _, rfl, (h.once a u).filter _, fun s => ?_⟩
  rw [AppChannels.connectionsForUser, mem_filter, decide_eq_true_eq]
  exact and_iff_left_of_imp (h.registered a u s)

/-- Wherever the request comes in, every connection of the user in the fleet is told once to
close, and no other connection is told anything. -/
theorem terminated_everywhere_once (hFleet : Fleet nodes app) (o : ι) (u : String)
    (nows : ι → Instant) (i : ι) :
    Closes (nodes i) (fanOut nodes o (Http.terminateUser app (nodes o) u).2 nows i) app.id
      fun s => s ∈ ((nodes i).apps app.id).socketsOf u := by
  have hClosed := closes_closeSockets (hFleet.sound o) app.id u
  have hAfter : (Http.terminateUser app (nodes o) u).2 =
      { (nodes o).closeSockets app.id (((nodes o).apps app.id).connectionsForUser u) with
        dispatcher := (nodes o).dispatcher.spawnPublish (envelope app 0
          (.TerminateUser (nodes o).dispatcher.nodeId u)) } := if_pos (hFleet.scaling o)
  obtain ⟨seq, hPublished⟩ := published_spawnPublish _ (hFleet.scaling o) app 0
    (.TerminateUser (nodes o).dispatcher.nodeId u)
  have hBus : (nodes o).publishedSince (Http.terminateUser app (nodes o) u).2 =
      [envelope app seq (.TerminateUser (nodes o).dispatcher.nodeId u)] := by
    rw [publishedSince, hAfter, hPublished, drop_left]
  rw [fanOut, hBus, foldl_cons, foldl_nil]
  by_cases hi : i = o
  · subst hi
    -- its own message comes back to the node, which has closed its sockets by then
    generalize hEnd : (Http.terminateUser app (nodes i) u).2 = after at hAfter
    obtain ⟨hApps, hSent, -, hId, -⟩ :=
      after.seePeer_same (nows i) (.TerminateUser (nodes i).dispatcher.nodeId u)
    have hOwn : after.dispatcher.nodeId = (nodes i).dispatcher.nodeId := by
      rw [hAfter]
      exact congrArg EventDispatcher.PeerKnowledge.nodeId (known_spawnPublish ..)
    rw [update_self, handleIncoming_envelope (by rw [hAfter]; exact hFleet.table i),
      handlePayload_of_own _ _ _ rfl (hId.trans hOwn).symm, Closes, hApps, hSent, hAfter]
    exact hClosed
  · obtain ⟨hApps, hSent, -, hId, -⟩ :=
      (nodes i).seePeer_same (nows i) (.TerminateUser (nodes o).dispatcher.nodeId u)
    rw [update_of_ne hi, handleIncoming_envelope (hFleet.table i), handlePayload_of_peer _ _ _ rfl
      (by rw [hId]; exact fun hEq => hi (hFleet.distinct o i hEq).symm)]
    have hPeer := closes_closeSockets ((hFleet.sound i).of_within
      ((nodes i).within_seePeer (nows i) (.TerminateUser (nodes o).dispatcher.nodeId u))) app.id u
    rw [Closes, hApps, hSent] at hPeer
    rw [applyPayload, hApps]
    exact hPeer

end

open Transition Serving

theorem sound_of_indexed {σ : ServerState} (h : Indexed σ) (hKinds : σ.node.KindsByName) :
    σ.node.Sound := by
  refine ⟨h.once, fun a u s hs => ?_, hKinds⟩
  obtain ⟨conn, hConn, rfl, -⟩ := h.bound a u s hs
  exact h.registered s conn hConn

/-- Whatever the memberships and the users of a fleet, an event reaches each socket it is
for once and no other socket. An event for a user excludes nobody. -/
theorem publications_fan_out_once (prims : Primitives) :
    (∀ (nodeId : String) (scaling : Bool) (table : AppTable) (run : List Action)
      (σ : ServerState), exec (step prims) (new nodeId scaling table) run = some σ →
      σ.node.Sound) ∧
    ∀ (ι : Type) [DecidableEq ι] (nodes : ι → Node) (app : Application), Fleet nodes app →
      ∀ (o : ι) (nows : ι → Instant),
      (∀ (moment : Moment) (channel event data : String) (except : Option String)
        (sealedData : String), startsWith channel "#server-to-user-" = false →
        maybeEncrypt prims moment.nonce app (ChannelKind.fromName channel) channel data =
          .ok sealedData → ∀ i, (nodes i).Delivers (fanOut nodes o
          ((nodes o).dispatchMessage prims moment app channel event data except).2 nows i) app.id
          (.event ⟨event, sealedData, channel⟩)
          fun s => (nodes i).IsMember app.id channel s ∧ except ≠ some s) ∧
      (∀ (moment : Moment) (u event data : String) (except : Option String) (sealedData : String),
        maybeEncrypt prims moment.nonce app (ChannelKind.fromName ("#server-to-user-" ++ u))
          ("#server-to-user-" ++ u) data = .ok sealedData → ∀ i, (nodes i).Delivers (fanOut nodes o
          ((nodes o).dispatchMessage prims moment app ("#server-to-user-" ++ u) event data
            except).2 nows i) app.id (.event ⟨event, sealedData, "#server-to-user-" ++ u⟩)
          fun s => s ∈ ((nodes i).apps app.id).socketsOf u) ∧
      (∀ (u event data : String) (i : ι), (nodes i).Delivers
        (fanOut nodes o ((nodes o).dispatchUserEvent app u event data) nows i) app.id
        (.event ⟨event, data, "#server-to-user-" ++ u⟩)
        fun s => s ∈ ((nodes i).apps app.id).socketsOf u) ∧
      ∀ (conn : Connection) (channel event data : String) (ch : Channel),
        (nodes o).findChannel app.id channel = some ch → ∀ i, (nodes i).Delivers
          (fanOut nodes o ((nodes o).relayClientEvent app conn channel event data ch) nows i)
          app.id (.clientEvent event data channel (senderOf channel conn.socketId ch))
          fun s => (nodes i).IsMember app.id channel s ∧ s ≠ conn.socketId := by
  refine ⟨fun _ _ _ _ _ hRun => sound_of_indexed (indexed_of_run hRun) (labelled_of_run hRun).2, ?_⟩
  intro ι _ nodes app hFleet o nows
  refine ⟨?_, ?_, ?_, ?_⟩
  · intro moment channel event data except sealedData hOrdinary hSealed i
    rw [dispatchMessage_of_sealed (hFleet.scaling o) event except hSealed]
    refine delivers_published hFleet o moment.now channel event sealedData except
      (fun i s => (nodes i).IsMember app.id channel s ∧ except ≠ some s) ?_ nows i
    intro node _ now i hApps
    have hMember (s : String) : (nodes i).IsMember app.id channel s ↔
        node.IsMember app.id channel s := by
      rw [Node.IsMember, Node.memberOf, ← hApps]
      rfl
    simp only [hMember]
    exact node.delivers_broadcastLocallyWithApp now app hOrdinary ..
  · intro moment u event data except sealedData hSealed i
    rw [dispatchMessage_of_sealed (hFleet.scaling o) event except hSealed]
    refine delivers_published hFleet o moment.now _ event sealedData except
      (fun i s => s ∈ ((nodes i).apps app.id).socketsOf u) ?_ nows i
    intro node hSound now i hApps
    rw [Node.broadcastLocallyWithApp_user, ← hApps]
    exact Node.delivers_deliverUserEventLocally hSound ..
  · exact fun u event data i => delivers_dispatchUserEvent hFleet o u event data nows i
  · intro conn channel event data ch hFind i
    have hRelayed := delivers_relayClientEvent hFleet o conn event data hFind nows i
    simp only [ne_eq, Option.some_inj, eq_comm] at hRelayed ⊢
    exact hRelayed

/-! ## Two nodes, each with a socket of the same user -/

def signinFrame (socketId : String) : InboundFrame :=
  ⟨"pusher:signin", .object [("auth", .string ("key:secret/" ++ socketId ++ "::user::alice")),
    ("user_data", .string "alice")], none⟩

def signinPrims : Primitives :=
  { examplePrims with
    fromStr := fun text =>
      if text = "alice" then some (.object [("id", .string "alice")])
      else examplePrims.fromStr text
    parseInbound := fun text =>
      if text = "signin" then some (signinFrame "1.1")
      else if text = "signin too" then some (signinFrame "2.2")
      else examplePrims.parseInbound text }

def exampleStart (second : Bool) : ServerState :=
  new (if second then "n2" else "n1") true ⟨exampleTable, exampleTable_ids⟩

def exampleRun (second : Bool) : List Action :=
  if second then
    [.connect "app" "2.2", .frame 0 "2.2" "signin too", .frame 0 "2.2" "join too"]
  else [.connect "app" "1.1", .frame 0 "1.1" "signin", .frame 0 "1.1" "join"]

def exampleNodes (second : Bool) : Node :=
  match exec (step signinPrims) (exampleStart second) (exampleRun second) with
  | some σ => σ.node
  | none => (exampleStart second).node

theorem exampleNodes_fleet : Fleet exampleNodes exampleApp where
  table second := by cases second <;> rfl
  distinct := by decide
  scaling := by decide
  sound second := by
    rw [exampleNodes]
    split
    · rename_i σ hRun
      exact sound_of_indexed (indexed_of_run hRun) (labelled_of_run hRun).2
    · exact sound_of_indexed (indexed_new ..) (by rintro _ _ _ ⟨⟩)

theorem exampleNodes_fan_out : (exampleNodes true).IsMember "app" "private-encrypted-room" "2.2" ∧
    ∀ second, (exampleNodes second).Delivers
      (fanOut exampleNodes false ((exampleNodes false).dispatchMessage signinPrims ⟨0, 0⟩
        exampleApp "private-encrypted-room" "news" exampleSealed (some "1.1")).2
          (fun _ => 0) second) "app" (.event ⟨"news", exampleSealed, "private-encrypted-room"⟩)
      fun s => (exampleNodes second).IsMember "app" "private-encrypted-room" s ∧
        some "1.1" ≠ some s :=
  ⟨by rw [Node.IsMember]; decide,
    ((publications_fan_out_once signinPrims).2 Bool exampleNodes exampleApp
    exampleNodes_fleet false fun _ => 0).1 ⟨0, 0⟩ _ "news" exampleSealed (some "1.1") exampleSealed
    (by decide) rfl⟩

theorem alice_terminated_everywhere :
    "2.2" ∈ ((exampleNodes true).apps "app").socketsOf "alice" ∧ ∀ second,
      Closes (exampleNodes second) (fanOut exampleNodes false
        (Http.terminateUser exampleApp (exampleNodes false) "alice").2 (fun _ => 0) second) "app"
        fun s => s ∈ ((exampleNodes second).apps "app").socketsOf "alice" :=
  ⟨by decide, terminated_everywhere_once exampleNodes_fleet false "alice" fun _ => 0⟩

/-- An excluded socket is served all the same if it is signed in as the user. -/
theorem excluded_socket_served : Fleet exampleNodes exampleApp ∧ ¬ (exampleNodes false).Delivers
      (fanOut exampleNodes false ((exampleNodes false).dispatchMessage signinPrims ⟨0, 0⟩
        exampleApp "#server-to-user-alice" "news" "hello" (some "1.1")).2 (fun _ => 0) false)
      "app" (.event ⟨"news", "hello", "#server-to-user-alice"⟩)
      fun s => s ∈ ((exampleNodes false).apps "app").socketsOf "alice" ∧ some "1.1" ≠ some s := by
  refine ⟨exampleNodes_fleet, ?_⟩
  rintro ⟨targets, hSent, -, hTargets⟩
  have hServed : (exampleNodes false).sent ++
      [⟨"app", "1.1", .text (.event ⟨"news", "hello", "#server-to-user-alice"⟩)⟩] =
      (exampleNodes false).sent ++ targets.map (fun s =>
        ⟨"app", s, .text (.event ⟨"news", "hello", "#server-to-user-alice"⟩)⟩) := hSent
  obtain ⟨s, hs, hEq⟩ := List.mem_map.mp
    (List.append_cancel_left hServed ▸ List.mem_singleton.mpr rfl)
  exact ((hTargets s).mp hs).2 (congrArg some (congrArg Sent.socket hEq).symm)

end FanOut

end Zatat
