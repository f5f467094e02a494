import Zatat.Ws.Effects

/-! # A whole server

The node and its open connections, and everything that can happen to them: frames
of the clients, connections that open and close, messages from the bus, HTTP
requests, the periodic tasks and a reload of the settings. Each is one step. A new
connection draws an unused socket id.
-/

namespace Zatat

open FiniteMap Inbound Option Http

/-- A table of settings that is keyed by the applications' ids. -/
abbrev AppTable :=
  { table : String → Option Application // ∀ id app, table id = some app → app.id = id }

structure ServerState where
  node : Node
  connections : Map String Connection

namespace Serving

inductive Request where
  | publishEvent (moments : Nat → Moment) (now : Instant) (payload : Http.EventPayload)
  | publishBatchEvents (moments : Nat → Moment) (now : Instant) (batch : List Http.EventPayload)
  | userEvents (userId : String) (payload : Http.UserEventPayload)
  | terminateUser (userId : String)
  | askFleet (requestId : String) (query : MetricsQuery)
  | closeRequest (requestId : String)

inductive Action where
  | connect (appId socketId : String)
  | frame (now : Instant) (socketId text : String)
  | disconnect (now : Instant) (socketId : String)
  | incoming (now : Instant) (env : ScalingEnvelope)
  | request (appId : String) (request : Request)
  | heartbeat (appId : String)
  | sweep (now : Instant)
  | collect (now : Instant)
  | reload (table : AppTable)

def new (nodeId : String) (scaling : Bool) (table : AppTable) : ServerState :=
  ⟨Node.new nodeId scaling table.1, ∅⟩

section

variable (prims : Primitives)

def respond (node : Node) (app : Application) : Request → Node
  | .publishEvent moments now payload => (Http.publishEvent prims moments now app node payload).2
  | .publishBatchEvents moments now batch =>
    (Http.publishBatchEvents prims moments now app node batch).2
  | .userEvents userId payload => (Http.userEvents prims app node userId payload).2
  | .terminateUser userId => (Http.terminateUser app node userId).2
  | .askFleet requestId query => node.askFleet app requestId query
  | .closeRequest requestId => node.closeRequest requestId

def connect (σ : ServerState) (app : Application) (socketId : String) : ServerState :=
  match (σ.node.apps app.id).registerConnection app socketId with
  | (true, slot) =>
    ⟨σ.node.setApp app.id slot, σ.connections.insert socketId (Connection.new app socketId)⟩
  | (false, slot) => ⟨σ.node.setApp app.id slot, σ.connections⟩

def step (σ : ServerState) : Action → Option ServerState
  | .connect appId socketId =>
    if socketId ∈ σ.connections then none
    else (σ.node.config appId).map fun app => connect σ app socketId
  | .frame now socketId text =>
    (σ.connections.lookup socketId).map fun conn =>
      let handled := Inbound.handleInbound prims σ.node now conn text
      ⟨handled.1, σ.connections.insert socketId handled.2⟩
  | .disconnect now socketId =>
    (σ.connections.lookup socketId).map fun conn =>
      ⟨Inbound.cleanupConnection σ.node now conn, σ.connections.erase socketId⟩
  | .incoming now env => some { σ with node := σ.node.handleIncoming now env }
  | .request appId request =>
    some (match σ.node.config appId with
      | none => σ
      | some app => { σ with node := respond prims σ.node app request })
  | .heartbeat appId =>
    (σ.node.config appId).map fun app => { σ with node := σ.node.publishSnapshotsForApp app }
  | .sweep now => some { σ with node := σ.node.presenceCacheGc now }
  | .collect now => some { σ with node := σ.node.gcEmptyCacheChannels now }
  | .reload table => some { σ with node := { σ.node with config := table.1 } }

end

/-! ## What a frame relays -/

/-- The frame is a client event that a member of the channel may send. -/
structure Relays (prims : Primitives) (node : Node) (conn : Connection)
    (text channel event data : String) (ch : Channel) : Prop where
  frame : ∃ frame, prims.parseInbound text = some frame ∧ frame.event = event ∧
    frame.channel = some channel ∧ dataText prims frame.data = data
  client : startsWith event "client-" = true
  accepted : (node.liveApp conn).acceptClientEventsFrom ≠ .None
  isPrivate : (ChannelKind.fromName channel).isPrivate = true
  found : node.findChannel (node.liveApp conn).id channel = some ch
  member : ch.contains conn.socketId = true

def senderOf (channel socketId : String) (ch : Channel) : Option String :=
  if (ChannelKind.fromName channel).isPresence then ch.presenceUserId socketId else none

end Serving

namespace Node

open Serving

variable (node : Node) (app : Application) {f : Footprint}

theorem within_publishClientEvent {channel event data socketId : String} {userId : Option String}
    (h : ∀ origin, f.publishes app.id (.ClientEvent origin channel event data socketId userId)) :
    Within f node (node.publishClientEvent app channel event data socketId userId) := by
  rw [publishClientEvent]
  split
  · exact .of_apps rfl (Server.emits_spawnPublish _ rfl app 0 (h _))
  · exact .refl node

theorem within_relayClientEvent (conn : Connection) {channel event data : String} {ch : Channel}
    (hSends : ∀ s, f.sends
      ⟨app.id, s, .text (.clientEvent event data channel (senderOf channel conn.socketId ch))⟩)
    (hPublishes : ∀ origin, f.publishes app.id (.ClientEvent origin channel event data
      conn.socketId (senderOf channel conn.socketId ch))) :
    Within f node (node.relayClientEvent app conn channel event data ch) := by
  have hLocal : Within f node (node.setServer (node.broadcastProtocol app.id ch
      (.clientEvent event data channel (senderOf channel conn.socketId ch))
      (some conn.socketId))) :=
    .of_server (Server.emits_sendAll _ _ _ hSends)
  exact hLocal.trans ((within_publishClientEvent _ app hPublishes).trans
    (.of_server (Server.emits_enqueueWebhook ..)))

end Node

variable {prims : Primitives} {app : Application} {frame : Frame} {conn : Connection} {data : Value}

/-! ## Refusals carry no event -/

theorem isProtocol_of_requestedMember {channelData : Option String}
    (h : requestedMember prims app channelData = .error frame) :
    (Outbound.text frame).isProtocol = true := by
  unfold requestedMember at h
  split at h
  · cases h
    rfl
  · split at h
    · cases h
      rfl
    · split at h
      · cases h
        rfl
      · cases h

theorem isProtocol_of_subscribeRequest (h : subscribeRequest prims app conn data = .error frame) :
    (Outbound.text frame).isProtocol = true := by
  unfold subscribeRequest at h
  split at h
  · cases h
    rfl
  · dsimp only at h
    split_ifs at h
    · cases h
      rfl
    · cases h
      rfl
    · cases h
      rfl
    · cases h
      rfl
    · split at h
      · rename_i hMember
        cases h
        exact isProtocol_of_requestedMember hMember
      · cases h

theorem isProtocol_of_requestedWatchlist {parsed : Value}
    (h : requestedWatchlist parsed = .error frame) : (Outbound.text frame).isProtocol = true := by
  unfold requestedWatchlist at h
  split at h
  · cases h
  · cases h
  · cases h
    rfl

theorem isProtocol_of_signinRequest (h : signinRequest prims app conn data = .error frame) :
    (Outbound.text frame).isProtocol = true := by
  unfold signinRequest at h
  split at h
  · split at h
    · cases h
      rfl
    · dsimp only at h
      split at h
      · cases h
        rfl
      · split at h
        · cases h
          rfl
        · split at h
          · cases h
            split <;> rfl
          · split at h
            · rename_i hWatchlist
              cases h
              exact isProtocol_of_requestedWatchlist hWatchlist
            · cases h
  · cases h
    rfl

/-! ## The answers to a frame -/

namespace Serving

/-- The ways in which a frame is answered. -/
inductive Answers (prims : Primitives) (node : Node) (now : Instant) (conn : Connection)
    (text : String) : Answer (Option Frame) × Connection → Prop where
  | replied {frame : Frame} (hProtocol : (Outbound.text frame).isProtocol = true) :
      Answers prims node now conn text (.replied node frame, conn)
  | subscribe {frame : InboundFrame} {channel : String} {presence : Option PresenceMember}
      (hFrame : prims.parseInbound text = some frame) (hEvent : frame.event = "pusher:subscribe")
      (hRequest : subscribeRequest prims (node.liveApp conn) conn frame.data =
        .ok (channel, presence)) :
      Answers prims node now conn text
        ((node.decideSubscribe now (node.liveApp conn) conn.socketId channel presence).map some,
          if (node.admission now (node.liveApp conn) channel presence).admitted then
            conn.addSubscription channel
          else conn)
  | unsubscribe {channel : String} : Answers prims node now conn text
      (.silent (node.leaveChannel now (node.liveApp conn) conn.socketId channel),
        conn.removeSubscription channel)
  | signin {data : Value} {req : SigninRequest}
      (hRequest : signinRequest prims (node.liveApp conn) conn data = .ok req) :
      Answers prims node now conn text (acceptSignin node now (node.liveApp conn) conn req)
  | client {channel event data : String} {ch : Channel}
      (hRelays : Relays prims node conn text channel event data ch) :
      Answers prims node now conn text
        (.silent (node.relayClientEvent (node.liveApp conn) conn channel event data ch), conn)
  | ignored : Answers prims node now conn text (.silent node, conn)

section

variable (prims : Primitives) (node : Node) (now : Instant) (conn : Connection) {text : String}
  {frame : InboundFrame} (hFrame : prims.parseInbound text = some frame)
include hFrame

theorem answers_handleSubscribe (hEvent : frame.event = "pusher:subscribe") :
    Answers prims node now conn text
      (handleSubscribe prims node now (node.liveApp conn) conn frame.data) := by
  rw [handleSubscribe]
  split
  · rename_i refusal hRefused
    exact .replied (isProtocol_of_subscribeRequest hRefused)
  · rename_i channel presence hRequest
    exact .subscribe hFrame hEvent hRequest

theorem answers_handleClientEvent (hClient : startsWith frame.event "client-" = true) :
    Answers prims node now conn text
      (handleClientEvent prims node (node.liveApp conn) conn frame.event frame, conn) := by
  rw [handleClientEvent]
  split
  · exact .replied rfl
  rename_i hAccepted
  split
  · exact .replied rfl
  rename_i channel hChannel
  split
  · exact .replied rfl
  rename_i hPrivate
  split
  · exact .replied rfl
  rename_i ch hFound
  split
  · exact .replied rfl
  rename_i hMember
  exact .client ⟨⟨frame, hFrame, rfl, hChannel, rfl⟩, hClient, hAccepted, by simpa using hPrivate,
    hFound, by simpa using hMember⟩

theorem answers_handleFrame : Answers prims node now conn text
      (handleFrame prims node now (node.liveApp conn) conn frame) := by
  rw [handleFrame]
  split
  · exact .replied rfl
  split
  · rename_i hEvent
    exact answers_handleSubscribe prims node now conn hFrame hEvent
  split
  · rw [handleUnsubscribe]
    split
    · exact .ignored
    · exact .unsubscribe
  split
  · rw [handleSignin]
    split
    · rename_i refusal hRefused
      exact .replied (isProtocol_of_signinRequest hRefused)
    · rename_i req hRequest
      exact .signin hRequest
  split
  · rename_i hClient
    split
    · exact .replied rfl
    · exact answers_handleClientEvent prims node now conn hFrame hClient
  · exact .ignored

end

theorem answers_answerInbound (prims : Primitives) (node : Node) (now : Instant)
    (conn : Connection) (text : String) :
    Answers prims node now conn text (answerInbound prims node now conn text) := by
  rw [answerInbound]
  split
  · exact .replied rfl
  · rename_i frame hFrame
    exact answers_handleFrame prims node now conn hFrame

/-- What holds of every answer with its reply queued holds of the handled frame. -/
theorem handleInbound_of {prims : Primitives} {node : Node} {now : Instant} {conn : Connection}
    {text : String} {P : Node × Connection → Prop}
    (h : ∀ answer, Answers prims node now conn text answer →
      P (answer.1.queued (node.liveApp conn).id conn.socketId, answer.2)) :
    P (handleInbound prims node now conn text) :=
  h _ (answers_answerInbound prims node now conn text)

/-! ## The footprint of a step -/

variable {prims : Primitives} {f : Footprint}

variable (node : Node) (now : Instant) {app : Application} (conn : Connection)

theorem within_acceptSignin (hBinds : f.binds app.id) (req : SigninRequest) : Node.Within f node
      ((acceptSignin node now app conn req).1.queued app.id conn.socketId) := by
  have hSigned : Node.Within f node ((node.replyTo app.id conn.socketId
      (.signinSuccess req.userData)).signIn now app conn.socketId req.userId req.watchlist) :=
    (node.within_replyTo _ _ rfl).trans (Node.within_signIn _ now hBinds ..)
  dsimp only [acceptSignin, Answer.queued]
  split
  · exact hSigned.trans (Node.within_replyTo _ _ _ rfl)
  · exact hSigned

def RelayWithin (prims : Primitives) (f : Footprint) (node : Node) (conn : Connection)
    (text : String) : Prop :=
  ∀ channel event data ch, Relays prims node conn text channel event data ch →
    (∀ s, f.sends ⟨(node.liveApp conn).id, s,
      .text (.clientEvent event data channel (senderOf channel conn.socketId ch))⟩) ∧
    ∀ origin, f.publishes (node.liveApp conn).id (.ClientEvent origin channel event data
      conn.socketId (senderOf channel conn.socketId ch))

theorem within_handleInbound (text : String)
    (hMoves : ∀ c, f.moves (node.liveApp conn).id c conn.socketId)
    (hBinds : f.binds (node.liveApp conn).id)
    (hCached : ∀ c p, node.storedPayload (node.liveApp conn).id c = some p →
      f.SendsEvent (node.liveApp conn).id p) (hRelay : RelayWithin prims f node conn text) :
    Node.Within f node (handleInbound prims node now conn text).1 := by
  refine handleInbound_of (P := fun r => Node.Within f node r.1) fun answer hAnswer => ?_
  cases hAnswer with
  | replied hProtocol => exact node.within_replyTo _ _ hProtocol
  | subscribe => exact node.within_handleSubscribe now _ _ (hMoves _) (hCached _)
  | unsubscribe => exact node.within_leaveChannel now _ (hMoves _)
  | signin => exact within_acceptSignin node now conn hBinds _
  | client hRelays =>
    obtain ⟨hSends, hPublishes⟩ := hRelay _ _ _ _ hRelays
    exact node.within_relayClientEvent _ conn hSends hPublishes
  | ignored => exact .refl node

theorem within_signOutAny (hBinds : f.binds conn.app.id) :
    Node.Within f node (node.signOutAny now conn) := by
  rw [Node.signOutAny]
  cases conn.userId with
  | none => exact .refl node
  | some userId => exact node.within_signOut now hBinds _ userId

theorem within_cleanupConnection (hMoves : ∀ c, f.moves conn.app.id c conn.socketId)
    (hBinds : f.binds conn.app.id) :
    Node.Within f node (cleanupConnection node now conn) := by
  have hLeft : Node.Within f node (conn.subscriptions.keys.foldl
      (fun (node : Node) name => node.leaveChannel now conn.app conn.socketId name) node) :=
    Node.Within.foldl id (fun node name => node.within_leaveChannel now conn.app (hMoves name))
      _ node
  rw [cleanupConnection]
  exact hLeft.trans ((within_signOutAny _ now conn hBinds).trans (Node.within_users hBinds rfl))

def PublishWithin (prims : Primitives) (f : Footprint) (app : Application) : Prop :=
  ∀ nonce channel event data sealedData,
    maybeEncrypt prims nonce app (ChannelKind.fromName channel) channel data = .ok sealedData →
      Node.Publishable f app channel event sealedData

theorem within_dispatchChannels (h : PublishWithin prims f app) (moments : Nat → Moment)
    (event data : String) (except : Option String) (channels : List String) (node : Node)
    (k : Nat) : Node.Within f node
      (dispatchChannels prims moments app event data except node k channels).2 :=
  dispatchChannels_keeps .refl .trans (fun node moment channel _ =>
    node.within_dispatchMessage prims moment app channel event data except
      fun sealedData => h _ channel event data sealedData) node k

def UserEventWithin (f : Footprint) : Prop :=
  ∀ a userId event data, f.SendsEvent a ⟨event, data, "#server-to-user-" ++ userId⟩ ∧
    ∀ origin, f.publishes a (.UserEvent origin userId event data)

theorem within_respond (hPublish : PublishWithin prims f app) (hUser : UserEventWithin f)
    (node : Node) (request : Request) : Node.Within f node (respond prims node app request) := by
  cases request with
  | publishEvent moments now payload =>
    exact publishEvent_keeps .refl (within_dispatchChannels hPublish ..)
  | publishBatchEvents moments now batch =>
    exact publishBatchEvents_keeps .refl .trans
      (fun _ _ _ _ => within_dispatchChannels hPublish ..) node
  | userEvents userId payload =>
    rw [respond, userEvents]
    split
    · exact .refl node
    · split
      · exact .refl node
      · exact node.within_dispatchUserEvent app (hUser ..).1 (hUser ..).2
  | terminateUser userId =>
    exact (node.within_closeSockets ..).trans (Node.within_publishTerminateUser ..)
  | askFleet requestId query => exact node.within_askFleet ..
  | closeRequest requestId => exact node.within_closeRequest ..

/-- Everything the action leads to in this state is within the footprint. -/
structure Covers (prims : Primitives) (f : Footprint) (σ : ServerState) (action : Action) :
    Prop where
  publish : ∀ app, PublishWithin prims f app
  userEvent : UserEventWithin f
  cached : ∀ a c p, σ.node.storedPayload a c = some p → f.SendsEvent a p
  incoming : ∀ now env, action = .incoming now env → ∀ a, f.Admits a env.payload
  frame : ∀ now s text conn, action = .frame now s text → σ.connections.lookup s = some conn →
    (∀ a c, f.moves a c conn.socketId) ∧ (∀ a, f.binds a) ∧ RelayWithin prims f σ.node conn text
  disconnect : ∀ now s conn, action = .disconnect now s → σ.connections.lookup s = some conn →
    (∀ a c, f.moves a c conn.socketId) ∧ ∀ a, f.binds a
  connect : ∀ appId s, action = .connect appId s → ∀ a, f.binds a

theorem covers_of_open (hSends : ∀ x, f.sends x) (hPublishes : ∀ a payload, f.publishes a payload)
    (hStores : ∀ a c payload, f.stores a c payload) {σ : ServerState} {action : Action}
    (hFrame : ∀ now s text, action ≠ .frame now s text)
    (hDisconnect : ∀ now s, action ≠ .disconnect now s)
    (hConnect : ∀ appId s, action = .connect appId s → ∀ a, f.binds a) :
    Covers prims f σ action where
  publish _ _ _ _ _ _ _ := ⟨fun _ => hSends _, hStores .., fun _ _ => hPublishes ..⟩
  userEvent _ _ _ _ := ⟨fun _ => hSends _, fun _ => hPublishes ..⟩
  cached _ _ _ _ _ := hSends _
  incoming _ env _ a := by
    cases env.payload with
    | Message => exact ⟨fun _ => hSends _, hStores ..⟩
    | ClientEvent => exact fun _ _ _ => hSends _
    | UserEvent => exact fun _ => hSends _
    | _ => trivial
  frame now s text _ hAction := absurd hAction (hFrame now s text)
  disconnect now s _ hAction := absurd hAction (hDisconnect now s)
  connect := hConnect

theorem node_connect (σ : ServerState) (app : Application) (socketId : String) :
    (connect σ app socketId).node =
      σ.node.setApp app.id ((σ.node.apps app.id).registerConnection app socketId).2 := by
  rw [connect]
  split
  · rename_i slot hRegistered
    rw [hRegistered]
  · rename_i slot hRefused
    rw [hRefused]

theorem within_connect (σ : ServerState) {app : Application} (hBinds : f.binds app.id)
    (socketId : String) : Node.Within f σ.node (connect σ app socketId).node := by
  rw [node_connect]
  exact Node.within_users hBinds (AppChannels.channels_registerConnection ..)

/-! ## Connections that open -/

section

variable {σ σ' : ServerState} {socketId s : String} {conn : Connection}

theorem lookup_connect (h : (connect σ app socketId).connections.lookup s = some conn) :
    σ.connections.lookup s = some conn ∨ (s = socketId ∧ conn = Connection.new app socketId ∧
      ((σ.node.apps app.id).registerConnection app socketId).1 = true) := by
  rw [connect] at h
  split at h
  · rename_i slot hRegistered
    dsimp only at h
    rcases lookup_insert_cases h with ⟨hs, hNew⟩ | ⟨-, h⟩
    · exact .inr ⟨hs, hNew.symm, by rw [hRegistered]⟩
    · exact .inl h
  · exact .inl h

theorem lookup_connect_registered
    (h : ((σ.node.apps app.id).registerConnection app socketId).1 = true) :
    (connect σ app socketId).connections.lookup socketId = some (Connection.new app socketId) := by
  rw [connect]
  split
  · exact AList.lookup_insert _
  · rename_i slot hRefused
    rw [hRefused] at h
    cases h

theorem ne_of_open (hFresh : socketId ∉ σ.connections) (h : σ.connections.lookup s = some conn) :
    s ≠ socketId := by
  rintro rfl
  exact hFresh (mem_iff_lookup.mpr ⟨conn, h⟩)

theorem lookup_connect_of_open (hFresh : socketId ∉ σ.connections)
    (h : σ.connections.lookup s = some conn) :
    (connect σ app socketId).connections.lookup s = some conn := by
  rw [connect]
  split
  · exact (AList.lookup_insert_ne (ne_of_open hFresh h)).trans h
  · exact h

def Action.isApart : Action → Bool
  | .connect _ _ => false
  | .frame _ _ _ => false
  | .disconnect _ _ => false
  | _ => true

theorem connections_of_isApart {action : Action} (hApart : action.isApart = true)
    (hStep : step prims σ action = some σ') : σ'.connections = σ.connections := by
  cases action with
  | connect | frame | disconnect => cases hApart
  | request appId request =>
    cases hStep
    split <;> rfl
  | heartbeat appId =>
    obtain ⟨app, -, rfl⟩ := map_eq_some_iff.mp hStep
    rfl
  | _ =>
    obtain rfl := Option.some.inj hStep
    rfl

theorem step_of {P : ServerState → Prop} {action : Action} (hStep : step prims σ action = some σ')
    (hConnect : ∀ appId app socketId, σ.node.config appId = some app →
      socketId ∉ σ.connections → P (connect σ app socketId))
    (hFrame : ∀ now socketId text conn, σ.connections.lookup socketId = some conn →
      P ⟨(handleInbound prims σ.node now conn text).1,
        σ.connections.insert socketId (handleInbound prims σ.node now conn text).2⟩)
    (hDisconnect : ∀ now socketId conn, σ.connections.lookup socketId = some conn →
      P ⟨cleanupConnection σ.node now conn, σ.connections.erase socketId⟩)
    (hApart : action.isApart = true → σ'.connections = σ.connections → P σ') : P σ' := by
  have hRest (h : action.isApart = true) : P σ' := hApart h (connections_of_isApart h hStep)
  cases action with
  | connect appId socketId =>
    rw [step] at hStep
    split at hStep
    · cases hStep
    · rename_i hFresh
      obtain ⟨app, hApp, rfl⟩ := map_eq_some_iff.mp hStep
      exact hConnect appId app socketId hApp hFresh
  | frame now socketId text =>
    obtain ⟨conn, hConn, rfl⟩ := map_eq_some_iff.mp hStep
    exact hFrame now socketId text conn hConn
  | disconnect now socketId =>
    obtain ⟨conn, hConn, rfl⟩ := map_eq_some_iff.mp hStep
    exact hDisconnect now socketId conn hConn
  | _ => exact hRest rfl

end

/-! ## Every step -/

/-- Every step but a reload, which only replaces the table, stays within a footprint
that covers it. -/
theorem within_step {σ σ' : ServerState} {action : Action} (h : Covers prims f σ action)
    (hReload : ∀ table, action ≠ .reload table) (hStep : step prims σ action = some σ') :
    Node.Within f σ.node σ'.node := by
  cases action with
  | connect appId socketId =>
    rw [step] at hStep
    split at hStep
    · cases hStep
    · obtain ⟨app, -, rfl⟩ := map_eq_some_iff.mp hStep
      exact within_connect σ (h.connect appId socketId rfl _) socketId
  | frame now socketId text =>
    obtain ⟨conn, hConn, rfl⟩ := map_eq_some_iff.mp hStep
    obtain ⟨hMoves, hBinds, hRelay⟩ := h.frame now socketId text conn rfl hConn
    exact within_handleInbound σ.node now conn text (hMoves _) (hBinds _) (h.cached _) hRelay
  | disconnect now socketId =>
    obtain ⟨conn, hConn, rfl⟩ := map_eq_some_iff.mp hStep
    obtain ⟨hMoves, hBinds⟩ := h.disconnect now socketId conn rfl hConn
    exact within_cleanupConnection σ.node now conn (hMoves _) (hBinds _)
  | incoming now env =>
    cases hStep
    exact σ.node.within_handleIncoming now fun app _ => h.incoming now env rfl app.id
  | request appId request =>
    cases hStep
    split
    · exact .refl _
    · rename_i app _
      exact within_respond (h.publish app) h.userEvent σ.node request
  | heartbeat appId =>
    obtain ⟨app, -, rfl⟩ := map_eq_some_iff.mp hStep
    exact σ.node.within_publishSnapshotsForApp app
  | sweep now =>
    obtain rfl := Option.some.inj hStep
    exact σ.node.within_presenceCacheGc now
  | collect now =>
    cases hStep
    exact σ.node.within_gcEmptyCacheChannels now
  | reload table => exact absurd rfl (hReload table)

/-! ## Channels are stored under their names -/

theorem covers_all (prims : Primitives) (σ : ServerState) (action : Action) :
    Covers prims .all σ action where
  publish _ _ _ _ _ _ _ := ⟨fun _ => trivial, trivial, fun _ _ => trivial⟩
  userEvent _ _ _ _ := ⟨fun _ => trivial, fun _ => trivial⟩
  cached _ _ _ _ _ := trivial
  incoming _ env _ _ := by
    cases env.payload with
    | Message => exact ⟨fun _ => trivial, trivial⟩
    | ClientEvent => exact fun _ _ _ => trivial
    | UserEvent => exact fun _ => trivial
    | _ => trivial
  frame _ _ _ _ _ _ := ⟨fun _ _ => trivial, fun _ => trivial,
    fun _ _ _ _ _ => ⟨fun _ => trivial, fun _ => trivial⟩⟩
  disconnect _ _ _ _ _ := ⟨fun _ _ => trivial, fun _ => trivial⟩
  connect _ _ _ _ := trivial

theorem labelled_step {σ σ' : ServerState} {action : Action}
    (h : σ.node.NamesByKey ∧ σ.node.KindsByName) (hStep : step prims σ action = some σ') :
    σ'.node.NamesByKey ∧ σ'.node.KindsByName := by
  have hWithin (hReload : ∀ table, action ≠ .reload table) :=
    within_step (covers_all prims σ action) hReload hStep
  cases action with
  | reload table =>
    cases hStep
    exact h
  | _ =>
    have hNode := hWithin fun _ hReload => by cases hReload
    exact ⟨hNode.namesByKey h.1, hNode.kindsByName h.2⟩

theorem labelled_of_run {nodeId : String} {scaling : Bool} {table : AppTable} {run : List Action}
    {σ : ServerState}
    (hRun : Transition.exec (step prims) (new nodeId scaling table) run = some σ) :
    σ.node.NamesByKey ∧ σ.node.KindsByName :=
  (Transition.always_of_invariant (I := fun σ => σ.node.NamesByKey ∧ σ.node.KindsByName)
    (fun _ _ _ h hStep => labelled_step h hStep)
    ⟨by rintro _ _ _ ⟨⟩, by rintro _ _ _ ⟨⟩⟩ run).of_exec hRun

end Serving

end Zatat
