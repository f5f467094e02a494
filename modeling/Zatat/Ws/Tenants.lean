import Zatat.Ws.Isolation

/-! # Tenants

Everything that is addressed to one application: the frames and disconnects of its
connections, the requests for it and the messages of the bus that name it. None of it
reaches another application on the node.
-/

namespace Zatat

namespace Isolation

open Node Http Serving

/-- An operation for one application, at one moment. -/
inductive Operation where
  | frame (conn : Connection) (text : String)
  | disconnect (conn : Connection)
  | request (app : Application) (request : Serving.Request)
  | incoming (env : ScalingEnvelope)

def Operation.appId : Operation → String
  | .frame conn _ => conn.app.id
  | .disconnect conn => conn.app.id
  | .request app _ => app.id
  | .incoming env => env.app.id

def perform (prims : Primitives) (node : Node) (now : Instant) : Operation → Node
  | .frame conn text => (Inbound.handleInbound prims node now conn text).1
  | .disconnect conn => Inbound.cleanupConnection node now conn
  | .request app request => Serving.respond prims node app request
  | .incoming env => node.handleIncoming now env

theorem config_perform (prims : Primitives) (node : Node) (now : Instant) (op : Operation) :
    (perform prims node now op).config = node.config := by
  suffices h : Within .all node (perform prims node now op) from h.server.config
  cases op with
  | frame conn text =>
    exact within_handleInbound node now conn text (fun _ => trivial) trivial
      (fun _ _ _ _ => trivial) fun _ _ _ _ _ => ⟨fun _ => trivial, fun _ => trivial⟩
  | disconnect conn => exact within_cleanupConnection node now conn (fun _ => trivial) trivial
  | request app request =>
    have hCovers := covers_all prims ⟨node, ∅⟩ (.request app.id request)
    exact within_respond (hCovers.publish app) hCovers.userEvent node request
  | incoming env =>
    exact node.within_handleIncoming now fun app _ =>
      (covers_all prims ⟨node, ∅⟩ (.incoming now env)).incoming now env rfl app.id

section

variable (prims : Primitives) {b : String} {now : Instant} (node : Node)

theorem apart_signOutAny {conn : Connection} (hId : conn.app.id ≠ b) :
    Apart b now node (node.signOutAny now conn) := by
  rw [signOutAny]
  cases conn.userId with
  | none => exact .refl node
  | some userId => exact apart_signOut node hId ..

theorem apart_cleanupConnection {conn : Connection} (hId : conn.app.id ≠ b) :
    Apart b now node (Inbound.cleanupConnection node now conn) := by
  rw [Inbound.cleanupConnection]
  exact (Apart.foldl id (fun node name => apart_leaveChannel node hId conn.socketId name) _
    node).trans ((apart_signOutAny _ hId).trans (apart_setApp _ hId _))

theorem apart_handleIncoming (hTable : ∀ id app, node.config id = some app → app.id = id)
    {env : ScalingEnvelope} (hId : env.app.id ≠ b) :
    Apart b now node (node.handleIncoming now env) := by
  have hMoves : Moves (Server.Apart b now) node (node.seePeer now env.payload) :=
    node.moves_seePeer .refl (fun _ _ => .of_same rfl rfl rfl rfl) env.payload
  have hSeen : Apart b now node (node.seePeer now env.payload) :=
    .of_server hMoves.apps hMoves.server
  rw [handleIncoming]
  split
  · exact .refl node
  · dsimp only
    split
    · exact hSeen
    · rename_i app hApp
      rw [hSeen.server.config] at hApp
      exact hSeen.trans (apart_handlePayload _ (by rw [hTable _ app hApp]; exact hId) ..)

theorem apart_handleInbound {conn : Connection} (hId : (node.liveApp conn).id ≠ b)
    (text : String) : Apart b now node (Inbound.handleInbound prims node now conn text).1 := by
  refine handleInbound_of (P := fun r => Apart b now node r.1) fun answer hAnswer => ?_
  cases hAnswer with
  | replied => exact apart_replyTo node hId ..
  | subscribe => exact apart_handleSubscribe node hId ..
  | unsubscribe => exact apart_leaveChannel node hId ..
  | signin =>
    dsimp only [Inbound.acceptSignin, Answer.queued]
    have hReplied (frame : Frame) :
        Apart b now node (node.replyTo (node.liveApp conn).id conn.socketId frame) :=
      apart_replyTo node hId ..
    split
    · exact (hReplied _).trans ((apart_signIn _ hId ..).trans (apart_replyTo _ hId ..))
    · exact (hReplied _).trans (apart_signIn _ hId ..)
  | client => exact apart_relayClientEvent node hId ..
  | ignored => exact .refl node

section

variable {app : Application} (hId : app.id ≠ b)
include hId

/-! ## Requests -/

theorem apart_dispatchMessage (moment : Moment) (channel event data : String)
    (except : Option String) :
    Apart b now node (node.dispatchMessage prims moment app channel event data except).2 := by
  rw [dispatchMessage]
  split
  · exact .refl node
  · dsimp only
    split
    · exact (apart_broadcastLocallyWithApp node hId ..).trans (apart_publish ..)
    · exact apart_broadcastLocallyWithApp node hId ..

theorem apart_dispatchChannels (moments : Nat → Moment) (event data : String)
    (except : Option String) (k : Nat) (channels : List String) : Apart b now node
      (dispatchChannels prims moments app event data except node k channels).2 :=
  dispatchChannels_keeps .refl .trans
    (fun node _ _ _ => apart_dispatchMessage prims node hId ..) node k

theorem apart_respond (request : Serving.Request) :
    Apart b now node (respond prims node app request) := by
  cases request with
  | publishEvent moments at_ payload =>
    exact publishEvent_keeps .refl (apart_dispatchChannels prims node hId ..)
  | publishBatchEvents moments at_ batch =>
    exact publishBatchEvents_keeps .refl .trans
      (fun node _ _ _ => apart_dispatchChannels prims node hId ..) node
  | userEvents userId payload =>
    rw [respond, userEvents]
    split
    · exact .refl node
    · split
      · exact .refl node
      · dsimp only
        rw [dispatchUserEvent]
        split
        · exact (apart_sendAll node hId ..).trans (apart_publish ..)
        · exact apart_sendAll node hId ..
  | terminateUser userId =>
    rw [respond, terminateUser, publishTerminateUser]
    split
    · exact (apart_sendAll node hId ..).trans (apart_publish ..)
    · exact apart_sendAll node hId ..
  | askFleet requestId query =>
    have hOpened : Apart b now node (node.openRequest requestId) :=
      .of_server rfl (.of_same rfl rfl rfl rfl)
    rw [respond, askFleet]
    split
    · exact hOpened.trans (apart_publish ..)
    · exact .refl node
  | closeRequest requestId => exact .of_server rfl (.of_same rfl rfl rfl rfl)

end

end

/-- An operation for one application leaves every other application as it was, but for
withheld reports that have expired, and sends nothing to its connections. -/
theorem tenant_isolated (prims : Primitives) (node : Node)
    (hTable : ∀ id app, node.config id = some app → app.id = id) (now : Instant)
    (op : Operation) (b : String) (hOther : op.appId ≠ b) :
    Apart b now node (perform prims node now op) := by
  cases op with
  | frame conn text =>
    have hLive : (node.liveApp conn).id ≠ b := by
      rw [liveApp]
      cases hApp : node.config conn.app.id with
      | none => exact hOther
      | some app =>
        rw [Option.getD_some, hTable _ app hApp]
        exact hOther
    exact apart_handleInbound prims node hLive text
  | disconnect conn => exact apart_cleanupConnection node hOther
  | request app request => exact apart_respond prims node hOther request
  | incoming env => exact apart_handleIncoming node hTable hOther

/-! ## Two applications with the same names -/

def tenant (appId : String) : Application := { exampleApp with id := appId }

def pairTable (id : String) : Option Application :=
  if id = "a" ∨ id = "b" then some (tenant id) else none

theorem pairTable_ids (id : String) (app : Application) (h : pairTable id = some app) :
    app.id = id := by
  obtain ⟨-, ⟨⟩⟩ := Option.ite_none_right_eq_some.mp h
  rfl

def tenantPrims : Primitives :=
  { examplePrims with
    fromStr := fun text =>
      if text = "ana" then some (.object [("id", .string "ana"), ("user_id", .string "ana")])
      else none
    parseInbound := fun text =>
      if text = "sign in" then
        some ⟨"pusher:signin", .object [("auth", .string "key:secret/1.1::user::ana"),
          ("user_data", .string "ana")], none⟩
      else if text = "join" then
        some ⟨"pusher:subscribe", .object [("channel", .string "presence-room"),
          ("auth", .string "key:secret/1.1:presence-room:ana"), ("channel_data", .string "ana")],
          none⟩
      else if text = "look in" then
        some ⟨"pusher:subscribe", .object [("channel", .string "room")], none⟩
      else some ⟨"pusher:unsubscribe", .object [("channel", .string "room")], none⟩ }

/-- A peer has a member of each room and publishes to a cache channel. The user `ana` signs
in on the socket `1.1`, joins one room and looks in at the other, whose vacated report is
withheld. -/
def tenantOps (appId : String) : List Operation :=
  (([.MemberAdded "n2" "presence-room" "bo" none, .SubscriptionCount "n2" "room" 1 false,
    .Message "n2" "cache-room" "news" "x" none] : List ScalingPayload).map fun payload =>
      .incoming ⟨scalingVersion, 0, ⟨appId, "key"⟩, payload⟩) ++
    ["sign in", "join", "look in", "leave"].map (.frame (.new (tenant appId) "1.1"))

def sharedNode : Node :=
  (tenantOps "b" ++ tenantOps "a").foldl (fun node op => perform tenantPrims node 0 op)
    (Node.new "n1" true pairTable)

def sharedConnection : Connection :=
  { Connection.new (tenant "a") "1.1" with
    userId := some "ana"
    subscriptions := (∅ : FiniteMap.KeySet String).insert "presence-room" () }

structure Holdings where
  sockets : List String
  remoteUsers : List String
  bound : List String
  cached : Option EventPayload
  withheld : Option Instant
deriving DecidableEq

def holdings (node : Node) (appId : String) : Holdings where
  sockets := ((node.findChannel appId "presence-room").map fun ch => ch.members.keys).getD []
  remoteUsers := (node.presenceCache.remoteMembersFor 0 appId "presence-room").map (·.userId)
  bound := (node.apps appId).socketsOf "ana"
  cached := node.storedPayload appId "cache-room"
  withheld := node.withheldOf appId "room" none

/-- Both applications hold the same; then the connection of one of them closes. -/
theorem tenant_isolated_shared :
    (∀ appId ∈ ["a", "b"], holdings sharedNode appId =
      ⟨["1.1"], ["bo"], ["1.1"], some ⟨"news", "x", "cache-room"⟩, some 0⟩) ∧
    holdings (perform tenantPrims sharedNode 0 (.disconnect sharedConnection)) "a" =
      ⟨[], ["bo"], [], some ⟨"news", "x", "cache-room"⟩, some 0⟩ ∧
    Apart "b" 0 sharedNode (perform tenantPrims sharedNode 0 (.disconnect sharedConnection)) := by
  have hTable : sharedNode.config = pairTable := by
    rw [sharedNode]
    exact List.foldlRecOn (motive := fun node : Node => node.config = pairTable) _ _ rfl
      fun node hNode op _ => (config_perform tenantPrims node 0 op).trans hNode
  refine ⟨by decide +kernel, by decide +kernel, ?_⟩
  exact tenant_isolated tenantPrims sharedNode (hTable ▸ pairTable_ids) 0
    (.disconnect sharedConnection) "b" (by decide)

/-! ## A withheld report that expired -/

def roomPrims : Primitives :=
  { examplePrims with
    parseInbound := fun text =>
      if text = "join" then
        some ⟨"pusher:subscribe", .object [("channel", .string "room")], none⟩
      else some ⟨"pusher:unsubscribe", .object [("channel", .string "room")], none⟩ }

def occupiedByPeer (appId : String) : ScalingEnvelope :=
  ⟨scalingVersion, 0, ⟨appId, "key"⟩, .SubscriptionCount "n2" "room" 1 false⟩

/-- The last local subscriber of `b` leaves while a peer has one. When the report this
withholds has expired, a subscriber of `a` is in the same place. -/
def lapsingRun : List Serving.Action :=
  [.connect "b" "2.2", .incoming 0 (occupiedByPeer "b"), .frame 0 "2.2" "join",
    .frame 0 "2.2" "leave", .connect "a" "1.1", .incoming withheldWindow (occupiedByPeer "a"),
    .frame withheldWindow "1.1" "join"]

theorem lapsingRun_drops_report : ∃ σ σ' conn,
    Transition.exec (Serving.step roomPrims) (Serving.new "n1" true ⟨pairTable, pairTable_ids⟩)
      lapsingRun = some σ ∧ σ.connections.lookup "1.1" = some conn ∧ conn.app.id = "a" ∧
    σ' = perform roomPrims σ.node withheldWindow (.frame conn "leave") ∧
    σ.node.withheldOf "b" "room" none = some 0 ∧ σ'.withheldOf "b" "room" none = none := by
  have hResult : ((Transition.exec (Serving.step roomPrims)
      (Serving.new "n1" true ⟨pairTable, pairTable_ids⟩) lapsingRun).bind fun σ =>
        (σ.connections.lookup "1.1").map fun conn =>
          (conn.app.id, σ.node.withheldOf "b" "room" none,
            (perform roomPrims σ.node withheldWindow (.frame conn "leave")).withheldOf "b" "room"
              none)) = some ("a", some 0, none) := by decide
  obtain ⟨σ, hRun, hLookup⟩ := Option.bind_eq_some_iff.mp hResult
  obtain ⟨conn, hConn, hFacts⟩ := Option.map_eq_some_iff.mp hLookup
  simp only [Prod.mk.injEq] at hFacts
  exact ⟨σ, _, conn, hRun, hConn, hFacts.1, rfl, hFacts.2.1, hFacts.2.2⟩

end Isolation

end Zatat
