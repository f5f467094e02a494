import Zatat.Ws.Serving

/-! # Every membership was authorised

A socket is a member only of channels that its own connection subscribed to, each
with a frame that passed the checks under the settings of that moment. So what is
relayed as a client event comes from such a member.
-/

namespace Zatat

open FiniteMap Inbound ChannelKind List Option

def Footprint.moving (moves : String → String → String → Prop) : Footprint where
  sends _ := True
  publishes _ _ := True
  stores _ _ _ := True
  moves := moves
  binds _ := True
  sends_protocol _ _ := trivial
  publishes_protocol _ _ _ := trivial

def Footprint.still : Footprint := .moving fun _ _ _ => False

theorem Node.Within.memberOf_eq {node after : Node} (h : Node.Within .still node after)
    (a c s : String) : after.memberOf a c s = node.memberOf a c s :=
  (h.members a c s).resolve_left id

namespace Serving

open Transition

variable {prims : Primitives} {app : Application} {channelData : Option String} {c : String}

/-- The frame asks for the channel, and what it carries makes the socket the member. -/
structure Authorises (prims : Primitives) (app : Application) (frame : InboundFrame)
    (s c : String) (m : Member) : Prop where
  event : frame.event = "pusher:subscribe"
  channel : textField prims frame.data "channel" = some c
  valid : isValidChannelName c = true
  auth : startsWith c "private-" = true ∨ startsWith c "presence-" = true →
    ∃ auth, textField prims frame.data "auth" = some auth ∧
      verifyChannelAuth prims.hmacHex app.key s c (textField prims frame.data "channel_data") auth
        app.secret = .ok ()
  user : startsWith c "presence-" = true →
    ∃ text u, textField prims frame.data "channel_data" = some text ∧
      ((parseOrNull prims text).get "user_id").bind Value.asUserId = some u ∧ m.user = some u

/-- The text is such a frame, under the settings the connection has in this state. -/
def Granted (prims : Primitives) (σ : ServerState) (text a c s : String) (m : Member) : Prop :=
  ∃ conn frame, σ.connections.lookup s = some conn ∧ conn.app.id = a ∧
    prims.parseInbound text = some frame ∧ Authorises prims (σ.node.liveApp conn) frame s c m

/-! ## The checks of a subscription -/

theorem user_of_requestedMember {pm : PresenceMember}
    (h : requestedMember prims app channelData = .ok pm) : ∃ text, channelData = some text ∧
      ((parseOrNull prims text).get "user_id").bind Value.asUserId = some pm.userId := by
  unfold requestedMember at h
  split at h
  · cases h
  · rename_i text
    refine ⟨text, rfl, ?_⟩
    split at h
    · cases h
    · split at h
      · cases h
      · rename_i hMember
        cases h
        obtain ⟨userId, hUser, hEq⟩ := map_eq_some_iff.mp hMember
        rw [hUser, ← hEq]

theorem verified_of_authorised {s : String} {auth : Option String}
    (h : authorised prims app s c channelData auth = true) : ∃ text, auth = some text ∧
      verifyChannelAuth prims.hmacHex app.key s c channelData text app.secret = .ok () := by
  unfold authorised at h
  split at h
  · cases h
  · rename_i text
    refine ⟨text, rfl, ?_⟩
    cases hVerify : verifyChannelAuth prims.hmacHex app.key s c channelData text app.secret with
    | error err =>
      rw [hVerify] at h
      cases h
    | ok u => rfl

theorem authorises_of_subscribeRequest {conn : Connection} {frame : InboundFrame}
    {presence : Option PresenceMember} (hEvent : frame.event = "pusher:subscribe")
    (h : subscribeRequest prims app conn frame.data = .ok (c, presence)) :
    Authorises prims app frame conn.socketId c ⟨presence⟩ := by
  unfold subscribeRequest at h
  split at h
  · cases h
  · rename_i channel hChannel
    dsimp only at h
    split_ifs at h with hLen hValid hAuth hCap hPresence
    · split at h
      · cases h
      · rename_i pm hMember
        cases h
        obtain ⟨text, hText, hUser⟩ := user_of_requestedMember hMember
        refine ⟨hEvent, hChannel, by simpa using hValid, fun hPrivate => ?_, fun _ =>
          ⟨text, pm.userId, hText, hUser, rfl⟩⟩
        rw [Bool.and_eq_true, not_and, isPrivate_fromName, Bool.or_eq_true] at hAuth
        exact verified_of_authorised (by simpa using hAuth hPrivate)
    · cases h
      refine ⟨hEvent, hChannel, by simpa using hValid, fun hPrivate => ?_, fun hStarts => ?_⟩
      · rw [Bool.and_eq_true, not_and, isPrivate_fromName, Bool.or_eq_true] at hAuth
        exact verified_of_authorised (by simpa using hAuth hPrivate)
      · rw [isPresence_fromName] at hPresence
        exact absurd hStarts hPresence

/-! ## A frame and its own connection -/

/-- What a handled frame did to the memberships of its connection, under the
settings `app`. -/
structure Tracks (prims : Primitives) (node : Node) (app : Application) (conn : Connection)
    (text : String) (handled : Node × Connection) : Prop where
  app_eq : handled.2.app = conn.app
  socketId_eq : handled.2.socketId = conn.socketId
  origin : ∀ a c m, handled.1.memberOf a c conn.socketId = some m →
    node.memberOf a c conn.socketId = some m ∨
    (node.memberOf a c conn.socketId = none ∧ a = app.id ∧ ∃ frame,
      prims.parseInbound text = some frame ∧ Authorises prims app frame conn.socketId c m)
  kept : ∀ c m, handled.1.memberOf app.id c conn.socketId = some m →
    (node.memberOf app.id c conn.socketId = none ∨ c ∈ conn.subscriptions) →
    c ∈ handled.2.subscriptions

section

variable {node : Node} {app : Application} {conn : Connection} {text : String}

theorem tracks_of_still {after : Node} {conn' : Connection} (h : Node.Within .still node after)
    (hApp : conn'.app = conn.app) (hSocket : conn'.socketId = conn.socketId)
    (hSubscriptions : conn'.subscriptions = conn.subscriptions) :
    Tracks prims node app conn text (after, conn') where
  app_eq := hApp
  socketId_eq := hSocket
  origin a c m hm := by
    rw [h.memberOf_eq] at hm
    exact .inl hm
  kept c m hm hBefore := by
    rw [h.memberOf_eq] at hm
    rw [hSubscriptions]
    exact hBefore.resolve_left (by rw [hm]; exact some_ne_none m)

theorem tracks_subscribe (now : Instant) {frame : InboundFrame} {channel : String}
    {presence : Option PresenceMember} (hFrame : prims.parseInbound text = some frame)
    (hEvent : frame.event = "pusher:subscribe")
    (hRequest : subscribeRequest prims app conn frame.data = .ok (channel, presence)) :
    Tracks prims node app conn text
      (node.handleSubscribe now app conn.socketId channel presence,
        if (node.admission now app channel presence).admitted then conn.addSubscription channel
        else conn) := by
  have hAuthorises := authorises_of_subscribeRequest hEvent hRequest
  have hMember (a c : String) := node.memberOf_handleSubscribe now app conn.socketId channel
    presence a c conn.socketId
  cases hAdmit : (node.admission now app channel presence).admitted with
  | false =>
    have hSame (a c : String) : (node.handleSubscribe now app conn.socketId channel
        presence).memberOf a c conn.socketId = node.memberOf a c conn.socketId := by
      rw [hMember, if_neg]
      rintro ⟨-, hAdmitted⟩
      exact Bool.false_ne_true (hAdmit.symm.trans hAdmitted)
    refine ⟨rfl, rfl, fun a c m hm => ?_, fun c m hm hBefore => ?_⟩
    · exact .inl ((hSame a c).symm.trans hm)
    · replace hm := (hSame app.id c).symm.trans hm
      exact hBefore.resolve_left (by rw [hm]; exact some_ne_none m)
  | true =>
    refine ⟨rfl, rfl, fun a c m hm => ?_, fun c m hm hBefore => ?_⟩
    · replace hm := (hMember a c).symm.trans hm
      split at hm
      · rename_i hJoined
        obtain ⟨⟨rfl, rfl, -⟩, -⟩ := hJoined
        cases hOld : node.memberOf app.id c conn.socketId with
        | some old =>
          rw [hOld] at hm
          exact .inl hm
        | none =>
          rw [hOld, getD_none] at hm
          cases hm
          exact .inr ⟨rfl, rfl, frame, hFrame, hAuthorises⟩
      · exact .inl hm
    · rw [if_pos rfl]
      refine (AList.mem_insert ..).mpr ?_
      replace hm := (hMember app.id c).symm.trans hm
      split at hm
      · rename_i hJoined
        exact .inl hJoined.1.2.1
      · exact .inr (hBefore.resolve_left (by rw [hm]; exact some_ne_none m))

theorem tracks_unsubscribe (now : Instant) (channel : String) : Tracks prims node app conn text
      (node.leaveChannel now app conn.socketId channel, conn.removeSubscription channel) := by
  have hMember (a c : String) := node.memberOf_leaveChannel now app conn.socketId channel a c
    conn.socketId
  refine ⟨rfl, rfl, fun a c m hm => ?_, fun c m hm hBefore => ?_⟩
  · replace hm := (hMember a c).symm.trans hm
    split at hm
    · cases hm
    · exact .inl hm
  · replace hm := (hMember app.id c).symm.trans hm
    split at hm
    · cases hm
    · rename_i hOther
      refine AList.mem_erase.mpr ⟨fun hc => hOther ⟨rfl, hc, rfl⟩, ?_⟩
      exact hBefore.resolve_left (by rw [hm]; exact some_ne_none m)

theorem tracks_handleInbound (prims : Primitives) (node : Node) (now : Instant)
    (conn : Connection) (text : String) : Tracks prims node (node.liveApp conn) conn text
      (handleInbound prims node now conn text) := by
  refine handleInbound_of fun answer hAnswer => ?_
  cases hAnswer with
  | replied hProtocol => exact tracks_of_still (node.within_replyTo _ _ hProtocol) rfl rfl rfl
  | subscribe hFrame hEvent hRequest => exact tracks_subscribe now hFrame hEvent hRequest
  | unsubscribe => exact tracks_unsubscribe now _
  | signin => exact tracks_of_still (within_acceptSignin node now conn trivial _) rfl rfl rfl
  | client =>
    refine tracks_of_still (node.within_relayClientEvent _ conn ?_ ?_) rfl rfl rfl
    · exact fun _ => trivial
    · exact fun _ => trivial
  | ignored => exact tracks_of_still (.refl node) rfl rfl rfl

end

/-! ## The invariant: memberships are recorded in their connections -/

structure Recorded (σ : ServerState) : Prop where
  table : ∀ id app, σ.node.config id = some app → app.id = id
  socketId : ∀ s conn, σ.connections.lookup s = some conn → conn.socketId = s
  member : ∀ a c s m, σ.node.memberOf a c s = some m → ∃ conn,
    σ.connections.lookup s = some conn ∧ conn.app.id = a ∧ c ∈ conn.subscriptions

theorem recorded_new (nodeId : String) (scaling : Bool) (table : AppTable) :
    Recorded (new nodeId scaling table) where
  table := table.2
  socketId s conn h := by cases h
  member a c s m h := by cases h

theorem Recorded.liveApp_id {σ : ServerState} (h : Recorded σ) (conn : Connection) :
    (σ.node.liveApp conn).id = conn.app.id := by
  rw [Node.liveApp]
  cases hApp : σ.node.config conn.app.id with
  | none => rfl
  | some app => exact h.table _ _ hApp

theorem memberOf_foldl_leaveChannel (now : Instant) (app : Application) (socketId : String)
    (names : List String) (node : Node) (a c s : String) :
    (names.foldl (fun (node : Node) name => node.leaveChannel now app socketId name) node).memberOf
        a c s = if a = app.id ∧ c ∈ names ∧ s = socketId then none else node.memberOf a c s := by
  induction names generalizing node with
  | nil =>
    rw [foldl_nil, if_neg]
    rintro ⟨-, hNil, -⟩
    exact not_mem_nil hNil
  | cons name names ih =>
    rw [foldl_cons, ih, Node.memberOf_leaveChannel]
    split
    · rename_i hLater
      rw [if_pos ⟨hLater.1, mem_cons_of_mem _ hLater.2.1, hLater.2.2⟩]
    · rename_i hLater
      split
      · rename_i hNow
        rw [if_pos ⟨hNow.1, mem_cons.mpr (.inl hNow.2.1), hNow.2.2⟩]
      · rename_i hNow
        rw [if_neg]
        rintro ⟨ha, hc, hs⟩
        rcases mem_cons.mp hc with hc | hc
        · exact hNow ⟨ha, hc, hs⟩
        · exact hLater ⟨ha, hc, hs⟩

theorem memberOf_cleanupConnection (node : Node) (now : Instant) (conn : Connection)
    (a c s : String) : (cleanupConnection node now conn).memberOf a c s =
      if a = conn.app.id ∧ c ∈ conn.subscriptions ∧ s = conn.socketId then none
      else node.memberOf a c s := by
  have hUnregistered (node : Node) : Node.Within .still node (node.setApp conn.app.id
      ((node.apps conn.app.id).unregisterConnection conn.socketId)) := Node.within_users trivial rfl
  rw [cleanupConnection]
  have hOut (node : Node) := (within_signOutAny node now conn trivial).trans (hUnregistered _)
  refine ((hOut _).memberOf_eq a c s).trans ?_
  refine (memberOf_foldl_leaveChannel ..).trans (if_congr ?_ rfl rfl)
  rw [AList.mem_keys]

/-! ## One step -/

section

variable {σ σ' : ServerState} {action : Action} {socketId : String} {conn : Connection}

def Action.isOther : Action → Bool
  | .frame _ _ _ => false
  | .disconnect _ _ => false
  | .reload _ => false
  | _ => true

theorem still_step (hOther : action.isOther = true) (hStep : step prims σ action = some σ') :
    Node.Within .still σ.node σ'.node := by
  have hCovers : Covers prims .still σ action := by
    refine covers_of_open (fun _ => trivial) (fun _ _ => trivial) (fun _ _ _ => trivial) ?_ ?_
      fun _ _ _ _ => trivial
    · rintro now s text rfl
      cases hOther
    · rintro now s rfl
      cases hOther
  refine within_step hCovers ?_ hStep
  rintro table rfl
  cases hOther

theorem moving_handleInbound (prims : Primitives) (node : Node) (now : Instant) (conn : Connection)
    (text : String) : Node.Within (.moving fun _ _ s => s = conn.socketId) node
      (handleInbound prims node now conn text).1 :=
  within_handleInbound node now conn text (fun _ => rfl) trivial (fun _ _ _ _ => trivial)
    fun _ _ _ _ _ => ⟨fun _ => trivial, fun _ => trivial⟩

/-- Between two frames of a connection its memberships stay, and only a frame of its
own that authorises it makes a socket a member. -/
theorem member_step (hRecorded : Recorded σ) (hStep : step prims σ action = some σ')
    {a c s : String} {m : Member} (hMember : σ'.node.memberOf a c s = some m) :
    (σ.node.memberOf a c s = some m ∧ ∀ now, action ≠ .disconnect now s) ∨
    ∃ now text, action = .frame now s text ∧ σ.node.memberOf a c s = none ∧
      Granted prims σ text a c s m := by
  have hStill (hOther : action.isOther = true) : σ.node.memberOf a c s = some m := by
    rw [← (still_step hOther hStep).memberOf_eq]
    exact hMember
  cases action with
  | frame now socketId text =>
    obtain ⟨conn, hConn, rfl⟩ := map_eq_some_iff.mp hStep
    have hSocket := hRecorded.socketId _ _ hConn
    by_cases hs : s = conn.socketId
    · subst hs
      rcases (tracks_handleInbound prims σ.node now conn text).origin a c m hMember with
        hOld | ⟨hNone, ha, hGranted⟩
      · exact .inl ⟨hOld, fun _ h => by cases h⟩
      · obtain ⟨frame, hFrame, hAuthorises⟩ := hGranted
        refine .inr ⟨now, text, by rw [hSocket], hNone, conn, frame, ?_, ?_, hFrame, hAuthorises⟩
        · rw [hSocket]
          exact hConn
        · rw [ha, hRecorded.liveApp_id]
    · refine .inl ⟨?_, fun _ h => by cases h⟩
      rw [← ((moving_handleInbound prims σ.node now conn text).members a c s).resolve_left hs]
      exact hMember
  | disconnect now socketId =>
    obtain ⟨conn, hConn, rfl⟩ := map_eq_some_iff.mp hStep
    have hSocket := hRecorded.socketId _ _ hConn
    dsimp only at hMember
    rw [memberOf_cleanupConnection] at hMember
    split at hMember
    · cases hMember
    · rename_i hOther
      refine .inl ⟨hMember, ?_⟩
      rintro now' ⟨⟩
      obtain ⟨conn', hConn', ha, hc⟩ := hRecorded.member a c s m hMember
      rw [hConn] at hConn'
      cases hConn'
      exact hOther ⟨ha.symm, hc, hSocket.symm⟩
  | reload table =>
    cases hStep
    exact .inl ⟨hMember, fun _ h => by cases h⟩
  | _ => exact .inl ⟨hStill rfl, fun _ h => by cases h⟩

theorem Recorded.of_same {σ σ' : ServerState} (h : Recorded σ)
    (hNode : Node.Within .still σ.node σ'.node) (hConnections : σ'.connections = σ.connections) :
    Recorded σ' where
  table id app hApp := h.table id app (by rw [← hNode.server.config]; exact hApp)
  socketId s conn hConn := h.socketId s conn (by rw [← hConnections]; exact hConn)
  member a c s m hm := by
    rw [hNode.memberOf_eq] at hm
    rw [hConnections]
    exact h.member a c s m hm

theorem Recorded.frame (h : Recorded σ) (hConn : σ.connections.lookup socketId = some conn)
    (now : Instant) (text : String) :
    Recorded ⟨(handleInbound prims σ.node now conn text).1,
      σ.connections.insert socketId (handleInbound prims σ.node now conn text).2⟩ := by
  have hSocket := h.socketId _ _ hConn
  have hTracks := tracks_handleInbound prims σ.node now conn text
  have hMoving := moving_handleInbound prims σ.node now conn text
  have hLive := h.liveApp_id conn
  refine ⟨fun id app hApp => h.table id app ?_, fun s conn' hConn' => ?_,
    fun a c s m hm => ?_⟩
  · rw [← hMoving.server.config]
    exact hApp
  · dsimp only at hConn'
    rcases lookup_insert_cases hConn' with ⟨hs, rfl⟩ | ⟨-, hConn'⟩
    · rw [hTracks.socketId_eq, hSocket, hs]
    · exact h.socketId _ _ hConn'
  · dsimp only at hm ⊢
    rw [lookup_insert_if]
    by_cases hs : s = socketId
    · rw [if_pos hs]
      rw [hs, ← hSocket] at hm
      have hOwn : a = conn.app.id ∧ (σ.node.memberOf a c conn.socketId = none ∨
          c ∈ conn.subscriptions) := by
        rcases hTracks.origin a c m hm with hOld | ⟨hNone, ha, -⟩
        · obtain ⟨conn', hConn', ha, hc⟩ := h.member a c _ m hOld
          rw [hSocket, hConn] at hConn'
          cases hConn'
          exact ⟨ha.symm, .inr hc⟩
        · exact ⟨ha.trans hLive, .inl hNone⟩
      obtain ⟨rfl, hBefore⟩ := hOwn
      refine ⟨_, rfl, by rw [hTracks.app_eq], ?_⟩
      rw [← hLive] at hm hBefore
      exact hTracks.kept c m hm hBefore
    · rw [if_neg hs]
      rw [(hMoving.members a c s).resolve_left (by rw [hSocket]; exact hs)] at hm
      exact h.member a c s m hm

theorem Recorded.disconnect (h : Recorded σ) (hConn : σ.connections.lookup socketId = some conn)
    (now : Instant) :
    Recorded ⟨cleanupConnection σ.node now conn, σ.connections.erase socketId⟩ := by
  have hSocket := h.socketId _ _ hConn
  have hMoving : Node.Within (.moving fun _ _ s => s = conn.socketId) σ.node
      (cleanupConnection σ.node now conn) :=
    within_cleanupConnection σ.node now conn (fun _ => rfl) trivial
  refine ⟨fun id app hApp => h.table id app ?_, fun s conn' hConn' => ?_,
    fun a c s m hm => ?_⟩
  · rw [← hMoving.server.config]
    exact hApp
  · exact h.socketId _ _ (lookup_erase_some hConn').2
  · dsimp only at hm ⊢
    rw [memberOf_cleanupConnection] at hm
    split at hm
    · cases hm
    · rename_i hOther
      obtain ⟨conn', hConn', ha, hc⟩ := h.member a c s m hm
      have hs : s ≠ socketId := by
        rintro rfl
        rw [hConn] at hConn'
        cases hConn'
        exact hOther ⟨ha.symm, hc, hSocket.symm⟩
      refine ⟨conn', ?_, ha, hc⟩
      rw [lookup_erase_if, if_neg hs]
      exact hConn'

theorem Recorded.connect (h : Recorded σ) {app : Application} (hFresh : socketId ∉ σ.connections) :
    Recorded (Serving.connect σ app socketId) := by
  have hNode : Node.Within .still σ.node (Serving.connect σ app socketId).node :=
    within_connect σ trivial socketId
  refine ⟨fun id app hApp => h.table id app ?_, fun s conn hConn => ?_,
    fun a c s m hm => ?_⟩
  · rw [← hNode.server.config]
    exact hApp
  · rcases lookup_connect hConn with hOld | ⟨rfl, rfl, -⟩
    · exact h.socketId s conn hOld
    · rfl
  · rw [hNode.memberOf_eq] at hm
    obtain ⟨conn, hConn, hOwn⟩ := h.member a c s m hm
    exact ⟨conn, lookup_connect_of_open hFresh hConn, hOwn⟩

theorem recorded_step (h : Recorded σ) (hStep : step prims σ action = some σ') : Recorded σ' := by
  refine step_of hStep (fun _ _ _ _ hFresh => h.connect hFresh)
    (fun now _ text _ hConn => h.frame hConn now text)
    (fun now _ _ hConn => h.disconnect hConn now) fun hApart hConnections => ?_
  have hStill (hOther : action.isOther = true) : Recorded σ' :=
    h.of_same (still_step hOther hStep) hConnections
  cases action with
  | reload table =>
    cases hStep
    exact ⟨table.2, h.socketId, h.member⟩
  | frame | disconnect => cases hApart
  | _ => exact hStill rfl

end

/-! ## Relayed client events -/

/-- The action is a client event of the socket, which is a member of the channel, and
`user` is the user it is a member as on a presence channel. -/
def RelayedBy (σ : ServerState) (action : Action) (a channel sender : String)
    (user : Option String) : Prop :=
  ∃ now text m, action = .frame now sender text ∧
    (startsWith channel "private-" = true ∨ startsWith channel "presence-" = true) ∧
    σ.node.memberOf a channel sender = some m ∧
    user = if startsWith channel "presence-" then m.user else none

def RelayedByPeer (action : Action) (channel event data : String) (user : Option String) : Prop :=
  ∃ now env origin sender userId, action = .incoming now env ∧
    env.payload = .ClientEvent origin channel event data sender userId ∧
    ∀ u, user = some u → userId = some u

def relaying (σ : ServerState) (action : Action) : Footprint where
  sends x := ∀ event data channel user, x.item = .text (.clientEvent event data channel user) →
    (∃ sender, RelayedBy σ action x.app channel sender user) ∨
      RelayedByPeer action channel event data user
  publishes a payload := ∀ origin channel event data sender user,
    payload = .ClientEvent origin channel event data sender user →
      RelayedBy σ action a channel sender user
  stores _ _ _ := True
  moves _ _ _ := True
  binds _ := True
  sends_protocol x hx := by
    intro event data channel user hItem
    rw [hItem] at hx
    cases hx
  publishes_protocol a payload hp := by
    rintro origin channel event data sender user rfl
    cases hp

variable {σ σ' : ServerState} {action : Action} {run : List Action}

theorem relayedBy_of_relays (hRecorded : Recorded σ) (now : Instant)
    {s text channel event data : String} {conn : Connection} {ch : Channel}
    (hConn : σ.connections.lookup s = some conn)
    (h : Relays prims σ.node conn text channel event data ch) :
    RelayedBy σ (.frame now s text) (σ.node.liveApp conn).id channel s
      (senderOf channel conn.socketId ch) := by
  have hSocket := hRecorded.socketId _ _ hConn
  have hMem : s ∈ ch.members := by
    have hContains := h.member
    rw [Channel.contains, decide_eq_true_iff, hSocket] at hContains
    exact hContains
  obtain ⟨m, hLookup⟩ := mem_iff_lookup.mp hMem
  refine ⟨now, text, m, rfl, ?_, ?_, ?_⟩
  · have hPrivate := h.isPrivate
    rw [isPrivate_fromName, Bool.or_eq_true] at hPrivate
    exact hPrivate
  · rw [Node.memberOf, AppChannels.memberOf_of_find h.found, hLookup]
  · rw [senderOf, isPresence_fromName, Channel.presenceUserId, hSocket, hLookup]
    rfl

theorem covers_relaying (hRecorded : Recorded σ) (action : Action) :
    Covers prims (relaying σ action) σ action where
  publish app _ _ _ _ _ _ := by
    refine ⟨fun s event data channel user hItem => ?_, trivial,
      fun origin except origin' channel event data sender user hPayload => ?_⟩
    · cases hItem
    · cases hPayload
  userEvent a userId event data := by
    refine ⟨fun s event data channel user hItem => ?_,
      fun origin origin' channel event data sender user hPayload => ?_⟩
    · cases hItem
    · cases hPayload
  cached a c p _ s event data channel user hItem := by cases hItem
  incoming now env hAction a := by
    cases hPayload : env.payload with
    | Message => exact ⟨fun s event data channel user hItem => (by cases hItem), trivial⟩
    | UserEvent => exact fun s event data channel user hItem => by cases hItem
    | ClientEvent origin channel event data sender userId =>
      rintro s user hUser event' data' channel' user' ⟨⟩
      exact .inr ⟨now, env, origin, sender, userId, hAction, hPayload, hUser⟩
    | _ => trivial
  frame now s text conn hAction hConn := by
    subst hAction
    refine ⟨fun _ _ => trivial, fun _ => trivial, fun channel event data ch hRelays => ?_⟩
    have hRelayed := relayedBy_of_relays hRecorded now hConn hRelays
    refine ⟨?_, ?_⟩
    · rintro s' event' data' channel' user ⟨⟩
      exact .inl ⟨s, hRelayed⟩
    · rintro origin origin' channel' event' data' sender user ⟨⟩
      rw [hRecorded.socketId _ _ hConn] at hRelayed ⊢
      exact hRelayed
  disconnect _ _ _ _ _ := ⟨fun _ _ => trivial, fun _ => trivial⟩
  connect _ _ _ _ := trivial

theorem relays_step (hRecorded : Recorded σ) (hStep : step prims σ action = some σ') :
    (∀ x ∈ σ.node.sentSince σ'.node, (relaying σ action).sends x) ∧
    ∀ x ∈ σ'.node.payloads.drop σ.node.payloads.length, (relaying σ action).publishes x.1 x.2 := by
  have hWithin (hReload : ∀ table, action ≠ .reload table) :=
    (within_step (covers_relaying hRecorded action) hReload hStep).server
  cases action with
  | reload table =>
    cases hStep
    refine ⟨fun x hx => ?_, fun x hx => ?_⟩
    · rw [Node.sentSince, drop_length] at hx
      exact absurd hx not_mem_nil
    · have hNil : x ∈ σ.node.payloads.drop σ.node.payloads.length := hx
      rw [drop_length] at hNil
      exact absurd hNil not_mem_nil
  | _ =>
    obtain ⟨-, ⟨sent, hSent, hSends⟩, published, hPublished, hPublishes⟩ :=
      hWithin fun _ h => by cases h
    rw [Node.sentSince, hSent, hPublished, drop_left, drop_left]
    exact ⟨hSends, hPublishes⟩

/-! ## Every run -/

/-- In the run a frame of the socket's connection made it this member, and it has been
one ever since. -/
def Origin (prims : Primitives) (start : ServerState) (run : List Action) (a c s : String)
    (m : Member) : Prop :=
  ∃ before now text after σ₀, run = before ++ .frame now s text :: after ∧
    exec (step prims) start before = some σ₀ ∧ σ₀.node.memberOf a c s = none ∧
    Granted prims σ₀ text a c s m ∧
    (∀ mid rest, after = mid ++ rest → ∀ σ₁,
      exec (step prims) start (before ++ .frame now s text :: mid) = some σ₁ →
        σ₁.node.memberOf a c s = some m) ∧
    ∀ now', .disconnect now' s ∉ after

theorem exec_concat {start : ServerState}
    (h : exec (step prims) start (run ++ [action]) = some σ') :
    ∃ σ, exec (step prims) start run = some σ ∧ step prims σ action = some σ' := by
  rw [exec_append] at h
  obtain ⟨σ, hRun, hLast⟩ := bind_eq_some_iff.mp h
  refine ⟨σ, hRun, ?_⟩
  obtain ⟨σ'', hStep, hEnd⟩ := bind_eq_some_iff.mp hLast
  cases hEnd
  exact hStep

theorem origin_of_run {nodeId : String} {table : AppTable}
    (hRun : exec (step prims) (new nodeId scaling table) run = some σ) :
    Recorded σ ∧ ∀ a c s m, σ.node.memberOf a c s = some m →
      Origin prims (new nodeId scaling table) run a c s m := by
  induction run using List.reverseRecOn generalizing σ with
  | nil =>
    cases hRun
    exact ⟨recorded_new nodeId scaling table, fun a c s m hm => by cases hm⟩
  | append_singleton run action ih =>
    obtain ⟨σ₁, hRun₁, hStep⟩ := exec_concat hRun
    obtain ⟨hRecorded, hOrigin⟩ := ih hRun₁
    refine ⟨recorded_step hRecorded hStep, fun a c s m hm => ?_⟩
    rcases member_step hRecorded hStep hm with ⟨hOld, hOpen⟩ | ⟨now, text, rfl, hNone, hGranted⟩
    · -- the frame found for the run before this step still serves
      obtain ⟨before, now, text, after, σ₀, rfl, hBefore, hNone, hGranted, hSince, hClosed⟩ :=
        hOrigin a c s m hOld
      refine ⟨before, now, text, after ++ [action], σ₀, by simp, hBefore, hNone, hGranted,
        fun mid rest hSplit σ₂ hExec => ?_, fun now' hMem => ?_⟩
      · rcases eq_nil_or_concat rest with rfl | ⟨rest', last, rfl⟩
        · rw [append_nil] at hSplit
          rw [← hSplit, ← cons_append, ← append_assoc, hRun] at hExec
          cases hExec
          exact hm
        · rw [concat_eq_append, ← append_assoc] at hSplit
          exact hSince mid rest' (append_inj_left' hSplit rfl) σ₂ hExec
      · rcases mem_append.mp hMem with hMem | hMem
        · exact hClosed now' hMem
        · exact hOpen now' (mem_singleton.mp hMem).symm
    · refine ⟨run, now, text, [], σ₁, rfl, hRun₁, hNone, hGranted,
        fun mid rest hSplit σ₂ hExec => ?_, fun _ => not_mem_nil⟩
      rw [(append_eq_nil_iff.mp hSplit.symm).1, hRun] at hExec
      cases hExec
      exact hm

/-- In every state a server reaches, each membership stems from an authorised subscribe
frame of its own connection, and only such members have their client events relayed. -/
theorem memberships_authorised (prims : Primitives) (nodeId : String) (scaling : Bool)
    (table : AppTable) (run : List Action) (σ : ServerState)
    (hRun : exec (step prims) (new nodeId scaling table) run = some σ) :
    (∀ a c s m, σ.node.memberOf a c s = some m →
      isValidChannelName c = true ∧ Origin prims (new nodeId scaling table) run a c s m) ∧
    ∀ action σ', step prims σ action = some σ' → (∀ a s event data channel user,
        ⟨a, s, .text (.clientEvent event data channel user)⟩ ∈ σ.node.sentSince σ'.node →
        (∃ sender, RelayedBy σ action a channel sender user) ∨
          RelayedByPeer action channel event data user) ∧ ∀ a origin channel event data sender user,
        (a, .ClientEvent origin channel event data sender user) ∈
          σ'.node.payloads.drop σ.node.payloads.length →
        RelayedBy σ action a channel sender user := by
  obtain ⟨hRecorded, hOrigin⟩ := origin_of_run hRun
  refine ⟨fun a c s m hm => ?_, fun action σ' hStep => ?_⟩
  · have hFrom := hOrigin a c s m hm
    refine ⟨?_, hFrom⟩
    obtain ⟨_, _, _, _, _, -, -, -, ⟨_, _, -, -, -, hAuthorises⟩, -⟩ := hFrom
    exact hAuthorises.valid
  · obtain ⟨hSent, hPublished⟩ := relays_step hRecorded hStep
    refine ⟨fun a s event data channel user hMem => hSent _ hMem _ _ _ _ rfl, ?_⟩
    intro a origin channel event data sender user hMem
    exact hPublished _ hMem _ _ _ _ _ _ rfl

def joinRun : List Action := [.connect "app" "1.1", .frame 0 "1.1" "join"]

theorem joinRun_authorised : ∃ σ,
    exec (step examplePrims) (new "n1" true ⟨exampleTable, exampleTable_ids⟩) joinRun = some σ ∧
    (σ.node.memberOf "app" "private-encrypted-room" "1.1").isSome = true ∧
    ∀ m, σ.node.memberOf "app" "private-encrypted-room" "1.1" = some m →
      Origin examplePrims (new "n1" true ⟨exampleTable, exampleTable_ids⟩) joinRun "app"
        "private-encrypted-room" "1.1" m := by
  have hResult : (exec (step examplePrims) (new "n1" true ⟨exampleTable, exampleTable_ids⟩)
      joinRun).map (fun σ => (σ.node.memberOf "app" "private-encrypted-room" "1.1").isSome) =
        some true := by decide
  obtain ⟨σ, hRun, hMember⟩ := Option.map_eq_some_iff.mp hResult
  exact ⟨σ, hRun, hMember, fun m hm =>
    ((memberships_authorised examplePrims "n1" true ⟨exampleTable, exampleTable_ids⟩ joinRun σ
      hRun).1
      _ _ _ m hm).2⟩

end Serving

end Zatat
