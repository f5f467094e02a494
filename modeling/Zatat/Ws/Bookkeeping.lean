import Zatat.Ws.UserIndex

/-! # The books of a connection

A connection records the channels it is subscribed to, and its disconnect leaves just
these. The record is exact: it names the channels of its application that contain the
socket, no more of them than the settings allow.
-/

namespace Zatat

open FiniteMap Inbound AppChannels AList Option Connection

theorem AppChannels.channels_signedOut (slot : AppChannels) (socketId userId : String) :
    (slot.signedOut socketId userId).channels = slot.channels := by
  rw [signedOut]
  split
  · rw [removeAllWatchesFor]
    split <;> exact channels_unbindUser ..
  · exact channels_unbindUser ..

namespace Connection

theorem subscriptionCount_eq (conn : Connection) :
    conn.subscriptionCount = conn.subscriptions.keys.length :=
  (List.length_map _).symm

theorem subscriptionCount_addSubscription (conn : Connection) (channel : String) :
    (conn.addSubscription channel).subscriptionCount =
      if channel ∈ conn.subscriptions then conn.subscriptionCount
      else conn.subscriptionCount + 1 := by
  rw [subscriptionCount_eq, subscriptionCount_eq, addSubscription]
  dsimp only
  rw [keys_insert, List.length_cons]
  split
  · rename_i hMem
    have hKey : channel ∈ conn.subscriptions.keys := mem_keys.mp hMem
    have hPos := List.length_pos_of_mem hKey
    rw [List.length_erase_of_mem hKey]
    omega
  · rename_i hMem
    rw [List.erase_of_not_mem fun hKey => hMem (mem_keys.mpr hKey)]

theorem subscriptionCount_removeSubscription_le (conn : Connection) (channel : String) :
    (conn.removeSubscription channel).subscriptionCount ≤ conn.subscriptionCount := by
  rw [subscriptionCount_eq, subscriptionCount_eq, removeSubscription]
  dsimp only
  rw [keys_erase]
  exact List.length_erase_le

end Connection

namespace Serving

open Transition

variable {prims : Primitives} {conn : Connection} {max : String → Nat}

theorem below_cap_of_subscribeRequest {app : Application} {data : Value} {channel : String}
    {presence : Option PresenceMember}
    (h : subscribeRequest prims app conn data = .ok (channel, presence)) :
    channel ∈ conn.subscriptions ∨ conn.subscriptionCount < app.maxChannelsPerConnection := by
  have hBelow (hCap : ¬ (!conn.isSubscribed channel &&
      decide (conn.subscriptionCount ≥ app.maxChannelsPerConnection)) = true) :
      channel ∈ conn.subscriptions ∨ conn.subscriptionCount < app.maxChannelsPerConnection := by
    by_cases hMem : channel ∈ conn.subscriptions
    · exact .inl hMem
    · refine .inr (not_le.mp fun hFull => hCap ?_)
      rw [isSubscribed, decide_eq_false hMem, decide_eq_true hFull]
      rfl
  unfold subscribeRequest at h
  split at h
  · cases h
  · dsimp only at h
    split_ifs at h with hLen hValid hAuth hCap hPresence
    · split at h
      · cases h
      · cases h
        exact hBelow hCap
    · cases h
      exact hBelow hCap

theorem channels_handleInbound (prims : Primitives) (node : Node) (now : Instant)
    (conn : Connection) (text : String) :
    ((∀ a c s, (handleInbound prims node now conn text).1.memberOf a c s = node.memberOf a c s) ∧
      (handleInbound prims node now conn text).2.subscriptions = conn.subscriptions) ∨
    (∃ data channel presence,
      subscribeRequest prims (node.liveApp conn) conn data = .ok (channel, presence) ∧
      (node.admission now (node.liveApp conn) channel presence).admitted = true ∧
      handleInbound prims node now conn text =
        (node.handleSubscribe now (node.liveApp conn) conn.socketId channel presence,
          conn.addSubscription channel)) ∨
    ∃ channel, handleInbound prims node now conn text =
      (node.leaveChannel now (node.liveApp conn) conn.socketId channel,
        conn.removeSubscription channel) := by
  refine handleInbound_of (P := fun r => ((∀ a c s, r.1.memberOf a c s = node.memberOf a c s) ∧
      r.2.subscriptions = conn.subscriptions) ∨ (∃ data channel presence,
      subscribeRequest prims (node.liveApp conn) conn data = .ok (channel, presence) ∧
      (node.admission now (node.liveApp conn) channel presence).admitted = true ∧
      r = (node.handleSubscribe now (node.liveApp conn) conn.socketId channel presence,
        conn.addSubscription channel)) ∨ ∃ channel, r =
      (node.leaveChannel now (node.liveApp conn) conn.socketId channel,
        conn.removeSubscription channel)) fun answer hAnswer => ?_
  have hStill {after : Node} (h : Node.Within .still node after) := h.memberOf_eq
  cases hAnswer with
  | replied hProtocol => exact .inl ⟨hStill (node.within_replyTo _ _ hProtocol), rfl⟩
  | @subscribe _ channel presence _ _ hRequest =>
    cases hAdmit : (node.admission now (node.liveApp conn) channel presence).admitted with
    | true => exact .inr (.inl ⟨_, _, _, hRequest, hAdmit, rfl⟩)
    | false =>
      refine .inl ⟨fun a c s => ?_, rfl⟩
      refine (node.memberOf_handleSubscribe ..).trans (if_neg ?_)
      rintro ⟨-, hAdmitted⟩
      exact Bool.false_ne_true (hAdmit.symm.trans hAdmitted)
  | unsubscribe => exact .inr (.inr ⟨_, rfl⟩)
  | signin => exact .inl ⟨hStill (within_acceptSignin node now conn trivial _), rfl⟩
  | client =>
    refine .inl ⟨hStill (node.within_relayClientEvent _ conn ?_ ?_), rfl⟩
    · exact fun _ => trivial
    · exact fun _ => trivial
  | ignored => exact .inl ⟨fun _ _ _ => rfl, rfl⟩

/-! ## The invariant -/

def CappedBy (max : String → Nat) (table : String → Option Application) : Prop :=
  ∀ id app, table id = some app → app.maxChannelsPerConnection = max app.id

structure Books (max : String → Nat) (node : Node) (s : String) (conn : Connection) : Prop where
  settings : conn.app.maxChannelsPerConnection = max conn.app.id
  count : conn.subscriptionCount ≤ max conn.app.id
  member : ∀ c ∈ conn.subscriptions, (node.memberOf conn.app.id c s).isSome = true

structure Booked (max : String → Nat) (σ : ServerState) : Prop where
  tables : CappedBy max σ.node.config
  books : ∀ s conn, σ.connections.lookup s = some conn → Books max σ.node s conn
  entered : ∀ a s, s ∈ (σ.node.apps a).connections →
    ∃ conn, σ.connections.lookup s = some conn ∧ conn.app.id = a

theorem booked_new {nodeId : String} {table : AppTable} (h : CappedBy max table.1) :
    Booked max (new nodeId scaling table) where
  tables := h
  books s conn hConn := by cases hConn
  entered a s hs := absurd hs (notMem_empty s)

theorem Books.of_same {node after : Node} {s : String} (h : Books max node s conn)
    (hSame : ∀ c, after.memberOf conn.app.id c s = node.memberOf conn.app.id c s) :
    Books max after s conn where
  settings := h.settings
  count := h.count
  member c hc := by
    rw [hSame]
    exact h.member c hc

section

variable {max : String → Nat} {σ σ' : ServerState} {s socketId a c : String} {conn : Connection}
  {node : Node} {now : Instant} {app : Application}

theorem Booked.liveApp_cap (h : Booked max σ) (hConn : σ.connections.lookup s = some conn) :
    (σ.node.liveApp conn).maxChannelsPerConnection = max (σ.node.liveApp conn).id := by
  rw [Node.liveApp]
  cases hApp : σ.node.config conn.app.id with
  | none => exact (h.books s conn hConn).settings
  | some app => exact h.tables _ app hApp

theorem books_handleInbound (hRecorded : Recorded σ) (h : Booked max σ) (now : Instant)
    (text : String) (hConn : σ.connections.lookup s = some conn) :
    Books max (handleInbound prims σ.node now conn text).1 s
      (handleInbound prims σ.node now conn text).2 := by
  have hApp := (tracks_handleInbound prims σ.node now conn text).app_eq
  have hSocket := hRecorded.socketId _ _ hConn
  have hLive := hRecorded.liveApp_id conn
  have hOld := h.books s conn hConn
  have hCap : (σ.node.liveApp conn).maxChannelsPerConnection = max conn.app.id := by
    rw [h.liveApp_cap hConn, hLive]
  refine ⟨by rw [hApp]; exact hOld.settings, ?_, fun c hc => ?_⟩
  · rw [hApp]
    rcases channels_handleInbound prims σ.node now conn text with
      ⟨-, hSame⟩ | ⟨data, channel, presence, hRequest, -, hEq⟩ | ⟨channel, hEq⟩
    · rw [subscriptionCount, hSame]
      exact hOld.count
    · have hBelow := below_cap_of_subscribeRequest hRequest
      rw [hCap] at hBelow
      rw [hEq]
      dsimp only
      rw [subscriptionCount_addSubscription]
      split
      · exact hOld.count
      · rename_i hNew
        exact hBelow.resolve_left hNew
    · rw [hEq]
      exact (conn.subscriptionCount_removeSubscription_le channel).trans hOld.count
  · rw [hApp]
    rcases channels_handleInbound prims σ.node now conn text with
      ⟨hMember, hSame⟩ | ⟨data, channel, presence, -, hAdmit, hEq⟩ | ⟨channel, hEq⟩
    · rw [hSame] at hc
      rw [hMember]
      exact hOld.member c hc
    · rw [hEq] at hc ⊢
      dsimp only at hc ⊢
      rw [Node.memberOf_handleSubscribe]
      split
      · rfl
      · rename_i hOther
        refine hOld.member c ((mem_insert _).mp hc |>.resolve_left fun hJoined => ?_)
        exact hOther ⟨⟨hLive.symm, hJoined, hSocket.symm⟩, hAdmit⟩
    · rw [hEq] at hc ⊢
      obtain ⟨hNe, hc⟩ := mem_erase.mp hc
      dsimp only
      rw [Node.memberOf_leaveChannel, if_neg fun hLeft => hNe hLeft.2.1]
      exact hOld.member c hc

theorem booked_frame (hRecorded : Recorded σ) (h : Booked max σ) (now : Instant) (text : String)
    (hConn : σ.connections.lookup socketId = some conn) :
    Booked max ⟨(handleInbound prims σ.node now conn text).1,
      σ.connections.insert socketId (handleInbound prims σ.node now conn text).2⟩ := by
  have hMoving := moving_handleInbound prims σ.node now conn text
  have hSocket := hRecorded.socketId _ _ hConn
  have hApp := (tracks_handleInbound prims σ.node now conn text).app_eq
  refine ⟨?_, fun s conn' hConn' => ?_, fun a s hs => ?_⟩
  · dsimp only
    rw [hMoving.server.config]
    exact h.tables
  · dsimp only at hConn' ⊢
    rcases lookup_insert_cases hConn' with ⟨rfl, rfl⟩ | ⟨hs, hConn'⟩
    · exact books_handleInbound hRecorded h now text hConn
    · refine (h.books s conn' hConn').of_same fun c => ?_
      exact (hMoving.members _ c s).resolve_left (by rw [hSocket]; exact hs)
  · dsimp only at hs ⊢
    rw [(frameUsers_handleInbound prims hRecorded now conn text).connections] at hs
    obtain ⟨old, hOld, ha⟩ := h.entered a s hs
    rw [lookup_insert_if]
    split
    · rename_i hs
      rw [hs, hConn] at hOld
      cases hOld
      exact ⟨_, rfl, by rw [hApp, ha]⟩
    · exact ⟨old, hOld, ha⟩

theorem mem_connections_of_cleanupConnection
    (h : s ∈ ((cleanupConnection node now conn).apps a).connections) :
    s ∈ (node.apps a).connections ∧ ¬ (a = conn.app.id ∧ s = conn.socketId) := by
  obtain ⟨left, hWithin, hApps⟩ := users_cleanupConnection node now conn
  rw [← hWithin.connections_eq]
  rw [hApps] at h
  split at h
  · obtain ⟨hs, h⟩ := mem_erase.mp h
    refine ⟨?_, fun hOwn => hs hOwn.2⟩
    cases hUser : conn.userId with
    | none =>
      rw [hUser] at h
      exact h
    | some userId =>
      rw [hUser] at h
      dsimp only at h
      rw [connections_signedOut] at h
      exact h
  · rename_i ha
    exact ⟨h, fun hOwn => ha hOwn.1⟩

theorem booked_disconnect (hRecorded : Recorded σ) (h : Booked max σ) (now : Instant)
    (hConn : σ.connections.lookup socketId = some conn) :
    Booked max ⟨cleanupConnection σ.node now conn, σ.connections.erase socketId⟩ := by
  have hSocket := hRecorded.socketId _ _ hConn
  have hWithin : Node.Within (.moving fun _ _ _ => True) σ.node
      (cleanupConnection σ.node now conn) :=
    within_cleanupConnection σ.node now conn (fun _ => trivial) trivial
  refine ⟨?_, fun s conn' hConn' => ?_, fun a s hs => ?_⟩
  · dsimp only
    rw [hWithin.server.config]
    exact h.tables
  · obtain ⟨hs, hConn'⟩ := lookup_erase_some hConn'
    refine (h.books s conn' hConn').of_same fun c => ?_
    rw [memberOf_cleanupConnection, if_neg]
    rintro ⟨-, -, hOwn⟩
    exact hs (hOwn.trans hSocket)
  · obtain ⟨hEntry, hOther⟩ := mem_connections_of_cleanupConnection hs
    obtain ⟨old, hOld, ha⟩ := h.entered a s hEntry
    dsimp only
    rw [lookup_erase_if, if_neg]
    · exact ⟨old, hOld, ha⟩
    · rintro rfl
      rw [hConn] at hOld
      cases hOld
      exact hOther ⟨ha.symm, hSocket.symm⟩

theorem mem_connections_of_registerConnection {slot : AppChannels}
    (h : s ∈ (slot.registerConnection app socketId).2.connections) : s ∈ slot.connections ∨
      (s = socketId ∧ (slot.registerConnection app socketId).1 = true) := by
  unfold registerConnection at h ⊢
  dsimp only at h ⊢
  split_ifs at h ⊢ with hFull
  · obtain ⟨hs, h⟩ := mem_erase.mp h
    exact .inl ((mem_insert _).mp h |>.resolve_left hs)
  · rcases (mem_insert _).mp h with hs | hs
    · exact .inr ⟨hs, rfl⟩
    · exact .inl hs

theorem booked_connect (h : Booked max σ) (hApp : app.maxChannelsPerConnection = max app.id)
    (hFresh : socketId ∉ σ.connections) : Booked max (connect σ app socketId) := by
  have hWithin : Node.Within .still σ.node (connect σ app socketId).node :=
    within_connect σ trivial socketId
  have hEntered (a s : String) (hs : s ∈ ((connect σ app socketId).node.apps a).connections) :
      s ∈ (σ.node.apps a).connections ∨ (s = socketId ∧ a = app.id ∧
        ((σ.node.apps app.id).registerConnection app socketId).1 = true) := by
    rw [node_connect, Node.apps_setApp] at hs
    split at hs
    · rename_i ha
      rw [ha]
      exact (mem_connections_of_registerConnection hs).imp_right fun hNew =>
        ⟨hNew.1, rfl, hNew.2⟩
    · exact .inl hs
  refine ⟨?_, fun s conn hConn => ?_, fun a s hs => ?_⟩
  · rw [hWithin.server.config]
    exact h.tables
  · rcases lookup_connect hConn with hOld | ⟨rfl, rfl, -⟩
    · exact (h.books s conn hOld).of_same fun c => hWithin.memberOf_eq _ c s
    · exact ⟨hApp, Nat.zero_le _, fun c hc => absurd hc (notMem_empty c)⟩
  · rcases hEntered a s hs with hOld | ⟨rfl, rfl, hRegistered⟩
    · obtain ⟨conn, hConn, ha⟩ := h.entered a s hOld
      exact ⟨conn, lookup_connect_of_open hFresh hConn, ha⟩
    · exact ⟨_, lookup_connect_registered hRegistered, rfl⟩

theorem booked_step (hRecorded : Recorded σ) (h : Booked max σ) {action : Action}
    (hReload : ∀ table, action = .reload table → CappedBy max table.1)
    (hStep : step prims σ action = some σ') : Booked max σ' := by
  refine step_of hStep (fun _ app _ hApp hFresh => booked_connect h (h.tables _ app hApp) hFresh)
    (fun now _ text _ hConn => booked_frame hRecorded h now text hConn)
    (fun now _ _ hConn => booked_disconnect hRecorded h now hConn) fun hApart hConnections => ?_
  have hStill (hOther : action.isOther = true) : Booked max σ' := by
    have hNode := still_step hOther hStep
    refine ⟨?_, fun s conn hConn => ?_, fun a s hs => ?_⟩
    · rw [hNode.server.config]
      exact h.tables
    · rw [hConnections] at hConn
      exact (h.books s conn hConn).of_same fun c => hNode.memberOf_eq _ c s
    · rw [hConnections]
      rw [show (σ'.node.apps a).connections = _ from
        congrArg Prod.fst (unbound_step hApart hStep a)] at hs
      exact h.entered a s hs
  cases action with
  | reload table =>
    cases hStep
    exact ⟨hReload table rfl, fun s conn hConn => (h.books s conn hConn).of_same fun _ => rfl,
      h.entered⟩
  | frame | disconnect => cases hApart
  | _ => exact hStill rfl

/-! ## What a disconnect leaves -/

theorem findChannel_leaveChannel (node : Node) (now : Instant) (app : Application)
    (socketId channel a c : String) : (node.leaveChannel now app socketId channel).findChannel a c =
      if a = app.id ∧ c = channel then
        ((node.findChannel a c).map fun ch => (ch.unsubscribe socketId).2).filter fun ch =>
          !removable now ch else node.findChannel a c := by
  cases hFind : node.findChannel app.id channel with
  | none =>
    rw [Node.leaveChannel_none _ _ _ _ _ hFind]
    split
    · rename_i hOwn
      rw [hOwn.1, hOwn.2, hFind]
      rfl
    · rfl
  | some ch =>
    rw [Node.leaveChannel_some _ _ _ _ _ hFind, Node.findChannel]
    change ((node.setApp app.id _).apps a).findChannel c = _
    rw [Node.apps_setApp]
    by_cases ha : a = app.id
    · rw [if_pos ha, findChannel_removeUnused]
      by_cases hc : c = channel
      · rw [if_pos hc, if_pos ⟨ha, hc⟩, findChannel_setChannel, if_pos rfl, ha, hc, hFind]
        rfl
      · rw [if_neg hc, if_neg fun hOwn => hc hOwn.2, findChannel_setChannel, if_neg hc, ha]
        rfl
    · rw [if_neg ha, if_neg fun hOwn => ha hOwn.1]
      rfl

def InUse (now : Instant) (a c : String) (node : Node) : Prop :=
  ∀ ch, node.findChannel a c = some ch → AppChannels.removable now ch = false

theorem InUse.leaveChannel {channel : String}
    (h : ¬ (a = app.id ∧ c = channel) → InUse now a c node) :
    InUse now a c (node.leaveChannel now app socketId channel) := by
  intro ch hFind
  rw [findChannel_leaveChannel] at hFind
  split at hFind
  · exact Bool.not_eq_true' _ |>.mp (filter_eq_some_iff.mp hFind).2
  · rename_i hOther
    exact h hOther ch hFind

theorem inUse_foldl_leaveChannel (now : Instant) (app : Application) (socketId : String)
    {names : List String} (hc : c ∈ names) (node : Node) : InUse now app.id c (names.foldl
      (fun (node : Node) name => node.leaveChannel now app socketId name) node) := by
  have hKeeps (names : List String) (node : Node) (h : InUse now app.id c node) :
      InUse now app.id c (names.foldl
        (fun (node : Node) name => node.leaveChannel now app socketId name) node) :=
    List.foldlRecOn (motive := InUse now app.id c) _ _ h fun _ hNode _ _ =>
      InUse.leaveChannel fun _ => hNode
  induction names generalizing node with
  | nil => cases hc
  | cons name names ih =>
    rw [List.foldl_cons]
    rcases List.mem_cons.mp hc with rfl | hc
    · exact hKeeps names _ (InUse.leaveChannel fun hOther => absurd ⟨rfl, rfl⟩ hOther)
    · exact ih hc _

theorem findChannel_cleanupConnection (node : Node) (now : Instant) (conn : Connection)
    (a c : String) : (cleanupConnection node now conn).findChannel a c =
      (conn.subscriptions.keys.foldl (fun (node : Node) name =>
        node.leaveChannel now conn.app conn.socketId name) node).findChannel a c := by
  have hUnregistered (node : Node) : (node.setApp conn.app.id
      ((node.apps conn.app.id).unregisterConnection conn.socketId)).findChannel a c =
      node.findChannel a c := by
    rw [Node.findChannel, Node.apps_setApp]
    split
    · rename_i ha
      rw [ha]
      rfl
    · rfl
  have hSignedOut (node : Node) (userId : String) :
      (node.signOut now conn.app conn.socketId userId).findChannel a c = node.findChannel a c := by
    rw [Node.findChannel, Node.apps_signOut]
    split
    · rw [findChannel, channels_signedOut]
      rfl
    · rfl
  rw [cleanupConnection]
  refine (hUnregistered _).trans ?_
  cases conn.userId with
  | none => rfl
  | some userId => exact hSignedOut _ userId

/-- The disconnect left no trace of the connection, and nothing of the others moved. -/
structure Gone (now : Instant) (conn : Connection) (node after : Node) : Prop where
  channels : ∀ a c, after.memberOf a c conn.socketId = none
  userIndex : ∀ a u, conn.socketId ∉ (after.apps a).socketsOf u
  connections : ∀ a, conn.socketId ∉ (after.apps a).connections
  emptied : ∀ c ch, node.findChannel conn.app.id c = some ch →
    (∀ s, ch.contains s = true ↔ s = conn.socketId) →
    ∀ ch', after.findChannel conn.app.id c = some ch' → (ch'.cachedPayloadAt now).isSome = true
  others : ∀ a c s, s ≠ conn.socketId → after.memberOf a c s = node.memberOf a c s

theorem gone_cleanupConnection (hRecorded : Recorded σ) (hIndexed : Indexed σ) (h : Booked max σ)
    (hConn : σ.connections.lookup s = some conn) (now : Instant) :
    Gone now conn σ.node (cleanupConnection σ.node now conn) := by
  have hSocket := hRecorded.socketId _ _ hConn
  have hOthers (a c s' : String) (hs : s' ≠ conn.socketId) :
      (cleanupConnection σ.node now conn).memberOf a c s' = σ.node.memberOf a c s' := by
    rw [memberOf_cleanupConnection, if_neg]
    rintro ⟨-, -, hOwn⟩
    exact hs hOwn
  have hChannels (a c : String) :
      (cleanupConnection σ.node now conn).memberOf a c conn.socketId = none := by
    rw [memberOf_cleanupConnection]
    split
    · rfl
    · rename_i hOther
      refine eq_none_iff_forall_ne_some.mpr fun m hm => ?_
      obtain ⟨conn', hConn', ha, hc⟩ := hRecorded.member a c _ m hm
      rw [hSocket, hConn] at hConn'
      cases hConn'
      exact hOther ⟨ha.symm, hc, rfl⟩
  refine ⟨hChannels, fun a u hs => ?_, fun a hs => ?_, fun c ch hFind hLast ch' hAfter => ?_,
    hOthers⟩
  · obtain ⟨hOld, hOther⟩ := (mem_socketsOf_cleanupConnection ..).mp hs
    obtain ⟨conn', hConn', ha, hu⟩ := hIndexed.bound a u _ hOld
    rw [hSocket, hConn] at hConn'
    cases hConn'
    exact hOther ⟨ha.symm, hu, rfl⟩
  · obtain ⟨hOld, hOther⟩ := mem_connections_of_cleanupConnection hs
    obtain ⟨conn', hConn', ha⟩ := h.entered a _ hOld
    rw [hSocket, hConn] at hConn'
    cases hConn'
    exact hOther ⟨ha.symm, rfl⟩
  · -- nobody is left in the channel, so it is kept for its payload
    have hMember : (σ.node.memberOf conn.app.id c conn.socketId).isSome = true := by
      rw [Node.memberOf, memberOf_of_find hFind]
      obtain ⟨m, hm⟩ := mem_iff_lookup.mp (of_decide_eq_true ((hLast conn.socketId).mpr rfl))
      rw [hm]
      rfl
    obtain ⟨m, hm⟩ := isSome_iff_exists.mp hMember
    obtain ⟨conn', hConn', -, hc⟩ := hRecorded.member _ c _ m hm
    rw [hSocket, hConn] at hConn'
    cases hConn'
    have hUsed : InUse now conn.app.id c (cleanupConnection σ.node now conn) := by
      intro ch hCh
      rw [findChannel_cleanupConnection] at hCh
      exact inUse_foldl_leaveChannel now conn.app conn.socketId (mem_keys.mp hc) _ ch hCh
    have hNobody (s' : String) : ch'.members.lookup s' = none := by
      rw [← memberOf_of_find hAfter]
      by_cases hs : s' = conn.socketId
      · rw [hs]
        exact hChannels conn.app.id c
      · refine (hOthers conn.app.id c s' hs).trans ?_
        rw [Node.memberOf, memberOf_of_find hFind]
        refine eq_none_iff_forall_ne_some.mpr fun m' hm' => hs ((hLast s').mp ?_)
        exact decide_eq_true (mem_iff_lookup.mpr ⟨m', hm'⟩)
    have hEmpty : ch'.isEmpty = true := by
      rw [Channel.isEmpty, List.isEmpty_iff, entries_eq_nil_iff]
      exact hNobody
    have hKept := hUsed ch' hAfter
    rw [removable, hEmpty, Bool.true_and] at hKept
    rw [← not_isNone, hKept]
    rfl

end

/-- The settings allow the same number of channels throughout the run. Then in every state
reached each connection's record is exact and within the limit, and closing the connection
leaves no trace of it. -/
theorem subscriptions_exact (prims : Primitives) (nodeId : String) (scaling : Bool)
    (table : AppTable) (max : String → Nat) (run : List Action) (hTable : CappedBy max table.1)
    (hReloads : ∀ table' : AppTable, Action.reload table' ∈ run → CappedBy max table'.1)
    (σ : ServerState) (hRun : exec (step prims) (new nodeId scaling table) run = some σ)
    (s : String) (conn : Connection) (hConn : σ.connections.lookup s = some conn) :
    (∀ c, c ∈ conn.subscriptions ↔ (σ.node.memberOf conn.app.id c s).isSome = true) ∧
      conn.subscriptionCount ≤ max conn.app.id ∧
      ∀ now, Gone now conn σ.node (Inbound.cleanupConnection σ.node now conn) := by
  have hSteps : EachStep (step prims)
      (fun _ action => ∀ table' : AppTable, action = .reload table' → CappedBy max table'.1)
      (new nodeId scaling table) run := by
    refine .of_forall_mem (fun action hMem _ table' hReload => hReloads table' ?_) _
    rw [← hReload]
    exact hMem
  have hAlways : Always (step prims) (fun σ => (Recorded σ ∧ Indexed σ) ∧ Booked max σ)
      (new nodeId scaling table) run :=
    always_of_step
      (fun _ _ _ h hReload hStep =>
        ⟨⟨recorded_step h.1.1 hStep, indexed_step h.1.1 h.1.2 hStep⟩,
          booked_step h.1.1 h.2 hReload hStep⟩)
      ⟨⟨recorded_new nodeId scaling table, indexed_new nodeId scaling table⟩, booked_new hTable⟩
      hSteps
  obtain ⟨⟨hRecorded, hIndexed⟩, hBooked⟩ := hAlways.of_exec hRun
  have hBooks := hBooked.books s conn hConn
  refine ⟨fun c => ⟨hBooks.member c, fun hMember => ?_⟩, hBooks.count,
    gone_cleanupConnection hRecorded hIndexed hBooked hConn⟩
  obtain ⟨m, hm⟩ := Option.isSome_iff_exists.mp hMember
  obtain ⟨conn', hConn', -, hc⟩ := hRecorded.member _ c s m hm
  rw [hConn] at hConn'
  cases hConn'
  exact hc

theorem joinRun_exact : ∃ σ conn,
    exec (step examplePrims) (new "n1" true ⟨exampleTable, exampleTable_ids⟩) joinRun = some σ ∧
    σ.connections.lookup "1.1" = some conn ∧
    (∀ c, c ∈ conn.subscriptions ↔ (σ.node.memberOf conn.app.id c "1.1").isSome = true) ∧
    conn.subscriptionCount ≤ exampleApp.maxChannelsPerConnection ∧
    "private-encrypted-room" ∈ conn.subscriptions ∧
    ∀ now, Gone now conn σ.node (Inbound.cleanupConnection σ.node now conn) := by
  have hResult : ((exec (step examplePrims) (new "n1" true ⟨exampleTable, exampleTable_ids⟩)
      joinRun).bind fun σ => (σ.connections.lookup "1.1").map fun conn =>
        decide ("private-encrypted-room" ∈ conn.subscriptions)) = some true := by decide
  obtain ⟨σ, hRun, hLookup⟩ := Option.bind_eq_some_iff.mp hResult
  obtain ⟨conn, hConn, hMember⟩ := Option.map_eq_some_iff.mp hLookup
  have hTable : CappedBy (fun _ => exampleApp.maxChannelsPerConnection) exampleTable := by
    intro id app hApp
    obtain ⟨-, ⟨⟩⟩ := Option.ite_none_right_eq_some.mp hApp
    rfl
  obtain ⟨hExact, hCount, hGone⟩ := subscriptions_exact examplePrims "n1"
    true ⟨exampleTable, exampleTable_ids⟩ (fun _ => exampleApp.maxChannelsPerConnection) joinRun
    hTable (by simp [joinRun]) σ hRun "1.1" conn hConn
  exact ⟨σ, conn, hRun, hConn, hExact, hCount, of_decide_eq_true hMember, hGone⟩

end Serving

end Zatat
