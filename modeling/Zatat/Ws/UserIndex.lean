import Zatat.Ws.Authorised

/-! # The user index and the connections

A socket is listed under a user only while its connection is open and signed in as
that user, and it is listed once.
-/

namespace Zatat

open FiniteMap Inbound AppChannels

namespace AppChannels

def addWatchers (slot : AppChannels) (watchlist : List String) (userId : String) : AppChannels :=
  watchlist.foldl (fun slot watched => slot.addWatcher watched userId) slot

variable (slot : AppChannels) (socketId userId : String) (watchlist : Option (List String))
  (u : String)

theorem addWatchers_same (watchlist : List String) (userId : String) :
    (slot.addWatchers watchlist userId).userIndex = slot.userIndex ∧
      (slot.addWatchers watchlist userId).connections = slot.connections := by
  induction watchlist generalizing slot with
  | nil => exact ⟨rfl, rfl⟩
  | cons watched watchlist ih => exact ih (slot.addWatcher watched userId)

theorem removeAllWatchesFor_same : (slot.removeAllWatchesFor userId).userIndex = slot.userIndex ∧
      (slot.removeAllWatchesFor userId).connections = slot.connections := by
  rw [removeAllWatchesFor]
  split <;> exact ⟨rfl, rfl⟩

theorem connections_unbindUser (socketId : String) :
    (slot.unbindUser userId socketId).2.connections = slot.connections := by
  rw [unbindUser]
  split
  · rfl
  · dsimp only
    split <;> rfl

theorem socketsOf_congr {slot slot' : AppChannels} (h : slot'.userIndex = slot.userIndex)
    (u : String) : slot'.socketsOf u = slot.socketsOf u := by
  rw [socketsOf, h, socketsOf]

def signedIn (slot : AppChannels) (socketId userId : String) (watchlist : Option (List String)) :
    AppChannels :=
  match watchlist with
  | none => (slot.bindUser userId socketId).2
  | some list => (slot.bindUser userId socketId).2.addWatchers list userId

def signedOut (slot : AppChannels) (socketId userId : String) : AppChannels :=
  if (slot.unbindUser userId socketId).1 then
    (slot.unbindUser userId socketId).2.removeAllWatchesFor userId
  else (slot.unbindUser userId socketId).2

theorem socketsOf_signedIn : (slot.signedIn socketId userId watchlist).socketsOf u =
      (slot.bindUser userId socketId).2.socketsOf u := by
  cases watchlist with
  | none => rfl
  | some list => exact socketsOf_congr (addWatchers_same ..).1 u

theorem socketsOf_signedOut : (slot.signedOut socketId userId).socketsOf u =
      (slot.unbindUser userId socketId).2.socketsOf u := by
  rw [signedOut]
  split
  · exact socketsOf_congr (removeAllWatchesFor_same ..).1 u
  · rfl

theorem connections_signedIn :
    (slot.signedIn socketId userId watchlist).connections = slot.connections := by
  cases watchlist with
  | none => rfl
  | some list => exact (addWatchers_same ..).2

theorem connections_signedOut :
    (slot.signedOut socketId userId).connections = slot.connections := by
  rw [signedOut]
  split
  · exact (removeAllWatchesFor_same ..).2.trans (connections_unbindUser ..)
  · exact connections_unbindUser ..

end AppChannels

namespace Node

variable (node : Node) (now : Instant) (app : Application) (socketId userId a : String)

theorem apps_setApp (b : String) (slot : AppChannels) :
    (node.setApp a slot).apps b = if b = a then slot else node.apps b := by
  rw [setApp]
  dsimp only
  rw [Function.update_apply]

theorem apps_signIn (watchlist : Option (List String)) (a : String) :
    (node.signIn now app socketId userId watchlist).apps a =
      if a = app.id then (node.apps a).signedIn socketId userId watchlist else node.apps a := by
  have hTold (node : Node) (wasOnline : Bool) : (if wasOnline then node
      else node.emitLocalWatchlistEvent app.id userId "online").apps = node.apps := by
    split <;> rfl
  have hPublished (node : Node) (firstLocalSocket : Bool) : (if firstLocalSocket then
      node.publishUserOnline app userId else node).apps = node.apps := by
    split <;> rfl
  rw [signIn]
  dsimp only
  rw [hPublished, hTold]
  cases watchlist with
  | none =>
    dsimp only
    rw [apps_setApp]
    split
    · rename_i ha
      rw [ha]
      rfl
    · rfl
  | some list =>
    have hWatch (node : Node) : (node.watch now app socketId userId list).apps a =
        if a = app.id then (node.apps app.id).addWatchers list userId else node.apps a :=
      apps_setApp ..
    dsimp only
    rw [hWatch, apps_setApp, if_pos rfl, apps_setApp]
    split
    · rename_i ha
      rw [ha]
      rfl
    · rfl

theorem apps_signOut : (node.signOut now app socketId userId).apps a =
      if a = app.id then (node.apps a).signedOut socketId userId else node.apps a := by
  have hTold (node : Node) (stillRemotely : Bool) : (if stillRemotely then node
      else node.emitLocalWatchlistEvent app.id userId "offline").apps = node.apps := by
    split <;> rfl
  have hPublished (node : Node) : (node.publishUserOffline app userId).apps = node.apps := rfl
  rw [signOut]
  dsimp only
  split
  · rename_i hLast
    rw [apps_setApp, hPublished, hTold, apps_setApp, if_pos rfl, apps_setApp]
    split
    · rename_i ha
      rw [ha, AppChannels.signedOut, if_pos hLast]
    · rfl
  · rename_i hLast
    rw [apps_setApp]
    split
    · rename_i ha
      rw [ha, AppChannels.signedOut, if_neg hLast]
    · rfl

end Node

/-! ## What leaves the users alone -/

def Footprint.unbound : Footprint where
  sends _ := True
  publishes _ _ := True
  stores _ _ _ := True
  moves _ _ _ := True
  binds _ := False
  sends_protocol _ _ := trivial
  publishes_protocol _ _ _ := trivial

namespace Node

theorem Within.users_eq {node after : Node} (h : Within .unbound node after) (a : String) :
    (after.apps a).users = (node.apps a).users :=
  (h.slots a).users.resolve_left id

theorem Within.socketsOf_eq {node after : Node} (h : Within .unbound node after) (a u : String) :
    (after.apps a).socketsOf u = (node.apps a).socketsOf u :=
  socketsOf_congr (congrArg (fun users => users.2.1) (h.users_eq a)) u

theorem Within.connections_eq {node after : Node} (h : Within .unbound node after) (a : String) :
    (after.apps a).connections = (node.apps a).connections :=
  congrArg Prod.fst (h.users_eq a)

end Node

namespace AppChannels

theorem registerConnection_spec (slot : AppChannels) (app : Application) (socketId : String) :
    (slot.registerConnection app socketId).2.userIndex = slot.userIndex ∧
      (∀ s, s ≠ socketId → s ∈ slot.connections →
        s ∈ (slot.registerConnection app socketId).2.connections) ∧
      ((slot.registerConnection app socketId).1 = true →
        socketId ∈ (slot.registerConnection app socketId).2.connections) := by
  have hKept (s : String) (hs : s ∈ slot.connections) : s ∈ slot.connections.insert socketId () :=
    AList.mem_insert _ |>.mpr (.inr hs)
  unfold registerConnection
  dsimp only
  split_ifs
  · refine ⟨rfl, fun s hs hMem => ?_, fun h => by cases h⟩
    exact AList.mem_erase.mpr ⟨hs, hKept s hMem⟩
  · exact ⟨rfl, fun s _ => hKept s, fun _ => AList.mem_insert _ |>.mpr (.inl rfl)⟩

end AppChannels

namespace Serving

open Transition

variable {prims : Primitives}

theorem userId_none_of_signinRequest {app : Application} {conn : Connection} {data : Value}
    {req : SigninRequest} (h : signinRequest prims app conn data = .ok req) :
    conn.userId = none := by
  unfold signinRequest at h
  split at h
  · dsimp only at h
    split_ifs at h
    split at h
    · cases h
    · split_ifs at h
      split at h
      · cases h
      · rename_i hNone
        exact hNone
  · cases h

theorem users_handleInbound (prims : Primitives) (node : Node) (now : Instant)
    (conn : Connection) (text : String) :
    (Node.Within .unbound node (handleInbound prims node now conn text).1 ∧
      (handleInbound prims node now conn text).2.userId = conn.userId) ∨
    ∃ u watchlist, conn.userId = none ∧ (handleInbound prims node now conn text).2.userId = some u ∧
      ∀ a, (handleInbound prims node now conn text).1.apps a =
        if a = (node.liveApp conn).id then
          (node.apps a).signedIn conn.socketId u watchlist else node.apps a := by
  refine handleInbound_of (P := fun r => (Node.Within .unbound node r.1 ∧
    r.2.userId = conn.userId) ∨ ∃ u watchlist, conn.userId = none ∧ r.2.userId = some u ∧ ∀ a,
      r.1.apps a = if a = (node.liveApp conn).id then
        (node.apps a).signedIn conn.socketId u watchlist else node.apps a) fun answer hAnswer => ?_
  cases hAnswer with
  | replied hProtocol => exact .inl ⟨node.within_replyTo _ _ hProtocol, rfl⟩
  | subscribe =>
    refine .inl ⟨node.within_handleSubscribe now _ _ trivial fun _ _ _ => trivial, ?_⟩
    dsimp only
    split <;> rfl
  | unsubscribe => exact .inl ⟨node.within_leaveChannel now _ trivial, rfl⟩
  | @signin _ req hRequest =>
    refine .inr ⟨req.userId, req.watchlist, userId_none_of_signinRequest hRequest, rfl, fun a => ?_⟩
    dsimp only [acceptSignin, Answer.queued]
    split <;> exact (Node.apps_signIn ..).trans rfl
  | client =>
    refine .inl ⟨node.within_relayClientEvent _ conn (fun _ => trivial) fun _ => trivial, rfl⟩
  | ignored => exact .inl ⟨.refl node, rfl⟩

theorem users_cleanupConnection (node : Node) (now : Instant) (conn : Connection) :
    ∃ left : Node, Node.Within .unbound node left ∧ ∀ a, (cleanupConnection node now conn).apps a =
        if a = conn.app.id then
          (match conn.userId with
            | none => left.apps a
            | some u => (left.apps a).signedOut conn.socketId u).unregisterConnection
              conn.socketId
        else left.apps a := by
  refine ⟨conn.subscriptions.keys.foldl
    (fun (node : Node) name => node.leaveChannel now conn.app conn.socketId name) node,
    Node.Within.foldl id (fun node name => node.within_leaveChannel now conn.app trivial) _ node,
    fun a => ?_⟩
  rw [cleanupConnection, Node.apps_setApp]
  cases conn.userId with
  | none =>
    dsimp only
    split
    · rename_i ha
      rw [ha]
    · rfl
  | some u =>
    dsimp only
    rw [Node.apps_signOut, if_pos rfl, Node.apps_signOut]
    split
    · rename_i ha
      rw [ha]
    · rfl

/-! ## The invariant -/

structure Indexed (σ : ServerState) : Prop where
  once : ∀ a u, ((σ.node.apps a).socketsOf u).Nodup
  bound : ∀ a u s, s ∈ (σ.node.apps a).socketsOf u →
    ∃ conn, σ.connections.lookup s = some conn ∧ conn.app.id = a ∧ conn.userId = some u
  registered : ∀ s conn, σ.connections.lookup s = some conn →
    s ∈ (σ.node.apps conn.app.id).connections

theorem indexed_new (nodeId : String) (scaling : Bool) (table : AppTable) :
    Indexed (new nodeId scaling table) where
  once _ _ := List.nodup_nil
  bound _ _ _ h := by cases h
  registered _ _ h := by cases h

section

variable {σ σ' : ServerState} {action : Action} {socketId a : String} {conn : Connection}
  {node : Node}

theorem unbound_step (hApart : action.isApart = true) (hStep : step prims σ action = some σ') :
    ∀ a, (σ'.node.apps a).users = (σ.node.apps a).users := by
  have hCovers : Covers prims .unbound σ action := by
    refine covers_of_open (fun _ => trivial) (fun _ _ => trivial) (fun _ _ _ => trivial) ?_ ?_ ?_
    · rintro now s text rfl
      cases hApart
    · rintro now s rfl
      cases hApart
    · rintro appId s rfl
      cases hApart
  have hWithin (hReload : ∀ table, action ≠ .reload table) := within_step hCovers hReload hStep
  cases action with
  | reload table =>
    cases hStep
    exact fun _ => rfl
  | _ => exact (hWithin fun _ h => by cases h).users_eq

theorem Indexed.of_users (h : Indexed σ)
    (hUsers : ∀ a, (σ'.node.apps a).users = (σ.node.apps a).users)
    (hConnections : σ'.connections = σ.connections) : Indexed σ' := by
  have hSockets (a u : String) : (σ'.node.apps a).socketsOf u = (σ.node.apps a).socketsOf u :=
    socketsOf_congr (congrArg (fun users => users.2.1) (hUsers a)) u
  refine ⟨fun a u => ?_, fun a u s hs => ?_, fun s conn hConn => ?_⟩
  · rw [hSockets]
    exact h.once a u
  · rw [hSockets] at hs
    rw [hConnections]
    exact h.bound a u s hs
  · rw [hConnections] at hConn
    rw [show (σ'.node.apps conn.app.id).connections = _ from congrArg Prod.fst (hUsers _)]
    exact h.registered s conn hConn

theorem indexed_connect (h : Indexed σ) {app : Application} (hFresh : socketId ∉ σ.connections) :
    Indexed (connect σ app socketId) := by
  obtain ⟨hIndex, hKept, hAdded⟩ := (σ.node.apps app.id).registerConnection_spec app socketId
  have hSockets (a u : String) : ((connect σ app socketId).node.apps a).socketsOf u =
      (σ.node.apps a).socketsOf u := by
    rw [node_connect, Node.apps_setApp]
    split
    · rename_i ha
      rw [ha]
      exact socketsOf_congr hIndex u
    · rfl
  refine ⟨fun a u => ?_, fun a u s hs => ?_, fun s conn hConn => ?_⟩
  · rw [hSockets]
    exact h.once a u
  · rw [hSockets] at hs
    obtain ⟨conn, hConn, hOwn⟩ := h.bound a u s hs
    exact ⟨conn, lookup_connect_of_open hFresh hConn, hOwn⟩
  · rw [node_connect, Node.apps_setApp]
    rcases lookup_connect hConn with hOld | ⟨rfl, rfl, hRegistered⟩
    · split
      · rename_i ha
        exact hKept s (ne_of_open hFresh hOld) (ha ▸ h.registered s conn hOld)
      · exact h.registered s conn hOld
    · rw [Connection.new, if_pos rfl]
      exact hAdded hRegistered

/-- What a frame does to the user index: at most it lists the connection it came from under
the user that connection signs in as. -/
structure FrameUsers (node : Node) (conn : Connection) (handled : Node × Connection) : Prop where
  kept : ∀ u, conn.userId = some u → handled.2.userId = some u
  sockets : ∀ a u s, s ∈ (handled.1.apps a).socketsOf u ↔ s ∈ (node.apps a).socketsOf u ∨
    a = conn.app.id ∧ conn.userId = none ∧ handled.2.userId = some u ∧ s = conn.socketId
  once : ∀ a u, ((node.apps a).socketsOf u).Nodup → ((handled.1.apps a).socketsOf u).Nodup
  connections : ∀ a, (handled.1.apps a).connections = (node.apps a).connections

theorem frameUsers_handleInbound (prims : Primitives) (hRecorded : Recorded σ) (now : Instant)
    (conn : Connection) (text : String) :
    FrameUsers σ.node conn (handleInbound prims σ.node now conn text) := by
  rcases users_handleInbound prims σ.node now conn text with
    ⟨hWithin, hSame⟩ | ⟨u₀, watchlist, hNone, hSome, hApps⟩
  · refine ⟨fun u hu => hSame.trans hu, fun a u s => ?_, fun a u hOnce => ?_,
      hWithin.connections_eq⟩
    · rw [hWithin.socketsOf_eq, hSame]
      refine (or_iff_left ?_).symm
      rintro ⟨-, hNone, hSome, -⟩
      exact nomatch hNone.symm.trans hSome
    · rwa [hWithin.socketsOf_eq]
  · have hLive := hRecorded.liveApp_id conn
    refine ⟨fun u hu => ?_, fun a u s => ?_, fun a u hOnce => ?_, fun a => ?_⟩
    · exact nomatch hNone.symm.trans hu
    · rw [hApps, hLive]
      split
      · rename_i ha
        rw [socketsOf_signedIn, mem_socketsOf_bindUser]
        simp [ha, hNone, hSome, eq_comm]
      · rename_i ha
        exact (or_iff_left fun hNew => ha hNew.1).symm
    · rw [hApps]
      split
      · rw [socketsOf_signedIn]
        exact nodup_socketsOf_bindUser hOnce ..
      · exact hOnce
    · rw [hApps]
      split
      · exact connections_signedIn ..
      · rfl

theorem indexed_frame (hRecorded : Recorded σ) (h : Indexed σ) (now : Instant) (text : String)
    (hConn : σ.connections.lookup socketId = some conn) :
    Indexed ⟨(handleInbound prims σ.node now conn text).1,
      σ.connections.insert socketId (handleInbound prims σ.node now conn text).2⟩ := by
  have hApp := (tracks_handleInbound prims σ.node now conn text).app_eq
  have hUsers := frameUsers_handleInbound prims hRecorded now conn text
  have hSocket := hRecorded.socketId _ _ hConn
  revert hApp hUsers
  generalize handleInbound prims σ.node now conn text = handled
  intro hApp hUsers
  refine ⟨fun a u => hUsers.once a u (h.once a u), fun a u s hs => ?_, fun s conn' hConn' => ?_⟩
  · dsimp only
    rw [lookup_insert_if]
    rcases (hUsers.sockets a u s).mp hs with hOld | ⟨ha, -, hSome, hs⟩
    · obtain ⟨old, hLookup, ha, hu⟩ := h.bound a u s hOld
      split
      · rename_i hs
        rw [hs, hConn] at hLookup
        cases hLookup
        exact ⟨handled.2, rfl, by rw [hApp, ha], hUsers.kept u hu⟩
      · exact ⟨old, hLookup, ha, hu⟩
    · rw [if_pos (hs.trans hSocket)]
      exact ⟨handled.2, rfl, by rw [hApp, ha], hSome⟩
  · rw [hUsers.connections]
    rcases lookup_insert_cases hConn' with ⟨hs, rfl⟩ | ⟨-, hConn'⟩
    · rw [hApp, hs]
      exact h.registered socketId conn hConn
    · exact h.registered s conn' hConn'

theorem mem_socketsOf_cleanupConnection (node : Node) (now : Instant) (conn : Connection)
    (a u s : String) : s ∈ ((cleanupConnection node now conn).apps a).socketsOf u ↔
      s ∈ (node.apps a).socketsOf u ∧
        ¬ (a = conn.app.id ∧ conn.userId = some u ∧ s = conn.socketId) := by
  obtain ⟨left, hWithin, hApps⟩ := users_cleanupConnection node now conn
  rw [hApps, ← hWithin.socketsOf_eq]
  split
  · rename_i ha
    cases conn.userId with
    | none =>
      refine ⟨fun hs => ⟨hs, ?_⟩, fun hs => hs.1⟩
      rintro ⟨-, hu, -⟩
      cases hu
    | some userId =>
      change s ∈ ((left.apps a).signedOut conn.socketId userId).socketsOf u ↔ _
      rw [socketsOf_signedOut, mem_socketsOf_unbindUser, Option.some_inj]
      refine and_congr_right fun _ => not_congr ?_
      exact ⟨fun ⟨hu, hs⟩ => ⟨ha, hu.symm, hs⟩, fun ⟨_, hu, hs⟩ => ⟨hu.symm, hs⟩⟩
  · rename_i ha
    exact ⟨fun hs => ⟨hs, fun hBound => ha hBound.1⟩, fun hs => hs.1⟩

theorem nodup_socketsOf_cleanupConnection {u : String} (h : ((node.apps a).socketsOf u).Nodup)
    (now : Instant) (conn : Connection) :
    (((cleanupConnection node now conn).apps a).socketsOf u).Nodup := by
  obtain ⟨left, hWithin, hApps⟩ := users_cleanupConnection node now conn
  rw [← hWithin.socketsOf_eq] at h
  rw [hApps]
  split
  · cases conn.userId with
    | none => exact h
    | some userId =>
      change (((left.apps a).signedOut conn.socketId userId).socketsOf u).Nodup
      rw [socketsOf_signedOut]
      exact nodup_socketsOf_unbindUser h ..
  · exact h

theorem mem_connections_cleanupConnection {s : String} (now : Instant) (conn : Connection)
    (hs : s ≠ conn.socketId) (h : s ∈ (node.apps a).connections) :
    s ∈ ((cleanupConnection node now conn).apps a).connections := by
  obtain ⟨left, hWithin, hApps⟩ := users_cleanupConnection node now conn
  rw [← hWithin.connections_eq] at h
  rw [hApps]
  split
  · refine AList.mem_erase.mpr ⟨hs, ?_⟩
    cases conn.userId with
    | none => exact h
    | some userId =>
      dsimp only
      rw [connections_signedOut]
      exact h
  · exact h

theorem indexed_disconnect (hRecorded : Recorded σ) (h : Indexed σ) (now : Instant)
    (hConn : σ.connections.lookup socketId = some conn) :
    Indexed ⟨cleanupConnection σ.node now conn, σ.connections.erase socketId⟩ := by
  have hSocket := hRecorded.socketId _ _ hConn
  refine ⟨fun a u => nodup_socketsOf_cleanupConnection (h.once a u) .., fun a u s hs => ?_,
    fun s conn' hConn' => ?_⟩
  · obtain ⟨hOld, hOther⟩ := (mem_socketsOf_cleanupConnection ..).mp hs
    obtain ⟨conn', hConn', ha, hu⟩ := h.bound a u s hOld
    refine ⟨conn', ?_, ha, hu⟩
    dsimp only
    rw [lookup_erase_if, if_neg]
    · exact hConn'
    · rintro rfl
      rw [hConn] at hConn'
      cases hConn'
      exact hOther ⟨ha.symm, hu, hSocket.symm⟩
  · obtain ⟨hs, hConn'⟩ := lookup_erase_some hConn'
    exact mem_connections_cleanupConnection now conn (hSocket ▸ hs) (h.registered s conn' hConn')

theorem indexed_step (hRecorded : Recorded σ) (h : Indexed σ)
    (hStep : step prims σ action = some σ') : Indexed σ' := by
  refine step_of hStep (fun _ _ _ _ hFresh => indexed_connect h hFresh)
    (fun now _ text _ hConn => indexed_frame hRecorded h now text hConn)
    (fun now _ _ hConn => indexed_disconnect hRecorded h now hConn) fun hApart hConnections => ?_
  exact h.of_users (unbound_step hApart hStep) hConnections

end

theorem indexed_of_run {nodeId : String} {scaling : Bool} {table : AppTable} {run : List Action}
    {σ : ServerState} (hRun : exec (step prims) (new nodeId scaling table) run = some σ) :
    Indexed σ := by
  have hAlways : Always (step prims) (fun σ => Recorded σ ∧ Indexed σ)
      (new nodeId scaling table) run :=
    always_of_invariant (fun _ _ _ h hStep => ⟨recorded_step h.1 hStep, indexed_step h.1 h.2 hStep⟩)
      ⟨recorded_new nodeId scaling table, indexed_new nodeId scaling table⟩ run
  exact (hAlways.of_exec hRun).2

end Serving

end Zatat
