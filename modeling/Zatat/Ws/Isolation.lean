import Zatat.Ws.Serving

/-! # One application's operations leave the others alone

All maps of a node are keyed by the application in some component. An operation for one
application writes and sends only under its own id. The one exception is a record of a
withheld webhook that has expired: it is dropped with the next record that is noted, for
whatever application.
-/

namespace Zatat

open FiniteMap AList List

/-- What a server stores for one application, apart from the withheld reports. -/
structure TenantPart where
  rosters : String → Option (Map String PeerSnapshot)
  counts : String → Option (Map String CountEntry)
  sessions : Option (Map String UserSessionEntry)
  sequences : String → String → Option (Nat × Instant)

/-- The record stayed, or it had expired and is gone. -/
def Lapses (now : Instant) (noted after : Option Instant) : Prop :=
  after = noted ∨ (after = none ∧ ∃ at_, noted = some at_ ∧ withheldWindow ≤ durationSince now at_)

theorem Lapses.trans {now : Instant} {noted noted' noted'' : Option Instant}
    (h : Lapses now noted noted') (h' : Lapses now noted' noted'') : Lapses now noted noted'' := by
  rcases h with rfl | ⟨rfl, hOld⟩
  · exact h'
  · rcases h' with rfl | ⟨rfl, -⟩
    · exact .inr ⟨rfl, hOld⟩
    · exact .inr ⟨rfl, hOld⟩

namespace Server

def partOf (srv : Server) (b : String) : TenantPart where
  rosters c := srv.presenceCache.peers.lookup (b, c)
  counts c := srv.dispatcher.peerChannelCounts.inner.lookup (b, c)
  sessions := srv.dispatcher.peerUserSessions.inner.lookup b
  sequences origin key := srv.dispatcher.peerSeqs.lookup (origin, b, key)

def withheldOf (srv : Server) (b c : String) (userId : Option String) : Option Instant :=
  srv.dispatcher.withheld.lookup (b, c, userId)

/-- Between the two states nothing of the application `b` changed, but for expired
withheld reports, and nothing was sent to its connections. -/
structure Apart (b : String) (now : Instant) (srv srv' : Server) : Prop where
  config : srv'.config = srv.config
  part : srv'.partOf b = srv.partOf b
  withheld : ∀ c userId, Lapses now (srv.withheldOf b c userId) (srv'.withheldOf b c userId)
  sent : ∃ new, srv'.sent = srv.sent ++ new ∧ ∀ x ∈ new, x.app ≠ b

variable {b : String} {now : Instant}

namespace Apart

theorem of_same {srv srv' : Server} (hConfig : srv'.config = srv.config)
    (hPart : srv'.partOf b = srv.partOf b)
    (hWithheld : srv'.dispatcher.withheld = srv.dispatcher.withheld)
    (hSent : srv'.sent = srv.sent) : Apart b now srv srv' where
  config := hConfig
  part := hPart
  withheld c userId := .inl (by rw [withheldOf, hWithheld, withheldOf])
  sent := ⟨[], by rw [hSent, append_nil], fun _ h => absurd h not_mem_nil⟩

theorem refl (srv : Server) : Apart b now srv srv := of_same rfl rfl rfl rfl

theorem trans {srv srv' srv'' : Server} (h : Apart b now srv srv') (h' : Apart b now srv' srv'') :
    Apart b now srv srv'' := by
  obtain ⟨new, hNew, hOthers⟩ := h.sent
  obtain ⟨new', hNew', hOthers'⟩ := h'.sent
  refine ⟨h'.config.trans h.config, h'.part.trans h.part,
    fun c userId => (h.withheld c userId).trans (h'.withheld c userId), new ++ new', ?_, ?_⟩
  · rw [hNew', hNew, append_assoc]
  · intro x hx
    exact (mem_append.mp hx).elim (hOthers x) (hOthers' x)

end Apart

section

variable (srv : Server) {appId : String} (hId : appId ≠ b)
include hId

theorem apart_sendAll (sockets : List String) (item : Outbound) :
    Apart b now srv (srv.sendAll appId sockets item) where
  config := rfl
  part := rfl
  withheld _ _ := .inl rfl
  sent := ⟨sockets.map fun s => ⟨appId, s, item⟩, rfl, fun x hx => by
    obtain ⟨s, -, rfl⟩ := mem_map.mp hx
    exact hId⟩

end

theorem apart_enqueueWebhook (srv : Server) (appId : String) (event : WebhookEvent) :
    Apart b now srv (srv.enqueueWebhook appId event) := .of_same rfl rfl rfl rfl

theorem apart_spawnPublish (srv : Server) (env : ScalingEnvelope) :
    Apart b now srv (srv.publish (srv.dispatcher.spawnPublish env)) := by
  rw [EventDispatcher.spawnPublish]
  split_ifs <;> exact .of_same rfl rfl rfl rfl

theorem apart_withPresenceCache {srv : Server} {cache : PresenceCache}
    (hCache : ∀ c, cache.peers.lookup (b, c) = srv.presenceCache.peers.lookup (b, c)) :
    Apart b now srv (srv.withPresenceCache cache) :=
  .of_same rfl (congrArg (fun rosters => { srv.partOf b with rosters := rosters })
    (funext hCache)) rfl rfl

theorem apart_withCounts {srv : Server} {counts : PeerChannelCounts}
    (hCounts : ∀ c, counts.inner.lookup (b, c) =
      srv.dispatcher.peerChannelCounts.inner.lookup (b, c)) :
    Apart b now srv (srv.withCounts counts) :=
  .of_same rfl (congrArg (fun counts => { srv.partOf b with counts := counts })
    (funext hCounts)) rfl rfl

theorem apart_withSessions {srv : Server} {sessions : PeerUserSessions}
    (hSessions : sessions.inner.lookup b = srv.dispatcher.peerUserSessions.inner.lookup b) :
    Apart b now srv (srv.withSessions sessions) :=
  .of_same rfl (congrArg (fun sessions => { srv.partOf b with sessions := sessions })
    hSessions) rfl rfl

theorem otherKey {a : String} (hId : a ≠ b) (c c' : String) : (b, c) ≠ (a, c') :=
  fun hKey => hId (congrArg Prod.fst hKey).symm

section

variable (srv : Server) {app : Application} (hId : app.id ≠ b)
include hId

variable (at_ : Instant) (origin channel : String) (userId : Option String)

theorem apart_acceptSeq (key : String) (seq : Nat) :
    Apart b now srv (srv.acceptSeq at_ origin app key seq).2 := by
  have hOther (seqs : Nat × Instant) (origin' key' : String) :
      (srv.dispatcher.peerSeqs.insert (origin, app.id, key) seqs).lookup (origin', b, key') =
        srv.dispatcher.peerSeqs.lookup (origin', b, key') :=
    lookup_insert_ne fun hKey => hId (congrArg (fun k => k.2.1) hKey).symm
  have hCases : (srv.dispatcher.acceptSeq at_ origin app key seq).2 = srv.dispatcher ∨
      (srv.dispatcher.acceptSeq at_ origin app key seq).2 = { srv.dispatcher with
        peerSeqs := srv.dispatcher.peerSeqs.insert (origin, app.id, key) (seq, at_) } := by
    rw [EventDispatcher.acceptSeq]
    dsimp only
    split_ifs
    · exact .inl rfl
    · exact .inl rfl
    · exact .inr rfl
  change Apart b now srv
    { srv with dispatcher := (srv.dispatcher.acceptSeq at_ origin app key seq).2 }
  rcases hCases with hSame | hInserted
  · rw [hSame]
    exact .refl srv
  · rw [hInserted]
    exact .of_same rfl (congrArg (fun sequences => { srv.partOf b with sequences := sequences })
      (funext fun _ => funext fun _ => hOther ..)) rfl rfl

theorem apart_claimWithheld : Apart b now srv (srv.claimWithheld at_ app channel userId).2 := by
  change Apart b now srv
    { srv with dispatcher := (srv.dispatcher.claimWithheld at_ app channel userId).2 }
  rw [EventDispatcher.claimWithheld]
  split
  · refine ⟨rfl, rfl, fun c userId' => .inl ?_, [], (append_nil _).symm, ?_⟩
    · exact lookup_erase_ne fun hKey => hId (congrArg Prod.fst hKey).symm
    · exact fun _ h => absurd h not_mem_nil
  · exact .refl srv

theorem apart_noteWithheld :
    Apart b now srv (srv.publish (srv.dispatcher.noteWithheld now app channel userId)) := by
  refine ⟨rfl, rfl, fun c userId' => ?_, [], (append_nil _).symm, ?_⟩
  · have hKept : (srv.publish (srv.dispatcher.noteWithheld now app channel userId)).withheldOf b c
        userId' = (srv.withheldOf b c userId').filter
          fun at_ => decide (durationSince now at_ < withheldWindow) := by
      refine Eq.trans (lookup_insert_ne ?_) (lookup_retain ..)
      exact fun hKey => hId (congrArg Prod.fst hKey).symm
    rw [hKept]
    cases hNoted : srv.withheldOf b c userId' with
    | none => exact .inl rfl
    | some at_ =>
      by_cases hLive : durationSince now at_ < withheldWindow
      · exact .inl (by rw [Option.filter_some, if_pos (decide_eq_true hLive)])
      · refine .inr ⟨?_, at_, rfl, not_lt.mp hLive⟩
        rw [Option.filter_some, if_neg (by simpa using hLive)]
  · exact fun _ h => absurd h not_mem_nil

theorem apart_kept : Kept now app (Apart b now) where
  refl := .refl
  trans := .trans
  send srv sockets item _ := apart_sendAll srv hId sockets item
  enqueue srv event := apart_enqueueWebhook srv app.id event
  publish srv _ _ _ := apart_spawnPublish srv _
  takeSeq _ := .of_same rfl rfl rfl rfl
  note srv channel userId := apart_noteWithheld srv hId channel userId

theorem apart_keptBy : KeptBy now app origin (Apart b now) where
  toKept := apart_kept hId
  claim srv channel userId := apart_claimWithheld srv hId now channel userId
  accept srv key seq := apart_acceptSeq srv hId now origin key seq
  addLive srv channel _ _ :=
    apart_withPresenceCache fun c => lookup_insert_ne (otherKey hId c channel)
  removeLive srv channel userId := by
    refine apart_withPresenceCache fun c => ?_
    rw [PresenceCache.removeLive]
    split
    · rfl
    · exact lookup_insert_ne (otherKey hId c channel)
  insertSnapshot srv channel _ :=
    apart_withPresenceCache fun c => lookup_insert_ne (otherKey hId c channel)
  touch srv channel := by
    refine apart_withPresenceCache fun c => ?_
    rw [PresenceCache.touch]
    split
    · exact lookup_insert_ne (otherKey hId c channel)
    · rfl
  setCount srv channel _ :=
    apart_withCounts fun c => lookup_insert_ne (otherKey hId c channel)
  touchCount srv channel := by
    refine apart_withCounts fun c => ?_
    rw [PeerChannelCounts.touch]
    split
    · exact lookup_insert_ne (otherKey hId c channel)
    · rfl
  removeCount srv channel := by
    refine apart_withCounts fun c => ?_
    rw [PeerChannelCounts.remove]
    split
    · exact lookup_insert_ne (otherKey hId c channel)
    · rfl
  addSession srv _ := apart_withSessions (lookup_insert_ne hId.symm)
  removeSession srv userId := by
    refine apart_withSessions ?_
    rw [PeerUserSessions.remove]
    split
    · exact lookup_insert_ne hId.symm
    · rfl
  touchSessions srv := apart_withSessions (lookup_insert_ne hId.symm)

end

end Server

namespace Node

/-- `Server.Apart`, and the channels, connections, users and watch sets are the same. -/
structure Apart (b : String) (now : Instant) (node after : Node) : Prop where
  server : Server.Apart b now node.toServer after.toServer
  slot : after.apps b = node.apps b

variable {b : String} {now : Instant}

namespace Apart

theorem of_server {node after : Node} (hApps : after.apps = node.apps)
    (h : Server.Apart b now node.toServer after.toServer) : Apart b now node after :=
  ⟨h, by rw [hApps]⟩

theorem refl (node : Node) : Apart b now node node := .of_server rfl (.refl _)

theorem trans {node node' node'' : Node} (h : Apart b now node node')
    (h' : Apart b now node' node'') : Apart b now node node'' :=
  ⟨h.server.trans h'.server, h'.slot.trans h.slot⟩

theorem ite {c : Prop} [Decidable c] {node after after' : Node} (h : Apart b now node after)
    (h' : Apart b now node after') : Apart b now node (if c then after else after') := by
  split
  · exact h
  · exact h'

theorem foldl {τ ρ : Type} (view : τ → Node) {body : τ → ρ → τ}
    (hBody : ∀ t r, Apart b now (view t) (view (body t r))) (records : List ρ) (t : τ) :
    Apart b now (view t) (view (records.foldl body t)) :=
  records.foldlRecOn (motive := fun t' => Apart b now (view t) (view t')) body (refl _)
    fun t' h r _ => h.trans (hBody t' r)

end Apart

theorem apart_publish (node : Node) (env : ScalingEnvelope) :
    Apart b now node { node with dispatcher := node.dispatcher.spawnPublish env } :=
  .of_server rfl (Server.apart_spawnPublish ..)

section

variable (node : Node) {app : Application} (hId : app.id ≠ b)
include hId

theorem apart_setApp (slot : AppChannels) : Apart b now node (node.setApp app.id slot) :=
  ⟨.refl _, Function.update_of_ne hId.symm _ _⟩

theorem apart_sendAll (sockets : List String) (item : Outbound) :
    Apart b now node (node.setServer (node.sendAll app.id sockets item)) :=
  .of_server rfl (Server.apart_sendAll _ hId ..)

variable (at_ : Instant) (socketId channel event data userId : String)
  (watchlist : Option (List String)) (seq : Nat)

/-! ## Messages from the bus -/

theorem apart_broadcastLocallyWithApp (except : Option String) :
    Apart b now node (node.broadcastLocallyWithApp at_ app channel event data except) := by
  rw [broadcastLocallyWithApp]
  split
  · exact apart_sendAll _ hId ..
  · dsimp only
    split
    · exact .refl _
    · exact (apart_setApp _ hId _).trans (apart_sendAll (node.setApp app.id _) hId ..)

theorem apart_handlePayload (payload : ScalingPayload) :
    Apart b now node (node.handlePayload now app seq payload) := by
  refine handlePayload_of_applied (P := Apart b now node) node now app seq payload (.refl _) ?_
  have hProtocol (h : payload.isProtocol = true) :
      Apart b now node (node.applyPayload now app seq payload) := by
    have hMoves : Moves (Server.Apart b now) node (node.applyPayload now app seq payload) :=
      node.moves_applyPayload seq (Server.apart_kept hId)
        (fun origin _ => Server.apart_keptBy hId origin) (fun _ _ => .of_same rfl rfl rfl rfl) h
    exact .of_server hMoves.apps hMoves.server
  cases payload with
  | Message origin channel event data except =>
    exact apart_broadcastLocallyWithApp _ hId ..
  | ClientEvent origin channel event data socketId userId =>
    rw [applyPayload]
    split
    · exact .refl _
    · exact apart_sendAll _ hId ..
  | UserEvent origin userId event data => exact apart_sendAll _ hId ..
  | _ => exact hProtocol rfl

/-! ## Frames and disconnects -/

theorem apart_replyTo (frame : Frame) : Apart b now node (node.replyTo app.id socketId frame) :=
  apart_sendAll node hId ..

theorem apart_replayCache (cachedPayload : Option EventPayload) :
    Apart b now node (node.replayCache at_ app socketId channel cachedPayload) := by
  unfold replayCache
  split
  · exact apart_replyTo node hId ..
  · split
    · exact apart_replyTo node hId ..
    · rename_i ch _
      have hClaimed (node : Node) (notify : Bool) : Apart b now node (if notify then
          node.setServer (node.enqueueWebhook app.id (.CacheMiss channel)) else node) := by
        split
        · exact .of_server rfl (Server.apart_enqueueWebhook ..)
        · exact .refl node
      exact (apart_setApp node hId _).trans ((hClaimed _ _).trans (apart_replyTo _ hId ..))

theorem apart_handleSubscribe (presence : Option PresenceMember) :
    Apart b now node (node.handleSubscribe now app socketId channel presence) := by
  refine handleSubscribe_of (P := Apart b now node) node now app socketId channel presence
    (fun _ => ?_) (fun _ => ?_) (fun hJoined => hJoined.trans (apart_replayCache _ hId ..))
  · exact (apart_setApp node hId _).trans (apart_replyTo (node.setApp app.id _) hId ..)
  · exact ⟨((Server.apart_kept hId).onSubscribed ..).trans (Server.apart_sendAll _ hId ..),
      Function.update_of_ne hId.symm _ _⟩

theorem apart_leaveChannel : Apart b now node (node.leaveChannel now app socketId channel) := by
  cases hFind : node.findChannel app.id channel with
  | none =>
    rw [leaveChannel_none _ _ _ _ _ hFind]
    exact .refl node
  | some ch =>
    rw [leaveChannel_some _ _ _ _ _ hFind]
    exact ⟨(Server.apart_kept hId).onUnsubscribed .., Function.update_of_ne hId.symm _ _⟩

theorem apart_watchAny : Apart b now node (node.watchAny at_ app socketId userId watchlist) := by
  cases watchlist with
  | none => exact .refl node
  | some list => exact (apart_setApp node hId _).trans (apart_replyTo _ hId ..)

theorem apart_signIn : Apart b now node (node.signIn at_ app socketId userId watchlist) := by
  exact (apart_setApp node hId _).trans ((apart_watchAny _ hId at_ socketId userId watchlist).trans
      ((Apart.ite (.refl _) (apart_sendAll _ hId ..)).trans (.ite (apart_publish ..) (.refl _))))

theorem apart_signOut : Apart b now node (node.signOut at_ app socketId userId) := by
  rw [signOut]
  dsimp only
  split
  · exact (apart_setApp node hId _).trans ((Apart.ite (.refl _) (apart_sendAll _ hId ..)).trans
      ((apart_publish ..).trans (apart_setApp _ hId _)))
  · exact apart_setApp node hId _

theorem apart_relayClientEvent (conn : Connection) (channel event data : String) (ch : Channel) :
    Apart b now node (node.relayClientEvent app conn channel event data ch) := by
  have hPublished (node : Node) (sender : Option String) : Apart b now node
      (node.publishClientEvent app channel event data conn.socketId sender) := by
    rw [publishClientEvent]
    split
    · exact apart_publish ..
    · exact .refl node
  exact (apart_sendAll node hId ..).trans ((hPublished _ _).trans
    (.of_server rfl (Server.apart_enqueueWebhook ..)))

end

end Node

end Zatat
