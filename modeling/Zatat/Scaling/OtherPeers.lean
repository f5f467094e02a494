import Zatat.Ws.Elementary
import Zatat.Ws.Withholding

/-! # What the messages of one peer leave alone

A message writes only to the entries of the peer it comes from. So whatever the
others send, the entries of one peer stay as they are, and the webhooks only
grow.
-/

namespace Zatat

open FiniteMap Server PresenceCache List EventDispatcher PeerChannelCounts

namespace Server

/-- Between the two states the entries of the peer are the same, and nothing was
taken back from the webhooks. -/
structure Spares (peer : String) (srv srv' : Server) : Prop where
  roster : ∀ a c, srv'.presenceCache.roster a c peer = srv.presenceCache.roster a c peer
  count : ∀ a c, srv'.dispatcher.peerChannelCounts.entry a c peer =
    srv.dispatcher.peerChannelCounts.entry a c peer
  config : srv'.config = srv.config
  webhooks : srv.webhooks <+: srv'.webhooks

variable {peer : String}

namespace Spares

theorem refl (srv : Server) : Spares peer srv srv :=
  ⟨fun _ _ => rfl, fun _ _ => rfl, rfl, prefix_rfl⟩

theorem trans {srv srv' srv'' : Server} (h : Spares peer srv srv')
    (h' : Spares peer srv' srv'') : Spares peer srv srv'' :=
  ⟨fun a c => (h'.roster a c).trans (h.roster a c), fun a c => (h'.count a c).trans (h.count a c),
    h'.config.trans h.config, h.webhooks.trans h'.webhooks⟩

theorem of_known {srv srv' : Server} (hKnown : srv'.known = srv.known)
    (hConfig : srv'.config = srv.config) (hWebhooks : srv.webhooks <+: srv'.webhooks) :
    Spares peer srv srv' where
  roster a c := congrArg (fun k => k.presenceCache.roster a c peer) hKnown
  count a c := congrArg (fun k => k.peerChannelCounts.entry a c peer) hKnown
  config := hConfig
  webhooks := hWebhooks

end Spares

theorem spares_known {srv : Server} {d : EventDispatcher} (h : d.known = srv.dispatcher.known) :
    Spares peer srv { srv with dispatcher := d } :=
  .of_known h rfl prefix_rfl

theorem spares_sendAll (srv : Server) (appId : String) (sockets : List String) (item : Outbound) :
    Spares peer srv (srv.sendAll appId sockets item) :=
  .of_known rfl rfl prefix_rfl

theorem spares_withPresenceCache {srv : Server} {cache : PresenceCache}
    (hCache : ∀ a c, cache.roster a c peer = srv.presenceCache.roster a c peer) :
    Spares peer srv (srv.withPresenceCache cache) :=
  ⟨hCache, fun _ _ => rfl, rfl, prefix_rfl⟩

theorem spares_withCounts {srv : Server} {counts : PeerChannelCounts}
    (hCounts : ∀ a c, counts.entry a c peer = srv.dispatcher.peerChannelCounts.entry a c peer) :
    Spares peer srv (srv.withCounts counts) :=
  ⟨fun _ _ => rfl, hCounts, rfl, prefix_rfl⟩

theorem spares_withSessions (srv : Server) (sessions : PeerUserSessions) :
    Spares peer srv (srv.withSessions sessions) :=
  ⟨fun _ _ => rfl, fun _ _ => rfl, rfl, prefix_rfl⟩

theorem spares_kept (now : Instant) (app : Application) : Kept now app (Spares peer) where
  refl := .refl
  trans := .trans
  send srv sockets item _ := spares_sendAll srv app.id sockets item
  enqueue _ _ := .of_known rfl rfl (prefix_append ..)
  publish _ _ _ _ := spares_known (known_spawnPublish ..)
  takeSeq _ := spares_known rfl
  note _ _ _ := spares_known rfl

theorem spares_keptBy (now : Instant) (app : Application) {origin : String}
    (hOrigin : peer ≠ origin) : KeptBy now app origin (Spares peer) where
  toKept := spares_kept now app
  claim _ _ _ := spares_known (known_claimWithheld ..)
  accept srv key seq := by
    have hKnown := known_acceptSeq srv.dispatcher now origin app key seq
    refine ⟨fun a c => ?_, fun a c => ?_, rfl, prefix_rfl⟩
    · exact congrArg (fun k => k.presenceCache.roster a c peer) hKnown
    · exact congrArg (fun k => k.peerChannelCounts.entry a c peer) hKnown
  addLive srv channel userId userInfo := spares_withPresenceCache fun a c => by
    rw [roster_addLive, if_neg fun h => hOrigin h.2.2]
  removeLive srv channel userId := spares_withPresenceCache fun a c => by
    rw [roster_removeLive, if_neg fun h => hOrigin h.2.2]
  insertSnapshot srv channel members := spares_withPresenceCache fun a c => by
    rw [roster_insertSnapshot, if_neg fun h => hOrigin h.2.2]
  touch srv channel := spares_withPresenceCache fun a c => by
    rw [roster_touch, if_neg fun h => hOrigin h.2.2]
  setCount _ _ _ := spares_withCounts (entry_setEntry_of_ne _ _ _ hOrigin _)
  touchCount _ _ := spares_withCounts (entry_touch_of_ne _ _ _ _ hOrigin)
  removeCount _ _ := spares_withCounts (entry_remove_of_ne _ _ _ hOrigin)
  addSession srv _ := spares_withSessions srv _
  removeSession srv _ := spares_withSessions srv _
  touchSessions srv := spares_withSessions srv _

end Server

namespace Node

variable {peer : String}

variable (node : Node) (now : Instant) (app : Application) (socketId channel : String) (seq : Nat)

/-! ## Every message -/

theorem spares_broadcastLocallyWithApp (event data : String) (except : Option String) :
    Server.Spares peer node.toServer
      (node.broadcastLocallyWithApp now app channel event data except).toServer := by
  rw [broadcastLocallyWithApp]
  split
  · exact spares_sendAll ..
  · dsimp only
    split
    · exact .refl _
    · exact spares_sendAll ..

theorem spares_handlePayload {payload : ScalingPayload}
    (hOther : payloadNodeId payload ≠ some peer) :
    Server.Spares peer node.toServer (node.handlePayload now app seq payload).toServer := by
  refine handlePayload_of_applied
    (P := fun after => Server.Spares peer node.toServer after.toServer) node now app seq payload
    (.refl _) ?_
  have hProtocol (h : payload.isProtocol = true) :
      Server.Spares peer node.toServer (node.applyPayload now app seq payload).toServer := by
    refine (node.moves_applyPayload seq (spares_kept now app) (fun origin hOrigin => ?_)
      (fun _ _ => spares_known rfl) h).server
    exact spares_keptBy now app fun hEq => hOther (hEq ▸ hOrigin)
  cases payload with
  | Message origin channel event data except =>
    exact node.spares_broadcastLocallyWithApp now app channel event data except
  | ClientEvent origin channel event data socketId userId =>
    rw [applyPayload]
    split
    · exact .refl _
    · exact spares_sendAll ..
  | UserEvent origin userId event data => exact spares_sendAll ..
  | _ => exact hProtocol rfl

theorem spares_seePeer (payload : ScalingPayload) :
    Server.Spares peer node.toServer (node.seePeer now payload).toServer :=
  (node.moves_seePeer .refl (fun _ _ => ⟨fun _ _ => rfl, fun _ _ => rfl, rfl, prefix_rfl⟩)
    payload).server

theorem spares_handleIncoming {env : ScalingEnvelope}
    (hOther : payloadNodeId env.payload ≠ some peer) :
    Server.Spares peer node.toServer (node.handleIncoming now env).toServer := by
  rw [handleIncoming]
  split
  · exact .refl _
  · dsimp only
    split
    · exact spares_seePeer ..
    · exact (spares_seePeer ..).trans (spares_handlePayload _ now _ _ hOther)

/-! ## Joins and leaves -/

theorem spares_replayCache (cachedPayload : Option EventPayload) : Server.Spares peer node.toServer
      (node.replayCache now app socketId channel cachedPayload).toServer := by
  unfold replayCache
  split
  · exact spares_sendAll ..
  · split
    · exact spares_sendAll ..
    · dsimp only
      split
      · exact .of_known rfl rfl (prefix_append ..)
      · exact .of_known rfl rfl prefix_rfl

theorem spares_handleSubscribe (presence : Option PresenceMember) : Server.Spares peer node.toServer
      (node.handleSubscribe now app socketId channel presence).toServer := by
  refine handleSubscribe_of (P := fun after => Server.Spares peer node.toServer after.toServer) node
    now app socketId channel presence (fun _ => spares_sendAll ..) (fun _ => ?_)
    (fun hJoined => hJoined.trans (spares_replayCache ..))
  exact ((spares_kept now app).onSubscribed ..).trans (spares_sendAll ..)

theorem spares_leaveChannel : Server.Spares peer node.toServer
      (node.leaveChannel now app socketId channel).toServer := by
  cases hFind : node.findChannel app.id channel with
  | none =>
    rw [leaveChannel_none _ _ _ _ _ hFind]
    exact .refl _
  | some ch =>
    rw [leaveChannel_some _ _ _ _ _ hFind]
    exact (spares_kept now app).onUnsubscribed ..

end Node

/-! ## Heartbeats -/

theorem Node.spares_publishSnapshotsForApp {peer : String} (node : Node) (app : Application) :
    Server.Spares peer node.toServer (node.publishSnapshotsForApp app).toServer :=
  (spares_kept 0 app).publishSnapshotsForApp node

end Zatat
