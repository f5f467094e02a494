import Zatat.Http.Routes
import Zatat.Ws.Footprint
import Zatat.Ws.Inbound

/-! # The footprint of every operation

One lemma for each operation of a node: bus messages, joins and leaves, the
periodic tasks, publications over HTTP and sign-ins.
-/

namespace Zatat

open FiniteMap Server Channel AppChannels

/-- The frames that an event on a channel leads to are within the footprint. -/
def Footprint.SendsEvent (f : Footprint) (a : String) (payload : EventPayload) : Prop :=
  ∀ s, f.sends ⟨a, s, .text (.event payload)⟩

/-- What a bus message leads to is within the footprint. -/
def Footprint.Admits (f : Footprint) (a : String) : ScalingPayload → Prop
  | .Message _ channel event data _ =>
    f.SendsEvent a ⟨event, data, channel⟩ ∧ f.stores a channel ⟨event, data, channel⟩
  | .ClientEvent _ channel event data _ userId =>
    ∀ s (user : Option String), (∀ u, user = some u → userId = some u) →
      f.sends ⟨a, s, .text (.clientEvent event data channel user)⟩
  | .UserEvent _ userId event data => f.SendsEvent a ⟨event, data, "#server-to-user-" ++ userId⟩
  | _ => True

theorem append_drop_of_startsWith {name start : String} (h : startsWith name start = true) :
    start ++ String.ofList (name.toList.drop start.length) = name := by
  obtain ⟨rest, hRest⟩ := List.isPrefixOf_iff_prefix.mp h
  apply String.toList_inj.mp
  rw [String.toList_append, String.toList_ofList, ← hRest, ← String.length_toList, List.drop_left]

namespace Node

variable {f : Footprint}

variable (node : Node) (now : Instant) (app : Application)
  (appId origin requestId socketId userId channel : String) (seq : Nat) {event data : String}
  {p : EventPayload}

/-! ## Bus messages -/

theorem within_emitLocalWatchlistEvent (eventName : String) :
    Within f node (node.emitLocalWatchlistEvent appId userId eventName) :=
  .of_server (emits_protocol _ _ _ rfl)

theorem within_deliverUserEventLocally {appId userId : String}
    (h : f.SendsEvent appId ⟨event, data, "#server-to-user-" ++ userId⟩) :
    Within f node (node.deliverUserEventLocally appId userId event data) :=
  .of_server (emits_sendAll _ _ _ h)

theorem within_broadcastLocallyWithApp {channel : String} (except : Option String)
    (hSends : f.SendsEvent app.id ⟨event, data, channel⟩)
    (hStores : f.stores app.id channel ⟨event, data, channel⟩) :
    Within f node (node.broadcastLocallyWithApp now app channel event data except) := by
  rw [broadcastLocallyWithApp]
  split
  · rename_i hUser
    refine within_deliverUserEventLocally node ?_
    rw [append_drop_of_startsWith hUser]
    exact hSends
  · dsimp only
    split
    · exact .refl node
    · rename_i ch hFound
      have hFind := (findChannel_getOrCreateCacheChannel ..).trans hFound
      have hSlot := (keeps_getOrCreateCacheChannel (node.apps app.id) app channel).trans
        (keeps_setCachedPayload hFind now hStores)
      exact (Within.of_slot hSlot).trans (.of_server (emits_sendAll _ _ _ hSends))

theorem within_closeSockets (sockets : List String) :
    Within f node (node.closeSockets appId sockets) :=
  .of_server (emits_protocol _ _ _ rfl)

theorem within_handlePayload {payload : ScalingPayload} (hPayload : f.Admits app.id payload) :
    Within f node (node.handlePayload now app seq payload) := by
  refine handlePayload_of_applied (P := Within f node) node now app seq payload (.refl node) ?_
  have hProtocol (h : payload.isProtocol = true) :
      Within f node (node.applyPayload now app seq payload) := by
    have hMoves := node.moves_applyPayload seq (emits_kept now app)
      (fun origin _ => emits_keptBy (f := f) now app origin)
      (fun _ _ => emits_dispatcher rfl) h
    exact .of_apps hMoves.apps hMoves.server
  cases payload with
  | Message origin channel event data except =>
    exact within_broadcastLocallyWithApp node now app except hPayload.1 hPayload.2
  | ClientEvent origin channel event data socketId userId =>
    rw [applyPayload]
    split
    · exact .refl node
    · refine .of_server (emits_sendAll _ _ _ fun s => hPayload s _ fun u hu => ?_)
      exact (Option.filter_eq_some_iff.mp hu).1
  | UserEvent origin userId event data => exact within_deliverUserEventLocally node hPayload
  | _ => exact hProtocol rfl

theorem within_seePeer (payload : ScalingPayload) : Within f node (node.seePeer now payload) := by
  have hMoves : Moves (Server.Emits f) node (node.seePeer now payload) :=
    node.moves_seePeer .refl (fun _ _ => emits_dispatcher rfl) payload
  exact .of_apps hMoves.apps hMoves.server

theorem within_handleIncoming {env : ScalingEnvelope}
    (hPayload : ∀ app, node.config env.app.id = some app → f.Admits app.id env.payload) :
    Within f node (node.handleIncoming now env) := by
  have hConfig : (node.seePeer now env.payload).config = node.config :=
    (node.within_seePeer now env.payload).server.config (f := f)
  rw [handleIncoming]
  split
  · exact .refl node
  · dsimp only
    split
    · exact within_seePeer ..
    · rename_i app hApp
      rw [hConfig] at hApp
      exact (within_seePeer ..).trans (within_handlePayload _ now app env.seq (hPayload app hApp))

/-! ## Joins and leaves -/

theorem within_replayCache {cachedPayload : Option EventPayload}
    (hCached : ∀ p, cachedPayload = some p → f.SendsEvent app.id p) :
    Within f node (node.replayCache now app socketId channel cachedPayload) := by
  have hMiss (node : Node) : Within f node (node.setServer
      (node.reply app.id socketId (.cacheMiss channel))) :=
    .of_server (emits_protocol _ _ _ rfl)
  cases cachedPayload with
  | some p => exact .of_server (emits_sendAll _ _ _ (hCached p rfl))
  | none =>
    unfold replayCache
    dsimp only
    split
    · exact hMiss node
    · rename_i ch hFind
      have hSlot : (node.apps app.id).findChannel channel = some ch := hFind
      have hClaim : Within f node (node.setApp app.id ((node.apps app.id).setChannel channel
          (ch.claimCacheMissNotification now).2)) := by
        refine .of_slot (keeps_setChannel _ (fun p hp => .inl ?_) (fun s => .inr ?_)
          (.inr ⟨ch, hSlot, (ch.claimCacheMissNotification_same now).2.1⟩))
        · rw [AppChannels.storedPayload, hSlot]
          rw [claimCacheMissNotification] at hp
          split at hp
          · split at hp <;> exact hp
          · exact hp
        · rw [(ch.claimCacheMissNotification_same now).1]
          exact (memberOf_of_find hFind s).symm
      split
      · exact hClaim.trans ((Within.of_server (emits_enqueueWebhook ..)).trans (hMiss _))
      · exact hClaim.trans (hMiss _)

theorem payload_of_cachedPayloadAt {ch : Channel} {now : Instant}
    (h : ch.cachedPayloadAt now = some p) :
    ch.cachedPayload.map CachedPayload.payload = some p := by
  rw [cachedPayloadAt] at h
  split at h
  · obtain ⟨e, hLive, hPayload⟩ := Option.map_eq_some_iff.mp h
    rw [(Option.filter_eq_some_iff.mp hLive).1, ← hPayload]
    rfl
  · cases h

theorem storedPayload_of_joinPayload {presence : Option PresenceMember}
    (h : node.joinPayload now app socketId channel presence = some p) :
    node.storedPayload app.id channel = some p := by
  rw [joinPayload] at h
  split at h
  · have hStored := payload_of_cachedPayloadAt h
    rw [joinedChannel, (subscribe_cache ..).1, storedPayload_entryOrNew] at hStored
    exact hStored
  · cases h

theorem within_handleSubscribe {socketId channel : String} (presence : Option PresenceMember)
    (hMoves : f.moves app.id channel socketId)
    (hCached : ∀ p, node.storedPayload app.id channel = some p → f.SendsEvent app.id p) :
    Within f node (node.handleSubscribe now app socketId channel presence) := by
  refine handleSubscribe_of (P := Within f node) node now app socketId channel presence
    (fun _ => ?_) (fun _ => ?_) (fun hJoined => hJoined.trans
      (within_replayCache _ now app socketId channel fun p hp =>
        hCached p (node.storedPayload_of_joinPayload now app socketId channel hp)))
  · have hSlot := (keeps_entryOrNew (f := f) (a := app.id) (node.apps app.id) app
      channel).trans (keeps_removeUnused _ now channel)
    exact (Within.of_slot hSlot).trans (.of_server (emits_protocol _ _ _ rfl))
  · have hSlot : AppChannels.Keeps f app.id (node.apps app.id)
        ((node.apps app.id).setChannel channel
          (node.joinedChannel app socketId channel presence).2) := by
      refine keeps_setChannel _ (fun p hp => .inl ?_) (fun s => ?_) ?_
      · rw [joinedChannel, (subscribe_cache ..).1, storedPayload_entryOrNew] at hp
        exact hp
      · by_cases hs : s = socketId
        · rw [hs]
          exact .inl hMoves
        · refine .inr ?_
          rw [joinedChannel, lookup_subscribe, if_neg hs]
          exact lookup_entryOrNew ..
      · rw [joinedChannel, subscribe_label]
        exact label_entryOrNew ..
    have hServer : Server.Emits f node.toServer
        (node.joinServer now app socketId channel presence) := by
      refine ((emits_kept now app).onSubscribed ..).trans (emits_protocol _ _ _ ?_)
      rw [joinReply]
      split <;> rfl
    exact (Within.of_slot hSlot).trans (.of_server hServer)

theorem within_leaveChannel {socketId channel : String} (hMoves : f.moves app.id channel socketId) :
    Within f node (node.leaveChannel now app socketId channel) := by
  cases hFind : node.findChannel app.id channel with
  | none =>
    rw [leaveChannel_none _ _ _ _ _ hFind]
    exact .refl node
  | some ch =>
    have hStored : (node.apps app.id).findChannel channel = some ch := hFind
    rw [leaveChannel_some _ _ _ _ _ hFind]
    have hLeft : AppChannels.Keeps f app.id (node.apps app.id)
        ((node.apps app.id).setChannel channel (ch.unsubscribe socketId).2) := by
      refine keeps_setChannel _ (fun p hp => .inl ?_) (fun s => ?_)
        (.inr ⟨ch, hStored, unsubscribe_label ..⟩)
      · rw [(unsubscribe_cache ..).1] at hp
        rw [AppChannels.storedPayload, hStored]
        exact hp
      · by_cases hs : s = socketId
        · rw [hs]
          exact .inl hMoves
        · refine .inr ?_
          rw [unsubscribe_members, lookup_erase_if, if_neg hs]
          exact (memberOf_of_find hStored s).symm
    exact (Within.of_slot (hLeft.trans (keeps_removeUnused _ now channel))).trans
      (.of_server ((emits_kept now app).onUnsubscribed ..))

/-! ## Periodic tasks -/

theorem within_publishSnapshotsForApp : Within f node (node.publishSnapshotsForApp app) :=
  .of_apps rfl ((emits_kept 0 app).publishSnapshotsForApp node)

theorem within_gcMember (node : Node) (member : ExpiredMember) :
    Within f node (gcMember now node member) := by
  rw [gcMember]
  split
  · exact .refl node
  · split
    · exact .refl node
    · exact .of_server ((emits_announceExpired ..).trans (emits_reportExpired ..))

theorem within_gcCount (node : Node) (expired : ExpiredCount) :
    Within f node (gcCount now node expired) := by
  rw [gcCount]
  split
  · exact .refl node
  · rename_i app hApp
    have hVacated (vacated : Bool) : Server.Emits f node.toServer
        (if vacated then node.enqueueWebhook app.id (.ChannelVacated expired.channel)
          else node.toServer) := by
      split
      · exact emits_enqueueWebhook ..
      · exact .refl _
    dsimp only
    split
    · exact .of_server (hVacated _)
    · split
      · exact .of_server (hVacated _)
      · exact .of_server ((hVacated _).trans (emits_protocol _ _ _ rfl))

theorem within_gcSession (node : Node) (expired : ExpiredSession) :
    Within f node (gcSession now node expired) := by
  rw [gcSession]
  split
  · exact .refl node
  · split
    · exact .refl node
    · exact .of_server (emits_protocol _ _ _ rfl)

theorem within_presenceCacheGc : Within f node (node.presenceCacheGc now) := by
  have hMembers (node : Node) : Within f node (node.sweepMembers now).2 :=
    .of_server (emits_withPresenceCache ..)
  have hCounts (node : Node) : Within f node (node.sweepCounts now).2 :=
    .of_apps rfl (emits_dispatcher rfl)
  have hSessions (node : Node) : Within f node (node.sweepSessions now).2 :=
    .of_apps rfl (emits_dispatcher rfl)
  have hSeqs (node : Node) : Within f node
      { node with dispatcher := node.dispatcher.gcPeerSequences now } :=
    .of_apps rfl (emits_dispatcher rfl)
  exact presenceCacheGc_keeps .refl .trans hMembers hCounts hSessions hSeqs
    (within_gcMember now) (within_gcCount now) (within_gcSession now) node

theorem within_gcEmptyCacheChannels : Within f node (node.gcEmptyCacheChannels now) :=
  ⟨.refl _, fun _ => keeps_gcEmptyCacheChannels ..⟩

/-! ## Publications -/

/-- What publishing this text on the channel leads to is within the footprint. -/
structure Publishable (f : Footprint) (app : Application) (channel event data : String) :
    Prop where
  sends : f.SendsEvent app.id ⟨event, data, channel⟩
  stores : f.stores app.id channel ⟨event, data, channel⟩
  publishes : ∀ origin except, f.publishes app.id (.Message origin channel event data except)

theorem within_dispatchMessage (prims : Primitives) (node : Node) (moment : Moment)
    (app : Application) (channel event data : String) (except : Option String)
    (h : ∀ sealedData, maybeEncrypt prims moment.nonce app (ChannelKind.fromName channel) channel
      data = .ok sealedData → Publishable f app channel event sealedData) :
    Within f node (node.dispatchMessage prims moment app channel event data except).2 := by
  rw [dispatchMessage]
  split
  · exact .refl node
  · rename_i sealedData hSealed
    have hEvent := h sealedData hSealed
    have hLocal := node.within_broadcastLocallyWithApp moment.now app except hEvent.sends
      hEvent.stores
    dsimp only
    split
    · exact hLocal.trans (.of_apps rfl (emits_spawnPublish _ rfl app 0 (hEvent.publishes _ except)))
    · exact hLocal

theorem within_dispatchUserEvent {userId : String}
    (hSends : f.SendsEvent app.id ⟨event, data, "#server-to-user-" ++ userId⟩)
    (hPublishes : ∀ origin, f.publishes app.id (.UserEvent origin userId event data)) :
    Within f node (node.dispatchUserEvent app userId event data) := by
  rw [dispatchUserEvent]
  split
  · exact (within_deliverUserEventLocally node hSends).trans
      (.of_apps rfl (emits_spawnPublish _ rfl app 0 (hPublishes _)))
  · exact within_deliverUserEventLocally node hSends

theorem within_publishTerminateUser : Within f node (node.publishTerminateUser app userId) := by
  rw [publishTerminateUser]
  split
  · exact .of_apps rfl (emits_publish_protocol _ app 0 rfl)
  · exact .refl node

theorem within_askFleet (query : MetricsQuery) :
    Within f node (node.askFleet app requestId query) := by
  have hOpen : Within f node (node.openRequest requestId) :=
    .of_apps rfl (emits_dispatcher rfl)
  rw [askFleet]
  split
  · exact hOpen.trans (.of_apps rfl (emits_publish_protocol _ app 0 rfl))
  · exact .refl node

theorem within_closeRequest : Within f node (node.closeRequest requestId) :=
  .of_apps rfl (emits_dispatcher rfl)

/-! ## Signing in and out -/

theorem within_replyTo {frame : Frame} (hFrame : (Outbound.text frame).isProtocol = true) :
    Within f node (node.replyTo appId socketId frame) :=
  .of_server (emits_protocol _ _ _ hFrame)

theorem within_users {node : Node} {a : String} {slot : AppChannels} (hBinds : f.binds a)
    (h : slot.channels = (node.apps a).channels) : Within f node (node.setApp a slot) :=
  .of_slot (.of_channels h (.inl hBinds))

theorem within_watch {app : Application} (hBinds : f.binds app.id) (socketId userId : String)
    (watchlist : List String) : Within f node (node.watch now app socketId userId watchlist) := by
  have hChannels (slot : AppChannels) :
      (watchlist.foldl (fun slot watched => slot.addWatcher watched userId) slot).channels =
        slot.channels := by
    induction watchlist generalizing slot with
    | nil => rfl
    | cons watched watchlist ih => exact ih (slot.addWatcher watched userId)
  exact (within_users hBinds (hChannels _)).trans (within_replyTo _ _ _ rfl)

theorem within_watchAny {app : Application} (hBinds : f.binds app.id) (socketId userId : String)
    (watchlist : Option (List String)) :
    Within f node (node.watchAny now app socketId userId watchlist) := by
  cases watchlist with
  | none => exact .refl node
  | some list => exact node.within_watch now hBinds socketId userId list

theorem within_signIn {app : Application} (hBinds : f.binds app.id) (socketId userId : String)
    (watchlist : Option (List String)) :
    Within f node (node.signIn now app socketId userId watchlist) := by
  have hBound : Within f node (node.setApp app.id
      ((node.apps app.id).bindUser userId socketId).2) := within_users hBinds rfl
  have hPublished (node : Node) : Within f node (node.publishUserOnline app userId) :=
    .of_apps rfl (emits_publish_protocol _ app 0 rfl)
  rw [signIn]
  exact hBound.trans ((within_watchAny _ now hBinds socketId userId watchlist).trans
    ((Within.ite (.refl _) (within_emitLocalWatchlistEvent ..)).trans
      (.ite (hPublished _) (.refl _))))

theorem within_signOut {app : Application} (hBinds : f.binds app.id) (socketId userId : String) :
    Within f node (node.signOut now app socketId userId) := by
  have hUnbound : Within f node (node.setApp app.id
      ((node.apps app.id).unbindUser userId socketId).2) :=
    within_users hBinds (channels_unbindUser ..)
  have hPublished (node : Node) : Within f node (node.publishUserOffline app userId) :=
    .of_apps rfl (emits_publish_protocol _ app 0 rfl)
  have hWatches (node : Node) : Within f node (node.setApp app.id
      ((node.apps app.id).removeAllWatchesFor userId)) := by
    refine within_users hBinds ?_
    rw [AppChannels.removeAllWatchesFor]
    split <;> rfl
  rw [signOut]
  dsimp only
  split
  · exact hUnbound.trans ((Within.ite (.refl _) (within_emitLocalWatchlistEvent ..)).trans
      ((hPublished _).trans (hWatches _)))
  · exact hUnbound

end Node

end Zatat
