import Zatat.Ws.Bookkeeping

/-! # The event a channel keeps

Joins, leaves, sign-ins, the messages of the peers and the sweeps leave the stored event
of a channel as it is. What has expired stays expired, and a channel is only dropped when
it has nothing to replay.
-/

namespace Zatat

open FiniteMap AppChannels Option Channel

theorem CachedPayload.live_anti {ttl : Option Duration} {now t : Instant} (h : now ≤ t)
    {e : CachedPayload} (hLive : e.live ttl t = true) : e.live ttl now = true := by
  cases ttl with
  | none => rfl
  | some ttl =>
    rw [live, Bool.not_eq_true', decide_eq_false_iff_not, not_lt] at hLive ⊢
    exact (durationSince_mono h e.insertedAt).trans hLive

theorem Channel.cachedPayloadAt_none {ch : Channel} {now t : Instant} (h : now ≤ t)
    (hNone : ch.cachedPayloadAt now = none) : ch.cachedPayloadAt t = none := by
  rw [cachedPayloadAt] at hNone ⊢
  split
  · rename_i hCache
    rw [if_pos hCache, map_eq_none_iff, filter_eq_none_iff] at hNone
    rw [map_eq_none_iff, filter_eq_none_iff]
    exact fun e he hLive => hNone e he (CachedPayload.live_anti h hLive)
  · rfl

theorem Channel.cachedPayloadAt_congr {ch ch' : Channel} (hKind : ch'.kind = ch.kind)
    (hCached : ch'.cachedPayload = ch.cachedPayload) (hTtl : ch'.cacheTtl = ch.cacheTtl)
    (t : Instant) : ch'.cachedPayloadAt t = ch.cachedPayloadAt t := by
  rw [cachedPayloadAt, cachedPayloadAt, hKind, hCached, hTtl]

theorem Channel.cachedPayloadAt_subscribe (ch : Channel) (s : String)
    (presence : Option PresenceMember) (t : Instant) :
    (ch.subscribe s presence).2.cachedPayloadAt t = ch.cachedPayloadAt t :=
  cachedPayloadAt_congr (ch.subscribe_kind s presence) (ch.subscribe_cache s presence).1
    (ch.subscribe_cache s presence).2 t

theorem Channel.cachedPayloadAt_unsubscribe (ch : Channel) (s : String) (t : Instant) :
    (ch.unsubscribe s).2.cachedPayloadAt t = ch.cachedPayloadAt t :=
  cachedPayloadAt_congr (ch.unsubscribe_kind s) (ch.unsubscribe_cache s).1
    (ch.unsubscribe_cache s).2 t

theorem Channel.cachedPayloadAt_claimCacheMissNotification (ch : Channel) (now t : Instant) :
    (ch.claimCacheMissNotification now).2.cachedPayloadAt t = ch.cachedPayloadAt t := by
  rw [claimCacheMissNotification]
  split
  · split <;> rfl
  · rfl

namespace AppChannels

theorem channels_signedIn (slot : AppChannels) (socketId userId : String)
    (watchlist : Option (List String)) :
    (slot.signedIn socketId userId watchlist).channels = slot.channels := by
  have hAdded (list : List String) (slot : AppChannels) :
      (slot.addWatchers list userId).channels = slot.channels := by
    induction list generalizing slot with
    | nil => rfl
    | cons watched list ih => exact ih (slot.addWatcher watched userId)
  cases watchlist with
  | none => rfl
  | some list => exact hAdded list _

def eventAt (slot : AppChannels) (t : Instant) (c : String) : Option EventPayload :=
  (slot.findChannel c).bind fun ch => ch.cachedPayloadAt t

variable {slot : AppChannels} {t now : Instant}

theorem eventAt_congr {slot' : AppChannels} (h : slot'.channels = slot.channels) (t : Instant)
    (c : String) : slot'.eventAt t c = slot.eventAt t c := by
  rw [eventAt, findChannel, h]
  rfl

theorem eventAt_setChannel {name : String} {ch : Channel}
    (hSame : ch.cachedPayloadAt t = slot.eventAt t name) (c : String) :
    (slot.setChannel name ch).eventAt t c = slot.eventAt t c := by
  rw [eventAt, findChannel_setChannel]
  split
  · rename_i hc
    rw [hc, bind_some, hSame]
  · rfl

theorem eventAt_entryOrNew (slot : AppChannels) (app : Application) (name : String)
    (t : Instant) : (slot.entryOrNew app name).cachedPayloadAt t = slot.eventAt t name := by
  rw [entryOrNew, eventAt, findChannel]
  cases slot.channels.lookup name with
  | some ch => rfl
  | none =>
    rw [getD_none, cachedPayloadAt]
    split <;> rfl

theorem eventAt_filter (h : now ≤ t) {c : String} {found : Option Channel}
    (hFound : found.bind (fun ch => ch.cachedPayloadAt t) =
      slot.eventAt t c) (p : Channel → Bool) (hp : ∀ ch, p ch = false → removable now ch = true) :
    (found.filter p).bind (fun ch => ch.cachedPayloadAt t) = slot.eventAt t c := by
  rw [← hFound]
  cases found with
  | none => rfl
  | some ch =>
    cases hKeep : p ch with
    | true => rw [filter_some, if_pos hKeep]
    | false =>
      have hRemovable := hp ch hKeep
      rw [removable, Bool.and_eq_true, isNone_iff_eq_none] at hRemovable
      rw [filter_some, hKeep, if_neg Bool.false_ne_true, bind_some,
        cachedPayloadAt_none h hRemovable.2]
      rfl

theorem eventAt_removeUnused (slot : AppChannels) (h : now ≤ t) (name c : String) :
    (slot.removeUnused now name).eventAt t c = slot.eventAt t c := by
  rw [eventAt, findChannel_removeUnused]
  split
  · rename_i hc
    rw [← hc]
    exact eventAt_filter h rfl _ fun ch hDrop => by rwa [Bool.not_eq_false'] at hDrop
  · rfl

theorem eventAt_gcEmptyCacheChannels (slot : AppChannels) (h : now ≤ t) (c : String) :
    (slot.gcEmptyCacheChannels now).eventAt t c = slot.eventAt t c := by
  have hFind : (slot.gcEmptyCacheChannels now).findChannel c =
      (slot.findChannel c).filter fun ch => !(ch.kind.isCache && removable now ch) :=
    lookup_retain ..
  rw [eventAt, hFind]
  refine eventAt_filter h rfl _ fun ch hDrop => ?_
  rw [Bool.not_eq_false', Bool.and_eq_true] at hDrop
  exact hDrop.2

end AppChannels

namespace Node

theorem apps_relayClientEvent (node : Node) (app : Application) (conn : Connection)
    (channel event data : String) (ch : Channel) :
    (node.relayClientEvent app conn channel event data ch).apps = node.apps := by
  have hPublished (node : Node) (sender : Option String) :
      (node.publishClientEvent app channel event data conn.socketId sender).apps = node.apps := by
    rw [publishClientEvent]
    split <;> rfl
  exact hPublished _ _

/-- From this moment on both states replay the same for the channel. -/
structure KeepsEvent (now : Instant) (a c : String) (node after : Node) : Prop where
  same : ∀ t, now ≤ t → (after.apps a).eventAt t c = (node.apps a).eventAt t c

variable {now : Instant} {a c : String}

namespace KeepsEvent

theorem of_apps {node after : Node} (h : after.apps = node.apps) :
    KeepsEvent now a c node after := by
  refine ⟨fun t _ => ?_⟩
  rw [h]

theorem refl (node : Node) : KeepsEvent now a c node node := .of_apps rfl

theorem trans {node node' node'' : Node} (h : KeepsEvent now a c node node')
    (h' : KeepsEvent now a c node' node'') : KeepsEvent now a c node node'' :=
  ⟨fun t ht => (h'.same t ht).trans (h.same t ht)⟩

theorem setServer {node after : Node} (h : KeepsEvent now a c node after) (srv : Server) :
    KeepsEvent now a c node (after.setServer srv) :=
  h.trans (.of_apps rfl)

theorem foldl {ρ : Type} {body : Node → ρ → Node}
    (hBody : ∀ node r, KeepsEvent now a c node (body node r)) (records : List ρ) (node : Node) :
    KeepsEvent now a c node (records.foldl body node) :=
  records.foldlRecOn (motive := KeepsEvent now a c node) body (refl node)
    fun node' h r _ => h.trans (hBody node' r)

theorem setApp {node : Node} {id : String} {slot : AppChannels}
    (h : ∀ t, now ≤ t → slot.eventAt t c = (node.apps id).eventAt t c) :
    KeepsEvent now a c node (node.setApp id slot) := by
  refine ⟨fun t ht => ?_⟩
  rw [apps_setApp]
  split
  · rename_i ha
    rw [ha]
    exact h t ht
  · rfl

end KeepsEvent

variable (prims : Primitives) (node : Node) (at_ : Instant) {app : Application} {channel : String}

/-! ## Joins, leaves and sign-ins -/

theorem keepsEvent_replayCache (now : Instant) (app : Application) (socketId channel : String)
    (cachedPayload : Option EventPayload) :
    KeepsEvent now a c node (node.replayCache now app socketId channel cachedPayload) := by
  unfold replayCache
  split
  · exact .of_apps rfl
  · split
    · exact .of_apps rfl
    · rename_i ch hFind
      have hSet : KeepsEvent now a c node (node.setApp app.id
          ((node.apps app.id).setChannel channel (ch.claimCacheMissNotification now).2)) := by
        refine .setApp fun t _ => eventAt_setChannel ?_ c
        rw [ch.cachedPayloadAt_claimCacheMissNotification, eventAt]
        rw [Node.findChannel] at hFind
        rw [hFind]
        rfl
      dsimp only
      split
      · exact (hSet.setServer _).setServer _
      · exact hSet.setServer _

theorem keepsEvent_handleSubscribe (now : Instant) (app : Application) (socketId channel : String)
    (presence : Option PresenceMember) :
    KeepsEvent now a c node (node.handleSubscribe now app socketId channel presence) := by
  have hEntry (t : Instant) := (node.apps app.id).eventAt_entryOrNew app channel t
  refine handleSubscribe_of (P := KeepsEvent now a c node) node now app socketId channel presence
    (fun _ => ?_) (fun _ => ?_) (fun hJoined => hJoined.trans (keepsEvent_replayCache ..))
  · refine KeepsEvent.setServer (.setApp fun t ht => ?_) _
    rw [eventAt_removeUnused _ ht]
    exact eventAt_setChannel (hEntry t) c
  · refine KeepsEvent.setServer (.setApp fun t _ => eventAt_setChannel ?_ c) _
    rw [joinedChannel, cachedPayloadAt_subscribe, hEntry]

theorem keepsEvent_leaveChannel (now : Instant) (app : Application) (socketId channel : String) :
    KeepsEvent now a c node (node.leaveChannel now app socketId channel) := by
  cases hFind : node.findChannel app.id channel with
  | none =>
    rw [leaveChannel_none _ _ _ _ _ hFind]
    exact .of_apps rfl
  | some ch =>
    rw [leaveChannel_some _ _ _ _ _ hFind]
    refine KeepsEvent.setServer (.setApp fun t ht => ?_) _
    rw [eventAt_removeUnused _ ht]
    refine eventAt_setChannel ?_ c
    rw [cachedPayloadAt_unsubscribe, eventAt]
    rw [Node.findChannel] at hFind
    rw [hFind]
    rfl

theorem keepsEvent_signIn (now : Instant) (app : Application) (socketId userId : String)
    (watchlist : Option (List String)) :
    KeepsEvent now a c node (node.signIn now app socketId userId watchlist) := by
  refine ⟨fun t _ => ?_⟩
  rw [apps_signIn]
  split
  · exact eventAt_congr (channels_signedIn ..) t c
  · rfl

theorem keepsEvent_cleanupConnection (now : Instant) (conn : Connection) :
    KeepsEvent now a c node (Inbound.cleanupConnection node now conn) := by
  have hLeft : KeepsEvent now a c node (conn.subscriptions.keys.foldl (fun (node : Node) name =>
      node.leaveChannel now conn.app conn.socketId name) node) :=
    .foldl (fun node name => node.keepsEvent_leaveChannel now conn.app conn.socketId name) _ node
  refine ⟨fun t ht => ?_⟩
  rw [← hLeft.same t ht, eventAt, eventAt]
  exact congrArg (fun found => Option.bind found fun ch => ch.cachedPayloadAt t)
    (Serving.findChannel_cleanupConnection node now conn a c)

theorem keepsEvent_handleInbound (now : Instant) (conn : Connection) (text : String) :
    KeepsEvent now a c node (Inbound.handleInbound prims node now conn text).1 := by
  refine Serving.handleInbound_of (P := fun r => KeepsEvent now a c node r.1) fun answer hAnswer =>
    ?_
  cases hAnswer with
  | replied | ignored => exact .of_apps rfl
  | subscribe => exact keepsEvent_handleSubscribe ..
  | unsubscribe => exact keepsEvent_leaveChannel ..
  | @signin _ req =>
    have hSigned : KeepsEvent now a c node ((node.replyTo (node.liveApp conn).id conn.socketId
        (.signinSuccess req.userData)).signIn now (node.liveApp conn) conn.socketId req.userId
        req.watchlist) :=
      ((KeepsEvent.refl node).setServer _).trans (keepsEvent_signIn ..)
    dsimp only [Inbound.acceptSignin, Answer.queued]
    split
    · exact hSigned.setServer _
    · exact hSigned
  | client => exact .of_apps (apps_relayClientEvent ..)

/-! ## Publications to another channel -/

theorem keepsEvent_broadcastLocallyWithApp (hOther : ¬ (app.id = a ∧ channel = c))
    (event data : String) (except : Option String) : KeepsEvent now a c node
      (node.broadcastLocallyWithApp at_ app channel event data except) := by
  have hSlot (found : Option Channel) (slot : AppChannels)
      (hTaken : (node.apps app.id).getOrCreateCacheChannel app channel = (found, slot))
      (ch : Channel) : KeepsEvent now a c node
        (node.setApp app.id (slot.setChannel channel ch)) := by
    refine ⟨fun t _ => ?_⟩
    rw [apps_setApp]
    split
    · rename_i ha
      have hc : c ≠ channel := fun hc => hOther ⟨ha.symm, hc.symm⟩
      have hFind : slot.findChannel c = (node.apps app.id).findChannel c := by
        rw [getOrCreateCacheChannel] at hTaken
        split at hTaken
        · cases hTaken
          rw [findChannel_setChannel, if_neg hc]
        · cases hTaken
          rfl
      rw [eventAt, findChannel_setChannel, if_neg hc, hFind, ha]
      rfl
    · rfl
  rw [broadcastLocallyWithApp]
  split
  · exact .of_apps rfl
  · dsimp only
    split
    · exact .of_apps rfl
    · exact (hSlot _ _ rfl _).setServer _

theorem keepsEvent_dispatchMessage (moment : Moment) (hOther : ¬ (app.id = a ∧ channel = c))
    (event data : String) (except : Option String) : KeepsEvent now a c node
      (node.dispatchMessage prims moment app channel event data except).2 := by
  rw [dispatchMessage]
  split
  · exact .refl node
  · rename_i data _
    have hSent : KeepsEvent now a c node
        (node.broadcastLocallyWithApp moment.now app channel event data except) :=
      keepsEvent_broadcastLocallyWithApp node moment.now hOther event data except
    dsimp only
    split
    · exact hSent.trans (.of_apps rfl)
    · exact hSent

theorem keepsEvent_dispatchChannels (moments : Nat → Moment) (event data : String)
    (except : Option String) (k : Nat) {channels : List String}
    (hOther : ¬ (app.id = a ∧ c ∈ channels)) : KeepsEvent now a c node
      (Http.dispatchChannels prims moments app event data except node k channels).2 := by
  refine Http.dispatchChannels_keeps .refl .trans (fun node moment channel hMem => ?_) node k
  have hElsewhere : ¬ (app.id = a ∧ channel = c) := fun h => hOther ⟨h.1, h.2 ▸ hMem⟩
  exact keepsEvent_dispatchMessage prims node moment hElsewhere event data except

/-! ## What touches no channel -/

theorem apps_presenceCacheGc (now : Instant) : (node.presenceCacheGc now).apps = node.apps := by
  have hMember (node : Node) (m : ExpiredMember) : (gcMember now node m).apps = node.apps := by
    rw [gcMember]
    split
    · rfl
    · split <;> rfl
  have hCount (node : Node) (x : ExpiredCount) : (gcCount now node x).apps = node.apps := by
    rw [gcCount]
    split
    · rfl
    · dsimp only
      split
      · rfl
      · split <;> rfl
  have hSession (node : Node) (x : ExpiredSession) : (gcSession now node x).apps = node.apps := by
    rw [gcSession]
    split
    · rfl
    · split <;> rfl
  exact presenceCacheGc_keeps (R := fun before after => after.apps = before.apps) (fun _ => rfl)
    (fun hFirst hSecond => hSecond.trans hFirst) (fun _ => rfl) (fun _ => rfl) (fun _ => rfl)
    (fun _ => rfl) hMember hCount hSession node

theorem keepsEvent_handlePayload (app : Application) (seq : Nat) {payload : ScalingPayload}
    (hOther : ∀ origin event data except, payload = .Message origin c event data except →
      app.id ≠ a) : KeepsEvent now a c node (node.handlePayload at_ app seq payload) := by
  cases payload with
  | Message origin channel event data except =>
    refine handlePayload_of_applied (P := KeepsEvent now a c node) node at_ app seq _
      (.refl node) (keepsEvent_broadcastLocallyWithApp node at_ ?_ event data except)
    rintro ⟨ha, rfl⟩
    exact hOther origin event data except rfl ha
  | _ => exact .of_apps (node.moves_unless_message at_ app seq (by rintro _ _ _ _ _ ⟨⟩)).apps

end Node

end Zatat
