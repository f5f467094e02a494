import Zatat.Channels.Membership
import Zatat.Ws.Histories
import Zatat.Ws.Rosters
import Zatat.Ws.View

/-! # What a join or a leave shows to the subscribers

For the announcements a join or a leave makes under the channel's lock: what
each local socket hears about each user. For the whole operation: whose
membership changes, and that nothing known about the peers does.
-/

namespace Zatat

open FiniteMap ChannelKind Server Channel Hearing AppChannels

namespace Server

variable (srv : Server) (now : Instant) (app : Application) (channel socketId : String)
  (presence : Option PresenceMember) (occupiedElsewhere remotelyPresent : Bool) (ch : Channel)
  (r : SubscribeResult) (outcome : UnsubscribeOutcome)

/-! ## What a join announces to the members -/

theorem heard_announceSubscriptionCount (localCount : Nat) (vacatedWithheld : Bool)
    (a s c v : String) : heard c v (framesTo (srv.announceSubscriptionCount now app ch localCount
      vacatedWithheld).sent a s) = heard c v (framesTo srv.sent a s) := by
  have hSent : (srv.announceSubscriptionCount now app ch localCount vacatedWithheld).sent =
      if app.emitSubscriptionCount then
        (srv.broadcastProtocol app.id ch (.subscriptionCount ch.name
          (localCount + srv.dispatcher.peerChannelCounts.sum now app.id ch.name)) none).sent
      else srv.sent := by
    rw [announceSubscriptionCount]
    split <;> rfl
  rw [hSent]
  split
  · rw [heard_broadcastProtocol]
    split
    · exact hearStep_of_none rfl rfl _
    · rfl
  · rfl

theorem heard_announceMemberAdded (pm : PresenceMember) (remotelyPresent : Bool) (ch : Channel)
    (a s c v : String) :
    heard c v (framesTo (srv.announceMemberAdded app channel socketId pm remotelyPresent ch).sent
      a s) = (heard c v (framesTo srv.sent a s)).hear
        (if (app.id = a ∧ channel = c ∧ s ∈ ch.members ∧ s ≠ socketId) ∧ pm.userId = v ∧
          remotelyPresent = false then [true] else []) := by
  have hFrames : framesTo (srv.announceMemberAdded app channel socketId pm remotelyPresent
      ch).sent a s = framesTo srv.sent a s ++
        if (app.id = a ∧ s ∈ ch.members ∧ s ≠ socketId) ∧ remotelyPresent = false then
          [.memberAdded channel pm.userId pm.userInfo] else [] := by
    cases remotelyPresent with
    | true =>
      rw [if_neg (by simp), List.append_nil]
      rfl
    | false =>
      refine (framesTo_broadcastProtocol ..).trans ?_
      simp [eq_comm]
  rw [hFrames]
  exact heard_append_change (Q := fun _ => remotelyPresent = false) rfl rfl

theorem heard_onSubscribed (a s c v : String) :
    heard c v (framesTo (srv.onSubscribed now app channel socketId presence occupiedElsewhere
      remotelyPresent ch r).sent a s) = (heard c v (framesTo srv.sent a s)).hear
        (if (app.id = a ∧ channel = c ∧ s ∈ ch.members ∧ s ≠ socketId) ∧
          presence.map PresenceMember.userId = some v ∧ r.wasNew = true ∧ r.userAdded = true ∧
          remotelyPresent = false then [true] else []) := by
  have hOccupied (p : Prop) [Decidable p] (event : WebhookEvent) :
      (if p then srv.enqueueWebhook app.id event else srv).sent = srv.sent := by
    split <;> rfl
  rw [onSubscribed]
  cases hNew : r.wasNew with
  | false => simp
  | true =>
    simp only [if_true, true_and]
    cases presence with
    | none =>
      rw [heard_announceSubscriptionCount, hOccupied]
      simp
    | some pm =>
      dsimp only
      cases hAdded : r.userAdded with
      | false =>
        simp only [Bool.false_eq_true, if_false, false_and, and_false, hear_nil]
        rw [hOccupied]
      | true =>
        simp only [if_true, true_and]
        rw [heard_announceMemberAdded, hOccupied]
        simp

/-! ## What a leave announces to the members -/

theorem heard_announceMemberRemoved (userId : String) (vacatedWithheld : Bool) (ch : Channel)
    (a s c v : String) :
    heard c v (framesTo (srv.announceMemberRemoved now app channel userId vacatedWithheld ch).sent
      a s) = (heard c v (framesTo srv.sent a s)).hear
        (if (app.id = a ∧ channel = c ∧ s ∈ ch.members) ∧ userId = v ∧
          srv.presenceCache.isPresentExcluding now app.id channel v none = false
        then [false] else []) := by
  have hFrames : framesTo (srv.announceMemberRemoved now app channel userId vacatedWithheld
      ch).sent a s = framesTo srv.sent a s ++ if (app.id = a ∧ s ∈ ch.members) ∧
          srv.presenceCache.isPresentExcluding now app.id channel userId none = false then
        [.memberRemoved channel userId] else [] := by
    rw [announceMemberRemoved]
    split
    · rw [if_neg (by simp [*]), List.append_nil]
      rfl
    · refine (framesTo_broadcastProtocol ..).trans ?_
      simp [*]
  rw [hFrames]
  exact heard_append_change
    (Q := fun u => srv.presenceCache.isPresentExcluding now app.id channel u none = false) rfl rfl

theorem heard_onUnsubscribed (a s c v : String) :
    heard c v (framesTo (srv.onUnsubscribed now app channel ch outcome).sent a s) =
      (heard c v (framesTo srv.sent a s)).hear
        (if (app.id = a ∧ channel = c ∧ s ∈ ch.members) ∧ outcome.userRemoved = some v ∧
          outcome.wasMember = true ∧ (fromName channel).isPresence = true ∧
          srv.presenceCache.isPresentExcluding now app.id channel v none = false
        then [false] else []) := by
  have hVacated (withheld : Bool) :
      (srv.announceVacated now app channel outcome.memberCount withheld).sent = srv.sent := by
    rw [announceVacated]
    split
    · rfl
    · split <;> rfl
  have hCache (withheld : Bool) :
      (srv.announceVacated now app channel outcome.memberCount withheld).presenceCache =
        srv.presenceCache :=
    congrArg EventDispatcher.PeerKnowledge.presenceCache (srv.known_announceVacated ..)
  rw [onUnsubscribed]
  cases hMember : outcome.wasMember with
  | false => simp
  | true =>
    simp only [if_true, true_and]
    cases hKind : (fromName channel).isPresence with
    | false =>
      simp only [Bool.false_eq_true, if_false, false_and, and_false, hear_nil]
      rw [heard_announceSubscriptionCount, hVacated]
    | true =>
      simp only [if_true, true_and]
      cases hRemoved : outcome.userRemoved with
      | none =>
        dsimp only
        rw [hVacated]
        simp
      | some u =>
        dsimp only
        rw [heard_announceMemberRemoved, hVacated, hCache]
        simp

/-! ## The application table -/

theorem config_onSubscribed :
    (srv.onSubscribed now app channel socketId presence occupiedElsewhere remotelyPresent
      ch r).config = srv.config := by
  rw [onSubscribed]
  cases presence with
  | none =>
    simp only [announceSubscriptionCount]
    split_ifs <;> rfl
  | some pm =>
    simp only [announceMemberAdded]
    split_ifs <;> rfl

theorem config_onUnsubscribed :
    (srv.onUnsubscribed now app channel ch outcome).config = srv.config := by
  rw [onUnsubscribed]
  cases outcome.userRemoved with
  | none =>
    simp only [announceSubscriptionCount, announceVacated]
    split_ifs <;> rfl
  | some u =>
    simp only [announceSubscriptionCount, announceVacated, announceMemberRemoved]
    split_ifs <;> rfl

end Server

namespace Node

def memberOf (node : Node) (a c s : String) : Option Member := (node.apps a).memberOf c s

def HasUser (node : Node) (a c u : String) : Prop := (node.apps a).HasUser c u

def WellFormed (node : Node) : Prop := ∀ a, (node.apps a).WellFormed

variable (node : Node) (now : Instant) (app : Application) {P : String → Channel → Prop}
  (appId socketId channel : String) (slot : AppChannels) (cachedPayload : Option EventPayload)
  (presence : Option PresenceMember) (a s c v : String)

theorem findChannel_setApp (name : String) :
    (node.setApp appId slot).findChannel appId name = slot.findChannel name := by
  rw [findChannel, setApp]
  dsimp only
  rw [Function.update_self]

theorem memberOf_setApp (s : String) : (node.setApp appId slot).memberOf a c s =
      if a = appId then slot.memberOf c s else node.memberOf a c s := by
  rw [memberOf, setApp]
  dsimp only
  rw [Function.update_apply]
  split <;> rfl

def Stores (P : String → Channel → Prop) (node : Node) : Prop := ∀ a, (node.apps a).Stores P

theorem wellFormed_iff_stores {node : Node} : node.WellFormed ↔ node.Stores Channel.Regular :=
  forall_congr' fun _ => AppChannels.wellFormed_iff_stores

theorem Stores.setApp {node : Node} (h : node.Stores P) {slot : AppChannels} (hSlot : slot.Stores P)
    (appId : String) : (node.setApp appId slot).Stores P := by
  intro a
  rw [Node.setApp]
  dsimp only
  rw [Function.update_apply]
  split
  · exact hSlot
  · exact h a

theorem WellFormed.setApp {node : Node} (h : node.WellFormed) {slot : AppChannels}
    (hSlot : slot.WellFormed) (appId : String) : (node.setApp appId slot).WellFormed :=
  wellFormed_iff_stores.mpr ((wellFormed_iff_stores.mp h).setApp
    (AppChannels.wellFormed_iff_stores.mp hSlot) appId)

/-! ## The replay on a cache channel -/

theorem replayCache_same :
    (node.replayCache now app socketId channel cachedPayload).known = node.known ∧
      (node.replayCache now app socketId channel cachedPayload).config = node.config := by
  unfold replayCache
  split
  · exact ⟨rfl, rfl⟩
  · split
    · exact ⟨rfl, rfl⟩
    · dsimp only
      split <;> exact ⟨rfl, rfl⟩

theorem heard_replayCache :
    heard c v (framesTo (node.replayCache now app socketId channel cachedPayload).sent a s) =
      heard c v (framesTo node.sent a s) := by
  have hReply (srv : Server) (frame : Frame) (hRoster : frame.roster c = none)
      (hChange : frame.change c v = none) :
      heard c v (framesTo (srv.reply app.id socketId frame).sent a s) =
        heard c v (framesTo srv.sent a s) := by
    rw [reply, heard_reply]
    split
    · exact hearStep_of_none hRoster hChange _
    · rfl
  unfold replayCache
  split
  · exact hReply node.toServer _ rfl rfl
  · split
    · exact hReply node.toServer _ rfl rfl
    · dsimp only
      split
      · exact hReply (node.toServer.enqueueWebhook app.id (.CacheMiss channel)) _ rfl rfl
      · exact hReply node.toServer _ rfl rfl

theorem memberOf_replayCache (s : String) :
    (node.replayCache now app socketId channel cachedPayload).memberOf a c s =
      node.memberOf a c s := by
  unfold replayCache
  split
  · rfl
  · split
    · rfl
    · rename_i ch hFind
      have hSet : (node.setApp app.id ((node.apps app.id).setChannel channel
          (ch.claimCacheMissNotification now).2)).memberOf a c s = node.memberOf a c s := by
        rw [memberOf_setApp, memberOf_setChannel, (ch.claimCacheMissNotification_same now).1]
        split
        · rename_i ha
          split
          · rename_i hc
            rw [ha, hc]
            exact (memberOf_of_find hFind s).symm
          · rw [ha]
            rfl
        · rfl
      dsimp only
      split <;> exact hSet

theorem Stores.replayCache (hP : Channel.Lasting P) {node : Node} (h : node.Stores P)
    (now : Instant) (app : Application) (socketId channel : String)
    (cachedPayload : Option EventPayload) :
    (node.replayCache now app socketId channel cachedPayload).Stores P := by
  unfold Node.replayCache
  split
  · exact h
  · split
    · exact h
    · rename_i ch hFind
      have hSet := h.setApp ((h app.id).setChannel
        (hP.claimCacheMissNotification now (h app.id channel ch hFind))) app.id
      dsimp only
      split <;> exact hSet

/-! ## A whole join -/

def admission (node : Node) (now : Instant) (app : Application) (channel : String)
    (presence : Option PresenceMember) : Admission :=
  node.admitJoin now app channel presence ((node.apps app.id).entryOrNew app channel)

def joinedChannel (node : Node) (app : Application) (socketId channel : String)
    (presence : Option PresenceMember) : SubscribeResult × Channel :=
  ((node.apps app.id).entryOrNew app channel).subscribe socketId presence

/-- The roster of the reply to an admitted join of a presence channel. -/
def joinReply (node : Node) (now : Instant) (app : Application) (socketId channel : String)
    (presence : Option PresenceMember) : Frame :=
  if (ChannelKind.fromName channel).isPresence then
    .subscriptionSucceeded channel
      ((node.joinedChannel app socketId channel presence).2.presenceSnapshot.map fun data =>
        if (node.admission now app channel presence).remoteMembers.isEmpty then data
        else mergePresence data (node.admission now app channel presence).remoteMembers)
  else .subscriptionSucceeded channel none

def joinServer (node : Node) (now : Instant) (app : Application) (socketId channel : String)
    (presence : Option PresenceMember) : Server :=
  (node.onSubscribed now app channel socketId presence
    (node.occupiedOnPeers now app channel (ChannelKind.fromName channel))
    (node.admission now app channel presence).remotelyPresent
    (node.joinedChannel app socketId channel presence).2
    (node.joinedChannel app socketId channel presence).1).reply app.id socketId
      (node.joinReply now app socketId channel presence)

def joinPayload (node : Node) (now : Instant) (app : Application) (socketId channel : String)
    (presence : Option PresenceMember) : Option EventPayload :=
  if (node.joinedChannel app socketId channel presence).2.kind.isCache then
    (node.joinedChannel app socketId channel presence).2.cachedPayloadAt now
  else none

def announced (node : Node) (now : Instant) (app : Application) (socketId channel : String)
    (presence : Option PresenceMember) : Node :=
  (node.setApp app.id ((node.apps app.id).setChannel channel
    (node.joinedChannel app socketId channel presence).2)).setServer
    (node.onSubscribed now app channel socketId presence
      (node.occupiedOnPeers now app channel (ChannelKind.fromName channel))
      (node.admission now app channel presence).remotelyPresent
      (node.joinedChannel app socketId channel presence).2
      (node.joinedChannel app socketId channel presence).1)

/-- The part of an admitted join after its announcements, on a cache channel. -/
def replayed (node : Node) (now : Instant) (app : Application) (socketId channel : String)
    (presence : Option PresenceMember) (joined : Node) : Node :=
  if (ChannelKind.fromName channel).isCache then
    joined.replayCache now app socketId channel
      (node.joinPayload now app socketId channel presence)
  else joined

theorem decideSubscribe_rejected
    (hReject : (node.admission now app channel presence).admitted = false) :
    node.decideSubscribe now app socketId channel presence =
      ⟨.errorWithMessage 4301 "Presence channel is over capacity",
        node.setApp app.id (((node.apps app.id).setChannel channel
          ((node.apps app.id).entryOrNew app channel)).removeUnused now channel), id⟩ := by
  rw [admission] at hReject
  rw [decideSubscribe, AppChannels.subscribeWith, hReject]
  rfl

theorem decideSubscribe_admitted
    (hAdmit : (node.admission now app channel presence).admitted = true) :
    node.decideSubscribe now app socketId channel presence =
      ⟨node.joinReply now app socketId channel presence,
        node.announced now app socketId channel presence,
        node.replayed now app socketId channel presence⟩ := by
  rw [admission] at hAdmit
  rw [decideSubscribe, AppChannels.subscribeWith, hAdmit]
  rfl

theorem handleSubscribe_rejected
    (hReject : (node.admission now app channel presence).admitted = false) :
    node.handleSubscribe now app socketId channel presence =
      (node.setApp app.id (((node.apps app.id).setChannel channel
        ((node.apps app.id).entryOrNew app channel)).removeUnused now channel)).setServer
        (node.reply app.id socketId
          (.errorWithMessage 4301 "Presence channel is over capacity")) := by
  rw [handleSubscribe, decideSubscribe_rejected _ _ _ _ _ _ hReject]
  rfl

/-- The node after an admitted join, before a cache channel greets its new member. -/
def joined (node : Node) (now : Instant) (app : Application) (socketId channel : String)
    (presence : Option PresenceMember) : Node :=
  (node.setApp app.id ((node.apps app.id).setChannel channel
    (node.joinedChannel app socketId channel presence).2)).setServer
    (node.joinServer now app socketId channel presence)

theorem handleSubscribe_admitted
    (hAdmit : (node.admission now app channel presence).admitted = true) :
    node.handleSubscribe now app socketId channel presence =
      if (fromName channel).isCache then
        (node.joined now app socketId channel presence).replayCache now app socketId channel
          (node.joinPayload now app socketId channel presence)
      else node.joined now app socketId channel presence := by
  rw [handleSubscribe, decideSubscribe_admitted _ _ _ _ _ _ hAdmit]
  rfl

theorem handleSubscribe_of {P : Node → Prop}
    (hRejected : (node.admission now app channel presence).admitted = false →
      P ((node.setApp app.id (((node.apps app.id).setChannel channel
        ((node.apps app.id).entryOrNew app channel)).removeUnused now channel)).setServer
        (node.reply app.id socketId (.errorWithMessage 4301 "Presence channel is over capacity"))))
    (hJoined : (node.admission now app channel presence).admitted = true →
      P (node.joined now app socketId channel presence))
    (hReplay : P (node.joined now app socketId channel presence) →
      P ((node.joined now app socketId channel presence).replayCache now app socketId channel
        (node.joinPayload now app socketId channel presence))) :
    P (node.handleSubscribe now app socketId channel presence) := by
  cases hAdmit : (node.admission now app channel presence).admitted with
  | false =>
    rw [handleSubscribe_rejected _ _ _ _ _ _ hAdmit]
    exact hRejected hAdmit
  | true =>
    rw [handleSubscribe_admitted _ _ _ _ _ _ hAdmit]
    split
    · exact hReplay (hJoined hAdmit)
    · exact hJoined hAdmit

theorem handleSubscribe_same :
    (node.handleSubscribe now app socketId channel presence).known = node.known ∧
      (node.handleSubscribe now app socketId channel presence).config = node.config := by
  refine handleSubscribe_of (P := fun after => after.known = node.known ∧
    after.config = node.config) node now app socketId channel presence (fun _ => ⟨rfl, rfl⟩)
    (fun _ => ?_) (fun hJoined => ?_)
  · exact ⟨known_onSubscribed .., config_onSubscribed ..⟩
  · exact ⟨(replayCache_same ..).1.trans hJoined.1, (replayCache_same ..).2.trans hJoined.2⟩

theorem memberOf_handleSubscribe (s : String) :
    (node.handleSubscribe now app socketId channel presence).memberOf a c s =
      if (a = app.id ∧ c = channel ∧ s = socketId) ∧
        (node.admission now app channel presence).admitted = true
      then some ((node.memberOf a c s).getD ⟨presence⟩) else node.memberOf a c s := by
  refine handleSubscribe_of (P := fun after => after.memberOf a c s = ite _ _ _) node now app
    socketId channel presence (fun hReject => ?_) (fun hAdmit => ?_)
    (fun hJoined => (memberOf_replayCache ..).trans hJoined)
  · rw [hReject, if_neg (by simp)]
    refine (memberOf_setApp ..).trans ?_
    rw [memberOf_removeUnused, memberOf_setChannel, lookup_entryOrNew]
    split
    · rename_i ha
      rw [ha]
      split
      · rename_i hc
        rw [hc]
        rfl
      · rfl
    · rfl
  · rw [hAdmit]
    refine (memberOf_setApp ..).trans ?_
    rw [memberOf_setChannel, joinedChannel, lookup_subscribe, lookup_entryOrNew, lookup_entryOrNew]
    split_ifs with ha hc hs hAll hAll hAll hAll
    · rw [ha, hc, hs]
      rfl
    · exact absurd ⟨⟨ha, hc, hs⟩, rfl⟩ hAll
    · exact absurd hAll.1.2.2 hs
    · rw [ha, hc]
      rfl
    · exact absurd hAll.1.2.1 hc
    · rw [ha]
      rfl
    · exact absurd hAll.1.1 ha
    · rfl

theorem Stores.handleSubscribe (hP : Channel.Lasting P) {node : Node} (h : node.Stores P)
    (now : Instant) (app : Application) (socketId channel : String)
    {presence : Option PresenceMember}
    (hPresence : presence.isSome = (fromName channel).isPresence) :
    (node.handleSubscribe now app socketId channel presence).Stores P := by
  have hEntry := (h app.id).entryOrNew hP app channel
  refine handleSubscribe_of (P := Stores P) node now app socketId channel presence
    (fun _ => ?_) (fun _ => ?_)
    (fun hJoined => hJoined.replayCache hP now app socketId channel _)
  · exact h.setApp (((h app.id).setChannel hEntry).removeUnused now channel) app.id
  · exact h.setApp ((h app.id).setChannel (hP.subscribe socketId hEntry hPresence)) app.id

theorem WellFormed.handleSubscribe {node : Node} (h : node.WellFormed) (now : Instant)
    (app : Application) (socketId channel : String) {presence : Option PresenceMember}
    (hPresence : presence.isSome = (fromName channel).isPresence) :
    (node.handleSubscribe now app socketId channel presence).WellFormed :=
  wellFormed_iff_stores.mpr ((wellFormed_iff_stores.mp h).handleSubscribe lasting_regular
    now app socketId channel hPresence)

theorem mem_joinedChannel {s : String} (hOther : s ≠ socketId) :
    s ∈ (node.joinedChannel app socketId channel presence).2.members ↔
      (node.memberOf app.id channel s).isSome = true := by
  rw [← AList.lookup_isSome, joinedChannel, lookup_subscribe, if_neg hOther, lookup_entryOrNew]
  rfl

theorem heard_joinServer :
    heard c v (framesTo (node.joinServer now app socketId channel presence).sent a s) =
      if app.id = a ∧ s = socketId then
        hearStep c v (heard c v (framesTo node.sent a s))
          (node.joinReply now app socketId channel presence) else
        (heard c v (framesTo node.sent a s)).hear
          (if (app.id = a ∧ channel = c ∧ (node.memberOf app.id channel s).isSome = true) ∧
            presence.map PresenceMember.userId = some v ∧
            (node.joinedChannel app socketId channel presence).1.wasNew = true ∧
            (node.joinedChannel app socketId channel presence).1.userAdded = true ∧
            (node.admission now app channel presence).remotelyPresent = false
          then [true] else []) := by
  rw [joinServer, reply, heard_reply, heard_onSubscribed]
  split
  · rename_i hJoiner
    rw [if_neg (fun h => h.1.2.2.2 hJoiner.2), hear_nil]
  · rename_i hOther
    congr 2
    refine propext ⟨fun h => ⟨⟨h.1.1, h.1.2.1, ?_⟩, h.2⟩, fun h => ⟨⟨h.1.1, h.1.2.1, ?_⟩, h.2⟩⟩
    · exact (node.mem_joinedChannel app socketId channel presence h.1.2.2.2).mp h.1.2.2.1
    · have hNe : s ≠ socketId := fun hs => hOther ⟨h.1.1, hs⟩
      exact ⟨(node.mem_joinedChannel app socketId channel presence hNe).mpr h.1.2.2, hNe⟩

theorem joinReply_change :
    (node.joinReply now app socketId channel presence).change c v = none := by
  rw [joinReply]
  split <;> rfl

theorem joinReply_roster_ne {c : String}
    (hOther : c = channel → (fromName channel).isPresence = false) :
    (node.joinReply now app socketId channel presence).roster c = none := by
  rw [joinReply]
  split
  · rename_i hKind
    refine if_neg fun hc => ?_
    rw [hOther hc.symm] at hKind
    cases hKind
  · exact ite_self _

theorem mem_joinReply {node : Node} (h : node.WellFormed) (now : Instant) (app : Application)
    (socketId channel : String) {presence : Option PresenceMember}
    (hKind : (fromName channel).isPresence = true)
    (hPresence : presence.isSome = (fromName channel).isPresence) :
    ∃ data, (node.joinReply now app socketId channel presence).roster channel = some data ∧
      ∀ u, u ∈ data.ids ↔ (node.joinedChannel app socketId channel presence).2.HasMember u ∨
        ∃ n, node.presenceCache.ListsLive now app.id channel n u := by
  obtain ⟨hExact, hChannelKind⟩ := (h app.id).entryOrNew app channel
  have hJoined : (node.joinedChannel app socketId channel presence).2.Exact :=
    hExact.subscribe socketId (by rw [hPresence, hChannelKind])
  have hJoinedKind : (node.joinedChannel app socketId channel presence).2.kind.isPresence =
      true := by
    rw [joinedChannel, subscribe_kind, hChannelKind, hKind]
  obtain ⟨data, hData, hIds⟩ := hJoined.mem_presenceSnapshot hJoinedKind
  have hKeys : data.ids = data.hash.keys := by
    rw [presenceSnapshot, if_pos hJoinedKind] at hData
    cases hData
    exact PresenceData.fromMembers_ids_eq_keys _
  obtain ⟨pm, rfl⟩ := Option.isSome_iff_exists.mp (hPresence.trans hKind)
  have hRemote (u : String) := PresenceCache.mem_remoteMembersFor node.presenceCache now app.id
    channel u
  refine ⟨_, by rw [joinReply, if_pos hKind, hData]; exact if_pos rfl, fun u => ?_⟩
  rw [← hIds, ← hRemote]
  have hMembers : (node.admission now app channel (some pm)).remoteMembers =
      node.presenceCache.remoteMembersFor now app.id channel := rfl
  rw [hMembers]
  split
  · rename_i hEmpty
    rw [List.isEmpty_iff.mp hEmpty]
    simp
  · exact mem_mergePresence_ids _ hKeys u

theorem heard_handleSubscribe :
    heard c v (framesTo (node.handleSubscribe now app socketId channel presence).sent a s) =
      if (node.admission now app channel presence).admitted = true then
        heard c v (framesTo (node.joinServer now app socketId channel presence).sent a s)
      else heard c v (framesTo node.sent a s) := by
  refine handleSubscribe_of (P := fun after => heard c v (framesTo after.sent a s) = ite _ _ _)
    node now app socketId channel presence (fun hReject => ?_) (fun hAdmit => (if_pos hAdmit).symm)
    (fun hJoined => (heard_replayCache ..).trans hJoined)
  rw [hReject, if_neg (by decide)]
  refine (heard_reply ..).trans ?_
  split
  · exact hearStep_of_none rfl rfl _
  · rfl

/-! ## A whole leave -/

theorem leaveChannel_none (hNone : node.findChannel app.id channel = none) :
    node.leaveChannel now app socketId channel = node := by
  have hLookup : (node.apps app.id).channels.lookup channel = none := hNone
  rw [leaveChannel, AppChannels.unsubscribeWith, hLookup]

theorem leaveChannel_some {ch : Channel} (hFind : node.findChannel app.id channel = some ch) :
    node.leaveChannel now app socketId channel =
      (node.setApp app.id (((node.apps app.id).setChannel channel
        (ch.unsubscribe socketId).2).removeUnused now channel)).setServer
        (node.onUnsubscribed now app channel (ch.unsubscribe socketId).2
          (ch.unsubscribe socketId).1) := by
  have hLookup : (node.apps app.id).channels.lookup channel = some ch := hFind
  rw [leaveChannel, AppChannels.unsubscribeWith, hLookup]

theorem sent_leaveChannel {ch : Channel} (hFind : node.findChannel app.id channel = some ch) :
    (node.leaveChannel now app socketId channel).sent =
      (node.onUnsubscribed now app channel (ch.unsubscribe socketId).2
        (ch.unsubscribe socketId).1).sent := by
  rw [leaveChannel_some _ _ _ _ _ hFind]
  rfl

theorem leaveChannel_same : (node.leaveChannel now app socketId channel).known = node.known ∧
      (node.leaveChannel now app socketId channel).config = node.config := by
  cases hFind : node.findChannel app.id channel with
  | none =>
    rw [leaveChannel_none _ _ _ _ _ hFind]
    exact ⟨rfl, rfl⟩
  | some ch =>
    rw [leaveChannel_some _ _ _ _ _ hFind]
    exact ⟨known_onUnsubscribed .., config_onUnsubscribed ..⟩

theorem memberOf_leaveChannel (s : String) :
    (node.leaveChannel now app socketId channel).memberOf a c s =
      if a = app.id ∧ c = channel ∧ s = socketId then none else node.memberOf a c s := by
  cases hFind : node.findChannel app.id channel with
  | none =>
    rw [leaveChannel_none _ _ _ _ _ hFind]
    split
    · rename_i h
      rw [h.1, h.2.1, memberOf, AppChannels.memberOf]
      exact congrArg (fun found : Option Channel => found.bind fun ch => ch.members.lookup s) hFind
    · rfl
  | some ch =>
    rw [leaveChannel_some _ _ _ _ _ hFind]
    refine (memberOf_setApp ..).trans ?_
    rw [memberOf_removeUnused, memberOf_setChannel, unsubscribe_members, lookup_erase_if]
    have hStored : node.memberOf app.id channel s = ch.members.lookup s :=
      memberOf_of_find hFind s
    split_ifs with ha hc hs hAll hAll hAll hAll
    · rfl
    · exact absurd ⟨ha, hc, hs⟩ hAll
    · exact absurd hAll.2.2 hs
    · rw [ha, hc, hStored]
    · exact absurd hAll.2.1 hc
    · rw [ha]
      rfl
    · exact absurd hAll.1 ha
    · rfl

theorem Stores.leaveChannel (hP : Channel.Lasting P) {node : Node} (h : node.Stores P)
    (now : Instant) (app : Application) (socketId channel : String) :
    (node.leaveChannel now app socketId channel).Stores P := by
  cases hFind : node.findChannel app.id channel with
  | none =>
    rw [leaveChannel_none _ _ _ _ _ hFind]
    exact h
  | some ch =>
    rw [leaveChannel_some _ _ _ _ _ hFind]
    exact h.setApp (((h app.id).setChannel (hP.unsubscribe socketId (h app.id channel ch
      hFind))).removeUnused now channel) app.id

theorem WellFormed.leaveChannel {node : Node} (h : node.WellFormed) (now : Instant)
    (app : Application) (socketId channel : String) :
    (node.leaveChannel now app socketId channel).WellFormed :=
  wellFormed_iff_stores.mpr ((wellFormed_iff_stores.mp h).leaveChannel lasting_regular
    now app socketId channel)

end Node

end Zatat
