import Zatat.Ws.Handler
import Mathlib.Tactic.SplitIfs

/-! # What joins and leaves leave in the logs

For one channel the webhooks that report it as occupied or vacated, and for one
user of it the membership messages handed to the bus, are histories of a
two-valued state. The lemmas say what a join and a leave append to them, and
that neither changes what the node knows about its peers.
-/

namespace Zatat

open EventDispatcher ChannelKind List

def occupancyOf (appId channel : String) (entry : String × WebhookEvent) : Option Bool :=
  match entry.2 with
  | .ChannelOccupied c => if entry.1 = appId ∧ c = channel then some true else none
  | .ChannelVacated c => if entry.1 = appId ∧ c = channel then some false else none
  | _ => none

def membershipOf (appId channel userId : String) (entry : String × ScalingPayload) :
    Option Bool :=
  match entry.2 with
  | .MemberAdded _ c u _ =>
    if entry.1 = appId ∧ c = channel ∧ u = userId then some true else none
  | .MemberRemoved _ c u _ _ =>
    if entry.1 = appId ∧ c = channel ∧ u = userId then some false else none
  | _ => none

namespace Server

def occupancyReports (srv : Server) (appId channel : String) : List Bool :=
  srv.webhooks.filterMap (occupancyOf appId channel)

def payloads (srv : Server) : List (String × ScalingPayload) :=
  srv.dispatcher.published.map fun env => (env.app.id, env.payload)

def memberMessages (srv : Server) (appId channel userId : String) : List Bool :=
  srv.payloads.filterMap (membershipOf appId channel userId)

variable (srv : Server) (d : EventDispatcher) (h : srv.dispatcher.scalingEnabled = true)
  (now : Instant) (app : Application) (channel userId socketId : String) (pm : PresenceMember)
  (presence : Option PresenceMember) (occupiedElsewhere remotelyPresent : Bool) (ch : Channel)
  (memberCount localCount : Nat) (vacatedWithheld : Bool) (r : SubscribeResult)
  (outcome : UnsubscribeOutcome) (a c u : String)

@[simp] theorem known_publish : (srv.publish d).known = d.known := rfl

theorem known_announceSubscriptionCount :
    (srv.announceSubscriptionCount now app ch localCount vacatedWithheld).known = srv.known := by
  rw [announceSubscriptionCount, known_publish, publishSubscriptionCount, known_spawnPublish]
  split_ifs <;> rfl

theorem known_announceMemberAdded :
    (srv.announceMemberAdded app channel socketId pm remotelyPresent ch).known = srv.known := by
  rw [announceMemberAdded, known_publish, publishMemberAdded, known_spawnPublish]
  split_ifs <;> rfl

theorem known_onSubscribed :
    (srv.onSubscribed now app channel socketId presence occupiedElsewhere remotelyPresent
      ch r).known = srv.known := by
  rw [onSubscribed]
  cases presence with
  | none => split_ifs <;> first | rfl | exact known_announceSubscriptionCount ..
  | some => split_ifs <;> first | rfl | exact known_announceMemberAdded ..

theorem known_announceMemberRemoved (ch : Channel) :
    (srv.announceMemberRemoved now app channel userId vacatedWithheld ch).known = srv.known := by
  rw [announceMemberRemoved, known_publish, publishMemberRemoved, known_spawnPublish]
  split_ifs <;> rfl

theorem known_announceVacated :
    (srv.announceVacated now app channel memberCount vacatedWithheld).known = srv.known := by
  rw [announceVacated]
  split_ifs <;> rfl

theorem known_onUnsubscribed :
    (srv.onUnsubscribed now app channel ch outcome).known = srv.known := by
  rw [onUnsubscribed]
  dsimp only
  split_ifs
  · cases outcome.userRemoved with
    | none => exact known_announceVacated ..
    | some => exact (known_announceMemberRemoved ..).trans (known_announceVacated ..)
  · exact (known_announceSubscriptionCount ..).trans (known_announceVacated ..)
  · rfl

/-! ## Webhooks -/

theorem webhooks_announceSubscriptionCount :
    (srv.announceSubscriptionCount now app ch localCount vacatedWithheld).webhooks =
      srv.webhooks ++ if app.emitSubscriptionCount then
        [(app.id, .SubscriptionCount ch.name
          (localCount + srv.dispatcher.peerChannelCounts.sum now app.id ch.name))] else [] := by
  rw [announceSubscriptionCount]
  split_ifs
  · rfl
  · rw [append_nil]
    rfl

theorem webhooks_announceMemberAdded :
    (srv.announceMemberAdded app channel socketId pm remotelyPresent ch).webhooks = srv.webhooks ++
        if remotelyPresent = false then [(app.id, .MemberAdded channel pm.userId)] else [] := by
  rw [announceMemberAdded]
  cases remotelyPresent
  · rfl
  · exact (append_nil _).symm

def joinWebhooks (srv : Server) (now : Instant) (app : Application) (channel : String)
    (presence : Option PresenceMember) (occupiedElsewhere remotelyPresent : Bool)
    (ch : Channel) (r : SubscribeResult) : List (String × WebhookEvent) :=
  (if r.memberCount = 1 ∧ occupiedElsewhere = false then
    [(app.id, .ChannelOccupied channel)] else []) ++
  match presence with
  | none => if app.emitSubscriptionCount then
      [(app.id, .SubscriptionCount ch.name
        (r.memberCount + srv.dispatcher.peerChannelCounts.sum now app.id ch.name))] else []
  | some pm => if r.userAdded then
      (if remotelyPresent = false then [(app.id, .MemberAdded channel pm.userId)] else [])
      else []

theorem webhooks_onSubscribed :
    (srv.onSubscribed now app channel socketId presence occupiedElsewhere remotelyPresent
      ch r).webhooks = srv.webhooks ++ if r.wasNew then
          srv.joinWebhooks now app channel presence occupiedElsewhere remotelyPresent ch r
        else [] := by
  have hOccupied : (if r.memberCount = 1 ∧ occupiedElsewhere = false then
      srv.enqueueWebhook app.id (.ChannelOccupied channel) else srv).webhooks =
      srv.webhooks ++ if r.memberCount = 1 ∧ occupiedElsewhere = false then
        [(app.id, .ChannelOccupied channel)] else [] := by
    split_ifs
    · rfl
    · rw [append_nil]
  have hCounts : (if r.memberCount = 1 ∧ occupiedElsewhere = false then
      srv.enqueueWebhook app.id (.ChannelOccupied channel)
      else srv).dispatcher = srv.dispatcher := by
    split_ifs <;> rfl
  rw [onSubscribed]
  cases r.wasNew with
  | false => exact (append_nil _).symm
  | true =>
    unfold joinWebhooks
    rw [if_pos rfl, if_pos rfl, ← append_assoc, ← hOccupied]
    cases presence with
    | none =>
      dsimp only
      rw [webhooks_announceSubscriptionCount, hCounts]
    | some pm =>
      dsimp only
      cases r.userAdded with
      | false => exact (append_nil _).symm
      | true =>
        rw [if_pos rfl, if_pos rfl, webhooks_announceMemberAdded]

theorem webhooks_announceMemberRemoved (ch : Channel) :
    (srv.announceMemberRemoved now app channel userId vacatedWithheld ch).webhooks = srv.webhooks ++
        if srv.presenceCache.isPresentExcluding now app.id channel userId none then []
        else [(app.id, .MemberRemoved channel userId)] := by
  rw [announceMemberRemoved]
  split_ifs
  · exact (append_nil _).symm
  · rfl

theorem webhooks_announceVacated (occupied : Bool) :
    (srv.announceVacated now app channel memberCount
      (decide (memberCount = 0) && occupied)).webhooks = srv.webhooks ++
        if memberCount = 0 ∧ occupied = false then [(app.id, .ChannelVacated channel)] else [] := by
  rw [announceVacated]
  cases occupied <;> by_cases h : memberCount = 0 <;> simp [h, publish, enqueueWebhook]

def leaveWebhooks (srv : Server) (now : Instant) (app : Application) (channel : String)
    (ch : Channel) (outcome : UnsubscribeOutcome) : List (String × WebhookEvent) :=
  (if outcome.memberCount = 0 ∧
      srv.occupiedOnPeers now app channel (ChannelKind.fromName channel) = false then
    [(app.id, .ChannelVacated channel)] else []) ++
  if (ChannelKind.fromName channel).isPresence then
    match outcome.userRemoved with
    | none => []
    | some u => if srv.presenceCache.isPresentExcluding now app.id channel u none then []
        else [(app.id, .MemberRemoved channel u)]
  else if app.emitSubscriptionCount then
    [(app.id, .SubscriptionCount ch.name
      (outcome.memberCount + srv.dispatcher.peerChannelCounts.sum now app.id ch.name))]
  else []

theorem webhooks_onUnsubscribed :
    (srv.onUnsubscribed now app channel ch outcome).webhooks = srv.webhooks ++
      if outcome.wasMember then srv.leaveWebhooks now app channel ch outcome else [] := by
  have hVacated := webhooks_announceVacated srv now app channel outcome.memberCount
    (srv.occupiedOnPeers now app channel (fromName channel))
  have hKnown := known_announceVacated srv now app channel outcome.memberCount
    (decide (outcome.memberCount = 0) && srv.occupiedOnPeers now app channel (fromName channel))
  have hCache := congrArg PeerKnowledge.presenceCache hKnown
  have hCounts := congrArg PeerKnowledge.peerChannelCounts hKnown
  rw [onUnsubscribed]
  dsimp only [known, EventDispatcher.known] at hCache hCounts ⊢
  cases outcome.wasMember with
  | false => exact (append_nil _).symm
  | true =>
    unfold leaveWebhooks
    rw [if_pos rfl, if_pos rfl, ← append_assoc, ← hVacated]
    split
    · cases outcome.userRemoved with
      | none => exact (append_nil _).symm
      | some u =>
        dsimp only
        rw [webhooks_announceMemberRemoved, presenceCache, hCache]
        rfl
    · rw [webhooks_announceSubscriptionCount, hCounts]

/-! ## Messages on the bus -/

theorem payloads_spawnPublish (h : d.scalingEnabled = true) (app : Application) (seq : Nat)
    (payload : ScalingPayload) :
    (srv.publish (d.spawnPublish (envelope app seq payload))).payloads =
      (srv.publish d).payloads ++ [(app.id, payload)] := by
  obtain ⟨n, hn⟩ := published_spawnPublish d h app seq payload
  rw [payloads, publish, hn, map_append]
  rfl

include h in
theorem payloads_announceSubscriptionCount :
    (srv.announceSubscriptionCount now app ch localCount vacatedWithheld).payloads =
      srv.payloads ++ [(app.id, .SubscriptionCount srv.dispatcher.nodeId ch.name localCount
        vacatedWithheld)] := by
  rw [announceSubscriptionCount]
  split_ifs <;> exact payloads_spawnPublish _ srv.dispatcher h app 0 _

include h in
theorem payloads_announceMemberAdded :
    (srv.announceMemberAdded app channel socketId pm remotelyPresent ch).payloads =
      srv.payloads ++ [(app.id, .MemberAdded srv.dispatcher.nodeId channel pm.userId
        pm.userInfo)] := by
  rw [announceMemberAdded]
  split_ifs <;> exact payloads_spawnPublish _ srv.dispatcher h app 0 _

def joinMessages (srv : Server) (app : Application) (channel : String)
    (presence : Option PresenceMember) (ch : Channel) (r : SubscribeResult) :
    List (String × ScalingPayload) :=
  match presence with
  | none => [(app.id, .SubscriptionCount srv.dispatcher.nodeId ch.name r.memberCount false)]
  | some pm => if r.userAdded then
      [(app.id, .MemberAdded srv.dispatcher.nodeId channel pm.userId pm.userInfo)] else []

include h in
theorem payloads_onSubscribed :
    (srv.onSubscribed now app channel socketId presence occupiedElsewhere remotelyPresent
      ch r).payloads = srv.payloads ++
        if r.wasNew then srv.joinMessages app channel presence ch r else [] := by
  have hDispatcher : (if r.memberCount = 1 ∧ occupiedElsewhere = false then
      srv.enqueueWebhook app.id (.ChannelOccupied channel)
      else srv).dispatcher = srv.dispatcher := by
    split_ifs <;> rfl
  rw [onSubscribed]
  generalize (if r.memberCount = 1 ∧ occupiedElsewhere = false then
    srv.enqueueWebhook app.id (.ChannelOccupied channel) else srv) = mid at hDispatcher ⊢
  have hPayloads : mid.payloads = srv.payloads := by rw [payloads, hDispatcher, payloads]
  cases r.wasNew with
  | false => exact (append_nil _).symm
  | true =>
    rw [if_pos rfl, if_pos rfl]
    cases presence with
    | none =>
      exact (payloads_announceSubscriptionCount mid (by rw [hDispatcher, h]) ..).trans
        (by rw [hPayloads, hDispatcher]; rfl)
    | some pm =>
      rw [joinMessages]
      cases r.userAdded with
      | false => exact hPayloads.trans (append_nil _).symm
      | true =>
        exact (payloads_announceMemberAdded mid (by rw [hDispatcher, h]) ..).trans
          (by rw [hPayloads, hDispatcher]; rfl)

include h in
theorem payloads_announceMemberRemoved (ch : Channel) :
    (srv.announceMemberRemoved now app channel userId vacatedWithheld ch).payloads =
      srv.payloads ++ [(app.id, .MemberRemoved srv.dispatcher.nodeId channel userId
        (srv.presenceCache.isPresentExcluding now app.id channel userId none)
        vacatedWithheld)] := by
  rw [announceMemberRemoved]
  split_ifs
  · exact payloads_spawnPublish _ (srv.dispatcher.noteWithheld now app channel (some userId))
      h app 0 _
  · exact payloads_spawnPublish _ srv.dispatcher h app 0 _

theorem payloads_announceVacated :
    (srv.announceVacated now app channel memberCount vacatedWithheld).payloads = srv.payloads := by
  rw [announceVacated]
  split_ifs <;> rfl

def leaveMessages (srv : Server) (now : Instant) (app : Application) (channel : String)
    (ch : Channel) (outcome : UnsubscribeOutcome) : List (String × ScalingPayload) :=
  let vacatedWithheld := decide (outcome.memberCount = 0) &&
    srv.occupiedOnPeers now app channel (ChannelKind.fromName channel)
  if (ChannelKind.fromName channel).isPresence then
    match outcome.userRemoved with
    | none => []
    | some u => [(app.id, .MemberRemoved srv.dispatcher.nodeId channel u
        (srv.presenceCache.isPresentExcluding now app.id channel u none) vacatedWithheld)]
  else [(app.id, .SubscriptionCount srv.dispatcher.nodeId ch.name outcome.memberCount
    vacatedWithheld)]

include h in
theorem payloads_onUnsubscribed :
    (srv.onUnsubscribed now app channel ch outcome).payloads = srv.payloads ++
      if outcome.wasMember then srv.leaveMessages now app channel ch outcome else [] := by
  rw [onUnsubscribed]
  unfold leaveMessages
  dsimp only
  generalize (decide (outcome.memberCount = 0) &&
    srv.occupiedOnPeers now app channel (fromName channel)) = withheld
  have hPayloads := payloads_announceVacated srv now app channel outcome.memberCount withheld
  have hKnown := known_announceVacated srv now app channel outcome.memberCount withheld
  generalize srv.announceVacated now app channel outcome.memberCount withheld = mid
    at hPayloads hKnown ⊢
  have hNode : mid.dispatcher.nodeId = srv.dispatcher.nodeId :=
    congrArg PeerKnowledge.nodeId hKnown
  have hCache : mid.presenceCache = srv.presenceCache :=
    congrArg PeerKnowledge.presenceCache hKnown
  have hScaling : mid.dispatcher.scalingEnabled = true :=
    (congrArg PeerKnowledge.scalingEnabled hKnown).trans h
  cases outcome.wasMember with
  | false => exact (append_nil _).symm
  | true =>
    rw [if_pos rfl, if_pos rfl]
    split
    · cases outcome.userRemoved with
      | none => exact hPayloads.trans (append_nil _).symm
      | some u =>
        dsimp only
        rw [payloads_announceMemberRemoved mid hScaling, hPayloads, hNode, hCache]
    · rw [payloads_announceSubscriptionCount mid hScaling, hPayloads, hNode]

/-! ## The two histories -/

theorem filterMap_membershipOf {v : String} {payload : ScalingPayload} {present : Bool}
    (hPayload : membershipOf a c u (app.id, payload) =
      if app.id = a ∧ channel = c ∧ v = u then some present else none) :
    [(app.id, payload)].filterMap (membershipOf a c u) =
      if some v = some u ∧ app.id = a ∧ channel = c then [present] else [] := by
  rw [filterMap_cons, hPayload]
  by_cases hKey : app.id = a ∧ channel = c ∧ v = u
  · simp [hKey]
  · rw [if_neg hKey, if_neg fun hAll => hKey ⟨hAll.2.1, hAll.2.2, Option.some.inj hAll.1⟩]
    rfl

theorem filterMap_joinMessages :
    (srv.joinMessages app channel presence ch r).filterMap (membershipOf a c u) =
      if r.userAdded = true ∧ presence.map PresenceMember.userId = some u ∧
        app.id = a ∧ channel = c then [true] else [] := by
  cases presence with
  | none => simp [joinMessages, membershipOf]
  | some pm =>
    rw [joinMessages]
    cases r.userAdded with
    | false => simp
    | true => exact (filterMap_membershipOf app channel a c u rfl).trans (by simp)

theorem filterMap_occupancyOf {p : Prop} [Decidable p] {event : WebhookEvent} {occupied : Bool}
    (hEvent : occupancyOf a c (app.id, event) =
      if app.id = a ∧ channel = c then some occupied else none) :
    (if p then [(app.id, event)] else []).filterMap (occupancyOf a c) =
      if p ∧ app.id = a ∧ channel = c then [occupied] else [] := by
  by_cases hp : p
  · rw [if_pos hp, filterMap_cons, hEvent]
    by_cases hKey : app.id = a ∧ channel = c <;> simp [hp, hKey]
  · rw [if_neg hp, if_neg fun hAll => hp hAll.1]
    rfl

theorem filterMap_joinWebhooks :
    (srv.joinWebhooks now app channel presence occupiedElsewhere remotelyPresent ch r).filterMap
      (occupancyOf a c) =
      if r.memberCount = 1 ∧ occupiedElsewhere = false ∧ app.id = a ∧ channel = c then [true]
      else [] := by
  unfold joinWebhooks
  rw [filterMap_append, filterMap_occupancyOf app channel a c rfl]
  simp only [and_assoc]
  refine (congrArg _ ?_).trans (append_nil _)
  cases presence <;> dsimp only <;> split_ifs <;> rfl

include h in
theorem memberMessages_onSubscribed :
    (srv.onSubscribed now app channel socketId presence occupiedElsewhere remotelyPresent
      ch r).memberMessages a c u = srv.memberMessages a c u ++
        if r.wasNew = true ∧ r.userAdded = true ∧ presence.map PresenceMember.userId = some u ∧
          app.id = a ∧ channel = c then [true] else [] := by
  rw [memberMessages, payloads_onSubscribed srv h, filterMap_append, ← memberMessages]
  congr 1
  cases r.wasNew with
  | false => simp
  | true => simp [filterMap_joinMessages]

theorem occupancyReports_onSubscribed :
    (srv.onSubscribed now app channel socketId presence occupiedElsewhere remotelyPresent
      ch r).occupancyReports a c = srv.occupancyReports a c ++
        if r.wasNew = true ∧ r.memberCount = 1 ∧ occupiedElsewhere = false ∧
          app.id = a ∧ channel = c then [true] else [] := by
  rw [occupancyReports, webhooks_onSubscribed, filterMap_append, ← occupancyReports]
  congr 1
  cases r.wasNew with
  | false => simp
  | true => simp [filterMap_joinWebhooks]

theorem filterMap_leaveMessages :
    (srv.leaveMessages now app channel ch outcome).filterMap (membershipOf a c u) =
      if (fromName channel).isPresence = true ∧ outcome.userRemoved = some u ∧
        app.id = a ∧ channel = c then [false] else [] := by
  unfold leaveMessages
  cases (fromName channel).isPresence with
  | false => simp [membershipOf]
  | true =>
    cases outcome.userRemoved with
    | none => simp
    | some v => exact (filterMap_membershipOf app channel a c u rfl).trans (by simp)

theorem filterMap_leaveWebhooks :
    (srv.leaveWebhooks now app channel ch outcome).filterMap (occupancyOf a c) =
      if outcome.memberCount = 0 ∧
        srv.occupiedOnPeers now app channel (fromName channel) = false ∧
        app.id = a ∧ channel = c then [false] else [] := by
  unfold leaveWebhooks
  rw [filterMap_append, filterMap_occupancyOf app channel a c rfl]
  simp only [and_assoc]
  refine (congrArg _ ?_).trans (append_nil _)
  cases outcome.userRemoved <;> dsimp only <;> split_ifs <;> rfl

include h in
theorem memberMessages_onUnsubscribed :
    (srv.onUnsubscribed now app channel ch outcome).memberMessages a c u =
      srv.memberMessages a c u ++
        if outcome.wasMember = true ∧ (fromName channel).isPresence = true ∧
          outcome.userRemoved = some u ∧ app.id = a ∧ channel = c then [false] else [] := by
  rw [memberMessages, payloads_onUnsubscribed srv h, filterMap_append, ← memberMessages]
  congr 1
  cases outcome.wasMember with
  | false => simp
  | true => simp [filterMap_leaveMessages]

theorem occupancyReports_onUnsubscribed :
    (srv.onUnsubscribed now app channel ch outcome).occupancyReports a c =
      srv.occupancyReports a c ++ if outcome.wasMember = true ∧ outcome.memberCount = 0 ∧
          srv.occupiedOnPeers now app channel (fromName channel) = false ∧
          app.id = a ∧ channel = c then [false] else [] := by
  rw [occupancyReports, webhooks_onUnsubscribed, filterMap_append, ← occupancyReports]
  congr 1
  cases outcome.wasMember with
  | false => simp
  | true => simp [filterMap_leaveWebhooks]

/-! ## A node without peers -/

structure Alone (srv : Server) : Prop where
  presenceCache : srv.presenceCache = PresenceCache.new
  peerChannelCounts : srv.dispatcher.peerChannelCounts = PeerChannelCounts.new
  scalingEnabled : srv.dispatcher.scalingEnabled = true

theorem Alone.of_known {srv srv' : Server} (h : srv.Alone) (hKnown : srv'.known = srv.known) :
    srv'.Alone where
  presenceCache := (congrArg PeerKnowledge.presenceCache hKnown).trans h.presenceCache
  peerChannelCounts := (congrArg PeerKnowledge.peerChannelCounts hKnown).trans h.peerChannelCounts
  scalingEnabled := (congrArg PeerKnowledge.scalingEnabled hKnown).trans h.scalingEnabled

theorem Alone.occupiedOnPeers {srv : Server} (h : srv.Alone) (now : Instant) (app : Application)
    (channel : String) (kind : ChannelKind) : srv.occupiedOnPeers now app channel kind = false := by
  rw [Server.occupiedOnPeers, h.presenceCache, h.peerChannelCounts]
  cases kind.isPresence <;> rfl

end Server

end Zatat
