import Zatat.Ws.Sweep

/-! # What one pass of the sweep writes

The three loops of a pass only write to the two logs, and what a record makes
them write depends on neither log. So a loop appends what its records yield,
each of them judged by the node as it was before the pass.
-/

namespace Zatat

open FiniteMap PresenceCache List

namespace Node

def emit (node : Node) (frames : List Sent) (events : List (String × WebhookEvent)) : Node :=
  { node with sent := node.sent ++ frames, webhooks := node.webhooks ++ events }

variable (node : Node) (now : Instant) (m : ExpiredMember)

theorem emit_nil : node.emit [] [] = node := by
  rw [emit, append_nil, append_nil]

theorem emit_emit (frames frames' : List Sent) (events events' : List (String × WebhookEvent)) :
    (node.emit frames events).emit frames' events' =
      node.emit (frames ++ frames') (events ++ events') := by
  rw [emit, emit, emit, append_assoc, append_assoc]

/-- A loop whose body writes to the logs and reads only the rest of the node. -/
theorem foldl_emit {ρ : Type} {body : Node → ρ → Node} {frames : Node → ρ → List Sent}
    {events : Node → ρ → List (String × WebhookEvent)}
    (hBody : ∀ node r, body node r = node.emit (frames node r) (events node r))
    (hFrames : ∀ node fs es r, frames (emit node fs es) r = frames node r)
    (hEvents : ∀ node fs es r, events (emit node fs es) r = events node r)
    (records : List ρ) (node : Node) : records.foldl body node =
      node.emit (records.flatMap (frames node)) (records.flatMap (events node)) := by
  induction records generalizing node with
  | nil => exact node.emit_nil.symm
  | cons r records ih =>
    have hFramesEq : frames (node.emit (frames node r) (events node r)) = frames node :=
      funext (hFrames node _ _)
    have hEventsEq : events (node.emit (frames node r) (events node r)) = events node :=
      funext (hEvents node _ _)
    rw [foldl_cons, ih, hBody, hFramesEq, hEventsEq, emit_emit, flatMap_cons, flatMap_cons]

/-! ## Presence members -/

def memberFrames (now : Instant) (node : Node) (m : ExpiredMember) : List Sent :=
  match node.vanishedFrom now m with
  | some (app, ch) =>
    (ch.recipients none).map fun s => ⟨app.id, s, .text (.memberRemoved m.channel m.userId)⟩
  | none => []

def memberEvents (now : Instant) (node : Node) (m : ExpiredMember) :
    List (String × WebhookEvent) :=
  match node.vanishedFrom now m with
  | some (app, ch) =>
    if node.dispatcher.isFleetLeader now then
      (app.id, .MemberRemoved m.channel m.userId) ::
        if node.deserted now m ch then [(app.id, .ChannelVacated m.channel)] else []
    else []
  | none => []

theorem gcMember_eq_emit (node : Node) (m : ExpiredMember) :
    gcMember now node m = node.emit (memberFrames now node m) (memberEvents now node m) := by
  cases h : node.vanishedFrom now m with
  | none => rw [gcMember_none h, memberFrames, memberEvents, h, emit_nil]
  | some found =>
    obtain ⟨app, ch⟩ := found
    rw [gcMember_some h, memberFrames, memberEvents, h, Server.reportExpired]
    have hLeader : (node.broadcastProtocol app.id ch (.memberRemoved m.channel m.userId)
        none).dispatcher.isFleetLeader now = node.dispatcher.isFleetLeader now := rfl
    rw [hLeader, Bool.true_and, emit]
    dsimp only
    cases node.dispatcher.isFleetLeader now with
    | false =>
      rw [if_neg Bool.false_ne_true, if_neg Bool.false_ne_true, append_nil]
      rfl
    | true =>
      rw [if_pos rfl, if_pos rfl]
      cases node.deserted now m ch with
      | false => rfl
      | true =>
        rw [if_pos rfl, if_pos rfl, append_cons]
        rfl

theorem vanishedFrom_sweepMembers :
    (node.sweepMembers now).2.vanishedFrom now m = node.vanishedFrom now m := by
  apply Option.ext
  rintro ⟨app, ch⟩
  rw [vanishedFrom_eq_some, vanishedFrom_eq_some]
  have hLive (n : String) :
      (node.sweepMembers now).2.presenceCache.ListsLive now m.appId m.channel n m.userId ↔
        node.presenceCache.ListsLive now m.appId m.channel n m.userId :=
    listsLive_gcExpired node.presenceCache now m.appId m.channel n m.userId
  simp only [hLive]
  exact Iff.rfl

theorem deserted_sweepMembers (ch : Channel) :
    (node.sweepMembers now).2.deserted now m ch = node.deserted now m ch := by
  have hEmpty : ((node.sweepMembers now).2.presenceCache.remoteMembersFor now m.appId
      m.channel).isEmpty =
        (node.presenceCache.remoteMembersFor now m.appId m.channel).isEmpty := by
    rw [Bool.eq_iff_iff, List.isEmpty_iff, List.isEmpty_iff, remoteMembersFor_eq_nil,
      remoteMembersFor_eq_nil]
    exact forall_congr' fun n => forall_congr' fun u => not_congr
      (listsLive_gcExpired node.presenceCache now m.appId m.channel n u)
  rw [deserted, deserted, hEmpty]

theorem memberFrames_sweepMembers :
    memberFrames now (node.sweepMembers now).2 = memberFrames now node := by
  funext m
  rw [memberFrames, memberFrames, vanishedFrom_sweepMembers]

theorem memberEvents_sweepMembers :
    memberEvents now (node.sweepMembers now).2 = memberEvents now node := by
  funext m
  rw [memberEvents, memberEvents, vanishedFrom_sweepMembers]
  simp only [deserted_sweepMembers]
  rfl

theorem foldl_gcMember : (node.sweepMembers now).1.foldl (gcMember now) (node.sweepMembers now).2 =
      (node.sweepMembers now).2.emit
        ((node.presenceCache.gcExpired now).1.flatMap (memberFrames now node))
        ((node.presenceCache.gcExpired now).1.flatMap (memberEvents now node)) := by
  rw [foldl_emit (gcMember_eq_emit now) (fun _ _ _ _ => rfl) (fun _ _ _ _ => rfl),
    memberFrames_sweepMembers, memberEvents_sweepMembers]
  rfl

/-! ## Subscription counts -/

def unoccupied (node : Node) (now : Instant) (app : Application) (appId channel : String) : Bool :=
  (match node.findChannel app.id channel with
    | some ch => ch.isEmpty
    | none => true) &&
  decide (node.dispatcher.peerChannelCounts.sum now appId channel = 0)

def countFrames (now : Instant) (node : Node) (x : ExpiredCount) : List Sent :=
  match node.config x.appId with
  | none => []
  | some app =>
    match node.findChannel app.id x.channel with
    | none => []
    | some ch =>
      if ch.kind.isPresence || !app.emitSubscriptionCount then []
      else (ch.recipients none).map fun s => ⟨app.id, s, .text (.subscriptionCount x.channel
        (ch.len + node.dispatcher.peerChannelCounts.sum now x.appId x.channel))⟩

def countEvents (now : Instant) (node : Node) (x : ExpiredCount) : List (String × WebhookEvent) :=
  match node.config x.appId with
  | none => []
  | some app =>
    if decide (x.staleCount > 0) && node.unoccupied now app x.appId x.channel &&
        node.dispatcher.isFleetLeader now then
      [(app.id, .ChannelVacated x.channel)]
    else []

theorem gcCount_eq_emit (node : Node) (x : ExpiredCount) :
    gcCount now node x = node.emit (countFrames now node x) (countEvents now node x) := by
  rw [gcCount, countFrames, countEvents]
  cases node.config x.appId with
  | none => exact node.emit_nil.symm
  | some app =>
    dsimp only
    rw [unoccupied]
    have hServer (report : Bool) : (if report then
        node.enqueueWebhook app.id (.ChannelVacated x.channel) else node.toServer) =
          { node.toServer with webhooks := node.webhooks ++
            if report then [(app.id, .ChannelVacated x.channel)] else [] } := by
      cases report with
      | false => rw [if_neg Bool.false_ne_true, if_neg Bool.false_ne_true, append_nil]
      | true => rfl
    rw [hServer, ← Bool.and_assoc]
    cases node.findChannel app.id x.channel with
    | none =>
      rw [emit, append_nil]
      rfl
    | some ch =>
      dsimp only
      split
      · rw [emit, append_nil]
        rfl
      · rfl

theorem countFrames_sweepCounts :
    countFrames now (node.sweepCounts now).2 = countFrames now node := by
  funext x
  have hSum : (node.sweepCounts now).2.dispatcher.peerChannelCounts.sum now x.appId x.channel =
      node.dispatcher.peerChannelCounts.sum now x.appId x.channel :=
    PeerChannelCounts.sum_gcExpired _ now x.appId x.channel
  rw [countFrames, countFrames, hSum]
  rfl

theorem countEvents_sweepCounts :
    countEvents now (node.sweepCounts now).2 = countEvents now node := by
  funext x
  have hSum : (node.sweepCounts now).2.dispatcher.peerChannelCounts.sum now x.appId x.channel =
      node.dispatcher.peerChannelCounts.sum now x.appId x.channel :=
    PeerChannelCounts.sum_gcExpired _ now x.appId x.channel
  simp only [countEvents, unoccupied, hSum]
  rfl

theorem foldl_gcCount : (node.sweepCounts now).1.foldl (gcCount now) (node.sweepCounts now).2 =
      (node.sweepCounts now).2.emit
        ((node.dispatcher.peerChannelCounts.gcExpired now).1.flatMap (countFrames now node))
        ((node.dispatcher.peerChannelCounts.gcExpired now).1.flatMap (countEvents now node)) := by
  rw [foldl_emit (gcCount_eq_emit now) (fun _ _ _ _ => rfl) (fun _ _ _ _ => rfl),
    countFrames_sweepCounts, countEvents_sweepCounts]
  rfl

/-! ## Signed-in users -/

def signedOut (node : Node) (now : Instant) (app : Application) (appId userId : String) : Bool :=
  !((node.apps app.id).isUserOnline userId ||
    node.dispatcher.peerUserSessions.isPresentExcluding now appId userId none)

def sessionFrames (now : Instant) (node : Node) (x : ExpiredSession) : List Sent :=
  match node.config x.appId with
  | none => []
  | some app =>
    if node.signedOut now app x.appId x.userId then
      ((node.apps app.id).watcherConnections x.userId).map fun s =>
        ⟨app.id, s, .text (.watchlistEvents "offline" [x.userId])⟩
    else []

theorem gcSession_eq_emit (node : Node) (x : ExpiredSession) :
    gcSession now node x = node.emit (sessionFrames now node x) [] := by
  rw [gcSession, sessionFrames]
  cases node.config x.appId with
  | none => exact node.emit_nil.symm
  | some app =>
    dsimp only
    rw [signedOut]
    cases (node.apps app.id).isUserOnline x.userId ||
        node.dispatcher.peerUserSessions.isPresentExcluding now x.appId x.userId none with
    | false =>
      rw [emit, append_nil]
      rfl
    | true => exact node.emit_nil.symm

theorem sessionFrames_sweepSessions :
    sessionFrames now (node.sweepSessions now).2 = sessionFrames now node := by
  funext x
  have hPresent : (node.sweepSessions now).2.dispatcher.peerUserSessions.isPresentExcluding now
      x.appId x.userId none =
        node.dispatcher.peerUserSessions.isPresentExcluding now x.appId x.userId none :=
    PeerUserSessions.isPresentExcluding_gcExpired _ now x.appId x.userId none
  simp only [sessionFrames, signedOut, hPresent]
  rfl

theorem foldl_gcSession :
    (node.sweepSessions now).1.foldl (gcSession now) (node.sweepSessions now).2 =
      (node.sweepSessions now).2.emit
        ((node.dispatcher.peerUserSessions.gcExpired now).1.flatMap (sessionFrames now node))
        [] := by
  rw [foldl_emit (gcSession_eq_emit now) (fun _ _ _ _ => rfl) (fun _ _ _ _ => rfl),
    sessionFrames_sweepSessions, flatMap_eq_nil_iff.mpr (fun _ _ => rfl)]
  rfl

/-! ## The pass -/

def passFrames (node : Node) (now : Instant) : List Sent :=
  (node.presenceCache.gcExpired now).1.flatMap (memberFrames now node) ++
    (node.dispatcher.peerChannelCounts.gcExpired now).1.flatMap (countFrames now node) ++
    (node.dispatcher.peerUserSessions.gcExpired now).1.flatMap (sessionFrames now node)

def passEvents (node : Node) (now : Instant) : List (String × WebhookEvent) :=
  (node.presenceCache.gcExpired now).1.flatMap (memberEvents now node) ++
    (node.dispatcher.peerChannelCounts.gcExpired now).1.flatMap (countEvents now node)

/-- The dispatcher a pass leaves: the expired entries of its caches are gone. -/
def swept (d : EventDispatcher) (now : Instant) : EventDispatcher :=
  { d with
    presenceCache := (d.presenceCache.gcExpired now).2
    peerChannelCounts := (d.peerChannelCounts.gcExpired now).2
    peerUserSessions := (d.peerUserSessions.gcExpired now).2 }.gcPeerSequences now

theorem presenceCacheGc_eq : node.presenceCacheGc now =
      { node.emit (node.passFrames now) (node.passEvents now) with
        dispatcher := swept node.dispatcher now } := by
  rw [presenceCacheGc]
  dsimp only
  rw [foldl_gcMember, foldl_gcCount, foldl_gcSession, passFrames, passEvents]
  simp only [emit, sweepMembers, sweepCounts, sweepSessions, setServer, Server.withPresenceCache,
    append_assoc, append_nil]
  rfl

end Node

end Zatat
