import Zatat.Scaling.PeerCopies

/-! # What a message leaves alone

Counts, users and rosters are numbered apart, under keys that start differently, so a
message about one of them leaves the copies of the others as they are. No message
changes a node's table of applications or its name.
-/

namespace Zatat

open FiniteMap Freshness EventDispatcher.PeerKnowledge

namespace Node

/-! ## Everything else -/

structure SameCopies (node after : Node) : Prop where
  counts : ∀ a n, after.countCopy a n = node.countCopy a n
  sessions : ∀ a n, after.sessionCopy a n = node.sessionCopy a n

theorem SameCopies.refl (node : Node) : SameCopies node node := ⟨fun _ _ => rfl, fun _ _ => rfl⟩

theorem SameCopies.of_known {node after : Node} (cache : PresenceCache) {seen : Map String Instant}
    (h : after.known = { node.known with presenceCache := cache, peersSeen := seen }) :
    SameCopies node after := by
  have hSeqs : after.dispatcher.peerSeqs = node.dispatcher.peerSeqs :=
    congrArg peerSeqs h
  exact ⟨countCopy_congr (congrArg peerChannelCounts h) hSeqs,
    sessionCopy_congr (congrArg peerUserSessions h) hSeqs⟩

theorem SameCopies.ifNewer (node : Node) (now : Instant) (origin channel : String)
    (app : Application) (seq : Nat) {f stale : Node → Node}
    (hNew : ∀ node, SameCopies node (f node)) (hStale : ∀ node, SameCopies node (stale node)) :
    SameCopies node (node.ifNewer now origin app ("p:" ++ channel) seq f stale) := by
  constructor
  · intro a n
    unfold countCopy
    refine keyCopy_ifNewer_other (countsOf a n) "c:" n a ?_ ?_ ?_ ?_ node
    · exact fun x => append_ne (by decide) (by decide) x channel
    · exact fun node => countsOf_accept ..
    · exact fun node => (hNew node).counts a n
    · exact fun node => (hStale node).counts a n
  · intro a n
    unfold sessionCopy
    refine keyCopy_ifNewer_other (sessionsOf a n) "u:" n a ?_ ?_ ?_ ?_ node
    · exact fun x => append_ne (by decide) (by decide) x channel
    · exact fun node => sessionsOf_accept ..
    · exact fun node => (hNew node).sessions a n
    · exact fun node => (hStale node).sessions a n

end Node

def ScalingPayload.isCount : ScalingPayload → Bool
  | .SubscriptionCount _ _ _ _ => true
  | .ChannelCountSnapshot _ _ => true
  | _ => false

def ScalingPayload.isSession : ScalingPayload → Bool
  | .UserOnline _ _ => true
  | .UserOffline _ _ => true
  | .UserSessionSnapshot _ _ => true
  | _ => false

namespace Node

variable (node : Node) (now : Instant) (app : Application) (seq : Nat) {payload : ScalingPayload}

theorem sameCopies_seePeer (payload : ScalingPayload) :
    SameCopies node (node.seePeer now payload) := by
  rw [seePeer]
  split
  · split
    · exact .refl _
    · exact .of_known node.presenceCache rfl
  · exact .refl _

theorem sameCopies_handlePayload (hCount : payload.isCount = false)
    (hSession : payload.isSession = false) :
    SameCopies node (node.handlePayload now app seq payload) := by
  have hKnown {after : Node} (h : after.known = node.known) : SameCopies node after :=
    .of_known node.presenceCache h
  refine handlePayload_of_applied (P := SameCopies node) node now app seq payload (.refl _) ?_
  cases payload with
  | Message origin channel event data except =>
    rw [applyPayload, broadcastLocallyWithApp]
    split
    · exact hKnown rfl
    · dsimp only
      split
      · exact .refl _
      · exact hKnown rfl
  | ClientEvent origin channel event data socketId userId =>
    rw [applyPayload]
    split
    · exact .refl _
    · exact hKnown rfl
  | Terminate | TerminateUser => exact hKnown rfl
  | PresenceSnapshot origin channel members =>
    rw [applyPayload]
    exact .ifNewer _ _ _ _ _ _
      (fun node => .of_known _ (node.toServer.known_applyRemotePresenceSnapshot ..))
      (fun _ => .of_known _ rfl)
  | UserEvent origin userId event data => exact hKnown rfl
  | MetricsRequest requestId requester query =>
    exact hKnown (EventDispatcher.known_spawnPublish ..)
  | MetricsResponse requestId nodeId channels connections =>
    rw [applyPayload, recordMetricsResponse]
    split
    · exact .refl _
    · exact hKnown rfl
  | MemberAdded origin channel userId userInfo =>
    rw [applyPayload]
    exact .ifNewer _ _ _ _ _ _
      (fun node => .of_known _ (node.toServer.known_applyRemoteMemberAdded ..))
      (fun _ => .refl _)
  | MemberRemoved origin channel userId webhookWithheld vacatedWithheld =>
    rw [applyPayload]
    exact .ifNewer _ _ _ _ _ _ (fun node => .of_known _
      ((node.toServer.applyRemoteMemberRemoved_same ..).1.trans
        (node.toServer.known_removeRemoteMember ..))) (fun _ => .refl _)
  | SubscriptionCount | ChannelCountSnapshot => cases hCount
  | _ => cases hSession

theorem countCopy_handlePayload_session (hSession : payload.isSession = true) (a n : String) :
    (node.handlePayload now app seq payload).countCopy a n = node.countCopy a n := by
  have hTest (origin u : String) {f : Node → Node}
      (hNew : ∀ node : Node, (f node).countCopy a n = node.countCopy a n) (node : Node) :
      (node.ifNewer now origin app ("u:" ++ u) seq f id).countCopy a n = node.countCopy a n := by
    unfold countCopy at hNew ⊢
    refine keyCopy_ifNewer_other (countsOf a n) "c:" n a ?_ ?_ hNew (fun _ => rfl) node
    · exact fun x => append_ne (by decide) (by decide) x u
    · exact fun node => countsOf_accept ..
  have hOnline (origin u : String) (node : Node) :
      (node.applyRemoteUserOnline now app origin u).countCopy a n = node.countCopy a n := by
    have hKnown := node.known_applyRemoteUserOnline now app origin u
    exact countCopy_congr (congrArg peerChannelCounts hKnown) (congrArg peerSeqs hKnown) a n
  have hOffline (origin u : String) (node : Node) :
      (node.applyRemoteUserOffline now app origin u).countCopy a n = node.countCopy a n := by
    have hKnown := node.known_applyRemoteUserOffline now app origin u
    exact countCopy_congr (congrArg peerChannelCounts hKnown) (congrArg peerSeqs hKnown) a n
  refine handlePayload_of_applied
    (P := fun after => after.countCopy a n = node.countCopy a n) node now app seq payload rfl ?_
  cases payload with
  | UserOnline origin u => exact hTest origin u (hOnline origin u) node
  | UserOffline origin u => exact hTest origin u (hOffline origin u) node
  | UserSessionSnapshot origin userIds =>
    rw [applyPayload, applyRemoteUserSessionSnapshot]
    rw [foldl_same (fun node : Node => node.countCopy a n)
      (fun node u => hTest origin u (hOffline origin u) node),
      foldl_same (fun node : Node => node.countCopy a n)
      (fun node u => hTest origin u (hOnline origin u) node)]
    rfl
  | _ => cases hSession

theorem sessionCopy_handlePayload_count (hCount : payload.isCount = true) (a n : String) :
    (node.handlePayload now app seq payload).sessionCopy a n = node.sessionCopy a n := by
  have hTest (origin c : String) {f stale : Node → Node}
      (hNew : ∀ node : Node, (f node).sessionCopy a n = node.sessionCopy a n)
      (hStale : ∀ node : Node, (stale node).sessionCopy a n = node.sessionCopy a n)
      (node : Node) :
      (node.ifNewer now origin app ("c:" ++ c) seq f stale).sessionCopy a n =
        node.sessionCopy a n := by
    unfold sessionCopy at hNew hStale ⊢
    refine keyCopy_ifNewer_other (sessionsOf a n) "u:" n a ?_ ?_ hNew hStale node
    · exact fun x => append_ne (by decide) (by decide) x c
    · exact fun node => sessionsOf_accept ..
  refine handlePayload_of_applied
    (P := fun after => after.sessionCopy a n = node.sessionCopy a n) node now app seq payload rfl ?_
  cases payload with
  | SubscriptionCount origin c count vacatedWithheld =>
    refine hTest origin c (fun node => ?_) (fun _ => rfl) node
    have hKnown := known_applyRemoteSubscriptionCount node.toServer now app origin c count
      vacatedWithheld (node.findChannel app.id c)
    exact sessionCopy_congr (congrArg peerUserSessions hKnown) (congrArg peerSeqs hKnown) a n
  | ChannelCountSnapshot origin counts =>
    have hListed (node : Node) (x : ChannelCount) :
        (applyCount now app origin seq node x).sessionCopy a n = node.sessionCopy a n := by
      refine hTest origin x.channel ?_ ?_ node
      · exact fun _ => rfl
      · exact fun _ => rfl
    have hDropped (acc : List String × Node) (c : String) :
        (dropCount now app origin seq acc c).2.sessionCopy a n = acc.2.sessionCopy a n := by
      rw [dropCount_snd]
      refine hTest origin c ?_ ?_ acc.2
      · exact fun _ => rfl
      · exact fun _ => rfl
    have hKnown := node.known_applyRemoteChannelCountSnapshot now app origin counts seq
    rw [applyPayload, sessionCopy_congr (congrArg peerUserSessions hKnown)
      (congrArg peerSeqs hKnown), snapshotApplied,
      foldl_same (fun acc : List String × Node => acc.2.sessionCopy a n) hDropped,
      foldl_same (fun node : Node => node.sessionCopy a n) hListed]
  | _ => cases hCount

/-! ## What every message leaves alone -/

theorem nodeId_handlePayload (payload : ScalingPayload) :
    (node.handlePayload now app seq payload).dispatcher.nodeId = node.dispatcher.nodeId := by
  cases payload with
  | Message origin channel event data except =>
    refine handlePayload_of_applied
      (P := fun after => after.dispatcher.nodeId = node.dispatcher.nodeId) node now app seq _ rfl ?_
    rw [applyPayload, broadcastLocallyWithApp]
    split
    · rfl
    · dsimp only
      split <;> rfl
  | _ => exact (node.moves_unless_message now app seq (by rintro _ _ _ _ _ ⟨⟩)).server

theorem within_handleIncoming_unbound (env : ScalingEnvelope) :
    Within .unbound node (node.handleIncoming now env) := by
  refine within_handleIncoming node now fun app _ => ?_
  cases env.payload with
  | Message => exact ⟨fun _ => trivial, trivial⟩
  | ClientEvent => exact fun _ _ _ => trivial
  | UserEvent => exact fun _ => trivial
  | _ => trivial

theorem handleIncoming_same (env : ScalingEnvelope) :
    (node.handleIncoming now env).config = node.config ∧
      (node.handleIncoming now env).dispatcher.nodeId = node.dispatcher.nodeId := by
  refine ⟨(node.within_handleIncoming_unbound now env).server.config, ?_⟩
  have hSeen := (node.seePeer_same now env.payload).2.2.2.1
  rw [handleIncoming]
  split
  · rfl
  · dsimp only
    split
    · exact hSeen
    · exact (nodeId_handlePayload ..).trans hSeen

end Node

end Zatat
