import Zatat.Ws.Responses

/-! # What joins and leaves queue

A join or a leave of a presence channel does not depend on what was sent before, and
what it queues, apart from the reply to a joiner, carries no roster. Of frames without a
roster, the last change of a user decides what a subscriber holds of that user.
-/

namespace Zatat

open FiniteMap ChannelKind List

variable {channel userId : String} {frame : Frame} {more : List Frame}

def Frame.changedUser (channel : String) : Frame → Option String
  | .memberAdded c u _ => if c = channel then some u else none
  | .memberRemoved c u => if c = channel then some u else none
  | _ => none

theorem Frame.changedUser_of_change {v : String} {b : Bool} (h : frame.change channel v = some b) :
    frame.changedUser channel = some v := by
  cases frame with
  | memberAdded | memberRemoved =>
    obtain ⟨⟨rfl, rfl⟩, -⟩ := Option.ite_none_right_eq_some.mp h
    exact if_pos rfl
  | _ => cases h

def lastChange (channel userId : String) (frames : List Frame) : Option Bool :=
  (frames.filterMap (Frame.change channel userId)).getLast?

/-! ## Hearings that agree -/

theorem current_hear (h : Hearing) (changes : List Bool) :
    (h.hear changes).current = changes.getLast?.getD h.current := by
  induction changes using List.reverseRecOn with
  | nil => rw [Hearing.hear_nil]; rfl
  | append_singleton changes b _ =>
    rw [Hearing.hear_append, Hearing.current_hear, List.getLast?_append]
    rfl

theorem current_hearStep_congr {h h' : Hearing} (hSame : h.current = h'.current) (frame : Frame) :
    (hearStep channel userId h frame).current = (hearStep channel userId h' frame).current := by
  rw [hearStep, hearStep]
  cases frame.roster channel with
  | some data => rfl
  | none =>
    dsimp only
    rw [current_hear, current_hear, hSame]

theorem current_append_congr {frames frames' : List Frame}
    (hSame : (heard channel userId frames).current = (heard channel userId frames').current)
    (more : List Frame) : (heard channel userId (frames ++ more)).current =
      (heard channel userId (frames' ++ more)).current := by
  rw [heard_append, heard_append]
  generalize heard channel userId frames = h at hSame
  generalize heard channel userId frames' = h' at hSame
  induction more generalizing h h' with
  | nil => exact hSame
  | cons frame more ih => exact ih _ _ (current_hearStep_congr hSame frame)

theorem current_append (hNone : ∀ f ∈ more, f.roster channel = none) (frames : List Frame) :
    (heard channel userId (frames ++ more)).current =
      (lastChange channel userId more).getD (heard channel userId frames).current := by
  rw [heard_append, foldl_hearStep_of_changes hNone, current_hear]
  rfl

theorem current_append_of_none (hRoster : ∀ f ∈ more, f.roster channel = none)
    (hChange : ∀ f ∈ more, f.change channel userId = none) (frames : List Frame) :
    (heard channel userId (frames ++ more)).current = (heard channel userId frames).current := by
  rw [current_append hRoster, lastChange, filterMap_eq_nil_iff.mpr hChange]
  rfl

/-! ## What joins and leaves queue -/

def Sent.RosterFree (x : Sent) : Prop := ∀ frame, x.item.frame = some frame → ∀ c,
  frame.roster c = none

theorem rosterFree_framesTo {sent : List Sent} (h : ∀ x ∈ sent, x.RosterFree)
    (appId socketId channel : String) :
    ∀ f ∈ framesTo sent appId socketId, f.roster channel = none := by
  intro f hf
  obtain ⟨x, hx, hFrame⟩ := mem_filterMap.mp hf
  exact h x hx f (Option.ite_none_right_eq_some.mp hFrame).2 channel

theorem framesTo_singleton (a s : String) (frame : Frame) (appId socketId : String) :
    framesTo [⟨a, s, .text frame⟩] appId socketId =
      if a = appId ∧ socketId = s then [frame] else [] := by
  refine (framesTo_text (nodup_singleton s) a frame appId socketId).trans ?_
  simp only [mem_singleton]

theorem rosterFree_text {appId socketId : String} (h : ∀ c, frame.roster c = none) :
    Sent.RosterFree ⟨appId, socketId, .text frame⟩ := by
  rintro f ⟨⟩
  exact h

namespace Server

variable (srv : Server) (now : Instant) (app : Application) (channel : String)

theorem onSubscribed_withSent (socketId : String) (pm : PresenceMember)
    (occupiedElsewhere remotelyPresent : Bool) (ch : Channel) (r : SubscribeResult) :
    ∃ new : List Sent, (∀ x ∈ new, x.RosterFree ∧ x.socket ≠ socketId) ∧
      ∀ sent, { srv with sent := sent }.onSubscribed now app channel socketId (some pm)
          occupiedElsewhere remotelyPresent ch r =
        { srv.onSubscribed now app channel socketId (some pm) occupiedElsewhere remotelyPresent
            ch r with sent := sent ++ new } := by
  have hNone : ∀ x ∈ ([] : List Sent), x.RosterFree ∧ x.socket ≠ socketId :=
    forall_mem_nil _
  unfold onSubscribed
  cases r.wasNew with
  | false => exact ⟨[], hNone, fun sent => by simp⟩
  | true =>
    cases r.userAdded with
    | false =>
      refine ⟨[], hNone, fun sent => ?_⟩
      simp only [if_true, Bool.false_eq_true, if_false, append_nil]
      split <;> rfl
    | true =>
      cases remotelyPresent with
      | true =>
        refine ⟨[], hNone, fun sent => ?_⟩
        simp only [if_true, append_nil, announceMemberAdded]
        split <;> rfl
      | false =>
        refine ⟨(ch.recipients (some socketId)).map fun s =>
          ⟨app.id, s, .text (.memberAdded channel pm.userId pm.userInfo)⟩, ?_, fun sent => ?_⟩
        · intro x hx
          obtain ⟨s, hs, rfl⟩ := mem_map.mp hx
          refine ⟨rosterFree_text fun _ => rfl, ?_⟩
          rintro rfl
          exact ((ch.mem_recipients _ _).mp hs).2 rfl
        · simp only [if_true, Bool.false_eq_true, if_false, announceMemberAdded]
          split <;> rfl

theorem announceVacated_withSent (memberCount : Nat) (vacatedWithheld : Bool) (sent : List Sent) :
    { srv with sent := sent }.announceVacated now app channel memberCount vacatedWithheld =
      { srv.announceVacated now app channel memberCount vacatedWithheld with sent := sent } := by
  unfold announceVacated
  split
  · rfl
  · split <;> rfl

theorem announceMemberRemoved_withSent (userId : String) (vacatedWithheld : Bool) (ch : Channel) :
    ∃ new : List Sent, (∀ x ∈ new, x.RosterFree) ∧
      ∀ sent, { srv with sent := sent }.announceMemberRemoved now app channel userId
          vacatedWithheld ch =
        { srv.announceMemberRemoved now app channel userId vacatedWithheld ch with
          sent := sent ++ new } := by
  unfold announceMemberRemoved
  cases hStill : srv.presenceCache.isPresentExcluding now app.id channel userId none with
  | true =>
    refine ⟨[], forall_mem_nil _, fun sent => ?_⟩
    have hStill' : ({ srv with sent := sent } : Server).presenceCache.isPresentExcluding now app.id
        channel userId none = true := hStill
    simp only [hStill', if_true, append_nil]
    rfl
  | false =>
    refine ⟨(ch.recipients none).map fun s =>
      ⟨app.id, s, .text (.memberRemoved channel userId)⟩, ?_, fun sent => ?_⟩
    · intro x hx
      obtain ⟨s, -, rfl⟩ := mem_map.mp hx
      exact rosterFree_text fun _ => rfl
    · have hStill' : ({ srv with sent := sent } : Server).presenceCache.isPresentExcluding now
          app.id channel userId none = false := hStill
      simp only [hStill', Bool.false_eq_true, if_false]
      rfl

theorem onUnsubscribed_withSent {channel : String}
    (hKind : (fromName channel).isPresence = true) (ch : Channel)
    (outcome : UnsubscribeOutcome) :
    ∃ new : List Sent, (∀ x ∈ new, x.RosterFree) ∧
      ∀ sent, { srv with sent := sent }.onUnsubscribed now app channel ch outcome =
        { srv.onUnsubscribed now app channel ch outcome with sent := sent ++ new } := by
  unfold onUnsubscribed
  cases outcome.wasMember with
  | false => exact ⟨[], forall_mem_nil _, fun sent => by simp⟩
  | true =>
    simp only [if_true, hKind]
    cases outcome.userRemoved with
    | none =>
      refine ⟨[], forall_mem_nil _, fun sent => ?_⟩
      rw [append_nil]
      exact srv.announceVacated_withSent ..
    | some userId =>
      obtain ⟨new, hFree, hNew⟩ := (srv.announceVacated now app channel outcome.memberCount
        (decide (outcome.memberCount = 0) && srv.occupiedOnPeers now app channel
          (fromName channel))).announceMemberRemoved_withSent now app channel userId
        (decide (outcome.memberCount = 0) && srv.occupiedOnPeers now app channel
          (fromName channel)) ch
      refine ⟨new, hFree, fun sent => ?_⟩
      dsimp only
      rw [← hNew, ← announceVacated_withSent]
      rfl

end Server

namespace Node

variable (node : Node) (now : Instant) (app : Application) (socketId channel : String)
  (pm : PresenceMember)

/-- The operation reads nothing of what was sent, and adds items that satisfy `P`. -/
def Queues (P : Sent → Prop) (node : Node) (f : Node → Node) : Prop :=
  ∃ new : List Sent, (∀ x ∈ new, P x) ∧
    ∀ sent, f (node.withSent sent) = (f node).withSent (sent ++ new)

theorem queues_announced : Queues (fun x => x.RosterFree ∧ x.socket ≠ socketId) node
      (fun n => n.announced now app socketId channel (some pm)) := by
  obtain ⟨new, hFree, hNew⟩ := node.toServer.onSubscribed_withSent now app channel socketId pm
    (node.occupiedOnPeers now app channel (fromName channel))
    (node.admission now app channel (some pm)).remotelyPresent
    (node.joinedChannel app socketId channel (some pm)).2
    (node.joinedChannel app socketId channel (some pm)).1
  refine ⟨new, hFree, fun sent => ?_⟩
  exact congrArg (fun srv => (node.setApp app.id ((node.apps app.id).setChannel channel
    (node.joinedChannel app socketId channel (some pm)).2)).setServer srv) (hNew sent)

theorem queues_replayCache (cachedPayload : Option EventPayload) :
    Queues (fun x => x.RosterFree ∧ ∀ frame, x.item.frame = some frame →
        ∀ c v, frame.change c v = none) node
      (fun n => n.replayCache now app socketId channel cachedPayload) := by
  refine ⟨[_], fun x hx => ?_, node.replayCache_withSent now app socketId channel cachedPayload⟩
  rw [mem_singleton.mp hx]
  cases cachedPayload with
  | some | none =>
    refine ⟨rosterFree_text fun _ => rfl, ?_⟩
    rintro frame ⟨⟩ c v
    rfl

theorem queues_replayed (presence : Option PresenceMember) (joined : Node) :
    Queues (fun x => x.RosterFree ∧ ∀ frame, x.item.frame = some frame →
        ∀ c v, frame.change c v = none) joined
      (node.replayed now app socketId channel presence) := by
  unfold replayed
  cases (fromName channel).isCache with
  | true => exact queues_replayCache ..
  | false =>
    refine ⟨[], forall_mem_nil _, fun sent => ?_⟩
    rw [append_nil]
    rfl

theorem answerSubscribe_spec : ∃ before after : List Sent, (∀ x ∈ before ++ after, x.RosterFree) ∧
      (∀ c v, ∀ f ∈ framesTo (before ++ after) app.id socketId, f.change c v = none) ∧
      (node.answerSubscribe now app socketId channel (some pm)).2.sent =
        node.sent ++ (before ++ after) ∧
      ∀ sent, (node.withSent sent).handleSubscribe now app socketId channel (some pm) =
        (node.answerSubscribe now app socketId channel (some pm)).2.withSent
          (sent ++ (before ++ [⟨app.id, socketId, .text
            (node.answerSubscribe now app socketId channel (some pm)).1⟩] ++ after)) := by
  cases hAdmit : (node.admission now app channel (some pm)).admitted with
  | false =>
    rw [answerSubscribe_rejected _ _ _ _ _ _ hAdmit]
    refine ⟨[], [], forall_mem_nil _, fun _ _ => forall_mem_nil _,
      (append_nil _).symm, fun sent => ?_⟩
    exact (handleSubscribe_rejected (node.withSent sent) now app socketId channel (some pm)
      hAdmit).trans rfl
  | true =>
    obtain ⟨before, hBefore, hAnnounced⟩ := node.queues_announced now app socketId channel pm
    obtain ⟨after, hAfter, hReplayed⟩ := node.queues_replayed now app socketId channel (some pm)
      (node.announced now app socketId channel (some pm))
    rw [answerSubscribe_eq _ _ _ _ _ _ hAdmit]
    refine ⟨before, after, ?_, ?_, ?_, fun sent => ?_⟩
    · intro x hx
      exact (mem_append.mp hx).elim (fun h => (hBefore x h).1) fun h => (hAfter x h).1
    · intro c v f hf
      obtain ⟨x, hx, hFrame⟩ := mem_filterMap.mp hf
      obtain ⟨hTo, hFrame⟩ := Option.ite_none_right_eq_some.mp hFrame
      rcases mem_append.mp hx with hMem | hMem
      · exact absurd hTo.2 (hBefore x hMem).2
      · exact (hAfter x hMem).2 f hFrame c v
    · have hFirst : (node.announced now app socketId channel (some pm)).sent =
          node.sent ++ before := congrArg (fun n : Node => n.sent) (hAnnounced node.sent)
      have hSecond := congrArg (fun n : Node => n.sent)
        (hReplayed (node.announced now app socketId channel (some pm)).sent)
      refine Eq.trans hSecond ?_
      change (node.announced now app socketId channel (some pm)).sent ++ after = _
      rw [hFirst, append_assoc]
    · rw [handleSubscribe_eq (node.withSent sent) now app socketId channel (some pm) hAdmit]
      have hFirst : (node.withSent sent).announced now app socketId channel (some pm) =
          (node.announced now app socketId channel (some pm)).withSent (sent ++ before) :=
        hAnnounced sent
      rw [hFirst]
      refine (hReplayed (sent ++ before ++ [⟨app.id, socketId, .text
        (node.joinReply now app socketId channel (some pm))⟩])).trans ?_
      simp only [append_assoc]

theorem known_answerSubscribe :
    (node.answerSubscribe now app socketId channel (some pm)).2.known = node.known := by
  obtain ⟨_, _, _, _, _, hNew⟩ := node.answerSubscribe_spec now app socketId channel pm
  have hKnown := ((node.withSent []).handleSubscribe_same now app socketId channel (some pm)).1
  rw [hNew] at hKnown
  exact hKnown

theorem memberOf_answerSubscribe (a c s : String) :
    (node.answerSubscribe now app socketId channel (some pm)).2.memberOf a c s =
      if (a = app.id ∧ c = channel ∧ s = socketId) ∧
        (node.admission now app channel (some pm)).admitted = true
      then some ((node.memberOf a c s).getD ⟨some pm⟩) else node.memberOf a c s := by
  obtain ⟨_, _, _, _, _, hNew⟩ := node.answerSubscribe_spec now app socketId channel pm
  have hMember := (node.withSent []).memberOf_handleSubscribe now app socketId channel (some pm)
    a c s
  rw [hNew] at hMember
  exact hMember

theorem hasUser_answerSubscribe (v : String)
    (hAdmit : (node.admission now app channel (some pm)).admitted = true) :
    (node.answerSubscribe now app socketId channel (some pm)).2.HasUser app.id channel v ↔
      (node.joinedChannel app socketId channel (some pm)).2.HasMember v := by
  obtain ⟨_, _, _, _, _, hNew⟩ := node.answerSubscribe_spec now app socketId channel pm
  have hUser := (node.withSent []).hasUser_handleSubscribe now app socketId channel (some pm)
    app.id channel v
  rw [hNew, if_pos ⟨⟨rfl, rfl⟩, hAdmit⟩] at hUser
  exact hUser

theorem leaveChannel_spec {channel : String} (hKind : (fromName channel).isPresence = true) :
    Queues Sent.RosterFree node (fun n => n.leaveChannel now app socketId channel) := by
  cases hFind : node.findChannel app.id channel with
  | none =>
    refine ⟨[], forall_mem_nil _, fun sent => ?_⟩
    have hFind' : (node.withSent sent).findChannel app.id channel = none := hFind
    dsimp only
    rw [leaveChannel_none _ _ _ _ _ hFind, leaveChannel_none _ _ _ _ _ hFind', append_nil]
  | some ch =>
    obtain ⟨new, hFree, hNew⟩ := node.toServer.onUnsubscribed_withSent now app hKind
      (ch.unsubscribe socketId).2 (ch.unsubscribe socketId).1
    refine ⟨new, hFree, fun sent => ?_⟩
    have hFind' : (node.withSent sent).findChannel app.id channel = some ch := hFind
    dsimp only
    rw [leaveChannel_some _ _ _ _ _ hFind, leaveChannel_some _ _ _ _ _ hFind']
    exact congrArg (fun srv => (node.setApp app.id (((node.apps app.id).setChannel channel
      (ch.unsubscribe socketId).2).removeUnused now channel)).setServer srv) (hNew sent)

end Node

end Zatat
