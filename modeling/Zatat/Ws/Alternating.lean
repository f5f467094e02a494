import Zatat.Ws.Operations

/-! # No change is announced twice

What a subscriber has been told about a user alternates when every announcement
contradicts the last one. Joins, leaves and whole rosters only announce real
changes; a live update of a peer announces one if it changes the peer's roster.
-/

namespace Zatat

open FiniteMap Hearing PresenceUpdate PresenceCache

def PresenceUpdate.Effective (appId origin channel : String) (cache : PresenceCache) :
    PresenceUpdate → Prop
  | .added u _ => ¬ cache.Lists appId channel origin u
  | .removed u _ _ => cache.Lists appId channel origin u
  | .roster _ => True

theorem Hearing.Alternates.hear_singleton {h : Hearing} (hAlternates : h.Alternates) {b : Bool}
    (hNew : h.current = !b) : (h.hear [b]).Alternates :=
  Alternation.Alternates.concat hAlternates hNew

theorem PresenceUpdate.alternates_change {now : Instant} {appId origin channel : String}
    {cache : PresenceCache} {found : Option Channel} {update : PresenceUpdate} {v : String}
    {h : Hearing} (hAlternates : h.Alternates)
    (hShows : h.current = true ↔ PresentWith cache appId channel found v)
    (hFresh : ∀ n u, cache.Lists appId channel n u → cache.ListsLive now appId channel n u)
    (hEffective : update.Effective appId origin channel cache) :
    (h.hear (update.change now appId origin channel cache found v)).Alternates := by
  cases update with
  | added u info =>
    rw [change]
    split
    · rename_i hTold
      obtain ⟨rfl, hLocal, hOthers⟩ := hTold
      refine hAlternates.hear_singleton (Bool.eq_false_iff.mpr fun hCurrent => ?_)
      rcases hShows.mp hCurrent with hPresent | ⟨n, hLists⟩
      · rw [hLocal] at hPresent
        cases hPresent
      · by_cases hn : n = origin
        · rw [hn] at hLists
          exact hEffective hLists
        · have hOther := (isPresentExcluding_iff cache now appId channel u
            (some origin)).mpr ⟨n, fun hEq => hn (Option.some.inj hEq).symm, hFresh n u hLists⟩
          rw [hOthers] at hOther
          cases hOther
    · rw [hear_nil]
      exact hAlternates
  | removed u w w' =>
    rw [change]
    split
    · rename_i hTold
      obtain ⟨rfl, -, -⟩ := hTold
      exact hAlternates.hear_singleton (hShows.mpr (Or.inr ⟨origin, hEffective⟩))
    · rw [hear_nil]
      exact hAlternates
  | roster members =>
    rw [PresentWith, ← mem_announcedUserIds] at hShows
    rw [change, Server.rosterChange]
    split_ifs with hLocal hIn hOut hOut
    · rw [hear_nil]
      exact hAlternates
    · rw [hear_nil]
      exact hAlternates
    · exact hAlternates.hear_singleton (hShows.mpr (Or.inr hIn))
    · refine hAlternates.hear_singleton (Bool.eq_false_iff.mpr fun hCurrent => ?_)
      exact (hShows.mp hCurrent).elim hLocal hIn
    · rw [hear_nil]
      exact hAlternates

namespace Node

/-- Every subscriber of a presence channel is told changes in alternation. -/
def Alternating (node : Node) : Prop :=
  ∀ a c s v, (ChannelKind.fromName c).isPresence = true → (node.memberOf a c s).isSome = true →
    (heard c v (framesTo node.sent a s)).Alternates

theorem Faithful.current_iff {node : Node} (h : node.Faithful fun _ _ _ => False)
    {a c s : String} (hKind : (ChannelKind.fromName c).isPresence = true)
    (hMember : (node.memberOf a c s).isSome = true) (v : String) :
    (heard c v (framesTo node.sent a s)).current = true ↔ node.Present a c v := by
  have hShows := h.shows a c s v hKind hMember
  exact ⟨fun hCurrent => (hShows.2 hCurrent).resolve_right id, hShows.1⟩

theorem Alternating.handleIncoming {node : Node} (hNode : node.Alternating)
    (h : node.Faithful fun _ _ _ => False) (now : Instant) (env : ScalingEnvelope)
    (origin channel : String) (update : PresenceUpdate)
    (hPayload : env.payload = update.payload origin channel)
    (hFresh : ∀ app, node.accepting now env origin channel = some app →
      node.FreshRosters now app.id channel)
    (hEffective : ∀ app, node.accepting now env origin channel = some app →
      update.Effective app.id origin channel node.presenceCache) :
    (node.handleIncoming now env).Alternating := by
  intro a c s v hKind hMember
  cases hAccept : node.accepting now env origin channel with
  | none =>
    obtain ⟨hApps, hSent, -, -⟩ := node.handleIncoming_ignored now env origin channel update
      hPayload hAccept
    rw [memberOf, hApps] at hMember
    rw [hSent]
    exact hNode a c s v hKind hMember
  | some app =>
    have hHeard := (node.observe now origin app ("p:" ++ channel) env.seq).heard_applyUpdate now
      app origin channel (node.findChannel app.id channel) update a s c v
    obtain ⟨hSent, -, hCache⟩ := node.observe_same now origin app ("p:" ++ channel) env.seq
    rw [hSent, hCache] at hHeard
    rw [node.handleIncoming_accepted now env origin channel update hPayload hAccept] at hMember ⊢
    refine (congrArg Hearing.Alternates hHeard).mpr ?_
    split
    · rename_i hHere
      obtain ⟨rfl, rfl, -⟩ := hHere
      refine alternates_change (hNode app.id channel s v hKind hMember) ?_
        (fun n u hLists => (hFresh app hAccept).listsLive hLists) (hEffective app hAccept)
      rw [presentWith_findChannel h.wellFormed]
      exact h.current_iff hKind hMember v
    · rw [hear_nil]
      exact hNode a c s v hKind hMember

theorem Alternating.handleSubscribe {node : Node} (hNode : node.Alternating)
    (h : node.Faithful fun _ _ _ => False) (now : Instant) (app : Application)
    (socketId channel : String) {presence : Option PresenceMember}
    (hPresence : presence.isSome = (ChannelKind.fromName channel).isPresence)
    (hFresh : node.FreshRosters now app.id channel) :
    (node.handleSubscribe now app socketId channel presence).Alternating := by
  intro a c s v hKind hMember
  rw [memberOf_handleSubscribe] at hMember
  rw [heard_handleSubscribe]
  split
  · rename_i hAdmit
    rw [heard_joinServer]
    split
    · rename_i hJoiner
      obtain ⟨rfl, rfl⟩ := hJoiner
      by_cases hc : c = channel
      · subst hc
        obtain ⟨data, hData, -⟩ := mem_joinReply h.wellFormed now app s c hKind hPresence
        rw [hearStep, hData]
        exact Alternation.alternates_nil _
      · rw [if_neg (fun hAll => hc hAll.1.2.1)] at hMember
        rw [hearStep_of_none (node.joinReply_roster_ne now app s channel presence fun hEq =>
          absurd hEq hc) (node.joinReply_change ..)]
        exact hNode app.id c s v hKind hMember
    · rename_i hOther
      rw [if_neg (fun hAll => hOther ⟨hAll.1.1.symm, hAll.1.2.2⟩)] at hMember
      split
      · rename_i hTold
        obtain ⟨⟨rfl, rfl, -⟩, hUser, hNew, hAdded, hRemote⟩ := hTold
        refine (hNode app.id channel s v hKind hMember).hear_singleton
          (Bool.eq_false_iff.mpr fun hCurrent => ?_)
        obtain ⟨hExact, hChannelKind⟩ := (h.wellFormed app.id).entryOrNew app channel
        rw [joinedChannel, Channel.subscribe_wasNew] at hNew
        rw [joinedChannel, hExact.subscribe_userAdded hNew (by rw [hPresence, hChannelKind]) hUser,
          AppChannels.hasMember_entryOrNew] at hAdded
        rcases (h.current_iff hKind hMember v).mp hCurrent with hHas | ⟨n, hLists⟩
        · exact hAdded hHas
        · obtain ⟨pm, rfl, rfl⟩ := Option.map_eq_some_iff.mp hUser
          have hLive := (isPresentExcluding_iff node.presenceCache now app.id channel
            pm.userId none).mpr ⟨n, by simp, hFresh.listsLive hLists⟩
          exact Bool.false_ne_true (hRemote.symm.trans hLive)
      · rw [hear_nil]
        exact hNode a c s v hKind hMember
  · rename_i hReject
    rw [if_neg (fun hAll => hReject hAll.2)] at hMember
    exact hNode a c s v hKind hMember

theorem Alternating.leaveChannel {node : Node} (hNode : node.Alternating)
    (h : node.Faithful fun _ _ _ => False) (now : Instant) (app : Application)
    (socketId channel : String) : (node.leaveChannel now app socketId channel).Alternating := by
  intro a c s v hKind hMember
  rw [memberOf_leaveChannel] at hMember
  split at hMember
  · cases hMember
  cases hFind : node.findChannel app.id channel with
  | none =>
    rw [leaveChannel_none _ _ _ _ _ hFind]
    exact hNode a c s v hKind hMember
  | some ch =>
    rw [sent_leaveChannel _ _ _ _ _ hFind, Server.heard_onUnsubscribed]
    split
    · rename_i hTold
      obtain ⟨⟨rfl, rfl, -⟩, hLast, -⟩ := hTold
      rw [userRemoved_iff_lastSocket h.wellFormed hFind socketId v] at hLast
      obtain ⟨⟨m, hStored, hUser⟩, -⟩ := hLast
      exact (hNode app.id channel s v hKind hMember).hear_singleton
        ((h.current_iff hKind hMember v).mpr (Or.inl ⟨socketId, m, hStored, hUser⟩))
    · rw [hear_nil]
      exact hNode a c s v hKind hMember

end Node

end Zatat
