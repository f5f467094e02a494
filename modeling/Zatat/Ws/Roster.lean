import Zatat.Lib.Run
import Zatat.Scaling.Delivery
import Zatat.Ws.JoinLeave

/-! # What a subscriber sees

A user is present in a channel when a local socket or some stored roster of a
peer says so. Each operation on a node decides for itself whether to tell the
subscribers; the invariant `Faithful` says that what each of them has been told
adds up to who is present. It allows for users whose departure is known and
still has to be announced.

The decisions of a join, a leave and a live removal ignore rosters past their
time to live, so each step lemma asks that nobody is listed by such rosters
alone.
-/

namespace Zatat

open FiniteMap Hearing PresenceCache AppChannels Server Channel AList

variable {current : Bool} {present present' pending : Prop}

/-- A subscriber sees a user who is present, and no others but those whose
departure is pending. -/
def Shows (current : Bool) (present pending : Prop) : Prop :=
  (present → current = true) ∧ (current = true → present ∨ pending)

theorem Shows.congr (h : Shows current present pending) (hIff : present' ↔ present) :
    Shows current present' pending := by
  rwa [Shows, hIff]

theorem Shows.of_present (h : present) : Shows true present pending :=
  ⟨fun _ => rfl, fun _ => Or.inl h⟩

theorem Shows.of_absent (h : ¬ present) : Shows false present pending :=
  ⟨fun hPresent => absurd hPresent h, fun hFalse => (by cases hFalse)⟩

theorem Shows.stay (h : Shows current present pending) (hBefore : present) (hAfter : present') :
    Shows current present' pending :=
  ⟨fun _ => h.1 hBefore, fun _ => Or.inl hAfter⟩

namespace PresenceUpdate

theorem lists_cache (now : Instant) (appId origin channel : String) (cache : PresenceCache)
    (update : PresenceUpdate) {a c n : String} (hOther : ¬ (a = appId ∧ c = channel ∧ n = origin))
    (v : String) :
    (update.cache now appId origin channel cache).Lists a c n v ↔ cache.Lists a c n v := by
  cases update with
  | added u info =>
    rw [PresenceUpdate.cache, lists_addLive]
    exact or_iff_right fun h => hOther ⟨h.1, h.2.1, h.2.2.1⟩
  | removed u w v =>
    rw [PresenceUpdate.cache, lists_removeLive]
    exact and_iff_right fun h => hOther ⟨h.1, h.2.1, h.2.2.1⟩
  | roster members =>
    rw [PresenceUpdate.cache, lists_insertSnapshot, if_neg hOther]

/-- For a removal: if some other peer still lists the user, one within its time
to live does. -/
def Agrees (now : Instant) (appId origin channel : String) (cache : PresenceCache)
    (found : Option Channel) : PresenceUpdate → Prop
  | .removed u _ _ => Server.presentIn found u = false →
    (∃ n, n ≠ origin ∧ cache.Lists appId channel n u) →
    ∃ n, n ≠ origin ∧ cache.ListsLive now appId channel n u
  | _ => True

variable {now : Instant} {appId origin channel : String} {cache : PresenceCache}
  {found : Option Channel} {v : String} {pending : Prop}

def PresentWith (cache : PresenceCache) (appId channel : String) (found : Option Channel)
    (v : String) : Prop :=
  Server.presentIn found v = true ∨ ∃ n, cache.Lists appId channel n v

theorem shows_added (u : String) (info : Option Value) {h : Hearing}
    (hShows : Shows h.current (PresentWith cache appId channel found v) pending) :
    Shows (h.hear ((PresenceUpdate.added u info).change now appId origin channel cache found
      v)).current
      (PresentWith ((PresenceUpdate.added u info).cache now appId origin channel cache) appId
        channel found v) pending := by
  simp only [PresenceUpdate.cache, PresenceUpdate.change, PresentWith, lists_addLive, true_and]
  by_cases hUser : u = v
  · subst hUser
    have hAfter : presentIn found u = true ∨
        ∃ n, n = origin ∧ u = u ∨ cache.Lists appId channel n u :=
          Or.inr ⟨origin, Or.inl ⟨rfl, rfl⟩⟩
    split
    · rw [current_hear]
      exact Shows.of_present hAfter
    · rename_i hSilent
      rw [hear_nil]
      refine hShows.stay ?_ hAfter
      by_contra hAbsent
      rw [PresentWith, not_or, Bool.not_eq_true] at hAbsent
      refine hSilent ⟨rfl, hAbsent.1, ?_⟩
      rw [← Bool.not_eq_true, isPresentExcluding_iff]
      rintro ⟨n, -, hLive⟩
      exact hAbsent.2 ⟨n, hLive.lists⟩
  · rw [if_neg (fun hAll => hUser hAll.1), hear_nil]
    refine hShows.congr (or_congr_right (exists_congr fun n => or_iff_right ?_))
    exact fun hAll => hUser hAll.2.symm

theorem shows_removed (u : String) (w w' : Bool) {h : Hearing}
    (hAgrees : (PresenceUpdate.removed u w w').Agrees now appId origin channel cache found)
    (hShows : Shows h.current (PresentWith cache appId channel found v) pending) :
    Shows (h.hear ((PresenceUpdate.removed u w w').change now appId origin channel cache found
      v)).current
      (PresentWith ((PresenceUpdate.removed u w w').cache now appId origin channel cache) appId
        channel found v) pending := by
  simp only [PresenceUpdate.cache, PresenceUpdate.change, PresentWith, lists_removeLive, true_and]
  by_cases hUser : u = v
  · subst hUser
    have hGone : (cache.removeLive now appId channel origin u).2.isPresentExcluding now appId
        channel u none = true ↔ ∃ n, n ≠ origin ∧ cache.ListsLive now appId channel n u := by
      rw [isPresentExcluding_iff]
      refine exists_congr fun n => ?_
      rw [PresenceCache.ListsLive, roster_removeLive]
      by_cases hn : n = origin
      · subst hn
        simp [mem_erase]
      · simp [hn, PresenceCache.ListsLive]
    split
    · rename_i hTold
      rw [current_hear]
      refine Shows.of_absent ?_
      rintro (hLocal | ⟨n, hNot, hLists⟩)
      · rw [hTold.2.1] at hLocal
        cases hLocal
      · have hLive := hAgrees hTold.2.1 ⟨n, fun hn => hNot ⟨hn, rfl⟩, hLists⟩
        rw [hGone.mpr hLive] at hTold
        cases hTold.2.2
    · rename_i hSilent
      rw [hear_nil]
      have hStill : presentIn found u = true ∨
          ∃ n, n ≠ origin ∧ cache.ListsLive now appId channel n u := by
        by_contra hNot
        rw [not_or, Bool.not_eq_true, ← hGone, Bool.not_eq_true] at hNot
        exact hSilent ⟨rfl, hNot⟩
      rcases hStill with hLocal | ⟨n, hn, hLive⟩
      · exact hShows.stay (Or.inl hLocal) (Or.inl hLocal)
      · exact hShows.stay (Or.inr ⟨n, hLive.lists⟩) (Or.inr ⟨n, fun hAll => hn hAll.1, hLive.lists⟩)
  · rw [if_neg (fun hAll => hUser hAll.1), hear_nil]
    refine hShows.congr (or_congr_right (exists_congr fun n => and_iff_right ?_))
    exact fun hAll => hUser hAll.2.symm

theorem shows_roster (members : List PresenceSnapshotMember) {h : Hearing}
    (hShows : Shows h.current (PresentWith cache appId channel found v) pending) :
    Shows (h.hear ((PresenceUpdate.roster members).change now appId origin channel cache found
      v)).current
      (PresentWith ((PresenceUpdate.roster members).cache now appId origin channel cache) appId
        channel found v) pending := by
  have hBefore := mem_announcedUserIds cache appId channel v
  have hAfter := mem_announcedUserIds
    (cache.insertSnapshot now appId channel origin members) appId channel v
  simp only [PresenceUpdate.cache, PresenceUpdate.change, PresentWith, rosterChange, ← hAfter]
  rw [PresentWith, ← hBefore] at hShows
  by_cases hLocal : presentIn found v = true
  · rw [if_pos hLocal, hear_nil]
    exact hShows.stay (Or.inl hLocal) (Or.inl hLocal)
  · rw [if_neg hLocal]
    split_ifs with hIn hOut hOut
    · rw [hear_nil]
      exact hShows.stay (Or.inr hIn) (Or.inr hOut)
    · rw [current_hear]
      exact Shows.of_absent (not_or.mpr ⟨hLocal, hOut⟩)
    · rw [current_hear]
      exact Shows.of_present (Or.inr hOut)
    · rw [hear_nil]
      exact hShows.congr (or_congr_right (iff_of_false hOut hIn))

theorem shows_change {update : PresenceUpdate} {h : Hearing}
    (hAgrees : update.Agrees now appId origin channel cache found)
    (hShows : Shows h.current (PresentWith cache appId channel found v) pending) :
    Shows (h.hear (update.change now appId origin channel cache found v)).current
      (PresentWith (update.cache now appId origin channel cache) appId channel found v)
      pending := by
  cases update with
  | added u info => exact shows_added u info hShows
  | removed u w w' => exact shows_removed u w w' hAgrees hShows
  | roster members => exact shows_roster members hShows

end PresenceUpdate

namespace Node

def Present (node : Node) (a c v : String) : Prop :=
  node.HasUser a c v ∨ ∃ n, node.presenceCache.Lists a c n v

structure Faithful (node : Node) (pending : String → String → String → Prop) : Prop where
  wellFormed : node.WellFormed
  shows : ∀ a c s v, (ChannelKind.fromName c).isPresence = true →
    (node.memberOf a c s).isSome = true →
    Shows (heard c v (framesTo node.sent a s)).current (node.Present a c v) (pending a c v)

theorem new_faithful (nodeId : String) (scaling : Bool) (config : String → Option Application)
    (pending : String → String → String → Prop) : (new nodeId scaling config).Faithful pending where
  wellFormed _ := ⟨fun _ _ hFind => (by cases hFind), fun _ _ hFind => (by cases hFind)⟩
  shows a c s v _ hMember := by cases hMember

theorem reaches_findChannel (node : Node) (a c s : String) :
    reaches (node.findChannel a c) s = (node.memberOf a c s).isSome := by
  rw [memberOf, AppChannels.memberOf, findChannel]
  cases (node.apps a).findChannel c with
  | none => rfl
  | some ch =>
    rw [reaches, Option.bind_some, Bool.eq_iff_iff, decide_eq_true_eq, lookup_isSome]

variable {node : Node} {pending : String → String → String → Prop}
  {presence : Option PresenceMember}

theorem presentIn_findChannel (h : node.WellFormed) (a c v : String) :
    presentIn (node.findChannel a c) v = true ↔ node.HasUser a c v := by
  rw [findChannel, HasUser]
  cases hFind : (node.apps a).findChannel c with
  | none =>
    exact iff_of_false (by simp [presentIn]) (not_hasUser_of_none hFind v)
  | some ch =>
    rw [presentIn, ((h a).exact c ch hFind).hasUserId_iff, hasUser_of_find hFind v]

theorem presentWith_findChannel (h : node.WellFormed) (a c v : String) :
    PresenceUpdate.PresentWith node.presenceCache a c (node.findChannel a c) v ↔
      node.Present a c v := by
  rw [PresenceUpdate.PresentWith, presentIn_findChannel h, Present]

/-! ## Incoming updates -/

theorem Faithful.applyUpdate (h : node.Faithful pending) {srv : Server}
    (hSent : srv.sent = node.sent) (hCache : srv.presenceCache = node.presenceCache) (now : Instant)
    (app : Application) (origin channel : String) (update : PresenceUpdate)
    (hAgrees : update.Agrees now app.id origin channel node.presenceCache
      (node.findChannel app.id channel)) :
    (node.setServer (srv.applyUpdate now app origin channel (node.findChannel app.id channel)
      update)).Faithful pending := by
  refine ⟨h.wellFormed, fun a c s v hKind hMember => ?_⟩
  have hHeard := srv.heard_applyUpdate now app origin channel (node.findChannel app.id channel)
    update a s c v
  have hCache' : (node.setServer (srv.applyUpdate now app origin channel
      (node.findChannel app.id channel) update)).presenceCache =
      update.cache now app.id origin channel node.presenceCache := by
    refine (congrArg EventDispatcher.PeerKnowledge.presenceCache (known_applyUpdate ..)).trans ?_
    rw [hCache]
  rw [hSent, hCache] at hHeard
  have hBefore := h.shows a c s v hKind hMember
  refine (congrArg (fun x : Hearing => Shows x.current _ _) hHeard).mpr ?_
  rw [Present, hCache']
  by_cases hHere : app.id = a ∧ channel = c
  · obtain ⟨rfl, rfl⟩ := hHere
    have hReach : reaches (node.findChannel app.id channel) s = true :=
      (node.reaches_findChannel ..).trans hMember
    rw [if_pos ⟨rfl, rfl, hReach⟩]
    have hAfter := PresenceUpdate.shows_change hAgrees
      (hBefore.congr (presentWith_findChannel h.wellFormed app.id channel v))
    refine hAfter.congr ?_
    rw [PresenceUpdate.PresentWith, presentIn_findChannel h.wellFormed]
    rfl
  · rw [if_neg (fun hAll => hHere ⟨hAll.1, hAll.2.1⟩), hear_nil]
    refine hBefore.congr (or_congr_right (exists_congr fun n => ?_))
    exact update.lists_cache now app.id origin channel node.presenceCache
      (fun hAll => hHere ⟨hAll.1.symm, hAll.2.1.symm⟩) v

theorem Faithful.handleIncoming (h : node.Faithful pending) (now : Instant) (env : ScalingEnvelope)
    (origin channel : String) (update : PresenceUpdate)
    (hPayload : env.payload = update.payload origin channel)
    (hAgrees : ∀ app, node.accepting now env origin channel = some app →
      update.Agrees now app.id origin channel node.presenceCache
        (node.findChannel app.id channel)) : (node.handleIncoming now env).Faithful pending := by
  cases hAccept : node.accepting now env origin channel with
  | none =>
    obtain ⟨hApps, hSent, -, hLists⟩ := node.handleIncoming_ignored now env origin channel update
      hPayload hAccept
    refine ⟨by rw [WellFormed, hApps]; exact h.wellFormed, fun a c s v hKind hMember => ?_⟩
    rw [memberOf, hApps] at hMember
    rw [hSent]
    refine (h.shows a c s v hKind hMember).congr ?_
    simp only [Present, HasUser, hApps, hLists]
  | some app =>
    rw [node.handleIncoming_accepted now env origin channel update hPayload hAccept]
    obtain ⟨hSent, -, hCache⟩ := node.observe_same now origin app ("p:" ++ channel) env.seq
    exact h.applyUpdate hSent hCache now app origin channel update (hAgrees app hAccept)

/-! ## Joins -/

theorem hasMember_joinedChannel (node : Node) (app : Application) (socketId channel : String)
    (presence : Option PresenceMember) (v : String) :
    (node.joinedChannel app socketId channel presence).2.HasMember v ↔
      node.HasUser app.id channel v ∨ (node.memberOf app.id channel socketId = none ∧
          presence.map PresenceMember.userId = some v) := by
  have hStored := lookup_entryOrNew (node.apps app.id) app channel socketId
  have hBefore := hasMember_entryOrNew (node.apps app.id) app channel v
  rw [joinedChannel, memberOf, ← hStored, HasUser, ← hBefore, lookup_eq_none]
  by_cases hMem : socketId ∈ ((node.apps app.id).entryOrNew app channel).members
  · rw [subscribe_of_mem hMem]
    exact (or_iff_left fun hAll => hAll.1 hMem).symm
  · rw [hasMember_subscribe hMem, or_comm]
    exact or_congr_right (and_iff_right hMem).symm

theorem hasUser_handleSubscribe (node : Node) (now : Instant) (app : Application)
    (socketId channel : String) (presence : Option PresenceMember) (a c v : String) :
    (node.handleSubscribe now app socketId channel presence).HasUser a c v ↔
      if (a = app.id ∧ c = channel) ∧ (node.admission now app channel presence).admitted = true
      then (node.joinedChannel app socketId channel presence).2.HasMember v
      else node.HasUser a c v := by
  have hMembers (s : String) :=
    node.memberOf_handleSubscribe now app socketId channel presence a c s
  split
  · rename_i hHere
    obtain ⟨⟨rfl, rfl⟩, hAdmit⟩ := hHere
    refine exists_congr fun s => exists_congr fun m => and_congr_left fun _ => ?_
    have hLookup := lookup_subscribe ((node.apps app.id).entryOrNew app c) socketId presence s
    rw [joinedChannel, hLookup, lookup_entryOrNew, lookup_entryOrNew]
    refine Iff.of_eq (congrArg (· = some m) ((hMembers s).trans ?_))
    by_cases hs : s = socketId
    · rw [if_pos ⟨⟨rfl, rfl, hs⟩, hAdmit⟩, if_pos hs, hs]
      rfl
    · rw [if_neg (fun hAll => hs hAll.1.2.2), if_neg hs]
      rfl
  · rename_i hElse
    refine exists_congr fun s => exists_congr fun m => and_congr_left fun _ => ?_
    exact Iff.of_eq (congrArg (· = some m)
      ((hMembers s).trans (if_neg fun hAll => hElse ⟨⟨hAll.1.1, hAll.1.2.1⟩, hAll.2⟩)))

/-- Whoever is listed is in the roster the joiner gets: listed within the time to
live, or local, or the joiner. -/
def JoinAgrees (node : Node) (now : Instant) (app : Application) (socketId channel : String)
    (presence : Option PresenceMember) : Prop :=
  (node.admission now app channel presence).admitted = true →
    ∀ n u, node.presenceCache.Lists app.id channel n u →
      (∃ n', node.presenceCache.ListsLive now app.id channel n' u) ∨
        node.HasUser app.id channel u ∨
        (node.memberOf app.id channel socketId = none ∧
          presence.map PresenceMember.userId = some u)

theorem shows_join (h : node.WellFormed) (now : Instant) (app : Application)
    (socketId channel : String)
    (hPresence : presence.isSome = (ChannelKind.fromName channel).isPresence) {v : String}
    {hearing : Hearing} {pending : Prop}
    (hShows : Shows hearing.current (node.Present app.id channel v) pending) :
    Shows (hearing.hear (if presence.map PresenceMember.userId = some v ∧
        (node.joinedChannel app socketId channel presence).1.wasNew = true ∧
        (node.joinedChannel app socketId channel presence).1.userAdded = true ∧
        (node.admission now app channel presence).remotelyPresent = false
      then [true] else [])).current
      ((node.joinedChannel app socketId channel presence).2.HasMember v ∨
        ∃ n, node.presenceCache.Lists app.id channel n v) pending := by
  have hAfter := node.hasMember_joinedChannel app socketId channel presence v
  obtain ⟨hExact, hKind⟩ := (h app.id).entryOrNew app channel
  split
  · rename_i hTold
    rw [current_hear]
    refine Shows.of_present (Or.inl (hAfter.mpr (Or.inr ⟨?_, hTold.1⟩)))
    have hNew := (subscribe_wasNew ..).mp hTold.2.1
    rw [← lookup_eq_none, lookup_entryOrNew] at hNew
    exact hNew
  · rename_i hSilent
    rw [hear_nil]
    by_cases hBefore : node.Present app.id channel v
    · exact hShows.stay hBefore (hBefore.imp_left fun hUser => hAfter.mpr (Or.inl hUser))
    · refine hShows.congr (iff_of_false ?_ hBefore)
      rintro (hMember | hLists)
      · -- a user nobody listed who is now a member was announced
        rcases hAfter.mp hMember with hUser | ⟨hNone, hUser⟩
        · exact hBefore (Or.inl hUser)
        · have hNew : socketId ∉ ((node.apps app.id).entryOrNew app channel).members := by
            rw [← lookup_eq_none, lookup_entryOrNew]
            exact hNone
          refine hSilent ⟨hUser, (subscribe_wasNew ..).mpr hNew, ?_, ?_⟩
          · refine (hExact.subscribe_userAdded hNew (by rw [hPresence, hKind]) hUser).mpr ?_
            rw [hasMember_entryOrNew]
            exact fun hUser => hBefore (Or.inl hUser)
          · obtain ⟨pm, rfl, rfl⟩ := Option.map_eq_some_iff.mp hUser
            refine Bool.eq_false_iff.mpr fun hRemote => ?_
            obtain ⟨n, -, hLive⟩ := (isPresentExcluding_iff ..).mp hRemote
            exact hBefore (Or.inr ⟨n, hLive.lists⟩)
      · exact hBefore (Or.inr hLists)

theorem Faithful.handleSubscribe (h : node.Faithful pending) (now : Instant) (app : Application)
    (socketId channel : String)
    (hPresence : presence.isSome = (ChannelKind.fromName channel).isPresence)
    (hAgrees : node.JoinAgrees now app socketId channel presence) :
    (node.handleSubscribe now app socketId channel presence).Faithful pending := by
  refine ⟨h.wellFormed.handleSubscribe now app socketId channel hPresence,
    fun a c s v hKind hMember => ?_⟩
  have hCache : (node.handleSubscribe now app socketId channel presence).presenceCache =
      node.presenceCache :=
    congrArg EventDispatcher.PeerKnowledge.presenceCache (node.handleSubscribe_same ..).1
  rw [Present, hCache, hasUser_handleSubscribe, heard_handleSubscribe]
  rw [memberOf_handleSubscribe] at hMember
  cases hAdmit : (node.admission now app channel presence).admitted with
  | false =>
    rw [if_neg (by decide), if_neg (by simp)]
    rw [hAdmit, if_neg (by simp)] at hMember
    exact h.shows a c s v hKind hMember
  | true =>
    rw [if_pos rfl, heard_joinServer]
    rw [hAdmit] at hMember
    by_cases hJoiner : app.id = a ∧ s = socketId
    · obtain ⟨rfl, rfl⟩ := hJoiner
      rw [if_pos ⟨rfl, rfl⟩]
      by_cases hc : c = channel
      · subst hc
        obtain ⟨data, hData, hIds⟩ := mem_joinReply h.wellFormed now app s c hKind hPresence
        rw [if_pos ⟨⟨rfl, rfl⟩, rfl⟩, hearStep, hData]
        have hCurrent : (Hearing.mk (decide (v ∈ data.ids)) []).current = true ↔
            v ∈ data.ids := decide_eq_true_iff
        refine ⟨fun hPresent => hCurrent.mpr ((hIds v).mpr ?_), fun hShown => Or.inl ?_⟩
        · rcases hPresent with hUser | ⟨n, hLists⟩
          · exact Or.inl hUser
          · rcases hAgrees hAdmit n v hLists with hLive | hUser
            · exact Or.inr hLive
            · exact Or.inl ((node.hasMember_joinedChannel ..).mpr hUser)
        · rcases (hIds v).mp (hCurrent.mp hShown) with hUser | ⟨n, hLive⟩
          · exact Or.inl hUser
          · exact Or.inr ⟨n, hLive.lists⟩
      · rw [if_neg (fun hAll => hc hAll.1.2.1)] at hMember
        rw [if_neg (fun hAll => hc hAll.1.2),
          hearStep_of_none (node.joinReply_roster_ne now app s channel presence fun hEq =>
            absurd hEq hc) (node.joinReply_change ..)]
        exact h.shows app.id c s v hKind hMember
    · rw [if_neg hJoiner]
      rw [if_neg (fun hAll => hJoiner ⟨hAll.1.1.symm, hAll.1.2.2⟩)] at hMember
      have hBefore := h.shows a c s v hKind hMember
      by_cases hHere : a = app.id ∧ c = channel
      · obtain ⟨rfl, rfl⟩ := hHere
        simp only [hMember, true_and, and_self, if_true]
        exact shows_join h.wellFormed now app socketId c hPresence hBefore
      · rw [if_neg (fun hAll => hHere ⟨hAll.1.1.symm, hAll.1.2.1.symm⟩), hear_nil,
          if_neg (fun hAll => hHere hAll.1)]
        exact hBefore

/-! ## Leaves -/

def LastSocket (node : Node) (a c s u : String) : Prop :=
  (∃ m, node.memberOf a c s = some m ∧ m.user = some u) ∧
    ∀ s' m, node.memberOf a c s' = some m → m.user = some u → s' = s

theorem hasUser_leaveChannel (node : Node) (now : Instant) (app : Application)
    (socketId channel a c v : String) : (node.leaveChannel now app socketId channel).HasUser a c v ↔
      ∃ s m, node.memberOf a c s = some m ∧ m.user = some v ∧
        ¬ (a = app.id ∧ c = channel ∧ s = socketId) := by
  refine exists_congr fun s => exists_congr fun m => ?_
  have hMember := node.memberOf_leaveChannel now app socketId channel a c s
  constructor
  · rintro ⟨hAfter, hUser⟩
    have hAfter' := hMember.symm.trans hAfter
    split at hAfter'
    · cases hAfter'
    · rename_i hOther
      exact ⟨hAfter', hUser, hOther⟩
  · rintro ⟨hBefore, hUser, hOther⟩
    exact ⟨hMember.trans ((if_neg hOther).trans hBefore), hUser⟩

theorem userRemoved_iff_lastSocket (h : node.WellFormed) {a c : String} {ch : Channel}
    (hFind : node.findChannel a c = some ch) (s u : String) :
    (ch.unsubscribe s).1.userRemoved = some u ↔ node.LastSocket a c s u := by
  have hStored (s' : String) : node.memberOf a c s' = ch.members.lookup s' :=
    memberOf_of_find hFind s'
  rw [((h a).exact c ch hFind).unsubscribe_userRemoved, LastSocket]
  simp only [hStored, Channel.HasMember, unsubscribe_members, lookup_erase_if]
  constructor
  · rintro ⟨⟨s', m, hLookup, hUser⟩, hNone⟩
    have hAll (t : String) (m' : Member) (hLookup' : ch.members.lookup t = some m')
        (hUser' : m'.user = some u) : t = s := by
      by_contra hNe
      exact hNone ⟨t, m', by rw [if_neg hNe]; exact hLookup', hUser'⟩
    have hs := hAll s' m hLookup hUser
    rw [hs] at hLookup
    exact ⟨⟨m, hLookup, hUser⟩, hAll⟩
  · rintro ⟨⟨m, hLookup, hUser⟩, hAll⟩
    refine ⟨⟨s, m, hLookup, hUser⟩, ?_⟩
    rintro ⟨t, m', hLookup', hUser'⟩
    split at hLookup'
    · cases hLookup'
    · rename_i hNe
      exact hNe (hAll t m' hLookup' hUser')

/-- If a user's last socket leaves while some roster lists the user, a roster
within its time to live does. -/
def LeaveAgrees (node : Node) (now : Instant) (app : Application) (socketId channel : String) :
    Prop :=
  ∀ u, node.LastSocket app.id channel socketId u →
    (∃ n, node.presenceCache.Lists app.id channel n u) →
    ∃ n, node.presenceCache.ListsLive now app.id channel n u

theorem Faithful.leaveChannel (h : node.Faithful pending) (now : Instant) (app : Application)
    (socketId channel : String) (hAgrees : node.LeaveAgrees now app socketId channel) :
    (node.leaveChannel now app socketId channel).Faithful pending := by
  refine ⟨h.wellFormed.leaveChannel now app socketId channel, fun a c s v hKind hMember => ?_⟩
  have hCache : (node.leaveChannel now app socketId channel).presenceCache =
      node.presenceCache :=
    congrArg EventDispatcher.PeerKnowledge.presenceCache (node.leaveChannel_same ..).1
  have hUsers := node.hasUser_leaveChannel now app socketId channel a c v
  rw [Present, hCache]
  rw [memberOf_leaveChannel] at hMember
  split at hMember
  · cases hMember
  rename_i hOther
  have hBefore := h.shows a c s v hKind hMember
  cases hFind : node.findChannel app.id channel with
  | none =>
    rw [leaveChannel_none _ _ _ _ _ hFind]
    exact hBefore
  | some ch =>
    have hRemoved := userRemoved_iff_lastSocket h.wellFormed hFind socketId v
    rw [sent_leaveChannel _ _ _ _ _ hFind, heard_onUnsubscribed]
    split
    · rename_i hTold
      obtain ⟨⟨rfl, rfl, -⟩, hLast, -, -, hGone⟩ := hTold
      rw [hRemoved] at hLast
      rw [current_hear]
      refine Shows.of_absent ?_
      rintro (hUser | hLists)
      · obtain ⟨t, m, hStored, hUser, hNe⟩ := hUsers.mp hUser
        exact hNe ⟨rfl, rfl, hLast.2 t m hStored hUser⟩
      · obtain ⟨n, hLive⟩ := hAgrees v hLast hLists
        rw [(isPresentExcluding_iff ..).mpr ⟨n, by simp, hLive⟩] at hGone
        cases hGone
    · rename_i hSilent
      rw [hear_nil]
      by_cases hGone : node.HasUser a c v ∧
          ¬ (node.leaveChannel now app socketId channel).HasUser a c v
      · -- the last socket left in silence: a roster still lists the user
        obtain ⟨⟨t, m, hStored, hUser⟩, hNone⟩ := hGone
        have hOnly (t' : String) (m' : Member) (hStored' : node.memberOf a c t' = some m')
            (hUser' : m'.user = some v) : a = app.id ∧ c = channel ∧ t' = socketId := by
          by_contra hNe
          exact hNone (hUsers.mpr ⟨t', m', hStored', hUser', hNe⟩)
        obtain ⟨rfl, rfl, rfl⟩ := hOnly t m hStored hUser
        have hMem : t ∈ ch.members := by
          rw [mem_iff_lookup]
          exact ⟨m, (memberOf_of_find hFind t).symm.trans hStored⟩
        have hStay : s ∈ (ch.unsubscribe t).2.members := by
          rw [unsubscribe_members, mem_erase]
          refine ⟨fun hs => hOther ⟨rfl, rfl, hs⟩, lookup_isSome.mp ?_⟩
          rw [← hMember]
          exact congrArg Option.isSome (memberOf_of_find hFind s).symm
        have hLive : node.presenceCache.isPresentExcluding now app.id c v none = true := by
          by_contra hNot
          exact hSilent ⟨⟨rfl, rfl, hStay⟩, hRemoved.mpr ⟨⟨m, hStored, hUser⟩,
            fun t' m' hStored' hUser' => (hOnly t' m' hStored' hUser').2.2⟩,
            (ch.unsubscribe_wasMember t).mpr hMem, hKind, Bool.eq_false_iff.mpr hNot⟩
        obtain ⟨n, -, hLists⟩ := (isPresentExcluding_iff ..).mp hLive
        exact hBefore.stay (Or.inr ⟨n, hLists.lists⟩) (Or.inr ⟨n, hLists.lists⟩)
      · refine hBefore.congr (or_congr_left ⟨fun hAfter => ?_, fun hUser => ?_⟩)
        · obtain ⟨t, m, hStored, hUser, -⟩ := hUsers.mp hAfter
          exact ⟨t, m, hStored, hUser⟩
        · by_contra hNone
          exact hGone ⟨hUser, hNone⟩

end Node

end Zatat
