import Zatat.Ws.Operations

/-! # Withheld reports: one leave, one removal

A node with a single member of a user, in a channel nobody else is in, and
peers that list that user only. What its leave and the removals of its peers
write to the webhooks, to the outbound queue and to the withheld records.
-/

namespace Zatat

open FiniteMap Server EventDispatcher PresenceCache Option

namespace EventDispatcher

variable (d : EventDispatcher) (now : Instant) (app : Application) (channel : String)
  (userId : Option String)

theorem lookup_claimWithheld (key : WithheldKey) :
    (d.claimWithheld now app channel userId).2.withheld.lookup key =
      if key = (app.id, channel, userId) then none else d.withheld.lookup key := by
  rw [claimWithheld]
  split
  · exact lookup_erase_if ..
  · rename_i hNone
    split
    · rename_i hKey
      rw [hKey, hNone]
    · rfl

theorem claimWithheld_fst {d : EventDispatcher} {now noted : Instant} {app : Application}
    {channel : String} {userId : Option String}
    (hNoted : d.withheld.lookup (app.id, channel, userId) = some noted)
    (hWindow : durationSince now noted < withheldWindow) :
    (d.claimWithheld now app channel userId).1 = true := by
  rw [claimWithheld, hNoted]
  exact decide_eq_true hWindow

def queue (d : EventDispatcher) : List ScalingEnvelope × Nat := (d.published, d.seq)

theorem queue_claimWithheld : (d.claimWithheld now app channel userId).2.queue = d.queue := by
  rw [claimWithheld]
  split <;> rfl

theorem queue_acceptSeq (node : String) (app : Application) (key : String) (seq : Nat) :
    (d.acceptSeq now node app key seq).2.queue = d.queue ∧
      (d.acceptSeq now node app key seq).2.withheld = d.withheld := by
  rw [acceptSeq]
  dsimp only
  split
  · exact ⟨rfl, rfl⟩
  · split <;> exact ⟨rfl, rfl⟩

end EventDispatcher

namespace Server

variable (srv : Server) (now : Instant) (app : Application) (origin channel : String)
  (userId : Option String) (due : Bool) (event : WebhookEvent)

theorem webhooks_reportWithheld :
    (srv.reportWithheld now app origin channel userId due event).webhooks =
      srv.webhooks ++ if (due && decide (srv.dispatcher.nodeId < origin)) = true ∧
        (srv.dispatcher.claimWithheld now app channel userId).1 = true then
          [(app.id, event)] else [] := by
  rw [reportWithheld, claimWithheld]
  dsimp only
  split
  · rename_i hDue
    split
    · rename_i hClaimed
      rw [if_pos ⟨hDue, hClaimed⟩]
      rfl
    · rename_i hNot
      rw [if_neg fun h => hNot h.2, List.append_nil]
  · rename_i hNot
    rw [if_neg fun h => hNot h.1, List.append_nil]

theorem dispatcher_reportWithheld :
    (srv.reportWithheld now app origin channel userId due event).dispatcher =
      if (due && decide (srv.dispatcher.nodeId < origin)) = true then
        (srv.dispatcher.claimWithheld now app channel userId).2 else srv.dispatcher := by
  rw [reportWithheld, claimWithheld]
  dsimp only
  split
  · split <;> rfl
  · rfl

theorem withheld_reportWithheld {key : WithheldKey}
    (hKey : due = true → key ≠ (app.id, channel, userId)) :
    (srv.reportWithheld now app origin channel userId due event).dispatcher.withheld.lookup key =
      srv.dispatcher.withheld.lookup key := by
  rw [dispatcher_reportWithheld]
  split
  · rename_i hDue
    rw [Bool.and_eq_true] at hDue
    rw [lookup_claimWithheld, if_neg (hKey hDue.1)]
  · rfl

theorem queue_reportWithheld :
    (srv.reportWithheld now app origin channel userId due event).dispatcher.queue =
      srv.dispatcher.queue := by
  rw [dispatcher_reportWithheld]
  split
  · exact queue_claimWithheld ..
  · rfl

theorem reportWithheld_silent {srv : Server} {origin : String} {due : Bool}
    (hNot : ¬ (due = true ∧ srv.dispatcher.nodeId < origin)) :
    srv.reportWithheld now app origin channel userId due event = srv := by
  rw [reportWithheld, if_neg]
  rw [Bool.and_eq_true, decide_eq_true_eq]
  exact hNot

theorem announce_logs (appId : String) (found : Option Channel) (frame : Frame) :
    (srv.announce appId found frame).webhooks = srv.webhooks ∧
      (srv.announce appId found frame).dispatcher = srv.dispatcher := by
  cases found <;> exact ⟨rfl, rfl⟩

theorem removeRemoteMember_logs (u : String) (found : Option Channel) :
    (srv.removeRemoteMember now app origin channel u found).2.2.webhooks = srv.webhooks ∧
      (srv.removeRemoteMember now app origin channel u found).2.2.dispatcher = { srv.dispatcher with
          presenceCache := (srv.presenceCache.removeLive now app.id channel origin u).2 } := by
  rw [removeRemoteMember]
  dsimp only
  split
  · exact announce_logs ..
  · exact ⟨rfl, rfl⟩

end Server

namespace PresenceCache

section OneUser

variable {cache : PresenceCache} {now : Instant} {a c u : String} {rest : String → Prop}
  (hFresh : ∀ n peer, cache.roster a c n = some peer → peer.expired now = false)
  (hLists : ∀ n v, cache.Lists a c n v ↔ v = u ∧ rest n)
include hFresh hLists

theorem listsLive_iff_rest (n v : String) : cache.ListsLive now a c n v ↔ v = u ∧ rest n := by
  rw [← hLists]
  constructor
  · exact ListsLive.lists
  · rintro ⟨peer, hPeer, hUser⟩
    exact ⟨peer, hPeer, hFresh n peer hPeer, hUser⟩

theorem isPresentExcluding_iff_rest :
    cache.isPresentExcluding now a c u none = true ↔ ∃ n, rest n := by
  rw [isPresentExcluding_iff]
  refine exists_congr fun n => ?_
  rw [listsLive_iff_rest hFresh hLists]
  simp

theorem remoteMembersFor_isEmpty_iff_rest :
    (cache.remoteMembersFor now a c).isEmpty = true ↔ ¬ ∃ n, rest n := by
  rw [List.isEmpty_iff, remoteMembersFor_eq_nil, not_exists]
  refine forall_congr' fun n => ?_
  simp only [listsLive_iff_rest hFresh hLists]
  constructor
  · intro hNone hRest
    exact hNone u ⟨rfl, hRest⟩
  · intro hNot v hv
    exact hNot hv.2

end OneUser

end PresenceCache

namespace Node

/-- All that is known of the channel is one user: a member socket of the node's
own while `here`, and the peers in `rest`. -/
structure Stands (node : Node) (app : Application) (c u s : String) (here : Bool)
    (rest : String → Prop) : Prop where
  config : node.config app.id = some app
  wellFormed : node.WellFormed
  member : here = true → ∃ m, node.memberOf app.id c s = some m ∧ m.user = some u
  others : ∀ t, (node.memberOf app.id c t).isSome = true → here = true ∧ t = s
  lists : ∀ n v, node.presenceCache.Lists app.id c n v ↔ v = u ∧ rest n

section Stands

variable {node : Node} {app : Application} {c u s : String} {here : Bool} {rest : String → Prop}

theorem Stands.congr {rest' : String → Prop} (h : node.Stands app c u s here rest)
    (hRest : ∀ n, rest' n ↔ rest n) : node.Stands app c u s here rest' :=
  ⟨h.config, h.wellFormed, h.member, h.others, fun n v => by rw [h.lists, hRest]⟩

theorem Stands.presentIn (h : node.Stands app c u s here rest) :
    Server.presentIn (node.findChannel app.id c) u = here := by
  rw [Bool.eq_iff_iff, presentIn_findChannel h.wellFormed]
  constructor
  · rintro ⟨t, m, hMember, -⟩
    have hSome : (node.memberOf app.id c t).isSome = true :=
      isSome_iff_exists.mpr ⟨m, hMember⟩
    exact (h.others t hSome).1
  · intro hHere
    obtain ⟨m, hMember, hUser⟩ := h.member hHere
    exact ⟨s, m, hMember, hUser⟩

theorem emptyOrAbsent_iff (node : Node) (a c : String) :
    Server.emptyOrAbsent (node.findChannel a c) = true ↔ ∀ t, node.memberOf a c t = none := by
  cases hFind : node.findChannel a c with
  | none =>
    refine iff_of_true rfl fun t => ?_
    rw [memberOf, AppChannels.memberOf]
    exact congrArg (fun found => Option.bind found fun ch => ch.members.lookup t) hFind
  | some ch =>
    have hMember (t : String) : node.memberOf a c t = ch.members.lookup t :=
      AppChannels.memberOf_of_find hFind t
    simp only [hMember]
    rw [Server.emptyOrAbsent, Channel.isEmpty, List.isEmpty_iff, entries_eq_nil_iff]

theorem Stands.emptyOrAbsent (h : node.Stands app c u s here rest) :
    Server.emptyOrAbsent (node.findChannel app.id c) = !here := by
  rw [Bool.eq_iff_iff, emptyOrAbsent_iff, Bool.not_eq_true']
  constructor
  · intro hNone
    by_contra hHere
    obtain ⟨m, hMember, -⟩ := h.member (Bool.of_not_eq_false hHere)
    rw [hNone] at hMember
    cases hMember
  · intro hGone t
    by_contra hSome
    have hHere := (h.others t (isSome_iff_ne_none.mpr hSome)).1
    rw [hGone] at hHere
    cases hHere

/-! ## The removal of a peer's member -/

/-- Nobody is left once the origin's member is gone. -/
def LastOne (here : Bool) (rest : String → Prop) (origin : String) : Prop :=
  here = false ∧ ∀ n, rest n → n = origin

def removal (app : Application) (c u origin : String) (seq : Nat) (flag : Bool) :
    ScalingEnvelope :=
  EventDispatcher.envelope app seq (.MemberRemoved origin c u flag flag)

variable {now : Instant} {origin : String} {seq : Nat} (flag : Bool)

theorem handleIncoming_removal (h : node.Stands app c u s here rest)
    (hOrigin : origin ≠ node.dispatcher.nodeId)
    (hNewer : node.dispatcher.applied origin app.id ("p:" ++ c) < seq) :
    node.handleIncoming now (removal app c u origin seq flag) =
      node.setServer ((node.observe now origin app ("p:" ++ c) seq).applyRemoteMemberRemoved now
        app origin c u flag flag (node.findChannel app.id c)) := by
  have hAccept : node.accepting now (removal app c u origin seq flag) origin c = some app := by
    have hConfig : node.config (removal app c u origin seq flag).app.id = some app := h.config
    have hNew : (node.dispatcher.acceptSeq now origin app ("p:" ++ c)
        (removal app c u origin seq flag).seq).1 = true := by
      change (node.dispatcher.acceptSeq now origin app ("p:" ++ c) seq).1 = true
      rw [acceptSeq_fst _ _ _ _ _ (Nat.zero_lt_of_lt hNewer), decide_eq_true hNewer]
    rw [accepting, if_pos ⟨le_rfl, hOrigin⟩, hConfig, filter_some, hNew, if_pos rfl]
  exact node.handleIncoming_accepted now _ origin c (.removed u flag flag) rfl hAccept

section Removal

variable (h : node.Stands app c u s here rest) (hOrigin : origin ≠ node.dispatcher.nodeId)
  (hNewer : node.dispatcher.applied origin app.id ("p:" ++ c) < seq)
include h hOrigin hNewer

theorem known_removal : (node.handleIncoming now (removal app c u origin seq flag)).known =
      { node.known with
        presenceCache := (node.presenceCache.removeLive now app.id c origin u).2
        peersSeen := node.dispatcher.peersSeen.insert origin now
        peerSeqs := (node.dispatcher.acceptSeq now origin app ("p:" ++ c) seq).2.peerSeqs } := by
  have hCache := (node.observe_same now origin app ("p:" ++ c) seq).2.2
  have hKnown := node.known_observe now origin app ("p:" ++ c) seq
  rw [handleIncoming_removal flag h hOrigin hNewer]
  change Server.known (Server.applyRemoteMemberRemoved ..) = _
  rw [(applyRemoteMemberRemoved_same ..).1, known_removeRemoteMember, hCache, hKnown]

theorem Stands.removal :
    (node.handleIncoming now (removal app c u origin seq flag)).Stands app c u s here
      (fun n => rest n ∧ n ≠ origin) := by
  have hCache : (node.handleIncoming now (Node.removal app c u origin seq flag)).presenceCache =
      (node.presenceCache.removeLive now app.id c origin u).2 :=
    congrArg EventDispatcher.PeerKnowledge.presenceCache (known_removal flag h hOrigin hNewer)
  have hApps : (node.handleIncoming now (Node.removal app c u origin seq flag)).apps =
      node.apps := by
    rw [handleIncoming_removal flag h hOrigin hNewer]
    rfl
  have hMember (t : String) : (node.handleIncoming now (Node.removal app c u origin seq
      flag)).memberOf app.id c t = node.memberOf app.id c t := by
    rw [memberOf, memberOf, hApps]
  refine ⟨?_, ?_, ?_, ?_, fun n v => ?_⟩
  · have hConfig : (node.handleIncoming now (Node.removal app c u origin seq flag)).config =
        node.config := by
      rw [handleIncoming_removal flag h hOrigin hNewer]
      change Server.config (Server.applyRemoteMemberRemoved ..) = _
      rw [(applyRemoteMemberRemoved_same ..).2.2, config_removeRemoteMember]
      exact (node.observe_same now origin app ("p:" ++ c) seq).2.1
    rw [hConfig]
    exact h.config
  · intro a
    rw [hApps]
    exact h.wellFormed a
  · rw [hMember]
    exact h.member
  · intro t
    rw [hMember]
    exact h.others t
  · rw [hCache, lists_removeLive, h.lists]
    tauto

theorem applied_removal {n : String} (hn : n ≠ origin) (a k : String) :
    (node.handleIncoming now (removal app c u origin seq flag)).dispatcher.applied n a k =
      node.dispatcher.applied n a k := by
  have hSeqs : (node.handleIncoming now (removal app c u origin seq flag)).dispatcher.peerSeqs =
      (node.dispatcher.acceptSeq now origin app ("p:" ++ c) seq).2.peerSeqs :=
    congrArg EventDispatcher.PeerKnowledge.peerSeqs (known_removal flag h hOrigin hNewer)
  have hApplied := node.dispatcher.applied_acceptSeq now origin app ("p:" ++ c)
    (Nat.zero_lt_of_lt hNewer) n a k
  rw [if_neg fun hAll => hn hAll.1] at hApplied
  rw [← hApplied, applied, applied, hSeqs]

theorem queue_removal :
    (node.handleIncoming now (removal app c u origin seq flag)).dispatcher.queue =
      node.dispatcher.queue := by
  rw [handleIncoming_removal flag h hOrigin hNewer]
  change queue (Server.dispatcher (Server.applyRemoteMemberRemoved ..)) = _
  rw [Server.applyRemoteMemberRemoved]
  dsimp only
  rw [queue_reportWithheld, queue_reportWithheld, (removeRemoteMember_logs ..).2]
  exact (queue_acceptSeq ..).1

end Removal

theorem freshRosters_removeLive (hFresh : node.FreshRosters now app.id c) (n : String)
    (peer : PeerSnapshot)
    (hPeer : (node.presenceCache.removeLive now app.id c origin u).2.roster app.id c n =
      some peer) : peer.expired now = false := by
  rw [roster_removeLive] at hPeer
  split at hPeer
  · obtain ⟨stored, -, rfl⟩ := map_eq_some_iff.mp hPeer
    rw [PeerSnapshot.expired, durationSince_self]
    exact decide_eq_false (Nat.not_lt_zero _)
  · exact hFresh n peer hPeer

theorem Stands.removeRemoteMember (h : node.Stands app c u s here rest) (origin : String)
    (hFresh : node.FreshRosters now app.id c) {srv : Server}
    (hCache : srv.presenceCache = node.presenceCache) :
    ((srv.removeRemoteMember now app origin c u (node.findChannel app.id c)).1 = true ↔
        LastOne here rest origin) ∧
      ((srv.removeRemoteMember now app origin c u (node.findChannel app.id c)).2.1 = true ↔
        LastOne here rest origin) := by
  have hLists (n v : String) :
      (node.presenceCache.removeLive now app.id c origin u).2.Lists app.id c n v ↔
        v = u ∧ rest n ∧ n ≠ origin := by
    rw [lists_removeLive, h.lists]
    tauto
  have hNone : LastOne here rest origin ↔ here = false ∧ ¬ ∃ n, rest n ∧ n ≠ origin := by
    rw [LastOne, not_exists]
    refine and_congr_right fun _ => forall_congr' fun n => ?_
    rw [not_and, not_not]
  have hRest : (srv.withPresenceCache
      (srv.presenceCache.removeLive now app.id c origin u).2).presenceCache =
        (node.presenceCache.removeLive now app.id c origin u).2 := by
    rw [hCache]
    rfl
  rw [Server.removeRemoteMember, h.presentIn, h.emptyOrAbsent, hNone]
  dsimp only
  rw [hRest, Bool.and_eq_true, Bool.and_eq_true, Bool.not_eq_true', Bool.not_eq_true',
    ← Bool.not_eq_true (isPresentExcluding ..),
    isPresentExcluding_iff_rest (freshRosters_removeLive hFresh) hLists,
    remoteMembersFor_isEmpty_iff_rest (freshRosters_removeLive hFresh) hLists]
  exact ⟨Iff.rfl, Iff.rfl⟩

theorem observe_removeRemoteMember_frame (node : Node) (now : Instant) (app : Application)
    (origin c u : String) (seq : Nat) (found : Option Channel) :
    ((node.observe now origin app ("p:" ++ c) seq).removeRemoteMember now app origin c u
        found).2.2.webhooks = node.webhooks ∧
      ((node.observe now origin app ("p:" ++ c) seq).removeRemoteMember now app origin c u
        found).2.2.dispatcher.nodeId = node.dispatcher.nodeId ∧
      ((node.observe now origin app ("p:" ++ c) seq).removeRemoteMember now app origin c u
        found).2.2.dispatcher.withheld = node.dispatcher.withheld := by
  obtain ⟨hWebhooks, hDispatcher⟩ := (node.observe now origin app ("p:" ++ c)
    seq).removeRemoteMember_logs now app origin c u found
  rw [hWebhooks, hDispatcher]
  exact ⟨rfl, congrArg EventDispatcher.PeerKnowledge.nodeId (node.known_observe ..),
    (queue_acceptSeq ..).2⟩

section Reports

variable (h : node.Stands app c u s here rest) (hOrigin : origin ≠ node.dispatcher.nodeId)
  (hNewer : node.dispatcher.applied origin app.id ("p:" ++ c) < seq)
  (hFresh : node.FreshRosters now app.id c)
include h hOrigin hNewer hFresh

theorem removal_silent
    (hNot : ¬ (LastOne here rest origin ∧ flag = true ∧ node.dispatcher.nodeId < origin)) :
    (node.handleIncoming now (removal app c u origin seq flag)).webhooks = node.webhooks ∧
      (node.handleIncoming now (removal app c u origin seq flag)).dispatcher.withheld =
        node.dispatcher.withheld := by
  have hCache := (node.observe_same now origin app ("p:" ++ c) seq).2.2
  obtain ⟨hGone, hEmpty⟩ := h.removeRemoteMember origin hFresh hCache
  obtain ⟨hWebhooks, hId, hRecords⟩ :=
    node.observe_removeRemoteMember_frame now app origin c u seq (node.findChannel app.id c)
  have hSilent {due : Bool} (hDue : due = true ↔ LastOne here rest origin) :
      ¬ ((due && flag) = true ∧
        ((node.observe now origin app ("p:" ++ c) seq).removeRemoteMember now app origin c u
          (node.findChannel app.id c)).2.2.dispatcher.nodeId < origin) := by
    rw [hId, Bool.and_eq_true, hDue, and_assoc]
    exact hNot
  rw [handleIncoming_removal flag h hOrigin hNewer, Server.applyRemoteMemberRemoved]
  dsimp only
  rw [reportWithheld_silent _ _ _ _ _ (hSilent hGone),
    reportWithheld_silent _ _ _ _ _ (hSilent hEmpty)]
  exact ⟨hWebhooks, hRecords⟩

theorem removal_reports (hLast : LastOne here rest origin)
    (hLower : node.dispatcher.nodeId < origin) (hNoted : ∀ userId ∈ [some u, none], ∃ noted,
      node.dispatcher.withheld.lookup (app.id, c, userId) = some noted ∧
        durationSince now noted < withheldWindow) :
    (node.handleIncoming now (removal app c u origin seq true)).webhooks =
      node.webhooks ++ [(app.id, .MemberRemoved c u), (app.id, .ChannelVacated c)] := by
  have hCache := (node.observe_same now origin app ("p:" ++ c) seq).2.2
  obtain ⟨hGone, hEmpty⟩ := h.removeRemoteMember origin hFresh hCache
  obtain ⟨hWebhooks, hId, hRecords⟩ :=
    node.observe_removeRemoteMember_frame now app origin c u seq (node.findChannel app.id c)
  obtain ⟨notedUser, hUser, hUserWindow⟩ := hNoted (some u) (by simp)
  obtain ⟨notedChannel, hChannel, hChannelWindow⟩ := hNoted none (by simp)
  rw [handleIncoming_removal true h hOrigin hNewer, Server.applyRemoteMemberRemoved]
  dsimp only
  rw [hGone.mpr hLast, hEmpty.mpr hLast]
  generalize ((node.observe now origin app ("p:" ++ c) seq).removeRemoteMember now app
    origin c u (node.findChannel app.id c)).2.2 = removed at hWebhooks hId hRecords ⊢
  have hFirst := removed.webhooks_reportWithheld now app origin c (some u) (true && true)
    (.MemberRemoved c u)
  have hClaim := claimWithheld_fst (hRecords ▸ hUser) hUserWindow
  rw [if_pos ⟨by rw [hId, decide_eq_true hLower]; rfl, hClaim⟩, hWebhooks] at hFirst
  have hId' : (removed.reportWithheld now app origin c (some u) (true && true)
      (.MemberRemoved c u)).dispatcher.nodeId = removed.dispatcher.nodeId :=
    congrArg EventDispatcher.PeerKnowledge.nodeId (removed.reportWithheld_same ..).1
  have hKept := removed.withheld_reportWithheld now app origin c (some u) (true && true)
    (.MemberRemoved c u) (fun _ => by simp : _ → (app.id, c, none) ≠ (app.id, c, some u))
  rw [hRecords, hChannel] at hKept
  have hSecond := webhooks_reportWithheld (removed.reportWithheld now app origin c (some u)
    (true && true) (.MemberRemoved c u)) now app origin c none (true && true) (.ChannelVacated c)
  have hClaimed := claimWithheld_fst hKept hChannelWindow
  rw [if_pos ⟨by rw [hId', hId, decide_eq_true hLower]; rfl, hClaimed⟩, hFirst,
    List.append_assoc] at hSecond
  exact hSecond

end Reports

/-! ## The leave of the node's own member -/

theorem Stands.unsubscribe (h : node.Stands app c u s true rest) :
    ∃ ch, node.findChannel app.id c = some ch ∧ (ch.unsubscribe s).1.wasMember = true ∧
      (ch.unsubscribe s).1.memberCount = 0 ∧ (ch.unsubscribe s).1.userRemoved = some u := by
  obtain ⟨m, hMember, hUser⟩ := h.member rfl
  cases hFind : node.findChannel app.id c with
  | none =>
    rw [memberOf, AppChannels.memberOf] at hMember
    have hNone : (node.apps app.id).findChannel c = none := hFind
    rw [hNone] at hMember
    cases hMember
  | some ch =>
    have hStored (t : String) : node.memberOf app.id c t = ch.members.lookup t :=
      AppChannels.memberOf_of_find hFind t
    have hEmpty : (ch.members.erase s).entries = [] := by
      apply entries_eq_nil_iff.mpr
      intro t
      rw [lookup_erase_if]
      split
      · rfl
      · rename_i hNe
        by_contra hSome
        exact hNe (h.others t (by rw [hStored]; exact isSome_iff_ne_none.mpr hSome)).2
    have hLast : node.LastSocket app.id c s u := by
      refine ⟨⟨m, hMember, hUser⟩, fun t m' hOther _ => ?_⟩
      exact (h.others t (by rw [hOther]; rfl)).2
    rw [hStored] at hMember
    refine ⟨ch, rfl, ?_, ?_, (userRemoved_iff_lastSocket h.wellFormed hFind s u).mpr hLast⟩
    · rw [Channel.unsubscribe, hMember]
    · rw [Channel.unsubscribe, hMember]
      change (ch.members.erase s).entries.length = 0
      rw [hEmpty]
      rfl

end Stands

end Node

namespace EventDispatcher

theorem lookup_noteWithheld (d : EventDispatcher) (now : Instant) (app : Application)
    (channel : String) (userId : Option String) :
    (d.noteWithheld now app channel userId).withheld.lookup (app.id, channel, userId) =
      some now := AList.lookup_insert ..

theorem lookup_noteWithheld_of_ne {d : EventDispatcher} {now : Instant} {app : Application}
    {channel : String} {userId : Option String} {key : WithheldKey}
    (hNoted : d.withheld.lookup key = some now) (hKey : key ≠ (app.id, channel, userId)) :
    (d.noteWithheld now app channel userId).withheld.lookup key = some now := by
  rw [noteWithheld]
  dsimp only
  rw [AList.lookup_insert_ne hKey, lookup_retain, hNoted, filter_some, durationSince_self]
  rfl

theorem queue_publishMemberRemoved {d : EventDispatcher} (hScaling : d.scalingEnabled = true)
    (app : Application) (channel u : String) (flag : Bool) :
    (d.publishMemberRemoved app channel u flag flag).queue =
      (d.published ++ [Node.removal app channel u d.nodeId (d.seq + 1) flag], d.seq + 1) := by
  rw [publishMemberRemoved, spawnPublish, if_pos hScaling]
  rfl

theorem withheld_publishMemberRemoved (d : EventDispatcher) (app : Application)
    (channel u : String) (flag flag' : Bool) :
    (d.publishMemberRemoved app channel u flag flag').withheld = d.withheld := by
  rw [publishMemberRemoved, spawnPublish]
  split
  · split <;> rfl
  · rfl

end EventDispatcher

namespace Node

variable {node : Node} {app : Application} {c u s : String} {rest : String → Prop} {now : Instant}

theorem Stands.leave (h : node.Stands app c u s true rest) (now : Instant) :
    (node.leaveChannel now app s c).Stands app c u s false rest := by
  obtain ⟨hKnown, hConfig⟩ := node.leaveChannel_same now app s c
  have hCache : (node.leaveChannel now app s c).presenceCache = node.presenceCache :=
    congrArg EventDispatcher.PeerKnowledge.presenceCache hKnown
  refine ⟨?_, h.wellFormed.leaveChannel now app s c, fun hHere => ?_, fun t hMember => ?_, ?_⟩
  · rw [hConfig]
    exact h.config
  · cases hHere
  · rw [memberOf_leaveChannel] at hMember
    split at hMember
    · cases hMember
    · rename_i hNot
      exact absurd ⟨rfl, rfl, (h.others t hMember).2⟩ hNot
  · rw [hCache]
    exact h.lists

/-- The leave of the last member asks twice whether a peer still lists the user,
once for the channel and once for the user. -/
theorem Stands.leaveChannel_eq (h : node.Stands app c u s true rest)
    (hPresence : (ChannelKind.fromName c).isPresence = true)
    (hFresh : node.FreshRosters now app.id c) {w : Bool} (hw : w = true ↔ ∃ n, rest n) :
    ∃ ch, (node.leaveChannel now app s c).toServer =
      (node.announceVacated now app c 0 w).announceMemberRemoved now app c u w ch := by
  obtain ⟨ch, hFind, hWas, hCount, hRemoved⟩ := h.unsubscribe
  have hOccupied : node.occupiedOnPeers now app c (ChannelKind.fromName c) = w := by
    rw [Server.occupiedOnPeers, if_pos hPresence, Bool.eq_iff_iff, hw, Bool.not_eq_true',
      ← Bool.not_eq_true, remoteMembersFor_isEmpty_iff_rest hFresh h.lists, not_not]
  refine ⟨(ch.unsubscribe s).2, ?_⟩
  rw [leaveChannel_some node now app s c hFind]
  change Server.onUnsubscribed .. = _
  rw [Server.onUnsubscribed, if_pos hWas, hCount, hRemoved]
  dsimp only
  rw [hOccupied, if_pos hPresence, decide_eq_true rfl, Bool.true_and]

theorem Stands.stillRemotely (h : node.Stands app c u s true rest)
    (hFresh : node.FreshRosters now app.id c) {w : Bool} (hw : w = true ↔ ∃ n, rest n) :
    node.presenceCache.isPresentExcluding now app.id c u none = w := by
  rw [Bool.eq_iff_iff, hw]
  exact isPresentExcluding_iff_rest hFresh h.lists

section Leave

variable (h : node.Stands app c u s true rest)
  (hPresence : (ChannelKind.fromName c).isPresence = true)
  (hFresh : node.FreshRosters now app.id c)
  (hScaling : node.dispatcher.scalingEnabled = true)
include h hPresence hFresh hScaling

theorem leave_withholds (hRest : ∃ n, rest n) :
    (node.leaveChannel now app s c).webhooks = node.webhooks ∧
      (∀ userId ∈ [some u, none], (node.leaveChannel now app s c).dispatcher.withheld.lookup
        (app.id, c, userId) = some now) ∧ (node.leaveChannel now app s c).dispatcher.queue =
        (node.dispatcher.published ++
          [removal app c u node.dispatcher.nodeId (node.dispatcher.seq + 1) true],
          node.dispatcher.seq + 1) := by
  have hw : true = true ↔ ∃ n, rest n := iff_of_true rfl hRest
  obtain ⟨ch, hServer⟩ := h.leaveChannel_eq hPresence hFresh hw
  have hStill := h.stillRemotely hFresh hw
  have hEq : (node.leaveChannel now app s c).toServer = { node.toServer with
      dispatcher := (((node.dispatcher.noteWithheld now app c none).noteWithheld now app c
        (some u)).publishMemberRemoved app c u true true) } := by
    have hCache : (node.announceVacated now app c 0 true).presenceCache = node.presenceCache := rfl
    rw [hServer, Server.announceMemberRemoved, hCache, hStill]
    rfl
  rw [hEq]
  refine ⟨rfl, fun userId hUser => ?_, ?_⟩
  · dsimp only
    rw [withheld_publishMemberRemoved]
    simp only [List.mem_cons, List.not_mem_nil, or_false] at hUser
    rcases hUser with rfl | rfl
    · exact lookup_noteWithheld ..
    · exact lookup_noteWithheld_of_ne (lookup_noteWithheld ..) (by simp)
  · have hNoted : ((node.dispatcher.noteWithheld now app c none).noteWithheld now app c
        (some u)).scalingEnabled = true := hScaling
    exact queue_publishMemberRemoved hNoted app c u true

theorem leave_reports (hRest : ¬ ∃ n, rest n) : (node.leaveChannel now app s c).webhooks =
        node.webhooks ++ [(app.id, .ChannelVacated c), (app.id, .MemberRemoved c u)] ∧
      (node.leaveChannel now app s c).dispatcher.queue = (node.dispatcher.published ++
          [removal app c u node.dispatcher.nodeId (node.dispatcher.seq + 1) false],
          node.dispatcher.seq + 1) := by
  have hw : false = true ↔ ∃ n, rest n := iff_of_false Bool.false_ne_true hRest
  obtain ⟨ch, hServer⟩ := h.leaveChannel_eq hPresence hFresh hw
  have hStill := h.stillRemotely hFresh hw
  have hCache : (node.announceVacated now app c 0 false).presenceCache = node.presenceCache := rfl
  rw [hServer, Server.announceMemberRemoved, hCache, hStill]
  constructor
  · change (node.webhooks ++ [_]) ++ [_] = _
    rw [List.append_assoc]
    rfl
  · exact queue_publishMemberRemoved hScaling app c u false

end Leave

end Node

end Zatat
