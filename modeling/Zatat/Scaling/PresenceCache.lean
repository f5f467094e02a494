import Zatat.Core.Application
import Zatat.Lib.Map
import Zatat.Scaling.Message
import Mathlib.Data.List.Dedup
import Mathlib.Tactic.Tauto

/-! # The presence rosters peers have reported

The cache holds, for each application and channel, the roster of each peer with
the moment it was last heard of. Questions ignore rosters past their time to
live; only a sweep removes them. Every operation is described by its effect on
`roster`, the stored roster of one peer, and no later proof looks further.
-/

namespace Zatat

open FiniteMap List AList

structure ExpiredMember where
  appId : String
  channel : String
  userId : String
deriving DecidableEq, Repr

structure PeerSnapshot where
  insertedAt : Instant
  members : Map String (Option Value)

def PeerSnapshot.new (now : Instant) (members : List PresenceSnapshotMember) : PeerSnapshot :=
  ⟨now, collect (members.map fun m => (m.userId, m.userInfo))⟩

def PeerSnapshot.touch (now : Instant) (peer : PeerSnapshot) : PeerSnapshot :=
  { peer with insertedAt := now }

def PeerSnapshot.expired (now : Instant) (peer : PeerSnapshot) : Bool :=
  decide (durationSince now peer.insertedAt > snapshotTtl)

structure PresenceCache where
  peers : Map (String × String) (Map String PeerSnapshot)

namespace PresenceCache

def new : PresenceCache := ⟨∅⟩

/-- The peers stored for a channel; an absent channel stores none. -/
def peersOf (cache : PresenceCache) (appId channel : String) : Map String PeerSnapshot :=
  (cache.peers.lookup (appId, channel)).getD ∅

def setPeer (cache : PresenceCache) (appId channel nodeId : String) (peer : PeerSnapshot) :
    PresenceCache :=
  ⟨cache.peers.insert (appId, channel) ((cache.peersOf appId channel).insert nodeId peer)⟩

def insertSnapshot (cache : PresenceCache) (now : Instant) (appId channel nodeId : String)
    (members : List PresenceSnapshotMember) : PresenceCache :=
  cache.setPeer appId channel nodeId (PeerSnapshot.new now members)

def touch (cache : PresenceCache) (now : Instant) (appId channel nodeId : String) :
    PresenceCache :=
  match (cache.peersOf appId channel).lookup nodeId with
  | some peer => cache.setPeer appId channel nodeId (peer.touch now)
  | none => cache

def addLive (cache : PresenceCache) (now : Instant) (appId channel nodeId userId : String)
    (userInfo : Option Value) : Bool × PresenceCache :=
  let peer := (((cache.peersOf appId channel).lookup nodeId).getD
    (PeerSnapshot.new now [])).touch now
  (decide (userId ∉ peer.members),
    cache.setPeer appId channel nodeId
      { peer with members := peer.members.insert userId userInfo })

def removeLive (cache : PresenceCache) (now : Instant) (appId channel nodeId userId : String) :
    Bool × PresenceCache :=
  match (cache.peersOf appId channel).lookup nodeId with
  | none => (false, cache)
  | some peer =>
    (decide (userId ∈ peer.members),
      cache.setPeer appId channel nodeId
        { peer.touch now with members := peer.members.erase userId })

def isPresentExcluding (cache : PresenceCache) (now : Instant)
    (appId channel userId : String) (exceptNode : Option String) : Bool :=
  (cache.peersOf appId channel).entries.any fun e =>
    decide (exceptNode ≠ some e.1) && !e.2.expired now && decide (userId ∈ e.2.members)

def announcedUserIds (cache : PresenceCache) (appId channel : String) : List String :=
  ((cache.peersOf appId channel).entries.flatMap fun e => e.2.members.keys).dedup

/-- The inner loop of `remote_members_for`: a user already listed is skipped. -/
def pushUnseen (out : List PresenceSnapshotMember) (m : PresenceSnapshotMember) :
    List PresenceSnapshotMember :=
  if m.userId ∈ out.map PresenceSnapshotMember.userId then out else out ++ [m]

def remoteMembersFor (cache : PresenceCache) (now : Instant) (appId channel : String) :
    List PresenceSnapshotMember :=
  (((cache.peersOf appId channel).entries.filter fun e => !e.2.expired now).flatMap fun e =>
    e.2.members.entries.map fun m => ⟨m.1, m.2⟩).foldl pushUnseen []

/-- Drops every roster past its time to live and lists the members they held. -/
def gcExpired (cache : PresenceCache) (now : Instant) : List ExpiredMember × PresenceCache :=
  (cache.peers.entries.flatMap fun key =>
      (key.2.entries.filter fun e => e.2.expired now).flatMap fun e =>
        e.2.members.keys.map fun userId => ⟨key.1.1, key.1.2, userId⟩,
    ⟨filterMapVal (fun _ inner =>
        let kept := retain (fun _ peer => !peer.expired now) inner
        if kept.entries.isEmpty then none else some kept) cache.peers⟩)

/-! ## The stored roster of one peer -/

def roster (cache : PresenceCache) (appId channel nodeId : String) : Option PeerSnapshot :=
  (cache.peersOf appId channel).lookup nodeId

def Lists (cache : PresenceCache) (appId channel nodeId userId : String) : Prop :=
  ∃ peer, cache.roster appId channel nodeId = some peer ∧ userId ∈ peer.members

variable (cache : PresenceCache) (now : Instant) (appId channel nodeId u userId : String)
  (peer : PeerSnapshot) (members : List PresenceSnapshotMember) (a c n v : String)

/-- The roster that lists the user is also within its time to live. -/
def ListsLive (cache : PresenceCache) (now : Instant) (appId channel nodeId userId : String) :
    Prop :=
  ∃ peer, cache.roster appId channel nodeId = some peer ∧ peer.expired now = false ∧
    userId ∈ peer.members

theorem peersOf_setPeer : (cache.setPeer appId channel nodeId peer).peersOf a c =
      if a = appId ∧ c = channel then (cache.peersOf appId channel).insert nodeId peer
      else cache.peersOf a c := by
  rw [peersOf, setPeer, lookup_insert_if]
  by_cases h : a = appId ∧ c = channel
  · rw [if_pos h, if_pos (by rw [h.1, h.2]), Option.getD_some]
  · rw [if_neg h, if_neg (by simpa using h), peersOf]

theorem roster_setPeer : (cache.setPeer appId channel nodeId peer).roster a c n =
      if a = appId ∧ c = channel ∧ n = nodeId then some peer else cache.roster a c n := by
  rw [roster, peersOf_setPeer]
  by_cases h : a = appId ∧ c = channel
  · rw [if_pos h, lookup_insert_if, h.1, h.2, roster]
    simp
  · rw [if_neg h, if_neg (by tauto), roster]

theorem roster_insertSnapshot :
    (cache.insertSnapshot now appId channel nodeId members).roster a c n =
      if a = appId ∧ c = channel ∧ n = nodeId then some (PeerSnapshot.new now members)
      else cache.roster a c n :=
  roster_setPeer ..

theorem roster_touch : (cache.touch now appId channel nodeId).roster a c n =
      if a = appId ∧ c = channel ∧ n = nodeId then
        (cache.roster appId channel nodeId).map (PeerSnapshot.touch now)
      else cache.roster a c n := by
  rw [touch]
  split
  · rename_i peer hPeer
    have hRoster : cache.roster appId channel nodeId = some peer := hPeer
    rw [roster_setPeer, hRoster, Option.map_some]
  · rename_i hNone
    split
    · rename_i h
      rw [h.1, h.2.1, h.2.2, roster, hNone, Option.map_none]
    · rfl

def addedTo (now : Instant) (stored : Option PeerSnapshot) (userId : String)
    (userInfo : Option Value) : PeerSnapshot :=
  ⟨now, ((stored.getD (PeerSnapshot.new now [])).members).insert userId userInfo⟩

theorem roster_addLive (userInfo : Option Value) (a c n : String) :
    (cache.addLive now appId channel nodeId userId userInfo).2.roster a c n =
      if a = appId ∧ c = channel ∧ n = nodeId then
        some (addedTo now (cache.roster appId channel nodeId) userId userInfo)
      else cache.roster a c n := by
  rw [addLive]
  exact roster_setPeer ..

theorem roster_removeLive : (cache.removeLive now appId channel nodeId userId).2.roster a c n =
      if a = appId ∧ c = channel ∧ n = nodeId then
        (cache.roster appId channel nodeId).map fun peer => ⟨now, peer.members.erase userId⟩
      else cache.roster a c n := by
  rw [removeLive]
  split
  · rename_i hNone
    split
    · rename_i h
      rw [h.1, h.2.1, h.2.2, roster, hNone, Option.map_none]
    · rfl
  · rename_i peer hPeer
    have hRoster : cache.roster appId channel nodeId = some peer := hPeer
    rw [roster_setPeer, hRoster, Option.map_some]
    rfl

theorem roster_gcExpired : (cache.gcExpired now).2.roster a c n =
      (cache.roster a c n).filter fun peer => !peer.expired now := by
  rw [roster, peersOf, gcExpired]
  dsimp only
  rw [lookup_filterMapVal, roster, peersOf]
  cases cache.peers.lookup (a, c) with
  | none => rfl
  | some inner =>
    have hKept := lookup_retain (fun _ (peer : PeerSnapshot) => !peer.expired now) inner n
    rw [Option.bind_some, Option.getD_some, ← hKept]
    split
    · rename_i hEmpty
      rw [entries_eq_nil_iff.mp (isEmpty_iff.mp hEmpty) n]
      rfl
    · rfl

/-! ## What the questions answer -/

theorem isPresentExcluding_iff (exceptNode : Option String) :
    cache.isPresentExcluding now appId channel userId exceptNode = true ↔
      ∃ n, exceptNode ≠ some n ∧ cache.ListsLive now appId channel n userId := by
  rw [isPresentExcluding, any_entries_iff]
  constructor
  · rintro ⟨n, peer, hPeer, hCond⟩
    simp only [Bool.and_eq_true, decide_eq_true_eq, Bool.not_eq_true'] at hCond
    exact ⟨n, hCond.1.1, peer, hPeer, hCond.1.2, hCond.2⟩
  · rintro ⟨n, hExcept, peer, hPeer, hLive, hUser⟩
    refine ⟨n, peer, hPeer, ?_⟩
    simp only [Bool.and_eq_true, decide_eq_true_eq, Bool.not_eq_true']
    exact ⟨⟨hExcept, hLive⟩, hUser⟩

theorem mem_announcedUserIds : userId ∈ cache.announcedUserIds appId channel ↔
      ∃ n, cache.Lists appId channel n userId := by
  rw [announcedUserIds, mem_dedup, mem_flatMap]
  constructor
  · rintro ⟨e, hMem, hUser⟩
    exact ⟨e.1, e.2, mem_entries_iff.mp hMem, mem_keys.mpr hUser⟩
  · rintro ⟨n, peer, hPeer, hUser⟩
    exact ⟨⟨n, peer⟩, mem_entries_iff.mpr hPeer, mem_keys.mp hUser⟩

theorem announcedUserIds_nodup : (cache.announcedUserIds appId channel).Nodup := nodup_dedup _

theorem mem_foldl_pushUnseen (l out : List PresenceSnapshotMember) (u : String) :
    u ∈ (l.foldl pushUnseen out).map PresenceSnapshotMember.userId ↔
      u ∈ out.map PresenceSnapshotMember.userId ∨ u ∈ l.map PresenceSnapshotMember.userId := by
  induction l generalizing out with
  | nil => simp
  | cons m l ih =>
    rw [foldl_cons, ih, pushUnseen, map_cons, mem_cons]
    split
    · rename_i hSeen
      constructor
      · rintro (h | h)
        · exact Or.inl h
        · exact Or.inr (Or.inr h)
      · rintro (h | h | h)
        · exact Or.inl h
        · exact Or.inl (h ▸ hSeen)
        · exact Or.inr h
    · rw [map_append, mem_append, map_singleton, mem_singleton]
      tauto

theorem mem_remoteMembersFor :
    userId ∈ (cache.remoteMembersFor now appId channel).map PresenceSnapshotMember.userId ↔
      ∃ n, cache.ListsLive now appId channel n userId := by
  rw [remoteMembersFor, mem_foldl_pushUnseen]
  simp only [map_nil, not_mem_nil, false_or, mem_map, mem_flatMap, mem_filter, Bool.not_eq_true']
  constructor
  · rintro ⟨m, ⟨e, ⟨hMem, hLive⟩, entry, hEntry, rfl⟩, rfl⟩
    exact ⟨e.1, e.2, mem_entries_iff.mp hMem, hLive,
      mem_iff_lookup.mpr ⟨entry.2, mem_entries_iff.mp hEntry⟩⟩
  · rintro ⟨n, peer, hPeer, hLive, hUser⟩
    obtain ⟨info, hInfo⟩ := mem_iff_lookup.mp hUser
    exact ⟨⟨userId, info⟩, ⟨⟨n, peer⟩, ⟨mem_entries_iff.mpr hPeer, hLive⟩, ⟨userId, info⟩,
      mem_entries_iff.mpr hInfo, rfl⟩, rfl⟩

theorem remoteMembersFor_eq_nil : cache.remoteMembersFor now appId channel = [] ↔
      ∀ n u, ¬ cache.ListsLive now appId channel n u := by
  constructor
  · intro hNil n u hLists
    have hMem := (mem_remoteMembersFor cache now appId channel u).mpr ⟨n, hLists⟩
    rw [hNil] at hMem
    cases hMem
  · intro hNone
    apply map_eq_nil_iff.mp
    apply eq_nil_iff_forall_not_mem.mpr
    intro u hu
    obtain ⟨n, hLists⟩ := (mem_remoteMembersFor cache now appId channel u).mp hu
    exact hNone n u hLists

theorem mem_gcExpired (m : ExpiredMember) : m ∈ (cache.gcExpired now).1 ↔
      ∃ n peer, cache.roster m.appId m.channel n = some peer ∧ peer.expired now = true ∧
        m.userId ∈ peer.members := by
  rw [gcExpired]
  simp only [mem_flatMap, mem_filter, mem_map]
  constructor
  · rintro ⟨key, hKey, e, ⟨hMem, hExpired⟩, u, hUser, rfl⟩
    refine ⟨e.1, e.2, ?_, hExpired, mem_keys.mpr hUser⟩
    rw [roster, peersOf, mem_entries_iff.mp hKey]
    exact mem_entries_iff.mp hMem
  · rintro ⟨n, peer, hPeer, hExpired, hUser⟩
    rw [roster, peersOf] at hPeer
    cases hInner : cache.peers.lookup (m.appId, m.channel) with
    | none =>
      rw [hInner] at hPeer
      cases hPeer
    | some inner =>
      rw [hInner, Option.getD_some] at hPeer
      exact ⟨⟨(m.appId, m.channel), inner⟩, mem_entries_iff.mpr hInner, ⟨n, peer⟩,
        ⟨mem_entries_iff.mpr hPeer, hExpired⟩, m.userId, mem_keys.mp hUser, rfl⟩

def expiredUsers (cache : PresenceCache) (now : Instant) (appId channel : String) : List String :=
  ((cache.peersOf appId channel).entries.filter fun e => e.2.expired now).flatMap fun e =>
    e.2.members.keys

theorem countP_gcExpired (r : String → Bool) :
    (cache.gcExpired now).1.countP (fun m => decide (m.appId = a ∧ m.channel = c) && r m.userId) =
      (cache.expiredUsers now a c).countP r := by
  rw [gcExpired, expiredUsers, peersOf, countP_flatMap_entries cache.peers (a, c)]
  · cases cache.peers.lookup (a, c) with
    | none => rfl
    | some inner =>
      dsimp only
      rw [Option.getD_some, countP_flatMap, countP_flatMap]
      congr 1
      apply map_congr_left
      intro e _
      simp [countP_map, Function.comp_def]
  · intro key m hm hCounts
    simp only [mem_flatMap, mem_map] at hm
    obtain ⟨e, -, u, -, rfl⟩ := hm
    simp only [Bool.and_eq_true, decide_eq_true_eq] at hCounts
    exact Prod.ext hCounts.1.1 hCounts.1.2

theorem listsLive_gcExpired :
    (cache.gcExpired now).2.ListsLive now a c n v ↔ cache.ListsLive now a c n v := by
  simp only [ListsLive, roster_gcExpired, Option.filter_eq_some_iff, Bool.not_eq_true']
  constructor
  · rintro ⟨peer, ⟨hPeer, -⟩, hLive, hUser⟩
    exact ⟨peer, hPeer, hLive, hUser⟩
  · rintro ⟨peer, hPeer, hLive, hUser⟩
    exact ⟨peer, ⟨hPeer, hLive⟩, hLive, hUser⟩

theorem ListsLive.lists {cache : PresenceCache} {now : Instant}
    {appId channel nodeId userId : String} (h : cache.ListsLive now appId channel nodeId userId) :
    cache.Lists appId channel nodeId userId := by
  obtain ⟨peer, hPeer, -, hUser⟩ := h
  exact ⟨peer, hPeer, hUser⟩

/-! ## Which users are listed after each operation -/

theorem lists_addLive (info : Option Value) (a c n v : String) :
    (cache.addLive now appId channel nodeId u info).2.Lists a c n v ↔
      (a = appId ∧ c = channel ∧ n = nodeId ∧ v = u) ∨ cache.Lists a c n v := by
  rw [Lists, roster_addLive]
  by_cases hKey : a = appId ∧ c = channel ∧ n = nodeId
  · obtain ⟨rfl, rfl, rfl⟩ := hKey
    rw [if_pos ⟨rfl, rfl, rfl⟩]
    simp only [Option.some.injEq, exists_eq_left', addedTo, mem_insert, true_and, Lists]
    cases cache.roster a c n with
    | none => simp [PeerSnapshot.new, collect]
    | some peer => simp
  · rw [if_neg hKey, Lists]
    exact (or_iff_right fun hAll => hKey ⟨hAll.1, hAll.2.1, hAll.2.2.1⟩).symm

theorem lists_removeLive : (cache.removeLive now appId channel nodeId u).2.Lists a c n v ↔
      ¬ (a = appId ∧ c = channel ∧ n = nodeId ∧ v = u) ∧ cache.Lists a c n v := by
  rw [Lists, roster_removeLive]
  by_cases hKey : a = appId ∧ c = channel ∧ n = nodeId
  · obtain ⟨rfl, rfl, rfl⟩ := hKey
    rw [if_pos ⟨rfl, rfl, rfl⟩, Lists]
    cases cache.roster a c n with
    | none => simp
    | some peer => simp [mem_erase]
  · rw [if_neg hKey, Lists]
    exact (and_iff_right fun hAll => hKey ⟨hAll.1, hAll.2.1, hAll.2.2.1⟩).symm

theorem lists_insertSnapshot :
    (cache.insertSnapshot now appId channel nodeId members).Lists a c n v ↔
      if a = appId ∧ c = channel ∧ n = nodeId then
        v ∈ members.map PresenceSnapshotMember.userId else cache.Lists a c n v := by
  rw [Lists, roster_insertSnapshot]
  split
  · simp only [Option.some.injEq, exists_eq_left', PeerSnapshot.new, mem_collect, map_map]
    rfl
  · rfl

theorem lists_touch :
    (cache.touch now appId channel nodeId).Lists a c n v ↔ cache.Lists a c n v := by
  rw [Lists, roster_touch]
  split
  · rename_i hKey
    rw [hKey.1, hKey.2.1, hKey.2.2, Lists]
    cases cache.roster appId channel nodeId with
    | none => simp
    | some peer => simp [PeerSnapshot.touch]
  · rfl

def allFresh (cache : PresenceCache) (now : Instant) : Bool :=
  cache.peers.entries.all fun key => key.2.entries.all fun e => !e.2.expired now

theorem allFresh_iff : cache.allFresh now = true ↔
      ∀ a c n peer, cache.roster a c n = some peer → peer.expired now = false := by
  simp only [allFresh, all_eq_true, Bool.not_eq_true']
  constructor
  · intro hAll a c n peer hPeer
    rw [roster, peersOf] at hPeer
    cases hInner : cache.peers.lookup (a, c) with
    | none =>
      rw [hInner] at hPeer
      cases hPeer
    | some inner =>
      rw [hInner, Option.getD_some] at hPeer
      exact hAll ⟨(a, c), inner⟩ (mem_entries_iff.mpr hInner) ⟨n, peer⟩ (mem_entries_iff.mpr hPeer)
  · intro hAll key hKey e hMem
    refine hAll key.1.1 key.1.2 e.1 e.2 ?_
    rw [roster, peersOf, mem_entries_iff.mp hKey]
    exact mem_entries_iff.mp hMem

end PresenceCache

end Zatat
