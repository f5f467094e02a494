import Mathlib.Algebra.GroupWithZero.Nat
import Zatat.Core.Application
import Zatat.Lib.Map

/-! # Subscription counts and signed-in users peers have reported

Both caches follow the discipline of the presence cache: an entry carries the
moment it was last heard of, questions ignore entries past their time to live,
and a sweep removes them.
-/

namespace Zatat

open FiniteMap List

structure CountEntry where
  count : Nat
  insertedAt : Instant
deriving DecidableEq, Repr

def CountEntry.expired (now : Instant) (e : CountEntry) : Bool :=
  decide (durationSince now e.insertedAt > snapshotTtl)

structure ExpiredCount where
  appId : String
  channel : String
  nodeId : String
  staleCount : Nat
deriving DecidableEq, Repr

structure PeerChannelCounts where
  inner : Map (String × String) (Map String CountEntry)

namespace PeerChannelCounts

def new : PeerChannelCounts := ⟨∅⟩

def nodesOf (counts : PeerChannelCounts) (appId channel : String) : Map String CountEntry :=
  (counts.inner.lookup (appId, channel)).getD ∅

def setEntry (counts : PeerChannelCounts) (appId channel nodeId : String) (e : CountEntry) :
    PeerChannelCounts :=
  ⟨counts.inner.insert (appId, channel) ((counts.nodesOf appId channel).insert nodeId e)⟩

def set (counts : PeerChannelCounts) (now : Instant) (appId channel nodeId : String)
    (count : Nat) : PeerChannelCounts :=
  counts.setEntry appId channel nodeId ⟨count, now⟩

def sum (counts : PeerChannelCounts) (now : Instant) (appId channel : String) : Nat :=
  (((counts.nodesOf appId channel).entries.filter fun e => !e.2.expired now).map
    fun e => e.2.count).sum

def gcExpired (counts : PeerChannelCounts) (now : Instant) :
    List ExpiredCount × PeerChannelCounts :=
  (counts.inner.entries.flatMap fun key =>
      (key.2.entries.filter fun e => e.2.expired now).map fun e =>
        ⟨key.1.1, key.1.2, e.1, e.2.count⟩,
    ⟨filterMapVal (fun _ nodes =>
        let kept := retain (fun _ e => !e.expired now) nodes
        if kept.entries.isEmpty then none else some kept) counts.inner⟩)

def touch (counts : PeerChannelCounts) (now : Instant) (appId channel nodeId : String) :
    PeerChannelCounts :=
  match (counts.nodesOf appId channel).lookup nodeId with
  | some e => counts.setEntry appId channel nodeId { e with insertedAt := now }
  | none => counts

def omittedChannels (counts : PeerChannelCounts) (appId nodeId : String)
    (present : List String) : List String :=
  (counts.inner.entries.filter fun key =>
    decide (key.1.1 = appId ∧ key.1.2 ∉ present ∧ nodeId ∈ key.2)).map fun key => key.1.2

def remove (counts : PeerChannelCounts) (appId channel nodeId : String) : PeerChannelCounts :=
  match counts.inner.lookup (appId, channel) with
  | some nodes => ⟨counts.inner.insert (appId, channel) (nodes.erase nodeId)⟩
  | none => counts

variable (counts : PeerChannelCounts) (now : Instant) (appId channel : String) {nodeId n : String}
  (a c : String)

def entry (counts : PeerChannelCounts) (appId channel nodeId : String) : Option CountEntry :=
  (counts.nodesOf appId channel).lookup nodeId

theorem nodesOf_insert (nodes : Map String CountEntry) :
    PeerChannelCounts.nodesOf ⟨counts.inner.insert (appId, channel) nodes⟩ a c =
      if a = appId ∧ c = channel then nodes else counts.nodesOf a c := by
  rw [nodesOf, lookup_insert_if]
  by_cases h : a = appId ∧ c = channel
  · rw [if_pos h, if_pos (by rw [h.1, h.2]), Option.getD_some]
  · rw [if_neg h, if_neg (by simpa using h), nodesOf]

theorem entry_setEntry_of_ne (hn : n ≠ nodeId) (e : CountEntry) (a c : String) :
    (counts.setEntry appId channel nodeId e).entry a c n = counts.entry a c n := by
  rw [entry, setEntry, nodesOf_insert, entry]
  split
  · rename_i h
    rw [AList.lookup_insert_ne hn, h.1, h.2]
  · rfl

theorem entry_touch_of_ne (hn : n ≠ nodeId) (a c : String) :
    (counts.touch now appId channel nodeId).entry a c n = counts.entry a c n := by
  rw [touch]
  split
  · exact entry_setEntry_of_ne counts appId channel hn _ a c
  · rfl

theorem entry_remove_of_ne (hn : n ≠ nodeId) (a c : String) :
    (counts.remove appId channel nodeId).entry a c n = counts.entry a c n := by
  rw [remove]
  split
  · rename_i nodes hNodes
    rw [entry, nodesOf_insert, entry]
    split
    · rename_i h
      rw [AList.lookup_erase_ne hn, h.1, h.2, nodesOf, hNodes, Option.getD_some]
    · rfl
  · rfl

def expiredCounts (counts : PeerChannelCounts) (now : Instant) (appId channel : String) :
    List Nat :=
  ((counts.nodesOf appId channel).entries.filter fun e => e.2.expired now).map fun e => e.2.count

theorem countP_gcExpired (r : Nat → Bool) : (counts.gcExpired now).1.countP
        (fun x => decide (x.appId = a ∧ x.channel = c) && r x.staleCount) =
      (counts.expiredCounts now a c).countP r := by
  rw [gcExpired, expiredCounts, nodesOf, countP_flatMap_entries counts.inner (a, c)]
  · cases counts.inner.lookup (a, c) with
    | none => rfl
    | some nodes => simp [countP_map, Function.comp_def]
  · intro key x hx hCounts
    obtain ⟨e, -, rfl⟩ := mem_map.mp hx
    simp only [Bool.and_eq_true, decide_eq_true_eq] at hCounts
    exact Prod.ext hCounts.1.1 hCounts.1.2

theorem entries_nodesOf_gcExpired : ((counts.gcExpired now).2.nodesOf a c).entries =
      (counts.nodesOf a c).entries.filter fun e => !e.2.expired now := by
  rw [nodesOf, nodesOf, gcExpired]
  dsimp only
  rw [lookup_filterMapVal]
  cases counts.inner.lookup (a, c) with
  | none => rfl
  | some nodes =>
    rw [Option.bind_some, Option.getD_some,
      ← entries_retain (fun _ (e : CountEntry) => !e.expired now)]
    split
    · rename_i hEmpty
      rw [isEmpty_iff.mp hEmpty]
      rfl
    · rfl

theorem entry_gcExpired (n : String) : (counts.gcExpired now).2.entry a c n =
      (counts.entry a c n).filter fun e => !e.expired now := by
  have hKept : (counts.gcExpired now).2.nodesOf a c =
      retain (fun _ e => !e.expired now) (counts.nodesOf a c) := by
    apply AList.ext
    rw [entries_nodesOf_gcExpired, entries_retain]
  rw [entry, hKept, lookup_retain, entry]

theorem mem_gcExpired_of_entry {counts : PeerChannelCounts} {now : Instant} {a c n : String}
    {e : CountEntry} (hEntry : counts.entry a c n = some e) (hExpired : e.expired now = true) :
    ⟨a, c, n, e.count⟩ ∈ (counts.gcExpired now).1 := by
  rw [entry, nodesOf] at hEntry
  rw [gcExpired]
  cases hNodes : counts.inner.lookup (a, c) with
  | none =>
    rw [hNodes] at hEntry
    cases hEntry
  | some nodes =>
    rw [hNodes, Option.getD_some] at hEntry
    refine mem_flatMap.mpr ⟨⟨(a, c), nodes⟩, mem_entries_iff.mpr hNodes, ?_⟩
    have hMem : (⟨n, e⟩ : Sigma fun _ : String => CountEntry) ∈ nodes.entries :=
      mem_entries_iff.mpr hEntry
    exact mem_map.mpr ⟨⟨n, e⟩, mem_filter.mpr ⟨hMem, hExpired⟩, rfl⟩

theorem sum_eq_zero {counts : PeerChannelCounts} {now : Instant} {a c : String}
    (h : ∀ n e, counts.entry a c n = some e → e.expired now = false → e.count = 0) :
    counts.sum now a c = 0 := by
  rw [sum, List.sum_eq_zero_iff_forall_eq_nat]
  intro k hk
  obtain ⟨e, he, rfl⟩ := mem_map.mp hk
  obtain ⟨hMem, hLive⟩ := mem_filter.mp he
  rw [Bool.not_eq_true'] at hLive
  exact h e.1 e.2 (mem_entries_iff.mp hMem) hLive

theorem sum_gcExpired : (counts.gcExpired now).2.sum now a c = counts.sum now a c := by
  rw [sum, sum, entries_nodesOf_gcExpired, filter_filter]
  simp only [Bool.and_self]

end PeerChannelCounts

structure UserSessionEntry where
  users : KeySet String
  insertedAt : Instant

def UserSessionEntry.expired (now : Instant) (e : UserSessionEntry) : Bool :=
  decide (durationSince now e.insertedAt > snapshotTtl)

structure ExpiredSession where
  appId : String
  nodeId : String
  userId : String
deriving DecidableEq, Repr

structure PeerUserSessions where
  inner : Map String (Map String UserSessionEntry)

namespace PeerUserSessions

def new : PeerUserSessions := ⟨∅⟩

def nodesOf (sessions : PeerUserSessions) (appId : String) : Map String UserSessionEntry :=
  (sessions.inner.lookup appId).getD ∅

def setEntry (sessions : PeerUserSessions) (appId nodeId : String) (e : UserSessionEntry) :
    PeerUserSessions :=
  ⟨sessions.inner.insert appId ((sessions.nodesOf appId).insert nodeId e)⟩

def add (sessions : PeerUserSessions) (now : Instant) (appId nodeId userId : String) :
    PeerUserSessions :=
  let e := ((sessions.nodesOf appId).lookup nodeId).getD ⟨∅, now⟩
  sessions.setEntry appId nodeId ⟨e.users.insert userId (), now⟩

def remove (sessions : PeerUserSessions) (now : Instant) (appId nodeId userId : String) :
    PeerUserSessions :=
  match (sessions.nodesOf appId).lookup nodeId with
  | some e => sessions.setEntry appId nodeId ⟨e.users.erase userId, now⟩
  | none => sessions

def usersOf (sessions : PeerUserSessions) (appId nodeId : String) : List String :=
  match (sessions.nodesOf appId).lookup nodeId with
  | some e => e.users.keys
  | none => []

def touch (sessions : PeerUserSessions) (now : Instant) (appId nodeId : String) :
    PeerUserSessions :=
  let e := ((sessions.nodesOf appId).lookup nodeId).getD ⟨∅, now⟩
  sessions.setEntry appId nodeId { e with insertedAt := now }

def isPresentExcluding (sessions : PeerUserSessions) (now : Instant) (appId userId : String)
    (exceptNode : Option String) : Bool :=
  (sessions.nodesOf appId).entries.any fun e =>
    decide (exceptNode ≠ some e.1) && !e.2.expired now && decide (userId ∈ e.2.users)

/-- Unlike the other two caches, an application left without peers keeps its entry. -/
def gcExpired (sessions : PeerUserSessions) (now : Instant) :
    List ExpiredSession × PeerUserSessions :=
  (sessions.inner.entries.flatMap fun app =>
      (app.2.entries.filter fun e => e.2.expired now).flatMap fun e =>
        e.2.users.keys.map fun userId => ⟨app.1, e.1, userId⟩,
    ⟨filterMapVal (fun _ nodes => some (retain (fun _ e => !e.expired now) nodes))
      sessions.inner⟩)

variable (sessions : PeerUserSessions) (now : Instant) (a : String)

def expiredUsers (sessions : PeerUserSessions) (now : Instant) (appId : String) : List String :=
  ((sessions.nodesOf appId).entries.filter fun e => e.2.expired now).flatMap fun e =>
    e.2.users.keys

theorem countP_gcExpired (r : String → Bool) :
    (sessions.gcExpired now).1.countP (fun x => decide (x.appId = a) && r x.userId) =
      (sessions.expiredUsers now a).countP r := by
  rw [gcExpired, expiredUsers, nodesOf, countP_flatMap_entries sessions.inner a]
  · cases sessions.inner.lookup a with
    | none => rfl
    | some nodes =>
      dsimp only
      rw [Option.getD_some, countP_flatMap, countP_flatMap]
      congr 1
      apply map_congr_left
      intro e _
      simp [countP_map, Function.comp_def]
  · intro key x hx hCounts
    simp only [mem_flatMap, mem_map] at hx
    obtain ⟨e, -, u, -, rfl⟩ := hx
    simp only [Bool.and_eq_true, decide_eq_true_eq] at hCounts
    exact hCounts.1

theorem entries_nodesOf_gcExpired : ((sessions.gcExpired now).2.nodesOf a).entries =
      (sessions.nodesOf a).entries.filter fun e => !e.2.expired now := by
  rw [nodesOf, nodesOf, gcExpired]
  dsimp only
  rw [lookup_filterMapVal]
  cases sessions.inner.lookup a with
  | none => rfl
  | some nodes =>
    rw [Option.bind_some, Option.getD_some, Option.getD_some,
      ← entries_retain (fun _ (e : UserSessionEntry) => !e.expired now)]

theorem isPresentExcluding_gcExpired (u : String) (exceptNode : Option String) :
    (sessions.gcExpired now).2.isPresentExcluding now a u exceptNode =
      sessions.isPresentExcluding now a u exceptNode := by
  rw [isPresentExcluding, isPresentExcluding, entries_nodesOf_gcExpired, any_filter]
  congr 1
  funext e
  cases e.2.expired now <;> simp

end PeerUserSessions

end Zatat
