import Zatat.Lib.Freshness
import Zatat.Scaling.FanOut

/-! # One peer's counts and users, key by key

What a message of a peer does to the receiver's copy of one key: the stored value with
the number it was applied under. A snapshot is one message for every key.
-/

namespace Zatat

open Function FiniteMap Freshness EventDispatcher PeerChannelCounts ChannelCount AList

namespace PeerChannelCounts

variable (counts : PeerChannelCounts) (appId channel nodeId a c n : String)

theorem entry_setEntry (e : CountEntry) (a c n : String) :
    (counts.setEntry appId channel nodeId e).entry a c n =
      if a = appId ∧ c = channel ∧ n = nodeId then some e else counts.entry a c n := by
  rw [entry, setEntry, nodesOf_insert, entry]
  by_cases hKey : a = appId ∧ c = channel
  · rw [if_pos hKey, lookup_insert_if, hKey.1, hKey.2]
    simp
  · rw [if_neg hKey, if_neg fun h => hKey ⟨h.1, h.2.1⟩]

theorem entry_remove : (counts.remove appId channel nodeId).entry a c n =
      if a = appId ∧ c = channel ∧ n = nodeId then none else counts.entry a c n := by
  rw [remove]
  cases hNodes : counts.inner.lookup (appId, channel) with
  | none =>
    dsimp only
    split
    · rename_i h
      rw [entry, nodesOf, h.1, h.2.1, hNodes]
      rfl
    · rfl
  | some nodes =>
    rw [entry, nodesOf_insert, entry]
    by_cases hKey : a = appId ∧ c = channel
    · rw [if_pos hKey, lookup_erase_if, hKey.1, hKey.2, nodesOf, hNodes]
      simp
    · rw [if_neg hKey, if_neg fun h => hKey ⟨h.1, h.2.1⟩]

def count (counts : PeerChannelCounts) (a c n : String) : Nat :=
  ((counts.entry a c n).map CountEntry.count).getD 0

theorem count_touch (now : Instant) (appId channel nodeId a c n : String) :
    (counts.touch now appId channel nodeId).count a c n = counts.count a c n := by
  rw [touch]
  split
  · rename_i e hEntry
    rw [count, entry_setEntry, count]
    split
    · rename_i h
      rw [h.1, h.2.1, h.2.2, entry, hEntry]
      rfl
    · rfl
  · rfl

theorem mem_omittedChannels (present : List String) (c : String) :
    c ∈ counts.omittedChannels a n present ↔ c ∉ present ∧ (counts.entry a c n).isSome = true := by
  rw [omittedChannels, List.mem_map, entry, nodesOf, lookup_isSome]
  constructor
  · rintro ⟨⟨⟨a', c'⟩, nodes⟩, hMem, rfl⟩
    obtain ⟨hEntry, hTest⟩ := List.mem_filter.mp hMem
    obtain ⟨rfl, hAbsent, hNode⟩ := of_decide_eq_true hTest
    have hLookup : counts.inner.lookup (a', c') = some nodes := mem_entries_iff.mp hEntry
    refine ⟨hAbsent, ?_⟩
    rw [hLookup]
    exact hNode
  · rintro ⟨hAbsent, hNode⟩
    cases hLookup : counts.inner.lookup (a, c) with
    | none =>
      rw [hLookup] at hNode
      exact absurd hNode (notMem_empty n)
    | some nodes =>
      rw [hLookup] at hNode
      exact ⟨⟨(a, c), nodes⟩, List.mem_filter.mpr ⟨mem_entries_iff.mpr hLookup,
        decide_eq_true ⟨rfl, hAbsent, hNode⟩⟩, rfl⟩

end PeerChannelCounts

namespace PeerUserSessions

variable (sessions : PeerUserSessions) (now : Instant) (appId nodeId userId a n u : String)

def entry (sessions : PeerUserSessions) (a n : String) : Option UserSessionEntry :=
  (sessions.nodesOf a).lookup n

theorem entry_setEntry (e : UserSessionEntry) (a n : String) :
    (sessions.setEntry appId nodeId e).entry a n =
      if a = appId ∧ n = nodeId then some e else sessions.entry a n := by
  rw [entry, setEntry, nodesOf, lookup_insert_if, entry]
  by_cases ha : a = appId
  · rw [if_pos ha, Option.getD_some, lookup_insert_if, ha]
    simp
  · rw [if_neg ha, if_neg fun h => ha h.1, nodesOf]

theorem mem_usersOf :
    u ∈ sessions.usersOf a n ↔ ∃ e, sessions.entry a n = some e ∧ u ∈ e.users := by
  rw [usersOf, entry]
  cases (sessions.nodesOf a).lookup n with
  | none => simp
  | some e => simp [mem_keys]

theorem entry_add : (sessions.add now appId nodeId userId).entry a n =
      if a = appId ∧ n = nodeId then
        some ⟨((sessions.entry appId nodeId).getD ⟨∅, now⟩).users.insert userId (), now⟩
      else sessions.entry a n :=
  entry_setEntry ..

theorem entry_remove : (sessions.remove now appId nodeId userId).entry a n =
      if a = appId ∧ n = nodeId then
        (sessions.entry appId nodeId).map fun e => ⟨e.users.erase userId, now⟩
      else sessions.entry a n := by
  rw [remove]
  cases hEntry : (sessions.nodesOf appId).lookup nodeId with
  | none =>
    dsimp only
    split
    · rename_i h
      rw [h.1, h.2, entry, hEntry]
      rfl
    · rfl
  | some e =>
    dsimp only
    rw [entry_setEntry]
    refine if_congr Iff.rfl ?_ rfl
    rw [entry, hEntry]
    rfl

theorem entry_touch : (sessions.touch now appId nodeId).entry a n =
      if a = appId ∧ n = nodeId then
        some { (sessions.entry appId nodeId).getD ⟨∅, now⟩ with insertedAt := now }
      else sessions.entry a n :=
  entry_setEntry ..

theorem mem_usersOf_add : u ∈ (sessions.add now appId nodeId userId).usersOf appId nodeId ↔
      u = userId ∨ u ∈ sessions.usersOf appId nodeId := by
  rw [mem_usersOf, mem_usersOf, entry_add, if_pos ⟨rfl, rfl⟩]
  cases sessions.entry appId nodeId with
  | none => simp [mem_insert, -insert_empty]
  | some e => simp

theorem mem_usersOf_remove : u ∈ (sessions.remove now appId nodeId userId).usersOf appId nodeId ↔
      u ≠ userId ∧ u ∈ sessions.usersOf appId nodeId := by
  rw [mem_usersOf, mem_usersOf, entry_remove, if_pos ⟨rfl, rfl⟩]
  cases sessions.entry appId nodeId with
  | none | some => simp

theorem mem_usersOf_touch : u ∈ (sessions.touch now appId nodeId).usersOf appId nodeId ↔
      u ∈ sessions.usersOf appId nodeId := by
  rw [mem_usersOf, mem_usersOf, entry_touch, if_pos ⟨rfl, rfl⟩]
  cases sessions.entry appId nodeId with
  | none | some => simp

end PeerUserSessions

theorem append_ne {s t : String} (hLength : s.toList.length = t.toList.length) (hNe : s ≠ t)
    (x y : String) : s ++ x ≠ t ++ y := by
  intro h
  have hList := congrArg String.toList h
  rw [String.toList_append, String.toList_append] at hList
  exact hNe (String.toList_inj.mp (List.append_inj_left hList hLength))

namespace Node

/-! ## The numbers of a peer -/

variable (node : Node) (now : Instant) (origin : String) (app : Application) (key : String)
  {seq : Nat}

def accept (node : Node) (now : Instant) (origin : String) (app : Application) (key : String)
    (seq : Nat) : Node :=
  node.setServer (node.acceptSeq now origin app key seq).2

theorem known_accept (seq : Nat) : (node.accept now origin app key seq).known = { node.known with
        peerSeqs := (node.dispatcher.acceptSeq now origin app key seq).2.peerSeqs } :=
  known_acceptSeq ..

theorem applied_accept (hSeq : 0 < seq) (n a k : String) :
    (node.accept now origin app key seq).dispatcher.applied n a k =
      if n = origin ∧ a = app.id ∧ k = key ∧ node.dispatcher.applied origin app.id key < seq
      then seq else node.dispatcher.applied n a k :=
  applied_acceptSeq _ now origin app key hSeq n a k

theorem ifNewer_of_pos (hSeq : 0 < seq) (f stale : Node → Node) :
    node.ifNewer now origin app key seq f stale = if node.dispatcher.applied origin app.id key < seq
      then f (node.accept now origin app key seq)
      else stale (node.accept now origin app key seq) := by
  have hFst : (node.acceptSeq now origin app key seq).1 =
      decide (node.dispatcher.applied origin app.id key < seq) :=
    node.dispatcher.acceptSeq_fst now origin app key hSeq
  rw [ifNewer, hFst]
  by_cases hNewer : node.dispatcher.applied origin app.id key < seq
  · rw [if_pos hNewer, if_pos (decide_eq_true hNewer)]
    rfl
  · rw [if_neg hNewer, if_neg (by simpa using hNewer)]
    rfl

theorem peerSeqs_accept_of_ne {key : String} {seq : Nat} (hSeq : 0 < seq) {k : String}
    (hk : k ≠ key) (n a : String) : (node.accept now origin app key seq).dispatcher.applied n a k =
      node.dispatcher.applied n a k :=
  (applied_accept node now origin app key hSeq n a k).trans (if_neg fun h => hk h.2.2.1)

section

variable {V : Type} (stored : Node → String → V)

/-- The copy of one piece of a peer's state: what is stored and the number it came under. -/
def keyCopy (kind n a : String) (node : Node) (x : String) : V × Nat :=
  (stored node x, node.dispatcher.applied n a (kind ++ x))

theorem keyCopy_ifNewer (kind n x : String) (app : Application) (now : Instant) {seq : Nat}
    (hSeq : 0 < seq) (v : V) (f stale : Node → Node)
    (hAccept : ∀ node : Node, stored (node.accept now n app (kind ++ x) seq) = stored node)
    (hNew : ∀ node : Node, (f node).dispatcher.peerSeqs = node.dispatcher.peerSeqs ∧
      stored (f node) = update (stored node) x v)
    (hStale : ∀ node : Node, (stale node).dispatcher.peerSeqs = node.dispatcher.peerSeqs ∧
      stored (stale node) = stored node) (node : Node) :
    keyCopy stored kind n app.id (node.ifNewer now n app (kind ++ x) seq f stale) =
      update (keyCopy stored kind n app.id node) x
        (take (keyCopy stored kind n app.id node x) seq v) := by
  have hMark : (keyCopy stored kind n app.id node x).2 =
      node.dispatcher.applied n app.id (kind ++ x) := rfl
  have hApplied {after : Node} (hSeqs : after.dispatcher.peerSeqs =
      (node.accept now n app (kind ++ x) seq).dispatcher.peerSeqs) (y : String) :
      after.dispatcher.applied n app.id (kind ++ y) =
        (node.accept now n app (kind ++ x) seq).dispatcher.applied n app.id (kind ++ y) := by
    rw [applied, hSeqs, applied]
  have hOther {y : String} (hy : y ≠ x) :
      (node.accept now n app (kind ++ x) seq).dispatcher.applied n app.id (kind ++ y) =
        node.dispatcher.applied n app.id (kind ++ y) :=
    peerSeqs_accept_of_ne node now n app hSeq (fun h => hy ((String.append_right_inj _).mp h)) ..
  rw [ifNewer_of_pos node now n app _ hSeq, take, hMark]
  funext y
  by_cases hNewer : node.dispatcher.applied n app.id (kind ++ x) < seq
  · rw [if_pos hNewer, if_pos hNewer, keyCopy, (hNew _).2, hApplied (hNew _).1, hAccept]
    by_cases hy : y = x
    · subst hy
      rw [update_self, update_self, applied_accept node now n app _ hSeq,
        if_pos ⟨rfl, rfl, rfl, hNewer⟩]
    · rw [update_of_ne hy, update_of_ne hy, hOther hy, keyCopy]
  · rw [if_neg hNewer, if_neg hNewer, update_eq_self, keyCopy, (hStale _).2,
      hApplied (hStale _).1, hAccept, applied_accept node now n app _ hSeq,
      if_neg fun h => hNewer h.2.2.2, keyCopy]

theorem keyCopy_ifNewer_other (kind n a : String) {origin key : String} {app : Application}
    {now : Instant} {seq : Nat} (hKey : ∀ x, kind ++ x ≠ key) {f stale : Node → Node}
    (hAccept : ∀ node : Node, stored (node.accept now origin app key seq) = stored node)
    (hNew : ∀ node : Node, keyCopy stored kind n a (f node) = keyCopy stored kind n a node)
    (hStale : ∀ node : Node, keyCopy stored kind n a (stale node) = keyCopy stored kind n a node)
    (node : Node) : keyCopy stored kind n a (node.ifNewer now origin app key seq f stale) =
      keyCopy stored kind n a node := by
  have hNoted : keyCopy stored kind n a (node.accept now origin app key seq) =
      keyCopy stored kind n a node := by
    funext x
    refine Prod.ext (congrFun (hAccept node) x) ?_
    rcases Nat.eq_zero_or_pos seq with rfl | hSeq
    · rfl
    · exact peerSeqs_accept_of_ne node now origin app hSeq (hKey x) n a
  rw [ifNewer]
  split
  · exact (hNew _).trans hNoted
  · exact (hStale _).trans hNoted

end

/-! ## Counts -/

def countsOf (a n : String) (node : Node) (c : String) : Nat :=
  node.dispatcher.peerChannelCounts.count a c n

def countCopy (node : Node) (a n : String) : String → Nat × Nat :=
  keyCopy (countsOf a n) "c:" n a node

variable (node : Node) (now : Instant) (app : Application) (a n u channel : String)
  (counts : List ChannelCount) {seq : Nat} (count : Nat)

theorem countsOf_accept (node : Node) (now : Instant) (origin : String) (app : Application)
    (key : String) (seq : Nat) :
    countsOf a n (node.accept now origin app key seq) = countsOf a n node :=
  congrArg (fun k c => k.peerChannelCounts.count a c n) (node.known_accept ..)

theorem countsOf_set : countsOf a n (node.setPeerCount
        (node.dispatcher.peerChannelCounts.set now a channel n count)) =
      update (countsOf a n node) channel count := by
  funext c
  rw [countsOf, setPeerCount, PeerChannelCounts.count, PeerChannelCounts.set,
    entry_setEntry, update_apply]
  by_cases hc : c = channel
  · rw [if_pos ⟨rfl, hc, rfl⟩, if_pos hc]
    rfl
  · rw [if_neg fun h => hc h.2.1, if_neg hc]
    rfl

theorem countsOf_remove :
    countsOf a n (node.setPeerCount (node.dispatcher.peerChannelCounts.remove a channel n)) =
      update (countsOf a n node) channel 0 := by
  funext c
  rw [countsOf, setPeerCount, PeerChannelCounts.count, entry_remove, update_apply]
  by_cases hc : c = channel
  · rw [if_pos ⟨rfl, hc, rfl⟩, if_pos hc]
    rfl
  · rw [if_neg fun h => hc h.2.1, if_neg hc]
    rfl

theorem countsOf_touch :
    countsOf a n (node.setPeerCount (node.dispatcher.peerChannelCounts.touch now a channel n)) =
      countsOf a n node := by
  funext c
  exact count_touch ..

theorem countCopy_congr {node after : Node}
    (hCounts : after.dispatcher.peerChannelCounts = node.dispatcher.peerChannelCounts)
    (hSeqs : after.dispatcher.peerSeqs = node.dispatcher.peerSeqs) (a n : String) :
    after.countCopy a n = node.countCopy a n := by
  funext c
  rw [countCopy, countCopy, keyCopy, keyCopy, countsOf, countsOf, hCounts, applied, hSeqs, applied]

theorem countCopy_of_known {node after : Node} (h : after.known = node.known) (a n : String) :
    after.countCopy a n = node.countCopy a n :=
  countCopy_congr (congrArg EventDispatcher.PeerKnowledge.peerChannelCounts h)
    (congrArg EventDispatcher.PeerKnowledge.peerSeqs h) a n

def applyCount (now : Instant) (app : Application) (n : String) (seq : Nat) (node : Node)
    (x : ChannelCount) : Node :=
  node.ifNewer now n app ("c:" ++ x.channel) seq
    (fun node => node.setPeerCount
      (node.dispatcher.peerChannelCounts.set now app.id x.channel n x.count))
    (fun node => node.setPeerCount
      (node.dispatcher.peerChannelCounts.touch now app.id x.channel n))

theorem countCopy_applyCount (hSeq : 0 < seq) (node : Node) (x : ChannelCount) :
    (applyCount now app n seq node x).countCopy app.id n =
      update (node.countCopy app.id n) x.channel
        (take (node.countCopy app.id n x.channel) seq x.count) := by
  unfold countCopy applyCount
  refine keyCopy_ifNewer (countsOf app.id n) "c:" n x.channel app now hSeq x.count _ _ ?_ ?_ ?_ node
  · intro node
    exact countsOf_accept ..
  · intro node
    exact ⟨rfl, countsOf_set ..⟩
  · intro node
    exact ⟨rfl, countsOf_touch ..⟩

def dropCount (now : Instant) (app : Application) (n : String) (seq : Nat)
    (acc : List String × Node) (channel : String) : List String × Node :=
  let (accepted, srv) := acc.2.acceptSeq now n app ("c:" ++ channel) seq
  let node := acc.2.setServer srv
  if accepted then
    (acc.1 ++ [channel],
      node.setPeerCount (node.dispatcher.peerChannelCounts.remove app.id channel n))
  else (acc.1, node)

theorem dropCount_snd (seq : Nat) (acc : List String × Node) (channel : String) :
    (dropCount now app n seq acc channel).2 = acc.2.ifNewer now n app ("c:" ++ channel) seq
        (fun node => node.setPeerCount
          (node.dispatcher.peerChannelCounts.remove app.id channel n)) id := by
  rw [dropCount, ifNewer]
  dsimp only
  split <;> rfl

theorem countCopy_dropCount (hSeq : 0 < seq) (acc : List String × Node) (channel : String) :
    (dropCount now app n seq acc channel).2.countCopy app.id n =
      update (acc.2.countCopy app.id n) channel
        (take (acc.2.countCopy app.id n channel) seq 0) := by
  rw [dropCount_snd]
  unfold countCopy
  refine keyCopy_ifNewer (countsOf app.id n) "c:" n channel app now hSeq 0 _ _ ?_ ?_ ?_ acc.2
  · intro node
    exact countsOf_accept ..
  · intro node
    exact ⟨rfl, countsOf_remove ..⟩
  · intro node
    exact ⟨rfl, rfl⟩

theorem known_emitFleetTotal : (node.emitFleetTotal now app channel).known = node.known := by
  rw [emitFleetTotal]
  split
  · rfl
  · split <;> rfl

theorem known_emitFleetTotals (channels : List String) (node : Node) :
    (channels.foldl (fun (node : Node) channel => node.emitFleetTotal now app channel) node).known =
      node.known :=
  foldl_same (fun node : Node => node.known)
    (fun node channel => node.known_emitFleetTotal now app channel) channels node

def snapshotCount (counts : List ChannelCount) (c : String) : Nat :=
  ((counts.find? fun x => x.channel = c).map ChannelCount.count).getD 0

/-- The state a snapshot leaves before the new totals are announced. -/
def snapshotApplied (now : Instant) (app : Application) (n : String) (counts : List ChannelCount)
    (seq : Nat) (node : Node) : Node :=
  let listed := counts.foldl (applyCount now app n seq) node
  ((listed.dispatcher.peerChannelCounts.omittedChannels app.id n
    (counts.map ChannelCount.channel)).foldl (dropCount now app n seq) ([], listed)).2

theorem known_applyRemoteChannelCountSnapshot (seq : Nat) :
    (node.applyRemoteChannelCountSnapshot now app n counts seq).known =
      (snapshotApplied now app n counts seq node).known := by
  have hEmitted (acc : List String × Node) : (if app.emitSubscriptionCount then
      (counts.map channel ++ acc.1).foldl
        (fun (node : Node) channel => node.emitFleetTotal now app channel) acc.2
      else acc.2).known = acc.2.known := by
    split
    · exact known_emitFleetTotals ..
    · rfl
  exact hEmitted _

theorem handles_channelCountSnapshot {seq : Nat} (hSeq : 0 < seq) (c : String) :
    Handles seq (snapshotCount counts c) (node.countCopy app.id n c)
      ((node.applyRemoteChannelCountSnapshot now app n counts seq).countCopy app.id n c) := by
  let listed := counts.foldl (applyCount now app n seq) node
  let omitted := listed.dispatcher.peerChannelCounts.omittedChannels app.id n
    (counts.map channel)
  have hResult : (node.applyRemoteChannelCountSnapshot now app n counts seq).countCopy app.id n =
      (omitted.foldl (dropCount now app n seq) ([], listed)).2.countCopy app.id n :=
    countCopy_of_known (node.known_applyRemoteChannelCountSnapshot ..) app.id n
  have hListed : listed.countCopy app.id n c =
      ((counts.find? fun x => x.channel = c).map fun x =>
        take (node.countCopy app.id n c) seq x.count).getD (node.countCopy app.id n c) :=
    foldl_take (fun node : Node => node.countCopy app.id n) channel count
      (fun node x => countCopy_applyCount now app n hSeq node x) counts node c
  have hDropped : (omitted.foldl (dropCount now app n seq) ([], listed)).2.countCopy app.id n c =
      if c ∈ omitted then take (listed.countCopy app.id n c) seq 0
      else listed.countCopy app.id n c :=
    foldl_take_const (fun acc : List String × Node => acc.2.countCopy app.id n)
      (fun acc x => countCopy_dropCount now app n hSeq acc x) omitted ([], listed) c
  have hOmitted : c ∈ omitted ↔ c ∉ counts.map channel ∧
      (listed.dispatcher.peerChannelCounts.entry app.id c n).isSome = true :=
    mem_omittedChannels ..
  rw [hResult, hDropped, snapshotCount]
  cases hFind : counts.find? fun x => x.channel = c with
  | some x =>
    obtain ⟨hName, -⟩ := List.find?_eq_some_iff_append.mp hFind
    have hPresent : c ∈ counts.map channel :=
      List.mem_map.mpr ⟨x, List.mem_of_find?_eq_some hFind, of_decide_eq_true hName⟩
    rw [if_neg fun h => (hOmitted.mp h).1 hPresent, hListed, hFind]
    exact handles_take ..
  | none =>
    have hAbsent : c ∉ counts.map channel := by
      intro hMem
      obtain ⟨x, hx, hName⟩ := List.mem_map.mp hMem
      exact List.find?_eq_none.mp hFind x hx (decide_eq_true hName)
    rw [hFind] at hListed
    split
    · rw [hListed]
      exact handles_take ..
    · rename_i hKept
      have hEntry : listed.dispatcher.peerChannelCounts.entry app.id c n = none := by
        rw [← Option.not_isSome_iff_eq_none]
        exact fun hSome => hKept (hOmitted.mpr ⟨hAbsent, hSome⟩)
      have hZero : (listed.countCopy app.id n c).1 = 0 := by
        rw [countCopy, keyCopy, countsOf, PeerChannelCounts.count, hEntry]
        rfl
      rw [hListed] at hZero ⊢
      exact .same hZero

theorem known_applyRemoteSubscriptionCount (srv : Server) (now : Instant) (app : Application)
    (origin channel : String) (count : Nat) (vacatedWithheld : Bool) (found : Option Channel) :
    (srv.applyRemoteSubscriptionCount now app origin channel count vacatedWithheld found).known =
      { srv.known with peerChannelCounts :=
          srv.dispatcher.peerChannelCounts.set now app.id channel origin count } := by
  have hReport (srv : Server) (due : Bool) :=
    (srv.reportWithheld_same now app origin channel none due (.ChannelVacated channel)).1
  unfold Server.applyRemoteSubscriptionCount
  dsimp only
  split
  · exact hReport ..
  · split
    · exact hReport ..
    · exact hReport ..

theorem countCopy_subscriptionCount (vacatedWithheld : Bool) {seq : Nat} (hSeq : 0 < seq) :
    (node.ifNewer now n app ("c:" ++ channel) seq
        (fun node => node.setServer (node.applyRemoteSubscriptionCount now app n channel count
          vacatedWithheld (node.findChannel app.id channel))) id).countCopy app.id n =
      update (node.countCopy app.id n) channel
        (take (node.countCopy app.id n channel) seq count) := by
  unfold countCopy
  refine keyCopy_ifNewer (countsOf app.id n) "c:" n channel app now hSeq count _ _ ?_ ?_ ?_ node
  · intro node
    exact countsOf_accept ..
  · intro node
    have hKnown := known_applyRemoteSubscriptionCount node.toServer now app n channel count
      vacatedWithheld (node.findChannel app.id channel)
    refine ⟨congrArg EventDispatcher.PeerKnowledge.peerSeqs hKnown, ?_⟩
    exact (congrArg (fun k c => k.peerChannelCounts.count app.id c n) hKnown).trans
      (countsOf_set node now app.id n channel count)
  · intro node
    exact ⟨rfl, rfl⟩

/-! ## Users -/

def sessionsOf (a n : String) (node : Node) (u : String) : Bool :=
  decide (u ∈ node.dispatcher.peerUserSessions.usersOf a n)

def sessionCopy (node : Node) (a n : String) : String → Bool × Nat :=
  keyCopy (sessionsOf a n) "u:" n a node

theorem sessionsOf_accept (node : Node) (now : Instant) (origin : String) (app : Application)
    (key : String) (seq : Nat) :
    sessionsOf a n (node.accept now origin app key seq) = sessionsOf a n node :=
  congrArg (fun k u => decide (u ∈ k.peerUserSessions.usersOf a n)) (node.known_accept ..)

theorem known_applyRemoteUserOnline : (node.applyRemoteUserOnline now app n u).known =
      { node.known with
        peerUserSessions := node.dispatcher.peerUserSessions.add now app.id n u } := by
  rw [applyRemoteUserOnline]
  split <;> rfl

theorem known_applyRemoteUserOffline : (node.applyRemoteUserOffline now app n u).known =
      { node.known with
        peerUserSessions := node.dispatcher.peerUserSessions.remove now app.id n u } := by
  rw [applyRemoteUserOffline]
  split <;> rfl

theorem sessionCopy_ifNewer (hSeq : 0 < seq) (online : Bool)
    (sessions : PeerUserSessions → PeerUserSessions) {f : Node → Node}
    (hKnown : ∀ node : Node, (f node).known =
      { node.known with peerUserSessions := sessions node.dispatcher.peerUserSessions })
    (hUsers : ∀ (s : PeerUserSessions) (v : String), decide (v ∈ (sessions s).usersOf app.id n) =
      if v = u then online else decide (v ∈ s.usersOf app.id n)) :
    (node.ifNewer now n app ("u:" ++ u) seq f id).sessionCopy app.id n =
      update (node.sessionCopy app.id n) u
        (take (node.sessionCopy app.id n u) seq online) := by
  unfold sessionCopy
  refine keyCopy_ifNewer (sessionsOf app.id n) "u:" n u app now hSeq online _ _ ?_ ?_ ?_ node
  · intro node
    exact sessionsOf_accept ..
  · intro node
    refine ⟨congrArg EventDispatcher.PeerKnowledge.peerSeqs (hKnown node), funext fun v => ?_⟩
    rw [update_apply]
    exact (congrArg (fun k => decide (v ∈ k.peerUserSessions.usersOf app.id n)) (hKnown node)).trans
      (hUsers ..)
  · intro node
    exact ⟨rfl, rfl⟩

theorem sessionCopy_userOnline (hSeq : 0 < seq) (node : Node) (u : String) :
    (node.ifNewer now n app ("u:" ++ u) seq
        (fun node => node.applyRemoteUserOnline now app n u) id).sessionCopy app.id n =
      update (node.sessionCopy app.id n) u (take (node.sessionCopy app.id n u) seq true) := by
  refine sessionCopy_ifNewer node now app n u hSeq true (·.add now app.id n u)
    (fun node => node.known_applyRemoteUserOnline ..) fun s v => ?_
  simp [PeerUserSessions.mem_usersOf_add]

theorem sessionCopy_userOffline (hSeq : 0 < seq) (node : Node) (u : String) :
    (node.ifNewer now n app ("u:" ++ u) seq
        (fun node => node.applyRemoteUserOffline now app n u) id).sessionCopy app.id n =
      update (node.sessionCopy app.id n) u (take (node.sessionCopy app.id n u) seq false) := by
  refine sessionCopy_ifNewer node now app n u hSeq false (·.remove now app.id n u)
    (fun node => node.known_applyRemoteUserOffline ..) fun s v => ?_
  simp [PeerUserSessions.mem_usersOf_remove]

theorem handles_userSessionSnapshot (userIds : List String) {seq : Nat} (hSeq : 0 < seq)
    (u : String) : Handles seq (decide (u ∈ userIds)) (node.sessionCopy app.id n u)
      ((node.applyRemoteUserSessionSnapshot now app n userIds seq).sessionCopy app.id n u) := by
  let touched := node.withSessions (node.dispatcher.peerUserSessions.touch now app.id n)
  let previous := touched.dispatcher.peerUserSessions.usersOf app.id n
  let came := userIds.dedup.filter fun u => u ∉ previous
  let went := previous.filter fun u => u ∉ userIds.dedup
  let joined := came.foldl
    (fun (node : Node) u => node.ifNewer now n app ("u:" ++ u) seq
      (fun node => node.applyRemoteUserOnline now app n u) id) touched
  have hTouched : touched.sessionCopy app.id n u = node.sessionCopy app.id n u := by
    refine Prod.ext ?_ rfl
    exact decide_eq_decide.mpr (PeerUserSessions.mem_usersOf_touch ..)
  have hPrevious : (node.sessionCopy app.id n u).1 = decide (u ∈ previous) := by
    rw [← hTouched]
    rfl
  have hJoined : joined.sessionCopy app.id n u =
      if u ∈ came then take (touched.sessionCopy app.id n u) seq true
      else touched.sessionCopy app.id n u :=
    foldl_take_const (fun node : Node => node.sessionCopy app.id n)
      (fun node v => sessionCopy_userOnline now app n hSeq node v) came touched u
  have hLeft : (node.applyRemoteUserSessionSnapshot now app n userIds seq).sessionCopy app.id n u =
      if u ∈ went then take (joined.sessionCopy app.id n u) seq false
      else joined.sessionCopy app.id n u :=
    foldl_take_const (fun node : Node => node.sessionCopy app.id n)
      (fun node v => sessionCopy_userOffline now app n hSeq node v) went joined u
  have hCame : u ∈ came ↔ u ∈ userIds ∧ u ∉ previous := by
    rw [List.mem_filter, List.mem_dedup, decide_eq_true_eq]
  have hWent : u ∈ went ↔ u ∈ previous ∧ u ∉ userIds := by
    rw [List.mem_filter, decide_eq_true_eq, List.mem_dedup]
  rw [hLeft, hJoined, hTouched]
  by_cases hReported : u ∈ userIds
  · rw [if_neg fun h => (hWent.mp h).2 hReported, decide_eq_true hReported]
    by_cases hKnown : u ∈ previous
    · rw [if_neg fun h => (hCame.mp h).2 hKnown]
      exact .same (hPrevious.trans (decide_eq_true hKnown))
    · rw [if_pos (hCame.mpr ⟨hReported, hKnown⟩)]
      exact handles_take ..
  · rw [if_neg fun h => hReported (hCame.mp h).1, decide_eq_false hReported]
    by_cases hKnown : u ∈ previous
    · rw [if_pos (hWent.mpr ⟨hKnown, hReported⟩)]
      exact handles_take ..
    · rw [if_neg fun h => hKnown (hWent.mp h).1]
      exact .same (hPrevious.trans (decide_eq_false hKnown))

theorem sessionCopy_congr {node after : Node}
    (hSessions : after.dispatcher.peerUserSessions = node.dispatcher.peerUserSessions)
    (hSeqs : after.dispatcher.peerSeqs = node.dispatcher.peerSeqs) (a n : String) :
    after.sessionCopy a n = node.sessionCopy a n := by
  funext u
  rw [sessionCopy, sessionCopy, keyCopy, keyCopy, sessionsOf, sessionsOf, hSessions,
    applied, hSeqs, applied]

end Node

end Zatat
