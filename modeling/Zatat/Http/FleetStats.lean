import Mathlib.Algebra.BigOperators.Group.Finset.Basic
import Mathlib.Algebra.Order.BigOperators.Group.Finset
import Zatat.Http.Listing
import Zatat.Ws.JoinLeave

/-! # The same statistics everywhere

Two ways lead to the statistics of a channel: asking the other nodes, and adding
up what they have reported. Both are compared with what there is in the fleet.
-/

namespace Zatat

open FiniteMap Node List EventDispatcher.PeerKnowledge

/-- The count last reported by a node, if it is fresh. -/
def PeerChannelCounts.liveCount (counts : PeerChannelCounts) (now : Instant)
    (appId channel nodeId : String) : Nat :=
  ((counts.entry appId channel nodeId).filter fun e => !e.expired now).elim 0 CountEntry.count

def Node.membersAt (node : Node) (a c : String) : Map String Member :=
  ((node.findChannel a c).map Channel.members).getD ∅

namespace FleetStats

open Http

structure Report where
  occupied : Bool
  subscriptionCount : Nat
  userCount : Option Nat
deriving DecidableEq, Repr

def reportOf (s : ChannelStats) : Report := ⟨s.occupied, s.subscriptionCount, s.userCount⟩

/-- Nodes with different ids that keep their channels in order; on each of them members of
presence channels are users, and channels are stored under their names, as they are in every
state of a server (`Serving.labelled_of_run`). Where there are several, they share a bus. -/
structure Fleet (ι : Type) (app : Application) where
  nodes : ι → Node
  nows : ι → Instant
  distinct : Function.Injective fun i => (nodes i).dispatcher.nodeId
  scaling : ∀ i j, i ≠ j → (nodes i).dispatcher.scalingEnabled = true
  wellFormed : ∀ i, (nodes i).WellFormed
  named : ∀ i, (nodes i).NamesByKey

variable {ι : Type} {app : Application}

namespace Fleet

section

variable (F : Fleet ι app) (c : String)

def nodeId (i : ι) : String := (F.nodes i).dispatcher.nodeId

def subscribers (i : ι) : Nat := ((F.nodes i).membersAt app.id c).entries.length

def users (i : ι) : Finset String :=
  (((F.nodes i).membersAt app.id c).entries.filterMap fun e => e.2.user).toFinset

variable [DecidableEq ι]

def total (nodes : Finset ι) : Report where
  occupied := decide (0 < ∑ i ∈ nodes, F.subscribers c i)
  subscriptionCount := ∑ i ∈ nodes, F.subscribers c i
  userCount := if (ChannelKind.fromName c).isPresence then some (nodes.biUnion (F.users c)).card
    else none

def actual [Fintype ι] : Report := F.total c Finset.univ

end

/-- All changes of membership have come through: each node has a fresh roster of the users
of every other node, and the fresh counts of the other channels. -/
structure Propagated (F : Fleet ι app) : Prop where
  rosters : ∀ i c, (ChannelKind.fromName c).isPresence = true → ∀ n u,
    (F.nodes i).presenceCache.ListsLive (F.nows i) app.id c n u ↔
      ∃ j, j ≠ i ∧ F.nodeId j = n ∧ u ∈ F.users c j
  counts : ∀ i c, (ChannelKind.fromName c).isPresence = false → ∀ j, j ≠ i →
    (F.nodes i).dispatcher.peerChannelCounts.liveCount (F.nows i) app.id c (F.nodeId j) =
      F.subscribers c j
  noOther : ∀ i c, (ChannelKind.fromName c).isPresence = false → ∀ n,
    (∀ j, j ≠ i → F.nodeId j ≠ n) →
      (F.nodes i).dispatcher.peerChannelCounts.liveCount (F.nows i) app.id c n = 0

structure Order (i : ι) (order : List ι) : Prop where
  once : order.Nodup
  others : ∀ j, j ∈ order ↔ j ≠ i

def answers (F : Fleet ι app) (query : MetricsQuery) (order : List ι) : List MetricsAnswer :=
  order.map fun j => (F.nodes j).metricsAnswer (F.nows j) app query

/-- The node lists the channel with the statistics of the fleet, or not at all when nobody
subscribes, and reports them when it is asked for the channel, or after an event. -/
structure Agrees [DecidableEq ι] [Fintype ι] (F : Fleet ι app) (i : ι) (c : String)
    (filter info : Option String) (order : List ι) : Prop where
  listed : ((listChannels (F.nodes i) (F.nows i) app filter
      (F.answers ⟨filter, info, false⟩ order)).lookup c).map reportOf =
    if (F.actual c).occupied then some (F.actual c) else none
  channelInfo : reportOf (fleetChannelStats (F.nodes i) (F.nows i) app c) = F.actual c
  echo : ∀ (prims : Primitives) (moments : Nat → Moment) (payload : Http.EventPayload),
    reportOf (fleetChannelStats (dispatchEvent prims moments app (F.nodes i) 0 payload).2
      (F.nows i) app c) = F.actual c

end Fleet

/-! ## An event leaves the statistics alone -/

variable (prims : Primitives) (node : Node) (now : Instant) (app : Application)

def SameView (node after : Node) : Prop :=
  (∀ a c, after.membersAt a c = node.membersAt a c) ∧ after.known = node.known

theorem SameView.refl : SameView node node := ⟨fun _ _ => rfl, rfl⟩

theorem SameView.trans {node mid after : Node} (h : SameView node mid) (h' : SameView mid after) :
    SameView node after :=
  ⟨fun a c => (h'.1 a c).trans (h.1 a c), h'.2.trans h.2⟩

theorem sameView_setChannel {a : String} {slot : AppChannels} {name : String} {ch : Channel}
    (hSlot : ∀ c, c ≠ name → slot.findChannel c = (node.apps a).findChannel c)
    (hMembers : ch.members = node.membersAt a name) :
    SameView node (node.setApp a (slot.setChannel name ch)) := by
  refine ⟨fun a' c => ?_, rfl⟩
  rw [membersAt, findChannel, setApp]
  dsimp only
  rw [Function.update_apply]
  split
  · rename_i hApp
    subst hApp
    rw [AppChannels.findChannel_setChannel]
    split
    · rename_i hName
      rw [hName, Option.map_some, Option.getD_some, hMembers]
    · rename_i hName
      rw [hSlot c hName]
      rfl
  · rfl

theorem members_getOrCreateCacheChannel (name : String) :
    (∀ c, c ≠ name → ((node.apps app.id).getOrCreateCacheChannel app name).2.findChannel c =
        (node.apps app.id).findChannel c) ∧
      ∀ ch, ((node.apps app.id).getOrCreateCacheChannel app name).1 = some ch →
        ch.members = node.membersAt app.id name := by
  rw [AppChannels.getOrCreateCacheChannel]
  split
  · refine ⟨fun c hName => ?_, ?_⟩
    · rw [AppChannels.findChannel_setChannel, if_neg hName]
    · rintro ch ⟨⟩
      rw [membersAt, AppChannels.entryOrNew]
      change _ = (((node.apps app.id).channels.lookup name).map Channel.members).getD ∅
      cases (node.apps app.id).channels.lookup name <;> rfl
  · refine ⟨fun c _ => rfl, fun ch (hFind : (node.apps app.id).findChannel name = some ch) => ?_⟩
    rw [membersAt, findChannel, hFind]
    rfl

theorem sameView_broadcastLocallyWithApp (channel event data : String) (except : Option String) :
    SameView node (node.broadcastLocallyWithApp now app channel event data except) := by
  obtain ⟨hOthers, hMembers⟩ := members_getOrCreateCacheChannel node app channel
  rw [broadcastLocallyWithApp]
  split
  · exact ⟨fun _ _ => rfl, rfl⟩
  · dsimp only
    split
    · exact ⟨fun _ _ => rfl, rfl⟩
    · rename_i ch hFound
      have hSet := sameView_setChannel node hOthers
        ((ch.setCachedPayload_members now ⟨event, data, channel⟩).trans (hMembers ch hFound))
      exact ⟨hSet.1, hSet.2⟩

theorem sameView_dispatchMessage (moment : Moment) (app : Application) (channel event data : String)
    (except : Option String) :
    SameView node (node.dispatchMessage prims moment app channel event data except).2 := by
  rw [dispatchMessage]
  split
  · exact ⟨fun _ _ => rfl, rfl⟩
  · rename_i sealedData hSealed
    have hLocal := sameView_broadcastLocallyWithApp node moment.now app channel event sealedData
      except
    dsimp only
    split
    · exact hLocal.trans ⟨fun _ _ => rfl, EventDispatcher.known_spawnPublish ..⟩
    · exact hLocal

theorem sameView_dispatchChannels (moments : Nat → Moment) (app : Application) (event data : String)
    (except : Option String) (node : Node) (k : Nat) (channels : List String) :
    SameView node (dispatchChannels prims moments app event data except node k channels).2 :=
  dispatchChannels_keeps (R := SameView) SameView.refl SameView.trans
    (fun node moment channel _ => sameView_dispatchMessage prims node moment app channel event data
      except) node k

/-! ## The statistics of one node -/

theorem reportOf_fleetChannelStats (c : String) : reportOf (fleetChannelStats node now app c) =
      if (ChannelKind.fromName c).isPresence then
        ⟨decide ((node.membersAt app.id c).entries.length > 0) ||
            !(node.presenceCache.remoteMembersFor now app.id c).isEmpty,
          (node.membersAt app.id c).entries.length,
          some (((node.membersAt app.id c).entries.filterMap fun e => e.2.user) ++
            (node.presenceCache.remoteMembersFor now app.id c).map
              PresenceSnapshotMember.userId).dedup.length⟩ else
        ⟨decide ((node.membersAt app.id c).entries.length > 0) ||
            decide (node.dispatcher.peerChannelCounts.sum now app.id c > 0),
          (node.membersAt app.id c).entries.length +
            node.dispatcher.peerChannelCounts.sum now app.id c, none⟩ := by
  rw [fleetChannelStats, membersAt]
  split <;> cases node.findChannel app.id c <;> rfl

theorem reportOf_of_sameView {node after : Node} (h : SameView node after) (now : Instant)
    (app : Application) (c : String) :
    reportOf (fleetChannelStats after now app c) = reportOf (fleetChannelStats node now app c) := by
  have hCache : after.presenceCache = node.presenceCache :=
    congrArg presenceCache h.2
  have hCounts : after.dispatcher.peerChannelCounts = node.dispatcher.peerChannelCounts :=
    congrArg peerChannelCounts h.2
  rw [reportOf_fleetChannelStats, reportOf_fleetChannelStats, h.1, hCache, hCounts]

end FleetStats

/-! ## Counts reported by peers -/

namespace PeerChannelCounts

variable (counts : PeerChannelCounts) (now : Instant) (a c : String)

theorem sum_eq_keys :
    counts.sum now a c = ∑ n ∈ (counts.nodesOf a c).keys.toFinset, counts.liveCount now a c n := by
  have hEntry : ∀ e ∈ (counts.nodesOf a c).entries,
      (if e.2.expired now then 0 else e.2.count) = counts.liveCount now a c e.1 := by
    intro e hMem
    have hStored : counts.entry a c e.1 = some e.2 := mem_entries_iff.mp hMem
    rw [liveCount, hStored, Option.filter_some]
    cases e.2.expired now <;> rfl
  have hSum (l : List (Sigma fun _ : String => CountEntry)) :
      ((l.filter fun e => !e.2.expired now).map fun e => e.2.count).sum =
        (l.map fun e => if e.2.expired now then 0 else e.2.count).sum := by
    induction l with
    | nil => rfl
    | cons e l ih =>
      rw [map_cons, sum_cons, ← ih]
      cases hExpired : e.2.expired now with
      | false => rw [filter_cons_of_pos (by simp [hExpired])]; rfl
      | true => rw [filter_cons_of_neg (by simp [hExpired])]; exact (Nat.zero_add _).symm
  rw [sum, hSum, map_congr_left hEntry, sum_toFinset _ (counts.nodesOf a c).keys_nodup]
  rw [AList.keys, List.keys, map_map]
  rfl

theorem sum_eq_of_support {nodes : Finset String}
    (h : ∀ n, n ∉ nodes → counts.liveCount now a c n = 0) :
    counts.sum now a c = ∑ n ∈ nodes, counts.liveCount now a c n := by
  have hStored : ∀ n, n ∉ (counts.nodesOf a c).keys.toFinset → counts.liveCount now a c n = 0 := by
    intro n hMem
    have hNone : counts.entry a c n = none :=
      AList.lookup_eq_none.mpr fun hIn => hMem (mem_toFinset.mpr (AList.mem_keys.mp hIn))
    rw [liveCount, hNone]
    rfl
  rw [sum_eq_keys]
  calc ∑ n ∈ (counts.nodesOf a c).keys.toFinset, counts.liveCount now a c n
      = ∑ n ∈ (counts.nodesOf a c).keys.toFinset ∪ nodes, counts.liveCount now a c n :=
        Finset.sum_subset Finset.subset_union_left fun n _ hMem => hStored n hMem
    _ = ∑ n ∈ nodes, counts.liveCount now a c n :=
        (Finset.sum_subset Finset.subset_union_right fun n _ hMem => h n hMem).symm

end PeerChannelCounts

end Zatat
