import Mathlib.Data.Finset.Card
import Zatat.Channels.Membership
import Zatat.Http.Routes
import Zatat.Ws.Footprint

/-! # The list of channels

`GET /channels` merges the channels of the node with what the other nodes answer
when they are asked. Answers are taken as they come in, until as many nodes have
answered as were heard of lately.
-/

namespace Zatat

open FiniteMap List Node

/-- What a node answers: its id, its channels and how many connections it has. -/
abbrev MetricsAnswer := String × List ChannelMetric × Nat

def EventDispatcher.livePeerCount (d : EventDispatcher) (now : Instant) : Nat :=
  (d.peersSeen.entries.filter fun e => durationSince now e.2 ≤ snapshotTtl).length

namespace Node

def passes (filter : Option String) (name : String) : Bool :=
  match filter with
  | some start => startsWith name start
  | none => true

/-- The metrics of `respond_to_metrics_request`. -/
def metricsFor (node : Node) (now : Instant) (app : Application) (query : MetricsQuery) :
    List ChannelMetric :=
  let channels := if query.connectionsOnly then []
    else (node.apps app.id).channels.entries.map fun e => e.2
  (channels.filter fun ch => passes query.filterByPrefix ch.name).map (channelMetric now)

def metricsAnswer (node : Node) (now : Instant) (app : Application) (query : MetricsQuery) :
    MetricsAnswer :=
  (node.dispatcher.nodeId, node.metricsFor now app query,
    (node.apps app.id).connections.entries.length)

/-- The loop of `ask_fleet`, over the answers that come in before the deadline. -/
def gatherAnswers (expected : Nat) : Finset String → List ChannelMetric × Nat →
    List MetricsAnswer → List ChannelMetric × Nat
  | _, out, [] => out
  | responders, out, answer :: rest =>
    let out := (out.1 ++ answer.2.1, out.2 + answer.2.2)
    let responders := insert answer.1 responders
    if 0 < expected ∧ expected ≤ responders.card then out
    else gatherAnswers expected responders out rest

def waitedFor {α : Type} (expected : Nat) (answers : List α) : List α :=
  if expected = 0 then answers else answers.take expected

def fleetAnswer (node : Node) (now : Instant) (answers : List MetricsAnswer) :
    Option (List ChannelMetric × Nat) :=
  if node.dispatcher.scalingEnabled then
    some (gatherAnswers (node.dispatcher.livePeerCount now) ∅ ([], 0) answers)
  else none

def askFleetForChannels (node : Node) (now : Instant) (answers : List MetricsAnswer) :
    Option (List ChannelMetric) :=
  (node.fleetAnswer now answers).map Prod.fst

end Node

namespace Http

structure Merged where
  occupied : Bool
  subscriptionCount : Nat
  userIds : Finset String
  hasCachedPayload : Bool
  isPresence : Bool
deriving DecidableEq

namespace Merged

def empty : Merged := ⟨false, 0, ∅, false, false⟩

def add (entry : Merged) (occupied : Bool) (subscriptionCount : Nat) (hasCachedPayload : Bool)
    (userIds : Option (List String)) : Merged where
  occupied := entry.occupied || occupied
  subscriptionCount := entry.subscriptionCount + subscriptionCount
  userIds := entry.userIds ∪ (userIds.getD []).toFinset
  hasCachedPayload := entry.hasCachedPayload || hasCachedPayload
  isPresence := entry.isPresence || userIds.isSome

def addMetric (entry : Merged) (m : ChannelMetric) : Merged :=
  entry.add m.occupied m.subscriptionCount m.hasCachedPayload
    (if m.userCount.isSome then some m.presenceUserIds else none)

def stats (m : Merged) : Option ChannelStats :=
  if m.occupied then
    some ⟨m.occupied, m.subscriptionCount, if m.isPresence then some m.userIds.card else none,
      m.hasCachedPayload⟩
  else none

end Merged

def mergeLocal (now : Instant) (merged : Map String Merged) (ch : Channel) : Map String Merged :=
  let entry := (merged.lookup ch.name).getD .empty
  merged.insert ch.name (entry.add (!ch.isEmpty) ch.len (ch.cachedPayloadAt now).isSome
    (if ch.kind.isPresence then some (localUserIds (some ch)) else none))

def mergeRemote (merged : Map String Merged) (m : ChannelMetric) : Map String Merged :=
  merged.insert m.name (((merged.lookup m.name).getD .empty).addMetric m)

/-- `list_channels`, given the answers of the other nodes. -/
def listChannels (node : Node) (now : Instant) (app : Application) (filter : Option String)
    (answers : List MetricsAnswer) : Map String ChannelStats :=
  let channels := ((node.apps app.id).channels.entries.map fun e => e.2).filter fun ch =>
    Node.passes filter ch.name
  let merged := channels.foldl (mergeLocal now) ∅
  let remote := (node.askFleetForChannels now answers).getD []
  filterMapVal (fun _ m => m.stats) (remote.foldl mergeRemote merged)

end Http

/-! ## Which answers are gathered -/

namespace Node

theorem gatherAnswers_zero (responders : Finset String) (out : List ChannelMetric × Nat)
    (answers : List MetricsAnswer) : (gatherAnswers 0 responders out answers).1 =
      out.1 ++ answers.flatMap fun answer => answer.2.1 := by
  induction answers generalizing responders out with
  | nil => exact (append_nil _).symm
  | cons answer answers ih =>
    rw [gatherAnswers]
    rw [if_neg fun h => absurd h.1 (Nat.lt_irrefl 0), ih, flatMap_cons, append_assoc]

theorem gatherAnswers_pos {expected : Nat} {responders : Finset String}
    (hMore : responders.card < expected) (out : List ChannelMetric × Nat)
    {answers : List MetricsAnswer} (hOnce : (answers.map Prod.fst).Nodup)
    (hNew : ∀ answer ∈ answers, answer.1 ∉ responders) :
    (gatherAnswers expected responders out answers).1 =
      out.1 ++ (answers.take (expected - responders.card)).flatMap fun answer => answer.2.1 := by
  induction answers generalizing responders out with
  | nil =>
    rw [take_nil]
    exact (append_nil _).symm
  | cons answer answers ih =>
    obtain ⟨hFirst, hRest⟩ := nodup_cons.mp hOnce
    have hCard : (insert answer.1 responders).card = responders.card + 1 :=
      Finset.card_insert_of_notMem (hNew answer mem_cons_self)
    rw [gatherAnswers]
    split
    · rename_i hEnough
      have hLast : expected - responders.card = 1 := by omega
      rw [hLast, take_succ_cons, take_zero, flatMap_cons, flatMap_nil, append_nil]
    · rename_i hEnough
      have hStill : (insert answer.1 responders).card < expected := by omega
      have hStep : expected - responders.card = expected - (responders.card + 1) + 1 := by omega
      rw [ih hStill _ hRest, hCard, hStep, take_succ_cons, flatMap_cons, append_assoc]
      intro other hOther hMem
      rcases Finset.mem_insert.mp hMem with hSame | hOld
      · exact hFirst (hSame ▸ mem_map.mpr ⟨other, hOther, rfl⟩)
      · exact hNew other (mem_cons_of_mem _ hOther) hOld

theorem askFleetForChannels_eq {node : Node} (hScaling : node.dispatcher.scalingEnabled = true)
    (now : Instant) {answers : List MetricsAnswer} (hOnce : (answers.map Prod.fst).Nodup) :
    node.askFleetForChannels now answers =
      some ((waitedFor (node.dispatcher.livePeerCount now) answers).flatMap
        fun answer => answer.2.1) := by
  rw [askFleetForChannels, fleetAnswer, if_pos hScaling, Option.map_some, waitedFor]
  refine congrArg some ?_
  split
  · rename_i hZero
    rw [hZero]
    exact gatherAnswers_zero ..
  · rename_i hSome
    exact gatherAnswers_pos (Nat.pos_of_ne_zero hSome) ([], 0) hOnce
      fun _ _ => Finset.notMem_empty _

end Node

namespace Http

/-! ## Merging channel by channel -/

theorem mem_keys_foldl {add : SortedMap String Unit → (Sigma fun _ : String => Member) →
      SortedMap String Unit} {u : String}
    (hAdd : ∀ ids e, u ∈ (add ids e).keys ↔ u ∈ ids.keys ∨ e.2.user = some u)
    (entries : List (Sigma fun _ : String => Member)) (ids : SortedMap String Unit) :
    u ∈ (entries.foldl add ids).keys ↔ u ∈ ids.keys ∨ u ∈ entries.filterMap fun e => e.2.user := by
  induction entries generalizing ids with
  | nil => simp
  | cons e entries ih =>
    rw [foldl_cons, ih, hAdd, mem_filterMap, mem_filterMap]
    simp only [mem_cons, exists_eq_or_imp, or_assoc]

theorem mem_presenceUserIds {ch : Channel} (hKind : ch.kind.isPresence = true) {u : String} :
    u ∈ presenceUserIds ch ↔ u ∈ localUserIds (some ch) := by
  rw [presenceUserIds, if_pos hKind, localUserIds]
  refine (mem_keys_foldl (fun ids e => ?_) _ _).trans (by simp)
  cases e.2.user with
  | none => simp
  | some v =>
    rw [SortedMap.mem_keys_orInsert, or_comm, Option.some.injEq, eq_comm]

theorem mergeLocal_eq (now : Instant) (merged : Map String Merged) (ch : Channel) :
    mergeLocal now merged ch = mergeRemote merged (channelMetric now ch) := by
  cases hKind : ch.kind.isPresence with
  | false =>
    simp [mergeLocal, mergeRemote, Merged.addMetric, channelMetric, hKind]
  | true =>
    have hUsers : (localUserIds (some ch)).toFinset = (presenceUserIds ch).toFinset := by
      ext u
      rw [mem_toFinset, mem_toFinset, mem_presenceUserIds hKind]
    simp [mergeLocal, mergeRemote, Merged.addMetric, Merged.add, channelMetric, hKind, hUsers]

theorem lookup_foldl_mergeRemote (metrics : List ChannelMetric) (merged : Map String Merged)
    (c : String) : ((metrics.foldl mergeRemote merged).lookup c).getD .empty =
      (metrics.filter fun m => m.name = c).foldl Merged.addMetric
        ((merged.lookup c).getD .empty) := by
  induction metrics generalizing merged with
  | nil => rfl
  | cons m metrics ih =>
    rw [foldl_cons, ih, mergeRemote, lookup_insert_if]
    by_cases hName : m.name = c
    · rw [filter_cons_of_pos (by simpa using hName), foldl_cons, if_pos hName.symm, hName]
      rfl
    · rw [filter_cons_of_neg (by simpa using hName), if_neg fun h => hName h.symm]

theorem lookup_listChannels (node : Node) (now : Instant) (app : Application)
    (filter : Option String) (answers : List MetricsAnswer) (c : String) :
    (listChannels node now app filter answers).lookup c =
      (((node.metricsFor now app ⟨filter, none, false⟩ ++
        (node.askFleetForChannels now answers).getD []).filter fun m => m.name = c).foldl
          Merged.addMetric .empty).stats := by
  have hLocal (channels : List Channel) : channels.foldl (mergeLocal now) ∅ =
      (channels.map (channelMetric now)).foldl mergeRemote ∅ := by
    rw [foldl_map]
    exact congrArg (fun merge => channels.foldl merge ∅)
      (funext fun merged => funext fun ch => mergeLocal_eq now merged ch)
  have hStats (entry : Option Merged) : entry.bind Merged.stats = (entry.getD .empty).stats := by
    cases entry <;> rfl
  rw [listChannels, lookup_filterMapVal, hLocal, ← foldl_append, hStats,
    lookup_foldl_mergeRemote, AList.lookup_empty]
  rfl

theorem foldl_addMetric (metrics : List ChannelMetric) (entry : Merged) :
    (metrics.foldl Merged.addMetric entry).subscriptionCount =
        entry.subscriptionCount + (metrics.map ChannelMetric.subscriptionCount).sum ∧
      (metrics.foldl Merged.addMetric entry).occupied =
        (entry.occupied || metrics.any ChannelMetric.occupied) ∧
      (metrics.foldl Merged.addMetric entry).isPresence =
        (entry.isPresence || metrics.any fun m => m.userCount.isSome) ∧
      ∀ u, u ∈ (metrics.foldl Merged.addMetric entry).userIds ↔
        u ∈ entry.userIds ∨ ∃ m ∈ metrics, m.userCount.isSome = true ∧ u ∈ m.presenceUserIds := by
  induction metrics generalizing entry with
  | nil => simp
  | cons m metrics ih =>
    obtain ⟨hCount, hOccupied, hPresence, hUsers⟩ := ih (entry.addMetric m)
    rw [foldl_cons]
    refine ⟨?_, ?_, ?_, fun u => ?_⟩
    · rw [hCount, map_cons, sum_cons, ← Nat.add_assoc]
      rfl
    · rw [hOccupied, any_cons, ← Bool.or_assoc]
      rfl
    · have hOne : (entry.addMetric m).isPresence = (entry.isPresence || m.userCount.isSome) := by
        rw [Merged.addMetric, Merged.add]
        cases m.userCount.isSome <;> rfl
      rw [hPresence, hOne, any_cons, Bool.or_assoc]
    · rw [hUsers]
      have hOne : u ∈ (entry.addMetric m).userIds ↔
          u ∈ entry.userIds ∨ m.userCount.isSome = true ∧ u ∈ m.presenceUserIds := by
        rw [Merged.addMetric, Merged.add, Finset.mem_union, mem_toFinset]
        cases m.userCount.isSome <;> simp
      rw [hOne, or_assoc]
      simp only [mem_cons, exists_eq_or_imp]

end Http

namespace Node

theorem filter_metricsFor {node : Node} (h : node.NamesByKey) (now : Instant) (app : Application)
    {filter : Option String} (info : Option String) {c : String}
    (hPasses : passes filter c = true) :
    ((node.metricsFor now app ⟨filter, info, false⟩).filter fun m => m.name = c) =
      ((node.findChannel app.id c).map (channelMetric now)).toList := by
  have hKey : ∀ e ∈ (node.apps app.id).channels.entries,
      (decide (e.2.name = c) && passes filter e.2.name) = decide (e.1 = c) := by
    intro e hMem
    rw [h app.id e.1 e.2 (mem_entries_iff.mp hMem)]
    by_cases hName : e.1 = c
    · rw [hName, hPasses, Bool.and_true]
    · rw [decide_eq_false hName, Bool.false_and]
  have hFilter := map_snd_filter_key (node.apps app.id).channels c
  rw [metricsFor]
  dsimp only
  rw [if_neg Bool.false_ne_true, filter_map, filter_filter, filter_map]
  refine Eq.trans (congrArg (fun entries => (entries.map fun e => e.2).map (channelMetric now))
    (filter_congr hKey)) ?_
  rw [hFilter, ← Option.toList_map]
  rfl

end Node

end Zatat
