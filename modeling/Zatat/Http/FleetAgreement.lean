import Zatat.Http.FleetStats

/-! # Where the statistics agree

What a node lists is the statistics of the nodes whose answers it waited for; what
it reports of one channel is what its peers have told it. Each is put beside the
statistics of the fleet.
-/

namespace Zatat

open FiniteMap Finset Node ChannelKind PresenceCache PresenceSnapshotMember

namespace FleetStats

open Http

variable {ι : Type} {app : Application}

namespace Fleet

section

variable (F : Fleet ι app) {c : String} {i : ι} {told : List ι}

theorem users_eq_empty (h : F.subscribers c i = 0) : F.users c i = ∅ := by
  rw [users, List.length_eq_zero_iff.mp h]
  rfl

theorem exists_user (hPresence : (fromName c).isPresence = true)
    (h : 0 < F.subscribers c i) : ∃ u, u ∈ F.users c i := by
  rw [subscribers, membersAt] at h
  cases hFind : (F.nodes i).findChannel app.id c with
  | none =>
    rw [hFind] at h
    cases h
  | some ch =>
    rw [hFind] at h
    obtain ⟨e, hMem⟩ := List.exists_mem_of_length_pos h
    have hSlot := F.wellFormed i app.id
    have hUser := (hSlot.exact c ch hFind).present e.1 e.2 (mem_entries_iff.mp hMem)
    rw [hSlot.kind c ch hFind, hPresence] at hUser
    obtain ⟨pm, hPm⟩ := Option.isSome_iff_exists.mp hUser
    refine ⟨pm.userId, List.mem_toFinset.mpr (List.mem_filterMap.mpr ⟨e, ?_, ?_⟩)⟩
    · rw [membersAt, hFind]
      exact hMem
    · rw [Member.user, hPm]
      rfl

def metricsOf (c : String) (told : List ι) : List ChannelMetric :=
  told.flatMap fun j =>
    (((F.nodes j).findChannel app.id c).map (Node.channelMetric (F.nows j))).toList

theorem sum_metricsOf (told : List ι) :
    ((F.metricsOf c told).map ChannelMetric.subscriptionCount).sum =
      (told.map (F.subscribers c)).sum := by
  induction told with
  | nil => rfl
  | cons j told ih =>
    rw [metricsOf, List.flatMap_cons, List.map_append, List.sum_append, List.map_cons,
      List.sum_cons]
    refine congrArg₂ _ ?_ ih
    rw [subscribers, membersAt]
    cases (F.nodes j).findChannel app.id c <;> rfl

theorem any_occupied_metricsOf (told : List ι) : (F.metricsOf c told).any ChannelMetric.occupied =
      decide (0 < (told.map (F.subscribers c)).sum) := by
  have hMetric : ∀ m ∈ F.metricsOf c told, m.occupied = decide (0 < m.subscriptionCount) := by
    intro m hMem
    obtain ⟨j, -, hTold⟩ := List.mem_flatMap.mp hMem
    obtain ⟨ch, -, rfl⟩ := Option.map_eq_some_iff.mp (Option.mem_toList.mp hTold)
    change (!ch.members.entries.isEmpty) = decide (0 < ch.members.entries.length)
    cases ch.members.entries <;> simp
  rw [← sum_metricsOf, Bool.eq_iff_iff, List.any_eq_true, decide_eq_true_eq, Nat.pos_iff_ne_zero,
    Ne, List.sum_eq_zero_iff_forall_eq_nat]
  constructor
  · rintro ⟨m, hMem, hOccupied⟩ hZero
    rw [hMetric m hMem, hZero _ (List.mem_map.mpr ⟨m, hMem, rfl⟩)] at hOccupied
    cases hOccupied
  · intro hSome
    by_contra hNone
    refine hSome fun n hn => ?_
    obtain ⟨m, hMem, rfl⟩ := List.mem_map.mp hn
    by_contra hCount
    refine hNone ⟨m, hMem, ?_⟩
    rw [hMetric m hMem]
    exact decide_eq_true (Nat.pos_of_ne_zero hCount)

theorem isSome_userCount {m : ChannelMetric} (h : m ∈ F.metricsOf c told) :
    m.userCount.isSome = (fromName c).isPresence := by
  obtain ⟨j, -, hTold⟩ := List.mem_flatMap.mp h
  obtain ⟨ch, hFind, rfl⟩ := Option.map_eq_some_iff.mp (Option.mem_toList.mp hTold)
  rw [← (F.wellFormed j app.id).kind c ch hFind, channelMetric]
  cases ch.kind.isPresence <;> rfl

theorem mem_users_metricsOf (hPresence : (fromName c).isPresence = true) {u : String} :
    (∃ m ∈ F.metricsOf c told, m.userCount.isSome = true ∧ u ∈ m.presenceUserIds) ↔
      ∃ j ∈ told, u ∈ F.users c j := by
  have hUsers {j : ι} {ch : Channel} (hFind : (F.nodes j).findChannel app.id c = some ch) :
      u ∈ presenceUserIds ch ↔ u ∈ F.users c j := by
    have hKind := (F.wellFormed j app.id).kind c ch hFind
    rw [mem_presenceUserIds (hKind ▸ hPresence), users, List.mem_toFinset, membersAt, hFind]
    rfl
  constructor
  · rintro ⟨m, hMem, -, hUser⟩
    obtain ⟨j, hj, hTold⟩ := List.mem_flatMap.mp hMem
    obtain ⟨ch, hFind, rfl⟩ := Option.map_eq_some_iff.mp (Option.mem_toList.mp hTold)
    exact ⟨j, hj, (hUsers hFind).mp hUser⟩
  · rintro ⟨j, hj, hUser⟩
    cases hFind : (F.nodes j).findChannel app.id c with
    | none =>
      rw [users, membersAt, hFind] at hUser
      cases List.mem_toFinset.mp hUser
    | some ch =>
      have hMem : channelMetric (F.nows j) ch ∈ F.metricsOf c told := by
        refine List.mem_flatMap.mpr ⟨j, hj, ?_⟩
        rw [hFind]
        exact List.mem_singleton.mpr rfl
      exact ⟨_, hMem, (F.isSome_userCount hMem).trans hPresence, (hUsers hFind).mpr hUser⟩

variable [DecidableEq ι]

theorem userCount_metricsOf {told : List ι}
    (hSome : ((F.metricsOf c told).foldl Merged.addMetric .empty).occupied = true) :
    (if ((F.metricsOf c told).foldl Merged.addMetric .empty).isPresence then
        some ((F.metricsOf c told).foldl Merged.addMetric .empty).userIds.card else none) =
      (F.total c told.toFinset).userCount := by
  obtain ⟨-, hOccupied, hPresence, hUsers⟩ := foldl_addMetric (F.metricsOf c told) .empty
  rw [hPresence, total]
  dsimp only
  cases hKind : (fromName c).isPresence with
  | false =>
    have hNone : ((F.metricsOf c told).any fun m => m.userCount.isSome) = false := by
      refine List.any_eq_false.mpr fun m hMem => ?_
      rw [F.isSome_userCount hMem, hKind]
      exact Bool.false_ne_true
    rw [hNone]
    rfl
  | true =>
    have hAny : ((F.metricsOf c told).any fun m => m.userCount.isSome) = true := by
      rw [hOccupied] at hSome
      obtain ⟨m, hMem, -⟩ := List.any_eq_true.mp (Bool.false_or _ ▸ hSome)
      exact List.any_eq_true.mpr ⟨m, hMem, (F.isSome_userCount hMem).trans hKind⟩
    have hIds : ((F.metricsOf c told).foldl Merged.addMetric .empty).userIds =
        told.toFinset.biUnion (F.users c) := by
      ext u
      rw [hUsers, F.mem_users_metricsOf hKind, mem_biUnion]
      simp [Merged.empty]
    rw [hAny, Bool.or_true, if_pos rfl, if_pos rfl, hIds]

theorem stats_metricsOf {told : List ι} (hOnce : told.Nodup) :
    ((F.metricsOf c told).foldl Merged.addMetric .empty).stats.map reportOf =
      if (F.total c told.toFinset).occupied then some (F.total c told.toFinset) else none := by
  obtain ⟨hCount, hOccupied, -, -⟩ := foldl_addMetric (F.metricsOf c told) .empty
  have hSum : ∑ j ∈ told.toFinset, F.subscribers c j = (told.map (F.subscribers c)).sum :=
    List.sum_toFinset _ hOnce
  have hTotal : (F.total c told.toFinset).occupied =
      ((F.metricsOf c told).foldl Merged.addMetric .empty).occupied := by
    rw [hOccupied, any_occupied_metricsOf, ← hSum]
    exact (Bool.false_or _).symm
  have hMerged : ((F.metricsOf c told).foldl Merged.addMetric .empty).subscriptionCount =
      (F.total c told.toFinset).subscriptionCount := by
    rw [hCount, sum_metricsOf, ← hSum]
    exact Nat.zero_add _
  rw [Merged.stats, hTotal]
  split
  · rename_i hSome
    rw [Option.map_some, reportOf, F.userCount_metricsOf (hTotal ▸ hSome), hMerged, ← hTotal]
  · rfl

omit [DecidableEq ι] in
theorem metrics_heard {filter : Option String} (info : Option String)
    (hPasses : passes filter c = true) (told : List ι) :
    (((F.answers ⟨filter, info, false⟩ told).flatMap fun answer => answer.2.1).filter
      fun m => m.name = c) = F.metricsOf c told := by
  rw [answers, List.flatMap_map, List.filter_flatMap, metricsOf]
  refine congrArg (fun tell => told.flatMap tell) (funext fun j => ?_)
  exact filter_metricsFor (F.named j) (F.nows j) app info hPasses

omit [DecidableEq ι] in
theorem heard_answers (expected : Nat) (query : MetricsQuery) (order : List ι) :
    waitedFor expected (F.answers query order) =
      F.answers query (waitedFor expected order) := by
  rw [waitedFor, waitedFor]
  split
  · rfl
  · exact (List.map_take ..).symm

def asked (i : ι) (order : List ι) : List ι :=
  Node.waitedFor ((F.nodes i).dispatcher.livePeerCount (F.nows i)) order

omit [DecidableEq ι] in
theorem remote_metrics {i : ι} {order : List ι} (hOrder : Order i order) (query : MetricsQuery) :
    ((F.nodes i).askFleetForChannels (F.nows i) (F.answers query order)).getD [] =
      (F.answers query (F.asked i order)).flatMap fun answer => answer.2.1 := by
  cases hScaling : (F.nodes i).dispatcher.scalingEnabled with
  | true =>
    have hOnce : ((F.answers query order).map Prod.fst).Nodup := by
      rw [answers, List.map_map]
      exact hOrder.once.map F.distinct
    rw [askFleetForChannels_eq hScaling (F.nows i) hOnce, Option.getD_some, heard_answers]
    rfl
  | false =>
    have hAlone : order = [] := by
      refine List.eq_nil_iff_forall_not_mem.mpr fun j hMem => ?_
      rw [F.scaling i j ((hOrder.others j).mp hMem).symm] at hScaling
      cases hScaling
    rw [hAlone, askFleetForChannels, fleetAnswer, hScaling, asked, waitedFor,
      List.take_nil, ite_self]
    rfl

theorem listed_eq {i : ι} {order : List ι} (hOrder : Order i order) {filter : Option String}
    (info : Option String) (hPasses : passes filter c = true) :
    ((listChannels (F.nodes i) (F.nows i) app filter
        (F.answers ⟨filter, info, false⟩ order)).lookup c).map reportOf =
      if (F.total c (insert i (F.asked i order).toFinset)).occupied then
        some (F.total c (insert i (F.asked i order).toFinset)) else none := by
  have hOnce : (i :: F.asked i order).Nodup := by
    have hSub : (F.asked i order).Sublist order := by
      rw [asked, waitedFor]
      split
      · exact List.Sublist.refl _
      · exact List.take_sublist ..
    refine List.nodup_cons.mpr ⟨fun hMem => ?_, hOrder.once.sublist hSub⟩
    exact (hOrder.others i).mp (hSub.subset hMem) rfl
  have hMetrics : F.metricsOf c (i :: F.asked i order) =
      (((F.nodes i).findChannel app.id c).map (channelMetric (F.nows i))).toList ++
        F.metricsOf c (F.asked i order) := List.flatMap_cons
  rw [lookup_listChannels, List.filter_append, remote_metrics F hOrder,
    metrics_heard F info hPasses, filter_metricsFor (F.named i) (F.nows i) app none hPasses,
    ← hMetrics, stats_metricsOf F hOnce, List.toFinset_cons]

variable [Fintype ι] {i j : ι} {order : List ι}

theorem sum_univ (i : ι) :
    ∑ j, F.subscribers c j = F.subscribers c i + ∑ j ∈ univ.erase i, F.subscribers c j :=
  (add_sum_erase _ _ (mem_univ i)).symm

theorem sum_counts (h : F.Propagated) (hKind : (fromName c).isPresence = false)
    (i : ι) : (F.nodes i).dispatcher.peerChannelCounts.sum (F.nows i) app.id c =
      ∑ j ∈ univ.erase i, F.subscribers c j := by
  have hSupport : ∀ n, n ∉ (univ.erase i).image F.nodeId →
      (F.nodes i).dispatcher.peerChannelCounts.liveCount (F.nows i) app.id c n = 0 := by
    refine fun n hMem => h.noOther i c hKind n fun j hj hSame => hMem ?_
    exact mem_image.mpr ⟨j, mem_erase.mpr ⟨hj, mem_univ j⟩, hSame⟩
  have hDistinct : Set.InjOn F.nodeId (univ.erase i) := fun j _ k _ hSame =>
    F.distinct hSame
  rw [PeerChannelCounts.sum_eq_of_support _ _ _ _ hSupport, sum_image hDistinct]
  exact sum_congr rfl fun j hj => h.counts i c hKind j (ne_of_mem_erase hj)

theorem channelInfo_of_not_presence (h : F.Propagated)
    (hKind : (fromName c).isPresence = false) (i : ι) :
    reportOf (fleetChannelStats (F.nodes i) (F.nows i) app c) = F.actual c := by
  have hLocal : ((F.nodes i).membersAt app.id c).entries.length = F.subscribers c i := rfl
  have hOccupied : (decide (F.subscribers c i > 0) ||
      decide (∑ j ∈ univ.erase i, F.subscribers c j > 0)) =
      decide (0 < ∑ j, F.subscribers c j) := by
    rw [F.sum_univ i, Bool.eq_iff_iff, Bool.or_eq_true, decide_eq_true_eq, decide_eq_true_eq,
      decide_eq_true_eq]
    omega
  rw [reportOf_fleetChannelStats, if_neg (by rw [hKind]; exact Bool.false_ne_true), hLocal,
    F.sum_counts h hKind i, hOccupied, ← F.sum_univ i, actual, total, hKind]
  rfl

theorem channelInfo_of_presence (h : F.Propagated)
    (hKind : (fromName c).isPresence = true) (i : ι) :
    reportOf (fleetChannelStats (F.nodes i) (F.nows i) app c) =
      ⟨(F.actual c).occupied, F.subscribers c i, (F.actual c).userCount⟩ := by
  have hLocal : ((F.nodes i).membersAt app.id c).entries.length = F.subscribers c i := rfl
  have hRemote (u : String) :
      u ∈ ((F.nodes i).presenceCache.remoteMembersFor (F.nows i) app.id c).map
        userId ↔ ∃ j, j ≠ i ∧ u ∈ F.users c j := by
    rw [mem_remoteMembersFor]
    simp only [h.rosters i c hKind]
    exact ⟨fun ⟨_, j, hj, _, hu⟩ => ⟨j, hj, hu⟩, fun ⟨j, hj, hu⟩ => ⟨_, j, hj, rfl, hu⟩⟩
  have hUsers : ((((F.nodes i).membersAt app.id c).entries.filterMap fun e => e.2.user) ++
      ((F.nodes i).presenceCache.remoteMembersFor (F.nows i) app.id c).map userId).dedup.length =
      (univ.biUnion (F.users c)).card := by
    rw [← List.card_toFinset]
    congr 1
    ext u
    rw [List.mem_toFinset, List.mem_append, hRemote, mem_biUnion, ← List.mem_toFinset]
    constructor
    · rintro (hu | ⟨j, -, hu⟩)
      · exact ⟨i, mem_univ i, hu⟩
      · exact ⟨j, mem_univ j, hu⟩
    · rintro ⟨j, -, hu⟩
      by_cases hj : j = i
      · exact .inl (hj ▸ hu)
      · exact .inr ⟨j, hj, hu⟩
  have hOccupied : (decide (F.subscribers c i > 0) ||
      !((F.nodes i).presenceCache.remoteMembersFor (F.nows i) app.id c).isEmpty) =
      decide (0 < ∑ j, F.subscribers c j) := by
    have hPeers : (¬ ∀ n u, ¬ (F.nodes i).presenceCache.ListsLive (F.nows i) app.id c n u) ↔
        0 < ∑ j ∈ univ.erase i, F.subscribers c j := by
      simp only [h.rosters i c hKind, not_forall, not_not, sum_pos_iff]
      constructor
      · rintro ⟨n, u, j, hj, -, hu⟩
        refine ⟨j, mem_erase.mpr ⟨hj, mem_univ j⟩, Nat.pos_of_ne_zero fun hZero => ?_⟩
        rw [F.users_eq_empty hZero] at hu
        cases hu
      · rintro ⟨j, hj, hSome⟩
        obtain ⟨u, hu⟩ := F.exists_user hKind hSome
        exact ⟨_, u, j, ne_of_mem_erase hj, rfl, hu⟩
    rw [F.sum_univ i, Bool.eq_iff_iff, Bool.or_eq_true, decide_eq_true_eq, decide_eq_true_eq,
      Bool.not_eq_true', ← Bool.not_eq_true, List.isEmpty_iff,
      remoteMembersFor_eq_nil, hPeers]
    omega
  rw [reportOf_fleetChannelStats, if_pos hKind, hLocal, hUsers, hOccupied, actual, total,
    if_pos hKind]

theorem subscribers_eq_sum_iff (i : ι) :
    F.subscribers c i = ∑ j, F.subscribers c j ↔ ∀ j, j ≠ i → F.subscribers c j = 0 := by
  rw [F.sum_univ i, left_eq_add, sum_eq_zero_iff]
  exact forall_congr' fun j => by rw [mem_erase, and_iff_left (mem_univ j)]

theorem channelInfo_eq_actual_iff (h : F.Propagated) (i : ι) :
    reportOf (fleetChannelStats (F.nodes i) (F.nows i) app c) = F.actual c ↔
      (fromName c).isPresence = false ∨ ∀ j, j ≠ i → F.subscribers c j = 0 := by
  cases hKind : (fromName c).isPresence with
  | false => exact iff_of_true (F.channelInfo_of_not_presence h hKind i) (.inl rfl)
  | true =>
    rw [F.channelInfo_of_presence h hKind, or_iff_right Bool.noConfusion,
      ← F.subscribers_eq_sum_iff i]
    refine ⟨congrArg Report.subscriptionCount, fun hCount => ?_⟩
    rw [hCount]
    rfl

theorem total_eq_actual (h : ∀ j, j ≠ i → F.subscribers c j = 0) {nodes : Finset ι}
    (hMem : i ∈ nodes) : F.total c nodes = F.actual c := by
  have hSum : ∑ j ∈ nodes, F.subscribers c j = ∑ j, F.subscribers c j :=
    sum_subset (subset_univ _) fun j _ hj => h j fun hSame => hj (hSame ▸ hMem)
  have hUsers : nodes.biUnion (F.users c) = univ.biUnion (F.users c) := by
    ext u
    rw [mem_biUnion, mem_biUnion]
    refine ⟨fun ⟨j, _, hu⟩ => ⟨j, mem_univ j, hu⟩, fun ⟨j, _, hu⟩ => ?_⟩
    by_cases hj : j = i
    · exact ⟨i, hMem, hj ▸ hu⟩
    · rw [F.users_eq_empty (h j hj)] at hu
      cases hu
  rw [actual, total, total, hSum, hUsers]

theorem Order.toFinset_eq (h : Order i order) : order.toFinset = univ.erase i := by
  ext j
  rw [List.mem_toFinset, h.others, mem_erase]
  exact (and_iff_left (mem_univ j)).symm

theorem Order.length_eq (h : Order i order) : order.length + 1 = Fintype.card ι := by
  rw [← List.toFinset_card_of_nodup h.once, h.toFinset_eq, card_erase_add_one]
  · rfl
  · exact mem_univ i

/-- As many other nodes were heard of lately as there are, or none. -/
def AllHeard (i : ι) : Prop :=
  (F.nodes i).dispatcher.livePeerCount (F.nows i) = 0 ∨
    Fintype.card ι ≤ (F.nodes i).dispatcher.livePeerCount (F.nows i) + 1

theorem asked_of_allHeard (h : F.AllHeard i) (hOrder : Order i order) :
    F.asked i order = order := by
  have hLength := hOrder.length_eq
  rw [asked, waitedFor]
  split
  · rfl
  · rename_i hSome
    rcases h with hNone | hEnough
    · exact absurd hNone hSome
    · exact List.take_of_length_le (by omega)

theorem exists_order_last (hj : j ≠ i) : ∃ others, Order i (others ++ [j]) ∧ j ∉ others := by
  refine ⟨((univ.erase i).erase j).toList, ⟨?_, fun k => ?_⟩, ?_⟩
  · refine List.Nodup.append (nodup_toList _) (List.nodup_singleton j) fun k hk hLast => ?_
    rw [mem_toList] at hk
    exact ne_of_mem_erase hk (List.mem_singleton.mp hLast)
  · rw [List.mem_append, mem_toList, List.mem_singleton, mem_erase, mem_erase]
    by_cases hk : k = j
    · simp [hk, hj]
    · simp [hk]
  · rw [mem_toList]
    exact notMem_erase j _

theorem exists_order (i : ι) : ∃ order, Order i order :=
  ⟨(univ.erase i).toList, nodup_toList _, fun j => by simp⟩

theorem subscribers_of_listed (hj : j ∉ insert i (F.asked i order).toFinset)
    (h : (if (F.total c (insert i (F.asked i order).toFinset)).occupied then
        some (F.total c (insert i (F.asked i order).toFinset)) else none) =
      if (F.actual c).occupied then some (F.actual c) else none) : F.subscribers c j = 0 := by
  have hLe : F.subscribers c j + ∑ k ∈ insert i (F.asked i order).toFinset, F.subscribers c k ≤
      ∑ k, F.subscribers c k := by
    rw [← sum_insert hj]
    exact sum_le_sum_of_subset (subset_univ _)
  cases hActual : (F.actual c).occupied with
  | false =>
    have hNone : ¬ 0 < ∑ k, F.subscribers c k := of_decide_eq_false hActual
    omega
  | true =>
    rw [hActual, if_pos rfl] at h
    obtain ⟨-, hSame⟩ := Option.ite_none_right_eq_some.mp h
    have hSum : ∑ k ∈ insert i (F.asked i order).toFinset, F.subscribers c k =
        ∑ k, F.subscribers c k :=
      congrArg Report.subscriptionCount (Option.some.inj hSame)
    omega

theorem exists_order_missing (h : ¬ F.AllHeard i) (hj : j ≠ i) :
    ∃ order, Order i order ∧ j ∉ insert i (F.asked i order).toFinset := by
  obtain ⟨others, hOrder, hLast⟩ := exists_order_last hj
  have hLength := hOrder.length_eq
  rw [List.length_append, List.length_singleton] at hLength
  obtain ⟨hSome, hFew⟩ := not_or.mp h
  have hAsked : F.asked i (others ++ [j]) ⊆ others := by
    rw [asked, waitedFor, if_neg hSome, List.take_append_of_le_length (by omega)]
    exact List.take_subset ..
  refine ⟨others ++ [j], hOrder, fun hMem => ?_⟩
  rcases mem_insert.mp hMem with hSame | hIn
  · exact hj hSame
  · exact hLast (hAsked (List.mem_toFinset.mp hIn))

end

end Fleet

/-- In a fleet where all changes have come through, a node gives the statistics of the
fleet, in whatever order the others answer, exactly when no other node has subscribers of
the channel, or the channel is not a presence channel and no answer is left out. -/
theorem fleet_stats_agree_iff [DecidableEq ι] [Fintype ι] (F : Fleet ι app) (h : F.Propagated)
    (i : ι) (c : String) (filter info : Option String) (hPasses : Node.passes filter c = true) :
    (∀ order, Fleet.Order i order → F.Agrees i c filter info order) ↔
      (∀ j, j ≠ i → F.subscribers c j = 0) ∨
        (ChannelKind.fromName c).isPresence = false ∧ F.AllHeard i := by
  constructor
  · intro hAgrees
    obtain ⟨order, hOrder⟩ := Fleet.exists_order i
    rcases (F.channelInfo_eq_actual_iff h i).mp (hAgrees order hOrder).channelInfo with
      hKind | hAlone
    · by_cases hHeard : F.AllHeard i
      · exact .inr ⟨hKind, hHeard⟩
      · refine .inl fun j hj => ?_
        obtain ⟨order, hOrder, hMissing⟩ := F.exists_order_missing hHeard hj
        exact F.subscribers_of_listed hMissing
          ((F.listed_eq hOrder info hPasses).symm.trans (hAgrees order hOrder).listed)
    · exact .inl hAlone
  · intro hCondition order hOrder
    have hTotal : F.total c (insert i (F.asked i order).toFinset) = F.actual c := by
      rcases hCondition with hAlone | ⟨-, hHeard⟩
      · exact F.total_eq_actual hAlone (Finset.mem_insert_self ..)
      · rw [F.asked_of_allHeard hHeard hOrder, hOrder.toFinset_eq,
          Finset.insert_erase (Finset.mem_univ i)]
        rfl
    have hInfo : reportOf (fleetChannelStats (F.nodes i) (F.nows i) app c) = F.actual c :=
      (F.channelInfo_eq_actual_iff h i).mpr (hCondition.symm.imp_left And.left)
    refine ⟨?_, hInfo, fun prims moments payload => ?_⟩
    · rw [F.listed_eq hOrder info hPasses, hTotal]
    · rw [dispatchEvent, reportOf_of_sameView (sameView_dispatchChannels ..), hInfo]

/-! ## A fleet of three -/

def exampleRoom : Channel :=
  ((Channel.withCacheTtl "room" none).subscribe "1.1" none).2

def examplePresenceRoom : Channel :=
  ((Channel.withCacheTtl "presence-room" none).subscribe "1.2" (some ⟨"u", none⟩)).2

def busyNode : Node :=
  (Node.new "n1" true exampleTable).setApp exampleApp.id
    ((AppChannels.empty.setChannel "room" exampleRoom).setChannel "presence-room"
      examplePresenceRoom)

def idleNode (nodeId : String) : Node :=
  let node := Node.new nodeId true exampleTable
  { node with
    dispatcher := { node.dispatcher with
      presenceCache :=
        (PresenceCache.new.addLive 0 exampleApp.id "presence-room" "n1" "u" none).2
      peerChannelCounts := PeerChannelCounts.new.set 0 exampleApp.id "room" "n1" 1
      peersSeen := (∅ : Map String Instant).insert "n1" 0 } }

theorem findChannel_busyNode (a c : String) : busyNode.findChannel a c = if a = exampleApp.id then
        if c = "presence-room" then some examplePresenceRoom
        else if c = "room" then some exampleRoom else none else none := by
  rw [busyNode, findChannel, setApp]
  dsimp only
  rw [Function.update_apply]
  split
  · rw [AppChannels.findChannel_setChannel, AppChannels.findChannel_setChannel]
    rfl
  · rfl

theorem wellFormed_busyNode : busyNode.WellFormed := by
  have hNew (nodeId : String) : (new nodeId true exampleTable).WellFormed :=
    fun _ => ⟨by rintro _ _ ⟨⟩, by rintro _ _ ⟨⟩⟩
  refine (hNew "n1").setApp (AppChannels.WellFormed.setChannel ?_ ?_ rfl) exampleApp.id
  · refine AppChannels.WellFormed.setChannel (hNew "n1" exampleApp.id) ?_ rfl
    exact (Channel.withCacheTtl_exact "room" none).subscribe "1.1" rfl
  · exact (Channel.withCacheTtl_exact "presence-room" none).subscribe "1.2" rfl

inductive ExampleId where
  | first
  | busy
  | last
deriving DecidableEq

instance : Fintype ExampleId := ⟨{.first, .busy, .last}, fun i => by cases i <;> decide⟩

def exampleNodes : ExampleId → Node
  | .first => idleNode "n0"
  | .busy => busyNode
  | .last => idleNode "n2"

def exampleFleet : Fleet ExampleId exampleApp where
  nodes := exampleNodes
  nows _ := 0
  distinct i j hSame := by cases i <;> cases j <;> first | rfl | exact absurd hSame (by decide)
  scaling i _ _ := by cases i <;> rfl
  wellFormed i := by
    cases i with
    | busy => exact wellFormed_busyNode
    | _ => exact fun _ => ⟨by rintro _ _ ⟨⟩, by rintro _ _ ⟨⟩⟩
  named i := by
    cases i with
    | busy =>
      have hRoom : AppChannels.Keeps .all exampleApp.id .empty
          (AppChannels.empty.setChannel "room" exampleRoom) :=
        AppChannels.keeps_setChannel _ (fun _ _ => .inr trivial) (fun _ => .inl trivial) (.inl rfl)
      have hBoth := hRoom.trans (AppChannels.keeps_setChannel _ (fun _ _ => .inr trivial)
        (fun _ => .inl trivial) (.inl (rfl : examplePresenceRoom.label = _)))
      exact (Within.of_slot hBoth).namesByKey (by rintro _ _ _ ⟨⟩)
    | _ => rintro _ _ _ ⟨⟩

variable (nodeId c n u : String) (j : ExampleId)

theorem membersAt_busyNode : busyNode.membersAt exampleApp.id c =
      if c = "presence-room" then examplePresenceRoom.members
      else if c = "room" then exampleRoom.members else ∅ := by
  rw [membersAt, findChannel_busyNode, if_pos rfl]
  split_ifs <;> rfl

theorem users_exampleFleet :
    u ∈ exampleFleet.users c j ↔ j = .busy ∧ c = "presence-room" ∧ u = "u" := by
  cases j with
  | busy =>
    change u ∈ ((busyNode.membersAt exampleApp.id c).entries.filterMap _).toFinset ↔ _
    rw [membersAt_busyNode]
    split_ifs with hPresence hRoom
    · change u ∈ ["u"].toFinset ↔ _
      simp [hPresence]
    · change u ∈ [].toFinset ↔ _
      simp [hPresence]
    · change u ∈ [].toFinset ↔ _
      simp [hPresence]
  | _ =>
    change u ∈ [].toFinset ↔ _
    simp

theorem subscribers_exampleFleet : exampleFleet.subscribers c j =
      if j = .busy ∧ (c = "presence-room" ∨ c = "room") then 1 else 0 := by
  cases j with
  | busy =>
    change (busyNode.membersAt exampleApp.id c).entries.length = _
    rw [membersAt_busyNode]
    split_ifs with hPresence hRoom <;> simp_all
    all_goals rfl
  | _ => rfl

theorem listsLive_idleNode : (idleNode nodeId).presenceCache.ListsLive 0 exampleApp.id c n u ↔
      c = "presence-room" ∧ n = "n1" ∧ u = "u" := by
  change (∃ peer, (PresenceCache.new.addLive 0 exampleApp.id "presence-room" "n1" "u" none).2.roster
    exampleApp.id c n = some peer ∧ _) ↔ _
  simp only [roster_addLive]
  split_ifs with hSame
  · constructor
    · rintro ⟨peer, hPeer, -, hUser⟩
      cases hPeer
      exact ⟨hSame.2.1, hSame.2.2, List.mem_singleton.mp hUser⟩
    · rintro ⟨-, -, rfl⟩
      exact ⟨_, rfl, rfl, List.mem_singleton.mpr rfl⟩
  · refine iff_of_false ?_ fun h => hSame ⟨trivial, h.1, h.2.1⟩
    rintro ⟨peer, hPeer, -⟩
    cases hPeer

theorem liveCount_idleNode :
    (idleNode nodeId).dispatcher.peerChannelCounts.liveCount 0 exampleApp.id c n =
      if c = "room" ∧ n = "n1" then 1 else 0 := by
  have hEntry : (idleNode nodeId).dispatcher.peerChannelCounts.entry exampleApp.id c n =
      if c = "room" ∧ n = "n1" then some ⟨1, 0⟩ else none := by
    change (PeerChannelCounts.new.set 0 exampleApp.id "room" "n1" 1).entry exampleApp.id c n = _
    rw [PeerChannelCounts.entry, PeerChannelCounts.set, PeerChannelCounts.setEntry,
      PeerChannelCounts.nodesOf_insert]
    split_ifs with hChannel hSame hSame
    · rw [hSame.2, AList.lookup_insert]
    · rw [lookup_insert_if, if_neg fun hn => hSame ⟨hChannel.2, hn⟩]
      rfl
    · exact absurd ⟨rfl, hSame.1⟩ hChannel
    · rfl
  rw [PeerChannelCounts.liveCount, hEntry]
  split_ifs <;> rfl

theorem propagated_exampleFleet : exampleFleet.Propagated := by
  refine ⟨fun i c _ n u => ?_, fun i c hKind j hj => ?_, fun i c hKind n hn => ?_⟩
  · simp only [users_exampleFleet]
    cases i with
    | busy =>
      refine iff_of_false ?_ fun ⟨j, hj, _, hBusy, _⟩ => hj hBusy
      rintro ⟨peer, hPeer, -⟩
      cases hPeer
    | _ =>
      refine (listsLive_idleNode _ c n u).trans ⟨?_, ?_⟩
      · rintro ⟨hc, rfl, hu⟩
        exact ⟨.busy, by rintro ⟨⟩, rfl, rfl, hc, hu⟩
      · rintro ⟨j, -, rfl, rfl, hc, hu⟩
        exact ⟨hc, rfl, hu⟩
  · rw [subscribers_exampleFleet]
    cases i with
    | busy =>
      rw [if_neg fun h => hj h.1]
      rfl
    | _ =>
      have hOther : c ≠ "presence-room" := by
        rintro rfl
        exact absurd hKind (by decide)
      have hId : exampleFleet.nodeId j = "n1" ↔ j = .busy := by cases j <;> decide
      refine (liveCount_idleNode _ c _).trans (if_congr ?_ rfl rfl)
      rw [hId, or_iff_right hOther, and_comm]
  · cases i with
    | busy => rfl
    | _ =>
      refine (liveCount_idleNode _ c n).trans (if_neg fun h => ?_)
      exact hn .busy (by rintro ⟨⟩) h.2.symm

theorem fleet_stats_agree_busyNode :
    exampleFleet.Propagated ∧ Fleet.Order ExampleId.busy [.first, .last] ∧
      exampleFleet.Agrees .busy "presence-room" none none [.first, .last] := by
  have hOrder : Fleet.Order ExampleId.busy [.first, .last] :=
    ⟨by decide, fun j => by cases j <;> decide⟩
  refine ⟨propagated_exampleFleet, hOrder, (fleet_stats_agree_iff exampleFleet
    propagated_exampleFleet .busy "presence-room" none none rfl).mpr (.inl fun j hj => ?_) _ hOrder⟩
  rw [subscribers_exampleFleet, if_neg fun h => hj h.1]

/-- Asked for the presence channel, the first node counts its own subscribers only. Of the
other channel it lists nothing when the last node, which it does not know of yet, answers
first. -/
theorem statistics_differ : exampleFleet.Propagated ∧
      reportOf (fleetChannelStats (exampleFleet.nodes .first) 0 exampleApp "presence-room") =
        ⟨true, 0, some 1⟩ ∧ exampleFleet.actual "presence-room" = ⟨true, 1, some 1⟩ ∧
      Fleet.Order ExampleId.first [.last, .busy] ∧
      (listChannels (exampleFleet.nodes .first) 0 exampleApp none
        (exampleFleet.answers ⟨none, none, false⟩ [.last, .busy])).lookup "room" = none ∧
      exampleFleet.actual "room" = ⟨true, 1, none⟩ := by
  refine ⟨propagated_exampleFleet, by decide, by decide, ⟨by decide, fun j => ?_⟩, by rfl,
    by decide⟩
  cases j <;> decide

end FleetStats

end Zatat
