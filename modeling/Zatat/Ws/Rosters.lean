import Zatat.Ws.Handler

/-! # The roster sent to a joiner

A joiner is sent the members of its node together with those that the peers reported. The
roster is a function of the users and of the first information given for each of them: the
local members come first, then the peers' in their order.
-/

namespace Zatat

open PresenceData PresenceSnapshotMember

variable {data : PresenceData} (remote : List PresenceSnapshotMember)

theorem foldl_mergeMember (hash : SortedMap String Value) {ids : SortedMap String Unit}
    (h : ids.keys = hash.keys) : (remote.foldl mergeMember (hash, ids)).1 =
        hash.insertAll userId (fun m => m.userInfo.getD .null) remote ∧
      (remote.foldl mergeMember (hash, ids)).2.keys =
        (remote.foldl mergeMember (hash, ids)).1.keys := by
  induction remote generalizing hash ids with
  | nil => exact ⟨rfl, h⟩
  | cons m remote ih =>
    rw [List.foldl_cons, mergeMember]
    split
    · rename_i hSeen
      have hKeys : m.userId ∈ hash.keys := of_decide_eq_true hSeen
      obtain ⟨hHash, hIds⟩ := ih hash h
      refine ⟨hHash.trans ?_, hIds⟩
      rw [SortedMap.insertAll, SortedMap.insertAll, List.foldl_cons, hash.orInsert_of_mem hKeys]
    · refine ih _ (SortedMap.keys_eq_of_mem_iff fun u => ?_)
      rw [SortedMap.mem_keys_orInsert, SortedMap.mem_keys_orInsert, h]

theorem mergePresence_eq (h : data.ids = data.hash.keys) : mergePresence data remote = ofHash
      (data.hash.insertAll userId (fun m => m.userInfo.getD .null)
        remote) := by
  have hIds : (data.ids.foldl (fun ids u => ids.orInsert u ())
      (SortedMap.empty : SortedMap String Unit)).keys = data.hash.keys := by
    refine SortedMap.keys_eq_of_mem_iff fun u => ?_
    rw [← h]
    exact (SortedMap.mem_keys_insertAll id (fun _ => ()) ..).trans (by simp)
  obtain ⟨hHash, hKeys⟩ := foldl_mergeMember remote data.hash hIds
  rw [mergePresence, hKeys, hHash]
  rfl

theorem mem_mergePresence_ids (h : data.ids = data.hash.keys) (u : String) :
    u ∈ (mergePresence data remote).ids ↔
      u ∈ data.ids ∨ u ∈ remote.map userId := by
  rw [mergePresence_eq remote h, ofHash, SortedMap.mem_keys_insertAll, h, List.mem_map]

/-! ## Rosters and their merges -/

structure RosterOf (members : List PresenceMember) (data : PresenceData) : Prop where
  canonical : data.Canonical
  users : ∀ u, u ∈ data.ids ↔ ∃ m ∈ members, m.userId = u
  info : ∀ u, data.hash.lookup u =
    (members.find? fun m => m.userId = u).map fun m => m.userInfo.getD .null

/-- The union of the users, with what the roster says before what the peers say. -/
structure MergeOf (data : PresenceData) (remote : List PresenceSnapshotMember)
    (merged : PresenceData) : Prop where
  canonical : merged.Canonical
  users : ∀ u, u ∈ merged.ids ↔ u ∈ data.ids ∨ ∃ m ∈ remote, m.userId = u
  info : ∀ u, merged.hash.lookup u = (data.hash.lookup u).or
    ((remote.find? fun m => m.userId = u).map fun m => m.userInfo.getD .null)

theorem rosterOf_fromMembers (members : List PresenceMember) :
    RosterOf members (fromMembers (members.map some)) := by
  rw [fromMembers_map_some]
  refine ⟨canonical_ofHash _, fun u => ?_, fun u => ?_⟩
  · exact (SortedMap.mem_keys_insertAll ..).trans (by simp)
  · exact SortedMap.lookup_insertAll ..

theorem mergeOf_mergePresence (h : data.ids = data.hash.keys) :
    MergeOf data remote (mergePresence data remote) := by
  rw [mergePresence_eq remote h]
  refine ⟨canonical_ofHash _, fun u => ?_, fun u => ?_⟩
  · rw [h]
    exact SortedMap.mem_keys_insertAll ..
  · exact SortedMap.lookup_insertAll ..

theorem mergePresence_mergePresence (h : data.ids = data.hash.keys) :
    mergePresence (mergePresence data remote) remote = mergePresence data remote := by
  rw [mergePresence_eq remote h, mergePresence_eq remote rfl]
  exact congrArg ofHash (SortedMap.insertAll_insertAll ..)

/-- The order of the members decides only which information about a user is kept, and a merge
is a union in which the local side wins. -/
theorem rosters_canonical (members : List PresenceMember) :
    RosterOf members (fromMembers (members.map some)) ∧
    (∀ shuffled : List PresenceMember, members.Perm shuffled →
      (fromMembers (shuffled.map some)).ids = (fromMembers (members.map some)).ids ∧
        (fromMembers (shuffled.map some)).count = (fromMembers (members.map some)).count) ∧
    ∀ remote : List PresenceSnapshotMember,
      let merged := mergePresence (fromMembers (members.map some)) remote
      MergeOf (fromMembers (members.map some)) remote merged ∧
        mergePresence merged remote = merged := by
  have hRoster := rosterOf_fromMembers members
  refine ⟨hRoster, fun shuffled hPerm => ?_, fun remote => ?_⟩
  · have hShuffled := rosterOf_fromMembers shuffled
    have hIds : (fromMembers (shuffled.map some)).ids = (fromMembers (members.map some)).ids := by
      refine hShuffled.canonical.increasing.eq_of_mem_iff hRoster.canonical.increasing fun u => ?_
      rw [hShuffled.users, hRoster.users]
      simp only [hPerm.mem_iff]
    refine ⟨hIds, ?_⟩
    rw [hShuffled.canonical.count, hRoster.canonical.count, hIds]
  · have hKeys := hRoster.canonical.keys
    exact ⟨mergeOf_mergePresence remote hKeys, mergePresence_mergePresence remote hKeys⟩

theorem swapped_members_same_ids : (fromMembers ([⟨"a", none⟩, ⟨"b", none⟩].map some)).ids =
        (fromMembers ([⟨"b", none⟩, ⟨"a", none⟩].map some)).ids ∧
      (fromMembers ([⟨"b", none⟩, ⟨"a", none⟩].map some)).ids = ["a", "b"] :=
  ⟨((rosters_canonical [⟨"b", none⟩, ⟨"a", none⟩]).2.1 _ (.swap ..)).1, by decide⟩

end Zatat
