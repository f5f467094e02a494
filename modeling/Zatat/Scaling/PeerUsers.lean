import Zatat.Scaling.PeerCopies

/-! # The users some peer is stored with

A question about a user on other nodes skips the entries past their time to live. The
entries themselves stay until a sweep, and a message of their peer makes them count
again, so what is stored and what is answered are kept apart here.
-/

namespace Zatat

open Function FiniteMap

namespace PeerUserSessions

variable (sessions : PeerUserSessions) (now : Instant) (a n u : String) {exceptNode : Option String}

def listedExcluding (sessions : PeerUserSessions) (appId userId : String)
    (exceptNode : Option String) : Bool :=
  (sessions.nodesOf appId).entries.any fun e =>
    decide (exceptNode ≠ some e.1) && decide (userId ∈ e.2.users)

theorem listedExcluding_iff (exceptNode : Option String) :
    sessions.listedExcluding a u exceptNode = true ↔
      ∃ n, exceptNode ≠ some n ∧ u ∈ sessions.usersOf a n := by
  rw [listedExcluding, any_entries_iff]
  simp only [Bool.and_eq_true, decide_eq_true_eq, mem_usersOf]
  constructor
  · rintro ⟨n, e, hEntry, hNode, hUser⟩
    exact ⟨n, hNode, e, hEntry, hUser⟩
  · rintro ⟨n, hNode, e, hEntry, hUser⟩
    exact ⟨n, e, hEntry, hNode, hUser⟩

theorem isPresentExcluding_iff (exceptNode : Option String) :
    sessions.isPresentExcluding now a u exceptNode = true ↔
      ∃ n e, exceptNode ≠ some n ∧ sessions.entry a n = some e ∧ e.expired now = false ∧
        u ∈ e.users := by
  rw [isPresentExcluding, any_entries_iff]
  simp only [Bool.and_eq_true, decide_eq_true_eq, Bool.not_eq_true']
  constructor
  · rintro ⟨n, e, hEntry, ⟨hNode, hLive⟩, hUser⟩
    exact ⟨n, e, hNode, hEntry, hLive, hUser⟩
  · rintro ⟨n, e, hNode, hEntry, hLive, hUser⟩
    exact ⟨n, e, hEntry, ⟨hNode, hLive⟩, hUser⟩

theorem listed_of_present {sessions : PeerUserSessions} {now : Instant} {a u : String}
    (h : sessions.isPresentExcluding now a u exceptNode = true) :
    sessions.listedExcluding a u exceptNode = true := by
  obtain ⟨n, e, hNode, hEntry, -, hUser⟩ := (isPresentExcluding_iff ..).mp h
  exact (listedExcluding_iff ..).mpr ⟨n, hNode, (mem_usersOf ..).mpr ⟨e, hEntry, hUser⟩⟩

theorem listed_of_listedExcluding {sessions : PeerUserSessions} {a u : String}
    (h : sessions.listedExcluding a u exceptNode = true) :
    sessions.listedExcluding a u none = true := by
  obtain ⟨n, -, hUser⟩ := (listedExcluding_iff ..).mp h
  exact (listedExcluding_iff ..).mpr ⟨n, nofun, hUser⟩

/-! ## The entry of one peer and the entries of the others -/

def SameBut (a n : String) (sessions after : PeerUserSessions) : Prop :=
  ∀ m, m ≠ n → after.entry a m = sessions.entry a m

theorem SameBut.trans {a n : String} {sessions after later : PeerUserSessions}
    (h : SameBut a n sessions after) (h' : SameBut a n after later) : SameBut a n sessions later :=
  fun m hm => (h' m hm).trans (h m hm)

theorem sameBut_add : SameBut a n sessions (sessions.add now a n u) := by
  intro m hm
  rw [entry_add, if_neg fun h => hm h.2]

theorem sameBut_remove : SameBut a n sessions (sessions.remove now a n u) := by
  intro m hm
  rw [entry_remove, if_neg fun h => hm h.2]

theorem sameBut_touch : SameBut a n sessions (sessions.touch now a n) := by
  intro m hm
  rw [entry_touch, if_neg fun h => hm h.2]

theorem SameBut.usersOf {a n : String} {sessions after : PeerUserSessions}
    (h : SameBut a n sessions after) {m : String} (hm : m ≠ n) (u : String) :
    u ∈ after.usersOf a m ↔ u ∈ sessions.usersOf a m := by
  rw [mem_usersOf, mem_usersOf, h m hm]

theorem SameBut.listed {a n : String} {sessions after : PeerUserSessions}
    (h : SameBut a n sessions after) (u : String) :
    after.listedExcluding a u (some n) = sessions.listedExcluding a u (some n) := by
  rw [Bool.eq_iff_iff, listedExcluding_iff, listedExcluding_iff]
  refine exists_congr fun m => and_congr_right fun hm => h.usersOf (fun hEq => hm ?_) u
  rw [hEq]

theorem SameBut.present {a n : String} {sessions after : PeerUserSessions}
    (h : SameBut a n sessions after) (now : Instant) (u : String) :
    after.isPresentExcluding now a u (some n) = sessions.isPresentExcluding now a u (some n) := by
  rw [Bool.eq_iff_iff, isPresentExcluding_iff, isPresentExcluding_iff]
  refine exists_congr fun m => exists_congr fun e => and_congr_right fun hm => ?_
  rw [h m fun hEq => hm (congrArg some hEq.symm)]

theorem listed_none_iff : sessions.listedExcluding a u none = true ↔
      u ∈ sessions.usersOf a n ∨ sessions.listedExcluding a u (some n) = true := by
  rw [listedExcluding_iff, listedExcluding_iff]
  constructor
  · rintro ⟨m, -, hUser⟩
    by_cases hm : m = n
    · exact .inl (hm ▸ hUser)
    · exact .inr ⟨m, fun hEq => hm (Option.some.inj hEq).symm, hUser⟩
  · rintro (hUser | ⟨m, -, hUser⟩)
    · exact ⟨n, nofun, hUser⟩
    · exact ⟨m, nofun, hUser⟩

/-! ## What each operation does to the listed users -/

theorem listed_add : (fun v => (sessions.add now a n u).listedExcluding a v none) =
      update (fun v => sessions.listedExcluding a v none) u true := by
  funext v
  rw [update_apply, Bool.eq_iff_iff, listed_none_iff _ a n, mem_usersOf_add,
    (sameBut_add sessions now a n u).listed]
  split
  · rename_i hv
    simp [hv]
  · rename_i hv
    rw [listed_none_iff _ a n]
    simp [hv]

theorem listed_remove : (fun v => (sessions.remove now a n u).listedExcluding a v none) =
      update (fun v => sessions.listedExcluding a v none) u
        (sessions.listedExcluding a u (some n)) := by
  funext v
  rw [update_apply, Bool.eq_iff_iff, listed_none_iff _ a n, mem_usersOf_remove,
    (sameBut_remove sessions now a n u).listed]
  split
  · rename_i hv
    simp [hv]
  · rename_i hv
    rw [listed_none_iff _ a n]
    simp [hv]

theorem present_remove (later : Instant) (a n u : String) :
    (sessions.remove now a n u).isPresentExcluding later a u none =
      sessions.isPresentExcluding later a u (some n) := by
  rw [← (sameBut_remove sessions now a n u).present, Bool.eq_iff_iff, isPresentExcluding_iff,
    isPresentExcluding_iff]
  refine exists_congr fun m => exists_congr fun e => ?_
  constructor
  · rintro ⟨-, hEntry, hLive, hUser⟩
    refine ⟨fun hEq => ?_, hEntry, hLive, hUser⟩
    -- the peer's own entry has just lost the user
    have hIn : u ∈ (sessions.remove now a n u).usersOf a n :=
      (mem_usersOf ..).mpr ⟨e, Option.some.inj hEq ▸ hEntry, hUser⟩
    exact ((mem_usersOf_remove ..).mp hIn).1 rfl
  · rintro ⟨-, hEntry, hLive, hUser⟩
    exact ⟨nofun, hEntry, hLive, hUser⟩

theorem listed_touch :
    (sessions.touch now a n).listedExcluding a u none = sessions.listedExcluding a u none := by
  rw [Bool.eq_iff_iff, listed_none_iff _ a n, listed_none_iff _ a n, mem_usersOf_touch,
    (sameBut_touch sessions now a n).listed]

theorem listed_gcExpired : (sessions.gcExpired now).2.listedExcluding a u none =
      sessions.isPresentExcluding now a u none := by
  rw [listedExcluding, isPresentExcluding, entries_nodesOf_gcExpired, List.any_filter]
  congr 1

theorem exists_expired {sessions : PeerUserSessions} {now : Instant} {a u : String}
    (hListed : sessions.listedExcluding a u none = true)
    (hGone : sessions.isPresentExcluding now a u none = false) :
    ∃ n, ⟨a, n, u⟩ ∈ (sessions.gcExpired now).1 := by
  obtain ⟨n, -, hUser⟩ := (listedExcluding_iff ..).mp hListed
  obtain ⟨e, hEntry, hUser⟩ := (mem_usersOf ..).mp hUser
  have hExpired : e.expired now = true := by
    by_contra hLive
    rw [Bool.not_eq_true] at hLive
    exact Bool.eq_false_iff.mp hGone
      ((isPresentExcluding_iff ..).mpr ⟨n, e, nofun, hEntry, hLive, hUser⟩)
  refine ⟨n, ?_⟩
  rw [entry, nodesOf] at hEntry
  rw [gcExpired]
  cases hNodes : sessions.inner.lookup a with
  | none =>
    rw [hNodes] at hEntry
    cases hEntry
  | some nodes =>
    rw [hNodes, Option.getD_some] at hEntry
    refine List.mem_flatMap.mpr ⟨⟨a, nodes⟩, mem_entries_iff.mpr hNodes,
      List.mem_flatMap.mpr ⟨⟨n, e⟩, List.mem_filter.mpr ⟨mem_entries_iff.mpr hEntry, hExpired⟩,
        List.mem_map.mpr ⟨u, AList.mem_keys.mpr hUser, rfl⟩⟩⟩

end PeerUserSessions

end Zatat
