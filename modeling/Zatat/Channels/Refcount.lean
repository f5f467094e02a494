import Zatat.Channels.Channel
import Mathlib.Tactic.SplitIfs

/-! # Presence reference counts are exact

A presence channel counts the connections of each user. The counts agree with
the member map, no entry is zero, and so a user is reported as added or removed
exactly when the first connection joins or the last one leaves.
-/

namespace Zatat.Channel

open FiniteMap AList PresenceMember List

def connectionsOf (ch : Channel) (u : String) : Nat :=
  ch.members.entries.countP fun e => e.2.user = some u

def HasMember (ch : Channel) (u : String) : Prop :=
  ∃ s m, ch.members.lookup s = some m ∧ m.user = some u

/-- The counts are those of the member map, whether or not its members carry presence
data. -/
structure Counted (ch : Channel) : Prop where
  kind : ch.userRefcounts.isSome = ch.kind.isPresence
  refs : ∀ refs, ch.userRefcounts = some refs → ∀ u, (refs.lookup u).getD 0 = ch.connectionsOf u
  positive : ∀ refs, ch.userRefcounts = some refs → ∀ u n, refs.lookup u = some n → 0 < n

variable (name : String) (ttl : Option Duration) {ch : Channel} (presence : Option PresenceMember)
  {s u : String} {m : Member} {refs : Map String Nat}

/-- The counts are right, and the members carry presence data on presence channels only. -/
structure Exact (ch : Channel) : Prop extends ch.Counted where
  present : ∀ s m, ch.members.lookup s = some m → m.presence.isSome = ch.kind.isPresence

theorem connectionsOf_pos : 0 < ch.connectionsOf u ↔ ch.HasMember u := by
  rw [connectionsOf, countP_pos_iff]
  constructor
  · rintro ⟨e, hMem, hUser⟩
    exact ⟨e.1, e.2, mem_entries_iff.mp hMem, by simpa using hUser⟩
  · rintro ⟨s, m, hLookup, hUser⟩
    exact ⟨⟨s, m⟩, mem_entries_iff.mpr hLookup, by simpa using hUser⟩

instance (ch : Channel) (u : String) : Decidable (ch.HasMember u) :=
  decidable_of_iff _ connectionsOf_pos

theorem counted_of_none (hRefs : ch.userRefcounts = none) (hKind : ch.kind.isPresence = false) :
    ch.Counted := by
  refine ⟨by rw [hRefs, hKind, Option.isSome_none], fun refs hSome => ?_, fun refs hSome => ?_⟩
  · cases hRefs.symm.trans hSome
  · cases hRefs.symm.trans hSome

theorem counted_of_some (hRefs : ch.userRefcounts = some refs) (hKind : ch.kind.isPresence = true)
    (hLookup : ∀ u, (refs.lookup u).getD 0 = ch.connectionsOf u)
    (hPositive : ∀ u n, refs.lookup u = some n → 0 < n) : ch.Counted := by
  refine ⟨by rw [hRefs, hKind, Option.isSome_some], fun refs' hSome => ?_, fun refs' hSome => ?_⟩
  · cases hRefs.symm.trans hSome
    exact hLookup
  · cases hRefs.symm.trans hSome
    exact hPositive

theorem Counted.refs_some (h : ch.Counted) (hKind : ch.kind.isPresence = true) :
    ∃ refs, ch.userRefcounts = some refs :=
  Option.isSome_iff_exists.mp (h.kind.trans hKind)

theorem Exact.isPresence_of_hasMember (h : ch.Exact) {u : String} (hMember : ch.HasMember u) :
    ch.kind.isPresence = true := by
  obtain ⟨s, m, hLookup, hUser⟩ := hMember
  rw [← h.present s m hLookup]
  obtain ⟨pm, hPm, -⟩ := Option.map_eq_some_iff.mp hUser
  rw [hPm, Option.isSome_some]

theorem Exact.userRefcounts_none (h : ch.Exact) (hKind : ch.kind.isPresence = false) :
    ch.userRefcounts = none := by
  simpa [hKind] using h.kind

theorem Counted.mem_refs_iff (h : ch.Counted) (hRefs : ch.userRefcounts = some refs) (u : String) :
    u ∈ refs ↔ ch.HasMember u := by
  rw [← connectionsOf_pos, ← h.refs refs hRefs u, mem_iff_lookup]
  constructor
  · rintro ⟨n, hn⟩
    rw [hn]
    exact h.positive refs hRefs u n hn
  · intro hPos
    cases hLookup : refs.lookup u with
    | none => simp [hLookup] at hPos
    | some n => exact ⟨n, rfl⟩

theorem Exact.hasUserId_iff (h : ch.Exact) (u : String) :
    ch.hasUserId u = true ↔ ch.HasMember u := by
  cases hKind : ch.kind.isPresence with
  | false =>
    rw [hasUserId, h.userRefcounts_none hKind]
    refine ⟨fun hFalse => (by cases hFalse), fun hMember => ?_⟩
    rw [h.isPresence_of_hasMember hMember] at hKind
    cases hKind
  | true =>
    obtain ⟨refs, hRefs⟩ := h.refs_some hKind
    rw [hasUserId, hRefs, decide_eq_true_eq]
    exact h.mem_refs_iff hRefs u

theorem withCacheTtl_exact : (withCacheTtl name ttl).Exact where
  kind := by
    rw [withCacheTtl]
    split <;> simp_all
  refs refs hRefs u := by
    have hEmpty : refs = ∅ := by
      rw [withCacheTtl] at hRefs
      split at hRefs
      · exact (Option.some.inj hRefs).symm
      · cases hRefs
    rw [hEmpty]
    rfl
  positive refs hRefs u n hn := by
    have hEmpty : refs = ∅ := by
      rw [withCacheTtl] at hRefs
      split at hRefs
      · exact (Option.some.inj hRefs).symm
      · cases hRefs
    rw [hEmpty] at hn
    cases hn
  present s m hm := by cases hm

theorem hasMember_withCacheTtl (u : String) : ¬ (withCacheTtl name ttl).HasMember u := by
  rintro ⟨s, m, hLookup, _⟩
  cases hLookup

theorem isEmpty_iff_len : ch.isEmpty = true ↔ ch.len = 0 := by
  rw [isEmpty, List.isEmpty_iff, len, length_eq_zero_iff]

theorem not_hasMember_of_isEmpty (h : ch.isEmpty = true) (u : String) : ¬ ch.HasMember u := by
  rintro ⟨s, m, hLookup, -⟩
  have hMem : ⟨s, m⟩ ∈ ch.members.entries := mem_entries_iff.mpr hLookup
  rw [isEmpty_iff.mp h] at hMem
  cases hMem

theorem isEmpty_eq_false_of_mem (h : s ∈ ch.members) : ch.isEmpty = false := by
  obtain ⟨m, hLookup⟩ := mem_iff_lookup.mp h
  have hMem : ⟨s, m⟩ ∈ ch.members.entries := mem_entries_iff.mpr hLookup
  exact isEmpty_eq_false_iff.mpr (ne_nil_of_mem hMem)

theorem Exact.setCachedPayload (h : ch.Exact) (now : Instant) (payload : EventPayload) :
    (ch.setCachedPayload now payload).Exact := by
  rw [Channel.setCachedPayload]
  split
  · exact ⟨⟨h.kind, h.refs, h.positive⟩, h.present⟩
  · exact h

theorem setCachedPayload_members (ch : Channel) (now : Instant) (payload : EventPayload) :
    (ch.setCachedPayload now payload).members = ch.members := by
  rw [setCachedPayload]
  split <;> rfl

/-- What a channel is from its creation on. -/
def label (ch : Channel) : String × ChannelKind := (ch.name, ch.kind)

theorem setCachedPayload_label (ch : Channel) (now : Instant) (payload : EventPayload) :
    (ch.setCachedPayload now payload).label = ch.label := by
  rw [setCachedPayload]
  split <;> rfl

theorem setCachedPayload_kind (ch : Channel) (now : Instant) (payload : EventPayload) :
    (ch.setCachedPayload now payload).kind = ch.kind :=
  congrArg Prod.snd (setCachedPayload_label ..)

/-! ## Joining -/

theorem subscribe_of_mem (h : s ∈ ch.members) (presence : Option PresenceMember) :
    ch.subscribe s presence = (⟨false, false, ch.len⟩, ch) := by
  rw [subscribe, if_pos (by simpa [contains] using h)]

theorem subscribe_label (ch : Channel) (s : String) (presence : Option PresenceMember) :
    (ch.subscribe s presence).2.label = ch.label := by
  rw [subscribe]
  split
  · rfl
  · rfl

theorem subscribe_kind (ch : Channel) (s : String) (presence : Option PresenceMember) :
    (ch.subscribe s presence).2.kind = ch.kind :=
  congrArg Prod.snd (subscribe_label ..)

theorem subscribe_cache (ch : Channel) (s : String) (presence : Option PresenceMember) :
    (ch.subscribe s presence).2.cachedPayload = ch.cachedPayload ∧
      (ch.subscribe s presence).2.cacheTtl = ch.cacheTtl := by
  rw [subscribe]
  split <;> exact ⟨rfl, rfl⟩

theorem subscribe_members (h : s ∉ ch.members) (presence : Option PresenceMember) :
    (ch.subscribe s presence).2.members = ch.members.insert s ⟨presence⟩ := by
  rw [subscribe, if_neg (by simpa [contains] using h)]

theorem subscribe_wasNew (ch : Channel) (s : String) (presence : Option PresenceMember) :
    (ch.subscribe s presence).1.wasNew = true ↔ s ∉ ch.members := by
  rw [subscribe]
  split
  · rename_i h
    simpa [contains] using h
  · rename_i h
    simpa [contains] using h

theorem subscribe_memberCount (ch : Channel) (s : String) (presence : Option PresenceMember) :
    (ch.subscribe s presence).1.memberCount = (ch.subscribe s presence).2.len := by
  rw [subscribe]
  split <;> rfl

theorem subscribe_len (h : s ∉ ch.members) (presence : Option PresenceMember) :
    (ch.subscribe s presence).2.len = ch.len + 1 := by
  rw [len, subscribe_members h, entries_insert_of_notMem h, length_cons, len]

theorem subscribe_connectionsOf (h : s ∉ ch.members) (presence : Option PresenceMember)
    (u : String) : (ch.subscribe s presence).2.connectionsOf u =
      ch.connectionsOf u + if presence.map userId = some u then 1 else 0 := by
  rw [connectionsOf, subscribe_members h, entries_insert_of_notMem h, countP_cons, connectionsOf]
  simp [Member.user]

theorem subscribe_refs (h : s ∉ ch.members) (presence : Option PresenceMember) :
    (ch.subscribe s presence).2.userRefcounts = (joinRefs ch.userRefcounts presence).2 ∧
      (ch.subscribe s presence).1.userAdded = (joinRefs ch.userRefcounts presence).1 := by
  rw [subscribe, if_neg (by simpa [contains] using h)]
  exact ⟨rfl, rfl⟩

theorem joinRefs_lookup (refs : Map String Nat) (presence : Option PresenceMember) :
    ∃ refs', (joinRefs (some refs) presence).2 = some refs' ∧ ∀ u, refs'.lookup u =
      if presence.map userId = some u then some ((refs.lookup u).getD 0 + 1)
      else refs.lookup u := by
  cases presence with
  | none => exact ⟨refs, rfl, fun u => rfl⟩
  | some pm =>
    refine ⟨_, rfl, fun u => ?_⟩
    rw [incrementRef, lookup_insert_if, Option.map_some]
    by_cases hu : u = pm.userId
    · subst hu
      simp
    · simp [hu, Ne.symm hu]

theorem joinRefs_none : joinRefs none presence = (false, none) := by
  rw [joinRefs]
  rintro refs pm ⟨⟩

theorem Counted.subscribe (h : ch.Counted) (s : String) (presence : Option PresenceMember) :
    (ch.subscribe s presence).2.Counted := by
  by_cases hMem : s ∈ ch.members
  · rw [subscribe_of_mem hMem]
    exact h
  have hKind : (ch.subscribe s presence).2.kind.isPresence = ch.userRefcounts.isSome := by
    rw [subscribe_kind, h.kind]
  have hRefcounts := (subscribe_refs hMem presence).1
  cases hRefs : ch.userRefcounts with
  | none =>
    rw [hRefs] at hKind
    rw [hRefs, joinRefs_none] at hRefcounts
    exact counted_of_none hRefcounts hKind
  | some refs =>
    obtain ⟨refs', hJoined, hLookup⟩ := joinRefs_lookup refs presence
    rw [hRefs] at hKind
    rw [hRefs, hJoined] at hRefcounts
    refine counted_of_some hRefcounts hKind (fun u => ?_) fun u n hn => ?_
    · rw [subscribe_connectionsOf hMem, ← h.refs refs hRefs u, hLookup]
      split <;> rfl
    · rw [hLookup] at hn
      split at hn
      · cases hn
        exact Nat.succ_pos _
      · exact h.positive refs hRefs u n hn

theorem Exact.subscribe (h : ch.Exact) (s : String) {presence : Option PresenceMember}
    (hPresence : presence.isSome = ch.kind.isPresence) : (ch.subscribe s presence).2.Exact := by
  refine ⟨h.toCounted.subscribe s presence, fun t m hLookup => ?_⟩
  rw [subscribe_kind]
  by_cases hMem : s ∈ ch.members
  · rw [subscribe_of_mem hMem] at hLookup
    exact h.present t m hLookup
  · rw [subscribe_members hMem] at hLookup
    rcases lookup_insert_cases hLookup with ⟨-, rfl⟩ | ⟨-, hLookup⟩
    · exact hPresence
    · exact h.present t m hLookup

theorem Counted.subscribe_userAdded (h : ch.Counted) {s : String} (hNew : s ∉ ch.members)
    (hRefs : ch.userRefcounts = some refs) (pm : PresenceMember) :
    (ch.subscribe s (some pm)).1.userAdded = true ↔ ¬ ch.HasMember pm.userId := by
  rw [(subscribe_refs hNew _).2, hRefs, joinRefs, ← h.mem_refs_iff hRefs, incrementRef]
  cases hLookup : refs.lookup pm.userId with
  | none => simp [lookup_eq_none.mp hLookup]
  | some n =>
    have hPos := h.positive refs hRefs _ n hLookup
    have hMem : pm.userId ∈ refs := mem_iff_lookup.mpr ⟨n, hLookup⟩
    simp [hMem, Nat.ne_of_gt hPos]

theorem Exact.subscribe_userAdded (h : ch.Exact) {s : String} (hNew : s ∉ ch.members)
    {presence : Option PresenceMember} (hPresence : presence.isSome = ch.kind.isPresence)
    {u : String} (hUser : presence.map userId = some u) :
    (ch.subscribe s presence).1.userAdded = true ↔ ¬ ch.HasMember u := by
  obtain ⟨pm, rfl, rfl⟩ := Option.map_eq_some_iff.mp hUser
  obtain ⟨refs, hRefs⟩ := h.refs_some hPresence.symm
  exact h.toCounted.subscribe_userAdded hNew hRefs pm

theorem hasMember_subscribe (hNew : s ∉ ch.members) (presence : Option PresenceMember)
    (u : String) : (ch.subscribe s presence).2.HasMember u ↔
      presence.map userId = some u ∨ ch.HasMember u := by
  rw [← connectionsOf_pos, ← connectionsOf_pos, subscribe_connectionsOf hNew]
  split
  · rename_i hEq
    simp [hEq]
  · rename_i hNe
    simp [hNe]

/-! ## Leaving -/

theorem unsubscribe_of_lookup (h : ch.members.lookup s = some m) : ch.unsubscribe s =
      (⟨true, (leaveRefs ch.userRefcounts m.presence).1, (ch.members.erase s).entries.length,
          m.presence⟩,
        { ch with
          userRefcounts := (leaveRefs ch.userRefcounts m.presence).2
          members := ch.members.erase s }) := by
  rw [unsubscribe, h]
  rfl

theorem unsubscribe_of_notMem (h : ch.members.lookup s = none) :
    ch.unsubscribe s = (⟨false, none, ch.len, none⟩, ch) := by
  rw [unsubscribe, h]

theorem unsubscribe_label (ch : Channel) (s : String) :
    (ch.unsubscribe s).2.label = ch.label := by
  rw [unsubscribe]
  split <;> rfl

theorem unsubscribe_kind (ch : Channel) (s : String) : (ch.unsubscribe s).2.kind = ch.kind :=
  congrArg Prod.snd (unsubscribe_label ..)

theorem unsubscribe_cache (ch : Channel) (s : String) :
    (ch.unsubscribe s).2.cachedPayload = ch.cachedPayload ∧
      (ch.unsubscribe s).2.cacheTtl = ch.cacheTtl := by
  rw [unsubscribe]
  split <;> exact ⟨rfl, rfl⟩

theorem unsubscribe_members (ch : Channel) (s : String) :
    (ch.unsubscribe s).2.members = ch.members.erase s := by
  cases h : ch.members.lookup s with
  | none =>
    rw [unsubscribe_of_notMem h]
    apply ext
    exact (kerase_of_notMem_keys (lookup_eq_none.mp h)).symm
  | some m => rw [unsubscribe_of_lookup h]

theorem unsubscribe_wasMember (ch : Channel) (s : String) :
    (ch.unsubscribe s).1.wasMember = true ↔ s ∈ ch.members := by
  cases h : ch.members.lookup s with
  | none =>
    rw [unsubscribe_of_notMem h]
    simpa using lookup_eq_none.mp h
  | some m =>
    rw [unsubscribe_of_lookup h]
    simpa using mem_iff_lookup.mpr ⟨m, h⟩

theorem unsubscribe_memberCount (ch : Channel) (s : String) :
    (ch.unsubscribe s).1.memberCount = (ch.unsubscribe s).2.len := by
  rw [unsubscribe]
  split <;> rfl

theorem unsubscribe_connectionsOf (h : ch.members.lookup s = some m) (u : String) :
    ch.connectionsOf u =
      (ch.unsubscribe s).2.connectionsOf u + if m.user = some u then 1 else 0 := by
  rw [connectionsOf, (perm_cons_erase h).countP_eq, countP_cons, connectionsOf, unsubscribe_members]
  simp

theorem decrementRef_lookup {u : String} {n : Nat} (h : refs.lookup u = some n) (x : String) :
    (decrementRef refs u).2.lookup x =
      if x = u then (if n - 1 = 0 then none else some (n - 1)) else refs.lookup x := by
  rw [decrementRef, h]
  dsimp only
  split_ifs with hZero hx hx
  · rw [hx, lookup_erase]
  · exact lookup_erase_ne hx
  · rw [hx, lookup_insert]
  · exact lookup_insert_ne hx

theorem leaveRefs_lookup (refs : Map String Nat) (presence : Option PresenceMember) :
    ∃ refs', (leaveRefs (some refs) presence).2 = some refs' ∧ ∀ u, refs'.lookup u =
      if presence.map userId = some u then
        (refs.lookup u).bind fun n => if n - 1 = 0 then none else some (n - 1)
      else refs.lookup u := by
  cases presence with
  | none => exact ⟨refs, rfl, fun u => rfl⟩
  | some pm =>
    refine ⟨_, rfl, fun u => ?_⟩
    rw [Option.map_some]
    cases hLookup : refs.lookup pm.userId with
    | none =>
      rw [decrementRef, hLookup]
      dsimp only
      by_cases hu : u = pm.userId
      · rw [hu, if_pos rfl, hLookup, Option.bind_none]
      · rw [if_neg fun hEq => hu (Option.some.inj hEq).symm]
    | some n =>
      rw [decrementRef_lookup hLookup]
      by_cases hu : u = pm.userId
      · rw [hu, if_pos rfl, if_pos rfl, hLookup, Option.bind_some]
      · rw [if_neg hu, if_neg fun hEq => hu (Option.some.inj hEq).symm]

theorem leaveRefs_none : leaveRefs none presence = (none, none) := by
  rw [leaveRefs]
  rintro refs pm ⟨⟩

theorem unsubscribe_refs (h : ch.members.lookup s = some m) :
    (ch.unsubscribe s).2.userRefcounts = (leaveRefs ch.userRefcounts m.presence).2 ∧
      (ch.unsubscribe s).1.userRemoved = (leaveRefs ch.userRefcounts m.presence).1 := by
  rw [unsubscribe_of_lookup h]
  exact ⟨rfl, rfl⟩

theorem Counted.unsubscribe (h : ch.Counted) (s : String) : (ch.unsubscribe s).2.Counted := by
  cases hMember : ch.members.lookup s with
  | none =>
    rw [unsubscribe_of_notMem hMember]
    exact h
  | some m =>
    have hKind : (ch.unsubscribe s).2.kind.isPresence = ch.userRefcounts.isSome := by
      rw [unsubscribe_kind, h.kind]
    have hRefcounts := (unsubscribe_refs hMember).1
    cases hRefs : ch.userRefcounts with
    | none =>
      rw [hRefs] at hKind
      rw [hRefs, leaveRefs_none] at hRefcounts
      exact counted_of_none hRefcounts hKind
    | some refs =>
      obtain ⟨refs', hLeft, hLookup⟩ := leaveRefs_lookup refs m.presence
      rw [hRefs] at hKind
      rw [hRefs, hLeft] at hRefcounts
      refine counted_of_some hRefcounts hKind (fun u => ?_) fun u n hn => ?_
      · have hCount := unsubscribe_connectionsOf hMember u
        rw [← h.refs refs hRefs u] at hCount
        rw [hLookup]
        change _ = _ + if Option.map userId m.presence = some u then 1 else 0
          at hCount
        split at hCount
        · rename_i hUser
          rw [if_pos hUser]
          cases hn : refs.lookup u with
          | none =>
            rw [hn] at hCount
            cases hCount
          | some n =>
            rw [hn, Option.getD_some] at hCount
            rw [Option.bind_some]
            split_ifs with hZero
            · rw [Option.getD_none]
              omega
            · rw [Option.getD_some]
              omega
        · rename_i hUser
          rw [if_neg hUser, hCount, Nat.add_zero]
      · rw [hLookup] at hn
        split at hn
        · obtain ⟨k, -, hk⟩ := Option.bind_eq_some_iff.mp hn
          obtain ⟨hNonzero, hEq⟩ := Option.ite_none_left_eq_some.mp hk
          cases hEq
          exact Nat.pos_of_ne_zero hNonzero
        · exact h.positive refs hRefs u n hn

theorem Exact.unsubscribe (h : ch.Exact) (s : String) : (ch.unsubscribe s).2.Exact := by
  refine ⟨h.toCounted.unsubscribe s, fun t m hLookup => ?_⟩
  rw [unsubscribe_kind]
  rw [unsubscribe_members] at hLookup
  exact h.present t m (lookup_erase_some hLookup).2

theorem hasMember_unsubscribe_of_ne (h : ch.members.lookup s = some m) {u : String}
    (hu : m.user ≠ some u) : (ch.unsubscribe s).2.HasMember u ↔ ch.HasMember u := by
  rw [← connectionsOf_pos, ← connectionsOf_pos, unsubscribe_connectionsOf h, if_neg hu,
    Nat.add_zero]

theorem hasMember_of_unsubscribe (h : (ch.unsubscribe s).2.HasMember u) : ch.HasMember u := by
  obtain ⟨t, m, hLookup, hUser⟩ := h
  rw [unsubscribe_members] at hLookup
  exact ⟨t, m, (lookup_erase_some hLookup).2, hUser⟩

theorem Counted.unsubscribe_userRemoved (h : ch.Counted) (hRefs : ch.userRefcounts = some refs)
    (s u : String) : (ch.unsubscribe s).1.userRemoved = some u ↔
      ch.HasMember u ∧ ¬ (ch.unsubscribe s).2.HasMember u := by
  cases hLookup : ch.members.lookup s with
  | none =>
    rw [unsubscribe_of_notMem hLookup]
    simp
  | some m =>
    rw [(unsubscribe_refs hLookup).2, hRefs]
    by_cases hUser : m.user = some u
    · obtain ⟨pm, hPm, rfl⟩ := Option.map_eq_some_iff.mp hUser
      have hHas : ch.HasMember pm.userId := ⟨s, m, hLookup, hUser⟩
      have hCount := unsubscribe_connectionsOf hLookup pm.userId
      rw [if_pos hUser, ← h.refs refs hRefs] at hCount
      have hGone : (decrementRef refs pm.userId).1 = true ↔
          ¬ (ch.unsubscribe s).2.HasMember pm.userId := by
        rw [← connectionsOf_pos, decrementRef]
        cases hn : refs.lookup pm.userId with
        | none =>
          rw [hn, Option.getD_none] at hCount
          omega
        | some n =>
          rw [hn, Option.getD_some] at hCount
          dsimp only
          split_ifs with hZero
          · simp only [true_iff]
            omega
          · simp only [false_iff]
            omega
      rw [hPm, leaveRefs, ← hGone]
      cases (decrementRef refs pm.userId).1 <;> simp [hHas]
    · rw [hasMember_unsubscribe_of_ne hLookup hUser]
      refine ⟨fun hRemoved => ?_, fun hBoth => absurd hBoth.1 hBoth.2⟩
      cases hPm : m.presence with
      | none =>
        rw [hPm, leaveRefs] at hRemoved
        · cases hRemoved
        · rintro _ _ _ ⟨⟩
      | some pm =>
        rw [hPm, leaveRefs] at hRemoved
        split at hRemoved
        · exact absurd (by rw [Member.user, hPm, Option.map_some, Option.some.inj hRemoved]) hUser
        · cases hRemoved

theorem Exact.unsubscribe_userRemoved (h : ch.Exact) (s u : String) :
    (ch.unsubscribe s).1.userRemoved = some u ↔
      ch.HasMember u ∧ ¬ (ch.unsubscribe s).2.HasMember u := by
  cases hKind : ch.kind.isPresence with
  | false =>
    have hNoUser : (ch.unsubscribe s).1.userRemoved = none := by
      cases hLookup : ch.members.lookup s with
      | none => rw [unsubscribe_of_notMem hLookup]
      | some m => rw [(unsubscribe_refs hLookup).2, h.userRefcounts_none hKind, leaveRefs_none]
    rw [hNoUser]
    refine ⟨fun hSome => (by cases hSome), fun hBoth => ?_⟩
    rw [h.isPresence_of_hasMember hBoth.1] at hKind
    cases hKind
  | true =>
    obtain ⟨refs, hRefs⟩ := h.refs_some hKind
    exact h.toCounted.unsubscribe_userRemoved hRefs s u

/-! ## The roster of a channel -/

theorem Exact.mem_presenceSnapshot (h : ch.Exact) (hKind : ch.kind.isPresence = true) :
    ∃ data, ch.presenceSnapshot = some data ∧ ∀ u, u ∈ data.ids ↔ ch.HasMember u := by
  refine ⟨_, by rw [presenceSnapshot, if_pos hKind], fun u => ?_⟩
  rw [PresenceData.mem_fromMembers_ids]
  · constructor
    · rintro ⟨pm, hPm, hu⟩
      obtain ⟨e, hMem, hEq⟩ := mem_map.mp hPm
      exact ⟨e.1, e.2, mem_entries_iff.mp hMem, by rw [Member.user, hEq, Option.map_some, hu]⟩
    · rintro ⟨s, m, hLookup, hu⟩
      obtain ⟨pm, hPm, hEq⟩ := Option.map_eq_some_iff.mp hu
      exact ⟨pm, mem_map.mpr ⟨⟨s, m⟩, mem_entries_iff.mpr hLookup, hPm⟩, hEq⟩
  · intro p hp
    obtain ⟨e, hMem, rfl⟩ := mem_map.mp hp
    exact (h.present e.1 e.2 (mem_entries_iff.mp hMem)).trans hKind

end Zatat.Channel
