import Mathlib.Data.List.Dedup
import Zatat.Channels.Refcount
import Zatat.Lib.Alternation

/-! # The counts of a channel over whole runs

A presence channel under any sequence of joins and leaves: the same socket may
join again, under the same user or another, or without presence data, and a
socket that is no member may leave.
-/

namespace Zatat

open FiniteMap Alternation

inductive MembershipCall where
  | subscribe (socketId : String) (presence : Option PresenceMember)
  | unsubscribe (socketId : String)

namespace Channel

def perform (ch : Channel) : MembershipCall → Channel
  | .subscribe socketId presence => (ch.subscribe socketId presence).2
  | .unsubscribe socketId => (ch.unsubscribe socketId).2

def performAll (ch : Channel) (run : List MembershipCall) : Channel := run.foldl perform ch

/-- What the result of a call says about the user: added, removed or nothing. -/
def reportOf (ch : Channel) (u : String) : MembershipCall → List Bool
  | .subscribe socketId presence =>
    if (ch.subscribe socketId presence).1.userAdded = true ∧
      presence.map PresenceMember.userId = some u then [true] else []
  | .unsubscribe socketId =>
    if (ch.unsubscribe socketId).1.userRemoved = some u then [false] else []

def reports (u : String) : Channel → List MembershipCall → List Bool
  | _, [] => []
  | ch, call :: run => ch.reportOf u call ++ reports u (ch.perform call) run

def refcount (ch : Channel) (u : String) : Nat :=
  (ch.userRefcounts.bind fun refs => refs.lookup u).getD 0

def users (ch : Channel) : List String := (ch.members.entries.filterMap fun e => e.2.user).dedup

/-- The counters say what the member map says. -/
structure RefcountsAgree (ch : Channel) : Prop where
  counts : ∀ u, ch.refcount u = ch.connectionsOf u
  nonzero : ∀ refs u, ch.userRefcounts = some refs → refs.lookup u ≠ some 0
  userCount : ch.userCount = ch.users.length
  hasUserId : ∀ u, ch.hasUserId u = true ↔
    ∃ s m, ch.members.lookup s = some m ∧ m.user = some u

/-- What the results of the next call say is what happens. -/
structure ResultsTell (ch : Channel) : Prop where
  wasNew : ∀ s presence, (ch.subscribe s presence).1.wasNew = true ↔ s ∉ ch.members
  userAdded : ∀ s presence, (ch.subscribe s presence).1.userAdded = true ↔
    ∃ u, ch.refcount u = 0 ∧ (ch.subscribe s presence).2.refcount u = 1
  addedUser : ∀ s presence u, ch.refcount u = 0 → (ch.subscribe s presence).2.refcount u = 1 →
    presence.map PresenceMember.userId = some u
  userRemoved : ∀ s u, (ch.unsubscribe s).1.userRemoved = some u ↔
    ch.refcount u = 1 ∧ (ch.unsubscribe s).2.refcount u = 0
  resubscribe : ∀ s presence, s ∈ ch.members → (ch.subscribe s presence).2 = ch

variable {ch : Channel}

/-! ## One state -/

theorem refcount_eq {refs : Map String Nat} (h : ch.userRefcounts = some refs) (u : String) :
    ch.refcount u = (refs.lookup u).getD 0 := by
  rw [refcount, h, Option.bind_some]

theorem Counted.refcount_eq_connectionsOf (h : ch.Counted) (hKind : ch.kind.isPresence = true)
    (u : String) : ch.refcount u = ch.connectionsOf u := by
  obtain ⟨refs, hRefs⟩ := h.refs_some hKind
  rw [refcount_eq hRefs]
  exact h.refs refs hRefs u

theorem Counted.hasUserId_iff (h : ch.Counted) (hKind : ch.kind.isPresence = true) (u : String) :
    ch.hasUserId u = true ↔ ch.HasMember u := by
  obtain ⟨refs, hRefs⟩ := h.refs_some hKind
  rw [hasUserId, hRefs, decide_eq_true_eq]
  exact h.mem_refs_iff hRefs u

theorem mem_users {u : String} : u ∈ ch.users ↔ ch.HasMember u := by
  rw [users, List.mem_dedup, List.mem_filterMap]
  constructor
  · rintro ⟨e, hMem, hUser⟩
    exact ⟨e.1, e.2, mem_entries_iff.mp hMem, hUser⟩
  · rintro ⟨s, m, hLookup, hUser⟩
    exact ⟨⟨s, m⟩, mem_entries_iff.mpr hLookup, hUser⟩

theorem Counted.userCount_eq (h : ch.Counted) (hKind : ch.kind.isPresence = true) :
    ch.userCount = ch.users.length := by
  obtain ⟨refs, hRefs⟩ := h.refs_some hKind
  have hPerm : refs.keys.Perm ch.users := by
    apply (List.perm_ext_iff_of_nodup refs.keys_nodup (List.nodup_dedup _)).mpr
    intro u
    exact (AList.mem_keys.symm.trans (h.mem_refs_iff hRefs u)).trans mem_users.symm
  rw [userCount, hRefs, ← hPerm.length_eq]
  exact (List.length_map _).symm

theorem Counted.agree (h : ch.Counted) (hKind : ch.kind.isPresence = true) : ch.RefcountsAgree where
  counts := h.refcount_eq_connectionsOf hKind
  nonzero refs u hRefs hZero := Nat.lt_irrefl 0 (h.positive refs hRefs u 0 hZero)
  userCount := h.userCount_eq hKind
  hasUserId := h.hasUserId_iff hKind

/-! ## One call -/

theorem Counted.perform (h : ch.Counted) (call : MembershipCall) : (ch.perform call).Counted := by
  cases call with
  | subscribe socketId presence => exact h.subscribe socketId presence
  | unsubscribe socketId => exact h.unsubscribe socketId

theorem perform_kind (ch : Channel) (call : MembershipCall) : (ch.perform call).kind = ch.kind := by
  cases call with
  | subscribe socketId presence => exact subscribe_kind ch socketId presence
  | unsubscribe socketId => exact unsubscribe_kind ch socketId

theorem subscribe_userAdded_isSome {s : String} {presence : Option PresenceMember}
    (h : (ch.subscribe s presence).1.userAdded = true) :
    ∃ pm, presence = some pm ∧ s ∉ ch.members := by
  by_cases hMem : s ∈ ch.members
  · rw [subscribe_of_mem hMem] at h
    cases h
  · rw [(subscribe_refs hMem presence).2] at h
    cases presence with
    | none =>
      cases hRefs : ch.userRefcounts <;> rw [hRefs] at h <;> cases h
    | some pm => exact ⟨pm, rfl, hMem⟩

theorem Counted.resultsTell (h : ch.Counted) (hKind : ch.kind.isPresence = true) :
    ch.ResultsTell := by
  obtain ⟨refs, hRefs⟩ := h.refs_some hKind
  have hBefore := h.refcount_eq_connectionsOf hKind
  have hJoined (s : String) (presence : Option PresenceMember) (u : String) :
      (ch.subscribe s presence).2.refcount u = (ch.subscribe s presence).2.connectionsOf u :=
    (h.subscribe s presence).refcount_eq_connectionsOf ((subscribe_kind ..).symm ▸ hKind) u
  have hLeft (s u : String) :
      (ch.unsubscribe s).2.refcount u = (ch.unsubscribe s).2.connectionsOf u :=
    (h.unsubscribe s).refcount_eq_connectionsOf ((unsubscribe_kind ..).symm ▸ hKind) u
  -- a count can rise by a new socket of the user only
  have hRise (s : String) (presence : Option PresenceMember) (u : String)
      (hZero : ch.refcount u = 0) (hOne : (ch.subscribe s presence).2.refcount u = 1) :
      s ∉ ch.members ∧ presence.map PresenceMember.userId = some u := by
    have hNew : s ∉ ch.members := by
      intro hMem
      rw [subscribe_of_mem hMem] at hOne
      exact Nat.zero_ne_one (hZero.symm.trans hOne)
    refine ⟨hNew, ?_⟩
    rw [hJoined, subscribe_connectionsOf hNew, ← hBefore, hZero, Nat.zero_add] at hOne
    by_contra hOther
    rw [if_neg hOther] at hOne
    exact Nat.zero_ne_one hOne
  refine ⟨subscribe_wasNew ch, fun s presence => ?_, fun s presence u hZero hOne =>
    (hRise s presence u hZero hOne).2, fun s u => ?_, fun s presence hMem => ?_⟩
  · constructor
    · intro hAdded
      obtain ⟨pm, rfl, hNew⟩ := subscribe_userAdded_isSome hAdded
      have hNone := (h.subscribe_userAdded hNew hRefs pm).mp hAdded
      rw [← connectionsOf_pos, Nat.pos_iff_ne_zero, not_not] at hNone
      refine ⟨pm.userId, (hBefore _).trans hNone, ?_⟩
      rw [hJoined, subscribe_connectionsOf hNew, hNone, Option.map_some, if_pos rfl]
    · rintro ⟨u, hZero, hOne⟩
      obtain ⟨hNew, hUser⟩ := hRise s presence u hZero hOne
      obtain ⟨pm, rfl, rfl⟩ := Option.map_eq_some_iff.mp hUser
      rw [h.subscribe_userAdded hNew hRefs, ← connectionsOf_pos, ← hBefore, hZero]
      exact Nat.lt_irrefl 0
  · rw [h.unsubscribe_userRemoved hRefs, ← connectionsOf_pos, ← connectionsOf_pos, hBefore, hLeft]
    cases hLookup : ch.members.lookup s with
    | none =>
      rw [unsubscribe_of_notMem hLookup]
      dsimp only
      omega
    | some m =>
      have hCount := unsubscribe_connectionsOf hLookup u
      split at hCount <;> omega
  · rw [subscribe_of_mem hMem]

theorem Counted.reportOf_eq (h : ch.Counted) (hKind : ch.kind.isPresence = true) (u : String)
    (call : MembershipCall) :
    ch.reportOf u call = if (ch.perform call).hasUserId u = ch.hasUserId u then []
      else [(ch.perform call).hasUserId u] := by
  obtain ⟨refs, hRefs⟩ := h.refs_some hKind
  have hBefore := h.hasUserId_iff hKind u
  have hAfter := (h.perform call).hasUserId_iff ((perform_kind ..).symm ▸ hKind) u
  cases call with
  | subscribe s presence =>
    rw [Channel.perform] at hAfter ⊢
    rw [reportOf]
    by_cases hMem : s ∈ ch.members
    · rw [subscribe_of_mem hMem, if_pos rfl, if_neg fun hBoth => Bool.false_ne_true hBoth.1]
    · rw [hasMember_subscribe hMem] at hAfter
      by_cases hUser : presence.map PresenceMember.userId = some u
      · obtain ⟨pm, rfl, rfl⟩ := Option.map_eq_some_iff.mp hUser
        rw [hAfter.mpr (.inl rfl)]
        have hAdded := h.subscribe_userAdded hMem hRefs pm
        rw [← hBefore, Bool.not_eq_true] at hAdded
        simp only [hAdded, hUser, and_true]
        cases ch.hasUserId pm.userId <;> rfl
      · rw [or_iff_right hUser, ← hBefore] at hAfter
        rw [if_neg fun hBoth => hUser hBoth.2, if_pos (Bool.eq_iff_iff.mpr hAfter)]
  | unsubscribe s =>
    rw [Channel.perform] at hAfter ⊢
    rw [reportOf]
    have hRemoved := h.unsubscribe_userRemoved hRefs s u
    rw [← hBefore, ← hAfter] at hRemoved
    have hStill : (ch.unsubscribe s).2.hasUserId u = true → ch.hasUserId u = true := fun hHas =>
      hBefore.mpr (hasMember_of_unsubscribe (hAfter.mp hHas))
    simp only [hRemoved]
    revert hStill
    cases ch.hasUserId u <;> cases (ch.unsubscribe s).2.hasUserId u <;> simp

/-! ## Whole runs -/

theorem Counted.performAll (h : ch.Counted) (run : List MembershipCall) :
    (ch.performAll run).Counted := by
  induction run generalizing ch with
  | nil => exact h
  | cons call run ih => exact ih (h.perform call)

theorem performAll_kind (ch : Channel) (run : List MembershipCall) :
    (ch.performAll run).kind = ch.kind := by
  induction run generalizing ch with
  | nil => rfl
  | cons call run ih => exact (ih (ch.perform call)).trans (perform_kind ch call)

theorem Counted.alternates_reports (h : ch.Counted) (hKind : ch.kind.isPresence = true) (u : String)
    (run : List MembershipCall) : Alternates (ch.hasUserId u) (reports u ch run) := by
  induction run generalizing ch with
  | nil => exact alternates_nil _
  | cons call run ih =>
    have hRest := ih (h.perform call) ((perform_kind ch call).symm ▸ hKind)
    rw [reports, h.reportOf_eq hKind]
    split
    · rename_i hSame
      rw [← hSame]
      exact hRest
    · rename_i hChange
      exact List.IsChain.cons_cons (Ne.symm hChange) hRest

/-- The reference counts of a presence channel are exact after every run of joins and leaves. -/
theorem refcounts_exact (name : String) (ttl : Option Duration)
    (hKind : (ChannelKind.fromName name).isPresence = true) (run : List MembershipCall) :
    ((withCacheTtl name ttl).performAll run).RefcountsAgree ∧
      ((withCacheTtl name ttl).performAll run).ResultsTell ∧
      ∀ u, Alternates false (reports u (withCacheTtl name ttl) run) := by
  have hNew := (withCacheTtl_exact name ttl).toCounted
  have hKindAfter : ((withCacheTtl name ttl).performAll run).kind.isPresence = true := by
    rw [performAll_kind]
    exact hKind
  refine ⟨(hNew.performAll run).agree hKindAfter, (hNew.performAll run).resultsTell hKindAfter,
    fun u => ?_⟩
  have hAbsent : (withCacheTtl name ttl).hasUserId u = false := by
    rw [← Bool.not_eq_true, hNew.hasUserId_iff hKind]
    exact hasMember_withCacheTtl name ttl u
  rw [← hAbsent]
  exact hNew.alternates_reports hKind u run

theorem refcounts_exact_resubscribed :
    Alternates false (reports "u" (withCacheTtl "presence-room" none)
      [.subscribe "1.1" (some ⟨"u", none⟩), .subscribe "1.1" (some ⟨"v", none⟩),
        .subscribe "2.2" none, .unsubscribe "1.1", .unsubscribe "3.3"]) :=
  (refcounts_exact "presence-room" none (by decide) _).2.2 "u"

end Channel

end Zatat
