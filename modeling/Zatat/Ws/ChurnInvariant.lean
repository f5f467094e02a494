import Zatat.Ws.Churn

/-! # What holds of one channel between the steps

The members of a channel are all in the object the map refers to: an object out
of the map is empty. A leave that holds a lock may still have to announce what
it removed, and the state that receivers have seen is the real one together
with what that leave has not announced. `Objects` says this of the objects of a
channel and the leaves in progress on them, `Ledger` of the two histories as
well; there is one lemma for each thing a step can do.
-/

namespace Zatat.Churn

open Function Alternation Incarnations Channel

structure Objects (inc : Incarnations) (channel : String)
    (leaving : String → Option (Nat × UnsubscribeOutcome)) : Prop where
  exact : ∀ i, (inc.channelAt i).Exact
  kind : ∀ i, (inc.channelAt i).kind = ChannelKind.fromName channel
  detached : ∀ i, inc.current ≠ some i → (inc.channelAt i).isEmpty = true
  currentAllocated : ∀ i, inc.current = some i → i < inc.fresh
  allocated : ∀ i, inc.fresh ≤ i → inc.holderAt i = none
  holder : ∀ s i, inc.holderAt i = some s ↔ ∃ o, leaving s = some (i, o)
  count : ∀ s i o, leaving s = some (i, o) → o.wasMember = true →
    o.memberCount = (inc.channelAt i).len
  gone : ∀ s i o u, leaving s = some (i, o) → o.userRemoved = some u →
    o.wasMember = true ∧ (ChannelKind.fromName channel).isPresence = true ∧
      ¬ (inc.channelAt i).HasMember u
  single : ∀ s i o s' i' o', leaving s = some (i, o) → o.wasMember = true →
    leaving s' = some (i', o') → o'.wasMember = true → i = i'
  superseded : ∀ s i o j, leaving s = some (i, o) → o.wasMember = true →
    inc.current = some j → j ≠ i → (inc.channelAt j).isEmpty = true

structure Ledger (inc : Incarnations) (channel : String)
    (leaving : String → Option (Nat × UnsubscribeOutcome)) (messages : String → List Bool)
    (reports : List Bool) : Prop extends Objects inc channel leaving where
  messageState : ∀ u, Records (messages u)
    (inc.Present u ∨ ∃ s i o, leaving s = some (i, o) ∧ o.userRemoved = some u)
  reportState : Records reports
    (inc.Occupied ∨ ∃ s i o, leaving s = some (i, o) ∧ o.wasMember = true ∧ o.memberCount = 0)

/-! ## Objects and leaves of a step -/

theorem forall_setObject {inc : Incarnations} {P : Channel → Prop} {arc : Nat} {obj : ChannelObject}
    (h : ∀ i, P (inc.channelAt i)) (hNew : P obj.channel) (i : Nat) :
    P ((inc.setObject arc obj).channelAt i) := by
  rw [channelAt_setObject]
  split
  · exact hNew
  · exact h i

section

variable {leaving : String → Option (Nat × UnsubscribeOutcome)} {s : String} {arc : Nat}
  {o : UnsubscribeOutcome} {P : UnsubscribeOutcome → Prop} {s' : String} {i : Nat}
  {o' : UnsubscribeOutcome}

theorem began_iff (hIdle : leaving s = none) : update leaving s (some (arc, o)) s' = some (i, o') ↔
      (s' = s ∧ i = arc ∧ o' = o) ∨ leaving s' = some (i, o') := by
  by_cases hs : s' = s
  · rw [hs, update_self, hIdle, Option.some.injEq, Prod.mk.injEq]
    simp [eq_comm]
  · rw [update_of_ne hs]
    simp [hs]

theorem exists_began (hIdle : leaving s = none) :
    (∃ s' i o', update leaving s (some (arc, o)) s' = some (i, o') ∧ P o') ↔
      P o ∨ ∃ s' i o', leaving s' = some (i, o') ∧ P o' := by
  constructor
  · rintro ⟨s', i, o', hNew, hHas⟩
    rcases (began_iff hIdle).mp hNew with ⟨-, -, rfl⟩ | hOld
    · exact .inl hHas
    · exact .inr ⟨s', i, o', hOld, hHas⟩
  · rintro (hHas | ⟨s', i, o', hOld, hHas⟩)
    · exact ⟨s, arc, o, update_self .., hHas⟩
    · exact ⟨s', i, o', (began_iff hIdle).mpr (.inr hOld), hHas⟩

theorem ended_iff :
    update leaving s none s' = some (i, o') ↔ s' ≠ s ∧ leaving s' = some (i, o') := by
  by_cases hs : s' = s
  · rw [hs, update_self]
    simp
  · rw [update_of_ne hs]
    simp [hs]

theorem exists_ended (hLeaving : leaving s = some (arc, o)) :
    (∃ s' i o', leaving s' = some (i, o') ∧ P o') ↔
      P o ∨ ∃ s' i o', update leaving s none s' = some (i, o') ∧ P o' := by
  have hBegan := @exists_began _ s arc o P (update_self s none leaving)
  rwa [update_idem, ← hLeaving, update_eq_self] at hBegan

end

variable {inc : Incarnations} {channel : String}
  {leaving : String → Option (Nat × UnsubscribeOutcome)} {messages : String → List Bool}
  {reports : List Bool} {s s' : String} {i arc : Nat} {o : UnsubscribeOutcome}

theorem Ledger.new (channel : String) :
    Ledger (Incarnations.new channel) channel (fun _ => none) (fun _ => []) [] where
  exact _ := withCacheTtl_exact channel none
  kind _ := rfl
  detached _ _ := rfl
  currentAllocated i hi := by cases hi
  allocated _ _ := rfl
  holder s i := by
    constructor
    · intro h
      cases h
    · rintro ⟨o, h⟩
      cases h
  count s i o h := by cases h
  gone s i o u h := by cases h
  single s i o s' i' o' h := by cases h
  superseded s i o j h := by cases h
  messageState u := .nil (by rintro (⟨arc, hArc, -⟩ | ⟨s, i, o, h, -⟩) <;> contradiction)
  reportState := .nil (by rintro (⟨arc, hArc, -⟩ | ⟨s, i, o, h, -⟩) <;> contradiction)

namespace Objects

variable (h : Objects inc channel leaving)

include h

theorem ne_of_holder (hLeaving : leaving s = some (i, o)) (hFree : inc.holderAt arc = none) :
    i ≠ arc := by
  rintro rfl
  rw [(h.holder s i).mpr ⟨o, hLeaving⟩] at hFree
  cases hFree

theorem count_detached (hLeaving : leaving s = some (i, o)) (hMember : o.wasMember = true)
    (hCurrent : inc.current ≠ some i) : o.memberCount = 0 := by
  rw [h.count s i o hLeaving hMember]
  exact Channel.isEmpty_iff_len.mp (h.detached i hCurrent)

theorem current_of_member (hMember : s ∈ (inc.channelAt arc).members) : inc.current = some arc := by
  have hFull := isEmpty_eq_false_of_mem hMember
  by_contra hNe
  rw [h.detached arc hNe] at hFull
  cases hFull

theorem quiet_of_member (hFree : inc.holderAt arc = none)
    (hMember : s ∈ (inc.channelAt arc).members) (hLeaving : leaving s' = some (i, o)) :
    o.wasMember = false := by
  have hFull := isEmpty_eq_false_of_mem hMember
  by_contra hWas
  rw [Bool.not_eq_false] at hWas
  have hNe := h.ne_of_holder hLeaving hFree
  rw [h.superseded s' i o arc hLeaving hWas (h.current_of_member hMember) hNe.symm] at hFull
  cases hFull

theorem eq_of_unannounced {i' : Nat} {o' : UnsubscribeOutcome} (hLeaving : leaving s = some (i, o))
    (hMember : o.wasMember = true) (hLeaving' : leaving s' = some (i', o'))
    (hMember' : o'.wasMember = true) : s' = s := by
  have hArc := h.single s i o s' i' o' hLeaving hMember hLeaving' hMember'
  subst hArc
  have hHolder := (h.holder s i).mpr ⟨o, hLeaving⟩
  rw [(h.holder s' i).mpr ⟨o', hLeaving'⟩, Option.some.injEq] at hHolder
  exact hHolder

theorem not_present_of_unannounced {u : String} (hLeaving : leaving s = some (i, o))
    (hUser : o.userRemoved = some u) : ¬ inc.Present u := by
  obtain ⟨hMember, -, hGone⟩ := h.gone s i o u hLeaving hUser
  rintro ⟨j, hj, hHas⟩
  by_cases hi : j = i
  · exact hGone (hi ▸ hHas)
  · exact not_hasMember_of_isEmpty (h.superseded s i o j hLeaving hMember hj hi) u hHas

theorem not_occupied_of_unannounced (hLeaving : leaving s = some (i, o))
    (hMember : o.wasMember = true) (hZero : o.memberCount = 0) : ¬ inc.Occupied := by
  rintro ⟨j, hj, hFull⟩
  have hEmpty : (inc.channelAt j).isEmpty = true := by
    by_cases hi : j = i
    · rw [hi, isEmpty_iff_len, ← h.count s i o hLeaving hMember, hZero]
    · exact h.superseded s i o j hLeaving hMember hj hi
  rw [hEmpty] at hFull
  cases hFull

theorem present_unsubscribe (arc : Nat) (s u : String) : inc.Present u ↔
      (inc.setObject arc ⟨((inc.channelAt arc).unsubscribe s).2, some s⟩).Present u ∨
        ((inc.channelAt arc).unsubscribe s).1.userRemoved = some u := by
  have hRemoved := (h.exact arc).unsubscribe_userRemoved s u
  constructor
  · rintro ⟨i, hi, hHas⟩
    by_cases hArc : i = arc
    · subst hArc
      by_cases hStill : ((inc.channelAt i).unsubscribe s).2.HasMember u
      · exact .inl ⟨i, hi, by rwa [channelAt_setObject, if_pos rfl]⟩
      · exact .inr (hRemoved.mpr ⟨hHas, hStill⟩)
    · exact .inl ⟨i, hi, by rwa [channelAt_setObject, if_neg hArc]⟩
  · rintro (⟨i, hi, hHas⟩ | hUser)
    · rw [channelAt_setObject] at hHas
      split at hHas
      · rename_i hArc
        exact ⟨i, hi, hArc ▸ hasMember_of_unsubscribe hHas⟩
      · exact ⟨i, hi, hHas⟩
    · obtain ⟨hBefore, -⟩ := hRemoved.mp hUser
      obtain ⟨t, m, hLookup, -⟩ := id hBefore
      exact ⟨arc, h.current_of_member (FiniteMap.mem_iff_lookup.mpr ⟨m, hLookup⟩), hBefore⟩

theorem occupied_unsubscribe (arc : Nat) (s : String) : inc.Occupied ↔
      (inc.setObject arc ⟨((inc.channelAt arc).unsubscribe s).2, some s⟩).Occupied ∨
        (((inc.channelAt arc).unsubscribe s).1.wasMember = true ∧
          ((inc.channelAt arc).unsubscribe s).1.memberCount = 0) := by
  rw [unsubscribe_wasMember, unsubscribe_memberCount]
  by_cases hMember : s ∈ (inc.channelAt arc).members
  · have hCurrent := h.current_of_member hMember
    have hFull := isEmpty_eq_false_of_mem hMember
    refine ⟨fun _ => ?_, fun _ => ⟨arc, hCurrent, hFull⟩⟩
    cases hStill : ((inc.channelAt arc).unsubscribe s).2.isEmpty with
    | false => exact .inl ⟨arc, hCurrent, by rwa [channelAt_setObject, if_pos rfl]⟩
    | true => exact .inr ⟨hMember, Channel.isEmpty_iff_len.mp hStill⟩
  · have hSame (i : Nat) : (inc.setObject arc
        ⟨((inc.channelAt arc).unsubscribe s).2, some s⟩).channelAt i = inc.channelAt i := by
      rw [channelAt_setObject]
      split
      · rename_i hArc
        rw [hArc, unsubscribe_of_notMem (AList.lookup_eq_none.mpr hMember)]
      · rfl
    rw [or_iff_left fun hLast => hMember hLast.1, Occupied, Occupied]
    simp only [hSame, current_setObject]

theorem subscribe (hCurrent : inc.current = some arc) (hFree : inc.holderAt arc = none)
    (hQuiet : ∀ s i o, leaving s = some (i, o) → o.wasMember = false)
    {presence : Option PresenceMember}
    (hPresence : presence.isSome = (inc.channelAt arc).kind.isPresence) :
    Objects (inc.setObject arc ⟨((inc.channelAt arc).subscribe s presence).2, none⟩) channel
      leaving := by
  refine ⟨?_, ?_, ?_, h.currentAllocated, ?_, ?_, ?_, ?_, h.single, ?_⟩
  · exact forall_setObject h.exact ((h.exact arc).subscribe s hPresence)
  · exact forall_setObject (P := fun ch => ch.kind = _) h.kind
      ((subscribe_kind ..).trans (h.kind arc))
  · intro i hi
    rw [current_setObject] at hi
    rw [channelAt_setObject, if_neg (by rintro rfl; exact hi hCurrent)]
    exact h.detached i hi
  · intro i hi
    rw [holderAt_setObject]
    split
    · rfl
    · exact h.allocated i hi
  · intro s' i
    rw [holderAt_setObject, ← h.holder]
    split
    · rename_i hi
      rw [hi, hFree]
    · rfl
  · intro s' i o hLeaving hMember
    rw [hQuiet s' i o hLeaving] at hMember
    cases hMember
  · intro s' i o u hLeaving hUser
    rw [channelAt_setObject, if_neg (h.ne_of_holder hLeaving hFree)]
    exact h.gone s' i o u hLeaving hUser
  · intro s' i o j hLeaving hMember
    rw [hQuiet s' i o hLeaving] at hMember
    cases hMember

omit h in
theorem channelAt_released (inc : Incarnations) (arc i : Nat) :
    (inc.setObject arc ⟨inc.channelAt arc, none⟩).channelAt i = inc.channelAt i := by
  rw [channelAt_setObject]
  split
  · rename_i hi
    rw [hi]
  · rfl

theorem announce (hLeaving : leaving s = some (arc, o)) :
    Objects (inc.setObject arc ⟨inc.channelAt arc, none⟩) channel (update leaving s none) := by
  have hChannel := channelAt_released inc arc
  refine ⟨?_, ?_, ?_, h.currentAllocated, ?_, ?_, ?_, ?_, ?_, ?_⟩
  · intro i
    rw [hChannel]
    exact h.exact i
  · intro i
    rw [hChannel]
    exact h.kind i
  · intro i hi
    rw [hChannel]
    exact h.detached i hi
  · intro i hi
    rw [holderAt_setObject]
    split
    · rfl
    · exact h.allocated i hi
  · intro s' i
    rw [holderAt_setObject]
    constructor
    · intro hHolder
      split at hHolder
      · cases hHolder
      · rename_i hi
        obtain ⟨o', hLeaving'⟩ := (h.holder s' i).mp hHolder
        refine ⟨o', ended_iff.mpr ⟨?_, hLeaving'⟩⟩
        rintro rfl
        rw [hLeaving, Option.some.injEq, Prod.mk.injEq] at hLeaving'
        exact hi hLeaving'.1.symm
    · rintro ⟨o', hNew⟩
      obtain ⟨hs, hLeaving'⟩ := ended_iff.mp hNew
      have hHolder := (h.holder s' i).mpr ⟨o', hLeaving'⟩
      rw [if_neg]
      · exact hHolder
      · rintro rfl
        rw [(h.holder s i).mpr ⟨o, hLeaving⟩, Option.some.injEq] at hHolder
        exact hs hHolder.symm
  · intro s' i o' hNew hMember
    rw [hChannel]
    exact h.count s' i o' (ended_iff.mp hNew).2 hMember
  · intro s' i o' u hNew hUser
    rw [hChannel]
    exact h.gone s' i o' u (ended_iff.mp hNew).2 hUser
  · intro s₁ i₁ o₁ s₂ i₂ o₂ hNew₁ hMember₁ hNew₂ hMember₂
    exact h.single s₁ i₁ o₁ s₂ i₂ o₂ (ended_iff.mp hNew₁).2 hMember₁ (ended_iff.mp hNew₂).2 hMember₂
  · intro s' i o' j hNew hMember hj hNe
    rw [hChannel]
    exact h.superseded s' i o' j (ended_iff.mp hNew).2 hMember hj hNe

end Objects

namespace Ledger

variable (h : Ledger inc channel leaving messages reports)

include h

theorem removeUnused (now : Instant) :
    Ledger (inc.removeUnused now) channel leaving messages reports := by
  rw [Incarnations.removeUnused]
  cases hCurrent : inc.current with
  | none => exact h
  | some arc =>
    dsimp only
    split
    · rename_i hRemovable
      have hEmpty : (inc.channelAt arc).isEmpty = true := by
        rw [AppChannels.removable, Bool.and_eq_true] at hRemovable
        exact hRemovable.1
      have hPresent (u : String) : ¬ inc.Present u := by
        rintro ⟨i, hi, hMember⟩
        rw [hCurrent, Option.some.injEq] at hi
        exact not_hasMember_of_isEmpty (hi ▸ hEmpty) u hMember
      have hOccupied : ¬ inc.Occupied := by
        rintro ⟨i, hi, hFull⟩
        rw [hCurrent, Option.some.injEq] at hi
        rw [← hi, hEmpty] at hFull
        cases hFull
      refine { h with
        detached := ?_, currentAllocated := ?_, superseded := ?_, messageState := ?_,
        reportState := ?_ }
      · intro i _
        by_cases hi : i = arc
        · rw [hi]
          exact hEmpty
        · apply h.detached i
          rw [hCurrent]
          exact fun hSome => hi (Option.some.inj hSome).symm
      · intro i hi
        cases hi
      · intro s i o j _ _ hj
        cases hj
      · refine fun u => (h.messageState u).congr (or_congr_left (iff_of_false (hPresent u) ?_))
        rintro ⟨i, hi, -⟩
        cases hi
      · refine h.reportState.congr (or_congr_left (iff_of_false hOccupied ?_))
        rintro ⟨i, hi, -⟩
        cases hi
    · exact h

theorem entryOrNew (app : Application) :
    Ledger (inc.entryOrNew app channel).2 channel leaving messages reports := by
  rw [Incarnations.entryOrNew]
  cases hCurrent : inc.current with
  | some arc => exact h
  | none =>
    have hFresh := h.allocated inc.fresh le_rfl
    have hNe (s : String) (i : Nat) (o : UnsubscribeOutcome) (hLeaving : leaving s = some (i, o)) :
        i ≠ inc.fresh := h.ne_of_holder hLeaving hFresh
    have hNew := withCacheTtl_exact channel (AppChannels.cacheTtlOf app)
    refine ⟨⟨?_, ?_, ?_, ?_, ?_, ?_, ?_, ?_, h.single, ?_⟩, ?_, ?_⟩
    · exact forall_setObject h.exact hNew
    · exact forall_setObject (P := fun ch => ch.kind = _) h.kind rfl
    · intro i _
      change ((inc.setObject _ _).channelAt i).isEmpty = true
      rw [channelAt_setObject]
      split
      · rfl
      · exact h.detached i (by rw [hCurrent]; exact (Option.some_ne_none i).symm)
    · intro i hi
      cases hi
      exact Nat.lt_succ_self _
    · intro i hi
      change (inc.setObject _ _).holderAt i = none
      rw [holderAt_setObject]
      split
      · rfl
      · exact h.allocated i (Nat.le_of_succ_le hi)
    · intro s i
      change (inc.setObject _ _).holderAt i = some s ↔ _
      rw [holderAt_setObject, ← h.holder]
      split
      · rename_i hi
        rw [hi, hFresh]
      · rfl
    · intro s i o hLeaving hMember
      change _ = ((inc.setObject _ _).channelAt i).len
      rw [channelAt_setObject, if_neg (hNe s i o hLeaving)]
      exact h.count s i o hLeaving hMember
    · intro s i o u hLeaving hUser
      change _ ∧ _ ∧ ¬ ((inc.setObject _ _).channelAt i).HasMember u
      rw [channelAt_setObject, if_neg (hNe s i o hLeaving)]
      exact h.gone s i o u hLeaving hUser
    · intro s i o j _ _ hj _
      cases hj
      change ((inc.setObject _ _).channelAt inc.fresh).isEmpty = true
      rw [channelAt_setObject, if_pos rfl]
      rfl
    · refine fun u => (h.messageState u).congr (or_congr_left ⟨?_, ?_⟩)
      · rintro ⟨i, hi, -⟩
        rw [hCurrent] at hi
        cases hi
      · rintro ⟨i, hi, hMember⟩
        cases hi
        change ((inc.setObject _ _).channelAt inc.fresh).HasMember u at hMember
        rw [channelAt_setObject, if_pos rfl] at hMember
        exact absurd hMember (hasMember_withCacheTtl _ _ u)
    · refine h.reportState.congr (or_congr_left ⟨?_, ?_⟩)
      · rintro ⟨i, hi, -⟩
        rw [hCurrent] at hi
        cases hi
      · rintro ⟨i, hi, hFull⟩
        cases hi
        change ((inc.setObject _ _).channelAt inc.fresh).isEmpty = false at hFull
        rw [channelAt_setObject, if_pos rfl] at hFull
        cases hFull

theorem setCachedPayload (arc : Nat) (now : Instant) (payload : EventPayload) :
    Ledger (inc.setObject arc ⟨(inc.channelAt arc).setCachedPayload now payload, inc.holderAt arc⟩)
      channel leaving messages reports := by
  have hMembers (i : Nat) : ((inc.setObject arc
      ⟨(inc.channelAt arc).setCachedPayload now payload, inc.holderAt arc⟩).channelAt i).members =
      (inc.channelAt i).members := by
    rw [channelAt_setObject]
    split
    · rename_i hi
      rw [setCachedPayload_members, hi]
    · rfl
  have hHolder (i : Nat) : (inc.setObject arc
      ⟨(inc.channelAt arc).setCachedPayload now payload, inc.holderAt arc⟩).holderAt i =
      inc.holderAt i := by
    rw [holderAt_setObject]
    split
    · rename_i hi
      rw [hi]
    · rfl
  refine ⟨⟨?_, ?_, ?_, h.currentAllocated, ?_, ?_, ?_, ?_, h.single, ?_⟩, ?_, ?_⟩
  · exact forall_setObject h.exact ((h.exact arc).setCachedPayload now payload)
  · exact forall_setObject (P := fun ch => ch.kind = _) h.kind
      ((setCachedPayload_kind ..).trans (h.kind arc))
  · intro i hi
    rw [isEmpty, hMembers]
    exact h.detached i hi
  · intro i hi
    rw [hHolder]
    exact h.allocated i hi
  · intro s i
    rw [hHolder]
    exact h.holder s i
  · intro s i o hLeaving hMember
    rw [len, hMembers]
    exact h.count s i o hLeaving hMember
  · intro s i o u hLeaving hUser
    rw [Channel.HasMember, hMembers]
    exact h.gone s i o u hLeaving hUser
  · intro s i o j hLeaving hMember hCurrent hNe
    rw [isEmpty, hMembers]
    exact h.superseded s i o j hLeaving hMember hCurrent hNe
  · intro u
    simpa only [Present, Channel.HasMember, hMembers, current_setObject] using h.messageState u
  · simpa only [Occupied, isEmpty, hMembers, current_setObject] using h.reportState

theorem subscribe (hCurrent : inc.current = some arc) (hFree : inc.holderAt arc = none)
    (hQuiet : ∀ s i o, leaving s = some (i, o) → o.wasMember = false)
    (hNew : s ∉ (inc.channelAt arc).members) {presence : Option PresenceMember}
    (hPresence : presence.isSome = (ChannelKind.fromName channel).isPresence) :
    Ledger (inc.setObject arc ⟨((inc.channelAt arc).subscribe s presence).2, none⟩) channel leaving
      (fun u => messages u ++ if ((inc.channelAt arc).subscribe s presence).1.userAdded = true ∧
          presence.map PresenceMember.userId = some u then [true] else []) (reports ++
        if ((inc.channelAt arc).subscribe s presence).1.memberCount = 1 then [true] else []) := by
  have hExact := h.exact arc
  rw [← h.kind arc] at hPresence
  have hNoUser (u : String) : ¬ ∃ s i o, leaving s = some (i, o) ∧ o.userRemoved = some u := by
    rintro ⟨s', i, o, hLeaving, hUser⟩
    have hMember := (h.gone s' i o u hLeaving hUser).1
    rw [hQuiet s' i o hLeaving] at hMember
    cases hMember
  have hNoLast : ¬ ∃ s i o, leaving s = some (i, o) ∧ o.wasMember = true ∧ o.memberCount = 0 := by
    rintro ⟨s', i, o, hLeaving, hMember, -⟩
    rw [hQuiet s' i o hLeaving] at hMember
    cases hMember
  have hBefore (u : String) : inc.Present u ↔ (inc.channelAt arc).HasMember u := by
    simp [Present, hCurrent]
  have hAfter (u : String) : (inc.setObject arc
      ⟨((inc.channelAt arc).subscribe s presence).2, none⟩).Present u ↔
      presence.map PresenceMember.userId = some u ∨ inc.Present u := by
    rw [hBefore, Present, ← hasMember_subscribe hNew presence u]
    simp [hCurrent]
  have hLen := subscribe_len hNew presence
  have hCount := subscribe_memberCount (inc.channelAt arc) s presence
  have hFull : inc.Occupied ↔ (inc.channelAt arc).len ≠ 0 := by
    simp [Occupied, hCurrent, ← isEmpty_iff_len]
  have hOccupied : (inc.setObject arc
      ⟨((inc.channelAt arc).subscribe s presence).2, none⟩).Occupied := by
    refine ⟨arc, hCurrent, ?_⟩
    rw [channelAt_setObject, if_pos rfl, ← Bool.not_eq_true, isEmpty_iff_len, hLen]
    omega
  refine ⟨h.toObjects.subscribe hCurrent hFree hQuiet hPresence, fun u => ?_, ?_⟩
  · have hTold := h.messageState u
    rw [or_iff_left (hNoUser u)] at hTold ⊢
    split
    · rename_i hAdded
      have hFirst := (hExact.subscribe_userAdded hNew hPresence hAdded.2).mp hAdded.1
      exact hTold.concat (by simp [hBefore, hFirst]) (by simp [hAfter, hAdded.2])
    · rename_i hAdded
      rw [List.append_nil]
      refine hTold.congr (Iff.trans ?_ (hAfter u).symm)
      refine ⟨Or.inr, Or.rec (fun hUser => ?_) id⟩
      by_contra hMember
      rw [hBefore] at hMember
      exact hAdded ⟨(hExact.subscribe_userAdded hNew hPresence hUser).mpr hMember, hUser⟩
  · have hTold := h.reportState
    rw [or_iff_left hNoLast] at hTold ⊢
    split
    · exact hTold.concat (by rw [hFull]; simp; omega) (by simp [hOccupied])
    · rw [List.append_nil]
      exact hTold.congr (iff_of_true (hFull.mpr (by omega)) hOccupied)

theorem unsubscribe (hAllocated : arc < inc.fresh) (hFree : inc.holderAt arc = none)
    (hIdle : leaving s = none) :
    Ledger (inc.setObject arc ⟨((inc.channelAt arc).unsubscribe s).2, some s⟩) channel
      (update leaving s (some (arc, ((inc.channelAt arc).unsubscribe s).1))) messages reports := by
  have hExact := h.exact arc
  have hWas := unsubscribe_wasMember (inc.channelAt arc) s
  -- an object without members is left as it is
  have hEmptied (i : Nat) (hEmpty : (inc.channelAt i).isEmpty = true) : ((inc.setObject arc
      ⟨((inc.channelAt arc).unsubscribe s).2, some s⟩).channelAt i).isEmpty = true := by
    rw [channelAt_setObject]
    split
    · rename_i hArc
      rw [hArc] at hEmpty
      rwa [unsubscribe_of_notMem (AList.lookup_eq_none.mpr fun hMem => ?_)]
      exact Bool.false_ne_true ((isEmpty_eq_false_of_mem hMem).symm.trans hEmpty)
    · exact hEmpty
  refine ⟨⟨?_, ?_, ?_, h.currentAllocated, ?_, ?_, ?_, ?_, ?_, ?_⟩, ?_, ?_⟩
  · exact forall_setObject h.exact (hExact.unsubscribe s)
  · exact forall_setObject (P := fun ch => ch.kind = _) h.kind
      ((unsubscribe_kind ..).trans (h.kind arc))
  · intro i hi
    exact hEmptied i (h.detached i hi)
  · intro i hi
    rw [fresh_setObject] at hi
    rw [holderAt_setObject, if_neg (by omega)]
    exact h.allocated i hi
  · intro s' i
    rw [holderAt_setObject]
    constructor
    · intro hHolder
      split at hHolder
      · rename_i hi
        exact ⟨_, (began_iff hIdle).mpr (.inl ⟨(Option.some.inj hHolder).symm, hi, rfl⟩)⟩
      · obtain ⟨o, hLeaving⟩ := (h.holder s' i).mp hHolder
        exact ⟨o, (began_iff hIdle).mpr (.inr hLeaving)⟩
    · rintro ⟨o, hLeaving⟩
      rcases (began_iff hIdle).mp hLeaving with ⟨hs, hi, -⟩ | hOld
      · rw [if_pos hi, hs]
      · rw [if_neg (h.ne_of_holder hOld hFree)]
        exact (h.holder s' i).mpr ⟨o, hOld⟩
  · intro s' i o hLeaving hMember
    rcases (began_iff hIdle).mp hLeaving with ⟨-, rfl, rfl⟩ | hOld
    · rw [channelAt_setObject, if_pos rfl, unsubscribe_memberCount]
    · rw [channelAt_setObject, if_neg (h.ne_of_holder hOld hFree)]
      exact h.count s' i o hOld hMember
  · intro s' i o u hLeaving hUser
    rcases (began_iff hIdle).mp hLeaving with ⟨-, rfl, rfl⟩ | hOld
    · rw [channelAt_setObject, if_pos rfl]
      obtain ⟨hBefore, hAfter⟩ := (hExact.unsubscribe_userRemoved s u).mp hUser
      refine ⟨?_, h.kind i ▸ hExact.isPresence_of_hasMember hBefore, hAfter⟩
      rw [hWas]
      by_contra hMem
      rw [unsubscribe_of_notMem (AList.lookup_eq_none.mpr hMem)] at hAfter
      exact hAfter hBefore
    · rw [channelAt_setObject, if_neg (h.ne_of_holder hOld hFree)]
      exact h.gone s' i o u hOld hUser
  · intro s₁ i₁ o₁ s₂ i₂ o₂ hLeaving₁ hMember₁ hLeaving₂ hMember₂
    rcases (began_iff hIdle).mp hLeaving₁ with ⟨-, hi₁, ho₁⟩ | hOld₁
    · rcases (began_iff hIdle).mp hLeaving₂ with ⟨-, hi₂, -⟩ | hOld₂
      · rw [hi₁, hi₂]
      · rw [ho₁, hWas] at hMember₁
        rw [h.quiet_of_member hFree hMember₁ hOld₂] at hMember₂
        cases hMember₂
    · rcases (began_iff hIdle).mp hLeaving₂ with ⟨-, -, ho₂⟩ | hOld₂
      · rw [ho₂, hWas] at hMember₂
        rw [h.quiet_of_member hFree hMember₂ hOld₁] at hMember₁
        cases hMember₁
      · exact h.single s₁ i₁ o₁ s₂ i₂ o₂ hOld₁ hMember₁ hOld₂ hMember₂
  · intro s' i o j hLeaving hMember hj hNe
    rw [current_setObject] at hj
    rcases (began_iff hIdle).mp hLeaving with ⟨-, rfl, rfl⟩ | hOld
    · rw [hWas] at hMember
      rw [h.current_of_member hMember, Option.some.injEq] at hj
      exact absurd hj.symm hNe
    · exact hEmptied j (h.superseded s' i o j hOld hMember hj hNe)
  · intro u
    rw [exists_began hIdle, ← or_assoc, ← h.present_unsubscribe arc s u]
    exact h.messageState u
  · rw [exists_began hIdle, ← or_assoc, ← h.occupied_unsubscribe arc s]
    exact h.reportState

theorem announce (hLeaving : leaving s = some (arc, o)) :
    Ledger (inc.setObject arc ⟨inc.channelAt arc, none⟩) channel (update leaving s none)
      (fun u => messages u ++ if o.wasMember = true ∧ o.userRemoved = some u then [false] else [])
      (reports ++ if o.wasMember = true ∧ o.memberCount = 0 then [false] else []) := by
  have hPresent (u : String) :
      (inc.setObject arc ⟨inc.channelAt arc, none⟩).Present u ↔ inc.Present u := by
    simp only [Present, Objects.channelAt_released, current_setObject]
  have hOccupied :
      (inc.setObject arc ⟨inc.channelAt arc, none⟩).Occupied ↔ inc.Occupied := by
    simp only [Occupied, Objects.channelAt_released, current_setObject]
  refine ⟨h.toObjects.announce hLeaving, fun u => ?_, ?_⟩
  · rw [hPresent]
    split
    · rename_i hUser
      refine (h.messageState u).concat (iff_of_true (.inr ⟨s, arc, o, hLeaving, hUser.2⟩) rfl)
        (iff_of_false ?_ Bool.false_ne_true)
      rintro (hHas | ⟨s', i, o', hNew, hUser'⟩)
      · exact h.not_present_of_unannounced hLeaving hUser.2 hHas
      · obtain ⟨hs, hLeaving'⟩ := ended_iff.mp hNew
        exact hs (h.eq_of_unannounced hLeaving hUser.1 hLeaving'
          (h.gone s' i o' u hLeaving' hUser').1)
    · rename_i hUser
      have hOther : ¬ o.userRemoved = some u := fun hGone =>
        hUser ⟨(h.gone s arc o u hLeaving hGone).1, hGone⟩
      have hTold := h.messageState u
      rw [exists_ended hLeaving, or_iff_right hOther] at hTold
      rwa [List.append_nil]
  · rw [hOccupied]
    split
    · rename_i hLast
      refine h.reportState.concat (iff_of_true (.inr ⟨s, arc, o, hLeaving, hLast⟩) rfl)
        (iff_of_false ?_ Bool.false_ne_true)
      rintro (hFull | ⟨s', i, o', hNew, hMember', -⟩)
      · exact h.not_occupied_of_unannounced hLeaving hLast.1 hLast.2 hFull
      · obtain ⟨hs, hLeaving'⟩ := ended_iff.mp hNew
        exact hs (h.eq_of_unannounced hLeaving hLast.1 hLeaving' hMember')
    · rename_i hLast
      have hTold := h.reportState
      rw [exists_ended hLeaving, or_iff_right hLast] at hTold
      rwa [List.append_nil]

end Ledger

end Zatat.Churn
